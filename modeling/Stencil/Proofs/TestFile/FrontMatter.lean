import Stencil.TestFile
import Stencil.Proofs.Except
import Stencil.Proofs.Segment.Partition
import Stencil.Proofs.Segment.Written
import Mathlib

/-!
# Front matters that are read back

A test file is written as a line of three hyphens, the lines of the front matter, such a line again,
and the template, where the lines end in line feeds or in carriage returns with line feeds.
Splitting it gives the front matter and the template back, except where the front matter has no
lines: the line break that the closing hyphens are looked for behind is then the one of the opening
line, which is already gone.

* `Text.splitAt?_lines` finds the closing hyphens, and `TestFile.split_written` splits a file.
* `Toml.read?_hyphens` says that the closing line is no TOML, so that a front matter without lines
  is never read.
* `TestFile.read_written_iff` is the result.
-/

namespace Stencil

/-! ## Finding the closing line -/

namespace Text

variable {lead cs : List Char} {c : Char}

/-- A character that the lead does not have ends all search for it. -/
theorem dropLead?_append_cons (hc : c ∉ lead) (h : dropLead? lead cs = none) (rest : List Char) :
    dropLead? lead (cs ++ c :: rest) = none := by
  induction lead generalizing cs with
  | nil => cases h
  | cons a lead ih =>
    obtain ⟨hne, hc⟩ := not_or.1 (mt List.mem_cons.2 hc)
    cases cs with
    | nil => exact if_neg (Ne.symm hne)
    | cons d cs =>
      rw [dropLead?] at h
      rw [List.cons_append, dropLead?]
      split at h
      · next heq => rw [if_pos heq, ih hc h]
      · next heq => rw [if_neg heq]

theorem dropLead?_eq_none (h : ¬ lead <+: cs) : dropLead? lead cs = none := by
  cases hd : dropLead? lead cs with
  | none => rfl
  | some rest => exact absurd ⟨rest, (Segment.dropLead?_eq hd).symm⟩ h

variable {mark brk : List Char}

/-- Up to its line feed a line has no place for a mark that starts with one. -/
theorem splitAt?_line {l : List Char} (hl : '\n' ∉ l) (hbrk : '\n' ∉ brk) (behind : List Char) :
    splitAt? ('\n' :: mark) (l ++ (brk ++ ['\n']) ++ behind) =
      (splitAt? ('\n' :: mark) ('\n' :: behind)).map fun r => (l ++ brk ++ r.1, r.2) := by
  rw [← splitAt?_append fun h => (List.mem_append.1 h).elim hl hbrk]
  simp only [List.append_assoc, List.singleton_append]

/-- The mark is found at the start of the first line behind the lines, of which only the first one
may start with it too. The lines end in `brk` and a line feed. -/
theorem splitAt?_lines (hmark : ∀ c ∈ brk ++ ['\n'], c ∉ mark) (hbrk : '\n' ∉ brk)
    {first : List Char} {lines : List (List Char)} (hlines : ∀ l ∈ first :: lines, '\n' ∉ l)
    (hlead : ∀ l ∈ lines, ¬ mark <+: l) (rest : List Char) :
    splitAt? ('\n' :: mark)
        ((first :: lines).flatMap (· ++ (brk ++ ['\n'])) ++ (mark ++ rest)) =
      some ((brk ++ ['\n']).intercalate (first :: lines) ++ brk, rest) := by
  obtain ⟨hfirst, hothers⟩ := List.forall_mem_cons.1 hlines
  induction lines generalizing first with
  | nil =>
    have hfound : splitAt? ('\n' :: mark) ('\n' :: (mark ++ rest)) = some ([], rest) := by
      rw [splitAt?, ← List.cons_append, dropLead?_append_self]
    rw [List.flatMap_cons, List.flatMap_nil, List.append_nil, splitAt?_line hfirst hbrk, hfound,
      List.intercalate_singleton]
    simp
  | cons l lines ih =>
    obtain ⟨hl, hlead⟩ := List.forall_mem_cons.1 hlead
    have ih := ih hothers hlead (hothers l List.mem_cons_self) (List.forall_mem_cons.1 hothers).2
    generalize hbehind :
      (l :: lines).flatMap (· ++ (brk ++ ['\n'])) ++ (mark ++ rest) = behind at ih
    have hnone : dropLead? mark behind = none := by
      obtain ⟨c, ending, hc⟩ : ∃ c ending, brk ++ ['\n'] = c :: ending :=
        List.exists_cons_of_ne_nil (List.append_ne_nil_of_right_ne_nil _ (List.cons_ne_nil _ _))
      rw [← hbehind, List.flatMap_cons, hc, List.append_assoc, List.append_assoc, List.cons_append]
      refine dropLead?_append_cons (hmark c ?_) (dropLead?_eq_none hl) _
      rw [hc]
      exact List.mem_cons_self
    have hpast : splitAt? ('\n' :: mark) ('\n' :: behind) =
        (splitAt? ('\n' :: mark) behind).map fun r => ('\n' :: r.1, r.2) := by
      rw [splitAt?, dropLead?, if_pos rfl, hnone]
    rw [List.flatMap_cons, List.append_assoc, hbehind, splitAt?_line hfirst hbrk, hpast, ih,
      List.intercalate_cons_cons]
    simp

end Text

/-! ## Writing test files -/

/-- The two ways to end a line. -/
inductive LineEnding where
  | feed
  | returnFeed

namespace LineEnding

/-- How a line ending is written. -/
def text : LineEnding → String
  | .feed => "\n"
  | .returnFeed => "\r\n"

/-- What the ending has in front of its line feed. -/
def beforeFeed : LineEnding → List Char
  | .feed => []
  | .returnFeed => ['\r']

theorem toList_text (e : LineEnding) : e.text.toList = e.beforeFeed ++ ['\n'] := by
  cases e <;> rfl

theorem eq_return_of_mem {e : LineEnding} {c : Char} (h : c ∈ e.beforeFeed) : c = '\r' := by
  cases e with
  | feed => cases h
  | returnFeed => exact List.mem_singleton.1 h

end LineEnding

namespace TestFile

/-- A test file with a front matter of some lines, behind byte order marks. -/
def written (marks : Nat) (e : LineEnding) (lines : List String) (source : String) : String :=
  String.ofList (List.replicate marks '\uFEFF') ++ "---" ++ e.text ++
    String.join (lines.map (· ++ e.text)) ++ "---" ++ e.text ++ source

/-- The line without the carriage returns at its end. -/
def dropReturns (cs : List Char) : List Char := (cs.reverse.dropWhile (· = '\r')).reverse

/-- The text of the lines up to the ending of the last one. Carriage returns at the end of the last
line belong to its ending. -/
def front (e : LineEnding) (lines : List String) : String :=
  String.ofList (dropReturns (e.text.intercalate lines).toList)

theorem dropReturns_append {returns : List Char} (h : ∀ c ∈ returns, c = '\r') (cs : List Char) :
    dropReturns (cs ++ returns) = dropReturns cs := by
  rw [dropReturns, List.reverse_append, List.dropWhile_append_of_pos, ← dropReturns]
  intro c hc
  exact decide_eq_true (h c (List.mem_reverse.1 hc))

theorem dropReturns_eq_self {cs : List Char} (h : ∀ c ∈ cs.getLast?, c ≠ '\r') :
    dropReturns cs = cs := by
  rw [dropReturns, Text.dropWhile_eq_self, List.reverse_reverse]
  intro c hc
  rw [List.head?_reverse] at hc
  exact decide_eq_false (h c hc)

theorem dropBreak_text (e : LineEnding) (cs : List Char) :
    dropBreak (e.text.toList ++ cs) = cs := by
  cases e <;> rfl

/-- Behind its opening line a file is cut at the first line that starts with hyphens, but not at the
line right behind the opening one. -/
theorem split_opened {content : String} {marks : Nat} {e : LineEnding} {cs : List Char}
    (h : content.toList =
      List.replicate marks '\uFEFF' ++ ("---".toList ++ (e.text.toList ++ cs))) :
    split content =
      match Text.splitAt? ('\n' :: "---".toList) cs with
      | none => .error .noClosing
      | some r => .ok (String.ofList (dropReturns r.1), String.ofList (dropBreak r.2)) := by
  have hmarks : content.toList.dropWhile (· = '\uFEFF') =
      "---".toList ++ (e.text.toList ++ cs) := by
    rw [h, List.dropWhile_append_of_pos]
    · rfl
    · intro c hc
      exact decide_eq_true (List.eq_of_mem_replicate hc)
  have hclosing : "\n---".toList = '\n' :: "---".toList := rfl
  rw [split, hmarks, Text.dropLead?_append_self, hclosing]
  simp only [dropBreak_text]
  cases Text.splitAt? ('\n' :: "---".toList) cs <;> rfl

/-- **A front matter with lines is split off**, whatever its first line and the template are. -/
theorem split_written {first : String} {lines : List String}
    (hbreak : ∀ l ∈ first :: lines, '\n' ∉ l.toList)
    (hlead : ∀ l ∈ lines, ¬ "---".toList <+: l.toList) (marks : Nat) (e : LineEnding)
    (source : String) :
    split (written marks e (first :: lines) source) = .ok (front e (first :: lines), source) := by
  have hopened : (written marks e (first :: lines) source).toList =
      List.replicate marks '\uFEFF' ++ ("---".toList ++ (e.text.toList ++
        (((first :: lines).map String.toList).flatMap (· ++ e.text.toList) ++
          ("---".toList ++ (e.text.toList ++ source.toList))))) := by
    simp only [written, String.toList_append, String.toList_ofList, String.toList_join,
      List.flatMap_map, List.append_assoc]
  have hmark : ∀ c ∈ e.beforeFeed ++ ['\n'], c ∉ "---".toList := by
    cases e <;> simp [LineEnding.beforeFeed]
  have hfeed : '\n' ∉ e.beforeFeed := by
    cases e <;> decide
  have hlines : ∀ l ∈ first.toList :: lines.map String.toList, '\n' ∉ l := by
    rw [← List.map_cons]
    exact List.forall_mem_map.2 hbreak
  have hfound := Text.splitAt?_lines hmark hfeed hlines (List.forall_mem_map.2 hlead)
    (e.text.toList ++ source.toList)
  rw [← e.toList_text, ← List.map_cons, ← String.toList_intercalate] at hfound
  rw [split_opened hopened, hfound]
  dsimp only
  rw [dropBreak_text, String.ofList_toList, dropReturns_append fun _ => LineEnding.eq_return_of_mem]
  rfl

end TestFile

/-! ## A front matter without lines -/

/-- What is left of a text at the end of a line: nothing, or a line break with what is behind it. -/
def Text.AtLineEnd (cs : List Char) : Prop := ∀ c ∈ cs.head?, c = '\n' ∨ c = '\r'

theorem Text.AtLineEnd.of_isPrefix {cs ds : List Char} (h : AtLineEnd ds) (hcs : cs <+: ds) :
    AtLineEnd cs := by
  intro c hc
  obtain ⟨rest, rfl⟩ := hcs
  refine h c ?_
  rw [List.head?_append, hc]
  rfl

theorem LineEnding.atLineEnd_text (e : LineEnding) (cs : List Char) :
    Text.AtLineEnd (e.text.toList ++ cs) := by
  intro c hc
  cases e with
  | feed => exact .inl (Option.some.inj hc).symm
  | returnFeed => exact .inr (Option.some.inj hc).symm

namespace Toml

variable {rest : List Char}

/-- A line break ends a key that is not in quotes. -/
theorem key?_hyphens (h : Text.AtLineEnd rest) :
    key? ('-' :: '-' :: '-' :: rest) = some (([], "---"), rest) := by
  have hbare : rest.takeWhile isBareChar = [] := by
    cases rest with
    | nil => rfl
    | cons c rest => rcases h c rfl with rfl | rfl <;> rfl
  have hsimple : simpleKey? ('-' :: '-' :: '-' :: rest) = some ("---", rest) := by
    show (if (('-' :: '-' :: '-' :: rest).takeWhile isBareChar).isEmpty then none else _) = _
    have htake : ('-' :: '-' :: '-' :: rest).takeWhile isBareChar = ['-', '-', '-'] :=
      congrArg (fun cs => '-' :: '-' :: '-' :: cs) hbare
    rw [htake]
    rfl
  have hkeys : keys? maxKeys ('-' :: '-' :: '-' :: rest) = some (["---"], rest) := by
    rw [show maxKeys = 78 + 1 from rfl, keys?]
    show ((simpleKey? ('-' :: '-' :: '-' :: rest)).bind _) = _
    rw [hsimple]
    cases rest with
    | nil => rfl
    | cons c rest => rcases h c rfl with rfl | rfl <;> rfl
  rw [key?, hkeys]
  rfl

/-- Three hyphens alone in a line are no entry. -/
theorem read?_hyphens (h : Text.AtLineEnd rest) :
    read? (String.ofList ('-' :: '-' :: '-' :: rest)) = none := by
  have hcontent : content? .empty ('-' :: '-' :: '-' :: rest) = none := by
    show Option.bind ( entry? (value? maxContainers) ('-' :: '-' :: '-' :: rest)) _ = none
    unfold entry?
    rw [key?_hyphens h]
    cases rest with
    | nil => rfl
    | cons c rest => rcases h c rfl with rfl | rfl <;> rfl
  rw [read?, String.toList_ofList]
  show ((lines? _ Document.empty ('-' :: '-' :: '-' :: rest)).bind _) = none
  rw [lines?]
  show (((content? Document.empty ('-' :: '-' :: '-' :: rest)).bind _).bind _) = none
  rw [hcontent]
  rfl

end Toml

namespace TestFile

theorem dropReturns_isPrefix (cs : List Char) : dropReturns cs <+: cs := by
  rw [dropReturns, ← List.reverse_suffix, List.reverse_reverse]
  exact List.dropWhile_suffix _

theorem dropReturns_append_of_ne {front : List Char} (h : ∃ c ∈ front.getLast?, c ≠ '\r')
    (cs : List Char) : dropReturns (front ++ cs) = front ++ dropReturns cs := by
  obtain ⟨c, hc, hne⟩ := h
  have hfront : dropReturns front = front := dropReturns_eq_self fun d hd => by
    obtain rfl := Option.some.inj (hc.symm.trans hd)
    exact hne
  cases hcs : cs.reverse.dropWhile (· = '\r') with
  | nil =>
    have hall : ∀ c ∈ cs, c = '\r' := fun c hc =>
      of_decide_eq_true (List.dropWhile_eq_nil_iff.1 hcs c (List.mem_reverse.2 hc))
    rw [dropReturns_append hall, hfront, dropReturns, hcs, List.reverse_nil, List.append_nil]
  | cons d ds =>
    rw [dropReturns, List.reverse_append, List.dropWhile_append, hcs, dropReturns, hcs]
    simp

/-- Where the first line feed of a text is behind three hyphens, they are in front of any other. -/
theorem exists_hyphens {e : LineEnding} {before after cs : List Char}
    (h : "---".toList ++ (e.text.toList ++ cs) = before ++ '\n' :: after) :
    ∃ behind, before = '-' :: '-' :: '-' :: behind ∧ Text.AtLineEnd behind := by
  match before with
  | [] | [_] | [_, _] => cases e <;> simp at h
  | a :: b :: c :: behind =>
    have hall : '-' :: '-' :: '-' :: (e.text.toList ++ cs) =
      a :: b :: c :: (behind ++ '\n' :: after) := h
    simp only [List.cons.injEq] at hall
    obtain ⟨rfl, rfl, rfl, hbehind⟩ := hall
    exact ⟨behind, rfl, (e.atLineEnd_text cs).of_isPrefix ⟨_, hbehind.symm⟩⟩

/-- What is split off of a file without lines in its front matter starts with the closing line. -/
theorem split_written_nil {marks : Nat} {e : LineEnding} {source text rest : String}
    (h : split (written marks e [] source) = .ok (text, rest)) :
    ∃ behind : List Char, text = String.ofList ('-' :: '-' :: '-' :: behind) ∧
      Text.AtLineEnd behind := by
  have hopened : (written marks e [] source).toList =
      List.replicate marks '\uFEFF' ++ ("---".toList ++ (e.text.toList ++
        ("---".toList ++ (e.text.toList ++ source.toList)))) := by
    simp only [written, String.toList_append, String.toList_ofList, List.map_nil, String.join_nil,
      List.append_assoc]
    rfl
  rw [split_opened hopened] at h
  cases hcut : Text.splitAt? ('\n' :: "---".toList)
      ("---".toList ++ (e.text.toList ++ source.toList)) with
  | none =>
    rw [hcut] at h
    cases h
  | some r =>
    obtain ⟨before, after⟩ := r
    rw [hcut] at h
    obtain ⟨rfl, -⟩ := Prod.mk.inj (Except.ok.inj h)
    have hcs := Segment.splitAt?_eq hcut
    rw [List.append_assoc] at hcs
    obtain ⟨behind, rfl, hend⟩ := exists_hyphens hcs
    have hreturns : dropReturns ('-' :: '-' :: '-' :: behind) =
        '-' :: '-' :: '-' :: dropReturns behind :=
      @dropReturns_append_of_ne ['-', '-', '-'] ⟨'-', rfl, by decide⟩ behind
    exact ⟨dropReturns behind, congrArg String.ofList hreturns,
      hend.of_isPrefix (dropReturns_isPrefix behind)⟩

end TestFile

/-! ## What a front matter may leave out -/

namespace TestConfig

/-- Whether an entry is one of a front matter does not depend on the others. -/
theorem isSome_set? (c : TestConfig) (entry : String × Toml) :
    (c.set? entry).isSome = (set? {} entry).isSome := by
  unfold set?
  split
  case h_2 t => cases t.toObject? <;> rfl
  case h_3 t =>
    cases t.entries? with
    | none => rfl
    | some entries => cases h : stringEntries? entries <;> simp [h]
  all_goals rfl

theorem isSome_foldlM_set? (c : TestConfig) (entries : List (String × Toml)) :
    (entries.foldlM set? c).isSome ↔ ∀ entry ∈ entries, (set? {} entry).isSome := by
  induction entries generalizing c with
  | nil => simp
  | cons entry entries ih =>
    rw [List.foldlM_cons, List.forall_mem_cons, ← isSome_set? c entry]
    cases h : c.set? entry with
    | none => simp
    | some c => simpa using ih c

end TestConfig

namespace TestFile

/-- The last character is that of the last line, where that has any. -/
theorem getLast?_intercalate {e : LineEnding} {lines : List String}
    (h : ∀ l ∈ lines.getLast?, ∀ c ∈ l.toList.getLast?, c ≠ '\r') :
    ∀ c ∈ (e.text.intercalate lines).toList.getLast?, c ≠ '\r' := by
  induction lines with
  | nil => simp
  | cons l lines ih =>
    cases lines with
    | nil =>
      rw [String.intercalate_singleton]
      exact h l rfl
    | cons l' lines =>
      rw [String.intercalate_cons_cons, String.toList_append, List.getLast?_append]
      cases hlast : (e.text.intercalate (l' :: lines)).toList.getLast? with
      | some d =>
        rw [Option.some_or, ← hlast]
        exact ih h
      | none =>
        intro c hc
        rw [Option.none_or, String.toList_append, List.getLast?_append, e.toList_text,
          List.getLast?_concat] at hc
        obtain rfl := Option.some.inj hc
        decide

theorem read_eq_ok_iff {content text : String} {config : TestConfig} :
    read content = .ok (config, text) ↔
      ∃ found, split content = .ok (found, text) ∧ TestConfig.ofToml? found = some config := by
  rw [read, Except.bind_eq_ok_iff]
  constructor
  · rintro ⟨⟨found, rest⟩, hs, hr⟩
    cases hc : TestConfig.ofToml? found with
    | none =>
      simp only [hc] at hr
      cases hr
    | some c =>
      simp only [hc] at hr
      obtain ⟨rfl, rfl⟩ := Prod.mk.inj (Except.ok.inj hr)
      exact ⟨found, hs, hc⟩
  · rintro ⟨found, hs, hc⟩
    refine ⟨(found, text), hs, ?_⟩
    simp only [hc]
    rfl

/-- A front matter without lines is refused: its closing line is taken for TOML, if the file has
another such line behind it. -/
theorem read_written_nil (marks : Nat) (e : LineEnding) (source : String)
    (result : TestConfig × String) : read (written marks e [] source) ≠ .ok result := by
  intro h
  obtain ⟨found, hs, hc⟩ := read_eq_ok_iff.1 h
  obtain ⟨behind, rfl, hend⟩ := split_written_nil hs
  rw [TestConfig.ofToml?, Toml.read?_hyphens hend] at hc
  cases hc

/-- **A front matter is read back if it has lines.** Splitting a test file gives the text of the
lines and the template if and only if there are lines; carriage returns at the end of the last line
are taken for its ending. The file is read if and only if, besides, the text is the configuration of
a test in TOML, which may leave out any of its entries. -/
theorem read_written_iff {lines : List String} (hbreak : ∀ l ∈ lines, '\n' ∉ l.toList)
    (hlead : ∀ l ∈ lines, ¬ "---".toList <+: l.toList) (marks : Nat) (e : LineEnding)
    (source : String) :
    (split (written marks e lines source) = .ok (front e lines, source) ↔ lines ≠ []) ∧
    (∀ config text, read (written marks e lines source) = .ok (config, text) ↔
      lines ≠ [] ∧ TestConfig.ofToml? (front e lines) = some config ∧ text = source) ∧
    ((∀ l ∈ lines.getLast?, ∀ c ∈ l.toList.getLast?, c ≠ '\r') →
      front e lines = e.text.intercalate lines) ∧
    ∀ entries kept : List (String × Toml), kept.Sublist entries →
      (entries.foldlM TestConfig.set? {}).isSome → (kept.foldlM TestConfig.set? {}).isSome := by
  have hsplit (h : lines ≠ []) :
      split (written marks e lines source) = .ok (front e lines, source) := by
    obtain ⟨first, others, rfl⟩ := List.exists_cons_of_ne_nil h
    exact split_written hbreak (List.forall_mem_cons.1 hlead).2 marks e source
  refine ⟨⟨?_, hsplit⟩, fun config text => ⟨fun h => ?_, ?_⟩, fun hlast => ?_,
    fun entries kept hsub hall => ?_⟩
  · rintro h rfl
    obtain ⟨behind, htext, -⟩ := split_written_nil h
    have hempty := congrArg String.toList htext
    rw [front, String.toList_ofList, String.toList_ofList] at hempty
    cases hempty
  · have hne : lines ≠ [] := by
      rintro rfl
      exact read_written_nil marks e source _ h
    obtain ⟨found, hs, hc⟩ := read_eq_ok_iff.1 h
    obtain ⟨rfl, rfl⟩ := Prod.mk.inj (Except.ok.inj ((hsplit hne).symm.trans hs))
    exact ⟨hne, hc, rfl⟩
  · rintro ⟨hne, hc, rfl⟩
    exact read_eq_ok_iff.2 ⟨_, hsplit hne, hc⟩
  · rw [front, dropReturns_eq_self (getLast?_intercalate hlast), String.ofList_toList]
  · rw [TestConfig.isSome_foldlM_set?] at hall ⊢
    exact fun entry hentry => hall entry (hsub.mem hentry)

/-- A blank line at the end of the front matter, and a template that starts with a line break and
has a line of hyphens. -/
theorem read_written_iff_blankLine :
    (∀ l ∈ ["template_id = 't'", ""], '\n' ∉ l.toList) ∧
      (∀ l ∈ ["template_id = 't'", ""], ¬ "---".toList <+: l.toList) ∧
      front .returnFeed ["template_id = 't'", ""] = "template_id = 't'\r\n" ∧
      read (written 1 .returnFeed ["template_id = 't'", ""] "\r\n---\r\n-") =
        .ok ({ templateId := some "t" }, "\r\n---\r\n-") := by
  have hbreak : ∀ l ∈ ["template_id = 't'", ""], '\n' ∉ l.toList := by decide
  have hlead : ∀ l ∈ ["template_id = 't'", ""], ¬ "---".toList <+: l.toList := by decide
  have hfront : front .returnFeed ["template_id = 't'", ""] = "template_id = 't'\r\n" := by cbv
  have hconfig : TestConfig.ofToml? "template_id = 't'\r\n" = some { templateId := some "t" } := by
    cbv
  obtain ⟨-, hread, -, -⟩ := read_written_iff hbreak hlead 1 .returnFeed "\r\n---\r\n-"
  exact ⟨hbreak, hlead, hfront, (hread _ _).2 ⟨List.cons_ne_nil _ _, hfront ▸ hconfig, rfl⟩⟩

/-- Both lines of hyphens are there, and no lines are a configuration. -/
theorem read_written_nil_plain :
    written 0 .feed [] "plain" = "---\n---\nplain" ∧
      read (written 0 .feed [] "plain") = .error .noClosing ∧
      TestConfig.ofToml? (front .feed []) = some {} := by
  have hwritten : written 0 .feed [] "plain" = "---\n---\nplain" := by cbv
  have hread : read "---\n---\nplain" = .error .noClosing := by cbv
  have hconfig : TestConfig.ofToml? (front .feed []) = some {} := by cbv
  exact ⟨hwritten, hwritten ▸ hread, hconfig⟩

end TestFile
end Stencil
