import Stencil.FileSystem.TemplateDirectory
import Stencil.Session
import Stencil.Proofs.Forest.Guards
import Mathlib

/-!
# Templates stay in their directory

Whatever an `import` names, and whatever the imported templates import in their turn, the files that
are read are entries of the template directory itself.

* `Path.IsEntryOf` is what makes a path one of an entry of a directory, and `Path.IsEntry.join` says
  that the name of an entry makes one.
* `TemplateDirectory.path?` is the file that finding a template reads, if it reads any
  (`TemplateDirectory.find?_resolver`).
* `Session.Reads` are the files that are read for a source. Nothing else in the file system makes a
  difference (`Session.parse_congr_reads`).
* `TemplateDirectory.confined` is the main result.
-/

namespace Stencil

namespace Path

/-- The name of an entry of a directory: a single component that does not lead anywhere else. -/
structure IsEntry (name : String) : Prop where
  no_slash : '/' ∉ name.toList
  no_backslash : '\\' ∉ name.toList
  ne_empty : name ≠ ""
  ne_point : name ≠ "."
  ne_points : name ≠ ".."

/-- A path is the one of the entry `name` in the directory `root`. It leads to where the path of the
directory leads, and from there to the entry. -/
structure IsEntryOf (root name path : String) : Prop where
  entry : IsEntry name
  eq_join : path = join root name
  names_eq : names path = names root ++ [name]
  isAbsolute_eq : isAbsolute path = isAbsolute root

theorem components_of_not_mem {name : String} (h : '/' ∉ name.toList) :
    components name = [name] := by
  rw [components, List.splitOn_eq_singleton h, List.map_singleton, String.ofList_toList]

theorem components_slash (root name : String) :
    components (root ++ "/" ++ name) = components root ++ components name := by
  have hlist : (root ++ "/" ++ name).toList = root.toList ++ '/' :: name.toList := by
    simp [String.toList_append]
  rw [components, hlist, List.splitOn_append_cons_self, List.map_append]
  rfl

theorem names_slash (root : String) : names (root ++ "/") = names root := by
  have hcomponents : components (root ++ "/") = components root ++ [""] := by
    rw [← @components_of_not_mem "" (by decide), ← components_slash, String.append_empty]
  simp [names, hcomponents]

theorem IsEntry.names_eq {name : String} (h : IsEntry name) : names name = [name] := by
  simp [names, components_of_not_mem h.no_slash, h.ne_empty, h.ne_point, h.ne_points]

theorem IsEntry.names_slash_append {name : String} (h : IsEntry name) (root : String) :
    names (root ++ "/" ++ name) = names root ++ [name] := by
  simp [names, components_slash, components_of_not_mem h.no_slash, h.ne_empty, h.ne_point,
    h.ne_points]

theorem isAbsolute_append {root : String} (h : root.toList ≠ []) (behind : String) :
    isAbsolute (root ++ behind) = isAbsolute root := by
  rw [isAbsolute, String.toList_append, List.head?_append_of_ne_nil _ h, isAbsolute]

theorem IsEntry.join {name : String} (h : IsEntry name) (root : String) :
    IsEntryOf root name (Path.join root name) := by
  have hhead : name.toList.head? ≠ some '/' := fun hslash =>
    h.no_slash (List.mem_of_head? hslash)
  suffices hleads : names (Path.join root name) = names root ++ [name] ∧
      isAbsolute (Path.join root name) = isAbsolute root from ⟨h, rfl, hleads.1, hleads.2⟩
  unfold Path.join
  -- The cases are those of `Path.join`. An absolute name is none of an entry.
  split
  case h_1 hroot =>
    obtain rfl : root = "" := by simpa using hroot
    have hempty : names "" = [] := by decide
    refine ⟨?_, by simpa [isAbsolute] using hhead⟩
    rw [h.names_eq, hempty, List.nil_append]
  case h_2 hslash _ => exact absurd hslash hhead
  case h_3 hroot _ =>
    have hne : root.toList ≠ [] := List.ne_nil_of_mem (List.mem_of_getLast? hroot)
    obtain ⟨cs, hcs⟩ := List.getLast?_eq_some_iff.1 hroot
    obtain rfl : root = String.ofList cs ++ "/" := by
      rw [← @String.ofList_toList root, hcs, String.ofList_append]
    refine ⟨?_, isAbsolute_append hne name⟩
    rw [names_slash, h.names_slash_append]
  case h_4 hroot _ =>
    have hne : root.toList ≠ [] := List.ne_nil_of_mem (List.mem_of_getLast? hroot)
    refine ⟨h.names_slash_append root, ?_⟩
    rw [String.append_assoc, isAbsolute_append hne]

end Path

namespace TemplateDirectory

theorem isName_iff (id : String) :
    isName id = true ↔ '/' ∉ id.toList ∧ '\\' ∉ id.toList ∧ id.toList.head? ≠ some '.' := by
  simp [isName, and_assoc]

theorem isEntry_append {id : String} (h : isName id = true) :
    Path.IsEntry (id ++ ".emboss") := by
  obtain ⟨hslash, hbackslash, -⟩ := (isName_iff id).1 h
  have hlength : 7 ≤ (id ++ ".emboss").length := by
    rw [String.length_append]
    exact Nat.le_add_left 7 _
  have hne : ∀ other : String, other.length < 7 → id ++ ".emboss" ≠ other := by
    rintro _ hother rfl
    omega
  exact ⟨by simpa using hslash, by simpa using hbackslash, hne _ (by decide), hne _ (by decide),
    hne _ (by decide)⟩

/-- The file that finding the template `id` reads, if it reads any. -/
def path? (d : TemplateDirectory) (id : String) : Option String :=
  if isName id then some (d.pathFor id) else none

theorem find?_resolver (d : TemplateDirectory) (fs : FileSystem) (id : String) :
    (d.resolver fs).find? id =
      (d.path? id).bind fun path => (fs.read path).toOption.map (TemplateSource.mk id) := by
  cases h : isName id <;> simp [resolver, Resolver.ofTexts, path?, h]

theorem path?_eq_none_iff {d : TemplateDirectory} {id : String} :
    d.path? id = none ↔
      '/' ∈ id.toList ∨ '\\' ∈ id.toList ∨ id.toList.head? = some '.' := by
  by_cases h : isName id = true
  · obtain ⟨hslash, hbackslash, hpoint⟩ := (isName_iff id).1 h
    simp [path?, h, hslash, hbackslash, hpoint]
  · have hrefused := mt (isName_iff id).2 h
    simp only [not_and_or, not_not] at hrefused
    exact iff_of_true (if_neg h) hrefused

theorem isEntryOf_of_path? {root id path : String} (h : path? { root } id = some path) :
    Path.IsEntryOf root (id ++ ".emboss") path := by
  obtain ⟨hname, hpath⟩ := Option.ite_none_right_eq_some.1 h
  obtain rfl := Option.some.inj hpath
  rw [pathFor, String.append_assoc]
  exact (isEntry_append hname).join root

end TemplateDirectory

/-- Two file systems have the same at all of the paths. -/
def FileSystem.AgreeOn (paths : String → Prop) (fs fs' : FileSystem) : Prop :=
  ∀ path, paths path → fs'.entry path = fs.entry path

namespace Session

/-- The session that looks up what is not registered in a template directory. -/
def withDirectory (d : TemplateDirectory) (fs : FileSystem) (s : Session) : Session :=
  { s with resolver := d.resolver fs }

/-- Building the forest of a source over a template directory reads the file at `path`: a template
is asked for that is not registered, and that is the one of this file. -/
def Reads (d : TemplateDirectory) (fs : FileSystem) (source : String) (id : Option String)
    (s : Session) (path : String) : Prop :=
  ∃ name, Forest.Asks s.config.limits (s.withDirectory d fs).resolve id (Text.normalized source)
      name ∧
    s.sources.find? name = none ∧ d.path? name = some path

variable {d : TemplateDirectory} {fs fs' : FileSystem} {s : Session} {source : String}
  {id : Option String}

theorem find?_resolve_congr {name : String}
    (h : s.sources.find? name = none →
      FileSystem.AgreeOn (fun path => d.path? name = some path) fs fs') :
    (s.withDirectory d fs').resolve.find? name = (s.withDirectory d fs).resolve.find? name := by
  unfold resolve
  cases hsource : s.sources.find? name with
  | some text => simp [withDirectory, hsource]
  | none =>
    simp only [withDirectory, hsource, TemplateDirectory.find?_resolver]
    cases hpath : d.path? name with
    | none => rfl
    | some path => simp [FileSystem.read, h hsource path hpath]

/-- **Nothing but the files that are read makes a difference**. -/
theorem parse_congr_reads (h : FileSystem.AgreeOn (s.Reads d fs source id) fs fs') :
    (s.withDirectory d fs').parse source id = (s.withDirectory d fs).parse source id := by
  have hsame : Except.SameUnless (fun _ => False)
      (Forest.ofNormalized s.config.limits (s.withDirectory d fs).resolve id
        (Text.normalized source))
      (Forest.ofNormalized s.config.limits (s.withDirectory d fs').resolve id
        (Text.normalized source)) :=
    Forest.ofNormalized_sameUnless (.inl rfl) (.inl rfl) fun name hasked =>
      .inl (find?_resolve_congr fun hsource path hpath => h path ⟨name, hasked, hsource, hpath⟩)
  have heq := hsame.resolve_right fun ⟨_, _, hfalse⟩ => hfalse
  unfold parse Forest.ofSource
  split
  · rfl
  · exact heq

theorem compile_congr_reads (h : FileSystem.AgreeOn (s.Reads d fs source id) fs fs') :
    (s.withDirectory d fs').compile source id = (s.withDirectory d fs).compile source id := by
  rw [compile, parse_congr_reads h]
  rfl

end Session

namespace TemplateDirectory

/-- **Imports stay in the template directory**. An id with a slash in it or with a point in front is
refused; for any other one the file of that name in the directory is read, and nothing else. So all
that is read for a source are such files, and the outcome is the same in file systems that agree on
them. -/
theorem confined (root : String) :
    let d : TemplateDirectory := { root }
    (∀ fs name, (d.resolver fs).find? name =
      (d.path? name).bind fun path => (fs.read path).toOption.map (TemplateSource.mk name)) ∧
    (∀ name : String, d.path? name = none ↔
      '/' ∈ name.toList ∨ '\\' ∈ name.toList ∨ name.toList.head? = some '.') ∧
    (∀ name path, d.path? name = some path → Path.IsEntryOf root (name ++ ".emboss") path) ∧
    ∀ (s : Session) (source : String) (id : Option String) (fs : FileSystem),
      (∀ path, s.Reads d fs source id path →
        ∃ name, Path.IsEntryOf root (name ++ ".emboss") path) ∧
      ∀ fs', FileSystem.AgreeOn (s.Reads d fs source id) fs fs' →
        (s.withDirectory d fs').parse source id = (s.withDirectory d fs).parse source id ∧
        (s.withDirectory d fs').compile source id = (s.withDirectory d fs).compile source id ∧
        ∀ data, (s.withDirectory d fs').render source id data =
          (s.withDirectory d fs).render source id data := by
  intro d
  refine ⟨d.find?_resolver, fun _ => path?_eq_none_iff, fun _ _ => isEntryOf_of_path?,
    fun s source id fs => ⟨fun path hread => ?_, fun fs' h => ?_⟩⟩
  · obtain ⟨name, -, -, hpath⟩ := hread
    exact ⟨name, isEntryOf_of_path? hpath⟩
  · refine ⟨Session.parse_congr_reads h, Session.compile_congr_reads h, fun data => ?_⟩
    rw [Session.render, Session.compile_congr_reads h, Session.render]

/-- A source that imports a template and does nothing else. -/
def importing (name : String) : String := "\x7b\x7bimport '" ++ name ++ "'\x7d\x7d"

/-- The template `a` imports something above its directory, and at all other paths is `around`. -/
def climbing (around : FileSystem.Entry) : FileSystem :=
  ⟨fun path => if path = "t/a.emboss" then .file (importing "../b") else around⟩

theorem text_of_find?_climbing {name : String} {found : TemplateSource}
    (h : (resolver { root := "t" } (climbing (.missing .notFound))).find? name = some found) :
    found.text = importing "../b" := by
  rw [find?_resolver] at h
  obtain ⟨path, -, hread⟩ := Option.bind_eq_some_iff.1 h
  by_cases hpath : path = "t/a.emboss"
  · subst hpath
    cases hread
    rfl
  · simp [FileSystem.read, climbing, hpath, Except.toOption] at hread

theorem eq_of_reads_climbing {path : String}
    (h : ({} : Session).Reads { root := "t" } (climbing (.missing .notFound)) (importing "a") none
      path) : path = "t/a.emboss" := by
  obtain ⟨name, hasked, -, hpath⟩ := h
  have hplaced : ∀ name ∈ ["a", "../b"],
      ∀ p ∈ Region.placed .plain (Segment.ofSource (Text.normalized (importing name))),
        ∀ d ∈ Directive.ofSegment? p.2, ∀ clause ∈ (ImportClause.parse d.argument).toOption,
          clause.templateId = name := by
    decide +kernel
  have hname : name = "a" ∨ name = "../b" := by
    obtain ⟨text, htext, s, d, clause, hs, hd, -, -, hc, hclause⟩ :=
      Pass.Asks.named hasked (.of_not_mem List.not_mem_nil) rfl
    have hclause' : clause ∈ (ImportClause.parse d.argument).toOption := by
      rw [hc]
      rfl
    rcases htext with rfl | ⟨other, imported, hf, rfl⟩
    · exact .inl (hclause ▸ hplaced "a" (by simp) _ hs d hd clause hclause')
    · rw [text_of_find?_climbing hf] at hs
      exact .inr (hclause ▸ hplaced "../b" (by simp) _ hs d hd clause hclause')
  rcases hname with rfl | rfl
  · have ha : path? { root := "t" } "a" = some "t/a.emboss" := by cbv
    exact Option.some.inj (hpath.symm.trans ha)
  · rw [path?_eq_none_iff.2 (by decide)] at hpath
    cases hpath

/-- A text stands at every path outside of the directory, and none of them is imported. -/
theorem confined_parentReference :
    path? { root := "t" } "/etc/passwd" = none ∧ Path.IsEntryOf "t" "a.emboss" "t/a.emboss" ∧
      ((({} : Session).withDirectory { root := "t" } (climbing (.file "secret"))).render
        (importing "a") none none).mapError TemplateError.cause =
          .error (.unresolvedImport "../b") := by
  obtain ⟨-, hrefused, hentry, hruns⟩ := confined "t"
  refine ⟨(hrefused _).2 (by decide), hentry "a" _ (by cbv), ?_⟩
  have hmissing : ((({} : Session).withDirectory { root := "t" }
      (climbing (.missing .notFound))).render (importing "a") none none).mapError
        TemplateError.cause = .error (.unresolvedImport "../b") := by cbv
  obtain ⟨-, hagree⟩ := hruns {} (importing "a") none (climbing (.missing .notFound))
  obtain ⟨-, -, hrender⟩ := hagree (climbing (.file "secret")) fun path hread => by
    rw [eq_of_reads_climbing hread]
    rfl
  rw [hrender, hmissing]

end TemplateDirectory
end Stencil
