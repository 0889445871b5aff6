import Stencil.Segment
import Stencil.Proofs.Value.Display
import Mathlib

/-!
# Escaping for HTML

`escape` writes five characters as entities. What comes out holds no character that could end a text
or an attribute, and the text can be read back from it.

* `Html.entities` are the entities, and `Html.unescape` replaces those of a text by their
  characters, from left to right.
* `Html.Safe` says which texts are safe. They are made of entities and of characters without one
  (`Safe.append`, `safe_entity`, `safe_singleton`), so that `unescape` undoes escaping
  (`unescape_escapeHtml`) and escaping undoes `unescape` (`Safe.escapeHtml_unescape`).
* `Builtin.escape_reversible` is the whole of it.
-/

namespace Stencil

namespace Html

/-- The entities with the characters that they stand for. -/
def entities : List (String × Char) :=
  [("&amp;", '&'), ("&lt;", '<'), ("&gt;", '>'), ("&quot;", '"'), ("&#39;", '\'')]

/-- The character of the entity that a text begins with, and what follows the entity. -/
def entity? (cs : List Char) : Option (Char × List Char) :=
  entities.findSome? fun e => (Text.dropLead? e.1.toList cs).map fun rest => (e.2, rest)

theorem mem_entities_of_entity? {cs rest : List Char} {c : Char}
    (h : entity? cs = some (c, rest)) : ∃ e ∈ entities, c = e.2 ∧ cs = e.1.toList ++ rest := by
  obtain ⟨e, he, h⟩ := List.exists_of_findSome?_eq_some h
  obtain ⟨rest', hrest, h⟩ := Option.map_eq_some_iff.1 h
  obtain ⟨rfl, rfl⟩ := Prod.mk.inj h
  exact ⟨e, he, rfl, Segment.dropLead?_eq hrest⟩

/-- An entity begins with its only ampersand. -/
theorem entity_eq : ∀ e ∈ entities, ∃ name, e.1.toList = '&' :: name ∧ '&' ∉ name := by
  intro e he
  fin_cases he <;> exact ⟨_, rfl, by decide⟩

/-- The text with its entities replaced by their characters, from left to right. -/
def unescape : List Char → List Char
  | [] => []
  | c :: cs =>
    match _h : entity? (c :: cs) with
    | some (d, rest) => d :: unescape rest
    | none => c :: unescape cs
termination_by cs => cs.length
decreasing_by
  · obtain ⟨e, he, -, hcs⟩ := mem_entities_of_entity? _h
    obtain ⟨name, hname, -⟩ := entity_eq e he
    rw [hcs, hname, List.length_append, List.length_cons]
    omega
  · exact Nat.lt_succ_self _

/-- No entity is the beginning of another one. -/
theorem entity?_append {e : String × Char} (he : e ∈ entities) (rest : List Char) :
    entity? (e.1.toList ++ rest) = some (e.2, rest) := by
  fin_cases he <;> rfl

theorem entity?_of_ne {c : Char} (hc : c ≠ '&') (cs : List Char) : entity? (c :: cs) = none := by
  cases h : entity? (c :: cs) with
  | none => rfl
  | some found =>
    obtain ⟨e, he, -, hcs⟩ := mem_entities_of_entity? h
    obtain ⟨name, hname, -⟩ := entity_eq e he
    rw [hname] at hcs
    exact absurd (List.cons.inj hcs).1 hc

/-! ## Safe texts -/

/-- No character of the text can end a text or an attribute of HTML, and each of its ampersands
begins an entity. -/
structure Safe (cs : List Char) : Prop where
  marks : ∀ c ∈ cs, c ≠ '<' ∧ c ≠ '>' ∧ c ≠ '"' ∧ c ≠ '\''
  ampersands : ∀ before after, cs = before ++ '&' :: after →
    ∃ e ∈ entities, e.1.toList <+: '&' :: after

variable {as bs cs : List Char}

theorem safe_nil : Safe [] := ⟨nofun, fun _ _ h => (List.append_ne_nil_of_right_ne_nil _
  (List.cons_ne_nil _ _) h.symm).elim⟩

theorem Safe.append (ha : Safe as) (hb : Safe bs) : Safe (as ++ bs) where
  marks := List.forall_mem_append.2 ⟨ha.marks, hb.marks⟩
  ampersands before after h := by
    rcases List.append_eq_append_iff.1 h with ⟨t, rfl, ht⟩ | ⟨t, rfl, ht⟩
    · exact hb.ampersands t after ht
    · cases t with
      | nil => exact hb.ampersands [] after ht.symm
      | cons c t =>
        obtain ⟨rfl, rfl⟩ := List.cons.inj ht
        obtain ⟨e, he, hprefix⟩ := ha.ampersands before t rfl
        exact ⟨e, he, hprefix.trans (List.prefix_append _ _)⟩

theorem Safe.behind (h : Safe (as ++ bs)) : Safe bs where
  marks c hc := h.marks c (List.mem_append_right _ hc)
  ampersands before after hb := h.ampersands (as ++ before) after (by rw [hb, List.append_assoc])

theorem safe_entity {e : String × Char} (he : e ∈ entities) : Safe e.1.toList where
  marks := by fin_cases he <;> simp
  ampersands before after h := by
    obtain ⟨name, hname, hnot⟩ := entity_eq e he
    cases before with
    | nil => exact ⟨e, he, by rw [h]; exact List.prefix_rfl⟩
    | cons c before =>
      rw [hname] at h
      exact absurd ((List.cons.inj h).2 ▸ List.mem_append_right _ List.mem_cons_self) hnot

/-- A character without an entity. -/
theorem safe_singleton {c : Char} (hc : ∀ e ∈ entities, c ≠ e.2) : Safe [c] := by
  simp only [entities, List.forall_mem_cons] at hc
  obtain ⟨hamp, hlt, hgt, hquot, hapos, -⟩ := hc
  refine ⟨List.forall_mem_singleton.2 ⟨hlt, hgt, hquot, hapos⟩, fun before after h => ?_⟩
  have hmem : '&' ∈ [c] := h ▸ List.mem_append_right _ List.mem_cons_self
  exact absurd (List.mem_singleton.1 hmem).symm hamp

/-! ## Escaping and back -/

theorem escapeChar_of_mem {e : String × Char} (he : e ∈ entities) :
    Builtin.escapeChar e.2 = e.1.toList := by
  fin_cases he <;> rfl

theorem escapeChar_of_ne {c : Char} (hc : ∀ e ∈ entities, c ≠ e.2) :
    Builtin.escapeChar c = [c] := by
  simp only [entities, List.forall_mem_cons] at hc
  obtain ⟨hamp, hlt, hgt, hquot, hapos, -⟩ := hc
  rw [Builtin.escapeChar, if_neg hamp, if_neg hlt, if_neg hgt, if_neg hquot, if_neg hapos]

/-- A character has an entity or none. -/
theorem entity_cases (c : Char) : (∃ e ∈ entities, c = e.2) ∨ ∀ e ∈ entities, c ≠ e.2 := by
  by_cases h : ∃ e ∈ entities, c = e.2
  · exact .inl h
  · exact .inr fun e he hc => h ⟨e, he, hc⟩

theorem safe_escapeChar (c : Char) : Safe (Builtin.escapeChar c) := by
  rcases entity_cases c with ⟨e, he, rfl⟩ | hc
  · exact escapeChar_of_mem he ▸ safe_entity he
  · exact escapeChar_of_ne hc ▸ safe_singleton hc

/-- **Escaping makes safe texts.** -/
theorem safe_escapeHtml (cs : List Char) : Safe (Builtin.escapeHtml cs) := by
  induction cs with
  | nil => exact safe_nil
  | cons c cs ih => exact (safe_escapeChar c).append ih

theorem unescape_of_entity? {c : Char} (h : entity? cs = some (c, bs)) :
    unescape cs = c :: unescape bs := by
  cases cs with
  | nil => cases h
  | cons d cs =>
    rw [unescape]
    split
    · next h' =>
      obtain ⟨rfl, rfl⟩ := Prod.mk.inj (Option.some.inj (h'.symm.trans h))
      rfl
    · next h' => cases h'.symm.trans h

theorem unescape_cons {c : Char} (h : entity? (c :: cs) = none) :
    unescape (c :: cs) = c :: unescape cs := by
  rw [unescape]
  split
  · next h' => cases h'.symm.trans h
  · rfl

/-- **What was escaped is read back**, whatever it looked like before. -/
theorem unescape_escapeHtml (cs : List Char) : unescape (Builtin.escapeHtml cs) = cs := by
  induction cs with
  | nil => rw [Builtin.escapeHtml, List.flatMap_nil, unescape]
  | cons c cs ih =>
    rw [Builtin.escapeHtml, List.flatMap_cons]
    rcases entity_cases c with ⟨e, he, rfl⟩ | hc
    · rw [escapeChar_of_mem he, unescape_of_entity? (entity?_append he _)]
      exact congrArg _ ih
    · have hamp : c ≠ '&' := hc _ List.mem_cons_self
      rw [escapeChar_of_ne hc, List.singleton_append, unescape_cons (entity?_of_ne hamp _)]
      exact congrArg _ ih

/-- In a safe text only ampersands that begin an entity stand for a character with one. -/
theorem Safe.ne_of_entity?_eq_none {c : Char} (h : Safe (c :: cs)) (hc : entity? (c :: cs) = none) :
    ∀ e ∈ entities, c ≠ e.2 := by
  obtain ⟨hlt, hgt, hquot, hapos⟩ := h.marks c List.mem_cons_self
  have hamp : c ≠ '&' := by
    rintro rfl
    obtain ⟨e, he, rest, hrest⟩ := h.ampersands [] cs rfl
    rw [← hrest, entity?_append he] at hc
    cases hc
  simpa [entities] using ⟨hamp, hlt, hgt, hquot, hapos⟩

/-- **A safe text is what escaping makes** of the text that is read from it. -/
theorem Safe.escapeHtml_unescape (h : Safe cs) : Builtin.escapeHtml (unescape cs) = cs := by
  fun_induction unescape cs with
  | case1 => rfl
  | case2 c cs d rest hentity ih =>
    obtain ⟨e, he, rfl, hcs⟩ := mem_entities_of_entity? hentity
    rw [hcs] at h ⊢
    rw [Builtin.escapeHtml, List.flatMap_cons, escapeChar_of_mem he]
    exact congrArg _ (ih h.behind)
  | case3 c cs hentity ih =>
    rw [Builtin.escapeHtml, List.flatMap_cons,
      escapeChar_of_ne (h.ne_of_entity?_eq_none hentity)]
    exact congrArg _ (ih (@Safe.behind [c] cs h))

end Html

namespace Builtin

/-- What `escape` makes of a text. -/
def escaped (s : String) : String := String.ofList (escapeHtml s.toList)

/-- The text with its entities replaced by their characters. -/
def unescaped (s : String) : String := String.ofList (Html.unescape s.toList)

theorem call_escape (v : Value) : call "escape" [v] = .ok (.string (escaped v.display)) :=
  call_of_apply (f := .escape) rfl rfl

theorem unescaped_escaped (s : String) : unescaped (escaped s) = s := by
  rw [unescaped, escaped, String.toList_ofList, Html.unescape_escapeHtml, String.ofList_toList]

theorem escaped_append (s t : String) : escaped (s ++ t) = escaped s ++ escaped t := by
  rw [escaped, String.toList_append, escapeHtml, List.flatMap_append, String.ofList_append]
  rfl

theorem escaped_injective : Function.Injective escaped :=
  Function.LeftInverse.injective unescaped_escaped

/-- **Escaping is safe and reversible.** `escape` gives a safe text: one without `<`, `>`, `"` and
`'`, in which every ampersand begins one of the five entities. Replacing those from left to right by
their characters gives the text back, so that no two texts become the same; and every safe text
comes of the one that is read from it. Two texts can be escaped together or one by one. -/
theorem escape_reversible :
    (∀ s : String, call "escape" [.string s] = .ok (.string (escaped s)) ∧
      Html.Safe (escaped s).toList ∧ unescaped (escaped s) = s) ∧
    (∀ t : String, Html.Safe t.toList → escaped (unescaped t) = t) ∧
    Function.Injective escaped ∧
    ∀ s t : String, call "escape" [(Value.string s).add (.string t)] =
      .ok ((Value.string (escaped s)).add (.string (escaped t))) := by
  refine ⟨fun s => ⟨call_escape _, ?_, unescaped_escaped s⟩, fun t ht => ?_, escaped_injective,
    fun s t => ?_⟩
  · rw [escaped, String.toList_ofList]
    exact Html.safe_escapeHtml _
  · rw [escaped, unescaped, String.toList_ofList, ht.escapeHtml_unescape, String.ofList_toList]
  · rw [Value.string_add, Value.string_add, call_escape]
    exact congrArg (fun text => Except.ok (Value.string text)) (escaped_append s t)

/-- A text that looks escaped is not taken for one. -/
theorem escape_reversible_nested :
    call "escape" [.string "&lt;<"] = .ok (.string "&amp;lt;&lt;") ∧
    Html.Safe "&amp;lt;&lt;".toList ∧
    escaped (unescaped "&amp;lt;&lt;") = "&amp;lt;&lt;" := by
  obtain ⟨hall, hsafe, -, -⟩ := escape_reversible
  have htext : escaped "&lt;<" = "&amp;lt;&lt;" := by cbv
  have h := hall "&lt;<"
  rw [htext] at h
  exact ⟨h.1, h.2.1, hsafe _ h.2.1⟩

end Builtin
end Stencil
