import Stencil.Config
import Stencil.Proofs.Segment.Argument
import Mathlib

/-!
# Settings and how they are written

A setting is one of the three values of a configuration. What a key and a text say of it is put down
here without the reader: a truth value by its word, and a number by its digits and their places.

* `Setting.Written` is the relation between a key, a text, and the setting that they stand for.
* `Config.set_of_written` and `Config.set_of_not_written` say that just these settings are made, and
  that the configuration stays as it was when there is none.
-/

namespace Stencil

/-! ## Numbers -/

/-- The text is a number of 64 bits in decimal digits, perhaps with a plus sign in front. -/
def Word64 (cs : List Char) (n : Nat) : Prop :=
  ∃ ds : List Nat, ds ≠ [] ∧ (∀ d ∈ ds, d < 10) ∧
    (cs = ds.map Nat.digitChar ∨ cs = '+' :: ds.map Nat.digitChar) ∧
    n = Nat.ofDigits 10 ds.reverse ∧ n < 2 ^ 64

namespace Decimal

variable {cs : List Char} {ds : List Nat}

theorem digitsValue_map_digitChar (hds : ∀ d ∈ ds, d < 10) :
    digitsValue (ds.map Nat.digitChar) = Nat.ofDigits 10 ds.reverse := by
  induction ds using List.reverseRecOn with
  | nil => rfl
  | append_singleton ds d ih =>
    have hd : (Nat.digitChar d).toNat - '0'.toNat = d := by
      rw [Nat.toNat_digitChar_of_lt_ten (hds d (by simp))]
      exact Nat.add_sub_cancel_left ..
    rw [digitsValue] at ih
    rw [digitsValue, List.map_append, List.foldl_append, ih fun d hd => hds d (by simp [hd]),
      List.reverse_append, List.reverse_singleton, List.singleton_append, Nat.ofDigits_cons,
      List.map_singleton, List.foldl_cons, List.foldl_nil, hd]
    omega

theorem exists_digits (h : cs.all Char.isDigit = true) :
    ∃ ds : List Nat, (∀ d ∈ ds, d < 10) ∧ cs = ds.map Nat.digitChar := by
  refine ⟨cs.map fun c => c.toNat - 48, fun d hd => ?_, ?_⟩
  · obtain ⟨c, hc, rfl⟩ := List.mem_map.1 hd
    have hrange := Char.isDigit_iff_toNat.1 (List.all_eq_true.1 h c hc)
    change 48 ≤ c.toNat ∧ c.toNat ≤ 57 at hrange
    omega
  · rw [List.map_map, List.map_congr_left (g := id), List.map_id]
    intro c hc
    have hrange := Char.isDigit_iff_toNat.1 (List.all_eq_true.1 h c hc)
    change 48 ≤ c.toNat ∧ c.toNat ≤ 57 at hrange
    apply Char.toNat_inj.1
    rw [Function.comp_apply, Nat.toNat_digitChar_of_lt_ten (by omega)]
    exact Nat.add_sub_cancel' hrange.1

theorem all_isDigit_map_digitChar (hds : ∀ d ∈ ds, d < 10) :
    (ds.map Nat.digitChar).all Char.isDigit = true := by
  rw [List.all_map, List.all_eq_true]
  exact fun d hd => Nat.isDigit_digitChar.trans (decide_eq_true (hds d hd))

end Decimal

namespace Config

variable {cs : List Char} {ds : List Nat} {n : Nat}

theorem eq_or_eq_unsigned (cs : List Char) : cs = unsigned cs ∨ cs = '+' :: unsigned cs := by
  unfold unsigned
  split
  · exact .inr rfl
  · exact .inl rfl

theorem unsigned_of_isDigit (h : cs.all Char.isDigit = true) : unsigned cs = cs := by
  unfold unsigned
  split
  · cases h
  · rfl

/-- The reader of numbers takes what is a number, and nothing else. -/
theorem word64?_eq_some_iff : word64? cs = some n ↔ Word64 cs n := by
  constructor
  · intro h
    rw [word64?] at h
    dsimp only at h
    split at h
    · cases h
    · next hdigits =>
      rw [Bool.or_eq_true, not_or, List.isEmpty_iff, Bool.not_eq_true', Bool.not_eq_false] at hdigits
      obtain ⟨ds, hds, heq⟩ := Decimal.exists_digits hdigits.2
      split at h
      · next hlt =>
        obtain rfl := Option.some.inj h
        rw [heq, Decimal.digitsValue_map_digitChar hds] at hlt ⊢
        refine ⟨ds, fun hnil => hdigits.1 ?_, hds, heq ▸ eq_or_eq_unsigned cs, rfl, hlt⟩
        rw [heq, hnil, List.map_nil]
      · cases h
  · rintro ⟨ds, hne, hds, hcs, rfl, hlt⟩
    have hdigits := Decimal.all_isDigit_map_digitChar hds
    have hunsigned : unsigned cs = ds.map Nat.digitChar := by
      rcases hcs with rfl | rfl
      · exact unsigned_of_isDigit hdigits
      · rfl
    have hempty : (ds.map Nat.digitChar).isEmpty = false := by simpa using hne
    rw [word64?, hunsigned, Decimal.digitsValue_map_digitChar hds, hempty, hdigits]
    exact if_pos hlt

end Config

namespace Word64

variable {cs : List Char} {n m : Nat}

theorem unique (h : Word64 cs n) (h' : Word64 cs m) : n = m :=
  Option.some.inj
    ((Config.word64?_eq_some_iff.2 h).symm.trans (Config.word64?_eq_some_iff.2 h'))

theorem not_isBlank (h : Word64 cs n) : ∀ c ∈ cs, Text.isBlank c = false := by
  obtain ⟨ds, -, hds, hcs, -⟩ := h
  have hdigits : ∀ c ∈ ds.map Nat.digitChar, Text.isBlank c = false := by
    intro c hc
    obtain ⟨d, hd, rfl⟩ := List.mem_map.1 hc
    have hlt := hds d hd
    interval_cases d <;> rfl
  rcases hcs with rfl | rfl
  · exact hdigits
  · exact List.forall_mem_cons.2 ⟨rfl, hdigits⟩

end Word64

/-! ## Settings -/

/-- A setting of a configuration with its value. -/
inductive Setting where
  | strictScoping (strict : Bool)
  | maxImportDepth (n : Nat)
  | maxNestingDepth (n : Nat)

namespace Setting

/-- A key and a text with no blanks around it stand for a setting. -/
def Spelled (key : String) (core : List Char) : Setting → Prop
  | .strictScoping strict =>
    key = "strict_scoping" ∧ core = (if strict then "true" else "false").toList
  | .maxImportDepth n => key = "max_import_depth" ∧ Word64 core n
  | .maxNestingDepth n => key = "max_nesting_depth" ∧ Word64 core n

/-- A key and a text stand for a setting, where the text may have blanks at its ends. -/
def Written (key raw : String) (x : Setting) : Prop :=
  ∃ front core behind, raw.toList = front ++ core ++ behind ∧
    (∀ c ∈ front ++ behind, Text.isBlank c = true) ∧ x.Spelled key core

/-- The configuration with the setting made. -/
def applied (c : Config) : Setting → Config
  | .strictScoping strict => { c with strictScoping := strict }
  | .maxImportDepth n => { c with maxImportDepth := n }
  | .maxNestingDepth n => { c with maxNestingDepth := n }

variable {key raw : String} {core : List Char} {x y : Setting}

theorem Spelled.not_isBlank (h : x.Spelled key core) : ∀ c ∈ core, Text.isBlank c = false := by
  match x, h with
  | .strictScoping true, ⟨_, hcore⟩ | .strictScoping false, ⟨_, hcore⟩ =>
    have hall : (core.all fun c => !Text.isBlank c) = true := by
      rw [hcore]
      rfl
    simpa using hall
  | .maxImportDepth _, ⟨_, h⟩ | .maxNestingDepth _, ⟨_, h⟩ => exact h.not_isBlank

/-- The blanks at the ends of a text do not count. -/
theorem written_iff : x.Written key raw ↔ x.Spelled key (Text.trim raw.toList) := by
  constructor
  · rintro ⟨front, core, behind, hraw, hblank, h⟩
    rw [hraw, Text.trim_between h.not_isBlank hblank]
    exact h
  · intro h
    obtain ⟨front, behind, hraw, hblank⟩ := Text.exists_trim raw.toList
    exact ⟨front, _, behind, hraw, hblank, h⟩

/-- A key and a text stand for one setting at most. -/
theorem Written.unique (hx : x.Written key raw) (hy : y.Written key raw) : x = y := by
  rw [written_iff] at hx hy
  match x, y, hx, hy with
  | .strictScoping b, .strictScoping b', ⟨_, h⟩, ⟨_, h'⟩ =>
    cases b <;> cases b' <;> first | rfl | exact absurd (h.symm.trans h') (by decide)
  | .maxImportDepth _, .maxImportDepth _, ⟨_, h⟩, ⟨_, h'⟩ => rw [h.unique h']
  | .maxNestingDepth _, .maxNestingDepth _, ⟨_, h⟩, ⟨_, h'⟩ => rw [h.unique h']
  | .strictScoping _, .maxImportDepth _, ⟨h, _⟩, ⟨h', _⟩
  | .strictScoping _, .maxNestingDepth _, ⟨h, _⟩, ⟨h', _⟩
  | .maxImportDepth _, .strictScoping _, ⟨h, _⟩, ⟨h', _⟩
  | .maxImportDepth _, .maxNestingDepth _, ⟨h, _⟩, ⟨h', _⟩
  | .maxNestingDepth _, .strictScoping _, ⟨h, _⟩, ⟨h', _⟩
  | .maxNestingDepth _, .maxImportDepth _, ⟨h, _⟩, ⟨h', _⟩ =>
    exact absurd (h.symm.trans h') (by decide)

end Setting

namespace Config

variable {key raw : String} {x : Setting}

/-- **A setting that is written is made**, and the other settings stay. -/
theorem set_of_written (h : x.Written key raw) (c : Config) :
    Config.set key raw c = .ok () (x.applied c) := by
  have hs := Setting.written_iff.1 h
  match x, hs with
  | .strictScoping true, ⟨hkey, hcore⟩ | .strictScoping false, ⟨hkey, hcore⟩ =>
    subst hkey
    simp only [Config.set, hcore]
    rfl
  | .maxImportDepth _, ⟨hkey, h⟩ | .maxNestingDepth _, ⟨hkey, h⟩ =>
    subst hkey
    simp only [Config.set, integer, word64?_eq_some_iff.2 h]
    rfl

/-- **What stands for no setting changes nothing.** -/
theorem set_of_not_written (h : ∀ x, ¬ Setting.Written key raw x) (c : Config) :
    ∃ e, Config.set key raw c = .error e c := by
  simp only [Setting.written_iff] at h
  generalize hcore : Text.trim raw.toList = core at h
  have hinteger (key : String) (hw : ∀ n, ¬ Word64 core n) :
      integer key core = throw (.notInteger key (String.ofList core)) := by
    rw [integer, Option.eq_none_iff_forall_ne_some.2 fun n hn => hw n (word64?_eq_some_iff.1 hn)]
  unfold Config.set
  simp only [hcore]
  split
  · have htrue : String.ofList core ≠ "true" := fun ht =>
      h (.strictScoping true) ⟨rfl, by rw [if_pos rfl, ← ht, String.toList_ofList]⟩
    have hfalse : String.ofList core ≠ "false" := fun hf =>
      h (.strictScoping false) ⟨rfl, by rw [if_neg nofun, ← hf, String.toList_ofList]⟩
    rw [if_neg htrue, if_neg hfalse]
    exact ⟨_, rfl⟩
  · rw [hinteger _ fun n hn => h (.maxImportDepth n) ⟨rfl, hn⟩]
    exact ⟨_, rfl⟩
  · rw [hinteger _ fun n hn => h (.maxNestingDepth n) ⟨rfl, hn⟩]
    exact ⟨_, rfl⟩
  · exact ⟨_, rfl⟩

end Config
end Stencil
