import Stencil.Proofs.Session.Setting
import Stencil.Session
import Mathlib

/-!
# Sessions from action to action

What a host can do with a session is an `Action`, and what it gets back an `Answer`.
`Session.perform` takes one action; the lemmas behind it say what an action does to the
configuration, to the sources and to the stored templates, and that nothing happens where it fails
(`Session.perform_of_failed`). Which setting an action makes (`Action.Makes`) is read off what the
host has written. `Session.ids` lists the ids of the templates.
-/

namespace Stencil

/-- What a host asks of a session. A compiled template goes by the number of the action that
compiled it. -/
inductive Action where
  | register (id text : String)
  | setStrictScoping (strict : Bool)
  | set (key raw : String)
  | compile (source : String) (id : Option String)
  | store (id : String) (compiler : Nat)
  | remove (id : String)
  | render (source : String) (id : Option String) (data : Option Value)
  | renderCompiled (compiler : Nat) (data : Option Value)
  | renderStored (id : String) (data : Option Value)

namespace Action

/-- An action makes a setting, by what the host has written. -/
def Makes : Action → Setting → Prop
  | .setStrictScoping strict, x => x = .strictScoping strict
  | .set key raw, x => x.Written key raw
  | _, _ => False

theorem Makes.unique {a : Action} {x y : Setting} (h : a.Makes x) (h' : a.Makes y) : x = y := by
  cases a with
  | setStrictScoping => exact Eq.trans h (Eq.symm h')
  | set => exact Setting.Written.unique h h'
  | _ => exact h.elim

/-- The text that an action registers under an id. -/
def registered? (id : String) : Action → Option String
  | .register other text => if other = id then some text else none
  | _ => none

end Action

/-- What a session answers. -/
inductive Answer where
  | done
  /-- Something is under the id now; whether something was before. -/
  | replaced (was : Bool)
  | configured (result : Except ConfigError Unit)
  | compiled (result : Except TemplateError Program)
  | removed (found : Option Program)
  | rendered (result : Except TemplateError String)
  /-- The action that is meant has compiled nothing. -/
  | nothingCompiled

namespace Answer

/-- The answer is an error, or says that there is nothing to be stored or rendered. -/
def Failed : Answer → Prop
  | .configured (.error _) | .compiled (.error _) | .rendered (.error _) | .nothingCompiled => True
  | .done | .replaced _ | .configured (.ok _) | .compiled (.ok _) | .removed _
  | .rendered (.ok _) => False

/-- The template that the host gets with an answer. -/
def program? : Answer → Option Program
  | .compiled (.ok p) => some p
  | _ => none

theorem program?_eq_some_iff {answer : Answer} {p : Program} :
    answer.program? = some p ↔ answer = .compiled (.ok p) := by
  constructor
  · intro h
    unfold program? at h
    split at h
    · rw [Option.some.inj h]
    · cases h
  · rintro rfl
    rfl

end Answer

namespace Session

/-- What a session answers to an action, and the session behind it. The host has the `answers` to
all actions in front. -/
def perform (answers : List Answer) (s : Session) : Action → Answer × Session
  | .register id text => (.replaced (s.register id text).1, (s.register id text).2)
  | .setStrictScoping strict => (.done, s.setStrictScoping strict)
  | .set key raw =>
    match Session.set key raw s with
    | .ok _ s => (.configured (.ok ()), s)
    | .error e s => (.configured (.error e), s)
  | .compile source id => (.compiled (s.compile source id), s)
  | .store id compiler =>
    match answers[compiler]?.bind Answer.program? with
    | some p => (.replaced (s.store id p).1, (s.store id p).2)
    | none => (.nothingCompiled, s)
  | .remove id => (.removed (s.remove id).1, (s.remove id).2)
  | .render source id data => (.rendered (s.render source id data), s)
  | .renderCompiled compiler data =>
    match answers[compiler]?.bind Answer.program? with
    | some p => (.rendered (p.render data), s)
    | none => (.nothingCompiled, s)
  | .renderStored id data => (.rendered (s.renderStored id data), s)

variable {answers : List Answer} {s : Session} {a : Action} {x : Setting}

/-- Whatever comes of a setting, only the configuration can change. -/
theorem perform_set (key raw : String) : ∃ r c,
    s.perform answers (.set key raw) = (.configured r, { s with config := c }) := by
  rw [perform, Session.set]
  cases Config.set key raw s.config with
  | ok _ c => exact ⟨_, c, rfl⟩
  | error e c => exact ⟨_, c, rfl⟩

theorem perform_set_of_written {key raw : String} (h : x.Written key raw) :
    s.perform answers (.set key raw) =
      (.configured (.ok ()), { s with config := x.applied s.config }) := by
  rw [perform, Session.set, Config.set_of_written h]

theorem perform_set_of_not_written {key raw : String} (h : ∀ x, ¬ Setting.Written key raw x) :
    ∃ e, s.perform answers (.set key raw) = (.configured (.error e), s) := by
  obtain ⟨e, he⟩ := Config.set_of_not_written h s.config
  exact ⟨e, by rw [perform, Session.set, he]⟩

theorem perform_store (id : String) (compiler : Nat) : s.perform answers (.store id compiler) =
    (answers[compiler]?.bind Answer.program?).elim (.nothingCompiled, s)
      fun p => (.replaced (s.store id p).1, (s.store id p).2) := by
  rw [perform]
  cases answers[compiler]?.bind Answer.program? <;> rfl

theorem perform_renderCompiled (compiler : Nat) (data : Option Value) :
    s.perform answers (.renderCompiled compiler data) =
      ((answers[compiler]?.bind Answer.program?).elim .nothingCompiled
        fun p => .rendered (p.render data), s) := by
  rw [perform]
  cases answers[compiler]?.bind Answer.program? <;> rfl

/-- What fails changes nothing. -/
theorem perform_of_failed (h : (s.perform answers a).1.Failed) : (s.perform answers a).2 = s := by
  cases a with
  | register | setStrictScoping | remove => cases h
  | compile | render | renderStored => rfl
  | set key raw =>
    by_cases hw : ∃ x, Setting.Written key raw x
    · obtain ⟨x, hw⟩ := hw
      rw [perform_set_of_written hw] at h
      cases h
    · obtain ⟨e, he⟩ := perform_set_of_not_written (not_exists.1 hw)
      rw [he]
  | store id compiler =>
    rw [perform_store] at h ⊢
    cases hp : answers[compiler]?.bind Answer.program? with
    | some p =>
      rw [hp] at h
      cases h
    | none => rfl
  | renderCompiled => rw [perform_renderCompiled]

/-! ## What an action changes -/

theorem perform_resolver : (s.perform answers a).2.resolver = s.resolver := by
  cases a with
  | set key raw =>
    obtain ⟨r, c, h⟩ := perform_set key raw
    rw [h]
  | store _ compiler =>
    rw [perform_store]
    cases answers[compiler]?.bind Answer.program? <;> rfl
  | renderCompiled => rw [perform_renderCompiled]
  | _ => rfl

theorem perform_config_of_makes (h : a.Makes x) :
    (s.perform answers a).2.config = x.applied s.config := by
  cases a with
  | setStrictScoping strict =>
    obtain rfl := h
    rfl
  | set key raw => rw [perform_set_of_written h]
  | _ => exact h.elim

theorem perform_config_of_not_makes (h : ∀ x, ¬ a.Makes x) :
    (s.perform answers a).2.config = s.config := by
  cases a with
  | setStrictScoping strict => exact absurd rfl (h _)
  | set key raw =>
    obtain ⟨e, he⟩ := perform_set_of_not_written h
    rw [he]
  | store _ compiler =>
    rw [perform_store]
    cases answers[compiler]?.bind Answer.program? <;> rfl
  | renderCompiled => rw [perform_renderCompiled]
  | _ => rfl

theorem find?_sources_perform (id : String) :
    (s.perform answers a).2.sources.find? id = (a.registered? id).or (s.sources.find? id) := by
  cases a with
  | register other text =>
    have hinsert : (s.register other text).2.sources.find? id =
        if other = id then some text else s.sources.find? id := Dict.find?_insert id other text _
    refine hinsert.trans ?_
    rw [Action.registered?]
    by_cases h : other = id
    · rw [if_pos h, if_pos h, Option.some_or]
    · rw [if_neg h, if_neg h, Option.none_or]
  | set key raw =>
    obtain ⟨r, c, h⟩ := perform_set key raw
    rw [h]
    rfl
  | store _ compiler =>
    rw [perform_store]
    cases answers[compiler]?.bind Answer.program? <;> rfl
  | renderCompiled =>
    rw [perform_renderCompiled]
    rfl
  | _ => rfl

theorem get?_perform (id : String) : (s.perform answers a).2.get? id =
    match a with
    | .store other compiler =>
      if other = id then (answers[compiler]?.bind Answer.program?).or (s.get? id) else s.get? id
    | .remove other => if other = id then none else s.get? id
    | _ => s.get? id := by
  cases a with
  | set key raw =>
    obtain ⟨r, c, h⟩ := perform_set key raw
    rw [h]
    rfl
  | store other compiler =>
    rw [perform_store]
    dsimp only
    cases answers[compiler]?.bind Answer.program? with
    | some p => exact Dict.find?_insert id other p s.stored
    | none => exact (ite_self _).symm
  | remove other => exact Dict.find?_erase id other s.stored
  | renderCompiled => rw [perform_renderCompiled]
  | _ => rfl

theorem nodup_keys_perform (h : s.stored.keys.Nodup) :
    (s.perform answers a).2.stored.keys.Nodup := by
  cases a with
  | set key raw =>
    obtain ⟨r, c, hset⟩ := perform_set key raw
    rw [hset]
    exact h
  | store _ compiler =>
    rw [perform_store]
    cases answers[compiler]?.bind Answer.program? with
    | some p => exact Dict.nodup_keys_insert h
    | none => exact h
  | remove id => exact Dict.nodup_keys_erase h id
  | renderCompiled =>
    rw [perform_renderCompiled]
    exact h
  | _ => exact h

/-- Only compiling gives a template. -/
theorem program?_perform {p : Program} : (s.perform answers a).1.program? = some p ↔
    ∃ source id, a = .compile source id ∧ s.compile source id = .ok p := by
  rw [Answer.program?_eq_some_iff]
  cases a with
  | compile source id => simp [perform]
  | set key raw =>
    obtain ⟨r, c, h⟩ := perform_set key raw
    rw [h]
    simp
  | store _ compiler =>
    rw [perform_store]
    cases answers[compiler]?.bind Answer.program? <;> simp
  | renderCompiled compiler =>
    rw [perform_renderCompiled]
    cases answers[compiler]?.bind Answer.program? <;> simp
  | _ => simp [perform]

/-! ## The list of ids -/

theorem size_eq (s : Session) : s.size = s.ids.length := by
  rw [ids, List.length_mergeSort, Dict.keys, List.length_map, size]

theorem mem_ids {s : Session} {id : String} : id ∈ s.ids ↔ ∃ p, s.get? id = some p := by
  rw [ids, List.mem_mergeSort, ← not_iff_not, ← Dict.find?_eq_none_iff, ← get?,
    Option.eq_none_iff_forall_ne_some, not_exists]

theorem ids_increasing {s : Session} (h : s.stored.keys.Nodup) : s.ids.Pairwise (· < ·) := by
  have hsorted : s.ids.Pairwise (· ≤ ·) := by
    have htrans (a b c : String) (hab : decide (a ≤ b) = true) (hbc : decide (b ≤ c) = true) :
        decide (a ≤ c) = true :=
      decide_eq_true ((of_decide_eq_true hab).trans (of_decide_eq_true hbc))
    have htotal (a b : String) : (decide (a ≤ b) || decide (b ≤ a)) = true := by
      simpa using String.le_total a b
    exact (List.pairwise_mergeSort htrans htotal s.stored.keys).imp of_decide_eq_true
  have hnodup : s.ids.Nodup := (List.mergeSort_perm _ _).nodup_iff.2 h
  exact hsorted.imp₂ (fun a b hab hne => lt_of_le_of_ne hab hne) hnodup

end Session
end Stencil
