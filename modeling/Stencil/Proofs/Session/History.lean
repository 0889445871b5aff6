import Stencil.Proofs.Session.Action
import Mathlib

/-!
# Histories of sessions

A host takes a session from action to action, and stores what the session has compiled for it. The
history of its actions alone says what is to be found where: the texts registered last, the settings
made last, and for each id the template that was stored last and not removed since, as it was
compiled at its time.

* `History.final` is the session with its answers at the end of a history.
* `History.InForce` is the configuration that a history leaves, and `History.Holds` the template
  that it leaves under an id. Both are put together from the positions of the actions and know
  nothing of a session.
* `History.inForce_session` says that the session has the same configuration.
* `History.get?_session` says that the session has the same template under the id.
* `History.followed` is the main result.
-/

namespace Stencil

/-! ## What a history says -/

/-- What a host has done with a session that it made with a configuration and a resolver. -/
structure History where
  config : Config := {}
  resolver : Resolver := .ofTexts fun _ => none
  actions : List Action

namespace History

/-- The first actions of a history. -/
def upTo (H : History) (n : Nat) : History := { H with actions := H.actions.take n }

/-- The history with one action more. -/
def snoc (H : History) (a : Action) : History := { H with actions := H.actions ++ [a] }

/-- An action of the history makes a setting. -/
def Makes (H : History) (i : Nat) (x : Setting) : Prop :=
  ∃ a, H.actions[i]? = some a ∧ a.Makes x

/-- The value was set last, or it was there at the start and none was set. With its value, the
setting is `make`. -/
def Leaves {α : Type} (H : History) (make : α → Setting) (initial v : α) : Prop :=
  (∃ i, H.Makes i (make v) ∧ ∀ j > i, ∀ w, ¬ H.Makes j (make w)) ∨
    v = initial ∧ ∀ j w, ¬ H.Makes j (make w)

/-- The configuration is in force: each setting has the value that the history leaves. -/
structure InForce (H : History) (c : Config) : Prop where
  strictScoping : H.Leaves .strictScoping H.config.strictScoping c.strictScoping
  maxImportDepth : H.Leaves .maxImportDepth H.config.maxImportDepth c.maxImportDepth
  maxNestingDepth : H.Leaves .maxNestingDepth H.config.maxNestingDepth c.maxNestingDepth

/-- The text that was registered last under an id. -/
def registered? (H : History) (id : String) : Option String :=
  H.actions.reverse.findSome? (Action.registered? id)

/-- The sources in force: those that were registered, and those of the resolver. -/
def sourcesInForce (H : History) : Resolver :=
  ⟨fun id => ((H.registered? id).map (TemplateSource.mk id)).or (H.resolver.find? id)⟩

/-- An action compiles a template, from the sources and with the configuration that are in force in
front of it. -/
def Compiles (H : History) (i : Nat) (p : Program) : Prop :=
  ∃ source id c, H.actions[i]? = some (.compile source id) ∧ (H.upTo i).InForce c ∧
    (Forest.ofSource c.limits (H.upTo i).sourcesInForce id source).bind
      (Program.ofForest c.strictScoping) = .ok p

/-- An action stores a template, which an action in front of it has compiled. -/
def Stores (H : History) (i : Nat) (id : String) (p : Program) : Prop :=
  ∃ compiler < i, H.actions[i]? = some (.store id compiler) ∧ H.Compiles compiler p

/-- The template was stored under the id, and behind that none was, and nothing was removed. -/
def Holds (H : History) (id : String) (p : Program) : Prop :=
  ∃ i, H.Stores i id p ∧
    ∀ j > i, H.actions[j]? ≠ some (.remove id) ∧ ∀ q, ¬ H.Stores j id q

/-- The session with its answers at the end of a history. -/
def final (H : History) : List Answer × Session :=
  H.actions.foldl (fun r a => (r.1 ++ [(r.2.perform r.1 a).1], (r.2.perform r.1 a).2))
    ([], { config := H.config, resolver := H.resolver })

/-- The answers to all actions in order. -/
def answers (H : History) : List Answer := H.final.1

/-- The session behind all actions. -/
def session (H : History) : Session := H.final.2

/-! ## One action more -/

variable {H : History} {a : Action} {i : Nat} {id : String} {p : Program}

/-- What holds without actions, and behind one more, holds of every history. -/
theorem snoc_induction {motive : History → Prop} (nil : ∀ c r, motive ⟨c, r, []⟩)
    (snoc : ∀ H a, motive H → motive (H.snoc a)) (H : History) : motive H := by
  obtain ⟨c, r, actions⟩ := H
  induction actions using List.reverseRecOn with
  | nil => exact nil c r
  | append_singleton actions a ih => exact snoc ⟨c, r, actions⟩ a ih

theorem session_snoc : (H.snoc a).session = (H.session.perform H.answers a).2 := by
  rw [session, final, snoc, List.foldl_append]
  rfl

theorem answers_snoc :
    (H.snoc a).answers = H.answers ++ [(H.session.perform H.answers a).1] := by
  rw [answers, final, snoc, List.foldl_append]
  rfl

theorem length_answers (H : History) : H.answers.length = H.actions.length := by
  induction H using snoc_induction with
  | nil => rfl
  | snoc H a ih => rw [answers_snoc, List.length_append, ih, snoc, List.length_append]; rfl

theorem registered?_snoc :
    (H.snoc a).registered? id = (a.registered? id).or (H.registered? id) := by
  rw [registered?, snoc, List.reverse_append, List.reverse_singleton, List.singleton_append,
    List.findSome?_cons]
  cases a.registered? id <;> rfl

theorem upTo_snoc (h : i ≤ H.actions.length) : (H.snoc a).upTo i = H.upTo i := by
  rw [upTo, upTo, snoc, List.take_append_of_le_length h]

theorem upTo_length (H : History) : H.upTo H.actions.length = H := by
  rw [upTo, List.take_length]

theorem upTo_succ (h : H.actions[i]? = some a) : H.upTo (i + 1) = (H.upTo i).snoc a := by
  rw [upTo, List.take_add_one, h]
  rfl

theorem length_snoc : (H.snoc a).actions.length = H.actions.length + 1 := by
  rw [snoc, List.length_append, List.length_singleton]

theorem getElem?_snoc_length : (H.snoc a).actions[H.actions.length]? = some a :=
  List.getElem?_concat_length

theorem lt_of_getElem? {b : Action} (h : H.actions[i]? = some b) : i < H.actions.length :=
  (List.getElem?_eq_some_iff.1 h).1

theorem getElem?_snoc_eq_some_iff {b : Action} : (H.snoc a).actions[i]? = some b ↔
    H.actions[i]? = some b ∨ i = H.actions.length ∧ a = b := by
  constructor
  · intro h
    have hi := lt_of_getElem? h
    rw [length_snoc] at hi
    rcases Nat.lt_succ_iff_lt_or_eq.1 hi with hi | rfl
    · exact .inl ((List.getElem?_append_left hi).symm.trans h)
    · exact .inr ⟨rfl, Option.some.inj (getElem?_snoc_length.symm.trans h)⟩
  · rintro (h | ⟨rfl, rfl⟩)
    · exact (List.getElem?_append_left (lt_of_getElem? h)).trans h
    · exact getElem?_snoc_length

theorem makes_snoc {x : Setting} :
    (H.snoc a).Makes i x ↔ H.Makes i x ∨ i = H.actions.length ∧ a.Makes x := by
  constructor
  · rintro ⟨b, hb, hx⟩
    rcases getElem?_snoc_eq_some_iff.1 hb with hb | ⟨rfl, rfl⟩
    · exact .inl ⟨b, hb, hx⟩
    · exact .inr ⟨rfl, hx⟩
  · rintro (⟨b, hb, hx⟩ | ⟨rfl, hx⟩)
    · exact ⟨b, getElem?_snoc_eq_some_iff.2 (.inl hb), hx⟩
    · exact ⟨a, getElem?_snoc_length, hx⟩

theorem Makes.lt {x : Setting} (h : H.Makes i x) : i < H.actions.length := by
  obtain ⟨_, ha, -⟩ := h
  exact lt_of_getElem? ha

theorem Compiles.lt (h : H.Compiles i p) : i < H.actions.length := by
  obtain ⟨_, _, _, ha, -⟩ := h
  exact lt_of_getElem? ha

/-- What was compiled in front of an action does not depend on it. -/
theorem compiles_snoc (h : i < H.actions.length) : (H.snoc a).Compiles i p ↔ H.Compiles i p := by
  rw [Compiles, Compiles, upTo_snoc (Nat.le_of_lt h), snoc, List.getElem?_append_left h]

theorem compiles_snoc_length :
    (H.snoc a).Compiles H.actions.length p ↔ ∃ source id c, a = .compile source id ∧ H.InForce c ∧
      (Forest.ofSource c.limits H.sourcesInForce id source).bind
        (Program.ofForest c.strictScoping) = .ok p := by
  rw [Compiles, getElem?_snoc_length, upTo_snoc le_rfl, upTo_length]
  simp only [Option.some.injEq]

/-- The last action stores a template, or one in front of it does. -/
theorem stores_snoc : (H.snoc a).Stores i id p ↔
    H.Stores i id p ∨ i = H.actions.length ∧
      ∃ compiler, a = .store id compiler ∧ H.Compiles compiler p := by
  constructor
  · rintro ⟨compiler, hlt, ha, hp⟩
    rcases getElem?_snoc_eq_some_iff.1 ha with ha | ⟨rfl, hstore⟩
    · exact .inl ⟨compiler, hlt, ha, (compiles_snoc (hlt.trans (lt_of_getElem? ha))).1 hp⟩
    · exact .inr ⟨rfl, compiler, hstore, (compiles_snoc hlt).1 hp⟩
  · rintro (⟨compiler, hlt, ha, hp⟩ | ⟨rfl, compiler, rfl, hp⟩)
    · exact ⟨compiler, hlt, getElem?_snoc_eq_some_iff.2 (.inl ha),
        (compiles_snoc (hlt.trans (lt_of_getElem? ha))).2 hp⟩
    · exact ⟨compiler, hp.lt, getElem?_snoc_length, (compiles_snoc hp.lt).2 hp⟩

theorem Stores.lt (h : H.Stores i id p) : i < H.actions.length := by
  obtain ⟨_, -, ha, -⟩ := h
  exact lt_of_getElem? ha

/-- The last action decides what is under an id, if it stores a template there or removes it. -/
theorem holds_snoc : (H.snoc a).Holds id p ↔
    (∃ compiler, a = .store id compiler ∧ H.Compiles compiler p) ∨
      H.Holds id p ∧ a ≠ .remove id ∧
        ∀ compiler, a = .store id compiler → ∀ q, ¬ H.Compiles compiler q := by
  constructor
  · rintro ⟨i, hi, hlater⟩
    rcases stores_snoc.1 hi with hi | ⟨-, hstore⟩
    · have hlast := hlater H.actions.length hi.lt
      refine .inr ⟨⟨i, hi, fun j hj => ⟨fun hr => ?_, fun q hq => ?_⟩⟩, fun ha => ?_, ?_⟩
      · exact (hlater j hj).1 (getElem?_snoc_eq_some_iff.2 (.inl hr))
      · exact (hlater j hj).2 q (stores_snoc.2 (.inl hq))
      · exact hlast.1 (ha ▸ getElem?_snoc_length)
      · exact fun compiler ha q hq => hlast.2 q (stores_snoc.2 (.inr ⟨rfl, compiler, ha, hq⟩))
    · exact .inl hstore
  · rintro (hstore | ⟨⟨i, hi, hlater⟩, hremove, hstore⟩)
    · refine ⟨H.actions.length, stores_snoc.2 (.inr ⟨rfl, hstore⟩), fun j hj => ⟨fun hr => ?_, ?_⟩⟩
      · have hlt := lt_of_getElem? hr
        rw [length_snoc] at hlt
        omega
      · intro q hq
        have hlt := hq.lt
        rw [length_snoc] at hlt
        omega
    · refine ⟨i, stores_snoc.2 (.inl hi), fun j hj => ⟨fun hr => ?_, fun q hq => ?_⟩⟩
      · rcases getElem?_snoc_eq_some_iff.1 hr with hr | ⟨-, ha⟩
        · exact (hlater j hj).1 hr
        · exact hremove ha
      · rcases stores_snoc.1 hq with hq | ⟨-, compiler, ha, hq⟩
        · exact (hlater j hj).2 q hq
        · exact hstore compiler ha q hq

/-! ## The configuration in force -/

section Settings

variable {α : Type} {make : α → Setting} {initial v w : α} {x : Setting} {c c' : Config}

/-- A setting that is made last is left. -/
theorem leaves_snoc_of_makes (h : a.Makes (make v)) : (H.snoc a).Leaves make initial v := by
  refine .inl ⟨H.actions.length, makes_snoc.2 (.inr ⟨rfl, h⟩), fun j hj w hw => ?_⟩
  have hlt := hw.lt
  rw [length_snoc] at hlt
  omega

/-- An action that does not make a setting leaves it as it was. -/
theorem Leaves.snoc (hv : H.Leaves make initial v) (h : ∀ w, ¬ a.Makes (make w)) :
    (H.snoc a).Leaves make initial v := by
  have hmakes (j : Nat) (w : α) : (H.snoc a).Makes j (make w) ↔ H.Makes j (make w) :=
    makes_snoc.trans (or_iff_left fun hlast => h w hlast.2)
  simp only [Leaves, hmakes]
  exact hv

/-- A history leaves one value at most. -/
theorem Leaves.unique (hmake : make.Injective) (hv : H.Leaves make initial v)
    (hw : H.Leaves make initial w) : v = w := by
  rcases hv with ⟨i, hi, hlater⟩ | ⟨rfl, hnone⟩
  · rcases hw with ⟨j, hj, hlater'⟩ | ⟨-, hnone⟩
    · rcases Nat.lt_trichotomy i j with hlt | rfl | hgt
      · exact absurd hj (hlater j hlt w)
      · obtain ⟨a, ha, hv⟩ := hi
        obtain ⟨b, hb, hw⟩ := hj
        obtain rfl := Option.some.inj (ha.symm.trans hb)
        exact hmake (hv.unique hw)
      · exact absurd hi (hlater' i hgt v)
    · exact absurd hi (hnone i v)
  · rcases hw with ⟨j, hj, -⟩ | ⟨rfl, -⟩
    · exact absurd hj (hnone j w)
    · rfl

theorem InForce.unique (h : H.InForce c) (h' : H.InForce c') : c = c' := by
  have hstrict := h.strictScoping.unique (fun _ _ => Setting.strictScoping.inj) h'.strictScoping
  have himport := h.maxImportDepth.unique (fun _ _ => Setting.maxImportDepth.inj) h'.maxImportDepth
  have hnesting :=
    h.maxNestingDepth.unique (fun _ _ => Setting.maxNestingDepth.inj) h'.maxNestingDepth
  cases c
  cases c'
  cases hstrict
  cases himport
  cases hnesting
  rfl

theorem InForce.snoc_of_makes (hc : H.InForce c) (h : a.Makes x) :
    (H.snoc a).InForce (x.applied c) := by
  have hother {β : Type} {make : β → Setting} (hne : ∀ w, x ≠ make w) (w : β) : ¬ a.Makes (make w) :=
    fun hw => hne w (h.unique hw)
  cases x with
  | strictScoping strict =>
    exact ⟨leaves_snoc_of_makes h, hc.maxImportDepth.snoc (hother nofun),
      hc.maxNestingDepth.snoc (hother nofun)⟩
  | maxImportDepth n =>
    exact ⟨hc.strictScoping.snoc (hother nofun), leaves_snoc_of_makes h,
      hc.maxNestingDepth.snoc (hother nofun)⟩
  | maxNestingDepth n =>
    exact ⟨hc.strictScoping.snoc (hother nofun), hc.maxImportDepth.snoc (hother nofun),
      leaves_snoc_of_makes h⟩

theorem InForce.snoc_of_not_makes (hc : H.InForce c) (h : ∀ x, ¬ a.Makes x) :
    (H.snoc a).InForce c :=
  ⟨hc.strictScoping.snoc fun _ => h _, hc.maxImportDepth.snoc fun _ => h _,
    hc.maxNestingDepth.snoc fun _ => h _⟩

end Settings

/-! ## The session at the end of a history -/

theorem resolver_session (H : History) : H.session.resolver = H.resolver := by
  induction H using snoc_induction with
  | nil => rfl
  | snoc H a ih =>
    rw [session_snoc, Session.perform_resolver, ih]
    rfl

/-- **A session has the configuration that is in force.** -/
theorem inForce_session (H : History) : H.InForce H.session.config := by
  induction H using snoc_induction with
  | nil => exact ⟨.inr ⟨rfl, nofun⟩, .inr ⟨rfl, nofun⟩, .inr ⟨rfl, nofun⟩⟩
  | snoc H a ih =>
    rw [session_snoc]
    by_cases h : ∃ x, a.Makes x
    · obtain ⟨x, h⟩ := h
      rw [Session.perform_config_of_makes h]
      exact ih.snoc_of_makes h
    · have hnone := not_exists.1 h
      rw [Session.perform_config_of_not_makes hnone]
      exact ih.snoc_of_not_makes hnone

theorem inForce_iff {c : Config} : H.InForce c ↔ c = H.session.config :=
  ⟨fun h => h.unique H.inForce_session, fun h => h ▸ H.inForce_session⟩

theorem find?_sources_session (H : History) (id : String) :
    H.session.sources.find? id = H.registered? id := by
  induction H using snoc_induction with
  | nil => rfl
  | snoc H a ih => rw [session_snoc, Session.find?_sources_perform, ih, registered?_snoc]

/-- A session compiles with what is in force. -/
theorem compile_session {source : String} {id : Option String} :
    H.session.compile source id = .ok p ↔ ∃ c, H.InForce c ∧
      (Forest.ofSource c.limits H.sourcesInForce id source).bind
        (Program.ofForest c.strictScoping) = .ok p := by
  have hresolve : H.session.resolve = H.sourcesInForce := by
    rw [Session.resolve, sourcesInForce, resolver_session]
    simp only [find?_sources_session]
  rw [Session.compile, Session.parse, hresolve]
  simp only [inForce_iff, exists_eq_left]

/-- The templates that a host has from the answers. -/
theorem answers_program? : H.answers[i]?.bind Answer.program? = some p ↔ H.Compiles i p := by
  induction H using snoc_induction with
  | nil => exact ⟨nofun, fun h => nomatch h.lt⟩
  | snoc H a ih =>
    rw [answers_snoc]
    rcases Nat.lt_trichotomy i H.actions.length with hlt | rfl | hgt
    · rw [List.getElem?_append_left (H.length_answers ▸ hlt), ih, compiles_snoc hlt]
    · rw [← H.length_answers, List.getElem?_concat_length, H.length_answers, compiles_snoc_length,
        Option.bind_some, Session.program?_perform]
      simp only [compile_session, exists_and_left]
    · rw [List.getElem?_eq_none (by rw [List.length_append, H.length_answers]; exact hgt)]
      refine ⟨nofun, fun h => ?_⟩
      have hlt := h.lt
      rw [length_snoc] at hlt
      omega

theorem nodup_keys_session (H : History) : H.session.stored.keys.Nodup := by
  induction H using snoc_induction with
  | nil => exact List.nodup_nil
  | snoc H a ih =>
    rw [session_snoc]
    exact Session.nodup_keys_perform ih

/-- **A session has under an id what the history leaves there.** -/
theorem get?_session : H.session.get? id = some p ↔ H.Holds id p := by
  induction H using snoc_induction generalizing p with
  | nil =>
    refine ⟨nofun, ?_⟩
    rintro ⟨i, ⟨_, -, h, -⟩, -⟩
    cases h
  | snoc H a ih =>
    rw [session_snoc, Session.get?_perform, holds_snoc, ← ih]
    cases a with
    | store other compiler =>
      simp only [← answers_program?]
      by_cases h : other = id
      · subst h
        cases hp : H.answers[compiler]?.bind Answer.program? <;> simp [hp]
      · simp [h]
    | remove other => by_cases h : other = id <;> simp [h]
    | _ => simp

/-! ## Answers -/

/-- An action is answered by the session in front of it. -/
theorem getElem?_answers (h : H.actions[i]? = some a) :
    H.answers[i]? = some ((H.upTo i).session.perform (H.upTo i).answers a).1 := by
  induction H using snoc_induction with
  | nil => cases h
  | snoc H b ih =>
    rw [answers_snoc]
    rcases getElem?_snoc_eq_some_iff.1 h with h | ⟨rfl, rfl⟩
    · have hi := lt_of_getElem? h
      rw [upTo_snoc (Nat.le_of_lt hi), List.getElem?_append_left (H.length_answers ▸ hi)]
      exact ih h
    · rw [upTo_snoc le_rfl, upTo_length, ← H.length_answers]
      exact List.getElem?_concat_length

theorem isSome_registered? : (H.registered? id).isSome ↔ ∃ text, .register id text ∈ H.actions := by
  rw [registered?, List.findSome?_isSome_iff]
  constructor
  · rintro ⟨b, hb, hsome⟩
    cases b with
    | register other text =>
      by_cases h : other = id
      · exact ⟨text, h ▸ List.mem_reverse.1 hb⟩
      · rw [Action.registered?, if_neg h] at hsome
        cases hsome
    | _ => cases hsome
  · rintro ⟨text, h⟩
    exact ⟨_, List.mem_reverse.2 h, by rw [Action.registered?, if_pos rfl]; rfl⟩

theorem register_answer {text : String} (h : H.actions[i]? = some (.register id text)) :
    ∃ was, H.answers[i]? = some (.replaced was) ∧
      (was = true ↔ ∃ text, .register id text ∈ (H.upTo i).actions) := by
  refine ⟨_, getElem?_answers h, ?_⟩
  rw [Session.register, Dict.contains, find?_sources_session, isSome_registered?]

/-- What is compiled in front of a place is compiled so by the history up to there. -/
theorem compiles_upTo {n : Nat} (h : i < n) : (H.upTo n).Compiles i p ↔ H.Compiles i p := by
  have hactions : (H.upTo n).actions[i]? = H.actions[i]? := List.getElem?_take_of_lt h
  have hupTo : (H.upTo n).upTo i = H.upTo i := by
    rw [upTo, upTo, upTo, List.take_take, Nat.min_eq_left (Nat.le_of_lt h)]
  rw [Compiles, Compiles, hactions, hupTo]

theorem set_answer {key raw : String} (h : H.actions[i]? = some (.set key raw)) :
    ∃ r, H.answers[i]? = some (.configured r) ∧
      (r = .ok () ↔ ∃ x, Setting.Written key raw x) := by
  rw [getElem?_answers h]
  by_cases hw : ∃ x, Setting.Written key raw x
  · obtain ⟨x, hx⟩ := hw
    exact ⟨_, by rw [Session.perform_set_of_written hx], iff_of_true rfl ⟨x, hx⟩⟩
  · obtain ⟨e, he⟩ := Session.perform_set_of_not_written (not_exists.1 hw)
    exact ⟨.error e, by rw [he], iff_of_false nofun hw⟩

theorem compile_answer : H.answers[i]? = some (.compiled (.ok p)) ↔ H.Compiles i p := by
  rw [← answers_program?, Option.bind_eq_some_iff]
  simp only [Answer.program?_eq_some_iff, exists_eq_right]

theorem store_answer (h : H.Stores i id p) :
    ∃ was, H.answers[i]? = some (.replaced was) ∧
      (was = true ↔ ∃ q, (H.upTo i).Holds id q) := by
  obtain ⟨compiler, hlt, ha, hp⟩ := h
  have hhas : (H.upTo i).answers[compiler]?.bind Answer.program? = some p :=
    answers_program?.2 ((compiles_upTo hlt).2 hp)
  refine ⟨((H.upTo i).session.store id p).1, ?_, ?_⟩
  · rw [getElem?_answers ha, Session.perform_store, hhas]
    rfl
  · rw [Session.store, Dict.contains, Option.isSome_iff_exists]
    exact exists_congr fun q => get?_session

theorem session_of_failed {answer : Answer} (h : H.answers[i]? = some answer)
    (hf : answer.Failed) : (H.upTo (i + 1)).session = (H.upTo i).session := by
  have hi : i < H.actions.length := H.length_answers ▸ (List.getElem?_eq_some_iff.1 h).1
  have ha : H.actions[i]? = some H.actions[i] := List.getElem?_eq_getElem hi
  obtain rfl := Option.some.inj ((getElem?_answers ha).symm.trans h)
  rw [upTo_succ ha, session_snoc]
  exact Session.perform_of_failed hf

/-- **A session follows its history.** What is stored under an id renders as the template that was
stored there last and not removed since, compiled from the sources and the configuration that were
in force when it was compiled; without such a template it is an error that names the id. The ids
are listed in strictly increasing order, those with a template and no others, and they are counted.
The configuration is the one in force, and a setting can be made when it is written as one. A host
gets what is compiled. Registering and storing tell whether something was under the id before. What
fails leaves the session as it was. -/
theorem followed (H : History) :
    (∀ id data,
      (∀ p, H.Holds id p → H.session.renderStored id data = p.render data) ∧
      ((∀ p, ¬ H.Holds id p) → ∃ e, H.session.renderStored id data = .error e ∧
        e.kind = .resolution ∧ e.cause = .notStored id ∧ e.template = some id)) ∧
    (H.session.ids.Pairwise (· < ·) ∧ (∀ id, id ∈ H.session.ids ↔ ∃ p, H.Holds id p) ∧
      H.session.size = H.session.ids.length) ∧
    (∀ c, H.InForce c ↔ c = H.session.config) ∧
    (∀ (i : Nat) key raw, H.actions[i]? = some (.set key raw) →
      ∃ r, H.answers[i]? = some (.configured r) ∧
        (r = .ok () ↔ ∃ x, Setting.Written key raw x)) ∧
    (∀ (i : Nat) p, H.answers[i]? = some (.compiled (.ok p)) ↔ H.Compiles i p) ∧
    (∀ i id text, H.actions[i]? = some (.register id text) →
      ∃ was, H.answers[i]? = some (.replaced was) ∧
        (was = true ↔ ∃ text, .register id text ∈ (H.upTo i).actions)) ∧
    (∀ i id p, H.Stores i id p →
      ∃ was, H.answers[i]? = some (.replaced was) ∧
        (was = true ↔ ∃ q, (H.upTo i).Holds id q)) ∧
    ∀ i answer, H.answers[i]? = some answer → answer.Failed →
      (H.upTo (i + 1)).session = (H.upTo i).session := by
  refine ⟨fun id data => ⟨fun p hp => ?_, fun hnone => ?_⟩, ⟨?_, fun id => ?_, ?_⟩,
    fun c => inForce_iff, fun _ _ _ => set_answer, fun _ _ => compile_answer,
    fun _ _ _ => register_answer, fun _ _ _ => store_answer, fun _ _ => session_of_failed⟩
  · rw [Session.renderStored, get?_session.2 hp]
  · have hget : H.session.get? id = none :=
      Option.eq_none_iff_forall_ne_some.2 fun p hp => hnone p (get?_session.1 hp)
    exact ⟨_, by rw [Session.renderStored, hget], rfl, rfl, rfl⟩
  · exact Session.ids_increasing H.nodup_keys_session
  · rw [Session.mem_ids]
    exact exists_congr fun p => get?_session
  · exact Session.size_eq _

/-- A host that may import nothing until it has made a setting, then stores a template with an
import, and registers another source and takes the setting back. -/
def reregistering : History := { config := { maxImportDepth := 0 }, actions := [
  .register "m" "old", .compile "\x7b\x7bimport 'm'\x7d\x7d" none,
  .set "max_import_depth" " +1 ", .set "strict_scoping" "maybe",
  .compile "\x7b\x7bimport 'm'\x7d\x7d" none, .store "page" 4, .store "draft" 4,
  .register "m" "new", .set "max_import_depth" "0", .remove "draft"] }

theorem holds_reregistering : reregistering.Holds "page" ⟨none, [.text "old"], 0⟩ := by
  have hcompiled : reregistering.answers[4]? = some (.compiled (.ok ⟨none, [.text "old"], 0⟩)) := by
    cbv
  refine ⟨5, ⟨4, by decide, rfl, compile_answer.1 hcompiled⟩, fun j hj => ⟨fun h => ?_, ?_⟩⟩
  · obtain ⟨hlt, h⟩ := List.getElem?_eq_some_iff.1 h
    change j < 10 at hlt
    interval_cases j <;> simp [reregistering] at h
  · rintro q ⟨compiler, -, h, -⟩
    obtain ⟨hlt, h⟩ := List.getElem?_eq_some_iff.1 h
    change j < 10 at hlt
    interval_cases j <;> simp [reregistering] at h

/-- In front of the setting the import is refused, and behind it compiled. The setting that cannot
be made changes nothing, and the template keeps the import of its time when the source and the
setting are changed again. -/
theorem followed_reregistering :
    (∃ answer, reregistering.answers[1]? = some answer ∧ answer.Failed) ∧
      (∃ x, Setting.Written "max_import_depth" " +1 " x) ∧
      (reregistering.upTo 3).InForce { maxImportDepth := 1 } ∧
      (∃ answer, reregistering.answers[3]? = some answer ∧ answer.Failed) ∧
      (reregistering.upTo 4).session = (reregistering.upTo 3).session ∧
      reregistering.Compiles 4 ⟨none, [.text "old"], 0⟩ ∧
      reregistering.InForce { maxImportDepth := 0 } ∧
      reregistering.Holds "page" ⟨none, [.text "old"], 0⟩ ∧
      reregistering.session.renderStored "page" none = .ok "old" ∧
      "page" ∈ reregistering.session.ids := by
  obtain ⟨hrender, ⟨-, hids, -⟩, hconfig, hset, hcompile, -, -, hfailed⟩ := followed reregistering
  obtain ⟨-, -, hconfig', -⟩ := followed (reregistering.upTo 3)
  have hrefused : reregistering.answers[1]? = some (.compiled (.error ⟨.importLimit 0, none,
      some ⟨"import", "'m'"⟩, some ⟨0, 14⟩⟩)) := by
    cbv
  have hmade : reregistering.answers[2]? = some (.configured (.ok ())) := by cbv
  have hnot : reregistering.answers[3]? =
      some (.configured (.error (.notBoolean "strict_scoping" "maybe"))) := by
    cbv
  have hcompiled : reregistering.answers[4]? = some (.compiled (.ok ⟨none, [.text "old"], 0⟩)) := by
    cbv
  refine ⟨⟨_, hrefused, trivial⟩, ?_, ?_, ⟨_, hnot, trivial⟩, hfailed 3 _ hnot trivial,
    (hcompile 4 _).1 hcompiled, ?_, holds_reregistering, ?_, ?_⟩
  · obtain ⟨r, hr, hwritten⟩ := hset 2 _ _ rfl
    cases hmade.symm.trans hr
    exact hwritten.1 rfl
  · exact (hconfig' _).2 (by cbv)
  · exact (hconfig _).2 (by cbv)
  · rw [(hrender "page" none).1 _ holds_reregistering]
    cbv
  · exact (hids "page").2 ⟨_, holds_reregistering⟩

end History
end Stencil
