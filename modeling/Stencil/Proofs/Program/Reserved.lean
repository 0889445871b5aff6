import Stencil.Proofs.Except
import Stencil.Proofs.Program.Lockstep
import Stencil.Proofs.Segment.Written
import Stencil.Session
import Mathlib

/-!
# The reserved name

The scopes of a run hold the names of the data, of declarations, of the entries of contexts and of
loops. All but the last are compared with `reservedName` before they are bound.

* `Environment.Unbound` says that no scope of an environment binds a name, and `kept_unbound` that
  all parts of a program keep `reservedName` so, but for loops that bind it.
* `Program.reserved_unbound` is the result for whole runs.
* `Session.compile_binds_reserved` is a template with a loop that binds the name.
-/

namespace Stencil

namespace Environment

/-- No scope binds the name. -/
def Unbound (name : String) (env : Environment) : Prop :=
  ∀ scope ∈ env.scopes, Dict.find? name scope = none

variable {name x : String} {v : Value} {env env' : Environment}

theorem Unbound.declare (h : env.Unbound name) (hx : x ≠ name) (v : Value) :
    (env.declare x v).Unbound name := by
  obtain ⟨hinner, houter⟩ := List.forall_mem_cons.1 h
  refine List.forall_mem_cons.2 ⟨?_, houter⟩
  rw [Environment.declare, Dict.find?_insert, if_neg hx, hinner]

theorem Unbound.push (h : env.Unbound name) : env.push.Unbound name :=
  List.forall_mem_cons.2 ⟨rfl, h⟩

theorem Unbound.pop (h : env.Unbound name) : env.pop.Unbound name := by
  obtain ⟨inner, outer⟩ := env
  cases outer with
  | nil => exact h
  | cons scope scopes => exact fun s hs => h s (List.mem_cons_of_mem inner hs)

/-- A scope that has a name which may be written to still lacks one that it lacked. -/
theorem find?_insert_of_contains {scope : Scope} (hc : scope.contains x = true)
    (h : Dict.find? name scope = none) (v : Value) :
    Dict.find? name (scope.insert x v) = none := by
  rw [Dict.find?_insert, if_neg, h]
  rintro rfl
  rw [Dict.contains, h] at hc
  cases hc

theorem unbound_assignIn? {scopes scopes' : List Scope}
    (h : ∀ scope ∈ scopes, Dict.find? name scope = none)
    (ha : assignIn? x v scopes = some scopes') :
    ∀ scope ∈ scopes', Dict.find? name scope = none := by
  induction scopes generalizing scopes' with
  | nil => cases ha
  | cons scope scopes ih =>
    obtain ⟨hs, hss⟩ := List.forall_mem_cons.1 h
    rw [assignIn?] at ha
    split at ha
    · obtain rfl := Option.some.inj ha
      exact List.forall_mem_cons.2 ⟨find?_insert_of_contains ‹_› hs v, hss⟩
    · obtain ⟨rest, hrest, rfl⟩ := Option.map_eq_some_iff.1 ha
      exact List.forall_mem_cons.2 ⟨hs, ih hss hrest⟩

theorem Unbound.assign (h : env.Unbound name) (ha : env.assign x v = .ok env') :
    env'.Unbound name := by
  obtain ⟨hinner, houter⟩ := List.forall_mem_cons.1 h
  unfold Environment.assign assign? at ha
  split at ha
  · rename_i e he
    obtain rfl := Except.ok.inj ha
    split at he
    · obtain rfl := Option.some.inj he
      exact List.forall_mem_cons.2 ⟨find?_insert_of_contains ‹_› hinner v, houter⟩
    · obtain ⟨outer, ho, rfl⟩ := Option.map_eq_some_iff.1 he
      exact List.forall_mem_cons.2 ⟨hinner, unbound_assignIn? houter ho⟩
  · cases ha

end Environment

/-- A statement declares other names only, and what it assigns to is bound already. -/
theorem Statement.run_unbound {s : Statement} {env env' : Environment}
    (h : env.Unbound reservedName) (hr : s.run env = .ok env') : env'.Unbound reservedName := by
  rcases Statement.run_cases hr with ⟨name, v, hn, rfl⟩ | ⟨name, v, -, hr⟩ | rfl
  · exact h.declare hn v
  · exact h.assign hr
  · exact h

/-- All that a program does keeps the reserved name unbound, but for loops that bind it. -/
theorem kept_unbound : Kept (· ≠ .binds reservedName)
    (fun env env' => env = env' ∧ env.Unbound reservedName) where
  eval := by
    rintro env _ e ⟨rfl, -⟩ -
    rfl
  run := by
    rintro env _ s ⟨rfl, h⟩ -
    cases hr : s.run env with
    | error err => exact .error err
    | ok env' => exact .ok ⟨rfl, Statement.run_unbound h hr⟩
  declare := by
    rintro env _ name ⟨rfl, h⟩ hn v
    exact ⟨rfl, h.declare (fun hname => hn (hname ▸ rfl)) v⟩
  bind := by
    rintro env _ name ⟨rfl, h⟩ hn v
    exact ⟨rfl, h.declare hn v⟩
  push := by
    rintro env _ ⟨rfl, h⟩
    exact ⟨rfl, h.push⟩
  pop := by
    rintro env _ ⟨rfl, h⟩
    exact ⟨rfl, h.pop⟩

namespace Program

theorem unbound_of_dataScope {data : Option Value} {scope : Scope}
    (h : dataScope data = .ok scope) : (Environment.ofScope scope).Unbound reservedName := by
  refine List.forall_mem_singleton.2 ?_
  unfold dataScope at h
  split at h
  · obtain rfl := Except.ok.inj h
    rfl
  · obtain rfl := Except.ok.inj h
    rfl
  · obtain rfl := Except.ok.inj h
    rfl
  · split at h
    · cases h
    · obtain rfl := Except.ok.inj h
      exact Dict.find?_insertAll_of_not_mem (mt any_reserved_iff.2 ‹_›) []
  · cases h

/-- **A run never binds the reserved name**, when no loop of the program does: after any number of
the steps that lead to what the program renders, no scope has it. Data with the name are refused,
and a declaration or an entry of a context that has it ends the run before anything is bound. -/
theorem reserved_unbound {p : Program} (hp : .binds reservedName ∉ p.uses) (data : Option Value) :
    (∀ scope, dataScope data = .ok scope →
      (∀ n, (Stage.step^[n] (p.atStart scope)).machine.env.Unbound reservedName) ∧
      ∃ s, (p.atStart scope).Steps s ∧ s.tasks = [] ∧ s.result = p.render data) ∧
    (∀ entries, data = some (.object entries) → reservedName ∈ Dict.keys entries →
      p.render data = .error ⟨.reservedData, p.template, none, none⟩) ∧
    (∀ site value ts m, Stage.step ⟨.statement site (.declare reservedName value) :: ts, m, none⟩ =
      ⟨ts, m, some (site.fail (.reservedName reservedName))⟩) ∧
    ∀ site v ts m, Stage.step ⟨.bind site reservedName v :: ts, m, none⟩ =
      ⟨ts, m, some (site.fail (.reservedName reservedName))⟩ := by
  refine ⟨fun scope h => ⟨fun n => ?_, steps_render h⟩, ?_, fun site value ts m => ?_,
    fun _ _ _ _ => rfl⟩
  · have hstart : Stage.Like (· ≠ .binds reservedName)
        (fun env env' => env = env' ∧ env.Unbound reservedName) (p.atStart scope)
        (p.atStart scope) :=
      ⟨rfl, ⟨⟨rfl, unbound_of_dataScope h⟩, rfl, rfl⟩, rfl, .body fun u hu h => hp (h ▸ hu)⟩
    exact (hstart.iterate kept_unbound n).machine.env.2
  · rintro entries rfl hr
    exact render_of_reserved p hr
  · have hrun : (Task.step (.statement site (.declare reservedName value))).run m =
        (.error (site.fail (.reservedName reservedName)), m) :=
      Run.run_bind_error (by rw [Run.run_statement, Statement.run_declare, if_pos rfl])
    simp only [Stage.step, hrun]

/-- A loop that binds `c` and in it a declaration of the reserved name. -/
def declaringProgram : Program :=
  ⟨none, [.each "c" (.name "x" ⟨0, 1⟩) none none 0
    [.execute [.declare reservedName none] ⟨none, .execute, "let EmbossInternalData", ⟨15, 49⟩⟩]
    true ⟨none, .each, "c in x", ⟨0, 15⟩⟩], 1⟩

theorem reserved_unbound_declaring : .binds reservedName ∉ declaringProgram.uses ∧
    ∀ n, (Stage.step^[n] (declaringProgram.atStart [("x", .string "a")])).machine.env.Unbound
      reservedName := by
  have hp : .binds reservedName ∉ declaringProgram.uses := by decide
  have h := reserved_unbound hp (some (.object [("x", .string "a")]))
  exact ⟨hp, (h.1 _ rfl).1⟩

end Program

namespace Session

/-- A loop that binds the reserved name. -/
def reservedSource : String := "\x7b\x7beach EmbossInternalData in x\x7d\x7d\x7b\x7b/each\x7d\x7d"

theorem ofSource_reservedSource : Segment.ofSource reservedSource =
    [.directive "each EmbossInternalData in x" ⟨0, 32⟩, .directive "/each" ⟨32, 41⟩] := by
  have hinner : Text.Bare "each EmbossInternalData in x".toList := by decide
  have hcloser : Segment.ofChars 32 "\x7b\x7b/each\x7d\x7d".toList =
      [.directive "/each" ⟨32, 41⟩] := by
    cbv
  obtain ⟨span, hspan, h⟩ := Segment.ofChars_of_body? List.not_mem_nil
    (Segment.body?_bare hinner "\x7b\x7b/each\x7d\x7d".toList) 0
  show Segment.ofChars 0 ([] ++ (Segment.openMark ++ ("each EmbossInternalData in x".toList ++
    (Segment.closeMark ++ "\x7b\x7b/each\x7d\x7d".toList)))) = _
  rw [h, hspan]
  show [] ++ .directive "each EmbossInternalData in x" ⟨0, 32⟩ :: Segment.ofChars 32 _ = _
  rw [hcloser]
  rfl

/-- The third step of a run of it binds the name. -/
theorem compile_binds_reserved : ∃ p, ({} : Session).compile reservedSource none = .ok p ∧
    ∃ scope, Program.dataScope (some (.object [("x", .string "a")])) = .ok scope ∧
      ¬ (Stage.step^[3] (p.atStart scope)).machine.env.Unbound reservedName := by
  have hforest : ({} : Session).parse reservedSource none = .ok
      ⟨none, [.block ⟨0, none, ⟨none, .each, "EmbossInternalData in x", ⟨0, 32⟩⟩⟩ []]⟩ := by
    have hn : Text.normalized reservedSource = reservedSource := by cbv
    show Forest.ofNormalized ⟨32, 64⟩ ({} : Session).resolve none
      (Text.normalized reservedSource) = _
    rw [hn, Forest.ofNormalized, Pass.run, ofSource_reservedSource]
    cbv
  have hprogram : Program.ofForest true
      ⟨none, [.block ⟨0, none, ⟨none, .each, "EmbossInternalData in x", ⟨0, 32⟩⟩⟩ []]⟩ =
      .ok ⟨none, [.each reservedName (.name "x" ⟨0, 1⟩) none none 0 [] true
        ⟨none, .each, "EmbossInternalData in x", ⟨0, 32⟩⟩], 1⟩ := by
    cbv
  refine ⟨_, (by rw [compile, hforest]; exact hprogram), [("x", .string "a")], rfl, fun h => ?_⟩
  have hbound : Dict.find? reservedName [(reservedName, Value.string "a")] = none :=
    h _ List.mem_cons_self
  cases hbound

end Session
end Stencil
