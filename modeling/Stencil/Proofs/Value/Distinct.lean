import Stencil.Evaluation.Basic
import Stencil.Proofs.Except
import Mathlib

/-!
# Distinct keys

An object is a dictionary that is filled one entry after the other. Its keys stand in the order in
which they were inserted first, and each has the value that was inserted last.

* `Dict.keys_ofList`, `Dict.find?_ofList_eq_lookup` and `Dict.length_ofList` say so of any sequence
  of insertions.
* `Value.Distinct` says of all the objects in a value, at any depth, that their keys are distinct.
  Reading from such values and computing with them gives such values (`Value.property_distinct`,
  `Builtin.call_distinct`), and so does every expression (`Expr.eval_distinct`).
-/

namespace Stencil

/-! ## Insertions -/

namespace Dict

variable {α : Type*}

/-- A new key goes to the end. -/
theorem insert_of_not_mem {k : String} {d : Dict α} (h : k ∉ keys d) (v : α) :
    insert k v d = d ++ [(k, v)] := by
  induction d with
  | nil => rfl
  | cons entry d ih =>
    obtain ⟨hk, hd⟩ := not_or.1 (mt List.mem_cons.2 h)
    rw [insert, if_neg (Ne.symm hk), ih hd]
    rfl

theorem keys_insert (k : String) (v : α) (d : Dict α) :
    keys (insert k v d) = if k ∈ keys d then keys d else keys d ++ [k] := by
  by_cases hk : k ∈ keys d
  · have hc : d.contains k = true := by
      rw [contains, Option.isSome_iff_ne_none, Ne, find?_eq_none_iff, not_not]
      exact hk
    rw [if_pos hk, keys_insert_of_contains hc]
  · rw [if_neg hk, insert_of_not_mem hk, keys, List.map_append]
    rfl

theorem ofList_concat (entries : List (String × α)) (entry : String × α) :
    ofList (entries ++ [entry]) = insert entry.1 entry.2 (ofList entries) := by
  rw [ofList, insertAll, List.foldl_append]
  rfl

theorem nodup_keys_ofList (entries : List (String × α)) : (keys (ofList entries)).Nodup := by
  induction entries using List.reverseRecOn with
  | nil => exact List.nodup_nil
  | append_singleton entries entry ih =>
    rw [ofList_concat]
    exact nodup_keys_insert ih

/-- Entries with distinct keys are a dictionary as they stand. -/
theorem ofList_eq_self {entries : List (String × α)} (h : (keys entries).Nodup) :
    ofList entries = entries := by
  induction entries using List.reverseRecOn with
  | nil => rfl
  | append_singleton entries entry ih =>
    rw [keys, List.map_append, List.nodup_append] at h
    obtain ⟨hd, -, hne⟩ := h
    have hk : entry.1 ∉ keys entries := fun hk => hne _ hk _ List.mem_cons_self rfl
    rw [ofList_concat, ih hd, insert_of_not_mem hk]

/-- **The keys** are those of the entries, each in the place of its first one. -/
theorem keys_ofList (entries : List (String × α)) :
    keys (ofList entries) = (entries.map Prod.fst).eraseDups := by
  induction entries using List.reverseRecOn with
  | nil => rfl
  | append_singleton entries entry ih =>
    have hmem : entry.1 ∈ keys (ofList entries) ↔ entry.1 ∈ entries.map Prod.fst := by
      rw [ih, List.mem_eraseDups]
    rw [ofList_concat, keys_insert, List.map_append, List.eraseDups_append, ih]
    by_cases hk : entry.1 ∈ entries.map Prod.fst
    · simp [List.removeAll, hk]
    · simp [List.removeAll, hk, List.eraseDups_cons]

/-- **The value of a key** is that of its last entry. -/
theorem find?_ofList_eq_lookup (key : String) (entries : List (String × α)) :
    find? key (ofList entries) = entries.reverse.lookup key := by
  induction entries using List.reverseRecOn with
  | nil => rfl
  | append_singleton entries entry ih =>
    obtain ⟨k, v⟩ := entry
    rw [ofList_concat, find?_insert, ih, List.reverse_append, List.reverse_singleton,
      List.singleton_append, List.lookup_cons]
    by_cases hk : k = key
    · rw [if_pos hk, hk, beq_self_eq_true]
    · rw [if_neg hk, beq_eq_false_iff_ne.2 (Ne.symm hk)]

/-- **The number of entries** is that of the keys that are inserted. -/
theorem length_ofList (entries : List (String × α)) :
    (ofList entries).length = (entries.map Prod.fst).toFinset.card := by
  have hkeys : (keys (ofList entries)).toFinset = (entries.map Prod.fst).toFinset := by
    ext key
    rw [List.mem_toFinset, List.mem_toFinset, keys_ofList, List.mem_eraseDups]
  rw [← hkeys, List.toFinset_card_of_nodup (nodup_keys_ofList entries), keys, List.length_map]

/-- The values stand in the order of their keys. -/
theorem map_find?_keys {d : Dict α} (h : (keys d).Nodup) :
    (keys d).map (find? · d) = (values d).map some := by
  induction d with
  | nil => rfl
  | cons entry d ih =>
    obtain ⟨k, v⟩ := entry
    obtain ⟨hk, hd⟩ := List.nodup_cons.1 h
    have htail : (keys d).map (find? · ((k, v) :: d)) = (keys d).map (find? · d) := by
      refine List.map_congr_left fun key hkey => ?_
      rw [find?, if_neg]
      rintro rfl
      exact hk hkey
    have hhead : find? k ((k, v) :: d) = some v := if_pos rfl
    change find? k ((k, v) :: d) :: (keys d).map (find? · ((k, v) :: d)) = _
    rw [hhead, htail, ih hd]
    rfl

theorem mem_of_find?_eq_some {key : String} {d : Dict α} {v : α} (h : find? key d = some v) :
    (key, v) ∈ d := by
  induction d with
  | nil => cases h
  | cons entry d ih =>
    obtain ⟨k, w⟩ := entry
    rw [find?] at h
    split at h
    · next hk =>
      obtain rfl := hk
      obtain rfl := Option.some.inj h
      exact List.mem_cons_self
    · exact List.mem_cons_of_mem _ (ih h)

theorem mem_insert {entry : String × α} {k : String} {v : α} {d : Dict α}
    (h : entry ∈ insert k v d) : entry = (k, v) ∨ entry ∈ d := by
  induction d with
  | nil => exact .inl (List.mem_singleton.1 h)
  | cons first d ih =>
    obtain ⟨k', v'⟩ := first
    rw [insert] at h
    split at h
    · next hk =>
      obtain rfl := hk
      exact (List.mem_cons.1 h).imp_right (List.mem_cons_of_mem _)
    · rcases List.mem_cons.1 h with rfl | h
      · exact .inr List.mem_cons_self
      · exact (ih h).imp_right (List.mem_cons_of_mem _)

/-- What is in a dictionary was inserted. -/
theorem mem_of_mem_ofList {entries : List (String × α)} {entry : String × α}
    (h : entry ∈ ofList entries) : entry ∈ entries := by
  induction entries using List.reverseRecOn with
  | nil => cases h
  | append_singleton entries last ih =>
    rw [ofList_concat] at h
    rcases mem_insert h with rfl | h
    · exact List.mem_append_right _ (List.mem_singleton.2 rfl)
    · exact List.mem_append_left _ (ih h)

end Dict

/-! ## Values -/

/-- The keys of every object in the value, at any depth, are distinct. -/
inductive Value.Distinct : Value → Prop
  | undefined : Distinct .undefined
  | null : Distinct .null
  | boolean (b : Bool) : Distinct (.boolean b)
  | number (x : Float) : Distinct (.number x)
  | string (s : String) : Distinct (.string s)
  | array {items : List Value} (h : ∀ v ∈ items, Distinct v) : Distinct (.array items)
  | object {entries : List (String × Value)} (hk : (Dict.keys entries).Nodup)
    (h : ∀ entry ∈ entries, Distinct entry.2) : Distinct (.object entries)

/-- The values of all variables are so. -/
def Environment.Distinct (env : Environment) : Prop :=
  ∀ scope ∈ env.scopes, ∀ entry ∈ scope, entry.2.Distinct

namespace Value

theorem distinct_ofList {entries : List (String × Value)}
    (h : ∀ entry ∈ entries, entry.2.Distinct) : (object (Dict.ofList entries)).Distinct :=
  .object (Dict.nodup_keys_ofList entries) fun entry he => h entry (Dict.mem_of_mem_ofList he)

theorem distinct_getD {v? : Option Value} (h : ∀ v, v? = some v → v.Distinct) :
    (v?.getD .undefined).Distinct := by
  cases v? with
  | none => exact .undefined
  | some v => exact h v rfl

theorem distinct_characters (s : String) : ∀ v ∈ characters s, v.Distinct := by
  intro v hv
  obtain ⟨c, -, rfl⟩ := List.mem_map.1 hv
  exact .string c.toString

theorem readItem_distinct {items : List Value} (h : ∀ v ∈ items, v.Distinct) (key : String) :
    (readItem items key).Distinct := by
  rw [readItem]
  split
  · exact .number _
  · refine distinct_getD fun v hv => h v ?_
    obtain ⟨i, -, hi⟩ := Option.bind_eq_some_iff.1 hv
    exact List.mem_of_getElem? hi

/-- **Properties** of values with distinct keys. -/
theorem property_distinct {v : Value} (h : v.Distinct) (key : String) :
    Except.Ends (fun _ => True) Distinct (v.property key) := by
  cases h with
  | undefined | null => trivial
  | boolean | number => exact .undefined
  | string s => exact readItem_distinct (distinct_characters s) key
  | array h => exact readItem_distinct h key
  | object _ h =>
    exact distinct_getD fun v hv => h (key, v) (Dict.mem_of_find?_eq_some hv)

theorem indexed_distinct {items : List Value} (h : ∀ v ∈ items, v.Distinct) (start : Nat) :
    ∀ pair ∈ indexed start items, pair.1.Distinct ∧ pair.2.Distinct := by
  induction items generalizing start with
  | nil => exact fun _ hp => (nomatch hp)
  | cons v items ih =>
    obtain ⟨hv, hitems⟩ := List.forall_mem_cons.1 h
    exact List.forall_mem_cons.2 ⟨⟨.number _, hv⟩, ih hitems (start + 1)⟩

theorem entries?_distinct {v : Value} (h : v.Distinct) {pairs : List (Value × Value)}
    (hp : v.entries? = some pairs) : ∀ pair ∈ pairs, pair.1.Distinct ∧ pair.2.Distinct := by
  cases h with
  | undefined | null => cases hp
  | boolean | number =>
    obtain rfl := Option.some.inj hp
    exact fun _ hp => (nomatch hp)
  | string s =>
    obtain rfl := Option.some.inj hp
    exact indexed_distinct (distinct_characters s) 0
  | array h =>
    obtain rfl := Option.some.inj hp
    exact indexed_distinct h 0
  | object _ h =>
    obtain rfl := Option.some.inj hp
    intro pair hpair
    obtain ⟨entry, hentry, rfl⟩ := List.mem_map.1 hpair
    exact ⟨.string entry.1, h entry hentry⟩

end Value

/-! ## Functions and operators -/

namespace Builtin

theorem single_ends {vs : List Value} (h : ∀ v ∈ vs, v.Distinct) :
    Except.Ends (fun _ => True) Value.Distinct (single vs) := by
  match vs with
  | [v] => exact h v List.mem_cons_self
  | [] | _ :: _ :: _ => trivial

theorem rangeItems_distinct (start stop : Float) :
    Except.Ends (fun _ => True) Value.Distinct (rangeItems start stop) := by
  unfold rangeItems
  dsimp only
  split
  · trivial
  · split
    · trivial
    · refine .array fun v hv => ?_
      obtain ⟨i, -, rfl⟩ := List.mem_map.1 hv
      exact .number _

theorem apply_distinct (f : Builtin) {vs : List Value} (h : ∀ v ∈ vs, v.Distinct) :
    Except.Ends (fun _ => True) Value.Distinct (f.apply vs) := by
  have hsingle := single_ends h
  cases f with
  | len =>
    refine hsingle.bind fun v _ => ?_
    cases v.size? with
    | none => trivial
    | some n => exact .number _
  | upper | lower | trim | escape | str | json => exact hsingle.bind fun v _ => .string _
  | num => exact hsingle.bind fun v _ => .number _
  | join =>
    match vs with
    | [list] | [list, _] =>
      cases list with
      | array items => exact .string _
      | undefined | null | boolean | number | string | object => trivial
    | [] | _ :: _ :: _ :: _ => trivial
  | keys =>
    refine hsingle.bind fun v hv => ?_
    cases hp : v.entries? with
    | none => trivial
    | some pairs =>
      refine .array fun key hkey => ?_
      obtain ⟨pair, hpair, rfl⟩ := List.mem_map.1 hkey
      exact (Value.entries?_distinct hv hp pair hpair).1
  | values =>
    refine hsingle.bind fun v hv => ?_
    cases hp : v.entries? with
    | none => trivial
    | some pairs =>
      refine .array fun item hitem => ?_
      obtain ⟨pair, hpair, rfl⟩ := List.mem_map.1 hitem
      exact (Value.entries?_distinct hv hp pair hpair).2
  | range =>
    match vs with
    | [stop] => exact rangeItems_distinct 0 stop.toNumber
    | [start, stop] => exact rangeItems_distinct start.toNumber stop.toNumber
    | [] | _ :: _ :: _ :: _ => trivial

/-- **Calls** on values with distinct keys. -/
theorem call_distinct (function : String) {vs : List Value} (h : ∀ v ∈ vs, v.Distinct) :
    Except.Ends (fun _ => True) Value.Distinct (call function vs) := by
  rw [call]
  split
  · next f _ =>
    have hf := apply_distinct f h
    cases hr : f.apply vs with
    | error fault => trivial
    | ok v =>
      rw [hr] at hf
      exact hf
  · trivial

end Builtin

theorem BinaryOp.apply_distinct (op : BinaryOp) {a b : Value} (ha : a.Distinct) (hb : b.Distinct) :
    (op.apply a b).Distinct := by
  cases op with
  | addition =>
    change (if a.isTextual || b.isTextual then _ else _ : Value).Distinct
    split
    · exact .string _
    · exact .number _
  | subtraction | multiplication | division | modulo => exact .number _
  | logicalAnd | logicalOr =>
    rw [apply]
    split
    · assumption
    · assumption
  | equality | inequality | strictEquality | strictInequality => exact .boolean _
  | greaterThan | lessThan | greaterOrEqual | lessOrEqual => exact .boolean _

theorem UnaryOp.apply_distinct (op : UnaryOp) (a : Value) : (op.apply a).Distinct := by
  cases op with
  | negation => exact .number _
  | logicalNot => exact .boolean _

theorem Literal.value_distinct (l : Literal) : l.value.Distinct := by
  cases l with
  | number x => exact .number x
  | string s => exact .string s
  | boolean b => exact .boolean b
  | null => exact .null
  | undefined => exact .undefined

/-! ## Expressions -/

theorem Environment.Distinct.get? {env : Environment} (h : env.Distinct) {name : String} {v : Value}
    (hv : env.get? name = some v) : v.Distinct := by
  obtain ⟨scope, hs, hf⟩ := List.exists_of_findSome?_eq_some hv
  exact h scope hs (name, v) (Dict.mem_of_find?_eq_some hf)

variable {env : Environment}

mutual

/-- The values of expressions have distinct keys when those of the variables do. -/
theorem Expr.eval_distinct (henv : env.Distinct) : (e : Expr) →
    Except.Ends (fun _ => True) Value.Distinct (e.eval env)
  | .literal l => l.value_distinct
  | .array items => (evalItems_distinct henv items).bind fun _ h => .array h
  | .object entries => (evalEntries_distinct henv entries).bind fun _ h => Value.distinct_ofList h
  | .name name _ => by
    rw [Expr.eval]
    split
    · exact henv.get? ‹_›
    · trivial
  | .member object key => (object.eval_distinct henv).bind fun _ h => Value.property_distinct h key
  | .index object position =>
    (object.eval_distinct henv).bind fun _ h => (position.eval_distinct henv).bind fun key _ =>
      Value.property_distinct h key.display
  | .call function arguments _ =>
    (evalItems_distinct henv arguments).bind fun _ h => Builtin.call_distinct function h
  | .unary op operand => (operand.eval_distinct henv).bind fun a _ => op.apply_distinct a
  | .binary op left right => by
    have hright := right.eval_distinct henv
    rw [Expr.eval]
    refine (left.eval_distinct henv).bind fun a ha => ?_
    split
    · split
      · exact hright
      · exact ha
    · split
      · exact ha
      · exact hright
    · exact hright.bind fun b hb => BinaryOp.apply_distinct _ ha hb
  | .conditional condition yes no => by
    rw [Expr.eval]
    refine (condition.eval_distinct henv).bind fun v _ => ?_
    split
    · exact yes.eval_distinct henv
    · exact no.eval_distinct henv

theorem evalItems_distinct (henv : env.Distinct) : (es : List Expr) →
    Except.Ends (fun _ => True) (fun vs => ∀ v ∈ vs, v.Distinct) (evalItems env es)
  | [] => fun _ h => nomatch h
  | e :: es => (e.eval_distinct henv).bind fun _ hv =>
      (evalItems_distinct henv es).bind fun _ hvs => List.forall_mem_cons.2 ⟨hv, hvs⟩

theorem evalEntries_distinct (henv : env.Distinct) : (es : List (String × Expr)) →
    Except.Ends (fun _ => True) (fun entries => ∀ entry ∈ entries, entry.2.Distinct)
      (evalEntries env es)
  | [] => fun _ h => nomatch h
  | (_, e) :: es => (e.eval_distinct henv).bind fun _ hv =>
      (evalEntries_distinct henv es).bind fun _ hes => List.forall_mem_cons.2 ⟨hv, hes⟩

end

namespace Value

/-- **Keys are distinct.** However entries are inserted, an object has each of their keys once, in
the place of its first entry and with the value of its last one; no other key has a value, keys and
values stand in the same order, and there are as many entries as different keys. So an expression
has a value whose objects have distinct keys, at any depth, when those of the variables do. -/
theorem keys_distinct :
    (∀ (entries : List (String × Value)) (d : Dict Value), d = Dict.ofList entries →
      (Dict.keys d).Nodup ∧
      Dict.keys d = (entries.map Prod.fst).eraseDups ∧
      (∀ key, Dict.find? key d = entries.reverse.lookup key) ∧
      (Dict.keys d).map (Dict.find? · d) = (Dict.values d).map some ∧
      d = (Dict.keys d).zip (Dict.values d) ∧
      d.length = (entries.map Prod.fst).toFinset.card) ∧
    ∀ (env : Environment) (e : Expr) (v : Value), env.Distinct → e.eval env = .ok v →
      v.Distinct := by
  refine ⟨fun entries d hd => ?_, fun env e v henv he => ?_⟩
  · obtain rfl := hd
    have hnodup := Dict.nodup_keys_ofList entries
    have hzip : Dict.ofList entries =
        (Dict.keys (Dict.ofList entries)).zip (Dict.values (Dict.ofList entries)) :=
      List.zip_of_prod rfl rfl
    exact ⟨hnodup, Dict.keys_ofList entries, fun key => Dict.find?_ofList_eq_lookup key entries,
      Dict.map_find?_keys hnodup, hzip, Dict.length_ofList entries⟩
  · have hends := Expr.eval_distinct henv e
    rw [he] at hends
    exact hends

/-- A literal with the key `a` twice, the second time for an object of the environment. -/
theorem keys_distinct_rebuilding :
    (Environment.ofScope [("x", .object [("k", .null)])]).Distinct ∧
    (Expr.object [("a", .literal .null), ("b", .literal .null), ("a", .name "x" ⟨0, 1⟩)]).eval
      (Environment.ofScope [("x", .object [("k", .null)])]) =
        .ok (.object [("a", .object [("k", .null)]), ("b", .null)]) ∧
    (object [("a", .object [("k", .null)]), ("b", .null)]).Distinct := by
  have hx : (object [("k", .null)]).Distinct :=
    .object (by decide) (List.forall_mem_singleton.2 .null)
  have henv : (Environment.ofScope [("x", .object [("k", .null)])]).Distinct :=
    List.forall_mem_singleton.2 (List.forall_mem_singleton.2 hx)
  have heval : (Expr.object [("a", .literal .null), ("b", .literal .null),
      ("a", .name "x" ⟨0, 1⟩)]).eval (Environment.ofScope [("x", .object [("k", .null)])]) =
        .ok (.object [("a", .object [("k", .null)]), ("b", .null)]) := rfl
  exact ⟨henv, heval, keys_distinct.2 _ _ _ henv heval⟩

end Value
end Stencil
