import Stencil.Proofs.Decimal.Whole
import Stencil.Proofs.Program.RoundNumber
import Stencil.Proofs.Value.Distinct

/-!
# The entries of a collection

Arrays, strings and objects are gone through entry by entry. The entries are in agreement with all
that can be asked of such a value: how long it is, what its keys and values are, what is read at a
key, and which rounds a loop makes.

* `Value.index?_eq_some_iff` says that a text spells an index in one way only, so that an item of a
  sequence is read by one text (`Value.readItem_toString`, `Value.readItem_of_ne`).
* `Run.loop_keys`, `Run.loop_values` and `EachLoop.run_op_eq_forM` are the rounds of the loops, in
  the order of the entries.
* `Value.IsCollection.entries_agree` is the result for all collections.
-/

namespace Stencil

namespace Decimal

theorem digitsValue_digitChars (n : Nat) : digitsValue (digitChars n) = n := by
  have hvalue : digitsValue (digitChars n) = Nat.ofDigitChars 10 (digitChars n) 0 := by
    simp only [digitsValue, Nat.ofDigitChars_eq_foldl, Nat.mul_comm]
  rw [hvalue]
  exact Nat.ofDigitChars_ten_toDigits

theorem toList_toString (n : Nat) : (toString n).toList = digitChars n := Nat.toList_repr

end Decimal

namespace Value

/-! ## Texts of indices -/

theorem index?_toString (i : Nat) : index? (toString i) = some i := by
  have hempty : (Decimal.digitChars i).isEmpty = false :=
    List.isEmpty_eq_false_iff.2 Nat.toDigits_ne_nil
  have hdigits : (Decimal.digitChars i).all Char.isDigit = true := List.all_eq_true.2 fun c hc =>
    Nat.isDigit_of_mem_toDigits (by decide) (by decide) hc
  simp only [index?, Decimal.toList_toString, hempty, hdigits, Decimal.digitsValue_digitChars]
  rfl

/-- **An index is spelled in one way**, by its decimal digits. -/
theorem index?_eq_some_iff {key : String} {i : Nat} : index? key = some i ↔ key = toString i := by
  constructor
  · intro h
    unfold index? at h
    dsimp only at h
    split at h
    · cases h
    · split at h
      · next hdigits =>
        obtain rfl := Option.some.inj h
        apply String.toList_injective
        rw [Decimal.toList_toString, hdigits]
      · cases h
  · rintro rfl
    exact index?_toString i

theorem toString_ne_length (i : Nat) : toString i ≠ "length" := by
  intro h
  have hindex := index?_toString i
  rw [h] at hindex
  cases hindex

variable {items : List Value}

theorem readItem_toString {i : Nat} (hi : i < items.length) :
    readItem items (toString i) = items[i] := by
  rw [readItem, if_neg (toString_ne_length i), index?_toString, Option.bind_some,
    List.getElem?_eq_getElem hi]
  rfl

/-- A text that spells no index below the length reads nothing. -/
theorem readItem_of_ne {key : String} (hkey : key ≠ "length")
    (h : ∀ i < items.length, key ≠ toString i) : readItem items key = .undefined := by
  rw [readItem, if_neg hkey]
  cases hindex : index? key with
  | none => rfl
  | some i =>
    have hi : items.length ≤ i := not_lt.1 fun hi => h i hi (index?_eq_some_iff.1 hindex)
    rw [Option.bind_some, List.getElem?_eq_none hi]
    rfl

/-- The text of the number that stands for an index is the text that spells the index. -/
theorem display_ofNat {n : Nat} (hlt : n < 2 ^ 53) : (ofNat n).display = toString n := by
  apply String.toList_injective
  rw [ofNat, display, displayNumber_ofNat hlt, String.toList_ofList, Decimal.toList_toString]

/-! ## Sequences -/

theorem map_snd_indexed (start : Nat) (items : List Value) :
    (indexed start items).map Prod.snd = items := by
  induction items generalizing start with
  | nil => rfl
  | cons v items ih => exact congrArg (v :: ·) (ih (start + 1))

theorem length_indexed (start : Nat) (items : List Value) :
    (indexed start items).length = items.length := by
  have hlength := congrArg List.length (map_snd_indexed start items)
  rwa [List.length_map] at hlength

theorem getElem?_indexed (start : Nat) (items : List Value) (i : Nat) :
    (indexed start items)[i]? = items[i]?.map fun v => (ofNat (start + i), v) := by
  induction items generalizing start i with
  | nil => rfl
  | cons v items ih =>
    cases i with
    | zero => rfl
    | succ i =>
      rw [indexed, List.getElem?_cons_succ, List.getElem?_cons_succ, ih, Nat.add_right_comm]
      rfl

/-- The value is an array of these items, or a string of these characters. -/
inductive HasItems : Value → List Value → Prop
  | array (items : List Value) : HasItems (.array items) items
  | string (s : String) : HasItems (.string s) (characters s)

namespace HasItems

variable {v : Value}

theorem entries? (h : v.HasItems items) : v.entries? = some (indexed 0 items) := by
  cases h <;> rfl

theorem size? (h : v.HasItems items) : v.size? = some items.length := by
  cases h with
  | array items => rfl
  | string s =>
    rw [characters, List.length_map, String.length_toList]
    rfl

theorem property (h : v.HasItems items) (key : String) :
    v.property key = .ok (readItem items key) := by
  cases h <;> rfl

/-- The entry at an index has the index for its key, and the digits of the index read its value. -/
theorem property_toString (h : v.HasItems items) {i : Nat} {k x : Value}
    (hi : (indexed 0 items)[i]? = some (k, x)) :
    k = ofNat i ∧ v.property (toString i) = .ok x := by
  rw [getElem?_indexed, Nat.zero_add, Option.map_eq_some_iff] at hi
  obtain ⟨_, hx, hpair⟩ := hi
  obtain ⟨rfl, rfl⟩ := Prod.mk.inj hpair
  obtain ⟨hi, rfl⟩ := List.getElem?_eq_some_iff.1 hx
  exact ⟨rfl, by rw [h.property, readItem_toString hi]⟩

/-- The key of an entry reads its value. -/
theorem property_of_mem (h : v.HasItems items) (hlt : items.length < 2 ^ 53) {k x : Value}
    (hp : (k, x) ∈ indexed 0 items) : v.property k.display = .ok x := by
  obtain ⟨i, hi, hget⟩ := List.mem_iff_getElem.1 hp
  rw [length_indexed] at hi
  obtain ⟨rfl, hx⟩ := h.property_toString (List.getElem?_eq_some_iff.2 ⟨_, hget⟩)
  rw [display_ofNat (hi.trans hlt), hx]

end HasItems

/-! ## Collections -/

/-- The value is an array, a string, or an object whose keys are distinct. -/
inductive IsCollection : Value → Prop
  | sequence {v : Value} {items : List Value} (h : v.HasItems items) : IsCollection v
  | object {entries : List (String × Value)} (h : (Dict.keys entries).Nodup) :
    IsCollection (.object entries)

end Value

theorem Dict.find?_of_mem {α : Type*} {d : Dict α} (h : (keys d).Nodup) {key : String} {v : α}
    (hm : (key, v) ∈ d) : find? key d = some v := by
  induction d with
  | nil => cases hm
  | cons entry d ih =>
    obtain ⟨k, w⟩ := entry
    obtain ⟨hk, hd⟩ := List.nodup_cons.1 h
    rw [find?]
    rcases List.mem_cons.1 hm with hm | hm
    · obtain ⟨rfl, rfl⟩ := Prod.mk.inj hm
      exact if_pos rfl
    · have hkey : key ∈ keys d := List.mem_map_of_mem (f := Prod.fst) hm
      rw [if_neg (ne_of_mem_of_not_mem hkey hk).symm, ih hd hm]

namespace Value.IsCollection

variable {v : Value}

/-- As many entries are listed as are counted. -/
theorem exists_pairs (h : v.IsCollection) :
    ∃ pairs, v.entries? = some pairs ∧ v.size? = some pairs.length := by
  cases h with
  | sequence h =>
    refine ⟨_, h.entries?, ?_⟩
    rw [h.size?, length_indexed]
  | object =>
    refine ⟨_, rfl, ?_⟩
    rw [List.length_map]
    rfl

theorem property_of_mem (h : v.IsCollection) {pairs : List (Value × Value)}
    (hp : v.entries? = some pairs) (hlt : pairs.length < 2 ^ 53) {k x : Value}
    (hm : (k, x) ∈ pairs) : v.property k.display = .ok x := by
  cases h with
  | sequence h =>
    obtain rfl := Option.some.inj (h.entries?.symm.trans hp)
    rw [length_indexed] at hlt
    exact h.property_of_mem hlt hm
  | object h =>
    obtain rfl := Option.some.inj hp
    obtain ⟨⟨key, value⟩, hentry, hpair⟩ := List.mem_map.1 hm
    obtain ⟨rfl, rfl⟩ := Prod.mk.inj hpair
    rw [display, property, Dict.find?_of_mem h hentry]
    rfl

end Value.IsCollection

/-! ## Calls and reads -/

namespace Builtin

variable {v : Value}

theorem call_of_apply {function : String} {f : Builtin} {vs : List Value}
    (hf : ofName? function = some f) (h : f.apply vs = .ok v) : call function vs = .ok v := by
  rw [call, hf]
  change (f.apply vs).mapError _ = _
  rw [h]
  rfl

theorem call_len {n : Nat} (h : v.size? = some n) : call "len" [v] = .ok (.ofNat n) := by
  refine call_of_apply (f := .len) rfl ?_
  simp only [apply, single, bind, Except.bind, h]
  rfl

theorem call_keys {pairs : List (Value × Value)} (h : v.entries? = some pairs) :
    call "keys" [v] = .ok (.array (pairs.map Prod.fst)) := by
  refine call_of_apply (f := .keys) rfl ?_
  simp only [apply, single, bind, Except.bind, h]
  rfl

theorem call_values {pairs : List (Value × Value)} (h : v.entries? = some pairs) :
    call "values" [v] = .ok (.array (pairs.map Prod.snd)) := by
  refine call_of_apply (f := .values) rfl ?_
  simp only [apply, single, bind, Except.bind, h]
  rfl

end Builtin

theorem Expr.eval_index {env : Environment} {target position : Expr} {v k : Value}
    (ht : target.eval env = .ok v) (hp : position.eval env = .ok k) :
    (Expr.index target position).eval env = v.property k.display := by
  rw [Expr.eval, ht]
  change (position.eval env >>= fun key => v.property key.display) = _
  rw [hp]
  rfl

/-! ## Loops -/

namespace Run

variable {m : Machine} {v : Value} {pairs : List (Value × Value)}

theorem forEach_eq_forM (round : Nat → Value → Value → Run Unit) (start : Nat)
    (pairs : List (Value × Value)) :
    forEach round start pairs =
      forM (pairs.zipIdx start) fun p => round p.2 p.1.1 p.1.2 := by
  induction pairs generalizing start with
  | nil => rfl
  | cons pair pairs ih =>
    rw [forEach, ih]
    rfl

/-- The numbers of the rounds make no difference to rounds that do not ask for them. -/
theorem forEach_unnumbered (round : Value × Value → Run Unit) (pairs : List (Value × Value)) :
    forEach (fun _ k x => round (k, x)) 0 pairs = forM pairs round := by
  rw [forEach_eq_forM]
  conv_rhs => rw [← List.zipIdx_map_fst 0 pairs, List.forM_map]

theorem run_entries (site : Site) (hp : v.entries = .ok pairs) :
    (entries site v).run m = (.ok pairs, m) := by
  rw [entries, hp]
  rfl

theorem run_value_ok (site : Site) {e : Expr} (hv : e.eval m.env = .ok v) :
    (value site e).run m = (.ok v, m) := by
  rw [run_value, hv]

/-- A loop over keys goes through those of the entries, as texts. -/
theorem loop_keys (site : Site) (binding : String) {source : Expr} (body : Run Unit)
    (hv : source.eval m.env = .ok v) (hp : v.entries = .ok pairs) :
    (loop site (.keys binding source) body).run m =
      (forM (pairs.map Prod.fst) fun k => do
        declare binding (.string k.display)
        body : Run Unit).run m := by
  have hnullish : v.isNullish = false := by
    cases v with
    | undefined | null => cases hp
    | boolean | number | string | array | object => rfl
  have hloop : loop site (.keys binding source) body = (do
      let collection ← value site source
      if collection.isNullish then return
      forEach (fun _ k _ => do
        declare binding (.string k.display)
        body) 0 (← entries site collection)) := rfl
  rw [hloop, run_bind_ok (run_value_ok site hv), hnullish, List.forM_map, ← forEach_unnumbered]
  exact run_bind_ok (run_entries site hp)

/-- A loop over values goes through those of the entries. -/
theorem loop_values (site : Site) (binding : String) {source : Expr} (body : Run Unit)
    (hv : source.eval m.env = .ok v) (hp : v.entries = .ok pairs) :
    (loop site (.values binding source) body).run m =
      (forM (pairs.map Prod.snd) fun x => do
        declare binding x
        body : Run Unit).run m := by
  have hloop : loop site (.values binding source) body = (do
      let collection ← value site source
      forEach (fun _ _ x => do
        declare binding x
        body) 0 (← entries site collection)) := rfl
  rw [hloop, run_bind_ok (run_value_ok site hv), List.forM_map, ← forEach_unnumbered]
  exact run_bind_ok (run_entries site hp)

end Run

/-- An `each` goes through the entries, and numbers the rounds from nought. -/
theorem EachLoop.run_op_eq_forM {l : EachLoop} {m : Machine} {v : Value}
    {pairs : List (Value × Value)} (hv : l.source.eval m.env = .ok v)
    (hp : v.entries = .ok pairs) :
    l.op.run.run m = l.closed
      ((forM pairs.zipIdx fun p => l.round p.2 p.1.1 p.1.2 : Run Unit).run (l.opened m)) := by
  rw [l.run_op hv hp, Run.forEach_eq_forM]

/-- **Entries, keys and lengths agree.** An array, a string, or an object with distinct keys has
entries. There are as many of them as `len` says; `keys` and `values` are their two sides, and the
loops over keys, over values and over both go through them in the same order. Reading the value at
the key of an entry gives the value of the entry. In an array or a string a text other than
`length` and the decimal digits of an index below the length reads nothing, so that no item has two
names. -/
theorem Value.IsCollection.entries_agree {v : Value} (hv : v.IsCollection) :
    ∃ pairs, v.entries = .ok pairs ∧
      Builtin.call "len" [v] = .ok (.ofNat pairs.length) ∧
      Builtin.call "keys" [v] = .ok (.array (pairs.map Prod.fst)) ∧
      Builtin.call "values" [v] = .ok (.array (pairs.map Prod.snd)) ∧
      (∀ members, v = .object members →
        pairs = members.map fun member => (.string member.1, member.2)) ∧
      (∀ items, v.HasItems items →
        pairs.map Prod.snd = items ∧
        v.property "length" = .ok (.ofNat pairs.length) ∧
        (∀ (i : Nat) (k x : Value), pairs[i]? = some (k, x) →
          k = .ofNat i ∧ v.property (toString i) = .ok x) ∧
        ∀ key, key ≠ "length" → (∀ i < pairs.length, key ≠ toString i) →
          v.property key = .ok .undefined) ∧
      (pairs.length < 2 ^ 53 → ∀ k x, (k, x) ∈ pairs → ∀ env (target position : Expr),
        target.eval env = .ok v → position.eval env = .ok k →
          (Expr.index target position).eval env = .ok x) ∧
      (∀ m site binding source (body : Run Unit), source.eval m.env = .ok v →
        (Run.loop site (.keys binding source) body).run m =
          (forM (pairs.map Prod.fst) fun k => do
            Run.declare binding (.string k.display)
            body : Run Unit).run m ∧
        (Run.loop site (.values binding source) body).run m =
          (forM (pairs.map Prod.snd) fun x => do
            Run.declare binding x
            body : Run Unit).run m) ∧
      ∀ (m : Machine) (l : EachLoop), l.source.eval m.env = .ok v →
        l.op.run.run m = l.closed
          ((forM pairs.zipIdx fun p => l.round p.2 p.1.1 p.1.2 : Run Unit).run (l.opened m)) := by
  obtain ⟨pairs, hpairs, hsize⟩ := hv.exists_pairs
  have hentries : v.entries = .ok pairs := by rw [entries, hpairs]
  refine ⟨pairs, hentries, Builtin.call_len hsize, Builtin.call_keys hpairs,
    Builtin.call_values hpairs, fun members hmembers => ?_, fun items hitems => ?_,
    fun hlt k x hm env target position ht hp => ?_, fun m site binding source body hsource => ?_,
    fun m l hsource => EachLoop.run_op_eq_forM hsource hentries⟩
  · obtain rfl := hmembers
    exact (Option.some.inj hpairs).symm
  · obtain rfl := Option.some.inj (hitems.entries?.symm.trans hpairs)
    have hlength := length_indexed 0 items
    refine ⟨map_snd_indexed 0 items, ?_, fun i k x hi => hitems.property_toString hi,
      fun key hkey hne => ?_⟩
    · rw [hitems.property, hlength]
      rfl
    · rw [hitems.property, readItem_of_ne hkey (hlength ▸ hne)]
  · rw [Expr.eval_index ht hp, hv.property_of_mem hpairs hlt hm]
  · exact ⟨Run.loop_keys site binding body hsource hentries,
      Run.loop_values site binding body hsource hentries⟩

/-- The sign `€` takes three bytes but is one item, and `01` does not name it. -/
theorem Value.IsCollection.entries_agree_euro :
    (Value.string "1€").IsCollection ∧
      Builtin.call "len" [.string "1€"] = .ok (.ofNat 2) ∧
      (Expr.index (.literal (.string "1€")) (.literal (.number (Float.ofNat 1)))).eval ⟨[], []⟩ =
        .ok (.string "€") ∧
      (Value.string "1€").property "01" = .ok .undefined := by
  have hv : (Value.string "1€").IsCollection := .sequence (.string "1€")
  obtain ⟨pairs, hpairs, hlen, -, -, -, hitems, hread, -⟩ := hv.entries_agree
  obtain rfl := Except.ok.inj hpairs
  refine ⟨hv, hlen, ?_, ?_⟩
  · refine hread (by decide) (.ofNat 1) (.string "€") ?_ _ _ _ rfl rfl
    exact .tail _ (.head _)
  · exact (hitems _ (.string "1€")).2.2.2 "01" (by decide) (by decide)

end Stencil
