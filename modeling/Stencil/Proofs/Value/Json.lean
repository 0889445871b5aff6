import Stencil.Proofs.Decimal.Whole
import Stencil.Proofs.Value.Distinct

/-!
# Values in JSON and back

JSON has no word for nothing at all and for numbers that are not finite, and integers have no
negative zero.

* `Value.jsonNormal` is what is left of a value: null for the first two, and zero for the third, at
  any depth.
* `Value.ofJson_toJson` says that nothing else is lost. Whole numbers come back from the integers
  that stand for them (`ofJson_numberToJson`), and objects from their entries, which are inserted
  one by one, because their keys are distinct (`Dict.ofList_eq_self`).
* What JSON values are converted to has distinct keys in any case (`Value.distinct_ofJson`), so a
  second conversion changes nothing more.
-/

namespace Stencil

namespace Value

/-! ## What JSON keeps -/

/-- What JSON keeps of a number. -/
def jsonNormalNumber (x : Float) : Value :=
  if x.isFinite then .number (if x == 0 then 0 else x) else .null

mutual

/-- What JSON keeps of a value. -/
def jsonNormal : Value → Value
  | .undefined | .null => .null
  | .boolean b => .boolean b
  | .number x => jsonNormalNumber x
  | .string s => .string s
  | .array items => .array (jsonNormalItems items)
  | .object entries => .object (jsonNormalEntries entries)

/-- The items of an array as JSON brings them back. -/
def jsonNormalItems : List Value → List Value
  | [] => []
  | v :: vs => jsonNormal v :: jsonNormalItems vs

/-- The entries of an object as JSON brings them back. -/
def jsonNormalEntries : List (String × Value) → List (String × Value)
  | [] => []
  | (k, v) :: rest => (k, jsonNormal v) :: jsonNormalEntries rest

end

theorem keys_jsonNormalEntries (entries : List (String × Value)) :
    Dict.keys (jsonNormalEntries entries) = Dict.keys entries := by
  induction entries with
  | nil => rfl
  | cons entry entries ih => exact congrArg (entry.1 :: ·) ih

theorem jsonNormalNumber_idem (x : Float) :
    (jsonNormalNumber x).jsonNormal = jsonNormalNumber x := by
  have hnumber (y : Float) : (number y).jsonNormal = jsonNormalNumber y := rfl
  unfold jsonNormalNumber
  by_cases hfinite : x.isFinite = true
  · rw [if_pos hfinite, hnumber, jsonNormalNumber]
    by_cases hzero : (x == 0) = true
    · rw [if_pos hzero]
      rfl
    · rw [if_neg hzero, if_pos hfinite, if_neg hzero]
  · rw [if_neg hfinite]
    rfl

mutual

theorem jsonNormal_idem : (v : Value) → v.jsonNormal.jsonNormal = v.jsonNormal
  | .undefined | .null | .boolean _ | .string _ => rfl
  | .number x => jsonNormalNumber_idem x
  | .array items => congrArg array (jsonNormalItems_idem items)
  | .object entries => congrArg object (jsonNormalEntries_idem entries)

theorem jsonNormalItems_idem : (vs : List Value) →
    jsonNormalItems (jsonNormalItems vs) = jsonNormalItems vs
  | [] => rfl
  | v :: vs => congrArg₂ List.cons (jsonNormal_idem v) (jsonNormalItems_idem vs)

theorem jsonNormalEntries_idem : (entries : List (String × Value)) →
    jsonNormalEntries (jsonNormalEntries entries) = jsonNormalEntries entries
  | [] => rfl
  | (k, v) :: rest =>
    congrArg₂ List.cons (congrArg (k, ·) (jsonNormal_idem v)) (jsonNormalEntries_idem rest)

end

/-! ## There and back -/

theorem ofJson_numberToJson (x : Float) : ofJson (numberToJson x) = jsonNormalNumber x := by
  have hiff : (isWhole x && decide (x.abs < 9007199254740992)) = true ↔
      isWhole x = true ∧ x.abs < 9007199254740992 := by
    rw [Bool.and_eq_true, decide_eq_true_iff]
  rw [numberToJson, jsonNormalNumber]
  by_cases hw : (isWhole x && decide (x.abs < 9007199254740992)) = true
  · obtain ⟨hwhole, hlt⟩ := hiff.1 hw
    have hfinite : x.isFinite = true := (Bool.and_eq_true_iff.1 hwhole).1
    rw [if_pos hw, if_pos hfinite, ofJson, floatOfInt_wholePart hwhole hlt]
  · rw [if_neg hw]
    by_cases hfinite : x.isFinite = true
    · rw [if_pos hfinite, if_pos hfinite, ofJson, beq_zero_of_not_whole hfinite (mt hiff.2 hw)]
      rfl
    · rw [if_neg hfinite, if_neg hfinite, ofJson]

mutual

theorem ofJson_toJson_eq : (v : Value) → v.Distinct → ofJson v.toJson = v.jsonNormal
  | .undefined, _ | .null, _ | .boolean _, _ | .string _, _ => rfl
  | .number x, _ => ofJson_numberToJson x
  | .array items, .array h => congrArg array (itemsOfJson_itemsToJson items h)
  | .object entries, .object hk h => by
    have hkeys : (Dict.keys (jsonNormalEntries entries)).Nodup := by
      rwa [keys_jsonNormalEntries]
    rw [toJson, ofJson, entriesOfJson_entriesToJson entries h, Dict.ofList_eq_self hkeys,
      jsonNormal]

theorem itemsOfJson_itemsToJson : (vs : List Value) → (∀ v ∈ vs, v.Distinct) →
    itemsOfJson (itemsToJson vs) = jsonNormalItems vs
  | [], _ => rfl
  | v :: vs, h => by
    obtain ⟨hv, hvs⟩ := List.forall_mem_cons.1 h
    rw [itemsToJson, itemsOfJson, ofJson_toJson_eq v hv, itemsOfJson_itemsToJson vs hvs,
      jsonNormalItems]

theorem entriesOfJson_entriesToJson : (entries : List (String × Value)) →
    (∀ entry ∈ entries, entry.2.Distinct) →
      entriesOfJson (entriesToJson entries) = jsonNormalEntries entries
  | [], _ => rfl
  | (k, v) :: rest, h => by
    obtain ⟨hv, hrest⟩ := List.forall_mem_cons.1 h
    rw [entriesToJson, entriesOfJson, ofJson_toJson_eq v hv, entriesOfJson_entriesToJson rest hrest,
      jsonNormalEntries]

end

mutual

/-- The objects that come out of JSON have distinct keys. -/
theorem distinct_ofJson : (j : Json) → (ofJson j).Distinct
  | .null => .null
  | .boolean b => .boolean b
  | .integer _ => .number _
  | .decimal x => .number x
  | .string s => .string s
  | .array items => .array (distinct_itemsOfJson items)
  | .object members => distinct_ofList (distinct_entriesOfJson members)

theorem distinct_itemsOfJson : (js : List Json) → ∀ v ∈ itemsOfJson js, v.Distinct
  | [] => fun _ h => nomatch h
  | j :: js => List.forall_mem_cons.2 ⟨distinct_ofJson j, distinct_itemsOfJson js⟩

theorem distinct_entriesOfJson : (members : List (String × Json)) →
    ∀ entry ∈ entriesOfJson members, entry.2.Distinct
  | [] => fun _ h => nomatch h
  | (_, j) :: rest => List.forall_mem_cons.2 ⟨distinct_ofJson j, distinct_entriesOfJson rest⟩

end

/-- **Through JSON and back** a value whose objects have distinct keys loses only what JSON has no
word for: nothing at all and numbers that are not finite become null, and negative zero becomes
zero. A second time nothing more is lost. -/
theorem ofJson_toJson {v : Value} (h : v.Distinct) :
    ofJson v.toJson = v.jsonNormal ∧ ofJson (ofJson v.toJson).toJson = ofJson v.toJson := by
  have hv := ofJson_toJson_eq v h
  refine ⟨hv, ?_⟩
  calc ofJson (ofJson v.toJson).toJson
      = (ofJson v.toJson).jsonNormal := ofJson_toJson_eq _ (distinct_ofJson v.toJson)
    _ = v.jsonNormal.jsonNormal := by rw [hv]
    _ = v.jsonNormal := jsonNormal_idem v
    _ = ofJson v.toJson := hv.symm

/-- A value with all that JSON has no word for, in an object in an array. -/
def lossy : Value :=
  .array [.number (-0.0), .object [("b", .undefined), ("a", .number (1.0 / 0.0))], .number 0.5]

theorem ofJson_toJson_lossy : lossy.Distinct ∧
    ofJson lossy.toJson =
      .array [.number 0, .object [("b", .null), ("a", .null)], .number 0.5] ∧
    ofJson (ofJson lossy.toJson).toJson = ofJson lossy.toJson := by
  have h : lossy.Distinct := by
    refine .array (List.forall_mem_cons.2 ⟨.number _, List.forall_mem_cons.2 ⟨?_, ?_⟩⟩)
    · exact .object (by decide) (List.forall_mem_cons.2 ⟨.undefined,
        List.forall_mem_singleton.2 (.number _)⟩)
    · exact List.forall_mem_singleton.2 (.number _)
  have hnormal : lossy.jsonNormal =
      .array [.number 0, .object [("b", .null), ("a", .null)], .number 0.5] := by
    rfl
  obtain ⟨hback, htwice⟩ := ofJson_toJson h
  exact ⟨h, hback.trans hnormal, htwice⟩

end Value
end Stencil
