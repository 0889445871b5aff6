import Stencil.Program.Run
import Stencil.Proofs.Value.Entries
import Mathlib

/-!
# The text of a value

A value has one text, however it is asked for: by printing, by `str`, by adding an empty string to
it, or as an item of a list that is joined, where null and nothing are left empty.

* `Value.itemText` is the text of an item in a list. `Value.display_array`: an array shows the texts
  of its items with commas between them, so that it shows what `join` makes of it.
* `Value.texts_agree` is the whole of it, for the value of any expression.
-/

namespace Stencil

namespace Value

/-- The text of an item in a list: that of the value, and none for null and nothing. -/
def itemText (v : Value) : String := if v.isNullish then "" else v.display

/-- The comma loop, from any item on. -/
theorem displayItems_cons (shown : String) (first : Bool) (v : Value) (vs : List Value) :
    displayItems shown first (v :: vs) =
      (if first then shown else shown ++ ",") ++ ",".intercalate ((v :: vs).map itemText) := by
  have hitem (out : String) :
      (if v.isNullish then out else out ++ v.display) = out ++ v.itemText := by
    rw [itemText]
    split
    · exact String.append_empty.symm
    · rfl
  rw [displayItems]
  simp only [hitem]
  cases vs with
  | nil => rw [displayItems, List.map_singleton, String.intercalate_singleton]
  | cons w ws =>
    rw [displayItems_cons _ false w ws]
    simp only [List.map_cons, String.intercalate_cons_cons, Bool.false_eq_true, if_false,
      String.append_assoc]

/-- **An array shows its items** with commas between them. -/
theorem display_array (items : List Value) :
    (array items).display = ",".intercalate (items.map itemText) := by
  rw [display]
  cases items with
  | nil => rfl
  | cons v vs => rw [displayItems_cons, if_pos rfl, String.empty_append]

/-- Adding a string joins the texts. -/
theorem add_string (v : Value) (s : String) : v.add (.string s) = .string (v.display ++ s) :=
  if_pos (Bool.or_true _)

theorem string_add (s : String) (v : Value) : (string s).add v = .string (s ++ v.display) :=
  if_pos (Bool.true_or _)

end Value

namespace Builtin

theorem call_str (v : Value) : call "str" [v] = .ok (.string v.display) :=
  call_of_apply (f := .str) rfl rfl

theorem call_join (items : List Value) (separator : Value) :
    call "join" [.array items, separator] =
      .ok (.string (separator.display.intercalate (items.map Value.itemText))) :=
  call_of_apply (f := .join) rfl rfl

/-- Without a separator there are commas. -/
theorem call_join_alone (items : List Value) :
    call "join" [.array items] = .ok (.string (",".intercalate (items.map Value.itemText))) :=
  call_of_apply (f := .join) rfl rfl

end Builtin

section Eval

variable {env : Environment} {e : Expr} {v : Value}

theorem evalItems_cons {es : List Expr} {vs : List Value} (he : e.eval env = .ok v)
    (hes : evalItems env es = .ok vs) : evalItems env (e :: es) = .ok (v :: vs) := by
  rw [evalItems, he, hes]
  rfl

theorem Expr.eval_call {function : String} {arguments : List Expr} {vs : List Value} {span : Span}
    (h : evalItems env arguments = .ok vs) :
    (Expr.call function arguments span).eval env = Builtin.call function vs := by
  rw [Expr.eval, h]
  rfl

theorem Expr.eval_addition {e' : Expr} {v' : Value} (he : e.eval env = .ok v)
    (he' : e'.eval env = .ok v') : (Expr.binary .addition e e').eval env = .ok (v.add v') := by
  rw [Expr.eval, he, he']
  rfl

end Eval

/-- **All texts of a value agree.** The text that printing an expression appends is also what `str`
gives for it, what adding an empty string in front of it or behind it gives, and what stands for its
value wherever it is an item of a list that is joined; only there null and nothing are left empty.
An array shows the texts of its items with single commas between them, and `join` gives the same
text, with the comma as its separator or without one. -/
theorem Value.texts_agree {m : Machine} {e : Expr} {v : Value} (h : e.eval m.env = .ok v)
    (site : Site) (span : Span) :
    (Op.print e site).run.run m = (.ok (), { m with output := m.output ++ v.display }) ∧
    (Expr.call "str" [e] span).eval m.env = .ok (.string v.display) ∧
    (Expr.binary .addition (.literal (.string "")) e).eval m.env = .ok (.string v.display) ∧
    (Expr.binary .addition e (.literal (.string ""))).eval m.env = .ok (.string v.display) ∧
    (∀ separator before after,
      Builtin.call "join" [.array (before ++ v :: after), separator] =
        .ok (.string (separator.display.intercalate (before.map itemText ++
          (if v.isNullish then "" else v.display) :: after.map itemText)))) ∧
    ∀ items, v = .array items →
      v.display = ",".intercalate
        (items.map fun item => if item.isNullish then "" else item.display) ∧
      (Expr.call "join" [e] span).eval m.env = .ok (.string v.display) ∧
      (Expr.call "join" [e, .literal (.string ",")] span).eval m.env = .ok (.string v.display) := by
  have hempty : (Expr.literal (.string "")).eval m.env = .ok (.string "") := rfl
  have hcomma : evalItems m.env [.literal (.string ",")] = .ok [.string ","] := rfl
  have hone : evalItems m.env [e] = .ok [v] := evalItems_cons h rfl
  refine ⟨?_, ?_, ?_, ?_, fun separator before after => ?_, ?_⟩
  · rw [Op.run, Run.run_bind_ok (Run.run_value_ok site h)]
    rfl
  · rw [Expr.eval_call hone, Builtin.call_str]
  · rw [Expr.eval_addition hempty h, string_add, String.empty_append]
  · rw [Expr.eval_addition h hempty, add_string, String.append_empty]
  · rw [Builtin.call_join, List.map_append, List.map_cons]
    rfl
  · rintro items rfl
    have htext := display_array items
    refine ⟨htext, ?_, ?_⟩
    · rw [Expr.eval_call hone, Builtin.call_join_alone, htext]
    · rw [Expr.eval_call (evalItems_cons h hcomma), Builtin.call_join, htext]
      rfl

/-- An array with null, nothing, an array and an object inside. -/
def Value.nestedItems : Value :=
  .array [.null, .array [.string "a", .undefined], .object [("k", .null)]]

/-- Null and nothing are left empty in arrays, at any depth, and objects are shown as JSON. -/
theorem Value.texts_agree_nested :
    (Op.print (.name "x" ⟨0, 1⟩) ⟨none, .print, "x", ⟨0, 11⟩⟩).run.run
        ⟨Environment.ofScope [("x", nestedItems)], #[], "> "⟩ =
      (.ok (), ⟨Environment.ofScope [("x", nestedItems)], #[], "> ,a,,\x7b\"k\":null\x7d"⟩) ∧
    (Expr.call "join" [.name "x" ⟨0, 1⟩] ⟨0, 7⟩).eval
        (Environment.ofScope [("x", nestedItems)]) =
      .ok (.string ",a,,\x7b\"k\":null\x7d") := by
  have hx : (Expr.name "x" ⟨0, 1⟩).eval (Environment.ofScope [("x", nestedItems)]) =
      .ok nestedItems := rfl
  have htext : nestedItems.display = ",a,,\x7b\"k\":null\x7d" := by cbv
  obtain ⟨hprint, -, -, -, -, hjoin⟩ := texts_agree (m := ⟨_, #[], "> "⟩) hx
    ⟨none, .print, "x", ⟨0, 11⟩⟩ ⟨0, 7⟩
  rw [htext] at hprint hjoin
  exact ⟨hprint, (hjoin _ rfl).2.1⟩

end Stencil
