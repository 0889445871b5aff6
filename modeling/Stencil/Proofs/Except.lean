/-!
# Results that may be errors

A computation in `Except` that gives a value has gone through all its steps. `bind_eq_ok_iff` takes
the steps apart, and `foldlM_induction` goes through those of a fold. A fold that fails does so at
one of them (`exists_of_foldlM_eq_error`). `Ends` says what holds of the error or of the value, and
goes through the steps one after the other. `SameUnless` compares two computations, step by step,
of which the first one may stop early with certain errors.
-/

namespace Stencil.Except

variable {ε α β : Type}

theorem bind_eq_ok_iff {x : Except ε α} {f : α → Except ε β} {b : β} :
    x >>= f = .ok b ↔ ∃ a, x = .ok a ∧ f a = .ok b := by
  cases x with
  | error e => exact ⟨fun h => (nomatch h), fun ⟨_, h, _⟩ => (nomatch h)⟩
  | ok a => exact ⟨fun h => ⟨a, rfl, h⟩, fun ⟨_, ha, hb⟩ => by cases ha; exact hb⟩

theorem map_eq_ok_iff {x : Except ε α} {f : α → β} {b : β} :
    x.map f = .ok b ↔ ∃ a, x = .ok a ∧ f a = b := by
  cases x with
  | error e => exact ⟨fun h => (nomatch h), fun ⟨_, h, _⟩ => (nomatch h)⟩
  | ok a =>
    refine ⟨fun h => ⟨a, rfl, Except.ok.inj h⟩, ?_⟩
    rintro ⟨_, ⟨⟩, rfl⟩
    rfl

/-- What every step of a fold keeps holds at its end. `motive` speaks about the elements that are
left and the state that they are taken in. -/
theorem foldlM_induction {σ : Type} {f : σ → α → Except ε σ} {motive : List α → σ → Prop}
    (step : ∀ {x xs s t}, motive (x :: xs) s → f s x = .ok t → motive xs t) :
    ∀ {xs : List α} {s t : σ}, motive xs s → xs.foldlM f s = .ok t → motive [] t
  | [], _, _, hs, h => by cases h; exact hs
  | _ :: _, _, _, hs, h => by
    rw [List.foldlM_cons, bind_eq_ok_iff] at h
    obtain ⟨u, hu, h⟩ := h
    exact foldlM_induction step (step hs hu) h

/-- A fold that fails has gone through the elements in front of the one that it fails at. -/
theorem exists_of_foldlM_eq_error {σ : Type} {f : σ → α → Except ε σ} {e : ε} :
    ∀ {xs : List α} {s : σ}, xs.foldlM f s = .error e →
      ∃ before x rest t, xs = before ++ x :: rest ∧ before.foldlM f s = .ok t ∧ f t x = .error e
  | [], _, h => nomatch h
  | x :: xs, s, h => by
    rw [List.foldlM_cons] at h
    cases hx : f s x with
    | error e' =>
      rw [hx] at h
      obtain rfl := Except.error.inj h
      exact ⟨[], x, xs, s, rfl, rfl, hx⟩
    | ok u =>
      rw [hx] at h
      obtain ⟨before, y, rest, t, rfl, ht, hy⟩ := exists_of_foldlM_eq_error h
      refine ⟨x :: before, y, rest, t, rfl, ?_, hy⟩
      rw [List.foldlM_cons, hx]
      exact ht

/-- The computation ends in an error with `E` or in a value with `Q`. -/
def Ends (E : ε → Prop) (Q : α → Prop) : Except ε α → Prop
  | .error e => E e
  | .ok a => Q a

section Ends

variable {E E' : ε → Prop} {Q Q' : α → Prop} {R : β → Prop} {x : Except ε α}

theorem ends_iff : Ends E Q x ↔ (∀ e, x = .error e → E e) ∧ ∀ a, x = .ok a → Q a := by
  cases x with
  | error e => exact ⟨fun h => ⟨fun _ he => Except.error.inj he ▸ h, fun _ ha => (nomatch ha)⟩,
      fun h => h.1 e rfl⟩
  | ok a => exact ⟨fun h => ⟨fun _ he => (nomatch he), fun _ ha => Except.ok.inj ha ▸ h⟩,
      fun h => h.2 a rfl⟩

theorem Ends.imp (h : Ends E Q x) (hE : ∀ e, E e → E' e) (hQ : ∀ a, Q a → Q' a) :
    Ends E' Q' x := by
  cases x with
  | error e => exact hE e h
  | ok a => exact hQ a h

theorem Ends.bind {f : α → Except ε β} (hx : Ends E Q x) (hf : ∀ a, Q a → Ends E R (f a)) :
    Ends E R (x >>= f) := by
  cases x with
  | error e => exact hx
  | ok a => exact hf a hx

theorem Ends.map {f : α → β} (hx : Ends E Q x) (hf : ∀ a, Q a → R (f a)) :
    Ends E R (x.map f) := by
  cases x with
  | error e => exact hx
  | ok a => exact hf a hx

/-- A fold ends so when each of its steps does, where `motive` holds on the way. -/
theorem Ends.foldlM {σ : Type} {f : σ → α → Except ε σ} {motive : List α → σ → Prop}
    (step : ∀ {x xs s}, motive (x :: xs) s → Ends E (motive xs) (f s x)) :
    ∀ {xs : List α} {s : σ}, motive xs s → Ends E (motive []) (xs.foldlM f s)
  | [], _, hs => hs
  | _ :: _, _, hs => by
    rw [List.foldlM_cons]
    exact (step hs).bind fun _ ht => Ends.foldlM step ht

end Ends

/-- The second computation ends like the first one, unless that fails with an error of `G`. -/
def SameUnless (G : ε → Prop) (x y : Except ε α) : Prop :=
  y = x ∨ ∃ e, x = .error e ∧ G e

section SameUnless

variable {G : ε → Prop} {x y : Except ε α}

theorem SameUnless.refl (x : Except ε α) : SameUnless G x x := .inl rfl

theorem SameUnless.of_error {e : ε} (hx : x = .error e) (he : G e) : SameUnless G x y :=
  .inr ⟨e, hx, he⟩

theorem SameUnless.bind {f g : α → Except ε β} (hx : SameUnless G x y)
    (hf : ∀ a, x = .ok a → SameUnless G (f a) (g a)) : SameUnless G (x >>= f) (y >>= g) := by
  rcases hx with rfl | ⟨e, rfl, he⟩
  · cases y with
    | error e => exact .refl _
    | ok a => exact hf a rfl
  · exact .of_error rfl he

/-- Two folds end in the same way when all steps do that the first one gets to. -/
theorem SameUnless.foldlM {σ : Type} {f g : σ → α → Except ε σ} :
    ∀ {xs : List α} {s : σ}, (∀ before x rest t, xs = before ++ x :: rest →
      before.foldlM f s = .ok t → SameUnless G (f t x) (g t x)) →
        SameUnless G (xs.foldlM f s) (xs.foldlM g s)
  | [], s, _ => .refl _
  | x :: xs, s, h => by
    rw [List.foldlM_cons, List.foldlM_cons]
    refine (h [] x xs s rfl rfl).bind fun u hu => SameUnless.foldlM ?_
    intro before y rest t hxs ht
    refine h (x :: before) y rest t (by rw [hxs]; rfl) ?_
    rw [List.foldlM_cons, hu]
    exact ht

end SameUnless

end Stencil.Except
