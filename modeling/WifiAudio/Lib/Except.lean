/-!
# Computations that may fail

`Ensures x Q` is the partial correctness of a computation in `Except`: when it completes, its result
satisfies `Q`. The rules follow the way such a computation is put together.
-/

namespace Except

variable {ε α β : Type}

@[simp] theorem ok_bind (a : α) (f : α → Except ε β) : (Except.ok a >>= f) = f a := rfl

@[simp] theorem error_bind (e : ε) (f : α → Except ε β) :
    ((Except.error e : Except ε α) >>= f) = .error e := rfl

@[simp] theorem pure_eq_ok (a : α) : (pure a : Except ε α) = .ok a := rfl

@[simp] theorem throw_eq_error (e : ε) : (throw e : Except ε α) = .error e := rfl

/-- A computation in two parts completes when both do. -/
theorem bind_eq_ok {x : Except ε α} {f : α → Except ε β} {b : β} :
    (x >>= f) = .ok b ↔ ∃ a, x = .ok a ∧ f a = .ok b := by
  cases x with
  | error e => simp
  | ok a => simp

/-- A test that is evaluated: the computation completes, with a result that passes. -/
theorem eq_ok_of_any {x : Except ε α} {p : α → Bool} (h : x.toOption.any p = true) :
    ∃ a, x = .ok a ∧ p a = true := by
  cases x with
  | error e => cases h
  | ok a => exact ⟨a, rfl, h⟩

theorem toOption_eq_some {x : Except ε α} {a : α} : x.toOption = some a ↔ x = .ok a := by
  cases x <;> simp [Except.toOption]

/-- If `x` completes, its result satisfies `Q`. -/
def Ensures (x : Except ε α) (Q : α → Prop) : Prop := ∀ a, x = .ok a → Q a

variable {x : Except ε α} {Q R : α → Prop}

theorem Ensures.ok {a : α} (h : Q a) : Ensures (.ok a : Except ε α) Q :=
  fun _ ha => Except.ok.inj ha ▸ h

theorem Ensures.self (x : Except ε α) : Ensures x fun a => x = .ok a := fun _ ha => ha

theorem Ensures.error (e : ε) : Ensures (.error e : Except ε α) Q := by
  intro a ha
  cases ha

theorem Ensures.bind {f : α → Except ε β} {R : β → Prop} (hx : Ensures x Q)
    (hf : ∀ a, Q a → Ensures (f a) R) : Ensures (x >>= f) R := fun b hb =>
  let ⟨a, ha, hfa⟩ := bind_eq_ok.1 hb
  hf a (hx a ha) b hfa

theorem Ensures.bind_any {f : α → Except ε β} {R : β → Prop} (hf : ∀ a, Ensures (f a) R) :
    Ensures (x >>= f) R :=
  Ensures.bind (Q := fun _ => True) (fun _ _ => trivial) fun a _ => hf a

theorem Ensures.ite {c : Prop} [Decidable c] {y : Except ε α} (hx : c → Ensures x Q)
    (hy : ¬c → Ensures y Q) : Ensures (if c then x else y) Q := by
  split
  · exact hx ‹_›
  · exact hy ‹_›

theorem Ensures.mono (hx : Ensures x Q) (h : ∀ a, Q a → R a) : Ensures x R :=
  fun a ha => h a (hx a ha)

end Except
