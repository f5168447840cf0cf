import WifiAudio.Lib.Transition

/-!
# Runs that come to an end

Some of the inputs of a system are its own; the others are given to it from outside and may come for
ever. A measure that no step raises and that each of the system's own steps lowers bounds how many of
these a run takes, so a run in which they all get their turn comes to a state in which none is left.
-/

namespace Transition

variable {σ α : Type*} {step : σ → α → σ → Prop} {own : α → Bool} {μ : σ → ℕ} {I : σ → Prop}
  {s t : σ} {as : List α}

/-- `μ` is lowered by each of the system's own steps and raised by none. -/
structure UsesUp (step : σ → α → σ → Prop) (own : α → Bool) (I : σ → Prop) (μ : σ → ℕ) : Prop where
  keeps : ∀ s a t, I s → step s a t → I t
  lowers : ∀ s a t, I s → step s a t → own a = true → μ t < μ s
  le : ∀ s a t, I s → step s a t → own a = false → μ t ≤ μ s

/-- What is left of the measure bounds how many own steps were taken. -/
theorem UsesUp.count_le (h : UsesUp step own I μ) (hrun : Run step s as t) (hs : I s) :
    as.countP own + μ t ≤ μ s := by
  induction hrun with
  | nil => simp
  | @cons s u t a as hstep _ ih =>
      have hrest := ih (h.keeps s a u hs hstep)
      cases hown : own a with
      | true =>
          have hlt := h.lowers s a u hs hstep hown
          rw [List.countP_cons_of_pos hown]
          omega
      | false =>
          have hle := h.le s a u hs hstep hown
          rw [List.countP_cons_of_neg (by simp [hown])]
          omega

/-- A predicate that each step keeps and reflects is decided at the start of a run. -/
theorem Run.settled {Q : σ → Prop} (hkeeps : ∀ s a t, I s → step s a t → I t)
    (hsettled : ∀ s a t, I s → step s a t → (Q s ↔ Q t)) (hrun : Run step s as t) (hs : I s) :
    Q s ↔ Q t := by
  induction hrun with
  | nil => exact Iff.rfl
  | cons hstep _ ih => exact (hsettled _ _ _ hs hstep).trans (ih (hkeeps _ _ _ hs hstep))

end Transition
