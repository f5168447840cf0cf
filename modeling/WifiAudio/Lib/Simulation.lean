import WifiAudio.Lib.Transition

/-!
# Simulation between transition systems

A system given by its step function is simulated by another one when every step it can take from a
state is matched by a run of the other: one step, several, or none. Which inputs the other system is
given is named by the state and the input, so that a whole run of the first names the inputs of the
second.
-/

namespace Transition

variable {σ τ α β : Type*}

/-- The inputs a run names, step by step. -/
def labels (exec : σ → α → Option σ) (label : σ → α → List β) (s : σ) (as : List α) : List β :=
  (trace exec s as).flatMap fun x => label x.1 x.2

section Labels

variable {exec : σ → α → Option σ} {label : σ → α → List β} {s t : σ} {a : α}

@[simp] theorem labels_nil (s : σ) : labels exec label s [] = [] := rfl

theorem labels_cons (h : exec s a = some t) (as : List α) :
    labels exec label s (a :: as) = label s a ++ labels exec label t as := by
  rw [labels, trace_cons h, List.flatMap_cons]
  rfl

theorem labels_append {as bs : List α} (h : Run (fun s a t => exec s a = some t) s as t) :
    labels exec label s (as ++ bs) = labels exec label s as ++ labels exec label t bs := by
  induction h with
  | nil => rfl
  | cons hstep _ ih => rw [List.cons_append, labels_cons hstep, labels_cons hstep, ih, List.append_assoc]

/-- What is read off the inputs grows with each step by what its own inputs add. -/
theorem Run.labels_invariant {I : σ → List β → Prop} {as : List α}
    (hrun : Run (fun s a t => exec s a = some t) s as t) {done : List β} (hs : I s done)
    (hstep : ∀ s a t done, I s done → exec s a = some t → I t (done ++ label s a)) :
    I t (done ++ labels exec label s as) := by
  induction hrun generalizing done with
  | nil => simpa using hs
  | @cons s t u a as h _ ih =>
      rw [labels_cons h, ← List.append_assoc]
      exact ih (hstep _ _ _ _ hs h)

theorem Run.trace_along {I : σ → List (σ × α) → Prop} {P : σ → α → Prop} {as : List α}
    (hrun : Run (fun s a t => exec s a = some t) s as t)
    (halong : Along (fun s a t => exec s a = some t) P s as) (hs : I s [])
    (hstep : ∀ s a t done, I s done → P s a → exec s a = some t → I t (done ++ [(s, a)])) :
    I t (trace exec s as) := by
  suffices hall : ∀ done, I s done → I t (done ++ trace exec s as) from hall [] hs
  clear hs
  induction hrun with
  | nil =>
      intro done hs
      rwa [trace, List.append_nil]
  | @cons s u t a as h _ ih =>
      intro done hs
      rw [trace_cons h, List.append_cons]
      exact ih (halong.2 u h) _ (hstep _ _ _ _ hs halong.1 h)

end Labels

/-- `R` relates the states of the two systems, and where it does a step that meets `P` is matched by
a run over the inputs it names. -/
structure Simulation (exec : σ → α → Option σ) (step : τ → β → τ → Prop) (R : σ → τ → Prop)
    (P : σ → α → Prop) (label : σ → α → List β) : Prop where
  forward : ∀ (s : σ) (a : α) (s' : σ) (t : τ), R s t → P s a → exec s a = some s' →
    ∃ t', Run step t (label s a) t' ∧ R s' t'

namespace Simulation

variable {exec : σ → α → Option σ} {step : τ → β → τ → Prop} {R : σ → τ → Prop} {P : σ → α → Prop}
  {label : σ → α → List β} {s s' : σ} {t : τ} {as : List α}

/-- A whole run is matched. -/
theorem run (h : Simulation exec step R P label)
    (hrun : Run (fun s a t => exec s a = some t) s as s')
    (halong : Along (fun s a t => exec s a = some t) P s as) (hR : R s t) :
    ∃ t', Run step t (labels exec label s as) t' ∧ R s' t' := by
  induction hrun generalizing t with
  | nil s => exact ⟨t, .nil t, hR⟩
  | @cons s u s' a as hstep _ ih =>
      obtain ⟨t₁, hfirst, hR₁⟩ := h.forward s a u t hR halong.1 hstep
      obtain ⟨t', hrest, hR'⟩ := ih (halong.2 u hstep) hR₁
      rw [labels_cons hstep]
      exact ⟨t', hfirst.append hrest, hR'⟩

section Deterministic

variable {exec' : τ → β → Option τ}

/-- What is read off the inputs a whole run names is read off step by step. -/
theorem labels_labels {γ : Type*} {label' : τ → β → List γ} {read : σ → α → List γ}
    (h : Simulation exec (fun t b t' => exec' t b = some t') R P label)
    (hread : ∀ s a s' t, R s t → exec s a = some s' → labels exec' label' t (label s a) = read s a)
    (hrun : Run (fun s a t => exec s a = some t) s as s')
    (halong : Along (fun s a t => exec s a = some t) P s as) (hR : R s t) :
    labels exec' label' t (labels exec label s as) = labels exec read s as := by
  induction hrun generalizing t with
  | nil s => rfl
  | @cons s u s' a as hstep _ ih =>
      obtain ⟨t₁, hfirst, hR₁⟩ := h.forward s a u t hR halong.1 hstep
      rw [labels_cons hstep, labels_cons hstep, labels_append hfirst, hread s a u t hR hstep,
        ih (halong.2 u hstep) hR₁]

end Deterministic

end Simulation

theorem along_true {step : σ → α → σ → Prop} (s : σ) (as : List α) :
    Along step (fun _ _ => True) s as := by
  induction as generalizing s with
  | nil => trivial
  | cons a as ih => exact ⟨trivial, fun t _ => ih t⟩

end Transition
