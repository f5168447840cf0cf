import Mathlib.Data.List.Basic

/-!
# Runs of a labelled transition system

A system is a relation `step s a t`: in state `s` the input `a` may lead to `t`. A run is a finite
list of inputs with the states it passes through. Two ways of speaking about a run are used: an
invariant of its last state, and a condition that every step of it meets (`Along`). The rules below
turn a fact about one step into a fact about a whole run.
-/

namespace Transition

variable {σ α : Type*} (step : σ → α → σ → Prop)

/-- `Run step s as t`: the inputs `as`, taken one after another from `s`, can lead to `t`. -/
inductive Run : σ → List α → σ → Prop
  | nil (s : σ) : Run s [] s
  | cons {s t u : σ} {a : α} {as : List α} : step s a t → Run t as u → Run s (a :: as) u

/-- Whatever states the inputs `as` lead through from `s`, the condition `P` holds of each state
together with the input taken there. -/
def Along (P : σ → α → Prop) : σ → List α → Prop
  | _, [] => True
  | s, a :: as => P s a ∧ ∀ t, step s a t → Along P t as

variable {step}

theorem Run.single {s t : σ} {a : α} (h : step s a t) : Run step s [a] t :=
  .cons h (.nil t)

theorem Run.append {s t u : σ} {as bs : List α} (h : Run step s as t) (h' : Run step t bs u) :
    Run step s (as ++ bs) u := by
  induction h with
  | nil => exact h'
  | cons hstep _ ih => exact .cons hstep (ih h')

/-- A predicate that every step keeps holds at the end of a run that starts in it. -/
theorem Run.invariant {I : σ → Prop} (hstep : ∀ s a t, I s → step s a t → I t)
    {s t : σ} {as : List α} (hrun : Run step s as t) (hs : I s) : I t := by
  induction hrun with
  | nil => exact hs
  | cons h _ ih => exact ih (hstep _ _ _ hs h)

/-- A predicate that every step meeting `P` keeps holds at the end of a run all of whose steps
meet `P`. -/
theorem Run.invariant_along {I : σ → Prop} {P : σ → α → Prop}
    (hstep : ∀ s a t, I s → P s a → step s a t → I t)
    {s t : σ} {as : List α} (hrun : Run step s as t) (halong : Along step P s as) (hs : I s) :
    I t := by
  induction hrun with
  | nil => exact hs
  | cons h _ ih => exact ih (halong.2 _ h) (hstep _ _ _ hs halong.1 h)

theorem Along.of_append {P : σ → α → Prop} {s : σ} {as bs : List α}
    (h : Along step P s (as ++ bs)) :
    Along step P s as ∧ ∀ t, Run step s as t → Along step P t bs := by
  induction as generalizing s with
  | nil =>
      refine ⟨trivial, ?_⟩
      intro t ht
      cases ht
      exact h
  | cons a as ih =>
      refine ⟨⟨h.1, fun t ht => (ih (h.2 t ht)).1⟩, ?_⟩
      intro t ht
      cases ht with
      | cons hstep hrest => exact (ih (h.2 _ hstep)).2 t hrest

theorem Along.of_length_le {P : σ → α → Prop} {s : σ} {as : List α} (h : Along step P s as)
    (hlength : as.length ≤ 1) : ∀ a ∈ as, P s a := by
  cases as with
  | nil => simp
  | cons a as =>
      obtain rfl := List.length_eq_zero_iff.1 (Nat.le_zero.1 (Nat.le_of_succ_le_succ hlength))
      simpa using h.1

/-- Two conditions that agree in every state satisfying an invariant hold along the same runs. -/
theorem along_congr {I : σ → Prop} {P Q : σ → α → Prop}
    (hinv : ∀ s a t, I s → step s a t → I t) (hiff : ∀ s a, I s → (P s a ↔ Q s a))
    {s : σ} {as : List α} (hs : I s) : Along step P s as ↔ Along step Q s as := by
  induction as generalizing s with
  | nil => exact Iff.rfl
  | cons a as ih =>
      refine and_congr (hiff s a hs) (forall_congr' ?_)
      intro t
      exact imp_congr_right fun h => ih (hinv s a t hs h)

/-- Two conditions that agree where `P` and an invariant hold agree along the runs that meet `P`. -/
theorem Along.congr {I : σ → Prop} {P Q R : σ → α → Prop}
    (hinv : ∀ s a t, I s → P s a → step s a t → I t)
    (hiff : ∀ s a, I s → P s a → (Q s a ↔ R s a)) {s : σ} {as : List α} (hs : I s)
    (h : Along step P s as) : Along step Q s as ↔ Along step R s as := by
  induction as generalizing s with
  | nil => exact Iff.rfl
  | cons a as ih =>
      refine and_congr (hiff s a hs h.1) (forall_congr' fun t => imp_congr_right ?_)
      intro ht
      exact ih (hinv s a t hs h.1 ht) (h.2 t ht)

/-! ### Systems with one result for each input

The step is a function `exec`, `none` when the input cannot be taken. -/

section Deterministic

variable (exec : σ → α → Option σ)

/-- The result of taking the inputs one after another. -/
def execAll (s : σ) (as : List α) : Option σ := as.foldlM exec s

/-- The inputs, each with the state it was taken in. -/
def trace : σ → List α → List (σ × α)
  | _, [] => []
  | s, a :: as => (s, a) :: (exec s a).elim [] fun t => trace t as

/-- The check succeeds at every state the inputs lead through. -/
def allAlong (check : σ → α → Bool) : σ → List α → Bool
  | _, [] => true
  | s, a :: as => check s a && (exec s a).all fun t => allAlong check t as

variable {exec}

theorem trace_cons {s t : σ} {a : α} (h : exec s a = some t) (as : List α) :
    trace exec s (a :: as) = (s, a) :: trace exec t as := by
  rw [trace, h]
  rfl

theorem run_of_execAll {s t : σ} {as : List α} (h : execAll exec s as = some t) :
    Run (fun s a t => exec s a = some t) s as t := by
  induction as generalizing s with
  | nil => exact Option.some.inj h ▸ .nil s
  | cons a as ih =>
      obtain ⟨u, hstep, hrest⟩ := Option.bind_eq_some_iff.1 h
      exact .cons hstep (ih hrest)

theorem execAll_of_run {s t : σ} {as : List α} (h : Run (fun s a t => exec s a = some t) s as t) :
    execAll exec s as = some t := by
  induction h with
  | nil => rfl
  | cons hstep _ ih => exact Option.bind_eq_some_iff.2 ⟨_, hstep, ih⟩

theorem run_of_any {s : σ} {as : List α} {check : σ → Bool}
    (h : (execAll exec s as).any check = true) :
    ∃ t, Run (fun s a t => exec s a = some t) s as t ∧ check t = true := by
  obtain ⟨t, ht, hcheck⟩ := (Option.any_eq_true _ _).1 h
  exact ⟨t, run_of_execAll ht, hcheck⟩

theorem along_of_allAlong {P : σ → α → Prop} {check : σ → α → Bool}
    (hcheck : ∀ s a, check s a = true → P s a) {s : σ} {as : List α}
    (h : allAlong exec check s as = true) : Along (fun s a t => exec s a = some t) P s as := by
  induction as generalizing s with
  | nil => trivial
  | cons a as ih =>
      obtain ⟨hs, hrest⟩ := Bool.and_eq_true_iff.1 h
      refine ⟨hcheck s a hs, fun t ht => ih ?_⟩
      rw [ht] at hrest
      exact hrest

end Deterministic

end Transition
