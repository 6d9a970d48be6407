import Mathlib.Data.List.Basic
import Mathlib.Data.List.Forall2
import Mathlib.Data.List.Induction

/-!
# Deterministic machines with effects

A machine takes a state and an operation to the next state and to the effects
the operation has outside the state. A run is a list of operations; its trace
is the list of all effects in order. `run_invariant` is the one induction of
this file: every fact about runs below and in the developments that use it is
an instance.
-/

/-- A machine over states `σ`, operations `ω` and effects `ε`. -/
structure Machine (σ ω ε : Type*) where
  step : ω → σ → σ × List ε

namespace Machine

variable {σ ω ε : Type*} (M : Machine σ ω ε)

/-- The state after the operations, taken from left to right. -/
def state : σ → List ω → σ
  | s, [] => s
  | s, op :: ops => state (M.step op s).1 ops

/-- The effects of the operations, in order. -/
def trace : σ → List ω → List ε
  | _, [] => []
  | s, op :: ops => (M.step op s).2 ++ trace (M.step op s).1 ops

@[simp] theorem state_nil (s : σ) : M.state s [] = s := rfl

theorem state_cons (s : σ) (op : ω) (ops : List ω) :
    M.state s (op :: ops) = M.state (M.step op s).1 ops := rfl

@[simp] theorem trace_nil (s : σ) : M.trace s [] = [] := rfl

theorem state_append (s : σ) (xs ys : List ω) :
    M.state s (xs ++ ys) = M.state (M.state s xs) ys := by
  induction xs generalizing s with
  | nil => rfl
  | cons op xs ih => exact ih _

theorem trace_append (s : σ) (xs ys : List ω) :
    M.trace s (xs ++ ys) = M.trace s xs ++ M.trace (M.state s xs) ys := by
  induction xs generalizing s with
  | nil => rfl
  | cons op xs ih =>
    simp only [List.cons_append, trace, state, List.append_assoc]
    rw [ih]

theorem state_snoc (s : σ) (ops : List ω) (op : ω) :
    M.state s (ops ++ [op]) = (M.step op (M.state s ops)).1 := by
  rw [state_append]
  rfl

theorem trace_snoc (s : σ) (ops : List ω) (op : ω) :
    M.trace s (ops ++ [op]) = M.trace s ops ++ (M.step op (M.state s ops)).2 := by
  rw [trace_append]
  simp [trace]

/-- A property of a run that holds of the empty run and that every further
operation preserves holds of every run. It may speak of the operations so far,
the state reached and the trace. -/
theorem run_invariant (s₀ : σ) (P : List ω → σ → List ε → Prop) (init : P [] s₀ [])
    (step : ∀ ops s t op, P ops s t → P (ops ++ [op]) (M.step op s).1 (t ++ (M.step op s).2)) :
    ∀ ops, P ops (M.state s₀ ops) (M.trace s₀ ops) := by
  intro ops
  induction ops using List.reverseRecOn with
  | nil => exact init
  | append_singleton ops op ih =>
    rw [state_snoc, trace_snoc]
    exact step ops _ _ op ih

/-- The invariant rule for a property of the state alone. -/
theorem state_invariant (s₀ : σ) (P : σ → Prop) (init : P s₀)
    (step : ∀ s op, P s → P (M.step op s).1) (ops : List ω) : P (M.state s₀ ops) :=
  M.run_invariant s₀ (fun _ s _ => P s) init (fun _ s _ op h => step s op h) ops

/-- The invariant rule for a property of the state and the trace. -/
theorem trace_invariant (s₀ : σ) (P : σ → List ε → Prop) (init : P s₀ [])
    (step : ∀ s t op, P s t → P (M.step op s).1 (t ++ (M.step op s).2)) (ops : List ω) :
    P (M.state s₀ ops) (M.trace s₀ ops) :=
  M.run_invariant s₀ (fun _ s t => P s t) init (fun _ s t op h => step s t op h) ops

/-- The rule for two runs of the same operations: what one operation preserves
between two states, with the same effects, holds along both runs. -/
theorem lockstep (R : σ → σ → Prop)
    (step : ∀ op s s', R s s' →
      R (M.step op s).1 (M.step op s').1 ∧ (M.step op s').2 = (M.step op s).2)
    {s s' : σ} (h : R s s') (ops : List ω) :
    R (M.state s ops) (M.state s' ops) ∧ M.trace s' ops = M.trace s ops := by
  induction ops generalizing s s' with
  | nil => exact ⟨h, rfl⟩
  | cons op ops ih =>
    have ⟨hnext, heffects⟩ := step op s s' h
    have ⟨hstate, htrace⟩ := ih hnext
    refine ⟨hstate, ?_⟩
    simp only [trace]
    rw [heffects, htrace]

/-- The rule for runs of two machines whose operations are paired: what a pair
preserves between two states holds along both runs, and their effects are paired
as those of every pair are. -/
theorem simulate {σ' ω' ε' : Type*} (M' : Machine σ' ω' ε') (R : σ → σ' → Prop)
    (O : ω → ω' → Prop) (E : ε → ε' → Prop)
    (step : ∀ op op' s s', O op op' → R s s' →
      R (M.step op s).1 (M'.step op' s').1 ∧ List.Forall₂ E (M.step op s).2 (M'.step op' s').2)
    {s : σ} {s' : σ'} (h : R s s') {ops : List ω} {ops' : List ω'} (hops : List.Forall₂ O ops ops') :
    R (M.state s ops) (M'.state s' ops') ∧
      List.Forall₂ E (M.trace s ops) (M'.trace s' ops') := by
  induction hops generalizing s s' with
  | nil => exact ⟨h, .nil⟩
  | cons hop hrest ih =>
    rcases step _ _ s s' hop h with ⟨hnext, heffects⟩
    rcases ih hnext with ⟨hstate, htrace⟩
    exact ⟨hstate, List.rel_append heffects htrace⟩

/-! ## History variables -/

/-- A history variable along a run. `record` updates it at every operation,
from the state before the operation. -/
def track {γ : Type*} (record : σ → ω → γ → γ) : σ → γ → List ω → γ
  | _, c, [] => c
  | s, c, op :: ops => track record (M.step op s).1 (record s op c) ops

theorem track_snoc {γ : Type*} (record : σ → ω → γ → γ) (s : σ) (c : γ) (ops : List ω) (op : ω) :
    M.track record s c (ops ++ [op]) = record (M.state s ops) op (M.track record s c ops) := by
  induction ops generalizing s c with
  | nil => rfl
  | cons first ops ih => exact ih _ _

/-- The invariant rule for a property of the run, the state and a history variable. -/
theorem track_invariant {γ : Type*} (record : σ → ω → γ → γ) (s₀ : σ) (c₀ : γ)
    (P : List ω → σ → γ → Prop) (init : P [] s₀ c₀)
    (step : ∀ ops s c op, P ops s c → P (ops ++ [op]) (M.step op s).1 (record s op c)) :
    ∀ ops, P ops (M.state s₀ ops) (M.track record s₀ c₀ ops) := by
  intro ops
  induction ops using List.reverseRecOn with
  | nil => exact init
  | append_singleton ops op ih =>
    rw [state_snoc, track_snoc]
    exact step ops _ _ op ih

/-- Every effect of a run is an effect of one of its operations. -/
theorem mem_trace {s : σ} {ops : List ω} {e : ε} (h : e ∈ M.trace s ops) :
    ∃ pre op post, ops = pre ++ op :: post ∧ e ∈ (M.step op (M.state s pre)).2 := by
  induction ops generalizing s with
  | nil => cases h
  | cons op ops ih =>
    rcases List.mem_append.1 h with h | h
    · exact ⟨[], op, ops, rfl, h⟩
    · obtain ⟨pre, op', post, rfl, hmem⟩ := ih h
      exact ⟨op :: pre, op', post, rfl, hmem⟩

end Machine
