import Mathlib

/-!
# Machines and their reachable states

A machine takes labelled steps from its starting states. What holds at the start and is kept
by every step holds in every reachable state. A machine is restricted by a condition on its
steps, and what is reachable then was reachable before. Where calls have answers, two systems
with related states answer the same calls alike.
-/

namespace Bpcp.Lib

/-- A transition system with labelled steps. -/
structure Machine (σ α : Type*) where
  /-- The states that a run starts in. -/
  start : σ → Prop
  /-- The steps with their labels. -/
  step : σ → α → σ → Prop

namespace Machine

variable {σ α : Type*} {machine : Machine σ α} {state : σ}

/-- The states that a run can get to. -/
inductive Reachable (machine : Machine σ α) : σ → Prop where
  /-- A run starts. -/
  | start {state : σ} : machine.start state → Reachable machine state
  /-- A run goes on. -/
  | step {state next : σ} {label : α} :
      Reachable machine state → machine.step state label next → Reachable machine next

/-- What holds at the start and is kept by the steps between reachable states holds in every
reachable state. -/
theorem Reachable.invariant {holds : σ → Prop} (reachable : machine.Reachable state)
    (base : ∀ state, machine.start state → holds state)
    (kept : ∀ state label next, machine.Reachable state → holds state →
      machine.step state label next → holds next) : holds state := by
  induction reachable with
  | start starts => exact base _ starts
  | step before taken ih => exact kept _ _ _ before ih taken

/-- The machine that takes a step only under a condition. -/
def restrict (machine : Machine σ α) (condition : σ → α → Prop) : Machine σ α where
  start := machine.start
  step := fun state label next => machine.step state label next ∧ condition state label

/-- A restricted machine reaches nothing new. -/
theorem Reachable.of_restrict {condition : σ → α → Prop}
    (reachable : (machine.restrict condition).Reachable state) : machine.Reachable state := by
  induction reachable with
  | start starts => exact .start starts
  | step _ taken ih => exact .step ih taken.1

end Machine

/-! ## Calls and their answers -/

section Answers

variable {σ τ α β : Type*}

/-- The answers to calls that are made one after the other, and the state that they leave. -/
def answers (call : σ → α → β × σ) : List α → σ → List β × σ
  | [], state => ([], state)
  | label :: rest, state =>
    let (answer, next) := call state label
    let (later, final) := answers call rest next
    (answer :: later, final)

/-- Calls that answer alike in related states, and leave related states, answer alike for ever. -/
theorem answers_simulates {left : σ → α → β × σ} {right : τ → α → β × τ} {related : σ → τ → Prop}
    (simulates : ∀ state other label, related state other →
      (left state label).1 = (right other label).1 ∧
        related (left state label).2 (right other label).2)
    (labels : List α) (state : σ) (other : τ) (start : related state other) :
    (answers left labels state).1 = (answers right labels other).1 ∧
      related (answers left labels state).2 (answers right labels other).2 := by
  induction labels generalizing state other with
  | nil => exact ⟨rfl, start⟩
  | cons label rest ih =>
    obtain ⟨answer, next⟩ := simulates state other label start
    obtain ⟨later, final⟩ := ih _ _ next
    exact ⟨congrArg₂ List.cons answer later, final⟩

end Answers

end Bpcp.Lib
