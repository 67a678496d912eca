import Mathlib

/-!
# Runs that may stop

A run of a function returns a value, or it stops before: memory is not there, or what comes
next is not defined. A postcondition of a run says what holds of its value, that the run stops
for want of memory only under a condition, and that it never comes to what is not defined. The
rules follow the ways in which runs are put together, among them the two kinds of loops: one
counts through indices, the other one goes on under a condition, for at most a number of turns.
-/

namespace Bpcp.Lib

/-- Why a run stops. -/
inductive Stop where
  /-- Memory is not there. -/
  | outOfMemory
  /-- What comes next is not defined. -/
  | undefined
deriving DecidableEq

/-- A run that returns a value or stops. -/
abbrev Run (α : Type*) := Except Stop α

namespace Run

universe u

variable {α β σ : Type u}

/-- A value that is there when it is defined. -/
def defined : Option α → Run α
  | some value => .ok value
  | none => .error .undefined

/-- A value that is there when memory is. -/
def allocated : Option α → Run α
  | some value => .ok value
  | none => .error .outOfMemory

/-- `while`, for at most a number of turns. -/
def whileLoop (condition : σ → Prop) [DecidablePred condition] (body : σ → Run σ) :
    ℕ → σ → Run σ
  | 0, state => if condition state then .error .undefined else .ok state
  | turns + 1, state =>
    if condition state then do
      let state ← body state
      whileLoop condition body turns state
    else .ok state

/-- `for` with a counter that starts at an index and counts a number of turns. -/
def forLoop (body : ℕ → σ → Run σ) : ℕ → ℕ → σ → Run σ
  | _, 0, state => .ok state
  | i, turns + 1, state => do
    let state ← body i state
    forLoop body (i + 1) turns state

/-- A run stops for want of memory only under a condition, and otherwise it returns a value with
a property. -/
inductive Ends (mayStop : Prop) (post : α → Prop) : Run α → Prop where
  /-- The run returns a value. -/
  | returns {value : α} (holds : post value) : Ends mayStop post (.ok value)
  /-- The run stops. -/
  | stops (lacking : mayStop) : Ends mayStop post (.error .outOfMemory)

variable {mayStop : Prop} {post mid : α → Prop} {run : Run α}

/-- A run that must not stop returns. -/
theorem Ends.exists_value (ends : Ends mayStop post run) (cannot : ¬mayStop) :
    ∃ value, run = .ok value ∧ post value := by
  cases ends with
  | returns holds => exact ⟨_, rfl, holds⟩
  | stops lacking => exact absurd lacking cannot

/-- What a run returns has the property. -/
theorem Ends.value {value : α} (ends : Ends mayStop post (.ok value)) : post value := by
  cases ends with
  | returns holds => exact holds

/-- A run that stops may do so. -/
theorem Ends.lacking (ends : Ends mayStop post (.error .outOfMemory)) : mayStop := by
  cases ends with
  | stops lacking => exact lacking

/-- A run does not come to what is not defined. -/
theorem Ends.not_undefined (ends : Ends mayStop post run) : run ≠ .error .undefined := by
  cases ends with
  | returns holds => exact nofun
  | stops lacking => exact nofun

/-- Every property that follows from a postcondition is one. -/
theorem Ends.mono (ends : Ends mayStop mid run) (follows : ∀ value, mid value → post value) :
    Ends mayStop post run := by
  cases ends with
  | returns holds => exact .returns (follows _ holds)
  | stops lacking => exact .stops lacking

/-- One run after the other. -/
theorem Ends.bind {next : α → Run β} {post : β → Prop} (first : Ends mayStop mid run)
    (second : ∀ value, mid value → Ends mayStop post (next value)) :
    Ends mayStop post (run >>= next) := by
  cases first with
  | returns holds => exact second _ holds
  | stops lacking => exact .stops lacking

/-- A run goes on with a defined value. -/
theorem Ends.defined_bind {value : α} {found : Option α} {next : α → Run β} {post : β → Prop}
    (there : found = some value) (rest : Ends mayStop post (next value)) :
    Ends mayStop post (defined found >>= next) := by
  rw [there]
  exact rest

/-- A run goes on with an allocated value, when it may stop without one. -/
theorem Ends.allocated_bind {found : Option α} {next : α → Run β} {post : β → Prop}
    (missing : found = none → mayStop)
    (rest : ∀ value, found = some value → Ends mayStop post (next value)) :
    Ends mayStop post (allocated found >>= next) := by
  cases found with
  | none => exact .stops (missing rfl)
  | some value => exact rest value rfl

/-- A loop that keeps an invariant and comes nearer to its end with every turn ends with the
invariant, and without its condition. -/
theorem Ends.whileLoop {condition : σ → Prop} [DecidablePred condition] {body : σ → Run σ}
    {turns : ℕ} {state : σ} (inv : σ → Prop) (measure : σ → ℕ) (holds : inv state)
    (enough : measure state < turns)
    (kept : ∀ state, inv state → condition state →
      Ends mayStop (fun next => inv next ∧ measure next < measure state) (body state)) :
    Ends mayStop (fun final => inv final ∧ ¬condition final)
      (Run.whileLoop condition body turns state) := by
  induction turns generalizing state with
  | zero => exact absurd enough (Nat.not_lt_zero _)
  | succ turns ih =>
    rw [Run.whileLoop]
    by_cases more : condition state
    · rw [if_pos more]
      apply (kept state holds more).bind
      rintro next ⟨keptNext, nearer⟩
      exact ih keptNext (by omega)
    · rw [if_neg more]
      exact .returns ⟨holds, more⟩

/-- A loop over indices that keeps an invariant ends with it behind the last index. -/
theorem Ends.forLoop {body : ℕ → σ → Run σ} {start turns : ℕ} {state : σ} (inv : ℕ → σ → Prop)
    (holds : inv start state)
    (kept : ∀ i state, start ≤ i → i < start + turns → inv i state →
      Ends mayStop (inv (i + 1)) (body i state)) :
    Ends mayStop (inv (start + turns)) (Run.forLoop body start turns state) := by
  induction turns generalizing start state with
  | zero => exact .returns holds
  | succ turns ih =>
    apply (kept start state le_rfl (by omega) holds).bind
    intro next keptNext
    rw [Nat.add_comm turns 1, ← Nat.add_assoc]
    exact ih keptNext fun i state after before => kept i state (by omega) (by omega)

end Run

end Bpcp.Lib
