import Bpcp.Lib.FilledArray
import Bpcp.Lib.MachineInt
import Bpcp.Lib.Run
import Bpcp.Lib.TrialDivision

/-!
# Prime factors

`prime_factors` collects the prime factors of a number by trial division, in an array that
grows by four elements when it is full. The number itself shrinks while the divisor goes up.
What comes next is not defined when a counter wraps around, when a divisor is zero, or when an
element is stored outside the array: a divisor that wraps around is zero.
-/

namespace Bpcp.Samples

open Bpcp.Lib Bpcp.Lib.Run

/-- `DEFSZ_FACTORS`. -/
def defszFactors : ℕ := 4

/-- The variables of the loop of `prime_factors`. -/
structure FactorState where
  /-- `natural`. -/
  natural : ℕ
  /-- `u`. -/
  u : ℕ
  /-- `sz`. -/
  sz : ℕ
  /-- `factors`. -/
  factors : List ℕ
  /-- `*nr_factors`. -/
  nrFactors : ℕ

/-- What `prime_factors` returns and stores. -/
structure FactorResult where
  /-- The return value, which may be `NULL`. -/
  factors : Option (List ℕ)
  /-- `*nr_factors`. -/
  nrFactors : ℕ

/-- The inner loop of `prime_factors`. -/
def divideOut (u natural : ℕ) : Run ℕ :=
  whileLoop (fun natural => natural % u = 0) (fun natural => .ok (natural / u)) natural
    (natural / u)

/-- The array grows when it is full. -/
def expandFactors (allocator : Allocator ℕ) (state : FactorState) : Run FactorState :=
  if state.nrFactors ≥ state.sz then do
    let sz ← defined (uintAdd state.sz defszFactors)
    let factors ← allocated (allocator.realloc state.factors sz)
    .ok { state with sz := sz, factors := factors }
  else .ok state

/-- The body of the loop of `prime_factors`. -/
def factorBody (allocator : Allocator ℕ) (state : FactorState) : Run FactorState :=
  if state.u = 0 then .error .undefined
  else if state.natural % state.u = 0 then do
    let natural ← divideOut state.u state.natural
    let state ← expandFactors allocator { state with natural := natural }
    let factors ← defined (assignAt state.factors state.nrFactors state.u)
    let nrFactors ← defined (uintAdd state.nrFactors 1)
    .ok { state with factors := factors, nrFactors := nrFactors }
  else .ok state

/-- A turn of the loop of `prime_factors`. -/
def factorTurn (allocator : Allocator ℕ) (state : FactorState) : Run FactorState := do
  let state ← factorBody allocator state
  let u ← defined (uintAdd state.u 1)
  .ok { state with u := u }

/-- `prime_factors`. -/
def primeFactors (allocator : Allocator ℕ) (natural : ℕ) : Run FactorResult :=
  let failed : FactorResult := ⟨none, 0⟩
  if natural < 2 then .ok failed
  else
    match allocator.malloc defszFactors with
    | none => .ok failed
    | some factors =>
      match whileLoop (fun state => state.u ≤ state.natural) (factorTurn allocator) natural
          ⟨natural, 2, defszFactors, factors, 0⟩ with
      | .ok state => .ok ⟨some state.factors, state.nrFactors⟩
      | .error .outOfMemory => .ok failed
      | .error .undefined => .error .undefined

variable {allocator : Allocator ℕ} {natural n : ℕ} {found : List ℕ} {state : FactorState}
  {mayStop : Prop}

/-! ## One turn -/

/-- A divisor is divided out until it does not divide any more. -/
theorem divideOut_ends {u : ℕ} (atLeast : 2 ≤ u) (positive : 0 < natural)
    (divides : natural % u = 0) :
    Ends mayStop (fun smaller =>
      ∃ times, natural = u ^ (times + 1) * smaller ∧ ¬u ∣ smaller) (divideOut u natural) := by
  have once : natural = u ^ (0 + 1) * (natural / u) := by
    rw [zero_add, pow_one]
    exact (Nat.mul_div_cancel' (Nat.dvd_of_mod_eq_zero divides)).symm
  have shrinks : natural / u < natural := Nat.div_lt_self positive atLeast
  have loop : Ends mayStop (fun smaller =>
      (∃ times, natural = u ^ (times + 1) * smaller) ∧ ¬smaller % u = 0)
      (divideOut u natural) := by
    apply Ends.whileLoop (fun smaller => ∃ times, natural = u ^ (times + 1) * smaller) id
      ⟨0, once⟩ shrinks
    rintro smaller ⟨times, powers⟩ again
    have more : 0 < smaller := by
      apply Nat.pos_of_ne_zero
      rintro rfl
      omega
    refine .returns ⟨⟨times + 1, ?_⟩, Nat.div_lt_self more atLeast⟩
    rw [pow_succ, mul_assoc, Nat.mul_div_cancel' (Nat.dvd_of_mod_eq_zero again)]
    exact powers
  apply loop.mono
  rintro smaller ⟨⟨times, powers⟩, out⟩
  exact ⟨times, powers, fun again => out (Nat.mod_eq_zero_of_dvd again)⟩

/-- The primes found so far are stored in the array, which has no more than four elements to
spare. -/
structure FactorArray (found : List ℕ) (state : FactorState) : Prop where
  /-- The array begins with the primes. -/
  filled : Filled found state.factors state.nrFactors state.sz
  /-- What the array has to spare. -/
  spare : state.sz ≤ found.length + defszFactors

/-- When the array is full it grows, and then it has room. -/
theorem FactorArray.expand (array : FactorArray found state) (few : found.length < 32)
    (unlimited : ¬mayStop → allocator.Unlimited) :
    Ends mayStop (fun after => FactorArray found after ∧ after.nrFactors < after.sz ∧
      after.natural = state.natural ∧ after.u = state.u) (expandFactors allocator state) := by
  have within := array.filled.count_le
  have count := array.filled.count_eq
  unfold expandFactors
  by_cases full : state.nrFactors ≥ state.sz
  · rw [if_pos full]
    have small : state.sz + defszFactors ≤ uintMax := by
      have limit : 32 + defszFactors ≤ uintMax := by decide
      omega
    apply Ends.defined_bind (if_pos small)
    apply Ends.allocated_bind
    · intro none
      by_contra cannot
      exact (unlimited cannot).realloc _ _ none
    · intro factors moved
      have filled := Allocator.filled_move array.filled (Nat.le_add_right _ _) moved
      have more : 0 < defszFactors := by decide
      have spare : state.sz + defszFactors ≤ found.length + defszFactors := by omega
      have room : state.nrFactors < state.sz + defszFactors := by omega
      exact .returns ⟨⟨filled, spare⟩, room, rfl, rfl⟩
  · rw [if_neg full]
    exact .returns ⟨array, by omega, rfl, rfl⟩

/-- The primes below `u` are stored and divided out. -/
structure FactorsStored (n : ℕ) (found : List ℕ) (state : FactorState) : Prop where
  /-- What is left of the number. -/
  divided : DividedBelow n state.u state.natural found
  /-- `u` has passed one. -/
  atLeast : 2 ≤ state.u
  /-- The array. -/
  array : FactorArray found state

/-- There are fewer primes than bits. -/
theorem few_primes {bound cofactor : ℕ} (divided : DividedBelow n bound cofactor found)
    (most : n ≤ uintMax) : found.length < 32 := by
  have product := (Nat.le_mul_of_pos_right _ divided.positive).trans divided.few
  have limit : uintMax < 2 ^ 32 := by decide
  exact (Nat.pow_lt_pow_iff_right (show 1 < 2 by decide)).1 (by omega)

/-- What is left is not more than the number. -/
theorem FactorsStored.natural_le (stored : FactorsStored n found state) : state.natural ≤ n :=
  (Nat.le_mul_of_pos_left _ (Nat.two_pow_pos _)).trans stored.divided.few

/-- `u` does not wrap around: `UINT_MAX` is not prime, and its least prime factor is found long
before. -/
theorem FactorsStored.u_fits (stored : FactorsStored n found state) (most : n ≤ uintMax)
    (more : state.u ≤ state.natural) : state.u + 1 ≤ uintMax := by
  have smaller := stored.natural_le
  by_contra wraps
  have last : state.natural = uintMax := by omega
  have three : 3 ∣ state.natural := by
    rw [last]
    decide
  have above := ((stored.divided.rest 3 Nat.prime_three).1 three).2
  have large : 3 + 1 ≤ uintMax := by decide
  omega

/-- A prime is stored behind the others when the array has room. -/
theorem FactorArray.push (array : FactorArray found state) (room : state.nrFactors < state.sz)
    (few : found.length < 32) :
    ∃ factors nrFactors, assignAt state.factors state.nrFactors state.u = some factors ∧
      uintAdd state.nrFactors 1 = some nrFactors ∧
      FactorArray (found ++ [state.u]) { state with factors, nrFactors } := by
  obtain ⟨factors, assigned, filled⟩ := array.filled.push room state.u
  have count := array.filled.count_eq
  have spare := array.spare
  have limit : 32 ≤ uintMax := by decide
  have more : state.sz ≤ (found ++ [state.u]).length + defszFactors := by
    rw [List.length_append]
    omega
  exact ⟨factors, state.nrFactors + 1, assigned, if_pos (by omega), filled, more⟩

/-- The body passes over a number that does not divide what is left, and stores one that does. -/
theorem FactorsStored.body (stored : FactorsStored n found state) (most : n ≤ uintMax)
    (unlimited : ¬mayStop → allocator.Unlimited) :
    Ends mayStop (fun after => after.u = state.u ∧ after.natural ≤ state.natural ∧
      ∃ more, DividedBelow n (state.u + 1) after.natural more ∧ FactorArray more after)
      (factorBody allocator state) := by
  have atLeast := stored.atLeast
  unfold factorBody
  rw [if_neg (by omega)]
  by_cases divides : state.natural % state.u = 0
  · rw [if_pos divides]
    apply (divideOut_ends atLeast stored.divided.positive divides).bind
    rintro smaller ⟨times, powers, out⟩
    have divided := stored.divided.divide atLeast powers out
    have few := few_primes divided most
    rw [List.length_append, List.length_singleton] at few
    have array : FactorArray found { state with natural := smaller } :=
      ⟨stored.array.filled, stored.array.spare⟩
    apply (array.expand (by omega) unlimited).bind
    rintro after ⟨grown, room, natural, u⟩
    have natural : after.natural = smaller := natural
    have u : after.u = state.u := u
    obtain ⟨factors, nrFactors, assigned, counted, pushed⟩ := grown.push room (by omega)
    apply Ends.defined_bind assigned
    apply Ends.defined_bind counted
    have smallerLe : smaller ≤ state.natural :=
      Nat.le_of_dvd stored.divided.positive (powers ▸ dvd_mul_left smaller _)
    have same : found ++ [after.u] = found ++ [state.u] := by rw [u]
    rw [← natural] at divided smallerLe
    rw [same] at pushed
    exact .returns ⟨u, smallerLe, found ++ [state.u], divided, pushed⟩
  · rw [if_neg divides]
    exact .returns ⟨rfl, le_rfl, found, stored.divided.skip fun again =>
      divides (Nat.mod_eq_zero_of_dvd again), stored.array⟩

/-! ## All turns -/

/-- A turn goes on to the next divisor, which is nearer to what is left. -/
theorem FactorsStored.turn (stored : FactorsStored n found state) (most : n ≤ uintMax)
    (unlimited : ¬mayStop → allocator.Unlimited) (more : state.u ≤ state.natural) :
    Ends mayStop (fun after => (∃ found, FactorsStored n found after) ∧
      after.natural + 1 - after.u < state.natural + 1 - state.u) (factorTurn allocator state) := by
  have fits := stored.u_fits most more
  have atLeast := stored.atLeast
  apply (stored.body most unlimited).bind
  rintro after ⟨u, natural, found, divided, array⟩
  rw [← u] at fits divided
  apply Ends.defined_bind (if_pos fits)
  refine .returns ⟨⟨found, divided, ?_, ⟨array.filled, array.spare⟩⟩, ?_⟩
  · show 2 ≤ after.u + 1
    omega
  · show after.natural + 1 - (after.u + 1) < state.natural + 1 - state.u
    omega

/-- The loop ends with the prime divisors in the array. -/
theorem factorLoop_ends {factors : List ℕ} (positive : 0 < natural) (most : natural ≤ uintMax)
    (size : factors.length = defszFactors) (unlimited : ¬mayStop → allocator.Unlimited) :
    Ends mayStop (fun final => ∃ found, PrimeDivisors natural found ∧
        Filled found final.factors final.nrFactors final.sz)
      (whileLoop (fun state : FactorState => state.u ≤ state.natural) (factorTurn allocator)
        natural ⟨natural, 2, defszFactors, factors, 0⟩) := by
  have begun : FactorsStored natural [] ⟨natural, 2, defszFactors, factors, 0⟩ :=
    ⟨DividedBelow.start positive, le_rfl, ⟨List.nil_prefix, rfl, size⟩, (Nat.zero_add _).ge⟩
  have near : natural + 1 - 2 < natural := by omega
  apply (Ends.whileLoop (fun state => ∃ found, FactorsStored natural found state)
    (fun state => state.natural + 1 - state.u) ⟨[], begun⟩ near ?_).mono
  · rintro final ⟨⟨found, stored⟩, passed⟩
    exact ⟨found, stored.divided.finish (not_le.1 passed), stored.array.filled⟩
  · rintro state ⟨found, stored⟩ more
    exact stored.turn most unlimited more

/-- Without enough memory `prime_factors` returns `NULL` and stores no factors, and otherwise it
returns an array that begins with the prime divisors. -/
theorem primeFactors_returns (atLeast : 2 ≤ natural) (most : natural ≤ uintMax) :
    ∃ result, primeFactors allocator natural = .ok result ∧
      (¬allocator.Unlimited ∧ result.factors = none ∧ result.nrFactors = 0 ∨
        ∃ factors found, result.factors = some factors ∧ PrimeDivisors natural found ∧
          Filled found factors result.nrFactors factors.length) := by
  unfold primeFactors
  rw [if_neg (by omega)]
  cases block : allocator.malloc defszFactors with
  | none => exact ⟨_, rfl, Or.inl ⟨fun unlimited => unlimited.malloc _ block, rfl, rfl⟩⟩
  | some factors =>
    have loop : Ends (¬allocator.Unlimited) _ _ := factorLoop_ends (by omega) most
      (allocator.malloc_length block) not_not.1
    dsimp only
    match ended : whileLoop (fun state : FactorState => state.u ≤ state.natural)
        (factorTurn allocator) natural ⟨natural, 2, defszFactors, factors, 0⟩ with
    | .ok final =>
      rw [ended] at loop
      obtain ⟨found, divisors, filled⟩ := loop.value
      exact ⟨_, rfl, Or.inr ⟨final.factors, found, rfl, divisors, filled.front, filled.count_eq,
        rfl⟩⟩
    | .error .outOfMemory =>
      rw [ended] at loop
      exact ⟨_, rfl, Or.inl ⟨loop.lacking, rfl, rfl⟩⟩
    | .error .undefined =>
      rw [ended] at loop
      exact absurd rfl loop.not_undefined

/-- `prime_factors` stores the prime divisors of a number, in ascending order, inside its array. -/
theorem primeFactors_distinct {natural : ℕ} (unlimited : allocator.Unlimited)
    (atLeast : 2 ≤ natural) (most : natural ≤ uintMax) :
    ∃ factors nrFactors, primeFactors allocator natural = .ok ⟨some factors, nrFactors⟩ ∧
      nrFactors ≤ factors.length ∧ (factors.take nrFactors).Pairwise (· < ·) ∧
      ∀ p, p ∈ factors.take nrFactors ↔ p.Prime ∧ p ∣ natural := by
  obtain ⟨⟨_, nrFactors⟩, run, ⟨limited, -⟩ | ⟨factors, found, rfl, divisors, filled⟩⟩ :=
    @primeFactors_returns allocator natural atLeast most
  · exact absurd unlimited limited
  · refine ⟨factors, nrFactors, run, filled.count_le, ?_⟩
    rw [filled.take]
    exact ⟨divisors.ascending, divisors.mem_iff⟩

/-- The prime factors of 360. -/
theorem primeFactors_distinct_360 :
    ∃ factors nrFactors,
      primeFactors (Allocator.filling 0) 360 = .ok ⟨some factors, nrFactors⟩ ∧
      nrFactors ≤ factors.length ∧ (factors.take nrFactors).Pairwise (· < ·) ∧
      ∀ p, p ∈ factors.take nrFactors ↔ p.Prime ∧ p ∣ 360 :=
  primeFactors_distinct (Allocator.filling_unlimited 0) (by decide) (by decide)

end Bpcp.Samples
