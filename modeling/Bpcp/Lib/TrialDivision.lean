import Mathlib

/-!
# Trial division

Trial division takes the divisors of a number in ascending order and divides each of them out
until it does not divide what is left any more. A divisor that is found so is prime, because
its own divisors are gone, and when the divisors have passed what is left, all primes have been
found.
-/

namespace Bpcp.Lib

/-- The list has the prime divisors of a number, in ascending order. -/
structure PrimeDivisors (n : ℕ) (factors : List ℕ) : Prop where
  /-- The order. -/
  ascending : factors.Pairwise (· < ·)
  /-- The members. -/
  mem_iff : ∀ p, p ∈ factors ↔ p.Prime ∧ p ∣ n

/-- The prime divisors below a bound have been found and divided out, and a cofactor is left. -/
structure DividedBelow (n bound cofactor : ℕ) (factors : List ℕ) : Prop where
  /-- Something is left. -/
  positive : 0 < cofactor
  /-- The primes were found in ascending order. -/
  ascending : factors.Pairwise (· < ·)
  /-- The primes that were found. -/
  mem_iff : ∀ p, p ∈ factors ↔ p.Prime ∧ p ∣ n ∧ p < bound
  /-- The primes that are left. -/
  rest : ∀ p, p.Prime → (p ∣ cofactor ↔ p ∣ n ∧ bound ≤ p)
  /-- Each prime that was found has at least halved what was left. -/
  few : 2 ^ factors.length * cofactor ≤ n

variable {n bound cofactor smaller : ℕ} {factors : List ℕ}

/-- A product of ascending primes has these prime divisors. -/
theorem primeDivisors_prod (ascending : factors.Pairwise (· < ·))
    (primes : ∀ p ∈ factors, p.Prime) : PrimeDivisors factors.prod factors where
  ascending := ascending
  mem_iff := by
    intro p
    constructor
    · intro member
      exact ⟨primes p member, List.dvd_prod member⟩
    · rintro ⟨prime, divides⟩
      obtain ⟨q, member, inner⟩ := (Prime.dvd_prod_iff prime.prime).1 divides
      rwa [(Nat.prime_dvd_prime_iff_eq prime (primes q member)).1 inner]

/-- A number has the same prime divisors when it is multiplied by one of them. -/
theorem PrimeDivisors.mul (divisors : PrimeDivisors n factors) {factor : ℕ}
    (member : factor ∈ factors) : PrimeDivisors (n * factor) factors where
  ascending := divisors.ascending
  mem_iff := by
    intro p
    obtain ⟨prime, divides⟩ := (divisors.mem_iff factor).1 member
    rw [divisors.mem_iff]
    constructor
    · rintro ⟨primeP, dividesN⟩
      exact ⟨primeP, dividesN.mul_right factor⟩
    · rintro ⟨primeP, dividesProduct⟩
      rcases primeP.dvd_mul.1 dividesProduct with dividesN | dividesFactor
      · exact ⟨primeP, dividesN⟩
      · rw [(Nat.prime_dvd_prime_iff_eq primeP prime).1 dividesFactor]
        exact ⟨prime, divides⟩

namespace DividedBelow

/-- At first nothing is divided out. -/
theorem start (positive : 0 < n) : DividedBelow n 2 n [] where
  positive := positive
  ascending := List.Pairwise.nil
  mem_iff := by
    intro p
    constructor
    · intro member
      exact absurd member List.not_mem_nil
    · rintro ⟨prime, -, small⟩
      exact absurd prime.two_le (by omega)
  rest := by
    intro p prime
    exact ⟨fun divides => ⟨divides, prime.two_le⟩, fun both => both.1⟩
  few := by simp

/-- A number that does not divide what is left is passed over. -/
theorem skip (divided : DividedBelow n bound cofactor factors) (apart : ¬bound ∣ cofactor) :
    DividedBelow n (bound + 1) cofactor factors := by
  have notPrime : ∀ p, p.Prime → p ∣ n → p ≠ bound := by
    rintro p prime divides rfl
    exact apart ((divided.rest p prime).2 ⟨divides, le_rfl⟩)
  refine ⟨divided.positive, divided.ascending, ?_, ?_, divided.few⟩
  · intro p
    rw [divided.mem_iff]
    constructor
    · rintro ⟨prime, divides, below⟩
      exact ⟨prime, divides, by omega⟩
    · rintro ⟨prime, divides, below⟩
      have other := notPrime p prime divides
      exact ⟨prime, divides, by omega⟩
  · intro p prime
    rw [divided.rest p prime]
    constructor
    · rintro ⟨divides, above⟩
      have other := notPrime p prime divides
      exact ⟨divides, by omega⟩
    · rintro ⟨divides, above⟩
      exact ⟨divides, by omega⟩

/-- A number that divides what is left is prime. -/
theorem prime (divided : DividedBelow n bound cofactor factors) (atLeast : 2 ≤ bound)
    (divides : bound ∣ cofactor) : bound.Prime ∧ bound ∣ n := by
  have least := Nat.minFac_prime (show bound ≠ 1 by omega)
  obtain ⟨dividesN, above⟩ :=
    (divided.rest _ least).1 ((Nat.minFac_dvd bound).trans divides)
  have same : bound.minFac = bound := le_antisymm (Nat.minFac_le (by omega)) above
  rw [same] at least dividesN
  exact ⟨least, dividesN⟩

/-- A prime still divides what is left behind a division exactly when it is another one. -/
theorem rest_of_divide (divided : DividedBelow n bound cofactor factors) (prime : bound.Prime)
    {times : ℕ} (powers : cofactor = bound ^ (times + 1) * smaller) (out : ¬bound ∣ smaller)
    {p : ℕ} (primeP : p.Prime) : p ∣ smaller ↔ p ∣ n ∧ bound + 1 ≤ p := by
  constructor
  · intro dividesP
    have before := (divided.rest p primeP).1 (powers ▸ dividesP.mul_left _)
    have other : p ≠ bound := by
      rintro rfl
      exact out dividesP
    exact ⟨before.1, by omega⟩
  · rintro ⟨dividesP, above⟩
    have before := (divided.rest p primeP).2 ⟨dividesP, by omega⟩
    rw [powers] at before
    rcases primeP.dvd_mul.1 before with power | rest
    · have same := (Nat.prime_dvd_prime_iff_eq primeP prime).1 (primeP.dvd_of_dvd_pow power)
      omega
    · exact rest

/-- A number that divides what is left is found and divided out. -/
theorem divide (divided : DividedBelow n bound cofactor factors) (atLeast : 2 ≤ bound)
    {times : ℕ} (powers : cofactor = bound ^ (times + 1) * smaller) (out : ¬bound ∣ smaller) :
    DividedBelow n (bound + 1) smaller (factors ++ [bound]) := by
  have divides : bound ∣ cofactor := powers ▸ (dvd_pow_self bound times.succ_ne_zero).mul_right _
  obtain ⟨prime, dividesN⟩ := divided.prime atLeast divides
  constructor
  · apply Nat.pos_of_ne_zero
    rintro rfl
    exact out (dvd_zero bound)
  · rw [List.pairwise_append]
    refine ⟨divided.ascending, List.pairwise_singleton _ _, ?_⟩
    intro p member q last
    rw [List.mem_singleton.1 last]
    exact ((divided.mem_iff p).1 member).2.2
  · intro p
    rw [List.mem_append, List.mem_singleton, divided.mem_iff]
    constructor
    · rintro (⟨primeP, dividesP, below⟩ | rfl)
      · exact ⟨primeP, dividesP, by omega⟩
      · exact ⟨prime, dividesN, by omega⟩
    · rintro ⟨primeP, dividesP, below⟩
      by_cases last : p = bound
      · exact Or.inr last
      · exact Or.inl ⟨primeP, dividesP, by omega⟩
  · intro p primeP
    exact divided.rest_of_divide prime powers out primeP
  · have halved : 2 * smaller ≤ cofactor := by
      rw [powers]
      exact Nat.mul_le_mul_right smaller (atLeast.trans (Nat.le_self_pow times.succ_ne_zero bound))
    calc
      2 ^ (factors ++ [bound]).length * smaller = 2 ^ factors.length * (2 * smaller) := by
        rw [List.length_append, List.length_singleton, pow_succ, mul_assoc]
      _ ≤ 2 ^ factors.length * cofactor := Nat.mul_le_mul_left _ halved
      _ ≤ n := divided.few

/-- When the bound has passed what is left, the prime divisors have all been found. -/
theorem finish (divided : DividedBelow n bound cofactor factors) (passed : cofactor < bound) :
    PrimeDivisors n factors where
  ascending := divided.ascending
  mem_iff := by
    intro p
    rw [divided.mem_iff]
    constructor
    · rintro ⟨prime, divides, -⟩
      exact ⟨prime, divides⟩
    · rintro ⟨prime, divides⟩
      refine ⟨prime, divides, ?_⟩
      by_contra above
      have left := (divided.rest p prime).2 ⟨divides, not_lt.1 above⟩
      have most := Nat.le_of_dvd divided.positive left
      omega

end DividedBelow

end Bpcp.Lib
