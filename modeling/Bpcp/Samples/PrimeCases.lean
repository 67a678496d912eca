import Bpcp.Lib.FilledArray
import Bpcp.Lib.MachineInt
import Bpcp.Lib.Run
import Bpcp.Lib.TrialDivision

/-!
# Test cases for prime factors

The unit test of `prime_factors` builds its cases: the primes under 20, their product, their
squares, and products of three of them in which random ones of the three are repeated. Each
case holds a number and its expected prime factors. The numbers that `random` returns are given
by their positions. The assertion that memory is there stops a run, and what comes next is not
defined when a product wraps around or an index is outside an array.
-/

namespace Bpcp.Samples

open Bpcp.Lib Bpcp.Lib.Run

/-- `primes_under_20`. -/
def primesUnder20 : List ℕ := [2, 3, 5, 7, 11, 13, 17, 19]

/-- `struct prime_factors`. -/
structure PrimeFactorsCase where
  /-- `natural`. -/
  natural : ℕ
  /-- `nr_factors`. -/
  nrFactors : ℕ
  /-- `factors`. -/
  factors : List ℕ
  /-- The length of the array in the structure. -/
  size : factors.length = primesUnder20.length

/-- `DEF_SIZE`. -/
def defSize : ℕ := 10

/-- The variables of `generate_test_cases`. -/
structure CaseState where
  /-- `cases`. -/
  cases : List PrimeFactorsCase
  /-- `nr`. -/
  nr : ℕ
  /-- `sz`. -/
  sz : ℕ
  /-- How many numbers `random` has returned. -/
  drawn : ℕ

/-- An assignment to an element of `factors`. -/
def PrimeFactorsCase.setFactor (case : PrimeFactorsCase) (index value : ℕ) :
    Option PrimeFactorsCase :=
  if index < primesUnder20.length then
    some { case with
      factors := case.factors.set index value
      size := by rw [List.length_set, case.size] }
  else none

/-- `EXPAND_SPACE`. -/
def expandSpace (allocator : Allocator PrimeFactorsCase) (state : CaseState) : Run CaseState :=
  if state.nr ≥ state.sz then do
    let sz := state.sz + defSize
    let cases ← allocated (allocator.realloc state.cases sz)
    .ok { state with cases := cases, sz := sz }
  else .ok state

/-- A case is built behind the others, with the numbers of `random` from a position on. -/
def addCase (allocator : Allocator PrimeFactorsCase)
    (build : ℕ → PrimeFactorsCase → Run (PrimeFactorsCase × ℕ)) (state : CaseState) :
    Run CaseState := do
  let state ← expandSpace allocator state
  let case ← defined state.cases[state.nr]?
  let (case, drawn) ← build state.drawn case
  let cases ← defined (assignAt state.cases state.nr case)
  .ok { state with cases := cases, nr := state.nr + 1, drawn := drawn }

/-- `cases[nr].natural` is multiplied by a factor. -/
def multiplyBy (case : PrimeFactorsCase) (factor : Option ℕ) : Run PrimeFactorsCase := do
  let factor ← defined factor
  let natural ← defined (uintMul case.natural factor)
  .ok { case with natural := natural }

/-- The case of a prime number. -/
def primeCase (i drawn : ℕ) (case : PrimeFactorsCase) : Run (PrimeFactorsCase × ℕ) := do
  let prime ← defined primesUnder20[i]?
  let case ← defined ({ case with natural := prime, nrFactors := 1 }.setFactor 0 prime)
  .ok (case, drawn)

/-- The case of the product of all prime numbers under 20. -/
def productCase (drawn : ℕ) (case : PrimeFactorsCase) : Run (PrimeFactorsCase × ℕ) := do
  let case ← forLoop (fun i case => multiplyBy case primesUnder20[i]?) 0 primesUnder20.length
    { case with natural := 1 }
  let case ← forLoop (fun i (case : PrimeFactorsCase) => do
      let prime ← defined primesUnder20[i]?
      defined (case.setFactor i prime))
    0 primesUnder20.length { case with nrFactors := primesUnder20.length }
  .ok (case, drawn)

/-- The case of the square of a prime number. -/
def squareCase (i drawn : ℕ) (case : PrimeFactorsCase) : Run (PrimeFactorsCase × ℕ) := do
  let prime ← defined primesUnder20[i]?
  let natural ← defined (uintMul prime prime)
  let case ← defined ({ case with natural := natural, nrFactors := 1 }.setFactor 0 prime)
  .ok (case, drawn)

/-- The variables of the loop that repeats random factors. -/
structure RepeatState where
  /-- `cases[nr]`. -/
  case : PrimeFactorsCase
  /-- `j`. -/
  j : ℕ
  /-- How many numbers `random` has returned. -/
  drawn : ℕ

/-- A turn of the loop that repeats random factors. Its condition has drawn a number before. -/
def repeatFactor (random : ℕ → ℕ) (state : RepeatState) : Run RepeatState := do
  let case ← multiplyBy state.case state.case.factors[random (state.drawn + 1) % 3]?
  .ok ⟨case, state.j + 1, state.drawn + 2⟩

/-- A random case. The last condition of the loop has drawn a number, too. -/
def randomCase (random : ℕ → ℕ) (i drawn : ℕ) (case : PrimeFactorsCase) :
    Run (PrimeFactorsCase × ℕ) := do
  let case := { case with nrFactors := 3 }
  let prime ← defined primesUnder20[0]?
  let case ← defined (case.setFactor 0 prime)
  let prime ← defined primesUnder20[1 + i % (primesUnder20.length - 2)]?
  let case ← defined (case.setFactor 1 prime)
  let prime ← defined primesUnder20[primesUnder20.length - 1]?
  let case ← defined (case.setFactor 2 prime)
  let case := { case with natural := 1 }
  let case ← multiplyBy case case.factors[0]?
  let case ← multiplyBy case case.factors[1]?
  let case ← multiplyBy case case.factors[2]?
  let state ← whileLoop (fun state : RepeatState => state.j < random state.drawn % 5)
    (repeatFactor random) 5 ⟨case, 0, drawn⟩
  .ok (state.case, state.drawn + 1)

/-- `generate_test_cases`, with the cases and `*nr_cases`. -/
def generateTestCases (allocator : Allocator PrimeFactorsCase) (random : ℕ → ℕ) :
    Run (List PrimeFactorsCase × ℕ) := do
  let state : CaseState := ⟨[], 0, 0, 0⟩
  let state ← forLoop (fun i => addCase allocator (primeCase i)) 0 primesUnder20.length state
  let state ← addCase allocator productCase state
  let state ← forLoop (fun i => addCase allocator (squareCase i)) 0 primesUnder20.length state
  let state ← forLoop (fun i => addCase allocator (randomCase random i)) 0 100 state
  .ok (state.cases, state.nr)

variable {case : PrimeFactorsCase} {mayStop : Prop} {stored : List ℕ}

/-! ## One case -/

/-- A case expects the prime divisors of its number, which has at most eight of them. -/
structure PrimeFactorsCase.Expects (case : PrimeFactorsCase) : Prop where
  /-- The number of factors. -/
  few : case.nrFactors ≤ 8
  /-- The factors. -/
  divisors : PrimeDivisors case.natural (case.factors.take case.nrFactors)

/-- A factor is stored behind the others. -/
theorem PrimeFactorsCase.setFactor_behind (case : PrimeFactorsCase)
    (front : stored <+: case.factors) (room : stored.length < primesUnder20.length) (value : ℕ) :
    ∃ after, case.setFactor stored.length value = some after ∧ after.natural = case.natural ∧
      after.nrFactors = case.nrFactors ∧ stored ++ [value] <+: after.factors := by
  have inside : stored.length < case.factors.length := room.trans_eq case.size.symm
  obtain ⟨factors, assigned, -, grown⟩ := assignAt_behind front inside value
  rw [assignAt, if_pos inside] at assigned
  rw [← Option.some.inj assigned] at grown
  exact ⟨_, if_pos room, rfl, rfl, grown⟩

/-- A product that fits is stored. -/
theorem multiplyBy_eq {factor : Option ℕ} {value : ℕ} (found : factor = some value)
    (fits : case.natural * value ≤ uintMax) :
    multiplyBy case factor = .ok { case with natural := case.natural * value } := by
  rw [found]
  show defined (uintMul case.natural value) >>= _ = _
  rw [uintMul, if_pos fits]
  rfl

/-- A run goes on with a product that fits. -/
theorem multiplyBy_bind {β : Type} {next : PrimeFactorsCase → Run β} {post : β → Prop}
    {factor : Option ℕ} {value : ℕ} (found : factor = some value)
    (fits : case.natural * value ≤ uintMax)
    (rest : Ends mayStop post (next { case with natural := case.natural * value })) :
    Ends mayStop post (multiplyBy case factor >>= next) := by
  rw [multiplyBy_eq found fits]
  exact rest

/-- The first factors of a case are the ones stored there. -/
theorem PrimeFactorsCase.expects (front : stored <+: case.factors)
    (count : case.nrFactors = stored.length) (room : stored.length ≤ primesUnder20.length)
    (divisors : PrimeDivisors case.natural stored) : case.Expects where
  few := count.trans_le room
  divisors := by
    rwa [count, ← List.prefix_iff_eq_take.1 front]

/-- The primes under 20 are prime. -/
theorem primesUnder20_prime : ∀ p ∈ primesUnder20, p.Prime ∧ p ≤ 19 := by
  simp only [primesUnder20, List.forall_mem_cons]
  norm_num

/-- The primes under 20 ascend. -/
theorem primesUnder20_ascending : primesUnder20.Pairwise (· < ·) := by decide

/-- A prime under 20 in its place. -/
theorem primesUnder20_get {i : ℕ} (inside : i < primesUnder20.length) :
    ∃ p, primesUnder20[i]? = some p ∧ p.Prime ∧ p ≤ 19 := by
  have member := List.getElem_mem inside
  exact ⟨_, List.getElem?_eq_getElem inside, primesUnder20_prime _ member⟩

/-- A prime is its only prime divisor. -/
theorem primeDivisors_prime {p : ℕ} (prime : p.Prime) : PrimeDivisors p [p] := by
  have product := primeDivisors_prod (List.pairwise_singleton (· < ·) p)
    fun q member => List.mem_singleton.1 member ▸ prime
  rwa [List.prod_singleton] at product

/-- A case with one prime divisor is right. -/
theorem setFactor_single (case : PrimeFactorsCase) {n p : ℕ} (divisors : PrimeDivisors n [p]) :
    ∃ after, { case with natural := n, nrFactors := 1 }.setFactor 0 p = some after ∧
      after.Expects := by
  obtain ⟨after, assigned, natural, count, front⟩ := PrimeFactorsCase.setFactor_behind
    { case with natural := n, nrFactors := 1 } List.nil_prefix (by decide) p
  have natural : after.natural = n := natural
  have room : 1 ≤ primesUnder20.length := by decide
  rw [← natural] at divisors
  exact ⟨after, assigned, PrimeFactorsCase.expects front count room divisors⟩

/-- The case of a prime number is right. -/
theorem primeCase_ends {i : ℕ} (inside : i < primesUnder20.length) (drawn : ℕ)
    (case : PrimeFactorsCase) :
    Ends mayStop (fun built => built.1.Expects) (primeCase i drawn case) := by
  obtain ⟨p, found, prime, -⟩ := primesUnder20_get inside
  obtain ⟨after, assigned, expects⟩ := setFactor_single case (primeDivisors_prime prime)
  apply Ends.defined_bind found
  apply Ends.defined_bind assigned
  exact .returns expects

/-- The case of the square of a prime number is right. -/
theorem squareCase_ends {i : ℕ} (inside : i < primesUnder20.length) (drawn : ℕ)
    (case : PrimeFactorsCase) :
    Ends mayStop (fun built => built.1.Expects) (squareCase i drawn case) := by
  obtain ⟨p, found, prime, small⟩ := primesUnder20_get inside
  obtain ⟨after, assigned, expects⟩ :=
    setFactor_single case ((primeDivisors_prime prime).mul List.mem_cons_self)
  have fits : p * p ≤ uintMax := (Nat.mul_le_mul small small).trans (by decide)
  apply Ends.defined_bind found
  apply Ends.defined_bind (if_pos fits)
  apply Ends.defined_bind assigned
  exact .returns expects

/-- The products of the first primes under 20 fit. -/
theorem primesUnder20_product {i : ℕ} (inside : i < primesUnder20.length) :
    ∃ p, primesUnder20[i]? = some p ∧ (primesUnder20.take i).prod * p ≤ uintMax ∧
      primesUnder20.take (i + 1) = primesUnder20.take i ++ [p] := by
  have most : ∀ i < primesUnder20.length,
      (primesUnder20.take i).prod * primesUnder20.getD i 0 ≤ uintMax := by decide
  refine ⟨primesUnder20[i], List.getElem?_eq_getElem inside, ?_, ?_⟩
  · rw [← List.getD_eq_getElem primesUnder20 0 inside]
    exact most i inside
  · exact List.take_succ_eq_append_getElem inside

/-- The primes under 20 are multiplied. -/
theorem productLoop_ends (case : PrimeFactorsCase) (one : case.natural = 1) :
    Ends mayStop (fun after : PrimeFactorsCase => after.natural = primesUnder20.prod)
      (forLoop (fun i case => multiplyBy case primesUnder20[i]?) 0 primesUnder20.length case) := by
  apply (Ends.forLoop (fun i case => case.natural = (primesUnder20.take i).prod) one ?_).mono
  · intro after natural
    rwa [Nat.zero_add, List.take_length] at natural
  · intro i case _ inside natural
    obtain ⟨p, found, fits, next⟩ := primesUnder20_product (inside.trans_eq (Nat.zero_add _))
    rw [← natural] at fits
    rw [multiplyBy_eq found fits]
    apply Ends.returns
    show case.natural * p = (primesUnder20.take (i + 1)).prod
    rw [next, List.prod_append, List.prod_singleton, natural]

/-- The primes under 20 are stored. -/
theorem factorsLoop_ends (case : PrimeFactorsCase) :
    Ends mayStop (fun after : PrimeFactorsCase => primesUnder20 <+: after.factors ∧
        after.natural = case.natural ∧ after.nrFactors = case.nrFactors)
      (forLoop (fun i (case : PrimeFactorsCase) => do
        let prime ← defined primesUnder20[i]?
        defined (case.setFactor i prime)) 0 primesUnder20.length case) := by
  apply (Ends.forLoop (fun i after => primesUnder20.take i <+: after.factors ∧
    after.natural = case.natural ∧ after.nrFactors = case.nrFactors) ?_ ?_).mono
  · rintro after ⟨front, same⟩
    rw [Nat.zero_add, List.take_length] at front
    exact ⟨front, same⟩
  · exact ⟨List.nil_prefix, rfl, rfl⟩
  · rintro i before - inside ⟨front, natural, count⟩
    rw [Nat.zero_add] at inside
    obtain ⟨p, found, -, next⟩ := primesUnder20_product inside
    have place : (primesUnder20.take i).length = i := List.length_take_of_le inside.le
    obtain ⟨after, assigned, naturalAfter, countAfter, grown⟩ :=
      before.setFactor_behind front (by rwa [place]) p
    rw [place] at assigned
    rw [← next] at grown
    apply Ends.defined_bind found
    rw [assigned]
    exact .returns ⟨grown, naturalAfter.trans natural, countAfter.trans count⟩

/-- The case of the product of all primes under 20 is right. -/
theorem productCase_ends (drawn : ℕ) (case : PrimeFactorsCase) :
    Ends mayStop (fun built => built.1.Expects) (productCase drawn case) := by
  unfold productCase
  apply (productLoop_ends { case with natural := 1 } rfl).bind
  intro multiplied natural
  apply (factorsLoop_ends { multiplied with nrFactors := primesUnder20.length }).bind
  rintro after ⟨front, same, count⟩
  have divisors := primeDivisors_prod primesUnder20_ascending
    fun p member => (primesUnder20_prime p member).1
  have same : after.natural = multiplied.natural := same
  rw [← natural, ← same] at divisors
  exact .returns (PrimeFactorsCase.expects front count le_rfl divisors)

/-- The prime in the middle of a random case lies between the others. -/
theorem middlePrime (i : ℕ) :
    ∃ p, primesUnder20[1 + i % (primesUnder20.length - 2)]? = some p ∧
      p.Prime ∧ 2 < p ∧ p ≤ 17 := by
  have inside : i % 6 < 6 := Nat.mod_lt _ (by decide)
  show ∃ p, primesUnder20[1 + i % 6]? = some p ∧ p.Prime ∧ 2 < p ∧ p ≤ 17
  generalize i % 6 = place at inside
  interval_cases place
  all_goals
    refine ⟨_, rfl, ?_⟩
    norm_num

/-- The factors at the front of an array are read there. -/
theorem read_front {array : List ℕ} (front : stored <+: array) {index : ℕ}
    (inside : index < stored.length) : ∃ value ∈ stored, array[index]? = some value := by
  obtain ⟨rest, rfl⟩ := front
  rw [List.getElem?_append_left inside, List.getElem?_eq_getElem inside]
  exact ⟨_, List.getElem_mem inside, rfl⟩

/-- A random case with its three factors, and a number of them repeated. -/
structure Repeats (factors : List ℕ) (case : PrimeFactorsCase) (times : ℕ) : Prop where
  /-- The factors are stored. -/
  front : factors <+: case.factors
  /-- There are three of them. -/
  count : case.nrFactors = 3
  /-- They are the prime divisors. -/
  divisors : PrimeDivisors case.natural factors
  /-- The product of the three and of the repeated ones is bounded. -/
  small : case.natural ≤ 646 * 19 ^ times

variable {factors : List ℕ} {random : ℕ → ℕ}

/-- A random one of three factors is repeated. -/
theorem Repeats.again {times : ℕ} (repeats : Repeats factors case times) (few : times < 4)
    (three : factors.length = 3) (most : ∀ factor ∈ factors, factor ≤ 19) (draw : ℕ) :
    Ends mayStop (fun after => Repeats factors after (times + 1))
      (multiplyBy case case.factors[draw % 3]?) := by
  have inside : draw % 3 < factors.length :=
    (Nat.mod_lt draw (show 0 < 3 by decide)).trans_eq three.symm
  obtain ⟨factor, member, found⟩ := read_front repeats.front inside
  have bound : case.natural * factor ≤ 646 * 19 ^ (times + 1) := by
    rw [pow_succ, ← mul_assoc]
    exact Nat.mul_le_mul repeats.small (most factor member)
  have largest : 646 * 19 ^ (times + 1) ≤ 646 * 19 ^ 4 :=
    Nat.mul_le_mul_left _ (Nat.pow_le_pow_right (by decide) few)
  rw [multiplyBy_eq found (bound.trans (largest.trans (by decide)))]
  exact .returns ⟨repeats.front, repeats.count, repeats.divisors.mul member, bound⟩

/-- The loop repeats at most four factors, whatever `random` returns. -/
theorem repeatLoop_ends (repeats : Repeats factors case 0) (three : factors.length = 3)
    (most : ∀ factor ∈ factors, factor ≤ 19) (drawn : ℕ) :
    Ends mayStop (fun final : RepeatState => ∃ times, Repeats factors final.case times)
      (whileLoop (fun state : RepeatState => state.j < random state.drawn % 5)
        (repeatFactor random) 5 ⟨case, 0, drawn⟩) := by
  apply (Ends.whileLoop (fun state : RepeatState => Repeats factors state.case state.j)
    (fun state => 4 - state.j) repeats (show 4 - 0 < 5 by decide) ?_).mono
  · rintro final ⟨repeats, -⟩
    exact ⟨final.j, repeats⟩
  · intro state repeats more
    have limit : random state.drawn % 5 < 5 := Nat.mod_lt _ (by decide)
    apply (repeats.again (by omega) three most _).bind
    intro after again
    refine .returns ⟨again, ?_⟩
    show 4 - (state.j + 1) < 4 - state.j
    omega

/-- Three factors are stored. -/
theorem setFactor_three (case : PrimeFactorsCase) (a b c : ℕ) :
    ∃ first second third, case.setFactor 0 a = some first ∧ first.setFactor 1 b = some second ∧
      second.setFactor 2 c = some third ∧ third.nrFactors = case.nrFactors ∧
      [a, b, c] <+: third.factors := by
  obtain ⟨first, storedA, -, countA, frontA⟩ :=
    case.setFactor_behind List.nil_prefix (show 0 < primesUnder20.length by decide) a
  obtain ⟨second, storedB, -, countB, frontB⟩ :=
    first.setFactor_behind frontA (show 1 < primesUnder20.length by decide) b
  obtain ⟨third, storedC, -, countC, frontC⟩ :=
    second.setFactor_behind frontB (show 2 < primesUnder20.length by decide) c
  exact ⟨first, second, third, storedA, storedB, storedC,
    countC.trans (countB.trans countA), frontC⟩

/-- The product of the first and the last prime under 20 and of one between them has these prime
divisors. -/
theorem primeDivisors_three {p : ℕ} (prime : p.Prime) (above : 2 < p) (below : p ≤ 17) :
    PrimeDivisors (1 * 2 * p * 19) [2, p, 19] := by
  have ascending : [2, p, 19].Pairwise (· < ·) := by
    simp only [List.pairwise_cons, List.forall_mem_cons]
    simp [above, Nat.lt_of_le_of_lt below]
  have primes : ∀ q ∈ [2, p, 19], q.Prime := by
    simp only [List.forall_mem_cons, prime, true_and]
    norm_num
  have product := primeDivisors_prod ascending primes
  rwa [List.prod_cons, List.prod_cons, List.prod_singleton, ← mul_assoc, ← one_mul 2] at product

/-- A random case is right, whatever `random` returns. -/
theorem randomCase_ends (random : ℕ → ℕ) (i drawn : ℕ) (case : PrimeFactorsCase) :
    Ends mayStop (fun built => built.1.Expects) (randomCase random i drawn case) := by
  obtain ⟨p, middle, prime, above, below⟩ := middlePrime i
  obtain ⟨first, second, third, storedFirst, storedSecond, storedThird, count, front⟩ :=
    setFactor_three { case with nrFactors := 3 } 2 p 19
  have read {value index : ℕ} (found : [2, p, 19][index]? = some value) :
      third.factors[index]? = some value := by
    obtain ⟨rest, whole⟩ := front
    rw [← whole, List.getElem?_append_left (List.getElem?_eq_some_iff.1 found).1]
    exact found
  have small : 1 * 2 * p * 19 ≤ 646 * 19 ^ 0 := by omega
  have limit : 646 ≤ uintMax := by decide
  unfold randomCase
  apply Ends.defined_bind (show primesUnder20[0]? = some 2 from rfl)
  apply Ends.defined_bind storedFirst
  apply Ends.defined_bind middle
  apply Ends.defined_bind storedSecond
  apply Ends.defined_bind (show primesUnder20[primesUnder20.length - 1]? = some 19 from rfl)
  apply Ends.defined_bind storedThird
  apply multiplyBy_bind (read rfl) (show 1 * 2 ≤ uintMax by decide)
  apply multiplyBy_bind (read rfl) (show 1 * 2 * p ≤ uintMax by omega)
  apply multiplyBy_bind (read rfl) (show 1 * 2 * p * 19 ≤ uintMax by omega)
  have most : ∀ factor ∈ [2, p, 19], factor ≤ 19 := by
    simp
    omega
  have repeats : Repeats [2, p, 19] { third with natural := 1 * 2 * p * 19 } 0 :=
    ⟨front, count, primeDivisors_three prime above below, small⟩
  apply (repeatLoop_ends repeats rfl most drawn).bind
  rintro final ⟨times, repeats⟩
  have few : 3 ≤ primesUnder20.length := by decide
  exact .returns
    (PrimeFactorsCase.expects repeats.front repeats.count few repeats.divisors)

/-! ## All cases -/

/-- A number of cases have been built, and they are right. -/
structure CasesBuilt (number : ℕ) (built : List PrimeFactorsCase) (state : CaseState) : Prop where
  /-- The array begins with the cases. -/
  filled : Filled built state.cases state.nr state.sz
  /-- `nr` counts them. -/
  count : state.nr = number
  /-- The cases are right. -/
  expects : ∀ case ∈ built, case.Expects

variable {allocator : Allocator PrimeFactorsCase} {state : CaseState} {number : ℕ}
  {built : List PrimeFactorsCase}

/-- Behind `EXPAND_SPACE` there is room for another case. -/
theorem CasesBuilt.expand (cases : CasesBuilt number built state)
    (unlimited : ¬mayStop → allocator.Unlimited) :
    Ends mayStop (fun after => CasesBuilt number built after ∧ after.nr < after.sz)
      (expandSpace allocator state) := by
  unfold expandSpace
  by_cases full : state.nr ≥ state.sz
  · rw [if_pos full]
    apply Ends.allocated_bind
    · intro none
      by_contra cannot
      exact (unlimited cannot).realloc _ _ none
    · intro moved found
      have filled := Allocator.filled_move cases.filled (Nat.le_add_right _ _) found
      have within := cases.filled.count_le
      have room : state.nr < state.sz + defSize := by
        have more : 0 < defSize := by decide
        omega
      exact .returns ⟨⟨filled, cases.count, cases.expects⟩, room⟩
  · rw [if_neg full]
    exact .returns ⟨cases, not_le.1 full⟩

/-- A right case is built behind the others. -/
theorem CasesBuilt.add (cases : CasesBuilt number built state)
    (unlimited : ¬mayStop → allocator.Unlimited)
    {build : ℕ → PrimeFactorsCase → Run (PrimeFactorsCase × ℕ)}
    (right : ∀ drawn case, Ends mayStop (fun made => made.1.Expects) (build drawn case)) :
    Ends mayStop (fun after => ∃ built, CasesBuilt (number + 1) built after)
      (addCase allocator build state) := by
  apply (cases.expand unlimited).bind
  rintro after ⟨cases, room⟩
  have inside : after.nr < after.cases.length := room.trans_eq cases.filled.capacity_eq.symm
  apply Ends.defined_bind (List.getElem?_eq_getElem inside)
  apply (right _ _).bind
  rintro ⟨made, drawn⟩ expects
  obtain ⟨array, assigned, filled⟩ := cases.filled.push room made
  apply Ends.defined_bind assigned
  refine .returns ⟨built ++ [made], filled, congrArg (· + 1) cases.count, ?_⟩
  intro case member
  rcases List.mem_append.1 member with before | last
  · exact cases.expects case before
  · rw [List.mem_singleton.1 last]
    exact expects

/-- A loop that builds a right case in each turn. -/
theorem CasesBuilt.loop (cases : CasesBuilt number built state)
    (unlimited : ¬mayStop → allocator.Unlimited) (turns : ℕ)
    {build : ℕ → ℕ → PrimeFactorsCase → Run (PrimeFactorsCase × ℕ)}
    (right : ∀ i < turns, ∀ drawn case,
      Ends mayStop (fun made => made.1.Expects) (build i drawn case)) :
    Ends mayStop (fun after => ∃ built, CasesBuilt (number + turns) built after)
      (forLoop (fun i => addCase allocator (build i)) 0 turns state) := by
  have begun : ∃ built, CasesBuilt (number + 0) built state := ⟨built, cases⟩
  apply (Ends.forLoop (fun i after => ∃ built, CasesBuilt (number + i) built after) begun ?_).mono
  · intro after all
    rwa [Nat.zero_add] at all
  · rintro i state - inside ⟨built, cases⟩
    exact cases.add unlimited (right i (by omega))

/-- `generate_test_cases` builds 117 right cases, or memory runs out. -/
theorem generateTestCases_ends (random : ℕ → ℕ) (unlimited : ¬mayStop → allocator.Unlimited) :
    Ends mayStop (fun result => result.2 = 117 ∧ result.2 ≤ result.1.length ∧
      ∀ case ∈ result.1.take result.2, case.Expects) (generateTestCases allocator random) := by
  have begun : CasesBuilt 0 [] ⟨[], 0, 0, 0⟩ :=
    ⟨⟨List.nil_prefix, rfl, rfl⟩, rfl, fun _ member => absurd member List.not_mem_nil⟩
  unfold generateTestCases
  apply (begun.loop unlimited primesUnder20.length fun i inside => primeCase_ends inside).bind
  rintro primes ⟨built, cases⟩
  apply (cases.add unlimited productCase_ends).bind
  rintro product ⟨built, cases⟩
  apply (cases.loop unlimited primesUnder20.length fun i inside => squareCase_ends inside).bind
  rintro squares ⟨built, cases⟩
  apply (cases.loop unlimited 100 fun i _ => randomCase_ends random i).bind
  rintro final ⟨built, cases⟩
  refine .returns ⟨cases.count, cases.filled.count_le.trans_eq cases.filled.capacity_eq.symm, ?_⟩
  rw [cases.filled.take]
  exact cases.expects

/-- Whatever `random` returns, `generate_test_cases` multiplies without wrapping around, and each
of its 117 cases expects the prime divisors of its number, in ascending order. It builds them
unless its assertion that memory is there fails. -/
theorem generateTestCases_expects (allocator : Allocator PrimeFactorsCase) (random : ℕ → ℕ) :
    generateTestCases allocator random ≠ .error .undefined ∧
      (allocator.Unlimited → ∃ result, generateTestCases allocator random = .ok result) ∧
      ∀ cases nr, generateTestCases allocator random = .ok (cases, nr) →
        nr = 117 ∧ nr ≤ cases.length ∧ ∀ case ∈ cases.take nr, case.nrFactors ≤ 8 ∧
          (case.factors.take case.nrFactors).Pairwise (· < ·) ∧
          ∀ p, p ∈ case.factors.take case.nrFactors ↔ p.Prime ∧ p ∣ case.natural := by
  have ends : Ends (¬allocator.Unlimited) _ _ :=
    generateTestCases_ends random fun limited => not_not.1 limited
  refine ⟨ends.not_undefined, ?_, ?_⟩
  · intro unlimited
    obtain ⟨result, built, -⟩ := ends.exists_value (not_not.2 unlimited)
    exact ⟨result, built⟩
  · intro cases nr built
    rw [built] at ends
    obtain ⟨count, inside, right⟩ := ends.value
    refine ⟨count, inside, fun case member => ?_⟩
    have expects := right case member
    exact ⟨expects.few, expects.divisors.ascending, expects.divisors.mem_iff⟩

/-- The cases are built when memory is there. -/
theorem generateTestCases_expects_counting :
    ∃ cases, generateTestCases
        (Allocator.filling ⟨0, 0, List.replicate 8 0, rfl⟩) (fun position => position) =
          .ok (cases, 117) ∧ 117 ≤ cases.length ∧
      ∀ case ∈ cases.take 117, case.nrFactors ≤ 8 ∧
        (case.factors.take case.nrFactors).Pairwise (· < ·) ∧
        ∀ p, p ∈ case.factors.take case.nrFactors ↔ p.Prime ∧ p ∣ case.natural := by
  obtain ⟨-, returns, right⟩ := generateTestCases_expects
    (Allocator.filling ⟨0, 0, List.replicate 8 0, rfl⟩) (fun position => position)
  obtain ⟨⟨cases, nr⟩, built⟩ := returns (Allocator.filling_unlimited _)
  obtain ⟨rfl, inside, expects⟩ := right cases nr built
  exact ⟨cases, built, inside, expects⟩

end Bpcp.Samples
