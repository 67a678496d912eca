import Bpcp.Lib.FilledArray
import Bpcp.Lib.MachineInt
import Bpcp.Lib.Run

/-!
# The sieve of Eratosthenes

`EratosthenesSieve` keeps a vector of numbers, in which the multiples of every prime are set to
zero, beginning with its square. The products are of type `unsigned int`. A product that wraps
around may come out small enough to be an index of the vector, and then the loop sets to zero
what is there, and goes on. What comes next is not defined when an index is outside the vector.
-/

namespace Bpcp.Samples

open Bpcp.Lib Bpcp.Lib.Run

/-- The vectors of `EratosthenesSieve`. -/
structure SieveState where
  /-- `num`. -/
  num : List ℕ
  /-- `primes`. -/
  primes : List ℕ

/-- The variables of the inner loop of `EratosthenesSieve`. -/
structure CrossState where
  /-- `j`. -/
  j : ℕ
  /-- `num`. -/
  num : List ℕ

/-- The loop that fills `num`. -/
def fillNum (maxn : ℕ) : Run (List ℕ) :=
  forLoop (fun i num => .ok (num ++ [i])) 0 (maxn + 1) []

/-- The inner loop of `EratosthenesSieve`. -/
def crossOut (maxn i : ℕ) (num : List ℕ) : Run (List ℕ) := do
  let state ← whileLoop
    (fun state : CrossState => state.j < maxn ∧ uintMulWrapped i state.j ≤ maxn)
    (fun state => do
      let num ← defined (assignAt state.num (uintMulWrapped i state.j) 0)
      .ok ⟨state.j + 1, num⟩)
    maxn ⟨i, num⟩
  .ok state.num

/-- A turn of the outer loop of `EratosthenesSieve`. -/
def sieveTurn (maxn i : ℕ) (state : SieveState) : Run SieveState := do
  let value ← defined state.num[i]?
  if value = 0 then .ok state
  else do
    let primes := state.primes ++ [i]
    let num ← crossOut maxn i state.num
    .ok ⟨num, primes⟩

/-- `EratosthenesSieve`, with the vector `primes` that it leaves and its return value. The loops
count up to `maxn` and never end when that is `UINT_MAX`. -/
def eratosthenesSieve (primes : List ℕ) (maxn : ℕ) : Run (List ℕ × ℕ) :=
  if maxn = uintMax then .error .undefined
  else do
    let num ← fillNum maxn
    let num ← defined (assignAt num 1 0)
    let state ← forLoop (sieveTurn maxn) 2 (maxn - 1) ⟨num, primes⟩
    .ok (state.primes, state.primes.length)

variable {maxn i : ℕ} {num after : List ℕ} {mayStop : Prop}

/-! ## The inner loop -/

/-- What the inner loop has crossed out before `j`. -/
structure CrossedOut (maxn i : ℕ) (num : List ℕ) (state : CrossState) : Prop where
  /-- `j` begins with `i`. -/
  start : i ≤ state.j
  /-- The length of the vector. -/
  length : state.num.length = maxn + 1
  /-- The loop went on up to `j`. -/
  within : ∀ l, i ≤ l → l < state.j → l < maxn ∧ uintMulWrapped i l ≤ maxn
  /-- The products are crossed out. -/
  crossed : ∀ l, i ≤ l → l < state.j → state.num[uintMulWrapped i l]? = some 0
  /-- Nothing else is. -/
  kept : ∀ m, (∀ l, i ≤ l → l < state.j → uintMulWrapped i l ≠ m) → state.num[m]? = num[m]?

/-- A turn crosses out one product. -/
theorem CrossedOut.next {state : CrossState} (crossed : CrossedOut maxn i num state)
    (below : state.j < maxn) (small : uintMulWrapped i state.j ≤ maxn) :
    CrossedOut maxn i num
      ⟨state.j + 1, state.num.set (uintMulWrapped i state.j) 0⟩ where
  start := by
    have start := crossed.start
    show i ≤ state.j + 1
    omega
  length := (List.length_set ..).trans crossed.length
  within := by
    intro l after before
    rcases Nat.lt_succ_iff_lt_or_eq.1 before with earlier | rfl
    · exact crossed.within l after earlier
    · exact ⟨below, small⟩
  crossed := by
    intro l after before
    have inside : uintMulWrapped i state.j < state.num.length := by
      rw [crossed.length]
      omega
    rw [List.getElem?_set]
    split_ifs with same
    · rfl
    · rcases Nat.lt_succ_iff_lt_or_eq.1 before with earlier | rfl
      · exact crossed.crossed l after earlier
      · exact absurd rfl same
  kept := by
    intro m apart
    rw [List.getElem?_set_ne (apart state.j crossed.start (Nat.lt_succ_self _))]
    exact crossed.kept m fun l after before => apart l after (Nat.lt_succ_of_lt before)

/-- The inner loop crosses out products up to the first one that is too large. -/
theorem crossOut_ends (positive : 0 < i) (size : num.length = maxn + 1) (below : i ≤ maxn) :
    Ends mayStop (fun after => ∃ stop, CrossedOut maxn i num ⟨stop, after⟩ ∧
      ¬(stop < maxn ∧ uintMulWrapped i stop ≤ maxn)) (crossOut maxn i num) := by
  have begun : CrossedOut maxn i num ⟨i, num⟩ :=
    ⟨le_rfl, size, fun l after before => absurd after (not_le.2 before),
      fun l after before => absurd after (not_le.2 before), fun _ _ => rfl⟩
  have near : maxn - i < maxn := by omega
  apply (Ends.whileLoop (CrossedOut maxn i num) (fun state => maxn - state.j) begun near ?_).bind
  · rintro ⟨stop, after⟩ ⟨crossed, stopped⟩
    exact .returns ⟨stop, crossed, stopped⟩
  · rintro state crossed ⟨more, small⟩
    have inside : uintMulWrapped i state.j < state.num.length := by
      rw [crossed.length]
      omega
    apply Ends.defined_bind (if_pos inside)
    refine .returns ⟨crossed.next more small, ?_⟩
    show maxn - (state.j + 1) < maxn - state.j
    omega

/-- The inner loop gets to a number through products that are small enough. -/
def Crosses (maxn i m : ℕ) : Prop :=
  ∃ k, i ≤ k ∧ k < maxn ∧ uintMulWrapped i k = m ∧
    ∀ l, i ≤ l → l ≤ k → uintMulWrapped i l ≤ maxn

/-- What the inner loop gets to is zero behind it. -/
theorem CrossedOut.zero {stop m : ℕ} (crossed : CrossedOut maxn i num ⟨stop, after⟩)
    (stopped : ¬(stop < maxn ∧ uintMulWrapped i stop ≤ maxn)) (crosses : Crosses maxn i m) :
    after[m]? = some 0 := by
  obtain ⟨k, start, below, rfl, through⟩ := crosses
  apply crossed.crossed k start
  by_contra passed
  exact stopped ⟨(not_lt.1 passed).trans_lt below,
    through stop crossed.start (not_lt.1 passed)⟩

/-- What was zero before the inner loop is zero behind it. -/
theorem CrossedOut.zero_of_zero {stop m : ℕ} (crossed : CrossedOut maxn i num ⟨stop, after⟩)
    (zero : num[m]? = some 0) : after[m]? = some 0 := by
  by_cases product : ∃ l, i ≤ l ∧ l < stop ∧ uintMulWrapped i l = m
  · obtain ⟨l, start, before, rfl⟩ := product
    exact crossed.crossed l start before
  · rw [crossed.kept m fun l start before same => product ⟨l, start, before, same⟩]
    exact zero

/-- What the inner loop does not get to is kept. -/
theorem CrossedOut.kept_of_not {stop m : ℕ} (crossed : CrossedOut maxn i num ⟨stop, after⟩)
    (apart : ¬Crosses maxn i m) : after[m]? = num[m]? := by
  apply crossed.kept m
  intro l start before same
  refine apart ⟨l, start, (crossed.within l start before).1, same, ?_⟩
  intro other later earlier
  exact (crossed.within other later (earlier.trans_lt before)).2

/-- The inner loop gets to the products that do not wrap around. -/
theorem crosses_product {p q : ℕ} (below : maxn < uintMax) (atLeast : 2 ≤ p) (order : p ≤ q)
    (small : p * q ≤ maxn) : Crosses maxn p (p * q) := by
  have exact {l : ℕ} (before : l ≤ q) : uintMulWrapped p l = p * l := by
    have fits : p * l ≤ p * q := Nat.mul_le_mul_left p before
    have limit : uintMax < 2 ^ 32 := by decide
    exact Nat.mod_eq_of_lt (by omega)
  have twice : 2 * q ≤ p * q := Nat.mul_le_mul_right q atLeast
  refine ⟨q, order, by omega, exact le_rfl, ?_⟩
  intro l _ before
  rw [exact before]
  exact (Nat.mul_le_mul_left p before).trans small

/-! ## Products that wrap around -/

/-- A square between two squares. -/
theorem between_squares (low n high : ℕ) (above : low * low < n * n)
    (below : n * n < high * high) : low < n ∧ n < high :=
  ⟨Nat.mul_self_lt_mul_self_iff.1 above, Nat.mul_self_lt_mul_self_iff.1 below⟩

/-- A square that wraps around to a small number is that of an even number or of one of two odd
ones. -/
theorem wrapped_square (most : i ≤ 203896) (wraps : 2 ^ 32 ≤ i * i)
    (small : uintMulWrapped i i ≤ 203896) : 2 ∣ i ∨ i = 65537 ∨ i = 146543 := by
  unfold uintMulWrapped at small
  have square : i * i ≤ 203896 * 203896 := Nat.mul_le_mul most most
  have split := Nat.div_add_mod (i * i) (2 ^ 32)
  generalize i * i / 2 ^ 32 = times at split
  generalize i * i % 2 ^ 32 = rest at split small
  have low : 1 ≤ times := by omega
  have high : times ≤ 9 := by omega
  interval_cases times
  · obtain ⟨above, below⟩ := between_squares 65535 i 65538 (by omega) (by omega)
    omega
  · obtain ⟨above, below⟩ := between_squares 92681 i 92683 (by omega) (by omega)
    omega
  · obtain ⟨above, below⟩ := between_squares 113511 i 113513 (by omega) (by omega)
    omega
  · obtain ⟨above, below⟩ := between_squares 131071 i 131073 (by omega) (by omega)
    omega
  · obtain ⟨above, below⟩ := between_squares 146542 i 146544 (by omega) (by omega)
    omega
  · obtain ⟨above, below⟩ := between_squares 160529 i 160531 (by omega) (by omega)
    omega
  · obtain ⟨above, below⟩ := between_squares 173391 i 173393 (by omega) (by omega)
    omega
  · obtain ⟨above, below⟩ := between_squares 185363 i 185365 (by omega) (by omega)
    omega
  · obtain ⟨above, below⟩ := between_squares 196607 i 196609 (by omega) (by omega)
    omega

/-- From a square on, the products that the inner loop gets to are in steps of the factor. -/
theorem wrapped_steps {k : ℕ} (small : maxn + i < 2 ^ 32)
    (through : ∀ l, i ≤ l → l ≤ k → uintMulWrapped i l ≤ maxn) (steps : ℕ)
    (before : i + steps ≤ k) :
    uintMulWrapped i (i + steps) = uintMulWrapped i i + i * steps := by
  induction steps with
  | zero => rfl
  | succ steps ih =>
    have last := through (i + steps) (by omega) (by omega)
    have exact := ih (by omega)
    have step :
        uintMulWrapped i (i + (steps + 1)) = (uintMulWrapped i (i + steps) + i) % 2 ^ 32 := by
      unfold uintMulWrapped
      rw [Nat.mod_add_mod]
      ring_nf
    rw [step, Nat.mod_eq_of_lt (by omega), exact]
    ring

/-- In a small vector the inner loop of a prime gets to no later prime. -/
theorem crosses_le {m : ℕ} (small : maxn ≤ 203896) (prime : i.Prime) (primeM : m.Prime)
    (crosses : Crosses maxn i m) : m ≤ i := by
  obtain ⟨k, start, below, rfl, through⟩ := crosses
  obtain ⟨steps, rfl⟩ := Nat.exists_eq_add_of_le start
  have steps_eq := wrapped_steps (by omega) through steps le_rfl
  have most := through (i + steps) start le_rfl
  have square := through i le_rfl start
  rw [steps_eq] at primeM most ⊢
  by_cases wraps : 2 ^ 32 ≤ i * i
  · rcases wrapped_square (by omega) wraps (square.trans small) with even | rfl | rfl
    · obtain rfl := (Nat.prime_dvd_prime_iff_eq Nat.prime_two prime).1 even
      omega
    · have first : uintMulWrapped 65537 65537 = 131073 := by decide
      rw [first] at primeM most
      have few : steps ≤ 1 := by omega
      interval_cases steps
      · exact absurd primeM (by norm_num)
      · exact absurd primeM (by norm_num)
    · have first : uintMulWrapped 146543 146543 = 14369 := by decide
      rw [first] at primeM most ⊢
      have few : steps ≤ 1 := by omega
      interval_cases steps
      · omega
      · exact absurd primeM (by norm_num)
  · have exact : uintMulWrapped i i = i * i := Nat.mod_eq_of_lt (not_le.1 wraps)
    rw [exact] at primeM ⊢
    have divides : i ∣ i * i + i * steps := ⟨i + steps, by ring⟩
    exact ((Nat.prime_dvd_prime_iff_eq prime primeM).1 divides).ge

/-- In a larger vector the inner loop of 92683 gets to the prime 203897. -/
theorem crosses_203897 (large : 203897 ≤ maxn) : Crosses maxn 92683 203897 := by
  have wrapped : uintMulWrapped 92683 92683 = 203897 := by decide
  refine ⟨92683, le_rfl, by omega, wrapped, ?_⟩
  intro l start before
  rw [le_antisymm before start, wrapped]
  exact large

/-! ## The outer loop -/

/-- The vector is filled with its indices. -/
theorem fillNum_ends (maxn : ℕ) :
    Ends mayStop (fun num => num = List.range (maxn + 1)) (fillNum maxn) := by
  apply (Ends.forLoop (fun i num => num = List.range i) rfl ?_).mono
  · intro num filled
    rwa [Nat.zero_add] at filled
  · rintro i num - - rfl
    exact .returns List.range_succ.symm

/-- The vectors before a turn of the outer loop, when no prime is crossed out. -/
structure Sieved (maxn i : ℕ) (state : SieveState) : Prop where
  /-- The length of `num`. -/
  length : state.num.length = maxn + 1
  /-- Products of smaller primes and not smaller factors are crossed out. -/
  crossed : ∀ p q, p.Prime → p < i → p ≤ q → p * q ≤ maxn → state.num[p * q]? = some 0
  /-- Primes that are still to come are not. -/
  kept : ∀ p, p.Prime → i ≤ p → state.num[p]? ≠ some 0
  /-- The primes that were found. -/
  primes : state.primes = (List.range i).filter (·.Prime)

/-- A number that is not prime has been crossed out. -/
theorem Sieved.zero {state : SieveState} (sieved : Sieved maxn i state) (atLeast : 2 ≤ i)
    (below : i ≤ maxn) (composite : ¬i.Prime) : state.num[i]? = some 0 := by
  have prime := Nat.minFac_prime (show i ≠ 1 by omega)
  have square := Nat.minFac_sq_le_self (by omega) composite
  obtain ⟨q, product⟩ := Nat.minFac_dvd i
  rw [pow_two] at square
  have order : i.minFac ≤ q := by
    apply Nat.le_of_mul_le_mul_left _ prime.pos
    exact square.trans product.le
  have smaller : i.minFac < i := (Nat.not_prime_iff_minFac_lt atLeast).1 composite
  rw [product]
  exact sieved.crossed i.minFac q prime smaller order (product.ge.trans below)

/-- A number that is not prime is passed by. -/
theorem Sieved.skip {state : SieveState} (sieved : Sieved maxn i state) (composite : ¬i.Prime) :
    Sieved maxn (i + 1) state where
  length := sieved.length
  crossed := by
    intro p q primeP before order product
    rcases Nat.lt_succ_iff_lt_or_eq.1 before with earlier | rfl
    · exact sieved.crossed p q primeP earlier order product
    · exact absurd primeP composite
  kept := by
    intro p primeP later
    exact sieved.kept p primeP (by omega)
  primes := by
    rw [sieved.primes, List.range_succ, List.filter_append, List.filter_singleton,
      decide_eq_false composite, cond_false, List.append_nil]

/-- A prime is found, and the inner loop crosses out its products. -/
theorem Sieved.found {state : SieveState} {stop : ℕ} (sieved : Sieved maxn i state)
    (small : maxn ≤ 203896) (prime : i.Prime)
    (crossed : CrossedOut maxn i state.num ⟨stop, after⟩)
    (stopped : ¬(stop < maxn ∧ uintMulWrapped i stop ≤ maxn)) :
    Sieved maxn (i + 1) ⟨after, state.primes ++ [i]⟩ where
  length := crossed.length
  crossed := by
    intro p q primeP before order product
    rcases Nat.lt_succ_iff_lt_or_eq.1 before with earlier | rfl
    · exact crossed.zero_of_zero (sieved.crossed p q primeP earlier order product)
    · have limit : 203896 < uintMax := by decide
      exact crossed.zero stopped (crosses_product (by omega) prime.two_le order product)
  kept := by
    intro p primeP later zero
    have apart : ¬Crosses maxn i p := by
      intro crosses
      have before := crosses_le small prime primeP crosses
      omega
    have same : after[p]? = state.num[p]? := crossed.kept_of_not apart
    exact sieved.kept p primeP (by omega) (same.symm.trans zero)
  primes := by
    show state.primes ++ [i] = _
    rw [sieved.primes, List.range_succ, List.filter_append, List.filter_singleton,
      decide_eq_true prime, cond_true]

/-- The outer loop takes a turn in a small vector. -/
theorem Sieved.turn {state : SieveState} (sieved : Sieved maxn i state) (small : maxn ≤ 203896)
    (atLeast : 2 ≤ i) (below : i ≤ maxn) :
    Ends mayStop (Sieved maxn (i + 1)) (sieveTurn maxn i state) := by
  have inside : i < state.num.length := by
    rw [sieved.length]
    omega
  have read := List.getElem?_eq_getElem inside
  apply Ends.defined_bind read
  by_cases prime : i.Prime
  · have nonzero : state.num[i] ≠ 0 := by
      intro zero
      rw [zero] at read
      exact sieved.kept i prime le_rfl read
    rw [if_neg nonzero]
    apply (crossOut_ends (by omega) sieved.length below).bind
    rintro after ⟨stop, crossed, stopped⟩
    exact .returns (sieved.found small prime crossed stopped)
  · have zero : state.num[i] = 0 := by
      have crossed := sieved.zero atLeast below prime
      rw [read] at crossed
      exact Option.some.inj crossed
    rw [if_pos zero]
    exact .returns (sieved.skip prime)

/-- The vectors before a turn of the outer loop, when one prime crosses out another. -/
structure Misses (maxn i : ℕ) (state : SieveState) : Prop where
  /-- The length of `num`. -/
  length : state.num.length = maxn + 1
  /-- Only smaller numbers were found. -/
  smaller : ∀ p ∈ state.primes, p < i
  /-- The prime 92683 has crossed out 203897. -/
  zero : 92683 ∈ state.primes → state.num[203897]? = some 0
  /-- They are not both found. -/
  apart : 203897 ∈ state.primes → 92683 ∉ state.primes

/-- A number is found, and the inner loop crosses out its products. -/
theorem Misses.found {state : SieveState} {stop : ℕ} (misses : Misses maxn i state)
    (large : 203897 ≤ maxn) (nonzero : state.num[i]? ≠ some 0)
    (crossed : CrossedOut maxn i state.num ⟨stop, after⟩)
    (stopped : ¬(stop < maxn ∧ uintMulWrapped i stop ≤ maxn)) :
    Misses maxn (i + 1) ⟨after, state.primes ++ [i]⟩ where
  length := crossed.length
  smaller := by
    intro p member
    rcases List.mem_append.1 member with before | last
    · exact Nat.lt_succ_of_lt (misses.smaller p before)
    · rw [List.mem_singleton.1 last]
      exact Nat.lt_succ_self i
  zero := by
    intro member
    rcases List.mem_append.1 member with before | last
    · exact crossed.zero_of_zero (misses.zero before)
    · rw [← List.mem_singleton.1 last] at crossed stopped
      exact crossed.zero stopped (crosses_203897 large)
  apart := by
    intro member other
    rcases List.mem_append.1 member with before | last
    · have passed := misses.smaller _ before
      rcases List.mem_append.1 other with also | now
      · exact misses.apart before also
      · have same := List.mem_singleton.1 now
        omega
    · have same := List.mem_singleton.1 last
      rcases List.mem_append.1 other with before | now
      · rw [← same] at nonzero
        exact nonzero (misses.zero before)
      · have again := List.mem_singleton.1 now
        omega

/-- The outer loop takes a turn in a larger vector. -/
theorem Misses.turn {state : SieveState} (misses : Misses maxn i state) (large : 203897 ≤ maxn)
    (positive : 0 < i) (below : i ≤ maxn) :
    Ends mayStop (Misses maxn (i + 1)) (sieveTurn maxn i state) := by
  have inside : i < state.num.length := by
    rw [misses.length]
    omega
  have read := List.getElem?_eq_getElem inside
  apply Ends.defined_bind read
  by_cases zero : state.num[i] = 0
  · rw [if_pos zero]
    exact .returns ⟨misses.length, fun p member => Nat.lt_succ_of_lt (misses.smaller p member),
      misses.zero, misses.apart⟩
  · rw [if_neg zero]
    have nonzero : state.num[i]? ≠ some 0 := by
      rw [read]
      exact fun same => zero (Option.some.inj same)
    apply (crossOut_ends positive misses.length below).bind
    rintro after ⟨stop, crossed, stopped⟩
    exact .returns (misses.found large nonzero crossed stopped)

/-! ## The whole sieve -/

/-- The outer loop begins with a vector in which only the first two indices are zero. -/
theorem eratosthenesSieve_loop {post : List ℕ × ℕ → Prop} (atLeast : 1 ≤ maxn)
    (below : maxn < uintMax) (inv : ℕ → SieveState → Prop)
    (begun : inv 2 ⟨(List.range (maxn + 1)).set 1 0, []⟩)
    (turn : ∀ i state, 2 ≤ i → i ≤ maxn → inv i state →
      Ends mayStop (inv (i + 1)) (sieveTurn maxn i state))
    (finish : ∀ state, inv (maxn + 1) state → post (state.primes, state.primes.length)) :
    Ends mayStop post (eratosthenesSieve [] maxn) := by
  unfold eratosthenesSieve
  rw [if_neg below.ne]
  apply (fillNum_ends maxn).bind
  rintro num rfl
  have inside : 1 < (List.range (maxn + 1)).length := by
    rw [List.length_range]
    omega
  apply Ends.defined_bind (if_pos inside)
  apply (Ends.forLoop inv begun ?_).bind
  · intro state final
    have last : 2 + (maxn - 1) = maxn + 1 := by omega
    rw [last] at final
    exact .returns (finish state final)
  · intro i state after before
    exact turn i state after (by omega)

/-- The sieve lists exactly the primes in a small vector. -/
theorem eratosthenesSieve_small (atLeast : 1 ≤ maxn) (small : maxn ≤ 203896) :
    Ends mayStop (fun result => result =
      ((List.range (maxn + 1)).filter (·.Prime), ((List.range (maxn + 1)).filter (·.Prime)).length))
      (eratosthenesSieve [] maxn) := by
  have limit : 203896 < uintMax := by decide
  apply eratosthenesSieve_loop atLeast (by omega) (Sieved maxn)
  · refine ⟨?_, ?_, ?_, rfl⟩
    · rw [List.length_set, List.length_range]
    · intro p q prime before
      exact absurd prime.two_le (by omega)
    · intro p prime _ zero
      have two := prime.two_le
      rw [List.getElem?_set_ne (by omega), List.getElem?_eq_some_iff] at zero
      obtain ⟨inside, zero⟩ := zero
      rw [List.getElem_range] at zero
      omega
  · intro i state after before sieved
    exact sieved.turn small after before
  · intro state sieved
    rw [sieved.primes]

/-- The sieve does not list two primes in a larger vector. -/
theorem eratosthenesSieve_large (large : 203897 ≤ maxn) (below : maxn < uintMax) :
    Ends mayStop (fun result => result.2 = result.1.length ∧
      (203897 ∈ result.1 → 92683 ∉ result.1)) (eratosthenesSieve [] maxn) := by
  apply eratosthenesSieve_loop (by omega) below (Misses maxn)
  · refine ⟨?_, ?_, ?_, ?_⟩
    · rw [List.length_set, List.length_range]
    · exact fun p member => absurd member List.not_mem_nil
    · exact fun member => absurd member List.not_mem_nil
    · exact fun member => absurd member List.not_mem_nil
  · intro i state after before misses
    exact misses.turn large (by omega) before
  · intro state misses
    exact ⟨rfl, misses.apart⟩

/-- The sieve does not list exactly the primes in a larger vector. -/
theorem eratosthenesSieve_inexact (large : 203897 ≤ maxn) (below : maxn < uintMax) :
    ∃ primes, eratosthenesSieve [] maxn = .ok (primes, primes.length) ∧
      primes ≠ (List.range (maxn + 1)).filter (·.Prime) := by
  obtain ⟨⟨primes, nr⟩, ended, count, apart⟩ :=
    (eratosthenesSieve_large large below).exists_value not_false
  have count : nr = primes.length := count
  have apart : 203897 ∈ primes → 92683 ∉ primes := apart
  rw [count] at ended
  refine ⟨primes, ended, ?_⟩
  rintro rfl
  have listed {p : ℕ} (prime : p.Prime) (inside : p ≤ maxn) :
      p ∈ (List.range (maxn + 1)).filter (·.Prime) :=
    List.mem_filter.2 ⟨List.mem_range.2 (Nat.lt_succ_of_le inside), decide_eq_true prime⟩
  exact apart (listed (by norm_num) large) (listed (by norm_num) (by omega))

/-- The sieve ends and stays inside its vector, and it lists exactly the primes when no square of
one of them wraps around to a later prime. -/
theorem eratosthenesSieve_exact_iff (atLeast : 1 ≤ maxn) (below : maxn < uintMax) :
    ∃ primes, eratosthenesSieve [] maxn = .ok (primes, primes.length) ∧
      (primes = (List.range (maxn + 1)).filter (·.Prime) ↔ maxn ≤ 203896) := by
  by_cases small : maxn ≤ 203896
  · obtain ⟨_, ended, rfl⟩ := (eratosthenesSieve_small atLeast small).exists_value not_false
    exact ⟨_, ended, iff_of_true rfl small⟩
  · obtain ⟨primes, ended, inexact⟩ := eratosthenesSieve_inexact (by omega) below
    exact ⟨primes, ended, iff_of_false inexact small⟩

/-- The primes up to 10000 are listed. -/
theorem eratosthenesSieve_exact_10000 :
    ∃ primes, eratosthenesSieve [] 10000 = .ok (primes, primes.length) ∧
      (primes = (List.range (10000 + 1)).filter (·.Prime) ↔ 10000 ≤ 203896) :=
  eratosthenesSieve_exact_iff (by decide) (by decide)

/-- The primes up to 203897 are not: the square of 92683 wraps around to 203897. -/
theorem eratosthenesSieve_203897 :
    uintMulWrapped 92683 92683 = 203897 ∧ Nat.Prime 92683 ∧ Nat.Prime 203897 ∧
      ∃ primes, eratosthenesSieve [] 203897 = .ok (primes, primes.length) ∧
        primes ≠ (List.range (203897 + 1)).filter (·.Prime) :=
  ⟨by decide, by norm_num, by norm_num, eratosthenesSieve_inexact le_rfl (by decide)⟩

end Bpcp.Samples
