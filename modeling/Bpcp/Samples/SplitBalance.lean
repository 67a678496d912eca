import Bpcp.Samples.SplitArray

/-!
# The difference of the halves

The halves of a sorted array differ in their sums by no more than the array spans. The sample
adds up the differences of their elements pair by pair, to avoid an overflow. A difference in
an even place is a gap in the lower half of the sorted array, taken negatively, and one in an
odd place is a gap in its upper half. The gaps do not overlap, but in an array that spans more
than a long integer can hold, some of them may be too much for one, although the others make
up for them in the end.
-/

namespace Bpcp.Samples

open Bpcp.Lib

/-- The numbers in an array. -/
def values (array : List Long) : List Int := array.map Subtype.val

/-- The exact sum of an array. -/
def exactSum (array : List Long) : Int := (values array).sum

/-- The array is in ascending order. -/
def Ascending (array : List Long) : Prop := array.Pairwise fun a b => a.1 ≤ b.1

/-- The exact difference of the sums of the two halves. -/
def SplitResult.exactDifference (result : SplitResult) : Int :=
  exactSum result.firstHalf - exactSum result.secondHalf

variable {theArray first second : List Long} {theSize : Nat}

/-- An ascending array has ascending numbers. -/
theorem Ascending.values {array : List Long} (ascending : Ascending array) :
    (values array).Pairwise (· ≤ ·) := List.pairwise_map.2 ascending

/-- An array with elements has a smallest and a largest one. -/
theorem exists_smallest_largest (nonempty : theArray ≠ []) :
    ∃ smallest ∈ theArray, ∃ largest ∈ theArray,
      ∀ element ∈ theArray, smallest.1 ≤ element.1 ∧ element.1 ≤ largest.1 := by
  obtain ⟨element, member⟩ := List.exists_mem_of_ne_nil _ nonempty
  have some : theArray.toFinset.Nonempty := ⟨element, List.mem_toFinset.2 member⟩
  obtain ⟨smallest, isSmallest, least⟩ := theArray.toFinset.exists_min_image Subtype.val some
  obtain ⟨largest, isLargest, greatest⟩ := theArray.toFinset.exists_max_image Subtype.val some
  refine ⟨smallest, List.mem_toFinset.1 isSmallest, largest, List.mem_toFinset.1 isLargest, ?_⟩
  intro element member
  exact ⟨least element (List.mem_toFinset.2 member), greatest element (List.mem_toFinset.2 member)⟩

/-- The halves of a sorted array have half of its size each, and their sums differ by at most the
span of the array. -/
theorem splitArray_balanced {qsort : Qsort} (even : theSize % 2 = 0) (atLeast : 2 ≤ theSize)
    (size : theArray.length = theSize)
    (permutes : (qsort myCompare theArray).Perm theArray)
    (ascending : Ascending (qsort myCompare theArray))
    (roomFirst : first.length = theSize / 2 + 2) (roomSecond : second.length = theSize / 2 + 2) :
    ∃ result, splitArray qsort theArray theSize first second = some result ∧
      result.halfSize = theSize / 2 ∧ result.firstHalf.length = theSize / 2 ∧
      result.secondHalf.length = theSize / 2 ∧
      ∃ smallest ∈ theArray, ∃ largest ∈ theArray,
        (∀ element ∈ theArray, smallest.1 ≤ element.1 ∧ element.1 ≤ largest.1) ∧
        |result.exactDifference| ≤ largest.1 - smallest.1 := by
  have sorted := permutes.length_eq.trans size
  obtain ⟨result, run, -, half, dealt⟩ := splitArray_dealt even sorted roomFirst roomSecond
  obtain ⟨firstLength, secondLength⟩ := dealt.length
  have nonempty : theArray ≠ [] := List.ne_nil_of_length_pos (by omega)
  obtain ⟨smallest, isSmallest, largest, isLargest, between⟩ := exists_smallest_largest nonempty
  refine ⟨result, run, half, by omega, by omega, smallest, isSmallest, largest, isLargest, between,
    ?_⟩
  apply (dealt.map Subtype.val).balance ascending.values (between smallest isSmallest).2
  intro entry member
  obtain ⟨element, inside, rfl⟩ := List.mem_map.1 member
  exact between element (permutes.mem_iff.1 inside)

/-- The halves of four sorted elements are balanced. -/
theorem splitArray_balanced_four :
    ∃ result, splitArray insertionQsort (longs [9, 1, 5, 2]) 4 (longs [0, 0, 0, 0])
        (longs [0, 0, 0, 0]) = some result ∧
      result.halfSize = 2 ∧ result.firstHalf.length = 2 ∧ result.secondHalf.length = 2 ∧
      ∃ smallest ∈ longs [9, 1, 5, 2], ∃ largest ∈ longs [9, 1, 5, 2],
        (∀ element ∈ longs [9, 1, 5, 2], smallest.1 ≤ element.1 ∧ element.1 ≤ largest.1) ∧
        |result.exactDifference| ≤ largest.1 - smallest.1 :=
  splitArray_balanced (by decide) (by decide) rfl (insertionQsort_perm _ _)
    (by unfold Ascending; decide) rfl rfl

/-! ## Adding up the differences -/

/-- The loop of `calc_diff_l` from an index on, for a number of turns. There is no result when an
operation overflows. -/
def calcDiffLoop (firstHalfArray secondHalfArray : List Long) : Nat → Nat → Long → Option Long
  | 0, _, diff => some diff
  | turns + 1, i, diff => do
    let first ← elementAt firstHalfArray i
    let second ← elementAt secondHalfArray i
    let difference ← longSub first second
    let diff ← longAdd diff difference
    calcDiffLoop firstHalfArray secondHalfArray turns (i + 1) diff

/-- `calc_diff_l`. -/
def calcDiffL (firstHalfArray secondHalfArray : List Long) (halfSize : Nat) : Option Long :=
  calcDiffLoop firstHalfArray secondHalfArray halfSize 0 ⟨0, by decide⟩

/-- From a sum on, all steps and all partial sums are long integers. -/
def SumsFit : Int → List Int → Prop
  | _, [] => True
  | sum, step :: rest =>
    IntType.int64.Represents step ∧ IntType.int64.Represents (sum + step) ∧
      SumsFit (sum + step) rest

/-- Operations that do not overflow have their exact results. -/
theorem longSub_eq_some {left right result : Long} :
    longSub left right = some result ↔
      IntType.int64.Represents (left.1 - right.1) ∧ result.1 = left.1 - right.1 := by
  rw [longSub]
  split
  · rename_i fits
    rw [Option.some_inj, Subtype.ext_iff]
    exact ⟨fun same => ⟨fits, same.symm⟩, fun same => same.2.symm⟩
  · rename_i overflows
    exact ⟨nofun, fun same => absurd same.1 overflows⟩

/-- Operations that do not overflow have their exact results. -/
theorem longAdd_eq_some {left right result : Long} :
    longAdd left right = some result ↔
      IntType.int64.Represents (left.1 + right.1) ∧ result.1 = left.1 + right.1 := by
  rw [longAdd]
  split
  · rename_i fits
    rw [Option.some_inj, Subtype.ext_iff]
    exact ⟨fun same => ⟨fits, same.symm⟩, fun same => same.2.symm⟩
  · rename_i overflows
    exact ⟨nofun, fun same => absurd same.1 overflows⟩

/-- A turn goes on with the exact sum when neither of its operations overflows. -/
theorem calcDiffLoop_turn {firstHalfArray secondHalfArray : List Long} {turns i : Nat}
    {x y diff result : Long} (readFirst : elementAt firstHalfArray i = some x)
    (readSecond : elementAt secondHalfArray i = some y) :
    calcDiffLoop firstHalfArray secondHalfArray (turns + 1) i diff = some result ↔
      IntType.int64.Represents (x.1 - y.1) ∧ ∃ next : Long, next.1 = diff.1 + (x.1 - y.1) ∧
        calcDiffLoop firstHalfArray secondHalfArray turns (i + 1) next = some result := by
  simp only [calcDiffLoop, readFirst, readSecond, Option.bind_eq_bind, Option.bind_some,
    Option.bind_eq_some_iff, longSub_eq_some, longAdd_eq_some]
  constructor
  · rintro ⟨difference, ⟨fits, exact⟩, next, ⟨_, sum⟩, rest⟩
    rw [exact] at sum
    exact ⟨fits, next, sum, rest⟩
  · rintro ⟨fits, next, sum, rest⟩
    refine ⟨⟨x.1 - y.1, fits⟩, ⟨fits, rfl⟩, next, ⟨?_, sum⟩, rest⟩
    rw [← sum]
    exact next.2

/-- The loop returns the exact sum of the differences exactly when nothing overflows. -/
theorem calcDiffLoop_eq_some {doneF xs restF doneS ys restS : List Long} {diff result : Long}
    (lengths : xs.length = ys.length) (place : doneF.length = doneS.length) :
    calcDiffLoop (doneF ++ xs ++ restF) (doneS ++ ys ++ restS) xs.length doneF.length diff =
        some result ↔
      SumsFit diff.1 (List.zipWith (· - ·) (values xs) (values ys)) ∧
        result.1 = diff.1 + (List.zipWith (· - ·) (values xs) (values ys)).sum := by
  induction xs generalizing ys doneF doneS diff with
  | nil =>
    rw [List.length_nil, calcDiffLoop, Option.some_inj, Subtype.ext_iff]
    simp [values, SumsFit, eq_comm]
  | cons x xs ih =>
    cases ys with
    | nil => cases lengths
    | cons y ys =>
      have readFirst : elementAt (doneF ++ x :: xs ++ restF) doneF.length = some x := by
        rw [List.append_assoc, List.cons_append]
        exact elementAt_behind rfl rfl
      have readSecond : elementAt (doneS ++ y :: ys ++ restS) doneF.length = some y := by
        rw [List.append_assoc, List.cons_append]
        exact elementAt_behind rfl (congrArg Nat.cast place)
      have partsF : doneF ++ x :: xs ++ restF = doneF ++ [x] ++ xs ++ restF := by simp
      have partsS : doneS ++ y :: ys ++ restS = doneS ++ [y] ++ ys ++ restS := by simp
      have later : doneF.length + 1 = (doneF ++ [x]).length := by simp
      have placeLater : (doneF ++ [x]).length = (doneS ++ [y]).length := by simp [place]
      rw [List.length_cons, calcDiffLoop_turn readFirst readSecond, partsF, partsS, later]
      show _ ↔ (IntType.int64.Represents (x.1 - y.1) ∧
        IntType.int64.Represents (diff.1 + (x.1 - y.1)) ∧
        SumsFit (diff.1 + (x.1 - y.1)) (List.zipWith (· - ·) (values xs) (values ys))) ∧
        result.1 = diff.1 + (List.sum ((x.1 - y.1) ::
          List.zipWith (· - ·) (values xs) (values ys)))
      rw [List.sum_cons, ← add_assoc]
      constructor
      · rintro ⟨fits, next, sum, run⟩
        obtain ⟨later, exact⟩ := (ih (Nat.succ_inj.1 lengths) placeLater).1 run
        rw [sum] at later exact
        exact ⟨⟨fits, sum ▸ next.2, later⟩, exact⟩
      · rintro ⟨⟨fits, fitsSum, later⟩, exact⟩
        exact ⟨fits, ⟨_, fitsSum⟩, rfl, (ih (Nat.succ_inj.1 lengths) placeLater).2 ⟨later, exact⟩⟩

/-- `calc_diff_l` of two half arrays with the same number of elements in use. -/
theorem calcDiffL_eq_some {firstHalfArray secondHalfArray : List Long} {halfSize : Nat}
    {result : Long} (sizeFirst : (firstHalfArray.take halfSize).length = halfSize)
    (sizeSecond : (secondHalfArray.take halfSize).length = halfSize) :
    calcDiffL firstHalfArray secondHalfArray halfSize = some result ↔
      SumsFit 0 (List.zipWith (· - ·) (values (firstHalfArray.take halfSize))
        (values (secondHalfArray.take halfSize))) ∧
      result.1 = (List.zipWith (· - ·) (values (firstHalfArray.take halfSize))
        (values (secondHalfArray.take halfSize))).sum := by
  have loop := @calcDiffLoop_eq_some [] (firstHalfArray.take halfSize)
    (firstHalfArray.drop halfSize) [] (secondHalfArray.take halfSize)
    (secondHalfArray.drop halfSize) ⟨0, by decide⟩ result (sizeFirst.trans sizeSecond.symm) rfl
  rw [List.nil_append, List.nil_append, List.take_append_drop, List.take_append_drop, sizeFirst,
    zero_add] at loop
  exact loop

/-! ## Gaps -/

/-- A gap in the lower half of an array: between two neighbours, the first of which is dealt to
the first half and the second to the second half. -/
def lowerGap (sorted : List Int) (n : Nat) : Int :=
  sorted.getD (2 * n + 1) 0 - sorted.getD (2 * n) 0

/-- A gap in the upper half of an array: between two neighbours, the second of which is dealt to
the first half and the first to the second half. -/
def upperGap (sorted : List Int) (n : Nat) : Int :=
  sorted.getD (sorted.length - 1 - 2 * n) 0 - sorted.getD (sorted.length - 2 - 2 * n) 0

/-- The sum of the outermost lower gaps. -/
def lowerGaps (sorted : List Int) (n : Nat) : Int := ∑ i ∈ Finset.range n, lowerGap sorted i

/-- The sum of the outermost upper gaps. -/
def upperGaps (sorted : List Int) (n : Nat) : Int := ∑ i ∈ Finset.range n, upperGap sorted i

/-- No gap is more than a long integer, and from the outside inwards neither side gets ahead of
the other by more than a long integer. -/
structure GapsFit (sorted : List Int) : Prop where
  /-- The gaps in the lower half. -/
  lower : ∀ n, 4 * n + 2 ≤ sorted.length →
    lowerGap sorted n ≤ 2 ^ 63 ∧ lowerGaps sorted (n + 1) ≤ 2 ^ 63 + upperGaps sorted n
  /-- The gaps in the upper half. -/
  upper : ∀ n, 4 * n + 4 ≤ sorted.length →
    upperGap sorted n ≤ 2 ^ 63 - 1 ∧
      upperGaps sorted (n + 1) ≤ 2 ^ 63 - 1 + lowerGaps sorted (n + 1)

variable {sorted firsts seconds : List Int}

/-- All steps and partial sums fit when each of them does. -/
theorem sumsFit_iff (sum : Int) (steps : List Int) :
    SumsFit sum steps ↔ ∀ i step, steps[i]? = some step →
      IntType.int64.Represents step ∧
        IntType.int64.Represents (sum + (steps.take i).sum + step) := by
  induction steps generalizing sum with
  | nil => simp [SumsFit]
  | cons first rest ih =>
    rw [SumsFit, ih]
    constructor
    · rintro ⟨fits, fitsSum, later⟩ i step found
      cases i with
      | zero =>
        obtain rfl : first = step := by simpa using found
        exact ⟨fits, by simpa using fitsSum⟩
      | succ i =>
        have next := later i step (by simpa using found)
        rw [List.take_succ_cons, List.sum_cons, ← add_assoc]
        exact next
    · intro all
      refine ⟨(all 0 first rfl).1, by simpa using (all 0 first rfl).2, ?_⟩
      intro i step found
      have next := all (i + 1) step (by simpa using found)
      rw [List.take_succ_cons, List.sum_cons, ← add_assoc] at next
      exact next

/-- The differences of the halves, place by place. -/
def steps (firsts seconds : List Int) : List Int := List.zipWith (· - ·) firsts seconds

/-- The limits of a long integer. -/
theorem represents_int64 {n : Int} :
    IntType.int64.Represents n ↔ -2 ^ 63 ≤ n ∧ n ≤ 2 ^ 63 - 1 := by
  have least : IntType.int64.least = -2 ^ 63 := rfl
  have greatest : IntType.int64.greatest = 2 ^ 63 - 1 := rfl
  rw [IntType.Represents, least, greatest]

/-- An element of a list in a place inside it. -/
theorem getElem?_eq_getD (sorted : List Int) {place : Nat} (inside : place < sorted.length) :
    sorted[place]? = some (sorted.getD place 0) := by
  rw [List.getD_eq_getElem?_getD, List.getElem?_eq_getElem inside, Option.getD_some]

/-- Later elements of an ascending list are not smaller. -/
theorem getD_le_getD (ordered : sorted.Pairwise (· ≤ ·)) {place later : Nat}
    (order : place < later) (inside : later < sorted.length) :
    sorted.getD place 0 ≤ sorted.getD later 0 := by
  have both := List.pairwise_iff_getElem.1 ordered place later (by omega) inside order
  rw [List.getD_eq_getElem _ _ (by omega), List.getD_eq_getElem _ _ inside]
  exact both

/-- Lower gaps are not negative. -/
theorem lowerGap_nonneg (ordered : sorted.Pairwise (· ≤ ·)) {n : Nat}
    (inside : 4 * n + 2 ≤ sorted.length) : 0 ≤ lowerGap sorted n := by
  have order := getD_le_getD ordered (show 2 * n < 2 * n + 1 by omega) (by omega)
  rw [lowerGap]
  omega

/-- Upper gaps are not negative. -/
theorem upperGap_nonneg (ordered : sorted.Pairwise (· ≤ ·)) {n : Nat}
    (inside : 4 * n + 4 ≤ sorted.length) : 0 ≤ upperGap sorted n := by
  have places : sorted.length - 2 - 2 * n < sorted.length - 1 - 2 * n := by omega
  have order := getD_le_getD ordered places (by omega)
  rw [upperGap]
  omega

/-- A difference in an even place is a lower gap, taken negatively. -/
theorem steps_low (dealt : Dealt sorted firsts seconds) {n : Nat}
    (inside : 4 * n + 2 ≤ sorted.length) :
    (steps firsts seconds)[2 * n]? = some (-lowerGap sorted n) := by
  obtain ⟨low, next⟩ := dealt.getElem?_low n inside
  rw [getElem?_eq_getD sorted (by omega)] at low next
  rw [steps, List.getElem?_zipWith, low, next, lowerGap]
  simp

/-- A difference in an odd place is an upper gap. -/
theorem steps_high (dealt : Dealt sorted firsts seconds) {n : Nat}
    (inside : 4 * n + 4 ≤ sorted.length) :
    (steps firsts seconds)[2 * n + 1]? = some (upperGap sorted n) := by
  obtain ⟨high, next⟩ := dealt.getElem?_high n inside
  rw [getElem?_eq_getD sorted (by omega)] at high next
  rw [steps, List.getElem?_zipWith, high, next, upperGap]

/-- A partial sum grows by the next step. -/
theorem sum_take_succ {all : List Int} {place : Nat} {step : Int}
    (found : all[place]? = some step) :
    (all.take (place + 1)).sum = (all.take place).sum + step := by
  rw [List.take_add_one, found, List.sum_append]
  simp

/-- After whole turns the upper gaps and the lower gaps have been added up. -/
theorem sum_take_even (dealt : Dealt sorted firsts seconds) {n : Nat}
    (inside : 4 * n ≤ sorted.length) :
    ((steps firsts seconds).take (2 * n)).sum = upperGaps sorted n - lowerGaps sorted n := by
  induction n with
  | zero => simp [upperGaps, lowerGaps]
  | succ n ih =>
    have two : 2 * (n + 1) = 2 * n + 1 + 1 := by omega
    rw [two, sum_take_succ (steps_high dealt (by omega)),
      sum_take_succ (steps_low dealt (by omega)), ih (by omega), upperGaps, upperGaps, lowerGaps,
      lowerGaps, Finset.sum_range_succ, Finset.sum_range_succ]
    ring

/-- After one difference more, one lower gap more has been subtracted. -/
theorem sum_take_odd (dealt : Dealt sorted firsts seconds) {n : Nat}
    (inside : 4 * n + 2 ≤ sorted.length) :
    ((steps firsts seconds).take (2 * n + 1)).sum =
      upperGaps sorted n - lowerGaps sorted (n + 1) := by
  rw [sum_take_succ (steps_low dealt inside), sum_take_even dealt (by omega), lowerGaps, lowerGaps,
    Finset.sum_range_succ]
  ring

/-- The lower gaps up to one more are one gap more. -/
theorem lowerGaps_succ (sorted : List Int) (n : Nat) :
    lowerGaps sorted (n + 1) = lowerGaps sorted n + lowerGap sorted n :=
  Finset.sum_range_succ _ _

/-- The upper gaps up to one more are one gap more. -/
theorem upperGaps_succ (sorted : List Int) (n : Nat) :
    upperGaps sorted (n + 1) = upperGaps sorted n + upperGap sorted n :=
  Finset.sum_range_succ _ _

/-- After whole turns the upper gaps are not ahead by more than a long integer. -/
theorem GapsFit.upperGaps_le (fits : GapsFit sorted) {n : Nat}
    (inside : 4 * n ≤ sorted.length) :
    upperGaps sorted n ≤ 2 ^ 63 - 1 + lowerGaps sorted n := by
  cases n with
  | zero => simp [upperGaps, lowerGaps]
  | succ n => exact (fits.upper n (by omega)).2

/-- The differences of an ascending list add up without an overflow exactly when its gaps fit. -/
theorem sumsFit_iff_gapsFit (dealt : Dealt sorted firsts seconds)
    (ordered : sorted.Pairwise (· ≤ ·)) :
    SumsFit 0 (steps firsts seconds) ↔ GapsFit sorted := by
  rw [sumsFit_iff]
  simp only [zero_add]
  constructor
  · intro fits
    constructor
    · intro n inside
      obtain ⟨gap, sum⟩ := fits (2 * n) _ (steps_low dealt inside)
      rw [← sum_take_succ (steps_low dealt inside), sum_take_odd dealt inside] at sum
      rw [represents_int64] at gap sum
      exact ⟨by omega, by omega⟩
    · intro n inside
      obtain ⟨gap, sum⟩ := fits (2 * n + 1) _ (steps_high dealt inside)
      rw [sum_take_odd dealt (by omega)] at sum
      rw [represents_int64] at gap sum
      have next := upperGaps_succ sorted n
      exact ⟨gap.2, by omega⟩
  · intro fits i step found
    have lengths := dealt.length
    have inside : i < firsts.length := by
      obtain ⟨inside, -⟩ := List.getElem?_eq_some_iff.1 found
      rw [steps, List.length_zipWith] at inside
      omega
    obtain ⟨n, rfl | rfl⟩ := Nat.even_or_odd' i
    · rw [steps_low dealt (by omega)] at found
      obtain rfl := Option.some.inj found
      have gap := lowerGap_nonneg ordered (show 4 * n + 2 ≤ sorted.length by omega)
      obtain ⟨fitsGap, fitsSum⟩ := fits.lower n (by omega)
      have ahead := fits.upperGaps_le (show 4 * n ≤ sorted.length by omega)
      have grown := lowerGaps_succ sorted n
      rw [sum_take_even dealt (by omega), represents_int64, represents_int64]
      omega
    · rw [steps_high dealt (by omega)] at found
      obtain rfl := Option.some.inj found
      have gap := upperGap_nonneg ordered (show 4 * n + 4 ≤ sorted.length by omega)
      obtain ⟨fitsGap, fitsSum⟩ := fits.upper n (by omega)
      obtain ⟨-, behind⟩ := fits.lower n (by omega)
      have grown := upperGaps_succ sorted n
      rw [sum_take_odd dealt (by omega), represents_int64, represents_int64]
      omega

/-- The differences of two hands add up to the difference of their sums. -/
theorem sum_steps (dealt : Dealt sorted firsts seconds) :
    (steps firsts seconds).sum = firsts.sum - seconds.sum := by
  induction dealt with
  | nil => rfl
  | pair low high => simp [steps]
  | round low lowNext highNext high rest ih =>
    rw [steps] at ih ⊢
    simp only [List.zipWith_cons_cons, List.sum_cons, ih]
    ring

/-- The lower gaps lie between the first element and the last of them. -/
theorem lowerGaps_le (ordered : sorted.Pairwise (· ≤ ·)) {n : Nat}
    (inside : 4 * n + 2 ≤ sorted.length) :
    lowerGaps sorted (n + 1) ≤ sorted.getD (2 * n + 1) 0 - sorted.getD 0 0 := by
  induction n with
  | zero => simp [lowerGaps, lowerGap]
  | succ n ih =>
    have order := getD_le_getD ordered (show 2 * n + 1 < 2 * (n + 1) by omega) (by omega)
    have before := ih (by omega)
    rw [lowerGaps_succ, lowerGap]
    omega

/-- The upper gaps lie between the first of them and the last element. -/
theorem upperGaps_le (ordered : sorted.Pairwise (· ≤ ·)) {n : Nat}
    (inside : 4 * n + 4 ≤ sorted.length) :
    upperGaps sorted (n + 1) ≤
      sorted.getD (sorted.length - 1) 0 - sorted.getD (sorted.length - 2 - 2 * n) 0 := by
  induction n with
  | zero => simp [upperGaps, upperGap]
  | succ n ih =>
    have places : sorted.length - 1 - 2 * (n + 1) < sorted.length - 2 - 2 * n := by omega
    have order := getD_le_getD ordered places (by omega)
    have before := ih (by omega)
    rw [upperGaps_succ, upperGap]
    omega

/-- The sums of gaps are not negative. -/
theorem gaps_nonneg (ordered : sorted.Pairwise (· ≤ ·)) {n : Nat}
    (inside : 4 * n ≤ sorted.length) : 0 ≤ lowerGaps sorted n ∧ 0 ≤ upperGaps sorted n := by
  constructor
  · apply Finset.sum_nonneg
    intro i member
    have before := Finset.mem_range.1 member
    exact lowerGap_nonneg ordered (by omega)
  · apply Finset.sum_nonneg
    intro i member
    have before := Finset.mem_range.1 member
    exact upperGap_nonneg ordered (by omega)

/-- The gaps fit in an array that spans no more than a long integer. -/
theorem gapsFit_of_span (ordered : sorted.Pairwise (· ≤ ·))
    (span : sorted.getD (sorted.length - 1) 0 - sorted.getD 0 0 ≤ 2 ^ 63 - 1) :
    GapsFit sorted := by
  constructor
  · intro n inside
    have gaps := lowerGaps_le ordered inside
    have order := getD_le_getD ordered (show 2 * n < 2 * n + 1 by omega) (by omega)
    have within : sorted.getD (2 * n + 1) 0 ≤ sorted.getD (sorted.length - 1) 0 := by
      by_cases last : 2 * n + 1 = sorted.length - 1
      · rw [last]
      · exact getD_le_getD ordered (by omega) (by omega)
    have nonneg := gaps_nonneg ordered (show 4 * n ≤ sorted.length by omega)
    have grown := lowerGaps_succ sorted n
    omega
  · intro n inside
    have gaps := upperGaps_le ordered inside
    have places : sorted.length - 2 - 2 * n < sorted.length - 1 - 2 * n := by omega
    have order := getD_le_getD ordered places (by omega)
    have within := getD_le_getD ordered (show 0 < sorted.length - 2 - 2 * n by omega) (by omega)
    have nonneg := gaps_nonneg ordered (show 4 * (n + 1) ≤ sorted.length by omega)
    have before := gaps_nonneg ordered (show 4 * n ≤ sorted.length by omega)
    have grown := upperGaps_succ sorted n
    omega

/-- `calc_diff_l` returns the exact difference of the halves exactly when nothing overflows. -/
theorem calcDiffL_exact_iff_sumsFit {result : SplitResult}
    (sizeFirst : result.firstHalf.length = result.halfSize)
    (sizeSecond : result.secondHalf.length = result.halfSize)
    (dealt : Dealt sorted (values result.firstHalf) (values result.secondHalf))
    (fits : IntType.int64.Represents result.exactDifference) :
    (∃ diff, calcDiffL result.firstHalfArray result.secondHalfArray result.halfSize = some diff ∧
        diff.1 = result.exactDifference) ↔
      SumsFit 0 (steps (values result.firstHalf) (values result.secondHalf)) := by
  have total : (List.zipWith (· - ·) (values result.firstHalf) (values result.secondHalf)).sum =
      result.exactDifference := sum_steps dealt
  constructor
  · rintro ⟨diff, returned, -⟩
    exact ((calcDiffL_eq_some sizeFirst sizeSecond).1 returned).1
  · intro sums
    exact ⟨⟨result.exactDifference, fits⟩,
      (calcDiffL_eq_some sizeFirst sizeSecond).2 ⟨sums, total.symm⟩, rfl⟩

/-- `calc_diff_l` returns the exact difference of the halves of an array that was sorted and
split, provided that the difference is a long integer, exactly when the gaps fit. -/
theorem calcDiffL_exact_iff {qsort : Qsort} (even : theSize % 2 = 0)
    (size : theArray.length = theSize)
    (permutes : (qsort myCompare theArray).Perm theArray)
    (ascending : Ascending (qsort myCompare theArray))
    (roomFirst : first.length = theSize / 2 + 2) (roomSecond : second.length = theSize / 2 + 2) :
    ∃ result, splitArray qsort theArray theSize first second = some result ∧
      ((IntType.int64.Represents result.exactDifference →
        ∃ diff, calcDiffL result.firstHalfArray result.secondHalfArray result.halfSize = some diff ∧
          diff.1 = result.exactDifference) ↔
      (IntType.int64.Represents result.exactDifference →
        GapsFit (values (qsort myCompare theArray)))) := by
  have sorted := permutes.length_eq.trans size
  obtain ⟨result, run, -, half, dealt⟩ := splitArray_dealt even sorted roomFirst roomSecond
  have hands := dealt.map Subtype.val
  obtain ⟨sizeFirst, sizeSecond⟩ := dealt.length
  refine ⟨result, run, imp_congr_right fun fits => ?_⟩
  rw [calcDiffL_exact_iff_sumsFit (by omega) (by omega) hands fits]
  exact sumsFit_iff_gapsFit hands ascending.values

/-- The differences of four elements add up exactly when their gaps fit. -/
theorem calcDiffL_exact_four :
    ∃ result, splitArray insertionQsort (longs [9, 1, 5, 2]) 4 (longs [0, 0, 0, 0])
        (longs [0, 0, 0, 0]) = some result ∧
      ((IntType.int64.Represents result.exactDifference →
        ∃ diff, calcDiffL result.firstHalfArray result.secondHalfArray result.halfSize = some diff ∧
          diff.1 = result.exactDifference) ↔
      (IntType.int64.Represents result.exactDifference →
        GapsFit (values (insertionQsort myCompare (longs [9, 1, 5, 2]))))) :=
  calcDiffL_exact_iff (by decide) rfl (insertionQsort_perm _ _) (by unfold Ascending; decide) rfl
    rfl

/-- A sort that puts numbers in ascending order, whatever the comparison function answers. -/
def ascendingQsort : Qsort := fun _ array => array.insertionSort fun a b => a.1 ≤ b.1

/-- The halves of this array differ by a long integer, but the first difference overflows. -/
theorem calcDiffL_overflow :
    ascendingQsort myCompare (longs [-2 ^ 63, 1, 1, 2 ^ 63 - 2 ^ 32 + 2]) =
        longs [-2 ^ 63, 1, 1, 2 ^ 63 - 2 ^ 32 + 2] ∧
      Ascending (longs [-2 ^ 63, 1, 1, 2 ^ 63 - 2 ^ 32 + 2]) ∧
      (splitArray ascendingQsort (longs [-2 ^ 63, 1, 1, 2 ^ 63 - 2 ^ 32 + 2]) 4
          (longs [0, 0, 0, 0]) (longs [0, 0, 0, 0])).map (fun result =>
            (calcDiffL result.firstHalfArray result.secondHalfArray result.halfSize,
              result.exactDifference)) = some (none, -2 ^ 32) ∧
      IntType.int64.Represents (-2 ^ 32) := by
  unfold Ascending
  decide

end Bpcp.Samples
