import Bpcp.Samples.SplitBalance

/-!
# Sorting by narrowed differences

The comparison function of the sample subtracts two long integers and returns the difference
as an `int`. The subtraction may overflow, and the conversion keeps the low half of the
difference only. So the sign is right for two elements exactly when their distance is a long
integer whose low half is positive as an `int`. `qsort` sorts by a comparison function that
orders the elements consistently.
-/

namespace Bpcp.Samples

open Bpcp.Lib

/-- A comparison function puts an element not behind another one. -/
def NotBehind (compar : Long → Long → Option IntType.int32.Value) (a b : Long) : Prop :=
  (compar a b).any (fun order => order.1 ≤ 0) = true

instance (compar : Long → Long → Option IntType.int32.Value) (a b : Long) :
    Decidable (NotBehind compar a b) := inferInstanceAs (Decidable (_ = true))

/-- A comparison function orders the elements of an array consistently. -/
structure ConsistentOn (compar : Long → Long → Option IntType.int32.Value)
    (array : List Long) : Prop where
  /-- Comparing two elements the other way round has the opposite result. -/
  opposite : ∀ a ∈ array, ∀ b ∈ array, ∃ order reverse, compar a b = some order ∧
    compar b a = some reverse ∧ (order.1 < 0 ↔ 0 < reverse.1)
  /-- The order is transitive. -/
  trans : ∀ a ∈ array, ∀ b ∈ array, ∀ c ∈ array, NotBehind compar a b → NotBehind compar b c →
    NotBehind compar a c

/-- `qsort` permutes an array whose elements are ordered consistently, and leaves it in order. -/
def QsortSorts (qsort : Qsort) (compar : Long → Long → Option IntType.int32.Value)
    (array : List Long) : Prop :=
  ConsistentOn compar array →
    (qsort compar array).Perm array ∧ (qsort compar array).Pairwise (NotBehind compar)

/-- The sign of `my_compare` is the order of the numbers, for all elements of an array. -/
def ComparesRight (array : List Long) : Prop :=
  ∀ a ∈ array, ∀ b ∈ array, ∃ order, myCompare a b = some order ∧
    (order.1 < 0 ↔ a.1 < b.1) ∧ (order.1 = 0 ↔ a.1 = b.1) ∧ (0 < order.1 ↔ b.1 < a.1)

/-- The array is compared rightly and consistently, and is sorted. -/
structure SortsRight (qsort : Qsort) (array : List Long) : Prop where
  /-- The signs are right. -/
  compares : ComparesRight array
  /-- The order is consistent. -/
  consistent : ConsistentOn myCompare array
  /-- The array is left in ascending order. -/
  ascending : Ascending (qsort myCompare array)

/-- The distance of any two different elements is a long integer with a low half that is positive
as an `int`. -/
def DistancesFit (array : List Long) : Prop :=
  ∀ a ∈ array, ∀ b ∈ array, a.1 < b.1 →
    b.1 - a.1 ≤ 2 ^ 63 - 1 ∧ 0 < (b.1 - a.1) % 2 ^ 32 ∧ (b.1 - a.1) % 2 ^ 32 ≤ 2 ^ 31 - 1

variable {array : List Long} {a b : Long}

/-! ## Two elements -/

/-- Narrowing to an `int` keeps the low half, as a number from -2^31 on. -/
theorem wrap_int32 (n : Int) : (IntType.int32.wrap n).1 = (n + 2 ^ 31) % 2 ^ 32 - 2 ^ 31 := by
  have least : IntType.int32.least = -2 ^ 31 := rfl
  have bits : IntType.int32.bits = 32 := rfl
  show IntType.int32.least + (n - IntType.int32.least) % 2 ^ IntType.int32.bits = _
  rw [least, bits]
  omega

/-- `my_compare` has a result exactly when the difference does not overflow. -/
theorem myCompare_eq_some {order : IntType.int32.Value} :
    myCompare a b = some order ↔
      IntType.int64.Represents (a.1 - b.1) ∧ order = IntType.int32.wrap (a.1 - b.1) := by
  rw [myCompare, Option.map_eq_some_iff]
  constructor
  · rintro ⟨difference, exact, rfl⟩
    obtain ⟨fits, value⟩ := longSub_eq_some.1 exact
    exact ⟨fits, by rw [value]⟩
  · rintro ⟨fits, rfl⟩
    exact ⟨⟨a.1 - b.1, fits⟩, longSub_eq_some.2 ⟨fits, rfl⟩, rfl⟩

/-- Elements in a fitting distance are compared with the right signs. -/
theorem myCompare_of_lt (order : a.1 < b.1) (span : b.1 - a.1 ≤ 2 ^ 63 - 1)
    (positive : 0 < (b.1 - a.1) % 2 ^ 32) (small : (b.1 - a.1) % 2 ^ 32 ≤ 2 ^ 31 - 1) :
    (∃ before, myCompare a b = some before ∧ before.1 < 0) ∧
      ∃ behind, myCompare b a = some behind ∧ 0 < behind.1 := by
  refine ⟨⟨_, myCompare_eq_some.2 ⟨represents_int64.2 (by omega), rfl⟩, ?_⟩,
    ⟨_, myCompare_eq_some.2 ⟨represents_int64.2 (by omega), rfl⟩, ?_⟩⟩
  · rw [wrap_int32]
    omega
  · rw [wrap_int32]
    omega

/-- An element compares equal to another one with its number. -/
theorem myCompare_self (same : a.1 = b.1) :
    ∃ order, myCompare a b = some order ∧ order.1 = 0 := by
  refine ⟨_, myCompare_eq_some.2 ⟨represents_int64.2 (by omega), rfl⟩, ?_⟩
  rw [wrap_int32, same]
  omega

/-- Elements that are compared with the right signs are in a fitting distance. -/
theorem distance_fits (order : a.1 < b.1) {before behind : IntType.int32.Value}
    (compareL : myCompare a b = some before) (negative : before.1 < 0)
    (compareR : myCompare b a = some behind) (positive : 0 < behind.1) :
    b.1 - a.1 ≤ 2 ^ 63 - 1 ∧ 0 < (b.1 - a.1) % 2 ^ 32 ∧ (b.1 - a.1) % 2 ^ 32 ≤ 2 ^ 31 - 1 := by
  obtain ⟨-, rfl⟩ := myCompare_eq_some.1 compareL
  obtain ⟨fits, rfl⟩ := myCompare_eq_some.1 compareR
  rw [wrap_int32] at negative positive
  rw [represents_int64] at fits
  omega

/-! ## Arrays -/

/-- In fitting distances all signs are right. -/
theorem comparesRight_iff : ComparesRight array ↔ DistancesFit array := by
  constructor
  · intro compares a insideA b insideB order
    obtain ⟨before, compareL, negative, -, -⟩ := compares a insideA b insideB
    obtain ⟨behind, compareR, -, -, positive⟩ := compares b insideB a insideA
    exact distance_fits order compareL (negative.2 order) compareR (positive.2 order)
  · intro fits a insideA b insideB
    rcases lt_trichotomy a.1 b.1 with order | same | order
    · obtain ⟨span, positive, small⟩ := fits a insideA b insideB order
      obtain ⟨⟨before, compared, negative⟩, -⟩ := myCompare_of_lt order span positive small
      exact ⟨before, compared, by omega, by omega, by omega⟩
    · obtain ⟨equal, compared, zero⟩ := myCompare_self same
      exact ⟨equal, compared, by omega, by omega, by omega⟩
    · obtain ⟨span, positive, small⟩ := fits b insideB a insideA order
      obtain ⟨-, behind, compared, positive⟩ := myCompare_of_lt order span positive small
      exact ⟨behind, compared, by omega, by omega, by omega⟩

/-- With right signs an element is put not behind another one exactly when it is not greater. -/
theorem ComparesRight.notBehind_iff (compares : ComparesRight array) (insideA : a ∈ array)
    (insideB : b ∈ array) : NotBehind myCompare a b ↔ a.1 ≤ b.1 := by
  obtain ⟨order, compared, -, -, positive⟩ := compares a insideA b insideB
  rw [NotBehind, compared, Option.any_some, decide_eq_true_iff]
  omega

/-- With right signs the order is consistent. -/
theorem ComparesRight.consistent (compares : ComparesRight array) :
    ConsistentOn myCompare array where
  opposite := by
    intro a insideA b insideB
    obtain ⟨order, compared, negative, -, -⟩ := compares a insideA b insideB
    obtain ⟨reverse, compareR, -, -, positive⟩ := compares b insideB a insideA
    exact ⟨order, reverse, compared, compareR, negative.trans positive.symm⟩
  trans := by
    intro a insideA b insideB c insideC
    rw [compares.notBehind_iff insideA insideB, compares.notBehind_iff insideB insideC,
      compares.notBehind_iff insideA insideC]
    exact le_trans

/-- The array is compared rightly and sorted exactly when the distances of its elements fit. -/
theorem splitArray_sorts_iff {qsort : Qsort} (sorts : QsortSorts qsort myCompare array) :
    SortsRight qsort array ↔ DistancesFit array := by
  rw [← comparesRight_iff]
  constructor
  · exact SortsRight.compares
  · intro compares
    obtain ⟨permuted, ordered⟩ := sorts compares.consistent
    refine ⟨compares, compares.consistent, ordered.imp_of_mem ?_⟩
    intro a b insideA insideB notBehind
    exact (compares.notBehind_iff (permuted.mem_iff.1 insideA)
      (permuted.mem_iff.1 insideB)).1 notBehind

/-- Three small numbers are sorted exactly when their distances fit. -/
theorem splitArray_sorts_three :
    SortsRight insertionQsort (longs [3, 1, 2]) ↔ DistancesFit (longs [3, 1, 2]) :=
  splitArray_sorts_iff fun _ => ⟨insertionQsort_perm _ _, by decide⟩

/-- Numbers in a distance of 2^32 compare equal, and stay in descending order. -/
theorem splitArray_unsorted :
    myCompare ⟨2 ^ 32, by decide⟩ ⟨0, by decide⟩ = some ⟨0, by decide⟩ ∧
      ¬SortsRight insertionQsort (longs [2 ^ 32, 0]) := by
  refine ⟨by decide, fun sorts => ?_⟩
  have ascending := sorts.ascending
  revert ascending
  unfold Ascending
  decide

end Bpcp.Samples
