import Bpcp.Lib.FilledArray

/-!
# Sorting three integers

`sort_three_integers` finds the minimum and the maximum of three integers, with their indices, and
infers the index of the one in the middle. The third integer becomes the maximum whenever it is
not below the minimum, without being compared with the maximum so far: the integers are sorted
exactly when it is below the other two or not below either of them.
-/

namespace Bpcp.Samples

open Bpcp.Lib

/-- The minimum and the maximum so far, with their indices. -/
structure Extremes where
  /-- `min`. -/
  min : ℤ
  /-- `max`. -/
  max : ℤ
  /-- `min_i`. -/
  minIndex : ℤ
  /-- `max_i`. -/
  maxIndex : ℤ
deriving DecidableEq

/-- A comparison of `sort_three_integers`: an integer is the minimum, or else the maximum. -/
def Extremes.update (numbers : List ℤ) (i : ℕ) (extremes : Extremes) : Option Extremes := do
  let number ← numbers[i]?
  if number < extremes.min then some { extremes with min := number, minIndex := i }
  else some { extremes with max := number, maxIndex := i }

/-- The number at an index of type `int`. -/
def numberAt (numbers : List ℤ) (i : ℤ) : Option ℤ :=
  if 0 ≤ i then numbers[i.toNat]? else none

/-- `sort_three_integers`. There is no result when the assertion fails, or when an index is not
valid. -/
def sortThreeIntegers (numbers : List ℤ) : Option (List ℤ) := do
  let first ← numbers[0]?
  let extremes ← Extremes.update numbers 1 ⟨first, first, 0, 0⟩
  let extremes ← Extremes.update numbers 2 extremes
  if extremes.minIndex ≠ extremes.maxIndex then do
    let mid ← numberAt numbers (3 - extremes.minIndex - extremes.maxIndex)
    let numbers ← assignAt numbers 0 extremes.min
    let numbers ← assignAt numbers 1 mid
    assignAt numbers 2 extremes.max
  else none

variable {first second third : ℤ}

/-- The first comparison puts the first two integers in order, and knows where they are. -/
theorem update_second (first second third : ℤ) :
    ∃ low high : ℤ, low + high = 1 ∧ low ≠ 2 ∧ high ≠ 2 ∧
      numberAt [first, second, third] low = some (min first second) ∧
      numberAt [first, second, third] high = some (max first second) ∧
      Extremes.update [first, second, third] 1 ⟨first, first, 0, 0⟩ =
        some ⟨min first second, max first second, low, high⟩ := by
  rcases lt_or_ge second first with lower | lower
  · rw [min_eq_right lower.le, max_eq_left lower.le]
    exact ⟨1, 0, by decide, by decide, by decide, rfl, rfl, if_pos lower⟩
  · rw [min_eq_left lower, max_eq_right lower]
    exact ⟨0, 1, by decide, by decide, by decide, rfl, rfl, if_neg lower.not_gt⟩

/-- A third integer below the other two comes first. -/
theorem sortThreeIntegers_below (below : third < min first second) :
    sortThreeIntegers [first, second, third] =
      some [third, min first second, max first second] := by
  obtain ⟨low, high, both, -, notThird, isLow, -, compared⟩ := update_second first second third
  have mid : (3 : ℤ) - 2 - high = low := by omega
  unfold sortThreeIntegers
  show (Extremes.update _ 1 _ >>= _) = _
  rw [compared]
  show ((if third < min first second then some _ else some _) >>= _) = _
  rw [if_pos below]
  show (if (2 : ℤ) ≠ high then numberAt _ (3 - 2 - high) >>= _ else none) = _
  rw [if_pos notThird.symm, mid, isLow]
  rfl

/-- Every other third integer comes last. -/
theorem sortThreeIntegers_not_below (above : min first second ≤ third) :
    sortThreeIntegers [first, second, third] =
      some [min first second, max first second, third] := by
  obtain ⟨low, high, both, notThird, -, -, isHigh, compared⟩ := update_second first second third
  have mid : (3 : ℤ) - low - 2 = high := by omega
  unfold sortThreeIntegers
  show (Extremes.update _ 1 _ >>= _) = _
  rw [compared]
  show ((if third < min first second then some _ else some _) >>= _) = _
  rw [if_neg above.not_gt]
  show (if low ≠ (2 : ℤ) then numberAt _ (3 - low - 2) >>= _ else none) = _
  rw [if_pos notThird, mid, isHigh]
  rfl

/-- The first two integers in order. -/
theorem min_max_perm (first second : ℤ) :
    [min first second, max first second].Perm [first, second] := by
  rcases le_total first second with ordered | ordered
  · rw [min_eq_left ordered, max_eq_right ordered]
  · rw [min_eq_right ordered, max_eq_left ordered]
    exact List.Perm.swap ..

/-- For every three integers the assertion holds and the indices are valid, and no integer is lost
or repeated. -/
theorem sortThreeIntegers_perm (first second third : ℤ) :
    ∃ low mid high, sortThreeIntegers [first, second, third] = some [low, mid, high] ∧
      [low, mid, high].Perm [first, second, third] := by
  have pair := min_max_perm first second
  rcases lt_or_ge third (min first second) with below | above
  · refine ⟨_, _, _, sortThreeIntegers_below below, ?_⟩
    exact (pair.cons third).trans (List.perm_append_singleton third [first, second]).symm
  · exact ⟨_, _, _, sortThreeIntegers_not_below above, pair.append_right [third]⟩

/-- The assertion holds, the indices are valid, and `sort_three_integers` sorts its integers. -/
def SortsThree (first second third : ℤ) : Prop :=
  ∃ low mid high, sortThreeIntegers [first, second, third] = some [low, mid, high] ∧
    low ≤ mid ∧ mid ≤ high ∧ [low, mid, high].Perm [first, second, third]

/-- Three integers are sorted exactly when the third one is below the other two or not below
either of them. -/
theorem sortThreeIntegers_sorts_iff (first second third : ℤ) :
    SortsThree first second third ↔
      third < min first second ∨ max first second ≤ third := by
  obtain ⟨low, mid, high, run, perm⟩ := sortThreeIntegers_perm first second third
  have sorts : SortsThree first second third ↔ low ≤ mid ∧ mid ≤ high := by
    constructor
    · rintro ⟨_, _, _, again, lower, upper, -⟩
      rw [run] at again
      cases again
      exact ⟨lower, upper⟩
    · rintro ⟨lower, upper⟩
      exact ⟨low, mid, high, run, lower, upper, perm⟩
  rw [sorts]
  rcases lt_or_ge third (min first second) with below | above
  · rw [sortThreeIntegers_below below] at run
    cases run
    exact iff_of_true ⟨below.le, min_le_max⟩ (Or.inl below)
  · rw [sortThreeIntegers_not_below above] at run
    cases run
    rw [and_iff_right min_le_max, or_iff_right above.not_gt]

/-- One, three and two stay as they are. -/
theorem sortThreeIntegers_one_three_two :
    sortThreeIntegers [1, 3, 2] = some [1, 3, 2] ∧ ¬SortsThree 1 3 2 := by
  refine ⟨by decide, ?_⟩
  rintro ⟨low, mid, high, run, lower, upper, -⟩
  have same : sortThreeIntegers [1, 3, 2] = some [1, 3, 2] := by decide
  rw [same] at run
  cases run
  omega

end Bpcp.Samples
