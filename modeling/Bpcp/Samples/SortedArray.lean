import Bpcp.Lib.CString
import Bpcp.Lib.MachineInt

/-!
# Binary search in sorted arrays

The macro `find_key_in_sorted_array` generates a binary search for any array, any type of
keys and any comparison function. The loop narrows an interval of indices of type `ssize_t`,
whose ends may come to lie one before the first and one behind the last element. The loop
has no result here when an index is outside the array, when a sum of indices overflows, or
when it takes more turns than the array has elements.
-/

namespace Bpcp.Samples

open Bpcp.Lib

/-- The arguments of `find_key_in_sorted_array`. -/
structure SearchArgs (K E V : Type) where
  /-- `array`. -/
  array : List E
  /-- `key_field`. -/
  keyField : E → K
  /-- `value_field`. -/
  valueField : E → V
  /-- `cmp_func`. -/
  cmpFunc : K → K → Int
  /-- `not_found_value`. -/
  notFoundValue : V

variable {K E V : Type}

/-- `SSIZE_MAX`. -/
def ssizeMax : Int := IntType.int64.greatest

/-- A sum of type `ssize_t`, when it does not overflow. -/
def ssizeAdd (left right : Int) : Option Int :=
  if IntType.int64.Represents (left + right) then some (left + right) else none

/-- The element at an index inside an array. -/
def elementAt (array : List E) (index : Int) : Option E :=
  if 0 ≤ index then array[index.toNat]? else none

/-- The loop of `find_key_in_sorted_array`, for at most a number of turns. -/
def searchLoop (args : SearchArgs K E V) (key : K) : Nat → Int → Int → Option V
  | 0, low, high => if low ≤ high then none else some args.notFoundValue
  | turns + 1, low, high =>
    if low ≤ high then do
      let sum ← ssizeAdd low high
      let mid := sum.tdiv 2
      let element ← elementAt args.array mid
      let cmp := args.cmpFunc key (args.keyField element)
      if cmp = 0 then some (args.valueField element)
      else if cmp < 0 then searchLoop args key turns low (mid - 1)
      else searchLoop args key turns (mid + 1) high
    else some args.notFoundValue

/-- The function that `find_key_in_sorted_array` generates. -/
def findKeyInSortedArray (args : SearchArgs K E V) (key : K) : Option V :=
  let max := (args.array.length : Int) - 1
  searchLoop args key args.array.length 0 max

/-! ## One turn -/

variable {args : SearchArgs K E V} {key : K} {turns : Nat} {low high : Int}

/-- An empty interval ends the loop. -/
theorem searchLoop_empty (empty : high < low) :
    searchLoop args key turns low high = some args.notFoundValue := by
  cases turns with
  | zero => exact if_neg (by omega)
  | succ turns => exact if_neg (by omega)

/-- A turn in an interval of an array looks at an element of the interval and goes on in front
of it or behind it. -/
theorem searchLoop_turn (key : K) (turns : Nat)
    (short : 2 * (args.array.length : Int) < ssizeMax) (start : 0 ≤ low)
    (nonempty : low ≤ high) (stop : high < args.array.length) :
    ∃ (mid : Nat) (inside : mid < args.array.length), low ≤ mid ∧ mid ≤ high ∧
      searchLoop args key (turns + 1) low high =
        if args.cmpFunc key (args.keyField args.array[mid]) = 0 then
          some (args.valueField args.array[mid])
        else if args.cmpFunc key (args.keyField args.array[mid]) < 0 then
          searchLoop args key turns low (mid - 1)
        else searchLoop args key turns (mid + 1) high := by
  have most : ssizeMax = 2 ^ 63 - 1 := rfl
  have least : IntType.int64.least = -2 ^ 63 := rfl
  have sum : ssizeAdd low high = some (low + high) := by
    apply if_pos
    constructor
    · omega
    · change low + high ≤ ssizeMax
      omega
  have middle : (low + high).tdiv 2 = ((low + high) / 2).toNat := by
    rw [Int.tdiv_eq_ediv_of_nonneg (by omega)]
    omega
  have inside : ((low + high) / 2).toNat < args.array.length := by omega
  have element : elementAt args.array ((low + high) / 2).toNat =
      some args.array[((low + high) / 2).toNat] := by
    rw [elementAt, if_pos (Int.natCast_nonneg _), Int.toNat_natCast,
      List.getElem?_eq_getElem inside]
  refine ⟨((low + high) / 2).toNat, inside, by omega, by omega, ?_⟩
  rw [searchLoop, if_pos nonempty, sum]
  simp only [Option.bind_eq_bind, Option.bind_some, middle, element]

/-! ## Whole searches -/

/-- Without an element that compares equal the search finds nothing, however the array is
ordered. -/
theorem searchLoop_absent (short : 2 * (args.array.length : Int) < ssizeMax)
    (absent : ∀ element ∈ args.array, args.cmpFunc key (args.keyField element) ≠ 0)
    (start : 0 ≤ low) (stop : high < args.array.length) (enough : high - low < turns) :
    searchLoop args key turns low high = some args.notFoundValue := by
  induction turns generalizing low high with
  | zero => exact searchLoop_empty (by omega)
  | succ turns ih =>
    by_cases nonempty : low ≤ high
    · obtain ⟨mid, inside, above, below, turn⟩ :=
        searchLoop_turn key turns short start nonempty stop
      rw [turn, if_neg (absent _ (List.getElem_mem inside))]
      split_ifs
      · exact ih start (by omega) (by omega)
      · exact ih (by omega) stop (by omega)
    · exact searchLoop_empty (by omega)

/-- An element of the interval that compares equal is found when the elements in front of it
compare less and those behind it compare greater. -/
theorem searchLoop_present {index : Nat} (short : 2 * (args.array.length : Int) < ssizeMax)
    (inside : index < args.array.length)
    (equal : args.cmpFunc key (args.keyField args.array[index]) = 0)
    (before : ∀ (i : Nat) (lt : i < index), 0 < args.cmpFunc key (args.keyField args.array[i]))
    (behind : ∀ (i : Nat) (bound : i < args.array.length), index < i →
      args.cmpFunc key (args.keyField args.array[i]) < 0)
    (start : 0 ≤ low) (stop : high < args.array.length) (lower : low ≤ index)
    (upper : index ≤ high) (enough : high - low < turns) :
    searchLoop args key turns low high = some (args.valueField args.array[index]) := by
  induction turns generalizing low high with
  | zero => omega
  | succ turns ih =>
    obtain ⟨mid, bound, above, below, turn⟩ :=
      searchLoop_turn key turns short start (by omega) stop
    rw [turn]
    rcases lt_trichotomy mid index with left | same | right
    · -- The element compares less, so the search goes on behind it.
      have greater := before mid left
      rw [if_neg (by omega), if_neg (by omega)]
      exact ih (by omega) stop (by omega) upper (by omega)
    · subst same
      rw [if_pos equal]
    · have less := behind mid bound right
      rw [if_neg (by omega), if_pos less]
      exact ih start (by omega) lower (by omega) (by omega)

/-- The keys of the array increase strictly. -/
def Sorted (args : SearchArgs K E V) : Prop :=
  args.array.Pairwise fun left right =>
    args.cmpFunc (args.keyField left) (args.keyField right) < 0

/-- In a sorted array a key that compares equal to an element compares greater than what is in
front of the element and less than what is behind it. -/
theorem Sorted.sides (sorted : Sorted args) (consistent : Consistent args.cmpFunc) {index : Nat}
    (inside : index < args.array.length)
    (equal : args.cmpFunc key (args.keyField args.array[index]) = 0) :
    (∀ (i : Nat) (lt : i < index), 0 < args.cmpFunc key (args.keyField args.array[i])) ∧
      ∀ (i : Nat) (bound : i < args.array.length), index < i →
        args.cmpFunc key (args.keyField args.array[i]) < 0 := by
  have pairs := List.pairwise_iff_getElem.1 sorted
  have alike := consistent.sign_congr equal
  constructor
  · intro i lt
    have order := pairs i index (by omega) inside lt
    rw [← Int.sign_eq_one_iff_pos, alike, consistent.sign_swap, Int.sign_eq_neg_one_of_neg order]
    rfl
  · intro i bound lt
    rw [← Int.sign_eq_neg_one_iff_neg, alike, Int.sign_eq_neg_one_iff_neg]
    exact pairs index i inside bound lt

/-- In a sorted array the search ends without leaving the array, with the value of the one
element that compares equal to the key or, without such an element, with the value for that. -/
theorem findKeyInSortedArray_sorted (args : SearchArgs K E V)
    (consistent : Consistent args.cmpFunc) (short : 2 * (args.array.length : Int) < ssizeMax)
    (sorted : Sorted args) (key : K) :
    (∀ (index : Nat) (inside : index < args.array.length),
      args.cmpFunc key (args.keyField args.array[index]) = 0 →
        findKeyInSortedArray args key = some (args.valueField args.array[index]) ∧
          ∀ (other : Nat) (bound : other < args.array.length),
            args.cmpFunc key (args.keyField args.array[other]) = 0 → other = index) ∧
      ((∀ element ∈ args.array, args.cmpFunc key (args.keyField element) ≠ 0) →
        findKeyInSortedArray args key = some args.notFoundValue) := by
  constructor
  · intro index inside equal
    obtain ⟨before, behind⟩ := sorted.sides consistent inside equal
    constructor
    · exact searchLoop_present short inside equal before behind le_rfl (by omega) (by omega)
        (by omega) (by omega)
    · intro other bound same
      rcases lt_trichotomy other index with left | equal | right
      · exact absurd same (before other left).ne'
      · exact equal
      · exact absurd same (behind other bound right).ne
  · intro absent
    exact searchLoop_absent short absent le_rfl (by omega) (by omega)

/-- `intcmp`, of keys whose difference does not overflow. -/
def intcmp (i1 i2 : Int) : Int := i1 - i2

/-- Differences order numbers consistently. -/
theorem intcmp_consistent : Consistent intcmp where
  eq_swap {left right} := by
    rw [intcmp, intcmp, outcome_sub, outcome_sub]
    exact Std.OrientedCmp.eq_swap
  isLE_trans {first second third} lower upper := by
    rw [intcmp, outcome_sub] at *
    exact Std.TransCmp.isLE_trans lower upper

/-- `int_key_ids`, the keys with their identifiers. -/
def intKeyIds : SearchArgs Int (Int × Int) Int where
  array := [(2, 1), (3, 2), (5, 3), (8, 4), (13, 5), (21, 6), (34, 7), (55, 8), (89, 9)]
  keyField := Prod.fst
  valueField := Prod.snd
  cmpFunc := intcmp
  notFoundValue := -1

/-- The sample's table of numbers is sorted, so a key is found in it and another is not. -/
theorem findKeyInSortedArray_intKeyIds :
    findKeyInSortedArray intKeyIds 55 = some 8 ∧ findKeyInSortedArray intKeyIds 90 = some (-1) := by
  have sorted : Sorted intKeyIds := by
    unfold Sorted
    decide
  have correct := findKeyInSortedArray_sorted intKeyIds intcmp_consistent (by decide) sorted
  exact ⟨((correct 55).1 7 (by decide) (by decide)).1, (correct 90).2 (by decide)⟩

/-- Keys that compare alike to every element are looked up alike. -/
theorem searchLoop_congr {other : K}
    (alike : ∀ element ∈ args.array, (args.cmpFunc key (args.keyField element)).sign =
      (args.cmpFunc other (args.keyField element)).sign) :
    searchLoop args key turns low high = searchLoop args other turns low high := by
  induction turns generalizing low high with
  | zero => rfl
  | succ turns ih =>
    rw [searchLoop, searchLoop]
    congr 1
    cases ssizeAdd low high with
    | none => rfl
    | some sum =>
      simp only [Option.bind_eq_bind, Option.bind_some]
      cases found : elementAt args.array (sum.tdiv 2) with
      | none => rfl
      | some element =>
        have member : element ∈ args.array := by
          rw [elementAt] at found
          split_ifs at found
          exact List.mem_of_getElem? found
        have signs := alike element member
        have zero : args.cmpFunc key (args.keyField element) = 0 ↔
            args.cmpFunc other (args.keyField element) = 0 := by
          rw [← Int.sign_eq_zero_iff_zero, signs, Int.sign_eq_zero_iff_zero]
        have negative : args.cmpFunc key (args.keyField element) < 0 ↔
            args.cmpFunc other (args.keyField element) < 0 := by
          rw [← Int.sign_eq_neg_one_iff_neg, signs, Int.sign_eq_neg_one_iff_neg]
        simp only [Option.bind_some, zero, negative, ih]

end Bpcp.Samples
