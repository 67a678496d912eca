import Mathlib

/-!
# Comparison functions that return an integer

A C comparison function answers with an `int` of which only the sign counts. The sign is
read here as an `Ordering`, so that the order classes of the standard library state what a
consistent comparison function is, and lexicographic order carries over to code that
returns the first difference it meets.
-/

namespace Bpcp.Lib

/-- The ordering that the result of a comparison function stands for. -/
def outcome (result : Int) : Ordering := compare result 0

/-- A negative result says less. -/
@[simp] theorem outcome_eq_lt {result : Int} : outcome result = .lt ↔ result < 0 :=
  compare_lt_iff_lt

/-- A zero result says equal. -/
@[simp] theorem outcome_eq_eq {result : Int} : outcome result = .eq ↔ result = 0 :=
  compare_eq_iff_eq

/-- A positive result says greater. -/
@[simp] theorem outcome_eq_gt {result : Int} : outcome result = .gt ↔ 0 < result :=
  compare_gt_iff_gt

/-- A result that is not positive says less or equal. -/
theorem outcome_isLE {result : Int} : (outcome result).isLE = true ↔ result ≤ 0 := by
  rw [Ordering.isLE_iff_eq_lt_or_eq_eq, outcome_eq_lt, outcome_eq_eq]
  omega

/-- Zero stands for equality. -/
@[simp] theorem outcome_zero : outcome 0 = .eq := rfl

/-- Opposite outcomes are opposite signs. -/
theorem outcome_swap {left right : Int} :
    outcome left = (outcome right).swap ↔ left.sign = -right.sign := by
  rcases lt_trichotomy left 0 with hl | rfl | hl <;> rcases lt_trichotomy right 0 with hr | rfl | hr
  all_goals
    simp [outcome, compare_lt_iff_lt.2, compare_gt_iff_gt.2, Int.sign_eq_neg_one_of_neg,
      Int.sign_eq_one_of_pos, *]

/-- Equal outcomes are equal signs. -/
theorem outcome_inj {left right : Int} : outcome left = outcome right ↔ left.sign = right.sign := by
  rcases lt_trichotomy left 0 with hl | rfl | hl <;> rcases lt_trichotomy right 0 with hr | rfl | hr
  all_goals
    simp [outcome, compare_lt_iff_lt.2, compare_gt_iff_gt.2, Int.sign_eq_neg_one_of_neg,
      Int.sign_eq_one_of_pos, *]

/-- Returning the first result unless it is zero orders lexicographically. -/
theorem outcome_first (first second : Int) :
    outcome (if first ≠ 0 then first else second) = (outcome first).then (outcome second) := by
  by_cases zero : first = 0
  · simp [zero]
  · rw [if_pos zero]
    cases h : outcome first with
    | eq => exact absurd (outcome_eq_eq.1 h) zero
    | lt => rfl
    | gt => rfl

/-- A difference has the sign of the comparison of its operands. -/
theorem outcome_sub (left right : Int) : outcome (left - right) = compare left right := by
  rcases lt_trichotomy left right with h | rfl | h
  · rw [outcome_eq_lt.2 (by omega), compare_lt_iff_lt.2 h]
  · simp
  · rw [outcome_eq_gt.2 (by omega), compare_gt_iff_gt.2 h]

/-- The usual three-way test has the sign of the comparison of its operands. -/
theorem outcome_threeWay {α : Type*} [LinearOrder α] (left right : α) :
    outcome (if left = right then 0 else if left < right then -1 else 1) = compare left right := by
  rcases lt_trichotomy left right with h | rfl | h
  · rw [if_neg h.ne, if_pos h, compare_lt_iff_lt.2 h]
    rfl
  · simp
  · rw [if_neg h.ne', if_neg h.asymm, compare_gt_iff_gt.2 h]
    rfl

/-- A three-way test answers zero on equal operands only. -/
theorem threeWay_eq_zero {α : Type} [DecidableEq α] [LT α] [DecidableLT α] {l r : α} :
    (if l = r then (0 : Int) else if l < r then -1 else 1) = 0 ↔ l = r := by
  by_cases same : l = r
  · simp [same]
  · rw [if_neg same]
    split <;> simp [same]

/-- The three-way test of signed words orders their values. -/
theorem outcome_int64 (left right : Int64) :
    outcome (if left = right then 0 else if left < right then -1 else 1) =
      compare left.toInt right.toInt := by
  rw [← outcome_threeWay left.toInt right.toInt]
  simp only [Int64.toInt_inj, Int64.lt_iff_toInt_lt]

/-- The three-way test of unsigned words orders their values. -/
theorem outcome_uint64 (left right : UInt64) :
    outcome (if left = right then 0 else if left < right then -1 else 1) =
      compare (left.toNat : Int) right.toNat := by
  rw [← outcome_threeWay (left.toNat : Int) right.toNat]
  simp only [Nat.cast_inj, UInt64.toNat_inj, Nat.cast_lt, UInt64.lt_iff_toNat_lt]

/-- Lexicographic order looks at the common length first and then at the lengths. -/
theorem compareLex_min {α : Type*} (cmp : α → α → Ordering) (left right : List α) :
    List.compareLex cmp left right =
      (List.compareLex cmp (left.take (min left.length right.length))
        (right.take (min left.length right.length))).then
        (compare left.length right.length) := by
  induction left generalizing right with
  | nil =>
    cases right with
    | nil => rfl
    | cons r rs => exact (compare_lt_iff_lt.2 (Nat.succ_pos _)).symm
  | cons l ls ih =>
    cases right with
    | nil => exact (compare_gt_iff_gt.2 (Nat.succ_pos _)).symm
    | cons r rs =>
      rw [List.compareLex_cons_cons, ih, List.length_cons, List.length_cons,
        Nat.add_min_add_right, List.take_succ_cons, List.take_succ_cons,
        List.compareLex_cons_cons, Ordering.then_assoc]
      simp only [compare, compareOfLessAndEq, Nat.add_lt_add_iff_right, Nat.add_right_cancel_iff]

/-- A common beginning does not count. -/
theorem compareLex_append {α : Type*} {cmp : α → α → Ordering} [Std.ReflCmp cmp]
    (common left right : List α) :
    List.compareLex cmp (common ++ left) (common ++ right) = List.compareLex cmp left right := by
  induction common with
  | nil => rfl
  | cons value rest ih =>
    have same : cmp value value = .eq := Std.ReflCmp.compare_self
    rw [List.cons_append, List.cons_append, List.compareLex_cons_cons, same, ih]
    rfl

/-- A comparison function orders consistently: swapping its operands swaps its answer, and
its answers are transitive. -/
abbrev Consistent {α : Type*} (cmp : α → α → Int) : Prop :=
  Std.TransCmp fun left right => outcome (cmp left right)

namespace Consistent

variable {α : Type*} {cmp : α → α → Int}

/-- Swapping the operands of a consistent comparison negates the sign of its result. -/
theorem sign_swap (consistent : Consistent cmp) (left right : α) :
    (cmp right left).sign = -(cmp left right).sign :=
  outcome_swap.1 (consistent.eq_swap (a := right) (b := left))

/-- A consistent comparison never contradicts itself along a chain. -/
theorem trans (consistent : Consistent cmp) {first second third : α}
    (lower : cmp first second ≤ 0) (upper : cmp second third ≤ 0) : cmp first third ≤ 0 :=
  outcome_isLE.1 (consistent.isLE_trans (outcome_isLE.2 lower) (outcome_isLE.2 upper))

/-- Values that compare equal compare alike to every value. -/
theorem sign_congr (consistent : Consistent cmp) {first second : α} (equal : cmp first second = 0)
    (third : α) : (cmp first third).sign = (cmp second third).sign :=
  outcome_inj.1 (consistent.congr_left (outcome_eq_eq.2 equal))

/-- Comparing what a function reads of two values is consistent. -/
theorem comap {β : Type*} (consistent : Consistent cmp) (read : β → α) :
    Std.TransCmp fun left right : β => outcome (cmp (read left) (read right)) where
  eq_swap := consistent.eq_swap
  isLE_trans := consistent.isLE_trans

/-- A value compares equal to itself. -/
theorem self_eq_zero (consistent : Consistent cmp) (value : α) : cmp value value = 0 := by
  have opposite := consistent.sign_swap value value
  exact Int.sign_eq_zero_iff_zero.1 (by omega)

end Consistent

end Bpcp.Lib
