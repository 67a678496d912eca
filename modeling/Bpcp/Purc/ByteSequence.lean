import Bpcp.Purc.Equal

/-!
# Order of byte sequences

`bs_diff` and `pcvar_compare_ex` read both operands through `sz_ptr`, so they see the
contents only of sequences that are stored in extra space; of an inline sequence they take
the content for a length and a pointer. In extra space `bs_diff` compares the common
length, whereas `pcvar_compare_ex` compares the length of the first operand, which is more
than the second one has when the first is longer.
-/

namespace Bpcp.Purc

open Bpcp.Lib

/-- `bs_diff`. -/
def bsDiff (l r : Storage) : Option Int :=
  let ln := l.szPtr0
  let rn := r.szPtr0
  let n := if ln < rn then ln else rn
  (memcmp l.szPtr1 r.szPtr1 n).map fun diff =>
    if diff ≠ 0 then diff else if ln = rn then 0 else if ln < rn then -1 else 1

/-- The byte-sequence case of `pcvar_compare_ex`. -/
def compareBsequences (l r : Storage) : Option Int :=
  if l.szPtr0 < r.szPtr0 then
    (memcmp l.szPtr1 r.szPtr1 l.szPtr0).map fun diff => if diff ≠ 0 then diff else -1
  else if l.szPtr0 = r.szPtr0 then memcmp l.szPtr1 r.szPtr1 l.szPtr0
  else (memcmp l.szPtr1 r.szPtr1 l.szPtr0).map fun diff => if diff ≠ 0 then diff else 1

/-- A result orders two byte sequences: there is one, so nothing outside was read, and it
has the sign of the lexicographic comparison of the contents. -/
def OrdersContents (l r : Storage) (result : Option Int) : Prop :=
  ∃ diff, result = some diff ∧ outcome diff = List.compareLex compare l.content r.content

variable {l r : Storage}

/-- A result that orders two sequences is zero exactly when they have the same content. -/
theorem OrdersContents.zero_iff {result : Option Int} (orders : OrdersContents l r result) :
    result = some 0 ↔ equalStored l r = true := by
  obtain ⟨diff, rfl, order⟩ := orders
  rw [Option.some.injEq, ← outcome_eq_eq, order, Std.LawfulEqCmp.compare_eq_iff_eq,
    equalStored_iff]

/-- `bs_diff` orders sequences in extra space. -/
theorem bsDiff_outside (outsideL : l.isInline = false) (outsideR : r.isInline = false) :
    OrdersContents l r (bsDiff l r) := by
  obtain ⟨lengthL, contentL⟩ := Storage.szPtr_of_not_inline outsideL
  obtain ⟨lengthR, contentR⟩ := Storage.szPtr_of_not_inline outsideR
  have common : (if l.szPtr0 < r.szPtr0 then l.szPtr0 else r.szPtr0) =
      min l.content.length r.content.length := by
    rw [lengthL, lengthR]
    split <;> omega
  obtain ⟨diff, run, order⟩ := memcmp_inside l.content r.content
    (min l.content.length r.content.length) (min_le_left _ _) (min_le_right _ _)
  refine ⟨_, by rw [bsDiff, common, contentL, contentR, run, Option.map_some], ?_⟩
  rw [outcome_first, outcome_threeWay, order, lengthL, lengthR, ← compareLex_min]

/-- `pcvar_compare_ex` orders sequences in extra space unless the first is longer. -/
theorem compareBsequences_outside (outsideL : l.isInline = false)
    (outsideR : r.isInline = false) :
    OrdersContents l r (compareBsequences l r) ↔ l.content.length ≤ r.content.length := by
  obtain ⟨lengthL, contentL⟩ := Storage.szPtr_of_not_inline outsideL
  obtain ⟨lengthR, contentR⟩ := Storage.szPtr_of_not_inline outsideR
  rw [compareBsequences, lengthL, lengthR, contentL, contentR]
  have lengths := compareLex_min compare l.content r.content
  rcases lt_trichotomy l.content.length r.content.length with shorter | same | longer
  · obtain ⟨diff, run, order⟩ := memcmp_inside l.content r.content l.content.length le_rfl
      shorter.le
    rw [if_pos shorter, run]
    refine iff_of_true ⟨_, rfl, ?_⟩ shorter.le
    rw [outcome_first, order, lengths, min_eq_left shorter.le, compare_lt_iff_lt.2 shorter]
    rfl
  · obtain ⟨diff, run, order⟩ := memcmp_inside l.content r.content l.content.length le_rfl
      same.le
    rw [if_neg (by omega), if_pos same, run]
    refine iff_of_true ⟨diff, rfl, ?_⟩ same.le
    rw [order, lengths, same, min_self, compare_eq_iff_eq.2 rfl, Ordering.then_eq]
  · rw [if_neg (by omega), if_neg (by omega), memcmp_past_end longer]
    exact iff_of_false (fun ⟨_, run, _⟩ => by simp at run) (Nat.not_le.2 longer)

/-- Reading through `sz_ptr` of an inline sequence goes wrong from the first byte on. -/
theorem memcmp_inline (inside : l.isInline = true ∨ r.isInline = true) (count : Nat) :
    memcmp l.szPtr1 r.szPtr1 count = if count = 0 then some 0 else none := by
  rcases inside with inside | inside
  · cases l <;> simp [Storage.isInline] at inside
    rw [Storage.szPtr1, memcmp_nil_left]
  · cases r <;> simp [Storage.isInline] at inside
    rw [Storage.szPtr1, memcmp_nil_right]

/-- With an inline operand, `bs_diff` has a result when one of the words it takes for
lengths is zero, and the result compares these words. -/
theorem bsDiff_inline (inside : l.isInline = true ∨ r.isInline = true) :
    OrdersContents l r (bsDiff l r) ↔
      min l.szPtr0 r.szPtr0 = 0 ∧
        compare l.szPtr0 r.szPtr0 = List.compareLex compare l.content r.content := by
  have common : (if l.szPtr0 < r.szPtr0 then l.szPtr0 else r.szPtr0) = min l.szPtr0 r.szPtr0 := by
    split <;> omega
  rw [bsDiff, common, memcmp_inline inside]
  by_cases zero : min l.szPtr0 r.szPtr0 = 0
  · rw [if_pos zero, Option.map_some, if_neg (by decide)]
    simp [OrdersContents, zero, outcome_threeWay]
  · simp [OrdersContents, zero]

/-- With an inline operand, `pcvar_compare_ex` has a result when the word it takes for the
length of the first is zero, and the result compares the words. -/
theorem compareBsequences_inline (inside : l.isInline = true ∨ r.isInline = true) :
    OrdersContents l r (compareBsequences l r) ↔
      l.szPtr0 = 0 ∧
        compare l.szPtr0 r.szPtr0 = List.compareLex compare l.content r.content := by
  rw [compareBsequences, memcmp_inline inside]
  by_cases zero : l.szPtr0 = 0
  · rcases Nat.eq_zero_or_pos r.szPtr0 with none | some
    · simp [OrdersContents, zero, none]
    · have less : outcome (-1) = .lt := rfl
      simp [OrdersContents, zero, some, compare_lt_iff_lt.2 some, less]
  · simp [OrdersContents, zero]

end Bpcp.Purc
