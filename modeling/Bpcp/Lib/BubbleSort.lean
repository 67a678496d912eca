import Bpcp.Lib.Comparison

/-!
# Bubble sort

A round of bubble sort goes through a list and carries a value with it. Where the next value is
less, the two are exchanged, and otherwise the next value is carried on, so that a greatest value
comes to the end. What is behind the end was carried there in earlier rounds: it is sorted, and
nothing in front of it is greater.
-/

namespace Bpcp.Lib

variable {α : Type*} {cmp : α → α → Int}

/-- Two values, exchanged when the first one is greater. -/
def inOrder (cmp : α → α → Int) (left right : α) : α × α :=
  if 0 < cmp left right then (right, left) else (left, right)

/-- What a round leaves behind when it carries a value through a list, and what it carries to the
end. -/
def bubbleUp (cmp : α → α → Int) : α → List α → List α × α
  | carried, [] => ([], carried)
  | carried, value :: rest =>
    let pair := inOrder cmp carried value
    let (front, greatest) := bubbleUp cmp pair.2 rest
    (pair.1 :: front, greatest)

/-- The two values are there in some order. -/
theorem inOrder_perm (cmp : α → α → Int) (left right : α) :
    [(inOrder cmp left right).1, (inOrder cmp left right).2].Perm [left, right] := by
  unfold inOrder
  split_ifs
  · exact List.Perm.swap ..
  · exact List.Perm.refl _

/-- The values behind and at the end of a round are those from before. -/
theorem bubbleUp_perm (cmp : α → α → Int) (carried : α) (rest : List α) :
    ((bubbleUp cmp carried rest).1 ++ [(bubbleUp cmp carried rest).2]).Perm (carried :: rest) := by
  induction rest generalizing carried with
  | nil => exact List.Perm.refl _
  | cons value rest ih =>
    let pair := inOrder cmp carried value
    calc (bubbleUp cmp carried (value :: rest)).1 ++ [(bubbleUp cmp carried (value :: rest)).2]
      _ = pair.1 :: ((bubbleUp cmp pair.2 rest).1 ++ [(bubbleUp cmp pair.2 rest).2]) := rfl
      List.Perm _ (pair.1 :: pair.2 :: rest) := (ih pair.2).cons _
      List.Perm _ (carried :: value :: rest) := (inOrder_perm cmp carried value).append_right rest

/-- A round leaves one value for each one that it meets. -/
theorem bubbleUp_length (cmp : α → α → Int) (carried : α) (rest : List α) :
    (bubbleUp cmp carried rest).1.length = rest.length := by
  have length := (bubbleUp_perm cmp carried rest).length_eq
  rw [List.length_append, List.length_singleton, List.length_cons] at length
  exact Nat.succ.inj length

variable [consistent : Consistent cmp]

/-- The second value is not less than either of the two. -/
theorem inOrder_le (left right : α) :
    cmp (inOrder cmp left right).1 (inOrder cmp left right).2 ≤ 0 ∧
      cmp left (inOrder cmp left right).2 ≤ 0 := by
  unfold inOrder
  split_ifs with greater
  · have opposite := consistent.sign_swap left right
    rw [Int.sign_eq_one_of_pos greater, Int.sign_eq_neg_one_iff_neg] at opposite
    exact ⟨opposite.le, (consistent.self_eq_zero left).le⟩
  · exact ⟨not_lt.1 greater, not_lt.1 greater⟩

/-- What comes to the end is not less than what is carried there. -/
theorem bubbleUp_carried_le (carried : α) (rest : List α) :
    cmp carried (bubbleUp cmp carried rest).2 ≤ 0 := by
  induction rest generalizing carried with
  | nil => exact (consistent.self_eq_zero carried).le
  | cons value rest ih => exact consistent.trans (inOrder_le carried value).2 (ih _)

/-- What comes to the end is not less than what is left behind. -/
theorem bubbleUp_le (carried : α) (rest : List α) :
    ∀ value ∈ (bubbleUp cmp carried rest).1, cmp value (bubbleUp cmp carried rest).2 ≤ 0 := by
  induction rest generalizing carried with
  | nil => exact fun value member => absurd member List.not_mem_nil
  | cons value rest ih =>
    intro behind member
    rcases List.mem_cons.1 member with rfl | member
    · exact consistent.trans (inOrder_le carried value).1 (bubbleUp_carried_le _ rest)
    · exact ih _ behind member

/-- Behind the values that are still to be sorted others are sorted, and none of those in front is
greater than one of these. -/
structure Settled (cmp : α → α → Int) (unsorted sorted : List α) : Prop where
  /-- The values behind are sorted. -/
  pairwise : sorted.Pairwise fun left right => cmp left right ≤ 0
  /-- The values in front are not greater. -/
  le : ∀ low ∈ unsorted, ∀ high ∈ sorted, cmp low high ≤ 0

/-- At the end of a round one value more is sorted. -/
theorem Settled.bubbleUp {carried : α} {rest sorted : List α}
    (settled : Settled cmp (carried :: rest) sorted) :
    Settled cmp (bubbleUp cmp carried rest).1 ((bubbleUp cmp carried rest).2 :: sorted) := by
  have perm := bubbleUp_perm cmp carried rest
  constructor
  · apply List.Pairwise.cons _ settled.pairwise
    exact settled.le _ (perm.subset (List.mem_append_right _ (List.mem_singleton.2 rfl)))
  · intro low member high behind
    rcases List.mem_cons.1 behind with rfl | behind
    · exact bubbleUp_le carried rest low member
    · exact settled.le low (perm.subset (List.mem_append_left _ member)) high behind

end Bpcp.Lib
