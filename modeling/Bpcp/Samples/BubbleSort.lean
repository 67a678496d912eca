import Bpcp.Lib.BubbleSort
import Bpcp.Lib.CString
import Bpcp.Lib.FilledArray
import Bpcp.Lib.Run

/-!
# Sorting strings with bubble sort

`bubbleSort` makes a round for each of the strings. A round stops where the strings behind are
sorted, at a bound that is a difference of type `size_t`.
-/

namespace Bpcp.Samples

open Bpcp.Lib Bpcp.Lib.Run

/-- A difference of type `size_t`, when it does not wrap around. -/
def sizeSub (left right : ℕ) : Option ℕ := if right ≤ left then some (left - right) else none

/-- A turn of the inner loop of `bubbleSort`. -/
def exchangeTurn (j : ℕ) (a : List CString) : Run (List CString) := do
  let left ← defined a[j]?
  let right ← defined a[j + 1]?
  if strcmp left right > 0 then do
    let a ← defined (assignAt a j right)
    defined (assignAt a (j + 1) left)
  else .ok a

/-- A turn of the outer loop of `bubbleSort`. -/
def bubbleRound (n i : ℕ) (a : List CString) : Run (List CString) := do
  let last ← defined (sizeSub n 1)
  let bound ← defined (sizeSub last i)
  forLoop exchangeTurn 0 bound a

/-- `bubbleSort`. -/
def bubbleSort (a : List CString) (n : ℕ) : Run (List CString) :=
  forLoop (bubbleRound n) 0 n a

/-- A turn of the inner loop puts two neighbours in order. -/
theorem exchangeTurn_eq (front : List CString) (left right : CString) (behind : List CString) :
    exchangeTurn front.length (front ++ left :: right :: behind) =
      .ok (front ++ (inOrder strcmp left right).1 :: (inOrder strcmp left right).2 :: behind) := by
  have first : (front ++ left :: right :: behind)[front.length]? = some left := by simp
  have second : (front ++ left :: right :: behind)[front.length + 1]? = some right := by simp
  have again : assignAt (front ++ right :: right :: behind) (front.length + 1) left =
      some (front ++ right :: left :: behind) := by
    have last := assignAt_append (front ++ [right]) right left behind
    rwa [List.length_append, List.append_assoc, List.append_assoc] at last
  unfold exchangeTurn inOrder
  rw [first, second]
  show (if 0 < strcmp left right then
    defined (assignAt _ front.length right) >>= fun a =>
      defined (assignAt a (front.length + 1) left) else _) = _
  split_ifs with greater
  · rw [assignAt_append]
    show defined (assignAt _ _ _) = _
    rw [again]
    rfl
  · rfl

/-- The inner loop carries a string through those behind it. -/
theorem exchangeLoop_eq (front : List CString) (carried : CString) (rest behind : List CString) :
    forLoop exchangeTurn front.length rest.length (front ++ carried :: (rest ++ behind)) =
      .ok (front ++ (bubbleUp strcmp carried rest).1 ++
        (bubbleUp strcmp carried rest).2 :: behind) := by
  induction rest generalizing front carried with
  | nil =>
    rw [bubbleUp, List.append_nil]
    rfl
  | cons value rest ih =>
    show (exchangeTurn _ _ >>= _) = _
    rw [List.cons_append, exchangeTurn_eq]
    let pair := inOrder strcmp carried value
    have next := ih (front ++ [pair.1]) pair.2
    rw [List.length_append, List.append_assoc, List.append_assoc, List.append_assoc] at next
    rw [List.append_assoc]
    exact next

/-- A turn of the outer loop makes a round in front of the strings that are sorted. Its bound does
not wrap around. -/
theorem bubbleRound_eq {n i : ℕ} (carried : CString) (rest behind : List CString)
    (place : rest.length + 1 + i = n) :
    bubbleRound n i (carried :: (rest ++ behind)) =
      .ok ((bubbleUp strcmp carried rest).1 ++ (bubbleUp strcmp carried rest).2 :: behind) := by
  have last : sizeSub n 1 = some (n - 1) := if_pos (by omega)
  have bound : sizeSub (n - 1) i = some rest.length := by
    rw [sizeSub, if_pos (by omega)]
    exact congrArg some (by omega)
  unfold bubbleRound
  rw [last]
  show (defined (sizeSub (n - 1) i) >>= fun bound => forLoop _ 0 bound _) = _
  rw [bound]
  exact exchangeLoop_eq [] carried rest behind

/-- Before each turn of the outer loop the strings in front are still to be sorted. Each string is
still there, and as many as there were rounds are sorted. -/
def BubbleInv (a rest : List CString) (i : ℕ) (array : List CString) : Prop :=
  ∃ unsorted sorted, array = unsorted ++ (sorted ++ rest) ∧ unsorted.length + i = a.length ∧
    (unsorted ++ sorted).Perm a ∧ Settled strcmp unsorted sorted

/-- A turn of the outer loop keeps the invariant. -/
theorem BubbleInv.round {a rest array : List CString} {i : ℕ} (inv : BubbleInv a rest i array)
    (more : i < a.length) :
    Ends False (BubbleInv a rest (i + 1)) (bubbleRound a.length i array) := by
  obtain ⟨unsorted, sorted, rfl, length, perm, settled⟩ := inv
  cases unsorted with
  | nil =>
    rw [List.length_nil] at length
    omega
  | cons carried others =>
    rw [List.length_cons] at length
    rw [List.cons_append, bubbleRound_eq carried others (sorted ++ rest) length]
    refine .returns ⟨_, _ :: sorted, rfl, ?_, ?_, settled.bubbleUp⟩
    · rw [bubbleUp_length]
      omega
    · rw [List.append_cons]
      exact ((bubbleUp_perm strcmp carried others).append_right sorted).trans perm

/-- `bubbleSort` is a correct sort. With the number of strings, for every array of strings and
whatever is behind it, no index is outside the array and no bound wraps around, what is behind
stays, and the array ends as a permutation in which no string is greater than one behind it. -/
theorem bubbleSort_sorts (a rest : List CString) :
    ∃ sorted, bubbleSort (a ++ rest) a.length = .ok (sorted ++ rest) ∧ sorted.Perm a ∧
      sorted.Pairwise fun left right => strcmp left right ≤ 0 := by
  have begins : BubbleInv a rest 0 (a ++ rest) :=
    ⟨a, [], rfl, rfl, by rw [List.append_nil], List.Pairwise.nil, by simp⟩
  have loop : Ends False (BubbleInv a rest (0 + a.length)) (bubbleSort (a ++ rest) a.length) := by
    apply Ends.forLoop _ begins
    intro i array _ before inv
    exact inv.round (by omega)
  obtain ⟨array, run, inv⟩ := loop.exists_value not_false
  obtain ⟨unsorted, sorted, rfl, length, perm, settled⟩ := inv
  have done : unsorted = [] := List.eq_nil_of_length_eq_zero (by omega)
  subst done
  exact ⟨sorted, run, perm, settled.pairwise⟩

end Bpcp.Samples
