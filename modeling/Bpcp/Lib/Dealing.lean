import Mathlib

/-!
# Dealing from both ends

A list is dealt to two hands from both of its ends. In a round the first hand takes the first
and the last entry, and the second hand takes their neighbours. When two entries are left,
each hand takes one. Every entry is dealt once. If the list is ordered, then what the hands
gain on each other in a round are gaps of the list that do not overlap, so that the sums of
the hands differ by no more than the ends of the list.
-/

namespace Bpcp.Lib

variable {α β : Type*}

/-- A list, and the two hands that it is dealt to. -/
inductive Dealt : List α → List α → List α → Prop
  /-- Nothing is dealt. -/
  | nil : Dealt [] [] []
  /-- Each hand takes one of two entries. -/
  | pair (low high : α) : Dealt [low, high] [low] [high]
  /-- The first hand takes the ends, and the second hand takes their neighbours. -/
  | round (low lowNext highNext high : α) {middle first second : List α}
      (rest : Dealt middle first second) :
      Dealt (low :: lowNext :: (middle ++ [highNext, high])) (low :: high :: first)
        (lowNext :: highNext :: second)

namespace Dealt

/-- A list of four entries or more has a middle between its first two and its last two. -/
theorem exists_middle {entries : List α} (long : 4 ≤ entries.length) :
    ∃ low lowNext middle highNext high,
      entries = low :: lowNext :: (middle ++ [highNext, high]) := by
  match entries, long with
  | low :: lowNext :: rest, long =>
    have two : 2 ≤ rest.length := by
      simp only [List.length_cons] at long
      omega
    have last : (rest.drop (rest.length - 2)).length = 2 := by
      rw [List.length_drop]
      omega
    obtain ⟨highNext, high, ends⟩ := List.length_eq_two.1 last
    refine ⟨low, lowNext, rest.take (rest.length - 2), highNext, high, ?_⟩
    rw [← ends, List.take_append_drop]

/-- Every list of even length can be dealt. -/
theorem exists_hands (entries : List α) (even : entries.length % 2 = 0) :
    ∃ first second, Dealt entries first second := by
  induction count : entries.length using Nat.strong_induction_on generalizing entries with
  | _ count ih =>
    by_cases long : 4 ≤ entries.length
    · obtain ⟨low, lowNext, middle, highNext, high, rfl⟩ := exists_middle long
      simp only [List.length_cons, List.length_append, List.length_nil] at even count
      obtain ⟨first, second, rest⟩ := ih middle.length (by omega) middle (by omega) rfl
      exact ⟨_, _, .round low lowNext highNext high rest⟩
    · match entries, even, long with
      | [], _, _ => exact ⟨[], [], .nil⟩
      | [low, high], _, _ => exact ⟨[low], [high], .pair low high⟩
      | [_], even, _ => simp at even
      | [_, _, _], even, _ => simp at even
      | _ :: _ :: _ :: _ :: _, _, long => simp at long

variable {entries first second : List α}

/-- Every entry is dealt once. -/
theorem perm (dealt : Dealt entries first second) : (first ++ second).Perm entries := by
  induction dealt with
  | nil => exact List.Perm.refl _
  | pair low high => exact List.Perm.refl _
  | round low lowNext highNext high rest ih =>
    classical
    rw [List.perm_iff_count] at ih ⊢
    intro entry
    have middle := ih entry
    simp only [List.count_append, List.count_cons, List.count_nil] at middle ⊢
    omega

/-- Both hands have half of the entries. -/
theorem length (dealt : Dealt entries first second) :
    entries.length = 2 * first.length ∧ second.length = first.length := by
  induction dealt with
  | nil => exact ⟨rfl, rfl⟩
  | pair low high => exact ⟨rfl, rfl⟩
  | round low lowNext highNext high rest ih =>
    simp only [List.length_cons, List.length_append, List.length_nil]
    omega

/-- Entries may be renamed before or after they are dealt. -/
theorem map (rename : α → β) (dealt : Dealt entries first second) :
    Dealt (entries.map rename) (first.map rename) (second.map rename) := by
  induction dealt with
  | nil => exact .nil
  | pair low high => exact .pair _ _
  | round low lowNext highNext high rest ih =>
    simp only [List.map_cons, List.map_append, List.map_nil]
    exact .round _ _ _ _ ih

/-! ## Places -/

/-- A place in the middle of a round is two places further in all the entries. -/
theorem getElem?_middle {low lowNext highNext high : α} {middle : List α} {place : ℕ}
    (inside : place < middle.length) :
    (low :: lowNext :: (middle ++ [highNext, high]))[place + 2]? = middle[place]? := by
  rw [List.getElem?_cons_succ, List.getElem?_cons_succ, List.getElem?_append_left inside]

/-- In an even place of the hands are neighbours from the first half of the entries. -/
theorem getElem?_low (dealt : Dealt entries first second) (n : ℕ)
    (inside : 4 * n + 2 ≤ entries.length) :
    first[2 * n]? = entries[2 * n]? ∧ second[2 * n]? = entries[2 * n + 1]? := by
  induction dealt generalizing n with
  | nil => exact absurd inside (by simp)
  | pair low high =>
    obtain rfl : n = 0 := by
      simp only [List.length_cons, List.length_nil] at inside
      omega
    exact ⟨rfl, rfl⟩
  | round low lowNext highNext high rest ih =>
    cases n with
    | zero => exact ⟨rfl, rfl⟩
    | succ n =>
      simp only [List.length_cons, List.length_append, List.length_nil] at inside
      obtain ⟨lows, nexts⟩ := ih n (by omega)
      have place : 2 * (n + 1) = 2 * n + 2 := by omega
      have next : 2 * n + 2 + 1 = 2 * n + 1 + 2 := by omega
      rw [place, next, getElem?_middle (by omega), getElem?_middle (by omega)]
      exact ⟨lows, nexts⟩

/-- In an odd place of the hands are neighbours from the second half of the entries. -/
theorem getElem?_high (dealt : Dealt entries first second) (n : ℕ)
    (inside : 4 * n + 4 ≤ entries.length) :
    first[2 * n + 1]? = entries[entries.length - 1 - 2 * n]? ∧
      second[2 * n + 1]? = entries[entries.length - 2 - 2 * n]? := by
  induction dealt generalizing n with
  | nil => exact absurd inside (by simp)
  | pair low high => exact absurd inside (by simp)
  | round low lowNext highNext high rest ih =>
    rename_i middle _ _
    simp only [List.length_cons, List.length_append, List.length_nil] at inside ⊢
    cases n with
    | zero =>
      have last : middle.length + 2 + 1 + 1 - 1 - 2 * 0 = middle.length + 1 + 1 + 1 := by omega
      have before : middle.length + 2 + 1 + 1 - 2 - 2 * 0 = middle.length + 1 + 1 := by omega
      rw [last, before]
      simp
    | succ n =>
      obtain ⟨highs, nexts⟩ := ih n (by omega)
      have place : 2 * (n + 1) + 1 = 2 * n + 1 + 2 := by omega
      have last : middle.length + 2 + 1 + 1 - 1 - 2 * (n + 1) =
          middle.length - 1 - 2 * n + 2 := by omega
      have before : middle.length + 2 + 1 + 1 - 2 - 2 * (n + 1) =
          middle.length - 2 - 2 * n + 2 := by omega
      rw [place, last, before, getElem?_middle (by omega), getElem?_middle (by omega)]
      exact ⟨highs, nexts⟩

/-! ## Balance -/

/-- The sums of the two hands of an ordered list differ by no more than bounds of the list. -/
theorem balance {R : Type*} [CommRing R] [LinearOrder R] [IsStrictOrderedRing R]
    {entries first second : List R} (dealt : Dealt entries first second)
    (ordered : entries.Pairwise (· ≤ ·)) {least greatest : R} (bounds : least ≤ greatest)
    (inside : ∀ entry ∈ entries, least ≤ entry ∧ entry ≤ greatest) :
    |first.sum - second.sum| ≤ greatest - least := by
  induction dealt generalizing least greatest with
  | nil => simpa using bounds
  | pair low high =>
    have order : low ≤ high := (List.pairwise_cons.1 ordered).1 high (by simp)
    have above := inside low (by simp)
    have below := inside high (by simp)
    rw [List.sum_singleton, List.sum_singleton, abs_le]
    constructor <;> linarith
  | round low lowNext highNext high rest ih =>
    have aboveLow := List.pairwise_cons.1 ordered
    have aboveNext := List.pairwise_cons.1 aboveLow.2
    have split := List.pairwise_append.1 aboveNext.2
    have lows : low ≤ lowNext := aboveLow.1 lowNext (by simp)
    have highs : highNext ≤ high := (List.pairwise_cons.1 split.2.1).1 high (by simp)
    have across : lowNext ≤ highNext := aboveNext.1 highNext (by simp)
    -- The middle lies between the neighbours of the ends, and its gain is bounded by them.
    have gain := ih split.1 across fun entry member =>
      ⟨aboveNext.1 entry (by simp [member]), split.2.2 entry member highNext (by simp)⟩
    have above := inside low (by simp)
    have below := inside high (by simp)
    rw [abs_le] at gain ⊢
    simp only [List.sum_cons]
    constructor <;> linarith [gain.1, gain.2]

end Dealt

end Bpcp.Lib
