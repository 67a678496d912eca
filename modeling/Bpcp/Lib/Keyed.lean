import Mathlib

/-!
# Lists of keyed values

Two lists of keyed values match when they have one length and every key of the first finds
a related value in the second. Looking at one direction only is enough when no key
repeats: the keys of the second list are then a permutation of the keys of the first, so
the relation is an equivalence where the relation of the values is one. When both lists
are in one strict order of their keys, matching is relating them entry by entry. Lists
without keys are related member by member from the start.
-/

namespace Bpcp.Lib.Keyed

variable {κ α : Type*}

/-- Relating members is symmetric where the relation is on the members of the first list. -/
theorem forall₂_symm {related : α → α → Prop} {left right : List α}
    (pairs : List.Forall₂ related left right)
    (swap : ∀ l ∈ left, ∀ r, related l r → related r l) : List.Forall₂ related right left :=
  List.Forall₂.flip (((List.forall₂_and_left _ _).2 ⟨swap, pairs⟩).imp
    fun _ r ⟨swap, holds⟩ => swap r holds)

/-- Relating members is transitive where the relation is on the members of the first list. -/
theorem forall₂_trans {related : α → α → Prop} {left middle right : List α}
    (first : List.Forall₂ related left middle) (second : List.Forall₂ related middle right)
    (chain : ∀ l ∈ left, ∀ m r, related l m → related m r → related l r) :
    List.Forall₂ related left right := by
  induction first generalizing right with
  | nil => exact second
  | cons lower rest ih =>
    cases second with
    | cons upper others =>
      refine .cons (chain _ (by simp) _ _ lower upper) (ih others fun l member => ?_)
      exact chain l (by simp [member])

/-- The keys in list order. -/
def keys (entries : List (κ × α)) : List κ := entries.map Prod.fst

/-- An entry contributes its key. -/
theorem mem_keys {entries : List (κ × α)} {entry : κ × α} (member : entry ∈ entries) :
    entry.1 ∈ keys entries := List.mem_map_of_mem member

/-- Lists related entry by entry under equal keys have the same keys in the same order. -/
theorem forall₂_keys_iff {related : α → α → Prop} {left right : List (κ × α)} :
    List.Forall₂ (fun l r => l.1 = r.1 ∧ related l.2 r.2) left right ↔
      keys left = keys right ∧ ∀ l r, (l, r) ∈ left.zip right → related l.2 r.2 := by
  induction left generalizing right with
  | nil => cases right <;> simp [keys]
  | cons l ls ih =>
    cases right with
    | nil => simp [keys]
    | cons r rs =>
      rw [List.forall₂_cons, ih]
      simp only [keys, List.map_cons, List.cons.injEq, List.zip_cons_cons, List.mem_cons,
        Prod.mk.injEq]
      constructor
      · rintro ⟨⟨key, value⟩, same, rest⟩
        refine ⟨⟨key, same⟩, ?_⟩
        rintro _ _ (⟨rfl, rfl⟩ | later)
        · exact value
        · exact rest _ _ later
      · rintro ⟨⟨key, same⟩, all⟩
        exact ⟨⟨key, all l r (.inl ⟨rfl, rfl⟩)⟩, same, fun _ _ later => all _ _ (.inr later)⟩

variable [DecidableEq κ]

/-- What a search finds is an entry. -/
theorem mem_of_lookup {entries : List (κ × α)} {key : κ} {value : α}
    (found : entries.lookup key = some value) : (key, value) ∈ entries := by
  obtain ⟨before, after, rfl, -⟩ := List.lookup_eq_some_iff.1 found
  simp

/-- Without repeated keys a search finds every entry. -/
theorem lookup_of_mem {entries : List (κ × α)} (unique : (keys entries).Nodup) {key : κ}
    {value : α} (member : (key, value) ∈ entries) : entries.lookup key = some value := by
  obtain ⟨before, after, rfl⟩ := List.append_of_mem member
  refine List.lookup_eq_some_iff.2 ⟨before, after, rfl, fun entry earlier => ?_⟩
  rw [keys, List.map_append, List.map_cons, List.nodup_append] at unique
  simpa using (unique.2.2 entry.1 (List.mem_map_of_mem earlier) key (by simp)).symm

/-- The second list has the size of the first and a related value under each of its keys. -/
structure Matches (related : α → α → Prop) (left right : List (κ × α)) : Prop where
  /-- Both lists have the same number of entries. -/
  size : left.length = right.length
  /-- Every entry of the first list finds a related value. -/
  found : ∀ entry ∈ left, ∃ value, right.lookup entry.1 = some value ∧ related entry.2 value

namespace Matches

variable {related : α → α → Prop} {left middle right : List (κ × α)}

/-- The keys of matching lists are the same up to order. -/
theorem perm (matching : Matches related left right) (unique : (keys left).Nodup) :
    (keys left).Perm (keys right) := by
  refine (List.subperm_of_subset unique fun key member => ?_).perm_of_length_le ?_
  · obtain ⟨entry, inside, rfl⟩ := List.mem_map.1 member
    obtain ⟨value, found, -⟩ := matching.found entry inside
    have member := mem_keys (mem_of_lookup found)
    exact member
  · simp [keys, matching.size]

/-- A list without repeated keys matches itself when its values are related to themselves. -/
theorem refl (unique : (keys left).Nodup) (self : ∀ entry ∈ left, related entry.2 entry.2) :
    Matches related left left :=
  ⟨rfl, fun entry member => ⟨entry.2, lookup_of_mem unique member, self entry member⟩⟩

/-- Matching is symmetric where the relation of the values is, and neither list repeats a key. -/
theorem symm (matching : Matches related left right) (uniqueL : (keys left).Nodup)
    (swap : ∀ entry ∈ left, ∀ value, related entry.2 value → related value entry.2) :
    Matches related right left := by
  have same := matching.perm uniqueL
  refine ⟨matching.size.symm, fun ⟨key, value⟩ member => ?_⟩
  obtain ⟨entry, inside, rfl⟩ := List.mem_map.1 (same.mem_iff.2 (mem_keys member))
  obtain ⟨other, found, holds⟩ := matching.found entry inside
  have sameValue : other = value :=
    Option.some.inj (found.symm.trans (lookup_of_mem (same.nodup_iff.1 uniqueL) member))
  exact ⟨entry.2, lookup_of_mem uniqueL inside, sameValue ▸ swap entry inside other holds⟩

/-- Matching is transitive where the relation of the values is. -/
theorem trans (first : Matches related left middle) (second : Matches related middle right)
    (chain : ∀ entry ∈ left, ∀ value other,
      related entry.2 value → related value other → related entry.2 other) :
    Matches related left right := by
  refine ⟨first.size.trans second.size, fun entry member => ?_⟩
  obtain ⟨value, found, lower⟩ := first.found entry member
  obtain ⟨other, reached, upper⟩ := second.found _ (mem_of_lookup found)
  exact ⟨other, reached, chain entry member value other lower upper⟩

end Matches

/-- In one strict order of the keys, matching relates the lists entry by entry. -/
theorem matches_iff_forall₂ {related : α → α → Prop} {before : κ → κ → Prop}
    {left right : List (κ × α)} (strict : ∀ key other, before key other → ¬before other key)
    (orderedL : (keys left).Pairwise before) (orderedR : (keys right).Pairwise before) :
    Matches related left right ↔
      List.Forall₂ (fun l r => l.1 = r.1 ∧ related l.2 r.2) left right := by
  have distinct : ∀ {key other : κ}, before key other → key ≠ other := by
    rintro key _ order rfl
    exact strict key key order order
  have uniqueL : (keys left).Nodup := orderedL.imp distinct
  have uniqueR : (keys right).Nodup := orderedR.imp distinct
  constructor
  · intro matching
    have same : keys left = keys right :=
      (matching.perm uniqueL).eq_of_pairwise
        (fun _ _ _ _ order reverse => absurd reverse (strict _ _ order)) orderedL orderedR
    refine List.forall₂_iff_get.2 ⟨matching.size, fun index insideL insideR => ?_⟩
    have sameKey : (left.get ⟨index, insideL⟩).1 = (right.get ⟨index, insideR⟩).1 := by
      have := List.getElem_of_eq same (i := index) (by simpa [keys] using insideL)
      simpa [keys] using this
    obtain ⟨value, found, holds⟩ := matching.found _ (List.get_mem left ⟨index, insideL⟩)
    rw [sameKey, lookup_of_mem uniqueR (List.get_mem right ⟨index, insideR⟩)] at found
    exact ⟨sameKey, Option.some.inj found ▸ holds⟩
  · intro pairs
    refine ⟨pairs.length_eq, fun entry member => ?_⟩
    obtain ⟨⟨index, inside⟩, rfl⟩ := List.get_of_mem member
    have insideR : index < right.length := pairs.length_eq ▸ inside
    obtain ⟨sameKey, holds⟩ := pairs.get inside insideR
    refine ⟨(right.get ⟨index, insideR⟩).2, ?_, holds⟩
    rw [sameKey]
    exact lookup_of_mem uniqueR (List.get_mem right ⟨index, insideR⟩)

/-! ## Values that are stored one after the other -/

/-- The values that are found after the entries were stored in order. -/
def store (entries : List (κ × α)) (found : κ → Option α) : κ → Option α :=
  entries.foldl (fun found entry => Function.update found entry.1 (some entry.2)) found

/-- What is found is the last value that was stored, or what was found before. -/
theorem store_apply (entries : List (κ × α)) (found : κ → Option α) (key : κ) :
    store entries found key = (entries.reverse.lookup key).or (found key) := by
  induction entries generalizing found with
  | nil => rfl
  | cons entry rest ih =>
    have stored : store (entry :: rest) found =
        store rest (Function.update found entry.1 (some entry.2)) := rfl
    rw [stored, ih, List.reverse_cons, List.lookup_append, Option.or_assoc]
    apply congrArg
    by_cases hit : key = entry.1
    · rw [hit, Function.update_self]
      simp [List.lookup]
    · rw [Function.update_of_ne hit]
      simp [List.lookup, beq_eq_false_iff_ne.2 hit]

/-- Without repeated keys the order of the entries does not matter to a search. -/
theorem lookup_reverse {entries : List (κ × α)} (unique : (keys entries).Nodup) (key : κ) :
    entries.reverse.lookup key = entries.lookup key := by
  have reversed : (keys entries.reverse).Nodup := by
    rw [keys, List.map_reverse]
    exact List.nodup_reverse.2 unique
  cases found : entries.lookup key with
  | some value =>
    exact lookup_of_mem reversed (List.mem_reverse.2 (mem_of_lookup found))
  | none =>
    cases back : entries.reverse.lookup key with
    | none => rfl
    | some value =>
      have there := lookup_of_mem unique (List.mem_reverse.1 (mem_of_lookup back))
      exact absurd (found.symm.trans there) (by simp)

/-- A value that replaces those of its key is found, and the others are found as before. -/
theorem lookup_replaced (entries : List (κ × α)) (key other : κ) (value : α) :
    (entries.filter (fun entry => entry.1 ≠ key) ++ [(key, value)]).lookup other =
      if other = key then some value else entries.lookup other := by
  induction entries with
  | nil =>
    by_cases hit : other = key
    · simp [hit]
    · simp [hit, List.lookup, beq_eq_false_iff_ne.2 hit]
  | cons entry rest ih =>
    by_cases replaced : entry.1 = key
    · have dropped : (entry :: rest).filter (fun entry => entry.1 ≠ key) =
          rest.filter fun entry => entry.1 ≠ key := by
        simp [replaced]
      rw [dropped, ih]
      by_cases hit : other = key
      · rw [if_pos hit, if_pos hit]
      · have apart : other ≠ entry.1 := fun same => hit (same.trans replaced)
        rw [if_neg hit, if_neg hit]
        simp [List.lookup, beq_eq_false_iff_ne.2 apart]
    · have kept : (entry :: rest).filter (fun entry => entry.1 ≠ key) =
          entry :: rest.filter fun entry => entry.1 ≠ key := by
        simp [replaced]
      rw [kept, List.cons_append]
      by_cases found : other = entry.1
      · have apart : other ≠ key := fun same => replaced (found.symm.trans same)
        rw [if_neg apart]
        simp [List.lookup, found]
      · simp only [List.lookup, beq_eq_false_iff_ne.2 found]
        exact ih

end Bpcp.Lib.Keyed
