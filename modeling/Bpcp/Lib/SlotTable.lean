import Mathlib

/-!
# Tables of slots

Values are stored into slots of a table, each in a place of its own or in a place where another
value was before. Each place that is taken leaves one slot less empty, so the empty slots tell
how many places were taken, and whether two values took the same one.
-/

namespace Bpcp.Lib

variable {α : Type*} {place : α → ℕ} {values : List α} {slots : List (Option α)} {taken : Finset ℕ}

/-- The table behind an assignment for each value. -/
def storeAll (place : α → ℕ) (values : List α) (slots : List (Option α)) : List (Option α) :=
  values.foldl (fun slots value => slots.set (place value) (some value)) slots

/-- The table keeps its size. -/
@[simp] theorem storeAll_length (place : α → ℕ) (values : List α) (slots : List (Option α)) :
    (storeAll place values slots).length = slots.length := by
  induction values generalizing slots with
  | nil => rfl
  | cons value rest ih => exact (ih _).trans (List.length_set ..)

/-- What is in a slot is a value or was there before. -/
theorem mem_storeAll {value : α} (member : some value ∈ storeAll place values slots) :
    value ∈ values ∨ some value ∈ slots := by
  induction values generalizing slots with
  | nil => exact Or.inr member
  | cons first rest ih =>
    rcases ih member with later | before
    · exact Or.inl (List.mem_cons_of_mem _ later)
    · rcases List.mem_or_eq_of_mem_set before with old | new
      · exact Or.inr old
      · exact Or.inl (List.mem_cons.2 (Or.inl (Option.some.inj new)))

variable [DecidableEq α]

/-- The slots outside the taken places are the empty ones. -/
structure Takes (slots : List (Option α)) (taken : Finset ℕ) : Prop where
  /-- A slot is empty when its place is not taken. -/
  empty_iff : ∀ place, (inside : place < slots.length) → (slots[place] = none ↔ place ∉ taken)
  /-- Empty slots and taken places make up the table. -/
  count : slots.count none + taken.card = slots.length

/-- A value takes a place. -/
theorem Takes.store (takes : Takes slots taken) (value : α) {place : ℕ}
    (inside : place < slots.length) :
    Takes (slots.set place (some value)) (insert place taken) where
  empty_iff := by
    intro other insideOther
    rw [List.length_set] at insideOther
    rw [List.getElem_set, Finset.mem_insert]
    split_ifs with same
    · simp [same]
    · rw [takes.empty_iff other insideOther]
      simp [Ne.symm same]
  count := by
    have count := takes.count
    rw [List.length_set, List.count_set inside]
    by_cases before : place ∈ taken
    · have full : slots[place] ≠ none := fun none => (takes.empty_iff place inside).1 none before
      rw [Finset.insert_eq_of_mem before]
      simpa [full] using count
    · have empty := (takes.empty_iff place inside).2 before
      have there : 0 < slots.count none := List.count_pos_iff.2 (empty ▸ List.getElem_mem inside)
      rw [Finset.card_insert_of_notMem before]
      simp [empty]
      omega

/-- Values take their places. -/
theorem Takes.storeAll (takes : Takes slots taken)
    (inside : ∀ value ∈ values, place value < slots.length) :
    Takes (storeAll place values slots) (taken ∪ (values.map place).toFinset) := by
  induction values generalizing slots taken with
  | nil => simpa [Lib.storeAll] using takes
  | cons value rest ih =>
    have next := takes.store value (inside value List.mem_cons_self)
    have all := ih next fun other member => by
      rw [List.length_set]
      exact inside other (List.mem_cons_of_mem _ member)
    rw [List.map_cons, List.toFinset_cons, Finset.union_insert, ← Finset.insert_union]
    exact all

/-- In an empty table nothing is taken. -/
theorem takes_empty (size : ℕ) : Takes (List.replicate size (none : Option α)) ∅ where
  empty_iff := by simp
  count := by simp

/-- The slots that are not empty are as many as there are values exactly when the values have
pairwise different places. -/
theorem filled_slots_iff_nodup {size : ℕ} (inside : ∀ value ∈ values, place value < size) :
    size - (storeAll place values (List.replicate size none)).count none = values.length ↔
      (values.map place).Nodup := by
  have insideTable : ∀ value ∈ values,
      place value < (List.replicate size (none : Option α)).length := by
    simpa only [List.length_replicate] using inside
  have count := ((takes_empty size).storeAll insideTable).count
  rw [storeAll_length, List.length_replicate, Finset.empty_union, List.card_toFinset] at count
  rw [← List.dedup_eq_self, ← (List.dedup_sublist _).length_eq, List.length_map]
  omega

end Bpcp.Lib
