import Mathlib

/-!
# Traces that obey a rule

A trace is the list of what happened, in order. A rule says of an entry whether it may follow the
entries before it, and a trace obeys the rule when all its entries do. A value that the entries
change is tracked along the trace.
-/

namespace Bpcp.Lib

variable {α β : Type*}

/-- Every entry of a trace may follow the entries before it. -/
def Obeys (rule : List α → α → Prop) (trace : List α) : Prop :=
  ∀ before entry after, trace = before ++ entry :: after → rule before entry

namespace Obeys

variable {rule : List α → α → Prop} {trace : List α} {entry : α}

/-- Nothing happened. -/
theorem nil : Obeys rule [] := by
  intro before entry after split
  exact absurd split (by simp)

/-- One more entry. -/
theorem concat (obeys : Obeys rule trace) (allowed : rule trace entry) :
    Obeys rule (trace ++ [entry]) := by
  intro before last after split
  cases after using List.reverseRecOn with
  | nil =>
    have ⟨same, equal⟩ := List.append_inj' split rfl
    rw [← same, ← List.singleton_inj.mp equal]
    exact allowed
  | append_singleton more final =>
    apply obeys before last more
    rw [← List.cons_append, ← List.append_assoc] at split
    exact (List.append_inj' split rfl).1

/-- What an entry was allowed for. -/
theorem allowed (obeys : Obeys rule trace) {before after : List α}
    (split : trace = before ++ entry :: after) : rule before entry :=
  obeys before entry after split

/-- The front of a trace obeys the rule. -/
theorem front {before after : List α} (obeys : Obeys rule (before ++ after)) :
    Obeys rule before := by
  intro first entry rest split
  apply obeys first entry (rest ++ after)
  rw [split, List.append_assoc, List.cons_append]

end Obeys

/-- A value that the entries of a trace change. -/
def track (change : β → α → β) (initial : β) (trace : List α) : β := trace.foldl change initial

/-- The last entry changes the value last. -/
@[simp] theorem track_concat (change : β → α → β) (initial : β) (trace : List α) (entry : α) :
    track change initial (trace ++ [entry]) = change (track change initial trace) entry := by
  rw [track, List.foldl_append]
  rfl

/-- The value at the start. -/
@[simp] theorem track_nil (change : β → α → β) (initial : β) : track change initial [] = initial :=
  rfl

/-- A value stays when no entry changes it. -/
theorem track_stays {change : β → α → β} {value : β} {trace : List α}
    (stays : ∀ entry ∈ trace, change value entry = value) : track change value trace = value := by
  induction trace with
  | nil => rfl
  | cons entry rest ih =>
    have ⟨first, others⟩ := List.forall_mem_cons.mp stays
    rw [track, List.foldl_cons, first]
    exact ih others

/-- A value other than the first one comes from the last entry that set it. -/
theorem track_source {change : β → α → β} {initial : β} {trace : List α} {value : β}
    (same : track change initial trace = value) (other : value ≠ initial) :
    ∃ before entry after, trace = before ++ entry :: after ∧
      (∃ earlier, earlier ≠ value ∧ change earlier entry = value) ∧
      ∀ later ∈ after, change value later = value := by
  induction trace using List.reverseRecOn generalizing value with
  | nil => exact absurd same.symm other
  | append_singleton trace last ih =>
    rw [track_concat] at same
    by_cases kept : track change initial trace = value
    · have ⟨before, entry, after, split, set, rest⟩ := ih kept other
      apply Exists.intro before
      apply Exists.intro entry
      apply Exists.intro (after ++ [last])
      constructor
      · rw [split, List.append_assoc, List.cons_append]
      apply And.intro set
      intro later inside
      cases List.mem_append.mp inside with
      | inl earlier => exact rest later earlier
      | inr final =>
        rw [List.mem_singleton.mp final]
        rw [kept] at same
        exact same
    · exact ⟨trace, last, [], rfl, ⟨_, kept, same⟩, fun later inside =>
        absurd inside List.not_mem_nil⟩

end Bpcp.Lib
