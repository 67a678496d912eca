import Mathlib

/-!
# Counters of fixed width

A counter of 64 bits tracks an amount when it holds the amount reduced modulo `2 ^ 64`.
Additions and subtractions keep it in step with the amount, whether or not the counter
wraps on the way, and it is exact whenever the amount fits. The amounts here are sums over
finite sets that change in one entry at a time.
-/

namespace Bpcp.Lib

/-- The counter holds the amount up to multiples of `2 ^ 64`. -/
def Tracks (counter : UInt64) (amount : ℕ) : Prop := counter.toNat = amount % 2 ^ 64

variable {counter change : UInt64} {amount : ℕ}

/-- Adding keeps the counter in step. -/
theorem Tracks.add (tracks : Tracks counter amount) (change : UInt64) :
    Tracks (counter + change) (amount + change.toNat) := by
  rw [Tracks] at tracks ⊢
  rw [UInt64.toNat_add, tracks, Nat.mod_add_mod]

/-- Subtracting a part of the amount keeps the counter in step. -/
theorem Tracks.sub (tracks : Tracks counter (amount + change.toNat)) :
    Tracks (counter - change) amount := by
  have below := change.toNat_lt
  rw [Tracks] at tracks ⊢
  rw [UInt64.toNat_sub, tracks]
  omega

/-- A counter is exact when the amount fits. -/
theorem Tracks.exact (tracks : Tracks counter amount) (fits : amount < 2 ^ 64) :
    counter.toNat = amount := by
  rw [Tracks] at tracks
  rw [tracks, Nat.mod_eq_of_lt fits]

variable {ι : Type*} [DecidableEq ι] {set : Finset ι} {old new : ι → ℕ} {entry : ι}

/-- A sum that changes in one entry changes by that entry. -/
theorem sum_change (member : entry ∈ set) (same : ∀ other, other ≠ entry → new other = old other) :
    ∑ i ∈ set, new i + old entry = ∑ i ∈ set, old i + new entry := by
  have rest : ∑ i ∈ set.erase entry, new i = ∑ i ∈ set.erase entry, old i :=
    Finset.sum_congr rfl fun other inside => same other (Finset.ne_of_mem_erase inside)
  rw [← Finset.add_sum_erase set new member, ← Finset.add_sum_erase set old member, rest]
  omega

/-- A counter tracks a sum of counters through an addition to one of them. -/
theorem Tracks.sum_add [Fintype ι] {counters : ι → UInt64}
    (tracks : Tracks counter (∑ i, (counters i).toNat)) (entry : ι) (change : UInt64) :
    Tracks (counter + change)
      (∑ i, (Function.update counters entry (counters entry + change) i).toNat) := by
  have same : ∀ other, other ≠ entry →
      (Function.update counters entry (counters entry + change) other).toNat =
        (counters other).toNat := by
    intro other apart
    rw [Function.update_of_ne apart]
  have moved := sum_change (Finset.mem_univ entry) same
  simp only [Function.update_self, UInt64.toNat_add] at moved
  have added := tracks.add change
  rw [Tracks] at added ⊢
  omega

/-- A counter tracks a sum of counters through a subtraction from one of them. -/
theorem Tracks.sum_sub [Fintype ι] {counters : ι → UInt64}
    (tracks : Tracks counter (∑ i, (counters i).toNat)) (entry : ι) (change : UInt64) :
    Tracks (counter - change)
      (∑ i, (Function.update counters entry (counters entry - change) i).toNat) := by
  have same : ∀ other, other ≠ entry →
      (Function.update counters entry (counters entry - change) other).toNat =
        (counters other).toNat := by
    intro other apart
    rw [Function.update_of_ne apart]
  have moved := sum_change (Finset.mem_univ entry) same
  simp only [Function.update_self, UInt64.toNat_sub] at moved
  have below := change.toNat_lt
  rw [Tracks] at tracks ⊢
  rw [UInt64.toNat_sub, tracks]
  omega

end Bpcp.Lib
