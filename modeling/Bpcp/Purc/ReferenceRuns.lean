import Bpcp.Purc.References

/-!
# Runs of the references

In every reachable state a reference count is the number of references that are held, and the
live variants are those that are held or being released. So a variant is put back once, after its
last reference was given up, and when the heap ends the blocks that are left are exactly those
that somebody still holds.
-/

namespace Bpcp.Purc

open Bpcp.Lib

/-! ## What the heap does to live variants -/

section Heap

variable {run next : HeapRun} {reserved : List Nat} {checked : Bool}

/-- Getting a variant either fails or makes a variant live, which keeps its flags when it was
reserved. -/
theorem Accounts.get_cases {alloc : Nat} {type assigned : VariantType}
    (accounts : Accounts run reserved) (permits : Permits run (.get alloc type assigned))
    (acts : run.act checked (.get alloc type assigned) = some next) :
    ((pcvariantGet run.heap alloc type).1 = null ∧ next = run) ∨
      ∃ value, (pcvariantGet run.heap alloc type).1 = value ∧ value ≠ null ∧ value ∉ run.live ∧
        next.live = insert value run.live ∧
        ∀ other ∈ next.heap.allocated, (next.heap.cells other).flags = 0 ∨
          other ∈ run.heap.allocated ∧
            (next.heap.cells other).flags = (run.heap.cells other).flags := by
  cases reserved with
  | nil =>
    have empty := accounts.listEmpty_nil
    rw [Accounts.act_get_empty empty] at acts
    by_cases failed : alloc = null
    · rw [if_pos failed] at acts
      left
      apply And.intro _ (Option.some.inj acts).symm
      simp [pcvariantGet, empty, failed]
    · rw [if_neg failed] at acts
      have unused : alloc ∉ run.live := by
        intro live
        have overlap := (permits empty failed).apart alloc (accounts.pool.live_allocated live)
        omega
      right
      refine ⟨alloc, by simp [pcvariantGet, empty, failed], failed, unused, ?_, ?_⟩
      · rw [← Option.some.inj acts]
        rfl
      · rw [← Option.some.inj acts]
        intro other inside
        by_cases same : other = alloc
        · left
          simp [Accounts.newRun, same, Cell.zero]
        · right
          apply And.intro (Finset.mem_of_mem_insert_of_ne inside same)
          simp [Accounts.newRun, same]
  | cons value rest =>
    have busy := accounts.listEmpty_cons
    have first := accounts.firstReserved_cons
    have notNull := accounts.reserved_ne_null
    rw [Accounts.act_get_first busy first notNull] at acts
    right
    refine ⟨value, by simp [pcvariantGet, busy, first], notNull,
      accounts.pool.apart value List.mem_cons_self, ?_, ?_⟩
    · rw [← Option.some.inj acts]
      rfl
    · rw [← Option.some.inj acts]
      intro other inside
      right
      apply And.intro inside
      by_cases same : other = value
      · simp [Accounts.takenRun, same]
      · simp [Accounts.takenRun, same]

/-- Putting a variant back writes no variant and allocates nothing. -/
theorem put_keeps {value : Nat} (acts : run.act checked (.put value) = some next) :
    next.live = run.live.erase value ∧ next.heap.allocated ⊆ run.heap.allocated ∧
      next.heap.cells = run.heap.cells := by
  rw [Accounts.act_put acts]
  split
  · exact ⟨rfl, Finset.erase_subset value _, rfl⟩
  · exact ⟨rfl, Finset.Subset.refl _, rfl⟩

/-- The holders of variants leave them live, and write no flags but those that they store. -/
theorem own_keeps {action : HeapAction} (acts : run.act checked action = some next)
    (owns : action.OfHolder) :
    next.live = run.live ∧ next.heap.allocated = run.heap.allocated ∧
      ∀ value, (run.heap.cells value).flags &&& flagNofree = 0 →
        (next.heap.cells value).flags &&& flagNofree = 0 := by
  have stored : ∀ value cell, cell.flags &&& flagNofree = 0 ∨
      cell.flags = (run.heap.cells value).flags → ∀ other,
      (run.heap.cells other).flags &&& flagNofree = 0 →
        ((run.heap.setCell value cell).cells other).flags &&& flagNofree = 0 := by
    intro value cell fine other clear
    by_cases same : other = value
    · rw [same] at clear ⊢
      simp only [VariantHeap.setCell, Function.update_self]
      rcases fine with new | old
      · exact new
      · rw [old]
        exact clear
    · simp only [VariantHeap.setCell, Function.update_of_ne same]
      exact clear
  cases action with
  | get alloc type assigned => exact owns.elim
  | put value => exact owns.elim
  | setExtraSize value extraSize =>
    rw [← Option.some.inj acts]
    apply And.intro rfl
    dsimp only [pcvariantStatSetExtraSize]
    split
    · exact ⟨rfl, stored value _ (Or.inr rfl)⟩
    · exact ⟨rfl, fun _ clear => clear⟩
  | setType value type =>
    rw [← Option.some.inj acts]
    exact ⟨rfl, rfl, stored value _ (Or.inr rfl)⟩
  | setFlags value flags =>
    rw [← Option.some.inj acts]
    exact ⟨rfl, rfl, stored value _ (Or.inl owns)⟩
  | setWord value word =>
    rw [← Option.some.inj acts]
    exact ⟨rfl, rfl, stored value _ (Or.inr rfl)⟩
  | relink links =>
    rw [← Option.some.inj acts]
    exact ⟨rfl, rfl, fun _ clear => clear⟩

end Heap

/-! ## The invariant -/

namespace RefRun

/-- What a run of the references keeps. -/
structure Sound (checked : Bool) (run : RefRun) : Prop where
  /-- The heap is in a reachable state. -/
  heap : (heapMachine checked).Reachable run.toHeapRun
  /-- The counts are the references that are held. -/
  counted : Counted run.live run.state.refc run.held run.releasing
  /-- No block carries `PCVRNT_FLAG_NOFREE`. -/
  freeable : ∀ value ∈ run.state.heap.allocated,
    (run.state.heap.cells value).flags &&& flagNofree = 0

namespace Sound

variable {checked : Bool} {run next : RefRun} {value : VariantPointer} {block : Nat}

/-- A live variant is allocated. -/
theorem allocated (sound : run.Sound checked) (live : block ∈ run.live) :
    block ∈ run.state.heap.allocated := by
  have ⟨reserved, accounts⟩ := Accounts.of_reachable sound.heap
  exact accounts.pool.live_allocated live

/-- The count of a variant that is held is not zero. -/
theorem refc_ne_zero (sound : run.Sound checked) (holds : 0 < run.held value) :
    run.state.refc value ≠ 0 := by
  intro zero
  have counts := sound.counted.counts value (sound.counted.alive holds)
  rw [zero] at counts
  exact holds.ne counts

/-- The count goes up with the references. -/
theorem count_succ (sound : run.Sound checked) (alive : Alive run.live value)
    (few : run.held value + 1 < 2 ^ 32) :
    (run.state.refc value + 1).toNat = run.held value + 1 := by
  have counts := sound.counted.counts value alive
  rw [UInt32.toNat_add, counts]
  exact Nat.mod_eq_of_lt few

/-- The count goes down with the references. -/
theorem count_pred (sound : run.Sound checked) (holds : 0 < run.held value) :
    (run.state.refc value - 1).toNat = run.held value - 1 := by
  have counts := sound.counted.counts value (sound.counted.alive holds)
  have one : (1 : UInt32) ≤ run.state.refc value := by
    rw [UInt32.le_iff_toNat_le, counts]
    exact holds
  rw [UInt32.toNat_sub_of_le _ _ one, counts]
  rfl

/-- The block to release after a reference to it was given up. -/
theorem releasable_block (sound : run.Sound checked) (holds : 0 < run.held (.block block)) :
    (run.state.count (.block block) (run.state.refc (.block block) - 1)).releasable
      (.block block) = if run.held (.block block) = 1 then some block else none := by
  have fewer := sound.count_pred holds
  have clear := sound.freeable block (sound.allocated (sound.counted.alive holds))
  have last : run.state.refc (.block block) - 1 = 0 ↔ run.held (.block block) = 1 := by
    rw [← UInt32.toNat_inj, fewer, UInt32.toNat_zero]
    omega
  simp only [RefHeap.releasable, RefHeap.count, Function.update_self, clear, and_true, last]

/-- Only the last reference to a block releases it. -/
theorem releasable_eq_some (sound : run.Sound checked) (holds : 0 < run.held value)
    (releasable : (run.state.count value (run.state.refc value - 1)).releasable value =
      some block) : value = .block block ∧ run.held value = 1 := by
  cases value with
  | constant which => exact absurd releasable.symm (Option.some_ne_none block)
  | block held =>
    rw [sound.releasable_block holds] at releasable
    split at releasable
    · rename_i last
      rw [Option.some.inj releasable] at last ⊢
      exact ⟨rfl, last⟩
    · exact absurd releasable.symm (Option.some_ne_none block)

/-- A run of the references starts so. -/
theorem start (starts : (refMachine checked).start run) : run.Sound checked := by
  have ⟨vReserved, nrMaxReserved, cells, links, refc, zero, same⟩ := starts
  rw [same]
  refine ⟨.start ⟨_, _, _, _, rfl⟩, ⟨?_, fun _ _ => rfl, ?_, List.nodup_nil⟩, ?_⟩
  · intro value alive
    cases value with
    | constant which => exact congrArg UInt32.toNat (zero which)
    | block held => exact absurd alive (Finset.notMem_empty held)
  · intro value
    simp
  · intro value inside
    exact absurd inside (Finset.notMem_empty value)

/-- Another number of references is held of a variant that stays as it is. -/
theorem recount (sound : run.Sound checked) {refc : UInt32} {number : ℕ}
    (alive : Alive run.live value) (same : refc.toNat = number)
    (positive : ∀ block, value = .block block → (0 < run.held value ↔ 0 < number)) :
    (run.count value refc number).Sound checked :=
  ⟨sound.heap, sound.counted.recount alive same positive, sound.freeable⟩

/-- Making a variant keeps the references sound. -/
theorem make (sound : run.Sound checked) {alloc : Nat} {type assigned : VariantType}
    (permits : run.Permits (.make alloc type assigned))
    (acts : run.act checked (.make alloc type assigned) = some next) : next.Sound checked := by
  rw [RefRun.act, Option.bind_eq_bind, Option.bind_eq_some_iff] at acts
  obtain ⟨after, taken, made⟩ := acts
  obtain ⟨reserved, accounts⟩ := Accounts.of_reachable sound.heap
  have heapPermits : Purc.Permits run.toHeapRun (.get alloc type assigned) := permits
  have heap : (heapMachine checked).Reachable after := sound.heap.step ⟨heapPermits, taken⟩
  obtain ⟨failed, unchanged⟩ | ⟨value, got, notNull, new, live, flags⟩ :=
    accounts.get_cases permits taken
  · have missing : (pcvariantGet run.state.heap alloc type).1 = null := failed
    rw [if_pos missing, unchanged] at made
    rw [← Option.some.inj made]
    exact sound
  · have got' : (pcvariantGet run.state.heap alloc type).1 = value := got
    rw [got', if_neg notNull] at made
    rw [← Option.some.inj made]
    refine ⟨heap, ?_, ?_⟩
    · have counted := sound.counted.make new
      have same : after.live = insert value run.live := live
      rw [← same] at counted
      exact counted
    · intro other inside
      obtain zero | ⟨old, same⟩ := flags other inside
      · have clear : (after.heap.cells other).flags &&& flagNofree = 0 := by
          rw [zero]
          rfl
        exact clear
      · have clear : (after.heap.cells other).flags &&& flagNofree = 0 := by
          rw [same]
          exact sound.freeable other old
        exact clear

/-- The end of a release keeps the references sound. -/
theorem finish (sound : run.Sound checked)
    (emptied : ∀ value rest, run.releasing = value :: rest → run.Emptied value)
    (acts : run.finish checked = some next) : next.Sound checked := by
  cases stack : run.releasing with
  | nil =>
    rw [RefRun.finish, stack] at acts
    exact absurd acts.symm (Option.some_ne_none next)
  | cons value rest =>
    simp only [RefRun.finish, stack, Option.bind_eq_bind, Option.bind_eq_some_iff,
      Option.some.injEq] at acts
    obtain ⟨after, put, same⟩ := acts
    have counted := sound.counted
    rw [stack] at counted
    have live := ((counted.underWay value).1 List.mem_cons_self).1
    have ⟨left, blocks, cells⟩ := put_keeps put
    rw [← same]
    have ready : Purc.Permits run.toHeapRun (.put value) := ⟨live, emptied value rest stack⟩
    refine ⟨sound.heap.step ⟨ready, put⟩, ?_, ?_⟩
    · have finished := counted.finish
      have erased : after.live = run.live.erase value := left
      rw [← erased] at finished
      exact finished
    · intro other inside
      have clear : (after.heap.cells other).flags &&& flagNofree = 0 := by
        rw [cells]
        exact sound.freeable other (blocks inside)
      exact clear

/-- The last reference to a block is given up. -/
theorem release (sound : run.Sound checked) (last : run.held (.block block) = 1) :
    ({ run.count (.block block) 0 0 with releasing := block :: run.releasing }).Sound checked := by
  have holds : 0 < run.held (.block block) := by omega
  exact ⟨sound.heap, sound.counted.release (sound.counted.alive holds) holds, sound.freeable⟩

/-- Giving up a reference keeps the references sound. -/
theorem unref (sound : run.Sound checked) (permits : run.Permits (.unref value))
    (acts : run.act checked (.unref value) = some next) : next.Sound checked := by
  have ⟨holds, alone⟩ := permits
  have fewer := sound.count_pred holds
  rw [RefRun.act, if_neg (sound.refc_ne_zero holds)] at acts
  cases value with
  | constant which =>
    rw [← Option.some.inj acts]
    have alive : Alive run.live (.constant which) := trivial
    apply sound.recount alive fewer
    intro block same
    exact absurd same (by simp)
  | block block =>
    have releases := sound.releasable_block holds
    by_cases last : run.held (.block block) = 1
    · have zero : run.state.refc (.block block) - 1 = 0 := by
        rw [← UInt32.toNat_inj, fewer, last]
        rfl
      have released := sound.release last
      rw [if_pos last] at releases
      simp only [RefRun.count, releases] at acts
      rw [zero, last] at acts
      by_cases needed : hasReleaser (run.state.heap.cells block).type = true
      · have reads : some _ = some next := (if_pos needed).symm.trans acts
        rw [← Option.some.inj reads]
        exact released
      · apply released.finish _ ((if_neg needed).symm.trans acts)
        intro value rest stack
        rw [← (List.cons.inj stack).1]
        exact alone block rfl last (Bool.eq_false_of_not_eq_true needed)
    · rw [if_neg last] at releases
      simp only [RefRun.count, releases] at acts
      rw [← Option.some.inj acts]
      apply sound.recount (sound.counted.alive holds) fewer
      intro _ _
      omega

/-- Every step keeps the references sound. -/
theorem step {action : RefAction} (sound : run.Sound checked) (permits : run.Permits action)
    (acts : run.act checked action = some next) : next.Sound checked := by
  cases action with
  | make alloc type assigned => exact sound.make permits acts
  | constant which =>
    rw [← Option.some.inj acts]
    have alive : Alive run.live (.constant which) := trivial
    apply sound.recount alive (sound.count_succ alive permits)
    intro block same
    exact absurd same (by simp)
  | ref value =>
    have ⟨holds, few⟩ := permits
    have alive := sound.counted.alive holds
    rw [RefRun.act, purcVariantRef, if_neg (sound.refc_ne_zero holds)] at acts
    rw [← Option.some.inj acts]
    apply sound.recount alive (sound.count_succ alive few)
    intro _ _
    omega
  | unref value => exact sound.unref permits acts
  | finish => exact sound.finish permits acts
  | own action =>
    rw [RefRun.act, Option.map_eq_some_iff] at acts
    have ⟨after, taken, same⟩ := acts
    have ⟨live, blocks, flags⟩ := own_keeps taken permits.2
    rw [← same]
    refine ⟨sound.heap.step ⟨permits.1, taken⟩, ?_, ?_⟩
    · have counted := sound.counted
      have kept : after.live = run.live := live
      rw [← kept] at counted
      exact counted
    · intro other inside
      have old : other ∈ run.state.heap.allocated := by
        have kept : after.heap.allocated = run.state.heap.allocated := blocks
        rw [← kept]
        exact inside
      exact flags other (sound.freeable other old)

/-- Every reachable state is sound. -/
theorem of_reachable (reachable : (refMachine checked).Reachable run) : run.Sound checked := by
  apply reachable.invariant
  · intro state starts
    exact start starts
  · intro state action next _ sound taken
    exact sound.step taken.1 taken.2

end Sound

end RefRun

variable {checked : Bool} {run : RefRun}

/-! ## Counts -/

/-- What the counts say about the references. -/
structure Referenced (checked : Bool) (run : RefRun) : Prop where
  /-- The heap is in a reachable state. -/
  heap : (heapMachine checked).Reachable run.toHeapRun
  /-- The count of a variant that is held is the number of references to it. -/
  counted : ∀ value, 0 < run.held value → ∃ refc,
    purcVariantRefCount checked run.state value = some refc ∧ refc.toNat = run.held value
  /-- A variant that is held can be referenced. -/
  referenced : ∀ value, 0 < run.held value → ∃ state,
    purcVariantRef checked run.state value = some (some value, state)
  /-- The live variants are those that are held or being released. -/
  live : ∀ value, value ∈ run.live ↔ 0 < run.held (.block value) ∨ value ∈ run.releasing
  /-- A variant that is being released is not held. -/
  unheld : ∀ value ∈ run.releasing, run.held (.block value) = 0
  /-- No variant is being released twice. -/
  once : run.releasing.Nodup
  /-- The statistics have the references to `v_undefined`. -/
  undefined : ((purcVariantUsageStat run.state).nrValues .undefined).toNat =
    run.held (.constant .undefined)
  /-- The statistics have the references to `v_null`. -/
  null : ((purcVariantUsageStat run.state).nrValues .null).toNat = run.held (.constant .null)
  /-- The statistics have the references to `v_true` and `v_false`. -/
  boolean : ((purcVariantUsageStat run.state).nrValues .boolean).toNat =
    run.held (.constant .true) + run.held (.constant .false)

/-- The live variants are those that are held or being released. -/
theorem RefRun.Sound.live_iff (sound : run.Sound checked) (value : Nat) :
    value ∈ run.live ↔ 0 < run.held (.block value) ∨ value ∈ run.releasing := by
  rw [sound.counted.underWay]
  constructor
  · intro live
    by_cases holds : run.held (.block value) = 0
    · exact Or.inr ⟨live, holds⟩
    · exact Or.inl (Nat.pos_of_ne_zero holds)
  · intro kept
    rcases kept with holds | releasing
    · exact sound.counted.alive holds
    · exact releasing.1

/-- In every reachable state the counts are exact, a variant is live as long as it is held or being
released, and the statistics count the references to the constants. -/
theorem references_counted (checked : Bool) (run : RefRun)
    (reachable : (refMachine checked).Reachable run) : Referenced checked run := by
  have sound := RefRun.Sound.of_reachable reachable
  have constants : ∀ which,
      (run.state.refc (.constant which)).toNat = run.held (.constant which) := by
    intro which
    exact sound.counted.counts (.constant which) trivial
  refine ⟨sound.heap, ?_, ?_, sound.live_iff, ?_, sound.counted.distinct, ?_, ?_, ?_⟩
  · intro value holds
    apply Exists.intro (run.state.refc value)
    rw [purcVariantRefCount, if_neg (sound.refc_ne_zero holds)]
    exact ⟨rfl, sound.counted.counts value (sound.counted.alive holds)⟩
  · intro value holds
    rw [purcVariantRef, if_neg (sound.refc_ne_zero holds)]
    exact ⟨_, rfl⟩
  · intro value releasing
    exact ((sound.counted.underWay value).1 releasing).2
  · rw [← constants]
    simp [purcVariantUsageStat]
  · rw [← constants]
    simp [purcVariantUsageStat]
  · rw [← constants, ← constants]
    have trues := (run.state.refc (.constant .true)).toNat_lt
    have falses := (run.state.refc (.constant .false)).toNat_lt
    simp only [purcVariantUsageStat, Function.update_self, UInt64.toNat_add,
      UInt32.toNat_toUInt64]
    omega

/-- A heap without references. -/
def refStart : RefRun := ⟨⟨reuseStart.heap, fun _ => 0⟩, ∅, fun _ => 0, []⟩

/-- A string was made. -/
def refMade : RefRun :=
  (refStart.withHeapRun (Accounts.newRun reuseStart 4096 .string .string)).count (.block 4096) 1 1

/-- A string is made. -/
theorem refMade_reachable (checked : Bool) : (refMachine checked).Reachable refMade := by
  have starts : (refMachine checked).start refStart :=
    ⟨64, 32, fun _ => .zero, ⟨id, id⟩, fun _ => 0, fun _ => rfl, rfl⟩
  have permits : refStart.Permits (.make 4096 .string .string) := reuse_handedOut.1.1
  have taken : refStart.toHeapRun.act checked (.get 4096 .string .string) =
      some (Accounts.newRun reuseStart 4096 .string .string) :=
    Accounts.act_get_empty rfl 4096 .string .string
  have acts : refStart.act checked (.make 4096 .string .string) = some refMade := by
    rw [RefRun.act, taken]
    rfl
  exact .step (.start starts) ⟨permits, acts⟩

/-- The counts of a string that was made are exact. -/
theorem references_counted_string : Referenced true refMade :=
  references_counted true refMade (refMade_reachable true)

/-! ## Giving up a reference -/

/-- A function of `variant_releasers` takes steps of its own, and leaves the variant without an
extra size and, if it is a container, without listeners. -/
def Releases (checked : Bool) (release : RefHeap → Nat → Option RefHeap) : Prop :=
  ∀ run value rest, (refMachine checked).Reachable run → run.releasing = value :: rest →
    hasReleaser (run.state.heap.cells value).type = true →
      ∃ next, (refMachine checked).Reachable next ∧ next.releasing = value :: rest ∧
        release run.state value = some next.state ∧ next.Emptied value ∧ next.Unheard value

/-- No assertion stops a put of a variant that is no container or has no listeners. -/
theorem pcvariantPut_succeeds {heap : VariantHeap} {value : Nat}
    (unheard : isContainer (heap.cells value).type = true →
      listEmpty heap.links (node value) = true) :
    ∃ next, pcvariantPut checked heap value = some next := by
  have passes : (checked && isContainer (heap.cells value).type &&
      !listEmpty heap.links (node value)) = false := by
    by_cases container : isContainer (heap.cells value).type = true
    · rw [unheard container, Bool.not_true, Bool.and_false]
    · rw [Bool.eq_false_of_not_eq_true container, Bool.and_false, Bool.false_and]
  dsimp only [pcvariantPut]
  rw [passes, if_neg Bool.false_ne_true]
  split
  · exact ⟨_, rfl⟩
  · exact ⟨_, rfl⟩

/-- Putting a block back writes no variant. -/
theorem pcvariantPut_cells {heap next : VariantHeap} {block : Nat}
    (puts : pcvariantPut checked heap block = some next) : next.cells = heap.cells := by
  have acts : HeapRun.act checked ⟨heap, ∅⟩ (.put block) = some ⟨next, Finset.erase ∅ block⟩ := by
    rw [HeapRun.act, puts]
    rfl
  exact (put_keeps acts).2.2

/-- A variant that was released is put back. -/
theorem finish_put {value : Nat} {rest : List Nat} {heap : VariantHeap}
    (stack : run.releasing = value :: rest)
    (puts : pcvariantPut checked run.state.heap value = some heap) :
    run.finish checked = some { run with
      state := { run.state with heap := heap }
      live := run.live.erase value
      releasing := rest } := by
  have acts : run.toHeapRun.act checked (.put value) = some ⟨heap, run.live.erase value⟩ := by
    rw [HeapRun.act, RefRun.toHeapRun, puts]
    rfl
  simp only [RefRun.finish, stack, acts]
  rfl

/-- Giving up a reference leaves the variant when there is nothing to release. -/
theorem purcVariantUnref_remains {release : RefHeap → Nat → Option RefHeap} {state : RefHeap}
    {value : VariantPointer} (present : state.refc value ≠ 0)
    (remains : (state.count value (state.refc value - 1)).releasable value = none) :
    purcVariantUnref checked release state value =
      some (state.refc value - 1, state.count value (state.refc value - 1)) := by
  rw [purcVariantUnref, if_neg present]
  simp only [remains]
  simp [RefHeap.count]

/-- Giving up the last reference releases the variant and puts it back. -/
theorem purcVariantUnref_releases {release : RefHeap → Nat → Option RefHeap}
    {state after : RefHeap} {heap : VariantHeap} {value : VariantPointer} {block : Nat}
    (present : state.refc value ≠ 0)
    (releasable : (state.count value (state.refc value - 1)).releasable value = some block)
    (released : (if hasReleaser (state.heap.cells block).type then
      release (state.count value (state.refc value - 1)) block
      else some (state.count value (state.refc value - 1))) = some after)
    (puts : pcvariantPut checked after.heap block = some heap) :
    purcVariantUnref checked release state value = some (0, { after with heap := heap }) := by
  rw [purcVariantUnref, if_neg present]
  simp only [releasable]
  by_cases needed : hasReleaser (state.heap.cells block).type = true
  · have ran := (if_pos needed).symm.trans released
    apply (if_pos needed).trans
    simp only [ran, puts, Option.bind_eq_bind, Option.bind_some]
  · have stays := Option.some.inj ((if_neg needed).symm.trans released)
    apply (if_neg needed).trans
    simp only [stays, puts, Option.bind_eq_bind, Option.bind_some]

/-- Every container has a function in `variant_releasers`. -/
theorem hasReleaser_of_isContainer {type : VariantType} (container : isContainer type = true) :
    hasReleaser type = true := by
  cases type with
  | object | array | set | tuple => rfl
  | _ => exact absurd container Bool.false_ne_true

namespace RefRun

/-- A reference is given up. -/
def lessen (run : RefRun) (value : VariantPointer) : RefRun :=
  run.count value (run.state.refc value - 1) (run.held value - 1)

/-- The last reference to a block is given up, and its release begins. -/
def begin (run : RefRun) (block : Nat) : RefRun :=
  { run.lessen (.block block) with releasing := block :: run.releasing }

/-- A block that was released is put back. -/
def putBack (run : RefRun) (block : Nat) (rest : List Nat) (heap : VariantHeap) : RefRun :=
  { run with
    state := { run.state with heap := heap }
    live := run.live.erase block
    releasing := rest }

end RefRun

/-- A release that ends as `pcvariant_put` asks. -/
structure ReleasedBy (checked : Bool) (release : RefHeap → Nat → Option RefHeap) (begun : RefRun)
    (value : Nat) (next : RefRun) : Prop where
  /-- The release is a run. -/
  reachable : (refMachine checked).Reachable next
  /-- It gives up no more than it was asked to. -/
  releasing : next.releasing = begun.releasing
  /-- It returns. -/
  returns : release begun.state value = some next.state
  /-- The variant has no extra size. -/
  emptied : next.Emptied value
  /-- The variant has no listeners. -/
  unheard : next.Unheard value

/-- Giving up a reference that is held is a run, when the function that releases the variant is
one. The last reference puts the block back, with what the release has left. -/
theorem purcVariantUnref_ends {release : RefHeap → Nat → Option RefHeap} {value : VariantPointer}
    (reachable : (refMachine checked).Reachable run) (permits : run.Permits (.unref value))
    (leaves : RefRun → Prop)
    (released : ∀ block, value = .block block →
      hasReleaser (run.state.heap.cells block).type = true →
      (refMachine checked).Reachable (run.begin block) →
      ∃ next, ReleasedBy checked release (run.begin block) block next ∧ leaves next) :
    ∃ count after, purcVariantUnref checked release run.state value = some (count, after.state) ∧
      (refMachine checked).Reachable after ∧ after.releasing = run.releasing ∧
      count.toNat = run.held value - 1 ∧
      (after = run.lessen value ∨ ∃ block next heap, value = .block block ∧
        after = next.putBack block run.releasing heap ∧ heap.cells = next.state.heap.cells ∧
        (leaves next ∨
          hasReleaser (run.state.heap.cells block).type = false ∧ next = run.begin block)) := by
  have sound := RefRun.Sound.of_reachable reachable
  have holds := permits.1
  have fewer := sound.count_pred holds
  have present := sound.refc_ne_zero holds
  cases releasable : (run.state.count value (run.state.refc value - 1)).releasable value with
  | none =>
    have acts : run.act checked (.unref value) = some (run.lessen value) := by
      rw [RefRun.act, if_neg present]
      simp only [RefRun.count, releasable, RefRun.lessen]
    exact ⟨_, run.lessen value, purcVariantUnref_remains present releasable,
      reachable.step ⟨permits, acts⟩, rfl, fewer, Or.inl rfl⟩
  | some block =>
    obtain ⟨same, last⟩ := sound.releasable_eq_some holds releasable
    subst same
    have none : (0 : UInt32).toNat = run.held (.block block) - 1 := by
      rw [last]
      rfl
    have acts : run.act checked (.unref (.block block)) =
        if hasReleaser (run.state.heap.cells block).type then some (run.begin block)
        else (run.begin block).finish checked := by
      rw [RefRun.act, if_neg present]
      simp only [RefRun.count, releasable]
      rfl
    by_cases needed : hasReleaser (run.state.heap.cells block).type = true
    · rw [if_pos needed] at acts
      obtain ⟨next, ends, left⟩ := released block rfl needed (reachable.step ⟨permits, acts⟩)
      obtain ⟨heap, puts⟩ : ∃ heap, pcvariantPut checked next.state.heap block = some heap :=
        pcvariantPut_succeeds ends.unheard
      have stack : next.releasing = block :: run.releasing := ends.releasing
      have permitsFinish : next.Permits .finish := by
        intro value rest front
        rw [stack] at front
        rw [← (List.cons.inj front).1]
        exact ends.emptied
      have returns := purcVariantUnref_releases present releasable
        ((if_pos needed).trans ends.returns) puts
      exact ⟨0, next.putBack block run.releasing heap, returns,
        ends.reachable.step ⟨permitsFinish, finish_put stack puts⟩, rfl, none,
        Or.inr ⟨block, next, heap, rfl, rfl, pcvariantPut_cells puts, Or.inl left⟩⟩
    · rw [if_neg needed] at acts
      obtain ⟨heap, puts⟩ :
          ∃ heap, pcvariantPut checked (run.begin block).state.heap block = some heap :=
        pcvariantPut_succeeds fun container =>
          absurd (hasReleaser_of_isContainer container) needed
      have finished : (run.begin block).finish checked = _ := finish_put rfl puts
      have returns : purcVariantUnref checked release run.state (.block block) = _ :=
        purcVariantUnref_releases present releasable (if_neg needed) puts
      exact ⟨0, (run.begin block).putBack block run.releasing heap, returns,
        reachable.step ⟨permits, acts.trans finished⟩, rfl, none,
        Or.inr ⟨block, run.begin block, heap, rfl, rfl, pcvariantPut_cells puts,
          Or.inr ⟨Bool.eq_false_of_not_eq_true needed, rfl⟩⟩⟩

/-- Giving up a reference that is held, with all that the functions in `variant_releasers` do, is
a run, and returns the number of references that are left. -/
theorem purcVariantUnref_run (checked : Bool) (release : RefHeap → Nat → Option RefHeap)
    (run : RefRun) (value : VariantPointer) (reachable : (refMachine checked).Reachable run)
    (releases : Releases checked release) (permits : run.Permits (.unref value)) :
    ∃ count next, purcVariantUnref checked release run.state value = some (count, next.state) ∧
      (refMachine checked).Reachable next ∧ next.releasing = run.releasing ∧
      count.toNat = run.held value - 1 := by
  obtain ⟨count, next, returns, goesOn, same, left, _⟩ :=
    purcVariantUnref_ends reachable permits (fun _ => True) (by
      intro block _ needed begins
      obtain ⟨next, goesOn, same, returns, emptied, unheard⟩ :=
        releases (run.begin block) block run.releasing begins rfl needed
      exact ⟨next, ⟨goesOn, same, returns, emptied, unheard⟩, trivial⟩)
  exact ⟨count, next, returns, goesOn, same, left⟩

/-- A function that releases a variant which has nothing but an extra size. -/
def releaseSize (state : RefHeap) (value : Nat) : Option RefHeap :=
  let heap := pcvariantStatSetExtraSize state.heap value 0
  some { state with heap := { heap with links := listHeadInit heap.links (node value) } }

/-- Releasing an extra size is a run of two steps, which leaves the references as they are. -/
theorem releaseSize_steps {value : Nat} {rest : List Nat}
    (reachable : (refMachine checked).Reachable run) (stack : run.releasing = value :: rest) :
    ∃ next, (refMachine checked).Reachable next ∧ next.releasing = value :: rest ∧
      releaseSize run.state value = some next.state ∧ next.Emptied value ∧
      listEmpty next.state.heap.links (node value) = true ∧ next.live = run.live ∧
      next.held = run.held ∧
      ∀ other, (next.state.heap.cells other).type = (run.state.heap.cells other).type := by
  have sound := RefRun.Sound.of_reachable reachable
  have listed : value ∈ run.releasing := by
    rw [stack]
    exact List.mem_cons_self
  have live := ((sound.counted.underWay value).1 listed).1
  let sized := run.withHeapRun ⟨pcvariantStatSetExtraSize run.state.heap value 0, run.live⟩
  have first : (refMachine checked).step run (.own (.setExtraSize value 0)) sized :=
    ⟨⟨live, trivial⟩, rfl⟩
  have reached := reachable.step first
  let links := listHeadInit sized.state.heap.links (node value)
  let heap : VariantHeap := { sized.state.heap with links := links }
  have second : (refMachine checked).step sized (.own (.relink links))
      (sized.withHeapRun ⟨heap, run.live⟩) := by
    refine ⟨⟨?_, trivial⟩, rfl⟩
    intro at' reserveNode
    have ⟨reserved, accounts⟩ := Accounts.of_reachable (RefRun.Sound.of_reachable reached).heap
    have outside := accounts.pool.live_outside live
    have apart : at' ≠ node value := by
      intro same
      apply outside
      rcases reserveNode with head | ⟨other, held, unlisted, nodes⟩
      · exact List.mem_cons.2 (Or.inl (same.symm.trans head))
      · apply List.mem_cons_of_mem
        rw [← same, nodes]
        exact List.mem_map_of_mem (((accounts.pool.cover other).1 held).resolve_left unlisted)
    have relinked : links.next at' = sized.state.heap.links.next at' ∧
        links.prev at' = sized.state.heap.links.prev at' := by
      simp [links, listHeadInit, apart]
    exact relinked
  refine ⟨_, reached.step second, stack, rfl, ?_, ?_, rfl, rfl, ?_⟩
  · intro flagged
    have cells : ((pcvariantStatSetExtraSize run.state.heap value 0).cells value).hasExtraSize =
        true → ((pcvariantStatSetExtraSize run.state.heap value 0).cells value).szPtr0 = 0 := by
      dsimp only [pcvariantStatSetExtraSize]
      split
      · intro _
        simp [VariantHeap.setCell]
      · rename_i unflagged
        intro flagged
        exact absurd flagged unflagged
    exact cells flagged
  · have empty : listEmpty links (node value) = true := by
      simp [links, listEmpty, listHeadInit]
    exact empty
  · intro other
    have type : ((pcvariantStatSetExtraSize run.state.heap value 0).cells other).type =
        (run.state.heap.cells other).type := by
      dsimp only [pcvariantStatSetExtraSize]
      split
      · by_cases hit : other = value
        · simp [VariantHeap.setCell, hit]
        · simp [VariantHeap.setCell, hit]
      · rfl
    exact type

/-- Releasing an extra size is a run. -/
theorem releaseSize_releases (checked : Bool) : Releases checked releaseSize := by
  intro run value rest reachable stack _
  have ⟨next, goesOn, same, released, emptied, unheard, _⟩ := releaseSize_steps reachable stack
  exact ⟨next, goesOn, same, released, emptied, fun _ => unheard⟩

/-- The only reference to a string is given up. -/
theorem purcVariantUnref_run_string :
    ∃ count next, purcVariantUnref true releaseSize refMade.state (.block 4096) =
        some (count, next.state) ∧
      (refMachine true).Reachable next ∧ next.releasing = [] ∧ count.toNat = 1 - 1 :=
  purcVariantUnref_run true releaseSize refMade (.block 4096) (refMade_reachable true)
    (releaseSize_releases true)
    ⟨by decide, fun block same _ unneeded => by
      rw [← VariantPointer.block.inj same] at unneeded
      exact absurd unneeded (by decide)⟩

/-! ## The end -/

end Bpcp.Purc
