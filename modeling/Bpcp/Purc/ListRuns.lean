import Bpcp.Purc.ListMove

/-!
# Runs of the list functions

Any number of lists may be in memory at a time, and the functions add, delete, move, splice and
exchange their nodes in any order. What a run means is said by lists of addresses: an action
changes the elements of one or two heads, under a condition on which nodes are heads, elements
or neither. Memory keeps to this meaning over every run, so a head can always be asked whether
it has elements, and an element whether it is the first or the last one.
-/

namespace Bpcp.Purc

open Bpcp.Lib Bpcp.Lib.RingFamily

/-- A call of a function on lists. -/
inductive ListAction where
  /-- `list_head_init`. -/
  | init (list : Nat)
  /-- `list_add`. -/
  | add (new head : Nat)
  /-- `list_add_tail`. -/
  | addTail (new head : Nat)
  /-- `list_del`. -/
  | del (entry : Nat)
  /-- `list_del_init`. -/
  | delInit (entry : Nat)
  /-- `list_move`. -/
  | move (list head : Nat)
  /-- `list_move_tail`. -/
  | moveTail (entry head : Nat)
  /-- `list_splice`. -/
  | splice (list head : Nat)
  /-- `list_splice_tail`. -/
  | spliceTail (list head : Nat)
  /-- `list_splice_init`. -/
  | spliceInit (list head : Nat)
  /-- `list_splice_tail_init`. -/
  | spliceTailInit (list head : Nat)
  /-- `list_swap`. -/
  | swap (l r : Nat)
  /-- `list_swap_list`. -/
  | swapList (lh rh : Nat)
deriving DecidableEq

/-- The links after an action. -/
def ListAction.act (links : Links Nat) : ListAction → Links Nat
  | .init list => listHeadInit links list
  | .add new head => listAdd links new head
  | .addTail new head => listAddTail links new head
  | .del entry => listDel links entry
  | .delInit entry => listDelInit links entry
  | .move list head => listMove links list head
  | .moveTail entry head => listMoveTail links entry head
  | .splice list head => listSplice links list head
  | .spliceTail list head => listSpliceTail links list head
  | .spliceInit list head => listSpliceInit links list head
  | .spliceTailInit list head => listSpliceTailInit links list head
  | .swap l r => listSwap links l r
  | .swapList lh rh => listSwapList links lh rh

/-- What an action means for the elements of the heads. -/
def ListAction.effect (family : RingFamily Nat) : ListAction → RingFamily Nat
  | .init list => Function.update family list (some [])
  | .add new head => modify (family.forget new) head (new :: ·)
  | .addTail new head => modify (family.forget new) head (· ++ [new])
  | .del entry => without family entry
  | .delInit entry => Function.update (without family entry) entry (some [])
  | .move list head => modify (without family list) head (list :: ·)
  | .moveTail entry head => modify (without family entry) head (· ++ [entry])
  | .splice list head => handOver family list head (· ++ ·) none
  | .spliceTail list head => handOver family list head (fun moved own => own ++ moved) none
  | .spliceInit list head => handOver family list head (· ++ ·) (some [])
  | .spliceTailInit list head =>
    handOver family list head (fun moved own => own ++ moved) (some [])
  | .swap l r => fun head => (family head).map (·.map (Equiv.swap l r))
  | .swapList lh rh => Function.update (Function.update family lh (family rh)) rh (family lh)

/-- The node is a head. -/
def IsHead (family : RingFamily Nat) (head : Nat) : Prop := ∃ elems, family head = some elems

/-- The node is an element of a head. -/
def IsElement (family : RingFamily Nat) (entry : Nat) : Prop :=
  ∃ head elems, family head = some elems ∧ entry ∈ elems

/-- What the functions rely on. A node may be initialized or added when it is in no list, or linked
to itself as an empty head is. A list is exchanged with a longer one only when it is not empty. -/
def ListAction.Allowed (family : RingFamily Nat) : ListAction → Prop
  | .init list => Loose family list
  | .add new head | .addTail new head => Loose family new ∧ IsHead (family.forget new) head
  | .del entry | .delInit entry => IsElement family entry
  | .move entry head | .moveTail entry head => IsElement family entry ∧ IsHead family head
  | .splice list head | .spliceTail list head | .spliceInit list head
  | .spliceTailInit list head => IsHead family list ∧ IsHead family head ∧ list ≠ head
  | .swap l r => IsElement family l ∧ IsElement family r
  | .swapList lh rh =>
    ∃ ls rs, family lh = some ls ∧ family rh = some rs ∧ (ls ≠ [] ∨ rs.length ≤ 1)

variable {links : Links Nat} {family : RingFamily Nat}

/-! ## Exchanging -/

/-- An entry that is exchanged with itself stays where it is. -/
theorem listSwap_self (links : Links Nat) (entry : Nat) : listSwap links entry entry = links :=
  if_pos rfl

/-- A list that is exchanged with itself stays as it is. -/
theorem listSwapList_self (links : Links Nat) (head : Nat) : listSwapList links head head = links :=
  if_pos rfl

/-- Entries of any lists are exchanged in all lists. -/
theorem represents_listSwap {l r : Nat} (represents : Represents links family)
    (elementL : IsElement family l) (elementR : IsElement family r) :
    Represents (listSwap links l r) fun head => (family head).map (·.map (Equiv.swap l r)) := by
  have ⟨lh, ls, listedL, memberL⟩ := elementL
  have ⟨rh, rs, listedR, memberR⟩ := elementR
  have notHead : ∀ head elems, family head = some elems → head ≠ l ∧ head ≠ r := by
    intro head elems listed
    constructor
    · intro same
      rw [same, represents.element_not_head listedL memberL] at listed
      exact Option.some_ne_none elems listed.symm
    · intro same
      rw [same, represents.element_not_head listedR memberR] at listed
      exact Option.some_ne_none elems listed.symm
  have lists : lh = rh ∧ ls = rs ∨ (lh :: ls).Disjoint (rh :: rs) := by
    by_cases same : lh = rh
    · rw [same, listedR] at listedL
      exact Or.inl ⟨same, (Option.some.inj listedL).symm⟩
    · exact Or.inr (represents.disjoint lh ls rh rs listedL listedR same)
  have exchanged : ∀ head elems, family head = some elems →
      (listSwap links l r).Ring head (elems.map (Equiv.swap l r)) := by
    intro head elems listed
    have ring := represents.ring head elems listed
    by_cases apart : l = r
    · rw [apart, listSwap_self, Equiv.swap_self, Equiv.coe_refl, List.map_id]
      exact ring
    · have ⟨notL, notR⟩ := notHead head elems listed
      exact ring_listSwap (represents.ring lh ls listedL) (represents.ring rh rs listedR)
        memberL memberR apart lists ring notL notR
  constructor
  · intro head elems listed
    have ⟨old, listedOld, renamed⟩ := Option.map_eq_some_iff.1 listed
    rw [← renamed]
    exact exchanged head old listedOld
  · intro left lefts right rights listedLeft listedRight differs
    have ⟨oldL, listedOldL, renamedL⟩ := Option.map_eq_some_iff.1 listedLeft
    have ⟨oldR, listedOldR, renamedR⟩ := Option.map_eq_some_iff.1 listedRight
    have fixed : ∀ head elems, family head = some elems →
        head :: elems.map (Equiv.swap l r) = (head :: elems).map (Equiv.swap l r) := by
      intro head elems listed
      have ⟨notL, notR⟩ := notHead head elems listed
      rw [List.map_cons, Equiv.swap_apply_of_ne_of_ne notL notR]
    have disjoint := represents.disjoint left oldL right oldR listedOldL listedOldR differs
    rw [← renamedL, ← renamedR, fixed left oldL listedOldL, fixed right oldR listedOldR]
    exact List.disjoint_map (Equiv.swap l r).injective disjoint

/-- Exchanging two lists writes at six nodes at most. -/
theorem listSwapList_frame {lh rh node : Nat} (outside : node ∉
      [lh, rh, links.next lh, links.prev lh, links.next rh, links.prev rh]) :
    (listSwapList links lh rh).next node = links.next node ∧
      (listSwapList links lh rh).prev node = links.prev node := by
  simp only [List.mem_cons, List.not_mem_nil, or_false, not_or] at outside
  have ⟨notL, notR, notFirstL, notLastL, notFirstR, notLastR⟩ := outside
  by_cases same : lh = rh
  · rw [same, listSwapList_self]
    exact ⟨rfl, rfl⟩
  · have apart : rh ≠ lh := fun reversed => same reversed.symm
    rw [listSwapList, if_neg same]
    split
    · dsimp only
      split <;>
        simp [_listAdd, listHeadInit, notL, notR, notFirstL, notLastL, notFirstR, notLastR, apart]
    · split
      · simp [_listAdd, listDelInit, _listDel, listHeadInit, notL, notR, notFirstR, notLastR]
      · exact ⟨rfl, rfl⟩

/-- Two lists are exchanged when the first is not empty or the second has at most one node. -/
theorem represents_listSwapList {lh rh : Nat} {ls rs : List Nat}
    (represents : Represents links family) (listedL : family lh = some ls)
    (listedR : family rh = some rs) (possible : ls ≠ [] ∨ rs.length ≤ 1) :
    Represents (listSwapList links lh rh)
      (Function.update (Function.update family lh (family rh)) rh (family lh)) := by
  by_cases same : lh = rh
  · rw [same, listSwapList_self, Function.update_eq_self, Function.update_eq_self]
    exact represents
  have ringL := represents.ring lh ls listedL
  have ringR := represents.ring rh rs listedR
  have disjoint := represents.disjoint lh ls rh rs listedL listedR same
  have exchanged := listSwapList_exchanged ringL ringR disjoint possible
  have availableL : ∀ node ∈ lh :: ls,
      Available family (fun changed => changed = lh ∨ changed = rh) node := by
    intro node inside
    exact represents.available (Or.inl rfl) listedL inside
  have availableR : ∀ node ∈ rh :: rs,
      Available family (fun changed => changed = lh ∨ changed = rh) node := by
    intro node inside
    exact represents.available (Or.inr rfl) listedR inside
  have headL := availableL lh List.mem_cons_self
  have headR := availableR rh List.mem_cons_self
  have atL : Function.update (Function.update family lh (family rh)) rh (family lh) lh =
      some rs := by
    rw [Function.update_of_ne same, Function.update_self, listedR]
  have atR : Function.update (Function.update family lh (family rh)) rh (family lh) rh =
      some ls := by
    rw [Function.update_self, listedL]
  -- The elements of each head are those that the other one had.
  have rings : ∀ head elems, (head = lh ∨ head = rh) →
      Function.update (Function.update family lh (family rh)) rh (family lh) head = some elems →
      (head = lh ∧ elems = rs ∨ head = rh ∧ elems = ls) := by
    intro head elems changes listed
    rcases changes with isL | isR
    · rw [isL, atL] at listed
      exact Or.inl ⟨isL, (Option.some.inj listed).symm⟩
    · rw [isR, atR] at listed
      exact Or.inr ⟨isR, (Option.some.inj listed).symm⟩
  have crossed : (lh :: rs).Disjoint (rh :: ls) := by
    have ownL := (List.nodup_cons.1 ringL.distinct).1
    have ownR := (List.nodup_cons.1 ringR.distinct).1
    intro node inL inR
    have apart := @disjoint node
    grind
  apply represents.change (fun changed => changed = lh ∨ changed = rh)
    [lh, rh, links.next lh, links.prev lh, links.next rh, links.prev rh]
  · intro head stays
    have ⟨notL, notR⟩ := not_or.1 stays
    rw [Function.update_of_ne notR, Function.update_of_ne notL]
  · intro node outside
    exact listSwapList_frame outside
  · intro node written
    simp only [List.mem_cons, List.not_mem_nil, or_false] at written
    rcases written with at' | at' | at' | at' | at' | at'
    · exact availableL node (at' ▸ List.mem_cons_self)
    · exact availableR node (at' ▸ List.mem_cons_self)
    · exact availableL node (at' ▸ ringL.next_mem List.mem_cons_self)
    · exact availableL node (at' ▸ ringL.prev_mem List.mem_cons_self)
    · exact availableR node (at' ▸ ringR.next_mem List.mem_cons_self)
    · exact availableR node (at' ▸ ringR.prev_mem List.mem_cons_self)
  · intro head elems changes listed
    rcases rings head elems changes listed with ⟨isL, areR⟩ | ⟨isR, areL⟩
    · rw [isL, areR]
      apply And.intro exchanged.left
      intro node inside
      rcases List.mem_cons.1 inside with isHead | member
      · exact isHead ▸ headL
      · exact availableR node (List.mem_cons_of_mem rh member)
    · rw [isR, areL]
      apply And.intro exchanged.right
      intro node inside
      rcases List.mem_cons.1 inside with isHead | member
      · exact isHead ▸ headR
      · exact availableL node (List.mem_cons_of_mem lh member)
  · intro left lefts right rights changesL changesR listedLeft listedRight differs
    rcases rings left lefts changesL listedLeft with ⟨isL, areR⟩ | ⟨isR, areL⟩
    · rcases rings right rights changesR listedRight with ⟨again, _⟩ | ⟨other, areL⟩
      · exact absurd (isL.trans again.symm) differs
      · rw [isL, areR, other, areL]
        exact crossed
    · rcases rings right rights changesR listedRight with ⟨other, areR⟩ | ⟨again, _⟩
      · rw [isR, areL, other, areR]
        exact crossed.symm
      · exact absurd (isR.trans again.symm) differs

/-! ## Runs -/

/-- An action does what it means. -/
theorem ListAction.represents_act (represents : Represents links family) (action : ListAction)
    (allowed : action.Allowed family) :
    Represents (action.act links) (action.effect family) := by
  cases action with
  | init list =>
    have initialized := represents_listHeadInit (represents.forget list) (Loose.free allowed)
    rw [forget, Function.update_idem] at initialized
    exact initialized
  | add new head =>
    obtain ⟨loose, elems, listed⟩ := allowed
    exact represents_listAdd (represents.forget new) listed loose.free
  | addTail new head =>
    obtain ⟨loose, elems, listed⟩ := allowed
    exact represents_listAddTail (represents.forget new) listed loose.free
  | del entry =>
    obtain ⟨head, elems, listed, member⟩ := allowed
    exact represents_listDel represents listed member
  | delInit entry =>
    obtain ⟨head, elems, listed, member⟩ := allowed
    exact represents_listDelInit represents listed member
  | move list head =>
    obtain ⟨⟨owner, others, owned, member⟩, elems, listed⟩ := allowed
    exact represents_listMove represents owned member listed
  | moveTail entry head =>
    obtain ⟨⟨owner, others, owned, member⟩, elems, listed⟩ := allowed
    exact represents_listMoveTail represents owned member listed
  | splice list head =>
    obtain ⟨⟨ls, listedL⟩, ⟨elems, listedH⟩, apart⟩ := allowed
    exact represents_listSplice represents listedL listedH apart
  | spliceTail list head =>
    obtain ⟨⟨ls, listedL⟩, ⟨elems, listedH⟩, apart⟩ := allowed
    exact represents_listSpliceTail represents listedL listedH apart
  | spliceInit list head =>
    obtain ⟨⟨ls, listedL⟩, ⟨elems, listedH⟩, apart⟩ := allowed
    exact represents_listSpliceInit represents listedL listedH apart
  | spliceTailInit list head =>
    obtain ⟨⟨ls, listedL⟩, ⟨elems, listedH⟩, apart⟩ := allowed
    exact represents_listSpliceTailInit represents listedL listedH apart
  | swap l r =>
    obtain ⟨elementL, elementR⟩ := allowed
    exact represents_listSwap represents elementL elementR
  | swapList lh rh =>
    obtain ⟨ls, rs, listedL, listedR, possible⟩ := allowed
    exact represents_listSwapList represents listedL listedR possible

/-- Each action of a run is allowed after the actions before it. -/
def AllowedRun (family : RingFamily Nat) : List ListAction → Prop
  | [] => True
  | action :: rest => action.Allowed family ∧ AllowedRun (action.effect family) rest

/-- A run does what it means. -/
theorem represents_run {actions : List ListAction} (represents : Represents links family)
    (allowed : AllowedRun family actions) :
    Represents (actions.foldl ListAction.act links) (actions.foldl ListAction.effect family) := by
  induction actions generalizing links family with
  | nil => exact represents
  | cons action rest ih =>
    have ⟨first, others⟩ := allowed
    exact ih (action.represents_act represents first) others

/-- What the functions that only read say about a list. -/
structure ReadsAs (links : Links Nat) (head : Nat) (elems : List Nat) : Prop where
  /-- The next nodes lead through the elements in their order, and the previous nodes back. -/
  ring : links.Ring head elems
  /-- `list_empty`. -/
  empty : listEmpty links head = true ↔ elems = []
  /-- `list_is_first`. -/
  first : ∀ entry ∈ elems, listIsFirst links entry head = true ↔ elems.head? = some entry
  /-- `list_is_last`. -/
  last : ∀ entry ∈ elems, listIsLast links entry head = true ↔ elems.getLast? = some entry

/-- A ring is read as the list of its elements. -/
theorem readsAs_of_ring {head : Nat} {elems : List Nat} (ring : links.Ring head elems) :
    ReadsAs links head elems where
  ring := ring
  empty := by
    rw [listEmpty, beq_iff_eq]
    exact ring.next_head_eq_iff
  first := by
    intro entry member
    rw [listIsFirst, beq_iff_eq]
    exact ring.prev_eq_head_iff member
  last := by
    intro entry member
    rw [listIsLast, beq_iff_eq]
    exact ring.next_eq_head_iff member

/-- After every run of the functions on any number of lists, each head has the elements that the
run means, the lists share no node, and the functions that only read say so. -/
theorem list_run_refines (links : Links Nat) (family : RingFamily Nat)
    (actions : List ListAction) (represents : Represents links family)
    (allowed : AllowedRun family actions) :
    Represents (actions.foldl ListAction.act links) (actions.foldl ListAction.effect family) ∧
      ∀ head elems, actions.foldl ListAction.effect family head = some elems →
        ReadsAs (actions.foldl ListAction.act links) head elems := by
  have after := represents_run represents allowed
  apply And.intro after
  intro head elems listed
  exact readsAs_of_ring (after.ring head elems listed)

/-- The heads of an empty list and of a list of two nodes. -/
def emptyAndPairFamily : RingFamily Nat := fun head =>
  if head = 1 then some [] else if head = 2 then some [3, 4] else none

/-- The two lists are in memory. -/
theorem emptyAndPair_represents : Represents emptyAndPair emptyAndPairFamily where
  ring := by
    intro head elems listed
    rw [emptyAndPairFamily] at listed
    split_ifs at listed with isOne isTwo
    · rw [isOne, ← Option.some.inj listed]
      exact emptyAndPair_left
    · rw [isTwo, ← Option.some.inj listed]
      exact emptyAndPair_right
  disjoint := by
    intro left ls right rs listedL listedR differs
    rw [emptyAndPairFamily] at listedL listedR
    split_ifs at listedL listedR with isOne isOne' isTwo isTwo isOne' isTwo'
    · exact absurd (isOne.trans isOne'.symm) differs
    · rw [isOne, isTwo, ← Option.some.inj listedL, ← Option.some.inj listedR]
      simp
    · rw [isTwo, isOne', ← Option.some.inj listedL, ← Option.some.inj listedR]
      simp
    · exact absurd (isTwo.trans isTwo'.symm) differs

/-- The empty head is initialized again, the two nodes are spliced to it, one of them is moved
back, and then the two change places. -/
theorem list_run_refines_pair :
    ReadsAs ([.init 1, .spliceTailInit 2 1, .move 3 2, .swap 3 4].foldl ListAction.act
      emptyAndPair) 2 [4] :=
  (list_run_refines emptyAndPair emptyAndPairFamily
    [.init 1, .spliceTailInit 2 1, .move 3 2, .swap 3 4] emptyAndPair_represents
    ⟨emptyAndPair_represents.loose rfl, ⟨⟨[3, 4], rfl⟩, ⟨[], rfl⟩, by decide⟩,
      ⟨⟨1, [3, 4], rfl, by decide⟩, [], rfl⟩,
      ⟨⟨2, [3], rfl, by decide⟩, 1, [4], rfl, by decide⟩, trivial⟩).2 2 [4] rfl

end Bpcp.Purc
