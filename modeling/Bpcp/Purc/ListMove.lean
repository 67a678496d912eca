import Bpcp.Lib.RingFamily
import Bpcp.Purc.ListSwap

/-!
# Moving and splicing

An entry is moved by taking it out of its list and adding it to another one, or to another
place of the same list. A list is spliced into another one by linking its first and its last
node to two nodes that were next to each other. Its head is not written and still points at the
nodes, so it is no longer the head of a list unless it is initialized. Each function is
described by the family of lists that memory represents before and afterwards.
-/

namespace Bpcp.Purc

open Bpcp.Lib Bpcp.Lib.RingFamily

/-- `list_add`. -/
def listAdd (links : Links Nat) (new head : Nat) : Links Nat :=
  _listAdd links new head (links.next head)

/-- `list_is_first`. -/
def listIsFirst (links : Links Nat) (list head : Nat) : Bool := links.prev list == head

/-- `list_is_last`. -/
def listIsLast (links : Links Nat) (list head : Nat) : Bool := links.next list == head

/-- `list_move`. -/
def listMove (links : Links Nat) (list head : Nat) : Links Nat :=
  listAdd (_listDel links list) list head

/-- `list_move_tail`. -/
def listMoveTail (links : Links Nat) (entry head : Nat) : Links Nat :=
  listAddTail (_listDel links entry) entry head

/-- `_list_splice`. -/
def _listSplice (links : Links Nat) (list prev next : Nat) : Links Nat :=
  if listEmpty links list then links
  else
    let first := links.next list
    let last := links.prev list
    let links := links.setPrev first prev
    let links := links.setNext prev first
    let links := links.setNext last next
    links.setPrev next last

/-- `list_splice`. -/
def listSplice (links : Links Nat) (list head : Nat) : Links Nat :=
  _listSplice links list head (links.next head)

/-- `list_splice_tail`. -/
def listSpliceTail (links : Links Nat) (list head : Nat) : Links Nat :=
  _listSplice links list (links.prev head) head

/-- `list_splice_init`. -/
def listSpliceInit (links : Links Nat) (list head : Nat) : Links Nat :=
  listHeadInit (_listSplice links list head (links.next head)) list

/-- `list_splice_tail_init`. -/
def listSpliceTailInit (links : Links Nat) (list head : Nat) : Links Nat :=
  listHeadInit (_listSplice links list (links.prev head) head) list

variable {links : Links Nat} {family : RingFamily Nat} {head new entry list : Nat}
  {elems : List Nat}

/-! ## Adding -/

/-- A node that is added at the front becomes the first element. -/
theorem ring_listAddFront (ring : links.Ring head elems) (fresh : new ∉ head :: elems) :
    (listAdd links new head).Ring head (new :: elems) := by
  cases elems with
  | nil =>
    have closed : (listAdd links new head).Ring new ([] ++ head :: []) := by
      rw [listAdd, ring.next_head]
      have alone : links.Path (head :: []) := ring.path
      exact ring_listAdd alone (List.nodup_cons.2 ⟨fresh, ring.distinct⟩)
    exact closed.rotate
  | cons first rest =>
    have own : links.Ring head ([] ++ first :: rest) := ring
    have turned : links.Ring first (rest ++ head :: []) := own.rotate
    have apart : (new :: first :: (rest ++ [head])).Nodup := by
      apply List.nodup_cons.2
      exact ⟨by grind, turned.distinct⟩
    have closed : (listAdd links new head).Ring new ((first :: rest) ++ head :: []) := by
      have joined := ring_listAdd turned.path apart
      rw [List.getLastD_concat] at joined
      rw [listAdd, ring.next_head]
      exact joined
    exact closed.rotate

/-- A node between two nodes of a list is added to the list of the head. -/
theorem represents_add {prev next : Nat} {others : List Nat}
    (represents : Represents links family) (listed : family head = some elems)
    (free : ¬Occupied family new) (before : prev ∈ head :: elems) (after : next ∈ head :: elems)
    (ring : (_listAdd links new prev next).Ring head others)
    (nodes : ∀ node ∈ others, node = new ∨ node ∈ elems) :
    Represents (_listAdd links new prev next) (Function.update family head (some others)) := by
  have own : ∀ node ∈ head :: elems, Available family (· = head) node := by
    intro node inside
    exact represents.available rfl listed inside
  have added : Available family (· = head) new := available_of_free free
  apply represents.change_one [new, prev, next]
  · intro node outside
    simp only [List.mem_cons, List.not_mem_nil, or_false, not_or] at outside
    have ⟨notNew, notPrev, notNext⟩ := outside
    rw [_listAdd_next, _listAdd_prev, if_neg notPrev, if_neg notNew, if_neg notNew, if_neg notNext]
    exact ⟨rfl, rfl⟩
  · intro node written
    simp only [List.mem_cons, List.not_mem_nil, or_false] at written
    rcases written with same | same | same
    · rw [same]
      exact added
    · rw [same]
      exact own prev before
    · rw [same]
      exact own next after
  · exact ring
  · intro node inside
    rcases List.mem_cons.1 inside with same | member
    · rw [same]
      exact own head List.mem_cons_self
    · rcases nodes node member with same | old
      · rw [same]
        exact added
      · exact own node (List.mem_cons_of_mem head old)

/-- A free node is added in front of the elements. -/
theorem represents_listAdd (represents : Represents links family)
    (listed : family head = some elems) (free : ¬Occupied family new) :
    Represents (listAdd links new head) (modify family head (new :: ·)) := by
  have ring := represents.ring head elems listed
  rw [modify_eq listed]
  apply represents_add represents listed free List.mem_cons_self (ring.next_mem List.mem_cons_self)
  · exact ring_listAddFront ring (free_notMem free listed)
  · intro node inside
    exact List.mem_cons.1 inside

/-- A free node is added behind the elements. -/
theorem represents_listAddTail (represents : Represents links family)
    (listed : family head = some elems) (free : ¬Occupied family new) :
    Represents (listAddTail links new head) (modify family head (· ++ [new])) := by
  have ring := represents.ring head elems listed
  rw [modify_eq listed]
  apply represents_add represents listed free (ring.prev_mem List.mem_cons_self) List.mem_cons_self
  · exact ring_listAddTail ring (free_notMem free listed)
  · intro node inside
    rcases List.mem_append.1 inside with old | added
    · exact Or.inr old
    · exact Or.inl (List.mem_singleton.1 added)

/-! ## Initializing -/

/-- Initializing writes one node. -/
theorem listHeadInit_frame {node : Nat} (outside : node ∉ [head]) :
    (listHeadInit links head).next node = links.next node ∧
      (listHeadInit links head).prev node = links.prev node := by
  have apart : node ≠ head := fun same => outside (List.mem_singleton.2 same)
  simp [listHeadInit, apart]

/-- A free node becomes the head of an empty list. -/
theorem represents_listHeadInit (represents : Represents links family)
    (free : ¬Occupied family head) :
    Represents (listHeadInit links head) (Function.update family head (some [])) := by
  have added : Available family (· = head) head := available_of_free free
  have only : ∀ node ∈ [head], Available family (· = head) node := by
    intro node same
    rw [List.mem_singleton.1 same]
    exact added
  apply represents.change_one [head]
  · intro node outside
    exact listHeadInit_frame outside
  · exact only
  · exact Links.ring_join_self head
  · exact only

/-! ## Deleting -/

/-- Deleting an element takes it out of the list that has it. -/
theorem represents_unlink (represents : Represents links family)
    (listed : family head = some elems) (member : entry ∈ elems) :
    Represents (_listDel links entry) (without family entry) := by
  have ring := represents.ring head elems listed
  have apart := (Entry.of_ring ring member).nextNe
  have inside : entry ∈ head :: elems := List.mem_cons_of_mem head member
  have own : ∀ node ∈ head :: elems, Available family (· = head) node := by
    intro node inside
    exact represents.available rfl listed inside
  rw [represents.without_eq listed member]
  apply represents.change_one [links.prev entry, links.next entry]
  · intro node outside
    simp only [List.mem_cons, List.not_mem_nil, or_false, not_or] at outside
    rw [_listDel_eq apart, Links.join_next, Links.join_prev, if_neg outside.1, if_neg outside.2]
    exact ⟨rfl, rfl⟩
  · intro node written
    simp only [List.mem_cons, List.not_mem_nil, or_false] at written
    rcases written with same | same
    · rw [same]
      exact own _ (ring.prev_mem inside)
    · rw [same]
      exact own _ (ring.next_mem inside)
  · have ⟨front, back, _, split, erased⟩ := List.exists_erase_eq member
    rw [erased]
    exact ring_listDel (split ▸ ring)
  · intro node kept
    apply own node
    exact (List.cons_subset_cons head List.erase_subset) kept

/-- The fields of a deleted entry are written. -/
theorem represents_listDel (represents : Represents links family)
    (listed : family head = some elems) (member : entry ∈ elems) :
    Represents (listDel links entry) (without family entry) := by
  apply (represents_unlink represents listed member).frame [entry]
  · intro node outside
    have apart : node ≠ entry := fun same => outside (List.mem_singleton.2 same)
    simp [listDel, apart]
  · intro node same
    rw [List.mem_singleton.1 same]
    exact represents.without_free listed member

/-- A deleted entry that is initialized is the head of an empty list. -/
theorem represents_listDelInit (represents : Represents links family)
    (listed : family head = some elems) (member : entry ∈ elems) :
    Represents (listDelInit links entry)
      (Function.update (without family entry) entry (some [])) :=
  represents_listHeadInit (represents_unlink represents listed member)
    (represents.without_free listed member)

/-! ## Moving -/

/-- A head stays a head when an entry is taken out. -/
theorem without_listed (listed : family head = some elems) (entry : Nat) :
    without family entry head = some (elems.erase entry) := by
  rw [without, listed, Option.map_some]

/-- An element is moved in front of the elements of any list. -/
theorem represents_listMove {owner : Nat} {others : List Nat}
    (represents : Represents links family) (owned : family owner = some others)
    (member : entry ∈ others) (listed : family head = some elems) :
    Represents (listMove links entry head) (modify (without family entry) head (entry :: ·)) :=
  represents_listAdd (represents_unlink represents owned member) (without_listed listed entry)
    (represents.without_free owned member)

/-- An element is moved behind the elements of any list. -/
theorem represents_listMoveTail {owner : Nat} {others : List Nat}
    (represents : Represents links family) (owned : family owner = some others)
    (member : entry ∈ others) (listed : family head = some elems) :
    Represents (listMoveTail links entry head)
      (modify (without family entry) head (· ++ [entry])) :=
  represents_listAddTail (represents_unlink represents owned member)
    (without_listed listed entry) (represents.without_free owned member)

/-! ## Splicing -/

/-- Splicing an empty list changes nothing. -/
theorem _listSplice_nil {prev next : Nat} (ring : links.Ring list []) :
    _listSplice links list prev next = links := by
  have empty : listEmpty links list = true := by
    rw [listEmpty, beq_iff_eq]
    exact ring.next_head_eq_iff.2 rfl
  rw [_listSplice, if_pos empty]

/-- Splicing joins the first and the last element of a list to two nodes. -/
theorem _listSplice_cons {prev next first : Nat} {rest : List Nat}
    (ring : links.Ring list (first :: rest)) :
    _listSplice links list prev next =
      (links.join prev first).join (rest.getLastD first) next := by
  have busy := (listEmpty_eq_false ring).2 (List.cons_ne_nil _ _)
  rw [_listSplice, if_neg (by rw [busy]; exact Bool.false_ne_true), ring.next_head, ring.prev_head,
    List.headD_cons, List.getLastD_cons]
  rfl

/-- The elements of a list come behind those of the head. -/
theorem ring_listSpliceTail {first : Nat} {rest : List Nat}
    (ring : links.Ring list (first :: rest)) (target : links.Ring head elems)
    (disjoint : (list :: first :: rest).Disjoint (head :: elems)) :
    (listSpliceTail links list head).Ring head (elems ++ first :: rest) := by
  have distinct : (head :: elems ++ first :: rest).Nodup := by
    apply List.nodup_append.2
    have apart : ∀ x ∈ head :: elems, ∀ y ∈ first :: rest, x ≠ y := by
      intro x here y there same
      exact disjoint (List.mem_cons_of_mem list there) (same ▸ here)
    exact ⟨target.distinct, (List.nodup_cons.1 ring.distinct).2, apart⟩
  rw [listSpliceTail, _listSplice_cons ring, target.prev_head]
  exact target.append_path (List.isChain_cons_cons.1 ring.path).2 distinct

/-- The elements of a list come in front of those of the head. -/
theorem ring_listSplice {first : Nat} {rest : List Nat}
    (ring : links.Ring list (first :: rest)) (target : links.Ring head elems)
    (disjoint : (list :: first :: rest).Disjoint (head :: elems)) :
    (listSplice links list head).Ring head (first :: rest ++ elems) := by
  cases elems with
  | nil =>
    have spliced := ring_listSpliceTail ring target disjoint
    rw [listSpliceTail, target.prev_head] at spliced
    rw [listSplice, target.next_head, List.append_nil]
    exact spliced
  | cons second others =>
    -- Read from its first element, the ring ends at the head.
    have own : links.Ring head ([] ++ second :: others) := target
    have turned : links.Ring second (others ++ [head]) := own.rotate
    have apart : (list :: first :: rest).Disjoint (second :: (others ++ [head])) := by
      intro node here there
      exact disjoint here (by grind)
    have spliced := ring_listSpliceTail ring turned apart
    rw [listSpliceTail, turned.prev_head, List.getLastD_concat, List.append_assoc,
      List.singleton_append] at spliced
    rw [listSplice, target.next_head, List.headD_cons]
    exact spliced.rotate

/-- Splicing writes at four nodes at most. -/
theorem _listSplice_frame {prev next node : Nat}
    (outside : node ∉ [links.next list, links.prev list, prev, next]) :
    (_listSplice links list prev next).next node = links.next node ∧
      (_listSplice links list prev next).prev node = links.prev node := by
  simp only [List.mem_cons, List.not_mem_nil, or_false, not_or] at outside
  have ⟨notFirst, notLast, notPrev, notNext⟩ := outside
  rw [_listSplice]
  split
  · exact ⟨rfl, rfl⟩
  · simp [notFirst, notLast, notPrev, notNext]

/-- A list that is spliced between two nodes of the list of another head is forgotten. -/
theorem represents_splice {prev next : Nat} {ls others : List Nat}
    (represents : Represents links family) (listedL : family list = some ls)
    (listedH : family head = some elems) (before : prev ∈ head :: elems)
    (after : next ∈ head :: elems)
    (ring : (_listSplice links list prev next).Ring head others)
    (nodes : ∀ node ∈ others, node ∈ ls ∨ node ∈ elems) :
    Represents (_listSplice links list prev next)
      (Function.update (Function.update family head (some others)) list none) := by
  have ringL := represents.ring list ls listedL
  have availableL : ∀ node ∈ list :: ls,
      Available family (fun changed => changed = list ∨ changed = head) node := by
    intro node inside
    exact represents.available (Or.inl rfl) listedL inside
  have availableH : ∀ node ∈ head :: elems,
      Available family (fun changed => changed = list ∨ changed = head) node := by
    intro node inside
    exact represents.available (Or.inr rfl) listedH inside
  apply represents.change (fun changed => changed = list ∨ changed = head)
    [links.next list, links.prev list, prev, next]
  · intro other stays
    have ⟨notList, notHead⟩ := not_or.1 stays
    rw [Function.update_of_ne notList, Function.update_of_ne notHead]
  · intro node outside
    exact _listSplice_frame outside
  · intro node written
    simp only [List.mem_cons, List.not_mem_nil, or_false] at written
    rcases written with same | same | same | same
    · exact availableL node (same ▸ ringL.next_mem List.mem_cons_self)
    · exact availableL node (same ▸ ringL.prev_mem List.mem_cons_self)
    · exact availableH node (same ▸ before)
    · exact availableH node (same ▸ after)
  · intro changed kept changes listed
    by_cases forgotten : changed = list
    · rw [forgotten, Function.update_self] at listed
      exact absurd listed.symm (Option.some_ne_none kept)
    · have same : changed = head := changes.resolve_left forgotten
      rw [Function.update_of_ne forgotten, same, Function.update_self] at listed
      rw [same, ← Option.some.inj listed]
      apply And.intro ring
      intro node inside
      rcases List.mem_cons.1 inside with isHead | member
      · exact availableH node (isHead ▸ List.mem_cons_self)
      · rcases nodes node member with fromList | own
        · exact availableL node (List.mem_cons_of_mem list fromList)
        · exact availableH node (List.mem_cons_of_mem head own)
  · intro left ls right rs changesL changesR listedL' listedR' differs
    have notForgotten : ∀ {other : Nat} {kept : List Nat},
        Function.update (Function.update family head (some others)) list none other = some kept →
          other ≠ list := by
      intro other kept listed same
      rw [same, Function.update_self] at listed
      exact Option.some_ne_none kept listed.symm
    have sameL := changesL.resolve_left (notForgotten listedL')
    have sameR := changesR.resolve_left (notForgotten listedR')
    exact absurd (sameL.trans sameR.symm) differs

/-- The elements of a list are handed to another head. -/
def handOver (family : RingFamily Nat) (list head : Nat) (join : List Nat → List Nat → List Nat)
    (left : Option (List Nat)) : RingFamily Nat :=
  Function.update (modify family head (join ((family list).getD []))) list left

section Splice

variable {ls : List Nat} (represents : Represents links family)
  (listedL : family list = some ls) (listedH : family head = some elems) (apart : list ≠ head)

include represents listedL listedH apart

/-- The elements of a spliced list come in front. -/
theorem represents_listSplice :
    Represents (listSplice links list head) (handOver family list head (· ++ ·) none) := by
  have ringL := represents.ring list ls listedL
  have ringH := represents.ring head elems listedH
  have disjoint := represents.disjoint list ls head elems listedL listedH apart
  have ring : (listSplice links list head).Ring head (ls ++ elems) := by
    cases ls with
    | nil =>
      rw [listSplice, _listSplice_nil ringL]
      exact ringH
    | cons first rest => exact ring_listSplice ringL ringH disjoint
  rw [handOver, listedL, Option.getD_some, modify_eq listedH]
  apply represents_splice represents listedL listedH List.mem_cons_self
    (ringH.next_mem List.mem_cons_self) ring
  intro node inside
  exact List.mem_append.1 inside

/-- The elements of a spliced list come behind. -/
theorem represents_listSpliceTail :
    Represents (listSpliceTail links list head)
      (handOver family list head (fun moved own => own ++ moved) none) := by
  have ringL := represents.ring list ls listedL
  have ringH := represents.ring head elems listedH
  have disjoint := represents.disjoint list ls head elems listedL listedH apart
  have ring : (listSpliceTail links list head).Ring head (elems ++ ls) := by
    cases ls with
    | nil =>
      rw [listSpliceTail, _listSplice_nil ringL, List.append_nil]
      exact ringH
    | cons first rest => exact ring_listSpliceTail ringL ringH disjoint
  rw [handOver, listedL, Option.getD_some, modify_eq listedH]
  apply represents_splice represents listedL listedH (ringH.prev_mem List.mem_cons_self)
    List.mem_cons_self ring
  intro node inside
  exact (List.mem_append.1 inside).symm

/-- The head of a list that was handed over is not occupied. -/
theorem handOver_free {join : List Nat → List Nat → List Nat}
    (joined : ∀ node ∈ join ls elems, node ∈ ls ∨ node ∈ elems) :
    ¬Occupied (handOver family list head join none) list := by
  have disjoint := represents.disjoint list ls head elems listedL listedH apart
  have own := (List.nodup_cons.1 (represents.ring list ls listedL).distinct).1
  intro ⟨other, others, listed, inside⟩
  have notList : other ≠ list := by
    intro same
    rw [handOver, same, Function.update_self] at listed
    exact Option.some_ne_none others listed.symm
  rw [handOver, Function.update_of_ne notList, listedL, Option.getD_some,
    modify_eq listedH] at listed
  by_cases isHead : other = head
  · rw [isHead, Function.update_self] at listed
    rw [isHead, ← Option.some.inj listed] at inside
    rcases List.mem_cons.1 inside with same | member
    · exact apart same
    · rcases joined list member with fromList | fromHead
      · exact own fromList
      · exact disjoint List.mem_cons_self (List.mem_cons_of_mem head fromHead)
  · rw [Function.update_of_ne isHead] at listed
    exact notList (represents.owner_unique listed listedL inside List.mem_cons_self)

omit represents apart listedL listedH in
/-- The head of a list that was handed over is written again. -/
theorem handOver_update (join : List Nat → List Nat → List Nat) (left : Option (List Nat)) :
    Function.update (handOver family list head join none) list left =
      handOver family list head join left := by
  rw [handOver, handOver, Function.update_idem]

/-- A spliced list is empty once its head is initialized. -/
theorem represents_listSpliceInit :
    Represents (listSpliceInit links list head)
      (handOver family list head (· ++ ·) (some [])) := by
  have joined : ∀ node ∈ ls ++ elems, node ∈ ls ∨ node ∈ elems :=
    fun node inside => List.mem_append.1 inside
  have free := handOver_free represents listedL listedH apart joined
  have spliced := represents_listSplice represents listedL listedH apart
  have initialized := represents_listHeadInit spliced free
  rw [handOver_update] at initialized
  exact initialized

/-- A list that was spliced behind is empty once its head is initialized. -/
theorem represents_listSpliceTailInit :
    Represents (listSpliceTailInit links list head)
      (handOver family list head (fun moved own => own ++ moved) (some [])) := by
  have joined : ∀ node ∈ elems ++ ls, node ∈ ls ∨ node ∈ elems :=
    fun node inside => (List.mem_append.1 inside).symm
  have free : ¬Occupied (handOver family list head (fun moved own => own ++ moved) none) list :=
    handOver_free represents listedL listedH apart joined
  have spliced := represents_listSpliceTail represents listedL listedH apart
  have initialized := represents_listHeadInit spliced free
  rw [handOver_update] at initialized
  exact initialized

end Splice

end Bpcp.Purc
