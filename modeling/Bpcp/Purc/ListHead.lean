import Bpcp.Lib.LinkedList

/-!
# Intrusive lists

A `struct list_head` is a node of a circular doubly linked list and is named by its address.
Exchanging two lists closes the nodes of each under the head of the other. One of the four
combinations of empty and nonempty lists hands the first and the last node over in the
wrong order, and a list of one node is the longest that survives it.
-/

namespace Bpcp.Purc

open Bpcp.Lib

/-- `NULL`. -/
def null : Nat := 0

/-- `list_head_init`, which is also `INIT_LIST_HEAD`. -/
def listHeadInit (links : Links Nat) (list : Nat) : Links Nat :=
  (links.setPrev list list).setNext list list

/-- `list_empty`. -/
def listEmpty (links : Links Nat) (head : Nat) : Bool := links.next head == head

/-- `_list_del`. -/
def _listDel (links : Links Nat) (entry : Nat) : Links Nat :=
  let links := links.setPrev (links.next entry) (links.prev entry)
  links.setNext (links.prev entry) (links.next entry)

/-- `list_del`. -/
def listDel (links : Links Nat) (entry : Nat) : Links Nat :=
  ((_listDel links entry).setPrev entry null).setNext entry null

/-- `_list_add`. -/
def _listAdd (links : Links Nat) (new prev next : Nat) : Links Nat :=
  let links := links.setPrev next new
  let links := links.setNext new next
  let links := links.setPrev new prev
  links.setNext prev new

/-- `list_del_init`. -/
def listDelInit (links : Links Nat) (entry : Nat) : Links Nat :=
  listHeadInit (_listDel links entry) entry

/-- `list_add_tail`. -/
def listAddTail (links : Links Nat) (new head : Nat) : Links Nat :=
  _listAdd links new (links.prev head) head

/-- `list_swap_list`, the links that it leaves. -/
def listSwapList (links : Links Nat) (lh rh : Nat) : Links Nat :=
  if lh = rh then links
  else if listEmpty links lh = false then
    let lHead := links.next lh
    let lTail := links.prev lh
    let links := listHeadInit links lh
    if listEmpty links rh = false then
      let rHead := links.next rh
      let rTail := links.prev rh
      let links := listHeadInit links rh
      let links := _listAdd links rh lTail lHead
      _listAdd links lh rTail rHead
    else _listAdd links rh lTail lHead
  else if listEmpty links rh = false then
    let rHead := links.next rh
    let rTail := links.prev rh
    let links := listDelInit links rh
    _listAdd links lh rHead rTail
  else links

variable {links : Links Nat} {head entry new : Nat} {elems : List Nat}

/-! ## Single operations -/

/-- Initializing a head joins it to itself. -/
theorem listHeadInit_eq : listHeadInit links head = links.join head head := rfl

/-- Adding a node joins it to both of its neighbours. -/
theorem _listAdd_eq {prev next : Nat} :
    _listAdd links new prev next = (links.join new next).join prev new := rfl

/-- A list is empty when its ring has no elements. -/
theorem listEmpty_eq_false (ring : links.Ring head elems) :
    listEmpty links head = false ↔ elems ≠ [] := by
  rw [listEmpty, beq_eq_false_iff_ne, Ne, ring.next_head_eq_iff]

/-- Closing a path of nodes under a head makes them the elements of the head. -/
theorem ring_listAdd {first : Nat} {rest : List Nat} (path : links.Path (first :: rest))
    (distinct : (new :: first :: rest).Nodup) :
    (_listAdd links new (rest.getLastD first) first).Ring new (first :: rest) := by
  rw [_listAdd_eq]
  exact Links.ring_join_join path distinct

/-- A node that is added at the tail becomes the last element. -/
theorem ring_listAddTail (ring : links.Ring head elems) (fresh : new ∉ head :: elems) :
    (listAddTail links new head).Ring head (elems ++ [new]) := by
  have closed : (listAddTail links new head).Ring new ([] ++ head :: elems) := by
    rw [listAddTail, ring.prev_head]
    exact ring_listAdd ring.path (List.nodup_cons.2 ⟨fresh, ring.distinct⟩)
  exact closed.rotate

/-- Deleting a node that is not alone joins the nodes around it. -/
theorem _listDel_eq (apart : links.next entry ≠ entry) :
    _listDel links entry = links.join (links.prev entry) (links.next entry) := by
  have kept : (links.setPrev (links.next entry) (links.prev entry)).prev entry =
      links.prev entry := by simp [Ne.symm apart]
  simp only [_listDel, kept, Links.join, Links.setPrev_next]

/-- An element that is deleted leaves the other elements in their order. -/
theorem ring_listDel {front back : List Nat} (ring : links.Ring head (front ++ entry :: back)) :
    (_listDel links entry).Ring head (front ++ back) := by
  have turned := ring.rotate
  have apart : links.next entry ≠ entry := by
    rw [Ne, turned.next_head_eq_iff]
    simp
  rw [_listDel_eq apart, turned.next_head, turned.prev_head]
  cases back with
  | nil =>
    have closed := Links.Ring.join_around turned
    rw [List.nil_append, List.getLastD_cons, List.headD_cons, List.append_nil]
    exact closed
  | cons first rest =>
    have closed := Links.Ring.join_around turned
    rw [List.cons_append, List.getLastD_cons, List.headD_cons]
    exact closed.rotate

/-- Adding a node between two others leaves a path that has none of them. -/
theorem path_listAdd_frame {prev next : Nat} {nodes : List Nat} (path : links.Path nodes)
    (outsideNew : new ∉ nodes) (outsidePrev : prev ∉ nodes) (outsideNext : next ∉ nodes) :
    (_listAdd links new prev next).Path nodes := by
  rw [_listAdd_eq]
  exact (path.join_frame outsideNew outsideNext).join_frame outsidePrev outsideNew

/-- Adding a node between two others leaves a ring that has none of them. -/
theorem ring_listAdd_frame {prev next : Nat} (ring : links.Ring head elems)
    (outsideNew : new ∉ head :: elems) (outsidePrev : prev ∉ head :: elems)
    (outsideNext : next ∉ head :: elems) : (_listAdd links new prev next).Ring head elems := by
  rw [_listAdd_eq]
  exact (ring.join_frame outsideNew outsideNext).join_frame outsidePrev outsideNew

/-! ## Exchanging two lists -/

section Swap

variable {lh rh : Nat} {ls rs : List Nat}

/-- The head of one list is not in the other. -/
theorem head_ne_of_disjoint (disjoint : (lh :: ls).Disjoint (rh :: rs)) : lh ≠ rh := by
  intro same
  subst same
  exact disjoint List.mem_cons_self List.mem_cons_self

/-- Initializing one of two heads leaves the list of the other. -/
theorem ring_listHeadInit_frame (ringR : links.Ring rh rs)
    (disjoint : (lh :: ls).Disjoint (rh :: rs)) : (listHeadInit links lh).Ring rh rs := by
  rw [listHeadInit_eq]
  exact ringR.join_frame (disjoint (by simp)) (disjoint (by simp))

/-- Two nonempty lists are exchanged. -/
theorem listSwapList_cons_cons {l r : Nat} (ringL : links.Ring lh (l :: ls))
    (ringR : links.Ring rh (r :: rs)) (disjoint : (lh :: l :: ls).Disjoint (rh :: r :: rs)) :
    (listSwapList links lh rh).Ring lh (r :: rs) ∧
      (listSwapList links lh rh).Ring rh (l :: ls) := by
  have distinctL := List.nodup_cons.1 ringL.distinct
  have distinctR := List.nodup_cons.1 ringR.distinct
  have outL : ∀ x ∈ rh :: r :: rs, x ∉ l :: ls :=
    fun x right left => disjoint (List.mem_cons_of_mem lh left) right
  have outR : ∀ x ∈ lh :: l :: ls, x ∉ r :: rs :=
    fun x left right => disjoint left (List.mem_cons_of_mem rh right)
  have ringR' := ring_listHeadInit_frame ringR disjoint
  have swapped : listSwapList links lh rh =
      _listAdd (_listAdd (listHeadInit (listHeadInit links lh) rh) rh (ls.getLastD l) l) lh
        (rs.getLastD r) r := by
    rw [listSwapList, if_neg (head_ne_of_disjoint disjoint),
      if_pos ((listEmpty_eq_false ringL).2 (by simp))]
    simp only [(listEmpty_eq_false ringR').2 (List.cons_ne_nil _ _), if_true, ringL.next_head,
      ringL.prev_head, ringR'.next_head, ringR'.prev_head, List.headD_cons, List.getLastD_cons]
  have lastL : ls.getLastD l ∈ l :: ls := List.getLastD_mem_cons
  have lastR : rs.getLastD r ∈ r :: rs := List.getLastD_mem_cons
  have headR := outL rh List.mem_cons_self
  have headL := outR lh List.mem_cons_self
  -- Once both heads are alone, each path of nodes waits for the head of the other list.
  have inner : (listHeadInit (listHeadInit links lh) rh).Path (l :: ls) :=
    Links.Path.join_frame (Links.Path.join_frame (List.isChain_cons_cons.1 ringL.path).2
      distinctL.1 distinctL.1) headR headR
  have outer : (listHeadInit (listHeadInit links lh) rh).Path (r :: rs) :=
    Links.Path.join_frame (List.isChain_cons_cons.1 ringR'.path).2 distinctR.1 distinctR.1
  have underR := ring_listAdd inner (List.nodup_cons.2 ⟨headR, distinctL.2⟩)
  have kept := path_listAdd_frame outer distinctR.1 (outR _ (List.mem_cons_of_mem lh lastL))
    (outR l (by simp))
  have underL := ring_listAdd kept (List.nodup_cons.2 ⟨headL, distinctR.2⟩)
  have outside : ∀ x ∈ lh :: r :: rs, x ∉ rh :: l :: ls := by
    intro x inside
    rcases List.mem_cons.1 inside with rfl | inside
    · exact List.not_mem_cons_of_ne_of_not_mem (head_ne_of_disjoint disjoint) distinctL.1
    · have apart : x ≠ rh := fun same => distinctR.1 (same ▸ inside)
      exact List.not_mem_cons_of_ne_of_not_mem apart (outL x (List.mem_cons_of_mem rh inside))
  rw [swapped]
  exact ⟨underL, ring_listAdd_frame underR (outside lh (by simp))
    (outside _ (List.mem_cons_of_mem lh lastR)) (outside r (by simp))⟩

/-- A nonempty list moves to the head of an empty one. -/
theorem listSwapList_cons_nil {l : Nat} (ringL : links.Ring lh (l :: ls))
    (ringR : links.Ring rh []) (disjoint : (lh :: l :: ls).Disjoint [rh]) :
    (listSwapList links lh rh).Ring lh [] ∧ (listSwapList links lh rh).Ring rh (l :: ls) := by
  have distinctL := List.nodup_cons.1 ringL.distinct
  have apart := head_ne_of_disjoint disjoint
  have outL : rh ∉ l :: ls := fun inside => disjoint (List.mem_cons_of_mem lh inside) (by simp)
  have ringR' := ring_listHeadInit_frame ringR disjoint
  have idle : listEmpty (listHeadInit links lh) rh ≠ false := fun busy =>
    (listEmpty_eq_false ringR').1 busy rfl
  have swapped : listSwapList links lh rh =
      _listAdd (listHeadInit links lh) rh (ls.getLastD l) l := by
    rw [listSwapList, if_neg apart, if_pos ((listEmpty_eq_false ringL).2 (by simp))]
    simp only [if_neg idle, ringL.next_head, ringL.prev_head, List.headD_cons,
      List.getLastD_cons]
  have inner : (listHeadInit links lh).Path (l :: ls) :=
    Links.Path.join_frame (List.isChain_cons_cons.1 ringL.path).2 distinctL.1 distinctL.1
  have outside : ∀ x ∈ l :: ls, x ∉ [lh] := by
    intro x inside same
    rw [List.mem_singleton.1 same] at inside
    exact distinctL.1 inside
  rw [swapped]
  refine ⟨ring_listAdd_frame (Links.ring_join_self lh) ?_ ?_ ?_,
    ring_listAdd inner (List.nodup_cons.2 ⟨outL, distinctL.2⟩)⟩
  · simpa using apart.symm
  · exact outside _ List.getLastD_mem_cons
  · exact outside l (by simp)

/-- What is left when the first list is empty and the second is not. -/
theorem listSwapList_nil_cons {r : Nat} (ringL : links.Ring lh [])
    (ringR : links.Ring rh (r :: rs)) (disjoint : [lh].Disjoint (rh :: r :: rs)) :
    listSwapList links lh rh = _listAdd (listDelInit links rh) lh r (rs.getLastD r) := by
  have idle : listEmpty links lh ≠ false := fun busy => (listEmpty_eq_false ringL).1 busy rfl
  rw [listSwapList, if_neg (head_ne_of_disjoint disjoint), if_neg idle,
    if_pos ((listEmpty_eq_false ringR).2 (by simp))]
  simp only [ringR.next_head, ringR.prev_head, List.headD_cons, List.getLastD_cons]

/-- Only one of several nodes is reached when the first list is empty. -/
theorem listSwapList_nil_cons_cons {r second : Nat} (ringL : links.Ring lh [])
    (ringR : links.Ring rh (r :: second :: rs))
    (disjoint : [lh].Disjoint (rh :: r :: second :: rs)) :
    ¬(listSwapList links lh rh).Ring lh (r :: second :: rs) := by
  intro ring
  have outside : lh ≠ r := fun same => disjoint (List.mem_singleton.2 same.symm) (by simp)
  have first := ring.next_head
  rw [listSwapList_nil_cons ringL ringR disjoint, _listAdd_eq, List.headD_cons] at first
  simp only [Links.join_next, if_neg outside, if_true] at first
  -- The head is followed by the last node instead of the first.
  have last : (second :: rs).getLastD r ∈ second :: rs := by
    rw [List.getLastD_cons]
    exact List.getLastD_mem_cons
  rw [first] at last
  exact (List.nodup_cons.1 (List.nodup_cons.1 ringR.distinct).2).1 last

/-- A single node moves to the head of an empty first list. -/
theorem listSwapList_nil_singleton {r : Nat} (ringL : links.Ring lh [])
    (ringR : links.Ring rh [r]) (disjoint : [lh].Disjoint [rh, r]) :
    (listSwapList links lh rh).Ring lh [r] ∧ (listSwapList links lh rh).Ring rh [] := by
  have apart := head_ne_of_disjoint disjoint
  have outside : lh ≠ r := fun same => disjoint (List.mem_singleton.2 same.symm) (by simp)
  have fresh : rh ≠ r := fun same => (List.nodup_cons.1 ringR.distinct).1 (by simp [same])
  rw [listSwapList_nil_cons ringL ringR disjoint]
  refine ⟨ring_listAdd (List.isChain_singleton r) (by simpa using outside),
    ring_listAdd_frame (Links.ring_join_self rh) ?_ ?_ ?_⟩
  · simpa using apart
  · simpa using fresh.symm
  · simpa using fresh.symm

/-- The two heads have each other's former elements: from each head the next nodes are the
elements in their order, and every previous node is the one before. -/
structure Exchanged (after : Links Nat) (lh rh : Nat) (ls rs : List Nat) : Prop where
  /-- The first head has the elements of the second. -/
  left : after.Ring lh rs
  /-- The second head has the elements of the first. -/
  right : after.Ring rh ls

/-- Two disjoint lists are exchanged when the first is not empty or the second has at most one
node. -/
theorem listSwapList_exchanged (ringL : links.Ring lh ls) (ringR : links.Ring rh rs)
    (disjoint : (lh :: ls).Disjoint (rh :: rs)) (possible : ls ≠ [] ∨ rs.length ≤ 1) :
    Exchanged (listSwapList links lh rh) lh rh ls rs := by
  cases ls with
  | cons l ls =>
    cases rs with
    | cons r rs =>
      have both := listSwapList_cons_cons ringL ringR disjoint
      exact ⟨both.1, both.2⟩
    | nil =>
      have both := listSwapList_cons_nil ringL ringR disjoint
      exact ⟨both.1, both.2⟩
  | nil =>
    cases rs with
    | nil =>
      have idleL : listEmpty links lh ≠ false := fun busy => (listEmpty_eq_false ringL).1 busy rfl
      have idleR : listEmpty links rh ≠ false := fun busy => (listEmpty_eq_false ringR).1 busy rfl
      have kept : listSwapList links lh rh = links := by
        rw [listSwapList, if_neg (head_ne_of_disjoint disjoint), if_neg idleL, if_neg idleR]
      rw [kept]
      exact ⟨ringL, ringR⟩
    | cons r rs =>
      have single := possible.resolve_left (not_not.2 rfl)
      have last : rs = [] := List.length_eq_zero_iff.1 (by simpa using single)
      subst last
      have both := listSwapList_nil_singleton ringL ringR disjoint
      exact ⟨both.1, both.2⟩

/-- Two disjoint lists are exchanged exactly when the first is not empty or the second has at
most one node. -/
theorem listSwapList_exchanges_iff (ringL : links.Ring lh ls) (ringR : links.Ring rh rs)
    (disjoint : (lh :: ls).Disjoint (rh :: rs)) :
    Exchanged (listSwapList links lh rh) lh rh ls rs ↔ ls ≠ [] ∨ rs.length ≤ 1 := by
  refine ⟨fun exchanged => ?_, listSwapList_exchanged ringL ringR disjoint⟩
  by_contra impossible
  obtain ⟨empty, several⟩ := not_or.1 impossible
  rw [not_not] at empty
  subst empty
  match rs with
  | [] => simp at several
  | [_] => simp at several
  | _ :: _ :: _ => exact listSwapList_nil_cons_cons ringL ringR disjoint exchanged.left

end Swap

/-- An empty list at one address and a list of two nodes at another. -/
def emptyAndPair : Links Nat where
  next := fun node => if node = 2 then 3 else if node = 3 then 4 else if node = 4 then 2 else node
  prev := fun node => if node = 2 then 4 else if node = 3 then 2 else if node = 4 then 3 else node

/-- The empty list has no elements. -/
theorem emptyAndPair_left : emptyAndPair.Ring 1 [] := Links.ring_nil.2 ⟨rfl, rfl⟩

/-- The other list has its two nodes. -/
theorem emptyAndPair_right : emptyAndPair.Ring 2 [3, 4] where
  path := .cons_cons ⟨rfl, rfl⟩ (.cons_cons ⟨rfl, rfl⟩ (.singleton 4))
  closed := ⟨rfl, rfl⟩
  distinct := by decide

/-- An empty list and a list of two nodes are not exchanged. -/
theorem listSwapList_emptyAndPair :
    emptyAndPair.Ring 1 [] ∧ emptyAndPair.Ring 2 [3, 4] ∧ [1].Disjoint [2, 3, 4] ∧
      ¬Exchanged (listSwapList emptyAndPair 1 2) 1 2 [] [3, 4] := by
  have disjoint : [1].Disjoint [2, 3, 4] := by simp
  exact ⟨emptyAndPair_left, emptyAndPair_right, disjoint, fun exchanged =>
    listSwapList_nil_cons_cons emptyAndPair_left emptyAndPair_right disjoint exchanged.left⟩

/-- With the arguments the other way round the same two lists are exchanged. -/
theorem listSwapList_exchanges_pair :
    Exchanged (listSwapList emptyAndPair 2 1) 2 1 [3, 4] [] :=
  (listSwapList_exchanges_iff emptyAndPair_right emptyAndPair_left (by simp)).2 (.inl (by simp))

end Bpcp.Purc
