import Bpcp.Purc.ListLoops

/-!
# Loops over AVL trees

The nodes of an AVL tree are also linked in a list in the order of their keys, and the loops over
a tree are loops over that list. They do not stop at the head of the list: they stop when the
node before the current one is the last one they are to visit. Where the last element of the tree
is meant, it is looked up again each time, so the loops also stop when it was removed. The loop
that removes all elements counts them instead, and takes the head out of the list before it
starts.
-/

namespace Bpcp.Purc

open Bpcp.Lib

/-- The other way around a list. -/
def Direction.opposite : Direction → Direction
  | .forward => .backward
  | .backward => .forward

/-- The condition under which a loop over a range of elements stops. -/
def avlStops (direction : Direction) (last : ListMemory → Option Nat) (memory : ListMemory)
    (element : Nat) : Option Bool := do
  let before ← follow direction.opposite memory element
  let last ← last memory
  some (before == last)

/-- `avl_for_element_range` and `avl_for_element_range_reverse`, from the element that is visited
first to the one that is visited last, where an element is given by its node. -/
def avlForElementRange (direction : Direction) (first last : ListMemory → Option Nat)
    (body : ListMemory → Nat → ListMemory) (rounds : ℕ) (memory : ListMemory) :
    Option (List Nat × ListMemory) := do
  let element ← first memory
  forEachFrom (avlStops direction last) (follow direction) body rounds memory element

/-- `avl_for_element_range_safe` and `avl_for_element_range_reverse_safe`. -/
def avlForElementRangeSafe (direction : Direction) (first last : ListMemory → Option Nat)
    (body : ListMemory → Nat → ListMemory) (rounds : ℕ) (memory : ListMemory) :
    Option (List Nat × ListMemory) := do
  let element ← first memory
  let start ← first memory
  let ptr ← follow direction memory start
  forEachSafeFrom (avlStops direction last) (follow direction) body rounds memory element ptr

/-- `avl_first_element`, or `avl_last_element` on the way back. -/
def avlFirstElement (direction : Direction) (listHead : Nat) (memory : ListMemory) : Option Nat :=
  follow direction memory listHead

/-- `avl_for_each_element_safe` and `avl_for_each_element_reverse_safe`. -/
def avlForEachElementSafe (direction : Direction) (listHead : Nat)
    (body : ListMemory → Nat → ListMemory) (rounds : ℕ) (memory : ListMemory) :
    Option (List Nat × ListMemory) :=
  avlForElementRangeSafe direction (avlFirstElement direction listHead)
    (avlFirstElement direction.opposite listHead) body rounds memory

variable {direction : Direction} {head : Nat} {rest elems : List Nat} {memory : ListMemory}

/-! ## Ranges -/

/-- On the way back, the previous field leads on. -/
theorem follow_opposite {p : Nat} (alive : p ∉ memory.freed) :
    follow direction.opposite memory p = some ((direction.view memory.links).prev p) := by
  rw [follow_alive alive]
  cases direction <;> rfl

/-- In a ring that starts with nodes, the next one comes after the last of them. -/
theorem ring_prev {links : Links Nat} {front back : List Nat}
    (ring : links.Ring head (front ++ back)) :
    links.prev (back.headD head) = front.getLastD head := by
  cases back with
  | nil =>
    rw [List.append_nil] at ring
    exact ring.prev_head
  | cons p back =>
    rw [List.headD_cons, ring.rotate.prev_head, Links.getLastD_append_cons]

/-- The nodes of a part of a ring lead to the node after it, where the loop stops. -/
theorem leads_range {front back : List Nat} {last : ListMemory → Option Nat}
    (ring : (direction.view memory.links).Ring head (front ++ rest ++ back))
    (alive : ∀ node ∈ back.headD head :: rest, node ∉ memory.freed)
    (ends : last memory = some ((front ++ rest).getLastD head)) :
    Leads (avlStops direction last) (follow direction) (back.headD head) memory rest := by
  induction rest generalizing front with
  | nil =>
    rw [List.append_nil] at ring ends
    have after : back.headD head ∉ memory.freed := alive _ List.mem_cons_self
    have stops : avlStops direction last memory (back.headD head) = some true := by
      simp only [avlStops, follow_opposite after, ends, ring_prev ring, Option.bind_eq_bind,
        Option.bind_some, beq_self_eq_true]
    exact ⟨stops, _, follow_alive after⟩
  | cons p rest ih =>
    have moved : front ++ p :: rest = front ++ [p] ++ rest := by
      rw [List.append_assoc, List.singleton_append]
    have here : p ∉ memory.freed := alive p (List.mem_cons_of_mem _ List.mem_cons_self)
    have later : ∀ node ∈ back.headD head :: rest, node ∉ memory.freed := by
      intro node inside
      exact alive node (List.cons_subset_cons _ (List.subset_cons_self p rest) inside)
    have split : front ++ p :: rest ++ back = front ++ (p :: (rest ++ back)) := by
      rw [List.append_assoc, List.cons_append]
    have before : (direction.view memory.links).prev p = front.getLastD head := by
      rw [split] at ring
      have read : (direction.view memory.links).prev ((p :: (rest ++ back)).headD head) =
          front.getLastD head := ring_prev ring
      exact read
    have next : (direction.view memory.links).next p = rest.headD (back.headD head) := by
      rw [split] at ring
      rw [ring_next ring]
      cases rest <;> rfl
    -- The node before is in front of the rest, and the last node is not.
    have apart : front.getLastD head ≠ (front ++ p :: rest).getLastD head := by
      rw [Links.getLastD_append_cons]
      have inFront : front.getLastD head ∈ head :: front := List.getLastD_mem_cons
      have inRest : rest.getLastD p ∈ p :: rest := List.getLastD_mem_cons
      have distinct := ring.distinct
      rw [List.append_assoc, ← List.cons_append, List.nodup_append] at distinct
      exact distinct.2.2 _ inFront _ (List.mem_append_left back inRest)
    have goesOn : avlStops direction last memory p = some false := by
      simp only [avlStops, follow_opposite here, ends, before, Option.bind_eq_bind,
        Option.bind_some, beq_eq_false_iff_ne.2 apart]
    have step : follow direction memory p = some (rest.headD (back.headD head)) := by
      rw [follow_alive here, next]
    rw [moved] at ring ends
    exact ⟨goesOn, step, ih ring later ends⟩

/-- The loops over a range visit exactly the elements from the first to the last one, in the order
of the keys or in reverse, and stop, wherever the range is in the tree. -/
theorem avlForElementRange_visits (direction : Direction) (memory : ListMemory) (listHead : Nat)
    (front back : List Nat) (first last : Nat) (range : List Nat) (rounds : ℕ)
    (ring : memory.links.Ring listHead (direction.order (front ++ range ++ back)))
    (alive : ∀ node ∈ listHead :: (front ++ range ++ back), node ∉ memory.freed)
    (starts : range.head? = some first) (ends : range.getLast? = some last)
    (enough : range.length < rounds) :
    avlForElementRange direction (fun _ => some first) (fun _ => some last)
      (fun memory _ => memory) rounds memory = some (range, memory) := by
  have view := view_ring ring direction
  rw [Direction.order_order] at view
  have final : (front ++ range).getLastD listHead = last := by
    rw [List.getLastD_eq_getLast?, List.getLast?_append, ends]
    rfl
  let inv (rest : List Nat) (now : ListMemory) : Prop :=
    now = memory ∧ ∃ done, done ++ rest = range
  have leads : ∀ rest now, inv rest now → Leads (avlStops direction fun _ => some last)
      (follow direction) (back.headD listHead) now rest := by
    intro rest now ⟨same, done, split⟩
    have parts : front ++ range ++ back = front ++ done ++ rest ++ back := by
      rw [← split, List.append_assoc front done rest]
    have met : ∀ node ∈ back.headD listHead :: rest, node ∉ memory.freed := by
      intro node inside
      apply alive node
      rw [← split]
      cases back <;> grind
    rw [parts] at view
    rw [same]
    apply leads_range view met
    rw [List.append_assoc, split, final]
  have kept : ∀ p rest now, inv (p :: rest) now → inv (p :: rest) now ∧ inv rest now := by
    intro p rest now ⟨same, done, split⟩
    have later : done ++ [p] ++ rest = range := by
      rw [List.append_assoc, List.singleton_append]
      exact split
    exact ⟨⟨same, done, split⟩, same, done ++ [p], later⟩
  have whole : inv range memory := ⟨rfl, [], rfl⟩
  have ⟨after, visits, unchanged, _⟩ := forEachFrom_visits leads kept whole enough
  have first' : range.headD (back.headD listHead) = first := by
    rw [List.headD_eq_head?_getD, starts]
    rfl
  rw [first'] at visits
  rw [avlForElementRange]
  simp only [Option.bind_eq_bind, Option.bind_some, visits, unchanged]

/-- Both elements of a list are visited from its last one on. -/
theorem avlForElementRange_visits_pair :
    avlForElementRange .backward (fun _ => some 4) (fun _ => some 3) (fun memory _ => memory) 3
      ⟨emptyAndPair, ∅⟩ = some ([4, 3], ⟨emptyAndPair, ∅⟩) :=
  avlForElementRange_visits .backward ⟨emptyAndPair, ∅⟩ 2 [] [] 4 3 [4, 3] 3 emptyAndPair_right
    (by simp) rfl rfl (by decide)

/-! ## All elements -/

/-- What is still to come of a list leads to its head, where a loop over a tree stops. -/
theorem StillToCome.leads_avl (toCome : StillToCome direction head rest memory) :
    Leads (avlStops direction (avlFirstElement direction.opposite head)) (follow direction) head
      memory rest := by
  have ⟨front, ring⟩ := toCome.ring
  have ends : avlFirstElement direction.opposite head memory =
      some ((front ++ rest).getLastD head) := by
    rw [avlFirstElement, follow_opposite (toCome.alive head List.mem_cons_self), ring.prev_head]
  have whole : (direction.view memory.links).Ring head (front ++ rest ++ []) := by
    rw [List.append_nil]
    exact ring
  exact leads_range whole toCome.alive ends

/-- The safe loops over a tree visit each element once, in the order of the keys or in reverse,
and stop, whatever the body does to the element and to those before it, and also when it removes
and frees the last element. They read no memory that was freed. -/
theorem avlForEachElementSafe_visits (direction : Direction) (memory : ListMemory)
    (listHead : Nat) (elems : List Nat) (body : ListMemory → Nat → ListMemory) (rounds : ℕ)
    (ring : memory.links.Ring listHead elems)
    (alive : ∀ node ∈ listHead :: elems, node ∉ memory.freed)
    (leaves : ∀ p rest now, StillToCome direction listHead (p :: rest) now →
      StillToCome direction listHead rest (body now p))
    (enough : elems.length < rounds) :
    ∃ final, avlForEachElementSafe direction listHead body rounds memory =
      some (direction.order elems, final) ∧ StillToCome direction listHead [] final := by
  have all := stillToCome_all ring alive direction
  have start := follow_head ring (alive listHead List.mem_cons_self) direction
  have ⟨second, read⟩ := all.leads_avl.read
  have rounded : (direction.order elems).length < rounds := by
    rw [Direction.order_length]
    exact enough
  have ⟨final, visits, ends⟩ := forEachSafeFrom_visits
    (fun rest now toCome => StillToCome.leads_avl toCome) leaves all
    (all.leads_avl.read_eq read) rounded
  rw [avlForEachElementSafe, avlForElementRangeSafe]
  simp only [avlFirstElement, start, read, Option.bind_eq_bind, Option.bind_some]
  exact ⟨final, visits, ends⟩

/-- Both elements of a list are deleted and freed in order. -/
theorem avlForEachElementSafe_visits_pair :
    ∃ final, avlForEachElementSafe .forward 2 deleteAndFree 3 ⟨emptyAndPair, ∅⟩ =
      some ([3, 4], final) ∧ StillToCome .forward 2 [] final :=
  avlForEachElementSafe_visits .forward ⟨emptyAndPair, ∅⟩ 2 [3, 4] deleteAndFree 3
    emptyAndPair_right (by simp) (fun _ _ _ toCome => toCome.deleteAndFree) (by decide)

/-! ## Removing all elements -/

/-- `struct avl_tree`, what the loops read and write. -/
structure AvlTree where
  /-- `list_head`, the address. -/
  listHead : Nat
  /-- `root`. -/
  root : Option Nat
  /-- `count`. -/
  count : UInt32

/-- The loop of `avl_remove_all_elements`, with the visited elements. -/
def avlRemoveAllFrom (body : ListMemory → Nat → ListMemory) :
    ℕ → UInt32 → ListMemory → Nat → Nat → Option (List Nat × UInt32 × ListMemory)
  | 0, _, _, _, _ => none
  | rounds + 1, count, memory, element, ptr =>
    if 0 < count then do
      let memory := body memory element
      let next ← follow .forward memory ptr
      let (visited, final) ← avlRemoveAllFrom body rounds (count - 1) memory ptr next
      some (element :: visited, final)
    else some ([], count, memory)

/-- `avl_remove_all_elements`, the visited elements, the tree and the memory. -/
def avlRemoveAllElements (body : ListMemory → Nat → ListMemory) (rounds : ℕ) (tree : AvlTree)
    (memory : ListMemory) : Option (List Nat × AvlTree × ListMemory) := do
  let element ← follow .forward memory tree.listHead
  let ptr ← follow .forward memory element
  let memory := { memory with links := listHeadInit memory.links tree.listHead }
  let (visited, count, memory) ← avlRemoveAllFrom body rounds tree.count memory element ptr
  some (visited, { tree with root := none, count := count }, memory)

/-- What the body of the loop may do: it frees nothing but the element, and writes no list node
but that of the element. -/
structure FreesOnly (body : ListMemory → Nat → ListMemory) : Prop where
  /-- Only the element is freed. -/
  freed : ∀ memory element, (body memory element).freed ⊆ insert element memory.freed
  /-- The next fields of other nodes stay. -/
  next : ∀ memory element node, node ≠ element →
    (body memory element).links.next node = memory.links.next node
  /-- The previous fields of other nodes stay. -/
  prev : ∀ memory element node, node ≠ element →
    (body memory element).links.prev node = memory.links.prev node

variable {body : ListMemory → Nat → ListMemory}

/-- Another node is followed as before. -/
theorem FreesOnly.follow (frees : FreesOnly body) {p node next : Nat} (apart : node ≠ p)
    (read : follow .forward memory node = some next) :
    follow .forward (body memory p) node = some next := by
  by_cases gone : node ∈ memory.freed
  · rw [Purc.follow, if_pos gone] at read
    exact absurd read.symm (Option.some_ne_none next)
  · have stays : node ∉ (body memory p).freed := by
      intro freed
      rcases Finset.mem_insert.1 (frees.freed memory p freed) with same | before
      · exact apart same
      · exact gone before
    rw [follow_alive gone] at read
    rw [follow_alive stays, Direction.view, frees.next memory p node apart]
    exact read

/-- The elements after the current one lead to the head as before. -/
theorem FreesOnly.leads (frees : FreesOnly body) {p : Nat} (notHead : p ≠ head)
    (notRest : p ∉ rest) (leads : Leads (atHead head) (Purc.follow .forward) head memory rest) :
    Leads (atHead head) (Purc.follow .forward) head (body memory p) rest := by
  have ⟨next, read⟩ := leads.read_head
  apply leads.imp
  · intro node
    rfl
  · intro node inside following step
    have apart : node ≠ p := fun same => notRest (same ▸ inside)
    exact frees.follow apart step
  · exact ⟨next, frees.follow notHead.symm read⟩

/-- What is left when all elements were visited. -/
structure Emptied (listHead : Nat) (elems : List Nat) (before after : ListMemory) : Prop where
  /-- The list is empty. -/
  ring : after.links.Ring listHead []
  /-- Nothing but the elements was freed. -/
  freed : after.freed ⊆ before.freed ∪ elems.toFinset

/-- The loop visits as many elements as are left. -/
theorem avlRemoveAllFrom_visits (frees : FreesOnly body) {rounds : ℕ} {count : UInt32} {ptr : Nat}
    (leads : Leads (atHead head) (follow .forward) head memory elems) (distinct : elems.Nodup)
    (counted : count.toNat = elems.length)
    (next : ∀ p rest, elems = p :: rest → ptr = rest.headD head)
    (alone : memory.links.Ring head []) (enough : elems.length < rounds) :
    ∃ final, avlRemoveAllFrom body rounds count memory (elems.headD head) ptr =
      some (elems, 0, final) ∧ Emptied head elems memory final := by
  induction elems generalizing rounds count ptr memory with
  | nil =>
    cases rounds with
    | zero => exact absurd enough (Nat.not_lt_zero _)
    | succ rounds =>
      have zero : count = 0 := UInt32.toNat_inj.1 counted
      rw [avlRemoveAllFrom, zero, if_neg (by decide)]
      exact ⟨memory, rfl, alone, Finset.subset_union_left⟩
  | cons p rest ih =>
    cases rounds with
    | zero => exact absurd enough (Nat.not_lt_zero _)
    | succ rounds =>
      have ⟨notRest, distinctRest⟩ := List.nodup_cons.1 distinct
      have notHead : p ≠ head := by
        intro same
        have goesOn := leads.1
        rw [atHead, same, beq_self_eq_true] at goesOn
        exact absurd goesOn (by decide)
      have leadsRest := frees.leads notHead notRest leads.2.2
      have ⟨following, read⟩ := leadsRest.read
      have positive : 0 < count := by
        rw [UInt32.lt_iff_toNat_lt, counted]
        exact Nat.succ_pos _
      have fewer : (count - 1).toNat = rest.length := by
        rw [UInt32.toNat_sub_of_le _ _ (by
          rw [UInt32.le_iff_toNat_le, counted]
          exact Nat.succ_pos _), counted]
        rfl
      have stillAlone : (body memory p).links.Ring head [] := by
        have ⟨forth, back⟩ := Links.ring_nil.1 alone
        apply Links.ring_nil.2
        rw [frees.next memory p head notHead.symm, frees.prev memory p head notHead.symm]
        exact ⟨forth, back⟩
      have ⟨final, visits, emptied⟩ := ih leadsRest distinctRest fewer (leadsRest.read_eq read)
        stillAlone (Nat.lt_of_succ_lt_succ enough)
      have same : ptr = rest.headD head := next p rest rfl
      have freed : final.freed ⊆ memory.freed ∪ (p :: rest).toFinset := by
        intro node inside
        have step := emptied.freed inside
        have current := @frees.freed memory p node
        simp only [Finset.mem_union, List.mem_toFinset, List.mem_cons, Finset.mem_insert] at *
        grind
      rw [avlRemoveAllFrom, if_pos positive, same, List.headD_cons]
      simp only [read, visits, Option.bind_eq_bind, Option.bind_some]
      exact ⟨final, rfl, emptied.ring, freed⟩

/-- The loop that removes all elements visits each element once in the order of the keys and
stops, also when the body frees each element. It reads no memory that was freed, and leaves an
empty tree. -/
theorem avlRemoveAllElements_visits (tree : AvlTree) (memory : ListMemory) (elems : List Nat)
    (body : ListMemory → Nat → ListMemory) (rounds : ℕ)
    (ring : memory.links.Ring tree.listHead elems)
    (alive : ∀ node ∈ tree.listHead :: elems, node ∉ memory.freed)
    (counted : tree.count.toNat = elems.length) (frees : FreesOnly body)
    (enough : elems.length < rounds) :
    ∃ final, avlRemoveAllElements body rounds tree memory =
      some (elems, { tree with root := none, count := 0 }, final) ∧
        Emptied tree.listHead elems memory final := by
  have ⟨outside, distinct⟩ := List.nodup_cons.1 ring.distinct
  have start := follow_head ring (alive tree.listHead List.mem_cons_self) .forward
  have toCome : StillToCome .forward tree.listHead elems memory :=
    stillToCome_all ring alive .forward
  have ⟨second, read⟩ := toCome.leads.read
  -- Initializing the head writes none of the elements.
  have leads : Leads (atHead tree.listHead) (follow .forward) tree.listHead
      { memory with links := listHeadInit memory.links tree.listHead } elems := by
    apply toCome.leads.imp
    · intro node
      rfl
    · intro node inside next step
      have apart : node ∉ [tree.listHead] := by
        intro same
        exact outside (List.mem_singleton.1 same ▸ inside)
      have living := alive node (List.mem_cons_of_mem tree.listHead inside)
      rw [follow_alive living] at step
      rw [follow, if_neg living, Direction.view, (listHeadInit_frame apart).1]
      exact step
    · exact ⟨_, follow_alive (alive tree.listHead List.mem_cons_self)⟩
  have ⟨final, visits, emptied⟩ := avlRemoveAllFrom_visits frees leads distinct counted
    (toCome.leads.read_eq read) (Links.ring_join_self tree.listHead) enough
  rw [avlRemoveAllElements]
  simp only [start, Direction.order, read, visits, Option.bind_eq_bind, Option.bind_some]
  exact ⟨final, rfl, emptied.ring, emptied.freed⟩

/-- `free` of an element. -/
def freeElement (memory : ListMemory) (element : Nat) : ListMemory :=
  { memory with freed := insert element memory.freed }

/-- Freeing an element frees nothing else. -/
theorem freesOnly_freeElement : FreesOnly freeElement where
  freed := fun _ _ => Finset.Subset.refl _
  next := fun _ _ _ _ => rfl
  prev := fun _ _ _ _ => rfl

/-- Both elements of a tree are removed and freed. -/
theorem avlRemoveAllElements_visits_pair :
    ∃ final, avlRemoveAllElements freeElement 3 ⟨2, some 3, 2⟩ ⟨emptyAndPair, ∅⟩ =
      some ([3, 4], ⟨2, none, 0⟩, final) ∧ Emptied 2 [3, 4] ⟨emptyAndPair, ∅⟩ final :=
  avlRemoveAllElements_visits ⟨2, some 3, 2⟩ ⟨emptyAndPair, ∅⟩ [3, 4] freeElement 3
    emptyAndPair_right (by simp) rfl freesOnly_freeElement (by decide)

end Bpcp.Purc
