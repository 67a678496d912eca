import Mathlib

/-!
# Circular doubly linked lists

Nodes hold the addresses of a next and a previous node. A head and the nodes that are
reached from it form a ring when each node and the one after it point at each other and
the last one leads back to the head. A ring can be read from any of its nodes, so taking a
node out and putting one in need only be understood at the head: a path of nodes is closed
by a new head, and a head is taken out of its own ring.
-/

namespace Bpcp.Lib

/-- The two fields of every node. -/
structure Links (α : Type*) where
  /-- The node after a node. -/
  next : α → α
  /-- The node before a node. -/
  prev : α → α

namespace Links

variable {α : Type*}

/-- Two nodes point at each other. -/
def Joined (links : Links α) (left right : α) : Prop :=
  links.next left = right ∧ links.prev right = left

/-- The nodes of a path each point at the one after and the one before. -/
def Path (links : Links α) (nodes : List α) : Prop := nodes.IsChain links.Joined

/-- The elements of a circular list in the order of the next nodes. -/
structure Ring (links : Links α) (head : α) (elems : List α) : Prop where
  /-- The head is followed by the elements in their order. -/
  path : links.Path (head :: elems)
  /-- The last node leads back to the head. -/
  closed : links.Joined (elems.getLastD head) head
  /-- No node occurs twice. -/
  distinct : (head :: elems).Nodup

/-! ## Reading a ring -/

variable {links other : Links α} {head : α} {elems : List α}

/-- The last node of a path without repetition is not before its end. -/
theorem getLastD_notMem_dropLast {first : α} {rest : List α} (distinct : (first :: rest).Nodup) :
    rest.getLastD first ∉ (first :: rest).dropLast := by
  have split := List.dropLast_append_getLast (List.cons_ne_nil first rest)
  rw [List.getLast_eq_getLastD] at split
  rw [← split, List.nodup_append] at distinct
  exact fun inside => distinct.2.2 _ inside _ (by simp) rfl

/-- A path that is followed by one more node. -/
theorem path_append_singleton {first last : α} {rest : List α} :
    links.Path (first :: rest ++ [last]) ↔
      links.Path (first :: rest) ∧ links.Joined (rest.getLastD first) last := by
  rw [Path, List.isChain_append, List.getLast?_cons, Path]
  simp

/-- A ring is a cycle of distinct nodes that point at each other. -/
theorem ring_iff_cycle :
    links.Ring head elems ↔
      Cycle.Chain links.Joined (head :: elems : List α) ∧ (head :: elems).Nodup := by
  have unrolled : links.Path (head :: elems ++ [head]) ↔
      links.Path (head :: elems) ∧ links.Joined (elems.getLastD head) head :=
    path_append_singleton
  rw [Cycle.chain_coe_cons, ← List.cons_append]
  constructor
  · intro ring
    exact ⟨unrolled.2 ⟨ring.path, ring.closed⟩, ring.distinct⟩
  · intro cycle
    have parts := unrolled.1 cycle.1
    exact ⟨parts.1, parts.2, cycle.2⟩

/-- A ring can be read from any of its nodes. -/
theorem Ring.rotate {node : α} {front back : List α}
    (ring : links.Ring head (front ++ node :: back)) :
    links.Ring node (back ++ head :: front) := by
  have turned : (head :: (front ++ node :: back)) ~r (node :: (back ++ head :: front)) := by
    have swapped : List.IsRotated (head :: front ++ node :: back) (node :: back ++ head :: front) :=
      List.isRotated_append
    simpa using swapped
  have cycle := ring_iff_cycle.1 ring
  rw [Cycle.coe_eq_coe.2 turned, turned.nodup_iff] at cycle
  exact ring_iff_cycle.2 cycle

/-- The node after the head is the first element. -/
theorem Ring.next_head (ring : links.Ring head elems) : links.next head = elems.headD head := by
  cases elems with
  | nil => exact ring.closed.1
  | cons first rest => exact (List.isChain_cons_cons.1 ring.path).1.1

/-- The node before the head is the last element. -/
theorem Ring.prev_head (ring : links.Ring head elems) :
    links.prev head = elems.getLastD head := ring.closed.2

/-- The head is followed by itself exactly when there is no element. -/
theorem Ring.next_head_eq_iff (ring : links.Ring head elems) :
    links.next head = head ↔ elems = [] := by
  rw [ring.next_head]
  cases elems with
  | nil => simp
  | cons first rest =>
    have apart : head ∉ first :: rest := (List.nodup_cons.1 ring.distinct).1
    have ne : first ≠ head := fun same => apart (by simp [same])
    simpa using ne

/-- A head that points at itself both ways has no elements. -/
theorem ring_nil : links.Ring head [] ↔ links.next head = head ∧ links.prev head = head := by
  constructor
  · intro ring
    exact ring.closed
  · intro closed
    exact ⟨List.isChain_singleton _, closed, by simp⟩

/-- The head and the node after it point at each other. -/
theorem Ring.joined_next (ring : links.Ring head elems) : links.Joined head (links.next head) := by
  rw [ring.next_head]
  cases elems with
  | nil => exact ring.closed
  | cons first rest => exact (List.isChain_cons_cons.1 ring.path).1

/-- The head and the node before it point at each other. -/
theorem Ring.joined_prev (ring : links.Ring head elems) : links.Joined (links.prev head) head := by
  rw [ring.prev_head]
  exact ring.closed

/-- With two elements or more, the head is not the second node after itself. -/
theorem Ring.next_first_ne {first second : α} {rest : List α}
    (ring : links.Ring head (first :: second :: rest)) : links.next first ≠ head := by
  have step := (List.isChain_cons_cons.1 (List.isChain_cons_cons.1 ring.path).2).1.1
  have apart := (List.nodup_cons.1 ring.distinct).1
  intro back
  exact apart (by simp [← back, step])

/-- A renaming of nodes that keeps them joined turns rings into rings. -/
theorem Ring.map {rename : α → α} (ring : links.Ring head elems)
    (injective : Function.Injective rename)
    (joined : ∀ left right, links.Joined left right → other.Joined (rename left) (rename right)) :
    other.Ring (rename head) (elems.map rename) := by
  refine ⟨?_, ?_, ?_⟩
  · have path := ring.path.imp joined
    rw [Path, ← List.map_cons, List.isChain_map]
    exact path
  · rw [List.getLastD_map]
    exact joined _ _ ring.closed
  · rw [← List.map_cons]
    exact ring.distinct.map injective

/-- The next nodes determine the elements. -/
theorem Ring.unique {others : List α} (ring : links.Ring head elems)
    (again : links.Ring head others) : elems = others := by
  have walk : ∀ {node : α} {xs ys : List α}, links.Path (node :: xs ++ [head]) →
      links.Path (node :: ys ++ [head]) → head ∉ xs → head ∉ ys → xs = ys := by
    intro node xs
    induction xs generalizing node with
    | nil =>
      intro ys left right _ apart
      cases ys with
      | nil => rfl
      | cons y ys =>
        have step := (List.isChain_cons_cons.1 left).1.1
        have other := (List.isChain_cons_cons.1 right).1.1
        exact absurd (step.symm.trans other) (fun same => apart (by simp [same]))
    | cons x xs ih =>
      intro ys left right apartL apartR
      have stepL := List.isChain_cons_cons.1 left
      cases ys with
      | nil =>
        have other := (List.isChain_cons_cons.1 right).1.1
        exact absurd (other.symm.trans stepL.1.1) (fun same => apartL (by simp [same]))
      | cons y ys =>
        have stepR := List.isChain_cons_cons.1 right
        have same : x = y := stepL.1.1.symm.trans stepR.1.1
        subst same
        rw [ih stepL.2 stepR.2 (fun inside => apartL (by simp [inside]))
          (fun inside => apartR (by simp [inside]))]
  exact walk (path_append_singleton.2 ⟨ring.path, ring.closed⟩)
    (path_append_singleton.2 ⟨again.path, again.closed⟩)
    (List.nodup_cons.1 ring.distinct).1 (List.nodup_cons.1 again.distinct).1

/-! ## Changing fields -/

/-- A path depends on the next fields before its end and the previous fields after its start. -/
theorem Path.congr {nodes : List α} (path : links.Path nodes)
    (next : ∀ node ∈ nodes.dropLast, other.next node = links.next node)
    (prev : ∀ node ∈ nodes.tail, other.prev node = links.prev node) : other.Path nodes := by
  induction nodes with
  | nil => exact List.isChain_nil
  | cons first rest ih =>
    cases rest with
    | nil => exact List.isChain_singleton _
    | cons second rest =>
      have parts := List.isChain_cons_cons.1 path
      have forward := (next first (by simp)).trans parts.1.1
      have backward := (prev second (by simp)).trans parts.1.2
      have later := ih parts.2 (fun node inside => next node (by simp [inside]))
        (fun node inside => prev node (List.mem_of_mem_tail inside))
      exact List.isChain_cons_cons.2 ⟨⟨forward, backward⟩, later⟩

/-- A ring depends on the fields of its own nodes only. -/
theorem Ring.congr (ring : links.Ring head elems)
    (same : ∀ node ∈ head :: elems,
      other.next node = links.next node ∧ other.prev node = links.prev node) :
    other.Ring head elems := by
  refine ⟨ring.path.congr (fun node inside => (same node (List.mem_of_mem_dropLast inside)).1)
    (fun node inside => (same node (List.mem_of_mem_tail inside)).2), ?_, ring.distinct⟩
  have forward := (same _ List.getLastD_mem_cons).1.trans ring.closed.1
  have backward := (same head (by simp)).2.trans ring.closed.2
  exact ⟨forward, backward⟩

/-- What happens at a node outside a ring leaves the ring. -/
theorem Ring.congr_outside {node : α} (ring : links.Ring head elems)
    (outside : node ∉ head :: elems)
    (same : ∀ at', at' ≠ node →
      other.next at' = links.next at' ∧ other.prev at' = links.prev at') :
    other.Ring head elems :=
  ring.congr fun at' inside => same at' fun hit => outside (hit ▸ inside)

variable [DecidableEq α]

/-- The next field of a node is written. -/
def setNext (links : Links α) (node value : α) : Links α :=
  { links with next := Function.update links.next node value }

/-- The previous field of a node is written. -/
def setPrev (links : Links α) (node value : α) : Links α :=
  { links with prev := Function.update links.prev node value }

/-- Writing a next field is seen at that node. -/
@[simp] theorem setNext_next (node value at' : α) :
    (links.setNext node value).next at' = if at' = node then value else links.next at' :=
  Function.update_apply _ _ _ _

/-- Writing a next field leaves the previous fields. -/
@[simp] theorem setNext_prev (node value : α) : (links.setNext node value).prev = links.prev := rfl

/-- Writing a previous field is seen at that node. -/
@[simp] theorem setPrev_prev (node value at' : α) :
    (links.setPrev node value).prev at' = if at' = node then value else links.prev at' :=
  Function.update_apply _ _ _ _

/-- Writing a previous field leaves the next fields. -/
@[simp] theorem setPrev_next (node value : α) : (links.setPrev node value).next = links.next := rfl

/-- Two nodes are made to point at each other. -/
def join (links : Links α) (left right : α) : Links α :=
  (links.setPrev right left).setNext left right

/-- Joining is seen in the next field of the left node. -/
@[simp] theorem join_next (left right at' : α) :
    (links.join left right).next at' = if at' = left then right else links.next at' := by
  simp [join]

/-- Joining is seen in the previous field of the right node. -/
@[simp] theorem join_prev (left right at' : α) :
    (links.join left right).prev at' = if at' = right then left else links.prev at' := by
  simp [join]

/-- A path is closed to a ring by joining a new head to both of its ends. -/
theorem ring_join_join {node first : α} {rest : List α} (path : links.Path (first :: rest))
    (distinct : (node :: first :: rest).Nodup) :
    ((links.join node first).join (rest.getLastD first) node).Ring node (first :: rest) := by
  have apart := List.nodup_cons.1 distinct
  have fresh : ∀ x ∈ first :: rest, x ≠ node := fun x inside same => apart.1 (same ▸ inside)
  have firstFresh := fresh first (by simp)
  have lastFresh := fresh _ List.getLastD_mem_cons
  have lastApart := getLastD_notMem_dropLast apart.2
  have lastClosed := List.getLastD_cons (a := node) (b := first) (l := rest)
  generalize rest.getLastD first = last at lastFresh lastApart lastClosed ⊢
  have start : ((links.join node first).join last node).Joined node first := by
    simp [Joined, firstFresh, Ne.symm lastFresh]
  have segment : ((links.join node first).join last node).Path (first :: rest) := by
    apply path.congr
    · intro x inside
      have notLast : x ≠ last := fun same => lastApart (same ▸ inside)
      simp [fresh x (List.mem_of_mem_dropLast inside), notLast]
    · intro x inside
      have notFirst : x ≠ first := fun same => (List.nodup_cons.1 apart.2).1 (same ▸ inside)
      simp [fresh x (List.mem_of_mem_tail inside), notFirst]
  refine ⟨List.isChain_cons_cons.2 ⟨start, segment⟩, ?_, distinct⟩
  rw [lastClosed]
  simp [Joined]

/-- A new head that is joined to itself has no elements. -/
theorem ring_join_self (node : α) : (links.join node node).Ring node [] :=
  ring_nil.2 ⟨by simp, by simp⟩

/-- A head is taken out of its ring by joining the two nodes around it. -/
theorem Ring.join_around {node first : α} {rest : List α} (ring : links.Ring node (first :: rest)) :
    (links.join (rest.getLastD first) first).Ring first rest := by
  have distinct := (List.nodup_cons.1 ring.distinct).2
  have lastApart := getLastD_notMem_dropLast distinct
  generalize closing : rest.getLastD first = last at lastApart ⊢
  refine ⟨?_, by rw [closing]; simp [Joined], distinct⟩
  apply Path.congr (List.isChain_cons_cons.1 ring.path).2
  · intro x inside
    have notLast : x ≠ last := fun same => lastApart (same ▸ inside)
    simp [notLast]
  · intro x inside
    have notFirst : x ≠ first := fun same => (List.nodup_cons.1 distinct).1 (same ▸ inside)
    simp [notFirst]

/-- Joining nodes outside a path leaves the path. -/
theorem Path.join_frame {nodes : List α} {left right : α} (path : links.Path nodes)
    (outsideL : left ∉ nodes) (outsideR : right ∉ nodes) :
    (links.join left right).Path nodes := by
  apply path.congr
  · intro node inside
    have notLeft : node ≠ left := fun same => outsideL (same ▸ List.mem_of_mem_dropLast inside)
    simp [notLeft]
  · intro node inside
    have notRight : node ≠ right := fun same => outsideR (same ▸ List.mem_of_mem_tail inside)
    simp [notRight]

/-- Joining nodes outside a ring leaves the ring. -/
theorem Ring.join_frame {left right : α} (ring : links.Ring head elems)
    (outsideL : left ∉ head :: elems) (outsideR : right ∉ head :: elems) :
    (links.join left right).Ring head elems := by
  apply ring.congr
  intro node inside
  have notLeft : node ≠ left := fun same => outsideL (same ▸ inside)
  have notRight : node ≠ right := fun same => outsideR (same ▸ inside)
  simp [notLeft, notRight]

end Links

end Bpcp.Lib
