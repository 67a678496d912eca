import Bpcp.Purc.Tree

/-!
# Loops over a subtree in pre-order

Leaving the subtree of a node leads to the same node as leaving its last child. So a forest is
visited when the loop runs from its first root, or from where its parent is left when it has no
root, and it goes on from where the parent is left.
-/

namespace Bpcp.Purc

open Bpcp.Lib

variable {ι : Type*} [DecidableEq ι] {bound : ℕ} {memory : TreeMemory ι} {top node parent : ι}

/-- The part of `pctree_next_pre_order` for a node without children. -/
def leave (memory : TreeMemory ι) (top : ι) (bound : ℕ) (node : ι) : Option (Option ι) := do
  let fields ← memory node
  if node = top then some none
  else
    match fields.next with
    | some next => some (some next)
    | none => climb memory top bound node

/-- The next node is the first child, or found by leaving the node. -/
theorem pctreeNextPreOrder_eq {fields : PctreeNode ι} {after : Option ι}
    (read : memory node = some fields) (left : leave memory top bound node = some after) :
    pctreeNextPreOrder bound memory (some node) top = some (fields.firstChild.or after) := by
  unfold pctreeNextPreOrder
  unfold leave at left
  simp only [read, Option.bind_eq_bind, Option.bind_some] at left ⊢
  cases fields.firstChild with
  | none => exact left
  | some child => rfl

/-- A node with a sibling behind it is left to the sibling. -/
theorem leave_sibling {fields : PctreeNode ι} {next : ι} (read : memory node = some fields)
    (below : node ≠ top) (sibling : fields.next = some next) :
    leave memory top bound node = some (some next) := by
  rw [leave, read, Option.bind_eq_bind, Option.bind_some, if_neg below, sibling]

/-- A last child is left as its parent is left. -/
theorem leave_last {fields : PctreeNode ι} {after : Option ι} (read : memory node = some fields)
    (below : node ≠ top) (last : fields.next = none) (up : fields.parent = some parent)
    (left : leave memory top bound parent = some after) :
    leave memory top (bound + 1) node = some after := by
  unfold leave at left ⊢
  rw [read]
  simp only [Option.bind_eq_bind, Option.bind_some, if_neg below, last]
  unfold climb
  rw [read]
  simp only [Option.bind_eq_bind, Option.bind_some, up]
  cases above : memory parent with
  | none =>
    rw [above] at left
    exact absurd left nofun
  | some parentFields =>
    rw [above] at left
    exact left

/-- The loop visits the forest of the children of a node, and goes on where the node is left. -/
theorem forEachPreOrder_forest {forest : Forest ι} {prev after : Option ι} {depth : ℕ}
    (linked : Linked memory (some parent) prev forest) (notTop : top ∉ forest.preOrder)
    (left : ∀ rounds ≥ depth, leave memory top rounds parent = some after)
    (enough : depth + forest.size ≤ bound) (rounds : ℕ) :
    forEachPreOrder bound memory top (rounds + forest.size) (forest.first.or after) =
      (forEachPreOrder bound memory top rounds after).map (forest.preOrder ++ ·) := by
  induction forest generalizing parent prev after depth rounds with
  | nil =>
    show forEachPreOrder bound memory top rounds after = _
    simp only [Forest.preOrder, List.nil_append]
    exact Option.map_id'.symm
  | cons root children siblings below behind =>
    obtain ⟨read, linkedBelow, linkedBehind⟩ := linked
    simp only [Forest.preOrder, List.mem_cons, List.mem_append, not_or] at notTop
    obtain ⟨rootNotTop, notBelow, notBehind⟩ := notTop
    rw [Forest.size] at enough ⊢
    -- Leaving the root leads to its sibling, or to where its parent is left.
    have leftRoot : ∀ rounds ≥ depth + 1,
        leave memory top rounds root = some (siblings.first.or after) := by
      intro rounds many
      cases next : siblings.first with
      | some sibling => exact leave_sibling read (Ne.symm rootNotTop) next
      | none =>
        obtain ⟨fewer, rfl⟩ := Nat.exists_eq_add_of_le' (Nat.le_of_add_left_le many)
        have up := left (fewer + 0) (by omega)
        exact leave_last read (Ne.symm rootNotTop) next rfl up
    have next := pctreeNextPreOrder_eq read (leftRoot bound (by omega))
    have visitBelow := below linkedBelow notBelow leftRoot (by omega) (rounds + siblings.size)
    have visitBehind := behind linkedBehind notBehind left (by omega) rounds
    have split : rounds + (children.size + siblings.size + 1) =
        rounds + siblings.size + children.size + 1 := by omega
    rw [split]
    show forEachPreOrder bound memory top (_ + 1) (some root) = _
    rw [forEachPreOrder, next]
    simp only [Option.bind_eq_bind, Option.bind_some]
    rw [visitBelow, visitBehind, Forest.preOrder]
    cases forEachPreOrder bound memory top rounds after with
    | none => rfl
    | some visited =>
      simp only [Option.map_some, Option.bind_some, List.cons_append, List.append_assoc]

/-- The loop visits a node and the nodes below it in pre-order, and stops. -/
theorem pctreeForEachPreOrder_eq {children : Forest ι} {fields : PctreeNode ι}
    (read : memory top = some fields) (child : fields.firstChild = children.first)
    (linked : Linked memory (some top) none children) (notTop : top ∉ children.preOrder)
    (enough : children.size < bound) :
    pctreeForEachPreOrder bound memory top = some (top :: children.preOrder) := by
  have left : ∀ rounds ≥ 0, leave memory top rounds top = some none := by
    intro rounds _
    rw [leave, read, Option.bind_eq_bind, Option.bind_some, if_pos rfl]
  have next := pctreeNextPreOrder_eq read (left bound (Nat.zero_le _))
  obtain ⟨rounds, split⟩ := Nat.exists_eq_add_of_lt enough
  have room : 0 + children.size ≤ bound := by omega
  have visited := forEachPreOrder_forest linked notTop left room (rounds + 1)
  have count : rounds + 1 + children.size = bound := by omega
  rw [count] at visited
  rw [pctreeForEachPreOrder, forEachPreOrder, next, child]
  simp only [Option.bind_eq_bind, Option.bind_some]
  rw [visited, forEachPreOrder]
  simp only [Option.map_some, Option.bind_some, List.append_nil]

end Bpcp.Purc
