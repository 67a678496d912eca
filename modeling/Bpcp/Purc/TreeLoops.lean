import Bpcp.Purc.TreePostOrder

/-!
# Loops over subtrees of well-linked trees

Both loops visit each node of the subtree once, whatever is around the subtree, and the loop in
post-order does so also when its body unlinks each node and frees it.
-/

namespace Bpcp.Purc

open Bpcp.Lib

variable {ι : Type*}

/-- A body that leaves the tree alone. -/
theorem mayUnlink_leave : MayUnlink fun (memory : TreeMemory ι) (_ : ι) => memory where
  parent := fun _ => rfl
  firstChild := fun _ _ _ => rfl
  next := fun _ _ _ => rfl
  prev := fun _ _ _ => rfl
  relinked := fun _ _ _ => Or.inr rfl

variable [DecidableEq ι] {memory : TreeMemory ι} {top : ι}

/-- A body that closes the gap between the siblings of its node, and frees the node. -/
def unlinkAndFree (memory : TreeMemory ι) (node : ι) : TreeMemory ι :=
  match memory node with
  | none => memory
  | some fields => fun other =>
    if other = node then none
    else (memory other).map fun near =>
      { parent := near.parent
        firstChild :=
          if fields.parent = some other ∧ near.firstChild = some node then fields.next
          else near.firstChild
        lastChild :=
          if fields.parent = some other ∧ near.lastChild = some node then fields.prev
          else near.lastChild
        prev := if fields.next = some other then fields.prev else near.prev
        next := if fields.prev = some other then fields.next else near.next }

/-- Unlinking and freeing changes no more than a body may. -/
theorem mayUnlink_unlinkAndFree :
    MayUnlink (unlinkAndFree : TreeMemory ι → ι → TreeMemory ι) where
  parent := by
    intro memory node other apart
    unfold unlinkAndFree
    cases memory node with
    | none => rfl
    | some fields =>
      simp only [if_neg apart, Option.map_map]
      rfl
  firstChild := by
    intro memory node other fields read apart below
    have kept : ∀ child, ¬(fields.parent = some other ∧ child = some node) :=
      fun _ both => below both.1
    simp only [unlinkAndFree, read, if_neg apart, Option.map_map, if_neg (kept _)]
    rfl
  next := by
    intro memory node other fields read apart front
    simp only [unlinkAndFree, read, if_neg apart, Option.map_map, if_neg front]
    rfl
  prev := by
    intro memory node other fields read apart behind
    simp only [unlinkAndFree, read, if_neg apart, Option.map_map, if_neg behind]
    rfl
  relinked := by
    intro memory node other fields read apart behind
    simp only [unlinkAndFree, read, if_neg apart, Option.map_map, if_pos behind]
    cases memory other with
    | none => exact Or.inr rfl
    | some near => exact Or.inl rfl

/-- For every node of a well-linked tree, the loops visit the node and the nodes below it once
each, before or behind the nodes below them, and stop. The body of the loop in post-order may
unlink and free its node. -/
theorem pctreeForEach_subtree {tree : Forest ι} (linked : Linked memory none none tree)
    (distinct : tree.preOrder.Nodup) (inside : top ∈ tree.preOrder) :
    ∃ children, tree.childrenOf top = some children ∧
      (top :: children.preOrder).Nodup ∧
      (children.postOrder ++ [top]).Perm (top :: children.preOrder) ∧
      ∀ bound > children.size,
        pctreeForEachPreOrder bound memory top = some (top :: children.preOrder) ∧
        ∀ body, MayUnlink body → ∃ final,
          pctreeForEachPostOrder bound memory body top =
            some (children.postOrder ++ [top], final) := by
  obtain ⟨children, fields, found, below⟩ := linked.subtree distinct inside
  refine ⟨children, found, List.nodup_cons.2 ⟨below.notBelow, below.distinct⟩, ?_, ?_⟩
  · exact (List.perm_append_singleton _ _).trans (children.postOrder_perm.cons top)
  · intro bound enough
    constructor
    · exact pctreeForEachPreOrder_eq below.read below.firstChild below.linked below.notBelow
        enough
    · intro body mayUnlink
      exact pctreeForEachPostOrder_eq mayUnlink below.read below.firstChild below.linked
        below.notBelow below.distinct enough

/-- A root with two children, the first of which has two children. -/
def smallTree : Forest ℕ :=
  .cons 1 (.cons 2 (.cons 4 .nil (.cons 5 .nil .nil)) (.cons 3 .nil .nil)) .nil

/-- The small tree in memory. -/
def smallMemory : TreeMemory ℕ
  | 1 => some ⟨none, some 2, some 3, none, none⟩
  | 2 => some ⟨some 1, some 4, some 5, none, some 3⟩
  | 3 => some ⟨some 1, none, none, some 2, none⟩
  | 4 => some ⟨some 2, none, none, none, some 5⟩
  | 5 => some ⟨some 2, none, none, some 4, none⟩
  | _ => none

/-- The small tree is well linked. -/
theorem smallTree_linked : Linked smallMemory none none smallTree :=
  ⟨rfl, ⟨rfl, ⟨rfl, trivial, ⟨rfl, trivial, trivial⟩⟩, ⟨rfl, trivial, trivial⟩⟩, trivial⟩

/-- The subtree of the first child is visited, also when its nodes are unlinked and freed. -/
theorem pctreeForEach_subtree_small :
    pctreeForEachPreOrder 3 smallMemory 2 = some [2, 4, 5] ∧
      (∃ final, pctreeForEachPostOrder 3 smallMemory (fun memory _ => memory) 2 =
        some ([4, 5, 2], final)) ∧
      ∃ final, pctreeForEachPostOrder 3 smallMemory unlinkAndFree 2 = some ([4, 5, 2], final) := by
  have distinct : smallTree.preOrder.Nodup := by decide
  have ⟨children, found, _, _, visits⟩ :=
    pctreeForEach_subtree smallTree_linked distinct (show 2 ∈ smallTree.preOrder by decide)
  have below : Forest.cons 4 .nil (.cons 5 .nil .nil) = children := Option.some.inj found
  subst below
  have ⟨pre, post⟩ := visits 3 (by decide)
  exact ⟨pre, post _ mayUnlink_leave, post unlinkAndFree mayUnlink_unlinkAndFree⟩

end Bpcp.Purc
