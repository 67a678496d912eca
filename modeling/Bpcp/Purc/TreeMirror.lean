import Bpcp.Purc.TreeLoops

/-!
# The mirrored loops over a subtree

Each loop over a subtree has a twin that goes down to last children and sideways to the
siblings in front. A twin does to a tree what the loop does to the mirrored tree, in which the
two children that a node points at and its two siblings have changed places. The listings of
the mirrored tree are those of the tree backwards, the one in pre-order for the one in
post-order.
-/

namespace Bpcp.Purc

open Bpcp.Lib

variable {ι : Type*}

/-! ## The next node -/

section Loops

variable (bound : ℕ) (memory : TreeMemory ι)

/-- The loop of `pctree_first_post_order_rlt`. -/
def descendRlt : ℕ → ι → Option ι
  | 0, _ => none
  | rounds + 1, node => do
    let fields ← memory node
    match fields.lastChild with
    | some child => descendRlt rounds child
    | none => some node

/-- `pctree_first_post_order_rlt`. -/
def pctreeFirstPostOrderRlt : Option ι → Option (Option ι)
  | none => some none
  | some node => (descendRlt memory bound node).map some

/-- `pctree_next_post_order_rlt`. -/
def pctreeNextPostOrderRlt : Option ι → Option (Option ι)
  | none => some none
  | some node => do
    let fields ← memory node
    match fields.prev with
    | some prev => pctreeFirstPostOrderRlt bound memory (some prev)
    | none => some fields.parent

variable [DecidableEq ι]

/-- The loop of `pctree_next_pre_order_trl`. -/
def climbTrl (top : ι) : ℕ → ι → Option (Option ι)
  | 0, _ => none
  | rounds + 1, node => do
    let fields ← memory node
    match fields.parent with
    | none => some none
    | some parent =>
      if parent = top then some none
      else do
        let parentFields ← memory parent
        match parentFields.prev with
        | some prev => some (some prev)
        | none => climbTrl top rounds parent

/-- `pctree_next_pre_order_trl`. -/
def pctreeNextPreOrderTrl (node : Option ι) (top : ι) : Option (Option ι) :=
  match node with
  | none => some none
  | some node => do
    let fields ← memory node
    match fields.lastChild with
    | some child => some (some child)
    | none =>
      if node = top then some none
      else
        match fields.prev with
        | some prev => some (some prev)
        | none => climbTrl memory top bound node

/-! ## The loops over a subtree -/

/-- The loop of `pctree_for_each_pre_order_trl` from a node on, with the visited nodes. -/
def forEachPreOrderTrl (top : ι) : ℕ → Option ι → Option (List ι)
  | 0, _ => none
  | _ + 1, none => some []
  | rounds + 1, some node => do
    let next ← pctreeNextPreOrderTrl bound memory (some node) top
    let visited ← forEachPreOrderTrl top rounds next
    some (node :: visited)

/-- `pctree_for_each_pre_order_trl` with a body that does not change the tree. -/
def pctreeForEachPreOrderTrl (top : ι) : Option (List ι) :=
  forEachPreOrderTrl bound memory top (bound + 1) (some top)

/-- The loop of `pctree_for_each_post_order_rlt` from a node on, with the visited nodes and the
memory that is left. The next node is found before the body runs. -/
def forEachPostOrderRlt (body : TreeMemory ι → ι → TreeMemory ι) (top : ι) :
    ℕ → TreeMemory ι → Option ι → Option (List ι × TreeMemory ι)
  | 0, _, _ => none
  | rounds + 1, memory, node => do
    let next ← if node = some top then some none else pctreeNextPostOrderRlt bound memory node
    match node with
    | none => some ([], memory)
    | some node => do
      let (visited, final) ← forEachPostOrderRlt body top rounds (body memory node) next
      some (node :: visited, final)

/-- `pctree_for_each_post_order_rlt` with a body that may change the tree. -/
def pctreeForEachPostOrderRlt (body : TreeMemory ι → ι → TreeMemory ι) (top : ι) :
    Option (List ι × TreeMemory ι) := do
  let first ← pctreeFirstPostOrderRlt bound memory (some top)
  forEachPostOrderRlt bound body top (bound + 1) memory first

end Loops

/-! ## Mirrored memory -/

/-- A node whose children and siblings have changed places. -/
def PctreeNode.mirror (fields : PctreeNode ι) : PctreeNode ι where
  parent := fields.parent
  firstChild := fields.lastChild
  lastChild := fields.firstChild
  prev := fields.next
  next := fields.prev

/-- The memory with all nodes mirrored. -/
def mirrorMemory (memory : TreeMemory ι) : TreeMemory ι :=
  fun node => (memory node).map PctreeNode.mirror

/-- A body on mirrored memory. -/
def mirrorBody (body : TreeMemory ι → ι → TreeMemory ι) (memory : TreeMemory ι) (node : ι) :
    TreeMemory ι := mirrorMemory (body (mirrorMemory memory) node)

variable {bound : ℕ} {memory : TreeMemory ι} {parent prev : Option ι} {top node : ι}
  {forest others children : Forest ι}

/-- A memory is the mirrored one of its mirrored one. -/
@[simp] theorem mirrorMemory_mirrorMemory (memory : TreeMemory ι) :
    mirrorMemory (mirrorMemory memory) = memory := by
  funext node
  rw [mirrorMemory, mirrorMemory, Option.map_map]
  exact Option.map_id'

/-- A node is read from mirrored memory as its mirrored fields. -/
theorem mirrorMemory_read {fields : PctreeNode ι} (read : memory node = some fields) :
    mirrorMemory memory node = some fields.mirror := by
  rw [mirrorMemory, read, Option.map_some]

/-- A node that is not in memory is not in mirrored memory. -/
theorem mirrorMemory_none (absent : memory node = none) : mirrorMemory memory node = none := by
  rw [mirrorMemory, absent, Option.map_none]

/-- Linked trees in front of others that are linked in mirrored memory are linked there when
they are mirrored. -/
theorem Linked.mirrorOnto (linked : Linked memory parent prev forest)
    (front : prev = others.first)
    (behind : Linked (mirrorMemory memory) parent forest.first others) :
    Linked (mirrorMemory memory) parent none (forest.mirrorOnto others) := by
  induction forest generalizing parent prev others with
  | nil => exact behind
  | cons root children siblings ihBelow ihBehind =>
    obtain ⟨read, linkedBelow, linkedBehind⟩ := linked
    have below : Linked (mirrorMemory memory) (some root) none (children.mirrorOnto .nil) :=
      ihBelow linkedBelow rfl trivial
    apply ihBehind linkedBehind rfl
    refine ⟨?_, below, behind⟩
    rw [mirrorMemory_read read, front]
    have firstChild : (children.mirrorOnto .nil).first = children.last := children.first_mirror
    have lastChild : (children.mirrorOnto .nil).last = children.first := children.last_mirror
    rw [firstChild, lastChild]
    rfl

/-- A linked forest is linked in mirrored memory when it is mirrored. -/
theorem Linked.mirror (linked : Linked memory parent none forest) :
    Linked (mirrorMemory memory) parent none forest.mirror :=
  linked.mirrorOnto rfl trivial

/-! ## A twin is the loop over mirrored memory -/

/-- Descending to last children is descending in mirrored memory. -/
theorem descendRlt_eq (rounds : ℕ) (node : ι) :
    descendRlt memory rounds node = descend (mirrorMemory memory) rounds node := by
  induction rounds generalizing node with
  | zero => rfl
  | succ rounds ih =>
    rw [descendRlt, descend, mirrorMemory]
    cases memory node with
    | none => rfl
    | some fields =>
      simp only [Option.bind_eq_bind, Option.bind_some, Option.map_some, PctreeNode.mirror]
      cases fields.lastChild with
      | none => rfl
      | some child => exact ih child

/-- The first node of the twin is the first node in mirrored memory. -/
theorem pctreeFirstPostOrderRlt_eq (node : Option ι) :
    pctreeFirstPostOrderRlt bound memory node =
      pctreeFirstPostOrder bound (mirrorMemory memory) node := by
  cases node with
  | none => rfl
  | some node => rw [pctreeFirstPostOrderRlt, pctreeFirstPostOrder, descendRlt_eq]

/-- The next node of the twin is the next node in mirrored memory. -/
theorem pctreeNextPostOrderRlt_eq (node : Option ι) :
    pctreeNextPostOrderRlt bound memory node =
      pctreeNextPostOrder bound (mirrorMemory memory) node := by
  cases node with
  | none => rfl
  | some node =>
    rw [pctreeNextPostOrderRlt, pctreeNextPostOrder]
    cases read : memory node with
    | none =>
      rw [mirrorMemory_none read]
      rfl
    | some fields =>
      rw [mirrorMemory_read read]
      simp only [Option.bind_eq_bind, Option.bind_some, PctreeNode.mirror]
      cases fields.prev with
      | none => rfl
      | some sibling => exact pctreeFirstPostOrderRlt_eq _

/-- A body that leaves the tree alone leaves the mirrored tree alone. -/
theorem mirrorBody_leave :
    (mirrorBody fun (memory : TreeMemory ι) (_ : ι) => memory) = fun memory _ => memory := by
  funext memory node
  exact mirrorMemory_mirrorMemory memory

variable [DecidableEq ι]

/-- Climbing to siblings in front is climbing in mirrored memory. -/
theorem climbTrl_eq (rounds : ℕ) (node : ι) :
    climbTrl memory top rounds node = climb (mirrorMemory memory) top rounds node := by
  induction rounds generalizing node with
  | zero => rfl
  | succ rounds ih =>
    rw [climbTrl, climb]
    cases read : memory node with
    | none =>
      rw [mirrorMemory_none read]
      rfl
    | some fields =>
      rw [mirrorMemory_read read]
      simp only [Option.bind_eq_bind, Option.bind_some, PctreeNode.mirror]
      cases fields.parent with
      | none => rfl
      | some parent =>
        dsimp only
        by_cases same : parent = top
        · rw [if_pos same, if_pos same]
        · rw [if_neg same, if_neg same]
          cases above : memory parent with
          | none =>
            rw [mirrorMemory_none above]
            rfl
          | some parentFields =>
            rw [mirrorMemory_read above]
            simp only [Option.bind_some, PctreeNode.mirror]
            cases parentFields.prev with
            | none => exact ih parent
            | some sibling => rfl

/-- The next node of the twin is the next node in mirrored memory. -/
theorem pctreeNextPreOrderTrl_eq (node : Option ι) :
    pctreeNextPreOrderTrl bound memory node top =
      pctreeNextPreOrder bound (mirrorMemory memory) node top := by
  cases node with
  | none => rfl
  | some node =>
    rw [pctreeNextPreOrderTrl, pctreeNextPreOrder]
    cases read : memory node with
    | none =>
      rw [mirrorMemory_none read]
      rfl
    | some fields =>
      simp only [mirrorMemory_read read, Option.bind_eq_bind, Option.bind_some,
        PctreeNode.mirror]
      cases fields.lastChild with
      | some child => rfl
      | none =>
        dsimp only
        by_cases same : node = top
        · rw [if_pos same, if_pos same]
        · rw [if_neg same, if_neg same]
          cases fields.prev with
          | some sibling => rfl
          | none => exact climbTrl_eq bound node

/-- The twin of the loop in pre-order visits what the loop visits in mirrored memory. -/
theorem forEachPreOrderTrl_eq (rounds : ℕ) (node : Option ι) :
    forEachPreOrderTrl bound memory top rounds node =
      forEachPreOrder bound (mirrorMemory memory) top rounds node := by
  induction rounds generalizing node with
  | zero => rfl
  | succ rounds ih =>
    cases node with
    | none => rfl
    | some node =>
      rw [forEachPreOrderTrl, forEachPreOrder, pctreeNextPreOrderTrl_eq]
      simp only [ih]

/-- The twin of the loop in post-order visits what the loop visits in mirrored memory with the
body there. -/
theorem forEachPostOrderRlt_eq (body : TreeMemory ι → ι → TreeMemory ι) (rounds : ℕ)
    (memory : TreeMemory ι) (node : Option ι) :
    forEachPostOrderRlt bound body top rounds memory node =
      (forEachPostOrder bound (mirrorBody body) top rounds (mirrorMemory memory) node).map
        fun result => (result.1, mirrorMemory result.2) := by
  induction rounds generalizing memory node with
  | zero => rfl
  | succ rounds ih =>
    cases node with
    | none =>
      have apart : ¬none = some top := nofun
      rw [forEachPostOrderRlt, forEachPostOrder, if_neg apart, if_neg apart,
        pctreeNextPostOrderRlt_eq]
      simp only [pctreeNextPostOrder, Option.bind_eq_bind, Option.bind_some, Option.map_some,
        mirrorMemory_mirrorMemory]
    | some node =>
      -- The next node is found before the body runs, and the rest goes on from there.
      have inner : mirrorBody body (mirrorMemory memory) node =
          mirrorMemory (body memory node) := by rw [mirrorBody, mirrorMemory_mirrorMemory]
      rw [forEachPostOrderRlt, forEachPostOrder, pctreeNextPostOrderRlt_eq]
      simp only [Option.bind_eq_bind, Option.bind_some, ih, inner]
      by_cases same : some node = some top
      · rw [if_pos same, if_pos same]
        cases forEachPostOrder bound (mirrorBody body) top rounds
          (mirrorMemory (body memory node)) none with
        | none => rfl
        | some result => rfl
      · rw [if_neg same, if_neg same]
        cases pctreeNextPostOrder bound (mirrorMemory memory) (some node) with
        | none => rfl
        | some next =>
          simp only [Option.bind_some]
          cases forEachPostOrder bound (mirrorBody body) top rounds
            (mirrorMemory (body memory node)) next with
          | none => rfl
          | some result => rfl

/-! ## The order of the twins -/

/-- The twin of the loop in pre-order visits a node and the nodes below it in post-order
backwards, and stops. -/
theorem pctreeForEachPreOrderTrl_eq {fields : PctreeNode ι} (read : memory top = some fields)
    (child : fields.lastChild = children.last)
    (linked : Linked memory (some top) none children) (notTop : top ∉ children.preOrder)
    (enough : children.size < bound) :
    pctreeForEachPreOrderTrl bound memory top = some (children.postOrder ++ [top]).reverse := by
  have mirrored : pctreeForEachPreOrder bound (mirrorMemory memory) top =
      some (top :: children.mirror.preOrder) := pctreeForEachPreOrder_eq (mirrorMemory_read read)
    (child.trans children.first_mirror.symm) linked.mirror
    (by simpa [children.postOrder_perm.mem_iff] using notTop) (by simpa using enough)
  rw [pctreeForEachPreOrderTrl, forEachPreOrderTrl_eq]
  rw [pctreeForEachPreOrder] at mirrored
  rw [mirrored, Forest.preOrder_mirror, List.reverse_append, List.reverse_singleton]
  rfl

/-- The twin of the loop in post-order visits the nodes below a node and the node in pre-order
backwards, and stops. -/
theorem pctreeForEachPostOrderRlt_eq {body : TreeMemory ι → ι → TreeMemory ι}
    (mayUnlink : MayUnlink (mirrorBody body)) {fields : PctreeNode ι}
    (read : memory top = some fields) (child : fields.lastChild = children.last)
    (linked : Linked memory (some top) none children) (notTop : top ∉ children.preOrder)
    (distinct : children.preOrder.Nodup) (enough : children.size < bound) :
    ∃ final, pctreeForEachPostOrderRlt bound memory body top =
      some ((top :: children.preOrder).reverse, final) := by
  have distinctMirror : children.mirror.preOrder.Nodup := by
    rw [Forest.preOrder_mirror, List.nodup_reverse, children.postOrder_perm.nodup_iff]
    exact distinct
  obtain ⟨final, mirrored⟩ : ∃ final,
      pctreeForEachPostOrder bound (mirrorMemory memory) (mirrorBody body) top =
        some (children.mirror.postOrder ++ [top], final) := pctreeForEachPostOrder_eq mayUnlink
    (mirrorMemory_read read) (child.trans children.first_mirror.symm) linked.mirror
    (by simpa [children.postOrder_perm.mem_iff] using notTop) distinctMirror
    (by simpa using enough)
  refine ⟨mirrorMemory final, ?_⟩
  rw [pctreeForEachPostOrder] at mirrored
  rw [pctreeForEachPostOrderRlt, pctreeFirstPostOrderRlt_eq]
  cases first : pctreeFirstPostOrder bound (mirrorMemory memory) (some top) with
  | none =>
    rw [first] at mirrored
    simp at mirrored
  | some leaf =>
    rw [first] at mirrored
    simp only [Option.bind_eq_bind, Option.bind_some] at mirrored ⊢
    rw [forEachPostOrderRlt_eq, mirrored, Option.map_some, Forest.postOrder_mirror,
      List.reverse_cons]

/-- Unlinking and freeing a node is the same for the mirrored tree. -/
theorem mirrorBody_unlinkAndFree :
    mirrorBody (unlinkAndFree : TreeMemory ι → ι → TreeMemory ι) = unlinkAndFree := by
  funext memory node
  rw [mirrorBody, unlinkAndFree, unlinkAndFree]
  cases read : memory node with
  | none =>
    rw [mirrorMemory_none read]
    exact mirrorMemory_mirrorMemory memory
  | some fields =>
    rw [mirrorMemory_read read]
    funext other
    by_cases same : other = node
    · simp only [mirrorMemory, if_pos same, Option.map_none]
    · cases near : memory other with
      | none => simp only [mirrorMemory, near, if_neg same, Option.map_none]
      | some near =>
        simp only [mirrorMemory, near, if_neg same, Option.map_some, PctreeNode.mirror]
        rfl

/-- For every node of a well-linked tree, the twin of the loop in pre-order visits the nodes of
the subtree as the loop in post-order does, backwards, and the twin of the loop in post-order
visits them as the loop in pre-order does, backwards. -/
theorem pctreeForEach_reversed {tree : Forest ι} (linked : Linked memory none none tree)
    (distinct : tree.preOrder.Nodup) (inside : top ∈ tree.preOrder) :
    ∃ children, tree.childrenOf top = some children ∧ ∀ bound > children.size, ∃ pre post,
      pctreeForEachPreOrder bound memory top = some pre ∧
      (∀ body, MayUnlink body →
        ∃ final, pctreeForEachPostOrder bound memory body top = some (post, final)) ∧
      pctreeForEachPreOrderTrl bound memory top = some post.reverse ∧
      ∀ body, MayUnlink (mirrorBody body) →
        ∃ final, pctreeForEachPostOrderRlt bound memory body top = some (pre.reverse, final) := by
  obtain ⟨children, fields, found, below⟩ := linked.subtree distinct inside
  refine ⟨children, found, fun bound enough => ⟨top :: children.preOrder,
    children.postOrder ++ [top], ?_, ?_, ?_, ?_⟩⟩
  · exact pctreeForEachPreOrder_eq below.read below.firstChild below.linked below.notBelow enough
  · intro body mayUnlink
    exact pctreeForEachPostOrder_eq mayUnlink below.read below.firstChild below.linked
      below.notBelow below.distinct enough
  · exact pctreeForEachPreOrderTrl_eq below.read below.lastChild below.linked below.notBelow enough
  · intro body mayUnlink
    exact pctreeForEachPostOrderRlt_eq mayUnlink below.read below.lastChild below.linked
      below.notBelow below.distinct enough

/-- The twins visit the small tree backwards, also when its nodes are unlinked and freed. -/
theorem pctreeForEach_reversed_small :
    pctreeForEachPreOrderTrl 6 smallMemory 1 = some [1, 3, 2, 5, 4] ∧
      (∃ final, pctreeForEachPostOrderRlt 6 smallMemory (fun memory _ => memory) 1 =
        some ([3, 5, 4, 2, 1], final)) ∧
      ∃ final, pctreeForEachPostOrderRlt 6 smallMemory unlinkAndFree 1 =
        some ([3, 5, 4, 2, 1], final) := by
  have distinct : smallTree.preOrder.Nodup := by decide
  obtain ⟨children, found, visits⟩ :=
    pctreeForEach_reversed smallTree_linked distinct (show 1 ∈ smallTree.preOrder by decide)
  have below : Forest.cons 2 (.cons 4 .nil (.cons 5 .nil .nil)) (.cons 3 .nil .nil) = children :=
    Option.some.inj found
  subst below
  obtain ⟨pre, post, preOrder, postOrder, trl, rlt⟩ := visits 6 (by decide)
  have forward : [1, 2, 4, 5, 3] = pre := Option.some.inj preOrder
  obtain ⟨final, visited⟩ := postOrder _ mayUnlink_leave
  have upward : [4, 5, 2, 3, 1] = post := congrArg Prod.fst (Option.some.inj visited)
  subst forward upward
  refine ⟨trl, rlt _ ?_, rlt unlinkAndFree ?_⟩
  · rw [mirrorBody_leave]
    exact mayUnlink_leave
  · rw [mirrorBody_unlinkAndFree]
    exact mayUnlink_unlinkAndFree

end Bpcp.Purc
