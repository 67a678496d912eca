import Bpcp.Lib.Forest

/-!
# Trees of linked nodes

A node points at its parent, at its first and last child, and at its siblings. The loops over
a subtree keep no stack: the next node is found from the pointers of the current one, downward
to a first child, sideways to a sibling, or upward until a parent has a sibling. Memory that
was freed cannot be read, and the loops inside a function are bounded by a number of rounds.
-/

namespace Bpcp.Purc

open Bpcp.Lib

/-- `struct pctree_node`, the pointers. -/
structure PctreeNode (ι : Type*) where
  /-- `parent`. -/
  parent : Option ι
  /-- `first_child`. -/
  firstChild : Option ι
  /-- `last_child`. -/
  lastChild : Option ι
  /-- `prev`. -/
  prev : Option ι
  /-- `next`. -/
  next : Option ι

/-- The nodes at the addresses, or nothing where memory cannot be read. -/
abbrev TreeMemory (ι : Type*) := ι → Option (PctreeNode ι)

variable {ι : Type*}

/-- The nodes of a forest point at each other, at the parent of its roots and at the sibling in
front of the first root. -/
def Linked (memory : TreeMemory ι) : Option ι → Option ι → Forest ι → Prop
  | _, _, .nil => True
  | parent, prev, .cons root children siblings =>
    memory root = some
      { parent := parent
        firstChild := children.first
        lastChild := children.last
        prev := prev
        next := siblings.first } ∧
    Linked memory (some root) none children ∧ Linked memory parent (some root) siblings

/-! ## The next node -/

variable (bound : ℕ) (memory : TreeMemory ι)

/-- The loop of `pctree_first_post_order`. -/
def descend : ℕ → ι → Option ι
  | 0, _ => none
  | rounds + 1, node => do
    let fields ← memory node
    match fields.firstChild with
    | some child => descend rounds child
    | none => some node

/-- `pctree_first_post_order`. -/
def pctreeFirstPostOrder : Option ι → Option (Option ι)
  | none => some none
  | some node => (descend memory bound node).map some

/-- `pctree_next_post_order`. -/
def pctreeNextPostOrder : Option ι → Option (Option ι)
  | none => some none
  | some node => do
    let fields ← memory node
    match fields.next with
    | some next => pctreeFirstPostOrder bound memory (some next)
    | none => some fields.parent

variable [DecidableEq ι]

/-- The loop of `pctree_next_pre_order`. -/
def climb (top : ι) : ℕ → ι → Option (Option ι)
  | 0, _ => none
  | rounds + 1, node => do
    let fields ← memory node
    match fields.parent with
    | none => some none
    | some parent =>
      if parent = top then some none
      else do
        let parentFields ← memory parent
        match parentFields.next with
        | some next => some (some next)
        | none => climb top rounds parent

/-- `pctree_next_pre_order`. -/
def pctreeNextPreOrder (node : Option ι) (top : ι) : Option (Option ι) :=
  match node with
  | none => some none
  | some node => do
    let fields ← memory node
    match fields.firstChild with
    | some child => some (some child)
    | none =>
      if node = top then some none
      else
        match fields.next with
        | some next => some (some next)
        | none => climb memory top bound node

/-! ## The loops over a subtree -/

/-- The loop of `pctree_for_each_pre_order` from a node on, with the visited nodes. -/
def forEachPreOrder (top : ι) : ℕ → Option ι → Option (List ι)
  | 0, _ => none
  | _ + 1, none => some []
  | rounds + 1, some node => do
    let next ← pctreeNextPreOrder bound memory (some node) top
    let visited ← forEachPreOrder top rounds next
    some (node :: visited)

/-- `pctree_for_each_pre_order` with a body that does not change the tree. -/
def pctreeForEachPreOrder (top : ι) : Option (List ι) :=
  forEachPreOrder bound memory top (bound + 1) (some top)

/-- The loop of `pctree_for_each_post_order` from a node on, with the visited nodes and the
memory that is left. The next node is found before the body runs. -/
def forEachPostOrder (body : TreeMemory ι → ι → TreeMemory ι) (top : ι) :
    ℕ → TreeMemory ι → Option ι → Option (List ι × TreeMemory ι)
  | 0, _, _ => none
  | rounds + 1, memory, node => do
    let next ← if node = some top then some none else pctreeNextPostOrder bound memory node
    match node with
    | none => some ([], memory)
    | some node => do
      let (visited, final) ← forEachPostOrder body top rounds (body memory node) next
      some (node :: visited, final)

/-- `pctree_for_each_post_order` with a body that may change the tree. -/
def pctreeForEachPostOrder (body : TreeMemory ι → ι → TreeMemory ι) (top : ι) :
    Option (List ι × TreeMemory ι) := do
  let first ← pctreeFirstPostOrder bound memory (some top)
  forEachPostOrder bound body top (bound + 1) memory first

variable {bound memory} {parent prev : Option ι} {node : ι} {forest children : Forest ι}

/-- A node of a linked forest points at its first and last child, and its children are linked. -/
theorem Linked.childrenOf (linked : Linked memory parent prev forest)
    (found : forest.childrenOf node = some children) :
    (∃ fields, memory node = some fields ∧ fields.firstChild = children.first ∧
      fields.lastChild = children.last) ∧ Linked memory (some node) none children := by
  induction forest generalizing parent prev with
  | nil => exact absurd found nofun
  | cons root first siblings below behind =>
    rw [Forest.childrenOf] at found
    split_ifs at found with same
    · rw [← Option.some.inj found, ← same]
      exact ⟨⟨_, linked.1, rfl, rfl⟩, linked.2.1⟩
    · rw [Option.or_eq_some_iff] at found
      rcases found with deeper | ⟨_, later⟩
      · exact below linked.2.1 deeper
      · exact behind linked.2.2 later

/-- What a loop over a subtree needs to know: the fields of its node and the forest of the
children, in which the nodes are distinct from each other and from the node. -/
structure Subtree (memory : TreeMemory ι) (node : ι) (fields : PctreeNode ι)
    (children : Forest ι) : Prop where
  /-- The fields of the node. -/
  read : memory node = some fields
  /-- The first child. -/
  firstChild : fields.firstChild = children.first
  /-- The last child. -/
  lastChild : fields.lastChild = children.last
  /-- The nodes below are linked. -/
  linked : Linked memory (some node) none children
  /-- The node is not below itself. -/
  notBelow : node ∉ children.preOrder
  /-- The nodes below are distinct. -/
  distinct : children.preOrder.Nodup

/-- A node of a linked forest of distinct nodes has a subtree. -/
theorem Linked.subtree (linked : Linked memory parent prev forest)
    (distinct : forest.preOrder.Nodup) (inside : node ∈ forest.preOrder) :
    ∃ children fields, forest.childrenOf node = some children ∧
      Subtree memory node fields children := by
  obtain ⟨children, found⟩ := Forest.childrenOf_isSome inside
  obtain ⟨⟨fields, read, first, last⟩, below⟩ := linked.childrenOf found
  have once := (Forest.childrenOf_sublist found).nodup distinct
  obtain ⟨notBelow, distinctBelow⟩ := List.nodup_cons.1 once
  exact ⟨children, fields, found, read, first, last, below, notBelow, distinctBelow⟩

end Bpcp.Purc
