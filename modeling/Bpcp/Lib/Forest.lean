import Mathlib

/-!
# Ordered forests

A forest is empty, or a first tree with its root and the forest of its children, followed by
the forest of the trees behind it. So one induction runs over the depth and the width of a
tree. A forest is listed with each root before its children or behind them.
-/

namespace Bpcp.Lib

/-- A list of trees. -/
inductive Forest (α : Type*) where
  /-- No trees. -/
  | nil
  /-- A tree and the trees behind it. -/
  | cons (root : α) (children siblings : Forest α)

namespace Forest

variable {α : Type*}

/-- The nodes, each before its children. -/
def preOrder : Forest α → List α
  | nil => []
  | cons root children siblings => root :: (children.preOrder ++ siblings.preOrder)

/-- The nodes, each behind its children. -/
def postOrder : Forest α → List α
  | nil => []
  | cons root children siblings => children.postOrder ++ root :: siblings.postOrder

/-- The number of nodes. -/
def size : Forest α → ℕ
  | nil => 0
  | cons _ children siblings => children.size + siblings.size + 1

/-- The root of the first tree. -/
def first : Forest α → Option α
  | nil => none
  | cons root _ _ => some root

/-- The root of the last tree. -/
def last : Forest α → Option α
  | nil => none
  | cons root _ siblings => some (siblings.last.getD root)

/-- The first node of the listing with each root behind its children. -/
def firstLeaf : Forest α → Option α
  | nil => none
  | cons root children _ => some (children.firstLeaf.getD root)

/-- The children of the first occurrence of a node. -/
def childrenOf [DecidableEq α] : Forest α → α → Option (Forest α)
  | nil, _ => none
  | cons root children siblings, node =>
    if root = node then some children
    else (children.childrenOf node).or (siblings.childrenOf node)

variable {node : α} {forest : Forest α}

/-- Both listings have the same nodes, equally often. -/
theorem postOrder_perm (forest : Forest α) : forest.postOrder.Perm forest.preOrder := by
  induction forest with
  | nil => exact List.Perm.refl _
  | cons root children siblings below behind =>
    exact List.perm_middle.trans ((below.append behind).cons root)

/-- The root of the first tree is a node. -/
theorem first_mem (first : forest.first = some node) : node ∈ forest.preOrder := by
  cases forest with
  | nil => exact absurd first nofun
  | cons root children siblings =>
    rw [← Option.some.inj first]
    exact List.mem_cons_self

/-- The size counts the nodes of a listing. -/
theorem size_eq_length (forest : Forest α) : forest.size = forest.preOrder.length := by
  induction forest with
  | nil => rfl
  | cons root children siblings below behind =>
    rw [size, preOrder, List.length_cons, List.length_append, below, behind]

/-! ## Paths downward -/

/-- The number of nodes on a longest path downward. -/
def height : Forest α → ℕ
  | nil => 0
  | cons _ children siblings => max (children.height + 1) siblings.height

/-- A path downward from one of the roots: each node behind the first one is a child of the node
in front of it. -/
inductive Descends : Forest α → List α → Prop where
  /-- The path is at its end. -/
  | stop (forest : Forest α) : Descends forest []
  /-- The path goes down to the first root. -/
  | down {root : α} {children siblings : Forest α} {path : List α} :
    Descends children path → Descends (cons root children siblings) (root :: path)
  /-- The path goes down to another root. -/
  | aside {root : α} {children siblings : Forest α} {path : List α} :
    Descends siblings path → Descends (cons root children siblings) path

/-- No path has more nodes than the height says. -/
theorem Descends.length_le {path : List α} (descends : forest.Descends path) :
    path.length ≤ forest.height := by
  induction descends with
  | stop forest => exact Nat.zero_le _
  | down _ below => exact (Nat.succ_le_succ below).trans (le_max_left ..)
  | aside _ behind => exact behind.trans (le_max_right ..)

/-- There is a path with so many nodes. -/
theorem exists_descends (forest : Forest α) :
    ∃ path, forest.Descends path ∧ path.length = forest.height := by
  induction forest with
  | nil => exact ⟨[], .stop nil, rfl⟩
  | cons root children siblings below behind =>
    obtain ⟨deep, descends, length⟩ := below
    obtain ⟨other, descendsAside, lengthAside⟩ := behind
    rw [height]
    rcases le_total (children.height + 1) siblings.height with less | more
    · rw [max_eq_right less]
      exact ⟨other, descendsAside.aside, lengthAside⟩
    · rw [max_eq_left more]
      exact ⟨root :: deep, descends.down, congrArg Nat.succ length⟩

/-- Below a node, the longest path from the node has one node more than the height of its
children. -/
theorem height_isGreatest (node : α) (children : Forest α) :
    IsGreatest {count | ∃ path, children.Descends path ∧ (node :: path).length = count}
      (children.height + 1) := by
  constructor
  · obtain ⟨path, descends, length⟩ := children.exists_descends
    exact ⟨path, descends, congrArg Nat.succ length⟩
  · rintro count ⟨path, descends, rfl⟩
    exact Nat.succ_le_succ descends.length_le

/-! ## Mirrored forests -/

/-- The mirrored trees of a forest in front of others. -/
def mirrorOnto : Forest α → Forest α → Forest α
  | nil, others => others
  | cons root children siblings, others =>
    siblings.mirrorOnto (cons root (children.mirrorOnto nil) others)

/-- The forest with the trees in reverse order at every depth. -/
def mirror (forest : Forest α) : Forest α := forest.mirrorOnto nil

/-- Mirrored trees are listed in pre-order as the trees are in post-order, backwards. -/
theorem preOrder_mirrorOnto (forest others : Forest α) :
    (forest.mirrorOnto others).preOrder = forest.postOrder.reverse ++ others.preOrder := by
  induction forest generalizing others with
  | nil => rfl
  | cons root children siblings below behind =>
    rw [mirrorOnto, behind, preOrder, below, postOrder, preOrder]
    simp

/-- Mirrored trees are listed in post-order as the trees are in pre-order, backwards. -/
theorem postOrder_mirrorOnto (forest others : Forest α) :
    (forest.mirrorOnto others).postOrder = forest.preOrder.reverse ++ others.postOrder := by
  induction forest generalizing others with
  | nil => rfl
  | cons root children siblings below behind =>
    rw [mirrorOnto, behind, postOrder, below, preOrder, postOrder]
    simp

/-- The pre-order of a mirrored forest is the post-order backwards. -/
@[simp] theorem preOrder_mirror (forest : Forest α) :
    forest.mirror.preOrder = forest.postOrder.reverse := by
  rw [mirror, preOrder_mirrorOnto]
  exact List.append_nil _

/-- The post-order of a mirrored forest is the pre-order backwards. -/
@[simp] theorem postOrder_mirror (forest : Forest α) :
    forest.mirror.postOrder = forest.preOrder.reverse := by
  rw [mirror, postOrder_mirrorOnto]
  exact List.append_nil _

/-- A mirrored forest has as many nodes. -/
@[simp] theorem size_mirror (forest : Forest α) : forest.mirror.size = forest.size := by
  rw [size_eq_length, size_eq_length, preOrder_mirror, List.length_reverse]
  exact forest.postOrder_perm.length_eq

/-- Mirrored trees begin with the last tree. -/
theorem first_mirrorOnto (forest others : Forest α) :
    (forest.mirrorOnto others).first = forest.last.or others.first := by
  induction forest generalizing others with
  | nil => rfl
  | cons root children siblings below behind =>
    rw [mirrorOnto, behind, last, first]
    cases siblings.last with
    | none => rfl
    | some other => rfl

/-- Mirrored trees end with the first tree, unless others are behind them. -/
theorem last_mirrorOnto (forest others : Forest α) :
    (forest.mirrorOnto others).last = others.last.or forest.first := by
  induction forest generalizing others with
  | nil => exact (Option.or_none).symm
  | cons root children siblings below behind =>
    rw [mirrorOnto, behind, last, first]
    cases others.last with
    | none => rfl
    | some other => rfl

/-- The first root of a mirrored forest is the last root. -/
@[simp] theorem first_mirror (forest : Forest α) : forest.mirror.first = forest.last := by
  rw [mirror, first_mirrorOnto]
  exact Option.or_none

/-- The last root of a mirrored forest is the first root. -/
@[simp] theorem last_mirror (forest : Forest α) : forest.mirror.last = forest.first := by
  rw [mirror, last_mirrorOnto]
  rfl

/-! ## Subtrees -/

variable [DecidableEq α]

/-- Every node has children, which may be none. -/
theorem childrenOf_isSome (inside : node ∈ forest.preOrder) :
    ∃ children, forest.childrenOf node = some children := by
  induction forest with
  | nil => exact absurd inside List.not_mem_nil
  | cons root children siblings below behind =>
    rw [childrenOf]
    split_ifs with same
    · exact ⟨children, rfl⟩
    · rcases List.mem_cons.1 inside with self | inside
      · exact absurd self.symm same
      · rcases List.mem_append.1 inside with deeper | later
        · obtain ⟨found, equal⟩ := below deeper
          exact ⟨found, by rw [equal, Option.some_or]⟩
        · obtain ⟨found, equal⟩ := behind later
          cases earlier : children.childrenOf node with
          | none => exact ⟨found, by rw [equal, Option.none_or]⟩
          | some other => exact ⟨other, rfl⟩

/-- A node and what is below it are a part of the listing. -/
theorem childrenOf_sublist {children : Forest α} (found : forest.childrenOf node = some children) :
    (node :: children.preOrder).Sublist forest.preOrder := by
  induction forest with
  | nil => exact absurd found nofun
  | cons root first siblings below behind =>
    rw [childrenOf] at found
    split_ifs at found with same
    · rw [← Option.some.inj found, ← same]
      exact (List.sublist_append_left _ _).cons_cons root
    · rw [Option.or_eq_some_iff] at found
      rcases found with deeper | ⟨_, later⟩
      · exact ((below deeper).trans (List.sublist_append_left _ _)).cons root
      · exact ((behind later).trans (List.sublist_append_right _ _)).cons root

end Forest

end Bpcp.Lib
