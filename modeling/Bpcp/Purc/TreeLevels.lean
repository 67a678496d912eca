import Bpcp.Purc.TreeLoops

/-!
# The levels of a tree

`pctree_levels` goes through a subtree in post-order. From each node it climbs along the parents
up to the top and counts the nodes on the way, in the variable that the loop runs over: the loop
goes on with the next node all the same, because that was found before. Nodes outside the subtree
are never visited, so that every climb comes to the top.
-/

namespace Bpcp.Purc

open Bpcp.Lib

variable {ι : Type} [DecidableEq ι]

/-- The inner loop of `pctree_levels`, from a node with the count so far. -/
def climbToTop (memory : TreeMemory ι) (top : ι) : ℕ → ι → ℕ → Option ℕ
  | 0, _, _ => none
  | rounds + 1, node, level =>
    if node = top then some level
    else do
      let fields ← memory node
      let parent ← fields.parent
      climbToTop memory top rounds parent (level + 1)

/-- The body of `pctree_levels`. -/
def updateLevels (bound : ℕ) (memory : TreeMemory ι) (top : ι) (lvls : ℕ) (node : ι) :
    Option ℕ := do
  let level ← climbToTop memory top bound node 1
  some (if level > lvls then level else lvls)

/-- The loop of `pctree_levels` from a node on. -/
def levelsLoop (bound : ℕ) (memory : TreeMemory ι) (top : ι) : ℕ → Option ι → ℕ → Option ℕ
  | 0, _, _ => none
  | rounds + 1, node, lvls => do
    let next ← if node = some top then some none else pctreeNextPostOrder bound memory node
    match node with
    | none => some lvls
    | some node => do
      let lvls ← updateLevels bound memory top lvls node
      levelsLoop bound memory top rounds next lvls

/-- `pctree_levels`. -/
def pctreeLevels (bound : ℕ) (memory : TreeMemory ι) (top : ι) : Option ℕ := do
  let first ← pctreeFirstPostOrder bound memory (some top)
  levelsLoop bound memory top (bound + 1) first 1

variable {bound : ℕ} {memory : TreeMemory ι} {top node parent : ι} {prev : Option ι}
  {forest : Forest ι}

/-- The loop runs its body for each node that the loop in post-order visits. -/
theorem levelsLoop_eq (rounds : ℕ) (node : Option ι) (lvls : ℕ) :
    levelsLoop bound memory top rounds node lvls =
      (forEachPostOrder bound (fun memory _ => memory) top rounds memory node).bind fun result =>
        result.1.foldlM (updateLevels bound memory top) lvls := by
  induction rounds generalizing node lvls with
  | zero => rfl
  | succ rounds ih =>
    have goOn (node : ι) (next : Option ι) :
        ((updateLevels bound memory top lvls node).bind fun lvls =>
          levelsLoop bound memory top rounds next lvls) =
        ((forEachPostOrder bound (fun memory _ => memory) top rounds memory next).bind
          fun result => some (node :: result.1, result.2)).bind
            fun result => result.1.foldlM (updateLevels bound memory top) lvls := by
      simp only [ih]
      cases forEachPostOrder bound (fun memory _ => memory) top rounds memory next with
      | none => cases updateLevels bound memory top lvls node <;> rfl
      | some result => rfl
    rw [levelsLoop, forEachPostOrder]
    cases node with
    | none => rfl
    | some node =>
      split_ifs
      · exact goOn node none
      · cases pctreeNextPostOrder bound memory (some node) with
        | none => rfl
        | some next => exact goOn node next

/-- `pctree_levels` runs its body for each node that the loop in post-order visits. -/
theorem pctreeLevels_eq :
    pctreeLevels bound memory top =
      (pctreeForEachPostOrder bound memory (fun memory _ => memory) top).bind fun result =>
        result.1.foldlM (updateLevels bound memory top) 1 := by
  unfold pctreeLevels pctreeForEachPostOrder
  cases pctreeFirstPostOrder bound memory (some top) with
  | none => rfl
  | some first => exact levelsLoop_eq (bound + 1) first 1

/-- Climbing from a node comes to the top in a number of steps. -/
def ClimbsIn (memory : TreeMemory ι) (top node : ι) (steps : ℕ) : Prop :=
  ∀ rounds level, steps < rounds → climbToTop memory top rounds node level = some (level + steps)

/-- At the top the climb is at its end. -/
theorem climbsIn_top : ClimbsIn memory top top 0 := by
  intro rounds level enough
  obtain ⟨rounds, rfl⟩ := Nat.exists_eq_add_of_lt enough
  rw [climbToTop, if_pos rfl]
  rfl

/-- From a child the climb takes one step more. -/
theorem ClimbsIn.child {fields : PctreeNode ι} {steps : ℕ}
    (climbs : ClimbsIn memory top parent steps) (read : memory node = some fields)
    (up : fields.parent = some parent) (below : node ≠ top) :
    ClimbsIn memory top node (steps + 1) := by
  intro rounds level enough
  obtain ⟨more, rfl⟩ := Nat.exists_eq_add_of_lt enough
  rw [climbToTop, if_neg below, read]
  show (fields.parent >>= fun parent => _) = _
  rw [up]
  show climbToTop _ _ _ parent (level + 1) = _
  rw [climbs _ _ (by omega)]
  exact congrArg some (by omega)

/-- Every climb from a node below the parent of a forest comes to the top when the climb from the
parent does. -/
theorem Linked.climbs {steps : ℕ} (linked : Linked memory (some parent) prev forest)
    (climbs : ClimbsIn memory top parent steps) (notTop : top ∉ forest.preOrder) :
    ∀ node ∈ forest.preOrder, ∃ more ≤ forest.size, ClimbsIn memory top node (steps + more) := by
  induction forest generalizing parent prev steps with
  | nil => exact fun node inside => absurd inside List.not_mem_nil
  | cons root children siblings below behind =>
    obtain ⟨read, linkedBelow, linkedBehind⟩ := linked
    rw [Forest.preOrder, List.mem_cons, List.mem_append, not_or, not_or] at notTop
    have fromRoot := climbs.child read rfl (Ne.symm notTop.1)
    intro node inside
    rw [Forest.size]
    rcases List.mem_cons.1 inside with rfl | inside
    · exact ⟨1, by omega, fromRoot⟩
    · rcases List.mem_append.1 inside with deeper | later
      · obtain ⟨more, few, found⟩ := below linkedBelow fromRoot notTop.2.1 node deeper
        refine ⟨1 + more, by omega, ?_⟩
        rwa [← Nat.add_assoc]
      · obtain ⟨more, few, found⟩ := behind linkedBehind climbs notTop.2.2 node later
        exact ⟨more, by omega, found⟩

/-- The body takes the greater one of the levels so far and the level of its node. -/
theorem ClimbsIn.updateLevels_eq {steps : ℕ} (climbs : ClimbsIn memory top node steps)
    (enough : steps < bound) (lvls : ℕ) :
    updateLevels bound memory top lvls node = some (max lvls (steps + 1)) := by
  rw [updateLevels, climbs bound 1 enough]
  show some (if 1 + steps > lvls then 1 + steps else lvls) = _
  apply congrArg some
  split_ifs with more
  · rw [max_eq_right (by omega), Nat.add_comm]
  · rw [max_eq_left (by omega)]

/-- Over the nodes of a forest and its parent the levels come to the height of the forest, counted
from the level of the parent. -/
theorem foldlM_updateLevels {steps : ℕ} (linked : Linked memory (some parent) prev forest)
    (climbs : ClimbsIn memory top parent steps) (notTop : top ∉ forest.preOrder)
    (enough : steps + forest.size < bound) (lvls : ℕ) :
    (forest.postOrder ++ [parent]).foldlM (updateLevels bound memory top) lvls =
      some (max lvls (forest.height + (steps + 1))) := by
  induction forest generalizing parent prev steps lvls with
  | nil =>
    show (updateLevels bound memory top lvls parent >>= _) = _
    rw [climbs.updateLevels_eq (by omega), Forest.height, Nat.zero_add]
    rfl
  | cons root children siblings below behind =>
    obtain ⟨read, linkedBelow, linkedBehind⟩ := linked
    rw [Forest.preOrder, List.mem_cons, List.mem_append, not_or, not_or] at notTop
    rw [Forest.size] at enough
    have fromRoot := climbs.child read rfl (Ne.symm notTop.1)
    have first := below linkedBelow fromRoot notTop.2.1 (by omega) lvls
    have second := behind linkedBehind climbs notTop.2.2 (by omega)
    rw [Forest.postOrder, List.append_assoc, List.cons_append, List.append_cons,
      List.foldlM_append, first]
    show (siblings.postOrder ++ [parent]).foldlM _ _ = _
    rw [second, Forest.height]
    exact congrArg some (by omega)

/-- `pctree_levels` computes the height. For every node of a well-linked tree the climb from each
node of its subtree comes to the node, and the number of levels is the number of nodes on a longest
path downward from the node: one more than the height of the forest of its children. -/
theorem pctreeLevels_height {tree : Forest ι} (linked : Linked memory none none tree)
    (distinct : tree.preOrder.Nodup) (inside : top ∈ tree.preOrder) :
    ∃ children, tree.childrenOf top = some children ∧
      IsGreatest {count | ∃ path, children.Descends path ∧ (top :: path).length = count}
        (children.height + 1) ∧
      ∀ bound > children.size,
        (∀ node ∈ top :: children.preOrder, ∃ level,
          climbToTop memory top bound node 1 = some level) ∧
        pctreeLevels bound memory top = some (children.height + 1) := by
  obtain ⟨children, fields, found, below⟩ := linked.subtree distinct inside
  refine ⟨children, found, Forest.height_isGreatest top children, fun bound enough => ⟨?_, ?_⟩⟩
  · intro node member
    rcases List.mem_cons.1 member with rfl | deeper
    · exact ⟨_, climbsIn_top bound 1 (by omega)⟩
    · obtain ⟨steps, few, climbs⟩ :=
        below.linked.climbs climbsIn_top below.notBelow node deeper
      exact ⟨_, climbs bound 1 (by omega)⟩
  · obtain ⟨final, visits⟩ := pctreeForEachPostOrder_eq mayUnlink_leave below.read
      below.firstChild below.linked below.notBelow below.distinct enough
    have room : 0 + children.size < bound := by rwa [Nat.zero_add]
    rw [pctreeLevels_eq, visits]
    show (children.postOrder ++ [top]).foldlM _ 1 = _
    rw [foldlM_updateLevels below.linked climbsIn_top below.notBelow room]
    exact congrArg some (max_eq_right (Nat.le_add_left _ _))

/-- The small tree has three levels. -/
theorem pctreeLevels_height_small : pctreeLevels 5 smallMemory 1 = some 3 := by
  have distinct : smallTree.preOrder.Nodup := by decide
  have ⟨children, found, _, counts⟩ :=
    pctreeLevels_height smallTree_linked distinct (show 1 ∈ smallTree.preOrder by decide)
  have below : Forest.cons 2 (.cons 4 .nil (.cons 5 .nil .nil)) (.cons 3 .nil .nil) = children :=
    Option.some.inj found
  subst below
  exact (counts 5 (by decide)).2

end Bpcp.Purc
