import Bpcp.Purc.TreePreOrder

/-!
# Loops over a subtree in post-order

The body of the loop may unlink the node it is run for and free it. The nodes that were not
visited so far then keep their parents, their siblings behind them and their first children,
and a sibling in front of them is a node that was visited. Because the next node is found
before the body runs, nothing else is read, so the visited nodes are the same.
-/

namespace Bpcp.Purc

open Bpcp.Lib

variable {ι : Type*} {bound : ℕ} {memory : TreeMemory ι}
  {body : TreeMemory ι → ι → TreeMemory ι}

/-- What a body changes that at most unlinks its node from the parent and frees it. -/
structure MayUnlink (body : TreeMemory ι → ι → TreeMemory ι) : Prop where
  /-- Other nodes keep their parents. -/
  parent : ∀ {memory node other}, other ≠ node →
    (body memory node other).map PctreeNode.parent = (memory other).map PctreeNode.parent
  /-- Nodes other than the parent keep their first children. -/
  firstChild : ∀ {memory node other fields}, memory node = some fields → other ≠ node →
    fields.parent ≠ some other →
    (body memory node other).map PctreeNode.firstChild = (memory other).map PctreeNode.firstChild
  /-- Nodes other than the sibling in front keep the siblings behind them. -/
  next : ∀ {memory node other fields}, memory node = some fields → other ≠ node →
    fields.prev ≠ some other →
    (body memory node other).map PctreeNode.next = (memory other).map PctreeNode.next
  /-- Nodes other than the sibling behind keep the siblings in front of them. -/
  prev : ∀ {memory node other fields}, memory node = some fields → other ≠ node →
    fields.next ≠ some other →
    (body memory node other).map PctreeNode.prev = (memory other).map PctreeNode.prev
  /-- The sibling behind gets the sibling in front, or keeps its own. -/
  relinked : ∀ {memory node other fields}, memory node = some fields → other ≠ node →
    fields.next = some other →
    (body memory node other).map PctreeNode.prev = some fields.prev ∨
      (body memory node other).map PctreeNode.prev = (memory other).map PctreeNode.prev

/-! ## What the loop reads -/

/-- The nodes of a forest point at their parents, their siblings behind them and their first
children, and the siblings in front of them were visited before. -/
def Ready (memory : TreeMemory ι) (parent : Option ι) : List ι → Forest ι → Prop
  | _, .nil => True
  | visited, .cons root children siblings =>
    (∃ fields, memory root = some fields ∧ fields.parent = parent ∧
      fields.firstChild = children.first ∧ fields.next = siblings.first ∧
      ∀ front, fields.prev = some front → front ∈ visited) ∧
    Ready memory (some root) visited children ∧
    Ready memory parent (visited ++ root :: children.preOrder) siblings

/-- Linked nodes are ready when the sibling in front was visited. -/
theorem Linked.ready {parent prev : Option ι} {visited : List ι} {forest : Forest ι}
    (linked : Linked memory parent prev forest)
    (front : ∀ sibling, prev = some sibling → sibling ∈ visited) :
    Ready memory parent visited forest := by
  induction forest generalizing parent prev visited with
  | nil => trivial
  | cons root children siblings below behind =>
    obtain ⟨read, linkedBelow, linkedBehind⟩ := linked
    refine ⟨⟨_, read, rfl, rfl, rfl, front⟩, below linkedBelow nofun, behind linkedBehind ?_⟩
    intro sibling same
    rw [← Option.some.inj same]
    simp

/-- The second memory has the same pointers of the nodes as the first one, besides siblings in
front that were visited. -/
structure SamePointers (before after : TreeMemory ι) (visited nodes : List ι) : Prop where
  /-- The parents are the same. -/
  parent : ∀ node ∈ nodes,
    (after node).map PctreeNode.parent = (before node).map PctreeNode.parent
  /-- The first children are the same. -/
  firstChild : ∀ node ∈ nodes,
    (after node).map PctreeNode.firstChild = (before node).map PctreeNode.firstChild
  /-- The siblings behind are the same. -/
  next : ∀ node ∈ nodes, (after node).map PctreeNode.next = (before node).map PctreeNode.next
  /-- The siblings in front are the same or visited. -/
  prev : ∀ node ∈ nodes, (after node).map PctreeNode.prev = (before node).map PctreeNode.prev ∨
    ∀ front, (after node).map PctreeNode.prev = some (some front) → front ∈ visited

/-- Ready nodes stay ready when their pointers stay the same. -/
theorem Ready.keep {after : TreeMemory ι} {parent : Option ι} {visited more nodes : List ι}
    {forest : Forest ι} (ready : Ready memory parent more forest)
    (same : SamePointers memory after visited nodes)
    (nodesOf : ∀ node ∈ forest.preOrder, node ∈ nodes) (grown : visited ⊆ more) :
    Ready after parent more forest := by
  induction forest generalizing parent more with
  | nil => trivial
  | cons root children siblings below behind =>
    obtain ⟨⟨fields, read, up, down, next, front⟩, readyBelow, readyBehind⟩ := ready
    have inside := nodesOf root List.mem_cons_self
    have sameParent := same.parent root inside
    have sameChild := same.firstChild root inside
    have sameNext := same.next root inside
    have samePrev := same.prev root inside
    rw [read, Option.map_some, Option.map_eq_some_iff] at sameParent
    obtain ⟨now, readNow, parentNow⟩ := sameParent
    simp only [read, readNow, Option.map_some, Option.some.injEq] at sameChild sameNext samePrev
    refine ⟨⟨now, readNow, ?_, ?_, ?_, ?_⟩, below readyBelow ?_ grown, behind readyBehind ?_ ?_⟩
    · rw [parentNow, up]
    · rw [sameChild, down]
    · rw [sameNext, next]
    · intro sibling points
      rcases samePrev with equal | old
      · rw [equal] at points
        exact front sibling points
      · exact grown (old sibling points)
    · intro node member
      exact nodesOf node (List.mem_cons_of_mem _ (List.mem_append_left _ member))
    · intro node member
      exact nodesOf node (List.mem_cons_of_mem _ (List.mem_append_right _ member))
    · exact fun node member => List.mem_append_left _ (grown member)

/-- Going down from a node ends at the first leaf below it, or at the node. -/
theorem descend_eq {visited : List ι} {forest : Forest ι} {node : ι} {fields : PctreeNode ι}
    (read : memory node = some fields) (child : fields.firstChild = forest.first)
    (ready : Ready memory (some node) visited forest) (enough : forest.size < bound) :
    descend memory bound node = some (forest.firstLeaf.getD node) := by
  induction forest generalizing node fields bound with
  | nil =>
    obtain ⟨rounds, rfl⟩ := Nat.exists_eq_add_of_lt enough
    rw [descend, read, Option.bind_eq_bind, Option.bind_some, child]
    rfl
  | cons root children siblings below _ =>
    obtain ⟨rounds, rfl⟩ := Nat.exists_eq_add_of_lt enough
    obtain ⟨⟨rootFields, readRoot, _, down, _⟩, readyBelow, _⟩ := ready
    rw [Forest.size]
    rw [descend, read, Option.bind_eq_bind, Option.bind_some, child]
    exact below readRoot down readyBelow (by omega)

/-- The next node is the first leaf of the siblings behind, or the parent. -/
theorem pctreeNextPostOrder_eq {visited : List ι} {siblings : Forest ι} {node parent : ι}
    {fields : PctreeNode ι} (read : memory node = some fields)
    (next : fields.next = siblings.first) (up : fields.parent = some parent)
    (ready : Ready memory (some parent) visited siblings) (enough : siblings.size < bound) :
    pctreeNextPostOrder bound memory (some node) =
      some (some (siblings.firstLeaf.getD parent)) := by
  unfold pctreeNextPostOrder
  simp only [read, Option.bind_eq_bind, Option.bind_some, next, up]
  cases siblings with
  | nil => rfl
  | cons root children behind =>
    obtain ⟨⟨rootFields, readRoot, _, down, _⟩, readyBelow, _⟩ := ready
    rw [Forest.size] at enough
    have leaf := descend_eq readRoot down readyBelow (show children.size < bound by omega)
    show pctreeFirstPostOrder bound memory (some root) = _
    rw [pctreeFirstPostOrder, leaf]
    rfl

/-! ## What the bodies keep -/

/-- The pointers of other nodes than the touched ones are kept, besides the first child of one
of them. -/
structure Kept (touched : List ι) (parent : ι) (before after : TreeMemory ι) : Prop where
  /-- Parents are kept. -/
  up : ∀ node ∉ touched, (after node).map PctreeNode.parent = (before node).map PctreeNode.parent
  /-- First children are kept. -/
  firstChild : ∀ node ∉ touched, node ≠ parent →
    (after node).map PctreeNode.firstChild = (before node).map PctreeNode.firstChild
  /-- Siblings behind are kept. -/
  next : ∀ node ∉ touched, (after node).map PctreeNode.next = (before node).map PctreeNode.next
  /-- Siblings in front are kept. -/
  prev : ∀ node ∉ touched, (after node).map PctreeNode.prev = (before node).map PctreeNode.prev

variable {before after final : TreeMemory ι} {touched more visited nodes : List ι}
  {parent other node : ι}

/-- Nothing is changed by doing nothing. -/
theorem Kept.refl : Kept touched parent memory memory :=
  ⟨fun _ _ => rfl, fun _ _ _ => rfl, fun _ _ => rfl, fun _ _ => rfl⟩

/-- What is kept twice is kept. -/
theorem Kept.trans (first : Kept touched parent before after)
    (second : Kept touched parent after final) : Kept touched parent before final where
  up := fun node outside => (second.up node outside).trans (first.up node outside)
  firstChild := fun node outside below =>
    (second.firstChild node outside below).trans (first.firstChild node outside below)
  next := fun node outside => (second.next node outside).trans (first.next node outside)
  prev := fun node outside => (second.prev node outside).trans (first.prev node outside)

/-- Fewer nodes are kept when more are touched. -/
theorem Kept.weaken (kept : Kept touched parent before after) (grown : touched ⊆ more)
    (known : parent ∈ more ∨ parent = other) : Kept more other before after where
  up := fun node outside => kept.up node fun inside => outside (grown inside)
  firstChild := by
    intro node outside apart
    apply kept.firstChild node fun inside => outside (grown inside)
    intro same
    rcases known with inside | equal
    · exact outside (same ▸ inside)
    · exact apart (same.trans equal)
  next := fun node outside => kept.next node fun inside => outside (grown inside)
  prev := fun node outside => kept.prev node fun inside => outside (grown inside)

/-- Kept nodes have the same pointers. -/
theorem Kept.samePointers (kept : Kept touched parent before after)
    (apart : ∀ node ∈ nodes, node ∉ touched ∧ node ≠ parent) :
    SamePointers before after visited nodes where
  parent := fun node inside => kept.up node (apart node inside).1
  firstChild := fun node inside => kept.firstChild node (apart node inside).1 (apart node inside).2
  next := fun node inside => kept.next node (apart node inside).1
  prev := fun node inside => Or.inl (kept.prev node (apart node inside).1)

/-- A kept node can still be read, with the same parent and siblings. -/
theorem Kept.read {fields : PctreeNode ι} (kept : Kept touched parent before after)
    (outside : node ∉ touched) (read : before node = some fields) :
    ∃ now, after node = some now ∧ now.parent = fields.parent ∧ now.next = fields.next ∧
      now.prev = fields.prev := by
  have up := kept.up node outside
  have next := kept.next node outside
  have prev := kept.prev node outside
  rw [read, Option.map_some, Option.map_eq_some_iff] at up
  obtain ⟨now, readNow, parentNow⟩ := up
  simp only [read, readNow, Option.map_some, Option.some.injEq] at next prev
  exact ⟨now, readNow, parentNow, next, prev⟩

/-- A body keeps the nodes besides its own, the siblings of it and the parent. -/
theorem MayUnlink.kept {fields : PctreeNode ι} (mayUnlink : MayUnlink body)
    (read : memory node = some fields) (up : fields.parent = some parent) (inside : node ∈ touched)
    (front : ∀ sibling, fields.prev = some sibling → sibling ∈ touched)
    (behind : ∀ sibling, fields.next = some sibling → sibling ∈ touched) :
    Kept touched parent memory (body memory node) where
  up := fun other outside => mayUnlink.parent fun same => outside (same ▸ inside)
  firstChild := by
    intro other outside below
    have apart : other ≠ node := fun same => outside (same ▸ inside)
    apply mayUnlink.firstChild read apart
    rw [up]
    exact fun same => below (Option.some.inj same).symm
  next := fun other outside =>
    mayUnlink.next read (fun same => outside (same ▸ inside)) fun same => outside (front _ same)
  prev := fun other outside =>
    mayUnlink.prev read (fun same => outside (same ▸ inside)) fun same => outside (behind _ same)

/-- A body leaves the pointers of the siblings behind its node, besides those to nodes that
were visited. -/
theorem MayUnlink.samePointers {fields : PctreeNode ι} (mayUnlink : MayUnlink body)
    (read : memory node = some fields) (up : fields.parent = some parent)
    (front : ∀ sibling, fields.prev = some sibling → sibling ∈ visited)
    (apart : ∀ other ∈ nodes, other ≠ node ∧ other ≠ parent ∧ other ∉ visited) :
    SamePointers memory (body memory node) visited nodes where
  parent := fun other inside => mayUnlink.parent (apart other inside).1
  firstChild := by
    intro other inside
    apply mayUnlink.firstChild read (apart other inside).1
    rw [up]
    exact fun same => (apart other inside).2.1 (Option.some.inj same).symm
  next := fun other inside =>
    mayUnlink.next read (apart other inside).1 fun same => (apart other inside).2.2 (front _ same)
  prev := by
    intro other inside
    by_cases sibling : fields.next = some other
    · rcases mayUnlink.relinked read (apart other inside).1 sibling with linked | same
      · right
        intro first points
        rw [linked] at points
        exact front first (Option.some.inj points)
      · exact Or.inl same
    · exact Or.inl (mayUnlink.prev read (apart other inside).1 sibling)

/-! ## The loop -/

variable {top root : ι} {forest children siblings : Forest ι}

/-- The nodes of a forest are distinct from each other, from the parent of its roots, from the
top of the loop and from the visited nodes. -/
structure Unvisited (top parent : ι) (visited : List ι) (forest : Forest ι) : Prop where
  /-- No node occurs twice. -/
  distinct : forest.preOrder.Nodup
  /-- The parent does not occur. -/
  notParent : parent ∉ forest.preOrder
  /-- The top does not occur. -/
  notTop : top ∉ forest.preOrder
  /-- No visited node occurs. -/
  notVisited : ∀ node ∈ forest.preOrder, node ∉ visited

/-- The children of the first root are unvisited. -/
theorem Unvisited.below (fresh : Unvisited top parent visited (.cons root children siblings)) :
    Unvisited top root visited children := by
  have distinct := fresh.distinct
  have notTop := fresh.notTop
  have notVisited := fresh.notVisited
  rw [Forest.preOrder] at distinct notTop notVisited
  have split := List.nodup_cons.1 distinct
  have left : ∀ {node}, node ∈ children.preOrder →
      node ∈ children.preOrder ++ siblings.preOrder := fun inside => List.mem_append_left _ inside
  constructor
  · exact (List.nodup_append.1 split.2).1
  · exact fun inside => split.1 (left inside)
  · exact fun inside => notTop (List.mem_cons_of_mem _ (left inside))
  · exact fun node inside => notVisited node (List.mem_cons_of_mem _ (left inside))

/-- The trees behind the first one are unvisited when it was visited. -/
theorem Unvisited.behind (fresh : Unvisited top parent visited (.cons root children siblings)) :
    Unvisited top parent (visited ++ root :: children.preOrder) siblings := by
  have distinct := fresh.distinct
  have notParent := fresh.notParent
  have notTop := fresh.notTop
  have notVisited := fresh.notVisited
  rw [Forest.preOrder] at distinct notParent notTop notVisited
  have split := List.nodup_cons.1 distinct
  have both := List.nodup_append.1 split.2
  have right : ∀ {node}, node ∈ siblings.preOrder →
      node ∈ children.preOrder ++ siblings.preOrder := fun inside => List.mem_append_right _ inside
  constructor
  · exact both.2.1
  · exact fun inside => notParent (List.mem_cons_of_mem _ (right inside))
  · exact fun inside => notTop (List.mem_cons_of_mem _ (right inside))
  · intro node inside seen
    rcases List.mem_append.1 seen with before | now
    · exact notVisited node (List.mem_cons_of_mem _ (right inside)) before
    · rcases List.mem_cons.1 now with rfl | deeper
      · exact split.1 (right inside)
      · exact both.2.2 node deeper node inside rfl

/-- The first root is distinct from the parent and the top, and was not visited. -/
theorem Unvisited.first (fresh : Unvisited top parent visited (.cons root children siblings)) :
    root ≠ parent ∧ root ≠ top ∧ root ∉ visited ++ children.preOrder := by
  have member : root ∈ (Forest.cons root children siblings).preOrder := List.mem_cons_self
  refine ⟨?_, ?_, ?_⟩
  · rintro rfl
    exact fresh.notParent member
  · rintro rfl
    exact fresh.notTop member
  · rw [List.mem_append, not_or]
    exact ⟨fresh.notVisited root member, fresh.below.notParent⟩

/-- After the children of the first root were visited, the body of the root leaves the trees
behind it ready. -/
theorem Ready.behind (mayUnlink : MayUnlink body) {after : TreeMemory ι} {now : PctreeNode ι}
    (ready : Ready memory (some parent) (visited ++ root :: children.preOrder) siblings)
    (fresh : Unvisited top parent visited (.cons root children siblings))
    (kept : Kept (visited ++ children.preOrder) root memory after) (read : after root = some now)
    (up : now.parent = some parent)
    (front : ∀ sibling, now.prev = some sibling → sibling ∈ visited) :
    Ready after (some parent) (visited ++ root :: children.preOrder) siblings ∧
      Ready (body after root) (some parent) (visited ++ root :: children.preOrder) siblings := by
  have freshBehind := fresh.behind
  have visitedFirst : visited ⊆ visited ++ root :: children.preOrder :=
    List.subset_append_left _ _
  have keptBehind : SamePointers memory after visited siblings.preOrder := by
    apply kept.samePointers
    intro node inside
    have new := freshBehind.notVisited node inside
    rw [List.mem_append, List.mem_cons, not_or, not_or] at new
    rw [List.mem_append, not_or]
    exact ⟨⟨new.1, new.2.2⟩, new.2.1⟩
  have readyAfter := ready.keep keptBehind (fun _ inside => inside) visitedFirst
  have sameBehind : SamePointers after (body after root) visited siblings.preOrder := by
    apply mayUnlink.samePointers read up front
    intro node inside
    have new := freshBehind.notVisited node inside
    rw [List.mem_append, List.mem_cons, not_or, not_or] at new
    exact ⟨new.2.1, fun same => freshBehind.notParent (same ▸ inside), new.1⟩
  exact ⟨readyAfter, readyAfter.keep sameBehind (fun _ inside => inside) visitedFirst⟩

/-- Visiting the children of the first root, the root, and the trees behind it keeps the other
nodes. -/
theorem Kept.tree (mayUnlink : MayUnlink body) {now : PctreeNode ι}
    (keptBelow : Kept (visited ++ children.preOrder) root memory before)
    (read : before root = some now) (up : now.parent = some parent)
    (next : now.next = siblings.first)
    (front : ∀ sibling, now.prev = some sibling → sibling ∈ visited)
    (keptBehind : Kept (visited ++ root :: children.preOrder ++ siblings.preOrder) parent
      (body before root) after) :
    Kept (visited ++ (Forest.cons root children siblings).preOrder) parent memory after := by
  have same : visited ++ root :: children.preOrder ++ siblings.preOrder =
      visited ++ (Forest.cons root children siblings).preOrder := by
    rw [Forest.preOrder, List.append_assoc, List.cons_append]
  rw [same] at keptBehind
  have rootInside : root ∈ visited ++ (Forest.cons root children siblings).preOrder := by
    rw [Forest.preOrder]
    simp
  have subset : visited ++ children.preOrder ⊆
      visited ++ (Forest.cons root children siblings).preOrder := by
    intro node inside
    rw [Forest.preOrder]
    rcases List.mem_append.1 inside with seen | below
    · simp [seen]
    · simp [below]
  apply (keptBelow.weaken subset (Or.inl rootInside)).trans
  apply Kept.trans _ keptBehind
  apply mayUnlink.kept read up rootInside
  · exact fun sibling points => List.mem_append_left _ (front sibling points)
  · intro sibling points
    rw [next] at points
    have behind := Forest.first_mem points
    rw [Forest.preOrder]
    simp [behind]

variable [DecidableEq ι]

/-- A round at another node than the top finds the next node, and runs the body. -/
theorem forEachPostOrder_round (body : TreeMemory ι → ι → TreeMemory ι) (rounds : ℕ)
    {next : Option ι} (below : node ≠ top)
    (found : pctreeNextPostOrder bound memory (some node) = some next) :
    forEachPostOrder bound body top (rounds + 1) memory (some node) =
      (forEachPostOrder bound body top rounds (body memory node) next).map fun result =>
        (node :: result.1, result.2) := by
  have apart : ¬some node = some top := fun same => below (Option.some.inj same)
  rw [forEachPostOrder, if_neg apart, found]
  simp only [Option.bind_eq_bind, Option.bind_some]
  cases forEachPostOrder bound body top rounds (body memory node) next with
  | none => rfl
  | some result => rfl

/-- The loop visits the forest of the children of a node, and goes on with the node. -/
theorem forEachPostOrder_forest (mayUnlink : MayUnlink body)
    (ready : Ready memory (some parent) visited forest)
    (fresh : Unvisited top parent visited forest)
    (enough : forest.size < bound) (rounds : ℕ) :
    ∃ after, Kept (visited ++ forest.preOrder) parent memory after ∧
      forEachPostOrder bound body top (rounds + forest.size) memory
          (some (forest.firstLeaf.getD parent)) =
        (forEachPostOrder bound body top rounds after (some parent)).map fun result =>
          (forest.postOrder ++ result.1, result.2) := by
  induction forest generalizing memory visited parent rounds with
  | nil =>
    refine ⟨memory, Kept.refl, ?_⟩
    exact Option.map_id'.symm
  | cons root children siblings below behind =>
    obtain ⟨⟨fields, read, up, _, next, front⟩, readyBelow, readyBehind⟩ := ready
    rw [Forest.size] at enough ⊢
    obtain ⟨_, rootTop, rootUnvisited⟩ := fresh.first
    -- The children are visited, which leads back to the root.
    obtain ⟨first, keptBelow, visitBelow⟩ :=
      below readyBelow fresh.below (by omega) (rounds + siblings.size + 1)
    obtain ⟨now, readNow, upNow, nextNow, prevNow⟩ := keptBelow.read rootUnvisited read
    rw [up] at upNow
    rw [next] at nextNow
    rw [← prevNow] at front
    -- The root is visited, after the node behind it was found.
    obtain ⟨readyFirst, readySecond⟩ :=
      readyBehind.behind mayUnlink fresh keptBelow readNow upNow front
    have room : siblings.size < bound := by omega
    have found := pctreeNextPostOrder_eq readNow nextNow upNow readyFirst room
    have visitRoot := forEachPostOrder_round body (rounds + siblings.size) rootTop found
    -- The trees behind it are visited, which leads to the parent.
    obtain ⟨last, keptBehind, visitBehind⟩ := behind readySecond fresh.behind (by omega) rounds
    refine ⟨last, keptBelow.tree mayUnlink readNow upNow nextNow front keptBehind, ?_⟩
    have split : rounds + (children.size + siblings.size + 1) =
        rounds + siblings.size + 1 + children.size := by omega
    rw [split]
    show forEachPostOrder bound body top _ memory (some (children.firstLeaf.getD root)) = _
    rw [visitBelow, visitRoot, visitBehind, Forest.postOrder]
    cases forEachPostOrder bound body top rounds last (some parent) with
    | none => rfl
    | some result => simp only [Option.map_some, List.cons_append, List.append_assoc]

/-- The top is visited last. -/
theorem forEachPostOrder_top (rounds : ℕ) :
    forEachPostOrder bound body top (rounds + 2) memory (some top) =
      some ([top], body memory top) := by
  have apart : ¬none = some top := nofun
  rw [forEachPostOrder, if_pos rfl]
  simp only [Option.bind_eq_bind, Option.bind_some]
  rw [forEachPostOrder, if_neg apart]
  rfl

/-- The loop visits the nodes below a node and the node in post-order, and stops. -/
theorem pctreeForEachPostOrder_eq (mayUnlink : MayUnlink body) {fields : PctreeNode ι}
    (read : memory top = some fields) (child : fields.firstChild = children.first)
    (linked : Linked memory (some top) none children) (notTop : top ∉ children.preOrder)
    (distinct : children.preOrder.Nodup) (enough : children.size < bound) :
    ∃ final, pctreeForEachPostOrder bound memory body top =
      some (children.postOrder ++ [top], final) := by
  have ready : Ready memory (some top) [] children := linked.ready nofun
  have fresh : Unvisited top top [] children :=
    ⟨distinct, notTop, notTop, fun _ _ => List.not_mem_nil⟩
  have leaf := descend_eq read child ready enough
  obtain ⟨rounds, split⟩ := Nat.exists_eq_add_of_lt enough
  have ⟨after, _, visited⟩ := forEachPostOrder_forest mayUnlink ready fresh enough (rounds + 2)
  have count : rounds + 2 + children.size = bound + 1 := by omega
  rw [count] at visited
  refine ⟨body after top, ?_⟩
  rw [pctreeForEachPostOrder, pctreeFirstPostOrder, leaf]
  simp only [Option.map_some, Option.bind_eq_bind, Option.bind_some]
  rw [visited, forEachPostOrder_top, Option.map_some]

end Bpcp.Purc
