import Bpcp.Purc.ListRuns

/-!
# Loops over lists

A loop over a list follows the next or the previous fields from the head until it is back at the
head. The safe loops read the field of an entry before their body runs, so the body may delete
the entry, move it elsewhere and free it. What they rely on is only that the entries that are
still to come stay where they are. Memory that was freed cannot be read.
-/

namespace Bpcp.Purc

open Bpcp.Lib Bpcp.Lib.RingFamily

/-- The list nodes in memory. -/
structure ListMemory where
  /-- The fields of the nodes. -/
  links : Links Nat
  /-- The nodes that were freed. -/
  freed : Finset Nat

/-- The two ways around a list. -/
inductive Direction where
  /-- Along the next nodes. -/
  | forward
  /-- Along the previous nodes. -/
  | backward
deriving DecidableEq

namespace Direction

/-- The links as they are met on the way. -/
def view : Direction → Links Nat → Links Nat
  | .forward, links => links
  | .backward, links => links.flip

/-- The elements in the order in which they are met on the way. -/
def order : Direction → List Nat → List Nat
  | .forward, elems => elems
  | .backward, elems => elems.reverse

end Direction

/-- The expression `p->next` or `p->prev`. -/
def follow (direction : Direction) (memory : ListMemory) (p : Nat) : Option Nat :=
  if p ∈ memory.freed then none else some ((direction.view memory.links).next p)

section Loops

variable {σ : Type} (stop : σ → Nat → Option Bool) (step : σ → Nat → Option Nat)
  (body : σ → Nat → σ)

/-- A `for` loop with a node `p`, from a node on, with the visited nodes. -/
def forEachFrom : ℕ → σ → Nat → Option (List Nat × σ)
  | 0, _, _ => none
  | rounds + 1, state, p => do
    let stops ← stop state p
    if stops then some ([], state)
    else do
      let state := body state p
      let next ← step state p
      let (visited, final) ← forEachFrom rounds state next
      some (p :: visited, final)

/-- A `for` loop with a node `p` and the node `n` after it, from a node on, with the visited
nodes. -/
def forEachSafeFrom : ℕ → σ → Nat → Nat → Option (List Nat × σ)
  | 0, _, _, _ => none
  | rounds + 1, state, p, n => do
    let stops ← stop state p
    if stops then some ([], state)
    else do
      let state := body state p
      let next ← step state n
      let (visited, final) ← forEachSafeFrom rounds state n next
      some (p :: visited, final)

/-! ## Rules -/

variable (head : Nat)

/-- The nodes lead one to the other and then to the head, where the loop stops. -/
def Leads (state : σ) : List Nat → Prop
  | [] => stop state head = some true ∧ ∃ next, step state head = some next
  | p :: rest =>
    stop state p = some false ∧ step state p = some (rest.headD head) ∧ Leads state rest

variable {stop step body head} {inv : List Nat → σ → Prop} {elems : List Nat} {state : σ}
  {rounds : ℕ} {n : Nat}

/-- The node after the first one can be read. -/
theorem Leads.read (leads : Leads stop step head state elems) :
    ∃ next, step state (elems.headD head) = some next := by
  cases elems with
  | nil => exact leads.2
  | cons p rest => exact ⟨_, leads.2.1⟩

/-- What is read is the node after the first one. -/
theorem Leads.read_eq (leads : Leads stop step head state elems)
    (read : step state (elems.headD head) = some n) :
    ∀ p rest, elems = p :: rest → n = rest.headD head := by
  intro p rest split
  rw [split] at leads read
  exact Option.some.inj (read.symm.trans leads.2.1)

/-- Nodes lead to the head in every state in which they and the head are read in the same way. -/
theorem Leads.imp {other : σ} (leads : Leads stop step head state elems)
    (stops : ∀ node, stop other node = stop state node)
    (kept : ∀ node ∈ elems, ∀ next, step state node = some next → step other node = some next)
    (read : ∃ next, step other head = some next) : Leads stop step head other elems := by
  induction elems with
  | nil => exact ⟨(stops head).trans leads.1, read⟩
  | cons p rest ih =>
    have step := kept p List.mem_cons_self _ leads.2.1
    have later := ih leads.2.2 fun node inside => kept node (List.mem_cons_of_mem p inside)
    exact ⟨(stops p).trans leads.1, step, later⟩

/-- The head can be read at the end. -/
theorem Leads.read_head (leads : Leads stop step head state elems) :
    ∃ next, step state head = some next := by
  induction elems with
  | nil => exact leads.2
  | cons p rest ih => exact ih leads.2.2

/-- A safe loop visits the nodes that are left, when its body keeps those after the current one
as they are. -/
theorem forEachSafeFrom_visits
    (leads : ∀ rest state, inv rest state → Leads stop step head state rest)
    (kept : ∀ p rest state, inv (p :: rest) state → inv rest (body state p))
    (holds : inv elems state) (next : ∀ p rest, elems = p :: rest → n = rest.headD head)
    (enough : elems.length < rounds) :
    ∃ final, forEachSafeFrom stop step body rounds state (elems.headD head) n =
      some (elems, final) ∧ inv [] final := by
  induction elems generalizing state n rounds with
  | nil =>
    cases rounds with
    | zero => exact absurd enough (Nat.not_lt_zero _)
    | succ rounds =>
      have stops := (leads _ _ holds).1
      rw [forEachSafeFrom, List.headD_nil, stops]
      exact ⟨state, rfl, holds⟩
  | cons p rest ih =>
    cases rounds with
    | zero => exact absurd enough (Nat.not_lt_zero _)
    | succ rounds =>
      have goesOn := (leads _ _ holds).1
      have holdsRest := kept p rest state holds
      have leadsRest := leads _ _ holdsRest
      have ⟨following, read⟩ := leadsRest.read
      have ⟨final, visits, ends⟩ :=
        ih holdsRest (leadsRest.read_eq read) (Nat.lt_of_succ_lt_succ enough)
      have same : n = rest.headD head := next p rest rfl
      rw [forEachSafeFrom, List.headD_cons, goesOn, same]
      simp only [read, visits, Option.bind_eq_bind, Option.bind_some]
      exact ⟨final, rfl, ends⟩

/-- A loop visits the nodes that are left, when its body keeps the current one and those after it
as they are. -/
theorem forEachFrom_visits
    (leads : ∀ rest state, inv rest state → Leads stop step head state rest)
    (kept : ∀ p rest state, inv (p :: rest) state →
      inv (p :: rest) (body state p) ∧ inv rest (body state p))
    (holds : inv elems state) (enough : elems.length < rounds) :
    ∃ final, forEachFrom stop step body rounds state (elems.headD head) = some (elems, final) ∧
      inv [] final := by
  induction elems generalizing state rounds with
  | nil =>
    cases rounds with
    | zero => exact absurd enough (Nat.not_lt_zero _)
    | succ rounds =>
      have stops := (leads _ _ holds).1
      rw [forEachFrom, List.headD_nil, stops]
      exact ⟨state, rfl, holds⟩
  | cons p rest ih =>
    cases rounds with
    | zero => exact absurd enough (Nat.not_lt_zero _)
    | succ rounds =>
      have goesOn := (leads _ _ holds).1
      have ⟨holdsHere, holdsRest⟩ := kept p rest state holds
      have read := (leads _ _ holdsHere).2.1
      have ⟨final, visits, ends⟩ := ih holdsRest (Nat.lt_of_succ_lt_succ enough)
      rw [forEachFrom, List.headD_cons, goesOn]
      simp only [read, visits, Option.bind_eq_bind, Option.bind_some]
      exact ⟨final, rfl, ends⟩

end Loops

/-! ## Lists in memory -/

/-- The condition under which a loop over a list stops. -/
def atHead {σ : Type} (head : Nat) (_ : σ) (p : Nat) : Option Bool := some (p == head)

/-- `list_for_each` and `list_for_each_prev`, and the loops over entries, where an entry is given
by its node. -/
def listForEach (direction : Direction) (body : ListMemory → Nat → ListMemory) (head : Nat)
    (rounds : ℕ) (memory : ListMemory) : Option (List Nat × ListMemory) := do
  let p ← follow direction memory head
  forEachFrom (atHead head) (follow direction) body rounds memory p

/-- `list_for_each_safe` and `list_for_each_prev_safe`, and the safe loops over entries, where an
entry is given by its node. -/
def listForEachSafe (direction : Direction) (body : ListMemory → Nat → ListMemory) (head : Nat)
    (rounds : ℕ) (memory : ListMemory) : Option (List Nat × ListMemory) := do
  let p ← follow direction memory head
  let n ← follow direction memory p
  forEachSafeFrom (atHead head) (follow direction) body rounds memory p n

/-- The list that is still to come: it ends the ring of the head as it is met on the way, and
none of its nodes was freed. -/
structure StillToCome (direction : Direction) (head : Nat) (rest : List Nat)
    (memory : ListMemory) : Prop where
  /-- The ring of the head ends with the entries that are still to come. -/
  ring : ∃ front, (direction.view memory.links).Ring head (front ++ rest)
  /-- The head and the entries that are still to come can be read. -/
  alive : ∀ node ∈ head :: rest, node ∉ memory.freed

variable {direction : Direction} {head : Nat} {rest elems : List Nat} {memory : ListMemory}

/-- A node that was not freed can be followed. -/
theorem follow_alive {p : Nat} (alive : p ∉ memory.freed) :
    follow direction memory p = some ((direction.view memory.links).next p) := if_neg alive

/-- In a ring that ends with entries, each of them is followed by the next one. -/
theorem ring_next {links : Links Nat} {front back : List Nat} {p : Nat}
    (ring : links.Ring head (front ++ p :: back)) : links.next p = back.headD head := by
  rw [ring.rotate.next_head]
  cases back <;> rfl

/-- The end of a ring leads to the head, where the next fields of its nodes can be read. -/
theorem leads_ring {σ : Type} {stop : σ → Nat → Option Bool} {step : σ → Nat → Option Nat}
    {state : σ} {links : Links Nat} {front : List Nat} (ring : links.Ring head (front ++ rest))
    (stops : ∀ p, stop state p = some (p == head))
    (reads : ∀ p ∈ head :: rest, step state p = some (links.next p)) :
    Leads stop step head state rest := by
  induction rest generalizing front with
  | nil =>
    rw [Leads, stops, beq_self_eq_true]
    exact ⟨rfl, _, reads head List.mem_cons_self⟩
  | cons p rest ih =>
    have notHead : p ≠ head := by
      intro same
      exact (List.nodup_cons.1 ring.distinct).1 (by simp [same])
    have goesOn : stop state p = some false := by
      rw [stops, beq_eq_false_iff_ne.2 notHead]
    have step : step state p = some (rest.headD head) := by
      rw [reads p (List.mem_cons_of_mem head List.mem_cons_self), ring_next ring]
    have later : links.Ring head (front ++ [p] ++ rest) := by
      rw [List.append_assoc, List.singleton_append]
      exact ring
    have readsLater : ∀ q ∈ head :: rest, _ := fun q inside =>
      reads q (List.cons_subset_cons head (List.subset_cons_self p rest) inside)
    exact ⟨goesOn, step, ih later readsLater⟩

/-- What is still to come leads to the head. -/
theorem StillToCome.leads (toCome : StillToCome direction head rest memory) :
    Leads (atHead head) (follow direction) head memory rest := by
  have ⟨front, ring⟩ := toCome.ring
  exact leads_ring ring (fun p => rfl) fun p inside => follow_alive (toCome.alive p inside)

/-- A whole list is still to come at the start. -/
theorem stillToCome_all (ring : memory.links.Ring head elems)
    (alive : ∀ node ∈ head :: elems, node ∉ memory.freed) (direction : Direction) :
    StillToCome direction head (direction.order elems) memory := by
  cases direction with
  | forward => exact ⟨⟨[], ring⟩, alive⟩
  | backward =>
    apply StillToCome.mk
    · exact ⟨[], ring.flip⟩
    · intro node inside
      apply alive node
      simpa [Direction.order] using inside

/-- A list is met as a ring of its entries in the order in which they are met. -/
theorem view_ring {links : Links Nat} (ring : links.Ring head elems) (direction : Direction) :
    (direction.view links).Ring head (direction.order elems) := by
  cases direction with
  | forward => exact ring
  | backward => exact ring.flip

/-- The loop starts at the first of the entries that it meets. -/
theorem follow_head (ring : memory.links.Ring head elems) (alive : head ∉ memory.freed)
    (direction : Direction) :
    follow direction memory head = some ((direction.order elems).headD head) := by
  rw [follow_alive alive, (view_ring ring direction).next_head]

/-- As many entries are met either way. -/
@[simp] theorem Direction.order_length (direction : Direction) (elems : List Nat) :
    (direction.order elems).length = elems.length := by
  cases direction with
  | forward => rfl
  | backward => exact List.length_reverse

/-- The order of the order is the order of the list. -/
@[simp] theorem Direction.order_order (direction : Direction) (elems : List Nat) :
    direction.order (direction.order elems) = elems := by
  cases direction with
  | forward => rfl
  | backward => exact List.reverse_reverse elems

/-- The safe loops visit each entry once, in the order in which they meet the entries, when an
invariant of the body says that the entries that are still to come stay where they are. -/
theorem listForEachSafe_visits {body : ListMemory → Nat → ListMemory} {rounds : ℕ}
    {inv : List Nat → ListMemory → Prop} (ring : memory.links.Ring head elems)
    (holds : inv (direction.order elems) memory)
    (toCome : ∀ rest memory, inv rest memory → StillToCome direction head rest memory)
    (kept : ∀ p rest memory, inv (p :: rest) memory → inv rest (body memory p))
    (enough : elems.length < rounds) :
    ∃ final, listForEachSafe direction body head rounds memory =
      some (direction.order elems, final) ∧ inv [] final := by
  have first := toCome _ memory holds
  have start := follow_head ring (first.alive head List.mem_cons_self) direction
  have ⟨second, read⟩ := first.leads.read
  have rounded : (direction.order elems).length < rounds := by
    rw [Direction.order_length]
    exact enough
  have ⟨final, visits, ends⟩ := forEachSafeFrom_visits
    (fun rest state now => (toCome rest state now).leads) kept holds (first.leads.read_eq read)
    rounded
  rw [listForEachSafe]
  simp only [start, read, visits, Option.bind_eq_bind, Option.bind_some]
  exact ⟨final, rfl, ends⟩

/-- The plain loops visit each entry once, in the order in which they meet the entries, when the
body also keeps the entry itself where it is. -/
theorem listForEach_visits {body : ListMemory → Nat → ListMemory} {rounds : ℕ}
    {inv : List Nat → ListMemory → Prop} (ring : memory.links.Ring head elems)
    (holds : inv (direction.order elems) memory)
    (toCome : ∀ rest memory, inv rest memory → StillToCome direction head rest memory)
    (kept : ∀ p rest memory, inv (p :: rest) memory →
      inv (p :: rest) (body memory p) ∧ inv rest (body memory p))
    (enough : elems.length < rounds) :
    ∃ final, listForEach direction body head rounds memory =
      some (direction.order elems, final) ∧ inv [] final := by
  have first := toCome _ memory holds
  have start := follow_head ring (first.alive head List.mem_cons_self) direction
  have rounded : (direction.order elems).length < rounds := by
    rw [Direction.order_length]
    exact enough
  have ⟨final, visits, ends⟩ := forEachFrom_visits
    (fun rest state now => (toCome rest state now).leads) kept holds rounded
  rw [listForEach]
  simp only [start, visits, Option.bind_eq_bind, Option.bind_some]
  exact ⟨final, rfl, ends⟩

/-! ## Deleting and freeing all entries -/

/-- `list_del` of an entry, which is then freed. -/
def deleteAndFree (memory : ListMemory) (p : Nat) : ListMemory where
  links := listDel memory.links p
  freed := insert p memory.freed

/-- An entry that is deleted leaves the other elements in their order, also when its fields are
written. -/
theorem ring_listDel_null {links : Links Nat} {front back : List Nat} {entry : Nat}
    (ring : links.Ring head (front ++ entry :: back)) :
    (listDel links entry).Ring head (front ++ back) := by
  have outside : entry ∉ head :: (front ++ back) := by
    have distinct := ring.distinct
    have moved : (head :: (front ++ entry :: back)).Perm (entry :: (head :: (front ++ back))) :=
      (List.perm_middle.cons head).trans (List.Perm.swap entry head _)
    exact (List.nodup_cons.1 (moved.nodup_iff.1 distinct)).1
  apply (ring_listDel ring).congr_outside outside
  intro node apart
  simp [listDel, apart]

/-- Deleting an entry leaves the other entries in the order in which they are met. -/
theorem view_listDel {links : Links Nat} {front : List Nat} {p : Nat}
    (ring : (direction.view links).Ring head (front ++ p :: rest)) :
    (direction.view (listDel links p)).Ring head (front ++ rest) := by
  cases direction with
  | forward => exact ring_listDel_null ring
  | backward =>
    have turned : links.Ring head (rest.reverse ++ p :: front.reverse) := by
      have back := ring.flip
      rw [List.reverse_append, List.reverse_cons, List.append_assoc] at back
      exact back
    have deleted := (ring_listDel_null turned).flip
    rw [List.reverse_append, List.reverse_reverse, List.reverse_reverse] at deleted
    exact deleted

/-- Deleting and freeing an entry leaves the entries that are still to come. -/
theorem StillToCome.deleteAndFree {p : Nat}
    (toCome : StillToCome direction head (p :: rest) memory) :
    StillToCome direction head rest (deleteAndFree memory p) := by
  have ⟨front, ring⟩ := toCome.ring
  apply StillToCome.mk
  · exact ⟨front, view_listDel ring⟩
  · intro node inside
    have notFreed : node ∉ memory.freed := by
      apply toCome.alive node
      exact List.cons_subset_cons head (List.subset_cons_self p rest) inside
    have notP : node ≠ p := by
      intro hit
      have distinct := ring.distinct
      rw [hit] at inside
      grind
    rw [Bpcp.Purc.deleteAndFree, Finset.mem_insert, not_or]
    exact ⟨notP, notFreed⟩

/-- What a loop that deletes and frees has done before it comes to the rest of the entries. -/
structure Destroying (direction : Direction) (memory : ListMemory) (head : Nat)
    (elems rest : List Nat) (now : ListMemory) : Prop where
  /-- The rest of the entries are all that is left in the list. -/
  ring : (direction.view now.links).Ring head rest
  /-- The head and the rest of the entries were not freed. -/
  alive : ∀ node ∈ head :: rest, node ∉ now.freed
  /-- The other entries were freed. -/
  freed : now.freed ∪ rest.toFinset = memory.freed ∪ elems.toFinset

/-- The safe loops, when their body deletes and frees each entry, visit each entry once in the
order in which they meet the entries, read no memory that was freed, and leave an empty list,
with the entries freed and nothing else. -/
theorem listForEachSafe_destroys (direction : Direction) (memory : ListMemory) (head : Nat)
    (elems : List Nat) (rounds : ℕ) (ring : memory.links.Ring head elems)
    (alive : ∀ node ∈ head :: elems, node ∉ memory.freed) (enough : elems.length < rounds) :
    ∃ final, listForEachSafe direction deleteAndFree head rounds memory =
      some (direction.order elems, final) ∧
        final.links.Ring head [] ∧ final.freed = memory.freed ∪ elems.toFinset := by
  have all := stillToCome_all ring alive direction
  have same : (direction.order elems).toFinset = elems.toFinset := by
    cases direction with
    | forward => rfl
    | backward => exact List.toFinset_reverse
  have holds : Destroying direction memory head elems (direction.order elems) memory :=
    ⟨view_ring ring direction, all.alive, by rw [same]⟩
  have kept : ∀ p rest now, Destroying direction memory head elems (p :: rest) now →
      Destroying direction memory head elems rest (deleteAndFree now p) := by
    intro p rest now before
    have toCome : StillToCome direction head (p :: rest) now := ⟨⟨[], before.ring⟩, before.alive⟩
    apply Destroying.mk
    · have whole : (direction.view now.links).Ring head ([] ++ p :: rest) := before.ring
      exact view_listDel whole
    · exact toCome.deleteAndFree.alive
    · have counted := before.freed
      rw [List.toFinset_cons, Finset.union_insert, ← Finset.insert_union] at counted
      exact counted
  have ⟨final, visits, ends⟩ := listForEachSafe_visits ring holds
    (fun rest now before => ⟨⟨[], before.ring⟩, before.alive⟩) kept enough
  have empty : final.links.Ring head [] := by
    have last := ends.ring
    cases direction with
    | forward => exact last
    | backward => exact last.flip
  have freed := ends.freed
  rw [List.toFinset_nil, Finset.union_empty] at freed
  exact ⟨final, visits, empty, freed⟩

/-- The list of two nodes is destroyed from its end. -/
theorem listForEachSafe_destroys_pair :
    ∃ final, listForEachSafe .backward deleteAndFree 2 3 ⟨emptyAndPair, ∅⟩ =
      some ([4, 3], final) ∧ final.links.Ring 2 [] ∧ final.freed = ∅ ∪ [3, 4].toFinset :=
  listForEachSafe_destroys .backward ⟨emptyAndPair, ∅⟩ 2 [3, 4] 3 emptyAndPair_right (by simp)
    (by decide)

/-! ## Moving all entries -/

/-- `list_move_tail` of an entry to another list. -/
def moveTailTo (target : Nat) (memory : ListMemory) (p : Nat) : ListMemory :=
  { memory with links := listMoveTail memory.links p target }

/-- What a loop that moves entries has done before it comes to the rest of them. -/
structure Moving (family : RingFamily Nat) (list target : Nat) (elems own rest : List Nat)
    (now : ListMemory) : Prop where
  /-- The entries in front of the rest are behind those of the other list. -/
  moved : ∃ front, front ++ rest = elems ∧ Represents now.links
    (Function.update (Function.update family target (some (own ++ front))) list (some rest))
  /-- Nothing was freed. -/
  freed : now.freed = ∅

/-- The rest of the entries is still to come. -/
theorem Moving.toCome {family : RingFamily Nat} {list target : Nat} {own : List Nat}
    {now : ListMemory} (moving : Moving family list target elems own rest now) :
    StillToCome .forward list rest now := by
  have ⟨front, _, represents⟩ := moving.moved
  apply StillToCome.mk
  · exact ⟨[], represents.ring list rest (Function.update_self _ _ _)⟩
  · intro node _
    rw [moving.freed]
    exact Finset.notMem_empty node

/-- Moving the first entry that is left. -/
theorem Moving.step {family : RingFamily Nat} {list target p : Nat} {own : List Nat}
    {now : ListMemory} (apart : list ≠ target)
    (moving : Moving family list target elems own (p :: rest) now) :
    Moving family list target elems own rest (moveTailTo target now p) := by
  have ⟨front, split, represents⟩ := moving.moved
  have listed := Function.update_self list (some (p :: rest))
    (Function.update family target (some (own ++ front)))
  have others : Function.update (Function.update family target (some (own ++ front))) list
      (some (p :: rest)) target = some (own ++ front) := by
    rw [Function.update_of_ne apart.symm, Function.update_self]
  have step := represents_listMoveTail represents listed List.mem_cons_self others
  have outside : p ∉ own ++ front := by
    intro inside
    have there : p ∈ list :: p :: rest := List.mem_cons_of_mem list List.mem_cons_self
    have here : p ∈ target :: (own ++ front) := List.mem_cons_of_mem target inside
    exact apart (represents.owner_unique listed others there here)
  have after : modify (without (Function.update (Function.update family target
      (some (own ++ front))) list (some (p :: rest))) p) target (· ++ [p]) =
      Function.update (Function.update family target (some (own ++ (front ++ [p])))) list
        (some rest) := by
    rw [represents.without_eq listed List.mem_cons_self, List.erase_cons_head,
      Function.update_idem, RingFamily.modify, Function.update_of_ne apart.symm,
      Function.update_self, Option.map_some, Function.update_comm apart, Function.update_idem,
      List.append_assoc]
  rw [after] at step
  exact ⟨⟨front ++ [p], by rw [List.append_assoc, List.singleton_append]; exact split, step⟩,
    moving.freed⟩

/-- A loop that moves each entry of a list to the tail of another one visits each entry once and
leaves what `list_splice_tail_init` leaves. -/
theorem listForEachSafe_moveTail (links : Links Nat) (family : RingFamily Nat) (list target : Nat)
    (elems own : List Nat) (rounds : ℕ) (represents : Represents links family)
    (listed : family list = some elems) (listedT : family target = some own)
    (apart : list ≠ target) (enough : elems.length < rounds) :
    ∃ final, listForEachSafe .forward (moveTailTo target) list rounds ⟨links, ∅⟩ =
      some (elems, final) ∧
        Represents final.links
          (handOver family list target (fun moved own => own ++ moved) (some [])) ∧
        Represents (listSpliceTailInit links list target)
          (handOver family list target (fun moved own => own ++ moved) (some [])) := by
  have start : Moving family list target elems own elems ⟨links, ∅⟩ := by
    apply Moving.mk
    · apply Exists.intro []
      rw [List.append_nil, ← listedT, ← listed, Function.update_eq_self, Function.update_eq_self]
      exact ⟨rfl, represents⟩
    · rfl
  have toCome : ∀ rest now, Moving family list target elems own rest now →
      StillToCome .forward list rest now := fun rest now => Moving.toCome
  have ⟨final, visits, ends⟩ := listForEachSafe_visits (represents.ring list elems listed) start
    toCome (fun p rest now => Moving.step apart) enough
  have ⟨front, split, moved⟩ := ends.moved
  rw [List.append_nil] at split
  have spliced := represents_listSpliceTailInit represents listed listedT apart
  have same : Function.update (Function.update family target (some (own ++ front))) list
      (some []) = handOver family list target (fun moved own => own ++ moved) (some []) := by
    rw [handOver, listed, Option.getD_some, modify_eq listedT, split]
  rw [same] at moved
  exact ⟨final, visits, moved, spliced⟩

/-- The two nodes are moved to the empty list. -/
theorem listForEachSafe_moveTail_pair :
    ∃ final, listForEachSafe .forward (moveTailTo 1) 2 3 ⟨emptyAndPair, ∅⟩ =
      some ([3, 4], final) ∧
        Represents final.links
          (handOver emptyAndPairFamily 2 1 (fun moved own => own ++ moved) (some [])) ∧
        Represents (listSpliceTailInit emptyAndPair 2 1)
          (handOver emptyAndPairFamily 2 1 (fun moved own => own ++ moved) (some [])) :=
  listForEachSafe_moveTail emptyAndPair emptyAndPairFamily 2 1 [3, 4] [] 3 emptyAndPair_represents
    rfl rfl (by decide) (by decide)

end Bpcp.Purc
