import Bpcp.Purc.HeapAccount
import Bpcp.Purc.ListLoops

/-!
# The end of a heap

When an instance ends, a safe loop over the list of reserved variants deletes each one from the
list and gives its block back. The nodes of the list are in the blocks, so the loop may only read
and write the head and the nodes of blocks that are still allocated.
-/

namespace Bpcp.Purc

open Bpcp.Lib

namespace VariantHeap

/-- A list node in memory that is allocated. -/
def HasNode (heap : VariantHeap) (p : Nat) : Prop :=
  p = heap.vReserved ∨ ∃ value ∈ heap.allocated, p = node value

/-- The memory of a node is allocated or not. -/
instance (heap : VariantHeap) (p : Nat) : Decidable (heap.HasNode p) :=
  inferInstanceAs (Decidable (_ ∨ _))

/-- The expression `p->next`. -/
def readNext (heap : VariantHeap) (p : Nat) : Option Nat :=
  if heap.HasNode p then some (heap.links.next p) else none

/-- The statements `list_del(p)` and `pcvariant_free(v)` for the entry `v` of the node. -/
def discard (heap : VariantHeap) (p : Nat) : Option VariantHeap :=
  if p - 8 ∈ heap.allocated ∧ heap.HasNode p ∧ heap.HasNode (heap.links.next p) ∧
      heap.HasNode (heap.links.prev p) then
    some ({ heap with links := listDel heap.links p }.free (p - 8))
  else none

end VariantHeap

/-- What `_cleanup_instance` does to the reserved variants, with the nodes that it visits. There is
no heap when memory was read or written that is not allocated. -/
def cleanupReserved (rounds : ℕ) (heap : VariantHeap) :
    Option (List Nat × Option VariantHeap) := do
  let p ← heap.readNext heap.vReserved
  let n ← heap.readNext p
  forEachSafeFrom (fun state p => state.map fun heap => p == heap.vReserved)
    (fun state p => state.bind fun heap => heap.readNext p)
    (fun state p => state.bind fun heap => heap.discard p) rounds (some heap) p n

namespace Pool

variable {vReserved value : Nat} {links : Links Nat} {allocated live : Finset Nat}
  {reserved rest : List Nat}

/-- The nodes of the list are allocated. -/
theorem hasNode {heap : VariantHeap}
    (pool : Pool heap.vReserved heap.links heap.allocated live reserved) :
    ∀ p ∈ heap.vReserved :: reserved.map node, heap.HasNode p := by
  intro p inside
  rcases List.mem_cons.1 inside with head | element
  · exact Or.inl head
  · have ⟨held, member, same⟩ := List.mem_map.1 element
    exact Or.inr ⟨held, (pool.cover held).2 (Or.inr member), same.symm⟩

/-- The first reserved variant is deleted from the list and freed. -/
theorem discard (pool : Pool vReserved links allocated live (value :: rest)) :
    Pool vReserved (listDel links (node value)) (allocated.erase value) live rest := by
  have unheld : value ∉ live := pool.apart value List.mem_cons_self
  have freed := pool.take.free (Finset.mem_insert_self value live)
  rw [Finset.erase_insert unheld] at freed
  have whole : links.Ring vReserved ([] ++ node value :: rest.map node) := pool.ring
  exact freed.relink (ring_listDel_null whole)

end Pool

/-- The loop has discarded the reserved variants up to some, whose nodes are left. -/
def Discarding (before : VariantHeap) (live : Finset Nat) (rest : List Nat)
    (state : Option VariantHeap) : Prop :=
  ∃ heap reserved, state = some heap ∧ rest = reserved.map node ∧
    Pool heap.vReserved heap.links heap.allocated live reserved ∧
    heap.vReserved = before.vReserved ∧ heap.stat = before.stat ∧ heap.cells = before.cells

namespace Discarding

variable {before : VariantHeap} {live : Finset Nat} {rest : List Nat} {p : Nat}
  {state : Option VariantHeap}

/-- The variants that are left lead to the head. -/
theorem leads (discarding : Discarding before live rest state) :
    Leads (fun state p => state.map fun heap => p == heap.vReserved)
      (fun state p => state.bind fun heap => heap.readNext p) before.vReserved state rest := by
  have ⟨heap, reserved, same, nodes, pool, head, _⟩ := discarding
  rw [same, nodes, ← head]
  have ring : heap.links.Ring heap.vReserved ([] ++ reserved.map node) := pool.ring
  apply leads_ring ring
  · intro p
    rfl
  · intro p inside
    exact if_pos (pool.hasNode p inside)

/-- A turn discards a variant. -/
theorem step (discarding : Discarding before live (p :: rest) state) :
    Discarding before live rest (state.bind fun heap => heap.discard p) := by
  have ⟨heap, reserved, same, nodes, pool, kept⟩ := discarding
  cases reserved with
  | nil => exact absurd nodes (List.cons_ne_nil p rest)
  | cons value others =>
    rw [List.map_cons, List.cons.injEq] at nodes
    have back : node value - 8 = value := Nat.add_sub_cancel value 8
    have held : value ∈ heap.allocated := (pool.cover value).2 (Or.inr List.mem_cons_self)
    have listed : node value ∈ heap.vReserved :: (value :: others).map node :=
      List.mem_cons_of_mem _ List.mem_cons_self
    have ready : node value - 8 ∈ heap.allocated ∧ heap.HasNode (node value) ∧
        heap.HasNode (heap.links.next (node value)) ∧
        heap.HasNode (heap.links.prev (node value)) := by
      rw [back]
      exact ⟨held, pool.hasNode _ listed, pool.hasNode _ (pool.ring.next_mem listed),
        pool.hasNode _ (pool.ring.prev_mem listed)⟩
    have turn : (state.bind fun heap => heap.discard p) = some
        ({ heap with links := listDel heap.links (node value) }.free value) := by
      rw [same, nodes.1, Option.bind_some, VariantHeap.discard, if_pos ready, back]
    exact ⟨_, others, turn, nodes.2, pool.discard, kept⟩

end Discarding

/-- The end of the heap visits the reserved variants, and leaves the live ones. -/
theorem Accounts.cleanup {run : HeapRun} {reserved : List Nat} {rounds : ℕ}
    (accounts : Accounts run reserved) (enough : run.heap.stat.nrReserved.toNat < rounds) :
    ∃ final, cleanupReserved rounds run.heap = some (reserved.map node, some final) ∧
      final.links.Ring run.heap.vReserved [] ∧ final.allocated = run.live ∧
      final.stat = run.heap.stat ∧ final.cells = run.heap.cells := by
  have pool := accounts.pool
  have start : Discarding run.heap run.live (reserved.map node) (some run.heap) :=
    ⟨run.heap, reserved, rfl, rfl, pool, rfl, rfl, rfl⟩
  have first : run.heap.readNext run.heap.vReserved =
      some ((reserved.map node).headD run.heap.vReserved) := by
    rw [VariantHeap.readNext, if_pos (pool.hasNode _ List.mem_cons_self), pool.ring.next_head]
  have ⟨second, read⟩ := start.leads.read
  have rounded : (reserved.map node).length < rounds := by
    rw [List.length_map, ← accounts.books.reservedCount]
    exact enough
  have ⟨final, visits, ends⟩ := forEachSafeFrom_visits
    (fun rest state => Discarding.leads) (fun p rest state => Discarding.step) start
    (start.leads.read_eq read) rounded
  have ⟨heap, left, same, nodes, after, head, stat, cells⟩ := ends
  have none : left = [] := List.map_eq_nil_iff.1 nodes.symm
  rw [none] at after
  have ring := after.ring
  rw [head, List.map_nil] at ring
  have blocks : heap.allocated = run.live := by
    ext value
    rw [after.cover]
    exact or_iff_left (List.not_mem_nil)
  rw [Option.bind_some] at read
  rw [same] at visits
  refine ⟨heap, ?_, ring, blocks, stat, cells⟩
  rw [cleanupReserved, first, Option.bind_eq_bind, Option.bind_some, read]
  exact visits

/-- In every reachable state the end of the heap visits each reserved variant once in the order of
the list, reads and writes nothing that is not allocated, and leaves the live variants as the only
blocks. -/
theorem cleanupReserved_frees (checked : Bool) (run : HeapRun) (rounds : ℕ)
    (reachable : (heapMachine checked).Reachable run)
    (enough : run.heap.stat.nrReserved.toNat < rounds) :
    ∃ reserved final, Accounts run reserved ∧
      cleanupReserved rounds run.heap = some (reserved.map node, some final) ∧
      final.links.Ring run.heap.vReserved [] ∧ final.allocated = run.live ∧
      final.stat = run.heap.stat ∧ final.cells = run.heap.cells := by
  have ⟨reserved, accounts⟩ := Accounts.of_reachable reachable
  have ⟨final, cleans⟩ := accounts.cleanup enough
  exact ⟨reserved, final, accounts, cleans⟩

/-- A heap with one reserved variant is cleaned up. -/
theorem cleanupReserved_frees_string : ∃ reserved final,
    Accounts (Accounts.reservedRun (Accounts.newRun reuseStart 4096 .string .string) 4096)
      reserved ∧
    cleanupReserved 2
        (Accounts.reservedRun (Accounts.newRun reuseStart 4096 .string .string) 4096).heap =
      some (reserved.map node, some final) ∧
    final.links.Ring 64 [] ∧ final.allocated = ∅ ∧
    final.stat =
      (Accounts.reservedRun (Accounts.newRun reuseStart 4096 .string .string) 4096).heap.stat ∧
    final.cells =
      (Accounts.reservedRun (Accounts.newRun reuseStart 4096 .string .string) 4096).heap.cells :=
  cleanupReserved_frees true _ 2
    (Machine.Reachable.step (.step (.start ⟨_, _, _, _, rfl⟩) reuse_handedOut.1) reuse_putBack.1)
    (by decide)

end Bpcp.Purc
