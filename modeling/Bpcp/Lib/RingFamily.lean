import Bpcp.Lib.LinkedList

/-!
# Families of rings

Several heads may have rings in the same memory. As long as no node is in two of them, what is
done to the rings of some heads leaves the rings of all others. A family says which nodes are
heads and what their elements are, and memory represents it when the fields of the nodes form
these rings. An operation is understood once it is known which nodes it writes and what the
rings of the heads that it changes look like afterwards.
-/

namespace Bpcp.Lib

namespace Links

variable {α : Type*} {links : Links α} {head : α} {elems : List α}

/-- The last node of a path that goes on with another one. -/
theorem getLastD_append_cons (front : List α) (node fallback : α) (back : List α) :
    (front ++ node :: back).getLastD fallback = back.getLastD node := by
  rw [List.getLastD_eq_getLast?, List.getLastD_eq_getLast?, List.getLast?_append_cons,
    List.getLast?_cons, Option.getD_some]

/-- The first of the elements comes after the head. -/
theorem Ring.prev_eq_head_iff {entry : α} (ring : links.Ring head elems)
    (member : entry ∈ elems) : links.prev entry = head ↔ elems.head? = some entry := by
  have ⟨front, back, split⟩ := List.append_of_mem member
  subst split
  have turned := ring.rotate
  have apart := (List.nodup_cons.1 ring.distinct).1
  rw [turned.prev_head]
  cases front with
  | nil => simp
  | cons first front =>
    have differs : first ≠ entry := by
      intro same
      have distinct := (List.nodup_cons.1 ring.distinct).2
      rw [List.cons_append, List.nodup_cons] at distinct
      exact distinct.1 (by simp [same])
    have last : (back ++ head :: first :: front).getLastD entry = front.getLastD first := by
      rw [getLastD_append_cons, List.getLastD_cons]
    have inside : front.getLastD first ∈ first :: front := List.getLastD_mem_cons
    rw [last, List.cons_append, List.head?_cons, Option.some_inj]
    constructor
    · intro same
      rw [same] at inside
      exact absurd (List.mem_append_left _ inside) apart
    · intro same
      exact absurd same differs

/-- The last of the elements is followed by the head. -/
theorem Ring.next_eq_head_iff {entry : α} (ring : links.Ring head elems)
    (member : entry ∈ elems) : links.next entry = head ↔ elems.getLast? = some entry := by
  have ⟨front, back, split⟩ := List.append_of_mem member
  subst split
  have turned := ring.rotate
  have apart := (List.nodup_cons.1 ring.distinct).1
  rw [turned.next_head]
  cases back with
  | nil => simp
  | cons second back =>
    have differs : (second :: back).getLast? ≠ some entry := by
      intro same
      have distinct := (List.nodup_cons.1 ring.distinct).2
      have inside := List.mem_of_getLast? same
      exact (List.nodup_cons.1 (List.nodup_append.1 distinct).2.1).1 inside
    have last : (front ++ entry :: second :: back).getLast? = (second :: back).getLast? := by
      rw [List.getLast?_append_cons, List.getLast?_cons_cons]
    rw [last, List.cons_append, List.headD_cons]
    constructor
    · intro same
      exact absurd (by simp [same]) apart
    · intro same
      exact absurd same differs

/-- The node after a node of a ring is in the ring. -/
theorem Ring.next_mem {node : α} (ring : links.Ring head elems) (inside : node ∈ head :: elems) :
    links.next node ∈ head :: elems := by
  rcases List.mem_cons.1 inside with same | member
  · rw [same, ring.next_head]
    cases elems <;> simp
  · have ⟨front, back, split⟩ := List.append_of_mem member
    subst split
    rw [ring.rotate.next_head]
    cases back <;> simp

/-- The node before a node of a ring is in the ring. -/
theorem Ring.prev_mem {node : α} (ring : links.Ring head elems) (inside : node ∈ head :: elems) :
    links.prev node ∈ head :: elems := by
  rcases List.mem_cons.1 inside with same | member
  · rw [same, ring.prev_head]
    exact List.getLastD_mem_cons
  · have ⟨front, back, split⟩ := List.append_of_mem member
    subst split
    rw [ring.rotate.prev_head]
    have there : (back ++ head :: front).getLastD node ∈ node :: (back ++ head :: front) :=
      List.getLastD_mem_cons
    grind

/-- The next and the previous nodes are exchanged. -/
def flip (links : Links α) : Links α := ⟨links.prev, links.next⟩

/-- A ring that is read the other way round has its elements in reverse. -/
theorem Ring.flip (ring : links.Ring head elems) : links.flip.Ring head elems.reverse := by
  have distinct : (head :: elems.reverse).Nodup := by
    have ⟨outside, elements⟩ := List.nodup_cons.1 ring.distinct
    exact List.nodup_cons.2 ⟨by simpa using outside, List.nodup_reverse.2 elements⟩
  have unrolled : links.Path (head :: elems ++ [head]) :=
    path_append_singleton.2 ⟨ring.path, ring.closed⟩
  have turned : links.flip.Path (head :: elems ++ [head]).reverse := by
    rw [Path, List.isChain_reverse]
    exact unrolled.imp fun left right joined => ⟨joined.2, joined.1⟩
  rw [List.reverse_append, List.reverse_singleton, List.reverse_cons, ← List.append_assoc,
    List.singleton_append] at turned
  have parts := path_append_singleton.1 turned
  exact ⟨parts.1, parts.2, distinct⟩

variable [DecidableEq α]

/-- A path of other nodes is appended to a ring by joining it between the last element and the
head. -/
theorem Ring.append_path {first : α} {rest : List α} (ring : links.Ring head elems)
    (path : links.Path (first :: rest)) (distinct : (head :: elems ++ first :: rest).Nodup) :
    ((links.join (elems.getLastD head) first).join (rest.getLastD first) head).Ring head
      (elems ++ first :: rest) := by
  have ⟨own, other, apart⟩ := List.nodup_append.1 distinct
  have lastInside : elems.getLastD head ∈ head :: elems := List.getLastD_mem_cons
  have endInside : rest.getLastD first ∈ first :: rest := List.getLastD_mem_cons
  have lastApart := getLastD_notMem_dropLast own
  have endApart := getLastD_notMem_dropLast other
  have closing : (elems ++ first :: rest).getLastD head = rest.getLastD first := by
    exact getLastD_append_cons elems first head rest
  generalize lastEq : elems.getLastD head = last at lastInside lastApart ⊢
  generalize rest.getLastD first = final at endInside endApart closing ⊢
  have separate : last ≠ final := apart last lastInside final endInside
  have headApart : head ≠ first := apart head List.mem_cons_self first List.mem_cons_self
  have front : ((links.join last first).join final head).Path (head :: elems) := by
    apply ring.path.congr
    · intro node inside
      have notLast : node ≠ last := fun same => lastApart (same ▸ inside)
      have notFinal : node ≠ final := apart node (List.mem_of_mem_dropLast inside) final endInside
      simp [notLast, notFinal]
    · intro node inside
      have notHead : node ≠ head := fun same => (List.nodup_cons.1 own).1 (same ▸ inside)
      have notFirst : node ≠ first :=
        apart node (List.mem_cons_of_mem head inside) first List.mem_cons_self
      simp [notHead, notFirst]
  have back : ((links.join last first).join final head).Path (first :: rest) := by
    apply path.congr
    · intro node inside
      have notFinal : node ≠ final := fun same => endApart (same ▸ inside)
      have notLast : node ≠ last :=
        (apart last lastInside node (List.mem_of_mem_dropLast inside)).symm
      simp [notLast, notFinal]
    · intro node inside
      have notFirst : node ≠ first := fun same => (List.nodup_cons.1 other).1 (same ▸ inside)
      have notHead : node ≠ head :=
        (apart head List.mem_cons_self node (List.mem_cons_of_mem first inside)).symm
      simp [notFirst, notHead]
  have seam : ((links.join last first).join final head).Joined last first := by
    simp [Joined, separate, Ne.symm headApart]
  have whole : ((links.join last first).join final head).Path (head :: elems ++ first :: rest) := by
    apply List.isChain_append.2
    have reaches : (head :: elems).getLast? = some last := by
      rw [List.getLast?_cons, List.getLastD_eq_getLast?] at *
      rw [← lastEq]
    have starts : (first :: rest).head? = some first := rfl
    have joined : ∀ x ∈ (head :: elems).getLast?, ∀ y ∈ (first :: rest).head?,
        ((links.join last first).join final head).Joined x y := by
      intro x xLast y yFirst
      rw [reaches] at xLast
      rw [starts] at yFirst
      rw [← Option.some.inj xLast, ← Option.some.inj yFirst]
      exact seam
    exact ⟨front, back, joined⟩
  have closed : ((links.join last first).join final head).Joined
      ((elems ++ first :: rest).getLastD head) head := by
    rw [closing]
    simp [Joined]
  exact ⟨whole, closed, distinct⟩

end Links

/-- The elements of every node that is a head. -/
abbrev RingFamily (α : Type*) := α → Option (List α)

namespace RingFamily

variable {α : Type*} {links other : Links α} {family next : RingFamily α} {head node : α}
  {elems : List α}

/-- The node is a head or an element. -/
def Occupied (family : RingFamily α) (node : α) : Prop :=
  ∃ head elems, family head = some elems ∧ node ∈ head :: elems

/-- The heads of a family have rings in memory that share no node. -/
structure Represents (links : Links α) (family : RingFamily α) : Prop where
  /-- A head has a ring with its elements. -/
  ring : ∀ head elems, family head = some elems → links.Ring head elems
  /-- The rings of two heads share no node. -/
  disjoint : ∀ left ls right rs, family left = some ls → family right = some rs →
    left ≠ right → (left :: ls).Disjoint (right :: rs)

/-- An element belongs to one head only, and is not a head. -/
theorem Represents.owner_unique (represents : Represents links family)
    {left right : α} {ls rs : List α} (listedL : family left = some ls)
    (listedR : family right = some rs) (inL : node ∈ left :: ls) (inR : node ∈ right :: rs) :
    left = right := by
  by_contra apart
  exact represents.disjoint left ls right rs listedL listedR apart inL inR

/-- An element is not a head. -/
theorem Represents.element_not_head (represents : Represents links family)
    (listed : family head = some elems) (member : node ∈ elems) : family node = none := by
  cases own : family node with
  | none => rfl
  | some others =>
    have same := represents.owner_unique listed own (List.mem_cons_of_mem head member)
      List.mem_cons_self
    have distinct := (List.nodup_cons.1 (represents.ring head elems listed).distinct).1
    rw [same] at distinct
    exact absurd member distinct

/-- The node is not in the ring of a head that stays as it is. -/
def Available (family : RingFamily α) (changed : α → Prop) (node : α) : Prop :=
  ∀ head elems, ¬changed head → family head = some elems → node ∉ head :: elems

/-- A node that is not occupied is available. -/
theorem available_of_free {changed : α → Prop} (free : ¬Occupied family node) :
    Available family changed node := by
  intro head elems _ listed inside
  exact free ⟨head, elems, listed, inside⟩

/-- The nodes of a ring that is changed are available. -/
theorem Represents.available {changed : α → Prop} (represents : Represents links family)
    (changes : changed head) (listed : family head = some elems) (inside : node ∈ head :: elems) :
    Available family changed node := by
  intro other others stays listedOther insideOther
  have same := represents.owner_unique listed listedOther inside insideOther
  exact stays (same ▸ changes)

/-- Memory represents a family in which some heads are changed, when only available nodes were
written and the changed heads have separate rings of available nodes. -/
theorem Represents.change (represents : Represents links family) (changed : α → Prop)
    (touched : List α) (stays : ∀ head, ¬changed head → next head = family head)
    (frame : ∀ node ∉ touched,
      other.next node = links.next node ∧ other.prev node = links.prev node)
    (available : ∀ node ∈ touched, Available family changed node)
    (rings : ∀ head elems, changed head → next head = some elems →
      other.Ring head elems ∧ ∀ node ∈ head :: elems, Available family changed node)
    (apart : ∀ left ls right rs, changed left → changed right → next left = some ls →
      next right = some rs → left ≠ right → (left :: ls).Disjoint (right :: rs)) :
    Represents other next where
  ring := by
    intro head elems listed
    by_cases changes : changed head
    · exact (rings head elems changes listed).1
    · rw [stays head changes] at listed
      apply (represents.ring head elems listed).congr
      intro node inside
      exact frame node fun written => available node written head elems changes listed inside
  disjoint := by
    intro left ls right rs listedL listedR differs
    by_cases changesL : changed left
    · by_cases changesR : changed right
      · exact apart left ls right rs changesL changesR listedL listedR differs
      · rw [stays right changesR] at listedR
        have own := (rings left ls changesL listedL).2
        intro node inL inR
        exact own node inL right rs changesR listedR inR
    · rw [stays left changesL] at listedL
      by_cases changesR : changed right
      · have own := (rings right rs changesR listedR).2
        intro node inL inR
        exact own node inR left ls changesL listedL inL
      · rw [stays right changesR] at listedR
        exact represents.disjoint left ls right rs listedL listedR differs

variable [DecidableEq α]

/-- The ring of one head is changed. -/
theorem Represents.change_one {others : List α} (represents : Represents links family)
    (touched : List α)
    (frame : ∀ node ∉ touched,
      other.next node = links.next node ∧ other.prev node = links.prev node)
    (available : ∀ node ∈ touched, Available family (· = head) node)
    (ring : other.Ring head others)
    (nodes : ∀ node ∈ head :: others, Available family (· = head) node) :
    Represents other (Function.update family head (some others)) := by
  apply represents.change (· = head) touched
  · intro other apart
    exact Function.update_of_ne apart _ _
  · exact frame
  · exact available
  · intro changed elems same listed
    subst same
    rw [Function.update_self] at listed
    rw [← Option.some.inj listed]
    exact ⟨ring, nodes⟩
  · intro left ls right rs sameL sameR _ _ differs
    exact absurd (sameL.trans sameR.symm) differs

omit [DecidableEq α] in
/-- What is written at nodes that are not occupied leaves the family. -/
theorem Represents.frame (represents : Represents links family) (touched : List α)
    (frame : ∀ node ∉ touched,
      other.next node = links.next node ∧ other.prev node = links.prev node)
    (free : ∀ node ∈ touched, ¬Occupied family node) : Represents other family := by
  apply represents.change (fun _ => False) touched
  · intro head _
    rfl
  · exact frame
  · intro node written
    exact available_of_free (free node written)
  · intro head elems changes
    exact changes.elim
  · intro left ls right rs changes
    exact changes.elim

/-! ## Changing elements -/

/-- The elements of a head are changed. -/
def modify (family : RingFamily α) (head : α) (change : List α → List α) : RingFamily α :=
  Function.update family head ((family head).map change)

/-- The elements of a head are known. -/
theorem modify_eq (listed : family head = some elems) (change : List α → List α) :
    family.modify head change = Function.update family head (some (change elems)) := by
  rw [modify, listed, Option.map_some]

omit [DecidableEq α] in
/-- A node that is not occupied is not in any ring. -/
theorem free_notMem (free : ¬Occupied family node) (listed : family head = some elems) :
    node ∉ head :: elems := by
  intro inside
  exact free ⟨head, elems, listed, inside⟩

/-- An element is taken out of the ring that has it. -/
def without (family : RingFamily α) (node : α) : RingFamily α :=
  fun head => (family head).map (·.erase node)

/-- An element is in one ring only. -/
theorem Represents.without_eq (represents : Represents links family)
    (listed : family head = some elems) (member : node ∈ elems) :
    family.without node = Function.update family head (some (elems.erase node)) := by
  funext other
  by_cases same : other = head
  · rw [same, Function.update_self, without, listed, Option.map_some]
  · rw [Function.update_of_ne same, without]
    cases listedOther : family other with
    | none => rfl
    | some others =>
      have apart : node ∉ others := by
        intro inside
        exact same (represents.owner_unique listedOther listed (List.mem_cons_of_mem other inside)
          (List.mem_cons_of_mem head member))
      rw [Option.map_some, List.erase_of_not_mem apart]

/-- An element that is taken out is not occupied. -/
theorem Represents.without_free (represents : Represents links family)
    (listed : family head = some elems) (member : node ∈ elems) :
    ¬Occupied (family.without node) node := by
  intro ⟨other, others, listedOther, inside⟩
  rw [without] at listedOther
  have ⟨old, listedOld, erased⟩ := Option.map_eq_some_iff.1 listedOther
  have distinct := List.nodup_cons.1 (represents.ring other old listedOld).distinct
  subst erased
  rcases List.mem_cons.1 inside with same | element
  · rw [← same, represents.element_not_head listed member] at listedOld
    exact absurd listedOld.symm (Option.some_ne_none old)
  · exact absurd element distinct.2.not_mem_erase

/-! ## Nodes that are linked to themselves -/

/-- The node is in no ring, or alone in its own. -/
def Loose (family : RingFamily α) (node : α) : Prop :=
  ∀ head elems, family head = some elems → node ∈ head :: elems → head = node ∧ elems = []

/-- The node is no head any more. -/
def forget (family : RingFamily α) (node : α) : RingFamily α := Function.update family node none

/-- The other heads stay. -/
theorem forget_eq_some (listed : family.forget node head = some elems) :
    head ≠ node ∧ family head = some elems := by
  rw [forget] at listed
  by_cases same : head = node
  · rw [same, Function.update_self] at listed
    exact absurd listed.symm (Option.some_ne_none elems)
  · rw [Function.update_of_ne same] at listed
    exact ⟨same, listed⟩

/-- A head may be forgotten, whatever memory holds. -/
theorem Represents.forget (represents : Represents links family) (node : α) :
    Represents links (family.forget node) where
  ring head elems listed := represents.ring head elems (forget_eq_some listed).2
  disjoint left ls right rs listedL listedR :=
    represents.disjoint left ls right rs (forget_eq_some listedL).2 (forget_eq_some listedR).2

omit [DecidableEq α] in
/-- An empty head is in no other ring. -/
theorem Represents.loose (represents : Represents links family) (empty : family node = some []) :
    Loose family node := by
  intro head elems listed inside
  have same := represents.owner_unique listed empty inside List.mem_cons_self
  rw [same, empty] at listed
  exact ⟨same, (Option.some.inj listed).symm⟩

/-- A node that is alone is free once it is forgotten. -/
theorem Loose.free (loose : Loose family node) : ¬Occupied (family.forget node) node := by
  intro ⟨head, elems, listed, inside⟩
  have ⟨other, stays⟩ := forget_eq_some listed
  exact other (loose head elems stays inside).1

end RingFamily

end Bpcp.Lib
