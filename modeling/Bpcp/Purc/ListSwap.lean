import Bpcp.Purc.ListHead

/-!
# Exchanging two entries

`list_swap` takes one or two entries out of their lists and puts them in again at places that
it has saved before. When the entries are neighbours one move is enough. Otherwise the first
entry is moved in front of the second, and then the second to the saved place of the first,
which may have been next to either of them. In each case two nodes that point at each other
still do so after the names of the two entries are exchanged, and so every list is the former
one with the two entries exchanged.
-/

namespace Bpcp.Purc

open Bpcp.Lib

/-- `list_swap`, the links that it leaves. -/
def listSwap (links : Links Nat) (l r : Nat) : Links Nat :=
  if l = r then links
  else
    let lPrev := links.prev l
    let lNext := links.next l
    let rPrev := links.prev r
    let rNext := links.next r
    if lPrev = r then
      let links := listDel links r
      _listAdd links r l lNext
    else if lNext = r then
      let links := listDel links l
      _listAdd links l r rNext
    else
      let links := listDel links l
      let links := _listAdd links l rPrev r
      let links := listDel links r
      _listAdd links r lPrev lNext

/-- An entry of a list: it and its neighbours point at each other, and it is not alone. -/
structure Entry (links : Links Nat) (entry : Nat) : Prop where
  /-- The node before. -/
  before : links.Joined (links.prev entry) entry
  /-- The node after. -/
  after : links.Joined entry (links.next entry)
  /-- The node before is another one. -/
  prevNe : links.prev entry ≠ entry
  /-- The node after is another one. -/
  nextNe : links.next entry ≠ entry

/-- In every list the entries `l` and `r` have exchanged their places, and everything else has
kept its place. -/
def EntriesExchanged (before after : Links Nat) (l r : Nat) : Prop :=
  ∀ head elems, before.Ring head elems → head ≠ l → head ≠ r →
    after.Ring head (elems.map (Equiv.swap l r))

variable {links : Links Nat} {head entry new prev next node : Nat} {elems : List Nat}

/-! ## Fields after one operation -/

/-- The next fields after an entry is deleted. -/
theorem listDel_next (apart : links.next entry ≠ entry) :
    (listDel links entry).next node =
      if node = entry then null else if node = links.prev entry then links.next entry
      else links.next node := by
  rw [listDel, _listDel_eq apart, Links.setNext_next, Links.setPrev_next, Links.join_next]

/-- The previous fields after an entry is deleted. -/
theorem listDel_prev (apart : links.next entry ≠ entry) :
    (listDel links entry).prev node =
      if node = entry then null else if node = links.next entry then links.prev entry
      else links.prev node := by
  rw [listDel, _listDel_eq apart, Links.setNext_prev, Links.setPrev_prev, Links.join_prev]

/-- The next fields after an entry is added. -/
theorem _listAdd_next :
    (_listAdd links new prev next).next node =
      if node = prev then new else if node = new then next else links.next node := by
  rw [_listAdd_eq, Links.join_next, Links.join_next]

/-- The previous fields after an entry is added. -/
theorem _listAdd_prev :
    (_listAdd links new prev next).prev node =
      if node = new then prev else if node = next then new else links.prev node := by
  rw [_listAdd_eq, Links.join_prev, Links.join_prev]

/-! ## Neighbours -/

/-- An entry of a list is joined to its neighbours. -/
theorem Entry.of_ring (ring : links.Ring head elems) (member : entry ∈ elems) :
    Entry links entry := by
  obtain ⟨front, back, rfl⟩ := List.append_of_mem member
  have turned := ring.rotate
  have apart := (List.nodup_cons.1 turned.distinct).1
  have nextNe : links.next entry ≠ entry := by
    rw [Ne, turned.next_head_eq_iff]
    simp
  refine ⟨turned.joined_prev, turned.joined_next, ?_, nextNe⟩
  intro same
  have alone := turned.joined_prev.1
  rw [same] at alone
  exact nextNe alone

/-- Two entries of which neither is the head are not the only nodes of a list. -/
theorem next_next_ne (ring : links.Ring head elems) (member : entry ∈ elems)
    (notHead : links.next entry ≠ head) : links.next (links.next entry) ≠ entry := by
  obtain ⟨front, back, rfl⟩ := List.append_of_mem member
  have turned := ring.rotate
  have inside : head ∈ back ++ head :: front := by simp
  rw [turned.next_head] at notHead ⊢
  generalize back ++ head :: front = others at turned inside notHead ⊢
  match others with
  | [] => simp at inside
  | [first] => exact absurd (List.mem_singleton.1 inside).symm notHead
  | first :: second :: rest => exact turned.next_first_ne

/-- An entry is moved behind the next one. -/
theorem moveBehind_joined {left right x y : Nat} (entryL : Entry links left)
    (entryR : Entry links right) (follows : links.next left = right)
    (more : links.next right ≠ left) (joined : links.Joined x y) :
    (_listAdd (listDel links left) left right (links.next right)).Joined
      (Equiv.swap left right x) (Equiv.swap left right y) := by
  obtain ⟨⟨comesBefore, -⟩, ⟨-, leadsBack⟩, prevNe, nextNe⟩ := entryL
  have after := entryR.after.2
  have nextNeR := entryR.nextNe
  obtain ⟨forward, backward⟩ := joined
  constructor
  · rw [_listAdd_next, listDel_next nextNe, Equiv.swap_apply_def, Equiv.swap_apply_def]
    grind
  · rw [_listAdd_prev, listDel_prev nextNe, Equiv.swap_apply_def, Equiv.swap_apply_def]
    grind

/-! ## Entries that are not neighbours -/

section Distant

variable {l r x y : Nat}

/-- Once the first entry is in front of the second, these are the nodes around the second. -/
theorem moved_around (apart : l ≠ r) (entryL : Entry links l) (entryR : Entry links r)
    (notBefore : links.prev l ≠ r) :
    (_listAdd (listDel links l) l (links.prev r) r).next r = links.next r ∧
      (_listAdd (listDel links l) l (links.prev r) r).prev r = l ∧
      (_listAdd (listDel links l) l (links.prev r) r).next r ≠ r := by
  have next : (_listAdd (listDel links l) l (links.prev r) r).next r = links.next r := by
    rw [_listAdd_next, listDel_next entryL.nextNe, if_neg entryR.prevNe.symm,
      if_neg apart.symm, if_neg apart.symm, if_neg notBefore.symm]
  refine ⟨next, ?_, ?_⟩
  · rw [_listAdd_prev, if_neg apart.symm, if_pos rfl]
  · rw [next]
    exact entryR.nextNe

/-- The next fields after two entries that are not neighbours are exchanged. -/
theorem listSwap_distant_next (apart : l ≠ r) (entryL : Entry links l) (entryR : Entry links r)
    (notBefore : links.prev l ≠ r) (notAfter : links.next l ≠ r) :
    (listSwap links l r).next node =
      if node = links.prev l then r else if node = r then links.next l
      else if node = l then links.next r else if node = links.prev r then l
      else links.next node := by
  obtain ⟨nextR, prevR, notAlone⟩ := moved_around apart entryL entryR notBefore
  have before := entryL.before.1
  have after := entryR.before.1
  rw [listSwap, if_neg apart]
  dsimp only
  rw [if_neg notBefore, if_neg notAfter, _listAdd_next, listDel_next notAlone, nextR, prevR,
    _listAdd_next, listDel_next entryL.nextNe]
  grind

/-- The previous fields after two entries that are not neighbours are exchanged. -/
theorem listSwap_distant_prev (apart : l ≠ r) (entryL : Entry links l) (entryR : Entry links r)
    (notBefore : links.prev l ≠ r) (notAfter : links.next l ≠ r) :
    (listSwap links l r).prev node =
      if node = links.next l then r else if node = r then links.prev l
      else if node = l then links.prev r else if node = links.next r then l
      else links.prev node := by
  obtain ⟨nextR, prevR, notAlone⟩ := moved_around apart entryL entryR notBefore
  have before := entryL.after.2
  have after := entryR.after.2
  rw [listSwap, if_neg apart]
  dsimp only
  rw [if_neg notBefore, if_neg notAfter, _listAdd_prev, listDel_prev notAlone, nextR, prevR,
    _listAdd_prev, listDel_prev entryL.nextNe]
  grind

/-- Two entries that are not neighbours are exchanged. -/
theorem listSwap_distant_joined (apart : l ≠ r) (entryL : Entry links l) (entryR : Entry links r)
    (notBefore : links.prev l ≠ r) (notAfter : links.next l ≠ r) (joined : links.Joined x y) :
    (listSwap links l r).Joined (Equiv.swap l r x) (Equiv.swap l r y) := by
  have beforeL := entryL.before.1
  have beforeR := entryR.before.1
  have afterL := entryL.after.2
  have afterR := entryR.after.2
  have prevNeL := entryL.prevNe
  have prevNeR := entryR.prevNe
  have nextNeL := entryL.nextNe
  have nextNeR := entryR.nextNe
  obtain ⟨forward, backward⟩ := joined
  -- The next node is the renamed one, whether the node is an entry, the one before, or neither.
  have nexts : (listSwap links l r).next (Equiv.swap l r x) = Equiv.swap l r y := by
    rw [listSwap_distant_next apart entryL entryR notBefore notAfter]
    by_cases isL : x = l
    · rw [isL, Equiv.swap_apply_left, Equiv.swap_apply_of_ne_of_ne (by grind) (by grind)]
      grind
    by_cases isR : x = r
    · rw [isR, Equiv.swap_apply_right, Equiv.swap_apply_of_ne_of_ne (by grind) (by grind)]
      grind
    rw [Equiv.swap_apply_of_ne_of_ne isL isR, Equiv.swap_apply_def]
    grind
  have prevs : (listSwap links l r).prev (Equiv.swap l r y) = Equiv.swap l r x := by
    rw [listSwap_distant_prev apart entryL entryR notBefore notAfter]
    by_cases isL : y = l
    · rw [isL, Equiv.swap_apply_left, Equiv.swap_apply_of_ne_of_ne (by grind) (by grind)]
      grind
    by_cases isR : y = r
    · rw [isR, Equiv.swap_apply_right, Equiv.swap_apply_of_ne_of_ne (by grind) (by grind)]
      grind
    rw [Equiv.swap_apply_of_ne_of_ne isL isR, Equiv.swap_apply_def]
    grind
  exact ⟨nexts, prevs⟩

end Distant

/-! ## Lists -/

variable {lh rh l r : Nat} {ls rs : List Nat}

/-- Exchanging the entries keeps nodes joined that point at each other. -/
theorem listSwap_joined {x y : Nat} (apart : l ≠ r) (entryL : Entry links l)
    (entryR : Entry links r) (moreL : links.next l = r → links.next r ≠ l)
    (moreR : links.next r = l → links.next l ≠ r) (joined : links.Joined x y) :
    (listSwap links l r).Joined (Equiv.swap l r x) (Equiv.swap l r y) := by
  by_cases isBefore : links.prev l = r
  · have follows : links.next r = l := by
      rw [← isBefore]
      exact entryL.before.1
    have moved := moveBehind_joined entryR entryL follows (moreR follows) joined
    rw [listSwap, if_neg apart, if_pos isBefore, Equiv.swap_comm]
    exact moved
  by_cases isAfter : links.next l = r
  · have moved := moveBehind_joined entryL entryR isAfter (moreL isAfter) joined
    rw [listSwap, if_neg apart, if_neg isBefore, if_pos isAfter]
    exact moved
  · exact listSwap_distant_joined apart entryL entryR isBefore isAfter joined

/-- An entry that follows another one is not followed by it, unless it is the head. -/
theorem next_ne_of_follows (ring : links.Ring lh ls) (member : l ∈ ls) (notHead : lh ≠ r)
    (follows : links.next l = r) : links.next r ≠ l := by
  have step := next_next_ne ring member (by rw [follows]; exact notHead.symm)
  rwa [follows] at step

/-- Two entries are exchanged in the ring of every other node. -/
theorem ring_listSwap {head : Nat} {elems : List Nat} (ringL : links.Ring lh ls)
    (ringR : links.Ring rh rs) (memberL : l ∈ ls) (memberR : r ∈ rs) (apart : l ≠ r)
    (lists : lh = rh ∧ ls = rs ∨ (lh :: ls).Disjoint (rh :: rs))
    (ring : links.Ring head elems) (notL : head ≠ l) (notR : head ≠ r) :
    (listSwap links l r).Ring head (elems.map (Equiv.swap l r)) := by
  have notHead : lh ≠ r ∧ rh ≠ l := by
    rcases lists with ⟨heads, elems⟩ | disjoint
    · subst heads
      subst elems
      have outside := (List.nodup_cons.1 ringL.distinct).1
      exact ⟨fun same => outside (same ▸ memberR), fun same => outside (same ▸ memberL)⟩
    · exact ⟨fun same => disjoint List.mem_cons_self (same ▸ List.mem_cons_of_mem rh memberR),
        fun same => disjoint (List.mem_cons_of_mem lh memberL) (same ▸ List.mem_cons_self)⟩
  have renamed := ring.map (Equiv.swap l r).injective fun x y =>
    listSwap_joined apart (.of_ring ringL memberL) (.of_ring ringR memberR)
      (next_ne_of_follows ringL memberL notHead.1) (next_ne_of_follows ringR memberR notHead.2)
  rwa [Equiv.swap_apply_of_ne_of_ne notL notR] at renamed

/-- Two entries of one list, or of two disjoint lists, exchange their places, and every other
entry keeps its place. -/
theorem listSwap_exchanges (ringL : links.Ring lh ls) (ringR : links.Ring rh rs)
    (memberL : l ∈ ls) (memberR : r ∈ rs) (apart : l ≠ r)
    (lists : lh = rh ∧ ls = rs ∨ (lh :: ls).Disjoint (rh :: rs)) :
    EntriesExchanged links (listSwap links l r) l r :=
  fun _ _ ring notL notR => ring_listSwap ringL ringR memberL memberR apart lists ring notL notR

/-- The two entries of a list are exchanged. -/
theorem listSwap_exchanges_pair : (listSwap emptyAndPair 3 4).Ring 2 [4, 3] :=
  listSwap_exchanges emptyAndPair_right emptyAndPair_right (by simp) (by simp) (by decide)
    (.inl ⟨rfl, rfl⟩) 2 [3, 4] emptyAndPair_right (by decide) (by decide)

end Bpcp.Purc
