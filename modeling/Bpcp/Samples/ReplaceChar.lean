import Bpcp.Lib.CString
import Bpcp.Lib.FilledArray
import Bpcp.Lib.Run

/-!
# Replacing a character

`replace_char` replaces each character of a string that is equal to a needle with a lowercase
letter. The letter is the first one that is neither the character before, which may be a
replacement itself, nor the character behind, which may be a needle that is still to be replaced.
-/

namespace Bpcp.Samples

open Bpcp.Lib Bpcp.Lib.Run

/-- A character from `'a'` to `'z'`. -/
def IsLetter (ch : UInt8) : Prop := 97 ≤ ch ∧ ch ≤ 122

instance (ch : UInt8) : Decidable (IsLetter ch) := inferInstanceAs (Decidable (_ ∧ _))

/-- The values of `ch` in the inner loop of `replace_char`. -/
def letters : List UInt8 := (List.range' 97 26).map UInt8.ofNat

/-- The variables of `replace_char`, with the memory from `s` on. -/
structure ReplaceState where
  /-- The memory. -/
  s : List UInt8
  /-- `i`. -/
  i : ℕ
  /-- `n`. -/
  n : ℕ
deriving DecidableEq

/-- The first test of the inner loop: the character before the one at `i`. -/
def isBefore (s : List UInt8) (i : ℕ) (ch : UInt8) : Run Bool :=
  if 0 < i then do
    let before ← defined s[i - 1]?
    .ok (decide (before = ch))
  else .ok false

/-- The second test of the inner loop: the character behind the one at `i`. -/
def isBehind (s : List UInt8) (i : ℕ) (ch : UInt8) : Run Bool := do
  let current ← defined s[i]?
  if current ≠ 0 then do
    let behind ← defined s[i + 1]?
    .ok (decide (behind = ch))
  else .ok false

/-- The condition under which the inner loop skips a character. -/
def isBeside (s : List UInt8) (i : ℕ) (ch : UInt8) : Run Bool := do
  let before ← isBefore s i ch
  if before then .ok true else isBehind s i ch

/-- The inner loop of `replace_char`, for the values of `ch` that are left. -/
def chooseLoop (state : ReplaceState) : List UInt8 → Run ReplaceState
  | [] => .ok state
  | ch :: rest => do
    let skipped ← isBeside state.s state.i ch
    if skipped then chooseLoop state rest
    else do
      let s ← defined (assignAt state.s state.i ch)
      .ok { state with s, n := state.n + 1 }

/-- A turn of the outer loop of `replace_char`. -/
def replaceTurn (needle : UInt8) (state : ReplaceState) : Run ReplaceState := do
  let current ← defined state.s[state.i]?
  let state ← if current = needle then chooseLoop state letters else .ok state
  .ok { state with i := state.i + 1 }

/-- `replace_char`, with the memory behind it. The loop goes on unless it reads a NUL; a turn
outside the memory is not defined, so there are no more turns than characters. -/
def replaceChar (s : List UInt8) (needle : UInt8) : Run (List UInt8 × ℕ) := do
  let state ← whileLoop (fun state => state.s[state.i]? ≠ some 0) (replaceTurn needle)
    (s.length + 1) ⟨s, 0, 0⟩
  .ok (state.s, state.n)

variable {s whole : List UInt8} {i n : ℕ} {needle ch : UInt8}

/-! ## Choosing a letter -/

/-- The inner loop tries the letters. -/
theorem mem_letters : ch ∈ letters ↔ IsLetter ch := by
  unfold letters IsLetter
  rw [List.mem_map, UInt8.le_iff_toNat_le, UInt8.le_iff_toNat_le]
  constructor
  · rintro ⟨k, range, rfl⟩
    rw [List.mem_range'_1] at range
    rw [UInt8.toNat_ofNat_of_lt' (by show k < 256; omega)]
    show 97 ≤ k ∧ k ≤ 122
    omega
  · rintro ⟨low, high⟩
    change 97 ≤ ch.toNat at low
    change ch.toNat ≤ 122 at high
    exact ⟨ch.toNat, List.mem_range'_1.2 ⟨low, by omega⟩, UInt8.ofNat_toNat⟩

/-- A character is next to the one at an index. -/
def Beside (s : List UInt8) (i : ℕ) (ch : UInt8) : Prop :=
  0 < i ∧ s[i - 1]? = some ch ∨ s[i + 1]? = some ch

instance (s : List UInt8) (i : ℕ) (ch : UInt8) : Decidable (Beside s i ch) :=
  inferInstanceAs (Decidable (_ ∨ _))

/-- A character next to an index stays there when more is behind. -/
theorem Beside.append {front : List UInt8} (beside : Beside front i ch)
    (inside : i + 1 < front.length) (rest : List UInt8) : Beside (front ++ rest) i ch := by
  unfold Beside
  rwa [List.getElem?_append_left inside, List.getElem?_append_left (by omega)]

/-- One of three letters is not next to an index. -/
theorem exists_not_beside (s : List UInt8) (i : ℕ) : ∃ ch ∈ letters, ¬Beside s i ch := by
  by_contra all
  push Not at all
  have a := all 97 (by decide)
  have b := all 98 (by decide)
  have c := all 99 (by decide)
  unfold Beside at a b c
  grind

/-- The first test is made inside the memory. -/
theorem isBefore_eq (inside : i < s.length) (ch : UInt8) :
    isBefore s i ch = .ok (decide (0 < i ∧ s[i - 1]? = some ch)) := by
  unfold isBefore
  rw [List.getElem?_eq_getElem (Nat.lt_of_le_of_lt (Nat.sub_le i 1) inside)]
  split_ifs with positive
  · apply congrArg Except.ok
    rw [decide_eq_decide, Option.some_inj, and_iff_right positive]
  · apply congrArg Except.ok
    rw [eq_comm, decide_eq_false_iff_not]
    exact fun both => positive both.1

/-- The second test is made inside the memory. -/
theorem isBehind_eq {current : UInt8} (there : s[i]? = some current) (nonzero : current ≠ 0)
    (inside : i + 1 < s.length) (ch : UInt8) :
    isBehind s i ch = .ok (decide (s[i + 1]? = some ch)) := by
  unfold isBehind
  rw [there, List.getElem?_eq_getElem inside]
  show (if current ≠ 0 then _ else _) = _
  rw [if_pos nonzero]
  apply congrArg Except.ok
  rw [decide_eq_decide, Option.some_inj]

/-- In a string the inner loop finds out which characters are next to the index. -/
theorem isBeside_eq {current : UInt8} (there : s[i]? = some current) (nonzero : current ≠ 0)
    (inside : i + 1 < s.length) (ch : UInt8) :
    isBeside s i ch = .ok (decide (Beside s i ch)) := by
  unfold isBeside
  rw [isBefore_eq (Nat.lt_of_succ_lt inside), isBehind_eq there nonzero inside]
  by_cases before : 0 < i ∧ s[i - 1]? = some ch
  · rw [decide_eq_true before, decide_eq_true (show Beside s i ch from Or.inl before)]
    rfl
  · rw [decide_eq_false before]
    exact congrArg Except.ok (decide_eq_decide.2 (or_iff_right before).symm)

/-- The inner loop stores a letter that is not next to the index, when there is one. -/
theorem chooseLoop_eq {current : UInt8} {rest : List UInt8} (there : s[i]? = some current)
    (nonzero : current ≠ 0) (inside : i + 1 < s.length) (possible : ∃ ch ∈ rest, ¬Beside s i ch) :
    ∃ ch ∈ rest, ¬Beside s i ch ∧ chooseLoop ⟨s, i, n⟩ rest = .ok ⟨s.set i ch, i, n + 1⟩ := by
  induction rest with
  | nil => simp at possible
  | cons ch rest ih =>
    rw [chooseLoop]
    dsimp only
    rw [isBeside_eq there nonzero inside]
    by_cases beside : Beside s i ch
    · rw [decide_eq_true beside]
      obtain ⟨other, member, free⟩ := possible
      have later : other ∈ rest := by
        rcases List.mem_cons.1 member with rfl | later
        · exact absurd beside free
        · exact later
      obtain ⟨chosen, among, good, run⟩ := ih ⟨other, later, free⟩
      exact ⟨chosen, List.mem_cons_of_mem _ among, good, run⟩
    · rw [decide_eq_false beside]
      refine ⟨ch, List.mem_cons_self, beside, ?_⟩
      show (defined (assignAt s i ch) >>= _) = _
      rw [assignAt, if_pos (Nat.lt_of_succ_lt inside)]
      rfl

/-! ## Replacing the needles -/

/-- Before an index each needle is replaced. -/
structure Replacing (needle : UInt8) (whole s : List UInt8) (i : ℕ) : Prop where
  /-- The memory keeps its size. -/
  length_eq : s.length = whole.length
  /-- The other characters are as they were. -/
  kept : ∀ k, i ≤ k ∨ whole[k]? ≠ some needle → s[k]? = whole[k]?
  /-- A letter takes the place of a needle, and differs from the characters next to it. -/
  chosen : ∀ k < i, whole[k]? = some needle →
    ∃ ch, IsLetter ch ∧ s[k]? = some ch ∧ ¬Beside s k ch

/-- Another character is passed by. -/
theorem Replacing.skip (replacing : Replacing needle whole s i) (other : whole[i]? ≠ some needle) :
    Replacing needle whole s (i + 1) where
  length_eq := replacing.length_eq
  kept := fun k unchanged => replacing.kept k (unchanged.imp_left Nat.le_of_succ_le)
  chosen := by
    intro k before found
    rcases Nat.lt_succ_iff_lt_or_eq.1 before with before | rfl
    · exact replacing.chosen k before found
    · exact absurd found other

/-- A letter stays different from its neighbours when the next needle becomes another letter. -/
theorem Beside.of_set {old : UInt8} {k : ℕ} (before : k < i) (inside : i < s.length)
    (there : s[k]? = some old) (free : ¬Beside s i ch) (beside : Beside (s.set i ch) k old) :
    Beside s k old := by
  rcases beside with left | right
  · rw [List.getElem?_set_ne (show i ≠ k - 1 by omega)] at left
    exact Or.inl left
  · by_cases next : i = k + 1
    · subst next
      rw [List.getElem?_set_self inside, Option.some_inj] at right
      rw [← right] at there
      exact absurd (Or.inl ⟨Nat.succ_pos k, there⟩) free
    · rw [List.getElem?_set_ne next] at right
      exact Or.inr right

/-- A stored character does not change which characters are next to it. -/
theorem Beside.of_set_self (beside : Beside (s.set i ch) i ch) : Beside s i ch := by
  rcases beside with ⟨positive, left⟩ | right
  · rw [List.getElem?_set_ne (by omega)] at left
    exact Or.inl ⟨positive, left⟩
  · rw [List.getElem?_set_ne (Nat.succ_ne_self i).symm] at right
    exact Or.inr right

/-- A needle is replaced. -/
theorem Replacing.replace (replacing : Replacing needle whole s i)
    (found : whole[i]? = some needle) (letter : IsLetter ch) (free : ¬Beside s i ch) :
    Replacing needle whole (s.set i ch) (i + 1) where
  length_eq := (List.length_set ..).trans replacing.length_eq
  kept := by
    intro k unchanged
    have elsewhere : i ≠ k := by
      rintro rfl
      rcases unchanged with after | other
      · omega
      · exact other found
    rw [List.getElem?_set_ne elsewhere]
    exact replacing.kept k (unchanged.imp_left Nat.le_of_succ_le)
  chosen := by
    have inside : i < s.length := by
      rw [replacing.length_eq]
      exact (List.getElem?_eq_some_iff.1 found).1
    intro k before foundAt
    rcases Nat.lt_succ_iff_lt_or_eq.1 before with before | rfl
    · obtain ⟨old, oldLetter, there, oldFree⟩ := replacing.chosen k before foundAt
      refine ⟨old, oldLetter, ?_, ?_⟩
      · rwa [List.getElem?_set_ne before.ne']
      · exact fun beside => oldFree (beside.of_set before inside there free)
    · refine ⟨ch, letter, List.getElem?_set_self inside, ?_⟩
      exact fun beside => free beside.of_set_self

/-- A turn of the outer loop goes on to the next character. -/
theorem replaceTurn_ends {current : UInt8} {mayStop : Prop}
    (replacing : Replacing needle whole s i) (there : whole[i]? = some current)
    (nonzero : current ≠ 0) (inside : i + 1 < whole.length) :
    Ends mayStop (fun next => next.i = i + 1 ∧ Replacing needle whole next.s (i + 1) ∧
        next.n = n + [current].count needle)
      (replaceTurn needle ⟨s, i, n⟩) := by
  have same : s[i]? = some current := (replacing.kept i (Or.inl le_rfl)).trans there
  unfold replaceTurn
  apply Ends.defined_bind same
  by_cases found : current = needle
  · subst found
    rw [if_pos rfl, List.count_singleton_self]
    rw [← replacing.length_eq] at inside
    obtain ⟨ch, among, free, run⟩ := chooseLoop_eq (n := n) same nonzero inside
      (exists_not_beside s i)
    rw [run]
    exact .returns ⟨rfl, replacing.replace there (mem_letters.1 among) free, rfl⟩
  · rw [if_neg found, List.count_singleton, if_neg (by simpa using found)]
    refine .returns ⟨rfl, replacing.skip ?_, rfl⟩
    rw [there]
    exact fun same => found (Option.some.inj same)

/-- Each needle in a string is replaced. -/
structure Replaced (needle : UInt8) (text replaced : CString) : Prop where
  /-- The length is unchanged. -/
  strlen_eq : replaced.strlen = text.strlen
  /-- No character is a needle. -/
  needle_gone : needle ∉ replaced.bytes
  /-- The other characters are unchanged. -/
  kept : ∀ k : ℕ, text.bytes[k]? ≠ some needle → replaced.bytes[k]? = text.bytes[k]?
  /-- A letter takes the place of a needle, and differs from the characters next to it, of which
  the last one may be the terminator. -/
  chosen : ∀ k : ℕ, text.bytes[k]? = some needle →
    ∃ ch, IsLetter ch ∧ replaced.bytes[k]? = some ch ∧ ¬Beside replaced.stored k ch

/-- The characters of a string in memory. -/
theorem stored_getElem? (text : CString) (rest : List UInt8) {k : ℕ} (inside : k < text.strlen) :
    (text.stored ++ rest)[k]? = text.bytes[k]? := by
  rw [CString.stored, List.append_assoc, List.getElem?_append_left inside]

/-- A character in front of the terminator is a letter, or it was there before and is no
needle. -/
theorem Replacing.letter_or_kept {text : CString} {rest : List UInt8} {k : ℕ} {byte : UInt8}
    (replacing : Replacing needle (text.stored ++ rest) s text.strlen) (inside : k < text.strlen)
    (there : s[k]? = some byte) : IsLetter byte ∨ text.bytes[k]? = some byte ∧ byte ≠ needle := by
  by_cases found : (text.stored ++ rest)[k]? = some needle
  · obtain ⟨ch, letter, same, -⟩ := replacing.chosen k inside found
    rw [there] at same
    exact Or.inl (Option.some.inj same ▸ letter)
  · rw [replacing.kept k (Or.inr found)] at there
    refine Or.inr ⟨stored_getElem? text rest inside ▸ there, ?_⟩
    rintro rfl
    exact found there

/-- What the loop leaves when it is at the terminator: as many characters in front of it, and the
terminator and what is behind it as they were. -/
theorem Replacing.split {text : CString} {rest : List UInt8}
    (replacing : Replacing needle (text.stored ++ rest) s text.strlen) :
    (s.take text.strlen).length = text.strlen ∧ s = s.take text.strlen ++ 0 :: rest := by
  constructor
  · rw [List.length_take, replacing.length_eq, List.length_append, CString.stored,
      List.length_append, CString.strlen]
    omega
  · have behind : s.drop text.strlen = 0 :: rest := by
      apply List.ext_getElem?
      intro k
      rw [List.getElem?_drop, replacing.kept _ (Or.inl (Nat.le_add_right ..)), CString.stored,
        List.append_assoc, CString.strlen, List.getElem?_append_right (Nat.le_add_right ..),
        Nat.add_sub_cancel_left]
      rfl
    rw [← behind]
    exact (List.take_append_drop text.strlen s).symm

/-- When the loop is at the terminator, the needles are replaced. -/
theorem Replacing.replaced {text : CString} {rest : List UInt8} (noLetter : ¬IsLetter needle)
    (replacing : Replacing needle (text.stored ++ rest) s text.strlen) :
    ∃ replaced, Replaced needle text replaced ∧ s = replaced.stored ++ rest := by
  obtain ⟨size, split⟩ := replacing.split
  have taken {k : ℕ} (inside : k < text.strlen) : (s.take text.strlen)[k]? = s[k]? :=
    List.getElem?_take_of_lt inside
  have member {byte : UInt8} (member : byte ∈ s.take text.strlen) :
      IsLetter byte ∨ byte ∈ text.bytes ∧ byte ≠ needle := by
    obtain ⟨k, there⟩ := List.mem_iff_getElem?.1 member
    have inside : k < text.strlen := size ▸ (List.getElem?_eq_some_iff.1 there).1
    rw [taken inside] at there
    exact (replacing.letter_or_kept inside there).imp_right
      fun kept => ⟨List.mem_of_getElem? kept.1, kept.2⟩
  let replaced : CString := ⟨s.take text.strlen, fun nul => by
    rcases member nul with letter | kept
    · exact absurd letter (by decide)
    · exact text.noNul kept.1⟩
  have whole : s = replaced.stored ++ rest := by
    rw [CString.stored, List.append_assoc]
    exact split
  refine ⟨replaced, ⟨size, ?_, ?_, ?_⟩, whole⟩
  · intro found
    rcases member found with letter | kept
    · exact noLetter letter
    · exact kept.2 rfl
  · intro k other
    rcases lt_or_ge k text.strlen with inside | outside
    · rw [← stored_getElem? text rest inside] at other ⊢
      exact (taken inside).trans (replacing.kept k (Or.inr other))
    · rw [List.getElem?_eq_none outside, List.getElem?_eq_none (size.trans_le outside)]
  · intro k found
    have inside : k < text.strlen := (List.getElem?_eq_some_iff.1 found).1
    rw [← stored_getElem? text rest inside] at found
    obtain ⟨ch, letter, there, free⟩ := replacing.chosen k inside found
    refine ⟨ch, letter, (taken inside).trans there, fun beside => free ?_⟩
    rw [whole]
    apply beside.append
    rw [CString.stored, List.length_append, List.length_singleton]
    show k + 1 < (s.take text.strlen).length + 1
    omega

/-- What holds before each turn of the outer loop. -/
structure ReplaceInv (needle : UInt8) (text : CString) (rest : List UInt8)
    (state : ReplaceState) : Prop where
  /-- The index is in the string or at its terminator. -/
  inside : state.i ≤ text.strlen
  /-- Before the index each needle is replaced. -/
  replacing : Replacing needle (text.stored ++ rest) state.s state.i
  /-- The needles before the index are counted. -/
  count_eq : state.n = (text.bytes.take state.i).count needle

/-- The outer loop goes on in front of the terminator. -/
theorem ReplaceInv.goes_on_iff {text : CString} {rest : List UInt8} {state : ReplaceState}
    (inv : ReplaceInv needle text rest state) :
    state.s[state.i]? ≠ some 0 ↔ state.i < text.strlen := by
  have same := inv.replacing.kept state.i (Or.inl le_rfl)
  rcases inv.inside.lt_or_eq with inside | atEnd
  · rw [same, stored_getElem? text rest inside, iff_true_right inside]
    exact fun nul => text.noNul (List.mem_of_getElem? nul)
  · have terminator : (text.stored ++ rest)[text.strlen]? = some 0 := by
      rw [CString.stored, CString.strlen, List.append_assoc,
        List.getElem?_append_right le_rfl, Nat.sub_self]
      rfl
    rw [same, atEnd, terminator]
    simp

/-- A turn of the outer loop keeps the invariant. -/
theorem ReplaceInv.turn {text : CString} {rest : List UInt8} {state : ReplaceState}
    (inv : ReplaceInv needle text rest state) (more : state.i < text.strlen) :
    Ends False (fun next => ReplaceInv needle text rest next ∧ next.i = state.i + 1)
      (replaceTurn needle state) := by
  have there : (text.stored ++ rest)[state.i]? = some text.bytes[state.i] := by
    rw [stored_getElem? text rest more]
    exact List.getElem?_eq_getElem more
  have nonzero : text.bytes[state.i] ≠ 0 :=
    ne_of_mem_of_not_mem (List.getElem_mem more) text.noNul
  have room : state.i + 1 < (text.stored ++ rest).length := by
    rw [List.length_append, CString.stored, List.length_append, List.length_singleton]
    exact (Nat.succ_lt_succ more).trans_le (Nat.le_add_right ..)
  apply (replaceTurn_ends inv.replacing there nonzero room).mono
  rintro ⟨s, _, n⟩ ⟨rfl, replacing, count⟩
  refine ⟨⟨more, replacing, ?_⟩, rfl⟩
  rw [show n = _ from count, inv.count_eq, List.take_succ_eq_append_getElem more,
    List.count_append]

/-- `replace_char` leaves no needle and no new equal neighbours. When the needle is not a
lowercase letter, each needle in a string is replaced with a letter that differs from both of its
final neighbours, the rest of the memory is unchanged, and the result is the number of needles. -/
theorem replaceChar_replaces (text : CString) (rest : List UInt8) {needle : UInt8}
    (noLetter : ¬IsLetter needle) :
    ∃ replaced, Replaced needle text replaced ∧
      replaceChar (text.stored ++ rest) needle =
        .ok (replaced.stored ++ rest, text.bytes.count needle) := by
  have untouched : Replacing needle (text.stored ++ rest) (text.stored ++ rest) 0 :=
    ⟨rfl, fun _ _ => rfl, fun _ before => absurd before (Nat.not_lt_zero _)⟩
  have begins : ReplaceInv needle text rest ⟨text.stored ++ rest, 0, 0⟩ :=
    ⟨Nat.zero_le _, untouched, rfl⟩
  have enough : text.strlen - 0 < (text.stored ++ rest).length + 1 := by
    rw [List.length_append, CString.stored, List.length_append, CString.strlen]
    omega
  have loop : Ends False (fun final => ReplaceInv needle text rest final ∧
      ¬final.s[final.i]? ≠ some 0) (whileLoop (fun state => state.s[state.i]? ≠ some 0)
        (replaceTurn needle) ((text.stored ++ rest).length + 1) ⟨text.stored ++ rest, 0, 0⟩) := by
    apply Ends.whileLoop _ (fun state => text.strlen - state.i) begins enough
    intro state inv more
    have more := inv.goes_on_iff.1 more
    apply (inv.turn more).mono
    rintro next ⟨kept, further⟩
    exact ⟨kept, by omega⟩
  obtain ⟨final, run, inv, ends⟩ := loop.exists_value not_false
  have atEnd : final.i = text.strlen := by
    have stopped := mt inv.goes_on_iff.2 ends
    exact le_antisymm inv.inside (not_lt.1 stopped)
  have replacing := inv.replacing
  have count := inv.count_eq
  rw [atEnd] at replacing
  rw [atEnd, CString.strlen, List.take_length] at count
  obtain ⟨replaced, good, memory⟩ := replacing.replaced noLetter
  refine ⟨replaced, good, ?_⟩
  unfold replaceChar
  rw [run, ← memory, ← count]
  rfl

/-- Needles between letters, next to each other and at the end. -/
theorem replaceChar_replaces_mixed :
    ∃ replaced, Replaced 63 (CString.lit "a??b?") replaced ∧
      replaceChar ((CString.lit "a??b?").stored ++ [7]) 63 =
        .ok (replaced.stored ++ [7], (CString.lit "a??b?").bytes.count 63) :=
  replaceChar_replaces (CString.lit "a??b?") [7] (by decide)

end Bpcp.Samples
