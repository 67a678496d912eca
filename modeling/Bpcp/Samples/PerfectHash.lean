import Bpcp.Lib.FilledArray
import Bpcp.Lib.MachineInt
import Bpcp.Lib.Run
import Bpcp.Lib.SlotTable
import Bpcp.Samples.Str2Key

/-!
# The search for a perfect hash function

`try_with_nr_slots` stores keywords into slots by their hash keys, and counts the slots that stay
empty: each keyword has a slot of its own when the other slots are as many as the keywords. On
the way it prints the names of the slots from a buffer of 64 characters. `main` tries numbers of
slots until one succeeds. What comes next is not defined when the array of the slots has no
elements or is larger than any object, when the buffer is too small for a name, or when the
number of empty slots is too large for an `int`.
-/

namespace Bpcp.Samples

open Bpcp.Lib Bpcp.Lib.Run

/-- `keywords`, as they are listed. -/
def keywords : List CString :=
  ["ctype", "collate", "numeric", "monetary", "message", "time", "name", "telephone",
    "measurement", "paper", "address", "identification"].map CString.lit

/-- `INT_MAX`. -/
def intMax : ℕ := 2 ^ 31 - 1

/-- The greatest number of pointers in an array: it has at most `SIZE_MAX` bytes. -/
def pointersMax (width : SizeWidth) : ℕ := (sizeMax width).toNat / (width.bits / 8)

/-- The array `slots`, cleared by `memset`. -/
def clearedSlots (width : SizeWidth) (nrSlots : ℕ) : Option (List (Option CString)) :=
  if 1 ≤ nrSlots ∧ nrSlots ≤ pointersMax width then some (List.replicate nrSlots none) else none

/-- The name in `buff`: `strcpy` and `strcat` store `LC_`, the keyword and a terminator. -/
def categoryName (keyword : CString) : Option (List UInt8) :=
  let name := (CString.lit "LC_").bytes ++ keyword.bytes ++ [0]
  if name.length ≤ 64 then some name else none

/-- The slot of a keyword. -/
def slotOf (width : SizeWidth) (nrSlots : ℕ) (keyword : CString) : ℕ :=
  (str2key width (multiplyGnuc width) (some keyword) 0).toNat % nrSlots

/-- A turn of the loop of `try_with_nr_slots` that stores the keywords of a table. -/
def storeKeyword (width : SizeWidth) (table : List CString) (nrSlots i : ℕ)
    (slots : List (Option CString)) : Run (List (Option CString)) := do
  let keyword ← defined table[i]?
  defined (assignAt slots (slotOf width nrSlots keyword) (some keyword))

/-- A turn of the loop of `try_with_nr_slots` that counts empty slots. -/
def countSlot (slots : List (Option CString)) (i n : ℕ) : Run ℕ := do
  let slot ← defined slots[i]?
  match slot with
  | some keyword => do
    let _ ← defined (categoryName keyword)
    .ok n
  | none => if n < intMax then .ok (n + 1) else .error .undefined

/-- `try_with_nr_slots`, for a table of keywords. -/
def tryWithNrSlots (width : SizeWidth) (table : List CString) (nrSlots : ℕ) : Run Bool := do
  let slots ← defined (clearedSlots width nrSlots)
  let slots ← forLoop (storeKeyword width table nrSlots) 0 table.length slots
  let n ← forLoop (countSlot slots) 0 nrSlots 0
  let n := IntType.int32.wrap ((nrSlots : ℤ) - n)
  .ok (n.1 % 2 ^ width.bits = table.length)

/-- The loop of `main`, for at most a number of turns, with the number of slots it reports. -/
def reportLoop (width : SizeWidth) (table : List CString) : ℕ → ℕ → Run (Option ℕ)
  | 0, _ => .error .undefined
  | turns + 1, nrSlots => do
    let found ← tryWithNrSlots width table nrSlots
    if found then .ok (some nrSlots)
    else if nrSlots + 1 < table.length * 10 % 2 ^ width.bits then
      reportLoop width table turns (nrSlots + 1)
    else .ok none

/-- `main` of `str2key.c`, for a table of keywords. -/
def reportNrSlots (width : SizeWidth) (table : List CString) : Run (Option ℕ) :=
  reportLoop width table (table.length * 10) table.length

/-- The keywords have pairwise different slots. -/
def CollisionFree (width : SizeWidth) (table : List CString) (nrSlots : ℕ) : Prop :=
  (table.map (slotOf width nrSlots)).Nodup

instance (width : SizeWidth) (table : List CString) (nrSlots : ℕ) :
    Decidable (CollisionFree width table nrSlots) :=
  inferInstanceAs (Decidable (List.Nodup _))

/-- The greatest number of slots for which the search is made: `n` can count them, and the array
is not larger than any object. -/
def slotsMax (width : SizeWidth) : ℕ := min intMax (pointersMax width)

variable {width : SizeWidth} {table : List CString} {nrSlots : ℕ}

/-! ## Storing -/

/-- The slots behind the first loop. -/
def storedSlots (width : SizeWidth) (table : List CString) (nrSlots : ℕ) :
    List (Option CString) :=
  storeAll (slotOf width nrSlots) table (List.replicate nrSlots none)

/-- There are as many slots as before. -/
theorem storedSlots_length : (storedSlots width table nrSlots).length = nrSlots := by
  rw [storedSlots, storeAll_length, List.length_replicate]

/-- A keyword is stored at an index below the number of slots. -/
theorem slotOf_lt (positive : 1 ≤ nrSlots) (keyword : CString) :
    slotOf width nrSlots keyword < nrSlots := Nat.mod_lt _ positive

/-- The first loop stores each keyword inside the array. -/
theorem storeLoop_eq (positive : 1 ≤ nrSlots) :
    forLoop (storeKeyword width table nrSlots) 0 table.length (List.replicate nrSlots none) =
      .ok (storedSlots width table nrSlots) := by
  have loop : Ends False (fun slots => slots = storedSlots width table nrSlots)
      (forLoop (storeKeyword width table nrSlots) 0 table.length
        (List.replicate nrSlots none)) := by
    apply (Ends.forLoop (fun i slots => slots =
      storeAll (slotOf width nrSlots) (table.take i) (List.replicate nrSlots none)) rfl ?_).mono
    · intro slots all
      rwa [Nat.zero_add, List.take_length] at all
    · rintro i slots - inside rfl
      rw [Nat.zero_add] at inside
      apply Ends.defined_bind (List.getElem?_eq_getElem inside)
      have place : slotOf width nrSlots table[i] < (storeAll (slotOf width nrSlots) (table.take i)
          (List.replicate nrSlots none)).length := by
        rw [storeAll_length, List.length_replicate]
        exact slotOf_lt positive _
      rw [assignAt, if_pos place]
      apply Ends.returns
      rw [storeAll, storeAll, List.take_succ_eq_append_getElem inside, List.foldl_append]
      rfl
  obtain ⟨slots, ended, rfl⟩ := loop.exists_value not_false
  exact ended

/-! ## Counting -/

variable {slots : List (Option CString)}

/-- The name of a keyword fits when the keyword has at most 60 characters. -/
theorem categoryName_eq_none_iff (keyword : CString) :
    categoryName keyword = none ↔ 60 < keyword.strlen := by
  have front : (CString.lit "LC_").bytes.length = 3 := by decide
  unfold categoryName
  dsimp only
  rw [ite_eq_right_iff, List.length_append, List.length_append, front, List.length_singleton,
    CString.strlen]
  simp
  omega

/-- The second loop counts the empty slots, when `n` can count them and each name fits. -/
theorem countLoop_eq (few : slots.count none ≤ intMax)
    (short : ∀ keyword, some keyword ∈ slots → keyword.strlen ≤ 60) :
    forLoop (countSlot slots) 0 slots.length 0 = .ok (slots.count none) := by
  have loop : Ends False (fun n => n = slots.count none)
      (forLoop (countSlot slots) 0 slots.length 0) := by
    apply (Ends.forLoop (fun i n => n = (slots.take i).count none) rfl ?_).mono
    · intro n all
      rwa [Nat.zero_add, List.take_length] at all
    · rintro i n - inside rfl
      rw [Nat.zero_add] at inside
      have next := List.take_succ_eq_append_getElem inside
      unfold countSlot
      apply Ends.defined_bind (List.getElem?_eq_getElem inside)
      rw [next, List.count_append]
      cases there : slots[i] with
      | none =>
        have room : (slots.take i).count none < intMax := by
          have counted : (slots.take (i + 1)).count none ≤ slots.count none :=
            (List.take_sublist _ _).count_le _
          rw [next, List.count_append, there] at counted
          exact counted.trans few
        dsimp only
        rw [if_pos room]
        exact .returns rfl
      | some keyword =>
        have fits : categoryName keyword ≠ none := by
          rw [ne_eq, categoryName_eq_none_iff, not_lt]
          exact short keyword (there ▸ List.getElem_mem inside)
        obtain ⟨name, found⟩ := Option.ne_none_iff_exists'.1 fits
        apply Ends.defined_bind found
        exact .returns rfl
  obtain ⟨n, ended, rfl⟩ := loop.exists_value not_false
  exact ended

/-- The second loop does not come to its end when `n` cannot count the empty slots. -/
theorem countLoop_overflow (front rest : List (Option CString)) (n : ℕ) (small : n ≤ intMax)
    (many : intMax < n + rest.count none) :
    forLoop (countSlot (front ++ rest)) front.length rest.length n = .error .undefined := by
  induction rest generalizing front n with
  | nil =>
    rw [List.count_nil] at many
    omega
  | cons slot rest ih =>
    have there : (front ++ slot :: rest)[front.length]? = some slot := by simp
    have next (n : ℕ) (small : n ≤ intMax) (many : intMax < n + rest.count none) :
        forLoop (countSlot (front ++ slot :: rest)) (front.length + 1) rest.length n =
          .error .undefined := by
      have later := ih (front ++ [slot]) n small many
      rwa [List.append_assoc, List.length_append] at later
    show (countSlot _ _ n >>= _) = _
    unfold countSlot
    rw [there]
    cases slot with
    | none =>
      rw [List.count_cons_self] at many
      show ((if n < intMax then Except.ok (n + 1) else Except.error Stop.undefined) >>= _) = _
      split_ifs with room
      · exact next (n + 1) room (by omega)
      · rfl
    | some keyword =>
      rw [List.count_cons_of_ne (Option.some_ne_none _)] at many
      show ((defined (categoryName keyword) >>= fun _ => Except.ok n) >>= _) = _
      cases categoryName keyword with
      | none => rfl
      | some name => exact next n small many

/-! ## The search -/

/-- The difference that is stored in `n` is the number of slots in use, and the comparison with
a number of type `size_t` keeps it. -/
theorem int_difference {empty : ℕ} (part : empty ≤ nrSlots) (counted : nrSlots ≤ intMax) :
    (IntType.int32.wrap ((nrSlots : ℤ) - empty)).1 % 2 ^ width.bits = (nrSlots - empty : ℕ) := by
  have fits : IntType.int32.Represents ((nrSlots : ℤ) - empty) := by
    have least : IntType.int32.least = -2 ^ 31 := rfl
    have greatest : IntType.int32.greatest = 2 ^ 31 - 1 := rfl
    rw [intMax] at counted
    exact ⟨by rw [least]; omega, by rw [greatest]; omega⟩
  have below : intMax < 2 ^ width.bits := by cases width <;> decide
  rw [IntType.wrap_val fits, ← Nat.cast_sub part]
  have small : nrSlots - empty < 2 ^ width.bits := by omega
  exact_mod_cast Nat.mod_eq_of_lt small

/-- When the array is there, `try_with_nr_slots` stores the keywords and goes on to count. -/
theorem tryWithNrSlots_counts (positive : 1 ≤ nrSlots) (fits : nrSlots ≤ pointersMax width) :
    tryWithNrSlots width table nrSlots =
      (forLoop (countSlot (storedSlots width table nrSlots)) 0 nrSlots 0 >>= fun n =>
        let n := IntType.int32.wrap ((nrSlots : ℤ) - n)
        .ok (decide (n.1 % 2 ^ width.bits = table.length))) := by
  have cleared : clearedSlots width nrSlots = some (List.replicate nrSlots none) :=
    if_pos ⟨positive, fits⟩
  unfold tryWithNrSlots
  rw [cleared]
  show (forLoop _ 0 _ _ >>= _) = _
  rw [storeLoop_eq positive]
  rfl

/-- With a number of slots in range, `try_with_nr_slots` tells whether the keywords have pairwise
different slots. -/
theorem tryWithNrSlots_eq (positive : 1 ≤ nrSlots) (inRange : nrSlots ≤ slotsMax width)
    (short : ∀ keyword ∈ table, keyword.strlen ≤ 60) :
    tryWithNrSlots width table nrSlots = .ok (decide (CollisionFree width table nrSlots)) := by
  obtain ⟨counted, fits⟩ := le_min_iff.1 inRange
  have empty : (storedSlots width table nrSlots).count none ≤ nrSlots := by
    simpa only [storedSlots_length] using
      List.count_le_length (a := none) (l := storedSlots width table nrSlots)
  have counting : forLoop (countSlot (storedSlots width table nrSlots)) 0 nrSlots 0 =
      .ok ((storedSlots width table nrSlots).count none) := by
    have loop := countLoop_eq (empty.trans counted) fun keyword member => by
      rcases mem_storeAll member with listed | before
      · exact short keyword listed
      · exact absurd (List.eq_of_mem_replicate before) (Option.some_ne_none _)
    rwa [storedSlots_length] at loop
  have agree : (IntType.int32.wrap
      ((nrSlots : ℤ) - (storedSlots width table nrSlots).count none)).1 % 2 ^ width.bits =
        table.length ↔ CollisionFree width table nrSlots := by
    rw [int_difference empty counted, Nat.cast_inj]
    exact filled_slots_iff_nodup fun keyword _ => slotOf_lt positive keyword
  rw [tryWithNrSlots_counts positive fits, counting]
  exact congrArg Except.ok (decide_eq_decide.2 agree)

/-- What is reported is the first number of slots from a start on, and without a report there is
none among the numbers that are tried. -/
def Reports (width : SizeWidth) (table : List CString) (start : ℕ) (reported : Option ℕ) : Prop :=
  (∀ nrSlots, reported = some nrSlots →
    IsLeast {n | start ≤ n ∧ CollisionFree width table n} nrSlots) ∧
  (reported = none → ∀ n, start ≤ n → n < table.length * 10 → ¬CollisionFree width table n)

/-- A collision does not count. -/
theorem Reports.collide {start : ℕ} {reported : Option ℕ}
    (collide : ¬CollisionFree width table start)
    (reports : Reports width table (start + 1) reported) :
    Reports width table start reported := by
  have later {n : ℕ} (after : start ≤ n) (free : CollisionFree width table n) : start + 1 ≤ n := by
    rcases after.eq_or_lt with rfl | after
    · exact absurd free collide
    · exact after
  constructor
  · intro nrSlots same
    obtain ⟨⟨after, free⟩, lower⟩ := reports.1 nrSlots same
    refine ⟨⟨(Nat.le_succ start).trans after, free⟩, ?_⟩
    intro n range
    exact lower ⟨later range.1 range.2, range.2⟩
  · intro none n after before free
    exact reports.2 none n (later after free) before free

/-- The loop of `main` reports the first number of slots from a start on, when there is one. -/
theorem reportLoop_eq {turns start : ℕ} (positive : 1 ≤ start)
    (inRange : table.length * 10 ≤ slotsMax width + 1) (begins : start < table.length * 10)
    (enough : table.length * 10 ≤ start + turns) (short : ∀ keyword ∈ table, keyword.strlen ≤ 60) :
    ∃ reported, reportLoop width table turns start = .ok reported ∧
      Reports width table start reported := by
  induction turns generalizing start with
  | zero => omega
  | succ turns ih =>
    have bound : table.length * 10 % 2 ^ width.bits = table.length * 10 := by
      have below : intMax + 1 < 2 ^ width.bits := by cases width <;> decide
      have few : slotsMax width ≤ intMax := min_le_left _ _
      exact Nat.mod_eq_of_lt (by omega)
    rw [reportLoop, tryWithNrSlots_eq positive (by omega) short, bound]
    by_cases free : CollisionFree width table start
    · rw [decide_eq_true free]
      refine ⟨some start, rfl, ?_, fun missing => absurd missing (Option.some_ne_none _)⟩
      intro nrSlots same
      rw [← Option.some.inj same]
      exact ⟨⟨le_rfl, free⟩, fun n range => range.1⟩
    · rw [decide_eq_false free]
      by_cases more : start + 1 < table.length * 10
      · obtain ⟨reported, run, reports⟩ := ih (by omega) more (by omega)
        exact ⟨reported, (if_pos more).trans run, reports.collide free⟩
      · refine ⟨none, if_neg more, Reports.collide free ⟨?_, ?_⟩⟩
        · exact fun nrSlots same => absurd same.symm (Option.some_ne_none _)
        · exact fun _ n after before => absurd before (by omega)

/-- When more slots stay empty than `n` can count, what `try_with_nr_slots` does is not
defined. -/
theorem tryWithNrSlots_overflow (positive : 1 ≤ nrSlots) (many : intMax + table.length < nrSlots) :
    tryWithNrSlots width table nrSlots = .error .undefined := by
  have empty : intMax < 0 + (storedSlots width table nrSlots).count none := by
    have insideTable : ∀ keyword ∈ table, slotOf width nrSlots keyword <
        (List.replicate nrSlots (none : Option CString)).length := by
      intro keyword _
      rw [List.length_replicate]
      exact slotOf_lt positive keyword
    have count := ((takes_empty nrSlots).storeAll insideTable).count
    have taken := List.toFinset_card_le (table.map (slotOf width nrSlots))
    rw [storeAll_length, List.length_replicate, Finset.empty_union] at count
    rw [List.length_map] at taken
    rw [storedSlots]
    omega
  have counting := countLoop_overflow [] (storedSlots width table nrSlots) 0 (Nat.zero_le _) empty
  rw [List.nil_append, List.length_nil, storedSlots_length] at counting
  by_cases fits : nrSlots ≤ pointersMax width
  · rw [tryWithNrSlots_counts positive fits, counting]
    rfl
  · have missing : clearedSlots width nrSlots = none := if_neg fun both => fits both.2
    unfold tryWithNrSlots
    rw [missing]
    rfl

/-- The search is sound. For every table of keywords with at most 60 characters, and every number
of slots in range, keywords are stored at indices below the number of slots, and
`try_with_nr_slots` returns true exactly when they have pairwise different slots. The number that
`main` reports is the smallest such number of slots not below the number of keywords, and without
a report there is none among the numbers that `main` tries. -/
theorem tryWithNrSlots_perfect (width : SizeWidth) (table : List CString)
    (short : ∀ keyword ∈ table, keyword.strlen ≤ 60) :
    (∀ nrSlots, 1 ≤ nrSlots → nrSlots ≤ slotsMax width →
      (∀ keyword ∈ table, slotOf width nrSlots keyword < nrSlots) ∧
        tryWithNrSlots width table nrSlots = .ok (decide (CollisionFree width table nrSlots))) ∧
    (table ≠ [] → table.length * 10 ≤ slotsMax width + 1 →
      ∃ reported, reportNrSlots width table = .ok reported ∧
        (∀ nrSlots, reported = some nrSlots →
          IsLeast {n | table.length ≤ n ∧ CollisionFree width table n} nrSlots) ∧
        (reported = none →
          ∀ n, table.length ≤ n → n < table.length * 10 → ¬CollisionFree width table n)) := by
  constructor
  · intro nrSlots positive inRange
    exact ⟨fun keyword _ => slotOf_lt positive keyword, tryWithNrSlots_eq positive inRange short⟩
  · intro filled inRange
    have positive := List.length_pos_iff.2 filled
    exact reportLoop_eq positive inRange (by omega) (by omega) short

/-- For the names of locale categories 37 slots are reported, and no number from 12 on is
smaller. -/
theorem tryWithNrSlots_perfect_keywords :
    reportNrSlots .bits64 keywords = .ok (some 37) ∧
      IsLeast {n | 12 ≤ n ∧ CollisionFree .bits64 keywords n} 37 := by
  obtain ⟨reported, run, least, -⟩ :=
    (tryWithNrSlots_perfect .bits64 keywords (by decide)).2 (by decide) (by decide)
  have found : reportNrSlots .bits64 keywords = .ok (some 37) := by decide +kernel
  have same : some 37 = reported := Except.ok.inj (found.symm.trans run)
  exact ⟨found, least 37 same.symm⟩

/-- Slots may be different without a result: one keyword has a slot of its own, but the search is
not defined for a keyword of 61 characters, for more slots than `n` can count, and for an array
that is larger than any object. -/
theorem tryWithNrSlots_not_perfect :
    let long := CString.lit "a-keyword-that-has-more-characters-than-the-buffer-can-hold-x"
    let short := CString.lit "ctype"
    CollisionFree .bits64 [long] 1 ∧ tryWithNrSlots .bits64 [long] 1 = .error .undefined ∧
      CollisionFree .bits64 [short] (2 ^ 31 + 1) ∧
        tryWithNrSlots .bits64 [short] (2 ^ 31 + 1) = .error .undefined ∧
      CollisionFree .bits32 [short] (2 ^ 30) ∧
        tryWithNrSlots .bits32 [short] (2 ^ 30) = .error .undefined :=
  ⟨List.nodup_singleton _, by decide +kernel,
    List.nodup_singleton _, tryWithNrSlots_overflow (by decide) (by decide),
    List.nodup_singleton _, rfl⟩

end Bpcp.Samples
