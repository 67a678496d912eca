import Bpcp.Purc.Compare

/-!
# Comparison against equality

A comparison of two trees and a test of their equality walk through the same pairs of
corresponding variants, and their answers depend on what each pair shows. Pairs of one
type are judged alike by both functions, except for three types. Of dynamic and native
variants the comparison returns whether they are equal, so it takes different ones for
equal and distinguishes copies of one value. Of atom strings it compares the atoms, and
two atoms can have one text. The two functions agree on equality of two trees unless one
of these pairs decides.
-/

namespace Bpcp.Purc

open Bpcp.Lib

/-- The pairs of variants that a walk over two trees at once reaches. -/
inductive Meets : Variant → Variant → Variant → Variant → Prop
  /-- The walk starts at the roots. -/
  | here {l r} : Meets l r l r
  /-- It goes on to the entries of two objects in their order. -/
  | entry {addrL addrR kvsL kvsR l r x y} (walk : (l, r) ∈ kvsL.zip kvsR)
    (below : Meets l.2 r.2 x y) : Meets (.object addrL kvsL) (.object addrR kvsR) x y
  /-- It goes on to the members of two linear containers in their order. -/
  | member {addrL addrR kindL kindR membersL membersR l r x y}
    (walk : (l, r) ∈ membersL.zip membersR) (below : Meets l r x y) :
    Meets (.linear addrL kindL membersL) (.linear addrR kindR membersR) x y

/-- A pair of variants that both functions judge alike, as far as the pair itself goes:
containers with the same keys or as many members, and leaves with the same value unless
they are dynamic or native. -/
def Alike (rt : Runtime) : Variant → Variant → Prop
  | .scalar _ (.dynamic _), .scalar _ (.dynamic _) => True
  | .scalar _ (.native _), .scalar _ (.native _) => True
  | .scalar _ l, .scalar _ r => l.type = r.type ∧ l.content rt = r.content rt
  | .object _ kvsL, .object _ kvsR => Keyed.keys kvsL = Keyed.keys kvsR
  | .linear _ kindL membersL, .linear _ kindR membersR =>
    kindL = kindR ∧ membersL.length = membersR.length
  | _, _ => False

/-- A pair that only the comparison distinguishes: two variants with the same dynamic or
native value, or two atoms with one text. -/
def Distinguished (rt : Runtime) : Variant → Variant → Prop
  | .scalar addrL (.dynamic l), .scalar addrR (.dynamic r) => addrL ≠ addrR ∧ l = r
  | .scalar addrL (.native l), .scalar addrR (.native r) => addrL ≠ addrR ∧ l = r
  | .scalar _ (.atomstring l), .scalar _ (.atomstring r) =>
    l ≠ r ∧ rt.purcAtomToString l = rt.purcAtomToString r
  | _, _ => False

/-- A pair that only the comparison takes for equal: different dynamic or native values. -/
def Conflated : Variant → Variant → Prop
  | .scalar _ (.dynamic l), .scalar _ (.dynamic r) => l ≠ r
  | .scalar _ (.native l), .scalar _ (.native r) => l ≠ r
  | _, _ => False

/-- A property of every pair that a walk reaches. -/
def Everywhere (property : Variant → Variant → Prop) (l r : Variant) : Prop :=
  ∀ x y, Meets l r x y → property x y

/-- Whether the variant is a byte sequence. -/
def Variant.isBsequence : Variant → Bool
  | scalar _ (.bsequence _) => true
  | _ => false

/-- A tree without byte sequences. -/
def Variant.NoBsequence (variant : Variant) : Prop :=
  variant.All fun node => node.isBsequence = false

variable {rt : Runtime} {property : Variant → Variant → Prop}

/-! ## Walks -/

/-- A walk from a scalar ends where it starts. -/
theorem everywhere_scalar {addr : Nat} {value : Scalar} {r : Variant} :
    Everywhere property (.scalar addr value) r ↔ property (.scalar addr value) r :=
  ⟨fun all => all _ _ .here, fun holds _ _ meets => by cases meets; exact holds⟩

/-- A walk over two objects reaches the objects and what their entries reach. -/
theorem everywhere_object {addrL addrR : Nat} {kvsL kvsR : List (CString × Variant)} :
    Everywhere property (.object addrL kvsL) (.object addrR kvsR) ↔
      property (.object addrL kvsL) (.object addrR kvsR) ∧
        ∀ l r, (l, r) ∈ kvsL.zip kvsR → Everywhere property l.2 r.2 := by
  constructor
  · intro all
    exact ⟨all _ _ .here, fun l r walk x y below => all x y (.entry walk below)⟩
  · rintro ⟨holds, inside⟩ x y meets
    cases meets with
    | here => exact holds
    | entry walk below => exact inside _ _ walk x y below

/-- A walk over two linear containers reaches the containers and what their members reach. -/
theorem everywhere_linear {addrL addrR : Nat} {kindL kindR : LinearKind}
    {membersL membersR : List Variant} :
    Everywhere property (.linear addrL kindL membersL) (.linear addrR kindR membersR) ↔
      property (.linear addrL kindL membersL) (.linear addrR kindR membersR) ∧
        ∀ l r, (l, r) ∈ membersL.zip membersR → Everywhere property l r := by
  constructor
  · intro all
    exact ⟨all _ _ .here, fun l r walk x y below => all x y (.member walk below)⟩
  · rintro ⟨holds, inside⟩ x y meets
    cases meets with
    | here => exact holds
    | member walk below => exact inside _ _ walk x y below

/-- A walk over a tree and itself meets every variant with itself. -/
theorem everywhere_self (variant : Variant) : Everywhere Eq variant variant := by
  have paired : ∀ {α : Type} {list : List α} {l r : α}, (l, r) ∈ list.zip list → l = r :=
    fun walk => List.forall₂_zip (List.forall₂_same.2 fun _ _ => rfl) walk
  induction variant with
  | scalar addr value => exact everywhere_scalar.2 rfl
  | object addr kvs ih =>
    refine everywhere_object.2 ⟨rfl, fun l r walk => ?_⟩
    obtain rfl := paired walk
    exact ih l (List.of_mem_zip walk).1
  | linear addr kind members ih =>
    refine everywhere_linear.2 ⟨rfl, fun l r walk => ?_⟩
    obtain rfl := paired walk
    exact ih l (List.of_mem_zip walk).1

/-! ## Pairs -/

/-- A variant is like itself. -/
theorem alike_self (variant : Variant) : Alike rt variant variant := by
  cases variant with
  | scalar addr value => cases value <;> simp [Alike]
  | object addr kvs => rfl
  | linear addr kind members => exact ⟨rfl, rfl⟩

/-- Variants that are alike have one type. -/
theorem Alike.type_eq {l r : Variant} (alike : Alike rt l r) : l.type = r.type := by
  cases l with
  | scalar addrL vl =>
    cases r with
    | scalar addrR vr => cases vl <;> cases vr <;> simp_all [Alike, Variant.type, Scalar.type]
    | _ => cases vl <;> simp [Alike] at alike
  | object addrL kvsL => cases r <;> simp_all [Alike, Variant.type]
  | linear addrL kindL membersL => cases r <;> simp_all [Alike, Variant.type]

/-- The comparison does not distinguish a variant from itself. -/
theorem not_distinguished_self (variant : Variant) : ¬Distinguished rt variant variant := by
  cases variant with
  | scalar addr value => cases value <;> simp [Distinguished]
  | _ => simp [Distinguished]

/-- Only equal atoms have no difference. -/
theorem atomDifference_eq_zero {l r : UInt32} : atomDifference l r = 0 ↔ l = r := by
  rw [atomDifference, ← BitVec.toInt_zero, BitVec.toInt_inj, UInt32.toBitVec_sub,
    BitVec.sub_eq_iff_eq_add, BitVec.zero_add, UInt32.toBitVec_inj]

/-- The dynamic and native case answers zero on different pointers. -/
theorem comparePointers_eq_zero {l r : UInt64 × UInt64} :
    comparePointers l r = some 0 ↔ l ≠ r := by
  obtain ⟨diff, run, -⟩ := memcmp_inside (ptrBytes l) (ptrBytes r) 16 (by simp) (by simp)
  rw [comparePointers, ne_eq, ← memcmp_ptrBytes, run, Option.map_some, Option.some.injEq,
    Option.some.injEq]
  split <;> simp_all

/-- Strings with the same stored bytes have the same text. -/
theorem StringValue.content_inj {l r : StringValue} :
    l.storage.content = r.storage.content ↔ l.text = r.text := by
  rw [l.terminated, r.terminated, CString.stored_inj]

/-- Two leaves compare equal when they are alike and not distinguished. -/
theorem compareScalars_zero {addrL addrR : Nat} {l r : Scalar} (pointer : addrL ≠ addrR)
    (types : l.type = r.type) (exact : l.isFloat = false)
    (text : (Variant.scalar addrL l).isBsequence = false) :
    compareScalars rt false l r = some 0 ↔
      Alike rt (.scalar addrL l) (.scalar addrR r) ∧
        ¬Distinguished rt (.scalar addrL l) (.scalar addrR r) := by
  cases l <;> cases r <;> simp [Scalar.type] at types
  case number.number => simp [Scalar.isFloat] at exact
  case longdouble.longdouble => simp [Scalar.isFloat] at exact
  case bsequence.bsequence => simp [Variant.isBsequence] at text
  case boolean.boolean bl br =>
    cases bl <;> cases br <;> simp [compareScalars, Alike, Distinguished, Scalar.content]
  case atomstring.atomstring atomL atomR =>
    simp only [compareScalars, Alike, Distinguished, Scalar.content, Option.some.injEq,
      atomDifference_eq_zero, ← CString.ext_iff, Scalar.type, true_and]
    constructor
    · rintro rfl
      exact ⟨rfl, fun differ => differ.1 rfl⟩
    · rintro ⟨sameText, together⟩
      by_contra differ
      exact together ⟨differ, sameText⟩
  all_goals
    simp [-ite_eq_left_iff, compareScalars, Alike, Distinguished, Scalar.type, Scalar.content,
      pointer, threeWay_eq_zero, atomDifference_eq_zero, comparePointers_eq_zero, strcmp_eq_zero,
      StringValue.content_inj]

/-- Two leaves are equal when they are alike and not conflated. -/
theorem equalScalars_alike {addrL addrR : Nat} {l r : Scalar} (exact : l.isFloat = false) :
    equalScalars rt l r = true ↔
      Alike rt (.scalar addrL l) (.scalar addrR r) ∧
        ¬Conflated (.scalar addrL l) (.scalar addrR r) := by
  rw [equalScalars_iff exact]
  cases l <;> cases r <;> simp [Alike, Conflated, Scalar.type, Scalar.content]

/-! ## Trees -/

/-- Objects compare equal when they have the same keys and their values compare equal. -/
theorem cmpByObj_eq_zero {caseless unifyNumber : Bool} {kvsL kvsR : List (CString × Variant)} :
    cmpByObj rt caseless unifyNumber kvsL kvsR = some 0 ↔
      List.Forall₂ (fun l r => l.1 = r.1 ∧ compareEx rt caseless unifyNumber l.2 r.2 = some 0)
        kvsL kvsR := by
  induction kvsL generalizing kvsR with
  | nil => cases kvsR <;> simp [cmpByObj]
  | cons l restL ih =>
    cases kvsR with
    | nil => simp [cmpByObj]
    | cons r restR =>
      rw [cmpByObj, List.forall₂_cons, ← ih]
      by_cases key : l.1 = r.1
      · rw [if_neg (not_not.2 (strcmp_eq_zero.2 key)), and_iff_right key]
        cases compareEx rt caseless unifyNumber l.2 r.2 with
        | none => simp
        | some diff => by_cases zero : diff = 0 <;> simp [zero]
      · simp [key, strcmp_eq_zero]

/-- Linear containers compare equal when they have as many members and these compare equal. -/
theorem cmpMembers_eq_zero {caseless unifyNumber : Bool} {membersL membersR : List Variant} :
    cmpMembers rt caseless unifyNumber membersL membersR = some 0 ↔
      List.Forall₂ (fun l r => compareEx rt caseless unifyNumber l r = some 0)
        membersL membersR := by
  induction membersL generalizing membersR with
  | nil => cases membersR <;> simp [cmpMembers]
  | cons l restL ih =>
    cases membersR with
    | nil => simp [cmpMembers]
    | cons r restR =>
      rw [cmpMembers, List.forall₂_cons, ← ih]
      cases compareEx rt caseless unifyNumber l r with
      | none => simp
      | some diff => by_cases zero : diff = 0 <;> simp [zero]

/-- Where pointers are equal or types differ, the comparison agrees with the walk. -/
theorem compareEx_zero_step {memory : Nat → Variant} {l r : Variant} (livesL : l.LivesIn memory)
    (livesR : r.LivesIn memory)
    (step : l.addr ≠ r.addr → l.type = r.type →
      (compareEx rt false false l r = some 0 ↔
        Everywhere (fun x y => Alike rt x y ∧ ¬Distinguished rt x y) l r)) :
    compareEx rt false false l r = some 0 ↔
      Everywhere (fun x y => Alike rt x y ∧ ¬Distinguished rt x y) l r := by
  by_cases pointer : l.addr = r.addr
  · obtain rfl := livesL.same livesR pointer
    refine iff_of_true (compareEx_same rfl) fun x y meets => ?_
    obtain rfl := everywhere_self l x y meets
    exact ⟨alike_self x, not_distinguished_self x⟩
  by_cases types : l.type = r.type
  · exact step pointer types
  · rw [compareEx_types pointer (by simp) types]
    refine iff_of_false (fun zero => types ?_) fun all => types (all l r .here).1.type_eq
    exact VariantType.toInt_inj.1 (by simpa [sub_eq_zero] using zero)

/-- Two trees compare equal when every pair that a walk reaches is alike and not
distinguished. -/
theorem compareEx_zero_iff {memory : Nat → Variant} {l r : Variant} (livesL : l.LivesIn memory)
    (livesR : r.LivesIn memory) (exact : l.NoFloat) (text : l.NoBsequence) :
    compareEx rt false false l r = some 0 ↔
      Everywhere (fun x y => Alike rt x y ∧ ¬Distinguished rt x y) l r := by
  induction l generalizing r with
  | scalar addrL vl =>
    refine compareEx_zero_step livesL livesR fun pointer types => ?_
    obtain ⟨addrR, vr, rfl, scalars⟩ := Variant.of_type_scalar types
    rw [compareEx_scalars (show addrL ≠ addrR from pointer) (by simp) scalars, everywhere_scalar]
    exact compareScalars_zero pointer scalars (Variant.all_scalar.1 exact)
      (Variant.all_scalar.1 text)
  | object addrL kvsL ih =>
    refine compareEx_zero_step livesL livesR fun pointer types => ?_
    obtain ⟨addrR, kvsR, rfl⟩ := Variant.of_type_object types
    rw [compareEx_objects (show addrL ≠ addrR from pointer), cmpByObj_eq_zero,
      everywhere_object]
    refine (@Keyed.forall₂_keys_iff _ _ (fun l r => compareEx rt false false l r = some 0) _
      _).trans ?_
    refine and_congr (by simp [Alike, Distinguished]) (forall₃_congr fun l r walk => ?_)
    obtain ⟨insideL, insideR⟩ := List.of_mem_zip walk
    exact ih l insideL ((Variant.all_object.1 livesL).2 l insideL)
      ((Variant.all_object.1 livesR).2 r insideR) ((Variant.all_object.1 exact).2 l insideL)
      ((Variant.all_object.1 text).2 l insideL)
  | linear addrL kind membersL ih =>
    refine compareEx_zero_step livesL livesR fun pointer types => ?_
    obtain ⟨addrR, membersR, rfl⟩ := Variant.of_type_linear types
    rw [compareEx_linears (show addrL ≠ addrR from pointer), cmpMembers_eq_zero,
      List.forall₂_iff_zip, everywhere_linear]
    refine and_congr (by simp [Alike, Distinguished]) (forall₃_congr fun l r walk => ?_)
    obtain ⟨insideL, insideR⟩ := List.of_mem_zip walk
    exact ih l insideL ((Variant.all_linear.1 livesL).2 l insideL)
      ((Variant.all_linear.1 livesR).2 r insideR) ((Variant.all_linear.1 exact).2 l insideL)
      ((Variant.all_linear.1 text).2 l insideL)

/-- Where types differ, equality agrees with the walk. -/
theorem equal_step {l r : Variant}
    (step : l.type = r.type →
      (Equal rt l r ↔ Everywhere (fun x y => Alike rt x y ∧ ¬Conflated x y) l r)) :
    Equal rt l r ↔ Everywhere (fun x y => Alike rt x y ∧ ¬Conflated x y) l r := by
  by_cases types : l.type = r.type
  · exact step types
  · exact iff_of_false (fun equal => types equal.type_eq) fun all =>
      types (all l r .here).1.type_eq

/-- Two trees with sorted keys are equal when every pair that a walk reaches is alike and not
conflated. -/
theorem equal_iff {l r : Variant} (exact : l.NoFloat) (sortedL : l.SortedKeys)
    (sortedR : r.SortedKeys) :
    Equal rt l r ↔ Everywhere (fun x y => Alike rt x y ∧ ¬Conflated x y) l r := by
  have strict : ∀ key other : CString, strcmp key other < 0 → ¬strcmp other key < 0 := by
    intro key other before after
    have signs := strcmp_consistent.sign_swap key other
    rw [Int.sign_eq_neg_one_of_neg before, Int.sign_eq_neg_one_of_neg after] at signs
    omega
  induction l generalizing r with
  | scalar addrL vl =>
    refine equal_step fun types => ?_
    obtain ⟨addrR, vr, rfl, -⟩ := Variant.of_type_scalar types
    rw [equal_scalar, everywhere_scalar]
    exact equalScalars_alike (Variant.all_scalar.1 exact)
  | object addrL kvsL ih =>
    refine equal_step fun types => ?_
    obtain ⟨addrR, kvsR, rfl⟩ := Variant.of_type_object types
    obtain ⟨orderedL, belowL⟩ := Variant.all_object.1 sortedL
    obtain ⟨orderedR, belowR⟩ := Variant.all_object.1 sortedR
    rw [equal_object, Keyed.matches_iff_forall₂ strict orderedL orderedR,
      Keyed.forall₂_keys_iff, everywhere_object]
    refine and_congr (by simp [Alike, Conflated]) (forall₃_congr fun l r walk => ?_)
    obtain ⟨insideL, insideR⟩ := List.of_mem_zip walk
    exact ih l insideL ((Variant.all_object.1 exact).2 l insideL) (belowL l insideL)
      (belowR r insideR)
  | linear addrL kind membersL ih =>
    refine equal_step fun types => ?_
    obtain ⟨addrR, membersR, rfl⟩ := Variant.of_type_linear types
    rw [equal_linear, List.forall₂_iff_zip, everywhere_linear, and_iff_right rfl]
    refine and_congr (by simp [Alike, Conflated]) (forall₃_congr fun l r walk => ?_)
    obtain ⟨insideL, insideR⟩ := List.of_mem_zip walk
    exact ih l insideL ((Variant.all_linear.1 exact).2 l insideL)
      ((Variant.all_linear.1 sortedL).2 l insideL) ((Variant.all_linear.1 sortedR).2 r insideR)

/-- A tree of a memory whose objects are walked in key order and which has neither
floating-point leaves nor byte sequences. -/
def Exact (memory : Nat → Variant) (variant : Variant) : Prop :=
  variant.LivesIn memory ∧ variant.NoFloat ∧ variant.NoBsequence ∧ variant.SortedKeys

/-- The comparison answers zero on equal trees and on no others exactly where a pair that
both functions judge alike tells the trees apart, or a distinguished pair and a conflated
pair both occur, or neither does. -/
theorem compare_zero_iff_equal_iff (rt : Runtime) (memory : Nat → Variant)
    (l r : {variant : Variant // Exact memory variant}) :
    (pcvarCompareEx rt false false (some l.1) (some r.1) = some 0 ↔
        purcVariantIsEqualTo rt (some l.1) (some r.1) = true) ↔
      (∃ x y, Meets l.1 r.1 x y ∧ ¬Alike rt x y) ∨
        ((∃ x y, Meets l.1 r.1 x y ∧ Distinguished rt x y) ↔
          ∃ x y, Meets l.1 r.1 x y ∧ Conflated x y) := by
  obtain ⟨l, livesL, exactL, textL, sortedL⟩ := l
  obtain ⟨r, livesR, -, -, sortedR⟩ := r
  have compared : pcvarCompareEx rt false false (some l) (some r) = some 0 ↔ _ :=
    compareEx_zero_iff livesL livesR exactL textL
  have equal : purcVariantIsEqualTo rt (some l) (some r) = true ↔ _ :=
    equal_iff exactL sortedL sortedR
  simp only [compared, equal, Everywhere]
  by_cases apart : ∃ x y, Meets l r x y ∧ ¬Alike rt x y
  · obtain ⟨x, y, meets, differ⟩ := apart
    refine iff_of_true (iff_of_false ?_ ?_) (.inl ⟨x, y, meets, differ⟩)
    · exact fun all => differ (all x y meets).1
    · exact fun all => differ (all x y meets).1
  · have alike : ∀ x y, Meets l r x y → Alike rt x y := by
      intro x y meets
      by_contra differ
      exact apart ⟨x, y, meets, differ⟩
    have compareApart : (∃ x y, Meets l r x y ∧ Distinguished rt x y) ↔
        ¬∀ x y, Meets l r x y → Alike rt x y ∧ ¬Distinguished rt x y := by
      push Not
      exact exists₂_congr fun x y => and_congr_right fun meets => by simp [alike x y meets]
    have equalApart : (∃ x y, Meets l r x y ∧ Conflated x y) ↔
        ¬∀ x y, Meets l r x y → Alike rt x y ∧ ¬Conflated x y := by
      push Not
      exact exists₂_congr fun x y => and_congr_right fun meets => by simp [alike x y meets]
    rw [or_iff_right apart, compareApart, equalApart, not_iff_not]

/-- Two dynamic variants with different getters compare equal and are not equal. -/
theorem compare_zero_not_equal :
    ¬(pcvarCompareEx .plain false false (some (.scalar 1 (.dynamic (0x1000, 0))))
          (some (.scalar 2 (.dynamic (0x2000, 0)))) = some 0 ↔
        purcVariantIsEqualTo .plain (some (.scalar 1 (.dynamic (0x1000, 0))))
          (some (.scalar 2 (.dynamic (0x2000, 0)))) = true) := by
  decide

end Bpcp.Purc
