import Bpcp.Lib.Keyed
import Bpcp.Purc.Diff

/-!
# Sets with a unique key

A set with a unique key holds one value for each combination of members under its key
names. Every value has a digest: that of its members under the key names, each with its
name, when it is an object, and that of the undefined value when it is not. A comparison of
two values looks at the digests first, and at the members only when the digests agree; there
a value that is not an object has undefined members. So a value that is not an object is told
apart from an object without members under the key names, although no member differs.
-/

namespace Bpcp.Purc

open Bpcp.Lib

/-- `struct variant_set`, what tells its members apart. -/
structure SetData where
  /-- `unique_key`, which is `NULL` for a generic set. -/
  uniqueKey : Option CString
  /-- `keynames`, of which there are `nr_keynames`. -/
  keynames : List CString

/-- `do_stringify_md5`: the hashed text grows by a piece. -/
def doStringifyMd5 (ud : List UInt8) (emit : Emit) : List UInt8 := ud ++ emit.bytes

/-- The text that `pcvariant_md5_ex` hashes. -/
def pcvariantMd5ExText (rt : Runtime) (val : Variant) (salt : Option CString)
    (serializeFlags : StringifyFlags) : List UInt8 :=
  (variantStringify rt serializeFlags val).foldl doStringifyMd5 [] ++
    (salt.map CString.bytes).getD []

/-- The text that `pcvariant_md5` hashes. -/
def pcvariantMd5Text (rt : Runtime) (val : Variant) : List UInt8 :=
  pcvariantMd5ExText rt val none .none

/-- `purc_variant_object_get_by_ckey`. -/
def purcVariantObjectGetByCkey : Variant → CString → Option Variant
  | .object _ kvs, key => kvs.lookup key
  | _, _ => none

/-- The text that `pcvariant_md5_by_set` hashes. -/
def pcvariantMd5BySetText (rt : Runtime) (val : Variant) (set : SetData) : List UInt8 :=
  if set.uniqueKey = none then pcvariantMd5Text rt val
  else if val.type ≠ .object then pcvariantMd5Text rt rt.undefined
  else
    let emits := set.keynames.flatMap fun key =>
      stringifyKv key (variantStringify rt .none
        ((purcVariantObjectGetByCkey val key).getD rt.undefined))
    emits.foldl doStringifyMd5 []

/-- `pcvariant_md5_by_set`. -/
def pcvariantMd5BySet (rt : Runtime) (val : Variant) (set : SetData) : CString :=
  rt.pcutilsMd5 (pcvariantMd5BySetText rt val set)

/-- The member that the loop of `pcvariant_diff_by_set` compares under a key name. -/
def diffMember (rt : Runtime) (val : Variant) (key : CString) : Variant :=
  let v := if val.type = .object then purcVariantObjectGetByCkey val key else none
  v.getD rt.undefined

/-- The loop of `pcvariant_diff_by_set`. -/
def diffKeynames (rt : Runtime) (l r : Variant) : List CString → Option Int
  | [] => some 0
  | key :: rest =>
    (pcvariantDiff rt (diffMember rt l key) (diffMember rt r key)).bind fun diff =>
      if diff ≠ 0 then some diff else diffKeynames rt l r rest

/-- `pcvariant_diff_by_set`. -/
def pcvariantDiffBySet (rt : Runtime) (md5l : CString) (l : Variant) (md5r : CString)
    (r : Variant) (set : SetData) : Option Int :=
  if set.uniqueKey = none then pcvariantDiff rt l r
  else
    let diff := strcmp md5l md5r
    if diff ≠ 0 then some diff else diffKeynames rt l r set.keynames

variable {rt : Runtime} {set : SetData}

/-! ## Texts of members -/

/-- The text of a variant that is a plain scalar. -/
def Variant.text : Variant → CString
  | scalar _ value => value.text
  | _ => .lit ""

/-- The members under the key names are plain scalars. -/
def HasPlainMembers (val : Variant) (set : SetData) : Prop :=
  ∀ key ∈ set.keynames, ∀ member, purcVariantObjectGetByCkey val key = some member →
    ∃ addr value, member = .scalar addr value ∧ value.isPlain = true

/-- The text hashed for a member under a key name. -/
def keyText (key text : CString) : List UInt8 :=
  key.bytes ++ (CString.lit ":").bytes ++ text.bytes ++ (CString.lit "\n").bytes

/-- The hashed text is everything handed on. -/
theorem foldl_doStringifyMd5 (emits : List Emit) (ud : List UInt8) :
    emits.foldl doStringifyMd5 ud = ud ++ emitted emits := by
  induction emits generalizing ud with
  | nil => simp
  | cons emit rest ih => rw [List.foldl_cons, ih, doStringifyMd5, emitted_cons, List.append_assoc]

/-- A plain scalar is stringified as its text. -/
theorem emitted_plain {value : Scalar} (plain : value.isPlain = true) :
    emitted (stringifyScalar rt .none value) = value.text.bytes := by
  cases value with
  | longint i64 =>
    exact emitted_decimal (decimal_short i64.le_toInt (i64.toInt_lt.trans (by decide)))
  | ulongint u64 =>
    have high : (u64.toNat : ℤ) < 2 ^ 64 := by exact_mod_cast u64.toNat_lt
    exact emitted_decimal (decimal_short (by omega) high)
  | boolean b => cases b <;> simp [stringifyScalar, Scalar.text]
  | undefined => simp [stringifyScalar, Scalar.text]
  | null => simp [stringifyScalar, Scalar.text]
  | string value => simp [stringifyScalar, Scalar.text]
  | _ => simp [Scalar.isPlain] at plain

/-- A member that is compared is a plain scalar of the memory. -/
theorem diffMember_plain {memory : Nat → Variant} (home : memory rt.vUndefined = rt.undefined)
    {val : Variant} (lives : val.LivesIn memory) (members : HasPlainMembers val set)
    {key : CString} (listed : key ∈ set.keynames) :
    ∃ addr value, diffMember rt val key = .scalar addr value ∧ value.isPlain = true ∧
      (Variant.scalar addr value).LivesIn memory := by
  have absent : ∃ addr value, rt.undefined = .scalar addr value ∧ value.isPlain = true ∧
      (Variant.scalar addr value).LivesIn memory :=
    ⟨rt.vUndefined, .undefined, rfl, rfl, Variant.all_scalar.2 home⟩
  cases val with
  | scalar addr value => cases value <;> exact absent
  | linear addr kind => cases kind <;> exact absent
  | object addr kvs =>
    cases found : kvs.lookup key with
    | none => simpa [diffMember, Variant.type, purcVariantObjectGetByCkey, found] using absent
    | some member =>
      obtain ⟨memberAddr, value, rfl, plain⟩ := members key listed member found
      have inside := (Variant.all_object.1 lives).2 _ (Keyed.mem_of_lookup found)
      exact ⟨memberAddr, value, by
        simp [diffMember, Variant.type, purcVariantObjectGetByCkey, found], plain, inside⟩

/-- Members under a key name compare equal exactly when they have one text. -/
theorem diffMember_eq_zero (walks : rt.WalksScalars) {memory : Nat → Variant}
    (home : memory rt.vUndefined = rt.undefined) {l r : Variant} (livesL : l.LivesIn memory)
    (livesR : r.LivesIn memory) (membersL : HasPlainMembers l set)
    (membersR : HasPlainMembers r set) {key : CString} (listed : key ∈ set.keynames) :
    pcvariantDiff rt (diffMember rt l key) (diffMember rt r key) = some 0 ↔
      (diffMember rt l key).text = (diffMember rt r key).text := by
  obtain ⟨addrL, valueL, memberL, plainL, insideL⟩ := diffMember_plain home livesL membersL listed
  obtain ⟨addrR, valueR, memberR, plainR, insideR⟩ := diffMember_plain home livesR membersR listed
  rw [memberL, memberR, pcvariantDiff, pcvariantDiffEx, walks]
  refine scalarDiff_eq_zero (fun pointer => ?_) plainL plainR
  subst pointer
  exact insideL.same_scalar insideR

/-- The members of a value that is not an object are undefined. -/
theorem diffMember_other {val : Variant} (other : val.type ≠ .object) (key : CString) :
    diffMember rt val key = rt.undefined := by
  simp [diffMember, other]

/-- An object is hashed as its members under the key names. -/
theorem md5BySetText_object {memory : Nat → Variant} (home : memory rt.vUndefined = rt.undefined)
    (keyed : set.uniqueKey ≠ none) {val : Variant} (object : val.type = .object)
    (lives : val.LivesIn memory) (members : HasPlainMembers val set) :
    pcvariantMd5BySetText rt val set =
      set.keynames.flatMap fun key => keyText key (diffMember rt val key).text := by
  rw [pcvariantMd5BySetText, if_neg keyed, if_neg (not_not.2 object), foldl_doStringifyMd5,
    List.nil_append, emitted, List.flatMap_assoc]
  refine List.flatMap_congr fun key listed => ?_
  obtain ⟨addr, value, member, plain, -⟩ := diffMember_plain home lives members listed
  have compared : (purcVariantObjectGetByCkey val key).getD rt.undefined =
      diffMember rt val key := by rw [diffMember, if_pos object]
  change emitted (stringifyKv key _) = _
  rw [compared, member, variantStringify, stringifyKv, emitted_cons, emitted_cons, emitted_append,
    emitted_plain plain]
  simp [keyText, Variant.text]

/-- A value that is not an object is hashed as the undefined value. -/
theorem md5BySetText_other (keyed : set.uniqueKey ≠ none) {val : Variant}
    (other : val.type ≠ .object) :
    pcvariantMd5BySetText rt val set = (CString.lit "undefined").bytes := by
  rw [pcvariantMd5BySetText, if_neg keyed, if_pos other, pcvariantMd5Text, pcvariantMd5ExText,
    foldl_doStringifyMd5]
  simp [Runtime.undefined, variantStringify, stringifyScalar]

/-- The text hashed for an object ends lines, and that of the undefined value does not. -/
theorem flatMap_keyText_ne (named : set.keynames ≠ []) (text : CString → CString) :
    (set.keynames.flatMap fun key => keyText key (text key)) ≠ (CString.lit "undefined").bytes := by
  obtain ⟨key, listed⟩ := List.exists_mem_of_ne_nil _ named
  have line : (10 : UInt8) ∈ set.keynames.flatMap fun key => keyText key (text key) :=
    List.mem_flatMap.2 ⟨key, listed, List.mem_append_right _ (by decide)⟩
  intro same
  rw [same] at line
  exact absurd line (by decide)

/-- Members that all compare equal make the loop answer zero. -/
theorem diffKeynames_eq_zero {l r : Variant} {keynames : List CString}
    (equal : ∀ key ∈ keynames,
      pcvariantDiff rt (diffMember rt l key) (diffMember rt r key) = some 0) :
    diffKeynames rt l r keynames = some 0 := by
  induction keynames with
  | nil => rfl
  | cons key rest ih =>
    rw [diffKeynames, equal key List.mem_cons_self, Option.bind_some, if_neg (by simp)]
    exact ih fun other member => equal other (List.mem_cons_of_mem _ member)

/-- Values with one hashed text and equal members compare equal. -/
theorem diffBySet_eq_zero (keyed : set.uniqueKey ≠ none) {l r : Variant}
    (hashed : pcvariantMd5BySetText rt l set = pcvariantMd5BySetText rt r set)
    (equal : ∀ key ∈ set.keynames,
      pcvariantDiff rt (diffMember rt l key) (diffMember rt r key) = some 0) :
    pcvariantDiffBySet rt (pcvariantMd5BySet rt l set) l (pcvariantMd5BySet rt r set) r set =
      some 0 := by
  have digests : strcmp (pcvariantMd5BySet rt l set) (pcvariantMd5BySet rt r set) = 0 :=
    strcmp_eq_zero.2 (congrArg rt.pcutilsMd5 hashed)
  rw [pcvariantDiffBySet, if_neg keyed, digests, if_neg (by simp)]
  exact diffKeynames_eq_zero equal

/-- Values whose members under the key names have one text are hashed as one text exactly when
both are objects or neither is. -/
theorem md5BySetText_eq_iff {memory : Nat → Variant} (home : memory rt.vUndefined = rt.undefined)
    (keyed : set.uniqueKey ≠ none) (named : set.keynames ≠ []) {l r : Variant}
    (livesL : l.LivesIn memory) (livesR : r.LivesIn memory) (membersL : HasPlainMembers l set)
    (membersR : HasPlainMembers r set)
    (texts : ∀ key ∈ set.keynames, (diffMember rt l key).text = (diffMember rt r key).text) :
    pcvariantMd5BySetText rt l set = pcvariantMd5BySetText rt r set ↔
      (l.type = .object ↔ r.type = .object) := by
  by_cases objectL : l.type = .object <;> by_cases objectR : r.type = .object
  · rw [md5BySetText_object home keyed objectL livesL membersL,
      md5BySetText_object home keyed objectR livesR membersR]
    exact iff_of_true (List.flatMap_congr fun key listed => by rw [texts key listed])
      (iff_of_true objectL objectR)
  · rw [md5BySetText_object home keyed objectL livesL membersL, md5BySetText_other keyed objectR]
    exact iff_of_false (flatMap_keyText_ne named _) fun kinds => objectR (kinds.1 objectL)
  · rw [md5BySetText_other keyed objectL, md5BySetText_object home keyed objectR livesR membersR]
    exact iff_of_false (flatMap_keyText_ne named _).symm fun kinds => objectL (kinds.2 objectR)
  · rw [md5BySetText_other keyed objectL, md5BySetText_other keyed objectR]
    exact iff_of_true rfl (iff_of_false objectL objectR)

/-- Where one of two values is not an object, members have one text exactly when both have the
text of the undefined value. -/
theorem diffMember_text_eq_iff {l r : Variant} (kinds : ¬(l.type = .object ↔ r.type = .object))
    (key : CString) :
    (diffMember rt l key).text = (diffMember rt r key).text ↔
      (diffMember rt l key).text = .lit "undefined" ∧
        (diffMember rt r key).text = .lit "undefined" := by
  have absent : rt.undefined.text = .lit "undefined" := rfl
  by_cases objectL : l.type = .object
  · have otherR : r.type ≠ .object := fun objectR => kinds (iff_of_true objectL objectR)
    rw [diffMember_other otherR, absent, and_iff_left rfl]
  · rw [diffMember_other objectL, absent, and_iff_right rfl, eq_comm]

/-- Values of a set with a unique key whose members under the key names all compare equal are
hashed as one text, and compare equal, exactly where both are objects or neither is, or where
some member has another text than the undefined value. -/
theorem unique_key_digest_iff (rt : Runtime) (walks : rt.WalksScalars) (set : SetData)
    (keyed : set.uniqueKey ≠ none) (named : set.keynames ≠ []) (memory : Nat → Variant)
    (home : memory rt.vUndefined = rt.undefined) (l r : Variant) (livesL : l.LivesIn memory)
    (livesR : r.LivesIn memory) (membersL : HasPlainMembers l set)
    (membersR : HasPlainMembers r set) :
    ((∀ key ∈ set.keynames,
        pcvariantDiff rt (diffMember rt l key) (diffMember rt r key) = some 0) →
      pcvariantMd5BySetText rt l set = pcvariantMd5BySetText rt r set ∧
        pcvariantDiffBySet rt (pcvariantMd5BySet rt l set) l (pcvariantMd5BySet rt r set) r set =
          some 0) ↔
      ((l.type = .object ↔ r.type = .object) ∨
        ∃ key ∈ set.keynames, (diffMember rt l key).text ≠ .lit "undefined" ∨
          (diffMember rt r key).text ≠ .lit "undefined") := by
  have equal_iff : ∀ key ∈ set.keynames,
      (pcvariantDiff rt (diffMember rt l key) (diffMember rt r key) = some 0 ↔
        (diffMember rt l key).text = (diffMember rt r key).text) := fun key listed =>
    diffMember_eq_zero walks home livesL livesR membersL membersR listed
  have hashed_iff := md5BySetText_eq_iff home keyed named livesL livesR membersL membersR
  by_cases kinds : l.type = .object ↔ r.type = .object
  · refine iff_of_true ?_ (Or.inl kinds)
    intro equal
    have texts : ∀ key ∈ set.keynames,
        (diffMember rt l key).text = (diffMember rt r key).text := by
      intro key listed
      exact (equal_iff key listed).1 (equal key listed)
    have hashed := (hashed_iff texts).2 kinds
    exact ⟨hashed, diffBySet_eq_zero keyed hashed equal⟩
  · rw [or_iff_right kinds]
    constructor
    · intro agree
      by_contra absent
      have texts : ∀ key ∈ set.keynames,
          (diffMember rt l key).text = (diffMember rt r key).text := by
        intro key listed
        rw [diffMember_text_eq_iff kinds]
        by_contra other
        exact absent ⟨key, listed, not_and_or.1 other⟩
      have hashed := (agree fun key listed => (equal_iff key listed).2 (texts key listed)).1
      exact kinds ((hashed_iff texts).1 hashed)
    · rintro ⟨key, listed, present⟩ equal
      have texts :=
        (diffMember_text_eq_iff kinds key).1 ((equal_iff key listed).1 (equal key listed))
      exact absurd texts (not_and_or.2 present)

/-- A set with the unique key "k". -/
def keyedSet : SetData := ⟨some (.lit "k"), [.lit "k"]⟩

/-- The null value. -/
def nullValue : Variant := .scalar 1 .null

/-- An object without properties. -/
def emptyObject : Variant := .object 2 []

/-- A memory with these two values and the undefined value. -/
def keyedMemory (addr : Nat) : Variant :=
  if addr = 1 then nullValue else if addr = 2 then emptyObject else .scalar addr .undefined

/-- The law of digests at a value that is not an object and an object without the key. -/
theorem unique_key_digest_null_object :
    ((∀ key ∈ keyedSet.keynames,
        pcvariantDiff .plain (diffMember .plain nullValue key) (diffMember .plain emptyObject key) =
          some 0) →
      pcvariantMd5BySetText .plain nullValue keyedSet =
          pcvariantMd5BySetText .plain emptyObject keyedSet ∧
        pcvariantDiffBySet .plain (pcvariantMd5BySet .plain nullValue keyedSet) nullValue
          (pcvariantMd5BySet .plain emptyObject keyedSet) emptyObject keyedSet = some 0) ↔
      ((nullValue.type = .object ↔ emptyObject.type = .object) ∨
        ∃ key ∈ keyedSet.keynames, (diffMember .plain nullValue key).text ≠ .lit "undefined" ∨
          (diffMember .plain emptyObject key).text ≠ .lit "undefined") :=
  unique_key_digest_iff .plain Runtime.plain_walksScalars keyedSet (by decide) (by decide)
    keyedMemory rfl nullValue emptyObject (Variant.all_scalar.2 rfl)
    (Variant.all_object.2 ⟨rfl, by simp⟩) (fun _ _ _ found => nomatch found)
    (fun _ _ _ found => nomatch found)

/-- A value that is not an object and an object without the key have equal members and are
hashed as two texts, and the set holds both. -/
theorem unique_key_digest_contradicts :
    (∀ key ∈ keyedSet.keynames,
        pcvariantDiff .plain (diffMember .plain nullValue key) (diffMember .plain emptyObject key) =
          some 0) ∧
      pcvariantMd5BySetText .plain nullValue keyedSet ≠
        pcvariantMd5BySetText .plain emptyObject keyedSet ∧
      pcvariantDiffBySet .plain (pcvariantMd5BySet .plain nullValue keyedSet) nullValue
        (pcvariantMd5BySet .plain emptyObject keyedSet) emptyObject keyedSet = some 10 := by
  exact ⟨by decide, by decide, by decide⟩

end Bpcp.Purc
