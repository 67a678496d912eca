import Bpcp.Lib.Comparison

/-!
# Bytes and strings of C

A C string is the bytes before its terminating NUL, so it holds no NUL of its own.
`strcmp` orders strings by the values of their bytes as unsigned characters, and `memcmp`
orders as many bytes of two blocks as it is told: the blocks are what may be read, and
asking for more bytes than either of them has no result, also where a difference comes
earlier. Both are lexicographic orders of byte lists, which the standard library compares.
-/

namespace Bpcp.Lib

/-- A string of C: the bytes in front of the terminating NUL. -/
structure CString where
  /-- Bytes in memory order. -/
  bytes : List UInt8
  /-- The terminator is the first NUL. -/
  noNul : (0 : UInt8) ∉ bytes
deriving DecidableEq

namespace CString

/-- Strings with the same bytes are the same string. -/
@[ext] theorem ext {left right : CString} (same : left.bytes = right.bytes) : left = right := by
  cases left
  cases right
  simpa using same

/-- The string that a pointer to these bytes denotes: everything before the first NUL. -/
def ofBytes (bytes : List UInt8) : CString where
  bytes := bytes.takeWhile (· ≠ 0)
  noNul member := by simpa using List.mem_takeWhile_imp member

/-- A string read up to its terminator is the string. -/
theorem takeWhile_terminated (text : CString) (rest : List UInt8) :
    (text.bytes ++ 0 :: rest).takeWhile (· ≠ 0) = text.bytes := by
  rw [List.takeWhile_append_of_pos, List.takeWhile_cons_of_neg (by simp), List.append_nil]
  intro byte member
  simpa using ne_of_mem_of_not_mem member text.noNul

/-- A literal of ASCII characters. -/
def lit (text : String) : CString := ofBytes (text.toList.map fun char => UInt8.ofNat char.toNat)

/-- Number of bytes before the terminator, as `strlen`. -/
def strlen (text : CString) : Nat := text.bytes.length

/-- The bytes of a string in memory, its terminator included. -/
def stored (text : CString) : List UInt8 := text.bytes ++ [0]

/-- Strings are stored alike exactly when they are equal. -/
theorem stored_inj {left right : CString} : left.stored = right.stored ↔ left = right := by
  refine ⟨fun same => ext ?_, fun same => by rw [same]⟩
  simpa [stored] using same

end CString

/-- `strcmp` on the bytes of two strings; the end of a string reads as NUL. -/
def strcmpBytes : List UInt8 → List UInt8 → Int
  | [], [] => 0
  | [], r :: _ => -(r.toNat : Int)
  | l :: _, [] => l.toNat
  | l :: ls, r :: rs => if l = r then strcmpBytes ls rs else (l.toNat : Int) - r.toNat

/-- `strcmp`: difference of the first two characters that differ. -/
def strcmp (left right : CString) : Int := strcmpBytes left.bytes right.bytes

/-- The order of bytes is the order of their numbers. -/
theorem compare_byte (left right : UInt8) :
    compare left right = compare (left.toNat : Int) right.toNat := by
  simp only [compare, compareOfLessAndEq, UInt8.lt_iff_toNat_lt, ← UInt8.toNat_inj, Nat.cast_inj,
    Nat.cast_lt]

/-- Blocks that differ in the first byte are ordered by it, as the difference of the bytes. -/
theorem compareLex_mismatch {left right : UInt8} (mismatch : left ≠ right)
    (restL restR : List UInt8) :
    outcome ((left.toNat : Int) - right.toNat) =
      List.compareLex compare (left :: restL) (right :: restR) := by
  rw [outcome_sub, ← compare_byte, List.compareLex_cons_cons]
  cases order : compare left right with
  | eq => exact absurd (Std.LawfulEqCmp.eq_of_compare order) mismatch
  | lt => rfl
  | gt => rfl

/-- A byte that is not NUL has a positive number. -/
theorem byte_pos {byte : UInt8} (nonzero : byte ≠ 0) : 0 < byte.toNat := by
  refine Nat.pos_of_ne_zero fun zero => nonzero ?_
  simpa using congrArg UInt8.ofNat zero

/-- Without NULs, `strcmp` is the lexicographic order of the bytes. -/
theorem strcmpBytes_outcome (left right : List UInt8) (noNulL : (0 : UInt8) ∉ left)
    (noNulR : (0 : UInt8) ∉ right) :
    outcome (strcmpBytes left right) = List.compareLex compare left right := by
  induction left generalizing right with
  | nil =>
    cases right with
    | nil => rfl
    | cons r rs =>
      have := byte_pos (List.ne_of_not_mem_cons noNulR).symm
      rw [strcmpBytes, List.compareLex_nil_cons, outcome_eq_lt]
      omega
  | cons l ls ih =>
    cases right with
    | nil =>
      have := byte_pos (List.ne_of_not_mem_cons noNulL).symm
      rw [strcmpBytes, List.compareLex_cons_nil, outcome_eq_gt]
      omega
    | cons r rs =>
      rw [strcmpBytes]
      by_cases same : l = r
      · rw [if_pos same, same, ih rs (fun member => noNulL (by simp [member]))
          (fun member => noNulR (by simp [member]))]
        simp [List.compareLex_cons_cons]
      · rw [if_neg same, compareLex_mismatch same]

/-- `strcmp` is the lexicographic order of the bytes. -/
theorem strcmp_outcome (left right : CString) :
    outcome (strcmp left right) = List.compareLex compare left.bytes right.bytes :=
  strcmpBytes_outcome _ _ left.noNul right.noNul

/-- `strcmp` orders strings consistently. -/
instance strcmp_consistent : Consistent strcmp where
  eq_swap {left right} := by
    rw [strcmp_outcome, strcmp_outcome]
    exact Std.OrientedCmp.eq_swap
  isLE_trans {first second third} lower upper := by
    rw [strcmp_outcome] at *
    exact Std.TransCmp.isLE_trans lower upper

/-- A string comes before another exactly when the other is not before or equal to it. -/
theorem strcmp_neg {left right : CString} : strcmp left right < 0 ↔ ¬strcmp right left ≤ 0 := by
  have signs := strcmp_consistent.sign_swap left right
  rw [not_le, ← Int.sign_eq_one_iff_pos, ← Int.sign_eq_neg_one_iff_neg]
  omega

/-- `strcmp` answers zero exactly on equal strings. -/
theorem strcmp_eq_zero {left right : CString} : strcmp left right = 0 ↔ left = right := by
  rw [← outcome_eq_eq, strcmp_outcome, Std.LawfulEqCmp.compare_eq_iff_eq]
  exact ⟨CString.ext, fun same => by rw [same]⟩

/-- `isspace` in the C locale. -/
def isSpace (byte : UInt8) : Bool := byte == 32 || (9 ≤ byte && byte ≤ 13)

/-- `tolower` in the C locale. -/
def toLower (byte : UInt8) : UInt8 := if 65 ≤ byte ∧ byte ≤ 90 then byte + 32 else byte

/-- `strncasecmp` in the C locale. -/
def strncasecmp (left right : List UInt8) (count : Nat) : Int :=
  strcmpBytes ((left.take count).map toLower) ((right.take count).map toLower)

/-- Only NUL is NUL in lower case. -/
theorem toLower_ne_zero {byte : UInt8} (nonzero : byte ≠ 0) : toLower byte ≠ 0 := by
  unfold toLower
  split
  · rename_i upper
    intro zero
    have low : 65 ≤ byte.toNat := UInt8.le_iff_toNat_le.1 upper.1
    have high : byte.toNat ≤ 90 := UInt8.le_iff_toNat_le.1 upper.2
    have sum := congrArg UInt8.toNat zero
    rw [UInt8.toNat_add] at sum
    simp at sum
    omega
  · exact nonzero

/-- Over a common length `strncasecmp` is the lexicographic order of the lower-case bytes. -/
theorem strncasecmp_outcome (left right : CString) (count : Nat) :
    outcome (strncasecmp left.bytes right.bytes count) =
      List.compareLex compare ((left.bytes.map toLower).take count)
        ((right.bytes.map toLower).take count) := by
  have noNul : ∀ text : CString, (0 : UInt8) ∉ (text.bytes.take count).map toLower := by
    intro text member
    obtain ⟨byte, inside, zero⟩ := List.mem_map.1 member
    exact toLower_ne_zero (ne_of_mem_of_not_mem (List.mem_of_mem_take inside) text.noNul) zero
  rw [strncasecmp, strcmpBytes_outcome _ _ (noNul left) (noNul right), List.map_take,
    List.map_take]

/-- `strcasecmp` in the C locale. -/
def strcasecmp (left right : CString) : Int :=
  strcmpBytes (left.bytes.map toLower) (right.bytes.map toLower)

/-- `strcasecmp` is the lexicographic order of the lower-case bytes. -/
theorem strcasecmp_outcome (left right : CString) :
    outcome (strcasecmp left right) =
      List.compareLex compare (left.bytes.map toLower) (right.bytes.map toLower) := by
  have noNul : ∀ text : CString, (0 : UInt8) ∉ text.bytes.map toLower := by
    intro text member
    obtain ⟨byte, inside, zero⟩ := List.mem_map.1 member
    exact toLower_ne_zero (ne_of_mem_of_not_mem inside text.noNul) zero
  exact strcmpBytes_outcome _ _ (noNul left) (noNul right)

/-- `strcasecmp` orders strings consistently. -/
instance strcasecmp_consistent : Consistent strcasecmp where
  eq_swap {left right} := by
    rw [strcasecmp_outcome, strcasecmp_outcome]
    exact Std.OrientedCmp.eq_swap
  isLE_trans {first second third} lower upper := by
    rw [strcasecmp_outcome] at *
    exact Std.TransCmp.isLE_trans lower upper

/-- `strcasecmp` answers zero exactly on strings that are equal in lower case. -/
theorem strcasecmp_eq_zero {left right : CString} :
    strcasecmp left right = 0 ↔ left.bytes.map toLower = right.bytes.map toLower := by
  rw [← outcome_eq_eq, strcasecmp_outcome, Std.LawfulEqCmp.compare_eq_iff_eq]

/-- `strncpy` into an array: a string that is too long is cut off, without a terminator, and a
shorter one is filled up with NULs. -/
def strncpy (dest : List UInt8) (src : CString) (count : Nat) : List UInt8 :=
  src.bytes.take count ++ List.replicate (count - src.strlen) 0 ++ dest.drop count

/-- What is behind the copied bytes stays. -/
theorem strncpy_drop (dest : List UInt8) (src : CString) (count : Nat) :
    (strncpy dest src count).drop count = dest.drop count := by
  rw [strncpy]
  apply List.drop_left'
  rw [List.length_append, List.length_take, List.length_replicate, CString.strlen]
  omega

/-- A copy in front of a NUL reads as the string up to the number of bytes. -/
theorem ofBytes_strncpy {dest : List UInt8} {count : Nat} (src : CString) {rest : List UInt8}
    (terminated : dest.drop count = 0 :: rest) :
    (CString.ofBytes (strncpy dest src count)).bytes = src.bytes.take count := by
  have nul : (List.replicate (count - src.strlen) (0 : UInt8) ++ 0 :: rest).takeWhile (· ≠ 0) =
      [] := by
    cases count - src.strlen with
    | zero => exact List.takeWhile_cons_of_neg (by simp)
    | succ filled => exact List.takeWhile_cons_of_neg (by simp)
  have kept : ∀ byte ∈ src.bytes.take count, decide (byte ≠ 0) = true := by
    intro byte member
    simpa using ne_of_mem_of_not_mem (List.mem_of_mem_take member) src.noNul
  change (strncpy dest src count).takeWhile (· ≠ 0) = _
  rw [strncpy, terminated, List.append_assoc, List.takeWhile_append_of_pos kept, nul,
    List.append_nil]

/-- The difference of the first bytes of two blocks that differ, as far as `count` bytes. -/
def byteDifference : List UInt8 → List UInt8 → Nat → Int
  | _, _, 0 => 0
  | l :: ls, r :: rs, count + 1 =>
    if l = r then byteDifference ls rs count else (l.toNat : Int) - r.toNat
  | _, _, _ + 1 => 0

/-- `memcmp` of the first `count` bytes of two readable blocks. All of these bytes have to be
readable, so there is no result if one of the blocks is shorter. -/
def memcmp (left right : List UInt8) (count : Nat) : Option Int :=
  if count ≤ left.length ∧ count ≤ right.length then some (byteDifference left right count)
  else none

/-- The first difference is the lexicographic order of what is compared. -/
theorem outcome_byteDifference (left right : List UInt8) (count : Nat)
    (insideL : count ≤ left.length) (insideR : count ≤ right.length) :
    outcome (byteDifference left right count) =
      List.compareLex compare (left.take count) (right.take count) := by
  induction count generalizing left right with
  | zero => rw [byteDifference, List.take_zero, List.take_zero, outcome_zero]; rfl
  | succ count ih =>
    cases left with
    | nil => simp at insideL
    | cons l ls =>
      cases right with
      | nil => simp at insideR
      | cons r rs =>
        rw [byteDifference, List.take_succ_cons, List.take_succ_cons]
        by_cases same : l = r
        · rw [if_pos same, ih ls rs (by simpa using insideL) (by simpa using insideR)]
          simp [same, List.compareLex_cons_cons]
        · rw [if_neg same, compareLex_mismatch same]

/-- Within both blocks `memcmp` is the lexicographic order of what it compares. -/
theorem memcmp_inside (left right : List UInt8) (count : Nat) (insideL : count ≤ left.length)
    (insideR : count ≤ right.length) :
    ∃ result, memcmp left right count = some result ∧
      outcome result = List.compareLex compare (left.take count) (right.take count) :=
  ⟨_, if_pos ⟨insideL, insideR⟩, outcome_byteDifference left right count insideL insideR⟩

/-- Within both blocks `memcmp` answers zero exactly on equal bytes. -/
theorem memcmp_eq_zero {left right : List UInt8} {count : Nat} (insideL : count ≤ left.length)
    (insideR : count ≤ right.length) :
    memcmp left right count = some 0 ↔ left.take count = right.take count := by
  obtain ⟨result, run, order⟩ := memcmp_inside left right count insideL insideR
  rw [run, Option.some.injEq, ← outcome_eq_eq, order, Std.LawfulEqCmp.compare_eq_iff_eq]

/-- Nothing can be read behind an empty block. -/
@[simp] theorem memcmp_nil_left {right : List UInt8} {count : Nat} :
    memcmp [] right count = if count = 0 then some 0 else none := by
  cases count <;> simp [memcmp, byteDifference]

/-- Nothing can be read behind an empty block. -/
@[simp] theorem memcmp_nil_right {left : List UInt8} {count : Nat} :
    memcmp left [] count = if count = 0 then some 0 else none := by
  cases count <;> simp [memcmp, byteDifference]

/-- There is no result past the end of the second block. -/
theorem memcmp_past_end {left right : List UInt8} {count : Nat} (past : right.length < count) :
    memcmp left right count = none :=
  if_neg fun inside => absurd inside.2 (Nat.not_le.2 past)

/-- The little-endian bytes of a number. -/
def leBytes : Nat → Nat → List UInt8
  | 0, _ => []
  | width + 1, value => UInt8.ofNat value :: leBytes width (value / 256)

/-- The number that little-endian bytes spell. -/
def ofLeBytes : List UInt8 → Nat
  | [] => 0
  | byte :: rest => byte.toNat + 256 * ofLeBytes rest

/-- The width counts the bytes. -/
@[simp] theorem leBytes_length (width value : Nat) : (leBytes width value).length = width := by
  induction width generalizing value with
  | zero => rfl
  | succ width ih => simp [leBytes, ih]

/-- Reading the bytes of a number back loses only what the width cannot hold. -/
theorem ofLeBytes_leBytes (width value : Nat) :
    ofLeBytes (leBytes width value) = value % 256 ^ width := by
  induction width generalizing value with
  | zero => simp [leBytes, ofLeBytes, Nat.mod_one]
  | succ width ih =>
    rw [leBytes, ofLeBytes, ih, pow_succ', Nat.mod_mul]
    simp

/-- Numbers that fit their width have the same bytes only when they are equal. -/
theorem leBytes_inj {width left right : Nat} (fitsL : left < 256 ^ width)
    (fitsR : right < 256 ^ width) : leBytes width left = leBytes width right ↔ left = right := by
  refine ⟨fun same => ?_, fun same => by rw [same]⟩
  have values := congrArg ofLeBytes same
  rwa [ofLeBytes_leBytes, ofLeBytes_leBytes, Nat.mod_eq_of_lt fitsL,
    Nat.mod_eq_of_lt fitsR] at values

/-- Words of 32 bits with the same bytes are equal. -/
@[simp] theorem leBytes_uint32_inj {left right : UInt32} :
    leBytes 4 left.toNat = leBytes 4 right.toNat ↔ left = right :=
  (leBytes_inj left.toNat_lt right.toNat_lt).trans UInt32.toNat_inj

/-- Words of 64 bits with the same bytes are equal. -/
@[simp] theorem leBytes_uint64_inj {left right : UInt64} :
    leBytes 8 left.toNat = leBytes 8 right.toNat ↔ left = right :=
  (leBytes_inj left.toNat_lt right.toNat_lt).trans UInt64.toNat_inj

/-- Signed words with the same bits are equal. -/
@[simp] theorem int64_toUInt64_inj {left right : Int64} :
    left.toUInt64 = right.toUInt64 ↔ left = right := by
  refine ⟨fun same => ?_, fun same => by rw [same]⟩
  cases left
  cases right
  exact congrArg Int64.ofUInt64 same

end Bpcp.Lib
