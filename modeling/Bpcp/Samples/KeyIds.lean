import Bpcp.Samples.SortedArray

/-!
# The table of keys and their identifiers

The sample looks up keys in a table, ignoring case. The last two keys of the table are not in
the order that the search relies on, and the search goes to the wrong side of one of them.
-/

namespace Bpcp.Samples

open Bpcp.Lib

/-- `struct key_id_pair`. -/
structure KeyIdPair where
  /-- `key`. -/
  key : CString
  /-- `id`. -/
  id : Int
deriving DecidableEq

/-- `key_ids`. -/
def keyIds : List KeyIdPair :=
  [⟨.lit "dataLen", 1⟩, ⟨.lit "dataType", 2⟩, ⟨.lit "element", 3⟩, ⟨.lit "event", 4⟩,
    ⟨.lit "operation", 5⟩, ⟨.lit "property", 6⟩, ⟨.lit "requestId", 7⟩, ⟨.lit "result", 8⟩,
    ⟨.lit "type", 9⟩, ⟨.lit "target", 10⟩]

/-- A search by `strcasecmp` in a table of keys. -/
def keySearch (array : List KeyIdPair) : SearchArgs CString KeyIdPair Int :=
  ⟨array, KeyIdPair.key, KeyIdPair.id, strcasecmp, -1⟩

/-- `find_key_id`. -/
def findKeyId (key : CString) : Option Int := findKeyInSortedArray (keySearch keyIds) key

/-- Strings that are equal when the case of ASCII letters is ignored. -/
def EqualIgnoringCase (left right : CString) : Prop :=
  left.bytes.map toLower = right.bytes.map toLower

instance (left right : CString) : Decidable (EqualIgnoringCase left right) :=
  inferInstanceAs (Decidable (_ = _))

/-- The result of a correct lookup: the identifier of the entry whose key equals the argument
ignoring case, and -1 when there is none. -/
def LooksUp (find : CString → Option Int) (key : CString) : Prop :=
  (∀ pair ∈ keyIds, EqualIgnoringCase key pair.key → find key = some pair.id) ∧
    ((∀ pair ∈ keyIds, ¬EqualIgnoringCase key pair.key) → find key = some (-1))

/-! ## Searches in the table -/

/-- `strcasecmp` answers zero exactly when strings are equal ignoring case. -/
theorem strcasecmp_eq_zero_iff {left right : CString} :
    strcasecmp left right = 0 ↔ EqualIgnoringCase left right := strcasecmp_eq_zero

/-- Without an entry for the key the search answers -1. -/
theorem findKeyId_absent {key : CString}
    (absent : ∀ pair ∈ keyIds, ¬EqualIgnoringCase key pair.key) : findKeyId key = some (-1) := by
  apply searchLoop_absent (by decide) _ le_rfl (Int.sub_lt_self _ one_pos) (by decide)
  intro pair member equal
  exact absent pair member (strcasecmp_eq_zero_iff.1 equal)

/-- Keys that are equal ignoring case are looked up alike. -/
theorem findKeyId_congr {key other : CString} (equal : EqualIgnoringCase key other) :
    findKeyId key = findKeyId other := by
  apply searchLoop_congr
  intro pair _
  exact strcasecmp_consistent.sign_congr (strcasecmp_eq_zero_iff.2 equal) pair.key

/-- Every key of the table is found but the last one, which the search takes to be in front of
the key before it. -/
theorem findKeyId_keys :
    ∀ pair ∈ keyIds, findKeyId pair.key = some (if pair.id = 10 then -1 else pair.id) := by
  decide

/-- The last entry of the table, which alone has its identifier. -/
theorem keyIds_last :
    ∀ pair ∈ keyIds, pair.id = 10 ↔ EqualIgnoringCase pair.key (.lit "target") := by
  decide

/-- A lookup that answers what the search answers for the keys of the table. -/
theorem findKeyId_present {key : CString} {pair : KeyIdPair} (member : pair ∈ keyIds)
    (equal : EqualIgnoringCase key pair.key) :
    findKeyId key = some (if pair.id = 10 then -1 else pair.id) := by
  rw [findKeyId_congr equal]
  exact findKeyId_keys pair member

/-- The lookup is right for every key but the one that is out of order. -/
theorem findKeyId_looksUp_iff (key : CString) :
    LooksUp findKeyId key ↔ ¬EqualIgnoringCase key (.lit "target") := by
  constructor
  · intro looksUp target
    have member : (⟨.lit "target", 10⟩ : KeyIdPair) ∈ keyIds := by decide
    have found := looksUp.1 _ member target
    rw [findKeyId_present member target] at found
    exact absurd found (by decide)
  · intro other
    constructor
    · intro pair member equal
      have notLast : pair.id ≠ 10 := by
        intro last
        exact other (equal.trans ((keyIds_last pair member).1 last))
      rw [findKeyId_present member equal, if_neg notLast]
    · exact findKeyId_absent

/-- The last key of the table is not found. -/
theorem findKeyId_target : ¬LooksUp findKeyId (.lit "target") := by
  intro looksUp
  have found := looksUp.1 ⟨.lit "target", 10⟩ (by decide) (by decide)
  exact absurd found (by decide)

end Bpcp.Samples
