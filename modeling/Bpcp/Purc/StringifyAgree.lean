import Bpcp.Purc.Diff

/-!
# The two stringifiers of scalars

Scalars of different types are compared by texts that `stringify` makes, and a scalar is
stringified for everybody else by `variant_stringify`. The two functions have a switch over
the scalar types each. The switches agree in every case but one: the first asserts that it
never meets a byte sequence, and a byte sequence that is compared with a scalar of another
type leads it there.
-/

namespace Bpcp.Purc

open Bpcp.Lib

/-- Numbers are printed with at most 127 characters, and pointers with at most 18. -/
structure Runtime.PrintsShort (rt : Runtime) : Prop where
  /-- Doubles. -/
  number : ∀ d, (rt.printNumber d).bytes.length ≤ 127
  /-- Long doubles. -/
  longdouble : ∀ ld, (rt.printLongdouble ld).bytes.length ≤ 127
  /-- Pointers. -/
  pointer : ∀ address, (rt.printPointer address).bytes.length ≤ 18

/-- The plain runtime prints nothing, which is short. -/
theorem Runtime.plain_printsShort : Runtime.plain.PrintsShort :=
  ⟨fun _ => Nat.zero_le _, fun _ => Nat.zero_le _, fun _ => Nat.zero_le _⟩

/-- The text of a scalar is the same for both stringifiers: the one for comparisons passes its
assertions and returns what the other one emits. -/
def StringifiersAgree (rt : Runtime) (addr : Nat) (v : Scalar) : Prop :=
  ∃ text, stringify rt v = some text ∧
    text.bytes = emitted (variantStringify rt .none (.scalar addr v))

variable {rt : Runtime}

/-- A printed text that fits both buffers is the same text. -/
theorem stringifyPrinted_emitPrinted {text : List UInt8} (noNul : (0 : UInt8) ∉ text)
    (short : text.length ≤ 127) :
    ∃ whole, stringifyPrinted text = some whole ∧ whole.bytes = emitted [emitPrinted text] := by
  have printed : stringifyPrinted (CString.mk text noNul).bytes = some ⟨text, noNul⟩ :=
    stringifyPrinted_short (Nat.lt_succ_of_le short)
  refine ⟨⟨text, noNul⟩, printed, ?_⟩
  rw [emitted_cons, emitted_nil, List.append_nil, emitPrinted_bytes noNul short]

/-- A literal that is printed for comparisons is emitted as it is. -/
theorem stringifyPrinted_emitText {text : CString} (short : text.bytes.length < 128) :
    ∃ whole, stringifyPrinted text.bytes = some whole ∧
      whole.bytes = emitted [emitText text] := by
  refine ⟨text, stringifyPrinted_short short, ?_⟩
  rw [emitted_cons, emitted_nil, List.append_nil, emitText_bytes]

/-- A stored string is compared and emitted as it is. -/
theorem some_emitSized (text : CString) :
    ∃ whole, some text = some whole ∧ whole.bytes = emitted [emitSized text] := by
  refine ⟨text, rfl, ?_⟩
  rw [emitted_cons, emitted_nil, List.append_nil, emitSized_bytes]

/-- The text of a dynamic value has no NUL. -/
theorem dynamicText_noNul (ptrPtr : UInt64 × UInt64) : (0 : UInt8) ∉ dynamicText rt ptrPtr := by
  simp only [dynamicText, List.mem_append, not_or]
  exact ⟨⟨⟨⟨CString.noNul _, CString.noNul _⟩, CString.noNul _⟩, CString.noNul _⟩,
    CString.noNul _⟩

/-- The text of a native value has no NUL. -/
theorem nativeText_noNul (ptrPtr : UInt64 × UInt64) : (0 : UInt8) ∉ nativeText rt ptrPtr := by
  simp only [nativeText, List.mem_append, not_or]
  exact ⟨⟨CString.noNul _, CString.noNul _⟩, CString.noNul _⟩

/-- The text of a dynamic value fits the buffer. -/
theorem dynamicText_short (short : rt.PrintsShort) (ptrPtr : UInt64 × UInt64) :
    (dynamicText rt ptrPtr).length ≤ 127 := by
  have getter := short.pointer ptrPtr.1
  have setter := short.pointer ptrPtr.2
  have opening : (CString.lit "<dynamic: ").bytes.length = 10 := by decide
  have comma : (CString.lit ", ").bytes.length = 2 := by decide
  have closing : (CString.lit ">").bytes.length = 1 := by decide
  simp only [dynamicText, List.length_append]
  omega

/-- The text of a native value fits the buffer. -/
theorem nativeText_short (short : rt.PrintsShort) (ptrPtr : UInt64 × UInt64) :
    (nativeText rt ptrPtr).length ≤ 127 := by
  have entity := short.pointer ptrPtr.1
  have opening : (CString.lit "<native: ").bytes.length = 9 := by decide
  have closing : (CString.lit ">").bytes.length = 1 := by decide
  simp only [nativeText, List.length_append]
  omega

/-- The stringifiers agree on every scalar that is not a byte sequence. -/
theorem stringifiersAgree_of_ne (short : rt.PrintsShort) (addr : Nat) {v : Scalar}
    (other : v.type ≠ .bsequence) : StringifiersAgree rt addr v := by
  cases v with
  | undefined => exact stringifyPrinted_emitText (by decide)
  | null => exact stringifyPrinted_emitText (by decide)
  | boolean b => cases b <;> exact stringifyPrinted_emitText (by decide)
  | exception atom => exact some_emitSized _
  | number d => exact stringifyPrinted_emitPrinted (CString.noNul _) (short.number d)
  | longint i64 =>
    have fits := decimal_short i64.le_toInt (i64.toInt_lt.trans (by decide))
    exact stringifyPrinted_emitPrinted (decimalInt_noNul _) (Nat.le_of_lt_succ fits)
  | ulongint u64 =>
    have high : (u64.toNat : ℤ) < 2 ^ 64 := by exact_mod_cast u64.toNat_lt
    have fits := decimal_short (by omega) high
    exact stringifyPrinted_emitPrinted (decimalInt_noNul _) (Nat.le_of_lt_succ fits)
  | longdouble ld =>
    exact stringifyPrinted_emitPrinted (CString.noNul _) (short.longdouble ld)
  | atomstring atom => exact some_emitSized _
  | string value => exact some_emitSized _
  | bsequence storage => exact absurd rfl other
  | dynamic ptrPtr =>
    exact stringifyPrinted_emitPrinted (dynamicText_noNul _) (dynamicText_short short _)
  | native ptrPtr =>
    exact stringifyPrinted_emitPrinted (nativeText_noNul _) (nativeText_short short _)

/-- A byte sequence that is compared as a text with a scalar of another type runs into an
assertion. -/
theorem scalarDiff_bsequence {opt : CompareMethod} (asText : opt = .case ∨ opt = .caseless)
    {addrL addrR : Nat} (apart : addrL ≠ addrR) (storage : Storage) {r : Scalar}
    (other : r.type ≠ .bsequence) :
    scalarDiff rt opt (some (.scalar addrL (.bsequence storage))) (some (.scalar addrR r)) =
      none := by
  have types : (Scalar.bsequence storage).type ≠ r.type := fun same => other same.symm
  rcases asText with rfl | rfl <;>
    simp [scalarDiff, Variant.addr, apart, types, stringifyDiff, stringify]

/-- The two stringifiers agree on exactly the scalars that are not byte sequences. -/
theorem stringifiersAgree_iff (short : rt.PrintsShort) (addr : Nat) (v : Scalar) :
    StringifiersAgree rt addr v ↔ v.type ≠ .bsequence := by
  constructor
  · intro agree isBytes
    obtain ⟨text, printed, -⟩ := agree
    cases v <;> simp [Scalar.type] at isBytes
    cases printed
  · exact stringifiersAgree_of_ne short addr

/-- The two stringifiers agree on `true`. -/
theorem stringifiersAgree_iff_true :
    StringifiersAgree .plain 1 (.boolean true) ↔ (Scalar.boolean true).type ≠ .bsequence :=
  stringifiersAgree_iff Runtime.plain_printsShort 1 _

/-- A byte sequence with one byte has a text, but not for comparisons, and comparing it with
`null` runs into the assertion. -/
theorem stringifiersAgree_bytes :
    ¬StringifiersAgree .plain 1 (.bsequence (.static [171] (by decide))) ∧
      emitted (variantStringify .plain .none
        (.scalar 1 (.bsequence (.static [171] (by decide))))) = [65, 66] ∧
      scalarDiff .plain .case (some (.scalar 1 (.bsequence (.static [171] (by decide)))))
        (some (.scalar 2 .null)) = none := by
  refine ⟨?_, by decide, by decide⟩
  rintro ⟨text, printed, -⟩
  cases printed

end Bpcp.Purc
