import Bpcp.Purc.Stringify

/-!
# Strings from formats

`pcvariant_make_with_printf` formats to a buffer on the stack. When the returned length says
that the text did not fit, it formats again to a block from the heap, whose size is that
length. The block has no byte for the terminator, so the last character is lost.
-/

namespace Bpcp.Purc

open Bpcp.Lib

/-- What `pcvariant_make_with_printf` uses of the C library and of the variant module. -/
structure StringMaker where
  /-- Whether `malloc` of a number of bytes succeeds. -/
  malloc : Nat → Bool
  /-- The check of the encoding. -/
  isUtf8 : CString → Bool
  /-- `purc_variant_make_string`, whose second argument asks for the check. -/
  purcVariantMakeString : CString → Bool → Option Variant

/-- What `pcvariant_make_with_printf` returns, and the error that it sets itself. -/
structure MadeString where
  /-- The variant, or nothing for `PURC_VARIANT_INVALID`. -/
  value : Option Variant
  /-- `PURC_ERROR_OUT_OF_MEMORY`. -/
  outOfMemory : Bool

/-- The size of the buffer on the stack. -/
def printfBufferSize : Nat := 1024

/-- What `vsnprintf` returns and stores, where the format and the arguments print a text: the
length of the text, or an error when it is beyond `INT_MAX`. -/
def vsnprintf (size : Nat) (text : CString) : Int × List UInt8 :=
  (if IntType.int32.Represents text.strlen then text.strlen else -1, snprintf size text.bytes)

/-- `pcvariant_make_with_printf` for a format and arguments that print a text. There is no
result when an assertion fails. -/
def pcvariantMakeWithPrintf (maker : StringMaker) (text : CString) : Option MadeString :=
  let (r, buf) := vsnprintf printfBufferSize text
  if r < 0 then none
  else if r.toNat ≥ printfBufferSize then
    if maker.malloc r.toNat = false then some ⟨none, true⟩
    else
      let (r, p) := vsnprintf r.toNat text
      if r < 0 then none else some ⟨maker.purcVariantMakeString (.ofBytes p) true, false⟩
  else some ⟨maker.purcVariantMakeString (.ofBytes buf) true, false⟩

/-- A variant is a string with a text. -/
def IsString (value : Option Variant) (text : CString) : Prop :=
  ∃ addr content, value = some (.scalar addr (.string content)) ∧ content.text = text

/-- Strings of a memory in the right encoding are copied to a new variant, and others are
refused when the check is asked for. -/
def StringMaker.MakesStrings (maker : StringMaker) : Prop :=
  ∀ text check, text.stored.length < 2 ^ 64 →
    if maker.isUtf8 text = true ∨ check = false
      then IsString (maker.purcVariantMakeString text check) text
      else maker.purcVariantMakeString text check = none

/-- The whole text is in the variant that is returned. -/
def KeepsText (result : Option MadeString) (text : CString) : Prop :=
  ∃ made, result = some made ∧ IsString made.value text

variable {maker : StringMaker}

/-- A variant is a string with one text only. -/
theorem IsString.same {value : Option Variant} {left right : CString} (isLeft : IsString value left)
    (isRight : IsString value right) : left = right := by
  obtain ⟨_, content, found, rfl⟩ := isLeft
  obtain ⟨_, other, again, rfl⟩ := isRight
  rw [found] at again
  cases again
  rfl

/-- With the check, a string is made exactly of a text in the right encoding. -/
theorem isString_makeString_iff (makes : maker.MakesStrings) {made text : CString}
    (fits : made.stored.length < 2 ^ 64) :
    IsString (maker.purcVariantMakeString made true) text ↔
      made = text ∧ maker.isUtf8 made = true := by
  have behaviour := makes made true fits
  constructor
  · intro isText
    by_cases encoded : maker.isUtf8 made = true
    · rw [if_pos (.inl encoded)] at behaviour
      exact ⟨behaviour.same isText, encoded⟩
    · rw [if_neg (by simpa using encoded)] at behaviour
      obtain ⟨_, _, found, -⟩ := isText
      rw [behaviour] at found
      cases found
  · rintro ⟨rfl, encoded⟩
    rwa [if_pos (.inl encoded)] at behaviour

/-- A string with the length of an `int` fits the memory. -/
theorem stored_fits (text : CString) (short : text.strlen < 2 ^ 31) :
    text.stored.length < 2 ^ 64 := by
  rw [CString.strlen] at short
  rw [CString.stored, List.length_append, List.length_singleton]
  omega

/-- A block that is larger than the text receives the whole text. -/
theorem ofBytes_snprintf {size : Nat} {text : CString} (fits : text.strlen < size) :
    CString.ofBytes (snprintf size text.bytes) = text := by
  rw [CString.strlen] at fits
  rw [snprintf, List.take_of_length_le (by omega)]
  exact CString.ext (text.takeWhile_terminated [])

/-- A block receives at most as many characters as it has bytes in front of the last. -/
theorem ofBytes_snprintf_strlen (size : Nat) (text : CString) :
    (CString.ofBytes (snprintf size text.bytes)).strlen ≤ size - 1 := by
  have noNul : (0 : UInt8) ∉ text.bytes.take (size - 1) :=
    fun member => text.noNul (List.mem_of_mem_take member)
  have cut : (CString.ofBytes (snprintf size text.bytes)).bytes = text.bytes.take (size - 1) :=
    CString.takeWhile_terminated ⟨_, noNul⟩ []
  rw [CString.strlen, cut, List.length_take]
  exact Nat.min_le_left _ _

/-- A text shorter than the buffer on the stack is made into a string there. -/
theorem pcvariantMakeWithPrintf_short {text : CString} (short : text.strlen < printfBufferSize) :
    pcvariantMakeWithPrintf maker text = some ⟨maker.purcVariantMakeString text true, false⟩ := by
  have size : printfBufferSize = 1024 := rfl
  have int : IntType.int32.Represents text.strlen := by
    constructor
    · exact le_trans (by decide) (Int.natCast_nonneg _)
    · exact le_trans (Int.ofNat_le.2 (Nat.le_of_lt short)) (by decide)
  simp only [pcvariantMakeWithPrintf, vsnprintf, if_pos int, ofBytes_snprintf short]
  rw [if_neg (by omega), if_neg (by omega)]

/-- What becomes of a longer text: an assertion fails, memory is missing, or the last character
is lost. -/
theorem pcvariantMakeWithPrintf_long (maker : StringMaker) {text : CString}
    (long : printfBufferSize ≤ text.strlen) :
    pcvariantMakeWithPrintf maker text = none ∨
    pcvariantMakeWithPrintf maker text = some ⟨none, true⟩ ∨
    IntType.int32.Represents text.strlen ∧ pcvariantMakeWithPrintf maker text = some
      ⟨maker.purcVariantMakeString (.ofBytes (snprintf text.strlen text.bytes)) true, false⟩ := by
  by_cases int : IntType.int32.Represents text.strlen
  · simp only [pcvariantMakeWithPrintf, vsnprintf, if_pos int, Int.toNat_natCast, if_pos long,
      if_neg (show ¬(text.strlen : Int) < 0 by omega)]
    cases maker.malloc text.strlen with
    | false => exact .inr (.inl rfl)
    | true => exact .inr (.inr ⟨int, rfl⟩)
  · refine .inl ?_
    simp only [pcvariantMakeWithPrintf, vsnprintf, if_neg int]
    rfl

/-- A text that does not fit the buffer on the stack is not kept. -/
theorem not_keepsText_of_long (makes : maker.MakesStrings) {text : CString}
    (long : printfBufferSize ≤ text.strlen) :
    ¬KeepsText (pcvariantMakeWithPrintf maker text) text := by
  rintro ⟨made, result, isText⟩
  rcases pcvariantMakeWithPrintf_long maker long with failed | missing |
    ⟨int, cut⟩
  · rw [failed] at result
    cases result
  · rw [missing] at result
    cases result
    obtain ⟨_, _, found, -⟩ := isText
    cases found
  · rw [cut] at result
    cases result
    have positive : 0 < text.strlen := lt_of_lt_of_le (by decide) long
    have below : (text.strlen : Int) ≤ 2 ^ 31 - 1 := int.2
    have shorter := ofBytes_snprintf_strlen text.strlen text
    have fits := stored_fits (.ofBytes (snprintf text.strlen text.bytes)) (by omega)
    rw [((isString_makeString_iff makes fits).1 isText).1] at shorter
    omega

/-- The whole text is kept exactly when it is shorter than the buffer on the stack and passes
the check of the encoding. -/
theorem pcvariantMakeWithPrintf_keepsText_iff (makes : maker.MakesStrings) (text : CString) :
    KeepsText (pcvariantMakeWithPrintf maker text) text ↔
      text.strlen < printfBufferSize ∧ maker.isUtf8 text = true := by
  constructor
  · intro keeps
    have short : text.strlen < printfBufferSize := by
      by_contra long
      exact not_keepsText_of_long makes (Nat.le_of_not_lt long) keeps
    obtain ⟨made, result, isText⟩ := keeps
    rw [pcvariantMakeWithPrintf_short short] at result
    cases result
    have fits := stored_fits text (lt_trans short (by decide))
    exact ⟨short, ((isString_makeString_iff makes fits).1 isText).2⟩
  · rintro ⟨short, encoded⟩
    have fits := stored_fits text (lt_trans short (by decide))
    exact ⟨_, pcvariantMakeWithPrintf_short short,
      (isString_makeString_iff makes fits).2 ⟨rfl, encoded⟩⟩

/-- A maker whose allocations succeed: it accepts what Lean reads as UTF-8, and keeps strings in
extra space. -/
def StringMaker.plain : StringMaker where
  malloc _ := true
  isUtf8 text := text.bytes.toByteArray.validateUTF8
  purcVariantMakeString text check :=
    if fits : text.stored.length < 2 ^ 64 then
      if text.bytes.toByteArray.validateUTF8 = true ∨ check = false
        then some (.scalar 1 (.string (.ofText text fits)))
        else none
    else none

/-- The plain maker makes strings. -/
theorem StringMaker.plain_makesStrings : StringMaker.plain.MakesStrings := by
  intro text check fits
  simp only [StringMaker.plain, dif_pos fits]
  split
  · exact ⟨1, .ofText text fits, rfl, rfl⟩
  · rfl

/-- The short text `abc` is kept exactly when it passes the check. -/
theorem pcvariantMakeWithPrintf_keepsText_abc :
    KeepsText (pcvariantMakeWithPrintf .plain (.lit "abc")) (.lit "abc") ↔
      (CString.lit "abc").strlen < printfBufferSize ∧
        StringMaker.plain.isUtf8 (.lit "abc") = true :=
  pcvariantMakeWithPrintf_keepsText_iff StringMaker.plain_makesStrings _

/-- A text of 1024 letters. -/
def kilobyteText : CString :=
  ⟨List.replicate 1024 97, fun member => absurd (List.eq_of_mem_replicate member) (by decide)⟩

/-- A text of 1024 letters is not kept. -/
theorem pcvariantMakeWithPrintf_kilobyte :
    ¬KeepsText (pcvariantMakeWithPrintf .plain kilobyteText) kilobyteText :=
  not_keepsText_of_long StringMaker.plain_makesStrings List.length_replicate.ge

end Bpcp.Purc
