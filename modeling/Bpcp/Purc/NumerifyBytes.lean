import Bpcp.Purc.CompareMethod

/-!
# Numbers of byte sequences

`numerify_bs` copies at most eight bytes to a long integer that is zero at first. On a
little-endian machine it copies the bytes themselves. On a big-endian machine it reverses
them into the end of a buffer of zeros, and then copies from the beginning of that buffer.
With fewer than eight bytes the copy starts with zeros and misses the bytes behind.
-/

namespace Bpcp.Purc

open Bpcp.Lib

/-- The number that big-endian bytes spell. -/
def ofBeBytes (bytes : List UInt8) : Nat := ofLeBytes bytes.reverse

/-- The bytes that are left of `s` and `nr`, at most `sizeof(long int)`. -/
def numerifyBytes (s : List UInt8) : List UInt8 :=
  if s.length > 8 then s.drop (s.length - 8) else s

/-- `memcpy` to a block from the beginning. -/
def memcpyTo (block source : List UInt8) : List UInt8 := source ++ block.drop source.length

/-- Eight bytes of zero. -/
def zeroLong : List UInt8 := List.replicate 8 0

/-- The loop of the branch for big-endian machines, from `i` on. -/
def reverseInto : List UInt8 → Nat → List UInt8 → List UInt8
  | [], _, buffer => buffer
  | byte :: rest, i, buffer => reverseInto rest (i + 1) (buffer.set (8 - 1 - i) byte)

/-- The `number` of `numerify_bs` in the branch for little-endian machines, on such a machine. -/
def numerifyBsLittleEndian (s : List UInt8) : Int64 :=
  (UInt64.ofNat (ofLeBytes (memcpyTo zeroLong (numerifyBytes s)))).toInt64

/-- The `number` of `numerify_bs` in the branch for big-endian machines, on such a machine. -/
def numerifyBsBigEndian (s : List UInt8) : Int64 :=
  let bytes := numerifyBytes s
  let buffer := reverseInto bytes 0 zeroLong
  (UInt64.ofNat (ofBeBytes (memcpyTo zeroLong (buffer.take bytes.length)))).toInt64

/-! ## Words and their bytes -/

/-- A number is smaller than the power that its bytes count. -/
theorem ofLeBytes_lt (bytes : List UInt8) : ofLeBytes bytes < 256 ^ bytes.length := by
  induction bytes with
  | nil => decide
  | cons byte rest ih =>
    have low := byte.toNat_lt
    rw [ofLeBytes, List.length_cons, pow_succ']
    omega

/-- Numbers with the same count of bytes are equal only when the bytes are. -/
theorem ofLeBytes_inj {left right : List UInt8} (lengths : left.length = right.length) :
    ofLeBytes left = ofLeBytes right ↔ left = right := by
  refine ⟨fun same => ?_, fun same => by rw [same]⟩
  induction left generalizing right with
  | nil => exact (List.length_eq_zero_iff.1 lengths.symm).symm
  | cons byte rest ih =>
    cases right with
    | nil => cases lengths
    | cons other others =>
      have lowL := byte.toNat_lt
      have lowR := other.toNat_lt
      rw [ofLeBytes, ofLeBytes] at same
      have bytes : byte = other := UInt8.toNat_inj.1 (by omega)
      rw [bytes, ih (by simpa using lengths) (by omega)]

/-- Zeros at the end do not change a number. -/
theorem ofLeBytes_append_zeros (bytes : List UInt8) (count : Nat) :
    ofLeBytes (bytes ++ List.replicate count 0) = ofLeBytes bytes := by
  induction bytes with
  | nil =>
    induction count with
    | zero => rfl
    | succ count ih =>
      rw [List.nil_append] at ih ⊢
      rw [List.replicate_succ]
      show 0 + 256 * ofLeBytes (List.replicate count 0) = 0
      rw [ih]
      rfl
  | cons byte rest ih => rw [List.cons_append, ofLeBytes, ofLeBytes, ih]

/-- Long integers made of eight bytes each are equal only when the bytes are. -/
theorem longOfBytes_inj {left right : List UInt8} (eightL : left.length = 8)
    (eightR : right.length = 8) :
    (UInt64.ofNat (ofLeBytes left)).toInt64 = (UInt64.ofNat (ofLeBytes right)).toInt64 ↔
      left = right := by
  have smallL := ofLeBytes_lt left
  have smallR := ofLeBytes_lt right
  rw [eightL] at smallL
  rw [eightR] at smallR
  rw [← ofLeBytes_inj (eightL.trans eightR.symm)]
  refine ⟨fun same => ?_, fun same => by rw [same]⟩
  have words := congrArg (fun long => long.toUInt64.toNat) same
  simpa [UInt64.toNat_ofNat_of_lt' smallL, UInt64.toNat_ofNat_of_lt' smallR] using words

/-! ## The two branches -/

/-- At most eight bytes are left. -/
theorem numerifyBytes_length (s : List UInt8) : (numerifyBytes s).length ≤ 8 := by
  rw [numerifyBytes]
  split
  · rw [List.length_drop]
    omega
  · omega

/-- A block of eight bytes is zeros behind what is copied to it. -/
theorem memcpyTo_zeroLong (source : List UInt8) :
    memcpyTo zeroLong source = source ++ List.replicate (8 - source.length) 0 := by
  rw [memcpyTo, zeroLong, List.drop_replicate]

/-- The loop stores what is left of the bytes in reverse, in front of the bytes stored already. -/
theorem reverseInto_eq (bytes stored : List UInt8) (fits : bytes.length + stored.length ≤ 8) :
    reverseInto bytes stored.length (List.replicate (8 - stored.length) 0 ++ stored.reverse) =
      List.replicate (8 - (bytes.length + stored.length)) 0 ++ (stored ++ bytes).reverse := by
  induction bytes generalizing stored with
  | nil => simp [reverseInto]
  | cons byte rest ih =>
    rw [List.length_cons] at fits
    have place : (List.replicate (8 - stored.length) (0 : UInt8) ++ stored.reverse).set
        (8 - 1 - stored.length) byte =
        List.replicate (8 - (stored ++ [byte]).length) 0 ++ (stored ++ [byte]).reverse := by
      obtain ⟨room, counted⟩ : ∃ room, 8 - stored.length = room + 1 := ⟨7 - stored.length, by omega⟩
      have before : 8 - 1 - stored.length = room := by omega
      have after : 8 - (stored ++ [byte]).length = room := by
        rw [List.length_append, List.length_singleton]
        omega
      rw [counted, before, after, List.replicate_succ', List.append_assoc,
        List.set_append_right _ _ (by simp)]
      simp
    have rest := ih (stored ++ [byte]) (by simp; omega)
    rw [List.length_append, List.length_singleton] at rest
    rw [reverseInto, place, List.length_append, List.length_singleton, rest]
    simp [Nat.add_comm, Nat.add_left_comm]

/-- The little-endian branch reads the bytes with zeros behind them. -/
theorem numerifyBsLittleEndian_eq (s : List UInt8) :
    numerifyBsLittleEndian s = (UInt64.ofNat (ofLeBytes
      (numerifyBytes s ++ List.replicate (8 - (numerifyBytes s).length) 0))).toInt64 := by
  rw [numerifyBsLittleEndian, memcpyTo_zeroLong]

/-- The front of a block that ends with reversed bytes, read backwards. -/
theorem reverse_take_padded (bytes : List UInt8) (count : Nat) :
    ((List.replicate count 0 ++ bytes.reverse).take bytes.length).reverse =
      (bytes ++ List.replicate count 0).drop count := by
  rw [List.reverse_take, List.reverse_append, List.reverse_reverse, List.reverse_replicate,
    List.length_append, List.length_replicate, List.length_reverse, Nat.add_sub_cancel]

/-- The number of the little-endian branch is the one that a byte sequence is compared by. -/
theorem numerifyBs_eq_littleEndian {s : List UInt8} (nonempty : s ≠ []) :
    numerifyBs s = toDouble (.finite (numerifyBsLittleEndian s).toInt) := by
  have last : numerifyBytes s = s.drop (s.length - 8) := by
    rw [numerifyBytes]
    split
    · rfl
    · rw [Nat.sub_eq_zero_of_le (by omega), List.drop_zero]
  rw [numerifyBs, if_neg nonempty, numerifyBsLittleEndian_eq, ofLeBytes_append_zeros, last]

/-- The big-endian branch reads the same bytes, but with zeros in place of the first ones, as
many as there are bytes missing. -/
theorem numerifyBsBigEndian_eq (s : List UInt8) :
    numerifyBsBigEndian s = (UInt64.ofNat (ofLeBytes
      (List.replicate (8 - (numerifyBytes s).length) 0 ++
        (numerifyBytes s ++ List.replicate (8 - (numerifyBytes s).length) 0).drop
          (8 - (numerifyBytes s).length)))).toInt64 := by
  have short := numerifyBytes_length s
  have reversed := reverseInto_eq (numerifyBytes s) [] (by simpa using short)
  simp only [List.length_nil, Nat.sub_zero, List.reverse_nil, List.append_nil, Nat.add_zero,
    List.nil_append] at reversed
  have copied : ((List.replicate (8 - (numerifyBytes s).length) 0 ++
      (numerifyBytes s).reverse).take (numerifyBytes s).length).length =
      (numerifyBytes s).length := by
    rw [List.length_take, List.length_append, List.length_replicate, List.length_reverse]
    omega
  rw [numerifyBsBigEndian, ofBeBytes, memcpyTo_zeroLong, zeroLong, reversed, copied,
    List.reverse_append, List.reverse_replicate, reverse_take_padded]

/-- A list begins with zeros exactly when it is zeros in front of its rest. -/
theorem eq_zeros_append_drop_iff {bytes : List UInt8} {count : Nat}
    (enough : count ≤ bytes.length) :
    bytes = List.replicate count 0 ++ bytes.drop count ↔ ∀ byte ∈ bytes.take count, byte = 0 := by
  constructor
  · intro same byte member
    rw [same, List.take_left' List.length_replicate] at member
    exact List.eq_of_mem_replicate member
  · intro zeros
    have front : bytes.take count = List.replicate count 0 :=
      List.eq_replicate_iff.2 ⟨List.length_take_of_le enough, zeros⟩
    rw [← front, List.take_append_drop]

/-- The numbers of the branches are equal exactly when the bytes that are left begin with zeros,
as many as there are bytes missing. -/
theorem numerifyBs_endian_iff_bytes (s : List UInt8) :
    numerifyBsBigEndian s = numerifyBsLittleEndian s ↔
      ∀ byte ∈ (numerifyBytes s ++ List.replicate (8 - (numerifyBytes s).length) 0).take
        (8 - (numerifyBytes s).length), byte = 0 := by
  have short := numerifyBytes_length s
  have eight : (numerifyBytes s ++
      List.replicate (8 - (numerifyBytes s).length) 0).length = 8 := by
    rw [List.length_append, List.length_replicate]
    omega
  rw [numerifyBsLittleEndian_eq, numerifyBsBigEndian_eq, longOfBytes_inj _ eight,
    ← eq_zeros_append_drop_iff (by omega)]
  · exact eq_comm
  · rw [List.length_append, List.length_drop, eight, List.length_replicate]
    omega

/-- The bytes in the places of the missing ones are the first bytes of the sequence, and zeros
where it is shorter. -/
theorem mem_take_numerifyBytes_iff (s : List UInt8) :
    (∀ byte ∈ (numerifyBytes s ++ List.replicate (8 - (numerifyBytes s).length) 0).take
        (8 - (numerifyBytes s).length), byte = 0) ↔
      ∀ byte ∈ s.take (8 - s.length), byte = 0 := by
  by_cases long : s.length > 8
  · have whole : (numerifyBytes s).length = 8 := by
      rw [numerifyBytes, if_pos long, List.length_drop]
      omega
    have none : 8 - s.length = 0 := by omega
    simp [whole, none]
  · rw [numerifyBytes, if_neg long, List.take_append, List.take_replicate]
    constructor
    · intro zeros byte member
      exact zeros byte (List.mem_append_left _ member)
    · intro zeros byte member
      rcases List.mem_append.1 member with first | padding
      · exact zeros byte first
      · exact List.eq_of_mem_replicate padding

/-- The machines agree on the number of a byte sequence exactly when it begins with zeros, as many
as there are bytes missing, or is shorter and all zeros. -/
theorem numerifyBs_endian_iff (s : List UInt8) :
    numerifyBsBigEndian s = numerifyBsLittleEndian s ↔ ∀ byte ∈ s.take (8 - s.length), byte = 0 :=
  (numerifyBs_endian_iff_bytes s).trans (mem_take_numerifyBytes_iff s)

/-- The byte sequence with the one byte 1 is the number 1 on a little-endian machine and 0 on a
big-endian machine. -/
theorem numerifyBs_endian_one :
    numerifyBsLittleEndian [1] = 1 ∧ numerifyBsBigEndian [1] = 0 ∧
      numerifyBsBigEndian [1] ≠ numerifyBsLittleEndian [1] := by
  decide

end Bpcp.Purc
