import Bpcp.Lib.Buffer
import Bpcp.MiniGUI.Rwops

/-!
# Run-length encoded rows

A row of a run-length encoded bitmap is a sequence of commands: runs, absolute data,
displacements and end markers. Each decoder is a loop over commands, and what its body does is
said by the command at the place of the stream.
-/

namespace Bpcp.MiniGUI

open Bpcp.Lib

/-- What a decoder returns. -/
inductive BmpFlag where
  /-- `BMP_ERR`. -/
  | bmpErr
  /-- `BMP_LINE`. -/
  | bmpLine
  /-- `BMP_END`. -/
  | bmpEnd
deriving DecidableEq

/-- The variables of a decoder. -/
structure RleState where
  /-- The stream. -/
  f : RWops
  /-- The row. -/
  bits : Buffer UInt8
  /-- The position in pixels. -/
  pos : Nat
  /-- `flag`. -/
  flag : BmpFlag

/-- The body of the loop of a decoder, and whether it returns from the function. -/
structure RleDecoder where
  /-- What the body leaves. -/
  body : RleState → RleState × Bool
  /-- The body reads a byte or moves on, when it does not return. -/
  progress : ∀ s, (body s).2 = false →
    (body s).1.f.rest.length ≤ s.f.rest.length ∧ s.pos ≤ (body s).1.pos ∧
      ((body s).1.f.rest.length < s.f.rest.length ∨ s.pos < (body s).1.pos)

/-- The loop of a decoder. -/
def rleLoop (decoder : RleDecoder) (width : Nat) (s : RleState) : RleState :=
  if s.pos ≤ width ∧ s.flag = .bmpErr then
    if (decoder.body s).2 = true then (decoder.body s).1
    else rleLoop decoder width (decoder.body s).1
  else s
termination_by s.f.rest.length + (width + 1 - s.pos)
decreasing_by
  rename_i running stays
  have moved := decoder.progress s (by simpa using stays)
  omega

/-! ## Eight bits a pixel -/

/-- The loop of `read_RLE8_compressed_image` for a run. -/
def rle8Run (val : UInt8) : Nat → RleState → RleState
  | 0, s => s
  | count + 1, s => rle8Run val count { s with bits := s.bits.set s.pos val, pos := s.pos + 1 }

/-- The loop of `read_RLE8_compressed_image` for absolute data. -/
def rle8Absolute : Nat → RleState → RleState
  | 0, s => s
  | count + 1, s =>
    let (val0, f) := fpGetc s.f
    rle8Absolute count { s with f := f, bits := s.bits.set s.pos val0, pos := s.pos + 1 }

/-- The body of the loop of `read_RLE8_compressed_image`. -/
def rle8Body (s : RleState) : RleState :=
  let (count, f) := fpGetc s.f
  let (val, f) := fpGetc f
  let s := { s with f := f }
  if 0 < count then rle8Run val count.toNat s
  else if val = 0 then { s with flag := .bmpLine }
  else if val = 1 then { s with flag := .bmpEnd }
  else if val = 2 then
    let (count, f) := fpGetc s.f
    let (_, f) := fpGetc f
    { s with f := f, pos := s.pos + count.toNat }
  else
    let s := rle8Absolute val.toNat s
    if val.toNat % 2 = 1 then { s with f := (fpGetc s.f).2 } else s

/-! ## Four bits a pixel -/

/-- The statements that store one pixel: an even pixel overwrites its byte, and an odd pixel is
added to what is there. -/
def putNibble (bits : Buffer UInt8) (pos : Nat) (even odd : UInt8) : Buffer UInt8 :=
  if pos % 2 = 0 then bits.set (pos / 2) (even <<< 4)
  else bits.set (pos / 2) (bits.read (pos / 2) ||| odd)

/-- The loop of `read_RLE4_compressed_image` for a run, and whether it returns. -/
def rle4Run (width : Nat) (b0 b1 : UInt8) : Nat → RleState → RleState × Bool
  | 0, s => (s, false)
  | count + 1, s =>
    let s := { s with bits := putNibble s.bits s.pos b0 b1 }
    if width ≤ s.pos then (s, true)
    else rle4Run width b0 b1 count { s with pos := s.pos + 1 }

/-- The entries of `b` after a word of absolute data was read. -/
def wordNibbles (val0 : UInt16) (k : Nat) : UInt8 :=
  match k with
  | 0 => (val0 >>> 4 &&& 15).toUInt8
  | 1 => (val0 &&& 15).toUInt8
  | 2 => (val0 >>> 12 &&& 15).toUInt8
  | _ => (val0 >>> 8 &&& 15).toUInt8

/-- The loop of `read_RLE4_compressed_image` for absolute data, from the index `j` on. -/
def rle4Absolute (short : ShortRead) : Nat → Nat → UInt16 → RleState → RleState
  | 0, _, _, s => s
  | count + 1, j, val0, s =>
    let (val0, f) := if j % 4 = 0 then fpIgetw short s.f else (val0, s.f)
    let pixel := wordNibbles val0 (j % 4)
    rle4Absolute short count (j + 1) val0
      { s with f := f, bits := putNibble s.bits s.pos pixel pixel, pos := s.pos + 1 }

/-- The body of the loop of `read_RLE4_compressed_image`. -/
def rle4Body (short : ShortRead) (width : Nat) (s : RleState) : RleState × Bool :=
  let (count, f) := fpGetc s.f
  let (val, f) := fpGetc f
  let s := { s with f := f }
  if 0 < count then rle4Run width (val >>> 4 &&& 15) (val &&& 15) count.toNat s
  else if val = 0 then ({ s with flag := .bmpLine }, false)
  else if val = 1 then ({ s with flag := .bmpEnd }, false)
  else if val = 2 then
    let (count, f) := fpGetc s.f
    let (_, f) := fpGetc f
    ({ s with f := f, pos := s.pos + count.toNat }, false)
  else (rle4Absolute short val.toNat 0 0 s, false)

/-! ## What one command does -/

/-- A command of an encoded row. -/
inductive RleCommand where
  /-- A run of pixels. -/
  | run (count : Nat)
  /-- Pixels that follow one by one. -/
  | absolute (count : Nat)
  /-- A number of pixels is skipped. -/
  | displace (count : Nat)
  /-- The end of the line. -/
  | endOfLine
  /-- The end of the picture. -/
  | endOfPicture

namespace RleCommand

/-- How far the position moves. -/
def advance : RleCommand → Nat
  | run count => count
  | absolute count => count
  | displace count => count
  | _ => 0

/-- Nothing follows the command. -/
def isEnd : RleCommand → Bool
  | endOfLine => true
  | endOfPicture => true
  | _ => false

end RleCommand

/-- The command at a place of the stream and the stream behind it, where absolute data is
passed over as its coding says. -/
def parseCommand (passData : Nat → RWops → RWops) (f : RWops) : RleCommand × RWops :=
  let (count, f) := fpGetc f
  let (val, f) := fpGetc f
  if 0 < count then (.run count.toNat, f)
  else if val = 0 then (.endOfLine, f)
  else if val = 1 then (.endOfPicture, f)
  else if val = 2 then (.displace (fpGetc f).1.toNat, (fpGetc (fpGetc f).2).2)
  else (.absolute val.toNat, passData val.toNat f)

/-- A number of bytes is read. -/
def passBytes : Nat → RWops → RWops
  | 0, f => f
  | count + 1, f => passBytes count (fpGetc f).2

/-- A number of words is read. -/
def passWords (short : ShortRead) : Nat → RWops → RWops
  | 0, f => f
  | count + 1, f => passWords short count (fpIgetw short f).2

/-- Absolute data of eight bits a pixel fills words. -/
def passData8 (count : Nat) (f : RWops) : RWops :=
  let f := passBytes count f
  if count % 2 = 1 then (fpGetc f).2 else f

/-- Absolute data of four bits a pixel fills words. -/
def passData4 (short : ShortRead) (count : Nat) (f : RWops) : RWops :=
  passWords short ((count + 3) / 4) f

/-- The five kinds of commands are told apart by their two bytes. -/
theorem command_cases (count val : UInt8) :
    0 < count ∨ ¬0 < count ∧ val = 0 ∨ ¬0 < count ∧ ¬val = 0 ∧ val = 1 ∨
      ¬0 < count ∧ ¬val = 0 ∧ ¬val = 1 ∧ val = 2 ∨
      ¬0 < count ∧ ¬val = 0 ∧ ¬val = 1 ∧ ¬val = 2 := by
  tauto

/-! ## The decoders -/

/-- Writing the next index extends a range of written indices. -/
theorem range_extend {old : Prop} {index pos count : Nat} :
    (index = pos ∨ old) ∨ pos + 1 ≤ index ∧ index < pos + 1 + count ↔
      old ∨ pos ≤ index ∧ index < pos + (count + 1) := by
  have split : index = pos ∨ pos + 1 ≤ index ∧ index < pos + 1 + count ↔
      pos ≤ index ∧ index < pos + (count + 1) := by omega
  rw [← split, or_assoc, or_left_comm]

/-- A run writes its pixels. -/
theorem rle8Run_spec (val : UInt8) (count : Nat) (s : RleState) :
    (rle8Run val count s).f = s.f ∧ (rle8Run val count s).pos = s.pos + count ∧
      (rle8Run val count s).flag = s.flag ∧
      ∀ index, index ∈ (rle8Run val count s).bits.written ↔
        index ∈ s.bits.written ∨ s.pos ≤ index ∧ index < s.pos + count := by
  induction count generalizing s with
  | zero => exact ⟨rfl, rfl, rfl, fun index => by simp [rle8Run]⟩
  | succ count ih =>
    obtain ⟨f, pos, flag, written⟩ :=
      ih { s with bits := s.bits.set s.pos val, pos := s.pos + 1 }
    refine ⟨f, ?_, flag, fun index => ?_⟩
    · rw [rle8Run, pos]
      exact Nat.add_right_comm s.pos 1 count
    · rw [rle8Run, written, Buffer.set_written, List.mem_cons]
      exact range_extend

/-- Absolute data is passed over and its pixels are written. -/
theorem rle8Absolute_spec (count : Nat) (s : RleState) :
    (rle8Absolute count s).f = passBytes count s.f ∧
      (rle8Absolute count s).pos = s.pos + count ∧ (rle8Absolute count s).flag = s.flag ∧
      ∀ index, index ∈ (rle8Absolute count s).bits.written ↔
        index ∈ s.bits.written ∨ s.pos ≤ index ∧ index < s.pos + count := by
  induction count generalizing s with
  | zero => exact ⟨rfl, rfl, rfl, fun index => by simp [rle8Absolute]⟩
  | succ count ih =>
    obtain ⟨f, pos, flag, written⟩ := ih { s with
      f := (fpGetc s.f).2, bits := s.bits.set s.pos (fpGetc s.f).1, pos := s.pos + 1 }
    refine ⟨f, ?_, flag, fun index => ?_⟩
    · rw [rle8Absolute, pos]
      exact Nat.add_right_comm s.pos 1 count
    · rw [rle8Absolute, written, Buffer.set_written, List.mem_cons]
      exact range_extend

/-- The pixels that the decoder of eight bits a pixel writes for a command. -/
def extent8 (_start : Nat) : RleCommand → Nat
  | .run count => count
  | .absolute count => count
  | _ => 0

/-- What the body of `read_RLE8_compressed_image` makes of a command. -/
theorem rle8Body_spec (s : RleState) :
    (rle8Body s).f = (parseCommand passData8 s.f).2 ∧
      (rle8Body s).pos = s.pos + (parseCommand passData8 s.f).1.advance ∧
      (s.flag = .bmpErr →
        ((rle8Body s).flag = .bmpErr ↔ (parseCommand passData8 s.f).1.isEnd = false)) ∧
      ∀ index, index ∈ (rle8Body s).bits.written ↔ index ∈ s.bits.written ∨
        s.pos ≤ index ∧ index < s.pos + extent8 s.pos (parseCommand passData8 s.f).1 := by
  have idle : ∀ index, index ∈ s.bits.written ↔
      index ∈ s.bits.written ∨ s.pos ≤ index ∧ index < s.pos + 0 := by
    intro index
    simp
  rcases command_cases (fpGetc s.f).1 (fpGetc (fpGetc s.f).2).1 with run | ⟨run, line⟩ |
    ⟨run, line, picture⟩ | ⟨run, line, picture, displace⟩ | ⟨run, line, picture, displace⟩
  · simp only [rle8Body, parseCommand, if_pos run]
    obtain ⟨f, pos, flag, written⟩ := rle8Run_spec (fpGetc (fpGetc s.f).2).1
      (fpGetc s.f).1.toNat { s with f := (fpGetc (fpGetc s.f).2).2 }
    exact ⟨f, pos, fun going => iff_of_true (flag.trans going) rfl, written⟩
  · simp only [rle8Body, parseCommand, if_neg run, if_pos line]
    exact ⟨trivial, rfl, fun _ => by simp [RleCommand.isEnd], idle⟩
  · simp only [rle8Body, parseCommand, if_neg run, if_neg line, if_pos picture]
    exact ⟨trivial, rfl, fun _ => by simp [RleCommand.isEnd], idle⟩
  · simp only [rle8Body, parseCommand, if_neg run, if_neg line, if_neg picture, if_pos displace]
    exact ⟨trivial, rfl, fun going => iff_of_true going rfl, idle⟩
  · simp only [rle8Body, parseCommand, if_neg run, if_neg line, if_neg picture, if_neg displace]
    obtain ⟨f, pos, flag, written⟩ := rle8Absolute_spec (fpGetc (fpGetc s.f).2).1.toNat
      { s with f := (fpGetc (fpGetc s.f).2).2 }
    rw [passData8]
    split
    · exact ⟨by rw [f], pos, fun going => iff_of_true (flag.trans going) rfl, written⟩
    · exact ⟨f, pos, fun going => iff_of_true (flag.trans going) rfl, written⟩

/-- Passing bytes leaves no more than there were. -/
theorem passBytes_rest_le (count : Nat) (f : RWops) :
    (passBytes count f).rest.length ≤ f.rest.length := by
  induction count generalizing f with
  | zero => exact le_rfl
  | succ count ih => exact (ih _).trans (fpGetc_rest_le f)

/-- Passing words leaves no more than there were. -/
theorem passWords_rest_le (short : ShortRead) (count : Nat) (f : RWops) :
    (passWords short count f).rest.length ≤ f.rest.length := by
  induction count generalizing f with
  | zero => exact le_rfl
  | succ count ih => exact (ih _).trans (fpIgetw_rest_le short f)

/-- Passing data of eight bits a pixel leaves no more than there was. -/
theorem passData8_rest_le (count : Nat) (f : RWops) :
    (passData8 count f).rest.length ≤ f.rest.length := by
  rw [passData8]
  split
  · exact (fpGetc_rest_le _).trans (passBytes_rest_le count f)
  · exact passBytes_rest_le count f

/-- A command takes bytes from the stream, or moves the position at the end of the data. -/
theorem parseCommand_progress {passData : Nat → RWops → RWops}
    (shrinks : ∀ count f, (passData count f).rest.length ≤ f.rest.length) (f : RWops) :
    (parseCommand passData f).2.rest.length ≤ f.rest.length ∧
      ((parseCommand passData f).2.rest.length < f.rest.length ∨
        0 < (parseCommand passData f).1.advance) := by
  by_cases present : f.rest = []
  · have read := fpGetc_end present
    have command : parseCommand passData f = (.run 255, f) := by
      simp [parseCommand, read]
    rw [command]
    exact ⟨le_rfl, .inr (Nat.succ_pos 254)⟩
  · have first := fpGetc_rest_lt present
    have second := fpGetc_rest_le (fpGetc f).2
    have shorter : (parseCommand passData f).2.rest.length < f.rest.length := by
      simp only [parseCommand]
      split_ifs
      · exact second.trans_lt first
      · exact second.trans_lt first
      · exact second.trans_lt first
      · exact (fpGetc_rest_le _).trans_lt ((fpGetc_rest_le _).trans_lt (second.trans_lt first))
      · exact (shrinks _ _).trans_lt (second.trans_lt first)
    exact ⟨shorter.le, .inl shorter⟩

/-- `read_RLE8_compressed_image`, whose body never returns from the function. -/
def rle8Decoder : RleDecoder where
  body := fun s => (rle8Body s, false)
  progress := by
    intro s _
    have moved := parseCommand_progress passData8_rest_le s.f
    obtain ⟨f, pos, -, -⟩ := rle8Body_spec s
    rw [f, pos]
    omega

/-- `read_RLE8_compressed_image`. -/
def readRLE8CompressedImage (f : RWops) (bits : Buffer UInt8) (width : Nat) : RleState :=
  rleLoop rle8Decoder width ⟨f, bits, 0, .bmpErr⟩

/-- One pixel of four bits writes the byte that it is in. -/
@[simp] theorem putNibble_written (bits : Buffer UInt8) (pos : Nat) (even odd : UInt8) :
    (putNibble bits pos even odd).written = pos / 2 :: bits.written := by
  rw [putNibble]
  split <;> rfl

/-- Writing the next pixel extends a range of written pixels. -/
theorem pixels_extend {old : Prop} {index pos count : Nat} :
    ((index = pos / 2 ∨ old) ∨ ∃ pixel, pos + 1 ≤ pixel ∧ pixel < pos + 1 + count ∧
        index = pixel / 2) ↔
      old ∨ ∃ pixel, pos ≤ pixel ∧ pixel < pos + (count + 1) ∧ index = pixel / 2 := by
  constructor
  · rintro ((rfl | earlier) | ⟨pixel, low, high, rfl⟩)
    · exact .inr ⟨pos, le_rfl, by omega, rfl⟩
    · exact .inl earlier
    · exact .inr ⟨pixel, by omega, by omega, rfl⟩
  · rintro (earlier | ⟨pixel, low, high, rfl⟩)
    · exact .inl (.inr earlier)
    · rcases Nat.eq_or_lt_of_le low with rfl | later
      · exact .inl (.inl rfl)
      · exact .inr ⟨pixel, later, by omega, rfl⟩

/-- A run writes its pixels up to the one behind the row, and returns there. -/
theorem rle4Run_spec (width : Nat) (b0 b1 : UInt8) (count : Nat) (s : RleState)
    (inside : s.pos ≤ width) :
    (∀ index, index ∈ (rle4Run width b0 b1 count s).1.bits.written ↔
      index ∈ s.bits.written ∨ ∃ pixel, s.pos ≤ pixel ∧
        pixel < s.pos + min count (width + 1 - s.pos) ∧ index = pixel / 2) ∧
    ((rle4Run width b0 b1 count s).2 = true → width < s.pos + count) := by
  induction count generalizing s with
  | zero =>
    refine ⟨fun index => ?_, fun returned => by cases returned⟩
    have none : ¬∃ pixel, s.pos ≤ pixel ∧ pixel < s.pos + min 0 (width + 1 - s.pos) ∧
        index = pixel / 2 := by
      rintro ⟨pixel, low, high, -⟩
      omega
    simp only [rle4Run, none, or_false]
  | succ count ih =>
    by_cases last : width ≤ s.pos
    · have one : min (count + 1) (width + 1 - s.pos) = 0 + 1 := by omega
      simp only [rle4Run, if_pos last, putNibble_written, List.mem_cons, one]
      refine ⟨fun index => ?_, fun _ => by omega⟩
      rw [← pixels_extend]
      have none : ¬∃ pixel, s.pos + 1 ≤ pixel ∧ pixel < s.pos + 1 + 0 ∧ index = pixel / 2 := by
        rintro ⟨pixel, low, high, -⟩
        omega
      simp only [none, or_false]
    · have more : min (count + 1) (width + 1 - s.pos) =
          min count (width + 1 - (s.pos + 1)) + 1 := by omega
      obtain ⟨written, returned⟩ := ih
        { s with bits := putNibble s.bits s.pos b0 b1, pos := s.pos + 1 } (by
          change s.pos + 1 ≤ width
          omega)
      simp only [rle4Run, if_neg last, more]
      refine ⟨fun index => ?_, fun early => ?_⟩
      · rw [written, putNibble_written, List.mem_cons]
        exact pixels_extend
      · have full := returned early
        change width < s.pos + 1 + count at full
        omega

/-- A run that does not return leaves the stream and moves on. -/
theorem rle4Run_stays (width : Nat) (b0 b1 : UInt8) (count : Nat) (s : RleState)
    (stays : (rle4Run width b0 b1 count s).2 = false) :
    (rle4Run width b0 b1 count s).1.f = s.f ∧
      (rle4Run width b0 b1 count s).1.pos = s.pos + count ∧
      (rle4Run width b0 b1 count s).1.flag = s.flag := by
  induction count generalizing s with
  | zero => exact ⟨rfl, rfl, rfl⟩
  | succ count ih =>
    by_cases last : width ≤ s.pos
    · simp only [rle4Run, if_pos last] at stays
      cases stays
    · simp only [rle4Run, if_neg last] at stays ⊢
      obtain ⟨f, pos, flag⟩ := ih _ stays
      exact ⟨f, pos.trans (Nat.add_right_comm s.pos 1 count), flag⟩

/-- Absolute data is passed over in words and its pixels are written. -/
theorem rle4Absolute_spec (short : ShortRead) (count j : Nat) (val0 : UInt16) (s : RleState) :
    (rle4Absolute short count j val0 s).f =
        passWords short ((j + count + 3) / 4 - (j + 3) / 4) s.f ∧
      (rle4Absolute short count j val0 s).pos = s.pos + count ∧
      (rle4Absolute short count j val0 s).flag = s.flag ∧
      ∀ index, index ∈ (rle4Absolute short count j val0 s).bits.written ↔
        index ∈ s.bits.written ∨ ∃ pixel, s.pos ≤ pixel ∧ pixel < s.pos + count ∧
          index = pixel / 2 := by
  induction count generalizing j val0 s with
  | zero =>
    have words : (j + 0 + 3) / 4 - (j + 3) / 4 = 0 := by omega
    refine ⟨by rw [words]; rfl, rfl, rfl, fun index => ?_⟩
    have none : ¬∃ pixel, s.pos ≤ pixel ∧ pixel < s.pos + 0 ∧ index = pixel / 2 := by
      rintro ⟨pixel, low, high, -⟩
      omega
    simp only [rle4Absolute, none, or_false]
  | succ count ih =>
    by_cases aligned : j % 4 = 0
    · have words : (j + (count + 1) + 3) / 4 - (j + 3) / 4 =
          (j + 1 + count + 3) / 4 - (j + 1 + 3) / 4 + 1 := by omega
      simp only [rle4Absolute, if_pos aligned, words, passWords]
      obtain ⟨f, pos, flag, written⟩ := ih (j + 1) (fpIgetw short s.f).1
        { s with
          f := (fpIgetw short s.f).2
          bits := putNibble s.bits s.pos (wordNibbles (fpIgetw short s.f).1 (j % 4))
            (wordNibbles (fpIgetw short s.f).1 (j % 4))
          pos := s.pos + 1 }
      refine ⟨f, pos.trans (Nat.add_right_comm s.pos 1 count), flag, fun index => ?_⟩
      rw [written, putNibble_written, List.mem_cons]
      exact pixels_extend
    · have words : (j + (count + 1) + 3) / 4 - (j + 3) / 4 =
          (j + 1 + count + 3) / 4 - (j + 1 + 3) / 4 := by omega
      simp only [rle4Absolute, if_neg aligned, words]
      obtain ⟨f, pos, flag, written⟩ := ih (j + 1) val0
        { s with
          bits := putNibble s.bits s.pos (wordNibbles val0 (j % 4)) (wordNibbles val0 (j % 4))
          pos := s.pos + 1 }
      refine ⟨f, pos.trans (Nat.add_right_comm s.pos 1 count), flag, fun index => ?_⟩
      rw [written, putNibble_written, List.mem_cons]
      exact pixels_extend

/-- The pixels that the decoder of four bits a pixel writes for a command. -/
def extent4 (width start : Nat) : RleCommand → Nat
  | .run count => min count (width + 1 - start)
  | .absolute count => count
  | _ => 0

/-- What the body of `read_RLE4_compressed_image` makes of a command: when it does not return it
goes on behind the command, and when the position is not behind the row it writes the pixels of
the command and returns only from a full row. -/
theorem rle4Body_spec (short : ShortRead) (width : Nat) (s : RleState) :
    ((rle4Body short width s).2 = false →
      (rle4Body short width s).1.f = (parseCommand (passData4 short) s.f).2 ∧
      (rle4Body short width s).1.pos =
        s.pos + (parseCommand (passData4 short) s.f).1.advance ∧
      (s.flag = .bmpErr → ((rle4Body short width s).1.flag = .bmpErr ↔
        (parseCommand (passData4 short) s.f).1.isEnd = false))) ∧
    (s.pos ≤ width →
      (∀ index, index ∈ (rle4Body short width s).1.bits.written ↔
        index ∈ s.bits.written ∨ ∃ pixel, s.pos ≤ pixel ∧
          pixel < s.pos + extent4 width s.pos (parseCommand (passData4 short) s.f).1 ∧
          index = pixel / 2) ∧
      ((rle4Body short width s).2 = true →
        width < s.pos + (parseCommand (passData4 short) s.f).1.advance)) := by
  have idle : ∀ index, index ∈ s.bits.written ↔ index ∈ s.bits.written ∨
      ∃ pixel, s.pos ≤ pixel ∧ pixel < s.pos + 0 ∧ index = pixel / 2 := by
    intro index
    have none : ¬∃ pixel, s.pos ≤ pixel ∧ pixel < s.pos + 0 ∧ index = pixel / 2 := by
      rintro ⟨pixel, low, high, -⟩
      omega
    simp only [none, or_false]
  rcases command_cases (fpGetc s.f).1 (fpGetc (fpGetc s.f).2).1 with run | ⟨run, line⟩ |
    ⟨run, line, picture⟩ | ⟨run, line, picture, displace⟩ | ⟨run, line, picture, displace⟩
  · simp only [rle4Body, parseCommand, if_pos run]
    refine ⟨fun stays => ?_, fun inside => rle4Run_spec width _ _ _
      { s with f := (fpGetc (fpGetc s.f).2).2 } inside⟩
    obtain ⟨f, pos, flag⟩ := rle4Run_stays width _ _ _ _ stays
    exact ⟨f, pos, fun going => iff_of_true (flag.trans going) rfl⟩
  · simp only [rle4Body, parseCommand, if_neg run, if_pos line]
    exact ⟨fun _ => ⟨trivial, rfl, fun _ => by simp [RleCommand.isEnd]⟩,
      fun _ => ⟨idle, fun returned => by cases returned⟩⟩
  · simp only [rle4Body, parseCommand, if_neg run, if_neg line, if_pos picture]
    exact ⟨fun _ => ⟨trivial, rfl, fun _ => by simp [RleCommand.isEnd]⟩,
      fun _ => ⟨idle, fun returned => by cases returned⟩⟩
  · simp only [rle4Body, parseCommand, if_neg run, if_neg line, if_neg picture, if_pos displace]
    exact ⟨fun _ => ⟨trivial, rfl, fun going => iff_of_true going rfl⟩,
      fun _ => ⟨idle, fun returned => by cases returned⟩⟩
  · simp only [rle4Body, parseCommand, if_neg run, if_neg line, if_neg picture, if_neg displace]
    obtain ⟨f, pos, flag, written⟩ := rle4Absolute_spec short (fpGetc (fpGetc s.f).2).1.toNat 0 0
      { s with f := (fpGetc (fpGetc s.f).2).2 }
    refine ⟨fun _ => ⟨?_, pos, fun going => iff_of_true (flag.trans going) rfl⟩,
      fun _ => ⟨written, fun returned => by cases returned⟩⟩
    rw [f, passData4, Nat.zero_add]
    rfl

/-- Passing data of four bits a pixel leaves no more than there was. -/
theorem passData4_rest_le (short : ShortRead) (count : Nat) (f : RWops) :
    (passData4 short count f).rest.length ≤ f.rest.length :=
  passWords_rest_le short ((count + 3) / 4) f

/-- `read_RLE4_compressed_image`, whose body returns from the function inside a run. -/
def rle4Decoder (short : ShortRead) (width : Nat) : RleDecoder where
  body := rle4Body short width
  progress := by
    intro s stays
    have moved := parseCommand_progress (passData4_rest_le short) s.f
    obtain ⟨f, pos, -⟩ := (rle4Body_spec short width s).1 stays
    rw [f, pos]
    omega

/-- `read_RLE4_compressed_image`. -/
def readRLE4CompressedImage (short : ShortRead) (f : RWops) (bits : Buffer UInt8) (width : Nat) :
    RleState :=
  rleLoop (rle4Decoder short width) width ⟨f, bits, 0, .bmpErr⟩

/-! ## Rows -/

/-- The smallest multiple of four that holds a number of bytes. -/
def rowPitch (bytes : Nat) : Nat := (bytes + 3) / 4 * 4

/-- The pitch holds the bytes, and no smaller multiple of four does. -/
theorem rowPitch_spec (bytes : Nat) :
    4 ∣ rowPitch bytes ∧ bytes ≤ rowPitch bytes ∧
      ∀ other, 4 ∣ other → bytes ≤ other → rowPitch bytes ≤ other := by
  rw [rowPitch]
  refine ⟨Nat.dvd_mul_left 4 _, by omega, fun other divides holds => ?_⟩
  omega

end Bpcp.MiniGUI
