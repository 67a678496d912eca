import Bpcp.Lib.Nibble
import Bpcp.MiniGUI.Rle

/-!
# Decoding well-formed rows

A well-formed row is a sequence of runs and of absolute data, and a marker behind them. The
decoder of eight bits a pixel gives back the row. The one of four bits a pixel chooses
between the two pixels of a run by where the pixel is in the row and not by where it is in
the run, so a run of two different pixels that starts at an odd pixel comes out the wrong
way round.
-/

namespace Bpcp.MiniGUI

open Bpcp.Lib

/-! ## Sequences of commands -/

/-- How a decoder reads one kind of command in front of any bytes, and an end marker. -/
structure Reads {Op : Type} (decoder : RleDecoder) (width : Nat) (encode : Op → List UInt8)
    (size : Op → Nat) (paint : Op → Nat → Buffer UInt8 → Buffer UInt8) : Prop where
  /-- A command that ends inside the row. -/
  command : ∀ op here rest bits pos, pos + size op ≤ width →
    decoder.body ⟨⟨here, encode op ++ rest⟩, bits, pos, .bmpErr⟩ =
      (⟨⟨here + (encode op).length, rest⟩, paint op pos bits, pos + size op, .bmpErr⟩, false)
  /-- The end of a line. -/
  line : ∀ here rest bits pos, decoder.body ⟨⟨here, 0 :: 0 :: rest⟩, bits, pos, .bmpErr⟩ =
    (⟨⟨here + 2, rest⟩, bits, pos, .bmpLine⟩, false)
  /-- The end of the picture. -/
  picture : ∀ here rest bits pos, decoder.body ⟨⟨here, 0 :: 1 :: rest⟩, bits, pos, .bmpErr⟩ =
    (⟨⟨here + 2, rest⟩, bits, pos, .bmpEnd⟩, false)

section Sequences

variable {Op : Type} {decoder : RleDecoder} {width : Nat} {encode : Op → List UInt8}
  {size : Op → Nat} {paint : Op → Nat → Buffer UInt8 → Buffer UInt8}

/-- The number of pixels of a sequence of commands. -/
def totalSize (size : Op → Nat) (ops : List Op) : Nat := (ops.map size).sum

/-- The commands are painted one after the other. -/
def paintAll (size : Op → Nat) (paint : Op → Nat → Buffer UInt8 → Buffer UInt8) :
    List Op → Nat → Buffer UInt8 → Buffer UInt8
  | [], _, bits => bits
  | op :: rest, pos, bits => paintAll size paint rest (pos + size op) (paint op pos bits)

/-- The bytes of a marker: the end of the picture or of a line. -/
def markerBytes (last : Bool) : List UInt8 := [0, if last then 1 else 0]

/-- The flag of a marker. -/
def markerFlag (last : Bool) : BmpFlag := if last then .bmpEnd else .bmpLine

/-- A sequence of commands that fills a row is read up to its marker and painted. -/
theorem Reads.sequence (reads : Reads decoder width encode size paint) (ops : List Op)
    (last : Bool) (suffix : List UInt8) (here pos : Nat) (bits : Buffer UInt8)
    (fits : pos + totalSize size ops ≤ width) :
    rleLoop decoder width
        ⟨⟨here, ops.flatMap encode ++ (markerBytes last ++ suffix)⟩, bits, pos, .bmpErr⟩ =
      ⟨⟨here + (ops.flatMap encode).length + 2, suffix⟩, paintAll size paint ops pos bits,
        pos + totalSize size ops, markerFlag last⟩ := by
  induction ops generalizing here pos bits with
  | nil =>
    have running : pos ≤ width ∧ BmpFlag.bmpErr = .bmpErr := ⟨by omega, rfl⟩
    cases last with
    | false =>
      have marker := reads.line here suffix bits pos
      rw [rleLoop, if_pos running]
      simp only [List.flatMap_nil, List.nil_append, markerBytes, List.cons_append, marker,
        Bool.false_eq_true, if_false]
      rw [rleLoop, if_neg (by simp)]
      simp [paintAll, totalSize, markerFlag]
    | true =>
      have marker := reads.picture here suffix bits pos
      rw [rleLoop, if_pos running]
      simp only [List.flatMap_nil, List.nil_append, markerBytes, List.cons_append, marker,
        Bool.false_eq_true, if_false, if_true]
      rw [rleLoop, if_neg (by simp)]
      simp [paintAll, totalSize, markerFlag]
  | cons op rest ih =>
    have total : totalSize size (op :: rest) = size op + totalSize size rest := by
      simp [totalSize]
    rw [total] at fits ⊢
    have running : pos ≤ width ∧ BmpFlag.bmpErr = .bmpErr := ⟨by omega, rfl⟩
    have command := reads.command op here (rest.flatMap encode ++ (markerBytes last ++ suffix))
      bits pos (by omega)
    rw [rleLoop, if_pos running, List.flatMap_cons, List.append_assoc, command,
      if_neg (by simp), ih _ _ _ (by omega), paintAll, List.length_append]
    simp only [Nat.add_assoc]

end Sequences

/-! ## Eight bits a pixel -/

/-- A command of a row of eight bits a pixel. -/
inductive Rle8Op where
  /-- A run of one pixel. -/
  | run (count : Nat) (val : UInt8) (bounds : 1 ≤ count ∧ count ≤ 255)
  /-- Pixels one by one, and the byte that pads an odd number of them. -/
  | absolute (bytes : List UInt8) (pad : UInt8) (bounds : 3 ≤ bytes.length ∧ bytes.length ≤ 255)

namespace Rle8Op

/-- The pixels. -/
def pixels : Rle8Op → List UInt8
  | run count val _ => List.replicate count val
  | absolute bytes _ _ => bytes

/-- The bytes in the file. -/
def encode : Rle8Op → List UInt8
  | run count val _ => [UInt8.ofNat count, val]
  | absolute bytes pad _ =>
    0 :: UInt8.ofNat bytes.length :: (bytes ++ if bytes.length % 2 = 1 then [pad] else [])

end Rle8Op

/-- A small number as a byte. -/
theorem toNat_ofNat_byte {count : Nat} (small : count ≤ 255) :
    (UInt8.ofNat count).toNat = count := by
  rw [UInt8.toNat_ofNat', Nat.mod_eq_of_lt (by omega)]

/-- A positive number is positive as a byte. -/
theorem ofNat_byte_pos {count : Nat} (bounds : 0 < count ∧ count ≤ 255) :
    0 < UInt8.ofNat count := by
  rw [UInt8.lt_iff_toNat_lt, toNat_ofNat_byte bounds.2]
  exact bounds.1

/-- A run stores equal pixels. -/
theorem rle8Run_eq (val : UInt8) (count : Nat) (s : RleState) :
    rle8Run val count s =
      { s with bits := s.bits.store s.pos (List.replicate count val), pos := s.pos + count } := by
  induction count generalizing s with
  | zero => rfl
  | succ count ih =>
    rw [rle8Run, ih, List.replicate_succ, Buffer.store]
    simp only [Nat.add_assoc, Nat.add_comm 1 count]

/-- Absolute data that is there is stored. -/
theorem rle8Absolute_eq (bytes rest : List UInt8) (here pos : Nat) (bits : Buffer UInt8)
    (flag : BmpFlag) :
    rle8Absolute bytes.length ⟨⟨here, bytes ++ rest⟩, bits, pos, flag⟩ =
      ⟨⟨here + bytes.length, rest⟩, bits.store pos bytes, pos + bytes.length, flag⟩ := by
  induction bytes generalizing here pos bits with
  | nil => rfl
  | cons byte bytes ih =>
    have step := ih (here + 1) (pos + 1) (bits.set pos byte)
    simp only [List.length_cons, rle8Absolute, List.cons_append, fpGetc_cons, step, Buffer.store]
    simp only [Nat.add_assoc, Nat.add_comm 1]

/-- The decoder of eight bits a pixel reads its commands and stores their pixels. -/
theorem rle8_reads (width : Nat) :
    Reads rle8Decoder width Rle8Op.encode (fun op => op.pixels.length)
      (fun op pos bits => bits.store pos op.pixels) where
  command := by
    intro op here rest bits pos _
    cases op with
    | run count val bounds =>
      have read := toNat_ofNat_byte bounds.2
      have positive := ofNat_byte_pos bounds
      simp [rle8Decoder, rle8Body, Rle8Op.encode, Rle8Op.pixels, positive, read, rle8Run_eq]
    | absolute bytes pad bounds =>
      have read := toNat_ofNat_byte bounds.2
      have notSmall : ∀ small : UInt8, small.toNat ≤ 2 → ¬UInt8.ofNat bytes.length = small := by
        intro small low same
        rw [← same, read] at low
        omega
      have zero := notSmall 0 (by decide)
      have one := notSmall 1 (by decide)
      have two := notSmall 2 (by decide)
      by_cases odd : bytes.length % 2 = 1
      · have data := rle8Absolute_eq bytes (pad :: rest) (here + 1 + 1) pos bits .bmpErr
        simp [rle8Decoder, rle8Body, Rle8Op.encode, Rle8Op.pixels, zero, one, two, read, odd, data]
        omega
      · have data := rle8Absolute_eq bytes rest (here + 1 + 1) pos bits .bmpErr
        simp [rle8Decoder, rle8Body, Rle8Op.encode, Rle8Op.pixels, zero, one, two, read, odd, data]
        omega
  line := by
    intro here rest bits pos
    simp [rle8Decoder, rle8Body]
  picture := by
    intro here rest bits pos
    simp [rle8Decoder, rle8Body]

/-- Painting stores the pixels of all commands. -/
theorem paintAll_store (ops : List Rle8Op) (pos : Nat) (bits : Buffer UInt8) :
    paintAll (fun op : Rle8Op => op.pixels.length) (fun op pos bits => bits.store pos op.pixels)
      ops pos bits = bits.store pos (ops.flatMap Rle8Op.pixels) := by
  induction ops generalizing pos bits with
  | nil => rfl
  | cons op rest ih => rw [paintAll, ih, List.flatMap_cons, Buffer.store_append]

/-- A well-formed row of eight bits a pixel is decoded: exactly its pixels are written to the
start of the buffer, exactly its bytes are consumed, and its marker is returned. -/
theorem readRLE8CompressedImage_decodes (ops : List Rle8Op) (last : Bool) (suffix : List UInt8)
    (here : Nat) (row : Nat → UInt8) :
    let pixels := ops.flatMap Rle8Op.pixels
    let bytes := ops.flatMap Rle8Op.encode ++ markerBytes last
    let s := readRLE8CompressedImage ⟨here, bytes ++ suffix⟩ ⟨row, []⟩ pixels.length
    s.flag = markerFlag last ∧ s.f = ⟨here + bytes.length, suffix⟩ ∧
      (∀ index (inside : index < pixels.length), s.bits.read index = pixels[index]) ∧
      (∀ index, pixels.length ≤ index → s.bits.read index = row index) ∧
      ∀ index, index ∈ s.bits.written ↔ index < pixels.length := by
  intro pixels bytes s
  have total : totalSize (fun op : Rle8Op => op.pixels.length) ops = pixels.length := by
    simp [totalSize, pixels, List.length_flatMap]
  have decoded : s = ⟨⟨here + (ops.flatMap Rle8Op.encode).length + 2, suffix⟩,
      Buffer.store ⟨row, []⟩ 0 pixels, 0 + pixels.length, markerFlag last⟩ := by
    have sequence := (rle8_reads pixels.length).sequence ops last suffix here 0 ⟨row, []⟩
      (by rw [total]; omega)
    rw [paintAll_store, total] at sequence
    rw [← sequence, ← List.append_assoc]
    rfl
  have consumed : here + (ops.flatMap Rle8Op.encode).length + 2 = here + bytes.length := by
    simp [bytes, markerBytes]
    omega
  rw [decoded, consumed]
  refine ⟨rfl, rfl, fun index inside => ?_, fun index outside => ?_, fun index => ?_⟩
  · have stored : (Buffer.store ⟨row, []⟩ 0 pixels).read (0 + index) = pixels[index] :=
      Buffer.store_read_inside inside
    rwa [Nat.zero_add] at stored
  · exact Buffer.store_read_outside (by omega)
  · change index ∈ (Buffer.store ⟨row, []⟩ 0 pixels).written ↔ _
    rw [Buffer.mem_store_written]
    simp

/-! ## Four bits a pixel -/

/-- The pixel at an index of packed pixels: the high half of a byte comes first. -/
def nibbleAt (byte : UInt8) (index : Nat) : UInt8 :=
  if index % 2 = 0 then byte >>> 4 else byte &&& 15

/-- A command of a row of four bits a pixel. -/
inductive Rle4Op where
  /-- A run of two alternating pixels. -/
  | run (count : Nat) (val : UInt8) (bounds : 1 ≤ count ∧ count ≤ 255)
  /-- Packed pixels, with what pads them to words of two bytes. -/
  | absolute (count : Nat) (data : List UInt8) (bounds : 3 ≤ count ∧ count ≤ 255)
      (padded : data.length = 2 * ((count + 3) / 4))

namespace Rle4Op

/-- The number of pixels. -/
def count : Rle4Op → Nat
  | run count _ _ => count
  | absolute count _ _ _ => count

/-- A pixel by its index in the command. -/
def pixel : Rle4Op → Nat → UInt8
  | run _ val _, index => nibbleAt val index
  | absolute _ data _ _, index => nibbleAt (data.getD (index / 2) 0) index

/-- The pixels. -/
def pixels (op : Rle4Op) : List UInt8 := (List.range op.count).map op.pixel

/-- The pixels that the decoder draws from a position on: those of a run are chosen by their
positions in the row. -/
def drawn (start : Nat) : Rle4Op → List UInt8
  | run count val _ => (List.range' start count).map (nibbleAt val)
  | op => op.pixels

/-- The bytes in the file. -/
def encode : Rle4Op → List UInt8
  | run count val _ => [UInt8.ofNat count, val]
  | absolute count data _ _ => 0 :: UInt8.ofNat count :: data

/-- A run that starts at an odd pixel has two equal pixels. -/
def Aligned (start : Nat) : Rle4Op → Prop
  | run _ val _ => start % 2 = 1 → val >>> 4 = val &&& 15
  | _ => True

end Rle4Op

/-- Pixels are put into a row one after the other. -/
def putNibbles : Buffer UInt8 → Nat → List UInt8 → Buffer UInt8
  | bits, _, [] => bits
  | bits, pos, pixel :: rest => putNibbles (putNibble bits pos pixel pixel) (pos + 1) rest

/-- Only one of the two pixels is put. -/
theorem putNibble_nibbleAt (bits : Buffer UInt8) (pos : Nat) (val : UInt8) :
    putNibble bits pos (val >>> 4 &&& 15) (val &&& 15) =
      putNibble bits pos (nibbleAt val pos) (nibbleAt val pos) := by
  have small : (val >>> 4) &&& (15 : UInt8) = val >>> 4 :=
    Nibble.low_of_small (Nibble.high_small val)
  by_cases even : pos % 2 = 0
  · simp only [putNibble, nibbleAt, if_pos even, small]
  · simp only [putNibble, nibbleAt, if_neg even]

/-- A run that ends inside the row puts its pixels. -/
theorem rle4Run_eq (width : Nat) (val : UInt8) (count : Nat) (s : RleState)
    (fits : s.pos + count ≤ width) :
    rle4Run width (val >>> 4 &&& 15) (val &&& 15) count s =
      ({ s with
          bits := putNibbles s.bits s.pos ((List.range' s.pos count).map (nibbleAt val))
          pos := s.pos + count }, false) := by
  induction count generalizing s with
  | zero => rfl
  | succ count ih =>
    have inside : ¬width ≤ s.pos := by omega
    have moved : s.pos + 1 + count ≤ width := by omega
    rw [rle4Run, putNibble_nibbleAt]
    simp only [if_neg inside]
    rw [ih _ moved, List.range'_succ, List.map_cons, putNibbles]
    simp only [Nat.add_assoc, Nat.add_comm 1 count]

/-- The entries of `b` after a word was read are its four pixels in the order of the file. -/
theorem wordNibbles_word (low high : UInt8) {k : Nat} (small : k < 4) :
    wordNibbles (UInt16.ofNat (ofLeBytes [low, high])) k =
      nibbleAt (if k < 2 then low else high) k := by
  have lowBound := low.toNat_lt
  have highBound := high.toNat_lt
  have word : (UInt16.ofNat (ofLeBytes [low, high])).toNat = low.toNat + 256 * high.toNat := by
    rw [UInt16.toNat_ofNat', ofLeBytes, ofLeBytes, ofLeBytes]
    omega
  have four : (4 : UInt16).toNat = 4 := rfl
  have eight : (8 : UInt16).toNat = 8 := rfl
  have twelve : (12 : UInt16).toNat = 12 := rfl
  apply UInt8.toNat_inj.1
  obtain first | second | third | fourth : k = 0 ∨ k = 1 ∨ k = 2 ∨ k = 3 := by omega
  · subst first
    change _ = (low >>> (4 : UInt8)).toNat
    rw [wordNibbles, Nibble.toNat_word _ (by decide), word, four, Nibble.toNat_high]
    omega
  · subst second
    change _ = (low &&& (15 : UInt8)).toNat
    rw [wordNibbles, Nibble.toNat_word_low, word, Nibble.toNat_low]
    omega
  · subst third
    change _ = (high >>> (4 : UInt8)).toNat
    rw [wordNibbles, Nibble.toNat_word _ (by decide), word, twelve, Nibble.toNat_high]
    omega
  · subst fourth
    change _ = (high &&& (15 : UInt8)).toNat
    rw [wordNibbles, Nibble.toNat_word _ (by decide), word, eight, Nibble.toNat_low]
    · omega
    all_goals simp

/-- The word of absolute data at an index. -/
def dataWord (data : List UInt8) (index : Nat) : UInt16 :=
  UInt16.ofNat (ofLeBytes [data.getD (2 * index) 0, data.getD (2 * index + 1) 0])

/-- The pixels of absolute data are those of its words. -/
theorem wordNibbles_dataWord (data : List UInt8) (j : Nat) :
    wordNibbles (dataWord data (j / 4)) (j % 4) = nibbleAt (data.getD (j / 2) 0) j := by
  have parity : j % 4 % 2 = j % 2 := by omega
  rw [dataWord, wordNibbles_word _ _ (Nat.mod_lt j (by decide)), nibbleAt, nibbleAt, parity]
  by_cases front : j % 4 < 2
  · have half : j / 2 = 2 * (j / 4) := by omega
    rw [if_pos front, half]
  · have half : j / 2 = 2 * (j / 4) + 1 := by omega
    rw [if_neg front, half]

/-- Absolute data that is there puts its pixels. -/
theorem rle4Absolute_eq (short : ShortRead) (data rest : List UInt8) (count j : Nat)
    (val0 : UInt16) (here pos : Nat) (bits : Buffer UInt8) (flag : BmpFlag)
    (current : j % 4 ≠ 0 → val0 = dataWord data (j / 4))
    (enough : 2 * ((j + count + 3) / 4) ≤ data.length) :
    rle4Absolute short count j val0
        ⟨⟨here + 2 * ((j + 3) / 4), data.drop (2 * ((j + 3) / 4)) ++ rest⟩, bits, pos, flag⟩ =
      ⟨⟨here + 2 * ((j + count + 3) / 4), data.drop (2 * ((j + count + 3) / 4)) ++ rest⟩,
        putNibbles bits pos
          ((List.range' j count).map fun index => nibbleAt (data.getD (index / 2) 0) index),
        pos + count, flag⟩ := by
  induction count generalizing j val0 pos bits with
  | zero => rfl
  | succ count ih =>
    have moved : j + 1 + count = j + (count + 1) := by omega
    rw [List.range'_succ, List.map_cons, putNibbles]
    by_cases aligned : j % 4 = 0
    · have index : (j + 3) / 4 = j / 4 := by omega
      have later : (j + 1 + 3) / 4 = j / 4 + 1 := by omega
      have low : 2 * (j / 4) < data.length := by omega
      have high : 2 * (j / 4) + 1 < data.length := by omega
      have split : data.drop (2 * (j / 4)) = data.getD (2 * (j / 4)) 0 ::
          data.getD (2 * (j / 4) + 1) 0 :: data.drop (2 * (j / 4 + 1)) := by
        rw [List.drop_eq_getElem_cons low, List.drop_eq_getElem_cons high,
          List.getD_eq_getElem _ _ low, List.getD_eq_getElem _ _ high]
        rfl
      have next := ih (j + 1) (dataWord data (j / 4)) (pos + 1)
        (putNibble bits pos (nibbleAt (data.getD (j / 2) 0) j)
          (nibbleAt (data.getD (j / 2) 0) j)) (fun _ => by congr 1; omega) (by omega)
      rw [later, moved] at next
      have word : UInt16.ofNat (ofLeBytes [data.getD (2 * (j / 4)) 0,
          data.getD (2 * (j / 4) + 1) 0]) = dataWord data (j / 4) := rfl
      have behind : here + 2 * (j / 4) + 2 = here + 2 * (j / 4 + 1) := by omega
      rw [rle4Absolute, index, split]
      simp only [if_pos aligned, List.cons_append, fpIgetw_cons_cons, word,
        wordNibbles_dataWord, behind, next]
      simp only [Nat.add_assoc, Nat.add_comm 1 count]
    · have index : (j + 1 + 3) / 4 = (j + 3) / 4 := by omega
      have next := ih (j + 1) val0 (pos + 1)
        (putNibble bits pos (nibbleAt (data.getD (j / 2) 0) j)
          (nibbleAt (data.getD (j / 2) 0) j))
        (fun _ => by rw [current aligned]; congr 1; omega) (by omega)
      rw [index, moved] at next
      rw [rle4Absolute]
      simp only [if_neg aligned, current aligned, wordNibbles_dataWord] at next ⊢
      rw [next]
      simp only [Nat.add_assoc, Nat.add_comm 1 count]

/-- Absolute data that fills its words puts its pixels. -/
theorem rle4Absolute_whole (short : ShortRead) {data : List UInt8} {count : Nat}
    (padded : data.length = 2 * ((count + 3) / 4)) (rest : List UInt8) (here pos : Nat)
    (bits : Buffer UInt8) (flag : BmpFlag) :
    rle4Absolute short count 0 0 ⟨⟨here, data ++ rest⟩, bits, pos, flag⟩ =
      ⟨⟨here + data.length, rest⟩,
        putNibbles bits pos
          ((List.range count).map fun index => nibbleAt (data.getD (index / 2) 0) index),
        pos + count, flag⟩ := by
  have start : 2 * ((0 + 3) / 4) = 0 := rfl
  have whole : 2 * ((0 + count + 3) / 4) = data.length := by omega
  have all := rle4Absolute_eq short data rest count 0 0 here pos bits flag
    (fun odd => absurd rfl odd) whole.le
  rwa [start, whole, List.drop_zero, List.drop_length, List.nil_append, Nat.add_zero,
    ← List.range_eq_range'] at all

/-- The decoder of four bits a pixel reads its commands and puts the pixels that it draws. -/
theorem rle4_reads (short : ShortRead) (width : Nat) :
    Reads (rle4Decoder short width) width Rle4Op.encode Rle4Op.count
      (fun op pos bits => putNibbles bits pos (op.drawn pos)) where
  command := by
    intro op here rest bits pos fits
    cases op with
    | run count val bounds =>
      have read := toNat_ofNat_byte bounds.2
      have positive := ofNat_byte_pos bounds
      have drawn := rle4Run_eq width val count ⟨⟨here + 1 + 1, rest⟩, bits, pos, .bmpErr⟩ fits
      simp only [rle4Decoder, rle4Body, Rle4Op.encode, List.cons_append, List.nil_append,
        fpGetc_cons, if_pos positive, read, drawn]
      rfl
    | absolute count data bounds padded =>
      have read := toNat_ofNat_byte bounds.2
      have notSmall : ∀ small : UInt8, small.toNat ≤ 2 → ¬UInt8.ofNat count = small := by
        intro small low same
        rw [← same, read] at low
        omega
      have drawn := rle4Absolute_whole short padded rest (here + 1 + 1) pos bits .bmpErr
      have moved : here + 1 + 1 + data.length =
          here + (Rle4Op.absolute count data bounds padded).encode.length := by
        simp [Rle4Op.encode]
        omega
      rw [moved] at drawn
      simp only [rle4Decoder, rle4Body, Rle4Op.encode, List.cons_append, fpGetc_cons,
        if_neg (notSmall 0 (by decide)), if_neg (notSmall 1 (by decide)),
        if_neg (notSmall 2 (by decide)), read]
      rw [drawn]
      rfl
  line := by
    intro here rest bits pos
    simp [rle4Decoder, rle4Body]
  picture := by
    intro here rest bits pos
    simp [rle4Decoder, rle4Body]

/-- The pixels that the decoder draws for a sequence of commands. -/
def drawnRow : Nat → List Rle4Op → List UInt8
  | _, [] => []
  | pos, op :: rest => op.drawn pos ++ drawnRow (pos + op.count) rest

/-- Pixels are put one list behind the other. -/
theorem putNibbles_append (bits : Buffer UInt8) (pos : Nat) (first second : List UInt8) :
    putNibbles bits pos (first ++ second) =
      putNibbles (putNibbles bits pos first) (pos + first.length) second := by
  induction first generalizing bits pos with
  | nil => rfl
  | cons pixel rest ih =>
    rw [List.cons_append, putNibbles, ih, putNibbles, List.length_cons, Nat.add_right_comm]
    rfl

/-- A command has as many drawn pixels as pixels. -/
theorem drawn_length (op : Rle4Op) (pos : Nat) : (op.drawn pos).length = op.count := by
  cases op <;> simp [Rle4Op.drawn, Rle4Op.pixels, Rle4Op.count]

/-- Painting puts the drawn pixels of all commands. -/
theorem paintAll_putNibbles (ops : List Rle4Op) (pos : Nat) (bits : Buffer UInt8) :
    paintAll Rle4Op.count (fun op pos bits => putNibbles bits pos (op.drawn pos)) ops pos bits =
      putNibbles bits pos (drawnRow pos ops) := by
  induction ops generalizing pos bits with
  | nil => rfl
  | cons op rest ih => rw [paintAll, ih, drawnRow, putNibbles_append, drawn_length]

/-- The pixel at a position of a row. -/
def pixelAt (bits : Buffer UInt8) (pos : Nat) : UInt8 := nibbleAt (bits.read (pos / 2)) pos

/-- Putting a pixel is seen at its position, keeps the pixels before it, and leaves the odd
pixel behind an even one empty. -/
theorem putNibble_spec {bits : Buffer UInt8} {pos : Nat} {pixel : UInt8}
    (small : pixel.toNat < 16) (empty : pos % 2 = 1 → bits.read (pos / 2) &&& (15 : UInt8) = 0) :
    pixelAt (putNibble bits pos pixel pixel) pos = pixel ∧
      (∀ before < pos, pixelAt (putNibble bits pos pixel pixel) before = pixelAt bits before) ∧
      ((pos + 1) % 2 = 1 →
        (putNibble bits pos pixel pixel).read ((pos + 1) / 2) &&& (15 : UInt8) = 0) := by
  by_cases even : pos % 2 = 0
  · have same : (pos + 1) / 2 = pos / 2 := by omega
    simp only [putNibble, if_pos even, pixelAt, nibbleAt, Buffer.set_read_self, same]
    refine ⟨Nibble.high_raise small, fun before earlier => ?_, fun _ => Nibble.low_raise small⟩
    rw [Buffer.set_read_of_ne _ (by omega)]
  · simp only [putNibble, if_neg even, pixelAt, nibbleAt, Buffer.set_read_self]
    refine ⟨Nibble.low_or small (empty (by omega)), fun before earlier => ?_, fun odd => by omega⟩
    by_cases shared : before / 2 = pos / 2
    · have high : before % 2 = 0 := by omega
      rw [if_pos high, if_pos high, shared, Buffer.set_read_self, Nibble.high_or small]
    · rw [Buffer.set_read_of_ne _ shared]

/-- The pixels that are put are read back, and those before them are kept. -/
theorem putNibbles_spec {pixels : List UInt8} {bits : Buffer UInt8} {pos : Nat}
    (small : ∀ pixel ∈ pixels, pixel.toNat < 16)
    (empty : pos % 2 = 1 → bits.read (pos / 2) &&& (15 : UInt8) = 0) :
    (∀ before < pos, pixelAt (putNibbles bits pos pixels) before = pixelAt bits before) ∧
      ∀ index (inside : index < pixels.length),
        pixelAt (putNibbles bits pos pixels) (pos + index) = pixels[index] := by
  induction pixels generalizing bits pos with
  | nil => exact ⟨fun _ _ => rfl, fun index inside => absurd inside (Nat.not_lt_zero _)⟩
  | cons pixel rest ih =>
    obtain ⟨here, before, odd⟩ := putNibble_spec (small pixel (by simp)) empty
    obtain ⟨kept, later⟩ := ih (fun other member => small other (by simp [member])) odd
    rw [putNibbles]
    refine ⟨fun index earlier => (kept index (by omega)).trans (before index earlier),
      fun index inside => ?_⟩
    cases index with
    | zero => exact (kept pos (by omega)).trans here
    | succ index =>
      have shifted : pos + (index + 1) = pos + 1 + index := by omega
      rw [shifted]
      exact later index (by simpa using inside)

/-- A pixel has four bits. -/
theorem nibbleAt_small (byte : UInt8) (index : Nat) : (nibbleAt byte index).toNat < 16 := by
  rw [nibbleAt]
  split
  · exact Nibble.high_small byte
  · exact Nibble.low_small byte

/-- The drawn pixels have four bits. -/
theorem drawn_small {op : Rle4Op} {pos : Nat} {pixel : UInt8} (member : pixel ∈ op.drawn pos) :
    pixel.toNat < 16 := by
  cases op with
  | run count val bounds =>
    obtain ⟨index, -, rfl⟩ := List.mem_map.1 member
    exact nibbleAt_small val index
  | absolute count data bounds padded =>
    obtain ⟨index, -, rfl⟩ := List.mem_map.1 member
    exact nibbleAt_small _ index

/-- The drawn pixels of a row have four bits. -/
theorem drawnRow_small {ops : List Rle4Op} {pos : Nat} {pixel : UInt8}
    (member : pixel ∈ drawnRow pos ops) : pixel.toNat < 16 := by
  induction ops generalizing pos with
  | nil => cases member
  | cons op rest ih =>
    rcases List.mem_append.1 member with first | later
    · exact drawn_small first
    · exact ih later

/-- A row has as many drawn pixels as pixels. -/
theorem drawnRow_length (ops : List Rle4Op) (pos : Nat) :
    (drawnRow pos ops).length = totalSize Rle4Op.count ops := by
  induction ops generalizing pos with
  | nil => rfl
  | cons op rest ih =>
    rw [drawnRow, List.length_append, drawn_length, ih]
    simp [totalSize]

/-- A row has its pixels. -/
theorem pixels_length (ops : List Rle4Op) :
    (ops.flatMap Rle4Op.pixels).length = totalSize Rle4Op.count ops := by
  simp [totalSize, List.length_flatMap, Rle4Op.pixels]

/-- A well-formed row of four bits a pixel is read up to its marker, and its drawn pixels are in
the row. -/
theorem readRLE4CompressedImage_draws (short : ShortRead) (ops : List Rle4Op) (last : Bool)
    (suffix : List UInt8) (here : Nat) (row : Nat → UInt8) :
    let bytes := ops.flatMap Rle4Op.encode ++ markerBytes last
    let s := readRLE4CompressedImage short ⟨here, bytes ++ suffix⟩ ⟨row, []⟩
      (ops.flatMap Rle4Op.pixels).length
    s.flag = markerFlag last ∧ s.f = ⟨here + bytes.length, suffix⟩ ∧
      ∀ index (inside : index < (drawnRow 0 ops).length),
        pixelAt s.bits index = (drawnRow 0 ops)[index] := by
  intro bytes s
  have total := pixels_length ops
  have decoded : s = ⟨⟨here + (ops.flatMap Rle4Op.encode).length + 2, suffix⟩,
      putNibbles ⟨row, []⟩ 0 (drawnRow 0 ops), 0 + (ops.flatMap Rle4Op.pixels).length,
      markerFlag last⟩ := by
    have sequence := (rle4_reads short (ops.flatMap Rle4Op.pixels).length).sequence ops last
      suffix here 0 ⟨row, []⟩ (by omega)
    rw [paintAll_putNibbles, ← total] at sequence
    rw [← sequence, ← List.append_assoc]
    rfl
  have consumed : here + (ops.flatMap Rle4Op.encode).length + 2 = here + bytes.length := by
    simp [bytes, markerBytes]
    omega
  rw [decoded, consumed]
  refine ⟨rfl, rfl, fun index inside => ?_⟩
  have put : pixelAt (putNibbles ⟨row, []⟩ 0 (drawnRow 0 ops)) (0 + index) =
      (drawnRow 0 ops)[index] :=
    (putNibbles_spec (fun pixel member => drawnRow_small member)
      (fun odd => absurd odd (by decide))).2 index inside
  rwa [Nat.zero_add] at put

/-- The drawn pixels of a command are its pixels exactly when it is aligned. -/
theorem drawn_eq_pixels_iff (op : Rle4Op) (start : Nat) :
    op.drawn start = op.pixels ↔ op.Aligned start := by
  cases op with
  | absolute count data bounds padded => exact iff_of_true rfl trivial
  | run count val bounds =>
    rw [Rle4Op.drawn, Rle4Op.pixels, List.range'_eq_map_range, List.map_map, Rle4Op.Aligned]
    change List.map _ (List.range count) = List.map (nibbleAt val) (List.range count) ↔ _
    rw [List.map_inj_left]
    constructor
    · intro same odd
      have first := same 0 (List.mem_range.2 (by omega))
      have notEven : ¬start % 2 = 0 := by omega
      simp only [Function.comp_apply, Nat.add_zero, nibbleAt, if_neg notEven] at first
      exact first.symm
    · intro aligned index _
      simp only [Function.comp_apply, nibbleAt]
      by_cases odd : start % 2 = 1
      · rw [aligned odd, ite_self, ite_self]
      · have parity : (start + index) % 2 = index % 2 := by omega
        rw [parity]

/-- Every run that starts at an odd pixel of the row has two equal pixels. -/
def AllAligned : Nat → List Rle4Op → Prop
  | _, [] => True
  | start, op :: rest => op.Aligned start ∧ AllAligned (start + op.count) rest

/-- The drawn pixels of a row are its pixels exactly when its runs are aligned. -/
theorem drawnRow_eq_pixels_iff (ops : List Rle4Op) (start : Nat) :
    drawnRow start ops = ops.flatMap Rle4Op.pixels ↔ AllAligned start ops := by
  induction ops generalizing start with
  | nil => exact iff_of_true rfl trivial
  | cons op rest ih =>
    have lengths : (op.drawn start).length = op.pixels.length := by
      rw [drawn_length]
      simp [Rle4Op.pixels]
    rw [drawnRow, List.flatMap_cons, AllAligned, ← drawn_eq_pixels_iff, ← ih]
    constructor
    · intro same
      exact List.append_inj same lengths
    · rintro ⟨first, later⟩
      rw [first, later]

/-- A well-formed row of four bits a pixel is decoded exactly when every encoded run that starts
at an odd pixel has two equal pixels. -/
theorem readRLE4CompressedImage_decodes_iff (short : ShortRead) (ops : List Rle4Op)
    (suffix : List UInt8) (here : Nat) (row : Nat → UInt8) :
    let pixels := ops.flatMap Rle4Op.pixels
    let bytes := ops.flatMap Rle4Op.encode ++ markerBytes false
    let s := readRLE4CompressedImage short ⟨here, bytes ++ suffix⟩ ⟨row, []⟩ pixels.length
    (s.flag = .bmpLine ∧ s.f = ⟨here + bytes.length, suffix⟩ ∧
      ∀ index (inside : index < pixels.length), pixelAt s.bits index = pixels[index]) ↔
    AllAligned 0 ops := by
  intro pixels bytes s
  obtain ⟨flag, stream, drawn⟩ := readRLE4CompressedImage_draws short ops false suffix here row
  have lengths : (drawnRow 0 ops).length = pixels.length :=
    (drawnRow_length ops 0).trans (pixels_length ops).symm
  rw [← drawnRow_eq_pixels_iff]
  constructor
  · rintro ⟨-, -, right⟩
    apply List.ext_getElem lengths
    intro index insideDrawn inside
    exact (drawn index insideDrawn).symm.trans (right index inside)
  · intro same
    refine ⟨flag, stream, fun index inside => ?_⟩
    have insideDrawn : index < (drawnRow 0 ops).length := by omega
    exact (drawn index insideDrawn).trans (List.getElem_of_eq same insideDrawn)

/-- A run of two different pixels at an odd position. -/
def oddRun : List Rle4Op := [.run 1 0x11 (by decide), .run 2 0x12 (by decide)]

/-- The pixels 1, 1, 2 are not decoded from the runs of 1 and of 1 and 2. -/
theorem readRLE4CompressedImage_oddRun :
    ¬∀ index (inside : index < (oddRun.flatMap Rle4Op.pixels).length),
      pixelAt (readRLE4CompressedImage ⟨fun _ => 0, true⟩
        ⟨0, oddRun.flatMap Rle4Op.encode ++ markerBytes false ++ []⟩ ⟨fun _ => 0, []⟩
        (oddRun.flatMap Rle4Op.pixels).length).bits index =
      (oddRun.flatMap Rle4Op.pixels)[index] := by
  intro right
  have drawn := (readRLE4CompressedImage_draws ⟨fun _ => 0, true⟩ oddRun false [] 0
    (fun _ => 0)).2.2 1 (by decide)
  have expected := right 1 (by decide)
  rw [drawn] at expected
  exact absurd expected (by decide)

end Bpcp.MiniGUI
