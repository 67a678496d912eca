import Bpcp.MiniGUI.BmpSave
import Bpcp.MiniGUI.RleDecode

/-!
# Rows that are loaded as they were saved

A row of a bitmap and the row of its file are compared through their pixels, which do not
depend on the padding. The scanline of a row has the pixels of the row whatever the buffer
held before, and so has what is loaded from the bytes of the scanline.
-/

namespace Bpcp.MiniGUI

open Bpcp.Lib

/-! ## Scanlines -/

/-- The bytes of a pixel of a row of a depth, where a pixel of four bits has a byte of its own. -/
def pixelOfRow (depth : Nat) (row : Nat → UInt8) (x : Nat) : List UInt8 :=
  if depth = 4 then [row x &&& 15]
  else if depth = 8 then [row x]
  else [row (3 * x), row (3 * x + 1), row (3 * x + 2)]

/-- The bytes of a pixel of a row of a depth, where pixels of four bits are packed. -/
def packedPixelOfRow (depth : Nat) (row : Nat → UInt8) (x : Nat) : List UInt8 :=
  if depth = 4 then [nibbleAt (row (x / 2)) x] else pixelOfRow depth row x

/-- Packing a scanline puts the low halves of the bytes one after the other. -/
theorem bmpGet16CScanlineLoop_eq (bits : Nat → UInt8) (count i : Nat) (scanline : Buffer UInt8) :
    bmpGet16CScanlineLoop bits count i (i / 2) scanline = putNibbles scanline i
      ((List.range' i count).map fun index => bits index &&& (15 : UInt8)) := by
  induction count generalizing i scanline with
  | zero => rfl
  | succ count ih =>
    rw [bmpGet16CScanlineLoop, List.range'_succ, List.map_cons, putNibbles, putNibble]
    by_cases even : i % 2 = 0
    · have same : i / 2 = (i + 1) / 2 := by omega
      rw [if_pos even, if_pos even, Nibble.shift_mask, ← ih, ← same]
    · have next : i / 2 + 1 = (i + 1) / 2 := by omega
      rw [if_neg even, if_neg even, next, ih]

/-- A packed scanline has the pixels of the row. -/
theorem bmpGet16CScanline_pixel {bits : Nat → UInt8} {scanline : Buffer UInt8} {pixels x : Nat}
    (inside : x < pixels) :
    packedPixelOfRow 4 (bmpGet16CScanline bits scanline pixels).read x = pixelOfRow 4 bits x := by
  have packed : bmpGet16CScanline bits scanline pixels = putNibbles scanline 0
      ((List.range' 0 pixels).map fun index => bits index &&& (15 : UInt8)) :=
    bmpGet16CScanlineLoop_eq bits pixels 0 scanline
  have small : ∀ pixel ∈ (List.range' 0 pixels).map fun index => bits index &&& (15 : UInt8),
      pixel.toNat < 16 := by
    intro pixel member
    obtain ⟨index, -, rfl⟩ := List.mem_map.1 member
    exact Nibble.low_small _
  have put := (putNibbles_spec small
    (fun odd => absurd odd (by decide) : 0 % 2 = 1 → scanline.read (0 / 2) &&& (15 : UInt8) = 0)).2
    x (by simpa using inside)
  rw [← packed] at put
  simp only [Nat.zero_add, List.getElem_map, List.getElem_range', Nat.one_mul] at put
  simp only [packedPixelOfRow, pixelOfRow, if_true]
  rw [← put]
  rfl

/-- A copied scanline has the pixels of the row. -/
theorem bmpGet256CScanline_pixel {bits : Nat → UInt8} {scanline : Buffer UInt8} {pixels x : Nat}
    (inside : x < pixels) :
    packedPixelOfRow 8 (bmpGet256CScanline bits scanline pixels).read x = pixelOfRow 8 bits x := by
  have length : x < ((List.range pixels).map bits).length := by simpa using inside
  have stored : (scanline.store 0 ((List.range pixels).map bits)).read (0 + x) =
      ((List.range pixels).map bits)[x] := Buffer.store_read_inside length
  rw [Nat.zero_add, List.getElem_map, List.getElem_range] at stored
  have apart : ¬(8 : Nat) = 4 := by decide
  simp only [packedPixelOfRow, pixelOfRow, if_neg apart, if_true, bmpGet256CScanline, stored]

/-- The components of a pixel of twenty-four bits are its bytes. -/
theorem pixel2rgb_galPixelAt (bits : Nat → UInt8) (index : Nat) (color : Rgb) :
    pixel2rgb (galPixelAt bits index) color 24 =
      ⟨bits (index + 2), bits (index + 1), bits index⟩ := by
  have first := (bits index).toNat_lt
  have second := (bits (index + 1)).toNat_lt
  have third := (bits (index + 2)).toNat_lt
  have fourth := (bits (index + 3)).toNat_lt
  have value : (galPixelAt bits index).toNat = (bits index).toNat + 256 *
      ((bits (index + 1)).toNat + 256 * ((bits (index + 2)).toNat + 256 *
        (bits (index + 3)).toNat)) := by
    rw [galPixelAt, UInt32.toNat_ofNat']
    simp only [ofLeBytes]
    omega
  have shift : galPixelAt bits index >>> 0 = galPixelAt bits index := UInt32.shiftRight_zero
  have low := Nibble.toNat_byteOf (galPixelAt bits index) 0 (by decide)
  have middle := Nibble.toNat_byteOf (galPixelAt bits index) 8 (by decide)
  have high := Nibble.toNat_byteOf (galPixelAt bits index) 16 (by decide)
  have zero : (0 : UInt32).toNat = 0 := rfl
  have eight : (8 : UInt32).toNat = 8 := rfl
  have sixteen : (16 : UInt32).toNat = 16 := rfl
  rw [shift, value, zero] at low
  rw [value, eight] at middle
  rw [value, sixteen] at high
  rw [pixel2rgb, if_pos (Or.inl rfl), Rgb.mk.injEq]
  refine ⟨UInt8.toNat_inj.1 ?_, UInt8.toNat_inj.1 ?_, UInt8.toNat_inj.1 ?_⟩ <;> omega

/-- A scanline of colors is copied behind what it has. -/
theorem bmpGetHighCScanlineLoop_read (bits : Nat → UInt8) (count start line : Nat) (color : Rgb)
    (scanline : Buffer UInt8) :
    (∀ index < line, (bmpGetHighCScanlineLoop bits 3 24 count start line color scanline).read
      index = scanline.read index) ∧
    ∀ index < 3 * count, (bmpGetHighCScanlineLoop bits 3 24 count start line color scanline).read
      (line + index) = bits (start + index) := by
  induction count generalizing start line color scanline with
  | zero => exact ⟨fun _ _ => rfl, fun index inside => absurd inside (Nat.not_lt_zero _)⟩
  | succ count ih =>
    have three : ((scanline.set line (bits start)).set (line + 1) (bits (start + 1))).set (line + 2)
        (bits (start + 2)) =
        scanline.store line ((List.range 3).map fun index => bits (start + index)) := rfl
    have length : ((List.range 3).map fun index => bits (start + index)).length = 3 := rfl
    obtain ⟨kept, copied⟩ := ih (start + 3) (line + 3)
      ⟨bits (start + 2), bits (start + 1), bits start⟩
      (scanline.store line ((List.range 3).map fun index => bits (start + index)))
    rw [bmpGetHighCScanlineLoop]
    simp only [pixel2rgb_galPixelAt, three]
    refine ⟨fun index before => ?_, fun index inside => ?_⟩
    · rw [kept index (by omega), Buffer.store_read_outside (Or.inl before)]
    · by_cases later : 3 ≤ index
      · have place : line + index = line + 3 + (index - 3) := by omega
        have source : start + index = start + 3 + (index - 3) := by omega
        rw [place, source]
        exact copied (index - 3) (by omega)
      · rw [kept _ (by omega), Buffer.store_read_inside (by rw [length]; omega), List.getElem_map,
          List.getElem_range]

/-- A scanline of colors has the pixels of the row. -/
theorem bmpGetHighCScanline_pixel {bits : Nat → UInt8} {scanline : Buffer UInt8} {pixels x : Nat}
    (inside : x < pixels) :
    packedPixelOfRow 24 (bmpGetHighCScanline bits scanline pixels 3 24).read x =
      pixelOfRow 24 bits x := by
  have copied := (bmpGetHighCScanlineLoop_read bits pixels 0 0 ⟨0, 0, 0⟩ scanline).2
  simp only [Nat.zero_add] at copied
  have apart : ¬(24 : Nat) = 4 := by decide
  have wide : ¬(24 : Nat) = 8 := by decide
  simp only [packedPixelOfRow, pixelOfRow, if_neg apart, if_neg wide, bmpGetHighCScanline]
  rw [copied _ (by omega), copied _ (by omega), copied _ (by omega)]

/-- What a row says about its first pixels is said by the bytes that hold them. -/
theorem packedPixelOfRow_congr {depth bytes x w : Nat} {first second : Nat → UInt8}
    (known : depth = 4 ∨ depth = 8 ∨ depth = 24) (room : (w * depth + 7) / 8 ≤ bytes)
    (inside : x < w) (same : ∀ index < bytes, first index = second index) :
    packedPixelOfRow depth first x = packedPixelOfRow depth second x := by
  rcases known with depth | depth | depth
  · subst depth
    simp only [packedPixelOfRow, if_true]
    rw [same _ (by omega)]
  · subst depth
    have apart : ¬(8 : Nat) = 4 := by decide
    simp only [packedPixelOfRow, pixelOfRow, if_neg apart, if_true]
    rw [same _ (by omega)]
  · subst depth
    have apart : ¬(24 : Nat) = 4 := by decide
    have wide : ¬(24 : Nat) = 8 := by decide
    simp only [packedPixelOfRow, pixelOfRow, if_neg apart, if_neg wide]
    rw [same _ (by omega), same _ (by omega), same _ (by omega)]

/-! ## Rows -/

/-- The rows of a number of bytes that were written are read. What every scanline says is said by
the bytes that are loaded for its row, when only the bytes that are written matter for it. -/
theorem loadRows_saveRows (short : ShortRead) (rest : List UInt8) {info : InitInfo}
    (bmp : MyBitmap) {bits : Nat → UInt8} {pitch : Nat}
    {scanlineOf : (Nat → UInt8) → Buffer UInt8 → Buffer UInt8}
    {holds : Nat → (Nat → UInt8) → Prop} (plain : info.biCompression = biRgb)
    (count : ¬info.biBitCount = 16)
    (narrow : ∀ row first second, (∀ index < bmp.pitch, first index = second index) →
      holds row first → holds row second)
    (scanned : ∀ row scanline,
      holds row (scanlineOf (fun index => bits (row * pitch + index)) scanline).read)
    (rows here : Nat) (scanline pixels : Buffer UInt8) :
    ∃ fp loaded, loadRows short info bmp bmp.pitch rows
        ⟨here, saveRows scanlineOf bits pitch bmp.pitch rows scanline ++ rest⟩ pixels =
        (.errBmpOk, fp, loaded) ∧
      (∀ index, rows * bmp.pitch ≤ index → loaded.read index = pixels.read index) ∧
      ∀ row < rows, holds row fun index => loaded.read (row * bmp.pitch + index) := by
  induction rows generalizing here scanline pixels with
  | zero =>
    exact ⟨_, pixels, rfl, fun _ _ => rfl, fun row below => absurd below (Nat.not_lt_zero _)⟩
  | succ row ih =>
    have length : ((List.range bmp.pitch).map
        (scanlineOf (fun index => bits (row * pitch + index)) scanline).read).length =
        bmp.pitch := by simp
    have direct : info.biCompression = biBitfields ∨ info.biCompression = biRgb := Or.inr plain
    obtain ⟨fp, loaded, read, kept, found⟩ := ih (here + bmp.pitch)
      (scanlineOf (fun index => bits (row * pitch + index)) scanline)
      (pixels.store (row * bmp.pitch) ((List.range bmp.pitch).map
        (scanlineOf (fun index => bits (row * pitch + index)) scanline).read))
    refine ⟨fp, loaded, ?_, fun index behind => ?_, fun other below => ?_⟩
    · rw [loadRows, saveRows, List.append_assoc]
      simp only [loadRow, if_pos direct, if_neg count, mguiRWread_append length]
      exact read
    · have next : row * bmp.pitch + bmp.pitch ≤ index := by rwa [← Nat.succ_mul]
      rw [kept index (by omega), Buffer.store_read_outside (by rw [length]; omega)]
    · by_cases last : other = row
      · subst last
        refine narrow other _ _ (fun index inside => ?_) (scanned other scanline)
        rw [kept _ (Nat.le_add_right _ _),
          Buffer.store_read_inside (by rw [length]; exact inside), List.getElem_map,
          List.getElem_range]
      · exact found other (by omega)

/-- Rows without compression are read from where the stream is, to a bitmap with other flags. -/
theorem mgLoadBmp_plain (short : ShortRead) {info : InitInfo} {bmp : MyBitmap} (fp : RWops)
    (pixels : Buffer UInt8)
    (plain : info.biCompression = biRgb) (whole : bmp.flags.loadAllocateOne = false) :
    ∃ flags, mgLoadBmp short fp info bmp pixels =
      loadRows short info { bmp with flags := flags } bmp.pitch bmp.h.toNat fp pixels := by
  have unmasked : ¬biRgb = biBitfields := by decide
  simp only [mgLoadBmp, loadMasks, plain, if_neg unmasked, if_true, whole]
  exact ⟨_, rfl⟩

/-- The rows that were written are loaded with their pixels. -/
theorem mgLoadBmp_saveRows (short : ShortRead) (rest : List UInt8) {info : InitInfo}
    {bmp : MyBitmap} (bits : Nat → UInt8) (pitch here : Nat) {depth w h : Nat}
    {scanlineOf : (Nat → UInt8) → Buffer UInt8 → Buffer UInt8}
    (known : depth = 4 ∨ depth = 8 ∨ depth = 24) (plain : info.biCompression = biRgb)
    (count : ¬info.biBitCount = 16) (whole : bmp.flags.loadAllocateOne = false)
    (tall : bmp.h = h) (room : (w * depth + 7) / 8 ≤ bmp.pitch)
    (scanned : ∀ row scanline, ∀ x < w,
      packedPixelOfRow depth (scanlineOf row scanline).read x = pixelOfRow depth row x)
    (scanline pixels : Buffer UInt8) :
    ∃ fp loaded, mgLoadBmp short
        ⟨here, saveRows scanlineOf bits pitch bmp.pitch h scanline ++ rest⟩ info bmp pixels =
        (.errBmpOk, fp, loaded) ∧
      ∀ y < h, ∀ x < w,
        packedPixelOfRow depth (fun index => loaded.read (y * bmp.pitch + index)) x =
          pixelOfRow depth (fun index => bits (y * pitch + index)) x := by
  obtain ⟨flags, load⟩ := mgLoadBmp_plain short
    ⟨here, saveRows scanlineOf bits pitch bmp.pitch h scanline ++ rest⟩ pixels plain whole
  have narrow : ∀ y first second, (∀ index < bmp.pitch, first index = second index) →
      (∀ x < w, packedPixelOfRow depth first x =
        pixelOfRow depth (fun index => bits (y * pitch + index)) x) →
      ∀ x < w, packedPixelOfRow depth second x =
        pixelOfRow depth (fun index => bits (y * pitch + index)) x :=
    fun y first second same said x inside =>
      (packedPixelOfRow_congr known room inside same).symm.trans (said x inside)
  obtain ⟨fp, loaded, read, -, found⟩ := loadRows_saveRows short rest { bmp with flags := flags }
    plain count narrow (fun y scanline x inside => scanned _ scanline x inside) h here scanline
    pixels
  have rows : bmp.h.toNat = h := by rw [tall, Int.toNat_natCast]
  refine ⟨fp, loaded, ?_, found⟩
  rw [load, rows]
  exact read

end Bpcp.MiniGUI
