import Bpcp.MiniGUI.BmpHeaders
import Bpcp.MiniGUI.BmpOffset
import Bpcp.MiniGUI.BmpRows

/-!
# Saved bitmaps are loaded

What is saved from a bitmap of four, eight or twenty-four bits a pixel is loaded as a bitmap of
the same size with the same pixels and palette. The file is put together from its headers, its
palette and its rows, each of which is read as it was written, and the three depths only differ
in their scanlines and in the number of colors.
-/

namespace Bpcp.MiniGUI

open Bpcp.Lib

variable {rt : BmpRuntime}

/-- The field `bfSize` of a file. -/
def bfSize (data : List UInt8) : Nat := ofLeBytes ((data.drop 2).take 4)

/-- A palette has four bytes for each color. -/
theorem paletteBytes_length (palette : Nat → Rgb) (reserved : Nat → UInt8) (count i : Nat) :
    (paletteBytes palette reserved count i).length = 4 * count := by
  induction count generalizing i with
  | zero => rfl
  | succ count ih =>
    rw [paletteBytes, List.length_append, ih]
    simp only [List.length_cons, List.length_nil]
    omega

/-- The rows have their bytes each. -/
theorem saveRows_length (scanlineOf : (Nat → UInt8) → Buffer UInt8 → Buffer UInt8)
    (bits : Nat → UInt8) (pitch scanlinebytes rows : Nat) (scanline : Buffer UInt8) :
    (saveRows scanlineOf bits pitch scanlinebytes rows scanline).length =
      rows * scanlinebytes := by
  induction rows generalizing scanline with
  | zero => simp [saveRows]
  | succ row ih =>
    rw [saveRows, List.length_append, ih, List.length_map, List.length_range, Nat.succ_mul,
      Nat.add_comm]

section Files

variable {bmfh : BitmapFileHeader} {bmih : WinBmpInfoHeader} {colors : Nat}
  {palette : Nat → Rgb} {reserved : Nat → UInt8} {rows : List UInt8}

/-- The headers take fifty-four bytes. -/
theorem headers_length (bmfh : BitmapFileHeader) (bmih : WinBmpInfoHeader) :
    (fileheaderBytes bmfh).length + (infoheaderBytes bmih).length = 54 := rfl

/-- The parts of a file have their lengths. -/
theorem file_length :
    (fileheaderBytes bmfh ++ (infoheaderBytes bmih ++
      (paletteBytes palette reserved colors 0 ++ rows))).length =
        54 + 4 * colors + rows.length := by
  have headers := headers_length bmfh bmih
  simp only [List.length_append, paletteBytes_length]
  omega

/-- The rows are behind the headers and the palette. -/
theorem file_rows :
    streamAt (fileheaderBytes bmfh ++ (infoheaderBytes bmih ++
      (paletteBytes palette reserved colors 0 ++ rows))) (54 + 4 * colors) =
        ⟨54 + 4 * colors, rows⟩ := by
  have headers := headers_length bmfh bmih
  have front : (fileheaderBytes bmfh ++ (infoheaderBytes bmih ++
      paletteBytes palette reserved colors 0)).length = 54 + 4 * colors := by
    simp only [List.length_append, paletteBytes_length]
    omega
  rw [streamAt, ← front, ← List.append_assoc, ← List.append_assoc, ← List.append_assoc,
    List.drop_left]

/-- The size of the file is found in it. -/
theorem file_bfSize (readable : Readable bmfh bmih colors) :
    bfSize (fileheaderBytes bmfh ++ rows) = bmfh.bfSize.toNat := by
  have field : bfSize (fileheaderBytes bmfh ++ rows) = ofLeBytes (leBytes 4 bmfh.bfSize.toNat) :=
    rfl
  rw [field, ofLeBytes_leBytes]
  exact Nat.mod_eq_of_lt readable.bfSize

/-- The place of the rows is found in the file. -/
theorem file_bfOffBits (readable : Readable bmfh bmih colors) :
    bfOffBits (fileheaderBytes bmfh ++ rows) = bmfh.bfOffBits.toNat := by
  have field : bfOffBits (fileheaderBytes bmfh ++ rows) =
      ofLeBytes (leBytes 4 bmfh.bfOffBits.toNat) := rfl
  rw [field, ofLeBytes_leBytes]
  exact Nat.mod_eq_of_lt readable.bfOffBits

end Files

/-- A file gives back a bitmap: it is accepted and loaded with the same size, depth, palette and
pixels, it has as many bytes as its header says, and the rows are read from the place that its
header names. -/
def LoadsBack (rt : BmpRuntime) (saved fresh : MyBitmap) (bits : Nat → UInt8)
    (palette : Nat → Rgb) (pal : Buffer Rgb) (pixels : Buffer UInt8) (data : List UInt8) : Prop :=
  ∃ result fp loaded,
    mgInitBmp rt ⟨0, data⟩ fresh pal = some result ∧
    result.bmp.w = saved.w ∧ result.bmp.h = saved.h ∧ result.bmp.depth = saved.depth ∧
    (∀ index < paletteColors saved.depth, result.pal.read index = palette index) ∧
    mgLoadBmp rt.short result.fp result.info result.bmp pixels = (.errBmpOk, fp, loaded) ∧
    (∀ y < saved.h.toNat, ∀ x < saved.w.toNat,
      packedPixelOfRow saved.depth (fun index => loaded.read (y * result.bmp.pitch + index)) x =
        pixelOfRow saved.depth (fun index => bits (y * saved.pitch + index)) x) ∧
    data.length = bfSize data ∧ result.fp = streamAt data (bfOffBits data)

/-- A file with readable headers and the scanlines of a bitmap gives back the bitmap. -/
theorem loadsBack_of_scanned {saved fresh : MyBitmap} {bits : Nat → UInt8} {palette : Nat → Rgb}
    {reserved : Nat → UInt8} {bmfh : BitmapFileHeader} {bmih : WinBmpInfoHeader}
    {w h rowBytes : Nat} {scanlineOf : (Nat → UInt8) → Buffer UInt8 → Buffer UInt8}
    (known : saved.depth = 4 ∨ saved.depth = 8 ∨ saved.depth = 24)
    (readable : Readable bmfh bmih (paletteColors saved.depth))
    (count : bmih.biBitCount.toNat = saved.depth) (plain : bmih.biCompression = biRgb)
    (width : saved.w = w) (biWidth : bmih.biWidth.toNat = w) (wide : w < 2 ^ 31)
    (height : saved.h = h) (biHeight : bmih.biHeight.toNat = h) (high : h < 2 ^ 31)
    (row : rowBytes = rowPitch ((w * saved.depth + 7) / 8))
    (size : bmfh.bfSize.toNat = fileSize (paletteColors saved.depth) h rowBytes)
    (offBits : bmfh.bfOffBits.toNat = 54 + 4 * paletteColors saved.depth)
    (pitch : ∀ depth width,
      rt.mgBmpComputePitch depth width = rowPitch ((width.toNat * depth + 7) / 8))
    (whole : fresh.flags.loadAllocateOne = false)
    (scanned : ∀ row scanline, ∀ x < w,
      packedPixelOfRow saved.depth (scanlineOf row scanline).read x =
        pixelOfRow saved.depth row x) (pal : Buffer Rgb) (pixels : Buffer UInt8) :
    LoadsBack rt saved fresh bits palette pal pixels
      (fileheaderBytes bmfh ++ (infoheaderBytes bmih ++
        (paletteBytes palette reserved (paletteColors saved.depth) 0 ++
          saveRows scanlineOf bits saved.pitch rowBytes h clearScanline))) := by
  have notSixteen : ¬bmih.biBitCount = 16 := by
    intro sixteen
    rw [sixteen] at count
    have depth : saved.depth = 16 := count.symm
    omega
  obtain ⟨colors, init, found⟩ := mgInitBmp_readable rt palette reserved readable fresh pal
    (saveRows scanlineOf bits saved.pitch rowBytes h clearScanline)
  obtain ⟨sameWidth, sameHeight, depth, padded⟩ := initBitmap_bmp fresh biWidth wide biHeight high
    count notSixteen pitch
    ⟨54 + 4 * paletteColors saved.depth,
      saveRows scanlineOf bits saved.pitch rowBytes h clearScanline⟩ colors
  obtain ⟨result, named⟩ : ∃ result, result = initBitmap rt 40 bmih.toBitmapInfoHeader
    ⟨54 + 4 * paletteColors saved.depth,
      saveRows scanlineOf bits saved.pitch rowBytes h clearScanline⟩ fresh colors := ⟨_, rfl⟩
  rw [← named] at init sameWidth sameHeight depth padded
  have place : result.fp = ⟨54 + 4 * paletteColors saved.depth,
      saveRows scanlineOf bits saved.pitch result.bmp.pitch h clearScanline ++ []⟩ := by
    rw [padded, ← row, List.append_nil, named]
    rfl
  have compression : result.info.biCompression = biRgb := by
    rw [named]
    exact plain
  have shallow : ¬result.info.biBitCount = 16 := by
    rw [named]
    exact notSixteen
  have all : result.bmp.flags.loadAllocateOne = false := by
    rw [named]
    exact whole
  have room : (w * saved.depth + 7) / 8 ≤ result.bmp.pitch := by
    rw [padded]
    exact (rowPitch_spec _).2.1
  obtain ⟨fp, loaded, load, drawn⟩ := mgLoadBmp_saveRows rt.short [] bits saved.pitch
    (54 + 4 * paletteColors saved.depth) known compression shallow all sameHeight room scanned
    clearScanline pixels
  rw [← place] at load
  refine ⟨result, fp, loaded, init, sameWidth.trans width.symm, sameHeight.trans height.symm,
    depth, ?_, load, ?_, ?_, ?_⟩
  · intro index below
    rw [named]
    exact found index below
  · rw [width, height, Int.toNat_natCast, Int.toNat_natCast]
    exact drawn
  · rw [file_length, saveRows_length, file_bfSize readable, size, fileSize]
  · rw [file_bfOffBits readable, offBits, file_rows, named]
    rfl

/-- The number of bytes of the file of a bitmap. -/
def savedSize (bmp : MyBitmap) : Nat :=
  fileSize (paletteColors bmp.depth) bmp.h.toNat (rowPitch ((bmp.w.toNat * bmp.depth + 7) / 8))

/-- A scanline has the pitch of a row. -/
theorem scanlineBytes_eq {bytes : UInt64} {count : Nat} (same : bytes.toNat = count)
    (small : count < 2 ^ 31) : scanlineBytes bytes = (rowPitch count : Int) := by
  rw [scanlineBytes, same, toInt_of_lt small, rowPitch]
  omega

/-- The file of a bitmap with a number of rows, for scanlines of a number of bytes. -/
def savedFile (reserved : Nat → UInt8) (bmp : MyBitmap) (bits : Nat → UInt8)
    (palette : Nat → Rgb) (biBitCount : UInt16) (rowBytes : Nat)
    (scanlineOf : (Nat → UInt8) → Buffer UInt8 → Buffer UInt8) (h : Nat) : List UInt8 :=
  let headers := saveHeaders bmp biBitCount (UInt64.ofNat (paletteColors bmp.depth)) rowBytes
  fileheaderBytes headers.1 ++ infoheaderBytes headers.2 ++
    paletteBytes palette reserved (paletteColors bmp.depth) 0 ++
    saveRows scanlineOf bits bmp.pitch rowBytes h clearScanline

/-- The headers, the palette and the scanlines of a bitmap give back the bitmap. -/
theorem loadsBack_saveHeaders {saved fresh : MyBitmap} {bits : Nat → UInt8}
    {palette : Nat → Rgb} {reserved : Nat → UInt8} {biBitCount : UInt16} {w h rowBytes : Nat}
    {scanlineOf : (Nat → UInt8) → Buffer UInt8 → Buffer UInt8}
    (known : saved.depth = 4 ∨ saved.depth = 8 ∨ saved.depth = 24)
    (count : biBitCount.toNat = saved.depth) (width : saved.w = w) (wide : 1 ≤ w ∧ w < 2 ^ 31)
    (height : saved.h = h) (tall : 1 ≤ h)
    (row : rowBytes = rowPitch ((w * saved.depth + 7) / 8))
    (small : fileSize (paletteColors saved.depth) h rowBytes < 2 ^ 31)
    (pitch : ∀ depth width,
      rt.mgBmpComputePitch depth width = rowPitch ((width.toNat * depth + 7) / 8))
    (whole : fresh.flags.loadAllocateOne = false)
    (scanned : ∀ row scanline, ∀ x < w,
      packedPixelOfRow saved.depth (scanlineOf row scanline).read x =
        pixelOfRow saved.depth row x) (pal : Buffer Rgb) (pixels : Buffer UInt8) :
    LoadsBack rt saved fresh bits palette pal pixels
      (savedFile reserved saved bits palette biBitCount rowBytes scanlineOf h) := by
  have few : paletteColors saved.depth ≤ 256 := by
    rcases known with depth | depth | depth <;> rw [depth] <;> decide
  have colored : biBitCount ≤ 8 ∨ paletteColors saved.depth = 0 := by
    rw [UInt16.le_iff_toNat_le, count]
    rcases known with depth | depth | depth <;> rw [depth] <;> decide
  have present : 1 ≤ rowBytes := by
    have held := (rowPitch_spec ((w * saved.depth + 7) / 8)).2.1
    rcases known with depth | depth | depth <;> rw [depth] at held row <;> omega
  have rows : h * rowBytes < 2 ^ 31 := by
    rw [fileSize] at small
    omega
  have high : h < 2 ^ 31 := (Nat.le_mul_of_pos_right h present).trans_lt rows
  have long : rowBytes < 2 ^ 31 := (Nat.le_mul_of_pos_left rowBytes tall).trans_lt rows
  have biWidth : (ulongOfInt saved.w).toNat = w := by
    rw [width]
    exact ulongOfInt_toNat wide.2
  have biHeight : (ulongOfInt saved.h).toNat = h := by
    rw [height]
    exact ulongOfInt_toNat high
  rw [savedFile, List.append_assoc, List.append_assoc]
  exact loadsBack_of_scanned known
    (saveHeaders_readable width wide.2 height high long few small colored) count rfl width biWidth
    wide.2 height biHeight high row (saveHeaders_bfSize saved biBitCount height high long few small)
    (saveHeaders_bfOffBits saved biBitCount few) pitch whole scanned pal pixels

section Depths

variable {saved : MyBitmap} {w h : Nat} (reserved bits : Nat → UInt8) (palette : Nat → Rgb)

/-- What is written for four bits a pixel. -/
theorem mgSaveBmp_of_four (depth : saved.depth = 4) (width : saved.w = w) (wide : w < 2 ^ 31)
    (height : saved.h = h) :
    mgSaveBmp reserved saved bits palette =
      savedFile reserved saved bits palette 4 (rowPitch ((w * saved.depth + 7) / 8))
        (fun bits scanline => bmpGet16CScanline bits scanline w) h := by
  have bytes : ((ulongOfInt saved.w + 1) >>> 1).toNat = (w * saved.depth + 7) / 8 := by
    have one : (1 : UInt64).toNat = 1 := rfl
    have half : 2 ^ (1 % 64) = 2 := rfl
    rw [UInt64.toNat_shiftRight, UInt64.toNat_add, width, ulongOfInt_toNat wide, one, depth,
      Nat.shiftRight_eq_div_pow, half]
    omega
  have colors : paletteColors saved.depth = 16 := by
    rw [depth]
    rfl
  rw [mgSaveBmp, if_pos depth]
  dsimp only
  rw [scanlineBytes_eq bytes (by rw [depth]; omega), savedFile, colors, width, height]
  rfl

/-- What is written for eight bits a pixel. -/
theorem mgSaveBmp_of_eight (depth : saved.depth = 8) (width : saved.w = w) (wide : w < 2 ^ 31)
    (height : saved.h = h) :
    mgSaveBmp reserved saved bits palette =
      savedFile reserved saved bits palette 8 (rowPitch ((w * saved.depth + 7) / 8))
        (fun bits scanline => bmpGet256CScanline bits scanline w) h := by
  have bytes : (ulongOfInt saved.w).toNat = (w * saved.depth + 7) / 8 := by
    rw [width, ulongOfInt_toNat wide, depth]
    omega
  have notFour : ¬saved.depth = 4 := by omega
  have colors : paletteColors saved.depth = 256 := by
    rw [depth]
    rfl
  rw [mgSaveBmp, if_neg notFour, if_pos depth]
  dsimp only
  rw [scanlineBytes_eq bytes (by rw [depth]; omega), savedFile, colors, width, height]
  rfl

/-- What is written for twenty-four bits a pixel. -/
theorem mgSaveBmp_of_twentyFour (depth : saved.depth = 24) (width : saved.w = w)
    (wide : 3 * w < 2 ^ 31) (height : saved.h = h) :
    mgSaveBmp reserved saved bits palette =
      savedFile reserved saved bits palette 24 (rowPitch ((w * saved.depth + 7) / 8))
        (fun bits scanline => bmpGetHighCScanline bits scanline w 3 24) h := by
  have bytes : (ulongOfInt saved.w * 3).toNat = (w * saved.depth + 7) / 8 := by
    have three : (3 : UInt64).toNat = 3 := rfl
    rw [UInt64.toNat_mul, width, ulongOfInt_toNat (by omega), depth, three]
    omega
  have notFour : ¬saved.depth = 4 := by omega
  have notEight : ¬saved.depth = 8 := by omega
  have colors : paletteColors saved.depth = 0 := by
    rw [depth]
    rfl
  rw [mgSaveBmp, if_neg notFour, if_neg notEight]
  dsimp only
  rw [scanlineBytes_eq bytes (by rw [depth]; omega), savedFile, colors, width, height, depth,
    paletteBytes, List.append_nil]
  rfl

end Depths

/-- What `__mg_save_bmp` writes for a bitmap of four, eight or twenty-four bits a pixel is loaded
as that bitmap, when an `int` holds the size of the file and the row size is computed as
documented. -/
theorem mgSaveBmp_loadsBack {saved fresh : MyBitmap} {bits : Nat → UInt8} {palette : Nat → Rgb}
    {reserved : Nat → UInt8} {pal : Buffer Rgb} {pixels : Buffer UInt8}
    (known : saved.depth = 4 ∨ saved.depth = 8 ∨ saved.depth = 24) (wide : 1 ≤ saved.w)
    (tall : 1 ≤ saved.h) (width : IntType.int32.Represents saved.w)
    (small : savedSize saved < 2 ^ 31)
    (pitch : ∀ depth width,
      rt.mgBmpComputePitch depth width = rowPitch ((width.toNat * depth + 7) / 8))
    (whole : fresh.flags.loadAllocateOne = false) :
    LoadsBack rt saved fresh bits palette pal pixels (mgSaveBmp reserved saved bits palette) := by
  have greatest : IntType.int32.greatest = 2 ^ 31 - 1 := rfl
  have bound := width.2
  obtain ⟨w, sameWidth⟩ := Int.eq_ofNat_of_zero_le (by omega : 0 ≤ saved.w)
  obtain ⟨h, sameHeight⟩ := Int.eq_ofNat_of_zero_le (by omega : 0 ≤ saved.h)
  rw [savedSize, sameWidth, sameHeight, Int.toNat_natCast, Int.toNat_natCast] at small
  have one : 1 ≤ w ∧ w < 2 ^ 31 := by omega
  have high : 1 ≤ h := by omega
  rcases known with depth | depth | depth
  · rw [mgSaveBmp_of_four reserved bits palette depth sameWidth one.2 sameHeight]
    refine loadsBack_saveHeaders (Or.inl depth) (by rw [depth]; rfl) sameWidth one sameHeight high
      rfl small pitch whole (fun row scanline x inside => ?_) pal pixels
    rw [depth]
    exact bmpGet16CScanline_pixel inside
  · rw [mgSaveBmp_of_eight reserved bits palette depth sameWidth one.2 sameHeight]
    refine loadsBack_saveHeaders (Or.inr (Or.inl depth)) (by rw [depth]; rfl) sameWidth one
      sameHeight high rfl small pitch whole (fun row scanline x inside => ?_) pal pixels
    rw [depth]
    exact bmpGet256CScanline_pixel inside
  · have room : 3 * w < 2 ^ 31 := by
      have held := (rowPitch_spec ((w * saved.depth + 7) / 8)).2.1
      have row := Nat.le_mul_of_pos_left (rowPitch ((w * saved.depth + 7) / 8)) high
      rw [fileSize] at small
      rw [depth] at held row small
      omega
    rw [mgSaveBmp_of_twentyFour reserved bits palette depth sameWidth room sameHeight]
    refine loadsBack_saveHeaders (Or.inr (Or.inr depth)) (by rw [depth]; rfl) sameWidth one
      sameHeight high rfl small pitch whole (fun row scanline x inside => ?_) pal pixels
    rw [depth]
    exact bmpGetHighCScanline_pixel inside

/-- A bitmap of two rows of three pixels of four bits. -/
def packedBitmap : MyBitmap where
  flags := ⟨false, false, false, false, false⟩
  pitch := 3
  depth := 4
  w := 3
  h := 2
  frames := 1
  size := 0

/-- A bitmap of two rows with an odd number of pixels is saved and loaded. -/
theorem mgSaveBmp_loadsBack_packedBitmap :
    LoadsBack exampleRuntime packedBitmap emptyBitmap UInt8.ofNat (fun _ => ⟨1, 2, 3⟩)
      emptyPalette emptyBits
      (mgSaveBmp (fun _ => 0) packedBitmap UInt8.ofNat fun _ => ⟨1, 2, 3⟩) :=
  mgSaveBmp_loadsBack (Or.inl rfl) (by decide) (by decide) ⟨by decide, by decide⟩ (by decide)
    (fun _ _ => rfl) rfl

end Bpcp.MiniGUI
