import Bpcp.MiniGUI.BmpSave

/-!
# Headers and palettes that are read as they were written

Each reader reads the bytes of the corresponding writer in front of any others: words, the two
headers and the palette. So what is saved in front of the rows is accepted.
-/

namespace Bpcp.MiniGUI

open Bpcp.Lib

variable {rt : BmpRuntime} {short : ShortRead} {rest : List UInt8} {here : Nat}

/-- A word of two bytes that was written is read. -/
theorem fpIgetw_leBytes (word : UInt16) :
    fpIgetw short ⟨here, leBytes 2 word.toNat ++ rest⟩ = (word, ⟨here + 2, rest⟩) := by
  have read : readLe short 2 ⟨here, leBytes 2 word.toNat ++ rest⟩ =
      (ofLeBytes (leBytes 2 word.toNat), ⟨here + 2, rest⟩) := readLe_append (leBytes_length 2 _)
  have fits : word.toNat < 256 ^ 2 := word.toNat_lt
  have present : ¬(leBytes 2 word.toNat ++ rest = []) := List.cons_ne_nil _ _
  simp only [fpIgetw, if_neg present, read, ofLeBytes_leBytes]
  rw [Nat.mod_eq_of_lt fits, UInt16.ofNat_toNat]

/-- A word of four bytes that was written is read. -/
theorem fpIgetl_leBytes (value : Nat) :
    fpIgetl short ⟨here, leBytes 4 value ++ rest⟩ = (UInt32.ofNat value, ⟨here + 4, rest⟩) := by
  have read : readLe short 4 ⟨here, leBytes 4 value ++ rest⟩ =
      (ofLeBytes (leBytes 4 value), ⟨here + 4, rest⟩) := readLe_append (leBytes_length 4 _)
  have low : UInt32.ofNat (value % 256 ^ 4) = UInt32.ofNat value := by
    apply UInt32.toNat_inj.1
    simp
  simp only [fpIgetl, read, ofLeBytes_leBytes, low]

/-- The low half of a number that was written is read into an `unsigned long`. -/
theorem fpIgetUlong_leBytes (value : Nat) :
    fpIgetUlong short ⟨here, leBytes 4 value ++ rest⟩ =
      ((UInt32.ofNat value).toUInt64, ⟨here + 4, rest⟩) := by
  simp only [fpIgetUlong, fpIgetl_leBytes]

/-- The low half of a number that it holds is the number. -/
theorem toUInt64_ofNat {value : UInt64} (small : value.toNat < 2 ^ 32) :
    (UInt32.ofNat value.toNat).toUInt64 = value := by
  apply UInt64.toNat_inj.1
  rw [UInt32.toNat_toUInt64, UInt32.toNat_ofNat']
  exact Nat.mod_eq_of_lt small

/-- The file header is read. -/
theorem readBmfileheader_fileheaderBytes {bmfh : BitmapFileHeader} (magic : bmfh.bfType = 19778)
    (size : bmfh.bfSize.toNat < 2 ^ 32) (offBits : bmfh.bfOffBits.toNat < 2 ^ 32) :
    readBmfileheader short ⟨here, fileheaderBytes bmfh ++ rest⟩ =
      (some bmfh, ⟨here + 14, rest⟩) := by
  have known : ¬bmfh.bfType ≠ 19778 := not_not.2 magic
  simp only [readBmfileheader, fileheaderBytes, List.append_assoc, fpIgetw_leBytes,
    fpIgetUlong_leBytes, toUInt64_ofNat size, toUInt64_ofNat offBits, if_neg known]

/-- The info header is read, first its size and then the rest. -/
theorem readWinBminfoheader_infoheaderBytes (short : ShortRead) (here : Nat) (rest : List UInt8)
    {bmih : WinBmpInfoHeader} (size : bmih.biSize = 40)
    (width : bmih.biWidth.toNat < 2 ^ 32) (height : bmih.biHeight.toNat < 2 ^ 32)
    (compression : bmih.biCompression.toNat < 2 ^ 32) :
    ∃ second, fpIgetl short ⟨here, infoheaderBytes bmih ++ rest⟩ = (40, second) ∧
      readWinBminfoheader short second = (bmih.toBitmapInfoHeader, ⟨here + 40, rest⟩) := by
  rw [infoheaderBytes, List.append_assoc, fpIgetl_leBytes, size]
  refine ⟨_, rfl, ?_⟩
  simp only [readWinBminfoheader, List.append_assoc, fpIgetw_leBytes, fpIgetUlong_leBytes,
    toUInt64_ofNat width, toUInt64_ofNat height, toUInt64_ofNat compression]

/-! ## The palette -/

/-- The colors that were written are read to their places, and others are kept. -/
theorem readBmicolorsLoop_paletteBytes (colors : Nat → Rgb) (reserved : Nat → UInt8)
    (rest : List UInt8) (count i here : Nat) (pal : Buffer Rgb) :
    ∃ loaded, readBmicolorsLoop true count i pal
        ⟨here, paletteBytes colors reserved count i ++ rest⟩ =
        (loaded, ⟨here + 4 * count, rest⟩) ∧
      (∀ index < i, loaded.read index = pal.read index) ∧
      ∀ index, i ≤ index → index < i + count → loaded.read index = colors index := by
  induction count generalizing i here pal with
  | zero => exact ⟨pal, rfl, fun _ _ => rfl, fun index first last => by omega⟩
  | succ count ih =>
    obtain ⟨loaded, read, kept, found⟩ :=
      ih (i + 1) (here + 1 + 1 + 1 + 1) (pal.set i (colors i))
    refine ⟨loaded, ?_, fun index before => ?_, fun index first last => ?_⟩
    · have place : here + 1 + 1 + 1 + 1 + 4 * count = here + 4 * (count + 1) := by omega
      rw [← place, ← read]
      rfl
    · rw [kept index (by omega), Buffer.set_read_of_ne _ (by omega)]
    · by_cases same : index = i
      · rw [same, kept i (by omega), Buffer.set_read_self]
      · exact found index (by omega) (by omega)

/-! ## Saved headers -/

/-- How many colors a file of a depth has. -/
def paletteColors (depth : Nat) : Nat :=
  if depth = 4 then 16 else if depth = 8 then 256 else 0

/-- The number of bytes of a file with a number of colors, rows and bytes in a row. -/
def fileSize (colors rows rowBytes : Nat) : Nat := 54 + 4 * colors + rows * rowBytes

section Headers

variable (saved : MyBitmap) (biBitCount : UInt16) {h colors rowBytes : Nat}

/-- The rows begin behind the headers and the palette. -/
theorem saveHeaders_bfOffBits (few : colors ≤ 256) :
    (saveHeaders saved biBitCount (UInt64.ofNat colors) rowBytes).1.bfOffBits.toNat =
      54 + 4 * colors := by
  have fixed : (sizeofBmfh + sizeofBmih).toNat = 54 := rfl
  have quad : sizeofRgbquad.toNat = 4 := rfl
  simp only [saveHeaders]
  rw [UInt64.toNat_add, UInt64.toNat_mul, UInt64.toNat_ofNat', fixed, quad]
  omega

/-- The file ends behind the rows. -/
theorem saveHeaders_bfSize (height : saved.h = h) (high : h < 2 ^ 31) (long : rowBytes < 2 ^ 31)
    (few : colors ≤ 256) (small : fileSize colors h rowBytes < 2 ^ 31) :
    (saveHeaders saved biBitCount (UInt64.ofNat colors) rowBytes).1.bfSize.toNat =
      fileSize colors h rowBytes := by
  have offBits : (saveHeaders saved biBitCount (UInt64.ofNat colors)
      rowBytes).1.bfOffBits.toNat = 54 + 4 * colors := saveHeaders_bfOffBits saved biBitCount few
  rw [fileSize] at small
  have rows : (ulongOfInt saved.h * ulongOfInt (rowBytes : Int)).toNat = h * rowBytes := by
    rw [UInt64.toNat_mul, height, ulongOfInt_toNat high, ulongOfInt_toNat long]
    omega
  simp only [saveHeaders] at offBits ⊢
  rw [UInt64.toNat_add, offBits, rows, fileSize]
  omega

/-- The colors are counted from the place of the rows. -/
theorem saveHeaders_ncol (few : colors ≤ 256) :
    toInt (((saveHeaders saved biBitCount (UInt64.ofNat colors) rowBytes).1.bfOffBits - 40 - 14) /
      4).toNat = colors := by
  have offBits : (saveHeaders saved biBitCount (UInt64.ofNat colors)
      rowBytes).1.bfOffBits.toNat = 54 + 4 * colors := saveHeaders_bfOffBits saved biBitCount few
  generalize (saveHeaders saved biBitCount (UInt64.ofNat colors) rowBytes).1.bfOffBits = place
    at offBits
  have forty : (40 : UInt64).toNat = 40 := rfl
  have fourteen : (14 : UInt64).toNat = 14 := rfl
  have four : (4 : UInt64).toNat = 4 := rfl
  have count : ((place - 40 - 14) / 4).toNat = colors := by
    rw [UInt64.toNat_div, UInt64.toNat_sub, UInt64.toNat_sub, offBits, forty, fourteen, four]
    omega
  rw [count]
  exact toInt_of_lt (by omega)

end Headers

/-- Headers for a number of colors that are read as they were written. -/
structure Readable (bmfh : BitmapFileHeader) (bmih : WinBmpInfoHeader) (colors : Nat) : Prop where
  /-- The magic number is there. -/
  bfType : bmfh.bfType = 19778
  /-- The size of the file fits. -/
  bfSize : bmfh.bfSize.toNat < 2 ^ 32
  /-- The place of the rows fits. -/
  bfOffBits : bmfh.bfOffBits.toNat < 2 ^ 32
  /-- The size is that of the shortest Windows header. -/
  biSize : bmih.biSize = 40
  /-- The width fits. -/
  biWidth : bmih.biWidth.toNat < 2 ^ 32
  /-- The height fits. -/
  biHeight : bmih.biHeight.toNat < 2 ^ 32
  /-- The compression fits. -/
  biCompression : bmih.biCompression.toNat < 2 ^ 32
  /-- The place of the rows counts the colors. -/
  ncol : toInt ((bmfh.bfOffBits - 40 - 14) / 4).toNat = colors
  /-- Pixels of more than eight bits have no colors. -/
  colored : bmih.biBitCount ≤ 8 ∨ colors = 0

/-- Readable headers are accepted with the palette behind them. -/
theorem mgInitBmp_readable (rt : BmpRuntime) {bmfh : BitmapFileHeader} {bmih : WinBmpInfoHeader}
    {colors : Nat} (palette : Nat → Rgb) (reserved : Nat → UInt8)
    (readable : Readable bmfh bmih colors)
    (fresh : MyBitmap) (pal : Buffer Rgb) (rows : List UInt8) :
    ∃ loaded,
      mgInitBmp rt ⟨0, fileheaderBytes bmfh ++ (infoheaderBytes bmih ++
          (paletteBytes palette reserved colors 0 ++ rows))⟩ fresh pal =
        some (initBitmap rt 40 bmih.toBitmapInfoHeader ⟨54 + 4 * colors, rows⟩ fresh loaded) ∧
      ∀ index < colors, loaded.read index = palette index := by
  have file : readBmfileheader rt.short ⟨0, fileheaderBytes bmfh ++ (infoheaderBytes bmih ++
      (paletteBytes palette reserved colors 0 ++ rows))⟩ = (some bmfh, ⟨0 + 14, _⟩) :=
    readBmfileheader_fileheaderBytes readable.bfType readable.bfSize readable.bfOffBits
  obtain ⟨second, sized, info⟩ := readWinBminfoheader_infoheaderBytes rt.short (0 + 14)
    (paletteBytes palette reserved colors 0 ++ rows) readable.biSize readable.biWidth
    readable.biHeight readable.biCompression
  rw [mgInitBmp_of_shortest file sized info, readable.ncol]
  dsimp only
  by_cases shallow : bmih.biBitCount ≤ 8
  · obtain ⟨loaded, read, -, found⟩ := readBmicolorsLoop_paletteBytes palette reserved rows
      colors 0 (0 + 14 + 40) pal
    refine ⟨loaded, ?_, fun index below => found index (Nat.zero_le _) (by omega)⟩
    rw [if_pos shallow, readBmicolors, Int.toNat_natCast, read]
  · have none : colors = 0 := readable.colored.resolve_left shallow
    subst none
    rw [if_neg shallow]
    exact ⟨pal, rfl, fun index below => absurd below (Nat.not_lt_zero _)⟩

/-- The headers of a bitmap that is not too large are readable. -/
theorem saveHeaders_readable {saved : MyBitmap} {biBitCount : UInt16} {w h colors rowBytes : Nat}
    (width : saved.w = w) (wide : w < 2 ^ 31) (height : saved.h = h) (high : h < 2 ^ 31)
    (long : rowBytes < 2 ^ 31) (few : colors ≤ 256) (small : fileSize colors h rowBytes < 2 ^ 31)
    (colored : biBitCount ≤ 8 ∨ colors = 0) :
    Readable (saveHeaders saved biBitCount (UInt64.ofNat colors) rowBytes).1
      (saveHeaders saved biBitCount (UInt64.ofNat colors) rowBytes).2 colors where
  bfType := rfl
  bfSize := by
    rw [saveHeaders_bfSize saved biBitCount height high long few small]
    omega
  bfOffBits := by
    rw [saveHeaders_bfOffBits saved biBitCount few]
    omega
  biSize := rfl
  biWidth := by
    change (ulongOfInt saved.w).toNat < 2 ^ 32
    rw [width, ulongOfInt_toNat wide]
    omega
  biHeight := by
    change (ulongOfInt saved.h).toNat < 2 ^ 32
    rw [height, ulongOfInt_toNat high]
    omega
  biCompression := by
    change biRgb.toNat < 2 ^ 32
    decide
  ncol := saveHeaders_ncol saved biBitCount few
  colored := colored

/-- The bitmap that is found has the size and the depth that the header says. -/
theorem initBitmap_bmp {infoheader : BitmapInfoHeader} (fresh : MyBitmap) {depth w h : Nat}
    (width : infoheader.biWidth.toNat = w) (wide : w < 2 ^ 31)
    (height : infoheader.biHeight.toNat = h) (high : h < 2 ^ 31)
    (count : infoheader.biBitCount.toNat = depth) (notSixteen : ¬infoheader.biBitCount = 16)
    (pitch : ∀ depth width,
      rt.mgBmpComputePitch depth width = rowPitch ((width.toNat * depth + 7) / 8))
    (fp : RWops) (pal : Buffer Rgb) :
    (initBitmap rt 40 infoheader fp fresh pal).bmp.w = w ∧
      (initBitmap rt 40 infoheader fp fresh pal).bmp.h = h ∧
      (initBitmap rt 40 infoheader fp fresh pal).bmp.depth = depth ∧
      (initBitmap rt 40 infoheader fp fresh pal).bmp.pitch = rowPitch ((w * depth + 7) / 8) := by
  have effect : (if infoheader.biBitCount = 16 then 24 else infoheader.biBitCount.toNat) =
      depth := by
    rw [if_neg notSixteen, count]
  rw [initBitmap]
  refine ⟨?_, ?_, effect, ?_⟩
  · rw [width]
    exact toInt_of_lt wide
  · rw [height]
    exact toInt_of_lt high
  · rw [effect, pitch, width]

end Bpcp.MiniGUI
