import Bpcp.MiniGUI.BmpOffset

/-!
# The palette of Windows bitmaps

The number of colors that are read into the palette is the distance from the end of the
headers to where the file header says that the rows begin, divided by the size of a color. The
distance is an unsigned long and the number an int, and the number is not compared with the
256 entries that the palette has. Rows that begin in front of the end of the headers make the
distance wrap around: the number is then negative behind the headers of Windows, and large
behind those of OS/2, whose colors have three bytes.
-/

namespace Bpcp.MiniGUI

open Bpcp.Lib

/-- The number of entries of the array that callers pass as the palette. -/
def paletteEntries : Nat := 256

/-- The rows do not begin so far behind the headers that the colors in front of them would not
fit into the palette and, with the headers of OS/2, not in front of the end of the headers. -/
def PaletteFits (short : ShortRead) (fp : RWops) : Prop :=
  ∀ fileheader first, readBmfileheader short fp = (some fileheader, first) →
    let (size, second) := fpIgetl short first
    let biSize := toInt size.toNat
    (40 ≤ biSize → (readWinBminfoheader short second).1.biBitCount ≤ 8 →
      (fileheader.bfOffBits.toNat : Int) < biSize + 1042) ∧
    (biSize = 12 → (readOs2Bminfoheader short second).1.biBitCount ≤ 8 →
      26 ≤ fileheader.bfOffBits.toNat ∧ fileheader.bfOffBits.toNat < 797)

/-! ## Reading colors -/

variable {short : ShortRead} {winFlag : Bool} {pal : Buffer Rgb} {f : RWops} {index : Nat}

/-- The loop writes the colors one after the other, also behind the end of the stream. -/
theorem readBmicolorsLoop_written {ncols i : Nat} :
    index ∈ (readBmicolorsLoop winFlag ncols i pal f).1.written ↔
      index ∈ pal.written ∨ i ≤ index ∧ index < i + ncols := by
  induction ncols generalizing i pal f with
  | zero =>
    have none : ¬(i ≤ index ∧ index < i + 0) := by omega
    rw [readBmicolorsLoop]
    exact (or_iff_left none).symm
  | succ ncols ih =>
    have split : index = i ∨ i + 1 ≤ index ∧ index < i + 1 + ncols ↔
        i ≤ index ∧ index < i + (ncols + 1) := by omega
    simp only [readBmicolorsLoop]
    rw [ih, Buffer.set_written, List.mem_cons, ← split, or_assoc, or_left_comm]

/-- Into a palette with no writes, the colors are written to the indices below their number. -/
theorem readBmicolors_written {ncols : Int} {entries : Nat → Rgb} :
    index ∈ (readBmicolors ncols ⟨entries, []⟩ f winFlag).1.written ↔ (index : Int) < ncols := by
  rw [readBmicolors, readBmicolorsLoop_written, List.mem_nil_iff, false_or]
  omega

/-- The colors fit into the palette when there are at most as many as it has entries. -/
theorem readBmicolors_fits {ncols : Int} {entries : Nat → Rgb} :
    (∀ index ∈ (readBmicolors ncols ⟨entries, []⟩ f winFlag).1.written, index < paletteEntries) ↔
      ncols ≤ paletteEntries := by
  simp only [readBmicolors_written]
  constructor
  · intro below
    by_contra many
    exact absurd (below paletteEntries (not_le.1 many)) (lt_irrefl _)
  · intro few index inside
    exact Int.ofNat_lt.1 (lt_of_lt_of_le inside few)

/-! ## The number of colors -/

/-- Conversion to `int` reduces modulo the number of its values. -/
theorem toInt_eq (value : Nat) :
    toInt value =
      if value % 2 ^ 32 < 2 ^ 31 then (value % 2 ^ 32 : Int) else value % 2 ^ 32 - 2 ^ 32 := by
  have least : IntType.int32.least = -2 ^ 31 := rfl
  change IntType.int32.least + ((value : Int) - IntType.int32.least) % 2 ^ 32 = _
  rw [least]
  split <;> omega

/-- An `int` is less than its limit. -/
theorem toInt_lt (value : Nat) : toInt value < 2 ^ 31 := by
  rw [toInt_eq]
  split <;> omega

/-- Four bytes of a file are a word. -/
theorem fpIgetUlong_lt (short : ShortRead) (f : RWops) :
    (fpIgetUlong short f).1.toNat < 2 ^ 32 := by
  simp only [fpIgetUlong, UInt32.toNat_toUInt64]
  exact UInt32.toNat_lt _

/-- Where the rows begin is a word of the file. -/
theorem readBmfileheader_bfOffBits {fileheader : BitmapFileHeader} {first : RWops}
    (file : readBmfileheader short f = (some fileheader, first)) :
    fileheader.bfOffBits.toNat < 2 ^ 32 := by
  simp only [readBmfileheader, Prod.mk.injEq] at file
  obtain ⟨header, -⟩ := file
  split_ifs at header
  rw [← Option.some.inj header]
  exact fpIgetUlong_lt _ _

/-- The number of colors behind the headers of Windows. -/
theorem windowsColors_le {bfOffBits : UInt64} {biSize : Int} (word : bfOffBits.toNat < 2 ^ 32)
    (windows : 40 ≤ biSize) (int : biSize < 2 ^ 31) :
    toInt ((bfOffBits - ulongOfInt biSize - 14) / 4).toNat ≤ paletteEntries ↔
      (bfOffBits.toNat : Int) < biSize + 1042 := by
  obtain ⟨size, rfl⟩ := Int.eq_ofNat_of_zero_le (show 0 ≤ biSize by omega)
  have long : (ulongOfInt size).toNat = size := ulongOfInt_toNat (by omega)
  have gap : (14 : UInt64).toNat = 14 := rfl
  have color : (4 : UInt64).toNat = 4 := rfl
  rw [toInt_eq, UInt64.toNat_div, UInt64.toNat_sub, UInt64.toNat_sub, long, gap, color,
    paletteEntries]
  split <;> omega

/-- The number of colors behind the headers of OS/2. -/
theorem os2Colors_le {bfOffBits : UInt64} (word : bfOffBits.toNat < 2 ^ 32) :
    toInt ((bfOffBits - 26) / 3).toNat ≤ paletteEntries ↔
      26 ≤ bfOffBits.toNat ∧ bfOffBits.toNat < 797 := by
  have gap : (26 : UInt64).toNat = 26 := rfl
  have color : (3 : UInt64).toNat = 3 := rfl
  rw [toInt_eq, UInt64.toNat_div, UInt64.toNat_sub, gap, color, paletteEntries]
  split <;> omega

/-! ## Whole headers -/

/-- `__mg_init_bmp` writes to the entries of the palette only. -/
def PaletteBounded (rt : BmpRuntime) (fp : RWops) (bmp : MyBitmap) (entries : Nat → Rgb) : Prop :=
  ∀ result, mgInitBmp rt fp bmp ⟨entries, []⟩ = some result →
    ∀ index ∈ result.pal.written, index < paletteEntries

section Init

variable {rt : BmpRuntime} {fp first second third : RWops} {bmp : MyBitmap} {entries : Nat → Rgb}
  {fileheader : BitmapFileHeader} {size : UInt32} {infoheader : BitmapInfoHeader}

/-- The palette that is left decides. -/
theorem paletteBounded_of_init {biSize : Int} {rest : RWops} {pal : Buffer Rgb}
    (init : mgInitBmp rt fp bmp ⟨entries, []⟩ =
      some (initBitmap rt biSize infoheader rest bmp pal)) :
    PaletteBounded rt fp bmp entries ↔ ∀ index ∈ pal.written, index < paletteEntries := by
  constructor
  · intro bounded
    exact bounded _ init
  · intro inside result same
    rw [init] at same
    rw [← Option.some.inj same]
    exact inside

/-- Behind the headers of Windows the palette is bounded when the number of colors is. -/
theorem paletteBounded_windows (file : readBmfileheader rt.short fp = (some fileheader, first))
    (sized : fpIgetl rt.short first = (size, second)) (windows : 40 ≤ toInt size.toNat)
    (info : readWinBminfoheader rt.short second = (infoheader, third)) :
    PaletteBounded rt fp bmp entries ↔ (infoheader.biBitCount ≤ 8 →
      (fileheader.bfOffBits.toNat : Int) < toInt size.toNat + 1042) := by
  have init := mgInitBmp_of_windows bmp ⟨entries, []⟩ file sized windows info
  rw [← windowsColors_le (readBmfileheader_bfOffBits file) windows (toInt_lt _)]
  by_cases indexed : infoheader.biBitCount ≤ 8
  · simp only [if_pos indexed] at init
    rw [paletteBounded_of_init init, readBmicolors_fits, imp_iff_right indexed]
  · simp only [if_neg indexed] at init
    rw [paletteBounded_of_init init]
    exact ⟨fun _ few => absurd few indexed, fun _ index member => absurd member List.not_mem_nil⟩

/-- Behind the headers of OS/2 the palette is bounded when the number of colors is. -/
theorem paletteBounded_os2 (file : readBmfileheader rt.short fp = (some fileheader, first))
    (sized : fpIgetl rt.short first = (size, second)) (os2 : toInt size.toNat = 12)
    (info : readOs2Bminfoheader rt.short second = (infoheader, third)) :
    PaletteBounded rt fp bmp entries ↔ (infoheader.biBitCount ≤ 8 →
      26 ≤ fileheader.bfOffBits.toNat ∧ fileheader.bfOffBits.toNat < 797) := by
  have init := mgInitBmp_of_os2 bmp ⟨entries, []⟩ file sized os2 info
  rw [← os2Colors_le (readBmfileheader_bfOffBits file)]
  by_cases indexed : infoheader.biBitCount ≤ 8
  · simp only [if_pos indexed] at init
    rw [paletteBounded_of_init init, readBmicolors_fits, imp_iff_right indexed]
  · simp only [if_neg indexed] at init
    rw [paletteBounded_of_init init]
    exact ⟨fun _ few => absurd few indexed, fun _ index member => absurd member List.not_mem_nil⟩

end Init

/-- Loading the headers of a file writes to the entries of the palette only, exactly when the
rows begin where the colors in front of them fit. -/
theorem mgInitBmp_paletteBounded_iff (rt : BmpRuntime) (fp : RWops) (bmp : MyBitmap)
    (entries : Nat → Rgb) :
    PaletteBounded rt fp bmp entries ↔ PaletteFits rt.short fp := by
  obtain ⟨header, first, file⟩ : ∃ header first, readBmfileheader rt.short fp = (header, first) :=
    ⟨_, _, rfl⟩
  obtain ⟨size, second, sized⟩ : ∃ size second, fpIgetl rt.short first = (size, second) :=
    ⟨_, _, rfl⟩
  cases header with
  | none => simp [PaletteBounded, PaletteFits, mgInitBmp, file]
  | some fileheader =>
    have fits : PaletteFits rt.short fp ↔
        (40 ≤ toInt size.toNat → (readWinBminfoheader rt.short second).1.biBitCount ≤ 8 →
          (fileheader.bfOffBits.toNat : Int) < toInt size.toNat + 1042) ∧
        (toInt size.toNat = 12 → (readOs2Bminfoheader rt.short second).1.biBitCount ≤ 8 →
          26 ≤ fileheader.bfOffBits.toNat ∧ fileheader.bfOffBits.toNat < 797) := by
      constructor
      · intro all
        have here := all fileheader first file
        rwa [sized] at here
      · intro here other rest same
        obtain ⟨rfl, rfl⟩ : fileheader = other ∧ first = rest := by simpa using file.symm.trans same
        rwa [sized]
    rw [fits]
    by_cases windows : 40 ≤ toInt size.toNat
    · have large : toInt size.toNat ≠ 12 := by omega
      cases info : readWinBminfoheader rt.short second with
      | mk infoheader third =>
        rw [paletteBounded_windows file sized windows info]
        simp [windows, large]
    · by_cases os2 : toInt size.toNat = 12
      · cases info : readOs2Bminfoheader rt.short second with
        | mk infoheader third =>
          rw [paletteBounded_os2 file sized os2 info]
          simp [os2]
      · simp [PaletteBounded, mgInitBmp, file, sized, windows, os2]

/-- The headers of a bitmap with eight bits a pixel, whose rows begin behind 257 colors. -/
def overlongPaletteFile : List UInt8 :=
  [66, 77, 0, 0, 0, 0, 0, 0, 0, 0, 58, 4, 0, 0] ++
    [40, 0, 0, 0, 1, 0, 0, 0, 1, 0, 0, 0, 1, 0, 8, 0] ++ List.replicate 24 0

/-- The last of 257 colors is written behind the palette. -/
theorem mgInitBmp_overlongPalette :
    ¬PaletteBounded exampleRuntime ⟨0, overlongPaletteFile⟩ emptyBitmap fun _ => ⟨0, 0, 0⟩ := by
  have file : readBmfileheader exampleRuntime.short ⟨0, overlongPaletteFile⟩ =
      (some ⟨19778, 0, 0, 0, 1082⟩, streamAt overlongPaletteFile 14) := rfl
  have sized : fpIgetl exampleRuntime.short (streamAt overlongPaletteFile 14) =
      (40, streamAt overlongPaletteFile 18) := rfl
  have info : readWinBminfoheader exampleRuntime.short (streamAt overlongPaletteFile 18) =
      (⟨1, 1, 8, biRgb⟩, streamAt overlongPaletteFile 54) := rfl
  have size : toInt (40 : UInt32).toNat = 40 := toInt_of_lt (by decide)
  rw [paletteBounded_windows file sized (by rw [size]) info, size]
  decide

end Bpcp.MiniGUI
