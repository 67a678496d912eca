import Bpcp.Lib.MachineInt
import Bpcp.MiniGUI.Rle

/-!
# Loading Windows bitmaps

A bitmap file has a file header, an info header, a palette when a pixel has at most eight
bits, and the rows of pixels from the bottom up. The file header says where the rows begin,
but that number is only used to find the size of the palette: the rows are read from where
the stream is after the headers, the palette and the masks.
-/

namespace Bpcp.MiniGUI

open Bpcp.Lib

/-- `RGB`, the components that are stored in files. -/
structure Rgb where
  /-- `r`. -/
  r : UInt8
  /-- `g`. -/
  g : UInt8
  /-- `b`. -/
  b : UInt8
deriving DecidableEq

/-- `BITMAPFILEHEADER`. -/
structure BitmapFileHeader where
  /-- `bfType`. -/
  bfType : UInt16
  /-- `bfSize`. -/
  bfSize : UInt64
  /-- `bfReserved1`. -/
  bfReserved1 : UInt16
  /-- `bfReserved2`. -/
  bfReserved2 : UInt16
  /-- `bfOffBits`. -/
  bfOffBits : UInt64

/-- `BITMAPINFOHEADER`. -/
structure BitmapInfoHeader where
  /-- `biWidth`. -/
  biWidth : UInt64
  /-- `biHeight`. -/
  biHeight : UInt64
  /-- `biBitCount`. -/
  biBitCount : UInt16
  /-- `biCompression`. -/
  biCompression : UInt64

/-- `init_info_t`. -/
structure InitInfo extends BitmapInfoHeader where
  /-- `rmask`. -/
  rmask : UInt64
  /-- `gmask`. -/
  gmask : UInt64
  /-- `bmask`. -/
  bmask : UInt64

/-- The flags of `MYBITMAP` that the loader reads or sets. -/
structure MyBmpFlags where
  /-- `MYBMP_LOAD_ALLOCATE_ONE`. -/
  loadAllocateOne : Bool
  /-- `MYBMP_TYPE_BGR`. -/
  typeBgr : Bool
  /-- `MYBMP_FLOW_DOWN`. -/
  flowDown : Bool
  /-- `MYBMP_RGBSIZE_3`. -/
  rgbsize3 : Bool
  /-- `MYBMP_RGBSIZE_4`. -/
  rgbsize4 : Bool

/-- `MYBITMAP`, besides the pixels. -/
structure MyBitmap where
  /-- `flags`. -/
  flags : MyBmpFlags
  /-- `pitch`. -/
  pitch : Nat
  /-- `depth`. -/
  depth : Nat
  /-- `w`. -/
  w : Int
  /-- `h`. -/
  h : Int
  /-- `frames`. -/
  frames : Int
  /-- `size`. -/
  size : Int

/-- The functions from outside the repository that the loader uses. -/
structure BmpRuntime where
  /-- What reading functions do when too few bytes are left. -/
  short : ShortRead
  /-- `__mg_bmp_compute_pitch`, the pitch of rows of a depth and a width. -/
  mgBmpComputePitch : Nat → UInt64 → Nat

/-- Conversion to `int`. -/
def toInt (value : Nat) : Int := (IntType.int32.wrap value).1

/-- Numbers that an `int` holds are kept. -/
theorem toInt_of_lt {value : Nat} (small : value < 2 ^ 31) : toInt value = value := by
  have greatest : IntType.int32.greatest = 2 ^ 31 - 1 := rfl
  have least : IntType.int32.least = -2 ^ 31 := rfl
  apply IntType.wrap_val
  constructor <;> omega

/-- `fp_igetl`, stored in an `unsigned long`. -/
def fpIgetUlong (short : ShortRead) (f : RWops) : UInt64 × RWops :=
  let (value, f) := fpIgetl short f
  (value.toUInt64, f)

/-- `read_bmfileheader`, which gives no header when the magic number is missing. -/
def readBmfileheader (short : ShortRead) (f : RWops) : Option BitmapFileHeader × RWops :=
  let (bfType, f) := fpIgetw short f
  let (bfSize, f) := fpIgetUlong short f
  let (bfReserved1, f) := fpIgetw short f
  let (bfReserved2, f) := fpIgetw short f
  let (bfOffBits, f) := fpIgetUlong short f
  (if bfType ≠ 19778 then none
    else some ⟨bfType, bfSize, bfReserved1, bfReserved2, bfOffBits⟩, f)

/-- `read_win_bminfoheader`. -/
def readWinBminfoheader (short : ShortRead) (f : RWops) : BitmapInfoHeader × RWops :=
  let (biWidth, f) := fpIgetUlong short f
  let (biHeight, f) := fpIgetUlong short f
  let (_biPlanes, f) := fpIgetw short f
  let (biBitCount, f) := fpIgetw short f
  let (biCompression, f) := fpIgetUlong short f
  let (_biSizeImage, f) := fpIgetUlong short f
  let (_biXPelsPerMeter, f) := fpIgetUlong short f
  let (_biYPelsPerMeter, f) := fpIgetUlong short f
  let (_biClrUsed, f) := fpIgetUlong short f
  let (_biClrImportant, f) := fpIgetUlong short f
  (⟨biWidth, biHeight, biBitCount, biCompression⟩, f)

/-- `read_os2_bminfoheader`. -/
def readOs2Bminfoheader (short : ShortRead) (f : RWops) : BitmapInfoHeader × RWops :=
  let (biWidth, f) := fpIgetw short f
  let (biHeight, f) := fpIgetw short f
  let (_biPlanes, f) := fpIgetw short f
  let (biBitCount, f) := fpIgetw short f
  (⟨biWidth.toUInt64, biHeight.toUInt64, biBitCount, 0⟩, f)

/-- The loop of `read_bmicolors` from the index `i` on. -/
def readBmicolorsLoop (winFlag : Bool) : Nat → Nat → Buffer Rgb → RWops → Buffer Rgb × RWops
  | 0, _, pal, f => (pal, f)
  | ncols + 1, i, pal, f =>
    let (b, f) := fpGetc f
    let (g, f) := fpGetc f
    let (r, f) := fpGetc f
    let f := if winFlag then (fpGetc f).2 else f
    readBmicolorsLoop winFlag ncols (i + 1) (pal.set i ⟨r, g, b⟩) f

/-- `read_bmicolors`. -/
def readBmicolors (ncols : Int) (pal : Buffer Rgb) (f : RWops) (winFlag : Bool) :
    Buffer Rgb × RWops := readBmicolorsLoop winFlag ncols.toNat 0 pal f

/-- An `int` as an `unsigned long`. -/
def ulongOfInt (value : Int) : UInt64 := UInt64.ofInt value

/-- A number that an `int` holds is kept. -/
theorem ulongOfInt_toNat {value : Nat} (small : value < 2 ^ 31) :
    (ulongOfInt value).toNat = value := by
  have same : ((value : Int) % 2 ^ 64).toNat = value := by omega
  rw [ulongOfInt, UInt64.ofInt, same, UInt64.toNat_ofNat']
  omega

/-- What `__mg_init_bmp` returns and leaves. -/
structure InitResult where
  /-- The returned information. -/
  info : InitInfo
  /-- The stream. -/
  fp : RWops
  /-- The bitmap. -/
  bmp : MyBitmap
  /-- The palette. -/
  pal : Buffer Rgb

/-- The end of `__mg_init_bmp`. -/
def initBitmap (rt : BmpRuntime) (biSize : Int) (infoheader : BitmapInfoHeader) (fp : RWops)
    (bmp : MyBitmap) (pal : Buffer Rgb) : InitResult :=
  let effectDepth := if infoheader.biBitCount = 16 then 24 else infoheader.biBitCount.toNat
  { info := { infoheader with rmask := 0x001f, gmask := 0x03e0, bmask := 0x7c00 }
    fp := fp
    bmp :=
      { flags := { bmp.flags with typeBgr := true, flowDown := true }
        pitch := rt.mgBmpComputePitch effectDepth infoheader.biWidth
        depth := effectDepth
        w := toInt infoheader.biWidth.toNat
        h := toInt infoheader.biHeight.toNat
        frames := 1
        size := biSize }
    pal := pal }

/-- `__mg_init_bmp`, when the allocation of the information succeeds. -/
def mgInitBmp (rt : BmpRuntime) (fp : RWops) (bmp : MyBitmap) (pal : Buffer Rgb) :
    Option InitResult :=
  match readBmfileheader rt.short fp with
  | (none, _) => none
  | (some fileheader, fp) =>
    let (size, fp) := fpIgetl rt.short fp
    let biSize := toInt size.toNat
    if 40 ≤ biSize then
      let (infoheader, fp) := readWinBminfoheader rt.short fp
      let fp := fp.skip (biSize - 40).toNat
      let ncol := toInt ((fileheader.bfOffBits - ulongOfInt biSize - 14) / 4).toNat
      let (pal, fp) :=
        if infoheader.biBitCount ≤ 8 then readBmicolors ncol pal fp true else (pal, fp)
      some (initBitmap rt biSize infoheader fp bmp pal)
    else if biSize = 12 then
      let (infoheader, fp) := readOs2Bminfoheader rt.short fp
      let ncol := toInt ((fileheader.bfOffBits - 26) / 3).toNat
      let (pal, fp) :=
        if infoheader.biBitCount ≤ 8 then readBmicolors ncol pal fp false else (pal, fp)
      some (initBitmap rt biSize infoheader fp bmp pal)
    else none

/-- Rows of at most eight bits a pixel have a palette of the size that the file header leaves. -/
theorem mgInitBmp_of_windows {rt : BmpRuntime} {fp first second third : RWops} (bmp : MyBitmap)
    (pal : Buffer Rgb) {fileheader : BitmapFileHeader} {infoheader : BitmapInfoHeader}
    {size : UInt32} (file : readBmfileheader rt.short fp = (some fileheader, first))
    (sized : fpIgetl rt.short first = (size, second)) (windows : 40 ≤ toInt size.toNat)
    (info : readWinBminfoheader rt.short second = (infoheader, third)) :
    mgInitBmp rt fp bmp pal =
      let fp := third.skip (toInt size.toNat - 40).toNat
      let ncol := toInt ((fileheader.bfOffBits - ulongOfInt (toInt size.toNat) - 14) / 4).toNat
      let (pal, fp) :=
        if infoheader.biBitCount ≤ 8 then readBmicolors ncol pal fp true else (pal, fp)
      some (initBitmap rt (toInt size.toNat) infoheader fp bmp pal) := by
  simp only [mgInitBmp, file, sized, info, if_pos windows]

/-- Behind the header of OS/2 a color has three bytes. -/
theorem mgInitBmp_of_os2 {rt : BmpRuntime} {fp first second third : RWops} (bmp : MyBitmap)
    (pal : Buffer Rgb) {fileheader : BitmapFileHeader} {infoheader : BitmapInfoHeader}
    {size : UInt32} (file : readBmfileheader rt.short fp = (some fileheader, first))
    (sized : fpIgetl rt.short first = (size, second)) (os2 : toInt size.toNat = 12)
    (info : readOs2Bminfoheader rt.short second = (infoheader, third)) :
    mgInitBmp rt fp bmp pal =
      let ncol := toInt ((fileheader.bfOffBits - 26) / 3).toNat
      let (pal, fp) :=
        if infoheader.biBitCount ≤ 8 then readBmicolors ncol pal third false else (pal, third)
      some (initBitmap rt (toInt size.toNat) infoheader fp bmp pal) := by
  have small : ¬40 ≤ toInt size.toNat := by omega
  simp only [mgInitBmp, file, sized, info, if_neg small, if_pos os2]

/-- Behind the shortest Windows header nothing is skipped. -/
theorem mgInitBmp_of_shortest {rt : BmpRuntime} {fp first second third : RWops} {bmp : MyBitmap}
    {pal : Buffer Rgb} {fileheader : BitmapFileHeader} {infoheader : BitmapInfoHeader}
    (file : readBmfileheader rt.short fp = (some fileheader, first))
    (sized : fpIgetl rt.short first = (40, second))
    (info : readWinBminfoheader rt.short second = (infoheader, third)) :
    mgInitBmp rt fp bmp pal =
      let ncol := toInt ((fileheader.bfOffBits - 40 - 14) / 4).toNat
      let (pal, fp) :=
        if infoheader.biBitCount ≤ 8 then readBmicolors ncol pal third true else (pal, third)
      some (initBitmap rt 40 infoheader fp bmp pal) := by
  have size : toInt (40 : UInt32).toNat = 40 := toInt_of_lt (by decide)
  have nothing : third.skip (40 - 40 : Int).toNat = third := rfl
  have long : ulongOfInt 40 = 40 := rfl
  rw [mgInitBmp_of_windows bmp pal file sized (by rw [size]) info, size, nothing, long]

/-- A bitmap with a smaller header gets the size of the header of OS/2. -/
theorem mgInitBmp_size {rt : BmpRuntime} {fp first second : RWops} {bmp : MyBitmap}
    {pal : Buffer Rgb} {fileheader : BitmapFileHeader} {size : UInt32} {result : InitResult}
    (file : readBmfileheader rt.short fp = (some fileheader, first))
    (sized : fpIgetl rt.short first = (size, second))
    (init : mgInitBmp rt fp bmp pal = some result) : result.bmp.size = toInt size.toNat := by
  simp only [mgInitBmp, file, sized] at init
  split_ifs at init with large small
  all_goals
    rw [← Option.some.inj init]
    rfl

/-! ## Rows -/

/-- `BI_RGB`. -/
def biRgb : UInt64 := 0

/-- `BI_RLE8`. -/
def biRle8 : UInt64 := 1

/-- `BI_RLE4`. -/
def biRle4 : UInt64 := 2

/-- `BI_BITFIELDS`. -/
def biBitfields : UInt64 := 3

/-- The first statements of `__mg_load_bmp`: the masks are read, or flags are set, and nothing is
left for another compression. -/
def loadMasks (short : ShortRead) (fp : RWops) (info : InitInfo) (bmp : MyBitmap) :
    Option (RWops × InitInfo × MyBitmap) :=
  if info.biCompression = biBitfields then
    let (rmask, fp) := fpIgetUlong short fp
    let (gmask, fp) := fpIgetUlong short fp
    let (bmask, fp) := fpIgetUlong short fp
    some (fp, { info with rmask := rmask, gmask := gmask, bmask := bmask }, bmp)
  else if info.biCompression = biRgb then
    let flags :=
      if info.biBitCount = 16 then { bmp.flags with rgbsize3 := true }
      else if info.biBitCount = 32 then { bmp.flags with rgbsize4 := true }
      else { bmp.flags with rgbsize3 := true }
    some (fp, info, { bmp with flags := flags })
  else if info.biCompression = biRle8 ∨ info.biCompression = biRle4 then some (fp, info, bmp)
  else none

/-- The loop of `read_16bit_image`, where `line` is an index of the row. -/
def read16bitLoop (short : ShortRead) (gmask : UInt64) :
    Nat → Nat → RWops → Buffer UInt8 → RWops × Buffer UInt8
  | 0, _, f, bits => (f, bits)
  | count + 1, line, f, bits =>
    let (pixel, f) := fpIgetw short f
    let bits :=
      if gmask = 0x03e0 then
        ((bits.set (line + 2) ((pixel >>> 10 &&& 0x1f) <<< 3).toUInt8).set (line + 1)
          ((pixel >>> 5 &&& 0x1f) <<< 3).toUInt8).set line ((pixel &&& 0x1f) <<< 3).toUInt8
      else
        ((bits.set (line + 2) ((pixel >>> 11 &&& 0x1f) <<< 3).toUInt8).set (line + 1)
          ((pixel >>> 5 &&& 0x3f) <<< 2).toUInt8).set line ((pixel &&& 0x1f) <<< 3).toUInt8
    read16bitLoop short gmask count (line + 3) f bits

/-- `read_16bit_image`. -/
def read16bitImage (short : ShortRead) (f : RWops) (bits : Buffer UInt8) (width : Nat)
    (gmask : UInt64) : RWops × Buffer UInt8 :=
  let (f, bits) := read16bitLoop short gmask width 0 f bits
  if width % 2 = 1 then ((fpIgetw short f).2, bits) else (f, bits)

/-- The body of the loop of `__mg_load_bmp`: a row is read to an index of the pixels. -/
def loadRow (short : ShortRead) (info : InitInfo) (bmp : MyBitmap) (start : Nat) (fp : RWops)
    (bits : Buffer UInt8) : BmpFlag × RWops × Buffer UInt8 :=
  if info.biCompression = biBitfields ∨ info.biCompression = biRgb then
    if info.biBitCount = 16 then
      let (fp, row) := read16bitImage short fp (bits.window start) bmp.w.toNat info.gmask
      (.bmpLine, fp, bits.patch start row)
    else
      let (bytes, fp) := mguiRWread fp bmp.pitch
      (.bmpLine, fp, bits.store start bytes)
  else if info.biCompression = biRle8 then
    let s := readRLE8CompressedImage fp (bits.window start) bmp.w.toNat
    (s.flag, s.f, bits.patch start s.bits)
  else
    let s := readRLE4CompressedImage short fp (bits.window start) bmp.w.toNat
    (s.flag, s.f, bits.patch start s.bits)

/-- What `__mg_load_bmp` returns. -/
inductive BmpRet where
  /-- `ERR_BMP_OK`. -/
  | errBmpOk
  /-- `ERR_BMP_OTHER`. -/
  | errBmpOther
deriving DecidableEq

/-- The loop of `__mg_load_bmp` over a number of rows, the topmost of which is the first of the
pixels. -/
def loadRows (short : ShortRead) (info : InitInfo) (bmp : MyBitmap) (pitch : Nat) :
    Nat → RWops → Buffer UInt8 → BmpRet × RWops × Buffer UInt8
  | 0, fp, bits => (.errBmpOk, fp, bits)
  | i + 1, fp, bits =>
    let (flag, fp, bits) := loadRow short info bmp (i * pitch) fp bits
    match flag with
    | .bmpErr => (.errBmpOther, fp, bits)
    | .bmpEnd => (.errBmpOk, fp, bits)
    | .bmpLine => loadRows short info bmp pitch i fp bits

/-- `__mg_load_bmp` without a callback. -/
def mgLoadBmp (short : ShortRead) (fp : RWops) (info : InitInfo) (bmp : MyBitmap)
    (bits : Buffer UInt8) : BmpRet × RWops × Buffer UInt8 :=
  let pitch := if bmp.flags.loadAllocateOne then 0 else bmp.pitch
  match loadMasks short fp info bmp with
  | none => (.errBmpOther, fp, bits)
  | some (fp, info, bmp) => loadRows short info bmp pitch bmp.h.toNat fp bits

end Bpcp.MiniGUI
