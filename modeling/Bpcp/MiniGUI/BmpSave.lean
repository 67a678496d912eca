import Bpcp.MiniGUI.Bmp

/-!
# Saving Windows bitmaps

A bitmap is saved without compression: the headers, the palette when a pixel has four or eight
bits, and the rows from the bottom up. A row is put together in a buffer that holds the row
before it, and the buffer is as long as the rows in the file, which are padded.
-/

namespace Bpcp.MiniGUI

open Bpcp.Lib

/-- `WINBMPINFOHEADER`. -/
structure WinBmpInfoHeader extends BitmapInfoHeader where
  /-- `biSize`. -/
  biSize : UInt64
  /-- `biPlanes`. -/
  biPlanes : UInt16
  /-- `biSizeImage`. -/
  biSizeImage : UInt64
  /-- `biXPelsPerMeter`. -/
  biXPelsPerMeter : UInt64
  /-- `biYPelsPerMeter`. -/
  biYPelsPerMeter : UInt64
  /-- `biClrUsed`. -/
  biClrUsed : UInt64
  /-- `biClrImportant`. -/
  biClrImportant : UInt64

/-- The loop of `bmpGet16CScanline`, where `line` is an index of the scanline. -/
def bmpGet16CScanlineLoop (bits : Nat → UInt8) :
    Nat → Nat → Nat → Buffer UInt8 → Buffer UInt8
  | 0, _, _, scanline => scanline
  | count + 1, i, line, scanline =>
    if i % 2 = 0 then
      bmpGet16CScanlineLoop bits count (i + 1) line
        (scanline.set line ((bits i <<< 4) &&& 0xF0))
    else
      bmpGet16CScanlineLoop bits count (i + 1) (line + 1)
        (scanline.set line (scanline.read line ||| (bits i &&& 0x0F)))

/-- `bmpGet16CScanline`. -/
def bmpGet16CScanline (bits : Nat → UInt8) (scanline : Buffer UInt8) (pixels : Nat) :
    Buffer UInt8 := bmpGet16CScanlineLoop bits pixels 0 0 scanline

/-- `bmpGet256CScanline`. -/
def bmpGet256CScanline (bits : Nat → UInt8) (scanline : Buffer UInt8) (pixels : Nat) :
    Buffer UInt8 := scanline.store 0 ((List.range pixels).map bits)

/-- `pixel2rgb`, which keeps the color for other depths. -/
def pixel2rgb (pixel : UInt32) (color : Rgb) (depth : Nat) : Rgb :=
  if depth = 24 ∨ depth = 32 then
    { r := (pixel >>> 16 &&& 0xFF).toUInt8
      g := (pixel >>> 8 &&& 0xFF).toUInt8
      b := (pixel &&& 0xFF).toUInt8 }
  else if depth = 15 then
    { r := ((pixel &&& 0x7C00) >>> 7).toUInt8 ||| 0x07
      g := ((pixel &&& 0x03E0) >>> 2).toUInt8 ||| 0x07
      b := ((pixel &&& 0x001F) <<< 3).toUInt8 ||| 0x07 }
  else if depth = 16 then
    { r := ((pixel &&& 0xF800) >>> 8).toUInt8 ||| 0x07
      g := ((pixel &&& 0x07E0) >>> 3).toUInt8 ||| 0x03
      b := ((pixel &&& 0x001F) <<< 3).toUInt8 ||| 0x07 }
  else color

/-- A `gal_pixel` of four bytes that is read from an index of the pixels. -/
def galPixelAt (bits : Nat → UInt8) (index : Nat) : UInt32 :=
  UInt32.ofNat (ofLeBytes [bits index, bits (index + 1), bits (index + 2), bits (index + 3)])

/-- The loop of `bmpGetHighCScanline`, where `start` and `line` are indices of the pixels and of
the scanline. -/
def bmpGetHighCScanlineLoop (bits : Nat → UInt8) (bpp depth : Nat) :
    Nat → Nat → Nat → Rgb → Buffer UInt8 → Buffer UInt8
  | 0, _, _, _, scanline => scanline
  | count + 1, start, line, color, scanline =>
    let color := pixel2rgb (galPixelAt bits start) color depth
    bmpGetHighCScanlineLoop bits bpp depth count (start + bpp) (line + 3) color
      (((scanline.set line color.b).set (line + 1) color.g).set (line + 2) color.r)

/-- `bmpGetHighCScanline`. -/
def bmpGetHighCScanline (bits : Nat → UInt8) (scanline : Buffer UInt8) (pixels bpp depth : Nat) :
    Buffer UInt8 := bmpGetHighCScanlineLoop bits bpp depth pixels 0 0 ⟨0, 0, 0⟩ scanline

/-- `depth2bpp`. -/
def depth2bpp (depth : Nat) : Nat :=
  if depth = 4 ∨ depth = 8 then 1
  else if depth = 15 ∨ depth = 16 then 2
  else if depth = 24 then 3
  else if depth = 32 then 4
  else 1

/-- `SIZEOF_RGBQUAD`. -/
def sizeofRgbquad : UInt64 := 4

/-- `SIZEOF_BMFH`. -/
def sizeofBmfh : UInt64 := 14

/-- `SIZEOF_BMIH`. -/
def sizeofBmih : UInt64 := 40

/-- The bytes of a file header, two or four for each field. -/
def fileheaderBytes (bmfh : BitmapFileHeader) : List UInt8 :=
  leBytes 2 bmfh.bfType.toNat ++ (leBytes 4 bmfh.bfSize.toNat ++
    (leBytes 2 bmfh.bfReserved1.toNat ++ (leBytes 2 bmfh.bfReserved2.toNat ++
      leBytes 4 bmfh.bfOffBits.toNat)))

/-- The bytes of an info header, two or four for each field. -/
def infoheaderBytes (bmih : WinBmpInfoHeader) : List UInt8 :=
  leBytes 4 bmih.biSize.toNat ++ (leBytes 4 bmih.biWidth.toNat ++
    (leBytes 4 bmih.biHeight.toNat ++ (leBytes 2 bmih.biPlanes.toNat ++
      (leBytes 2 bmih.biBitCount.toNat ++ (leBytes 4 bmih.biCompression.toNat ++
        (leBytes 4 bmih.biSizeImage.toNat ++ (leBytes 4 bmih.biXPelsPerMeter.toNat ++
          (leBytes 4 bmih.biYPelsPerMeter.toNat ++ (leBytes 4 bmih.biClrUsed.toNat ++
            leBytes 4 bmih.biClrImportant.toNat)))))))))

/-- The bytes of the palette from the index `i` on. The reserved byte of an entry is not
initialized. -/
def paletteBytes (pal : Nat → Rgb) (reserved : Nat → UInt8) : Nat → Nat → List UInt8
  | 0, _ => []
  | count + 1, i =>
    [(pal i).b, (pal i).g, (pal i).r, reserved i] ++ paletteBytes pal reserved count (i + 1)

/-- The loop of `__mg_save_bmp` over a number of rows, the topmost of which is the first of the
pixels. -/
def saveRows (scanlineOf : (Nat → UInt8) → Buffer UInt8 → Buffer UInt8) (bits : Nat → UInt8)
    (pitch scanlinebytes : Nat) : Nat → Buffer UInt8 → List UInt8
  | 0, _ => []
  | i + 1, scanline =>
    let scanline := scanlineOf (fun index => bits (i * pitch + index)) scanline
    (List.range scanlinebytes).map scanline.read ++
      saveRows scanlineOf bits pitch scanlinebytes i scanline

/-- `scanlinebytes`, the bytes of a row padded to words of four bytes. -/
def scanlineBytes (bytes : UInt64) : Int := (toInt bytes.toNat + 3) / 4 * 4

/-- A scanline that was cleared. -/
def clearScanline : Buffer UInt8 := ⟨fun _ => 0, []⟩

/-- The headers that `__mg_save_bmp` fills in, for a number of colors in the palette. Conversions
that keep the four bytes that are written are left out. -/
def saveHeaders (bmp : MyBitmap) (biBitCount : UInt16) (colors : UInt64) (scanlinebytes : Int) :
    BitmapFileHeader × WinBmpInfoHeader :=
  let biWidth := ulongOfInt bmp.w
  let biHeight := ulongOfInt bmp.h
  let biSizeImage := biHeight * ulongOfInt scanlinebytes
  let bfOffBits := sizeofBmfh + sizeofBmih + sizeofRgbquad * colors
  (⟨19778, bfOffBits + biSizeImage, 0, 0, bfOffBits⟩,
    { biWidth := biWidth
      biHeight := biHeight
      biBitCount := biBitCount
      biCompression := biRgb
      biSize := 40
      biPlanes := 1
      biSizeImage := biSizeImage
      biXPelsPerMeter := 0
      biYPelsPerMeter := 0
      biClrUsed := colors
      biClrImportant := colors })

/-- `__mg_save_bmp`, what it writes when the allocation of the scanline succeeds. -/
def mgSaveBmp (reserved : Nat → UInt8) (bmp : MyBitmap) (bits : Nat → UInt8) (pal : Nat → Rgb) :
    List UInt8 :=
  let biWidth := ulongOfInt bmp.w
  let bpp := depth2bpp bmp.depth
  if bmp.depth = 4 then
    let scanlinebytes := scanlineBytes ((biWidth + 1) >>> 1)
    let (bmfh, bmih) := saveHeaders bmp 4 16 scanlinebytes
    fileheaderBytes bmfh ++ infoheaderBytes bmih ++ paletteBytes pal reserved 16 0 ++
      saveRows (fun bits scanline => bmpGet16CScanline bits scanline bmp.w.toNat) bits bmp.pitch
        scanlinebytes.toNat bmp.h.toNat clearScanline
  else if bmp.depth = 8 then
    let scanlinebytes := scanlineBytes biWidth
    let (bmfh, bmih) := saveHeaders bmp 8 256 scanlinebytes
    fileheaderBytes bmfh ++ infoheaderBytes bmih ++ paletteBytes pal reserved 256 0 ++
      saveRows (fun bits scanline => bmpGet256CScanline bits scanline bmp.w.toNat) bits bmp.pitch
        scanlinebytes.toNat bmp.h.toNat clearScanline
  else
    let scanlinebytes := scanlineBytes (biWidth * 3)
    let (bmfh, bmih) := saveHeaders bmp 24 0 scanlinebytes
    fileheaderBytes bmfh ++ infoheaderBytes bmih ++
      saveRows (fun bits scanline => bmpGetHighCScanline bits scanline bmp.w.toNat bpp bmp.depth)
        bits bmp.pitch scanlinebytes.toNat bmp.h.toNat clearScanline

end Bpcp.MiniGUI
