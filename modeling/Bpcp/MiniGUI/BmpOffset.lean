import Bpcp.MiniGUI.Bmp

/-!
# Where the rows are read from

The loader reads the rows of a bitmap of more than eight bits a pixel from behind the info
header, or behind the masks that it reads there when the compression asks for them. The file
header may say otherwise: there may be a gap in front of the rows, and longer info headers
have the masks inside.
-/

namespace Bpcp.MiniGUI

open Bpcp.Lib

variable {rt : BmpRuntime} {short : ShortRead} {data : List UInt8} {bmp : MyBitmap}
  {pal : Buffer Rgb} {result : InitResult}

/-- The field `bfOffBits` of a file. -/
def bfOffBits (data : List UInt8) : Nat := ofLeBytes ((data.drop 10).take 4)

/-- A word of four bytes inside a file is read into an `unsigned long`. -/
theorem streamAt_fpIgetUlong {pos : Nat} (inside : pos + 4 ≤ data.length) :
    fpIgetUlong short (streamAt data pos) =
      ((UInt32.ofNat (ofLeBytes ((data.drop pos).take 4))).toUInt64, streamAt data (pos + 4)) := by
  simp only [fpIgetUlong, streamAt_fpIgetl inside]

/-- The file header takes fourteen bytes. -/
theorem readBmfileheader_streamAt (enough : 14 ≤ data.length) :
    (readBmfileheader short (streamAt data 0)).2 = streamAt data 14 := by
  simp (disch := omega) only [readBmfileheader, streamAt_fpIgetw, streamAt_fpIgetUlong]

/-- The info header takes forty bytes with its size. -/
theorem readWinBminfoheader_streamAt {pos : Nat} (enough : pos + 36 ≤ data.length) :
    (readWinBminfoheader short (streamAt data pos)).2 = streamAt data (pos + 36) := by
  simp (disch := omega) only [readWinBminfoheader, streamAt_fpIgetw, streamAt_fpIgetUlong]

/-- A file with a Windows header that is not cut off is read up to the end of the header. -/
theorem mgInitBmp_stream (init : mgInitBmp rt ⟨0, data⟩ bmp pal = some result)
    (windows : 40 ≤ result.bmp.size) (deep : ¬result.info.biBitCount ≤ 8)
    (enough : 14 + result.bmp.size.toNat ≤ data.length) :
    result.fp = streamAt data (14 + result.bmp.size.toNat) := by
  have header : (readBmfileheader rt.short (streamAt data 0)).2 = streamAt data 14 :=
    readBmfileheader_streamAt (by omega)
  have start : (⟨0, data⟩ : RWops) = streamAt data 0 := rfl
  rw [start] at init
  cases file : readBmfileheader rt.short (streamAt data 0) with
  | mk fileheader fp =>
    rw [file] at header
    dsimp only at header
    subst header
    cases fileheader with
    | none =>
      rw [mgInitBmp, file] at init
      exact absurd init (Option.some_ne_none _).symm
    | some fileheader =>
      have sized : fpIgetl rt.short (streamAt data 14) =
          (UInt32.ofNat (ofLeBytes ((data.drop 14).take 4)), streamAt data 18) :=
        streamAt_fpIgetl (by omega)
      have size := mgInitBmp_size file sized init
      have behind : (readWinBminfoheader rt.short (streamAt data 18)).2 = streamAt data 54 :=
        readWinBminfoheader_streamAt (by omega)
      cases info : readWinBminfoheader rt.short (streamAt data 18) with
      | mk infoheader fp =>
        rw [info] at behind
        dsimp only at behind
        subst behind
        rw [mgInitBmp_of_windows _ _ file sized (by rw [← size]; exact windows) info,
          ← size] at init
        dsimp only at init
        split_ifs at init with shallow
        · rw [← Option.some.inj init] at deep
          exact absurd shallow deep
        · have place : 54 + (result.bmp.size - 40).toNat = 14 + result.bmp.size.toNat := by omega
          have moved : (streamAt data 54).skip (result.bmp.size - 40).toNat =
              streamAt data (54 + (result.bmp.size - 40).toNat) := streamAt_skip (by omega)
          have left := congrArg InitResult.fp (Option.some.inj init)
          rw [← left, ← place, ← moved]
          rfl

/-- A word that is read into an `unsigned long` moves the position by the bytes it takes. -/
theorem fpIgetUlong_streamAt {pos : Nat} (inside : pos ≤ data.length) :
    (fpIgetUlong short (streamAt data pos)).2 =
      streamAt data (pos + takenBytes short 4 (data.length - pos)) := by
  rw [← readLe_streamAt inside]
  rfl

/-- How many bytes the masks take when some are left: twelve when there are as many. -/
def maskBytes (short : ShortRead) (left : Nat) : Nat :=
  let first := takenBytes short 4 left
  let second := takenBytes short 4 (left - first)
  first + second + takenBytes short 4 (left - first - second)

/-- How many bytes are read between the info header and the rows. -/
def masksBefore (short : ShortRead) (info : InitInfo) (left : Nat) : Nat :=
  if info.biCompression = biBitfields then maskBytes short left else 0

/-- Three words are read behind each other. -/
theorem fpIgetUlong_three {pos : Nat} (inside : pos ≤ data.length) :
    (fpIgetUlong short (fpIgetUlong short (fpIgetUlong short (streamAt data pos)).2).2).2 =
      streamAt data (pos + maskBytes short (data.length - pos)) := by
  have first := takenBytes_le short 4 (data.length - pos)
  rw [fpIgetUlong_streamAt inside, maskBytes]
  generalize takenBytes short 4 (data.length - pos) = taken at first
  have left : data.length - (pos + taken) = data.length - pos - taken := by omega
  have second := takenBytes_le short 4 (data.length - pos - taken)
  rw [fpIgetUlong_streamAt (by omega), left]
  generalize takenBytes short 4 (data.length - pos - taken) = more at second
  have rest : data.length - (pos + taken + more) = data.length - pos - taken - more := by omega
  rw [fpIgetUlong_streamAt (by omega), rest]
  simp only [Nat.add_assoc]

/-- The masks are read from where the stream is. -/
theorem loadMasks_streamAt (short : ShortRead) (bmp : MyBitmap) {info : InitInfo} {pos : Nat}
    (inside : pos ≤ data.length)
    (plain : info.biCompression = biRgb ∨ info.biCompression = biBitfields) :
    ∃ masked loaded, loadMasks short (streamAt data pos) info bmp =
      some (streamAt data (pos + masksBefore short info (data.length - pos)), masked, loaded) := by
  by_cases masks : info.biCompression = biBitfields
  · have behind : (fpIgetUlong short (fpIgetUlong short (fpIgetUlong short
        (streamAt data pos)).2).2).2 = streamAt data (pos + maskBytes short (data.length - pos)) :=
      fpIgetUlong_three inside
    rw [loadMasks, if_pos masks, masksBefore, if_pos masks, ← behind]
    exact ⟨_, _, rfl⟩
  · have none : info.biCompression = biRgb := plain.resolve_right masks
    rw [loadMasks, if_neg masks, if_pos none, masksBefore, if_neg masks]
    exact ⟨_, _, rfl⟩

/-- Positions inside a file are different streams. -/
theorem streamAt_inj {first second : Nat} :
    streamAt data first = streamAt data second ↔ first = second := by
  constructor
  · intro same
    exact congrArg RWops.here same
  · intro same
    rw [same]

/-- The rows of a file with a Windows header and without a palette, in which the byte exists that
the file header names, are read from that byte if and only if it is behind the info header and
the masks that the compression asks for, without a gap and without the masks in the info
header. -/
theorem firstRow_at_bfOffBits_iff (init : mgInitBmp rt ⟨0, data⟩ bmp pal = some result)
    (windows : 40 ≤ result.bmp.size)
    (deep : result.info.biBitCount = 16 ∨ result.info.biBitCount = 24 ∨
      result.info.biBitCount = 32)
    (plain : result.info.biCompression = biRgb ∨ result.info.biCompression = biBitfields)
    (behind : 14 + result.bmp.size.toNat ≤ bfOffBits data) (inside : bfOffBits data < data.length) :
    ∃ fp info loaded,
      loadMasks rt.short result.fp result.info result.bmp = some (fp, info, loaded) ∧
      (∀ bits, mgLoadBmp rt.short result.fp result.info result.bmp bits =
        loadRows rt.short info loaded
          (if result.bmp.flags.loadAllocateOne then 0 else result.bmp.pitch) loaded.h.toNat fp
          bits) ∧
      (fp = streamAt data (bfOffBits data) ↔
        bfOffBits data = 14 + result.bmp.size.toNat +
          masksBefore rt.short result.info (data.length - (14 + result.bmp.size.toNat))) := by
  have palette : ¬result.info.biBitCount ≤ 8 := by
    rcases deep with count | count | count <;> rw [count] <;> decide
  have place := mgInitBmp_stream init windows palette (by omega)
  have header : 14 + result.bmp.size.toNat ≤ data.length := by omega
  obtain ⟨info, loaded, masks⟩ := loadMasks_streamAt rt.short result.bmp header plain
  rw [← place] at masks
  have rows : ∀ bits, mgLoadBmp rt.short result.fp result.info result.bmp bits =
      loadRows rt.short info loaded
        (if result.bmp.flags.loadAllocateOne then 0 else result.bmp.pitch) loaded.h.toNat
        (streamAt data (14 + result.bmp.size.toNat +
          masksBefore rt.short result.info (data.length - (14 + result.bmp.size.toNat))))
        bits := by
    intro bits
    rw [mgLoadBmp, masks]
  refine ⟨_, info, loaded, masks, rows, ?_⟩
  rw [streamAt_inj]
  exact eq_comm

/-- A file of four bytes behind headers of fifty-four, with one pixel of twenty-four bits and a
place of the rows that is given. -/
def onePixelFile (offBits : UInt8) : List UInt8 :=
  [66, 77, 62, 0, 0, 0, 0, 0, 0, 0, offBits, 0, 0, 0] ++
    [40, 0, 0, 0, 1, 0, 0, 0, 1, 0, 0, 0, 1, 0, 24, 0, 0, 0, 0, 0] ++ List.replicate 20 0 ++
    [1, 2, 3, 0, 5, 6, 7, 0]

/-- Functions that take what is left, and the pitch of a row. -/
def exampleRuntime : BmpRuntime where
  short := ⟨ofLeBytes, true⟩
  mgBmpComputePitch := fun depth width => rowPitch ((width.toNat * depth + 7) / 8)

/-- A bitmap that was not loaded. -/
def emptyBitmap : MyBitmap where
  flags := ⟨false, false, false, false, false⟩
  pitch := 0
  depth := 0
  w := 0
  h := 0
  frames := 0
  size := 0

/-- A palette that was not loaded. -/
def emptyPalette : Buffer Rgb := ⟨fun _ => ⟨0, 0, 0⟩, []⟩

/-- A buffer of pixels that was not written. -/
def emptyBits : Buffer UInt8 := ⟨fun _ => 0, []⟩

/-- What is found in the file of one pixel. -/
def onePixelResult (offBits : UInt8) : InitResult :=
  initBitmap exampleRuntime 40 ⟨1, 1, 24, biRgb⟩ (streamAt (onePixelFile offBits) 54) emptyBitmap
    emptyPalette

/-- The file of one pixel is accepted. -/
theorem mgInitBmp_onePixelFile {offBits : UInt8} {fileheader : BitmapFileHeader}
    (file : readBmfileheader exampleRuntime.short ⟨0, onePixelFile offBits⟩ =
      (some fileheader, streamAt (onePixelFile offBits) 14))
    (sized : fpIgetl exampleRuntime.short (streamAt (onePixelFile offBits) 14) =
      (40, streamAt (onePixelFile offBits) 18))
    (info : readWinBminfoheader exampleRuntime.short (streamAt (onePixelFile offBits) 18) =
      (⟨1, 1, 24, biRgb⟩, streamAt (onePixelFile offBits) 54)) :
    mgInitBmp exampleRuntime ⟨0, onePixelFile offBits⟩ emptyBitmap emptyPalette =
      some (onePixelResult offBits) := by
  rw [mgInitBmp_of_shortest file sized info]
  rfl

/-- Without a gap the row is read from the place that the file header names. -/
theorem firstRow_at_bfOffBits_onePixel :
    ∃ fp info loaded,
      loadMasks exampleRuntime.short (onePixelResult 54).fp (onePixelResult 54).info
        (onePixelResult 54).bmp = some (fp, info, loaded) ∧
      fp = streamAt (onePixelFile 54) 54 := by
  have init : mgInitBmp exampleRuntime ⟨0, onePixelFile 54⟩ emptyBitmap emptyPalette =
      some (onePixelResult 54) := mgInitBmp_onePixelFile rfl rfl rfl
  obtain ⟨fp, info, loaded, masks, -, place⟩ := firstRow_at_bfOffBits_iff init (by decide)
    (Or.inr (Or.inl rfl)) (Or.inl rfl) (by decide) (by decide)
  exact ⟨fp, info, loaded, masks, place.2 (by decide)⟩

/-- Behind a gap of four bytes the row is not read from the place that the file header names: the
first byte is that of the gap. -/
theorem firstRow_notAt_bfOffBits :
    mgInitBmp exampleRuntime ⟨0, onePixelFile 58⟩ emptyBitmap emptyPalette =
      some (onePixelResult 58) ∧
    (onePixelResult 58).bmp.size = 40 ∧ (onePixelResult 58).info.biBitCount = 24 ∧
    (onePixelResult 58).info.biCompression = biRgb ∧
    bfOffBits (onePixelFile 58) = 58 ∧ (onePixelFile 58)[58]? = some 5 ∧
    (∃ info loaded, loadMasks exampleRuntime.short (onePixelResult 58).fp (onePixelResult 58).info
      (onePixelResult 58).bmp = some (streamAt (onePixelFile 58) 54, info, loaded)) ∧
    (mgLoadBmp exampleRuntime.short (onePixelResult 58).fp (onePixelResult 58).info
      (onePixelResult 58).bmp emptyBits).2.2.read 0 = 1 :=
  ⟨mgInitBmp_onePixelFile rfl rfl rfl, rfl, rfl, rfl, by decide, by decide, ⟨_, _, rfl⟩, by decide⟩

end Bpcp.MiniGUI
