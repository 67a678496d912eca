import Bpcp.Lib.Buffer

/-!
# Loading WebP images

The header is probed by reading small pieces into a buffer until the decoder knows the
features of the image. Loading hands the bytes of the probe to an incremental decoder, and
then reads pieces into the same buffer and hands over each of them. After each piece the
decoder is asked how many rows are complete, and the new ones are reported to a callback. The
decoder comes from outside the repository and is a parameter.
-/

namespace Bpcp.MiniGUI

open Bpcp.Lib

/-! ## Sources -/

/-- `MG_RWops`, a source that may return fewer bytes than it is asked for, or fail. -/
structure PieceRWops where
  /-- The bytes that were not read so far. -/
  rest : List UInt8
  /-- For each call, the largest number of bytes that it returns, or nothing when it fails. -/
  pieces : ℕ → Option ℕ+
  /-- The number of calls so far. -/
  calls : ℕ

/-- `MGUI_RWread` of bytes, which gives nothing for a negative number. Zero bytes are only
returned at the end of the source. -/
def PieceRWops.read (fp : PieceRWops) (maxnum : ℕ) : Option (List UInt8) × PieceRWops :=
  match fp.pieces fp.calls with
  | none => (none, { fp with calls := fp.calls + 1 })
  | some piece =>
    let n := min (piece : ℕ) maxnum
    (some (fp.rest.take n), { fp with rest := fp.rest.drop n, calls := fp.calls + 1 })

/-- `WebPBitstreamFeatures`, as far as it is used. -/
structure WebpFeatures where
  /-- `width`. -/
  width : ℕ
  /-- `height`. -/
  height : ℕ
  /-- `has_alpha`. -/
  hasAlpha : Bool
  /-- `has_animation`. -/
  hasAnimation : Bool

/-- What `WebPGetFeatures` returns. -/
inductive FeaturesStatus where
  /-- `VP8_STATUS_OK`, with the features. -/
  | ok (features : WebpFeatures)
  /-- `VP8_STATUS_NOT_ENOUGH_DATA`. -/
  | notEnoughData
  /-- Another status. -/
  | error

/-- What `WebPIAppend` returns. -/
inductive Vp8Status where
  /-- `VP8_STATUS_OK`. -/
  | ok
  /-- `VP8_STATUS_SUSPENDED`. -/
  | suspended
  /-- Another status. -/
  | error
deriving DecidableEq

/-- The values of `WEBP_CSP_MODE` that are used. -/
inductive Colorspace where
  /-- `MODE_RGB`. -/
  | modeRgb
  /-- `MODE_RGBA`. -/
  | modeRgba

/-- `WebPDecBuffer`. -/
structure WebpDecBuffer where
  /-- `colorspace`. -/
  colorspace : Colorspace
  /-- `width`. -/
  width : ℕ
  /-- `height`. -/
  height : ℕ
  /-- `is_external_memory`. -/
  isExternalMemory : Bool
  /-- `u.RGBA.stride`. -/
  stride : ℕ
  /-- `u.RGBA.size`. -/
  size : ℕ
  /-- `u.RGBA.rgba`, an address. -/
  rgba : ℤ

/-- The functions from outside the repository that the loader uses. -/
structure LibWebp (Decoder : Type) where
  /-- The allocation of the decode info succeeds. -/
  malloc : Bool
  /-- `realloc` of an address to a size. -/
  realloc : ℤ → ℕ → ℤ
  /-- `ROUND_TO_MULTIPLE`. -/
  roundToMultiple : ℕ → ℕ → ℕ
  /-- `WebPInitDecoderConfig` succeeds, which makes the configuration zero. -/
  webPInitDecoderConfig : Bool
  /-- `WebPGetFeatures`. -/
  webPGetFeatures : List UInt8 → FeaturesStatus
  /-- `WebPINewDecoder`. -/
  webPINewDecoder : WebpDecBuffer → Option Decoder
  /-- `WebPIAppend`. -/
  webPIAppend : Decoder → List UInt8 → Vp8Status × Decoder
  /-- `WebPIDecGetRGB`, with the number that it stores when it succeeds. -/
  webPIDecGetRGB : Decoder → Option ℤ

/-! ## Bitmaps -/

/-- `HEADER_CHUNK_SIZE`. -/
def headerChunkSize : ℕ := 32

/-- `READ_BUFF_SIZE`. -/
def readBuffSize : ℕ := 1024

variable {Decoder : Type}

/-- A call of the callback. -/
structure RowCall where
  /-- The number of the row. -/
  y : ℤ
  /-- `bits` of the bitmap during the call. -/
  bits : ℤ

/-- The variables of `__mg_load_webp`, and what was observed outside of it. -/
structure LoadState (Decoder : Type) where
  /-- `idec`. -/
  idec : Decoder
  /-- `last_last_y`. -/
  lastLastY : ℤ
  /-- `info->sz_data`. -/
  szData : ℕ
  /-- `info->data`. -/
  data : Buffer UInt8
  /-- `mybmp->bits`. -/
  bits : ℤ
  /-- The source. -/
  fp : PieceRWops
  /-- The calls of `WebPIAppend` so far, with their results. -/
  appended : List (List UInt8 × Vp8Status)
  /-- The numbers that the decoder reported so far. -/
  reports : List ℤ
  /-- The calls of the callback so far. -/
  rows : List RowCall

/-- What does not change while loading. -/
structure LoadConfig (Decoder : Type) where
  /-- The decoder. -/
  webp : LibWebp Decoder
  /-- The flag `MYBMP_LOAD_ALLOCATE_ONE`. -/
  allocateOne : Bool
  /-- `pitch` of the bitmap. -/
  pitch : ℕ
  /-- `info->config.output.u.RGBA.rgba`. -/
  rgba : ℤ
  /-- There is a callback. -/
  cb : Bool

variable (config : LoadConfig Decoder)

end Bpcp.MiniGUI
