import Bpcp.MiniGUI.Webp

/-!
# What loading a WebP image feeds and delivers

The bytes handed to the decoder, the bytes in the buffer and the bytes that are left in the
source are the content of the source at any time, so nothing is lost between probing and
loading. The rows that were delivered are the rows below the largest number that the decoder
reported.
-/

namespace Bpcp.MiniGUI

open Bpcp.Lib

variable {Decoder : Type}

/-! ## Reading pieces -/

/-- A call that succeeds takes bytes from the front of the source, and none only at its end. -/
theorem PieceRWops.read_some {fp after : PieceRWops} {maxnum : ℕ} {bytes : List UInt8}
    (read : fp.read maxnum = (some bytes, after)) :
    bytes ++ after.rest = fp.rest ∧ bytes.length ≤ maxnum ∧
      (0 < maxnum → bytes = [] → after.rest = []) := by
  unfold PieceRWops.read at read
  cases piece : fp.pieces fp.calls with
  | none => simp [piece] at read
  | some size =>
    simp only [piece, Prod.mk.injEq, Option.some.injEq] at read
    obtain ⟨rfl, rfl⟩ := read
    refine ⟨List.take_append_drop _ _, ?_, ?_⟩
    · rw [List.length_take]
      exact (min_le_left _ _).trans (min_le_right _ _)
    · intro positive empty
      have atLeast : 0 < min (size : ℕ) maxnum := lt_min size.pos positive
      have noBytes : fp.rest = [] := by
        rcases List.take_eq_nil_iff.1 empty with zero | noBytes
        · omega
        · exact noBytes
      show fp.rest.drop _ = []
      rw [noBytes, List.drop_nil]

/-- The buffer and the rest of the source are the content, and the writes stay in the buffer. -/
structure Probed (content : List UInt8) (szData : ℕ) (data : Buffer UInt8) (fp : PieceRWops) :
    Prop where
  /-- The bytes in the buffer and in the source are the content. -/
  bytes : data.take szData ++ fp.rest = content
  /-- The bytes fit into the buffer. -/
  fits : szData ≤ readBuffSize
  /-- Only indices of the buffer were written. -/
  bounded : ∀ index ∈ data.written, index < readBuffSize

/-- Storing what was read keeps the content. -/
theorem Probed.store {content bytes : List UInt8} {szData : ℕ} {data : Buffer UInt8}
    {fp after : PieceRWops} (probed : Probed content szData data fp)
    (room : szData + headerChunkSize ≤ readBuffSize)
    (read : fp.read headerChunkSize = (some bytes, after)) :
    Probed content (szData + bytes.length) (data.store szData bytes) after := by
  have ⟨split, length, _⟩ := PieceRWops.read_some read
  constructor
  · rw [Buffer.take_store, List.append_assoc, split]
    exact probed.bytes
  · omega
  · intro index written
    rcases Buffer.mem_store_written.1 written with before | now
    · exact probed.bounded index before
    · omega

/-- A call that returns no bytes keeps the content. -/
theorem Probed.keep {content : List UInt8} {szData : ℕ} {data : Buffer UInt8}
    {fp after : PieceRWops} (probed : Probed content szData data fp)
    (same : after.rest = fp.rest) : Probed content szData data after where
  bytes := by
    rw [same]
    exact probed.bytes
  fits := probed.fits
  bounded := probed.bounded

variable {config : LoadConfig Decoder} {state : LoadState Decoder}

/-- Where the bits of the bitmap are while a row is delivered. -/
def rowBits (config : LoadConfig Decoder) (y : ℤ) : ℤ :=
  if config.allocateOne then config.rgba + config.pitch * y else config.rgba

/-- The rows below a number, in increasing order. -/
def rowNumbers (count : ℕ) : List ℤ := (List.range count).map fun row : ℕ => (row : ℤ)

/-- The rows below a number were delivered in order. -/
structure RowsUpTo (config : LoadConfig Decoder) (count : ℕ) (state : LoadState Decoder) :
    Prop where
  /-- The rows are those below the number, when there is a callback. -/
  numbers : state.rows.map RowCall.y = if config.cb then rowNumbers count else []
  /-- Each row was delivered with its place. -/
  places : ∀ row ∈ state.rows, row.bits = rowBits config row.y
  /-- The bits move only when the bitmap is allocated at once. -/
  bits : config.allocateOne = false → state.bits = config.rgba

/-- The rows below the largest reported number were delivered. -/
structure Delivered (config : LoadConfig Decoder) (state : LoadState Decoder) (count : ℕ) :
    Prop where
  /-- The last row is the one before the number. -/
  lastLastY : state.lastLastY = count - 1
  /-- The rows below the number were delivered. -/
  upTo : RowsUpTo config count state
  /-- No larger number was reported. -/
  largest : ∀ report ∈ state.reports, report ≤ count
  /-- The number was reported, unless it is zero. -/
  reported : count = 0 ∨ (count : ℤ) ∈ state.reports

/-- What was delivered depends on the rows, the reports and the bits only. -/
theorem Delivered.keep {after : LoadState Decoder} {count : ℕ}
    (delivered : Delivered config state count) (lastLastY : after.lastLastY = state.lastLastY)
    (rows : after.rows = state.rows) (bits : after.bits = state.bits)
    (reports : after.reports = state.reports) : Delivered config after count := by
  have ⟨last, ⟨numbers, places, place⟩, largest, reported⟩ := delivered
  rw [← lastLastY] at last
  rw [← rows] at numbers places
  rw [← bits] at place
  rw [← reports] at largest reported
  exact ⟨last, ⟨numbers, places, place⟩, largest, reported⟩

/-! ## Feeding the decoder -/

variable {content : List UInt8}

/-- In a nondecreasing list of reports, the number that was delivered is the last report. -/
theorem Delivered.last {count : ℕ} (delivered : Delivered config state count)
    (nondecreasing : state.reports.Pairwise (· ≤ ·)) :
    (count : ℤ) = max 0 (state.reports.getLast?.getD 0) := by
  have reported := delivered.reported
  rcases last : state.reports.getLast? with _ | number
  · rw [List.getLast?_eq_none_iff] at last
    rw [last] at reported
    simpa using reported
  · have member : number ∈ state.reports := List.mem_of_getLast? last
    have upper := delivered.largest number member
    rw [Option.getD_some]
    rcases reported with zero | before
    · omega
    · have nonempty : state.reports ≠ [] := List.ne_nil_of_mem member
      have atLeast := nondecreasing.rel_getLast before
      rw [List.getLast?_eq_getLast_of_ne_nil nonempty] at last
      rw [Option.some.inj last] at atLeast
      omega

/-! ## Loading -/

/-- A source of eight bytes, which returns at most two of them at a time. -/
def pairs : PieceRWops := ⟨[1, 2, 3, 4, 5, 6, 7, 8], fun _ => some 2, 0⟩

end Bpcp.MiniGUI
