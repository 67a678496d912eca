import Bpcp.MiniGUI.Rle

/-!
# What the decoders write

Both decoders look at their position once for a command, while a command moves the position
by up to 255 pixels. So what they write is bounded by the commands of the stream and not by
the row.
-/

namespace Bpcp.MiniGUI

open Bpcp.Lib

/-- The commands that a decoder gets to from a place of the stream and a position, each with
the position that it starts at. -/
inductive Executes (parse : RWops → RleCommand × RWops) (width : Nat) :
    RWops → Nat → Nat → RleCommand → Prop where
  /-- The command at the place itself. -/
  | now {f : RWops} {pos : Nat} : pos ≤ width → Executes parse width f pos pos (parse f).1
  /-- A command behind it. -/
  | later {f : RWops} {pos start : Nat} {command : RleCommand} :
      pos ≤ width → (parse f).1.isEnd = false →
      Executes parse width (parse f).2 (pos + (parse f).1.advance) start command →
      Executes parse width f pos start command

/-- What a decoder makes of one command: the indices that it writes are those of a number of
pixels, it goes on behind the command, and it returns only when the row is full. -/
structure Draws (decoder : RleDecoder) (width depth : Nat)
    (parse : RWops → RleCommand × RWops) (extent : Nat → RleCommand → Nat) : Prop where
  /-- The indices that are written. -/
  written : ∀ s, s.pos ≤ width → ∀ index, index ∈ (decoder.body s).1.bits.written ↔
    index ∈ s.bits.written ∨ ∃ pixel, s.pos ≤ pixel ∧
      pixel < s.pos + extent s.pos (parse s.f).1 ∧ index = pixel / depth
  /-- The stream behind the command. -/
  stream : ∀ s, (decoder.body s).2 = false → (decoder.body s).1.f = (parse s.f).2
  /-- The position behind the command. -/
  position : ∀ s, (decoder.body s).2 = false →
    (decoder.body s).1.pos = s.pos + (parse s.f).1.advance
  /-- The flag behind the command. -/
  flag : ∀ s, s.flag = .bmpErr → (decoder.body s).2 = false →
    ((decoder.body s).1.flag = .bmpErr ↔ (parse s.f).1.isEnd = false)
  /-- A return means that the row is full. -/
  full : ∀ s, s.pos ≤ width → (decoder.body s).2 = true →
    width < s.pos + (parse s.f).1.advance

/-- A number of pixels ends inside a row. -/
def Inside (pitch depth start extent : Nat) : Prop := extent = 0 ∨ start + extent ≤ depth * pitch

/-- Pixels end inside a row when all their indices do. -/
theorem inside_iff {pitch depth start extent : Nat} (positive : 0 < depth) :
    Inside pitch depth start extent ↔
      ∀ pixel, start ≤ pixel → pixel < start + extent → pixel / depth < pitch := by
  constructor
  · intro inside pixel low high
    rw [Nat.div_lt_iff_lt_mul positive, Nat.mul_comm]
    rcases inside with none | fits <;> omega
  · intro all
    by_cases none : extent = 0
    · exact .inl none
    · have last := all (start + extent - 1) (by omega) (by omega)
      rw [Nat.div_lt_iff_lt_mul positive, Nat.mul_comm] at last
      exact .inr (by omega)

/-- A command is only executed while the row is not full. -/
theorem Executes.le {parse : RWops → RleCommand × RWops} {width pos start : Nat} {f : RWops}
    {command : RleCommand} (executes : Executes parse width f pos start command) :
    pos ≤ width := by
  cases executes with
  | now inside => exact inside
  | later inside _ _ => exact inside

/-- The commands from a place on are the one at the place and those behind it. -/
theorem Executes.forall_iff {parse : RWops → RleCommand × RWops} {width pos : Nat} {f : RWops}
    {holds : Nat → RleCommand → Prop} (inside : pos ≤ width) :
    (∀ start command, Executes parse width f pos start command → holds start command) ↔
      holds pos (parse f).1 ∧ ((parse f).1.isEnd = false → ∀ start command,
        Executes parse width (parse f).2 (pos + (parse f).1.advance) start command →
        holds start command) := by
  constructor
  · intro all
    exact ⟨all _ _ (.now inside), fun goesOn start command later =>
      all start command (.later inside goesOn later)⟩
  · rintro ⟨first, rest⟩ start command executes
    cases executes with
    | now => exact first
    | later _ goesOn later => exact rest goesOn start command later

/-- One command stays inside the row exactly when its pixels do. -/
theorem Draws.body_inside_iff {decoder : RleDecoder} {width depth pitch : Nat}
    {parse : RWops → RleCommand × RWops} {extent : Nat → RleCommand → Nat}
    (draws : Draws decoder width depth parse extent) (positive : 0 < depth) {s : RleState}
    (inside : s.pos ≤ width) :
    (∀ index ∈ (decoder.body s).1.bits.written, index < pitch) ↔
      (∀ index ∈ s.bits.written, index < pitch) ∧
      Inside pitch depth s.pos (extent s.pos (parse s.f).1) := by
  rw [inside_iff positive]
  constructor
  · intro all
    refine ⟨fun index old => all index ((draws.written s inside index).2 (.inl old)), ?_⟩
    intro pixel low high
    exact all _ ((draws.written s inside _).2 (.inr ⟨pixel, low, high, rfl⟩))
  · rintro ⟨old, new⟩ index written
    rcases (draws.written s inside index).1 written with earlier | ⟨pixel, low, high, rfl⟩
    · exact old index earlier
    · exact new pixel low high

/-- A decoder stays inside the row exactly when all commands that it gets to do. -/
theorem Draws.inside_iff {decoder : RleDecoder} {width depth : Nat}
    {parse : RWops → RleCommand × RWops} {extent : Nat → RleCommand → Nat}
    (draws : Draws decoder width depth parse extent) (positive : 0 < depth) (pitch : Nat)
    (s : RleState) :
    (∀ index ∈ (rleLoop decoder width s).bits.written, index < pitch) ↔
      (∀ index ∈ s.bits.written, index < pitch) ∧
      (s.flag = .bmpErr → ∀ start command, Executes parse width s.f s.pos start command →
        Inside pitch depth start (extent start command)) := by
  induction s using rleLoop.induct decoder width with
  | case1 s running returned =>
    rw [rleLoop, if_pos running, if_pos returned, draws.body_inside_iff positive running.1,
      Executes.forall_iff running.1]
    have full := draws.full s running.1 returned
    refine and_congr_right fun _ => ⟨fun first _ => ⟨first, ?_⟩, fun all => (all running.2).1⟩
    intro _ start command later
    exact absurd later.le (by omega)
  | case2 s running stays ih =>
    have notReturned : (decoder.body s).2 = false := by simpa using stays
    rw [rleLoop, if_pos running, if_neg stays, ih, draws.body_inside_iff positive running.1,
      Executes.forall_iff running.1, draws.stream s notReturned, draws.position s notReturned,
      draws.flag s running.2 notReturned, and_assoc]
    refine and_congr_right fun _ => ⟨fun both _ => both, fun all => all running.2⟩
  | case3 s stopped =>
    rw [rleLoop, if_neg stopped]
    refine ⟨fun old => ⟨old, fun going start command executes => ?_⟩, fun both => both.1⟩
    exact absurd ⟨executes.le, going⟩ stopped

/-- The decoder of eight bits a pixel draws its commands. -/
theorem rle8_draws (width : Nat) :
    Draws rle8Decoder width 1 (parseCommand passData8) extent8 where
  written := by
    intro s _ index
    rw [rle8Decoder, (rle8Body_spec s).2.2.2]
    simp
  stream := fun s _ => (rle8Body_spec s).1
  position := fun s _ => (rle8Body_spec s).2.1
  flag := fun s going _ => (rle8Body_spec s).2.2.1 going
  full := by
    intro s _ returned
    cases returned

/-- The decoder of four bits a pixel draws its commands. -/
theorem rle4_draws (short : ShortRead) (width : Nat) :
    Draws (rle4Decoder short width) width 2 (parseCommand (passData4 short))
      (extent4 width) where
  written := fun s inside => ((rle4Body_spec short width s).2 inside).1
  stream := fun s stays => ((rle4Body_spec short width s).1 stays).1
  position := fun s stays => ((rle4Body_spec short width s).1 stays).2.1
  flag := fun s going stays => ((rle4Body_spec short width s).1 stays).2.2 going
  full := fun s inside => ((rle4Body_spec short width s).2 inside).2

/-- A decoder stays inside its row exactly when every command that it gets to does: a run and
absolute data end inside the row, where a run of four bits a pixel is only drawn up to the
pixel behind the width. -/
theorem rle_inside_iff (short : ShortRead) (f : RWops) (row : Nat → UInt8) (width : Nat) :
    ((∀ index ∈ (readRLE8CompressedImage f ⟨row, []⟩ width).bits.written,
        index < rowPitch width) ↔
      ∀ start command, Executes (parseCommand passData8) width f 0 start command →
        Inside (rowPitch width) 1 start (extent8 start command)) ∧
    ((∀ index ∈ (readRLE4CompressedImage short f ⟨row, []⟩ width).bits.written,
        index < rowPitch ((width + 1) / 2)) ↔
      ∀ start command, Executes (parseCommand (passData4 short)) width f 0 start command →
        Inside (rowPitch ((width + 1) / 2)) 2 start (extent4 width start command)) := by
  constructor
  · have loop := (rle8_draws width).inside_iff one_pos (rowPitch width)
      ⟨f, ⟨row, []⟩, 0, .bmpErr⟩
    simpa [readRLE8CompressedImage] using loop
  · have loop := (rle4_draws short width).inside_iff two_pos
      (rowPitch ((width + 1) / 2)) ⟨f, ⟨row, []⟩, 0, .bmpErr⟩
    simpa [readRLE4CompressedImage] using loop

/-- A run of five pixels leaves a row of one, and a run of nine leaves a row of eight. -/
theorem rle_outside :
    (¬∀ index ∈ (readRLE8CompressedImage ⟨0, [5, 7]⟩ ⟨fun _ => 0, []⟩ 1).bits.written,
      index < rowPitch 1) ∧
    ¬∀ index ∈ (readRLE4CompressedImage ⟨fun _ => 0, true⟩ ⟨0, [9, 0x11]⟩ ⟨fun _ => 0, []⟩
      8).bits.written, index < rowPitch ((8 + 1) / 2) := by
  constructor
  · intro inside
    have all := ((rle8_draws 1).inside_iff one_pos _ _).1 inside
    have first := all.2 rfl 0 _ (.now (Nat.zero_le 1))
    exact absurd first (by unfold Inside; decide)
  · intro inside
    have all := ((rle4_draws ⟨fun _ => 0, true⟩ 8).inside_iff two_pos _ _).1 inside
    have first := all.2 rfl 0 _ (.now (Nat.zero_le 8))
    exact absurd first (by unfold Inside; decide)

end Bpcp.MiniGUI
