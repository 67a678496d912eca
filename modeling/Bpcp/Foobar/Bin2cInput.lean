import Bpcp.Lib.Buffer
import Bpcp.Lib.CString

/-!
# How bin2c reads a file

`bin2c` reads each of its files into one buffer that it keeps from file to file and that grows
by `BUFSIZE` bytes whenever the next read might not fit. When something fails, `error` prints a
message and frees the two pointers `dest` and `source`, which are the same one from the first
array on.
-/

namespace Bpcp.Foobar

open Bpcp.Lib

/-- `BUFSIZE`. -/
def bufSize : UInt64 := 16384

/-- A file on the disk. Its length is an `off_t`. -/
structure FileContents where
  /-- The bytes. -/
  bytes : List UInt8
  /-- Whether reading fails behind these bytes instead of coming to the end. -/
  breaks : Bool
  /-- The length is an `off_t`. -/
  small : bytes.length < 2 ^ 63

/-- `infile`: a file that is open for reading. -/
structure InFile where
  /-- The bytes that were not read. -/
  rest : List UInt8
  /-- Whether reading fails behind these bytes. -/
  breaks : Bool
  /-- `feof`. -/
  feof : Bool
  /-- `ferror`. -/
  ferror : Bool

/-- `fopen` of a file that is there. -/
def FileContents.opened (contents : FileContents) : InFile :=
  ⟨contents.bytes, contents.breaks, false, false⟩

/-- `fread` of a number of bytes: fewer of them are read only at the end or before an error. -/
def InFile.fread (infile : InFile) (count : ℕ) : List UInt8 × InFile :=
  (infile.rest.take count,
    { infile with
      rest := infile.rest.drop count
      feof := infile.feof || decide (infile.rest.length < count) && !infile.breaks
      ferror := infile.ferror || decide (infile.rest.length < count) && infile.breaks })

/-- The static variables of `bin2c` for its buffers, and the heap. -/
structure Memory where
  /-- What `source` points to. -/
  bytes : Buffer UInt8
  /-- `source`. -/
  source : Option ℕ
  /-- `dest`. -/
  dest : Option ℕ
  /-- `sourceBufSize`. -/
  sourceBufSize : UInt64
  /-- The blocks that are allocated. -/
  live : List ℕ

/-- The static variables at the start. -/
def Memory.start : Memory := ⟨⟨fun _ => 0, []⟩, none, none, 0, []⟩

/-- What `bin2c` finds where it runs. -/
structure Host where
  /-- The files. -/
  files : CString → Option FileContents
  /-- Whether a file can be opened for writing. -/
  writable : CString → Bool
  /-- `realloc`: where a block of a size is put. -/
  realloc : Option ℕ → UInt64 → Option ℕ
  /-- Whether `calloc` has memory. -/
  calloc : ℕ → Bool

/-- How `bin2c` stops before its end. -/
inductive Failure where
  /-- A message is printed, a file may be removed, and 1 is returned. -/
  | reported (message : List UInt8) (removed : Option CString)
  /-- The usage is printed, and 1 is returned. -/
  | usage
  /-- What comes next is not defined, or the program goes on for ever. -/
  | undefined
deriving DecidableEq

/-- `free`: what is live afterwards, when the pointer is one that can be freed. -/
def free (live : List ℕ) : Option ℕ → Option (List ℕ)
  | none => some live
  | some block => if block ∈ live then some (live.filter (· ≠ block)) else none

/-- `error`. -/
def error (programName : CString) (memory : Memory) (msg1 msg2 msg3 : CString) : Failure :=
  match (free memory.live memory.dest).bind (free · memory.source) with
  | some _ => .reported (programName.bytes ++ (CString.lit ": ").bytes ++ msg1.bytes ++
      msg2.bytes ++ msg3.bytes ++ (CString.lit "\n").bytes) (some (CString.lit "data.c"))
  | none => .undefined

/-- The buffer has room for the next read, or `source` is `NULL`. -/
def grow (host : Host) (memory : Memory) (sourceLen : UInt64) : Memory :=
  if sourceLen + bufSize > memory.sourceBufSize then
    { memory with
      sourceBufSize := memory.sourceBufSize + bufSize
      source := host.realloc memory.source (memory.sourceBufSize + bufSize)
      live := match host.realloc memory.source (memory.sourceBufSize + bufSize) with
        | some block => block :: memory.live.filter (some · ≠ memory.source)
        | none => memory.live }
  else memory

variable {host : Host} {programName name : CString} {memory grown : Memory}
  {sourceLen : UInt64} {infile : InFile} {turns : ℕ}

/-! ## The buffer -/

/-- A buffer between two reads of a file: what was read is inside it, and so is everything that
was ever written, its size is far from the last of a machine word, and `source` points to the
one block. -/
structure Memory.Sound (memory : Memory) (sourceLen : UInt64) : Prop where
  /-- What was read is inside the buffer. -/
  inside : sourceLen.toNat ≤ memory.sourceBufSize.toNat
  /-- Every write was inside the buffer. -/
  written : ∀ index ∈ memory.bytes.written, index < memory.sourceBufSize.toNat
  /-- The buffer is not much larger than a file can be. -/
  bounded : memory.sourceBufSize.toNat ≤ 2 ^ 63 + 2 ^ 15
  /-- `source` points to the block that is allocated, if there is one. -/
  live : memory.live = memory.source.toList
  /-- Without a block there is no room. -/
  empty : memory.source = none → memory.sourceBufSize = 0

/-- A buffer that is filled behind what was read stays sound as long as it has room. -/
theorem Memory.Sound.store (sound : memory.Sound sourceLen) {values : List UInt8}
    {next : UInt64} (behind : next.toNat = sourceLen.toNat + values.length)
    (room : sourceLen.toNat + values.length ≤ memory.sourceBufSize.toNat) :
    { memory with bytes := memory.bytes.store sourceLen.toNat values : Memory }.Sound next where
  inside := by
    rw [behind]
    exact room
  written := by
    intro index stored
    cases Buffer.mem_store_written.mp stored with
    | inl before => exact sound.written index before
    | inr new => exact new.2.trans_le room
  bounded := sound.bounded
  live := sound.live
  empty := sound.empty

/-! ## Reading -/

/-- An open file between two reads: no error was met, and the end was met only when nothing is
left. -/
structure InFile.Sound (infile : InFile) : Prop where
  /-- No error was met. -/
  fine : infile.ferror = false
  /-- The end was met only when nothing is left. -/
  ended : infile.feof = true → infile.rest = [] ∧ infile.breaks = false

/-- The turns that are left for a file. -/
def InFile.turnsLeft (infile : InFile) : ℕ := if infile.feof then 0 else infile.rest.length + 1

/-- A read that meets no error leaves a sound file and comes nearer to the end. -/
theorem InFile.Sound.fread (sound : infile.Sound) (more : infile.feof = false) {count : ℕ}
    (positive : 0 < count) (fine : (infile.fread count).2.ferror = false) :
    (infile.fread count).2.Sound ∧ (infile.fread count).2.turnsLeft < infile.turnsLeft := by
  have passed : (decide (infile.rest.length < count) && infile.breaks) = false := by
    have either : (infile.ferror || decide (infile.rest.length < count) && infile.breaks) =
      false := fine
    rw [sound.fine] at either
    exact either
  by_cases short : infile.rest.length < count
  · have unbroken : infile.breaks = false := by
      rw [decide_eq_true short] at passed
      exact passed
    constructor
    · exact ⟨fine, fun _ => ⟨List.drop_eq_nil_of_le short.le, unbroken⟩⟩
    · have ended : (infile.fread count).2.feof = true := by
        show (infile.feof || decide (infile.rest.length < count) && !infile.breaks) = true
        rw [more, decide_eq_true short, unbroken]
        rfl
      rw [turnsLeft, if_pos ended, turnsLeft, if_neg (by rw [more]; exact nofun)]
      exact Nat.succ_pos _
  · have unended : (infile.fread count).2.feof = false := by
      show (infile.feof || decide (infile.rest.length < count) && !infile.breaks) = false
      rw [more, decide_eq_false short]
      rfl
    constructor
    · exact ⟨fine, fun ended => absurd ended (by rw [unended]; exact nofun)⟩
    · rw [turnsLeft, if_neg (by rw [unended]; exact nofun), turnsLeft,
        if_neg (by rw [more]; exact nofun)]
      show (infile.rest.drop count).length + 1 < infile.rest.length + 1
      rw [List.length_drop]
      omega

/-- How the loop that reads a file can end: with all the bytes of the file behind those that were
in the buffer, without memory, or because reading fails. -/
inductive ReadEnds (host : Host) (programName name : CString) (memory : Memory)
    (sourceLen : UInt64) (infile : InFile) : Except Failure (Memory × UInt64) → Prop where
  /-- The file was read. -/
  | whole {final : Memory} {finalLen : UInt64} (unbroken : infile.breaks = false)
      (sound : final.Sound finalLen)
      (there : infile.feof = false ∨ memory.source ≠ none → final.source ≠ none)
      (same : final.dest = memory.dest)
      (length : finalLen.toNat = sourceLen.toNat + infile.rest.length)
      (content : final.bytes.take finalLen.toNat =
        memory.bytes.take sourceLen.toNat ++ infile.rest) :
      ReadEnds host programName name memory sourceLen infile (.ok (final, finalLen))
  /-- There is no memory. -/
  | exhausted {failed : Memory} (refused : ∃ old size, host.realloc old size = none)
      (gone : failed.source = none) (same : failed.dest = memory.dest) :
      ReadEnds host programName name memory sourceLen infile
        (.error (error programName failed (CString.lit "memory exhausted") (CString.lit "")
          (CString.lit "")))
  /-- Reading fails. -/
  | broken {failed : Memory} (breaks : infile.breaks = true)
      (live : failed.live = failed.source.toList) (there : failed.source ≠ none)
      (same : failed.dest = memory.dest) :
      ReadEnds host programName name memory sourceLen infile
        (.error (error programName failed (CString.lit "error reading '") name
          (CString.lit "'")))

/-- The bytes of one read come behind those that were read before. -/
theorem ReadEnds.step {count : ℕ} {result : Except Failure (Memory × UInt64)} {next : UInt64}
    {grown : Memory} (kept : grown.bytes = memory.bytes) (same : grown.dest = memory.dest)
    (there : grown.source ≠ none)
    (behind : next.toNat = sourceLen.toNat + (infile.fread count).1.length)
    (ends : ReadEnds host programName name
      { grown with bytes := grown.bytes.store sourceLen.toNat (infile.fread count).1 } next
      (infile.fread count).2 result) :
    ReadEnds host programName name memory sourceLen infile result := by
  have split : (infile.fread count).1 ++ (infile.fread count).2.rest = infile.rest :=
    List.take_append_drop count infile.rest
  cases ends with
  | whole unbroken sound thereAfter sameAfter length content =>
    have unbroken : infile.breaks = false := unbroken
    apply ReadEnds.whole unbroken sound (fun _ => thereAfter (.inr there)) (sameAfter.trans same)
    · rw [length, behind, ← split, List.length_append, Nat.add_assoc]
    · rw [content, behind, kept, Buffer.take_store, List.append_assoc, split]
  | exhausted refused gone sameAfter => exact .exhausted refused gone (sameAfter.trans same)
  | broken breaks live thereAfter sameAfter =>
    exact .broken breaks live thereAfter (sameAfter.trans same)

end Bpcp.Foobar
