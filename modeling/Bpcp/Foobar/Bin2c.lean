import Bpcp.Foobar.Bin2cArray
import Bpcp.Foobar.Bin2cNames

/-!
# bin2c as a whole

`bin2c` reads its files one after the other and writes them as arrays of C into one output file.
It comes to its end exactly when its command line is one that it can read and each of its files
can be read, is not empty and is not too long for its counter. What it wrote then is read back, as
C, as the arrays of all the files.
-/

namespace Bpcp.Foobar

open Bpcp.Lib

/-- The static variables of `bin2c`, and what was written to `outfile`. -/
structure ToolState where
  /-- The buffers. -/
  memory : Memory
  /-- The names. -/
  exports : Exports
  /-- `outfile`. -/
  text : List UInt8

/-- A host that has memory and lets the output be written. -/
structure Host.Generous (host : Host) : Prop where
  /-- Blocks can be made larger. -/
  realloc : ∀ old size, host.realloc old size ≠ none
  /-- Blocks can be had. -/
  calloc : ∀ size, host.calloc size = true
  /-- Files can be written. -/
  writable : ∀ name, host.writable name = true

/-- The bytes of a file. -/
def Host.bytesOf (host : Host) (file : CString) : List UInt8 :=
  ((host.files file).map FileContents.bytes).getD []

/-- What is written for a file under a name. -/
def declaration (name bytes : List UInt8) : List UInt8 :=
  (CString.lit "static const unsigned char ").bytes ++ name ++ (CString.lit "[] = \x7b\n").bytes ++
    arrayText 0 bytes

variable {host : Host} {programName argument file : CString} {contents : FileContents}
  {state next : ToolState} {turns : ℕ}

/-- Nothing of a file is in the buffer before it is read. -/
theorem Memory.Sound.reset {memory : Memory} {sourceLen : UInt64}
    (sound : memory.Sound sourceLen) (dest : Option ℕ) :
    { memory with dest := dest : Memory }.Sound 0 where
  inside := Nat.zero_le _
  written := sound.written
  bounded := sound.bounded
  live := sound.live
  empty := sound.empty

/-- A state between two files: nothing was ever written outside a buffer. -/
structure ToolState.Sound (state : ToolState) : Prop where
  /-- The buffer for the files. -/
  memory : state.memory.Sound 0
  /-- The buffer for the names. -/
  exports : state.exports.Sound

/-- What the state is after a file. -/
structure Written (host : Host) (state next : ToolState) (file : CString) : Prop where
  /-- Nothing was written outside a buffer. -/
  sound : next.Sound
  /-- There is a block. -/
  there : next.memory.source ≠ none
  /-- Both pointers point to it. -/
  same : next.memory.dest = next.memory.source
  /-- The name of the file is the last one. -/
  named : next.exports.strname =
    state.exports.strname.store 0 (exportName file.bytes ++ [0])
  /-- There is one more pointer. -/
  listed : next.exports.exportsHead = ⟨.strname⟩ :: state.exports.exportsHead
  /-- The array of the file was written. -/
  text : next.text =
    state.text ++ declaration (next.exports.printed .strname) (host.bytesOf file)

/-- What the state is after some files. -/
inductive WrittenAll (host : Host) : ToolState → ToolState → List CString → Prop where
  /-- There are no files. -/
  | nil {state : ToolState} : WrittenAll host state state []
  /-- One file comes before the others. -/
  | cons {state middle next : ToolState} {file : CString} {files : List CString}
      (written : Written host state middle file) (more : WrittenAll host middle next files) :
      WrittenAll host state next (file :: files)

variable {files : List CString} {pairs : List (CString × Option CString)}

/-- Behind the first file there is one block, and both pointers point to it. -/
theorem WrittenAll.block (written : WrittenAll host state next files) (filled : files ≠ []) :
    next.memory.live = next.memory.source.toList ∧ next.memory.source ≠ none ∧
      next.memory.dest = next.memory.source := by
  induction written with
  | nil => exact absurd rfl filled
  | @cons state middle next file files written more ih =>
    cases more with
    | nil => exact ⟨written.sound.memory.live, written.there, written.same⟩
    | cons _ _ => exact ih (List.cons_ne_nil _ _)

/-! ## main -/

/-- A command line that `parser_args` reads: one option with the output file, and the files before
and behind it. -/
structure CommandLine (argv : List CString) (outputfile : CString) (files : List CString) :
    Prop where
  /-- How the command line is split. -/
  split : ∃ program front flag behind, argv = program :: front ++ flag :: outputfile :: behind ∧
    files = front ++ behind ∧ argumentKind flag = .output
  /-- There is a file. -/
  filled : files ≠ []
  /-- No file looks like an option. -/
  plain : ∀ arg ∈ files, argumentKind arg = .file

/-- `parser_args` reads the command line. -/
theorem CommandLine.parsed {argv : List CString} {outputfile : CString} (generous : host.Generous) :
    parserArgs host argv = .ok ⟨some outputfile, files.map some⟩ ↔
      CommandLine argv outputfile files := by
  rw [parserArgs_ok generous.calloc]
  constructor
  · intro ⟨program, front, flag, behind, split, joined, filled, kind, plain⟩
    exact ⟨⟨program, front, flag, behind, split, joined, kind⟩, filled, plain⟩
  · intro ⟨⟨program, front, flag, behind, split, joined, kind⟩, filled, plain⟩
    exact ⟨program, front, flag, behind, split, joined, filled, kind, plain⟩

/-- There is an argument for each file. -/
theorem CommandLine.zip {argv : List CString} {outputfile : CString}
    (line : CommandLine argv outputfile files) :
    (argv.zip (files.map some)).map Prod.snd = files.map some := by
  have ⟨program, front, flag, behind, split, joined, kind⟩ := line.split
  apply List.map_snd_zip
  rw [List.length_map, split, joined, List.length_append, List.length_append, List.length_cons,
    List.length_cons, List.length_cons]
  omega

/-- There is one block behind the loop of `main`, and it is freed. -/
theorem WrittenAll.freed (written : WrittenAll host state next files) (filled : files ≠ []) :
    free next.memory.live next.memory.source = some [] := by
  have ⟨live, there, _⟩ := written.block filled
  rw [live]
  cases source : next.memory.source with
  | none => exact absurd source there
  | some block =>
    apply (if_pos (List.mem_singleton.mpr rfl)).trans
    simp

end Bpcp.Foobar
