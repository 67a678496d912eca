import Bpcp.Foobar.Bin2cInput
import Bpcp.Lib.FilledArray

/-!
# How bin2c names an array, and how it reads its command line

`add_export` puts the name of an array together in a static buffer, out of the name of the file,
and keeps a pointer to that buffer in a list. All the pointers of the list are the same, so
`print_exports` prints the name of the last array once for each file. `parser_args` fills a list
that has room for all arguments but the program, one option and its value, so it stays in the
list, and fills it, only when there is exactly one option.
-/

namespace Bpcp.Foobar

open Bpcp.Lib

/-- `isalnum` in the C locale. -/
def isAlnum (byte : UInt8) : Bool :=
  (48 ≤ byte && byte ≤ 57) || (65 ≤ byte && byte ≤ 90) || (97 ≤ byte && byte ≤ 122)

/-- `strrchr`: the text from the last occurrence of a character on. -/
def strrchr (c : UInt8) : List UInt8 → Option (List UInt8)
  | [] => none
  | byte :: rest =>
    match strrchr c rest with
    | some found => some found
    | none => if byte = c then some (byte :: rest) else none

/-- What `export_data` can point to: the static buffer of `add_export`. -/
inductive StaticBuffer where
  /-- `strname`. -/
  | strname
deriving DecidableEq

/-- `export_list_t`, one element of the list. -/
structure ExportList where
  /-- `export_data`. -/
  exportData : StaticBuffer

/-- The static variables of `add_export`. -/
structure Exports where
  /-- `strname`, which has 1024 elements. -/
  strname : Buffer UInt8
  /-- `exports_head`, the elements that can be reached from it. -/
  exportsHead : List ExportList

/-- The static variables at the start. -/
def Exports.start : Exports := ⟨⟨fun _ => 0, []⟩, []⟩

/-- What `%s` prints of a buffer. Its 1024 elements are looked through for a NUL. -/
def Exports.printed (exports : Exports) : StaticBuffer → List UInt8
  | .strname => (exports.strname.take 1024).takeWhile (· ≠ 0)

/-- A character of the name of a file, as it stands in the name of an array. -/
def sanitize (byte : UInt8) : UInt8 := if isAlnum byte then byte else 95

/-- `begin`: the name of a file from its last slash on. -/
def beginOf (filename : List UInt8) : List UInt8 := (strrchr 47 filename).getD filename

/-- `ext`: the end of `begin` from its last dot on. -/
def extOf (filename : List UInt8) : Option (List UInt8) := strrchr 46 (beginOf filename)

/-- What the first loop of `add_export` copies, with the character behind it. -/
def extPart : Option (List UInt8) → List UInt8
  | some ext => ext.tail ++ [95]
  | none => []

/-- What the second loop of `add_export` copies. -/
def basePart (filename : List UInt8) : List UInt8 :=
  ((beginOf filename).take
    ((beginOf filename).length - ((extOf filename).getD []).length)).map sanitize

/-- The name of the array of a file, without its end. -/
def nameFront (filename : List UInt8) : List UInt8 :=
  95 :: extPart (extOf filename) ++ basePart filename

/-- The name of the array of a file. -/
def exportName (filename : List UInt8) : List UInt8 :=
  nameFront filename ++
    if (nameFront filename).getLast? = some 95 then (CString.lit "data").bytes
    else (CString.lit "_data").bytes

variable {host : Host} {exports next : Exports} {filename : List UInt8}

/-- The static variables between two calls: nothing was written outside the buffer. -/
def Exports.Sound (exports : Exports) : Prop := ∀ index ∈ exports.strname.written, index < 1024

/-- A character of an identifier in C. -/
def isIdentifier (byte : UInt8) : Bool := isAlnum byte || byte == 95

/-- What becomes of a character can stand in an identifier. -/
theorem sanitize_identifier (byte : UInt8) : isIdentifier (sanitize byte) = true := by
  rw [sanitize]
  by_cases plain : isAlnum byte = true
  · rw [if_pos plain, isIdentifier, plain]
    rfl
  · rw [if_neg plain]
    rfl

/-- The characters of the name of an array: those of an identifier, and those of the extension. -/
theorem exportName_characters {byte : UInt8} (inside : byte ∈ exportName filename) :
    isIdentifier byte = true ∨ ∃ ext, extOf filename = some ext ∧ byte ∈ ext.tail := by
  cases List.mem_append.mp inside with
  | inl front =>
    cases List.mem_append.mp front with
    | inl first =>
      cases List.mem_cons.mp first with
      | inl same =>
        rw [same]
        exact .inl rfl
      | inr part =>
        cases found : extOf filename with
        | none =>
          rw [found] at part
          exact absurd part List.not_mem_nil
        | some ext =>
          rw [found] at part
          cases List.mem_append.mp part with
          | inl copied => exact .inr ⟨ext, rfl, copied⟩
          | inr last =>
            rw [List.mem_singleton.mp last]
            exact .inl rfl
    | inr base =>
      have ⟨original, _, same⟩ := List.mem_map.mp base
      rw [← same]
      exact .inl (sanitize_identifier original)
  | inr behind =>
    have ends : ∀ byte ∈ (CString.lit "data").bytes ++ (CString.lit "_data").bytes,
        isIdentifier byte = true := List.all_eq_true.mp rfl
    left
    by_cases under : (nameFront filename).getLast? = some 95
    · rw [if_pos under] at behind
      exact ends byte (List.mem_append_left _ behind)
    · rw [if_neg under] at behind
      exact ends byte (List.mem_append_right _ behind)

/-- What `strrchr` finds is the end of the text. -/
theorem strrchr_suffix {c : UInt8} {text found : List UInt8} (finds : strrchr c text = some found) :
    found <:+ text := by
  cases text with
  | nil => exact absurd finds nofun
  | cons byte rest =>
    rw [strrchr] at finds
    cases later : strrchr c rest with
    | some other =>
      simp only [later] at finds
      rw [← Option.some.inj finds]
      exact (strrchr_suffix later).trans (List.suffix_cons byte rest)
    | none =>
      simp only [later, Option.ite_none_right_eq_some] at finds
      rw [← Option.some.inj finds.2]

/-- The extension is the end of the name of the file. -/
theorem extOf_suffix {ext : List UInt8} (found : extOf filename = some ext) : ext <:+ filename := by
  have inBegin : ext <:+ beginOf filename := strrchr_suffix found
  apply inBegin.trans
  rw [beginOf]
  cases slash : strrchr 47 filename with
  | none => exact List.suffix_rfl
  | some begin => exact strrchr_suffix slash

/-- There is no NUL in the name of an array. -/
theorem exportName_noNul (file : CString) : (0 : UInt8) ∉ exportName file.bytes := by
  intro inside
  rcases exportName_characters inside with identifier | ⟨ext, found, copied⟩
  · exact absurd identifier (by decide)
  · exact file.noNul ((extOf_suffix found).mem (List.mem_of_mem_tail copied))

/-- A string that fits into a static buffer is printed whole. -/
theorem printed_store {name : List UInt8} (noNul : (0 : UInt8) ∉ name) (fits : name.length < 1024)
    {exportsHead : List ExportList} :
    (Exports.mk (exports.strname.store 0 (name ++ [0])) exportsHead).printed .strname = name := by
  have text : (exports.strname.store 0 (name ++ [0])).take 1024 =
      name ++ 0 :: ((exports.strname.store 0 (name ++ [0])).take 1024).drop (name.length + 1) := by
    have front : ((exports.strname.store 0 (name ++ [0])).take 1024).take (name ++ [0]).length =
        name ++ [0] := by
      have filled := Buffer.take_store exports.strname 0 (name ++ [0])
      rw [Nat.zero_add] at filled
      rw [Buffer.take, ← List.map_take, List.take_range, min_eq_left (by
        rw [List.length_append, List.length_singleton]
        omega)]
      exact filled
    rw [List.length_append, List.length_singleton] at front
    have whole := List.take_append_drop (name.length + 1)
      ((exports.strname.store 0 (name ++ [0])).take 1024)
    rw [front, List.append_assoc, List.singleton_append] at whole
    exact whole.symm
  rw [Exports.printed, text]
  exact (CString.mk name noNul).takeWhile_terminated _

/-! ## The command line -/

/-- What `parser_args` takes an argument for. -/
inductive ArgumentKind where
  /-- The option before the name of the output file. -/
  | output
  /-- An option that asks for the usage. -/
  | help
  /-- The name of a file. -/
  | file
deriving DecidableEq

/-- The tests of `parser_args`, which look at two characters. -/
def argumentKind (arg : CString) : ArgumentKind :=
  match arg.bytes with
  | 45 :: 111 :: _ => .output
  | 45 :: 104 :: _ => .help
  | 45 :: 63 :: _ => .help
  | _ => .file

/-- What `parser_args` leaves in its static variables. -/
structure Args where
  /-- `outputfile`. -/
  outputfile : Option CString
  /-- `filelist`. -/
  filelist : List (Option CString)

/-- The loop of `parser_args`, with the arguments that are left. -/
def parseLoop : List CString → Option CString → List (Option CString) → ℕ → Except Failure Args
  | [], outputfile, filelist, _ => .ok ⟨outputfile, filelist⟩
  | [arg], outputfile, filelist, listIdx =>
    match argumentKind arg with
    -- `argv[argc]` is `NULL`.
    | .output => .ok ⟨none, filelist⟩
    | .help => .error .usage
    | .file =>
      match assignAt filelist listIdx (some arg) with
      | some filelist => .ok ⟨outputfile, filelist⟩
      | none => .error .undefined
  | arg :: value :: rest, outputfile, filelist, listIdx =>
    match argumentKind arg with
    | .output => parseLoop rest (some value) filelist listIdx
    | .help => .error .usage
    | .file =>
      match assignAt filelist listIdx (some arg) with
      | some filelist => parseLoop (value :: rest) outputfile filelist (listIdx + 1)
      | none => .error .undefined

/-- `parser_args`. -/
def parserArgs (host : Host) (argv : List CString) : Except Failure Args :=
  if argv.length < 4 then .error .usage
  else if host.calloc ((argv.length - 3) * 8) then
    parseLoop argv.tail none (List.replicate (argv.length - 3) none) 0
  else .error .undefined

/-- How arguments are read: the output file before and after, the files, and the number of
options with a value. -/
inductive Parsed : List CString → Option CString → Option CString → List CString → ℕ → Prop where
  /-- There are no arguments. -/
  | done {outputfile : Option CString} : Parsed [] outputfile outputfile [] 0
  /-- An option and its value. -/
  | output {arg value : CString} {rest files : List CString} {before after : Option CString}
      {options : ℕ} (kind : argumentKind arg = .output)
      (more : Parsed rest (some value) after files options) :
      Parsed (arg :: value :: rest) before after files (options + 1)
  /-- A file. -/
  | file {arg : CString} {rest files : List CString} {before after : Option CString}
      {options : ℕ} (kind : argumentKind arg = .file)
      (more : Parsed rest before after files options) :
      Parsed (arg :: rest) before after (arg :: files) options

variable {args files stored : List CString} {before after : Option CString} {options room : ℕ}

/-- Every argument is a file, an option, or the value of one. -/
theorem Parsed.length (parsed : Parsed args before after files options) :
    args.length = files.length + 2 * options := by
  induction parsed with
  | done => rfl
  | output kind more ih =>
    rw [List.length_cons, List.length_cons, ih]
    omega
  | file kind more ih =>
    rw [List.length_cons, List.length_cons, ih]
    omega

/-- Without an option, all arguments are files. -/
theorem Parsed.no_option (parsed : Parsed args before after files options) (no : options = 0) :
    files = args ∧ after = before ∧ ∀ arg ∈ args, argumentKind arg = .file := by
  induction parsed with
  | done => exact ⟨rfl, rfl, fun _ inside => absurd inside List.not_mem_nil⟩
  | output kind more ih => exact absurd no (Nat.succ_ne_zero _)
  | file kind more ih =>
    have ⟨same, kept, plain⟩ := ih no
    rw [same]
    exact ⟨rfl, kept, List.forall_mem_cons.mpr ⟨kind, plain⟩⟩

/-- With one option, all other arguments are files. -/
theorem Parsed.one_option (parsed : Parsed args before after files options) (one : options = 1) :
    ∃ front flag value rest, args = front ++ flag :: value :: rest ∧ files = front ++ rest ∧
      argumentKind flag = .output ∧ after = some value ∧
      ∀ arg ∈ files, argumentKind arg = .file := by
  induction parsed with
  | done => exact absurd one Nat.zero_ne_one
  | @output arg value rest files before after options kind more ih =>
    have ⟨same, kept, plain⟩ := more.no_option (Nat.succ.inj one)
    rw [same]
    exact ⟨[], arg, value, rest, rfl, rfl, kind, kept, plain⟩
  | @file arg rest files before after options kind more ih =>
    have ⟨front, flag, value, behind, split, joined, flagged, kept, plain⟩ := ih one
    rw [split, joined]
    rw [joined] at plain
    exact ⟨arg :: front, flag, value, behind, rfl, rfl, flagged, kept,
      List.forall_mem_cons.mpr ⟨kind, plain⟩⟩

/-- Files are read as such. -/
theorem Parsed.of_files (plain : ∀ arg ∈ args, argumentKind arg = .file) :
    Parsed args before before args 0 := by
  induction args with
  | nil => exact .done
  | cons arg rest ih =>
    exact .file (plain arg List.mem_cons_self) (ih fun arg inside =>
      plain arg (List.mem_cons_of_mem _ inside))

/-- Files before other arguments are read as such. -/
theorem Parsed.append_files (plain : ∀ arg ∈ stored, argumentKind arg = .file)
    (parsed : Parsed args before after files options) :
    Parsed (stored ++ args) before after (stored ++ files) options := by
  induction stored with
  | nil => exact parsed
  | cons arg rest ih =>
    exact .file (plain arg List.mem_cons_self) (ih fun arg inside =>
      plain arg (List.mem_cons_of_mem _ inside))

/-- One more file is assigned in a list that has room. -/
theorem assignAt_room (arg : CString) :
    assignAt (stored.map some ++ List.replicate (room + 1) none) stored.length (some arg) =
      some ((stored ++ [arg]).map some ++ List.replicate room none) := by
  have assigned := assignAt_append (stored.map some) none (some arg) (List.replicate room none)
  rw [List.length_map] at assigned
  rw [List.replicate_succ, assigned, List.map_append, List.append_assoc]
  rfl

/-- No file is assigned in a list that is full. -/
theorem assignAt_full (arg : CString) :
    assignAt (stored.map some ++ List.replicate 0 none) stored.length (some arg) = none := by
  apply if_neg
  rw [List.replicate_zero, List.append_nil, List.length_map]
  exact lt_irrefl _

/-- What the loop of `parser_args` does with arguments that there is room for. -/
theorem parseLoop_ok (parsed : Parsed args before after files options)
    (enough : files.length ≤ room) :
    parseLoop args before (stored.map some ++ List.replicate room none) stored.length =
      .ok ⟨after, (stored ++ files).map some ++ List.replicate (room - files.length) none⟩ := by
  induction parsed generalizing stored room with
  | done =>
    rw [parseLoop, List.append_nil]
    rfl
  | output kind more ih =>
    rw [parseLoop, kind]
    exact ih enough
  | @file arg rest files before after options kind more ih =>
    cases room with
    | zero => exact absurd enough (Nat.not_succ_le_zero _)
    | succ room =>
      have shorter : files.length ≤ room := Nat.le_of_succ_le_succ enough
      have stepped : parseLoop rest before ((stored ++ [arg]).map some ++
          List.replicate room none) (stored ++ [arg]).length = _ := ih shorter
      rw [List.length_append, List.length_singleton, List.append_assoc] at stepped
      cases rest with
      | nil =>
        cases more
        rw [parseLoop, kind]
        dsimp only
        rw [assignAt_room]
        rfl
      | cons value rest =>
        rw [parseLoop, kind]
        dsimp only
        rw [assignAt_room, List.length_cons, Nat.add_sub_add_right]
        exact stepped

/-- An output file is found only in arguments that there is room for. -/
theorem parseLoop_parsed {args : List CString} {before : Option CString} {stored : List CString}
    {room : ℕ} {result : Args} (found : parseLoop args before
      (stored.map some ++ List.replicate room none) stored.length = .ok result)
    (there : result.outputfile ≠ none) :
    ∃ files options, Parsed args before result.outputfile files options ∧
      files.length ≤ room := by
  match args with
  | [] =>
    rw [parseLoop, Except.ok.injEq] at found
    rw [← found]
    exact ⟨[], 0, .done, Nat.zero_le _⟩
  | [arg] =>
    rw [parseLoop] at found
    cases kind : argumentKind arg with
    | output =>
      rw [kind, Except.ok.injEq] at found
      rw [← found] at there
      exact absurd rfl there
    | help =>
      rw [kind] at found
      exact absurd found nofun
    | file =>
      rw [kind] at found
      cases room with
      | zero =>
        rw [assignAt_full] at found
        exact absurd found nofun
      | succ room =>
        rw [assignAt_room, Except.ok.injEq] at found
        rw [← found]
        exact ⟨[arg], 0, .file kind .done, Nat.succ_le_succ (Nat.zero_le _)⟩
  | arg :: value :: rest =>
    rw [parseLoop] at found
    cases kind : argumentKind arg with
    | output =>
      rw [kind] at found
      have ⟨files, options, parsed, enough⟩ := parseLoop_parsed found there
      exact ⟨files, options + 1, .output kind parsed, enough⟩
    | help =>
      rw [kind] at found
      exact absurd found nofun
    | file =>
      rw [kind] at found
      cases room with
      | zero =>
        rw [assignAt_full] at found
        exact absurd found nofun
      | succ room =>
        rw [assignAt_room] at found
        have more : parseLoop (value :: rest) before ((stored ++ [arg]).map some ++
            List.replicate room none) (stored ++ [arg]).length = .ok result := by
          rw [List.length_append]
          exact found
        have ⟨files, options, parsed, enough⟩ := parseLoop_parsed more there
        exact ⟨arg :: files, options, .file kind parsed, Nat.succ_le_succ enough⟩
  termination_by args.length

/-- `parser_args` finds an output file and as many files as its caller will open exactly on a
command line with one option, its value, and at least one file before or behind it. -/
theorem parserArgs_ok {argv : List CString} {outputfile : CString} {files : List CString}
    (grants : ∀ size, host.calloc size = true) :
    parserArgs host argv = .ok ⟨some outputfile, files.map some⟩ ↔
      ∃ program front flag behind, argv = program :: front ++ flag :: outputfile :: behind ∧
        files = front ++ behind ∧ files ≠ [] ∧ argumentKind flag = .output ∧
        ∀ arg ∈ files, argumentKind arg = .file := by
  constructor
  · intro found
    by_cases few : argv.length < 4
    · rw [parserArgs, if_pos few] at found
      exact absurd found nofun
    · rw [parserArgs, if_neg few, if_pos (grants _)] at found
      have started : parseLoop argv.tail none (([] : List CString).map some ++
          List.replicate (argv.length - 3) none) ([] : List CString).length =
            .ok ⟨some outputfile, files.map some⟩ := found
      have ⟨read, options, parsed, enough⟩ := parseLoop_parsed started nofun
      rw [parseLoop_ok parsed enough, Except.ok.injEq, Args.mk.injEq, List.nil_append] at started
      have full : argv.length - 3 - read.length = 0 := by
        by_contra left
        have inside : none ∈ files.map some := by
          rw [← started.2]
          exact List.mem_append_right _ (List.mem_replicate.mpr ⟨left, rfl⟩)
        have ⟨file, _, same⟩ := List.mem_map.mp inside
        exact Option.some_ne_none file same
      rw [full, List.replicate_zero, List.append_nil] at started
      have same : read = files := List.map_injective_iff.mpr (Option.some_injective _) started.2
      rw [same] at parsed enough full
      have counted := parsed.length
      rw [List.length_tail] at counted
      have ⟨front, flag, value, behind, split, joined, kind, output, plain⟩ :=
        parsed.one_option (by omega)
      cases argv with
      | nil => exact absurd (Nat.succ_pos 3) few
      | cons program args =>
        have args_eq : args = front ++ flag :: value :: behind := split
        rw [args_eq, ← Option.some.inj output]
        refine ⟨program, front, flag, behind, rfl, joined, ?_, kind, plain⟩
        intro none
        rw [none] at full
        rw [List.length_nil] at full
        omega
  · intro ⟨program, front, flag, behind, split, joined, filled, kind, plain⟩
    have positive : 0 < files.length := List.length_pos_iff.mpr filled
    have counted : files.length = front.length + behind.length := by
      rw [joined, List.length_append]
    have length : argv.length = files.length + 3 := by
      rw [split, counted, List.cons_append, List.length_cons, List.length_append,
        List.length_cons, List.length_cons]
      omega
    rw [joined] at plain
    have parsed : Parsed (front ++ flag :: outputfile :: behind) none (some outputfile)
        (front ++ behind) 1 :=
      .append_files (fun arg inside => plain arg (List.mem_append_left _ inside))
        (.output kind (.of_files fun arg inside => plain arg (List.mem_append_right _ inside)))
    rw [← joined] at parsed
    rw [parserArgs, if_neg (by omega), if_pos (grants _), length, Nat.add_sub_cancel]
    have ended : parseLoop (front ++ flag :: outputfile :: behind) none
        (([] : List CString).map some ++ List.replicate files.length none)
          ([] : List CString).length = _ := parseLoop_ok parsed le_rfl
    rw [Nat.sub_self, List.replicate_zero, List.append_nil] at ended
    rw [split]
    exact ended

end Bpcp.Foobar
