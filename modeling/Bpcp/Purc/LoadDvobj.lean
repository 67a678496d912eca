import Bpcp.Purc.Stringify

/-!
# The search for a shared library

`purc_variant_load_dvobj_from_so` looks for a shared library in a list of places and opens the
first one that can be opened. The places are the directories of an environment variable, as far as
they are absolute, and then those of the system. A name with a slash is left to `dlopen`.
-/

namespace Bpcp.Purc

open Bpcp.Lib

/-! ## The search -/

/-- The state of the search: `so`, `library_handle`, and the names that `dlopen` was called
with. -/
structure Search where
  /-- `so`. -/
  so : CString
  /-- The names that were tried, in order. -/
  tried : List CString
  /-- `library_handle`. -/
  libraryHandle : Option ℕ

/-- `PATH_MAX`. -/
def pathMax : ℕ := 4096

/-- What `snprintf` leaves in `so`. -/
def soOf (text : List UInt8) : CString := .ofBytes (snprintf (pathMax + 1) text)

/-- A name is printed to `so`. There is no result when the assertion on its length fails. -/
def printSo (checked : Bool) (text : List UInt8) : Option CString :=
  if checked && !(decide (0 < text.length) && decide (text.length < pathMax + 1)) then none
  else some (soOf text)

/-- A name is printed to `so`, and `dlopen` is called with it. -/
def attempt (checked : Bool) (dlopen : CString → Option ℕ) (search : Search)
    (text : List UInt8) : Option Search := do
  let so ← printSo checked text
  some ⟨so, search.tried ++ [so], dlopen so⟩

/-- `"libpurc-dvobj-%s%s"` with the extension on Linux. -/
def libraryName (name : CString) : List UInt8 :=
  (CString.lit "libpurc-dvobj-").bytes ++ name.bytes ++ (CString.lit ".so").bytes

/-- `"%s/libpurc-dvobj-%s%s"`. -/
def pathIn (name : CString) (dir : List UInt8) : List UInt8 := dir ++ 47 :: libraryName name

/-- The first character of a directory is a slash. -/
def isAbsolute (dir : List UInt8) : Bool := dir.head? == some 47

/-- The tokens that `strtok_r` finds between the separators `":;"`. -/
def tokens (env : CString) : List (List UInt8) :=
  (env.bytes.splitOnP fun byte => byte == 58 || byte == 59).filter (· ≠ [])

/-- The loop over the directories of the environment variable. -/
def envLoop (checked : Bool) (dlopen : CString → Option ℕ) (name : CString) :
    List (List UInt8) → Search → Option Search
  | [], search => some search
  | dir :: rest, search =>
    if isAbsolute dir then do
      let search ← attempt checked dlopen search (pathIn name dir)
      if search.libraryHandle.isSome then some search
      else envLoop checked dlopen name rest search
    else some search

/-- The directories of `other_tries`, with `PURC_API_VERSION_STRING`. -/
def otherTries : List (List UInt8) :=
  [(CString.lit "/usr/local/lib/purc-0.9").bytes, (CString.lit "/usr/lib/purc-0.9").bytes,
    (CString.lit "/lib/purc-0.9").bytes]

/-- The loop over the system directories. -/
def systemLoop (checked : Bool) (dlopen : CString → Option ℕ) (name : CString) :
    List (List UInt8) → Search → Option Search
  | [], search => some search
  | dir :: rest, search => do
    let search ← attempt checked dlopen search (pathIn name dir)
    if search.libraryHandle.isSome then some search
    else systemLoop checked dlopen name rest search

/-- The search in the directories of the environment variable and of the system. -/
def searchDirs (checked : Bool) (dlopen : CString → Option ℕ) (env : Option CString)
    (name so : CString) : Option Search := do
  let search ← envLoop checked dlopen name ((env.map tokens).getD []) ⟨so, [], none⟩
  if search.libraryHandle.isSome then some search
  else systemLoop checked dlopen name otherTries search

/-- The first half of `purc_variant_load_dvobj_from_so`, with the environment variable
`PURC_ENVV_DVOBJS_PATH`. There is no result when an assertion fails. -/
def searchSo (checked : Bool) (dlopen : CString → Option ℕ) (env soName varName : Option CString) :
    Option Search :=
  match soName.or varName with
  | none => none
  | some name =>
    if soName.any fun soName => decide (47 ∈ soName.bytes) then
      attempt checked dlopen ⟨.lit "", [], none⟩ name.bytes
    else do
      -- The name that is printed here is printed over before it is used.
      let so ← printSo checked
        (if soName.any fun soName => decide (46 ∈ soName.bytes) then name.bytes
        else libraryName name)
      searchDirs checked dlopen env name so

/-- The names that the search goes through, in order. -/
def candidates (env soName : Option CString) (name : CString) : List (List UInt8) :=
  if soName.any fun soName => decide (47 ∈ soName.bytes) then [name.bytes]
  else (((env.map tokens).getD []).takeWhile isAbsolute ++ otherTries).map (pathIn name)

/-- A search went through a list of names: it called `dlopen` with the names in order up to the
first one that it could open. -/
structure Searched (dlopen : CString → Option ℕ) (names : List CString) (search : Search) :
    Prop where
  /-- The names were tried in order. -/
  inOrder : search.tried <+: names
  /-- All names but the last one that was tried could not be opened. -/
  failed : ∀ so ∈ search.tried.dropLast, dlopen so = none
  /-- The first library that can be opened was found. -/
  found : search.libraryHandle = names.findSome? dlopen
  /-- Without a library all names were tried. -/
  all : search.libraryHandle = none → search.tried = names
  /-- A library was opened with the last name. -/
  last : search.libraryHandle ≠ none → ∃ so ∈ search.tried.getLast?,
    dlopen so = search.libraryHandle

variable {checked : Bool} {dlopen : CString → Option ℕ} {search next : Search} {name : CString}
  {texts : List (List UInt8)} {names : List CString} {dirs : List (List UInt8)}

/-- A name that fits. -/
def Fits (text : List UInt8) : Prop := 0 < text.length ∧ text.length < pathMax + 1

/-- A name that fits is printed. -/
theorem printSo_eq {text : List UInt8} (fits : checked = true → Fits text) :
    printSo checked text = some (soOf text) := by
  rw [printSo]
  apply if_neg
  cases checked with
  | false => simp
  | true =>
    have ⟨positive, short⟩ := fits rfl
    simp [positive, short]

/-- Nothing was tried yet. -/
theorem Searched.start (so : CString) : Searched dlopen [] ⟨so, [], none⟩ where
  inOrder := List.prefix_rfl
  failed := fun _ inside => absurd inside List.not_mem_nil
  found := rfl
  all := fun _ => rfl
  last := fun some => absurd rfl some

/-- One more name is tried when the ones before could not be opened. -/
theorem Searched.attempt {text : List UInt8} (searched : Searched dlopen names search)
    (none : search.libraryHandle = none) (fits : checked = true → Fits text) :
    ∃ next, attempt checked dlopen search text = some next ∧
      Searched dlopen (names ++ [soOf text]) next := by
  apply Exists.intro ⟨soOf text, search.tried ++ [soOf text], dlopen (soOf text)⟩
  constructor
  · rw [Purc.attempt, printSo_eq fits]
    rfl
  · have before : search.tried = names := searched.all none
    have unopened : ∀ so ∈ names, dlopen so = Option.none := by
      rw [← List.findSome?_eq_none_iff, ← searched.found]
      exact none
    constructor
    · rw [before]
    · rw [List.dropLast_concat, before]
      exact unopened
    · rw [List.findSome?_append, List.findSome?_eq_none_iff.mpr unopened, Option.none_or]
      exact (List.findSome?_singleton).symm
    · intro _
      rw [before]
    · intro _
      rw [List.getLast?_concat]
      exact ⟨_, rfl, rfl⟩

/-- Once a library is open, further names do not matter. -/
theorem Searched.append (searched : Searched dlopen names search)
    (some : search.libraryHandle ≠ none) (more : List CString) :
    Searched dlopen (names ++ more) search where
  inOrder := searched.inOrder.trans (List.prefix_append names more)
  failed := searched.failed
  found := by
    have found := searched.found
    rw [List.findSome?_append, ← found, Option.or_of_isSome (Option.isSome_iff_ne_none.mpr some)]
  all := fun none => absurd none some
  last := searched.last

/-- A directory in which the names fit. -/
def DirsFit (checked : Bool) (name : CString) (dirs : List (List UInt8)) : Prop :=
  checked = true → ∀ dir ∈ dirs, Fits (pathIn name dir)

/-- The names in some directories. -/
def namesIn (name : CString) (dirs : List (List UInt8)) : List CString :=
  dirs.map fun dir => soOf (pathIn name dir)

/-- The loop over the environment variable goes through its directories up to the first one that is
not absolute. -/
theorem Searched.envLoop (searched : Searched dlopen names search)
    (none : search.libraryHandle = none)
    (fits : DirsFit checked name (dirs.takeWhile isAbsolute)) :
    ∃ next, envLoop checked dlopen name dirs search = some next ∧
      Searched dlopen (names ++ namesIn name (dirs.takeWhile isAbsolute)) next := by
  induction dirs generalizing names search with
  | nil =>
    apply Exists.intro search
    rw [List.takeWhile_nil, namesIn, List.map_nil, List.append_nil]
    exact ⟨rfl, searched⟩
  | cons dir rest ih =>
    by_cases absolute : isAbsolute dir = true
    · rw [List.takeWhile_cons_of_pos absolute] at fits ⊢
      have ⟨middle, tried, after⟩ := searched.attempt none
        (fun on => fits on dir List.mem_cons_self)
      rw [Purc.envLoop, if_pos absolute, tried]
      have split : names ++ namesIn name (dir :: rest.takeWhile isAbsolute) =
          (names ++ [soOf (pathIn name dir)]) ++ namesIn name (rest.takeWhile isAbsolute) := by
        rw [List.append_assoc]
        rfl
      rw [split]
      by_cases opened : middle.libraryHandle.isSome = true
      · exact ⟨middle, if_pos opened, after.append (Option.isSome_iff_ne_none.mp opened) _⟩
      · have closed := Option.not_isSome_iff_eq_none.mp opened
        have ⟨next, looped, found⟩ := ih after closed fun on other inside =>
          fits on other (List.mem_cons_of_mem _ inside)
        exact ⟨next, (if_neg opened).trans looped, found⟩
    · rw [List.takeWhile_cons_of_neg absolute, Purc.envLoop, if_neg absolute]
      apply Exists.intro search
      rw [namesIn, List.map_nil, List.append_nil]
      exact ⟨rfl, searched⟩

/-- The loop over the system directories goes through all of them. -/
theorem Searched.systemLoop (searched : Searched dlopen names search)
    (none : search.libraryHandle = none) (fits : DirsFit checked name dirs) :
    ∃ next, systemLoop checked dlopen name dirs search = some next ∧
      Searched dlopen (names ++ namesIn name dirs) next := by
  induction dirs generalizing names search with
  | nil =>
    apply Exists.intro search
    rw [namesIn, List.map_nil, List.append_nil]
    exact ⟨rfl, searched⟩
  | cons dir rest ih =>
    have ⟨middle, tried, after⟩ := searched.attempt none
      (fun on => fits on dir List.mem_cons_self)
    rw [Purc.systemLoop, tried]
    have split : names ++ namesIn name (dir :: rest) =
        (names ++ [soOf (pathIn name dir)]) ++ namesIn name rest := by
      rw [List.append_assoc]
      rfl
    rw [split]
    by_cases opened : middle.libraryHandle.isSome = true
    · exact ⟨middle, if_pos opened, after.append (Option.isSome_iff_ne_none.mp opened) _⟩
    · have closed := Option.not_isSome_iff_eq_none.mp opened
      have ⟨next, looped, found⟩ := ih after closed fun on other inside =>
        fits on other (List.mem_cons_of_mem _ inside)
      exact ⟨next, (if_neg opened).trans looped, found⟩

/-- The search in directories goes through all of them. -/
theorem searchDirs_searches {env : Option CString} (so : CString)
    (fits : DirsFit checked name (((env.map tokens).getD []).takeWhile isAbsolute ++ otherTries)) :
    ∃ search, searchDirs checked dlopen env name so = some search ∧
      Searched dlopen
        (namesIn name (((env.map tokens).getD []).takeWhile isAbsolute ++ otherTries)) search := by
  have ⟨middle, looped, after⟩ : ∃ middle, envLoop checked dlopen name
      ((env.map tokens).getD []) ⟨so, [], none⟩ = some middle ∧ _ :=
    (Searched.start so).envLoop rfl fun on dir inside =>
      fits on dir (List.mem_append_left _ inside)
  rw [List.nil_append] at after
  rw [searchDirs, looped, namesIn, List.map_append]
  by_cases opened : middle.libraryHandle.isSome = true
  · exact ⟨middle, if_pos opened, after.append (Option.isSome_iff_ne_none.mp opened) _⟩
  · have ⟨next, tried, found⟩ : ∃ next, systemLoop checked dlopen name otherTries middle =
        some next ∧ _ :=
      after.systemLoop (Option.not_isSome_iff_eq_none.mp opened) fun on dir inside =>
        fits on dir (List.mem_append_right _ inside)
    exact ⟨next, (if_neg opened).trans tried, found⟩

/-- The search goes through its names. -/
theorem searchSo_found {env soName varName : Option CString}
    (named : soName.or varName = some name)
    (fits : checked = true → (∀ text ∈ candidates env soName name, Fits text) ∧
      Fits name.bytes ∧ Fits (libraryName name)) :
    ∃ search, searchSo checked dlopen env soName varName = some search ∧
      Searched dlopen ((candidates env soName name).map soOf) search := by
  rw [searchSo, named]
  dsimp only
  by_cases slash : (soName.any fun soName => decide (47 ∈ soName.bytes)) = true
  · rw [if_pos slash, candidates, if_pos slash]
    exact (Searched.start (.lit "")).attempt rfl fun on => (fits on).2.1
  · have inside : candidates env soName name =
        (((env.map tokens).getD []).takeWhile isAbsolute ++ otherTries).map (pathIn name) :=
      if_neg slash
    have printed : printSo checked
        (if soName.any fun soName => decide (46 ∈ soName.bytes) then name.bytes
          else libraryName name) = some _ := printSo_eq (by
      intro on
      split
      · exact (fits on).2.1
      · exact (fits on).2.2)
    rw [if_neg slash, printed, inside, List.map_map]
    apply searchDirs_searches
    intro on dir member
    apply (fits on).1
    rw [inside]
    exact List.mem_map_of_mem member

/-- A name that starts with a slash is printed with it. -/
theorem slash_mem_soOf {text : List UInt8} (absolute : isAbsolute text = true) :
    (47 : UInt8) ∈ (soOf text).bytes := by
  cases text with
  | nil => exact absurd absolute nofun
  | cons byte rest =>
    have first : byte = 47 := Option.some.inj (beq_iff_eq.mp absolute)
    show 47 ∈ ((byte :: rest).take (4095 + 1) ++ [0]).takeWhile (· ≠ 0)
    rw [first, List.take_succ_cons, List.cons_append, List.takeWhile_cons_of_pos (by decide)]
    exact List.mem_cons_self

/-- The names in the directories start with a slash. -/
theorem slash_mem_candidates {env soName : Option CString}
    (named : soName = none ∨ soName = some name)
    (plain : (47 : UInt8) ∉ name.bytes) :
    ∀ so ∈ (candidates env soName name).map soOf, (47 : UInt8) ∈ so.bytes := by
  have slash : ¬(soName.any fun soName => decide (47 ∈ soName.bytes)) = true := by
    cases named with
    | inl missing =>
      rw [missing]
      exact Bool.false_ne_true
    | inr same =>
      rw [same]
      exact fun inside => plain (of_decide_eq_true inside)
  rw [candidates, if_neg slash]
  intro so inside
  have ⟨text, member, same⟩ := List.mem_map.mp inside
  have ⟨dir, within, path⟩ := List.mem_map.mp member
  have absolute : isAbsolute dir = true := by
    cases List.mem_append.mp within with
    | inl front => exact List.mem_takeWhile_imp front
    | inr system =>
      have all : ∀ dir ∈ otherTries, isAbsolute dir = true := List.all_eq_true.mp rfl
      exact all dir system
  rw [← same, ← path]
  apply slash_mem_soOf
  cases dir with
  | nil => exact absurd absolute nofun
  | cons byte rest => exact absolute

/-- The search goes through its names, in the directories of the environment variable up to the
first one that is not absolute and then in those of the system, and opens the first library that
can be opened. It opens nothing else, and without a slash in it the name itself is never
tried. -/
theorem searchSo_searches {env soName varName : Option CString}
    (named : soName.or varName = some name)
    (fits : checked = true → (∀ text ∈ candidates env soName name, Fits text) ∧
      Fits name.bytes ∧ Fits (libraryName name)) :
    ∃ search, searchSo checked dlopen env soName varName = some search ∧
      Searched dlopen ((candidates env soName name).map soOf) search ∧
      ((47 : UInt8) ∉ name.bytes → name ∉ search.tried) := by
  have either : soName = none ∨ soName = some name := by
    cases soName with
    | none => exact .inl rfl
    | some given => exact .inr named
  have untried : ∀ search, Searched dlopen ((candidates env soName name).map soOf) search →
      (47 : UInt8) ∉ name.bytes → name ∉ search.tried := fun search searched plain inside =>
    plain (slash_mem_candidates either plain name (searched.inOrder.subset inside))
  have ⟨search, found, searched⟩ : ∃ search, searchSo checked dlopen env soName varName =
      some search ∧ _ := searchSo_found named fits
  exact ⟨search, found, searched, untried search searched⟩

/-- A system with a single library. -/
def oneLibrary (path so : CString) : Option ℕ := if so = path then some 7 else none

/-- The library is in a directory of the system. -/
theorem searchSo_searches_math :
    ∃ search, searchSo true (oneLibrary (.lit "/usr/lib/purc-0.9/libpurc-dvobj-math.so"))
        (some (.lit "/opt:lib:/srv")) none (some (.lit "math")) = some search ∧
      Searched (oneLibrary (.lit "/usr/lib/purc-0.9/libpurc-dvobj-math.so"))
        ((candidates (some (.lit "/opt:lib:/srv")) none (.lit "math")).map soOf) search ∧
      ((47 : UInt8) ∉ (CString.lit "math").bytes → CString.lit "math" ∉ search.tried) := by
  apply searchSo_searches rfl
  intro _
  unfold Fits
  decide

end Bpcp.Purc
