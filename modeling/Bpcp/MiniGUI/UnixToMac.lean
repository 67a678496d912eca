import Bpcp.Lib.Buffer
import Bpcp.Lib.CString
import Bpcp.Lib.Run

/-!
# Paths with colons

`unix_to_mac` translates a path with slashes to one with colons, in a block that has two bytes more
than the path. It goes from slash to slash: names are copied, empty components and single dots are
left out, and of a component that leads up only the colon remains that comes behind it. So the
translation says the same as the path unless the path ends with a component that leads up.
-/

namespace Bpcp.MiniGUI

open Bpcp.Lib

/-- The pointers of the loop: what is left from `src` on, and `dst` in the block. -/
structure PathState where
  /-- The characters from `src` to the end of `file`. -/
  src : List UInt8
  /-- `dst`. -/
  dst : ℕ
  /-- The block at `path`. -/
  path : Buffer UInt8

/-- The loop of `unix_to_mac` for one component. -/
def translateComponent (state : PathState) : PathState :=
  let component := state.src.takeWhile (· ≠ 47)
  let src := state.src.drop (component.length + 1)
  if component = [] ∨ component = [46] then { state with src := src }
  else
    let copied : PathState :=
      if component = [46, 46] then { state with src := src }
      else ⟨src, state.dst + component.length, state.path.store state.dst component⟩
    -- There was a slash.
    if component.length < state.src.length then
      { copied with dst := copied.dst + 1, path := copied.path.set copied.dst 58 }
    else copied

/-- The pointers before the loop. -/
def startPath (file : List UInt8) (block : Buffer UInt8) : PathState :=
  if file.head? = some 47 then ⟨file.tail, 0, block⟩
  else if file.head? ≠ some 58 then ⟨file, 1, block.set 0 58⟩
  else ⟨file, 0, block⟩

/-- `unix_to_mac`, with the block that `malloc` returns: the block, and where its NUL is. The size
of the block is an `int`, and the block is not checked. -/
def unixToMac (file : CString) (malloc : Option (Buffer UInt8)) : Run (Buffer UInt8 × ℕ) := do
  let block ← Run.defined (if file.strlen + 2 < 2 ^ 31 then malloc else none)
  let state ← Run.whileLoop (fun state : PathState => state.src ≠ [])
    (fun state => .ok (translateComponent state)) (file.strlen + 1) (startPath file.bytes block)
  .ok (state.path.set state.dst 0, state.dst)

/-! ## The text -/

/-- A component that is not left out. -/
def isKept (component : List UInt8) : Bool := component ≠ [] && component ≠ [46]

/-- What remains of a component. -/
def macName (component : List UInt8) : List UInt8 := if component = [46, 46] then [] else component

/-- The names between the colons. -/
def macNames : List (List UInt8) → List (List UInt8)
  | [] => [[]]
  | [last] => [if isKept last then macName last else []]
  | component :: rest => if isKept component then macName component :: macNames rest
    else macNames rest

/-- The text for the characters from `src` on. -/
def macText (src : List UInt8) : List UInt8 := [58].intercalate (macNames (src.splitOn 47))

/-- The colon in front of a relative path. -/
def macLead (file : List UInt8) : List UInt8 :=
  if file.head? = some 47 ∨ file.head? = some 58 then [] else [58]

/-- The characters behind a slash in front. -/
def behindRoot (file : List UInt8) : List UInt8 :=
  if file.head? = some 47 then file.tail else file

/-- What is written for a component. -/
def written (component : List UInt8) (slash : Bool) : List UInt8 :=
  if isKept component then macName component ++ (if slash then [58] else []) else []

variable {state : PathState} {component rest : List UInt8} {components : List (List UInt8)}

/-- There is always a last name. -/
theorem macNames_ne_nil : macNames components ≠ [] := by
  induction components with
  | nil => exact List.cons_ne_nil _ _
  | cons component rest ih =>
    cases rest with
    | nil => exact List.cons_ne_nil _ _
    | cons next more =>
      rw [macNames]
      · split
        · exact List.cons_ne_nil _ _
        · exact ih
      · exact nofun

/-- The text for a component with a slash behind it. -/
theorem macText_slash (plain : (47 : UInt8) ∉ component) :
    macText (component ++ 47 :: rest) = written component true ++ macText rest := by
  have split := List.splitOn_append_cons_self_of_not_mem plain rest
  have ⟨first, others, more⟩ := List.exists_cons_of_ne_nil (List.splitOn_ne_nil 47 rest)
  rw [macText, macText, split, more, written, macNames]
  · by_cases kept : isKept component = true
    · rw [if_pos kept, if_pos kept, if_pos rfl, List.intercalate_cons_of_ne_nil macNames_ne_nil,
        List.append_assoc]
    · rw [if_neg kept, if_neg kept, List.nil_append]
  · exact nofun

/-- The text for the last component. -/
theorem macText_last (plain : (47 : UInt8) ∉ component) :
    macText component = written component false := by
  rw [macText, List.splitOn_eq_singleton plain, macNames, written]
  by_cases kept : isKept component = true
  · simp [kept]
  · simp [kept]

/-- What one turn of the loop does. -/
theorem translateComponent_eq (state : PathState) :
    translateComponent state =
      ⟨state.src.drop ((state.src.takeWhile (· ≠ 47)).length + 1),
        state.dst + (written (state.src.takeWhile (· ≠ 47))
          (decide ((state.src.takeWhile (· ≠ 47)).length < state.src.length))).length,
        state.path.store state.dst (written (state.src.takeWhile (· ≠ 47))
          (decide ((state.src.takeWhile (· ≠ 47)).length < state.src.length)))⟩ := by
  unfold translateComponent written
  generalize state.src.takeWhile (· ≠ 47) = component
  dsimp only
  by_cases dropped : component = [] ∨ component = [46]
  · have left : isKept component = false := by
      cases dropped with
      | inl empty => rw [empty]; rfl
      | inr dot => rw [dot]; rfl
    rw [if_pos dropped, left]
    rfl
  · have kept : isKept component = true := by
      simpa [isKept] using not_or.mp dropped
    rw [if_neg dropped, if_pos kept]
    by_cases up : component = [46, 46]
    · rw [if_pos up, macName, if_pos up]
      by_cases slash : component.length < state.src.length
      · simp [slash, Buffer.store]
      · simp [slash, Buffer.store]
    · rw [if_neg up, macName, if_neg up]
      by_cases slash : component.length < state.src.length
      · simp [slash, Buffer.store_append, Buffer.store, Nat.add_assoc]
      · simp [slash]

/-- What holds in front of every turn of the loop: the text up to `dst` and the text for the rest
are the whole text, nothing was written from `dst` on, and the rest fits. -/
structure Translates (whole : List UInt8) (room : ℕ) (state : PathState) : Prop where
  /-- The text that is written and the text for the rest. -/
  text : state.path.take state.dst ++ macText state.src = whole
  /-- The rest fits. -/
  fits : state.dst + state.src.length ≤ room
  /-- Nothing was written from `dst` on. -/
  inside : ∀ index ∈ state.path.written, index < state.dst

/-- A component is written with what is behind it, and takes no more room than in the path. -/
theorem written_length_le (component : List UInt8) (slash : Bool) :
    (written component slash).length ≤ component.length + (if slash then 1 else 0) := by
  unfold written macName
  split
  · rw [List.length_append]
    split <;> split <;> simp
  · exact Nat.zero_le _

/-- A turn with a slash. -/
theorem translateComponent_slash (state : PathState) (plain : (47 : UInt8) ∉ component)
    (split : state.src = component ++ 47 :: rest) :
    translateComponent state = ⟨rest, state.dst + (written component true).length,
      state.path.store state.dst (written component true)⟩ := by
  have taken : state.src.takeWhile (· ≠ 47) = component := by
    rw [split, List.takeWhile_append_of_pos, List.takeWhile_cons_of_neg (by decide),
      List.append_nil]
    exact fun byte inside => decide_eq_true (ne_of_mem_of_not_mem inside plain)
  have shorter : component.length < state.src.length := by
    rw [split, List.length_append, List.length_cons]
    omega
  have left : state.src.drop (component.length + 1) = rest := by
    rw [split, ← List.drop_drop, List.drop_left]
    rfl
  rw [translateComponent_eq, taken, left, decide_eq_true shorter]

/-- A turn without a slash. -/
theorem translateComponent_last (state : PathState) (plain : (47 : UInt8) ∉ state.src) :
    translateComponent state = ⟨[], state.dst + (written state.src false).length,
      state.path.store state.dst (written state.src false)⟩ := by
  have taken : state.src.takeWhile (· ≠ 47) = state.src :=
    List.takeWhile_eq_self_iff.mpr fun byte inside =>
      decide_eq_true (ne_of_mem_of_not_mem inside plain)
  have left : state.src.drop (state.src.length + 1) = [] :=
    List.drop_eq_nil_of_le (Nat.le_succ _)
  rw [translateComponent_eq, taken, left, decide_eq_false (lt_irrefl _)]

/-- Text that is written keeps the invariant when it takes no more room than what was read. -/
theorem Translates.write {whole text : List UInt8} {room : ℕ}
    (translates : Translates whole room state) (same : macText state.src = text ++ macText rest)
    (fits : text.length + rest.length ≤ state.src.length) :
    Translates whole room
      ⟨rest, state.dst + text.length, state.path.store state.dst text⟩ where
  text := by
    rw [Buffer.take_store, List.append_assoc, ← same]
    exact translates.text
  fits := by
    have before := translates.fits
    dsimp only
    omega
  inside := by
    intro index inside
    cases Buffer.mem_store_written.mp inside with
    | inl old => exact Nat.lt_add_right _ (translates.inside index old)
    | inr new => exact new.2

/-- One turn of the loop. -/
theorem Translates.turn {whole : List UInt8} {room : ℕ}
    (translates : Translates whole room state) (more : state.src ≠ []) :
    Translates whole room (translateComponent state) ∧
      (translateComponent state).src.length < state.src.length := by
  by_cases slash : (47 : UInt8) ∈ state.src
  · have ⟨component, rest, split, plain⟩ := List.eq_append_cons_of_mem slash
    have length : state.src.length = component.length + (rest.length + 1) := by
      rw [split, List.length_append, List.length_cons]
    have room := written_length_le component true
    rw [translateComponent_slash state plain split]
    constructor
    · apply translates.write
      · rw [split, macText_slash plain]
      · rw [if_pos rfl] at room
        omega
    · dsimp only
      omega
  · have room := written_length_le state.src false
    rw [translateComponent_last state slash]
    constructor
    · apply translates.write
      · rw [macText_last slash]
        exact (List.append_nil _).symm
      · simpa using room
    · exact List.length_pos_of_ne_nil more

/-- The pointers before the loop. -/
theorem startPath_eq (file : List UInt8) (block : Buffer UInt8) :
    startPath file block =
      ⟨behindRoot file, (macLead file).length, block.store 0 (macLead file)⟩ := by
  unfold startPath behindRoot macLead
  by_cases root : file.head? = some 47
  · simp [root, Buffer.store]
  · by_cases colon : file.head? = some 58
    · simp [colon, Buffer.store]
    · simp [root, colon, Buffer.store]

/-- There is no text for no characters. -/
theorem macText_nil : macText [] = [] := rfl

/-- The characters behind the root are not more than those of the path. -/
theorem behindRoot_length_le (file : List UInt8) : (behindRoot file).length ≤ file.length := by
  unfold behindRoot
  split
  · exact file.tail_sublist.length_le
  · exact le_rfl

/-- The lead and the characters behind the root fit. -/
theorem macLead_fits (file : List UInt8) :
    (macLead file).length + (behindRoot file).length ≤ file.length + 1 := by
  unfold behindRoot macLead
  by_cases root : file.head? = some 47
  · rw [if_pos (.inl root), if_pos root, List.length_tail, List.length_nil]
    omega
  · rw [if_neg root]
    split
    · exact (Nat.zero_add _).trans_le (Nat.le_succ _)
    · exact (Nat.add_comm _ _).le

/-- The translation of a path. -/
def macPath (file : List UInt8) : List UInt8 := macLead file ++ macText (behindRoot file)

/-- The invariant holds in front of the loop. -/
theorem startPath_translates (file : List UInt8) {block : Buffer UInt8}
    (fresh : block.written = []) :
    Translates (macPath file) (file.length + 1) (startPath file block) := by
  have stored := Buffer.take_store block 0 (macLead file)
  rw [Nat.zero_add] at stored
  rw [startPath_eq]
  constructor
  · dsimp only
    rw [stored]
    rfl
  · exact macLead_fits file
  · intro index inside
    have new := Buffer.mem_store_written.mp inside
    rw [fresh, Nat.zero_add] at new
    exact (new.resolve_left List.not_mem_nil).2

/-- The loop ends with the translation of the path in the block, and the NUL is stored behind
it. -/
theorem unixToMac_ends {file : CString} {block : Buffer UInt8}
    (fits : file.strlen + 2 < 2 ^ 31) (fresh : block.written = []) :
    ∃ final, unixToMac file (some block) = .ok (final.path.set final.dst 0, final.dst) ∧
      Translates (macPath file.bytes) (file.strlen + 1) final ∧ final.src = [] ∧
      final.dst = (macPath file.bytes).length ∧
      (final.path.set final.dst 0).take (final.dst + 1) = macPath file.bytes ++ [0] := by
  have start := startPath_translates file.bytes fresh
  have near : (startPath file.bytes block).src.length < file.strlen + 1 := by
    rw [startPath_eq]
    exact Nat.lt_succ_of_le (behindRoot_length_le file.bytes)
  have looped : Run.Ends False _ (Run.whileLoop (fun state : PathState => state.src ≠ [])
      (fun state => .ok (translateComponent state)) (file.strlen + 1)
      (startPath file.bytes block)) :=
    Run.Ends.whileLoop (Translates (macPath file.bytes) (file.strlen + 1))
      (fun state => state.src.length) start near
      fun state holds more => .returns (holds.turn more)
  have ⟨final, ended, translates, rest⟩ := looped.exists_value not_false
  have done : final.src = [] := not_not.mp rest
  have text : final.path.take final.dst = macPath file.bytes := by
    rw [← translates.text, done, macText_nil, List.append_nil]
  have length : final.dst = (macPath file.bytes).length := by
    rw [← text, Buffer.take_length]
  refine ⟨final, ?_, translates, done, length,
    (Buffer.take_store final.path final.dst [0]).trans (congrArg (· ++ [0]) text)⟩
  rw [unixToMac, if_pos fits, Run.defined]
  show (Run.whileLoop _ _ _ _ >>= _) = _
  rw [ended]
  rfl

/-- The translation of every path is its names behind its lead, with a NUL, and all of it is
written in the block, which has two bytes more than the path. -/
theorem unixToMac_translates {file : CString} {block : Buffer UInt8}
    (fits : file.strlen + 2 < 2 ^ 31) (fresh : block.written = []) :
    ∃ path, unixToMac file (some block) = .ok (path, (macPath file.bytes).length) ∧
      path.take ((macPath file.bytes).length + 1) = macPath file.bytes ++ [0] ∧
      ∀ index ∈ path.written, index < file.strlen + 2 := by
  have ⟨final, ended, translates, done, length, text⟩ := unixToMac_ends fits fresh
  rw [length] at ended text
  refine ⟨_, ended, text, ?_⟩
  intro index inside
  have room := translates.fits
  rw [done, List.length_nil, Nat.add_zero] at room
  cases List.mem_cons.mp inside with
  | inl last => omega
  | inr old =>
    have before := translates.inside index old
    omega

/-- A block of zeros. -/
def zeroBlock : Buffer UInt8 := ⟨fun _ => 0, []⟩

/-- The path is relative, and its empty components are left out. -/
theorem unixToMac_translates_relative :
    macPath (CString.lit "a//../b").bytes = (CString.lit ":a::b").bytes ∧
      ∃ path, unixToMac (.lit "a//../b") (some zeroBlock) =
          .ok (path, (macPath (CString.lit "a//../b").bytes).length) ∧
        path.take ((macPath (CString.lit "a//../b").bytes).length + 1) =
          macPath (CString.lit "a//../b").bytes ++ [0] ∧
        ∀ index ∈ path.written, index < (CString.lit "a//../b").strlen + 2 :=
  ⟨by decide, unixToMac_translates (by decide) rfl⟩

/-! ## The meaning -/

/-- A step along a path. -/
inductive PathStep where
  /-- To the directory above. -/
  | up
  /-- To a name in the directory. -/
  | down (name : List UInt8)
deriving DecidableEq

/-- What a path says: where it starts, and its steps. -/
structure PathMeaning where
  /-- The path starts at the root. -/
  absolute : Bool
  /-- The steps. -/
  steps : List PathStep
deriving DecidableEq

/-- The step of a component between slashes. -/
def unixStep (component : List UInt8) : Option PathStep :=
  if isKept component then some (if component = [46, 46] then .up else .down component) else none

/-- What a path with slashes says. -/
def unixMeaning (file : List UInt8) : PathMeaning :=
  ⟨decide (file.head? = some 47), (file.splitOn 47).filterMap unixStep⟩

/-- The step of a name between colons. -/
def macStep (name : List UInt8) : PathStep := if name = [] then .up else .down name

/-- The steps of the names between colons; a colon at the end is no step. -/
def macSteps : List (List UInt8) → List PathStep
  | [] => []
  | [last] => if last = [] then [] else [.down last]
  | name :: rest => macStep name :: macSteps rest

/-- What a path with colons says: it is relative with a colon in front or without any. -/
def macMeaning (path : List UInt8) : PathMeaning :=
  if path.head? = some 58 then ⟨false, macSteps (path.tail.splitOn 58)⟩
  else ⟨decide (58 ∈ path), macSteps (path.splitOn 58)⟩

/-- The last component does not lead up. -/
def EndsDown (components : List (List UInt8)) : Prop := components.getLast? ≠ some [46, 46]

/-- The first component that is not left out is a name, and not the last component. -/
def StartsDown (components : List (List UInt8)) : Prop :=
  ∃ skipped name rest, components = skipped ++ name :: rest ∧
    (∀ component ∈ skipped, isKept component = false) ∧ isKept name = true ∧
    name ≠ [46, 46] ∧ rest ≠ []

/-- A name in front of others is a step of its own. -/
theorem macSteps_cons {name : List UInt8} {names : List (List UInt8)} (more : names ≠ []) :
    macSteps (name :: names) = macStep name :: macSteps names := by
  rw [macSteps]
  exact fun empty => more empty

/-- A component that is kept is not empty. -/
theorem ne_nil_of_isKept (kept : isKept component = true) : component ≠ [] := by
  intro empty
  rw [empty] at kept
  exact absurd kept Bool.false_ne_true

/-- A name means what its component means. -/
theorem macStep_macName (kept : isKept component = true) :
    unixStep component = some (macStep (macName component)) := by
  rw [unixStep, if_pos kept, macStep, macName]
  by_cases up : component = [46, 46]
  · rw [if_pos up, if_pos up, if_pos rfl]
  · rw [if_neg up, if_neg up, if_neg (ne_nil_of_isKept kept)]

/-- A component that is left out is no step. -/
theorem unixStep_dropped (dropped : ¬isKept component = true) : unixStep component = none :=
  if_neg dropped

/-- Without a step up at the end the names mean what the components mean. -/
theorem macSteps_macNames (endsDown : EndsDown components) :
    macSteps (macNames components) = components.filterMap unixStep := by
  induction components with
  | nil => rfl
  | cons component rest ih =>
    cases rest with
    | nil =>
      have down : component ≠ [46, 46] := fun up => endsDown (congrArg some up)
      by_cases kept : isKept component = true
      · simp [macNames, macSteps, macName, unixStep, kept, down, ne_nil_of_isKept kept]
      · simp [macNames, macSteps, unixStep, kept]
    | cons next more =>
      have rest := ih (by simpa [EndsDown, List.getLast?_cons_cons] using endsDown)
      rw [macNames]
      · by_cases kept : isKept component = true
        · rw [if_pos kept, macSteps_cons macNames_ne_nil, rest,
            List.filterMap_cons_some (macStep_macName kept)]
        · rw [if_neg kept, rest, List.filterMap_cons_none (unixStep_dropped kept)]
      · exact nofun

/-- A step up at the end is lost. -/
theorem macSteps_macNames_up (endsUp : ¬EndsDown components) :
    macSteps (macNames components) ++ [.up] = components.filterMap unixStep := by
  induction components with
  | nil => exact absurd (Option.some_ne_none _).symm endsUp
  | cons component rest ih =>
    cases rest with
    | nil =>
      have up : component = [46, 46] := Option.some.inj (not_not.mp endsUp)
      rw [up]
      rfl
    | cons next more =>
      have rest := ih (by simpa [EndsDown, List.getLast?_cons_cons] using endsUp)
      rw [macNames]
      · by_cases kept : isKept component = true
        · rw [if_pos kept, macSteps_cons macNames_ne_nil, List.cons_append, rest,
            List.filterMap_cons_some (macStep_macName kept)]
        · rw [if_neg kept, rest, List.filterMap_cons_none (unixStep_dropped kept)]
      · exact nofun

/-- The names mean what the components mean exactly without a step up at the end. -/
theorem macSteps_macNames_iff :
    macSteps (macNames components) = components.filterMap unixStep ↔ EndsDown components := by
  constructor
  · intro same
    by_contra endsUp
    have longer := macSteps_macNames_up endsUp
    rw [← same] at longer
    exact absurd (List.append_right_eq_self.mp longer) (List.cons_ne_nil _ _)
  · exact macSteps_macNames

/-- The names are those of the components, without colons. -/
theorem colon_notMem_macNames (plain : ∀ component ∈ components, (58 : UInt8) ∉ component) :
    ∀ name ∈ macNames components, (58 : UInt8) ∉ name := by
  have named : ∀ component : List UInt8, (58 : UInt8) ∉ component →
      (58 : UInt8) ∉ macName component := by
    intro component plain
    rw [macName]
    split
    · exact List.not_mem_nil
    · exact plain
  induction components with
  | nil => simp [macNames]
  | cons component rest ih =>
    have first := named component (plain component List.mem_cons_self)
    cases rest with
    | nil =>
      intro name inside
      rw [macNames, List.mem_singleton] at inside
      rw [inside]
      split
      · exact first
      · exact List.not_mem_nil
    | cons next more =>
      have others := ih fun component inside => plain component (List.mem_cons_of_mem _ inside)
      rw [macNames]
      · split
        · intro name inside
          cases List.mem_cons.mp inside with
          | inl same =>
            rw [same]
            exact first
          | inr old => exact others name old
        · exact others
      · exact nofun

/-- Components that are left out in front do not matter. -/
theorem startsDown_dropped (dropped : ¬isKept component = true) :
    StartsDown (component :: components) ↔ StartsDown components := by
  constructor
  · intro ⟨skipped, name, rest, split, out, kept, down, more⟩
    cases skipped with
    | nil =>
      have same : component = name := (List.cons.inj split).1
      rw [same] at dropped
      exact absurd kept dropped
    | cons first skipped =>
      exact ⟨skipped, name, rest, (List.cons.inj split).2,
        fun component inside => out component (List.mem_cons_of_mem _ inside), kept, down, more⟩
  · intro ⟨skipped, name, rest, split, out, kept, down, more⟩
    apply Exists.intro (component :: skipped)
    apply Exists.intro name
    apply Exists.intro rest
    refine ⟨by rw [split, List.cons_append], ?_, kept, down, more⟩
    intro other inside
    cases List.mem_cons.mp inside with
    | inl same =>
      rw [same]
      exact Bool.eq_false_of_not_eq_true dropped
    | inr old => exact out other old

/-- A path with a component that is kept in front starts with it. -/
theorem startsDown_kept (kept : isKept component = true) :
    StartsDown (component :: components) ↔ component ≠ [46, 46] ∧ components ≠ [] := by
  constructor
  · intro ⟨skipped, name, rest, split, out, _, down, more⟩
    cases skipped with
    | nil =>
      have ⟨same, tail⟩ := List.cons.inj split
      rw [same, tail]
      exact ⟨down, more⟩
    | cons first skipped =>
      have same : component = first := (List.cons.inj split).1
      rw [same, out first List.mem_cons_self] at kept
      exact absurd kept Bool.false_ne_true
  · intro ⟨down, more⟩
    exact ⟨[], component, components, rfl, fun _ inside => absurd inside List.not_mem_nil, kept,
      down, more⟩

/-- The names start with one that is not the last one. -/
def NamesStart (names : List (List UInt8)) : Prop :=
  ∃ name next more, names = name :: next :: more ∧ name ≠ []

/-- The names start so exactly when the path does. -/
theorem macNames_startsDown : NamesStart (macNames components) ↔ StartsDown components := by
  induction components with
  | nil =>
    constructor
    · intro ⟨_, _, _, split, _⟩
      exact absurd (List.cons.inj split).2.symm (List.cons_ne_nil _ _)
    · intro ⟨skipped, _, _, split, _⟩
      exact absurd split (by simp)
  | cons component rest ih =>
    cases rest with
    | nil =>
      constructor
      · intro ⟨_, _, _, split, _⟩
        rw [macNames] at split
        exact absurd (List.cons.inj split).2.symm (List.cons_ne_nil _ _)
      · intro ⟨skipped, name, rest, split, _, _, _, more⟩
        have length := congrArg List.length split
        have positive := List.length_pos_of_ne_nil more
        simp at length
        omega
    | cons next more =>
      by_cases kept : isKept component = true
      · have named : macNames (component :: next :: more) =
            macName component :: macNames (next :: more) := by
          rw [macNames]
          · exact if_pos kept
          · exact nofun
        have some : macNames (next :: more) ≠ [] := macNames_ne_nil
        have ⟨first, others, there⟩ := List.exists_cons_of_ne_nil some
        have down : macName component ≠ [] ↔ component ≠ [46, 46] := by
          rw [macName]
          by_cases up : component = [46, 46]
          · simp [up]
          · simp [up, ne_nil_of_isKept kept]
        rw [startsDown_kept kept, named, there, ← down]
        constructor
        · intro ⟨name, _, _, split, named⟩
          rw [(List.cons.inj split).1]
          exact ⟨named, List.cons_ne_nil _ _⟩
        · intro ⟨named, _⟩
          exact ⟨_, _, _, rfl, named⟩
      · have named : macNames (component :: next :: more) = macNames (next :: more) := by
          rw [macNames]
          · exact if_neg kept
          · exact nofun
        rw [startsDown_dropped kept, named]
        exact ih

/-- What the names say behind the root. -/
theorem macMeaning_names {names : List (List UInt8)}
    (plain : ∀ name ∈ names, (58 : UInt8) ∉ name) (named : names ≠ []) (steps : List PathStep) :
    macMeaning ([58].intercalate names) = ⟨true, steps⟩ ↔
      NamesStart names ∧ macSteps names = steps := by
  have split := List.splitOn_intercalate 58 plain named
  cases names with
  | nil => exact absurd rfl named
  | cons first others =>
    have firstPlain := plain first List.mem_cons_self
    cases others with
    | nil =>
      have single : ¬NamesStart [first] := fun ⟨_, _, _, same, _⟩ =>
        absurd (List.cons.inj same).2.symm (List.cons_ne_nil _ _)
      have text : [58].intercalate [first] = first := by simp
      have relative : (macMeaning first).absolute = false := by
        rw [macMeaning]
        split
        · rfl
        · exact decide_eq_false firstPlain
      rw [text]
      constructor
      · intro same
        rw [same] at relative
        exact absurd relative.symm Bool.false_ne_true
      · exact fun ⟨starts, _⟩ => absurd starts single
    | cons next more =>
      have text : [58].intercalate (first :: next :: more) =
          first ++ 58 :: [58].intercalate (next :: more) := by
        rw [List.intercalate_cons_cons, List.append_assoc, List.singleton_append]
      by_cases empty : first = []
      · have colon : ([58].intercalate (first :: next :: more)).head? = some 58 := by
          rw [text, empty]
          rfl
        rw [macMeaning, if_pos colon]
        constructor
        · intro same
          exact absurd (congrArg PathMeaning.absolute same) Bool.false_ne_true
        · intro ⟨⟨_, _, _, same, named⟩, _⟩
          exact absurd ((List.cons.inj same).1.symm.trans empty) named
      · have ⟨byte, rest, named⟩ := List.exists_cons_of_ne_nil empty
        have noColon : ¬([58].intercalate (first :: next :: more)).head? = some 58 := by
          rw [text, named]
          intro same
          rw [named, Option.some.inj same] at firstPlain
          exact firstPlain List.mem_cons_self
        have inside : (58 : UInt8) ∈ [58].intercalate (first :: next :: more) := by
          rw [text]
          exact List.mem_append_right _ List.mem_cons_self
        have starts : NamesStart (first :: next :: more) := ⟨first, next, more, rfl, empty⟩
        rw [macMeaning, if_neg noColon, decide_eq_true inside, split]
        simp [starts]

/-- Nothing is behind the root that is not in the path. -/
theorem behindRoot_subset (file : List UInt8) : behindRoot file ⊆ file := by
  unfold behindRoot
  split
  · exact file.tail_subset
  · exact fun _ inside => inside

/-- The members of the lists are members of what they are joined to. -/
theorem mem_intercalate {separator : List UInt8} {byte : UInt8} (member : component ∈ components)
    (inside : byte ∈ component) : byte ∈ separator.intercalate components := by
  induction components with
  | nil => exact absurd member List.not_mem_nil
  | cons first rest ih =>
    cases rest with
    | nil =>
      rw [List.mem_singleton.mp member] at inside
      simpa using inside
    | cons next more =>
      rw [List.intercalate_cons_cons]
      cases List.mem_cons.mp member with
      | inl same =>
        rw [same] at inside
        simp [inside]
      | inr old => exact List.mem_append_right _ (ih old)

/-- The translation says the same as the path exactly when the path does not end with a step up
and, from the root on, starts with a name that has a slash behind it. -/
theorem macPath_means {file : List UInt8} (plain : (58 : UInt8) ∉ file) :
    macMeaning (macPath file) = unixMeaning file ↔
      EndsDown (file.splitOn 47) ∧
        (file.head? = some 47 → StartsDown ((behindRoot file).splitOn 47)) := by
  have comps : ∀ component ∈ (behindRoot file).splitOn 47, (58 : UInt8) ∉ component := by
    intro component member inside
    apply plain
    apply behindRoot_subset file
    have joined : [47].intercalate ((behindRoot file).splitOn 47) = behindRoot file :=
      List.intercalate_splitOn 47
    rw [← joined]
    exact mem_intercalate member inside
  have names := colon_notMem_macNames comps
  by_cases root : file.head? = some 47
  · have ⟨rest, split⟩ : ∃ rest, file = 47 :: rest := List.head?_eq_some_iff.mp root
    have behind : behindRoot file = rest := by
      rw [behindRoot, if_pos root, split]
      rfl
    have lead : macPath file = [58].intercalate (macNames (rest.splitOn 47)) := by
      rw [macPath, macLead, if_pos (.inl root), behind]
      rfl
    have first : file.splitOn 47 = [] :: rest.splitOn 47 := by
      rw [split]
      exact List.splitOn_append_cons_self_of_not_mem List.not_mem_nil rest
    have means : unixMeaning file = ⟨true, (rest.splitOn 47).filterMap unixStep⟩ := by
      rw [unixMeaning, decide_eq_true root, first]
      rfl
    have ends : EndsDown (file.splitOn 47) ↔ EndsDown (rest.splitOn 47) := by
      have ⟨one, others, more⟩ := List.exists_cons_of_ne_nil (List.splitOn_ne_nil 47 rest)
      rw [first, more, EndsDown, EndsDown, List.getLast?_cons_cons]
    rw [behind] at names ⊢
    rw [lead, means, macMeaning_names names macNames_ne_nil, macNames_startsDown,
      macSteps_macNames_iff, ends, and_comm]
    simp [root]
  · have noColon : file.head? ≠ some 58 := fun same => plain (List.mem_of_mem_head? same)
    have behind : behindRoot file = file := if_neg root
    have lead : macPath file = 58 :: macText file := by
      rw [macPath, macLead, if_neg (not_or.mpr ⟨root, noColon⟩), behind]
      rfl
    rw [behind] at names
    have split : (macText file).splitOn 58 = macNames (file.splitOn 47) :=
      List.splitOn_intercalate 58 names macNames_ne_nil
    rw [lead, macMeaning, List.head?_cons, if_pos rfl, List.tail_cons, split, unixMeaning,
      decide_eq_false root]
    simp [root, macSteps_macNames_iff]

/-- What `unix_to_mac` makes of a path without colons says the same as the path exactly when the
path does not end with a step up and, from the root on, starts with a name that has a slash behind
it. -/
theorem unixToMac_means {file : CString} {block : Buffer UInt8}
    (fits : file.strlen + 2 < 2 ^ 31) (fresh : block.written = [])
    (plain : (58 : UInt8) ∉ file.bytes) :
    ∃ path length, unixToMac file (some block) = .ok (path, length) ∧
      (macMeaning (path.take length) = unixMeaning file.bytes ↔
        EndsDown (file.bytes.splitOn 47) ∧ (file.bytes.head? = some 47 →
          StartsDown ((behindRoot file.bytes).splitOn 47))) := by
  have ⟨final, translated, _, _, _, text⟩ := unixToMac_ends fits fresh
  have taken : (final.path.set final.dst 0).take final.dst = macPath file.bytes := by
    rw [Buffer.take_succ] at text
    exact (List.append_inj' text rfl).1
  refine ⟨_, _, translated, ?_⟩
  rw [taken]
  exact macPath_means plain

/-- A path that ends with a step up loses it. -/
theorem unixToMac_means_parent :
    ∃ path length, unixToMac (.lit "a/..") (some zeroBlock) = .ok (path, length) ∧
      macMeaning (path.take length) ≠ unixMeaning (CString.lit "a/..").bytes := by
  have ⟨path, length, translated, means⟩ :=
    @unixToMac_means (.lit "a/..") zeroBlock (by decide) rfl (by decide)
  have endsUp : ¬EndsDown ((CString.lit "a/..").bytes.splitOn 47) := by
    unfold EndsDown
    decide
  exact ⟨path, length, translated, fun same => endsUp (means.mp same).1⟩

end Bpcp.MiniGUI
