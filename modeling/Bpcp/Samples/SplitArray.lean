import Bpcp.Lib.Dealing
import Bpcp.Lib.FilledArray
import Bpcp.Samples.SortedArray

/-!
# Splitting an array

`split_array` sorts an array of long integers and deals it to two half arrays. Each turn of
its loop gives the two outermost elements that are left to the first half and, when elements
are left then, the next two to the second half. For a size of 2 modulo 4 the first half ends
up with two elements more, and its last one is moved to the second half. There is no result
when an index is outside an array or an assertion fails.
-/

namespace Bpcp.Samples

open Bpcp.Lib

/-- `long int`. -/
abbrev Long : Type := {n : Int // IntType.int64.Represents n}

/-- A difference of long integers, when it does not overflow. -/
def longSub (left right : Long) : Option Long :=
  if fits : IntType.int64.Represents (left.1 - right.1) then some ⟨left.1 - right.1, fits⟩
  else none

/-- A sum of long integers, when it does not overflow. -/
def longAdd (left right : Long) : Option Long :=
  if fits : IntType.int64.Represents (left.1 + right.1) then some ⟨left.1 + right.1, fits⟩
  else none

/-- `my_compare`, which narrows the difference to an `int`. -/
def myCompare (a b : Long) : Option IntType.int32.Value :=
  (longSub a b).map fun difference => IntType.int32.wrap difference.1

/-- `qsort` with a comparison function, which leaves another array in place of the array. -/
abbrev Qsort : Type := (Long → Long → Option IntType.int32.Value) → List Long → List Long

/-- The variables of the loop of `split_array` that change. -/
structure SplitState where
  /-- `first_half_array`. -/
  firstHalfArray : List Long
  /-- `second_half_array`. -/
  secondHalfArray : List Long
  /-- `nr_split`. -/
  nrSplit : Nat
  /-- `n`. -/
  n : Nat
  /-- `len_1st`. -/
  len1st : Nat
  /-- `len_2nd`. -/
  len2nd : Nat

/-- What `split_array` leaves and returns. -/
structure SplitResult where
  /-- `the_array`. -/
  theArray : List Long
  /-- `first_half_array`. -/
  firstHalfArray : List Long
  /-- `second_half_array`. -/
  secondHalfArray : List Long
  /-- The return value. -/
  halfSize : Nat

/-- Two elements of `the_array` are stored behind the first `len` elements of a half array. -/
def dealTwo (theArray halfArray : List Long) (len : Nat) (low high : Int) :
    Option (List Long) := do
  let value ← elementAt theArray low
  let halfArray ← assignAt halfArray len value
  let value ← elementAt theArray high
  assignAt halfArray (len + 1) value

/-- A turn of the loop of `split_array`. -/
def splitTurn (theArray : List Long) (theSize : Nat) (state : SplitState) : Option SplitState := do
  let n : Int := state.n
  let first ← dealTwo theArray state.firstHalfArray state.len1st (n * 2) (theSize - n * 2 - 1)
  let nrSplit := state.nrSplit + 2
  if nrSplit < theSize then
    let second ← dealTwo theArray state.secondHalfArray state.len2nd (n * 2 + 1)
      (theSize - n * 2 - 2)
    some ⟨first, second, nrSplit + 2, state.n + 1, state.len1st + 2, state.len2nd + 2⟩
  else some ⟨first, state.secondHalfArray, nrSplit, state.n + 1, state.len1st + 2, state.len2nd⟩

/-- The loop of `split_array`, for at most a number of turns. -/
def splitLoop (theArray : List Long) (theSize : Nat) : Nat → SplitState → Option SplitState
  | 0, state => if state.nrSplit < theSize then none else some state
  | turns + 1, state =>
    if state.nrSplit < theSize then do
      let state ← splitTurn theArray theSize state
      splitLoop theArray theSize turns state
    else some state

/-- What `split_array` does behind the loop: the longer half array gives an element to the
other one. -/
def equalizeHalves (theArray : List Long) (state : SplitState) : Option SplitResult :=
  if state.len1st > state.len2nd then
    if state.len1st = state.len2nd + 2 then do
      let len1st := state.len1st - 1
      let value ← elementAt state.firstHalfArray len1st
      let second ← assignAt state.secondHalfArray state.len2nd value
      let len2nd := state.len2nd + 1
      if len1st = len2nd then some ⟨theArray, state.firstHalfArray, second, len1st⟩ else none
    else none
  else if state.len1st < state.len2nd then
    if state.len2nd = state.len1st + 2 then do
      let len2nd := state.len2nd - 1
      let value ← elementAt state.secondHalfArray len2nd
      let first ← assignAt state.firstHalfArray state.len1st value
      let len1st := state.len1st + 1
      if len1st = len2nd then some ⟨theArray, first, state.secondHalfArray, len1st⟩ else none
    else none
  else some ⟨theArray, state.firstHalfArray, state.secondHalfArray, state.len1st⟩

/-- `split_array`. -/
def splitArray (qsort : Qsort) (theArray : List Long) (theSize : Nat)
    (firstHalfArray secondHalfArray : List Long) : Option SplitResult := do
  let theArray := qsort myCompare theArray
  let state ← splitLoop theArray theSize theSize ⟨firstHalfArray, secondHalfArray, 0, 0, 0, 0⟩
  equalizeHalves theArray state

/-- The first half that a result describes. -/
def SplitResult.firstHalf (result : SplitResult) : List Long :=
  result.firstHalfArray.take result.halfSize

/-- The second half that a result describes. -/
def SplitResult.secondHalf (result : SplitResult) : List Long :=
  result.secondHalfArray.take result.halfSize

variable {theArray first second : List Long} {theSize : Nat}

/-! ## One turn -/

/-- The element behind the front of an array is read at the length of that front. -/
theorem elementAt_behind {front rest : List Long} {value : Long} {index : Int}
    (parts : theArray = front ++ value :: rest) (place : index = front.length) :
    elementAt theArray index = some value := by
  subst parts
  rw [elementAt, if_pos (by omega), place, Int.toNat_natCast, List.getElem?_append_right le_rfl,
    Nat.sub_self, List.getElem?_cons_zero]

/-- Two elements are stored behind the values that a half array begins with. -/
theorem dealTwo_eq {halfArray stored : List Long} {low high : Int} {lowValue highValue : Long}
    (front : stored <+: halfArray) (room : stored.length + 1 < halfArray.length)
    (lowRead : elementAt theArray low = some lowValue)
    (highRead : elementAt theArray high = some highValue) :
    ∃ after, dealTwo theArray halfArray stored.length low high = some after ∧
      after.length = halfArray.length ∧ stored ++ [lowValue, highValue] <+: after := by
  obtain ⟨middle, after, assigned, again, size, whole⟩ :=
    assignAt_behind_two front room lowValue highValue
  refine ⟨after, ?_, size, whole⟩
  simp only [dealTwo, lowRead, highRead, Option.bind_eq_bind, Option.bind_some, assigned, again]

/-- The values that were stored so far, after as many whole turns as the half arrays have pairs. -/
structure DealtSoFar (theSize : Nat) (firsts seconds : List Long) (state : SplitState) : Prop where
  /-- The first half array begins with its values. -/
  first : firsts <+: state.firstHalfArray
  /-- The second half array begins with its values. -/
  second : seconds <+: state.secondHalfArray
  /-- The room in the first half array. -/
  roomFirst : state.firstHalfArray.length = theSize / 2 + 2
  /-- The room in the second half array. -/
  roomSecond : state.secondHalfArray.length = theSize / 2 + 2
  /-- `len_1st` counts the values of the first half array. -/
  len1st : state.len1st = firsts.length
  /-- `len_2nd` counts the values of the second half array. -/
  len2nd : state.len2nd = seconds.length
  /-- Two values for each turn went to the first half array. -/
  firstCount : firsts.length = 2 * state.n
  /-- Two values for each turn went to the second half array. -/
  secondCount : seconds.length = 2 * state.n
  /-- `nr_split` counts all of them. -/
  nrSplit : state.nrSplit = 4 * state.n

section Turns

variable {front middle back firsts seconds : List Long} {state : SplitState}
  {low lowNext highNext high : Long}

/-- A turn with four elements left gives two to each half array. -/
theorem DealtSoFar.round (dealt : DealtSoFar theSize firsts seconds state)
    (frontCount : front.length = 2 * state.n) (backCount : back.length = 2 * state.n)
    (split : theArray = front ++ low :: lowNext :: (middle ++ [highNext, high]) ++ back)
    (size : theArray.length = theSize) :
    ∃ next, splitTurn theArray theSize state = some next ∧ next.n = state.n + 1 ∧
      DealtSoFar theSize (firsts ++ [low, high]) (seconds ++ [lowNext, highNext]) next := by
  have firstCount := dealt.firstCount
  have secondCount := dealt.secondCount
  have nrSplit := dealt.nrSplit
  have count : theSize = 4 * state.n + middle.length + 4 := by
    rw [← size, split]
    simp only [List.length_append, List.length_cons, List.length_nil]
    omega
  have lowRead : elementAt theArray (state.n * 2) = some low := by
    rw [List.append_assoc, List.cons_append] at split
    exact elementAt_behind split (by omega)
  have nextRead : elementAt theArray (state.n * 2 + 1) = some lowNext := by
    have parts : theArray =
        (front ++ [low]) ++ lowNext :: (middle ++ [highNext, high] ++ back) := by simp [split]
    exact elementAt_behind parts (by simp; omega)
  have beforeRead : elementAt theArray (theSize - state.n * 2 - 2) = some highNext := by
    have parts : theArray =
        (front ++ low :: lowNext :: middle) ++ highNext :: high :: back := by simp [split]
    exact elementAt_behind parts (by simp; omega)
  have highRead : elementAt theArray (theSize - state.n * 2 - 1) = some high := by
    have parts : theArray =
        (front ++ low :: lowNext :: (middle ++ [highNext])) ++ high :: back := by simp [split]
    exact elementAt_behind parts (by simp; omega)
  have roomFirst := dealt.roomFirst
  have roomSecond := dealt.roomSecond
  obtain ⟨first, dealtFirst, sizeFirst, prefixFirst⟩ :=
    dealTwo_eq dealt.first (by omega) lowRead highRead
  obtain ⟨second, dealtSecond, sizeSecond, prefixSecond⟩ :=
    dealTwo_eq dealt.second (by omega) nextRead beforeRead
  rw [← dealt.len1st] at dealtFirst
  rw [← dealt.len2nd] at dealtSecond
  refine ⟨⟨first, second, state.nrSplit + 2 + 2, state.n + 1, state.len1st + 2,
    state.len2nd + 2⟩, ?_, rfl, ⟨prefixFirst, prefixSecond, sizeFirst.trans roomFirst,
    sizeSecond.trans roomSecond, ?_, ?_, ?_, ?_, ?_⟩⟩
  · simp only [splitTurn, dealtFirst, Option.bind_eq_bind, Option.bind_some, dealtSecond]
    rw [if_pos (by omega)]
  · simp [dealt.len1st]
  · simp [dealt.len2nd]
  · simp [firstCount]
    omega
  · simp [secondCount]
    omega
  · simp only
    omega

/-- A turn with two elements left gives both to the first half array. -/
theorem DealtSoFar.last (dealt : DealtSoFar theSize firsts seconds state)
    (frontCount : front.length = 2 * state.n) (backCount : back.length = 2 * state.n)
    (split : theArray = front ++ [low, high] ++ back) (size : theArray.length = theSize) :
    ∃ first, splitTurn theArray theSize state =
        some ⟨first, state.secondHalfArray, theSize, state.n + 1, firsts.length + 2,
          seconds.length⟩ ∧
      first.length = theSize / 2 + 2 ∧ firsts ++ [low, high] <+: first := by
  have firstCount := dealt.firstCount
  have nrSplit := dealt.nrSplit
  have count : theSize = 4 * state.n + 2 := by
    rw [← size, split]
    simp only [List.length_append, List.length_cons, List.length_nil]
    omega
  have lowRead : elementAt theArray (state.n * 2) = some low := by
    rw [List.append_assoc, List.cons_append] at split
    exact elementAt_behind split (by omega)
  have highRead : elementAt theArray (theSize - state.n * 2 - 1) = some high := by
    have parts : theArray = (front ++ [low]) ++ high :: back := by simp [split]
    exact elementAt_behind parts (by simp; omega)
  have roomFirst := dealt.roomFirst
  obtain ⟨first, dealtFirst, sizeFirst, prefixFirst⟩ :=
    dealTwo_eq dealt.first (by omega) lowRead highRead
  rw [← dealt.len1st] at dealtFirst
  refine ⟨first, ?_, sizeFirst.trans roomFirst, prefixFirst⟩
  simp only [splitTurn, dealtFirst, Option.bind_eq_bind, Option.bind_some]
  rw [if_neg (by omega), ← dealt.len1st, ← dealt.len2nd]
  have all : state.nrSplit + 2 = theSize := by omega
  rw [all]

/-- The loop ends when all elements were dealt. -/
theorem splitLoop_end {turns : Nat} (all : ¬state.nrSplit < theSize) :
    splitLoop theArray theSize turns state = some state := by
  cases turns with
  | zero => exact if_neg all
  | succ turns => exact if_neg all

/-- The front of a half array is what was stored there. -/
theorem take_stored {stored halfArray : List Long} (front : stored <+: halfArray) :
    halfArray.take stored.length = stored := (List.prefix_iff_eq_take.1 front).symm

/-- Half arrays of the same length stay as they are. -/
theorem DealtSoFar.equalize (dealt : DealtSoFar theSize firsts seconds state)
    (all : theSize = 4 * state.n) :
    ∃ result, equalizeHalves theArray state = some result ∧ result.theArray = theArray ∧
      result.halfSize = theSize / 2 ∧ result.firstHalf = firsts ∧ result.secondHalf = seconds := by
  have firstCount := dealt.firstCount
  have secondCount := dealt.secondCount
  have first := dealt.len1st
  have second := dealt.len2nd
  refine ⟨⟨theArray, state.firstHalfArray, state.secondHalfArray, state.len1st⟩, ?_, rfl, ?_, ?_,
    ?_⟩
  · rw [equalizeHalves, if_neg (by omega), if_neg (by omega)]
  · show state.len1st = theSize / 2
    omega
  · rw [SplitResult.firstHalf, first]
    exact take_stored dealt.first
  · have lengths : state.len1st = seconds.length := by omega
    rw [SplitResult.secondHalf, lengths]
    exact take_stored dealt.second

/-- The last of two elements too many is moved to the second half array. -/
theorem DealtSoFar.move {first : List Long} (dealt : DealtSoFar theSize firsts seconds state)
    (all : theSize = 4 * state.n + 2) (front : firsts ++ [low, high] <+: first) :
    ∃ result, equalizeHalves theArray ⟨first, state.secondHalfArray, theSize, state.n + 1,
        firsts.length + 2, seconds.length⟩ = some result ∧ result.theArray = theArray ∧
      result.halfSize = theSize / 2 ∧ result.firstHalf = firsts ++ [low] ∧
      result.secondHalf = seconds ++ [high] := by
  have firstCount := dealt.firstCount
  have secondCount := dealt.secondCount
  have roomSecond := dealt.roomSecond
  obtain ⟨rest, whole⟩ := front
  have value : elementAt first (firsts.length + 2 - 1 : Nat) = some high := by
    have parts : first = (firsts ++ [low]) ++ high :: rest := by simp [← whole]
    exact elementAt_behind parts (by simp)
  obtain ⟨second, assigned, -, grown⟩ := assignAt_behind dealt.second (by omega) high
  refine ⟨⟨theArray, first, second, firsts.length + 1⟩, ?_, rfl, ?_, ?_, ?_⟩
  · rw [equalizeHalves, if_pos (by simp only; omega), if_pos (by simp only; omega)]
    simp only [value, Option.bind_eq_bind, Option.bind_some, assigned]
    rw [if_pos (by omega)]
    rfl
  · show firsts.length + 1 = theSize / 2
    omega
  · have lengths : firsts.length + 1 = (firsts ++ [low]).length := by simp
    have begins : firsts ++ [low] <+: first := ⟨high :: rest, by simp [← whole]⟩
    rw [SplitResult.firstHalf, lengths]
    exact take_stored begins
  · have lengths : firsts.length + 1 = (seconds ++ [high]).length := by simp; omega
    rw [SplitResult.secondHalf, lengths]
    exact take_stored grown

/-! ## All turns -/

/-- The loop and what is behind it deal the elements that are left. -/
theorem splitLoop_dealt {firstRest secondRest : List Long}
    (rest : Dealt middle firstRest secondRest) (turns : Nat)
    (dealt : DealtSoFar theSize firsts seconds state)
    (frontCount : front.length = 2 * state.n) (backCount : back.length = 2 * state.n)
    (split : theArray = front ++ middle ++ back) (size : theArray.length = theSize)
    (enough : middle.length ≤ turns) :
    ∃ result, (splitLoop theArray theSize turns state).bind (equalizeHalves theArray) =
        some result ∧ result.theArray = theArray ∧ result.halfSize = theSize / 2 ∧
      result.firstHalf = firsts ++ firstRest ∧ result.secondHalf = seconds ++ secondRest := by
  have nrSplit := dealt.nrSplit
  have count : theSize = 4 * state.n + middle.length := by
    rw [← size, split, List.length_append, List.length_append]
    omega
  induction rest generalizing front back firsts seconds state turns with
  | nil =>
    rw [List.length_nil] at count
    rw [splitLoop_end (by omega), Option.bind_some, List.append_nil, List.append_nil]
    exact dealt.equalize count
  | pair low high =>
    rw [List.length_cons, List.length_singleton] at count enough
    obtain ⟨turns, rfl⟩ : ∃ fewer, turns = fewer + 1 := ⟨turns - 1, by omega⟩
    obtain ⟨first, turn, -, grown⟩ := dealt.last frontCount backCount split size
    have ended : splitLoop theArray theSize turns ⟨first, state.secondHalfArray, theSize,
        state.n + 1, firsts.length + 2, seconds.length⟩ =
        some ⟨first, state.secondHalfArray, theSize, state.n + 1, firsts.length + 2,
          seconds.length⟩ := splitLoop_end (lt_irrefl _)
    rw [splitLoop, if_pos (by omega), turn, Option.bind_eq_bind, Option.bind_some, ended,
      Option.bind_some]
    exact dealt.move count grown
  | round low lowNext highNext high rest ih =>
    rename_i middle firstRest secondRest
    simp only [List.length_cons, List.length_append, List.length_nil] at count enough
    obtain ⟨turns, rfl⟩ : ∃ fewer, turns = fewer + 1 := ⟨turns - 1, by omega⟩
    obtain ⟨next, turn, counted, grown⟩ := dealt.round frontCount backCount split size
    rw [splitLoop, if_pos (by omega), turn, Option.bind_eq_bind, Option.bind_some]
    have parts : theArray = front ++ [low, lowNext] ++ middle ++ ([highNext, high] ++ back) := by
      simp [split]
    obtain ⟨result, run, same, half, firstHalf, secondHalf⟩ :=
      ih turns grown (by simp; omega) (by simp; omega) parts (by omega) grown.nrSplit
        (by omega)
    rw [List.append_assoc] at firstHalf secondHalf
    exact ⟨result, run, same, half, firstHalf, secondHalf⟩

end Turns

/-- The sorted array is dealt to the two halves, which get as many elements each. -/
theorem splitArray_dealt {qsort : Qsort} (even : theSize % 2 = 0)
    (sorted : (qsort myCompare theArray).length = theSize)
    (roomFirst : first.length = theSize / 2 + 2) (roomSecond : second.length = theSize / 2 + 2) :
    ∃ result, splitArray qsort theArray theSize first second = some result ∧
      result.theArray = qsort myCompare theArray ∧ result.halfSize = theSize / 2 ∧
      Dealt (qsort myCompare theArray) result.firstHalf result.secondHalf := by
  obtain ⟨firsts, seconds, hands⟩ :=
    Dealt.exists_hands (qsort myCompare theArray) (by rwa [sorted])
  have begun : DealtSoFar theSize [] [] ⟨first, second, 0, 0, 0, 0⟩ :=
    ⟨List.nil_prefix, List.nil_prefix, roomFirst, roomSecond, rfl, rfl, rfl, rfl, rfl⟩
  have split : qsort myCompare theArray = [] ++ qsort myCompare theArray ++ [] := by simp
  obtain ⟨result, run, same, half, firstHalf, secondHalf⟩ :=
    splitLoop_dealt hands theSize begun rfl rfl split sorted sorted.le
  rw [List.nil_append] at firstHalf secondHalf
  refine ⟨result, run, same, half, ?_⟩
  rw [firstHalf, secondHalf]
  exact hands

/-- `split_array` stays inside its arrays, passes its assertions, and partitions the array into
two halves of the same length. -/
theorem splitArray_partitions {qsort : Qsort} (even : theSize % 2 = 0)
    (size : theArray.length = theSize)
    (permutes : (qsort myCompare theArray).Perm theArray)
    (roomFirst : first.length = theSize / 2 + 2) (roomSecond : second.length = theSize / 2 + 2) :
    ∃ result, splitArray qsort theArray theSize first second = some result ∧
      result.halfSize = theSize / 2 ∧ result.firstHalf.length = theSize / 2 ∧
      result.secondHalf.length = theSize / 2 ∧
      (result.firstHalf ++ result.secondHalf).Perm theArray := by
  have sorted := permutes.length_eq.trans size
  obtain ⟨result, run, -, half, dealt⟩ := splitArray_dealt even sorted roomFirst roomSecond
  obtain ⟨firstLength, secondLength⟩ := dealt.length
  exact ⟨result, run, half, by omega, by omega, dealt.perm.trans permutes⟩

/-- Long integers with given values. -/
def longs (values : List Int) : List Long := values.map IntType.int64.wrap

/-- An insertion sort, which asks whether an element does not compare greater than another. -/
def insertionQsort : Qsort := fun compar array =>
  array.insertionSort fun a b => (compar a b).any (fun order => order.1 ≤ 0) = true

/-- An insertion sort permutes its array. -/
theorem insertionQsort_perm (compar : Long → Long → Option IntType.int32.Value)
    (array : List Long) : (insertionQsort compar array).Perm array :=
  List.perm_insertionSort _ array

/-- Six elements are partitioned into two halves of three. -/
theorem splitArray_partitions_six :
    ∃ result, splitArray insertionQsort (longs [4, 1, 6, 2, 5, 3]) 6 (longs [0, 0, 0, 0, 0])
        (longs [0, 0, 0, 0, 0]) = some result ∧
      result.halfSize = 3 ∧ result.firstHalf.length = 3 ∧ result.secondHalf.length = 3 ∧
      (result.firstHalf ++ result.secondHalf).Perm (longs [4, 1, 6, 2, 5, 3]) :=
  splitArray_partitions (by decide) rfl (insertionQsort_perm _ _) rfl rfl

end Bpcp.Samples
