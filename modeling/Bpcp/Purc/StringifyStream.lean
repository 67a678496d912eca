import Bpcp.Purc.Stringify

/-!
# Stringification to streams that fail

A stream takes all the bytes of a write, takes none and reports an error, or takes some of
them and nothing from then on. What reaches such a stream is a prefix of what is
stringified, however long the walk goes on after the first failure. A buffer is a stream of
this kind, but the function that stringifies into one asserts that no write falls short.
-/

namespace Bpcp.Purc

open Bpcp.Lib

/-- A stream for output: what a write returns and leaves, and what has become of the stream. -/
structure OutputStream (σ : Type) where
  /-- `purc_rwstream_write`. -/
  write : σ → List UInt8 → Int × σ
  /-- The bytes that have reached the stream. -/
  reached : σ → List UInt8
  /-- The stream has taken a part of a write, and takes nothing more. -/
  closed : σ → Bool
  /-- A write has returned -1. -/
  failed : σ → Bool
  /-- A write fails, or takes a part of the bytes and returns its length. -/
  outcome : ∀ state bytes,
    (write state bytes).1 = -1 ∧ reached (write state bytes).2 = reached state ∨
    ∃ count ≤ bytes.length, (write state bytes).1 = count ∧
      reached (write state bytes).2 = reached state ++ bytes.take count ∧
      (count < bytes.length → closed (write state bytes).2 = true) ∧
      (closed state = true → count = 0 ∧ closed (write state bytes).2 = true)
  /-- Failures are remembered. -/
  remembers : ∀ state bytes, failed (write state bytes).2 = true ↔
    failed state = true ∨ (write state bytes).1 = -1

section Prefix

variable {σ : Type} {stream : OutputStream σ} {start : σ} {done : List UInt8}
  {ud : StringifyStream σ}

/-- Of the bytes handed on so far a prefix has reached the stream, and it is counted. -/
structure SentPrefix (stream : OutputStream σ) (start : σ) (done : List UInt8)
    (ud : StringifyStream σ) (state : σ) (sent : List UInt8) : Prop where
  /-- The stream is there. -/
  current : ud.stream = some state
  /-- What has reached the stream. -/
  reached : stream.reached state = stream.reached start ++ sent
  /-- It is a prefix. -/
  isPrefix : sent <+: done
  /-- It is all of them while nothing has gone wrong. -/
  whole : ud.err = false → stream.closed state = false → sent = done
  /-- It is counted. -/
  written : ud.written = sent.length
  /-- All bytes are counted too. -/
  accu : ud.accu = done.length
  /-- Failures are noticed, and nothing else is taken for one. -/
  noticed : stream.failed state = true ↔ ud.err = true

/-- A piece that is not written is only counted. -/
theorem SentPrefix.skip {state : σ} {sent bytes : List UInt8}
    (before : SentPrefix stream start done ud state sent) (skipped : ud.err = true ∨ bytes = []) :
    SentPrefix stream start (done ++ bytes)
      { ud with stream := some state, accu := ud.accu + bytes.length } state sent := by
  refine ⟨rfl, before.reached, before.isPrefix.trans (List.prefix_append _ _), ?_,
    before.written, ?_, before.noticed⟩
  · intro sound isOpen
    rcases skipped with failed | rfl
    · rw [failed] at sound
      cases sound
    · rw [List.append_nil]
      exact before.whole sound isOpen
  · rw [List.length_append, before.accu]

/-- A write that fails sends nothing. -/
theorem SentPrefix.fail {state next : σ} {sent bytes : List UInt8}
    (before : SentPrefix stream start done ud state sent)
    (kept : stream.reached next = stream.reached state) (failed : stream.failed next = true) :
    SentPrefix stream start (done ++ bytes)
      { ud with stream := some next, err := true, accu := ud.accu + bytes.length } next sent := by
  refine ⟨rfl, kept.trans before.reached, before.isPrefix.trans (List.prefix_append _ _), ?_,
    before.written, ?_, iff_of_true failed rfl⟩
  · intro sound
    cases sound
  · rw [List.length_append, before.accu]

/-- A write that takes a part of a piece sends that part. -/
theorem SentPrefix.accept {state next : σ} {sent bytes : List UInt8} {count : ℕ}
    (before : SentPrefix stream start done ud state sent) (sound : ud.err = false)
    (part : count ≤ bytes.length)
    (taken : stream.reached next = stream.reached state ++ bytes.take count)
    (closes : count < bytes.length → stream.closed next = true)
    (stays : stream.closed state = true → count = 0 ∧ stream.closed next = true)
    (calm : stream.failed next = false) (short : Bool) :
    SentPrefix stream start (done ++ bytes)
      { ud with
        stream := some next
        written := ud.written + count
        accu := ud.accu + bytes.length
        short := short }
      next (sent ++ bytes.take count) := by
  refine ⟨rfl, ?_, ?_, ?_, ?_, ?_, ?_⟩
  · rw [taken, before.reached, List.append_assoc]
  · -- A stream that is closed has no room for the bytes after the gap.
    cases isClosed : stream.closed state with
    | true =>
      rw [(stays isClosed).1, List.take_zero, List.append_nil]
      exact before.isPrefix.trans (List.prefix_append _ _)
    | false =>
      rw [before.whole sound isClosed]
      exact List.prefix_append_right_inj done |>.2 (List.take_prefix count bytes)
  · intro _ isOpen
    have wasOpen : stream.closed state = false := by
      by_contra wasClosed
      rw [(stays (by simpa using wasClosed)).2] at isOpen
      cases isOpen
    have all : ¬count < bytes.length := by
      intro fewer
      rw [closes fewer] at isOpen
      cases isOpen
    rw [before.whole sound wasOpen, List.take_of_length_le (Nat.le_of_not_lt all)]
  · change ud.written + count = _
    rw [List.length_append, List.length_take, Nat.min_eq_left part, before.written]
  · change ud.accu + bytes.length = _
    rw [List.length_append, before.accu]
  · change _ ↔ ud.err = true
    rw [calm, sound]

/-- One piece keeps the prefix. -/
theorem SentPrefix.step {state : σ} {sent : List UInt8} (emit : Emit)
    (before : SentPrefix stream start done ud state sent) :
    ∃ state sent, SentPrefix stream start (done ++ emit.bytes)
      (doStringifyStream stream.write ud emit) state sent := by
  by_cases skipped : ud.err = true ∨ emit.bytes = []
  · refine ⟨state, sent, ?_⟩
    simp only [doStringifyStream, before.current, if_pos skipped]
    exact before.skip skipped
  · have sound : ud.err = false := by simpa using fun failed => skipped (.inl failed)
    have remembers := stream.remembers state emit.bytes
    rcases stream.outcome state emit.bytes with ⟨fails, kept⟩ |
      ⟨count, part, ret, taken, closes, stays⟩
    · refine ⟨(stream.write state emit.bytes).2, sent, ?_⟩
      simp only [doStringifyStream, before.current, if_neg skipped, if_pos fails]
      exact before.fail kept (remembers.2 (.inr fails))
    · have success : (stream.write state emit.bytes).1 ≠ -1 := by omega
      have calm : stream.failed (stream.write state emit.bytes).2 = false := by
        by_contra failed
        rcases remembers.1 (by simpa using failed) with earlier | now
        · rw [before.noticed.1 earlier] at sound
          cases sound
        · exact success now
      refine ⟨(stream.write state emit.bytes).2, sent ++ emit.bytes.take count, ?_⟩
      simp only [doStringifyStream, before.current, if_neg skipped, ret, Int.toNat_natCast]
      exact before.accept sound part taken closes stays calm _

/-- All pieces keep the prefix. -/
theorem SentPrefix.run {state : σ} {sent : List UInt8} (emits : List Emit)
    (before : SentPrefix stream start done ud state sent) :
    ∃ state sent, SentPrefix stream start (done ++ emitted emits)
      (emits.foldl (doStringifyStream stream.write) ud) state sent := by
  induction emits generalizing done ud state sent with
  | nil => exact ⟨state, sent, by simpa using before⟩
  | cons emit rest ih =>
    obtain ⟨middle, part, kept⟩ := before.step emit
    rw [List.foldl_cons, emitted_cons, ← List.append_assoc]
    exact ih kept

/-- What reaches a stream is a prefix of what is stringified, and all of it while no write fails
or falls short. When errors are ignored, its length is returned, and otherwise a write that fails
is reported. The full length is stored in either case. -/
theorem purcVariantStringify_failing (rt : Runtime) (stream : OutputStream σ) (start : σ)
    (value : Variant) (flags : StringifyFlags) (calm : stream.failed start = false) :
    ∃ after sent,
      (purcVariantStringify rt stream.write (some start) (some value) flags).stream = some after ∧
      stream.reached after = stream.reached start ++ sent ∧
      sent <+: emitted (variantStringify rt flags value) ∧
      (stream.failed after = false → stream.closed after = false →
        sent = emitted (variantStringify rt flags value)) ∧
      (flags.ignoreErrors = true →
        (purcVariantStringify rt stream.write (some start) (some value) flags).ret =
          sent.length) ∧
      (purcVariantStringify rt stream.write (some start) (some value) flags).lenExpected =
        (emitted (variantStringify rt flags value)).length ∧
      (flags.ignoreErrors = false → stream.failed after = true →
        (purcVariantStringify rt stream.write (some start) (some value) flags).ret = -1) := by
  have begun : SentPrefix stream start [] ⟨some start, 0, 0, false, false⟩ start [] := by
    refine ⟨rfl, (List.append_nil _).symm, List.prefix_rfl, fun _ _ => rfl, rfl, rfl, ?_⟩
    rw [calm]
  obtain ⟨after, sent, final⟩ := begun.run (variantStringify rt flags value)
  rw [List.nil_append] at final
  refine ⟨after, sent, final.current, final.reached, final.isPrefix, ?_, ?_, final.accu, ?_⟩
  · intro calmAfter isOpen
    apply final.whole _ isOpen
    by_contra failed
    rw [final.noticed.2 (Bool.eq_true_of_not_eq_false failed)] at calmAfter
    cases calmAfter
  · intro ignore
    simp only [purcVariantStringify, ignore, not_true_eq_false, and_false, if_false,
      final.written]
  · intro reports failed
    simp [purcVariantStringify, reports, final.noticed.1 failed]

end Prefix

/-- A file on a disk with room for a number of bytes: a write takes what fits. -/
def smallDisk (room : ℕ) : OutputStream (List UInt8 × Bool) where
  write := fun state bytes =>
    if room ≤ state.1.length then (-1, (state.1, true))
    else
      ((min bytes.length (room - state.1.length) : ℕ),
        (state.1 ++ bytes.take (room - state.1.length), state.2))
  reached := fun state => state.1
  closed := fun state => room ≤ state.1.length
  failed := fun state => state.2
  outcome := by
    intro state bytes
    by_cases full : room ≤ state.1.length
    · exact .inl (by simp [full])
    · refine .inr ⟨min bytes.length (room - state.1.length), Nat.min_le_left _ _, ?_, ?_, ?_, ?_⟩
      · simp [full]
      · simp [full, List.take_eq_take_min, Nat.min_comm]
      · simp [full]
        omega
      · simp [full]
  remembers := by
    intro state bytes
    by_cases full : room ≤ state.1.length
    · simp [full]
    · have counted : ((min bytes.length (room - state.1.length) : ℕ) : Int) ≠ -1 := by omega
      rw [if_neg full]
      exact ⟨.inl, fun either => either.resolve_right counted⟩

/-- On a disk with room for seven bytes, the array of two nulls arrives without the end of the
second one, and the write behind it fails. -/
theorem purcVariantStringify_failing_disk :
    let value := Variant.linear 1 .array [.scalar 2 .null, .scalar 3 .null]
    ∃ after sent, (purcVariantStringify .plain (smallDisk 7).write (some ([], false))
        (some value) ⟨true, false, false⟩).stream = some after ∧
      (smallDisk 7).reached after = sent ∧ (smallDisk 7).failed after = true ∧
      sent = [110, 117, 108, 108, 10, 110, 117] ∧
      sent <+: emitted (variantStringify .plain ⟨true, false, false⟩ value) ∧
      (purcVariantStringify .plain (smallDisk 7).write (some ([], false))
        (some value) ⟨true, false, false⟩).ret = sent.length ∧
      (purcVariantStringify .plain (smallDisk 7).write (some ([], false))
        (some value) ⟨true, false, false⟩).lenExpected = 10 := by
  intro value
  have calm : (smallDisk 7).failed ([], false) = false := rfl
  obtain ⟨after, sent, current, reached, isPrefix, -, ret, length, -⟩ :=
    purcVariantStringify_failing .plain (smallDisk 7) ([], false) value ⟨true, false, false⟩ calm
  have ends : (purcVariantStringify .plain (smallDisk 7).write (some ([], false))
      (some value) ⟨true, false, false⟩).stream =
        some ([110, 117, 108, 108, 10, 110, 117], true) := by decide
  have same : after = ([110, 117, 108, 108, 10, 110, 117], true) :=
    Option.some.inj (current.symm.trans ends)
  rw [same] at reached
  have arrived : sent = [110, 117, 108, 108, 10, 110, 117] := reached.symm
  exact ⟨after, sent, current, by rw [same, arrived]; rfl, by rw [same]; rfl, arrived, isPrefix,
    ret rfl, length⟩

/-! ## Stringifying into a buffer -/

/-- What `snprintf` does with a text and a buffer: it stores the bytes that fit and a
terminator, and returns the length of the text. -/
def LikeSnprintf (buf text : List UInt8) (result : Option (Int × List UInt8)) : Prop :=
  ∃ after, result = some ((text.length : Int), after) ∧ after.length = buf.length ∧
    after.take (min text.length (buf.length - 1) + 1) =
      text.take (min text.length (buf.length - 1)) ++ [0]

/-- Stringifying into a buffer behaves like `snprintf` exactly when the text is shorter than
the buffer. -/
theorem purcVariantStringifyBuff_likeSnprintf_iff {rt : Runtime} (stores : rt.StoresWhatFits)
    {buf : List UInt8} (room : 1 ≤ buf.length) (value : Variant) :
    LikeSnprintf buf (emitted (variantStringify rt .none value))
        (purcVariantStringifyBuff rt buf (some value)) ↔
      (emitted (variantStringify rt .none value)).length < buf.length := by
  constructor
  · rintro ⟨after, result, -⟩
    simp only [purcVariantStringifyBuff] at result
    split at result
    · cases result
    · split at result
      · have error := congrArg Prod.fst (Option.some.inj result)
        simp only at error
        omega
      · split at result
        · rename_i short
          have same := congrArg Prod.fst (Option.some.inj result)
          simp only at same
          omega
        · cases result
  · intro short
    refine ⟨_, purcVariantStringifyBuff_fits stores rfl short, ?_, ?_⟩
    · simp
      omega
    · rw [Nat.min_eq_left (by omega), List.take_length, List.take_length_add_append]
      rfl

/-- The text `null` does not fit a buffer of four bytes. -/
theorem purcVariantStringifyBuff_exactFit :
    ¬LikeSnprintf [0, 0, 0, 0] (emitted (variantStringify .plain .none (.scalar 1 .null)))
      (purcVariantStringifyBuff .plain [0, 0, 0, 0] (some (.scalar 1 .null))) := by
  rintro ⟨after, result, -⟩
  have stopped : purcVariantStringifyBuff .plain [0, 0, 0, 0] (some (.scalar 1 .null)) = none := by
    decide
  rw [stopped] at result
  cases result

/-- The text `null` fits a buffer of five bytes. -/
theorem purcVariantStringifyBuff_likeSnprintf_null :
    LikeSnprintf [0, 0, 0, 0, 0] (emitted (variantStringify .plain .none (.scalar 1 .null)))
      (purcVariantStringifyBuff .plain [0, 0, 0, 0, 0] (some (.scalar 1 .null))) :=
  (purcVariantStringifyBuff_likeSnprintf_iff Runtime.plain_storesWhatFits (by decide) _).2
    (by decide)

end Bpcp.Purc
