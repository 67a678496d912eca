import Bpcp.Purc.ObjectTable

/-!
# The promises of objects that hold strings

Making a string or an object, setting a property and releasing a variant keep what the functions
that fill objects are promised, whatever the room is. An object without properties and one with two
are in memory at the end, so that they can be filled and copied.
-/

namespace Bpcp.Purc

open Bpcp.Lib ObjectWorld

variable {checked : Bool} {run : RefRun} {block : Nat} {room : ℕ}
  {before : ObjectWorld ObjectTable} {obj k v value : VariantPointer}

namespace ObjectTable

/-! ## Variants that are made -/

/-- What a live object holds is held. -/
theorem held_of_member (sound : before.Sound checked (objectTable checked room))
    (alive : block ∈ before.run.live)
    (inside : value ∈ members (before.contents.entries block)) : 0 < before.run.held value := by
  have counted : 0 < (members (before.contents.entries block)).count value :=
    List.count_pos_iff.2 inside
  exact counted.trans_le ((count_le_inside alive value).trans (sound.inside value))

/-- A variant that is made has no properties. -/
theorem made_entries_self (table : ObjectTable) (text : CString) (block : Nat) :
    (table.made text (some (.block block))).entries block = [] := Function.update_self _ _ _

/-- Other variants have what they had. -/
theorem made_entries_of_ne {table : ObjectTable} {other : Nat} (text : CString)
    (apart : other ≠ block) :
    (table.made text (some (.block block))).entries other = table.entries other :=
  Function.update_of_ne apart _ _

/-- A variant that is made holds nothing. -/
theorem made_inside {table : ObjectTable} {live : Finset Nat} (text : CString)
    (new : block ∉ live) (value : VariantPointer) :
    (table.made text (some (.block block))).inside (insert block live) value =
      table.inside live value := by
  rw [← inside_subset (Finset.subset_insert block live)]
  · apply inside_congr
    intro other alive
    exact made_entries_of_ne text fun same => new (same ▸ alive)
  · intro other alive gone
    rw [(Finset.mem_insert.1 alive).resolve_right gone]
    exact made_entries_self table text block

/-- The properties of the other variants are still those of strings. -/
theorem made_fits {types : Nat → VariantType} (text : CString)
    (sound : before.Sound checked (objectTable checked room)) (new : block ∉ before.run.live)
    (same : ∀ other, other ≠ block → types other = before.run.types other) :
    (before.contents.made text (some (.block block))).Fits (insert block before.run.live)
      types := by
  constructor
  · intro other alive something
    by_cases hit : other = block
    · rw [hit, made_entries_self] at something
      exact absurd rfl something
    · rw [made_entries_of_ne text hit] at something
      exact (same other hit).trans
        (sound.fits.object other (Finset.mem_of_mem_insert_of_ne alive hit) something)
  · intro other alive value inside
    by_cases hit : other = block
    · rw [hit, made_entries_self] at inside
      exact absurd inside List.not_mem_nil
    · rw [made_entries_of_ne text hit] at inside
      have old := Finset.mem_of_mem_insert_of_ne alive hit
      have lives := sound.lives_of_held (held_of_member sound old inside)
      have apart : value ≠ block := fun isNew => new (isNew ▸ lives)
      exact (same value apart).trans (sound.fits.string other old value inside)

/-- A variant that is made is new, and has its text and no properties. -/
theorem make_makes (checked : Bool) (room : ℕ) (type : VariantType) (text : CString)
    (needed : hasReleaser type = true) :
    Makes checked (objectTable checked room) (make type text) fun contents value =>
      contents.texts value = text ∧ contents.entriesOf value = [] := by
  intro before sound
  rcases makeBlock_step type sound.reachable with fails |
    ⟨block, next, makes, reachable, releasing, new, live, held, typed, types⟩
  · have state : makeBlock type before.memory.state = (none, before.run.state) := fails
    refine ⟨none, before, ?_, Follows.refl sound, fun _ => rfl, nofun⟩
    simp only [make, state]
    rfl
  · have state : makeBlock type before.memory.state = (some (.block block), next.state) := makes
    let after : ObjectWorld ObjectTable :=
      ⟨before.contents.made text (some (.block block)), next⟩
    have inside : ∀ value, after.contents.inside next.live value =
        before.contents.inside before.run.live value := by
      intro value
      rw [live]
      exact made_inside text new value
    have bound : ∀ value, before.contents.inside before.run.live value ≤ before.run.held value :=
      sound.inside
    have sound' : after.Sound checked (objectTable checked room) := by
      refine ⟨reachable, ?_, ?_⟩
      · intro value
        have most : after.contents.inside next.live value ≤ next.held value := by
          rw [inside, held]
          exact (bound value).trans le_self_add
        exact most
      · have fits := made_fits text sound new types
        rw [← live] at fits
        exact fits
    have owned : after.owned (objectTable checked room) =
        before.owned (objectTable checked room) + oneReference (.block block) := by
      funext value
      have left : after.owned (objectTable checked room) value =
          next.held value - after.contents.inside next.live value := rfl
      rw [left, inside, held]
      exact Nat.sub_add_comm (bound value)
    have apart : ∀ value, before.Lives value → value ≠ .block block := by
      intro value lives same
      rw [same] at lives
      exact new lives
    refine ⟨some (.block block), after, ?_, ⟨sound', releasing, ?_, ?_, ?_⟩, nofun, ?_⟩
    · simp only [make, state]
      rfl
    · intro other lives _
      exact types other fun same => new (same ▸ lives)
    · intro value lives _
      exact Function.update_of_ne (apart value lives) _ _
    · intro obj _ lives _
      cases obj with
      | constant which => rfl
      | block other => exact made_entries_of_ne text fun same => new (same ▸ lives)
    · intro value same
      rw [← Option.some.inj same]
      refine ⟨⟨new, owned, held, ?_⟩, Function.update_self _ _ _,
        made_entries_self before.contents text block⟩
      intro other sameBlock
      rw [← VariantPointer.block.inj sameBlock]
      exact (congrArg hasReleaser typed).trans needed

/-! ## Variants that are released -/

/-- Releasing a variant gives up what it holds. -/
theorem release_releases {released : Nat} {rest : List Nat}
    (sound : before.Sound checked (objectTable checked room))
    (stack : before.run.releasing = released :: rest) :
    ∃ next, ReleasedBy checked (release checked before.contents) before.run released next ∧
      before.contents.Fits (next.live.erase released) next.types ∧
      next.types = before.run.types ∧
      ∀ other, before.contents.inside (next.live.erase released) other ≤ next.held other ∧
        next.held other - before.contents.inside (next.live.erase released) other =
          before.run.held other - before.contents.inside before.run.live other := by
  have listed : released ∈ before.run.releasing := by
    rw [stack]
    exact List.mem_cons_self
  have alive : released ∈ before.run.live :=
    (((RefRun.Sound.of_reachable sound.reachable).counted.underWay released).1 listed).1
  have bound : ∀ value, before.contents.inside before.run.live value ≤ before.run.held value :=
    sound.inside
  have fits : before.contents.Fits before.run.live before.run.types := sound.fits
  let refs := members (before.contents.entries released)
  have string : ∀ block, .block block ∈ refs → before.run.types block = .string :=
    fits.string released alive
  obtain ⟨given, gives, left⟩ := giveUp_all refs sound.reachable
    (fun value => (count_le_inside alive value).trans (bound value)) string
  obtain ⟨subset, empty⟩ := fits.gives sound.reachable left string
  obtain ⟨next, reachable, same, returns, emptied, unheard, live, held, types⟩ :=
    releaseSize_steps left.reachable (left.releasing.trans stack)
  have sameTypes : next.types = before.run.types := (funext types).trans left.types
  refine ⟨next, ⟨reachable, same.trans stack.symm, ?_, emptied, fun _ => unheard⟩, ?_, sameTypes,
    ?_⟩
  · rw [release, gives]
    exact returns
  · rw [sameTypes, live]
    exact fits.mono ((Finset.erase_subset released _).trans subset)
  · intro other
    have erased : before.contents.inside (given.live.erase released) other =
        before.contents.inside (before.run.live.erase released) other := by
      apply inside_subset (Finset.erase_subset_erase released subset)
      intro block alive gone
      obtain ⟨apart, alive⟩ := Finset.mem_erase.1 alive
      exact empty block alive fun stays => gone (Finset.mem_erase.2 ⟨apart, stays⟩)
    have parts : refs.count other + before.contents.inside (before.run.live.erase released) other =
        before.contents.inside before.run.live other := inside_erase alive other
    have balance := left.held other
    have more := bound other
    rw [live, held, erased]
    omega

/-! ## Properties that are set -/

/-- A variant with a count is held. -/
theorem held_of_refc (sound : before.Sound checked (objectTable checked room))
    (lives : before.Lives value) (present : before.run.state.refc value ≠ 0) :
    0 < before.run.held value := by
  have counts := (RefRun.Sound.of_reachable sound.reachable).counted.counts value lives
  rw [← counts]
  apply Nat.pos_of_ne_zero
  intro zero
  exact present (UInt32.toNat_inj.1 zero)

/-- What may be set. -/
theorem canSet_iff {memory : ObjectMemory ObjectTable} :
    canSet room block k v memory = true ↔
      (memory.state.heap.cells block).type = .object ∧
      (memory.state.refc k ≠ 0 ∧ isString memory.state k = true) ∧
      (memory.state.refc v ≠ 0 ∧ (isString memory.state v = true ∨ isConstant v = true)) ∧
      (memory.contents.replaced k v (memory.contents.entries block)).length ≤ room := by
  simp only [canSet, Bool.and_eq_true, beq_iff_eq, bne_iff_ne, Bool.or_eq_true,
    decide_eq_true_eq, and_assoc]

/-- A property that is set is found under its key, and the others are found as before. -/
theorem lookup_replaced (table : ObjectTable)
    (entries : List (VariantPointer × VariantPointer)) (key : CString) :
    ((table.replaced k v entries).map fun (k, v) => (table.texts k, v)).lookup key =
      if key = table.texts k then some v
      else (entries.map fun (k, v) => (table.texts k, v)).lookup key := by
  have named : ((table.replaced k v entries).map fun (k, v) => (table.texts k, v)) =
      (entries.map fun (k, v) => (table.texts k, v)).filter
        (fun entry => entry.1 ≠ table.texts k) ++ [(table.texts k, v)] := by
    rw [replaced, List.map_append, List.filter_map]
    congr 2
    apply List.filter_congr
    intro entry _
    simp [hasKey, beq_eq_decide]
  rw [named, Keyed.lookup_replaced]

/-- What setting a property does to the references. -/
structure Stores (checked : Bool) (before : ObjectWorld ObjectTable) (block : Nat)
    (k v : VariantPointer) (next : RefRun) : Prop where
  /-- It is a run. -/
  reachable : (refMachine checked).Reachable next
  /-- The releases that were under way are under way. -/
  releasing : next.releasing = before.run.releasing
  /-- The types are the same. -/
  types : next.types = before.run.types
  /-- No variant is made. -/
  subset : next.live ⊆ before.run.live
  /-- What is released holds nothing. -/
  empty : ∀ other ∈ before.run.live, other ∉ next.live → before.contents.entries other = []
  /-- The object is alive. -/
  alive : block ∈ next.live
  /-- References are taken and given up. -/
  held : ∀ value, next.held value +
    (members ((before.contents.entries block).filter (before.contents.hasKey k))).count value =
      before.run.held value + (oneReference k value + oneReference v value)

/-- The key and the value of a property get a reference each. -/
theorem takes_both (sound : before.Sound checked (objectTable checked room))
    (holdsKey : 0 < before.run.held k) (holdsVal : 0 < before.run.held v)
    (fewKey : before.run.held k + 2 < 2 ^ 32) (fewVal : before.run.held v + 2 < 2 ^ 32) :
    ∃ first second, purcVariantRef checked before.run.state k = some (some k, first) ∧
      purcVariantRef checked first v = some (some v, RefRun.state second) ∧
      (refMachine checked).Reachable second ∧ second.releasing = before.run.releasing ∧
      second.live = before.run.live ∧ second.types = before.run.types ∧
      ∀ value, second.held value =
        before.run.held value + (oneReference k value + oneReference v value) := by
  obtain ⟨first, takes, reached, stack, live, held, heap⟩ :=
    purcVariantRef_takes sound.reachable holdsKey (by omega)
  have more : ∀ value, first.held value = before.run.held value + oneReference k value :=
    congrFun held
  have most : oneReference k v ≤ 1 := by
    rw [oneReference, Pi.single_apply]
    split <;> omega
  have moreVal := more v
  have holdsVal' : 0 < first.held v := by omega
  have few : first.held v + 1 < 2 ^ 32 := by omega
  obtain ⟨second, takes', reached', stack', live', held', heap'⟩ :=
    purcVariantRef_takes reached holdsVal' few
  refine ⟨first.state, second, takes, takes', reached', stack'.trans stack, live'.trans live, ?_,
    ?_⟩
  · funext other
    rw [RefRun.types, heap', heap]
    rfl
  · intro value
    rw [held', Pi.add_apply, more, Nat.add_assoc]

/-- A property that may be set is set. -/
theorem objectSet_stores (sound : before.Sound checked (objectTable checked room))
    (owns : 0 < before.run.held (.block block)) (livesKey : before.Lives k)
    (livesVal : before.Lives v) (fewKey : before.run.held k + 2 < 2 ^ 32)
    (fewVal : before.run.held v + 2 < 2 ^ 32)
    (allowed : canSet room block k v before.memory = true) :
    ∃ next, objectSet checked room (.block block) k v before.memory =
        some (true, ⟨before.contents.stored block k v, next.state⟩) ∧
      Stores checked before block k v next := by
  obtain ⟨isObject, ⟨presentKey, _⟩, ⟨presentVal, _⟩, _⟩ := canSet_iff.1 allowed
  have fits : before.contents.Fits before.run.live before.run.types := sound.fits
  have alive : block ∈ before.run.live := sound.lives_of_held owns
  have object : before.run.types block = .object := isObject
  obtain ⟨first, second, takes, takes', reached, stack, live, types, both⟩ :=
    takes_both sound (held_of_refc sound livesKey presentKey)
      (held_of_refc sound livesVal presentVal) fewKey fewVal
  -- What had the key is given up.
  let dropped := members ((before.contents.entries block).filter (before.contents.hasKey k))
  have fewer : ∀ value,
      dropped.count value ≤ (members (before.contents.entries block)).count value := by
    intro value
    rw [← count_members_filter (before.contents.entries block) (before.contents.hasKey k)]
    exact Nat.le_add_right _ _
  have string : ∀ other, .block other ∈ dropped → second.types other = .string := by
    intro other inside
    rw [types]
    exact fits.string block alive other
      (List.count_pos_iff.1 ((List.count_pos_iff.2 inside).trans_le (fewer (.block other))))
  obtain ⟨next, gives, left⟩ := giveUp_all dropped reached (by
    intro value
    have inside := (count_le_inside alive value).trans (sound.inside value)
    have part := fewer value
    have all := both value
    omega) string
  have fits' : before.contents.Fits second.live second.types := by
    rw [live, types]
    exact fits
  obtain ⟨subset, empty⟩ := fits'.gives reached left string
  rw [live] at subset empty
  have balance : ∀ value, next.held value + dropped.count value =
      before.run.held value + (oneReference k value + oneReference v value) :=
    fun value => (left.held value).trans (both value)
  have stays : block ∈ next.live := by
    have apart : .block block ∉ dropped := by
      intro inside
      have type := string block inside
      rw [types, object] at type
      exact VariantType.noConfusion type
    have equal := balance (.block block)
    rw [List.count_eq_zero_of_not_mem apart] at equal
    have holds : 0 < next.held (.block block) := by omega
    exact (RefRun.Sound.of_reachable left.reachable).counted.alive holds
  refine ⟨next, ?_, left.reachable, left.releasing.trans stack, left.types.trans types, subset,
    empty, stays, balance⟩
  have reads : objectSet checked room (.block block) k v before.memory = _ := if_pos allowed
  rw [reads]
  have taken : purcVariantRef checked before.memory.state k = some (some k, first) := takes
  have given : (members ((before.memory.contents.entries block).filter
      (before.memory.contents.hasKey k))).foldlM (giveUp checked) second.state =
        some next.state := gives
  simp only [taken, takes', given, Option.bind_eq_bind, Option.bind_some]
  rfl

/-- Setting a property adds as much to what is inside as to what is held. -/
theorem Stores.inside {next : RefRun} (stores : Stores checked before block k v next)
    (value : VariantPointer) :
    (before.contents.stored block k v).inside next.live value +
        (members ((before.contents.entries block).filter (before.contents.hasKey k))).count value =
      before.contents.inside before.run.live value +
        (oneReference k value + oneReference v value) := by
  have balance : (before.contents.stored block k v).inside next.live value + _ =
      before.contents.inside next.live value + _ :=
    inside_replaced stores.alive (fun _ apart => stored_entries_of_ne apart) value
  have same := inside_subset stores.subset stores.empty value
  have parts := count_members_filter (before.contents.entries block) (before.contents.hasKey k)
    value
  have all := count_members_append
    ((before.contents.entries block).filter fun entry => !before.contents.hasKey k entry) k v value
  rw [stored_entries_self, replaced] at balance
  omega

/-- What is set is a string or a constant. -/
theorem Stores.fits {next : RefRun} (stores : Stores checked before block k v next)
    (sound : before.Sound checked (objectTable checked room))
    (allowed : canSet room block k v before.memory = true) :
    (before.contents.stored block k v).Fits next.live next.types := by
  obtain ⟨isObject, ⟨_, key⟩, ⟨_, val⟩, _⟩ := canSet_iff.1 allowed
  have fits : before.contents.Fits before.run.live before.run.types := sound.fits
  have string : ∀ value, isString before.run.state (.block value) = true →
      before.run.types value = .string := fun _ string => beq_iff_eq.1 string
  rw [stores.types]
  constructor
  · intro other alive something
    by_cases hit : other = block
    · rw [hit]
      exact isObject
    · rw [stored_entries_of_ne hit] at something
      exact fits.object other (stores.subset alive) something
  · intro other alive value inside
    by_cases hit : other = block
    · rw [hit, stored_entries_self, replaced, ← List.count_pos_iff, count_members_append] at inside
      by_cases isKey : VariantPointer.block value = k
      · rw [← isKey] at key
        exact string value key
      · by_cases isVal : VariantPointer.block value = v
        · rw [← isVal] at val
          exact string value (val.resolve_right Bool.false_ne_true)
        · -- It was there before.
          rw [oneReference, oneReference, Pi.single_eq_of_ne isKey, Pi.single_eq_of_ne isVal]
            at inside
          have parts := count_members_filter (before.contents.entries block)
            (before.contents.hasKey k) (.block value)
          apply fits.string block (stores.subset stores.alive) value
          rw [← List.count_pos_iff]
          omega
    · rw [stored_entries_of_ne hit] at inside
      exact fits.string other (stores.subset alive) value inside

/-- A property is set when there is room for it. -/
theorem objectSet_sets (sound : before.Sound checked (objectTable checked room))
    (owns : 0 < before.owned (objectTable checked room) obj) (livesKey : before.Lives k)
    (livesVal : before.Lives v) (fewKey : before.run.held k + 2 < 2 ^ 32)
    (fewVal : before.run.held v + 2 < 2 ^ 32) :
    ∃ ok after, objectSet checked room obj k v before.memory =
        some (ok, ObjectWorld.memory after) ∧
      before.Follows checked (objectTable checked room) (some obj) after ∧
      after.owned (objectTable checked room) = before.owned (objectTable checked room) ∧
      after.run.held ≤ before.run.held + (oneReference k + oneReference v) ∧
      (ok = true → (objectTable checked room).property after.contents obj =
        Function.update ((objectTable checked room).property before.contents obj)
          (before.contents.texts k) (some v)) := by
  cases obj with
  | constant which => exact ⟨false, before, rfl, Follows.refl sound, rfl, le_self_add, nofun⟩
  | block block =>
    by_cases allowed : canSet room block k v before.memory = true
    · have holds := ObjectWorld.held_of_owned owns
      obtain ⟨next, sets, stores⟩ :=
        objectSet_stores sound holds livesKey livesVal fewKey fewVal allowed
      let after : ObjectWorld ObjectTable := ⟨before.contents.stored block k v, next⟩
      have bound : ∀ value, before.contents.inside before.run.live value ≤ before.run.held value :=
        sound.inside
      have inside : ∀ value, after.contents.inside next.live value + _ = _ := stores.inside
      have sound' : after.Sound checked (objectTable checked room) := by
        refine ⟨stores.reachable, ?_, stores.fits sound allowed⟩
        intro value
        have held := stores.held value
        have balance := inside value
        have least := bound value
        have most : after.contents.inside next.live value ≤ next.held value := by omega
        exact most
      refine ⟨true, after, sets, ⟨sound', stores.releasing, ?_, fun _ _ _ => rfl, ?_⟩, ?_, ?_, ?_⟩
      · intro other _ _
        exact congrFun stores.types other
      · intro obj apart _ _
        cases obj with
        | constant which => rfl
        | block other =>
          have others : other ≠ block := fun same => apart (by rw [same])
          exact stored_entries_of_ne others
      · funext value
        have held := stores.held value
        have balance := inside value
        have least := bound value
        have same : next.held value - after.contents.inside next.live value =
            before.run.held value - before.contents.inside before.run.live value := by omega
        exact same
      · intro value
        have held := stores.held value
        have most : next.held value ≤
            before.run.held value + (oneReference k value + oneReference v value) := by omega
        exact most
      · intro _
        funext key
        have found := lookup_replaced (k := k) (v := v) before.contents
          (before.contents.entries block) key
        rw [← stored_entries_self] at found
        rw [Function.update_apply]
        exact found
    · have returns : objectSet checked room (.block block) k v before.memory =
          some (false, before.memory) := if_neg allowed
      exact ⟨false, before, returns, Follows.refl sound, rfl, le_self_add, nofun⟩

end ObjectTable

/-- The functions keep the promises, whatever the room is. -/
theorem objectTable_promises (checked : Bool) (room : ℕ) :
    Promises checked (objectTable checked room) where
  entered contents live obj k v alive entered := by
    cases obj with
    | constant which => exact absurd entered List.not_mem_nil
    | block block =>
      have inside : ∀ value, value = k ∨ value = v → 0 < contents.inside live value := by
        intro value isMember
        have member : value ∈ members (contents.entries block) :=
          List.mem_flatMap.2 ⟨(k, v), entered, by simpa using isMember⟩
        exact (List.count_pos_iff.2 member).trans_le (ObjectTable.count_le_inside alive value)
      exact ⟨inside k (Or.inl rfl), inside v (Or.inr rfl)⟩
  string text := (ObjectTable.make_makes checked room .string text rfl).imp fun _ _ holds => holds.1
  objectByStaticCkey :=
    (ObjectTable.make_makes checked room .object (.lit "") rfl).imp fun _ _ holds => holds.2
  object :=
    (ObjectTable.make_makes checked room .object (.lit "") rfl).imp fun _ _ holds => holds.2
  set _ _ _ _ sound owns livesKey livesVal fewKey fewVal :=
    ObjectTable.objectSet_sets sound owns livesKey livesVal fewKey fewVal
  release before value rest sound stack _ := by
    obtain ⟨next, released, fits, types, kept⟩ := ObjectTable.release_releases sound stack
    exact ⟨next, released, fits, fun other _ => congrFun types other, kept⟩

/-! ## Objects in memory -/

/-- A variant is made where there is memory for it. -/
def RefRun.madeAt (run : RefRun) (type : VariantType) (alloc : Nat) : RefRun :=
  (run.withHeapRun (Accounts.newRun run.toHeapRun alloc type type)).count (.block alloc) 1 1

/-- Making a variant is a step. -/
theorem RefRun.madeAt_reachable {type : VariantType} {alloc : Nat}
    (reachable : (refMachine checked).Reachable run)
    (empty : listEmpty run.state.heap.links run.state.heap.vReserved = true)
    (fresh : Fresh run.state.heap alloc) :
    (refMachine checked).Reachable (run.madeAt type alloc) := by
  have permits : run.Permits (.make alloc type type) := fun _ _ => fresh
  have taken : run.toHeapRun.act checked (.get alloc type type) =
      some (Accounts.newRun run.toHeapRun alloc type type) := by
    rw [Accounts.act_get_empty empty, if_neg fresh.notNull]
  have got : (pcvariantGet run.state.heap alloc type).1 = alloc := by
    simp [pcvariantGet, empty, fresh.notNull]
  have acts : run.act checked (.make alloc type type) = some (run.madeAt type alloc) := by
    simp only [RefRun.act, taken, got, Option.bind_eq_bind, Option.bind_some]
    exact if_neg fresh.notNull
  exact reachable.step ⟨permits, acts⟩

/-- A variant is held once when it is made. -/
theorem RefRun.madeAt_held {type : VariantType} {alloc : Nat} (once : ∀ value, run.held value ≤ 1)
    (value : VariantPointer) : (run.madeAt type alloc).held value ≤ 1 := by
  by_cases hit : value = .block alloc
  · rw [hit]
    exact (Function.update_self _ _ _).le
  · exact (Function.update_of_ne hit _ _).le.trans (once value)

/-- An object was made. -/
def objectMade : RefRun := refStart.madeAt .object 4096

/-- Memory behind what was made can be used. -/
theorem fresh_behind (run : RefRun) (found : blockBehind run.state.heap = block)
    (notNull : block ≠ null) : Fresh run.state.heap block := by
  rw [← found] at notNull ⊢
  exact blockBehind_fresh notNull

/-- An object is made. -/
theorem objectMade_reachable (checked : Bool) : (refMachine checked).Reachable objectMade := by
  have starts : (refMachine checked).start refStart :=
    ⟨64, 32, fun _ => .zero, ⟨id, id⟩, fun _ => 0, fun _ => rfl, rfl⟩
  exact RefRun.madeAt_reachable (.start starts) rfl (reuse_handedOut.1.1 rfl (by decide))

/-- An object without properties. -/
def objectWorld : ObjectWorld ObjectTable := ⟨⟨fun _ => .lit "", fun _ => []⟩, objectMade⟩

/-- Calls may be made when there is an object without properties. -/
theorem objectWorld_sound (room : ℕ) : objectWorld.Sound true (objectTable true room) := by
  have nothing : ∀ value, objectWorld.contents.inside objectWorld.run.live value = 0 :=
    fun _ => Finset.sum_eq_zero fun _ _ => rfl
  refine ⟨objectMade_reachable true, fun value => (nothing value).le.trans (Nat.zero_le _), ?_, ?_⟩
  · intro _ _ something
    exact absurd rfl something
  · intro _ _ _ inside
    exact absurd inside List.not_mem_nil

/-- An object and four strings were made. -/
def filledMade : RefRun :=
  (((objectMade.madeAt .string 4160).madeAt .string 4224).madeAt .string 4288).madeAt .string 4352

/-- The object has two properties. -/
def filledTable : ObjectTable where
  texts
    | .block 4160 => .lit "a"
    | .block 4224 => .lit "1"
    | .block 4288 => .lit "b"
    | .block 4352 => .lit "2"
    | _ => .lit ""
  entries block :=
    if block = 4096 then [(.block 4160, .block 4224), (.block 4288, .block 4352)] else []

/-- An object with two properties. -/
def filledWorld : ObjectWorld ObjectTable := ⟨filledTable, filledMade⟩

/-- The object and the strings are made. -/
theorem filledMade_reachable (checked : Bool) : (refMachine checked).Reachable filledMade := by
  have first : (refMachine checked).Reachable (objectMade.madeAt .string 4160) :=
    RefRun.madeAt_reachable (objectMade_reachable checked) rfl
      (fresh_behind objectMade (by decide) (by decide))
  have second : (refMachine checked).Reachable
      ((objectMade.madeAt .string 4160).madeAt .string 4224) :=
    RefRun.madeAt_reachable first rfl
      (fresh_behind (objectMade.madeAt .string 4160) (by decide) (by decide))
  have third : (refMachine checked).Reachable
      (((objectMade.madeAt .string 4160).madeAt .string 4224).madeAt .string 4288) :=
    RefRun.madeAt_reachable second rfl
      (fresh_behind ((objectMade.madeAt .string 4160).madeAt .string 4224) (by decide) (by decide))
  exact RefRun.madeAt_reachable third rfl
    (fresh_behind (((objectMade.madeAt .string 4160).madeAt .string 4224).madeAt .string 4288)
      (by decide) (by decide))

/-- Each of them is held once. -/
theorem filledMade_held (value : VariantPointer) : filledMade.held value ≤ 1 := by
  have none : ∀ value, refStart.held value ≤ 1 := fun _ => Nat.zero_le 1
  iterate 5 apply RefRun.madeAt_held
  exact none

/-- Calls may be made when there is an object with two properties. -/
theorem filledWorld_sound (room : ℕ) : filledWorld.Sound true (objectTable true room) := by
  have empty : ∀ block, block ≠ 4096 → filledTable.entries block = [] :=
    fun _ apart => if_neg apart
  refine ⟨filledMade_reachable true, ?_, ?_, ?_⟩
  · intro value
    have inside : filledTable.inside {4096} value = filledTable.inside filledMade.live value := by
      apply ObjectTable.inside_subset (by decide)
      intro block _ gone
      exact empty block fun same => gone (Finset.mem_singleton.2 same)
    have single : filledTable.inside {4096} value =
        (members (filledTable.entries 4096)).count value := Finset.sum_singleton _ _
    have once : (members (filledTable.entries 4096)).Nodup := by decide
    have held : ∀ value ∈ members (filledTable.entries 4096), 1 ≤ filledMade.held value := by
      decide
    have most : filledTable.inside filledMade.live value ≤ filledMade.held value := by
      rw [← inside, single]
      by_cases isMember : value ∈ members (filledTable.entries 4096)
      · rw [List.count_eq_one_of_mem once isMember]
        exact held value isMember
      · rw [List.count_eq_zero_of_not_mem isMember]
        exact Nat.zero_le _
    exact most
  · intro block _ something
    by_cases hit : block = 4096
    · rw [hit]
      rfl
    · exact absurd (empty block hit) something
  · intro block _ value inside
    have held : VariantPointer.block value ∈ members (filledTable.entries block) := inside
    by_cases hit : block = 4096
    · have string : ∀ value ∈ [4160, 4224, 4288, 4352], filledMade.types value = .string := by
        decide
      rw [hit] at held
      apply string value
      simpa [members, filledTable] using held
    · rw [empty block hit] at held
      exact absurd held List.not_mem_nil

end Bpcp.Purc
