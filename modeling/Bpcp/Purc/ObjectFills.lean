import Bpcp.Purc.ObjectPromises

/-!
# Objects that were filled

`pcvariant_make_object` returns an object with the last string that was given for each key, and
`pcvariant_object_shallow_copy` one with the properties of the object that it copies. When a called
function fails they return nothing, and the caller owns what it owned before.
-/

namespace Bpcp.Purc

open Bpcp.Lib

namespace ObjectWorld

variable {κ : Type} {checked : Bool} {api : ObjectApi κ} {before after world : ObjectWorld κ}
  {obj value k v : VariantPointer} {base : VariantPointer → ℕ}

/-- There is no target. -/
theorem no_target : (none : Option VariantPointer) ≠ some obj := (Option.some_ne_none obj).symm

/-- What is owned stays owned when references are added. -/
theorem owns_of_le (owns : 0 < base value) (more : base ≤ world.owned api) :
    0 < world.owned api value := owns.trans_le (more value)

/-- A new variant has one reference. -/
theorem Made.held_one (made : before.Made api after value) (sound : before.Sound checked api) :
    after.run.held value = 1 := by
  have none : before.run.held value = 0 :=
    (RefRun.Sound.of_reachable sound.reachable).counted.dead value made.new
  rw [made.held, Pi.add_apply, none, oneReference, Pi.single_eq_same]

/-- A new variant was not owned. -/
theorem Made.unowned (made : before.Made api after value) (sound : before.Sound checked api) :
    before.owned api value = 0 := by
  by_contra owns
  exact made.new (sound.lives (Nat.pos_of_ne_zero owns))

/-- A new variant is none that is owned. -/
theorem Made.ne (made : before.Made api after value) (sound : before.Sound checked api)
    (owns : 0 < before.owned api obj) : obj ≠ value := by
  intro same
  rw [same, made.unowned sound] at owns
  exact Nat.lt_irrefl 0 owns

/-- Nothing is relied on of a target that is not owned. -/
theorem Keeps.untarget (keeps : Keeps api base (some obj) before after) (unowned : base obj = 0) :
    Keeps api base none before after where
  releasing := keeps.releasing
  releasable := keeps.releasable
  texts := keeps.texts
  properties other _ owns := by
    apply keeps.properties other _ owns
    intro same
    rw [← Option.some.inj same] at owns
    exact owns.ne' unowned

/-- A call without a target keeps what a call with a target keeps. -/
theorem Keeps.retarget (keeps : Keeps api base none before after) :
    Keeps api base (some obj) before after where
  releasing := keeps.releasing
  releasable := keeps.releasable
  texts := keeps.texts
  properties other _ owns := keeps.properties other no_target owns

/-! ## Strings -/

/-- A property that is set has the text of its value. -/
theorem Follows.textUnder_set (follows : before.Follows checked api (some obj) after)
    (promises : Promises checked api) (sound : before.Sound checked api)
    (lives : before.Lives obj) (stays : after.Lives obj) (livesVal : before.Lives v)
    (staysVal : after.Lives v)
    (set : api.property after.contents obj =
      Function.update (api.property before.contents obj) (api.text before.contents k) (some v)) :
    after.textUnder api obj = Function.update (before.textUnder api obj)
      (api.text before.contents k) (some (api.text before.contents v)) := by
  funext key
  rw [ObjectWorld.textUnder, set]
  by_cases hit : key = api.text before.contents k
  · rw [hit, Function.update_self, Function.update_self]
    exact congrArg some (follows.texts v livesVal staysVal)
  · have found : api.property after.contents obj key = api.property before.contents obj key := by
      rw [set, Function.update_of_ne hit]
    rw [Function.update_of_ne hit, Function.update_of_ne hit, ObjectWorld.textUnder]
    cases value : api.property before.contents obj key with
    | none => rfl
    | some u =>
      obtain ⟨_, entered⟩ := entered_of_property value
      obtain ⟨_, entered'⟩ := entered_of_property (found.trans value)
      have livesU := (sound.lives_entries promises lives entered).2
      have staysU := (follows.sound.lives_entries promises stays entered').2
      exact congrArg some (follows.texts u livesU staysU)

/-- The end of a turn of the loop: a property is set to a string, and the key and the string are
given up. -/
theorem setPair (promises : Promises checked api) (sound : before.Sound checked api)
    (owned : before.owned api = base + oneReference k + oneReference v) (owns : 0 < base obj)
    (releasableKey : before.Releasable k) (releasableVal : before.Releasable v)
    (oneKey : before.run.held k = 1) (oneVal : before.run.held v = 1) :
    ∃ ok stored kept after,
      api.objectSet obj k v before.memory = some (ok, ObjectWorld.memory stored) ∧
      api.unref checked k stored.memory = some (ObjectWorld.memory kept) ∧
      api.unref checked v kept.memory = some (ObjectWorld.memory after) ∧
      after.Sound checked api ∧ after.owned api = base ∧ Keeps api base (some obj) before after ∧
      (ok = true → after.textUnder api obj = Function.update (before.textUnder api obj)
        (api.text before.contents k) (some (api.text before.contents v))) := by
  have more : base + oneReference v ≤ before.owned api := by
    rw [owned, add_right_comm]
    exact le_self_add
  have enough : base ≤ before.owned api := le_self_add.trans more
  have ownsKey : 0 < before.owned api k := owned_of_add (owned.trans (add_right_comm _ _ _))
  have ownsVal : 0 < before.owned api v := owned_of_add owned
  have ownsObj := owns_of_le owns enough
  have livesVal := sound.lives ownsVal
  have ⟨ok, stored, sets, follows, same, _, property⟩ :=
    promises.set before obj k v sound ownsObj (sound.lives ownsKey) livesVal (by omega) (by omega)
  have keeps : Keeps api (before.owned api) (some obj) before stored :=
    follows.keeps promises sound le_rfl same.ge
  -- The key is given up.
  have ownsKey' : 0 < stored.owned api k := owns_of_le ownsKey same.ge
  have ⟨kept, unrefs, followsKey, given⟩ := unref_follows promises follows.sound ownsKey'
    (keeps.releasable k ownsKey releasableKey)
  have left : kept.owned api = base + oneReference v :=
    given.left ((same.trans owned).trans (add_right_comm _ _ _))
  have keepsKey : Keeps api (base + oneReference v) none stored kept :=
    followsKey.keeps promises follows.sound (more.trans same.ge) left.ge
  -- The string is given up.
  have ownsVal' : 0 < kept.owned api v := owned_of_add left
  have ⟨after, unrefs', followsVal, given'⟩ := unref_follows promises followsKey.sound ownsVal'
    (keepsKey.releasable v (owned_of_add rfl) (keeps.releasable v ownsVal releasableVal))
  have rest : after.owned api = base := given'.left left
  have keepsVal : Keeps api base none kept after :=
    followsVal.keeps promises followsKey.sound (le_self_add.trans left.ge) rest.ge
  have livesStored := follows.sound.lives (owns_of_le owns (enough.trans same.ge))
  have livesKept := followsKey.sound.lives (owns_of_le owns (le_self_add.trans left.ge))
  have livesAfter := followsVal.sound.lives (owns_of_le owns rest.ge)
  refine ⟨ok, stored, kept, after, sets, unrefs, unrefs', followsVal.sound, rest, ?_, ?_⟩
  · exact ((keeps.mono enough).trans (keepsKey.mono le_self_add).retarget).trans keepsVal.retarget
  · intro success
    rw [followsVal.textUnder promises followsKey.sound no_target livesKept livesAfter,
      followsKey.textUnder promises follows.sound no_target livesStored livesKept]
    exact follows.textUnder_set promises sound (sound.lives ownsObj) livesStored livesVal
      (follows.sound.lives (owns_of_le ownsVal same.ge)) (property success)

/-- `pcvariant_object_set_va` leaves the caller what it owns, and when it succeeds the object has
the last string for each key. -/
theorem objectSetVa_fills (promises : Promises checked api) (kvs : List (CString × CString))
    (sound : before.Sound checked api) (owns : 0 < before.owned api obj) :
    ∃ r after, api.objectSetVa checked obj kvs before.memory =
        some (r, ObjectWorld.memory after) ∧
      after.Sound checked api ∧ after.owned api = before.owned api ∧
      Keeps api (before.owned api) (some obj) before after ∧
      (r = 0 → after.textUnder api obj = Keyed.store kvs (before.textUnder api obj)) := by
  induction kvs generalizing before with
  | nil => exact ⟨0, before, rfl, sound, rfl, Keeps.refl before, fun _ => rfl⟩
  | cons pair rest ih =>
    obtain ⟨key, val⟩ := pair
    obtain ⟨made, first, makesKey, followsKey, failedKey, madeKey⟩ :=
      promises.string key before sound
    cases made with
    | none =>
      have same := failedKey rfl
      refine ⟨-1, first, ?_, followsKey.sound, same, ?_, fun success => absurd success (by decide)⟩
      · simp only [ObjectApi.objectSetVa, makesKey, Option.bind_eq_bind, Option.bind_some]
      · exact (followsKey.keeps promises sound le_rfl same.ge).retarget
    | some k =>
      obtain ⟨newKey, textKey⟩ := madeKey k rfl
      obtain ⟨made', second, makesVal, followsVal, failedVal, madeVal⟩ :=
        promises.string val first followsKey.sound
      have keepsFirst : Keeps api (before.owned api) (some obj) before first :=
        (followsKey.keeps promises sound le_rfl (owned_le_of_add newKey.owned)).retarget
      have ownsKey : 0 < first.owned api k := owned_of_add newKey.owned
      cases made' with
      | none =>
        have same := failedVal rfl
        have keepsSecond : Keeps api (first.owned api) none first second :=
          followsVal.keeps promises followsKey.sound le_rfl same.ge
        obtain ⟨third, unrefs, followsUnref, given⟩ := unref_follows promises followsVal.sound
          (owns_of_le ownsKey same.ge) (keepsSecond.releasable k ownsKey newKey.releasable)
        have left : third.owned api = before.owned api := given.left (same.trans newKey.owned)
        have more : before.owned api ≤ second.owned api :=
          (owned_le_of_add newKey.owned).trans same.ge
        have keepsThird : Keeps api (before.owned api) none second third :=
          followsUnref.keeps promises followsVal.sound more left.ge
        refine ⟨-1, third, ?_, followsUnref.sound, left, ?_,
          fun success => absurd success (by decide)⟩
        · simp only [ObjectApi.objectSetVa, makesKey, makesVal, unrefs, Option.bind_eq_bind,
            Option.bind_some]
        · exact (keepsFirst.trans (keepsSecond.mono (owned_le_of_add newKey.owned)).retarget).trans
            keepsThird.retarget
      | some v =>
        obtain ⟨newVal, textVal⟩ := madeVal v rfl
        have keepsSecond : Keeps api (first.owned api) none first second :=
          followsVal.keeps promises followsKey.sound le_rfl (owned_le_of_add newVal.owned)
        have owned : second.owned api = before.owned api + oneReference k + oneReference v := by
          rw [newVal.owned, newKey.owned]
        have oneKey : second.run.held k = 1 := by
          have apart : k ≠ v := newVal.ne followsKey.sound ownsKey
          rw [newVal.held, Pi.add_apply, newKey.held_one sound, oneReference,
            Pi.single_eq_of_ne apart, Nat.add_zero]
        obtain ⟨ok, _, _, third, sets, unrefs, unrefs', soundThird, left, keepsThird, text⟩ :=
          setPair promises followsVal.sound owned owns
            (keepsSecond.releasable k ownsKey newKey.releasable) newVal.releasable oneKey
            (newVal.held_one followsKey.sound)
        have keeps : Keeps api (before.owned api) (some obj) before third :=
          (keepsFirst.trans (keepsSecond.mono (owned_le_of_add newKey.owned)).retarget).trans
            keepsThird
        cases ok with
        | false =>
          refine ⟨-1, third, ?_, soundThird, left, keeps,
            fun success => absurd success (by decide)⟩
          simp only [ObjectApi.objectSetVa, makesKey, makesVal, sets, unrefs, unrefs',
            Option.bind_eq_bind, Option.bind_some, Bool.false_eq_true, if_false]
        | true =>
          obtain ⟨r, after, runs, soundAfter, same, keepsAfter, filled⟩ :=
            ih soundThird (owns_of_le owns left.ge)
          refine ⟨r, after, ?_, soundAfter, same.trans left, ?_, ?_⟩
          · simp only [ObjectApi.objectSetVa, makesKey, makesVal, sets, unrefs, unrefs',
              Option.bind_eq_bind, Option.bind_some, if_true, runs]
          · exact keeps.trans (keepsAfter.mono left.ge)
          · intro success
            have livesBefore := sound.lives owns
            have livesFirst :=
              followsKey.sound.lives (owns_of_le owns (owned_le_of_add newKey.owned))
            have more : before.owned api ≤ second.owned api :=
              (owned_le_of_add newKey.owned).trans (owned_le_of_add newVal.owned)
            have livesSecond := followsVal.sound.lives (owns_of_le owns more)
            have textSecond : second.textUnder api obj = before.textUnder api obj :=
              (followsVal.textUnder promises followsKey.sound no_target livesFirst
                livesSecond).trans
                (followsKey.textUnder promises sound no_target livesBefore livesFirst)
            have keyKept : api.text second.contents k = key :=
              (keepsSecond.texts k ownsKey).trans textKey
            rw [filled success, text rfl, textSecond, keyKept, textVal]
            rfl

/-! ## The end of a function that makes an object -/

/-- What a function that makes an object leaves: nothing but the object, or nothing at all. -/
structure Creates (checked : Bool) (api : ObjectApi κ) (before : ObjectWorld κ)
    (result : Option VariantPointer) (after : ObjectWorld κ) : Prop where
  /-- Calls may be made again. -/
  sound : after.Sound checked api
  /-- Everything that the caller owned stays as it is. -/
  keeps : Keeps api (before.owned api) none before after
  /-- Without an object the caller owns what it owned before. -/
  failed : result = none → after.owned api = before.owned api
  /-- The caller owns the one reference to the object, which is new. -/
  created : ∀ obj, result = some obj →
    ¬before.Lives obj ∧ after.owned api = before.owned api + oneReference obj

/-- A function that fails at once leaves nothing. -/
theorem Follows.creates_none (follows : before.Follows checked api none after)
    (promises : Promises checked api) (sound : before.Sound checked api)
    (same : after.owned api = before.owned api) : Creates checked api before none after :=
  ⟨follows.sound, follows.keeps promises sound le_rfl same.ge, fun _ => same, nofun⟩

/-- An object that was made is returned, when everything else was kept. -/
theorem Made.creates (made : before.Made api world obj) (sound : before.Sound checked api)
    (promises : Promises checked api) (follows : before.Follows checked api none world)
    (sound' : after.Sound checked api) (same : after.owned api = world.owned api)
    (keeps : Keeps api (before.owned api) (some obj) world after) :
    Creates checked api before (some obj) after := by
  have first : Keeps api (before.owned api) none before world :=
    follows.keeps promises sound le_rfl (owned_le_of_add made.owned)
  refine ⟨sound', first.trans (keeps.untarget (made.unowned sound)), nofun, ?_⟩
  intro other same'
  rw [← Option.some.inj same']
  exact ⟨made.new, same.trans made.owned⟩

/-- An object that was made is given up, when everything else was kept. -/
theorem Made.creates_none (made : before.Made api world obj) (sound : before.Sound checked api)
    (promises : Promises checked api) (follows : before.Follows checked api none world)
    (keeps : Keeps api (before.owned api) (some obj) world after)
    (sound' : after.Sound checked api) (given : after.owned api = before.owned api) :
    Creates checked api before none after := by
  have first : Keeps api (before.owned api) none before world :=
    follows.keeps promises sound le_rfl (owned_le_of_add made.owned)
  exact ⟨sound', first.trans (keeps.untarget (made.unowned sound)), fun _ => given, nofun⟩

/-- There is nothing in an object without entries. -/
theorem property_of_empty (empty : api.entries world.contents obj = []) :
    api.property world.contents obj = fun _ => none := by
  funext key
  rw [ObjectApi.property, ObjectApi.properties, empty]
  rfl

end ObjectWorld

open ObjectWorld

variable {κ : Type} {checked : Bool} {api : ObjectApi κ} {before after world : ObjectWorld κ}
  {obj value k v : VariantPointer} {base : VariantPointer → ℕ}

/-- An object is returned with the last string for each key, or nothing is left, whatever the
called functions do. -/
theorem pcvariantMakeObject_fills (checked : Bool) (api : ObjectApi κ)
    (kvs : List (CString × CString)) (before : ObjectWorld κ) (promises : Promises checked api)
    (sound : before.Sound checked api) :
    ∃ result after, api.pcvariantMakeObject checked kvs before.memory =
        some (result, ObjectWorld.memory after) ∧
      Creates checked api before result after ∧
      ∀ obj, result = some obj → ∀ key, after.textUnder api obj key = kvs.reverse.lookup key := by
  obtain ⟨made, first, makes, follows, failed, madeObj⟩ :=
    promises.objectByStaticCkey before sound
  cases made with
  | none =>
    refine ⟨none, first, ?_, follows.creates_none promises sound (failed rfl), nofun⟩
    simp only [ObjectApi.pcvariantMakeObject, makes, Option.bind_eq_bind, Option.bind_some]
  | some obj =>
    obtain ⟨new, empty⟩ := madeObj obj rfl
    have owns : 0 < first.owned api obj := owned_of_add new.owned
    have nothing : first.textUnder api obj = fun _ => none := by
      funext key
      rw [textUnder, property_of_empty empty]
      rfl
    obtain ⟨r, second, sets, soundSecond, same, keeps, filled⟩ :=
      objectSetVa_fills promises kvs follows.sound owns
    have keeps' : Keeps api (before.owned api) (some obj) first second :=
      keeps.mono (owned_le_of_add new.owned)
    by_cases none_given : kvs.length = 0
    · have no_pairs := List.eq_nil_of_length_eq_zero none_given
      refine ⟨some obj, first, ?_, new.creates sound promises follows follows.sound rfl
        (Keeps.refl first), ?_⟩
      · simp only [ObjectApi.pcvariantMakeObject, makes, none_given, Option.bind_eq_bind,
          Option.bind_some, if_true]
      · intro other result key
        rw [← Option.some.inj result, nothing, no_pairs]
        rfl
    · by_cases success : r = 0
      · refine ⟨some obj, second, ?_, new.creates sound promises follows soundSecond same keeps',
          ?_⟩
        · simp only [ObjectApi.pcvariantMakeObject, makes, none_given, sets, success,
            Option.bind_eq_bind, Option.bind_some, if_false, ne_eq, not_true_eq_false]
        · intro other result key
          rw [← Option.some.inj result, filled success, nothing, Keyed.store_apply]
          exact Option.or_none
      · obtain ⟨third, unrefs, followsUnref, given⟩ := unref_follows promises soundSecond
          (owns_of_le owns same.ge) (keeps.releasable obj owns new.releasable)
        have left : third.owned api = before.owned api := given.left (same.trans new.owned)
        have more : before.owned api ≤ second.owned api :=
          (owned_le_of_add new.owned).trans same.ge
        have keepsThird : Keeps api (before.owned api) none second third :=
          followsUnref.keeps promises soundSecond more left.ge
        refine ⟨none, third, ?_, new.creates_none sound promises follows
          (keeps'.trans keepsThird.retarget) followsUnref.sound left, nofun⟩
        simp only [ObjectApi.pcvariantMakeObject, makes, none_given, sets, success, unrefs,
          Option.bind_eq_bind, Option.bind_some, if_false, ne_eq, not_false_eq_true, if_true]

/-- A key is given twice, and the second string for it is found. When there is room for one
property only, the two keys do not fit. -/
theorem pcvariantMakeObject_fills_twice :
    (∃ after, (objectTable true 2).pcvariantMakeObject true
        [(.lit "a", .lit "1"), (.lit "b", .lit "2"), (.lit "a", .lit "3")] objectWorld.memory =
          some (some (.block 4160), ObjectWorld.memory after) ∧
      Creates true (objectTable true 2) objectWorld (some (.block 4160)) after ∧
      after.textUnder (objectTable true 2) (.block 4160) (.lit "a") = some (.lit "3") ∧
      after.textUnder (objectTable true 2) (.block 4160) (.lit "b") = some (.lit "2")) ∧
    ∃ after, (objectTable true 1).pcvariantMakeObject true
        [(.lit "a", .lit "1"), (.lit "b", .lit "2"), (.lit "a", .lit "3")] objectWorld.memory =
          some (none, ObjectWorld.memory after) ∧
      Creates true (objectTable true 1) objectWorld none after := by
  have fills := fun room => pcvariantMakeObject_fills true (objectTable true room)
    [(.lit "a", .lit "1"), (.lit "b", .lit "2"), (.lit "a", .lit "3")] objectWorld
    (objectTable_promises true room) (objectWorld_sound room)
  constructor
  · obtain ⟨result, after, returns, creates, texts⟩ := fills 2
    have object : ((objectTable true 2).pcvariantMakeObject true
        [(.lit "a", .lit "1"), (.lit "b", .lit "2"), (.lit "a", .lit "3")] objectWorld.memory).map
          Prod.fst = some (some (.block 4160)) := by decide
    rw [returns] at object
    have made : result = some (.block 4160) := Option.some.inj object
    rw [made] at returns creates
    have last := texts (.block 4160) made
    exact ⟨after, returns, creates, (last (.lit "a")).trans (by decide),
      (last (.lit "b")).trans (by decide)⟩
  · obtain ⟨result, after, returns, creates, _⟩ := fills 1
    have nothing : ((objectTable true 1).pcvariantMakeObject true
        [(.lit "a", .lit "1"), (.lit "b", .lit "2"), (.lit "a", .lit "3")] objectWorld.memory).map
          Prod.fst = some none := by decide
    rw [returns] at nothing
    have failed : result = none := Option.some.inj nothing
    rw [failed] at returns creates
    exact ⟨after, returns, creates⟩

/-! ## Copies -/

/-- The properties with the texts of their keys. -/
def named (api : ObjectApi κ) (world : ObjectWorld κ)
    (entries : List (VariantPointer × VariantPointer)) : List (CString × VariantPointer) :=
  entries.map fun (k, v) => (api.text world.contents k, v)

/-- Few enough references are held of a variant. -/
def HasRoom (world : ObjectWorld κ) (turns : ℕ) (value : VariantPointer) : Prop :=
  world.run.held value + 2 * turns < 2 ^ 32

/-- Setting a property takes at most two references to a variant. -/
theorem HasRoom.turn {turns : ℕ} (room : HasRoom before (turns + 1) value)
    (held : after.run.held ≤ before.run.held + (oneReference k + oneReference v)) :
    HasRoom after turns value := by
  have most : ∀ other : VariantPointer, oneReference other value ≤ 1 := by
    intro other
    by_cases hit : value = other
    · rw [hit, oneReference, Pi.single_eq_same]
    · rw [oneReference, Pi.single_eq_of_ne hit]
      exact Nat.zero_le 1
  have more := held value
  have key := most k
  have val := most v
  unfold HasRoom at room ⊢
  simp only [Pi.add_apply] at more
  omega

/-- The loop of `pcvariant_object_shallow_copy` returns the object with the properties that were
left, or gives it up. -/
theorem shallowCopyLoop_copies (promises : Promises checked api) {source o : VariantPointer}
    (rest : List (VariantPointer × VariantPointer)) (sound : before.Sound checked api)
    (owned : before.owned api = base + oneReference o) (owns : 0 < base source)
    (apart : source ≠ o) (releasable : before.Releasable o)
    (entered : ∀ entry ∈ rest, entry ∈ api.entries before.contents source)
    (room : ∀ entry ∈ rest, HasRoom before rest.length entry.1 ∧
      HasRoom before rest.length entry.2) :
    ∃ result after, api.shallowCopyLoop checked o rest before.memory =
        some (result, ObjectWorld.memory after) ∧
      after.Sound checked api ∧ Keeps api base (some o) before after ∧
      (result = none → after.owned api = base) ∧
      ∀ copy, result = some copy → copy = o ∧ after.owned api = base + oneReference o ∧
        api.property after.contents o =
          Keyed.store (named api before rest) (api.property before.contents o) := by
  induction rest generalizing before with
  | nil =>
    refine ⟨some o, before, rfl, sound, Keeps.refl before, nofun, ?_⟩
    intro copy same
    exact ⟨(Option.some.inj same).symm, owned, rfl⟩
  | cons entry rest ih =>
    have ⟨k, v⟩ := entry
    have more : base ≤ before.owned api := owned_le_of_add owned
    have ownsCopy : 0 < before.owned api o := owned_of_add owned
    have livesSource := sound.lives (owns_of_le owns more)
    have ⟨livesKey, livesVal⟩ :=
      sound.lives_entries promises livesSource (entered (k, v) List.mem_cons_self)
    have ⟨roomKey, roomVal⟩ := room (k, v) List.mem_cons_self
    have ⟨ok, stored, sets, follows, same, held, property⟩ :=
      promises.set before o k v sound ownsCopy livesKey livesVal
        (by unfold HasRoom at roomKey; simp only [List.length_cons] at roomKey; omega)
        (by unfold HasRoom at roomVal; simp only [List.length_cons] at roomVal; omega)
    have keeps : Keeps api (before.owned api) (some o) before stored :=
      follows.keeps promises sound le_rfl same.ge
    have releasable' := keeps.releasable o ownsCopy releasable
    have ownsCopy' : 0 < stored.owned api o := owns_of_le ownsCopy same.ge
    cases ok with
    | false =>
      have ⟨after, unrefs, followsUnref, given⟩ :=
        unref_follows promises follows.sound ownsCopy' releasable'
      have left : after.owned api = base := given.left (same.trans owned)
      have keepsUnref : Keeps api base none stored after :=
        followsUnref.keeps promises follows.sound (more.trans same.ge) left.ge
      refine ⟨none, after, ?_, followsUnref.sound, (keeps.mono more).trans keepsUnref.retarget,
        fun _ => left, nofun⟩
      simp only [ObjectApi.shallowCopyLoop, sets, unrefs, Option.bind_eq_bind, Option.bind_some,
        Bool.false_eq_true, if_false]
    | true =>
      have livesSource' := follows.sound.lives (owns_of_le owns (more.trans same.ge))
      have target : some o ≠ some source := fun hit => apart (Option.some.inj hit).symm
      have sameEntries := follows.entries source target livesSource livesSource'
      have entered' : ∀ entry ∈ rest, entry ∈ api.entries stored.contents source := by
        intro entry inside
        rw [sameEntries]
        exact entered entry (List.mem_cons_of_mem _ inside)
      have room' : ∀ entry ∈ rest, HasRoom stored rest.length entry.1 ∧
          HasRoom stored rest.length entry.2 := by
        intro entry inside
        have ⟨roomKey, roomVal⟩ := room entry (List.mem_cons_of_mem _ inside)
        exact ⟨roomKey.turn held, roomVal.turn held⟩
      have sameNames : named api stored rest = named api before rest := by
        apply List.map_congr_left
        intro (key, val) inside
        have before' := entered (key, val) (List.mem_cons_of_mem _ inside)
        have lives := (sound.lives_entries promises livesSource before').1
        have stays :=
          (follows.sound.lives_entries promises livesSource' (entered' (key, val) inside)).1
        exact congrArg (·, val) (follows.texts key lives stays)
      have ⟨result, after, runs, soundAfter, keepsAfter, failed, copied⟩ :=
        ih follows.sound (same.trans owned) releasable' entered' room'
      refine ⟨result, after, ?_, soundAfter, (keeps.mono more).trans keepsAfter, failed, ?_⟩
      · simp only [ObjectApi.shallowCopyLoop, sets, runs, Option.bind_eq_bind, Option.bind_some,
          if_true]
      · intro copy result
        have ⟨isCopy, left, properties⟩ := copied copy result
        refine ⟨isCopy, left, ?_⟩
        rw [properties, property rfl, sameNames]
        rfl

/-- A copy with the same properties is returned, or nothing is left, whatever the called functions
do. -/
theorem pcvariantObjectShallowCopy_copies (checked : Bool) (api : ObjectApi κ)
    (obj : VariantPointer) (before : ObjectWorld κ) (promises : Promises checked api)
    (sound : before.Sound checked api) (owns : 0 < before.owned api obj)
    (unique : (Keyed.keys (api.properties before.contents obj)).Nodup)
    (room : ∀ value, before.Lives value →
      HasRoom before (api.entries before.contents obj).length value) :
    ∃ result after, api.pcvariantObjectShallowCopy checked obj before.memory =
        some (result, ObjectWorld.memory after) ∧
      Creates checked api before result after ∧
      ∀ o, result = some o → api.property after.contents o = api.property before.contents obj := by
  obtain ⟨made, first, makes, follows, failed, madeObj⟩ := promises.object before sound
  cases made with
  | none =>
    refine ⟨none, first, ?_, follows.creates_none promises sound (failed rfl), nofun⟩
    simp only [ObjectApi.pcvariantObjectShallowCopy, makes, Option.bind_eq_bind, Option.bind_some]
  | some o =>
    obtain ⟨new, empty⟩ := madeObj o rfl
    have apart : obj ≠ o := new.ne sound owns
    have lives := sound.lives owns
    have lives' := follows.sound.lives (owns_of_le owns (owned_le_of_add new.owned))
    have sameEntries := follows.entries obj no_target lives lives'
    have sameNames : named api first (api.entries first.contents obj) =
        api.properties before.contents obj :=
      follows.properties promises sound no_target lives lives'
    have room' : ∀ value, before.Lives value →
        HasRoom first (api.entries first.contents obj).length value := by
      intro value livesValue
      have other : value ≠ o := fun same => new.new (same ▸ livesValue)
      have fits := room value livesValue
      rw [HasRoom, sameEntries, new.held, Pi.add_apply, oneReference, Pi.single_eq_of_ne other]
      exact fits
    obtain ⟨result, second, runs, soundSecond, keeps, given, copied⟩ :=
      shallowCopyLoop_copies promises (api.entries first.contents obj) follows.sound new.owned owns
        apart new.releasable (fun _ inside => inside) (by
          intro entry inside
          obtain ⟨k, v⟩ := entry
          rw [sameEntries] at inside
          obtain ⟨livesKey, livesVal⟩ := sound.lives_entries promises lives inside
          exact ⟨room' k livesKey, room' v livesVal⟩)
    have returns : api.pcvariantObjectShallowCopy checked obj before.memory =
        some (result, ObjectWorld.memory second) := by
      have contents : (ObjectWorld.memory first).contents = first.contents := rfl
      simp only [ObjectApi.pcvariantObjectShallowCopy, makes, Option.bind_eq_bind,
        Option.bind_some, contents, runs]
    cases result with
    | none =>
      exact ⟨none, second, returns,
        new.creates_none sound promises follows keeps soundSecond (given rfl), nofun⟩
    | some copy =>
      obtain ⟨isCopy, left, properties⟩ := copied copy rfl
      rw [isCopy] at returns
      refine ⟨some o, second, returns,
        new.creates sound promises follows soundSecond (left.trans new.owned.symm) keeps, ?_⟩
      intro other same
      funext key
      rw [← Option.some.inj same, properties, Keyed.store_apply, sameNames,
        property_of_empty empty, Option.or_none, Keyed.lookup_reverse unique]
      rfl

/-- An object with two properties is copied. When there is room for one property only, the copy is
given up. -/
theorem pcvariantObjectShallowCopy_copies_pair :
    (∃ after, (objectTable true 2).pcvariantObjectShallowCopy true (.block 4096)
        filledWorld.memory = some (some (.block 4416), ObjectWorld.memory after) ∧
      Creates true (objectTable true 2) filledWorld (some (.block 4416)) after ∧
      (objectTable true 2).property after.contents (.block 4416) (.lit "a") =
        some (.block 4224) ∧
      (objectTable true 2).property after.contents (.block 4416) (.lit "b") =
        some (.block 4352)) ∧
    ∃ after, (objectTable true 1).pcvariantObjectShallowCopy true (.block 4096)
        filledWorld.memory = some (none, ObjectWorld.memory after) ∧
      Creates true (objectTable true 1) filledWorld none after := by
  have few : ∀ value, HasRoom filledWorld 2 value := by
    intro value
    have one : filledWorld.run.held value ≤ 1 := filledMade_held value
    unfold HasRoom
    omega
  have owns : 0 < filledWorld.owned (objectTable true 0) (.block 4096) := by decide
  have unique : (Keyed.keys
      ((objectTable true 0).properties filledWorld.contents (.block 4096))).Nodup := by decide
  have copies := fun room => pcvariantObjectShallowCopy_copies true (objectTable true room)
    (.block 4096) filledWorld (objectTable_promises true room) (filledWorld_sound room) owns unique
    (fun value _ => few value)
  constructor
  · obtain ⟨result, after, returns, creates, same⟩ := copies 2
    have object : ((objectTable true 2).pcvariantObjectShallowCopy true (.block 4096)
        filledWorld.memory).map Prod.fst = some (some (.block 4416)) := by decide
    rw [returns] at object
    have made : result = some (.block 4416) := Option.some.inj object
    rw [made] at returns creates
    have property := same (.block 4416) made
    exact ⟨after, returns, creates, (congrFun property (.lit "a")).trans (by decide),
      (congrFun property (.lit "b")).trans (by decide)⟩
  · obtain ⟨result, after, returns, creates, _⟩ := copies 1
    have nothing : ((objectTable true 1).pcvariantObjectShallowCopy true (.block 4096)
        filledWorld.memory).map Prod.fst = some none := by decide
    rw [returns] at nothing
    have failed : result = none := Option.some.inj nothing
    rw [failed] at returns creates
    exact ⟨after, returns, creates⟩

end Bpcp.Purc
