import Bpcp.Purc.ObjectMemory

/-!
# What filling an object leaves

Whatever the called functions do, `pcvariant_make_object` and `pcvariant_object_shallow_copy` end
with every reference accounted for: the caller owns what it owned before, and the new object when
there is one. The object then has the properties that were asked for.
-/

namespace Bpcp.Purc

open Bpcp.Lib

variable {κ : Type} {checked : Bool} {api : ObjectApi κ}

/-- One reference more to one variant. -/
theorem owned_of_add {more owned : VariantPointer → ℕ} {value : VariantPointer}
    (one : more = owned + oneReference value) : 0 < more value := by
  rw [one, Pi.add_apply, oneReference, Pi.single_eq_same]
  omega

/-- Another variant is owned as before. -/
theorem owned_le_of_add {more owned : VariantPointer → ℕ} {value : VariantPointer}
    (one : more = owned + oneReference value) : owned ≤ more := by
  rw [one]
  exact le_self_add

/-- Less may be said of what a function makes. -/
theorem Makes.imp {make : ObjectMemory κ → Option (Option VariantPointer × ObjectMemory κ)}
    {is was : κ → VariantPointer → Prop} (makes : Makes checked api make was)
    (less : ∀ contents value, was contents value → is contents value) :
    Makes checked api make is := by
  intro before sound
  obtain ⟨result, after, returns, follows, failed, made⟩ := makes before sound
  refine ⟨result, after, returns, follows, failed, ?_⟩
  intro value same
  exact (made value same).imp_right (less after.contents value)

namespace ObjectWorld

variable {before middle after world : ObjectWorld κ} {target : Option VariantPointer}
  {obj value k v : VariantPointer}

/-! ## Worlds -/

/-- What is held is alive. -/
theorem Sound.lives_of_held (sound : world.Sound checked api) (holds : 0 < world.run.held value) :
    world.Lives value :=
  (RefRun.Sound.of_reachable sound.reachable).counted.alive holds

/-- What is owned is held. -/
theorem held_of_owned (owns : 0 < world.owned api value) : 0 < world.run.held value := by
  unfold owned at owns
  omega

/-- What is owned is alive. -/
theorem Sound.lives (sound : world.Sound checked api) (owns : 0 < world.owned api value) :
    world.Lives value :=
  sound.lives_of_held (held_of_owned owns)

/-- What a live object has is alive. -/
theorem Sound.lives_entries (sound : world.Sound checked api) (promises : Promises checked api)
    (lives : world.Lives obj) (entered : (k, v) ∈ api.entries world.contents obj) :
    world.Lives k ∧ world.Lives v := by
  have ⟨key, val⟩ := promises.entered world.contents world.run.live obj k v lives entered
  have heldKey : 0 < world.run.held k := lt_of_lt_of_le key (sound.inside k)
  have heldVal : 0 < world.run.held v := lt_of_lt_of_le val (sound.inside v)
  exact ⟨sound.lives_of_held heldKey, sound.lives_of_held heldVal⟩

/-- Nothing happened. -/
theorem Follows.refl (sound : world.Sound checked api) : world.Follows checked api target world :=
  ⟨sound, rfl, fun _ _ _ => rfl, fun _ _ _ => rfl, fun _ _ _ _ => rfl⟩

/-- An object that is no target and stays alive keeps its properties. -/
theorem Follows.properties (follows : before.Follows checked api target after)
    (promises : Promises checked api) (sound : before.Sound checked api)
    (apart : target ≠ some obj) (lives : before.Lives obj) (stays : after.Lives obj) :
    api.properties after.contents obj = api.properties before.contents obj := by
  have same := follows.entries obj apart lives stays
  rw [ObjectApi.properties, same, ObjectApi.properties]
  apply List.map_congr_left
  intro (k, v) entered
  have entered' : (k, v) ∈ api.entries after.contents obj := by
    rw [same]
    exact entered
  have livesKey := (sound.lives_entries promises lives entered).1
  have staysKey := (follows.sound.lives_entries promises stays entered').1
  exact congrArg (·, v) (follows.texts k livesKey staysKey)

/-- The text under a key of an object. -/
def textUnder (api : ObjectApi κ) (world : ObjectWorld κ) (obj : VariantPointer)
    (key : CString) : Option CString :=
  (api.property world.contents obj key).map (api.text world.contents)

/-- What is found in an object is a value of it. -/
theorem entered_of_property {key : CString} (found : api.property world.contents obj key = some v) :
    ∃ k, (k, v) ∈ api.entries world.contents obj := by
  have inside := Keyed.mem_of_lookup found
  have ⟨(k, _), entered, same⟩ := List.mem_map.1 inside
  have ⟨_, value⟩ := Prod.mk.inj same
  rw [← value]
  exact ⟨k, entered⟩

/-- An object that is no target and stays alive keeps its texts. -/
theorem Follows.textUnder (follows : before.Follows checked api target after)
    (promises : Promises checked api) (sound : before.Sound checked api)
    (apart : target ≠ some obj) (lives : before.Lives obj) (stays : after.Lives obj) :
    after.textUnder api obj = before.textUnder api obj := by
  have same := follows.properties promises sound apart lives stays
  funext key
  have found : api.property after.contents obj key = api.property before.contents obj key := by
    rw [ObjectApi.property, same, ObjectApi.property]
  rw [ObjectWorld.textUnder, found, ObjectWorld.textUnder]
  cases value : api.property before.contents obj key with
  | none => rfl
  | some v =>
    have ⟨k, entered⟩ := entered_of_property value
    have ⟨k', entered'⟩ := entered_of_property (found.trans value)
    have livesVal := (sound.lives_entries promises lives entered).2
    have staysVal := (follows.sound.lives_entries promises stays entered').2
    exact congrArg some (follows.texts v livesVal staysVal)

/-! ## What stays -/

/-- What a caller relies on: everything that it owns stays as it is, but for one object. -/
structure Keeps (api : ObjectApi κ) (owns : VariantPointer → ℕ) (target : Option VariantPointer)
    (before after : ObjectWorld κ) : Prop where
  /-- The releases that were under way are under way. -/
  releasing : after.run.releasing = before.run.releasing
  /-- The types are the same. -/
  releasable : ∀ value, 0 < owns value → before.Releasable value → after.Releasable value
  /-- The texts are the same. -/
  texts : ∀ value, 0 < owns value → api.text after.contents value = api.text before.contents value
  /-- The properties are the same. -/
  properties : ∀ obj, target ≠ some obj → 0 < owns obj →
    api.properties after.contents obj = api.properties before.contents obj

namespace Keeps

variable {owns more : VariantPointer → ℕ}

/-- Nothing happened. -/
theorem refl (world : ObjectWorld κ) : Keeps api owns target world world :=
  ⟨rfl, fun _ _ releasable => releasable, fun _ _ => rfl, fun _ _ _ => rfl⟩

/-- One thing happened after the other. -/
theorem trans (first : Keeps api owns target before middle)
    (second : Keeps api owns target middle after) : Keeps api owns target before after where
  releasing := second.releasing.trans first.releasing
  releasable value owned releasable :=
    second.releasable value owned (first.releasable value owned releasable)
  texts value owned := (second.texts value owned).trans (first.texts value owned)
  properties obj apart owned :=
    (second.properties obj apart owned).trans (first.properties obj apart owned)

/-- Who owns less relies on less. -/
theorem mono (keeps : Keeps api more target before after) (less : owns ≤ more) :
    Keeps api owns target before after where
  releasing := keeps.releasing
  releasable value owned := keeps.releasable value (owned.trans_le (less value))
  texts value owned := keeps.texts value (owned.trans_le (less value))
  properties obj apart owned := keeps.properties obj apart (owned.trans_le (less obj))

end Keeps

/-- A call keeps what is owned before and after it. -/
theorem Follows.keeps (follows : before.Follows checked api target after)
    (promises : Promises checked api) (sound : before.Sound checked api)
    {owns : VariantPointer → ℕ} (ownsBefore : owns ≤ before.owned api)
    (ownsAfter : owns ≤ after.owned api) : Keeps api owns target before after := by
  have lives : ∀ value, 0 < owns value → before.Lives value := by
    intro value owned
    exact sound.lives (owned.trans_le (ownsBefore value))
  have stays : ∀ value, 0 < owns value → after.Lives value := by
    intro value owned
    exact follows.sound.lives (owned.trans_le (ownsAfter value))
  refine ⟨follows.releasing, ?_, ?_, ?_⟩
  · intro value owned releasable block same
    have livesBlock := lives value owned
    have staysBlock := stays value owned
    rw [same] at livesBlock staysBlock
    rw [follows.types block livesBlock staysBlock]
    exact releasable block same
  · intro value owned
    exact follows.texts value (lives value owned) (stays value owned)
  · intro obj apart owned
    exact follows.properties promises sound apart (lives obj owned) (stays obj owned)

/-! ## Giving up a reference -/

/-- One reference less to one variant. -/
theorem oneReference_sub {held inside less : VariantPointer → ℕ}
    (owns : inside value < held value)
    (given : less = Function.update held value (held value - 1)) (other : VariantPointer) :
    inside other ≤ held other → inside other ≤ less other ∧
      less other - inside other + oneReference value other = held other - inside other := by
  intro bound
  rw [given]
  by_cases hit : other = value
  · rw [hit, Function.update_self, oneReference, Pi.single_eq_same]
    omega
  · rw [Function.update_of_ne hit, oneReference, Pi.single_eq_of_ne hit]
    exact ⟨bound, rfl⟩

/-- A reference that a caller gives up. -/
structure GivenUp (api : ObjectApi κ) (before after : ObjectWorld κ) (value : VariantPointer) :
    Prop where
  /-- The caller owned one reference more. -/
  owned : after.owned api + oneReference value = before.owned api
  /-- The contents are the same. -/
  contents : after.contents = before.contents

/-- Without the reference the caller owns what is left. -/
theorem GivenUp.left {base : VariantPointer → ℕ} (given : GivenUp api before after value)
    (owned : before.owned api = base + oneReference value) : after.owned api = base :=
  add_right_cancel (given.owned.trans owned)

/-- Giving up a reference leaves the references that are owned. -/
theorem lessen_owned (sound : before.Sound checked api) (owns : 0 < before.owned api value) :
    (∀ other, api.inside before.contents before.run.live other ≤
        (before.run.lessen value).held other) ∧
      { before with run := before.run.lessen value }.owned api + oneReference value =
        before.owned api := by
  have more : api.inside before.contents before.run.live value < before.run.held value := by
    unfold owned at owns
    omega
  constructor
  · intro other
    exact (oneReference_sub more rfl other (sound.inside other)).1
  · funext other
    exact (oneReference_sub more rfl other (sound.inside other)).2

/-- A variant that a function in `variant_releasers` releases may be given up. -/
theorem permits_unref (owns : 0 < before.owned api value) (releasable : before.Releasable value) :
    before.run.Permits (.unref value) := by
  apply And.intro (held_of_owned owns)
  intro block same _ unneeded
  rw [releasable block same] at unneeded
  exact absurd unneeded (by decide)

/-- Releasing a variant leaves what the caller owns without the reference that it gave up. -/
def leavesOwned (api : ObjectApi κ) (before : ObjectWorld κ) (value : VariantPointer)
    (ended : RefRun) : Prop :=
  ∀ block, value = .block block →
    api.fits before.contents (ended.live.erase block) ended.types ∧
    (∀ other ∈ ended.live, ended.types other = before.run.types other) ∧
    ∀ other, api.inside before.contents (ended.live.erase block) other ≤ ended.held other ∧
      ended.held other - api.inside before.contents (ended.live.erase block) other =
        (before.run.lessen value).held other -
          api.inside before.contents before.run.live other

/-- `purc_variant_unref` gives up a reference that the caller owns, and keeps everything else that
it owns. -/
theorem unref_follows (promises : Promises checked api) (sound : before.Sound checked api)
    (owns : 0 < before.owned api value) (releasable : before.Releasable value) :
    ∃ after, api.unref checked value before.memory = some (ObjectWorld.memory after) ∧
      before.Follows checked api none after ∧ GivenUp api before after value := by
  have permits := permits_unref owns releasable
  obtain ⟨inside, less⟩ := lessen_owned sound owns
  obtain ⟨_, next, returns, goesOn, same, _, ends⟩ :=
    purcVariantUnref_ends sound.reachable permits (leavesOwned api before value) (by
      intro block isBlock needed begins
      let begun : ObjectWorld κ := ⟨before.contents, before.run.begin block⟩
      have sound' : begun.Sound checked api := by
        rw [isBlock] at inside
        exact ⟨begins, inside, sound.fits⟩
      obtain ⟨next, ended, left⟩ :=
        promises.release begun block before.run.releasing sound' rfl needed
      have ended' : ReleasedBy checked (api.release before.contents) (before.run.begin block) block
          next := ended
      refine ⟨next, ended', ?_⟩
      intro other isOther
      rw [← VariantPointer.block.inj (isBlock.symm.trans isOther), isBlock]
      exact left)
  have unrefs : api.unref checked value before.memory =
      some (ObjectWorld.memory ⟨before.contents, next⟩) := by
    rw [ObjectApi.unref, memory, returns]
    rfl
  obtain remains | ⟨block, ended, heap, isBlock, put, cells, left⟩ := ends
  · -- There are other references.
    rw [remains] at goesOn unrefs
    exact ⟨_, unrefs, ⟨⟨goesOn, inside, sound.fits⟩, rfl, fun _ _ _ => rfl, fun _ _ _ => rfl,
      fun _ _ _ _ => rfl⟩, less, rfl⟩
  · -- The variant was released.
    have needed := releasable block isBlock
    obtain ⟨fits, types, kept⟩ := left.resolve_right (by simp [needed]) block isBlock
    have sameTypes : next.types = ended.types := by
      funext other
      rw [put]
      exact congrArg (fun cells => (cells other).type) cells
    rw [put] at sameTypes goesOn unrefs
    rw [← sameTypes] at fits
    refine ⟨_, unrefs, ⟨⟨goesOn, fun other => (kept other).1, fits⟩, rfl, ?_, fun _ _ _ => rfl,
      fun _ _ _ _ => rfl⟩, ?_, rfl⟩
    · intro other _ stays
      exact (congrFun sameTypes other).trans (types other (Finset.mem_of_mem_erase stays))
    · rw [← less]
      apply congrArg (· + oneReference value)
      funext other
      exact (kept other).2

end ObjectWorld

end Bpcp.Purc
