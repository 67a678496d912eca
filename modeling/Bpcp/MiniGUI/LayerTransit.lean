import Mathlib

/-!
# Transitions between layers

`my_transit_to_layer` slides from the topmost layer to another one. It finds both in the list of
layers, puts the one that is further behind in the list to the left, and lets an animation composite
the two of them. When it does not find two layers it returns without the animation that it has
created.
-/

namespace Bpcp.MiniGUI

/-- The calls of a transition. -/
inductive TransitCall where
  /-- `old_transit_to_layer`. -/
  | oldTransit (toLayer : ℕ)
  /-- `mGEffAnimationCreate`, and what it returns. -/
  | create (handle : Option ℕ)
  /-- `_WRN_PRINTF` of the two indices. -/
  | warn (idxLayer0 idxLayer1 : ℤ)
  /-- The values, the duration, the loop count and the curve of the animation are set. -/
  | configure (handle : ℕ) (startValue endValue : ℚ)
  /-- `composite_layers` of the fallback compositor with two layers. -/
  | compositeLayers (left right : ℕ) (percent : ℚ)
  /-- `mGEffAnimationDelete`. -/
  | delete (handle : ℕ)
deriving DecidableEq

/-- The variables of the loop over the layers. -/
structure LayerSearch where
  /-- `idx_layer_0`. -/
  idxLayer0 : ℤ
  /-- `idx_layer_1`. -/
  idxLayer1 : ℤ
  /-- `i`. -/
  i : ℤ
  /-- `nr_layers`. -/
  nrLayers : ℤ
deriving DecidableEq

/-- The loop over the layers. -/
def searchLayers (topmost toLayer : ℕ) : List ℕ → LayerSearch → LayerSearch
  | [], search => search
  | layer :: rest, search => searchLayers topmost toLayer rest
      { idxLayer0 := if layer = topmost then search.i else search.idxLayer0
        idxLayer1 := if layer = toLayer then search.i else search.idxLayer1
        i := search.i + 1
        nrLayers := search.nrLayers + 1 }

/-- `animated_cb` for the values of an animation, with `last_percent`. -/
def animate (left right : ℕ) : ℚ → List ℚ → List TransitCall
  | _, [] => []
  | lastPercent, percent :: rest =>
    if lastPercent ≠ percent then
      .compositeLayers left right percent :: animate left right percent rest
    else animate left right lastPercent rest

/-- What the system and the animations do during a transition. -/
structure TransitAnswers where
  /-- The time is even. -/
  evenTime : Bool
  /-- `mGEffAnimationCreate`. -/
  handle : Option ℕ
  /-- The values that the animation passes between its start and its end. -/
  frames : ℚ → ℚ → List ℚ

/-- `my_transit_to_layer`. -/
def myTransitToLayer (answers : TransitAnswers) (mgLayers : List ℕ) (topmost toLayer : ℕ) :
    List TransitCall :=
  if answers.evenTime then [.oldTransit toLayer]
  else match answers.handle with
    | none => [.create none, .oldTransit toLayer]
    | some handle =>
      let search := searchLayers topmost toLayer mgLayers ⟨-1, -1, 0, 0⟩
      if search.idxLayer0 = search.idxLayer1 ∨ search.idxLayer0 < 0 ∨ search.idxLayer1 < 0 then
        -- The animation is not deleted here.
        [.create (some handle), .warn search.idxLayer0 search.idxLayer1]
      else
        let idxLayer0 := search.nrLayers - 1 - search.idxLayer0
        let idxLayer1 := search.nrLayers - 1 - search.idxLayer1
        if idxLayer1 > idxLayer0 then
          .create (some handle) :: .configure handle 95 5 ::
            animate topmost toLayer 0 (answers.frames 95 5) ++ [.delete handle]
        else
          .create (some handle) :: .configure handle 5 95 ::
            animate toLayer topmost 0 (answers.frames 5 95) ++ [.delete handle]

/-! ## The search -/

/-- The place of a layer in the rest of the list, or a value from before. -/
def placeFrom (layer : ℕ) (i before : ℤ) (mgLayers : List ℕ) : ℤ :=
  if layer ∈ mgLayers then i + mgLayers.idxOf layer else before

variable {topmost toLayer layer : ℕ} {mgLayers : List ℕ}

/-- The first layer of a list has its place, and the others are one further. -/
theorem placeFrom_cons {first : ℕ} {i before : ℤ} (new : first ∉ mgLayers) :
    placeFrom layer (i + 1) (if first = layer then i else before) mgLayers =
      placeFrom layer i before (first :: mgLayers) := by
  unfold placeFrom
  by_cases same : first = layer
  · have absent : layer ∉ mgLayers := same ▸ new
    rw [if_neg absent, if_pos same, same, if_pos List.mem_cons_self, List.idxOf_cons_self,
      Nat.cast_zero, add_zero]
  · rw [if_neg same, List.idxOf_cons_ne _ same]
    by_cases inside : layer ∈ mgLayers
    · rw [if_pos inside, if_pos (List.mem_cons_of_mem first inside), Nat.cast_succ]
      omega
    · rw [if_neg inside, if_neg]
      exact fun member => inside ((List.mem_cons.mp member).resolve_left (Ne.symm same))

/-- The loop finds the places of the two layers, and how many layers there are. -/
theorem searchLayers_eq (nodup : mgLayers.Nodup) (search : LayerSearch) :
    searchLayers topmost toLayer mgLayers search =
      ⟨placeFrom topmost search.i search.idxLayer0 mgLayers,
        placeFrom toLayer search.i search.idxLayer1 mgLayers,
        search.i + mgLayers.length, search.nrLayers + mgLayers.length⟩ := by
  induction mgLayers generalizing search with
  | nil => simp [searchLayers, placeFrom]
  | cons first rest ih =>
    have ⟨new, distinct⟩ := List.nodup_cons.mp nodup
    rw [searchLayers, ih distinct, placeFrom_cons new, placeFrom_cons new, List.length_cons,
      Nat.cast_succ]
    dsimp only
    congr 1 <;> omega

/-- The place that is found from the start. -/
theorem placeFrom_start : placeFrom layer 0 (-1) mgLayers =
    if layer ∈ mgLayers then (mgLayers.idxOf layer : ℤ) else -1 := by
  rw [placeFrom, zero_add]

/-- The search fails unless there are two layers. -/
theorem search_fails_iff :
    (placeFrom topmost 0 (-1) mgLayers = placeFrom toLayer 0 (-1) mgLayers ∨
      placeFrom topmost 0 (-1) mgLayers < 0 ∨ placeFrom toLayer 0 (-1) mgLayers < 0) ↔
    ¬(topmost ∈ mgLayers ∧ toLayer ∈ mgLayers ∧ topmost ≠ toLayer) := by
  rw [placeFrom_start, placeFrom_start]
  by_cases first : topmost ∈ mgLayers
  · by_cases second : toLayer ∈ mgLayers
    · have same : mgLayers.idxOf topmost = mgLayers.idxOf toLayer ↔ topmost = toLayer :=
        List.idxOf_inj first
      rw [if_pos first, if_pos second, Nat.cast_inj, same]
      constructor
      · intro failed both
        cases failed with
        | inl equal => exact both.2.2 equal
        | inr negative => omega
      · intro failed
        exact .inl (not_not.mp fun apart => failed ⟨first, second, apart⟩)
    · simp [second]
  · simp [first]

/-! ## The animation -/

/-- Layers are composited for each value that differs from the one before. -/
theorem animate_eq (left right : ℕ) (lastPercent : ℚ) (values : List ℚ) :
    .compositeLayers left right lastPercent :: animate left right lastPercent values =
      (List.destutter' (· ≠ ·) lastPercent values).map (.compositeLayers left right) := by
  induction values generalizing lastPercent with
  | nil => rfl
  | cons percent rest ih =>
    rw [animate]
    by_cases changes : lastPercent ≠ percent
    · rw [if_pos changes, ih, List.destutter'_cons_pos _ changes, List.map_cons]
    · rw [if_neg changes, ih, List.destutter'_cons_neg _ changes]

/-- The frames of a slide: each value that differs from the one before, from 0 on. -/
def slideFrames (left right : ℕ) (values : List ℚ) : List TransitCall :=
  (List.destutter' (· ≠ ·) 0 values).tail.map (.compositeLayers left right)

/-- An animation composites the frames of a slide. -/
theorem animate_slides (left right : ℕ) (values : List ℚ) :
    animate left right 0 values = slideFrames left right values := by
  rw [slideFrames, List.map_tail, ← animate_eq, List.tail_cons]

/-- A slide between two layers, from the one side or from the other. -/
structure Slides (answers : TransitAnswers) (mgLayers : List ℕ) (handle left right : ℕ)
    (startValue endValue : ℚ) (calls : List TransitCall) : Prop where
  /-- The layer further behind in the list is to the left. -/
  ordered : mgLayers.idxOf right < mgLayers.idxOf left
  /-- The animation is configured, run and deleted. -/
  calls : calls = .create (some handle) :: .configure handle startValue endValue ::
    slideFrames left right (answers.frames startValue endValue) ++ [.delete handle]

/-- With an animation, the transition slides between two different layers of the list, with the one
that is further behind in the list to the left, and deletes the animation. In all other cases it
composites nothing and keeps the animation, which nobody deletes. -/
theorem myTransitToLayer_slides {answers : TransitAnswers} {handle : ℕ}
    (nodup : mgLayers.Nodup) (odd : answers.evenTime = false)
    (created : answers.handle = some handle) :
    if topmost ∈ mgLayers ∧ toLayer ∈ mgLayers ∧ topmost ≠ toLayer then
      Slides answers mgLayers handle topmost toLayer 95 5
          (myTransitToLayer answers mgLayers topmost toLayer) ∨
        Slides answers mgLayers handle toLayer topmost 5 95
          (myTransitToLayer answers mgLayers topmost toLayer)
    else ∃ idxLayer0 idxLayer1, myTransitToLayer answers mgLayers topmost toLayer =
      [.create (some handle), .warn idxLayer0 idxLayer1] := by
  have searched : searchLayers topmost toLayer mgLayers ⟨-1, -1, 0, 0⟩ = _ :=
    searchLayers_eq nodup _
  rw [zero_add] at searched
  rw [myTransitToLayer, odd, if_neg Bool.false_ne_true, created, searched]
  dsimp only
  by_cases both : topmost ∈ mgLayers ∧ toLayer ∈ mgLayers ∧ topmost ≠ toLayer
  · rw [if_pos both, if_neg (not_not.mpr both ∘ search_fails_iff.mp)]
    rw [placeFrom_start, placeFrom_start, if_pos both.1, if_pos both.2.1]
    have apart : mgLayers.idxOf topmost ≠ mgLayers.idxOf toLayer := fun same =>
      both.2.2 ((List.idxOf_inj both.1).mp same)
    split
    · next further =>
      exact .inl ⟨by omega, by rw [animate_slides]⟩
    · next nearer =>
      exact .inr ⟨by omega, by rw [animate_slides]⟩
  · rw [if_neg both, if_pos (search_fails_iff.mpr both)]
    exact ⟨_, _, rfl⟩

/-- An animation with three values, of which two are equal. -/
def threeFrames : TransitAnswers := ⟨false, some 7, fun first last => [first, first, last]⟩

/-- The layer that is asked for stands before the topmost one. -/
theorem myTransitToLayer_slides_back :
    myTransitToLayer threeFrames [3, 4, 5] 5 3 =
        [.create (some 7), .configure 7 95 5, .compositeLayers 5 3 95, .compositeLayers 5 3 5,
          .delete 7] ∧
      (Slides threeFrames [3, 4, 5] 7 5 3 95 5 (myTransitToLayer threeFrames [3, 4, 5] 5 3) ∨
        Slides threeFrames [3, 4, 5] 7 3 5 5 95 (myTransitToLayer threeFrames [3, 4, 5] 5 3)) := by
  have slides := @myTransitToLayer_slides 5 3 [3, 4, 5] threeFrames 7 (by decide) rfl rfl
  rw [if_pos (by decide)] at slides
  exact ⟨by decide, slides⟩

end Bpcp.MiniGUI
