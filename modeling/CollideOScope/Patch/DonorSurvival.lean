import CollideOScope.Patch.DonorRoutes

/-!
# Which donors survive

A stack is saved and loaded.  The donors of layers, of the refresh garden and of
the collision score always follow: the position of the donor is found anew when
it is saved.  The master's donors are saved by the position they were last saved
at, so they follow exactly when that is where they stand.  A matte follows when
it is on and its donor lives; a matte that is off is loaded as the default one.
-/

namespace CollideOScope.Patch

open Option List MotionConfig TemporalOriginalsConfig TemporalConfig LayerMatte LayerConfig

open Composition Morph Checks TemporalOriginals

variable {G H : Type}

section

variable {ids : List StableLayerId} {id : StableLayerId} {position : SavedLayerPosition}

theorem positionOfLayer_eq_some (hids : ids.Nodup) :
    positionOfLayer ids id = some position ↔ layerAtPosition ids position = some id := by
  simp only [positionOfLayer, layerAtPosition, bind_eq_some_iff, Modulation.savedLayerPosition]
  constructor
  · rintro ⟨index, hidx, hsaved⟩
    obtain ⟨hlt, hget, -⟩ := idxOf?_eq_some_iff.mp hidx
    split at hsaved
    · cases hsaved
      exact List.getElem?_eq_some_iff.mpr ⟨hlt, hget⟩
    · cases hsaved
  · intro hat
    obtain ⟨hlt, hget⟩ := List.getElem?_eq_some_iff.mp hat
    refine ⟨position.val, ?_, by simp [position.property]⟩
    refine idxOf?_eq_some_iff.mpr ⟨hlt, hget, ?_⟩
    intro earlier hearl hsame
    have hidx := hids.getElem_inj_iff.mp (hsame.trans hget.symm)
    omega

theorem isSome_layerAtPosition :
    (layerAtPosition ids position).isSome ↔ position.val < ids.length := by
  simp [layerAtPosition]

end

section

variable {m : MotionParams} {save save' : MotionDonor → MotionDonorConfig}
  {layerAt : SavedLayerPosition → Option StableLayerId}

theorem LayerConfig.restoredMotion_eq (config : LayerConfig) :
    config.restoredMotion layerAt =
      resolveRuntime (config.motion.getD default)
        layerAt := by
  unfold restoredMotion
  split
  · next hnone => rw [hnone]; rfl
  · next motion hsome => rw [hsome]; rfl

theorem captureCached_none : motionDonorRoute.captureCached .none = .none := rfl

def restoredBlock (layerAt : SavedLayerPosition → Option StableLayerId)
    (config : MotionConfig) : MotionParams :=
  resolveRuntime ((authoredMotion config).getD default) layerAt

theorem donors_restoredBlock (config : MotionConfig) :
    (restoredBlock layerAt config).donors =
      config.donors.map (motionDonorRoute.resolve layerAt) := by
  unfold restoredBlock authoredMotion
  split
  · next hdef =>
      have hnone := donors_of_isDefault hdef
      simp only [MotionBlock.donors, forall_mem_cons] at hnone
      simp only [MotionBlock.donors, map_cons, hnone]
      rfl
  · rfl

theorem authored_restoredBlock_iff (hbdd : m.sanitized = m) (hnone : save' .none = .none) :
    authoredMotion ((restoredBlock layerAt (m.mapDonors save)).mapDonors save') =
        authoredMotion (m.mapDonors save) ↔
      ∀ donor ∈ m.donors, save' (motionDonorRoute.resolve layerAt (save donor)) = save donor := by
  by_cases hdef : MotionConfig.isDefault (m.mapDonors save) = true
  · have hsaved : ∀ donor ∈ m.donors, save donor = .none := by
      simpa [MotionBlock.donors_mapDonors] using MotionConfig.donors_of_isDefault hdef
    have hrest :
        (restoredBlock layerAt (m.mapDonors save)).mapDonors save' = MotionConfig.default := by
      simp only [restoredBlock, authoredMotion, hdef, if_true,
        getD_none, MotionConfig.resolveRuntime_default]
      apply MotionBlock.mapDonors_congr
      simp [MotionBlock.donors, MotionBlock.default, FaradayParams.default,
        FieldColliderParams.default, hnone, captureCached_none]
    rw [hrest, authoredMotion, if_pos MotionConfig.isDefault_default, authoredMotion, if_pos hdef]
    simp only [true_iff]
    intro donor hdonor
    rw [hsaved donor hdonor]
    exact hnone
  · have hrest : restoredBlock layerAt (m.mapDonors save) =
        m.mapDonors fun donor => motionDonorRoute.resolve layerAt (save donor) := by
      rw [restoredBlock, authoredMotion, if_neg hdef, getD_some,
        MotionConfig.resolveRuntime_eq, MotionBlock.mapDonors_mapDonors,
        MotionBlock.sanitized_mapDonors, hbdd]
    rw [hrest, MotionBlock.mapDonors_mapDonors]
    constructor
    · intro hsame
      rw [authoredMotion, authoredMotion, if_neg hdef] at hsame
      split at hsame
      · cases hsame
      · exact MotionBlock.mapDonors_injective (Option.some.inj hsame)
    · intro hdonors
      rw [MotionBlock.mapDonors_congr hdonors]

/-- The donors of a block follow, slot by slot. -/
def DonorsFollow (positionOf : StableLayerId → Option SavedLayerPosition)
    (layerAt : SavedLayerPosition → Option StableLayerId) (before after : MotionParams) : Prop :=
  Forall₂ (motionDonorRoute.Follows positionOf layerAt) before.donors after.donors

theorem donorsFollow_restoredBlock_iff {positionOf : StableLayerId → Option SavedLayerPosition} :
    DonorsFollow positionOf layerAt m (restoredBlock layerAt (m.mapDonors save)) ↔
      ∀ donor ∈ m.donors, motionDonorRoute.Follows positionOf layerAt donor
        (motionDonorRoute.resolve layerAt (save donor)) := by
  rw [DonorsFollow, donors_restoredBlock, MotionBlock.donors_mapDonors, List.map_map]
  simp [MotionBlock.donors]

end

section

variable {p : TemporalOriginalsParams}
  {positionOf positionOf' : StableLayerId → Option SavedLayerPosition}
  {layerAt : SavedLayerPosition → Option StableLayerId}

def capturedOriginals (positionOf : StableLayerId → Option SavedLayerPosition)
    (p : TemporalOriginalsParams) : TemporalOriginalsConfig :=
  p.mapRoutes (gardenMatteRoute.capture positionOf)
    (gardenMotionRoute.capture positionOf) (loopDriverRoute.capture positionOf)

open TemporalOriginalsConfig (isDefault defaultParams)

theorem TemporalOriginalsConfig.routes_of_isDefault {config : TemporalOriginalsConfig}
    (h : TemporalOriginalsConfig.isDefault config = true) :
    config.garden.matteRoute = .none ∧ config.garden.motionRoute = .none ∧
      config.score.loopDriver = .none := by
  simp only [isDefault, same, RefreshGardenParams.same, Bool.and_eq_true, decide_eq_true_eq] at h
  obtain ⟨⟨⟨⟨-, hgarden⟩, -⟩, hscore⟩, -⟩ := h
  exact ⟨gardenMatteRoute.unresolved_eq_none_iff.mp hgarden.1.2,
    gardenMotionRoute.unresolved_eq_none_iff.mp hgarden.2,
    loopDriverRoute.unresolved_eq_none_iff.mp (congrArg CollisionScoreParams.loopDriver hscore)⟩

def RoutesNowhere (p : TemporalOriginalsParams) : Prop :=
  p.garden.matteRoute = .none ∧ p.garden.motionRoute = .none ∧ p.score.loopDriver = .none

theorem routesNowhere_of_isDefault_captured
    (h : isDefault (capturedOriginals positionOf p) = true) : RoutesNowhere p := by
  obtain ⟨hmatte, hmotion, hdriver⟩ := routes_of_isDefault h
  exact ⟨gardenMatteRoute.capture_eq_none_iff.mp hmatte,
    gardenMotionRoute.capture_eq_none_iff.mp hmotion,
    loopDriverRoute.capture_eq_none_iff.mp hdriver⟩

theorem routesNowhere_of_isDefault_cached
    (h : isDefault (fromParams p) = true) : RoutesNowhere p := by
  obtain ⟨hmatte, hmotion, hdriver⟩ := routes_of_isDefault h
  exact ⟨gardenMatteRoute.captureCached_eq_none_iff.mp hmatte,
    gardenMotionRoute.captureCached_eq_none_iff.mp hmotion,
    loopDriverRoute.captureCached_eq_none_iff.mp hdriver⟩

theorem TemporalConfig.originals_fromParamsForCapture :
    (fromParamsForCapture ⟨p⟩ positionOf).originals =
      if isDefault (capturedOriginals positionOf p)
      then none else some (capturedOriginals positionOf p) := by
  by_cases hnowhere : RoutesNowhere p
  · obtain ⟨hmatte, hmotion, hdriver⟩ := hnowhere
    have hsame : TemporalOriginalsConfig.fromParams p = capturedOriginals positionOf p := by
      simp only [TemporalOriginalsConfig.fromParams, capturedOriginals, mapRoutes,
        RefreshGardenParams.mapRoutes, CollisionScoreParams.mapRoute, hmatte, hmotion, hdriver]
      rfl
    have hmatte' : gardenMatteRoute.capture positionOf .none = .none := rfl
    have hmotion' : gardenMotionRoute.capture positionOf .none = .none := rfl
    have hdriver' : loopDriverRoute.capture positionOf .none = .none := rfl
    simp [fromParamsForCapture, hmatte, hmotion, hdriver, hmatte', hmotion',
      hdriver', fromParams, hsame]
  · have hcached := mt routesNowhere_of_isDefault_cached hnowhere
    have hcap : ¬isDefault (capturedOriginals positionOf p) = true :=
      mt routesNowhere_of_isDefault_captured hnowhere
    rw [if_neg hcap]
    simp only [fromParamsForCapture, fromParams, if_neg hcached, getD_some]
    split_ifs with hdriver hgarden hgarden
    · rfl
    · simp only [not_or, not_not] at hgarden
      have hmatte := gardenMatteRoute.captureCached_eq_none hgarden.1
      have hmotion := gardenMotionRoute.captureCached_eq_none hgarden.2
      simp only [TemporalOriginalsConfig.fromParams, capturedOriginals,
        mapRoutes, RefreshGardenParams.mapRoutes,
        CollisionScoreParams.mapRoute, hgarden.1, hgarden.2, hmatte, hmotion]
      rfl
    · simp only [not_not] at hdriver
      have hcache := loopDriverRoute.captureCached_eq_none hdriver
      simp only [TemporalOriginalsConfig.fromParams, capturedOriginals, mapRoutes,
        RefreshGardenParams.mapRoutes, CollisionScoreParams.mapRoute, hdriver, hcache]
      rfl
    · simp only [not_or, not_not] at hgarden hdriver
      exact absurd ⟨gardenMatteRoute.capture_eq_none_iff.mp hgarden.1,
        gardenMotionRoute.capture_eq_none_iff.mp hgarden.2,
        loopDriverRoute.capture_eq_none_iff.mp hdriver⟩ hnowhere

structure OriginalsFollow
    (positionOf : StableLayerId → Option SavedLayerPosition)
    (layerAt : SavedLayerPosition → Option StableLayerId)
    (before after : TemporalOriginalsParams) : Prop where
  matte : gardenMatteRoute.Follows positionOf layerAt before.garden.matteRoute
    after.garden.matteRoute
  motion : gardenMotionRoute.Follows positionOf layerAt
    before.garden.motionRoute after.garden.motionRoute
  driver : loopDriverRoute.Follows positionOf layerAt before.score.loopDriver after.score.loopDriver

theorem TemporalConfig.fromParamsForCapture_eq (temporal : TemporalParams) :
    fromParamsForCapture temporal positionOf =
      ⟨if isDefault (capturedOriginals positionOf temporal.originals)
        then none
        else some (capturedOriginals positionOf temporal.originals)⟩ :=
  congrArg mk originals_fromParamsForCapture

theorem RoutesNowhere.follow {after : TemporalOriginalsParams}
    (h : RoutesNowhere p) (hafter : RoutesNowhere after) :
    OriginalsFollow positionOf layerAt p after := by
  obtain ⟨hmatte, hmotion, hdriver⟩ := h
  obtain ⟨hmatte', hmotion', hdriver'⟩ := hafter
  refine ⟨?_, ?_, ?_⟩
  · rw [hmatte, hmatte']
    rfl
  · rw [hmotion, hmotion']
    rfl
  · rw [hdriver, hdriver']
    rfl

theorem originals_survive (hbdd : p.sanitized = p) (live : TemporalParams)
    (hkept : ∀ donor place, positionOf donor = some place → (layerAt place).isSome)
    (hback : ∀ place donor, layerAt place = some donor → positionOf' donor = some place) :
    OriginalsFollow positionOf layerAt p
        (restoredTemporal layerAt live (some (fromParamsForCapture ⟨p⟩ positionOf))).originals ∧
      fromParamsForCapture
          (restoredTemporal layerAt live (some (fromParamsForCapture ⟨p⟩ positionOf)))
          positionOf' =
        fromParamsForCapture ⟨p⟩ positionOf := by
  simp only [fromParamsForCapture_eq]
  by_cases hdef : isDefault (capturedOriginals positionOf p) = true
  · have hrest : (restoredTemporal layerAt live (some ⟨none⟩)).originals = defaultParams :=
      toParams_default
    have hagain : capturedOriginals positionOf' defaultParams = TemporalOriginalsConfig.default :=
      rfl
    rw [if_pos hdef, hrest, hagain, if_pos TemporalOriginalsConfig.isDefault_default]
    exact ⟨(routesNowhere_of_isDefault_captured hdef).follow ⟨rfl, rfl, rfl⟩, rfl⟩
  · have hrest : (restoredTemporal layerAt live
        (some ⟨some (capturedOriginals positionOf p)⟩)).originals =
          p.mapRoutes
            (fun route => gardenMatteRoute.resolve layerAt
              (gardenMatteRoute.capture positionOf route))
            (fun route => gardenMotionRoute.resolve layerAt
              (gardenMotionRoute.capture positionOf route))
            fun route => loopDriverRoute.resolve layerAt
              (loopDriverRoute.capture positionOf route) := by
      rw [restoredTemporal, restored_some, capturedOriginals, mapRoutes_mapRoutes,
        sanitized_mapRoutes, hbdd]
    have hagain : capturedOriginals positionOf'
        (restoredTemporal layerAt live (some ⟨some (capturedOriginals positionOf p)⟩)).originals =
          capturedOriginals positionOf p := by
      rw [hrest, capturedOriginals, mapRoutes_mapRoutes]
      simp only [gardenMatteRoute.capture_resolve_capture hkept hback,
        gardenMotionRoute.capture_resolve_capture hkept hback,
        loopDriverRoute.capture_resolve_capture hkept hback]
      rfl
    rw [if_neg hdef, hagain, if_neg hdef, hrest]
    exact ⟨⟨gardenMatteRoute.follows_resolve_capture hkept _,
      gardenMotionRoute.follows_resolve_capture hkept _,
      loopDriverRoute.follows_resolve_capture hkept _⟩, rfl⟩

end

section

variable {matte : LayerMatte ImageInput}
  {positionOf positionOf' : StableLayerId → Option SavedLayerPosition}
  {layerAt : SavedLayerPosition → Option StableLayerId}

/-- An input selects whoever took the place of its donor; it is missing when
its donor is gone.  Every other input stays. -/
def InputFollows (positionOf : StableLayerId → Option SavedLayerPosition)
    (layerAt : SavedLayerPosition → Option StableLayerId) :
    ImageInput → ImageInput → Prop
  | .selectedLayer donor stage, after =>
    match positionOf donor with
    | none => ∃ place, after = .missingSelectedLayer place stage
    | some place => ∃ heir, layerAt place = some heir ∧ after = .selectedLayer heir stage
  | input, after => after = input

/-- A matte that is on stays on, and its input follows; one that is off stays
off. -/
def MatteFollows (positionOf : StableLayerId → Option SavedLayerPosition)
    (layerAt : SavedLayerPosition → Option StableLayerId)
    (before after : LayerMatte ImageInput) : Prop :=
  after.enabled = before.enabled ∧
    (before.enabled = true → InputFollows positionOf layerAt before.input after.input)

/-- A matte that is on has a donor that lives; one that is off is the default
matte, or is reset to it as its donor is gone. -/
def LayerMatte.Survives (positionOf : StableLayerId → Option SavedLayerPosition)
    (matte : LayerMatte ImageInput) : Prop :=
  if matte.enabled then
    ∀ donor stage, matte.input = .selectedLayer donor stage → (positionOf donor).isSome
  else
    matte = default .oneBelow ∨
      ∃ donor stage, matte.input = .selectedLayer donor stage ∧ positionOf donor = none

def LayerMatte.withInput {I J : Type} (input : J) (matte : LayerMatte I) : LayerMatte J where
  enabled := matte.enabled
  input := input
  amount := matte.amount
  channel := matte.channel
  invert := matte.invert
  threshold := matte.threshold
  softness := matte.softness

variable {I : Type}

theorem LayerMatte.sanitized_eq_iff {matte : LayerMatte I} :
    matte.sanitized = matte ↔
      F32.finiteClamp matte.amount 1 0 1 = matte.amount ∧
        F32.finiteClamp matte.threshold 0.5 0 1 = matte.threshold ∧
        F32.finiteClamp matte.softness 0.1 0 1 = matte.softness := by
  obtain ⟨⟨enabled, input, amount⟩, channel, invert, threshold, softness⟩ := matte
  simp [sanitized, Composition.LayerMatte.sanitized]

theorem LayerMatte.captured_of_ok {input : SavedImageInput} (hbdd : matte.sanitized = matte)
    (h : Composition.LayerMatte.savedInput positionOf matte.input = .ok input) :
    matte.captured positionOf = matte.withInput input := by
  obtain ⟨hamount, hthr, hsoftness⟩ := sanitized_eq_iff.mp hbdd
  simp [captured, fromRuntime, Composition.LayerMatte.fromRuntime, Composition.LayerMatte.sanitized,
    sanitized, h, withInput, hamount, hthr, hsoftness, bind, Except.bind, pure, Except.pure]

variable {error : ImageRouteDiagnostic}

theorem LayerMatte.captured_of_error
    (h : Composition.LayerMatte.savedInput positionOf matte.input =
      .error error) : matte.captured positionOf = default .oneBelow := by
  simp [captured, fromRuntime, Composition.LayerMatte.fromRuntime,
    Composition.LayerMatte.sanitized, h, bind, Except.bind]

def liveInput (layerAt : SavedLayerPosition → Option StableLayerId)
    (saved : SavedImageInput) : ImageInput :=
  (Composition.LayerMatte.toRuntime ⟨true, saved, 1⟩ layerAt).input

theorem LayerMatte.toRuntime_withInput (hbdd : matte.sanitized = matte)
    (henab : matte.enabled = true) (saved : SavedImageInput) :
    (matte.withInput saved).toRuntime layerAt = matte.withInput (liveInput layerAt saved) := by
  obtain ⟨hamount, hthr, hsoftness⟩ := sanitized_eq_iff.mp hbdd
  simp [toRuntime, withInput, sanitized, Composition.LayerMatte.sanitized,
    Composition.LayerMatte.toRuntime, liveInput, henab, hamount, hthr, hsoftness]

theorem LayerMatte.toRuntime_of_off {saved : LayerMatteConfig} (h : saved.enabled = false) :
    saved.toRuntime layerAt = default .oneBelow := by
  simp [toRuntime, sanitized, Composition.LayerMatte.sanitized, h]

theorem LayerMatte.sanitized_default (oneBelow : I) :
    (default oneBelow).sanitized = default oneBelow := by
  simp (disch := decide +kernel) [sanitized_eq_iff, default, F32.finiteClamp_of_le]

theorem LayerMatte.captured_default : (default .oneBelow).captured positionOf = default .oneBelow :=
  captured_of_ok (sanitized_default _) rfl

variable {input : ImageInput}

theorem savedInput_error (h : Composition.LayerMatte.savedInput positionOf input = .error error) :
    ∃ donor stage, input = .selectedLayer donor stage ∧ positionOf donor = none := by
  cases input with
  | selectedLayer donor stage =>
    refine ⟨donor, stage, rfl, ?_⟩
    cases hplace : positionOf donor with
    | none => rfl
    | some place => simp [Composition.LayerMatte.savedInput, hplace] at h
  | _ => cases h

variable {saved : SavedImageInput}

theorem isSome_of_savedInput (h : Composition.LayerMatte.savedInput positionOf input = .ok saved)
    {donor : StableLayerId} {stage : LayerImageStage} (hinp : input = .selectedLayer donor stage) :
    (positionOf donor).isSome := by
  subst hinp
  cases hplace : positionOf donor with
  | none => simp [Composition.LayerMatte.savedInput, hplace] at h
  | some place => rfl

theorem eq_default_of_saved
    (h : Composition.LayerMatte.savedInput positionOf matte.input = .ok saved)
    (hdef : matte.withInput saved = LayerMatte.default .oneBelow) :
    matte = LayerMatte.default .oneBelow := by
  obtain ⟨⟨enabled, input, amount⟩, channel, invert, threshold, softness⟩ := matte
  cases hdef
  cases input with
  | oneBelow => rfl
  | selectedLayer donor stage =>
    simp only [Composition.LayerMatte.savedInput] at h
    split at h <;> cases h
  | _ => cases h

variable (hkept : ∀ donor place, positionOf donor = some place → (layerAt place).isSome)
  (hback : ∀ place donor, layerAt place = some donor → positionOf' donor = some place)
include hkept hback

theorem liveInput_spec (h : Composition.LayerMatte.savedInput positionOf input = .ok saved) :
    InputFollows positionOf layerAt input (liveInput layerAt saved) ∧
      Composition.LayerMatte.savedInput positionOf' (liveInput layerAt saved) = .ok saved := by
  cases input with
  | selectedLayer donor stage =>
    obtain ⟨place, hplace⟩ := isSome_iff_exists.mp (isSome_of_savedInput h rfl)
    obtain ⟨heir, hheir⟩ := isSome_iff_exists.mp (hkept donor place hplace)
    simp only [Composition.LayerMatte.savedInput, hplace] at h
    cases h
    have hlive : liveInput layerAt (.selectedLayer place stage) = .selectedLayer heir stage := by
      simp [liveInput, Composition.LayerMatte.toRuntime, Composition.LayerMatte.sanitized, hheir]
    rw [hlive]
    refine ⟨?_, ?_⟩
    · simpa [InputFollows, hplace] using hheir
    · simp [Composition.LayerMatte.savedInput, hback place heir hheir]
  | _ =>
    cases h
    exact ⟨rfl, rfl⟩

theorem matte_survives_iff (hbdd : matte.sanitized = matte) :
    (MatteFollows positionOf layerAt matte ((matte.captured positionOf).toRuntime layerAt) ∧
      ((matte.captured positionOf).toRuntime layerAt).captured positionOf' =
        matte.captured positionOf) ↔
      matte.Survives positionOf := by
  cases hsaved : Composition.LayerMatte.savedInput positionOf matte.input with
  | error error =>
    obtain ⟨donor, stage, hinp, hlost⟩ := savedInput_error hsaved
    rw [captured_of_error hsaved, toRuntime_of_off rfl, captured_default]
    by_cases henab : matte.enabled = true
    · simp [MatteFollows, LayerMatte.Survives, LayerMatte.default, henab, hinp, hlost]
    · simp [MatteFollows, LayerMatte.Survives, LayerMatte.default, henab, hinp, hlost]
  | ok saved =>
    rw [captured_of_ok hbdd hsaved]
    by_cases henab : matte.enabled = true
    · obtain ⟨hfol, hagain⟩ := liveInput_spec hkept hback hsaved
      rw [toRuntime_withInput hbdd henab]
      have hsurvives : matte.Survives positionOf := by
        rw [Survives, if_pos henab]
        intro donor stage hinp
        exact isSome_of_savedInput hsaved hinp
      have hbounded' : (matte.withInput (liveInput layerAt saved)).sanitized =
          matte.withInput (liveInput layerAt saved) := by
        have hvalues := sanitized_eq_iff.mp hbdd
        exact sanitized_eq_iff.mpr hvalues
      rw [captured_of_ok hbounded' hagain]
      exact ⟨fun _ => hsurvives, fun _ => ⟨⟨rfl, fun _ => hfol⟩, rfl⟩⟩
    · have hoff : (matte.withInput saved).enabled = false := by simpa [withInput] using henab
      rw [toRuntime_of_off hoff, captured_default, Survives, if_neg henab]
      constructor
      · rintro ⟨-, hsame⟩
        left
        exact eq_default_of_saved hsaved hsame.symm
      · rintro (rfl | ⟨donor, stage, hinp, hlost⟩)
        · cases hsaved
          exact ⟨⟨rfl, fun hon => absurd hon henab⟩, rfl⟩
        · simp [Composition.LayerMatte.savedInput, hinp, hlost] at hsaved

end

structure LayerFollows (positionOf : StableLayerId → Option SavedLayerPosition)
    (layerAt : SavedLayerPosition → Option StableLayerId) (before after : LiveLayer) : Prop where
  donors : DonorsFollow positionOf layerAt before.motion after.motion
  matte : MatteFollows positionOf layerAt before.matte after.matte

structure ShowFollows (positionOf : StableLayerId → Option SavedLayerPosition)
    (layerAt : SavedLayerPosition → Option StableLayerId) (before after : LiveShow H) : Prop where
  layers : Forall₂ (LayerFollows positionOf layerAt) before.layers after.layers
  master : DonorsFollow positionOf layerAt before.masterMotion after.masterMotion
  originals : OriginalsFollow positionOf layerAt before.temporal.originals after.temporal.originals

/-- The master's donors were last saved where they stand, and the mattes
survive. -/
structure LiveShow.CachedInPlace (live : LiveShow H) : Prop where
  master : ∀ donor ∈ live.masterMotion.donors, motionDonorRoute.CachedInPlace live.positionOf donor
  mattes : ∀ layer ∈ live.layers, layer.matte.Survives live.positionOf

variable {patch : PatchState G} {live : LiveShow H}

theorem captureWithCompositionAndMotion_ok
    {captureGraph : List StableLayerId → H → Except String G} :
    captureWithCompositionAndMotion captureGraph live = .ok patch ↔
      captureGraph live.ids live.graph = .ok patch.graph ∧
        patch.toDonorSections = live.sections := by
  simp only [captureWithCompositionAndMotion, bind_ok, pure_ok]
  constructor
  · rintro ⟨graph, hgraph, rfl⟩
    exact ⟨hgraph, rfl⟩
  · rintro ⟨hgraph, hsections⟩
    refine ⟨patch.graph, hgraph, ?_⟩
    rw [← hsections]

theorem applyWithCompositionAndMotion_ok
    {resolveGraph : List StableLayerId → G → H → Except String H} {restored : LiveShow H}
    (h : applyWithCompositionAndMotion resolveGraph patch live = .ok restored) :
    live.layers.length = patch.layers.length ∧ ∃ graph, restored = patch.restore live graph := by
  simp only [applyWithCompositionAndMotion, checkStack, bind_ok, refuse_ok,
    exists_unit, not_not, pure_ok] at h
  obtain ⟨⟨hlen, -⟩, graph, -, rfl⟩ := h
  exact ⟨hlen, graph, rfl⟩

section

variable {positionOf positionOf' : StableLayerId → Option SavedLayerPosition}
  {layerAt : SavedLayerPosition → Option StableLayerId}

variable (hkept : ∀ donor place, positionOf donor = some place → (layerAt place).isSome)
  (hback : ∀ place donor, layerAt place = some donor → positionOf' donor = some place)
include hkept hback

theorem layer_survives_iff (layer other : LiveLayer) :
    (LayerFollows positionOf layerAt layer (other.restore layerAt (capture positionOf layer)) ∧
      capture positionOf' (other.restore layerAt (capture positionOf layer)) =
        capture positionOf layer) ↔
      layer.matte.Survives positionOf := by
  have hmotion : (other.restore layerAt
      (capture positionOf layer)).motion =
        restoredBlock layerAt (layer.motion.mapDonors (motionDonorRoute.capture positionOf)) :=
    restoredMotion_eq _
  have hfollow : DonorsFollow positionOf layerAt layer.motion
      (other.restore layerAt (capture positionOf layer)).motion := by
    rw [hmotion, donorsFollow_restoredBlock_iff]
    exact fun donor _ => motionDonorRoute.follows_resolve_capture hkept donor
  have hagain : authoredMotion (fromParamsForCapture
      (other.restore layerAt (capture positionOf layer)).motion positionOf') =
      authoredMotion (fromParamsForCapture layer.motion positionOf) := by
    rw [hmotion]
    refine (authored_restoredBlock_iff layer.motion_bounded rfl).mpr ?_
    exact fun donor _ => motionDonorRoute.capture_resolve_capture hkept hback donor
  rw [← matte_survives_iff hkept hback layer.matte_bounded]
  constructor
  · rintro ⟨hfol, hsame⟩
    exact ⟨hfol.matte, congrArg matte hsame⟩
  · rintro ⟨hfol, hsame⟩
    refine ⟨⟨hfollow, hfol⟩, ?_⟩
    simp only [LayerConfig.capture, LayerConfig.mk.injEq]
    exact ⟨hagain, hsame⟩

theorem layers_survive_iff {layers others : List LiveLayer} (hlen : others.length = layers.length) :
    (Forall₂ (LayerFollows positionOf layerAt) layers
        (restoreLayers layerAt (layers.map (capture positionOf)) others) ∧
      (restoreLayers layerAt (layers.map (capture positionOf)) others).map (capture positionOf') =
        layers.map (capture positionOf)) ↔
      ∀ layer ∈ layers, layer.matte.Survives positionOf := by
  induction layers generalizing others with
  | nil =>
    obtain rfl := length_eq_zero_iff.mp hlen
    simp [restoreLayers]
  | cons layer layers ih =>
    cases others with
    | nil => cases hlen
    | cons other others =>
      have hrest := ih (Nat.succ.inj hlen)
      have hfst := layer_survives_iff hkept hback layer other
      simp only [map_cons, restoreLayers, forall₂_cons, cons.injEq, forall_mem_cons]
      tauto

omit hback in
theorem master_survives_iff {m : MotionParams} (hbdd : m.sanitized = m) :
    (DonorsFollow positionOf layerAt m (restoredBlock layerAt (fromParams m)) ∧
      authoredMotion (fromParams (restoredBlock layerAt (fromParams m))) =
        authoredMotion (fromParams m)) ↔
      ∀ donor ∈ m.donors, motionDonorRoute.CachedInPlace positionOf donor := by
  rw [MotionConfig.fromParams, donorsFollow_restoredBlock_iff, MotionConfig.fromParams,
    authored_restoredBlock_iff hbdd rfl, ← forall₂_and]
  refine forall₂_congr ?_
  intro donor _
  exact motionDonorRoute.survives_cached_iff hkept donor

end

/-- Donors survive saving and loading exactly when the master's were last saved
where they stand and the mattes keep theirs. -/
theorem donors_survive_iff {captureGraph : List StableLayerId → H → Except String G}
    {resolveGraph : List StableLayerId → G → H → Except String H}
    {live target restored : LiveShow H} {patch : PatchState G}
    (hcapture : captureWithCompositionAndMotion captureGraph live = .ok patch)
    (happly : applyWithCompositionAndMotion resolveGraph patch target = .ok restored) :
    (ShowFollows live.positionOf target.layerAt live restored ∧
      restored.sections = patch.toDonorSections) ↔ live.CachedInPlace := by
  obtain ⟨-, hsections⟩ := captureWithCompositionAndMotion_ok.mp hcapture
  obtain ⟨hlength, graph, rfl⟩ := applyWithCompositionAndMotion_ok happly
  have hlayers : patch.layers = live.layers.map (capture live.positionOf) :=
    congrArg DonorSections.layers hsections
  have hmaster : patch.masterMotion = authoredMotion (fromParams live.masterMotion) :=
    congrArg DonorSections.masterMotion hsections
  have htemporal : patch.temporal = some (fromParamsForCapture live.temporal live.positionOf) :=
    congrArg DonorSections.temporal hsections
  have hids : (patch.restore target graph).ids = target.ids := map_id_restoreLayers _ _ _
  have hlengths : target.ids.length = live.ids.length := by
    simpa [LiveShow.ids, hlayers] using hlength
  have hkept : ∀ donor place, live.positionOf donor = some place →
      (target.layerAt place).isSome := by
    intro donor place hplace
    have hlive : (live.layerAt place).isSome :=
      isSome_iff_exists.mpr ⟨donor, (positionOfLayer_eq_some live.ids_nodup).mp hplace⟩
    rw [LiveShow.layerAt, isSome_layerAtPosition] at hlive ⊢
    omega
  have hback : ∀ place donor, target.layerAt place = some donor →
      (patch.restore target graph).positionOf donor = some place := by
    intro place donor hat
    rw [LiveShow.positionOf, hids]
    exact (positionOfLayer_eq_some target.ids_nodup).mpr hat
  have hlayer := layers_survive_iff hkept hback (by simpa [hlayers] using hlength)
  have hmotion := master_survives_iff hkept live.masterMotion_bounded
  obtain ⟨hfollow, hagain⟩ := originals_survive live.originals_bounded target.temporal hkept hback
  have hrestoredLayers : (patch.restore target graph).layers =
      restoreLayers target.layerAt
        (live.layers.map (capture live.positionOf))
        target.layers := by
    rw [← hlayers]
    rfl
  have hrestoredMaster : (patch.restore target graph).masterMotion =
      restoredBlock target.layerAt (fromParams live.masterMotion) := by
    rw [restoredBlock, ← hmaster]
    rfl
  have hrestoredTemporal : (patch.restore target graph).temporal =
      restoredTemporal target.layerAt target.temporal
        (some (fromParamsForCapture live.temporal live.positionOf)) := by
    rw [← htemporal]
    rfl
  rw [hsections]
  constructor
  · rintro ⟨hfollows, hsame⟩
    have hsameMaster := congrArg DonorSections.masterMotion hsame
    have hsameLayers := congrArg DonorSections.layers hsame
    have hmasterFollows := hfollows.master
    have hlayersFollow := hfollows.layers
    simp only [LiveShow.sections, hrestoredMaster] at hsameMaster
    simp only [LiveShow.sections, hrestoredLayers] at hsameLayers
    rw [hrestoredMaster] at hmasterFollows
    rw [hrestoredLayers] at hlayersFollow
    exact ⟨hmotion.mp ⟨hmasterFollows, hsameMaster⟩, hlayer.mp ⟨hlayersFollow, hsameLayers⟩⟩
  · intro hcached
    obtain ⟨hmasterFollows, hsameMaster⟩ := hmotion.mpr hcached.master
    obtain ⟨hlayersFollow, hsameLayers⟩ := hlayer.mpr hcached.mattes
    refine ⟨⟨?_, ?_, ?_⟩, ?_⟩
    · rwa [hrestoredLayers]
    · rwa [hrestoredMaster]
    · rwa [hrestoredTemporal]
    · simp only [LiveShow.sections, DonorSections.mk.injEq, hrestoredMaster,
        hrestoredLayers, hrestoredTemporal, some.injEq]
      exact ⟨hsameMaster, hsameLayers, hagain⟩

def frontLayer : StableLayerId := ⟨1, one_isIdentity⟩

def backLayer : StableLayerId := ⟨2, two_isIdentity⟩

def plainLayer (id : StableLayerId) : LiveLayer where
  id := id
  motion := .default .none
  matte := .default .oneBelow
  motion_bounded := MotionBlock.sanitized_default _
  matte_bounded := sanitized_default _

def transplantFrom (donor : MotionDonor) : MotionParams :=
  { MotionBlock.default MotionDonor.none with
    transplant := { FaradayParams.default MotionDonor.none with donor } }

theorem sanitized_transplantFrom (donor : MotionDonor) :
    (transplantFrom donor).sanitized = transplantFrom donor := by
  have hdef := MotionBlock.sanitized_default MotionDonor.none
  simp only [MotionBlock.default, MotionBlock.sanitized, MotionBlock.mk.injEq,
    FaradayParams.default, FaradayParams.sanitized, FaradayParams.mk.injEq] at hdef
  simp [transplantFrom, MotionBlock.default, MotionBlock.sanitized,
    FaradayParams.default, FaradayParams.sanitized, hdef]

theorem ids_plainLayers_nodup :
    ([plainLayer frontLayer, plainLayer backLayer].map LiveLayer.id).Nodup := by
  decide

def transplantShow (donor : MotionDonor) : LiveShow Unit where
  layers := [plainLayer frontLayer, plainLayer backLayer]
  masterMotion := transplantFrom donor
  temporal := ⟨defaultParams⟩
  graph := ()
  ids_nodup := ids_plainLayers_nodup
  masterMotion_bounded := sanitized_transplantFrom donor
  originals_bounded := sanitized_defaultParams

theorem zero_isPosition : 0 ≤ maxSavedLayerPosition := Nat.zero_le _

theorem one_isPosition : 1 ≤ maxSavedLayerPosition := by
  decide

/-- The donor was last saved where it stands. -/
def currentShow : LiveShow Unit := transplantShow (.selected backLayer ⟨1, one_isPosition⟩)

/-- The donor was last saved in front, and stands behind. -/
def movedShow : LiveShow Unit := transplantShow (.selected backLayer ⟨0, zero_isPosition⟩)

def plainPatch (live : LiveShow Unit) : PatchState Unit := { live.sections with graph := () }

def captureNothing (_ : List StableLayerId) (_ : Unit) : Except String Unit := .ok ()

def resolveNothing (_ : List StableLayerId) (_ _ : Unit) : Except String Unit := .ok ()

/-- A donor that was last saved where it stands survives. -/
theorem donors_survive_iff_current :
    ShowFollows currentShow.positionOf movedShow.layerAt currentShow
        ((plainPatch currentShow).restore movedShow ()) ∧
      ((plainPatch currentShow).restore movedShow ()).sections =
        (plainPatch currentShow).toDonorSections := by
  have hcapture : captureWithCompositionAndMotion captureNothing currentShow =
      .ok (plainPatch currentShow) :=
    rfl
  have happly : applyWithCompositionAndMotion resolveNothing
      (plainPatch currentShow) movedShow = .ok ((plainPatch currentShow).restore movedShow ()) :=
    rfl
  refine (donors_survive_iff hcapture happly).mpr ⟨?_, ?_⟩
  · intro donor hdonor
    simp only [currentShow, transplantShow, transplantFrom, MotionBlock.donors, MotionBlock.default,
      FieldColliderParams.default, mem_cons, not_mem_nil, or_false] at hdonor
    rcases hdonor with rfl | rfl | rfl
    · rfl
    · trivial
    · trivial
  · intro layer hlayer
    simp only [currentShow, transplantShow, mem_cons, not_mem_nil, or_false] at hlayer
    rcases hlayer with rfl | rfl
    · exact .inl rfl
    · exact .inl rfl

/-- A master donor that moved since it was last saved comes back as the layer
that stands where it stood: the same stack is loaded, and the donor is another
layer. -/
theorem moved_donor_retargeted :
    captureWithCompositionAndMotion captureNothing movedShow = .ok (plainPatch movedShow) ∧
      applyWithCompositionAndMotion resolveNothing (plainPatch movedShow)
          movedShow = .ok ((plainPatch movedShow).restore movedShow ()) ∧
      ((plainPatch movedShow).restore movedShow ()).masterMotion.donors =
        [.selected frontLayer ⟨0, zero_isPosition⟩, .none, .none] ∧
      ¬ShowFollows movedShow.positionOf movedShow.layerAt movedShow
        ((plainPatch movedShow).restore movedShow ()) := by
  refine ⟨rfl, rfl, rfl, ?_⟩
  intro hfollows
  obtain ⟨heir, -, hheir⟩ := (forall₂_cons.mp hfollows.master).1
  cases hheir

end CollideOScope.Patch
