import CollideOScope.Mosh.Runs

/-!
# Any list of calls

A call takes the recycled image out of the engine before anything can fail, so
it is used in the epoch that stored it or not at all.  Every exit of a call
leaves the stage sound.
-/

namespace CollideOScope.Mosh

open Stage

/-- The stage is sound and its first keys were fed. -/
structure StageSound (stage : Stage) : Prop where
  sound : Sound stage
  firstKeys : FirstKeysFed stage.log

/-- A step that may fail keeps the stage sound; the recycled image it leaves is
current. -/
structure StepSound (result : Except String (Option Image) × Stage) : Prop where
  stage : StageSound result.2
  recycled : ∀ image, result.1 = .ok image → RecycledCurrent image result.2.log

variable {stage : Stage}

theorem StageSound.takeRecycled (h : StageSound stage) : StageSound stage.takeRecycled where
  sound := { h.sound with recycled := recycledCurrent_none _ }
  firstKeys := h.firstKeys

variable {log : List Event} {engine : MoshEngine}

theorem stageSound_reset (h : Justified Allowed log) (hfst : FirstKeysFed log)
    (hseen : engine.seen = false) (hneed : engine.needKey = true)
    (hring : engine.ring = .empty) (hpicture : engine.lastDecoded = none)
    (hrecycled : engine.recycled = none) : StageSound ⟨engine, .reset :: log⟩ :=
  ⟨.of_reset h hseen hneed hring hpicture hrecycled, hfst.cons rfl⟩

theorem stepSound_reset (h : StageSound ⟨engine, .reset :: log⟩) :
    StepSound (.ok none, ⟨engine, .reset :: log⟩) where
  stage := h
  recycled := by
    intro image himage
    cases himage
    exact recycledCurrent_none _

theorem stepSound_error (h : StageSound stage) (text : String) :
    StepSound (.error text, stage) where
  stage := h
  recycled := by
    intro image himage
    cases himage

variable {recycled : Option Image}

section

variable (h : StageSound stage) (hrecycled : RecycledCurrent recycled stage.log)
include h hrecycled

theorem stepSound_ok : StepSound (.ok recycled, stage) where
  stage := h
  recycled := by
    intro image himage
    cases himage
    exact hrecycled

theorem resize_sound (laws : DoubleLaws) (frame : Frame) (host : HostAnswers) (shaping : Bool) :
    StepSound (stage.resize laws frame host shaping recycled) := by
  unfold resize
  split_ifs
  · cases host.engineOpened with
    | error text => exact stepSound_error h text
    | ok u =>
      exact stepSound_reset (stageSound_reset h.sound.history h.firstKeys
        rfl rfl rfl rfl rfl)
  · exact stepSound_ok h hrecycled

theorem reconfigure_sound (laws : DoubleLaws) (params : CodecMoshParams)
    (host : HostAnswers) (shaping : Bool) :
    StepSound (stage.reconfigure laws params host shaping recycled) := by
  have hreset : ∀ engine : MoshEngine, StepSound
      (.ok none, (⟨engine, stage.log⟩ : Stage).resetStream.healthy) :=
    fun _ => stepSound_reset (stageSound_reset h.sound.history h.firstKeys
      rfl rfl rfl rfl rfl)
  simp only [reconfigure]
  split_ifs
  · cases host.encoderOpened with
    | error text => exact stepSound_error h text
    | ok u =>
      cases host.decoderOpened with
      | error text => exact stepSound_error h text
      | ok u => exact hreset _
  · cases host.decoderOpened with
    | error text => exact stepSound_error h text
    | ok u => exact hreset _
  · exact stepSound_ok h hrecycled

end

theorem wantsKeyframe_of_not_accepted (h : Sound stage)
    (hnone : ¬KeyAccepted stage.log) (laws : DoubleLaws) (resync : F32) :
    wantsKeyframe laws stage.engine.seen stage.engine.needKey resync
      stage.engine.frameCount = true := by
  have hunseen : stage.engine.seen = false := by
    by_contra hseen
    exact hnone (h.keyAccepted (by simpa using hseen))
  simp [wantsKeyframe, hunseen]

section

variable (h : StageSound stage)
include h

theorem encode_sound (hrecycled : RecycledCurrent recycled stage.log)
    (laws : DoubleLaws) (params : CodecMoshParams) (host : HostAnswers) :
    StageSound (stage.encode laws params host recycled).2 ∧
      RecycledCurrent recycled (stage.encode laws params host recycled).2.log := by
  unfold encode
  cases host.scaledIn with
  | error text => exact ⟨h, hrecycled⟩
  | ok u =>
    cases host.motionPrepared with
    | error text => exact ⟨h, hrecycled⟩
    | ok u =>
      have hcnt : Sound
          { stage with
            engine := { stage.engine with frameCount := stage.engine.frameCount + 1 } } :=
        { h.sound with }
      have hsent := hcnt.record
        (.encoded (wantsKeyframe laws stage.engine.seen
          stage.engine.needKey params.resync stage.engine.frameCount)
          recycled) rfl
        ⟨fun hnone => wantsKeyframe_of_not_accepted h.sound hnone laws _, hrecycled⟩
      cases host.frameSent with
      | error text | ok u => exact ⟨⟨hsent, h.firstKeys.cons rfl⟩, hrecycled.record rfl⟩

theorem StageSound.recoverDecodedOutput : StageSound stage.recoverDecodedOutput where
  sound := h.sound.recoverDecodedOutput
  firstKeys := by
    rw [log_recoverDecodedOutput]
    exact h.firstKeys.cons rfl

theorem finish_sound {picture : Picture} (hpicture : stage.engine.lastDecoded = some picture)
    (hrecycled : RecycledCurrent recycled stage.log) (params : CodecMoshParams) (expected : ℕ) :
    StageSound (stage.finish params picture expected recycled) := by
  have hblended : StageSound (stage.record (.blended picture recycled)) :=
    ⟨h.sound.record _ rfl ⟨h.sound.picture picture hpicture, hrecycled⟩, h.firstKeys.cons rfl⟩
  simp only [finish]
  split_ifs
  · have hstore := hblended.sound.record
      (.stored ⟨(stage.record (.blended picture recycled)).log.length, expected⟩) rfl rfl
    refine ⟨?_, hblended.firstKeys.cons rfl⟩
    exact
      { hstore with
        recycled := by
          intro image himage
          cases himage
          exact mem_sinceReset_self rfl }
  · exact hblended.takeRecycled

theorem blend_sound
    (hrecycled : stage.engine.lastDecoded ≠ none → RecycledCurrent recycled stage.log)
    (params : CodecMoshParams) (host : HostAnswers) (expected : ℕ) :
    StageSound (stage.blend params host expected recycled) := by
  unfold blend
  cases hpicture : stage.engine.lastDecoded with
  | none => exact h
  | some picture =>
    have hcur := hrecycled (by simp [hpicture])
    have hscaled : StageSound
        { stage with
          engine := { stage.engine with scaleOut := true } } := ⟨{ h.sound with }, h.firstKeys⟩
    simp only
    split_ifs
    · exact h.recoverDecodedOutput
    · exact h.recoverDecodedOutput
    · exact hscaled.recoverDecodedOutput
    · exact finish_sound hscaled hpicture hcur params expected

theorem roundTrip_sound (hrecycled : RecycledCurrent recycled stage.log)
    (frame : Frame) (host : HostAnswers) (expected : ℕ) :
    StageSound (stage.roundTrip frame host expected recycled).2 := by
  have hstart : FeedingSound ⟨stage, 0, false⟩ :=
    ⟨h.sound, h.firstKeys, fun _ _ => rfl, fun hend => by cases hend⟩
  obtain ⟨hfed, hkept⟩ := packets_spec hstart frame host.feeds 0
    (host.packets.take maxPacketsPerFrame)
  have hstage : StageSound (Feeding.packets frame host.feeds 0
      (host.packets.take maxPacketsPerFrame) ⟨stage, 0, false⟩).stage :=
    ⟨hfed.sound, hfed.firstKeys⟩
  simp only [roundTrip]
  split_ifs
  · exact hstage
  · apply blend_sound hstage
    intro hpicture image himage
    cases hend : (Feeding.packets frame host.feeds 0
        (host.packets.take maxPacketsPerFrame) ⟨stage, 0, false⟩).ended with
    | true => exact absurd (hfed.cleared hend) hpicture
    | false => exact (hkept hend).2 _ (hrecycled image himage)

theorem process_sound (hrecycled : RecycledCurrent recycled stage.log)
    (laws : DoubleLaws) (frame : Frame) (host : HostAnswers) (expected : ℕ) :
    StageSound (stage.process laws frame host expected recycled).2 := by
  simp only [process]
  have hresized := resize_sound h hrecycled laws frame host
    frame.params.sanitized.motionShapingActive
  split
  · next text resized heq =>
      rw [heq] at hresized
      exact hresized.stage
  · next recycled resized heq =>
      rw [heq] at hresized
      have hreconfigured := reconfigure_sound hresized.stage
        (hresized.recycled recycled rfl) laws frame.params.sanitized host
        frame.params.sanitized.motionShapingActive
      split
      · next text reconfigured heq =>
          rw [heq] at hreconfigured
          exact hreconfigured.stage
      · next recycled reconfigured heq =>
          rw [heq] at hreconfigured
          have henc := encode_sound hreconfigured.stage
            (hreconfigured.recycled recycled rfl) laws frame.params.sanitized
            host
          split
          · next text encoded heq =>
              rw [heq] at henc
              exact henc.1
          · next u encoded heq =>
              rw [heq] at henc
              exact roundTrip_sound henc.1 henc.2 frame host expected

end

theorem RecycledCurrent.filter (h : RecycledCurrent recycled log)
    (keep : Image → Bool) : RecycledCurrent (recycled.filter keep) log := by
  intro image himage
  exact h image (Option.eq_some_of_filter_eq_some himage)

theorem apply_sound (h : StageSound stage) (laws : DoubleLaws) (frame : Frame)
    (host : HostAnswers) : StageSound (stage.apply laws frame host).2 := by
  have hprior : RecycledCurrent
      (if frame.params.sanitized.recycle then stage.engine.recycled else none)
      stage.log := by
    split_ifs
    · exact h.sound.recycled
    · exact recycledCurrent_none _
  simp only [apply]
  cases expectedBytes frame with
  | error text => exact h.takeRecycled
  | ok expected =>
    by_cases hact : frame.params.sanitized.active = true
    · by_cases hspent : decoderFailLimit < stage.takeRecycled.engine.fails
      · simpa [hact, hspent] using h.takeRecycled
      · simpa [hact, hspent] using process_sound h.takeRecycled
          (hprior.filter _) laws frame host expected
    · simpa [hact] using h.takeRecycled

section

variable (laws : DoubleLaws) (width height : ℕ) (exportMotionVectors : Bool)

theorem stageSound_opened :
    StageSound ⟨.opened laws width height exportMotionVectors, [.reset]⟩ := by
  refine stageSound_reset justified_nil ?_ rfl rfl rfl rfl rfl
  intro later chunk earlier heq
  simp at heq

theorem stageSound_afterCalls (calls : List (Frame × HostAnswers)) :
    StageSound (afterCalls laws width height exportMotionVectors calls)
    := by
  have hrun : ∀ stage, StageSound stage →
      StageSound (calls.foldl (fun stage call => (stage.apply laws call.1 call.2).2) stage) := by
    induction calls with
    | nil => exact fun _ h => h
    | cons call calls ih => exact fun stage h => ih _ (apply_sound h laws call.1 call.2)
  exact hrun _ (stageSound_opened laws width height exportMotionVectors)

end

/-- A log that shows a decoder fed with current data only.  Events are listed
newest first, so `earlier` is what happened before an event. -/
structure FeedsCurrent (log : List Event) : Prop where
  chunks_named : ∀ later chunk key earlier,
    log = later ++ .drained chunk key :: earlier →
    chunk.serial = earlier.length
  deltas_bootstrapped : ∀ later chunk role earlier,
    log = later ++ .fed chunk role :: earlier → role ≠ .key →
    KeyAccepted earlier
  first_keys_fed : ∀ later chunk earlier,
    log = later ++ .drained chunk true :: earlier →
    (∀ other, .drained other true ∉ epochOf earlier) →
    .fed chunk .key ∈ later
  frames_forced : ∀ later forced recycled earlier,
    log = later ++ .encoded forced recycled :: earlier →
    ¬KeyAccepted earlier → forced = true
  chunks_current : ∀ later chunk role earlier,
    log = later ++ .fed chunk role :: earlier →
    ∃ key, .drained chunk key ∈ epochOf earlier ∧ (key = true ↔ role = .key)
  shuffled_old : ∀ later chunk ring earlier,
    log = later ++ .fed chunk (.shuffled ring) :: earlier →
    OldInRing chunk ring
  images_named : ∀ later image earlier,
    log = later ++ .stored image :: earlier → image.serial = earlier.length
  pictures_named : ∀ later picture earlier,
    log = later ++ .decoded picture :: earlier →
    picture.serial = earlier.length
  inputs_current : ∀ later forced recycled earlier,
    log = later ++ .encoded forced recycled :: earlier →
    RecycledCurrent recycled earlier
  blends_current : ∀ later picture recycled earlier,
    log = later ++ .blended picture recycled :: earlier →
    .decoded picture ∈ epochOf earlier ∧ RecycledCurrent recycled earlier

/-- The decoder is fed with current and bootstrapped data only. -/
theorem mosh_feeds_current (laws : DoubleLaws) (width height : ℕ)
    (exportMotionVectors : Bool) (calls : List (Frame × HostAnswers)) :
    FeedsCurrent (afterCalls laws width height exportMotionVectors calls).log := by
  have hstage := stageSound_afterCalls laws width height exportMotionVectors calls
  have hallowed := hstage.sound.history
  refine ⟨?_, ?_, hstage.firstKeys, ?_, ?_, ?_, ?_, ?_, ?_, ?_⟩
  · intro later chunk key earlier heq
    exact hallowed later _ earlier heq
  · intro later chunk role earlier heq hrole
    have hrole_allowed : RoleAllowed chunk earlier role := hallowed later _ earlier heq
    cases role with
    | key => exact absurd rfl hrole
    | delta | hold => exact hrole_allowed.2
    | shuffled ring => exact hrole_allowed.2.1
  · intro later forced recycled earlier heq
    exact (hallowed later (.encoded forced recycled) earlier heq).1
  · intro later chunk role earlier heq
    have hrole_allowed : RoleAllowed chunk earlier role := hallowed later _ earlier heq
    cases role with
    | key => exact ⟨true, hrole_allowed, by simp⟩
    | delta | hold | shuffled ring => exact ⟨false, hrole_allowed.1, by simp⟩
  · intro later chunk ring earlier heq
    exact (hallowed later (.fed chunk (.shuffled ring)) earlier heq).2.2
  · intro later image earlier heq
    exact hallowed later (.stored image) earlier heq
  · intro later picture earlier heq
    exact hallowed later (.decoded picture) earlier heq
  · intro later forced recycled earlier heq
    exact (hallowed later (.encoded forced recycled) earlier heq).2
  · intro later picture recycled earlier heq
    exact hallowed later (.blended picture recycled) earlier heq

end CollideOScope.Mosh
