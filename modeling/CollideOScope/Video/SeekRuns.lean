import CollideOScope.Video.SeekWalk

/-!
# Runs that keep the position

FFmpeg loses a picture without a record of it in two ways: a packet that was
read is not submitted, and a picture whose image is refused is not observed.
Without these, the recorded position is sound between requests.
-/

namespace CollideOScope.Video

open List VideoDecoder

namespace VideoDecoder

variable (video : VideoSource) (decoder : VideoDecoder)

/-- A packet of the video stream is read and not submitted, and the walk is not
done again. -/
def LosesPacket (current accepted : Bool) : Prop :=
  match decoder.phase, decoder.ffmpeg.packets with
  | .reading walk _, .video _ :: _ =>
    current = false ∨ accepted = false ∧ walk.selection.continueForward = false
  | _, _ => False

/-- The image of a picture that reached the target is refused, and the walk is
not done again. -/
def LosesPicture (image : Except String ℕ) : Prop :=
  match decoder.phase, image with
  | .decoded walk pts, .error _ =>
    Reached video walk.targetSeconds pts ∧ walk.selection.continueForward = false
  | _, _ => False

/-- The step does not leave FFmpeg ahead of the record, or no later request is
served. -/
def KeepsPosition : SeekLabel → Prop
  | .read current accepted => decoder.cancelled = true ∨ ¬ decoder.LosesPacket current accepted
  | .observe image _ => decoder.cancelled = true ∨ ¬ decoder.LosesPicture video image
  | _ => True

end VideoDecoder

/-- FFmpeg delivers what follows the pictures that have passed, and the recorded
position is that of the last of them. -/
structure Placed (video : VideoSource) (ffmpeg : Ffmpeg)
    (position : Option StreamPosition) (count : ℕ) (remaining : List ℤ) :
    Prop where
  prompt : ffmpeg.Prompt count
  passed : ∃ passed, video.pictures = passed ++ remaining ∧ Records video position passed

def Tracked (video : VideoSource) (decoder : VideoDecoder) : Prop :=
  decoder.cancelled = true ∨ decoder.streamPosition = none ∨
    Placed video decoder.ffmpeg decoder.streamPosition 0 decoder.ffmpeg.pictures

structure Selection.Sound (video : VideoSource) (selection : Selection) : Prop where
  target : ∃ targetSeconds,
    selection.request.targetSeconds = some targetSeconds ∧
      selection.targetSeconds = video.clampTarget targetSeconds
  keyframe : selection.keyframe = video.preceding selection.targetSeconds

structure WalkSound (video : VideoSource) (walk : SeekWalk) (left : ℕ)
    (remaining : List ℤ) : Prop where
  selection : walk.selection.Sound video
  target_le : walk.targetSeconds ≤ walk.selection.targetSeconds
  behind : walk.selection.continueForward = true →
    Behind video walk.selection.targetSeconds remaining
  leads : ∀ pts, SeekSelects video walk.selection.request pts →
    Leads video walk.targetSeconds walk.selection.continueForward left
      walk.newestTerminal remaining pts

def PhaseSound (video : VideoSource) (decoder : VideoDecoder) : Prop :=
  match decoder.phase with
  | .idle | .cached _ _ | .served _ _ | .failed _ _ => Tracked video decoder
  | .seeking selection => selection.Sound video ∧ selection.continueForward = false
  | .walking walk =>
    Placed video decoder.ffmpeg decoder.streamPosition 0 decoder.ffmpeg.pictures ∧
      WalkSound video walk walk.left decoder.ffmpeg.pictures
  | .receiving walk count =>
    Placed video decoder.ffmpeg decoder.streamPosition count decoder.ffmpeg.pictures ∧
      WalkSound video walk (walk.left + 1) decoder.ffmpeg.pictures
  | .reading walk count =>
    decoder.ffmpeg.ready = [] ∧
      Placed video decoder.ffmpeg decoder.streamPosition count decoder.ffmpeg.pictures ∧
        WalkSound video walk (walk.left + 1) decoder.ffmpeg.pictures
  | .decoded walk pts =>
    Placed video decoder.ffmpeg decoder.streamPosition 0 (pts :: decoder.ffmpeg.pictures) ∧
      WalkSound video walk (walk.left + 1) (pts :: decoder.ffmpeg.pictures)
  | .finishing walk reachedEof =>
    Placed video decoder.ffmpeg decoder.streamPosition 0 decoder.ffmpeg.pictures ∧
      walk.selection.Sound video ∧
        ∀ pts, SeekSelects video walk.selection.request pts →
          walk.selection.continueForward = true ∧ reachedEof = false ∨
            reachedEof = true ∧ TerminalTarget video walk.targetSeconds ∧
              (walk.newestTerminal.map FrameMetadata.pts = some pts ∨
                walk.newestTerminal = none ∧ walk.selection.continueForward = true)
  | .selected selection metadata =>
    Tracked video decoder ∧ ∀ pts, SeekSelects video selection.request pts → metadata.pts = pts

section

variable {video : VideoSource} {decoder : VideoDecoder} {selection : Selection} {walk : SeekWalk}
  {count : ℕ} {remaining : List ℤ}

theorem checkWorkCurrent_none {current : Bool} (h : decoder.checkWorkCurrent current = none) :
    current = true ∧ decoder.cancelled = false := by
  cases current <;> cases hcanc : decoder.cancelled <;>
    simp_all [checkWorkCurrent]

theorem checkWorkCurrent_some {current : Bool} {error : DecodeWorkError}
    (h : decoder.checkWorkCurrent current = some error) :
    current = false ∧ error = .superseded ∨
      decoder.cancelled = true ∧ error = .failed .cancelled := by
  cases current <;> cases hcanc : decoder.cancelled <;>
    simp_all [checkWorkCurrent]

theorem Placed.tracked
    (h : Placed video decoder.ffmpeg decoder.streamPosition 0
      decoder.ffmpeg.pictures) : Tracked video decoder :=
  .inr (.inr h)

theorem PhaseSound.fail (h : Tracked video decoder) (request : SeekRequest)
    (error : DecodeWorkError) : PhaseSound video (decoder.fail request error) :=
  h

theorem PhaseSound.failWalk (hsel : selection.Sound video)
    (htrack : selection.continueForward = false → Tracked video decoder) (failure : SeekFailure) :
    PhaseSound video (decoder.failWalk selection failure) := by
  rw [VideoDecoder.failWalk]
  split_ifs with hcont
  · exact ⟨⟨hsel.target, hsel.keyframe⟩, rfl⟩
  · exact fail (htrack (by simpa using hcont)) _ _

theorem PhaseSound.stopWalk (hsel : selection.Sound video)
    (htrack : Tracked video decoder) (error : DecodeWorkError) :
    PhaseSound video (decoder.stopWalk selection error) := by
  cases error with
  | superseded => exact fail htrack _ _
  | failed failure => exact failWalk hsel (fun _ => htrack) failure

theorem PromptPackets.mono {packets : List Packet} {count fewer : ℕ}
    (h : PromptPackets count packets) (hle : fewer ≤ count) :
    PromptPackets fewer packets := by
  induction packets generalizing count fewer with
  | nil => trivial
  | cons packet packets ih =>
    cases packet with
    | other => exact ih h hle
    | video pictures =>
      obtain ⟨hlt, hrest⟩ := h
      refine ⟨hle.trans_lt hlt, ih hrest ?_⟩
      split_ifs
      · exact Nat.succ_le_succ hle
      · exact le_rfl

theorem Placed.restart {ffmpeg : Ffmpeg} {position : Option StreamPosition}
    (h : Placed video ffmpeg position count remaining) :
    Placed video ffmpeg position 0 remaining := by
  refine ⟨h.prompt.mono ?_, h.passed⟩
  split_ifs
  · exact Nat.zero_le _
  · exact le_rfl

theorem boundedContinuousWalkTarget_le (position : Option StreamPosition)
    (targetSeconds : ℚ) (maxForwardPeriods : Option ℕ) :
    boundedContinuousWalkTarget video position targetSeconds maxForwardPeriods ≤ targetSeconds := by
  rw [boundedContinuousWalkTarget.eq_def]
  cases maxForwardPeriods with
  | none => exact le_rfl
  | some periods =>
    cases position with
    | none => exact le_rfl
    | some recorded =>
      dsimp only
      split_ifs
      · exact le_rfl
      · exact min_le_left _ _

theorem PhaseSound.walk_continued
    (hselection : selection.Sound video)
    (hplaced : Placed video decoder.ffmpeg decoder.streamPosition 0 decoder.ffmpeg.pictures)
    {identity : Option CodecFrameIdentity}
    (hcont : canContinueForward video decoder.streamPosition
      selection.targetSeconds selection.keyframe.sourceSeconds identity = true)
    (hfwd : selection.continueForward = true) :
    PhaseSound video (decoder.walk video selection) := by
  obtain ⟨passed, hpics, hrecords⟩ := hplaced.passed
  rw [hselection.keyframe] at hcont
  refine ⟨hplaced, hselection, ?_, ?_, ?_⟩
  · simp only [hfwd, if_true]
    exact boundedContinuousWalkTarget_le _ _ _
  · intro _
    exact ⟨passed, hpics, (canContinueForward_cases hpics hrecords hcont).1⟩
  · intro pts hsel
    obtain ⟨targetSeconds, htgt, hwalk⟩ := hsel.selects
    obtain ⟨requested, hreq, hclamp⟩ := hselection.target
    rw [hreq] at htgt
    cases htgt
    rw [← hclamp] at hwalk
    have hleads := leads_of_canContinueForward hpics hrecords hcont hwalk maxSeekDecodeFrames
    simp only [hfwd, if_true]
    rw [hsel.unbounded]
    exact hleads

theorem PhaseSound.walk_sought (hselection : selection.Sound video)
    (hfwd : selection.continueForward = false) (hpos : decoder.streamPosition = none)
    (hffmpeg : decoder.ffmpeg = video.sought selection.keyframe.pts) :
    PhaseSound video (decoder.walk video selection) := by
  have hmem := (video.preceding_mem selection.targetSeconds).1
  rw [← hselection.keyframe] at hmem
  have hpics : decoder.ffmpeg.pictures = video.fromKeyframe selection.targetSeconds := by
    rw [hffmpeg, video.sought_pictures _ hmem, VideoSource.fromKeyframe, hselection.keyframe]
  refine ⟨⟨?_, ?_⟩, hselection, ?_, ?_, ?_⟩
  · rw [walk, hffmpeg]
    exact video.sought_prompt _ hmem
  · refine ⟨video.pictures.takeWhile fun picture =>
      picture < (video.preceding selection.targetSeconds).pts, ?_, ?_⟩
    · rw [walk, hpics, VideoSource.fromKeyframe, takeWhile_append_dropWhile]
    · intro recorded hrec
      rw [walk, hpos] at hrec
      cases hrec
  · simp [hfwd]
  · intro hcont
    rw [hfwd] at hcont
    cases hcont
  · intro pts hsel
    obtain ⟨targetSeconds, htgt, hwalk⟩ := hsel.selects
    obtain ⟨requested, hreq, hclamp⟩ := hselection.target
    rw [hreq] at htgt
    cases htgt
    rw [← hclamp] at hwalk
    have hleads := hwalk.leads none
    rw [← hpics] at hleads
    simp only [hfwd, Bool.false_eq_true, if_false]
    exact hleads

theorem PhaseSound.begin (htrack : Tracked video decoder) (request : SeekRequest) (current : Bool) :
    PhaseSound video (decoder.begin video request current) := by
  rw [VideoDecoder.begin]
  split
  · exact fail htrack _ _
  · rename_i targetSeconds htgt
    split
    · exact fail htrack _ _
    · rename_i hcheck
      dsimp only
      split
      · exact htrack
      · split_ifs with hcont
        · refine walk_continued ⟨⟨targetSeconds, htgt, rfl⟩, rfl⟩ ?_ hcont hcont
          obtain hcanc | hnone | hplaced := htrack
          · rw [(checkWorkCurrent_none hcheck).2] at hcanc
            cases hcanc
          · rw [hnone] at hcont
            cases hcont
          · exact hplaced
        · exact ⟨⟨⟨targetSeconds, htgt, rfl⟩, rfl⟩, by simpa using hcont⟩

/-- `seek_to_preceding_keyframe`. -/
theorem PhaseSound.seek (hsel : selection.Sound video)
    (hfwd : selection.continueForward = false) (outcome : SeekOutcome) (current : Bool) :
    PhaseSound video (decoder.seek video selection outcome current) := by
  rw [VideoDecoder.seek]
  split_ifs with hcanc
  · exact fail (.inl hcanc) _ _
  · cases outcome with
    | failed ffmpeg => exact .inr (.inl rfl)
    | sought =>
      dsimp only
      split
      · exact .inr (.inl rfl)
      · exact walk_sought hsel hfwd rfl rfl

theorem PhaseSound.serve (htrack : Tracked video decoder)
    (request : SeekRequest) (metadata : FrameMetadata) (current : Bool) :
    PhaseSound video (decoder.serve request metadata current) := by
  rw [VideoDecoder.serve]
  split
  · exact fail htrack _ _
  · exact htrack

theorem PhaseSound.iterate
    (hplaced : Placed video decoder.ffmpeg decoder.streamPosition 0 decoder.ffmpeg.pictures)
    (hwalk : WalkSound video walk walk.left decoder.ffmpeg.pictures)
    (current : Bool) : PhaseSound video (decoder.iterate walk current) := by
  rw [VideoDecoder.iterate]
  split
  · rename_i hleft
    rw [hleft] at hwalk
    refine ⟨hplaced, hwalk.selection, ?_⟩
    intro pts hsel
    exact .inl ⟨(hwalk.leads pts hsel).continueForward_of_exhausted, rfl⟩
  · rename_i left hleft
    rw [hleft] at hwalk
    split
    · exact stopWalk hwalk.selection hplaced.tracked _
    · exact ⟨hplaced, hwalk.selection, hwalk.target_le, hwalk.behind, hwalk.leads⟩

open Ffmpeg (Prompt)

theorem PhaseSound.receive
    (hplaced : Placed video decoder.ffmpeg decoder.streamPosition count decoder.ffmpeg.pictures)
    (hwalk : WalkSound video walk (walk.left + 1) decoder.ffmpeg.pictures) (current : Bool) :
    PhaseSound video (decoder.receive walk count current) := by
  rw [VideoDecoder.receive]
  split
  · exact stopWalk hwalk.selection hplaced.restart.tracked _
  · split
    · rename_i pts ready hready
      have hpics : decoder.ffmpeg.pictures = pts :: { decoder.ffmpeg with ready }.pictures := by
        simp [Ffmpeg.pictures, hready]
      rw [hpics] at hplaced hwalk
      refine ⟨⟨?_, hplaced.passed⟩, hwalk⟩
      have hprompt := hplaced.prompt
      simp only [Prompt, hready, reduceCtorEq, if_false] at hprompt
      simpa only [Prompt, ite_self] using hprompt
    · rename_i hready
      exact ⟨hready, hplaced, hwalk⟩

theorem PhaseSound.read (hph : decoder.phase = .reading walk count)
    (hready : decoder.ffmpeg.ready = [])
    (hplaced : Placed video decoder.ffmpeg decoder.streamPosition count decoder.ffmpeg.pictures)
    (hwalk : WalkSound video walk (walk.left + 1) decoder.ffmpeg.pictures) {current accepted : Bool}
    (hkeeps : decoder.cancelled = true ∨ ¬ decoder.LosesPacket current accepted) :
    PhaseSound video (decoder.read walk count current accepted) := by
  have hprompt := hplaced.prompt
  simp only [Prompt, hready, if_true] at hprompt
  rw [VideoDecoder.read]
  split
  · rename_i hpkts
    split
    · rename_i pts ready hdelayed
      have hpics : decoder.ffmpeg.pictures = pts ::
          { decoder.ffmpeg with ready, delayed := [] }.pictures := by
        simp [Ffmpeg.pictures, hready, hpkts, hdelayed]
      rw [hpics] at hplaced hwalk
      refine ⟨⟨?_, hplaced.passed⟩, hwalk⟩
      simp only [Prompt, hpkts]
      trivial
    · rename_i hdelayed
      have hpics : decoder.ffmpeg.pictures = [] := by
        simp [Ffmpeg.pictures, hready, hpkts, hdelayed]
      refine ⟨hplaced.restart, hwalk.selection, ?_⟩
      intro pts hsel
      have hleads := hwalk.leads pts hsel
      rw [hpics] at hleads
      exact .inr ⟨rfl, hleads.of_ended⟩
  · rename_i packet packets hpkts
    have hpics : decoder.ffmpeg.pictures = packet.pictures ++
        { decoder.ffmpeg with packets }.pictures := by
      simp [Ffmpeg.pictures, hready, hpkts]
    rw [hpkts] at hprompt
    dsimp only
    split
    · rename_i error hcheck
      refine stopWalk hwalk.selection ?_ error
      cases packet with
      | other =>
        rw [hpics] at hplaced
        refine .inr (.inr ⟨?_, hplaced.passed⟩)
        refine hprompt.mono ?_
        simp [hready]
      | video pictures =>
        obtain ⟨hcur, -⟩ | ⟨hcanc, -⟩ := checkWorkCurrent_some hcheck
        · refine .inl (hkeeps.resolve_right fun hnot => hnot ?_)
          simp only [VideoDecoder.LosesPacket, hph, hpkts]
          exact .inl hcur
        · exact .inl hcanc
    · rename_i hcheck
      obtain ⟨-, hcanc⟩ := checkWorkCurrent_none hcheck
      cases packet with
      | other =>
        rw [hpics] at hplaced hwalk
        refine ⟨hready, ⟨?_, hplaced.passed⟩, hwalk⟩
        simp only [Prompt, hready, if_true]
        exact hprompt
      | video pictures =>
        obtain ⟨hlt, hrest⟩ := hprompt
        dsimp only
        rw [if_neg (not_le.mpr hlt)]
        split_ifs with hacc
        · have hsame : decoder.ffmpeg.pictures = { decoder.ffmpeg with
              packets
              ready := decoder.ffmpeg.ready ++ pictures }.pictures := by
            simp [Ffmpeg.pictures, hready, hpkts, Packet.pictures]
          rw [hsame] at hplaced hwalk
          refine ⟨⟨?_, hplaced.passed⟩, hwalk⟩
          simp only [Prompt, hready, nil_append]
          split_ifs at hrest ⊢
          · exact hrest
          · exact hrest
        · refine failWalk hwalk.selection ?_ _
          intro hfwd
          refine .inl (hkeeps.resolve_right fun hnot => hnot ?_)
          simp only [VideoDecoder.LosesPacket, hph, hpkts]
          exact .inr ⟨by simpa using hacc, hfwd⟩

theorem WalkSound.skip {left : ℕ} {picture : ℤ}
    (h : WalkSound video walk (left + 1) (picture :: remaining))
    (hshort : ¬ Reached video walk.targetSeconds picture) {newest : Option FrameMetadata}
    (hnew : TerminalTarget video walk.targetSeconds → newest.map FrameMetadata.pts = some picture) :
    WalkSound video { walk with newestTerminal := newest } left remaining := by
  refine ⟨h.selection, h.target_le, ?_, ?_⟩
  · intro hfwd
    obtain ⟨passed, hpics, hpassed⟩ := h.behind hfwd
    refine ⟨passed ++ [picture], ?_, ?_⟩
    · rw [hpics, append_assoc, singleton_append]
    · intro other hother
      obtain hpre | hlast := mem_append.mp hother
      · exact hpassed other hpre
      · rw [mem_singleton.mp hlast]
        exact fun hreach => hshort (h.target_le.trans hreach)
  · intro pts hsel
    exact (h.leads pts hsel).skip hshort hnew

theorem PhaseSound.observe {pts : ℤ}
    (hph : decoder.phase = .decoded walk pts)
    (hplaced : Placed video decoder.ffmpeg decoder.streamPosition 0
      (pts :: decoder.ffmpeg.pictures))
    (hwalk : WalkSound video walk (walk.left + 1) (pts :: decoder.ffmpeg.pictures))
    {image : Except String ℕ} {slot : Bool}
    (hkeeps : decoder.cancelled = true ∨ ¬ decoder.LosesPicture video image) :
    PhaseSound video (decoder.observe video walk pts image slot) := by
  obtain ⟨passed, hpics, -⟩ := hplaced.passed
  have hobs : Placed video decoder.ffmpeg
      (some ⟨video.sourceSeconds pts, pts⟩) 0 decoder.ffmpeg.pictures := by
    refine ⟨hplaced.prompt, passed ++ [pts], ?_, ?_⟩
    · rw [hpics, append_assoc, singleton_append]
    · intro recorded hrec
      cases hrec
      exact ⟨pts, getLast?_concat, rfl⟩
  rw [observe.eq_def]
  dsimp only
  split_ifs with hreach hterm htail
  · cases image with
    | error error =>
      refine failWalk hwalk.selection ?_ _
      intro hfwd
      refine .inl (hkeeps.resolve_right fun hnot => hnot ?_)
      simp only [LosesPicture, hph]
      exact ⟨hreach, hfwd⟩
    | ok bytes =>
      refine ⟨.inr (.inr hobs), ?_⟩
      intro other hsel
      exact (hwalk.leads other hsel).of_reached hreach
  · exact ⟨hobs, hwalk.skip hreach fun _ => rfl⟩
  · exact ⟨hobs, hwalk.skip hreach fun h => absurd h hterm⟩
  · exact ⟨hobs, hwalk.skip hreach fun h => absurd h hterm⟩

theorem PhaseSound.finish {reachedEof : Bool}
    (hplaced : Placed video decoder.ffmpeg decoder.streamPosition 0 decoder.ffmpeg.pictures)
    (hselection : walk.selection.Sound video)
    (hleads : ∀ pts, SeekSelects video walk.selection.request pts →
      walk.selection.continueForward = true ∧ reachedEof = false ∨
        reachedEof = true ∧ TerminalTarget video walk.targetSeconds ∧
          (walk.newestTerminal.map FrameMetadata.pts = some pts ∨
            walk.newestTerminal = none ∧ walk.selection.continueForward = true))
    (current : Bool) (image : Except String ℕ) (slot : Bool) :
    PhaseSound video (decoder.finish video walk reachedEof current image slot) := by
  rw [VideoDecoder.finish]
  by_cases hterm : reachedEof = true ∧ TerminalTarget video walk.targetSeconds
  · rw [if_pos hterm]
    split
    · exact failWalk hselection (fun _ => hplaced.tracked) _
    · rename_i metadata hnew
      split
      · exact stopWalk hselection hplaced.tracked _
      · cases image with
        | error error => exact failWalk hselection (fun _ => hplaced.tracked) _
        | ok bytes =>
          refine ⟨hplaced.tracked, ?_⟩
          intro pts hsel
          obtain ⟨-, hshort⟩ | ⟨-, -, hsome | ⟨hnone, -⟩⟩ := hleads pts hsel
          · rw [hterm.1] at hshort
            cases hshort
          · rw [hnew] at hsome
            exact Option.some.inj hsome
          · rw [hnew] at hnone
            cases hnone
  · rw [if_neg hterm]
    exact failWalk hselection (fun _ => hplaced.tracked) _

end

end CollideOScope.Video
