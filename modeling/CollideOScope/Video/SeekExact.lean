import CollideOScope.Video.SeekRuns

/-!
# Going forward selects what seeking selects

Runs in which no picture is lost unrecorded: a request selects the picture that
a walk from the indexed keyframe selects, and it does so if nothing outside
prevents it.  Two runs that lose a picture select the one after it.
-/

namespace CollideOScope.Video

open List Option PhaseSound VideoDecoder Ffmpeg SeekWalk SeekLabel

section

variable {video : VideoSource} {decoder next : VideoDecoder}

theorem PhaseSound.tracked (h : PhaseSound video decoder)
    (hresting : decoder.Resting) : Tracked video decoder := by
  rw [eq_def] at h
  rw [Resting.eq_def] at hresting
  cases hph : decoder.phase <;> rw [hph] at h hresting
  all_goals first
    | exact h
    | exact h.1
    | exact hresting.elim

theorem PhaseSound.cancel (h : PhaseSound video decoder) :
    PhaseSound video { decoder with cancelled := true } := by
  rw [eq_def] at h ⊢
  cases hph : decoder.phase <;> simp only [hph] at h ⊢
  case selected => exact ⟨.inl rfl, h.2⟩
  all_goals first
    | exact h
    | exact .inl rfl

theorem PhaseSound.step (h : PhaseSound video decoder) {label : SeekLabel}
    (hkeeps : decoder.KeepsPosition video label)
    (hstep : seekStep video decoder label = some next) :
    PhaseSound video next := by
  cases label with simp only [seekStep] at hstep
  | cancel =>
    cases hstep
    exact h.cancel
  | begin request current =>
    split_ifs at hstep with hresting
    cases hstep
    exact begin (h.tracked hresting) request current
  | serve current =>
    split at hstep
    · rename_i request metadata hph
      cases hstep
      rw [eq_def, hph] at h
      exact serve h request metadata current
    · cases hstep
  | seek outcome current =>
    split at hstep
    · rename_i selection hph
      cases hstep
      rw [eq_def, hph] at h
      exact seek h.1 h.2 outcome current
    · cases hstep
  | iterate current =>
    split at hstep
    · rename_i walk hph
      cases hstep
      rw [eq_def, hph] at h
      exact iterate h.1 h.2 current
    · cases hstep
  | receive current =>
    split at hstep
    · rename_i walk count hph
      cases hstep
      rw [eq_def, hph] at h
      exact receive h.1 h.2 current
    · cases hstep
  | read current accepted =>
    split at hstep
    · rename_i walk count hph
      cases hstep
      rw [eq_def, hph] at h
      exact read hph h.1 h.2.1 h.2.2 hkeeps
    · cases hstep
  | observe image slot =>
    split at hstep
    · rename_i walk pts hph
      cases hstep
      rw [eq_def, hph] at h
      exact observe hph h.1 h.2 hkeeps
    · cases hstep
  | finish current image slot =>
    split at hstep
    · rename_i walk reachedEof hph
      cases hstep
      rw [eq_def, hph] at h
      exact finish h.1 h.2.1 h.2.2 current image slot
    · cases hstep

theorem phaseSound_of_reachableBy
    (h : (seekMachine video).ReachableBy
      (fun decoder label => decoder.KeepsPosition video label) decoder) :
    PhaseSound video decoder := by
  refine Machine.ReachableBy.invariant ?_ ?_ h
  · rintro _ ⟨ffmpeg, rfl⟩
    exact .inr (.inl rfl)
  · intro decoder label next hsound hkeeps hstep
    exact hsound.step hkeeps hstep

end

/-- The request stays current, FFmpeg does what it is asked, and images are
made. -/
def SeekLabel.Granted : SeekLabel → Prop
  | .cancel => False
  | .begin _ current | .serve current => current = true
  | .seek outcome current => outcome = .sought ∧ current = true
  | .iterate current | .receive current => current = true
  | .read current accepted => current = true ∧ accepted = true
  | .observe image _ => ∃ bytes, image = .ok bytes
  | .finish current image _ => current = true ∧ ∃ bytes, image = .ok bytes

def SeekPhase.active : SeekPhase → Option SeekRequest
  | .seeking selection => some selection.request
  | .walking walk | .receiving walk _ | .reading walk _ | .decoded walk _
  | .finishing walk _ => some walk.selection.request
  | _ => none

def Ffmpeg.size (ffmpeg : Ffmpeg) : ℕ := ffmpeg.pictures.length + ffmpeg.packets.length

def SeekWalk.again (video : VideoSource) (walk : SeekWalk) : ℕ :=
  if walk.selection.continueForward then 4 * (video.sought walk.selection.keyframe.pts).size + 5
  else 0

def VideoDecoder.rank (video : VideoSource) (decoder : VideoDecoder) : ℕ :=
  match decoder.phase with
  | .seeking selection => 4 * (video.sought selection.keyframe.pts).size + 4
  | .walking walk => walk.again video + 4 * decoder.ffmpeg.size + 3
  | .receiving walk _ => walk.again video + 4 * decoder.ffmpeg.size + 2
  | .reading walk _ => walk.again video + 4 * decoder.ffmpeg.size + 1
  | .decoded walk _ => walk.again video + 4 * decoder.ffmpeg.size + 4
  | .finishing walk _ => walk.again video + 4 * decoder.ffmpeg.size
  | _ => 0

/-- The request of a decoder selects a picture, or gets on. -/
structure Advances (video : VideoSource) (decoder : VideoDecoder)
    (request : SeekRequest) (next : VideoDecoder) : Prop where
  cancelled : next.cancelled = false
  advances : (∃ selection metadata, next.phase = .selected selection metadata ∧
      selection.request = request) ∨
    next.phase.active = some request ∧ next.rank video < decoder.rank video

section

variable {video : VideoSource} {decoder : VideoDecoder} {request : SeekRequest} {pts : ℤ}

theorem checkWorkCurrent_true (h : decoder.cancelled = false) :
    decoder.checkWorkCurrent true = none := by
  simp [checkWorkCurrent, h]

variable {ffmpeg : Ffmpeg} {ready : List ℤ} {picture : ℤ}

theorem Ffmpeg.size_ready (h : ffmpeg.ready = picture :: ready) :
    ffmpeg.size = { ffmpeg with ready }.size + 1 := by
  simp only [size, pictures, h, cons_append, length_cons]
  omega

theorem Ffmpeg.size_delayed (hpkts : ffmpeg.packets = [])
    (hready : ffmpeg.ready = []) (h : ffmpeg.delayed = picture :: ready) :
    ffmpeg.size = { ffmpeg with ready, delayed := [] }.size + 1 := by
  simp [size, pictures, hpkts, hready, h]

theorem Ffmpeg.size_packets {packet : Packet} {packets : List Packet}
    (hready : ffmpeg.ready = []) (h : ffmpeg.packets = packet :: packets) :
    ffmpeg.size = { ffmpeg with packets, ready := packet.pictures }.size + 1 := by
  simp only [size, pictures, h, hready, flatMap_cons, nil_append, length_cons]
  omega

theorem Advances.failWalk {walk : SeekWalk} (hcanc : decoder.cancelled = false)
    (hfwd : walk.selection.continueForward = true)
    (hrank : walk.again video ≤ decoder.rank video) (failure : SeekFailure) :
    Advances video decoder walk.selection.request (decoder.failWalk walk.selection failure) := by
  rw [VideoDecoder.failWalk, if_pos hfwd]
  refine ⟨hcanc, .inr ⟨rfl, ?_⟩⟩
  rw [again, if_pos hfwd] at hrank
  exact Nat.lt_of_lt_of_le (Nat.lt_succ_self _) hrank

open VideoDecoder (rank)

theorem PhaseSound.progress (h : PhaseSound video decoder) (hcanc : decoder.cancelled = false)
    (hact : decoder.phase.active = some request) (hsel : SeekSelects video request pts) :
    ∃ label next, label.Granted ∧ seekStep video decoder label = some next ∧
      Advances video decoder request next := by
  rw [eq_def] at h
  have hcheck := checkWorkCurrent_true hcanc
  cases hph : decoder.phase with simp only [hph, SeekPhase.active, some.injEq] at h hact
  | idle | cached | served | selected | failed => simp at hact
  | seeking selection =>
    subst hact
    refine ⟨.seek .sought true, _, ⟨rfl, rfl⟩, by
      rw [seekStep, hph], ?_⟩
    rw [VideoDecoder.seek, if_neg (by simp [hcanc])]
    dsimp only
    rw [checkWorkCurrent_true (by exact hcanc)]
    refine ⟨hcanc, .inr ⟨rfl, ?_⟩⟩
    simp only [rank, hph, walk, again, h.2, Bool.false_eq_true, if_false]
    omega
  | walking walk =>
    subst hact
    refine ⟨.iterate true, _, rfl, by rw [seekStep, hph], ?_⟩
    rw [VideoDecoder.iterate]
    split
    · refine ⟨hcanc, .inr ⟨rfl, ?_⟩⟩
      simp only [rank, hph]
      omega
    · rw [hcheck]
      refine ⟨hcanc, .inr ⟨rfl, ?_⟩⟩
      simp only [rank, hph, again]
      omega
  | receiving walk count =>
    subst hact
    refine ⟨.receive true, _, rfl, by rw [seekStep, hph], ?_⟩
    rw [VideoDecoder.receive, hcheck]
    dsimp only
    split
    · rename_i picture ready hready
      have hsize := size_ready hready
      refine ⟨hcanc, .inr ⟨rfl, ?_⟩⟩
      simp only [rank, hph]
      omega
    · refine ⟨hcanc, .inr ⟨rfl, ?_⟩⟩
      simp only [rank, hph]
      omega
  | reading walk count =>
    subst hact
    obtain ⟨hready, hplaced, -⟩ := h
    have hprompt := hplaced.prompt
    simp only [Prompt, hready, if_true] at hprompt
    refine ⟨.read true true, _, ⟨rfl, rfl⟩, by rw [seekStep, hph], ?_⟩
    rw [VideoDecoder.read]
    split
    · rename_i hpkts
      split
      · rename_i picture ready hdelayed
        have hsize := size_delayed hpkts hready hdelayed
        refine ⟨hcanc, .inr ⟨rfl, ?_⟩⟩
        simp only [rank, hph]
        omega
      · refine ⟨hcanc, .inr ⟨rfl, ?_⟩⟩
        simp only [rank, hph]
        omega
    · rename_i packet packets hpkts
      have hsize := size_packets hready hpkts
      rw [hpkts] at hprompt
      dsimp only
      rw [checkWorkCurrent_true (by exact hcanc)]
      cases packet with
      | other =>
        refine ⟨hcanc, .inr ⟨rfl, ?_⟩⟩
        simp only [rank, hph, hready, Packet.pictures] at hsize ⊢
        omega
      | video pictures =>
        dsimp only
        rw [if_neg (not_le.mpr hprompt.1), if_neg (by simp)]
        refine ⟨hcanc, .inr ⟨rfl, ?_⟩⟩
        simp only [rank, hph, hready, Packet.pictures, nil_append] at hsize ⊢
        omega
  | decoded walk picture =>
    subst hact
    refine ⟨.observe (.ok 0) true, _, ⟨0, rfl⟩, by rw [seekStep, hph], ?_⟩
    rw [observe.eq_def]
    dsimp only
    split_ifs
    · exact ⟨hcanc, .inl ⟨_, _, rfl, rfl⟩⟩
    all_goals
      refine ⟨hcanc, .inr ⟨rfl, ?_⟩⟩
      simp only [rank, hph, again, observeDecodedFrame, cacheObservedReverseTailFrame]
      omega
  | finishing walk reachedEof =>
    subst hact
    refine ⟨.finish true (.ok 0) true, _, ⟨rfl, 0, rfl⟩, by
      rw [seekStep, hph], ?_⟩
    have hagain : walk.again video ≤ decoder.rank video := by
      simp only [rank, hph]
      omega
    rw [VideoDecoder.finish]
    obtain ⟨hfwd, rfl⟩ | ⟨rfl, hterm, hnew | ⟨hnone, hfwd⟩⟩ := h.2.2 pts hsel
    · rw [if_neg (by simp)]
      exact .failWalk hcanc hfwd hagain _
    · obtain ⟨metadata, hsome, -⟩ := map_eq_some_iff.mp hnew
      rw [if_pos ⟨rfl, hterm⟩, hsome]
      dsimp only
      rw [hcheck]
      exact ⟨hcanc, .inl ⟨_, _, rfl, rfl⟩⟩
    · rw [if_pos ⟨rfl, hterm⟩, hnone]
      exact .failWalk hcanc hfwd hagain _

theorem SeekLabel.Granted.keepsPosition {label : SeekLabel}
    (h : label.Granted) : decoder.KeepsPosition video label := by
  cases label with
  | read current accepted =>
    obtain ⟨rfl, rfl⟩ := h
    refine .inr fun hloses => ?_
    simp only [LosesPacket] at hloses
    split at hloses
    · simp at hloses
    · exact hloses
  | observe image slot =>
    obtain ⟨bytes, rfl⟩ := h
    refine .inr fun hloses => ?_
    simp only [LosesPicture] at hloses
    split at hloses
    · rename_i hok
      cases hok
    · exact hloses
  | cancel => exact h.elim
  | begin | serve | seek | iterate | receive | finish => trivial

theorem PhaseSound.completes (h : PhaseSound video decoder) (hcanc : decoder.cancelled = false)
    (hact : decoder.phase.active = some request) (hsel : SeekSelects video request pts) :
    ∃ labels, (∀ label ∈ labels, Granted label) ∧
      ∃ next selection metadata,
        (seekMachine video).exec decoder labels = some next ∧
          next.phase = .selected selection metadata ∧
            selection.request = request ∧ metadata.pts = pts := by
  induction hrank : decoder.rank video using Nat.strong_induction_on generalizing decoder with
  | _ rank ih =>
    obtain ⟨label, next, hgranted, hstep, hnext, hdone | ⟨hmore, hlt⟩⟩ := h.progress hcanc hact hsel
    · obtain ⟨selection, metadata, hph, hreq⟩ := hdone
      have hsound := h.step hgranted.keepsPosition hstep
      rw [eq_def, hph] at hsound
      refine ⟨[label], by simpa using hgranted, next, selection, metadata, ?_, hph, hreq, ?_⟩
      · exact (congrArg (bind · _) hstep).trans rfl
      · exact hsound.2 pts (hreq ▸ hsel)
    · obtain ⟨labels, hlabels, last, selection, metadata, hexec, hlast⟩ :=
        ih _ (hrank ▸ hlt) (h.step hgranted.keepsPosition hstep) hnext hmore rfl
      refine ⟨label :: labels, ?_, last, selection, metadata, ?_, hlast⟩
      · intro other hother
        obtain rfl | hmem := mem_cons.mp hother
        · exact hgranted
        · exact hlabels other hmem
      · exact (congrArg (bind · _) hstep).trans hexec

end

/-- A request without a bound selects the picture that a walk from the keyframe
selects. -/
structure SelectsAsSeek (video : VideoSource) (decoder : VideoDecoder) : Prop where
  /-- What is returned without the cache is that picture. -/
  selected : ∀ selection metadata pts,
    decoder.phase = .selected selection metadata →
      SeekSelects video selection.request pts → metadata.pts = pts
  /-- A seek is skipped only behind the picture. -/
  continued : ∀ walk, decoder.phase = .walking walk →
    walk.selection.continueForward = true →
      Behind video walk.selection.targetSeconds decoder.ffmpeg.pictures
  /-- The next request that the cache does not serve returns that picture, if
  every answer from outside is granted. -/
  returned : decoder.Resting → decoder.cancelled = false →
    ∀ request pts, SeekSelects video request pts →
      (∀ targetSeconds, request.targetSeconds = some targetSeconds →
        decoder.reverseHit video request (video.clampTarget targetSeconds) = none) →
      ∃ labels, (∀ label ∈ labels, Granted label) ∧
        ∃ next selection metadata,
          (seekMachine video).exec decoder (.begin request true :: labels) = some next ∧
            next.phase = .selected selection metadata ∧
              selection.request = request ∧ metadata.pts = pts

/-- In every run that loses no picture, going forward selects what seeking
selects. -/
theorem forward_selects_as_seek {video : VideoSource} {decoder : VideoDecoder}
    (h : (seekMachine video).ReachableBy
      (fun decoder label => decoder.KeepsPosition video label) decoder) :
    SelectsAsSeek video decoder := by
  have hsound := phaseSound_of_reachableBy h
  refine ⟨?_, ?_, ?_⟩
  · intro selection metadata pts hphase hselects
    rw [eq_def, hphase] at hsound
    exact hsound.2 pts hselects
  · intro walk hphase hforward
    rw [eq_def, hphase] at hsound
    exact hsound.2.behind hforward
  · intro hresting hcancelled request pts hselects hmiss
    have hbegun := begin (hsound.tracked hresting) request true
    obtain ⟨targetSeconds, htarget, -⟩ := hselects.selects
    have hbegin : (decoder.begin video request true).cancelled = false ∧
        (decoder.begin video request true).phase.active = some request := by
      simp only [VideoDecoder.begin, htarget, checkWorkCurrent_true hcancelled,
        hmiss targetSeconds htarget]
      split_ifs
      · exact ⟨hcancelled, rfl⟩
      · exact ⟨hcancelled, rfl⟩
    obtain ⟨labels, hlabels, next, selection, metadata, hexec, hlast⟩ :=
      hbegun.completes hbegin.1 hbegin.2 hselects
    refine ⟨labels, hlabels, next, selection, metadata, ?_, hlast⟩
    have hstep : (seekMachine video).step decoder (.begin request true) =
        some (decoder.begin video request true) := if_pos hresting
    exact (congrArg (bind · _) hstep).trans hexec

def samplePictures : List ℤ := [0, 1, 2, 3]

def sampleSought (_ : ℤ) : Ffmpeg where
  packets := samplePictures.map fun pts => .video [pts]
  ready := []
  delayed := []

theorem samplePictures_increasing : samplePictures.Pairwise (· < ·) := by decide

theorem samplePictures_ne : samplePictures ≠ [] := by decide

theorem sampleSought_pictures : ∀ pts ∈ [(0 : ℤ)], (sampleSought pts).pictures =
    samplePictures.dropWhile fun picture => picture < pts := by decide

theorem sampleSought_prompt : ∀ pts ∈ [(0 : ℤ)], (sampleSought pts).Prompt 0 := by
  simp [sampleSought, samplePictures, Prompt, PromptPackets, maxPacketsWithoutFrame]

theorem sampleKeyframes_sublist : [(0 : ℤ)].Sublist samplePictures := by decide

/-- Four pictures at one a second; each has a packet of its own, and the first
is a keyframe. -/
def sampleSource : VideoSource where
  round := id
  pictures := samplePictures
  startPts := 0
  timeBase := 1
  durationSeconds := 0
  fps := 1
  keyframes := [0]
  sought := sampleSought
  maxCacheBytes := 0
  maxCacheFrames := 0
  round_monotone := monotone_id
  pictures_increasing := samplePictures_increasing
  pictures_ne := samplePictures_ne
  timeBase_nonneg := zero_le_one
  keyframes_sublist := sampleKeyframes_sublist
  keyframes_first := rfl
  sought_pictures := sampleSought_pictures
  sought_prompt := sampleSought_prompt

def sampleRequest : SeekRequest where
  targetSeconds := some 2
  sourceGeneration := 0
  previousAcceptedIdentity := none
  maxForwardPeriods := none

def sampleObserve (image : Except String ℕ) : List SeekLabel :=
  [.iterate true, .receive true, .read true true, .receive true, .observe image true]

/-- The image of the picture that was selected is refused, and the request is
made again. -/
def sampleRefusal : List SeekLabel :=
  [.begin sampleRequest true, .seek .sought true] ++
    sampleObserve (.ok 4) ++ sampleObserve (.ok 4) ++
      sampleObserve (.error "pool") ++ [.begin sampleRequest true] ++ sampleObserve (.ok 4)

/-- The request is superseded when the packet of the picture has been read, and
it is made again. -/
def sampleSupersession : List SeekLabel :=
  [.begin sampleRequest true, .seek .sought true] ++
    sampleObserve (.ok 4) ++ sampleObserve (.ok 4) ++
      [.iterate true, .receive true, .read false true,
        .begin sampleRequest true] ++ sampleObserve (.ok 4)

theorem sampleRequest_selects : SeekSelects sampleSource sampleRequest 2 := by
  refine ⟨rfl, 2, rfl, [0, 1], [3], ?_, ?_, .inl ?_⟩
  · decide +kernel
  · decide +kernel
  · decide +kernel

def sampleLater : SeekPhase := .selected ⟨sampleRequest, 2, ⟨0, 0⟩, true⟩ ⟨0, 3, 3⟩

variable {labels : List SeekLabel}

theorem not_selectsAsSeek_of_later
    (h : ((seekMachine sampleSource).exec (.opened (sampleSought 0))
      labels).map phase = some sampleLater) :
    ∃ decoder, (seekMachine sampleSource).exec (.opened (sampleSought 0))
      labels = some decoder ∧ ¬ SelectsAsSeek sampleSource decoder := by
  obtain ⟨decoder, hexec, hph⟩ := map_eq_some_iff.mp h
  refine ⟨decoder, hexec, ?_⟩
  intro hsel
  have hpts := hsel.selected _ _ 2 hph sampleRequest_selects
  exact absurd hpts (by decide)

/-- Both runs select the picture after the one that a seek selects. -/
theorem later_picture_is_selected :
    (∃ decoder, (seekMachine sampleSource).exec (.opened (sampleSought 0))
        sampleRefusal = some decoder ∧ ¬ SelectsAsSeek sampleSource decoder) ∧
      ∃ decoder, (seekMachine sampleSource).exec (.opened (sampleSought 0))
        sampleSupersession = some decoder ∧ ¬ SelectsAsSeek sampleSource decoder := by
  constructor
  · exact not_selectsAsSeek_of_later (by decide +kernel)
  · exact not_selectsAsSeek_of_later (by decide +kernel)

theorem run_of_granted {video : VideoSource} {decoder next : VideoDecoder}
    (hexec : (seekMachine video).exec decoder labels = some next)
    (hgranted : ∀ label ∈ labels, Granted label) :
    (seekMachine video).Run
      (fun decoder label => decoder.KeepsPosition video label) decoder next := by
  induction labels generalizing decoder with
  | nil =>
    cases hexec
    exact .refl _
  | cons label labels ih =>
    obtain ⟨middle, hstep, hrest⟩ := bind_eq_some_iff.mp hexec
    have hfst := hgranted label mem_cons_self
    refine Machine.Run.trans (.tail (.refl _) hfst.keepsPosition hstep) (ih hrest ?_)
    exact fun other hother => hgranted other (mem_cons_of_mem _ hother)

def sampleGranted : List SeekLabel :=
  [.begin sampleRequest true, .seek .sought true] ++
    sampleObserve (.ok 4) ++ sampleObserve (.ok 4) ++ sampleObserve (.ok 4)

theorem forward_selects_as_seek_sampleGranted :
    ∃ decoder, (seekMachine sampleSource).exec (.opened (sampleSought 0))
        sampleGranted = some decoder ∧
      decoder.phase = .selected ⟨sampleRequest, 2, ⟨0, 0⟩, false⟩ ⟨0, 2, 2⟩ ∧
        SelectsAsSeek sampleSource decoder := by
  have hphase : ((seekMachine sampleSource).exec (.opened (sampleSought 0))
      sampleGranted).map phase = some (.selected ⟨sampleRequest, 2, ⟨0, 0⟩, false⟩ ⟨0, 2, 2⟩) := by
    decide +kernel
  obtain ⟨decoder, hexec, hdecoder⟩ := map_eq_some_iff.mp hphase
  refine ⟨decoder, hexec, hdecoder, forward_selects_as_seek ⟨_, ⟨_, rfl⟩, run_of_granted hexec ?_⟩⟩
  simp [sampleGranted, sampleObserve, Granted]

end CollideOScope.Video
