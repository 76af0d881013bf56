import CollideOScope.Video.SeekDecode
import Mathlib.Data.List.TakeWhile

/-!
# Which picture a walk selects

A walk from the indexed keyframe selects the first picture that reaches the
target, or the last one at the end of the video.  The recorded position of a
decoder is sound if FFmpeg delivers what follows it, and then a walk from there
leads to the same picture.
-/

namespace CollideOScope.Video

open List FrameMetadata

namespace VideoSource

variable (video : VideoSource)

theorem add_mono {a b : ℚ} (h : a ≤ b) (c : ℚ) : video.add a c ≤ video.add b c := by
  apply video.round_monotone
  gcongr

variable {a b : ℤ}

theorem sourceSeconds_mono (h : a ≤ b) : video.sourceSeconds a ≤ video.sourceSeconds b := by
  have hticks : saturatingSubI64 a video.startPts ≤ saturatingSubI64 b video.startPts := by
    simp only [saturatingSubI64]
    omega
  have hround : video.round (saturatingSubI64 a video.startPts) ≤
      video.round (saturatingSubI64 b video.startPts) :=
    video.round_monotone (by exact_mod_cast hticks)
  refine max_le_max ?_ le_rfl
  exact video.round_monotone (mul_le_mul_of_nonneg_right hround video.timeBase_nonneg)

theorem keyframes_ne : video.keyframes ≠ [] := by
  intro h
  have hfst := video.keyframes_first
  rw [h] at hfst
  exact video.pictures_ne (head?_eq_none_iff.mp hfst.symm)

theorem preceding_mem (targetSeconds : ℚ) :
    (video.preceding targetSeconds).pts ∈ video.keyframes ∧
      (video.preceding targetSeconds).sourceSeconds =
        video.sourceSeconds (video.preceding targetSeconds).pts := by
  have hpos : 0 < video.keyframeIndex.length := by
    rw [keyframeIndex, length_map]
    exact length_pos_iff.mpr video.keyframes_ne
  have hlt : (video.keyframeIndex.takeWhile fun entry =>
      entry.sourceSeconds ≤ finiteNonnegative targetSeconds).length - 1 <
        video.keyframeIndex.length := by
    have hle := ( takeWhile_prefix (l := video.keyframeIndex) fun entry =>
      entry.sourceSeconds ≤ finiteNonnegative targetSeconds).length_le
    omega
  have hmem : video.preceding targetSeconds ∈ video.keyframeIndex := by
    simp only [preceding]
    rw [getD_eq_getElem _ _ hlt]
    exact getElem_mem hlt
  obtain ⟨pts, hpts, hent⟩ := mem_map.mp hmem
  rw [← hent]
  exact ⟨hpts, rfl⟩

def fromKeyframe (targetSeconds : ℚ) : List ℤ :=
  video.pictures.dropWhile fun picture => picture < (video.preceding targetSeconds).pts

theorem lt_of_append {before after : List ℤ}
    (h : video.pictures = before ++ after) (ha : a ∈ before) (hb : b ∈ after) :
    a < b := by
  have hinc := video.pictures_increasing
  rw [h] at hinc
  exact (pairwise_append.mp hinc).2.2 a ha b hb

end VideoSource

section

variable (video : VideoSource)

theorem not_reached_of_le {targetSeconds sourceSeconds : ℚ} {pts : ℤ}
    (h : video.sourceSeconds pts ≤ sourceSeconds)
    (hshort : video.add sourceSeconds (video.mul video.framePeriod (1 / 2)) <
      targetSeconds) : ¬ Reached video targetSeconds pts := by
  intro hreach
  exact absurd (hreach.trans (video.add_mono h _)) (not_le.mpr hshort)

/-- A walk over the pictures selects one: the first that reaches the target in
the window, or the last one of a video that ends near the target. -/
def WalkSelects (targetSeconds : ℚ) (window : ℕ) (pictures : List ℤ) (pts : ℤ) : Prop :=
  ∃ skipped rest, pictures = skipped ++ pts :: rest ∧
    (∀ picture ∈ skipped, ¬ Reached video targetSeconds picture) ∧
      (Reached video targetSeconds pts ∧ skipped.length < window ∨
        ¬ Reached video targetSeconds pts ∧ rest = [] ∧
          TerminalTarget video targetSeconds ∧ skipped.length + 1 < window)

/-- A request without a bound for which a walk from the indexed keyframe
selects a picture. -/
structure SeekSelects (request : SeekRequest) (pts : ℤ) : Prop where
  unbounded : request.maxForwardPeriods = none
  selects : ∃ targetSeconds, request.targetSeconds = some targetSeconds ∧
    WalkSelects video (video.clampTarget targetSeconds) maxSeekDecodeFrames
      (video.fromKeyframe (video.clampTarget targetSeconds)) pts

/-- What a walk over the remaining pictures comes to, unless it is one that
continues forward and fails. -/
inductive Leads (targetSeconds : ℚ) (continueForward : Bool) (left : ℕ)
    (newest : Option FrameMetadata) (remaining : List ℤ) (pts : ℤ) : Prop
  | reaches (skipped rest : List ℤ) (h : remaining = skipped ++ pts :: rest)
      (hskipped : ∀ picture ∈ skipped, ¬ Reached video targetSeconds picture)
      (hreached : Reached video targetSeconds pts)
      (hwindow : continueForward = true ∨ skipped.length < left)
  | ends (skipped : List ℤ) (h : remaining = skipped ++ [pts])
      (hskipped : ∀ picture ∈ skipped, ¬ Reached video targetSeconds picture)
      (hshort : ¬ Reached video targetSeconds pts)
      (hterminal : TerminalTarget video targetSeconds)
      (hwindow : continueForward = true ∨ skipped.length + 1 < left)
  | ended (h : remaining = []) (hterminal : TerminalTarget video targetSeconds)
      (hnewest : newest.map FrameMetadata.pts = some pts ∨ newest = none ∧ continueForward = true)
      (hwindow : continueForward = true ∨ 0 < left)

variable {video}

theorem WalkSelects.leads {targetSeconds : ℚ} {window : ℕ} {pictures : List ℤ} {pts : ℤ}
    (h : WalkSelects video targetSeconds window pictures pts) (newest : Option FrameMetadata) :
    Leads video targetSeconds false window newest pictures pts := by
  obtain ⟨skipped, rest, rfl, hskip, ⟨hreach, hwin⟩ |
    ⟨hshort, rfl, hterm, hwin⟩⟩ := h
  · exact .reaches skipped rest rfl hskip hreach (.inr hwin)
  · exact .ends skipped rfl hskip hshort hterm (.inr hwin)

namespace Leads

variable {targetSeconds : ℚ} {continueForward : Bool} {left : ℕ}
  {newest : Option FrameMetadata} {remaining : List ℤ} {pts picture : ℤ}

theorem of_reached
    (h : Leads video targetSeconds continueForward left newest (picture :: remaining) pts)
    (hreach : Reached video targetSeconds picture) : picture = pts := by
  cases h with
  | reaches skipped rest h hskip _ _ =>
    cases skipped with
    | nil =>
      cases h
      rfl
    | cons first skipped =>
      cases h
      exact absurd hreach (hskip picture mem_cons_self)
  | ends skipped h hskip hshort _ _ =>
    cases skipped with
    | nil =>
      cases h
      exact absurd hreach hshort
    | cons first skipped =>
      cases h
      exact absurd hreach (hskip picture mem_cons_self)
  | ended h _ _ _ => cases h

theorem skip
    (h : Leads video targetSeconds continueForward (left + 1) newest (picture :: remaining) pts)
    (hshort : ¬ Reached video targetSeconds picture) {newest' : Option FrameMetadata}
    (hnew : TerminalTarget video targetSeconds → newest'.map FrameMetadata.pts = some picture) :
    Leads video targetSeconds continueForward left newest' remaining pts := by
  cases h with
  | reaches skipped rest h hskip hreach hwin =>
    cases skipped with
    | nil =>
      cases h
      exact absurd hreach hshort
    | cons first skipped =>
      cases h
      refine .reaches skipped rest rfl ?_ hreach ?_
      · exact fun other hother => hskip other (mem_cons_of_mem _ hother)
      · exact hwin.imp_right Nat.lt_of_succ_lt_succ
  | ends skipped h hskip hlast hterm hwin =>
    cases skipped with
    | nil =>
      cases h
      refine .ended rfl hterm (.inl (hnew hterm)) ?_
      simpa using hwin
    | cons first skipped =>
      cases h
      refine .ends skipped rfl ?_ hlast hterm ?_
      · exact fun other hother => hskip other (mem_cons_of_mem _ hother)
      · exact hwin.imp_right Nat.lt_of_succ_lt_succ
  | ended h _ _ _ => cases h

theorem continueForward_of_exhausted
    (h : Leads video targetSeconds continueForward 0 newest remaining pts) :
    continueForward = true := by
  cases h with
  | reaches _ _ _ _ _ hwin | ends _ _ _ _ _ hwin | ended _ _ _ hwin => simpa using hwin

theorem of_ended (h : Leads video targetSeconds continueForward left newest [] pts) :
    TerminalTarget video targetSeconds ∧
      (newest.map FrameMetadata.pts = some pts ∨ newest = none ∧ continueForward = true) := by
  cases h with
  | reaches skipped _ h _ _ _ | ends skipped h _ _ _ _ => simp at h
  | ended _ hterm hnew _ => exact ⟨hterm, hnew⟩

end Leads

end

def Records (video : VideoSource) (position : Option StreamPosition) (passed : List ℤ) : Prop :=
  ∀ recorded, position = some recorded → ∃ pts, passed.getLast? = some pts ∧
    recorded = ⟨video.sourceSeconds pts, pts⟩

def Behind (video : VideoSource) (targetSeconds : ℚ) (remaining : List ℤ) : Prop :=
  ∃ passed, video.pictures = passed ++ remaining ∧
    ∀ picture ∈ passed, ¬ Reached video targetSeconds picture

section

variable {video : VideoSource} {passed remaining : List ℤ} {position : Option StreamPosition}
  {targetSeconds : ℚ} {identity : Option CodecFrameIdentity}

variable (hpictures : video.pictures = passed ++ remaining)
  (hrecords : Records video position passed)
  (h : canContinueForward video position targetSeconds
    (video.preceding targetSeconds).sourceSeconds identity = true)
include hpictures hrecords h

/-- What `can_continue_forward` finds out about a position that is sound. -/
theorem canContinueForward_cases :
    (∀ picture ∈ passed, ¬ Reached video targetSeconds picture) ∧
      ∀ picture, picture ≤ (video.preceding targetSeconds).pts →
        ¬ Reached video targetSeconds picture := by
  cases position with
  | none => cases h
  | some recorded =>
    obtain ⟨pts, hlast, rfl⟩ := hrecords recorded rfl
    simp only [canContinueForward] at h
    split_ifs at h with hkeyframe htgt
    refine ⟨?_, ?_⟩
    · intro picture hpicture
      have hle : picture ≤ pts := by
        obtain ⟨before, rfl⟩ := getLast?_eq_some_iff.mp hlast
        rw [mem_append, mem_singleton] at hpicture
        obtain hpre | rfl := hpicture
        · rw [append_assoc] at hpictures
          exact (video.lt_of_append hpictures hpre mem_cons_self).le
        · exact le_rfl
      exact not_reached_of_le video (video.sourceSeconds_mono hle) (not_le.mp htgt)
    · intro picture hpicture
      refine not_reached_of_le video ?_ (not_le.mp htgt)
      refine (video.sourceSeconds_mono hpicture).trans ?_
      rw [← (video.preceding_mem targetSeconds).2]
      exact not_lt.mp hkeyframe

theorem leads_of_canContinueForward {pts : ℤ} {window : ℕ}
    (hsel : WalkSelects video targetSeconds window (video.fromKeyframe targetSeconds) pts)
    (left : ℕ) : Leads video targetSeconds true left none remaining pts := by
  obtain ⟨hpassed, hkeyframe⟩ := canContinueForward_cases hpictures hrecords h
  obtain ⟨skipped, rest, hfrom, hskip, hcase⟩ := hsel
  have hsplit : video.pictures =
      (video.pictures.takeWhile fun picture =>
        picture < (video.preceding targetSeconds).pts) ++ skipped ++ pts :: rest := by
    rw [append_assoc, ← hfrom, VideoSource.fromKeyframe, takeWhile_append_dropWhile]
  have hpre : ∀ picture ∈ (video.pictures.takeWhile fun picture =>
      picture < (video.preceding targetSeconds).pts) ++ skipped,
        ¬ Reached video targetSeconds picture := by
    intro picture hpicture
    obtain hearly | hlate := mem_append.mp hpicture
    · have hlt := mem_takeWhile_imp hearly
      rw [decide_eq_true_eq] at hlt
      exact hkeyframe picture hlt.le
    · exact hskip picture hlate
  generalize (video.pictures.takeWhile fun picture =>
    picture < (video.preceding targetSeconds).pts) ++ skipped = before
      at hsplit hpre
  rw [hpictures] at hsplit
  obtain ⟨extra, hbeforeEq, hremaining⟩ | ⟨extra, hpassedEq, htail⟩ :=
    append_eq_append_iff.mp hsplit
  · have hextra : ∀ picture ∈ extra, ¬ Reached video targetSeconds picture := by
      intro picture hpicture
      apply hpre
      rw [hbeforeEq]
      exact mem_append_right _ hpicture
    obtain ⟨hreach, -⟩ | ⟨hshort, rfl, hterm, -⟩ := hcase
    · exact .reaches extra rest hremaining hextra hreach (.inl rfl)
    · exact .ends extra hremaining hextra hshort hterm (.inl rfl)
  · cases extra with
    | nil =>
      rw [nil_append] at htail
      obtain ⟨hreach, -⟩ | ⟨hshort, rfl, hterm, -⟩ := hcase
      · exact .reaches [] rest htail.symm (by simp) hreach (.inl rfl)
      · exact .ends [] htail.symm (by simp) hshort hterm (.inl rfl)
    | cons first extra =>
      rw [cons_append] at htail
      obtain ⟨rfl, hrest⟩ := cons.inj htail
      have hshort := hpassed pts (by
        rw [hpassedEq]
        exact mem_append_right _ mem_cons_self)
      obtain ⟨hreach, -⟩ | ⟨-, rfl, hterm, -⟩ := hcase
      · exact absurd hreach hshort
      · have hnil := (append_eq_nil_iff.mp hrest.symm).2
        exact .ended hnil hterm (.inr ⟨rfl, rfl⟩) (.inl rfl)

end

end CollideOScope.Video
