import CollideOScope.Video.SeekExact
import Mathlib.Data.List.Induction

/-!
# The reverse-frame cache

The cache evicts its oldest frame first and hands out the newest frame that
qualifies.  Its account and its limits hold in every run.  The frame it hands
out is the nearest one as long as no frame is inserted behind a later one.
-/

namespace CollideOScope.Video.ReverseFrameCache

open Nat List

inductive Call
  | insert (frame : CachedFrame) (slot : Bool)
  | clear

variable (video : VideoSource)

def call (cache : ReverseFrameCache) : Call → ReverseFrameCache
  | .insert frame slot => (cache.insert video frame slot).getD cache
  | .clear => empty

def after (calls : List Call) : ReverseFrameCache := calls.foldl (call video) empty

/-- The account is exact, and the limits hold. -/
structure Bounded (cache : ReverseFrameCache) : Prop where
  bytes_eq : cache.bytes = (cache.frames.map CachedFrame.bytes).sum
  bytes_le : cache.bytes ≤ video.maxCacheBytes
  length_le : cache.frames.length ≤ video.maxCacheFrames

variable (targetSeconds : ℚ) (sourceGeneration : ℕ) (maxAgeSeconds : ℚ)

abbrev Qualifies (frame : CachedFrame) : Prop :=
  frame.metadata.sourceSeconds ≤ video.add (finiteNonnegative targetSeconds) (1 / 2 ^ 52) ∧
    video.sub (finiteNonnegative targetSeconds) frame.metadata.sourceSeconds ≤
      finiteNonnegative maxAgeSeconds

/-- A lookup returns the latest cached frame that qualifies, and nothing if
there is none. -/
def Nearest (cache : ReverseFrameCache) : Prop :=
  match cache.nearAtOrBefore video targetSeconds sourceGeneration
    maxAgeSeconds with
  | none => ∀ frame ∈ cache.frames, ¬Qualifies video targetSeconds maxAgeSeconds frame
  | some metadata => ∃ frame ∈ cache.frames,
      Qualifies video targetSeconds maxAgeSeconds frame ∧
        metadata = { frame.metadata with sourceGeneration } ∧
          ∀ other ∈ cache.frames,
            Qualifies video targetSeconds maxAgeSeconds other →
              other.metadata.sourceSeconds ≤ frame.metadata.sourceSeconds

def Forward (calls : List Call) : Prop :=
  ∀ before frame slot rest, calls = before ++ .insert frame slot :: rest →
    ∀ cached ∈ (after video before).frames,
      cached.metadata.sourceSeconds ≤ frame.metadata.sourceSeconds

variable {video} {cache : ReverseFrameCache}

theorem evict_spec {maxBytes maxFrames frameBytes bytes : ℕ} {frames : List CachedFrame}
    (hbytes : bytes = (frames.map CachedFrame.bytes).sum) :
    let kept := evict maxBytes maxFrames frameBytes frames bytes
    kept.bytes = (kept.frames.map CachedFrame.bytes).sum ∧
      kept.frames <:+ frames ∧
        (kept.frames = [] ∨ kept.frames.length < maxFrames ∧
          kept.bytes + frameBytes ≤ maxBytes) := by
  induction frames generalizing bytes with
  | nil => exact ⟨hbytes, suffix_rfl, .inl rfl⟩
  | cons frame frames ih =>
    simp only [evict]
    split_ifs with hfull
    · rw [map_cons, sum_cons] at hbytes
      obtain ⟨hsum, hsuf, hroom⟩ := @ih (bytes - frame.bytes) (by omega)
      exact ⟨hsum, hsuf.trans (suffix_cons _ _), hroom⟩
    · rw [not_or, not_le, not_lt] at hfull
      exact ⟨hbytes, suffix_rfl, .inr hfull⟩

theorem call_cases (h : Bounded video cache) (c : Call) :
    cache.call video c = empty ∨ cache.call video c = cache ∨
      Bounded video (cache.call video c) ∧ ∃ frame slot kept,
        c = .insert frame slot ∧ kept <:+ cache.frames ∧
          (cache.call video c).frames = kept ++ [frame] := by
  cases c with
  | clear => exact .inl rfl
  | insert frame slot =>
    simp only [call, insert]
    split_ifs with hlarge
    · exact .inl rfl
    · rw [not_or, not_lt] at hlarge
      obtain ⟨hsum, hsuf, hroom⟩ := @evict_spec _ _ frame.bytes _ _ h.bytes_eq
      refine .inr (.inr ⟨⟨?_, ?_, ?_⟩, _, _, _, rfl, hsuf, rfl⟩)
      · simp [hsum]
      · rcases hroom with hnil | ⟨-, hbytes⟩
        · rw [hnil] at hsum
          simpa [hsum] using hlarge.1
        · exact hbytes
      · rcases hroom with hnil | ⟨hlen, -⟩
        · simpa [hnil, one_le_iff_ne_zero] using hlarge.2
        · simpa using succ_le_of_lt hlen
    · exact .inr (.inl rfl)

theorem nearest_of_pairwise (h : cache.frames.Pairwise fun frame later =>
      frame.metadata.sourceSeconds ≤ later.metadata.sourceSeconds) :
    Nearest video targetSeconds sourceGeneration maxAgeSeconds cache := by
  have hlook : cache.nearAtOrBefore video targetSeconds sourceGeneration
      maxAgeSeconds = (cache.frames.reverse.find? fun frame =>
        Qualifies video targetSeconds maxAgeSeconds frame).map
          fun frame => { frame.metadata with sourceGeneration } := rfl
  rw [Nearest, hlook]
  cases hfind : cache.frames.reverse.find? _ with
  | none => simpa using hfind
  | some frame =>
    obtain ⟨hqualifies, newer, older, hsplit, hnewer⟩ := find?_eq_some_iff_append.mp hfind
    have hmem := mem_of_find?_eq_some hfind
    refine ⟨frame, mem_reverse.mp hmem, of_decide_eq_true hqualifies, rfl, ?_⟩
    intro other hother hqualifies
    rw [← mem_reverse, hsplit] at hother
    have hreverse := pairwise_reverse.mpr h
    rw [hsplit, pairwise_append, pairwise_cons] at hreverse
    rcases mem_append.mp hother with hin | hin
    · have hnot := hnewer other hin
      rw [Bool.not_eq_true', decide_eq_false_iff_not] at hnot
      exact absurd hqualifies hnot
    · rcases mem_cons.mp hin with rfl | hin
      · exact le_rfl
      · exact hreverse.2.1.1 other hin

theorem after_concat (calls : List Call) (c : Call) :
    after video (calls ++ [c]) = (after video calls).call video c := by
  rw [after, foldl_append]
  rfl

theorem bounded_after (calls : List Call) : Bounded video (after video calls) := by
  induction calls using reverseRecOn with
  | nil => exact ⟨rfl, zero_le _, zero_le _⟩
  | append_singleton calls c ih =>
    rw [after_concat]
    rcases call_cases ih c with heq | heq | hnext
    · rw [heq]
      exact ⟨rfl, zero_le _, zero_le _⟩
    · rwa [heq]
    · exact hnext.1

theorem Forward.pairwise {calls : List Call} (h : Forward video calls) :
    (after video calls).frames.Pairwise fun frame later =>
      frame.metadata.sourceSeconds ≤ later.metadata.sourceSeconds := by
  induction calls using reverseRecOn with
  | nil => exact List.Pairwise.nil
  | append_singleton calls c ih =>
    have hpre := ih fun before frame slot rest heq =>
      h before frame slot (rest ++ [c]) (by rw [heq]; simp)
    rw [after_concat]
    rcases call_cases (bounded_after calls) c with
      heq | heq | ⟨-, frame, slot, kept, rfl, hsuf, hframes⟩
    · rw [heq]
      exact List.Pairwise.nil
    · rwa [heq]
    · rw [hframes, pairwise_append]
      refine ⟨hpre.sublist hsuf.sublist, pairwise_singleton _ _, ?_⟩
      intro cached hcached later hlater
      rw [mem_singleton.mp hlater]
      exact h calls frame slot [] rfl cached (hsuf.subset hcached)

/-- The account and the limits hold after all calls, and lookups are nearest
after calls that never insert behind a later frame. -/
theorem bounded_and_nearest (video : VideoSource) (calls : List Call) :
    Bounded video (after video calls) ∧ (Forward video calls →
      ∀ targetSeconds sourceGeneration maxAgeSeconds,
        Nearest video targetSeconds sourceGeneration maxAgeSeconds (after video calls)) :=
  ⟨bounded_after calls, fun h _ _ _ => nearest_of_pairwise _ _ _ h.pairwise⟩

def smallSource : VideoSource := { sampleSource with maxCacheBytes := 8, maxCacheFrames := 4 }

/-- The frame at one second was decoded before that at half a second. -/
def backward : List Call := [.insert ⟨2, ⟨0, 2, 1⟩⟩ true, .insert ⟨2, ⟨0, 1, 1 / 2⟩⟩ true]

theorem backward_not_nearest :
    ¬∀ video calls targetSeconds sourceGeneration maxAgeSeconds,
      Nearest video targetSeconds sourceGeneration maxAgeSeconds (after video calls) := by
  intro h
  have hnearest := h smallSource backward (3 / 2) 0 10
  rw [Nearest, show nearAtOrBefore _ _ _ _ _ = some ⟨0, 1, 1 / 2⟩ by
    decide +kernel] at hnearest
  obtain ⟨frame, -, -, hframe, hgreatest⟩ := hnearest
  have hle := hgreatest ⟨2, ⟨0, 2, 1⟩⟩ mem_cons_self ⟨by decide +kernel, by decide +kernel⟩
  rw [← congrArg FrameMetadata.sourceSeconds hframe] at hle
  exact absurd hle (by decide +kernel)

end CollideOScope.Video.ReverseFrameCache
