import CollideOScope.Video.SeekDecode
import Mathlib.Data.Int.ConditionallyCompleteOrder
import Mathlib.Data.List.Chain

/-!
# The index of keyframes

The scan keeps the zero entry and a bounded number of key packets after it.  A
full table is thinned to every second entry, and the stride of the scan is doubled.
-/

namespace CollideOScope.Video

open Nat Option List

def maxKeyframeIndexEntries : ℕ := 4096

structure IndexPacket where
  stream : ℕ
  isKey : Bool
  (pts dts : Option ℤ)

/-- Each entry has the ordinal of its key packet. -/
structure KeyframeScan where
  entries : List (ℕ × KeyframeEntry)
  keyframeOrdinal : ℕ := 0
  stride : ℕ := 1

/-- The entries at the even places. -/
def everySecond {α : Type} : List α → List α
  | first :: _ :: rest => first :: everySecond rest
  | entries => entries

/-- `timestamp_to_source_seconds`; each operation rounds. -/
def timestampToSourceSeconds (round : ℚ → ℚ) (timeBase : ℚ) (startPts pts : ℤ) : ℚ :=
  finiteNonnegative (round (round (saturatingSubI64 pts startPts) * timeBase))

namespace KeyframeScan

section

variable (streamIndex : ℕ) (seconds : ℤ → ℚ)

/-- The timestamp of a packet that is counted. -/
def key? (packet : IndexPacket) : Option ℤ :=
  if packet.stream ≠ streamIndex ∨ ! packet.isKey then none else packet.pts.or packet.dts

def visit (s : KeyframeScan) (packet : IndexPacket) : KeyframeScan :=
  match key? streamIndex packet with
  | none => s
  | some pts =>
    let s := { s with keyframeOrdinal := s.keyframeOrdinal + 1 }
    if ¬ s.stride ∣ s.keyframeOrdinal then s
    else if s.entries.getLast?.any fun entry =>
        pts ≤ entry.2.pts || seconds pts ≤ entry.2.sourceSeconds then s
    else
      let s := if s.entries.length = maxKeyframeIndexEntries then
        { s with entries := everySecond s.entries, stride := max (s.stride * 2) 2 } else s
      { s with entries := s.entries ++ [(s.keyframeOrdinal, ⟨pts, seconds pts⟩)] }

/-- `KeyframeIndex::scan`, over the packets up to where it is cut short. -/
def scan (startPts : ℤ) (packets : List IndexPacket) : KeyframeScan :=
  packets.foldl (visit streamIndex seconds) { entries := [(0, ⟨startPts, 0⟩)] }

end

/-- A target that is not finite is `none`. -/
def preceding (s : KeyframeScan) (targetSeconds : Option ℚ) : Option (ℕ × KeyframeEntry) :=
  let targetSeconds := (targetSeconds.map finiteNonnegative).getD 0
  s.entries[(s.entries.takeWhile (·.2.sourceSeconds ≤ targetSeconds)).length - 1]?

section

variable {α : Type} {a : α}

theorem everySecond_sublist : (l : List α) → (everySecond l).Sublist l
  | [] | [_] => .refl _
  | _ :: _ :: rest => ((everySecond_sublist rest).cons _).cons_cons _

theorem everySecond_append : (l : List α) → l.length % 2 = 0 →
    everySecond (l ++ [a]) = everySecond l ++ [a]
  | [], _ => rfl
  | [_], h => by simp at h
  | _ :: _ :: rest, h => congrArg (_ :: ·) (everySecond_append rest (by
    simp only [length_cons] at h
    omega))

theorem length_everySecond_le : (l : List α) → 2 * (everySecond l).length ≤ l.length + 1
  | [] | [_] => by simp [everySecond]
  | _ :: _ :: rest => by
    have := length_everySecond_le rest
    simp [everySecond]
    omega

theorem head?_everySecond : (l : List α) → (everySecond l).head? = l.head?
  | [] | [_] | _ :: _ :: _ => rfl

end

variable {streamIndex : ℕ} {seconds : ℤ → ℚ} {startPts pts : ℤ} {s : KeyframeScan}
  {packet : IndexPacket} {packets : List IndexPacket} {keys : List ℤ} {gap n : ℕ}
  {last : ℕ × KeyframeEntry}

def Before (a b : ℕ × KeyframeEntry) : Prop :=
  a.2.pts < b.2.pts ∧ a.2.sourceSeconds < b.2.sourceSeconds

def Within (gap : ℕ) (a b : ℕ × KeyframeEntry) : Prop := b.1 ≤ a.1 + gap

theorem isChain_everySecond : (l : List (ℕ × KeyframeEntry)) →
    l.IsChain (Within gap) → (everySecond l).IsChain (Within (2 * gap))
  | [], _ | [_], _ => by simp [everySecond]
  | a :: b :: rest, h => by
    obtain ⟨hab, hb⟩ := isChain_cons_cons.mp h
    obtain ⟨hbc, hrest⟩ := isChain_cons.mp hb
    refine isChain_cons.mpr ⟨fun c hc => ?_, isChain_everySecond rest hrest⟩
    have hbc := hbc c (head?_everySecond rest ▸ hc)
    simp only [Within] at hab hbc ⊢
    omega

/-- The zero entry is first, and both times increase. -/
structure Indexed (startPts : ℤ) (s : KeyframeScan) : Prop where
  head : s.entries.head? = some (0, ⟨startPts, 0⟩)
  length_le : s.entries.length ≤ maxKeyframeIndexEntries
  ordered : s.entries.Pairwise Before

def IsKey (seconds : ℤ → ℚ) (startPts : ℤ) (keys : List ℤ) (e : ℕ × KeyframeEntry) : Prop :=
  e = (0, ⟨startPts, 0⟩) ∨ ∃ n pts, keys[n]? = some pts ∧ e = (n + 1, ⟨pts, seconds pts⟩)

/-- Entries are key packets at most two strides apart, and only the first key packet
is passed over at a multiple of the stride. -/
structure Covers (seconds : ℤ → ℚ) (startPts : ℤ) (keys : List ℤ) (s : KeyframeScan) : Prop where
  stride_pos : 0 < s.stride
  ordinal : s.keyframeOrdinal = keys.length
  isKey : ∀ e ∈ s.entries, IsKey seconds startPts keys e
  gaps : s.entries.IsChain (Within (2 * s.stride))
  pending : ∀ e ∈ s.entries.getLast?, ∀ m, s.stride ∣ m → e.1 < m → m ≤ keys.length → m = 1

/-- Of two multiples of the stride, one is not the first key packet. -/
theorem Covers.length_lt (h : s.Covers seconds startPts keys)
    (hlast : last ∈ s.entries.getLast?) : keys.length < last.1 + 2 * s.stride := by
  by_contra hfar
  have hdiv := div_mul_le_self last.1 s.stride
  have hmod := lt_div_mul_add (a := last.1) h.stride_pos
  have hone := h.pending last hlast ((last.1 / s.stride + 1) * s.stride) (dvd_mul_left ..)
  have htwo := h.pending last hlast ((last.1 / s.stride + 2) * s.stride) (dvd_mul_left ..)
  have hpos := h.stride_pos
  simp only [add_mul, one_mul] at hone htwo
  omega

theorem Indexed.exists_last (h : s.Indexed startPts) : ∃ last, s.entries.getLast? = some last := by
  obtain ⟨rest, hentries⟩ := head?_eq_some_iff.mp h.head
  simp [hentries, getLast?_cons]

theorem Indexed.concat (h : s.Indexed startPts) (hlast : s.entries.getLast? = some last)
    {new : ℕ × KeyframeEntry} (hnew : Before last new) : (s.entries ++ [new]).Pairwise Before := by
  have : Trans Before Before Before := ⟨fun hab hbc => ⟨hab.1.trans hbc.1, hab.2.trans hbc.2⟩⟩
  rw [← isChain_iff_pairwise]
  exact (isChain_iff_pairwise.mpr h.ordered).append (isChain_singleton _)
    (by simpa [hlast] using hnew)

theorem Indexed.visit (h : s.Indexed startPts) :
    (s.visit streamIndex seconds packet).Indexed startPts := by
  obtain ⟨last, hlast⟩ := h.exists_last
  cases hkey : key? streamIndex packet with
  | none => simpa [KeyframeScan.visit, hkey] using h
  | some pts =>
    have hconcat : Before last (s.keyframeOrdinal + 1, ⟨pts, seconds pts⟩) → _ := h.concat hlast
    obtain ⟨hhead, hlen, hord⟩ := h
    simp only [KeyframeScan.visit, hkey, hlast, any_some, Bool.or_eq_true, decide_eq_true_eq]
    split_ifs with hstride hrej hfull
    · exact ⟨hhead, hlen, hord⟩
    · have hlen := length_everySecond_le s.entries
      rw [not_or, not_le, not_le] at hrej
      refine ⟨by simp [head?_everySecond, hhead], ?_, (hconcat hrej).sublist
        ((everySecond_sublist _).append_right _)⟩
      simp only [length_append, length_singleton, hfull, maxKeyframeIndexEntries] at hlen ⊢
      omega
    · rw [not_or, not_le, not_le] at hrej
      refine ⟨by simp [hhead], ?_, hconcat hrej⟩
      simp only [length_append, length_singleton]
      omega
    · exact ⟨hhead, hlen, hord⟩

section

variable (hmono : Monotone seconds) (hstart : seconds startPts = 0)
  (hnonneg : ∀ pts, 0 ≤ seconds pts)
include hmono hstart hnonneg

theorem Covers.eq_nil (hkeys : (keys ++ [pts]).Pairwise (seconds · < seconds ·))
    (h : s.Covers seconds startPts keys) (hlast : last ∈ s.entries)
    (hnew : ¬ Before last (n, ⟨pts, seconds pts⟩)) : keys = [] := by
  have hcross := fun k hk => (pairwise_append.mp hkeys).2.2 k hk pts (mem_singleton_self _)
  obtain rfl | ⟨m, earlier, hget, rfl⟩ := h.isKey last hlast
  · refine eq_nil_iff_forall_not_mem.mpr fun earlier hmem => hnew ?_
    have hpos := (hnonneg _).trans_lt (hcross earlier hmem)
    exact ⟨hmono.reflect_lt (hstart ▸ hpos), hpos⟩
  · have hlt := hcross earlier (mem_of_getElem? hget)
    exact absurd ⟨hmono.reflect_lt hlt, hlt⟩ hnew

theorem Covers.visit (hkeys : (keys ++ [pts]).Pairwise (seconds · < seconds ·))
    (h : s.Covers seconds startPts keys) (hlast : s.entries.getLast? = some last)
    (hkey : key? streamIndex packet = some pts) :
    (s.visit streamIndex seconds packet).Covers seconds startPts (keys ++ [pts]) := by
  have hlen : (keys ++ [pts]).length = keys.length + 1 := length_append
  have hfar := h.length_lt hlast
  have hnil := fun hnew => h.eq_nil hmono hstart hnonneg hkeys (n := s.keyframeOrdinal + 1)
    (mem_of_getLast? hlast) hnew
  obtain ⟨hpos, hord, hisKey, hgaps, hpend⟩ := h
  obtain ⟨new, hnew⟩ : ∃ new : ℕ × KeyframeEntry,
    new = (s.keyframeOrdinal + 1, ⟨pts, seconds pts⟩) := ⟨_, rfl⟩
  have hall : ∀ e ∈ s.entries ++ [new],
      IsKey seconds startPts (keys ++ [pts]) e := by
    intro e he
    obtain he | he := mem_append.mp he
    · refine (hisKey e he).imp_right fun ⟨n, k, hget, heq⟩ => ⟨n, k, ?_, heq⟩
      rw [getElem?_append_left (List.getElem?_eq_some_iff.mp hget).1, hget]
    · exact .inr ⟨keys.length, pts, by simp, by simp [mem_singleton.mp he, hnew, hord]⟩
  have hchain : (s.entries ++ [new]).IsChain (Within (2 * s.stride)) := by
    refine hgaps.append (isChain_singleton _) ?_
    simp only [hlast, mem_some_iff, forall_eq', head?_cons, Within, hnew]
    omega
  have hdone : ∀ (l : List _) k, ∀ e ∈ (l ++ [new]).getLast?, ∀ m, k ∣ m → e.1 < m →
      m ≤ (keys ++ [pts]).length → m = 1 := by
    intro l k e he m _ hlt hle
    simp only [getLast?_concat, mem_some_iff] at he
    subst he hnew
    simp only at hlt
    omega
  have hskip : (s.stride ∣ s.keyframeOrdinal + 1 → ¬ Before last new) →
      { s with keyframeOrdinal := s.keyframeOrdinal + 1 }.Covers seconds startPts
        (keys ++ [pts]) := by
    intro hrej
    refine ⟨hpos, by simp [hord], fun e he => hall e (mem_append_left _ he), hgaps,
      fun e he m hdvd hlt hle => ?_⟩
    obtain hle | rfl := (le_succ_iff (n := keys.length)).mp (hlen ▸ hle)
    · exact hpend e he m hdvd hlt hle
    · simp [hnil (hnew ▸ hrej (hord ▸ hdvd))]
  simp only [KeyframeScan.visit, hkey, hlast, any_some, Bool.or_eq_true, decide_eq_true_eq]
  split_ifs with hstride hrej hfull
  · exact hskip fun _ h => hrej.elim (hnew ▸ h.1).not_ge (hnew ▸ h.2).not_ge
  · have hmax : max (s.stride * 2) 2 = 2 * s.stride := by omega
    have heven := everySecond_append (a := new) s.entries (by simp [hfull, maxKeyframeIndexEntries])
    simp only [hmax, ← hnew, ← heven]
    exact ⟨mul_pos two_pos hpos, by simp [hord],
      fun e he => hall e ((everySecond_sublist _).subset he), isChain_everySecond _ hchain,
      by simpa only [heven] using hdone _ _⟩
  · simp only [← hnew]
    exact ⟨hpos, by simp [hord], hall, hchain, hdone _ _⟩
  · exact hskip fun hdvd => absurd hdvd hstride

end

theorem indexed_scan : (scan streamIndex seconds startPts packets).Indexed startPts := by
  induction packets using reverseRecOn with
  | nil => exact ⟨rfl, by simp [scan, maxKeyframeIndexEntries], pairwise_singleton ..⟩
  | append_singleton packets packet ih =>
    rw [scan, foldl_append]
    exact ih.visit

theorem covers_scan (hmono : Monotone seconds) (hstart : seconds startPts = 0)
    (hnonneg : ∀ pts, 0 ≤ seconds pts)
    (hkeys : (packets.filterMap (key? streamIndex)).Pairwise (seconds · < seconds ·)) :
    (scan streamIndex seconds startPts packets).Covers seconds startPts
      (packets.filterMap (key? streamIndex)) := by
  induction packets using reverseRecOn with
  | nil =>
    exact ⟨one_pos, rfl, by simp [scan, IsKey], isChain_singleton _,
      fun _ _ m _ hlt hle => absurd (hlt.trans_le hle) (not_lt_zero _)⟩
  | append_singleton packets packet ih =>
    rw [filterMap_append] at hkeys ⊢
    have ih := ih (pairwise_append.mp hkeys).1
    rw [scan, foldl_append]
    cases hkey : key? streamIndex packet with
    | none => simpa [KeyframeScan.visit, hkey] using! ih
    | some pts =>
      have hone : [packet].filterMap (key? streamIndex) = [pts] := by simp [hkey]
      rw [hone] at hkeys ⊢
      obtain ⟨last, hlast⟩ := Indexed.exists_last indexed_scan
      exact ih.visit hmono hstart hnonneg hkeys hlast hkey

/-- The entry that is looked up is the last one that is not after the target. -/
theorem lookup_spec {t : ℚ} {first : ℕ × KeyframeEntry} {rest : List (ℕ × KeyframeEntry)}
    (h : (first :: rest).Pairwise Before) (hfirst : first.2.sourceSeconds ≤ t) :
    ∃ e ∈ first :: rest,
      (first :: rest)[((first :: rest).takeWhile (·.2.sourceSeconds ≤ t)).length - 1]? = some e ∧
      e.2.sourceSeconds ≤ t ∧ ∀ other ∈ first :: rest, other.2.sourceSeconds ≤ t →
        other.2.sourceSeconds ≤ e.2.sourceSeconds := by
  induction rest generalizing first with
  | nil => exact ⟨first, by simp [hfirst]⟩
  | cons second rest ih =>
    obtain ⟨hbefore, hrest⟩ := pairwise_cons.mp h
    by_cases hsecond : second.2.sourceSeconds ≤ t
    · obtain ⟨e, he, heq, hle, hmax⟩ := ih hrest hsecond
      refine ⟨e, mem_cons_of_mem _ he, ?_, hle, fun other hother hother_le => ?_⟩
      · simpa [takeWhile_cons, hfirst, hsecond] using heq
      · obtain rfl | hother := mem_cons.mp hother
        · exact (hbefore e he).2.le
        · exact hmax other hother hother_le
    · refine ⟨first, mem_cons_self, by simp [hfirst, hsecond], hfirst,
        fun other hother hother_le => ?_⟩
      obtain rfl | rfl | hother := by simpa using hother
      · exact le_rfl
      · exact absurd hother_le hsecond
      · exact absurd (((pairwise_cons.mp hrest).1 other hother).2.le.trans hother_le) hsecond

theorem timestampToSourceSeconds_mono {round : ℚ → ℚ} (hround : Monotone round) {timeBase : ℚ}
    (htime : 0 ≤ timeBase) : Monotone (timestampToSourceSeconds round timeBase startPts) := by
  intro a b hab
  have hticks : saturatingSubI64 a startPts ≤ saturatingSubI64 b startPts := by
    simp only [saturatingSubI64]
    omega
  refine max_le_max (hround (mul_le_mul_of_nonneg_right (hround ?_) htime)) le_rfl
  exact_mod_cast hticks

/-- The table is ordered and bounded and covers the scan, and its lookup is exact. -/
theorem keyframe_index {round : ℚ → ℚ} (hround : Monotone round) (hzero : round 0 = 0)
    {timeBase : ℚ} (htime : 0 ≤ timeBase) (streamIndex : ℕ) (startPts : ℤ)
    (packets : List IndexPacket) :
    let seconds := timestampToSourceSeconds round timeBase startPts
    let index := scan streamIndex seconds startPts packets
    let keys := packets.filterMap (key? streamIndex)
    index.Indexed startPts ∧
    (keys.Pairwise (seconds · < seconds ·) → index.Covers seconds startPts keys ∧
      ∀ last ∈ index.entries.getLast?, keys.length < last.1 + 2 * index.stride) ∧
    (∀ target, 0 ≤ target → ∃ e ∈ index.entries, index.preceding (some target) = some e ∧
      e.2.sourceSeconds ≤ target ∧ ∀ other ∈ index.entries, other.2.sourceSeconds ≤ target →
        other.2.sourceSeconds ≤ e.2.sourceSeconds) ∧
    ∀ target : Option ℚ, (∀ t ∈ target, t < 0) →
      index.preceding target = some (0, ⟨startPts, 0⟩) := by
  intro seconds index keys
  have hind : index.Indexed startPts := indexed_scan
  have hstart : seconds startPts = 0 := by
    simp [seconds, timestampToSourceSeconds, finiteNonnegative, saturatingSubI64, hzero]
  refine ⟨hind, fun hkeys => ?_, ?_⟩
  · have hcov : index.Covers seconds startPts keys :=
      covers_scan (timestampToSourceSeconds_mono hround htime) hstart (fun _ => le_max_right ..)
        hkeys
    exact ⟨hcov, fun last hlast => hcov.length_lt hlast⟩
  · obtain ⟨rest, hentries⟩ := head?_eq_some_iff.mp hind.head
    have hord := hind.ordered
    simp only [preceding, hentries] at hord ⊢
    refine ⟨fun target htarget => ?_, fun target htarget => ?_⟩
    · simpa [finiteNonnegative, htarget] using lookup_spec hord htarget
    · have hclamp : (target.map finiteNonnegative).getD 0 = 0 := by
        cases target with
        | none => rfl
        | some t => simpa [finiteNonnegative] using (htarget t rfl).le
      obtain ⟨e, he, heq, hle, -⟩ := lookup_spec hord le_rfl
      obtain rfl | he := mem_cons.mp he
      · rw [hclamp, heq]
      · exact absurd hle ((pairwise_cons.mp hord).1 e he).2.not_ge

theorem keyframe_index_millis :
    let index := scan 0 (timestampToSourceSeconds id (1 / 1000) 0) 0
      [⟨0, true, some 40, none⟩, ⟨0, true, none, some 80⟩]
    ∀ last ∈ index.entries.getLast?, 2 < last.1 + 2 * index.stride :=
  ((keyframe_index monotone_id rfl (by norm_num) 0 0
    [⟨0, true, some 40, none⟩, ⟨0, true, none, some 80⟩]).2.1 (by decide +kernel)).2

end KeyframeScan

end CollideOScope.Video
