import CollideOScope.Support.Checks
import CollideOScope.Support.Words
import Mathlib.Algebra.Order.BigOperators.Group.List
import Mathlib.Data.List.Pairwise
import Mathlib.Data.Prod.Lex

/-!
# Admission to the proxy cache

Before an artifact is staged, the plan evicts the entries that were used least
recently until the staged file fits beside the retained ones and the committed
index has room.  An artifact that is replaced counts among the staged bytes but
not among the committed ones.
-/

namespace CollideOScope.Proxy

open Checks List Nat

def proxyCacheHardMaxEntries : ℕ := 4096

def proxyCacheHardMaxEntryBytes : ℕ := 64 * 1024 * 1024 * 1024

def proxyCacheHardMaxTotalBytes : ℕ := 512 * 1024 * 1024 * 1024

inductive ProxyError (K : Type)
  | invalidCacheLimits (field : String)
  | cacheIndexEntries (count limit : ℕ)
  | cacheEntryBytes (bytes limit : ℕ)
  | existingCacheBytes (bytes limit : ℕ)
  | duplicateCacheKey (key : K)
  | cacheAdmission (peakBytes byteLimit entries entryLimit : ℕ)
  | arithmeticOverflow

structure ProxyCacheLimits where
  (maxEntries maxEntryBytes maxTotalBytes : ℕ)

structure ProxyCacheEntry (K : Type) where
  key : K
  (artifactBytes lastUsedOrdinal : ℕ)

structure AtomicCacheCommitLaw where
  createNewTemp : Bool
  (syncTempBeforePublish atomicReplace syncParentAfterPublish : Bool)

def atomicProxyCacheCommitLaw : AtomicCacheCommitLaw := ⟨true, true, true, true⟩

structure ProxyCachePlan (K : Type) where
  key : K
  artifactBytes : ℕ
  evict : List K
  retainedBytesBeforeStage : ℕ
  (peakBytesDuringStage committedBytes committedEntries : ℕ)
  commitLaw : AtomicCacheCommitLaw

/-- `checked_sub`. -/
def checkedSub (a b : ℕ) : Option ℕ := if b ≤ a then some (a - b) else none

variable {K : Type}

def ProxyCacheLimits.validate (limits : ProxyCacheLimits) :
    Except (ProxyError K) ProxyCacheLimits := do
  refuse (limits.maxEntries = 0 ∨ proxyCacheHardMaxEntries < limits.maxEntries)
    (.invalidCacheLimits "max_entries")
  refuse (limits.maxEntryBytes = 0 ∨
    proxyCacheHardMaxEntryBytes < limits.maxEntryBytes ∨
    limits.maxTotalBytes = 0 ∨
    proxyCacheHardMaxTotalBytes < limits.maxTotalBytes ∨
    limits.maxTotalBytes < limits.maxEntryBytes)
    (.invalidCacheLimits "byte limits")
  return limits

section

variable [LinearOrder K]

/-- The loop over the index: the bytes that it holds, and those that it holds
under the key. -/
def scanEntries (key : K) (limits : ProxyCacheLimits) :
    List (ProxyCacheEntry K) → List K → ℕ → ℕ → Except (ProxyError K) (ℕ × ℕ)
  | [], _, retainedBytes, existingSameBytes => return (retainedBytes, existingSameBytes)
  | entry :: rest, keys, retainedBytes, existingSameBytes => do
    refuse (entry.key ∈ keys) (.duplicateCacheKey entry.key)
    refuse (entry.artifactBytes = 0 ∨
      limits.maxEntryBytes < entry.artifactBytes)
      (.cacheEntryBytes entry.artifactBytes limits.maxEntryBytes)
    let retainedBytes ← require
      (checkedAddU64 retainedBytes entry.artifactBytes) .arithmeticOverflow
    scanEntries key limits rest (entry.key :: keys) retainedBytes
      (if entry.key = key then entry.artifactBytes else existingSameBytes)

def existingSameEntries (existingSameBytes : ℕ) : ℕ := if existingSameBytes = 0 then 0 else 1

/-- The eviction loop over the candidates that remain. -/
def evictUntilAdmitted (key : K) (artifactBytes existingSameBytes : ℕ) (limits : ProxyCacheLimits)
    (candidates : List (ProxyCacheEntry K)) (retainedBytes retainedEntries : ℕ) (evict : List K) :
    Except (ProxyError K) (ProxyCachePlan K) := do
  let peak ← require (checkedAddU64 retainedBytes artifactBytes)
    .arithmeticOverflow
  let committedEntries ← require
    ((checkedSub retainedEntries (existingSameEntries existingSameBytes)).bind
      (checkedAddU64 · 1)) .arithmeticOverflow
  if peak ≤ limits.maxTotalBytes ∧ committedEntries ≤ limits.maxEntries then
    let committedBytes ← require ((checkedSub retainedBytes
      existingSameBytes).bind (checkedAddU64 · artifactBytes))
      .arithmeticOverflow
    return ⟨key, artifactBytes, evict, retainedBytes, peak, committedBytes,
      committedEntries, atomicProxyCacheCommitLaw⟩
  else
    match candidates with
    | [] => throw (.cacheAdmission peak limits.maxTotalBytes committedEntries limits.maxEntries)
    | candidate :: rest =>
      let retainedBytes ← require
        (checkedSub retainedBytes candidate.artifactBytes) .arithmeticOverflow
      let retainedEntries ← require (checkedSub retainedEntries 1)
        .arithmeticOverflow
      evictUntilAdmitted key artifactBytes existingSameBytes limits rest
        retainedBytes retainedEntries (evict ++ [candidate.key])

/-- The key that the candidates are sorted by. -/
def ProxyCacheEntry.usage (entry : ProxyCacheEntry K) : ℕ ×ₗ K :=
  toLex (entry.lastUsedOrdinal, entry.key)

/-- The entries of other keys, in the order in which they are evicted. -/
def candidates (key : K) (entries : List (ProxyCacheEntry K)) : List (ProxyCacheEntry K) :=
  (entries.filter (·.key ≠ key)).mergeSort fun a b => a.usage ≤ b.usage

def ProxyCachePlan.preflight (key : K) (artifactBytes : ℕ)
    (entries : List (ProxyCacheEntry K)) (limits : ProxyCacheLimits) :
    Except (ProxyError K) (ProxyCachePlan K) := do
  let limits ← limits.validate
  refuse (artifactBytes = 0 ∨ limits.maxEntryBytes < artifactBytes)
    (.cacheEntryBytes artifactBytes limits.maxEntryBytes)
  refuse (proxyCacheHardMaxEntries < entries.length)
    (.cacheIndexEntries entries.length proxyCacheHardMaxEntries)
  let (retainedBytes, existingSameBytes) ← scanEntries key limits entries [] 0 0
  refuse (limits.maxTotalBytes < retainedBytes)
    (.existingCacheBytes retainedBytes limits.maxTotalBytes)
  evictUntilAdmitted key artifactBytes existingSameBytes limits
    (candidates key entries) retainedBytes entries.length []

end

section

variable [DecidableEq K] {entries sublist : List (ProxyCacheEntry K)}
variable {entry : ProxyCacheEntry K} {evict : List K}

def bytes (entries : List (ProxyCacheEntry K)) : ℕ := (entries.map (·.artifactBytes)).sum

def retained (entries : List (ProxyCacheEntry K)) (evict : List K) : List (ProxyCacheEntry K) :=
  entries.filter (·.key ∉ evict)

def committed (entries : List (ProxyCacheEntry K)) (evict : List K)
    (staged : ProxyCacheEntry K) : List (ProxyCacheEntry K) :=
  staged :: (retained entries evict).filter (·.key ≠ staged.key)

/-- The staged file fits beside what is retained, and the committed index has
room for its entries. -/
def Fits (entries : List (ProxyCacheEntry K)) (limits : ProxyCacheLimits)
    (staged : ProxyCacheEntry K) (evict : List K) : Prop :=
  bytes (retained entries evict) + staged.artifactBytes ≤ limits.maxTotalBytes ∧
    (committed entries evict staged).length ≤ limits.maxEntries

theorem perm_of_mem (hnd : (entries.map (·.key)).Nodup) (hmem : entry ∈ entries) :
    (entry :: entries.filter (·.key ≠ entry.key)).Perm entries := by
  induction entries with
  | nil => cases hmem
  | cons head rest ih =>
    obtain ⟨hhead, hrest⟩ := nodup_cons.mp hnd
    obtain rfl | hmem := mem_cons.mp hmem
    · have hother : ∀ other ∈ rest, other.key ≠ entry.key :=
        fun _ hother heq => hhead (mem_map.mpr ⟨_, hother, heq⟩)
      rw [filter_cons_of_neg (by simp), filter_eq_self.mpr (by simpa using hother)]
    · have hne : head.key ≠ entry.key := fun heq => hhead (mem_map.mpr ⟨_, hmem, heq.symm⟩)
      rw [filter_cons_of_pos (by simpa using hne)]
      exact (List.Perm.swap _ _ _).trans ((ih hrest hmem).cons head)

theorem bytes_of_mem (hnd : (entries.map (·.key)).Nodup) (hmem : entry ∈ entries) :
    bytes entries = entry.artifactBytes + bytes (entries.filter (·.key ≠ entry.key)) ∧
      entries.length = 1 + (entries.filter (·.key ≠ entry.key)).length := by
  have hperm := perm_of_mem hnd hmem
  exact ⟨(hperm.map _).sum_eq.symm.trans sum_cons, hperm.length_eq.symm.trans (add_comm _ _)⟩

omit [DecidableEq K] in
theorem bytes_le_of_sublist (h : sublist.Sublist entries) : bytes sublist ≤ bytes entries :=
  (h.map _).sum_le_sum fun _ _ => zero_le _

theorem retained_concat (entries : List (ProxyCacheEntry K)) (evict : List K) (key : K) :
    retained entries (evict ++ [key]) = (retained entries evict).filter (·.key ≠ key) := by
  simp [retained, filter_filter, and_comm]

theorem nodup_retained (hnd : (entries.map (·.key)).Nodup)
    (evict : List K) : ((retained entries evict).map (·.key)).Nodup :=
  hnd.sublist (filter_sublist.map _)

theorem Fits.mono {limits : ProxyCacheLimits} {staged : ProxyCacheEntry K}
    {more : List K} (h : Fits entries limits staged evict)
    (hsub : evict ⊆ more) : Fits entries limits staged more := by
  have hret : (retained entries more).Sublist (retained entries evict) :=
    monotone_filter_right _ fun entry hent => by
      simp only [decide_eq_true_eq] at hent ⊢
      exact fun hmem => hent (hsub hmem)
  exact ⟨(Nat.add_le_add_right (bytes_le_of_sublist hret) _).trans h.1,
    ((hret.filter _).cons_cons staged).length_le.trans h.2⟩

end

variable [LinearOrder K] {entries : List (ProxyCacheEntry K)}
variable {limits : ProxyCacheLimits} {staged : ProxyCacheEntry K}

/-- The limits, the staged artifact and the index pass the checks that stand
before the eviction. -/
structure Accepted (entries : List (ProxyCacheEntry K))
    (limits : ProxyCacheLimits) (staged : ProxyCacheEntry K) : Prop where
  maxEntries : 0 < limits.maxEntries ∧ limits.maxEntries ≤ proxyCacheHardMaxEntries
  maxEntryBytes : limits.maxEntryBytes ≤ proxyCacheHardMaxEntryBytes ∧
    limits.maxEntryBytes ≤ limits.maxTotalBytes
  maxTotalBytes : limits.maxTotalBytes ≤ proxyCacheHardMaxTotalBytes
  artifact : 0 < staged.artifactBytes ∧ staged.artifactBytes ≤ limits.maxEntryBytes
  count : entries.length ≤ proxyCacheHardMaxEntries
  distinct : (entries.map (·.key)).Nodup
  sizes : ∀ entry ∈ entries, 0 < entry.artifactBytes ∧ entry.artifactBytes ≤ limits.maxEntryBytes
  total : bytes entries ≤ limits.maxTotalBytes

/-- What the index holds under the key of the staged artifact. -/
def Replaced (entries : List (ProxyCacheEntry K)) (key : K) (existing : ℕ) : Prop :=
  (existing = 0 ∧ ∀ entry ∈ entries, entry.key ≠ key) ∨
    ∃ entry ∈ entries, entry.key = key ∧ entry.artifactBytes = existing ∧ 0 < existing

theorem checkedAdd_of_le {a b : ℕ} (h : a + b ≤ u64Max) : checkedAddU64 a b = some (a + b) := by
  unfold u64Max at h
  exact checkedWord_eq_some.mpr ⟨by omega, rfl⟩

theorem scanEntries_ok (key : K) (keys : List K) (retainedBytes existing : ℕ)
    (hdist : (entries.map (·.key)).Nodup)
    (hkeys : ∀ entry ∈ entries, entry.key ∉ keys)
    (hsizes : ∀ entry ∈ entries,
      0 < entry.artifactBytes ∧ entry.artifactBytes ≤ limits.maxEntryBytes)
    (htot : retainedBytes + bytes entries ≤ u64Max) :
    ∃ found, scanEntries key limits entries keys retainedBytes existing =
        .ok (retainedBytes + bytes entries, found) ∧
      ((found = existing ∧ ∀ entry ∈ entries, entry.key ≠ key) ∨
        ∃ entry ∈ entries, entry.key = key ∧ entry.artifactBytes = found ∧ 0 < found) := by
  induction entries generalizing keys retainedBytes existing with
  | nil => exact ⟨existing, rfl, .inl ⟨rfl, by simp⟩⟩
  | cons entry rest ih =>
    obtain ⟨hent, hrest⟩ := nodup_cons.mp hdist
    obtain ⟨hpos, hle⟩ := hsizes entry mem_cons_self
    have hbytes : bytes (entry :: rest) = entry.artifactBytes + bytes rest := sum_cons
    rw [hbytes, ← add_assoc] at htot
    have hadd : checkedAddU64 retainedBytes entry.artifactBytes =
        some (retainedBytes + entry.artifactBytes) :=
      checkedAdd_of_le (by omega)
    obtain ⟨found, hscan, hfound⟩ := ih (entry.key :: keys) (retainedBytes + entry.artifactBytes)
      (if entry.key = key then entry.artifactBytes else existing) hrest
      (by
        intro other hother hmem
        obtain heq | hmem := mem_cons.mp hmem
        · exact hent (mem_map.mpr ⟨other, hother, heq⟩)
        · exact hkeys other (mem_cons_of_mem _ hother) hmem)
      (fun other hother => hsizes other (mem_cons_of_mem _ hother)) htot
    refine ⟨found, ?_, ?_⟩
    · simp only [scanEntries, refuse, hkeys entry mem_cons_self, hadd, require]
      rw [if_neg id, if_neg (by omega), hbytes, ← add_assoc]
      exact hscan
    · obtain ⟨rfl, hnone⟩ | ⟨other, hother, hother'⟩ := hfound
      · by_cases hkey : entry.key = key
        · refine .inr ⟨entry, mem_cons_self, hkey, ?_⟩
          rw [if_pos hkey]
          exact ⟨rfl, hpos⟩
        · rw [if_neg hkey]
          exact .inl ⟨rfl, forall_mem_cons.mpr ⟨hkey, hnone⟩⟩
      · exact .inr ⟨other, mem_cons_of_mem _ hother, hother'⟩

variable {evict : List K} {existing : ℕ}

theorem Replaced.retained (h : Replaced entries staged.key existing)
    (hdist : (entries.map (·.key)).Nodup) (hevict : staged.key ∉ evict) :
    bytes (retained entries evict) = existing +
        bytes ((retained entries evict).filter (·.key ≠ staged.key)) ∧
      (retained entries evict).length = existingSameEntries existing +
        ((retained entries evict).filter (·.key ≠ staged.key)).length := by
  obtain ⟨rfl, hnone⟩ | ⟨entry, hmem, hkey, rfl, hpos⟩ := h
  · have hfilter : (Proxy.retained entries evict).filter
        (·.key ≠ staged.key) = Proxy.retained entries evict :=
      filter_eq_self.mpr fun entry hent => decide_eq_true (hnone entry (mem_filter.mp hent).1)
    rw [hfilter]
    exact ⟨(zero_add _).symm, (zero_add _).symm⟩
  · have hret : entry ∈ Proxy.retained entries evict :=
      mem_filter.mpr ⟨hmem, decide_eq_true (hkey ▸ hevict)⟩
    rw [existingSameEntries, if_neg hpos.ne', ← hkey]
    exact bytes_of_mem (nodup_retained hdist evict) hret

def planFor (entries : List (ProxyCacheEntry K)) (staged : ProxyCacheEntry K)
    (evict : List K) : ProxyCachePlan K :=
  ⟨staged.key, staged.artifactBytes, evict, bytes (retained entries evict),
    bytes (retained entries evict) + staged.artifactBytes,
    bytes (committed entries evict staged),
    (committed entries evict staged).length, atomicProxyCacheCommitLaw⟩

theorem checkedSub_add {a b c d : ℕ} (h : a = b + c) (hle : c + d ≤ u64Max) :
    (checkedSub a b).bind (checkedAddU64 · d) = some (c + d) := by
  rw [checkedSub, if_pos (by omega), h, Nat.add_sub_cancel_left]
  exact checkedAdd_of_le hle

section

variable (h : Accepted entries limits staged)
variable (hreplaced : Replaced entries staged.key existing)
variable (hevict : staged.key ∉ evict)
include h hreplaced hevict

theorem admission_values :
    checkedAddU64 (bytes (retained entries evict)) staged.artifactBytes =
        some (bytes (retained entries evict) + staged.artifactBytes) ∧
      (checkedSub (retained entries evict).length
          (existingSameEntries existing)).bind (checkedAddU64 · 1) =
        some (committed entries evict staged).length ∧
      (checkedSub (bytes (retained entries evict)) existing).bind
          (checkedAddU64 · staged.artifactBytes) =
        some (bytes (committed entries evict staged)) := by
  obtain ⟨hbytes, hlen⟩ := hreplaced.retained h.distinct hevict
  have hret : bytes (retained entries evict) ≤ limits.maxTotalBytes :=
    (bytes_le_of_sublist filter_sublist).trans h.total
  have hcnt : (retained entries evict).length ≤ proxyCacheHardMaxEntries :=
    (length_filter_le _ _).trans h.count
  have htot := h.maxTotalBytes
  have hartifact := h.artifact.2.trans h.maxEntryBytes.2
  have hcom : bytes (committed entries evict staged) =
      bytes ((retained entries evict).filter (·.key ≠ staged.key)) + staged.artifactBytes :=
    sum_cons.trans (add_comm _ _)
  unfold proxyCacheHardMaxTotalBytes at htot
  unfold proxyCacheHardMaxEntries at hcnt
  rw [hcom]
  refine ⟨checkedAdd_of_le ?_, checkedSub_add hlen ?_, checkedSub_add hbytes ?_⟩
  all_goals
    unfold u64Max
    omega

/-- The loop where these keys are evicted already. -/
def evictFrom (entries : List (ProxyCacheEntry K)) (limits : ProxyCacheLimits)
    (staged : ProxyCacheEntry K) (existing : ℕ) (evict : List K) (rest : List (ProxyCacheEntry K)) :
    Except (ProxyError K) (ProxyCachePlan K) :=
  evictUntilAdmitted staged.key staged.artifactBytes existing limits rest
    (bytes (retained entries evict)) (retained entries evict).length evict

theorem evictFrom_of_fits (hfits : Fits entries limits staged evict)
    (rest : List (ProxyCacheEntry K)) :
    evictFrom entries limits staged existing evict rest = .ok (planFor entries staged evict) := by
  obtain ⟨hpeak, hents, hbytes⟩ := admission_values h hreplaced hevict
  have hadm : _ ∧ _ := hfits
  rw [evictFrom, evictUntilAdmitted.eq_def]
  simp only [hpeak, hents, hbytes, require, bind, Except.bind, if_pos hadm]
  rfl

theorem evictFrom_nil (hfits : ¬ Fits entries limits staged evict) :
    ∃ peak count, evictFrom entries limits staged existing evict [] =
      .error (.cacheAdmission peak limits.maxTotalBytes count limits.maxEntries) := by
  obtain ⟨hpeak, hents, -⟩ := admission_values h hreplaced hevict
  have hadm : ¬ (_ ∧ _) := hfits
  rw [evictFrom, evictUntilAdmitted.eq_def]
  simp only [hpeak, hents, require, bind, Except.bind, if_neg hadm]
  exact ⟨_, _, rfl⟩

theorem evictFrom_cons (hfits : ¬ Fits entries limits staged evict) {candidate : ProxyCacheEntry K}
    (rest : List (ProxyCacheEntry K)) (hmem : candidate ∈ retained entries evict) :
    evictFrom entries limits staged existing evict (candidate :: rest) =
      evictFrom entries limits staged existing (evict ++ [candidate.key])
        rest := by
  obtain ⟨hpeak, hents, -⟩ := admission_values h hreplaced hevict
  have hadm : ¬ (_ ∧ _) := hfits
  obtain ⟨hbytes, hlen⟩ := bytes_of_mem (nodup_retained h.distinct evict) hmem
  have hsubBytes : checkedSub (bytes (retained entries evict))
      candidate.artifactBytes = some (bytes (retained entries (evict ++ [candidate.key]))) := by
    rw [retained_concat, checkedSub, if_pos (by omega), hbytes, Nat.add_sub_cancel_left]
  have hsubEntries : checkedSub (retained entries evict).length 1 =
      some (retained entries (evict ++ [candidate.key])).length := by
    rw [retained_concat, checkedSub, if_pos (by omega), hlen, Nat.add_sub_cancel_left]
  rw [evictFrom, evictUntilAdmitted.eq_def]
  simp only [hpeak, hents, hsubBytes, hsubEntries, require, bind, Except.bind, if_neg hadm]
  rfl

theorem evictFrom_spec {rest : List (ProxyCacheEntry K)} (hnd : (rest.map (·.key)).Nodup)
    (hrest : ∀ entry ∈ rest, entry ∈ retained entries evict ∧ entry.key ≠ staged.key) :
    (∃ n, Fits entries limits staged (evict ++ (rest.take n).map (·.key)) ∧
      (∀ m < n, ¬ Fits entries limits staged (evict ++ (rest.take m).map (·.key))) ∧
      evictFrom entries limits staged existing evict rest =
        .ok (planFor entries staged (evict ++ (rest.take n).map (·.key)))) ∨
    ¬ Fits entries limits staged (evict ++ rest.map (·.key)) ∧
      ∃ peak count, evictFrom entries limits staged existing evict rest =
        .error (.cacheAdmission peak limits.maxTotalBytes count limits.maxEntries) := by
  induction rest generalizing evict with
  | nil =>
    by_cases hfits : Fits entries limits staged evict
    · refine .inl ⟨0, by simpa using hfits, by simp, ?_⟩
      simpa using evictFrom_of_fits h hreplaced hevict hfits []
    · exact .inr ⟨by simpa using hfits, evictFrom_nil h hreplaced hevict hfits⟩
  | cons candidate rest ih =>
    by_cases hfits : Fits entries limits staged evict
    · refine .inl ⟨0, by simpa using hfits, by simp, ?_⟩
      simpa using evictFrom_of_fits h hreplaced hevict hfits _
    · obtain ⟨⟨hmem, hne⟩, hothers⟩ := forall_mem_cons.mp hrest
      obtain ⟨hfresh, hnd⟩ := nodup_cons.mp hnd
      have hnext := @ih (evict ++ [candidate.key]) (by
        simpa using ⟨hevict, hne.symm⟩) hnd fun entry hent => by
          refine ⟨?_, (hothers entry hent).2⟩
          rw [retained_concat]
          exact mem_filter.mpr ⟨(hothers entry hent).1,
            decide_eq_true fun heq => hfresh (mem_map.mpr ⟨entry, hent, heq⟩)⟩
      rw [evictFrom_cons h hreplaced hevict hfits rest hmem]
      simp only [append_assoc, singleton_append] at hnext
      obtain ⟨n, hn, hshorter, hok⟩ | herr := hnext
      · refine .inl ⟨n + 1, hn, ?_, hok⟩
        intro m hm
        cases m with
        | zero => simpa using hfits
        | succ m => exact hshorter m (lt_of_succ_lt_succ hm)
      · exact .inr herr

end

theorem candidates_perm (key : K) (entries : List (ProxyCacheEntry K)) :
    (candidates key entries).Perm (entries.filter (·.key ≠ key)) :=
  mergeSort_perm _ _

theorem candidates_sorted (key : K) (entries : List (ProxyCacheEntry K)) :
    (candidates key entries).Pairwise fun a b => a.usage ≤ b.usage := by
  refine (pairwise_mergeSort ?_ ?_ _).imp decide_eq_true_iff.mp
  · intro a b c hab hbc
    simp only [decide_eq_true_eq] at hab hbc ⊢
    exact hab.trans hbc
  · intro a b
    simpa using le_total a.usage b.usage

theorem preflight_eq (h : Accepted entries limits staged) :
    ∃ existing, Replaced entries staged.key existing ∧
      ProxyCachePlan.preflight staged.key staged.artifactBytes entries limits =
        evictFrom entries limits staged existing [] (candidates staged.key entries) := by
  have htot := h.total
  have hmaxTotalBytes := h.maxTotalBytes
  obtain ⟨existing, hscan, hfound⟩ := scanEntries_ok staged.key [] 0 0
    h.distinct (fun _ _ => not_mem_nil) h.sizes (by
      unfold proxyCacheHardMaxTotalBytes at hmaxTotalBytes
      unfold u64Max
      omega)
  refine ⟨existing, hfound, ?_⟩
  have hmaxEntries := h.maxEntries
  have hmaxEntryBytes := h.maxEntryBytes
  have hartifact := h.artifact
  have hcnt := h.count
  have hall : retained entries [] = entries :=
    filter_eq_self.mpr fun _ _ => decide_eq_true not_mem_nil
  rw [zero_add] at hscan
  rw [evictFrom, hall]
  simp (disch := omega) only [ProxyCachePlan.preflight, ProxyCacheLimits.validate, refuse, if_neg,
    hscan, bind, Except.bind, pure, Except.pure]

/-- The admission evicts the shortest prefix of the other entries, from the one
that was used least recently, that makes room, and it fails only where all of
them together do not. -/
theorem preflight_shortest (h : Accepted entries limits staged) :
    ((∃ plan, ProxyCachePlan.preflight staged.key staged.artifactBytes entries limits = .ok plan) ↔
      Fits entries limits staged ((entries.filter (·.key ≠ staged.key)).map (·.key))) ∧
    (∀ plan, ProxyCachePlan.preflight staged.key staged.artifactBytes entries limits = .ok plan →
      plan = planFor entries staged plan.evict ∧ staged.key ∉ plan.evict ∧
      ∃ (order : List (ProxyCacheEntry K)) (n : ℕ),
        order.Perm (entries.filter (·.key ≠ staged.key)) ∧
        order.Pairwise (fun a b => a.usage ≤ b.usage) ∧
        plan.evict = (order.take n).map (·.key) ∧
        Fits entries limits staged plan.evict ∧
        ∀ m < n, ¬ Fits entries limits staged ((order.take m).map (·.key))) ∧
    ProxyCachePlan.preflight staged.key staged.artifactBytes entries limits ≠
      .error .arithmeticOverflow := by
  obtain ⟨existing, hreplaced, hpreflight⟩ := preflight_eq h
  have hperm := candidates_perm staged.key entries
  have hother : ∀ entry ∈ candidates staged.key entries,
      entry ∈ entries ∧ entry.key ≠ staged.key := fun entry hentry => by
    simpa using hperm.mem_iff.mp hentry
  have hnodup : ((candidates staged.key entries).map (·.key)).Nodup :=
    (hperm.map _).nodup_iff.mpr (h.distinct.sublist (filter_sublist.map _))
  rw [hpreflight]
  obtain ⟨n, hfits, hshorter, hok⟩ | ⟨hfits, peak, count, herror⟩ :=
    evictFrom_spec h hreplaced not_mem_nil hnodup fun entry hentry =>
      ⟨mem_filter.mpr ⟨(hother entry hentry).1,
        decide_eq_true not_mem_nil⟩, (hother entry hentry).2⟩
  · rw [nil_append] at hfits hok
    rw [hok]
    refine ⟨⟨fun _ => hfits.mono ?_, fun _ => ⟨_, rfl⟩⟩, ?_, by simp⟩
    · exact List.Subset.trans ((take_sublist _ _).map _).subset (hperm.map _).subset
    · rintro plan ⟨⟩
      refine ⟨rfl, ?_, _, n, hperm, candidates_sorted _ _, rfl, hfits, hshorter⟩
      intro hmem
      obtain ⟨entry, hentry, hkey⟩ := mem_map.mp hmem
      exact (hother entry (mem_of_mem_take hentry)).2 hkey
  · rw [herror]
    refine ⟨⟨by simp, fun hall => absurd ?_ hfits⟩, by simp, by simp⟩
    exact hall.mono (hperm.map _).symm.subset

/-- A new artifact where the index is full. -/
theorem preflight_shortest_full :
    ∃ plan, ProxyCachePlan.preflight 3 100 [⟨2, 60, 1⟩, ⟨1, 60, 1⟩] ⟨2, 100, 200⟩ = .ok plan := by
  have haccepted : Accepted [⟨2, 60, 1⟩, ⟨1, 60, 1⟩] ⟨2, 100, 200⟩
      (⟨3, 100, 2⟩ : ProxyCacheEntry ℕ) := by
    constructor <;> decide
  exact (preflight_shortest haccepted).1.mpr (by unfold Fits; decide)

end CollideOScope.Proxy
