import CollideOScope.Midi.Feedback

/-!
# Feedback never goes backwards

Pending bytes are the newest accepted for their key and sent bytes follow the
order of acceptance, as long as no failed send is put back over a newer value.
Putting it back is the one step that can lose a newer value: it inserts without
looking whether the key is pending again.
-/

namespace CollideOScope.Midi

open FeedbackState List Option Function

open CollideOScope.Control

/-- The message at `position` is the last of its key in a log. -/
structure Newest (log : List WireBytes) (key : FeedbackKey) (position : ℕ)
    (bytes : WireBytes) : Prop where
  recorded : log[position]? = some bytes
  keyed : bytes.key = key
  last : ∀ later other, log[later]? = some other → other.key = key → later ≤ position

namespace Newest

variable {log : List WireBytes} {key : FeedbackKey} {position : ℕ}
variable {bytes : WireBytes}

theorem append (log : List WireBytes) (bytes : WireBytes) :
    Newest (log ++ [bytes]) bytes.key log.length bytes where
  recorded := List.getElem?_concat_length
  keyed := rfl
  last later other hlater _ := by
    have hlt := (List.getElem?_eq_some_iff.mp hlater).1
    rw [length_append, length_singleton] at hlt
    exact Nat.lt_succ_iff.mp hlt

theorem append_ne (h : Newest log key position bytes) {added : WireBytes}
    (hne : added.key ≠ key) : Newest (log ++ [added]) key position bytes where
  recorded := by
    have hlt := (List.getElem?_eq_some_iff.mp h.recorded).1
    exact (getElem?_append_left hlt).trans h.recorded
  keyed := h.keyed
  last later other hlater hother := by
    rcases lt_trichotomy later log.length with hlt | rfl | hgt
    · rw [getElem?_append_left hlt] at hlater
      exact h.last later other hlater hother
    · rw [getElem?_concat_length] at hlater
      exact absurd (some.inj hlater ▸ hother) hne
    · have hlen : (log ++ [added]).length ≤ later := by
        rw [length_append]
        exact hgt
      rw [getElem?_eq_none hlen] at hlater
      cases hlater

theorem of_append_ne {added : WireBytes}
    (h : Newest (log ++ [added]) key position bytes) (hne : added.key ≠ key) :
    Newest log key position bytes where
  recorded := by
    have hrec := h.recorded
    rcases lt_trichotomy position log.length with hlt | rfl | hgt
    · rwa [getElem?_append_left hlt] at hrec
    · rw [getElem?_concat_length] at hrec
      exact absurd (some.inj hrec ▸ h.keyed) hne
    · have hlt := (List.getElem?_eq_some_iff.mp hrec).1
      rw [length_append, length_singleton] at hlt
      omega
  keyed := h.keyed
  last later other hlater hother :=
    h.last later other
      ((getElem?_append_left (List.getElem?_eq_some_iff.mp hlater).1).trans hlater) hother

theorem position_unique {position' : ℕ} {bytes' : WireBytes} (h : Newest log key position bytes)
    (h' : Newest log key position' bytes') : position = position' :=
  le_antisymm (h'.last _ _ h.recorded h.keyed) (h.last _ _ h'.recorded h'.keyed)

end Newest

/-- The worker has taken `bytes` out of the map and not yet sent them. -/
def FeedbackWorker.Holds (worker : FeedbackWorker) (key : FeedbackKey) (bytes : WireBytes) : Prop :=
  worker = .sending key bytes ∨ worker = .failed key bytes

structure NeverBackwards (s : FeedbackState) (h : FeedbackHistory) : Prop where
  latest : ∀ key bytes, s.pending.lookup key = some bytes →
    ∃ position, Newest h.accepted key position bytes
  origin : ∀ x ∈ h.sent, h.accepted[x.2]? = some x.1
  forward : h.sent.Pairwise fun x y => x.1.key = y.1.key → x.2 < y.2

structure FeedbackOrder (s : FeedbackState) (h : FeedbackHistory) : Prop where
  pendingNewest : ∀ key bytes, s.pending.lookup key = some bytes →
    Newest h.accepted key (h.pendingOrigin key) bytes
  pendingAhead : ∀ key ∈ s.pending, ∀ x ∈ h.sent, x.1.key = key → x.2 < h.pendingOrigin key
  heldRecorded : ∀ key bytes, s.worker.Holds key bytes →
    bytes.key = key ∧ h.accepted[h.heldOrigin]? = some bytes
  heldAhead : ∀ key bytes, s.worker.Holds key bytes →
    ∀ x ∈ h.sent, x.1.key = key → x.2 < h.heldOrigin
  heldBehind : ∀ key bytes, s.worker.Holds key bytes → key ∈ s.pending →
    h.heldOrigin < h.pendingOrigin key
  heldNewest : ∀ key bytes, s.worker.Holds key bytes → key ∉ s.pending →
    Newest h.accepted key h.heldOrigin bytes
  sentRecorded : ∀ x ∈ h.sent, h.accepted[x.2]? = some x.1
  sentForward : h.sent.Pairwise fun x y => x.1.key = y.1.key → x.2 < y.2
  settled : ∀ key position bytes, Newest h.accepted key position bytes →
    key ∈ s.pending ∨ (∃ held, s.worker.Holds key held) ∨ (bytes, position) ∈ h.sent

namespace FeedbackOrder

variable {s : FeedbackState} {h : FeedbackHistory} {bytes : WireBytes} {key : FeedbackKey}

theorem neverBackwards (horder : FeedbackOrder s h) : NeverBackwards s h where
  latest key bytes hpend := ⟨_, horder.pendingNewest key bytes hpend⟩
  origin := horder.sentRecorded
  forward := horder.sentForward

theorem sent_newest (horder : FeedbackOrder s h) (hidle : s.worker = .idle)
    (hemp : s.pending.len = 0) {position : ℕ} (hnew : Newest h.accepted key position bytes) :
    ∃ sentAt, Newest (h.sent.map Prod.fst) key sentAt bytes := by
  have hsent : (bytes, position) ∈ h.sent := by
    rcases horder.settled key position bytes hnew with hpend | ⟨held, hheld⟩ | hsent
    · have hlook := PendingFeedback.lookup_eq_none_of_len hemp key
      exact absurd hpend (AList.lookup_eq_none.mp hlook)
    · rw [hidle] at hheld
      rcases hheld with hheld | hheld <;> cases hheld
    · exact hsent
  obtain ⟨sentAt, hlt, hat⟩ := getElem_of_mem hsent
  refine ⟨sentAt, ⟨?_, hnew.keyed, ?_⟩⟩
  · rw [getElem?_map, getElem?_eq_getElem hlt, hat]
    rfl
  · intro later other hlater hother
    rw [getElem?_map, map_eq_some_iff] at hlater
    obtain ⟨x, hx, rfl⟩ := hlater
    obtain ⟨hlaterLt, hxat⟩ := List.getElem?_eq_some_iff.mp hx
    by_contra hgt
    have hpair := pairwise_iff_getElem.mp horder.sentForward sentAt later
      hlt hlaterLt (not_le.mp hgt)
    rw [hat, hxat] at hpair
    have hfwd := hpair (hnew.keyed.trans hother.symm)
    have hrec := horder.sentRecorded x (mem_of_getElem? hx)
    exact absurd (hnew.last _ _ hrec hother) (not_le.mpr hfwd)

theorem congr {t : FeedbackState} (horder : FeedbackOrder s h) (hpend : t.pending = s.pending)
    (hheld : ∀ key bytes, t.worker.Holds key bytes ↔ s.worker.Holds key bytes) :
    FeedbackOrder t h where
  pendingNewest := by
    rw [hpend]
    exact horder.pendingNewest
  pendingAhead := by
    rw [hpend]
    exact horder.pendingAhead
  heldRecorded key bytes hb := horder.heldRecorded key bytes ((hheld _ _).mp hb)
  heldAhead key bytes hb := horder.heldAhead key bytes ((hheld _ _).mp hb)
  heldBehind key bytes hb := by
    rw [hpend]
    exact horder.heldBehind key bytes ((hheld _ _).mp hb)
  heldNewest key bytes hb := by
    rw [hpend]
    exact horder.heldNewest key bytes ((hheld _ _).mp hb)
  sentRecorded := horder.sentRecorded
  sentForward := horder.sentForward
  settled key position bytes hnew := by
    rw [hpend]
    simp only [hheld]
    exact horder.settled key position bytes hnew

theorem initial : FeedbackOrder .initial .empty where
  pendingNewest _ _ hlook := by cases hlook
  pendingAhead _ _ _ hx := by cases hx
  heldRecorded _ _ hheld := by rcases hheld with hheld | hheld <;> cases hheld
  heldAhead _ _ _ _ hx := by cases hx
  heldBehind _ _ hheld := by rcases hheld with hheld | hheld <;> cases hheld
  heldNewest _ _ hheld := by rcases hheld with hheld | hheld <;> cases hheld
  sentRecorded _ hx := by cases hx
  sentForward := List.Pairwise.nil
  settled _ _ _ hnew := by cases hnew.recorded

variable (horder : FeedbackOrder s h)
include horder

theorem insert {rest : List WireBytes} (hacc : s.Accepts bytes) :
    FeedbackOrder (s.insert bytes rest)
      { h with
        accepted := h.accepted ++ [bytes]
        pendingOrigin := update h.pendingOrigin bytes.key h.accepted.length } := by
  have hpend : (s.insert bytes rest).pending = s.pending.insert bytes.key bytes := by
    rw [FeedbackState.insert, if_pos hacc]
  have hworker : (s.insert bytes rest).worker = s.worker := by
    rw [FeedbackState.insert, if_pos hacc]
  have hkept : ∀ (i : ℕ) (old : WireBytes), h.accepted[i]? = some old →
      (h.accepted ++ [bytes])[i]? = some old := fun i old hold =>
    (List.getElem?_append_left (List.getElem?_eq_some_iff.mp hold).1).trans hold
  have hpre : ∀ x ∈ h.sent, x.2 < h.accepted.length := fun x hx =>
    (List.getElem?_eq_some_iff.mp (horder.sentRecorded x hx)).1
  refine
    { pendingNewest := ?_
      pendingAhead := ?_
      heldRecorded := ?_
      heldAhead := ?_
      heldBehind := ?_
      heldNewest := ?_
      sentRecorded := fun x hx => hkept _ _ (horder.sentRecorded x hx)
      sentForward := horder.sentForward
      settled := ?_ }
  · intro key other hlook
    rw [hpend] at hlook
    by_cases hkey : key = bytes.key
    · subst hkey
      rw [AList.lookup_insert] at hlook
      rw [← some.inj hlook]
      simpa using Newest.append h.accepted bytes
    · rw [AList.lookup_insert_ne hkey] at hlook
      simpa [update_of_ne hkey] using
        (horder.pendingNewest key other hlook).append_ne (Ne.symm hkey)
  · intro key hmem x hx hxkey
    rw [hpend, AList.mem_insert] at hmem
    by_cases hkey : key = bytes.key
    · simpa [hkey] using hpre x hx
    · simpa [update_of_ne hkey] using horder.pendingAhead key (hmem.resolve_left hkey) x hx hxkey
  · intro key held hheld
    rw [hworker] at hheld
    obtain ⟨hkey, hrec⟩ := horder.heldRecorded key held hheld
    exact ⟨hkey, hkept _ _ hrec⟩
  · intro key held hheld
    rw [hworker] at hheld
    exact horder.heldAhead key held hheld
  · intro key held hheld hmem
    rw [hworker] at hheld
    rw [hpend, AList.mem_insert] at hmem
    by_cases hkey : key = bytes.key
    · obtain ⟨-, hrec⟩ := horder.heldRecorded key held hheld
      simpa [hkey] using (List.getElem?_eq_some_iff.mp hrec).1
    · simpa [update_of_ne hkey] using horder.heldBehind key held hheld (hmem.resolve_left hkey)
  · intro key held hheld hmem
    rw [hworker] at hheld
    rw [hpend, AList.mem_insert, not_or] at hmem
    exact (horder.heldNewest key held hheld hmem.2).append_ne (Ne.symm hmem.1)
  · intro key position other hnew
    rw [hpend, AList.mem_insert, hworker]
    by_cases hkey : key = bytes.key
    · exact .inl (.inl hkey)
    · rcases horder.settled key position other (hnew.of_append_ne (Ne.symm hkey)) with hmem | hrest
      · exact .inl (.inr hmem)
      · exact .inr hrest

theorem popFirst {rest : PendingFeedback} (hpop : s.pending.popFirst = some ((key, bytes), rest))
    (hidle : ∀ key bytes, ¬s.worker.Holds key bytes) :
    FeedbackOrder { s with pending := rest, worker := .sending key bytes }
      { h with heldOrigin := h.pendingOrigin key } := by
  obtain ⟨hlook, rfl⟩ := PendingFeedback.popFirst_eq_some hpop
  have hnew := horder.pendingNewest key bytes hlook
  have hmem : key ∈ s.pending := by
    rw [← AList.lookup_isSome, hlook]
    rfl
  have hself : ∀ {key' bytes'},
      FeedbackWorker.Holds (.sending key bytes) key' bytes' → key' = key ∧ bytes' = bytes := by
    rintro key' bytes' (hheld | hheld)
    · cases hheld
      exact ⟨rfl, rfl⟩
    · cases hheld
  refine
    { pendingNewest := ?_
      pendingAhead := ?_
      heldRecorded := ?_
      heldAhead := ?_
      heldBehind := ?_
      heldNewest := ?_
      sentRecorded := horder.sentRecorded
      sentForward := horder.sentForward
      settled := ?_ }
  · intro other found hfound
    by_cases hkey : other = key
    · rw [hkey, AList.lookup_erase] at hfound
      cases hfound
    · rw [AList.lookup_erase_ne hkey] at hfound
      exact horder.pendingNewest other found hfound
  · intro other hother
    exact horder.pendingAhead other (AList.mem_erase.mp hother).2
  · intro key' bytes' hheld
    obtain ⟨rfl, rfl⟩ := hself hheld
    exact ⟨hnew.keyed, hnew.recorded⟩
  · intro key' bytes' hheld
    obtain ⟨rfl, rfl⟩ := hself hheld
    exact horder.pendingAhead key' hmem
  · intro key' bytes' hheld hpend
    obtain ⟨rfl, rfl⟩ := hself hheld
    exact absurd rfl (AList.mem_erase.mp hpend).1
  · intro key' bytes' hheld _
    obtain ⟨rfl, rfl⟩ := hself hheld
    exact hnew
  · intro other position found hfound
    by_cases hkey : other = key
    · exact .inr (.inl ⟨bytes, .inl (by rw [hkey])⟩)
    · rcases horder.settled other position found hfound with hpend | ⟨held, hheld⟩ | hsent
      · exact .inl (AList.mem_erase.mpr ⟨hkey, hpend⟩)
      · exact absurd hheld (hidle other held)
      · exact .inr (.inr hsent)

theorem sent (hworker : s.worker = .sending key bytes) :
    FeedbackOrder (s.sent bytes) { h with sent := h.sent ++ [(bytes, h.heldOrigin)] } := by
  have hheld : s.worker.Holds key bytes := .inl hworker
  obtain ⟨hkeyed, hrecorded⟩ := horder.heldRecorded key bytes hheld
  have hnone : ∀ key' bytes', ¬(s.sent bytes).worker.Holds key' bytes' := by
    rintro key' bytes' (hidle | hidle) <;> cases hidle
  have hsent : ∀ x ∈ h.sent ++ [(bytes, h.heldOrigin)],
      x ∈ h.sent ∨ x = (bytes, h.heldOrigin) := by
    intro x hx
    simpa using hx
  refine
    { pendingNewest := horder.pendingNewest
      pendingAhead := ?_
      heldRecorded := fun _ _ hb => absurd hb (hnone _ _)
      heldAhead := fun _ _ hb => absurd hb (hnone _ _)
      heldBehind := fun _ _ hb => absurd hb (hnone _ _)
      heldNewest := fun _ _ hb => absurd hb (hnone _ _)
      sentRecorded := ?_
      sentForward := ?_
      settled := ?_ }
  · intro other hother x hx hxkey
    rcases hsent x hx with hx | rfl
    · exact horder.pendingAhead other hother x hx hxkey
    · have hkey : other = key := hxkey.symm.trans hkeyed
      subst hkey
      exact horder.heldBehind other bytes hheld hother
  · intro x hx
    rcases hsent x hx with hx | rfl
    · exact horder.sentRecorded x hx
    · exact hrecorded
  · refine pairwise_append.mpr ⟨horder.sentForward, pairwise_singleton _ _, ?_⟩
    intro x hx y hy hxy
    rw [mem_singleton] at hy
    subst hy
    exact horder.heldAhead key bytes hheld x hx (hxy.trans hkeyed)
  · intro other position found hnewest
    rcases horder.settled other position found hnewest with hpend | ⟨held, hother⟩ | hsent
    · exact .inl hpend
    · have hsame : key = other ∧ bytes = held := by
        rcases hother with hother | hother
        · rw [hworker] at hother
          cases hother
          exact ⟨rfl, rfl⟩
        · rw [hworker] at hother
          cases hother
      obtain ⟨rfl, rfl⟩ := hsame
      by_cases hmem : key ∈ s.pending
      · exact .inl hmem
      · have hnew := horder.heldNewest key bytes hheld hmem
        have hpos := hnewest.position_unique hnew
        have hbytes : found = bytes := by
          have hrec := hnewest.recorded
          rw [hpos, hnew.recorded] at hrec
          exact (some.inj hrec).symm
        exact .inr (.inr (by rw [hpos, hbytes]; simp))
    · exact .inr (.inr (mem_append_left _ hsent))

theorem restore (hworker : s.worker = .failed key bytes)
    (hroom : s.pending.len < midiFeedbackKeysCapacity) (hclear : key ∉ s.pending) :
    FeedbackOrder (s.restore key bytes)
      { h with pendingOrigin := update h.pendingOrigin key h.heldOrigin } := by
  have hheld : s.worker.Holds key bytes := .inr hworker
  have hnew := horder.heldNewest key bytes hheld hclear
  have hrestore : s.restore key bytes =
      { s with
        pending := s.pending.insert key bytes
        worker := .idle
        connected := false
        counters := { s.counters with disconnects := s.counters.disconnects + 1 } } := by
    rw [FeedbackState.restore, if_neg (not_le.mpr hroom)]
  rw [hrestore]
  have hnone : ∀ key' bytes', ¬FeedbackWorker.Holds .idle key' bytes' := by
    rintro key' bytes' (hidle | hidle) <;> cases hidle
  refine
    { pendingNewest := ?_
      pendingAhead := ?_
      heldRecorded := fun _ _ hb => absurd hb (hnone _ _)
      heldAhead := fun _ _ hb => absurd hb (hnone _ _)
      heldBehind := fun _ _ hb => absurd hb (hnone _ _)
      heldNewest := fun _ _ hb => absurd hb (hnone _ _)
      sentRecorded := horder.sentRecorded
      sentForward := horder.sentForward
      settled := ?_ }
  · intro other found hfound
    by_cases hkey : other = key
    · subst hkey
      rw [AList.lookup_insert] at hfound
      rw [← some.inj hfound]
      simpa using hnew
    · rw [AList.lookup_insert_ne hkey] at hfound
      simpa [update_of_ne hkey] using horder.pendingNewest other found hfound
  · intro other hother x hx hxkey
    rw [AList.mem_insert] at hother
    by_cases hkey : other = key
    · subst hkey
      simpa using horder.heldAhead other bytes hheld x hx hxkey
    · simpa [update_of_ne hkey] using
        horder.pendingAhead other (hother.resolve_left hkey) x hx hxkey
  · intro other position found hother
    rcases horder.settled other position found hother with hpend | ⟨held, hheld'⟩ | hsent
    · exact .inl ((AList.mem_insert _).mpr (.inr hpend))
    · rcases hheld' with hheld' | hheld'
      · rw [hworker] at hheld'
        cases hheld'
      · rw [hworker] at hheld'
        cases hheld'
        exact .inl ((AList.mem_insert _).mpr (.inl rfl))
    · exact .inr (.inr hsent)

end FeedbackOrder

/-!
## Runs of MIDI feedback

In every run that puts no failed send back over a newer value, feedback never
goes backwards, and once the host stops and sends succeed every key's last
bytes are sent.
-/

variable {F : Type} [MidiFloat F]

def FeedbackWorker.failedKey? : FeedbackWorker → Option FeedbackKey
  | .failed key _ => some key
  | _ => none

def FeedbackLabel.isRestore : FeedbackLabel F → Bool
  | .restore => true
  | _ => false

/-- A failed send is put back only while its key is not pending and the map has
room for it. -/
def RestoresClear (p : FeedbackState × FeedbackHistory) (label : FeedbackLabel F) : Prop :=
  label.isRestore → ∀ key ∈ p.1.worker.failedKey?,
    p.1.pending.len < midiFeedbackKeysCapacity ∧ key ∉ p.1.pending

instance (p : FeedbackState × FeedbackHistory) (label : FeedbackLabel F) :
    Decidable (RestoresClear p label) :=
  inferInstanceAs (Decidable (_ → _))

omit [MidiFloat F] in
theorem RestoresClear.of_other {p : FeedbackState × FeedbackHistory}
    {label : FeedbackLabel F} (h : label.isRestore = false) :
    RestoresClear p label := by
  intro hrestore
  rw [h] at hrestore
  cases hrestore

def FeedbackLabel.Drains : FeedbackLabel F → Prop
  | .sendErr => False
  | label => label.IsWorker

section

variable {profile : ResolvedControllerProfile F}
variable {s t : FeedbackState} {h : FeedbackHistory} {label : FeedbackLabel F}

theorem FeedbackOrder.step (horder : FeedbackOrder s h) (hclear : RestoresClear (s, h) label)
    (hstep : s.step profile label = some t) :
    FeedbackOrder t (h.next s label t) := by
  cases label with simp only [step] at hstep
  | queueFeedback address value origin =>
    cases hwrites : s.writes with
    | cons bytes rest => simp [hwrites] at hstep
    | nil =>
      simp only [hwrites, Option.some.injEq] at hstep
      subst hstep
      refine horder.congr ?_ fun key bytes => ?_
      · simp only [queueFeedback]
        split <;> rfl
      · simp only [queueFeedback]
        split <;> rfl
  | writeNext =>
    cases hwrites : s.writes with
    | nil => simp [hwrites] at hstep
    | cons bytes rest =>
      simp only [hwrites, Option.some.injEq] at hstep
      subst hstep
      simp only [FeedbackHistory.next, hwrites]
      by_cases hacc : s.Accepts bytes
      · rw [if_pos hacc]
        exact horder.insert hacc
      · rw [if_neg hacc, FeedbackState.insert, if_neg hacc]
        exact horder.congr rfl fun _ _ => Iff.rfl
  | rescan found =>
    split at hstep
    · cases hstep
      exact horder.congr rfl fun _ _ => Iff.rfl
    · cases hstep
  | tick ready =>
    split at hstep
    · rename_i hidle
      cases hstep
      refine horder.congr ?_ fun key bytes => ?_
      · simp only [tick]
        split
        · split <;> rfl
        · rfl
      · simp only [tick]
        split
        · split
          · simp [FeedbackWorker.Holds, hidle]
          · rfl
        · rfl
    · cases hstep
  | popFirst =>
    split at hstep
    · rename_i hadm
      cases hstep
      have hidle : ∀ key bytes, ¬s.worker.Holds key bytes := by
        rw [hadm]
        rintro key bytes (hheld | hheld) <;> cases hheld
      rcases hpop : s.pending.popFirst with _ | ⟨⟨key, bytes⟩, rest⟩
      · simp only [FeedbackState.popFirst, FeedbackHistory.next, hpop]
        refine horder.congr rfl fun key bytes => ?_
        simp [FeedbackWorker.Holds, hadm]
      · simp only [FeedbackState.popFirst, FeedbackHistory.next, hpop]
        exact horder.popFirst hpop hidle
    · cases hstep
  | sendOk =>
    cases hworker : s.worker with
    | sending key bytes =>
      simp only [hworker, Option.some.injEq] at hstep
      subst hstep
      simp only [FeedbackHistory.next, hworker]
      exact horder.sent hworker
    | idle | admitted | failed key bytes => simp [hworker] at hstep
  | sendErr =>
    cases hworker : s.worker with
    | sending key bytes =>
      simp only [hworker, Option.some.injEq] at hstep
      subst hstep
      refine horder.congr rfl fun key' bytes' => ?_
      simp [FeedbackWorker.Holds, hworker]
    | idle | admitted | failed key bytes => simp [hworker] at hstep
  | restore =>
    cases hworker : s.worker with
    | failed key bytes =>
      simp only [hworker, Option.some.injEq] at hstep
      subst hstep
      obtain ⟨hroom, hfresh⟩ := hclear rfl key (by simp [hworker, FeedbackWorker.failedKey?])
      simp only [FeedbackHistory.next, hworker]
      exact horder.restore hworker hroom hfresh
    | idle | admitted | sending key bytes => simp [hworker] at hstep

theorem feedbackOrder_of_reachable {p : FeedbackState × FeedbackHistory}
    (hreach : (recordedFeedback profile).ReachableBy RestoresClear p) :
    FeedbackOrder p.1 p.2 := by
  refine hreach.invariant (P := fun p => FeedbackOrder p.1 p.2) ?_ ?_
  · rintro ⟨s, h⟩ ⟨hs, hh⟩
    cases hs
    cases hh
    exact .initial
  · rintro ⟨s, h⟩ label ⟨t, h'⟩ horder hclear hstep
    obtain ⟨hstep, hnext⟩ := Machine.observe_step_eq_some.mp hstep
    have horder' : FeedbackOrder t (h.next s label t) := FeedbackOrder.step horder hclear hstep
    rw [show h' = h.next s label t from hnext]
    exact horder'

/-- Nothing is pending and the worker holds nothing. -/
def FeedbackState.Quiet (s : FeedbackState) : Prop := s.worker = .idle ∧ s.pending.len = 0

/-- Runs of the worker alone in which sends succeed and restores are clear. -/
abbrev DrainRun (profile : ResolvedControllerProfile F) :
    FeedbackState × FeedbackHistory → FeedbackState × FeedbackHistory → Prop :=
  (recordedFeedback profile).Run fun p label => RestoresClear p label ∧ label.Drains

theorem DrainRun.single (label : FeedbackLabel F) {q : FeedbackState × FeedbackHistory}
    (hclear : RestoresClear (s, h) label) (hdrain : label.Drains)
    (hstep : s.step profile label = some t) (hq : q = (t, h.next s label t)) :
    DrainRun profile (s, h) q := by
  subst hq
  exact (Machine.Run.refl _).tail ⟨hclear, hdrain⟩ (Machine.observe_step_eq_some.mpr ⟨hstep, rfl⟩)

/-- An admitted worker sends the first pending value. -/
theorem DrainRun.send {key : FeedbackKey} {bytes : WireBytes} {rest : PendingFeedback}
    (hworker : s.worker = .admitted) (hpop : s.pending.popFirst = some ((key, bytes), rest)) :
    DrainRun profile (s, h)
      (({ s with pending := rest, worker := .sending key bytes } : FeedbackState).sent bytes,
        { h with
          heldOrigin := h.pendingOrigin key
          sent := h.sent ++ [(bytes, h.pendingOrigin key)] }) := by
  have htake : DrainRun profile (s, h)
      ({ s with pending := rest, worker := .sending key bytes },
        { h with heldOrigin := h.pendingOrigin key }) := by
    refine DrainRun.single .popFirst (.of_other rfl) trivial
      (show s.step profile .popFirst = some { s with pending := rest, worker := .sending key bytes }
        from ?_) ?_
    · simp only [step, FeedbackState.popFirst, hworker, hpop, if_true]
    · simp only [FeedbackHistory.next, hpop]
  exact htake.trans (DrainRun.single .sendOk (.of_other rfl) trivial rfl rfl)

theorem exists_drain_idle (profile : ResolvedControllerProfile F) (n : ℕ) (s : FeedbackState)
    (h : FeedbackHistory) (hlen : s.pending.len = n) (hidle : s.worker = .idle) :
    ∃ t h', DrainRun profile (s, h) (t, h') ∧ t.Quiet ∧ h'.accepted = h.accepted := by
  induction n generalizing s h with
  | zero => exact ⟨s, h, .refl _, ⟨hidle, hlen⟩, rfl⟩
  | succ n ih =>
    obtain ⟨key, bytes, hpop⟩ := PendingFeedback.exists_popFirst s.pending (by omega)
    have hmem : key ∈ s.pending := by
      rw [← AList.lookup_isSome, (PendingFeedback.popFirst_eq_some hpop).1]
      rfl
    have herase := PendingFeedback.len_erase hmem
    let connected : FeedbackState := { s with connected := true }
    let admitted : FeedbackState := { connected with worker := .admitted }
    have hrescan : DrainRun profile (s, h) (connected, h) :=
      .single (.rescan true) (.of_other rfl) trivial (if_pos hidle) rfl
    have htick : DrainRun profile (connected, h) (admitted, h) := by
      refine .single (.tick true) (t := admitted) (.of_other rfl) trivial ?_ rfl
      have hpend : 0 < connected.pending.len ∧ connected.connected :=
        ⟨by show 0 < s.pending.len; omega, rfl⟩
      simp only [step, tick, if_pos hpend,
        if_pos (show connected.worker = .idle from hidle), if_true]
      rfl
    obtain ⟨t, h', hrun, hquiet, hacc⟩ :=
      ih (sent { admitted with pending := s.pending.erase key } bytes) _
        (show PendingFeedback.len (s.pending.erase key) = n by omega) rfl
    have hsend : DrainRun profile (admitted, h) _ := .send rfl hpop
    exact ⟨t, h', ((hrescan.trans htick).trans hsend).trans hrun, hquiet, hacc⟩

theorem exists_drain (profile : ResolvedControllerProfile F) (s : FeedbackState)
    (h : FeedbackHistory) (hclear : RestoresClear (F := F) (s, h) .restore) :
    ∃ t h', DrainRun profile (s, h) (t, h') ∧ t.Quiet ∧ h'.accepted = h.accepted := by
  have hfin : ∀ (label : FeedbackLabel F) (t : FeedbackState),
      RestoresClear (s, h) label → label.Drains →
      s.step profile label = some t →
      t.worker = .idle → (h.next s label t).accepted = h.accepted →
      ∃ u h', DrainRun profile (s, h) (u, h') ∧ u.Quiet ∧ h'.accepted = h.accepted := by
    intro label t hlabel hdrain hstep hidle hacc
    obtain ⟨u, h', hrun, hquiet, hsame⟩ :=
      exists_drain_idle profile _ t (h.next s label t) rfl hidle
    exact ⟨u, h', (DrainRun.single label hlabel hdrain hstep rfl).trans hrun,
      hquiet, hsame.trans hacc⟩
  cases hworker : s.worker with
  | idle => exact exists_drain_idle profile _ s h rfl hworker
  | sending key bytes =>
    refine hfin .sendOk (s.sent bytes) (.of_other rfl) trivial ?_ rfl ?_
    · simp only [step, hworker]
    · simp only [FeedbackHistory.next, hworker]
  | failed key bytes =>
    refine hfin .restore (s.restore key bytes) hclear trivial ?_ ?_ ?_
    · simp only [step, hworker]
    · simp only [FeedbackState.restore]
      split <;> rfl
    · simp only [FeedbackHistory.next, hworker]
  | admitted =>
    rcases hpop : s.pending.popFirst with _ | ⟨⟨key, bytes⟩, rest⟩
    · refine hfin .popFirst s.popFirst (.of_other rfl) trivial ?_ ?_ ?_
      · simp [step, hworker]
      · simp only [FeedbackState.popFirst, hpop]
      · simp only [FeedbackHistory.next, hpop]
    · obtain ⟨t, h', hrun, hquiet, hacc⟩ :=
        exists_drain_idle profile _ (sent _ bytes) _ rfl rfl
      exact ⟨t, h', (DrainRun.send hworker hpop).trans hrun, hquiet, hacc⟩

/-- Feedback never goes backwards in runs that restore clear keys only, and the
host's last values are sent once it stops. -/
theorem feedback_neverBackwards {p : FeedbackState × FeedbackHistory}
    (hreach : (recordedFeedback profile).ReachableBy RestoresClear p) :
    NeverBackwards p.1 p.2 ∧
      (RestoresClear (F := F) p .restore →
        ∃ q, DrainRun profile p q ∧ q.1.Quiet ∧ q.2.accepted = p.2.accepted) ∧
      ∀ q, DrainRun profile p q → q.1.Quiet →
        ∀ key position bytes, Newest q.2.accepted key position bytes →
          ∃ sentAt, Newest (q.2.sent.map Prod.fst) key sentAt bytes := by
  obtain ⟨s, h⟩ := p
  refine ⟨(feedbackOrder_of_reachable hreach).neverBackwards, ?_, ?_⟩
  · intro hclear
    obtain ⟨t, h', hrun, hquiet, haccepted⟩ := exists_drain profile s h hclear
    exact ⟨(t, h'), hrun, hquiet, haccepted⟩
  · intro q hrun hquiet key position bytes hnewest
    obtain ⟨p₀, hstart, hprior⟩ := hreach
    have hq : (recordedFeedback profile).ReachableBy RestoresClear q :=
      ⟨p₀, hstart, hprior.trans (hrun.mono fun _ _ hguard => hguard.1)⟩
    exact (feedbackOrder_of_reachable hq).sent_newest hquiet.1 hquiet.2 hnewest

end

theorem recordedFeedback_start (profile : ResolvedControllerProfile F) :
    (recordedFeedback profile).start (.initial, .empty) :=
  ⟨rfl, rfl⟩

def lampProfile : ResolvedControllerProfile ℚ where
  name := "lamp"
  input := .firstAvailable
  output := .firstAvailable
  bindings :=
    [{ id := 1
       source := .controlChange 20
       channel := .omni
       encoding := .absolute
       buttonMode := none
       pressThreshold := 64
       relativeStep := 0
       target := .master .opacity
       feedback := some (.controlChange 1 20) }]

def lampValue (value : ℚ) : List (FeedbackLabel ℚ) :=
  [.queueFeedback (.master .opacity) value .hostAutomation, .writeNext]

/-- The worker takes the pending value and its send fails. -/
def failingSend : List (FeedbackLabel ℚ) := [.rescan true, .tick true, .popFirst, .sendErr]

def lampKey : FeedbackKey := ⟨0xb0, 20⟩

/-- A failed value put back before the next one is queued. -/
def clearLabels : List (FeedbackLabel ℚ) := lampValue 0 ++ failingSend ++ [.restore] ++ lampValue 1

theorem feedback_neverBackwards_lamp :
    ∃ p, (recordedFeedback lampProfile).ReachableBy RestoresClear p ∧
      p.1.pending.lookup lampKey = some ⟨0xb0, 20, 127⟩ ∧
      NeverBackwards p.1 p.2 := by
  have hlookup :
      (((recordedFeedback lampProfile).restrict RestoresClear).exec
          (.initial, .empty) clearLabels).map
        (fun p => p.1.pending.lookup lampKey) =
        some (some ⟨0xb0, 20, 127⟩) := by
    decide +kernel
  obtain ⟨p, hexec, hpending⟩ := map_eq_some_iff.mp hlookup
  have hreach : (recordedFeedback lampProfile).ReachableBy RestoresClear p :=
    .of_restrict (Machine.reachable_of_exec (recordedFeedback_start lampProfile) hexec)
  exact ⟨p, hreach, hpending, (feedback_neverBackwards hreach).1⟩

/-- A newer value queued while the send was failing. -/
def overtakenLabels : List (FeedbackLabel ℚ) :=
  lampValue 0 ++ failingSend ++ lampValue 1 ++ [.restore]

/-- Putting the failed value back loses the newer one: the stale value is
pending although the newer one was accepted last. -/
theorem restore_overwrites_newer :
    ∃ p, (recordedFeedback lampProfile).ReachableBy
        (fun p _ => p.1.pending.len < midiFeedbackKeysCapacity) p ∧
      ¬NeverBackwards p.1 p.2 := by
  have hrun :
      (((recordedFeedback lampProfile).restrict
          fun p _ => p.1.pending.len < midiFeedbackKeysCapacity).exec
          (.initial, .empty) overtakenLabels).map
        (fun p => (p.1.pending.lookup lampKey, p.2.accepted)) =
        some (some ⟨0xb0, 20, 0⟩, [⟨0xb0, 20, 0⟩, ⟨0xb0, 20, 127⟩]) := by
    decide +kernel
  obtain ⟨p, hexec, hp⟩ := map_eq_some_iff.mp hrun
  obtain ⟨hpending, haccepted⟩ := Prod.mk.inj hp
  have hreach : (recordedFeedback lampProfile).ReachableBy
      (fun p _ => p.1.pending.len < midiFeedbackKeysCapacity) p :=
    .of_restrict (Machine.reachable_of_exec (recordedFeedback_start lampProfile) hexec)
  refine ⟨p, hreach, ?_⟩
  intro hnever
  obtain ⟨position, hnewest⟩ := hnever.latest lampKey _ hpending
  rw [haccepted] at hnewest
  have hzero : position = 0 := by
    have hrecorded := hnewest.recorded
    match position with
    | 0 => rfl
    | 1 => cases Option.some.inj hrecorded
    | position + 2 => cases hrecorded
  have hlast := hnewest.last 1 ⟨0xb0, 20, 127⟩ rfl rfl
  omega

end CollideOScope.Midi
