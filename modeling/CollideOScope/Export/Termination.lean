import CollideOScope.Export.Handover
import Mathlib.Logic.Relation

/-!
# The outcome is published once

An abstract account of the verdict: the outcome moves along a short order, the
terminal lock serializes the calls that publish it, and `done` follows a
terminal outcome before the lock is released.  The machine refines it in every
run, whatever the threads and the callers of `cancel` do.
-/

namespace CollideOScope.Export

open ExportProgress Option Function

namespace Outcome

inductive Next : Outcome → Outcome → Prop
  | accept : Next .running .cancelRequested
  | succeed : Next .running .succeeded
  | fail : Next .running .failed
  | cancel : Next .cancelRequested .cancelled

abbrev Later : Outcome → Outcome → Prop := Relation.ReflTransGen Next

def isCancel : Outcome → Bool
  | .cancelRequested | .cancelled => true
  | _ => false

theorem Later.eq_of_terminal {o o' : Outcome} (h : o.Later o') (hterm : o.terminal) : o' = o := by
  induction h with
  | refl => rfl
  | tail _ hnext ih =>
    subst ih
    cases hnext <;> cases hterm

theorem Later.isCancel {o o' : Outcome} (h : o.Later o') (hcancel : o.isCancel) : o'.isCancel := by
  induction h with
  | refl => exact hcancel
  | tail _ hnext ih => cases hnext <;> first | rfl | cases ih

end Outcome

def Entry.Sound (v : Verdict) : Entry → Prop
  | .finalize _ => True
  | .publishCancelled _ => v.outcome.isCancel

namespace Call

def isLocked : Call → Bool
  | .loadActive _ | .loadCleanup _ | .storePending _ | .storeAbort
  | .lock _ => false
  | _ => true

def Sound (v : Verdict) : Call → Prop
  | .loadActive _ | .loadCleanup _ | .storePending _ | .storeAbort => True
  | .lock entry => entry.Sound v
  | .loadDone entry => entry.Sound v ∧ v.done = v.outcome.terminal
  | .loadOutcome entry => entry.Sound v ∧ v.done = false ∧ v.outcome.terminal = false
  | .commitFailed _ | .commitSucceeded => v.done = false ∧ v.outcome.terminal = false
  | .remove _ none | .storeCancelled | .storeOutcome =>
    v.done = false ∧ v.outcome = .cancelRequested
  | .remove _ (some _) => v.done = false ∧ v.outcome = .failed
  | .storeError _ | .storeDone => v.done = false ∧ v.outcome.terminal

inductive Effect (thread : Thread) (v : Verdict) (c : Call) : Verdict → Option Call → Prop
  | outside {rest : Option Call} (unlocked : c.isLocked = false)
      (sound : ∀ next, rest = some next → next.isLocked = false ∧ next.Sound v) :
      Effect thread v c v rest
  | acquire {next : Call} (unlocked : c.isLocked = false)
      (free : v.terminal = none) (locked : next.isLocked)
      (sound : v.done = v.outcome.terminal → next.Sound { v with terminal := some thread }) :
      Effect thread v c { v with terminal := some thread } (some next)
  | inside {v' : Verdict} {next : Call} (locked : c.isLocked)
      (cancel : v'.cancel = v.cancel) (terminal : v'.terminal = v.terminal)
      (done : v'.done = v.done)
      (outcome : v'.outcome = v.outcome ∨ v.outcome.Next v'.outcome)
      (remains : next.isLocked) (sound : next.Sound v') :
      Effect thread v c v' (some next)
  | release (locked : c.isLocked) (terminal : v.outcome.terminal) :
      Effect thread v c { v with terminal := none, done := true } none

variable {thread : Thread} {p p' : ExportProgress} {o o' : Outputs}
  {c next : Call} {rest : Option Call}

/-- The branches of `finalize_export_worker` on a decision it has read. -/
theorem decide_effect {workerError : Option String} (hlocked : c.isLocked)
    (hdone : p.done = false) (hopen : p.outcome.terminal = false)
    (h : some (proceedWith p o (decide workerError p.outcome)) = some (p', o', rest)) :
    Effect thread p.verdict c p'.verdict rest := by
  cases hout : p.outcome with
  | running =>
    rw [hout] at h
    cases h
    exact .inside hlocked rfl rfl rfl (.inl rfl) rfl ⟨hdone, hopen⟩
  | cancelRequested =>
    rw [hout] at h
    cases h
    exact .inside hlocked rfl rfl rfl (.inl rfl) rfl ⟨hdone, hout⟩
  | succeeded | failed | cancelled => simp [hout, Outcome.terminal] at hopen

theorem step_effect (hsound : c.Sound p.verdict) (h : c.step thread p o = some (p', o', rest)) :
    Effect thread p.verdict c p'.verdict rest := by
  cases c with
  | loadActive workerError =>
    simp only [step] at h
    split at h <;> cases h <;>
      exact .outside rfl (by rintro _ ⟨⟩; exact ⟨rfl, trivial⟩)
  | loadCleanup workerError =>
    simp only [step] at h
    split at h
    · cases h
      exact .outside rfl (by rintro _ ⟨⟩; exact ⟨rfl, trivial⟩)
    · cases workerError with
      | none =>
        cases h
        exact .outside rfl (by rintro _ ⟨⟩)
      | some error =>
        cases h
        exact .outside rfl (by rintro _ ⟨⟩; exact ⟨rfl, trivial⟩)
  | storePending error =>
    cases h
    exact .outside rfl (by rintro _ ⟨⟩; exact ⟨rfl, trivial⟩)
  | storeAbort =>
    cases h
    exact .outside rfl (by rintro _ ⟨⟩)
  | lock entry =>
    simp only [step] at h
    split at h
    · rename_i hfree
      cases h
      exact .acquire rfl hfree rfl fun hset => ⟨hsound, hset⟩
    · cases h
  | loadDone entry =>
    obtain ⟨hent, hset⟩ := hsound
    simp only [step] at h
    by_cases hdone : p.done = true
    · rw [if_pos hdone] at h
      cases h
      have hrelease : p.unlock.verdict = { p.verdict with terminal := none, done := true } := by
        simp [verdict, unlock, hdone]
      rw [hrelease]
      exact .release rfl (hset.symm.trans hdone)
    · rw [if_neg hdone] at h
      cases h
      have hdone : p.done = false := by simpa using hdone
      exact .inside rfl rfl rfl rfl (.inl rfl) rfl ⟨hent, hdone, hset.symm.trans hdone⟩
  | loadOutcome entry =>
    obtain ⟨hent, hdone, hopen⟩ := hsound
    cases entry with
    | finalize workerError =>
      simp only [step] at h
      split at h
      · cases h
        exact .inside rfl rfl rfl rfl (.inl rfl) rfl ⟨hdone, hopen⟩
      · exact decide_effect rfl hdone hopen h
    | publishCancelled outputPath =>
      have hreq : p.outcome = .cancelRequested := by
        cases hout : p.outcome <;>
          simp_all [Entry.Sound, verdict, Outcome.isCancel, Outcome.terminal]
      simp only [step, hreq] at h
      cases h
      exact .inside rfl rfl rfl rfl (.inl rfl) rfl ⟨hdone, hreq⟩
  | commitFailed error =>
    obtain ⟨hdone, hopen⟩ := hsound
    simp only [step, compareExchange] at h
    by_cases hrun : p.outcome = .running
    · rw [if_pos hrun] at h
      cases h
      refine .inside rfl rfl rfl rfl (.inr ?_) rfl ⟨hdone, rfl⟩
      rw [show p.verdict.outcome = .running from hrun]
      exact .fail
    · rw [if_neg hrun] at h
      exact decide_effect rfl hdone hopen h
  | commitSucceeded =>
    obtain ⟨hdone, hopen⟩ := hsound
    simp only [step, compareExchange] at h
    by_cases hrun : p.outcome = .running
    · rw [if_pos hrun] at h
      cases h
      refine .inside rfl rfl rfl rfl (.inr ?_) rfl ⟨hdone, rfl⟩
      rw [show p.verdict.outcome = .running from hrun]
      exact .succeed
    · rw [if_neg hrun] at h
      cases h
      have hreq : p.outcome = .cancelRequested := by
        cases hout : p.outcome <;>
          simp_all [verdict, Outcome.terminal]
      exact .inside rfl rfl rfl rfl (.inl rfl) rfl ⟨hdone, hreq⟩
  | remove outputPath failure =>
    cases failure with
    | none =>
      cases h
      exact .inside rfl rfl rfl rfl (.inl rfl) rfl hsound
    | some error =>
      cases h
      obtain ⟨hdone, hfailed⟩ := hsound
      refine .inside rfl rfl rfl rfl (.inl rfl) rfl ⟨hdone, ?_⟩
      rw [hfailed]
      rfl
  | storeCancelled | storeError error =>
    cases h
    exact .inside rfl rfl rfl rfl (.inl rfl) rfl hsound
  | storeOutcome =>
    cases h
    obtain ⟨hdone, hreq⟩ := hsound
    refine .inside rfl rfl rfl rfl (.inr ?_) rfl ⟨hdone, rfl⟩
    rw [hreq]
    exact .cancel
  | storeDone =>
    cases h
    exact .release rfl hsound.2

/-- A call returns with `done` set, or it left its error to the supervisor,
or it had no error and found the encoder owned. -/
theorem step_returns (hsound : c.Sound p.verdict) (h : c.step thread p o = some (p', o', none)) :
    p'.done = true ∨ c.handsOver ∨ c.isClean ∧ c.sawActive ∧ p.encoderCleanupComplete = false := by
  by_cases hlocked : c.isLocked
  · have heff := step_effect hsound h
    generalize hv' : p'.verdict = v' at heff
    generalize hrest : (none : Option Call) = rest at heff
    cases heff with
    | release _ _ => exact .inl (congrArg Verdict.done hv')
    | outside hunlocked _ =>
      rw [hlocked] at hunlocked
      cases hunlocked
    | acquire _ _ _ _ | inside _ _ _ _ _ _ _ => cases hrest
  · right
    cases c with
    | loadActive workerError | lock entry =>
      simp only [step] at h
      split at h <;> cases h
    | loadCleanup workerError =>
      simp only [step] at h
      split at h
      · cases h
      · cases workerError with
        | none => exact .inr ⟨rfl, rfl, by simp_all⟩
        | some error => cases h
    | storePending error | storeAbort => exact .inl rfl
    | _ => exact absurd rfl hlocked

end Call

structure Serialized (v : Verdict) (calls : Thread → Option Call) : Prop where
  locked : ∀ thread c, calls thread = some c → (c.isLocked ↔ v.terminal = some thread)
  held : ∀ thread, v.terminal = some thread → calls thread ≠ none
  settled : v.terminal = none → v.done = v.outcome.terminal
  sound : ∀ thread c, calls thread = some c → c.Sound v
  cancelled : v.cancel → v.outcome.isCancel

theorem Call.Sound.of_unlocked {v v' : Verdict} {c : Call} (hunlocked : c.isLocked = false)
    (hsound : c.Sound v) (hcancel : v.outcome.isCancel → v'.outcome.isCancel) : c.Sound v' := by
  cases c with
  | lock entry =>
    cases entry with
    | finalize workerError => trivial
    | publishCancelled outputPath => exact hcancel hsound
  | loadActive _ | loadCleanup _ | storePending _ | storeAbort => trivial
  | _ => cases hunlocked

namespace Serialized

variable {v v' : Verdict} {calls calls' : Thread → Option Call}
  {thread : Thread} {c : Call} {rest : Option Call}

theorem terminal_of_done (h : Serialized v calls) (hdone : v.done) : v.outcome.terminal := by
  cases hhold : v.terminal with
  | none => rw [← h.settled hhold, hdone]
  | some thread =>
    obtain ⟨c, hc⟩ := ne_none_iff_exists'.mp (h.held thread hhold)
    have hlocked := (h.locked thread c hc).mpr hhold
    have hsound := h.sound thread c hc
    cases c with
    | loadDone entry => rw [← hsound.2, hdone]
    | remove outputPath failure =>
      cases failure with
      | none | some error => exact absurd hdone (by simp [hsound.1])
    | loadOutcome entry => exact absurd hdone (by simp [hsound.2.1])
    | loadActive _ | loadCleanup _ | storePending _ | storeAbort
    | lock _ => cases hlocked
    | _ => exact absurd hdone (by simp [hsound.1])

variable {other : Thread} {d : Call}

theorem unlocked_of_ne (h : Serialized v calls) (hthr : v.terminal = some thread)
    (hne : other ≠ thread) (hd : calls other = some d) : d.isLocked = false := by
  rw [← Bool.not_eq_true]
  intro hlocked
  have hhold := (h.locked other d hd).mp hlocked
  rw [hthr] at hhold
  exact hne (some.inj hhold).symm

theorem update_eq_some (h : update calls thread rest other = some d) :
    (other = thread ∧ rest = some d) ∨ (other ≠ thread ∧ calls other = some d) := by
  by_cases hother : other = thread
  · subst hother
    rw [update_self] at h
    exact .inl ⟨rfl, h⟩
  · rw [update_of_ne hother] at h
    exact .inr ⟨hother, h⟩

variable (h : Serialized v calls)
include h

theorem call_outside (hc : calls thread = some c) (hunlocked : c.isLocked = false)
    (hnext : ∀ next, rest = some next → next.isLocked = false ∧ next.Sound v) :
    Serialized v (update calls thread rest) := by
  have hfree : v.terminal ≠ some thread := by
    intro hhold
    rw [(h.locked thread c hc).mpr hhold] at hunlocked
    cases hunlocked
  constructor
  case locked =>
    intro other d hd
    rcases update_eq_some hd with ⟨rfl, hrest⟩ | ⟨-, hd⟩
    · simp [(hnext d hrest).1, hfree]
    · exact h.locked other d hd
  case held =>
    intro other hhold
    have hother : other ≠ thread := by
      rintro rfl
      exact hfree hhold
    rw [update_of_ne hother]
    exact h.held other hhold
  case settled => exact h.settled
  case sound =>
    intro other d hd
    rcases update_eq_some hd with ⟨rfl, hrest⟩ | ⟨-, hd⟩
    · exact (hnext d hrest).2
    · exact h.sound other d hd
  case cancelled => exact h.cancelled

theorem call_acquire (hfree : v.terminal = none) {next : Call} (hlocked : next.isLocked)
    (hsound : next.Sound { v with terminal := some thread }) :
    Serialized { v with terminal := some thread } (update calls thread (some next)) := by
  have hothers : ∀ other d, calls other = some d → d.isLocked = false := by
    intro other d hd
    have hd := h.locked other d hd
    rw [hfree] at hd
    simpa using hd
  constructor
  case locked =>
    intro other d hd
    rcases update_eq_some hd with ⟨rfl, ⟨⟩⟩ | ⟨hother, hd⟩
    · simp [hlocked]
    · simp [hothers other d hd, Ne.symm hother]
  case held =>
    rintro other ⟨⟩
    rw [update_self]
    exact some_ne_none next
  case settled => intro hnone; cases hnone
  case sound =>
    intro other d hd
    rcases update_eq_some hd with ⟨rfl, ⟨⟩⟩ | ⟨-, hd⟩
    · exact hsound
    · exact (h.sound other d hd).of_unlocked (hothers other d hd) id
  case cancelled => exact h.cancelled

theorem call_inside (hc : calls thread = some c) (hinside : c.isLocked)
    (hcancel : v'.cancel = v.cancel) (hterm : v'.terminal = v.terminal)
    (hout : v'.outcome = v.outcome ∨ v.outcome.Next v'.outcome)
    {next : Call} (hlocked : next.isLocked) (hsound : next.Sound v') :
    Serialized v' (update calls thread (some next)) := by
  have hhold := (h.locked thread c hc).mp hinside
  have hlater : v.outcome.isCancel → v'.outcome.isCancel := by
    intro hpre
    rcases hout with hsame | hstep
    · rwa [hsame]
    · exact Outcome.Later.isCancel (.single hstep) hpre
  constructor
  case locked =>
    intro other d hd
    rw [hterm]
    rcases update_eq_some hd with ⟨rfl, ⟨⟩⟩ | ⟨-, hd⟩
    · simp [hlocked, hhold]
    · exact h.locked other d hd
  case held =>
    intro other hafter
    rw [hterm, hhold] at hafter
    cases hafter
    rw [update_self]
    exact some_ne_none next
  case settled =>
    intro hnone
    rw [hterm, hhold] at hnone
    cases hnone
  case sound =>
    intro other d hd
    rcases update_eq_some hd with ⟨rfl, ⟨⟩⟩ | ⟨hother, hd⟩
    · exact hsound
    · exact (h.sound other d hd).of_unlocked (h.unlocked_of_ne hhold hother hd) hlater
  case cancelled =>
    intro hafter
    rw [hcancel] at hafter
    exact hlater (h.cancelled hafter)

theorem call_release (hc : calls thread = some c) (hinside : c.isLocked)
    (hterm : v.outcome.terminal) :
    Serialized { v with terminal := none, done := true } (update calls thread none) := by
  have hhold := (h.locked thread c hc).mp hinside
  constructor
  case locked =>
    intro other d hd
    rcases update_eq_some hd with ⟨-, ⟨⟩⟩ | ⟨hother, hd⟩
    simp [h.unlocked_of_ne hhold hother hd]
  case held => intro other hnone; cases hnone
  case settled => intro _; exact hterm.symm
  case sound =>
    intro other d hd
    rcases update_eq_some hd with ⟨-, ⟨⟩⟩ | ⟨hother, hd⟩
    exact (h.sound other d hd).of_unlocked (h.unlocked_of_ne hhold hother hd) id
  case cancelled => exact h.cancelled

theorem call (hc : calls thread = some c) (heff : c.Effect thread v v' rest) :
    Serialized v' (update calls thread rest) := by
  cases heff with
  | outside hunlocked hnext => exact h.call_outside hc hunlocked hnext
  | acquire _ hfree hlocked hsound => exact h.call_acquire hfree hlocked (hsound (h.settled hfree))
  | inside hinside hcancel hterm _ hout hlocked hsound =>
    exact h.call_inside hc hinside hcancel hterm hout hlocked hsound
  | release hinside hterm => exact h.call_release hc hinside hterm

theorem begin (hkept : ∀ thread c, calls thread = some c → calls' thread = some c)
    (hfresh : ∀ thread c, calls' thread = some c → calls thread = some c ∨ c.IsFresh v.cancel) :
    Serialized v calls' := by
  have hunlocked : ∀ c : Call, c.IsFresh v.cancel → c.isLocked = false ∧ c.Sound v := by
    rintro c (⟨workerError, rfl⟩ | ⟨hcancel, outputPath, rfl⟩)
    · exact ⟨rfl, trivial⟩
    · exact ⟨rfl, h.cancelled hcancel⟩
  constructor
  case locked =>
    intro thread c hc
    rcases hfresh thread c hc with hpre | hfresh
    · exact h.locked thread c hpre
    · constructor
      · intro hlocked
        rw [(hunlocked c hfresh).1] at hlocked
        cases hlocked
      · intro hhold
        obtain ⟨d, hd⟩ := ne_none_iff_exists'.mp (h.held thread hhold)
        have hsame := (hkept thread d hd).symm.trans hc
        cases hsame
        exact (h.locked thread _ hd).mpr hhold
  case held =>
    intro thread hhold hnone
    obtain ⟨d, hd⟩ := ne_none_iff_exists'.mp (h.held thread hhold)
    rw [hkept thread d hd] at hnone
    cases hnone
  case settled => exact h.settled
  case sound =>
    intro thread c hc
    rcases hfresh thread c hc with hpre | hfresh
    · exact h.sound thread c hpre
    · exact (hunlocked c hfresh).2
  case cancelled => exact h.cancelled

theorem accept (hrun : v.outcome = .running) :
    Serialized { v with outcome := .cancelRequested } calls := by
  constructor
  case locked => exact h.locked
  case held => exact h.held
  case settled =>
    intro hnone
    have hset := h.settled hnone
    rw [hrun] at hset
    exact hset
  case sound =>
    intro thread c hc
    have hsound := h.sound thread c hc
    cases c with
    | lock entry | loadDone entry | loadOutcome entry =>
      cases entry <;>
        simp_all [Call.Sound, Entry.Sound, Outcome.terminal, Outcome.isCancel]
    | remove outputPath failure => cases failure <;> simp_all [Call.Sound]
    | _ => simp_all [Call.Sound, Outcome.terminal]
  case cancelled => intro _; rfl

theorem raise (hacc : v.outcome.isCancel) : Serialized { v with cancel := true } calls := by
  constructor
  case locked => exact h.locked
  case held => exact h.held
  case settled => exact h.settled
  case sound =>
    intro thread c hc
    have hsound := h.sound thread c hc
    cases c with
    | remove outputPath failure => cases failure <;> exact hsound
    | lock entry | loadDone entry | loadOutcome entry => cases entry <;> exact hsound
    | _ => exact hsound
  case cancelled => intro _; exact hacc

end Serialized

end CollideOScope.Export
