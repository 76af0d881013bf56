import Mathlib.Data.Option.Basic

/-!
# Labelled machines and their runs

A machine is a state type with a partial labelled step.  A step that the
machine's own guards refuse is `none`.  Concurrent programs are machines whose
labels name the thread and the atomic action it takes, so a run is one
interleaving.
-/

namespace CollideOScope

universe u v w

/-- A labelled machine with a set of start states and a partial step. -/
structure Machine (σ : Type u) (ε : Type v) where
  start : σ → Prop
  step : σ → ε → Option σ

namespace Machine

variable {σ : Type u} {ε : Type v} {γ : Type w}

/-- Execute a list of labels, failing at the first refused step. -/
def exec (M : Machine σ ε) (s : σ) : List ε → Option σ
  | [] => some s
  | e :: es => (M.step s e).bind fun t => M.exec t es

/-- Runs all of whose steps meet the guard `G`. -/
inductive Run (M : Machine σ ε) (G : σ → ε → Prop) : σ → σ → Prop
  | refl (s : σ) : Run M G s s
  | tail {s t u : σ} {e : ε} (run : Run M G s t) (guard : G t e)
      (step : M.step t e = some u) : Run M G s u

/-- States reached from a start state by steps that meet the guard `G`. -/
def ReachableBy (M : Machine σ ε) (G : σ → ε → Prop) (s : σ) : Prop :=
  ∃ s₀, M.start s₀ ∧ M.Run G s₀ s

def Reachable (M : Machine σ ε) (s : σ) : Prop := M.ReachableBy (fun _ _ => True) s

abbrev FreeRun (M : Machine σ ε) : σ → σ → Prop := M.Run fun _ _ => True

variable {G : σ → ε → Prop} {s t : σ} {M : Machine σ ε}

theorem Run.trans {u : σ} (hst : M.Run G s t) (htu : M.Run G t u) : M.Run G s u := by
  induction htu with
  | refl => exact hst
  | tail _ guard step ih => exact ih.tail guard step

theorem Run.mono {H : σ → ε → Prop}
    (hGH : ∀ s e, G s e → H s e) (hrun : M.Run G s t) : M.Run H s t := by
  induction hrun with
  | refl => exact .refl _
  | tail _ guard step ih => exact ih.tail (hGH _ _ guard) step

theorem ReachableBy.reachable (h : M.ReachableBy G s) : M.Reachable s := by
  obtain ⟨s₀, hstart, hrun⟩ := h
  exact ⟨s₀, hstart, hrun.mono fun _ _ _ => trivial⟩

theorem ReachableBy.tail {e : ε} (h : M.ReachableBy G s)
    (guard : G s e) (step : M.step s e = some t) : M.ReachableBy G t := by
  obtain ⟨s₀, hstart, hrun⟩ := h
  exact ⟨s₀, hstart, hrun.tail guard step⟩

theorem Reachable.run (h : M.Reachable s) (hrun : M.FreeRun s t) : M.Reachable t := by
  obtain ⟨s₀, hstart, hprior⟩ := h
  exact ⟨s₀, hstart, hprior.trans hrun⟩

theorem reachable_of_start (hstart : M.start s) : M.Reachable s := ⟨s, hstart, .refl s⟩

theorem Reachable.next (h : M.Reachable s) (e : ε) (step : M.step s e = some t) : M.Reachable t :=
  ReachableBy.tail h trivial step

variable {P : σ → Prop}

theorem Run.preserves (hstep : ∀ s e t, P s → G s e → M.step s e = some t → P t)
    (hrun : M.Run G s t) (hs : P s) : P t := by
  induction hrun with
  | refl => exact hs
  | tail _ guard step ih => exact hstep _ _ _ ih guard step

theorem ReachableBy.invariant (hstart : ∀ s, M.start s → P s)
    (hstep : ∀ s e t, P s → G s e → M.step s e = some t → P t) (h : M.ReachableBy G s) : P s := by
  obtain ⟨s₀, hs₀, hrun⟩ := h
  exact hrun.preserves hstep (hstart s₀ hs₀)

theorem Reachable.invariant (hstart : ∀ s, M.start s → P s)
    (hstep : ∀ s e t, P s → M.step s e = some t → P t) (h : M.Reachable s) :
    P s :=
  ReachableBy.invariant hstart (fun s e t hs _ hst => hstep s e t hs hst) h

variable {es : List ε}

theorem freeRun_of_exec (h : M.exec s es = some t) : M.FreeRun s t := by
  induction es generalizing s with
  | nil =>
    have hst : s = t := Option.some.inj h
    subst hst
    exact .refl s
  | cons e es ih =>
    obtain ⟨u, hu, hrest⟩ := Option.bind_eq_some_iff.mp h
    exact ((Run.refl s).tail trivial hu).trans (ih hrest)

theorem reachable_of_exec (hstart : M.start s) (h : M.exec s es = some t) : M.Reachable t :=
  ⟨s, hstart, freeRun_of_exec h⟩

def restrict (M : Machine σ ε) (G : σ → ε → Prop) [∀ s e, Decidable (G s e)] : Machine σ ε where
  start := M.start
  step s e := if G s e then M.step s e else none

theorem ReachableBy.of_restrict [∀ s e, Decidable (G s e)]
    (h : (M.restrict G).Reachable s) : M.ReachableBy G s := by
  obtain ⟨s₀, hstart, hrun⟩ := h
  refine ⟨s₀, hstart, ?_⟩
  induction hrun with
  | refl => exact .refl _
  | @tail t u e _ _ step ih =>
    change (if G t e then M.step t e else none) = some u at step
    by_cases hguard : G t e
    · rw [if_pos hguard] at step
      exact ih.tail hguard step
    · rw [if_neg hguard] at step
      cases step

/-- Add a history variable that starts at `first` and is updated by `next`
at every step.  The history never influences the step. -/
def observe (M : Machine σ ε) (first : γ) (next : γ → σ → ε → σ → γ) : Machine (σ × γ) ε where
  start p := M.start p.1 ∧ p.2 = first
  step p e := (M.step p.1 e).map fun t => (t, next p.2 p.1 e t)

section

variable {M : Machine σ ε} {first : γ} {next : γ → σ → ε → σ → γ}

theorem observe_step_eq_some {p q : σ × γ} {e : ε} :
    (M.observe first next).step p e = some q ↔
      M.step p.1 e = some q.1 ∧ q.2 = next p.2 p.1 e q.1 := by
  obtain ⟨t, g⟩ := q
  simp only [observe, Option.map_eq_some_iff, Prod.mk.injEq]
  constructor
  · rintro ⟨u, hu, rfl, rfl⟩
    exact ⟨hu, rfl⟩
  · rintro ⟨hstep, rfl⟩
    exact ⟨t, hstep, rfl, rfl⟩

theorem Reachable.exists_observe {s : σ} (h : M.Reachable s) :
    ∃ g, (M.observe first next).Reachable (s, g) := by
  obtain ⟨s₀, hstart, hrun⟩ := h
  induction hrun with
  | refl => exact ⟨first, (s₀, first), ⟨hstart, rfl⟩, .refl _⟩
  | @tail t u e _ _ step ih =>
    obtain ⟨g, p₀, hp₀, hrun'⟩ := ih
    exact ⟨next g t e u, p₀, hp₀, hrun'.tail trivial (observe_step_eq_some.mpr ⟨step, rfl⟩)⟩

end

end Machine

end CollideOScope
