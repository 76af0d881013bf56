import Mathlib.Data.List.Basic

/-!
# Straight-line programs

A straight-line program is a list of instructions that a partial step executes
one after the other.  A checker of such programs is a step as well.  The file
relates two runs of one program: if every accepted step of the first is matched
by the second, then every accepted run is.
-/

namespace CollideOScope.StraightLine

open List

variable {ι σ τ ε δ : Type*}

def run (step : σ → ι → Except ε σ) (s : σ) (program : List ι) : Except ε σ := program.foldlM step s

theorem run_cons (step : σ → ι → Except ε σ) (s : σ) (i : ι) (program : List ι) :
    run step s (i :: program) = (step s i).bind fun t => run step t program := rfl

variable {step : σ → ι → Except ε σ} {program : List ι} {s t : σ} {i : ι}

theorem run_cons_ok (h : run step s (i :: program) = .ok t) :
    ∃ u, step s i = .ok u ∧ run step u program = .ok t := by
  rw [run_cons] at h
  cases hstep : step s i with
  | error e =>
    rw [hstep] at h
    cases h
  | ok u =>
    rw [hstep] at h
    exact ⟨u, rfl, h⟩

theorem run_concat {u : σ} (h : run step s program = .ok t)
    (hstep : step t i = .ok u) : run step s (program ++ [i]) = .ok u := by
  induction program generalizing s with
  | nil =>
    cases h
    rw [nil_append, run_cons, hstep]
    rfl
  | cons j program ih =>
    obtain ⟨v, hfst, hrest⟩ := run_cons_ok h
    rw [cons_append, run_cons, hfst]
    exact ih hrest

theorem run_simulates {check : σ → ι → Except ε σ} (exec : τ → ι → Except δ τ)
    {R : List ι → σ → τ → Prop} {whole : List ι}
    (hstep : ∀ done i rest s t s', whole = done ++ i :: rest → R done s t →
      check s i = .ok s' → ∃ t', exec t i = .ok t' ∧ R (done ++ [i]) s' t') :
    ∀ (rest done : List ι) {s : σ} {t : τ} {s' : σ}, whole = done ++ rest →
      R done s t → run check s rest = .ok s' →
      ∃ t', run exec t rest = .ok t' ∧ R whole s' t' := by
  intro rest
  induction rest with
  | nil =>
    intro done s t s' hwhole hR hrun
    cases hrun
    rw [append_nil] at hwhole
    exact ⟨t, rfl, hwhole ▸ hR⟩
  | cons i rest ih =>
    intro done s t s' hwhole hR hrun
    obtain ⟨u, hcheck, hrest⟩ := run_cons_ok hrun
    obtain ⟨v, hexec, hnext⟩ := hstep done i rest s t u hwhole hR hcheck
    obtain ⟨t', hrun', hfinal⟩ := ih (done ++ [i]) (by simpa using hwhole) hnext hrest
    refine ⟨t', ?_, hfinal⟩
    rw [run_cons, hexec]
    exact hrun'

theorem run_congr {step' : σ → ι → Except ε σ}
    (h : ∀ i ∈ program, ∀ s, step s i = step' s i) (s : σ) :
    run step s program = run step' s program := by
  induction program generalizing s with
  | nil => rfl
  | cons i program ih =>
    rw [run_cons, run_cons, h i mem_cons_self s]
    congr 1
    funext t
    exact ih (fun j hj => h j (mem_cons_of_mem i hj)) t

end CollideOScope.StraightLine

/-!
## Triples for partial state computations

A computation over a state either fails or returns a value and a new state.
-/

namespace CollideOScope

variable {σ ε α β : Type} {P : σ → Prop} {Q : α → σ → Prop} {m : StateT σ (Except ε) α}

def Triple (P : σ → Prop) (m : StateT σ (Except ε) α) (Q : α → σ → Prop) : Prop :=
  ∀ s, P s → ∃ a t, m s = .ok (a, t) ∧ Q a t

namespace Triple

theorem pure {a : α} (h : ∀ s, P s → Q a s) :
    Triple P (Pure.pure a : StateT σ (Except ε) α) Q := fun s hs =>
  ⟨a, s, rfl, h s hs⟩

variable {f : α → StateT σ (Except ε) β} {R : β → σ → Prop}

theorem bind (hm : Triple P m Q) (hf : ∀ a, Triple (Q a) (f a) R) : Triple P (m >>= f) R := by
  intro s hs
  obtain ⟨a, t, hrun, hQ⟩ := hm s hs
  obtain ⟨b, u, hrest, hR⟩ := hf a t hQ
  refine ⟨b, u, ?_, hR⟩
  change (m s >>= fun r => f r.1 r.2) = .ok (b, u)
  rw [hrun]
  exact hrest

theorem intro {p : Prop} (h : p → Triple P m Q) :
    Triple (fun s => p ∧ P s) m Q := fun s hs => h hs.1 s hs.2

theorem bind_eq {S : σ → Prop} {a : α}
    (hm : Triple P m fun b s => b = a ∧ S s) (hf : Triple S (f a) R) :
    Triple P (m >>= f) R :=
  hm.bind fun _ => .intro fun heq => heq ▸ hf

end Triple

end CollideOScope
