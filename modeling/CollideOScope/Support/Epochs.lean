import Mathlib.Data.List.Basic

/-!
# Logs and their epochs

A log lists events, the newest first.  Some events are resets: they begin a new
epoch, and what happened before them is no longer current.
-/

namespace CollideOScope

variable {ε : Type*}

def sinceReset (isReset : ε → Bool) (log : List ε) : List ε :=
  log.takeWhile fun event => !isReset event

section

variable {isReset : ε → Bool} {event other : ε} {log : List ε}

theorem sinceReset_cons (h : isReset event = false) :
    sinceReset isReset (event :: log) = event :: sinceReset isReset log := by
  simp [sinceReset, h]

theorem mem_sinceReset_cons (h : isReset event = false) (hother : other ∈ sinceReset isReset log) :
    other ∈ sinceReset isReset (event :: log) := by
  rw [sinceReset_cons h]
  exact List.mem_cons_of_mem _ hother

theorem mem_sinceReset_self (h : isReset event = false) :
    event ∈ sinceReset isReset (event :: log) := by
  rw [sinceReset_cons h]
  exact List.mem_cons_self

end

def Justified (Allowed : ε → List ε → Prop) (log : List ε) : Prop :=
  ∀ later event earlier, log = later ++ event :: earlier → Allowed event earlier

variable {Allowed : ε → List ε → Prop}

theorem justified_nil : Justified Allowed [] := by
  intro later event earlier heq
  simp at heq

theorem Justified.cons {event : ε} {log : List ε} (h : Justified Allowed log)
    (hev : Allowed event log) : Justified Allowed (event :: log) := by
  intro later other earlier heq
  cases later with
  | nil =>
    obtain ⟨rfl, rfl⟩ := List.cons.inj heq
    exact hev
  | cons head later =>
    obtain ⟨-, heq⟩ := List.cons.inj heq
    exact h later other earlier heq

end CollideOScope
