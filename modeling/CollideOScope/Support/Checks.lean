import Mathlib.Data.List.Nodup

/-!
# Sequences of checks

A validator runs checks one after the other and stops at the first that fails.
The lemmas read off what an accepted run has established.
-/

namespace CollideOScope.Checks

open List

universe u v

variable {ε : Type v} {α β : Type u} {a b : α} {e : ε}

@[simp]
theorem pure_ok : (pure a : Except ε α) = .ok b ↔ a = b := ⟨Except.ok.inj, congrArg Except.ok⟩

@[simp]
theorem throw_ok : (throw e : Except ε α) = .ok b ↔ False := by
  constructor
  · intro h
    cases h
  · exact False.elim

variable {x : Except ε α} {f : α → Except ε β} {c : β} {u : Unit}

@[simp]
theorem bind_ok : (x >>= f) = .ok c ↔ ∃ a, x = .ok a ∧ f a = .ok c := by
  cases x with
  | error e =>
    constructor
    · intro h
      cases h
    · rintro ⟨a, h, -⟩
      cases h
  | ok a =>
    constructor
    · exact fun h => ⟨a, rfl, h⟩
    · rintro ⟨a', h, hf⟩
      cases h
      exact hf

@[simp]
theorem map_ok {f : α → β} : (f <$> x) = .ok c ↔ ∃ a, x = .ok a ∧ f a = c := by
  rw [← bind_pure_comp, bind_ok]
  simp only [pure_ok]

@[simp]
theorem mapError_ok {ε' : Type*} {f : ε → ε'} : x.mapError f = .ok a ↔ x = .ok a := by
  cases x <;> simp [Except.mapError]

theorem exists_of_isOk (h : x.isOk = true) : ∃ a, x = .ok a := by
  cases x with
  | error e => cases h
  | ok a => exact ⟨a, rfl⟩

/-- `if p { return Err(e) }`. -/
def refuse (p : Prop) [Decidable p] (e : ε) : Except ε Unit := if p then .error e else .ok ()

@[simp]
theorem refuse_ok {p : Prop} [Decidable p] : refuse p e = .ok u ↔ ¬p := by
  by_cases hp : p
  · simp [refuse, hp]
  · simp [refuse, hp]

/-- `ok_or`: a missing value is refused. -/
def require (value : Option α) (e : ε) : Except ε α :=
  match value with
  | none => .error e
  | some a => .ok a

@[simp]
theorem require_ok {value : Option α} : require value e = .ok a ↔ value = some a := by
  cases value with
  | none | some a => simp [require]

@[simp]
theorem exists_unit {p : Unit → Prop} : (∃ u, p u) ↔ p () := ⟨fun ⟨_, h⟩ => h, fun h => ⟨(), h⟩⟩

def forEach (check : α → Except ε Unit) : List α → Except ε Unit
  | [] => pure ()
  | item :: rest => do
      check item
      forEach check rest

variable {items : List α}

@[simp]
theorem forEach_ok {check : α → Except ε Unit} :
    forEach check items = .ok u ↔ ∀ item ∈ items, check item = .ok () := by
  induction items with
  | nil => simp [forEach]
  | cons item rest ih => simp only [forEach, bind_ok, exists_unit, ih, forall_mem_cons]

theorem foldlM_invariant {f : β → α → Except ε β} {P : β → Prop} {s t : β}
    (hstep : ∀ s, ∀ item ∈ items, ∀ t, P s → f s item = .ok t → P t) (hs : P s)
    (h : items.foldlM f s = .ok t) : P t := by
  induction items generalizing s with
  | nil =>
    obtain rfl := pure_ok.mp h
    exact hs
  | cons item items ih =>
    rw [foldlM_cons, bind_ok] at h
    obtain ⟨next, hnext, hrest⟩ := h
    refine ih ?_ (hstep s item mem_cons_self next hs hnext) hrest
    intro s item hitem
    exact hstep s item (mem_cons_of_mem _ hitem)

theorem exists_mapM_iff {P : α → β → Prop} :
    (∃ results, items.mapM f = .ok results ∧ List.Forall₂ P items results) ↔
      ∀ item ∈ items, ∃ result, f item = .ok result ∧ P item result := by
  induction items with
  | nil => simp
  | cons item items ih =>
    simp only [mapM_cons, bind_ok, pure_ok, forall_mem_cons, ← ih, forall₂_cons_left_iff]
    constructor
    · rintro ⟨_, ⟨result, hres, results, hresults, rfl⟩, _, _, hfst, hrest, heq⟩
      obtain ⟨rfl, rfl⟩ := cons.inj heq
      exact ⟨⟨result, hres, hfst⟩, results, hresults, hrest⟩
    · rintro ⟨⟨result, hres, hfst⟩, results, hresults, hrest⟩
      exact ⟨result :: results, ⟨result, hres, results, hresults, rfl⟩,
        result, results, hfst, hrest, rfl⟩

variable {earlier : List α} {item : α}

theorem nodup_append_cons {rest : List α} :
    (earlier ++ item :: rest).Nodup ↔ item ∉ earlier ∧ ((earlier ++ [item]) ++ rest).Nodup := by
  rw [append_cons]
  constructor
  · intro h
    refine ⟨?_, h⟩
    intro hin
    have hfront := nodup_append.mp (nodup_append.mp h).1
    exact hfront.2.2 _ hin _ (mem_singleton_self _) rfl
  · exact And.right

theorem nodup_concat (h : earlier.Nodup) (hitem : item ∉ earlier) : (earlier ++ [item]).Nodup := by
  simpa using List.Nodup.concat hitem h

/-- A check that no item has the key of an item in front of it; `earlier` are
the keys that have been passed. -/
def refuseRepeats {κ : Type*} [DecidableEq κ] (key : α → κ) (error : α → ε) :
    List κ → List α → Except ε Unit
  | _, [] => pure ()
  | earlier, item :: rest => do
      refuse (key item ∈ earlier) (error item)
      refuseRepeats key error (earlier ++ [key item]) rest

theorem refuseRepeats_ok {κ : Type*} [DecidableEq κ] {key : α → κ}
    {error : α → ε} {earlier : List κ} (hearl : earlier.Nodup) :
    refuseRepeats key error earlier items = .ok u ↔ (earlier ++ items.map key).Nodup := by
  induction items generalizing earlier with
  | nil => simpa [refuseRepeats] using hearl
  | cons item rest ih =>
    simp only [refuseRepeats, bind_ok, refuse_ok, exists_unit, map_cons]
    rw [nodup_append_cons]
    exact and_congr_right fun hitem => ih (nodup_concat hearl hitem)

end CollideOScope.Checks
