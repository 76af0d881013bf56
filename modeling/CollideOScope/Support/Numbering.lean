import Mathlib.Data.List.Flatten
import Mathlib.Data.List.Nodup
import Mathlib.Data.List.Pairwise

/-!
# Numbering a list

The items of a list without repetition are numbered by their positions.  An
item is looked up by itself or by a property that no other item has.
-/

namespace CollideOScope

open Function Option List

variable {α β γ : Type}

section

variable [DecidableEq α] {xs : List α} {x : α} {i : ℕ}

theorem lookup_zipIdx (xs : List α) (x : α) (k : ℕ) :
    (xs.zipIdx k).lookup x = (xs.idxOf? x).map (· + k) := by
  induction xs generalizing k with
  | nil => rfl
  | cons y xs ih =>
    rw [zipIdx_cons, lookup_cons, idxOf?_cons]
    by_cases hxy : x = y
    · simp [hxy]
    · have hne : (x == y) = false := by simpa using hxy
      have hne' : (y == x) = false := by simpa using Ne.symm hxy
      simp [hne, hne', ih, comp_def, Nat.add_comm, Nat.add_left_comm]

theorem isSome_lookup_zipIdx : (xs.zipIdx.lookup x).isSome ↔ x ∈ xs := by
  rw [lookup_zipIdx, isSome_map, isSome_idxOf?]

theorem lookup_zipIdx_of_notMem (h : x ∉ xs) : xs.zipIdx.lookup x = none := by
  rw [lookup_zipIdx, idxOf?_eq_none_iff.mpr h, map_none]

theorem lookup_zipIdx_of_getElem? (hnd : xs.Nodup) (h : xs[i]? = some x) :
    xs.zipIdx.lookup x = some i := by
  obtain ⟨hi, rfl⟩ := List.getElem?_eq_some_iff.mp h
  have hidx : xs.idxOf? xs[i] = some i := by
    rw [idxOf?_eq_some_iff]
    refine ⟨hi, rfl, ?_⟩
    intro j hj heq
    have := (hnd.getElem_inj_iff).mp heq
    omega
  rw [lookup_zipIdx, hidx]
  rfl

end

variable {xs : List α}

theorem findIdx?_of_unique {x : α} {i : ℕ} {p : α → Bool} (hnd : xs.Nodup) (h : xs[i]? = some x)
    (hp : p x) (hunique : ∀ y ∈ xs, p y → y = x) : xs.findIdx? p = some i := by
  obtain ⟨hi, rfl⟩ := List.getElem?_eq_some_iff.mp h
  rw [findIdx?_eq_some_iff_getElem]
  refine ⟨hi, hp, ?_⟩
  intro j hj
  simp only [Bool.not_eq_true]
  by_contra hpj
  have heq := hunique xs[j] (getElem_mem _) (by simpa using hpj)
  have := (hnd.getElem_inj_iff).mp heq
  omega

variable {m : Type → Type}

theorem foldlM_congr [Monad m] {step step' : γ → α → m γ}
    (h : ∀ x ∈ xs, ∀ s, step s x = step' s x) (s : γ) :
    xs.foldlM step s = xs.foldlM step' s := by
  induction xs generalizing s with
  | nil => rfl
  | cons x xs ih =>
    rw [foldlM_cons, foldlM_cons, h x mem_cons_self]
    congr 1
    funext next
    exact ih (fun y hy => h y (mem_cons_of_mem _ hy)) next

theorem foldlM_flatMap [Monad m] [LawfulMonad m] (f : α → List β)
    (step : γ → β → m γ) (xs : List α) (s : γ) :
    (xs.flatMap f).foldlM step s = xs.foldlM (fun s x => (f x).foldlM step s) s := by
  induction xs generalizing s with
  | nil => rfl
  | cons x xs ih =>
    rw [flatMap_cons, foldlM_append, foldlM_cons]
    simp only [ih]

theorem eq_of_mem_flatMap {f : α → List β} (hnd : (xs.flatMap f).Nodup) {x y : α}
    {part : β} (hx : x ∈ xs) (hy : y ∈ xs) (hpx : part ∈ f x) (hpy : part ∈ f y) : x = y := by
  by_contra hne
  have : Std.Symm (onFun List.Disjoint f) := ⟨fun _ _ h _ hb ha => h ha hb⟩
  have hdisj := (nodup_flatMap.mp hnd).2.forall hx hy hne
  exact hdisj hpx hpy

end CollideOScope
