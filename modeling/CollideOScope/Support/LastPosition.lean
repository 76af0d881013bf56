import Mathlib.Data.List.DropRight

/-!
# The last position of a kind

The position of the last element of a list that meets a condition, the split of
the list at it, and the elements behind the last one that fails a condition.
-/

namespace CollideOScope

open List

universe u

variable {α : Type u} {p : α → Bool} {l front rest : List α}

/-- The position of the last element that meets a condition. -/
def rposition (p : α → Bool) : List α → Option ℕ
  | [] => none
  | a :: l =>
    match rposition p l with
    | some i => some (i + 1)
    | none => if p a then some 0 else none

theorem rposition_eq_none_iff : rposition p l = none ↔ ∀ a ∈ l, p a = false := by
  induction l with
  | nil => simp [rposition]
  | cons a l ih =>
    cases htail : rposition p l with
    | none =>
      have hrest := ih.mp htail
      cases ha : p a <;> simp [rposition, htail, ha]
      exact hrest
    | some i =>
      have hsome : ¬ ∀ b ∈ l, p b = false := by
        rw [← ih, htail]
        simp
      simp only [rposition, htail, reduceCtorEq, forall_mem_cons, false_iff, not_and]
      exact fun _ => hsome

theorem rposition_eq_some {i : ℕ} (h : rposition p l = some i) :
    ∃ front a rest, l = front ++ a :: rest ∧ front.length = i ∧ p a ∧ ∀ b ∈ rest, p b = false := by
  induction l generalizing i with
  | nil => simp [rposition] at h
  | cons a l ih =>
    cases htail : rposition p l with
    | none =>
      cases ha : p a with
      | false => simp [rposition, htail, ha] at h
      | true =>
        have hi : i = 0 := by simpa [rposition, htail, ha] using h.symm
        exact ⟨[], a, l, rfl, hi.symm, ha, rposition_eq_none_iff.mp htail⟩
    | some j =>
      have hi : i = j + 1 := by simpa [rposition, htail] using h.symm
      obtain ⟨front, b, rest, hl, hfront, hb, hrest⟩ := ih htail
      exact ⟨a :: front, b, rest, by rw [hl]; rfl, by simp [hfront, hi], hb, hrest⟩

variable {a : α}

theorem rposition_append_cons (ha : p a) (hrest : ∀ b ∈ rest, p b = false) :
    rposition p (front ++ a :: rest) = some front.length := by
  induction front with
  | nil => simp [rposition, rposition_eq_none_iff.mpr hrest, ha]
  | cons b front ih => simp [rposition, ih]

theorem rtakeWhile_append_of_forall (h : ∀ a ∈ rest, p a) :
    (front ++ rest).rtakeWhile p = front.rtakeWhile p ++ rest := by
  induction rest using reverseRecOn with
  | nil => simp
  | append_singleton rest a ih =>
    have ha : p a := h a (by simp)
    have hrest : ∀ b ∈ rest, p b := fun b hb => h b (by simp [hb])
    rw [← append_assoc, rtakeWhile_concat_pos _ _ _ ha, ih hrest, append_assoc]

theorem rtakeWhile_append_cons (ha : ¬ p a) (h : ∀ b ∈ rest, p b) :
    (front ++ a :: rest).rtakeWhile p = rest := by
  have hnil : (front ++ [a]).rtakeWhile p = [] := rtakeWhile_concat_neg _ _ _ ha
  have hsplit : front ++ a :: rest = (front ++ [a]) ++ rest := by simp
  rw [hsplit, rtakeWhile_append_of_forall h, hnil, nil_append]

theorem rtakeWhile_append_of_exists (h : ∃ a ∈ rest, ¬ p a) :
    (front ++ rest).rtakeWhile p = rest.rtakeWhile p := by
  induction rest using reverseRecOn with
  | nil => simp at h
  | append_singleton rest a ih =>
    by_cases ha : p a
    · have hrest : ∃ b ∈ rest, ¬ p b := by
        obtain ⟨b, hb, hfail⟩ := h
        rcases mem_append.mp hb with hb | hb
        · exact ⟨b, hb, hfail⟩
        · rw [mem_singleton.mp hb] at hfail
          exact absurd ha hfail
      rw [← append_assoc, rtakeWhile_concat_pos _ _ _ ha, rtakeWhile_concat_pos _ _ _ ha, ih hrest]
    · rw [← append_assoc, rtakeWhile_concat_neg _ _ _ ha, rtakeWhile_concat_neg _ _ _ ha]

theorem drop_rposition (p : α → Bool) (l : List α) :
    l.drop ((rposition (fun a => !p a) l).elim 0 (· + 1)) = l.rtakeWhile p := by
  cases hpos : rposition (fun a => !p a) l with
  | none =>
    have hall := rposition_eq_none_iff.mp hpos
    have hself : l.rtakeWhile p = l :=
      rtakeWhile_eq_self_iff.mpr fun a ha => by simpa using hall a ha
    simp [hself]
  | some i =>
    obtain ⟨front, a, rest, rfl, rfl, ha, hrest⟩ := rposition_eq_some hpos
    have hbehind : ∀ b ∈ rest, p b := fun b hb => by simpa using hrest b hb
    rw [rtakeWhile_append_cons (by simpa using ha) hbehind, Option.elim_some,
      ← drop_drop, drop_left]
    rfl

end CollideOScope
