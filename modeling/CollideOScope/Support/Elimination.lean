import Mathlib.Algebra.BigOperators.Field
import Mathlib.Algebra.BigOperators.Fin
import Mathlib.Algebra.Order.Field.Basic
import Mathlib.Tactic.Ring

/-!
# Gauss–Jordan elimination

A square system with its right-hand side in the last column is reduced one
column after the other, each time with a greatest entry as pivot, as long as
the pivot exceeds a threshold.  The row operations keep the vectors that the
rows annul, so that with the threshold zero the elimination succeeds if and only
if the system determines its solution.
-/

namespace CollideOScope.Elimination

open Nat List Finset Fin Option

variable {n : ℕ} {K : Type*} [Field K] [LinearOrder K]

/-- The rows of a system, each with its right-hand side. -/
abbrev System (n : ℕ) (K : Type*) := Fin n → Fin (n + 1) → K

/-- The last row from the column on with a greatest entry. -/
def pivotRow (m : System n K) (column : Fin n) : Fin n :=
  ((finRange n).filter (column ≤ ·)).foldl
    (fun best row => if |m best column.castSucc| ≤ |m row column.castSucc| then row else best)
    column

/-- The rows with the pivot brought up and divided by its entry. -/
def pivoted (m : System n K) (column : Fin n) (c : Fin (n + 1)) : K :=
  let row := m (pivotRow m column)
  if column.castSucc ≤ c then row c / row column.castSucc else row c

def eliminate (threshold : K) (m : System n K) (column : Fin n) : Option (System n K) :=
  if |m (pivotRow m column) column.castSucc| ≤ threshold then none
  else some fun row c =>
    let value := m (Equiv.swap column (pivotRow m column) row)
    if row = column then pivoted m column c
    else if column.castSucc ≤ c then value c - value column.castSucc * pivoted m column c
    else value c

/-- The columns in front of `k` are reduced. -/
def reduce (threshold : K) (m : System n K) : (k : ℕ) → k ≤ n → Option (System n K)
  | 0, _ => some m
  | k + 1, h => (reduce threshold m k (le_of_succ_le h)).bind
      (eliminate threshold · ⟨k, h⟩)

def solve (threshold : K) (m : System n K) : Option (Fin n → K) :=
  (reduce threshold m n le_rfl).map fun m row => m row (last n)

def Annuls (m : System n K) (y : Fin (n + 1) → K) : Prop := ∀ row, ∑ c, m row c * y c = 0

/-- The first columns are those of the identity. -/
def Reduced (m : System n K) (k : ℕ) : Prop :=
  ∀ row (c : Fin n), c.val < k → m row c.castSucc = if row = c then 1 else 0

variable {m m' : System n K} {column : Fin n} {threshold : K}

theorem pivotRow_spec [IsStrictOrderedRing K] (m : System n K) (column : Fin n) :
    column ≤ pivotRow m column ∧ ∀ row, column ≤ row →
      |m row column.castSucc| ≤ |m (pivotRow m column) column.castSucc| := by
  have hfold : ∀ (rows : List (Fin n)) (best : Fin n), column ≤ best →
      (∀ row ∈ rows, column ≤ row) →
        let last := rows.foldl (fun best row =>
          if |m best column.castSucc| ≤ |m row column.castSucc| then row
          else best) best
        column ≤ last ∧ |m best column.castSucc| ≤ |m last column.castSucc| ∧
          ∀ row ∈ rows, |m row column.castSucc| ≤ |m last column.castSucc| := by
    intro rows
    induction rows with
    | nil => exact fun best hbest _ => ⟨hbest, le_rfl, fun _ h => nomatch h⟩
    | cons row rows ih =>
      intro best hbest hrows
      rw [List.forall_mem_cons] at hrows
      rw [List.foldl_cons]
      split_ifs with hle
      · obtain ⟨hlast, hgreat, hrest⟩ := ih row hrows.1 hrows.2
        exact ⟨hlast, hle.trans hgreat, List.forall_mem_cons.mpr ⟨hgreat, hrest⟩⟩
      · obtain ⟨hlast, hgreat, hrest⟩ := ih best hbest hrows.2
        exact ⟨hlast, hgreat, List.forall_mem_cons.mpr ⟨(not_le.mp hle).le.trans hgreat, hrest⟩⟩
  obtain ⟨hlast, -, hrows⟩ := hfold ((finRange n).filter (column ≤ ·)) column le_rfl (by simp)
  exact ⟨hlast, fun row hrow => hrows row (by simpa using hrow)⟩

theorem Reduced.pivot_eq_zero [IsStrictOrderedRing K]
    (h : Reduced m column) {c : Fin (n + 1)} (hc : c < column.castSucc) :
    m (pivotRow m column) c = 0 := by
  have hlt : c.val < column.val := hc
  have hrow := h (pivotRow m column) ⟨c, hlt.trans column.isLt⟩ hlt
  have hne : pivotRow m column ≠ ⟨c, hlt.trans column.isLt⟩ := by
    intro heq
    have hle := (pivotRow_spec m column).1
    rw [heq] at hle
    exact absurd hlt (not_lt.mpr hle)
  rwa [if_neg hne] at hrow

theorem Reduced.eliminate_eq [IsStrictOrderedRing K] (h : Reduced m column)
    (hthr : 0 ≤ threshold) (hstep : eliminate threshold m column = some m') :
    m (pivotRow m column) column.castSucc ≠ 0 ∧ ∀ row c,
      m' row c =
        if row = column then m (pivotRow m column) c / m (pivotRow m column) column.castSucc
        else
          m (Equiv.swap column (pivotRow m column) row) c -
            m (Equiv.swap column (pivotRow m column) row) column.castSucc *
              (m (pivotRow m column) c / m (pivotRow m column) column.castSucc) := by
  rw [eliminate] at hstep
  split_ifs at hstep with hsmall
  refine ⟨fun hzero => hsmall (by rwa [hzero, abs_zero]), fun row c => ?_⟩
  rw [← some.inj hstep]
  by_cases hc : column.castSucc ≤ c
  · simp [pivoted, hc]
  · simp [pivoted, hc, h.pivot_eq_zero (not_le.mp hc)]

theorem Reduced.eliminate [IsStrictOrderedRing K] (h : Reduced m column)
    (hthr : 0 ≤ threshold) (hstep : eliminate threshold m column = some m') :
    Reduced m' (column + 1) ∧ ∀ y, Annuls m' y ↔ Annuls m y := by
  obtain ⟨hpivot, hent⟩ := h.eliminate_eq hthr hstep
  set pivot := pivotRow m column
  have hswap : ∀ row, row ≠ column → ∀ c : Fin n, c < column →
      (Equiv.swap column pivot row = c ↔ row = c) := by
    intro row hrow c hc
    have hle : column ≤ pivot := (pivotRow_spec m column).1
    by_cases hat : row = pivot
    · subst hat
      rw [Equiv.swap_apply_right]
      exact iff_of_false hc.ne' (hc.trans_le hle).ne'
    · rw [Equiv.swap_apply_of_ne_of_ne hrow hat]
  constructor
  · intro row c hc
    rw [hent]
    obtain hlt | heq := (Nat.lt_succ_iff_lt_or_eq.mp hc)
    · have hzero : m pivot c.castSucc = 0 := h.pivot_eq_zero hlt
      rw [hzero, zero_div, mul_zero, sub_zero, h _ c hlt]
      by_cases hrow : row = column
      · have hne : row ≠ c := by
          rintro rfl
          exact absurd hlt (by simp [hrow])
        rw [if_pos hrow, if_neg hne]
      · simp only [if_neg hrow, hswap row hrow c hlt]
    · obtain rfl : c = column := Fin.ext heq
      rw [div_self hpivot, mul_one, sub_self]
  · intro y
    have hsum : ∀ row, ∑ c, m' row c * y c =
        if row = column then (∑ c, m pivot c * y c) / m pivot column.castSucc
        else
          ∑ c, m (Equiv.swap column pivot row) c * y c -
            m (Equiv.swap column pivot row) column.castSucc *
              ((∑ c, m pivot c * y c) / m pivot column.castSucc) := by
      intro row
      simp only [hent]
      split_ifs
      · rw [sum_div]
        exact sum_congr rfl fun c _ => by ring
      · rw [sum_div, mul_sum, ← sum_sub_distrib]
        exact sum_congr rfl fun c _ => by ring
    constructor
    · intro hnext
      have hat : ∑ c, m pivot c * y c = 0 := by
        have hrow := hnext column
        rw [hsum, if_pos rfl, div_eq_zero_iff] at hrow
        exact hrow.resolve_right hpivot
      intro row
      by_cases hrow : Equiv.swap column pivot row = column
      · rw [Equiv.swap_apply_eq_iff, Equiv.swap_apply_left] at hrow
        rw [hrow, hat]
      · have hother := hnext (Equiv.swap column pivot row)
        rwa [hsum, if_neg hrow, hat, zero_div, mul_zero, sub_zero, Equiv.swap_apply_self] at hother
    · intro hrows row
      rw [hsum]
      simp [hrows _]

theorem Reduced.exists_annuls [IsStrictOrderedRing K] (h : Reduced m column)
    (hstep : CollideOScope.Elimination.eliminate 0 m column = none) :
    ∃ y, y (last n) = 0 ∧ y ≠ 0 ∧ Annuls m y := by
  have hzero : ∀ row, column ≤ row → m row column.castSucc = 0 := by
    intro row hrow
    rw [CollideOScope.Elimination.eliminate, ite_eq_left_iff] at hstep
    have hpivot : |m (pivotRow m column) column.castSucc| ≤ 0 := by
      by_contra hne
      exact absurd (hstep hne) (by simp)
    exact abs_nonpos_iff.mp (((pivotRow_spec m column).2 row hrow).trans hpivot)
  let y : Fin (n + 1) → K := lastCases 0 fun c =>
    if c = column then 1 else if c < column then -m c column.castSucc else 0
  refine ⟨y, by simp [y], fun hy => ?_, fun row => ?_⟩
  · have := congrFun hy column.castSucc
    simp [y] at this
  · have hterm : ∀ c : Fin n, m row c.castSucc * y c.castSucc =
        (if c = column then m row column.castSucc else 0) +
          if c = row then (if row < column then -m row column.castSucc else 0)
          else 0 := by
      intro c
      simp only [y, lastCases_castSucc]
      obtain hlt | rfl | hgt := lt_trichotomy c column
      · rw [if_neg hlt.ne, if_pos hlt, if_neg hlt.ne, h row c hlt]
        by_cases hrow : row = c
        · subst hrow
          simp [hlt]
        · simp [hrow, Ne.symm hrow]
      · by_cases hrow : c = row
        · subst hrow
          simp
        · simp [hrow]
      · rw [if_neg hgt.ne', if_neg hgt.not_gt, if_neg hgt.ne']
        by_cases hrow : c = row
        · subst hrow
          simp [hgt.not_gt]
        · simp [hrow]
    have hlast : y (last n) = 0 := by simp [y]
    rw [sum_univ_castSucc, hlast, mul_zero, add_zero]
    simp only [hterm, sum_add_distrib, sum_ite_eq', mem_univ, if_true]
    split_ifs with hrow
    · exact add_neg_cancel _
    · rw [hzero row (not_lt.mp hrow), add_zero]

variable {k : ℕ} {hk : k ≤ n}

theorem reduce_some [IsStrictOrderedRing K] (hthr : 0 ≤ threshold)
    (h : reduce threshold m k hk = some m') :
    Reduced m' k ∧ ∀ y, Annuls m' y ↔ Annuls m y := by
  induction k generalizing m' with
  | zero =>
    cases h
    exact ⟨fun _ _ hc => absurd hc (not_lt_zero _), fun _ => Iff.rfl⟩
  | succ k ih =>
    obtain ⟨middle, hmid, hstep⟩ := bind_eq_some_iff.mp h
    obtain ⟨hreduced, hsame⟩ := ih hmid
    obtain ⟨hnext, hsame'⟩ := @Reduced.eliminate _ _ _ _ _ _ ⟨k, hk⟩ _ _ hreduced hthr hstep
    exact ⟨hnext, fun y => (hsame' y).trans (hsame y)⟩

theorem reduce_none [IsStrictOrderedRing K] (h : reduce 0 m k hk = none) :
    ∃ y, y (last n) = 0 ∧ y ≠ 0 ∧ Annuls m y := by
  induction k with
  | zero => cases h
  | succ k ih =>
    cases hmid : reduce 0 m k (le_of_succ_le hk) with
    | none => exact ih hmid
    | some middle =>
      obtain ⟨hreduced, hsame⟩ := reduce_some le_rfl hmid
      rw [reduce, hmid, bind_some] at h
      obtain ⟨y, hlast, hne, hannuls⟩ := @Reduced.exists_annuls _ _ _ _ _ ⟨k, hk⟩ _ hreduced h
      exact ⟨y, hlast, hne, (hsame y).mp hannuls⟩

theorem solve_some [IsStrictOrderedRing K] {x : Fin n → K} (hthr : 0 ≤ threshold)
    (h : solve threshold m = some x) (y : Fin (n + 1) → K) :
    Annuls m y ↔ ∀ row, y row.castSucc = -(x row * y (last n)) := by
  obtain ⟨m', hreduce, rfl⟩ := map_eq_some_iff.mp h
  obtain ⟨hreduced, hsame⟩ := reduce_some hthr hreduce
  rw [← hsame]
  refine forall_congr' fun row => ?_
  have hrow : ∑ c : Fin n, m' row c.castSucc * y c.castSucc = y row.castSucc := by
    simp [hreduced row _ (isLt _)]
  rw [sum_univ_castSucc, hrow, add_eq_zero_iff_eq_neg]

theorem solve_isSome_iff [IsStrictOrderedRing K] :
    (solve 0 m).isSome ↔ ∀ y, Annuls m y → y (last n) = 0 → y = 0 := by
  cases hsolve : solve 0 m with
  | none =>
    obtain ⟨y, hlast, hne, hannuls⟩ := reduce_none (map_eq_none_iff.mp hsolve)
    exact iff_of_false (by simp) fun h => hne (h y hannuls hlast)
  | some x =>
    refine iff_of_true rfl fun y hannuls hlast => ?_
    have hrows := (solve_some le_rfl hsolve y).mp hannuls
    ext c
    induction c using lastCases with
    | last => exact hlast
    | cast row => rw [hrows, hlast, mul_zero, neg_zero, Pi.zero_apply]

end CollideOScope.Elimination
