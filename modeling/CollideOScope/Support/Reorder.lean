import CollideOScope.Support.Checks
import CollideOScope.Support.Orders
import Mathlib.Data.List.TakeWhile

/-!
# In-order admission of out-of-order results

Tasks finish in one order and their results are admitted in another.  After each
task the front of the waiting list is admitted as far as it has finished.  A
result that is admitted right after its own task is taken as it is; one that had
to wait must have been kept.
-/

namespace CollideOScope.Reorder

open Checks List

variable {α σ ε : Type}

structure Admission (α σ : Type) where
  item : α
  source : σ

structure Entry (α σ : Type) where
  task : α
  drains : List (Admission α σ)

section

variable [DecidableEq α] (source : α → α → Bool → Except ε σ)

/-- Admit the front of the waiting list after `task`. -/
def drain (task : α) (arrived : List α) : List α → List (Admission α σ) →
    Except ε (List α × List (Admission α σ))
  | [], drains => .ok ([], drains)
  | item :: pending, drains =>
    if item ∈ arrived then do
      let admitted ← source item task drains.isEmpty
      drain task arrived pending (drains ++ [⟨item, admitted⟩])
    else .ok (item :: pending, drains)

/-- Run the tasks in order; `arrived` have run before. -/
def drainAll : List α → List α → List α → Except ε (List α × List (Entry α σ))
  | _, [], pending => .ok (pending, [])
  | arrived, task :: rest, pending => do
    let drained ← drain source task (arrived ++ [task]) pending []
    let result ← drainAll (arrived ++ [task]) rest drained.1
    return (result.1, ⟨task, drained.2⟩ :: result.2)

end

/-- A source that is `now` for a result admitted first after its own task, and
otherwise looks up what was kept. -/
structure Keeps [DecidableEq α] (source : α → α → Bool → Except ε σ) (now : σ)
    (late : α → Except ε σ) : Prop where
  own : ∀ item, source item item true = .ok now
  other : ∀ item task, item ≠ task → source item task true = late item
  again : ∀ item task, source item task false = late item

/-- What an admission of every result looks like. -/
structure Admits (now : σ) (late : α → Except ε σ) (arrivals desired : List α)
    (entries : List (Entry α σ)) : Prop where
  tasks : entries.map Entry.task = arrivals
  items : (entries.flatMap Entry.drains).map Admission.item = desired
  sources : ∀ entry ∈ entries, ∀ admission ∈ entry.drains,
    admission.item = entry.task ∧ admission.source = now ∨
      late admission.item = .ok admission.source

/-- What waits does not start with something that has arrived, and will all
have arrived. -/
structure Waiting (arrived rest pending : List α) : Prop where
  arrivals_nodup : (arrived ++ rest).Nodup
  pending_nodup : pending.Nodup
  pending_mem : ∀ item ∈ pending, item ∈ arrived ++ rest
  fresh : ∀ item ∈ pending.head?, item ∉ arrived

theorem Waiting.nil_of_nil {arrived pending : List α}
    (h : Waiting arrived [] pending) : pending = [] := by
  cases pending with
  | nil => rfl
  | cons item pending =>
    have hmem := h.pending_mem item mem_cons_self
    rw [append_nil] at hmem
    exact absurd hmem (h.fresh item rfl)

theorem Waiting.of_perm {execution desired : List α}
    (hperm : execution.Perm desired) (hdesired : desired.Nodup) :
    Waiting [] execution desired where
  arrivals_nodup := hperm.nodup_iff.mpr hdesired
  pending_nodup := hdesired
  pending_mem := by
    intro item hitem
    exact hperm.mem_iff.mpr hitem
  fresh := by
    intro item _
    exact not_mem_nil

theorem Waiting.other {task : α} {arrived rest pending : List α}
    (h : Waiting arrived (task :: rest) pending) (hother : pending.head? ≠ some task) :
    Waiting (arrived ++ [task]) rest pending where
  arrivals_nodup := by
    rw [← append_cons]
    exact h.arrivals_nodup
  pending_nodup := h.pending_nodup
  pending_mem := by
    rw [← append_cons]
    exact h.pending_mem
  fresh := by
    intro item hitem hin
    rcases mem_append.mp hin with hin | hin
    · exact h.fresh item hitem hin
    · rw [mem_singleton] at hin
      exact hother (hin ▸ hitem)

def Kept (late : α → Except ε σ) (item : α) : Prop := ∃ kept, late item = .ok kept

theorem exists_admissions {late : α → Except ε σ} {items : List α}
    (h : ∀ item ∈ items, Kept late item) :
    ∃ more : List (Admission α σ), more.map Admission.item = items ∧
      ∀ admission ∈ more, late admission.item = .ok admission.source := by
  induction items with
  | nil => exact ⟨[], rfl, by simp⟩
  | cons item items ih =>
    obtain ⟨⟨kept, hitem⟩, hitems⟩ := forall_mem_cons.mp h
    obtain ⟨more, hmore, hsources⟩ := ih hitems
    refine ⟨⟨item, kept⟩ :: more, by rw [map_cons, hmore], ?_⟩
    exact forall_mem_cons.mpr ⟨hitem, hsources⟩

section

variable [DecidableEq α] {source : α → α → Bool → Except ε σ} {now : σ} {late : α → Except ε σ}

variable {arrived pending : List α} {task : α}

variable {result : List α × List (Admission α σ)}

theorem Keeps.drain_rest (h : Keeps source now late)
    {drains : List (Admission α σ)} (hdrain : drains ≠ []) :
    drain source task arrived pending drains = .ok result ↔
      ∃ more, result = (pending.dropWhile (· ∈ arrived), drains ++ more) ∧
        more.map Admission.item = pending.takeWhile (· ∈ arrived) ∧
        ∀ admission ∈ more, late admission.item = .ok admission.source := by
  induction pending generalizing drains with
  | nil =>
    constructor
    · intro hres
      cases hres
      exact ⟨[], by simp, rfl, by simp⟩
    · rintro ⟨more, rfl, hmore, -⟩
      obtain rfl := map_eq_nil_iff.mp hmore
      simp [drain]
  | cons item pending ih =>
    by_cases hin : item ∈ arrived
    · have hemp : drains.isEmpty = false := by simpa using hdrain
      rw [drain, if_pos hin, hemp, h.again]
      simp only [bind_ok]
      rw [dropWhile_cons_of_pos (by simpa using hin), takeWhile_cons_of_pos (by simpa using hin)]
      constructor
      · rintro ⟨admitted, hlate, hrest⟩
        obtain ⟨more, rfl, hmore, hkept⟩ := (ih (by simp)).mp hrest
        refine ⟨⟨item, admitted⟩ :: more, by simp, by simp [hmore], ?_⟩
        exact forall_mem_cons.mpr ⟨hlate, hkept⟩
      · rintro ⟨more, rfl, hmore, hkept⟩
        obtain ⟨admission, rest, rfl, hitem, hrest⟩ := map_eq_cons_iff.mp hmore
        obtain ⟨hfst, hothers⟩ := forall_mem_cons.mp hkept
        subst hitem
        exact ⟨admission.source, hfst,
          (ih (by simp)).mpr ⟨rest, by simp, hrest, hothers⟩⟩
    · rw [drain, if_neg hin, dropWhile_cons_of_neg (by simpa using hin),
        takeWhile_cons_of_neg (by simpa using hin)]
      constructor
      · intro hres
        cases hres
        exact ⟨[], by simp, rfl, by simp⟩
      · rintro ⟨more, rfl, hmore, -⟩
        obtain rfl := map_eq_nil_iff.mp hmore
        simp

theorem Keeps.drain_own (h : Keeps source now late) :
    drain source task (arrived ++ [task]) (task :: pending) [] = .ok result ↔
      ∃ more, result = (pending.dropWhile (· ∈ arrived ++ [task]), ⟨task, now⟩ :: more) ∧
        more.map Admission.item = pending.takeWhile (· ∈ arrived ++ [task]) ∧
        ∀ admission ∈ more, late admission.item = .ok admission.source := by
  have hfst : drain source task (arrived ++ [task]) (task :: pending) [] =
      drain source task (arrived ++ [task]) pending [⟨task, now⟩] := by
    rw [drain, if_pos (by simp), isEmpty_nil, h.own]
    rfl
  rw [hfst, h.drain_rest (by simp)]
  rfl

theorem drain_other (hfresh : ∀ item ∈ pending.head?, item ∉ arrived)
    (hother : pending.head? ≠ some task) :
    drain source task (arrived ++ [task]) pending [] = .ok (pending, []) := by
  cases pending with
  | nil => rfl
  | cons item pending =>
    have hin : item ∉ arrived ++ [task] := by
      rw [mem_append, mem_singleton, not_or]
      refine ⟨hfresh item rfl, ?_⟩
      rintro rfl
      exact hother rfl
    rw [drain, if_neg hin]

theorem head_dropWhile_notMem {item : α}
    (h : item ∈ (pending.dropWhile (· ∈ arrived)).head?) : item ∉ arrived := by
  have hnot := head?_dropWhile_not (fun item => decide (item ∈ arrived)) pending
  rw [Option.mem_def.mp h] at hnot
  simpa using hnot

variable {rest : List α}

theorem Waiting.own (h : Waiting arrived (task :: rest) (task :: pending)) :
    Waiting (arrived ++ [task]) rest (pending.dropWhile (· ∈ arrived ++ [task])) where
  arrivals_nodup := by
    rw [← append_cons]
    exact h.arrivals_nodup
  pending_nodup := (nodup_cons.mp h.pending_nodup).2.sublist (dropWhile_sublist _)
  pending_mem := by
    intro item hitem
    rw [← append_cons]
    exact h.pending_mem item (mem_cons_of_mem task ((dropWhile_sublist _).subset hitem))
  fresh := fun item hitem => head_dropWhile_notMem hitem

theorem Keeps.drainAll_admits (h : Keeps source now late) :
    ∀ {rest arrived pending : List α}, Waiting arrived rest pending →
      ∀ {result : List α × List (Entry α σ)},
        drainAll source arrived rest pending = .ok result →
          result.1 = [] ∧ Admits now late rest pending result.2
  | [], arrived, pending, hwait, result, hres => by
      obtain rfl := hwait.nil_of_nil
      cases hres
      exact ⟨rfl, rfl, rfl, by simp⟩
  | task :: rest, arrived, pending, hwait, result, hres => by
      simp only [drainAll, bind_ok, pure_ok] at hres
      obtain ⟨drained, hdrain, last, hlast, rfl⟩ := hres
      by_cases hhead : pending.head? = some task
      · obtain ⟨behind, rfl⟩ : ∃ behind, pending = task :: behind := head?_eq_some_iff.mp hhead
        obtain ⟨more, rfl, hmore, hkept⟩ := h.drain_own.mp hdrain
        obtain ⟨hnil, hadmits⟩ := h.drainAll_admits hwait.own hlast
        refine ⟨hnil, ?_, ?_, ?_⟩
        · rw [map_cons, hadmits.tasks]
        · rw [flatMap_cons, map_append, hadmits.items, map_cons,
            hmore, cons_append, takeWhile_append_dropWhile]
        · refine forall_mem_cons.mpr ⟨?_, hadmits.sources⟩
          refine forall_mem_cons.mpr ⟨.inl ⟨rfl, rfl⟩, ?_⟩
          intro admission hadmission
          exact .inr (hkept admission hadmission)
      · rw [drain_other hwait.fresh hhead] at hdrain
        cases hdrain
        obtain ⟨hnil, hadmits⟩ := h.drainAll_admits (hwait.other hhead) hlast
        refine ⟨hnil, ?_, ?_, ?_⟩
        · rw [map_cons, hadmits.tasks]
        · rw [flatMap_cons, nil_append, hadmits.items]
        · exact forall_mem_cons.mpr ⟨by simp, hadmits.sources⟩

/-- `later` does not wait for `behind`, or was kept. -/
def InTurn (late : α → Except ε σ) (arrivals : List α) (behind later : α) : Prop :=
  arrivals.idxOf behind < arrivals.idxOf later ∨ Kept late later

theorem Waiting.pairwise_own (h : Waiting arrived (task :: rest) (task :: pending)) :
    (task :: pending).Pairwise (InTurn late ((arrived ++ [task]) ++ rest)) ↔
      (∀ item ∈ pending.takeWhile (· ∈ arrived ++ [task]), Kept late item) ∧
      (pending.dropWhile (· ∈ arrived ++ [task])).Pairwise
        (InTurn late ((arrived ++ [task]) ++ rest)) := by
  obtain ⟨hout, hbehind⟩ := nodup_cons.mp h.pending_nodup
  have harrived : task ∉ arrived := by
    intro hin
    exact h.fresh task rfl hin
  have hpre : ∀ {x y}, x ∈ arrived ++ [task] → y ∉ arrived ++ [task] →
      ((arrived ++ [task]) ++ rest).idxOf x < ((arrived ++ [task]) ++ rest).idxOf y :=
    fun hx hy => idxOf_append_lt hx hy
  have hlate : ∀ {x}, x ∈ arrived →
      ((arrived ++ [task]) ++ rest).idxOf x < ((arrived ++ [task]) ++ rest).idxOf task := by
    intro x hx
    rw [append_assoc]
    exact idxOf_append_lt hx harrived
  generalize hfront : pending.takeWhile (· ∈ arrived ++ [task]) = front
  generalize hback : pending.dropWhile (· ∈ arrived ++ [task]) = back
  have hsplit : pending = front ++ back := by rw [← hfront, ← hback, takeWhile_append_dropWhile]
  have hfrontMem : ∀ x ∈ front, x ∈ arrived := by
    intro x hx
    have hpend : x ∈ pending := hsplit ▸ mem_append_left _ hx
    rw [← hfront] at hx
    have hin := mem_takeWhile_imp hx
    rw [decide_eq_true_eq, mem_append, mem_singleton] at hin
    refine hin.resolve_right ?_
    rintro rfl
    exact hout hpend
  have hback' : ∀ {c}, back.Pairwise
      (InTurn late ((arrived ++ [task]) ++ rest)) → c ∈ back → c ∈ arrived → Kept late c := by
    intro c hpairwise hc hin
    cases back with
    | nil => cases hc
    | cons head tail =>
      have hhead : head ∉ arrived ++ [task] := head_dropWhile_notMem (by rw [hback]; rfl)
      have hne : c ≠ head := by
        rintro rfl
        exact hhead (mem_append_left _ hin)
      have hturn := (pairwise_cons.mp hpairwise).1 c ((mem_cons.mp hc).resolve_left hne)
      refine hturn.resolve_left ?_
      exact lt_asymm (hpre (mem_append_left _ hin) hhead)
  subst hsplit
  rw [pairwise_cons]
  constructor
  · rintro ⟨hfst, hothers⟩
    refine ⟨?_, (pairwise_append.mp hothers).2.1⟩
    intro item hitem
    refine (hfst item (mem_append_left _ hitem)).resolve_left ?_
    exact lt_asymm (hlate (hfrontMem item hitem))
  · rintro ⟨hkept, hothers⟩
    have hlast : ∀ c ∈ back, Kept late c ∨ c ∉ arrived ++ [task] := by
      intro c hc
      by_cases hin : c ∈ arrived
      · exact .inl (hback' hothers hc hin)
      · refine .inr ?_
        rw [mem_append, mem_singleton, not_or]
        refine ⟨hin, ?_⟩
        rintro rfl
        exact hout (mem_append_right _ hc)
    have hturn : ∀ x ∈ arrived ++ [task], ∀ c ∈ front ++ back,
        InTurn late ((arrived ++ [task]) ++ rest) x c := by
      intro x hx c hc
      rcases mem_append.mp hc with hc | hc
      · exact .inr (hkept c hc)
      · rcases hlast c hc with hkept | hin
        · exact .inr hkept
        · exact .inl (hpre hx hin)
    refine ⟨?_, pairwise_append.mpr ⟨?_, hothers, ?_⟩⟩
    · intro c hc
      exact hturn task (mem_append_right _ (mem_singleton_self _)) c hc
    · refine pairwise_of_forall_mem_list ?_
      intro x _ c hc
      exact .inr (hkept c hc)
    · intro x hx c hc
      exact hturn x (mem_append_left _ (hfrontMem x hx)) c (mem_append_right _ hc)

theorem Keeps.exists_drainAll_iff (h : Keeps source now late) :
    ∀ {rest arrived pending : List α}, Waiting arrived rest pending →
      ((∃ result, drainAll source arrived rest pending = .ok result) ↔
        pending.Pairwise (InTurn late (arrived ++ rest)))
  | [], arrived, pending, hwait => by
      obtain rfl := hwait.nil_of_nil
      simp [drainAll]
  | task :: rest, arrived, pending, hwait => by
      simp only [drainAll, bind_ok, pure_ok]
      rw [append_cons arrived task rest]
      by_cases hhead : pending.head? = some task
      · obtain ⟨behind, rfl⟩ : ∃ behind, pending = task :: behind := head?_eq_some_iff.mp hhead
        rw [hwait.pairwise_own, ← h.exists_drainAll_iff hwait.own]
        constructor
        · rintro ⟨_, drained, hdrain, last, hlast, rfl⟩
          obtain ⟨more, rfl, hmore, hkept⟩ := h.drain_own.mp hdrain
          refine ⟨?_, last, hlast⟩
          intro item hitem
          rw [← hmore] at hitem
          obtain ⟨admission, hadmission, rfl⟩ := mem_map.mp hitem
          exact ⟨_, hkept admission hadmission⟩
        · rintro ⟨hkept, last, hlast⟩
          obtain ⟨more, hmore, hsources⟩ := exists_admissions hkept
          exact ⟨_, _, h.drain_own.mpr ⟨more, rfl, hmore, hsources⟩, last, hlast, rfl⟩
      · rw [← h.exists_drainAll_iff (hwait.other hhead)]
        rw [drain_other hwait.fresh hhead]
        constructor
        · rintro ⟨_, drained, hdrain, last, hlast, rfl⟩
          cases hdrain
          exact ⟨last, hlast⟩
        · rintro ⟨last, hlast⟩
          exact ⟨_, _, rfl, last, hlast, rfl⟩

end

end CollideOScope.Reorder
