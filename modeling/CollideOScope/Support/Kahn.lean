import CollideOScope.Support.Orders
import Mathlib.Data.Finset.Sort

/-!
# Kahn's topological sort

A finite graph is a finite set of known vertices with the consumers of each
vertex.  The sort repeatedly takes the least vertex that has no unordered
producer left.  The indegree counters are the only record of the producers, so
the invariant ties them to the part of the graph that is still unordered.
-/

namespace CollideOScope.Kahn

open Function Option Relation List Finset

section

variable {α : Type*} {R : α → α → Prop} {vertices : Finset α}

theorem exists_cycle (hne : vertices.Nonempty) (hpred : ∀ x ∈ vertices, ∃ p ∈ vertices, R p x) :
    ∃ x ∈ vertices, TransGen (fun p y => p ∈ vertices ∧ y ∈ vertices ∧ R p y) x x := by
  by_contra hnone
  push Not at hnone
  let S : {x // x ∈ vertices} → {x // x ∈ vertices} → Prop := fun p y =>
    TransGen (fun p y => p ∈ vertices ∧ y ∈ vertices ∧ R p y) p.1 y.1
  have : IsTrans _ S := ⟨fun _ _ _ hab hbc => hab.trans hbc⟩
  have : Std.Irrefl S := ⟨fun x hx => hnone x.1 x.2 hx⟩
  have hwf : WellFounded S := Finite.wellFounded_of_trans_of_irrefl S
  obtain ⟨x, hx⟩ := hne
  obtain ⟨m, -, hmin⟩ := hwf.has_min Set.univ ⟨⟨x, hx⟩, trivial⟩
  obtain ⟨p, hp, hedge⟩ := hpred m.1 m.2
  exact hmin ⟨p, hp⟩ trivial (TransGen.single ⟨hp, m.2, hedge⟩)

theorem exists_cycle_upstream (hpred : ∀ x ∈ vertices, ∃ p ∈ vertices, R p x)
    {x : α} (hx : x ∈ vertices) :
    ∃ y ∈ vertices, TransGen R y y ∧ ReflTransGen R y x := by
  classical
  obtain ⟨y, hy, hcycle⟩ := @exists_cycle _ R (vertices.filter fun y => ReflTransGen R y x)
    ⟨x, mem_filter.mpr ⟨hx, ReflTransGen.refl⟩⟩ (by
      intro y hy
      obtain ⟨hyv, hyx⟩ := mem_filter.mp hy
      obtain ⟨p, hp, hedge⟩ := hpred y hyv
      exact ⟨p, mem_filter.mpr ⟨hp, hyx.head hedge⟩, hedge⟩)
  obtain ⟨hyv, hyx⟩ := mem_filter.mp hy
  exact ⟨y, hyv, TransGen.mono (fun _ _ h => h.2.2) _ _ hcycle, hyx⟩

end

variable {α : Type*} [LinearOrder α]

structure Peel (α : Type*) where
  indegree : α → ℕ
  ready : Finset α
  order : List α

/-- Take one producer off the count of a consumer. -/
def release (s : Peel α) (consumer : α) : Peel α :=
  let degree := s.indegree consumer - 1
  { s with
    indegree := update s.indegree consumer degree
    ready := if degree = 0 then insert consumer s.ready else s.ready }

/-- Order the least ready vertex and release its consumers in order. -/
def peel (adjacency : α → Finset α) (s : Peel α) : Option (Peel α) :=
  if h : s.ready.Nonempty then
    let scope := s.ready.min' h
    some (((adjacency scope).sort).foldl release
      { s with ready := s.ready.erase scope, order := s.order ++ [scope] })
  else none

def peelAll (adjacency : α → Finset α) : ℕ → Peel α → Peel α
  | 0, s => s
  | fuel + 1, s =>
    match peel adjacency s with
    | none => s
    | some t => peelAll adjacency fuel t

/-- The state before the first vertex is ordered. -/
def start (known : Finset α) (indegree : α → ℕ) : Peel α :=
  ⟨indegree, known.filter fun x => indegree x = 0, []⟩

def sort (known : Finset α) (adjacency : α → Finset α) (indegree : α → ℕ) : Peel α :=
  peelAll adjacency known.card (start known indegree)

/-- Take one producer off the count of a consumer; `none` when the count is
already zero. -/
def retire (s : Peel α) (consumer : α) : Option (Peel α) :=
  if s.indegree consumer = 0 then none else some (release s consumer)

def leastBy {κ : Type*} [LinearOrder κ] (key : α → κ) (ready : Finset α) : Option α :=
  Option.map (fun least => (ofLex least).2) (ready.image fun x => toLex (key x, x)).min

/-- Order the vertices that `least` picks and retire the edges to their
consumers, until no vertex is ready. -/
def drain (least : Finset α → Option α) (consumers : α → List α) : ℕ → Peel α → Option (Peel α)
  | 0, s => some s
  | fuel + 1, s =>
    match least s.ready with
    | none => some s
    | some scope => do
      let t ← (consumers scope).foldlM retire
        { s with ready := s.ready.erase scope, order := s.order ++ [scope] }
      drain least consumers fuel t

def producers (known : Finset α) (adjacency : α → Finset α) (x : α) : Finset α :=
  known.filter fun p => x ∈ adjacency p

def Edge (known : Finset α) (adjacency : α → Finset α) (p x : α) : Prop :=
  p ∈ known ∧ x ∈ adjacency p

structure Counted (known : Finset α) (adjacency : α → Finset α) (indegree : α → ℕ) : Prop where
  closed : ∀ p ∈ known, adjacency p ⊆ known
  indegree_eq : ∀ x, indegree x = (producers known adjacency x).card

theorem foldl_release {consumers : List α} (hnd : consumers.Nodup) (s : Peel α) :
    (∀ x, (consumers.foldl release s).indegree x =
      if x ∈ consumers then s.indegree x - 1 else s.indegree x) ∧
    (∀ x, x ∈ (consumers.foldl release s).ready ↔
      x ∈ s.ready ∨ x ∈ consumers ∧ s.indegree x - 1 = 0) ∧
    (consumers.foldl release s).order = s.order := by
  induction consumers generalizing s with
  | nil => simp
  | cons c consumers ih =>
    obtain ⟨hc, hrest⟩ := nodup_cons.mp hnd
    obtain ⟨hindegree, hready, hord⟩ := ih hrest (release s c)
    have hother : ∀ x, x ≠ c → (release s c).indegree x = s.indegree x := by
      intro x hx
      exact update_of_ne hx _ _
    refine ⟨?_, ?_, hord⟩
    · intro x
      rw [foldl_cons, hindegree x]
      by_cases hx : x = c
      · subst hx
        simp [hc, release]
      · simp [hother x hx, hx]
    · intro x
      rw [foldl_cons, hready x]
      by_cases hx : x = c
      · subst hx
        by_cases hzero : s.indegree x - 1 = 0
        · simp [release, hzero]
        · simp [release, hc, hzero]
      · rw [hother x hx]
        by_cases hzero : s.indegree c - 1 = 0
        · simp [release, hzero, hx]
        · simp [release, hzero, hx]

section

variable {known : Finset α} {adjacency : α → Finset α} {s t : Peel α}

/-- The producers of `x` that are not ordered yet. -/
def pendingProducers (known : Finset α) (adjacency : α → Finset α)
    (order : List α) (x : α) : Finset α :=
  (producers known adjacency x).filter fun p => p ∉ order

structure Peeled (known : Finset α) (adjacency : α → Finset α) (s : Peel α) : Prop where
  nodup : s.order.Nodup
  subset : ∀ x ∈ s.order, x ∈ known
  indegree_eq : ∀ x, s.indegree x = (pendingProducers known adjacency s.order x).card
  mem_ready : ∀ x, x ∈ s.ready ↔ x ∈ known ∧ x ∉ s.order ∧ s.indegree x = 0
  before : ∀ first x rest, s.order = first ++ x :: rest → ∀ p, Edge known adjacency p x → p ∈ first

theorem peeled_start {indegree : α → ℕ} (h : Counted known adjacency indegree) :
    Peeled known adjacency (start known indegree) where
  nodup := nodup_nil
  subset := by simp [start]
  indegree_eq := by
    intro x
    simp [start, pendingProducers, h.indegree_eq x]
  mem_ready := by simp [start]
  before := by simp [start]

theorem Peeled.mem_order_of_ready (h : Peeled known adjacency s) {x : α}
    (hx : x ∈ s.ready) {p : α} (hp : Edge known adjacency p x) :
    p ∈ s.order := by
  have hzero : (pendingProducers known adjacency s.order x).card = 0 :=
    (h.indegree_eq x).symm.trans ((h.mem_ready x).mp hx).2.2
  by_contra hout
  have hmem : p ∈ pendingProducers known adjacency s.order x := by
    simp only [pendingProducers, producers, Finset.mem_filter]
    exact ⟨hp, hout⟩
  rw [card_eq_zero.mp hzero] at hmem
  exact absurd hmem (notMem_empty p)

variable {scope : α}

/-- Ordering `scope` takes it off the pending producers of its consumers. -/
theorem card_pendingProducers_append {order : List α} (hknown : scope ∈ known)
    (hout : scope ∉ order) (x : α) :
    (pendingProducers known adjacency (order ++ [scope]) x).card =
      if x ∈ adjacency scope then (pendingProducers known adjacency order x).card - 1
      else (pendingProducers known adjacency order x).card := by
  have hset : pendingProducers known adjacency (order ++ [scope]) x =
      (pendingProducers known adjacency order x).erase scope := by
    ext p
    simp only [pendingProducers, Finset.mem_filter, Finset.mem_erase,
      List.mem_append, List.mem_singleton, not_or]
    tauto
  have hmem : scope ∈ pendingProducers known adjacency order x ↔ x ∈ adjacency scope := by
    simp [pendingProducers, producers, hknown, hout]
  rw [hset]
  by_cases hx : x ∈ adjacency scope
  · rw [if_pos hx, card_erase_of_mem (hmem.mpr hx)]
  · rw [if_neg hx, erase_eq_of_notMem (mt hmem.mp hx)]

section

variable (hclosed : ∀ p ∈ known, adjacency p ⊆ known)
  (h : Peeled known adjacency s) (hready : scope ∈ s.ready)
include hclosed h hready

theorem Peeled.consumer_of_ready {x : α} (hx : x ∈ adjacency scope) :
    x ∈ known ∧ x ∉ s.order ∧ x ≠ scope ∧ s.indegree x ≠ 0 := by
  obtain ⟨hknown, hout, -⟩ := (h.mem_ready scope).mp hready
  have hsub : x ∈ known := hclosed scope hknown hx
  have hpend : x ∉ s.order := by
    intro hin
    obtain ⟨first, rest, hsplit⟩ := append_of_mem hin
    have hpre := h.before first x rest hsplit scope ⟨hknown, hx⟩
    exact hout (hsplit ▸ mem_append_left _ hpre)
  refine ⟨hsub, hpend, ?_, ?_⟩
  · rintro rfl
    exact hout (h.mem_order_of_ready hready ⟨hknown, hx⟩)
  · intro hzero
    exact hout (h.mem_order_of_ready ((h.mem_ready x).mpr ⟨hsub, hpend, hzero⟩) ⟨hknown, hx⟩)

theorem Peeled.settle {consumers : List α} (hnd : consumers.Nodup)
    (hcons : ∀ x, x ∈ consumers ↔ x ∈ adjacency scope)
    (ht : t = consumers.foldl release
      { s with ready := s.ready.erase scope, order := s.order ++ [scope] })
    :
    Peeled known adjacency t ∧ t.order = s.order ++ [scope] := by
  subst ht
  obtain ⟨hknown, hout, -⟩ := (h.mem_ready scope).mp hready
  obtain ⟨hindegree, hmem, hord⟩ := foldl_release hnd
    { s with ready := s.ready.erase scope, order := s.order ++ [scope] }
  simp only [hcons] at hindegree hmem
  have hcnt : ∀ x, (if x ∈ adjacency scope then s.indegree x - 1
      else s.indegree x) =
      (pendingProducers known adjacency (s.order ++ [scope]) x).card := by
    intro x
    rw [card_pendingProducers_append hknown hout, h.indegree_eq x]
  refine ⟨⟨?_, ?_, ?_, ?_, ?_⟩, hord⟩
  · rw [hord]
    exact List.nodup_append.mpr ⟨h.nodup, List.nodup_singleton scope, by
      intro a ha b hb hab
      rw [List.mem_singleton.mp hb] at hab
      exact hout (hab ▸ ha)⟩
  · intro x hx
    rw [hord, List.mem_append, List.mem_singleton] at hx
    rcases hx with hx | rfl
    · exact h.subset x hx
    · exact hknown
  · intro x
    rw [hindegree x, hord]
    exact hcnt x
  · intro x
    rw [hmem x, hindegree x, hord]
    simp only [Finset.mem_erase, List.mem_append, List.mem_singleton, not_or, h.mem_ready x]
    by_cases hx : x ∈ adjacency scope
    · obtain ⟨hsub, hpend, hne, hpos⟩ := h.consumer_of_ready hclosed hready hx
      simp [hx, hsub, hpend, hne, hpos]
    · simp only [hx, if_false, false_and, or_false]
      tauto
  · intro first x rest hsplit p hp
    rw [hord] at hsplit
    rcases eq_nil_or_concat rest with rfl | ⟨rest', last, rfl⟩
    · obtain ⟨rfl, hx⟩ := append_inj' hsplit rfl
      obtain rfl := singleton_inj.mp hx
      exact h.mem_order_of_ready hready hp
    · have hsplit' : s.order ++ [scope] = (first ++ x :: rest') ++ [last] := by simpa using hsplit
      obtain ⟨hinit, -⟩ := append_inj' hsplit' rfl
      exact h.before first x rest' hinit p hp

end

theorem Peeled.length_le (h : Peeled known adjacency s) : s.order.length ≤ known.card := by
  rw [← toFinset_card_of_nodup h.nodup]
  exact card_le_card fun x hx => h.subset x (List.mem_toFinset.mp hx)

theorem Peeled.ready_eq_empty (h : Peeled known adjacency s)
    (hall : known.card ≤ s.order.length) : s.ready = ∅ := by
  refine eq_empty_of_forall_notMem ?_
  intro x hx
  obtain ⟨hknown, hout, -⟩ := (h.mem_ready x).mp hx
  have hlen : (x :: s.order).length ≤ known.card := by
    rw [← toFinset_card_of_nodup (nodup_cons.mpr ⟨hout, h.nodup⟩)]
    apply card_le_card
    intro y hy
    rcases mem_cons.mp (List.mem_toFinset.mp hy) with rfl | hy
    · exact hknown
    · exact h.subset y hy
  rw [length_cons] at hlen
  omega

structure Drained (known : Finset α) (adjacency : α → Finset α) (s : Peel α) :
    Prop extends Peeled known adjacency s where
  ready_empty : s.ready = ∅

theorem Peeled.peelAll (hclosed : ∀ p ∈ known, adjacency p ⊆ known) :
    ∀ (fuel : ℕ) {s : Peel α}, Peeled known adjacency s →
      known.card ≤ fuel + s.order.length →
      Drained known adjacency (peelAll adjacency fuel s)
  | 0, s, h, hfuel => ⟨h, h.ready_eq_empty (by omega)⟩
  | fuel + 1, s, h, hfuel => by
      rw [Kahn.peelAll, Kahn.peel]
      by_cases hready : s.ready.Nonempty
      · rw [dif_pos hready]
        obtain ⟨ht, hord⟩ := h.settle hclosed (s.ready.min'_mem hready)
          (Finset.sort_nodup (s := adjacency _) (r := (· ≤ ·)))
          (fun x => Finset.mem_sort _) rfl
        refine Peeled.peelAll hclosed fuel ht ?_
        rw [hord, length_append, length_singleton]
        omega
      · rw [dif_neg hready]
        exact ⟨h, Finset.not_nonempty_iff_eq_empty.mp hready⟩

section

variable {κ : Type*} [LinearOrder κ] {key : α → κ} {ready : Finset α}

theorem leastBy_eq_none (h : leastBy key ready = none) : ready = ∅ := by
  have hmin : (ready.image fun x => toLex (key x, x)).min = ⊤ := Option.map_eq_none_iff.mp h
  exact image_eq_empty.mp (min_eq_top.mp hmin)

theorem leastBy_eq_some {x : α} (h : leastBy key ready = some x) :
    x ∈ ready ∧ ∀ y ∈ ready, toLex (key x, x) ≤ toLex (key y, y) := by
  obtain ⟨least, hmin, rfl⟩ := Option.map_eq_some_iff.mp h
  have hmin' : (ready.image fun x => toLex (key x, x)).min = ↑least := hmin
  obtain ⟨x, hx, rfl⟩ := mem_image.mp (mem_of_min hmin')
  refine ⟨hx, ?_⟩
  intro y hy
  exact min_le_of_eq (mem_image_of_mem (fun x => toLex (key x, x)) hy) hmin'

theorem Peeled.mem_ready_of_ordered (h : Peeled known adjacency s) {y : α} (hknown : y ∈ known)
    (hout : y ∉ s.order) (hprods : ∀ p, Edge known adjacency p y → p ∈ s.order) :
    y ∈ s.ready := by
  refine (h.mem_ready y).mpr ⟨hknown, hout, ?_⟩
  rw [h.indegree_eq y, card_eq_zero]
  refine eq_empty_of_forall_notMem ?_
  intro p hp
  simp only [pendingProducers, producers, Finset.mem_filter] at hp
  exact hp.2 (hprods p hp.1)

theorem Peeled.greedy_concat (h : Peeled known adjacency s)
    (hgreedy : Greedy known (Edge known adjacency) key s.order) {scope : α}
    (hleast : ∀ y ∈ s.ready, toLex (key scope, scope) ≤ toLex (key y, y)) :
    Greedy known (Edge known adjacency) key (s.order ++ [scope]) := by
  intro first x rest hsplit y hknown hout hprods
  rcases eq_nil_or_concat rest with rfl | ⟨rest', last, rfl⟩
  · obtain ⟨rfl, hx⟩ := append_inj' hsplit rfl
    obtain rfl := singleton_inj.mp hx
    exact hleast y (h.mem_ready_of_ordered hknown hout hprods)
  · have hsplit' : s.order ++ [scope] = (first ++ x :: rest') ++ [last] := by simpa using hsplit
    obtain ⟨hinit, -⟩ := append_inj' hsplit' rfl
    exact hgreedy first x rest' hinit y hknown hout hprods

theorem foldlM_retire {consumers : List α} (hnd : consumers.Nodup)
    (s : Peel α) (hpos : ∀ c ∈ consumers, s.indegree c ≠ 0) :
    consumers.foldlM retire s = some (consumers.foldl release s) := by
  induction consumers generalizing s with
  | nil => rfl
  | cons c consumers ih =>
    obtain ⟨hc, hrest⟩ := nodup_cons.mp hnd
    obtain ⟨hfst, hothers⟩ := forall_mem_cons.mp hpos
    rw [foldlM_cons, retire, if_neg hfst, foldl_cons]
    refine ih hrest (release s c) ?_
    intro other hother
    have hne : other ≠ c := by
      rintro rfl
      exact hc hother
    have hsame : (release s c).indegree other = s.indegree other := update_of_ne hne _ _
    rw [hsame]
    exact hothers other hother

theorem Peeled.drain (hclosed : ∀ p ∈ known, adjacency p ⊆ known) {consumers : α → List α}
    (hnd : ∀ x, (consumers x).Nodup) (hcons : ∀ x ∈ known, ∀ c, c ∈ consumers x ↔ c ∈ adjacency x) :
    ∀ (fuel : ℕ) {s : Peel α}, Peeled known adjacency s →
      Greedy known (Edge known adjacency) key s.order →
      known.card ≤ fuel + s.order.length →
      ∃ t, drain (leastBy key) consumers fuel s = some t ∧
        Drained known adjacency t ∧ Greedy known (Edge known adjacency) key t.order
  | 0, s, h, hgreedy, hfuel => ⟨s, rfl, ⟨h, h.ready_eq_empty (by omega)⟩, hgreedy⟩
  | fuel + 1, s, h, hgreedy, hfuel => by
      rw [Kahn.drain]
      cases hleast : leastBy key s.ready with
      | none => exact ⟨s, rfl, ⟨h, leastBy_eq_none hleast⟩, hgreedy⟩
      | some scope =>
        obtain ⟨hready, hmin⟩ := leastBy_eq_some hleast
        have hscope : scope ∈ known := ((h.mem_ready scope).mp hready).1
        obtain ⟨ht, hord⟩ := h.settle hclosed hready (hnd scope) (hcons scope hscope) rfl
        have hretire := foldlM_retire (hnd scope)
          { s with ready := s.ready.erase scope, order := s.order ++ [scope] } (by
            intro c hc
            exact (h.consumer_of_ready hclosed hready ((hcons scope hscope c).mp hc)).2.2.2)
        have hnext := h.greedy_concat hgreedy hmin
        rw [← hord] at hnext
        obtain ⟨last, hdrain, hres⟩ := Peeled.drain hclosed hnd
          hcons fuel ht hnext (by
            rw [hord, length_append, length_singleton]
            omega)
        refine ⟨last, ?_, hres⟩
        simp only [hretire, bind_eq_bind, bind_some]
        exact hdrain

end

end

section

variable {known : Finset α} {adjacency : α → Finset α} {indegree : α → ℕ} {s : Peel α}

theorem sort_drained (h : Counted known adjacency indegree) :
    Drained known adjacency (sort known adjacency indegree) :=
  (peeled_start h).peelAll h.closed known.card (by simp [start])

theorem exists_drain {κ : Type*} [LinearOrder κ] (key : α → κ)
    (h : Counted known adjacency indegree) {consumers : α → List α} (hnd : ∀ x, (consumers x).Nodup)
    (hcons : ∀ x ∈ known, ∀ c, c ∈ consumers x ↔ c ∈ adjacency x) :
    ∃ s, drain (leastBy key) consumers known.card (start known indegree) = some s ∧
      Drained known adjacency s ∧ Greedy known (Edge known adjacency) key s.order := by
  refine (peeled_start h).drain h.closed hnd hcons known.card ?_ (by simp [start])
  intro first x rest hsplit
  simp [start] at hsplit

variable {x : α}

section

variable (h : Drained known adjacency s)
include h

theorem Drained.exists_producer_left (hknown : x ∈ known) (hout : x ∉ s.order) :
    ∃ p ∈ known, p ∉ s.order ∧ Edge known adjacency p x := by
  by_contra hnone
  push Not at hnone
  have hmem : x ∈ s.ready := by
    refine h.mem_ready_of_ordered hknown hout ?_
    intro p hp
    by_contra hpout
    exact hnone p hp.1 hpout hp
  rw [h.ready_empty] at hmem
  exact absurd hmem (notMem_empty x)

theorem Drained.exists_left (hlen : s.order.length ≠ known.card) : ∃ x ∈ known, x ∉ s.order := by
  by_contra hnone
  push Not at hnone
  apply hlen
  apply le_antisymm h.length_le
  rw [← toFinset_card_of_nodup h.nodup]
  apply card_le_card
  intro x hx
  exact List.mem_toFinset.mpr (hnone x hx)

theorem Drained.indegree_ne_zero_iff (hknown : x ∈ known) : s.indegree x ≠ 0 ↔ x ∉ s.order := by
  constructor
  · intro hne hin
    apply hne
    rw [h.indegree_eq x, card_eq_zero]
    obtain ⟨first, rest, hsplit⟩ := append_of_mem hin
    apply eq_empty_of_forall_notMem
    intro p hp
    simp only [pendingProducers, producers, Finset.mem_filter] at hp
    apply hp.2
    rw [hsplit]
    exact mem_append_left _ (h.before first x rest hsplit p hp.1)
  · intro hout hzero
    have hmem := (h.mem_ready x).mpr ⟨hknown, hout, hzero⟩
    rw [h.ready_empty] at hmem
    exact absurd hmem (notMem_empty x)

theorem Drained.mem_order_iff (hlen : s.order.length = known.card) (x : α) :
    x ∈ s.order ↔ x ∈ known := by
  have hset : s.order.toFinset = known := by
    apply eq_of_subset_of_card_le
    · intro y hy
      exact h.subset y (List.mem_toFinset.mp hy)
    · rw [toFinset_card_of_nodup h.nodup, hlen]
  rw [← List.mem_toFinset, hset]

end

theorem Peeled.idxOf_lt_of_edge (h : Peeled known adjacency s) {p : α}
    (hx : x ∈ s.order) (hedge : Edge known adjacency p x) :
    s.order.idxOf p < s.order.idxOf x := by
  obtain ⟨first, rest, hsplit, hout⟩ := eq_append_cons_of_mem hx
  have hp := h.before first x rest hsplit p hedge
  rw [hsplit]
  exact idxOf_append_lt hp hout

theorem Drained.ordersBy (h : Drained known adjacency s)
    (hclosed : ∀ p ∈ known, adjacency p ⊆ known) (hlen : s.order.length = known.card) :
    OrdersBy known (Edge known adjacency) s.order where
  nodup := h.nodup
  mem_iff := h.mem_order_iff hlen
  before := by
    intro p x hedge
    exact h.idxOf_lt_of_edge ((h.mem_order_iff hlen x).mpr (hclosed p hedge.1 hedge.2)) hedge

theorem Drained.complete_iff (h : Drained known adjacency s)
    (hclosed : ∀ p ∈ known, adjacency p ⊆ known) :
    s.order.length = known.card ↔ ∀ x, ¬TransGen (Edge known adjacency) x x := by
  constructor
  · intro hlen x
    exact (h.ordersBy hclosed hlen).acyclic x
  · intro hacyc
    by_contra hlen
    have hleft : (known.filter fun x => x ∉ s.order).Nonempty := by
      obtain ⟨x, hknown, hout⟩ := h.exists_left hlen
      exact ⟨x, mem_filter.mpr ⟨hknown, hout⟩⟩
    obtain ⟨x, -, hcycle⟩ := exists_cycle (R := Edge known adjacency) hleft (by
      intro x hx
      obtain ⟨hknown, hout⟩ := mem_filter.mp hx
      obtain ⟨p, hp, hpout, hedge⟩ := h.exists_producer_left hknown hout
      exact ⟨p, mem_filter.mpr ⟨hp, hpout⟩, hedge⟩)
    exact hacyc x (TransGen.mono (fun _ _ hedge => hedge.2.2) _ _ hcycle)

end

end CollideOScope.Kahn
