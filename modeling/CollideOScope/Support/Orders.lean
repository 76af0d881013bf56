import Mathlib.Data.Finset.Card
import Mathlib.Data.Prod.Lex
import Mathlib.Order.WellFounded

/-!
# Orders of a finite set

A list orders a finite set by a relation when it lists each element once and
puts what the relation relates in that order.  A set can be ordered block by
block: an order of the blocks and an order of the elements give an order that
keeps each block together.
-/

namespace CollideOScope

open Nat Relation List

variable {α : Type*}

theorem filter_eq_singleton {order : List α} {x : α} {keep : α → Bool}
    (hnd : order.Nodup) (hx : x ∈ order) (hkeep : ∀ y ∈ order, keep y ↔ y = x) :
    order.filter keep = [x] := by
  obtain ⟨first, rest, rfl, hout⟩ := eq_append_cons_of_mem hx
  obtain ⟨-, hrest, hdisj⟩ := nodup_append.mp hnd
  have hfst : first.filter keep = [] := by
    refine filter_eq_nil_iff.mpr ?_
    intro y hy hkept
    have hyx := (hkeep y (mem_append_left _ hy)).mp hkept
    exact hout (hyx ▸ hy)
  have hlast : rest.filter keep = [] := by
    refine filter_eq_nil_iff.mpr ?_
    intro y hy hkept
    have hyx := (hkeep y (mem_append_right _ (mem_cons_of_mem x hy))).mp hkept
    exact (nodup_cons.mp hrest).1 (hyx ▸ hy)
  rw [filter_append, filter_cons_of_pos ((hkeep x hx).mpr rfl), hfst, hlast]
  rfl

theorem filterMap_perm {β : Type*} {order : List α} {f : α → Option β} {g : β → α} {names : List β}
    (hf : ∀ x y, f x = some y → g y = x) (hord : order.Nodup) (hnames : names.Nodup)
    (hmem : ∀ y, y ∈ names ↔ g y ∈ order ∧ f (g y) = some y) :
    (order.filterMap f).Perm names := by
  refine (perm_ext_iff_of_nodup ?_ hnames).mpr ?_
  · refine hord.filterMap ?_
    intro x x' y hx hx'
    rw [← hf x y hx, hf x' y hx']
  · intro y
    rw [mem_filterMap, hmem]
    constructor
    · rintro ⟨x, hx, hy⟩
      rw [hf x y hy]
      exact ⟨hx, hy⟩
    · rintro ⟨hx, hy⟩
      exact ⟨g y, hx, hy⟩

theorem pairwise_congr {R S T : α → α → Prop} {items : List α} (hT : items.Pairwise T)
    (h : ∀ a ∈ items, ∀ b ∈ items, T a b → (R a b ↔ S a b)) :
    items.Pairwise R ↔ items.Pairwise S := by
  constructor
  · intro hR
    exact (hT.and hR).imp_of_mem fun ha hb hab => (h _ ha _ hb hab.1).mp hab.2
  · intro hS
    exact (hT.and hS).imp_of_mem fun ha hb hab => (h _ ha _ hb hab.1).mpr hab.2

variable [DecidableEq α]

section

variable {first rest order : List α} {p x : α}

theorem idxOf_append_lt (hp : p ∈ first) (hx : x ∉ first) :
    (first ++ rest).idxOf p < (first ++ rest).idxOf x := by
  rw [idxOf_append_of_mem hp, idxOf_append_of_notMem hx]
  exact lt_of_lt_of_le (idxOf_lt_length_of_mem hp) (le_add_right _ _)

theorem mem_of_idxOf_lt (hout : x ∉ first)
    (hlt : (first ++ x :: rest).idxOf p < (first ++ x :: rest).idxOf x) :
    p ∈ first := by
  by_contra hp
  rw [idxOf_append_of_notMem hp, idxOf_append_of_notMem hout, idxOf_cons_self] at hlt
  omega

theorem exists_split_of_idxOf_lt (hx : x ∈ order) (hlt : order.idxOf p < order.idxOf x) :
    ∃ first rest, order = first ++ x :: rest ∧ p ∈ first ∧ x ∉ first := by
  obtain ⟨first, rest, hsplit, hout⟩ := eq_append_cons_of_mem hx
  subst hsplit
  exact ⟨first, rest, rfl, mem_of_idxOf_lt hout hlt, hout⟩

variable {keep : α → Bool}

theorem idxOf_filter_lt (hx : x ∈ order) (hp : keep p) (hlt : order.idxOf p < order.idxOf x) :
    (order.filter keep).idxOf p < (order.filter keep).idxOf x := by
  obtain ⟨first, rest, rfl, hin, hout⟩ := exists_split_of_idxOf_lt hx hlt
  rw [filter_append]
  refine idxOf_append_lt (mem_filter.mpr ⟨hin, hp⟩) ?_
  intro hmem
  exact hout (mem_of_mem_filter hmem)

theorem idxOf_filter_lt_iff (hp : p ∈ order) (hx : x ∈ order) (hkeep : keep p) (hkeep' : keep x) :
    (order.filter keep).idxOf p < (order.filter keep).idxOf x ↔ order.idxOf p < order.idxOf x := by
  constructor
  · intro hlt
    by_contra hnot
    rcases lt_or_eq_of_le (not_lt.mp hnot) with hgt | heq
    · exact lt_asymm hlt (idxOf_filter_lt hp hkeep' hgt)
    · rw [(idxOf_inj hx).mp heq] at hlt
      exact lt_irrefl _ hlt
  · exact idxOf_filter_lt hx hkeep

variable {β : Type*}

theorem idxOf_map_of_injective [DecidableEq β] {f : β → α}
    (hf : Function.Injective f) (items : List β) (item : β) :
    (items.map f).idxOf (f item) = items.idxOf item := by
  induction items with
  | nil => rfl
  | cons head rest ih =>
    by_cases hhead : head = item
    · subst hhead
      rw [map_cons, idxOf_cons_self, idxOf_cons_self]
    · rw [map_cons, idxOf_cons_ne _ hhead, idxOf_cons_ne _ (fun heq => hhead (hf heq)), ih]

theorem idxOf_filterMap_lt_iff [DecidableEq β] {f : α → Option β} {g : β → α}
    (hg : Function.Injective g) (hf : ∀ x y, f x = some y → g y = x) {a b : β} (ha : g a ∈ order)
    (hb : g b ∈ order) (hfa : f (g a) = some a) (hfb : f (g b) = some b) :
    (order.filterMap f).idxOf a < (order.filterMap f).idxOf b ↔
      order.idxOf (g a) < order.idxOf (g b) := by
  have hmap : ∀ items : List α, (items.filterMap f).map g = items.filter fun x => (f x).isSome := by
    intro items
    induction items with
    | nil => rfl
    | cons x rest ih =>
      cases hx : f x with
      | none => rw [filterMap_cons_none hx, ih, filter_cons_of_neg (by simp [hx])]
      | some y =>
        rw [filterMap_cons_some hx, map_cons, ih, hf x y hx, filter_cons_of_pos (by simp [hx])]
  rw [← idxOf_map_of_injective hg, ← idxOf_map_of_injective hg, hmap]
  exact idxOf_filter_lt_iff ha hb (by rw [hfa]; rfl) (by rw [hfb]; rfl)

theorem exists_concat_of_idxOf_lt (hnd : order.Nodup) (hx : x ∈ order)
    (hlast : ∀ y ∈ order, y ≠ x → order.idxOf y < order.idxOf x) :
    ∃ front, order = front ++ [x] ∧ x ∉ front := by
  obtain ⟨front, rest, rfl, hout⟩ := eq_append_cons_of_mem hx
  obtain ⟨-, hrest, hdisj⟩ := nodup_append.mp hnd
  have hnil : rest = [] := by
    refine eq_nil_iff_forall_not_mem.mpr ?_
    intro y hy
    have hne : y ≠ x := by
      rintro rfl
      exact (nodup_cons.mp hrest).1 hy
    have hlt := hlast y (mem_append_right _ (mem_cons_of_mem x hy)) hne
    have hgt : (front ++ x :: rest).idxOf x < (front ++ x :: rest).idxOf y := by
      rw [append_cons]
      refine idxOf_append_lt (mem_append_right _ (mem_singleton_self _)) ?_
      intro hfront
      rcases mem_append.mp hfront with hfront | hfront
      · exact hdisj y hfront y (mem_cons_of_mem x hy) rfl
      · exact hne (mem_singleton.mp hfront)
    exact lt_asymm hlt hgt
  exact ⟨front, by rw [hnil], hout⟩

end

def byBlocks (block : α → α) (order blocks : List α) : List α :=
  blocks.flatMap fun b => order.filter fun x => block x = b

theorem mem_byBlocks {block : α → α} {order blocks : List α} {x : α} :
    x ∈ byBlocks block order blocks ↔ x ∈ order ∧ block x ∈ blocks := by
  simp only [byBlocks, mem_flatMap, mem_filter, decide_eq_true_eq]
  constructor
  · rintro ⟨b, hb, hx, rfl⟩
    exact ⟨hx, hb⟩
  · rintro ⟨hx, hb⟩
    exact ⟨block x, hb, hx, rfl⟩

theorem exists_split_byBlocks (block : α → α) (order : List α)
    {blocks : List α} {b : α} (hb : b ∈ blocks) :
    ∃ front rest, byBlocks block order blocks =
      front ++ ((order.filter fun x => block x = b) ++ rest) := by
  obtain ⟨first, rest, rfl⟩ := append_of_mem hb
  refine ⟨byBlocks block order first, byBlocks block order rest, ?_⟩
  simp [byBlocks]

section

variable {block : α → α} {order blocks : List α} {p x : α}

theorem idxOf_byBlocks_lt (hp : p ∈ order) (hx : block x ∈ blocks)
    (hlt : blocks.idxOf (block p) < blocks.idxOf (block x)) :
    (byBlocks block order blocks).idxOf p < (byBlocks block order blocks).idxOf x := by
  obtain ⟨first, rest, rfl, hin, hout⟩ := exists_split_of_idxOf_lt hx hlt
  have hsplit : byBlocks block order (first ++ block x :: rest) =
      byBlocks block order first ++ byBlocks block order (block x :: rest) := by
    simp [byBlocks]
  rw [hsplit]
  refine idxOf_append_lt (mem_byBlocks.mpr ⟨hp, hin⟩) ?_
  intro hmem
  exact hout (mem_byBlocks.mp hmem).2

theorem idxOf_byBlocks_lt_of_eq (hp : p ∈ order) (hx : x ∈ order) (hblock : block x ∈ blocks)
    (hsame : block p = block x) (hlt : order.idxOf p < order.idxOf x) :
    (byBlocks block order blocks).idxOf p < (byBlocks block order blocks).idxOf x := by
  obtain ⟨first, rest, rfl, hout⟩ := eq_append_cons_of_mem hblock
  have hfront : ∀ {y}, block y = block x → y ∉ byBlocks block order first := by
    intro y hy hmem
    exact hout (hy ▸ (mem_byBlocks.mp hmem).2)
  have hsplit : byBlocks block order (first ++ block x :: rest) =
      byBlocks block order first ++
        ((order.filter fun y => block y = block x) ++ byBlocks block order rest) := by
    simp [byBlocks]
  have hmem : ∀ {y}, y ∈ order → block y = block x →
      y ∈ order.filter fun y => block y = block x := by
    intro y hy hy'
    simp [hy, hy']
  rw [hsplit, idxOf_append_of_notMem (hfront hsame), idxOf_append_of_notMem (hfront rfl),
    idxOf_append_of_mem (hmem hp hsame), idxOf_append_of_mem (hmem hx rfl)]
  refine Nat.add_lt_add_left ?_ _
  exact idxOf_filter_lt hx (by simp [hsame]) hlt

theorem idxOf_byBlocks_lt_iff (hp : p ∈ order) (hx : x ∈ order) (hblock : block p ∈ blocks)
    (hblock' : block x ∈ blocks) (hne : block p ≠ block x) :
    (byBlocks block order blocks).idxOf p < (byBlocks block order blocks).idxOf x ↔
      blocks.idxOf (block p) < blocks.idxOf (block x) := by
  constructor
  · intro hlt
    by_contra hnot
    refine lt_asymm hlt (idxOf_byBlocks_lt hx hblock (lt_of_le_of_ne (not_lt.mp hnot) ?_))
    intro heq
    exact hne ((idxOf_inj hblock').mp heq).symm
  · exact idxOf_byBlocks_lt hp hblock'

theorem idxOf_byBlocks_lt_iff_of_eq (hp : p ∈ order) (hx : x ∈ order)
    (hblock : block x ∈ blocks) (hsame : block p = block x) (hne : p ≠ x) :
    (byBlocks block order blocks).idxOf p < (byBlocks block order blocks).idxOf x ↔
      order.idxOf p < order.idxOf x := by
  constructor
  · intro hlt
    by_contra hnot
    refine lt_asymm hlt (idxOf_byBlocks_lt_of_eq hx hp (hsame ▸ hblock)
      hsame.symm (lt_of_le_of_ne (not_lt.mp hnot) ?_))
    intro heq
    exact hne ((idxOf_inj hx).mp heq).symm
  · exact idxOf_byBlocks_lt_of_eq hp hx hblock hsame

end

/-- `order` lists `known` once, each element behind what it depends on. -/
structure OrdersBy (known : Finset α) (R : α → α → Prop) (order : List α) : Prop where
  nodup : order.Nodup
  mem_iff : ∀ x, x ∈ order ↔ x ∈ known
  before : ∀ p x, R p x → order.idxOf p < order.idxOf x

namespace OrdersBy

variable {known : Finset α} {R : α → α → Prop} {order : List α}

section

variable (h : OrdersBy known R order)
include h

theorem length_eq : order.length = known.card := by
  rw [← toFinset_card_of_nodup h.nodup]
  congr 1
  ext x
  rw [mem_toFinset, h.mem_iff]

theorem mem_of_rel {p x : α} (hedge : R p x) : p ∈ known := by
  rw [← h.mem_iff]
  apply idxOf_lt_length_iff.mp
  exact lt_of_lt_of_le (h.before p x hedge) idxOf_le_length

theorem idxOf_lt_of_transGen {p x : α} (hpath : TransGen R p x) :
    order.idxOf p < order.idxOf x := by
  induction hpath with
  | single hedge => exact h.before _ _ hedge
  | tail _ hedge ih => exact ih.trans (h.before _ _ hedge)

theorem acyclic (x : α) : ¬TransGen R x x := by
  intro hcycle
  exact absurd (h.idxOf_lt_of_transGen hcycle) (lt_irrefl _)

end

variable {block : α → α} {S : α → α → Prop} {blocks : List α}

theorem byBlocks_ordersBy (h : OrdersBy known R order)
    (hblocks : OrdersBy (known.image block) S blocks)
    (hrespects : ∀ p x, R p x → block p ≠ block x → S (block p) (block x))
    (hknown : ∀ p x, R p x → p ∈ known ∧ x ∈ known) :
    OrdersBy known R (byBlocks block order blocks) where
  nodup := by
    refine nodup_flatMap.mpr ⟨?_, ?_⟩
    · intro b _
      exact h.nodup.filter _
    · refine hblocks.nodup.imp ?_
      intro b c hne x hx hx'
      have hb : block x = b := by simpa using (mem_filter.mp hx).2
      have hc : block x = c := by simpa using (mem_filter.mp hx').2
      exact hne (hb.symm.trans hc)
  mem_iff := by
    intro x
    rw [mem_byBlocks, h.mem_iff, hblocks.mem_iff]
    constructor
    · exact And.left
    · intro hx
      exact ⟨hx, Finset.mem_image_of_mem _ hx⟩
  before := by
    intro p x hedge
    obtain ⟨hp, hx⟩ := hknown p x hedge
    have hblock : block x ∈ blocks := (hblocks.mem_iff _).mpr (Finset.mem_image_of_mem _ hx)
    rw [← h.mem_iff] at hp hx
    by_cases hsame : block p = block x
    · exact idxOf_byBlocks_lt_of_eq hp hx hblock hsame (h.before p x hedge)
    · exact idxOf_byBlocks_lt hp hblock (hblocks.before _ _ (hrespects p x hedge hsame))

end OrdersBy

section

variable {α κ : Type*} [LinearOrder α] [LinearOrder κ] {known : Finset α}
  {R : α → α → Prop} {key : α → κ} {order : List α}

/-- Every element of the order is the least, by its key and then by itself, of
those that could stand at its place. -/
def Greedy (known : Finset α) (R : α → α → Prop) (key : α → κ) (order : List α) : Prop :=
  ∀ first x rest, order = first ++ x :: rest → ∀ y ∈ known, y ∉ first →
    (∀ p, R p y → p ∈ first) → toLex (key x, x) ≤ toLex (key y, y)

theorem Greedy.pairwise {κ : Type*} [LinearOrder κ] {key : α → κ} {order : List α}
    (hgreedy : Greedy known R key order) (h : OrdersBy known R order)
    (hmono : ∀ p x, R p x → toLex (key p, p) < toLex (key x, x)) :
    order.Pairwise fun x y => toLex (key x, x) < toLex (key y, y) := by
  have hleast : ∀ (position : ℕ) first x rest, order = first ++ x :: rest →
      ∀ y ∈ known, y ∉ first → order.idxOf y = position → toLex (key x, x) ≤ toLex (key y, y) := by
    intro position
    induction position using Nat.strong_induction_on with
    | h position ih =>
      intro first x rest hsplit y hy hout hpos
      by_cases hready : ∀ p, R p y → p ∈ first
      · exact hgreedy first x rest hsplit y hy hout hready
      · push Not at hready
        obtain ⟨p, hedge, hp⟩ := hready
        have hlt := h.before p y hedge
        rw [hpos] at hlt
        exact (ih _ hlt first x rest hsplit p (h.mem_of_rel hedge) hp rfl).trans
          (hmono p y hedge).le
  have hsplits : ∀ first rest, order = first ++ rest →
      rest.Pairwise fun x y => toLex (key x, x) < toLex (key y, y) := by
    intro first rest
    induction rest generalizing first with
    | nil =>
      intro _
      exact List.Pairwise.nil
    | cons x rest ih =>
      intro hsplit
      refine pairwise_cons.mpr ⟨?_, ih (first ++ [x]) (by simp [hsplit])⟩
      intro y hy
      have hnd := h.nodup
      rw [hsplit] at hnd
      obtain ⟨-, hrest, hdisj⟩ := nodup_append.mp hnd
      have hxy : x ≠ y := by
        rintro rfl
        exact (nodup_cons.mp hrest).1 hy
      have hout : y ∉ first := by
        intro hin
        exact hdisj y hin y (mem_cons_of_mem x hy) rfl
      have hmem : y ∈ known := by
        rw [← h.mem_iff, hsplit]
        exact mem_append_right _ (mem_cons_of_mem x hy)
      refine lt_of_le_of_ne (hleast _ first x rest hsplit y hmem hout rfl) ?_
      intro heq
      exact hxy (Prod.mk.inj (toLex_inj.mp heq)).2
  exact hsplits [] order rfl

/-- `z` overtakes `w` when `w` depends on it, or waits for something that ranks
behind `z` while all that `z` depends on is in front of that. -/
inductive Overtakes (R : α → α → Prop) (key : α → κ) : α → α → Prop
  | ancestor {z w} (h : TransGen R z w) : Overtakes R key z w
  | ahead {z w w'} (hpath : ReflTransGen R w' w)
      (hkey : toLex (key z, z) < toLex (key w', w'))
      (hproducers : ∀ p, R p z → Overtakes R key p w') : Overtakes R key z w

theorem OrdersBy.idxOf_le_of_reflTransGen (h : OrdersBy known R order)
    {p x : α} (hpath : ReflTransGen R p x) : order.idxOf p ≤ order.idxOf x := by
  induction hpath with
  | refl => exact le_rfl
  | tail _ hedge ih => exact ih.trans (h.before _ _ hedge).le

theorem Greedy.le_of_not_lt (hgreedy : Greedy known R key order) {x y : α}
    (hx : x ∈ order) (hy : y ∈ known) (hnot : ¬order.idxOf y < order.idxOf x)
    (hprods : ∀ p, R p y → order.idxOf p < order.idxOf x) :
    toLex (key x, x) ≤ toLex (key y, y) := by
  obtain ⟨first, rest, rfl, hout⟩ := eq_append_cons_of_mem hx
  refine hgreedy first x rest rfl y hy ?_ ?_
  · intro hin
    exact hnot (idxOf_append_lt hin hout)
  · intro p hp
    exact mem_of_idxOf_lt hout (hprods p hp)

variable {z : α} {w : α}

variable (hgreedy : Greedy known R key order) (h : OrdersBy known R order)
include hgreedy h

theorem Greedy.idxOf_lt_of_overtakes (hovertakes : Overtakes R key z w)
    (hz : z ∈ known) (hw : w ∈ known) : order.idxOf z < order.idxOf w := by
  induction hovertakes with
  | ancestor hpath => exact h.idxOf_lt_of_transGen hpath
  | @ahead z w w' hpath hkey _ ih =>
    have hle := h.idxOf_le_of_reflTransGen hpath
    have hw' : w' ∈ order := by
      apply idxOf_lt_length_iff.mp
      exact hle.trans_lt (idxOf_lt_length_of_mem ((h.mem_iff w).mpr hw))
    refine lt_of_lt_of_le ?_ hle
    by_contra hnot
    exact absurd hkey (not_lt.mpr (hgreedy.le_of_not_lt hw' hz hnot
      fun p hp => ih p hp (h.mem_of_rel hp) ((h.mem_iff w').mp hw')))

theorem Greedy.overtakes_of_idxOf_lt (hz : z ∈ known) (hw : w ∈ known)
    (hlt : order.idxOf z < order.idxOf w) : Overtakes R key z w := by
  generalize hpos : order.idxOf z = position
  induction position using Nat.strong_induction_on generalizing z w with
  | h position ih =>
    subst hpos
    by_cases hpath : TransGen R z w
    · exact .ancestor hpath
    obtain ⟨w', ⟨hw', hlt'⟩, hleast⟩ := (measure order.idxOf).wf.has_min
      {p | ReflTransGen R p w ∧ order.idxOf z < order.idxOf p}
      ⟨w, .refl, hlt⟩
    have hz' : z ∈ order := (h.mem_iff z).mpr hz
    have hknown : w' ∈ known := by
      rw [← h.mem_iff]
      apply idxOf_lt_length_iff.mp
      exact (h.idxOf_le_of_reflTransGen hw').trans_lt
        (idxOf_lt_length_of_mem ((h.mem_iff w).mpr hw))
    refine .ahead hw' (lt_of_le_of_ne ?_ ?_) ?_
    · refine hgreedy.le_of_not_lt hz' hknown (lt_asymm hlt') ?_
      intro p hp
      by_contra hnot
      rcases lt_or_eq_of_le (not_lt.mp hnot) with hgt | heq
      · exact hleast p ⟨hw'.head hp, hgt⟩ (h.before p w' hp)
      · obtain rfl := (idxOf_inj hz').mp heq
        exact hpath (TransGen.head' hp hw')
    · intro heq
      have hsame : z = w' := (Prod.mk.inj (toLex_inj.mp heq)).2
      rw [hsame] at hlt'
      exact lt_irrefl _ hlt'
    · intro p hp
      have hpre := h.before p z hp
      exact ih _ hpre (h.mem_of_rel hp) hknown (hpre.trans hlt') rfl

theorem Greedy.idxOf_lt_iff {x : α} (hx : x ∈ known) (hz : z ∈ known)
    (hne : x ≠ z) : order.idxOf x < order.idxOf z ↔ ¬Overtakes R key z x := by
  constructor
  · intro hlt hovertakes
    exact lt_asymm hlt (hgreedy.idxOf_lt_of_overtakes h hovertakes hz hx)
  · intro hnot
    by_contra hle
    refine hnot (hgreedy.overtakes_of_idxOf_lt h hz hx (lt_of_le_of_ne (not_lt.mp hle) ?_))
    intro heq
    exact hne ((idxOf_inj ((h.mem_iff z).mpr hz)).mp heq).symm

end

end CollideOScope
