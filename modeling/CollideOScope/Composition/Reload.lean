import CollideOScope.Composition.Edits

/-!
# Saving and loading edited racks and compositions

An edited rack is rebuilt from its own nodes and its own cursor.  Everything the
loader checks is kept by every edit, except one: the loader accepts an exhausted
cursor only when the last identity still stands in the value, and an edit or an
observation can exhaust the cursor without leaving it there.
-/

namespace CollideOScope.Composition

open Function Nat List Checks

namespace RackResourceBudget

structure Within (a b : RackResourceBudget) : Prop where
  passes : a.fullFramePasses ≤ b.fullFramePasses
  lookups : a.logicalTextureLookupsPerPixel ≤ b.logicalTextureLookupsPerPixel
  samples : a.textureSamplesPerPixel ≤ b.textureSamplesPerPixel
  textures : a.maxSampledTexturesInPass ≤ b.maxSampledTexturesInPass
  dedicatedTextures : a.maxSampledTexturesInDedicatedPass ≤ b.maxSampledTexturesInDedicatedPass
  ordinaryLookups : a.ordinaryLogicalTextureLookupsPerPixel ≤
    b.ordinaryLogicalTextureLookupsPerPixel
  ordinarySamples : a.ordinaryTextureSamplesPerPixel ≤ b.ordinaryTextureSamplesPerPixel
  dedicatedLookups : a.maxLogicalLookupsInDedicatedPass ≤ b.maxLogicalLookupsInDedicatedPass
  taps : a.crossInputTaps ≤ b.crossInputTaps
  reducedPasses : a.reducedResolutionPasses ≤ b.reducedResolutionPasses
  reducedSurfaces : a.reducedResolutionSurfaces ≤ b.reducedResolutionSurfaces

theorem Within.refl (a : RackResourceBudget) : Within a a :=
  ⟨le_rfl, le_rfl, le_rfl, le_rfl, le_rfl, le_rfl, le_rfl, le_rfl, le_rfl, le_rfl, le_rfl⟩

theorem add_ok {total charge n : ℕ} :
    add total charge = .ok n ↔ total + charge < 2 ^ 32 ∧ total + charge = n := by
  rw [add, require_ok, checkedAddU32, checkedWord_eq_some]

/-- The sums that a node adds to fit their words. -/
structure Room (a : RackResourceBudget) (tag : NodeKindTag) : Prop where
  passes : a.fullFramePasses + tag.budget.fullFramePasses < 2 ^ 32
  lookups : a.logicalTextureLookupsPerPixel + tag.budget.logicalTextureLookupsPerPixel < 2 ^ 32
  samples : a.textureSamplesPerPixel + tag.budget.textureSamplesPerPixel < 2 ^ 32
  ordinaryLookups : tag.occupiesDedicatedPass = false →
    a.ordinaryLogicalTextureLookupsPerPixel + tag.budget.logicalTextureLookupsPerPixel < 2 ^ 32
  ordinarySamples : tag.occupiesDedicatedPass = false →
    a.ordinaryTextureSamplesPerPixel + tag.budget.textureSamplesPerPixel < 2 ^ 32
  taps : a.crossInputTaps + tag.budget.crossInputTaps < 2 ^ 32
  reducedPasses : a.reducedResolutionPasses + tag.budget.reducedResolutionPasses < 2 ^ 32
  reducedSurfaces : a.reducedResolutionSurfaces + tag.budget.reducedResolutionSurfaces < 2 ^ 32

def charged (a : RackResourceBudget) (tag : NodeKindTag) : RackResourceBudget :=
  let dedicated := tag.occupiesDedicatedPass
  { fullFramePasses := a.fullFramePasses + tag.budget.fullFramePasses
    logicalTextureLookupsPerPixel := a.logicalTextureLookupsPerPixel +
      tag.budget.logicalTextureLookupsPerPixel
    textureSamplesPerPixel := a.textureSamplesPerPixel + tag.budget.textureSamplesPerPixel
    maxSampledTexturesInPass := max a.maxSampledTexturesInPass
      (bif dedicated then 0 else tag.budget.sampledTexturesInPass)
    maxSampledTexturesInDedicatedPass := max a.maxSampledTexturesInDedicatedPass
      (bif dedicated then tag.budget.sampledTexturesInPass else 0)
    ordinaryLogicalTextureLookupsPerPixel :=
      a.ordinaryLogicalTextureLookupsPerPixel +
        (bif dedicated then 0 else tag.budget.logicalTextureLookupsPerPixel)
    ordinaryTextureSamplesPerPixel := a.ordinaryTextureSamplesPerPixel +
      (bif dedicated then 0 else tag.budget.textureSamplesPerPixel)
    maxLogicalLookupsInDedicatedPass := max a.maxLogicalLookupsInDedicatedPass
      (bif dedicated then tag.budget.logicalTextureLookupsPerPixel else 0)
    crossInputTaps := a.crossInputTaps + tag.budget.crossInputTaps
    reducedResolutionPasses := a.reducedResolutionPasses + tag.budget.reducedResolutionPasses
    reducedResolutionSurfaces := a.reducedResolutionSurfaces +
      tag.budget.reducedResolutionSurfaces }

variable {a : RackResourceBudget}

theorem chargeNode_ok {a' : RackResourceBudget} {node : BudgetNode} :
    chargeNode a node = .ok a' ↔ Room a node.tag ∧ charged a node.tag = a' := by
  cases hdedicated : node.tag.occupiesDedicatedPass with
  | false =>
    simp only [chargeNode, chargeLookups, chargeSampledTextures, hdedicated, bind_ok, pure_ok,
      add_ok, Bool.false_eq_true, if_false, charged, cond_false, max_zero]
    constructor
    · rintro ⟨_, ⟨h₁, rfl⟩, _, ⟨h₂, rfl⟩, _, ⟨h₃, rfl⟩, _, ⟨_, ⟨h₄, rfl⟩, _, ⟨h₅, rfl⟩, rfl⟩, _,
        ⟨h₆, rfl⟩, _, ⟨h₇, rfl⟩, _, ⟨h₈, rfl⟩, rfl⟩
      exact ⟨⟨h₁, h₂, h₃, fun _ => h₄, fun _ => h₅, h₆, h₇, h₈⟩, rfl⟩
    · rintro ⟨⟨h₁, h₂, h₃, h₄, h₅, h₆, h₇, h₈⟩, rfl⟩
      exact ⟨_, ⟨h₁, rfl⟩, _, ⟨h₂, rfl⟩, _, ⟨h₃, rfl⟩, _, ⟨_, ⟨h₄ hdedicated, rfl⟩, _,
        ⟨h₅ hdedicated, rfl⟩, rfl⟩, _, ⟨h₆, rfl⟩, _, ⟨h₇, rfl⟩, _, ⟨h₈, rfl⟩, rfl⟩
  | true =>
    simp only [chargeNode, chargeLookups, chargeSampledTextures, hdedicated, bind_ok, pure_ok,
      add_ok, if_true, charged, cond_true, max_zero, add_zero]
    constructor
    · rintro ⟨_, ⟨h₁, rfl⟩, _, ⟨h₂, rfl⟩, _, ⟨h₃, rfl⟩, _, rfl, _, ⟨h₆, rfl⟩,
        _, ⟨h₇, rfl⟩, _, ⟨h₈, rfl⟩, rfl⟩
      refine ⟨⟨h₁, h₂, h₃, fun h => ?_, fun h => ?_, h₆, h₇, h₈⟩, rfl⟩
      · rw [hdedicated] at h
        cases h
      · rw [hdedicated] at h
        cases h
    · rintro ⟨⟨h₁, h₂, h₃, -, -, h₆, h₇, h₈⟩, rfl⟩
      exact ⟨_, ⟨h₁, rfl⟩, _, ⟨h₂, rfl⟩, _, ⟨h₃, rfl⟩, _, rfl, _, ⟨h₆, rfl⟩,
        _, ⟨h₇, rfl⟩, _, ⟨h₈, rfl⟩, rfl⟩

variable {b : RackResourceBudget}

theorem Room.of_within {tag : NodeKindTag} (hb : Room b tag) (h : Within a b) : Room a tag where
  passes := (Nat.add_le_add_right h.passes _).trans_lt hb.passes
  lookups := (Nat.add_le_add_right h.lookups _).trans_lt hb.lookups
  samples := (Nat.add_le_add_right h.samples _).trans_lt hb.samples
  ordinaryLookups ordinary :=
    (Nat.add_le_add_right h.ordinaryLookups _).trans_lt (hb.ordinaryLookups ordinary)
  ordinarySamples ordinary :=
    (Nat.add_le_add_right h.ordinarySamples _).trans_lt (hb.ordinarySamples ordinary)
  taps := (Nat.add_le_add_right h.taps _).trans_lt hb.taps
  reducedPasses := (Nat.add_le_add_right h.reducedPasses _).trans_lt hb.reducedPasses
  reducedSurfaces := (Nat.add_le_add_right h.reducedSurfaces _).trans_lt hb.reducedSurfaces

theorem Within.charged (h : Within a b) (tag : NodeKindTag) :
    Within (a.charged tag) (b.charged tag) :=
  ⟨Nat.add_le_add_right h.passes _, Nat.add_le_add_right h.lookups _,
    Nat.add_le_add_right h.samples _, max_le_max_right _ h.textures,
    max_le_max_right _ h.dedicatedTextures, Nat.add_le_add_right h.ordinaryLookups _,
    Nat.add_le_add_right h.ordinarySamples _, max_le_max_right _ h.dedicatedLookups,
    Nat.add_le_add_right h.taps _, Nat.add_le_add_right h.reducedPasses _,
    Nat.add_le_add_right h.reducedSurfaces _⟩

theorem Within.trans_charged (h : Within a b) (tag : NodeKindTag) : Within a (b.charged tag) :=
  ⟨Nat.le_add_right_of_le h.passes, Nat.le_add_right_of_le h.lookups,
    Nat.le_add_right_of_le h.samples, le_max_of_le_left h.textures,
    le_max_of_le_left h.dedicatedTextures, Nat.le_add_right_of_le h.ordinaryLookups,
    Nat.le_add_right_of_le h.ordinarySamples, le_max_of_le_left h.dedicatedLookups,
    Nat.le_add_right_of_le h.taps, Nat.le_add_right_of_le h.reducedPasses,
    Nat.le_add_right_of_le h.reducedSurfaces⟩

theorem Within.foldlM {xs ys : List BudgetNode} (hsub : xs.Sublist ys) {b' : RackResourceBudget}
    (h : Within a b) (hb : ys.foldlM chargeNode b = .ok b') :
    ∃ a', xs.foldlM chargeNode a = .ok a' ∧ Within a' b' := by
  induction hsub generalizing a b with
  | slnil =>
    obtain rfl := pure_ok.mp hb
    exact ⟨a, rfl, h⟩
  | cons node hsub ih =>
    rw [foldlM_cons, bind_ok] at hb
    obtain ⟨next, hnext, hrest⟩ := hb
    obtain ⟨-, rfl⟩ := chargeNode_ok.mp hnext
    exact ih (h.trans_charged _) hrest
  | cons_cons node hsub ih =>
    rw [foldlM_cons, bind_ok] at hb
    obtain ⟨next, hnext, hrest⟩ := hb
    obtain ⟨hroom, rfl⟩ := chargeNode_ok.mp hnext
    obtain ⟨a', ha', hwith⟩ := ih (h.charged _) hrest
    refine ⟨a', ?_, hwith⟩
    rw [foldlM_cons, bind_ok]
    exact ⟨_, chargeNode_ok.mpr ⟨hroom.of_within h, rfl⟩, ha'⟩

theorem Within.check (h : Within a b) {u : Unit} (hb : b.check = .ok u) : a.check = .ok u := by
  simp only [RackResourceBudget.check, bind_ok, refuse_ok, exists_unit, not_lt] at hb ⊢
  obtain ⟨h₁, h₂, h₃, h₄, h₅⟩ := hb
  exact ⟨h.ordinaryLookups.trans h₁, h.ordinarySamples.trans h₂, h.dedicatedLookups.trans h₃,
    h.textures.trans h₄, h.dedicatedTextures.trans h₅⟩

end RackResourceBudget

theorem exists_resourceBudget_of_sublist {xs ys : List BudgetNode}
    (hsub : xs.Sublist ys) (h : ∃ budget, resourceBudget ys = .ok budget) :
    ∃ budget, resourceBudget xs = .ok budget := by
  obtain ⟨budget, h⟩ := h
  simp only [resourceBudget, bind_ok, pure_ok, exists_unit] at h ⊢
  obtain ⟨_, hfold, hcheck, rfl⟩ := h
  obtain ⟨result, hres, hwith⟩ := RackResourceBudget.Within.foldlM
    (hsub.filter _) (RackResourceBudget.Within.refl _) hfold
  exact ⟨result, result, hres, hwith.check hcheck, rfl⟩

theorem foldl_max_le_iff {α : Type} {f : α → ℕ} {xs : List α} {a n : ℕ} :
    xs.foldl (fun greatest x => max greatest (f x)) a ≤ n ↔ a ≤ n ∧ ∀ x ∈ xs, f x ≤ n := by
  induction xs generalizing a with
  | nil => simp
  | cons x xs ih => rw [foldl_cons, ih, max_le_iff, forall_mem_cons, and_assoc]

theorem nextCursor_le (value : ℕ) : nextCursor value ≤ u64Max := by
  unfold nextCursor
  split
  · assumption
  · exact zero_le _

variable {value : ℕ}

theorem lt_nextCursor (h : nextCursor value ≠ 0) : value < nextCursor value := by
  unfold nextCursor at h ⊢
  split at h
  · rename_i hle
    rw [if_pos hle]
    exact lt_succ_self value
  · exact absurd rfl h

/-- A cursor is past every identity, unless it is exhausted. -/
def CursorBeyond (next greatest : ℕ) : Prop := next ≤ u64Max ∧ (next ≠ 0 → greatest < next)

variable {greatest next : ℕ}

theorem CursorBeyond.mono {greatest' : ℕ} (h : CursorBeyond next greatest)
    (hle : greatest' ≤ greatest) : CursorBeyond next greatest' :=
  ⟨h.1, fun hnext => hle.trans_lt (h.2 hnext)⟩

theorem CursorBeyond.observe (h : CursorBeyond next greatest)
    (hle : next ≤ value) (hnext : next ≠ 0) :
    CursorBeyond (nextCursor value) greatest :=
  ⟨nextCursor_le value, fun hfresh => (h.2 hnext).trans_le (hle.trans (lt_nextCursor hfresh).le)⟩

theorem CursorBeyond.past_iff (h : CursorBeyond next greatest) :
    VisualRack.CursorPast next greatest ↔ next ≠ 0 ∨ greatest = u64Max := by
  constructor
  · rintro (⟨hnext, -⟩ | ⟨-, hlast⟩)
    · exact .inl hnext
    · exact .inr hlast
  · intro hcase
    by_cases hnext : next = 0
    · exact .inr ⟨hnext, hcase.resolve_left (not_not.mpr hnext)⟩
    · exact .inl ⟨hnext, h.2 hnext⟩

theorem cursorBeyond_of_past (hnext : next ≤ u64Max)
    (h : VisualRack.CursorPast next greatest) : CursorBeyond next greatest := by
  refine ⟨hnext, fun hne => ?_⟩
  rcases h with ⟨-, hlt⟩ | ⟨hzero, -⟩
  · exact hlt
  · exact absurd hzero hne

section

/-- The identities in use after edits: old ones, or those that the cursor had not passed. -/
structure Issues (next : ℕ) (ids : List NodeId) (next' : ℕ) (ids' : List NodeId) : Prop where
  fresh : ∀ id ∈ ids', id ∈ ids ∨ next ≠ 0 ∧ next ≤ id.val
  cursor : next' = 0 ∨ next ≠ 0 ∧ next ≤ next'

namespace Issues

variable {next' last : ℕ} {ids ids' final : List NodeId}

theorem of_subset (hsub : ids' ⊆ ids) : Issues next ids next ids' :=
  ⟨fun _ hid => .inl (hsub hid), by omega⟩

theorem of_nextCursor (hnext : next ≠ 0) (hle : next ≤ value)
    (hfresh : ∀ id ∈ ids', id ∈ ids ∨ id.val = next) : Issues next ids (nextCursor value) ids' := by
  refine ⟨fun id hid => (hfresh id hid).imp_right fun heq => ⟨hnext, heq.ge⟩, ?_⟩
  by_cases hzero : nextCursor value = 0
  · exact .inl hzero
  · exact .inr ⟨hnext, hle.trans (lt_nextCursor hzero).le⟩

theorem trans (h : Issues next ids next' ids') (h' : Issues next' ids' last final) :
    Issues next ids last final := by
  obtain ⟨hfresh, hcursor⟩ := h
  refine ⟨fun id hid => ?_, ?_⟩
  · obtain hold | hnew := h'.fresh id hid
    · exact hfresh id hold
    · exact .inr (by omega)
  · have hlast := h'.cursor
    omega

/-- An identity that was given up is never in use again. -/
theorem gone (h : Issues next ids next' ids') (h' : Issues next' ids' last final) {id : NodeId}
    (hbelow : next ≠ 0 → id.val < next) (hgone : id ∉ ids') : id ∉ final := by
  intro hback
  obtain hold | hnew := h'.fresh id hback
  · exact hgone hold
  · have hcursor := h.cursor
    omega

end Issues

variable {T D : Type} {rack : VisualRack T D}

open VisualRack

variable {nodes : List (VisualNode T D)} {u : Unit}

theorem checkNodes_ok {earlier : List NodeId} (hearl : earlier.Nodup) :
    checkNodes earlier nodes = .ok u ↔
      (earlier ++ nodes.map VisualNode.stableId).Nodup ∧
        ∀ node ∈ nodes, validateLegacyMarker node = .ok () := by
  induction nodes generalizing earlier with
  | nil => simpa [checkNodes] using hearl
  | cons node rest ih =>
    simp only [checkNodes, bind_ok, refuse_ok, exists_unit, map_cons, forall_mem_cons]
    rw [nodup_append_cons]
    constructor
    · rintro ⟨hfresh, hmarker, hrest⟩
      obtain ⟨hnd, hmarkers⟩ := (ih (nodup_concat hearl hfresh)).mp hrest
      exact ⟨⟨hfresh, hnd⟩, hmarker, hmarkers⟩
    · rintro ⟨⟨hfresh, hnd⟩, hmarker, hmarkers⟩
      exact ⟨hfresh, hmarker, (ih (nodup_concat hearl hfresh)).mpr ⟨hnd, hmarkers⟩⟩

theorem greatestNodeId_le_iff {n : ℕ} :
    greatestNodeId nodes ≤ n ↔ 2 ≤ n ∧ ∀ node ∈ nodes, node.stableId.val ≤ n :=
  foldl_max_le_iff

theorem finiteClamp_of_eq_one {wet : F32} (h : wet.eq 1 = true) :
    F32.finiteClamp wet 1 0 1 = wet := by
  simp only [F32.eq, Bool.and_eq_true, Bool.not_eq_true', beq_iff_eq] at h
  obtain ⟨⟨hwet, hone⟩, hkey⟩ := h
  have hzero : (0 : F32).isNan = false := by decide +kernel
  have hord : (0 : F32).key ≤ (1 : F32).key := by decide +kernel
  refine F32.finiteClamp_of_le (by decide +kernel) ?_ ?_
  · simp [F32.le, hzero, hwet, hkey, hord]
  · simp [F32.le, hone, hwet, hkey]

theorem validateLegacyMarker_sanitized {node : VisualNode T D}
    (h : validateLegacyMarker node = .ok ()) :
    validateLegacyMarker node.sanitized = .ok () := by
  simp only [validateLegacyMarker, bind_ok, refuse_ok, exists_unit,
    VisualNode.sanitized, NodeKind.tag_sanitized] at h ⊢
  obtain ⟨hcanon, htemporal, hmarker⟩ := h
  refine ⟨hcanon, htemporal, ?_⟩
  split at hmarker
  · rfl
  · simp only [bind_ok, refuse_ok, exists_unit, not_not] at hmarker ⊢
    obtain ⟨hid, hex⟩ := hmarker
    refine ⟨hid, ?_⟩
    simp only [VisualNode.isExactLegacyMarker, Bool.and_eq_true, NodeKind.tag_sanitized] at hex ⊢
    rw [finiteClamp_of_eq_one hex.1.1.2]
    exact hex

variable {id : NodeId}

theorem validateLegacyMarker_authored {kind : NodeKind T D} (hid : 2 < id.val)
    (hkind : reservedId kind.tag = none) :
    validateLegacyMarker (VisualNode.authored id kind) = .ok () := by
  have hcanon : id ≠ NodeId.legacyCanonical := by
    rintro rfl
    exact absurd hid (by decide)
  have htemporal : id ≠ NodeId.legacyTemporal := by
    rintro rfl
    exact absurd hid (by decide)
  simp [validateLegacyMarker, VisualNode.authored, hkind, hcanon, htemporal, refuse]

/-- What the loader establishes and every edit keeps. -/
structure RackInvariant (rack : VisualRack T D) : Prop where
  length_le : rack.nodes.length ≤ maxNodesPerRack
  ids_nodup : (rack.nodes.map VisualNode.stableId).Nodup
  markers : ∀ node ∈ rack.nodes, validateLegacyMarker node = .ok ()
  sanitized : ∀ node ∈ rack.nodes, node.sanitized = node
  cursor : CursorBeyond rack.nextNodeId (greatestNodeId rack.nodes)
  budget : ∃ budget, rack.budget = .ok budget

theorem exists_budget_iff :
    (∃ budget, rack.budget = .ok budget) ↔
      ∃ budget, resourceBudget (rack.nodes.map fun node =>
        ⟨node.kind.tag, node.enabled⟩) = .ok budget := by
  simp only [VisualRack.budget, mapError_ok]

theorem tryFromParts_ok {next : Option ℕ} :
    tryFromParts nodes next = .ok rack ↔
      nodes.length ≤ maxNodesPerRack ∧
      (nodes.map VisualNode.stableId).Nodup ∧
      (∀ node ∈ nodes, validateLegacyMarker node = .ok ()) ∧
      CursorPast (next.getD (nextCursor (greatestNodeId nodes))) (greatestNodeId nodes) ∧
      (∃ budget, rack.budget = .ok budget) ∧
      rack = ⟨nodes.map VisualNode.sanitized, next.getD (nextCursor (greatestNodeId nodes))⟩ := by
  simp only [tryFromParts, bind_ok, refuse_ok, exists_unit, pure_ok,
    checkNodes_ok nodup_nil, nil_append, not_lt, not_not]
  constructor
  · rintro ⟨hlen, ⟨hnd, hmarkers⟩, hcur, budget, hbudget, rfl⟩
    exact ⟨hlen, hnd, hmarkers, hcur, ⟨budget, hbudget⟩, rfl⟩
  · rintro ⟨hlen, hnd, hmarkers, hcur, ⟨budget, hbudget⟩, rfl⟩
    exact ⟨hlen, ⟨hnd, hmarkers⟩, hcur, budget, hbudget, rfl⟩

theorem greatestNodeId_sanitized (nodes : List (VisualNode T D)) :
    greatestNodeId (nodes.map VisualNode.sanitized) = greatestNodeId nodes := by
  simp only [greatestNodeId, foldl_map, VisualNode.sanitized]

theorem rackInvariant_of_tryFromParts {next : Option ℕ}
    (hnext : ∀ n ∈ next, n ≤ u64Max) (h : tryFromParts nodes next = .ok rack) :
    RackInvariant rack := by
  obtain ⟨hlen, hnd, hmarkers, hcur, hbudget, rfl⟩ := tryFromParts_ok.mp h
  refine ⟨?_, ?_, ?_, ?_, ?_, hbudget⟩
  · rw [length_map]
    exact hlen
  · rw [map_map]
    exact hnd
  · intro node hnode
    obtain ⟨raw, hraw, rfl⟩ := mem_map.mp hnode
    exact validateLegacyMarker_sanitized (hmarkers raw hraw)
  · intro node hnode
    obtain ⟨raw, -, rfl⟩ := mem_map.mp hnode
    exact raw.sanitized_sanitized
  · rw [greatestNodeId_sanitized]
    refine cursorBeyond_of_past ?_ hcur
    cases next with
    | none => exact nextCursor_le _
    | some n => exact hnext n rfl

theorem RackInvariant.reloads_iff (h : RackInvariant rack) :
    tryFromParts rack.nodes (some rack.nextNodeId) = .ok rack ↔
      rack.nextNodeId ≠ 0 ∨ greatestNodeId rack.nodes = u64Max := by
  have hsame : rack.nodes.map VisualNode.sanitized = rack.nodes :=
    (map_congr_left h.sanitized).trans (map_id _)
  rw [tryFromParts_ok, Option.getD_some, h.cursor.past_iff, hsame]
  constructor
  · rintro ⟨-, -, -, hcur, -⟩
    exact hcur
  · intro hcur
    exact ⟨h.length_le, h.ids_nodup, h.markers, hcur, h.budget, rfl⟩

theorem VisualNode.sanitized_authored (id : NodeId) (kind : NodeKind T D) :
    (VisualNode.authored id kind).sanitized = VisualNode.authored id kind := by
  have hwet : F32.finiteClamp 1 1 0 1 = 1 := by decide +kernel
  simp only [VisualNode.sanitized, VisualNode.authored, hwet, NodeKind.sanitized_sanitized]

theorem newNodeId_eq_some {value : ℕ} (h : NodeId.new value = some id) :
    id.val = value ∧ value ≠ 0 := by
  unfold NodeId.new at h
  split at h
  · rename_i hval
    cases h
    exact ⟨rfl, hval.1.ne'⟩
  · cases h

theorem RackInvariant.of_subperm (h : RackInvariant rack) {next : ℕ}
    (hsub : nodes.Subperm rack.nodes)
    (hcur : CursorBeyond next (greatestNodeId rack.nodes))
    (hbudget : ∃ budget, (⟨nodes, next⟩ : VisualRack T D).budget =
      .ok budget) : RackInvariant ⟨nodes, next⟩ where
  length_le := hsub.length_le.trans h.length_le
  ids_nodup := by
    obtain ⟨same, hperm, hsame⟩ := hsub
    exact (hperm.map _).nodup_iff.mp (h.ids_nodup.sublist (hsame.map _))
  markers node hnode := h.markers node (hsub.subset hnode)
  sanitized node hnode := h.sanitized node (hsub.subset hnode)
  cursor := by
    refine hcur.mono (greatestNodeId_le_iff.mpr ?_)
    obtain ⟨htwo, hall⟩ := greatestNodeId_le_iff.mp (le_refl (greatestNodeId rack.nodes))
    exact ⟨htwo, fun node hnode => hall node (hsub.subset hnode)⟩
  budget := hbudget

/-- The identities of the nodes. -/
def nodeIds (rack : VisualRack T D) : List NodeId := rack.nodes.map VisualNode.stableId

/-- What an edit of a rack keeps. -/
structure RackEdited (rack next : VisualRack T D) : Prop extends RackInvariant next where
  issues : Issues rack.nextNodeId (nodeIds rack) next.nextNodeId (nodeIds next)

theorem RackInvariant.unedited (h : RackInvariant rack) : RackEdited rack rack :=
  ⟨h, .of_subset fun _ => id⟩

theorem RackInvariant.observeNodeReference (h : RackInvariant rack)
    (id : NodeId) : RackEdited rack (rack.observeNodeReference id) := by
  unfold VisualRack.observeNodeReference
  split
  · rename_i hobs
    exact ⟨h.of_subperm (List.Subperm.refl _) (h.cursor.observe hobs.2 hobs.1) h.budget,
      .of_nextCursor hobs.1 hobs.2 fun _ => .inl⟩
  · exact h.unedited

theorem RackInvariant.remove (h : RackInvariant rack) (id : NodeId) :
    RackEdited rack (rack.remove id).2 := by
  unfold VisualRack.remove
  split
  · exact h.unedited
  split
  · exact h.unedited
  · rename_i index hidx
    have hsub := eraseIdx_sublist rack.nodes index
    refine ⟨h.of_subperm hsub.subperm h.cursor ?_, .of_subset (hsub.map _).subset⟩
    exact exists_budget_iff.mpr (exists_resourceBudget_of_sublist
      (hsub.map _) (exists_budget_iff.mp h.budget))

theorem exists_budget_of_validateForScope {scope : LegacyRackScope}
    (h : rack.validateForScope scope = .ok u) :
    ∃ budget, rack.budget = .ok budget := by
  unfold VisualRack.validateForScope at h
  split at h
  · simp only [bind_ok, exists_unit] at h
    obtain ⟨-, -, budget, hbudget, -⟩ := h
    exact ⟨budget, hbudget⟩
  · simp only [bind_ok, exists_unit] at h
    obtain ⟨-, budget, hbudget, -⟩ := h
    exact ⟨budget, hbudget⟩

theorem RackInvariant.moveNode (h : RackInvariant rack) (id : NodeId)
    (newIndex : ℕ) (scope : LegacyRackScope) :
    RackEdited rack (rack.moveNode id newIndex scope).2 := by
  unfold VisualRack.moveNode
  split
  · exact h.unedited
  rename_i hnew
  split
  · exact h.unedited
  rename_i oldIndex hold
  have hlt : oldIndex < rack.nodes.length := (findIdx?_eq_some_iff_getElem.mp hold).choose
  have hnew := not_le.mp hnew
  have hperm := perm_moveItem hlt hnew
  dsimp only
  split
  · rw [moveItem_moveItem hlt hnew]
    exact h.unedited
  · rename_i u hvalid
    exact ⟨h.of_subperm hperm.subperm h.cursor (exists_budget_of_validateForScope hvalid),
      .of_subset (hperm.map _).subset⟩

theorem RackInvariant.insert (h : RackInvariant rack) (index : ℕ)
    (kind : NodeKind T D) : RackEdited rack (rack.insert index kind).2 := by
  unfold VisualRack.insert
  split
  · exact h.unedited
  rename_i hlen
  split
  · exact h.unedited
  rename_i hidx
  split
  · exact h.unedited
  rename_i hkind
  split
  · exact h.unedited
  rename_i id hid
  obtain ⟨hval, hnext⟩ := newNodeId_eq_some hid
  have hpast : CursorBeyond (nextCursor rack.nextNodeId) (greatestNodeId rack.nodes) :=
    h.cursor.observe (le_refl _) hnext
  dsimp only
  split
  · rw [eraseIdx_insertIdx_self]
    exact ⟨h.of_subperm (List.Subperm.refl _) hpast h.budget,
      .of_nextCursor hnext le_rfl fun _ => .inl⟩
  · rename_i budget hbudget
    have hperm := perm_insertIdx (VisualNode.authored id kind) rack.nodes (not_lt.mp hidx)
    have hbelow := h.cursor.2 hnext
    obtain ⟨htwo, hall⟩ := greatestNodeId_le_iff.mp (le_refl (greatestNodeId rack.nodes))
    refine ⟨⟨?_, ?_, ?_, ?_, ?_, ⟨budget, hbudget⟩⟩, .of_nextCursor hnext le_rfl fun other hmem => ?_⟩
    · rw [hperm.length_eq, length_cons]
      exact lt_of_le_of_ne h.length_le hlen
    · rw [(hperm.map VisualNode.stableId).nodup_iff, map_cons, nodup_cons]
      refine ⟨?_, h.ids_nodup⟩
      intro hmem
      obtain ⟨node, hnode, hsame⟩ := mem_map.mp hmem
      have hle := hall node hnode
      have hid : node.stableId.val = id.val := congrArg Subtype.val hsame
      omega
    · intro node hnode
      rcases mem_cons.mp (hperm.mem_iff.mp hnode) with rfl | hold
      · exact validateLegacyMarker_authored (by omega) hkind
      · exact h.markers node hold
    · intro node hnode
      rcases mem_cons.mp (hperm.mem_iff.mp hnode) with rfl | hold
      · exact VisualNode.sanitized_authored id kind
      · exact h.sanitized node hold
    · refine ⟨nextCursor_le _, fun hfresh => ?_⟩
      refine lt_of_le_of_lt ?_ (lt_nextCursor hfresh)
      refine greatestNodeId_le_iff.mpr ⟨by omega, ?_⟩
      intro node hnode
      rcases mem_cons.mp (hperm.mem_iff.mp hnode) with rfl | hold
      · exact hval.le
      · exact (hall node hold).trans hbelow.le
    · obtain rfl | hold := mem_cons.mp ((hperm.map _).mem_iff.mp hmem)
      · exact .inr hval
      · exact .inl hold

theorem RackInvariant.apply (hinv : RackInvariant rack) (edit : RackEdit T D) :
    RackEdited rack (edit.apply rack) := by
  cases edit with
  | insert index kind => exact hinv.insert index kind
  | push kind => exact hinv.insert rack.nodes.length kind
  | remove id => exact hinv.remove id
  | moveNode id newIndex scope => exact hinv.moveNode id newIndex scope
  | observeNodeReference id => exact hinv.observeNodeReference id

theorem rackInvariant_of_reachable (h : (rackEdits T D).Reachable rack) : RackInvariant rack := by
  refine h.invariant ?_ ?_
  · rintro rack ⟨nodes, next, hnext, hparts⟩
    exact rackInvariant_of_tryFromParts hnext hparts
  · intro rack edit next hinv hstep
    cases hstep
    exact (hinv.apply edit).toRackInvariant

theorem RackInvariant.edited_of_run {next : VisualRack T D} (h : RackInvariant rack)
    (hrun : (rackEdits T D).FreeRun rack next) : RackEdited rack next := by
  refine hrun.preserves ?_ h.unedited
  rintro mid edit next hedited - hstep
  cases hstep
  have hnext := hedited.toRackInvariant.apply edit
  exact ⟨hnext.toRackInvariant, hedited.issues.trans hnext.issues⟩

end

namespace Tree

variable {L Body : Type} {tree : Tree L Body}

theorem keys_nodup_of (tree : Tree L Body) {items : List (RootItem L)}
    (hlays : (items.flatMap tree.itemLayers).Nodup)
    (hgrps : (items.filterMap RootItem.groupId).Nodup) :
    (items.map RootItem.key).Nodup := by
  induction items with
  | nil => exact nodup_nil
  | cons item rest ih =>
    rw [flatMap_cons, nodup_append] at hlays
    obtain ⟨-, hrest, hdisj⟩ := hlays
    have hgroupsRest : (rest.filterMap RootItem.groupId).Nodup :=
      hgrps.sublist ((sublist_cons_self item rest).filterMap _)
    rw [map_cons, nodup_cons]
    refine ⟨?_, ih hrest hgroupsRest⟩
    intro hmem
    obtain ⟨other, hother, hkey⟩ := mem_map.mp hmem
    cases item with
    | layer layerId bus =>
      cases other with
      | layer layerId' bus' =>
        obtain rfl : layerId' = layerId := RootItemKey.layer.inj hkey
        exact hdisj layerId' (mem_singleton_self _) layerId'
          (mem_flatMap.mpr ⟨_, hother, mem_singleton_self _⟩)
          rfl
      | group groupId => cases hkey
    | group groupId =>
      cases other with
      | layer layerId' bus' => cases hkey
      | group groupId' =>
        obtain rfl : groupId' = groupId := RootItemKey.group.inj hkey
        have hcons : (groupId' ::
            rest.filterMap RootItem.groupId).Nodup := hgrps
        exact (nodup_cons.mp hcons).1 (mem_filterMap.mpr ⟨_, hother, rfl⟩)

theorem wellFormed_of (hgrps : tree.groupIds.Nodup)
    (hrooted : tree.rootedGroups.Nodup) (hlays : tree.flattenedLayers.Nodup)
    (hall : ∀ groupId, groupId ∈ tree.rootedGroups ↔ groupId ∈ tree.groupIds) : WellFormed tree :=
  ⟨hgrps, keys_nodup_of tree hlays hrooted, hlays, hall⟩

variable {tree' : Tree L Body} {groupId : GroupId}

theorem WellFormed.of_perm (h : WellFormed tree)
    (hids : tree'.groupIds = tree.groupIds)
    (hmems : ∀ groupId, (tree'.membersOf groupId).Perm
      (tree.membersOf groupId)) (hroot : tree'.root.Perm tree.root) :
    WellFormed tree' ∧ tree'.flattenedLayers.Perm tree.flattenedLayers := by
  have hitems (item : RootItem L) : (tree'.itemLayers item).Perm (tree.itemLayers item) := by
    cases item with
    | layer layerId bus => exact List.Perm.refl _
    | group groupId => exact hmems groupId
  have hflat : tree'.flattenedLayers.Perm tree.flattenedLayers :=
    (hroot.flatMap_right _).trans (List.Perm.flatMap_left _ fun item _ => hitems item)
  have hrooted : tree'.rootedGroups.Perm tree.rootedGroups := hroot.filterMap _
  refine ⟨wellFormed_of ?_ ?_ ?_ ?_, hflat⟩
  · rw [hids]
    exact h.groups_nodup
  · exact hrooted.nodup_iff.mpr h.rootedGroups_nodup
  · exact hflat.nodup_iff.mpr h.layers_nodup
  · intro groupId
    rw [hrooted.mem_iff, hids]
    exact h.rooted groupId

theorem membersOf_insertEmpty {body : Body}
    (hgrps : tree'.groups = tree.groups ++ [⟨groupId, [], body⟩])
    (other : GroupId) : tree'.membersOf other = tree.membersOf other := by
  unfold membersOf group
  rw [hgrps, find?_append]
  cases hold : tree.groups.find? fun group => group.id = other with
  | some group => rfl
  | none =>
    by_cases hsame : groupId = other
    · simp [hsame]
    · simp [hsame]

theorem WellFormed.insertEmpty (h : WellFormed tree) (hfresh : groupId ∉ tree.groupIds)
    {body : Body} (hgrps : tree'.groups = tree.groups ++ [⟨groupId, [], body⟩])
    (hroot : tree'.root.Perm (.group groupId :: tree.root)) :
    WellFormed tree' ∧ tree'.flattenedLayers.Perm tree.flattenedLayers := by
  have hitems : tree'.itemLayers = tree.itemLayers := by
    funext item
    cases item with
    | layer layerId bus => rfl
    | group other => exact membersOf_insertEmpty hgrps other
  have hemp : tree.itemLayers (.group groupId) = [] := by
    have hnone : tree.group groupId = none := by
      rw [← Option.not_isSome_iff_eq_none, group_isSome_iff]
      exact hfresh
    simp only [itemLayers, membersOf, hnone]
  have hflat : tree'.flattenedLayers.Perm tree.flattenedLayers := by
    unfold flattenedLayers
    rw [hitems]
    refine (hroot.flatMap_right _).trans ?_
    rw [flatMap_cons, hemp, nil_append]
  have hrooted : tree'.rootedGroups.Perm (groupId :: tree.rootedGroups) := hroot.filterMap _
  have hids : tree'.groupIds = tree.groupIds ++ [groupId] := by simp [groupIds, hgrps]
  refine ⟨wellFormed_of ?_ ?_ ?_ ?_, hflat⟩
  · rw [hids]
    exact nodup_concat h.groups_nodup hfresh
  · refine hrooted.nodup_iff.mpr (nodup_cons.mpr ⟨?_, h.rootedGroups_nodup⟩)
    intro hmem
    exact hfresh ((h.rooted groupId).mp hmem)
  · exact hflat.nodup_iff.mpr h.layers_nodup
  · intro other
    rw [hids]
    refine hrooted.mem_iff.trans ?_
    rw [mem_cons, mem_append, mem_singleton, h.rooted other]
    exact or_comm

theorem WellFormed.ungroup (h : WellFormed tree)
    {group : Group L Body} (hgrp : tree.group groupId = some group)
    {front back : List (RootItem L)}
    (hroot : tree.root = front ++ .group groupId :: back) (bus : BusAssignment)
    (hroot' : tree'.root = front ++ group.members.map (.layer · bus) ++ back)
    (hids : tree'.groupIds = tree.groupIds.erase groupId)
    (hmems : ∀ other, other ≠ groupId →
      tree'.membersOf other = tree.membersOf other) :
    WellFormed tree' ∧ tree'.flattenedLayers.Perm tree.flattenedLayers := by
  have hrooted : tree.rootedGroups =
      front.filterMap RootItem.groupId ++ groupId ::
        back.filterMap RootItem.groupId := by
    rw [rootedGroups, hroot, filterMap_append]
    rfl
  have hrooted' : tree'.rootedGroups =
      front.filterMap RootItem.groupId ++ back.filterMap RootItem.groupId := by
    have hnone : (group.members.map (.layer · bus)).filterMap (RootItem.groupId (L := L)) = [] := by
      simp [filterMap_map, comp_def, RootItem.groupId]
    rw [rootedGroups, hroot', filterMap_append, filterMap_append, hnone, append_nil]
  have hnd := h.rootedGroups_nodup
  rw [hrooted] at hnd
  obtain ⟨habs, hrest⟩ := nodup_middle.mp hnd |> nodup_cons.mp
  have hitems (item : RootItem L) (hitem : item ∈ front ++ back) :
      tree'.itemLayers item = tree.itemLayers item := by
    cases item with
    | layer layerId bus => rfl
    | group other =>
      refine hmems other ?_
      rintro rfl
      apply habs
      rw [← filterMap_append]
      exact mem_filterMap.mpr ⟨_, hitem, rfl⟩
  have hflat : tree'.flattenedLayers = tree.flattenedLayers := by
    have hlays : (group.members.map (.layer · bus)).flatMap tree'.itemLayers = group.members := by
      rw [flatMap_map]
      exact flatMap_singleton' _
    have hgroupLayers : tree.itemLayers (.group groupId) = group.members := by
      simp only [itemLayers, membersOf, hgrp]
    rw [flattenedLayers, flattenedLayers, hroot', hroot, flatMap_append, flatMap_append,
      hlays, flatMap_append, flatMap_cons, hgroupLayers, append_assoc]
    congr 1
    · exact flatMap_congr fun item hitem => hitems item (mem_append_left _ hitem)
    · congr 1
      exact flatMap_congr fun item hitem => hitems item (mem_append_right _ hitem)
  refine ⟨wellFormed_of ?_ ?_ ?_ ?_, .of_eq hflat⟩
  · rw [hids]
    exact h.groups_nodup.erase _
  · rw [hrooted']
    exact hrest
  · rw [hflat]
    exact h.layers_nodup
  · intro other
    rw [hids, h.groups_nodup.mem_erase_iff, ← h.rooted other, hrooted,
      hrooted', mem_append, mem_append, mem_cons]
    constructor
    · intro hmem
      refine ⟨?_, hmem.imp_right Or.inr⟩
      rintro rfl
      exact habs (mem_append.mpr hmem)
    · rintro ⟨hne, hmem⟩
      exact hmem.imp_right (Or.resolve_left · hne)

end Tree

section

variable {state : CompositionTree}

variable {root : List (RootItem SavedLayerPosition)} {groups : List SavedGroup}

theorem greatestGroupId_le_iff {n : ℕ} :
    greatestGroupId groups root ≤ n ↔ ∀ id ∈ observedGroups groups root, id.val ≤ n := by
  rw [greatestGroupId, foldl_max_le_iff]
  exact and_iff_right (zero_le n)

variable {groups' : List SavedGroup}

theorem greatestGroupId_mono {root' : List (RootItem SavedLayerPosition)}
    (h : observedGroups groups' root' ⊆ observedGroups groups root) :
    greatestGroupId groups' root' ≤ greatestGroupId groups root :=
  greatestGroupId_le_iff.mpr fun _ hid => greatestGroupId_le_iff.mp (le_refl _) _ (h hid)

def boundedGroup (group : SavedGroup) : SavedGroup := { group with body := group.body.sanitized }

@[simp]
theorem GroupBody.sanitized_sanitized {T D : Type} (body : GroupBody T D) :
    body.sanitized.sanitized = body.sanitized := by
  obtain ⟨name, opacity, transform, rack, matte, solo, bypass, bus⟩ := body
  cases matte <;>
    simp (disch := decide +kernel) [sanitized, F32.finiteClamp_finiteClamp]

theorem sanitizedGroup_ok {group group' : SavedGroup} :
    sanitizedGroup group = .ok group' ↔
      checkGroupRack group.body = .ok () ∧ boundedGroup group = group' := by
  simp only [sanitizedGroup, bind_ok, mapError_ok, exists_unit, pure_ok]
  rfl

theorem mapM_sanitizedGroup_ok :
    groups.mapM sanitizedGroup = .ok groups' ↔
      (∀ group ∈ groups, checkGroupRack group.body = .ok ()) ∧
        groups.map boundedGroup = groups' := by
  induction groups generalizing groups' with
  | nil => simp
  | cons group rest ih =>
    simp only [mapM_cons, bind_ok, pure_ok, sanitizedGroup_ok, ih,
      forall_mem_cons, map_cons]
    constructor
    · rintro ⟨_, ⟨hgrp, rfl⟩, _, ⟨hrest, rfl⟩, rfl⟩
      exact ⟨⟨hgrp, hrest⟩, rfl⟩
    · rintro ⟨⟨hgrp, hrest⟩, rfl⟩
      exact ⟨_, ⟨hgrp, rfl⟩, _, ⟨hrest, rfl⟩, rfl⟩

def loadedCursor (nextGroupId : Option ℕ) (greatest : ℕ) : ℕ :=
  nextGroupId.getD (max (nextCursor greatest) 1)

variable {busCrossfade : F32}

theorem compositionFromParts_ok {next : Option ℕ} :
    CompositionTree.tryFromParts groups root next busCrossfade = .ok state ↔
      groups.length ≤ maxGroups ∧
      (∀ group ∈ groups, checkGroupRack group.body = .ok ()) ∧
      VisualRack.CursorPast (loadedCursor next (greatestGroupId (groups.map boundedGroup) root))
        (greatestGroupId (groups.map boundedGroup) root) ∧
      Tree.WellFormed (⟨groups.map boundedGroup, root⟩ : Tree
        SavedLayerPosition (GroupBody SavedImageTap SavedMotionDonor)) ∧
      state = ⟨⟨groups.map boundedGroup, root⟩,
        loadedCursor next (greatestGroupId (groups.map boundedGroup) root),
        F32.finiteClamp busCrossfade 0.5 0 1, BusMixerState.default⟩ := by
  simp only [CompositionTree.tryFromParts, bind_ok, refuse_ok, exists_unit, pure_ok, mapError_ok,
    mapM_sanitizedGroup_ok, Tree.validateStructure_ok, not_lt, not_not]
  constructor
  · rintro ⟨hlen, _, ⟨hracks, rfl⟩, hcur, ⟨hwf, -⟩, rfl⟩
    exact ⟨hlen, hracks, hcur, hwf, rfl⟩
  · rintro ⟨hlen, hracks, hcur, hwf, rfl⟩
    refine ⟨hlen, _, ⟨hracks, rfl⟩, hcur, ⟨hwf, ?_⟩, rfl⟩
    intro group hgrp
    obtain ⟨raw, hraw, rfl⟩ := mem_map.mp hgrp
    exact hracks raw hraw

/-- What the loader establishes and every edit keeps. -/
structure CompositionInvariant (state : CompositionTree) : Prop where
  length_le : state.tree.groups.length ≤ maxGroups
  wellFormed : state.tree.WellFormed
  racks : ∀ group ∈ state.tree.groups, checkGroupRack group.body = .ok ()
  bounded : ∀ group ∈ state.tree.groups, group.body.sanitized = group.body
  cursor : CursorBeyond state.nextGroupId (greatestGroupId state.tree.groups state.tree.root)
  crossfade : F32.finiteClamp state.busCrossfade 0.5 0 1 = state.busCrossfade
  mixer : state.mixer = BusMixerState.default

/-- What an edit of a composition keeps: the layers are only reordered. -/
structure CompositionEdited (state next : CompositionTree) : Prop
    extends CompositionInvariant next where
  layers : next.tree.flattenedLayers.Perm state.tree.flattenedLayers
  issues : Issues state.nextGroupId state.tree.groupIds next.nextGroupId next.tree.groupIds

theorem CompositionInvariant.unedited (h : CompositionInvariant state) :
    CompositionEdited state state :=
  ⟨h, .refl _, .of_subset fun _ => id⟩

theorem edited_of {next : CompositionTree} (hlen : next.tree.groups.length ≤ maxGroups)
    (hkept : next.tree.WellFormed ∧ next.tree.flattenedLayers.Perm state.tree.flattenedLayers)
    (hracks : ∀ group ∈ next.tree.groups, checkGroupRack group.body = .ok ())
    (hbounded : ∀ group ∈ next.tree.groups, group.body.sanitized = group.body)
    (hcursor : CursorBeyond next.nextGroupId (greatestGroupId next.tree.groups next.tree.root))
    (hcrossfade : F32.finiteClamp next.busCrossfade 0.5 0 1 = next.busCrossfade)
    (hmixer : next.mixer = BusMixerState.default)
    (hissues : Issues state.nextGroupId state.tree.groupIds next.nextGroupId next.tree.groupIds) :
    CompositionEdited state next :=
  ⟨⟨hlen, hkept.1, hracks, hbounded, hcursor, hcrossfade, hmixer⟩, hkept.2, hissues⟩

theorem CompositionInvariant.boundedGroups (h : CompositionInvariant state) :
    state.tree.groups.map boundedGroup = state.tree.groups := by
  have hsame : ∀ group ∈ state.tree.groups, boundedGroup group = group := by
    intro group hgrp
    rw [boundedGroup, h.bounded group hgrp]
  exact (map_congr_left hsame).trans (map_id _)

theorem compositionInvariant_of_tryFromParts {next : Option ℕ}
    (hnext : ∀ n ∈ next, n ≤ u64Max)
    (h : CompositionTree.tryFromParts groups root next busCrossfade =
      .ok state) : CompositionInvariant state := by
  obtain ⟨hlen, hracks, hcur, hwf, rfl⟩ := compositionFromParts_ok.mp h
  refine ⟨?_, hwf, ?_, ?_, ?_, ?_, rfl⟩
  · rw [length_map]
    exact hlen
  · intro group hgrp
    obtain ⟨raw, hraw, rfl⟩ := mem_map.mp hgrp
    exact hracks raw hraw
  · intro group hgrp
    obtain ⟨raw, -, rfl⟩ := mem_map.mp hgrp
    exact raw.body.sanitized_sanitized
  · refine cursorBeyond_of_past ?_ hcur
    cases next with
    | none => exact max_le (nextCursor_le _) (by decide)
    | some n => exact hnext n rfl
  · exact F32.finiteClamp_finiteClamp (by decide +kernel) _

theorem CompositionInvariant.reloads_iff (h : CompositionInvariant state) :
    CompositionTree.tryFromParts state.tree.groups state.tree.root
        (some state.nextGroupId) state.busCrossfade = .ok state ↔
      state.nextGroupId ≠ 0 ∨ greatestGroupId state.tree.groups state.tree.root = u64Max := by
  rw [compositionFromParts_ok, h.boundedGroups, loadedCursor, Option.getD_some, h.cursor.past_iff]
  constructor
  · rintro ⟨-, -, hcur, -⟩
    exact hcur
  · intro hcur
    refine ⟨h.length_le, h.racks, hcur, h.wellFormed, ?_⟩
    rw [h.crossfade, ← h.mixer]

theorem CompositionInvariant.reload_omitted_iff (h : CompositionInvariant state) :
    (∃ loaded, CompositionTree.tryFromParts state.tree.groups state.tree.root
        none state.busCrossfade = .ok loaded) ↔
      greatestGroupId state.tree.groups state.tree.root ≠ u64Max := by
  have hbd : greatestGroupId state.tree.groups state.tree.root ≤ u64Max :=
    greatestGroupId_le_iff.mpr fun id _ => id.property.2
  have hpast : VisualRack.CursorPast (loadedCursor none
      (greatestGroupId state.tree.groups state.tree.root))
        (greatestGroupId state.tree.groups state.tree.root) ↔
      greatestGroupId state.tree.groups state.tree.root ≠ u64Max := by
    generalize greatestGroupId state.tree.groups state.tree.root = greatest at *
    unfold VisualRack.CursorPast loadedCursor nextCursor
    rw [Option.getD_none]
    split
    · rename_i hroom
      omega
    · rename_i hfull
      have hlast : 1 ≤ u64Max := by decide
      omega
  rw [← hpast]
  constructor
  · rintro ⟨loaded, hloaded⟩
    have hcur := (compositionFromParts_ok.mp hloaded).2.2.1
    rwa [h.boundedGroups] at hcur
  · intro hcur
    refine ⟨_, compositionFromParts_ok.mpr ⟨h.length_le, h.racks, ?_, ?_, rfl⟩⟩
    · rwa [h.boundedGroups]
    · rw [h.boundedGroups]
      exact h.wellFormed

theorem CompositionInvariant.observeGroupReference (h : CompositionInvariant state) (id : GroupId) :
    CompositionEdited state (state.observeGroupReference id) := by
  unfold CompositionTree.observeGroupReference
  split
  · rename_i hobs
    exact edited_of h.length_le ⟨h.wellFormed, .refl _⟩ h.racks h.bounded
      (h.cursor.observe hobs.2 hobs.1) h.crossfade h.mixer
      (.of_nextCursor hobs.1 hobs.2 fun _ => .inl)
  · exact h.unedited

theorem newGroupId_eq_some {value : ℕ} {id : GroupId}
    (h : GroupId.new value = some id) : id.val = value ∧ value ≠ 0 := by
  unfold GroupId.new at h
  split at h
  · rename_i hval
    cases h
    exact ⟨rfl, hval.1.ne'⟩
  · cases h

theorem checkGroupRack_empty (name : String) :
    checkGroupRack (GroupBody.empty name : GroupBody SavedImageTap SavedMotionDonor) = .ok () := by
  rfl

open GroupBody

theorem sanitized_empty {T D : Type} (name : String) :
    (GroupBody.empty name : GroupBody T D).sanitized = GroupBody.empty name := by
  have hopac : F32.finiteClamp 1 1 0 1 = 1 := by decide +kernel
  have htransform : SpatialTransform.default.sanitized = SpatialTransform.default := by
    simp only [SpatialTransform.sanitized, SpatialTransform.default, SpatialTransform.mk.injEq,
      Vec2.map, Vec2.mk.injEq, Vec4.mk.injEq, true_and, and_true]
    decide +kernel
  simp [sanitized, empty, hopac, htransform]

theorem CompositionInvariant.insertEmptyGroup (h : CompositionInvariant state)
    (name : String) (rootIndex : ℕ) :
    CompositionEdited state (state.insertEmptyGroup name rootIndex).2 := by
  unfold CompositionTree.insertEmptyGroup
  split
  · exact h.unedited
  rename_i hlen
  split
  · exact h.unedited
  rename_i hidx
  split
  · exact h.unedited
  rename_i id hid
  obtain ⟨hval, hnext⟩ := newGroupId_eq_some hid
  have hbelow := h.cursor.2 hnext
  have hall := greatestGroupId_le_iff.mp
    (le_refl (greatestGroupId state.tree.groups state.tree.root))
  have hfresh : id ∉ state.tree.groupIds := by
    intro hmem
    have hle := hall id (mem_append_left _ (mem_append_left _ hmem))
    omega
  have hperm := perm_insertIdx (RootItem.group id) state.tree.root (not_lt.mp hidx)
  refine edited_of ?_ (h.wellFormed.insertEmpty hfresh rfl hperm) ?_ ?_ ?_ h.crossfade h.mixer
    (.of_nextCursor hnext le_rfl fun other hmem => ?_)
  · rw [length_append]
    exact lt_of_le_of_ne h.length_le hlen
  · intro group hgrp
    rcases mem_append.mp hgrp with hold | hnew
    · exact h.racks group hold
    · obtain rfl := mem_singleton.mp hnew
      exact checkGroupRack_empty name
  · intro group hgrp
    rcases mem_append.mp hgrp with hold | hnew
    · exact h.bounded group hold
    · obtain rfl := mem_singleton.mp hnew
      exact sanitized_empty name
  · refine ⟨nextCursor_le _, fun hfreshCursor => ?_⟩
    refine lt_of_le_of_lt ?_ (lt_nextCursor hfreshCursor)
    refine greatestGroupId_le_iff.mpr ?_
    intro other hother
    have hcases : other = id ∨ other ∈ observedGroups state.tree.groups state.tree.root := by
      simp only [observedGroups, mem_append, map_append,
        flatMap_append, mem_map, mem_flatMap,
        mem_singleton, exists_eq_left,
        (hperm.filterMap RootItem.groupId).mem_iff] at hother ⊢
      rcases hother with ((hold | rfl) | hold | hnew) | hroot
      · exact .inr (.inl (.inl hold))
      · exact .inl rfl
      · exact .inr (.inl (.inr hold))
      · cases hnew
      · rcases mem_cons.mp hroot with hsame | hold
        · exact .inl hsame
        · exact .inr (.inr hold)
    rcases hcases with rfl | hold
    · exact hval.le
    · exact (hall other hold).trans hbelow.le
  · rw [Tree.groupIds, map_append, mem_append] at hmem
    refine hmem.imp_right fun hnew => ?_
    obtain rfl := mem_singleton.mp hnew
    exact hval

theorem CompositionInvariant.moveRootItem (h : CompositionInvariant state)
    (key : RootItemKey SavedLayerPosition) (newIndex : ℕ) :
    CompositionEdited state (state.moveRootItem key newIndex).2 := by
  unfold CompositionTree.moveRootItem
  split
  · exact h.unedited
  rename_i hnew
  split
  · split
    · exact h.unedited
    · exact h.unedited
  rename_i oldIndex hold
  have hperm := perm_moveItem
    (findIdx?_eq_some_iff_getElem.mp hold).choose (not_le.mp hnew)
  refine edited_of h.length_le (h.wellFormed.of_perm rfl (fun _ => .refl _) hperm) h.racks h.bounded
    (h.cursor.mono (greatestGroupId_mono ?_)) h.crossfade h.mixer (.of_subset fun _ => id)
  intro id hid
  simp only [observedGroups, mem_append, (hperm.filterMap RootItem.groupId).mem_iff] at hid ⊢
  exact hid

theorem perm_moveLayer (members : List SavedLayerPosition)
    (layer : SavedLayerPosition) (newIndex : ℕ) :
    (CompositionTree.moveLayer members layer newIndex).2.Perm members := by
  unfold CompositionTree.moveLayer
  split
  · exact List.Perm.refl _
  rename_i hnew
  split
  · exact List.Perm.refl _
  rename_i oldIndex hold
  exact perm_moveItem (findIdx?_eq_some_iff_getElem.mp hold).choose (not_le.mp hnew)

section

open CompositionTree

variable (groupId : GroupId) (change : SavedGroup → SavedGroup)

theorem map_updateGroup {α : Type} (field : SavedGroup → α)
    (hfield : ∀ group, field (change group) = field group) (groups : List SavedGroup) :
    (updateGroup groupId change groups).map field = groups.map field := by
  induction groups with
  | nil => rfl
  | cons group rest ih =>
    by_cases hsame : group.id = groupId
    · simp [updateGroup, hsame, hfield]
    · simp only [updateGroup, hsame, if_false, map_cons, ih]

theorem find?_updateGroup (hid : ∀ group, (change group).id = group.id)
    (groups : List SavedGroup) (other : GroupId) :
    (updateGroup groupId change groups).find? (fun group => group.id = other) =
      if other = groupId then (groups.find? fun group => group.id = other).map change
      else groups.find? fun group => group.id = other := by
  induction groups with
  | nil => simp [updateGroup]
  | cons group rest ih =>
    by_cases hsame : group.id = groupId
    · by_cases hother : other = groupId
      · simp [updateGroup, hsame, hother, hid]
      · simp [updateGroup, hsame, hother, hid, Ne.symm hother]
    · by_cases hother : other = groupId
      · have hne : group.id ≠ other := by
          rw [hother]
          exact hsame
        simp only [updateGroup, hsame, if_false, find?_cons, hne, decide_false, ih]
      · simp only [updateGroup, hsame, if_false, find?_cons, ih, hother]

end

theorem CompositionInvariant.moveGroupMember (h : CompositionInvariant state)
    (groupId : GroupId) (layer : SavedLayerPosition) (newIndex : ℕ) :
    CompositionEdited state (state.moveGroupMember groupId layer newIndex).2 := by
  unfold CompositionTree.moveGroupMember
  split
  · exact h.unedited
  rename_i group hgrp
  dsimp only
  have hperm := perm_moveLayer group.members layer newIndex
  generalize (CompositionTree.moveLayer group.members layer newIndex).2 = members at hperm ⊢
  have hids := map_updateGroup groupId
    (fun group => { group with members := members }) Group.id (fun _ => rfl) state.tree.groups
  have hbodies := map_updateGroup groupId
    (fun group => { group with members := members }) Group.body (fun _ => rfl)
    state.tree.groups
  have hmem {changed : SavedGroup} (hchanged : changed ∈
      CompositionTree.updateGroup groupId (fun group =>
        { group with members := members }) state.tree.groups) :
      ∃ group ∈ state.tree.groups, group.body = changed.body := by
    have hbody : changed.body ∈ state.tree.groups.map Group.body := by
      rw [← hbodies]
      exact mem_map_of_mem hchanged
    exact mem_map.mp hbody
  refine edited_of ?_ (h.wellFormed.of_perm hids ?_ (.refl _)) ?_ ?_ ?_ h.crossfade h.mixer
    (.of_subset (List.Perm.of_eq hids).subset)
  · have hlen := congrArg length hids
    rw [length_map, length_map] at hlen
    exact hlen.trans_le h.length_le
  · intro other
    have hfind := find?_updateGroup groupId (fun group => { group with members := members })
      (fun _ => rfl) state.tree.groups other
    unfold Tree.membersOf Tree.group
    dsimp only
    rw [hfind]
    by_cases hother : other = groupId
    · have hfound : state.tree.groups.find? (fun group => group.id = other) =
          some group := hother ▸ hgrp
      rw [if_pos hother, hfound]
      exact hperm
    · rw [if_neg hother]
  · intro changed hchanged
    obtain ⟨group, hold, hbody⟩ := hmem hchanged
    rw [← hbody]
    exact h.racks group hold
  · intro changed hchanged
    obtain ⟨group, hold, hbody⟩ := hmem hchanged
    rw [← hbody]
    exact h.bounded group hold
  · refine h.cursor.mono (le_of_eq ?_)
    have hflat (groups : List SavedGroup) :
        groups.flatMap (·.body.referencedGroupIds) =
          (groups.map Group.body).flatMap referencedGroupIds :=
      (flatMap_map Group.body _ groups).symm
    unfold greatestGroupId observedGroups
    dsimp only
    rw [hids, hflat, hbodies, ← hflat]

theorem taps_mapRoutes {T T' D D' : Type} (f : T → T') (g : D → D')
    (kind : NodeKind T D) : (kind.mapRoutes f g).taps = kind.taps.map f := by
  cases kind with
  | mask value => cases value <;> rfl
  | _ => rfl

section

variable (body : GroupBody SavedImageTap SavedMotionDonor) (removed : GroupId)

theorem referencedGroupIds_marked :
    (body.markGroupOutputMissing removed).referencedGroupIds = body.referencedGroupIds := by
  unfold referencedGroupIds markGroupOutputMissing
  congr 1
  · simp only [VisualRack.referencedGroupIds, VisualRack.markGroupOutputMissing, flatMap_map,
      VisualNode.mapRoutes, taps_mapRoutes, filterMap_map, comp_def,
      SavedImageTap.markGroupMissing_referencedGroup]
  · cases body.matte with
    | none => rfl
    | some matte => simp [ImageMatte.mapRoutes]

theorem sanitized_marked (h : body.sanitized = body) :
    (body.markGroupOutputMissing removed).sanitized = body.markGroupOutputMissing removed := by
  have hcommute : (body.markGroupOutputMissing removed).sanitized =
      body.sanitized.markGroupOutputMissing removed := by
    obtain ⟨name, opacity, transform, rack, matte, solo, bypass, bus⟩ := body
    cases matte <;> rfl
  rw [hcommute, h]

theorem checkGroupRack_marked :
    checkGroupRack (body.markGroupOutputMissing removed) = checkGroupRack body := by
  simp only [checkGroupRack, VisualRack.validateForScope, VisualRack.budget, markGroupOutputMissing,
    VisualRack.markGroupOutputMissing, any_map, map_map, comp_def,
    VisualNode.mapRoutes, NodeKind.tag_mapRoutes]

end

theorem CompositionInvariant.removeGroupUngroup (h : CompositionInvariant state) (id : GroupId) :
    CompositionEdited state (state.removeGroupUngroup id).2 := by
  unfold CompositionTree.removeGroupUngroup
  split
  · exact h.unedited
  rename_i group hgrp
  split
  · exact h.unedited
  rename_i rootIndex hroot
  dsimp only
  obtain ⟨hid, before, after, hgrps, hpre⟩ := find?_eq_some_iff_append.mp hgrp
  have hid : group.id = id := of_decide_eq_true hid
  have hpre : ∀ other ∈ before, other.id ≠ id := by
    intro other hother
    simpa using hpre other hother
  have herase : state.tree.groups.eraseP (fun group => group.id = id) = before ++ after := by
    rw [hgrps, eraseP_append_right _ (by simpa using hpre),
      eraseP_cons_of_pos (by simpa using hid)]
  have hkept : ∀ other ∈ before ++ after, other ∈ state.tree.groups := by
    intro other hother
    rw [hgrps]
    exact mem_append.mpr ((mem_append.mp hother).imp_right (mem_cons_of_mem group))
  have hitem := findIdx?_eq_some_iff_getElem.mp hroot
  obtain ⟨hlt, hkey, -⟩ := hitem
  have hkey := of_decide_eq_true hkey
  have hsplit : state.tree.root = state.tree.root.take rootIndex ++
      .group id :: state.tree.root.drop (rootIndex + 1) := by
    have hrooted : state.tree.root[rootIndex] = .group id := by
      cases hcase : state.tree.root[rootIndex] with
      | layer layerId bus =>
        rw [hcase] at hkey
        cases hkey
      | group other =>
        rw [hcase] at hkey
        exact congrArg RootItem.group (RootItemKey.group.inj hkey)
    rw [← hrooted, cons_getElem_drop_succ, take_append_drop]
  rw [herase]
  have hids : before.map Group.id ++ after.map Group.id = state.tree.groupIds.erase id := by
    have hout : id ∉ before.map Group.id := by
      intro hmem
      obtain ⟨other, hother, hsame⟩ := mem_map.mp hmem
      exact hpre other hother hsame
    rw [Tree.groupIds, hgrps, map_append, map_cons,
      erase_append_right _ hout, hid, erase_cons_head]
  have hmarked : ∀ changed ∈ (before ++ after).map (fun remaining =>
        { remaining with body := remaining.body.markGroupOutputMissing id }),
      ∃ other ∈ state.tree.groups, other.id = changed.id ∧
        other.body.markGroupOutputMissing id = changed.body := by
    intro changed hchanged
    obtain ⟨other, hother, rfl⟩ := mem_map.mp hchanged
    exact ⟨other, hkept other hother, rfl, rfl⟩
  refine edited_of ?_ (h.wellFormed.ungroup hgrp hsplit group.body.bus rfl ?_ ?_) ?_
    ?_ (h.cursor.mono (greatestGroupId_mono ?_)) h.crossfade h.mixer (.of_subset ?_)
  · have hlen := congrArg length hgrps
    simp only [length_append, length_cons, length_map] at hlen ⊢
    have hle := h.length_le
    omega
  · simp only [Tree.groupIds, map_map, map_append] at hids ⊢
    exact hids
  · intro other hother
    have hne : group.id ≠ other := by
      rw [hid]
      exact Ne.symm hother
    unfold Tree.membersOf Tree.group
    dsimp only
    rw [hgrps, find?_map]
    simp only [comp_def, find?_append, find?_cons, hne, decide_false]
    cases (before.find? fun group => group.id = other).or
      (after.find? fun group => group.id = other) <;> rfl
  · intro changed hchanged
    obtain ⟨other, hold, -, hbody⟩ := hmarked changed hchanged
    rw [← hbody, checkGroupRack_marked]
    exact h.racks other hold
  · intro changed hchanged
    obtain ⟨other, hold, -, hbody⟩ := hmarked changed hchanged
    rw [← hbody]
    exact sanitized_marked _ id (h.bounded other hold)
  · intro observed hobs
    simp only [observedGroups, mem_append, mem_flatMap] at hobs ⊢
    rcases hobs with (hgrp | hreferenced) | hnamed
    · obtain ⟨changed, hchanged, rfl⟩ := mem_map.mp hgrp
      obtain ⟨other, hold, hsame, -⟩ := hmarked changed hchanged
      exact .inl (.inl (hsame ▸ mem_map_of_mem hold))
    · obtain ⟨changed, hchanged, hmem⟩ := hreferenced
      obtain ⟨other, hold, -, hbody⟩ := hmarked changed hchanged
      rw [← hbody, referencedGroupIds_marked] at hmem
      exact .inl (.inr ⟨other, hold, hmem⟩)
    · obtain ⟨item, hmem, hnamed⟩ := mem_filterMap.mp hnamed
      refine .inr (mem_filterMap.mpr ⟨item, ?_, hnamed⟩)
      rcases mem_append.mp hmem with hfront | hback
      · rcases mem_append.mp hfront with htaken | hmember
        · exact mem_of_mem_take htaken
        · obtain ⟨layer, -, rfl⟩ := mem_map.mp hmember
          cases hnamed
      · exact mem_of_mem_drop hback
  · intro _ hmem
    obtain ⟨changed, hchanged, rfl⟩ := mem_map.mp hmem
    obtain ⟨other, hold, hsame, -⟩ := hmarked changed hchanged
    exact hsame ▸ mem_map_of_mem hold

theorem CompositionInvariant.apply (hinv : CompositionInvariant state) (edit : CompositionEdit) :
    CompositionEdited state (edit.apply state) := by
  cases edit with
  | insertEmptyGroup name rootIndex => exact hinv.insertEmptyGroup name rootIndex
  | removeGroupUngroup id => exact hinv.removeGroupUngroup id
  | moveRootItem key newIndex => exact hinv.moveRootItem key newIndex
  | moveGroupMember groupId layer newIndex => exact hinv.moveGroupMember groupId layer newIndex
  | observeGroupReference id => exact hinv.observeGroupReference id

theorem compositionInvariant_of_reachable
    (h : compositionEdits.Reachable state) : CompositionInvariant state := by
  refine h.invariant ?_ ?_
  · rintro state ⟨groups, root, next, busCrossfade, hnext, hparts⟩
    exact compositionInvariant_of_tryFromParts hnext hparts
  · intro state edit next hinv hstep
    cases hstep
    exact (hinv.apply edit).toCompositionInvariant

theorem CompositionInvariant.edited_of_run {next : CompositionTree}
    (h : CompositionInvariant state) (hrun : compositionEdits.FreeRun state next) :
    CompositionEdited state next := by
  refine hrun.preserves ?_ h.unedited
  rintro mid edit next hedited - hstep
  cases hstep
  have hnext := hedited.toCompositionInvariant.apply edit
  exact ⟨hnext.toCompositionInvariant, hnext.layers.trans hedited.layers,
    hedited.issues.trans hnext.issues⟩

end

section

variable {T D : Type}

theorem reachable_empty : (rackEdits T D).Reachable VisualRack.empty := by
  refine Machine.reachable_of_start ⟨[], none, ?_, ?_⟩
  · intro next hnext
    exact absurd hnext (Option.not_mem_none next)
  exact tryFromParts_ok.mpr ⟨zero_le _, nodup_nil,
    fun _ hnode => absurd hnode not_mem_nil, .inl ⟨succ_ne_zero 2, lt_succ_self 2⟩,
    exists_budget_iff.mpr ⟨_, rfl⟩, rfl⟩

theorem reachable_emptyComposition (next : ℕ) (hnext : next ≠ 0)
    (hbd : next ≤ u64Max) : compositionEdits.Reachable
      ⟨⟨[], []⟩, next, 0.5, BusMixerState.default⟩ := by
  have hclamp : F32.finiteClamp 0.5 0.5 0 1 = 0.5 := by decide +kernel
  refine Machine.reachable_of_start ⟨[], [], some next, 0.5, ?_, ?_⟩
  · intro value hval
    cases hval
    exact hbd
  · refine compositionFromParts_ok.mpr ⟨zero_le _, fun _ hgrp => absurd hgrp not_mem_nil,
      .inl ⟨hnext, pos_of_ne_zero hnext⟩, ?_, ?_⟩
    · exact Tree.wellFormed_of nodup_nil nodup_nil nodup_nil
        fun _ => Iff.rfl
    · rw [hclamp]
      rfl

def lastGroup : CompositionTree where
  tree := ⟨[⟨⟨u64Max, by decide⟩, [], .empty ""⟩],
    [.group ⟨u64Max, by decide⟩]⟩
  nextGroupId := 0
  busCrossfade := 0.5
  mixer := BusMixerState.default

/-- The identity of a node that was removed is never given out again. -/
theorem removed_node_ids_stay_retired {rack next later : VisualRack T D}
    (hreach : (rackEdits T D).Reachable rack) (hrun : (rackEdits T D).FreeRun rack next)
    (hlater : (rackEdits T D).FreeRun next later) {id : NodeId} (hid : id ∈ nodeIds rack)
    (hgone : id ∉ nodeIds next) : id ∉ nodeIds later := by
  have hinv := rackInvariant_of_reachable hreach
  have hedited := hinv.edited_of_run hrun
  refine hedited.issues.gone (hedited.toRackInvariant.edited_of_run hlater).issues ?_ hgone
  obtain ⟨node, hnode, rfl⟩ := mem_map.mp hid
  exact fun hnext => ((greatestNodeId_le_iff.mp le_rfl).2 node hnode).trans_lt (hinv.cursor.2 hnext)

theorem removed_node_ids_stay_retired_third :
    ∃ rack later : VisualRack Unit Unit, ⟨3, three_isIdentity⟩ ∈ nodeIds rack ∧
      later.nodes.length = 1 ∧ ⟨3, three_isIdentity⟩ ∉ nodeIds later := by
  let add : RackEdit Unit Unit := .push (.study ⟨none⟩)
  let drop : RackEdit Unit Unit := .remove ⟨3, three_isIdentity⟩
  have hreach := (reachable_empty (T := Unit) (D := Unit)).next add rfl
  have hrun (rack) (edit : RackEdit Unit Unit) : (rackEdits Unit Unit).FreeRun rack
      (edit.apply rack) := (Machine.Run.refl rack).tail trivial rfl
  exact ⟨add.apply .empty, _, by decide, rfl,
    removed_node_ids_stay_retired hreach (hrun _ drop) (hrun _ add) (by decide) (by decide)⟩

/-- Edits of a composition only reorder its layers, and no identity that a group
or a route has is given to a new group. -/
theorem edits_keep_layers {state next later : CompositionTree}
    (hreach : compositionEdits.Reachable state) (hrun : compositionEdits.FreeRun state next)
    (hlater : compositionEdits.FreeRun next later) :
    next.tree.flattenedLayers.Perm state.tree.flattenedLayers ∧
      next.tree.flattenedLayers.Nodup ∧
      ∀ id ∈ observedGroups state.tree.groups state.tree.root,
        id ∉ next.tree.groupIds → id ∉ later.tree.groupIds := by
  have hinv := compositionInvariant_of_reachable hreach
  have hedited := hinv.edited_of_run hrun
  refine ⟨hedited.layers, hedited.wellFormed.layers_nodup, fun id hid hgone => ?_⟩
  have hissues := (hedited.toCompositionInvariant.edited_of_run hlater).issues
  exact hedited.issues.gone hissues (fun hnext =>
    (greatestGroupId_le_iff.mp le_rfl id hid).trans_lt (hinv.cursor.2 hnext)) hgone

theorem edits_keep_layers_emptyGroup :
    ∃ state later : CompositionTree, compositionEdits.Reachable state ∧ later.tree.groups.length = 1 ∧
      ⟨1, one_isIdentity⟩ ∈ state.tree.groupIds ∧ ⟨1, one_isIdentity⟩ ∉ later.tree.groupIds := by
  let add : CompositionEdit := .insertEmptyGroup "" 0
  let drop : CompositionEdit := .removeGroupUngroup ⟨1, one_isIdentity⟩
  have hreach := (reachable_emptyComposition 1 (by decide) (by decide)).next add rfl
  have hrun (state) (edit : CompositionEdit) : compositionEdits.FreeRun state (edit.apply state) :=
    (Machine.Run.refl state).tail trivial rfl
  exact ⟨_, _, hreach, rfl, by decide,
    (edits_keep_layers hreach (hrun _ drop) (hrun _ add)).2.2 _ (by decide) (by decide)⟩

end

end CollideOScope.Composition
