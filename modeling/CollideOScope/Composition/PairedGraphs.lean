import CollideOScope.Composition.SavedTopology

/-!
# One graph under two names

A show of `n` layers is one graph whose layers are the numbers below `n`, whose
routes are pairs of a saved tap and a live one, and whose layer mattes are pairs
of a saved matte and a live one.  The halves of a pair come from each other by a
capture or by a restore.
-/

namespace CollideOScope.Composition

open PlannedImageTapOrigin TapContext List

/-- The live layers of a show, front to back, and its groups. -/
structure GraphNames where
  layers : List StableLayerId
  groups : List GroupId
  layers_nodup : layers.Nodup
  layers_le : layers.length ≤ maxCompositionLayers

namespace GraphNames

variable (names : GraphNames)

abbrev Index : Type := Fin names.layers.length

variable (i : names.Index)

theorem index_le : i.val ≤ maxSavedLayerPosition := by
  have hbd : maxCompositionLayers ≤ maxSavedLayerPosition := by decide
  exact i.isLt.le.trans (names.layers_le.trans hbd)

def position (i : names.Index) : SavedLayerPosition := ⟨i.val, names.index_le i⟩

def layer (i : names.Index) : StableLayerId := names.layers.get i

def layerAt (position : SavedLayerPosition) : Option StableLayerId := names.layers[position.val]?

def positionOf (layerId : StableLayerId) : Option SavedLayerPosition :=
  if h : layerId ∈ names.layers then
    some (names.position ⟨names.layers.idxOf layerId, idxOf_lt_length_iff.mpr h⟩)
  else none

def groupExists (groupId : GroupId) : Bool := groupId ∈ names.groups

def liveId (id : StableLayerId) : StableLayerId := names.layers.getD (id.val - 1) id

theorem liveId_position : names.liveId (validationId (names.position i)) = names.layer i := by
  simp [liveId, validationId, position, layer]

theorem position_injective : Function.Injective names.position := by
  intro i j hij
  exact Fin.ext (congrArg Subtype.val hij)

theorem validationId_injective : Function.Injective validationId := by
  intro p q hpq
  have hval := congrArg Subtype.val hpq
  exact Subtype.ext (Nat.succ.inj hval)

theorem layer_injective : Function.Injective names.layer := names.layers_nodup.injective_get

theorem layer_mem : names.layer i ∈ names.layers := get_mem _ _

theorem exists_layer {layerId : StableLayerId} (h : layerId ∈ names.layers) :
    ∃ i, names.layer i = layerId :=
  get_of_mem h

end GraphNames

variable (names : GraphNames)

/-- A saved tap and a live one, of which one was made of the other. -/
abbrev TapPair :=
  {pair : SavedImageTap × ResolvedImageTap //
    pair.1 = pair.2.toSaved names.positionOf ∨
      pair.2 = pair.1.toRuntime names.layerAt names.groupExists}

abbrev DonorPair :=
  {pair : SavedMotionDonor × MotionDonor //
    pair.1 = .fromRuntime pair.2 names.positionOf ∨ pair.2 = pair.1.toRuntime names.layerAt}

/-- A saved matte and a live one; a matte that is read from a document is
sanitized. -/
abbrev MattePair :=
  {pair : LayerMatte SavedImageInput × LayerMatte ImageInput //
    pair.1 = pair.2.captured names.positionOf ∨
      pair.1.sanitized = pair.1 ∧ pair.2 = pair.1.toRuntime names.layerAt}

inductive SourcePair : SavedImageSource → ResolvedImageSource → Prop
  | layer (i : names.Index) {savedPosition stage} :
      SourcePair (.selectedLayer (names.position i) stage)
        (.selectedLayer (names.layer i) savedPosition stage)
  | lost {layerId savedPosition stage} (h : layerId ∉ names.layers) :
      SourcePair (.missingSelectedLayer savedPosition stage)
        (.selectedLayer layerId savedPosition stage)
  | absent {position stage} (h : names.layers.length ≤ position.val) :
      SourcePair (.selectedLayer position stage) (.missingSelectedLayer position stage)
  | missing {position stage} : SourcePair (.missingSelectedLayer position stage)
      (.missingSelectedLayer position stage)
  | oneBelow : SourcePair .oneBelow .oneBelow
  | allBelow : SourcePair .allBelow .allBelow
  | group {groupId} : SourcePair (.groupOutput groupId) (.groupOutput groupId)
  | absentGroup {groupId} (h : groupId ∉ names.groups) :
      SourcePair (.groupOutput groupId) (.missingGroupOutput groupId)
  | missingGroup {groupId} : SourcePair (.missingGroupOutput groupId) (.missingGroupOutput groupId)
  | cleanProgram : SourcePair .cleanProgram .cleanProgram
  | gestureCanvas : SourcePair .gestureCanvas .gestureCanvas
  | programTap : SourcePair .programTap .programTap

inductive InputPair : SavedImageInput → ImageInput → Prop
  | layer (i : names.Index) {stage} :
      InputPair (.selectedLayer (names.position i) stage) (.selectedLayer (names.layer i) stage)
  | absent {position stage} (h : names.layers.length ≤ position.val) :
      InputPair (.selectedLayer position stage) (.missingSelectedLayer position stage)
  | missing {position stage} : InputPair (.missingSelectedLayer position stage)
      (.missingSelectedLayer position stage)
  | oneBelow : InputPair .oneBelow .oneBelow
  | allBelow : InputPair .allBelow .allBelow
  | cleanProgram : InputPair .cleanProgram .cleanProgram
  | programHistory : InputPair .programHistory .programHistory
  | group {groupId} : InputPair (.groupOutput groupId) (.groupOutput groupId)
  | missingGroup {groupId} : InputPair (.missingGroupOutput groupId) (.missingGroupOutput groupId)

variable {names} {position : SavedLayerPosition} {layerId : StableLayerId}

theorem GraphNames.positionOf_eq_some (h : names.positionOf layerId = some position) :
    ∃ i, names.position i = position ∧ names.layer i = layerId := by
  unfold positionOf at h
  split at h
  case isTrue hmem =>
    cases h
    refine ⟨_, rfl, ?_⟩
    simp [layer]
  case isFalse => cases h

theorem GraphNames.positionOf_eq_none (h : names.positionOf layerId = none) :
    layerId ∉ names.layers := by
  intro hmem
  rw [positionOf, dif_pos hmem] at h
  cases h

theorem GraphNames.layerAt_eq_some (h : names.layerAt position = some layerId) :
    ∃ i, names.position i = position ∧ names.layer i = layerId := by
  obtain ⟨hlt, rfl⟩ := List.getElem?_eq_some_iff.mp h
  exact ⟨⟨position.val, hlt⟩, rfl, rfl⟩

theorem GraphNames.layerAt_eq_none (h : names.layerAt position = none) :
    names.layers.length ≤ position.val :=
  getElem?_eq_none_iff.mp h

open GraphNames

theorem TapPair.sourcePair (pair : TapPair names) :
    SourcePair names pair.1.1.source pair.1.2.source ∧ pair.1.1.timing = pair.1.2.timing := by
  obtain ⟨⟨saved, live⟩, hpair⟩ := pair
  dsimp only at hpair ⊢
  rcases hpair with rfl | rfl
  · refine ⟨?_, rfl⟩
    obtain ⟨source, timing⟩ := live
    cases source with
    | selectedLayer layerId savedPosition stage =>
      simp only [ResolvedImageTap.toSaved]
      cases hpos : names.positionOf layerId with
      | none => exact .lost (positionOf_eq_none hpos)
      | some position =>
        obtain ⟨i, rfl, rfl⟩ := positionOf_eq_some hpos
        exact .layer i
    | missingSelectedLayer savedPosition stage | missingGroupOutput groupId
    | groupOutput groupId | oneBelow | allBelow | cleanProgram | gestureCanvas
    | programTap => constructor
  · refine ⟨?_, rfl⟩
    obtain ⟨source, timing⟩ := saved
    cases source with
    | selectedLayer position stage =>
      simp only [SavedImageTap.toRuntime]
      cases hlayer : names.layerAt position with
      | none => exact .absent (layerAt_eq_none hlayer)
      | some layerId =>
        obtain ⟨i, rfl, rfl⟩ := layerAt_eq_some hlayer
        exact .layer i
    | groupOutput groupId =>
      simp only [SavedImageTap.toRuntime]
      by_cases hgrp : groupId ∈ names.groups
      · simp only [groupExists, hgrp, decide_true, if_true]
        exact .group
      · simp only [groupExists, hgrp, decide_false]
        exact .absentGroup hgrp
    | missingSelectedLayer savedPosition stage | missingGroupOutput groupId
    | oneBelow | allBelow | cleanProgram | gestureCanvas
    | programTap => constructor

variable {matte : LayerMatte ImageInput}

variable (names) in
theorem LayerMatte.captured_cases (h : matte.sanitized.isActive) :
    ((matte.captured names.positionOf).isActive ∧
      InputPair names (matte.captured names.positionOf).input matte.input) ∨
    (¬(matte.captured names.positionOf).isActive ∧
      ∃ layerId stage, matte.input = .selectedLayer layerId stage ∧ layerId ∉ names.layers) := by
  obtain ⟨enabled, input, amount⟩ := matte
  cases input with
  | selectedLayer layerId stage =>
    cases hpos : names.positionOf layerId with
    | none =>
      right
      simp only [captured, fromRuntime, sanitized, savedInput, hpos, bind, Except.bind]
      exact ⟨by simp [isActive], layerId, stage, rfl, positionOf_eq_none hpos⟩
    | some position =>
      left
      obtain ⟨i, rfl, rfl⟩ := positionOf_eq_some hpos
      simp only [captured, fromRuntime, sanitized, savedInput, hpos,
        bind, Except.bind, pure, Except.pure]
      exact ⟨h, .layer i⟩
  | missingSelectedLayer savedPosition stage | missingGroupOutput groupId
  | groupOutput groupId | oneBelow | allBelow | cleanProgram
  | programHistory => exact .inl ⟨h, by constructor⟩

theorem LayerMatte.isActive_of_captured (h : (matte.captured names.positionOf).isActive) :
    matte.sanitized.isActive := by
  unfold captured at h
  cases hsaved : matte.fromRuntime names.positionOf with
  | error diagnostic =>
    rw [hsaved] at h
    simp [isActive] at h
  | ok saved =>
    rw [hsaved] at h
    obtain ⟨input, -, heq⟩ := Checks.bind_ok.mp hsaved
    obtain rfl := Checks.pure_ok.mp heq
    exact h

variable (names) in
theorem LayerMatte.toRuntime_cases {matte : LayerMatte SavedImageInput}
    (hsan : matte.sanitized = matte) :
    ((matte.toRuntime names.layerAt).sanitized.isActive ↔ matte.isActive) ∧
      (matte.isActive → InputPair names matte.input (matte.toRuntime names.layerAt).input) := by
  obtain ⟨enabled, input, amount⟩ := matte
  have hamount : F32.finiteClamp amount 1 0 1 = amount := congrArg LayerMatte.amount hsan
  cases enabled with
  | false => simp [toRuntime, isActive, sanitized]
  | true =>
    refine ⟨?_, fun _ => ?_⟩
    · simp [toRuntime, isActive, sanitized, hamount]
    · cases input with
      | selectedLayer position stage =>
        simp only [toRuntime, sanitized]
        cases hlayer : names.layerAt position with
        | none => exact .absent (layerAt_eq_none hlayer)
        | some layerId =>
          obtain ⟨i, rfl, rfl⟩ := layerAt_eq_some hlayer
          exact .layer i
      | missingSelectedLayer savedPosition stage
      | missingGroupOutput groupId | groupOutput groupId | oneBelow | allBelow
      | cleanProgram | programHistory => constructor

theorem MattePair.of_saved (pair : MattePair names) (h : pair.1.1.isActive) :
    pair.1.2.sanitized.isActive ∧ InputPair names pair.1.1.input pair.1.2.input := by
  obtain ⟨⟨saved, live⟩, hpair⟩ := pair
  dsimp only at hpair h ⊢
  rcases hpair with rfl | ⟨hsan, rfl⟩
  · have hlive := LayerMatte.isActive_of_captured h
    rcases LayerMatte.captured_cases names hlive with hok | hlost
    · exact ⟨hlive, hok.2⟩
    · exact absurd h hlost.1
  · obtain ⟨hiff, hinp⟩ := LayerMatte.toRuntime_cases names hsan
    exact ⟨hiff.mpr h, hinp h⟩

theorem MattePair.of_live (pair : MattePair names) (h : pair.1.2.sanitized.isActive) :
    (pair.1.1.isActive ∧ InputPair names pair.1.1.input pair.1.2.input) ∨
      ∃ layerId stage, pair.1.2.input = .selectedLayer layerId stage ∧ layerId ∉ names.layers := by
  obtain ⟨⟨saved, live⟩, hpair⟩ := pair
  dsimp only at hpair h ⊢
  rcases hpair with rfl | ⟨hsan, rfl⟩
  · rcases LayerMatte.captured_cases names h with hok | hlost
    · exact .inl hok
    · exact .inr hlost.2
  · obtain ⟨hiff, hinp⟩ := LayerMatte.toRuntime_cases names hsan
    exact .inl ⟨hiff.mp h, hinp (hiff.mp h)⟩

variable {Body Body' : Type} {tree : Tree StableLayerId Body} {tree' : Tree StableLayerId Body'}

/-- The live name of a scope that the validator knows. -/
def Tree.liveScope (tree : Tree StableLayerId Body)
    (f : StableLayerId → StableLayerId) (scope : VisualScopeId) :
    Option VisualScopeId :=
  if scope ∈ tree.knownScopes then some (scope.rename f) else none

def Tree.liveDependency (tree : Tree StableLayerId Body)
    (f : StableLayerId → StableLayerId) (dependency : ImageDependency) :
    Option ImageDependency := do
  let consumer ← tree.liveScope f dependency.consumer
  let producer ← tree.liveScope f dependency.producer
  return ⟨consumer, producer, dependency.timing⟩

def Tree.liveOrdering (tree : Tree StableLayerId Body)
    (f : StableLayerId → StableLayerId) (edge : ImageOrderingEdge) :
    Option ImageOrderingEdge := do
  let producer ← tree.liveScope f edge.producer
  let consumer ← tree.liveScope f edge.consumer
  return ⟨producer, consumer⟩

def prefixOrdering (tree : Tree StableLayerId Body) (consumer : VisualScopeId) :
    Option CompositePrefix → List ImageOrderingEdge
  | none => []
  | some compositePrefix =>
    (tree.prefixScopes compositePrefix).map fun producer => ⟨producer, consumer⟩

/-- The composition of a show under the names of the validator, and under its
own. -/
structure NamesTrees (names : GraphNames) (tree : Tree StableLayerId Body)
    (tree' : Tree StableLayerId Body') : Prop
    extends Tree.Renames names.liveId tree tree' where
  layers : ∀ id, id ∈ tree.flattenedLayers ↔ ∃ i, validationId (names.position i) = id
  groups : tree.groupIds = names.groups

/-- What the saved walk adds for a request is what the live one resolves it
to. -/
structure Agrees (names : GraphNames) (tree : Tree StableLayerId Body)
    (tree' : Tree StableLayerId Body') (consumer : VisualScopeId) (timing : EdgeTiming)
    (added : CollectedEdges) (resolution : TapResolution) : Prop where
  dependencies : added.dependencies.filterMap (tree.liveDependency names.liveId) =
    imageDependency (consumer.rename names.liveId) timing resolution.dependencyProducer
  ordering : added.orderingEdges.filterMap (tree.liveOrdering names.liveId) =
    prefixOrdering tree' (consumer.rename names.liveId) resolution.constraint

section

variable {scope : VisualScopeId} {f : StableLayerId → StableLayerId} {layerId : StableLayerId}

theorem Tree.liveScope_of_known (h : scope ∈ tree.knownScopes) :
    tree.liveScope f scope = some (scope.rename f) :=
  if_pos h

theorem Tree.liveScope_of_unknown (h : scope ∉ tree.knownScopes) : tree.liveScope f scope = none :=
  if_neg h

theorem Tree.WellFormed.known_of_prefixFor (h : Tree.WellFormed tree)
    {compositePrefix : CompositePrefix}
    (hleads : tree.below.prefixFor scope = some compositePrefix) :
    scope ∈ tree.knownScopes := by
  rw [Tree.prefixFor_eq] at hleads
  obtain ⟨location, hloc, -⟩ := Option.map_eq_some_iff.mp hleads
  rcases h.locations_iff.mp hloc with hmem | ⟨rfl, -⟩
  · refine Tree.mem_knownScopes.mpr (.inl ?_)
    rw [← Tree.rootEntries_map_fst]
    exact mem_map_of_mem hmem
  · exact Tree.mem_knownScopes.mpr (.inr (.inl rfl))

theorem Tree.WellFormed.known_layer :
    .layer layerId ∈ tree.knownScopes ↔ layerId ∈ tree.flattenedLayers := by
  rw [Tree.mem_knownScopes, Tree.WellFormed.mem_rootWalk_layer]
  simp

theorem Tree.WellFormed.known_group (h : Tree.WellFormed tree) {groupId : GroupId} :
    .group groupId ∈ tree.knownScopes ↔ groupId ∈ tree.groupIds := by
  rw [Tree.mem_knownScopes, Tree.WellFormed.mem_rootWalk_group, h.rooted]
  simp

variable (h : NamesTrees names tree tree')

include h

theorem NamesTrees.layers' : layerId ∈ tree'.flattenedLayers ↔ layerId ∈ names.layers := by
  have heq := congrArg Tree.flattenedLayers h.same
  rw [Tree.flattenedLayers_rename, Tree.flattenedLayers_rename, map_id] at heq
  rw [heq, mem_map]
  constructor
  · rintro ⟨id, hid, rfl⟩
    obtain ⟨i, rfl⟩ := (h.layers id).mp hid
    rw [liveId_position]
    exact names.layer_mem i
  · intro hmem
    obtain ⟨i, rfl⟩ := names.exists_layer hmem
    exact ⟨_, (h.layers _).mpr ⟨i, rfl⟩, names.liveId_position i⟩

theorem NamesTrees.known_position (i : names.Index) :
    validationLayerScope (names.position i) ∈ tree.knownScopes :=
  Tree.WellFormed.known_layer.mpr ((h.layers _).mpr ⟨i, rfl⟩)

theorem NamesTrees.unknown_position {position : SavedLayerPosition}
    (hout : names.layers.length ≤ position.val) :
    validationLayerScope position ∉ tree.knownScopes := by
  intro hmem
  obtain ⟨i, hi⟩ := (h.layers _).mp (Tree.WellFormed.known_layer.mp hmem)
  obtain rfl := validationId_injective hi
  exact absurd i.isLt (Nat.not_lt.mpr hout)

end

section

variable {consumer producer : VisualScopeId} {timing : EdgeTiming} {resolution : TapResolution}

theorem Agrees.nothing (hprod : resolution.dependencyProducer = none)
    (hcon : resolution.constraint = none) :
    Agrees names tree tree' consumer timing .none resolution := by
  constructor
  · rw [hprod]
    rfl
  · rw [hcon]
    rfl

theorem Agrees.known (hcons : consumer ∈ tree.knownScopes) (hknown : producer ∈ tree.knownScopes)
    (hprod : resolution.dependencyProducer = some (producer.rename names.liveId))
    (hcon : resolution.constraint = none) :
    Agrees names tree tree' consumer timing (.one consumer producer timing)
      resolution := by
  constructor
  · rw [hprod]
    simp [CollectedEdges.one, Tree.liveDependency, Tree.liveScope_of_known hcons,
      Tree.liveScope_of_known hknown, imageDependency]
  · rw [hcon]
    rfl

theorem Agrees.unknown (hunknown : producer ∉ tree.knownScopes)
    (hprod : resolution.dependencyProducer = none) (hcon : resolution.constraint = none) :
    Agrees names tree tree' consumer timing (.one consumer producer timing)
      resolution := by
  constructor
  · rw [hprod]
    cases hscope : tree.liveScope names.liveId consumer <;>
      simp [CollectedEdges.one, Tree.liveDependency, hscope,
        Tree.liveScope_of_unknown hunknown, imageDependency]
  · rw [hcon]
    rfl

variable (h : NamesTrees names tree tree') (canvas program : Bool)
  {sampler : ImageTapConsumer} {compositePrefix : CompositePrefix}

include h

theorem NamesTrees.prefix_known {scope : VisualScopeId}
    (hmem : scope ∈ tree.prefixScopes compositePrefix) :
    scope ∈ tree.knownScopes :=
  Tree.mem_knownScopes.mpr (.inl (h.wellFormed.prefixScopes_subset hmem))

section

variable (hleads : tree.below.prefixFor consumer = some compositePrefix)
include hleads

theorem NamesTrees.lastInPrefix_eq :
    tree'.below.lastInPrefix compositePrefix =
      (tree.prefixScopes compositePrefix).getLast?.map (VisualScopeId.rename names.liveId) := by
  rw [Tree.lastInPrefix_eq (h.wellFormed'.prefixWithin
    (h.toRenames.prefixFor_eq hleads)), h.prefixScopes_eq, getLast?_map]

theorem NamesTrees.oneBelow_eq :
    tree'.below.oneBelow (consumer.rename names.liveId) =
      (tree.prefixScopes compositePrefix).getLast?.map (VisualScopeId.rename names.liveId) := by
  rw [← h.lastInPrefix_eq hleads, BelowTopology.oneBelow, h.toRenames.prefixFor_eq hleads]
  rfl

theorem NamesTrees.allBelow_agrees {last : VisualScopeId}
    (hlast : (tree.prefixScopes compositePrefix).getLast? = some last)
    (hprod : resolution.dependencyProducer = some (last.rename names.liveId))
    (hcon : resolution.constraint = if timing = .currentFrame then some compositePrefix else none) :
    Agrees names tree tree' consumer timing
      (.allBelow consumer (tree.prefixScopes compositePrefix) timing)
      resolution := by
  have hcons := h.wellFormed.known_of_prefixFor hleads
  have hknown := h.prefix_known (mem_of_getLast? hlast)
  rw [CollectedEdges.allBelow, hlast]
  constructor
  · rw [hprod]
    simp [Tree.liveDependency, Tree.liveScope_of_known hcons,
      Tree.liveScope_of_known hknown, imageDependency]
  · rw [hcon]
    cases timing with
    | previousFrame => rfl
    | currentFrame =>
      rw [if_pos rfl, if_pos rfl, prefixOrdering, h.prefixScopes_eq,
        map_map, filterMap_map, ← filterMap_eq_map]
      apply filterMap_congr
      intro scope hscope
      simp [Tree.liveOrdering, Tree.liveScope_of_known hcons,
        Tree.liveScope_of_known (h.prefix_known hscope)]

end

abbrev liveContext (tree' : Tree StableLayerId Body') (canvas program : Bool) : TapContext :=
  ⟨tree'.below, tree'.knownScopes, canvas, program⟩

omit h in
theorem belowFor_eq (hleads : tree.below.prefixFor consumer = some compositePrefix) :
    belowFor tree.belowTable consumer = .ok (tree.prefixScopes compositePrefix) := by
  rw [belowFor, Tree.belowTable, hleads]
  rfl

variable {stage : LayerImageStage} {saved : SavedImageInput}

theorem NamesTrees.layer_agrees (i : names.Index)
    (savedPosition : SavedLayerPosition) (hcons : consumer ∈ tree.knownScopes) :
    ∃ added resolution,
      savedTapEdges tree.belowTable consumer
        ⟨.selectedLayer (names.position i) stage, timing⟩ = .ok added ∧
      (liveContext tree' canvas program).resolve sampler
        (.rack ⟨.selectedLayer (names.layer i) savedPosition stage, timing⟩) = .ok resolution ∧
      Agrees names tree tree' consumer timing added resolution := by
  have hknown : VisualScopeId.layer (names.layer i) ∈ tree'.knownScopes :=
    Tree.WellFormed.known_layer.mpr (h.layers'.mpr (names.layer_mem i))
  have hname : (validationLayerScope (names.position i)).rename names.liveId =
      .layer (names.layer i) :=
    congrArg VisualScopeId.layer (names.liveId_position i)
  have hprod : Agrees names tree tree' consumer timing
      (.one consumer (validationLayerScope (names.position i)) timing)
      (.produced (.selectedLayer (names.layer i) stage) (.layer (names.layer i))) :=
    .known hcons (h.known_position i) (congrArg some hname.symm) rfl
  have hreso : (liveContext tree' canvas program).resolve sampler
      (.rack ⟨.selectedLayer (names.layer i) savedPosition stage, timing⟩) =
        if timing = .previousFrame ∨ stage = .postLocalEffects then
          .ok (.produced (.selectedLayer (names.layer i) stage) (.layer (names.layer i)))
        else .ok (.unproduced (.selectedLayer (names.layer i) stage)) :=
    if_pos hknown
  cases stage with
  | postLocalEffects => exact ⟨_, _, rfl, hreso.trans (if_pos (.inr rfl)), hprod⟩
  | preLocalEffects =>
    cases timing with
    | previousFrame => exact ⟨_, _, rfl, hreso.trans (if_pos (.inl rfl)), hprod⟩
    | currentFrame => exact ⟨_, _, rfl, hreso.trans (if_neg (by simp)), .nothing rfl rfl⟩

theorem NamesTrees.tap_agrees {saved : SavedImageTap} {live : ResolvedImageTap}
    (hleads : tree.below.prefixFor consumer = some compositePrefix)
    (hsampler : sampler.scope = consumer.rename names.liveId)
    (hpair : SourcePair names saved.source live.source) (htiming : saved.timing = live.timing) :
    ∃ added resolution,
      savedTapEdges tree.belowTable consumer saved = .ok added ∧
      (liveContext tree' canvas program).resolve sampler (.rack live) = .ok resolution ∧
      Agrees names tree tree' consumer live.timing added resolution := by
  obtain ⟨source, timing⟩ := saved
  obtain ⟨source', timing'⟩ := live
  dsimp only at hpair htiming
  obtain rfl := htiming
  have hcons := h.wellFormed.known_of_prefixFor hleads
  cases hpair with
  | @layer i savedPosition stage => exact h.layer_agrees canvas program i savedPosition hcons
  | lost hlost =>
    refine ⟨_, _, rfl, if_neg ?_, .nothing rfl rfl⟩
    rw [liveContext, Tree.WellFormed.known_layer, h.layers']
    exact hlost
  | @absent position stage hout =>
    have hunknown := h.unknown_position hout
    cases stage with
    | postLocalEffects => exact ⟨_, _, rfl, rfl, .unknown hunknown rfl rfl⟩
    | preLocalEffects =>
      cases timing with
      | currentFrame => exact ⟨_, _, rfl, rfl, .nothing rfl rfl⟩
      | previousFrame => exact ⟨_, _, rfl, rfl, .unknown hunknown rfl rfl⟩
  | missing | missingGroup => exact ⟨_, _, rfl, rfl, .nothing rfl rfl⟩
  | oneBelow =>
    have hone := h.oneBelow_eq hleads
    rw [← hsampler] at hone
    simp only [savedTapEdges, belowFor_eq hleads, resolve, route, ResolvedImageSource.route, hone]
    cases hlast : (tree.prefixScopes compositePrefix).getLast? with
    | none =>
      refine ⟨_, _, rfl, rfl, ?_⟩
      rw [CollectedEdges.oneBelow, hlast]
      exact .nothing rfl rfl
    | some last =>
      refine ⟨_, _, rfl, rfl, ?_⟩
      rw [CollectedEdges.oneBelow, hlast]
      exact .known hcons (h.prefix_known (mem_of_getLast? hlast)) rfl rfl
  | allBelow =>
    have hleading := h.toRenames.prefixFor_eq hleads
    rw [← hsampler] at hleading
    simp only [savedTapEdges, belowFor_eq hleads, resolve, route, ResolvedImageSource.route,
      hleading, h.lastInPrefix_eq hleads]
    cases hlast : (tree.prefixScopes compositePrefix).getLast? with
    | none =>
      refine ⟨_, _, rfl, rfl, ?_⟩
      rw [CollectedEdges.allBelow, hlast]
      exact .nothing rfl rfl
    | some last => exact ⟨_, _, rfl, rfl, h.allBelow_agrees hleads hlast rfl rfl⟩
  | @group groupId =>
    by_cases hgrp : groupId ∈ tree.groupIds
    · have hknown : VisualScopeId.group groupId ∈ tree.knownScopes :=
        h.wellFormed.known_group.mpr hgrp
      exact ⟨_, _, rfl, if_pos (h.toRenames.mem_knownScopes hknown), .known hcons hknown rfl rfl⟩
    · refine ⟨_, _, rfl, if_neg ?_, .unknown ?_ rfl rfl⟩
      · rw [h.wellFormed'.known_group, h.toRenames.groupIds_eq]
        exact hgrp
      · rw [h.wellFormed.known_group]
        exact hgrp
  | absentGroup hgrp =>
    refine ⟨_, _, rfl, rfl, .unknown ?_ rfl rfl⟩
    rw [h.wellFormed.known_group, h.groups]
    exact hgrp
  | cleanProgram =>
    have hprog : VisualScopeId.program ∈ tree.knownScopes :=
      Tree.mem_knownScopes.mpr (.inr (.inr rfl))
    cases timing with
    | currentFrame | previousFrame => exact ⟨_, _, rfl, rfl, .known hcons hprog rfl rfl⟩
  | gestureCanvas =>
    cases canvas with
    | false | true => exact ⟨_, _, rfl, rfl, .nothing rfl rfl⟩
  | programTap =>
    cases program with
    | false | true => exact ⟨_, _, rfl, rfl, .nothing rfl rfl⟩

omit h in
theorem InputPair.exists_tap {live : ImageInput} (hpair : InputPair names saved live)
    (hclean : live ≠ .cleanProgram) (hhist : live ≠ .programHistory) :
    ∃ source source', SourcePair names source source' ∧
      source'.route = live.route ∧
      ∀ below consumer, savedTapEdges below consumer ⟨source, .currentFrame⟩ =
        savedMatteEdges below consumer saved := by
  cases hpair with
  | @layer i stage =>
    exact ⟨_, .selectedLayer _ (names.position i) stage, .layer i, rfl,
      fun _ _ => by cases stage <;> rfl⟩
  | @absent _ stage hout =>
    exact ⟨.selectedLayer _ stage, .missingSelectedLayer _ stage, .absent hout,
      rfl, fun _ _ => by cases stage <;> rfl⟩
  | @missing _ stage => exact ⟨_, .missingSelectedLayer _ stage, .missing, rfl, fun _ _ => rfl⟩
  | oneBelow => exact ⟨_, _, .oneBelow, rfl, fun _ _ => rfl⟩
  | allBelow => exact ⟨_, _, .allBelow, rfl, fun _ _ => rfl⟩
  | group => exact ⟨_, _, .group, rfl, fun _ _ => rfl⟩
  | missingGroup => exact ⟨_, _, .missingGroup, rfl, fun _ _ => rfl⟩
  | cleanProgram => exact absurd rfl hclean
  | programHistory => exact absurd rfl hhist

theorem NamesTrees.matte_agrees {live : ImageInput} {diagnostic : ImageRouteDiagnostic}
    (hleads : tree.below.prefixFor consumer = some compositePrefix)
    (hsampler : sampler.scope = consumer.rename names.liveId) (hpair : InputPair names saved live)
    (hclean : live ≠ .cleanProgram) :
    ∃ added resolution,
      savedMatteEdges tree.belowTable consumer saved = .ok added ∧
      (liveContext tree' canvas program).resolve sampler
        (.legacyLayerMatte live diagnostic) = .ok resolution ∧
      Agrees names tree tree' consumer
        (PlannedImageTapOrigin.legacyLayerMatte live diagnostic).timing added
        resolution := by
  by_cases hhist : live = .programHistory
  · subst hhist
    cases hpair
    have hcons := h.wellFormed.known_of_prefixFor hleads
    have hprog : VisualScopeId.program ∈ tree.knownScopes :=
      Tree.mem_knownScopes.mpr (.inr (.inr rfl))
    by_cases hcold : diagnostic = .missing .programHistoryUninitialized
    · refine ⟨_, .history (some (.programHistoryUninitialized sampler)), rfl,
        ?_, .known hcons hprog rfl rfl⟩
      simp [resolve, route, hcold]
    · refine ⟨_, .history none, rfl, ?_, .known hcons hprog rfl rfl⟩
      simp [resolve, route, hcold, ImageInput.route]
  · obtain ⟨source, source', hsources, hroute, hedges⟩ := hpair.exists_tap hclean hhist
    have htimes : (⟨source, .currentFrame⟩ : SavedImageTap).timing =
        (⟨source', .currentFrame⟩ : ResolvedImageTap).timing := rfl
    obtain ⟨added, resolution, hadded, hreso, hagree⟩ :=
      h.tap_agrees canvas program hleads hsampler hsources htimes
    have htiming : (legacyLayerMatte live diagnostic).timing = .currentFrame := by
      cases live <;> first | rfl | exact absurd rfl hhist
    refine ⟨added, resolution, (hedges _ _).symm.trans hadded, ?_, ?_⟩
    · rw [← hreso]
      apply resolve_congr
      · simp [route, hhist, hroute]
      · exact htiming
      · cases live <;>
          simp_all [route, ImageInput.route]
    · rw [htiming]
      exact hagree

end

end CollideOScope.Composition
