import CollideOScope.Composition.PairedGraphs

/-!
# The requests of a show

The saved walk and the live walk go over the same racks and mattes, in different
orders.  Each request of the one is a request of the other under its own names,
but for the matte of a layer whose donor is lost: no capture keeps it.
-/

namespace CollideOScope.Composition

open List F32 ImageMatte GraphLayer LiveShow

variable {T T' D D' : Type}

def VisualRack.Sanitized (rack : VisualRack T D) : Prop :=
  ∀ node ∈ rack.nodes, node.sanitized = node

theorem lt_zero_eq_not_le {wet : F32} (h : finiteClamp wet 1 0 1 = wet) : lt 0 wet = !le wet 0 := by
  have hrng : isRange 1 0 1 := by decide +kernel
  have hwith := (finiteClamp_within hrng wet).1
  rw [h] at hwith
  simp only [le, Bool.and_eq_true, Bool.not_eq_true'] at hwith
  have hzero : isNan 0 = false := hwith.1.1
  have hwet : wet.isNan = false := hwith.1.2
  by_cases hkey : key 0 < wet.key
  · simp [lt, le, hzero, hwet, hkey]
  · simp [lt, le, hzero, hwet, hkey, not_lt.mp hkey]

theorem savedRoutes_eq {rack : VisualRack T D} (h : rack.Sanitized) :
    savedRoutes rack = (liveRoutes rack).map fun route => route.2.2 := by
  unfold savedRoutes liveRoutes
  rw [map_flatMap]
  have hfilter : (rack.nodes.filter fun node =>
      node.enabled && lt 0 node.wet) =
        rack.nodes.filter fun node => !(!node.enabled || le node.wet 0) := by
    apply filter_congr
    intro node hnode
    rw [lt_zero_eq_not_le (congrArg VisualNode.wet (h node hnode))]
    simp
  rw [hfilter]
  apply flatMap_congr
  intro node _
  simp

variable (f : T → T')

theorem savedRoutes_mapRoutes (g : D → D') (rack : VisualRack T D) :
    savedRoutes (rack.mapRoutes f g) = (savedRoutes rack).map f := by
  unfold savedRoutes VisualRack.mapRoutes
  rw [filter_map, flatMap_map, map_flatMap]
  apply flatMap_congr
  intro node _
  simp [VisualNode.mapRoutes, NodeKind.admittedRoutes_mapRoutes]

theorem liveRoutes_mapRoutes (g : D → D') (rack : VisualRack T D) :
    liveRoutes (rack.mapRoutes f g) =
      (liveRoutes rack).map fun route => (route.1, route.2.1, f route.2.2) := by
  unfold liveRoutes VisualRack.mapRoutes
  rw [filter_map, flatMap_map, map_flatMap]
  apply flatMap_congr
  intro node _
  simp [VisualNode.mapRoutes, NodeKind.admittedRoutes_mapRoutes]

theorem activeMatte_mapRoutes (matte : Option (ImageMatte T)) :
    ((matte.map (mapRoutes f)).filter fun matte =>
      lt 0 matte.amount).toList =
        ((matte.filter fun matte => lt 0 matte.amount).toList).map (mapRoutes f) := by
  cases matte with
  | none => rfl
  | some matte =>
    by_cases hact : lt 0 matte.amount
    · simp [Option.filter, mapRoutes, hact]
    · simp [Option.filter, mapRoutes, hact]

def VisualGraph.racks {L T D M : Type} (graph : VisualGraph L T D M) : List (VisualRack T D) :=
  graph.masterRack :: graph.layers.map rack ++ graph.tree.groups.map fun group => group.body.rack

/-- A show whose composition has exactly its layers, with the routes of the
saved form and of the live form. -/
structure PairedGraph (names : GraphNames) where
  graph : VisualGraph names.Index (TapPair names) (DonorPair names) (MattePair names)
  wellFormed : graph.tree.WellFormed
  layer_names : graph.layers.map name = finRange names.layers.length
  covers : ∀ i, i ∈ graph.tree.flattenedLayers
  groups : graph.tree.groupIds = names.groups
  sanitized : ∀ rack ∈ graph.racks, rack.Sanitized

namespace PairedGraph

variable {names : GraphNames} (paired : PairedGraph names)

def saved : SavedGraph :=
  paired.graph.rename names.position (fun tap => tap.1.1)
    (fun donor => donor.1.1) fun matte => matte.1.1

def live : LiveGraph :=
  paired.graph.rename names.layer (fun tap => tap.1.2)
    (fun donor => donor.1.2) fun matte => matte.1.2

/-- The composition under the names of the validator. -/
def validated : Tree StableLayerId (GroupBody SavedImageTap SavedMotionDonor) :=
  paired.saved.tree.rename validationId id

open VisualGraph

theorem namesTrees : NamesTrees names paired.validated paired.live.tree where
  wellFormed := (paired.wellFormed.rename _ names.position_injective).rename _
    GraphNames.validationId_injective
  wellFormed' := paired.wellFormed.rename _ names.layer_injective
  same := by
    simp only [validated, saved, live, rename, Tree.rename_rename]
    congr 1
    funext i
    exact (names.liveId_position i).symm
  layers := by
    intro id
    simp only [validated, saved, rename, Tree.flattenedLayers_rename,
      mem_map, exists_exists_and_eq_and]
    exact ⟨fun ⟨i, _, hi⟩ => ⟨i, hi⟩, fun ⟨i, hi⟩ => ⟨i, paired.covers i, hi⟩⟩
  groups := by
    simp only [validated, saved, rename, Tree.groupIds_rename]
    exact paired.groups

inductive RequestPair (names : GraphNames) :
    VisualScopeId × SavedRequest → ImageTapConsumer × PlannedImageTapOrigin → Prop
  | tap {consumer sampler saved live}
      (hsampler : ImageTapConsumer.scope sampler = VisualScopeId.rename names.liveId consumer)
      (hpair : SourcePair names saved.source live.source)
      (htiming : saved.timing = live.timing) :
      RequestPair names (consumer, .tap saved) (sampler, .rack live)
  | matte {consumer sampler saved live diagnostic}
      (hsampler : ImageTapConsumer.scope sampler = VisualScopeId.rename names.liveId consumer)
      (hpair : InputPair names saved live) :
      RequestPair names (consumer, .layerMatte saved) (sampler, .legacyLayerMatte live diagnostic)

/-- The matte of a layer whose donor is lost, which no capture keeps. -/
def IsLost (names : GraphNames) (request : ImageTapConsumer × PlannedImageTapOrigin) : Prop :=
  ∃ layerId stage diagnostic,
    request.2 = .legacyLayerMatte (.selectedLayer layerId stage) diagnostic ∧ layerId ∉ names.layers

/-- Each request of the one walk is one of the other, lost mattes apart. -/
def SameRequests (names : GraphNames) (saved : List (VisualScopeId × SavedRequest))
    (live : List (ImageTapConsumer × PlannedImageTapOrigin)) : Prop :=
  (∀ q ∈ saved, ∃ request ∈ live, RequestPair names q request) ∧
    ∀ request ∈ live, (∃ q ∈ saved, RequestPair names q request) ∨ IsLost names request

namespace SameRequests

variable {saved saved' : List (VisualScopeId × SavedRequest)}
  {live live' : List (ImageTapConsumer × PlannedImageTapOrigin)} {α : Type} {items : List α}

theorem map {f : α → VisualScopeId × SavedRequest}
    {g : α → ImageTapConsumer × PlannedImageTapOrigin}
    (h : ∀ item, RequestPair names (f item) (g item)) :
    SameRequests names (items.map f) (items.map g) := by
  simp only [SameRequests, forall_mem_map]
  exact ⟨fun item hmem => ⟨_, mem_map_of_mem hmem, h item⟩,
    fun item hmem => .inl ⟨_, mem_map_of_mem hmem, h item⟩⟩

theorem flatMap {f : α → List (VisualScopeId × SavedRequest)}
    {g : α → List (ImageTapConsumer × PlannedImageTapOrigin)}
    (h : ∀ item ∈ items, SameRequests names (f item) (g item)) :
    SameRequests names (items.flatMap f) (items.flatMap g) := by
  simp only [SameRequests, mem_flatMap]
  constructor
  · rintro q ⟨item, hmem, hq⟩
    obtain ⟨request, hreq, hpair⟩ := (h item hmem).1 q hq
    exact ⟨request, ⟨item, hmem, hreq⟩, hpair⟩
  · rintro request ⟨item, hmem, hreq⟩
    exact ((h item hmem).2 request hreq).imp_left
      fun ⟨q, hq, hpair⟩ => ⟨q, ⟨item, hmem, hq⟩, hpair⟩

theorem append (h : SameRequests names saved live) (h' : SameRequests names saved' live') :
    SameRequests names (saved ++ saved') (live ++ live') := by
  have hpairs : ∀ first ∈ [true, false], SameRequests names
      (if first then saved else saved') (if first then live else live') := by
    simpa using ⟨h', h⟩
  simpa using flatMap hpairs

end SameRequests

variable {paired}

theorem rack_requests {rack : VisualRack (TapPair names) (DonorPair names)} (hsan : rack.Sanitized)
    {consumer scope : VisualScopeId} (hscope : scope = consumer.rename names.liveId)
    {f : DonorPair names → SavedMotionDonor} {g : DonorPair names → MotionDonor} :
    SameRequests names
      ((savedRoutes (rack.mapRoutes (fun tap => tap.1.1) f)).map
        fun tap => (consumer, .tap tap))
      (liveRackRequests scope (rack.mapRoutes (fun tap => tap.1.2) g)) := by
  unfold liveRackRequests
  rw [savedRoutes_mapRoutes, liveRoutes_mapRoutes, savedRoutes_eq hsan, map_map, map_map, map_map]
  apply SameRequests.map
  intro route
  obtain ⟨hsrc, htiming⟩ := TapPair.sourcePair route.2.2
  exact .tap hscope hsrc htiming

abbrev savedLayer (layer : GraphLayer names.Index (TapPair names)
    (DonorPair names) (MattePair names)) :
    GraphLayer SavedLayerPosition SavedImageTap SavedMotionDonor (LayerMatte SavedImageInput) :=
  ⟨names.position layer.name, layer.rack.mapRoutes (fun tap => tap.1.1)
    fun donor => donor.1.1, layer.matte.1.1⟩

abbrev liveLayer (layer : GraphLayer names.Index (TapPair names)
    (DonorPair names) (MattePair names)) :
    GraphLayer StableLayerId ResolvedImageTap MotionDonor (LayerMatte ImageInput) :=
  ⟨names.layer layer.name, layer.rack.mapRoutes (fun tap => tap.1.2)
    fun donor => donor.1.2, layer.matte.1.2⟩

abbrev savedGroup (group : Group names.Index
    (GroupBody (TapPair names) (DonorPair names))) :
    Group SavedLayerPosition (GroupBody SavedImageTap SavedMotionDonor) :=
  group.rename names.position (GroupBody.mapRoutes (fun tap => tap.1.1)
    fun donor => donor.1.1)

abbrev liveGroup (group : Group names.Index
    (GroupBody (TapPair names) (DonorPair names))) :
    Group StableLayerId (GroupBody ResolvedImageTap MotionDonor) :=
  group.rename names.layer (GroupBody.mapRoutes (fun tap => tap.1.2)
    fun donor => donor.1.2)

variable {layer : GraphLayer names.Index (TapPair names) (DonorPair names) (MattePair names)}

theorem layer_requests (show' : LiveShow) (hsan : layer.rack.Sanitized) :
    SameRequests names (savedLayerRequests (savedLayer layer))
      (show'.layerRequests (liveLayer layer)) := by
  have hname : VisualScopeId.layer (names.layer layer.name) =
      (validationLayerScope (names.position layer.name)).rename names.liveId :=
    congrArg VisualScopeId.layer (names.liveId_position layer.name).symm
  refine (rack_requests hsan hname).append ⟨?_, ?_⟩
  · intro q hq
    split at hq
    case isTrue hactive =>
      obtain rfl := mem_singleton.mp hq
      obtain ⟨hlive, hinp⟩ := MattePair.of_saved layer.matte hactive
      rw [if_pos hlive]
      exact ⟨_, mem_singleton_self _, .matte hname hinp⟩
    case isFalse => cases hq
  · intro request hreq
    split at hreq
    case isTrue hactive =>
      obtain rfl := mem_singleton.mp hreq
      rcases MattePair.of_live layer.matte hactive with
        ⟨hsaved, hinp⟩ | ⟨layerId, stage, hinp, hout⟩
      · rw [if_pos hsaved]
        exact .inl ⟨_, mem_singleton_self _, .matte hname hinp⟩
      · exact .inr ⟨layerId, stage, matteDiagnostic layer.matte.1.2.sanitized
          show'.programHistoryInitialized, congrArg (fun input =>
            PlannedImageTapOrigin.legacyLayerMatte input _) hinp, hout⟩
    case isFalse => cases hreq

variable {group : Group names.Index (GroupBody (TapPair names) (DonorPair names))}

theorem group_requests (hsan : group.body.rack.Sanitized) :
    SameRequests names (savedGroupRequests (savedGroup group))
      (groupRequests (liveGroup group)) := by
  by_cases hbypass : group.body.bypass
  · have hnone : savedGroupRequests (savedGroup group) = [] := if_pos hbypass
    have hnone' : groupRequests (liveGroup group) = [] := if_pos hbypass
    rw [hnone, hnone']
    simp [SameRequests]
  · have hsome : savedGroupRequests (savedGroup group) = _ := if_neg hbypass
    have hsome' : groupRequests (liveGroup group) = _ := if_neg hbypass
    rw [hsome, hsome', map_append]
    refine (rack_requests hsan rfl).append ?_
    simp only [savedGroup, liveGroup, Group.rename, GroupBody.mapRoutes,
      activeMatte_mapRoutes, map_map]
    apply SameRequests.map
    intro matte
    obtain ⟨hsrc, htiming⟩ := TapPair.sourcePair matte.tap
    exact .tap rfl hsrc htiming

theorem find?_of_mem {α κ : Type} [DecidableEq κ] {key : α → κ} {items : List α}
    (hnd : (items.map key).Nodup) {item : α} (hitem : item ∈ items) :
    items.find? (fun other => key other = key item) = some item := by
  induction items with
  | nil => cases hitem
  | cons first rest ih =>
    rw [map_cons, nodup_cons] at hnd
    rcases mem_cons.mp hitem with rfl | hrest
    · rw [find?_cons_of_pos (by simp)]
    · rw [find?_cons_of_neg]
      · exact ih hnd.2 hrest
      · simp only [decide_eq_true_eq]
        intro heq
        exact hnd.1 (heq ▸ mem_map_of_mem hrest)

variable {show' : LiveShow}

theorem mem_requests (hshow : show'.graph = paired.live)
    {request : ImageTapConsumer × PlannedImageTapOrigin} :
    request ∈ show'.requests ↔
      request ∈ liveRackRequests .master paired.live.masterRack ∨
      (∃ layer ∈ paired.graph.layers, request ∈ show'.layerRequests (liveLayer layer)) ∨
      ∃ group ∈ paired.graph.tree.groups, request ∈ groupRequests (liveGroup group) := by
  have hlays : show'.graph.layers = paired.graph.layers.map liveLayer := by
    rw [hshow]
    rfl
  have hnames : ((paired.graph.layers.map liveLayer).map name).Nodup := by
    rw [map_map]
    have hcomp : name ∘ @liveLayer names = names.layer ∘ name := rfl
    rw [hcomp, ← map_map, paired.layer_names]
    exact (nodup_finRange _).map names.layer_injective
  have hlayer : request ∈ (show'.graph.tree.flattenedLayers.flatMap
      fun layerId => (show'.graph.layers.find? fun layer =>
        layer.name = layerId).toList.flatMap show'.layerRequests) ↔
      ∃ layer ∈ paired.graph.layers, request ∈ show'.layerRequests (liveLayer layer) := by
    rw [hlays]
    simp only [mem_flatMap, Option.mem_toList]
    constructor
    · rintro ⟨layerId, -, found, hfound, hreq⟩
      obtain ⟨layer, hmem, rfl⟩ := mem_map.mp (mem_of_find?_eq_some hfound)
      exact ⟨layer, hmem, hreq⟩
    · rintro ⟨layer, hmem, hreq⟩
      refine ⟨names.layer layer.name, ?_, liveLayer layer,
        find?_of_mem hnames (mem_map_of_mem hmem), hreq⟩
      rw [hshow, paired.namesTrees.layers']
      exact names.layer_mem layer.name
  have hgrps : show'.graph.tree.groups = paired.graph.tree.groups.map liveGroup := by
    rw [hshow]
    rfl
  have hwf : show'.graph.tree.WellFormed := by
    rw [hshow]
    exact paired.namesTrees.wellFormed'
  have hgrp : request ∈ (show'.graph.tree.rootedGroups.flatMap
      fun groupId => (show'.graph.tree.group groupId).toList.flatMap groupRequests) ↔
      ∃ group ∈ paired.graph.tree.groups, request ∈ groupRequests (liveGroup group) := by
    simp only [mem_flatMap, Option.mem_toList, Tree.group]
    constructor
    · rintro ⟨groupId, -, found, hfound, hreq⟩
      have hfound' := mem_of_find?_eq_some hfound
      rw [hgrps] at hfound'
      obtain ⟨group, hmem, rfl⟩ := mem_map.mp hfound'
      exact ⟨group, hmem, hreq⟩
    · rintro ⟨group, hmem, hreq⟩
      have hin : liveGroup group ∈ show'.graph.tree.groups := by
        rw [hgrps]
        exact mem_map_of_mem hmem
      exact ⟨group.id, (hwf.rooted _).mpr (mem_map_of_mem hin), _,
        find?_of_mem hwf.groups_nodup hin, hreq⟩
  unfold requests
  rw [mem_append, mem_append, hlayer, hgrp, hshow]
  exact or_comm

theorem mem_savedRequests {q : VisualScopeId × SavedRequest} :
    q ∈ paired.saved.requests ↔
      q ∈ (savedRoutes paired.saved.masterRack).map
        (fun tap => (VisualScopeId.master, SavedRequest.tap tap)) ∨
      (∃ layer ∈ paired.graph.layers, q ∈ savedLayerRequests (savedLayer layer)) ∨
      ∃ group ∈ paired.graph.tree.groups, q ∈ savedGroupRequests (savedGroup group) := by
  simp [SavedGraph.requests, saved, rename, Tree.rename]

theorem master_sanitized : paired.graph.masterRack.Sanitized := paired.sanitized _ mem_cons_self

theorem layer_sanitized (h : layer ∈ paired.graph.layers) : layer.rack.Sanitized := by
  apply paired.sanitized
  simp only [racks, mem_cons, cons_append, mem_append, mem_map]
  exact .inr (.inl ⟨layer, h, rfl⟩)

theorem group_sanitized (h : group ∈ paired.graph.tree.groups) : group.body.rack.Sanitized := by
  apply paired.sanitized
  simp only [racks, mem_cons, cons_append, mem_append, mem_map]
  exact .inr (.inr ⟨group, h, rfl⟩)

theorem requests_pair (hshow : show'.graph = paired.live) :
    SameRequests names paired.saved.requests show'.requests := by
  have hpair := ((rack_requests paired.master_sanitized
    (show VisualScopeId.master = VisualScopeId.master.rename names.liveId from
      rfl) (f := fun donor => donor.1.1) (g := fun donor => donor.1.2)).append
      (.flatMap fun _ hlayer => layer_requests show' (paired.layer_sanitized hlayer))).append
      (.flatMap fun _ hgrp => group_requests (paired.group_sanitized hgrp))
  simp only [SameRequests, mem_append, mem_flatMap, or_assoc] at hpair
  simp only [SameRequests, mem_savedRequests, mem_requests hshow]
  exact hpair

end PairedGraph

end CollideOScope.Composition
