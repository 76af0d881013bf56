import CollideOScope.Composition.GraphCoverage
import CollideOScope.Composition.GraphPlans

/-!
# The validator of a patch and the planner agree

A patch that is captured holds the saved graph of its show, and the validator of
the patch decides on that graph.  Two shows tell the limits of the agreement.
-/

namespace CollideOScope.Composition

open Nat Checks Relation List PatchState LiveShow

def VisualGraph.patch (graph : SavedGraph) (nextGroupId : ℕ)
    (busCrossfade : F32) (mixer : BusMixerState) : PatchState where
  masterRack := some graph.masterRack
  layers := graph.layers.map fun layer => ⟨some layer.rack, layer.matte⟩
  composition := some ⟨graph.tree, nextGroupId, busCrossfade, mixer⟩

theorem mapM_effectiveLayer {layers : List (GraphLayer SavedLayerPosition
      SavedImageTap SavedMotionDonor (LayerMatte SavedImageInput))} {first : ℕ}
    (hnames : layers.map (fun layer => layer.name.val) = range' first layers.length) :
    ((layers.map fun layer => SavedLayer.mk (some layer.rack)
      layer.matte).zipIdx first).mapM effectiveLayer = .ok layers := by
  induction layers generalizing first with
  | nil => rfl
  | cons layer rest ih =>
    rw [map_cons, length_cons, range'_succ, cons.injEq] at hnames
    obtain ⟨hname, hrest⟩ := hnames
    have hlayer : effectiveLayer (⟨some layer.rack, layer.matte⟩, first) = .ok layer := by
      subst hname
      unfold effectiveLayer savedPositionAt
      rw [dif_pos layer.name.property]
      rfl
    rw [map_cons, zipIdx_cons, mapM_cons]
    exact bind_ok.mpr ⟨layer, hlayer, bind_ok.mpr ⟨rest, ih hrest, rfl⟩⟩

theorem length_of_mapM {α β ε : Type} {f : α → Except ε β} {items : List α}
    {results : List β} (h : items.mapM f = .ok results) :
    results.length = items.length := by
  induction items generalizing results with
  | nil =>
    obtain rfl := pure_ok.mp h
    rfl
  | cons item rest ih =>
    rw [mapM_cons] at h
    obtain ⟨result, -, hrest⟩ := bind_ok.mp h
    obtain ⟨results', hresults, heq⟩ := bind_ok.mp hrest
    obtain rfl := pure_ok.mp heq
    rw [length_cons, length_cons, ih hresults]

namespace PairedGraph

variable {names : GraphNames} {paired : PairedGraph names}

variable (paired) in
theorem graph_patch (nextGroupId : ℕ) (busCrossfade : F32) (mixer : BusMixerState) :
    (paired.saved.patch nextGroupId busCrossfade mixer).graph = .ok paired.saved := by
  have hnames : paired.saved.layers.map (fun layer => layer.name.val) =
      range' 0 paired.saved.layers.length := by
    have hlen : paired.graph.layers.length = names.layers.length := by
      rw [← length_map (f := GraphLayer.name), paired.layer_names, length_finRange]
    have hmap : paired.saved.layers.map (fun layer => layer.name.val) =
        (paired.graph.layers.map GraphLayer.name).map fun i => i.val := by
      simp [saved, VisualGraph.rename, GraphNames.position]
    have hcnt : paired.saved.layers.length = names.layers.length := by
      rw [← hlen]
      exact length_map _
    rw [hmap, paired.layer_names, hcnt, map_coe_finRange_eq_range, range_eq_range']
  unfold PatchState.graph
  exact bind_ok.mpr ⟨_, mapM_effectiveLayer hnames, rfl⟩

variable {patch : PatchState} (hpatch : patch.graph = .ok paired.saved)
include hpatch

theorem validateVisualGraph_eq :
    patch.validateVisualGraph = (do let _ ← paired.saved.validate) := by
  have hlen : patch.layers.length ≤ maxCompositionLayers := by
    unfold PatchState.graph at hpatch
    obtain ⟨layers, hlays, hsaved⟩ := bind_ok.mp hpatch
    have hcnt : layers = paired.saved.layers := congrArg VisualGraph.layers (pure_ok.mp hsaved)
    have hitems := length_of_mapM hlays
    rw [length_zipIdx] at hitems
    rw [← hitems, hcnt]
    have hnames := congrArg length paired.layer_names
    rw [length_map, length_finRange] at hnames
    refine le_trans (le_of_eq ?_) names.layers_le
    rw [← hnames]
    exact length_map _
  unfold validateVisualGraph
  rw [if_neg fun hlarge => absurd hlarge.1 (not_lt.mpr hlen), hpatch]
  rfl

theorem validateVisualGraph_ok :
    patch.validateVisualGraph = .ok () ↔ ∃ plan, paired.saved.validate = .ok plan := by
  rw [validateVisualGraph_eq hpatch]
  cases paired.saved.validate with
  | error error => simp [bind, Except.bind]
  | ok plan => simp [bind, Except.bind, pure, Except.pure]

theorem validateVisualGraph_error {error : GraphRefusal} :
    patch.validateVisualGraph = .error error ↔ paired.saved.validate = .error error := by
  rw [validateVisualGraph_eq hpatch]
  cases paired.saved.validate with
  | error error => simp [bind, Except.bind]
  | ok plan => simp [bind, Except.bind, pure, Except.pure]

end PairedGraph

open PairedGraph

def firstLayer : StableLayerId := ⟨1, one_isIdentity⟩

def secondLayer : StableLayerId := ⟨2, two_isIdentity⟩

def thirdLayer : StableLayerId := ⟨3, three_isIdentity⟩

def onlyGroup : GroupId := ⟨1, one_isIdentity⟩

def plainGraph (names : GraphNames) (matte : names.Index → LayerMatte ImageInput)
    (tree : Tree names.Index (GroupBody ResolvedImageTap MotionDonor)) :
    VisualGraph names.Index ResolvedImageTap MotionDonor (LayerMatte ImageInput) where
  masterRack := .empty
  layers := (finRange _).map fun i => ⟨i, .empty, matte i⟩
  tree := tree

def plainBody : GroupBody ResolvedImageTap MotionDonor :=
  ⟨"pair", 1, .default, .empty, none, false, false, .program⟩

def maskedBy (input : ImageInput) : LayerMatte ImageInput := ⟨true, input, 1⟩

def unmasked : LayerMatte ImageInput := ⟨false, .oneBelow, 1⟩

theorem crossedLayers_nodup : [thirdLayer, secondLayer, firstLayer].Nodup := by
  decide

theorem crossedLayers_le : [thirdLayer, secondLayer, firstLayer].length ≤ maxCompositionLayers := by
  decide

def crossedNames : GraphNames :=
  ⟨[thirdLayer, secondLayer, firstLayer], [onlyGroup], crossedLayers_nodup, crossedLayers_le⟩

def crossedMatte (i : crossedNames.Index) : LayerMatte ImageInput :=
  match i.val with
  | 0 => maskedBy (.selectedLayer firstLayer .postLocalEffects)
  | 1 => maskedBy (.selectedLayer thirdLayer .postLocalEffects)
  | _ => unmasked

def crossedTree : Tree crossedNames.Index (GroupBody ResolvedImageTap MotionDonor) where
  groups := [⟨onlyGroup, (finRange _).drop 1, plainBody⟩]
  root := ((finRange _).take 1).map (fun i => .layer i .program) ++ [.group onlyGroup]

theorem crossedTree_wellFormed : crossedTree.WellFormed where
  groups_nodup := by decide
  keys_nodup := by decide
  layers_nodup := by decide
  rooted := fun groupId => Iff.rfl

theorem crossedTree_covers (i : crossedNames.Index) : i ∈ crossedTree.flattenedLayers := by
  revert i
  decide

variable {names : GraphNames}

theorem plainGraph_names (matte : names.Index → LayerMatte ImageInput)
    (tree : Tree names.Index (GroupBody ResolvedImageTap MotionDonor)) :
    (plainGraph names matte tree).layers.map GraphLayer.name = finRange names.layers.length := by
  simp [plainGraph, Function.comp_def]

theorem plainGraph_sanitized (matte : names.Index → LayerMatte ImageInput)
    {tree : Tree names.Index (GroupBody ResolvedImageTap MotionDonor)}
    (hgrps : ∀ group ∈ tree.groups, group.body.rack = .empty) :
    ∀ rack ∈ (plainGraph names matte tree).racks, rack.Sanitized := by
  intro rack hrack node hnode
  have hemp : rack = .empty := by
    rcases mem_cons.mp hrack with rfl | hrest
    · rfl
    · rcases mem_append.mp hrest with hlayer | hgrp
      · simp only [plainGraph, List.map_map, List.mem_map] at hlayer
        obtain ⟨i, -, rfl⟩ := hlayer
        rfl
      · obtain ⟨group, hmem, rfl⟩ := mem_map.mp hgrp
        exact hgrps group hmem
  rw [hemp] at hnode
  cases hnode

theorem crossed_sanitized :
    ∀ rack ∈ (plainGraph crossedNames crossedMatte crossedTree).racks, rack.Sanitized := by
  refine plainGraph_sanitized crossedMatte ?_
  intro group hgrp
  obtain rfl := mem_singleton.mp hgrp
  rfl

def crossedShow : PairedGraph crossedNames :=
  .ofIndex (plainGraph crossedNames crossedMatte crossedTree)
    crossedNames.capturedTap crossedNames.capturedDonor
    crossedNames.capturedMatte crossedTree_wellFormed (plainGraph_names _ _)
    crossedTree_covers rfl crossed_sanitized

/-- A frame of a show without a refresh garden. -/
def plainShow {names : GraphNames} (paired : PairedGraph names) : LiveShow :=
  ⟨paired.live, true, true, true, .none⟩

theorem plainShow_graph (paired : PairedGraph names) : (plainShow paired).graph = paired.live := rfl

def scopeStage : VisualScopeId → ℕ
  | .layer layerId => if layerId = firstLayer then 0 else if layerId = thirdLayer then 1 else 2
  | .group _ => 3
  | .master => 4
  | .program => 5

theorem scopeStage_layer (layerId : StableLayerId) : scopeStage (.layer layerId) ≤ 2 := by
  simp only [scopeStage]
  split_ifs <;> omega

theorem scopeStage_output (item : RootItem StableLayerId) : scopeStage item.output ≤ 3 := by
  cases item with
  | layer layerId bus => exact (scopeStage_layer layerId).trans (by omega)
  | group groupId => exact le_refl _

theorem acyclic_of_stages {R : VisualScopeId → VisualScopeId → Prop}
    (h : ∀ p x, R p x → scopeStage p < scopeStage x) (x : VisualScopeId) :
    ¬TransGen R x x := by
  intro hcycle
  have hlt := hcycle.lift scopeStage h
  rw [transGen_eq_self] at hlt
  exact lt_irrefl _ hlt

variable {s : CollectedTaps}

theorem LiveEdge.stage_lt {Body : Type} {tree : Tree StableLayerId Body}
    (hroutes : ∀ p x, toLex (p, x) ∈ s.routeEdges → scopeStage p < scopeStage x)
    (hconsumers : s.prefixConstraints.consumers = ∅) {p x : VisualScopeId}
    (hedge : LiveEdge tree s p x) : scopeStage p < scopeStage x := by
  cases hedge with
  | route hroute => exact hroutes _ _ hroute
  | member hgrp hmem => exact lt_succ_of_le (scopeStage_layer _)
  | output hout =>
    obtain ⟨item, -, rfl⟩ := mem_map.mp hout
    exact lt_succ_of_le (scopeStage_output item)
  | program => decide
  | below hcons hcont =>
    rw [hconsumers] at hcons
    exact absurd hcons (Finset.notMem_empty _)

theorem crossed_walk : ∃ all, crossedShow.walk (plainShow crossedShow)
      ((plainShow crossedShow).requests ++ (plainShow crossedShow).gardenRequests) = .ok all ∧
    all.dependencies = [⟨.layer thirdLayer, .layer firstLayer, .currentFrame⟩,
      ⟨.layer secondLayer, .layer thirdLayer, .currentFrame⟩] ∧
    all.routeEdges = {toLex (.layer firstLayer, .layer thirdLayer),
      toLex (.layer thirdLayer, .layer secondLayer)} ∧
    all.prefixConstraints.consumers = ∅ := by
  refine ⟨_, rfl, rfl, ?_, rfl⟩
  decide +kernel

theorem crossed_collect : ∃ scopes collected,
    crossedShow.saved.collect = .ok (scopes, collected) ∧
      scopes.length = 5 ∧ collected.dependencies.length = 2 ∧
      ∀ d ∈ collected.dependencies, d.producer ≠ .program := by
  refine ⟨_, _, rfl, rfl, rfl, ?_⟩
  decide +kernel

theorem crossed_groupCycle
    (hroutes : s.routeEdges = {toLex (.layer firstLayer, .layer thirdLayer),
      toLex (.layer thirdLayer, .layer secondLayer)}) :
    TransGen (Merged crossedShow.live.tree (LiveEdge crossedShow.live.tree s))
      (.layer thirdLayer) (.layer thirdLayer) := by
  have hthird : taskFor crossedShow.live.tree (.layer thirdLayer) =
      .layer thirdLayer := by decide +kernel
  have hfst : taskFor crossedShow.live.tree (.layer firstLayer) =
      .group onlyGroup := by decide +kernel
  have hsnd : taskFor crossedShow.live.tree (.layer secondLayer) =
      .group onlyGroup := by decide +kernel
  have hout : Merged crossedShow.live.tree (LiveEdge crossedShow.live.tree s)
      (.layer thirdLayer) (.group onlyGroup) := by
    refine ⟨by decide, _, _, .route ?_, hthird, hsnd⟩
    simp [hroutes]
  have hback : Merged crossedShow.live.tree (LiveEdge crossedShow.live.tree s)
      (.group onlyGroup) (.layer thirdLayer) := by
    refine ⟨by decide, _, _, .route ?_, hfst, hthird⟩
    simp [hroutes]
  exact (TransGen.single hout).tail hback

theorem crossed_clean : crossedShow.live.NoProgramMatte := by
  intro layer hlayer
  have hmattes : ∀ layer ∈ crossedShow.live.layers,
      layer.matte.input ≠ .cleanProgram := by decide +kernel
  exact fun _ => hmattes layer hlayer

theorem crossed_verdicts :
    (∃ plan, crossedShow.saved.validate = .ok plan) ∧
      ∃ tasks, (plainShow crossedShow).plan = some (.error (.atomicGroupCycle tasks)) := by
  obtain ⟨all, hall, hdeps, hroutes, hcons⟩ := crossed_walk
  have hwf := crossedShow.namesTrees.wellFormed'
  have hclimb : ∀ p x, toLex (p, x) ∈ all.routeEdges → scopeStage p < scopeStage x := by
    intro p x hedge
    rw [hroutes, Finset.mem_insert, Finset.mem_singleton] at hedge
    rcases hedge with hedge | hedge
    · obtain ⟨rfl, rfl⟩ := Prod.mk.inj (toLex_inj.mp hedge)
      decide
    · obtain ⟨rfl, rfl⟩ := Prod.mk.inj (toLex_inj.mp hedge)
      decide
  have hacyc : ∀ x, ¬TransGen (LiveEdge crossedShow.live.tree all) x x :=
    acyclic_of_stages fun p x hedge => LiveEdge.stage_lt hclimb hcons hedge
  have hvalid : ∃ plan, crossedShow.saved.validate = .ok plan := by
    obtain ⟨taps, htaps⟩ := exists_walk hall
    obtain ⟨collected, hcollect, hsaved⟩ :=
      exists_collect (plainShow_graph crossedShow) crossed_clean
    have hsame := sameEdges (plainShow_graph crossedShow)
      crossed_clean hsaved (collectTaps_gathers htaps)
    obtain ⟨scopes, collected', hcollect', hscopes, hlen, hprog⟩ := crossed_collect
    obtain ⟨rfl, rfl⟩ := Prod.mk.inj (Except.ok.inj (hcollect.symm.trans hcollect'))
    have hformed := formed hsaved fun d hd _ => hprog d hd
    rw [validate_eq hcollect]
    have hplan := (exists_plan_iff (hformed.plannable
      (hscopes.le.trans (by decide)) (hlen.le.trans (by decide)))).mpr
        (acyclic_saved hsame (collectTaps_gathers htaps) (collectTaps_gathers hall) hacyc)
    obtain ⟨plan, hplan⟩ := hplan
    exact ⟨plan, mapError_ok.mpr hplan⟩
  refine ⟨hvalid, ?_⟩
  obtain ⟨plan, hvalid⟩ := hvalid
  obtain ⟨hformed, -⟩ := sparse_formed (plainShow_graph crossedShow) crossed_clean hvalid hall
  have hscopes : (LiveShow.sparseScopes all.dependencies).length ≤ maxGraphScopes := by
    rw [LiveShow.sparseScopes, Finset.length_sort, hdeps]
    decide +kernel
  have hlen : all.dependencies.length ≤ maxPreviousImageTaps := by
    rw [hdeps]
    decide
  obtain ⟨sparse, hsparse⟩ := (exists_plan_iff
    (hformed.plannable hscopes hlen)).mpr (sparse_acyclic hall hacyc)
  rw [plan_eq (plainShow_graph crossedShow), hall]
  dsimp only [validateDependencies]
  rw [hsparse]
  obtain ⟨hwith, hpre⟩ := hwf.collectTaps_known
    (fun request hreq => (request_known (plainShow_graph crossedShow) hreq).1) hall
  rcases hwf.executionOrder_cases hwith hpre with
    ⟨-, -, x, hcycle⟩ | ⟨tasks, hrun, -⟩ | ⟨scopes, tasks, -, hsort⟩
  · exact absurd hcycle (hacyc x)
  · exact ⟨tasks, hrun⟩
  · exact absurd (crossed_groupCycle hroutes) (hsort.tasks_ordersBy.acyclic _)
theorem cleanLayers_nodup : [secondLayer, firstLayer].Nodup := by
  decide

theorem cleanLayers_le : [secondLayer, firstLayer].length ≤ maxCompositionLayers := by
  decide

def cleanNames : GraphNames := ⟨[secondLayer, firstLayer], [], cleanLayers_nodup, cleanLayers_le⟩

/-- One layer is masked by the program, the other by a group that the show does
not have. -/
def cleanMatte (i : cleanNames.Index) : LayerMatte ImageInput :=
  match i.val with
  | 0 => maskedBy .cleanProgram
  | _ => maskedBy (.groupOutput onlyGroup)

def cleanTree : Tree cleanNames.Index (GroupBody ResolvedImageTap MotionDonor) where
  groups := []
  root := (finRange _).map fun i => .layer i .program

theorem cleanTree_wellFormed : cleanTree.WellFormed where
  groups_nodup := by decide
  keys_nodup := by decide
  layers_nodup := by decide
  rooted := fun groupId => Iff.rfl

theorem cleanTree_covers (i : cleanNames.Index) : i ∈ cleanTree.flattenedLayers := by
  revert i
  decide

theorem clean_sanitized :
    ∀ rack ∈ (plainGraph cleanNames cleanMatte cleanTree).racks, rack.Sanitized := by
  refine plainGraph_sanitized cleanMatte ?_
  intro group hgrp
  cases hgrp

def cleanShow : PairedGraph cleanNames :=
  .ofIndex (plainGraph cleanNames cleanMatte cleanTree)
    cleanNames.capturedTap cleanNames.capturedDonor cleanNames.capturedMatte
    cleanTree_wellFormed (plainGraph_names _ _) cleanTree_covers rfl
    clean_sanitized

theorem clean_walk : ∃ all, cleanShow.walk (plainShow cleanShow)
      ((plainShow cleanShow).requests ++ (plainShow cleanShow).gardenRequests) = .ok all ∧
    all.dependencies = [] ∧ all.routeEdges = ∅ ∧
    all.prefixConstraints.consumers = ∅ := by
  refine ⟨_, rfl, rfl, ?_, rfl⟩
  decide +kernel

theorem taskFor_cleanShow (scope : VisualScopeId) : taskFor cleanShow.live.tree scope = scope := by
  cases scope <;> rfl

theorem clean_plans : ∃ order, (plainShow cleanShow).plan = some (.ok order) := by
  obtain ⟨all, hall, hdeps, hroutes, hcons⟩ := clean_walk
  have hwf := cleanShow.namesTrees.wellFormed'
  have hclimb : ∀ p x, LiveEdge cleanShow.live.tree all p x → scopeStage p < scopeStage x := by
    intro p x hedge
    refine LiveEdge.stage_lt ?_ hcons hedge
    intro p x hroute
    rw [hroutes] at hroute
    exact absurd hroute (Finset.notMem_empty _)
  have hformed : Formed (LiveShow.sparseScopes all.dependencies) all.dependencies [] := by
    rw [hdeps]
    constructor <;> simp [LiveShow.sparseScopes]
  have hscopes : (LiveShow.sparseScopes all.dependencies).length ≤ maxGraphScopes := by
    rw [LiveShow.sparseScopes, Finset.length_sort, hdeps]
    decide
  obtain ⟨sparse, hsparse⟩ := (exists_plan_iff
    (hformed.plannable hscopes (by rw [hdeps]; decide))).mpr
      (sparse_acyclic hall (acyclic_of_stages hclimb))
  rw [plan_eq (plainShow_graph cleanShow), hall]
  dsimp only [validateDependencies]
  rw [hsparse]
  obtain ⟨hwith, hpre⟩ := hwf.collectTaps_known
    (fun request hreq => (request_known (plainShow_graph cleanShow) hreq).1) hall
  rcases hwf.executionOrder_cases hwith hpre with
    ⟨-, -, x, hcycle⟩ | ⟨-, -, -, t, hcycle⟩ | ⟨scopes, tasks, hrun, -⟩
  · exact absurd hcycle (acyclic_of_stages hclimb x)
  · refine absurd hcycle (acyclic_of_stages ?_ t)
    rintro p x ⟨-, p', x', hedge, rfl, rfl⟩
    rw [taskFor_cleanShow, taskFor_cleanShow]
    exact hclimb p' x' hedge
  · exact ⟨_, hrun⟩

theorem clean_refused : cleanShow.saved.validate =
    .error (.graph (.currentProgramInput (.layer firstLayer))) := by
  rfl

theorem clean_collect : ∃ scopes collected,
    cleanShow.saved.collect = .ok (scopes, collected) ∧
      ⟨.layer secondLayer, .group onlyGroup, .currentFrame⟩ ∈ collected.dependencies := by
  exact ⟨_, _, rfl, mem_cons_of_mem _ mem_cons_self⟩

end CollideOScope.Composition
