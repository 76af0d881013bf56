import CollideOScope.Composition.GraphOrders

/-!
# The validator and the planner agree

The validator accepts the saved form of a show when its edges have no cycle, and
then the first sort of the planner goes through.  The second sort asks for more:
no cycle among whole groups.  Conversely the validator accepts every show that
the planner runs, unless a count is past its limit.
-/

namespace CollideOScope.Composition

open Checks Relation List LiveShow

def CompositionPlanError.isCountLimit : CompositionPlanError → Bool
  | tooManyImageRoutes _ _ => true
  | imageGraph error => error.isCountLimit
  | currentCycle _ => false
  | atomicGroupCycle _ => false
  | internal _ => false

def CompositionPlanError.isGroupCycle : CompositionPlanError → Bool
  | atomicGroupCycle _ => true
  | tooManyImageRoutes _ _ => false
  | imageGraph _ => false
  | currentCycle _ => false
  | internal _ => false

section

variable {Body : Type} {tree : Tree StableLayerId Body}
  {consumer : VisualScopeId} {added : CollectedEdges}

/-- What a request adds ends at its consumer, and its ordering edges start
below. -/
def AddsTo (tree : Tree StableLayerId Body) (consumer : VisualScopeId)
    (added : CollectedEdges) : Prop :=
  (∀ d ∈ added.dependencies, d.consumer = consumer) ∧
    ∀ e ∈ added.orderingEdges, e.consumer = consumer ∧
      ∃ compositePrefix, e.producer ∈ tree.prefixScopes compositePrefix

theorem addsTo_none : AddsTo tree consumer .none := by
  constructor <;> simp [CollectedEdges.none]

theorem addsTo_one (producer : VisualScopeId) (timing : EdgeTiming) :
    AddsTo tree consumer (.one consumer producer timing) := by
  constructor <;> simp [CollectedEdges.one]

theorem addsTo_oneBelow (producers : List VisualScopeId) (timing : EdgeTiming) :
    AddsTo tree consumer (.oneBelow consumer producers timing) := by
  unfold CollectedEdges.oneBelow
  cases producers.getLast? with
  | none => exact addsTo_none
  | some producer => exact addsTo_one producer timing

theorem addsTo_allBelow (compositePrefix : CompositePrefix) (timing : EdgeTiming) :
    AddsTo tree consumer (.allBelow consumer (tree.prefixScopes compositePrefix) timing) := by
  unfold CollectedEdges.allBelow
  cases (tree.prefixScopes compositePrefix).getLast? with
  | none => exact addsTo_none
  | some representative =>
    constructor
    · simp
    · intro e he
      dsimp only at he
      split at he
      · obtain ⟨producer, hprod, rfl⟩ := mem_map.mp he
        exact ⟨rfl, compositePrefix, hprod⟩
      · cases he

theorem belowFor_ok {producers : List VisualScopeId}
    (h : belowFor tree.belowTable consumer = .ok producers) :
    ∃ compositePrefix, producers = tree.prefixScopes compositePrefix := by
  unfold belowFor Tree.belowTable at h
  cases hleads : tree.below.prefixFor consumer with
  | none =>
    rw [hleads] at h
    cases h
  | some compositePrefix =>
    rw [hleads] at h
    exact ⟨compositePrefix, (Except.ok.inj h).symm⟩

theorem savedTapEdges_addsTo {tap : SavedImageTap}
    (h : savedTapEdges tree.belowTable consumer tap = .ok added) :
    AddsTo tree consumer added := by
  obtain ⟨source, timing⟩ := tap
  cases source with
  | selectedLayer position stage =>
    cases stage with
    | postLocalEffects =>
      cases h
      exact addsTo_one _ _
    | preLocalEffects =>
      cases timing with
      | currentFrame =>
        cases h
        exact addsTo_none
      | previousFrame =>
        cases h
        exact addsTo_one _ _
  | oneBelow =>
    obtain ⟨producers, -, hadded⟩ := bind_ok.mp h
    obtain rfl := pure_ok.mp hadded
    exact addsTo_oneBelow _ _
  | allBelow =>
    obtain ⟨producers, hprods, hadded⟩ := bind_ok.mp h
    obtain ⟨compositePrefix, rfl⟩ := belowFor_ok hprods
    obtain rfl := pure_ok.mp hadded
    exact addsTo_allBelow _ _
  | groupOutput groupId | cleanProgram =>
    cases h
    exact addsTo_one _ _
  | missingSelectedLayer position stage | missingGroupOutput groupId
  | gestureCanvas | programTap =>
    cases h
    exact addsTo_none

theorem savedMatteEdges_addsTo {input : SavedImageInput}
    (h : savedMatteEdges tree.belowTable consumer input = .ok added) :
    AddsTo tree consumer added := by
  cases input with
  | selectedLayer position stage =>
    cases stage with
    | postLocalEffects =>
      cases h
      exact addsTo_one _ _
    | preLocalEffects =>
      cases h
      exact addsTo_none
  | oneBelow =>
    obtain ⟨producers, -, hadded⟩ := bind_ok.mp h
    obtain rfl := pure_ok.mp hadded
    exact addsTo_oneBelow _ _
  | allBelow =>
    obtain ⟨producers, hprods, hadded⟩ := bind_ok.mp h
    obtain ⟨compositePrefix, rfl⟩ := belowFor_ok hprods
    obtain rfl := pure_ok.mp hadded
    exact addsTo_allBelow _ _
  | programHistory | cleanProgram | groupOutput groupId =>
    cases h
    exact addsTo_one _ _
  | missingSelectedLayer position stage | missingGroupOutput groupId =>
    cases h
    exact addsTo_none

theorem savedRequestEdges_addsTo {request : SavedRequest}
    (h : savedRequestEdges tree.belowTable consumer request = .ok added) :
    AddsTo tree consumer added := by
  cases request with
  | tap tap => exact savedTapEdges_addsTo h
  | layerMatte input => exact savedMatteEdges_addsTo h

end

namespace PairedGraph

variable {names : GraphNames} {paired : PairedGraph names} {show' : LiveShow}
  {collected : CollectedEdges}

theorem formed (hsaved : SavedGathers paired.validated.belowTable
      paired.saved.requests
      (paired.validated.root.flatMap paired.validated.itemOrdering) collected)
    (hprog : ∀ d ∈ collected.dependencies, d.timing = .currentFrame → d.producer ≠ .program) :
    Formed (paired.validated.rootWalk ++ [.master]) collected.dependencies
      collected.orderingEdges := by
  have hwf := paired.namesTrees.wellFormed
  have hcons : ∀ q ∈ paired.saved.requests,
      q.1 ∈ Composition.knownScopes (paired.validated.rootWalk ++ [.master]) := by
    intro q hq
    obtain ⟨compositePrefix, hleads⟩ := request_located hq
    exact known_iff.mpr (hwf.known_of_prefixFor hleads)
  have hordering : ∀ e ∈ collected.orderingEdges,
      e.consumer ∈ Composition.knownScopes
        (paired.validated.rootWalk ++ [.master]) ∧ e.producer ≠ .program := by
    intro e he
    rcases (hsaved.orderingEdges e).mp he with hmember |
      ⟨q, hq, added, hadded, hmem⟩
    · obtain ⟨groupId, member, hin, rfl⟩ := hwf.mem_ordering.mp hmember
      refine ⟨known_iff.mpr (Tree.mem_knownScopes.mpr (.inl ?_)), by simp⟩
      exact Tree.output_mem_rootWalk (hwf.rooted_of_member hin)
    · obtain ⟨hend, compositePrefix, hprod⟩ := (savedRequestEdges_addsTo hadded).2 e hmem
      refine ⟨hend ▸ hcons q hq, ?_⟩
      exact (Tree.scopes_of_mem_rootWalk (hwf.prefixScopes_subset hprod)).2
  exact {
    nodup := nodup_concat hwf.rootWalk_nodup
      fun hmem => (Tree.scopes_of_mem_rootWalk hmem).1 rfl
    not_program := by
      simp only [mem_append, mem_singleton, reduceCtorEq, or_false]
      exact fun hmem => (Tree.scopes_of_mem_rootWalk hmem).2 rfl
    consumer_mem := by
      intro d hd
      obtain ⟨q, hq, added, hadded, hmem⟩ := (hsaved.dependencies d).mp hd
      exact (savedRequestEdges_addsTo hadded).1 d hmem ▸ hcons q hq
    ordering_mem := fun e he => (hordering e he).1
    producer_ne := hprog
    ordering_ne := fun e he => (hordering e he).2 }

abbrev walk (paired : PairedGraph names) (show' : LiveShow)
    (requests : List (ImageTapConsumer × PlannedImageTapOrigin)) :
    Except CompositionPlanError CollectedTaps :=
  collectTaps (liveContext paired.live.tree show'.gestureCanvasAdmitted
    show'.programTapAdmitted) requests

theorem collect_eq (hshow : show'.graph = paired.live)
    (requests : List (ImageTapConsumer × PlannedImageTapOrigin)) :
    show'.collect requests = paired.walk show' requests := by
  unfold collect
  rw [hshow, paired.namesTrees.wellFormed'.belowTopology_eq]
  rfl

theorem plan_eq (hshow : show'.graph = paired.live) :
    show'.plan =
      match paired.walk show' (show'.requests ++ show'.gardenRequests) with
      | .error error => some (.error error)
      | .ok all =>
        match validateDependencies (LiveShow.sparseScopes all.dependencies)
          all.dependencies .advanced with
        | .ok _ =>
          executionOrder paired.live.tree.knownScopes paired.live.tree
            paired.live.tree.below all.routeEdges all.prefixConstraints
        | .error error => some (.error (.imageGraph error)) := by
  unfold plan
  rw [collect_eq hshow, hshow, paired.namesTrees.wellFormed'.belowTopology_eq]
  cases paired.walk show' (show'.requests ++ show'.gardenRequests) with
  | error error | ok all => rfl

theorem exists_walk {all : CollectedTaps}
    (h : paired.walk show' (show'.requests ++ show'.gardenRequests) = .ok all) :
    ∃ taps, paired.walk show' show'.requests = .ok taps := by
  unfold walk collectTaps at h ⊢
  rw [foldlM_append] at h
  obtain ⟨taps, htaps, -⟩ := bind_ok.mp h
  exact ⟨taps, htaps⟩

variable {request : ImageTapConsumer × PlannedImageTapOrigin}

theorem scope_of_rackRequest {scope : VisualScopeId} {rack : RuntimeVisualRack}
    (h : request ∈ liveRackRequests scope rack) : request.1.scope = scope := by
  obtain ⟨route, -, rfl⟩ := mem_map.mp h
  rfl

theorem request_known (hshow : show'.graph = paired.live)
    (hreq : request ∈ show'.requests ++ show'.gardenRequests) :
    request.1.scope ∈ paired.live.tree.knownScopes ∧ request.1.scope ≠ .program := by
  have hmaster : VisualScopeId.master ∈ paired.live.tree.knownScopes ∧
      VisualScopeId.master ≠ .program :=
    ⟨Tree.mem_knownScopes.mpr (.inr (.inl rfl)), by simp⟩
  rcases mem_append.mp hreq with hin | hgarden
  · rcases (mem_requests hshow).mp hin with hrack | ⟨layer, -, hlayer⟩ |
      ⟨group, hmem, hgrp⟩
    · rw [scope_of_rackRequest hrack]
      exact hmaster
    · have hscope : request.1.scope = .layer (names.layer layer.name) := by
        rcases mem_append.mp hlayer with hrack | hmatte
        · exact scope_of_rackRequest hrack
        · split at hmatte
          · obtain rfl := mem_singleton.mp hmatte
            rfl
          · cases hmatte
      rw [hscope]
      exact ⟨Tree.WellFormed.known_layer.mpr
        (paired.namesTrees.layers'.mpr (names.layer_mem _)), by simp⟩
    · have hscope : request.1.scope = .group group.id := by
        unfold groupRequests at hgrp
        split at hgrp
        · cases hgrp
        · rcases mem_append.mp hgrp with hrack | hmatte
          · exact scope_of_rackRequest hrack
          · obtain ⟨matte, -, rfl⟩ := mem_map.mp hmatte
            rfl
      rw [hscope, paired.namesTrees.wellFormed'.known_group]
      have hgrps : paired.live.tree.groupIds = paired.graph.tree.groupIds :=
        Tree.groupIds_rename _ _ _
      rw [hgrps]
      exact ⟨mem_map_of_mem hmem, by simp⟩
  · rw [(@garden_resolves names paired show' request hgarden true true).1]
    exact hmaster

theorem request_resolves (hshow : show'.graph = paired.live) (hclean : paired.live.NoProgramMatte)
    (hreq : request ∈ show'.requests ++ show'.gardenRequests) (canvas program : Bool) :
    ∃ resolution, (liveContext paired.live.tree canvas program).resolve
      request.1 request.2 = .ok resolution := by
  rcases mem_append.mp hreq with hin | hgarden
  · rcases (requests_pair hshow).2 request hin with ⟨q, hq, hpair⟩ | hlost
    · obtain ⟨-, resolution, -, hreso, -⟩ := pair_agrees hpair hq
        (fun _ _ hmatte => request_clean hshow hclean hin hmatte) canvas program
      exact ⟨resolution, hreso⟩
    · obtain ⟨resolution, hreso, -⟩ := @lost_resolves names paired request hlost canvas program
      exact ⟨resolution, hreso⟩
  · obtain ⟨-, resolution, hreso, -⟩ :=
      @garden_resolves names paired show' request hgarden canvas program
    exact ⟨resolution, hreso⟩

theorem validate_eq (hcollect : paired.saved.collect =
      .ok (paired.validated.rootWalk ++ [.master], collected)) :
    paired.saved.validate =
      (validateWithOrderingEdges (paired.validated.rootWalk ++ [.master])
        collected.dependencies collected.orderingEdges .advanced).mapError
          .graph := by
  unfold SavedGraph.validate
  rw [hcollect]
  rfl

theorem mem_sparseScopes {dependencies : List ImageDependency} {x : VisualScopeId} :
    x ∈ LiveShow.sparseScopes dependencies ↔ ∃ d ∈ dependencies,
      x = d.consumer ∨ x = d.producer ∧ d.producer ≠ .program := by
  unfold LiveShow.sparseScopes
  rw [Finset.mem_sort, mem_toFinset, mem_flatMap]
  refine exists_congr fun d => and_congr_right fun _ => ?_
  rw [mem_cons]
  refine or_congr_right ?_
  split
  case isTrue hne => simp [hne]
  case isFalse heq => simp [heq]

section

variable (hshow : show'.graph = paired.live) (hclean : paired.live.NoProgramMatte)

include hshow hclean

theorem validates_of_plans {order : List VisualScopeId} (hplan : show'.plan = some (.ok order)) :
    (∃ plan, paired.saved.validate = .ok plan) ∨
      ∃ error, paired.saved.validate = .error (.graph error) ∧ error.isCountLimit := by
  have hwf := paired.namesTrees.wellFormed'
  rw [plan_eq hshow] at hplan
  split at hplan
  case h_1 => cases hplan
  case h_2 all hall =>
    split at hplan
    case h_2 => cases hplan
    case h_1 sparse hsparse =>
      obtain ⟨taps, htaps⟩ := exists_walk hall
      have hgather := collectTaps_gathers hall
      have hgather' := collectTaps_gathers htaps
      obtain ⟨collected, hcollect, hsaved⟩ := exists_collect hshow hclean
      have hsame := sameEdges hshow hclean hsaved hgather'
      have hprog : ∀ d ∈ collected.dependencies,
          d.timing = .currentFrame → d.producer ≠ .program := by
        intro d hd htiming hprod
        obtain ⟨q, hq, added, hadded, hmem⟩ := (hsaved.dependencies d).mp hd
        obtain ⟨compositePrefix, hleads⟩ := request_located hq
        have hcons := paired.namesTrees.wellFormed.known_of_prefixFor hleads
        rw [← (savedRequestEdges_addsTo hadded).1 d hmem] at hcons
        have hknown : d.producer ∈ paired.validated.knownScopes := by
          rw [hprod]
          exact Tree.mem_knownScopes.mpr (.inr (.inr rfl))
        have hlive := (hsame.dependencies _).mpr
          ⟨d, hd, liveDependency_eq_some.mpr ⟨hcons, hknown, rfl⟩⟩
        obtain ⟨request, hreq, hrest⟩ := hgather'.mem_dependencies.mp hlive
        have hin := hgather.mem_dependencies.mpr ⟨request, mem_append_left _ hreq, hrest⟩
        refine (plannable_of_ok hsparse).producer_ne _ hin htiming ?_
        rw [hprod]
        rfl
      have hsort : ∀ x, ¬TransGen (LiveEdge paired.live.tree all) x x := by
        obtain ⟨hroutes, hpre⟩ := hwf.collectTaps_known
          (fun request hreq => (request_known hshow hreq).1) hall
        rcases hwf.executionOrder_cases hroutes hpre with
          ⟨scopes, herr, -⟩ | ⟨tasks, herr, hacyc, -⟩ |
          ⟨scopes, tasks, -, hsort⟩
        · rw [herr] at hplan
          cases hplan
        · exact hacyc
        · exact hsort.scopes_ordersBy.acyclic
      rw [validate_eq hcollect]
      rcases (formed hsaved hprog).validate_cases (acyclic_saved hsame hgather' hgather hsort) with
        ⟨plan, hok⟩ | ⟨error, herr, hcnt⟩
      · exact .inl ⟨plan, mapError_ok.mpr hok⟩
      · refine .inr ⟨error, ?_, hcnt⟩
        rw [herr]
        rfl

variable {plan : ImageGraphPlan} {all : CollectedTaps}

theorem sparse_formed (hvalid : paired.saved.validate = .ok plan)
    (hall : paired.walk show' (show'.requests ++ show'.gardenRequests) = .ok all) :
    Formed (LiveShow.sparseScopes all.dependencies) all.dependencies [] ∧
      ∀ x, ¬TransGen (LiveEdge paired.live.tree all) x x := by
  obtain ⟨taps, htaps⟩ := exists_walk hall
  have hgather := collectTaps_gathers hall
  have hgather' := collectTaps_gathers htaps
  obtain ⟨collected, hcollect, hsaved⟩ := exists_collect hshow hclean
  have hsame := sameEdges hshow hclean hsaved hgather'
  rw [validate_eq hcollect, mapError_ok] at hvalid
  have hplan := plannable_of_ok hvalid
  refine ⟨?_, acyclic_live hsame hgather' hgather hplan.producer_ne
    ((exists_plan_iff hplan).mp ⟨plan, hvalid⟩)⟩
  exact {
    nodup := Finset.sort_nodup _ _
    not_program := by
      intro hin
      obtain ⟨d, hd, hcons | ⟨hprod, hne⟩⟩ := mem_sparseScopes.mp hin
      · obtain ⟨request, hreq, -, -, hscope, -⟩ := hgather.mem_dependencies.mp hd
        exact (request_known hshow hreq).2 (hscope.trans hcons.symm)
      · exact hne hprod.symm
    consumer_mem := by
      intro d hd
      exact Composition.mem_knownScopes.mpr (.inl (mem_sparseScopes.mpr ⟨d, hd, .inl rfl⟩))
    ordering_mem := by simp
    producer_ne := fun d hd htiming =>
      producer_ne_program hsame hgather' hgather hplan.producer_ne hd htiming
    ordering_ne := by simp }

omit hshow hclean in
theorem sparse_acyclic
    (hall : paired.walk show' (show'.requests ++ show'.gardenRequests) =
      .ok all) (hacyc : ∀ x, ¬TransGen (LiveEdge paired.live.tree all) x x)
    (x : VisualScopeId) :
    ¬TransGen (Precedes (LiveShow.sparseScopes all.dependencies) all.dependencies []) x x := by
  intro hcycle
  refine hacyc x (TransGen.mono ?_ _ _ hcycle)
  rintro p y ⟨-, -, ⟨d, hd, htiming, rfl, rfl⟩ | ⟨e, he, -⟩⟩
  · exact (collectTaps_gathers hall).liveEdge paired.namesTrees.wellFormed' hd htiming
  · cases he

theorem plans_of_validates (hvalid : paired.saved.validate = .ok plan) :
    (∃ order, show'.plan = some (.ok order)) ∨
      ∃ error, show'.plan = some (.error error) ∧ (error.isCountLimit ∨ error.isGroupCycle) := by
  have hwf := paired.namesTrees.wellFormed'
  rw [plan_eq hshow]
  rcases collectTaps_cases (fun request hreq =>
      request_resolves hshow hclean hreq show'.gestureCanvasAdmitted
        show'.programTapAdmitted) with ⟨all, hall⟩ | ⟨count, limit, herr⟩
  case inr =>
    right
    rw [walk, herr]
    exact ⟨_, rfl, .inl rfl⟩
  case inl =>
    have hwalk : paired.walk show' (show'.requests ++ show'.gardenRequests) = .ok all := hall
    obtain ⟨hformed, hacyc⟩ := sparse_formed hshow hclean hvalid hwalk
    rw [hwalk]
    dsimp only [validateDependencies]
    rcases hformed.validate_cases (sparse_acyclic hwalk hacyc) with
      ⟨sparse, hok⟩ | ⟨error, herr, hcnt⟩
    · rw [hok]
      obtain ⟨hroutes, hpre⟩ := hwf.collectTaps_known
        (fun request hreq => (request_known hshow hreq).1) hall
      rcases hwf.executionOrder_cases hroutes hpre with
        ⟨scopes, -, x, hcycle⟩ | ⟨tasks, herr, -⟩ | ⟨scopes, tasks, hrun, -⟩
      · exact absurd hcycle (hacyc x)
      · exact .inr ⟨_, herr, .inr rfl⟩
      · exact .inl ⟨_, hrun⟩
    · rw [herr]
      exact .inr ⟨_, rfl, .inl hcnt⟩

end

end PairedGraph

end CollideOScope.Composition
