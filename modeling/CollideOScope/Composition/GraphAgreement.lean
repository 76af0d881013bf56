import CollideOScope.Composition.PairedRequests

/-!
# The edges of a show

The edges that the validator collects from the saved form of a show are those
that the planner collects from the show, under other names.  An edge from a
scope that the composition lacks has no live name, and no layer may be masked by
the program of its own frame: the planner reads nothing there.
-/

namespace CollideOScope.Composition

open Function Checks List Except VisualScopeId

variable {Body : Type} {tree : Tree StableLayerId Body}

structure Gathers (context : TapContext)
    (requests : List (ImageTapConsumer × PlannedImageTapOrigin)) (s : CollectedTaps) : Prop where
  resolves : ∀ request ∈ requests,
    ∃ resolution, context.resolve request.1 request.2 = .ok resolution
  dependencies : ∀ d, d ∈ s.dependencies ↔ ∃ request ∈ requests,
    ∃ resolution, context.resolve request.1 request.2 = .ok resolution ∧
      d ∈ imageDependency request.1.scope request.2.timing resolution.dependencyProducer
  routes : ∀ edge, edge ∈ s.routeEdges ↔ ∃ request ∈ requests,
    ∃ resolution, context.resolve request.1 request.2 = .ok resolution ∧
      edge ∈ currentRoutes request.1.scope request.2.timing resolution.currentEdge
  constraints : ∀ x compositePrefix,
    s.prefixConstraints.get x = some compositePrefix ↔
      ∃ request ∈ requests,
      ∃ resolution, context.resolve request.1 request.2 = .ok resolution ∧
        request.1.scope = x ∧ resolution.constraint = some compositePrefix

variable {compositePrefix : CompositePrefix}

theorem PrefixConstraints.get_of_constrain {prefixes result : PrefixConstraints}
    {consumer x : VisualScopeId} {constraint : Option CompositePrefix}
    (h : prefixes.constrain consumer constraint = .ok result) :
    result.get x = some compositePrefix ↔
      prefixes.get x = some compositePrefix ∨ consumer = x ∧ constraint = some compositePrefix := by
  cases constraint with
  | none =>
    cases h
    simp
  | some added =>
    rw [constrain] at h
    split at h
    case isTrue => cases h
    case isFalse hfree =>
      cases h
      simp only [get, Finset.mem_insert]
      by_cases hx : x = consumer
      · subst hx
        simp only [true_or, if_true, update_self, true_and, Option.some.injEq]
        constructor
        · exact Or.inr
        · rintro (hold | hnew)
          · by_cases hmem : x ∈ prefixes.consumers
            · rw [if_pos hmem, Option.some.injEq] at hold
              rw [not_and, not_not] at hfree
              rw [← hold, hfree hmem]
            · rw [if_neg hmem] at hold
              cases hold
          · exact hnew
      · simp only [hx, false_or, update_of_ne hx, Ne.symm hx, false_and, or_false]

variable {context : TapContext}

variable {requests : List (ImageTapConsumer × PlannedImageTapOrigin)}

theorem collectTaps_gathers {s : CollectedTaps} (h : collectTaps context requests = .ok s) :
    Gathers context requests s := by
  induction requests using reverseRecOn generalizing s with
  | nil =>
    obtain rfl := pure_ok.mp h
    constructor <;> simp [CollectedTaps.empty, PrefixConstraints.empty, PrefixConstraints.get]
  | append_singleton requests request ih =>
    unfold collectTaps at h ih
    rw [foldlM_append] at h
    obtain ⟨t, hinit, hlast⟩ := bind_ok.mp h
    obtain ⟨u, hstep, hend⟩ := bind_ok.mp hlast
    obtain rfl := pure_ok.mp hend
    have hpre := ih hinit
    obtain ⟨consumer, origin⟩ := request
    obtain ⟨-, resolution, hreso, constrained, hconstrain, rfl⟩ := collectTap_ok.mp hstep
    constructor
    · intro request hreq
      rcases mem_append.mp hreq with hmem | hmem
      · exact hpre.resolves request hmem
      · obtain rfl := mem_singleton.mp hmem
        exact ⟨resolution, hreso⟩
    · intro d
      simp [hpre.dependencies, or_and_right, exists_or, hreso]
    · intro edge
      simp [hpre.routes, or_and_right, exists_or, hreso]
    · intro x compositePrefix
      rw [PrefixConstraints.get_of_constrain hconstrain, hpre.constraints]
      simp [or_and_right, exists_or, hreso]

variable {origin : PlannedImageTapOrigin} {consumer : ImageTapConsumer} {resolution : TapResolution}

open TapContext

theorem TapContext.constraint_eq (h : context.resolve consumer origin = .ok resolution)
    (hcon : resolution.constraint = some compositePrefix) :
    context.below.prefixFor consumer.scope = some compositePrefix ∧
      origin.timing = .currentFrame ∧
      context.below.lastInPrefix compositePrefix = resolution.dependencyProducer := by
  unfold resolve at h
  cases hroute : origin.route with
  | allBelow =>
    simp only [hroute] at h
    cases hleads : context.below.prefixFor consumer.scope with
    | none =>
      rw [hleads] at h
      cases h
    | some leads =>
      simp only [hleads] at h
      cases hlast : context.below.lastInPrefix leads with
      | none =>
        rw [hlast] at h
        cases h
        cases hcon
      | some producer =>
        rw [hlast] at h
        cases h
        by_cases hcur : origin.timing = .currentFrame
        · have hsome : leads = compositePrefix := by simpa [hcur] using hcon
          subst hsome
          exact ⟨rfl, hcur, hlast⟩
        · simp [hcur] at hcon
  | _ =>
    simp only [hroute] at h
    repeat' split at h
    all_goals
      cases h
      cases hcon

theorem TapContext.dependency_cases (h : context.resolve consumer origin = .ok resolution) :
    (∀ p, resolution.currentEdge = some p → resolution.dependencyProducer = some p) ∧
    ∀ p, origin.timing = .currentFrame →
      resolution.dependencyProducer = some p →
      resolution.currentEdge = some p ∨
        ∃ compositePrefix, resolution.constraint = some compositePrefix ∧
          context.below.lastInPrefix compositePrefix = some p := by
  have hunproduced : ∀ r : TapResolution, r.currentEdge = none →
      r.dependencyProducer = none →
      (∀ p, r.currentEdge = some p → r.dependencyProducer = some p) ∧
      ∀ p, origin.timing = .currentFrame → r.dependencyProducer = some p →
        r.currentEdge = some p ∨ ∃ compositePrefix,
          r.constraint = some compositePrefix ∧
            context.below.lastInPrefix compositePrefix = some p := by
    intro r hedge hprod
    rw [hedge, hprod]
    exact ⟨fun p hp => (by cases hp), fun p _ hp => (by cases hp)⟩
  cases resolves h with
  | layer hknown hstage | group hknown | oneBelow hbelow | program htiming =>
    exact ⟨fun p hp => hp, fun p _ hp => .inl hp⟩
  | allBelow hlast =>
    refine ⟨fun p hp => (by cases hp), ?_⟩
    intro p hcur hp
    rw [← hlast] at hp
    exact .inr ⟨_, if_pos hcur, hp⟩
  | history htiming =>
    refine ⟨fun p hp => (by cases hp), ?_⟩
    intro p hcur
    rw [htiming] at hcur
    cases hcur
  | preLocal htiming | gestureCanvas | programTap | transparent => exact hunproduced _ rfl rfl

theorem collectTaps_cases
    (hreso : ∀ request ∈ requests,
      ∃ resolution, context.resolve request.1 request.2 = .ok resolution) :
    (∃ s, collectTaps context requests = .ok s) ∨
      ∃ count limit, collectTaps context requests = .error (.tooManyImageRoutes count limit) := by
  induction requests using reverseRecOn with
  | nil => exact .inl ⟨_, rfl⟩
  | append_singleton requests request ih =>
    have hpre := ih fun other hother => hreso other (mem_append_left _ hother)
    obtain ⟨resolution, hlast⟩ :=
      hreso request (mem_append_right _ (mem_singleton_self _))
    unfold collectTaps at hpre ⊢
    rw [foldlM_append]
    rcases hpre with ⟨s, hs⟩ | ⟨count, limit, herr⟩
    · rw [hs]
      have hgathers := @collectTaps_gathers context requests s hs
      by_cases hfull : s.taps.length = maxTextureSamplesPerFrame
      · right
        refine ⟨s.taps.length + 1, maxTextureSamplesPerFrame, ?_⟩
        simp [bind, Except.bind, collectTap, hfull, throw, throwThe, MonadExceptOf.throw]
      · left
        have hconstrain : ∃ constrained, s.prefixConstraints.constrain
            request.1.scope resolution.constraint = .ok constrained := by
          cases hcon : resolution.constraint with
          | none => exact ⟨_, rfl⟩
          | some compositePrefix =>
            have hfree : ¬(request.1.scope ∈ s.prefixConstraints.consumers ∧
                s.prefixConstraints.prefixOf request.1.scope ≠ compositePrefix) := by
              rintro ⟨hmem, hne⟩
              obtain ⟨other, -, otherResolution, hother, hscope, hsome⟩ :=
                (hgathers.constraints _ _).mp (if_pos hmem)
              have hold := (constraint_eq hother hsome).1
              have hnew := (constraint_eq hlast hcon).1
              rw [hscope, hnew] at hold
              exact hne (Option.some.inj hold).symm
            exact ⟨_, if_neg hfree⟩
        obtain ⟨constrained, hconstrained⟩ := hconstrain
        obtain ⟨consumer, origin⟩ := request
        have hstep := collectTap_ok.mpr ⟨hfull, resolution, hlast, constrained, hconstrained, rfl⟩
        exact ⟨_, bind_ok.mpr ⟨s, rfl, bind_ok.mpr ⟨_, hstep, rfl⟩⟩⟩
    · right
      rw [herr]
      exact ⟨count, limit, rfl⟩

structure SavedGathers (below : BelowTable) (requests : List (VisualScopeId × SavedRequest))
    (ordering : List ImageOrderingEdge) (s : CollectedEdges) : Prop where
  dependencies : ∀ d, d ∈ s.dependencies ↔ ∃ q ∈ requests, ∃ added,
    savedRequestEdges below q.1 q.2 = .ok added ∧ d ∈ added.dependencies
  orderingEdges : ∀ e, e ∈ s.orderingEdges ↔ e ∈ ordering ∨
    ∃ q ∈ requests, ∃ added, savedRequestEdges below q.1 q.2 = .ok added ∧ e ∈ added.orderingEdges

theorem exists_collectSaved {below : BelowTable} {requests : List (VisualScopeId × SavedRequest)}
    (ordering : List ImageOrderingEdge)
    (hok : ∀ q ∈ requests, ∃ added, savedRequestEdges below q.1 q.2 = .ok added) :
    ∃ s, requests.foldlM (collectSaved below) ⟨[], ordering⟩ = .ok s ∧
      SavedGathers below requests ordering s := by
  induction requests using reverseRecOn with
  | nil => exact ⟨_, rfl, by constructor <;> simp⟩
  | append_singleton requests q ih =>
    obtain ⟨s, hs, hgathers⟩ := ih fun other hother => hok other (mem_append_left _ hother)
    obtain ⟨added, hadded⟩ := hok q (mem_append_right _ (mem_singleton_self _))
    have hstep : collectSaved below s q = .ok (s.append added) := bind_ok.mpr ⟨added, hadded, rfl⟩
    rw [foldlM_append, hs]
    refine ⟨s.append added, bind_ok.mpr ⟨s, rfl, bind_ok.mpr ⟨_, hstep, rfl⟩⟩, ?_⟩
    constructor
    · intro d
      simp [CollectedEdges.append, hgathers.dependencies, or_and_right, exists_or, hadded]
    · intro e
      simp [CollectedEdges.append, hgathers.orderingEdges, or_and_right,
        exists_or, hadded, or_assoc]

/-- No layer is masked by the program of its own frame. -/
def LiveGraph.NoProgramMatte (graph : LiveGraph) : Prop :=
  ∀ layer ∈ graph.layers, layer.matte.sanitized.isActive → layer.matte.input ≠ .cleanProgram

/-- The edges by which a live walk orders scopes: members before their groups,
and what stands below a consumer of all that. -/
def OrdersEdge (tree : Tree StableLayerId Body) (prefixes : PrefixConstraints)
    (edge : ImageOrderingEdge) : Prop :=
  (∃ groupId, ∃ member ∈ tree.membersOf groupId, edge = ⟨.layer member, .group groupId⟩) ∨
  ∃ compositePrefix, prefixes.get edge.consumer = some compositePrefix ∧
    tree.below.prefixContains edge.producer compositePrefix

namespace PairedGraph

variable {names : GraphNames} {paired : PairedGraph names} {show' : LiveShow}

variable {q : VisualScopeId × SavedRequest}

theorem request_located (hq : q ∈ paired.saved.requests) :
    ∃ compositePrefix, paired.validated.below.prefixFor q.1 = some compositePrefix := by
  have htrees := paired.namesTrees
  refine htrees.wellFormed.exists_prefixFor ?_
  rcases mem_savedRequests.mp hq with hmaster | ⟨layer, -, hlayer⟩ |
    ⟨group, hmem, hgrp⟩
  · obtain ⟨tap, -, rfl⟩ := mem_map.mp hmaster
    exact .inr rfl
  · have hcons : q.1 = validationLayerScope (names.position layer.name) := by
      rcases mem_append.mp hlayer with hin | hin
      · obtain ⟨tap, -, rfl⟩ := mem_map.mp hin
        rfl
      · split at hin
        · obtain rfl := mem_singleton.mp hin
          rfl
        · cases hin
    rw [hcons]
    refine .inl (Tree.WellFormed.mem_rootWalk_layer.mpr ?_)
    exact (htrees.layers _).mpr ⟨layer.name, rfl⟩
  · have hcons : q.1 = .group group.id := by
      unfold savedGroupRequests at hgrp
      split at hgrp
      · cases hgrp
      · obtain ⟨tap, -, rfl⟩ := mem_map.mp hgrp
        rfl
    rw [hcons]
    refine .inl (Tree.WellFormed.mem_rootWalk_group.mpr ?_)
    rw [htrees.wellFormed.rooted, htrees.groups, ← paired.groups]
    exact mem_map_of_mem hmem

variable {request : ImageTapConsumer × PlannedImageTapOrigin}

theorem request_clean (hshow : show'.graph = paired.live) (hclean : paired.live.NoProgramMatte)
    (hreq : request ∈ show'.requests) {input : ImageInput} {diagnostic : ImageRouteDiagnostic}
    (hmatte : request.2 = .legacyLayerMatte input diagnostic) :
    input ≠ .cleanProgram := by
  rcases (mem_requests hshow).mp hreq with hmaster |
    ⟨layer, hmem, hlayer⟩ | ⟨group, hmem, hgrp⟩
  · obtain ⟨route, -, rfl⟩ := mem_map.mp hmaster
    cases hmatte
  · rcases mem_append.mp hlayer with hin | hin
    · obtain ⟨route, -, rfl⟩ := mem_map.mp hin
      cases hmatte
    · by_cases hact : layer.matte.1.2.sanitized.isActive
      · rw [if_pos hact] at hin
        obtain rfl := mem_singleton.mp hin
        obtain ⟨rfl, -⟩ := PlannedImageTapOrigin.legacyLayerMatte.inj hmatte
        exact hclean (liveLayer layer) (mem_map_of_mem hmem) hact
      · rw [if_neg hact] at hin
        cases hin
  · unfold LiveShow.groupRequests at hgrp
    split at hgrp
    · cases hgrp
    · rcases mem_append.mp hgrp with hin | hin
      · obtain ⟨route, -, rfl⟩ := mem_map.mp hin
        cases hmatte
      · obtain ⟨matte, -, rfl⟩ := mem_map.mp hin
        cases hmatte

theorem RequestPair.scope_eq (h : RequestPair names q request) :
    request.1.scope = q.1.rename names.liveId := by
  cases h with
  | tap hsampler hpair htiming | matte hsampler hpair => exact hsampler

theorem pair_agrees (hpair : RequestPair names q request)
    (hq : q ∈ paired.saved.requests)
    (hclean : ∀ input diagnostic,
      request.2 = .legacyLayerMatte input diagnostic → input ≠ .cleanProgram)
    (canvas program : Bool) :
    ∃ added resolution,
      savedRequestEdges paired.validated.belowTable q.1 q.2 = .ok added ∧
      (liveContext paired.live.tree canvas program).resolve request.1 request.2 = .ok resolution ∧
      Agrees names paired.validated paired.live.tree q.1 request.2.timing added
        resolution := by
  obtain ⟨compositePrefix, hleads⟩ := request_located hq
  cases hpair with
  | tap hsampler hsrc htiming =>
    exact paired.namesTrees.tap_agrees canvas program hleads hsampler hsrc htiming
  | matte hsampler hinp =>
    exact paired.namesTrees.matte_agrees canvas program hleads hsampler hinp (hclean _ _ rfl)

theorem lost_resolves (hlost : IsLost names request) (canvas program : Bool) :
    ∃ resolution, (liveContext paired.live.tree canvas program).resolve
        request.1 request.2 = .ok resolution ∧
      resolution.constraint = none ∧
      resolution.dependencyProducer = none := by
  obtain ⟨layerId, stage, diagnostic, horig, hout⟩ := hlost
  have hunknown : layer layerId ∉ paired.live.tree.knownScopes := by
    rw [Tree.WellFormed.known_layer, paired.namesTrees.layers']
    exact hout
  refine ⟨.transparent (.missingStableScope request.1 (.layer layerId)), ?_, rfl, rfl⟩
  simp [resolve, horig, PlannedImageTapOrigin.route, ImageInput.route, hunknown]

structure SameEdges (paired : PairedGraph names) (saved : CollectedEdges)
    (live : CollectedTaps) : Prop where
  dependencies : ∀ d, d ∈ live.dependencies ↔ ∃ s ∈ saved.dependencies,
    paired.validated.liveDependency names.liveId s = some d
  orderingEdges : ∀ e,
    OrdersEdge paired.live.tree live.prefixConstraints e ↔
      ∃ s ∈ saved.orderingEdges, paired.validated.liveOrdering names.liveId s = some e

theorem exists_collect (hshow : show'.graph = paired.live) (hclean : paired.live.NoProgramMatte) :
    ∃ collected, paired.saved.collect = .ok (paired.validated.rootWalk ++ [.master], collected) ∧
      SavedGathers paired.validated.belowTable paired.saved.requests
        (paired.validated.root.flatMap paired.validated.itemOrdering)
        collected := by
  have hok : ∀ q ∈ paired.saved.requests, ∃ added,
      savedRequestEdges paired.validated.belowTable q.1 q.2 = .ok added := by
    intro q hq
    obtain ⟨request, hreq, hpair⟩ := (requests_pair hshow).1 q hq
    obtain ⟨added, -, hadded, -⟩ := pair_agrees hpair hq
      (fun _ _ hmatte => request_clean hshow hclean hreq hmatte) true true
    exact ⟨added, hadded⟩
  obtain ⟨collected, hcoll, hgathers⟩ := exists_collectSaved
    (paired.validated.root.flatMap paired.validated.itemOrdering) hok
  refine ⟨collected, ?_, hgathers⟩
  have htopology : validationTopology validationLayerScope paired.saved.tree =
      validationTopology layer paired.validated :=
    validationTopology_rename validationId id paired.saved.tree
  unfold SavedGraph.collect
  rw [htopology, paired.namesTrees.wellFormed.validationTopology_eq]
  exact bind_ok.mpr ⟨_, rfl, bind_ok.mpr ⟨collected, hcoll, rfl⟩⟩

variable {edge : ImageOrderingEdge}

theorem mem_prefixOrdering {Body : Type} {tree : Tree StableLayerId Body}
    {x : VisualScopeId} {constraint : Option CompositePrefix} :
    edge ∈ prefixOrdering tree x constraint ↔
      ∃ compositePrefix, constraint = some compositePrefix ∧
        edge.consumer = x ∧
        tree.below.prefixContains edge.producer compositePrefix := by
  cases constraint with
  | none => simp [prefixOrdering]
  | some compositePrefix =>
    simp only [prefixOrdering, mem_map, Option.some.injEq,
      exists_eq_left', Tree.prefixContains_iff]
    constructor
    · rintro ⟨producer, hprod, rfl⟩
      exact ⟨rfl, hprod⟩
    · rintro ⟨rfl, hprod⟩
      exact ⟨_, hprod, rfl⟩

theorem member_ordering :
    (∃ groupId, ∃ member ∈ paired.live.tree.membersOf groupId,
      edge = ⟨.layer member, .group groupId⟩) ↔
    ∃ s ∈ paired.validated.root.flatMap paired.validated.itemOrdering,
      paired.validated.liveOrdering names.liveId s = some edge := by
  have htrees := paired.namesTrees
  have hknown : ∀ {groupId member},
      member ∈ paired.validated.membersOf groupId →
      paired.validated.liveOrdering names.liveId ⟨.layer member, .group groupId⟩ =
        some ⟨.layer (names.liveId member), .group groupId⟩ := by
    intro groupId member hmem
    have hlayer : layer member ∈ paired.validated.knownScopes :=
      Tree.mem_knownScopes.mpr (Or.inl (htrees.wellFormed.member_mem_rootWalk hmem))
    have hgrp : group groupId ∈ paired.validated.knownScopes :=
      Tree.mem_knownScopes.mpr (.inl (Tree.output_mem_rootWalk
        (htrees.wellFormed.rooted_of_member hmem)))
    simp [Tree.liveOrdering, Tree.liveScope_of_known hlayer,
      Tree.liveScope_of_known hgrp, VisualScopeId.rename]
  constructor
  · rintro ⟨groupId, member, hmem, rfl⟩
    rw [htrees.toRenames.membersOf_eq] at hmem
    obtain ⟨id, hid, rfl⟩ := mem_map.mp hmem
    exact ⟨⟨.layer id, .group groupId⟩,
      htrees.wellFormed.mem_ordering.mpr ⟨groupId, id, hid, rfl⟩, hknown hid⟩
  · rintro ⟨s, hs, hedge⟩
    obtain ⟨groupId, id, hid, rfl⟩ := htrees.wellFormed.mem_ordering.mp hs
    rw [hknown hid] at hedge
    cases hedge
    refine ⟨groupId, _, ?_, rfl⟩
    rw [htrees.toRenames.membersOf_eq]
    exact mem_map_of_mem hid

theorem sameEdges (hshow : show'.graph = paired.live)
    (hclean : paired.live.NoProgramMatte) {canvas program : Bool}
    {collected : CollectedEdges} {taps : CollectedTaps}
    (hsaved : SavedGathers paired.validated.belowTable paired.saved.requests
      (paired.validated.root.flatMap paired.validated.itemOrdering) collected)
    (hlive : Gathers (liveContext paired.live.tree canvas program)
      show'.requests taps) : SameEdges paired collected taps := by
  obtain ⟨hfwd, hback⟩ := requests_pair hshow
  have hagrees : ∀ {q request}, RequestPair names q request →
      q ∈ paired.saved.requests → request ∈ show'.requests →
      ∃ added resolution,
        savedRequestEdges paired.validated.belowTable q.1 q.2 = .ok added ∧
        (liveContext paired.live.tree canvas program).resolve request.1 request.2 = .ok resolution ∧
        Agrees names paired.validated paired.live.tree q.1 request.2.timing added resolution := by
    intro q request hpair hq hreq
    exact pair_agrees hpair hq (fun _ _ hmatte => request_clean hshow hclean hreq hmatte) canvas
      program
  constructor
  · intro d
    rw [hlive.dependencies]
    constructor
    · rintro ⟨request, hreq, resolution, hreso, hd⟩
      rcases hback request hreq with ⟨q, hq, hpair⟩ | hlost
      · obtain ⟨added, resolution', hadded, hresolve', hagree⟩ := hagrees hpair hq hreq
        obtain rfl := ok.inj (hreso.symm.trans hresolve')
        rw [hpair.scope_eq, ← hagree.dependencies] at hd
        obtain ⟨s, hs, hsd⟩ := mem_filterMap.mp hd
        exact ⟨s, (hsaved.dependencies s).mpr ⟨q, hq, added, hadded, hs⟩, hsd⟩
      · obtain ⟨resolution', hresolve', -, hnone⟩ :=
          @lost_resolves names paired request hlost canvas program
        obtain rfl := ok.inj (hreso.symm.trans hresolve')
        rw [hnone] at hd
        cases hd
    · rintro ⟨s, hs, hsd⟩
      obtain ⟨q, hq, added, hadded, hmem⟩ := (hsaved.dependencies s).mp hs
      obtain ⟨request, hreq, hpair⟩ := hfwd q hq
      obtain ⟨added', resolution, hadded', hreso, hagree⟩ := hagrees hpair hq hreq
      obtain rfl := ok.inj (hadded.symm.trans hadded')
      refine ⟨request, hreq, resolution, hreso, ?_⟩
      rw [hpair.scope_eq, ← hagree.dependencies]
      exact mem_filterMap.mpr ⟨s, hmem, hsd⟩
  · intro e
    unfold OrdersEdge
    rw [member_ordering]
    constructor
    · rintro (⟨s, hs, hse⟩ | ⟨compositePrefix, hget, hcont⟩)
      · exact ⟨s, (hsaved.orderingEdges s).mpr (.inl hs), hse⟩
      · obtain ⟨request, hreq, resolution, hreso, hscope, hsome⟩ := (hlive.constraints _ _).mp hget
        rcases hback request hreq with ⟨q, hq, hpair⟩ | hlost
        · obtain ⟨added, resolution', hadded, hresolve', hagree⟩ := hagrees hpair hq hreq
          obtain rfl := ok.inj (hreso.symm.trans hresolve')
          have he : e ∈ prefixOrdering paired.live.tree
              (q.1.rename names.liveId) resolution.constraint := by
            rw [mem_prefixOrdering]
            exact ⟨compositePrefix, hsome,
              by rw [← hscope, hpair.scope_eq], hcont⟩
          rw [← hagree.ordering] at he
          obtain ⟨s, hs, hse⟩ := mem_filterMap.mp he
          exact ⟨s, (hsaved.orderingEdges s).mpr (.inr ⟨q, hq, added, hadded, hs⟩), hse⟩
        · obtain ⟨resolution', hresolve', hnone, -⟩ :=
            @lost_resolves names paired request hlost canvas program
          obtain rfl := ok.inj (hreso.symm.trans hresolve')
          rw [hnone] at hsome
          cases hsome
    · rintro ⟨s, hs, hse⟩
      rcases (hsaved.orderingEdges s).mp hs with hin |
        ⟨q, hq, added, hadded, hmem⟩
      · exact .inl ⟨s, hin, hse⟩
      · obtain ⟨request, hreq, hpair⟩ := hfwd q hq
        obtain ⟨added', resolution, hadded', hreso, hagree⟩ := hagrees hpair hq hreq
        obtain rfl := ok.inj (hadded.symm.trans hadded')
        have he := mem_filterMap.mpr ⟨s, hmem, hse⟩
        rw [hagree.ordering] at he
        obtain ⟨compositePrefix, hsome, hcons, hcont⟩ := mem_prefixOrdering.mp he
        refine .inr ⟨compositePrefix, (hlive.constraints _ _).mpr
          ⟨request, hreq, resolution, hreso, ?_, hsome⟩, hcont⟩
        rw [hcons, hpair.scope_eq]

end PairedGraph

/-!
## The validator and the planner agree

The validator accepts the saved form of a show when its edges have no cycle, and
then the first sort of the planner goes through.
-/

open Checks Relation

def ImageGraphError.isCountLimit : ImageGraphError → Bool
  | tooManyScopes _ _ => true
  | tooManyDependencies _ _ => true
  | tooManyCurrentTaps _ _ => true
  | tooManyPreviousTaps _ _ => true
  | duplicateScope _ => false
  | missingConsumer _ => false
  | currentProgramInput _ => false
  | currentCycle _ => false

/-- The inputs of a plan, their counts apart. -/
structure Formed (scopes : List VisualScopeId) (dependencies : List ImageDependency)
    (orderingEdges : List ImageOrderingEdge) : Prop where
  nodup : scopes.Nodup
  not_program : VisualScopeId.program ∉ scopes
  consumer_mem : ∀ d ∈ dependencies, d.consumer ∈ knownScopes scopes
  ordering_mem : ∀ e ∈ orderingEdges, e.consumer ∈ knownScopes scopes
  producer_ne : ∀ d ∈ dependencies, d.timing = .currentFrame → d.producer ≠ .program
  ordering_ne : ∀ e ∈ orderingEdges, e.producer ≠ .program

section

variable {scopes : List VisualScopeId} {dependencies : List ImageDependency}
  {orderingEdges : List ImageOrderingEdge} {known : Finset VisualScopeId}

theorem nodup_of_collectScope {known result : Finset VisualScopeId}
    (h : scopes.foldlM collectScope known = .ok result) :
    scopes.Nodup ∧ ∀ scope ∈ scopes, scope ∉ known := by
  induction scopes generalizing known with
  | nil => simp
  | cons scope rest ih =>
    obtain ⟨next, hstep, hrest⟩ := bind_ok.mp h
    unfold collectScope at hstep
    split at hstep
    case isTrue => cases hstep
    case isFalse hfresh =>
      cases hstep
      obtain ⟨hnd, hout⟩ := ih hrest
      refine ⟨nodup_cons.mpr ⟨?_, hnd⟩, ?_⟩
      · intro hmem
        exact hout scope hmem (Finset.mem_insert_self _ _)
      · intro other hother
        rcases mem_cons.mp hother with rfl | hother
        · exact hfresh
        · intro hin
          exact hout other hother (Finset.mem_insert_of_mem hin)

variable {s t : EdgeTables}

theorem EdgeTables.chargeDependency_ok {d : ImageDependency}
    (h : EdgeTables.chargeDependency known .advanced s d = .ok t) :
    d.consumer ∈ known ∧ (d.timing = .currentFrame → d.producer ≠ .program) := by
  unfold chargeDependency at h
  by_cases hcons : d.consumer ∈ known
  · rw [if_neg (not_not.mpr hcons)] at h
    refine ⟨hcons, ?_⟩
    intro htiming hprod
    simp [charge, htiming, hprod] at h
  · rw [if_pos hcons] at h
    cases h

theorem EdgeTables.chargeOrdering_ok {e : ImageOrderingEdge}
    (h : EdgeTables.chargeOrdering known .advanced s e = .ok t) :
    e.consumer ∈ known ∧ e.producer ≠ .program := by
  unfold chargeOrdering at h
  by_cases hcons : e.consumer ∈ known
  · rw [if_neg (not_not.mpr hcons)] at h
    refine ⟨hcons, ?_⟩
    intro hprod
    simp [charge, hprod] at h
  · rw [if_pos hcons] at h
    cases h

theorem exists_turn {σ α ε : Type} {f : σ → α → Except ε σ} {items : List α}
    {s t : σ} (h : items.foldlM f s = .ok t) {item : α} (hitem : item ∈ items) :
    ∃ u v, f u item = .ok v := by
  induction items generalizing s with
  | nil => cases hitem
  | cons first rest ih =>
    obtain ⟨u, hstep, hrest⟩ := bind_ok.mp h
    rcases mem_cons.mp hitem with rfl | hitem
    · exact ⟨s, u, hstep⟩
    · exact ih hrest hitem

theorem Formed.collect (h : Formed scopes dependencies orderingEdges) :
    (scopes ++ [VisualScopeId.program]).foldlM collectScope ∅ = .ok (knownScopes scopes) := by
  rw [foldlM_collectScope (scopes ++ [VisualScopeId.program]) ?_ (by simp)]
  · rw [Finset.empty_union, knownScopes]
  · exact nodup_concat h.nodup h.not_program

theorem validateWithOrderingEdges_eq :
    validateWithOrderingEdges scopes dependencies orderingEdges .advanced =
      (do
        refuse (maxGraphScopes < scopes.length) (.tooManyScopes scopes.length maxGraphScopes)
        refuse (maxImageDependencies < dependencies.length)
          (.tooManyDependencies dependencies.length maxImageDependencies)
        let known ← (scopes ++ [VisualScopeId.program]).foldlM collectScope ∅
        let charged ← dependencies.foldlM
          (EdgeTables.chargeDependency known .advanced) EdgeTables.empty
        refuse (maxCurrentImageTaps < charged.currentTaps)
          (.tooManyCurrentTaps charged.currentTaps maxCurrentImageTaps)
        refuse (maxPreviousImageTaps < charged.previousTaps)
          (.tooManyPreviousTaps charged.previousTaps maxPreviousImageTaps)
        let tables ← orderingEdges.foldlM
          (EdgeTables.chargeOrdering known .advanced) charged
        let sorted := Kahn.sort known tables.adjacency tables.indegree
        refuse (sorted.order.length ≠ known.card)
          (.currentCycle ((known.filter fun scope => sorted.indegree scope ≠ 0).sort))
        return ⟨sorted.order, tables.currentTaps, tables.previousTaps, tables.diagnostics⟩) := by
  unfold validateWithOrderingEdges refuse
  by_cases hscopes : maxGraphScopes < scopes.length
  · simp only [if_pos hscopes]
    rfl
  · by_cases hdeps : maxImageDependencies < dependencies.length
    · simp only [if_neg hscopes, if_pos hdeps]
      rfl
    · simp only [if_neg hscopes, if_neg hdeps]
      refine bind_congr fun known => bind_congr fun charged => ?_
      by_cases hcur : maxCurrentImageTaps < charged.currentTaps
      · simp only [if_pos hcur]
        rfl
      · by_cases hprev : maxPreviousImageTaps < charged.previousTaps
        · simp only [if_neg hcur, if_pos hprev]
          rfl
        · simp only [if_neg hcur, if_neg hprev]
          refine bind_congr fun tables => ?_
          split <;> rfl

open EdgeTables

theorem plannable_of_ok {plan : ImageGraphPlan}
    (h : validateWithOrderingEdges scopes dependencies orderingEdges .advanced =
      .ok plan) : Plannable scopes dependencies orderingEdges := by
  rw [validateWithOrderingEdges_eq] at h
  simp only [bind_ok, refuse_ok, exists_unit, not_lt] at h
  obtain ⟨hscopes, hdeps, known, hknown, charged, hcharge, hcur, hprev, tables, htables, -⟩ := h
  have hnd := (nodup_of_collectScope hknown).1
  rw [nodup_append] at hnd
  have hprog : VisualScopeId.program ∉ scopes := by
    intro hmem
    exact hnd.2.2 _ hmem _ (mem_singleton_self _) rfl
  have hset : known = knownScopes scopes := by
    have hcollect := foldlM_collectScope (scopes ++ [VisualScopeId.program])
      (nodup_concat hnd.1 hprog) (fun _ _ => Finset.notMem_empty _)
    rw [hknown] at hcollect
    rw [Except.ok.inj hcollect, Finset.empty_union, knownScopes]
  subst hset
  have hdep : ∀ d ∈ dependencies, d.consumer ∈ knownScopes scopes ∧
      (d.timing = .currentFrame → d.producer ≠ .program) := by
    intro d hd
    obtain ⟨u, v, hturn⟩ := exists_turn hcharge hd
    exact chargeDependency_ok hturn
  have hordering : ∀ e ∈ orderingEdges, e.consumer ∈ knownScopes scopes ∧
      e.producer ≠ .program := by
    intro e he
    obtain ⟨u, v, hturn⟩ := exists_turn htables he
    exact chargeOrdering_ok hturn
  obtain ⟨charged', hcharged', -, -, hcurrent', hprevious'⟩ :=
    foldlM_chargeDependency dependencies counted_empty
      (fun d hd => (hdep d hd).1) (fun d hd => (hdep d hd).2)
  obtain rfl := Except.ok.inj (hcharge.symm.trans hcharged')
  simp only [empty, Nat.zero_add] at hcurrent' hprevious'
  exact {
    scopes_le := hscopes
    dependencies_le := hdeps
    current_le := hcurrent' ▸ hcur
    previous_le := hprevious' ▸ hprev
    nodup := hnd.1
    not_program := hprog
    consumer_mem := fun d hd => (hdep d hd).1
    ordering_mem := fun e he => (hordering e he).1
    producer_ne := fun d hd => (hdep d hd).2
    ordering_ne := fun e he => (hordering e he).2 }

theorem Formed.validate_cases (h : Formed scopes dependencies orderingEdges)
    (hacyc : ∀ x, ¬TransGen (Precedes scopes dependencies orderingEdges) x x) :
    (∃ plan, validateWithOrderingEdges scopes dependencies orderingEdges .advanced = .ok plan) ∨
      ∃ error, validateWithOrderingEdges scopes dependencies orderingEdges
        .advanced = .error error ∧ error.isCountLimit := by
  obtain ⟨charged, hcharge, -, -, hcur, hprev⟩ :=
    foldlM_chargeDependency dependencies counted_empty h.consumer_mem h.producer_ne
  simp only [empty, Nat.zero_add] at hcur hprev
  rw [validateWithOrderingEdges_eq, h.collect]
  by_cases hscopes : maxGraphScopes < scopes.length
  · right
    refine ⟨.tooManyScopes scopes.length maxGraphScopes, ?_, rfl⟩
    simp [refuse, hscopes, bind, Except.bind]
  by_cases hdeps : maxImageDependencies < dependencies.length
  · right
    refine ⟨.tooManyDependencies dependencies.length maxImageDependencies, ?_, rfl⟩
    simp [refuse, hscopes, hdeps, bind, Except.bind]
  by_cases hcurrentTaps : maxCurrentImageTaps < charged.currentTaps
  · right
    refine ⟨.tooManyCurrentTaps charged.currentTaps maxCurrentImageTaps, ?_, rfl⟩
    simp [refuse, hscopes, hdeps, hcharge, hcurrentTaps, bind, Except.bind]
  by_cases hpreviousTaps : maxPreviousImageTaps < charged.previousTaps
  · right
    refine ⟨.tooManyPreviousTaps charged.previousTaps maxPreviousImageTaps, ?_, rfl⟩
    simp [refuse, hscopes, hdeps, hcharge, hcurrentTaps, hpreviousTaps, bind, Except.bind]
  left
  rw [← h.collect, ← validateWithOrderingEdges_eq]
  refine (exists_plan_iff ?_).mpr hacyc
  exact {
    scopes_le := not_lt.mp hscopes
    dependencies_le := not_lt.mp hdeps
    current_le := hcur ▸ not_lt.mp hcurrentTaps
    previous_le := hprev ▸ not_lt.mp hpreviousTaps
    nodup := h.nodup
    not_program := h.not_program
    consumer_mem := h.consumer_mem
    ordering_mem := h.ordering_mem
    producer_ne := h.producer_ne
    ordering_ne := h.ordering_ne }

theorem Formed.plannable (h : Formed scopes dependencies orderingEdges)
    (hscopes : scopes.length ≤ maxGraphScopes) (hfew : dependencies.length ≤ maxPreviousImageTaps) :
    Plannable scopes dependencies orderingEdges where
  scopes_le := hscopes
  dependencies_le := hfew.trans (by decide)
  current_le := countP_le_length.trans (hfew.trans (by decide))
  previous_le := countP_le_length.trans hfew
  nodup := h.nodup
  not_program := h.not_program
  consumer_mem := h.consumer_mem
  ordering_mem := h.ordering_mem
  producer_ne := h.producer_ne
  ordering_ne := h.ordering_ne

end

end CollideOScope.Composition
