import CollideOScope.Composition.Resources

/-!
# The declared ledger against the allocated one

A tap of a scope costs what its dependency and its staging are charged.  A tap
of the program history is charged its dependency, but all of them share one pair
of surfaces, and the partner of that pair is charged once.  So the ledgers agree
as long as at most one tap reads the program history.
-/

namespace CollideOScope.Composition

open Nat Checks List Finset

variable {known : Finset VisualScopeId} {s t : EdgeTables}

theorem EdgeTables.taps_of_chargeDependency {dependency : ImageDependency}
    (hknown : dependency.producer ≠ .program → dependency.producer ∈ known)
    (h : chargeDependency known .advanced s dependency = .ok t) :
    t.currentTaps + t.previousTaps = s.currentTaps + s.previousTaps + 1 := by
  unfold chargeDependency at h
  by_cases hcons : dependency.consumer ∈ known
  · rw [if_neg (not_not.mpr hcons)] at h
    by_cases htiming : dependency.timing = .previousFrame
    · rw [if_pos htiming] at h
      cases h
      rfl
    · rw [if_neg htiming, charge] at h
      by_cases hprog : dependency.producer = .program
      · rw [if_pos hprog] at h
        cases h
      · rw [if_neg hprog, if_neg (not_not.mpr (hknown hprog))] at h
        cases h
        rw [(insert_taps _ _).1, (insert_taps _ _).2]
        exact succ_add _ _
  · rw [if_pos hcons] at h
    cases h

variable {dependencies : List ImageDependency}

theorem EdgeTables.taps_of_foldlM
    (hknown : ∀ dependency ∈ dependencies, dependency.producer ≠ .program →
      dependency.producer ∈ known)
    (h : dependencies.foldlM (chargeDependency known .advanced) s = .ok t) :
    t.currentTaps + t.previousTaps = s.currentTaps + s.previousTaps + dependencies.length := by
  induction dependencies generalizing s with
  | nil =>
    obtain rfl := pure_ok.mp h
    rfl
  | cons dependency rest ih =>
    rw [foldlM_cons, bind_ok] at h
    obtain ⟨next, hnext, hrest⟩ := h
    obtain ⟨hfst, hothers⟩ := forall_mem_cons.mp hknown
    rw [ih hothers hrest, taps_of_chargeDependency hfst hnext, length_cons]
    omega

theorem subset_of_foldlM_collectScope {scopes : List VisualScopeId} {result : Finset VisualScopeId}
    (h : scopes.foldlM collectScope known = .ok result) :
    known ∪ scopes.toFinset ⊆ result := by
  induction scopes generalizing known with
  | nil =>
    obtain rfl := pure_ok.mp h
    simp
  | cons scope rest ih =>
    rw [foldlM_cons, bind_ok] at h
    obtain ⟨next, hnext, hrest⟩ := h
    unfold collectScope at hnext
    split at hnext
    · cases hnext
    · cases hnext
      refine subset_trans ?_ (ih hrest)
      rw [toFinset_cons, union_insert, insert_union]

variable {graph : ImageGraphPlan}

theorem taps_of_sparseGraph (h : sparseGraph dependencies = .ok graph) :
    graph.currentTaps + graph.previousTaps = dependencies.length := by
  unfold sparseGraph validateDependencies validateWithOrderingEdges at h
  simp only [ite_eq_iff, bind_ok, throw_ok, pure_ok, false_and, exists_false,
    and_false, false_or, foldlM_nil] at h
  obtain ⟨-, -, known, hknown, charged, hcharge, -, -, tables, rfl, -, rfl⟩ := h
  have hsub := subset_of_foldlM_collectScope hknown
  have htaps := EdgeTables.taps_of_foldlM ?_ hcharge
  · rw [htaps]
    simp [EdgeTables.empty]
  · intro dependency hdep hprog
    have hsparse : dependency.producer ∈ sparseScopes dependencies := by
      rw [sparseScopes, mem_toFinset]
      refine mem_append_right _ (mem_filter.mpr ⟨?_, ?_⟩)
      · exact mem_map_of_mem hdep
      · exact decide_eq_true hprog
    refine hsub (Finset.mem_union_right _ (mem_toFinset.mpr ?_))
    exact mem_append_left _ ((Finset.mem_sort _).mpr hsparse)

variable {taps : List PlannedImageTap}

theorem previousScopeStaging_eq {staging : ℕ} (h : previousScopeStaging taps = some staging) :
    staging = taps.countP needsStaging := by
  have hfold : ∀ {taps : List PlannedImageTap} {count : ℕ},
      taps.foldlM (fun count tap =>
        checkedAddU32 count (if needsStaging tap then 1 else 0)) count =
        some staging → staging = count + taps.countP needsStaging := by
    intro taps
    induction taps with
    | nil =>
      intro count hcnt
      cases hcnt
      rfl
    | cons tap rest ih =>
      intro count hcnt
      rw [foldlM_cons, Option.bind_eq_bind, Option.bind_eq_some_iff] at hcnt
      obtain ⟨next, hnext, hrest⟩ := hcnt
      obtain ⟨-, rfl⟩ := checkedWord_eq_some.mp hnext
      rw [ih hrest, countP_cons]
      omega
  rw [hfold h, zero_add]

variable {context : TapContext}

theorem TapContext.Resolves.charge {consumer : ImageTapConsumer} {origin : PlannedImageTapOrigin}
    {resolution : TapResolution} (h : context.Resolves origin.timing consumer.scope resolution) :
    (imageDependency consumer.scope origin.timing resolution.dependencyProducer).length +
      (if needsStaging ⟨consumer, origin, resolution.resolved⟩ then 1 else 0) =
      (tapBacking ⟨consumer, origin, resolution.resolved⟩).surfaces +
        if isProgramHistory ⟨consumer, origin, resolution.resolved⟩ then 1
        else 0 := by
  unfold needsStaging tapBacking isProgramHistory
  dsimp only
  generalize origin.timing = timing at h ⊢
  cases h with
  | @layer layerId stage _ hstage =>
    cases timing with
    | previousFrame => rfl
    | currentFrame =>
      obtain rfl := hstage.resolve_left (by decide)
      rfl
  | preLocal htiming | history htiming | program htiming =>
    subst htiming
    rfl
  | group hknown | oneBelow hbelow | allBelow hlast | gestureCanvas
  | programTap | transparent => cases timing <;> rfl

theorem collectTaps_charges {requests : List (ImageTapConsumer × PlannedImageTapOrigin)}
    {collected : CollectedTaps} (h : collectTaps context requests = .ok collected) :
    collected.dependencies.length + collected.taps.countP needsStaging =
      tapSurfaces (prepareTapSurfaces collected.taps) + collected.taps.countP isProgramHistory := by
  refine foldlM_invariant (P := fun s : CollectedTaps =>
    s.dependencies.length + s.taps.countP needsStaging =
      tapSurfaces (prepareTapSurfaces s.taps) + s.taps.countP isProgramHistory) ?_ rfl h
  rintro s ⟨consumer, origin⟩ - t hs hstep
  obtain ⟨-, resolution, hreso, prefixes, -, rfl⟩ := collectTap_ok.mp hstep
  have hcharge := (TapContext.resolves hreso).charge
  unfold tapSurfaces prepareTapSurfaces at hs ⊢
  simp only [length_append, countP_append, countP_singleton,
    List.map_append, List.sum_append, List.map_singleton, List.sum_singleton]
  omega

theorem prelocalLayer_eq (tap : PlannedImageTap) :
    prelocalLayer ⟨tap, tapBacking tap⟩ = currentPrelocalDonor tap := by
  unfold prelocalLayer tapBacking currentPrelocalDonor
  cases tap.resolved with
  | selectedLayer layerId stage => cases stage <;> cases tap.origin.timing <;> rfl
  | scope scope | oneBelow producer | allBelow compositePrefix
  | programHistory | gestureCanvas | programTap | transparent => cases tap.origin.timing <;> rfl

theorem prepareCurrentPrelocalSurfaces_eq (taps : List PlannedImageTap) :
    prepareCurrentPrelocalSurfaces (prepareTapSurfaces taps) = currentPrelocalDonors taps := by
  unfold prepareCurrentPrelocalSurfaces prepareTapSurfaces currentPrelocalDonors
  rw [filterMap_map]
  congr 2
  funext tap
  exact prelocalLayer_eq tap

variable {temporalDryLayers : List StableLayerId} {limits : CreativeResourceLimits}
  {racks : List (List BudgetNode)} {output : ℕ × ℕ}

theorem rgba16_of_resourcePreflight {plan : CreativeResourcePlan}
    (h : resourcePreflight output racks graph taps temporalDryLayers limits = .ok plan) :
    plan.rgba16SurfaceLayers < 2 ^ 32 ∧
    plan.rgba16SurfaceLayers = graph.currentTaps + graph.previousTaps + 8 +
      taps.countP needsStaging + programHistoryStaging taps +
      (currentPrelocalDonors taps).card + temporalDryLayers.length := by
  unfold resourcePreflight preflightWithSurfaceFormats at h
  simp only [bind_ok, require_ok, refuse_ok, pure_ok, exists_unit] at h
  obtain ⟨additional, hadditional, -, -, frame, -, -, -, -, rgba16, hrgba16, -,
    -, -, -, -, -, rfl⟩ := h
  unfold additionalRgba16 at hadditional
  unfold rgba16Layers at hrgba16
  simp only [bind, Option.bind_eq_some_iff, checkedAddU32, checkedAddU64,
    tryFromU32, checkedWord_eq_some] at hadditional hrgba16
  obtain ⟨staging, hstaging, _, ⟨-, rfl⟩, _, ⟨-, rfl⟩, _, ⟨-, rfl⟩, _,
    ⟨-, rfl⟩, _, ⟨-, rfl⟩, -, rfl⟩ := hadditional
  obtain ⟨_, ⟨-, rfl⟩, _, ⟨-, rfl⟩, _, ⟨-, rfl⟩, hlt, rfl⟩ := hrgba16
  obtain rfl := previousScopeStaging_eq hstaging
  refine ⟨hlt, ?_⟩
  unfold baseCreativeSurfaceLayers advancedRackSurfaceLayers
  dsimp only
  omega

theorem actualSurfaceLayers_eq_some {retain : Bool} {taps : List PreparedTap}
    {prelocal dry actual : ℕ} (hprelocal : prelocal < 2 ^ 32) (hdry : dry < 2 ^ 32) :
    actualSurfaceLayers retain taps prelocal dry = some actual ↔
      actual < 2 ^ 32 ∧ actual = 8 + (2 * if retain then 1 else 0) +
        tapSurfaces taps + prelocal + dry := by
  unfold actualSurfaceLayers
  simp only [bind, Option.bind_eq_some_iff, checkedAddU32, checkedWord_eq_some,
    mod_eq_of_lt hprelocal, mod_eq_of_lt hdry]
  constructor
  · rintro ⟨_, ⟨-, rfl⟩, _, ⟨-, rfl⟩, _, ⟨-, rfl⟩, _, ⟨-, rfl⟩, hlt, rfl⟩
    exact ⟨hlt, rfl⟩
  · rintro ⟨hlt, rfl⟩
    exact ⟨8, by decide, _, ⟨by omega, rfl⟩, _, ⟨by omega, rfl⟩, _, ⟨by omega, rfl⟩, hlt, rfl⟩

theorem exists_sparseGraph (hlen : dependencies.length ≤ maxPreviousImageTaps)
    (hprev : ∀ dependency ∈ dependencies, dependency.timing = .previousFrame)
    (hprog : ∀ dependency ∈ dependencies, dependency.consumer ≠ .program) :
    ∃ graph, sparseGraph dependencies = .ok graph := by
  have hcur : ∀ dependency ∈ dependencies, dependency.timing ≠ .currentFrame := by
    intro dependency hdep htiming
    rw [hprev dependency hdep] at htiming
    cases htiming
  have hsort : ∀ scope, scope ∈ (sparseScopes dependencies).sort ↔
      scope ∈ sparseScopes dependencies := fun scope => mem_sort _
  have hcard : (sparseScopes dependencies).card ≤ 16 := by
    refine (toFinset_card_le _).trans ?_
    have hfilter := length_filter_le (fun producer => decide (producer ≠ VisualScopeId.program))
      (dependencies.map ImageDependency.producer)
    rw [length_append, length_map]
    rw [length_map] at hfilter
    unfold maxPreviousImageTaps at hlen
    omega
  have hplan : Plannable (sparseScopes dependencies).sort dependencies []
      := by
    refine ⟨?_, ?_, ?_, ?_, ?_, ?_, ?_, ?_, ?_, ?_⟩
    · rw [length_sort]
      exact hcard.trans (by decide)
    · exact hlen.trans (by decide)
    · rw [countP_eq_zero.mpr]
      · exact zero_le _
      · intro dependency hdep hcharge
        exact hcur dependency hdep (of_decide_eq_true hcharge).1
    · exact countP_le_length.trans hlen
    · exact sort_nodup (r := (· ≤ ·)) (s := sparseScopes dependencies)
    · rw [hsort, sparseScopes, mem_toFinset, mem_append, not_or]
      refine ⟨?_, ?_⟩
      · intro hmem
        obtain ⟨dependency, hdep, heq⟩ := mem_map.mp hmem
        exact hprog dependency hdep heq
      · intro hmem
        exact absurd rfl (of_decide_eq_true (mem_filter.mp hmem).2)
    · intro dependency hdep
      rw [mem_knownScopes, hsort, sparseScopes, mem_toFinset]
      exact .inl (mem_append_left _ (mem_map_of_mem hdep))
    · intro edge hedge
      cases hedge
    · intro dependency hdep htiming
      exact absurd htiming (hcur dependency hdep)
    · intro edge hedge
      cases hedge
  refine (exists_plan_iff hplan).mpr ?_
  intro scope hcycle
  obtain ⟨next, hedge, -⟩ := Relation.TransGen.head'_iff.mp hcycle
  obtain ⟨-, -, ⟨dependency, hdep, htiming, -⟩ | ⟨edge, hmem, -⟩⟩ := hedge
  · exact hcur dependency hdep htiming
  · cases hmem

def historyMattes (layers : List StableLayerId) : List (ImageTapConsumer × PlannedImageTapOrigin) :=
  layers.map fun layerId => (.layerMatte layerId, .legacyLayerMatte .programHistory .ready)

def historyTaps (layers : List StableLayerId) : CollectedTaps where
  taps := layers.map fun layerId => ⟨.layerMatte layerId,
    .legacyLayerMatte .programHistory .ready, .programHistory⟩
  diagnostics := []
  dependencies := layers.map fun layerId => ⟨.layer layerId, .program, .previousFrame⟩
  routeEdges := ∅
  prefixConstraints := .empty

/-- The racks that are budgeted for them: those of the layers, their transforms
and their mattes. -/
def historyRacks (layers : List StableLayerId) : List (List BudgetNode) :=
  layers.flatMap fun _ => [[⟨.legacyCanonical, true⟩], [⟨.transform, true⟩], [⟨.mask, true⟩]]

variable {layers : List StableLayerId}

theorem exists_historyGraph (h : layers.length ≤ maxPreviousImageTaps) :
    ∃ graph, sparseGraph (historyTaps layers).dependencies = .ok graph := by
  refine exists_sparseGraph ?_ ?_ ?_
  · rw [historyTaps, length_map]
    exact h
  · intro dependency hdep
    obtain ⟨layerId, -, rfl⟩ := mem_map.mp hdep
    rfl
  · intro dependency hdep
    obtain ⟨layerId, -, rfl⟩ := mem_map.mp hdep
    exact VisualScopeId.noConfusion

theorem resourcePreflight_congr {count : ℕ}
    (hcnt : graph.currentTaps + graph.previousTaps = count) :
    resourcePreflight output racks graph taps temporalDryLayers limits =
      resourcePreflight output racks ⟨[], 0, count, []⟩ taps temporalDryLayers
        limits := by
  have hlays : ∀ additional, rgba16Layers graph additional =
      rgba16Layers ⟨[], 0, count, []⟩ additional := by
    intro additional
    unfold rgba16Layers checkedAddU64
    rw [hcnt, zero_add]
  unfold resourcePreflight preflightWithSurfaceFormats
  simp only [hlays]

theorem exists_historyPlan (hlen : layers.length ≤ maxPreviousImageTaps)
    (h : (resourcePreflight (1920, 1080) (historyRacks layers)
      ⟨[], 0, layers.length, []⟩ (historyTaps layers).taps [] .default).isOk = true) :
    ∃ graph plan, sparseGraph (historyTaps layers).dependencies = .ok graph ∧
      resourcePreflight (1920, 1080) (historyRacks layers) graph
        (historyTaps layers).taps [] .default = .ok plan := by
  obtain ⟨graph, hgraph⟩ := exists_historyGraph hlen
  have htaps : graph.currentTaps + graph.previousTaps = layers.length := by
    rw [taps_of_sparseGraph hgraph, historyTaps, length_map]
  rw [← resourcePreflight_congr htaps] at h
  obtain ⟨plan, hplan⟩ := exists_of_isOk h
  exact ⟨graph, plan, hgraph, hplan⟩

/-- The ledgers agree exactly when at most one tap reads the program history. -/
theorem declared_ledger_is_allocated {context : TapContext}
    {requests : List (ImageTapConsumer × PlannedImageTapOrigin)}
    {collected : CollectedTaps}
    (hcollect : collectTaps context requests = .ok collected)
    {graph : ImageGraphPlan}
    (hgraph : sparseGraph collected.dependencies = .ok graph)
    {output : ℕ × ℕ} {racks : List (List BudgetNode)}
    {temporalDryLayers : List StableLayerId} (hdry : temporalDryLayers.Nodup)
    {limits : CreativeResourceLimits} {plan : CreativeResourcePlan}
    (hplan : resourcePreflight output racks graph collected.taps
      temporalDryLayers limits = .ok plan) :
    (actualSurfaceLayers (collected.taps.any isProgramHistory) (prepareTapSurfaces collected.taps)
        (prepareCurrentPrelocalSurfaces (prepareTapSurfaces collected.taps)).card
        temporalDryLayers.toFinset.card = some plan.rgba16SurfaceLayers ↔
      collected.taps.countP isProgramHistory ≤ 1) ∧
    (validatePlanLedger plan collected.taps temporalDryLayers = .ok () ↔
      collected.taps.countP isProgramHistory ≤ 1) := by
  obtain ⟨hlt, hdeclared⟩ := rgba16_of_resourcePreflight hplan
  have hcharges := collectTaps_charges hcollect
  rw [← taps_of_sparseGraph hgraph] at hcharges
  have hany : (collected.taps.any isProgramHistory) =
      decide (0 < collected.taps.countP isProgramHistory) := by
    rw [Bool.eq_iff_iff, decide_eq_true_eq, countP_pos_iff, any_eq_true]
  have hprelocal : (currentPrelocalDonors collected.taps).card < 2 ^ 32 := by omega
  have hlength : temporalDryLayers.length < 2 ^ 32 := by omega
  have hiff : actualSurfaceLayers (collected.taps.any isProgramHistory)
      (prepareTapSurfaces collected.taps)
      (prepareCurrentPrelocalSurfaces (prepareTapSurfaces collected.taps)).card
      temporalDryLayers.toFinset.card = some plan.rgba16SurfaceLayers ↔
      collected.taps.countP isProgramHistory ≤ 1 := by
    rw [prepareCurrentPrelocalSurfaces_eq, toFinset_card_of_nodup hdry,
      actualSurfaceLayers_eq_some hprelocal hlength, and_iff_right hlt]
    unfold programHistoryStaging advancedProgramHistoryStagingLayers
      at hdeclared
    rw [hany] at hdeclared ⊢
    by_cases hhistory : 0 < collected.taps.countP isProgramHistory
    · rw [decide_eq_true hhistory] at hdeclared ⊢
      simp only [if_true] at hdeclared ⊢
      omega
    · rw [decide_eq_false hhistory] at hdeclared ⊢
      simp only [Bool.false_eq_true, if_false] at hdeclared ⊢
      omega
  refine ⟨hiff, ?_⟩
  rw [← hiff]
  unfold validatePlanLedger validateActualSurfaceLedger
  simp only [bind_ok, require_ok, refuse_ok, not_not]
  constructor
  · rintro ⟨actual, hsome, rfl⟩
    exact hsome
  · intro hsome
    exact ⟨_, hsome, rfl⟩

/-- One matte of the program history is admitted and passes the check. -/
theorem declared_ledger_is_allocated_oneHistory :
    ∃ graph plan,
      sparseGraph (historyTaps [⟨1, by decide⟩]).dependencies = .ok graph ∧
      resourcePreflight (1920, 1080) (historyRacks [⟨1, by decide⟩]) graph
        (historyTaps [⟨1, by decide⟩]).taps [] .default = .ok plan ∧
      validatePlanLedger plan (historyTaps [⟨1, by decide⟩]).taps [] = .ok () := by
  obtain ⟨graph, plan, hgraph, hplan⟩ := exists_historyPlan
    (show [(⟨1, by decide⟩ : StableLayerId)].length ≤ _ by decide)
    (by decide +kernel)
  have hcollect : collectTaps ⟨.empty, ∅, false, false⟩
      (historyMattes [⟨1, by decide⟩]) = .ok (historyTaps [⟨1, by decide⟩]) := rfl
  refine ⟨graph, plan, hgraph, hplan, ?_⟩
  exact (declared_ledger_is_allocated hcollect hgraph nodup_nil hplan).2.mpr (by decide)

/-- Two mattes read the program history. -/
theorem two_history_taps_refused :
    ∃ graph plan,
      collectTaps ⟨.empty, ∅, false, false⟩ (historyMattes [⟨1, by decide⟩, ⟨2, by decide⟩]) =
        .ok (historyTaps [⟨1, by decide⟩, ⟨2, by decide⟩]) ∧
      sparseGraph (historyTaps [⟨1, by decide⟩, ⟨2, by decide⟩]).dependencies = .ok graph ∧
      resourcePreflight (1920, 1080) (historyRacks [⟨1, by decide⟩, ⟨2, by decide⟩]) graph
          (historyTaps [⟨1, by decide⟩, ⟨2, by decide⟩]).taps [] .default =
        .ok plan ∧
      plan.rgba16SurfaceLayers = 11 ∧
      validatePlanLedger plan (historyTaps [⟨1, by decide⟩, ⟨2, by decide⟩]).taps [] =
        .error (.mismatch 11 10) := by
  obtain ⟨graph, plan, hgraph, hplan⟩ := exists_historyPlan
    (show [(⟨1, by decide⟩ : StableLayerId), ⟨2, by decide⟩].length ≤ _ by
      decide) (by decide +kernel)
  have hdeclared : plan.rgba16SurfaceLayers = 11 := by
    rw [(rgba16_of_resourcePreflight hplan).2, taps_of_sparseGraph hgraph]
    rfl
  have hactual : actualSurfaceLayers true (prepareTapSurfaces
      (historyTaps [⟨1, by decide⟩, ⟨2, by decide⟩]).taps) 0 0 = some 10 := by
    decide +kernel
  refine ⟨graph, plan, rfl, hgraph, hplan, hdeclared, ?_⟩
  change (require (actualSurfaceLayers true _ 0 0) _ >>= _) = _
  rw [hactual]
  change refuse (10 ≠ plan.rgba16SurfaceLayers)
    (SurfaceLedgerError.mismatch plan.rgba16SurfaceLayers 10) = _
  rw [hdeclared]
  rfl

end CollideOScope.Composition
