import CollideOScope.Composition.ExecutionOrder

/-!
# Image taps

A consumer of a plan asks for the image of a layer, a group, what stands below
it, or a singleton.  The planner resolves each request to a planned source, and
records the dependency it makes: an edge between scopes in the same frame, a
prefix for an "all below" tap, or nothing for a source that no scope produces.
-/

namespace CollideOScope.Composition

inductive ImageInput
  | selectedLayer (layerId : StableLayerId) (stage : LayerImageStage)
  | missingSelectedLayer (savedPosition : SavedLayerPosition)
      (stage : LayerImageStage)
  | oneBelow | allBelow | cleanProgram | programHistory
  | groupOutput (groupId : GroupId)
  | missingGroupOutput (groupId : GroupId)
  deriving DecidableEq

inductive MissingImageInput
  | selectedLayer (savedPosition : SavedLayerPosition)
  | liveLayer (layerId : StableLayerId)
  | oneBelow | allBelow | programHistoryUninitialized
  | groupOutputUnavailable (groupId : GroupId)
  deriving DecidableEq

inductive ImageRouteCycle
  | cleanProgramSameFrame
  deriving DecidableEq

inductive ImageRouteDiagnostic
  | disabled | ready
  | missing (input : MissingImageInput)
  | cycle (cycle : ImageRouteCycle)
  deriving DecidableEq

inductive PlannedImageTapOrigin
  | rack (tap : ResolvedImageTap)
  | legacyLayerMatte (input : ImageInput) (diagnostic : ImageRouteDiagnostic)

def PlannedImageTapOrigin.timing : PlannedImageTapOrigin → EdgeTiming
  | rack tap => tap.timing
  | legacyLayerMatte .programHistory _ => .previousFrame
  | legacyLayerMatte _ _ => .currentFrame

/-- Who samples a tap; `slot` tells the routes of one node apart. -/
inductive ImageTapConsumer
  | rackNode (scope : VisualScopeId) (nodeId : NodeId) (slot : ℕ)
  | groupMatte (groupId : GroupId)
  | layerMatte (layerId : StableLayerId)
  | refreshGardenMatte

def ImageTapConsumer.scope : ImageTapConsumer → VisualScopeId
  | rackNode scope _ _ => scope
  | groupMatte groupId => .group groupId
  | layerMatte layerId => .layer layerId
  | refreshGardenMatte => .master

inductive TapRouteSource
  | selectedLayer (layerId : StableLayerId) (stage : LayerImageStage)
  | missingSelectedLayer (savedPosition : SavedLayerPosition)
  | oneBelow | allBelow
  | groupOutput (groupId : GroupId)
  | missingGroupOutput (groupId : GroupId)
  | cleanProgram | programHistory | programHistoryUninitialized | gestureCanvas
  | programTap

def ResolvedImageSource.route : ResolvedImageSource → TapRouteSource
  | selectedLayer layerId _ stage => .selectedLayer layerId stage
  | missingSelectedLayer savedPosition _ => .missingSelectedLayer savedPosition
  | oneBelow => .oneBelow
  | allBelow => .allBelow
  | groupOutput groupId => .groupOutput groupId
  | missingGroupOutput groupId => .missingGroupOutput groupId
  | cleanProgram => .cleanProgram
  | gestureCanvas => .gestureCanvas
  | programTap => .programTap

def ImageInput.route : ImageInput → TapRouteSource
  | selectedLayer layerId stage => .selectedLayer layerId stage
  | missingSelectedLayer savedPosition _ => .missingSelectedLayer savedPosition
  | oneBelow => .oneBelow
  | allBelow => .allBelow
  | cleanProgram => .cleanProgram
  | programHistory => .programHistory
  | groupOutput groupId => .groupOutput groupId
  | missingGroupOutput groupId => .missingGroupOutput groupId

def PlannedImageTapOrigin.route : PlannedImageTapOrigin → TapRouteSource
  | rack tap => tap.source.route
  | legacyLayerMatte input diagnostic =>
    if input = .programHistory ∧
        diagnostic = .missing .programHistoryUninitialized then
      .programHistoryUninitialized
    else input.route

inductive PlannedImageSource
  | scope (scope : VisualScopeId)
  | selectedLayer (layerId : StableLayerId) (stage : LayerImageStage)
  | oneBelow (producer : VisualScopeId)
  | allBelow (compositePrefix : CompositePrefix)
  | programHistory | gestureCanvas | programTap | transparent
  deriving DecidableEq

structure PlannedImageTap where
  consumer : ImageTapConsumer
  origin : PlannedImageTapOrigin
  resolved : PlannedImageSource

inductive CompositionPlanDiagnostic
  | missingSelectedLayer (consumer : ImageTapConsumer)
      (savedPosition : SavedLayerPosition)
  | missingStableScope (consumer : ImageTapConsumer) (producer : VisualScopeId)
  | missingGroupOutput (consumer : ImageTapConsumer) (groupId : GroupId)
  | noOneBelow (consumer : ImageTapConsumer)
  | noAllBelow (consumer : ImageTapConsumer)
  | legacyCleanProgramTransparent (consumer : ImageTapConsumer)
  | programHistoryUninitialized (consumer : ImageTapConsumer)
  | gestureCanvasUnavailable (consumer : ImageTapConsumer)
  | programTapUnavailable (consumer : ImageTapConsumer)

structure TapContext where
  below : BelowTopology
  knownScopes : Finset VisualScopeId
  (gestureCanvasAdmitted programTapAdmitted : Bool)

structure TapResolution where
  resolved : PlannedImageSource
  (dependencyProducer currentEdge : Option VisualScopeId)
  /-- The prefix that a same-frame "all below" tap constrains. -/
  constraint : Option CompositePrefix
  diagnostic : Option CompositionPlanDiagnostic

namespace TapResolution

def unproduced (resolved : PlannedImageSource) : TapResolution := ⟨resolved, none, none, none, none⟩

def transparent (diagnostic : CompositionPlanDiagnostic) : TapResolution :=
  ⟨.transparent, none, none, none, some diagnostic⟩

def produced (resolved : PlannedImageSource) (producer : VisualScopeId) : TapResolution :=
  ⟨resolved, some producer, some producer, none, none⟩

def history (diagnostic : Option CompositionPlanDiagnostic) : TapResolution :=
  ⟨.programHistory, some .program, none, none, diagnostic⟩

end TapResolution

/-- The `match` of `collect_tap`. -/
def TapContext.resolve (context : TapContext) (consumer : ImageTapConsumer)
    (origin : PlannedImageTapOrigin) :
    Except CompositionPlanError TapResolution :=
  match origin.route with
  | .selectedLayer layerId stage =>
    if .layer layerId ∈ context.knownScopes then
      if origin.timing = .previousFrame ∨ stage = .postLocalEffects then
        .ok (.produced (.selectedLayer layerId stage) (.layer layerId))
      else .ok (.unproduced (.selectedLayer layerId stage))
    else .ok (.transparent (.missingStableScope consumer (.layer layerId)))
  | .missingSelectedLayer savedPosition =>
    .ok (.transparent (.missingSelectedLayer consumer savedPosition))
  | .groupOutput groupId =>
    if .group groupId ∈ context.knownScopes then
      .ok (.produced (.scope (.group groupId)) (.group groupId))
    else .ok (.transparent (.missingStableScope consumer (.group groupId)))
  | .missingGroupOutput groupId => .ok (.transparent (.missingGroupOutput consumer groupId))
  | .oneBelow =>
    match context.below.oneBelow consumer.scope with
    | some producer => .ok (.produced (.oneBelow producer) producer)
    | none => .ok (.transparent (.noOneBelow consumer))
  | .allBelow =>
    match context.below.prefixFor consumer.scope with
    | none => .error (.internal "image consumer has no below domain")
    | some compositePrefix =>
      match context.below.lastInPrefix compositePrefix with
      | some producer =>
        .ok ⟨.allBelow compositePrefix, some producer, none,
          if origin.timing = .currentFrame then some compositePrefix else none,
          none⟩
      | none => .ok (.transparent (.noAllBelow consumer))
  | .programHistory => .ok (.history none)
  | .programHistoryUninitialized => .ok (.history (some (.programHistoryUninitialized consumer)))
  | .cleanProgram =>
    match origin with
    | .legacyLayerMatte _ _ => .ok (.transparent (.legacyCleanProgramTransparent consumer))
    | .rack _ =>
      if origin.timing = .previousFrame then .ok (.history none)
      else .ok (.produced (.scope .program) .program)
  | .gestureCanvas =>
    if context.gestureCanvasAdmitted then .ok (.unproduced .gestureCanvas)
    else .ok (.transparent (.gestureCanvasUnavailable consumer))
  | .programTap =>
    if context.programTapAdmitted then .ok (.unproduced .programTap)
    else .ok (.transparent (.programTapUnavailable consumer))

theorem TapContext.resolve_congr {context : TapContext} {consumer : ImageTapConsumer}
    {origin origin' : PlannedImageTapOrigin} (hroute : origin.route = origin'.route)
    (htiming : origin.timing = origin'.timing) (hclean : origin.route ≠ .cleanProgram) :
    context.resolve consumer origin = context.resolve consumer origin' := by
  unfold TapContext.resolve
  rw [← hroute, ← htiming]
  cases hsrc : origin.route with
  | cleanProgram => exact absurd hsrc hclean
  | _ => rfl

inductive TapContext.Resolves (context : TapContext) (timing : EdgeTiming)
    (consumer : VisualScopeId) : TapResolution → Prop
  | layer {layerId stage} (hknown : .layer layerId ∈ context.knownScopes)
      (hstage : timing = .previousFrame ∨ stage = .postLocalEffects) :
      Resolves context timing consumer (.produced (.selectedLayer layerId stage) (.layer layerId))
  | preLocal {layerId} (htiming : timing = .currentFrame) :
      Resolves context timing consumer (.unproduced (.selectedLayer layerId .preLocalEffects))
  | group {groupId} (hknown : .group groupId ∈ context.knownScopes) :
      Resolves context timing consumer (.produced (.scope (.group groupId)) (.group groupId))
  | oneBelow {producer} (hbelow : context.below.oneBelow consumer =
      some producer) : Resolves context timing consumer (.produced (.oneBelow producer) producer)
  | allBelow {compositePrefix producer}
      (hlast : context.below.lastInPrefix compositePrefix = some producer) :
      Resolves context timing consumer
        ⟨.allBelow compositePrefix, some producer, none,
          if timing = .currentFrame then some compositePrefix else none, none⟩
  | history {diagnostic} (htiming : timing = .previousFrame) :
      Resolves context timing consumer (.history diagnostic)
  | program (htiming : timing = .currentFrame) :
      Resolves context timing consumer (.produced (.scope .program) .program)
  | gestureCanvas : Resolves context timing consumer
      (.unproduced .gestureCanvas)
  | programTap : Resolves context timing consumer (.unproduced .programTap)
  | transparent {diagnostic} : Resolves context timing consumer
      (.transparent diagnostic)

variable {origin : PlannedImageTapOrigin}

theorem PlannedImageTapOrigin.timing_of_history
    (h : origin.route = .programHistory ∨ origin.route = .programHistoryUninitialized) :
    origin.timing = .previousFrame := by
  cases origin with
  | rack tap =>
    obtain ⟨source, timing⟩ := tap
    cases source <;> simp [route, ResolvedImageSource.route] at h
  | legacyLayerMatte input diagnostic =>
    cases input <;> simp [route, ImageInput.route, timing] at h ⊢

theorem EdgeTiming.current_of_not_previous {timing : EdgeTiming}
    (h : timing ≠ .previousFrame) : timing = .currentFrame := by
  cases timing with
  | currentFrame => rfl
  | previousFrame => exact absurd rfl h

variable {consumer : ImageTapConsumer} {context : TapContext}

open PlannedImageTapOrigin

theorem TapContext.resolves {resolution : TapResolution}
    (h : context.resolve consumer origin = .ok resolution) :
    context.Resolves origin.timing consumer.scope resolution := by
  unfold TapContext.resolve at h
  cases hroute : origin.route with simp only [hroute] at h
  | selectedLayer layerId stage =>
    by_cases hknown : .layer layerId ∈ context.knownScopes
    · by_cases hstage : origin.timing = .previousFrame ∨ stage = .postLocalEffects
      · rw [if_pos hknown, if_pos hstage] at h
        cases h
        exact .layer hknown hstage
      · rw [if_pos hknown, if_neg hstage] at h
        cases h
        rw [not_or] at hstage
        cases stage with
        | preLocalEffects => exact .preLocal (EdgeTiming.current_of_not_previous hstage.1)
        | postLocalEffects => exact absurd rfl hstage.2
    · rw [if_neg hknown] at h
      cases h
      exact .transparent
  | missingSelectedLayer savedPosition | missingGroupOutput groupId =>
    cases h
    exact .transparent
  | oneBelow =>
    cases hbelow : context.below.oneBelow consumer.scope with
    | none =>
      rw [hbelow] at h
      cases h
      exact .transparent
    | some producer =>
      rw [hbelow] at h
      cases h
      exact .oneBelow hbelow
  | allBelow =>
    cases hleads : context.below.prefixFor consumer.scope with
    | none =>
      rw [hleads] at h
      cases h
    | some compositePrefix =>
      simp only [hleads] at h
      cases hlast : context.below.lastInPrefix compositePrefix with
      | none =>
        rw [hlast] at h
        cases h
        exact .transparent
      | some producer =>
        rw [hlast] at h
        cases h
        exact .allBelow hlast
  | groupOutput groupId =>
    by_cases hknown : .group groupId ∈ context.knownScopes
    · rw [if_pos hknown] at h
      cases h
      exact .group hknown
    · rw [if_neg hknown] at h
      cases h
      exact .transparent
  | cleanProgram =>
    cases origin with
    | rack tap =>
      by_cases htiming : (rack tap).timing = .previousFrame
      · rw [if_pos htiming] at h
        cases h
        exact .history htiming
      · rw [if_neg htiming] at h
        cases h
        exact .program (EdgeTiming.current_of_not_previous htiming)
    | legacyLayerMatte input diagnostic =>
      cases h
      exact .transparent
  | programHistory =>
    cases h
    exact .history (timing_of_history (.inl hroute))
  | programHistoryUninitialized =>
    cases h
    exact .history (timing_of_history (.inr hroute))
  | gestureCanvas =>
    split at h
    · cases h
      exact .gestureCanvas
    · cases h
      exact .transparent
  | programTap =>
    split at h
    · cases h
      exact .programTap
    · cases h
      exact .transparent

def maxTextureSamplesPerFrame : ℕ := 4096

structure CollectedTaps where
  taps : List PlannedImageTap
  diagnostics : List CompositionPlanDiagnostic
  dependencies : List ImageDependency
  routeEdges : Finset RouteEdge
  prefixConstraints : PrefixConstraints

def CollectedTaps.empty : CollectedTaps := ⟨[], [], [], ∅, .empty⟩

/-- Insert the prefix of a consumer, unless it has another one. -/
def PrefixConstraints.constrain (prefixes : PrefixConstraints) (consumer : VisualScopeId) :
    Option CompositePrefix → Except CompositionPlanError PrefixConstraints
  | none => .ok prefixes
  | some compositePrefix =>
    if consumer ∈ prefixes.consumers ∧
        prefixes.prefixOf consumer ≠ compositePrefix then
      .error (.internal "one scope resolved conflicting AllBelow domains")
    else
      .ok ⟨insert consumer prefixes.consumers,
        Function.update prefixes.prefixOf consumer compositePrefix⟩

def imageDependency (consumer : VisualScopeId) (timing : EdgeTiming)
    (producer : Option VisualScopeId) : List ImageDependency :=
  (producer.map fun producer => ⟨consumer, producer, timing⟩).toList

def currentRoutes (consumer : VisualScopeId) (timing : EdgeTiming)
    (edge : Option VisualScopeId) : Finset RouteEdge :=
  match timing, edge with
  | .currentFrame, some producer => {toLex (producer, consumer)}
  | _, _ => ∅

def collectTap (context : TapContext) (s : CollectedTaps)
    (request : ImageTapConsumer × PlannedImageTapOrigin) :
    Except CompositionPlanError CollectedTaps := do
  if s.taps.length = maxTextureSamplesPerFrame then
    throw (.tooManyImageRoutes (s.taps.length + 1) maxTextureSamplesPerFrame)
  let consumer := request.1
  let origin := request.2
  let resolution ← context.resolve consumer origin
  let prefixConstraints ←
    s.prefixConstraints.constrain consumer.scope resolution.constraint
  return {
    taps := s.taps ++ [⟨consumer, origin, resolution.resolved⟩]
    diagnostics := s.diagnostics ++ resolution.diagnostic.toList
    dependencies := s.dependencies ++ imageDependency consumer.scope
      origin.timing resolution.dependencyProducer
    routeEdges := s.routeEdges ∪ currentRoutes consumer.scope origin.timing resolution.currentEdge
    prefixConstraints := prefixConstraints }

theorem collectTap_ok {s t : CollectedTaps} :
    collectTap context s (consumer, origin) = .ok t ↔
      s.taps.length ≠ maxTextureSamplesPerFrame ∧
      ∃ resolution, context.resolve consumer origin = .ok resolution ∧
      ∃ prefixConstraints, s.prefixConstraints.constrain consumer.scope
        resolution.constraint = .ok prefixConstraints ∧
      t = {
        taps := s.taps ++ [⟨consumer, origin, resolution.resolved⟩]
        diagnostics := s.diagnostics ++ resolution.diagnostic.toList
        dependencies := s.dependencies ++ imageDependency consumer.scope
          origin.timing resolution.dependencyProducer
        routeEdges := s.routeEdges ∪ currentRoutes consumer.scope origin.timing
          resolution.currentEdge
        prefixConstraints := prefixConstraints } := by
  unfold collectTap
  by_cases hfull : s.taps.length = maxTextureSamplesPerFrame
  · simp [hfull]
  · rw [if_neg hfull]
    simp only [Checks.bind_ok, Checks.pure_ok, ne_eq, hfull, not_false_eq_true,
      true_and, @eq_comm _ _ t]

def collectTaps (context : TapContext)
    (requests : List (ImageTapConsumer × PlannedImageTapOrigin)) :
    Except CompositionPlanError CollectedTaps :=
  requests.foldlM (collectTap context) .empty

end CollideOScope.Composition
