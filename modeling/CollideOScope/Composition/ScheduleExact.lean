import CollideOScope.Composition.OrderExact
import CollideOScope.Composition.Schedule

/-!
# When an admitted plan can be scheduled

The planner orders independent scopes back to front so that the executor, which
admits them back to front, finds each one on its working surface.  A tap can
still pull a front item behind one that stands further back, and then the items
between are rendered out of turn.  They can be admitted exactly when a tap
retained them.
-/

namespace CollideOScope.Composition

open Function Checks Relation VisualScopeId SchedulePlan List Option Finset

variable {Body E : Type} {tree : Tree StableLayerId Body} {producer : VisualScopeId}

theorem mem_of_itemBefore {α : Type} {items : List α} {count : ℕ} {item : α}
    (h : BelowTopology.itemBefore items count = some item) : item ∈ items := by
  cases count with
  | zero => cases h
  | succ index => exact mem_of_getElem? h

theorem Tree.WellFormed.lastInPrefix_known (h : Tree.WellFormed tree)
    {compositePrefix : CompositePrefix}
    (hlast : tree.below.lastInPrefix compositePrefix = some producer) :
    producer ∈ tree.knownScopes := by
  have hroot : ∀ {count}, BelowTopology.itemBefore tree.below.rootOutputs
      count = some producer → producer ∈ tree.rootWalk := by
    intro count hitem
    obtain ⟨item, hroot, rfl⟩ := mem_map.mp (mem_of_itemBefore hitem)
    exact Tree.output_mem_rootWalk hroot
  refine Tree.mem_knownScopes.mpr (.inl ?_)
  cases compositePrefix with
  | root precedingRootOutputs => exact hroot hlast
  | groupMember groupId precedingRootOutputs precedingMembers =>
    rcases or_eq_some_iff.mp hlast with hmem | ⟨-, hitem⟩
    · obtain ⟨member, hitem, rfl⟩ := map_eq_some_iff.mp hmem
      rw [Tree.below_members] at hitem
      exact h.member_mem_rootWalk (mem_of_itemBefore hitem)
    · exact hroot hitem

variable {program canvas : Bool}

theorem Tree.WellFormed.currentEdge_known (h : Tree.WellFormed tree)
    {consumer : ImageTapConsumer} {origin : PlannedImageTapOrigin}
    {resolution : TapResolution}
    (hreso : TapContext.resolve
      ⟨tree.below, tree.knownScopes, canvas, program⟩ consumer origin =
        .ok resolution) (hedge : resolution.currentEdge = some producer) :
    producer ∈ tree.knownScopes := by
  have hbelow : ∀ {consumer}, tree.below.oneBelow consumer = some producer →
      producer ∈ tree.knownScopes := by
    intro consumer hone
    obtain ⟨compositePrefix, -, hlast⟩ := bind_eq_some_iff.mp hone
    exact h.lastInPrefix_known hlast
  cases TapContext.resolves hreso with
  | layer hknown hstage | group hknown =>
    cases hedge
    exact hknown
  | oneBelow hone =>
    cases hedge
    exact hbelow hone
  | program htiming =>
    cases hedge
    exact Tree.mem_knownScopes.mpr (.inr (.inr rfl))
  | preLocal htiming | allBelow hlast | history htiming | gestureCanvas
  | programTap | transparent => cases hedge

theorem consumers_of_constrain {prefixes result : PrefixConstraints}
    {consumer : VisualScopeId} {constraint : Option CompositePrefix}
    (h : prefixes.constrain consumer constraint = .ok result) :
    result.consumers ⊆ insert consumer prefixes.consumers := by
  cases constraint with
  | none =>
    cases h
    exact subset_insert _ _
  | some compositePrefix =>
    rw [PrefixConstraints.constrain] at h
    split at h
    · cases h
    · cases h
      exact subset_rfl

theorem Tree.WellFormed.collectTaps_known (h : Tree.WellFormed tree)
    {requests : List (ImageTapConsumer × PlannedImageTapOrigin)}
    (hconsumers : ∀ request ∈ requests, request.1.scope ∈ tree.knownScopes)
    {collected : CollectedTaps}
    (hcollect : collectTaps ⟨tree.below, tree.knownScopes, canvas, program⟩
      requests = .ok collected) :
    Within tree.knownScopes collected.routeEdges ∧
      collected.prefixConstraints.consumers ⊆ tree.knownScopes := by
  refine foldlM_invariant (P := fun s => Within tree.knownScopes s.routeEdges ∧
    s.prefixConstraints.consumers ⊆ tree.knownScopes) ?_
    ⟨within_empty _, empty_subset _⟩ hcollect
  rintro s ⟨consumer, origin⟩ hreq t ⟨hedges, hpre⟩ hstep
  have hcons := hconsumers _ hreq
  obtain ⟨-, resolution, hreso, constrained, hconstrain, rfl⟩ := collectTap_ok.mp hstep
  constructor
  · intro edge hedge
    rcases mem_union.mp hedge with hedge | hedge
    · exact hedges edge hedge
    · cases hcur : resolution.currentEdge with
      | none =>
        rw [hcur] at hedge
        cases origin.timing <;> simp [currentRoutes] at hedge
      | some producer =>
        have hprod := h.currentEdge_known hreso hcur
        rw [hcur] at hedge
        cases htiming : origin.timing with
        | previousFrame =>
          rw [htiming] at hedge
          simp [currentRoutes] at hedge
        | currentFrame =>
          rw [htiming] at hedge
          obtain rfl := Finset.mem_singleton.mp hedge
          exact ⟨hprod, hcons⟩
  · refine (consumers_of_constrain hconstrain).trans ?_
    exact insert_subset hcons hpre

def Retains (taps : List PlannedImageTap) (scope : VisualScopeId) : Prop :=
  ∃ tap ∈ prepareTapSurfaces taps, retainedScope tap = some scope

theorem foldl_retainTap (entries : List (PreparedTap × ℕ))
    (retained : VisualScopeId → Option ℕ) (scope : VisualScopeId) :
    entries.foldl retainTap retained scope =
      (retained scope).or ((entries.find? fun entry =>
        retainedScope entry.1 = some scope).map Prod.snd) := by
  induction entries generalizing retained with
  | nil => simp
  | cons entry rest ih =>
    rw [foldl_cons, ih, retainTap]
    cases hent : retainedScope entry.1 with
    | none => rw [find?_cons_of_neg (by simp [hent])]
    | some found =>
      by_cases hsame : found = scope
      · subst hsame
        rw [find?_cons_of_pos (by simp [hent])]
        cases hfound : retained found <;> simp [hfound]
      · rw [find?_cons_of_neg (by simp [hent, hsame])]
        dsimp only
        cases hfound : retained found with
        | none => simp [update_of_ne (Ne.symm hsame)]
        | some index => rfl

variable {scope : VisualScopeId} {taps : List PreparedTap}

theorem retained_of_sources {index : ℕ} (h : retainedScopeSources taps scope = some index) :
    ∃ tap, taps[index]? = some tap ∧ retainedScope tap = some scope := by
  rw [retainedScopeSources, foldl_retainTap, none_or, map_eq_some_iff] at h
  obtain ⟨entry, hfind, rfl⟩ := h
  have hscope := find?_some hfind
  rw [decide_eq_true_eq] at hscope
  have hmem := mem_zipIdx_iff_getElem?.mp (mem_of_find?_eq_some hfind)
  exact ⟨entry.1, hmem, hscope⟩

theorem exists_source_iff :
    (∃ index, retainedScopeSources taps scope = some index) ↔
      ∃ tap ∈ taps, retainedScope tap = some scope := by
  constructor
  · rintro ⟨index, h⟩
    obtain ⟨tap, htap, hscope⟩ := retained_of_sources h
    exact ⟨tap, mem_of_getElem? htap, hscope⟩
  · rintro ⟨tap, htap, hscope⟩
    obtain ⟨index, hidx⟩ := mem_iff_getElem?.mp htap
    have hfind : ((taps.zipIdx.find? fun entry => retainedScope entry.1 = some scope)).isSome := by
      rw [find?_isSome]
      exact ⟨(tap, index), mem_zipIdx_iff_getElem?.mpr hidx, by simp [hscope]⟩
    obtain ⟨entry, hent⟩ := isSome_iff_exists.mp hfind
    refine ⟨entry.2, ?_⟩
    rw [retainedScopeSources, foldl_retainTap, none_or, hent]
    rfl

variable {T : Type} {output : T → VisualScopeId}

theorem scheduledSource_keeps [DecidableEq T] (hout : Function.Injective output)
    (retained : VisualScopeId → Option ℕ) :
    Reorder.Keeps
      (fun item task first => scheduledSource retained (output item) (output task) first) .ping
      (fun item => lateSource retained (output item)) where
  own := by
    intro item
    simp [scheduledSource]
  other := by
    intro item task hne
    rw [scheduledSource, if_neg (fun h => hne (hout h.1))]
  again := by
    intro item task
    rw [scheduledSource, if_neg (fun h => absurd h.2 Bool.false_ne_true)]

variable {retained : VisualScopeId → Option ℕ}

theorem lateSource_ok {source : ScheduledSource} :
    lateSource retained scope = .ok source ↔
      ∃ index, retained scope = some index ∧ source = .retainedTap index := by
  unfold lateSource
  cases retained scope with
  | none => simp
  | some index => simp [eq_comm]

theorem kept_iff {item : T} :
    Reorder.Kept (fun item => lateSource retained (output item)) item ↔
      ∃ index, retained (output item) = some index := by
  unfold Reorder.Kept
  simp only [lateSource_ok]
  constructor
  · rintro ⟨_, index, hidx, -⟩
    exact ⟨index, hidx⟩
  · rintro ⟨index, hidx⟩
    exact ⟨_, index, hidx, rfl⟩

/-- The tasks run in order, and each item is admitted once, back to front.  It
is read from the working surface only right after its own task, and otherwise
from a tap that retains it. -/
structure DrainsBackToFront {T : Type} (taps : List PreparedTap) (output : T → VisualScopeId)
    (execution desired : List T) (entries : List (Reorder.Entry T ScheduledSource)) : Prop where
  tasks : entries.map Reorder.Entry.task = execution
  items : (entries.flatMap Reorder.Entry.drains).map Reorder.Admission.item = desired
  sources : ∀ entry ∈ entries, ∀ admission ∈ entry.drains,
    admission.item = entry.task ∧ admission.source = .ping ∨
      ∃ index tap, admission.source = .retainedTap index ∧
        taps[index]? = some tap ∧
        retainedScope tap = some (output admission.item)

variable {execution desired : List T}

theorem drainsBackToFront_of_admits
    {entries : List (Reorder.Entry T ScheduledSource)}
    (h : Reorder.Admits .ping (fun item => lateSource (retainedScopeSources taps) (output item))
      execution desired entries) :
    DrainsBackToFront taps output execution desired entries where
  tasks := h.tasks
  items := h.items
  sources := by
    intro entry hent admission hadmission
    refine (h.sources entry hent admission hadmission).imp id ?_
    intro hlate
    obtain ⟨index, hidx, hsrc⟩ := lateSource_ok.mp hlate
    obtain ⟨tap, htap, hscope⟩ := retained_of_sources hidx
    exact ⟨index, tap, hsrc, htap, hscope⟩

theorem exists_drainAll_iff [DecidableEq T] (hout : Function.Injective output)
    (taps : List PlannedImageTap) (hperm : execution.Perm desired) (hdesired : desired.Nodup) :
    (∃ entries, Reorder.drainAll (fun item task first =>
        scheduledSource (retainedScopeSources (prepareTapSurfaces taps))
          (output item) (output task) first) [] execution desired =
        .ok ([], entries) ∧
      DrainsBackToFront (prepareTapSurfaces taps) output execution desired entries) ↔
      desired.Pairwise fun behind later =>
        execution.idxOf behind < execution.idxOf later ∨ Retains taps (output later) := by
  have hkeeps := scheduledSource_keeps hout (retainedScopeSources (prepareTapSurfaces taps))
  have hwait := Reorder.Waiting.of_perm hperm hdesired
  have hiff := hkeeps.exists_drainAll_iff hwait
  have hturn : ∀ behind later, Reorder.InTurn (fun item => lateSource
      (retainedScopeSources (prepareTapSurfaces taps)) (output item))
      execution behind later ↔
        execution.idxOf behind < execution.idxOf later ∨ Retains taps (output later) := by
    intro behind later
    rw [Reorder.InTurn, kept_iff, exists_source_iff]
    rfl
  simp only [← hturn]
  refine Iff.trans ?_ hiff
  constructor
  · rintro ⟨entries, hents, -⟩
    exact ⟨_, hents⟩
  · rintro ⟨⟨left, entries⟩, hents⟩
    obtain ⟨rfl, hadmits⟩ := hkeeps.drainAll_admits hwait hents
    exact ⟨entries, hents, drainsBackToFront_of_admits hadmits⟩

def schedulePlan (tree : Tree StableLayerId Body) (order : List VisualScopeId) : SchedulePlan :=
  ⟨tree.root, tree.rootedGroups.map fun groupId => (groupId, tree.membersOf groupId), order⟩

theorem RootTask.outputScope_injective : Function.Injective RootTask.outputScope := by
  intro first second heq
  cases first with
  | layer layerId =>
    cases second with
    | layer other =>
      cases heq
      rfl
    | group other => cases heq
  | group groupId =>
    cases second with
    | layer other => cases heq
    | group other =>
      cases heq
      rfl

theorem RootItem.task_outputScope (item : RootItem StableLayerId) :
    item.task.outputScope = item.output := by
  cases item with
  | layer layerId bus | group groupId => rfl

theorem rootTask_eq_some {plan : SchedulePlan} {task : RootTask}
    (h : plan.rootTask scope = some task) : task.outputScope = scope := by
  cases scope with
  | layer layerId =>
    rw [rootTask] at h
    split at h
    · cases h
    · cases h
      rfl
  | group groupId =>
    cases h
    rfl
  | master | program => cases h

theorem memberTask_eq_some {members : List StableLayerId} {layerId : StableLayerId} :
    memberTask members scope = some layerId ↔ scope = .layer layerId ∧ layerId ∈ members := by
  cases scope with
  | layer other =>
    rw [memberTask]
    by_cases hin : other ∈ members
    · rw [if_pos hin, some.injEq, layer.injEq]
      constructor
      · rintro rfl
        exact ⟨rfl, hin⟩
      · exact And.left
    · rw [if_neg hin, layer.injEq]
      constructor
      · intro h
        cases h
      · rintro ⟨rfl, hmem⟩
        exact absurd hmem hin
  | group groupId | master | program => simp [memberTask]

section

variable {R : VisualScopeId → VisualScopeId → Prop} {order : List VisualScopeId}

section

variable (h : Tree.WellFormed tree)
include h

theorem Tree.WellFormed.mem_groupedLayers {layerId : StableLayerId} :
    layerId ∈ (schedulePlan tree order).groupedLayers ↔
      ∃ groupId, layerId ∈ tree.membersOf groupId := by
  unfold groupedLayers schedulePlan
  rw [flatMap_map, mem_flatMap]
  constructor
  · rintro ⟨groupId, -, hmem⟩
    exact ⟨groupId, hmem⟩
  · rintro ⟨groupId, hmem⟩
    exact ⟨groupId, Tree.mem_rootedGroups.mpr (h.rooted_of_member hmem), hmem⟩

theorem Tree.WellFormed.mem_rootTasks
    (horder : OrdersBy tree.knownScopes R order) (task : RootTask) :
    task ∈ tree.root.map RootItem.task ↔ task.outputScope ∈ order ∧
      (schedulePlan tree order).rootTask task.outputScope = some task := by
  rw [horder.mem_iff, Tree.mem_knownScopes, List.mem_map]
  constructor
  · rintro ⟨item, hitem, rfl⟩
    refine ⟨.inl ?_, ?_⟩
    · rw [item.task_outputScope]
      exact Tree.output_mem_rootWalk hitem
    · cases item with
      | layer layerId bus =>
        change rootTask _ (.layer layerId) = _
        rw [rootTask, if_neg]
        · rfl
        · rw [h.mem_groupedLayers]
          rintro ⟨groupId, hmem⟩
          exact h.member_not_output hmem (mem_map_of_mem hitem)
      | group groupId => rfl
  · rintro ⟨hscope, htask⟩
    have hwalk : task.outputScope ∈ tree.rootWalk := by
      refine hscope.resolve_right ?_
      cases task <;> simp [RootTask.outputScope]
    obtain ⟨item, hitem, hin⟩ := mem_flatMap.mp hwalk
    refine ⟨item, hitem, ?_⟩
    cases item with
    | layer layerId bus =>
      apply RootTask.outputScope_injective
      exact (List.mem_singleton.mp hin).symm
    | group groupId =>
      rcases mem_append.mp hin with hmem | hgrp
      · obtain ⟨layerId, hlayer, heq⟩ := mem_map.mp hmem
        rw [← heq, rootTask, if_pos (h.mem_groupedLayers.mpr ⟨groupId, hlayer⟩)] at htask
        cases htask
      · apply RootTask.outputScope_injective
        exact (List.mem_singleton.mp hgrp).symm

theorem Tree.WellFormed.rootTasks_nodup : (tree.root.map RootItem.task).Nodup := by
  have houts := h.outputs_nodup
  rw [← funext RootItem.task_outputScope, ← comp_def, ← List.map_map] at houts
  exact houts.of_map _

theorem Tree.WellFormed.rootTasks_perm (horder : OrdersBy tree.knownScopes R order) :
    (order.filterMap (schedulePlan tree order).rootTask).Perm (tree.root.map RootItem.task) :=
  filterMap_perm (fun _ _ => rootTask_eq_some) horder.nodup h.rootTasks_nodup
    (h.mem_rootTasks horder)

theorem Tree.WellFormed.memberTasks_perm
    (horder : OrdersBy tree.knownScopes R order) (groupId : GroupId) :
    (order.filterMap (memberTask (tree.membersOf groupId))).Perm (tree.membersOf groupId) := by
  refine filterMap_perm (fun _ _ htask => (memberTask_eq_some.mp htask).1.symm)
    horder.nodup (h.members_nodup groupId) ?_
  intro layerId
  rw [memberTask_eq_some, horder.mem_iff, Tree.mem_knownScopes]
  constructor
  · intro hmem
    exact ⟨.inl (h.member_mem_rootWalk hmem), rfl, hmem⟩
  · exact fun hmem => hmem.2.2

end

section

variable (h : Tree.WellFormed tree) (horder : OrdersBy tree.knownScopes R order)
include h horder

theorem Tree.WellFormed.buildRootSchedule_ok {entries : RootSchedule} :
    buildRootSchedule (schedulePlan tree order) retained = .ok entries ↔
      Reorder.drainAll (fun item task first =>
          scheduledSource retained item.outputScope task.outputScope first) []
        (order.filterMap (schedulePlan tree order).rootTask)
        (tree.root.map RootItem.task) = .ok ([], entries) := by
  have hperm := h.rootTasks_perm horder
  have hcard := toFinset_card_of_nodup (hperm.nodup_iff.mpr h.rootTasks_nodup)
  unfold buildRootSchedule
  simp only [bind_ok, refuse_ok, exists_unit, pure_ok]
  constructor
  · rintro ⟨-, ⟨left, drains⟩, hdrain, hleft, rfl⟩
    obtain rfl := not_not.mp hleft
    exact hdrain
  · intro hdrain
    refine ⟨?_, _, hdrain, not_not.mpr rfl, rfl⟩
    rw [not_or, not_not, not_not]
    exact ⟨hperm.length_eq, hcard.trans hperm.length_eq⟩

theorem Tree.WellFormed.exists_rootSchedule_iff (taps : List PlannedImageTap) :
    (∃ entries, buildRootSchedule (schedulePlan tree order)
        (retainedScopeSources (prepareTapSurfaces taps)) = .ok entries ∧
      DrainsBackToFront (prepareTapSurfaces taps) RootTask.outputScope
        (order.filterMap (schedulePlan tree order).rootTask)
        (tree.root.map RootItem.task) entries) ↔
      tree.root.Pairwise fun behind item =>
        order.idxOf behind.output < order.idxOf item.output ∨ Retains taps item.output := by
  simp only [h.buildRootSchedule_ok horder]
  rw [exists_drainAll_iff RootTask.outputScope_injective taps
    (h.rootTasks_perm horder) h.rootTasks_nodup, pairwise_map]
  apply List.Pairwise.iff_of_mem
  intro behind item hbehind hitem
  have htask := fun item (hitem : item ∈ tree.root) =>
    (h.mem_rootTasks horder item.task).mp (mem_map_of_mem hitem)
  obtain ⟨hin, hfound⟩ := htask behind hbehind
  obtain ⟨hin', hfound'⟩ := htask item hitem
  rw [idxOf_filterMap_lt_iff RootTask.outputScope_injective
    (fun _ _ => rootTask_eq_some) hin hin' hfound hfound',
    RootItem.task_outputScope, RootItem.task_outputScope]

theorem Tree.WellFormed.buildMemberSchedule_ok {groupId : GroupId}
    {entry : GroupId × MemberSchedule} :
    buildMemberSchedule (schedulePlan tree order) retained
        (groupId, tree.membersOf groupId) = .ok entry ↔
      entry.1 = groupId ∧ Reorder.drainAll (fun item task first =>
          scheduledSource retained (.layer item) (.layer task) first) []
        (order.filterMap (memberTask (tree.membersOf groupId)))
        (tree.membersOf groupId) = .ok ([], entry.2) := by
  have hperm := h.memberTasks_perm horder groupId
  unfold buildMemberSchedule
  simp only [bind_ok, refuse_ok, exists_unit, pure_ok]
  constructor
  · rintro ⟨-, ⟨left, drains⟩, hdrain, hleft, rfl⟩
    obtain rfl := not_not.mp hleft
    exact ⟨rfl, hdrain⟩
  · rintro ⟨hid, hdrain⟩
    refine ⟨not_not.mpr hperm.length_eq, _, hdrain, not_not.mpr rfl, ?_⟩
    rw [← hid]

theorem Tree.WellFormed.exists_memberSchedule_iff (taps : List PlannedImageTap)
    (groupId : GroupId) :
    (∃ entry, buildMemberSchedule (schedulePlan tree order)
        (retainedScopeSources (prepareTapSurfaces taps))
        (groupId, tree.membersOf groupId) = .ok entry ∧
      entry.1 = groupId ∧
      DrainsBackToFront (prepareTapSurfaces taps) VisualScopeId.layer
        (order.filterMap (memberTask (tree.membersOf groupId)))
        (tree.membersOf groupId) entry.2) ↔
      (tree.membersOf groupId).Pairwise fun behind member =>
        order.idxOf (.layer behind) < order.idxOf (.layer member) ∨
          Retains taps (.layer member) := by
  have hinj : Function.Injective layer := fun _ _ heq => layer.inj heq
  have hloop := exists_drainAll_iff hinj taps
    (h.memberTasks_perm horder groupId) (h.members_nodup groupId)
  refine Iff.trans ?_ (hloop.trans ?_)
  · simp only [h.buildMemberSchedule_ok horder]
    constructor
    · rintro ⟨entry, ⟨-, hdrain⟩, -, hdrains⟩
      exact ⟨entry.2, hdrain, hdrains⟩
    · rintro ⟨entries, hdrain, hdrains⟩
      exact ⟨(groupId, entries), ⟨rfl, hdrain⟩, rfl, hdrains⟩
  · apply List.Pairwise.iff_of_mem
    intro behind member hbehind hmem
    have hin : ∀ layerId ∈ tree.membersOf groupId, .layer layerId ∈ order := by
      intro layerId hlayer
      rw [horder.mem_iff, Tree.mem_knownScopes]
      exact .inl (h.member_mem_rootWalk hlayer)
    rw [idxOf_filterMap_lt_iff hinj (fun _ _ htask => (memberTask_eq_some.mp htask).1.symm)
      (hin behind hbehind) (hin member hmem)
      (memberTask_eq_some.mpr ⟨rfl, hbehind⟩)
      (memberTask_eq_some.mpr ⟨rfl, hmem⟩)]

end

/-- The schedules of the root and of every group. -/
structure Schedules (tree : Tree StableLayerId Body) (order : List VisualScopeId)
    (taps : List PreparedTap) (schedules : BlockSchedules) : Prop where
  root : DrainsBackToFront taps RootTask.outputScope
    (order.filterMap (schedulePlan tree order).rootTask)
    (tree.root.map RootItem.task) schedules.root
  members : List.Forall₂ (fun groupId entry => entry.1 = groupId ∧
    DrainsBackToFront taps VisualScopeId.layer
      (order.filterMap (memberTask (tree.membersOf groupId)))
      (tree.membersOf groupId) entry.2) tree.rootedGroups schedules.members

theorem Tree.WellFormed.exists_schedules_iff (h : Tree.WellFormed tree)
    (horder : OrdersBy tree.knownScopes R order) (taps : List PlannedImageTap) :
    (∃ schedules, buildBlockSchedules (schedulePlan tree order)
        (retainedScopeSources (prepareTapSurfaces taps)) = .ok schedules ∧
      Schedules tree order (prepareTapSurfaces taps) schedules) ↔
      (tree.root.Pairwise fun behind item =>
        order.idxOf behind.output < order.idxOf item.output ∨ Retains taps item.output) ∧
      ∀ groupId ∈ tree.rootedGroups,
        (tree.membersOf groupId).Pairwise fun behind member =>
          order.idxOf (.layer behind) < order.idxOf (.layer member) ∨
            Retains taps (.layer member) := by
  simp only [← h.exists_rootSchedule_iff horder taps, ← h.exists_memberSchedule_iff horder taps]
  rw [← exists_mapM_iff]
  unfold buildBlockSchedules
  simp only [bind_ok, pure_ok]
  have hgrps : ∀ retained, (schedulePlan tree order).groups.mapM
      (buildMemberSchedule (schedulePlan tree order) retained) =
        tree.rootedGroups.mapM fun groupId =>
          buildMemberSchedule (schedulePlan tree order) retained
            (groupId, tree.membersOf groupId) := by
    intro retained
    exact mapM_map
  constructor
  · rintro ⟨schedules, ⟨root, hroot, members, hmems, rfl⟩, hdrain⟩
    rw [hgrps] at hmems
    exact ⟨⟨root, hroot, hdrain.root⟩, members, hmems, hdrain.members⟩
  · rintro ⟨⟨root, hroot, hdrain⟩, members, hmems, hdrains'⟩
    rw [← hgrps] at hmems
    exact ⟨⟨root, members⟩, ⟨root, hroot, members, hmems, rfl⟩, hdrain, hdrains'⟩

end

/-- Whatever overtakes an item behind it is retained by a tap: among the outputs
of the root, where a group stands for its members, and in every group. -/
structure Schedulable (tree : Tree StableLayerId Body) (below : BelowTopology)
    (R : VisualScopeId → VisualScopeId → Prop) (taps : List PlannedImageTap) :
    Prop where
  root : tree.root.Pairwise fun behind item =>
    ¬Overtakes (Merged tree R) below.compositeRank item.output behind.output ∨
      Retains taps item.output
  members : ∀ groupId ∈ tree.rootedGroups,
    (tree.membersOf groupId).Pairwise fun behind member =>
      ¬Overtakes R below.compositeRank (.layer member) (.layer behind) ∨
        Retains taps (.layer member)

section

variable {routes : Finset RouteEdge} {prefixes : PrefixConstraints}
  {scopes tasks : List VisualScopeId}

theorem SortedBy.root_lt_iff (h : Tree.WellFormed tree)
    (hsort : SortedBy tree routes prefixes scopes tasks) {behind item : RootItem StableLayerId}
    (hbehind : behind ∈ tree.root) (hitem : item ∈ tree.root) (hne : behind.output ≠ item.output) :
    (byBlocks (taskFor tree) scopes tasks).idxOf behind.output <
        (byBlocks (taskFor tree) scopes tasks).idxOf item.output ↔
      ¬Overtakes (Merged tree (MustPrecede tree tree.below routes prefixes))
        tree.below.compositeRank item.output behind.output := by
  have htask : ∀ item ∈ tree.root, taskFor tree item.output = item.output :=
    fun item hitem => h.taskFor_of_mem hitem (Tree.output_mem_itemScopes item)
  have hknown : ∀ item ∈ tree.root, item.output ∈ tree.knownScopes :=
    fun item hitem => Tree.mem_knownScopes.mpr (.inl (Tree.output_mem_rootWalk hitem))
  have htasks : ∀ item ∈ tree.root,
      item.output ∈ tree.knownScopes.image (taskFor tree) :=
    fun item hitem => mem_image.mpr ⟨_, hknown item hitem, htask item hitem⟩
  have hmem := hsort.scopes_ordersBy.mem_iff
  have hmem' := hsort.tasks_ordersBy.mem_iff
  rw [idxOf_byBlocks_lt_iff ((hmem _).mpr (hknown _ hbehind))
    ((hmem _).mpr (hknown _ hitem)), htask _ hbehind, htask _ hitem]
  · exact hsort.tasks_greedy.idxOf_lt_iff hsort.tasks_ordersBy
      (htasks _ hbehind) (htasks _ hitem) hne
  · rw [htask _ hbehind]
    exact (hmem' _).mpr (htasks _ hbehind)
  · rw [htask _ hitem]
    exact (hmem' _).mpr (htasks _ hitem)
  · rw [htask _ hbehind, htask _ hitem]
    exact hne

theorem SortedBy.member_lt_iff (h : Tree.WellFormed tree)
    (hsort : SortedBy tree routes prefixes scopes tasks) {groupId : GroupId}
    {behind member : StableLayerId} (hbehind : behind ∈ tree.membersOf groupId)
    (hmember : member ∈ tree.membersOf groupId) (hne : behind ≠ member) :
    (byBlocks (taskFor tree) scopes tasks).idxOf (.layer behind) <
        (byBlocks (taskFor tree) scopes tasks).idxOf (.layer member) ↔
      ¬Overtakes (MustPrecede tree tree.below routes prefixes)
        tree.below.compositeRank (.layer member) (.layer behind) := by
  have hknown : ∀ layerId ∈ tree.membersOf groupId,
      layer layerId ∈ tree.knownScopes := fun layerId hlayer =>
    Tree.mem_knownScopes.mpr (.inl (h.member_mem_rootWalk hlayer))
  have hne' : layer behind ≠ .layer member := fun heq => hne (layer.inj heq)
  have hmem := hsort.scopes_ordersBy.mem_iff
  rw [idxOf_byBlocks_lt_iff_of_eq ((hmem _).mpr (hknown _ hbehind))
    ((hmem _).mpr (hknown _ hmember)) _ _ hne']
  · exact hsort.scopes_greedy.idxOf_lt_iff hsort.scopes_ordersBy
      (hknown _ hbehind) (hknown _ hmember) hne'
  · exact (hsort.tasks_ordersBy.mem_iff _).mpr (mem_image_of_mem _ (hknown _ hmember))
  · rw [h.taskFor_member hbehind, h.taskFor_member hmember]

theorem SortedBy.exists_schedules_iff (h : Tree.WellFormed tree)
    (hroutes : Within tree.knownScopes routes) (hpre : prefixes.consumers ⊆ tree.knownScopes)
    (hsort : SortedBy tree routes prefixes scopes tasks) (taps : List PlannedImageTap) :
    (∃ schedules, buildBlockSchedules (schedulePlan tree (byBlocks (taskFor tree) scopes tasks))
        (retainedScopeSources (prepareTapSurfaces taps)) = .ok schedules ∧
      Schedules tree (byBlocks (taskFor tree) scopes tasks) (prepareTapSurfaces taps) schedules) ↔
      Schedulable tree tree.below (MustPrecede tree tree.below routes prefixes) taps := by
  rw [h.exists_schedules_iff (hsort.executes h hroutes hpre).toOrdersBy taps]
  have hroot := pairwise_congr (pairwise_map.mp h.outputs_nodup)
    fun behind hbehind item hitem hne =>
      or_congr_left (c := Retains taps item.output) (hsort.root_lt_iff h hbehind hitem hne)
  have hmems := fun groupId => pairwise_congr (h.members_nodup groupId)
    fun behind hbehind member hmem hne =>
      or_congr_left (c := Retains taps (.layer member)) (hsort.member_lt_iff h hbehind hmem hne)
  rw [hroot]
  simp only [hmems]
  constructor
  · rintro ⟨hroot, hmems⟩
    exact ⟨hroot, hmems⟩
  · intro hschedulable
    exact ⟨hschedulable.root, hschedulable.members⟩

end

def layersOnly (layers : List StableLayerId) : Tree StableLayerId Unit :=
  ⟨[], layers.map fun layerId => .layer layerId .program⟩

theorem layersOnly_wellFormed {layers : List StableLayerId}
    (h : layers.Nodup) : (layersOnly layers).WellFormed where
  groups_nodup := List.nodup_nil
  keys_nodup := by
    rw [layersOnly, List.map_map]
    refine h.map ?_
    intro first second heq
    exact RootItemKey.layer.inj heq
  layers_nodup := by
    simpa [layersOnly, Tree.flattenedLayers, flatMap_map, Tree.itemLayers] using h
  rooted := by
    intro groupId
    rw [Tree.mem_rootedGroups]
    simp [layersOnly, Tree.groupIds]

theorem taskFor_layersOnly (layers : List StableLayerId)
    (scope : VisualScopeId) : taskFor (layersOnly layers) scope = scope := by
  cases scope <;> rfl

/-- The matte of a layer samples another layer in the same frame. -/
def matteTap (consumer producer : StableLayerId) : ImageTapConsumer × PlannedImageTapOrigin :=
  (.layerMatte consumer, .legacyLayerMatte (.selectedLayer producer .postLocalEffects) .ready)

def matteTaps (consumer producer : StableLayerId) : CollectedTaps where
  taps := [⟨(matteTap consumer producer).1, (matteTap consumer producer).2,
    .selectedLayer producer .postLocalEffects⟩]
  diagnostics := []
  dependencies := [⟨.layer consumer, .layer producer, .currentFrame⟩]
  routeEdges := {toLex (.layer producer, .layer consumer)}
  prefixConstraints := .empty

section

variable {layers : List StableLayerId} {consumer producer : StableLayerId}

theorem known_of_mem_layers (h : producer ∈ layers) :
    .layer producer ∈ (layersOnly layers).knownScopes := by
  refine Tree.mem_knownScopes.mpr (.inl ?_)
  have hroot : RootItem.layer producer .program ∈ (layersOnly layers).root := mem_map_of_mem h
  exact Tree.output_mem_rootWalk hroot

theorem collectTaps_matteTap (h : producer ∈ layers) :
    collectTaps ⟨(layersOnly layers).below, (layersOnly layers).knownScopes,
      false, false⟩ [matteTap consumer producer] =
      .ok (matteTaps consumer producer) := by
  have hknown := known_of_mem_layers h
  have hreso : TapContext.resolve ⟨(layersOnly layers).below,
      (layersOnly layers).knownScopes, false, false⟩
      (matteTap consumer producer).1 (matteTap consumer producer).2 =
      .ok (.produced (.selectedLayer producer .postLocalEffects) (.layer producer)) := by
    change (if layer producer ∈ _ then _ else _) = _
    rw [if_pos hknown]
    rfl
  rw [collectTaps, foldlM_cons, bind_ok]
  exact ⟨_, collectTap_ok.mpr ⟨Nat.zero_ne_add_one _, _, hreso, _, rfl, rfl⟩, rfl⟩

theorem within_matteTaps (hcons : consumer ∈ layers) (hprod : producer ∈ layers) :
    Within (layersOnly layers).knownScopes (matteTaps consumer producer).routeEdges := by
  intro edge hedge
  obtain rfl := Finset.mem_singleton.mp hedge
  exact ⟨known_of_mem_layers hprod, known_of_mem_layers hcons⟩

theorem precede_matteTap {p x : VisualScopeId}
    (h : MustPrecede (layersOnly layers) (layersOnly layers).below
      (matteTaps consumer producer).routeEdges .empty p x) :
    p = .layer producer ∧ x = .layer consumer ∨
      p ∈ layers.map VisualScopeId.layer ∧ x = .master ∨
      p = .master ∧ x = .program := by
  cases h with
  | route hroute =>
    have hedge := toLex_inj.mp (Finset.mem_singleton.mp hroute)
    exact .inl (Prod.mk.inj hedge)
  | member hgrp => cases hgrp
  | output hout =>
    refine .inr (.inl ⟨?_, rfl⟩)
    simpa [layersOnly, Tree.below, comp_def, RootItem.output] using hout
  | program => exact .inr (.inr ⟨rfl, rfl⟩)
  | below hcons => cases hcons

/-- The stage of a scope: the donors, the consumer, the master, the program. -/
def matteRank (consumer : StableLayerId) : VisualScopeId → ℕ
  | .layer layerId => if layerId = consumer then 1 else 0
  | .group _ => 0
  | .master => 2
  | .program => 3

theorem exists_sortedBy_matteTap (consumer producer : StableLayerId) (h : layers.Nodup)
    (hcons : consumer ∈ layers) (hprod : producer ∈ layers) (hne : consumer ≠ producer) :
    ∃ scopes tasks, executionOrder (layersOnly layers).knownScopes
        (layersOnly layers) (layersOnly layers).below
        (matteTaps consumer producer).routeEdges .empty =
          some (.ok (byBlocks (taskFor (layersOnly layers)) scopes tasks)) ∧
      SortedBy (layersOnly layers) (matteTaps consumer producer).routeEdges
        .empty scopes tasks := by
  have hrank : ∀ p x, MustPrecede (layersOnly layers) (layersOnly layers).below
      (matteTaps consumer producer).routeEdges .empty p x →
        matteRank consumer p < matteRank consumer x := by
    intro p x hedge
    rcases precede_matteTap hedge with ⟨rfl, rfl⟩ | ⟨hp, rfl⟩ | ⟨rfl, rfl⟩
    · simp [matteRank, Ne.symm hne]
    · obtain ⟨layerId, -, rfl⟩ := mem_map.mp hp
      simp only [matteRank]
      split <;> omega
    · simp [matteRank]
  have hacyc : ∀ {R : VisualScopeId → VisualScopeId → Prop},
      (∀ p x, R p x → matteRank consumer p < matteRank consumer x) → ∀ x, ¬TransGen R x x := by
    intro R hup x hcycle
    have hlt := hcycle.lift (matteRank consumer) hup
    rw [transGen_eq_self] at hlt
    exact lt_irrefl _ hlt
  rcases (layersOnly_wellFormed h).executionOrder_cases (within_matteTaps hcons hprod)
    (show PrefixConstraints.empty.consumers ⊆ _ from empty_subset _) with
    ⟨_, -, x, hx⟩ | ⟨_, -, -, t, ht⟩ | hord
  · exact absurd hx (hacyc hrank x)
  · refine absurd ht (hacyc ?_ t)
    rintro p x ⟨-, p', x', hedge, rfl, rfl⟩
    rw [taskFor_layersOnly, taskFor_layersOnly]
    exact hrank p' x' hedge
  · exact hord

theorem overtakes_matteTap {back between front : StableLayerId} (h : [back, between, front].Nodup) :
    Overtakes (Merged (layersOnly [back, between, front])
        (MustPrecede (layersOnly [back, between, front]) (layersOnly [back, between, front]).below
          (matteTaps back front).routeEdges .empty))
      (layersOnly [back, between, front]).below.compositeRank
      (.layer between) (.layer back) := by
  have hranks : [layer back, .layer between, .layer front,
      .master, .program].Pairwise fun x y =>
        readyKey (layersOnly [back, between, front]) x <
          readyKey (layersOnly [back, between, front]) y :=
    (layersOnly_wellFormed h).backToFront_pairwise
  have hkey := (pairwise_cons.mp (pairwise_cons.mp hranks).2).1 (.layer front) mem_cons_self
  have hne : layer front ≠ .layer back := by
    intro heq
    have hback := (nodup_cons.mp h).1
    rw [← layer.inj heq] at hback
    exact hback (List.mem_cons_of_mem _ (List.mem_singleton_self _))
  have hbetween : layer between ≠ .layer back := by
    intro heq
    have hback := (nodup_cons.mp h).1
    rw [← layer.inj heq] at hback
    exact hback mem_cons_self
  refine .ahead (.single ⟨hne, _, _, .route (Finset.mem_singleton_self _), ?_, ?_⟩) hkey ?_
  · exact taskFor_layersOnly _ _
  · exact taskFor_layersOnly _ _
  · rintro p ⟨-, p', x, hedge, rfl, hx⟩
    rw [taskFor_layersOnly] at hx
    subst hx
    rcases precede_matteTap hedge with ⟨-, heq⟩ | ⟨-, heq⟩ | ⟨-, heq⟩
    · exact absurd heq hbetween
    · cases heq
    · cases heq

end

/-- An admitted plan can be scheduled, back to front, exactly when every scope
that overtakes one behind it is retained by a tap. -/
theorem admitted_plans_schedulable {checkRack : Body → Except E Unit}
    (hvalid : Tree.validateStructure checkRack tree = .ok ())
    {below : BelowTopology} (hbelow : belowTopology tree = .ok below)
    {canvas program : Bool}
    {requests : List (ImageTapConsumer × PlannedImageTapOrigin)}
    (hconsumers : ∀ request ∈ requests, request.1.scope ∈ tree.knownScopes)
    {collected : CollectedTaps}
    (hcollect : collectTaps ⟨below, tree.knownScopes, canvas, program⟩ requests = .ok collected)
    {order : List VisualScopeId}
    (horder : executionOrder tree.knownScopes tree below collected.routeEdges
      collected.prefixConstraints = some (.ok order)) :
    (∃ schedules, buildBlockSchedules (schedulePlan tree order)
        (retainedScopeSources (prepareTapSurfaces collected.taps)) = .ok schedules ∧
      Schedules tree order (prepareTapSurfaces collected.taps) schedules) ↔
      Schedulable tree below (MustPrecede tree below collected.routeEdges
        collected.prefixConstraints) collected.taps := by
  have h := (Tree.validateStructure_ok.mp hvalid).1
  rw [h.belowTopology_eq] at hbelow
  cases hbelow
  obtain ⟨hroutes, hprefixes⟩ := h.collectTaps_known hconsumers hcollect
  rcases h.executionOrder_cases hroutes hprefixes with
    ⟨_, hresult, -⟩ | ⟨_, hresult, -⟩ | ⟨scopes, tasks, hresult, hsorted⟩
  · rw [hresult] at horder
    cases horder
  · rw [hresult] at horder
    cases horder
  · rw [hresult] at horder
    cases horder
    exact hsorted.exists_schedules_iff h hroutes hprefixes collected.taps

/-- The front layer is rendered before the one behind it and retained for the
matte that samples it. -/
theorem admitted_plans_schedulable_retained :
    ∃ order schedules,
      executionOrder (layersOnly [⟨1, by decide⟩, ⟨2, by decide⟩]).knownScopes
        (layersOnly [⟨1, by decide⟩, ⟨2, by decide⟩])
        (layersOnly [⟨1, by decide⟩, ⟨2, by decide⟩]).below
        (matteTaps ⟨1, by decide⟩ ⟨2, by decide⟩).routeEdges .empty = some (.ok order) ∧
      buildBlockSchedules (schedulePlan (layersOnly [⟨1, by decide⟩, ⟨2, by decide⟩]) order)
        (retainedScopeSources (prepareTapSurfaces
          (matteTaps ⟨1, by decide⟩ ⟨2, by decide⟩).taps)) = .ok schedules := by
  have hnodup : ([⟨1, by decide⟩, ⟨2, by decide⟩] : List StableLayerId).Nodup := by decide
  have h := layersOnly_wellFormed hnodup
  obtain ⟨scopes, tasks, horder, -⟩ := exists_sortedBy_matteTap
    ⟨1, by decide⟩ ⟨2, by decide⟩ hnodup (by decide) (by decide) (by decide)
  have hvalid : Tree.validateStructure (E := Unit) (fun _ => .ok ())
      (layersOnly [⟨1, by decide⟩, ⟨2, by decide⟩]) = .ok () :=
    Tree.validateStructure_ok.mpr ⟨h, fun _ _ => rfl⟩
  have hconsumers : ∀ request ∈ [matteTap ⟨1, by decide⟩ ⟨2, by decide⟩],
      request.1.scope ∈ (layersOnly [⟨1, by decide⟩, ⟨2, by decide⟩]).knownScopes := by
    intro request hrequest
    obtain rfl := List.mem_singleton.mp hrequest
    exact known_of_mem_layers (by decide)
  have hretains : Retains (matteTaps ⟨1, by decide⟩ ⟨2, by decide⟩).taps (.layer ⟨2, by decide⟩) :=
    ⟨_, List.mem_singleton_self _, rfl⟩
  obtain ⟨schedules, hschedules, -⟩ := (admitted_plans_schedulable hvalid
    h.belowTopology_eq hconsumers (collectTaps_matteTap (by decide))
    horder).mpr {
      root := pairwise_pair.mpr (.inr hretains)
      members := by
        intro groupId hgroup
        cases hgroup }
  exact ⟨_, schedules, horder, hschedules⟩

/-- The matte of the back layer samples the front one.  The layer between them
is rendered first of all, and no tap retains it. -/
theorem matte_of_front_layer_not_schedulable :
    ∃ tree : Tree StableLayerId Unit,
      tree = layersOnly [⟨1, by decide⟩, ⟨2, by decide⟩, ⟨3, by decide⟩] ∧
      Tree.validateStructure (E := Unit) (fun _ => .ok ()) tree = .ok () ∧
      belowTopology tree = .ok tree.below ∧
      collectTaps ⟨tree.below, tree.knownScopes, false, false⟩
        [matteTap ⟨1, by decide⟩ ⟨3, by decide⟩] =
        .ok (matteTaps ⟨1, by decide⟩ ⟨3, by decide⟩) ∧
      ∃ order, executionOrder tree.knownScopes tree tree.below
          (matteTaps ⟨1, by decide⟩ ⟨3, by decide⟩).routeEdges .empty = some (.ok order) ∧
        ¬∃ schedules, buildBlockSchedules (schedulePlan tree order)
            (retainedScopeSources (prepareTapSurfaces
              (matteTaps ⟨1, by decide⟩ ⟨3, by decide⟩).taps)) =
              .ok schedules ∧
          Schedules tree order (prepareTapSurfaces
            (matteTaps ⟨1, by decide⟩ ⟨3, by decide⟩).taps) schedules := by
  have hnodup : ([⟨1, by decide⟩, ⟨2, by decide⟩, ⟨3, by decide⟩] : List StableLayerId).Nodup := by
    decide
  have h := layersOnly_wellFormed hnodup
  obtain ⟨scopes, tasks, horder, hsorted⟩ := exists_sortedBy_matteTap
    ⟨1, by decide⟩ ⟨3, by decide⟩ hnodup (by decide) (by decide) (by decide)
  refine ⟨_, rfl, Tree.validateStructure_ok.mpr ⟨h, fun _ _ => rfl⟩,
    h.belowTopology_eq, collectTaps_matteTap (by decide), _, horder, ?_⟩
  rw [hsorted.exists_schedules_iff h (within_matteTaps (by decide) (by decide)) (empty_subset _)]
  intro hschedulable
  rcases (pairwise_cons.mp hschedulable.root).1 _ mem_cons_self with hnot | ⟨tap, htap, hscope⟩
  · exact hnot (overtakes_matteTap hnodup)
  · obtain rfl := List.mem_singleton.mp htap
    revert hscope
    decide

end CollideOScope.Composition
