import CollideOScope.Patch.LookValues
import Mathlib.Data.List.Find

/-!
# What a look lists

Every considered rack is listed node by node, as applied or as skipped, once.
What is listed as applied carries the saved values; what is listed as skipped is
what it was, unless a Study node stopped the writer halfway.
-/

namespace CollideOScope.Patch

open Composition Morph LookRackScope VisualNode LookUnit List Option

def appliedRefs (entries : List (LookUnit × Bool)) : List LookNodeRef :=
  entries.flatMap fun entry => if entry.2 then entry.1.refs else []

def skippedRefs (entries : List (LookUnit × Bool)) : List LookNodeRef :=
  entries.flatMap fun entry => if entry.2 then [] else entry.1.refs

theorem appliedRefs_append (xs ys : List (LookUnit × Bool)) :
    appliedRefs (xs ++ ys) = appliedRefs xs ++ appliedRefs ys :=
  flatMap_append

theorem skippedRefs_append (xs ys : List (LookUnit × Bool)) :
    skippedRefs (xs ++ ys) = skippedRefs xs ++ skippedRefs ys :=
  flatMap_append

theorem perm_refs (entries : List (LookUnit × Bool)) :
    (appliedRefs entries ++ skippedRefs entries).Perm ((entries.map Prod.fst).flatMap refs) := by
  induction entries with
  | nil => exact .nil
  | cons entry rest ih =>
    obtain ⟨unit, applied⟩ := entry
    have happlied : appliedRefs ((unit, applied) :: rest) =
        (if applied then unit.refs else []) ++ appliedRefs rest := rfl
    have hskip : skippedRefs ((unit, applied) :: rest) =
        (if applied then [] else unit.refs) ++ skippedRefs rest := rfl
    rw [happlied, hskip, List.map_cons, flatMap_cons]
    cases applied with
    | true => simpa using ih.append_left unit.refs
    | false =>
      have hmoved : (appliedRefs rest ++
          (unit.refs ++ skippedRefs rest)).Perm
            (unit.refs ++ (appliedRefs rest ++ skippedRefs rest)) := by
        rw [← append_assoc, ← append_assoc]
        exact perm_append_comm.append_right _
      exact hmoved.trans (ih.append_left unit.refs)

structure Lists (summary : LookApplySummary) (entries : List (LookUnit × Bool)) : Prop where
  applied : summary.appliedNodes = appliedRefs entries
  skipped : summary.skippedNodes = skippedRefs entries

namespace Lists

variable {summary : LookApplySummary} {entries : List (LookUnit × Bool)}

variable (h : Lists summary entries)
include h

theorem record (unit : LookUnit) (applied : Bool) :
    Lists (summary.recordLookRackNodes unit applied) (entries ++ [(unit, applied)]) := by
  cases applied with
  | true | false =>
    refine ⟨?_, ?_⟩
    · rw [appliedRefs_append, ← h.applied]
      simp [LookApplySummary.recordLookRackNodes, appliedRefs]
    · rw [skippedRefs_append, ← h.skipped]
      simp [LookApplySummary.recordLookRackNodes, skippedRefs]

theorem recordRack (unit : LookUnit) (applied : Bool) :
    Lists (summary.recordRack unit applied) (entries ++ [(unit, applied)]) := by
  cases applied with
  | true =>
    have hcnt : Lists { summary with appliedRacks := summary.appliedRacks + 1 } entries :=
      ⟨h.applied, h.skipped⟩
    exact hcnt.record unit true
  | false =>
    have hcnt : Lists { summary with skippedRacks := summary.skippedRacks + 1 } entries :=
      ⟨h.applied, h.skipped⟩
    exact hcnt.record unit false

theorem recordGroup (group : SavedGroup) (applied : Bool) :
    Lists (summary.recordGroup group applied) (entries ++ [(.ofGroup group, applied)]) := by
  cases applied with
  | true =>
    have hcnt : Lists
        { summary with
          appliedGroups := summary.appliedGroups + 1
          appliedGroupIds := summary.appliedGroupIds ++ [group.id] }
        entries := ⟨h.applied, h.skipped⟩
    exact hcnt.record (.ofGroup group) true
  | false =>
    have hcnt : Lists
        { summary with
          skippedGroups := summary.skippedGroups + 1
          skippedGroupIds := summary.skippedGroupIds ++ [group.id] }
        entries := ⟨h.applied, h.skipped⟩
    exact hcnt.record (.ofGroup group) false

theorem recordRacks (units : List LookUnit) (verdicts : List Bool) :
    Lists (summary.recordRacks units verdicts) (entries ++ units.zip verdicts) := by
  rw [LookApplySummary.recordRacks]
  generalize units.zip verdicts = racks
  induction racks generalizing summary entries with
  | nil => simpa using h
  | cons entry rest ih =>
    have hrest := ih (h.recordRack entry.1 entry.2)
    rwa [append_assoc, singleton_append] at hrest

theorem recordGroups (groups : List SavedGroup) (verdicts : List Bool) :
    Lists (summary.recordGroups groups verdicts)
      (entries ++ (groups.map ofGroup).zip verdicts) := by
  have hzip : (groups.map ofGroup).zip verdicts =
      (groups.zip verdicts).map (Prod.map ofGroup id) := by
    rw [zip_map_left]
  rw [LookApplySummary.recordGroups, hzip]
  generalize groups.zip verdicts = given
  induction given generalizing summary entries with
  | nil => simpa using h
  | cons entry rest ih =>
    have hrest := ih (h.recordGroup entry.1 entry.2)
    rwa [append_assoc, singleton_append] at hrest

end Lists

def listedGroupIds (summary : LookApplySummary) (applied : Bool) : List GroupId :=
  if applied then summary.appliedGroupIds else summary.skippedGroupIds

theorem listedGroupIds_recordGroup (summary : LookApplySummary)
    (group : SavedGroup) (verdict applied : Bool) :
    listedGroupIds (summary.recordGroup group verdict) applied =
      listedGroupIds summary applied ++ if verdict = applied then [group.id] else [] := by
  cases verdict <;> cases applied <;>
    simp [listedGroupIds, LookApplySummary.recordGroup, LookApplySummary.recordLookRackNodes]

theorem mem_listedGroupIds {summary : LookApplySummary}
    {groups : List SavedGroup} {verdicts : List Bool} {group : SavedGroup}
    {applied : Bool} (h : (group, applied) ∈ groups.zip verdicts) :
    group.id ∈ listedGroupIds (summary.recordGroups groups verdicts) applied := by
  have hloop : ∀ (given : List (SavedGroup × Bool)) (summary : LookApplySummary),
      (group, applied) ∈ given ∨ group.id ∈ listedGroupIds summary applied →
      group.id ∈ listedGroupIds (given.foldl (fun summary entry =>
        summary.recordGroup entry.1 entry.2) summary) applied := by
    intro given
    induction given with
    | nil =>
      intro summary hlisted
      exact hlisted.resolve_left not_mem_nil
    | cons entry rest ih =>
      intro summary hlisted
      apply ih
      rw [listedGroupIds_recordGroup]
      rcases hlisted with hent | hearl
      · rcases mem_cons.mp hent with rfl | hrest
        · right
          simp
        · exact .inl hrest
      · exact .inr (mem_append_left _ hearl)
  exact hloop _ summary (.inl h)

/-- The layer has its donors and its matte route still. -/
structure LayerKept (live after : LiveLayer) : Prop where
  id : after.id = live.id
  donors : after.motion.donors = live.motion.donors
  enabled : after.matte.enabled = live.matte.enabled
  input : after.matte.input = live.matte.input
  channel : after.matte.channel = live.matte.channel
  invert : after.matte.invert = live.matte.invert

/-- The routes of the garden and the driver of the score stay. -/
structure TemporalKept (live after : TemporalParams) : Prop where
  matteRoute : after.originals.garden.matteRoute = live.originals.garden.matteRoute
  motionRoute : after.originals.garden.motionRoute = live.originals.garden.motionRoute
  loopDriver : after.originals.score.loopDriver = live.originals.score.loopDriver

/-- The order of the composition, its cursor and the wiring of its groups
stay. -/
structure CompositionKept (live after : RuntimeComposition) : Prop where
  root : after.tree.root = live.tree.root
  cursor : after.nextGroupId = live.nextGroupId
  groups : List.Forall₂ GroupKept live.tree.groups after.tree.groups

theorem CompositionKept.refl (live : RuntimeComposition) : CompositionKept live live :=
  ⟨rfl, rfl, forall₂_same.mpr fun group _ => .refl group⟩

theorem donors_lookMotion (live : MotionParams) (config : Option MotionConfig) :
    (lookMotion live config).donors = live.donors := by
  cases config with
  | none | some config => rfl

theorem LayerKept.applyLook (layerAt : SavedLayerPosition → Option StableLayerId)
    (config : LayerConfig) (layer : LiveLayer) :
    LayerKept layer (layer.applyLook layerAt config) := by
  have hmatte : ∀ after,
      (applyLayerMatteLookValues layerAt config.matte layer.matte).2 = after →
      after.enabled = layer.matte.enabled ∧ after.input = layer.matte.input ∧
        after.channel = layer.matte.channel ∧
        after.invert = layer.matte.invert := by
    rintro after rfl
    simp only [applyLayerMatteLookValues]
    split
    · exact ⟨rfl, rfl, rfl, rfl⟩
    · exact ⟨rfl, rfl, rfl, rfl⟩
  obtain ⟨henab, hinp, hchannel, hinvert⟩ := hmatte _ rfl
  exact ⟨rfl, donors_lookMotion layer.motion config.motion, henab, hinp, hchannel, hinvert⟩

theorem forall₂_layerKept (layerAt : SavedLayerPosition → Option StableLayerId)
    (configs : List LookLayer) (layers : List LiveLayer) :
    List.Forall₂ LayerKept layers (applyPositionalLooks layerAt configs layers) := by
  have hsame : ∀ layers : List LiveLayer,
      List.Forall₂ LayerKept layers layers := fun layers =>
    forall₂_same.mpr fun layer _ => ⟨rfl, rfl, rfl, rfl, rfl, rfl⟩
  induction configs generalizing layers with
  | nil => cases layers <;> exact hsame _
  | cons config configs ih =>
    cases layers with
    | nil => exact .nil
    | cons layer layers => exact .cons (.applyLook layerAt config.toLayerConfig layer) (ih layers)

theorem TemporalKept.look (live : TemporalParams) (config : Option TemporalConfig) :
    TemporalKept live (lookTemporal live config) := by
  cases config with
  | none | some config => exact ⟨rfl, rfl, rfl⟩

section

variable {layerAt : SavedLayerPosition → Option StableLayerId}

def groupExistsIn (live : RuntimeComposition) (groupId : GroupId) : Bool :=
  (live.tree.group groupId).isSome

structure FoundGroupOutcome (layerAt : SavedLayerPosition → Option StableLayerId)
    (live after : RuntimeComposition) (saved : SavedGroup) (done : Bool) :
    Prop where
  missing : live.tree.group saved.id = none → done = false ∧ after.tree.group saved.id = none
  found : ∀ group, live.tree.group saved.id = some group →
    ∃ written, after.tree.group saved.id = some written ∧
      SavedGroupOutcome saved group
        (GroupHeld layerAt (groupExistsIn live) saved group) done written

variable {saved : CompositionTree} {live : RuntimeComposition}

def groupVerdict (layerAt : SavedLayerPosition → Option StableLayerId)
    (live : RuntimeComposition) : SavedGroup → Bool :=
  verdictOn Group.id Group.id (applySavedGroup layerAt (groupExistsIn live)) live.tree.groups

def groupAfter (layerAt : SavedLayerPosition → Option StableLayerId)
    (saved : CompositionTree) (live : RuntimeComposition) :
    LiveGroup → LiveGroup :=
  updatedBy Group.id Group.id (applySavedGroup layerAt (groupExistsIn live)) saved.tree.groups

theorem groupAfter_kept (hsaved : ∀ group ∈ saved.tree.groups, BoundedGroup group)
    {group : LiveGroup} (hdist : DistinctNodes group.body.rack) :
    GroupKept group (groupAfter layerAt saved live group) := by
  rw [groupAfter, updatedBy]
  split
  · exact .refl group
  · next given hfind =>
      obtain ⟨done, after, happ, hout⟩ :=
        savedGroup_outcome layerAt (groupExistsIn live)
          (hsaved given (mem_of_find?_eq_some hfind)) hdist
      rw [happ]
      exact hout.kept

theorem find?_group {L Body : Type} {groups : List (Group L Body)}
    (hids : (groups.map Group.id).Nodup) {group : Group L Body}
    (hgrp : group ∈ groups) {groupId : GroupId} (h : groupId = group.id) :
    (groups.find? fun other => other.id = groupId) = some group := by
  cases hfind : groups.find? fun other => other.id = groupId with
  | none =>
    have hnone := find?_eq_none.mp hfind group hgrp
    simp [h] at hnone
  | some other =>
    have hid : other.id = groupId := by simpa using find?_some hfind
    have hsame : other = group := inj_on_of_nodup_map hids
      (mem_of_find?_eq_some hfind) hgrp (hid.trans h)
    rw [hsame]

variable (hsaved : ∀ group ∈ saved.tree.groups, BoundedGroup group)
  (hids : saved.tree.groupIds.Nodup)
include hsaved hids

theorem foundGroup_outcome (hracks : ∀ group ∈ live.tree.groups, DistinctNodes group.body.rack)
    {after : RuntimeComposition}
    (hafter : after.tree.groups = live.tree.groups.map (groupAfter layerAt saved live))
    {group : SavedGroup} (hgrp : group ∈ saved.tree.groups) :
    FoundGroupOutcome layerAt live after group (groupVerdict layerAt live group) := by
  have hsame : ∀ other ∈ live.tree.groups,
      (groupAfter layerAt saved live other).id = other.id := fun other hother =>
    (groupAfter_kept hsaved (hracks other hother)).id
  have hlook : after.tree.group group.id =
      (live.tree.group group.id).map (groupAfter layerAt saved live) := by
    rw [Tree.group, hafter, find?_map, Tree.group]
    congr 1
    refine find?_congr fun other hother => ?_
    rw [Function.comp_apply, hsame other hother]
  refine ⟨?_, ?_⟩
  · intro hnone
    refine ⟨?_, by rw [hlook, hnone]; rfl⟩
    rw [groupVerdict, verdictOn]
    rw [Tree.group] at hnone
    rw [hnone]
  · intro other hother
    rw [Tree.group] at hother
    have hmem := mem_of_find?_eq_some hother
    have hid : other.id = group.id := by simpa using find?_some hother
    obtain ⟨done, written, happ, hout⟩ :=
      savedGroup_outcome layerAt (groupExistsIn live) (hsaved group hgrp) (hracks other hmem)
    have hverdict : groupVerdict layerAt live group = done := by
      rw [groupVerdict, verdictOn, hother]
      simp [happ]
    have hwrit : groupAfter layerAt saved live other = written := by
      rw [groupAfter, updatedBy, find?_group hids hgrp hid]
      simp [happ]
    refine ⟨written, ?_, hverdict ▸ hout⟩
    rw [hlook, Tree.group, hother, map_some, hwrit]

/-- What `apply_saved_composition_look` does. -/
theorem applySavedCompositionLook_run (hgrps : live.tree.groupIds.Nodup)
    (hracks : ∀ group ∈ live.tree.groups, DistinctNodes group.body.rack)
    {summary : LookApplySummary} {entries : List (LookUnit × Bool)}
    (hlists : Lists summary entries) :
    ∃ summary' after,
      applySavedCompositionLook layerAt saved live summary = some (summary', after) ∧
      Lists summary' (entries ++ saved.tree.groups.map fun group =>
        (.ofGroup group, groupVerdict layerAt live group)) ∧
      CompositionKept live after ∧
      ∀ group ∈ saved.tree.groups,
        group.id ∈ listedGroupIds summary' (groupVerdict layerAt live group) ∧
        FoundGroupOutcome layerAt live after group (groupVerdict layerAt live group) := by
  have hloop : updateEach Group.id Group.id
      (applySavedGroup layerAt (groupExistsIn live)) saved.tree.groups live.tree.groups =
      some (saved.tree.groups.map (groupVerdict layerAt live),
        live.tree.groups.map (groupAfter layerAt saved live)) := by
    refine updateEach_eq ?_ hids hgrps ?_
    · intro given item verdict written hwrite
      exact applySavedGroup_id hwrite
    · intro given hgiven item hitem _
      obtain ⟨done, after, happ, -⟩ :=
        savedGroup_outcome layerAt (groupExistsIn live) (hsaved given hgiven) (hracks item hitem)
      exact ⟨(done, after), happ⟩
  have hkept : Forall₂ GroupKept live.tree.groups
      (live.tree.groups.map (groupAfter layerAt saved live)) := by
    rw [forall₂_map_right_iff]
    exact forall₂_same.mpr fun group hgrp => groupAfter_kept hsaved (hracks group hgrp)
  let shown := if lookRootIdentityMatches layerAt saved live = true then
    withCrossfadeAndMixer saved live else live
  have htree : shown.tree = live.tree := by
    simp only [shown]
    split <;> rfl
  have hcur : shown.nextGroupId = live.nextGroupId := by
    simp only [shown]
    split <;> rfl
  let counted : LookApplySummary :=
    { summary with
      appliedBusCrossfade := summary.appliedBusCrossfade ||
        lookRootIdentityMatches layerAt saved live
      skippedBusCrossfade := summary.skippedBusCrossfade ||
        !lookRootIdentityMatches layerAt saved live }
  have hcnt : Lists counted entries := ⟨hlists.applied, hlists.skipped⟩
  refine ⟨counted.recordGroups saved.tree.groups
      (saved.tree.groups.map (groupVerdict layerAt live)),
    { shown with tree := { shown.tree with
      groups := live.tree.groups.map (groupAfter layerAt saved live) } },
    ?_, ?_, ⟨?_, hcur, hkept⟩, ?_⟩
  · have hrun : updateEach Group.id Group.id (applySavedGroup layerAt
        fun groupId => (shown.tree.group groupId).isSome) saved.tree.groups shown.tree.groups =
        some (saved.tree.groups.map (groupVerdict layerAt live),
          live.tree.groups.map (groupAfter layerAt saved live)) := by
      rw [htree]
      exact hloop
    simp only [applySavedCompositionLook]
    rw [show (if lookRootIdentityMatches layerAt saved live = true then
      withCrossfadeAndMixer saved live else live) = shown from rfl, hrun]
    rfl
  · have hrec := hcnt.recordGroups saved.tree.groups
      (saved.tree.groups.map (groupVerdict layerAt live))
    rwa [zip_map'] at hrec
  · have hroot : shown.tree.root = live.tree.root := congrArg Tree.root htree
    exact hroot
  · intro group hgrp
    refine ⟨mem_listedGroupIds ?_, foundGroup_outcome hsaved hids hracks rfl hgrp⟩
    rw [← map_prod_left_eq_zip]
    exact mem_map.mpr ⟨group, hgrp, rfl⟩

end

theorem applyLayerRacks_run (layerAt : SavedLayerPosition → Option StableLayerId)
    (groupExists : GroupId → Bool) {saved : List Composition.SavedVisualRack}
    (hsaved : ∀ rack ∈ saved, ∀ node ∈ rack.nodes, node.sanitized = node)
    {live : List RuntimeVisualRack} (hlive : ∀ rack ∈ live, DistinctNodes rack) :
    ∃ verdicts after,
      applyLayerRacks (VisualRack.resolveRoutes layerAt groupExists) saved
        live = some (verdicts, after) ∧
      verdicts.length = min saved.length live.length ∧
      List.Forall₂ RackKept live after ∧
      ∀ (i : ℕ) (given : Composition.SavedVisualRack) (rack : RuntimeVisualRack),
        saved[i]? = some given → live[i]? = some rack →
        ∃ done written, verdicts[i]? = some done ∧
          after[i]? = some written ∧
          SavedRackOutcome given rack (RackHeld layerAt groupExists given rack) done written := by
  induction saved generalizing live with
  | nil =>
    refine ⟨[], live, by simp [applyLayerRacks], by simp,
      forall₂_same.mpr fun rack _ => .refl rack, ?_⟩
    intro i given rack hgiven
    simp at hgiven
  | cons given rest ih =>
    cases live with
    | nil =>
      refine ⟨[], [], by simp [applyLayerRacks], by simp, .nil, ?_⟩
      intro i given rack _ hrack
      simp at hrack
    | cons rack racks =>
      obtain ⟨done, written, happ, hout⟩ :=
        savedRack_outcome layerAt groupExists
          (hsaved given mem_cons_self) (hlive rack mem_cons_self)
      obtain ⟨verdicts, after, hrest, hlen, hkept, hat⟩ :=
        ih (fun other hother => hsaved other (mem_cons_of_mem _ hother))
          fun other hother => hlive other (mem_cons_of_mem _ hother)
      refine ⟨done :: verdicts, written :: after, ?_, ?_, .cons hout.kept hkept, ?_⟩
      · simp [applyLayerRacks, happ, hrest]
      · simp [hlen]
      · intro i other found hother hfound
        cases i with
        | zero =>
          simp only [List.getElem?_cons_zero, Option.some.injEq] at *
          obtain rfl := hother
          obtain rfl := hfound
          exact ⟨done, written, rfl, rfl, hout⟩
        | succ i => exact hat i other found hother hfound

/-- The identities of the nodes and groups are distinct, as the types of live
racks and compositions keep them. -/
structure VisualState.Valid (state : VisualState) : Prop where
  masterRack : DistinctNodes state.masterRack
  layerRacks : ∀ rack ∈ state.layerRacks, DistinctNodes rack
  groupIds : state.composition.tree.groupIds.Nodup
  groupRacks : ∀ group ∈ state.composition.tree.groups, DistinctNodes group.body.rack

namespace LookSections

variable (patch : LookSections)

def savedGroups : List SavedGroup :=
  match patch.composition with
  | none => []
  | some saved => saved.tree.groups

/-- What the loaders of racks and compositions establish. -/
structure Accepted : Prop where
  masterRack : ∀ rack, patch.masterRack = some rack → RackInvariant rack
  layerRacks : ∀ layer ∈ patch.layers, ∀ rack, layer.rack = some rack → RackInvariant rack
  groupIds : (patch.savedGroups.map Group.id).Nodup
  groupRacks : ∀ group ∈ patch.savedGroups, RackInvariant group.body.rack
  groups : ∀ group ∈ patch.savedGroups, group.body.sanitized = group.body

def consideredUnits (live : LiveShow VisualState) : List LookUnit :=
  (patch.masterUnit :: patch.layerUnits live) ++ patch.savedGroups.map LookUnit.ofGroup

end LookSections

/-- A unit is listed as applied, and then taken, or it is listed as skipped, and
then unchanged. -/
def Recalled (summary : LookApplySummary) (unit : LookUnit) (taken unchanged : Prop) : Prop :=
  ((∀ ref ∈ unit.refs, ref ∈ summary.appliedNodes) ∧ taken) ∨
    ((∀ ref ∈ unit.refs, ref ∈ summary.skippedNodes) ∧ unchanged)

structure MovesValuesOnly (patch : LookSections) (live : LiveShow VisualState)
    (summary : LookApplySummary) (after : LiveShow VisualState) : Prop where
  layers : List.Forall₂ LayerKept live.layers after.layers
  masterMotion : after.masterMotion = live.masterMotion
  temporal : TemporalKept live.temporal after.temporal
  masterRack : RackKept live.graph.masterRack after.graph.masterRack
  layerRacks : List.Forall₂ RackKept live.graph.layerRacks after.graph.layerRacks
  composition : CompositionKept live.graph.composition after.graph.composition
  masterRecalled : Recalled summary patch.masterUnit
    (RackTaken patch.effectiveMasterRack after.graph.masterRack)
    (after.graph.masterRack = live.graph.masterRack)
  layersRecalled : ∀ (i : ℕ) (layerId : StableLayerId)
    (saved : Composition.SavedVisualRack) (rack written : RuntimeVisualRack),
    live.ids[i]? = some layerId → (patch.mappedRacks live)[i]? = some saved →
    live.graph.layerRacks[i]? = some rack →
    after.graph.layerRacks[i]? = some written →
    Recalled summary (.ofRack (.layer layerId) saved) (RackTaken saved written) (written = rack)
  groupsRecalled : ∀ saved ∈ patch.savedGroups,
    Recalled summary (.ofGroup saved)
      (saved.id ∈ summary.appliedGroupIds ∧
        ∃ written, after.graph.composition.tree.group saved.id =
          some written ∧ GroupTaken saved written)
      (saved.id ∈ summary.skippedGroupIds ∧
        after.graph.composition.tree.group saved.id = live.graph.composition.tree.group saved.id)
  listed : (summary.appliedNodes ++ summary.skippedNodes).Perm
    ((patch.consideredUnits live).flatMap refs)
  listed_once : (summary.appliedNodes ++ summary.skippedNodes).Nodup

/-- Every unit that is wired alike and carries a Study node has, up to that
node, what would be written before the writer stops. -/
structure StudiesHeld (patch : LookSections) (live : LiveShow VisualState) : Prop where
  masterRack : RackHeld live.layerAt (groupExistsIn live.graph.composition)
    patch.effectiveMasterRack live.graph.masterRack
  layerRacks : ∀ (i : ℕ) (saved : Composition.SavedVisualRack) (rack : RuntimeVisualRack),
    (patch.mappedRacks live)[i]? = some saved →
    live.graph.layerRacks[i]? = some rack →
    RackHeld live.layerAt (groupExistsIn live.graph.composition) saved rack
  groups : ∀ saved ∈ patch.savedGroups, ∀ group,
    live.graph.composition.tree.group saved.id = some group →
    GroupHeld live.layerAt (groupExistsIn live.graph.composition) saved group

variable {done : Bool} {held : Prop}

theorem recalled_iff {summary : LookApplySummary} {entries : List (LookUnit × Bool)}
    (hlists : Lists summary entries) (honce : (summary.appliedNodes ++ summary.skippedNodes).Nodup)
    {unit : LookUnit} (hmem : (unit, done) ∈ entries) {taken unchanged : Prop}
    (htaken : done = true → taken) (hdone : done = true → held)
    (hunchanged : done = false → (unchanged ↔ held)) (hemp : unit.refs = [] → held) :
    Recalled summary unit taken unchanged ↔ held := by
  cases done with
  | true =>
    refine iff_of_true (.inl ⟨?_, htaken rfl⟩) (hdone rfl)
    intro ref href
    rw [hlists.applied]
    exact mem_flatMap.mpr ⟨_, hmem, href⟩
  | false =>
    have hskip : ∀ ref ∈ unit.refs, ref ∈ summary.skippedNodes := by
      intro ref href
      rw [hlists.skipped]
      exact mem_flatMap.mpr ⟨_, hmem, href⟩
    constructor
    · rintro (⟨happlied, -⟩ | ⟨-, hsame⟩)
      · apply hemp
        rw [eq_nil_iff_forall_not_mem]
        intro ref href
        exact (nodup_append.mp honce).2.2 ref (happlied ref href) ref (hskip ref href) rfl
      · exact (hunchanged rfl).mp hsame
    · intro hheld
      exact .inr ⟨hskip, (hunchanged rfl).mpr hheld⟩

/-- The nodes of the rack are bounded and have identities of their own. -/
structure SoundRack (rack : Composition.SavedVisualRack) : Prop where
  distinct : DistinctNodes rack
  bounded : ∀ node ∈ rack.nodes, node.sanitized = node

variable {rack : Composition.SavedVisualRack}

theorem soundRack_of_invariant (h : RackInvariant rack) : SoundRack rack :=
  ⟨h.ids_nodup, h.sanitized⟩

theorem soundRack_synthetic (scope : LegacyRackScope) :
    SoundRack (VisualRack.syntheticLegacy scope) := by
  cases scope with
  | group => exact ⟨nodup_nil, fun node hnode => nomatch hnode⟩
  | layer =>
    refine ⟨by simp [DistinctNodes, VisualRack.syntheticLegacy], ?_⟩
    intro node hnode
    obtain rfl := mem_singleton.mp hnode
    exact sanitized_authored _ _
  | master =>
    refine ⟨?_, ?_⟩
    · have hne : NodeId.legacyCanonical ≠ NodeId.legacyTemporal := by decide
      simp [DistinctNodes, VisualRack.syntheticLegacy, authored, hne]
    · intro node hnode
      rcases mem_cons.mp hnode with rfl | hnode
      · exact sanitized_authored _ _
      · obtain rfl := mem_singleton.mp hnode
        exact sanitized_authored _ _

namespace LookSections.Accepted

variable {patch : LookSections} (h : patch.Accepted)
include h

theorem soundMaster : SoundRack patch.effectiveMasterRack := by
  unfold effectiveMasterRack
  cases hrack : patch.masterRack with
  | none => exact soundRack_synthetic .master
  | some rack => exact soundRack_of_invariant (h.masterRack rack hrack)

theorem soundMapped (live : LiveShow VisualState) :
    ∀ rack ∈ patch.mappedRacks live, SoundRack rack := by
  intro rack hrack
  obtain ⟨layer, hlayer, rfl⟩ := mem_map.mp (mem_of_mem_take hrack)
  unfold LookLayer.effectiveRack
  cases hsaved : layer.rack with
  | none => exact soundRack_synthetic .layer
  | some rack => exact soundRack_of_invariant (h.layerRacks layer hlayer rack hsaved)

theorem boundedGroup :
    ∀ group ∈ patch.savedGroups, BoundedGroup group := fun group hgrp =>
  ⟨h.groups group hgrp, (h.groupRacks group hgrp).sanitized⟩

end LookSections.Accepted

theorem nodup_unitRefs {units : List LookUnit} (hscopes : (units.map scope).Nodup)
    (hnodes : ∀ unit ∈ units, unit.nodeIds.Nodup) :
    (units.flatMap LookUnit.refs).Nodup := by
  rw [nodup_flatMap]
  constructor
  · intro unit hunit
    refine (hnodes unit hunit).map fun a b hab => ?_
    exact congrArg LookNodeRef.nodeId hab
  · rw [Nodup, pairwise_map] at hscopes
    refine hscopes.imp fun {a b} hne => ?_
    intro ref ha hb
    obtain ⟨_, -, rfl⟩ := mem_map.mp ha
    obtain ⟨_, -, hsame⟩ := mem_map.mp hb
    exact hne (congrArg LookNodeRef.scope hsame).symm

theorem zipWith_left_sublist {α β γ : Type} (f : α → γ) (xs : List α) (ys : List β) :
    (zipWith (fun x _ => f x) xs ys).Sublist (xs.map f) := by
  induction xs generalizing ys with
  | nil => simp
  | cons x xs ih =>
    cases ys with
    | nil => simp
    | cons y ys => simpa using ih ys

open LookSections

variable {patch : LookSections} {entries : List (LookUnit × Bool)} {summary : LookApplySummary}

theorem nodup_scopes (h : patch.Accepted) (live : LiveShow VisualState) :
    ((patch.consideredUnits live).map LookUnit.scope).Nodup := by
  have hlays : (patch.layerUnits live).map LookUnit.scope =
      zipWith (fun layerId _ => layer layerId) live.ids (patch.mappedRacks live) := by
    rw [layerUnits, map_zipWith]
    rfl
  have hsub := zipWith_left_sublist layer live.ids (patch.mappedRacks live)
  have hlayersNodup : ((patch.layerUnits live).map LookUnit.scope).Nodup := by
    rw [hlays]
    exact hsub.nodup (live.ids_nodup.map fun a b hab => layer.inj hab)
  have hlayer : ∀ scope ∈ (patch.layerUnits live).map LookUnit.scope,
      ∃ layerId, scope = .layer layerId := by
    intro scope hscope
    rw [hlays] at hscope
    obtain ⟨layerId, -, rfl⟩ := mem_map.mp (hsub.subset hscope)
    exact ⟨layerId, rfl⟩
  have hgrps : (patch.savedGroups.map LookUnit.ofGroup).map LookUnit.scope =
      (patch.savedGroups.map Group.id).map group := by
    rw [List.map_map, List.map_map]
    rfl
  have hgroupsNodup : ((patch.savedGroups.map LookUnit.ofGroup).map LookUnit.scope).Nodup := by
    rw [hgrps]
    exact h.groupIds.map fun a b hab => group.inj hab
  rw [consideredUnits, List.map_append, List.map_cons, List.nodup_append, List.nodup_cons]
  refine ⟨⟨?_, hlayersNodup⟩, hgroupsNodup, ?_⟩
  · intro hmaster
    obtain ⟨layerId, hscope⟩ := hlayer _ hmaster
    cases hscope
  · rintro scope hscope other hother rfl
    rw [hgrps] at hother
    obtain ⟨groupId, -, rfl⟩ := mem_map.mp hother
    rcases mem_cons.mp hscope with hmaster | hmem
    · cases hmaster
    · obtain ⟨layerId, hsame⟩ := hlayer _ hmem
      cases hsame

theorem nodup_considered (h : patch.Accepted) (live : LiveShow VisualState) :
    ((patch.consideredUnits live).flatMap LookUnit.refs).Nodup := by
  refine nodup_unitRefs (nodup_scopes h live) ?_
  intro unit hunit
  rw [consideredUnits, mem_append, mem_cons] at hunit
  rcases hunit with (rfl | hlayer) | hgrp
  · exact h.soundMaster.distinct
  · obtain ⟨i, hi, rfl⟩ := mem_iff_getElem.mp hlayer
    simp only [layerUnits, getElem_zipWith]
    exact (h.soundMapped live _ (getElem_mem _)).distinct
  · obtain ⟨group, hmem, rfl⟩ := mem_map.mp hgrp
    exact (h.groupRacks group hmem).ids_nodup

/-- What a look does, unit by unit; `entries` are the units with the verdicts
that were recorded of them. -/
structure LookRun (patch : LookSections) (live : LiveShow VisualState) (summary : LookApplySummary)
    (after : LiveShow VisualState) (entries : List (LookUnit × Bool)) : Prop where
  lists : Lists summary entries
  units : entries.map Prod.fst = patch.consideredUnits live
  layers : after.layers = applyPositionalLooks live.layerAt patch.layers live.layers
  masterMotion : after.masterMotion = live.masterMotion
  temporal : after.temporal = lookTemporal live.temporal patch.temporal
  layerRacks : List.Forall₂ RackKept live.graph.layerRacks after.graph.layerRacks
  composition : CompositionKept live.graph.composition after.graph.composition
  master : ∃ done, (patch.masterUnit, done) ∈ entries ∧
    SavedRackOutcome patch.effectiveMasterRack live.graph.masterRack
      (RackHeld live.layerAt (groupExistsIn live.graph.composition)
        patch.effectiveMasterRack live.graph.masterRack) done
      after.graph.masterRack
  racks : ∀ (i : ℕ) (layerId : StableLayerId) (saved : Composition.SavedVisualRack)
    (rack : RuntimeVisualRack), live.ids[i]? = some layerId →
    (patch.mappedRacks live)[i]? = some saved →
    live.graph.layerRacks[i]? = some rack →
    ∃ done written, (.ofRack (.layer layerId) saved, done) ∈ entries ∧
      after.graph.layerRacks[i]? = some written ∧
      SavedRackOutcome saved rack
        (RackHeld live.layerAt (groupExistsIn live.graph.composition) saved rack) done written
  groups : ∀ saved ∈ patch.savedGroups, ∃ done,
    (.ofGroup saved, done) ∈ entries ∧
    saved.id ∈ listedGroupIds summary done ∧
    FoundGroupOutcome live.layerAt live.graph.composition after.graph.composition saved done

theorem layerAt_applyLook (patch : LookSections) (live : LiveShow VisualState) :
    (patch.applyLook live).layerAt = live.layerAt := by
  exact congrArg layerAtPosition (map_id_applyPositionalLooks live.layerAt patch.layers live.layers)

theorem mappedRacks_length (patch : LookSections) (live : LiveShow VisualState) :
    (patch.mappedRacks live).length ≤ live.layers.length ∧
      (patch.mappedRacks live).length ≤ live.graph.layerRacks.length := by
  simp only [mappedRacks, length_take, length_map]
  omega

theorem lookComposition_run (hpatch : patch.Accepted)
    (layerAt : SavedLayerPosition → Option StableLayerId)
    {live : RuntimeComposition} (hgrps : live.tree.groupIds.Nodup)
    (hracks : ∀ group ∈ live.tree.groups, DistinctNodes group.body.rack)
    (hlists : Lists summary entries) :
    ∃ summary' after,
      lookComposition layerAt patch.composition live summary = some (summary', after) ∧
      Lists summary' (entries ++ patch.savedGroups.map fun group =>
        (.ofGroup group, groupVerdict layerAt live group)) ∧
      CompositionKept live after ∧
      ∀ group ∈ patch.savedGroups,
        group.id ∈ listedGroupIds summary' (groupVerdict layerAt live group) ∧
        FoundGroupOutcome layerAt live after group (groupVerdict layerAt live group) := by
  have hbdd := hpatch.boundedGroup
  have hids := hpatch.groupIds
  unfold savedGroups at hbdd hids ⊢
  cases hsaved : patch.composition with
  | none =>
    refine ⟨summary, live, rfl, ?_, .refl live, ?_⟩
    · simpa using hlists
    · intro group hgrp
      cases hgrp
  | some saved =>
    rw [hsaved] at hbdd hids
    exact applySavedCompositionLook_run hbdd hids hgrps hracks hlists

theorem applyLookWithComposition_run (hpatch : patch.Accepted)
    {live : LiveShow VisualState} (hlive : live.graph.Valid) :
    ∃ summary after entries,
      patch.applyLookWithComposition live = some (summary, after) ∧
      LookRun patch live summary after entries := by
  obtain ⟨done, masterRack, hmaster, hmasterOutcome⟩ :=
    savedRack_outcome live.layerAt (groupExistsIn live.graph.composition)
      hpatch.soundMaster.bounded hlive.masterRack
  obtain ⟨verdicts, layerRacks, hracks, hlen, hkept, hat⟩ :=
    applyLayerRacks_run live.layerAt (groupExistsIn live.graph.composition)
      (fun rack hrack => (hpatch.soundMapped live rack hrack).bounded)
      hlive.layerRacks
  obtain ⟨hfits, hfitsRacks⟩ := mappedRacks_length patch live
  have hunits : (patch.layerUnits live).length = verdicts.length := by
    simp only [layerUnits, length_zipWith, LiveShow.ids, length_map, hlen]
    omega
  have hstart : Lists (LookApplySummary.positional patch.layers.length
      live.layers.length) [] := ⟨rfl, rfl⟩
  have hlisted := (hstart.recordRack patch.masterUnit done).recordRacks
    (patch.layerUnits live) verdicts
  let summary :=
    ((LookApplySummary.positional patch.layers.length
      live.layers.length).recordRack patch.masterUnit done).recordRacks
        (patch.layerUnits live) verdicts
  let counted : LookApplySummary :=
    { summary with
      skippedRacks := summary.skippedRacks +
        (patch.layers.length - (patch.mappedRacks live).length) }
  have hcnt : Lists counted ((patch.masterUnit, done) :: (patch.layerUnits live).zip verdicts) :=
    ⟨hlisted.applied, hlisted.skipped⟩
  have hlayerUnits : ((patch.layerUnits live).zip verdicts).map Prod.fst =
      patch.layerUnits live := map_fst_zip hunits.le
  have hrackAt : ∀ (i : ℕ) (layerId : StableLayerId) (saved : Composition.SavedVisualRack)
      (rack : RuntimeVisualRack), live.ids[i]? = some layerId →
      (patch.mappedRacks live)[i]? = some saved →
      live.graph.layerRacks[i]? = some rack →
      ∃ done written, (ofRack (.layer layerId) saved, done) ∈ (patch.layerUnits live).zip verdicts ∧
        layerRacks[i]? = some written ∧
        SavedRackOutcome saved rack
          (RackHeld live.layerAt (groupExistsIn live.graph.composition) saved
            rack) done written := by
    intro i layerId saved rack hid hsaved hrack
    obtain ⟨verdict, written, hverdict, hwrit, hout⟩ := hat i saved rack hsaved hrack
    refine ⟨verdict, written, ?_, hwrit, hout⟩
    apply mem_of_getElem? (i := i)
    rw [getElem?_zip_eq_some]
    refine ⟨?_, hverdict⟩
    simp [layerUnits, getElem?_zipWith, hid, hsaved]
  obtain ⟨summary', composition, hcomposition, hlists, hstays, hgrps⟩ :=
    lookComposition_run hpatch live.layerAt hlive.groupIds hlive.groupRacks hcnt
  refine ⟨summary', { patch.applyLook live with graph := ⟨masterRack, layerRacks, composition⟩ }, _,
    ?_, hlists, ?_, rfl, rfl, rfl, hkept, hstays, ⟨done, by simp, hmasterOutcome⟩, ?_, ?_⟩
  · have hshown := layerAt_applyLook patch live
    simp only [applyLookWithComposition, hshown]
    rw [show (fun groupId =>
      (live.graph.composition.tree.group groupId).isSome) =
        groupExistsIn live.graph.composition from rfl, hmaster]
    simp only [bind_eq_bind, bind_some, hracks]
    rw [hcomposition]
    rfl
  · rw [consideredUnits, map_append, map_cons, hlayerUnits, List.map_map]
    rfl
  · intro i layerId saved rack hid hsaved hrack
    obtain ⟨verdict, written, hmem, hwrit, hout⟩ := hrackAt i layerId saved rack hid hsaved hrack
    exact ⟨verdict, written, by simp [hmem], hwrit, hout⟩
  · intro saved hsaved
    obtain ⟨hid, hout⟩ := hgrps saved hsaved
    refine ⟨_, ?_, hid, hout⟩
    exact mem_append_right _ (mem_map.mpr ⟨saved, hsaved, rfl⟩)

variable {scope : LookRackScope}

theorem refs_ofRack_eq_nil (h : (ofRack scope rack).refs = []) : rack.nodes = [] := by
  simpa [refs, ofRack] using h

theorem recalledRack_iff
    (hlists : Lists summary entries) (honce : (summary.appliedNodes ++ summary.skippedNodes).Nodup)
    {saved : Composition.SavedVisualRack} (hmem : (.ofRack scope saved, done) ∈ entries)
    {rack written : RuntimeVisualRack} (h : SavedRackOutcome saved rack held done written) :
    Recalled summary (.ofRack scope saved) (RackTaken saved written) (written = rack) ↔ held :=
  recalled_iff hlists honce hmem h.taken h.held_of_done h.unchanged
    fun hemp => h.held_of_empty (refs_ofRack_eq_nil hemp)

theorem LookRun.listed {live after : LiveShow VisualState}
    (h : LookRun patch live summary after entries) :
    (summary.appliedNodes ++ summary.skippedNodes).Perm
      ((patch.consideredUnits live).flatMap refs) := by
  rw [h.lists.applied, h.lists.skipped, ← h.units]
  exact perm_refs entries

/-- A look moves values only, listing each node of each considered rack once,
with every skipped unit untouched, exactly when every unit that is wired alike
and carries a Study node has, up to that node, what would be written there. -/
theorem look_moves_values_iff {patch : LookSections} (hpatch : patch.Accepted)
    {live : LiveShow VisualState} (hlive : live.graph.Valid) :
    (∃ summary after,
      patch.applyLookWithComposition live = some (summary, after) ∧
      MovesValuesOnly patch live summary after) ↔ StudiesHeld patch live := by
  obtain ⟨summary, after, entries, hrun, hlook⟩ := applyLookWithComposition_run hpatch hlive
  have hperm := hlook.listed
  have honce : (summary.appliedNodes ++ summary.skippedNodes).Nodup :=
    hperm.nodup_iff.mpr (nodup_considered hpatch live)
  obtain ⟨done, hmaster, houtcome⟩ := hlook.master
  have hmasterIff := recalledRack_iff hlook.lists honce hmaster houtcome
  have hgroupIff : ∀ saved ∈ patch.savedGroups,
      Recalled summary (.ofGroup saved)
        (saved.id ∈ summary.appliedGroupIds ∧
          ∃ written, after.graph.composition.tree.group saved.id =
            some written ∧ GroupTaken saved written)
        (saved.id ∈ summary.skippedGroupIds ∧
          after.graph.composition.tree.group saved.id =
            live.graph.composition.tree.group saved.id) ↔
      ∀ group, live.graph.composition.tree.group saved.id = some group →
        GroupHeld live.layerAt (groupExistsIn live.graph.composition) saved
          group := by
    intro saved hsaved
    obtain ⟨done, hmem, hid, hfound⟩ := hlook.groups saved hsaved
    cases hgroup : live.graph.composition.tree.group saved.id with
    | none =>
      obtain ⟨rfl, hafter⟩ := hfound.missing hgroup
      have hvacuous : ∀ group : LiveGroup, none = some group →
          GroupHeld live.layerAt (groupExistsIn live.graph.composition) saved
            group := fun group h => nomatch h
      exact recalled_iff hlook.lists honce hmem (fun h => nomatch h) (fun h => nomatch h)
        (fun _ => iff_of_true ⟨hid, hafter⟩ hvacuous)
        fun _ => hvacuous
    | some group =>
      obtain ⟨written, hwritten, houtcome⟩ := hfound.found group hgroup
      have hheld : (∀ other, some group = some other →
          GroupHeld live.layerAt (groupExistsIn live.graph.composition) saved other) ↔
          GroupHeld live.layerAt (groupExistsIn live.graph.composition) saved
            group := by
        simp
      rw [hheld, hwritten]
      refine recalled_iff hlook.lists honce hmem ?_ houtcome.held_of_done ?_
        fun hempty => houtcome.held_of_empty (refs_ofRack_eq_nil hempty)
      · rintro rfl
        exact ⟨hid, written, rfl, houtcome.taken rfl⟩
      · rintro rfl
        rw [← houtcome.unchanged rfl, some.injEq]
        exact and_iff_right hid
  constructor
  · rintro ⟨_, _, hsame, hmoves⟩
    rw [hrun] at hsame
    cases hsame
    refine ⟨hmasterIff.mp hmoves.masterRecalled, ?_, ?_⟩
    · intro i saved rack hsaved hrack
      have hbound := (List.getElem?_eq_some_iff.mp hsaved).1
      have hfits := (mappedRacks_length patch live).1
      obtain ⟨layerId, hid⟩ : ∃ layerId, live.ids[i]? = some layerId := by
        refine ⟨_, getElem?_eq_getElem ?_⟩
        simp only [LiveShow.ids, length_map]
        omega
      obtain ⟨done, written, hmem, hwritten, houtcome⟩ :=
        hlook.racks i layerId saved rack hid hsaved hrack
      exact (recalledRack_iff hlook.lists honce hmem houtcome).mp
        (hmoves.layersRecalled i layerId saved rack written hid hsaved hrack hwritten)
    · intro saved hsaved
      exact (hgroupIff saved hsaved).mp (hmoves.groupsRecalled saved hsaved)
  · intro hheld
    refine ⟨summary, after, hrun, ?_, hlook.masterMotion, ?_, houtcome.kept, hlook.layerRacks,
      hlook.composition, hmasterIff.mpr hheld.masterRack, ?_, ?_, hperm, honce⟩
    · rw [hlook.layers]
      exact forall₂_layerKept live.layerAt patch.layers live.layers
    · rw [hlook.temporal]
      exact .look live.temporal patch.temporal
    · intro i layerId saved rack written hid hsaved hrack hwritten
      obtain ⟨done, written', hmem, hwritten', houtcome⟩ :=
        hlook.racks i layerId saved rack hid hsaved hrack
      rw [hwritten] at hwritten'
      cases hwritten'
      exact (recalledRack_iff hlook.lists honce hmem houtcome).mpr
        (hheld.layerRacks i saved rack hsaved hrack)
    · intro saved hsaved
      exact (hgroupIff saved hsaved).mpr (hheld.groups saved hsaved)

def studyNode (T D : Type) (enabled : Bool) : VisualNode T D :=
  ⟨⟨3, three_isIdentity⟩, enabled, 1, .normal, .study ⟨none⟩⟩

def studyPatch : LookSections where
  masterRack := some ⟨[studyNode _ _ true], 4⟩
  layers := []
  temporal := none
  composition := none

/-- A show without layers whose master rack is a Study node. -/
def studyShow (enabled : Bool) : LiveShow VisualState where
  layers := []
  masterMotion := .default .none
  temporal := ⟨TemporalOriginalsConfig.defaultParams⟩
  graph :=
    { masterRack := ⟨[studyNode _ _ enabled], 4⟩
      layerRacks := []
      composition := ⟨⟨[], []⟩, 1, 0.5, .default⟩ }
  ids_nodup := nodup_nil
  masterMotion_bounded := MotionBlock.sanitized_default MotionDonor.none
  originals_bounded := TemporalOriginalsConfig.sanitized_defaultParams

theorem sanitized_studyNode {T D : Type} (enabled : Bool) :
    (studyNode T D enabled).sanitized = studyNode T D enabled := by
  simp (disch := decide +kernel) [studyNode, sanitized, NodeKind.sanitized, F32.finiteClamp_of_le]

theorem accepted_studyPatch : studyPatch.Accepted := by
  refine ⟨?_, ?_, nodup_nil, ?_, ?_⟩
  · intro rack hrack
    cases hrack
    refine ⟨by decide, nodup_singleton _, ?_, ?_, ?_, ⟨_, rfl⟩⟩
    · intro node hnode
      obtain rfl := mem_singleton.mp hnode
      rfl
    · intro node hnode
      obtain rfl := mem_singleton.mp hnode
      exact sanitized_studyNode true
    · exact ⟨by decide, fun _ => by decide⟩
  · intro layer hlayer
    exact absurd hlayer not_mem_nil
  · intro group hgrp
    exact absurd hgrp not_mem_nil
  · intro group hgrp
    exact absurd hgrp not_mem_nil

theorem valid_studyShow (enabled : Bool) : (studyShow enabled).graph.Valid where
  masterRack := by simp [DistinctNodes, studyShow]
  layerRacks := fun rack hrack => absurd hrack not_mem_nil
  groupIds := nodup_nil
  groupRacks := fun group hgrp => absurd hgrp not_mem_nil

theorem look_moves_values_iff_study :
    ∃ summary after,
      studyPatch.applyLookWithComposition (studyShow true) = some (summary, after) ∧
      MovesValuesOnly studyPatch (studyShow true) summary after := by
  refine (look_moves_values_iff accepted_studyPatch (valid_studyShow true)).mpr ⟨?_, ?_, ?_⟩
  · intro _ _
    have hswitch : SwitchTaken (studyNode SavedImageTap SavedMotionDonor true)
        (studyNode ResolvedImageTap MotionDonor true) := ⟨rfl, rfl, rfl⟩
    exact hswitch
  · intro i saved rack hsaved
    simp [studyPatch, mappedRacks] at hsaved
  · intro saved hsaved
    exact absurd hsaved not_mem_nil

/-- The rack is listed as skipped, and its node is switched on. -/
theorem skipped_study_switched_on :
    studyPatch.Accepted ∧ (studyShow false).graph.Valid ∧
      ¬∃ summary after,
        studyPatch.applyLookWithComposition (studyShow false) = some (summary, after) ∧
        MovesValuesOnly studyPatch (studyShow false) summary after := by
  refine ⟨accepted_studyPatch, valid_studyShow false, ?_⟩
  rintro ⟨summary, after, hrun, hmoves⟩
  obtain ⟨_, _, entries, hsame, hlook⟩ :=
    applyLookWithComposition_run accepted_studyPatch (valid_studyShow false)
  rw [hrun] at hsame
  cases hsame
  obtain ⟨done, hmem, houtcome⟩ := hlook.master
  have hheld := (recalledRack_iff hlook.lists hmoves.listed_once hmem
    houtcome).mp hmoves.masterRecalled
  have hstudy : ¬NoStudy (studyShow false).graph.masterRack := fun hnone =>
    hnone (studyNode _ _ false) mem_cons_self rfl
  have hswitch : SwitchTaken (studyNode SavedImageTap SavedMotionDonor true)
      (studyNode ResolvedImageTap MotionDonor false) :=
    hheld (by decide +kernel) hstudy
  cases hswitch.enabled

end CollideOScope.Patch
