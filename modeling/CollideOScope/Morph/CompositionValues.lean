import CollideOScope.Morph.RackApplication

/-!
# Writing sampled values into a live composition

A composition is written group by group, each group's rack by the writer of
racks.  What that writer returns is dropped, so a group whose rack carries a
Study node is left half written and the composition reports success.
-/

namespace CollideOScope.Morph

open Composition List
open F32 (finiteClamp)

variable {L T D : Type}

deriving instance DecidableEq for RootItem

/-- `a.matte.is_some() == b.matte.is_some()`, and the same for members. -/
def groupsShareValueTopology [DecidableEq L] (a b : Group L (GroupBody T D)) : Bool :=
  decide (a.id = b.id) && decide (a.members = b.members) &&
    a.body.matte.isSome == b.body.matte.isSome &&
    racksShareValueTopology a.body.rack b.body.rack

/-- `runtime_composition_topology_matches`. -/
def compositionTopologyMatches [DecidableEq L] (a b : CompositionState L T D) : Bool :=
  decide (a.tree.root = b.tree.root) && decide (a.tree.groups.length = b.tree.groups.length) &&
    (a.tree.groups.zip b.tree.groups).all fun pair => groupsShareValueTopology pair.1 pair.2

def matteRoutesMatch [DecidableEq T] : Option (ImageMatte T) → Option (ImageMatte T) → Bool
  | some a, some b =>
    decide (a.tap = b.tap) && decide (a.channel = b.channel) && a.invert == b.invert
  | none, none => true
  | _, _ => false

/-- `runtime_composition_strict_topology_matches`. -/
def compositionStrictTopologyMatches [DecidableEq L] [DecidableEq T]
    [DecidableEq D] (a b : CompositionState L T D) : Bool :=
  compositionTopologyMatches a b &&
    (a.tree.groups.zip b.tree.groups).all fun pair =>
      matteRoutesMatch pair.1.body.matte pair.2.body.matte &&
        racksShareStrictTopology pair.1.body.rack pair.2.body.rack

/-- The matte of a group: values are written where both have one. -/
def applyMatte : Option (ImageMatte T) → Option (ImageMatte T) → Option (ImageMatte T)
  | some sampled, some live => some (applyImageMatteValues sampled live)
  | _, live => live

/-- One turn of the loop over the groups; what the rack's writer returns is
dropped. -/
def applyGroup (sampled live : Group L (GroupBody T D)) : Option (Bool × Group L (GroupBody T D)) :=
  (applyRackValues sampled.body.rack live.body.rack).map fun result =>
    (true,
      { live with
        body :=
          { live.body with
            opacity := sampled.body.opacity
            transform := sampled.body.transform
            rack := result.2
            matte := applyMatte sampled.body.matte live.body.matte
            solo := sampled.body.solo
            bypass := sampled.body.bypass
            bus := sampled.body.bus } })

/-- `apply_runtime_composition_values`. -/
def applyCompositionValues [DecidableEq L] (sampled live : CompositionState L T D) :
    Option (Bool × CompositionState L T D) :=
  if compositionTopologyMatches sampled live then
    (writeEach Group.id applyGroup sampled.tree.groups live.tree.groups).map
      fun result =>
        (result.1,
          { live with
            tree := { live.tree with groups := result.2 }
            busCrossfade := finiteClamp sampled.busCrossfade 0.5 0 1
            mixer := sampled.mixer.sanitized })
  else some (false, live)

/-- `apply_runtime_composition_values_strict`. -/
def applyCompositionValuesStrict [DecidableEq L] [DecidableEq T]
    [DecidableEq D] (sampled live : CompositionState L T D) :
    Option (Bool × CompositionState L T D) :=
  if compositionStrictTopologyMatches sampled live then applyCompositionValues sampled live
  else some (false, live)

/-- The group stays where it was, and every node of its rack is written. -/
structure GroupWritten (sampled live after : Group L (GroupBody T D)) : Prop where
  id : after.id = live.id
  members : after.members = live.members
  rack : RackWritten sampled.body.rack live.body.rack after.body.rack

def GroupsAgreeFromStudy (sampled live : List (Group L (GroupBody T D))) : Prop :=
  Forall₂ (fun sampled live =>
    AgreeFromStudy sampled.body.rack.nodes live.body.rack.nodes) sampled live

structure GroupsAlike (sampled live : Group L (GroupBody T D)) : Prop where
  id : sampled.id = live.id
  rack : racksShareValueTopology sampled.body.rack live.body.rack = true
  distinct : DistinctNodes live.body.rack

theorem applyGroup_spec {sampled live : Group L (GroupBody T D)} (h : GroupsAlike sampled live) :
    ∃ after, applyGroup sampled live = some (true, after) ∧
      (GroupWritten sampled live after ↔
        AgreeFromStudy sampled.body.rack.nodes live.body.rack.nodes) := by
  obtain ⟨done, rack, happ, -, hwrit⟩ := applyRackValues_spec h.rack h.distinct
  refine ⟨_, by rw [applyGroup, happ]; rfl, ?_⟩
  rw [← hwrit]
  exact ⟨fun hgrp => hgrp.rack, fun hrack => ⟨rfl, rfl, hrack⟩⟩

theorem writeGroups_spec {sampled live : List (Group L (GroupBody T D))}
    (h : Forall₂ GroupsAlike sampled live) :
    ∃ after, writeAlong applyGroup sampled live = some (true, after) ∧
      (Forall₃ GroupWritten sampled live after ↔ GroupsAgreeFromStudy sampled live) := by
  induction h with
  | nil => exact ⟨[], rfl, by simp [Forall₃, GroupsAgreeFromStudy]⟩
  | cons hhead htail ih =>
    rename_i given group givens rest
    obtain ⟨written, happ, hwrit⟩ := applyGroup_spec hhead
    obtain ⟨after, hrest, hafter⟩ := ih
    refine ⟨written :: after, ?_, ?_⟩
    · simp [writeAlong, happ, hrest]
    · rw [Forall₃, hwrit, hafter]
      simp [GroupsAgreeFromStudy]

variable {sampled live : CompositionState L T D}

theorem forall₂_groupsAlike [DecidableEq L] (h : compositionTopologyMatches sampled live = true)
    (hracks : ∀ group ∈ live.tree.groups, DistinctNodes group.body.rack) :
    Forall₂ GroupsAlike sampled.tree.groups live.tree.groups := by
  simp only [compositionTopologyMatches, groupsShareValueTopology,
    Bool.and_eq_true, decide_eq_true_eq, all_eq_true] at h
  rw [forall₂_iff_zip]
  refine ⟨h.1.2, ?_⟩
  intro given group hmem
  have hgrp := h.2 _ hmem
  exact ⟨hgrp.1.1.1, hgrp.2, hracks _ (of_mem_zip hmem).2⟩

theorem applyCompositionValues_spec [DecidableEq L]
    (h : compositionTopologyMatches sampled live = true) (hgrps : live.tree.groupIds.Nodup)
    (hracks : ∀ group ∈ live.tree.groups, DistinctNodes group.body.rack) :
    ∃ after, applyCompositionValues sampled live = some (true, after) ∧
      (Forall₃ GroupWritten sampled.tree.groups live.tree.groups after.tree.groups ↔
        GroupsAgreeFromStudy sampled.tree.groups live.tree.groups) := by
  have halike := forall₂_groupsAlike h hracks
  obtain ⟨after, hwalk, hafter⟩ := writeGroups_spec halike
  have hkey : ∀ given group goesOn written,
      applyGroup (L := L) (T := T) (D := D) given group =
        some (goesOn, written) → written.id = group.id := by
    intro given group goesOn written hwrite
    obtain ⟨result, -, hres⟩ := Option.map_eq_some_iff.mp hwrite
    cases hres
    rfl
  have hloop := writeEach_eq_writeAlong hkey (halike.imp fun _ _ h => h.id) hgrps
  refine ⟨_, by rw [applyCompositionValues, if_pos h, hloop, hwalk]; rfl, ?_⟩
  exact hafter

/-- A rack is refused and left as it was, or it is written whole; it is written
exactly when the strict topologies agree. -/
structure AllOrNothing [DecidableEq T] [DecidableEq D]
    (sampled live : VisualRack T D) (done : Bool) (after : VisualRack T D) :
    Prop where
  refused : done = false → after = live
  written : done = true → RackWritten sampled live after
  exact_done : done = true ↔ racksShareStrictTopology sampled live = true

/-- A rack is written all or nothing unless it passes the strict gate with a
Study node.  A composition that passes the strict gate has all group racks
written exactly when, in every group, the nodes from the first Study node on
carried the sampled values before. -/
theorem morph_values_whole_iff {sampled live : RuntimeVisualRack} (hdistinct : DistinctNodes live)
    {sampledGraph liveGraph : RuntimeComposition}
    (hstrict : compositionStrictTopologyMatches sampledGraph liveGraph = true)
    (hgroups : liveGraph.tree.groupIds.Nodup)
    (hracks : ∀ group ∈ liveGraph.tree.groups, DistinctNodes group.body.rack) :
    ((∃ done after, applyRackValuesStrict sampled live = some (done, after) ∧
        AllOrNothing sampled live done after) ↔
      ¬(racksShareStrictTopology sampled live = true ∧ ¬NoStudy live)) ∧
    ((∃ after, applyCompositionValuesStrict sampledGraph liveGraph = some (true, after) ∧
        Forall₃ GroupWritten sampledGraph.tree.groups liveGraph.tree.groups after.tree.groups) ↔
      GroupsAgreeFromStudy sampledGraph.tree.groups liveGraph.tree.groups) := by
  constructor
  · clear hstrict
    by_cases hstrict : racksShareStrictTopology sampled live = true
    · have hshared : racksShareValueTopology sampled live = true :=
        (Bool.and_eq_true_iff.mp hstrict).1
      obtain ⟨done, after, happly, hdone, hwritten⟩ := applyRackValues_spec hshared hdistinct
      rw [applyRackValuesStrict, if_pos hstrict, happly]
      constructor
      · rintro ⟨_, _, hsame, hwhole⟩ ⟨-, hstudy⟩
        cases hsame
        exact hstudy (hdone.mp (hwhole.exact_done.mpr hstrict))
      · intro hcondition
        have hnone : NoStudy live := by
          by_contra hstudy
          exact hcondition ⟨hstrict, hstudy⟩
        have hdone := hdone.mpr hnone
        refine ⟨done, after, rfl, ⟨?_, ?_, by simp [hdone, hstrict]⟩⟩
        · intro hfalse
          rw [hdone] at hfalse
          cases hfalse
        · intro _
          exact hwritten.mpr (agreeFromStudy_of_no_study hnone)
    · rw [applyRackValuesStrict, if_neg hstrict]
      refine iff_of_true ⟨false, live, rfl, ⟨fun _ => rfl, ?_, ?_⟩⟩ ?_
      · intro hfalse
        cases hfalse
      · simpa using hstrict
      · exact fun h => hstrict h.1
  · obtain ⟨after, happly, hafter⟩ := applyCompositionValues_spec
      (Bool.and_eq_true_iff.mp hstrict).1 hgroups hracks
    rw [applyCompositionValuesStrict, if_pos hstrict, happly]
    constructor
    · rintro ⟨_, hsame, hwritten⟩
      cases hsame
      exact hafter.mp hwritten
    · intro hagree
      exact ⟨after, rfl, hafter.mpr hagree⟩

theorem four_isIdentity : 0 < 4 ∧ 4 ≤ u64Max := by
  decide

def sampleRack (wet : F32) (kind : NodeKind ResolvedImageTap MotionDonor) : RuntimeVisualRack where
  nodes :=
    [⟨⟨3, three_isIdentity⟩, true, wet, .normal, .transform .default⟩,
      ⟨⟨4, four_isIdentity⟩, true, 1, .normal, kind⟩]
  nextNodeId := 5

theorem distinctNodes_sampleRack (wet : F32) (kind : NodeKind ResolvedImageTap MotionDonor) :
    DistinctNodes (sampleRack wet kind) := by
  simp [DistinctNodes, sampleRack]

def sampleComposition (rack : RuntimeVisualRack) : RuntimeComposition where
  tree :=
    ⟨[⟨⟨1, one_isIdentity⟩, [],
      ⟨"group", 1, .default, rack, none, false, false, .program⟩⟩],
      [.group ⟨1, one_isIdentity⟩]⟩
  nextGroupId := 2
  busCrossfade := 0.5
  mixer := .default

theorem morph_values_whole_iff_sampleRack :
    (∃ done after,
      applyRackValuesStrict (sampleRack 0 (.transform .default))
        (sampleRack 1 (.transform .default)) = some (done, after) ∧
      AllOrNothing (sampleRack 0 (.transform .default))
        (sampleRack 1 (.transform .default)) done after) ∧
    ∃ after,
      applyCompositionValuesStrict (sampleComposition (sampleRack 0 (.transform .default)))
        (sampleComposition (sampleRack 1 (.transform .default))) = some (true, after) ∧
      Forall₃ GroupWritten (sampleComposition (sampleRack 0 (.transform .default))).tree.groups
        (sampleComposition (sampleRack 1 (.transform .default))).tree.groups
        after.tree.groups := by
  have hnone : NoStudy (sampleRack 1 (.transform .default)) := by
    simp [NoStudy, sampleRack, NodeKind.tag]
  have hdistinct := distinctNodes_sampleRack 1 (.transform .default)
  obtain ⟨hrack, hgraph⟩ := @morph_values_whole_iff
    (sampleRack 0 (.transform .default)) (sampleRack 1 (.transform .default))
    hdistinct
    (sampleComposition (sampleRack 0 (.transform .default)))
    (sampleComposition (sampleRack 1 (.transform .default)))
    (by decide +kernel) (by simp [Tree.groupIds, sampleComposition])
    (by simpa [sampleComposition] using hdistinct)
  refine ⟨hrack.mpr fun h => h.2 hnone, hgraph.mpr ?_⟩
  simpa [GroupsAgreeFromStudy, sampleComposition] using agreeFromStudy_of_no_study hnone

/-- The transform is written, the Study node stops the loop, and the rack is
reported as refused. -/
theorem study_rack_half_written :
    racksShareStrictTopology (sampleRack 0 (.study ⟨none⟩)) (sampleRack 1 (.study ⟨none⟩)) = true ∧
      applyRackValuesStrict (sampleRack 0 (.study ⟨none⟩))
        (sampleRack 1 (.study ⟨none⟩)) = some (false, sampleRack 0 (.study ⟨none⟩)) ∧
      ¬∃ done after,
        applyRackValuesStrict (sampleRack 0 (.study ⟨none⟩))
          (sampleRack 1 (.study ⟨none⟩)) = some (done, after) ∧
        AllOrNothing (sampleRack 0 (.study ⟨none⟩)) (sampleRack 1 (.study ⟨none⟩)) done after := by
  have hstrict : racksShareStrictTopology (sampleRack 0 (.study ⟨none⟩))
      (sampleRack 1 (.study ⟨none⟩)) = true := by
    decide +kernel
  have happly : applyRackValuesStrict (sampleRack 0 (.study ⟨none⟩))
      (sampleRack 1 (.study ⟨none⟩)) = some (false, sampleRack 0 (.study ⟨none⟩)) := by
    rw [applyRackValuesStrict, if_pos hstrict, applyRackValues,
      if_pos (Bool.and_eq_true_iff.mp hstrict).1]
    rfl
  refine ⟨hstrict, happly, ?_⟩
  rintro ⟨done, after, hsame, hwhole⟩
  rw [happly] at hsame
  cases hsame
  cases hwhole.exact_done.mpr hstrict

end CollideOScope.Morph
