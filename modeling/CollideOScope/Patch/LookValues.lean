import CollideOScope.Patch.Look

/-!
# A look moves values only

Whatever a look meets, identities, order, routes and cursors stay.  A rack or a
group whose wiring is another one is left alone.  One that is wired alike is
written whole, unless it carries a Study node: the writer of racks stops there
and reports a refusal, and what it has written by then stays.
-/

namespace CollideOScope.Patch

open Composition Morph List GroupBody

variable {T T' D D' : Type} {sampled live : VisualNode T D}

structure NodeKept (live after : VisualNode T D) : Prop where
  stableId : after.stableId = live.stableId
  tag : after.kind.tag = live.kind.tag
  routes : nodeRoutes after.kind = nodeRoutes live.kind

structure NodeTaken (given : VisualNode T D) (after : VisualNode T' D') : Prop where
  stableId : after.stableId = given.stableId
  enabled : after.enabled = given.enabled
  wet : after.wet = given.wet
  blend : after.blend = given.blend
  values : nodeValues after.kind = nodeValues given.kind

structure SwitchTaken (given : VisualNode T D) (after : VisualNode T' D') : Prop where
  enabled : after.enabled = given.enabled
  wet : after.wet = given.wet
  blend : after.blend = given.blend

theorem NodeKept.refl (node : VisualNode T D) : NodeKept node node := ⟨rfl, rfl, rfl⟩

theorem nodeValues_mapRoutes (f : T → T') (g : D → D') (kind : NodeKind T D) :
    nodeValues (kind.mapRoutes f g) = nodeValues kind := by
  cases kind with
  | mask mask => cases mask <;> rfl
  | _ => rfl

theorem applyNode_kept (h : nodeValueTopologyMatches sampled.kind live.kind = true) :
    NodeKept live (applyNode sampled live).2 := by
  rcases applyNodeKindValues_spec h with ⟨-, hkept⟩ | ⟨-, -, hvalues, hroutes⟩
  · refine ⟨rfl, ?_, ?_⟩
    · simp only [applyNode, hkept]
    · simp only [applyNode, hkept]
  · refine ⟨rfl, ?_, hroutes⟩
    have htag := nodeValueTopologyMatches_tag h
    calc
      (applyNodeKindValues sampled.kind live.kind).2.tag = (nodeValues sampled.kind).tag := by
        rw [← hvalues, tag_nodeValues]
      _ = live.kind.tag := by rw [tag_nodeValues, htag]

theorem applyNode_look (h : NodesAlike sampled live) :
    (live.kind.tag = .study ∧ (applyNode sampled live).1 = false ∧
        ((applyNode sampled live).2 = live ↔ SwitchTaken sampled live)) ∨
      (live.kind.tag ≠ .study ∧ (applyNode sampled live).1 = true ∧
        NodeTaken sampled (applyNode sampled live).2 ∧
        ((applyNode sampled live).2 = live ↔ NodeTaken sampled live)) := by
  obtain ⟨hid, hkind⟩ := h
  rcases applyNodeKindValues_spec hkind with ⟨htag, hkept⟩ | ⟨htag, hdone, hvalues, hroutes⟩
  · left
    refine ⟨htag, by simp only [applyNode, hkept], ?_⟩
    simp only [applyNode, hkept]
    constructor
    · intro hsame
      rw [← hsame]
      exact ⟨rfl, rfl, rfl⟩
    · rintro ⟨henab, hwet, hblend⟩
      rw [← henab, ← hwet, ← hblend]
  · right
    have htaken : NodeTaken sampled (applyNode sampled live).2 := ⟨hid.symm, rfl, rfl, rfl, hvalues⟩
    refine ⟨htag, hdone, htaken, ?_⟩
    constructor
    · intro hsame
      exact hsame ▸ htaken
    · rintro ⟨-, henab, hwet, hblend, hcarried⟩
      have hsame : (applyNodeKindValues sampled.kind live.kind).2 =
          live.kind := nodeKind_ext hroutes (hvalues.trans hcarried.symm)
      simp only [applyNode, hsame, ← henab, ← hwet, ← hblend]

/-- Up to the first Study node the nodes carry the given values; of that node
only the switch, the wet and the blend are compared. -/
def AgreeToStudy : List (VisualNode T D) → List (VisualNode T' D') → Prop
  | given :: rest, live :: lives =>
    if live.kind.tag = .study then SwitchTaken given live
    else NodeTaken given live ∧ AgreeToStudy rest lives
  | _, _ => True

theorem writeAlong_look {sampled live : List (VisualNode T D)}
    (h : Forall₂ NodesAlike sampled live) :
    ∃ done after,
      writeAlong (fun sampled live => some (applyNode sampled live))
        sampled live = some (done, after) ∧
      Forall₂ NodeKept live after ∧
      (done = true ↔ ∀ node ∈ live, node.kind.tag ≠ .study) ∧
      (done = true → Forall₂ NodeTaken sampled after) ∧
      (done = false → (after = live ↔ AgreeToStudy sampled live)) := by
  induction h with
  | nil => exact ⟨true, [], rfl, .nil, by simp, fun _ => .nil, fun h => by cases h⟩
  | cons hhead htail ih =>
    rename_i given node givens rest
    have hkept := applyNode_kept hhead.2
    rw [writeAlong]
    rcases applyNode_look hhead with ⟨htag, hstop, hsame⟩ | ⟨htag, hgo, htaken, hsame⟩
    · refine ⟨false, (applyNode given node).2 :: rest, ?_, ?_, ?_, ?_, ?_⟩
      · simp [hstop]
      · exact .cons hkept (forall₂_same.mpr fun other _ => .refl other)
      · simp [htag]
      · intro h
        cases h
      · intro _
        rw [AgreeToStudy, if_pos htag, ← hsame]
        simp
    · obtain ⟨done, after, hrest, hkeptRest, hdone, htakenRest, hheld⟩ := ih
      refine ⟨done, (applyNode given node).2 :: after, ?_, ?_, ?_, ?_, ?_⟩
      · simp [hgo, hrest]
      · exact .cons hkept hkeptRest
      · simp [htag, hdone]
      · intro h
        exact .cons htaken (htakenRest h)
      · intro h
        rw [AgreeToStudy, if_neg htag, ← hsame, ← hheld h]
        simp

structure RackKept (live after : VisualRack T D) : Prop where
  cursor : after.nextNodeId = live.nextNodeId
  nodes : Forall₂ NodeKept live.nodes after.nodes

def RackTaken (given : VisualRack T D) (after : VisualRack T' D') : Prop :=
  Forall₂ NodeTaken given.nodes after.nodes

theorem RackKept.refl (rack : VisualRack T D) : RackKept rack rack :=
  ⟨rfl, forall₂_same.mpr fun node _ => .refl node⟩

structure RackOutcome [DecidableEq T] [DecidableEq D]
    (sampled live : VisualRack T D) (done : Bool) (after : VisualRack T D) :
    Prop where
  kept : RackKept live after
  exact_done : done = true ↔ racksShareStrictTopology sampled live = true ∧ NoStudy live
  taken : done = true → RackTaken sampled after
  unchanged : done = false → (after = live ↔
    (racksShareStrictTopology sampled live = true → AgreeToStudy sampled.nodes live.nodes))

theorem applyRackValuesStrict_look [DecidableEq T] [DecidableEq D] (sampled : VisualRack T D)
    {live : VisualRack T D} (hdist : DistinctNodes live) :
    ∃ done after, applyRackValuesStrict sampled live = some (done, after) ∧
      RackOutcome sampled live done after := by
  by_cases hstrict : racksShareStrictTopology sampled live = true
  · have hshared : racksShareValueTopology sampled live = true :=
      (Bool.and_eq_true_iff.mp hstrict).1
    have halike := forall₂_nodesAlike hshared
    obtain ⟨done, after, hwalk, hkept, hdone, htaken, hheld⟩ := writeAlong_look halike
    have hloop : applyNodes sampled.nodes live.nodes = some (done, after) := by
      rw [← hwalk]
      apply writeEach_eq_writeAlong _ (halike.imp fun _ _ h => h.1) hdist
      rintro given item goesOn written hwrite
      cases hwrite
      rfl
    refine ⟨done, { live with nodes := after }, ?_, ⟨rfl, hkept⟩, ?_, htaken, ?_⟩
    · rw [applyRackValuesStrict, if_pos hstrict, applyRackValues, if_pos hshared, hloop]
      rfl
    · exact hdone.trans ⟨fun h => ⟨hstrict, h⟩, fun h => h.2⟩
    · intro hfalse
      rw [← hheld hfalse]
      constructor
      · intro hsame _
        exact congrArg VisualRack.nodes hsame
      · intro hsame
        rw [hsame hstrict]
  · refine ⟨false, live, by rw [applyRackValuesStrict, if_neg hstrict], .refl live, ?_, ?_, ?_⟩
    · simp [hstrict]
    · intro h
      cases h
    · intro _
      exact iff_of_true rfl fun h => absurd h hstrict

section

variable {layerAt : SavedLayerPosition → Option StableLayerId} {groupExists : GroupId → Bool}

variable {node : VisualNode SavedImageTap SavedMotionDonor}

theorem nodeValues_resolve (h : node.sanitized = node) :
    nodeValues (node.resolve layerAt groupExists).kind = nodeValues node.kind := by
  have hkind : node.kind.sanitized = node.kind := congrArg VisualNode.kind h
  simp only [VisualNode.resolve, NodeKind.resolve, hkind, nodeValues_mapRoutes]

variable {after : RuntimeVisualNode}

theorem nodeTaken_resolve (h : node.sanitized = node) :
    NodeTaken (node.resolve layerAt groupExists) after ↔ NodeTaken node after := by
  have hvalues : nodeValues (node.resolve layerAt groupExists).kind =
      nodeValues node.kind := nodeValues_resolve h
  constructor
  · rintro ⟨hid, henab, hwet, hblend, hcarried⟩
    exact ⟨hid, henab, hwet, hblend, hcarried.trans hvalues⟩
  · rintro ⟨hid, henab, hwet, hblend, hcarried⟩
    exact ⟨hid, henab, hwet, hblend, hcarried.trans hvalues.symm⟩

theorem switchTaken_resolve :
    SwitchTaken (node.resolve layerAt groupExists) after ↔ SwitchTaken node after :=
  ⟨fun ⟨henab, hwet, hblend⟩ => ⟨henab, hwet, hblend⟩,
    fun ⟨henab, hwet, hblend⟩ => ⟨henab, hwet, hblend⟩⟩

variable {nodes : List (VisualNode SavedImageTap SavedMotionDonor)}

theorem forall₂_nodeTaken_resolve (h : ∀ node ∈ nodes, node.sanitized = node)
    {after : List RuntimeVisualNode} :
    Forall₂ NodeTaken (nodes.map (.resolve layerAt groupExists)) after ↔
      Forall₂ NodeTaken nodes after := by
  induction nodes generalizing after with
  | nil => simp
  | cons node rest ih =>
    obtain ⟨hnode, hrest⟩ := forall_mem_cons.mp h
    cases after with
    | nil => simp
    | cons live lives => simp [nodeTaken_resolve hnode, ih hrest]

theorem agreeToStudy_resolve (h : ∀ node ∈ nodes, node.sanitized = node)
    {live : List RuntimeVisualNode} :
    AgreeToStudy (nodes.map (.resolve layerAt groupExists)) live ↔ AgreeToStudy nodes live := by
  induction nodes generalizing live with
  | nil => simp [AgreeToStudy]
  | cons node rest ih =>
    obtain ⟨hnode, hrest⟩ := forall_mem_cons.mp h
    cases live with
    | nil => simp [AgreeToStudy]
    | cons other others =>
      simp [AgreeToStudy, nodeTaken_resolve hnode, switchTaken_resolve, ih hrest]

end

/-- Where the strict gate lets the saved rack pass and the live one carries a
Study node, the live nodes agree up to that node. -/
def RackHeld (layerAt : SavedLayerPosition → Option StableLayerId) (groupExists : GroupId → Bool)
    (saved : Composition.SavedVisualRack) (live : RuntimeVisualRack) : Prop :=
  racksShareStrictTopology (saved.resolveRoutes layerAt groupExists) live = true →
    ¬NoStudy live → AgreeToStudy saved.nodes live.nodes

structure SavedRackOutcome (saved : Composition.SavedVisualRack) (live : RuntimeVisualRack)
    (held : Prop) (done : Bool) (after : RuntimeVisualRack) : Prop where
  kept : RackKept live after
  taken : done = true → RackTaken saved after
  held_of_done : done = true → held
  unchanged : done = false → (after = live ↔ held)
  held_of_empty : saved.nodes = [] → held

theorem noStudy_of_empty [DecidableEq T] [DecidableEq D]
    {sampled live : VisualRack T D}
    (hstrict : racksShareStrictTopology sampled live = true)
    (hemp : sampled.nodes = []) : NoStudy live := by
  have halike := forall₂_nodesAlike (Bool.and_eq_true_iff.mp hstrict).1
  rw [hemp, forall₂_nil_left_iff] at halike
  intro node hnode
  rw [halike] at hnode
  cases hnode

theorem savedRack_outcome (layerAt : SavedLayerPosition → Option StableLayerId)
    (groupExists : GroupId → Bool) {saved : Composition.SavedVisualRack}
    (hsaved : ∀ node ∈ saved.nodes, node.sanitized = node)
    {live : RuntimeVisualRack} (hdist : DistinctNodes live) :
    ∃ done after,
      applyRackValuesStrict (saved.resolveRoutes layerAt groupExists) live = some (done, after) ∧
      SavedRackOutcome saved live (RackHeld layerAt groupExists saved live) done
        after := by
  obtain ⟨done, after, happ, hkept, hdone, htaken, hunchanged⟩ :=
    applyRackValuesStrict_look (saved.resolveRoutes layerAt groupExists) hdist
  refine ⟨done, after, happ, hkept, ?_, ?_, ?_, ?_⟩
  · intro h
    exact (forall₂_nodeTaken_resolve hsaved).mp (htaken h)
  · intro h _ hstudy
    exact absurd (hdone.mp h).2 hstudy
  · intro h
    rw [hunchanged h]
    have hagree : AgreeToStudy (saved.resolveRoutes layerAt groupExists).nodes
        live.nodes ↔ AgreeToStudy saved.nodes live.nodes :=
      agreeToStudy_resolve hsaved
    rw [hagree, RackHeld]
    refine forall_congr' fun hstrict => ?_
    have hstudy : ¬NoStudy live := by
      intro hnone
      rw [hdone.mpr ⟨hstrict, hnone⟩] at h
      cases h
    exact ⟨fun hheld _ => hheld, fun hheld => hheld hstudy⟩
  · intro hemp hstrict hstudy
    refine absurd (noStudy_of_empty hstrict ?_) hstudy
    simp [VisualRack.resolveRoutes, hemp]

def matteRoute (matte : ImageMatte T) : T × MatteChannel × Bool :=
  (matte.tap, matte.channel, matte.invert)

def matteValues (matte : ImageMatte T) : F32 × F32 × F32 :=
  (matte.amount, matte.threshold, matte.softness)

/-- The group stands where it stood, wired as before. -/
structure GroupKept (live after : LiveGroup) : Prop where
  id : after.id = live.id
  members : after.members = live.members
  name : after.body.name = live.body.name
  solo : after.body.solo = live.body.solo
  bypass : after.body.bypass = live.body.bypass
  bus : after.body.bus = live.body.bus
  matte : after.body.matte.map matteRoute = live.body.matte.map matteRoute
  rack : RackKept live.body.rack after.body.rack

structure GroupTaken (saved : SavedGroup) (after : LiveGroup) : Prop where
  opacity : after.body.opacity = saved.body.opacity
  transform : after.body.transform = saved.body.transform
  rack : RackTaken saved.body.rack after.body.rack
  matte : after.body.matte.map matteValues = saved.body.matte.map matteValues

theorem GroupKept.refl (group : LiveGroup) : GroupKept group group :=
  ⟨rfl, rfl, rfl, rfl, rfl, rfl, rfl, .refl _⟩

/-- Where the gate lets the saved group pass and the live rack carries a Study
node, the live group has the saved opacity and transform, and its nodes agree up
to the Study node. -/
def GroupHeld (layerAt : SavedLayerPosition → Option StableLayerId)
    (groupExists : GroupId → Bool) (saved : SavedGroup) (live : LiveGroup) :
    Prop :=
  (∃ sampled, sampledGroup layerAt groupExists saved = some sampled ∧
      groupVisualTopologyMatches sampled live = true) →
    ¬NoStudy live.body.rack →
    live.body.opacity = saved.body.opacity ∧
      live.body.transform = saved.body.transform ∧
      AgreeToStudy saved.body.rack.nodes live.body.rack.nodes

theorem groupNodeRoutesMatch_spec {sampled live : NodeKind ResolvedImageTap MotionDonor}
    (htag : sampled.tag = live.tag) (h : groupNodeRoutesMatch sampled live = true) :
    nodeValueTopologyMatches sampled live = true ∧ nodeRoutesMatch sampled live = true := by
  cases sampled with
  | mask sampled =>
    cases live <;> cases htag
    rename_i live
    cases sampled <;> cases live <;>
      simp_all [groupNodeRoutesMatch, nodeValueTopologyMatches, nodeRoutesMatch, NodeKind.tag]
  | _ =>
    cases live <;> cases htag
    exact ⟨rfl, h⟩

theorem strict_of_groupTopology {sampled live : LiveGroup}
    (h : groupVisualTopologyMatches sampled live = true) :
    racksShareStrictTopology sampled.body.rack live.body.rack = true := by
  simp only [groupVisualTopologyMatches, Bool.and_eq_true, decide_eq_true_eq, all_eq_true] at h
  obtain ⟨⟨⟨-, hlen⟩, hsig⟩, hnodes⟩ := h
  simp only [racksShareStrictTopology, racksShareValueTopology,
    Bool.and_eq_true, decide_eq_true_eq, all_eq_true]
  have hnode : ∀ pair ∈ sampled.body.rack.nodes.zip live.body.rack.nodes,
      nodeValueTopologyMatches pair.1.kind pair.2.kind = true ∧
        nodeRoutesMatch pair.1.kind pair.2.kind = true := fun pair hpair =>
    groupNodeRoutesMatch_spec (hnodes pair hpair).1.2 (hnodes pair hpair).2
  exact ⟨⟨⟨hsig, hlen⟩, fun pair hpair =>
    ⟨(hnodes pair hpair).1.1, (hnode pair hpair).1⟩⟩, fun pair hpair => (hnode pair hpair).2⟩

/-- What the look does with a saved group and the live one of its identity. -/
structure SavedGroupOutcome (saved : SavedGroup) (live : LiveGroup)
    (held : Prop) (done : Bool) (after : LiveGroup) : Prop where
  kept : GroupKept live after
  taken : done = true → GroupTaken saved after
  held_of_done : done = true → held
  unchanged : done = false → (after = live ↔ held)
  held_of_empty : saved.body.rack.nodes = [] → held

theorem applyMatte_look {sampled live : Option (ImageMatte ResolvedImageTap)}
    (h : matteRoutesMatch sampled live = true) :
    (applyMatte sampled live).map matteRoute = live.map matteRoute ∧
      (applyMatte sampled live).map matteValues = sampled.map matteValues := by
  cases sampled with
  | none =>
    cases live with
    | none => exact ⟨rfl, rfl⟩
    | some live => cases h
  | some sampled =>
    cases live with
    | none => cases h
    | some live => exact ⟨rfl, rfl⟩

section

variable {layerAt : SavedLayerPosition → Option StableLayerId} {groupExists : GroupId → Bool}

variable {saved : SavedGroup} {sampled : LiveGroup}

theorem sampledGroup_some (h : sampledGroup layerAt groupExists saved = some sampled) :
    sampled.id = saved.id ∧ sampled.body = saved.body.resolveRoutes layerAt groupExists := by
  obtain ⟨members, -, rfl⟩ := Option.map_eq_some_iff.mp h
  exact ⟨rfl, rfl⟩

theorem matteValues_resolve {body : GroupBody SavedImageTap SavedMotionDonor}
    (h : body.sanitized = body) :
    (body.resolveRoutes layerAt groupExists).matte.map matteValues =
      body.matte.map matteValues := by
  have hmatte : body.matte.map ImageMatte.sanitized = body.matte := congrArg matte h
  calc
    (body.resolveRoutes layerAt groupExists).matte.map matteValues =
        (body.matte.map ImageMatte.sanitized).map matteValues := by
      rw [GroupBody.resolveRoutes, Option.map_map, Option.map_map]
      rfl
    _ = body.matte.map matteValues := by rw [hmatte]

structure BoundedGroup (saved : SavedGroup) : Prop where
  body : saved.body.sanitized = saved.body
  nodes : ∀ node ∈ saved.body.rack.nodes, node.sanitized = node

/-- A live group with the opacity and the transform of the sampled one, a rack
and a matte. -/
def writtenGroup (sampled live : LiveGroup) (rack : RuntimeVisualRack)
    (matte : Option (ImageMatte ResolvedImageTap)) : LiveGroup :=
  { live with
    body :=
      { live.body with
        opacity := sampled.body.opacity
        transform := sampled.body.transform
        rack := rack
        matte := matte } }

variable {live : LiveGroup}

theorem applyRuntimeGroupLookValues_matched
    (hmatch : groupVisualTopologyMatches sampled live = true) {done : Bool}
    {rack : RuntimeVisualRack}
    (happ : applyRackValuesStrict sampled.body.rack live.body.rack = some (done, rack)) :
    applyRuntimeGroupLookValues sampled live =
      some (done, writtenGroup sampled live rack
        (if done then applyMatte sampled.body.matte live.body.matte
          else live.body.matte)) := by
  have hwrite : applyRackValuesStrict sampled.body.rack
      (withOpacityAndTransform sampled live).body.rack = some (done, rack) :=
    happ
  simp only [applyRuntimeGroupLookValues, if_pos hmatch, hwrite]
  cases done with
  | true | false => rfl

theorem matched_outcome (hsaved : BoundedGroup saved)
    (hsampled : sampledGroup layerAt groupExists saved = some sampled)
    (hmatch : groupVisualTopologyMatches sampled live = true)
    (hdist : DistinctNodes live.body.rack) :
    ∃ done after, applyRuntimeGroupLookValues sampled live = some (done, after) ∧
      SavedGroupOutcome saved live (GroupHeld layerAt groupExists saved live) done after := by
  have hstrict := strict_of_groupTopology hmatch
  obtain ⟨-, hbody⟩ := sampledGroup_some hsampled
  have hmatte : matteRoutesMatch sampled.body.matte live.body.matte = true := by
    simp only [groupVisualTopologyMatches, Bool.and_eq_true] at hmatch
    exact hmatch.1.1.1.2
  obtain ⟨hroute, hvalues⟩ := applyMatte_look hmatte
  have hopac : sampled.body.opacity = saved.body.opacity := congrArg opacity hbody
  have htransform : sampled.body.transform = saved.body.transform := congrArg transform hbody
  have hemp : saved.body.rack.nodes = [] → GroupHeld layerAt groupExists saved live := by
    intro hnodes _ hstudy
    refine absurd (noStudy_of_empty hstrict ?_) hstudy
    rw [hbody]
    simp [resolveRoutes, VisualRack.resolveRoutes, hnodes]
  obtain ⟨done, rack, happ, hkept, hdone, htaken, hunchanged⟩ :=
    applyRackValuesStrict_look sampled.body.rack hdist
  refine ⟨done, _, applyRuntimeGroupLookValues_matched hmatch happ, ?_⟩
  cases done with
  | true =>
    refine ⟨⟨rfl, rfl, rfl, rfl, rfl, rfl, hroute, hkept⟩, ?_, ?_, ?_, hemp⟩
    · intro _
      refine ⟨hopac, htransform, ?_, ?_⟩
      · have hrack := htaken rfl
        rw [hbody] at hrack
        exact (forall₂_nodeTaken_resolve hsaved.nodes).mp hrack
      · have hmatte : (saved.body.resolveRoutes layerAt groupExists).matte.map
            matteValues = saved.body.matte.map matteValues :=
          matteValues_resolve hsaved.body
        rw [← hmatte]
        exact hvalues.trans (congrArg (fun body => Option.map matteValues
          (GroupBody.matte body)) hbody)
    · intro _ _ hstudy
      exact absurd (hdone.mp rfl).2 hstudy
    · intro h
      cases h
  | false =>
    refine ⟨⟨rfl, rfl, rfl, rfl, rfl, rfl, rfl, hkept⟩, ?_, ?_, ?_, hemp⟩
    · intro h
      cases h
    · intro h
      cases h
    · intro _
      have hrack := hunchanged rfl
      have hagree : AgreeToStudy sampled.body.rack.nodes
          live.body.rack.nodes ↔ AgreeToStudy saved.body.rack.nodes live.body.rack.nodes := by
        rw [hbody]
        exact agreeToStudy_resolve hsaved.nodes
      rw [hagree] at hrack
      constructor
      · intro hsame _ _
        have hbodies := congrArg Group.body hsame
        refine ⟨?_, ?_, hrack.mp ?_ hstrict⟩
        · rw [← hopac]
          exact (congrArg opacity hbodies).symm
        · rw [← htransform]
          exact (congrArg transform hbodies).symm
        · exact congrArg GroupBody.rack hbodies
      · intro hheld
        have hstudy : ¬NoStudy live.body.rack := fun hnone =>
          absurd (hdone.mpr ⟨hstrict, hnone⟩) (by decide)
        obtain ⟨hopacityLive, htransformLive, hnodes⟩ := hheld ⟨sampled, hsampled, hmatch⟩ hstudy
        have hsame := hrack.mpr fun _ => hnodes
        simp [writtenGroup, hsame, hopac, htransform, ← hopacityLive, ← htransformLive]

variable (layerAt groupExists) in
theorem savedGroup_outcome (hsaved : BoundedGroup saved) (hdist : DistinctNodes live.body.rack) :
    ∃ done after, applySavedGroup layerAt groupExists saved live = some (done, after) ∧
      SavedGroupOutcome saved live (GroupHeld layerAt groupExists saved live) done after := by
  have hleft : GroupHeld layerAt groupExists saved live →
      SavedGroupOutcome saved live (GroupHeld layerAt groupExists saved live) false live := by
    intro hheld
    exact ⟨.refl live, fun h => (by cases h), fun h => (by cases h),
      fun _ => iff_of_true rfl hheld, fun _ => hheld⟩
  rw [applySavedGroup]
  cases hsampled : sampledGroup layerAt groupExists saved with
  | none =>
    refine ⟨false, live, rfl, hleft ?_⟩
    rintro ⟨sampled, hsome, -⟩
    rw [hsampled] at hsome
    cases hsome
  | some sampled =>
    by_cases hmatch : groupVisualTopologyMatches sampled live = true
    · exact matched_outcome hsaved hsampled hmatch hdist
    · refine ⟨false, live, ?_, hleft ?_⟩
      · simp only [applyRuntimeGroupLookValues, if_neg hmatch]
      · rintro ⟨other, hsome, hother⟩
        rw [hsampled] at hsome
        cases hsome
        exact absurd hother hmatch

theorem applySavedGroup_id {written : LiveGroup} {verdict : Bool}
    (h : applySavedGroup layerAt groupExists saved live =
      some (verdict, written)) : written.id = live.id := by
  simp only [applySavedGroup] at h
  split at h
  · cases h
    rfl
  · simp only [applyRuntimeGroupLookValues] at h
    split at h
    · obtain ⟨result, -, hres⟩ := Option.map_eq_some_iff.mp h
      split at hres
      · cases hres
        rfl
      · cases hres
        rfl
    · cases h
      rfl

end

end CollideOScope.Patch
