import CollideOScope.Modulation.AddressBook
import CollideOScope.Support.Numbering

/-!
# What the book contains

The targets of a topology are listed rack by rack and node by node.  A topology
compiles exactly when no target repeats and the positions fit the address
space; the book then numbers the list.  A node of a topology that compiles is
known by its scope and identity, so a target is known by its wire identity.
-/

namespace CollideOScope.Modulation

open Composition Checks List

/-- The scale of a cellular node has the key of that of a transform, which
stands before it and has two components. -/
def NodeParamDescriptor.isCellularScale (entry : NodeParamDescriptor) : Bool :=
  decide (entry.kind = .cellular) && decide (entry.key = "scale")

theorem registry_short : nodeParamDescriptors.length ≤ 2 ^ 16 := by
  decide +kernel

theorem registry_keys_nodup :
    (nodeParamDescriptors.map fun entry => (entry.kind, entry.key)).Nodup := by
  decide +kernel

theorem registry_unique {i j : ℕ} {left right : NodeParamDescriptor}
    (hleft : nodeParamDescriptors[i]? = some left) (hright : nodeParamDescriptors[j]? = some right)
    (hkind : left.kind = right.kind) (hkey : left.key = right.key) : i = j := by
  obtain ⟨hi, -⟩ := List.getElem?_eq_some_iff.mp hleft
  refine (List.getElem?_inj (by simpa using hi) registry_keys_nodup).mp ?_
  rw [List.getElem?_map, List.getElem?_map, hleft, hright]
  simp [hkind, hkey]

theorem registry_kinds : ∀ entry ∈ nodeParamDescriptors,
    entry.kind ≠ .legacyCanonical ∧ entry.kind ≠ .legacyTemporal := by
  decide +kernel

theorem registry_plain : ∀ entry ∈ nodeParamDescriptors,
    '.' ∉ entry.key.toList ∧ '/' ∉ entry.key.toList ∧ entry.key ≠ "wet" := by
  simp only [nodeParamDescriptors, forall_mem_append]
  and_intros
  all_goals
    repeat
      refine forall_mem_cons.mpr ⟨?_, ?_⟩
      · dsimp only [floatParam]
        rw [String.toList_ofList]
        decide
    exact forall_mem_nil _

theorem registry_first : ∀ entry ∈ nodeParamDescriptors, entry.modulatable →
    (firstModulatable entry.key).map (fun first => first.1.valueType) =
      some (if entry.isCellularScale then .vec2 else entry.valueType) := by
  decide +kernel

theorem registry_cellularScale : ∀ entry ∈ nodeParamDescriptors,
    entry.isCellularScale → entry.valueType = .float := by
  decide +kernel

/-- `stable_mod_node_shape`: which mask a node is. -/
def stableModNodeShape (node : RuntimeVisualNode) : ℕ :=
  match node.kind with
  | .mask (.rectangle _) => 1
  | .mask (.ellipse _) => 2
  | .mask (.image _) => 3
  | _ => 0

structure NodeSite where
  scope : StableModScope
  nodeId : NodeId
  kind : NodeKindTag
  shape : ℕ

namespace NodeSite

def of (scope : StableModScope) (node : RuntimeVisualNode) : NodeSite :=
  ⟨scope, node.stableId, node.kind.tag, stableModNodeShape node⟩

def supports (site : NodeSite) (key : String) : Bool :=
  match site.shape with
  | 1 => "rectangle_".toList.isPrefixOf key.toList
  | 2 => "ellipse_".toList.isPrefixOf key.toList
  | 3 => "image_".toList.isPrefixOf key.toList
  | _ => true

def descriptorTargets (site : NodeSite) (entry : NodeParamDescriptor × ℕ) : List StableModTarget :=
  if entry.1.kind = site.kind ∧ entry.1.modulatable ∧
      site.supports entry.1.key then
    entry.1.valueType.components.map fun component =>
      .node site.scope site.nodeId (.descriptor entry.2 component)
  else []

def wetTargets (site : NodeSite) : List StableModTarget :=
  if StableNodeParameter.wet.isValidForKind site.kind then [.node site.scope site.nodeId .wet]
  else []

def targets (site : NodeSite) : List StableModTarget :=
  site.wetTargets ++ nodeParamDescriptors.zipIdx.flatMap site.descriptorTargets

theorem supports_of (scope : StableModScope) (node : RuntimeVisualNode) (key : String) :
    (of scope node).supports key = runtimeNodeSupportsDescriptor node key := by
  rcases node with ⟨id, enabled, wet, blend, kind⟩
  cases kind with
  | mask value => cases value <;> rfl
  | _ => rfl

end NodeSite

section

variable (masterRack : RuntimeVisualRack) (layerRacks : List (StableLayerId × RuntimeVisualRack))
  (composition : RuntimeComposition)

abbrev RuntimeGroup := Group StableLayerId (GroupBody ResolvedImageTap MotionDonor)

def rackTargets (scope : StableModScope) (rack : RuntimeVisualRack) : List StableModTarget :=
  rack.nodes.flatMap fun node => (NodeSite.of scope node).targets

def groupValues (groupId : GroupId) (hasMatte : Bool) : List StableModTarget :=
  (StableModAddressBook.directParameters ++
    if hasMatte then StableModAddressBook.matteParameters else []).map
      (.groupValue groupId)

def groupTargets (group : RuntimeGroup) : List StableModTarget :=
  groupValues group.id group.body.matte.isSome ++ rackTargets (.group group.id) group.body.rack

def topologyTargets : List StableModTarget :=
  rackTargets .master masterRack ++
    layerRacks.flatMap (fun layer => rackTargets (.layer layer.1) layer.2) ++
    .compositionValue .busCrossfade :: composition.tree.groups.flatMap groupTargets

end

namespace StableModAddressBook

def insertAll (book : StableModAddressBook) (targets : List StableModTarget) :
    Except AddressBookError StableModAddressBook :=
  targets.foldlM insert book

def ofTargets (targets : List StableModTarget) : StableModAddressBook := ⟨targets.zipIdx, targets⟩

section

variable (book : StableModAddressBook)

theorem insertAll_append (front back : List StableModTarget) :
    book.insertAll (front ++ back) = book.insertAll front >>= fun next => next.insertAll back :=
  foldlM_append

theorem insertAll_singleton (target : StableModTarget) :
    book.insertAll [target] = book.insert target := by
  simp [insertAll]

theorem addDescriptor_eq {scope : StableModScope} {node : RuntimeVisualNode}
    {entry : NodeParamDescriptor × ℕ} (hent : entry ∈ nodeParamDescriptors.zipIdx) :
    book.addDescriptor scope node entry =
      book.insertAll ((NodeSite.of scope node).descriptorTargets entry) := by
  have hlt : entry.2 < 2 ^ 16 := by
    have := snd_lt_of_mem_zipIdx hent
    have := registry_short
    omega
  have hidx : tryFromU16 entry.2 = some entry.2 := checkedWord_eq_some.mpr ⟨hlt, rfl⟩
  rw [addDescriptor, NodeSite.descriptorTargets, NodeSite.supports_of]
  by_cases hkeep : entry.1.kind = (NodeSite.of scope node).kind ∧
      entry.1.modulatable ∧ runtimeNodeSupportsDescriptor node entry.1.key
  · have hskip : ¬(entry.1.kind ≠ node.kind.tag ∨ ¬entry.1.modulatable ∨
        ¬runtimeNodeSupportsDescriptor node entry.1.key) := by
      obtain ⟨hkind, hmodulatable, hsupports⟩ := hkeep
      have hkind' : entry.1.kind = node.kind.tag := hkind
      simp [hkind', hmodulatable, hsupports]
    rw [if_neg hskip, if_pos hkeep]
    by_cases hnone : entry.1.valueType.components = []
    · rw [if_pos hnone, hnone]
      rfl
    · rw [if_neg hnone, hidx, insertAll, foldlM_map]
      rfl
  · have hskip : entry.1.kind ≠ node.kind.tag ∨ ¬entry.1.modulatable ∨
        ¬runtimeNodeSupportsDescriptor node entry.1.key := by
      have hkind : (NodeSite.of scope node).kind = node.kind.tag := rfl
      rw [hkind] at hkeep
      tauto
    rw [if_neg hkeep, if_pos hskip]
    rfl

theorem addNode_eq (scope : StableModScope) (node : RuntimeVisualNode) :
    book.addNode scope node = book.insertAll (NodeSite.of scope node).targets := by
  have hregistry : ∀ next : StableModAddressBook,
      nodeParamDescriptors.zipIdx.foldlM (addDescriptor scope node) next =
        next.insertAll (nodeParamDescriptors.zipIdx.flatMap
          (NodeSite.of scope node).descriptorTargets) := by
    intro next
    rw [insertAll, foldlM_flatMap]
    exact foldlM_congr (fun entry hent s => s.addDescriptor_eq hent) next
  have hwet : book.addWet scope node = book.insertAll (NodeSite.of scope node).wetTargets := by
    have hkind : (NodeSite.of scope node).kind = node.kind.tag := rfl
    rw [addWet, NodeSite.wetTargets, hkind]
    split
    · rw [insertAll_singleton]
      rfl
    · rfl
  rw [NodeSite.targets, insertAll_append, addNode, hwet]
  simp only [hregistry]

theorem addRack_eq (scope : StableModScope) (rack : RuntimeVisualRack) :
    book.addRack scope rack = book.insertAll (rackTargets scope rack) := by
  rw [addRack, rackTargets, insertAll, foldlM_flatMap]
  exact foldlM_congr (fun node _ s => s.addNode_eq scope node) book

theorem addGroup_eq (group : RuntimeGroup) :
    book.addGroup group = book.insertAll (groupTargets group) := by
  have hvalues : ∀ (parameters : List GroupModParameter)
      (next : StableModAddressBook), next.addValues group.id parameters =
        next.insertAll (parameters.map (.groupValue group.id)) := by
    intro parameters next
    rw [addValues, insertAll, foldlM_map]
  rw [addGroup, groupTargets, groupValues, map_append, append_assoc, insertAll_append]
  simp only [hvalues, addRack_eq, insertAll_append]

end

theorem fromComposition_eq (masterRack : RuntimeVisualRack)
    (layerRacks : List (StableLayerId × RuntimeVisualRack)) (composition : RuntimeComposition) :
    fromComposition masterRack layerRacks composition =
      empty.insertAll (topologyTargets masterRack layerRacks composition) := by
  have hlays : ∀ next : StableModAddressBook,
      layerRacks.foldlM (fun next layer =>
        next.addRack (.layer layer.1) layer.2) next =
          next.insertAll (layerRacks.flatMap fun layer =>
            rackTargets (.layer layer.1) layer.2) := by
    intro next
    rw [insertAll, foldlM_flatMap]
    exact foldlM_congr (fun layer _ s => s.addRack_eq _ layer.2) next
  have hgrps : ∀ next : StableModAddressBook,
      composition.tree.groups.foldlM addGroup next =
        next.insertAll (composition.tree.groups.flatMap groupTargets) := by
    intro next
    rw [insertAll, foldlM_flatMap]
    exact foldlM_congr (fun group _ s => s.addGroup_eq group) next
  rw [fromComposition, topologyTargets, append_assoc, insertAll_append, addRack_eq]
  simp only [insertAll_append, hlays, hgrps]
  rfl

variable {book : StableModAddressBook} {targets : List StableModTarget}

theorem insert_ofTargets_ok {target : StableModTarget} :
    (ofTargets targets).insert target = .ok book ↔
      target ∉ targets ∧ targets.length < 2 ^ 16 ∧ book = ofTargets (targets ++ [target]) := by
  simp only [insert, ofTargets, bind_ok, refuse_ok, exists_unit, require_ok,
    pure_ok, isSome_lookup_zipIdx, tryFromU16, checkedWord_eq_some]
  constructor
  · rintro ⟨hnew, address, ⟨hlt, rfl⟩, rfl⟩
    refine ⟨hnew, hlt, ?_⟩
    simp [zipIdx_append]
  · rintro ⟨hnew, hlt, rfl⟩
    exact ⟨hnew, _, ⟨hlt, rfl⟩, by simp [zipIdx_append]⟩

theorem insertAll_ofTargets_ok {front : List StableModTarget}
    (hfront : front.Nodup) (hlen : front.length ≤ 2 ^ 16) :
    (ofTargets front).insertAll targets = .ok book ↔
      (front ++ targets).Nodup ∧ (front ++ targets).length ≤ 2 ^ 16 ∧
        book = ofTargets (front ++ targets) := by
  induction targets generalizing front with
  | nil =>
    simp only [insertAll, foldlM_nil, pure_ok, append_nil]
    constructor
    · rintro rfl
      exact ⟨hfront, hlen, rfl⟩
    · rintro ⟨-, -, rfl⟩
      rfl
  | cons target rest ih =>
    simp only [insertAll, foldlM_cons, bind_ok, insert_ofTargets_ok]
    rw [append_cons front target rest]
    constructor
    · rintro ⟨next, ⟨hnew, hlt, rfl⟩, hrest⟩
      exact (ih (nodup_concat hfront hnew) (by rw [length_append]; exact hlt)).mp hrest
    · rintro ⟨hnd, hshort, rfl⟩
      have hnew : target ∉ front := by
        rw [← append_cons, nodup_append_cons] at hnd
        exact hnd.1
      have hlt : front.length < 2 ^ 16 := by
        simp only [length_append, length_cons] at hshort
        omega
      exact ⟨_, ⟨hnew, hlt, rfl⟩, (ih (nodup_concat hfront hnew)
        (by rw [length_append]; exact hlt)).mpr ⟨hnd, hshort, rfl⟩⟩

theorem fromComposition_ok {masterRack : RuntimeVisualRack}
    {layerRacks : List (StableLayerId × RuntimeVisualRack)} {composition : RuntimeComposition} :
    fromComposition masterRack layerRacks composition = .ok book ↔
      (topologyTargets masterRack layerRacks composition).Nodup ∧
      (topologyTargets masterRack layerRacks composition).length ≤ 2 ^ 16 ∧
      book = ofTargets (topologyTargets masterRack layerRacks composition) := by
  rw [fromComposition_eq]
  exact insertAll_ofTargets_ok nodup_nil (Nat.zero_le _)

end StableModAddressBook

/-- A parameter of a kind of node: the wet amount, or a component of an entry
of the registry that the shape has. -/
inductive NodeSite.HasParameter (site : NodeSite) : StableNodeParameter → Prop
  | wet (h : StableNodeParameter.wet.isValidForKind site.kind) : site.HasParameter .wet
  | descriptor {index : ℕ} {entry : NodeParamDescriptor}
      {component : StableModComponent}
      (hentry : nodeParamDescriptors[index]? = some entry)
      (hkind : entry.kind = site.kind) (hmodulatable : entry.modulatable)
      (hsupports : site.supports entry.key)
      (hcomponent : component ∈ entry.valueType.components) :
      site.HasParameter (.descriptor index component)

variable {site : NodeSite}

theorem NodeSite.mem_targets {target : StableModTarget} :
    target ∈ site.targets ↔ ∃ parameter, site.HasParameter parameter ∧
      target = .node site.scope site.nodeId parameter := by
  rw [targets, mem_append, wetTargets, mem_flatMap]
  constructor
  · rintro (hwet | ⟨⟨entry, index⟩, hent, htgt⟩)
    · split_ifs at hwet with hvalid
      · exact ⟨_, .wet hvalid, mem_singleton.mp hwet⟩
      · cases hwet
    · rw [mk_mem_zipIdx_iff_getElem?] at hent
      rw [descriptorTargets] at htgt
      split_ifs at htgt with hkeep
      · obtain ⟨component, hcomp, rfl⟩ := mem_map.mp htgt
        exact ⟨_, .descriptor hent hkeep.1 hkeep.2.1 hkeep.2.2 hcomp, rfl⟩
      · cases htgt
  · rintro ⟨parameter, hparam, rfl⟩
    cases hparam with
    | wet hvalid =>
      left
      rw [if_pos hvalid]
      exact mem_singleton_self _
    | @descriptor index entry component hent hkind hmodulatable hsupports
        hcomp =>
      right
      refine ⟨(entry, index), mk_mem_zipIdx_iff_getElem?.mpr hent, ?_⟩
      rw [descriptorTargets, if_pos ⟨hkind, hmodulatable, hsupports⟩]
      exact mem_map.mpr ⟨component, hcomp, rfl⟩

open StableNodeParameter

theorem NodeSite.HasParameter.hasWet {parameter : StableNodeParameter}
    (h : site.HasParameter parameter) : site.HasParameter .wet := by
  cases h with
  | wet hvalid => exact .wet hvalid
  | descriptor hent hkind =>
    apply HasParameter.wet
    have hmarkers := registry_kinds _ (mem_of_getElem? hent)
    rw [hkind] at hmarkers
    simpa [isValidForKind] using hmarkers

theorem NodeSite.HasParameter.unique {p q : StableNodeParameter} (hp : site.HasParameter p)
    (hq : site.HasParameter q) (h : p.sameWireParameter q) : p = q := by
  cases hp with
  | wet =>
    cases hq with
    | wet => rfl
    | descriptor => cases h
  | @descriptor i left c hleft hkind =>
    cases hq with
    | wet => cases h
    | @descriptor j right d hright hkind' =>
      simp only [sameWireParameter, hleft, hright, Bool.and_eq_true, decide_eq_true_eq] at h
      obtain ⟨rfl, hkey⟩ := h
      rw [registry_unique hleft hright (hkind.trans hkind'.symm) hkey]

theorem StableNodeParameter.sameWireParameter_of_common {a b c : StableNodeParameter}
    (ha : a.sameWireParameter c) (hb : b.sameWireParameter c) : a.sameWireParameter b := by
  cases c with
  | wet => cases a <;> cases b <;> simp_all [sameWireParameter]
  | descriptor k component =>
    cases a with
    | wet => cases ha
    | descriptor i left =>
      cases b with
      | wet => cases hb
      | descriptor j right =>
        simp only [sameWireParameter, Bool.and_eq_true, decide_eq_true_eq] at ha hb ⊢
        refine ⟨ha.1.trans hb.1.symm, ?_⟩
        cases hi : nodeParamDescriptors[i]? with
        | none => simp [hi] at ha
        | some _ =>
          cases hj : nodeParamDescriptors[j]? with
          | none => simp [hj] at hb
          | some _ =>
            cases hk : nodeParamDescriptors[k]? with
            | none => simp [hk] at ha
            | some _ => simp_all

theorem StableModTarget.sameWireTarget_of_common {a b c : StableModTarget}
    (ha : a.sameWireTarget c) (hb : b.sameWireTarget c) :
    a.sameWireTarget b := by
  cases c with
  | node scope id parameter =>
    cases a with
    | node =>
      cases b with
      | node =>
        simp only [sameWireTarget, Bool.and_eq_true, decide_eq_true_eq] at ha hb ⊢
        obtain ⟨⟨rfl, rfl⟩, ha⟩ := ha
        obtain ⟨⟨rfl, rfl⟩, hb⟩ := hb
        exact ⟨⟨rfl, rfl⟩, sameWireParameter_of_common ha hb⟩
      | groupValue | compositionValue => cases hb
    | groupValue | compositionValue => cases ha
  | groupValue | compositionValue => cases a <;> cases b <;> simp_all [sameWireTarget]

section

variable {masterRack : RuntimeVisualRack} {layerRacks : List (StableLayerId × RuntimeVisualRack)}
  {composition : RuntimeComposition}

def rackSites (scope : StableModScope) (rack : RuntimeVisualRack) : List NodeSite :=
  rack.nodes.map (NodeSite.of scope)

def topologySites (masterRack : RuntimeVisualRack)
    (layerRacks : List (StableLayerId × RuntimeVisualRack))
    (composition : RuntimeComposition) : List NodeSite :=
  rackSites .master masterRack ++
    (layerRacks.flatMap (fun layer => rackSites (.layer layer.1) layer.2) ++
      composition.tree.groups.flatMap fun group => rackSites (.group group.id) group.body.rack)

theorem rackTargets_eq (scope : StableModScope) (rack : RuntimeVisualRack) :
    rackTargets scope rack = (rackSites scope rack).flatMap NodeSite.targets := by
  rw [rackTargets, rackSites, flatMap_map]

theorem topologySites_sublist :
    ((topologySites masterRack layerRacks composition).flatMap
      NodeSite.targets).Sublist (topologyTargets masterRack layerRacks composition) := by
  rw [topologySites, topologyTargets, flatMap_append, flatMap_append,
    flatMap_assoc, flatMap_assoc, append_assoc]
  simp only [rackTargets_eq]
  refine (Sublist.refl _).append ((Sublist.refl _).append ?_)
  apply Sublist.cons
  apply Sublist.flatMap_right
  intro group _
  rw [groupTargets, rackTargets_eq]
  exact sublist_append_right _ _

variable {target : StableModTarget}

theorem mem_topologyTargets :
    target ∈ topologyTargets masterRack layerRacks composition ↔
      (∃ site ∈ topologySites masterRack layerRacks composition, target ∈ site.targets) ∨
      (∃ group ∈ composition.tree.groups, target ∈ groupValues group.id group.body.matte.isSome) ∨
      target = .compositionValue .busCrossfade := by
  simp only [topologyTargets, topologySites, groupTargets, rackTargets_eq,
    mem_append, mem_flatMap, mem_cons]
  constructor
  · rintro ((⟨site, hsite, hmem⟩ | ⟨layer, hlayer, site, hsite, hmem⟩) |
      rfl | ⟨group, hgrp, hmem | ⟨site, hsite, hmem⟩⟩)
    · exact .inl ⟨site, .inl hsite, hmem⟩
    · exact .inl ⟨site, .inr (.inl ⟨layer, hlayer, hsite⟩), hmem⟩
    · exact .inr (.inr rfl)
    · exact .inr (.inl ⟨group, hgrp, hmem⟩)
    · exact .inl ⟨site, .inr (.inr ⟨group, hgrp, hsite⟩), hmem⟩
  · rintro (⟨site, hsite | ⟨layer, hlayer, hsite⟩ | ⟨group, hgrp, hsite⟩,
      hmem⟩ | ⟨group, hgrp, hmem⟩ | rfl)
    · exact .inl (.inl ⟨site, hsite, hmem⟩)
    · exact .inl (.inr ⟨layer, hlayer, site, hsite, hmem⟩)
    · exact .inr (.inr ⟨group, hgrp, .inr ⟨site, hsite, hmem⟩⟩)
    · exact .inr (.inr ⟨group, hgrp, .inl hmem⟩)
    · exact .inr (.inl rfl)

theorem exists_site {scope : StableModScope} {nodeId : NodeId} {parameter : StableNodeParameter}
    (h : .node scope nodeId parameter ∈ topologyTargets masterRack layerRacks composition) :
    ∃ site ∈ topologySites masterRack layerRacks composition,
      site.scope = scope ∧ site.nodeId = nodeId ∧ site.HasParameter parameter := by
  rcases mem_topologyTargets.mp h with ⟨site, hsite, hmem⟩ |
    ⟨group, -, hmem⟩ | heq
  · obtain ⟨own, hown, heq⟩ := NodeSite.mem_targets.mp hmem
    cases heq
    exact ⟨site, hsite, rfl, rfl, hown⟩
  · obtain ⟨value, -, heq⟩ := mem_map.mp hmem
    cases heq
  · cases heq

theorem site_unique
    (hnd : (topologyTargets masterRack layerRacks composition).Nodup)
    {left right : NodeSite}
    (hleft : left ∈ topologySites masterRack layerRacks composition)
    (hright : right ∈ topologySites masterRack layerRacks composition)
    (hscope : left.scope = right.scope) (hnode : left.nodeId = right.nodeId)
    {p q : StableNodeParameter} (hp : left.HasParameter p)
    (hq : right.HasParameter q) : left = right := by
  have hparts := hnd.sublist topologySites_sublist
  refine eq_of_mem_flatMap hparts hleft hright (NodeSite.mem_targets.mpr ⟨.wet, hp.hasWet, rfl⟩)
    (NodeSite.mem_targets.mpr ⟨.wet, hq.hasWet, ?_⟩)
  rw [hscope, hnode]

open StableModTarget

theorem eq_of_sameWireTarget
    (hnd : (topologyTargets masterRack layerRacks composition).Nodup)
    {a b : StableModTarget}
    (ha : a ∈ topologyTargets masterRack layerRacks composition)
    (hb : b ∈ topologyTargets masterRack layerRacks composition)
    (h : a.sameWireTarget b) : a = b := by
  cases a with
  | node scope nodeId p =>
    cases b with
    | node scope' nodeId' q =>
      simp only [sameWireTarget, Bool.and_eq_true, decide_eq_true_eq] at h
      obtain ⟨⟨rfl, rfl⟩, hparam⟩ := h
      obtain ⟨left, hleft, hscope, hnode, hp⟩ := exists_site ha
      obtain ⟨right, hright, hscope', hnode', hq⟩ := exists_site hb
      obtain rfl := site_unique hnd hleft hright
        (hscope.trans hscope'.symm) (hnode.trans hnode'.symm) hp hq
      rw [hp.unique hq hparam]
    | groupValue | compositionValue => cases h
  | groupValue =>
    cases b with
    | groupValue => simp_all [sameWireTarget]
    | node | compositionValue => cases h
  | compositionValue =>
    cases b with
    | compositionValue => simp_all [sameWireTarget]
    | node | groupValue => cases h

theorem StableModAddressBook.address_of_sameWire {book : StableModAddressBook}
    (hbook : fromComposition masterRack layerRacks composition = .ok book)
    {other : StableModTarget} {i : ℕ} (htgt : book.targets[i]? = some target)
    (hwire : target.sameWireTarget other) : book.address other = some i := by
  obtain ⟨hnd, hshort, rfl⟩ := fromComposition_ok.mp hbook
  have htgt : (topologyTargets masterRack layerRacks composition)[i]? = some target := htgt
  have hmem := mem_of_getElem? htgt
  have hlt : i < 2 ^ 16 := by
    obtain ⟨hi, -⟩ := List.getElem?_eq_some_iff.mp htgt
    omega
  simp only [address, ofTargets]
  by_cases hother : other ∈ topologyTargets masterRack layerRacks composition
  · obtain rfl := eq_of_sameWireTarget hnd hmem hother hwire
    rw [lookup_zipIdx_of_getElem? hnd htgt]
    rfl
  · rw [lookup_zipIdx_of_notMem hother, findIdx?_of_unique hnd htgt hwire]
    · exact checkedWord_eq_some.mpr ⟨hlt, rfl⟩
    · intro candidate hcand hsame
      exact eq_of_sameWireTarget hnd hcand hmem (sameWireTarget_of_common hsame hwire)

end

end CollideOScope.Modulation
