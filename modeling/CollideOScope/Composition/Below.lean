import CollideOScope.Composition.ImageGraph
import CollideOScope.Composition.Tree
import CollideOScope.Support.Maps

/-!
# What stands below a scope

The planner interprets "one below" and "all below" by where a scope stands in
the composition: at a root index, at a place in a group, or in front of
everything as the master.  A prefix is a number of root outputs, with a number
of members when its consumer is in a group.

For a tree that the validator accepts the tables list every scope of the
back-to-front walk once, and the rank of a scope is its place in that walk.
-/

namespace CollideOScope.Composition

open Function List

inductive CompositionPlanError
  | tooManyImageRoutes (count limit : ℕ)
  | imageGraph (error : ImageGraphError)
  | currentCycle (scopes : List VisualScopeId)
  | atomicGroupCycle (tasks : List VisualScopeId)
  | internal (text : String)

inductive BelowLocation
  | root (rootIndex : ℕ)
  | groupMember (groupId : GroupId) (rootIndex memberIndex : ℕ)
  | master

inductive CompositePrefix
  | root (precedingRootOutputs : ℕ)
  | groupMember (groupId : GroupId)
      (precedingRootOutputs precedingMembers : ℕ)
  deriving DecidableEq

/-- `usize::MAX` is the top: no index reaches it. -/
abbrev CompositeRank := WithTop ℕ ×ₗ WithTop ℕ

def BelowLocation.rank : BelowLocation → CompositeRank
  | root rootIndex => toLex (rootIndex, ⊤)
  | groupMember _ rootIndex memberIndex => toLex (rootIndex, memberIndex)
  | master => toLex (⊤, ⊤)

structure BelowTopology where
  rootOutputs : List VisualScopeId
  locations : VisualScopeId → Option BelowLocation
  groupMembers : GroupId → Option (List StableLayerId)

namespace BelowTopology

def compositeRank (below : BelowTopology) (scope : VisualScopeId) : CompositeRank :=
  match below.locations scope with
  | some location => location.rank
  | none => toLex (⊤, ⊤)

def prefixFor (below : BelowTopology) (consumer : VisualScopeId) : Option CompositePrefix :=
  match below.locations consumer with
  | none => none
  | some (.root rootIndex) => some (.root rootIndex)
  | some (.groupMember groupId rootIndex memberIndex) =>
    some (.groupMember groupId rootIndex memberIndex)
  | some .master => some (.root below.rootOutputs.length)

def members (below : BelowTopology) (groupId : GroupId) : List StableLayerId :=
  (below.groupMembers groupId).getD []

def prefixLen (below : BelowTopology) : CompositePrefix → ℕ
  | .root precedingRootOutputs => min precedingRootOutputs below.rootOutputs.length
  | .groupMember groupId precedingRootOutputs precedingMembers =>
    min precedingRootOutputs below.rootOutputs.length +
      min precedingMembers (below.members groupId).length

def prefixContains (below : BelowTopology) (producer : VisualScopeId) : CompositePrefix → Bool
  | .root precedingRootOutputs => producer ∈ below.rootOutputs.take precedingRootOutputs
  | .groupMember groupId precedingRootOutputs precedingMembers =>
    producer ∈ below.rootOutputs.take precedingRootOutputs ||
      match producer with
      | .layer id => id ∈ (below.members groupId).take precedingMembers
      | _ => false

def itemBefore {α : Type} (items : List α) (count : ℕ) : Option α :=
  match count with
  | 0 => none
  | index + 1 => items[index]?

def lastInPrefix (below : BelowTopology) : CompositePrefix → Option VisualScopeId
  | .root precedingRootOutputs => itemBefore below.rootOutputs precedingRootOutputs
  | .groupMember groupId precedingRootOutputs precedingMembers =>
    ((itemBefore (below.members groupId) precedingMembers).map VisualScopeId.layer).or
      (itemBefore below.rootOutputs precedingRootOutputs)

def oneBelow (below : BelowTopology) (consumer : VisualScopeId) :
    Option VisualScopeId := do
  below.lastInPrefix (← below.prefixFor consumer)

def empty : BelowTopology := ⟨[], fun _ => none, fun _ => none⟩

end BelowTopology

variable {Body : Type}

def RootItem.output : RootItem StableLayerId → VisualScopeId
  | layer layerId _ => .layer layerId
  | group groupId => .group groupId

def memberEntries (groupId : GroupId) (rootIndex : ℕ)
    (members : List StableLayerId) : List (VisualScopeId × BelowLocation) :=
  members.zipIdx.map fun entry => (.layer entry.1, .groupMember groupId rootIndex entry.2)

def belowItem (tree : Tree StableLayerId Body) (below : BelowTopology)
    (entry : RootItem StableLayerId × ℕ) :
    Except CompositionPlanError BelowTopology :=
  match entry.1 with
  | .layer layerId _ =>
    .ok { below with
      rootOutputs := below.rootOutputs ++ [.layer layerId]
      locations := insertAll below.locations [(.layer layerId, .root entry.2)] }
  | .group groupId =>
    match tree.group groupId with
    | none => .error (.internal "validated root lost its runtime group")
    | some group =>
      .ok {
        rootOutputs := below.rootOutputs ++ [.group groupId]
        locations := insertAll below.locations
          (memberEntries groupId entry.2 group.members ++ [(.group groupId, .root entry.2)])
        groupMembers := insertAll below.groupMembers [(groupId, group.members)] }

def belowTopology (tree : Tree StableLayerId Body) :
    Except CompositionPlanError BelowTopology := do
  let below ← tree.root.zipIdx.foldlM (belowItem tree) .empty
  return { below with locations := insertAll below.locations [(.master, .master)] }

namespace Tree

variable (tree : Tree StableLayerId Body)

/-- The scopes of a root item: the members of a group stand behind it. -/
def itemScopes : RootItem StableLayerId → List VisualScopeId
  | .layer layerId _ => [.layer layerId]
  | .group groupId => (tree.membersOf groupId).map .layer ++ [.group groupId]

def rootWalk : List VisualScopeId := tree.root.flatMap tree.itemScopes

def itemEntries (entry : RootItem StableLayerId × ℕ) : List (VisualScopeId × BelowLocation) :=
  match entry.1 with
  | .layer layerId _ => [(.layer layerId, .root entry.2)]
  | .group groupId =>
    memberEntries groupId entry.2 (tree.membersOf groupId) ++ [(.group groupId, .root entry.2)]

def rootEntries : List (VisualScopeId × BelowLocation) := tree.root.zipIdx.flatMap tree.itemEntries

variable {tree}

theorem itemEntries_map_fst (entry : RootItem StableLayerId × ℕ) :
    (tree.itemEntries entry).map Prod.fst = tree.itemScopes entry.1 := by
  obtain ⟨item, rootIndex⟩ := entry
  cases item with
  | layer layerId bus => rfl
  | group groupId =>
    simp only [itemEntries, itemScopes, memberEntries, map_append, map_map, map_cons, map_nil]
    congr 1
    rw [← zipIdx_map_fst 0 (tree.membersOf groupId), map_map]
    simp

theorem rootEntries_map_fst : tree.rootEntries.map Prod.fst = tree.rootWalk := by
  unfold rootEntries rootWalk
  rw [map_flatMap]
  simp only [itemEntries_map_fst]
  conv_rhs => rw [← zipIdx_map_fst 0 tree.root, flatMap_map]

theorem flatMap_itemScopes_perm (items : List (RootItem StableLayerId)) :
    (items.flatMap tree.itemScopes).Perm
      ((items.flatMap tree.itemLayers).map VisualScopeId.layer ++
        (items.filterMap RootItem.groupId).map VisualScopeId.group) := by
  induction items with
  | nil => exact List.Perm.refl _
  | cons item rest ih =>
    rw [flatMap_cons, flatMap_cons, map_append, append_assoc]
    cases item with
    | layer layerId bus => exact List.Perm.append_left [.layer layerId] ih
    | group groupId =>
      rw [itemScopes, itemLayers, append_assoc]
      have hgrps : (RootItem.group groupId :: rest).filterMap
          RootItem.groupId = groupId :: rest.filterMap RootItem.groupId :=
        rfl
      rw [hgrps, map_cons]
      refine List.Perm.append_left _ ?_
      exact (List.Perm.cons (VisualScopeId.group groupId) ih).trans perm_middle.symm

theorem WellFormed.rootWalk_nodup (h : WellFormed tree) : tree.rootWalk.Nodup := by
  refine (flatMap_itemScopes_perm tree.root).nodup_iff.mpr ?_
  have hlayer : Function.Injective VisualScopeId.layer := by
    intro a b hab
    exact VisualScopeId.layer.inj hab
  have hgrp : Function.Injective VisualScopeId.group := by
    intro a b hab
    exact VisualScopeId.group.inj hab
  refine nodup_append.mpr ⟨h.layers_nodup.map hlayer, h.rootedGroups_nodup.map hgrp, ?_⟩
  intro a ha b hb hab
  obtain ⟨x, -, rfl⟩ := mem_map.mp ha
  obtain ⟨y, -, rfl⟩ := mem_map.mp hb
  cases hab

variable {layerId : StableLayerId}

theorem WellFormed.mem_rootWalk_layer :
    .layer layerId ∈ tree.rootWalk ↔ layerId ∈ tree.flattenedLayers := by
  rw [rootWalk, (flatMap_itemScopes_perm tree.root).mem_iff]
  simp [flattenedLayers]

variable {groupId : GroupId}

theorem WellFormed.mem_rootWalk_group :
    .group groupId ∈ tree.rootWalk ↔ groupId ∈ tree.rootedGroups := by
  rw [rootWalk, (flatMap_itemScopes_perm tree.root).mem_iff]
  simp [rootedGroups]

variable (tree) in
/-- The tables of a tree that the validator accepts. -/
def below : BelowTopology where
  rootOutputs := tree.root.map RootItem.output
  locations := insertAll (fun _ => none) (tree.rootEntries ++ [(.master, .master)])
  groupMembers := fun groupId => (tree.group groupId).map Group.members

open RootItem (output)

theorem foldlM_belowItem (entries : List (RootItem StableLayerId × ℕ))
    (h : ∀ entry ∈ entries, ∀ groupId, entry.1 = .group groupId →
      groupId ∈ tree.groupIds) (s : BelowTopology) :
    entries.foldlM (belowItem tree) s = .ok {
      rootOutputs := s.rootOutputs ++ entries.map fun entry => entry.1.output
      locations := insertAll s.locations (entries.flatMap tree.itemEntries)
      groupMembers := insertAll s.groupMembers
        ((entries.filterMap fun entry => entry.1.groupId).map fun groupId =>
          (groupId, tree.membersOf groupId)) } := by
  induction entries generalizing s with
  | nil => simp [insertAll, pure, Except.pure]
  | cons entry rest ih =>
    obtain ⟨hent, hrest⟩ := forall_mem_cons.mp h
    obtain ⟨item, rootIndex⟩ := entry
    rw [foldlM_cons]
    cases item with
    | layer layerId bus =>
      simp only [belowItem, bind, Except.bind]
      rw [ih hrest]
      simp [insertAll, itemEntries, output, RootItem.groupId]
    | group groupId =>
      have hsome := (tree.group_isSome_iff).mpr (hent groupId rfl)
      obtain ⟨group, hgrp⟩ := Option.isSome_iff_exists.mp hsome
      have hmems : tree.membersOf groupId = group.members := by rw [membersOf, hgrp]
      simp only [belowItem, hgrp, bind, Except.bind]
      rw [ih hrest]
      simp [insertAll, itemEntries, output, RootItem.groupId, hmems]

theorem WellFormed.insertAll_members (h : WellFormed tree) :
    insertAll (fun _ => none) (tree.rootedGroups.map fun groupId =>
      (groupId, tree.membersOf groupId)) = tree.below.groupMembers := by
  have hnd : ((tree.rootedGroups.map fun groupId =>
      (groupId, tree.membersOf groupId)).map Prod.fst).Nodup := by
    rw [map_map]
    exact h.rootedGroups_nodup.map injective_id
  ext groupId members
  rw [insertAll_eq_some_iff hnd]
  simp only [mem_map, below, Option.map_eq_some_iff]
  constructor
  · rintro ⟨groupId', hmem, heq⟩
    cases heq
    obtain ⟨group, hgrp⟩ := Option.isSome_iff_exists.mp
      (tree.group_isSome_iff.mpr ((h.rooted _).mp hmem))
    refine ⟨group, hgrp, ?_⟩
    rw [membersOf, hgrp]
  · rintro ⟨group, hgrp, rfl⟩
    refine ⟨groupId, (h.rooted groupId).mpr ?_, ?_⟩
    · rw [← tree.group_isSome_iff, hgrp]
      rfl
    · rw [membersOf, hgrp]

open BelowTopology

theorem WellFormed.belowTopology_eq (h : WellFormed tree) :
    belowTopology tree = .ok tree.below := by
  have hknown : ∀ entry ∈ tree.root.zipIdx, ∀ groupId,
      entry.1 = .group groupId → groupId ∈ tree.groupIds := by
    intro entry hent groupId hitem
    apply (h.rooted groupId).mp
    apply mem_rootedGroups.mpr
    rw [← hitem]
    exact fst_mem_of_mem_zipIdx hent
  have houts : (tree.root.zipIdx.map fun entry => entry.1.output) = tree.root.map output := by
    conv_rhs => rw [← zipIdx_map_fst 0 tree.root, map_map]
    rfl
  have hgrps : (tree.root.zipIdx.filterMap fun entry => entry.1.groupId) = tree.rootedGroups := by
    unfold rootedGroups
    conv_rhs => rw [← zipIdx_map_fst 0 tree.root, filterMap_map]
    rfl
  unfold belowTopology
  rw [foldlM_belowItem _ hknown, houts, hgrps]
  simp only [bind, Except.bind, pure, Except.pure, empty,
    nil_append, h.insertAll_members, ← insertAll_append]
  rfl

variable {scope : VisualScopeId}

theorem scopes_of_mem_rootWalk (h : scope ∈ tree.rootWalk) :
    scope ≠ .master ∧ scope ≠ .program := by
  rw [rootWalk, (flatMap_itemScopes_perm tree.root).mem_iff, mem_append] at h
  rcases h with h | h
  · obtain ⟨layerId, -, rfl⟩ := mem_map.mp h
    exact ⟨by simp, by simp⟩
  · obtain ⟨groupId, -, rfl⟩ := mem_map.mp h
    exact ⟨by simp, by simp⟩

variable {location : BelowLocation}

theorem WellFormed.locations_iff (h : WellFormed tree) :
    tree.below.locations scope = some location ↔
      (scope, location) ∈ tree.rootEntries ∨ scope = .master ∧ location = .master := by
  have hnd : ((tree.rootEntries ++
      [(VisualScopeId.master, BelowLocation.master)]).map Prod.fst).Nodup := by
    rw [map_append, rootEntries_map_fst]
    refine Checks.nodup_concat h.rootWalk_nodup ?_
    intro hmem
    exact (scopes_of_mem_rootWalk hmem).1 rfl
  rw [below, insertAll_eq_some_iff hnd]
  simp

theorem WellFormed.rank_of_mem (h : WellFormed tree) (hmem : (scope, location) ∈ tree.rootEntries) :
    tree.below.compositeRank scope = location.rank := by
  rw [compositeRank, h.locations_iff.mpr (.inl hmem)]

theorem WellFormed.rank_master (h : WellFormed tree) :
    tree.below.compositeRank .master = toLex (⊤, ⊤) := by
  rw [compositeRank, h.locations_iff.mpr (.inr ⟨rfl, rfl⟩)]
  rfl

theorem WellFormed.rank_program (h : WellFormed tree) :
    tree.below.compositeRank .program = toLex (⊤, ⊤) := by
  have hnone : tree.below.locations .program = none := by
    rw [Option.eq_none_iff_forall_ne_some]
    intro location hloc
    rcases h.locations_iff.mp hloc with hmem | ⟨hmaster, -⟩
    · have hwalk := mem_map_of_mem (f := Prod.fst) hmem
      rw [rootEntries_map_fst] at hwalk
      exact (scopes_of_mem_rootWalk hwalk).2 rfl
    · cases hmaster
  rw [compositeRank, hnone]

theorem rank_of_mem_itemEntries {entry : RootItem StableLayerId × ℕ}
    {found : VisualScopeId × BelowLocation} (h : found ∈ tree.itemEntries entry) :
    ∃ member : WithTop ℕ, found.2.rank = toLex (↑entry.2, member) := by
  obtain ⟨item, rootIndex⟩ := entry
  cases item with
  | layer layerId bus =>
    obtain rfl := mem_singleton.mp h
    exact ⟨⊤, rfl⟩
  | group groupId =>
    rcases mem_append.mp h with h | h
    · obtain ⟨member, -, rfl⟩ := mem_map.mp h
      exact ⟨member.2, rfl⟩
    · obtain rfl := mem_singleton.mp h
      exact ⟨⊤, rfl⟩

theorem pairwise_zipIdx {α : Type} (items : List α) :
    items.zipIdx.Pairwise fun first second => first.2 < second.2 := by
  refine pairwise_map.mp ?_
  rw [zipIdx_map_snd]
  exact pairwise_lt_range'

theorem itemEntries_pairwise (entry : RootItem StableLayerId × ℕ) :
    (tree.itemEntries entry).Pairwise
      fun first second => first.2.rank < second.2.rank := by
  obtain ⟨item, rootIndex⟩ := entry
  cases item with
  | layer layerId bus => exact pairwise_singleton _ _
  | group groupId =>
    refine pairwise_append.mpr ⟨?_, pairwise_singleton _ _, ?_⟩
    · refine pairwise_map.mpr ?_
      refine (pairwise_zipIdx _).imp ?_
      intro first second hlt
      exact Prod.Lex.toLex_lt_toLex.mpr (.inr ⟨rfl, WithTop.coe_lt_coe.mpr hlt⟩)
    · intro first hfst second hsnd
      obtain ⟨member, -, rfl⟩ := mem_map.mp hfst
      obtain rfl := mem_singleton.mp hsnd
      exact Prod.Lex.toLex_lt_toLex.mpr (.inr ⟨rfl, WithTop.coe_lt_top _⟩)

theorem rootEntries_pairwise :
    tree.rootEntries.Pairwise
      fun first second => first.2.rank < second.2.rank := by
  refine pairwise_flatMap.mpr ⟨?_, ?_⟩
  · intro entry _
    exact itemEntries_pairwise entry
  · refine (pairwise_zipIdx _).imp ?_
    intro first second hlt x hx y hy
    obtain ⟨a, ha⟩ := rank_of_mem_itemEntries hx
    obtain ⟨b, hb⟩ := rank_of_mem_itemEntries hy
    rw [ha, hb]
    exact Prod.Lex.toLex_lt_toLex.mpr (.inl (WithTop.coe_lt_coe.mpr hlt))

theorem WellFormed.rootWalk_pairwise (h : WellFormed tree) :
    tree.rootWalk.Pairwise fun first second =>
      tree.below.compositeRank first < tree.below.compositeRank second := by
  rw [← rootEntries_map_fst]
  refine pairwise_map.mpr ?_
  refine rootEntries_pairwise.imp_of_mem ?_
  intro first second hfst hsnd hlt
  rw [h.rank_of_mem hfst, h.rank_of_mem hsnd]
  exact hlt

theorem WellFormed.rank_lt_top (h : WellFormed tree) (hmem : scope ∈ tree.rootWalk) :
    tree.below.compositeRank scope < toLex (⊤, ⊤) := by
  rw [← rootEntries_map_fst] at hmem
  obtain ⟨entry, hent, rfl⟩ := mem_map.mp hmem
  rw [h.rank_of_mem hent]
  obtain ⟨item, -, hitem⟩ := mem_flatMap.mp hent
  obtain ⟨member, hrank⟩ := rank_of_mem_itemEntries hitem
  rw [hrank]
  exact Prod.Lex.toLex_lt_toLex.mpr (.inl (WithTop.coe_lt_top _))

variable (tree) in
def knownScopes : Finset VisualScopeId :=
  (VisualScopeId.master :: tree.flattenedLayers.map VisualScopeId.layer ++
    tree.rootedGroups.map VisualScopeId.group ++
    [VisualScopeId.program]).toFinset

theorem mem_knownScopes :
    scope ∈ tree.knownScopes ↔ scope ∈ tree.rootWalk ∨ scope = .master ∨ scope = .program := by
  rw [rootWalk, (flatMap_itemScopes_perm tree.root).mem_iff]
  simp only [knownScopes, flattenedLayers, rootedGroups, mem_toFinset,
    mem_append, mem_cons, not_mem_nil, or_false]
  tauto

variable (tree) in
def prefixScopes : CompositePrefix → List VisualScopeId
  | .root precedingRootOutputs => (tree.root.map RootItem.output).take precedingRootOutputs
  | .groupMember groupId precedingRootOutputs precedingMembers =>
    (tree.root.map RootItem.output).take precedingRootOutputs ++
      ((tree.membersOf groupId).take precedingMembers).map .layer

theorem below_members (groupId : GroupId) :
    tree.below.members groupId = tree.membersOf groupId := by
  unfold members membersOf
  cases h : tree.group groupId <;> simp [below, h]

variable {compositePrefix : CompositePrefix}

theorem prefixContains_iff :
    tree.below.prefixContains scope compositePrefix ↔
      scope ∈ tree.prefixScopes compositePrefix := by
  cases compositePrefix with
  | root precedingRootOutputs =>
    simp only [prefixContains, decide_eq_true_eq]
    rfl
  | groupMember groupId precedingRootOutputs precedingMembers =>
    rw [prefixScopes, mem_append, ← below_members]
    simp only [prefixContains, Bool.or_eq_true, decide_eq_true_eq]
    refine or_congr Iff.rfl ?_
    cases scope <;> simp [-map_take]

theorem prefixLen_eq (compositePrefix : CompositePrefix) :
    tree.below.prefixLen compositePrefix = (tree.prefixScopes compositePrefix).length := by
  cases compositePrefix with
  | root precedingRootOutputs => simp [prefixLen, prefixScopes, below]
  | groupMember groupId precedingRootOutputs precedingMembers =>
    rw [prefixLen, below_members]
    simp [prefixScopes, below]

theorem output_mem_itemScopes (item : RootItem StableLayerId) :
    item.output ∈ tree.itemScopes item := by
  cases item with
  | layer layerId bus => exact mem_singleton_self _
  | group groupId => exact mem_append_right _ (mem_singleton_self _)

theorem output_mem_rootWalk {item : RootItem StableLayerId}
    (h : item ∈ tree.root) : item.output ∈ tree.rootWalk :=
  mem_flatMap.mpr ⟨item, h, output_mem_itemScopes item⟩

variable (h : WellFormed tree)
include h

theorem WellFormed.item_unique {first second : RootItem StableLayerId} (hfst : first ∈ tree.root)
    (hsnd : second ∈ tree.root) (hscope : scope ∈ tree.itemScopes first)
    (hscope' : scope ∈ tree.itemScopes second) : first = second := by
  by_contra hne
  have hdisj := (nodup_flatMap.mp h.rootWalk_nodup).2
  have : Std.Symm (onFun List.Disjoint tree.itemScopes) := ⟨fun _ _ hab => hab.symm⟩
  exact hdisj.forall hfst hsnd hne hscope hscope'

theorem WellFormed.outputs_nodup : (tree.root.map RootItem.output).Nodup := by
  refine pairwise_map.mpr ?_
  refine (nodup_flatMap.mp h.rootWalk_nodup).2.imp ?_
  intro first second hdisj heq
  refine hdisj (output_mem_itemScopes first) ?_
  rw [heq]
  exact output_mem_itemScopes second

theorem WellFormed.rooted_of_member (hmem : layerId ∈ tree.membersOf groupId) :
    .group groupId ∈ tree.root := by
  refine mem_rootedGroups.mp ((h.rooted groupId).mpr ?_)
  rw [← tree.group_isSome_iff]
  cases hgrp : tree.group groupId with
  | none =>
    rw [membersOf, hgrp] at hmem
    cases hmem
  | some group => rfl

theorem WellFormed.member_mem_rootWalk (hmem : layerId ∈ tree.membersOf groupId) :
    .layer layerId ∈ tree.rootWalk := by
  refine mem_flatMap.mpr ⟨_, h.rooted_of_member hmem, ?_⟩
  exact mem_append_left _ (mem_map_of_mem hmem)

theorem WellFormed.members_nodup (groupId : GroupId) : (tree.membersOf groupId).Nodup := by
  by_cases hemp : tree.membersOf groupId = []
  · rw [hemp]
    exact nodup_nil
  · obtain ⟨layerId, hmem⟩ := exists_mem_of_ne_nil _ hemp
    exact (nodup_flatMap.mp h.layers_nodup).1 _ (h.rooted_of_member hmem)

theorem WellFormed.member_not_output (hmember : layerId ∈ tree.membersOf groupId) :
    .layer layerId ∉ tree.root.map RootItem.output := by
  intro hmem
  obtain ⟨item, hitem, hout⟩ := mem_map.mp hmem
  have hscope : VisualScopeId.layer layerId ∈ tree.itemScopes (.group groupId) :=
    mem_append_left _ (mem_map_of_mem hmember)
  have hscope' : VisualScopeId.layer layerId ∈ tree.itemScopes item := by
    rw [← hout]
    exact output_mem_itemScopes item
  obtain rfl := h.item_unique hitem (h.rooted_of_member hmember) hscope' hscope
  cases hout

theorem WellFormed.prefixScopes_subset (hmem : scope ∈ tree.prefixScopes compositePrefix) :
    scope ∈ tree.rootWalk := by
  have hroot : ∀ {count : ℕ},
      scope ∈ (tree.root.map output).take count → scope ∈ tree.rootWalk := by
    intro count hin
    obtain ⟨item, hitem, rfl⟩ := mem_map.mp (mem_of_mem_take hin)
    exact output_mem_rootWalk hitem
  cases compositePrefix with
  | root precedingRootOutputs => exact hroot hmem
  | groupMember groupId precedingRootOutputs precedingMembers =>
    rcases mem_append.mp hmem with hin | hin
    · exact hroot hin
    · obtain ⟨layerId, hlayer, rfl⟩ := mem_map.mp hin
      exact h.member_mem_rootWalk (mem_of_mem_take hlayer)

theorem WellFormed.prefixScopes_nodup (compositePrefix : CompositePrefix) :
    (tree.prefixScopes compositePrefix).Nodup := by
  have hroot : ∀ count, ((tree.root.map output).take count).Nodup :=
    fun count => h.outputs_nodup.sublist (take_sublist _ _)
  cases compositePrefix with
  | root precedingRootOutputs => exact hroot precedingRootOutputs
  | groupMember groupId precedingRootOutputs precedingMembers =>
    refine nodup_append.mpr ⟨hroot precedingRootOutputs, ?_, ?_⟩
    · refine List.Nodup.map (fun _ _ hab => VisualScopeId.layer.inj hab) ?_
      exact (h.members_nodup groupId).sublist (take_sublist _ _)
    · intro output hout scope hscope heq
      obtain ⟨layerId, hmem, rfl⟩ := mem_map.mp hscope
      refine h.member_not_output (mem_of_mem_take hmem) ?_
      rw [← heq]
      exact mem_of_mem_take hout

theorem WellFormed.card_prefix (compositePrefix : CompositePrefix) :
    (tree.knownScopes.filter fun scope =>
      tree.below.prefixContains scope compositePrefix).card =
      tree.below.prefixLen compositePrefix := by
  rw [prefixLen_eq, ← toFinset_card_of_nodup (h.prefixScopes_nodup compositePrefix)]
  congr 1
  ext scope
  rw [Finset.mem_filter, prefixContains_iff, mem_toFinset]
  constructor
  · exact And.right
  · intro hmem
    exact ⟨mem_knownScopes.mpr (.inl (h.prefixScopes_subset hmem)), hmem⟩

end Tree

end CollideOScope.Composition
