import CollideOScope.Composition.ScheduleExact
import CollideOScope.Composition.VisualGraphs

/-!
# What stands below a scope, under two namings

The validator walks a saved composition and keeps a list of what stands below
each scope; the planner keeps indices into a live one.  For a composition that
is well formed the list of the one is the prefix of the other, and a composition
with its layers renamed has the same prefixes under the new names.
-/

namespace CollideOScope.Composition

open Function Checks BelowTopology List RootItem VisualScopeId

variable {L L' L'' Body Body' Body'' : Type}

namespace Tree

variable (f : L → L') (b : Body → Body') (tree : Tree L Body)

theorem rename_rename (f' : L' → L'') (b' : Body' → Body'') :
    (tree.rename f b).rename f' b' = tree.rename (f' ∘ f) (b' ∘ b) := by
  unfold rename
  simp only [map_map, Tree.mk.injEq]
  constructor
  · apply map_congr_left
    intro group _
    simp [Group.rename]
  · apply map_congr_left
    intro item _
    cases item <;> rfl

@[simp]
theorem groupIds_rename : (tree.rename f b).groupIds = tree.groupIds := by
  simp [groupIds, rename, Group.rename, comp_def]

theorem group_rename (groupId : GroupId) :
    (tree.rename f b).group groupId = (tree.group groupId).map (Group.rename f b) := by
  unfold group rename
  rw [find?_map]
  rfl

@[simp]
theorem membersOf_rename (groupId : GroupId) :
    (tree.rename f b).membersOf groupId = (tree.membersOf groupId).map f := by
  unfold membersOf
  rw [group_rename]
  cases tree.group groupId <;> rfl

@[simp]
theorem rootedGroups_rename : (tree.rename f b).rootedGroups = tree.rootedGroups := by
  unfold rootedGroups rename
  rw [filterMap_map]
  congr 1
  funext item
  cases item <;> rfl

theorem itemLayers_rename (item : RootItem L) :
    (tree.rename f b).itemLayers (item.rename f) = (tree.itemLayers item).map f := by
  cases item with
  | layer layer bus => rfl
  | group groupId => exact membersOf_rename f b tree groupId

@[simp]
theorem flattenedLayers_rename :
    (tree.rename f b).flattenedLayers = tree.flattenedLayers.map f := by
  unfold flattenedLayers
  rw [map_flatMap]
  simp only [rename, flatMap_map]
  exact flatMap_congr fun item _ => itemLayers_rename f b tree item

variable {f tree}

theorem WellFormed.rename (hf : Function.Injective f) (h : WellFormed tree) :
    WellFormed (tree.rename f b) where
  groups_nodup := by
    rw [groupIds_rename]
    exact h.groups_nodup
  keys_nodup := by
    simp only [Tree.rename, map_map]
    refine pairwise_map.mpr ((pairwise_map.mp h.keys_nodup).imp ?_)
    intro first second hne heq
    apply hne
    cases first <;> cases second <;>
      simp_all [RootItem.rename, RootItem.key, hf.eq_iff]
  layers_nodup := by
    rw [flattenedLayers_rename]
    exact h.layers_nodup.map hf
  rooted := by
    intro groupId
    rw [rootedGroups_rename, groupIds_rename]
    exact h.rooted groupId

end Tree

def VisualScopeId.rename (f : StableLayerId → StableLayerId) : VisualScopeId → VisualScopeId
  | master => master
  | layer layerId => layer (f layerId)
  | group groupId => group groupId
  | program => program

namespace Tree

variable (f : StableLayerId → StableLayerId) (b : Body → Body') (tree : Tree StableLayerId Body)

theorem itemEntries_rename (entry : RootItem StableLayerId × ℕ) :
    (tree.rename f b).itemEntries (entry.1.rename f, entry.2) =
      (tree.itemEntries entry).map (Prod.map (VisualScopeId.rename f) id) := by
  obtain ⟨item, rootIndex⟩ := entry
  cases item with
  | layer layerId bus => rfl
  | group groupId =>
    simp [itemEntries, memberEntries, RootItem.rename, VisualScopeId.rename,
      zipIdx_map, comp_def]

theorem rootEntries_rename :
    (tree.rename f b).rootEntries =
      tree.rootEntries.map (Prod.map (VisualScopeId.rename f) id) := by
  unfold rootEntries
  rw [map_flatMap]
  simp only [rename, zipIdx_map, flatMap_map]
  exact flatMap_congr fun entry _ => itemEntries_rename f b tree entry

theorem outputs_rename :
    (tree.rename f b).root.map output =
      (tree.root.map RootItem.output).map (VisualScopeId.rename f) := by
  simp only [rename, map_map]
  apply map_congr_left
  intro item _
  cases item <;> rfl

theorem prefixScopes_rename (compositePrefix : CompositePrefix) :
    (tree.rename f b).prefixScopes compositePrefix =
      (tree.prefixScopes compositePrefix).map (VisualScopeId.rename f) := by
  cases compositePrefix with
  | root precedingRootOutputs => rw [prefixScopes, outputs_rename, ← map_take, prefixScopes]
  | groupMember groupId precedingRootOutputs precedingMembers =>
    simp only [prefixScopes, outputs_rename, membersOf_rename, ← map_take,
      map_append, map_map]
    rfl

end Tree

/-- `tree'` is `tree` with its layers renamed; what its groups carry besides
their members may differ. -/
structure Tree.Renames (f : StableLayerId → StableLayerId)
    (tree : Tree StableLayerId Body) (tree' : Tree StableLayerId Body') :
    Prop where
  wellFormed : tree.WellFormed
  wellFormed' : tree'.WellFormed
  same : tree'.rename id (fun _ => ()) = tree.rename f fun _ => ()

theorem VisualScopeId.rename_id : rename id = id := by
  funext scope
  cases scope <;> rfl

namespace Tree.Renames

variable {f : StableLayerId → StableLayerId} {tree : Tree StableLayerId Body}
  {tree' : Tree StableLayerId Body'} (h : Tree.Renames f tree tree') {scope : VisualScopeId}

include h

theorem rootEntries_eq :
    tree'.rootEntries = tree.rootEntries.map (Prod.map (VisualScopeId.rename f) id) := by
  have heq := congrArg Tree.rootEntries h.same
  rwa [rootEntries_rename, rootEntries_rename, rename_id, Prod.map_id, map_id] at heq

theorem rootWalk_eq : tree'.rootWalk = tree.rootWalk.map (VisualScopeId.rename f) := by
  rw [← rootEntries_map_fst, h.rootEntries_eq, ← rootEntries_map_fst, map_map, map_map]
  rfl

theorem prefixScopes_eq (compositePrefix : CompositePrefix) :
    tree'.prefixScopes compositePrefix =
      (tree.prefixScopes compositePrefix).map (VisualScopeId.rename f) := by
  have heq := congrArg (fun t => t.prefixScopes compositePrefix) h.same
  simp only [prefixScopes_rename, VisualScopeId.rename_id, map_id] at heq
  exact heq

theorem groupIds_eq : tree'.groupIds = tree.groupIds := by
  have heq := congrArg Tree.groupIds h.same
  simpa using heq

theorem root_length : tree'.root.length = tree.root.length := by
  have heq := congrArg (fun t => t.root.length) h.same
  simpa [Tree.rename] using heq

theorem membersOf_eq (groupId : GroupId) :
    tree'.membersOf groupId = (tree.membersOf groupId).map f := by
  have heq := congrArg (fun t => t.membersOf groupId) h.same
  simpa using heq

theorem location {location : BelowLocation} (hloc : tree.below.locations scope = some location) :
    tree'.below.locations (scope.rename f) = some location := by
  rw [h.wellFormed'.locations_iff, h.rootEntries_eq]
  rcases h.wellFormed.locations_iff.mp hloc with hmem | ⟨rfl, rfl⟩
  · exact .inl (mem_map.mpr ⟨_, hmem, rfl⟩)
  · exact .inr ⟨rfl, rfl⟩

theorem mem_knownScopes (hknown : scope ∈ tree.knownScopes) :
    scope.rename f ∈ tree'.knownScopes := by
  rw [Tree.mem_knownScopes, h.rootWalk_eq]
  rcases Tree.mem_knownScopes.mp hknown with hmem | rfl | rfl
  · exact .inl (mem_map_of_mem hmem)
  · exact .inr (.inl rfl)
  · exact .inr (.inr rfl)

end Tree.Renames

theorem validationTopology_rename (f : L → StableLayerId) (b : Body → Body') (tree : Tree L Body) :
    validationTopology (fun layer => .layer (f layer)) tree =
      validationTopology layer (tree.rename f b) := by
  have hitem : ∀ s item, validationItem (fun layer => .layer (f layer)) tree s
      item = validationItem layer (tree.rename f b) s (item.rename f) := by
    intro s item
    cases item with
    | layer layer bus => rfl
    | group groupId =>
      simp only [validationItem, RootItem.rename, Tree.group_rename]
      cases tree.group groupId with
      | none => rfl
      | some group =>
        simp only [Option.map_some, Group.rename, foldl_map]
        rfl
  unfold validationTopology
  have hfold : ∀ (items : List (RootItem L)) s,
      items.foldlM (validationItem (fun layer => .layer (f layer)) tree) s =
        (items.map (RootItem.rename f)).foldlM (validationItem layer (tree.rename f b)) s := by
    intro items
    induction items with
    | nil =>
      intro s
      rfl
    | cons item rest ih =>
      intro s
      rw [map_cons, foldlM_cons, foldlM_cons, hitem]
      exact bind_congr fun t => ih t
  rw [hfold]
  rfl

namespace Tree

variable (tree : Tree StableLayerId Body)

def locationPrefix : BelowLocation → CompositePrefix
  | .root rootIndex => .root rootIndex
  | .groupMember groupId rootIndex memberIndex => .groupMember groupId rootIndex memberIndex
  | .master => .root tree.root.length

theorem prefixFor_eq (scope : VisualScopeId) :
    tree.below.prefixFor scope = (tree.below.locations scope).map tree.locationPrefix := by
  unfold prefixFor
  cases tree.below.locations scope with
  | none => rfl
  | some location =>
    cases location with
    | root rootIndex | groupMember groupId rootIndex memberIndex => rfl
    | master => simp [locationPrefix, below]

def belowEntry (entry : VisualScopeId × BelowLocation) : VisualScopeId × List VisualScopeId :=
  (entry.1, tree.prefixScopes (tree.locationPrefix entry.2))

def itemOrdering : RootItem StableLayerId → List ImageOrderingEdge
  | .layer _ _ => []
  | .group groupId => (tree.membersOf groupId).map fun member => ⟨.layer member, .group groupId⟩

def belowTable : BelowTable := fun scope => (tree.below.prefixFor scope).map tree.prefixScopes

variable {tree}

theorem foldl_validationMember {members : List StableLayerId} (groupScope : VisualScopeId)
    (preceding : List VisualScopeId) (rest done : List StableLayerId)
    (hsplit : members = done ++ rest) (s : ValidationTopology) :
    (rest.foldl (validationMember layer groupScope)
      (s, preceding ++ done.map .layer)).1 = { s with
        scopes := s.scopes ++ rest.map .layer
        below := insertAll s.below ((rest.zipIdx done.length).map fun entry =>
          (.layer entry.1, preceding ++ (members.take entry.2).map .layer))
        orderingEdges := s.orderingEdges ++ rest.map fun member =>
          ⟨.layer member, groupScope⟩ } := by
  induction rest generalizing done s with
  | nil => simp [insertAll]
  | cons member rest ih =>
    have hsplit' : members = (done ++ [member]) ++ rest := by
      rw [hsplit, append_assoc, singleton_append]
    have htake : members.take done.length = done := by rw [hsplit, take_left]
    have hnext := ih (done ++ [member]) hsplit'
      (validationMember layer groupScope (s, preceding ++ done.map .layer) member).1
    rw [map_append, ← append_assoc] at hnext
    rw [foldl_cons]
    refine hnext.trans ?_
    simp [validationMember, insertAll, htake, -map_take]

open RootItem (output)

theorem foldlM_validationItem
    (hgrps : ∀ groupId, .group groupId ∈ tree.root → groupId ∈ tree.groupIds)
    (rest done : List (RootItem StableLayerId)) (hsplit : tree.root = done ++ rest)
    (s : ValidationTopology) (hs : s.precedingRootOutputs = done.map output) :
    rest.foldlM (validationItem layer tree) s = .ok {
      scopes := s.scopes ++ rest.flatMap tree.itemScopes
      below := insertAll s.below
        (((rest.zipIdx done.length).flatMap tree.itemEntries).map tree.belowEntry)
      orderingEdges := s.orderingEdges ++ rest.flatMap tree.itemOrdering
      precedingRootOutputs := s.precedingRootOutputs ++ rest.map output } := by
  induction rest generalizing done s with
  | nil => simp [insertAll, pure, Except.pure]
  | cons item rest ih =>
    have hsplit' : tree.root = (done ++ [item]) ++ rest := by
      rw [hsplit, append_assoc, singleton_append]
    have htake : (tree.root.map output).take done.length = s.precedingRootOutputs := by
      rw [hsplit, hs, map_append]
      exact take_left' (by simp)
    rw [foldlM_cons]
    cases item with
    | layer layerId bus =>
      simp only [validationItem, bind, Except.bind]
      rw [ih _ hsplit' _ (by simp [hs, output])]
      simp [insertAll, itemEntries, itemScopes, itemOrdering, belowEntry, locationPrefix,
        prefixScopes, output, ← map_take, ← htake]
    | group groupId =>
      have hmem : .group groupId ∈ tree.root := by
        rw [hsplit]
        exact mem_append_right _ mem_cons_self
      obtain ⟨group, hgrp⟩ := Option.isSome_iff_exists.mp
        (tree.group_isSome_iff.mpr (hgrps groupId hmem))
      have hmems : tree.membersOf groupId = group.members := by rw [membersOf, hgrp]
      have hinner := foldl_validationMember (.group groupId)
        s.precedingRootOutputs group.members [] rfl s
      rw [map_nil, append_nil] at hinner
      simp only [validationItem, hgrp, hinner, bind, Except.bind]
      rw [ih _ hsplit' _ (by simp [hs, output])]
      have hents : (tree.itemEntries (.group groupId, done.length)).map
          tree.belowEntry =
            (group.members.zipIdx.map fun entry => (VisualScopeId.layer entry.1,
              s.precedingRootOutputs ++ (group.members.take entry.2).map .layer)) ++
              [(.group groupId, s.precedingRootOutputs)] := by
        simp [itemEntries, memberEntries, hmems, belowEntry, locationPrefix, prefixScopes, htake]
      simp only [zipIdx_cons, flatMap_cons, map_append, hents, insertAll_append, itemScopes,
        itemOrdering, hmems, append_assoc, length_append, length_singleton, length_nil, map_cons,
        output, cons_append, nil_append]
      rfl

theorem WellFormed.validationTopology_eq (h : WellFormed tree) :
    validationTopology layer tree = .ok {
      scopes := tree.rootWalk ++ [.master]
      below := tree.belowTable
      orderingEdges := tree.root.flatMap tree.itemOrdering
      precedingRootOutputs := tree.root.map output } := by
  have hgrps : ∀ groupId, .group groupId ∈ tree.root → groupId ∈ tree.groupIds := by
    intro groupId hmem
    exact (h.rooted groupId).mp (mem_rootedGroups.mpr hmem)
  have hbelow : insertAll (insertAll (fun _ => none)
      (tree.rootEntries.map tree.belowEntry))
        [(.master, tree.root.map output)] = tree.belowTable := by
    have hmaster : tree.belowEntry (.master, .master) = (.master, tree.root.map output) := by
      simp [belowEntry, locationPrefix, prefixScopes]
    have hnd : (((tree.rootEntries ++
        [(master, BelowLocation.master)]).map tree.belowEntry).map Prod.fst).Nodup := by
      rw [map_map]
      have hfst : Prod.fst ∘ tree.belowEntry = Prod.fst := rfl
      rw [hfst, map_append, rootEntries_map_fst]
      refine Checks.nodup_concat h.rootWalk_nodup ?_
      intro hmem
      exact (scopes_of_mem_rootWalk hmem).1 rfl
    rw [← hmaster, ← map_singleton (f := tree.belowEntry), ← insertAll_append, ← map_append]
    ext scope scopes
    rw [insertAll_eq_some_iff hnd, belowTable, prefixFor_eq, Option.map_map, Option.map_eq_some_iff]
    constructor
    · intro hmem
      obtain ⟨entry, hent, heq⟩ := mem_map.mp hmem
      cases heq
      refine ⟨entry.2, h.locations_iff.mpr ?_, rfl⟩
      rcases mem_append.mp hent with hroot | hmaster
      · exact .inl hroot
      · obtain rfl := mem_singleton.mp hmaster
        exact .inr ⟨rfl, rfl⟩
    · rintro ⟨location, hloc, rfl⟩
      refine mem_map.mpr ⟨(scope, location), mem_append.mpr ?_, rfl⟩
      rcases h.locations_iff.mp hloc with hroot | ⟨rfl, rfl⟩
      · exact .inl hroot
      · exact .inr (mem_singleton_self _)
  unfold validationTopology
  rw [foldlM_validationItem hgrps tree.root [] rfl _ rfl]
  simp only [bind, Except.bind, pure, Except.pure, nil_append, length_nil]
  rw [← hbelow]
  rfl

theorem itemBefore_eq {α : Type} {items : List α} {count : ℕ} (h : count ≤ items.length) :
    BelowTopology.itemBefore items count = (items.take count).getLast? := by
  cases count with
  | zero => rfl
  | succ index =>
    rw [getLast?_eq_getElem?, length_take, Nat.min_eq_left h]
    simp [itemBefore]

def PrefixWithin (tree : Tree StableLayerId Body) : CompositePrefix → Prop
  | .root precedingRootOutputs => precedingRootOutputs ≤ tree.root.length
  | .groupMember groupId precedingRootOutputs precedingMembers =>
    precedingRootOutputs ≤ tree.root.length ∧ precedingMembers ≤ (tree.membersOf groupId).length

variable {compositePrefix : CompositePrefix} {scope : VisualScopeId}

theorem WellFormed.prefixWithin (h : WellFormed tree)
    (hleads : tree.below.prefixFor scope = some compositePrefix) :
    PrefixWithin tree compositePrefix := by
  rw [prefixFor_eq] at hleads
  obtain ⟨location, hloc, rfl⟩ := Option.map_eq_some_iff.mp hleads
  rcases h.locations_iff.mp hloc with hmem | ⟨-, rfl⟩
  · obtain ⟨⟨item, rootIndex⟩, hitem, hent⟩ := mem_flatMap.mp hmem
    have hroot : rootIndex ≤ tree.root.length := (snd_lt_of_mem_zipIdx hitem).le.trans (by simp)
    cases item with
    | layer layerId bus =>
      obtain ⟨-, rfl⟩ := Prod.mk.inj (mem_singleton.mp hent)
      exact hroot
    | group groupId =>
      rcases mem_append.mp hent with hmember | hout
      · obtain ⟨member, hin, heq⟩ := mem_map.mp hmember
        cases heq
        exact ⟨hroot, (snd_lt_of_mem_zipIdx hin).le.trans (by simp)⟩
      · obtain ⟨-, rfl⟩ := Prod.mk.inj (mem_singleton.mp hout)
        exact hroot
  · exact le_refl _

theorem lastInPrefix_eq (h : PrefixWithin tree compositePrefix) :
    tree.below.lastInPrefix compositePrefix = (tree.prefixScopes compositePrefix).getLast? := by
  have houts : ∀ {count}, count ≤ tree.root.length →
      itemBefore tree.below.rootOutputs count = ((tree.root.map output).take count).getLast? := by
    intro count hcnt
    exact itemBefore_eq (by simpa [below] using hcnt)
  cases compositePrefix with
  | root precedingRootOutputs => exact houts h
  | groupMember groupId precedingRootOutputs precedingMembers =>
    rw [prefixScopes, getLast?_append, lastInPrefix,
      houts h.1, below_members, itemBefore_eq h.2, getLast?_map]

theorem Renames.prefixFor_eq {f : StableLayerId → StableLayerId} {tree' : Tree StableLayerId Body'}
    (h : Renames f tree tree') (hleads : tree.below.prefixFor scope = some compositePrefix) :
    tree'.below.prefixFor (scope.rename f) = some compositePrefix := by
  rw [Tree.prefixFor_eq] at hleads ⊢
  obtain ⟨location, hloc, rfl⟩ := Option.map_eq_some_iff.mp hleads
  rw [h.location hloc]
  cases location with
  | root rootIndex | groupMember groupId rootIndex memberIndex => rfl
  | master => simp [locationPrefix, h.root_length]

theorem WellFormed.exists_prefixFor (h : WellFormed tree)
    (hmem : scope ∈ tree.rootWalk ∨ scope = .master) :
    ∃ compositePrefix, tree.below.prefixFor scope = some compositePrefix := by
  rw [prefixFor_eq]
  rcases hmem with hmem | rfl
  · rw [← rootEntries_map_fst] at hmem
    obtain ⟨entry, hent, rfl⟩ := mem_map.mp hmem
    rw [h.locations_iff.mpr (.inl hent)]
    exact ⟨_, rfl⟩
  · rw [h.locations_iff.mpr (.inr ⟨rfl, rfl⟩)]
    exact ⟨_, rfl⟩

theorem WellFormed.mem_ordering (h : WellFormed tree) {edge : ImageOrderingEdge} :
    edge ∈ tree.root.flatMap tree.itemOrdering ↔
      ∃ groupId, ∃ member ∈ tree.membersOf groupId, edge = ⟨.layer member, .group groupId⟩ := by
  rw [mem_flatMap]
  constructor
  · rintro ⟨item, -, hedge⟩
    cases item with
    | layer layerId bus => cases hedge
    | group groupId =>
      obtain ⟨member, hmem, rfl⟩ := mem_map.mp hedge
      exact ⟨groupId, member, hmem, rfl⟩
  · rintro ⟨groupId, member, hmem, rfl⟩
    exact ⟨_, h.rooted_of_member hmem, mem_map_of_mem hmem⟩

end Tree

end CollideOScope.Composition
