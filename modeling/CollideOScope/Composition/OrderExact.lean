import CollideOScope.Composition.OrderTables

/-!
# What the two sorts order by

The scopes of a frame are related by routes, by groups and their members, by the
outputs of the root and the master, and by prefixes.  The first sort orders by
this relation, and the second by the same relation with every group merged with
its members.  Their results together keep each group in one piece.
-/

namespace CollideOScope.Composition

open Relation List

variable {Body : Type} {tree : Tree StableLayerId Body}

/-- `p` must be executed before `x`. -/
inductive MustPrecede (tree : Tree StableLayerId Body) (below : BelowTopology)
    (routes : Finset RouteEdge) (prefixes : PrefixConstraints) :
    VisualScopeId → VisualScopeId → Prop
  | route {p x} (h : toLex (p, x) ∈ routes) : MustPrecede tree below routes
      prefixes p x
  | member {group member} (hgroup : group ∈ tree.groups)
      (hmember : member ∈ group.members) : MustPrecede tree below routes
      prefixes (.layer member) (.group group.id)
  | output {p} (h : p ∈ below.rootOutputs) : MustPrecede tree below routes
      prefixes p .master
  | program : MustPrecede tree below routes prefixes .master .program
  | below {p x} (hconsumer : x ∈ prefixes.consumers)
      (hleads : below.prefixContains p (prefixes.prefixOf x)) :
      MustPrecede tree below routes prefixes p x

def Merged (tree : Tree StableLayerId Body)
    (R : VisualScopeId → VisualScopeId → Prop) (t u : VisualScopeId) : Prop :=
  t ≠ u ∧ ∃ p x, R p x ∧ taskFor tree p = t ∧ taskFor tree x = u

section

variable {routes : Finset RouteEdge} {prefixes : PrefixConstraints}

variable {p x : VisualScopeId}

theorem scopeEdge_iff {below : BelowTopology} :
    ScopeEdge below (explicitEdges tree below routes) prefixes p x ↔
      MustPrecede tree below routes prefixes p x := by
  unfold ScopeEdge explicitEdges memberEdges outputEdges
  simp only [Finset.mem_insert, Finset.mem_union, mem_toFinset,
    mem_flatMap, mem_map, toLex_inj, Prod.mk.injEq, implies_eq_true]
  constructor
  · rintro ((⟨rfl, rfl⟩ | ((hroute | ⟨group, hgrp, member, hmem, rfl, rfl⟩)
      | ⟨output, hout, rfl, rfl⟩)) | ⟨hx, hcont⟩)
    · exact .program
    · exact .route hroute
    · exact .member hgrp hmem
    · exact .output hout
    · exact .below hx hcont
  · intro h
    cases h with
    | route h => exact .inl (.inr (.inl (.inl h)))
    | member hgrp hmem => exact .inl (.inr (.inl (Or.inr ⟨_, hgrp, _, hmem, rfl, rfl⟩)))
    | output h => exact .inl (.inr (.inr ⟨_, h, rfl, rfl⟩))
    | program => exact .inl (.inl ⟨rfl, rfl⟩)
    | below hcons hleads => exact .inr ⟨hcons, hleads⟩

theorem Tree.WellFormed.within_explicitEdges (h : Tree.WellFormed tree)
    (hroutes : Within tree.knownScopes routes) :
    Within tree.knownScopes (explicitEdges tree tree.below routes) := by
  intro edge hedge
  have hedge' : ScopeEdge tree.below (explicitEdges tree tree.below routes)
      .empty (ofLex edge).1 (ofLex edge).2 := .inl hedge
  generalize (ofLex edge).1 = p at hedge' ⊢
  generalize (ofLex edge).2 = x at hedge' ⊢
  simp only [Tree.mem_knownScopes]
  cases scopeEdge_iff.mp hedge' with
  | route hroute =>
    exact ⟨Tree.mem_knownScopes.mp (hroutes _ hroute).1,
      Tree.mem_knownScopes.mp (hroutes _ hroute).2⟩
  | member hgrp hmem =>
    rw [← h.membersOf_eq hgrp] at hmem
    exact ⟨.inl (h.member_mem_rootWalk hmem),
      .inl (Tree.output_mem_rootWalk (h.rooted_of_member hmem))⟩
  | output hout =>
    obtain ⟨item, hitem, rfl⟩ := mem_map.mp hout
    exact ⟨.inl (Tree.output_mem_rootWalk hitem), .inr (.inl rfl)⟩
  | program => exact ⟨.inr (.inl rfl), .inr (.inr rfl)⟩
  | below hcons => cases hcons

variable (hroutes : Within tree.knownScopes routes)
  (hprefixes : prefixes.consumers ⊆ tree.knownScopes)

include hroutes hprefixes

theorem Tree.WellFormed.known_of_mustPrecede (h : Tree.WellFormed tree)
    (hedge : MustPrecede tree tree.below routes prefixes p x) :
    p ∈ tree.knownScopes ∧ x ∈ tree.knownScopes :=
  h.known_of_scopeEdge (h.within_explicitEdges hroutes) hprefixes (scopeEdge_iff.mpr hedge)

theorem Tree.WellFormed.scopeGraph_edge (h : Tree.WellFormed tree) :
    Kahn.Edge tree.knownScopes (scopeGraph tree.knownScopes tree.below
        (explicitEdges tree tree.below routes) prefixes) =
      MustPrecede tree tree.below routes prefixes := by
  ext p x
  rw [Kahn.Edge, mem_scopeGraph, ← scopeEdge_iff]
  constructor
  · exact fun hedge => hedge.2.2
  · intro hedge
    have hknown := h.known_of_mustPrecede hroutes hprefixes (scopeEdge_iff.mp hedge)
    exact ⟨hknown.1, hknown.2, hedge⟩

theorem Tree.WellFormed.taskGraph_edge (h : Tree.WellFormed tree) :
    Kahn.Edge (tree.knownScopes.image (taskFor tree))
        (taskGraph tree (explicitEdges tree tree.below routes) prefixes) =
      Merged tree (MustPrecede tree tree.below routes prefixes) := by
  ext t u
  simp only [Kahn.Edge, taskGraph, Finset.mem_filter, h.mem_taskEdges,
    TaskEdge, scopeEdge_iff, Merged]
  constructor
  · exact fun hedge => hedge.2.2
  · rintro ⟨hne, p, x, hedge, rfl, rfl⟩
    have hknown := h.known_of_mustPrecede hroutes hprefixes hedge
    exact ⟨Finset.mem_image_of_mem _ hknown.1,
      Finset.mem_image_of_mem _ hknown.2, hne, p, x, hedge, rfl, rfl⟩

end

section

variable {routes : Finset RouteEdge} {prefixes : PrefixConstraints}

variable {task : VisualScopeId}

theorem taskScopes_of_ne (hgrp : ∀ groupId, task ≠ .group groupId)
    (order : List VisualScopeId) : taskScopes tree order task = [task] := by
  cases task with
  | master | layer layerId | program => rfl
  | group groupId => exact absurd rfl (hgrp groupId)

variable {order : List VisualScopeId}

theorem Tree.WellFormed.taskScopes_eq (h : Tree.WellFormed tree)
    {R : VisualScopeId → VisualScopeId → Prop} (hord : OrdersBy tree.knownScopes R order)
    (htask : task ∈ tree.knownScopes.image (taskFor tree)) :
    taskScopes tree order task = order.filter fun scope => taskFor tree scope = task := by
  by_cases hgrp : ∃ groupId, task = .group groupId
  · obtain ⟨groupId, rfl⟩ := hgrp
    rfl
  · obtain ⟨scope, hscope, rfl⟩ := Finset.mem_image.mp htask
    have hself : ∀ other, (∀ groupId, taskFor tree other ≠ .group groupId) →
        taskFor tree other = other := by
      intro other hother
      rcases h.taskFor_cases other with heq | ⟨-, groupId, -, -, heq⟩
      · exact heq
      · exact absurd heq (hother groupId)
    push Not at hgrp
    have hscope' := hself scope hgrp
    rw [hscope'] at hgrp ⊢
    rw [taskScopes_of_ne hgrp, filter_eq_singleton hord.nodup ((hord.mem_iff scope).mpr hscope)]
    intro other _
    rw [decide_eq_true_eq]
    constructor
    · intro hother
      exact (hself other (hother ▸ hgrp)).symm.trans hother
    · rintro rfl
      exact hscope'

theorem Tree.WellFormed.exists_atomicOrder (h : Tree.WellFormed tree)
    (hroutes : Within tree.knownScopes routes) (hprefixes : prefixes.consumers ⊆ tree.knownScopes)
    (hord : OrdersBy tree.knownScopes (MustPrecede tree tree.below routes prefixes) order) :
    ∃ sorted : Kahn.Peel VisualScopeId,
      Kahn.Drained (tree.knownScopes.image (taskFor tree))
        (taskGraph tree (explicitEdges tree tree.below routes) prefixes)
        sorted ∧
      Greedy (tree.knownScopes.image (taskFor tree))
        (Merged tree (MustPrecede tree tree.below routes prefixes))
        tree.below.compositeRank sorted.order ∧
      atomicGroupExecutionOrder order tree.knownScopes tree tree.below
          (explicitEdges tree tree.below routes) prefixes =
        some (if sorted.order.length ≠ (tree.knownScopes.image (taskFor tree)).card then
          .error (.atomicGroupCycle (((tree.knownScopes.image
            (taskFor tree)).filter fun task => sorted.indegree task ≠ 0).sort))
        else .ok (byBlocks (taskFor tree) order sorted.order)) := by
  obtain ⟨tables, sorted, hfold, hdrain, hdrained, hgreedy⟩ :=
    h.exists_taskOrder (h.within_explicitEdges hroutes) hprefixes
  rw [h.taskGraph_edge hroutes hprefixes] at hgreedy
  refine ⟨sorted, hdrained, hgreedy, ?_⟩
  unfold atomicGroupExecutionOrder
  simp only [hfold, hdrain, Option.bind_eq_bind, Option.bind_some]
  by_cases hlen : sorted.order.length = (tree.knownScopes.image (taskFor tree)).card
  · have hsort := hdrained.ordersBy (fun _ _ => Finset.filter_subset _ _) hlen
    rw [h.taskGraph_edge hroutes hprefixes] at hsort
    have hblocks : sorted.order.flatMap (taskScopes tree order) =
        byBlocks (taskFor tree) order sorted.order := by
      refine flatMap_congr ?_
      intro task htask
      exact h.taskScopes_eq hord ((hsort.mem_iff task).mp htask)
    have hres := hord.byBlocks_ordersBy hsort (fun p x hedge hne => ⟨hne, p, x, hedge, rfl, rfl⟩)
      (fun p x hedge => h.known_of_mustPrecede hroutes hprefixes hedge)
    have hlength : (byBlocks (taskFor tree) order sorted.order).length = order.length := by
      rw [hres.length_eq, hord.length_eq]
    simp [hlen, hblocks, hlength]
  · simp [hlen]

theorem Tree.WellFormed.exists_executionOrder (h : Tree.WellFormed tree)
    (hroutes : Within tree.knownScopes routes) (hprefixes : prefixes.consumers ⊆ tree.knownScopes) :
    ∃ sorted : Kahn.Peel VisualScopeId,
      Kahn.Drained tree.knownScopes (scopeGraph tree.knownScopes tree.below
        (explicitEdges tree tree.below routes) prefixes) sorted ∧
      Greedy tree.knownScopes (MustPrecede tree tree.below routes prefixes)
        tree.below.compositeRank sorted.order ∧
      executionOrder tree.knownScopes tree tree.below routes prefixes =
        if sorted.order.length ≠ tree.knownScopes.card then
          some (.error (.currentCycle ((tree.knownScopes.filter fun scope =>
            sorted.indegree scope ≠ 0).sort)))
        else atomicGroupExecutionOrder sorted.order tree.knownScopes tree
          tree.below (explicitEdges tree tree.below routes) prefixes := by
  obtain ⟨sorted, hdrain, hdrained, hgreedy⟩ :=
    h.exists_scopeOrder (h.within_explicitEdges hroutes) hprefixes
  rw [h.scopeGraph_edge hroutes hprefixes] at hgreedy
  refine ⟨sorted, hdrained, hgreedy, ?_⟩
  unfold executionOrder
  simp only [hdrain, Option.bind_eq_bind, Option.bind_some]
  by_cases hlen : sorted.order.length = tree.knownScopes.card
  · simp [hlen]
  · simp [hlen]

end

section

variable {routes : Finset RouteEdge} {prefixes : PrefixConstraints}
  {group : Group StableLayerId Body}

theorem Tree.WellFormed.taskFor_eq_group (h : Tree.WellFormed tree)
    {scope : VisualScopeId} {groupId : GroupId} :
    taskFor tree scope = .group groupId ↔ scope = .group groupId ∨
      scope ∈ (tree.membersOf groupId).map VisualScopeId.layer := by
  constructor
  · intro htask
    rcases h.taskFor_cases scope with hself | ⟨member, other, rfl, hin, hother⟩
    · exact .inl (hself.symm.trans htask)
    · rw [hother] at htask
      cases htask
      exact .inr (mem_map_of_mem hin)
  · rintro (rfl | hin)
    · rfl
    · obtain ⟨member, hmem, rfl⟩ := mem_map.mp hin
      exact h.taskFor_member hmem

theorem Tree.WellFormed.rooted_known (h : Tree.WellFormed tree) (hgrp : group ∈ tree.groups) :
    .group group.id ∈ tree.root ∧ .group group.id ∈ tree.knownScopes := by
  have hrooted := Tree.mem_rootedGroups.mp ((h.rooted group.id).mpr (mem_map_of_mem hgrp))
  exact ⟨hrooted, Tree.mem_knownScopes.mpr (.inl (Tree.output_mem_rootWalk hrooted))⟩

theorem Tree.WellFormed.exists_groupBlock (h : Tree.WellFormed tree) {order : List VisualScopeId}
    (hord : OrdersBy tree.knownScopes (MustPrecede tree tree.below routes prefixes) order)
    (hgrp : group ∈ tree.groups) :
    ∃ members, (order.filter fun scope =>
        taskFor tree scope = .group group.id) = members ++ [.group group.id] ∧
      members.Perm (group.members.map VisualScopeId.layer) := by
  obtain ⟨hrooted, hknown⟩ := h.rooted_known hgrp
  have hmems := h.membersOf_eq hgrp
  generalize hpiece : (order.filter fun scope => taskFor tree scope = .group group.id) = piece
  have hnd : piece.Nodup := hpiece ▸ hord.nodup.filter _
  have hmem : ∀ scope, scope ∈ piece ↔ scope = .group group.id ∨
      scope ∈ group.members.map VisualScopeId.layer := by
    intro scope
    rw [← hpiece, mem_filter, decide_eq_true_eq, h.taskFor_eq_group, hmems, hord.mem_iff]
    constructor
    · exact And.right
    · rintro (rfl | hin)
      · exact ⟨hknown, .inl rfl⟩
      · refine ⟨?_, .inr hin⟩
        obtain ⟨member, hmember, rfl⟩ := mem_map.mp hin
        rw [← hmems] at hmember
        exact Tree.mem_knownScopes.mpr (.inl (h.member_mem_rootWalk hmember))
  have hgrps : ∀ scope ∈ piece, scope ≠ .group group.id →
      piece.idxOf scope < piece.idxOf (.group group.id) := by
    intro scope hscope hne
    obtain ⟨member, hmember, rfl⟩ := mem_map.mp (((hmem scope).mp hscope).resolve_left hne)
    rw [← hpiece]
    refine idxOf_filter_lt ((hord.mem_iff _).mpr hknown) ?_ (hord.before _ _ (.member hgrp hmember))
    rw [← hmems] at hmember
    rw [decide_eq_true_eq]
    exact h.taskFor_member hmember
  obtain ⟨members, hsplit, hout⟩ := exists_concat_of_idxOf_lt hnd
    ((hmem (.group group.id)).mpr (.inl rfl)) hgrps
  refine ⟨members, hsplit, ?_⟩
  have hlays : (group.members.map VisualScopeId.layer).Nodup := by
    rw [← hmems]
    exact (h.members_nodup group.id).map fun _ _ hab => VisualScopeId.layer.inj hab
  rw [hsplit] at hnd
  refine (perm_ext_iff_of_nodup (nodup_append.mp hnd).1 hlays).mpr ?_
  intro scope
  constructor
  · intro hin
    have hscope : scope ∈ piece := hsplit ▸ mem_append_left _ hin
    refine ((hmem scope).mp hscope).resolve_left ?_
    rintro rfl
    exact hout hin
  · intro hin
    have hscope := (hmem scope).mpr (.inr hin)
    rw [hsplit, mem_append, mem_singleton] at hscope
    rcases hscope with hscope | rfl
    · exact hscope
    · obtain ⟨member, -, heq⟩ := mem_map.mp hin
      cases heq

end

/-!
## The back-to-front walk

The ready sets of the planner are ordered by the rank of a scope and then by its
identity.
-/

def Tree.backToFront (tree : Tree StableLayerId Body) : List VisualScopeId :=
  tree.rootWalk ++ [.master, .program]

def readyKey (tree : Tree StableLayerId Body) (scope : VisualScopeId) :
    CompositeRank ×ₗ VisualScopeId :=
  toLex (tree.below.compositeRank scope, scope)

theorem eq_of_pairwise_readyKey {first second : List VisualScopeId}
    (hfst : first.Pairwise fun x y => readyKey tree x < readyKey tree y)
    (hsnd : second.Pairwise fun x y => readyKey tree x < readyKey tree y)
    (hmem : ∀ x, x ∈ first ↔ x ∈ second) : first = second := by
  have hnd : ∀ {order : List VisualScopeId},
      (order.Pairwise fun x y => readyKey tree x < readyKey tree y) → order.Nodup := by
    intro order hord
    refine hord.imp ?_
    rintro x y hlt rfl
    exact absurd hlt (lt_irrefl _)
  refine List.Perm.eq_of_pairwise ?_ hfst hsnd
    ((perm_ext_iff_of_nodup (hnd hfst) (hnd hsnd)).mpr hmem)
  intro x y _ _ hxy hyx
  exact absurd hxy (lt_asymm hyx)

variable {x : VisualScopeId}

theorem readyKey_lt_of_rank {y : VisualScopeId}
    (h : tree.below.compositeRank x < tree.below.compositeRank y) :
    readyKey tree x < readyKey tree y :=
  Prod.Lex.toLex_lt_toLex.mpr (.inl h)

theorem Tree.WellFormed.master_lt_program (h : Tree.WellFormed tree) :
    readyKey tree .master < readyKey tree .program := by
  refine Prod.Lex.toLex_lt_toLex.mpr (.inr ⟨?_, ?_⟩)
  · rw [h.rank_master, h.rank_program]
  · change VisualScopeId.rank .master < VisualScopeId.rank .program
    decide

variable {scope : VisualScopeId}

theorem Tree.WellFormed.key_lt_master (h : Tree.WellFormed tree) (hmem : scope ∈ tree.rootWalk) :
    readyKey tree scope < readyKey tree .master := by
  apply readyKey_lt_of_rank
  rw [h.rank_master]
  exact h.rank_lt_top hmem

theorem Tree.WellFormed.pairwise_append_top (h : Tree.WellFormed tree)
    {scopes : List VisualScopeId} (hsub : ∀ x ∈ scopes, x ∈ tree.rootWalk)
    (hscopes : scopes.Pairwise fun x y => tree.below.compositeRank x < tree.below.compositeRank y) :
    (scopes ++ [VisualScopeId.master, .program]).Pairwise fun x y =>
      readyKey tree x < readyKey tree y := by
  refine pairwise_append.mpr ⟨hscopes.imp readyKey_lt_of_rank, ?_, ?_⟩
  · exact pairwise_pair.mpr h.master_lt_program
  · intro x hx y hy
    have hmaster := h.key_lt_master (hsub x hx)
    rcases mem_pair.mp hy with rfl | rfl
    · exact hmaster
    · exact hmaster.trans h.master_lt_program

theorem Tree.WellFormed.backToFront_pairwise (h : Tree.WellFormed tree) :
    tree.backToFront.Pairwise fun x y => readyKey tree x < readyKey tree y :=
  h.pairwise_append_top (fun _ hx => hx) h.rootWalk_pairwise

variable {item : RootItem StableLayerId} {prefixes : PrefixConstraints}

theorem Tree.WellFormed.itemScopes_pairwise (h : Tree.WellFormed tree) (hitem : item ∈ tree.root) :
    (tree.itemScopes item).Pairwise fun x y => tree.below.compositeRank x <
      tree.below.compositeRank y :=
  (pairwise_flatMap.mp h.rootWalk_pairwise).1 item hitem

theorem Tree.WellFormed.outputs_pairwise (h : Tree.WellFormed tree) :
    (tree.root.map RootItem.output).Pairwise fun x y =>
      tree.below.compositeRank x < tree.below.compositeRank y := by
  refine pairwise_map.mpr ?_
  refine (pairwise_flatMap.mp h.rootWalk_pairwise).2.imp ?_
  intro first second hlt
  exact hlt _ (output_mem_itemScopes first) _ (output_mem_itemScopes second)

theorem Tree.WellFormed.key_lt_of_mustPrecede (h : Tree.WellFormed tree)
    (hprefixes : prefixes.consumers = ∅)
    {p : VisualScopeId} (hedge : MustPrecede tree tree.below ∅ prefixes p x) :
    readyKey tree p < readyKey tree x := by
  cases hedge with
  | route hroute => simp at hroute
  | member hgrp hmem =>
    rw [← h.membersOf_eq hgrp] at hmem
    have hpairwise := h.itemScopes_pairwise (h.rooted_of_member hmem)
    exact readyKey_lt_of_rank ((pairwise_append.mp hpairwise).2.2 _
      (mem_map_of_mem hmem) _ (mem_singleton_self _))
  | output hout =>
    obtain ⟨item, hitem, rfl⟩ := mem_map.mp hout
    exact h.key_lt_master (output_mem_rootWalk hitem)
  | program => exact h.master_lt_program
  | below hcons =>
    rw [hprefixes] at hcons
    simp at hcons

theorem Tree.WellFormed.taskFor_of_mem (h : Tree.WellFormed tree)
    (hitem : item ∈ tree.root) (hscope : scope ∈ tree.itemScopes item) :
    taskFor tree scope = item.output := by
  cases item with
  | layer layerId bus =>
    obtain rfl := mem_singleton.mp hscope
    rcases h.taskFor_cases (.layer layerId) with hself | ⟨_, _, heq, hin, -⟩
    · exact hself
    · cases heq
      exact absurd (mem_map_of_mem hitem) (h.member_not_output hin)
  | group groupId =>
    rw [RootItem.output, h.taskFor_eq_group]
    rcases mem_append.mp hscope with hin | hin
    · exact .inr hin
    · exact .inl (mem_singleton.mp hin)

theorem Tree.WellFormed.key_lt_of_merged (h : Tree.WellFormed tree)
    (hprefixes : prefixes.consumers = ∅) {t u : VisualScopeId}
    (hedge : Merged tree (MustPrecede tree tree.below ∅ prefixes) t u) :
    readyKey tree t < readyKey tree u := by
  obtain ⟨hne, p, x, hedge, rfl, rfl⟩ := hedge
  cases hedge with
  | route hroute => simp at hroute
  | member hgrp hmem =>
    rw [← h.membersOf_eq hgrp] at hmem
    exact absurd (h.taskFor_member hmem) hne
  | output hout =>
    obtain ⟨item, hitem, rfl⟩ := mem_map.mp hout
    rw [h.taskFor_of_mem hitem (output_mem_itemScopes item)]
    exact h.key_lt_master (output_mem_rootWalk hitem)
  | program => exact h.master_lt_program
  | below hcons =>
    rw [hprefixes] at hcons
    simp at hcons

theorem acyclic_of_key_lt {R : VisualScopeId → VisualScopeId → Prop}
    (hup : ∀ p x, R p x → readyKey tree p < readyKey tree x)
    (x : VisualScopeId) : ¬Relation.TransGen R x x := by
  intro hcycle
  have hlt := hcycle.lift (readyKey tree) hup
  rw [Relation.transGen_eq_self] at hlt
  exact lt_irrefl _ hlt

theorem Tree.mem_backToFront : scope ∈ tree.backToFront ↔ scope ∈ tree.knownScopes := by
  rw [mem_knownScopes, backToFront, mem_append, mem_pair]

theorem Tree.WellFormed.mem_image_taskFor (h : Tree.WellFormed tree) {task : VisualScopeId} :
    task ∈ tree.knownScopes.image (taskFor tree) ↔
      task ∈ tree.root.map RootItem.output ++ [VisualScopeId.master, .program] := by
  rw [Finset.mem_image, mem_append, mem_map, mem_pair]
  constructor
  · rintro ⟨scope, hscope, rfl⟩
    rcases Tree.mem_knownScopes.mp hscope with hwalk | rfl | rfl
    · obtain ⟨item, hitem, hin⟩ := mem_flatMap.mp hwalk
      exact .inl ⟨item, hitem, (h.taskFor_of_mem hitem hin).symm⟩
    · exact .inr (.inl rfl)
    · exact .inr (.inr rfl)
  · rintro (⟨item, hitem, rfl⟩ | rfl | rfl)
    · exact ⟨item.output, Tree.mem_knownScopes.mpr (.inl (output_mem_rootWalk hitem)),
        h.taskFor_of_mem hitem (output_mem_itemScopes item)⟩
    · exact ⟨_, Tree.mem_knownScopes.mpr (.inr (.inl rfl)), rfl⟩
    · exact ⟨_, Tree.mem_knownScopes.mpr (.inr (.inr rfl)), rfl⟩

theorem Tree.WellFormed.filter_output (h : Tree.WellFormed tree) (hitem : item ∈ tree.root) :
    (tree.backToFront.filter fun scope =>
      taskFor tree scope = item.output) = tree.itemScopes item := by
  refine eq_of_pairwise_readyKey (h.backToFront_pairwise.filter _)
    ((h.itemScopes_pairwise hitem).imp readyKey_lt_of_rank) ?_
  intro scope
  rw [mem_filter, decide_eq_true_eq, backToFront, mem_append]
  constructor
  · rintro ⟨hwalk | htop, htask⟩
    · obtain ⟨other, hother, hscope⟩ := mem_flatMap.mp hwalk
      rw [h.taskFor_of_mem hother hscope] at htask
      have hitem' : other.output ∈ tree.itemScopes other := output_mem_itemScopes other
      rw [htask] at hitem'
      rw [h.item_unique hitem hother (output_mem_itemScopes item) hitem']
      exact hscope
    · have hout := scopes_of_mem_rootWalk (output_mem_rootWalk hitem)
      rcases mem_pair.mp htop with rfl | rfl
      · exact absurd htask.symm hout.1
      · exact absurd htask.symm hout.2
  · intro hscope
    exact ⟨.inl (mem_flatMap.mpr ⟨item, hitem, hscope⟩), h.taskFor_of_mem hitem hscope⟩

theorem Tree.WellFormed.byBlocks_backToFront (h : Tree.WellFormed tree) :
    byBlocks (taskFor tree) tree.backToFront
      (tree.root.map RootItem.output ++ [.master, .program]) =
      tree.backToFront := by
  have hnd := (h.backToFront_pairwise.imp fun hlt => ne_of_apply_ne _ hlt.ne)
  have hself : ∀ scope, scope = .master ∨ scope = .program →
      (tree.backToFront.filter fun other => taskFor tree other = scope) = [scope] := by
    intro scope hscope
    refine filter_eq_singleton hnd ?_ ?_
    · exact mem_append_right _ (mem_pair.mpr hscope)
    · intro other _
      rw [decide_eq_true_eq]
      rcases h.taskFor_cases other with hother | ⟨_, _, rfl, -, hother⟩
      · rw [hother]
      · rw [hother]
        rcases hscope with rfl | rfl <;> simp
  have hitems : ((tree.root.map RootItem.output).flatMap fun task =>
      tree.backToFront.filter fun scope => taskFor tree scope = task) =
      tree.rootWalk := by
    rw [flatMap_map]
    exact flatMap_congr fun item hitem => h.filter_output hitem
  unfold byBlocks
  rw [flatMap_append, hitems, flatMap_cons, flatMap_singleton,
    hself _ (.inl rfl), hself _ (.inr rfl)]
  rfl

/-!
## The execution order is exact

The planner orders the scopes of a valid composition exactly when what must
precede what has no cycle, also when every group is merged with its members.
-/

open Relation

variable {Body E : Type} {tree : Tree StableLayerId Body}
  {routes : Finset RouteEdge} {prefixes : PrefixConstraints}

/-- An order in which every scope stands once, behind what must precede it, and
each group behind its members in one piece. -/
structure Executes (tree : Tree StableLayerId Body) (below : BelowTopology)
    (routes : Finset RouteEdge) (prefixes : PrefixConstraints)
    (order : List VisualScopeId) : Prop extends
    OrdersBy tree.knownScopes (MustPrecede tree below routes prefixes) order
    where
  groups : ∀ group ∈ tree.groups, ∃ front members rest,
    order = front ++ (members ++ .group group.id :: rest) ∧
      members.Perm (group.members.map VisualScopeId.layer)

/-- The orders of the two sorts behind a result. -/
structure SortedBy (tree : Tree StableLayerId Body) (routes : Finset RouteEdge)
    (prefixes : PrefixConstraints) (scopes tasks : List VisualScopeId) :
    Prop where
  scopes_ordersBy : OrdersBy tree.knownScopes (MustPrecede tree tree.below routes prefixes) scopes
  scopes_greedy : Greedy tree.knownScopes
    (MustPrecede tree tree.below routes prefixes) tree.below.compositeRank
    scopes
  tasks_ordersBy : OrdersBy (tree.knownScopes.image (taskFor tree))
    (Merged tree (MustPrecede tree tree.below routes prefixes)) tasks
  tasks_greedy : Greedy (tree.knownScopes.image (taskFor tree))
    (Merged tree (MustPrecede tree tree.below routes prefixes))
    tree.below.compositeRank tasks

theorem Tree.WellFormed.executionOrder_cases (h : Tree.WellFormed tree)
    (hroutes : Within tree.knownScopes routes) (hprefixes : prefixes.consumers ⊆ tree.knownScopes) :
    (∃ scopes, executionOrder tree.knownScopes tree tree.below routes prefixes =
        some (.error (.currentCycle scopes)) ∧
      ∃ x, TransGen (MustPrecede tree tree.below routes prefixes) x x) ∨
    (∃ tasks, executionOrder tree.knownScopes tree tree.below routes prefixes =
        some (.error (.atomicGroupCycle tasks)) ∧
      (∀ x, ¬TransGen (MustPrecede tree tree.below routes prefixes) x x) ∧
      ∃ t, TransGen (Merged tree (MustPrecede tree tree.below routes prefixes)) t t) ∨
    ∃ scopes tasks, executionOrder tree.knownScopes tree tree.below routes
        prefixes = some (.ok (byBlocks (taskFor tree) scopes tasks)) ∧
      SortedBy tree routes prefixes scopes tasks := by
  obtain ⟨sorted, hdrain, hgreedy, hres⟩ := h.exists_executionOrder hroutes hprefixes
  have hgraph := h.scopeGraph_edge hroutes hprefixes
  have hcomp := hdrain.complete_iff scopeGraph_closed
  rw [hgraph] at hcomp
  by_cases hlen : sorted.order.length = tree.knownScopes.card
  · right
    have hscopes := hdrain.ordersBy scopeGraph_closed hlen
    rw [hgraph] at hscopes
    obtain ⟨sorted', hdrained', hgreedy', hresult'⟩ :=
      h.exists_atomicOrder hroutes hprefixes hscopes
    have htasks := h.taskGraph_edge hroutes hprefixes
    have hcomplete' := hdrained'.complete_iff taskGraph_closed
    rw [htasks] at hcomplete'
    rw [if_neg (not_not.mpr hlen), hresult'] at hres
    by_cases hlen' : sorted'.order.length = (tree.knownScopes.image (taskFor tree)).card
    · right
      have htasks' := hdrained'.ordersBy taskGraph_closed hlen'
      rw [htasks] at htasks'
      rw [if_neg (not_not.mpr hlen')] at hres
      exact ⟨_, _, hres, hscopes, hgreedy, htasks', hgreedy'⟩
    · left
      rw [if_pos hlen'] at hres
      refine ⟨_, hres, hcomp.mp hlen, ?_⟩
      by_contra hnone
      push Not at hnone
      exact hlen' (hcomplete'.mpr hnone)
  · left
    rw [if_pos hlen] at hres
    refine ⟨_, hres, ?_⟩
    by_contra hnone
    push Not at hnone
    exact hlen (hcomp.mpr hnone)

variable {scopes tasks : List VisualScopeId}

theorem SortedBy.executes (h : Tree.WellFormed tree) (hroutes : Within tree.knownScopes routes)
    (hprefixes : prefixes.consumers ⊆ tree.knownScopes)
    (hsort : SortedBy tree routes prefixes scopes tasks) :
    Executes tree tree.below routes prefixes (byBlocks (taskFor tree) scopes tasks) where
  toOrdersBy := hsort.scopes_ordersBy.byBlocks_ordersBy hsort.tasks_ordersBy
    (fun p x hedge hne => ⟨hne, p, x, hedge, rfl, rfl⟩)
    (fun _ _ hedge => h.known_of_mustPrecede hroutes hprefixes hedge)
  groups := by
    intro group hgrp
    obtain ⟨hrooted, hknown⟩ := h.rooted_known hgrp
    have htask : .group group.id ∈ tasks :=
      (hsort.tasks_ordersBy.mem_iff _).mpr (Finset.mem_image.mpr ⟨_, hknown, rfl⟩)
    obtain ⟨front, rest, hsplit⟩ := exists_split_byBlocks (taskFor tree) scopes htask
    obtain ⟨members, hblock, hperm⟩ := h.exists_groupBlock hsort.scopes_ordersBy hgrp
    refine ⟨front, members, rest, ?_, hperm⟩
    rw [hsplit, hblock, append_assoc]
    rfl

theorem SortedBy.eq_backToFront (h : Tree.WellFormed tree) (hprefixes : prefixes.consumers = ∅)
    (hsort : SortedBy tree ∅ prefixes scopes tasks) :
    byBlocks (taskFor tree) scopes tasks = tree.backToFront := by
  have hscopes : scopes = tree.backToFront := by
    refine eq_of_pairwise_readyKey
      (hsort.scopes_greedy.pairwise hsort.scopes_ordersBy
        fun p x hedge => h.key_lt_of_mustPrecede hprefixes hedge)
      h.backToFront_pairwise ?_
    intro x
    rw [hsort.scopes_ordersBy.mem_iff, Tree.mem_backToFront]
  have htasks : tasks = tree.root.map RootItem.output ++
      [VisualScopeId.master, VisualScopeId.program] := by
    refine eq_of_pairwise_readyKey
      (hsort.tasks_greedy.pairwise hsort.tasks_ordersBy
        fun t u hedge => h.key_lt_of_merged hprefixes hedge)
      (h.pairwise_append_top ?_ h.outputs_pairwise) ?_
    · intro x hx
      obtain ⟨item, hitem, rfl⟩ := mem_map.mp hx
      exact Tree.output_mem_rootWalk hitem
    · intro t
      rw [hsort.tasks_ordersBy.mem_iff]
      exact h.mem_image_taskFor
  rw [hscopes, htasks, h.byBlocks_backToFront]

/-- The planner orders exactly what has no cycle, and its order is exact. -/
theorem executionOrder_exact {checkRack : Body → Except E Unit}
    (hvalid : Tree.validateStructure checkRack tree = .ok ())
    (hroutes : Within tree.knownScopes routes) (hprefixes : prefixes.consumers ⊆ tree.knownScopes) :
    ∃ below result, belowTopology tree = .ok below ∧
      executionOrder tree.knownScopes tree below routes prefixes = some result ∧
      (∀ order, result = .ok order → Executes tree below routes prefixes order) ∧
      ((∃ scopes, result = .error (.currentCycle scopes)) ↔
        ∃ x, TransGen (MustPrecede tree below routes prefixes) x x) ∧
      ((∃ tasks, result = .error (.atomicGroupCycle tasks)) ↔
        (∀ x, ¬TransGen (MustPrecede tree below routes prefixes) x x) ∧
        ∃ t, TransGen (Merged tree (MustPrecede tree below routes prefixes)) t t) ∧
      (∀ error, result = .error error →
        (∃ scopes, error = .currentCycle scopes) ∨
        ∃ tasks, error = .atomicGroupCycle tasks) ∧
      (routes = ∅ → prefixes.consumers = ∅ → result = .ok tree.backToFront) := by
  have h := (Tree.validateStructure_ok.mp hvalid).1
  refine ⟨tree.below, ?_⟩
  rcases h.executionOrder_cases hroutes hprefixes with
    ⟨scopes, hresult, hcycle⟩ | ⟨tasks, hresult, hacyclic, hcycle⟩ |
      ⟨scopes, tasks, hresult, hsorted⟩
  · refine ⟨_, h.belowTopology_eq, hresult, ?_, ?_, ?_, ?_, ?_⟩
    · intro order horder
      cases horder
    · exact ⟨fun _ => hcycle, fun _ => ⟨scopes, rfl⟩⟩
    · constructor
      · rintro ⟨tasks, htasks⟩
        cases htasks
      · rintro ⟨hacyclic, -⟩
        obtain ⟨x, hx⟩ := hcycle
        exact absurd hx (hacyclic x)
    · intro error herror
      exact .inl ⟨scopes, (Except.error.inj herror).symm⟩
    · rintro rfl hempty
      obtain ⟨x, hx⟩ := hcycle
      exact absurd hx (acyclic_of_key_lt (fun _ _ hedge => h.key_lt_of_mustPrecede hempty hedge) x)
  · refine ⟨_, h.belowTopology_eq, hresult, ?_, ?_, ?_, ?_, ?_⟩
    · intro order horder
      cases horder
    · constructor
      · rintro ⟨scopes, hscopes⟩
        cases hscopes
      · rintro ⟨x, hx⟩
        exact absurd hx (hacyclic x)
    · exact ⟨fun _ => ⟨hacyclic, hcycle⟩, fun _ => ⟨tasks, rfl⟩⟩
    · intro error herror
      exact .inr ⟨tasks, (Except.error.inj herror).symm⟩
    · rintro rfl hempty
      obtain ⟨t, ht⟩ := hcycle
      exact absurd ht (acyclic_of_key_lt (fun _ _ hedge => h.key_lt_of_merged hempty hedge) t)
  · refine ⟨_, h.belowTopology_eq, hresult, ?_, ?_, ?_, ?_, ?_⟩
    · intro order horder
      cases horder
      exact hsorted.executes h hroutes hprefixes
    · constructor
      · rintro ⟨scopes', hscopes⟩
        cases hscopes
      · rintro ⟨x, hx⟩
        exact absurd hx (hsorted.scopes_ordersBy.acyclic x)
    · constructor
      · rintro ⟨tasks', htasks⟩
        cases htasks
      · rintro ⟨-, t, ht⟩
        exact absurd ht (hsorted.tasks_ordersBy.acyclic t)
    · intro error herror
      cases herror
    · rintro rfl hempty
      rw [hsorted.eq_backToFront h hempty]

/-- A group and a layer in front of it, without routes. -/
theorem executionOrder_exact_oneGroup :
    ∃ tree : Tree StableLayerId Unit,
      tree.groups.length = 1 ∧ ∃ below,
      belowTopology tree = .ok below ∧
      executionOrder tree.knownScopes tree below ∅ .empty =
        some (.ok [.layer ⟨2, by decide⟩, .group ⟨1, by decide⟩,
          .layer ⟨1, by decide⟩, .master, .program]) := by
  have hvalid : Tree.validateStructure (E := Unit) (fun _ => .ok ())
      (⟨[⟨⟨1, by decide⟩, [⟨2, by decide⟩], ()⟩],
        [.group ⟨1, by decide⟩, .layer ⟨1, by decide⟩ .program]⟩ :
        Tree StableLayerId Unit) = .ok () := by
    refine Tree.validateStructure_ok.mpr ⟨⟨?_, ?_, ?_, ?_⟩, ?_⟩
    · decide
    · decide
    · decide
    · intro groupId
      simp [Tree.rootedGroups, Tree.groupIds, RootItem.groupId]
    · intro _ _
      rfl
  obtain ⟨below, result, hbelow, hresult, -, -, -, -, hempty⟩ :=
    executionOrder_exact hvalid (within_empty _)
      (show PrefixConstraints.empty.consumers ⊆ _ from Finset.empty_subset _)
  refine ⟨_, rfl, below, hbelow, ?_⟩
  rw [hresult, hempty rfl rfl]
  rfl

end CollideOScope.Composition
