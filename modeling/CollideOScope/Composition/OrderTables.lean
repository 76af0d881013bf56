import CollideOScope.Composition.ExecutionOrder

/-!
# The tables of the two sorts

Both sorts fill an adjacency and a counter from a set of edges.  What they fill
describes a graph: the consumers of a vertex, and how many producers it waits
for.  In the first sort the producers of a prefix are counted by the length of
the prefix, and the edges it names are left out, so every producer is counted
once.
-/

namespace CollideOScope.Composition

open Function List Finset

variable {Body : Type} {known : Finset VisualScopeId}

/-- The tables list `edges` and count those that `counted` admits. -/
structure OrderTables.Lists (known : Finset VisualScopeId)
    (counted : VisualScopeId → VisualScopeId → Bool) (s : OrderTables)
    (edges : List RouteEdge) : Prop where
  mem_adjacency : ∀ p x, x ∈ s.adjacency p ↔ toLex (p, x) ∈ edges
  indegree_eq : ∀ x, s.indegree x = (known.filter fun p => toLex (p, x) ∈ edges ∧ counted p x).card

theorem OrderTables.lists_empty (counted : VisualScopeId → VisualScopeId → Bool) :
    OrderTables.empty.Lists known counted [] := by
  constructor
  · intro p x
    simp [empty]
  · intro x
    simp [empty]

theorem OrderTables.Lists.insert {counted : VisualScopeId → VisualScopeId → Bool} {s : OrderTables}
    {edges : List RouteEdge} (h : s.Lists known counted edges) {p x : VisualScopeId}
    (hp : p ∈ known) :
    (s.insert p x (counted p x)).Lists known counted (edges ++ [toLex (p, x)]) := by
  have hmem : ∀ p' x', toLex (p', x') ∈ edges ++ [toLex (p, x)] ↔
      toLex (p', x') ∈ edges ∨ p' = p ∧ x' = x := by
    intro p' x'
    rw [List.mem_append, List.mem_singleton, toLex_inj, Prod.mk.injEq]
  by_cases hin : x ∈ s.adjacency p
  · have hold : toLex (p, x) ∈ edges := (h.mem_adjacency p x).mp hin
    have hsame : ∀ p' x', toLex (p', x') ∈ edges ++ [toLex (p, x)] ↔ toLex (p', x') ∈ edges := by
      intro p' x'
      rw [hmem]
      constructor
      · rintro (hedge | ⟨rfl, rfl⟩)
        · exact hedge
        · exact hold
      · exact Or.inl
    rw [OrderTables.insert, if_pos hin]
    refine ⟨?_, ?_⟩
    · intro p' x'
      rw [hsame, h.mem_adjacency]
    · intro x'
      simp only [hsame]
      exact h.indegree_eq x'
  · have hnew : toLex (p, x) ∉ edges := mt (h.mem_adjacency p x).mpr hin
    rw [OrderTables.insert, if_neg hin]
    refine ⟨?_, ?_⟩
    · intro p' x'
      rw [hmem]
      by_cases hp' : p' = p
      · subst hp'
        simp only [update_self, mem_insert, h.mem_adjacency, true_and]
        exact or_comm
      · simp only [update_of_ne hp', h.mem_adjacency, hp', false_and, or_false]
    · intro x'
      have hset : (known.filter fun p' =>
          toLex (p', x') ∈ edges ++ [toLex (p, x)] ∧ counted p' x') =
          if x' = x ∧ counted p x then
            Insert.insert p (known.filter fun p' => toLex (p', x') ∈ edges ∧ counted p' x')
          else known.filter fun p' => toLex (p', x') ∈ edges ∧ counted p' x' := by
        by_cases hx : x' = x ∧ counted p x
        · obtain ⟨rfl, hcnt⟩ := hx
          rw [if_pos ⟨rfl, hcnt⟩]
          ext p'
          simp only [Finset.mem_filter, Finset.mem_insert, hmem, and_true]
          constructor
          · rintro ⟨hknown, hedge | rfl, hcounted'⟩
            · exact .inr ⟨hknown, hedge, hcounted'⟩
            · exact .inl rfl
          · rintro (rfl | ⟨hknown, hedge, hcounted'⟩)
            · exact ⟨hp, .inr rfl, hcnt⟩
            · exact ⟨hknown, .inl hedge, hcounted'⟩
        · rw [if_neg hx]
          ext p'
          simp only [Finset.mem_filter, hmem]
          refine and_congr_right fun _ => ?_
          constructor
          · rintro ⟨hedge | ⟨rfl, rfl⟩, hcounted'⟩
            · exact ⟨hedge, hcounted'⟩
            · exact absurd ⟨rfl, hcounted'⟩ hx
          · rintro ⟨hedge, hcounted'⟩
            exact ⟨.inl hedge, hcounted'⟩
      rw [hset]
      by_cases hcnt : counted p x
      · by_cases hx : x' = x
        · subst hx
          have hout : p ∉ known.filter fun p' => toLex (p', x') ∈ edges ∧ counted p' x' := by
            simp [hnew]
          simp only [hcnt, if_true, and_self, update_self]
          rw [card_insert_of_notMem hout, h.indegree_eq x']
        · simp only [hcnt, if_true, hx, false_and, if_false, update_of_ne hx]
          exact h.indegree_eq x'
      · simp only [hcnt, Bool.false_eq_true, if_false, and_false]
        exact h.indegree_eq x'

def Within (known : Finset VisualScopeId) (edges : Finset RouteEdge) : Prop :=
  ∀ edge ∈ edges, (ofLex edge).1 ∈ known ∧ (ofLex edge).2 ∈ known

theorem within_empty (known : Finset VisualScopeId) : Within known ∅ := by
  intro edge hedge
  simp at hedge

section

variable {below : BelowTopology} {prefixes : PrefixConstraints}

theorem lists_foldl_addScopeEdge :
    ∀ (rest : List RouteEdge) {edges : List RouteEdge} {s : OrderTables},
      s.Lists known (fun p x => !prefixes.implies below p x) edges →
      (∀ edge ∈ rest, (ofLex edge).1 ∈ known ∧ (ofLex edge).2 ∈ known) →
      (rest.foldl (addScopeEdge known below prefixes) s).Lists known
        (fun p x => !prefixes.implies below p x) (edges ++ rest)
  | [], edges, s, h, _ => by
      rw [append_nil]
      exact h
  | edge :: rest, edges, s, h, hknown => by
      obtain ⟨⟨hp, hx⟩, hrest⟩ := forall_mem_cons.mp hknown
      rw [foldl_cons, append_cons]
      refine lists_foldl_addScopeEdge rest ?_ hrest
      rw [addScopeEdge, if_neg (by simp [hp, hx])]
      exact h.insert hp

theorem foldl_addPrefix :
    ∀ {consumers : List VisualScopeId}, consumers.Nodup →
      (∀ consumer ∈ consumers, consumer ∈ known) →
      ∀ (indegree : VisualScopeId → ℕ) (x : VisualScopeId),
      consumers.foldl (addPrefix known below prefixes) indegree x =
        indegree x + if x ∈ consumers then
          below.prefixLen (prefixes.prefixOf x) else 0
  | [], _, _, indegree, x => by simp
  | consumer :: rest, hnd, hknown, indegree, x => by
      obtain ⟨hout, hrest⟩ := nodup_cons.mp hnd
      obtain ⟨hcons, hrest'⟩ := forall_mem_cons.mp hknown
      rw [foldl_cons, foldl_addPrefix hrest hrest', addPrefix, if_neg (not_not.mpr hcons)]
      by_cases hx : x = consumer
      · subst hx
        simp [hout]
      · simp [hx]

theorem lists_foldlM_addTaskEdge {tasks : Finset VisualScopeId} :
    ∀ (rest : List RouteEdge) {edges : List RouteEdge} {s : OrderTables},
      s.Lists tasks (fun _ _ => true) edges →
      (∀ edge ∈ rest, (ofLex edge).1 ∈ tasks ∧ (ofLex edge).2 ∈ tasks) →
      ∃ t, rest.foldlM (addTaskEdge tasks) s = some t ∧
        t.Lists tasks (fun _ _ => true) (edges ++ rest)
  | [], edges, s, h, _ => ⟨s, rfl, by rw [append_nil]; exact h⟩
  | edge :: rest, edges, s, h, htasks => by
      obtain ⟨⟨hp, hx⟩, hrest⟩ := forall_mem_cons.mp htasks
      have hstep : addTaskEdge tasks s edge =
          some (s.insert (ofLex edge).1 (ofLex edge).2 true) := by
        by_cases hin : (ofLex edge).2 ∈ s.adjacency (ofLex edge).1
        · simp [addTaskEdge, OrderTables.insert, hin]
        · simp [addTaskEdge, hin, hx]
      obtain ⟨t, hfold, hlists⟩ := lists_foldlM_addTaskEdge rest
        (h.insert hp (x := (ofLex edge).2)) hrest
      refine ⟨t, ?_, ?_⟩
      · rw [foldlM_cons, hstep]
        exact hfold
      · rw [append_cons]
        exact hlists

end

section

variable {tree : Tree StableLayerId Body} {edges : Finset RouteEdge} {prefixes : PrefixConstraints}

/-- An edge of the first sort, explicit or through a prefix. -/
def ScopeEdge (below : BelowTopology) (edges : Finset RouteEdge)
    (prefixes : PrefixConstraints) (p x : VisualScopeId) : Prop :=
  toLex (p, x) ∈ edges ∨ prefixes.implies below p x

instance (below : BelowTopology) (edges : Finset RouteEdge)
    (prefixes : PrefixConstraints) (p x : VisualScopeId) :
    Decidable (ScopeEdge below edges prefixes p x) :=
  inferInstanceAs (Decidable (_ ∨ _))

def scopeGraph (known : Finset VisualScopeId) (below : BelowTopology) (edges : Finset RouteEdge)
    (prefixes : PrefixConstraints) (p : VisualScopeId) : Finset VisualScopeId :=
  known.filter fun x => ScopeEdge below edges prefixes p x

variable {p x : VisualScopeId} {below : BelowTopology}

theorem mem_scopeGraph :
    x ∈ scopeGraph known below edges prefixes p ↔
      x ∈ known ∧ (toLex (p, x) ∈ edges ∨ prefixes.implies below p x) := by
  unfold scopeGraph
  rw [Finset.mem_filter]
  rfl

theorem scopeGraph_closed : ∀ p ∈ known, scopeGraph known below edges prefixes p ⊆ known := by
  intro p _
  exact filter_subset _ _

theorem implies_eq_true :
    prefixes.implies below p x ↔
      x ∈ prefixes.consumers ∧ below.prefixContains p (prefixes.prefixOf x) := by
  unfold PrefixConstraints.implies PrefixConstraints.get
  by_cases hx : x ∈ prefixes.consumers
  · simp [hx]
  · simp [hx]

theorem scopeTables_lists (hedges : Within known edges)
    (below : BelowTopology) (prefixes : PrefixConstraints) :
    OrderTables.Lists known (fun p x => !prefixes.implies below p x)
      (edges.sort.foldl (addScopeEdge known below prefixes) .empty)
      edges.sort := by
  refine lists_foldl_addScopeEdge edges.sort (OrderTables.lists_empty _) ?_
  intro edge hedge
  exact hedges edge ((mem_sort _).mp hedge)

theorem Tree.WellFormed.card_implies (h : Tree.WellFormed tree) (x : VisualScopeId) :
    (tree.knownScopes.filter fun p => prefixes.implies tree.below p x).card =
      if x ∈ prefixes.consumers then
        tree.below.prefixLen (prefixes.prefixOf x) else 0 := by
  by_cases hx : x ∈ prefixes.consumers
  · rw [if_pos hx, ← h.card_prefix]
    congr 1
    ext p
    simp [implies_eq_true, hx]
  · rw [if_neg hx, card_eq_zero, filter_eq_empty_iff]
    intro p _ himplies
    exact hx (implies_eq_true.mp himplies).1

theorem Tree.WellFormed.counted_scopes (h : Tree.WellFormed tree)
    (hedges : Within tree.knownScopes edges) (hconsumers : prefixes.consumers ⊆ tree.knownScopes) :
    Kahn.Counted tree.knownScopes (scopeGraph tree.knownScopes tree.below edges prefixes)
      (scopeTables tree.knownScopes tree.below edges prefixes).indegree := by
  refine ⟨scopeGraph_closed, ?_⟩
  · intro x
    have hlists := scopeTables_lists hedges tree.below prefixes
    have hknown : ∀ consumer ∈ prefixes.consumers.sort, consumer ∈ tree.knownScopes := by
      intro consumer hcons
      exact hconsumers ((mem_sort _).mp hcons)
    unfold scopeTables
    dsimp only
    rw [foldl_addPrefix (sort_nodup (r := (· ≤ ·)) (s := prefixes.consumers)) hknown,
      hlists.indegree_eq x]
    simp only [mem_sort]
    rw [← h.card_implies, ← card_union_of_disjoint]
    · congr 1
      ext p
      simp only [Finset.mem_union, Finset.mem_filter, Kahn.producers,
        mem_scopeGraph, Bool.not_eq_true']
      by_cases himplies : prefixes.implies tree.below p x
      · have hx := hconsumers (implies_eq_true.mp himplies).1
        simp [himplies, hx]
      · simp only [himplies, and_true, Bool.false_eq_true, and_false, or_false]
        refine and_congr_right fun _ => ?_
        constructor
        · intro hedge
          exact ⟨(hedges _ hedge).2, hedge⟩
        · exact And.right
    · refine disjoint_filter.mpr ?_
      intro p _ hcnt himplies
      simp [himplies] at hcnt

theorem scopeConsumers_nodup (tables : OrderTables) (p : VisualScopeId) :
    (scopeConsumers tables below prefixes p).Nodup := by
  refine nodup_append.mpr ⟨?_, ?_, ?_⟩
  · exact (sort_nodup (r := (· ≤ ·)) (s := tables.adjacency p)).filter _
  · exact (sort_nodup (r := (· ≤ ·)) (s := prefixes.consumers)).filter _
  · intro x hx y hy hxy
    subst hxy
    obtain ⟨-, hnot⟩ := mem_filter.mp hx
    obtain ⟨hin, hcont⟩ := mem_filter.mp hy
    have himplies : prefixes.implies below p x := implies_eq_true.mpr ⟨(mem_sort _).mp hin, hcont⟩
    simp [himplies] at hnot

theorem mem_scopeConsumers (hedges : Within known edges)
    (hconsumers : prefixes.consumers ⊆ known) (p x : VisualScopeId) :
    x ∈ scopeConsumers (scopeTables known below edges prefixes) below prefixes p ↔
      x ∈ scopeGraph known below edges prefixes p := by
  have hadj := (scopeTables_lists hedges below prefixes).mem_adjacency p x
  simp only [scopeConsumers, scopeTables, mem_scopeGraph, mem_append,
    mem_filter, mem_sort, hadj, Bool.not_eq_true']
  by_cases himplies : prefixes.implies below p x
  · obtain ⟨hx, hcont⟩ := implies_eq_true.mp himplies
    simp [himplies, hx, hcont, hconsumers hx]
  · have hnot : ¬(x ∈ prefixes.consumers ∧ below.prefixContains p (prefixes.prefixOf x)) :=
      mt implies_eq_true.mpr himplies
    simp only [himplies, hnot, and_true, or_false, Bool.false_eq_true]
    constructor
    · intro hedge
      exact ⟨(hedges _ hedge).2, hedge⟩
    · exact And.right

theorem Tree.WellFormed.exists_scopeOrder (h : Tree.WellFormed tree)
    (hedges : Within tree.knownScopes edges) (hconsumers : prefixes.consumers ⊆ tree.knownScopes) :
    ∃ sorted, Kahn.drain (Kahn.leastBy tree.below.compositeRank)
        (scopeConsumers (scopeTables tree.knownScopes tree.below edges
          prefixes) tree.below prefixes) tree.knownScopes.card
        (Kahn.start tree.knownScopes (scopeTables tree.knownScopes tree.below
          edges prefixes).indegree) = some sorted ∧
      Kahn.Drained tree.knownScopes (scopeGraph tree.knownScopes tree.below edges prefixes) sorted ∧
      Greedy tree.knownScopes (Kahn.Edge tree.knownScopes
        (scopeGraph tree.knownScopes tree.below edges prefixes))
        tree.below.compositeRank sorted.order :=
  Kahn.exists_drain _ (h.counted_scopes hedges hconsumers) (scopeConsumers_nodup _)
    (fun p _ x => mem_scopeConsumers hedges hconsumers p x)

end

/-!
## Groups as tasks

The second sort works on tasks.
-/

variable {Body : Type} {tree : Tree StableLayerId Body}

theorem Tree.WellFormed.membersOf_eq (h : Tree.WellFormed tree)
    {group : Group StableLayerId Body} (hgrp : group ∈ tree.groups) :
    tree.membersOf group.id = group.members := by
  have hsome : (tree.group group.id).isSome := tree.group_isSome_iff.mpr (mem_map_of_mem hgrp)
  obtain ⟨found, hfound⟩ := Option.isSome_iff_exists.mp hsome
  have hid : found.id = group.id := by simpa using find?_some hfound
  have heq : found = group :=
    inj_on_of_nodup_map h.groups_nodup (mem_of_find?_eq_some hfound) hgrp hid
  rw [Tree.membersOf, hfound, heq]

variable {member : StableLayerId}

theorem Tree.WellFormed.group_unique (h : Tree.WellFormed tree)
    {first second : GroupId} (hfst : member ∈ tree.membersOf first)
    (hsnd : member ∈ tree.membersOf second) : first = second := by
  have hscope : ∀ {groupId}, member ∈ tree.membersOf groupId →
      VisualScopeId.layer member ∈ tree.itemScopes (.group groupId) := by
    intro groupId hmem
    exact mem_append_left _ (mem_map_of_mem hmem)
  have heq := h.item_unique (h.rooted_of_member hfst)
    (h.rooted_of_member hsnd) (hscope hfst) (hscope hsnd)
  cases heq
  rfl

variable {groupId : GroupId}

theorem Tree.WellFormed.memberGroups_iff (h : Tree.WellFormed tree) :
    memberGroups tree member = some groupId ↔ member ∈ tree.membersOf groupId := by
  have hkeys : ((tree.groups.flatMap fun group =>
      group.members.map fun member => (member, group.id)).map Prod.fst) =
      tree.groups.flatMap Group.members := by
    simp [map_flatMap, comp_def]
  have hnd : (tree.groups.flatMap Group.members).Nodup := by
    refine nodup_flatMap.mpr ⟨?_, ?_⟩
    · intro group hgrp
      rw [← h.membersOf_eq hgrp]
      exact h.members_nodup group.id
    · refine (pairwise_map.mp h.groups_nodup).imp_of_mem ?_
      intro first second hfst hsnd hne x hx hy
      rw [← h.membersOf_eq hfst] at hx
      rw [← h.membersOf_eq hsnd] at hy
      exact hne (h.group_unique hx hy)
  rw [memberGroups, insertAll_eq_some_iff (hkeys ▸ hnd)]
  simp only [List.mem_flatMap, List.mem_map, Prod.mk.injEq]
  constructor
  · rintro ⟨group, hgrp, member', hmem, rfl, rfl⟩
    rw [h.membersOf_eq hgrp]
    exact hmem
  · intro hmem
    have hin := (h.rooted groupId).mp (Tree.mem_rootedGroups.mpr (h.rooted_of_member hmem))
    obtain ⟨group, hgrp, rfl⟩ := List.mem_map.mp hin
    rw [h.membersOf_eq hgrp] at hmem
    exact ⟨group, hgrp, member, hmem, rfl, rfl⟩

theorem Tree.WellFormed.taskFor_cases (h : Tree.WellFormed tree) (scope : VisualScopeId) :
    taskFor tree scope = scope ∨ ∃ member groupId, scope = .layer member ∧
      member ∈ tree.membersOf groupId ∧ taskFor tree scope = .group groupId := by
  cases scope with
  | layer layerId =>
    cases hgrp : memberGroups tree layerId with
    | none =>
      left
      rw [taskFor, hgrp]
    | some groupId =>
      right
      refine ⟨layerId, groupId, rfl, h.memberGroups_iff.mp hgrp, ?_⟩
      rw [taskFor, hgrp]
  | master | group groupId | program => exact .inl rfl

theorem Tree.WellFormed.taskFor_member (h : Tree.WellFormed tree)
    (hmem : member ∈ tree.membersOf groupId) :
    taskFor tree (.layer member) = .group groupId := by
  rw [taskFor, h.memberGroups_iff.mpr hmem]

section

variable {edges : Finset RouteEdge} {prefixes : PrefixConstraints}

/-- `t` must be executed before `u`: something of `t` stands before something
of `u`. -/
def TaskEdge (tree : Tree StableLayerId Body) (edges : Finset RouteEdge)
    (prefixes : PrefixConstraints) (t u : VisualScopeId) : Prop :=
  t ≠ u ∧ ∃ p x, ScopeEdge tree.below edges prefixes p x ∧ taskFor tree p = t ∧ taskFor tree x = u

theorem Tree.WellFormed.mem_taskEdges (h : Tree.WellFormed tree) {t u : VisualScopeId} :
    toLex (t, u) ∈ taskEdges tree.knownScopes tree tree.below edges prefixes ↔
      TaskEdge tree edges prefixes t u := by
  unfold taskEdges TaskEdge ScopeEdge
  simp only [Finset.mem_filter, Finset.mem_union, Finset.mem_image,
    Finset.mem_biUnion, toLex_inj, Prod.mk.injEq, ofLex_toLex]
  constructor
  · rintro ⟨⟨edge, hedge, rfl, rfl⟩ | ⟨x, hx, p, ⟨-, hcont⟩, rfl, rfl⟩, hne⟩
    · exact ⟨hne, _, _, .inl hedge, rfl, rfl⟩
    · exact ⟨hne, p, x, .inr (implies_eq_true.mpr ⟨hx, hcont⟩), rfl, rfl⟩
  · rintro ⟨hne, p, x, hedge | himplies, rfl, rfl⟩
    · exact ⟨.inl ⟨_, hedge, rfl, rfl⟩, hne⟩
    · obtain ⟨hx, hcont⟩ := implies_eq_true.mp himplies
      refine ⟨.inr ⟨x, hx, p, ⟨?_, hcont⟩, rfl, rfl⟩, hne⟩
      exact Tree.mem_knownScopes.mpr (Or.inl
        (h.prefixScopes_subset (Tree.prefixContains_iff.mp hcont)))

variable (tree edges prefixes) in
def taskGraph (t : VisualScopeId) : Finset VisualScopeId :=
  (tree.knownScopes.image (taskFor tree)).filter fun u =>
    toLex (t, u) ∈ taskEdges tree.knownScopes tree tree.below edges prefixes

theorem taskGraph_closed :
    ∀ t ∈ tree.knownScopes.image (taskFor tree),
      taskGraph tree edges prefixes t ⊆ tree.knownScopes.image (taskFor tree) := by
  intro t _
  exact Finset.filter_subset _ _

variable (h : Tree.WellFormed tree) (hedges : Within tree.knownScopes edges)
  (hconsumers : prefixes.consumers ⊆ tree.knownScopes)
include h hedges hconsumers

theorem Tree.WellFormed.known_of_scopeEdge {p x : VisualScopeId}
    (hedge : ScopeEdge tree.below edges prefixes p x) :
    p ∈ tree.knownScopes ∧ x ∈ tree.knownScopes := by
  rcases hedge with hedge | himplies
  · exact hedges _ hedge
  · obtain ⟨hx, hcont⟩ := implies_eq_true.mp himplies
    exact ⟨Tree.mem_knownScopes.mpr (Or.inl
      (h.prefixScopes_subset (Tree.prefixContains_iff.mp hcont))),
      hconsumers hx⟩

theorem Tree.WellFormed.within_taskEdges :
    Within (tree.knownScopes.image (taskFor tree))
      (taskEdges tree.knownScopes tree tree.below edges prefixes) := by
  intro edge hedge
  obtain ⟨-, p, x, hscope, hp, hx⟩ :=
    (h.mem_taskEdges (t := (ofLex edge).1) (u := (ofLex edge).2)).mp hedge
  obtain ⟨hp', hx'⟩ := h.known_of_scopeEdge hedges hconsumers hscope
  exact ⟨Finset.mem_image.mpr ⟨p, hp', hp⟩, Finset.mem_image.mpr ⟨x, hx', hx⟩⟩

theorem Tree.WellFormed.exists_taskOrder :
    ∃ tables sorted,
      (taskEdges tree.knownScopes tree tree.below edges prefixes).sort.foldlM
        (addTaskEdge (tree.knownScopes.image (taskFor tree))) .empty =
        some tables ∧
      Kahn.drain (Kahn.leastBy tree.below.compositeRank) (fun task => (tables.adjacency task).sort)
        (tree.knownScopes.image (taskFor tree)).card
        (Kahn.start (tree.knownScopes.image (taskFor tree)) tables.indegree) =
        some sorted ∧
      Kahn.Drained (tree.knownScopes.image (taskFor tree)) (taskGraph tree edges prefixes) sorted ∧
      Greedy (tree.knownScopes.image (taskFor tree))
        (Kahn.Edge (tree.knownScopes.image (taskFor tree))
          (taskGraph tree edges prefixes)) tree.below.compositeRank
        sorted.order := by
  have hwith := h.within_taskEdges hedges hconsumers
  obtain ⟨tables, hfold, hlists⟩ := lists_foldlM_addTaskEdge
    (taskEdges tree.knownScopes tree tree.below edges prefixes).sort
    (OrderTables.lists_empty _)
    (fun edge hedge => hwith edge ((Finset.mem_sort _).mp hedge))
  rw [nil_append] at hlists
  have hmem : ∀ t u, u ∈ tables.adjacency t ↔ u ∈ taskGraph tree edges prefixes t := by
    intro t u
    rw [hlists.mem_adjacency, Finset.mem_sort, taskGraph, Finset.mem_filter]
    constructor
    · intro hedge
      exact ⟨(hwith _ hedge).2, hedge⟩
    · exact And.right
  have hcnt : Kahn.Counted (tree.knownScopes.image (taskFor tree))
      (taskGraph tree edges prefixes) tables.indegree := by
    refine ⟨taskGraph_closed, ?_⟩
    intro u
    rw [hlists.indegree_eq, Kahn.producers]
    simp [← hmem, hlists.mem_adjacency]
  have hnd : ∀ task, ((tables.adjacency task).sort).Nodup := by
    intro task
    exact Finset.sort_nodup (r := (· ≤ ·)) (s := tables.adjacency task)
  obtain ⟨sorted, hsort⟩ := Kahn.exists_drain tree.below.compositeRank hcnt hnd
    (fun t _ u => (Finset.mem_sort _).trans (hmem t u))
  exact ⟨tables, sorted, hfold, hsort⟩

end

end CollideOScope.Composition
