import CollideOScope.Composition.Below
import Mathlib.Data.Finset.Union

/-!
# The execution order of a frame plan

A plan executes its scopes after everything they sample in the same frame.  Two
sorts follow each other: one over scopes, and one over tasks, in which a group
stands for its members too.  The edges of a prefix are never spelled out: a
consumer counts the whole prefix at once, and an explicit edge that its prefix
also names is left out of its count.

The result is `none` when the source would stop at an `expect` or at an
assertion, and otherwise what it returns.
-/

namespace CollideOScope.Composition

open Function VisualScopeId

variable {Body : Type}

/-- A producer and a consumer, ordered like the pairs of the source. -/
abbrev RouteEdge := VisualScopeId ×ₗ VisualScopeId

/-- The prefix of each consumer of an "all below" tap. -/
structure PrefixConstraints where
  consumers : Finset VisualScopeId
  prefixOf : VisualScopeId → CompositePrefix

namespace PrefixConstraints

def empty : PrefixConstraints := ⟨∅, fun _ => .root 0⟩

def get (prefixes : PrefixConstraints) (consumer : VisualScopeId) : Option CompositePrefix :=
  if consumer ∈ prefixes.consumers then some (prefixes.prefixOf consumer)
  else none

def implies (prefixes : PrefixConstraints) (below : BelowTopology)
    (producer consumer : VisualScopeId) : Bool :=
  match prefixes.get consumer with
  | none => false
  | some compositePrefix => below.prefixContains producer compositePrefix

end PrefixConstraints

def memberEdges (tree : Tree StableLayerId Body) : Finset RouteEdge :=
  (tree.groups.flatMap fun group =>
    group.members.map fun member =>
      toLex (VisualScopeId.layer member, VisualScopeId.group group.id)).toFinset

def outputEdges (below : BelowTopology) : Finset RouteEdge :=
  (below.rootOutputs.map fun output => toLex (output, master)).toFinset

def explicitEdges (tree : Tree StableLayerId Body) (below : BelowTopology)
    (routes : Finset RouteEdge) : Finset RouteEdge :=
  insert (toLex (master, program)) (routes ∪ memberEdges tree ∪ outputEdges below)

structure OrderTables where
  adjacency : VisualScopeId → Finset VisualScopeId
  indegree : VisualScopeId → ℕ

namespace OrderTables

def empty : OrderTables := ⟨fun _ => ∅, fun _ => 0⟩

/-- Insert an edge and, if it is new and `counted`, count it. -/
def insert (s : OrderTables) (producer consumer : VisualScopeId) (counted : Bool) : OrderTables :=
  if consumer ∈ s.adjacency producer then s
  else {
    adjacency := update s.adjacency producer
      (Insert.insert consumer (s.adjacency producer))
    indegree :=
      if counted then update s.indegree consumer (s.indegree consumer + 1)
      else s.indegree }

end OrderTables

def addScopeEdge (known : Finset VisualScopeId) (below : BelowTopology)
    (prefixes : PrefixConstraints) (s : OrderTables) (edge : RouteEdge) :
    OrderTables :=
  let producer := (ofLex edge).1
  let consumer := (ofLex edge).2
  if producer ∉ known ∨ consumer ∉ known then s
  else s.insert producer consumer (!prefixes.implies below producer consumer)

def addPrefix (known : Finset VisualScopeId) (below : BelowTopology) (prefixes : PrefixConstraints)
    (indegree : VisualScopeId → ℕ) (consumer : VisualScopeId) : VisualScopeId → ℕ :=
  if consumer ∉ known then indegree
  else update indegree consumer
    (indegree consumer + below.prefixLen (prefixes.prefixOf consumer))

def scopeTables (known : Finset VisualScopeId) (below : BelowTopology)
    (edges : Finset RouteEdge) (prefixes : PrefixConstraints) : OrderTables :=
  let s := edges.sort.foldl (addScopeEdge known below prefixes) .empty
  { s with indegree := prefixes.consumers.sort.foldl (addPrefix known below prefixes) s.indegree }

/-- The consumers that a scope releases: those it has an edge to that their
prefix does not name, then those whose prefix contains it. -/
def scopeConsumers (tables : OrderTables) (below : BelowTopology)
    (prefixes : PrefixConstraints) (scope : VisualScopeId) :
    List VisualScopeId :=
  ((tables.adjacency scope).sort.filter fun consumer =>
      !prefixes.implies below scope consumer) ++
    prefixes.consumers.sort.filter fun consumer =>
      below.prefixContains scope (prefixes.prefixOf consumer)

def memberGroups (tree : Tree StableLayerId Body) : StableLayerId → Option GroupId :=
  insertAll (fun _ => none) (tree.groups.flatMap fun group =>
    group.members.map fun member => (member, group.id))

/-- A member is part of the task of its group. -/
def taskFor (tree : Tree StableLayerId Body) : VisualScopeId → VisualScopeId
  | .layer layerId =>
    match memberGroups tree layerId with
    | none => .layer layerId
    | some groupId => .group groupId
  | .master => .master
  | .group groupId => .group groupId
  | .program => .program

def taskEdges (known : Finset VisualScopeId) (tree : Tree StableLayerId Body)
    (below : BelowTopology) (edges : Finset RouteEdge) (prefixes : PrefixConstraints) :
    Finset RouteEdge :=
  (edges.image (fun edge => toLex (taskFor tree (ofLex edge).1, taskFor tree (ofLex edge).2)) ∪
    prefixes.consumers.biUnion fun consumer =>
      (known.filter fun producer =>
        below.prefixContains producer (prefixes.prefixOf consumer)).image
        fun producer => toLex (taskFor tree producer, taskFor tree consumer))
    |>.filter fun edge => (ofLex edge).1 ≠ (ofLex edge).2

def addTaskEdge (tasks : Finset VisualScopeId) (s : OrderTables)
    (edge : RouteEdge) : Option OrderTables :=
  let producer := (ofLex edge).1
  let consumer := (ofLex edge).2
  if consumer ∈ s.adjacency producer then some s
  else if consumer ∉ tasks then none
  else some (s.insert producer consumer true)

def taskScopes (tree : Tree StableLayerId Body)
    (scopeOrder : List VisualScopeId) (task : VisualScopeId) :
    List VisualScopeId :=
  match task with
  | .group _ => scopeOrder.filter fun scope => taskFor tree scope = task
  | _ => [task]

def atomicGroupExecutionOrder (scopeOrder : List VisualScopeId) (known : Finset VisualScopeId)
    (tree : Tree StableLayerId Body) (below : BelowTopology) (edges : Finset RouteEdge)
    (prefixes : PrefixConstraints) :
    Option (Except CompositionPlanError (List VisualScopeId)) := do
  let tasks := known.image (taskFor tree)
  let tables ← (taskEdges known tree below edges prefixes).sort.foldlM
    (addTaskEdge tasks) .empty
  let sorted ← Kahn.drain (Kahn.leastBy below.compositeRank)
    (fun task => (tables.adjacency task).sort) tasks.card
    (Kahn.start tasks tables.indegree)
  if sorted.order.length ≠ tasks.card then
    return .error (.atomicGroupCycle ((tasks.filter fun task => sorted.indegree task ≠ 0).sort))
  let order := sorted.order.flatMap (taskScopes tree scopeOrder)
  if order.length ≠ scopeOrder.length then none
  else return .ok order

def executionOrder (known : Finset VisualScopeId) (tree : Tree StableLayerId Body)
    (below : BelowTopology) (routes : Finset RouteEdge) (prefixes : PrefixConstraints) :
    Option (Except CompositionPlanError (List VisualScopeId)) := do
  let edges := explicitEdges tree below routes
  let tables := scopeTables known below edges prefixes
  let sorted ← Kahn.drain (Kahn.leastBy below.compositeRank)
    (scopeConsumers tables below prefixes) known.card
    (Kahn.start known tables.indegree)
  if sorted.order.length ≠ known.card then
    return .error (.currentCycle ((known.filter fun scope => sorted.indegree scope ≠ 0).sort))
  atomicGroupExecutionOrder sorted.order known tree below edges prefixes

end CollideOScope.Composition
