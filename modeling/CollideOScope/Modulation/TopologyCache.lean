import CollideOScope.Modulation.Frame

/-!
# Topology signatures

A signature lists what the compiler of the book reads: the racks in order, the
nodes of each with kind and shape, and whether each group has a matte.  The
targets of a topology can be read back from its signature, so topologies with
equal signatures compile alike.
-/

namespace CollideOScope.Modulation

open Composition List

inductive StableModTopologyAtom
  | rack (scope : StableModScope)
  | groupMatte (groupId : GroupId) (present : Bool)
  | node (nodeId : NodeId) (kind : NodeKindTag) (modulationShape : ℕ)
  deriving DecidableEq

section

variable (masterRack : RuntimeVisualRack) (layerRacks : List (StableLayerId × RuntimeVisualRack))
  (composition : RuntimeComposition)

def nodeAtoms (rack : RuntimeVisualRack) : List StableModTopologyAtom :=
  rack.nodes.map fun node => .node node.stableId node.kind.tag (stableModNodeShape node)

/-- `push_stable_mod_rack_signature`: what it appends. -/
def rackSignature (scope : StableModScope) (rack : RuntimeVisualRack) :
    List StableModTopologyAtom :=
  .rack scope :: nodeAtoms rack

def groupSignature (group : RuntimeGroup) : List StableModTopologyAtom :=
  .groupMatte group.id group.body.matte.isSome ::
    rackSignature (.group group.id) group.body.rack

/-- `collect_stable_mod_topology_signature`. -/
def topologySignature : List StableModTopologyAtom :=
  rackSignature .master masterRack ++
    layerRacks.flatMap (fun layer => rackSignature (.layer layer.1) layer.2) ++
    composition.tree.groups.flatMap groupSignature

end

namespace StableModTopologyAtom

def isGroupMatte : StableModTopologyAtom → Bool
  | groupMatte .. => true
  | _ => false

/-- The targets that atoms stand for, in the scope of the rack before them. -/
def targets : StableModScope → List StableModTopologyAtom → List StableModTarget
  | _, [] => []
  | _, rack scope :: rest => targets scope rest
  | scope, groupMatte groupId present :: rest => groupValues groupId present ++ targets scope rest
  | scope, node nodeId kind shape :: rest =>
    NodeSite.targets ⟨scope, nodeId, kind, shape⟩ ++ targets scope rest

variable (scope : StableModScope)

theorem targets_nodeAtoms (rack : RuntimeVisualRack) (rest : List StableModTopologyAtom) :
    targets scope (nodeAtoms rack ++ rest) = rackTargets scope rack ++ targets scope rest := by
  rw [nodeAtoms, rackTargets]
  induction rack.nodes with
  | nil => rfl
  | cons node nodes ih =>
    rw [map_cons, cons_append, targets, ih, flatMap_cons, append_assoc]
    rfl

theorem targets_rackSignature (earlier scope : StableModScope)
    (rack : RuntimeVisualRack) (rest : List StableModTopologyAtom) :
    targets earlier (rackSignature scope rack ++ rest) =
      rackTargets scope rack ++ targets scope rest := by
  rw [rackSignature, cons_append, targets, targets_nodeAtoms]

theorem targets_layers (layerRacks : List (StableLayerId × RuntimeVisualRack)) :
    targets scope (layerRacks.flatMap fun layer =>
        rackSignature (.layer layer.1) layer.2) =
      layerRacks.flatMap fun layer => rackTargets (.layer layer.1) layer.2 := by
  induction layerRacks generalizing scope with
  | nil => rfl
  | cons layer layers ih => rw [flatMap_cons, targets_rackSignature, ih, flatMap_cons]

theorem targets_groups (groups : List RuntimeGroup) :
    targets scope (groups.flatMap groupSignature) = groups.flatMap groupTargets := by
  induction groups generalizing scope with
  | nil => rfl
  | cons group groups ih =>
    rw [flatMap_cons, groupSignature, cons_append, targets, targets_rackSignature, ih,
      flatMap_cons, groupTargets, append_assoc]

end StableModTopologyAtom

open StableModTopologyAtom

theorem isGroupMatte_rackSignature (scope : StableModScope) (rack : RuntimeVisualRack) :
    ∀ atom ∈ rackSignature scope rack, ¬atom.isGroupMatte := by
  intro atom hatom
  rcases mem_cons.mp hatom with rfl | hnode
  · simp [isGroupMatte]
  · obtain ⟨node, -, rfl⟩ := mem_map.mp hnode
    simp [isGroupMatte]

/-- The targets of a signature: those of the racks before the first group, the
crossfade, and those of the groups. -/
def signatureTargets (signature : List StableModTopologyAtom) : List StableModTarget :=
  targets .master (signature.takeWhile fun atom => !atom.isGroupMatte) ++
    .compositionValue .busCrossfade ::
      targets .master (signature.dropWhile fun atom => !atom.isGroupMatte)

theorem signatureTargets_topologySignature (masterRack : RuntimeVisualRack)
    (layerRacks : List (StableLayerId × RuntimeVisualRack)) (composition : RuntimeComposition) :
    signatureTargets (topologySignature masterRack layerRacks composition) =
      topologyTargets masterRack layerRacks composition := by
  have hracks : ∀ atom ∈ rackSignature .master masterRack ++
      layerRacks.flatMap (fun layer => rackSignature (.layer layer.1) layer.2),
      (!atom.isGroupMatte) = true := by
    intro atom hatom
    rw [Bool.not_eq_true', ← Bool.not_eq_true]
    rcases mem_append.mp hatom with hmaster | hlays
    · exact isGroupMatte_rackSignature _ _ atom hmaster
    · obtain ⟨layer, -, hlayer⟩ := mem_flatMap.mp hlays
      exact isGroupMatte_rackSignature _ _ atom hlayer
  have htake : (composition.tree.groups.flatMap groupSignature).takeWhile
      (fun atom => !atom.isGroupMatte) = [] := by
    cases composition.tree.groups <;> rfl
  have hdrop : (composition.tree.groups.flatMap groupSignature).dropWhile
      (fun atom => !atom.isGroupMatte) = composition.tree.groups.flatMap groupSignature := by
    cases composition.tree.groups <;> rfl
  rw [signatureTargets, topologySignature, takeWhile_append_of_pos hracks,
    dropWhile_append_of_pos hracks, htake, hdrop, append_nil,
    targets_rackSignature, targets_layers, targets_groups, topologyTargets]

theorem fromComposition_congr {masterRack masterRack' : RuntimeVisualRack}
    {layerRacks layerRacks' : List (StableLayerId × RuntimeVisualRack)}
    {composition composition' : RuntimeComposition}
    (h : topologySignature masterRack layerRacks composition =
      topologySignature masterRack' layerRacks' composition') :
    StableModAddressBook.fromComposition masterRack layerRacks composition =
      StableModAddressBook.fromComposition masterRack' layerRacks' composition' := by
  rw [StableModAddressBook.fromComposition_eq, StableModAddressBook.fromComposition_eq,
    ← signatureTargets_topologySignature, h, signatureTargets_topologySignature]

inductive StableModInvalidationReason
  | coldStart | layerMembershipOrOrder | groupMembershipOrOrder
  | nodeMembershipOrOrder | nodeKindOrModulationShape | groupMatteTopology
  | forcedRecompileMismatch | unclassifiedSignatureChange
  deriving DecidableEq

abbrev StableModInvalidationReasons := Finset StableModInvalidationReason

/-- `stable_mod_rack_scopes`. -/
def rackScopes (signature : List StableModTopologyAtom) : List StableModScope :=
  signature.filterMap fun
    | .rack scope => some scope
    | _ => none

/-- `stable_mod_layer_order`. -/
def layerOrder (signature : List StableModTopologyAtom) : List StableLayerId :=
  (rackScopes signature).filterMap fun
    | .layer layerId => some layerId
    | _ => none

/-- `stable_mod_group_order`. -/
def groupOrder (signature : List StableModTopologyAtom) : List GroupId :=
  (rackScopes signature).filterMap fun
    | .group groupId => some groupId
    | _ => none

/-- `stable_mod_group_matte`. -/
def groupMatte (signature : List StableModTopologyAtom) (wanted : GroupId) : Option Bool :=
  signature.findSome? fun
    | .groupMatte groupId present => if groupId = wanted then some present else none
    | _ => none

/-- `stable_mod_nodes_in_scope`, behind a rack of the scope given first. -/
def nodesInScope (wanted : StableModScope) :
    Option StableModScope → List StableModTopologyAtom → List (NodeId × NodeKindTag × ℕ)
  | _, [] => []
  | _, .rack scope :: rest => nodesInScope wanted (some scope) rest
  | scope, .groupMatte .. :: rest => nodesInScope wanted scope rest
  | scope, .node nodeId kind shape :: rest =>
    if scope = some wanted then (nodeId, kind, shape) :: nodesInScope wanted scope rest
    else nodesInScope wanted scope rest

/-- The reason a rack that both signatures have gives. -/
def rackReasons (old new : List StableModTopologyAtom) (scope : StableModScope) :
    StableModInvalidationReasons :=
  let oldNodes := nodesInScope scope none old
  let newNodes := nodesInScope scope none new
  if scope ∉ rackScopes new then ∅
  else if oldNodes.map Prod.fst ≠ newNodes.map Prod.fst then {.nodeMembershipOrOrder}
  else if oldNodes.map Prod.snd ≠ newNodes.map Prod.snd then {.nodeKindOrModulationShape}
  else ∅

def matteReasons (old new : List StableModTopologyAtom) (groupId : GroupId) :
    StableModInvalidationReasons :=
  match groupMatte new groupId with
  | none => ∅
  | some present => if groupMatte old groupId ≠ some present then {.groupMatteTopology} else ∅

/-- `classify_stable_mod_signature_change`. -/
def classifySignatureChange (old new : List StableModTopologyAtom) : StableModInvalidationReasons :=
  if old = [] then {.coldStart}
  else
    let layers : StableModInvalidationReasons :=
      if layerOrder old ≠ layerOrder new then {.layerMembershipOrOrder} else ∅
    let groups : StableModInvalidationReasons :=
      if groupOrder old ≠ groupOrder new then {.groupMembershipOrOrder} else ∅
    let mattes := (groupOrder old).foldl
      (fun reasons groupId => reasons ∪ matteReasons old new groupId) ∅
    let racks := (rackScopes old).foldl
      (fun reasons scope => reasons ∪ rackReasons old new scope) ∅
    let reasons := layers ∪ groups ∪ mattes ∪ racks
    if reasons = ∅ then {.unclassifiedSignatureChange} else reasons

/-!
## The topology cache

The cache keeps a compiled book with the signature of its topology.
-/

open Composition

structure StableModTopologyCacheStats where
  queries : ℕ
  hits : ℕ
  invalidations : ℕ
  addressBookRebuilds : ℕ
  forcedRecompiles : ℕ
  forcedRecompileMismatches : ℕ
  structuralRevision : ℕ
  coldStartInvalidations : ℕ
  layerInvalidations : ℕ
  groupInvalidations : ℕ
  nodeMembershipInvalidations : ℕ
  (nodeShapeInvalidations groupMatteInvalidations unclassifiedInvalidations : ℕ)
  lastInvalidationReasons : StableModInvalidationReasons

def StableModTopologyCacheStats.zero : StableModTopologyCacheStats :=
  ⟨0, 0, 0, 0, 0, 0, 0, 0, 0, 0, 0, 0, 0, 0, ∅⟩

/-- Lists stand for the buffers; their capacities are left out. -/
structure StableModTopologyCache where
  initialized : Bool
  (signature signatureScratch : List StableModTopologyAtom)
  addressBook : StableModAddressBook
  offsets : List F32
  forceRecompileVerification : Bool
  stats : StableModTopologyCacheStats

/-- The arguments of `evaluate`. -/
structure EvaluateCall where
  routings : List Routing
  masterRack : RuntimeVisualRack
  layerRacks : List (StableLayerId × RuntimeVisualRack)
  composition : RuntimeComposition

namespace EvaluateCall

def signature (call : EvaluateCall) : List StableModTopologyAtom :=
  topologySignature call.masterRack call.layerRacks call.composition

def compile (call : EvaluateCall) : Except AddressBookError StableModAddressBook :=
  StableModAddressBook.fromComposition call.masterRack call.layerRacks call.composition

end EvaluateCall

namespace StableModTopologyCache

/-- `with_forced_recompile_verification`; the default cache takes the flag from
the environment. -/
def withForcedRecompileVerification (enabled : Bool) : StableModTopologyCache :=
  ⟨false, [], [], .empty, [], enabled, .zero⟩

def countReason (reasons : StableModInvalidationReasons)
    (reason : StableModInvalidationReason) (count : ℕ) : ℕ :=
  if reason ∈ reasons then saturatingAddU64 count 1 else count

def recordInvalidation (cache : StableModTopologyCache)
    (reasons : StableModInvalidationReasons) : StableModTopologyCache :=
  { cache with stats := { cache.stats with
      invalidations := saturatingAddU64 cache.stats.invalidations 1
      addressBookRebuilds := saturatingAddU64 cache.stats.addressBookRebuilds 1
      structuralRevision := saturatingAddU64 cache.stats.structuralRevision 1
      lastInvalidationReasons := reasons
      coldStartInvalidations := countReason reasons .coldStart cache.stats.coldStartInvalidations
      layerInvalidations :=
        countReason reasons .layerMembershipOrOrder cache.stats.layerInvalidations
      groupInvalidations :=
        countReason reasons .groupMembershipOrOrder cache.stats.groupInvalidations
      nodeMembershipInvalidations :=
        countReason reasons .nodeMembershipOrOrder cache.stats.nodeMembershipInvalidations
      nodeShapeInvalidations :=
        countReason reasons .nodeKindOrModulationShape cache.stats.nodeShapeInvalidations
      groupMatteInvalidations :=
        countReason reasons .groupMatteTopology cache.stats.groupMatteInvalidations
      unclassifiedInvalidations :=
        countReason reasons .unclassifiedSignatureChange cache.stats.unclassifiedInvalidations } }

def ensureOffsetCapacity (cache : StableModTopologyCache) : StableModTopologyCache :=
  { cache with offsets := resize cache.offsets cache.addressBook.targets.length 0 }

/-- `from_precompiled_composition`, on a default cache. -/
def fromPrecompiledComposition (enabled : Bool)
    (compiled : StableModAddressBook) (call : EvaluateCall) :
    StableModTopologyCache :=
  let cache := { withForcedRecompileVerification enabled with
    signatureScratch := call.signature
    signature := call.signature
    addressBook := compiled
    initialized := true }
  (cache.recordInvalidation {.coldStart}).ensureOffsetCapacity

/-- The query is counted and its signature collected. -/
def refreshSignatureScratch (cache : StableModTopologyCache)
    (call : EvaluateCall) : StableModTopologyCache :=
  { cache with
    signatureScratch := call.signature
    stats := { cache.stats with queries := saturatingAddU64 cache.stats.queries 1 } }

def rebuild (cache : StableModTopologyCache) (call : EvaluateCall) :
    StableModTopologyCache × Except AddressBookError Unit :=
  let reasons :=
    if cache.initialized then classifySignatureChange cache.signature cache.signatureScratch
    else {.coldStart}
  match call.compile with
  | .error error => (cache, .error error)
  | .ok compiled =>
    let cache := { cache with
      signature := cache.signatureScratch
      addressBook := compiled
      initialized := true }
    ((cache.recordInvalidation reasons).ensureOffsetCapacity, .ok ())

def hit (cache : StableModTopologyCache) : StableModTopologyCache :=
  { cache with stats := { cache.stats with hits := saturatingAddU64 cache.stats.hits 1 } }

def verify (cache : StableModTopologyCache) (call : EvaluateCall) :
    StableModTopologyCache × Except AddressBookError Unit :=
  let cache := { cache with stats := { cache.stats with
    forcedRecompiles := saturatingAddU64 cache.stats.forcedRecompiles 1 } }
  match call.compile with
  | .error error => (cache, .error error)
  | .ok forced =>
    if forced ≠ cache.addressBook then
      let cache := { cache with
        addressBook := forced
        stats := { cache.stats with
          forcedRecompileMismatches := saturatingAddU64 cache.stats.forcedRecompileMismatches 1 } }
      ((cache.recordInvalidation {.forcedRecompileMismatch}).ensureOffsetCapacity, .ok ())
    else (cache.hit, .ok ())

def refreshAddressBook (cache : StableModTopologyCache) (call : EvaluateCall) :
    StableModTopologyCache × Except AddressBookError Unit :=
  let cache := cache.refreshSignatureScratch call
  if ¬cache.initialized ∨ cache.signature ≠ cache.signatureScratch then cache.rebuild call
  else if cache.forceRecompileVerification then cache.verify call
  else (cache.hit, .ok ())

/-- `evaluate`: the book and the offsets of the frame. -/
def evaluate (cache : StableModTopologyCache) (call : EvaluateCall) :
    StableModTopologyCache × Except AddressBookError (StableModAddressBook × List F32) :=
  match cache.refreshAddressBook call with
  | (cache, .error error) => (cache, .error error)
  | (cache, .ok ()) =>
    let cache := { cache with
      offsets := stableFrameInto call.routings cache.addressBook cache.offsets }
    (cache, .ok (cache.addressBook, cache.offsets))

def run (cache : StableModTopologyCache) (calls : List EvaluateCall) : StableModTopologyCache :=
  calls.foldl (fun cache call => (cache.evaluate call).1) cache

def Mismatches (cache : StableModTopologyCache) (call : EvaluateCall) : Prop :=
  cache.initialized ∧ cache.signature = call.signature ∧
    cache.forceRecompileVerification ∧
    ∃ forced, call.compile = .ok forced ∧ forced ≠ cache.addressBook

/-- The book is the compiled topology of the signature, and no verification has
failed. -/
structure Current (cache : StableModTopologyCache) : Prop where
  compiled : cache.initialized → ∃ call : EvaluateCall,
    call.signature = cache.signature ∧ call.compile = .ok cache.addressBook
  noMismatch : cache.stats.forcedRecompileMismatches = 0

variable {cache : StableModTopologyCache} {call : EvaluateCall}

theorem Current.compile_eq (h : cache.Current) (hinit : cache.initialized)
    (hsig : cache.signature = call.signature) :
    call.compile = .ok cache.addressBook := by
  obtain ⟨first, hfst, hcomp⟩ := h.compiled hinit
  have hcongr : call.compile = first.compile := fromComposition_congr (hsig.symm.trans hfst.symm)
  rw [hcongr, hcomp]

theorem Current.not_mismatches (h : cache.Current) (call : EvaluateCall) :
    ¬cache.Mismatches call := by
  rintro ⟨hinit, hsig, -, forced, hforced, hne⟩
  rw [h.compile_eq hinit hsig] at hforced
  exact hne (Except.ok.inj hforced).symm

/-- What a refresh leaves of a current cache: the book of the call when it
compiles, and else the signature, the book and the revision from before. -/
inductive Refreshed (cache : StableModTopologyCache) (call : EvaluateCall) :
    StableModTopologyCache × Except AddressBookError Unit → Prop
  | accepted (next : StableModTopologyCache) (hcurrent : next.Current)
      (hcompile : call.compile = .ok next.addressBook) :
      Refreshed cache call (next, .ok ())
  | refused (next : StableModTopologyCache) (error : AddressBookError)
      (hcurrent : next.Current) (hcompile : call.compile = .error error)
      (hsignature : next.signature = cache.signature)
      (hbook : next.addressBook = cache.addressBook)
      (hrevision : next.stats.structuralRevision = cache.stats.structuralRevision) :
      Refreshed cache call (next, .error error)

theorem Refreshed.of_refreshSignatureScratch
    {refreshed : StableModTopologyCache × Except AddressBookError Unit}
    (h : Refreshed (cache.refreshSignatureScratch call) call refreshed) :
    Refreshed cache call refreshed := by
  cases h with
  | accepted next hcur hcomp => exact .accepted next hcur hcomp
  | refused next error hcur hcomp hsig hbook hrev =>
    exact .refused next error hcur hcomp hsig hbook hrev

section

variable (h : cache.Current)
include h

theorem Current.rebuild (call : EvaluateCall) (hscratch : cache.signatureScratch = call.signature) :
    Refreshed cache call (cache.rebuild call) := by
  rw [StableModTopologyCache.rebuild]
  cases hcomp : call.compile with
  | error error => exact .refused _ error h hcomp rfl rfl rfl
  | ok compiled =>
    refine .accepted _ ⟨?_, h.noMismatch⟩ hcomp
    intro _
    exact ⟨call, hscratch.symm, hcomp⟩

theorem Current.verify (hinit : cache.initialized) (hsig : cache.signature = call.signature) :
    Refreshed cache call (cache.verify call) := by
  have hcomp := h.compile_eq hinit hsig
  rw [StableModTopologyCache.verify, hcomp]
  simp only [ne_eq, not_true_eq_false, if_false]
  exact .accepted _ ⟨h.compiled, h.noMismatch⟩ hcomp

theorem Current.refresh (call : EvaluateCall) :
    Refreshed cache call (cache.refreshAddressBook call) := by
  have hscratch : (cache.refreshSignatureScratch call).Current := ⟨h.compiled, h.noMismatch⟩
  rw [refreshAddressBook]
  apply Refreshed.of_refreshSignatureScratch
  split_ifs with hchanged hforce
  · exact hscratch.rebuild call rfl
  · rw [not_or, not_not, not_not] at hchanged
    exact hscratch.verify hchanged.1 hchanged.2
  · rw [not_or, not_not, not_not] at hchanged
    exact .accepted _ ⟨h.compiled, h.noMismatch⟩ (h.compile_eq hchanged.1 hchanged.2)

theorem Current.evaluate (call : EvaluateCall) :
    (cache.evaluate call).1.Current ∧
      (cache.evaluate call).2 = call.compile.map (fun book =>
        (book, stableFrame call.routings book)) ∧
      ∀ error, (cache.evaluate call).2 = .error error →
        (cache.evaluate call).1.signature = cache.signature ∧
        (cache.evaluate call).1.addressBook = cache.addressBook ∧
        (cache.evaluate call).1.stats.structuralRevision = cache.stats.structuralRevision := by
  have hrefresh := h.refresh call
  rw [StableModTopologyCache.evaluate]
  generalize cache.refreshAddressBook call = refreshed at hrefresh
  cases hrefresh with
  | accepted next hcur hcomp =>
    refine ⟨⟨hcur.compiled, hcur.noMismatch⟩, ?_, ?_⟩
    · rw [hcomp]
      simp only [Except.map, stableFrameInto_eq]
    · intro error herr
      cases herr
  | refused next error hcur hcomp hsig hbook hrev =>
    refine ⟨hcur, ?_, ?_⟩
    · rw [hcomp]
      rfl
    · intro _ _
      exact ⟨hsig, hbook, hrev⟩

theorem Current.run (calls : List EvaluateCall) : (cache.run calls).Current := by
  induction calls generalizing cache with
  | nil => exact h
  | cons call calls ih => exact ih (h.evaluate call).1

end

inductive Started : StableModTopologyCache → Prop
  | empty (enabled : Bool) : Started (withForcedRecompileVerification enabled)
  | precompiled (enabled : Bool) (call : EvaluateCall)
      (book : StableModAddressBook) (hcompile : call.compile = .ok book) :
      Started (fromPrecompiledComposition enabled book call)

theorem Started.current (h : cache.Started) : cache.Current := by
  cases h with
  | empty enabled =>
    refine ⟨?_, rfl⟩
    intro hinit
    cases hinit
  | precompiled enabled call book hcomp =>
    refine ⟨?_, rfl⟩
    intro _
    exact ⟨call, rfl, hcomp⟩

/-- After any calls a call returns the book that a fresh compiler makes of its
arguments, with the offsets over it, or the error of the compiler. -/
theorem evaluate_run {start : StableModTopologyCache} (hstart : start.Started)
    (history : List EvaluateCall) (call : EvaluateCall) :
    let cache := start.run history
    let next := (cache.evaluate call).1
    let result := (cache.evaluate call).2
    result = call.compile.map (fun book => (book, stableFrame call.routings book)) ∧
      (cache.initialized → cache.signature = call.signature →
        ∃ book, result = .ok (book, stableFrame call.routings book)) ∧
      (∀ error, result = .error error →
        next.signature = cache.signature ∧
        next.addressBook = cache.addressBook ∧
        next.stats.structuralRevision = cache.stats.structuralRevision) ∧
      ¬cache.Mismatches call ∧ next.stats.forcedRecompileMismatches = 0 := by
  intro cache next result
  have hcurrent : cache.Current := hstart.current.run history
  obtain ⟨hnext, hresult, hrefused⟩ := hcurrent.evaluate call
  refine ⟨hresult, ?_, hrefused, hcurrent.not_mismatches call, hnext.noMismatch⟩
  intro hinitialized hsignature
  refine ⟨cache.addressBook, ?_⟩
  rw [show result = _ from hresult, hcurrent.compile_eq hinitialized hsignature]
  rfl

/-- A frame of one cellular node and no routings. -/
def cellularCall : EvaluateCall := ⟨[], cellularRack, [], plainComposition⟩

theorem evaluate_run_cellular :
    let cache := (withForcedRecompileVerification true).run [cellularCall]
    let next := (cache.evaluate cellularCall).1
    let result := (cache.evaluate cellularCall).2
    result = cellularCall.compile.map (fun book => (book, stableFrame cellularCall.routings book)) ∧
      (cache.initialized → cache.signature = cellularCall.signature →
        ∃ book, result = .ok (book, stableFrame cellularCall.routings book)) ∧
      (∀ error, result = .error error →
        next.signature = cache.signature ∧
        next.addressBook = cache.addressBook ∧
        next.stats.structuralRevision = cache.stats.structuralRevision) ∧
      ¬cache.Mismatches cellularCall ∧
      next.stats.forcedRecompileMismatches = 0 :=
  evaluate_run (.empty true) [cellularCall] cellularCall

end StableModTopologyCache

end CollideOScope.Modulation
