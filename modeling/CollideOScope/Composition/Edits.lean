import CollideOScope.Composition.Rack
import CollideOScope.Support.Machine
import CollideOScope.Support.Positions

/-!
# Edits of saved racks and compositions

A saved rack and a saved composition are built from parts and then edited: nodes
and groups are inserted at the cursor, removed and moved, and identities that
are kept elsewhere are observed.  Every edit answers what the source answers and
leaves the value the source leaves, also when it refuses.
-/

namespace CollideOScope.Composition

open Checks
open F32 (finiteClamp)

variable {T D : Type}

/-- `NodeId::new`, on the values of a 64-bit cursor. -/
def NodeId.new (value : ℕ) : Option NodeId :=
  if h : 0 < value ∧ value ≤ u64Max then some ⟨value, h⟩ else none

namespace VisualRack

def observeNodeReference (rack : VisualRack T D) (id : NodeId) : VisualRack T D :=
  if rack.nextNodeId ≠ 0 ∧ rack.nextNodeId ≤ id.val then
    { rack with nextNodeId := nextCursor id.val }
  else rack

def position (rack : VisualRack T D) (id : NodeId) : Option ℕ :=
  rack.nodes.findIdx? fun node => node.stableId = id

/-- `insert`.  A refused node is taken out again, but its identity stays
retired. -/
def insert (rack : VisualRack T D) (index : ℕ) (kind : NodeKind T D) :
    Except RackError NodeId × VisualRack T D :=
  if rack.nodes.length = maxNodesPerRack then (.error (.tooManyNodes maxNodesPerRack), rack)
  else if rack.nodes.length < index then (.error (.invalidMoveIndex index rack.nodes.length), rack)
  else
    match reservedId kind.tag with
    | some expected => (.error (.legacyMarkerId kind.tag expected), rack)
    | none =>
      match NodeId.new rack.nextNodeId with
      | none => (.error .nodeIdExhausted, rack)
      | some id =>
        let grown : VisualRack T D := {
          nodes := rack.nodes.insertIdx index (.authored id kind)
          nextNodeId := nextCursor rack.nextNodeId }
        match grown.budget with
        | .error error => (.error error, { grown with nodes := grown.nodes.eraseIdx index })
        | .ok _ => (.ok id, grown)

def push (rack : VisualRack T D) (kind : NodeKind T D) : Except RackError NodeId × VisualRack T D :=
  rack.insert rack.nodes.length kind

def remove (rack : VisualRack T D) (id : NodeId) : Option (VisualNode T D) × VisualRack T D :=
  if id = NodeId.legacyCanonical ∨ id = NodeId.legacyTemporal then (none, rack)
  else
    match rack.position id with
    | none => (none, rack)
    | some index => (rack.nodes[index]?, { rack with nodes := rack.nodes.eraseIdx index })

/-- `move_node`.  A refused move is taken back. -/
def moveNode (rack : VisualRack T D) (id : NodeId) (newIndex : ℕ)
    (scope : LegacyRackScope) : Except RackError Unit × VisualRack T D :=
  if rack.nodes.length ≤ newIndex then (.error (.invalidMoveIndex newIndex rack.nodes.length), rack)
  else
    match rack.position id with
    | none => (.error (.unknownNode id), rack)
    | some oldIndex =>
      let moved := { rack with nodes := moveItem oldIndex newIndex rack.nodes }
      match moved.validateForScope scope with
      | .error error =>
        (.error error, { moved with nodes := moveItem newIndex oldIndex moved.nodes })
      | .ok _ => (.ok (), moved)

end VisualRack

inductive RackEdit (T D : Type)
  | insert (index : ℕ) (kind : NodeKind T D)
  | push (kind : NodeKind T D)
  | remove (id : NodeId)
  | moveNode (id : NodeId) (newIndex : ℕ) (scope : LegacyRackScope)
  | observeNodeReference (id : NodeId)

def RackEdit.apply (rack : VisualRack T D) : RackEdit T D → VisualRack T D
  | insert index kind => (rack.insert index kind).2
  | push kind => (rack.push kind).2
  | remove id => (rack.remove id).2
  | moveNode id newIndex scope => (rack.moveNode id newIndex scope).2
  | observeNodeReference id => rack.observeNodeReference id

def rackEdits (T D : Type) : Machine (VisualRack T D) (RackEdit T D) where
  start rack := ∃ nodes nextNodeId, (∀ next ∈ nextNodeId, next ≤ u64Max) ∧
    VisualRack.tryFromParts nodes nextNodeId = .ok rack
  step rack edit := some (edit.apply rack)

def SavedImageTap.markGroupMissing (tap : SavedImageTap) (removed : GroupId) : SavedImageTap :=
  if tap.source = .groupOutput removed then { tap with source := .missingGroupOutput removed }
  else tap

@[simp]
theorem SavedImageTap.markGroupMissing_referencedGroup (tap : SavedImageTap) (removed : GroupId) :
    (tap.markGroupMissing removed).referencedGroup = tap.referencedGroup := by
  unfold markGroupMissing
  split
  case isTrue h => simp [referencedGroup, h]
  case isFalse => rfl

abbrev SavedGroup := Group SavedLayerPosition (GroupBody SavedImageTap SavedMotionDonor)

def VisualRack.referencedGroupIds (rack : VisualRack SavedImageTap D) : List GroupId :=
  rack.nodes.flatMap fun node => node.kind.taps.filterMap SavedImageTap.referencedGroup

def VisualRack.markGroupOutputMissing (rack : VisualRack SavedImageTap D)
    (removed : GroupId) : VisualRack SavedImageTap D :=
  { rack with nodes := rack.nodes.map (.mapRoutes (·.markGroupMissing removed) fun donor => donor) }

namespace GroupBody

def referencedGroupIds (body : GroupBody SavedImageTap D) : List GroupId :=
  body.rack.referencedGroupIds ++ (body.matte.bind (·.tap.referencedGroup)).toList

def markGroupOutputMissing (body : GroupBody SavedImageTap D)
    (removed : GroupId) : GroupBody SavedImageTap D :=
  { body with
    rack := body.rack.markGroupOutputMissing removed
    matte := body.matte.map (.mapRoutes (·.markGroupMissing removed)) }

/-- The values of `Group::sanitized`. -/
def sanitized (body : GroupBody T D) : GroupBody T D :=
  { body with
    opacity := finiteClamp body.opacity 1 0 1
    transform := body.transform.sanitized
    matte := body.matte.map ImageMatte.sanitized }

def empty (name : String) : GroupBody T D where
  name
  opacity := 1
  transform := SpatialTransform.default
  rack := VisualRack.empty
  matte := none
  solo := false
  bypass := false
  bus := .program

end GroupBody

def maxGroups : ℕ := 16

inductive CompositionError
  | tooManyGroups (count limit : ℕ)
  | invalid (error : StructureError SavedLayerPosition RackError)
  | unknownLayer (layer : SavedLayerPosition)
  | invalidNextGroupId (next greatestObserved : ℕ)
  | groupIdExhausted
  | invalidMoveIndex (index len : ℕ)

def checkGroupRack (body : GroupBody T D) : Except RackError Unit :=
  body.rack.validateForScope .group

/-- `Group::sanitized`. -/
def sanitizedGroup (group : SavedGroup) : Except CompositionError SavedGroup := do
  ((checkGroupRack group.body).mapError (.groupRack group.id)).mapError .invalid
  return { group with body := group.body.sanitized }

/-- The groups that live groups, their routes and the root name. -/
def observedGroups (groups : List SavedGroup)
    (root : List (RootItem SavedLayerPosition)) : List GroupId :=
  groups.map (·.id) ++ groups.flatMap (·.body.referencedGroupIds) ++ root.filterMap RootItem.groupId

def greatestGroupId (groups : List SavedGroup) (root : List (RootItem SavedLayerPosition)) : ℕ :=
  (observedGroups groups root).foldl (fun greatest id => max greatest id.val) 0

namespace CompositionTree

def tryFromParts (groups : List SavedGroup) (root : List (RootItem SavedLayerPosition))
    (nextGroupId : Option ℕ) (busCrossfade : F32) : Except CompositionError CompositionTree := do
  refuse (maxGroups < groups.length) (.tooManyGroups groups.length maxGroups)
  let groups ← groups.mapM sanitizedGroup
  let greatest := greatestGroupId groups root
  let next := nextGroupId.getD (max (nextCursor greatest) 1)
  refuse (¬VisualRack.CursorPast next greatest) (.invalidNextGroupId next greatest)
  let tree : Tree SavedLayerPosition
    (GroupBody SavedImageTap SavedMotionDonor) := ⟨groups, root⟩
  (tree.validateStructure checkGroupRack).mapError .invalid
  return ⟨tree, next, finiteClamp busCrossfade 0.5 0 1, BusMixerState.default⟩

def observeGroupReference (state : CompositionTree) (id : GroupId) : CompositionTree :=
  if state.nextGroupId ≠ 0 ∧ state.nextGroupId ≤ id.val then
    { state with nextGroupId := nextCursor id.val }
  else state

def insertEmptyGroup (state : CompositionTree) (name : String)
    (rootIndex : ℕ) : Except CompositionError GroupId × CompositionTree :=
  if state.tree.groups.length = maxGroups then
    (.error (.tooManyGroups (state.tree.groups.length + 1) maxGroups), state)
  else if state.tree.root.length < rootIndex then
    (.error (.invalidMoveIndex rootIndex state.tree.root.length), state)
  else
    match GroupId.new state.nextGroupId with
    | none => (.error .groupIdExhausted, state)
    | some id =>
      (.ok id, { state with
        tree := {
          groups := state.tree.groups ++ [⟨id, [], .empty name⟩]
          root := state.tree.root.insertIdx rootIndex (.group id) }
        nextGroupId := nextCursor state.nextGroupId })

def rootPosition (state : CompositionTree) (key : RootItemKey SavedLayerPosition) : Option ℕ :=
  state.tree.root.findIdx? fun item => item.key = key

def removeGroupUngroup (state : CompositionTree) (id : GroupId) :
    Except CompositionError SavedGroup × CompositionTree :=
  match state.tree.group id with
  | none => (.error (.invalid (.unknownGroup id)), state)
  | some group =>
    match state.rootPosition (.group id) with
    | none => (.error (.invalid (.unrootedGroup id)), state)
    | some rootIndex =>
      let remaining :=
        (state.tree.groups.eraseP (·.id = id)).map fun remaining =>
          { remaining with body := remaining.body.markGroupOutputMissing id }
      let members : List (RootItem SavedLayerPosition) :=
        group.members.map (.layer · group.body.bus)
      (.ok group, { state with
        tree := {
          groups := remaining
          root := state.tree.root.take rootIndex ++ members ++
            state.tree.root.drop (rootIndex + 1) } })

def moveRootItem (state : CompositionTree) (key : RootItemKey SavedLayerPosition) (newIndex : ℕ) :
    Except CompositionError Unit × CompositionTree :=
  if state.tree.root.length ≤ newIndex then
    (.error (.invalidMoveIndex newIndex state.tree.root.length), state)
  else
    match state.rootPosition key with
    | none =>
      match key with
      | .layer layer => (.error (.unknownLayer layer), state)
      | .group id => (.error (.invalid (.unknownGroup id)), state)
    | some oldIndex =>
      (.ok (), { state with
        tree := { state.tree with root := moveItem oldIndex newIndex state.tree.root } })

def moveLayer (members : List SavedLayerPosition) (layer : SavedLayerPosition) (newIndex : ℕ) :
    Except CompositionError Unit × List SavedLayerPosition :=
  if members.length ≤ newIndex then (.error (.invalidMoveIndex newIndex members.length), members)
  else
    match members.findIdx? (· = layer) with
    | none => (.error (.unknownLayer layer), members)
    | some oldIndex => (.ok (), moveItem oldIndex newIndex members)

/-- Change the first group of an id, as `group_mut` finds it. -/
def updateGroup (groupId : GroupId) (change : SavedGroup → SavedGroup) :
    List SavedGroup → List SavedGroup
  | [] => []
  | group :: rest =>
    if group.id = groupId then change group :: rest
    else group :: updateGroup groupId change rest

def moveGroupMember (state : CompositionTree) (groupId : GroupId)
    (layer : SavedLayerPosition) (newIndex : ℕ) :
    Except CompositionError Unit × CompositionTree :=
  match state.tree.group groupId with
  | none => (.error (.invalid (.unknownGroup groupId)), state)
  | some group =>
    let moved := moveLayer group.members layer newIndex
    (moved.1, { state with
      tree := { state.tree with
        groups := updateGroup groupId (fun group => { group with members := moved.2 })
          state.tree.groups } })

end CompositionTree

inductive CompositionEdit
  | insertEmptyGroup (name : String) (rootIndex : ℕ)
  | removeGroupUngroup (id : GroupId)
  | moveRootItem (key : RootItemKey SavedLayerPosition) (newIndex : ℕ)
  | moveGroupMember (groupId : GroupId) (layer : SavedLayerPosition)
      (newIndex : ℕ)
  | observeGroupReference (id : GroupId)

def CompositionEdit.apply (state : CompositionTree) : CompositionEdit → CompositionTree
  | insertEmptyGroup name rootIndex => (state.insertEmptyGroup name rootIndex).2
  | removeGroupUngroup id => (state.removeGroupUngroup id).2
  | moveRootItem key newIndex => (state.moveRootItem key newIndex).2
  | moveGroupMember groupId layer newIndex => (state.moveGroupMember groupId layer newIndex).2
  | observeGroupReference id => state.observeGroupReference id

def compositionEdits : Machine CompositionTree CompositionEdit where
  start state := ∃ groups root nextGroupId busCrossfade,
    (∀ next ∈ nextGroupId, next ≤ u64Max) ∧
      CompositionTree.tryFromParts groups root nextGroupId busCrossfade = .ok state
  step state edit := some (edit.apply state)

end CollideOScope.Composition
