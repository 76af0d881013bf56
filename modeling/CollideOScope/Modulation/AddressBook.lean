import CollideOScope.Composition.Rack
import CollideOScope.Modulation.Targets

/-!
# The address book

A topology is compiled into a book that numbers every value it has.  A value
stands in the book once, under the entry of its own node kind; a target read
off the wire is found under that entry when only the key agrees.
-/

namespace CollideOScope.Modulation

open Composition Checks

abbrev StableModAddress := ℕ

inductive AddressBookError
  | duplicate (target : StableModTarget)
  | registryExceedsAddressSpace | addressSpaceExceeded

/-- The map and the list are filled together, one target after the other. -/
structure StableModAddressBook where
  addresses : List (StableModTarget × StableModAddress)
  targets : List StableModTarget
  deriving DecidableEq

namespace StableModAddressBook

def empty : StableModAddressBook := ⟨[], []⟩

def insert (book : StableModAddressBook) (target : StableModTarget) :
    Except AddressBookError StableModAddressBook := do
  refuse (book.addresses.lookup target).isSome (.duplicate target)
  let address ← require (tryFromU16 book.targets.length) .addressSpaceExceeded
  return ⟨book.addresses ++ [(target, address)], book.targets ++ [target]⟩

def address (book : StableModAddressBook) (target : StableModTarget) : Option StableModAddress :=
  (book.addresses.lookup target).or
    ((book.targets.findIdx? fun candidate => candidate.sameWireTarget target).bind tryFromU16)

def target (book : StableModAddressBook) (address : StableModAddress) : Option StableModTarget :=
  book.targets[address]?

end StableModAddressBook

/-- `runtime_node_supports_descriptor`: a mask has the keys of its shape. -/
def runtimeNodeSupportsDescriptor (node : RuntimeVisualNode) (key : String) : Bool :=
  match node.kind with
  | .mask (.rectangle _) => "rectangle_".toList.isPrefixOf key.toList
  | .mask (.ellipse _) => "ellipse_".toList.isPrefixOf key.toList
  | .mask (.image _) => "image_".toList.isPrefixOf key.toList
  | _ => true

namespace StableModAddressBook

def addDescriptor (scope : StableModScope) (node : RuntimeVisualNode)
    (book : StableModAddressBook) (entry : NodeParamDescriptor × ℕ) :
    Except AddressBookError StableModAddressBook :=
  if entry.1.kind ≠ node.kind.tag ∨ ¬entry.1.modulatable ∨
      ¬runtimeNodeSupportsDescriptor node entry.1.key then
    pure book
  else if entry.1.valueType.components = [] then pure book
  else do
    let index ← require (tryFromU16 entry.2) .registryExceedsAddressSpace
    entry.1.valueType.components.foldlM (fun book component =>
      book.insert (.node scope node.stableId (.descriptor index component)))
      book

def addWet (book : StableModAddressBook) (scope : StableModScope) (node : RuntimeVisualNode) :
    Except AddressBookError StableModAddressBook :=
  if StableNodeParameter.wet.isValidForKind node.kind.tag then
    book.insert (.node scope node.stableId .wet)
  else pure book

/-- The body of the loop over the nodes of a rack. -/
def addNode (scope : StableModScope) (book : StableModAddressBook) (node : RuntimeVisualNode) :
    Except AddressBookError StableModAddressBook := do
  let book ← book.addWet scope node
  nodeParamDescriptors.zipIdx.foldlM (addDescriptor scope node) book

def addRack (book : StableModAddressBook) (scope : StableModScope) (rack : RuntimeVisualRack) :
    Except AddressBookError StableModAddressBook :=
  rack.nodes.foldlM (addNode scope) book

def directParameters : List GroupModParameter :=
  [.opacity, .positionX, .positionY, .scaleX, .scaleY, .anchorX, .anchorY, .rotationDeg, .skewDeg,
    .skewAxisDeg, .cropLeft, .cropTop, .cropRight, .cropBottom]

def matteParameters : List GroupModParameter := [.matteAmount, .matteThreshold, .matteSoftness]

def addValues (book : StableModAddressBook) (groupId : GroupId)
    (parameters : List GroupModParameter) :
    Except AddressBookError StableModAddressBook :=
  parameters.foldlM (fun book parameter => book.insert (.groupValue groupId parameter)) book

def addGroup (book : StableModAddressBook)
    (group : Group StableLayerId (GroupBody ResolvedImageTap MotionDonor)) :
    Except AddressBookError StableModAddressBook := do
  let book ← book.addValues group.id directParameters
  let book ← book.addValues group.id
    (if group.body.matte.isSome then matteParameters else [])
  book.addRack (.group group.id) group.body.rack

def fromComposition (masterRack : RuntimeVisualRack)
    (layerRacks : List (StableLayerId × RuntimeVisualRack)) (composition : RuntimeComposition) :
    Except AddressBookError StableModAddressBook := do
  let book ← empty.addRack .master masterRack
  let book ← layerRacks.foldlM (fun book layer => book.addRack (.layer layer.1) layer.2) book
  let book ← book.insert (.compositionValue .busCrossfade)
  composition.tree.groups.foldlM addGroup book

end StableModAddressBook

/-!
## Saved targets

A saved target names a layer by its position.
-/

open Composition

inductive SavedStableModScope
  | master
  | savedLayer (position : SavedLayerPosition)
  | group (groupId : GroupId)
  deriving DecidableEq

inductive SavedMissingTarget
  | node (nodeId : NodeId) (parameter : StableNodeParameter)
  | groupValue (parameter : GroupModParameter)
  deriving DecidableEq

inductive SavedStableModTarget
  | node (scope : SavedStableModScope) (nodeId : NodeId)
      (parameter : StableNodeParameter)
  | groupValue (groupId : GroupId) (parameter : GroupModParameter)
  | compositionValue (parameter : CompositionModParameter)
  | missingSavedLayer (savedPosition : SavedLayerPosition) (nodeId : NodeId)
      (parameter : StableNodeParameter)
  | missingGroup (groupId : GroupId) (missingTarget : SavedMissingTarget)
  | missingNode (scope : SavedStableModScope) (nodeId : NodeId)
      (parameter : StableNodeParameter)
  deriving DecidableEq

/-- `saved_scope_key`, as segments. -/
def savedScopeSegments : SavedStableModScope → List String
  | .master => ["master"]
  | .savedLayer position => ["saved_layer", decimal position.val]
  | .group groupId => ["group", decimal groupId.val]

namespace SavedStableModTarget

def nodeSegments (front : List String) (nodeId : NodeId)
    (parameter : StableNodeParameter) : Option (List String) :=
  parameter.render.map fun key => front ++ [decimal nodeId.val, key]

/-- The segments of `persistence_key`. -/
def keySegments : SavedStableModTarget → Option (List String)
  | node scope nodeId parameter =>
    nodeSegments ("node" :: savedScopeSegments scope) nodeId parameter
  | groupValue groupId parameter => some ["group", decimal groupId.val, parameter.key]
  | compositionValue parameter => some ["composition", parameter.key]
  | missingSavedLayer savedPosition nodeId parameter =>
    nodeSegments ["missing", "saved_layer", decimal savedPosition.val] nodeId parameter
  | missingGroup groupId (.node nodeId parameter) =>
    nodeSegments ["missing", "group", decimal groupId.val] nodeId parameter
  | missingGroup groupId (.groupValue parameter) =>
    some ["missing", "group", decimal groupId.val, parameter.key]
  | missingNode scope nodeId parameter =>
    nodeSegments ("missing" :: "node" :: savedScopeSegments scope) nodeId parameter

/-- `persistence_key`; it fails when the formatter of the parameter does. -/
def persistenceKey (target : SavedStableModTarget) : Option String :=
  target.keySegments.map (joinSegments '/')

end SavedStableModTarget

end CollideOScope.Modulation
