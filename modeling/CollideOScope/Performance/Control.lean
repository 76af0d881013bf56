import CollideOScope.Support.Checks
import CollideOScope.Support.Text
import Mathlib.Data.Nat.Digits.Lemmas

/-!
# Controls a take can address

A control is stored flat: a kind token and one optional field for each part of
its identity.  `PerformanceControl.fromParts` reads it back, refusing a shape
whose fields are not those of its kind.  A valid control is what is read from
its own parts, so the parts determine it.
-/

namespace CollideOScope.Performance

open CollideOScope.Checks

def maxPerformanceParamBytes : ℕ := 64

inductive PerformanceError
  | tooManyAddresses (count : ℕ)
  | tooManyEvents (count : ℕ)
  | nonMonotonicTick (previous tick : UInt32)
  | addressOutOfRange (address : UInt16) (count : ℕ)
  | invalidValue (code : UInt16)
  | invalidLaw | unrepresentableEdit
  | malformedAddress (kind : String)
  | duplicateAddress (name : String)
  | paramBytes (bytes : ℕ)
  | nodeKindBytes (bytes : ℕ)
  | vocabTokens (count : ℕ)
  | tokenBytes (bytes : ℕ)
  | duplicateToken (token : String)
  | eventCount (declared : UInt32) (observed : ℕ)
  | lengthBeforeLastEvent (length last : UInt32)
  | unsupportedVersion (version : UInt16)
  | checksumMismatch (declared computed : String)
  | documentBytes (bytes : ℕ)
  | serialization (error : String)

def refuseName (error : ℕ → PerformanceError) (name : String) : Except PerformanceError Unit :=
  refuse (name.isEmpty ∨ name.utf8ByteSize > maxPerformanceParamBytes) (error name.utf8ByteSize)

/-- `if let Some(name) = ..`. -/
def refusePresent (error : ℕ → PerformanceError) : Option String → Except PerformanceError Unit
  | some name => refuseName error name
  | none => pure ()

def IsName (name : String) : Prop := ¬name.isEmpty ∧ name.utf8ByteSize ≤ maxPerformanceParamBytes

variable {error : ℕ → PerformanceError} {u : Unit}

theorem refuseName_ok {name : String} : refuseName error name = .ok u ↔ IsName name := by
  simp [refuseName, refuse_ok, IsName]

theorem refusePresent_ok {name : Option String} :
    refusePresent error name = .ok u ↔ ∀ n ∈ name, IsName n := by
  cases name with
  | none => simp [refusePresent]
  | some name => simp [refusePresent, refuseName_ok]

inductive PerformanceControl
  | master (param : String)
  | masterTransform (param : String)
  | layerParam (layer : UInt32) (param : String)
  | layerEffect (layer : UInt32) (param : String)
  | layerTransform (layer : UInt32) (param : String)
  | layerVisible (layer : UInt32)
  | layerPattern (layer : UInt32) (param : String)
  | ntsc (param : String)
  | temporal (param : String)
  | motionMaster (param : String)
  | motionLayer (layer : UInt32) (param : String)
  | busCrossfade
  | busMix (param : String)
  | morphPosition
  | gestureCanvas (param : String)
  | rackNodeMaster (node : UInt64) (nodeKind param : String)
  | rackNodeLayer (layer : UInt32) (node : UInt64) (nodeKind param : String)
  | rackNodeGroup (group node : UInt64) (nodeKind param : String)
  | groupParam (group : UInt64) (param : String)
  | groupMatteParam (group : UInt64) (param : String)
  | layerText (layer : UInt32) (param : String)
  | morphLaw
  | morphGlide (targetQ16 : UInt16)
  | morphCapture
  | routing (routing : UInt32) (param : String)
  deriving DecidableEq

namespace PerformanceControl

def code : PerformanceControl → UInt8
  | master .. => 0
  | masterTransform .. => 1
  | layerParam .. => 2
  | layerEffect .. => 3
  | layerTransform .. => 4
  | layerVisible .. => 5
  | layerPattern .. => 6
  | ntsc .. => 7
  | temporal .. => 8
  | motionMaster .. => 9
  | motionLayer .. => 10
  | busCrossfade => 11
  | busMix .. => 12
  | morphPosition => 13
  | gestureCanvas .. => 14
  | rackNodeMaster .. => 15
  | rackNodeLayer .. => 16
  | rackNodeGroup .. => 17
  | groupParam .. => 18
  | groupMatteParam .. => 19
  | layerText .. => 20
  | morphLaw => 21
  | morphGlide .. => 22
  | morphCapture => 23
  | routing .. => 24

def kindToken : PerformanceControl → String
  | master .. => "master"
  | masterTransform .. => "master_transform"
  | layerParam .. => "layer_param"
  | layerEffect .. => "layer_effect"
  | layerTransform .. => "layer_transform"
  | layerVisible .. => "layer_visible"
  | layerPattern .. => "layer_pattern"
  | ntsc .. => "ntsc"
  | temporal .. => "temporal"
  | motionMaster .. => "motion_master"
  | motionLayer .. => "motion_layer"
  | busCrossfade => "bus_crossfade"
  | busMix .. => "bus_mix"
  | morphPosition => "morph_position"
  | gestureCanvas .. => "gesture_canvas"
  | rackNodeMaster .. => "rack_node_master"
  | rackNodeLayer .. => "rack_node_layer"
  | rackNodeGroup .. => "rack_node_group"
  | groupParam .. => "group_param"
  | groupMatteParam .. => "group_matte_param"
  | layerText .. => "layer_text"
  | morphLaw => "morph_law"
  | morphGlide .. => "morph_glide"
  | morphCapture => "morph_capture"
  | routing .. => "routing"

def layer : PerformanceControl → Option UInt32
  | layerParam layer _ => some layer
  | layerEffect layer _ => some layer
  | layerTransform layer _ => some layer
  | layerVisible layer => some layer
  | layerPattern layer _ => some layer
  | motionLayer layer _ => some layer
  | rackNodeLayer layer _ _ _ => some layer
  | layerText layer _ => some layer
  | _ => none

def node : PerformanceControl → Option UInt64
  | rackNodeMaster node _ _ => some node
  | rackNodeLayer _ node _ _ => some node
  | rackNodeGroup _ node _ _ => some node
  | _ => none

def group : PerformanceControl → Option UInt64
  | rackNodeGroup group _ _ _ => some group
  | groupParam group _ => some group
  | groupMatteParam group _ => some group
  | _ => none

def nodeKind : PerformanceControl → Option String
  | rackNodeMaster _ nodeKind _ => some nodeKind
  | rackNodeLayer _ _ nodeKind _ => some nodeKind
  | rackNodeGroup _ _ nodeKind _ => some nodeKind
  | _ => none

def targetQ16 : PerformanceControl → Option UInt16
  | morphGlide targetQ16 => some targetQ16
  | _ => none

def routing? : PerformanceControl → Option UInt32
  | routing position _ => some position
  | _ => none

def param : PerformanceControl → Option String
  | master param => some param
  | masterTransform param => some param
  | layerParam _ param => some param
  | layerEffect _ param => some param
  | layerTransform _ param => some param
  | layerPattern _ param => some param
  | ntsc param => some param
  | temporal param => some param
  | motionMaster param => some param
  | motionLayer _ param => some param
  | busMix param => some param
  | gestureCanvas param => some param
  | rackNodeMaster _ _ param => some param
  | rackNodeLayer _ _ _ param => some param
  | rackNodeGroup _ _ _ param => some param
  | groupParam _ param => some param
  | groupMatteParam _ param => some param
  | layerText _ param => some param
  | routing _ param => some param
  | layerVisible _ => none
  | busCrossfade => none
  | morphPosition => none
  | morphLaw => none
  | morphGlide _ => none
  | morphCapture => none

def needsParam (kind : String) : Bool :=
  kind ∉ ["layer_visible", "bus_crossfade", "morph_position", "morph_law",
    "morph_glide", "morph_capture"]

def needsLayer (kind : String) : Bool :=
  kind ∈ ["layer_param", "layer_effect", "layer_transform", "layer_visible",
    "layer_pattern", "motion_layer", "rack_node_layer", "layer_text"]

def needsNode (kind : String) : Bool :=
  kind ∈ ["rack_node_master", "rack_node_layer", "rack_node_group"]

def needsGroup (kind : String) : Bool :=
  kind ∈ ["rack_node_group", "group_param", "group_matte_param"]

def needsNodeKind (kind : String) : Bool := needsNode kind

def needsTargetQ16 (kind : String) : Bool := kind = "morph_glide"

def needsRouting (kind : String) : Bool := kind = "routing"

def parseNonzeroDecimalId (kind value : String) :
    Except PerformanceError UInt64 := do
  refuse
    (value.isEmpty ∨ ¬value.toList.all Char.isDigit ∨
      value.toList.head? = some '0') (.malformedAddress kind)
  let parsed := Nat.ofDigitChars 10 value.toList 0
  refuse (parsed > u64Max) (.malformedAddress kind)
  refuse (parsed = 0 ∨ toString parsed ≠ value) (.malformedAddress kind)
  pure (UInt64.ofNat parsed)

/-- `id.map(..).transpose()?.unwrap_or_default()`. -/
def parseIdOrDefault (kind : String) : Option String → Except PerformanceError UInt64
  | some value => parseNonzeroDecimalId kind value
  | none => pure 0

/-- Bounded identity strings and nonzero identities. -/
def validate (control : PerformanceControl) :
    Except PerformanceError Unit := do
  refusePresent .paramBytes control.param
  refuse (control.node = some 0 ∨ control.group = some 0) (.malformedAddress control.kindToken)
  refusePresent .nodeKindBytes control.nodeKind

/-- The match on the kind token, with the defaults of the absent fields. -/
def build (kind : String) (layer : UInt32) (param : String)
    (node group : UInt64) (nodeKind : String) (targetQ16 : UInt16)
    (routing : UInt32) : Except PerformanceError PerformanceControl :=
  match kind with
  | "master" => pure (.master param)
  | "master_transform" => pure (.masterTransform param)
  | "layer_param" => pure (.layerParam layer param)
  | "layer_effect" => pure (.layerEffect layer param)
  | "layer_transform" => pure (.layerTransform layer param)
  | "layer_visible" => pure (.layerVisible layer)
  | "layer_pattern" => pure (.layerPattern layer param)
  | "ntsc" => pure (.ntsc param)
  | "temporal" => pure (.temporal param)
  | "motion_master" => pure (.motionMaster param)
  | "motion_layer" => pure (.motionLayer layer param)
  | "bus_crossfade" => pure .busCrossfade
  | "bus_mix" => pure (.busMix param)
  | "morph_position" => pure .morphPosition
  | "gesture_canvas" => pure (.gestureCanvas param)
  | "rack_node_master" => pure (.rackNodeMaster node nodeKind param)
  | "rack_node_layer" => pure (.rackNodeLayer layer node nodeKind param)
  | "rack_node_group" => pure (.rackNodeGroup group node nodeKind param)
  | "group_param" => pure (.groupParam group param)
  | "group_matte_param" => pure (.groupMatteParam group param)
  | "layer_text" => pure (.layerText layer param)
  | "morph_law" => pure .morphLaw
  | "morph_glide" => pure (.morphGlide targetQ16)
  | "morph_capture" => pure .morphCapture
  | "routing" => pure (.routing routing param)
  | other => throw (.malformedAddress other)

def fromParts (kind : String) (layer : Option UInt32) (param : Option String)
    (nodeId groupId nodeKind : Option String) (targetQ16 : Option UInt16)
    (routing : Option UInt32) :
    Except PerformanceError PerformanceControl := do
  refuse
    (needsParam kind ≠ param.isSome ∨ needsLayer kind ≠ layer.isSome ∨
      needsNode kind ≠ nodeId.isSome ∨ needsGroup kind ≠ groupId.isSome ∨
      needsNodeKind kind ≠ nodeKind.isSome ∨
      needsTargetQ16 kind ≠ targetQ16.isSome ∨
      needsRouting kind ≠ routing.isSome) (.malformedAddress kind)
  let node ← parseIdOrDefault kind nodeId
  let group ← parseIdOrDefault kind groupId
  let control ← build kind (layer.getD 0) (param.getD "") node group
    (nodeKind.getD "") (targetQ16.getD 0) (routing.getD 0)
  control.validate
  pure control

def describe (control : PerformanceControl) : String :=
  ":".intercalate
    ([some control.kindToken, control.layer.map toString, control.group.map toString,
      control.node.map toString, control.nodeKind, control.targetQ16.map toString,
      control.routing?.map toString, control.param].filterMap id)

theorem shape (control : PerformanceControl) :
    needsParam control.kindToken = control.param.isSome ∧
      needsLayer control.kindToken = control.layer.isSome ∧
      needsNode control.kindToken = control.node.isSome ∧
      needsGroup control.kindToken = control.group.isSome ∧
      needsNodeKind control.kindToken = control.nodeKind.isSome ∧
      needsTargetQ16 control.kindToken = control.targetQ16.isSome ∧
      needsRouting control.kindToken = control.routing?.isSome := by
  cases control <;> exact ⟨rfl, rfl, rfl, rfl, rfl, rfl, rfl⟩

theorem build_parts (control : PerformanceControl) :
    build control.kindToken (control.layer.getD 0) (control.param.getD "")
      (control.node.getD 0) (control.group.getD 0) (control.nodeKind.getD "")
      (control.targetQ16.getD 0) (control.routing?.getD 0) = .ok control := by
  cases control <;> rfl

variable {a b : PerformanceControl}

theorem ext_parts (hkind : a.kindToken = b.kindToken) (hlayer : a.layer = b.layer)
    (hparam : a.param = b.param) (hnode : a.node = b.node) (hgrp : a.group = b.group)
    (hnodeKind : a.nodeKind = b.nodeKind) (htgt : a.targetQ16 = b.targetQ16)
    (hrout : a.routing? = b.routing?) : a = b := by
  have ha := build_parts a
  rw [hkind, hlayer, hparam, hnode, hgrp, hnodeKind, htgt, hrout, build_parts b] at ha
  exact (Except.ok.inj ha).symm

/-- The kind tokens in the order of the codes. -/
def kindTokens : List String :=
  ["master", "master_transform", "layer_param", "layer_effect",
    "layer_transform", "layer_visible", "layer_pattern", "ntsc", "temporal",
    "motion_master", "motion_layer", "bus_crossfade", "bus_mix",
    "morph_position", "gesture_canvas", "rack_node_master", "rack_node_layer",
    "rack_node_group", "group_param", "group_matte_param", "layer_text",
    "morph_law", "morph_glide", "morph_capture", "routing"]

theorem kindTokens_code (control : PerformanceControl) :
    kindTokens[control.code.toNat]? = some control.kindToken := by
  cases control <;> rfl

theorem kindToken_eq_of_code (h : a.code = b.code) : a.kindToken = b.kindToken := by
  have ha := kindTokens_code a
  rw [h, kindTokens_code b] at ha
  exact (Option.some.inj ha).symm

/-- What `validate` accepts. -/
structure Valid (control : PerformanceControl) : Prop where
  param : ∀ param ∈ control.param, IsName param
  node : ∀ node ∈ control.node, node ≠ 0
  group : ∀ group ∈ control.group, group ≠ 0
  nodeKind : ∀ nodeKind ∈ control.nodeKind, IsName nodeKind

variable {control : PerformanceControl}

theorem validate_ok {u : Unit} : control.validate = .ok u ↔ control.Valid := by
  simp only [validate, bind_ok, exists_unit, refuse_ok, refusePresent_ok, not_or]
  constructor
  · rintro ⟨hparam, ⟨hnode, hgrp⟩, hnodeKind⟩
    refine ⟨hparam, ?_, ?_, hnodeKind⟩
    · rintro node hsome rfl
      exact hnode hsome
    · rintro group hsome rfl
      exact hgrp hsome
  · rintro ⟨hparam, hnode, hgrp, hnodeKind⟩
    exact ⟨hparam, ⟨fun hzero => hnode 0 hzero rfl, fun hzero => hgrp 0 hzero rfl⟩, hnodeKind⟩

theorem parseNonzeroDecimalId_toString (kind : String) {id : UInt64}
    (h : id ≠ 0) : parseNonzeroDecimalId kind (toString id) = .ok id := by
  have htext : (toString id).toList = Nat.toDigits 10 id.toNat := by simp [toString]
  have hnum : IsNumeral id.toNat (toString id).toList := by
    rw [htext]
    exact isNumeral_toDigits _
  have hpos : id.toNat ≠ 0 := fun hzero => h (UInt64.toNat_inj.mp hzero)
  have hmax : id.toNat ≤ u64Max := by
    have hlt := UInt64.toNat_lt id
    rw [u64Max]
    omega
  simp only [parseNonzeroDecimalId, bind_ok, refuse_ok, exists_unit, pure_ok,
    not_or, not_not, not_lt, hnum.value]
  refine ⟨⟨?_, hnum.isDigit, ?_⟩, hmax, ⟨hpos, rfl⟩, UInt64.ofNat_toNat⟩
  · simpa [String.isEmpty_iff, ← String.toList_eq_nil_iff] using hnum.ne_nil
  · rw [htext]
    exact head?_toDigits hpos

theorem parseIdOrDefault_map (kind : String) {id : Option UInt64} (h : ∀ i ∈ id, i ≠ 0) :
    parseIdOrDefault kind (id.map toString) = .ok (id.getD 0) := by
  cases id with
  | none => rfl
  | some id => exact parseNonzeroDecimalId_toString kind (h id rfl)

theorem fromParts_parts (h : control.Valid) :
    fromParts control.kindToken control.layer control.param
      (control.node.map toString) (control.group.map toString)
      control.nodeKind control.targetQ16 control.routing? = .ok control := by
  obtain ⟨hparam, hlayer, hnode, hgrp, hnodeKind, htgt, hrout⟩ := shape control
  simp only [fromParts, bind_ok, refuse_ok, exists_unit, pure_ok,
    Option.isSome_map, hparam, hlayer, hnode, hgrp, hnodeKind, htgt,
    hrout, ne_eq, not_true_eq_false, or_self, not_false_eq_true, true_and]
  exact ⟨_, parseIdOrDefault_map _ h.node, _, parseIdOrDefault_map _ h.group,
    control, build_parts control, validate_ok.mpr h, rfl⟩

end PerformanceControl

end CollideOScope.Performance
