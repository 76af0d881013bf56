import CollideOScope.Support.Checks
import CollideOScope.Support.Binary32
import CollideOScope.Support.StraightLine
import Mathlib.Data.Finset.Sort

/-!
# Study documents

A Study is a straight-line program over typed single-assignment registers, with
the list of the host inputs it reads.  The validator types every register,
derives the inputs from the instructions and compares them with the list.
-/

namespace CollideOScope.Study

open Checks

def studySchemaVersion : ℕ := 1

def studyAbiMajor : ℕ := 1

def studyAbiMinor : ℕ := 1

def studyMaxInstructions : ℕ := 256

abbrev studyMaxRegisters : ℕ := 64

def studyMaxCapabilities : ℕ := 16

def studyMaxNameBytes : ℕ := 80

def studyMaxAuthorBytes : ℕ := 80

def studyMaxDescriptionBytes : ℕ := 512

def studyMaxLicenseIdBytes : ℕ := 64

def studyMaxLicenseNoticeBytes : ℕ := 1024

def studyMaxDocumentBytes : ℕ := 1024 * 1024

def studyMaxHistoryAge : ℕ := 23

abbrev studyMaxAudioBands : ℕ := 8

structure StudyAbiVersion where
  (major minor : ℕ)

/-- The data licence never extends to the host. -/
inductive StudyPublicationBoundary
  | studyDataOnlyDoesNotLicenseHost

structure StudyLicenseNotice where
  (identifier notice : String)
  publicationBoundary : StudyPublicationBoundary

structure StudyMetadata where
  (name author description : String)
  license : StudyLicenseNotice

inductive StudyCapability
  | currentColor | historyRead | motionFieldRead | audioFeatures | beatPhase
  | deterministicRandom

namespace StudyCapability

/-- The derived order is the order of declaration. -/
def rank : StudyCapability → ℕ
  | currentColor => 0
  | historyRead => 1
  | motionFieldRead => 2
  | audioFeatures => 3
  | beatPhase => 4
  | deterministicRandom => 5

theorem rank_injective : Function.Injective rank := by
  intro a b h
  cases a <;> cases b <;> simp_all [rank]

instance : LinearOrder StudyCapability := LinearOrder.lift' rank rank_injective

end StudyCapability

abbrev StudyRegister := Fin studyMaxRegisters

inductive StudyValueType
  | scalar | vector2 | color
  deriving DecidableEq

inductive StudyInstruction (F : Type*)
  | loadCurrentColor (dst : StudyRegister)
  | loadHistoryColor (dst : StudyRegister) (age : UInt8)
  | loadMotionVector (dst : StudyRegister)
  | loadAudioBand (dst : StudyRegister) (band : UInt8)
  | loadBeatPhase (dst : StudyRegister)
  | loadDeterministicRandom (dst : StudyRegister) (domain : UInt32)
  | constantScalar (dst : StudyRegister) (value : F)
  | constantVector2 (dst : StudyRegister) (value : Vec2 F)
  | constantColor (dst : StudyRegister) (value : Vec4 F)
  | add (dst left right : StudyRegister)
  | subtract (dst left right : StudyRegister)
  | multiply (dst left right : StudyRegister)
  | mix (dst a b amount : StudyRegister)
  | clamp01 (dst input : StudyRegister)
  | hueRotate (dst color turns : StudyRegister)
  | vectorX (dst input : StudyRegister)
  | vectorY (dst input : StudyRegister)
  | vectorMagnitude (dst input : StudyRegister)
  | vectorNormalizedDirection (dst input : StudyRegister)
  | vectorDotConstant (dst input : StudyRegister) (vector : Vec2 F)
  | scalarToColor (dst scalar low high : StudyRegister)
  | outputColor (color : StudyRegister)

namespace StudyInstruction

variable {F : Type*}

def destination : StudyInstruction F → Option StudyRegister
  | loadCurrentColor dst => some dst
  | loadHistoryColor dst _ => some dst
  | loadMotionVector dst => some dst
  | loadAudioBand dst _ => some dst
  | loadBeatPhase dst => some dst
  | loadDeterministicRandom dst _ => some dst
  | constantScalar dst _ => some dst
  | constantVector2 dst _ => some dst
  | constantColor dst _ => some dst
  | add dst _ _ => some dst
  | subtract dst _ _ => some dst
  | multiply dst _ _ => some dst
  | mix dst _ _ _ => some dst
  | clamp01 dst _ => some dst
  | hueRotate dst _ _ => some dst
  | vectorX dst _ => some dst
  | vectorY dst _ => some dst
  | vectorMagnitude dst _ => some dst
  | vectorNormalizedDirection dst _ => some dst
  | vectorDotConstant dst _ _ => some dst
  | scalarToColor dst _ _ _ => some dst
  | outputColor _ => none

def capability : StudyInstruction F → Option StudyCapability
  | loadCurrentColor _ => some .currentColor
  | loadHistoryColor _ _ => some .historyRead
  | loadMotionVector _ => some .motionFieldRead
  | loadAudioBand _ _ => some .audioFeatures
  | loadBeatPhase _ => some .beatPhase
  | loadDeterministicRandom _ _ => some .deterministicRandom
  | constantScalar _ _ => none
  | constantVector2 _ _ => none
  | constantColor _ _ => none
  | add _ _ _ => none
  | subtract _ _ _ => none
  | multiply _ _ _ => none
  | mix _ _ _ _ => none
  | clamp01 _ _ => none
  | hueRotate _ _ _ => none
  | vectorX _ _ => none
  | vectorY _ _ => none
  | vectorMagnitude _ _ => none
  | vectorNormalizedDirection _ _ => none
  | vectorDotConstant _ _ _ => none
  | scalarToColor _ _ _ _ => none
  | outputColor _ => none

def minimumAbiMinor : StudyInstruction F → ℕ
  | vectorX _ _ => 1
  | vectorY _ _ => 1
  | vectorMagnitude _ _ => 1
  | vectorNormalizedDirection _ _ => 1
  | vectorDotConstant _ _ _ => 1
  | scalarToColor _ _ _ _ => 1
  | loadCurrentColor _ => 0
  | loadHistoryColor _ _ => 0
  | loadMotionVector _ => 0
  | loadAudioBand _ _ => 0
  | loadBeatPhase _ => 0
  | loadDeterministicRandom _ _ => 0
  | constantScalar _ _ => 0
  | constantVector2 _ _ => 0
  | constantColor _ _ => 0
  | add _ _ _ => 0
  | subtract _ _ _ => 0
  | multiply _ _ _ => 0
  | mix _ _ _ _ => 0
  | clamp01 _ _ => 0
  | hueRotate _ _ _ => 0
  | outputColor _ => 0

end StudyInstruction

structure StudyDocument (F : Type*) where
  schemaVersion : ℕ
  abi : StudyAbiVersion
  metadata : StudyMetadata
  capabilities : List StudyCapability
  instructions : List (StudyInstruction F)

inductive StudyError
  | unsupportedSchemaVersion (version : ℕ)
  | unsupportedAbi (version : StudyAbiVersion)
  | documentBytes (bytes : ℕ)
  | invalidText (field : String) (maxBytes : ℕ)
  | tooManyCapabilities (count : ℕ)
  | capabilitiesNotCanonical
  | instructionCount (count : ℕ)
  | opcodeRequiresAbi (instruction requiredMinor declaredMinor : ℕ)
  | registerReassigned (register : StudyRegister)
  | registerReadBeforeDefinition (register : StudyRegister)
  | typeMismatch (instruction : ℕ) (expected observed : StudyValueType)
  | historyAge (age : UInt8)
  | audioBand (band : UInt8)
  | nonFiniteOrUnboundedConstant
  | outputNotFinal (instruction : ℕ)
  | outputCount (count : ℕ)
  | serialization (message : String)

/-- The characters with the Unicode property `White_Space`. -/
def isWhitespace (character : Char) : Bool :=
  let code := character.toNat
  (9 ≤ code && code ≤ 13) || code == 0x20 || code == 0x85 || code == 0xA0 ||
    code == 0x1680 || (0x2000 ≤ code && code ≤ 0x200A) || code == 0x2028 ||
    code == 0x2029 || code == 0x202F || code == 0x205F || code == 0x3000

/-- The characters of the category `Cc`. -/
def isControl (character : Char) : Bool :=
  let code := character.toNat
  code ≤ 0x1F || (0x7F ≤ code && code ≤ 0x9F)

def trim (text : List Char) : List Char :=
  ((text.dropWhile isWhitespace).reverse.dropWhile isWhitespace).reverse

def validateText (field value : String) (maxBytes : ℕ) (emptyAllowed : Bool) :
    Except StudyError Unit :=
  if (!emptyAllowed && value.isEmpty) || maxBytes < value.utf8ByteSize ||
      trim value.toList ≠ value.toList ||
      value.toList.any (fun character =>
        isControl character && character != '\n' && character != '\t') then
    .error (.invalidText field maxBytes)
  else .ok ()

def validateMetadata (metadata : StudyMetadata) : Except StudyError Unit := do
  validateText "name" metadata.name studyMaxNameBytes false
  validateText "author" metadata.author studyMaxAuthorBytes false
  validateText "description" metadata.description studyMaxDescriptionBytes true
  validateText "license identifier" metadata.license.identifier studyMaxLicenseIdBytes false
  validateText "license notice" metadata.license.notice studyMaxLicenseNoticeBytes true

section

variable {F : Type*} [FloatOps F]

def studyMaxFiniteValue : F := FloatOps.lit 65504

/-- Finite and within the representable range of the ABI. -/
def InRange (value : F) : Prop :=
  FloatOps.isFinite value = true ∧ FloatOps.lt studyMaxFiniteValue (FloatOps.abs value) = false

instance (value : F) : Decidable (InRange value) := inferInstanceAs (Decidable (_ ∧ _))

def validateFiniteValues (values : List F) : Except StudyError Unit :=
  if values.any (fun value => !FloatOps.isFinite value ||
      FloatOps.lt studyMaxFiniteValue (FloatOps.abs value)) then
    .error .nonFiniteOrUnboundedConstant
  else .ok ()

abbrev RegisterTypes := StudyRegister → Option StudyValueType

def defineRegister (registers : RegisterTypes) (register : StudyRegister)
    (valueType : StudyValueType) : RegisterTypes :=
  Function.update registers register (some valueType)

def readRegister (registers : RegisterTypes) (register : StudyRegister) :
    Except StudyError StudyValueType :=
  match registers register with
  | some valueType => .ok valueType
  | none => .error (.registerReadBeforeDefinition register)

def requireType (registers : RegisterTypes) (register : StudyRegister)
    (expected : StudyValueType) (instruction : ℕ) : Except StudyError Unit := do
  let observed ← readRegister registers register
  refuse (observed ≠ expected) (.typeMismatch instruction expected observed)

/-- The typing arm of an instruction: the registers after it.  The operands are
read before the destination is defined. -/
def typeInstruction (count index : ℕ) (types : RegisterTypes) :
    StudyInstruction F → Except StudyError RegisterTypes
  | .loadCurrentColor dst => return defineRegister types dst .color
  | .loadHistoryColor dst age => do
      refuse (age = 0 ∨ studyMaxHistoryAge < age.toNat) (.historyAge age)
      return defineRegister types dst .color
  | .constantColor dst value => do
      validateFiniteValues [value.x, value.y, value.z, value.w]
      return defineRegister types dst .color
  | .loadMotionVector dst => return defineRegister types dst .vector2
  | .constantVector2 dst value => do
      validateFiniteValues [value.x, value.y]
      return defineRegister types dst .vector2
  | .loadAudioBand dst band => do
      refuse (studyMaxAudioBands ≤ band.toNat) (.audioBand band)
      return defineRegister types dst .scalar
  | .loadBeatPhase dst => return defineRegister types dst .scalar
  | .loadDeterministicRandom dst _ => return defineRegister types dst .scalar
  | .constantScalar dst value => do
      validateFiniteValues [value]
      return defineRegister types dst .scalar
  | .add dst left right => binary dst left right
  | .subtract dst left right => binary dst left right
  | .multiply dst left right => binary dst left right
  | .mix dst a b amount => do
      let aType ← readRegister types a
      let bType ← readRegister types b
      refuse (aType ≠ bType) (.typeMismatch index aType bType)
      requireType types amount .scalar index
      return defineRegister types dst aType
  | .clamp01 dst input => do
      let inputType ← readRegister types input
      return defineRegister types dst inputType
  | .hueRotate dst color turns => do
      requireType types color .color index
      requireType types turns .scalar index
      return defineRegister types dst .color
  | .vectorX dst input => component dst input
  | .vectorY dst input => component dst input
  | .vectorMagnitude dst input => component dst input
  | .vectorNormalizedDirection dst input => do
      requireType types input .vector2 index
      return defineRegister types dst .vector2
  | .vectorDotConstant dst input vector => do
      requireType types input .vector2 index
      validateFiniteValues [vector.x, vector.y]
      return defineRegister types dst .scalar
  | .scalarToColor dst scalar low high => do
      requireType types scalar .scalar index
      requireType types low .color index
      requireType types high .color index
      return defineRegister types dst .color
  | .outputColor color => do
      refuse (index + 1 ≠ count) (.outputNotFinal index)
      requireType types color .color index
      return types
where
  /-- Two operands of one type. -/
  binary (dst left right : StudyRegister) : Except StudyError RegisterTypes := do
    let leftType ← readRegister types left
    let rightType ← readRegister types right
    refuse (leftType ≠ rightType) (.typeMismatch index leftType rightType)
    return defineRegister types dst leftType
  /-- A scalar of one vector. -/
  component (dst input : StudyRegister) : Except StudyError RegisterTypes := do
    requireType types input .vector2 index
    return defineRegister types dst .scalar

/-- The local variables of the loop over the instructions. -/
structure Checked where
  registerTypes : RegisterTypes
  derivedCapabilities : Finset StudyCapability
  outputCount : ℕ

def Checked.start : Checked := ⟨fun _ => none, ∅, 0⟩

/-- The destination of an instruction must not be defined yet. -/
def requireUnassigned (types : RegisterTypes) : Option StudyRegister → Except StudyError Unit
  | some destination => refuse ((types destination).isSome) (.registerReassigned destination)
  | none => .ok ()

/-- One turn of the loop: version, capability, destination, types. -/
def checkInstruction (abi : StudyAbiVersion) (count : ℕ) (checked : Checked)
    (entry : StudyInstruction F × ℕ) : Except StudyError Checked := do
  let (instruction, index) := entry
  refuse (abi.minor < instruction.minimumAbiMinor)
    (.opcodeRequiresAbi index instruction.minimumAbiMinor abi.minor)
  requireUnassigned checked.registerTypes instruction.destination
  let types ← typeInstruction count index checked.registerTypes instruction
  return {
    registerTypes := types
    derivedCapabilities :=
      match instruction.capability with
      | some capability => insert capability checked.derivedCapabilities
      | none => checked.derivedCapabilities
    outputCount :=
      match instruction with
      | .outputColor _ => checked.outputCount + 1
      | _ => checked.outputCount }

def StudyDocument.check (document : StudyDocument F) : Except StudyError Checked :=
  StraightLine.run (checkInstruction document.abi document.instructions.length)
    Checked.start document.instructions.zipIdx

def StudyDocument.validate (document : StudyDocument F) :
    Except StudyError Unit := do
  refuse (document.schemaVersion ≠ studySchemaVersion)
    (.unsupportedSchemaVersion document.schemaVersion)
  refuse (document.abi.major ≠ studyAbiMajor ∨ studyAbiMinor < document.abi.minor)
    (.unsupportedAbi document.abi)
  validateMetadata document.metadata
  refuse (studyMaxCapabilities < document.capabilities.length)
    (.tooManyCapabilities document.capabilities.length)
  refuse (document.instructions = [] ∨ studyMaxInstructions < document.instructions.length)
    (.instructionCount document.instructions.length)
  let checked ← document.check
  refuse (checked.outputCount ≠ 1) (.outputCount checked.outputCount)
  let declared := document.capabilities.toFinset
  refuse (declared.card ≠ document.capabilities.length ∨
      document.capabilities ≠ declared.sort ∨
      declared ≠ checked.derivedCapabilities)
    .capabilitiesNotCanonical

end

/-!
## The typing rules of Studies

The validator types a register when an instruction defines it.
-/

variable {F : Type*} [FloatOps F]

/-- `Rule count index types instruction types'`: the instruction at `index` is
well typed over `types` and leaves `types'`. -/
inductive Rule (count index : ℕ) (types : RegisterTypes) : StudyInstruction F → RegisterTypes → Prop
  | loadCurrentColor {dst} :
      Rule count index types (.loadCurrentColor dst) (defineRegister types dst .color)
  | loadHistoryColor {dst age} (hpos : 1 ≤ age.toNat)
      (hle : age.toNat ≤ studyMaxHistoryAge) :
      Rule count index types (.loadHistoryColor dst age) (defineRegister types dst .color)
  | loadMotionVector {dst} :
      Rule count index types (.loadMotionVector dst) (defineRegister types dst .vector2)
  | loadAudioBand {dst band} (hband : band.toNat < studyMaxAudioBands) :
      Rule count index types (.loadAudioBand dst band) (defineRegister types dst .scalar)
  | loadBeatPhase {dst} :
      Rule count index types (.loadBeatPhase dst) (defineRegister types dst .scalar)
  | loadDeterministicRandom {dst domain} :
      Rule count index types (.loadDeterministicRandom dst domain)
        (defineRegister types dst .scalar)
  | constantScalar {dst value} (hvalue : InRange value) :
      Rule count index types (.constantScalar dst value) (defineRegister types dst .scalar)
  | constantVector2 {dst value} (hx : InRange value.x) (hy : InRange value.y) :
      Rule count index types (.constantVector2 dst value) (defineRegister types dst .vector2)
  | constantColor {dst value} (hx : InRange value.x) (hy : InRange value.y)
      (hz : InRange value.z) (hw : InRange value.w) :
      Rule count index types (.constantColor dst value) (defineRegister types dst .color)
  | add {dst left right type} (hleft : types left = some type)
      (hright : types right = some type) :
      Rule count index types (.add dst left right) (defineRegister types dst type)
  | subtract {dst left right type} (hleft : types left = some type)
      (hright : types right = some type) :
      Rule count index types (.subtract dst left right) (defineRegister types dst type)
  | multiply {dst left right type} (hleft : types left = some type)
      (hright : types right = some type) :
      Rule count index types (.multiply dst left right) (defineRegister types dst type)
  | mix {dst a b amount type} (ha : types a = some type)
      (hb : types b = some type) (hamount : types amount = some .scalar) :
      Rule count index types (.mix dst a b amount) (defineRegister types dst type)
  | clamp01 {dst input type} (hinput : types input = some type) :
      Rule count index types (.clamp01 dst input) (defineRegister types dst type)
  | hueRotate {dst color turns} (hcolor : types color = some .color)
      (hturns : types turns = some .scalar) :
      Rule count index types (.hueRotate dst color turns) (defineRegister types dst .color)
  | vectorX {dst input} (hinput : types input = some .vector2) :
      Rule count index types (.vectorX dst input) (defineRegister types dst .scalar)
  | vectorY {dst input} (hinput : types input = some .vector2) :
      Rule count index types (.vectorY dst input) (defineRegister types dst .scalar)
  | vectorMagnitude {dst input} (hinput : types input = some .vector2) :
      Rule count index types (.vectorMagnitude dst input) (defineRegister types dst .scalar)
  | vectorNormalizedDirection {dst input}
      (hinput : types input = some .vector2) :
      Rule count index types (.vectorNormalizedDirection dst input)
        (defineRegister types dst .vector2)
  | vectorDotConstant {dst input vector} (hinput : types input = some .vector2)
      (hx : InRange vector.x) (hy : InRange vector.y) :
      Rule count index types (.vectorDotConstant dst input vector)
        (defineRegister types dst .scalar)
  | scalarToColor {dst scalar low high} (hscalar : types scalar = some .scalar)
      (hlow : types low = some .color) (hhigh : types high = some .color) :
      Rule count index types (.scalarToColor dst scalar low high) (defineRegister types dst .color)
  | outputColor {color} (hlast : index + 1 = count)
      (hcolor : types color = some .color) :
      Rule count index types (.outputColor color) types

section

variable {types types' : RegisterTypes} {count index : ℕ}

variable {register : StudyRegister}

@[simp]
theorem readRegister_ok {valueType : StudyValueType} :
    readRegister types register = .ok valueType ↔ types register = some valueType := by
  unfold readRegister
  cases types register with
  | none | some observed => simp

@[simp]
theorem requireType_ok {expected : StudyValueType} :
    requireType types register expected index = .ok () ↔ types register = some expected := by
  simp [requireType]

@[simp]
theorem validateFiniteValues_ok {values : List F} :
    validateFiniteValues values = .ok () ↔ ∀ value ∈ values, InRange value := by
  unfold validateFiniteValues
  rw [ite_eq_right_iff]
  simp [InRange]

variable {dst : StudyRegister}

@[simp]
theorem binary_ok {left right : StudyRegister} :
    typeInstruction.binary index types dst left right = .ok types' ↔
      ∃ type, types left = some type ∧ types right = some type ∧
        defineRegister types dst type = types' := by
  simp [typeInstruction.binary]

@[simp]
theorem component_ok {input : StudyRegister} :
    typeInstruction.component index types dst input = .ok types' ↔
      types input = some .vector2 ∧ defineRegister types dst .scalar = types' := by
  simp [typeInstruction.component]

theorem typeInstruction_ok {instruction : StudyInstruction F}
    (h : typeInstruction count index types instruction = .ok types') :
    Rule count index types instruction types' := by
  cases instruction with
  | loadCurrentColor dst =>
    obtain rfl : _ = types' := by simpa [typeInstruction] using h
    exact .loadCurrentColor
  | loadHistoryColor dst age =>
    obtain ⟨⟨hpos, hle⟩, rfl⟩ : (age ≠ 0 ∧ age.toNat ≤ studyMaxHistoryAge) ∧
        defineRegister types dst .color = types' := by
      simpa [typeInstruction] using h
    refine .loadHistoryColor (Nat.one_le_iff_ne_zero.mpr ?_) hle
    intro hzero
    exact hpos (UInt8.toNat_inj.mp hzero)
  | loadMotionVector dst =>
    obtain rfl : _ = types' := by simpa [typeInstruction] using h
    exact .loadMotionVector
  | loadAudioBand dst band =>
    obtain ⟨hband, rfl⟩ : band.toNat < studyMaxAudioBands ∧
        defineRegister types dst .scalar = types' := by
      simpa [typeInstruction] using h
    exact .loadAudioBand hband
  | loadBeatPhase dst =>
    obtain rfl : _ = types' := by simpa [typeInstruction] using h
    exact .loadBeatPhase
  | loadDeterministicRandom dst domain =>
    obtain rfl : _ = types' := by simpa [typeInstruction] using h
    exact .loadDeterministicRandom
  | constantScalar dst value =>
    obtain ⟨hval, rfl⟩ : InRange value ∧ defineRegister types dst .scalar = types' := by
      simpa [typeInstruction] using h
    exact .constantScalar hval
  | constantVector2 dst value =>
    obtain ⟨⟨hx, hy⟩, rfl⟩ : (InRange value.x ∧ InRange value.y) ∧
        defineRegister types dst .vector2 = types' := by
      simpa [typeInstruction] using h
    exact .constantVector2 hx hy
  | constantColor dst value =>
    obtain ⟨⟨hx, hy, hz, hw⟩, rfl⟩ : (InRange value.x ∧ InRange value.y ∧
        InRange value.z ∧ InRange value.w) ∧
        defineRegister types dst .color = types' := by
      simpa [typeInstruction] using h
    exact .constantColor hx hy hz hw
  | add dst left right =>
    obtain ⟨type, hleft, hright, rfl⟩ := binary_ok.mp h
    exact .add hleft hright
  | subtract dst left right =>
    obtain ⟨type, hleft, hright, rfl⟩ := binary_ok.mp h
    exact .subtract hleft hright
  | multiply dst left right =>
    obtain ⟨type, hleft, hright, rfl⟩ := binary_ok.mp h
    exact .multiply hleft hright
  | mix dst a b amount =>
    obtain ⟨type, ha, hb, hamount, rfl⟩ : ∃ type, types a = some type ∧
        types b = some type ∧ types amount = some .scalar ∧
        defineRegister types dst type = types' := by
      simpa [typeInstruction] using h
    exact .mix ha hb hamount
  | clamp01 dst input =>
    obtain ⟨type, hinp, rfl⟩ : ∃ type, types input = some type ∧
        defineRegister types dst type = types' := by
      simpa [typeInstruction] using h
    exact .clamp01 hinp
  | hueRotate dst color turns =>
    obtain ⟨hcolor, hturns, rfl⟩ : types color = some .color ∧
        types turns = some .scalar ∧ defineRegister types dst .color = types' := by
      simpa [typeInstruction] using h
    exact .hueRotate hcolor hturns
  | vectorX dst input =>
    obtain ⟨hinp, rfl⟩ := component_ok.mp h
    exact .vectorX hinp
  | vectorY dst input =>
    obtain ⟨hinp, rfl⟩ := component_ok.mp h
    exact .vectorY hinp
  | vectorMagnitude dst input =>
    obtain ⟨hinp, rfl⟩ := component_ok.mp h
    exact .vectorMagnitude hinp
  | vectorNormalizedDirection dst input =>
    obtain ⟨hinp, rfl⟩ : types input = some .vector2 ∧
        defineRegister types dst .vector2 = types' := by
      simpa [typeInstruction] using h
    exact .vectorNormalizedDirection hinp
  | vectorDotConstant dst input vector =>
    obtain ⟨hinp, ⟨hx, hy⟩, rfl⟩ : types input = some .vector2 ∧
        (InRange vector.x ∧ InRange vector.y) ∧
        defineRegister types dst .scalar = types' := by
      simpa [typeInstruction] using h
    exact .vectorDotConstant hinp hx hy
  | scalarToColor dst scalar low high =>
    obtain ⟨hscalar, hlow, hhigh, rfl⟩ : types scalar = some .scalar ∧
        types low = some .color ∧ types high = some .color ∧
        defineRegister types dst .color = types' := by
      simpa [typeInstruction] using h
    exact .scalarToColor hscalar hlow hhigh
  | outputColor color =>
    obtain ⟨hlast, hcolor, rfl⟩ : index + 1 = count ∧
        types color = some .color ∧ types = types' := by
      simpa [typeInstruction] using h
    exact .outputColor hlast hcolor

end

theorem checkInstruction_ok {abi : StudyAbiVersion} {count index : ℕ}
    {checked checked' : Checked} {instruction : StudyInstruction F}
    (h : checkInstruction abi count checked (instruction, index) = .ok checked') :
    Rule count index checked.registerTypes instruction checked'.registerTypes ∧
    (∀ dst, instruction.destination = some dst → checked.registerTypes dst = none) ∧
    (∀ capability, capability ∈ checked'.derivedCapabilities ↔
      instruction.capability = some capability ∨ capability ∈ checked.derivedCapabilities) ∧
    checked'.outputCount = checked.outputCount +
      (if instruction.destination = none then 1 else 0) := by
  simp only [checkInstruction, bind_ok, pure_ok] at h
  obtain ⟨-, -, ⟨⟩, hunassigned, types, htypes, rfl⟩ := h
  refine ⟨typeInstruction_ok htypes, ?_, ?_, ?_⟩
  · intro dst hdst
    rw [hdst] at hunassigned
    simpa [requireUnassigned] using hunassigned
  · intro capability
    cases hcap : instruction.capability with
    | none => simp
    | some derived => simp [eq_comm]
  · cases instruction <;> simp [StudyInstruction.destination]

structure Validated (document : StudyDocument F) (checked : Checked) : Prop where
  check_eq : document.check = .ok checked
  length_le : document.instructions.length ≤ studyMaxInstructions
  outputCount_eq : checked.outputCount = 1
  capabilities_eq : document.capabilities = checked.derivedCapabilities.sort

theorem validate_ok {document : StudyDocument F}
    (h : document.validate = .ok ()) : ∃ checked, Validated document checked := by
  simp only [StudyDocument.validate, bind_ok, refuse_ok, exists_unit, not_or,
    not_not, Nat.not_lt] at h
  obtain ⟨-, -, -, -, ⟨-, hlen⟩, checked, hcheck, hout, -, hsort, hderived⟩ := h
  exact ⟨checked, hcheck, hlen, hout, hderived ▸ hsort⟩

end CollideOScope.Study
