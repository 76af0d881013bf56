import CollideOScope.Performance.Law
import CollideOScope.Support.Fields

/-!
# Stored addresses

An address is a control with the law its events are encoded against.  It is
stored as a flat record of optional fields; `RawAddress` holds the fields that
were read, and `RawAddress.intoAddress` refuses a shape that mixes fields of
different kinds or laws.  The format that carries the fields is a parameter.
-/

namespace CollideOScope.Performance

open List CollideOScope.Checks

structure PerformanceAddress where
  control : PerformanceControl
  law : PerformanceValueLaw

namespace PerformanceAddress

def validate (address : PerformanceAddress) :
    Except PerformanceError Unit := do
  address.control.validate
  address.law.validate

/-- What `validate` accepts. -/
structure Valid (address : PerformanceAddress) : Prop where
  control : address.control.Valid
  law : address.law.Valid

theorem validate_ok {address : PerformanceAddress} {u : Unit} :
    address.validate = .ok u ↔ address.Valid := by
  simp only [validate, bind_ok, exists_unit, PerformanceControl.validate_ok,
    PerformanceValueLaw.validate_ok]
  constructor
  · rintro ⟨hctl, hlaw⟩
    exact ⟨hctl, hlaw⟩
  · rintro ⟨hctl, hlaw⟩
    exact ⟨hctl, hlaw⟩

end PerformanceAddress

/-- A self-describing format: what is written at a type is read at that type.
Only finite floating-point values are. -/
structure SerdeFormat where
  Value : Type
  ofU16 : UInt16 → Value
  toU16 : Value → Option UInt16
  toU16_ofU16 : ∀ v, toU16 (ofU16 v) = some v
  ofU32 : UInt32 → Value
  toU32 : Value → Option UInt32
  toU32_ofU32 : ∀ v, toU32 (ofU32 v) = some v
  ofI64 : Int64 → Value
  toI64 : Value → Option Int64
  toI64_ofI64 : ∀ v, toI64 (ofI64 v) = some v
  ofF32 : F32 → Value
  toF32 : Value → Option F32
  toF32_ofF32 : ∀ v, v.isFinite → toF32 (ofF32 v) = some v
  ofString : String → Value
  toString : Value → Option String
  toString_ofString : ∀ v, toString (ofString v) = some v
  ofStrings : List String → Value
  toStrings : Value → Option (List String)
  toStrings_ofStrings : ∀ v, toStrings (ofStrings v) = some v

inductive TaggedValue
  | u16 (value : UInt16)
  | u32 (value : UInt32)
  | i64 (value : Int64)
  | f32 (value : F32)
  | string (value : String)
  | strings (values : List String)

def taggedFormat : SerdeFormat where
  Value := TaggedValue
  ofU16 := .u16
  toU16 | .u16 value => some value | _ => none
  toU16_ofU16 _ := rfl
  ofU32 := .u32
  toU32 | .u32 value => some value | _ => none
  toU32_ofU32 _ := rfl
  ofI64 := .i64
  toI64 | .i64 value => some value | _ => none
  toI64_ofI64 _ := rfl
  ofF32 := .f32
  toF32 | .f32 value => some value | _ => none
  toF32_ofF32 _ _ := rfl
  ofString := .string
  toString | .string value => some value | _ => none
  toString_ofString _ := rfl
  ofStrings := .strings
  toStrings | .strings values => some values | _ => none
  toStrings_ofStrings _ := rfl

section

variable (format : SerdeFormat)

def PerformanceValueLaw.fields : PerformanceValueLaw → List (String × Option format.Value)
  | .unit min max => [("min", some (format.ofF32 min)), ("max", some (format.ofF32 max))]
  | .discrete vocab => [("vocab", some (format.ofStrings vocab))]
  | .toggle => []
  | .stepped min max =>
    [("step_min", some (format.ofI64 min)), ("step_max", some (format.ofI64 max))]

/-- The fields of an address in the order they are written. -/
def PerformanceAddress.serialize (address : PerformanceAddress) : List (String × format.Value) :=
  let control := address.control
  presentFields
    ([("kind", some (format.ofString control.kindToken)), ("layer", control.layer.map format.ofU32),
      ("node_id", control.node.map fun node => format.ofString (toString node)),
      ("group_id",
        control.group.map fun group => format.ofString (toString group)),
      ("node_kind", control.nodeKind.map format.ofString),
      ("target_q16", control.targetQ16.map format.ofU16),
      ("routing", control.routing?.map format.ofU32),
      ("param", control.param.map format.ofString),
      ("law", some (format.ofString address.law.lawToken))] ++ address.law.fields format)

end

structure RawAddress where
  kind : String
  layer : Option UInt32
  (param nodeId groupId nodeKind : Option String)
  targetQ16 : Option UInt16
  routing : Option UInt32
  law : String
  (min max : Option F32)
  vocab : Option (List String)
  (stepMin stepMax : Option Int64)

inductive DeserializeError
  | unknownField (name : String)
  | duplicateField (name : String)
  | missingField (name : String)
  | invalidType (name : String)
  | custom (error : PerformanceError)

namespace RawAddress

def fieldNames : List String :=
  ["kind", "layer", "param", "node_id", "group_id", "node_kind", "target_q16",
    "routing", "law", "min", "max", "vocab", "step_min", "step_max"]

/-- A field with a default: absent, or of its type. -/
def optional {V α : Type} (fields : List (String × V)) (name : String)
    (read : V → Option α) : Except DeserializeError (Option α) :=
  match fields.lookup name with
  | none => pure none
  | some value =>
    match read value with
    | none => throw (.invalidType name)
    | some a => pure (some a)

def required {V α : Type} (fields : List (String × V)) (name : String)
    (read : V → Option α) : Except DeserializeError α := do
  match ← optional fields name read with
  | none => throw (.missingField name)
  | some a => pure a

/-- The derived reader with unknown fields denied. -/
def deserialize (format : SerdeFormat) (fields : List (String × format.Value)) :
    Except DeserializeError RawAddress := do
  forEach (fun field => refuse (field.1 ∉ fieldNames) (.unknownField field.1)) fields
  refuseRepeats Prod.fst (fun field => .duplicateField field.1) [] fields
  let kind ← required fields "kind" format.toString
  let layer ← optional fields "layer" format.toU32
  let param ← optional fields "param" format.toString
  let nodeId ← optional fields "node_id" format.toString
  let groupId ← optional fields "group_id" format.toString
  let nodeKind ← optional fields "node_kind" format.toString
  let targetQ16 ← optional fields "target_q16" format.toU16
  let routing ← optional fields "routing" format.toU32
  let law ← required fields "law" format.toString
  let min ← optional fields "min" format.toF32
  let max ← optional fields "max" format.toF32
  let vocab ← optional fields "vocab" format.toStrings
  let stepMin ← optional fields "step_min" format.toI64
  let stepMax ← optional fields "step_max" format.toI64
  pure ⟨kind, layer, param, nodeId, groupId, nodeKind, targetQ16, routing, law,
    min, max, vocab, stepMin, stepMax⟩

def intoLaw (raw : RawAddress) : Except PerformanceError PerformanceValueLaw :=
  match raw.law with
  | "unit" =>
    match raw.min, raw.max, raw.vocab, raw.stepMin, raw.stepMax with
    | some min, some max, none, none, none => pure (.unit min max)
    | _, _, _, _, _ => throw (.malformedAddress raw.law)
  | "discrete" =>
    match raw.min, raw.max, raw.vocab, raw.stepMin, raw.stepMax with
    | none, none, some vocab, none, none => do
        refuse (vocab.length > maxPerformanceVocabTokens) (.vocabTokens vocab.length)
        pure (.discrete vocab)
    | _, _, _, _, _ => throw (.malformedAddress raw.law)
  | "toggle" =>
    match raw.min, raw.max, raw.vocab, raw.stepMin, raw.stepMax with
    | none, none, none, none, none => pure .toggle
    | _, _, _, _, _ => throw (.malformedAddress raw.law)
  | "stepped" =>
    match raw.min, raw.max, raw.vocab, raw.stepMin, raw.stepMax with
    | none, none, none, some min, some max => pure (.stepped min max)
    | _, _, _, _, _ => throw (.malformedAddress raw.law)
  | other => throw (.malformedAddress other)

def intoAddress (raw : RawAddress) :
    Except PerformanceError PerformanceAddress := do
  let control ← PerformanceControl.fromParts raw.kind raw.layer raw.param
    raw.nodeId raw.groupId raw.nodeKind raw.targetQ16 raw.routing
  let law ← raw.intoLaw
  let address : PerformanceAddress := ⟨control, law⟩
  address.validate
  pure address

end RawAddress

def PerformanceAddress.deserialize (format : SerdeFormat) (fields : List (String × format.Value)) :
    Except DeserializeError PerformanceAddress := do
  let raw ← RawAddress.deserialize format fields
  raw.intoAddress.mapError .custom

namespace PerformanceValueLaw

def min? : PerformanceValueLaw → Option F32
  | unit min _ => some min
  | _ => none

def max? : PerformanceValueLaw → Option F32
  | unit _ max => some max
  | _ => none

def vocab? : PerformanceValueLaw → Option (List String)
  | discrete vocab => some vocab
  | _ => none

def stepMin? : PerformanceValueLaw → Option Int64
  | stepped min _ => some min
  | _ => none

def stepMax? : PerformanceValueLaw → Option Int64
  | stepped _ max => some max
  | _ => none

end PerformanceValueLaw

namespace PerformanceAddress

/-- The fields of an address, present or not. -/
def slots (format : SerdeFormat) (address : PerformanceAddress) :
    List (String × Option format.Value) :=
  let control := address.control
  let law := address.law
  [("kind", some (format.ofString control.kindToken)), ("layer", control.layer.map format.ofU32),
    ("node_id", (control.node.map toString).map format.ofString),
    ("group_id", (control.group.map toString).map format.ofString),
    ("node_kind", control.nodeKind.map format.ofString),
    ("target_q16", control.targetQ16.map format.ofU16),
    ("routing", control.routing?.map format.ofU32),
    ("param", control.param.map format.ofString),
    ("law", some (format.ofString law.lawToken)),
    ("min", law.min?.map format.ofF32), ("max", law.max?.map format.ofF32),
    ("vocab", law.vocab?.map format.ofStrings),
    ("step_min", law.stepMin?.map format.ofI64),
    ("step_max", law.stepMax?.map format.ofI64)]

theorem serialize_eq (format : SerdeFormat) (address : PerformanceAddress) :
    address.serialize format = presentFields (address.slots format) := by
  obtain ⟨control, law⟩ := address
  have hlaw : presentFields (law.fields format) = presentFields
      [("min", law.min?.map format.ofF32), ("max", law.max?.map format.ofF32),
        ("vocab", law.vocab?.map format.ofStrings),
        ("step_min", law.stepMin?.map format.ofI64),
        ("step_max", law.stepMax?.map format.ofI64)] := by
    cases law <;> rfl
  simp only [serialize, presentFields_append, hlaw]
  rw [← presentFields_append]
  simp only [slots, Option.map_map]
  rfl

def raw (address : PerformanceAddress) : RawAddress where
  kind := address.control.kindToken
  layer := address.control.layer
  param := address.control.param
  nodeId := address.control.node.map toString
  groupId := address.control.group.map toString
  nodeKind := address.control.nodeKind
  targetQ16 := address.control.targetQ16
  routing := address.control.routing?
  law := address.law.lawToken
  min := address.law.min?
  max := address.law.max?
  vocab := address.law.vocab?
  stepMin := address.law.stepMin?
  stepMax := address.law.stepMax?

variable {name : String} {V : Type} {fields : List (String × V)} {α : Type}
  {read : V → Option α} {write : α → V}

theorem optional_ok {value : Option α} (hlook : fields.lookup name = value.map write)
    (hread : ∀ a ∈ value, read (write a) = some a) :
    RawAddress.optional fields name read = .ok value := by
  rw [RawAddress.optional, hlook]
  cases value with
  | none => rfl
  | some a =>
    rw [Option.map_some]
    simp only [hread a rfl]
    rfl

theorem required_ok {value : α} (hlook : fields.lookup name = some (write value))
    (hread : read (write value) = some value) :
    RawAddress.required fields name read = .ok value := by
  have hpres : fields.lookup name = (some value).map write := hlook
  have hoptional : RawAddress.optional fields name read = .ok (some value) := by
    refine optional_ok hpres fun a ha => ?_
    cases ha
    exact hread
  rw [RawAddress.required, hoptional]
  rfl

variable {address : PerformanceAddress}

theorem deserialize_raw (format : SerdeFormat) (h : address.Valid) :
    RawAddress.deserialize format (address.serialize format) = .ok address.raw := by
  rw [serialize_eq]
  have hnames : (address.slots format).map Prod.fst =
      ["kind", "layer", "node_id", "group_id", "node_kind", "target_q16",
        "routing", "param", "law", "min", "max", "vocab", "step_min",
        "step_max"] := rfl
  have hnd : ((address.slots format).map Prod.fst).Nodup := by
    rw [hnames]
    decide +kernel
  have hsub := names_presentFields (address.slots format)
  have hlook : ∀ {name value}, (name, value) ∈ address.slots format →
      (presentFields (address.slots format)).lookup name = value :=
    fun hmem => lookup_presentFields hnd hmem
  have hmin : ∀ v ∈ address.law.min?, v.isFinite := by
    intro v hv
    obtain ⟨control, law⟩ := address
    cases law <;> cases hv
    exact h.law.1
  have hmax : ∀ v ∈ address.law.max?, v.isFinite := by
    intro v hv
    obtain ⟨control, law⟩ := address
    cases law <;> cases hv
    exact h.law.2.1
  simp only [RawAddress.deserialize, bind_ok, exists_unit, forEach_ok, refuse_ok,
    refuseRepeats_ok nodup_nil, pure_ok, nil_append, not_not]
  refine ⟨?_, hsub.nodup hnd,
    _, required_ok (hlook (by simp [slots])) (format.toString_ofString _),
    _, optional_ok (hlook (by simp [slots])) fun v _ => format.toU32_ofU32 v,
    _, optional_ok (hlook (by simp [slots]))
      fun v _ => format.toString_ofString v,
    _, optional_ok (hlook (by simp [slots]))
      fun v _ => format.toString_ofString v,
    _, optional_ok (hlook (by simp [slots]))
      fun v _ => format.toString_ofString v,
    _, optional_ok (hlook (by simp [slots]))
      fun v _ => format.toString_ofString v,
    _, optional_ok (hlook (by simp [slots])) fun v _ => format.toU16_ofU16 v,
    _, optional_ok (hlook (by simp [slots])) fun v _ => format.toU32_ofU32 v,
    _, required_ok (hlook (by simp [slots])) (format.toString_ofString _),
    _, optional_ok (hlook (by simp [slots]))
      fun v hv => format.toF32_ofF32 v (hmin v hv),
    _, optional_ok (hlook (by simp [slots]))
      fun v hv => format.toF32_ofF32 v (hmax v hv),
    _, optional_ok (hlook (by simp [slots]))
      fun v _ => format.toStrings_ofStrings v,
    _, optional_ok (hlook (by simp [slots])) fun v _ => format.toI64_ofI64 v,
    _, optional_ok (hlook (by simp [slots])) fun v _ => format.toI64_ofI64 v,
    rfl⟩
  intro field hfield
  have hname : field.1 ∈ (address.slots format).map Prod.fst :=
    hsub.subset (mem_map_of_mem hfield)
  rw [hnames] at hname
  have hknown : ∀ name ∈ ["kind", "layer", "node_id", "group_id", "node_kind",
      "target_q16", "routing", "param", "law", "min", "max", "vocab",
      "step_min", "step_max"], name ∈ RawAddress.fieldNames := by
    decide +kernel
  exact hknown _ hname

theorem intoLaw_raw (h : address.Valid) : address.raw.intoLaw = .ok address.law := by
  obtain ⟨control, law⟩ := address
  cases law with
  | unit min max | toggle | stepped min max => rfl
  | discrete vocab =>
    have hcnt : ¬vocab.length > maxPerformanceVocabTokens := not_lt.mpr h.law.2.1
    change (do
      refuse (vocab.length > maxPerformanceVocabTokens) (PerformanceError.vocabTokens vocab.length)
      pure (PerformanceValueLaw.discrete vocab)) = _
    simp only [bind_ok, refuse_ok, hcnt, pure_ok, not_false_eq_true, exists_unit, true_and]

theorem deserialize_serialize (format : SerdeFormat) (h : address.Valid) :
    deserialize format (address.serialize format) = .ok address := by
  have hctl : PerformanceControl.fromParts address.raw.kind
      address.raw.layer address.raw.param address.raw.nodeId
      address.raw.groupId address.raw.nodeKind address.raw.targetQ16
      address.raw.routing = .ok address.control :=
    PerformanceControl.fromParts_parts h.control
  have hinto : address.raw.intoAddress = .ok address := by
    simp only [RawAddress.intoAddress, bind_ok, exists_unit, pure_ok]
    exact ⟨_, hctl, _, intoLaw_raw h, validate_ok.mpr h, rfl⟩
  simp only [deserialize, bind_ok]
  exact ⟨_, deserialize_raw format h, by rw [hinto]; rfl⟩

end PerformanceAddress

end CollideOScope.Performance
