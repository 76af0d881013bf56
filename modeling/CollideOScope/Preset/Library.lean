import CollideOScope.Preset.Values
import CollideOScope.Study.Document
import Mathlib.Algebra.Order.BigOperators.Group.List

/-!
# Libraries of presets

A library is edited by inserting and removing presets, and it is saved as YAML.
An insertion is admitted by the size of the JSON form and by cursors that are
past every identity; saving checks the library again, and then the size of the
YAML form.
-/

namespace CollideOScope.Preset

open List Checks Nat
open Composition

def presetSchemaVersion : ℕ := 1

def presetMaxCount : ℕ := 128

def presetMaxLibraryBytes : ℕ := 8 * 1024 * 1024

def presetMaxEntryBytes : ℕ := 2 * 1024 * 1024

def presetMaxNameBytes : ℕ := 80

def Counter := { value : ℕ // value ≤ u64Max }
  deriving DecidableEq

/-- `checked_add(1).unwrap_or(0)`. -/
def Counter.next (counter : Counter) : Counter := ⟨nextCursor counter.val, nextCursor_le _⟩

/-- `PresetPayload`, for any controller documents and stage maps. -/
inductive PresetPayload (C S : Type)
  | transform (value : SpatialTransform)
  | rack (preset : RackPreset)
  | matte (preset : MattePreset)
  | group (preset : GroupPreset)
  | controllerProfile (document : C)
  | stageMap (document : S)

structure ScopedPreset (C S : Type) where
  schemaVersion : ℕ
  id : PresetId
  name : String
  createdOrdinal : Counter
  payload : PresetPayload C S

structure PresetLibrary (C S : Type) where
  schemaVersion : ℕ
  (nextPresetId nextCreatedOrdinal : Counter)
  presets : List (ScopedPreset C S)

/-- What the library leaves to other code: the encoders of the two foreign
documents, `serde_json` for one preset, of which the number of bytes is used,
and `serde_yaml` for a library, with the texts it gives to refusals. -/
structure Serializers (C S : Type) where
  encodeController : C → Except String Unit
  encodeStageMap : S → Except String Unit
  entryBytes : ScopedPreset C S → Except String ℕ
  render : PresetLibrary C S → Except String String
  parse : String → Except String (PresetLibrary C S)
  tooManyEntries : String
  customError : PresetError → String

variable {C S : Type}

theorem one_isCounter : 1 ≤ u64Max := by
  decide

def PresetLibrary.default : PresetLibrary C S :=
  ⟨presetSchemaVersion, ⟨1, one_isCounter⟩, ⟨1, one_isCounter⟩, []⟩

def validateName (name : String) : Except PresetError Unit := do
  refuse (name.isEmpty = true) .emptyName
  refuse (presetMaxNameBytes < name.utf8ByteSize)
    (.nameTooLong name.utf8ByteSize presetMaxNameBytes)
  refuse (Study.trim name.toList ≠ name.toList ∨
    name.toList.any Study.isControl = true) .invalidName

section

variable (serializers : Serializers C S)

def PresetPayload.validate : PresetPayload C S → Except PresetError Unit
  | transform value => ensureCanonicalTransform value
  | rack preset => preset.validate
  | matte values => refuse (values.equal values.sanitized = false)
      .incompatibleTarget
  | group preset => preset.validate
  | controllerProfile document => (serializers.encodeController document).mapError .serialization
  | stageMap document => (serializers.encodeStageMap document).mapError .serialization

def ScopedPreset.validate (preset : ScopedPreset C S) :
    Except PresetError Unit := do
  refuse (preset.schemaVersion ≠ presetSchemaVersion)
    (.unsupportedSchemaVersion preset.schemaVersion)
  validateName preset.name
  refuse (preset.createdOrdinal.val = 0) (.invalidCreatedOrdinal preset.createdOrdinal.val)
  preset.payload.validate serializers
  let bytes ← (serializers.entryBytes preset).mapError .serialization
  refuse (presetMaxEntryBytes < bytes) (.entryTooLarge bytes presetMaxEntryBytes)

/-- Every preset is valid, and none repeats an identity. -/
def checkPresets : List PresetId → List (ScopedPreset C S) → Except PresetError Unit
  | _, [] => pure ()
  | earlier, preset :: rest => do
      preset.validate serializers
      refuse (preset.id ∈ earlier) (.duplicateId preset.id)
      checkPresets (earlier ++ [preset.id]) rest

end

namespace PresetLibrary

def greatestId (presets : List (ScopedPreset C S)) : ℕ :=
  presets.foldl (fun greatest preset => max greatest preset.id.val) 0

def greatestOrdinal (presets : List (ScopedPreset C S)) : ℕ :=
  presets.foldl (fun greatest preset => max greatest preset.createdOrdinal.val) 0

def jsonBytes (library : PresetLibrary C S) (entries : List ℕ) : ℕ :=
  "\x7b\"schema_version\":".utf8ByteSize + (toString library.schemaVersion).utf8ByteSize +
    ",\"next_preset_id\":".utf8ByteSize +
    (toString library.nextPresetId.val).utf8ByteSize +
    ",\"next_created_ordinal\":".utf8ByteSize +
    (toString library.nextCreatedOrdinal.val).utf8ByteSize +
    ",\"presets\":[".utf8ByteSize + (entries.sum + (entries.length - 1)) +
    "]\x7d".utf8ByteSize

section

variable (serializers : Serializers C S) (library : PresetLibrary C S)

def validate : Except PresetError Unit := do
  refuse (library.schemaVersion ≠ presetSchemaVersion)
    (.unsupportedSchemaVersion library.schemaVersion)
  refuse (presetMaxCount < library.presets.length)
    (.tooManyPresets library.presets.length presetMaxCount)
  checkPresets serializers [] library.presets
  let greatest := greatestId library.presets
  refuse (¬VisualRack.CursorPast library.nextPresetId.val greatest)
    (.invalidNextId library.nextPresetId.val greatest)
  let greatest := greatestOrdinal library.presets
  refuse (¬VisualRack.CursorPast library.nextCreatedOrdinal.val greatest)
    (.invalidNextId library.nextCreatedOrdinal.val greatest)
  let entries ← (library.presets.mapM serializers.entryBytes).mapError
    .serialization
  refuse (presetMaxLibraryBytes < library.jsonBytes entries)
    (.libraryTooLarge (library.jsonBytes entries) presetMaxLibraryBytes)

def insert (name : String) (payload : PresetPayload C S) :
    Except PresetError PresetId × PresetLibrary C S :=
  if library.presets.length = presetMaxCount then
    (.error (.tooManyPresets (library.presets.length + 1) presetMaxCount), library)
  else if h : library.nextPresetId.val = 0 then (.error .idExhausted, library)
  else if library.nextCreatedOrdinal.val = 0 then (.error .idExhausted, library)
  else
    let id : PresetId := ⟨library.nextPresetId.val, pos_of_ne_zero h, library.nextPresetId.2⟩
    let preset : ScopedPreset C S :=
      ⟨presetSchemaVersion, id, name, library.nextCreatedOrdinal, payload⟩
    match preset.validate serializers with
    | .error error => (.error error, library)
    | .ok _ =>
      let candidate : PresetLibrary C S := { library with
        presets := library.presets ++ [preset]
        nextPresetId := library.nextPresetId.next
        nextCreatedOrdinal := library.nextCreatedOrdinal.next }
      match candidate.validate serializers with
      | .error error => (.error error, library)
      | .ok _ => (.ok id, candidate)

def remove (id : PresetId) : Except PresetError (ScopedPreset C S) × PresetLibrary C S :=
  match library.presets.find? fun preset => preset.id = id with
  | none => (.error (.missingPreset id), library)
  | some preset =>
    (.ok preset, { library with presets := library.presets.eraseP fun preset => preset.id = id })

def toYaml : Except PresetError String := do
  library.validate serializers
  let yaml ← (serializers.render library).mapError .serialization
  refuse (presetMaxLibraryBytes < yaml.utf8ByteSize)
    (.libraryTooLarge yaml.utf8ByteSize presetMaxLibraryBytes)
  return yaml

end

def deserialize (serializers : Serializers C S) (yaml : String) :
    Except String (PresetLibrary C S) := do
  let library ← serializers.parse yaml
  refuse (presetMaxCount < library.presets.length) serializers.tooManyEntries
  (forEach (·.validate serializers) library.presets).mapError serializers.customError
  (library.validate serializers).mapError serializers.customError
  return library

def fromYaml (serializers : Serializers C S) (yaml : String) :
    Except PresetError (PresetLibrary C S) := do
  refuse (presetMaxLibraryBytes < yaml.utf8ByteSize)
    (.libraryTooLarge yaml.utf8ByteSize presetMaxLibraryBytes)
  (deserialize serializers yaml).mapError .serialization

end PresetLibrary

inductive PresetEdit (C S : Type)
  | insert (name : String) (payload : PresetPayload C S)
  | remove (id : PresetId)

def PresetEdit.apply (serializers : Serializers C S)
    (library : PresetLibrary C S) : PresetEdit C S → PresetLibrary C S
  | insert name payload => (library.insert serializers name payload).2
  | remove id => (library.remove id).2

def presetEdits (serializers : Serializers C S) : Machine (PresetLibrary C S) (PresetEdit C S) where
  start library := library = .default ∨
    ∃ yaml, PresetLibrary.fromYaml serializers yaml = .ok library
  step library edit := some (edit.apply serializers library)

section

variable {serializers : Serializers C S} {library : PresetLibrary C S}

open PresetLibrary

variable {presets : List (ScopedPreset C S)} {u : Unit}

theorem checkPresets_ok {earlier : List PresetId} (hearl : earlier.Nodup) :
    checkPresets serializers earlier presets = .ok u ↔
      (earlier ++ presets.map ScopedPreset.id).Nodup ∧
        ∀ preset ∈ presets, preset.validate serializers = .ok () := by
  induction presets generalizing earlier with
  | nil => simpa [checkPresets] using hearl
  | cons preset rest ih =>
    simp only [checkPresets, bind_ok, refuse_ok, exists_unit, map_cons, forall_mem_cons]
    rw [nodup_append_cons]
    constructor
    · rintro ⟨hvalid, hfresh, hrest⟩
      obtain ⟨hnd, hall⟩ := (ih (nodup_concat hearl hfresh)).mp hrest
      exact ⟨⟨hfresh, hnd⟩, hvalid, hall⟩
    · rintro ⟨⟨hfresh, hnd⟩, hvalid, hall⟩
      exact ⟨hvalid, hfresh, (ih (nodup_concat hearl hfresh)).mpr ⟨hnd, hall⟩⟩

structure LibraryChecked (serializers : Serializers C S) (library : PresetLibrary C S) : Prop where
  schema : library.schemaVersion = presetSchemaVersion
  length_le : library.presets.length ≤ presetMaxCount
  ids_nodup : (library.presets.map ScopedPreset.id).Nodup
  presets : ∀ preset ∈ library.presets, preset.validate serializers = .ok ()
  bytes : ∃ entries,
    library.presets.mapM serializers.entryBytes = .ok entries ∧
      library.jsonBytes entries ≤ presetMaxLibraryBytes

theorem validate_ok : library.validate serializers = .ok u ↔
    LibraryChecked serializers library ∧
      VisualRack.CursorPast library.nextPresetId.val (greatestId library.presets) ∧
      VisualRack.CursorPast library.nextCreatedOrdinal.val (greatestOrdinal library.presets) := by
  simp only [PresetLibrary.validate, bind_ok, refuse_ok, exists_unit, mapError_ok,
    checkPresets_ok nodup_nil, nil_append, ne_eq, not_not, not_lt]
  constructor
  · rintro ⟨hschema, hlen, ⟨hnd, hall⟩, hid, hord, hbytes⟩
    exact ⟨⟨hschema, hlen, hnd, hall, hbytes⟩, hid, hord⟩
  · rintro ⟨h, hid, hord⟩
    exact ⟨h.schema, h.length_le, ⟨h.ids_nodup, h.presets⟩, hid, hord, h.bytes⟩

theorem mapM_sublist {α β ε : Type} {f : α → Except ε β} {xs ys : List α}
    (hsub : xs.Sublist ys) {results : List β} (h : ys.mapM f = .ok results) :
    ∃ fewer, xs.mapM f = .ok fewer ∧ fewer.Sublist results := by
  induction hsub generalizing results with
  | slnil => exact ⟨results, h, List.Sublist.refl _⟩
  | cons y _ ih =>
    simp only [mapM_cons, bind_ok, pure_ok] at h
    obtain ⟨result, -, rest, hrest, rfl⟩ := h
    obtain ⟨fewer, hfewer, hsub⟩ := ih hrest
    exact ⟨fewer, hfewer, hsub.cons result⟩
  | cons_cons y _ ih =>
    simp only [mapM_cons, bind_ok, pure_ok] at h
    obtain ⟨result, hres, rest, hrest, rfl⟩ := h
    obtain ⟨fewer, hfewer, hsub⟩ := ih hrest
    refine ⟨result :: fewer, ?_, hsub.cons_cons result⟩
    simp only [mapM_cons, bind_ok, pure_ok]
    exact ⟨result, hres, fewer, hfewer, rfl⟩

theorem LibraryChecked.of_sublist (h : LibraryChecked serializers library)
    (hsub : presets.Sublist library.presets) :
    LibraryChecked serializers { library with presets } := by
  obtain ⟨entries, hents, hbytes⟩ := h.bytes
  obtain ⟨fewer, hfewer, hless⟩ := mapM_sublist hsub hents
  refine ⟨h.schema, hsub.length_le.trans h.length_le,
    h.ids_nodup.sublist (hsub.map _), fun preset hpreset =>
      h.presets preset (hsub.subset hpreset), fewer, hfewer, ?_⟩
  have hsum : fewer.sum ≤ entries.sum := hless.sum_le_sum fun _ _ => zero_le _
  have hlen := hless.length_le
  simp only [jsonBytes] at hbytes ⊢
  omega

/-- A checked library whose cursors are past every preset, unless they are
exhausted. -/
structure LibraryInvariant (serializers : Serializers C S)
    (library : PresetLibrary C S) : Prop where
  checked : LibraryChecked serializers library
  id : CursorBeyond library.nextPresetId.val (greatestId library.presets)
  ordinal : CursorBeyond library.nextCreatedOrdinal.val (greatestOrdinal library.presets)

theorem libraryInvariant_of_validate (h : library.validate serializers = .ok ()) :
    LibraryInvariant serializers library := by
  obtain ⟨hcheck, hid, hord⟩ := validate_ok.mp h
  exact ⟨hcheck, cursorBeyond_of_past library.nextPresetId.2 hid,
    cursorBeyond_of_past library.nextCreatedOrdinal.2 hord⟩

theorem jsonBytes_default : (default : PresetLibrary C S).jsonBytes [] ≤ presetMaxLibraryBytes := by
  have hbytes : (default : PresetLibrary Unit Unit).jsonBytes [] ≤ presetMaxLibraryBytes := by
    decide +kernel
  exact hbytes

theorem libraryInvariant_default : LibraryInvariant serializers (default : PresetLibrary C S) := by
  refine libraryInvariant_of_validate (validate_ok.mpr ⟨?_, ?_, ?_⟩)
  · exact ⟨rfl, zero_le _, nodup_nil, fun _ hpreset => absurd hpreset not_mem_nil, [],
      rfl, jsonBytes_default⟩
  · exact .inl ⟨one_ne_zero, one_pos⟩
  · exact .inl ⟨one_ne_zero, one_pos⟩

theorem fromYaml_ok {yaml : String} :
    fromYaml serializers yaml = .ok library ↔
      yaml.utf8ByteSize ≤ presetMaxLibraryBytes ∧
      serializers.parse yaml = .ok library ∧
      library.validate serializers = .ok () := by
  simp only [fromYaml, deserialize, bind_ok, refuse_ok, exists_unit,
    mapError_ok, pure_ok, forEach_ok, not_lt]
  constructor
  · rintro ⟨hsize, parsed, hparse, -, -, hvalid, rfl⟩
    exact ⟨hsize, hparse, hvalid⟩
  · rintro ⟨hsize, hparse, hvalid⟩
    have hcheck := (validate_ok.mp hvalid).1
    exact ⟨hsize, library, hparse, hcheck.length_le, hcheck.presets, hvalid, rfl⟩

def CursorsAdmitted (library : PresetLibrary C S) : Prop :=
  (library.nextPresetId.val ≠ 0 ∨ greatestId library.presets = u64Max) ∧
    (library.nextCreatedOrdinal.val ≠ 0 ∨ greatestOrdinal library.presets = u64Max)

/-- The YAML form of the library is within its limit. -/
def Renders (serializers : Serializers C S) (library : PresetLibrary C S) : Prop :=
  ∃ yaml, serializers.render library = .ok yaml ∧ yaml.utf8ByteSize ≤ presetMaxLibraryBytes

/-- The library is saved, and what is saved loads back as the library. -/
def Reloads (serializers : Serializers C S) (library : PresetLibrary C S) : Prop :=
  ∃ yaml, library.toYaml serializers = .ok yaml ∧ fromYaml serializers yaml = .ok library

theorem LibraryInvariant.reloads_iff (h : LibraryInvariant serializers library)
    (hparse : ∀ library yaml, serializers.render library = .ok yaml →
      serializers.parse yaml = .ok library) :
    Reloads serializers library ↔ CursorsAdmitted library ∧ Renders serializers library := by
  have hvalid : library.validate serializers = .ok () ↔ CursorsAdmitted library := by
    rw [validate_ok, h.id.past_iff, h.ordinal.past_iff]
    exact and_iff_right h.checked
  simp only [Reloads, toYaml, bind_ok, exists_unit, mapError_ok, refuse_ok, pure_ok, not_lt]
  constructor
  · rintro ⟨yaml, ⟨hcheck, rendered, hrender, hsize, rfl⟩, -⟩
    exact ⟨hvalid.mp hcheck, rendered, hrender, hsize⟩
  · rintro ⟨hcursors, yaml, hrender, hsize⟩
    have hcheck := hvalid.mpr hcursors
    exact ⟨yaml, ⟨hcheck, yaml, hrender, hsize, rfl⟩,
      fromYaml_ok.mpr ⟨hsize, hparse library yaml hrender, hcheck⟩⟩

variable {n : ℕ}

theorem greatestId_le_iff : greatestId presets ≤ n ↔ ∀ preset ∈ presets, preset.id.val ≤ n := by
  rw [greatestId, foldl_max_le_iff]
  exact and_iff_right (zero_le n)

theorem greatestOrdinal_le_iff :
    greatestOrdinal presets ≤ n ↔ ∀ preset ∈ presets, preset.createdOrdinal.val ≤ n := by
  rw [greatestOrdinal, foldl_max_le_iff]
  exact and_iff_right (zero_le n)

theorem insert_cases (serializers : Serializers C S) (library : PresetLibrary C S) (name : String)
    (payload : PresetPayload C S) :
    (∃ error, library.insert serializers name payload = (.error error, library)) ∨
    ∃ (preset : ScopedPreset C S) (candidate : PresetLibrary C S),
      library.insert serializers name payload = (.ok preset.id, candidate) ∧
      candidate.validate serializers = .ok () ∧
      candidate.presets = library.presets ++ [preset] ∧
      candidate.nextPresetId = library.nextPresetId.next ∧
      candidate.nextCreatedOrdinal = library.nextCreatedOrdinal.next ∧
      preset.id.val = library.nextPresetId.val ∧
      preset.createdOrdinal = library.nextCreatedOrdinal ∧
      library.nextCreatedOrdinal.val ≠ 0 := by
  unfold PresetLibrary.insert
  split
  · exact .inl ⟨_, rfl⟩
  split
  · exact .inl ⟨_, rfl⟩
  split
  · exact .inl ⟨_, rfl⟩
  rename_i hord
  dsimp only
  split
  · exact .inl ⟨_, rfl⟩
  split
  · exact .inl ⟨_, rfl⟩
  rename_i hvalid
  exact .inr ⟨_, _, rfl, hvalid, rfl, rfl, rfl, rfl, rfl, hord⟩

theorem remove_cases (library : PresetLibrary C S) (id : PresetId) :
    (∃ error, library.remove id = (.error error, library)) ∨
    ∃ preset presets, presets.Sublist library.presets ∧
      library.remove id = (.ok preset, { library with presets }) := by
  unfold PresetLibrary.remove
  split
  · exact .inl ⟨_, rfl⟩
  · exact .inr ⟨_, _, eraseP_sublist, rfl⟩

theorem LibraryInvariant.apply (h : LibraryInvariant serializers library) (edit : PresetEdit C S) :
    LibraryInvariant serializers (edit.apply serializers library) := by
  cases edit with
  | insert name payload =>
    rcases insert_cases serializers library name payload with
      ⟨error, href⟩ | ⟨preset, candidate, hins, hvalid, -⟩
    · rw [PresetEdit.apply, href]
      exact h
    · rw [PresetEdit.apply, hins]
      exact libraryInvariant_of_validate hvalid
  | remove id =>
    rcases remove_cases library id with ⟨error, href⟩ | ⟨preset, presets, hsub, hrem⟩
    · rw [PresetEdit.apply, href]
      exact h
    · rw [PresetEdit.apply, hrem]
      refine ⟨h.checked.of_sublist hsub, h.id.mono ?_, h.ordinal.mono ?_⟩
      · exact greatestId_le_iff.mpr fun preset hpreset =>
          greatestId_le_iff.mp (le_refl _) preset (hsub.subset hpreset)
      · exact greatestOrdinal_le_iff.mpr fun preset hpreset =>
          greatestOrdinal_le_iff.mp (le_refl _) preset (hsub.subset hpreset)

theorem libraryInvariant_of_reachable (h : (presetEdits serializers).Reachable library) :
    LibraryInvariant serializers library := by
  refine h.invariant ?_ ?_
  · rintro library (rfl | ⟨yaml, hyaml⟩)
    · exact libraryInvariant_default
    · exact libraryInvariant_of_validate (fromYaml_ok.mp hyaml).2.2
  · intro library edit next hinv hstep
    cases hstep
    exact hinv.apply edit

def keys (library : PresetLibrary C S) : List (ℕ × ℕ) :=
  library.presets.map fun preset => (preset.id.val, preset.createdOrdinal.val)

def recordedEdits (serializers : Serializers C S) :
    Machine (PresetLibrary C S × List (ℕ × ℕ)) (PresetEdit C S) :=
  (presetEdits serializers).observe [] fun seen library _ _ => keys library ++ seen

/-- A cursor is past the keys, unless it is exhausted. -/
def KeysBelow (library : PresetLibrary C S) (seen : List (ℕ × ℕ)) : Prop :=
  ∀ key ∈ seen,
    (library.nextPresetId.val ≠ 0 → key.1 < library.nextPresetId.val) ∧
      (library.nextCreatedOrdinal.val ≠ 0 → key.2 < library.nextCreatedOrdinal.val)

theorem LibraryInvariant.keysBelow (h : LibraryInvariant serializers library) :
    KeysBelow library (keys library) := by
  intro key hkey
  obtain ⟨preset, hpreset, rfl⟩ := mem_map.mp hkey
  constructor
  · intro hnext
    exact (greatestId_le_iff.mp (le_refl _) preset hpreset).trans_lt (h.id.2 hnext)
  · intro hnext
    exact (greatestOrdinal_le_iff.mp (le_refl _) preset hpreset).trans_lt (h.ordinal.2 hnext)

theorem KeysBelow.append {a b : List (ℕ × ℕ)} (ha : KeysBelow library a)
    (hb : KeysBelow library b) : KeysBelow library (a ++ b) := by
  intro key hkey
  exact (mem_append.mp hkey).elim (ha key) (hb key)

variable {seen : List (ℕ × ℕ)}

theorem KeysBelow.apply (h : KeysBelow library seen) (edit : PresetEdit C S) :
    KeysBelow (edit.apply serializers library) seen := by
  cases edit with
  | insert name payload =>
    rcases insert_cases serializers library name payload with
      ⟨error, href⟩ |
      ⟨preset, candidate, hins, -, -, hid, hord, hpreset, -, hordinalNext⟩
    · rw [PresetEdit.apply, href]
      exact h
    · rw [PresetEdit.apply, hins]
      have hidNext : library.nextPresetId.val ≠ 0 := by
        rw [← hpreset]
        exact preset.id.2.1.ne'
      intro key hkey
      obtain ⟨hbelowId, hbelowOrdinal⟩ := h key hkey
      constructor
      · intro hnext
        rw [hid] at hnext ⊢
        exact (hbelowId hidNext).trans (lt_nextCursor hnext)
      · intro hnext
        rw [hord] at hnext ⊢
        exact (hbelowOrdinal hordinalNext).trans (lt_nextCursor hnext)
  | remove id =>
    rcases remove_cases library id with ⟨error, href⟩ | ⟨preset, presets, -, hrem⟩
    · rw [PresetEdit.apply, href]
      exact h
    · rw [PresetEdit.apply, hrem]
      exact h

theorem keysBelow_of_reachable (h : (recordedEdits serializers).Reachable (library, seen)) :
    LibraryInvariant serializers library ∧ KeysBelow library (keys library ++ seen) := by
  have hall : LibraryInvariant serializers library ∧ KeysBelow library seen := by
    refine h.invariant (P := fun state =>
      LibraryInvariant serializers state.1 ∧ KeysBelow state.1 state.2) ?_ ?_
    · rintro ⟨library, seen⟩ ⟨hstart, rfl⟩
      exact ⟨libraryInvariant_of_reachable (Machine.reachable_of_start hstart),
        fun _ hkey => absurd hkey not_mem_nil⟩
    · rintro ⟨library, seen⟩ edit ⟨next, seen'⟩ ⟨hinv, hbelow⟩ hstep
      obtain ⟨hedit, rfl⟩ := Machine.observe_step_eq_some.mp hstep
      cases hedit
      exact ⟨hinv.apply edit, (hinv.keysBelow.append hbelow).apply edit⟩
  exact ⟨hall.1, hall.1.keysBelow.append hall.2⟩

/-- An insertion gives an identity and an ordinal that no preset of the library
has had. -/
def NeverReused (serializers : Serializers C S) (library : PresetLibrary C S)
    (seen : List (ℕ × ℕ)) : Prop :=
  ∀ name payload id, (library.insert serializers name payload).1 = .ok id →
    ∃ preset,
      (library.insert serializers name payload).2.presets = library.presets ++ [preset] ∧
      preset.id = id ∧
      ∀ key ∈ keys library ++ seen, key.1 ≠ preset.id.val ∧ key.2 ≠ preset.createdOrdinal.val

theorem KeysBelow.neverReused (h : KeysBelow library (keys library ++ seen)) :
    NeverReused serializers library seen := by
  intro name payload id hid
  rcases insert_cases serializers library name payload with
    ⟨error, href⟩ |
    ⟨preset, candidate, hins, -, hpresets, -, -, hpreset, hord, hordinalNext⟩
  · rw [href] at hid
    cases hid
  · rw [hins] at hid ⊢
    refine ⟨preset, hpresets, Except.ok.inj hid, ?_⟩
    intro key hkey
    have hidNext : library.nextPresetId.val ≠ 0 := by
      rw [← hpreset]
      exact preset.id.2.1.ne'
    obtain ⟨hbelowId, hbelowOrdinal⟩ := h key hkey
    rw [hpreset, hord]
    exact ⟨(hbelowId hidNext).ne, (hbelowOrdinal hordinalNext).ne⟩

def RefusalsKeep (serializers : Serializers C S) (library : PresetLibrary C S) : Prop :=
  (∀ name payload error,
    (library.insert serializers name payload).1 = .error error →
      (library.insert serializers name payload).2 = library) ∧
  ∀ id error, (library.remove id).1 = .error error → (library.remove id).2 = library

theorem refusalsKeep : RefusalsKeep serializers library := by
  constructor
  · intro name payload error herr
    rcases insert_cases serializers library name payload with
      ⟨error, href⟩ | ⟨preset, candidate, hins, -⟩
    · rw [href]
    · rw [hins] at herr
      cases herr
  · intro id error herr
    rcases remove_cases library id with ⟨error, href⟩ | ⟨preset, presets, -, hrem⟩
    · rw [href]
    · rw [hrem] at herr
      cases herr

end

def AppliesBack {α : Type} (compatible : Prop) (written : α → Prop) (target : α)
    (outcome : Option (Except PresetError Unit × α)) : Prop :=
  ∃ result after, outcome = some (result, after) ∧
    (compatible → result = .ok () ∧ written after) ∧
    (¬compatible → (∃ error, result = .error error) ∧ after = target)

theorem appliesBack_iff {α : Type} {compatible allowed : Prop}
    {written : α → Prop} {target : α}
    {outcome : Option (Except PresetError Unit × α)}
    (h : ∃ result after, outcome = some (result, after) ∧
      ((compatible ∧ allowed ∧ result = .ok () ∧ written after) ∨
        (¬(compatible ∧ allowed) ∧ (∃ error, result = .error error) ∧ after = target))) :
    AppliesBack compatible written target outcome ↔ (compatible → allowed) := by
  obtain ⟨result, after, hout, hcases⟩ := h
  constructor
  · rintro ⟨result', after', houtcome', hwrit, -⟩ hcompat
    rw [hout] at houtcome'
    cases houtcome'
    rcases hcases with ⟨-, hallowed, -⟩ | ⟨-, ⟨error, herr⟩, -⟩
    · exact hallowed
    · cases herr.symm.trans (hwrit hcompat).1
  · intro hallowed
    refine ⟨result, after, hout, ?_, ?_⟩
    · intro hcompat
      rcases hcases with ⟨-, -, hwrit⟩ | ⟨hnot, -⟩
      · exact hwrit
      · exact absurd ⟨hcompat, hallowed hcompat⟩ hnot
    · intro hincompatible
      rcases hcases with ⟨hcompat, -⟩ | ⟨-, href⟩
      · exact absurd hcompat hincompatible
      · exact href

def studyRack : RuntimeVisualRack where
  nodes := [⟨⟨3, three_isIdentity⟩, true, 1, .normal, .study ⟨none⟩⟩]
  nextNodeId := 4

theorem rackInvariant_studyRack : RackInvariant studyRack := by
  have hpushed : studyRack = (RackEdit.push (.study ⟨none⟩)).apply VisualRack.empty := rfl
  rw [hpushed]
  exact rackInvariant_of_reachable (reachable_empty.next _ rfl)

/-- An empty library as `serde_yaml` renders it. -/
def emptyYaml : String :=
  "schema_version: 1\nnext_preset_id: 1\nnext_created_ordinal: 1\npresets: []\n"

def emptySerializers : Serializers Unit Unit where
  encodeController _ := .ok ()
  encodeStageMap _ := .ok ()
  entryBytes _ := .ok 0
  render library :=
    if library.presets.isEmpty ∧ library.nextPresetId.val = 1 ∧
        library.nextCreatedOrdinal.val = 1 ∧ library.schemaVersion = 1 then
      .ok emptyYaml
    else .error "not the empty library"
  parse yaml := if yaml = emptyYaml then .ok .default else .error "not the empty library"
  tooManyEntries := "preset library exceeds 128 entries"
  customError _ := "invalid preset library"

theorem emptySerializers_parse (library : PresetLibrary Unit Unit)
    (yaml : String) (h : emptySerializers.render library = .ok yaml) :
    emptySerializers.parse yaml = .ok library := by
  obtain ⟨schema, ⟨next, hnext⟩, ⟨ordinal, hord⟩, presets⟩ := library
  unfold emptySerializers at h
  dsimp only at h
  split at h
  · rename_i hemp
    obtain ⟨hpresets, rfl, rfl, rfl⟩ := hemp
    obtain rfl := isEmpty_iff.mp hpresets
    cases h
    rfl
  · cases h

def emptyGroup : LiveGroup := ⟨⟨1, one_isIdentity⟩, [], .empty "group"⟩

theorem groupInvariant_emptyGroup : GroupInvariant emptyGroup :=
  ⟨rackInvariant_of_reachable reachable_empty, sanitized_empty "group"⟩

end CollideOScope.Preset
