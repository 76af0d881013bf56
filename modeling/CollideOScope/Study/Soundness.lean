import CollideOScope.Study.Evaluate

/-!
# Studies are type sound

The machine is well typed when every register the validator has defined holds a
value of its type and the record of the run is admissible.  Every rule of the
validator is matched by a run of its instruction that keeps this, so a validated
Study reaches no trap.
-/

namespace CollideOScope.Study

open Option Checks List Function Triple CompiledStudy

variable {F : Type}

def Admissible (validHistory : UInt32) (before : List (StudyEvent F)) : StudyEvent F → Prop
  | .read src => ∃ value, .write src value ∈ before
  | .write dst _ => ∀ value, .write dst value ∉ before
  | .ask age => 1 ≤ age.toNat ∧ age.toNat ≤ min studyMaxHistoryAge (validHistory.toNat - 1)
  | .output _ => True

def Traced (validHistory : UInt32) (events : List (StudyEvent F)) : Prop :=
  ∀ before event after, events = before ++ event :: after → Admissible validHistory before event

theorem Traced.append {validHistory : UInt32} {events : List (StudyEvent F)} {event : StudyEvent F}
    (h : Traced validHistory events) (hev : Admissible validHistory events event) :
    Traced validHistory (events ++ [event]) := by
  intro before event' after hsplit
  rcases eq_nil_or_concat after with rfl | ⟨after', last, rfl⟩
  · obtain ⟨rfl, hlast⟩ := append_inj' hsplit rfl
    obtain rfl := singleton_inj.mp hlast
    exact hev
  · have hsplit' : events ++ [event] = (before ++ event' :: after') ++ [last] := by
      simpa using hsplit
    obtain ⟨hinit, -⟩ := append_inj' hsplit' rfl
    exact h before event' after' hinit

/-- The registers hold values of their types and were written once each. -/
structure WellTyped (validHistory : UInt32) (types : RegisterTypes)
    (s : StudyMachine F) : Prop where
  typed : ∀ r type, types r = some type → (s.registers r).type = type
  defined : ∀ r type, types r = some type → ∃ value, .write r value ∈ s.events
  written : ∀ r value, .write r value ∈ s.events → types r = some value.type
  traced : Traced validHistory s.events
  silent : ∀ color, .output color ∉ s.events

section

variable {validHistory : UInt32} {types : RegisterTypes}

theorem WellTyped.record {s : StudyMachine F} {event : StudyEvent F}
    (h : WellTyped validHistory types s) (hev : Admissible validHistory s.events event)
    (hwrite : ∀ r value, event ≠ .write r value) (hout : ∀ color, event ≠ .output color) :
    WellTyped validHistory types { s with events := s.events ++ [event] } where
  typed := h.typed
  defined := by
    intro r type hr
    obtain ⟨value, hval⟩ := h.defined r type hr
    exact ⟨value, mem_append_left _ hval⟩
  written := by
    intro r value hval
    rcases mem_append.mp hval with hold | hnew
    · exact h.written r value hold
    · exact absurd (mem_singleton.mp hnew).symm (hwrite r value)
  traced := h.traced.append hev
  silent := by
    intro color hcolor
    rcases mem_append.mp hcolor with hold | hnew
    · exact h.silent color hold
    · exact hout color (mem_singleton.mp hnew).symm

variable {type : StudyValueType}

theorem get_sound {src : StudyRegister} (hsrc : types src = some type) :
    Triple (WellTyped (F := F) validHistory types) (get src) fun value s =>
      value.type = type ∧ WellTyped validHistory types s := by
  intro s h
  refine ⟨_, _, rfl, h.typed src type hsrc, h.record ?_ ?_ ?_⟩
  · exact h.defined src type hsrc
  · intro r value hread
    cases hread
  · intro color hread
    cases hread

variable {value : StudyValue F}

theorem set_sound {dst : StudyRegister} (hfresh : types dst = none) (hval : value.type = type) :
    Triple (WellTyped validHistory types) (set dst value) fun _ s =>
      WellTyped validHistory (defineRegister types dst type) s := by
  intro s h
  have hunwritten : ∀ value, .write dst value ∉ s.events := by
    intro value hin
    rw [h.written dst value hin] at hfresh
    cases hfresh
  refine ⟨_, _, rfl, ⟨?_, ?_, ?_, h.traced.append hunwritten, ?_⟩⟩
  · intro r type' hr
    by_cases hdst : r = dst
    · subst hdst
      simp only [defineRegister, update_self] at hr ⊢
      rw [hval]
      exact Option.some.inj hr
    · simp only [defineRegister, update_of_ne hdst] at hr ⊢
      exact h.typed r type' hr
  · intro r type' hr
    by_cases hdst : r = dst
    · subst hdst
      exact ⟨value, mem_append_right _ (mem_singleton_self _)⟩
    · simp only [defineRegister, update_of_ne hdst] at hr
      obtain ⟨old, hold⟩ := h.defined r type' hr
      exact ⟨old, mem_append_left _ hold⟩
  · intro r value' hin
    rcases mem_append.mp hin with hold | hnew
    · have hdst : r ≠ dst := by
        rintro rfl
        exact hunwritten value' hold
      simp only [defineRegister, update_of_ne hdst]
      exact h.written r value' hold
    · obtain ⟨rfl, rfl⟩ := StudyEvent.write.inj (mem_singleton.mp hnew)
      simp [defineRegister, hval]
  · intro color hcolor
    rcases mem_append.mp hcolor with hold | hnew
    · exact h.silent color hold
    · cases mem_singleton.mp hnew

variable {P : StudyMachine F → Prop} {message : String}

theorem expectScalar_sound (h : value.type = .scalar) :
    Triple P (expectScalar message value) fun _ => P := by
  cases value with
  | scalar v => exact pure fun _ hs => hs
  | vector2 v | color v => cases h

theorem expectVector2_sound (h : value.type = .vector2) :
    Triple P (expectVector2 message value) fun _ => P := by
  cases value with
  | scalar v | color v => cases h
  | vector2 v => exact pure fun _ hs => hs

theorem expectColor_sound (h : value.type = .color) :
    Triple P (expectColor message value) fun _ => P := by
  cases value with
  | scalar v | vector2 v => cases h
  | color v => exact pure fun _ hs => hs

theorem zip_sound [FloatOps F] {left right : StudyValue F}
    (hleft : left.type = type) (hright : right.type = type) (f : F → F → F) :
    Triple P (zip left right f) fun value s => value.type = type ∧ P s := by
  subst hleft
  cases left <;> cases right <;> first
    | exact pure fun _ hs => ⟨rfl, hs⟩
    | cases hright

@[simp]
theorem mapValue_type [FloatOps F] (f : F → F) (value : StudyValue F) :
    (mapValue f value).type = value.type := by
  cases value <;> rfl

theorem guardedHistory_sound {current : Vec4 F} {age : UInt8} {pixel : StudyPixelInputs F}
    (hpos : 1 ≤ age.toNat) (hle : age.toNat ≤ studyMaxHistoryAge) :
    Triple (WellTyped validHistory types) (guardedHistory current age validHistory pixel)
      fun _ => WellTyped validHistory types := by
  have hguard : ¬(age.toNat < 1 ∨ studyMaxHistoryAge < age.toNat) := by omega
  simp only [guardedHistory, if_neg hguard]
  split
  case isTrue => exact pure fun _ hs => hs
  case isFalse heffective =>
    intro s h
    refine ⟨_, _, rfl, h.record ?_ ?_ ?_⟩
    · have hbyte : age.toNat < 256 := age.toNat_lt
      simp only [Admissible, UInt8.toNat_ofNat', studyMaxHistoryAge] at heffective ⊢
      omega
    · intro r value hask
      cases hask
    · intro color hask
      cases hask

end

section

variable [FloatOps F] {types types' : RegisterTypes}
  {count index : ℕ} {instruction : StudyInstruction F} {validHistory : UInt32}

theorem binary_sound {dst left right : StudyRegister} {type : StudyValueType}
    (hleft : types left = some type) (hright : types right = some type)
    (hfresh : types dst = none) (f : F → F → F) :
    Triple (WellTyped validHistory types) (do set dst (← zip (← get left) (← get right) f))
      fun _ => WellTyped validHistory (defineRegister types dst type) := by
  refine (get_sound hleft).bind fun a => .intro fun ha => ?_
  refine (get_sound hright).bind fun b => .intro fun hb => ?_
  refine (zip_sound ha hb f).bind fun value => .intro fun hval => ?_
  exact set_sound hfresh hval

omit [FloatOps F] in
theorem component_sound {dst input : StudyRegister} {message : String}
    (hinp : types input = some .vector2) (hfresh : types dst = none) (f : Vec2 F → F) :
    Triple (WellTyped validHistory types)
      (do set dst (.scalar (f (← expectVector2 message (← get input)))))
      fun _ => WellTyped validHistory (defineRegister types dst .scalar) := by
  refine (get_sound hinp).bind fun a => .intro fun ha => ?_
  refine (expectVector2_sound ha).bind fun vector => ?_
  exact set_sound hfresh rfl

theorem Rule.evaluate_sound (study : CompiledStudy F) (frame : StudyFrameContext F)
    (pixel : StudyPixelInputs F) (h : Rule count index types instruction types')
    (hdst : instruction.destination ≠ none)
    (hfresh : ∀ dst, instruction.destination = some dst → types dst = none)
    (hidx : index < study.resolvedRandom.length) :
    Triple (WellTyped frame.validHistory types)
      (evaluateInstruction study frame pixel index instruction)
      fun _ => WellTyped frame.validHistory types' := by
  cases h with
  | loadCurrentColor | loadMotionVector | loadAudioBand hband | loadBeatPhase
  | constantScalar hval | constantVector2 hx hy | constantColor hx hy hz hw =>
    exact set_sound (hfresh _ rfl) rfl
  | loadHistoryColor hpos hle =>
    refine (guardedHistory_sound hpos hle).bind fun color => ?_
    exact set_sound (hfresh _ rfl) rfl
  | loadDeterministicRandom =>
    simp only [evaluateInstruction, getElem?_eq_getElem hidx]
    exact set_sound (hfresh _ rfl) rfl
  | add hleft hright | subtract hleft hright | multiply hleft hright =>
    exact binary_sound hleft hright (hfresh _ rfl) _
  | mix ha hb hamount =>
    refine (get_sound hamount).bind fun t => .intro fun ht => ?_
    refine (expectScalar_sound ht).bind fun t => ?_
    exact binary_sound ha hb (hfresh _ rfl) _
  | clamp01 hinp =>
    refine (get_sound hinp).bind fun a => .intro fun ha => ?_
    exact set_sound (hfresh _ rfl) (by rw [mapValue_type, ha])
  | hueRotate hcolor hturns =>
    refine (get_sound hcolor).bind fun a => .intro fun ha => ?_
    refine (expectColor_sound ha).bind fun color => ?_
    refine (get_sound hturns).bind fun t => .intro fun ht => ?_
    refine (expectScalar_sound ht).bind fun turns => ?_
    exact set_sound (hfresh _ rfl) rfl
  | vectorX hinp | vectorY hinp | vectorMagnitude hinp
  | vectorDotConstant hinp hx hy => exact component_sound hinp (hfresh _ rfl) _
  | vectorNormalizedDirection hinp =>
    refine (get_sound hinp).bind fun a => .intro fun ha => ?_
    refine (expectVector2_sound ha).bind fun vector => ?_
    exact set_sound (hfresh _ rfl) rfl
  | scalarToColor hscalar hlow hhigh =>
    refine (get_sound hscalar).bind fun a => .intro fun ha => ?_
    refine (expectScalar_sound ha).bind fun amount => ?_
    refine (get_sound hlow).bind fun l => .intro fun hl => ?_
    refine (expectColor_sound hl).bind fun low => ?_
    refine (get_sound hhigh).bind fun r => .intro fun hr => ?_
    refine (expectColor_sound hr).bind fun high => ?_
    exact set_sound (hfresh _ rfl) rfl
  | outputColor hlast hcolor => exact absurd rfl hdst

/-- The machine after the output: the last event is the only output. -/
def Finished (validHistory : UInt32) (types : RegisterTypes) (s : StudyMachine F) : Prop :=
  ∃ before color, WellTyped validHistory types before ∧
    s.events = before.events ++ [.output color] ∧
    s.registers = before.registers ∧ s.output = color.map unorm

theorem outputColor_sound (study : CompiledStudy F) (frame : StudyFrameContext F)
    (pixel : StudyPixelInputs F) {color : StudyRegister} (hcolor : types color = some .color) :
    Triple (WellTyped frame.validHistory types)
      (evaluateInstruction study frame pixel index (.outputColor color))
      fun _ => Finished frame.validHistory types := by
  refine (get_sound hcolor).bind fun a => .intro fun ha => ?_
  refine (expectColor_sound ha).bind fun value => ?_
  intro s hs
  exact ⟨_, _, rfl, s, value, hs, rfl, rfl, rfl⟩

end

section

variable [FloatOps F] {document : StudyDocument F} {host : StudyHost F} {study : CompiledStudy F}

theorem compile_ok (h : compile host document = .ok study) :
    study.instructions = document.instructions ∧
      study.resolvedRandom.length = document.instructions.length := by
  simp only [compile, bind_ok, pure_ok] at h
  obtain ⟨canonical, -, rfl⟩ := h
  exact ⟨rfl, length_map _⟩

theorem zipIdx_index {α : Type} {l : List α} {done rest : List (α × ℕ)}
    {entry : α × ℕ} (h : l.zipIdx = done ++ entry :: rest) :
    entry.2 = done.length ∧ l.length = done.length + 1 + rest.length := by
  have hlen : l.length = (done ++ entry :: rest).length := by rw [← h, length_zipIdx]
  rw [length_append, length_cons] at hlen
  refine ⟨?_, by omega⟩
  have hget : l.zipIdx[done.length]? = some entry := by
    rw [h, getElem?_append_right (Nat.le_refl _), Nat.sub_self, getElem?_cons_zero]
  rw [getElem?_zipIdx] at hget
  obtain ⟨a, -, rfl⟩ := map_eq_some_iff.mp hget
  simp

/-- What the two loops have in common after `done`. -/
def Progress (count : ℕ) (validHistory : UInt32) (done : List (StudyInstruction F × ℕ))
    (checked : Checked) (s : StudyMachine F) : Prop :=
  checked.outputCount = 0 ∧ WellTyped validHistory checked.registerTypes s ∨
    done.length = count ∧ Finished validHistory checked.registerTypes s

theorem progress_step (hcomp : compile host document = .ok study)
    (frame : StudyFrameContext F) (pixel : StudyPixelInputs F)
    {done rest : List (StudyInstruction F × ℕ)}
    {entry : StudyInstruction F × ℕ} {checked checked' : Checked}
    {s : StudyMachine F}
    (hwhole : document.instructions.zipIdx = done ++ entry :: rest)
    (h : Progress document.instructions.length frame.validHistory done checked s)
    (hcheck : checkInstruction document.abi document.instructions.length checked
      entry = .ok checked') :
    ∃ t, evaluateStep study frame pixel s entry = .ok t ∧
      Progress document.instructions.length frame.validHistory (done ++ [entry]) checked' t := by
  obtain ⟨instruction, index⟩ := entry
  obtain ⟨hidx, hlen⟩ := zipIdx_index hwhole
  obtain ⟨-, hresolved⟩ := compile_ok hcomp
  obtain ⟨hrule, hfresh, -, hout⟩ := checkInstruction_ok hcheck
  rcases h with ⟨hcnt, htyped⟩ | ⟨hdone, -⟩
  · by_cases hdst : instruction.destination = none
    · generalize htypes : checked'.registerTypes = types' at hrule
      cases hrule with
      | outputColor hlast hcolor =>
        obtain ⟨u, t, hrun, hfinished⟩ := outputColor_sound study frame pixel hcolor s htyped
        refine ⟨t, ?_, .inr ⟨?_, htypes ▸ hfinished⟩⟩
        · rw [evaluateStep, hrun]
          rfl
        · rw [length_append, length_singleton, ← hidx]
          exact hlast
      | _ => cases hdst
    · obtain ⟨u, t, hrun, ht⟩ := hrule.evaluate_sound study frame pixel
        hdst hfresh (by omega) s htyped
      refine ⟨t, ?_, .inl ⟨?_, ht⟩⟩
      · rw [evaluateStep, hrun]
        rfl
      · rw [hout, hcnt, if_neg hdst]
  · omega

theorem run_finished (hvalid : document.validate = .ok ())
    (hcomp : compile host document = .ok study)
    (frame : StudyFrameContext F) (pixel : StudyPixelInputs F) :
    ∃ checked machine, document.check = .ok checked ∧
      study.runPixel frame pixel = .ok machine ∧
      Finished frame.validHistory checked.registerTypes machine := by
  obtain ⟨checked, hchecked⟩ := validate_ok hvalid
  have hstart : Progress document.instructions.length frame.validHistory []
      Checked.start (StudyMachine.start (F := F)) := by
    refine .inl ⟨rfl, ⟨?_, ?_, ?_, ?_, ?_⟩⟩
    · intro r type hr
      cases hr
    · intro r type hr
      cases hr
    · intro r value hin
      cases hin
    · intro before event after hsplit
      cases before <;> cases hsplit
    · intro color hin
      cases hin
  obtain ⟨machine, hrun, hfinal⟩ := StraightLine.run_simulates (evaluateStep study frame pixel)
    (R := Progress document.instructions.length frame.validHistory)
    (fun done entry rest checked s checked' hwhole hR hcheck =>
      progress_step hcomp frame pixel hwhole hR hcheck)
    document.instructions.zipIdx [] (nil_append _).symm hstart
    hchecked.check_eq
  refine ⟨checked, machine, hchecked.check_eq, ?_, ?_⟩
  · rw [runPixel, (compile_ok hcomp).1]
    exact hrun
  · rcases hfinal with ⟨hnone, -⟩ | ⟨-, hfinished⟩
    · rw [hchecked.outputCount_eq] at hnone
      cases hnone
    · exact hfinished

/-- Validated Studies are type sound: a run reaches no trap, reads what it has
written, writes each register once at its inferred type, asks only for
committed ages and ends with its only output. -/
theorem evaluatePixel_sound (hvalid : document.validate = .ok ())
    (hcompile : compile host document = .ok study)
    (frame : StudyFrameContext F) (pixel : StudyPixelInputs F) :
    ∃ checked machine, document.check = .ok checked ∧
      study.runPixel frame pixel = .ok machine ∧
      study.evaluatePixel frame pixel = .ok machine.output ∧
      (∀ before src after, machine.events = before ++ .read src :: after →
        ∃ value, .write src value ∈ before) ∧
      (∀ before dst value after,
        machine.events = before ++ .write dst value :: after →
        (∀ other, .write dst other ∉ before) ∧ checked.registerTypes dst = some value.type) ∧
      (∀ dst, checked.registerTypes dst ≠ none → ∃ value, .write dst value ∈ machine.events) ∧
      (∀ age, .ask age ∈ machine.events → 1 ≤ age.toNat ∧
        age.toNat ≤ min studyMaxHistoryAge (frame.validHistory.toNat - 1)) ∧
      (frame.validHistory.toNat ≤ 1 → ∀ age, .ask age ∉ machine.events) ∧
      ∃ before color, machine.events = before ++ [.output color] ∧
        (∀ other, .output other ∉ before) ∧
        machine.output = color.map unorm := by
  obtain ⟨checked, machine, hcheck, hrun, last, color, htyped, hevents, -,
    houtput⟩ := run_finished hvalid hcompile frame pixel
  have htraced : Traced frame.validHistory machine.events := by
    rw [hevents]
    exact htyped.traced.append trivial
  have hwritten : ∀ dst value, .write dst value ∈ machine.events →
      checked.registerTypes dst = some value.type := by
    intro dst value hin
    rw [hevents, mem_append] at hin
    rcases hin with hin | hin
    · exact htyped.written dst value hin
    · cases mem_singleton.mp hin
  have hask : ∀ age, .ask age ∈ machine.events → 1 ≤ age.toNat ∧
      age.toNat ≤ min studyMaxHistoryAge (frame.validHistory.toNat - 1) := by
    intro age hin
    obtain ⟨before, after, hsplit⟩ := append_of_mem hin
    exact htraced before _ after hsplit
  refine ⟨checked, machine, hcheck, hrun, ?_, ?_, ?_, ?_, hask, ?_, ?_⟩
  · rw [evaluatePixel, hrun]
    rfl
  · intro before src after hsplit
    exact htraced before _ after hsplit
  · intro before dst value after hsplit
    refine ⟨htraced before _ after hsplit, hwritten dst value ?_⟩
    rw [hsplit]
    exact mem_append_right _ mem_cons_self
  · intro dst hdst
    obtain ⟨type, htype⟩ := ne_none_iff_exists'.mp hdst
    obtain ⟨value, hin⟩ := htyped.defined dst type htype
    refine ⟨value, ?_⟩
    rw [hevents]
    exact mem_append_left _ hin
  · intro hyoung age hin
    obtain ⟨hpos, hle⟩ := hask age hin
    omega
  · exact ⟨last.events, color, hevents, htyped.silent, houtput⟩

end

/-- Output what the pixel showed three frames ago. -/
def trailDocument : StudyDocument ℚ where
  schemaVersion := studySchemaVersion
  abi := ⟨studyAbiMajor, 0⟩
  metadata := ⟨"Trail", "Host", "", ⟨"CC0-1.0", "", .studyDataOnlyDoesNotLicenseHost⟩⟩
  capabilities := [.historyRead]
  instructions := [.loadHistoryColor 0 3, .outputColor 0]

/-- What the serializer writes for the document, which is ASCII. -/
def trailJson : List String :=
  [ "\x7b\n  \"schema_version\": 1,\n  \"abi\": \x7b\n    \"major\": 1,\n",
    "    \"minor\": 0\n  \x7d,\n  \"metadata\": \x7b\n",
    "    \"name\": \"Trail\",\n    \"author\": \"Host\",\n",
    "    \"description\": \"\",\n    \"license\": \x7b\n",
    "      \"identifier\": \"CC0-1.0\",\n      \"notice\": \"\",\n",
    "      \"publication_boundary\": \"study_data_only_does_not_license_host\"\n",
    "    \x7d\n  \x7d,\n  \"capabilities\": [\n    \"history_read\"\n",
    "  ],\n  \"instructions\": [\n    \x7b\n",
    "      \"op\": \"load_history_color\",\n      \"dst\": 0,\n",
    "      \"age\": 3\n    \x7d,\n    \x7b\n",
    "      \"op\": \"output_color\",\n      \"color\": 0\n    \x7d\n  ]\n",
    "\x7d" ]

def trailDigest : Bytes :=
  [ 0x35, 0x11, 0x04, 0xe8, 0x15, 0x43, 0x63, 0x84, 0x68, 0xd7, 0xe2, 0x94, 0x64, 0x82, 0x2c, 0x5f,
    0x1a, 0x34, 0x50, 0x97, 0x68, 0x30, 0x5f, 0xb4, 0xc3, 0x6b, 0xf4, 0xfe, 0x64, 0xea, 0xd8, 0xf5 ]

def trailHost : StudyHost ℚ where
  toVecPretty _ := .ok ((trailJson.flatMap String.toList).map fun c => UInt8.ofNat c.toNat)
  sha256 _ := trailDigest

theorem trailDocument_validate : trailDocument.validate = .ok () := by
  have hmetadata : validateMetadata trailDocument.metadata = .ok () := rfl
  have hcheck : trailDocument.check = .ok
      ⟨defineRegister (fun _ => none) 0 .color, insert .historyRead ∅, 1⟩ := rfl
  simp only [StudyDocument.validate, hmetadata, hcheck, bind_ok, refuse_ok, exists_unit]
  refine ⟨by decide, by decide, trivial, by decide, by decide, _, rfl,
    by decide, ?_⟩
  simp [trailDocument]

theorem trailDocument_compile : ∃ study, compile trailHost trailDocument = .ok study := by
  have hlen : (trailJson.flatMap String.toList).length = 507 := by
    simp only [trailJson, flatMap_cons]
    repeat rw [String.toList_ofList]
    decide +kernel
  have hlim : ¬(507 = 0 ∨ studyMaxDocumentBytes < 507) := by decide
  simp only [compile, StudyDocument.toJsonBytes, trailDocument_validate, trailHost, Except.mapError,
    bind_ok, pure_ok, refuse_ok, exists_unit]
  refine ⟨_, _, ⟨trivial, _, rfl, ?_, rfl⟩, rfl⟩
  rw [length_map, hlen]
  exact hlim

/-- The trail runs on a ring that holds one committed sample. -/
theorem evaluatePixel_sound_trail :
    ∃ study machine, compile trailHost trailDocument = .ok study ∧
      study.runPixel ⟨fun _ => 0, 0, 1⟩
        ⟨⟨0, 0, 0, 1⟩, ⟨0, 0⟩, fun _ => ⟨1, 1, 1, 1⟩⟩ = .ok machine ∧
      ∀ age, .ask age ∉ machine.events := by
  obtain ⟨study, hcompile⟩ := trailDocument_compile
  obtain ⟨-, machine, -, hrun, -, -, -, -, -, hyoung, -⟩ :=
    evaluatePixel_sound trailDocument_validate hcompile ⟨fun _ => 0, 0, 1⟩
      ⟨⟨0, 0, 0, 1⟩, ⟨0, 0⟩, fun _ => ⟨1, 1, 1, 1⟩⟩
  exact ⟨study, machine, hcompile, hrun, hyoung (by decide)⟩

/-!
## Studies read what they declare

A capability is the authority over some host inputs.
-/

variable {F : Type} [FloatOps F]

/-- Two inputs agree on what a capability reads.  A history read falls back to
the current image at depth zero. -/
def AgreeOn (frame frame' : StudyFrameContext F)
    (pixel pixel' : StudyPixelInputs F) : StudyCapability → Prop
  | .currentColor => pixel.current = pixel'.current
  | .historyRead => (∀ age, pixel.history age = pixel'.history age) ∧
      frame.validHistory = frame'.validHistory ∧
      pixel.current = pixel'.current
  | .motionFieldRead => pixel.motion = pixel'.motion
  | .audioFeatures => ∀ band, frame.audioBands band = frame'.audioBands band
  | .beatPhase => frame.beatPhase = frame'.beatPhase
  | .deterministicRandom => True

section

variable {study : CompiledStudy F} {frame frame' : StudyFrameContext F}
  {pixel pixel' : StudyPixelInputs F} {index : ℕ}

omit [FloatOps F] in
theorem guardedHistory_congr {current : Vec4 F} {age : UInt8} {validHistory : UInt32}
    (h : ∀ age, pixel.history age = pixel'.history age) :
    guardedHistory current age validHistory pixel =
      guardedHistory current age validHistory pixel' := by
  have hhist : pixel.history = pixel'.history := funext h
  unfold guardedHistory historyColor
  rw [hhist]

theorem evaluateInstruction_congr {instruction : StudyInstruction F}
    (h : ∀ capability, instruction.capability = some capability →
      AgreeOn frame frame' pixel pixel' capability) :
    evaluateInstruction study frame pixel index instruction =
      evaluateInstruction study frame' pixel' index instruction := by
  cases instruction with
  | loadCurrentColor dst =>
    have hcur : pixel.current = pixel'.current := h .currentColor rfl
    simp only [evaluateInstruction, hcur]
  | loadHistoryColor dst age =>
    obtain ⟨hhist, hvalid, hcur⟩ := h .historyRead rfl
    simp only [evaluateInstruction, hvalid, hcur, guardedHistory_congr hhist]
  | loadMotionVector dst =>
    have hmotion : pixel.motion = pixel'.motion := h .motionFieldRead rfl
    simp only [evaluateInstruction, hmotion]
  | loadAudioBand dst band =>
    have hbands : frame.audioBands = frame'.audioBands := funext (h .audioFeatures rfl)
    simp only [evaluateInstruction, hbands]
  | loadBeatPhase dst =>
    have hph : frame.beatPhase = frame'.beatPhase := h .beatPhase rfl
    simp only [evaluateInstruction, hph]
  | _ => rfl

end

section

variable {document : StudyDocument F}

theorem check_derivedCapabilities {checked : Checked}
    (h : document.check = .ok checked) (capability : StudyCapability) :
    capability ∈ checked.derivedCapabilities ↔
      ∃ instruction ∈ document.instructions, instruction.capability = some capability := by
  obtain ⟨-, -, hfinal⟩ := StraightLine.run_simulates
    (fun (_ : Unit) (_ : StudyInstruction F × ℕ) => (.ok () : Except Unit Unit))
    (R := fun done checked _ =>
      ∀ capability, capability ∈ checked.derivedCapabilities ↔
        ∃ entry ∈ done, entry.1.capability = some capability)
    (by
      intro done entry rest checked _ checked' _ hR hcheck
      obtain ⟨instruction, index⟩ := entry
      obtain ⟨-, -, hderived, -⟩ := checkInstruction_ok hcheck
      refine ⟨(), rfl, fun capability => ?_⟩
      rw [hderived capability, hR capability]
      constructor
      · rintro (hnew | ⟨entry, hin, hold⟩)
        · exact ⟨_, mem_append_right _ (mem_singleton_self _), hnew⟩
        · exact ⟨entry, mem_append_left _ hin, hold⟩
      · rintro ⟨entry, hin, hcap⟩
        rcases mem_append.mp hin with hin | hin
        · exact .inr ⟨entry, hin, hcap⟩
        · rw [mem_singleton.mp hin] at hcap
          exact .inl hcap)
    document.instructions.zipIdx [] (s := Checked.start) (t := ())
    (nil_append _).symm (by simp [Checked.start]) h
  rw [hfinal capability]
  constructor
  · rintro ⟨⟨instruction, index⟩, hin, hcap⟩
    exact ⟨instruction, fst_mem_of_mem_zipIdx hin, hcap⟩
  · rintro ⟨instruction, hin, hcap⟩
    obtain ⟨index, hidx, rfl⟩ := getElem_of_mem hin
    refine ⟨(document.instructions[index], index), ?_, hcap⟩
    rw [mem_zipIdx_iff_getElem?]
    exact getElem?_eq_getElem hidx

theorem capabilities_canonical (h : document.validate = .ok ()) :
    document.capabilities.Pairwise (· < ·) ∧
      ∀ capability, capability ∈ document.capabilities ↔
        ∃ instruction ∈ document.instructions, instruction.capability = some capability := by
  obtain ⟨checked, hcheck⟩ := validate_ok h
  rw [hcheck.capabilities_eq]
  refine ⟨Finset.sortedLT_sort _ |>.pairwise, fun capability => ?_⟩
  rw [Finset.mem_sort]
  exact check_derivedCapabilities hcheck.check_eq capability

end

/-- A validated Study evaluates alike on inputs that agree on its declared
capabilities, and it declares exactly the capabilities it uses. -/
theorem evaluatePixel_declared {document : StudyDocument F} (hvalid : document.validate = .ok ()) :
    (∀ (host : StudyHost F) (study : CompiledStudy F),
      CompiledStudy.compile host document = .ok study →
      ∀ (frame frame' : StudyFrameContext F) (pixel pixel' : StudyPixelInputs F),
        (∀ capability ∈ document.capabilities, AgreeOn frame frame' pixel pixel' capability) →
        study.evaluatePixel frame pixel = study.evaluatePixel frame' pixel') ∧
    document.capabilities.Pairwise (· < ·) ∧
    ∀ capability, capability ∈ document.capabilities ↔
      ∃ instruction ∈ document.instructions, instruction.capability = some capability := by
  obtain ⟨hsorted, hused⟩ := capabilities_canonical hvalid
  refine ⟨?_, hsorted, hused⟩
  intro host study hcompile frame frame' pixel pixel' hagree
  unfold CompiledStudy.evaluatePixel CompiledStudy.runPixel
  congr 1
  apply StraightLine.run_congr
  rintro ⟨instruction, index⟩ hin s
  rw [(compile_ok hcompile).1] at hin
  have hcongr : evaluateInstruction study frame pixel index instruction =
      evaluateInstruction study frame' pixel' index instruction := by
    apply evaluateInstruction_congr
    intro capability hcapability
    exact hagree capability ((hused capability).mpr
      ⟨instruction, fst_mem_of_mem_zipIdx hin, hcapability⟩)
  rw [evaluateStep, evaluateStep, hcongr]

/-- The trail does not depend on bands, phase and motion. -/
theorem evaluatePixel_declared_trail :
    ∃ study, CompiledStudy.compile trailHost trailDocument = .ok study ∧
      study.evaluatePixel ⟨fun _ => 0, 0, 5⟩ ⟨⟨0, 0, 0, 1⟩, ⟨0, 0⟩, fun _ => ⟨1, 1, 1, 1⟩⟩ =
        study.evaluatePixel ⟨fun _ => 1, 1 / 2, 5⟩
          ⟨⟨0, 0, 0, 1⟩, ⟨3, 4⟩, fun _ => ⟨1, 1, 1, 1⟩⟩ := by
  obtain ⟨study, hcompile⟩ := trailDocument_compile
  refine ⟨study, hcompile, (evaluatePixel_declared trailDocument_validate).1
    trailHost study hcompile _ _ _ _ ?_⟩
  intro capability hcapability
  obtain rfl := mem_singleton.mp hcapability
  exact ⟨fun _ => rfl, rfl, rfl⟩

end CollideOScope.Study
