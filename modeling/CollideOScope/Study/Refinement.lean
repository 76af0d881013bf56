import CollideOScope.Study.Agreement

/-!
# The encoded program refines the Study

Every turn of the validator is matched by a turn of the evaluator and by an
encoded operation that keeps the registers in agreement.  A validated Study and
its encoded program therefore end with the same output, and the encoding loses
no operand.
-/

namespace CollideOScope.Study

open Nat FloatOps CompiledStudy List UInt32 Shader

section

variable {F : Type} [FloatOps F]

def registerOf (w : UInt32) : StudyRegister :=
  ⟨w.toNat % studyMaxRegisters, mod_lt _ (succ_pos 63)⟩

theorem registerOf_word (r : StudyRegister) : registerOf (word r) = r := by
  apply Fin.ext
  change (word r).toNat % 64 = r.val
  rw [word_toNat]
  exact mod_eq_of_lt r.isLt

def StudyInstruction.forgetDomain : StudyInstruction F → StudyInstruction F
  | .loadDeterministicRandom dst _ => .loadDeterministicRandom dst 0
  | instruction => instruction

def decodeFields (opcode : ℕ) (aux dst a b : UInt32) (immediate : Vec4 F) :
    Option (StudyInstruction F) :=
  let dst := registerOf dst
  let srcA := registerOf a
  let srcB := registerOf b
  match opcode with
  | 0 => some (.loadCurrentColor dst)
  | 1 => some (.loadHistoryColor dst aux.toUInt8)
  | 2 => some (.loadMotionVector dst)
  | 3 => some (.loadAudioBand dst aux.toUInt8)
  | 4 => some (.loadBeatPhase dst)
  | 5 => some (.loadDeterministicRandom dst 0)
  | 6 => some (.constantScalar dst immediate.x)
  | 7 => some (.constantVector2 dst ⟨immediate.x, immediate.y⟩)
  | 8 => some (.constantColor dst immediate)
  | 9 => some (.add dst srcA srcB)
  | 10 => some (.subtract dst srcA srcB)
  | 11 => some (.multiply dst srcA srcB)
  | 12 => some (.mix dst srcA srcB (registerOf aux))
  | 13 => some (.clamp01 dst srcA)
  | 14 => some (.hueRotate dst srcA (registerOf aux))
  | 15 => some (.outputColor srcA)
  | 16 => some (.vectorX dst srcA)
  | 17 => some (.vectorY dst srcA)
  | 18 => some (.vectorMagnitude dst srcA)
  | 19 => some (.vectorNormalizedDirection dst srcA)
  | 20 => some (.vectorDotConstant dst srcA ⟨immediate.x, immediate.y⟩)
  | 21 => some (.scalarToColor dst (registerOf aux) srcA srcB)
  | _ => none

def decodeOp (op : StudyGpuOp F) : Option (StudyInstruction F) :=
  decodeFields (op.words.x &&& 0xffff).toNat (op.words.x >>> 16) op.words.y
    op.words.z op.words.w op.immediate

omit [FloatOps F] in
theorem decodeOp_packOp {opcode aux dst a b : UInt32} {immediate : Vec4 F}
    (hopcode : opcode.toNat < 2 ^ 16) (haux : aux.toNat < 2 ^ 16) :
    decodeOp (packOp opcode aux dst a b immediate) =
      decodeFields opcode.toNat aux dst a b immediate := by
  rw [decodeOp, packOp]
  simp only [packed_low hopcode haux, packed_high hopcode haux]

variable {instruction : StudyInstruction F} {resolved : Option F} {op : StudyGpuOp F}

open StudyInstruction

theorem decodeOp_encodeInstruction (h : encodeInstruction resolved instruction = .ok op) :
    decodeOp op = some instruction.forgetDomain ∧
      ∀ dst domain, instruction = .loadDeterministicRandom dst domain →
        resolved = some op.immediate.x := by
  have hbyte : ∀ b : UInt8, b.toUInt32.toUInt8 = b := by
    intro b
    apply UInt8.toNat_inj.mp
    rw [toNat_toUInt8, UInt8.toNat_toUInt32]
    exact mod_eq_of_lt b.toNat_lt
  cases instruction with
  | loadDeterministicRandom dst domain =>
    cases hresolved : resolved with
    | none =>
      rw [hresolved] at h
      cases h
    | some value =>
      rw [hresolved] at h
      cases h
      refine ⟨?_, fun _ _ _ => rfl⟩
      rw [decodeOp_packOp (by decide) (by decide)]
      change some (loadDeterministicRandom _ 0) = _
      rw [registerOf_word]
      rfl
  | _ =>
    cases h
    refine ⟨?_, fun _ _ heq => by cases heq⟩
    rw [decodeOp_packOp (by decide) (by first | exact word_lt _ | exact byte_lt _ | decide)]
    simp [decodeFields, registerOf_word, hbyte, forgetDomain]

theorem encodeInstruction_injective {resolved' : Option F} {instruction' : StudyInstruction F}
    (h : encodeInstruction resolved instruction = .ok op)
    (h' : encodeInstruction resolved' instruction' = .ok op) :
    instruction = instruction' ∨ ∃ dst domain domain',
      instruction = .loadDeterministicRandom dst domain ∧
      instruction' = .loadDeterministicRandom dst domain' ∧
      resolved = resolved' := by
  obtain ⟨hdec, hval⟩ := decodeOp_encodeInstruction h
  obtain ⟨hdecode', hvalue'⟩ := decodeOp_encodeInstruction h'
  have heq : instruction.forgetDomain = instruction'.forgetDomain :=
    Option.some.inj (hdec.symm.trans hdecode')
  have hforget : ∀ i : StudyInstruction F, i.forgetDomain = i ∨
      ∃ dst domain, i = .loadDeterministicRandom dst domain := by
    intro i
    cases i with
    | loadDeterministicRandom dst domain => exact .inr ⟨dst, domain, rfl⟩
    | _ => exact .inl rfl
  rcases hforget instruction with hi | ⟨dst, domain, rfl⟩
  · rcases hforget instruction' with hj | ⟨dst', domain', rfl⟩
    · exact .inl (by rw [← hi, heq, hj])
    · rw [hi] at heq
      subst heq
      exact .inr ⟨dst', 0, domain', rfl, rfl,
        (hval dst' 0 rfl).trans (hvalue' dst' domain' rfl).symm⟩
  · cases instruction' with
    | loadDeterministicRandom dst' domain' =>
      obtain ⟨rfl, -⟩ := loadDeterministicRandom.inj heq
      exact .inr ⟨dst, domain, domain', rfl, rfl,
        (hval dst domain rfl).trans (hvalue' dst domain' rfl).symm⟩
    | _ => cases heq

end

section

variable {F : Type} [FloatOps F] {document : StudyDocument F} {host : StudyHost F}
  {study : CompiledStudy F} {frame : StudyFrameContext F} {pixel : StudyPixelInputs F}
  {textures : StudyTextures F} {instructionCount writeIndex historyLen motionValid : UInt32}

theorem randomBits_lt (canonicalDigest : Bytes) (abi : StudyAbiVersion) (domain : UInt32) :
    (randomBits canonicalDigest abi domain).toNat < 2 ^ 24 := by
  unfold randomBits
  rw [UInt64.toNat_shiftRight]
  generalize hval : UInt64.toNat _ = value
  have hlt : value < 2 ^ 64 := hval ▸ UInt64.toNat_lt _
  have hshift : (40 : UInt64).toNat % 64 = 40 := rfl
  rw [hshift, shiftRight_eq_div_pow]
  omega

theorem compile_random (law : BoundLaw F) (hcomp : compile host document = .ok study) {index : ℕ}
    {dst : StudyRegister} {domain : UInt32}
    (h : document.instructions[index]? = some (.loadDeterministicRandom dst domain)) :
    ∃ v, study.resolvedRandom[index]? = some (some v) ∧ InRange v := by
  simp only [compile, Checks.bind_ok, Checks.pure_ok] at hcomp
  obtain ⟨canonical, -, rfl⟩ := hcomp
  refine ⟨deterministicRandomForAbi (host.sha256 canonical) document.abi domain,
    ?_, law.random_inRange _ (randomBits_lt _ _ _)⟩
  rw [getElem?_map, h]
  rfl

theorem exists_encodeInstruction (resolved : Option F) (instruction : StudyInstruction F)
    (h : ∀ dst domain, instruction = .loadDeterministicRandom dst domain → ∃ v, resolved = some v) :
    ∃ op, encodeInstruction resolved instruction = .ok op := by
  cases instruction with
  | loadDeterministicRandom dst domain =>
    obtain ⟨v, rfl⟩ := h dst domain rfl
    exact ⟨_, rfl⟩
  | _ => exact ⟨_, rfl⟩

/-- The three loops after `done`. -/
def Lockstep (study : CompiledStudy F) (frame : StudyFrameContext F) (pixel : StudyPixelInputs F)
    (uniforms : StudyFrameUniforms F) (textures : StudyTextures F)
    (done : List (StudyInstruction F × ℕ)) (checked : Checked) (ops : List (StudyGpuOp F)) : Prop :=
  ops.length = done.length ∧
    (∀ entry ∈ done, ∃ op, ops[entry.2]? = some op ∧
      encodeInstruction study.resolvedRandom[entry.2]?.join entry.1 = .ok op) ∧
    ∃ s, StraightLine.run (evaluateStep study frame pixel) StudyMachine.start done = .ok s ∧
      Agrees checked.registerTypes s.registers
        (ops.foldl (step uniforms textures) start).registers ∧
      (ops.foldl (step uniforms textures) start).output = s.output

theorem lockstep_step (law : BoundLaw F) (hvalid : document.validate = .ok ())
    (hcomp : compile host document = .ok study)
    (hshows : Shows (.fromParts frame instructionCount writeIndex historyLen motionValid)
      textures pixel)
    {done rest : List (StudyInstruction F × ℕ)}
    {entry : StudyInstruction F × ℕ} {checked checked' : Checked}
    {ops : List (StudyGpuOp F)}
    (hwhole : document.instructions.zipIdx = done ++ entry :: rest)
    (h : Lockstep study frame pixel
      (.fromParts frame instructionCount writeIndex historyLen motionValid)
      textures done checked ops)
    (hcheck : checkInstruction document.abi document.instructions.length checked
      entry = .ok checked') :
    ∃ ops', study.encodeStep ops entry = .ok ops' ∧
      Lockstep study frame pixel
        (.fromParts frame instructionCount writeIndex historyLen motionValid)
        textures (done ++ [entry]) checked' ops' := by
  obtain ⟨hlen, hencoded, s, hrun, hagree, hout⟩ := h
  obtain ⟨instruction, index⟩ := entry
  obtain ⟨hidx, hcnt⟩ := zipIdx_index hwhole
  obtain ⟨hrule, -, -, -⟩ := checkInstruction_ok hcheck
  obtain ⟨whole, hvalidated⟩ := validate_ok hvalid
  have hent : document.instructions[index]? = some instruction := by
    rw [← mem_zipIdx_iff_getElem? (x := (instruction, index)), hwhole]
    exact mem_append_right _ mem_cons_self
  have hrandom : ∀ dst domain,
      instruction = .loadDeterministicRandom dst domain →
      ∃ v, study.resolvedRandom[index]? = some (some v) ∧ InRange v := by
    rintro dst domain rfl
    exact compile_random law hcomp hent
  obtain ⟨op, hop⟩ := exists_encodeInstruction study.resolvedRandom[index]?.join instruction
    (by
      intro dst domain hload
      obtain ⟨v, hv, -⟩ := hrandom dst domain hload
      exact ⟨v, by rw [hv]; rfl⟩)
  have hroom : ¬studyGpuMaxInstructions ≤ index := by
    have hle := hvalidated.length_le
    change ¬studyMaxInstructions ≤ index
    simp only at hidx
    omega
  refine ⟨ops ++ [op], ?_, ?_, ?_, ?_⟩
  · simp only [encodeStep, if_neg hroom, hop]
    rfl
  · rw [length_append, length_append, hlen]
    rfl
  · intro entry hin
    rcases mem_append.mp hin with hin | hin
    · obtain ⟨op', hget, henc⟩ := hencoded entry hin
      refine ⟨op', ?_, henc⟩
      rw [List.getElem?_append_left (List.getElem?_eq_some_iff.mp hget).1]
      exact hget
    · obtain rfl := mem_singleton.mp hin
      refine ⟨op, ?_, hop⟩
      simp only at hidx ⊢
      rw [hidx, ← hlen, getElem?_concat_length]
  · rw [foldl_append]
    generalize ops.foldl (step _ textures) start = g at hagree hout ⊢
    obtain ⟨vectors, shown⟩ := g
    simp only at hagree hout
    subst hout
    by_cases hdst : instruction.destination = none
    · generalize htypes : checked'.registerTypes = types' at hrule ⊢
      cases hrule with
      | outputColor hlast hcolor =>
        cases hop
        obtain ⟨shown, htriple, hstep⟩ := outputColor_agrees study frame
          pixel (.fromParts frame instructionCount writeIndex historyLen
            motionValid) textures index hcolor hagree s.output
        obtain ⟨u, t, heval, hregisters, hout⟩ := htriple s ⟨rfl, rfl⟩
        refine ⟨t, StraightLine.run_concat hrun ?_, ?_, ?_⟩
        · rw [evaluateStep, heval]
          rfl
        · rw [foldl_cons, hstep, hregisters]
          exact hagree
        · rw [foldl_cons, hstep, hout]
          rfl
      | _ => cases hdst
    · obtain ⟨dst, value, vector, hbdd, hstands, htypes, hmatch⟩ :=
        hrule.agrees law hdst hagree hshows hrandom hop
      obtain ⟨htriple, hstep⟩ := hmatch s.output
      obtain ⟨u, t, heval, hregisters, hout⟩ := htriple s ⟨rfl, rfl⟩
      refine ⟨t, StraightLine.run_concat hrun ?_, ?_, ?_⟩
      · rw [evaluateStep, heval]
        rfl
      · rw [foldl_cons, hstep, hregisters, htypes]
        exact hagree.update hbdd hstands
      · rw [foldl_cons, hstep, hout]
        rfl

/-- The shader refines the evaluator: over any arithmetic with the bound law,
the encoded program of a validated Study ends with the output of the evaluator
and with vectors that stand for its registers, and no two instructions share an
operation. -/
theorem fsMain_refines (law : BoundLaw F) (hvalid : document.validate = .ok ())
    (hcompile : compile host document = .ok study)
    (hshows : Shows (.fromParts frame study.instructionCount writeIndex
      historyLen motionValid) textures pixel) :
    (∃ checked machine, ∃ program : List (StudyGpuOp F),
      document.check = .ok checked ∧
      study.runPixel frame pixel = .ok machine ∧
      study.evaluatePixel frame pixel = .ok machine.output ∧
      study.encodeGpuProgram = .ok program ∧
      program.length = studyGpuMaxInstructions ∧
      (fsMain (.fromParts frame study.instructionCount writeIndex
        historyLen motionValid) textures program).output = machine.output ∧
      (∀ r, checked.registerTypes r ≠ none → Stands (machine.registers r)
        ((fsMain (.fromParts frame study.instructionCount writeIndex
          historyLen motionValid) textures program).registers (word r))) ∧
      ∀ (index : ℕ) (instruction : StudyInstruction F),
        study.instructions[index]? = some instruction →
        ∃ op, program[index]? = some op ∧ encodeInstruction
          study.resolvedRandom[index]?.join instruction = .ok op) ∧
    ∀ (resolved resolved' : Option F) (instruction instruction' op),
      encodeInstruction resolved instruction = .ok op →
      encodeInstruction resolved' instruction' = .ok op →
      instruction = instruction' ∨ ∃ dst domain domain',
        instruction = .loadDeterministicRandom dst domain ∧
        instruction' = .loadDeterministicRandom dst domain' ∧
        resolved = resolved' := by
  refine ⟨?_, fun resolved resolved' instruction instruction' op h h' =>
    encodeInstruction_injective h h'⟩
  obtain ⟨checked, hchecked⟩ := validate_ok hvalid
  have hinstructions := (compile_ok hcompile).1
  have hstart : Lockstep study frame pixel (.fromParts frame
      study.instructionCount writeIndex historyLen motionValid) textures []
      Checked.start [] := by
    refine ⟨rfl, by simp, StudyMachine.start, rfl, ?_, rfl⟩
    intro r type hr
    cases hr
  obtain ⟨ops, hencode, hlength, hencoded, machine, hrun, hagrees, houtput⟩ :=
    StraightLine.run_simulates study.encodeStep
      (fun done entry rest checked ops checked' hwhole hR hcheck =>
        lockstep_step law hvalid hcompile hshows hwhole hR hcheck)
      document.instructions.zipIdx [] (nil_append _).symm hstart
      hchecked.check_eq
  rw [length_zipIdx] at hlength
  have hroom : ops.length ≤ studyGpuMaxInstructions := hlength ▸ hchecked.length_le
  have hcount : min study.instructionCount.toNat studyGpuMaxInstructions = ops.length := by
    have hlimit : studyGpuMaxInstructions = 256 := rfl
    rw [instructionCount, hinstructions, toNat_ofNat']
    omega
  have hmain : fsMain (.fromParts frame study.instructionCount
      writeIndex historyLen motionValid) textures (ops ++ replicate
        (studyGpuMaxInstructions - ops.length) StudyGpuOp.zeroed) =
      ops.foldl (step (.fromParts frame study.instructionCount
        writeIndex historyLen motionValid) textures) start := by
    change (((ops ++ _).take (min study.instructionCount.toNat
      studyGpuMaxInstructions)).foldl _ _) = _
    rw [hcount, take_left]
  refine ⟨checked, machine, ops ++ replicate
    (studyGpuMaxInstructions - ops.length) StudyGpuOp.zeroed,
    hchecked.check_eq, ?_, ?_, ?_, ?_, ?_, ?_, ?_⟩
  · rw [runPixel, hinstructions]
    exact hrun
  · rw [evaluatePixel, runPixel, hinstructions, hrun]
    rfl
  · rw [encodeGpuProgram, hinstructions, hencode]
    rfl
  · rw [length_append, length_replicate]
    omega
  · rw [hmain]
    exact houtput
  · intro r hr
    obtain ⟨type, htype⟩ := Option.ne_none_iff_exists'.mp hr
    rw [hmain]
    exact (hagrees r type htype).2.2
  · intro index instruction hget
    rw [hinstructions] at hget
    obtain ⟨op, hop, henc⟩ := hencoded (instruction, index) (mem_zipIdx_iff_getElem?.mpr hget)
    refine ⟨op, ?_, henc⟩
    rw [List.getElem?_append_left (List.getElem?_eq_some_iff.mp hop).1]
    exact hop

end

theorem boundLaw_rat : BoundLaw ℚ := by
  have hrng : ∀ q : ℚ, -65504 ≤ q → q ≤ 65504 → InRange q := by
    intro q hlow hhigh
    refine ⟨rfl, ?_⟩
    change decide ((65504 : ℚ) < if q < 0 then -q else q) = false
    rw [decide_eq_false_iff_not, not_lt]
    split
    case isTrue => linarith
    case isFalse => exact hhigh
  have hclamp : ∀ v low high : ℚ, low ≤ high →
      low ≤ clamp v low high ∧ clamp v low high ≤ high := by
    intro v low high hle
    change low ≤ (if v < low then low else if high < v then high else v) ∧
      (if v < low then low else if high < v then high else v) ≤ high
    split
    case isTrue => exact ⟨le_refl _, hle⟩
    case isFalse hlow =>
      split
      case isTrue => exact ⟨hle, le_refl _⟩
      case isFalse hhigh => exact ⟨not_lt.mp hlow, not_lt.mp hhigh⟩
  constructor
  · intro v
    obtain ⟨hlow, hhigh⟩ := hclamp v (-65504) 65504 (by norm_num)
    exact hrng _ hlow hhigh
  · intro v hv
    have habs : ¬(65504 : ℚ) < if v < 0 then -v else v := of_decide_eq_false hv.2
    change (if v < -65504 then -65504 else if 65504 < v then 65504 else v) = v
    split at habs
    case isTrue hneg => rw [if_neg (by linarith), if_neg (by linarith)]
    case isFalse hpos => rw [if_neg (by linarith), if_neg habs]
  · exact hrng 0 (by norm_num) (by norm_num)
  · intro v _
    obtain ⟨hlow, hhigh⟩ := hclamp v 0 1 (by norm_num)
    refine hrng _ ?_ ?_
    · exact le_trans (by norm_num) hlow
    · exact le_trans hhigh (by norm_num)
  · intro n hn
    change InRange ((n : ℚ) / 2 ^ 24)
    have hcast : (n : ℚ) ≤ 2 ^ 24 := by exact_mod_cast hn.le
    have hpos : (0 : ℚ) ≤ n := n.cast_nonneg
    refine hrng _ ?_ ?_
    · exact le_trans (by norm_num) (div_nonneg hpos (by norm_num))
    · rw [div_le_iff₀ (by norm_num)]
      linarith
  · intro v _ _
    rfl

/-- A ring of 24 layers whose ages have different reds. -/
def trailPixel : StudyPixelInputs ℚ := ⟨⟨0, 0, 0, 1⟩, ⟨0, 0⟩, fun age => ⟨age.toNat / 24, 0, 0, 1⟩⟩

def trailTextures : StudyTextures ℚ :=
  ⟨⟨0, 0, 0, 1⟩, fun layer => ⟨(24 - layer).toNat / 24, 0, 0, 1⟩, ⟨0, 0, 0, 0⟩⟩

/-- The trail has the same output on both halves. -/
theorem fsMain_refines_trail :
    ∃ (study : CompiledStudy ℚ) (machine : StudyMachine ℚ) (program : List (StudyGpuOp ℚ)),
      compile trailHost trailDocument = .ok study ∧
      study.runPixel ⟨fun _ => 0, 0, 5⟩ trailPixel = .ok machine ∧
      study.encodeGpuProgram = .ok program ∧
      (fsMain (.fromParts ⟨fun _ => 0, 0, 5⟩ study.instructionCount 0 24 0)
        trailTextures program).output = machine.output := by
  obtain ⟨study, hcompile⟩ := trailDocument_compile
  have hlayer : ∀ n : Fin 24, 1 ≤ n.val →
      (24 - (24 - ofNat n.val % 24) % 24 : UInt32).toNat = n.val := by
    decide
  have hshows : Shows (.fromParts ⟨fun _ => 0, 0, 5⟩ study.instructionCount
      0 24 0) trailTextures trailPixel := by
    refine ⟨rfl, rfl, ?_⟩
    intro age hpos hle
    have hage : age.toUInt32 = ofNat age.toNat := by
      apply UInt32.toNat_inj.mp
      rw [UInt8.toNat_toUInt32, UInt32.toNat_ofNat']
      have hlt : age.toNat < 256 := age.toNat_lt
      omega
    change (⟨((24 - (0 + 24 - age.toUInt32 % 24) % 24 : UInt32).toNat : ℚ) / 24,
      0, 0, 1⟩ : Vec4 ℚ) = ⟨(age.toNat : ℚ) / 24, 0, 0, 1⟩
    rw [hage, zero_add, hlayer ⟨age.toNat, lt_succ_of_le hle⟩ hpos]
  obtain ⟨⟨-, machine, program, -, hrun, -, hprogram, -, houtput, -⟩, -⟩ :=
    fsMain_refines boundLaw_rat trailDocument_validate hcompile hshows
  exact ⟨study, machine, program, hcompile, hrun, hprogram, houtput⟩

end CollideOScope.Study
