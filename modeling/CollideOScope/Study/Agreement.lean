import CollideOScope.Study.Shader
import CollideOScope.Study.Soundness

/-!
# The shader agrees with the reference

The registers of the shader stand for those of the evaluator: a scalar is the
first component of a vector, a two-vector its first two, a colour all four.
Over any arithmetic with the bound law, an encoded instruction does to the
vectors what the instruction does to the values.
-/

namespace CollideOScope.Study

open FloatOps Vec4 UInt32 Function Shader

/-- What the agreement needs of the component arithmetic: the bound brings
every component into the representable range and leaves the range alone, and
the values the programs start from are in the range. -/
structure BoundLaw (F : Type) [FloatOps F] : Prop where
  bound_inRange : ∀ v : F, InRange (bound v)
  bound_of_inRange : ∀ v : F, InRange v → bound v = v
  zero_inRange : InRange (lit 0 : F)
  unorm_inRange : ∀ v : F, isFinite v = true → InRange (unorm v)
  random_inRange : ∀ n : ℕ, n < 2 ^ 24 → InRange (lit n / lit (2 ^ 24) : F)
  magnitude_finite : ∀ v : Vec2 F, InRange v.x → InRange v.y → isFinite (magnitude v) = true

section

variable {F : Type} [FloatOps F]

theorem BoundLaw.sanitize_inRange (law : BoundLaw F) (v : F) : InRange (sanitize v) := by
  unfold sanitize
  split
  case isTrue hfinite => exact law.unorm_inRange v hfinite
  case isFalse => exact law.zero_inRange

def StudyValue.Bounded : StudyValue F → Prop
  | scalar v => InRange v
  | vector2 v => InRange v.x ∧ InRange v.y
  | color v => InRange v.x ∧ InRange v.y ∧ InRange v.z ∧ InRange v.w

def Stands : StudyValue F → Vec4 F → Prop
  | .scalar v, vector => vector.x = v
  | .vector2 v, vector => vector.x = v.x ∧ vector.y = v.y
  | .color v, vector => vector = v

/-- The defined registers hold bounded values of their types, and the vectors
of the shader stand for them. -/
def Agrees (types : RegisterTypes) (registers : StudyRegister → StudyValue F)
    (vectors : UInt32 → Vec4 F) : Prop :=
  ∀ r type, types r = some type → (registers r).type = type ∧
    (registers r).Bounded ∧ Stands (registers r) (vectors (word r))

theorem word_toNat (r : StudyRegister) : (word r).toNat = r.val := by
  have h : r.val < 64 := r.isLt
  rw [word, toNat_ofNat']
  omega

theorem word_injective : Injective word := by
  intro a b h
  apply Fin.ext
  rw [← word_toNat a, ← word_toNat b, h]

section

variable {types : RegisterTypes} {registers : StudyRegister → StudyValue F}
  {vectors : UInt32 → Vec4 F} {r : StudyRegister}

variable (h : Agrees types registers vectors)
include h

theorem Agrees.scalar (hr : types r = some .scalar) :
    ∃ v, registers r = .scalar v ∧ InRange v ∧ (vectors (word r)).x = v := by
  obtain ⟨htype, hbdd, hstands⟩ := h r _ hr
  cases hval : registers r with
  | scalar v =>
    rw [hval] at hbdd hstands
    exact ⟨v, rfl, hbdd, hstands⟩
  | vector2 v | color v =>
    rw [hval] at htype
    cases htype

theorem Agrees.vector2 (hr : types r = some .vector2) :
    ∃ v, registers r = .vector2 v ∧ (InRange v.x ∧ InRange v.y) ∧
      (vectors (word r)).x = v.x ∧ (vectors (word r)).y = v.y := by
  obtain ⟨htype, hbdd, hstands⟩ := h r _ hr
  cases hval : registers r with
  | scalar v | color v =>
    rw [hval] at htype
    cases htype
  | vector2 v =>
    rw [hval] at hbdd hstands
    exact ⟨v, rfl, hbdd, hstands⟩

theorem Agrees.color (hr : types r = some .color) :
    ∃ v, registers r = .color v ∧
      (InRange v.x ∧ InRange v.y ∧ InRange v.z ∧ InRange v.w) ∧
      vectors (word r) = v := by
  obtain ⟨htype, hbdd, hstands⟩ := h r _ hr
  cases hval : registers r with
  | scalar v | vector2 v =>
    rw [hval] at htype
    cases htype
  | color v =>
    rw [hval] at hbdd hstands
    exact ⟨v, rfl, hbdd, hstands⟩

theorem Agrees.update {value : StudyValue F} {vector : Vec4 F}
    (hbdd : value.Bounded) (hstands : Stands value vector) :
    Agrees (defineRegister types r value.type) (update registers r value)
      (update vectors (word r) vector) := by
  intro r' type hr'
  by_cases hr : r' = r
  · subst hr
    simp only [defineRegister, update_self] at hr' ⊢
    exact ⟨Option.some.inj hr', hbdd, hstands⟩
  · have hword : word r' ≠ word r := fun heq => hr (word_injective heq)
    simp only [defineRegister, update_of_ne hr] at hr'
    rw [update_of_ne hr, update_of_ne hword]
    exact h r' type hr'

end

end

section

variable {F : Type} [FloatOps F]

theorem Shader.bound_eq (v : Vec4 F) : bound v = boundColor v := by
  unfold bound boundColor map Study.bound select
  congr 1 <;> split <;> simp_all

theorem Shader.rgbToHsl_eq (c : Vec3 F) : rgbToHsl c = Study.rgbToHsl c := rfl

theorem Shader.hslToRgb_eq (hsl : Vec3 F) : hslToRgb hsl = Study.hslToRgb hsl := rfl

theorem Shader.hueRotate_eq {color : Vec4 F} {turns : F} (h : isFinite turns = true) :
    hueRotate color turns = Study.hueRotate color turns := by
  unfold hueRotate Study.hueRotate
  simp only [if_pos h, rgbToHsl_eq, hslToRgb_eq]
  rfl

theorem direction_stands (law : BoundLaw F) {v : Vec2 F} (hx : InRange v.x) (hy : InRange v.y) :
    Stands (.vector2 (normalized v)) (Shader.bound (Shader.direction v.x v.y)) := by
  have hfin := law.magnitude_finite v hx hy
  have hzero : bound (lit 0 : F) = lit 0 := law.bound_of_inRange _ law.zero_inRange
  rw [bound_eq]
  unfold normalized direction length
  change isFinite (sqrt (v.x * v.x + v.y * v.y)) = true at hfin
  by_cases hpos : lt (lit 0) (sqrt (v.x * v.x + v.y * v.y)) = true
  · simp only [magnitude, hfin, hpos, Bool.and_self, if_true]
    exact ⟨rfl, rfl⟩
  · simp only [magnitude, hfin, hpos, Bool.true_and, if_false, Bool.false_eq_true]
    exact ⟨hzero, hzero⟩

theorem normalized_bounded (law : BoundLaw F) (v : Vec2 F) :
    (StudyValue.vector2 (normalized v)).Bounded := by
  unfold normalized
  split
  case isTrue => exact ⟨law.bound_inRange _, law.bound_inRange _⟩
  case isFalse => exact ⟨law.zero_inRange, law.zero_inRange⟩

end

section

variable {F : Type} {registers : StudyRegister → StudyValue F} {output : Vec4 F}
  {P : StudyMachine F → Prop}

def At (registers : StudyRegister → StudyValue F) (output : Vec4 F) (s : StudyMachine F) : Prop :=
  s.registers = registers ∧ s.output = output

theorem get_at (src : StudyRegister) {value : StudyValue F} (h : registers src = value) :
    Triple (At registers output) (get src) fun v s => v = value ∧ At registers output s := by
  rintro s ⟨rfl, rfl⟩
  exact ⟨_, _, rfl, h, rfl, rfl⟩

theorem set_at (dst : StudyRegister) (value : StudyValue F) :
    Triple (At registers output) (set dst value) fun _ =>
      At (update registers dst value) output := by
  rintro s ⟨rfl, rfl⟩
  exact ⟨_, _, rfl, rfl, rfl⟩

theorem expectScalar_at (message : String) (v : F) :
    Triple P (expectScalar message (.scalar v)) fun a s => a = v ∧ P s :=
  Triple.pure fun _ hs => ⟨rfl, hs⟩

theorem expectVector2_at (message : String) (v : Vec2 F) :
    Triple P (expectVector2 message (.vector2 v)) fun a s => a = v ∧ P s :=
  Triple.pure fun _ hs => ⟨rfl, hs⟩

theorem expectColor_at (message : String) (v : Vec4 F) :
    Triple P (expectColor message (.color v)) fun a s => a = v ∧ P s :=
  Triple.pure fun _ hs => ⟨rfl, hs⟩

theorem component_at {dst input : StudyRegister} {v : Vec2 F}
    (hinp : registers input = .vector2 v) (message : String) (f : Vec2 F → F) :
    Triple (At registers output) (do set dst (.scalar (f (← expectVector2 message (← get input)))))
      fun _ => At (update registers dst (.scalar (f v))) output := by
  refine (get_at input hinp).bind_eq ?_
  refine (expectVector2_at message v).bind_eq ?_
  exact set_at dst _

theorem binary_at [FloatOps F] {dst left right : StudyRegister}
    {l r value : StudyValue F} {f : F → F → F} (hleft : registers left = l)
    (hright : registers right = r) (hzip : zip l r f = pure value) :
    Triple (At registers output) (do set dst (← zip (← get left) (← get right) f))
      fun _ => At (update registers dst value) output := by
  refine (get_at left hleft).bind_eq ?_
  refine (get_at right hright).bind_eq ?_
  rw [hzip]
  refine (Triple.pure (Q := fun a s => a = value ∧ At registers output s)
    fun _ hs => ⟨rfl, hs⟩).bind_eq ?_
  exact set_at dst _

end

section

variable {F : Type} [FloatOps F]

theorem BoundLaw.boundColor_inRange (law : BoundLaw F) (v : Vec4 F) :
    (StudyValue.color (boundColor v)).Bounded :=
  ⟨law.bound_inRange _, law.bound_inRange _, law.bound_inRange _, law.bound_inRange _⟩

theorem zip_stands (law : BoundLaw F) {l r : StudyValue F} {v w : Vec4 F} (htype : l.type = r.type)
    (hl : Stands l v) (hr : Stands r w) (f : F → F → F) :
    ∃ value, zip l r f = pure value ∧ value.type = l.type ∧ value.Bounded ∧
      Stands value (Shader.bound (v.map₂ f w)) := by
  rw [Shader.bound_eq]
  cases l with
  | scalar a =>
    cases r with
    | scalar b =>
      refine ⟨_, rfl, rfl, law.bound_inRange _, ?_⟩
      change bound (f v.x w.x) = bound (f a b)
      rw [show v.x = a from hl, show w.x = b from hr]
    | vector2 b | color b => cases htype
  | vector2 a =>
    cases r with
    | scalar b | color b => cases htype
    | vector2 b =>
      refine ⟨_, rfl, rfl, ⟨law.bound_inRange _, law.bound_inRange _⟩, ?_⟩
      change bound (f v.x w.x) = bound (f a.x b.x) ∧ bound (f v.y w.y) = bound (f a.y b.y)
      rw [hl.1, hl.2, hr.1, hr.2]
      exact ⟨rfl, rfl⟩
  | color a =>
    cases r with
    | scalar b | vector2 b => cases htype
    | color b =>
      refine ⟨_, rfl, rfl, law.boundColor_inRange (a.map₂ f b), ?_⟩
      rw [show v = a from hl, show w = b from hr]
      rfl

theorem Agrees.zip (law : BoundLaw F) {types : RegisterTypes}
    {registers : StudyRegister → StudyValue F} {vectors : UInt32 → Vec4 F}
    {left right : StudyRegister} {type : StudyValueType} (h : Agrees types registers vectors)
    (hleft : types left = some type) (hright : types right = some type) (f : F → F → F) :
    ∃ value, Study.zip (registers left) (registers right) f = pure value ∧
      value.type = type ∧ value.Bounded ∧
      Stands value (Shader.bound ((vectors (word left)).map₂ f (vectors (word right)))) := by
  obtain ⟨htype, -, hstands⟩ := h left type hleft
  obtain ⟨htype', -, hstands'⟩ := h right type hright
  obtain ⟨value, hzip, hval, hrest⟩ := zip_stands law (htype.trans htype'.symm) hstands hstands' f
  exact ⟨value, hzip, hval.trans htype, hrest⟩

theorem mapValue_stands (law : BoundLaw F) {value : StudyValue F} {v : Vec4 F}
    (hbdd : value.Bounded) (hstands : Stands value v) :
    (mapValue unorm value).Bounded ∧ Stands (mapValue unorm value) (clamp01 v) := by
  have hclamp : ∀ a : F, InRange a → bound (unorm a) = unorm a := fun a ha =>
    law.bound_of_inRange _ (law.unorm_inRange a ha.1)
  cases value with
  | scalar a =>
    refine ⟨law.bound_inRange _, ?_⟩
    change unorm v.x = bound (unorm a)
    rw [show v.x = a from hstands, hclamp a hbdd]
  | vector2 a =>
    refine ⟨⟨law.bound_inRange _, law.bound_inRange _⟩, ?_⟩
    change unorm v.x = bound (unorm a.x) ∧ unorm v.y = bound (unorm a.y)
    rw [hstands.1, hstands.2, hclamp _ hbdd.1, hclamp _ hbdd.2]
    exact ⟨rfl, rfl⟩
  | color a =>
    refine ⟨law.boundColor_inRange (a.map unorm), ?_⟩
    obtain ⟨hx, hy, hz, hw⟩ := hbdd
    change clamp01 v = a.map fun c => bound (unorm c)
    rw [show v = a from hstands]
    simp only [map, hclamp _ hx, hclamp _ hy, hclamp _ hz, hclamp _ hw]
    rfl

end

section

variable {F : Type} [FloatOps F]

/-- The textures show the pixel: its image, its motion if there is a field,
and the layers of its committed ages. -/
structure Shows (uniforms : StudyFrameUniforms F) (textures : StudyTextures F)
    (pixel : StudyPixelInputs F) : Prop where
  current : textures.carrier = pixel.current
  motion : pixel.motion = if uniforms.motionValid = 0 then ⟨lit 0, lit 0⟩
    else ⟨textures.motion.x, textures.motion.y⟩
  history : ∀ age : UInt8, 1 ≤ age.toNat → age.toNat ≤ studyMaxHistoryAge →
    textures.history (historyLayer uniforms age.toUInt32) = pixel.history age

variable {frame : StudyFrameContext F} {pixel : StudyPixelInputs F}
  {textures : StudyTextures F} {count writeIndex historyLen motionValid : UInt32}

theorem effectiveDepth_eq {age : UInt8} (validHistory : UInt32)
    (hle : age.toNat ≤ studyMaxHistoryAge) :
    effectiveDepth validHistory age.toUInt32 =
      (UInt8.ofNat (min age.toNat (min (validHistory.toNat - 1) studyMaxHistoryAge))).toUInt32 := by
  have hdepth : (if 0 < validHistory then validHistory - 1 else 0).toNat =
      validHistory.toNat - 1 := by
    split
    case isTrue hpos =>
      have hone : (1 : UInt32) ≤ validHistory := le_iff_toNat_le.mpr (lt_iff_toNat_lt.mp hpos)
      rw [UInt32.toNat_sub_of_le _ _ hone]
      rfl
    case isFalse hpos =>
      rw [lt_iff_toNat_lt] at hpos
      rw [Nat.eq_zero_of_not_pos hpos]
      rfl
  have hage : age.toUInt32.toNat = age.toNat := UInt8.toNat_toUInt32 age
  apply UInt32.toNat_inj.mp
  rw [Shader.effectiveDepth, UInt8.toNat_toUInt32, UInt8.toNat_ofNat']
  generalize (if 0 < validHistory then validHistory - 1 else 0) = maxDepth
    at hdepth ⊢
  simp only [studyMaxHistoryAge] at hle ⊢
  split
  case isTrue hlt =>
    rw [lt_iff_toNat_lt] at hlt
    omega
  case isFalse hlt =>
    rw [lt_iff_toNat_lt] at hlt
    omega

theorem guardedHistory_at {registers : StudyRegister → StudyValue F} {output current : Vec4 F}
    {age : UInt8} (hpos : 1 ≤ age.toNat) (hle : age.toNat ≤ studyMaxHistoryAge)
    (h : Shows (.fromParts frame count writeIndex historyLen motionValid) textures pixel) :
    Triple (At registers output)
      (guardedHistory current age frame.validHistory pixel) fun color s =>
        color = Shader.guardedHistory
          (.fromParts frame count writeIndex historyLen motionValid) textures
          current age.toUInt32 ∧ At registers output s := by
  have hguard : ¬(age.toNat < 1 ∨ studyMaxHistoryAge < age.toNat) := by omega
  have hbyte : (UInt8.ofNat (min age.toNat (min (frame.validHistory.toNat - 1)
      studyMaxHistoryAge))).toNat = min age.toNat
        (min (frame.validHistory.toNat - 1) studyMaxHistoryAge) := by
    have hage : age.toNat < 256 := age.toNat_lt
    rw [UInt8.toNat_ofNat']
    omega
  have heffective : Shader.effectiveDepth (StudyFrameUniforms.fromParts frame
      count writeIndex historyLen motionValid).validHistory age.toUInt32 = _ :=
    effectiveDepth_eq frame.validHistory hle
  simp only [guardedHistory, if_neg hguard, Shader.guardedHistory, heffective]
  by_cases hzero : min age.toNat (min (frame.validHistory.toNat - 1) studyMaxHistoryAge) = 0
  · rw [if_pos hzero, hzero]
    exact Triple.pure fun s hs => ⟨rfl, hs⟩
  · rw [if_neg hzero]
    rintro s ⟨rfl, rfl⟩
    refine ⟨_, _, rfl, ?_, rfl, rfl⟩
    rw [if_neg, h.history _ (by omega) (by omega)]
    intro heq
    apply hzero
    rw [← hbyte, ← UInt8.toNat_toUInt32, heq]
    rfl

theorem audioBand_eq {band : UInt8} (h : band.toNat < studyMaxAudioBands) :
    audioBand (.fromParts frame count writeIndex historyLen motionValid)
        band.toUInt32 = sanitize (frame.audioBands ⟨band.toNat, h⟩) := by
  have hband : band = 0 ∨ band = 1 ∨ band = 2 ∨ band = 3 ∨ band = 4 ∨
      band = 5 ∨ band = 6 ∨ band = 7 := by
    simp only [← UInt8.toNat_inj]
    change band.toNat = 0 ∨ band.toNat = 1 ∨ band.toNat = 2 ∨ band.toNat = 3 ∨
      band.toNat = 4 ∨ band.toNat = 5 ∨ band.toNat = 6 ∨ band.toNat = 7
    have hlt : band.toNat < 8 := h
    omega
  rcases hband with rfl | rfl | rfl | rfl | rfl | rfl | rfl | rfl <;> rfl

theorem motion_eq (law : BoundLaw F)
    (h : Shows (.fromParts frame count writeIndex historyLen motionValid) textures pixel) :
    motion (.fromParts frame count writeIndex historyLen motionValid)
      textures = pixel.motion.map bound := by
  have hzero : bound (lit 0 : F) = lit 0 := law.bound_of_inRange _ law.zero_inRange
  rw [motion, h.motion, bound_eq]
  split
  case isTrue => simp only [Vec2.map, hzero]
  case isFalse => rfl

end

section

variable {F : Type} [FloatOps F]

theorem Shader.step_packOp {uniforms : StudyFrameUniforms F}
    {textures : StudyTextures F} {s : State F}
    {opcode aux dst a b : UInt32} {immediate : Vec4 F}
    (haux : aux.toNat < 2 ^ 16 := by decide)
    (hopcode : opcode.toNat < 2 ^ 16 := by decide) :
    step uniforms textures s (packOp opcode aux dst a b immediate) =
      switch uniforms textures s opcode.toNat aux dst a b immediate := by
  rw [step, packOp]
  simp only [packed_low hopcode haux, packed_high hopcode haux]

theorem word_lt (r : StudyRegister) : (word r).toNat < 2 ^ 16 := by
  have hlt : r.val < 64 := r.isLt
  rw [word_toNat]
  omega

theorem byte_lt (b : UInt8) : b.toUInt32.toNat < 2 ^ 16 := by
  have hlt : b.toNat < 256 := b.toNat_lt
  rw [UInt8.toNat_toUInt32]
  omega

variable {study : CompiledStudy F} {frame : StudyFrameContext F} {pixel : StudyPixelInputs F}
  {textures : StudyTextures F} {instructionCount writeIndex historyLen motionValid : UInt32}
  {registers : StudyRegister → StudyValue F} {vectors : UInt32 → Vec4 F}

/-- An instruction and its operation define one register and one vector alike,
from every output. -/
def Matches (study : CompiledStudy F) (frame : StudyFrameContext F) (pixel : StudyPixelInputs F)
    (uniforms : StudyFrameUniforms F) (textures : StudyTextures F) (index : ℕ)
    (types types' : RegisterTypes) (registers : StudyRegister → StudyValue F)
    (vectors : UInt32 → Vec4 F) (instruction : StudyInstruction F) (op : StudyGpuOp F) : Prop :=
  ∃ dst value vector, value.Bounded ∧ Stands value vector ∧
    types' = defineRegister types dst value.type ∧
    ∀ output, Triple (At registers output) (evaluateInstruction study frame pixel index instruction)
        (fun _ => At (update registers dst value) output) ∧
      step uniforms textures ⟨vectors, output⟩ op = ⟨update vectors (word dst) vector, output⟩

open Shader (step_packOp)

theorem Rule.agrees (law : BoundLaw F) {count index : ℕ}
    {types types' : RegisterTypes} {instruction : StudyInstruction F}
    {op : StudyGpuOp F} (h : Rule count index types instruction types')
    (hdst : instruction.destination ≠ none)
    (hagree : Agrees types registers vectors)
    (hshows : Shows (.fromParts frame instructionCount writeIndex historyLen motionValid)
      textures pixel)
    (hrandom : ∀ dst domain,
      instruction = .loadDeterministicRandom dst domain →
      ∃ v, study.resolvedRandom[index]? = some (some v) ∧ InRange v)
    (henc : encodeInstruction study.resolvedRandom[index]?.join instruction = .ok op) :
    Matches study frame pixel (.fromParts frame instructionCount writeIndex historyLen motionValid)
      textures index types types' registers vectors instruction op := by
  cases h with
  | @loadCurrentColor dst =>
    cases henc
    refine ⟨dst, .color (boundColor pixel.current), _, law.boundColor_inRange _, ?_, rfl,
      fun output => ⟨set_at dst _, step_packOp⟩⟩
    change Shader.bound textures.carrier = _
    rw [Shader.bound_eq, hshows.current]
  | @loadHistoryColor dst age hpos hle =>
    cases henc
    refine ⟨dst, .color (boundColor (Shader.guardedHistory
      (.fromParts frame instructionCount writeIndex historyLen motionValid)
      textures (boundColor pixel.current) age.toUInt32)), _,
      law.boundColor_inRange _, ?_, rfl, fun output => ⟨?_, step_packOp (byte_lt age)⟩⟩
    · change Shader.bound (Shader.guardedHistory _ textures
        (Shader.bound textures.carrier) age.toUInt32) = _
      rw [Shader.bound_eq, Shader.bound_eq, hshows.current]
    · refine (guardedHistory_at hpos hle hshows).bind_eq ?_
      exact set_at dst _
  | @loadMotionVector dst =>
    cases henc
    have hmotion := motion_eq law hshows
    refine ⟨dst, .vector2 (pixel.motion.map bound), _, ⟨law.bound_inRange _, law.bound_inRange _⟩,
      ?_, rfl, fun output => ⟨set_at dst _, step_packOp⟩⟩
    rw [← hmotion]
    exact ⟨rfl, rfl⟩
  | @loadAudioBand dst band hband =>
    cases henc
    refine ⟨dst, .scalar (sanitize (frame.audioBands ⟨band.toNat, hband⟩)),
      splat (Shader.audioBand _ band.toUInt32), law.sanitize_inRange _,
      audioBand_eq hband, rfl, fun output => ⟨?_, step_packOp (byte_lt band)⟩⟩
    simp only [evaluateInstruction, dif_pos hband]
    exact set_at dst _
  | @loadBeatPhase dst =>
    cases henc
    exact ⟨dst, .scalar (sanitize frame.beatPhase), splat (sanitize frame.beatPhase),
      law.sanitize_inRange _, rfl, rfl, fun output => ⟨set_at dst _, step_packOp⟩⟩
  | @loadDeterministicRandom dst domain =>
    obtain ⟨v, hv, hrng⟩ := hrandom dst domain rfl
    rw [hv] at henc
    cases henc
    refine ⟨dst, .scalar v, splat v, hrng, rfl, rfl, fun output => ⟨?_, step_packOp⟩⟩
    simp only [evaluateInstruction, hv]
    exact set_at dst _
  | @constantScalar dst value hval =>
    cases henc
    refine ⟨dst, .scalar (bound value), splat value, law.bound_inRange _, ?_, rfl,
      fun output => ⟨set_at dst _, step_packOp⟩⟩
    exact (law.bound_of_inRange _ hval).symm
  | @constantVector2 dst value hx hy =>
    cases henc
    refine ⟨dst, .vector2 (value.map bound), ⟨value.x, value.y, lit 0, lit 0⟩, ⟨law.bound_inRange _,
      law.bound_inRange _⟩, ?_, rfl, fun output => ⟨set_at dst _, step_packOp⟩⟩
    exact ⟨(law.bound_of_inRange _ hx).symm, (law.bound_of_inRange _ hy).symm⟩
  | @constantColor dst value hx hy hz hw =>
    cases henc
    refine ⟨dst, .color (boundColor value), value, law.boundColor_inRange _, ?_, rfl,
      fun output => ⟨set_at dst _, step_packOp⟩⟩
    simp only [Stands, boundColor, map, law.bound_of_inRange _ hx, law.bound_of_inRange _ hy,
      law.bound_of_inRange _ hz, law.bound_of_inRange _ hw]
  | @add dst left right type hleft hright =>
    cases henc
    obtain ⟨value, hzip, rfl, hrng, hvec⟩ := hagree.zip law hleft hright fun a b => a + b
    exact ⟨dst, value, _, hrng, hvec, rfl, fun output => ⟨binary_at rfl rfl hzip, step_packOp⟩⟩
  | @subtract dst left right type hleft hright =>
    cases henc
    obtain ⟨value, hzip, rfl, hrng, hvec⟩ := hagree.zip law hleft hright fun a b => a - b
    exact ⟨dst, value, _, hrng, hvec, rfl, fun output => ⟨binary_at rfl rfl hzip, step_packOp⟩⟩
  | @multiply dst left right type hleft hright =>
    cases henc
    obtain ⟨value, hzip, rfl, hrng, hvec⟩ := hagree.zip law hleft hright fun a b => a * b
    exact ⟨dst, value, _, hrng, hvec, rfl, fun output => ⟨binary_at rfl rfl hzip, step_packOp⟩⟩
  | @mix dst a b amount type ha hb hamount =>
    cases henc
    obtain ⟨t, ht, -, hvt⟩ := hagree.scalar hamount
    obtain ⟨value, hzip, rfl, hrng, hvec⟩ := hagree.zip law ha hb fun a b => a + (b - a) * t
    refine ⟨dst, value, _, hrng, hvec, rfl, fun output => ⟨?_, ?_⟩⟩
    · refine (get_at amount ht).bind_eq ?_
      refine (expectScalar_at _ t).bind_eq ?_
      exact binary_at rfl rfl hzip
    · rw [step_packOp (word_lt amount), ← hvt]
      rfl
  | @clamp01 dst input type hinp =>
    cases henc
    obtain ⟨rfl, hbdd, hstands⟩ := hagree input type hinp
    obtain ⟨hrng, hvec⟩ := mapValue_stands law hbdd hstands
    refine ⟨dst, _, _, hrng, hvec, by rw [mapValue_type], fun output => ⟨?_, step_packOp⟩⟩
    refine (get_at input rfl).bind_eq ?_
    exact set_at dst _
  | @hueRotate dst color turns hcolor hturns =>
    cases henc
    obtain ⟨c, hc, -, hvc⟩ := hagree.color hcolor
    obtain ⟨t, ht, hrng, hvt⟩ := hagree.scalar hturns
    refine ⟨dst, .color (boundColor (Study.hueRotate c t)),
      Shader.bound (Shader.hueRotate (vectors (word color)) (vectors (word turns)).x),
      law.boundColor_inRange _, ?_, rfl, fun output => ⟨?_, step_packOp (word_lt turns)⟩⟩
    · rw [hvc, hvt, Shader.bound_eq, Shader.hueRotate_eq hrng.1]
      rfl
    · refine (get_at color hc).bind_eq ?_
      refine (expectColor_at _ c).bind_eq ?_
      refine (get_at turns ht).bind_eq ?_
      refine (expectScalar_at _ t).bind_eq ?_
      exact set_at dst _
  | @vectorX dst input hinp =>
    cases henc
    obtain ⟨v, hv, -, hx, -⟩ := hagree.vector2 hinp
    refine ⟨dst, .scalar (bound v.x), splat (Shader.bound (vectors (word input))).x,
      law.bound_inRange _, ?_, rfl, fun output => ⟨component_at hv _ _, step_packOp⟩⟩
    rw [Shader.bound_eq, ← hx]
    rfl
  | @vectorY dst input hinp =>
    cases henc
    obtain ⟨v, hv, -, -, hy⟩ := hagree.vector2 hinp
    refine ⟨dst, .scalar (bound v.y), splat (Shader.bound (vectors (word input))).y,
      law.bound_inRange _, ?_, rfl, fun output => ⟨component_at hv _ _, step_packOp⟩⟩
    rw [Shader.bound_eq, ← hy]
    rfl
  | @vectorMagnitude dst input hinp =>
    cases henc
    obtain ⟨v, hv, -, hx, hy⟩ := hagree.vector2 hinp
    refine ⟨dst, .scalar (bound (magnitude v)),
      splat (Shader.bound (splat (Shader.length
        (vectors (word input)).x (vectors (word input)).y))).x,
      law.bound_inRange _, ?_, rfl,
      fun output => ⟨component_at hv _ _, step_packOp⟩⟩
    rw [Shader.bound_eq, hx, hy]
    rfl
  | @vectorNormalizedDirection dst input hinp =>
    cases henc
    obtain ⟨v, hv, ⟨hrx, hry⟩, hx, hy⟩ := hagree.vector2 hinp
    refine ⟨dst, .vector2 (normalized v), Shader.bound
      (Shader.direction (vectors (word input)).x (vectors (word input)).y),
      normalized_bounded law v, ?_, rfl,
      fun output => ⟨?_, step_packOp⟩⟩
    · rw [hx, hy]
      exact direction_stands law hrx hry
    · refine (get_at input hv).bind_eq ?_
      refine (expectVector2_at _ v).bind_eq ?_
      exact set_at dst _
  | @vectorDotConstant dst input vector hinp hx hy =>
    cases henc
    obtain ⟨v, hv, -, hvx, hvy⟩ := hagree.vector2 hinp
    refine ⟨dst, .scalar (bound (v.x * vector.x + v.y * vector.y)),
      splat (Shader.bound (splat (Shader.dot (vectors (word input)).x (vectors (word input)).y
        vector.x vector.y))).x, law.bound_inRange _, ?_, rfl,
      fun output => ⟨component_at hv _ _, step_packOp⟩⟩
    rw [Shader.bound_eq, hvx, hvy]
    rfl
  | @scalarToColor dst scalar low high hscalar hlow hhigh =>
    cases henc
    obtain ⟨t, ht, -, hvt⟩ := hagree.scalar hscalar
    obtain ⟨l, hl, -, hvl⟩ := hagree.color hlow
    obtain ⟨r, hr, -, hvr⟩ := hagree.color hhigh
    refine ⟨dst, .color (boundColor (l.map₂ (fun l h => l + (h - l) * unorm t) r)),
      Shader.bound ((vectors (word low)).map₂ (· + ·)
        (Shader.scale ((vectors (word high)).map₂ (· - ·)
          (vectors (word low))) (unorm (vectors (word scalar)).x))),
      law.boundColor_inRange _, ?_, rfl, fun output => ⟨?_, step_packOp (word_lt scalar)⟩⟩
    · rw [hvl, hvr, hvt, Shader.bound_eq]
      rfl
    · refine (get_at scalar ht).bind_eq ?_
      refine (expectScalar_at _ t).bind_eq ?_
      refine (get_at low hl).bind_eq ?_
      refine (expectColor_at _ l).bind_eq ?_
      refine (get_at high hr).bind_eq ?_
      refine (expectColor_at _ r).bind_eq ?_
      exact set_at dst _
  | outputColor hlast hcolor => exact absurd rfl hdst

theorem outputColor_agrees (study : CompiledStudy F)
    (frame : StudyFrameContext F) (pixel : StudyPixelInputs F)
    (uniforms : StudyFrameUniforms F) (textures : StudyTextures F) (index : ℕ)
    {types : RegisterTypes} {color : StudyRegister}
    (hcolor : types color = some .color)
    (hagree : Agrees types registers vectors) (output : Vec4 F) :
    ∃ shown, Triple (At registers output)
        (evaluateInstruction study frame pixel index (.outputColor color))
        (fun _ => At registers shown) ∧
      step uniforms textures ⟨vectors, output⟩
        (packOp 15 0 0 (word color) 0 encodeInstruction.zero) =
        ⟨vectors, shown⟩ := by
  obtain ⟨c, hc, -, hvc⟩ := hagree.color hcolor
  refine ⟨c.map unorm, ?_, ?_⟩
  · refine (get_at color hc).bind_eq ?_
    refine (expectColor_at _ c).bind_eq ?_
    rintro s ⟨rfl, rfl⟩
    exact ⟨_, _, rfl, rfl, rfl⟩
  · rw [step_packOp, ← hvc]
    rfl

end

end CollideOScope.Study
