import CollideOScope.Study.Evaluate

/-!
# The shader interpreter of Studies

A compiled Study is encoded into operations of four words and four immediates.
The fragment stage walks them over a file of untyped vectors.  The textures are
what the stage loads at one pixel.
-/

namespace CollideOScope.Study

open FloatOps Vec4

def studyGpuMaxInstructions : ℕ := studyMaxInstructions

structure StudyGpuOp (F : Type) where
  words : Vec4 UInt32
  immediate : Vec4 F

section

variable {F : Type} [FloatOps F]

def StudyGpuOp.zeroed : StudyGpuOp F := ⟨splat 0, splat (lit 0)⟩

def word (register : StudyRegister) : UInt32 := UInt32.ofNat register.val

/-- Opcode in the low half of the first word, auxiliary operand in the high
half, then destination and sources. -/
def packOp (opcode aux dst a b : UInt32) (immediate : Vec4 F) : StudyGpuOp F :=
  ⟨⟨opcode ||| (aux <<< 16), dst, a, b⟩, immediate⟩

/-- The encoding arms of `encode_gpu_program`; `resolved` is the entry of the
resolved random table. -/
def encodeInstruction (resolved : Option F) : StudyInstruction F → Except StudyTrap (StudyGpuOp F)
  | .loadCurrentColor dst => .ok (packOp 0 0 (word dst) 0 0 zero)
  | .loadHistoryColor dst age => .ok (packOp 1 age.toUInt32 (word dst) 0 0 zero)
  | .loadMotionVector dst => .ok (packOp 2 0 (word dst) 0 0 zero)
  | .loadAudioBand dst band => .ok (packOp 3 band.toUInt32 (word dst) 0 0 zero)
  | .loadBeatPhase dst => .ok (packOp 4 0 (word dst) 0 0 zero)
  | .loadDeterministicRandom dst _ =>
    match resolved with
    | some value => .ok (packOp 5 0 (word dst) 0 0 ⟨value, lit 0, lit 0, lit 0⟩)
    | none => .error (.unreachable "compile resolved every random instruction")
  | .constantScalar dst value => .ok (packOp 6 0 (word dst) 0 0 ⟨value, lit 0, lit 0, lit 0⟩)
  | .constantVector2 dst value => .ok (packOp 7 0 (word dst) 0 0 ⟨value.x, value.y, lit 0, lit 0⟩)
  | .constantColor dst value => .ok (packOp 8 0 (word dst) 0 0 value)
  | .add dst left right => .ok (packOp 9 0 (word dst) (word left) (word right) zero)
  | .subtract dst left right => .ok (packOp 10 0 (word dst) (word left) (word right) zero)
  | .multiply dst left right => .ok (packOp 11 0 (word dst) (word left) (word right) zero)
  | .mix dst a b amount => .ok (packOp 12 (word amount) (word dst) (word a) (word b) zero)
  | .clamp01 dst input => .ok (packOp 13 0 (word dst) (word input) 0 zero)
  | .hueRotate dst color turns => .ok (packOp 14 (word turns) (word dst) (word color) 0 zero)
  | .vectorX dst input => .ok (packOp 16 0 (word dst) (word input) 0 zero)
  | .vectorY dst input => .ok (packOp 17 0 (word dst) (word input) 0 zero)
  | .vectorMagnitude dst input => .ok (packOp 18 0 (word dst) (word input) 0 zero)
  | .vectorNormalizedDirection dst input => .ok (packOp 19 0 (word dst) (word input) 0 zero)
  | .vectorDotConstant dst input vector =>
    .ok (packOp 20 0 (word dst) (word input) 0 ⟨vector.x, vector.y, lit 0, lit 0⟩)
  | .scalarToColor dst scalar low high =>
    .ok (packOp 21 (word scalar) (word dst) (word low) (word high) zero)
  | .outputColor color => .ok (packOp 15 0 0 (word color) 0 zero)
where
  zero : Vec4 F := splat (lit 0)

def CompiledStudy.encodeStep (study : CompiledStudy F) (ops : List (StudyGpuOp F))
    (entry : StudyInstruction F × ℕ) :
    Except StudyTrap (List (StudyGpuOp F)) := do
  if studyGpuMaxInstructions ≤ entry.2 then .error .indexOutOfBounds
  else
    let op ← encodeInstruction study.resolvedRandom[entry.2]?.join entry.1
    return ops ++ [op]

/-- `CompiledStudy::encode_gpu_program`: the live operations and zeroes up to
the length of the uniform array. -/
def CompiledStudy.encodeGpuProgram (study : CompiledStudy F) :
    Except StudyTrap (List (StudyGpuOp F)) := do
  let ops ← StraightLine.run study.encodeStep [] study.instructions.zipIdx
  return ops ++ List.replicate (studyGpuMaxInstructions - ops.length) StudyGpuOp.zeroed

def CompiledStudy.instructionCount (study : CompiledStudy F) : UInt32 :=
  UInt32.ofNat study.instructions.length

end

structure StudyFrameUniforms (F : Type) where
  (audioBands0 audioBands1 : Vec4 F)
  beatPhase : F
  (instructionCount validHistory writeIndex historyLen motionValid : UInt32)

/-- What the stage loads at its pixel: the carrier, a layer of the history and
the motion field. -/
structure StudyTextures (F : Type) where
  carrier : Vec4 F
  history : UInt32 → Vec4 F
  motion : Vec4 F

section

variable {F : Type} [FloatOps F]

/-- `StudyGpuFrameUniforms::from_parts`, without the node wet and blend. -/
def StudyFrameUniforms.fromParts (frame : StudyFrameContext F)
    (instructionCount writeIndex historyLen motionValid : UInt32) :
    StudyFrameUniforms F where
  audioBands0 := ⟨sanitize (frame.audioBands 0), sanitize (frame.audioBands 1),
    sanitize (frame.audioBands 2), sanitize (frame.audioBands 3)⟩
  audioBands1 := ⟨sanitize (frame.audioBands 4), sanitize (frame.audioBands 5),
    sanitize (frame.audioBands 6), sanitize (frame.audioBands 7)⟩
  beatPhase := sanitize frame.beatPhase
  instructionCount
  validHistory := frame.validHistory
  writeIndex
  historyLen
  motionValid

namespace Shader

def select {α : Type} (falseValue trueValue : α) (condition : Bool) : α :=
  if condition then trueValue else falseValue

def rgbToHsl (c : Vec3 F) : Vec3 F :=
  let maxC := max (max c.x c.y) c.z
  let minC := min (min c.x c.y) c.z
  let lightness := (maxC + minC) * lit (1 / 2)
  let delta := maxC - minC
  if lt delta (lit (1 / 1000)) then ⟨lit 0, lit 0, lightness⟩
  else
    let saturation := select (delta / (maxC + minC))
      (delta / (lit 2 - maxC - minC)) (lt (lit (1 / 2)) lightness)
    let hue :=
      if eq maxC c.x then (c.y - c.z) / delta + select (lit 0) (lit 6) (lt c.y c.z)
      else if eq maxC c.y then (c.z - c.x) / delta + lit 2
      else (c.x - c.y) / delta + lit 4
    ⟨hue / lit 6, saturation, lightness⟩

def hueToRgb (p q initial : F) : F :=
  let t := initial
  let t := if lt t (lit 0) then t + lit 1 else t
  let t := if lt (lit 1) t then t - lit 1 else t
  if lt t (lit 1 / lit 6) then p + (q - p) * lit 6 * t
  else if lt t (lit (1 / 2)) then q
  else if lt t (lit 2 / lit 3) then p + (q - p) * (lit 2 / lit 3 - t) * lit 6
  else p

def hslToRgb (hsl : Vec3 F) : Vec3 F :=
  if lt hsl.y (lit (1 / 1000)) then ⟨hsl.z, hsl.z, hsl.z⟩
  else
    let q := select (hsl.z + hsl.y - hsl.z * hsl.y) (hsl.z * (lit 1 + hsl.y))
      (lt hsl.z (lit (1 / 2)))
    let p := lit 2 * hsl.z - q
    ⟨hueToRgb p q (hsl.x + lit 1 / lit 3), hueToRgb p q hsl.x, hueToRgb p q (hsl.x - lit 1 / lit 3)⟩

/-- A component with all exponent bits set is replaced by zero. -/
def bound (value : Vec4 F) : Vec4 F :=
  value.map fun v =>
    select (clamp v (-studyMaxFiniteValue) studyMaxFiniteValue) (lit 0) (!isFinite v)

def clamp01 (value : Vec4 F) : Vec4 F := value.map fun v => clamp v (lit 0) (lit 1)

def scale (value : Vec4 F) (factor : F) : Vec4 F := value.map fun v => v * factor

def component (value : Vec4 F) (index : UInt32) : F :=
  if index = 0 then value.x else if index = 1 then value.y
  else if index = 2 then value.z else value.w

def audioBand (frame : StudyFrameUniforms F) (band : UInt32) : F :=
  if band < 4 then component frame.audioBands0 band
  else if band < 8 then component frame.audioBands1 (band - 4)
  else lit 0

/-- The layer of the history ring that holds an age. -/
def historyLayer (frame : StudyFrameUniforms F) (effective : UInt32) : UInt32 :=
  let len := if frame.historyLen < 1 then 1 else frame.historyLen
  (frame.writeIndex + len - (effective % len)) % len

/-- `min(age, max_depth)` of `guarded_history`. -/
def effectiveDepth (validHistory age : UInt32) : UInt32 :=
  let maxDepth := if 0 < validHistory then validHistory - 1 else 0
  if age < maxDepth then age else maxDepth

def guardedHistory (frame : StudyFrameUniforms F) (textures : StudyTextures F)
    (current : Vec4 F) (age : UInt32) : Vec4 F :=
  let effective := effectiveDepth frame.validHistory age
  if effective = 0 then current
  else textures.history (historyLayer frame effective)

def hueRotate (color : Vec4 F) (turns : F) : Vec4 F :=
  let hsl := rgbToHsl ⟨clamp color.x (lit 0) (lit 1),
    clamp color.y (lit 0) (lit 1), clamp color.z (lit 0) (lit 1)⟩
  let turned := hsl.x + turns
  let rgb := hslToRgb { hsl with x := turned - floor turned }
  ⟨rgb.x, rgb.y, rgb.z, color.w⟩

/-- The builtin `length` of two components. -/
def length (x y : F) : F := sqrt (x * x + y * y)

/-- The builtin `dot` of two components. -/
def dot (x y x' y' : F) : F := x * x' + y * y'

/-- The direction of two components, padded with zeroes. -/
def direction (x y : F) : Vec4 F :=
  let magnitude := length x y
  if lt (lit 0) magnitude then ⟨x / magnitude, y / magnitude, lit 0, lit 0⟩
  else ⟨lit 0, lit 0, lit 0, lit 0⟩

/-- The local variables of `fs_main`.  The register array has 64 elements; the
encoding addresses no other. -/
structure State (F : Type) where
  registers : UInt32 → Vec4 F
  output : Vec4 F

def start : State F := ⟨fun _ => splat (lit 0), splat (lit 0)⟩

def motion (frame : StudyFrameUniforms F) (textures : StudyTextures F) : Vec2 F :=
  if frame.motionValid = 0 then ⟨lit 0, lit 0⟩
  else
    let bounded := bound ⟨textures.motion.x, textures.motion.y, lit 0, lit 0⟩
    ⟨bounded.x, bounded.y⟩

/-- The switch of `fs_main` over the fields of an operation. -/
def switch (frame : StudyFrameUniforms F) (textures : StudyTextures F) (s : State F) (opcode : ℕ)
    (aux dst srcA srcB : UInt32) (immediate : Vec4 F) : State F :=
  let current := bound textures.carrier
  let a := s.registers srcA
  let b := s.registers srcB
  let write (value : Vec4 F) : State F :=
    { s with registers := Function.update s.registers dst value }
  match opcode with
  | 0 => write current
  | 1 => write (bound (guardedHistory frame textures current aux))
  | 2 =>
    let m := motion frame textures
    write ⟨m.x, m.y, lit 0, lit 0⟩
  | 3 => write (splat (audioBand frame aux))
  | 4 => write (splat frame.beatPhase)
  | 5 => write (splat immediate.x)
  | 6 => write (splat immediate.x)
  | 7 => write immediate
  | 8 => write immediate
  | 9 => write (bound (a.map₂ (· + ·) b))
  | 10 => write (bound (a.map₂ (· - ·) b))
  | 11 => write (bound (a.map₂ (· * ·) b))
  | 12 =>
    let t := (s.registers aux).x
    write (bound (a.map₂ (· + ·) (scale (b.map₂ (· - ·) a) t)))
  | 13 => write (clamp01 a)
  | 14 => write (bound (hueRotate a (s.registers aux).x))
  | 15 => { s with output := clamp01 a }
  | 16 => write (splat (bound a).x)
  | 17 => write (splat (bound a).y)
  | 18 => write (splat (bound (splat (length a.x a.y))).x)
  | 19 => write (bound (direction a.x a.y))
  | 20 => write (splat (bound (splat (dot a.x a.y immediate.x immediate.y))).x)
  | 21 =>
    let amount := clamp (s.registers aux).x (lit 0) (lit 1)
    write (bound (a.map₂ (· + ·) (scale (b.map₂ (· - ·) a) amount)))
  | _ => s

/-- One turn of the loop of `fs_main`: the fields of an operation. -/
def step (frame : StudyFrameUniforms F) (textures : StudyTextures F)
    (s : State F) (op : StudyGpuOp F) : State F :=
  switch frame textures s (op.words.x &&& 0xffff).toNat (op.words.x >>> 16)
    op.words.y op.words.z op.words.w op.immediate

/-- The loop of `fs_main`: the output before the node wet and blend. -/
def fsMain (frame : StudyFrameUniforms F) (textures : StudyTextures F)
    (program : List (StudyGpuOp F)) : State F :=
  let count := min frame.instructionCount.toNat studyGpuMaxInstructions
  (program.take count).foldl (step frame textures) start

end Shader

end

end CollideOScope.Study
