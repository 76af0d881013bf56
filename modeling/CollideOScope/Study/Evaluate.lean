import CollideOScope.Study.Document
import CollideOScope.Support.Words

/-!
# The reference evaluator of Studies

A compiled Study is walked once per pixel over a file of typed registers.  The
arms the source calls unreachable, an index out of bounds and a failed debug
assertion are traps here.  The machine keeps a record of what the run has read,
written, asked and output; nothing else depends on it.
-/

namespace CollideOScope.Study

open FloatOps

inductive StudyValue (F : Type)
  | scalar (value : F)
  | vector2 (value : Vec2 F)
  | color (value : Vec4 F)

def StudyValue.type {F : Type} : StudyValue F → StudyValueType
  | scalar _ => .scalar
  | vector2 _ => .vector2
  | color _ => .color

structure StudyFrameContext (F : Type) where
  audioBands : Fin studyMaxAudioBands → F
  beatPhase : F
  validHistory : UInt32

structure StudyPixelInputs (F : Type) where
  current : Vec4 F
  motion : Vec2 F
  history : UInt8 → Vec4 F

/-- The serializer and the digest, which are not part of the repository. -/
structure StudyHost (F : Type) where
  toVecPretty : StudyDocument F → Except String Bytes
  sha256 : Bytes → Bytes

structure CompiledStudy (F : Type) where
  instructions : List (StudyInstruction F)
  abi : StudyAbiVersion
  canonicalDigest : Bytes
  resolvedRandom : List (Option F)
  requiredHistoryAges : List UInt8

def studyRandomTag : UInt64 := 0x5354554459524e44

def studyRandomAbiMix : UInt64 := 0x9e3779b97f4a7c15

def studyRandomDomainMix : UInt64 := 0xa0761d6478bd642f

section

variable {F : Type} [FloatOps F]

/-- The 24 bits a deterministic random value is made of. -/
def randomBits (canonicalDigest : Bytes) (abi : StudyAbiVersion) (domain : UInt32) : UInt64 :=
  let documentLane := UInt64.ofNat (leNat (canonicalDigest.take 8))
  let abiLane := (UInt64.ofNat abi.major <<< 16) ||| UInt64.ofNat abi.minor
  let value := documentLane ^^^ (abiLane * studyRandomAbiMix) ^^^
    (domain.toUInt64 * studyRandomDomainMix) ^^^ studyRandomTag
  let value := (value ^^^ (value >>> 30)) * 0xbf58476d1ce4e5b9
  let value := (value ^^^ (value >>> 27)) * 0x94d049bb133111eb
  let value := value ^^^ (value >>> 31)
  value >>> 40

def deterministicRandomForAbi (canonicalDigest : Bytes) (abi : StudyAbiVersion)
    (domain : UInt32) : F :=
  lit (randomBits canonicalDigest abi domain).toNat / lit (2 ^ 24)

def StudyDocument.toJsonBytes (document : StudyDocument F)
    (host : StudyHost F) : Except StudyError Bytes := do
  document.validate
  let bytes ← (host.toVecPretty document).mapError .serialization
  Checks.refuse (bytes.length = 0 ∨ studyMaxDocumentBytes < bytes.length)
    (.documentBytes bytes.length)
  return bytes

def resolveRandom (canonicalDigest : Bytes) (abi : StudyAbiVersion) : StudyInstruction F → Option F
  | .loadDeterministicRandom _ domain => some (deterministicRandomForAbi canonicalDigest abi domain)
  | _ => none

def collectHistoryAge (ages : List UInt8) : StudyInstruction F → List UInt8
  | .loadHistoryColor _ age => if age ∈ ages then ages else ages ++ [age]
  | _ => ages

def CompiledStudy.compile (host : StudyHost F) (document : StudyDocument F) :
    Except StudyError (CompiledStudy F) := do
  let canonical ← document.toJsonBytes host
  let canonicalDigest := host.sha256 canonical
  return {
    instructions := document.instructions
    abi := document.abi
    canonicalDigest
    resolvedRandom := document.instructions.map (resolveRandom canonicalDigest document.abi)
    requiredHistoryAges :=
      (document.instructions.foldl collectHistoryAge []).insertionSort (· ≤ ·) }

end

inductive StudyTrap
  | unreachable (message : String)
  | indexOutOfBounds | debugAssertion

inductive StudyEvent (F : Type)
  | read (src : StudyRegister)
  | write (dst : StudyRegister) (value : StudyValue F)
  | ask (age : UInt8)
  | output (color : Vec4 F)

structure StudyMachine (F : Type) where
  registers : StudyRegister → StudyValue F
  output : Vec4 F
  events : List (StudyEvent F)

abbrev EvalM (F : Type) := StateT (StudyMachine F) (Except StudyTrap)

section

variable {F : Type}

def get (src : StudyRegister) : EvalM F (StudyValue F) := fun s =>
  .ok (s.registers src, { s with events := s.events ++ [.read src] })

def set (dst : StudyRegister) (value : StudyValue F) : EvalM F Unit := fun s =>
  .ok ((), { s with
    registers := Function.update s.registers dst value
    events := s.events ++ [.write dst value] })

def historyColor (pixel : StudyPixelInputs F) (age : UInt8) :
    EvalM F (Vec4 F) := fun s =>
  .ok (pixel.history age, { s with events := s.events ++ [.ask age] })

def setOutput (raw output : Vec4 F) : EvalM F Unit := fun s =>
  .ok ((), { s with output, events := s.events ++ [.output raw] })

def trap {α : Type} (reason : StudyTrap) : EvalM F α := fun _ => .error reason

def expectScalar (message : String) : StudyValue F → EvalM F F
  | .scalar value => pure value
  | _ => trap (.unreachable message)

def expectVector2 (message : String) : StudyValue F → EvalM F (Vec2 F)
  | .vector2 value => pure value
  | _ => trap (.unreachable message)

def expectColor (message : String) : StudyValue F → EvalM F (Vec4 F)
  | .color value => pure value
  | _ => trap (.unreachable message)

variable [FloatOps F]

/-- Non-finite lands on zero, finite clamps into the range of the ABI. -/
def bound (value : F) : F :=
  if isFinite value then clamp value (-studyMaxFiniteValue) studyMaxFiniteValue
  else lit 0

def boundColor (color : Vec4 F) : Vec4 F := color.map bound

def unorm (value : F) : F := clamp value (lit 0) (lit 1)

def sanitize (value : F) : F := if isFinite value then unorm value else lit 0

def mapValue (f : F → F) : StudyValue F → StudyValue F
  | .scalar a => .scalar (bound (f a))
  | .vector2 a => .vector2 (a.map fun v => bound (f v))
  | .color a => .color (a.map fun v => bound (f v))

def zip (left right : StudyValue F) (f : F → F → F) : EvalM F (StudyValue F) :=
  match left, right with
  | .scalar a, .scalar b => pure (.scalar (bound (f a b)))
  | .vector2 a, .vector2 b => pure (.vector2 (a.map₂ (fun v w => bound (f v w)) b))
  | .color a, .color b => pure (.color (a.map₂ (fun v w => bound (f v w)) b))
  | _, _ => trap (.unreachable "validation typed both operands identically")

def rgbToHsl (c : Vec3 F) : Vec3 F :=
  let maxC := max (max c.x c.y) c.z
  let minC := min (min c.x c.y) c.z
  let lightness := (maxC + minC) * lit (1 / 2)
  let delta := maxC - minC
  if lt delta (lit (1 / 1000)) then ⟨lit 0, lit 0, lightness⟩
  else
    let saturation :=
      if lt (lit (1 / 2)) lightness then delta / (lit 2 - maxC - minC)
      else delta / (maxC + minC)
    let hue :=
      if eq maxC c.x then (c.y - c.z) / delta + (if lt c.y c.z then lit 6 else lit 0)
      else if eq maxC c.y then (c.z - c.x) / delta + lit 2
      else (c.x - c.y) / delta + lit 4
    ⟨hue / lit 6, saturation, lightness⟩

def hueToRgb (p q initial : F) : F :=
  let t := initial
  let t := if lt t (lit 0) then t + lit 1 else t
  let t := if lt (lit 1) t then t - lit 1 else t
  if lt t (lit 1 / lit 6) then p + (q - p) * lit 6 * t
  else if lt t (lit (1 / 2)) then q
  else if lt t (lit 2 / lit 3) then p + (q - p) * (lit 2 / lit 3 - t) * lit 6
  else p

def hslToRgb (hsl : Vec3 F) : Vec3 F :=
  if lt hsl.y (lit (1 / 1000)) then ⟨hsl.z, hsl.z, hsl.z⟩
  else
    let q :=
      if lt hsl.z (lit (1 / 2)) then hsl.z * (lit 1 + hsl.y)
      else hsl.z + hsl.y - hsl.z * hsl.y
    let p := lit 2 * hsl.z - q
    ⟨hueToRgb p q (hsl.x + lit 1 / lit 3), hueToRgb p q hsl.x, hueToRgb p q (hsl.x - lit 1 / lit 3)⟩

def fract (value : F) : F := value - floor value

def hueRotate (color : Vec4 F) (turns : F) : Vec4 F :=
  let hsl := rgbToHsl ⟨unorm color.x, unorm color.y, unorm color.z⟩
  let hsl := if isFinite turns then { hsl with x := fract (hsl.x + turns) }
    else hsl
  let rgb := hslToRgb hsl
  ⟨rgb.x, rgb.y, rgb.z, color.w⟩

/-- `guarded_history`: the depth clamps to the valid samples, and depth zero is
the current image. -/
def guardedHistory (current : Vec4 F) (age : UInt8) (validHistory : UInt32)
    (pixel : StudyPixelInputs F) : EvalM F (Vec4 F) :=
  if age.toNat < 1 ∨ studyMaxHistoryAge < age.toNat then trap .debugAssertion
  else
    let maxDepth := min (validHistory.toNat - 1) studyMaxHistoryAge
    let effective := min age.toNat maxDepth
    if effective = 0 then pure current
    else historyColor pixel (UInt8.ofNat effective)

def magnitude (vector : Vec2 F) : F := sqrt (vector.x * vector.x + vector.y * vector.y)

/-- The direction of a vector, zero without a positive finite magnitude. -/
def normalized (vector : Vec2 F) : Vec2 F :=
  if isFinite (magnitude vector) && lt (lit 0) (magnitude vector) then
    ⟨bound (vector.x / magnitude vector), bound (vector.y / magnitude vector)⟩
  else ⟨lit 0, lit 0⟩

/-- The body of the loop of `evaluate_pixel`. -/
def evaluateInstruction (study : CompiledStudy F) (frame : StudyFrameContext F)
    (pixel : StudyPixelInputs F) (index : ℕ) :
    StudyInstruction F → EvalM F Unit
  | .loadCurrentColor dst => set dst (.color (boundColor pixel.current))
  | .loadHistoryColor dst age => do
      let color ← guardedHistory (boundColor pixel.current) age
        frame.validHistory pixel
      set dst (.color (boundColor color))
  | .loadMotionVector dst => set dst (.vector2 (pixel.motion.map bound))
  | .loadAudioBand dst band => do
      let raw := if h : band.toNat < studyMaxAudioBands then
          frame.audioBands ⟨band.toNat, h⟩
        else lit 0
      set dst (.scalar (sanitize raw))
  | .loadBeatPhase dst => set dst (.scalar (sanitize frame.beatPhase))
  | .loadDeterministicRandom dst _ =>
    match study.resolvedRandom[index]? with
    | some value => set dst (.scalar (value.getD (lit 0)))
    | none => trap .indexOutOfBounds
  | .constantScalar dst value => set dst (.scalar (bound value))
  | .constantVector2 dst value => set dst (.vector2 (value.map bound))
  | .constantColor dst value => set dst (.color (boundColor value))
  | .add dst left right => do
      set dst (← zip (← get left) (← get right) fun a b => a + b)
  | .subtract dst left right => do
      set dst (← zip (← get left) (← get right) fun a b => a - b)
  | .multiply dst left right => do
      set dst (← zip (← get left) (← get right) fun a b => a * b)
  | .mix dst a b amount => do
      let t ← expectScalar "validation typed the mix amount as a scalar"
        (← get amount)
      set dst (← zip (← get a) (← get b) fun a b => a + (b - a) * t)
  | .clamp01 dst input => do
      set dst (mapValue unorm (← get input))
  | .hueRotate dst color turns => do
      let color ← expectColor "validation typed the hue input as a color"
        (← get color)
      let turns ← expectScalar "validation typed the hue turns as a scalar"
        (← get turns)
      set dst (.color (boundColor (hueRotate color turns)))
  | .vectorX dst input => do
      let vector ← expectVector2
        "validation typed the vector X input as Vector2" (← get input)
      set dst (.scalar (bound vector.x))
  | .vectorY dst input => do
      let vector ← expectVector2
        "validation typed the vector Y input as Vector2" (← get input)
      set dst (.scalar (bound vector.y))
  | .vectorMagnitude dst input => do
      let vector ← expectVector2
        "validation typed the magnitude input as Vector2" (← get input)
      set dst (.scalar (bound (magnitude vector)))
  | .vectorNormalizedDirection dst input => do
      let vector ← expectVector2
        "validation typed the direction input as Vector2" (← get input)
      set dst (.vector2 (normalized vector))
  | .vectorDotConstant dst input vector => do
      let value ← expectVector2 "validation typed the dot input as Vector2"
        (← get input)
      set dst (.scalar (bound (value.x * vector.x + value.y * vector.y)))
  | .scalarToColor dst scalar low high => do
      let amount ← expectScalar
        "validation typed scalar-to-color amount as Scalar" (← get scalar)
      let low ← expectColor "validation typed scalar-to-color low as Color"
        (← get low)
      let high ← expectColor "validation typed scalar-to-color high as Color"
        (← get high)
      let amount := unorm amount
      set dst (.color (low.map₂ (fun l h => bound (l + (h - l) * amount)) high))
  | .outputColor color => do
      let color ← expectColor "validation typed the output as a color"
        (← get color)
      setOutput color (color.map unorm)

def evaluateStep (study : CompiledStudy F) (frame : StudyFrameContext F)
    (pixel : StudyPixelInputs F) (s : StudyMachine F)
    (entry : StudyInstruction F × ℕ) : Except StudyTrap (StudyMachine F) :=
  (evaluateInstruction study frame pixel entry.2 entry.1 s).map Prod.snd

def StudyMachine.start : StudyMachine F := ⟨fun _ => .scalar (lit 0), Vec4.splat (lit 0), []⟩

def CompiledStudy.runPixel (study : CompiledStudy F)
    (frame : StudyFrameContext F) (pixel : StudyPixelInputs F) :
    Except StudyTrap (StudyMachine F) :=
  StraightLine.run (evaluateStep study frame pixel) StudyMachine.start study.instructions.zipIdx

def CompiledStudy.evaluatePixel (study : CompiledStudy F)
    (frame : StudyFrameContext F) (pixel : StudyPixelInputs F) :
    Except StudyTrap (Vec4 F) :=
  (study.runPixel frame pixel).map StudyMachine.output

end

end CollideOScope.Study
