import CollideOScope.Performance.Address

/-!
# Canonical bytes of an address

The bytes of an address are a header with the code of its control, its layer
and its parameter, then its law, then the remaining identity of the control.
Whatever is behind them, they determine the address.
-/

namespace CollideOScope.Performance

def sizedText (text : String) : Bytes := leBytes 2 text.utf8ByteSize ++ utf8 text

def PerformanceValueLaw.lattice : PerformanceValueLaw → Bytes
  | .unit min max => leBytes 4 min.bits.toNat ++ leBytes 4 max.bits.toNat
  | .discrete vocab => leBytes 2 vocab.length ++ vocab.flatMap sizedText
  | .toggle => []
  | .stepped min max => leBytes 8 min.toUInt64.toNat ++ leBytes 8 max.toUInt64.toNat

def PerformanceValueLaw.encodeCanonical (law : PerformanceValueLaw) : Bytes :=
  law.code :: law.lattice

/-- The identity of a control behind the law. -/
def PerformanceControl.tail : PerformanceControl → Bytes
  | .rackNodeMaster node nodeKind _ => leBytes 8 node.toNat ++ sizedText nodeKind
  | .rackNodeLayer _ node nodeKind _ => leBytes 8 node.toNat ++ sizedText nodeKind
  | .rackNodeGroup group node nodeKind _ =>
    leBytes 8 group.toNat ++ leBytes 8 node.toNat ++ sizedText nodeKind
  | .groupParam group _ => leBytes 8 group.toNat
  | .groupMatteParam group _ => leBytes 8 group.toNat
  | .morphGlide targetQ16 => leBytes 2 targetQ16.toNat
  | .routing position _ => leBytes 4 position.toNat
  | _ => []

def PerformanceAddress.encodeCanonical (address : PerformanceAddress) : Bytes :=
  address.control.code ::
    (leBytes 4 (address.control.layer.getD 0).toNat ++ sizedText (address.control.param.getD "") ++
      address.law.encodeCanonical ++ address.control.tail)

theorem prefixCode_u16 : PrefixCode (fun _ => True) fun v : UInt16 => leBytes 2 v.toNat :=
  ((prefixCode_leBytes 2).comap fun _ _ => UInt16.toNat_inj.mp).mono
    fun v _ => UInt16.toNat_lt v

theorem prefixCode_u32 : PrefixCode (fun _ => True) fun v : UInt32 => leBytes 4 v.toNat :=
  ((prefixCode_leBytes 4).comap fun _ _ => UInt32.toNat_inj.mp).mono
    fun v _ => UInt32.toNat_lt v

theorem prefixCode_u64 : PrefixCode (fun _ => True) fun v : UInt64 => leBytes 8 v.toNat :=
  ((prefixCode_leBytes 8).comap fun _ _ => UInt64.toNat_inj.mp).mono
    fun v _ => UInt64.toNat_lt v

theorem prefixCode_i64 : PrefixCode (fun _ => True) fun v : Int64 => leBytes 8 v.toUInt64.toNat :=
  prefixCode_u64.comap fun a b h => by
    cases a
    cases b
    exact congrArg _ h

theorem prefixCode_f32 : PrefixCode (fun _ => True) fun v : F32 => leBytes 4 v.bits.toNat :=
  prefixCode_u32.comap fun a b h => by
    cases a
    cases b
    exact congrArg _ h

theorem prefixCode_sizedText : PrefixCode (fun text => text.utf8ByteSize < 2 ^ 16) sizedText := by
  have h := (prefixCode_sized 2).comap utf8_injective
  simp only [length_utf8] at h
  exact h

theorem IsName.sized {name : String} (h : IsName name) : name.utf8ByteSize < 2 ^ 16 :=
  h.2.trans_lt (by decide)

open List PerformanceValueLaw

theorem prefixCode_law :
    PrefixCode PerformanceValueLaw.Valid
      PerformanceValueLaw.encodeCanonical := by
  intro a b ha hb r s heq
  rw [encodeCanonical, encodeCanonical, cons_append, cons_append, List.cons.injEq] at heq
  obtain ⟨hcode, hrest⟩ := heq
  cases a with
  | unit min max =>
    cases b with
    | unit min' max' =>
      simp only [lattice, append_assoc] at hrest
      obtain ⟨rfl, hmax⟩ := prefixCode_f32 trivial trivial hrest
      obtain ⟨rfl, hrs⟩ := prefixCode_f32 trivial trivial hmax
      exact ⟨rfl, hrs⟩
    | discrete vocab | toggle | stepped min max => cases hcode
  | discrete vocab =>
    cases b with
    | discrete vocab' =>
      have hwords := prefixCode_counted 2 prefixCode_sizedText
      have hshort : ∀ {vocab : List String}, (discrete
          vocab).Valid → vocab.length < 256 ^ 2 ∧ ∀ token ∈ vocab, token.utf8ByteSize < 2 ^ 16 :=
        fun h => ⟨h.2.1.trans_lt (by decide), fun token htok => (h.2.2.1 token htok).sized⟩
      obtain ⟨rfl, hrs⟩ := hwords (hshort ha) (hshort hb) hrest
      exact ⟨rfl, hrs⟩
    | unit min max | toggle | stepped min max => cases hcode
  | toggle =>
    cases b with
    | toggle => exact ⟨rfl, hrest⟩
    | unit min max | discrete vocab | stepped min max => cases hcode
  | stepped min max =>
    cases b with
    | stepped min' max' =>
      simp only [lattice, append_assoc] at hrest
      obtain ⟨rfl, hmax⟩ := prefixCode_i64 trivial trivial hrest
      obtain ⟨rfl, hrs⟩ := prefixCode_i64 trivial trivial hmax
      exact ⟨rfl, hrs⟩
    | unit min max | discrete vocab | toggle => cases hcode

theorem PerformanceControl.tail_eq (control : PerformanceControl) :
    control.tail =
      control.group.elim [] (fun v => leBytes 8 v.toNat) ++
        (control.node.elim [] (fun v => leBytes 8 v.toNat) ++
          (control.nodeKind.elim [] sizedText ++
            (control.targetQ16.elim [] (fun v => leBytes 2 v.toNat) ++
              control.routing?.elim [] fun v => leBytes 4 v.toNat))) := by
  cases control <;> simp [tail, group, node, nodeKind, targetQ16, routing?]

theorem PerformanceControl.shape_eq {a b : PerformanceControl} (h : a.kindToken = b.kindToken) :
    a.param.isSome = b.param.isSome ∧ a.layer.isSome = b.layer.isSome ∧
      a.node.isSome = b.node.isSome ∧ a.group.isSome = b.group.isSome ∧
      a.nodeKind.isSome = b.nodeKind.isSome ∧
      a.targetQ16.isSome = b.targetQ16.isSome ∧
      a.routing?.isSome = b.routing?.isSome := by
  have ha := shape a
  rw [h] at ha
  obtain ⟨hparam, hlayer, hnode, hgrp, hnodeKind, htgt, hrout⟩ := shape b
  rw [← hparam, ← hlayer, ← hnode, ← hgrp, ← hnodeKind, ← htgt, ← hrout]
  simpa only [eq_comm] using ha

theorem eq_of_getD {α : Type} {a b : Option α} {default : α} (hpres : a.isSome = b.isSome)
    (heq : a.getD default = b.getD default) : a = b := by
  cases a with
  | none =>
    cases b with
    | none => rfl
    | some b => cases hpres
  | some a =>
    cases b with
    | none => cases hpres
    | some b => exact congrArg some heq

theorem PerformanceControl.Valid.sized_param {control : PerformanceControl}
    (h : control.Valid) : (control.param.getD "").utf8ByteSize < 2 ^ 16 := by
  cases hparam : control.param with
  | none => decide
  | some param => exact (h.param param hparam).sized

open PerformanceControl

theorem prefixCode_address :
    PrefixCode PerformanceAddress.Valid
      PerformanceAddress.encodeCanonical := by
  rintro ⟨a, law⟩ ⟨b, law'⟩ ⟨ha, hlaw⟩ ⟨hb, hlaw'⟩ r s heq
  simp only [PerformanceAddress.encodeCanonical, cons_append,
    List.cons.injEq, tail_eq, append_assoc] at heq
  obtain ⟨hcode, hrest⟩ := heq
  have hkind := kindToken_eq_of_code hcode
  obtain ⟨hparam, hlayer, hnode, hgrp, hnodeKind, htgt, hrout⟩ := shape_eq hkind
  obtain ⟨hlayer', hrest⟩ := prefixCode_u32 trivial trivial hrest
  obtain ⟨hparam', hrest⟩ := prefixCode_sizedText ha.sized_param hb.sized_param hrest
  obtain ⟨hlaw, hrest⟩ := prefixCode_law hlaw hlaw' hrest
  obtain ⟨hgroup', hrest⟩ := prefixCode_u64.optional hgrp
    (fun _ _ => trivial) (fun _ _ => trivial) hrest
  obtain ⟨hnode', hrest⟩ := prefixCode_u64.optional hnode
    (fun _ _ => trivial) (fun _ _ => trivial) hrest
  obtain ⟨hnodeKind', hrest⟩ := prefixCode_sizedText.optional hnodeKind
    (fun name hname => (ha.nodeKind name hname).sized)
    (fun name hname => (hb.nodeKind name hname).sized) hrest
  obtain ⟨htarget', hrest⟩ := prefixCode_u16.optional htgt
    (fun _ _ => trivial) (fun _ _ => trivial) hrest
  obtain ⟨hrouting', hrest⟩ := prefixCode_u32.optional hrout
    (fun _ _ => trivial) (fun _ _ => trivial) hrest
  have hctl : a = b := ext_parts hkind
    (eq_of_getD hlayer hlayer') (eq_of_getD hparam hparam') hnode' hgroup'
    hnodeKind' htarget' hrouting'
  exact ⟨congrArg₂ PerformanceAddress.mk hctl hlaw, hrest⟩

end CollideOScope.Performance

/-!
## Takes, documents and replay

A take is a table of addresses and a list of events.
-/

namespace CollideOScope.Performance

open CollideOScope.Checks

def performanceAlgorithmVersion : UInt16 := 1

def maxPerformanceEvents : ℕ := 16384

def maxPerformanceAddresses : ℕ := 256

def performanceChecksumDomain : Bytes := utf8 "collide-o-scope/performance-take/v1" ++ [0]

def performanceFlagTruncated : UInt16 := (1 : UInt16) <<< (0 : UInt16)

def performanceFlagIncomplete : UInt16 := (1 : UInt16) <<< (1 : UInt16)

structure PerformanceEvent where
  tick : UInt32
  (address value : UInt16)

def PerformanceEvent.encodeInto (event : PerformanceEvent) : Bytes :=
  leBytes 4 event.tick.toNat ++ leBytes 2 event.address.toNat ++ leBytes 2 event.value.toNat

structure PerformanceTake where
  addresses : List PerformanceAddress
  events : List PerformanceEvent
  lengthTicks : UInt32
  (truncated incomplete : Bool)

/-- The arguments of one call of `recordAccepted`. -/
structure Edit where
  tick : UInt32
  control : PerformanceControl
  law : PerformanceValueLaw
  raw : PerformanceRawValue

namespace PerformanceTake

/-- `PerformanceTake::default`. -/
def empty : PerformanceTake := ⟨[], [], 0, false, false⟩

section

variable [F32Arithmetic]

def refuseEarlier (take : PerformanceTake) (tick : UInt32) : Except PerformanceError Unit :=
  match take.events.getLast? with
  | some previous => refuse (tick < previous.tick) (.nonMonotonicTick previous.tick tick)
  | none => pure ()

/-- The code of an edit on the stored law, or on its own law when its control
is new. -/
def quantize (take : PerformanceTake) (edit : Edit) :
    Option ℕ → Except PerformanceError (Option UInt16)
  | some index => pure (take.addresses[index]?.bind (·.law.encode edit.raw))
  | none => do
      edit.law.validate
      refuse (take.addresses.length ≥ maxPerformanceAddresses)
        (.tooManyAddresses (take.addresses.length + 1))
      pure (edit.law.encode edit.raw)

/-- Every check of an edit, in front of the first mutation: the position of its
control in the table and its code. -/
def resolveEdit (take : PerformanceTake) (edit : Edit) :
    Except PerformanceError (Option ℕ × UInt16) := do
  edit.control.validate
  take.refuseEarlier edit.tick
  let existing := take.addresses.findIdx? (·.control = edit.control)
  match ← take.quantize edit existing with
  | none => throw .unrepresentableEdit
  | some code => pure (existing, code)

/-- The event of a resolved edit, with its address interned. -/
def push (take : PerformanceTake) (edit : Edit) (existing : Option ℕ)
    (code : UInt16) : PerformanceTake :=
  let address := existing.getD take.addresses.length
  let interned : List PerformanceAddress :=
    if existing.isSome then [] else [⟨edit.control, edit.law⟩]
  { take with
    addresses := take.addresses ++ interned
    events := take.events ++ [⟨edit.tick, UInt16.ofNat address, code⟩]
    lengthTicks := max take.lengthTicks edit.tick }

def recordAccepted (take : PerformanceTake) (edit : Edit) :
    Except PerformanceError Bool × PerformanceTake :=
  match take.resolveEdit edit with
  | .error e => (.error e, take)
  | .ok (existing, code) =>
    if take.events.length ≥ maxPerformanceEvents then (.ok false, { take with truncated := true })
    else (.ok true, take.push edit existing code)

end

def lastTick (take : PerformanceTake) : UInt32 := (take.events.getLast?.map (·.tick)).getD 0

def finalize (take : PerformanceTake) (lengthTicks : UInt32) : PerformanceTake :=
  { take with
    lengthTicks := max lengthTicks take.lastTick
    incomplete := false }

def markIncomplete (take : PerformanceTake) (lengthTicks : UInt32) : PerformanceTake :=
  { take with
    lengthTicks := max lengthTicks take.lastTick
    incomplete := true }

def flags (take : PerformanceTake) : UInt16 :=
  (if take.truncated then performanceFlagTruncated else 0) |||
    (if take.incomplete then performanceFlagIncomplete else 0)

/-- `u32::try_from(len).unwrap_or(u32::MAX)`. -/
def declaredEventCount (take : PerformanceTake) : UInt32 :=
  if take.events.length < 2 ^ 32 then .ofNat take.events.length
  else 0xffffffff

def canonicalBytes (take : PerformanceTake) : Bytes :=
  performanceChecksumDomain ++ leBytes 2 performanceAlgorithmVersion.toNat ++
    leBytes 2 take.flags.toNat ++ leBytes 4 take.lengthTicks.toNat ++
    leBytes 2 take.addresses.length ++
    take.addresses.flatMap PerformanceAddress.encodeCanonical ++
    leBytes 4 take.declaredEventCount.toNat ++
    take.events.flatMap PerformanceEvent.encodeInto

def checksumHex (sha256Hex : Bytes → String) (take : PerformanceTake) : String :=
  sha256Hex take.canonicalBytes

def refuseCode (addresses : List PerformanceAddress)
    (event : PerformanceEvent) : Except PerformanceError Unit :=
  match addresses[event.address.toNat]? with
  | none => throw (.addressOutOfRange event.address addresses.length)
  | some address => address.law.validateValue event.value

def validateEvents (addresses : List PerformanceAddress) :
    UInt32 → List PerformanceEvent → Except PerformanceError Unit
  | _, [] => pure ()
  | previous, event :: rest => do
      refuse (event.tick < previous) (.nonMonotonicTick previous event.tick)
      refuseCode addresses event
      validateEvents addresses event.tick rest

def refuseShortLength (take : PerformanceTake) : Except PerformanceError Unit :=
  match take.events.getLast? with
  | some last =>
    refuse (take.lengthTicks < last.tick) (.lengthBeforeLastEvent take.lengthTicks last.tick)
  | none => pure ()

def validate (take : PerformanceTake) : Except PerformanceError Unit := do
  refuse (take.addresses.length > maxPerformanceAddresses) (.tooManyAddresses take.addresses.length)
  refuse (take.events.length > maxPerformanceEvents) (.tooManyEvents take.events.length)
  forEach PerformanceAddress.validate take.addresses
  refuseRepeats PerformanceAddress.control
    (fun address => .duplicateAddress address.control.describe) []
    take.addresses
  validateEvents take.addresses 0 take.events
  take.refuseShortLength

end PerformanceTake

structure PerformanceTakeDocument where
  version : UInt16
  lengthTicks : UInt32
  (truncated incomplete : Bool)
  eventCount : UInt32
  checksum : String
  addresses : List PerformanceAddress
  events : List PerformanceEvent

namespace PerformanceTakeDocument

def capture (sha256Hex : Bytes → String) (take : PerformanceTake) : PerformanceTakeDocument where
  version := performanceAlgorithmVersion
  lengthTicks := take.lengthTicks
  truncated := take.truncated
  incomplete := take.incomplete
  eventCount := take.declaredEventCount
  checksum := take.checksumHex sha256Hex
  addresses := take.addresses
  events := take.events

def decode (sha256Hex : Bytes → String) (document : PerformanceTakeDocument) :
    Except PerformanceError PerformanceTake := do
  refuse (document.version ≠ performanceAlgorithmVersion) (.unsupportedVersion document.version)
  refuse (document.eventCount.toNat ≠ document.events.length)
    (.eventCount document.eventCount document.events.length)
  let take : PerformanceTake :=
    ⟨document.addresses, document.events, document.lengthTicks,
      document.truncated, document.incomplete⟩
  take.validate
  let computed := take.checksumHex sha256Hex
  refuse (computed ≠ document.checksum) (.checksumMismatch document.checksum computed)
  pure take

end PerformanceTakeDocument

structure PerformanceReplay where
  events : List PerformanceEvent
  cursor : ℕ

namespace PerformanceReplay

/-- The loop that moves the cursor over the events that are due. -/
def advance (events : List PerformanceEvent) (referenceTick : UInt32) (cursor : ℕ) : ℕ :=
  if h : cursor < events.length then
    if events[cursor].tick ≤ referenceTick then advance events referenceTick (cursor + 1)
    else cursor
  else cursor
termination_by events.length - cursor

def eventsDue (replay : PerformanceReplay) (referenceTick : UInt32) :
    List PerformanceEvent × PerformanceReplay :=
  let cursor := advance replay.events referenceTick replay.cursor
  ((replay.events.take cursor).drop replay.cursor, { replay with cursor })

def drain (replay : PerformanceReplay) : List UInt32 → List (List PerformanceEvent)
  | [] => []
  | tick :: rest => (replay.eventsDue tick).1 :: drain (replay.eventsDue tick).2 rest

end PerformanceReplay

def PerformanceTake.replay (take : PerformanceTake) : PerformanceReplay := ⟨take.events, 0⟩

end CollideOScope.Performance
