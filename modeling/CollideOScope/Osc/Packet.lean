import CollideOScope.Osc.Address
import CollideOScope.Support.Binary32

/-!
# OSC packets

The decoder reads one datagram: a message, or a bundle of elements that are
datagrams themselves.  It stops at the first error, and what it has read by then
is discarded.  The encoder writes the feedback of one control.

The decoder's nesting is counted down from its limit, so the recursion is
structural; the loop over the elements of a bundle advances by at least the
length field in front of each.
-/

namespace CollideOScope.Osc

open CollideOScope.Checks
open CollideOScope.Control

def oscMaxDatagramBytes : ℕ := 16 * 1024

def oscMaxBundleDepth : ℕ := 4

def oscMaxMessagesPerPacket : ℕ := 128

structure DecodedOscMessage where
  address : RuntimeControlAddress
  value : F32
  deriving DecidableEq

structure OscEvent where
  address : RuntimeControlAddress
  value : AutomationValue F32
  origin : AutomationOrigin

/-- The `width` low-order bytes of `n`, most significant first. -/
def beBytes (width n : ℕ) : Bytes := (leBytes width n).reverse

/-- The number whose big-endian bytes are given. -/
def beNat (bytes : Bytes) : ℕ := leNat bytes.reverse

/-- `bytes.get(offset..offset + 4)` as an array. -/
def readWord (bytes : Bytes) (offset : ℕ) : Except OscError ℕ := do
  refuse (offset + 4 > bytes.length) .malformed
  pure (beNat ((bytes.drop offset).take 4))

def readI32 (bytes : Bytes) (offset : ℕ) : Except OscError ℤ := do
  let word ← readWord bytes offset
  pure (if word < 2 ^ 31 then (word : ℤ) else (word : ℤ) - 2 ^ 32)

/-- A null-terminated string padded to a multiple of four bytes, and the offset
behind it. -/
def readOscString (bytes : Bytes) (offset : ℕ) :
    Except OscError (String × ℕ) := do
  refuse (offset > bytes.length) .malformed
  let tail := bytes.drop offset
  let length ← okOr (tail.findIdx? (· == 0)) .malformed
  refuse (length > oscMaxStringBytes) (.stringBytes length)
  let value ← okOr (fromUtf8 (tail.take length)) .utf8
  let padded := (length + 1 + 3) / 4 * 4
  let next := offset + padded
  refuse
    (next > bytes.length ∨ ((tail.drop (length + 1)).take (padded - (length + 1))).any (· != 0))
    .malformed
  pure (value, next)

def bundleTag : Bytes := [0x23, 0x62, 0x75, 0x6e, 0x64, 0x6c, 0x65, 0]

def decodeArgument (bytes : Bytes) (types : String) (offset : ℕ) : Except OscError (F32 × ℕ) :=
  if types = ",f" then do
    let bits ← readWord bytes offset
    let value : F32 := ⟨UInt32.ofNat bits⟩
    refuse (value.isFinite = false) .nonFinite
    pure (value.clamp .zero .one, offset + 4)
  else if types = ",i" then do
    let value ← readI32 bytes offset
    pure (if max 0 (min value 1) = 0 then .zero else .one, offset + 4)
  else if types = ",T" then pure (.one, offset)
  else if types = ",F" then pure (.zero, offset)
  else throw .typeTag

def decodeMessage (bytes : Bytes) : Except OscError DecodedOscMessage := do
  let (path, offset) ← readOscString bytes 0
  let (types, offset) ← readOscString bytes offset
  let address ← parseControlAddress path
  let (value, expectedLength) ← decodeArgument bytes types offset
  refuse (expectedLength ≠ bytes.length) .malformed
  pure ⟨address, value⟩

def decodeElements
    (decode : Bytes → List DecodedOscMessage → Except OscError (List DecodedOscMessage))
    (bytes : Bytes) (offset : ℕ) (messages : List DecodedOscMessage) :
    Except OscError (List DecodedOscMessage) :=
  if offset < bytes.length then do
    let length ← readI32 bytes offset
    refuse (length < 0) .malformed
    let start := offset + 4
    let stop := start + length.toNat
    refuse (stop > bytes.length) .malformed
    let messages ← decode ((bytes.drop start).take length.toNat) messages
    decodeElements decode bytes stop messages
  else pure messages
termination_by bytes.length - offset
decreasing_by omega

/-- `decode_packet_inner` with the number of levels that may still be entered;
none are left below the deepest bundle. -/
def decodeLevels : ℕ → Bytes → List DecodedOscMessage → Except OscError (List DecodedOscMessage)
  | 0, _, _ => throw (.bundleDepth (oscMaxBundleDepth + 1))
  | levels + 1, bytes, messages => do
      refuse (messages.length ≥ oscMaxMessagesPerPacket) (.messageCount (messages.length + 1))
      if bundleTag.isPrefixOf bytes then do
        refuse (bytes.length < 16) .malformed
        decodeElements (decodeLevels levels) bytes 16 messages
      else do
        let message ← decodeMessage bytes
        pure (messages ++ [message])

def decodePacketInner (bytes : Bytes) (depth : ℕ) (messages : List DecodedOscMessage) :
    Except OscError (List DecodedOscMessage) :=
  decodeLevels (oscMaxBundleDepth + 1 - depth) bytes messages

/-- An asserted scene action is one pulse and a released one is inert. -/
def DecodedOscMessage.event (peer : SocketAddr) (message : DecodedOscMessage) : OscEvent where
  address := message.address
  value :=
    if message.address.isSceneAction then
      if F32.half.le message.value then .trigger else .gate false
    else .absolute message.value
  origin := .osc peer

def decodePacket (bytes : Bytes) (peer : SocketAddr) :
    Except OscError (List OscEvent) := do
  refuse (bytes.length > oscMaxDatagramBytes) (.datagramBytes bytes.length)
  let messages ← decodePacketInner bytes 0 []
  pure (messages.map (·.event peer))

/-- `while !output.len().is_multiple_of(4)` push a null byte. -/
def padToFour (output : Bytes) : Bytes := output ++ List.replicate ((4 - output.length % 4) % 4) 0

def pushOscString (output : Bytes) (value : String) :
    Except OscError Bytes := do
  refuse (value.utf8ByteSize > oscMaxStringBytes ∨ 0 ∈ utf8 value) (.stringBytes value.utf8ByteSize)
  pure (padToFour (output ++ utf8 value ++ [0]))

def encodeFeedback (address : RuntimeControlAddress) (value : F32) :
    Except OscError Bytes := do
  refuse (value.isFinite = false) .nonFinite
  let path ← formatControlAddress address
  let bytes ← pushOscString [] path
  let bytes ← pushOscString bytes ",f"
  pure (bytes ++ beBytes 4 (value.clamp .zero .one).bits.toNat)

end CollideOScope.Osc
