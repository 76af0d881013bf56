import CollideOScope.Support.Words
import Mathlib.Data.UInt

/-!
# The recovery journal's record format

One record is a fixed 60-byte header followed by the serialized patch.  The
header that the encoder writes is the one that the scanner reads.

SHA-256 and the patch serializer are outside this module, so both are
parameters: the digest is any function with a 32-byte result, and a patch codec
is any pair of fallible conversions.
-/

namespace CollideOScope.Recovery

open Nat List

def recoveryJournalVersion : UInt16 := 1
def recoveryMaxEntries : ℕ := 256
def recoveryMaxFileBytes : ℕ := 64 * 1024 * 1024
def recoveryMaxPayloadBytes : ℕ := 8 * 1024 * 1024

def asciiBytes (text : String) : Bytes := text.toList.map fun c => UInt8.ofNat c.toNat

def recordMagic : Bytes := asciiBytes "COSRECJ1"
def recordFlags : UInt16 := 0
def recordReserved : UInt32 := 0
def recordHeaderBytes : ℕ := 8 + 2 + 2 + 8 + 4 + 4 + 32

def checksumDomain : Bytes := asciiBytes "collide-o-scope recovery journal record v1" ++ [0]

theorem recordMagic_length : recordMagic.length = 8 := by decide

structure Sha256 where
  digest : Bytes → Bytes
  digest_length : ∀ bytes, (digest bytes).length = 32

/-- The YAML serializer and parser of the authored patch. -/
structure PatchCodec (Patch : Type) where
  toString : Patch → Except String Bytes
  fromSlice : Bytes → Except String Patch

inductive RecoveryJournalError where
  | invalidLimits | sequenceExhausted
  | payloadTooLarge (bytes limit : ℕ)
  | recordTooLarge (bytes limit : ℕ)
  | serialize (error : String)
  | io (operation error : String)
  | destinationRace (path : String)
  deriving DecidableEq

/-- The `Display` text of an error, shown in the writer's status line. -/
def RecoveryJournalError.display : RecoveryJournalError → String
  | .invalidLimits => "recovery journal limits exceed the hard bounds"
  | .sequenceExhausted => "recovery journal sequence is exhausted"
  | .payloadTooLarge bytes limit => s!"recovery checkpoint is {bytes} bytes; limit is {limit}"
  | .recordTooLarge bytes limit =>
    s!"recovery journal record is {bytes} bytes; file limit is {limit}"
  | .serialize error => s!"serialize recovery checkpoint: {error}"
  | .io operation error => s!"{operation}: {error}"
  | .destinationRace path =>
    "recovery journal destination appeared during atomic publication: " ++ path

structure RecoveryLimits where
  (maxEntries maxFileBytes maxPayloadBytes : ℕ)
  deriving DecidableEq

def RecoveryLimits.default : RecoveryLimits where
  maxEntries := recoveryMaxEntries
  maxFileBytes := recoveryMaxFileBytes
  maxPayloadBytes := recoveryMaxPayloadBytes

/-- Admit only limits inside the hard bounds. -/
def RecoveryLimits.bounded (limits : RecoveryLimits) : Except RecoveryJournalError RecoveryLimits :=
  let minimumRecord := recordHeaderBytes + 1
  if limits.maxEntries = 0
      ∨ limits.maxEntries > recoveryMaxEntries
      ∨ limits.maxFileBytes < minimumRecord
      ∨ limits.maxFileBytes > recoveryMaxFileBytes
      ∨ limits.maxPayloadBytes = 0
      ∨ limits.maxPayloadBytes > recoveryMaxPayloadBytes
      ∨ recordHeaderBytes + limits.maxPayloadBytes > limits.maxFileBytes then
    .error .invalidLimits
  else .ok limits

/-- What `bounded` promises about the limits it admits. -/
structure RecoveryLimits.Admissible (limits : RecoveryLimits) : Prop where
  entries_pos : 0 < limits.maxEntries
  entries_le : limits.maxEntries ≤ recoveryMaxEntries
  file_le : limits.maxFileBytes ≤ recoveryMaxFileBytes
  payload_pos : 0 < limits.maxPayloadBytes
  payload_le : limits.maxPayloadBytes ≤ recoveryMaxPayloadBytes
  record_le : recordHeaderBytes + limits.maxPayloadBytes ≤ limits.maxFileBytes

variable {limits : RecoveryLimits}

theorem RecoveryLimits.bounded_eq_ok_iff {limits' : RecoveryLimits} :
    limits.bounded = .ok limits' ↔ limits.Admissible ∧ limits' = limits := by
  unfold RecoveryLimits.bounded
  simp only
  split
  · rename_i hbad
    simp only [reduceCtorEq, false_iff, not_and]
    rintro ⟨h₁, h₂, h₃, h₄, h₅, h₆⟩
    omega
  · rename_i hgood
    push Not at hgood
    obtain ⟨h₁, h₂, h₃, h₄, h₅, h₆, h₇⟩ := hgood
    simp only [Except.ok.injEq]
    constructor
    · rintro rfl
      exact ⟨⟨pos_of_ne_zero h₁, h₂, h₄, pos_of_ne_zero h₅, h₆, h₇⟩, rfl⟩
    · rintro ⟨-, rfl⟩
      rfl

theorem RecoveryLimits.default_admissible : RecoveryLimits.default.Admissible := by
  constructor <;> decide

theorem RecoveryLimits.Admissible.payload_lt_u32 (h : limits.Admissible) {n : ℕ}
    (hn : n ≤ limits.maxPayloadBytes) : n < 2 ^ 32 := by
  have hmax := h.payload_le
  rw [recoveryMaxPayloadBytes] at hmax
  omega

/-- The bytes at positions `start` up to `stop`. -/
def slice (bytes : Bytes) (start stop : ℕ) : Bytes := (bytes.drop start).take (stop - start)

variable {bytes : Bytes} {start stop : ℕ}

theorem slice_length (h : stop ≤ bytes.length) :
    (slice bytes start stop).length = stop - start := by
  rw [slice, length_take, length_drop]
  omega

theorem slice_append_slice (bytes : Bytes) {mid : ℕ} (h₁ : start ≤ mid) (h₂ : mid ≤ stop) :
    slice bytes start mid ++ slice bytes mid stop = slice bytes start stop := by
  have hsplit : stop - start = (mid - start) + (stop - mid) := by omega
  have hmid : start + (mid - start) = mid := by omega
  rw [slice, slice, slice, hsplit, take_add, drop_drop, hmid]

theorem slice_append_field (front field back : Bytes)
    (hstart : front.length = start) (hstop : start + field.length = stop) :
    slice (front ++ field ++ back) start stop = field := by
  have hlen : stop - start = field.length := by omega
  rw [slice, hlen, ← hstart, append_assoc, drop_left, take_left]

/-- The decoded fixed-width fields of a record header. -/
structure RecordHeader where
  magic : Bytes
  (version flags : UInt16)
  sequence : UInt64
  (payloadLen reserved : UInt32)
  checksum : Bytes

/-- The byte ranges at which `scan_bytes` reads the header fields. -/
def readHeader (header : Bytes) : RecordHeader where
  magic := slice header 0 8
  version := UInt16.ofNat (leNat (slice header 8 10))
  flags := UInt16.ofNat (leNat (slice header 10 12))
  sequence := UInt64.ofNat (leNat (slice header 12 20))
  payloadLen := UInt32.ofNat (leNat (slice header 20 24))
  reserved := UInt32.ofNat (leNat (slice header 24 28))
  checksum := slice header 28 60

/-- The order in which `encode_record` appends the header fields. -/
def writeHeader (header : RecordHeader) : Bytes :=
  header.magic ++ leBytes 2 header.version.toNat ++ leBytes 2 header.flags.toNat
    ++ leBytes 8 header.sequence.toNat
    ++ leBytes 4 header.payloadLen.toNat
    ++ leBytes 4 header.reserved.toNat
    ++ header.checksum

variable {header : RecordHeader}

theorem writeHeader_length (hmagic : header.magic.length = 8) (hsum : header.checksum.length = 32) :
    (writeHeader header).length = recordHeaderBytes := by
  simp [writeHeader, recordHeaderBytes, hmagic, hsum]

theorem readHeader_writeHeader (hmagic : header.magic.length = 8)
    (hsum : header.checksum.length = 32) :
    readHeader (writeHeader header) = header := by
  have h16 (v : UInt16) : UInt16.ofNat (leNat (leBytes 2 v.toNat)) = v := by
    rw [leNat_leBytes_of_lt (UInt16.toNat_lt v), UInt16.ofNat_toNat]
  have h32 (v : UInt32) : UInt32.ofNat (leNat (leBytes 4 v.toNat)) = v := by
    rw [leNat_leBytes_of_lt (UInt32.toNat_lt v), UInt32.ofNat_toNat]
  have h64 (v : UInt64) : UInt64.ofNat (leNat (leBytes 8 v.toNat)) = v := by
    rw [leNat_leBytes_of_lt (UInt64.toNat_lt v), UInt64.ofNat_toNat]
  have hfield (front field back : Bytes) (start stop : ℕ)
      (heq : writeHeader header = front ++ field ++ back)
      (hstart : front.length = start) (hstop : start + field.length = stop) :
      slice (writeHeader header) start stop = field := by
    rw [heq]
    exact slice_append_field _ _ _ hstart hstop
  obtain ⟨magic, version, flags, sequence, payloadLen, reserved, checksum⟩ := header
  simp only at hmagic hsum
  let v := leBytes 2 version.toNat
  let f := leBytes 2 flags.toNat
  let s := leBytes 8 sequence.toNat
  let p := leBytes 4 payloadLen.toNat
  let r := leBytes 4 reserved.toNat
  have hmag := hfield [] magic (v ++ f ++ s ++ p ++ r ++ checksum) 0 8
    (by simp [writeHeader, v, f, s, p, r])
    rfl (by simp [hmagic])
  have hver := hfield magic v (f ++ s ++ p ++ r ++ checksum) 8 10
    (by simp [writeHeader, v, f, s, p, r])
    hmagic (by simp [v])
  have hfla := hfield (magic ++ v) f (s ++ p ++ r ++ checksum) 10 12
    (by simp [writeHeader, v, f, s, p, r])
    (by simp [hmagic, v]) (by simp [f])
  have hseq := hfield (magic ++ v ++ f) s (p ++ r ++ checksum) 12 20
    (by simp [writeHeader, v, f, s, p, r])
    (by simp [hmagic, v, f]) (by simp [s])
  have hlen := hfield (magic ++ v ++ f ++ s) p (r ++ checksum) 20 24
    (by simp [writeHeader, v, f, s, p, r])
    (by simp [hmagic, v, f, s]) (by simp [p])
  have hres := hfield (magic ++ v ++ f ++ s ++ p) r checksum 24 28
    (by simp [writeHeader, v, f, s, p, r])
    (by simp [hmagic, v, f, s, p]) (by simp [r])
  have hchk := hfield (magic ++ v ++ f ++ s ++ p ++ r) checksum [] 28 60
    (by simp [writeHeader, v, f, s, p, r])
    (by simp [hmagic, v, f, s, p, r]) (by simp [hsum])
  rw [readHeader, hmag, hver, hfla, hseq, hlen, hres, hchk, h16, h16, h64, h32, h32]

theorem leBytes_ofNat_leNat_two (h : bytes.length = 2) :
    leBytes 2 (UInt16.ofNat (leNat bytes)).toNat = bytes := by
  have hlt : leNat bytes < 2 ^ 16 := by simpa [h] using leNat_lt bytes
  rw [UInt16.toNat_ofNat_of_lt' hlt, ← h, leBytes_leNat]

theorem leBytes_ofNat_leNat_four (h : bytes.length = 4) :
    leBytes 4 (UInt32.ofNat (leNat bytes)).toNat = bytes := by
  have hlt : leNat bytes < 2 ^ 32 := by simpa [h] using leNat_lt bytes
  rw [UInt32.toNat_ofNat_of_lt' hlt, ← h, leBytes_leNat]

theorem leBytes_ofNat_leNat_eight (h : bytes.length = 8) :
    leBytes 8 (UInt64.ofNat (leNat bytes)).toNat = bytes := by
  have hlt : leNat bytes < 2 ^ 64 := by simpa [h] using leNat_lt bytes
  rw [UInt64.toNat_ofNat_of_lt' hlt, ← h, leBytes_leNat]

theorem writeHeader_readHeader {header : Bytes} (h : header.length = recordHeaderBytes) :
    writeHeader (readHeader header) = header := by
  have hlen {start stop : ℕ} (hstop : stop ≤ 60) :
      (slice header start stop).length = stop - start := by
    apply slice_length
    rw [h, recordHeaderBytes]
    exact hstop
  unfold writeHeader readHeader
  simp only
  rw [leBytes_ofNat_leNat_two (hlen (by omega)), leBytes_ofNat_leNat_two (hlen (by omega)),
    leBytes_ofNat_leNat_eight (hlen (by omega)), leBytes_ofNat_leNat_four (hlen (by omega)),
    leBytes_ofNat_leNat_four (hlen (by omega)), slice_append_slice _ (by omega) (by omega),
    slice_append_slice _ (by omega) (by omega), slice_append_slice _ (by omega) (by omega),
    slice_append_slice _ (by omega) (by omega), slice_append_slice _ (by omega) (by omega),
    slice_append_slice _ (by omega) (by omega)]
  rw [slice, drop_zero, Nat.sub_zero]
  apply take_of_length_le
  rw [h, recordHeaderBytes]

section

variable (sha : Sha256)

/-- The digest over the domain, the header fields and the payload. -/
def recordChecksum (version flags : UInt16) (sequence : UInt64)
    (payloadLen reserved : UInt32) (payload : Bytes) : Bytes :=
  sha.digest (checksumDomain ++ recordMagic ++ leBytes 2 version.toNat ++ leBytes 2 flags.toNat
    ++ leBytes 8 sequence.toNat
    ++ leBytes 4 payloadLen.toNat
    ++ leBytes 4 reserved.toNat
    ++ payload)

/-- The header `encode_record` writes in front of a payload. -/
def recordHeader (sequence : UInt64) (payload : Bytes) : RecordHeader :=
  let payloadLen := UInt32.ofNat payload.length
  { magic := recordMagic
    version := recoveryJournalVersion
    flags := recordFlags
    sequence := sequence
    payloadLen := payloadLen
    reserved := recordReserved
    checksum := recordChecksum sha recoveryJournalVersion recordFlags sequence
      payloadLen recordReserved payload }

def recordBytes (sequence : UInt64) (payload : Bytes) : Bytes :=
  writeHeader (recordHeader sha sequence payload) ++ payload

def encodeRecord (sequence : UInt64) (payload : Bytes) : Except RecoveryJournalError Bytes :=
  if sequence = 0 then .error .sequenceExhausted
  else if payload.length < 2 ^ 32 then .ok (recordBytes sha sequence payload)
  else .error (.payloadTooLarge payload.length (2 ^ 32 - 1))

variable {sequence : UInt64} {payload : Bytes}

theorem encodeRecord_eq_ok_iff {record : Bytes} :
    encodeRecord sha sequence payload = .ok record ↔
      sequence ≠ 0 ∧ payload.length < 2 ^ 32 ∧ record = recordBytes sha sequence payload := by
  unfold encodeRecord
  split
  · simp_all
  · split
    · simp_all [eq_comm]
    · simp_all

section

variable (sequence : UInt64) (payload : Bytes)

theorem recordHeader_length :
    (writeHeader (recordHeader sha sequence payload)).length = recordHeaderBytes :=
  writeHeader_length recordMagic_length (sha.digest_length _)

theorem recordBytes_length :
    (recordBytes sha sequence payload).length = recordHeaderBytes + payload.length := by
  rw [recordBytes, length_append, recordHeader_length]

theorem recordBytes_ne_nil : recordBytes sha sequence payload ≠ [] := by
  intro hnil
  have hlen := recordBytes_length sha sequence payload
  rw [hnil, length_nil, recordHeaderBytes] at hlen
  omega

end

variable {bytes : Bytes}

theorem readHeader_of_begins (h : recordBytes sha sequence payload <+: bytes) :
    readHeader (slice bytes 0 recordHeaderBytes) = recordHeader sha sequence payload := by
  obtain ⟨rest, rfl⟩ := h
  have hslice : slice ([] ++ writeHeader (recordHeader sha sequence payload) ++
      (payload ++ rest)) 0 recordHeaderBytes = writeHeader (recordHeader sha sequence payload) := by
    exact slice_append_field _ _ _ rfl (by rw [recordHeader_length, zero_add])
  rw [recordBytes, append_assoc]
  rw [nil_append] at hslice
  rw [hslice]
  exact readHeader_writeHeader recordMagic_length (sha.digest_length _)

theorem slice_payload_of_begins (h : recordBytes sha sequence payload <+: bytes) :
    slice bytes recordHeaderBytes (recordHeaderBytes + payload.length) = payload := by
  obtain ⟨rest, rfl⟩ := h
  exact slice_append_field _ _ _ (recordHeader_length sha sequence payload) rfl

theorem recordBytes_begins_inj {sequence' : UInt64} {payload' : Bytes}
    (hlen : payload.length < 2 ^ 32) (hlen' : payload'.length < 2 ^ 32)
    (h : recordBytes sha sequence payload <+: bytes)
    (h' : recordBytes sha sequence' payload' <+: bytes) :
    sequence = sequence' ∧ payload = payload' := by
  have hheader := (readHeader_of_begins sha h).symm.trans (readHeader_of_begins sha h')
  have hseq : sequence = sequence' := congrArg RecordHeader.sequence hheader
  have hsame : payload.length = payload'.length := by
    have hfield := congrArg (fun x => (RecordHeader.payloadLen x).toNat) hheader
    simpa [recordHeader, UInt32.toNat_ofNat_of_lt' hlen,
      UInt32.toNat_ofNat_of_lt' hlen'] using hfield
  refine ⟨hseq, ?_⟩
  rw [← slice_payload_of_begins sha h, hsame, slice_payload_of_begins sha h']

end

def minimalDocument : Bytes := asciiBytes "master: \x7b\x7d\nlayers: []\n"

/-- A codec whose patches are the saved documents themselves and which knows
the smallest one. -/
def documentCodec : PatchCodec Bytes where
  toString patch := .ok patch
  fromSlice bytes := if bytes = minimalDocument then .ok bytes else .error "invalid patch"

/-- The bytes hashed for the smallest document under a sequence. -/
def minimalChecksumInput (sequence : ℕ) : Bytes :=
  checksumDomain ++ recordMagic ++ leBytes 2 1 ++ leBytes 2 0
    ++ leBytes 8 sequence ++ leBytes 4 22 ++ leBytes 4 0 ++ minimalDocument

/-- A digest that agrees with SHA-256 on `minimalChecksumInput 1` and
`minimalChecksumInput 2`. -/
def documentSha : Sha256 where
  digest bytes :=
    if bytes = minimalChecksumInput 1 then
      [0x9A, 0xBA, 0x99, 0xC7, 0x9C, 0xBD, 0x43, 0xB0, 0x31, 0xCF, 0x6A, 0x9A, 0xF5, 0x15, 0x2E,
        0x2A, 0x79, 0xD9, 0x5A, 0xA5, 0x7F, 0x4E, 0xD9, 0xC7, 0xA2, 0x55, 0xDA, 0xEC, 0x1A, 0x0D,
        0x40, 0xC8]
    else if bytes = minimalChecksumInput 2 then
      [0x9C, 0x5C, 0x9B, 0x8D, 0x94, 0x78, 0x48, 0x75, 0x58, 0x32, 0x54, 0x0C, 0x84, 0xDF, 0x74,
        0x48, 0xDA, 0x85, 0x6E, 0x3D, 0xFF, 0xB1, 0xCA, 0x6F, 0x21, 0xF1, 0xB4, 0x24, 0x36, 0xCE,
        0xD6, 0x10]
    else replicate 32 0
  digest_length bytes := by
    split
    · rfl
    · split
      · rfl
      · exact length_replicate

end CollideOScope.Recovery
