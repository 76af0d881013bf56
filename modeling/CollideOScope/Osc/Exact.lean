import CollideOScope.Osc.Grammar

/-!
# The decoder accepts its grammar

A datagram is decoded exactly when it encodes a packet that is nested no deeper
than the limit and in which no element starts after the limit of messages, and
its events are then the packet's messages in wire order.
-/

namespace CollideOScope.Osc

open List

open CollideOScope.Checks
open CollideOScope.Control

/-- What a decoder of elements must do at a given number of levels. -/
def DecodesAt (levels : ℕ)
    (decode : Bytes → List DecodedOscMessage → Except OscError (List DecodedOscMessage)) : Prop :=
  ∀ bytes messages decoded, decode bytes messages = .ok decoded ↔
    ∃ packet, Encodes AtMostTwentyDigits packet bytes ∧
      packet.depth < levels ∧ packet.StartsWithin messages.length ∧
      decoded = messages ++ packet.messages.map OscMessage.decoded

section

variable {levels : ℕ}
variable {decode : Bytes → List DecodedOscMessage → Except OscError (List DecodedOscMessage)}

def ElementsRead (levels : ℕ) (body : Bytes) (messages decoded : List DecodedOscMessage) : Prop :=
  ∃ elements, EncodesElements AtMostTwentyDigits elements body ∧
    elements.depth ≤ levels ∧ elements.StartsWithin messages.length ∧
    decoded = messages ++ elements.messages.map OscMessage.decoded

variable {messages decoded : List DecodedOscMessage}

theorem elementsRead_nil : ElementsRead levels [] messages decoded ↔ messages = decoded := by
  constructor
  · rintro ⟨elements, henc, -, -, rfl⟩
    generalize hbody : ([] : Bytes) = body at henc
    cases henc with
    | nil => simp [OscElements.messages]
    | cons helement hsize hrest =>
      have hlen := congrArg length hbody
      rw [length_append, length_append, beBytes_length, length_nil] at hlen
      omega
  · rintro rfl
    exact ⟨.nil, .nil, Nat.zero_le _, trivial, by simp [OscElements.messages]⟩

theorem elementsRead_cons (hdec : DecodesAt levels decode) {body : Bytes} (hbody : body ≠ []) :
    ElementsRead levels body messages decoded ↔
      ∃ (element tail : Bytes) (middle : List DecodedOscMessage),
        element.length < 2 ^ 31 ∧
        body = beBytes 4 element.length ++ element ++ tail ∧
        decode element messages = .ok middle ∧
        ElementsRead levels tail middle decoded := by
  constructor
  · rintro ⟨elements, henc, hdepth, hstarts, rfl⟩
    cases henc with
    | nil => exact absurd rfl hbody
    | @cons packet rest bytes tail helement hsize hrest =>
      obtain ⟨hpacket, hmore⟩ := hstarts
      rw [OscElements.depth, max_le_iff] at hdepth
      refine ⟨bytes, tail, messages ++ packet.messages.map OscMessage.decoded, hsize, rfl, ?_, rest,
        hrest, hdepth.2, ?_, ?_⟩
      · exact (hdec _ _ _).mpr ⟨packet, helement, hdepth.1, hpacket, rfl⟩
      · rw [length_append, length_map]
        exact hmore
      · rw [OscElements.messages, map_append, append_assoc]
  · rintro ⟨element, tail, middle, hsize, rfl, hmid, rest, hrest, hdepth, hstarts, rfl⟩
    obtain ⟨packet, hpacket, hlevels, hpacketStarts, rfl⟩ := (hdec _ _ _).mp hmid
    rw [length_append, length_map] at hstarts
    refine ⟨.cons packet rest, .cons hpacket hsize hrest, ?_, ⟨hpacketStarts, hstarts⟩, ?_⟩
    · rw [OscElements.depth]
      exact max_le hlevels hdepth
    · rw [OscElements.messages, map_append, append_assoc]

theorem decodeElements_step {bytes : Bytes} {offset : ℕ} (hoff : offset < bytes.length) :
    decodeElements decode bytes offset messages = .ok decoded ↔
      ∃ (element tail : Bytes) (middle : List DecodedOscMessage),
        element.length < 2 ^ 31 ∧
        bytes.drop offset = beBytes 4 element.length ++ element ++ tail ∧
        decode element messages = .ok middle ∧
        decodeElements decode bytes (offset + 4 + element.length) middle = .ok decoded := by
  rw [decodeElements, if_pos hoff]
  simp only [bind_ok, refuse_ok, exists_unit, readI32_ok, not_lt]
  constructor
  · rintro ⟨length, ⟨⟨-, hhigh⟩, rest, hrest⟩, hnonneg, hstop, middle, hmid, hdecoded⟩
    have hword : (length % 2 ^ 32).toNat = length.toNat := by omega
    have hsize : ((bytes.drop (offset + 4)).take length.toNat).length = length.toNat := by
      rw [length_take, length_drop]
      omega
    have hbody : bytes.drop (offset + 4) = rest := by
      rw [← drop_drop, hrest, drop_left' (beBytes_length 4 _)]
    refine ⟨(bytes.drop (offset + 4)).take length.toNat,
      (bytes.drop (offset + 4)).drop length.toNat, middle, ?_, ?_, hmid,
      ?_⟩
    · rw [hsize]
      omega
    · rw [hsize, append_assoc, take_append_drop, hrest, hword, hbody]
    · rw [hsize]
      exact hdecoded
  · rintro ⟨element, tail, middle, hsize, hbody, hmid, hdecoded⟩
    have hword : (((element.length : ℤ)) % 2 ^ 32).toNat = element.length := by omega
    have hlen := congrArg length hbody
    rw [length_drop, length_append, length_append, beBytes_length] at hlen
    have helement : ((bytes.drop (offset + 4)).take ((element.length : ℤ)).toNat) = element := by
      rw [← drop_drop, hbody, append_assoc, drop_left' (beBytes_length 4 _), Int.toNat_natCast,
        take_left]
    refine ⟨(element.length : ℤ), ⟨⟨by omega, by omega⟩, element ++ tail, ?_⟩,
      by omega, by rw [Int.toNat_natCast]; omega, middle, ?_, ?_⟩
    · rw [hword, hbody, append_assoc]
    · rw [helement]
      exact hmid
    · rw [Int.toNat_natCast]
      exact hdecoded

theorem decodeElements_ok (hdec : DecodesAt levels decode) (bytes : Bytes)
    (offset : ℕ) (messages decoded : List DecodedOscMessage) :
    decodeElements decode bytes offset messages = .ok decoded ↔
      ElementsRead levels (bytes.drop offset) messages decoded := by
  generalize hleft : bytes.length - offset = left
  induction left using Nat.strong_induction_on generalizing offset messages with
  | _ left ih =>
    by_cases hoff : offset < bytes.length
    · have hbody : bytes.drop offset ≠ [] := by
        intro hnil
        have hlen := congrArg length hnil
        rw [length_drop, length_nil] at hlen
        omega
      rw [decodeElements_step hoff, elementsRead_cons hdec hbody]
      refine exists_congr fun element => exists_congr fun tail =>
        exists_congr fun middle => and_congr_right fun hsize =>
        and_congr_right fun henc => and_congr_right fun hmid => ?_
      have htail : bytes.drop (offset + 4 + element.length) = tail := by
        rw [Nat.add_assoc, ← drop_drop, henc]
        refine drop_left' ?_
        rw [length_append, beBytes_length]
      rw [← htail]
      exact ih _ (by omega) _ _ rfl
    · rw [decodeElements, if_neg hoff, pure_ok,
        drop_of_length_le (not_lt.mp hoff), elementsRead_nil]

end

theorem not_bundleTag_message (segments : List String) (data : Bytes) :
    bundleTag.isPrefixOf (oscString (pathOf segments) ++ data) = false := by
  have hfst : ∃ rest, utf8 (pathOf segments) = 0x2f :: rest := by
    have hpath : (pathOf segments).toList =
        '/' :: ['/'].intercalate
          ("collide".toList :: "v1".toList :: segments.map String.toList) := by
      rw [toList_pathOf, pathParts, intercalate_cons_cons]
      rfl
    refine ⟨(['/'].intercalate ("collide".toList :: "v1".toList ::
      segments.map String.toList)).flatMap String.utf8EncodeChar, ?_⟩
    have htext : utf8 (pathOf segments) =
        (pathOf segments).toList.flatMap String.utf8EncodeChar := by
      rw [← utf8_ofList, String.ofList_toList]
    rw [htext, hpath, flatMap_cons]
    rfl
  obtain ⟨rest, hrest⟩ := hfst
  rw [oscString, hrest, bundleTag]
  rfl

theorem exists_bundle {bytes : Bytes} (htag : bundleTag.isPrefixOf bytes)
    (hlen : 16 ≤ bytes.length) :
    ∃ timeTag, timeTag.length = 8 ∧ bytes = bundleTag ++ timeTag ++ bytes.drop 16 := by
  obtain ⟨rest, rfl⟩ := isPrefixOf_iff_prefix.mp htag
  have htagLength : bundleTag.length = 8 := rfl
  rw [length_append, htagLength] at hlen
  refine ⟨rest.take 8, ?_, ?_⟩
  · rw [length_take]
    omega
  · have hdrop : (bundleTag ++ rest).drop 16 = rest.drop 8 := by
      have htagShort : bundleTag.length ≤ 16 := by decide
      rw [drop_append, htagLength, drop_of_length_le htagShort]
      rfl
    rw [hdrop, append_assoc, take_append_drop]

theorem decodeLevels_ok (levels : ℕ) : DecodesAt levels (decodeLevels levels) := by
  induction levels with
  | zero =>
    intro bytes messages decoded
    simp [decodeLevels]
  | succ levels ih =>
    intro bytes messages decoded
    simp only [decodeLevels, bind_ok, refuse_ok, exists_unit, not_le]
    by_cases htag : bundleTag.isPrefixOf bytes
    · simp only [htag, if_true, bind_ok, refuse_ok, exists_unit, not_lt, decodeElements_ok ih]
      constructor
      · rintro ⟨hcnt, hlen, elements, helements, hdepth, hstarts, rfl⟩
        obtain ⟨timeTag, htime, hbytes⟩ := exists_bundle htag hlen
        refine ⟨.bundle elements, ?_, Nat.lt_succ_of_le hdepth, ⟨hcnt, hstarts⟩, rfl⟩
        rw [hbytes]
        exact .bundle htime helements
      · rintro ⟨packet, henc, hdepth, hstarts, rfl⟩
        cases henc with
        | message haddr hargument =>
          rw [not_bundleTag_message] at htag
          cases htag
        | @bundle elements timeTag body htime helements =>
          have hlen : (bundleTag ++ timeTag).length = 16 := by
            rw [length_append, htime]
            rfl
          refine ⟨hstarts.1, ?_, elements, ?_, Nat.lt_succ_iff.mp hdepth, hstarts.2, rfl⟩
          · rw [length_append, hlen]
            omega
          · rw [drop_left' hlen]
            exact helements
    · simp only [htag, Bool.false_eq_true, if_false, bind_ok, pure_ok, decodeMessage_ok]
      constructor
      · rintro ⟨hcnt, -, ⟨message, segments, data, hspells, hargument, rfl, rfl⟩, rfl⟩
        exact ⟨.message message, .message hspells hargument, Nat.succ_pos levels, hcnt, rfl⟩
      · rintro ⟨packet, henc, hdepth, hstarts, rfl⟩
        cases henc with
        | message haddr hargument =>
          exact ⟨hstarts, _, ⟨⟨_, _⟩, _, _, haddr, hargument, rfl, rfl⟩, rfl⟩
        | bundle htime helements =>
          refine absurd ?_ htag
          rw [append_assoc]
          exact isPrefixOf_iff_prefix.mpr (prefix_append _ _)

mutual

theorem OscPacket.StartsWithin.length_le {count : ℕ} :
    {packet : OscPacket} → packet.StartsWithin count →
      count + packet.messages.length ≤ oscMaxMessagesPerPacket
  | .message _, h => h
  | .bundle _, h => h.2.length_le h.1.le

theorem OscElements.StartsWithin.length_le {count : ℕ} :
    {elements : OscElements} → elements.StartsWithin count →
      count ≤ oscMaxMessagesPerPacket →
      count + elements.messages.length ≤ oscMaxMessagesPerPacket
  | .nil, _, hcnt => hcnt
  | .cons element rest, h, _ => by
      have helement := h.1.length_le
      have hrest := h.2.length_le helement
      rw [OscElements.messages, length_append]
      omega

end

def OscEvent.WellFormed (event : OscEvent) : Prop :=
  match event.value with
  | .absolute value => event.address.isSceneAction = false ∧ F32.zero.le value ∧ value.le .one
  | .trigger => event.address.isSceneAction = true
  | .gate value => event.address.isSceneAction = true ∧ value = false
  | .delta _ => False

theorem DecodedOscMessage.event_wellFormed {message : DecodedOscMessage}
    (hunit : F32.zero.le message.value ∧ message.value.le .one)
    (peer : SocketAddr) : (message.event peer).WellFormed := by
  simp only [OscEvent.WellFormed, DecodedOscMessage.event]
  by_cases hscene : message.address.isSceneAction = true
  · by_cases hhalf : F32.half.le message.value = true
    · rw [if_pos hscene, if_pos hhalf]
      exact hscene
    · rw [if_pos hscene, if_neg hhalf]
      exact ⟨hscene, rfl⟩
  · rw [if_neg hscene]
    exact ⟨eq_false_of_ne_true hscene, hunit⟩

structure Admissible (packet : OscPacket) : Prop where
  depth : packet.depth ≤ oscMaxBundleDepth
  starts : packet.StartsWithin 0

def OscPacket.events (packet : OscPacket) (peer : SocketAddr) : List OscEvent :=
  packet.messages.map fun message => message.decoded.event peer

theorem decodePacket_ok {bytes : Bytes} {peer : SocketAddr} {events : List OscEvent} :
    decodePacket bytes peer = .ok events ↔
      bytes.length ≤ oscMaxDatagramBytes ∧
        ∃ packet, Encodes AtMostTwentyDigits packet bytes ∧
          Admissible packet ∧ events = packet.events peer := by
  simp only [decodePacket, bind_ok, refuse_ok, exists_unit, pure_ok, not_lt,
    decodePacketInner, Nat.sub_zero, decodeLevels_ok _ _ _ _]
  refine and_congr_right fun _ => ?_
  constructor
  · rintro ⟨messages, ⟨packet, henc, hdepth, hstarts, rfl⟩, rfl⟩
    refine ⟨packet, henc, ⟨Nat.lt_succ_iff.mp hdepth, hstarts⟩, ?_⟩
    rw [nil_append, map_map]
    rfl
  · rintro ⟨packet, henc, ⟨hdepth, hstarts⟩, rfl⟩
    refine ⟨_, ⟨packet, henc, Nat.lt_succ_of_le hdepth, hstarts, rfl⟩, ?_⟩
    rw [nil_append, map_map]
    rfl

theorem pushOscString_framed {output : Bytes} {text : String}
    (hout : output.length % 4 = 0) (hframed : Framed text) :
    pushOscString output text = .ok (output ++ oscString text) := by
  have hshort : ¬(text.utf8ByteSize > oscMaxStringBytes ∨ 0 ∈ utf8 text) :=
    not_or.mpr ⟨not_lt.mpr hframed.short, hframed.noNull⟩
  simp only [pushOscString, bind_ok, refuse_ok, exists_unit, pure_ok]
  refine ⟨hshort, ?_⟩
  have hlen : (output ++ utf8 text ++ [0]).length % 4 = ((utf8 text).length + 1) % 4 := by
    rw [length_append, length_append, length_singleton]
    omega
  have hpad : 4 - (utf8 text).length % 4 = 1 + (4 - ((utf8 text).length + 1) % 4) % 4 := by omega
  rw [padToFour, hlen, oscString, hpad, replicate_add]
  simp

theorem decodePacket_encodeFeedback (address : RuntimeControlAddress) (value : F32)
    (peer : SocketAddr) (haddr : ∀ slot, address ≠ .legacyMidiSlot slot) (hval : value.isFinite) :
    ∃ bytes, encodeFeedback address value = .ok bytes ∧
      decodePacket bytes peer = .ok
        [(⟨address, value.clamp .zero .one⟩ : DecodedOscMessage).event peer] := by
  obtain ⟨segments, hspells, hfmt⟩ := formatControlAddress_spells address haddr
  have hclamped : (value.clamp .zero .one).isFinite :=
    F32.isFinite_of_unit (F32.clamp_unit hval).1 (F32.clamp_unit hval).2
  have hpath : (oscString (pathOf segments)).length % 4 = 0 := by
    rw [oscString_length]
    omega
  refine ⟨oscString (pathOf segments) ++ (oscString ",f" ++
    beBytes 4 (value.clamp .zero .one).bits.toNat), ?_, ?_⟩
  · simp only [encodeFeedback, bind_ok, refuse_ok, exists_unit, pure_ok]
    refine ⟨by simpa using hval, _, hfmt, _, pushOscString_framed rfl hspells.framed, _,
      pushOscString_framed (by simpa using hpath) framed_float, ?_⟩
    simp
  · have henc := Encodes.message hspells (EncodesArgument.float (value.clamp .zero .one) hclamped)
    have hsize := hspells.framed.short
    rw [decodePacket_ok]
    have hmessages : 0 < oscMaxMessagesPerPacket := by decide
    refine ⟨?_, _, henc, ⟨Nat.zero_le _, hmessages⟩, ?_⟩
    · have htag : (oscString ",f").length = 4 := by
        rw [oscString_length, length_utf8]
        rfl
      have hmax : oscMaxStringBytes = 256 := rfl
      have hdatagram : oscMaxDatagramBytes = 16384 := rfl
      rw [length_append, length_append, beBytes_length, htag, oscString_length]
      omega
    · simp [OscPacket.events, OscPacket.messages, OscMessage.decoded,
        OscArgument.value, F32.clamp_clamp hval]

/-- The decoder accepts exactly its packet grammar, in identities of at most
twenty digits. -/
theorem decodePacket_exact :
    (∀ bytes peer events, decodePacket bytes peer = .ok events ↔
      bytes.length ≤ oscMaxDatagramBytes ∧
        ∃ packet, Encodes AtMostTwentyDigits packet bytes ∧
          Admissible packet ∧ events = packet.events peer) ∧
    (∀ bytes peer events, decodePacket bytes peer = .ok events →
      events.length ≤ oscMaxMessagesPerPacket ∧ ∀ event ∈ events, event.WellFormed) ∧
    ∀ address value peer, (∀ slot, address ≠ .legacyMidiSlot slot) →
      value.isFinite → ∃ bytes, encodeFeedback address value = .ok bytes ∧
        decodePacket bytes peer = .ok
          [(⟨address, value.clamp .zero .one⟩ : DecodedOscMessage).event peer] := by
  refine ⟨fun _ _ _ => decodePacket_ok, ?_, decodePacket_encodeFeedback⟩
  intro bytes peer events h
  obtain ⟨-, packet, -, hadmissible, rfl⟩ := decodePacket_ok.mp h
  refine ⟨?_, ?_⟩
  · have hlength := hadmissible.starts.length_le
    rw [OscPacket.events, length_map]
    omega
  · intro event hevent
    obtain ⟨message, -, rfl⟩ := mem_map.mp hevent
    exact DecodedOscMessage.event_wellFormed message.argument.value_unit peer

def longSegments : List String := ["layer", "000000000000000000001", "opacity"]

def longPacket : OscPacket := .message ⟨.layer ⟨1, one_isIdentity⟩ .opacity, .true⟩

def longBytes : Bytes := oscString (pathOf longSegments) ++ oscString ",T"

theorem spellsId_long : SpellsId (fun _ => True) 1 "000000000000000000001" :=
  ⟨⟨20, by decide +kernel⟩, trivial⟩

theorem encodes_longBytes : Encodes (fun _ => True) longPacket longBytes :=
  .message (.layer ⟨1, by decide⟩ .opacity spellsId_long) .true

theorem framed_longSegments : Framed (pathOf longSegments) := by
  have hchars : (pathOf longSegments).toList.all isAscii ∧
      Char.ofNat 0 ∉ (pathOf longSegments).toList ∧
      (pathOf longSegments).toList.length ≤ oscMaxStringBytes := by
    decide +kernel
  exact framed_of_ascii hchars.1 hchars.2.1 hchars.2.2

/-- Leading zeros are not read without bound: an identity in twenty-one digits
is refused. -/
theorem decodePacket_refuses_long_numeral :
    ¬∀ (bytes : Bytes) (peer : SocketAddr),
      bytes.length ≤ oscMaxDatagramBytes →
      ((∃ events, decodePacket bytes peer = .ok events) ↔
        ∃ packet, Encodes (fun _ => True) packet bytes ∧ Admissible packet) := by
  intro hclaim
  let peer : SocketAddr := .v4 0 0
  have hlength : longBytes.length ≤ oscMaxDatagramBytes := by
    rw [longBytes, length_append, oscString_length, oscString_length]
    have hpath := framed_longSegments.short
    have htag := framed_true.short
    have hmax : oscMaxStringBytes = 256 := rfl
    have hdatagram : oscMaxDatagramBytes = 16384 := rfl
    omega
  have hmessages : 0 < oscMaxMessagesPerPacket := by decide
  obtain ⟨events, hevents⟩ := (hclaim longBytes peer hlength).mpr
    ⟨longPacket, encodes_longBytes, Nat.zero_le _, hmessages⟩
  have hrefused : (parseControlAddress (pathOf longSegments)).toOption = none := by decide +kernel
  have htag : bundleTag.isPrefixOf longBytes = false := not_bundleTag_message _ _
  obtain ⟨hread, -, -⟩ := readOscString_framed framed_longSegments
    (Nat.zero_le longBytes.length) rfl
  simp only [decodePacket, decodePacketInner, Nat.sub_zero, decodeLevels, htag, Bool.false_eq_true,
    if_false, decodeMessage, bind_ok, hread, pure_ok] at hevents
  obtain ⟨_, _, _, ⟨_, _, _, ⟨_, hpath, _, _, address, haddress, _⟩, _⟩, _⟩ := hevents
  cases hpath
  rw [haddress] at hrefused
  cases hrefused

end CollideOScope.Osc
