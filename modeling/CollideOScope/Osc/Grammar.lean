import CollideOScope.Osc.Packet

/-!
# The packet grammar

A packet is a tree of messages and bundles.  The file states its canonical
padded encoding, independently of the decoder, and shows field by field that
the decoder reads exactly the encodings: padded strings, arguments and whole
messages.
-/

namespace CollideOScope.Osc

open Nat List Prod

open CollideOScope.Checks
open CollideOScope.Control

inductive OscArgument
  | float (value : F32) (hfinite : value.isFinite)
  | int (value : ℤ)
  | true | false

def OscArgument.value : OscArgument → F32
  | .float value _ => value.clamp .zero .one
  | .int value => if value ≤ 0 then .zero else .one
  | .true => .one
  | .false => .zero

theorem OscArgument.value_unit (argument : OscArgument) :
    F32.zero.le argument.value ∧ argument.value.le .one := by
  cases argument with
  | float value hfin => exact F32.clamp_unit hfin
  | int value =>
    rw [OscArgument.value]
    split <;> decide
  | true | false => decide

structure OscMessage where
  address : RuntimeControlAddress
  argument : OscArgument

def OscMessage.decoded (message : OscMessage) : DecodedOscMessage :=
  ⟨message.address, message.argument.value⟩

mutual

inductive OscPacket
  | message (message : OscMessage)
  | bundle (elements : OscElements)

inductive OscElements
  | nil
  | cons (element : OscPacket) (rest : OscElements)

end

mutual

/-- How many levels of elements are below the root. -/
def OscPacket.depth : OscPacket → ℕ
  | .message _ => 0
  | .bundle elements => elements.depth

def OscElements.depth : OscElements → ℕ
  | .nil => 0
  | .cons element rest => max (element.depth + 1) rest.depth

end

mutual

def OscPacket.messages : OscPacket → List OscMessage
  | .message message => [message]
  | .bundle elements => elements.messages

def OscElements.messages : OscElements → List OscMessage
  | .nil => []
  | .cons element rest => element.messages ++ rest.messages

end

mutual

/-- No element starts once the limit of messages has been decoded, when `count`
have been decoded before. -/
def OscPacket.StartsWithin (count : ℕ) : OscPacket → Prop
  | .message _ => count < oscMaxMessagesPerPacket
  | .bundle elements => count < oscMaxMessagesPerPacket ∧ elements.StartsWithin count

def OscElements.StartsWithin (count : ℕ) : OscElements → Prop
  | .nil => True
  | .cons element rest =>
    element.StartsWithin count ∧ rest.StartsWithin (count + element.messages.length)

end

/-- A string with one to four null bytes behind it. -/
def oscString (text : String) : Bytes := utf8 text ++ replicate (4 - (utf8 text).length % 4) 0

inductive EncodesArgument : OscArgument → Bytes → Prop
  | float (value : F32) (hfinite : value.isFinite) :
      EncodesArgument (.float value hfinite) (oscString ",f" ++ beBytes 4 value.bits.toNat)
  | int (value : ℤ) (hlow : -2 ^ 31 ≤ value) (hhigh : value < 2 ^ 31) :
      EncodesArgument (.int value) (oscString ",i" ++ beBytes 4 (value % 2 ^ 32).toNat)
  | true : EncodesArgument .true (oscString ",T")
  | false : EncodesArgument .false (oscString ",F")

mutual

/-- The canonical encodings of a packet: any time tag, and identities in any
admitted number of digits. -/
inductive Encodes (digits : ℕ → Prop) : OscPacket → Bytes → Prop
  | message {address : RuntimeControlAddress} {argument : OscArgument}
      {segments : List String} {data : Bytes}
      (haddress : Spells digits address segments)
      (hargument : EncodesArgument argument data) :
      Encodes digits (.message ⟨address, argument⟩) (oscString (pathOf segments) ++ data)
  | bundle {elements : OscElements} {timeTag body : Bytes}
      (htimeTag : timeTag.length = 8)
      (helements : EncodesElements digits elements body) :
      Encodes digits (.bundle elements) (bundleTag ++ timeTag ++ body)

inductive EncodesElements (digits : ℕ → Prop) : OscElements → Bytes → Prop
  | nil : EncodesElements digits .nil []
  | cons {element : OscPacket} {rest : OscElements} {bytes tail : Bytes}
      (helement : Encodes digits element bytes)
      (hsize : bytes.length < 2 ^ 31)
      (hrest : EncodesElements digits rest tail) :
      EncodesElements digits (.cons element rest) (beBytes 4 bytes.length ++ bytes ++ tail)

end

@[simp] theorem beBytes_length (width n : ℕ) : (beBytes width n).length = width := by
  simp [beBytes]

variable {width : ℕ}

theorem beNat_beBytes {n : ℕ} (h : n < 256 ^ width) : beNat (beBytes width n) = n := by
  rw [beNat, beBytes, reverse_reverse, leNat_leBytes_of_lt h]

variable {bytes : Bytes}

theorem beBytes_beNat (h : bytes.length = width) : beBytes width (beNat bytes) = bytes := by
  have hreverse := leBytes_leNat bytes.reverse
  rw [length_reverse, h] at hreverse
  rw [beBytes, beNat, hreverse, reverse_reverse]

theorem beNat_lt (h : bytes.length = 4) : beNat bytes < 2 ^ 32 := by
  have hlt := leNat_lt bytes.reverse
  rw [length_reverse, h] at hlt
  exact hlt

variable {offset : ℕ}

theorem readWord_ok {word : ℕ} :
    readWord bytes offset = .ok word ↔
      word < 2 ^ 32 ∧ ∃ rest, bytes.drop offset = beBytes 4 word ++ rest := by
  simp only [readWord, bind_ok, refuse_ok, exists_unit, pure_ok, not_lt]
  constructor
  · rintro ⟨hlen, rfl⟩
    have hfield : ((bytes.drop offset).take 4).length = 4 := by
      rw [length_take, length_drop]
      omega
    refine ⟨beNat_lt hfield, (bytes.drop offset).drop 4, ?_⟩
    rw [beBytes_beNat hfield, take_append_drop]
  · rintro ⟨hword, rest, hrest⟩
    have hlen := congrArg length hrest
    rw [length_drop, length_append, beBytes_length] at hlen
    refine ⟨by omega, ?_⟩
    rw [hrest, take_left' (beBytes_length 4 word)]
    exact beNat_beBytes hword

theorem readI32_ok {value : ℤ} :
    readI32 bytes offset = .ok value ↔
      (-2 ^ 31 ≤ value ∧ value < 2 ^ 31) ∧
        ∃ rest, bytes.drop offset = beBytes 4 (value % 2 ^ 32).toNat ++ rest := by
  simp only [readI32, bind_ok, readWord_ok, pure_ok]
  constructor
  · rintro ⟨word, ⟨hword, hrest⟩, rfl⟩
    have hmod : ((if word < 2 ^ 31 then (word : ℤ)
        else (word : ℤ) - 2 ^ 32) % 2 ^ 32).toNat = word := by
      split <;> omega
    refine ⟨?_, ?_⟩
    · split <;> omega
    · rw [hmod]
      exact hrest
  · rintro ⟨⟨hlow, hhigh⟩, hrest⟩
    refine ⟨(value % 2 ^ 32).toNat, ⟨by omega, hrest⟩, ?_⟩
    split <;> omega

theorem oscString_length (text : String) :
    (oscString text).length = ((utf8 text).length + 1 + 3) / 4 * 4 := by
  rw [oscString, length_append, length_replicate]
  omega

variable {text : String}

theorem readOscString_ok {next : ℕ} :
    readOscString bytes offset = .ok (text, next) ↔
      (utf8 text).length ≤ oscMaxStringBytes ∧ 0 ∉ utf8 text ∧
        offset ≤ bytes.length ∧ next = offset + (oscString text).length ∧
        ∃ rest, bytes.drop offset = oscString text ++ rest := by
  simp only [readOscString, bind_ok, refuse_ok, exists_unit, okOr_ok, pure_ok,
    mk.injEq, not_or, not_lt]
  generalize htail : bytes.drop offset = tail
  constructor
  · rintro ⟨hoff, length, hfind, hshort, text', htext, ⟨hnext, hpad⟩, rfl, rfl⟩
    rw [fromUtf8_eq_some] at htext
    obtain ⟨hlt, hzero, hpre⟩ := findIdx?_eq_some_iff_getElem.mp hfind
    have htake : (tail.take length).length = length := by
      rw [length_take]
      omega
    have hlen : (utf8 text').length = length := by rw [← htext, htake]
    have hsize := congrArg List.length htail
    rw [length_drop] at hsize
    have hzeros : ((tail.drop (length + 1)).take ((length + 1 + 3) / 4 * 4 - (length + 1))) =
        replicate ((length + 1 + 3) / 4 * 4 - (length + 1)) 0 := by
      refine eq_replicate_iff.mpr ⟨?_, fun b hb => ?_⟩
      · rw [length_take, length_drop]
        omega
      · by_contra hne
        exact hpad (any_eq_true.mpr ⟨b, hb, by simpa using hne⟩)
    refine ⟨by rw [hlen]; exact hshort, ?_, hoff, ?_, ?_⟩
    · rw [← htext, mem_take_iff_getElem]
      rintro ⟨j, hj, hjzero⟩
      have hlt' : j < length := by omega
      exact hpre j hlt' (by simp [hjzero])
    · rw [oscString_length, hlen]
    · refine ⟨tail.drop ((length + 1 + 3) / 4 * 4), ?_⟩
      have hsplit : tail = tail.take length ++ (tail[length] ::
          ((tail.drop (length + 1)).take ((length + 1 + 3) / 4 * 4 - (length + 1)) ++
          (tail.drop (length + 1)).drop ((length + 1 + 3) / 4 * 4 - (length + 1)))) := by
        rw [take_append_drop, ← drop_eq_getElem_cons hlt, take_append_drop]
      have hdrop : (tail.drop (length + 1)).drop ((length + 1 + 3) / 4 * 4 - (length + 1)) =
          tail.drop ((length + 1 + 3) / 4 * 4) := by
        rw [drop_drop]
        congr 1
        omega
      have hfst : tail[length] = 0 := by simpa using hzero
      rw [hdrop, hzeros, hfst, htext] at hsplit
      nth_rewrite 1 [hsplit]
      rw [oscString, hlen, append_assoc]
      congr 1
      rw [← cons_append, ← replicate_succ]
      congr 2
      omega
  · rintro ⟨hshort, hnull, hoff, rfl, rest, rfl⟩
    have hpos : 4 - (utf8 text).length % 4 = (3 - (utf8 text).length % 4) + 1 := by omega
    have hfind : (oscString text ++ rest).findIdx? (· == 0) = some (utf8 text).length := by
      rw [oscString, hpos, replicate_succ, append_assoc, findIdx?_append]
      have hnone : (utf8 text).findIdx? (· == 0) = none := by
        refine findIdx?_eq_none_iff.mpr fun b hb => ?_
        rw [beq_eq_false_iff_ne]
        rintro rfl
        exact hnull hb
      simp [hnone, findIdx?_cons]
    have htake : (oscString text ++ rest).take (utf8 text).length = utf8 text := by
      rw [oscString, append_assoc, take_left]
    have hsize := congrArg length htail
    rw [length_drop, length_append] at hsize
    have hlen := oscString_length text
    refine ⟨hoff, (utf8 text).length, hfind, hshort, text, ?_, ⟨?_, ?_⟩, rfl, ?_⟩
    · rw [htake, fromUtf8_eq_some]
    · omega
    · rw [any_eq_true]
      rintro ⟨b, hb, hne⟩
      have hdrop : ((oscString text ++ rest).drop ((utf8 text).length + 1)).take
          (((utf8 text).length + 1 + 3) / 4 * 4 - ((utf8 text).length + 1)) =
          replicate (3 - (utf8 text).length % 4) 0 := by
        rw [oscString, hpos, replicate_succ, append_assoc,
          drop_append, drop_of_length_le (by omega)]
        simp only [Nat.add_sub_cancel_left, cons_append, nil_append, drop_succ_cons, drop_zero]
        rw [take_left' (by rw [length_replicate]; omega)]
      rw [hdrop] at hb
      rw [(mem_replicate.mp hb).2] at hne
      exact absurd hne (by decide)
    · rw [hlen]

/-- The strings that can be framed: short and without null characters. -/
structure Framed (text : String) : Prop where
  short : (utf8 text).length ≤ oscMaxStringBytes
  noNull : 0 ∉ utf8 text

theorem framed_of_ascii (hascii : text.toList.all isAscii) (hnull : Char.ofNat 0 ∉ text.toList)
    (hshort : text.toList.length ≤ oscMaxStringBytes) : Framed text where
  short := by rw [length_utf8, utf8ByteSize_of_ascii hascii]; exact hshort
  noNull := zero_notMem_utf8 hascii hnull

theorem Spells.framed {address : RuntimeControlAddress} {segments : List String}
    (h : Spells AtMostTwentyDigits address segments) :
    Framed (pathOf segments) where
  short := by
    obtain ⟨hcnt, hsegs⟩ := h.isSegment
    exact pathOf_short hcnt hsegs
  noNull := by
    obtain ⟨-, hsegs⟩ := h.isSegment
    refine zero_notMem_utf8 (pathOf_isAscii hsegs) fun hmem => ?_
    have hctl := pathOf_no_control hsegs _ hmem
    exact absurd hctl (by decide)

theorem readOscString_framed {rest : Bytes} (hframed : Framed text) (hoff : offset ≤ bytes.length)
    (hrest : bytes.drop offset = oscString text ++ rest) :
    readOscString bytes offset = .ok (text, offset + (oscString text).length) ∧
      offset + (oscString text).length ≤ bytes.length ∧
      bytes.drop (offset + (oscString text).length) = rest := by
  refine ⟨readOscString_ok.mpr ⟨hframed.short, hframed.noNull, hoff, rfl, rest, hrest⟩, ?_, ?_⟩
  · have hlen := congrArg length hrest
    rw [length_drop, length_append] at hlen
    omega
  · rw [← drop_drop, hrest, drop_left]

theorem framed_float : Framed ",f" :=
  framed_of_ascii (by decide +kernel) (by decide +kernel) (by decide +kernel)

theorem framed_int : Framed ",i" :=
  framed_of_ascii (by decide +kernel) (by decide +kernel) (by decide +kernel)

theorem framed_true : Framed ",T" :=
  framed_of_ascii (by decide +kernel) (by decide +kernel) (by decide +kernel)

theorem framed_false : Framed ",F" :=
  framed_of_ascii (by decide +kernel) (by decide +kernel) (by decide +kernel)

theorem decodeArgument_sound {types : String} {value : F32} (hoff : offset ≤ bytes.length)
    (h : decodeArgument bytes types offset = .ok (value, bytes.length)) :
    ∃ argument, EncodesArgument argument (oscString types ++ bytes.drop offset) ∧
      value = argument.value := by
  have hend : ∀ {field rest : Bytes}, field.length = 4 →
      offset + 4 = bytes.length → bytes.drop offset = field ++ rest →
      bytes.drop offset = field := by
    intro field rest hfield hlen hrest
    have hsize := congrArg length hrest
    rw [length_drop, length_append, hfield] at hsize
    have hnil : rest = [] := length_eq_zero_iff.mp (by omega)
    rw [hrest, hnil, append_nil]
  unfold decodeArgument at h
  split at h
  case isTrue htypes =>
    subst htypes
    simp only [bind_ok, readWord_ok, refuse_ok, exists_unit, pure_ok,
      mk.injEq, Bool.not_eq_false] at h
    obtain ⟨bits, ⟨hbits, rest, hrest⟩, hfin, rfl, hlen⟩ := h
    have hword : (UInt32.ofNat bits).toNat = bits := by
      rw [UInt32.toNat_ofNat', mod_eq_of_lt hbits]
    refine ⟨.float ⟨UInt32.ofNat bits⟩ hfin, ?_, rfl⟩
    rw [hend (beBytes_length 4 bits) hlen hrest]
    have henc := EncodesArgument.float ⟨UInt32.ofNat bits⟩ hfin
    rwa [hword] at henc
  case isFalse =>
    split at h
    case isTrue htypes =>
      subst htypes
      simp only [bind_ok, readI32_ok, pure_ok, mk.injEq] at h
      obtain ⟨n, ⟨⟨hlow, hhigh⟩, rest, hrest⟩, rfl, hlen⟩ := h
      refine ⟨.int n, ?_, ?_⟩
      · rw [hend (beBytes_length 4 _) hlen hrest]
        exact .int n hlow hhigh
      · rw [OscArgument.value]
        congr 1
        rw [eq_iff_iff]
        omega
    case isFalse =>
      split at h
      case isTrue htypes =>
        subst htypes
        simp only [pure_ok, mk.injEq] at h
        obtain ⟨rfl, rfl⟩ := h
        rw [drop_length, append_nil]
        exact ⟨.true, .true, rfl⟩
      case isFalse =>
        split at h
        case isTrue htypes =>
          subst htypes
          simp only [pure_ok, mk.injEq] at h
          obtain ⟨rfl, rfl⟩ := h
          rw [drop_length, append_nil]
          exact ⟨.false, .false, rfl⟩
        case isFalse => cases h

theorem EncodesArgument.decode {argument : OscArgument} {data : Bytes}
    (h : EncodesArgument argument data) (hoff : offset ≤ bytes.length)
    (hdata : bytes.drop offset = data) :
    ∃ types start, readOscString bytes offset = .ok (types, start) ∧
      decodeArgument bytes types start = .ok (argument.value, bytes.length) := by
  have hsize := congrArg length hdata
  rw [length_drop] at hsize
  cases h with
  | float value hfin =>
    obtain ⟨hread, hle, hdrop⟩ := readOscString_framed framed_float hoff hdata
    refine ⟨_, _, hread, ?_⟩
    have hbits : value.bits.toNat < 2 ^ 32 := UInt32.toNat_lt value.bits
    have hword := readWord_ok.mpr ⟨hbits, [], hdrop.trans (append_nil _).symm⟩
    rw [length_append, beBytes_length] at hsize
    have hend : offset + (oscString ",f").length + 4 = bytes.length := by omega
    simp only [decodeArgument, if_true, bind_ok, refuse_ok, exists_unit,
      pure_ok, mk.injEq, Bool.not_eq_false]
    exact ⟨_, hword, by rw [UInt32.ofNat_toNat]; exact hfin,
      by rw [UInt32.ofNat_toNat]; rfl, hend⟩
  | int value hlow hhigh =>
    obtain ⟨hread, hle, hdrop⟩ := readOscString_framed framed_int hoff hdata
    refine ⟨_, _, hread, ?_⟩
    have hword := readI32_ok.mpr ⟨⟨hlow, hhigh⟩, [], hdrop.trans (append_nil _).symm⟩
    rw [length_append, beBytes_length] at hsize
    have hend : offset + (oscString ",i").length + 4 = bytes.length := by omega
    have htag : ",i" ≠ ",f" := by decide
    simp only [decodeArgument, if_neg htag, if_true, bind_ok, pure_ok, mk.injEq]
    refine ⟨value, hword, ?_, hend⟩
    rw [OscArgument.value]
    congr 1
    rw [eq_iff_iff]
    omega
  | true =>
    obtain ⟨hread, hle, -⟩ :=
      readOscString_framed framed_true hoff (hdata.trans (append_nil _).symm)
    refine ⟨_, _, hread, ?_⟩
    have hend : offset + (oscString ",T").length = bytes.length := by omega
    rw [hend]
    rfl
  | false =>
    obtain ⟨hread, hle, -⟩ :=
      readOscString_framed framed_false hoff (hdata.trans (append_nil _).symm)
    refine ⟨_, _, hread, ?_⟩
    have hend : offset + (oscString ",F").length = bytes.length := by omega
    rw [hend]
    rfl

theorem decodeMessage_ok {decoded : DecodedOscMessage} :
    decodeMessage bytes = .ok decoded ↔
      ∃ (message : OscMessage) (segments : List String) (data : Bytes),
        Spells AtMostTwentyDigits message.address segments ∧
        EncodesArgument message.argument data ∧
        bytes = oscString (pathOf segments) ++ data ∧
        decoded = message.decoded := by
  constructor
  · intro h
    simp only [decodeMessage, bind_ok, Prod.exists, refuse_ok, exists_unit, pure_ok, not_not] at h
    obtain ⟨path, offset, hpath, types, start, htypes, address, haddr,
      value, length, hval, hlen, rfl⟩ := h
    rw [readOscString_ok] at hpath htypes
    obtain ⟨-, -, -, hoff, rest, hrest⟩ := hpath
    obtain ⟨-, -, hle, hstart, rest', hrest'⟩ := htypes
    rw [drop_zero] at hrest
    rw [zero_add] at hoff
    obtain ⟨segments, hspells, rfl⟩ := parseControlAddress_ok.mp haddr
    have hdrop : bytes.drop start = rest' := by rw [hstart, ← drop_drop, hrest', drop_left]
    have hstartLe : start ≤ bytes.length := by
      have hsize := congrArg List.length hrest'
      rw [length_drop, length_append] at hsize
      omega
    subst hlen
    obtain ⟨argument, hargument, rfl⟩ := decodeArgument_sound hstartLe hval
    refine ⟨⟨address, argument⟩, segments, _, hspells, hargument, ?_, rfl⟩
    rw [hdrop, ← hrest', hoff, hrest, drop_left]
  · rintro ⟨⟨address, argument⟩, segments, data, hspells, hargument, hbytes, rfl⟩
    obtain ⟨hread, hle, hdrop⟩ :=
      readOscString_framed hspells.framed (zero_le bytes.length)
        (by rw [drop_zero]; exact hbytes)
    obtain ⟨types, start, htypes, hval⟩ := hargument.decode hle hdrop
    have haddr : parseControlAddress (pathOf segments) = .ok address :=
      parseControlAddress_ok.mpr ⟨segments, hspells, rfl⟩
    simp only [decodeMessage, bind_ok, Prod.exists, refuse_ok, exists_unit, pure_ok, not_not]
    exact ⟨_, _, hread, _, _, htypes, _, haddr, _, _, hval, rfl, rfl⟩

end CollideOScope.Osc
