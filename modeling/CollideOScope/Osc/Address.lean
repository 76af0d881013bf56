import CollideOScope.Control.Address
import CollideOScope.Support.Checks
import CollideOScope.Support.Text

/-!
# The address grammar

A control address has one path.  The parser also reads paths whose stable
identities carry leading zeros, up to twenty digits.  The file states which
paths spell an address and shows that the parser reads exactly those, and that
the formatter writes one of them.
-/

namespace CollideOScope.Osc

open Function Nat String List

open CollideOScope.Autopilot (SceneId)
open CollideOScope.Checks
open CollideOScope.Composition (StableLayerId GroupId NodeId)
open CollideOScope.Control

def oscMaxStringBytes : ℕ := 256

inductive OscError
  | datagramBytes (bytes : ℕ)
  | stringBytes (bytes : ℕ)
  | bundleDepth (depth : ℕ)
  | messageCount (count : ℕ)
  | address | parameter | stableId | unsupportedAddress | typeTag | nonFinite
  | utf8 | malformed

def okOr {α : Type} (value : Option α) (e : OscError) : Except OscError α :=
  match value with
  | some a => .ok a
  | none => .error e

variable {α : Type}

@[simp]
theorem okOr_ok {value : Option α} {e : OscError} {a : α} :
    okOr value e = .ok a ↔ value = some a := by
  cases value <;> simp [okOr]

def formatControlAddress (address : RuntimeControlAddress) :
    Except OscError String := do
  let path ← match address with
    | .legacyMidiSlot _ => throw .unsupportedAddress
    | .master parameter => pure ("/collide/v1/master/" ++ parameter.key)
    | .layer layerId parameter =>
      pure ("/collide/v1/layer/" ++ toString layerId.val ++ "/" ++ parameter.key)
    | .group groupId parameter =>
      pure ("/collide/v1/group/" ++ toString groupId.val ++ "/" ++ parameter.key)
    | .node scope nodeId parameter =>
      match scope with
      | .master => pure ("/collide/v1/node/master/" ++ toString nodeId.val ++ "/" ++ parameter.key)
      | .layer layerId =>
        pure ("/collide/v1/node/layer/" ++ toString layerId.val ++ "/" ++
          toString nodeId.val ++ "/" ++ parameter.key)
      | .group groupId =>
        pure ("/collide/v1/node/group/" ++ toString groupId.val ++ "/" ++
          toString nodeId.val ++ "/" ++ parameter.key)
    | .transport parameter => pure ("/collide/v1/transport/" ++ parameter.key)
    | .scenePrepare sceneId =>
      pure ("/collide/v1/scene/" ++ toString sceneId.val.toNat ++ "/prepare")
    | .sceneTrigger sceneId =>
      pure ("/collide/v1/scene/" ++ toString sceneId.val.toNat ++ "/trigger")
  refuse (path.utf8ByteSize > oscMaxStringBytes) (.stringBytes path.utf8ByteSize)
  pure path

def parseU64 (value : String) : Except OscError ℕ := do
  refuse (value.isEmpty ∨ value.utf8ByteSize > 20 ∨ ¬value.toList.all Char.isDigit) .stableId
  let n := ofDigitChars 10 value.toList 0
  refuse (n > u64Max) .stableId
  pure n

def parseStableId (value : String) :
    Except OscError {id : ℕ // 0 < id ∧ id ≤ u64Max} := do
  let n ← parseU64 value
  okOr (GroupId.new n) .stableId

/-- `SceneId::new`, after the conversion to 16 bits. -/
def newSceneId (value : ℕ) : Option SceneId :=
  if h : value < 2 ^ 16 ∧ UInt16.ofNat value ≠ 0 then some ⟨UInt16.ofNat value, h.2⟩
  else none

def parseSceneId (value : String) : Except OscError SceneId := do
  let n ← parseU64 value
  okOr (newSceneId n) .stableId

def parseParameter (value : String) : Except OscError ControlParameter :=
  okOr (ControlParameter.parse value) .parameter

def parseSegments : List String → Except OscError RuntimeControlAddress
  | ["", "collide", "v1", "master", key] => do
      let parameter ← parseParameter key
      pure (.master parameter)
  | ["", "collide", "v1", "layer", layer, key] => do
      let layerId ← parseStableId layer
      let parameter ← parseParameter key
      pure (.layer layerId parameter)
  | ["", "collide", "v1", "group", group, key] => do
      let groupId ← parseStableId group
      let parameter ← parseParameter key
      pure (.group groupId parameter)
  | ["", "collide", "v1", "transport", key] => do
      let parameter ← parseParameter key
      pure (.transport parameter)
  | ["", "collide", "v1", "scene", scene, "prepare"] => do
      let sceneId ← parseSceneId scene
      pure (.scenePrepare sceneId)
  | ["", "collide", "v1", "scene", scene, "trigger"] => do
      let sceneId ← parseSceneId scene
      pure (.sceneTrigger sceneId)
  | ["", "collide", "v1", "node", "master", node, key] => do
      let nodeId ← parseStableId node
      let parameter ← parseParameter key
      pure (.node .master nodeId parameter)
  | ["", "collide", "v1", "node", "layer", layer, node, key] => do
      let layerId ← parseStableId layer
      let nodeId ← parseStableId node
      let parameter ← parseParameter key
      pure (.node (.layer layerId) nodeId parameter)
  | ["", "collide", "v1", "node", "group", group, node, key] => do
      let groupId ← parseStableId group
      let nodeId ← parseStableId node
      let parameter ← parseParameter key
      pure (.node (.group groupId) nodeId parameter)
  | _ => throw .address

def parseControlAddress (path : String) :
    Except OscError RuntimeControlAddress := do
  refuse (path.utf8ByteSize > oscMaxStringBytes ∨ path.toList.any isControl)
    (.stringBytes path.utf8ByteSize)
  let segments := (path.toList.splitOn '/').map ofList
  refuse (segments.take 3 ≠ ["", "collide", "v1"]) .address
  parseSegments segments

/-- `text` is a decimal numeral of `n` in an admitted number of digits. -/
def SpellsId (digits : ℕ → Prop) (n : ℕ) (text : String) : Prop :=
  IsNumeral n text.toList ∧ digits text.toList.length

/-- The segments that spell an address after the version. -/
inductive Spells (digits : ℕ → Prop) : RuntimeControlAddress → List String → Prop
  | master (parameter : ControlParameter) :
      Spells digits (.master parameter) ["master", parameter.key]
  | layer {layer : String} (layerId : StableLayerId)
      (parameter : ControlParameter)
      (hlayer : SpellsId digits layerId.val layer) :
      Spells digits (.layer layerId parameter) ["layer", layer, parameter.key]
  | group {group : String} (groupId : GroupId) (parameter : ControlParameter)
      (hgroup : SpellsId digits groupId.val group) :
      Spells digits (.group groupId parameter) ["group", group, parameter.key]
  | transport (parameter : ControlParameter) :
      Spells digits (.transport parameter) ["transport", parameter.key]
  | scenePrepare {scene : String} (sceneId : SceneId)
      (hscene : SpellsId digits sceneId.val.toNat scene) :
      Spells digits (.scenePrepare sceneId) ["scene", scene, "prepare"]
  | sceneTrigger {scene : String} (sceneId : SceneId)
      (hscene : SpellsId digits sceneId.val.toNat scene) :
      Spells digits (.sceneTrigger sceneId) ["scene", scene, "trigger"]
  | nodeMaster {node : String} (nodeId : NodeId)
      (parameter : ControlParameter)
      (hnode : SpellsId digits nodeId.val node) :
      Spells digits (.node .master nodeId parameter) ["node", "master", node, parameter.key]
  | nodeLayer {layer node : String} (layerId : StableLayerId)
      (nodeId : NodeId) (parameter : ControlParameter)
      (hlayer : SpellsId digits layerId.val layer)
      (hnode : SpellsId digits nodeId.val node) :
      Spells digits (.node (.layer layerId) nodeId parameter)
        ["node", "layer", layer, node, parameter.key]
  | nodeGroup {group node : String} (groupId : GroupId) (nodeId : NodeId)
      (parameter : ControlParameter)
      (hgroup : SpellsId digits groupId.val group)
      (hnode : SpellsId digits nodeId.val node) :
      Spells digits (.node (.group groupId) nodeId parameter)
        ["node", "group", group, node, parameter.key]

def pathOf (segments : List String) : String :=
  .ofList (['/'].intercalate (([] :: "collide".toList :: "v1".toList :: segments.map toList)))

abbrev AtMostTwentyDigits (length : ℕ) : Prop := length ≤ 20

variable {text : String} {n : ℕ}

theorem isAscii_of_isNumeral (h : IsNumeral n text.toList) : text.toList.all isAscii := by
  have hdigits := all_eq_true.mp h.isDigit
  exact all_eq_true.mpr fun c hc => isAscii_of_isDigit (hdigits c hc)

theorem parseU64_ok : parseU64 text = .ok n ↔ SpellsId AtMostTwentyDigits n text ∧ n ≤ u64Max := by
  simp only [parseU64, bind_ok, refuse_ok, exists_unit, pure_ok, not_or, not_lt, not_not]
  constructor
  · rintro ⟨⟨hnonempty, hsize, hdigits⟩, hmax, rfl⟩
    have hne : text.toList ≠ [] := by
      simpa [String.isEmpty_iff, ← String.toList_eq_nil_iff] using hnonempty
    have hnum := isNumeral_of_isDigit hne hdigits
    refine ⟨⟨hnum, ?_⟩, hmax⟩
    rw [utf8ByteSize_of_ascii (isAscii_of_isNumeral hnum)] at hsize
    exact hsize
  · rintro ⟨⟨hnum, hlen⟩, hmax⟩
    refine ⟨⟨?_, ?_, hnum.isDigit⟩, ?_, hnum.value⟩
    · simpa [String.isEmpty_iff, ← String.toList_eq_nil_iff] using hnum.ne_nil
    · rw [utf8ByteSize_of_ascii (isAscii_of_isNumeral hnum)]
      exact hlen
    · rw [hnum.value]
      exact hmax

variable {id : {id : ℕ // 0 < id ∧ id ≤ u64Max}}

theorem newStableId_eq_some : GroupId.new n = some id ↔ n = id.val := by
  unfold GroupId.new
  constructor
  · intro h
    split at h
    · rw [← Option.some.inj h]
    · cases h
  · rintro rfl
    rw [dif_pos id.2]

theorem parseStableId_ok :
    parseStableId text = .ok id ↔ SpellsId AtMostTwentyDigits id.val text := by
  simp only [parseStableId, bind_ok, parseU64_ok, okOr_ok, newStableId_eq_some]
  constructor
  · rintro ⟨n, ⟨hspells, -⟩, rfl⟩
    exact hspells
  · intro hspells
    exact ⟨id.val, ⟨hspells, id.2.2⟩, rfl⟩

theorem newSceneId_eq_some {id : SceneId} : newSceneId n = some id ↔ n = id.val.toNat := by
  unfold newSceneId
  constructor
  · intro h
    split at h
    · rename_i hn
      rw [← Option.some.inj h]
      change n = (UInt16.ofNat n).toNat
      rw [UInt16.toNat_ofNat', mod_eq_of_lt hn.1]
    · cases h
  · rintro rfl
    have hid : UInt16.ofNat id.val.toNat = id.val := UInt16.ofNat_toNat
    rw [dif_pos ⟨UInt16.toNat_lt id.val, by rw [hid]; exact id.2⟩]
    exact congrArg some (Subtype.ext hid)

theorem parseSceneId_ok {id : SceneId} :
    parseSceneId text = .ok id ↔ SpellsId AtMostTwentyDigits id.val.toNat text := by
  simp only [parseSceneId, bind_ok, parseU64_ok, okOr_ok, newSceneId_eq_some]
  constructor
  · rintro ⟨n, ⟨hspells, -⟩, rfl⟩
    exact hspells
  · intro hspells
    have hmax : id.val.toNat ≤ u64Max := by
      have := UInt16.toNat_lt id.val
      rw [u64Max]
      omega
    exact ⟨_, ⟨hspells, hmax⟩, rfl⟩

theorem parseParameter_ok {parameter : ControlParameter} :
    parseParameter text = .ok parameter ↔ text = parameter.key := by
  rw [parseParameter, okOr_ok, ControlParameter.parse_eq_some]

/-- A segment of a path: ASCII without control characters and separators. -/
def isSegmentChar (c : Char) : Bool := isAscii c && !isControl c && c != '/'

theorem isSegmentChar_of_isDigit {c : Char} (h : c.isDigit) : isSegmentChar c := by
  obtain ⟨hlow, hhigh⟩ := isDigit_bounds h
  simp only [isSegmentChar, isAscii, isControl, Bool.and_eq_true,
    decide_eq_true_eq, Bool.not_eq_true', Bool.or_eq_false_iff,
    decide_eq_false_iff_not, Bool.and_eq_false_iff, bne_iff_ne, ne_eq]
  refine ⟨⟨by omega, by omega, by omega⟩, ?_⟩
  rintro rfl
  exact absurd hlow (by decide)

/-- What a segment contributes to a path: at most 21 bytes. -/
structure IsSegment (text : String) : Prop where
  chars : text.toList.all isSegmentChar
  short : text.toList.length ≤ 21

theorem SpellsId.isSegment (h : SpellsId AtMostTwentyDigits n text) : IsSegment text where
  chars := by
    have hdigits := all_eq_true.mp h.1.isDigit
    exact all_eq_true.mpr fun c hc => isSegmentChar_of_isDigit (hdigits c hc)
  short := le_trans h.2 (by decide)

theorem isSegment_key (parameter : ControlParameter) : IsSegment parameter.key where
  chars := by cases parameter <;> decide +kernel
  short := by cases parameter <;> decide +kernel

variable {segments : List String} {address : RuntimeControlAddress}

theorem Spells.isSegment (h : Spells AtMostTwentyDigits address segments) :
    segments.length ≤ 5 ∧ ∀ segment ∈ segments, IsSegment segment := by
  have hword : ∀ word ∈ ["master", "layer", "group", "transport", "scene",
      "prepare", "trigger", "node"], IsSegment word := by
    intro word hword
    have hall : (["master", "layer", "group", "transport", "scene",
        "prepare", "trigger", "node"].all fun word =>
          word.toList.all isSegmentChar && word.toList.length ≤ 21) := by
      decide +kernel
    have hthis := all_eq_true.mp hall word hword
    simp only [Bool.and_eq_true, decide_eq_true_eq] at hthis
    exact ⟨hthis.1, hthis.2⟩
  refine ⟨by cases h <;> simp, forall_iff_forall_mem.mp ?_⟩
  cases h with
  | master parameter | transport parameter => exact ⟨hword _ (by simp), isSegment_key parameter⟩
  | layer layerId parameter hlayer =>
    exact ⟨hword _ (by simp), hlayer.isSegment, isSegment_key parameter⟩
  | group groupId parameter hgrp =>
    exact ⟨hword _ (by simp), hgrp.isSegment, isSegment_key parameter⟩
  | scenePrepare sceneId hscene | sceneTrigger sceneId hscene =>
    exact ⟨hword _ (by simp), hscene.isSegment, hword _ (by simp)⟩
  | nodeMaster nodeId parameter hnode =>
    exact ⟨hword _ (by simp), hword _ (by simp), hnode.isSegment, isSegment_key parameter⟩
  | nodeLayer layerId nodeId parameter hlayer hnode =>
    exact ⟨hword _ (by simp), hword _ (by simp), hlayer.isSegment,
      hnode.isSegment, isSegment_key parameter⟩
  | nodeGroup groupId nodeId parameter hgrp hnode =>
    exact ⟨hword _ (by simp), hword _ (by simp), hgrp.isSegment,
      hnode.isSegment, isSegment_key parameter⟩

theorem parseSegments_ok :
    parseSegments ("" :: "collide" :: "v1" :: segments) = .ok address ↔
      Spells AtMostTwentyDigits address segments := by
  constructor
  · intro h
    unfold parseSegments at h
    split at h
    all_goals
      simp only [bind_ok, pure_ok, throw_ok, parseParameter_ok,
        parseStableId_ok, parseSceneId_ok] at h
    case h_1 heq =>
      obtain ⟨parameter, rfl, rfl⟩ := h
      cases heq
      exact .master parameter
    case h_2 heq =>
      obtain ⟨layerId, hlayer, parameter, rfl, rfl⟩ := h
      cases heq
      exact .layer layerId parameter hlayer
    case h_3 heq =>
      obtain ⟨groupId, hgrp, parameter, rfl, rfl⟩ := h
      cases heq
      exact .group groupId parameter hgrp
    case h_4 heq =>
      obtain ⟨parameter, rfl, rfl⟩ := h
      cases heq
      exact .transport parameter
    case h_5 heq =>
      obtain ⟨sceneId, hscene, rfl⟩ := h
      cases heq
      exact .scenePrepare sceneId hscene
    case h_6 heq =>
      obtain ⟨sceneId, hscene, rfl⟩ := h
      cases heq
      exact .sceneTrigger sceneId hscene
    case h_7 heq =>
      obtain ⟨nodeId, hnode, parameter, rfl, rfl⟩ := h
      cases heq
      exact .nodeMaster nodeId parameter hnode
    case h_8 heq =>
      obtain ⟨layerId, hlayer, nodeId, hnode, parameter, rfl, rfl⟩ := h
      cases heq
      exact .nodeLayer layerId nodeId parameter hlayer hnode
    case h_9 heq =>
      obtain ⟨groupId, hgrp, nodeId, hnode, parameter, rfl, rfl⟩ := h
      cases heq
      exact .nodeGroup groupId nodeId parameter hgrp hnode
  · intro h
    cases h with
    | master parameter | transport parameter => simp [parseSegments, parseParameter_ok]
    | layer layerId parameter hlayer =>
      simp [parseSegments, parseParameter_ok, parseStableId_ok.mpr hlayer]
    | group groupId parameter hgrp =>
      simp [parseSegments, parseParameter_ok, parseStableId_ok.mpr hgrp]
    | scenePrepare sceneId hscene | sceneTrigger sceneId hscene =>
      simp [parseSegments, parseSceneId_ok.mpr hscene]
    | nodeMaster nodeId parameter hnode =>
      simp [parseSegments, parseParameter_ok, parseStableId_ok.mpr hnode]
    | nodeLayer layerId nodeId parameter hlayer hnode =>
      simp [parseSegments, parseParameter_ok, parseStableId_ok.mpr hlayer,
        parseStableId_ok.mpr hnode]
    | nodeGroup groupId nodeId parameter hgrp hnode =>
      simp [parseSegments, parseParameter_ok, parseStableId_ok.mpr hgrp, parseStableId_ok.mpr hnode]

variable {parts : List (List α)}

theorem mem_intercalate {separator c : α} (h : c ∈ [separator].intercalate parts) :
    c = separator ∨ ∃ part ∈ parts, c ∈ part := by
  induction parts with
  | nil => simp at h
  | cons part rest ih =>
    cases rest with
    | nil =>
      refine .inr ⟨part, mem_cons_self, ?_⟩
      simpa using h
    | cons next rest =>
      rw [List.intercalate_cons_cons, List.mem_append, List.mem_append] at h
      rcases h with (h | h) | h
      · exact .inr ⟨part, mem_cons_self, h⟩
      · exact .inl (mem_singleton.mp h)
      · rcases ih h with hseparator | ⟨part', hpart', hc⟩
        · exact .inl hseparator
        · exact .inr ⟨part', mem_cons_of_mem _ hpart', hc⟩

theorem length_intercalate_le (separator : α) {bound : ℕ}
    (h : ∀ part ∈ parts, part.length ≤ bound) :
    ([separator].intercalate parts).length ≤ parts.length * (bound + 1) := by
  induction parts with
  | nil => simp
  | cons part rest ih =>
    have hpart := h part mem_cons_self
    have hrest := ih fun other hother => h other (mem_cons_of_mem _ hother)
    rw [length_cons, succ_mul]
    cases rest with
    | nil =>
      simp only [List.intercalate_singleton]
      omega
    | cons next rest =>
      rw [List.intercalate_cons_cons, List.length_append, List.length_append, List.length_singleton]
      omega

def pathParts (segments : List String) : List (List Char) :=
  [] :: "collide".toList :: "v1".toList :: segments.map toList

theorem toList_pathOf (segments : List String) :
    (pathOf segments).toList = ['/'].intercalate (pathParts segments) :=
  toList_ofList

section

variable (h : ∀ segment ∈ segments, IsSegment segment)
include h

theorem pathParts_isSegment :
    ∀ part ∈ pathParts segments, part.all isSegmentChar ∧ part.length ≤ 21 := by
  intro part hpart
  rcases mem_cons.mp hpart with rfl | hpart
  · exact ⟨rfl, zero_le _⟩
  rcases mem_cons.mp hpart with rfl | hpart
  · decide +kernel
  rcases mem_cons.mp hpart with rfl | hpart
  · decide +kernel
  · obtain ⟨segment, hseg, rfl⟩ := mem_map.mp hpart
    exact ⟨(h segment hseg).chars, (h segment hseg).short⟩

theorem pathOf_chars : ∀ c ∈ (pathOf segments).toList, c = '/' ∨ isSegmentChar c := by
  intro c hc
  rw [toList_pathOf] at hc
  rcases mem_intercalate hc with hseparator | ⟨part, hpart, hmem⟩
  · exact .inl hseparator
  · exact Or.inr (all_eq_true.mp (pathParts_isSegment h part hpart).1 c hmem)

theorem pathOf_isAscii : (pathOf segments).toList.all isAscii := by
  refine all_eq_true.mpr fun c hc => ?_
  rcases pathOf_chars h c hc with rfl | hseg
  · rfl
  · simp only [isSegmentChar, Bool.and_eq_true] at hseg
    exact hseg.1.1

theorem pathOf_no_control : ∀ c ∈ (pathOf segments).toList, isControl c = false := by
  intro c hc
  rcases pathOf_chars h c hc with rfl | hseg
  · rfl
  · simp only [isSegmentChar, Bool.and_eq_true, Bool.not_eq_true'] at hseg
    exact hseg.1.2

end

theorem pathOf_short (hcnt : segments.length ≤ 5) (h : ∀ segment ∈ segments, IsSegment segment) :
    (pathOf segments).utf8ByteSize ≤ oscMaxStringBytes := by
  rw [utf8ByteSize_of_ascii (pathOf_isAscii h), toList_pathOf]
  have hlen := length_intercalate_le '/'
    fun part hpart => (pathParts_isSegment h part hpart).2
  have hparts : (pathParts segments).length = segments.length + 3 := by simp [pathParts]
  rw [hparts] at hlen
  have hmax : oscMaxStringBytes = 256 := rfl
  omega

theorem splitOn_pathOf (h : ∀ segment ∈ segments, IsSegment segment) :
    (((pathOf segments).toList.splitOn '/').map ofList) = "" :: "collide" :: "v1" :: segments := by
  have hsplit : (pathOf segments).toList.splitOn '/' = pathParts segments := by
    rw [toList_pathOf]
    refine splitOn_intercalate '/' ?_ (by simp [pathParts])
    intro part hpart hmem
    have hchars := all_eq_true.mp (pathParts_isSegment h part hpart).1 _ hmem
    exact absurd hchars (by decide)
  rw [hsplit, pathParts]
  simp [List.map_map, comp_def]

variable {path : String}

theorem parseControlAddress_ok :
    parseControlAddress path = .ok address ↔
      ∃ segments, Spells AtMostTwentyDigits address segments ∧ path = pathOf segments := by
  simp only [parseControlAddress, bind_ok, refuse_ok, exists_unit, not_or, not_lt, not_not]
  constructor
  · rintro ⟨-, htake, hsegs⟩
    generalize hsplit : (path.toList.splitOn '/').map ofList = parts
      at htake hsegs
    have hparts : parts = "" :: "collide" :: "v1" :: parts.drop 3 := by
      rw [← take_append_drop 3 parts, htake]
      simp
    rw [hparts] at hsegs
    refine ⟨parts.drop 3, parseSegments_ok.mp hsegs, ?_⟩
    have hmap : path.toList.splitOn '/' = parts.map toList := by
      rw [← hsplit, List.map_map]
      simp [comp_def]
    have hjoin : ['/'].intercalate (path.toList.splitOn '/') = path.toList :=
      intercalate_splitOn '/'
    rw [← toList_inj, toList_pathOf, ← hjoin, hmap]
    nth_rewrite 1 [hparts]
    simp [pathParts]
  · rintro ⟨segments, hspells, rfl⟩
    obtain ⟨hcnt, hsegs⟩ := hspells.isSegment
    refine ⟨⟨pathOf_short hcnt hsegs, ?_⟩, ?_, ?_⟩
    · rw [any_eq_true]
      rintro ⟨c, hc, hctl⟩
      rw [pathOf_no_control hsegs c hc] at hctl
      cases hctl
    · rw [splitOn_pathOf hsegs]
      rfl
    · rw [splitOn_pathOf hsegs]
      exact parseSegments_ok.mpr hspells

theorem spellsId_toString (h : n ≤ u64Max) : SpellsId AtMostTwentyDigits n (toString n) := by
  have htext : (toString n).toList = toDigits 10 n := by simp
  refine ⟨by rw [htext]; exact isNumeral_toDigits n, ?_⟩
  rw [htext]
  refine (length_toDigits_le_iff (by decide) (by decide)).mpr ?_
  rw [u64Max] at h
  omega

theorem formatted_path (hspells : Spells AtMostTwentyDigits address segments)
    (hpath : path = pathOf segments) :
    ¬path.utf8ByteSize > oscMaxStringBytes ∧ parseControlAddress path = .ok address := by
  obtain ⟨hcnt, hsegs⟩ := hspells.isSegment
  refine ⟨?_, parseControlAddress_ok.mpr ⟨segments, hspells, hpath⟩⟩
  rw [hpath]
  exact not_lt.mpr (pathOf_short hcnt hsegs)

theorem formatControlAddress_spells (address : RuntimeControlAddress)
    (h : ∀ slot, address ≠ .legacyMidiSlot slot) :
    ∃ segments, Spells AtMostTwentyDigits address segments ∧
      formatControlAddress address = .ok (pathOf segments) := by
  have hfmt : ∀ (segments : List String) (path : String),
      Spells AtMostTwentyDigits address segments →
      path.toList = (pathOf segments).toList →
      formatControlAddress address =
        (do
          refuse (path.utf8ByteSize > oscMaxStringBytes) (.stringBytes path.utf8ByteSize)
          pure path) →
      ∃ segments, Spells AtMostTwentyDigits address segments ∧
        formatControlAddress address = .ok (pathOf segments) := by
    intro segments path hspells hpath hfmt
    have hpath := toList_inj.mp hpath
    obtain ⟨hshort, -⟩ := formatted_path hspells hpath
    refine ⟨segments, hspells, ?_⟩
    rw [hfmt, bind_ok]
    exact ⟨(), refuse_ok.mpr hshort, by rw [hpath]; rfl⟩
  have hscene : ∀ id : SceneId, id.val.toNat ≤ u64Max := by
    intro id
    have := UInt16.toNat_lt id.val
    rw [u64Max]
    omega
  cases address with
  | legacyMidiSlot slot => exact absurd rfl (h slot)
  | master parameter => exact hfmt _ _ (.master parameter) (by simp [toList_pathOf, pathParts]) rfl
  | layer layerId parameter =>
    exact hfmt _ _ (.layer layerId parameter (spellsId_toString layerId.2.2))
      (by simp [toList_pathOf, pathParts]) rfl
  | group groupId parameter =>
    exact hfmt _ _ (.group groupId parameter (spellsId_toString groupId.2.2))
      (by simp [toList_pathOf, pathParts]) rfl
  | node scope nodeId parameter =>
    cases scope with
    | master =>
      exact hfmt _ _ (.nodeMaster nodeId parameter (spellsId_toString nodeId.2.2))
        (by simp [toList_pathOf, pathParts]) rfl
    | layer layerId =>
      exact hfmt _ _
        (.nodeLayer layerId nodeId parameter
          (spellsId_toString layerId.2.2) (spellsId_toString nodeId.2.2))
        (by simp [toList_pathOf, pathParts]) rfl
    | group groupId =>
      exact hfmt _ _
        (.nodeGroup groupId nodeId parameter
          (spellsId_toString groupId.2.2) (spellsId_toString nodeId.2.2))
        (by simp [toList_pathOf, pathParts]) rfl
  | transport parameter =>
    exact hfmt _ _ (.transport parameter) (by simp [toList_pathOf, pathParts]) rfl
  | scenePrepare sceneId =>
    exact hfmt _ _ (.scenePrepare sceneId (spellsId_toString (hscene sceneId)))
      (by simp [toList_pathOf, pathParts]) rfl
  | sceneTrigger sceneId =>
    exact hfmt _ _ (.sceneTrigger sceneId (spellsId_toString (hscene sceneId)))
      (by simp [toList_pathOf, pathParts]) rfl

end CollideOScope.Osc
