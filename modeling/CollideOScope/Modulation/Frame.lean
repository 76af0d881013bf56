import CollideOScope.Modulation.Routing
import CollideOScope.Modulation.Topology

/-!
# Targets on the wire

A target is written as a path and read back.  Identities and the values of
groups and of the composition come back as they were.  A parameter of a node
comes back under the first entry of its key, which has the same wire identity
unless the types of the two entries differ.
-/

namespace CollideOScope.Modulation

open Composition List Option

variable {key : String}

theorem StableModComponent.split_suffix (h : '.' ∉ key.toList) (component : StableModComponent) :
    ((rsplitOnce '.' (key ++ component.suffix).toList).elim
        (key ++ component.suffix) fun split => .ofList split.1) = key ∧
      (rsplitOnce '.' (key ++ component.suffix).toList).map
        (fun split => String.ofList split.2) = component.letter := by
  have hdotted : ∀ (text : String) (back : List Char),
      text.toList = '.' :: back → '.' ∉ back →
        rsplitOnce '.' (key ++ text).toList = some (key.toList, back) := by
    intro text back htext hback
    rw [String.toList_append, htext]
    exact rsplitOnce_append hback
  cases component with
  | scalar =>
    have hkey : key ++ scalar.suffix = key := by simp [suffix]
    rw [hkey, rsplitOnce_of_notMem h]
    exact ⟨rfl, rfl⟩
  | x => rw [hdotted _ ['x'] rfl (by decide)]; simp [letter]
  | y => rw [hdotted _ ['y'] rfl (by decide)]; simp [letter]
  | red => rw [hdotted _ ['r'] rfl (by decide)]; simp [letter]
  | green => rw [hdotted _ ['g'] rfl (by decide)]; simp [letter]
  | blue => rw [hdotted _ ['b'] rfl (by decide)]; simp [letter]

theorem NodeParamType.component_letter {valueType : NodeParamType}
    {component : StableModComponent} (h : component ∈ valueType.components) :
    valueType.component component.letter = some component := by
  cases valueType <;> simp [components] at h
  case float => subst h; rfl
  case vec2 => obtain rfl | rfl := h <;> rfl
  case color => obtain rfl | rfl | rfl := h <;> rfl

theorem StableModComponent.append_suffix_ne_wet (hplain : '.' ∉ key.toList)
    (hkey : key ≠ "wet") (component : StableModComponent) :
    key ++ component.suffix ≠ "wet" := by
  intro heq
  have hsplit := (component.split_suffix hplain).1
  rw [heq] at hsplit
  exact hkey (hsplit.symm.trans (by decide))

theorem StableModComponent.slash_notMem_suffix
    (component : StableModComponent) : '/' ∉ component.suffix.toList := by
  cases component <;> decide

theorem firstModulatable_eq_some {first : NodeParamDescriptor} {j : ℕ}
    (h : firstModulatable key = some (first, j)) :
    nodeParamDescriptors[j]? = some first ∧ first.key = key ∧ j < 2 ^ 16 := by
  have hmem := mem_of_find?_eq_some h
  have hkey := find?_some h
  rw [mk_mem_zipIdx_iff_getElem?] at hmem
  have := registry_short
  obtain ⟨hlt, -⟩ := List.getElem?_eq_some_iff.mp hmem
  refine ⟨hmem, ?_, by omega⟩
  simp only [Bool.and_eq_true, decide_eq_true_eq] at hkey
  exact hkey.1

namespace StableNodeParameter

def isCellularScale (parameter : StableNodeParameter) : Bool :=
  parameter.descriptor?.any NodeParamDescriptor.isCellularScale

theorem parse_descriptor {i : ℕ} {entry : NodeParamDescriptor} {component : StableModComponent}
    (hent : nodeParamDescriptors[i]? = some entry) (hmodulatable : entry.modulatable)
    (hcomp : component ∈ entry.valueType.components) :
    if entry.isCellularScale then parse (entry.key ++ component.suffix) = none
    else ∃ parameter, parse (entry.key ++ component.suffix) = some parameter ∧
      (descriptor i component).sameWireParameter parameter := by
  have hmem := mem_of_getElem? hent
  obtain ⟨hdot, -, hwet⟩ := registry_plain _ hmem
  obtain ⟨⟨first, j⟩, hfst, htype⟩ := map_eq_some_iff.mp (registry_first _ hmem hmodulatable)
  obtain ⟨hj, hkey, hlt⟩ := firstModulatable_eq_some hfst
  obtain ⟨hfront, hletter⟩ := component.split_suffix hdot
  have hparse : parse (entry.key ++ component.suffix) =
      (first.valueType.component component.letter).map (descriptor j) := by
    rw [parse, if_neg (component.append_suffix_ne_wet hdot hwet)]
    simp only [hfront, hletter, hfst, bind_eq_bind, bind_some,
      tryFromU16, checkedWord, if_pos hlt, Option.pure_def]
    rw [map_eq_bind]
    rfl
  rw [hparse]
  by_cases hscale : entry.isCellularScale
  · rw [if_pos hscale] at htype ⊢
    have hfloat := registry_cellularScale _ hmem hscale
    rw [hfloat] at hcomp
    obtain rfl := mem_singleton.mp hcomp
    rw [htype]
    rfl
  · rw [if_neg hscale] at htype ⊢
    refine ⟨descriptor j component, ?_, ?_⟩
    · rw [htype, NodeParamType.component_letter hcomp]
      rfl
    · simp [sameWireParameter, hent, hj, hkey]

end StableNodeParameter

theorem NodeSite.HasParameter.render {site : NodeSite}
    {parameter : StableNodeParameter} (h : site.HasParameter parameter) :
    ∃ text, parameter.render = some text ∧ '/' ∉ text.toList ∧
      if parameter.isCellularScale then StableNodeParameter.parse text = none
      else ∃ other, StableNodeParameter.parse text = some other ∧
        parameter.sameWireParameter other := by
  cases h with
  | wet => exact ⟨"wet", rfl, by decide, .wet, rfl, rfl⟩
  | @descriptor i entry component hent hkind hmodulatable hsupports
      hcomp =>
    have hscale : (StableNodeParameter.descriptor i component).isCellularScale
        = entry.isCellularScale := by
      simp [StableNodeParameter.isCellularScale, StableNodeParameter.descriptor?, hent]
    have hslash := (registry_plain _ (mem_of_getElem? hent)).2.1
    refine ⟨entry.key ++ component.suffix, ?_, ?_, ?_⟩
    · simp [StableNodeParameter.render, hent]
    · rw [String.toList_append, mem_append, not_or]
      exact ⟨hslash, component.slash_notMem_suffix⟩
    · rw [hscale]
      exact StableNodeParameter.parse_descriptor hent hmodulatable hcomp

theorem parseStableId_decimal (id : {id : ℕ // 0 < id ∧ id ≤ u64Max}) :
    parseStableId (decimal id.val) = some id := by
  rw [parseStableId, parseDigits_decimal id.2.2, bind_some, GroupId.new, dif_pos id.2]

theorem slash_notMem_decimal (n : ℕ) : '/' ∉ (decimal n).toList := notMem_decimal (by decide) n

theorem slash_notMem_scopeSegments (scope : StableModScope) :
    ∀ part ∈ StableModTarget.scopeSegments scope, '/' ∉ part.toList := by
  cases scope <;> simp [StableModTarget.scopeSegments, slash_notMem_decimal]

namespace StableModTarget

theorem parse_node (scope : StableModScope) (nodeId : NodeId) {key : String}
    (h : '/' ∉ key.toList) :
    parse (joinSegments '/' (scopeSegments scope ++ [decimal nodeId.val, key])) =
      (StableNodeParameter.parse key).map (.node scope nodeId) := by
  have hsegs : segments '/' (joinSegments '/'
      (scopeSegments scope ++ [decimal nodeId.val, key])) =
        scopeSegments scope ++ [decimal nodeId.val, key] := by
    apply segments_joinSegments
    · simp
    · intro part hpart
      rcases mem_append.mp hpart with hscope | htail
      · exact slash_notMem_scopeSegments scope part hscope
      · rcases mem_pair.mp htail with rfl | rfl
        · exact slash_notMem_decimal _
        · exact h
  rw [parse, hsegs]
  cases scope <;>
    simp [scopeSegments, ofSegments, parseStableId_decimal, map_eq_bind]

theorem parse_groupValue (groupId : GroupId) (parameter : GroupModParameter) :
    parse (joinSegments '/' ["group", decimal groupId.val, parameter.key]) =
      some (.groupValue groupId parameter) := by
  have hparts : ∀ part ∈ ["group", decimal groupId.val, parameter.key],
      '/' ∉ part.toList := by
    simp [slash_notMem_decimal, GroupModParameter.slash_notMem_key]
  rw [parse, segments_joinSegments (cons_ne_nil _ _) hparts]
  simp [ofSegments, parseStableId_decimal, GroupModParameter.parse_key]

theorem parse_compositionValue (parameter : CompositionModParameter) :
    parse (joinSegments '/' ["composition", parameter.key]) =
      some (.compositionValue parameter) := by
  have hparts : ∀ part ∈ ["composition", parameter.key],
      '/' ∉ part.toList := by
    simp [CompositionModParameter.slash_notMem_key]
  rw [parse, segments_joinSegments (cons_ne_nil _ _) hparts]
  simp [ofSegments, CompositionModParameter.parse_key]

def isCellularScale : StableModTarget → Bool
  | node _ _ parameter => parameter.isCellularScale
  | _ => false

end StableModTarget

/-!
## Stable offsets

A frame holds an offset for every target of the book.
-/

open Composition

def Routing.amount (routing : Routing) (range : F32 × F32) : F32 :=
  routing.cachedValue * routing.depth.finiteOr 0 * (range.2 - range.1) * 0.5

def StableModAddressBook.addRouting (book : StableModAddressBook)
    (offsets : List F32) (routing : Routing) : List F32 :=
  match routing.compiledTarget with
  | .stable target =>
    match book.address target with
    | none => offsets
    | some address =>
      offsets.modify address (· + routing.amount ((book.target address).getD target).range)
  | _ => offsets

def resize (offsets : List F32) (length : ℕ) (fill : F32) : List F32 :=
  offsets.take length ++ replicate (length - offsets.length) fill

/-- `stable_frame_into`: the offsets of the frame are refilled. -/
def stableFrameInto (routings : List Routing) (book : StableModAddressBook)
    (offsets : List F32) : List F32 :=
  routings.foldl book.addRouting ((resize offsets book.targets.length 0).map fun _ => 0)

def stableFrame (routings : List Routing) (book : StableModAddressBook) : List F32 :=
  stableFrameInto routings book []

theorem stableFrameInto_eq (routings : List Routing)
    (book : StableModAddressBook) (offsets : List F32) :
    stableFrameInto routings book offsets = stableFrame routings book := by
  have hlen : ∀ offsets : List F32,
      (resize offsets book.targets.length 0).length = book.targets.length := by
    intro offsets
    simp only [resize, length_append, length_take, length_replicate]
    omega
  simp [stableFrame, stableFrameInto, hlen]

theorem targetKeys_plain : ∀ key ∈ targetKeys, '/' ∉ key.toList := by
  unfold targetKeys
  repeat refine forall_mem_cons.mpr ⟨by rw [String.toList_ofList]; decide, ?_⟩
  exact forall_mem_nil _

variable {text : String} {target : StableModTarget}

theorem compileTarget_of_parse (hslash : '/' ∈ text.toList)
    (hhead : text.toList.head? ≠ some 'l') (hparse : StableModTarget.parse text = some target) :
    compileTarget text = .stable target := by
  have hcanon : canonicalTarget text = text := by rw [canonicalTarget, layerParts_of_head hhead]
  have hmaster : masterTargetIndex text = none := by
    rw [masterTargetIndex, idxOf?_eq_none_iff]
    intro hmem
    exact targetKeys_plain text hmem hslash
  rw [compileTarget, hcanon, compileCanonical, hmaster, hparse]

theorem StableModTarget.render_isPath (h : target.render = some text) :
    '/' ∈ text.toList ∧ text.toList.head? ≠ some 'l' := by
  have hpath : ∀ (first second : String) (rest : List String),
      first.toList.head? ≠ none → first.toList.head? ≠ some 'l' →
      text = joinSegments '/' (first :: second :: rest) →
        '/' ∈ text.toList ∧ text.toList.head? ≠ some 'l' := by
    rintro first second rest hsome hfst rfl
    rw [toList_joinSegments]
    constructor
    · simp
    · rw [head?_append]
      cases hhead : first.toList.head? with
      | none => exact absurd hhead hsome
      | some c => rwa [hhead] at hfst
  cases target with
  | node scope nodeId parameter =>
    obtain ⟨key, -, htext⟩ := map_eq_some_iff.mp h
    cases scope <;>
      exact hpath _ _ _ (by decide) (by decide) htext.symm
  | groupValue groupId parameter | compositionValue parameter =>
    exact hpath _ _ _ (by decide) (by decide) (Option.some.inj h).symm

/-- The target at a position of the book is written and read back with its
address, a routing compiled from the text adds to its offset alone, with its
range, and the serialized parameter of a node is accepted. -/
structure SurvivesWire (book : StableModAddressBook) (position : ℕ)
    (target : StableModTarget) : Prop where
  parsed : ∃ text, target.render = some text ∧
    (∃ other, StableModTarget.parse text = some other ∧ book.address other = book.address target) ∧
    ∀ routing offsets, routing.compiledTarget = compileTarget text →
      book.addRouting offsets routing = offsets.modify position (· + routing.amount target.range)
  deserialized : ∀ scope nodeId parameter,
    target = .node scope nodeId parameter →
      ∃ text other, parameter.render = some text ∧ StableNodeParameter.parse text = some other

section

variable {masterRack : RuntimeVisualRack} {layerRacks : List (StableLayerId × RuntimeVisualRack)}
  {composition : RuntimeComposition} {book : StableModAddressBook} {target : StableModTarget}
  {i : ℕ}

theorem exists_parse_render (h : target ∈ topologyTargets masterRack layerRacks composition) :
    ∃ text, target.render = some text ∧
      if target.isCellularScale then StableModTarget.parse text = none
      else ∃ other, StableModTarget.parse text = some other ∧ target.sameWireTarget other := by
  cases target with
  | node scope nodeId parameter =>
    obtain ⟨site, -, -, -, hparam⟩ := exists_site h
    obtain ⟨key, hkey, hslash, hread⟩ := hparam.render
    refine ⟨joinSegments '/' (StableModTarget.scopeSegments scope ++
      [decimal nodeId.val, key]), by simp [StableModTarget.render, hkey], ?_⟩
    rw [StableModTarget.parse_node scope nodeId hslash, StableModTarget.isCellularScale]
    by_cases hscale : parameter.isCellularScale
    · rw [if_pos hscale] at hread ⊢
      rw [hread]
      rfl
    · rw [if_neg hscale] at hread ⊢
      obtain ⟨other, hother, hwire⟩ := hread
      refine ⟨.node scope nodeId other, by rw [hother]; rfl, ?_⟩
      simp [StableModTarget.sameWireTarget, hwire]
  | groupValue groupId parameter =>
    refine ⟨_, rfl, _, StableModTarget.parse_groupValue groupId parameter, ?_⟩
    simp [StableModTarget.sameWireTarget]
  | compositionValue parameter =>
    refine ⟨_, rfl, _, StableModTarget.parse_compositionValue parameter, ?_⟩
    simp [StableModTarget.sameWireTarget]

theorem addRouting_of_address {routing : Routing} {other : StableModTarget}
    (htgt : book.targets[i]? = some target) (hcomp : routing.compiledTarget = .stable other)
    (haddr : book.address other = some i) (offsets : List F32) :
    book.addRouting offsets routing = offsets.modify i (· + routing.amount target.range) := by
  have hrng : (book.target i).getD other = target := by
    rw [StableModAddressBook.target, htgt, getD_some]
  simp only [StableModAddressBook.addRouting, hcomp, haddr, hrng]

/-- A target of the book survives the wire exactly when it is not the scale of
a cellular node. -/
theorem survivesWire_iff
    (hbook : StableModAddressBook.fromComposition masterRack layerRacks
      composition = .ok book) (htarget : book.targets[i]? = some target) :
    SurvivesWire book i target ↔ ¬target.isCellularScale := by
  have hmem : target ∈ topologyTargets masterRack layerRacks composition := by
    obtain ⟨-, -, rfl⟩ := StableModAddressBook.fromComposition_ok.mp hbook
    exact mem_of_getElem? htarget
  obtain ⟨text, hrender, hread⟩ := exists_parse_render hmem
  constructor
  · rintro ⟨⟨text', hrender', ⟨other, hother, -⟩, -⟩, -⟩ hscale
    obtain rfl := Option.some.inj (hrender.symm.trans hrender')
    rw [if_pos hscale, hother] at hread
    cases hread
  · intro hscale
    rw [if_neg hscale] at hread
    obtain ⟨other, hother, hwire⟩ := hread
    have haddress := StableModAddressBook.address_of_sameWire hbook htarget hwire
    have hself : target.sameWireTarget target :=
      StableModTarget.sameWireTarget_of_common hwire hwire
    obtain ⟨hslash, hhead⟩ := target.render_isPath hrender
    refine ⟨⟨text, hrender, ⟨other, hother, ?_⟩, ?_⟩, ?_⟩
    · rw [haddress, StableModAddressBook.address_of_sameWire hbook htarget hself]
    · intro routing offsets hcompiled
      rw [compileTarget_of_parse hslash hhead hother] at hcompiled
      exact addRouting_of_address htarget hcompiled haddress offsets
    · rintro scope nodeId parameter rfl
      obtain ⟨site, -, -, -, hparameter⟩ := exists_site hmem
      obtain ⟨key, hkey, -, hread⟩ := hparameter.render
      rw [StableModTarget.isCellularScale] at hscale
      rw [if_neg hscale] at hread
      obtain ⟨parsed, hparsed, -⟩ := hread
      exact ⟨key, parsed, hkey, hparsed⟩

end

def cellularRack : RuntimeVisualRack :=
  ⟨[⟨⟨3, three_isIdentity⟩, true, 1, .normal, .cellular ⟨0, 10, 0.35, 0.25, 0, 0.65, 0.08, 0⟩⟩], 4⟩

def plainComposition : RuntimeComposition := ⟨⟨[], []⟩, 1, 0.5, BusMixerState.default⟩

/-- The values of the node of `cellularRack`. -/
def cellularValue (index : ℕ) : StableModTarget :=
  .node .master ⟨3, three_isIdentity⟩ (.descriptor index .scalar)

theorem fromComposition_cellularRack :
    StableModAddressBook.fromComposition cellularRack [] plainComposition =
      .ok (.ofTargets (topologyTargets cellularRack [] plainComposition)) :=
  StableModAddressBook.fromComposition_ok.mpr ⟨by decide +kernel, by decide +kernel, rfl⟩

theorem survivesWire_cellularAmount :
    SurvivesWire (.ofTargets (topologyTargets cellularRack [] plainComposition))
      1 (cellularValue 30) :=
  (survivesWire_iff fromComposition_cellularRack (by decide +kernel)).mpr (by decide +kernel)

/-- The scale of a cellular node is in the book and is not read back. -/
theorem cellularScale_lost :
    StableModAddressBook.fromComposition cellularRack [] plainComposition =
        .ok (.ofTargets (topologyTargets cellularRack [] plainComposition)) ∧
      (topologyTargets cellularRack [] plainComposition)[2]? = some (cellularValue 31) ∧
      (cellularValue 31).render = some "node/master/3/scale" ∧
      StableModTarget.parse "node/master/3/scale" = none ∧
      ¬SurvivesWire (.ofTargets (topologyTargets cellularRack [] plainComposition)) 2
        (cellularValue 31) := by
  have hrender : (cellularValue 31).render = some "node/master/3/scale" := by decide +kernel
  have hparse : StableModTarget.parse "node/master/3/scale" = none := by decide +kernel
  refine ⟨fromComposition_cellularRack, by decide +kernel, hrender, hparse, ?_⟩
  rintro ⟨⟨text, htext, ⟨other, hother, -⟩, -⟩, -⟩
  obtain rfl := Option.some.inj (hrender.symm.trans htext)
  rw [hparse] at hother
  cases hother

end CollideOScope.Modulation
