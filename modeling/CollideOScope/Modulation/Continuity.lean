import CollideOScope.Modulation.RemapFollows

/-!
# Offsets across edits of the stack

The frame sums what the routings give each layer.  A moved or removed layer
renumbers the positional routings, and a routing whose text is rewritten loses
its follower.
-/

namespace CollideOScope.Modulation

open Option List Composition

structure RoutingOffsets where
  master : List F32
  layer : List (List F32)

namespace RoutingOffsets

def new (layerCount : ℕ) : RoutingOffsets :=
  { master := replicate targetKeys.length 0
    layer := replicate layerCount (replicate layerTargetSuffixes.length 0) }

def add (offsets : RoutingOffsets) (target : CompiledTarget) (amount : F32) : RoutingOffsets :=
  match target with
  | .master index => { offsets with master := offsets.master.modify index (· + amount) }
  | .layer index suffix =>
    { offsets with layer := offsets.layer.modify index (·.modify suffix (· + amount)) }
  | .invalid => offsets
  | .stable _ => offsets

def slot (offsets : RoutingOffsets) (layer suffix : ℕ) : Option F32 :=
  (offsets.layer[layer]?).bind (·[suffix]?)

def layerValue (offsets : RoutingOffsets) (layer : ℕ) (suffix : String) : F32 :=
  match layerSuffixIndex suffix with
  | none => 0
  | some suffix => (offsets.slot layer suffix).getD 0

theorem slot_new {layerCount i : ℕ} (h : i < layerCount) (suffix : ℕ) :
    (new layerCount).slot i suffix = (replicate layerTargetSuffixes.length 0)[suffix]? := by
  rw [slot, new, getElem?_replicate_of_lt h, bind_some]

theorem slot_add (offsets : RoutingOffsets) (target : CompiledTarget)
    (amount : F32) (i suffix : ℕ) :
    (offsets.add target amount).slot i suffix =
      if target = .layer i suffix then (offsets.slot i suffix).map (· + amount)
      else offsets.slot i suffix := by
  cases target with
  | layer index s =>
    simp only [add, slot, getElem?_modify, CompiledTarget.layer.injEq]
    by_cases hidx : index = i
    · by_cases hs : s = suffix <;> cases offsets.layer[i]? <;>
        simp [hidx, hs]
    · simp [hidx]
  | master _ => simp [add, slot]
  | stable _ => simp [add]
  | invalid => simp [add]

end RoutingOffsets

def Routing.contribution (routing : Routing) : F32 := routing.cachedValue * routing.depth.finiteOr 0

def accumulateOffsets (routings : List Routing) (layerCount : ℕ) : RoutingOffsets :=
  routings.foldl
    (fun offsets routing =>
      if routing.contribution.eq 0 then offsets
      else offsets.add routing.compiledTarget routing.contribution)
    (RoutingOffsets.new layerCount)

def Routing.share (i suffix : ℕ) (routing : Routing) : Option F32 :=
  if routing.contribution.eq 0 then none
  else if routing.compiledTarget = .layer i suffix then some routing.contribution
  else none

open Routing

theorem slot_accumulateOffsets (routings : List Routing) {layerCount i : ℕ}
    (h : i < layerCount) (suffix : ℕ) :
    (accumulateOffsets routings layerCount).slot i suffix =
      (replicate layerTargetSuffixes.length 0)[suffix]?.map
        ((routings.filterMap (Routing.share i suffix)).foldl (· + ·)) := by
  rw [← RoutingOffsets.slot_new h, accumulateOffsets]
  generalize RoutingOffsets.new layerCount = offsets
  induction routings generalizing offsets with
  | nil => cases hslot : offsets.slot i suffix <;> simp [hslot]
  | cons routing rest ih =>
    rw [foldl_cons, ih, filterMap_cons, share]
    by_cases hzero : routing.contribution.eq 0
    · simp [hzero]
    · simp only [hzero, Bool.false_eq_true, if_false, RoutingOffsets.slot_add]
      split_ifs
      · rw [Option.map_map]
        rfl
      · rfl

inductive StackEdit
  | move (source dest : ℕ)
  | remove (removed : ℕ)

namespace StackEdit

def Valid (layerCount : ℕ) : StackEdit → Prop
  | move source dest => source < layerCount ∧ dest < layerCount
  | remove removed => removed < layerCount

def layerCount (before : ℕ) : StackEdit → ℕ
  | move _ _ => before
  | remove _ => before - 1

def track (i : ℕ) : StackEdit → Option ℕ
  | move source dest => some (afterMove source dest i)
  | remove removed => afterRemove removed i

def remap (routings : List Routing) : StackEdit → List Routing
  | move source dest => remapLayerTargetsAfterMove routings source dest
  | remove removed => remapLayerTargetsAfterRemove routings removed

def outcome (routing : Routing) : StackEdit → Option Routing
  | move source dest => some (if source = dest then routing else routing.afterMove source dest)
  | remove removed => routing.afterRemove removed

/-- A move to where the layer stands returns at once. -/
def Idle : StackEdit → Prop
  | move source dest => source = dest
  | remove _ => False

variable {edit : StackEdit} {n i i' j : ℕ}

theorem remap_eq (routings : List Routing) (edit : StackEdit) :
    edit.remap routings = routings.filterMap edit.outcome := by
  cases edit with
  | move source dest =>
    rw [remap, remapLayerTargetsAfterMove]
    split_ifs with h <;> simp [outcome, h, ← filterMap_eq_map']
  | remove removed => rfl

theorem track_lt (hvalid : edit.Valid n) (hi : i < n)
    (h : edit.track i = some j) : j < edit.layerCount n := by
  cases edit with
  | move source dest =>
    obtain ⟨hsrc, hdest⟩ := hvalid
    cases h
    rw [layerCount, afterMove]
    split_ifs <;> omega
  | remove removed =>
    have hrem : removed < n := hvalid
    rw [track, afterRemove] at h
    rw [layerCount]
    split_ifs at h <;> obtain rfl := Option.some.inj h <;> omega

theorem track_injective (h : edit.track i = some j) (h' : edit.track i' = some j) : i = i' := by
  cases edit with
  | move source dest =>
    have heq := (Option.some.inj h).trans (Option.some.inj h').symm
    have := congrArg (afterMove dest source) heq
    rwa [afterMove_afterMove, afterMove_afterMove] at this
  | remove removed => exact afterRemove_injective h h'

theorem track_le (hvalid : edit.Valid n) (hn : n ≤ u64Max) (hi : i < u64Max)
    (h : edit.track i = some j) : j < u64Max := by
  cases edit with
  | move source dest =>
    obtain ⟨hsrc, hdest⟩ := hvalid
    cases h
    rw [afterMove]
    split_ifs <;> omega
  | remove removed =>
    rw [track, afterRemove] at h
    split_ifs at h <;> obtain rfl := Option.some.inj h <;> omega

end StackEdit

/-- `max(0.0)` of a finite number. -/
def atLeastZero (a : F32) : F32 := if a.lt 0 then 0 else a

/-- `exponential_follow`, with the exponential of `-dt / tau`. -/
def exponentialFollow (decay : F32 → F32 → F32) (current desired dt tau : F32) : F32 :=
  let dt := atLeastZero (dt.finiteOr 0)
  let tau := atLeastZero (tau.finiteOr 0)
  if tau.le ⟨0x34000000⟩ then desired
  else current + (desired - current) * (1 - decay dt tau)

/-- The response of a routing, which no edit of the stack touches. -/
structure Response where
  (attack release : F32)

def Routing.advance (routing : Routing) (decay : F32 → F32 → F32)
    (response : Response) (desired dt : F32) : Routing :=
  let tau := if routing.state.le desired then response.attack
    else response.release
  let state := exponentialFollow decay routing.state desired dt tau
  { routing with state, cached := state }

theorem targetKeys_noPosition : ∀ key ∈ targetKeys, layerParts key = none := by
  unfold targetKeys
  repeat
    refine forall_mem_cons.mpr ⟨layerParts_of_head ?_, ?_⟩
    · rw [String.toList_ofList]
      decide
  exact forall_mem_nil _

namespace Routing

variable {routing : Routing} {suffix : String} {edit : StackEdit} {n i j s : ℕ}

theorem Consistent.compiledTarget_eq (h : routing.Consistent) :
    routing.compiledTarget = .layer i s ↔
      ∃ suffix, parseLayerTarget routing.target = some (i, suffix) ∧
        layerSuffixIndex suffix = some s := by
  cases hsaved : routing.savedMissingTarget with
  | some saved =>
    obtain ⟨hinv, hparse⟩ := h.missing saved hsaved
    simp [hinv, hparse]
  | none =>
    rw [h.live hsaved, compileTarget, h.canonical, compileCanonical]
    cases hparse : parseLayerTarget routing.target with
    | none =>
      split
      · simp
      · split <;> simp
    | some named =>
      obtain ⟨k, text⟩ := named
      have hmaster : masterTargetIndex routing.target = none := by
        rw [masterTargetIndex, idxOf?_eq_none_iff]
        intro hmem
        rw [parseLayerTarget, targetKeys_noPosition _ hmem] at hparse
        cases hparse
      have hstable : StableModTarget.parse routing.target = none := by
        cases htgt : StableModTarget.parse routing.target with
        | none => rfl
        | some target =>
          rw [parseLayerTarget, layerParts_of_head (StableModTarget.head_of_parse htgt)]
            at hparse
          cases hparse
      rw [hmaster, hstable]
      cases hidx : layerSuffixIndex text with
      | none => simp [hidx]
      | some k' => simp [hidx]

theorem outcome_eq (hparse : parseLayerTarget routing.target = some (i, suffix))
    (htrack : edit.track i = some j) (hidle : ¬ edit.Idle) :
    edit.outcome routing = some (routing.setTarget (layerTarget (j + 1) suffix)) := by
  cases edit with
  | move source dest =>
    cases htrack
    have hmoves : source ≠ dest := hidle
    rw [StackEdit.outcome, if_neg hmoves, afterMove, hparse]
  | remove removed =>
    have hremapped : CollideOScope.afterRemove removed i = some j := htrack
    rw [StackEdit.outcome, afterRemove, hparse]
    simp [hremapped]

theorem outcome_of_noPosition (h : parseLayerTarget routing.target = none)
    (edit : StackEdit) : edit.outcome routing = some routing := by
  cases edit with
  | move source dest => simp [StackEdit.outcome, afterMove, h]
  | remove removed => simp [StackEdit.outcome, afterRemove, h]

theorem outcome_of_idle (h : edit.Idle) (routing : Routing) :
    edit.outcome routing = some routing ∧ edit.track i = some i := by
  cases edit with
  | move source dest =>
    obtain rfl : source = dest := h
    simp [StackEdit.outcome, StackEdit.track, afterMove_self]
  | remove removed => exact h.elim

/-- The routing is at rest, or its text is the one its layer will have. -/
def Settled (routing : Routing) (j : ℕ) (suffix : String) : Prop :=
  routing.target = layerTarget (j + 1) suffix ∨ routing.state = 0 ∧ routing.cached = 0

theorem follower_setTarget (h : routing.Consistent)
    (hparse : parseLayerTarget routing.target = some (i, suffix)) :
    ((routing.setTarget (layerTarget (j + 1) suffix)).state = routing.state ∧
      (routing.setTarget (layerTarget (j + 1) suffix)).cached =
        routing.cached) ↔ routing.Settled j suffix := by
  rw [setTarget, canonicalTarget_layerTarget (suffix_ne_key h.canonical hparse)]
  split_ifs with hsame
  · exact iff_of_true ⟨rfl, rfl⟩ (.inl hsame)
  · simp only [resetRuntime, Settled, hsame, false_or, eq_comm]

end Routing

/-- The layers that stay are given the same offsets, and their routings go on
from the value they have reached. -/
structure Undisturbed (routings : List Routing) (layerCount : ℕ) (edit : StackEdit) : Prop where
  offsets : ∀ i < layerCount, ∀ j, edit.track i = some j → ∀ suffix,
    (accumulateOffsets (edit.remap routings) (edit.layerCount layerCount)).layerValue j suffix =
      (accumulateOffsets routings layerCount).layerValue i suffix
  follower : ∀ routing ∈ routings, ∀ i suffix,
    parseLayerTarget routing.target = some (i, suffix) → i < layerCount →
      ∀ j, edit.track i = some j → ∃ next,
        edit.outcome routing = some next ∧
          next.state = routing.state ∧ next.cached = routing.cached ∧
          ∀ decay response desired dt,
            (next.advance decay response desired dt).state =
              (routing.advance decay response desired dt).state

/-- Every routing of a layer that stays is at rest or keeps its text. -/
def AllSettled (routings : List Routing) (layerCount : ℕ) (edit : StackEdit) : Prop :=
  edit.Idle ∨ ∀ routing ∈ routings, ∀ i suffix,
    parseLayerTarget routing.target = some (i, suffix) → i < layerCount →
      ∀ j, edit.track i = some j → routing.Settled j suffix

variable {routings : List Routing} {edit : StackEdit} {n i j s : ℕ}

theorem Routing.contribution_of_follower {routing next : Routing}
    (hdepth : next.depth = routing.depth) (hcached : next.cached = routing.cached) :
    next.contribution = routing.contribution := by
  rw [contribution, contribution, cachedValue, cachedValue, hdepth, hcached]

theorem Routing.share_outcome {routing : Routing} (h : routing.Consistent)
    (hvalid : edit.Valid n) (hn : n ≤ u64Max) (hi : i < n)
    (htrack : edit.track i = some j)
    (hset : ¬ edit.Idle → ∀ suffix,
      parseLayerTarget routing.target = some (i, suffix) → routing.Settled j suffix) :
    (edit.outcome routing).bind (Routing.share j s) = routing.share i s := by
  by_cases hidle : edit.Idle
  · obtain ⟨hsame, hstays⟩ := outcome_of_idle (i := i) hidle routing
    obtain rfl := Option.some.inj (hstays.symm.trans htrack)
    rw [hsame, bind_some]
  cases hparse : parseLayerTarget routing.target with
  | none =>
    have hno : ∀ k, routing.compiledTarget ≠ .layer k s := by
      intro k hk
      obtain ⟨_, hnamed, -⟩ := h.compiledTarget_eq.mp hk
      rw [hparse] at hnamed
      cases hnamed
    rw [outcome_of_noPosition hparse, bind_some]
    simp [share, hno]
  | some named =>
    obtain ⟨k, suffix⟩ := named
    have hk : k < u64Max := lt_of_parseLayerTarget hparse
    have hslot : ∀ {next : Routing} {i k : ℕ}, next.Consistent →
        parseLayerTarget next.target = some (k, suffix) →
        (next.compiledTarget = .layer i s ↔ k = i ∧ layerSuffixIndex suffix = some s) := by
      intro next i k hnext hnamed
      rw [hnext.compiledTarget_eq, hnamed]
      simp [and_assoc, eq_comm]
    cases htracked : edit.track k with
    | none =>
      have hne : k ≠ i := by
        rintro rfl
        rw [htrack] at htracked
        cases htracked
      have hdrop : edit.outcome routing = none := by
        cases edit with
        | move source dest => cases htracked
        | remove removed =>
          have hremapped : CollideOScope.afterRemove removed k = none := htracked
          rw [StackEdit.outcome, afterRemove, hparse]
          simp [hremapped]
      rw [hdrop, bind_none]
      simp [share, hslot h hparse, hne]
    | some k' =>
      have hnames := h.names_setTarget hparse (StackEdit.track_le hvalid hn hk htracked)
      rw [outcome_eq hparse htracked hidle, bind_some]
      by_cases hki : k = i
      · subst hki
        obtain rfl := Option.some.inj (htracked.symm.trans htrack)
        have hfollower := (follower_setTarget h hparse).mpr (hset hidle suffix hparse)
        simp only [share, hslot h hparse, hslot hnames.consistent hnames.position,
          contribution_of_follower hnames.depth hfollower.2]
      · have hk' : k' ≠ j := by
          rintro rfl
          exact hki (StackEdit.track_injective htracked htrack)
        simp [share, hslot h hparse, hslot hnames.consistent hnames.position, hki, hk']

theorem layerValue_remap (hauth : ∀ routing ∈ routings, routing.Authored) (hvalid : edit.Valid n)
    (hn : n ≤ u64Max) (hset : AllSettled routings n edit) (hi : i < n)
    (htrack : edit.track i = some j) (suffix : String) :
    (accumulateOffsets (edit.remap routings) (edit.layerCount n)).layerValue j
        suffix = (accumulateOffsets routings n).layerValue i suffix := by
  cases hidx : layerSuffixIndex suffix with
  | none => simp only [RoutingOffsets.layerValue, hidx]
  | some s =>
    have hj := StackEdit.track_lt hvalid hi htrack
    have hshares : (edit.remap routings).filterMap (share j s) =
        routings.filterMap (share i s) := by
      rw [StackEdit.remap_eq, filterMap_filterMap]
      refine filterMap_congr fun routing hrout => ?_
      refine share_outcome (hauth routing hrout).consistent hvalid hn hi htrack ?_
      intro hidle text hparse
      exact hset.resolve_left hidle routing hrout i text hparse hi j htrack
    simp only [RoutingOffsets.layerValue, hidx, slot_accumulateOffsets _ hj,
      slot_accumulateOffsets _ hi, hshares]

theorem modulation_undisturbed_iff (hauthored : ∀ routing ∈ routings, routing.Authored)
    (hvalid : edit.Valid n) (hn : n ≤ u64Max) :
    Undisturbed routings n edit ↔ AllSettled routings n edit := by
  constructor
  · intro h
    by_cases hidle : edit.Idle
    · exact .inl hidle
    refine .inr fun routing hrouting i suffix hparse hi j htrack => ?_
    obtain ⟨next, hnext, hstate, hcached, -⟩ :=
      h.follower routing hrouting i suffix hparse hi j htrack
    rw [outcome_eq hparse htrack hidle, Option.some.injEq] at hnext
    subst hnext
    exact (follower_setTarget (hauthored routing hrouting).consistent hparse).mp ⟨hstate, hcached⟩
  · intro h
    refine ⟨fun i hi j htrack suffix => layerValue_remap hauthored hvalid hn h hi htrack suffix, ?_⟩
    intro routing hrouting i suffix hparse hi j htrack
    by_cases hidle : edit.Idle
    · obtain ⟨hsame, -⟩ := outcome_of_idle (i := i) hidle routing
      exact ⟨routing, hsame, rfl, rfl, fun _ _ _ _ => rfl⟩
    have hfollower := (follower_setTarget
      (hauthored routing hrouting).consistent hparse).mpr
        (h.resolve_left hidle routing hrouting i suffix hparse hi j htrack)
    refine ⟨_, outcome_eq hparse htrack hidle, hfollower.1, hfollower.2, ?_⟩
    intro decay response desired dt
    simp only [advance, hfollower.1]

theorem modulation_undisturbed_iff_fresh :
    Undisturbed [.new 7 "layer1_opacity" 1, .new 8 "layer2_speed" 1] 2 (.move 0 1) := by
  have hvalid : (StackEdit.move 0 1).Valid 2 := ⟨by decide, by decide⟩
  refine (modulation_undisturbed_iff ?_ hvalid (by decide)).mpr (.inr ?_)
  · simp only [mem_cons, not_mem_nil, or_false]
    rintro routing (rfl | rfl) <;> exact .new _ _ _
  · simp only [mem_cons, not_mem_nil, or_false]
    rintro routing (rfl | rfl) <;> intro _ _ _ _ _ _ <;>
      exact .inr ⟨rfl, rfl⟩

def reachedRouting : Routing :=
  { Routing.new 7 "layer2_opacity" 1 with state := 0.5, cached := 0.5 }

/-- The first layer is removed, and the other falls back to no offset. -/
theorem removal_clears_follower :
    reachedRouting.Authored ∧ (StackEdit.remove 0).Valid 2 ∧
      ¬ Undisturbed [reachedRouting] 2 (.remove 0) ∧
      (accumulateOffsets [reachedRouting] 2).layerValue 1 "opacity" = 0.5 ∧
      (accumulateOffsets ((StackEdit.remove 0).remap [reachedRouting])
        1).layerValue 0 "opacity" = 0 := by
  have hbefore : (accumulateOffsets [reachedRouting] 2).layerValue 1 "opacity" =
      0.5 := by decide +kernel
  have hafter : (accumulateOffsets ((StackEdit.remove 0).remap
      [reachedRouting]) 1).layerValue 0 "opacity" = 0 := by decide +kernel
  refine ⟨(Authored.new _ _ _).signal _ _ _, Nat.zero_lt_two, ?_, hbefore, hafter⟩
  intro h
  have heq := h.offsets 1 (by decide) 0 rfl "opacity"
  rw [hbefore] at heq
  exact absurd (hafter.symm.trans heq) (by decide +kernel)

end CollideOScope.Modulation
