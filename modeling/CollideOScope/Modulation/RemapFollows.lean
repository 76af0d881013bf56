import CollideOScope.Modulation.RemapRuns

/-!
# What becomes of each routing

The routings after edits are what becomes of each, in order.
-/

namespace CollideOScope.Modulation

open Composition SavedStableModTarget LayerEdit Option List Routing

namespace Routing

/-- A routing that names a position with a suffix, with the identity and depth
of another. -/
structure Names (routing : Routing) (position : ℕ) (suffix : String) (next : Routing) : Prop where
  consistent : next.Consistent
  position : parseLayerTarget next.target = some (position, suffix)
  id : next.id = routing.id
  depth : next.depth = routing.depth

variable {routing : Routing} {suffix : String} {i j : ℕ}

section

variable (routing : Routing) (target : String)

theorem target_setTarget : (routing.setTarget target).target = canonicalTarget target := by
  rw [setTarget]
  split_ifs with h
  · exact h
  · rfl

theorem id_setTarget : (routing.setTarget target).id = routing.id := by
  rw [setTarget]
  split_ifs <;> rfl

theorem depth_setTarget : (routing.setTarget target).depth = routing.depth := by
  rw [setTarget]
  split_ifs <;> rfl

end

theorem Consistent.names_setTarget (h : routing.Consistent)
    (hparse : parseLayerTarget routing.target = some (i, suffix)) (hj : j < u64Max) :
    routing.Names j suffix (routing.setTarget (layerTarget (j + 1) suffix)) := by
  refine ⟨h.setTarget _, ?_, id_setTarget _ _, depth_setTarget _ _⟩
  rw [target_setTarget, canonicalTarget_layerTarget (suffix_ne_key h.canonical hparse),
    parseLayerTarget_layerTarget hj]

variable {next : Routing}

theorem Names.trans {last : Routing} {k : ℕ} (h : routing.Names j suffix next)
    (hlast : next.Names k suffix last) : routing.Names k suffix last :=
  ⟨hlast.consistent, hlast.position, hlast.id.trans h.id, hlast.depth.trans h.depth⟩

variable {edit : LayerEdit} {layers : List StableLayerId} {edits : List LayerEdit}

open LayerEdit (outcome removeLayer)

theorem Consistent.outcome_positional (hvalid : edit.Valid layers) (hlen : layers.length ≤ u64Max)
    (h : routing.Consistent) (hparse : parseLayerTarget routing.target = some (i, suffix)) :
    match edit.track i with
    | none => edit.outcome layers routing = none
    | some j => ∃ next, edit.outcome layers routing = some next ∧ routing.Names j suffix next := by
  have hstable := stableTarget_eq_none h hparse
  have hi := lt_of_parseLayerTarget hparse
  have hself : routing.Names i suffix routing := ⟨h, hparse, rfl, rfl⟩
  cases edit with
  | move source dest =>
    by_cases heq : source = dest
    · subst heq
      refine ⟨routing, by simp [outcome], ?_⟩
      have hsame : CollideOScope.afterMove source source i = i := by
        rw [CollideOScope.afterMove]
        split_ifs <;> omega
      rwa [hsame]
    · have hj := track_lt hvalid hlen hi rfl
      exact ⟨_, by simp [outcome, heq, afterMove, hparse], h.names_setTarget hparse hj⟩
  | removeLayer removed =>
    have hrem : removed < layers.length := hvalid
    have hout : (removeLayer removed).outcome layers routing =
        (CollideOScope.afterRemove removed i).map fun remapped =>
          routing.setTarget (layerTarget (remapped + 1) suffix) := by
      simp [outcome, hrem, tombstoneLayer, hstable, afterRemove, hparse]
    rw [hout, track]
    cases htrack : CollideOScope.afterRemove removed i with
    | none => rfl
    | some j =>
      have hj := track_lt hvalid hlen hi htrack
      exact ⟨_, rfl, h.names_setTarget hparse hj⟩
  | removeGroup groupId => exact ⟨routing, by simp [outcome, tombstoneGroup, hstable], hself⟩

theorem Consistent.outcomeAll_positional
    (hvalid : ValidEdits layers edits) (hlen : layers.length ≤ u64Max) (h : routing.Consistent)
    (hparse : parseLayerTarget routing.target = some (i, suffix)) :
    match trackAll edits i with
    | none => outcomeAll layers edits routing = none
    | some j => ∃ next, outcomeAll layers edits routing = some next ∧
        routing.Names j suffix next := by
  induction edits generalizing layers routing i with
  | nil => exact ⟨routing, rfl, h, hparse, rfl, rfl⟩
  | cons edit rest ih =>
    have hstep := h.outcome_positional hvalid.1 hlen hparse
    rw [trackAll_cons, outcomeAll]
    cases htrack : edit.track i with
    | none =>
      rw [htrack] at hstep
      rw [hstep]
      rfl
    | some j =>
      rw [htrack] at hstep
      obtain ⟨next, hnext, hnames⟩ := hstep
      rw [hnext, bind_some, bind_some]
      have hrun := ih hvalid.2 ((length_apply_le hvalid.1).trans hlen)
        hnames.consistent hnames.position
      cases hrest : trackAll rest j with
      | none =>
        rw [hrest] at hrun
        exact hrun
      | some k =>
        rw [hrest] at hrun
        obtain ⟨last, hlast, hlastNames⟩ := hrun
        exact ⟨last, hlast, hnames.trans hlastNames⟩

/-- The routing has no position and no target of a layer or group that the
edits remove. -/
structure Unowned (layers : List StableLayerId) (edits : List LayerEdit)
    (routing : Routing) : Prop where
  noPosition : parseLayerTarget routing.target = none
  layer : ∀ layerId nodeId parameter,
    routing.stableTarget = some (.node (.layer layerId) nodeId parameter) →
      removalPosition layers edits layerId = none
  group : ∀ groupId, .removeGroup groupId ∈ edits →
    routing.stableTarget.bind (missingGroupTarget groupId) = none

variable {rest : List LayerEdit} {layerId : StableLayerId}

theorem removalPosition_cons_eq_none (h : removalPosition layers (edit :: rest) layerId = none) :
    removalPosition (edit.apply layers) rest layerId = none ∧
      ∀ removed, edit = .removeLayer removed → layers[removed]? ≠ some layerId := by
  cases edit with
  | removeLayer removed =>
    rw [removalPosition] at h
    split_ifs at h with hrem
    refine ⟨h, ?_⟩
    rintro _ ⟨⟩
    exact hrem
  | move source dest | removeGroup groupId =>
    refine ⟨h, ?_⟩
    intro removed heq
    cases heq

theorem Unowned.tail (h : routing.Unowned layers (edit :: rest)) :
    routing.Unowned (edit.apply layers) rest := by
  refine ⟨h.noPosition, ?_, ?_⟩
  · intro layerId nodeId parameter htgt
    exact (removalPosition_cons_eq_none (h.layer _ _ _ htgt)).1
  · intro groupId hmem
    exact h.group groupId (mem_cons_of_mem _ hmem)

theorem afterRemove_of_noPosition (h : parseLayerTarget routing.target = none)
    (removed : ℕ) : routing.afterRemove removed = some routing := by
  rw [afterRemove, h]

theorem Unowned.outcome (hvalid : edit.Valid layers) (h : routing.Unowned layers (edit :: rest)) :
    edit.outcome layers routing = some routing := by
  cases edit with
  | move source dest => simp [outcome, afterMove, h.noPosition]
  | removeGroup groupId =>
    have hgrp := h.group groupId mem_cons_self
    rw [outcome, tombstoneGroup, hgrp]
  | removeLayer removed =>
    have hrem : removed < layers.length := hvalid
    have hlayer := getElem?_eq_getElem hrem
    have hkept : routing.tombstoneLayer (savedLayerPosition removed)
        layers[removed] = some (some routing) := by
      rw [tombstoneLayer]
      split
      · rename_i layerId nodeId parameter htgt
        have hother := (removalPosition_cons_eq_none (h.layer _ _ _ htgt)).2 removed rfl
        rw [if_pos]
        rintro rfl
        exact hother hlayer
      · rfl
    simp [outcome, hrem, hkept, afterRemove_of_noPosition h.noPosition]

theorem Unowned.outcomeAll (hvalid : ValidEdits layers edits) (h : routing.Unowned layers edits) :
    outcomeAll layers edits routing = some routing := by
  induction edits generalizing layers with
  | nil => rfl
  | cons edit rest ih =>
    rw [Modulation.outcomeAll, h.outcome hvalid.1, bind_some]
    exact ih hvalid.2 h.tail

structure IsTombstone (routing : Routing) (saved : SavedStableModTarget)
    (next : Routing) : Prop where
  set : routing.setMissingTarget saved = some next
  savedMissingTarget : next.savedMissingTarget = some saved
  compiledTarget : next.compiledTarget = .invalid
  id : next.id = routing.id
  depth : next.depth = routing.depth

variable {saved : SavedStableModTarget} {parameter : StableNodeParameter}

theorem exists_isTombstone (routing : Routing) (h : saved.persistenceKey.isSome)
    : ∃ next, routing.IsTombstone saved next := by
  have hset : (routing.setMissingTarget saved).isSome := by rwa [setMissingTarget, isSome_map]
  obtain ⟨next, hnext⟩ := isSome_iff_exists.mp hset
  obtain ⟨key, -, rfl⟩ := map_eq_some_iff.mp hnext
  exact ⟨_, hnext, rfl, rfl, rfl, rfl⟩

theorem IsTombstone.unowned (h : routing.IsTombstone saved next)
    (layers : List StableLayerId) (edits : List LayerEdit) :
    next.Unowned layers edits := by
  have hstable : next.stableTarget = none := by rw [stableTarget, h.compiledTarget]
  refine ⟨?_, ?_, ?_⟩
  · exact ((consistent_setMissingTarget h.set).missing _ h.savedMissingTarget).2
  · intro layerId nodeId parameter htgt
    rw [hstable] at htgt
    cases htgt
  · intro groupId _
    rw [hstable]
    rfl

theorem Consistent.exists_layerTombstone (h : routing.Consistent) {nodeId : NodeId}
    (htgt : routing.stableTarget = some (.node (.layer layerId) nodeId parameter))
    (saved : SavedLayerPosition) : ∃ next,
      routing.IsTombstone (.missingSavedLayer saved nodeId parameter) next := by
  apply exists_isTombstone
  simpa [persistenceKey, keySegments, nodeSegments] using h.exists_setMissingTarget htgt

theorem Consistent.outcomeAll_layer (hvalid : ValidEdits layers edits) (h : routing.Consistent)
    {nodeId : NodeId} (htgt : routing.stableTarget = some (.node (.layer layerId) nodeId parameter))
    {position : ℕ} (hpos : removalPosition layers edits layerId = some position) :
    match savedLayerPosition position with
    | none => outcomeAll layers edits routing = none
    | some saved => ∃ next, outcomeAll layers edits routing = some next ∧
        routing.IsTombstone (.missingSavedLayer saved nodeId parameter) next := by
  have hnone := h.parseLayerTarget_eq_none htgt
  induction edits generalizing layers with
  | nil => cases hpos
  | cons edit rest ih =>
    rw [Modulation.outcomeAll]
    cases edit with
    | move source dest =>
      have hstep : (move source dest).outcome layers routing = some routing := by
        simp [outcome, afterMove, hnone]
      rw [hstep]
      exact ih hvalid.2 hpos
    | removeGroup groupId =>
      have hstep : (removeGroup groupId).outcome layers routing = some routing := by
        simp [outcome, tombstoneGroup, htgt, missingGroupTarget]
      rw [hstep]
      exact ih hvalid.2 hpos
    | removeLayer removed =>
      have hrem : removed < layers.length := hvalid.1
      have hlayer := getElem?_eq_getElem hrem
      rw [removalPosition] at hpos
      split_ifs at hpos with hown
      · obtain rfl := some.inj hpos
        cases hsaved : savedLayerPosition removed with
        | none => simp [outcome, hown, tombstoneLayer, htgt, hsaved]
        | some saved =>
          obtain ⟨next, hnext⟩ := h.exists_layerTombstone htgt saved
          have hrest := hnext.unowned ((removeLayer removed).apply layers) rest
          refine ⟨next, ?_, hnext⟩
          have hstep : (removeLayer removed).outcome layers routing = some next := by
            simp [outcome, hown, tombstoneLayer, htgt, hsaved, hnext.set,
              afterRemove_of_noPosition hrest.noPosition]
          rw [hstep]
          exact hrest.outcomeAll hvalid.2
      · have hne : layerId ≠ layers[removed] := by
          rintro rfl
          exact hown hlayer
        have hstep : (removeLayer removed).outcome layers routing = some routing := by
          simp [outcome, hrem, tombstoneLayer, htgt, hne, afterRemove_of_noPosition hnone]
        rw [hstep]
        exact ih hvalid.2 hpos

variable {missing : SavedStableModTarget} {groupId : GroupId}

theorem missingGroupTarget_unique {target : StableModTarget} {other : GroupId}
    (h : missingGroupTarget groupId target = some missing)
    (hne : other ≠ groupId) : missingGroupTarget other target = none := by
  cases target with
  | node scope nodeId parameter =>
    cases scope with
    | master | layer layerId => rfl
    | group owner =>
      simp only [missingGroupTarget, ite_none_right_eq_some] at h
      rw [missingGroupTarget, if_neg]
      rintro rfl
      exact hne h.1
  | groupValue owner parameter =>
    simp only [missingGroupTarget, ite_none_right_eq_some] at h
    rw [missingGroupTarget, if_neg]
    rintro rfl
    exact hne h.1
  | compositionValue parameter => rfl

theorem Consistent.isSome_persistenceKey (h : routing.Consistent)
    (hmiss : routing.stableTarget.bind (missingGroupTarget groupId) =
      some missing) : missing.persistenceKey.isSome := by
  obtain ⟨target, htgt, hgrp⟩ := bind_eq_some_iff.mp hmiss
  cases target with
  | node scope nodeId parameter =>
    have hrender := h.exists_setMissingTarget htgt
    cases scope with
    | master | layer layerId => cases hgrp
    | group owner =>
      simp only [missingGroupTarget, ite_none_right_eq_some, some.injEq] at hgrp
      obtain ⟨-, rfl⟩ := hgrp
      simpa [persistenceKey, keySegments, nodeSegments] using hrender
  | groupValue owner parameter =>
    simp only [missingGroupTarget, ite_none_right_eq_some, some.injEq] at hgrp
    obtain ⟨-, rfl⟩ := hgrp
    rfl
  | compositionValue parameter => cases hgrp

theorem Consistent.outcomeAll_group
    (hvalid : ValidEdits layers edits)
    (h : routing.Consistent)
    (hmiss : routing.stableTarget.bind (missingGroupTarget groupId) =
      some missing) (hmem : .removeGroup groupId ∈ edits) :
    ∃ next, outcomeAll layers edits routing = some next ∧ routing.IsTombstone missing next := by
  obtain ⟨target, htgt, hgrp⟩ := bind_eq_some_iff.mp hmiss
  have hnone := h.parseLayerTarget_eq_none htgt
  induction edits generalizing layers with
  | nil => cases hmem
  | cons edit rest ih =>
    rw [Modulation.outcomeAll]
    by_cases hown : edit = .removeGroup groupId
    · subst hown
      obtain ⟨next, hnext⟩ := exists_isTombstone routing (h.isSome_persistenceKey hmiss)
      refine ⟨next, ?_, hnext⟩
      rw [outcome, tombstoneGroup, hmiss]
      simp only [hnext.set, bind_some]
      exact (hnext.unowned _ rest).outcomeAll hvalid.2
    · have hstep : edit.outcome layers routing = some routing := by
        cases edit with
        | move source dest => simp [outcome, afterMove, hnone]
        | removeGroup other =>
          have hother : missingGroupTarget other target = none := by
            refine missingGroupTarget_unique hgrp ?_
            rintro rfl
            exact hown rfl
          rw [outcome, tombstoneGroup, htgt, bind_some, hother]
        | removeLayer removed =>
          have hrem : removed < layers.length := hvalid.1
          have hkept : routing.tombstoneLayer (savedLayerPosition removed)
              layers[removed] = some (some routing) := by
            rw [tombstoneLayer]
            split
            · rename_i layerId nodeId parameter hlayer
              rw [htgt] at hlayer
              cases hlayer
              cases hgrp
            · rfl
          simp [outcome, hrem, hkept, afterRemove_of_noPosition hnone]
      rw [hstep, bind_some]
      refine ih hvalid.2 ?_
      rcases mem_cons.mp hmem with heq | hrest
      · exact absurd heq.symm hown
      · exact hrest

variable (h : routing.Consistent)
include h

theorem Consistent.tombstoneLayer (savedPosition : Option SavedLayerPosition)
    (layerId : StableLayerId) :
    ∃ kept, routing.tombstoneLayer savedPosition layerId = some kept ∧
      ∀ next, kept = some next → next.Consistent := by
  have hsame : ∀ next, some routing = some next → next.Consistent := by
    rintro next ⟨⟩
    exact h
  rw [Routing.tombstoneLayer]
  split
  · rename_i owner nodeId parameter htgt
    split_ifs with hown
    · exact ⟨_, rfl, hsame⟩
    · cases savedPosition with
      | none =>
        refine ⟨none, rfl, ?_⟩
        intro next hnone
        cases hnone
      | some saved =>
        obtain ⟨next, hnext⟩ := h.exists_layerTombstone htgt saved
        refine ⟨some next, by simp [hnext.set], ?_⟩
        rintro _ ⟨⟩
        exact consistent_setMissingTarget hnext.set
  · exact ⟨_, rfl, hsame⟩

theorem Consistent.tombstoneGroup (groupId : GroupId) :
    ∃ next, routing.tombstoneGroup groupId = some next ∧ next.Consistent := by
  rw [Routing.tombstoneGroup]
  cases hmiss : routing.stableTarget.bind (missingGroupTarget groupId) with
  | none => exact ⟨routing, rfl, h⟩
  | some missing =>
    obtain ⟨next, hnext⟩ := exists_isTombstone routing (h.isSome_persistenceKey hmiss)
    exact ⟨next, hnext.set, consistent_setMissingTarget hnext.set⟩

theorem Consistent.afterMove (source dest : ℕ) : (routing.afterMove source dest).Consistent := by
  rw [Routing.afterMove]
  split
  · exact h
  · exact h.setTarget _

theorem Consistent.afterRemove {removed : ℕ}
    (hnext : routing.afterRemove removed = some next) : next.Consistent := by
  rw [Routing.afterRemove] at hnext
  split at hnext
  · cases hnext
    exact h
  · obtain ⟨remapped, -, rfl⟩ := map_eq_some_iff.mp hnext
    exact h.setTarget _

theorem Consistent.outcome (hnext : edit.outcome layers routing = some next) : next.Consistent := by
  cases edit with
  | move source dest =>
    cases hnext
    split_ifs
    · exact h
    · exact h.afterMove source dest
  | removeLayer removed =>
    simp only [outcome, bind_eq_bind, bind_eq_some_iff] at hnext
    obtain ⟨layerId, -, kept, hkept, middle, hmid, hlast⟩ := hnext
    obtain ⟨held, hheld, hcons⟩ := h.tombstoneLayer (savedLayerPosition removed) layerId
    obtain rfl := some.inj (hkept.symm.trans hheld)
    exact (hcons middle hmid).afterRemove hlast
  | removeGroup groupId =>
    obtain ⟨last, hlast, hcons⟩ := h.tombstoneGroup groupId
    obtain rfl := some.inj (hnext.symm.trans hlast)
    exact hcons

theorem Consistent.outcomeAll (hnext : outcomeAll layers edits routing = some next) :
    next.Consistent := by
  induction edits generalizing layers routing with
  | nil =>
    cases hnext
    exact h
  | cons edit rest ih =>
    obtain ⟨middle, hmid, hrest⟩ := bind_eq_some_iff.mp hnext
    exact ih (h.outcome hmid) hrest

end Routing

variable {layers : List StableLayerId} {edits : List LayerEdit} {routings : List Routing}

theorem LayerEdit.remap_eq {edit : LayerEdit} (hvalid : edit.Valid layers)
    (h : ∀ routing ∈ routings, routing.Consistent) :
    edit.remap layers routings = some (routings.filterMap (edit.outcome layers)) := by
  cases edit with
  | move source dest =>
    rw [remap, remapLayerTargetsAfterMove]
    by_cases heq : source = dest
    · simp [outcome, heq]
    · rw [if_neg heq, ← filterMap_eq_map]
      congr 2
      funext routing
      simp [outcome, heq]
  | removeLayer removed =>
    have hrem : removed < layers.length := hvalid
    have hlayer := getElem?_eq_getElem hrem
    have hkept : retainMut (fun routing => routing.tombstoneLayer
        (savedLayerPosition removed) layers[removed]) routings =
          some (routings.filterMap fun routing => (routing.tombstoneLayer
            (savedLayerPosition removed) layers[removed]).join) := by
      apply retainMut_eq
      intro routing hrout
      obtain ⟨kept, hkept, -⟩ := (h routing hrout).tombstoneLayer
        (savedLayerPosition removed) layers[removed]
      rw [hkept]
      rfl
    simp only [remap, hlayer, bind_eq_bind, bind_some, remapLayerTargetsAfterRemoveWithStableId,
      hkept, map_some, remapLayerTargetsAfterRemove, filterMap_filterMap]
    congr 2
    funext routing
    simp only [outcome, hlayer, bind_eq_bind, bind_some]
    cases routing.tombstoneLayer (savedLayerPosition removed) layers[removed] <;> rfl
  | removeGroup groupId =>
    rw [remap, tombstoneGroupTargetsAfterRemove]
    apply mapM_eq_filterMap
    intro routing hrout
    obtain ⟨next, hnext, -⟩ := (h routing hrout).tombstoneGroup groupId
    rw [hnext]
    rfl

theorem remapAll_eq (hvalid : ValidEdits layers edits)
    (h : ∀ routing ∈ routings, routing.Consistent) :
    remapAll layers edits routings = some (routings.filterMap (outcomeAll layers edits)) := by
  induction edits generalizing layers routings with
  | nil =>
    have hself : outcomeAll layers [] = some := rfl
    rw [remapAll, hself, filterMap_some]
  | cons edit rest ih =>
    have hnext : ∀ routing ∈ routings.filterMap (edit.outcome layers), routing.Consistent := by
      intro next hnext
      obtain ⟨routing, hrout, hout⟩ := mem_filterMap.mp hnext
      exact (h routing hrout).outcome hout
    rw [remapAll, remap_eq hvalid.1 h, bind_eq_bind,
      bind_some, ih hvalid.2 hnext, filterMap_filterMap]
    rfl

/-- What becomes of a routing under edits of a stack. -/
structure Followed (layers : List StableLayerId) (edits : List LayerEdit)
    (routing : Routing) (out : Option Routing) : Prop where
  /-- The position of a surviving layer. -/
  survivor : ∀ i suffix layerId,
    parseLayerTarget routing.target = some (i, suffix) →
      layers[i]? = some layerId → layerId ∈ applyAll layers edits →
        ∃ j next, (applyAll layers edits)[j]? = some layerId ∧
          out = some next ∧ routing.Names j suffix next
  /-- The position of a removed layer. -/
  removed : ∀ i suffix layerId,
    parseLayerTarget routing.target = some (i, suffix) →
      layers[i]? = some layerId → layerId ∉ applyAll layers edits → out = none
  /-- A position past the end stays at its distance from the end. -/
  beyond : ∀ i suffix,
    parseLayerTarget routing.target = some (i, suffix) → layers.length ≤ i →
      ∃ next, out = some next ∧ routing.Names
        (i - (layers.length - (applyAll layers edits).length)) suffix next
  /-- A typed target of a removed layer. -/
  layer : ∀ layerId nodeId parameter,
    routing.stableTarget = some (.node (.layer layerId) nodeId parameter) →
      layerId ∈ layers → layerId ∉ applyAll layers edits →
        ∃ position, removalPosition layers edits layerId = some position ∧
          match savedLayerPosition position with
          | none => out = none
          | some saved => ∃ next, out = some next ∧ routing.IsTombstone
              (.missingSavedLayer saved nodeId parameter) next
  /-- A typed target of a removed group. -/
  group : ∀ groupId missing,
    routing.stableTarget.bind (missingGroupTarget groupId) =
        some missing → .removeGroup groupId ∈ edits →
      ∃ next, out = some next ∧ routing.IsTombstone missing next
  other : parseLayerTarget routing.target = none →
    (∀ layerId nodeId parameter,
      routing.stableTarget = some (.node (.layer layerId) nodeId parameter) →
        layerId ∈ layers → layerId ∈ applyAll layers edits) →
    (∀ groupId, .removeGroup groupId ∈ edits →
      routing.stableTarget.bind (missingGroupTarget groupId) = none) →
    out = some routing
  /-- What is live is compiled from its text. -/
  compiled : ∀ next, out = some next → next.savedMissingTarget = none →
    next.compiledTarget = compileTarget next.target

theorem followed_outcomeAll (hnd : layers.Nodup) (hlen : layers.length ≤ u64Max)
    (hvalid : ValidEdits layers edits) {routing : Routing} (h : routing.Consistent) :
    Followed layers edits routing (outcomeAll layers edits routing) where
  survivor := by
    intro i suffix layerId hparse hi hmem
    have hrun := h.outcomeAll_positional hvalid hlen hparse
    obtain ⟨j, htrack, hj⟩ := (trackAll_spec hnd hvalid hi).1 hmem
    rw [htrack] at hrun
    obtain ⟨next, hnext, hnames⟩ := hrun
    exact ⟨j, next, hj, hnext, hnames⟩
  removed := by
    intro i suffix layerId hparse hi hgone
    have hrun := h.outcomeAll_positional hvalid hlen hparse
    rwa [(trackAll_spec hnd hvalid hi).2 hgone] at hrun
  beyond := by
    intro i suffix hparse hi
    have hrun := h.outcomeAll_positional hvalid hlen hparse
    rwa [trackAll_of_length_le hvalid hi] at hrun
  layer := by
    intro layerId nodeId parameter htgt hmem hgone
    have hrem : removalPosition layers edits layerId ≠ none := by
      rw [ne_eq, removalPosition_eq_none hnd hvalid]
      exact fun hback => hgone (hback hmem)
    obtain ⟨position, hpos⟩ := ne_none_iff_exists'.mp hrem
    exact ⟨position, hpos, h.outcomeAll_layer hvalid htgt hpos⟩
  group := by
    intro groupId missing hmiss hmem
    exact h.outcomeAll_group hvalid hmiss hmem
  other := by
    intro hnone hlayer hgrp
    refine Unowned.outcomeAll hvalid ⟨hnone, ?_, hgrp⟩
    intro layerId nodeId parameter htgt
    rw [removalPosition_eq_none hnd hvalid]
    exact hlayer layerId nodeId parameter htgt
  compiled := by
    intro next hnext hlive
    exact (h.outcomeAll hnext).live hlive

/-- The routings after any edits of a stack are what becomes of each, in
order, and no call panics. -/
theorem routings_followed (hnodup : layers.Nodup) (hlength : layers.length ≤ u64Max)
    (hvalid : ValidEdits layers edits) (hauthored : ∀ routing ∈ routings, routing.Authored) :
    ∃ outcome : Routing → Option Routing,
      remapAll layers edits routings = some (routings.filterMap outcome) ∧
        ∀ routing ∈ routings, Followed layers edits routing (outcome routing) := by
  refine ⟨outcomeAll layers edits, ?_, ?_⟩
  · exact remapAll_eq hvalid fun routing hrouting => (hauthored routing hrouting).consistent
  · intro routing hrouting
    exact followed_outcomeAll hnodup hlength hvalid (hauthored routing hrouting).consistent

def pairLayers : List StableLayerId := [⟨1, one_isIdentity⟩, ⟨2, two_isIdentity⟩]

/-- The first layer is moved behind the second, which is then removed. -/
def pairEdits : List LayerEdit := [.move 0 1, .removeLayer 0]

def pairRoutings : List Routing :=
  [.new 7 "layer1_opacity" 1, .new 8 "layer2_key" 1, .new 9 "node/layer/2/3/wet" 1]

theorem pairRoutings_followed :
    ∃ outcome : Routing → Option Routing,
      remapAll pairLayers pairEdits pairRoutings = some (pairRoutings.filterMap outcome) ∧
        ∀ routing ∈ pairRoutings, Followed pairLayers pairEdits routing (outcome routing) := by
  have hremoved : 0 < (moveItem 0 1 pairLayers).length := by decide
  refine routings_followed (by decide) (by decide) ⟨⟨by decide, by decide⟩, hremoved, trivial⟩ ?_
  simp only [pairRoutings, mem_cons, not_mem_nil, or_false]
  rintro routing (rfl | rfl | rfl) <;> exact .new _ _ _

section

variable {edits' : List LayerEdit} (hnd : layers.Nodup) (hvalid : ValidEdits layers edits)
  (hvalid' : ValidEdits layers edits') (hsame : applyAll layers edits = applyAll layers edits')
include hnd hvalid

theorem nodup_applyAll : (applyAll layers edits).Nodup := by
  induction edits generalizing layers with
  | nil => exact hnd
  | cons edit rest ih => exact ih (nodup_apply hvalid.1 hnd) hvalid.2

include hvalid' hsame

theorem trackAll_congr (i : ℕ) : trackAll edits i = trackAll edits' i := by
  cases hi : layers[i]? with
  | none =>
    have hle := List.getElem?_eq_none_iff.mp hi
    rw [trackAll_of_length_le hvalid hle, trackAll_of_length_le hvalid' hle, hsame]
  | some layerId =>
    obtain ⟨hkept, hgone⟩ := trackAll_spec hnd hvalid hi
    obtain ⟨hkept', hgone'⟩ := trackAll_spec hnd hvalid' hi
    rw [← hsame] at hkept' hgone'
    by_cases hmem : layerId ∈ applyAll layers edits
    · obtain ⟨j, hj, hat⟩ := hkept hmem
      obtain ⟨j', hj', hat'⟩ := hkept' hmem
      have hlt := (List.getElem?_eq_some_iff.mp hat).1
      rw [hj, hj', (List.getElem?_inj hlt (nodup_applyAll hnd hvalid)).mp (hat.trans hat'.symm)]
    · rw [hgone hmem, hgone' hmem]

/-- The routings name one position with one suffix, identity and depth. -/
def Routing.Alike (routing other : Routing) : Prop :=
  routing.id = other.id ∧ routing.depth = other.depth ∧
    parseLayerTarget routing.target = parseLayerTarget other.target

end

theorem manyLayer_isIdentity (n : Fin 4097) : 0 < n.val + 1 ∧ n.val + 1 ≤ u64Max := by
  rw [u64Max]
  omega

/-- A stack whose last position no saved position can name. -/
def manyLayers : List StableLayerId :=
  (finRange 4097).map fun n => ⟨n.val + 1, manyLayer_isIdentity n⟩

/-- A routing past the end of the stack is renumbered, and a typed routing of a
layer removed at position 4096 leaves no tombstone. -/
theorem beyond_renumbered :
    remapAll [⟨1, one_isIdentity⟩] [.removeLayer 0]
        [.new 7 "layer3_opacity" 1] = some [.new 7 "layer2_opacity" 1] ∧
      new 7 "layer2_opacity" 1 ≠ .new 7 "layer3_opacity" 1 ∧
      parseLayerTarget "layer3_opacity" = some (2, "opacity") ∧
      manyLayers.Nodup ∧ ValidEdits manyLayers [.removeLayer 4096] ∧
      (new 7 "node/layer/4097/3/wet" 1).stableTarget =
        some (.node (.layer ⟨4097, manyLayer_isIdentity 4096⟩) ⟨3, three_isIdentity⟩ .wet) ∧
      remapAll manyLayers [.removeLayer 4096] [.new 7 "node/layer/4097/3/wet" 1] = some [] := by
  have hlength : manyLayers.length = 4097 := by rw [manyLayers, length_map, length_finRange]
  have hlt : 4096 < (finRange 4097).length := by
    rw [length_finRange]
    omega
  have hlast : manyLayers[4096]? = some ⟨4097, manyLayer_isIdentity 4096⟩ := by
    rw [manyLayers, getElem?_map, getElem?_eq_getElem hlt, getElem_finRange]
    rfl
  refine ⟨by decide +kernel, by decide +kernel, by decide +kernel, ?_,
    ⟨?_, trivial⟩, by decide +kernel, ?_⟩
  · refine (nodup_finRange 4097).map ?_
    intro n m heq
    have := congrArg Subtype.val heq
    exact Fin.ext (by simpa using this)
  · rw [Valid, hlength]
    decide
  · rw [remapAll, remap, hlast]
    decide +kernel

end CollideOScope.Modulation
