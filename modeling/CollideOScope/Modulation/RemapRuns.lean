import CollideOScope.Modulation.Remap

/-!
# Consistent routings

An authored routing is live, with its text compiled, or a tombstone.  A live
routing is positional or typed and never both, and the target of a typed one
can be written.
-/

namespace CollideOScope.Modulation

open List Composition Option

variable {text : String}

theorem StableModTarget.head_of_parse {target : StableModTarget}
    (h : parse text = some target) : text.toList.head? ≠ some 'l' := by
  have hfst : ∀ (first : String) (rest : List String),
      segments '/' text = first :: rest → first.toList ≠ [] →
        first.toList.head? ≠ some 'l' → text.toList.head? ≠ some 'l' := by
    intro first rest hsegs hne hhead
    rwa [head?_toList_of_segments hsegs hne]
  rw [parse] at h
  generalize hsegs : segments '/' text = parts at h
  unfold ofSegments at h
  split at h
  · exact hfst _ _ hsegs (by decide) (by decide)
  · exact hfst _ _ hsegs (by decide) (by decide)
  · exact hfst _ _ hsegs (by decide) (by decide)
  · exact hfst _ _ hsegs (by decide) (by decide)
  · exact hfst _ _ hsegs (by decide) (by decide)
  · cases h

variable {parameter : StableNodeParameter}

theorem StableNodeParameter.isSome_render_of_parse
    (h : parse text = some parameter) : parameter.render.isSome := by
  rw [parse] at h
  split_ifs at h
  · cases h
    rfl
  · simp only [Option.bind_eq_bind, Option.bind_eq_some_iff, Option.pure_def,
      Option.some.injEq] at h
    obtain ⟨⟨first, j⟩, hfst, component, -, index, hidx, rfl⟩ := h
    obtain ⟨hj, -, -⟩ := firstModulatable_eq_some hfst
    obtain ⟨-, rfl⟩ := checkedWord_eq_some.mp hidx
    simp [render, hj]

open StableNodeParameter

theorem StableModTarget.isSome_render_of_parse {scope : StableModScope}
    {nodeId : NodeId} (h : parse text = some (.node scope nodeId parameter)) :
    parameter.render.isSome := by
  rw [parse] at h
  unfold ofSegments at h
  split at h <;>
    simp only [Option.bind_eq_bind, Option.bind_eq_some_iff, Option.pure_def,
      Option.some.injEq, node.injEq, reduceCtorEq, and_false, exists_false] at h
  · obtain ⟨_, -, _, hparam, -, -, rfl⟩ := h
    exact isSome_render_of_parse hparam
  · obtain ⟨_, -, _, -, _, hparam, -, -, rfl⟩ := h
    exact isSome_render_of_parse hparam
  · obtain ⟨_, -, _, -, _, hparam, -, -, rfl⟩ := h
    exact isSome_render_of_parse hparam

theorem SavedStableModTarget.head_of_persistenceKey {target : SavedStableModTarget} {key : String}
    (h : target.persistenceKey = some key) : key.toList.head? ≠ some 'l' := by
  have hsegs : ∃ first second rest,
      target.keySegments = some (first :: second :: rest) ∧
        first ∈ ["node", "group", "composition", "missing"] := by
    obtain ⟨parts, hparts, -⟩ := map_eq_some_iff.mp h
    rw [hparts]
    cases target with
    | node scope nodeId parameter | missingNode scope nodeId parameter =>
      obtain ⟨text, -, rfl⟩ := map_eq_some_iff.mp hparts
      cases scope <;> exact ⟨_, _, _, rfl, by decide⟩
    | groupValue groupId parameter | compositionValue parameter =>
      cases hparts
      exact ⟨_, _, _, rfl, by decide⟩
    | missingSavedLayer savedPosition nodeId parameter =>
      obtain ⟨text, -, rfl⟩ := map_eq_some_iff.mp hparts
      exact ⟨_, _, _, rfl, by decide⟩
    | missingGroup groupId missingTarget =>
      cases missingTarget with
      | node nodeId parameter =>
        obtain ⟨text, -, rfl⟩ := map_eq_some_iff.mp hparts
        exact ⟨_, _, _, rfl, by decide⟩
      | groupValue parameter =>
        cases hparts
        exact ⟨_, _, _, rfl, by decide⟩
  obtain ⟨first, second, rest, hkey, hfst⟩ := hsegs
  rw [persistenceKey, hkey] at h
  cases h
  rw [toList_joinSegments, head?_append]
  simp only [mem_cons, not_mem_nil, or_false] at hfst
  obtain rfl | rfl | rfl | rfl := hfst <;> simp

namespace Routing

/-- The text is canonical.  A live routing is compiled from its text, and a
tombstone has none. -/
structure Consistent (routing : Routing) : Prop where
  canonical : canonicalTarget routing.target = routing.target
  live : routing.savedMissingTarget = none → routing.compiledTarget = compileTarget routing.target
  missing : ∀ saved, routing.savedMissingTarget = some saved →
    routing.compiledTarget = .invalid ∧ parseLayerTarget routing.target = none

variable {routing : Routing}

theorem Consistent.setTarget (h : routing.Consistent) (target : String) :
    (routing.setTarget target).Consistent := by
  rw [Routing.setTarget]
  split_ifs
  · exact h
  · refine ⟨canonicalTarget_canonicalTarget target, ?_, ?_⟩
    · intro _
      simp only [resetRuntime]
    · intro saved hsaved
      cases hsaved

theorem consistent_setMissingTarget {next : Routing} {target : SavedStableModTarget}
    (h : routing.setMissingTarget target = some next) : next.Consistent := by
  obtain ⟨key, hkey, rfl⟩ := map_eq_some_iff.mp h
  have hparts := layerParts_of_head (SavedStableModTarget.head_of_persistenceKey hkey)
  refine ⟨?_, ?_, ?_⟩
  · simp [canonicalTarget, resetRuntime, hparts]
  · intro hnone
    cases hnone
  · intro _ _
    refine ⟨rfl, ?_⟩
    simp [parseLayerTarget, resetRuntime, hparts]

theorem Authored.consistent (h : routing.Authored) : routing.Consistent := by
  induction h with
  | new id target depth =>
    refine ⟨canonicalTarget_canonicalTarget target, ?_, ?_⟩
    · intro _
      simp only [Routing.new]
    · intro saved hsaved
      cases hsaved
  | newMissing h =>
    obtain ⟨key, hkey, rfl⟩ := map_eq_some_iff.mp h
    have hparts := layerParts_of_head (SavedStableModTarget.head_of_persistenceKey hkey)
    refine ⟨canonicalTarget_canonicalTarget key, ?_, ?_⟩
    · intro hnone
      cases hnone
    · intro _ _
      refine ⟨rfl, ?_⟩
      simp [Routing.new, canonicalTarget, parseLayerTarget, hparts]
  | setTarget _ target ih => exact ih.setTarget target
  | setMissingTarget _ hset => exact consistent_setMissingTarget hset
  | signal _ depth state cached ih =>
    exact { canonical := ih.canonical, live := ih.live, missing := ih.missing }

variable {target : StableModTarget}

theorem Consistent.parse_of_stableTarget (h : routing.Consistent)
    (htgt : routing.stableTarget = some target) :
    StableModTarget.parse routing.target = some target := by
  have hcomp : routing.compiledTarget = .stable target := by
    rw [stableTarget] at htgt
    split at htgt
    · rename_i hstable
      rw [hstable, some.inj htgt]
    · cases htgt
  cases hsaved : routing.savedMissingTarget with
  | some saved =>
    rw [(h.missing saved hsaved).1] at hcomp
    cases hcomp
  | none =>
    rw [h.live hsaved, compileTarget, h.canonical, compileCanonical] at hcomp
    split at hcomp
    · cases hcomp
    · split at hcomp
      · rename_i hparse
        rw [hparse, CompiledTarget.stable.inj hcomp]
      · split at hcomp
        · cases hcomp
        · rename_i layer suffix _
          cases hidx : layerSuffixIndex suffix <;>
            simp [hidx] at hcomp

theorem Consistent.parseLayerTarget_eq_none (h : routing.Consistent)
    (htgt : routing.stableTarget = some target) :
    parseLayerTarget routing.target = none := by
  have hhead := StableModTarget.head_of_parse (h.parse_of_stableTarget htgt)
  rw [parseLayerTarget, layerParts_of_head hhead]
  rfl

theorem stableTarget_eq_none (h : routing.Consistent) {suffix : String} {i : ℕ}
    (hparse : parseLayerTarget routing.target = some (i, suffix)) :
    routing.stableTarget = none := by
  cases htgt : routing.stableTarget with
  | none => rfl
  | some target =>
    rw [h.parseLayerTarget_eq_none htgt] at hparse
    cases hparse

theorem Consistent.exists_setMissingTarget (h : routing.Consistent)
    {scope : StableModScope} {nodeId : NodeId} {parameter : StableNodeParameter}
    (htgt : routing.stableTarget = some (.node scope nodeId parameter)) :
    parameter.render.isSome :=
  StableModTarget.isSome_render_of_parse (h.parse_of_stableTarget htgt)

end Routing

/-!
## Routings follow their layers

Each routing is followed through the edits of a stack on its own.
-/

open Composition

namespace LayerEdit

def track (i : ℕ) : LayerEdit → Option ℕ
  | move source dest => some (afterMove source dest i)
  | removeLayer removed => afterRemove removed i
  | removeGroup _ => some i

def outcome (layers : List StableLayerId) (routing : Routing) : LayerEdit → Option Routing
  | move source dest => some (if source = dest then routing else routing.afterMove source dest)
  | removeLayer removed => do
    let removedLayerId ← layers[removed]?
    let kept ← routing.tombstoneLayer (savedLayerPosition removed) removedLayerId
    let kept ← kept
    kept.afterRemove removed
  | removeGroup groupId => routing.tombstoneGroup groupId

end LayerEdit

def outcomeAll : List StableLayerId → List LayerEdit → Routing → Option Routing
  | _, [], routing => some routing
  | layers, edit :: rest, routing =>
    (edit.outcome layers routing).bind (outcomeAll (edit.apply layers) rest)

def trackAll (edits : List LayerEdit) (i : ℕ) : Option ℕ := edits.foldlM LayerEdit.track i

def removalPosition : List StableLayerId → List LayerEdit → StableLayerId → Option ℕ
  | _, [], _ => none
  | layers, .removeLayer removed :: rest, layerId =>
    if layers[removed]? = some layerId then some removed
    else removalPosition (layers.eraseIdx removed) rest layerId
  | layers, edit :: rest, layerId => removalPosition (edit.apply layers) rest layerId

namespace LayerEdit

variable {layers : List StableLayerId} {edit : LayerEdit} {layerId : StableLayerId}

theorem nodup_apply (hvalid : edit.Valid layers) (h : layers.Nodup) :
    (edit.apply layers).Nodup := by
  cases edit with
  | move source dest => exact (perm_moveItem hvalid.1 hvalid.2).nodup_iff.mpr h
  | removeLayer removed => exact h.sublist (eraseIdx_sublist _ _)
  | removeGroup groupId => exact h

theorem length_apply_le (hvalid : edit.Valid layers) :
    (edit.apply layers).length ≤ layers.length := by
  cases edit with
  | move source dest => exact (length_moveItem hvalid.1 hvalid.2).le
  | removeLayer removed => exact (eraseIdx_sublist _ _).length_le
  | removeGroup groupId => exact le_rfl

theorem mem_of_mem_apply (hvalid : edit.Valid layers)
    (h : layerId ∈ edit.apply layers) : layerId ∈ layers := by
  cases edit with
  | move source dest => exact (perm_moveItem hvalid.1 hvalid.2).mem_iff.mp h
  | removeLayer removed => exact (eraseIdx_sublist _ _).subset h
  | removeGroup groupId => exact h

variable {i : ℕ} {j : ℕ}

theorem getElem?_apply (hvalid : edit.Valid layers) (h : edit.track i = some j)
    : (edit.apply layers)[j]? = layers[i]? := by
  cases edit with
  | move source dest =>
    cases h
    exact getElem?_moveItem hvalid.1 hvalid.2 i
  | removeLayer removed => exact getElem?_eraseIdx_afterRemove h
  | removeGroup groupId =>
    cases h
    rfl

theorem notMem_apply (h : layers.Nodup) (htrack : edit.track i = none)
    (hi : layers[i]? = some layerId) :
    layerId ∉ edit.apply layers := by
  cases edit with
  | move source dest | removeGroup groupId => cases htrack
  | removeLayer removed =>
    obtain rfl := afterRemove_eq_none.mp htrack
    obtain ⟨hlt, rfl⟩ := List.getElem?_eq_some_iff.mp hi
    rw [apply, ← h.erase_getElem i hlt]
    exact h.not_mem_erase

theorem track_of_length_le (hvalid : edit.Valid layers) (h : layers.length ≤ i) :
    edit.track i = some (i - (layers.length - (edit.apply layers).length)) ∧
      (edit.apply layers).length ≤ i - (layers.length - (edit.apply layers).length) := by
  cases edit with
  | move source dest =>
    obtain ⟨hsrc, hdest⟩ := hvalid
    have hlen : ((move source dest).apply layers).length = layers.length :=
      length_moveItem hsrc hdest
    rw [hlen, Nat.sub_self, Nat.sub_zero, track, afterMove, if_neg (by omega),
      if_neg (by omega), if_neg (by omega)]
    exact ⟨rfl, h⟩
  | removeLayer removed =>
    have hrem : removed < layers.length := hvalid
    have hlen : ((removeLayer removed).apply layers).length =
        layers.length - 1 := length_eraseIdx_of_lt hrem
    rw [hlen, track, afterRemove, if_neg (by omega), if_pos (by omega)]
    refine ⟨?_, by omega⟩
    congr 1
    omega
  | removeGroup groupId =>
    rw [track, apply, Nat.sub_self, Nat.sub_zero]
    exact ⟨rfl, h⟩

theorem track_lt (hvalid : edit.Valid layers) (hlen : layers.length ≤ u64Max)
    (hi : i < u64Max) (h : edit.track i = some j) : j < u64Max := by
  cases edit with
  | move source dest =>
    obtain ⟨hsrc, hdest⟩ := hvalid
    cases h
    rw [afterMove]
    split_ifs <;> omega
  | removeLayer removed =>
    rw [track, afterRemove] at h
    split_ifs at h <;> obtain rfl := Option.some.inj h <;> omega
  | removeGroup groupId =>
    cases h
    exact hi

end LayerEdit

section

variable {layers : List StableLayerId} {edits : List LayerEdit}

theorem trackAll_cons (edit : LayerEdit) (rest : List LayerEdit) (i : ℕ) :
    trackAll (edit :: rest) i = (edit.track i).bind (trackAll rest) := by
  rw [trackAll, foldlM_cons]
  rfl

theorem applyAll_cons (edit : LayerEdit) (rest : List LayerEdit) :
    applyAll layers (edit :: rest) = applyAll (edit.apply layers) rest := rfl

variable {layerId : StableLayerId}

open LayerEdit

theorem mem_of_mem_applyAll (hvalid : ValidEdits layers edits)
    (h : layerId ∈ applyAll layers edits) : layerId ∈ layers := by
  induction edits generalizing layers with
  | nil => exact h
  | cons edit rest ih => exact mem_of_mem_apply hvalid.1 (ih hvalid.2 h)

theorem length_applyAll_le (hvalid : ValidEdits layers edits) :
    (applyAll layers edits).length ≤ layers.length := by
  induction edits generalizing layers with
  | nil => exact le_rfl
  | cons edit rest ih => exact (ih hvalid.2).trans (length_apply_le hvalid.1)

theorem trackAll_spec (hnd : layers.Nodup) (hvalid : ValidEdits layers edits)
    {i : ℕ} (hi : layers[i]? = some layerId) :
    (layerId ∈ applyAll layers edits → ∃ j, trackAll edits i = some j ∧
        (applyAll layers edits)[j]? = some layerId) ∧
      (layerId ∉ applyAll layers edits → trackAll edits i = none) := by
  induction edits generalizing layers i with
  | nil =>
    refine ⟨fun _ => ⟨i, rfl, hi⟩, ?_⟩
    intro hgone
    exact absurd (mem_of_getElem? hi) hgone
  | cons edit rest ih =>
    rw [trackAll_cons, applyAll_cons]
    cases htrack : edit.track i with
    | none =>
      refine ⟨?_, fun _ => rfl⟩
      intro hmem
      exact absurd (mem_of_mem_applyAll hvalid.2 hmem) (notMem_apply hnd htrack hi)
    | some j =>
      rw [bind_some]
      refine ih (nodup_apply hvalid.1 hnd) hvalid.2 ?_
      rw [getElem?_apply hvalid.1 htrack, hi]

theorem trackAll_of_length_le (hvalid : ValidEdits layers edits) {i : ℕ} (h : layers.length ≤ i) :
    trackAll edits i = some (i - (layers.length - (applyAll layers edits).length)) := by
  induction edits generalizing layers i with
  | nil => simp [trackAll, applyAll]
  | cons edit rest ih =>
    obtain ⟨htrack, hnext⟩ := track_of_length_le hvalid.1 h
    rw [trackAll_cons, htrack, bind_some, ih hvalid.2 hnext, applyAll_cons]
    have hfst := length_apply_le hvalid.1
    have hrest := length_applyAll_le hvalid.2
    congr 1
    omega

theorem removalPosition_eq_none (hnd : layers.Nodup) (hvalid : ValidEdits layers edits) :
    removalPosition layers edits layerId = none ↔
      (layerId ∈ layers → layerId ∈ applyAll layers edits) := by
  induction edits generalizing layers with
  | nil => simp [removalPosition, applyAll]
  | cons edit rest ih =>
    have hrest := ih (nodup_apply hvalid.1 hnd) hvalid.2
    cases edit with
    | move source dest =>
      rw [removalPosition, hrest, applyAll_cons]
      · have hmem := (perm_moveItem hvalid.1.1 hvalid.1.2).mem_iff (a := layerId)
        rw [apply, hmem]
      · simp
    | removeGroup groupId =>
      rw [removalPosition, hrest, applyAll_cons]
      · rfl
      · simp
    | removeLayer removed =>
      rw [removalPosition, applyAll_cons]
      have hrem : removed < layers.length := hvalid.1
      have herase := hnd.erase_getElem removed hrem
      have hlayer : layers[removed]? = some layers[removed] := List.getElem?_eq_getElem hrem
      by_cases heq : layers[removed]? = some layerId
      · rw [if_pos heq]
        obtain rfl := Option.some.inj (hlayer.symm.trans heq)
        have hgone : layers[removed] ∉ layers.eraseIdx removed := by
          rw [← herase]
          exact hnd.not_mem_erase
        constructor
        · intro hnone
          cases hnone
        · intro hback
          exact absurd (mem_of_mem_applyAll hvalid.2 (hback (getElem_mem hrem))) hgone
      · rw [if_neg heq]
        refine hrest.trans ?_
        have hne : layerId ≠ layers[removed] := by
          rintro rfl
          exact heq hlayer
        rw [apply, ← herase, mem_erase_of_ne hne]

end

end CollideOScope.Modulation
