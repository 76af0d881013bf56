import CollideOScope.Composition.Reload

/-!
# Capturing and resolving the routes of racks

A live rack is captured by turning its routes into saved ones, and a saved rack
is resolved against the layers and the groups that live.  Both bound the values
of every node; only the capture checks the rack again.
-/

namespace CollideOScope.Composition

open Function List SavedMotionDonor VisualNode VisualRack

abbrev LiveGroup := Group StableLayerId (GroupBody ResolvedImageTap MotionDonor)

def NodeKind.capture (positionOfLayer : StableLayerId → Option SavedLayerPosition)
    (kind : NodeKind ResolvedImageTap MotionDonor) :
    NodeKind SavedImageTap SavedMotionDonor :=
  kind.sanitized.mapRoutes (·.toSaved positionOfLayer) (fromRuntime · positionOfLayer)

def NodeKind.resolve (layerAtPosition : SavedLayerPosition → Option StableLayerId)
    (groupExists : GroupId → Bool) (kind : NodeKind SavedImageTap SavedMotionDonor) :
    NodeKind ResolvedImageTap MotionDonor :=
  kind.sanitized.mapRoutes (·.toRuntime layerAtPosition groupExists) (·.toRuntime layerAtPosition)

section

variable (positionOfLayer : StableLayerId → Option SavedLayerPosition)

def VisualNode.capture (node : RuntimeVisualNode) : VisualNode SavedImageTap SavedMotionDonor where
  stableId := node.stableId
  enabled := node.enabled
  wet := node.wet
  blend := node.blend
  kind := node.kind.capture positionOfLayer

def VisualRack.captureRoutes (rack : RuntimeVisualRack) :
    Except RackError (VisualRack SavedImageTap SavedMotionDonor) :=
  tryFromParts (rack.nodes.map (capture positionOfLayer)) (some rack.nextNodeId)

end

section

variable (layerAtPosition : SavedLayerPosition → Option StableLayerId)
  (groupExists : GroupId → Bool)

def VisualNode.resolve (node : VisualNode SavedImageTap SavedMotionDonor) : RuntimeVisualNode where
  stableId := node.stableId
  enabled := node.enabled
  wet := node.wet
  blend := node.blend
  kind := node.kind.resolve layerAtPosition groupExists

def VisualRack.resolveRoutes
    (rack : VisualRack SavedImageTap SavedMotionDonor) : RuntimeVisualRack where
  nodes := rack.nodes.map (.resolve layerAtPosition groupExists)
  nextNodeId := rack.nextNodeId

end

section

variable {positionOfLayer : StableLayerId → Option SavedLayerPosition}

open VisualNode

theorem VisualNode.capture_of_sanitized {node : RuntimeVisualNode} (h : node.sanitized = node) :
    node.capture positionOfLayer =
      node.mapRoutes (·.toSaved positionOfLayer) (fromRuntime · positionOfLayer) := by
  have hkind : node.kind.sanitized = node.kind := congrArg kind h
  simp only [capture, mapRoutes, NodeKind.capture, hkind]

theorem validateLegacyMarker_mapRoutes {T T' D D' : Type} (f : T → T')
    (g : D → D') (node : VisualNode T D) :
    validateLegacyMarker (node.mapRoutes f g) = validateLegacyMarker node := by
  simp only [validateLegacyMarker, isExactLegacyMarker, mapRoutes, NodeKind.tag_mapRoutes]
  rfl

variable {rack : RuntimeVisualRack}

theorem RackInvariant.map_capture (h : RackInvariant rack) :
    rack.nodes.map (capture positionOfLayer) =
      rack.nodes.map (mapRoutes (·.toSaved positionOfLayer) (fromRuntime · positionOfLayer)) :=
  map_congr_left fun node hnode => capture_of_sanitized (h.sanitized node hnode)

def VisualRack.captured (positionOfLayer : StableLayerId →
    Option SavedLayerPosition) (rack : RuntimeVisualRack) :
    VisualRack SavedImageTap SavedMotionDonor where
  nodes := rack.nodes.map (mapRoutes (·.toSaved positionOfLayer) (fromRuntime · positionOfLayer))
  nextNodeId := rack.nextNodeId

theorem RackInvariant.captured (h : RackInvariant rack) :
    RackInvariant (rack.captured positionOfLayer) := by
  refine ⟨?_, ?_, ?_, ?_, ?_, ?_⟩
  · simpa [VisualRack.captured] using h.length_le
  · simpa [VisualRack.captured, mapRoutes, comp_def] using h.ids_nodup
  · intro node hnode
    obtain ⟨live, hlive, rfl⟩ := mem_map.mp hnode
    rw [validateLegacyMarker_mapRoutes]
    exact h.markers live hlive
  · intro node hnode
    obtain ⟨live, hlive, rfl⟩ := mem_map.mp hnode
    rw [sanitized_mapRoutes, h.sanitized live hlive]
  · simpa [VisualRack.captured, VisualRack.greatestNodeId, foldl_map, mapRoutes] using h.cursor
  · have hbudget := exists_budget_iff.mp h.budget
    refine exists_budget_iff.mpr ?_
    simpa [VisualRack.captured, mapRoutes, comp_def, NodeKind.tag_mapRoutes] using hbudget

theorem RackInvariant.captureRoutes_ok (h : RackInvariant rack)
    {saved : VisualRack SavedImageTap SavedMotionDonor} :
    rack.captureRoutes positionOfLayer = .ok saved ↔
      (rack.nextNodeId ≠ 0 ∨ greatestNodeId rack.nodes = u64Max) ∧
      saved = rack.captured positionOfLayer := by
  have hcap : rack.captureRoutes positionOfLayer =
      tryFromParts (rack.captured positionOfLayer).nodes
        (some (rack.captured positionOfLayer).nextNodeId) :=
    congrArg (tryFromParts · (some rack.nextNodeId)) h.map_capture
  have hgreat : greatestNodeId
      (rack.captured positionOfLayer).nodes = VisualRack.greatestNodeId rack.nodes := by
    simp only [VisualRack.captured, VisualRack.greatestNodeId, foldl_map, mapRoutes]
  have hinv : RackInvariant (rack.captured positionOfLayer) := h.captured
  have hreload := hinv.reloads_iff
  rw [hgreat] at hreload
  rw [hcap]
  constructor
  · intro hok
    have hsame : saved = rack.captured positionOfLayer := by
      obtain ⟨-, -, -, -, -, rfl⟩ := tryFromParts_ok.mp hok
      exact congrArg (VisualRack.mk · rack.nextNodeId)
        ((map_congr_left hinv.sanitized).trans (map_id _))
    exact ⟨hreload.mp (hsame ▸ hok), hsame⟩
  · rintro ⟨hcur, rfl⟩
    exact hreload.mpr hcur

end

end CollideOScope.Composition
