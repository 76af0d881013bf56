import CollideOScope.Composition.PairedRequests

/-!
# A live show and its capture

A graph over the numbers of the layers becomes a pair when its routes come in
pairs, as those of a live show and of its capture do.
-/

namespace CollideOScope.Composition

open Function List VisualGraph

variable {L L' T T' D D' M M' : Type}

theorem VisualRack.Sanitized.mapRoutes (f : T → T') (g : D → D')
    {rack : VisualRack T D} (h : rack.Sanitized) :
    (rack.mapRoutes f g).Sanitized := by
  intro node hnode
  obtain ⟨node, hmem, rfl⟩ := mem_map.mp hnode
  rw [VisualNode.sanitized_mapRoutes, h node hmem]

variable (names : GraphNames)

namespace GraphNames

def capturedTap (tap : ResolvedImageTap) : TapPair names :=
  ⟨(tap.toSaved names.positionOf, tap), .inl rfl⟩

def capturedDonor (donor : MotionDonor) : DonorPair names :=
  ⟨(.fromRuntime donor names.positionOf, donor), .inl rfl⟩

def capturedMatte (matte : LayerMatte ImageInput) : MattePair names :=
  ⟨(matte.captured names.positionOf, matte), .inl rfl⟩

end GraphNames

theorem VisualGraph.racks_rename (name : L → L') (f : T → T') (g : D → D')
    (matte : M → M') (graph : VisualGraph L T D M) :
    (graph.rename name f g matte).racks = graph.racks.map (VisualRack.mapRoutes f g) := by
  simp [racks, rename, Tree.rename, Group.rename, GroupBody.mapRoutes, comp_def]

variable {names}

/-- A graph over the numbers of the layers, with routes that come in pairs. -/
def PairedGraph.ofIndex (index : VisualGraph names.Index T D M) (tap : T → TapPair names)
    (donor : D → DonorPair names) (matte : M → MattePair names) (hwf : index.tree.WellFormed)
    (hnames : index.layers.map GraphLayer.name = finRange names.layers.length)
    (hcovers : ∀ i, i ∈ index.tree.flattenedLayers) (hgroups : index.tree.groupIds = names.groups)
    (hsanitized : ∀ rack ∈ index.racks, rack.Sanitized) :
    PairedGraph names where
  graph := index.rename id tap donor matte
  wellFormed := hwf.rename _ injective_id
  layer_names := by
    rw [← hnames]
    simp [rename, comp_def]
  covers := by
    intro i
    rw [rename, Tree.flattenedLayers_rename, map_id]
    exact hcovers i
  groups := by
    rw [rename, Tree.groupIds_rename, hgroups]
  sanitized := by
    intro rack hrack
    rw [racks_rename] at hrack
    obtain ⟨origin, hmem, rfl⟩ := mem_map.mp hrack
    exact (hsanitized origin hmem).mapRoutes _ _

end CollideOScope.Composition
