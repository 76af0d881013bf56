import CollideOScope.Composition.Routes
import CollideOScope.Support.Checks
import Mathlib.Data.Finset.Sort

/-!
# Composition trees

A composition is a list of groups and a root, back to front.  A root item is a
layer or a group, and a group lists its member layers.  The tree is generic in
the names of its layers and in what a group carries besides its members: a
saved tree names layers by position, a live one by identity.
-/

namespace CollideOScope.Composition

open Checks List

inductive BusAssignment
  | a | b | program
  deriving DecidableEq

variable {L Body E : Type}

/-- A group; `body` is what it carries besides its members. -/
structure Group (L Body : Type) where
  id : GroupId
  members : List L
  body : Body

inductive RootItem (L : Type)
  | layer (layerId : L) (bus : BusAssignment)
  | group (groupId : GroupId)

inductive RootItemKey (L : Type)
  | layer (layerId : L)
  | group (groupId : GroupId)
  deriving DecidableEq

def RootItem.key : RootItem L → RootItemKey L
  | layer layerId _ => .layer layerId
  | group groupId => .group groupId

def RootItem.groupId : RootItem L → Option GroupId
  | layer _ _ => none
  | group groupId => some groupId

structure Tree (L Body : Type) where
  groups : List (Group L Body)
  root : List (RootItem L)

/-- What the validator reports; `E` is the error of a rack. -/
inductive StructureError (L E : Type)
  | duplicateGroupId (groupId : GroupId)
  | duplicateRootItem (key : RootItemKey L)
  | duplicateLayer (layerId : L)
  | unknownGroup (groupId : GroupId)
  | unrootedGroup (groupId : GroupId)
  | groupRack (groupId : GroupId) (error : E)

namespace Tree

def group (tree : Tree L Body) (groupId : GroupId) : Option (Group L Body) :=
  tree.groups.find? fun group => group.id = groupId

def groupIds (tree : Tree L Body) : List GroupId := tree.groups.map Group.id

def membersOf (tree : Tree L Body) (groupId : GroupId) : List L :=
  match tree.group groupId with
  | none => []
  | some group => group.members

def itemLayers (tree : Tree L Body) : RootItem L → List L
  | .layer layerId _ => [layerId]
  | .group groupId => tree.membersOf groupId

/-- The layers that `flatten` lists. -/
def flattenedLayers (tree : Tree L Body) : List L := tree.root.flatMap tree.itemLayers

/-- The groups that `flatten` lists. -/
def rootedGroups (tree : Tree L Body) : List GroupId := tree.root.filterMap RootItem.groupId

/-- The loop over the groups; `earlier` are the ids that have been passed. -/
def checkGroups (checkRack : Body → Except E Unit) :
    List GroupId → List (Group L Body) → Except (StructureError L E) Unit
  | _, [] => pure ()
  | earlier, group :: rest => do
      refuse (group.id ∈ earlier) (.duplicateGroupId group.id)
      (checkRack group.body).mapError (.groupRack group.id)
      checkGroups checkRack (earlier ++ [group.id]) rest

def checkRooted (tree : Tree L Body) : Except (StructureError L E) Unit :=
  match (tree.groupIds.toFinset \ tree.rootedGroups.toFinset).sort.head? with
  | none => pure ()
  | some unrooted => throw (.unrootedGroup unrooted)

section

variable [DecidableEq L]

/-- Insert layers one by one; `earlier` are those inserted before. -/
def insertLayers (earlier : List L) : List L → Except (StructureError L E) (List L)
  | [] => pure earlier
  | layerId :: rest => do
      refuse (layerId ∈ earlier) (.duplicateLayer layerId)
      insertLayers (earlier ++ [layerId]) rest

def insertItem (tree : Tree L Body) (earlier : List L) :
    RootItem L → Except (StructureError L E) (List L)
  | .layer layerId _ => insertLayers earlier [layerId]
  | .group groupId =>
    match tree.group groupId with
    | none => throw (.unknownGroup groupId)
    | some group => insertLayers earlier group.members

/-- The loop over the root; `keys` and `layers` have been passed. -/
def checkRoot (tree : Tree L Body) :
    List (RootItemKey L) → List L → List (RootItem L) → Except (StructureError L E) Unit
  | _, _, [] => pure ()
  | keys, layers, item :: rest => do
      refuse (item.key ∈ keys) (.duplicateRootItem item.key)
      let inserted ← insertItem tree layers item
      checkRoot tree (keys ++ [item.key]) inserted rest

/-- `validate_structure`; `checkRack` is the check of a group's rack. -/
def validateStructure (checkRack : Body → Except E Unit)
    (tree : Tree L Body) : Except (StructureError L E) Unit := do
  checkGroups checkRack [] tree.groups
  checkRoot tree [] [] tree.root
  checkRooted tree

end

structure WellFormed (tree : Tree L Body) : Prop where
  groups_nodup : tree.groupIds.Nodup
  keys_nodup : (tree.root.map RootItem.key).Nodup
  layers_nodup : tree.flattenedLayers.Nodup
  rooted : ∀ groupId, groupId ∈ tree.rootedGroups ↔ groupId ∈ tree.groupIds

variable {groupId : GroupId}

theorem group_isSome_iff (tree : Tree L Body) :
    (tree.group groupId).isSome ↔ groupId ∈ tree.groupIds := by
  simp [group, groupIds, find?_isSome]

variable {tree : Tree L Body}

theorem mem_rootedGroups : groupId ∈ tree.rootedGroups ↔ .group groupId ∈ tree.root := by
  constructor
  · intro hmem
    obtain ⟨item, hitem, heq⟩ := mem_filterMap.mp hmem
    cases item with
    | layer layerId bus => cases heq
    | group other =>
      cases heq
      exact hitem
  · intro hmem
    exact mem_filterMap.mpr ⟨_, hmem, rfl⟩

theorem WellFormed.rootedGroups_nodup (h : WellFormed tree) : tree.rootedGroups.Nodup := by
  have hsub : ∀ items : List (RootItem L),
      ((items.filterMap RootItem.groupId).map RootItemKey.group).Sublist
        (items.map RootItem.key) := by
    intro items
    induction items with
    | nil => exact List.Sublist.refl _
    | cons item rest ih =>
      cases item with
      | layer layerId bus => exact ih.cons _
      | group groupId => exact ih.cons_cons _
  exact (h.keys_nodup.sublist (hsub tree.root)).of_map _

variable {u : Unit}

theorem checkGroups_ok {checkRack : Body → Except E Unit} {groups : List (Group L Body)}
    {earlier : List GroupId} (hearl : earlier.Nodup) :
    checkGroups checkRack earlier groups = .ok u ↔
      (earlier ++ groups.map Group.id).Nodup ∧ ∀ group ∈ groups, checkRack group.body = .ok () := by
  induction groups generalizing earlier with
  | nil => simpa [checkGroups] using hearl
  | cons group rest ih =>
    simp only [checkGroups, bind_ok, refuse_ok, exists_unit, mapError_ok, map_cons, forall_mem_cons]
    rw [nodup_append_cons, and_assoc]
    refine and_congr_right ?_
    intro hfresh
    rw [ih (nodup_concat hearl hfresh)]
    tauto

theorem checkRooted_ok :
    checkRooted (E := E) tree = .ok u ↔ ∀ groupId ∈ tree.groupIds, groupId ∈ tree.rootedGroups := by
  unfold checkRooted
  cases hhead : (tree.groupIds.toFinset \ tree.rootedGroups.toFinset).sort.head? with
  | none =>
    have hemp := head?_eq_none_iff.mp hhead
    simp only [pure_ok, true_iff]
    intro groupId hmem
    by_contra hout
    have hin : groupId ∈ (tree.groupIds.toFinset \ tree.rootedGroups.toFinset).sort := by
      simp [Finset.mem_sort, hmem, hout]
    rw [hemp] at hin
    cases hin
  | some unrooted =>
    have hmem := (Finset.mem_sort _).mp (mem_of_head? hhead)
    rw [Finset.mem_sdiff, mem_toFinset, mem_toFinset] at hmem
    simp only [throw_ok, false_iff]
    intro hall
    exact hmem.2 (hall unrooted hmem.1)

section

variable [DecidableEq L] {earlier layers result : List L}

theorem insertLayers_ok (hearl : earlier.Nodup) :
    insertLayers (E := E) earlier layers = .ok result ↔
      (earlier ++ layers).Nodup ∧ result = earlier ++ layers := by
  induction layers generalizing earlier with
  | nil =>
    simp only [insertLayers, pure_ok, append_nil, hearl, true_and]
    exact eq_comm
  | cons layerId rest ih =>
    simp only [insertLayers, bind_ok, refuse_ok, exists_unit]
    rw [nodup_append_cons, and_assoc, append_cons earlier layerId rest]
    refine and_congr_right ?_
    intro hfresh
    exact ih (nodup_concat hearl hfresh)

theorem insertItem_ok {item : RootItem L} (hearl : earlier.Nodup) :
    insertItem (E := E) tree earlier item = .ok result ↔
      (earlier ++ tree.itemLayers item).Nodup ∧
      (∀ groupId, item = .group groupId → groupId ∈ tree.groupIds) ∧
      result = earlier ++ tree.itemLayers item := by
  cases item with
  | layer layerId bus => simp [insertItem, itemLayers, insertLayers_ok hearl]
  | group groupId =>
    cases hgrp : tree.group groupId with
    | none =>
      have hout : groupId ∉ tree.groupIds := by
        rw [← tree.group_isSome_iff, hgrp]
        exact Bool.false_ne_true
      simp [insertItem, hgrp, hout]
    | some group =>
      have hin : groupId ∈ tree.groupIds := by
        rw [← tree.group_isSome_iff, hgrp]
        rfl
      simp [insertItem, itemLayers, membersOf, hgrp, hin, insertLayers_ok hearl]

theorem checkRoot_ok {items : List (RootItem L)} {keys : List (RootItemKey L)}
    (hkeys : keys.Nodup) (hlays : layers.Nodup) :
    checkRoot (E := E) tree keys layers items = .ok u ↔
      (keys ++ items.map RootItem.key).Nodup ∧
      (layers ++ items.flatMap tree.itemLayers).Nodup ∧
      ∀ groupId, .group groupId ∈ items → groupId ∈ tree.groupIds := by
  induction items generalizing keys layers with
  | nil => simp [checkRoot, hkeys, hlays]
  | cons item rest ih =>
    simp only [checkRoot, bind_ok, refuse_ok, exists_unit]
    rw [map_cons, flatMap_cons, nodup_append_cons, and_assoc, ← append_assoc]
    refine and_congr_right ?_
    intro hfresh
    constructor
    · rintro ⟨inserted, hins, hrest⟩
      obtain ⟨hnd, hknown, rfl⟩ := (insertItem_ok hlays).mp hins
      obtain ⟨hkeys', hlayers', hall⟩ := (ih (nodup_concat hkeys hfresh) hnd).mp hrest
      refine ⟨hkeys', hlayers', ?_⟩
      intro groupId hmem
      rcases mem_cons.mp hmem with hitem | hmem
      · exact hknown groupId hitem.symm
      · exact hall groupId hmem
    · rintro ⟨hkeys', hlayers', hall⟩
      have hnd := (nodup_append.mp hlayers').1
      refine ⟨_, (insertItem_ok hlays).mpr ⟨hnd, ?_, rfl⟩,
        (ih (nodup_concat hkeys hfresh) hnd).mpr ⟨hkeys', hlayers', ?_⟩⟩
      · intro groupId hitem
        exact hall groupId (hitem ▸ mem_cons_self)
      · intro groupId hmem
        exact hall groupId (mem_cons_of_mem _ hmem)

theorem validateStructure_ok {checkRack : Body → Except E Unit} :
    validateStructure checkRack tree = .ok u ↔
      WellFormed tree ∧ ∀ group ∈ tree.groups, checkRack group.body = .ok () := by
  unfold validateStructure
  simp only [bind_ok, exists_unit, checkGroups_ok nodup_nil, checkRoot_ok nodup_nil nodup_nil,
    nil_append, checkRooted_ok]
  constructor
  · rintro ⟨⟨hgrps, hracks⟩, ⟨hkeys, hlays, hknown⟩, hrooted⟩
    refine ⟨⟨hgrps, hkeys, hlays, ?_⟩, hracks⟩
    intro groupId
    constructor
    · intro hmem
      exact hknown groupId (mem_rootedGroups.mp hmem)
    · intro hmem
      exact hrooted groupId hmem
  · rintro ⟨hwf, hracks⟩
    refine ⟨⟨hwf.groups_nodup, hracks⟩, ⟨hwf.keys_nodup, hwf.layers_nodup, ?_⟩, ?_⟩
    · intro groupId hmem
      exact (hwf.rooted groupId).mp (mem_rootedGroups.mpr hmem)
    · intro groupId hmem
      exact (hwf.rooted groupId).mpr hmem

end

end Tree

end CollideOScope.Composition
