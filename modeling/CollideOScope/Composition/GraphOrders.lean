import CollideOScope.Composition.GraphAgreement

/-!
# The orders of a show

What the validator of a saved show orders is, under live names, what the planner
orders, but for what the planner adds on top: the master behind all, and the
program behind the master.  So one relation has a cycle exactly when the other
has one.
-/

namespace CollideOScope.Composition

open List Checks Relation TapResolution TapContext

theorem acyclic_of_renamed {α β : Type} {V : α → α → Prop} {R : β → β → Prop} {f : α → β}
    {known : Set α} {Late : β → Prop} (hinj : known.InjOn f)
    (hknown : ∀ a b, V a b → a ∈ known ∧ b ∈ known)
    (hback : ∀ p x, R p x → Late x ∨ ∃ a b, V a b ∧ f a = p ∧ f b = x)
    (hlate : ∀ p x, Late p → R p x → Late x) (hend : ∀ x, Late x → ¬TransGen R x x)
    (hacyc : ∀ a, ¬TransGen V a a) (x : β) : ¬TransGen R x x := by
  have hpath : ∀ {p x}, TransGen R p x →
      Late x ∨ ∃ a b, TransGen V a b ∧ (a ∈ known ∧ b ∈ known) ∧ f a = p ∧ f b = x := by
    intro p x hpath
    induction hpath with
    | single hedge =>
      rcases hback _ _ hedge with hx | ⟨a, b, hab, ha, hb⟩
      · exact .inl hx
      · exact .inr ⟨a, b, .single hab, hknown a b hab, ha, hb⟩
    | tail _ hedge ih =>
      rcases ih with hy | ⟨a, b, hab, ⟨ha, hb⟩, hfa, hfb⟩
      · exact .inl (hlate _ _ hy hedge)
      · rcases hback _ _ hedge with hx | ⟨c, d, hcd, hc, hd⟩
        · exact .inl hx
        · obtain ⟨hc', hd'⟩ := hknown c d hcd
          have hbc : b = c := hinj hb hc' (hfb.trans hc.symm)
          subst hbc
          exact .inr ⟨a, d, hab.tail hcd, ⟨ha, hd'⟩, hfa, hd⟩
  intro hcycle
  rcases hpath hcycle with hx | ⟨a, b, hab, ⟨ha, hb⟩, hfa, hfb⟩
  · exact hend x hx hcycle
  · have heq : a = b := hinj ha hb (hfa.trans hfb.symm)
    subst heq
    exact hacyc a hab

section

variable {Body : Type} {tree : Tree StableLayerId Body} {canvas program : Bool}
  {requests : List (ImageTapConsumer × PlannedImageTapOrigin)} {s : CollectedTaps}

abbrev LiveEdge (tree : Tree StableLayerId Body) (s : CollectedTaps) :
    VisualScopeId → VisualScopeId → Prop :=
  MustPrecede tree tree.below s.routeEdges s.prefixConstraints

variable {x : VisualScopeId} {compositePrefix : CompositePrefix}

theorem PrefixConstraints.get_eq_some {prefixes : PrefixConstraints} :
    prefixes.get x = some compositePrefix ↔
      x ∈ prefixes.consumers ∧ prefixes.prefixOf x = compositePrefix := by
  simp [get]

variable {p : VisualScopeId}

theorem Tree.WellFormed.mem_of_lastInPrefix (h : Tree.WellFormed tree) {scope : VisualScopeId}
    (hleads : tree.below.prefixFor scope = some compositePrefix)
    (hlast : tree.below.lastInPrefix compositePrefix = some p) :
    p ∈ tree.prefixScopes compositePrefix := by
  rw [Tree.lastInPrefix_eq (h.prefixWithin hleads)] at hlast
  exact mem_of_getLast? hlast

theorem Tree.WellFormed.ne_of_prefixContains (h : Tree.WellFormed tree)
    (hcont : tree.below.prefixContains p compositePrefix) :
    p ≠ .master ∧ p ≠ .program :=
  Tree.scopes_of_mem_rootWalk (h.prefixScopes_subset (Tree.prefixContains_iff.mp hcont))

theorem Tree.WellFormed.currentEdge_ne_master (h : Tree.WellFormed tree)
    {consumer : ImageTapConsumer} {origin : PlannedImageTapOrigin}
    {resolution : TapResolution}
    (hreso : (liveContext tree canvas program).resolve consumer origin =
      .ok resolution) : resolution.currentEdge ≠ some .master := by
  cases resolves hreso with
  | oneBelow hbelow =>
    intro hedge
    cases hedge
    obtain ⟨compositePrefix, hleads, hlast⟩ := Option.bind_eq_some_iff.mp hbelow
    have hmem := h.mem_of_lastInPrefix hleads hlast
    exact (Tree.scopes_of_mem_rootWalk (h.prefixScopes_subset hmem)).1 rfl
  | layer hknown hstage | group hknown | program htiming => simp [produced]
  | preLocal htiming | gestureCanvas | programTap => simp [unproduced]
  | allBelow hlast => simp
  | history htiming => simp [history]
  | transparent => simp [transparent]

theorem OrdersEdge.liveEdge {e : ImageOrderingEdge}
    (hedge : OrdersEdge tree s.prefixConstraints e) :
    LiveEdge tree s e.producer e.consumer := by
  rcases hedge with ⟨groupId, member, hmem, rfl⟩ |
    ⟨compositePrefix, hget, hcont⟩
  · unfold Tree.membersOf at hmem
    cases hgrp : tree.group groupId with
    | none =>
      rw [hgrp] at hmem
      cases hmem
    | some group =>
      rw [hgrp] at hmem
      have hid : group.id = groupId := by simpa using find?_some hgrp
      rw [← hid]
      exact .member (mem_of_find?_eq_some hgrp) hmem
  · obtain ⟨hcons, rfl⟩ := PrefixConstraints.get_eq_some.mp hget
    exact .below hcons hcont

variable (hwf : tree.WellFormed) (hgathers : Gathers (liveContext tree canvas program) requests s)

include hgathers

theorem Gathers.mem_routes :
    toLex (p, x) ∈ s.routeEdges ↔ ∃ request ∈ requests, ∃ resolution,
      (liveContext tree canvas program).resolve request.1 request.2 =
        .ok resolution ∧ request.1.scope = x ∧
      request.2.timing = .currentFrame ∧ resolution.currentEdge = some p := by
  rw [hgathers.routes]
  refine exists_congr fun request => and_congr_right fun _ =>
    exists_congr fun resolution => and_congr_right fun _ => ?_
  cases htiming : request.2.timing with
  | previousFrame => simp [currentRoutes]
  | currentFrame =>
    cases resolution.currentEdge with
    | none => simp [currentRoutes]
    | some producer =>
      simp only [currentRoutes, Finset.mem_singleton, toLex_inj,
        Prod.mk.injEq, true_and, Option.some.injEq]
      constructor
      · rintro ⟨hp, hx⟩
        exact ⟨hx.symm, hp.symm⟩
      · rintro ⟨hx, hp⟩
        exact ⟨hp.symm, hx.symm⟩

variable {d : ImageDependency}

theorem Gathers.mem_dependencies :
    d ∈ s.dependencies ↔ ∃ request ∈ requests, ∃ resolution,
      (liveContext tree canvas program).resolve request.1 request.2 =
        .ok resolution ∧ request.1.scope = d.consumer ∧
      request.2.timing = d.timing ∧
      resolution.dependencyProducer = some d.producer := by
  rw [hgathers.dependencies]
  refine exists_congr fun request => and_congr_right fun _ =>
    exists_congr fun resolution => and_congr_right fun _ => ?_
  obtain ⟨consumer, producer, timing⟩ := d
  cases resolution.dependencyProducer with
  | none => simp [imageDependency]
  | some producer' =>
    simp only [imageDependency, Option.map_some, Option.toList_some,
      mem_singleton, ImageDependency.mk.injEq, Option.some.injEq]
    constructor
    · rintro ⟨hx, hp, ht⟩
      exact ⟨hx.symm, ht.symm, hp.symm⟩
    · rintro ⟨hx, ht, hp⟩
      exact ⟨hx.symm, hp.symm, ht.symm⟩

theorem Gathers.mono
    {requests' : List
      (ImageTapConsumer × PlannedImageTapOrigin)} {s' : CollectedTaps}
    (hgathers' : Gathers (liveContext tree canvas program) requests' s')
    (hsub : requests ⊆ requests') (hedge : LiveEdge tree s p x) :
    LiveEdge tree s' p x := by
  cases hedge with
  | route hroute =>
    obtain ⟨request, hreq, hresolution⟩ := hgathers.mem_routes.mp hroute
    exact .route (hgathers'.mem_routes.mpr ⟨request, hsub hreq, hresolution⟩)
  | member hgrp hmem => exact .member hgrp hmem
  | output hout => exact .output hout
  | program => exact .program
  | below hcons hcont =>
    obtain ⟨request, hreq, hresolution⟩ :=
      (hgathers.constraints _ _).mp (PrefixConstraints.get_eq_some.mpr ⟨hcons, rfl⟩)
    obtain ⟨hconsumer', hsame⟩ := PrefixConstraints.get_eq_some.mp
      ((hgathers'.constraints _ _).mpr ⟨request, hsub hreq, hresolution⟩)
    exact .below hconsumer' (hsame ▸ hcont)

include hwf

theorem Gathers.liveEdge (hd : d ∈ s.dependencies) (htiming : d.timing = .currentFrame) :
    LiveEdge tree s d.producer d.consumer := by
  obtain ⟨request, hreq, resolution, hreso, hscope, hsame, hprod⟩ := hgathers.mem_dependencies.mp hd
  rw [htiming] at hsame
  rcases (dependency_cases hreso).2 _ hsame hprod with hedge | ⟨compositePrefix, hcon, hlast⟩
  · exact .route (hgathers.mem_routes.mpr ⟨request, hreq, resolution, hreso, hscope, hsame, hedge⟩)
  · obtain ⟨hcons, hdomain⟩ := PrefixConstraints.get_eq_some.mp
      ((hgathers.constraints _ _).mpr ⟨request, hreq, resolution, hreso, hscope, hcon⟩)
    have hleads := (constraint_eq hreso hcon).1
    have hmem := hwf.mem_of_lastInPrefix hleads hlast
    exact .below hcons (hdomain ▸ Tree.prefixContains_iff.mpr hmem)

theorem Gathers.eq_program_of_master (hedge : LiveEdge tree s .master x) : x = .program := by
  generalize hp : VisualScopeId.master = p at hedge
  cases hedge with
  | route hroute =>
    subst hp
    obtain ⟨request, -, resolution, hreso, -, -, hcur⟩ := hgathers.mem_routes.mp hroute
    exact absurd hcur (hwf.currentEdge_ne_master hreso)
  | member hgrp hmem => cases hp
  | output hout =>
    subst hp
    obtain ⟨item, -, hitem⟩ := mem_map.mp hout
    cases item <;> cases hitem
  | program => rfl
  | below hcons hcont => exact absurd hp.symm (hwf.ne_of_prefixContains hcont).1

theorem Gathers.dependency_of_program (hedge : LiveEdge tree s .program x) :
    (⟨x, .program, .currentFrame⟩ : ImageDependency) ∈ s.dependencies := by
  generalize hp : VisualScopeId.program = p at hedge
  cases hedge with
  | route hroute =>
    obtain ⟨request, hreq, resolution, hreso, hscope, htiming,
      hcur⟩ := hgathers.mem_routes.mp hroute
    exact hgathers.mem_dependencies.mpr ⟨request, hreq, resolution,
      hreso, hscope, htiming,
      (dependency_cases hreso).1 _ hcur⟩
  | member hgrp hmem | program => cases hp
  | output hout =>
    subst hp
    obtain ⟨item, -, hitem⟩ := mem_map.mp hout
    cases item <;> cases hitem
  | below hcons hcont => exact absurd hp.symm (hwf.ne_of_prefixContains hcont).2

end

namespace PairedGraph

variable {names : GraphNames} {paired : PairedGraph names} {show' : LiveShow}

abbrev SavedEdge (paired : PairedGraph names) (collected : CollectedEdges) :
    VisualScopeId → VisualScopeId → Prop :=
  Precedes (paired.validated.rootWalk ++ [.master]) collected.dependencies collected.orderingEdges

theorem known_iff {x : VisualScopeId} :
    x ∈ Composition.knownScopes (paired.validated.rootWalk ++ [.master]) ↔
      x ∈ paired.validated.knownScopes := by
  rw [Composition.mem_knownScopes, Tree.mem_knownScopes, mem_append,
    mem_singleton, or_assoc]

theorem liveScope_eq_some {scope scope' : VisualScopeId} :
    paired.validated.liveScope names.liveId scope = some scope' ↔
      scope ∈ paired.validated.knownScopes ∧ scope.rename names.liveId = scope' := by
  unfold Tree.liveScope
  by_cases hknown : scope ∈ paired.validated.knownScopes
  · simp [hknown]
  · simp [hknown]

theorem liveDependency_eq_some {s d : ImageDependency} :
    paired.validated.liveDependency names.liveId s = some d ↔
      s.consumer ∈ paired.validated.knownScopes ∧
      s.producer ∈ paired.validated.knownScopes ∧
      d = ⟨s.consumer.rename names.liveId, s.producer.rename names.liveId, s.timing⟩ := by
  simp only [Tree.liveDependency, Option.bind_eq_bind, Option.bind_eq_some_iff,
    liveScope_eq_some, Option.pure_def, Option.some.injEq]
  constructor
  · rintro ⟨-, ⟨hcons, rfl⟩, -, ⟨hprod, rfl⟩, rfl⟩
    exact ⟨hcons, hprod, rfl⟩
  · rintro ⟨hcons, hprod, rfl⟩
    exact ⟨_, ⟨hcons, rfl⟩, _, ⟨hprod, rfl⟩, rfl⟩

theorem liveOrdering_eq_some {s e : ImageOrderingEdge} :
    paired.validated.liveOrdering names.liveId s = some e ↔
      s.producer ∈ paired.validated.knownScopes ∧
      s.consumer ∈ paired.validated.knownScopes ∧
      e = ⟨s.producer.rename names.liveId, s.consumer.rename names.liveId⟩ := by
  simp only [Tree.liveOrdering, Option.bind_eq_bind, Option.bind_eq_some_iff,
    liveScope_eq_some, Option.pure_def, Option.some.injEq]
  constructor
  · rintro ⟨-, ⟨hprod, rfl⟩, -, ⟨hcons, rfl⟩, rfl⟩
    exact ⟨hprod, hcons, rfl⟩
  · rintro ⟨hprod, hcons, rfl⟩
    exact ⟨_, ⟨hprod, rfl⟩, _, ⟨hcons, rfl⟩, rfl⟩

theorem rename_injOn :
    Set.InjOn (VisualScopeId.rename names.liveId)
      {scope | scope ∈ paired.validated.knownScopes} := by
  have hlayer : ∀ {id}, VisualScopeId.layer id ∈ paired.validated.knownScopes →
      ∃ i, validationId (names.position i) = id := by
    intro id hknown
    exact (paired.namesTrees.layers id).mp (Tree.WellFormed.known_layer.mp hknown)
  intro x hx y hy hxy
  cases x with
  | layer id =>
    cases y with
    | layer id' =>
      obtain ⟨i, rfl⟩ := hlayer hx
      obtain ⟨j, rfl⟩ := hlayer hy
      simp only [VisualScopeId.rename, VisualScopeId.layer.injEq, names.liveId_position] at hxy
      rw [names.layer_injective hxy]
    | master | group groupId | program => cases hxy
  | master =>
    cases y with
    | master => rfl
    | layer id | group groupId | program => cases hxy
  | group groupId =>
    cases y with
    | group groupId' => exact congrArg _ (VisualScopeId.group.inj hxy)
    | layer id | master | program => cases hxy
  | program =>
    cases y with
    | program => rfl
    | layer id | group groupId | master => cases hxy

/-- The master and the program, which the planner runs last. -/
def Late (x : VisualScopeId) : Prop := x = .master ∨ x = .program

section

variable {canvas program : Bool} {collected : CollectedEdges} {taps all : CollectedTaps}
  (hsame : paired.SameEdges collected taps)
  (htaps : Gathers (liveContext paired.live.tree canvas program) show'.requests taps)

include hsame htaps

variable {p x : VisualScopeId}

theorem liveEdge_of_savedEdge (hedge : paired.SavedEdge collected p x) :
    LiveEdge paired.live.tree taps (p.rename names.liveId) (x.rename names.liveId) := by
  obtain ⟨hp, hx, hedge⟩ := hedge
  rw [known_iff] at hp hx
  rcases hedge with ⟨d, hd, htiming, rfl, rfl⟩ | ⟨e, he, rfl, rfl⟩
  · have hlive := (hsame.dependencies _).mpr ⟨d, hd, liveDependency_eq_some.mpr ⟨hx, hp, rfl⟩⟩
    exact htaps.liveEdge paired.namesTrees.wellFormed' hlive htiming
  · exact ((hsame.orderingEdges _).mpr ⟨e, he, liveOrdering_eq_some.mpr ⟨hp, hx, rfl⟩⟩).liveEdge

theorem savedEdge_of_liveEdge (hedge : LiveEdge paired.live.tree taps p x) :
    Late x ∨ ∃ a b, paired.SavedEdge collected a b ∧
      a.rename names.liveId = p ∧ b.rename names.liveId = x := by
  have hord : ∀ {e}, OrdersEdge paired.live.tree taps.prefixConstraints e →
      ∃ a b, paired.SavedEdge collected a b ∧
        a.rename names.liveId = e.producer ∧ b.rename names.liveId = e.consumer := by
    intro e he
    obtain ⟨s, hs, hse⟩ := (hsame.orderingEdges e).mp he
    obtain ⟨hprod, hcons, rfl⟩ := liveOrdering_eq_some.mp hse
    exact ⟨_, _, ⟨known_iff.mpr hprod, known_iff.mpr hcons, .inr ⟨s, hs, rfl, rfl⟩⟩, rfl, rfl⟩
  cases hedge with
  | route hroute =>
    obtain ⟨request, hreq, resolution, hreso, hscope, htiming, hcur⟩ := htaps.mem_routes.mp hroute
    have hd : (⟨x, p, .currentFrame⟩ : ImageDependency) ∈ taps.dependencies :=
      htaps.mem_dependencies.mpr ⟨request, hreq, resolution, hreso,
        hscope, htiming, (dependency_cases hreso).1 _ hcur⟩
    obtain ⟨s, hs, hsd⟩ := (hsame.dependencies _).mp hd
    obtain ⟨hcons, hprod, heq⟩ := liveDependency_eq_some.mp hsd
    obtain ⟨hx, hp, ht⟩ := ImageDependency.mk.inj heq
    exact .inr ⟨_, _, ⟨known_iff.mpr hprod, known_iff.mpr hcons,
      .inl ⟨s, hs, ht.symm, rfl, rfl⟩⟩, hp.symm, hx.symm⟩
  | member hgrp hmem =>
    rename_i group member
    refine .inr (hord (e := ⟨.layer member, .group group.id⟩) (.inl ⟨group.id, member, ?_, rfl⟩))
    rw [paired.namesTrees.wellFormed'.membersOf_eq hgrp]
    exact hmem
  | output hout => exact .inl (.inl rfl)
  | program => exact .inl (.inr rfl)
  | below hcons hcont =>
    exact .inr (hord (e := ⟨p, x⟩) (.inr ⟨_,
      PrefixConstraints.get_eq_some.mpr ⟨hcons, rfl⟩, hcont⟩))

omit hsame htaps

theorem garden_resolves {request : ImageTapConsumer × PlannedImageTapOrigin}
    (hreq : request ∈ show'.gardenRequests) (canvas program : Bool) :
    request.1.scope = .master ∧ ∃ resolution,
      (liveContext paired.live.tree canvas program).resolve request.1 request.2 = .ok resolution ∧
      resolution.dependencyProducer ≠ some .program := by
  unfold LiveShow.gardenRequests at hreq
  cases hroute : show'.gardenMatteRoute with rw [hroute] at hreq
  | none => cases hreq
  | missingSelectedLayer position stage =>
    obtain rfl := mem_singleton.mp hreq
    exact ⟨rfl, _, rfl, by simp [transparent]⟩
  | selectedLayer layerId position stage =>
    obtain rfl := mem_singleton.mp hreq
    refine ⟨rfl, ?_⟩
    simp only [resolve, PlannedImageTapOrigin.route, ResolvedImageSource.route]
    split_ifs <;>
      exact ⟨_, rfl, by simp [produced, unproduced, transparent]⟩

variable (hall : Gathers (liveContext paired.live.tree canvas program)
    (show'.requests ++ show'.gardenRequests) all)

include htaps hall

theorem liveEdge_of_all (hedge : LiveEdge paired.live.tree all p x) :
    x = .master ∨ LiveEdge paired.live.tree taps p x := by
  have hrequests : ∀ {request},
      request ∈ show'.requests ++ show'.gardenRequests →
      request.1.scope = x → x = .master ∨ request ∈ show'.requests := by
    intro request hreq hscope
    rcases mem_append.mp hreq with hin | hgarden
    · exact .inr hin
    · left
      rw [← hscope]
      exact (@garden_resolves names paired show' request hgarden canvas program).1
  cases hedge with
  | route hroute =>
    obtain ⟨request, hreq, resolution, hreso, hscope, hrest⟩ := hall.mem_routes.mp hroute
    refine (hrequests hreq hscope).imp_right fun hin => ?_
    exact .route (htaps.mem_routes.mpr ⟨request, hin, resolution, hreso, hscope, hrest⟩)
  | member hgrp hmem => exact .inr (.member hgrp hmem)
  | output hout => exact .inl rfl
  | program => exact .inr .program
  | below hcons hcont =>
    obtain ⟨request, hreq, resolution, hreso, hscope, hsome⟩ :=
      (hall.constraints _ _).mp (PrefixConstraints.get_eq_some.mpr ⟨hcons, rfl⟩)
    refine (hrequests hreq hscope).imp_right fun hin => ?_
    obtain ⟨hconsumer', hdomain⟩ := PrefixConstraints.get_eq_some.mp
      ((htaps.constraints _ _).mpr ⟨request, hin, resolution, hreso, hscope, hsome⟩)
    exact .below hconsumer' (hdomain ▸ hcont)

include hsame

section

variable (hprogram : ∀ d ∈ collected.dependencies, d.timing = .currentFrame → d.producer ≠ .program)
include hprogram

theorem producer_ne_program {d : ImageDependency} (hd : d ∈ all.dependencies)
    (htiming : d.timing = .currentFrame) : d.producer ≠ .program := by
  intro hprod
  obtain ⟨request, hreq, resolution, hreso, hrest⟩ := hall.mem_dependencies.mp hd
  rcases mem_append.mp hreq with hin | hgarden
  · obtain ⟨s, hs, hsd⟩ := (hsame.dependencies _).mp
      (htaps.mem_dependencies.mpr ⟨request, hin, resolution, hreso, hrest⟩)
    obtain ⟨-, -, rfl⟩ := liveDependency_eq_some.mp hsd
    refine hprogram s hs htiming ?_
    cases hsrc : s.producer with
    | program => rfl
    | master | layer id | group groupId =>
      rw [hsrc] at hprod
      cases hprod
  · obtain ⟨-, resolution', hresolve', hne⟩ :=
      @garden_resolves names paired show' request hgarden canvas program
    obtain rfl := Except.ok.inj (hreso.symm.trans hresolve')
    exact hne (hrest.2.2.trans (congrArg some hprod))

theorem acyclic_live (hacyc : ∀ a, ¬TransGen (paired.SavedEdge collected) a a)
    (x : VisualScopeId) : ¬TransGen (LiveEdge paired.live.tree all) x x := by
  have hwf := paired.namesTrees.wellFormed'
  have hfinal : ∀ x, ¬LiveEdge paired.live.tree all .program x := by
    intro x hedge
    exact producer_ne_program hsame htaps hall hprogram
      (hall.dependency_of_program hwf hedge) rfl rfl
  have hpath : ∀ x, ¬TransGen (LiveEdge paired.live.tree all) .program x := by
    intro x hpath
    obtain ⟨y, hedge, -⟩ := TransGen.head'_iff.mp hpath
    exact hfinal y hedge
  refine @acyclic_of_renamed _ _ (paired.SavedEdge collected) _ _ _ Late
    (@rename_injOn names paired) ?_ ?_ ?_ ?_ hacyc x
  · intro a b hedge
    exact ⟨known_iff.mp hedge.1, known_iff.mp hedge.2.1⟩
  · intro p x hedge
    rcases liveEdge_of_all htaps hall hedge with rfl | hin
    · exact .inl (.inl rfl)
    · exact savedEdge_of_liveEdge hsame htaps hin
  · rintro p x (rfl | rfl) hedge
    · exact .inr (hall.eq_program_of_master hwf hedge)
    · exact absurd hedge (hfinal x)
  · rintro x (rfl | rfl) hcycle
    · obtain ⟨y, hedge, hrest⟩ := TransGen.head'_iff.mp hcycle
      obtain rfl := hall.eq_program_of_master hwf hedge
      rcases Relation.reflTransGen_iff_eq_or_transGen.mp hrest with heq | hrest
      · cases heq
      · exact hpath _ hrest
    · exact hpath _ hcycle

end

theorem acyclic_saved (hacyc : ∀ x, ¬TransGen (LiveEdge paired.live.tree all) x x)
    (a : VisualScopeId) : ¬TransGen (paired.SavedEdge collected) a a := by
  intro hcycle
  refine hacyc _ (hcycle.lift (VisualScopeId.rename names.liveId) ?_)
  intro p x hedge
  exact htaps.mono hall (subset_append_left _ _) (liveEdge_of_savedEdge hsame htaps hedge)

end

end PairedGraph

end CollideOScope.Composition
