import CollideOScope.Composition.Routes
import CollideOScope.Support.Kahn

/-!
# The image dependency graph

The planner declares which visual scope samples which other one, and in what
order prefixes are composited.  The validator accepts a plan exactly when its
same-frame relation has no cycle, and then orders producers before consumers.

The tables of the source are maps with a default: a vertex without an entry has
no consumers and no producers.
-/

namespace CollideOScope.Composition

open Nat Relation Kahn List Function Finset

def maxCurrentImageTaps : ℕ := 64

def maxPreviousImageTaps : ℕ := 8

def maxImageDependencies : ℕ := maxCurrentImageTaps + maxPreviousImageTaps

def maxGraphScopes : ℕ := 274

inductive VisualScopeId
  | master
  | layer (id : StableLayerId)
  | group (id : GroupId)
  | program

namespace VisualScopeId

/-- The derived order compares the variant first and then the identity. -/
def rank : VisualScopeId → ℕ ×ₗ ℕ
  | master => toLex (0, 0)
  | layer id => toLex (1, id)
  | group id => toLex (2, id)
  | program => toLex (3, 0)

theorem rank_injective : Function.Injective rank := by
  intro a b h
  cases a <;> cases b <;>
    simp_all [rank, Subtype.ext_iff]

instance : LinearOrder VisualScopeId := LinearOrder.lift' rank rank_injective

instance : IsTrans VisualScopeId (· ≤ ·) := inferInstance

instance : @Std.Antisymm VisualScopeId (· ≤ ·) := inferInstance

end VisualScopeId

structure ImageDependency where
  (consumer producer : VisualScopeId)
  timing : EdgeTiming

/-- A producer composited before a consumer, without a tap. -/
structure ImageOrderingEdge where
  (producer consumer : VisualScopeId)

inductive ImageGraphMode
  | advanced | legacyM1TransparentProgram
  deriving DecidableEq

inductive ImageGraphDiagnostic
  | missingProducer (consumer producer : VisualScopeId)
  | legacyCurrentProgramTransparent (consumer : VisualScopeId)

inductive ImageGraphError
  | tooManyScopes (count limit : ℕ)
  | tooManyDependencies (count limit : ℕ)
  | tooManyCurrentTaps (count limit : ℕ)
  | tooManyPreviousTaps (count limit : ℕ)
  | duplicateScope (scope : VisualScopeId)
  | missingConsumer (scope : VisualScopeId)
  | currentProgramInput (consumer : VisualScopeId)
  | currentCycle (scopes : List VisualScopeId)

structure ImageGraphPlan where
  currentTopologicalOrder : List VisualScopeId
  (currentTaps previousTaps : ℕ)
  diagnostics : List ImageGraphDiagnostic

/-- The local variables of the two edge loops. -/
structure EdgeTables where
  (currentTaps previousTaps : ℕ)
  diagnostics : List ImageGraphDiagnostic
  adjacency : VisualScopeId → Finset VisualScopeId
  indegree : VisualScopeId → ℕ

namespace EdgeTables

def empty : EdgeTables := ⟨0, 0, [], fun _ => ∅, fun _ => 0⟩

/-- Insert a consumer into the adjacency of a producer and count it if it was
not there. -/
def insert (s : EdgeTables) (producer consumer : VisualScopeId) : EdgeTables :=
  if consumer ∈ s.adjacency producer then s
  else
    { s with
      adjacency := update s.adjacency producer
        (Insert.insert consumer (s.adjacency producer))
      indegree := update s.indegree consumer (s.indegree consumer + 1) }

/-- The rules for a same-frame edge, shared by both loops.  `tap` is what the
edge is charged. -/
def charge (s : EdgeTables) (known : Finset VisualScopeId)
    (mode : ImageGraphMode) (producer consumer : VisualScopeId) (tap : ℕ) :
    Except ImageGraphError EdgeTables :=
  if producer = .program then
    if mode = .advanced then .error (.currentProgramInput consumer)
    else .ok { s with diagnostics := s.diagnostics ++ [.legacyCurrentProgramTransparent consumer] }
  else if producer ∉ known then
    .ok { s with diagnostics := s.diagnostics ++ [.missingProducer consumer producer] }
  else .ok (insert { s with currentTaps := s.currentTaps + tap } producer consumer)

def chargeDependency (known : Finset VisualScopeId) (mode : ImageGraphMode)
    (s : EdgeTables) (dependency : ImageDependency) :
    Except ImageGraphError EdgeTables :=
  if dependency.consumer ∉ known then .error (.missingConsumer dependency.consumer)
  else if dependency.timing = .previousFrame then .ok { s with previousTaps := s.previousTaps + 1 }
  else s.charge known mode dependency.producer dependency.consumer 1

/-- One turn of the loop over the ordering edges, which cost no tap. -/
def chargeOrdering (known : Finset VisualScopeId) (mode : ImageGraphMode)
    (s : EdgeTables) (edge : ImageOrderingEdge) :
    Except ImageGraphError EdgeTables :=
  if edge.consumer ∉ known then .error (.missingConsumer edge.consumer)
  else s.charge known mode edge.producer edge.consumer 0

end EdgeTables

/-- The loop that collects the scopes, the program last. -/
def collectScope (known : Finset VisualScopeId) (scope : VisualScopeId) :
    Except ImageGraphError (Finset VisualScopeId) :=
  if scope ∈ known then .error (.duplicateScope scope)
  else .ok (insert scope known)

def validateWithOrderingEdges (scopes : List VisualScopeId) (dependencies : List ImageDependency)
    (orderingEdges : List ImageOrderingEdge) (mode : ImageGraphMode) :
    Except ImageGraphError ImageGraphPlan := do
  if maxGraphScopes < scopes.length then
    throw (.tooManyScopes scopes.length maxGraphScopes)
  if maxImageDependencies < dependencies.length then
    throw (.tooManyDependencies dependencies.length maxImageDependencies)
  let known ← (scopes ++ [VisualScopeId.program]).foldlM collectScope ∅
  let charged ← dependencies.foldlM (EdgeTables.chargeDependency known mode)
    EdgeTables.empty
  if maxCurrentImageTaps < charged.currentTaps then
    throw (.tooManyCurrentTaps charged.currentTaps maxCurrentImageTaps)
  if maxPreviousImageTaps < charged.previousTaps then
    throw (.tooManyPreviousTaps charged.previousTaps maxPreviousImageTaps)
  let tables ← orderingEdges.foldlM (EdgeTables.chargeOrdering known mode)
    charged
  let sorted := Kahn.sort known tables.adjacency tables.indegree
  if sorted.order.length ≠ known.card then
    throw (.currentCycle ((known.filter fun scope => sorted.indegree scope ≠ 0).sort))
  return ⟨sorted.order, tables.currentTaps, tables.previousTaps, tables.diagnostics⟩

/-- `ImageDependencyGraph::validate`. -/
def validateDependencies (scopes : List VisualScopeId)
    (dependencies : List ImageDependency) (mode : ImageGraphMode) :
    Except ImageGraphError ImageGraphPlan :=
  validateWithOrderingEdges scopes dependencies [] mode

def knownScopes (scopes : List VisualScopeId) : Finset VisualScopeId :=
  (scopes ++ [VisualScopeId.program]).toFinset

def ChargedCurrent (known : Finset VisualScopeId) (dependency : ImageDependency) : Prop :=
  dependency.timing = .currentFrame ∧ dependency.producer ∈ known

instance (known : Finset VisualScopeId) :
    DecidablePred (ChargedCurrent known) := fun dependency =>
  inferInstanceAs (Decidable (dependency.timing = .currentFrame ∧ dependency.producer ∈ known))

def ChargedPrevious (dependency : ImageDependency) : Prop := dependency.timing = .previousFrame

instance : DecidablePred ChargedPrevious := fun dependency =>
  inferInstanceAs (Decidable (dependency.timing = .previousFrame))

/-- `producer` must be ready before `consumer` in the same frame. -/
def Precedes (scopes : List VisualScopeId) (dependencies : List ImageDependency)
    (orderingEdges : List ImageOrderingEdge) (producer consumer : VisualScopeId) : Prop :=
  producer ∈ knownScopes scopes ∧ consumer ∈ knownScopes scopes ∧
    ((∃ dependency ∈ dependencies, dependency.timing = .currentFrame ∧
        dependency.producer = producer ∧ dependency.consumer = consumer) ∨
      ∃ edge ∈ orderingEdges, edge.producer = producer ∧ edge.consumer = consumer)

/-- The inputs of a plan: distinct scopes, known consumers, no same-frame
program input, and counts within the limits. -/
structure Plannable (scopes : List VisualScopeId) (dependencies : List ImageDependency)
    (orderingEdges : List ImageOrderingEdge) : Prop where
  scopes_le : scopes.length ≤ maxGraphScopes
  dependencies_le : dependencies.length ≤ maxImageDependencies
  current_le : dependencies.countP
    (fun d => ChargedCurrent (knownScopes scopes) d) ≤ maxCurrentImageTaps
  previous_le : dependencies.countP (fun d => ChargedPrevious d) ≤ maxPreviousImageTaps
  nodup : scopes.Nodup
  not_program : VisualScopeId.program ∉ scopes
  consumer_mem : ∀ d ∈ dependencies, d.consumer ∈ knownScopes scopes
  ordering_mem : ∀ e ∈ orderingEdges, e.consumer ∈ knownScopes scopes
  producer_ne : ∀ d ∈ dependencies, d.timing = .currentFrame → d.producer ≠ .program
  ordering_ne : ∀ e ∈ orderingEdges, e.producer ≠ .program

section

variable {known : Finset VisualScopeId} {s : EdgeTables}

variable {producer consumer : VisualScopeId}

theorem EdgeTables.counted_insert (h : Kahn.Counted known s.adjacency s.indegree)
    (hprod : producer ∈ known) (hcons : consumer ∈ known) :
    Kahn.Counted known (s.insert producer consumer).adjacency
      (s.insert producer consumer).indegree := by
  unfold EdgeTables.insert
  split
  case isTrue => exact h
  case isFalse hfresh =>
    constructor
    · intro p hp x hx
      by_cases hpp : p = producer
      · subst hpp
        simp only [update_self, mem_insert] at hx
        rcases hx with rfl | hx
        · exact hcons
        · exact h.closed p hp hx
      · simp only [update_of_ne hpp] at hx
        exact h.closed p hp hx
    · intro x
      by_cases hx : x = consumer
      · subst hx
        have hset : producers known (update s.adjacency producer
            (Insert.insert x (s.adjacency producer))) x =
            Insert.insert producer (producers known s.adjacency x) := by
          ext p
          by_cases hpp : p = producer
          · subst hpp
            simp [producers, hprod]
          · simp [producers, hpp]
        have hout : producer ∉ producers known s.adjacency x := by simp [producers, hfresh]
        simp only [update_self]
        rw [hset, card_insert_of_notMem hout, h.indegree_eq x]
      · have hset : producers known (update s.adjacency producer
            (Insert.insert consumer (s.adjacency producer))) x =
            producers known s.adjacency x := by
          ext p
          by_cases hpp : p = producer
          · subst hpp
            simp [producers, hx]
          · simp [producers, hpp]
        simp only [update_of_ne hx]
        rw [hset, h.indegree_eq x]

theorem EdgeTables.mem_insert_adjacency {p x : VisualScopeId} :
    x ∈ (s.insert producer consumer).adjacency p ↔
      x ∈ s.adjacency p ∨ p = producer ∧ x = consumer := by
  unfold EdgeTables.insert
  split
  case isTrue hin =>
    constructor
    · exact Or.inl
    · rintro (hx | ⟨rfl, rfl⟩)
      · exact hx
      · exact hin
  case isFalse =>
    by_cases hp : p = producer
    · subst hp
      simp only [update_self, mem_insert, true_and]
      tauto
    · simp [hp]

@[simp]
theorem EdgeTables.insert_taps (producer consumer : VisualScopeId) :
    (s.insert producer consumer).currentTaps = s.currentTaps ∧
      (s.insert producer consumer).previousTaps = s.previousTaps := by
  unfold EdgeTables.insert
  split <;> exact ⟨rfl, rfl⟩

theorem EdgeTables.charge_ok (tap : ℕ) (h : Kahn.Counted known s.adjacency s.indegree)
    (hprod : producer ≠ .program) (hcons : consumer ∈ known) :
    ∃ t, s.charge known .advanced producer consumer tap = .ok t ∧
      Kahn.Counted known t.adjacency t.indegree ∧
      (∀ p x, x ∈ t.adjacency p ↔ x ∈ s.adjacency p ∨
        producer ∈ known ∧ p = producer ∧ x = consumer) ∧
      t.currentTaps = s.currentTaps + (if producer ∈ known then tap else 0) ∧
      t.previousTaps = s.previousTaps := by
  unfold EdgeTables.charge
  rw [if_neg hprod]
  by_cases hknown : producer ∈ known
  · rw [if_neg (not_not.mpr hknown)]
    refine ⟨_, rfl, counted_insert h hknown hcons, ?_, ?_, ?_⟩
    · intro p x
      rw [EdgeTables.mem_insert_adjacency]
      simp [hknown]
    · simp [hknown]
    · simp
  · rw [if_pos hknown]
    refine ⟨_, rfl, h, ?_, ?_, rfl⟩
    · simp [hknown]
    · simp [hknown]

theorem EdgeTables.counted_empty :
    Kahn.Counted known EdgeTables.empty.adjacency EdgeTables.empty.indegree := by
  constructor
  · simp [EdgeTables.empty]
  · simp [EdgeTables.empty, producers]

theorem EdgeTables.foldlM_chargeDependency :
    ∀ (dependencies : List ImageDependency) {s : EdgeTables},
      Kahn.Counted known s.adjacency s.indegree →
      (∀ d ∈ dependencies, d.consumer ∈ known) →
      (∀ d ∈ dependencies, d.timing = .currentFrame → d.producer ≠ .program) →
      ∃ t, dependencies.foldlM (chargeDependency known .advanced) s = .ok t ∧
        Kahn.Counted known t.adjacency t.indegree ∧
        (∀ p x, x ∈ t.adjacency p ↔ x ∈ s.adjacency p ∨
          ∃ d ∈ dependencies, d.timing = .currentFrame ∧
            d.producer ∈ known ∧ p = d.producer ∧ x = d.consumer) ∧
        t.currentTaps = s.currentTaps + dependencies.countP (fun d => ChargedCurrent known d) ∧
        t.previousTaps = s.previousTaps + dependencies.countP (fun d => ChargedPrevious d)
  | [], s, h, _, _ => ⟨s, rfl, h, by simp, by simp, by simp⟩
  | d :: dependencies, s, h, hcons, hprod => by
      have hc := hcons d mem_cons_self
      have hrest : ∀ e ∈ dependencies, e.consumer ∈ known := fun e he =>
        hcons e (mem_cons_of_mem d he)
      have hrest' : ∀ e ∈ dependencies, e.timing = .currentFrame →
          e.producer ≠ .program := fun e he =>
        hprod e (mem_cons_of_mem d he)
      rw [foldlM_cons]
      by_cases htiming : d.timing = .previousFrame
      · have hstep : chargeDependency known .advanced s d =
            .ok { s with previousTaps := s.previousTaps + 1 } := by
          rw [chargeDependency, if_neg (not_not.mpr hc), if_pos htiming]
        obtain ⟨t, hfold, hcnt, hadj, hcur, hprevious⟩ :=
          foldlM_chargeDependency dependencies
            (s := { s with previousTaps := s.previousTaps + 1 }) h hrest hrest'
        refine ⟨t, by rw [hstep]; exact hfold, hcnt, ?_, ?_, ?_⟩
        · intro p x
          rw [hadj p x]
          simp [htiming]
        · rw [hcur, countP_cons_of_neg]
          simp [ChargedCurrent, htiming]
        · rw [hprevious, countP_cons_of_pos]
          · simp only
            omega
          · simp [ChargedPrevious, htiming]
      · have hcurrentFrame : d.timing = .currentFrame := by
          cases htime : d.timing with
          | currentFrame => rfl
          | previousFrame => exact absurd htime htiming
        obtain ⟨u, hstep, hu, hadd, htap, hprev⟩ := charge_ok 1 h
          (hprod d mem_cons_self hcurrentFrame) hc
        obtain ⟨t, hfold, hcnt, hadj, hcur, hprevious⟩ :=
          foldlM_chargeDependency dependencies hu hrest hrest'
        have hturn : chargeDependency known .advanced s d = .ok u := by
          rw [chargeDependency, if_neg (not_not.mpr hc), if_neg htiming, hstep]
        refine ⟨t, by rw [hturn]; exact hfold, hcnt, ?_, ?_, ?_⟩
        · intro p x
          rw [hadj p x, hadd p x]
          simp [hcurrentFrame, or_assoc]
        · rw [hcur, htap]
          by_cases hknown : d.producer ∈ known
          · rw [countP_cons_of_pos]
            · rw [if_pos hknown]
              omega
            · simp [ChargedCurrent, hcurrentFrame, hknown]
          · rw [countP_cons_of_neg]
            · rw [if_neg hknown]
              omega
            · simp [ChargedCurrent, hknown]
        · rw [hprevious, hprev, countP_cons_of_neg]
          simp [ChargedPrevious, hcurrentFrame]

theorem EdgeTables.foldlM_chargeOrdering :
    ∀ (edges : List ImageOrderingEdge) {s : EdgeTables},
      Kahn.Counted known s.adjacency s.indegree →
      (∀ e ∈ edges, e.consumer ∈ known) →
      (∀ e ∈ edges, e.producer ≠ .program) →
      ∃ t, edges.foldlM (chargeOrdering known .advanced) s = .ok t ∧
        Kahn.Counted known t.adjacency t.indegree ∧
        (∀ p x, x ∈ t.adjacency p ↔ x ∈ s.adjacency p ∨
          ∃ e ∈ edges, e.producer ∈ known ∧ p = e.producer ∧ x = e.consumer) ∧
        t.currentTaps = s.currentTaps ∧ t.previousTaps = s.previousTaps
  | [], s, h, _, _ => ⟨s, rfl, h, by simp, rfl, rfl⟩
  | e :: edges, s, h, hcons, hprod => by
      have hc := hcons e mem_cons_self
      obtain ⟨u, hstep, hu, hadd, htap, hprev⟩ := charge_ok 0 h (hprod e mem_cons_self) hc
      obtain ⟨t, hfold, hcnt, hadj, hcur, hprevious⟩ :=
        foldlM_chargeOrdering edges hu (fun e' he => hcons e' (mem_cons_of_mem e he))
          (fun e' he => hprod e' (mem_cons_of_mem e he))
      have hturn : chargeOrdering known .advanced s e = .ok u := by
        rw [chargeOrdering, if_neg (not_not.mpr hc), hstep]
      refine ⟨t, by rw [foldlM_cons, hturn]; exact hfold, hcnt, ?_, ?_, ?_⟩
      · intro p x
        rw [hadj p x, hadd p x]
        simp [or_assoc]
      · rw [hcur, htap]
        simp
      · rw [hprevious, hprev]

theorem foldlM_collectScope :
    ∀ (scopes : List VisualScopeId) {known : Finset VisualScopeId},
      scopes.Nodup → (∀ scope ∈ scopes, scope ∉ known) →
      scopes.foldlM collectScope known = .ok (known ∪ scopes.toFinset)
  | [], known, _, _ => by
      simp [pure, Except.pure]
  | scope :: scopes, known, hnd, hfresh => by
      obtain ⟨hout, hrest⟩ := nodup_cons.mp hnd
      have hstep : collectScope known scope = .ok (insert scope known) := by
        rw [collectScope, if_neg (hfresh scope mem_cons_self)]
      rw [foldlM_cons, hstep]
      refine (foldlM_collectScope scopes hrest ?_).trans ?_
      · intro other hother
        rw [mem_insert, not_or]
        refine ⟨?_, hfresh other (mem_cons_of_mem scope hother)⟩
        rintro rfl
        exact hout hother
      · congr 1
        ext x
        simp only [mem_union, mem_insert, toFinset_cons]
        tauto

end

section

variable {scopes : List VisualScopeId} {dependencies : List ImageDependency}
  {orderingEdges : List ImageOrderingEdge}

theorem exists_tables (h : Plannable scopes dependencies orderingEdges) :
    ∃ tables : EdgeTables,
      Kahn.Counted (knownScopes scopes) tables.adjacency tables.indegree ∧
      (∀ p x, x ∈ tables.adjacency p ↔ Precedes scopes dependencies orderingEdges p x) ∧
      tables.currentTaps = dependencies.countP (fun d => ChargedCurrent (knownScopes scopes) d) ∧
      tables.previousTaps = dependencies.countP (fun d => ChargedPrevious d) ∧
      validateWithOrderingEdges scopes dependencies orderingEdges .advanced =
        (let sorted := Kahn.sort (knownScopes scopes) tables.adjacency tables.indegree
        if sorted.order.length ≠ (knownScopes scopes).card then
          .error (.currentCycle (((knownScopes scopes).filter fun scope =>
            sorted.indegree scope ≠ 0).sort))
        else
          .ok ⟨sorted.order, tables.currentTaps, tables.previousTaps, tables.diagnostics⟩) := by
  have hcollect : (scopes ++ [VisualScopeId.program]).foldlM collectScope ∅ =
      .ok (knownScopes scopes) := by
    rw [foldlM_collectScope (scopes ++ [VisualScopeId.program]) ?_ (by simp)]
    · rw [empty_union, knownScopes]
    · apply nodup_append.mpr
      refine ⟨h.nodup, nodup_singleton _, ?_⟩
      intro a ha b hb hab
      rw [hab, List.mem_singleton.mp hb] at ha
      exact h.not_program ha
  obtain ⟨charged, hcharge, hcnt, hadj, hcur, hprev⟩ :=
    EdgeTables.foldlM_chargeDependency dependencies EdgeTables.counted_empty h.consumer_mem
      h.producer_ne
  obtain ⟨tables, hordering, hcounted', hadjacency', hcurrent', hprevious'⟩ :=
    EdgeTables.foldlM_chargeOrdering orderingEdges hcnt h.ordering_mem h.ordering_ne
  simp only [EdgeTables.empty, zero_add] at hcur hprev
  refine ⟨tables, hcounted', ?_, ?_, ?_, ?_⟩
  · intro p x
    simp only [Precedes, hadjacency' p x, hadj p x, EdgeTables.empty]
    constructor
    · rintro ((hin | ⟨d, hd, htiming, hp, rfl, rfl⟩) | ⟨e, he, hp, rfl, rfl⟩)
      · exact absurd hin (notMem_empty x)
      · exact ⟨hp, h.consumer_mem d hd, .inl ⟨d, hd, htiming, rfl, rfl⟩⟩
      · exact ⟨hp, h.ordering_mem e he, .inr ⟨e, he, rfl, rfl⟩⟩
    · rintro ⟨hp, hx, ⟨d, hd, htiming, rfl, rfl⟩ | ⟨e, he, rfl, rfl⟩⟩
      · exact .inl (.inr ⟨d, hd, htiming, hp, rfl, rfl⟩)
      · exact .inr ⟨e, he, hp, rfl, rfl⟩
  · rw [hcurrent', hcur]
  · rw [hprevious', hprev]
  · have hcurrent_le : ¬maxCurrentImageTaps < charged.currentTaps := by
      rw [hcur]
      exact not_lt.mpr h.current_le
    have hprevious_le : ¬maxPreviousImageTaps < charged.previousTaps := by
      rw [hprev]
      exact not_lt.mpr h.previous_le
    simp only [validateWithOrderingEdges, if_neg (not_lt.mpr h.scopes_le),
      if_neg (not_lt.mpr h.dependencies_le), hcollect, hcharge, hordering, if_neg hcurrent_le,
      if_neg hprevious_le, bind, Except.bind, pure, Except.pure]
    split <;> rfl

theorem mem_knownScopes {x : VisualScopeId} :
    x ∈ knownScopes scopes ↔ x ∈ scopes ∨ x = .program := by
  simp [knownScopes, or_comm]

theorem exists_plan_iff (h : Plannable scopes dependencies orderingEdges) :
    (∃ plan, validateWithOrderingEdges scopes dependencies orderingEdges .advanced = .ok plan) ↔
      ∀ x, ¬TransGen (Precedes scopes dependencies orderingEdges) x x := by
  obtain ⟨tables, hcnt, hadj, -, -, hvalidate⟩ := exists_tables h
  have hedge : Edge (knownScopes scopes) tables.adjacency =
      Precedes scopes dependencies orderingEdges := by
    ext p x
    rw [Edge, hadj p x]
    exact ⟨And.right, fun hp => ⟨hp.1, hp⟩⟩
  have hcomp := (sort_drained hcnt).complete_iff hcnt.closed
  rw [hedge] at hcomp
  rw [← hcomp, hvalidate]
  by_cases hlen : (sort (knownScopes scopes) tables.adjacency
      tables.indegree).order.length = (knownScopes scopes).card
  · simp [hlen]
  · simp [hlen]

/-- The validator decides same-frame cyclicity exactly, orders producers before
consumers whatever the order and multiplicity of its lists, and otherwise
reports a whole cycle with what hangs on one. -/
theorem validateWithOrderingEdges_exact (h : Plannable scopes dependencies orderingEdges) :
    ((∃ plan, validateWithOrderingEdges scopes dependencies orderingEdges .advanced = .ok plan) ↔
      ∀ x, ¬TransGen (Precedes scopes dependencies orderingEdges) x x) ∧
    (∀ plan, validateWithOrderingEdges scopes dependencies orderingEdges .advanced = .ok plan →
      plan.currentTopologicalOrder.Nodup ∧
      (∀ x, x ∈ plan.currentTopologicalOrder ↔ x ∈ scopes ∨ x = .program) ∧
      (∀ p x, Precedes scopes dependencies orderingEdges p x →
        plan.currentTopologicalOrder.idxOf p < plan.currentTopologicalOrder.idxOf x) ∧
      plan.currentTaps = dependencies.countP (fun d => ChargedCurrent (knownScopes scopes) d) ∧
      plan.previousTaps = dependencies.countP (fun d => ChargedPrevious d) ∧
      ∀ dependencies' orderingEdges',
        Plannable scopes dependencies' orderingEdges' →
        (∀ d, d ∈ dependencies' ↔ d ∈ dependencies) →
        (∀ e, e ∈ orderingEdges' ↔ e ∈ orderingEdges) →
        ∃ plan', validateWithOrderingEdges scopes dependencies' orderingEdges'
            .advanced = .ok plan' ∧
          plan'.currentTopologicalOrder = plan.currentTopologicalOrder) ∧
    (∀ error, validateWithOrderingEdges scopes dependencies orderingEdges .advanced = .error error →
      ∃ reported, error = .currentCycle reported ∧
        (∀ x ∈ reported, ∃ y,
          TransGen (Precedes scopes dependencies orderingEdges) y y ∧
          ReflTransGen (Precedes scopes dependencies orderingEdges) y x) ∧
        ∃ x ∈ reported, TransGen (fun p y => p ∈ reported ∧ y ∈ reported ∧
          Precedes scopes dependencies orderingEdges p y) x x) := by
  obtain ⟨tables, hcounted, hadjacency, hcurrent, hprevious, hvalidate⟩ := exists_tables h
  have hedge : Edge (knownScopes scopes) tables.adjacency =
      Precedes scopes dependencies orderingEdges := by
    ext p x
    rw [Edge, hadjacency p x]
    exact ⟨And.right, fun hp => ⟨hp.1, hp⟩⟩
  generalize hsorted : sort (knownScopes scopes) tables.adjacency
    tables.indegree = sorted at hvalidate
  have hdrained : Drained (knownScopes scopes) tables.adjacency sorted :=
    hsorted ▸ sort_drained hcounted
  refine ⟨exists_plan_iff h, ?_, ?_⟩
  · intro plan hplan
    rw [hvalidate] at hplan
    by_cases hlen : sorted.order.length = (knownScopes scopes).card
    · rw [if_neg (not_not.mpr hlen)] at hplan
      cases hplan
      have hmem : ∀ x, x ∈ sorted.order ↔ x ∈ knownScopes scopes := hdrained.mem_order_iff hlen
      refine ⟨hdrained.nodup, ?_, ?_, hcurrent, hprevious, ?_⟩
      · intro x
        exact (hmem x).trans mem_knownScopes
      · intro p x hpx
        have hx := (hmem x).mpr hpx.2.1
        rw [← hedge] at hpx
        exact hdrained.idxOf_lt_of_edge hx hpx
      · intro dependencies' orderingEdges' h' hdependencies hedges
        obtain ⟨tables', hcounted', hadjacency', -, -, hvalidate'⟩ := exists_tables h'
        have hsame : tables'.adjacency = tables.adjacency := by
          ext p x
          rw [hadjacency' p x, hadjacency p x]
          simp only [Precedes, hdependencies, hedges]
        have hcount : tables'.indegree = tables.indegree := by
          ext x
          rw [hcounted'.indegree_eq x, hcounted.indegree_eq x, hsame]
        rw [hsame, hcount, hsorted] at hvalidate'
        exact ⟨_, hvalidate'.trans (if_neg (not_not.mpr hlen)), rfl⟩
    · rw [if_pos hlen] at hplan
      cases hplan
  · intro error herror
    rw [hvalidate] at herror
    by_cases hlen : sorted.order.length = (knownScopes scopes).card
    · rw [if_neg (not_not.mpr hlen)] at herror
      cases herror
    · rw [if_pos hlen] at herror
      cases herror
      have hleft : ∀ x, x ∈ (knownScopes scopes).filter (fun scope => sorted.indegree scope ≠ 0) ↔
          x ∈ knownScopes scopes ∧ x ∉ sorted.order := by
        intro x
        rw [Finset.mem_filter]
        exact and_congr_right fun hknown => hdrained.indegree_ne_zero_iff hknown
      have hpred : ∀ x ∈ (knownScopes scopes).filter (fun scope => sorted.indegree scope ≠ 0),
          ∃ p ∈ (knownScopes scopes).filter (fun scope => sorted.indegree scope ≠ 0),
            Precedes scopes dependencies orderingEdges p x := by
        intro x hx
        obtain ⟨hknown, hout⟩ := (hleft x).mp hx
        obtain ⟨p, hp, hpout, hstep⟩ := hdrained.exists_producer_left hknown hout
        rw [hedge] at hstep
        exact ⟨p, (hleft p).mpr ⟨hp, hpout⟩, hstep⟩
      refine ⟨_, rfl, ?_, ?_⟩
      · intro x hx
        obtain ⟨y, -, hcycle, hpath⟩ := exists_cycle_upstream hpred ((mem_sort _).mp hx)
        exact ⟨y, hcycle, hpath⟩
      · have hnonempty : ((knownScopes scopes).filter
            (fun scope => sorted.indegree scope ≠ 0)).Nonempty := by
          obtain ⟨x, hknown, hout⟩ := hdrained.exists_left hlen
          exact ⟨x, (hleft x).mpr ⟨hknown, hout⟩⟩
        obtain ⟨x, hx, hcycle⟩ := exists_cycle hnonempty hpred
        refine ⟨x, (mem_sort _).mpr hx, ?_⟩
        simpa only [mem_sort] using hcycle

/-- A plan with one ordering edge is accepted, and its producer is first. -/
theorem validateWithOrderingEdges_exact_master :
    ∃ plan, validateWithOrderingEdges [.master] [] [⟨.master, .program⟩] .advanced = .ok plan ∧
      plan.currentTopologicalOrder.idxOf .master < plan.currentTopologicalOrder.idxOf .program := by
  have hplannable : Plannable [.master] [] [⟨.master, .program⟩] := by constructor <;> decide
  obtain ⟨hiff, hok, -⟩ := validateWithOrderingEdges_exact hplannable
  have hedge : ∀ {p x}, Precedes [.master] [] [⟨.master, .program⟩] p x →
      p = .master ∧ x = .program := by
    intro p x hpx
    simpa [Precedes, eq_comm] using hpx.2.2
  obtain ⟨plan, hplan⟩ := hiff.mpr (by
    intro x hcycle
    obtain ⟨y, hfirst, -⟩ := (TransGen.head'_iff).mp hcycle
    obtain ⟨z, -, hlast⟩ := (TransGen.tail'_iff).mp hcycle
    exact absurd ((hedge hfirst).1.symm.trans (hedge hlast).2) (by decide))
  refine ⟨plan, hplan, (hok plan hplan).2.2.1 _ _ ?_⟩
  exact ⟨by decide, by decide, .inr ⟨_, List.mem_singleton_self _, rfl, rfl⟩⟩

end

end CollideOScope.Composition
