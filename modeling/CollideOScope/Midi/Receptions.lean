import CollideOScope.Midi.Decoder

/-!
# What a message does to each binding

A message reaches the bindings it matches in profile order.  Each of them is
silent, emits its event, or loses the event to the output bound.  These
receptions determine the decoder's output, its report and its button states.
-/

namespace CollideOScope.Midi

open List

open CollideOScope.Control

/-- What one matching binding did with a message. -/
inductive Outcome (F : Type)
  | silent
  | emitted (value : AutomationValue F)
  | dropped

def Outcome.value? {F : Type} : Outcome F → Option (AutomationValue F)
  | .emitted value => some value
  | .silent => none
  | .dropped => none

def Outcome.isDropped {F : Type} : Outcome F → Bool
  | .dropped => true
  | .silent => false
  | .emitted _ => false

section

variable {F : Type} [MidiFloat F]
variable {timestampUs : UInt64} {message : ChannelMessage} {outputLimit : ℕ}
variable {pass : Pass F} {binding : ResolvedControllerBinding F}

namespace Pass

def outcome (message : ChannelMessage) (outputLimit : ℕ) (pass : Pass F)
    (binding : ResolvedControllerBinding F) : Outcome F :=
  match (binding.reading pass.buttons message).1 with
  | none => .silent
  | some value => if pass.output.length < outputLimit then .emitted value else .dropped

def receptions (timestampUs : UInt64) (message : ChannelMessage) (outputLimit : ℕ) :
    Pass F → List (ResolvedControllerBinding F) → List (ResolvedControllerBinding F × Outcome F)
  | _, [] => []
  | pass, binding :: rest =>
    let later :=
      receptions timestampUs message outputLimit
        (pass.visit timestampUs message outputLimit binding) rest
    if binding.matchesMessage message then
      (binding, pass.outcome message outputLimit binding) :: later
    else later

end Pass

omit [MidiFloat F] in
def receptionEvent (timestampUs : UInt64) (reception : ResolvedControllerBinding F × Outcome F) :
    Option (ControllerEvent F) :=
  reception.2.value?.map fun value =>
    { timestampUs
      origin := .midi
      kind := .control reception.1.id reception.1.target value }

@[simp]
theorem Buttons.state_insert_self (buttons : Buttons) (id : UInt16) (state : ButtonState) :
    Buttons.state (buttons.insert id state) id = state := by
  simp [Buttons.state]

namespace Pass

omit [MidiFloat F] in
@[simp]
theorem commit_output (pass : Pass F) (id : UInt16) (change : Option (ButtonState × ButtonState)) :
    (pass.commit id change).output = pass.output := by
  rcases change with _ | ⟨prior, candidate⟩
  · rfl
  · simp only [commit]
    split <;> rfl

omit [MidiFloat F] in
theorem commit_report (pass : Pass F) (id : UInt16) (change : Option (ButtonState × ButtonState)) :
    ∃ changed, (pass.commit id change).report = { pass.report with stateChanged := changed } := by
  rcases change with _ | ⟨prior, candidate⟩
  · exact ⟨_, rfl⟩
  · simp only [commit]
    split
    · exact ⟨true, rfl⟩
    · exact ⟨_, rfl⟩

variable {id : UInt16}

omit [MidiFloat F] in
theorem commit_lookup_ne (pass : Pass F) {other : UInt16} (hne : other ≠ id)
    (change : Option (ButtonState × ButtonState)) :
    (pass.commit id change).buttons.lookup other = pass.buttons.lookup other := by
  rcases change with _ | ⟨prior, candidate⟩
  · rfl
  · simp only [commit]
    split
    · exact AList.lookup_insert_ne hne
    · rfl

omit [MidiFloat F] in
theorem commit_state (pass : Pass F) (id : UInt16) (candidate : ButtonState) :
    (pass.commit id (some (pass.buttons.state id, candidate))).buttons.state id = candidate := by
  simp only [commit]
  split
  · exact Buttons.state_insert_self _ _ _
  · rename_i h
    exact (not_not.mp h).symm

theorem visit_unmatched (h : binding.matchesMessage message = false) :
    pass.visit timestampUs message outputLimit binding = pass := by
  simp [visit, h]

theorem visit_matched (timestampUs : UInt64) (outputLimit : ℕ)
    (pass : Pass F) (h : binding.matchesMessage message) :
    ((binding.reading pass.buttons message).1 = none ∧
      pass.visit timestampUs message outputLimit binding =
        pass.matched.commit binding.id (binding.reading pass.buttons message).2) ∨
    (∃ value, (binding.reading pass.buttons message).1 = some value ∧
      pass.output.length < outputLimit ∧
      pass.visit timestampUs message outputLimit binding =
        (pass.matched.emit
          { timestampUs
            origin := .midi
            kind := .control binding.id binding.target value }).commit
          binding.id (binding.reading pass.buttons message).2) ∨
    (∃ value, (binding.reading pass.buttons message).1 = some value ∧
      outputLimit ≤ pass.output.length ∧
      pass.visit timestampUs message outputLimit binding = pass.matched.drop) := by
  rcases hreading : binding.reading pass.buttons message with ⟨value, change⟩
  have hmatched : binding.reading pass.matched.buttons message = (value, change) := hreading
  cases value with
  | none =>
    refine .inl ⟨rfl, ?_⟩
    simp [visit, h, hmatched]
  | some value =>
    by_cases hroom : pass.output.length < outputLimit
    · refine .inr (.inl ⟨value, rfl, hroom, ?_⟩)
      have hroom' : pass.matched.output.length < outputLimit := hroom
      simp [visit, h, hmatched, if_pos hroom']
    · refine .inr (.inr ⟨value, rfl, not_lt.mp hroom, ?_⟩)
      have hroom' : ¬pass.matched.output.length < outputLimit := hroom
      simp [visit, h, hmatched, if_neg hroom']

theorem visit_lookup_ne (hne : id ≠ binding.id) :
    (pass.visit timestampUs message outputLimit binding).buttons.lookup id =
      pass.buttons.lookup id := by
  by_cases h : binding.matchesMessage message
  · rcases visit_matched timestampUs outputLimit pass h with
      ⟨-, hvisit⟩ | ⟨value, -, -, hvisit⟩ | ⟨value, -, -, hvisit⟩
    · rw [hvisit]
      exact commit_lookup_ne _ hne _
    · rw [hvisit]
      exact commit_lookup_ne _ hne _
    · rw [hvisit]
      rfl
  · rw [visit_unmatched (by simpa using h)]

theorem visit_output (h : binding.matchesMessage message) :
    (pass.visit timestampUs message outputLimit binding).output =
      pass.output ++ (receptionEvent timestampUs
        (binding, pass.outcome message outputLimit binding)).toList := by
  rcases visit_matched timestampUs outputLimit pass h with
    ⟨hnone, hvisit⟩ | ⟨value, hsome, hroom, hvisit⟩ |
      ⟨value, hsome, hfull, hvisit⟩
  · simp [hvisit, outcome, hnone, receptionEvent, Outcome.value?, matched]
  · simp [hvisit, outcome, hsome, hroom, receptionEvent, Outcome.value?, matched, emit]
  · simp [hvisit, outcome, hsome, not_lt.mpr hfull, receptionEvent, Outcome.value?, matched, drop]

theorem visit_buttons_of_dropped (h : binding.matchesMessage message)
    (hdrop : pass.outcome message outputLimit binding = .dropped) :
    (pass.visit timestampUs message outputLimit binding).buttons = pass.buttons := by
  rcases visit_matched timestampUs outputLimit pass h with
    ⟨hnone, hvisit⟩ | ⟨value, hsome, hroom, hvisit⟩ |
      ⟨value, hsome, hfull, hvisit⟩
  · simp [outcome, hnone] at hdrop
  · simp [outcome, hsome, hroom] at hdrop
  · rw [hvisit]
    rfl

theorem full_of_dropped (hdrop : pass.outcome message outputLimit binding = .dropped) :
    outputLimit ≤ pass.output.length := by
  unfold outcome at hdrop
  split at hdrop
  · cases hdrop
  · split at hdrop
    · cases hdrop
    · rename_i h
      exact not_lt.mp h

variable {bindings : List (ResolvedControllerBinding F)}

theorem receptions_bindings :
    (receptions timestampUs message outputLimit pass bindings).map Prod.fst =
      bindings.filter (·.matchesMessage message) := by
  induction bindings generalizing pass with
  | nil => rfl
  | cons binding rest ih =>
    simp only [receptions, filter_cons]
    split
    · rw [map_cons, ih]
    · exact ih

theorem foldl_visit_output :
    (bindings.foldl (visit timestampUs message outputLimit) pass).output =
      pass.output ++
        (receptions timestampUs message outputLimit pass bindings).filterMap
          (receptionEvent timestampUs) := by
  induction bindings generalizing pass with
  | nil => simp [receptions]
  | cons binding rest ih =>
    rw [foldl_cons, ih]
    simp only [receptions]
    by_cases h : binding.matchesMessage message
    · rw [visit_output h, if_pos h, filterMap_cons]
      cases hev : receptionEvent timestampUs
        (binding, pass.outcome message outputLimit binding) with
      | none | some event => simp
    · rw [visit_unmatched (by simpa using h), if_neg h]

theorem full_of_mem_receptions
    (hmem : (binding, Outcome.dropped) ∈ receptions timestampUs message outputLimit pass bindings) :
    outputLimit ≤ (bindings.foldl (visit timestampUs message outputLimit) pass).output.length := by
  induction bindings generalizing pass with
  | nil => cases hmem
  | cons first rest ih =>
    simp only [receptions] at hmem
    by_cases h : first.matchesMessage message
    · rw [if_pos h] at hmem
      rcases mem_cons.mp hmem with heq | hmem
      · have hdrop := (congrArg Prod.snd heq).symm
        refine le_trans (full_of_dropped hdrop) ?_
        rw [foldl_visit_output, length_append]
        exact Nat.le_add_right _ _
      · exact ih hmem
    · rw [if_neg h] at hmem
      exact ih hmem

theorem foldl_visit_lookup_ne (hne : ∀ binding ∈ bindings, id ≠ binding.id) :
    (bindings.foldl (visit timestampUs message outputLimit)
      pass).buttons.lookup id = pass.buttons.lookup id := by
  induction bindings generalizing pass with
  | nil => rfl
  | cons binding rest ih =>
    rw [foldl_cons, ih fun other hother => hne other (mem_cons_of_mem _ hother)]
    exact visit_lookup_ne (hne binding mem_cons_self)

theorem exists_visit (timestampUs : UInt64) (message : ChannelMessage) (outputLimit : ℕ)
    (pass : Pass F) (hids : (bindings.map (·.id)).Nodup) (hmem : binding ∈ bindings) :
    ∃ before : Pass F,
      before.buttons.lookup binding.id = pass.buttons.lookup binding.id ∧
      (bindings.foldl (visit timestampUs message outputLimit) pass).buttons.lookup binding.id =
        (before.visit timestampUs message outputLimit binding).buttons.lookup binding.id ∧
      (receptions timestampUs message outputLimit pass bindings).find? (·.1.id == binding.id) =
        if binding.matchesMessage message then
          some (binding, before.outcome message outputLimit binding)
        else none := by
  induction bindings generalizing pass with
  | nil => cases hmem
  | cons first rest ih =>
    rw [map_cons, nodup_cons] at hids
    obtain ⟨hfst, hrest⟩ := hids
    rcases mem_cons.mp hmem with rfl | hmem
    · have hother : ∀ other ∈ rest, binding.id ≠ other.id :=
        fun other hother heq => hfst (heq ▸ mem_map_of_mem hother)
      refine ⟨pass, rfl, foldl_visit_lookup_ne hother, ?_⟩
      simp only [receptions]
      split
      · rw [find?_cons_of_pos (by simp)]
      · refine find?_eq_none.mpr fun reception hreception heq => ?_
        have hbinding : reception.1 ∈
            (receptions timestampUs message outputLimit
              (pass.visit timestampUs message outputLimit binding)
              rest).map Prod.fst := mem_map_of_mem hreception
        rw [receptions_bindings] at hbinding
        exact hother _ (mem_of_mem_filter hbinding) (by simpa using (beq_iff_eq.mp heq).symm)
    · have hne : binding.id ≠ first.id := fun heq => hfst (heq ▸ mem_map_of_mem hmem)
      obtain ⟨before, hpre, hfold, hfind⟩ :=
        ih (pass.visit timestampUs message outputLimit first) hrest hmem
      refine ⟨before, hpre.trans (visit_lookup_ne hne), hfold, ?_⟩
      rw [← hfind]
      simp only [receptions]
      split
      · exact find?_cons_of_neg (by simpa using hne.symm)
      · rfl

abbrev emittedCount (receptions : List (ResolvedControllerBinding F × Outcome F)) : ℕ :=
  receptions.countP (·.2.value?.isSome)

/-- How many of the receptions lost their event. -/
abbrev droppedCount (receptions : List (ResolvedControllerBinding F × Outcome F)) : ℕ :=
  receptions.countP (·.2.isDropped)

theorem visit_report (timestampUs : UInt64) (outputLimit : ℕ)
    (pass : Pass F) (h : binding.matchesMessage message) :
    ∃ changed,
      (pass.visit timestampUs message outputLimit binding).report =
        ⟨saturatingAddU64 pass.report.matchedBindings 1,
          if (pass.outcome message outputLimit binding).value?.isSome then
            saturatingAddU64 pass.report.emittedEvents 1
          else pass.report.emittedEvents,
          if (pass.outcome message outputLimit binding).isDropped then
            saturatingAddU64 pass.report.droppedEvents 1
          else pass.report.droppedEvents, changed⟩ := by
  rcases visit_matched timestampUs outputLimit pass h with
    ⟨hnone, hvisit⟩ | ⟨value, hsome, hroom, hvisit⟩ |
      ⟨value, hsome, hfull, hvisit⟩
  · obtain ⟨changed, hrep⟩ := commit_report pass.matched binding.id
      (binding.reading pass.buttons message).2
    refine ⟨changed, ?_⟩
    rw [hvisit, hrep]
    simp [outcome, hnone, Outcome.value?, Outcome.isDropped, matched]
  · obtain ⟨changed, hrep⟩ := commit_report
      (pass.matched.emit
        { timestampUs
          origin := .midi
          kind := .control binding.id binding.target value }) binding.id
      (binding.reading pass.buttons message).2
    refine ⟨changed, ?_⟩
    rw [hvisit, hrep]
    simp [outcome, hsome, hroom, Outcome.value?, Outcome.isDropped, matched, emit]
  · refine ⟨pass.report.stateChanged, ?_⟩
    simp [hvisit, outcome, hsome, not_lt.mpr hfull, Outcome.value?,
      Outcome.isDropped, matched, drop]

theorem foldl_visit_report (timestampUs : UInt64) (message : ChannelMessage) (outputLimit : ℕ)
    (pass : Pass F) (bindings : List (ResolvedControllerBinding F)) (counted : ℕ)
    (hmatched : pass.report.matchedBindings ≤ counted) (hemit : pass.report.emittedEvents ≤ counted)
    (hdrop : pass.report.droppedEvents ≤ counted) (hbd : counted + bindings.length ≤ u64Max) :
    ∃ changed,
      (bindings.foldl (visit timestampUs message outputLimit) pass).report =
        ⟨pass.report.matchedBindings +
            (receptions timestampUs message outputLimit pass bindings).length,
          pass.report.emittedEvents + emittedCount
            (receptions timestampUs message outputLimit pass bindings),
          pass.report.droppedEvents + droppedCount
            (receptions timestampUs message outputLimit pass bindings),
          changed⟩ := by
  induction bindings generalizing pass counted with
  | nil => exact ⟨pass.report.stateChanged, rfl⟩
  | cons binding rest ih =>
    rw [length_cons] at hbd
    rw [foldl_cons]
    simp only [receptions]
    by_cases h : binding.matchesMessage message
    · obtain ⟨changed, hrep⟩ := visit_report timestampUs outputLimit pass h
      have hadd : ∀ n ≤ counted, saturatingAddU64 n 1 = n + 1 :=
        fun n hn => saturatingAddU64_of_le (by omega)
      rw [hadd _ hmatched, hadd _ hemit, hadd _ hdrop] at hrep
      obtain ⟨changed', hfold⟩ :=
        ih (pass.visit timestampUs message outputLimit binding) (counted + 1)
          (by rw [hrep]; exact Nat.succ_le_succ hmatched)
          (by rw [hrep]; dsimp only; split <;> omega)
          (by rw [hrep]; dsimp only; split <;> omega)
          (by omega)
      refine ⟨changed', ?_⟩
      rw [hfold, hrep, if_pos h, length_cons]
      simp only [emittedCount, droppedCount, countP_cons]
      congr 1
      · omega
      · split <;> omega
      · split <;> omega
    · rw [visit_unmatched (by simpa using h), if_neg h]
      exact ih pass counted hmatched hemit hdrop (by omega)

end Pass

end

end CollideOScope.Midi
