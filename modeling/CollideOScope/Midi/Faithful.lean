import CollideOScope.Midi.Receptions

/-!
# Button edges

For one button, a run of messages is a sequence of observations: the pressed
state each matching message carries and what became of its event.  The sequence
is a run of the button's own edge detector, in which a dropped event is a step
that does not happen.
-/

namespace CollideOScope.Midi

open Nat List

open CollideOScope.Control

structure Observation (F : Type) where
  pressed : Bool
  outcome : Outcome F

namespace Observation

variable {F : Type}

def Observed (o : Observation F) : Prop := o.outcome.isDropped = false

def Emits (o : Observation F) : Prop := o.outcome.value?.isSome

end Observation

section

variable {F : Type}

def emittedValues (trace : List (Observation F)) : List (AutomationValue F) :=
  trace.filterMap (·.outcome.value?)

def lastObserved (trace : List (Observation F)) : Bool :=
  ((trace.filter fun o => !o.outcome.isDropped).getLast?.map (·.pressed)).getD false

def lastGate (values : List (AutomationValue F)) : Bool :=
  match values.getLast? with
  | some (.gate value) => value
  | _ => false

/-- Gates that alternate, starting with `Gate(true)`. -/
def Alternates (values : List (AutomationValue F)) : Prop :=
  ∀ (i : ℕ) (value : AutomationValue F), values[i]? = some value → value = .gate (i % 2 == 0)

def SeparatedByRelease (trace : List (Observation F)) : Prop :=
  ∀ before first between second,
    before ++ first :: between ++ [second] <+: trace →
    first.Emits → second.Emits →
    ∃ o ∈ between, o.Observed ∧ o.pressed = false

def EmitsOnPress (trace : List (Observation F)) : Prop :=
  ∀ before o, before ++ [o] <+: trace → o.Observed →
    (o.Emits ↔ o.pressed = true ∧ lastObserved before = false)

structure GateFaithful (trace : List (Observation F)) : Prop where
  alternates : Alternates (emittedValues trace)
  tracks : ∀ before o, before ++ [o] <+: trace → o.Observed →
    lastGate (emittedValues (before ++ [o])) = o.pressed

structure ToggleFaithful (trace : List (Observation F)) : Prop where
  alternates : Alternates (emittedValues trace)
  presses : EmitsOnPress trace
  separated : SeparatedByRelease trace

structure MomentaryFaithful (trace : List (Observation F)) : Prop where
  triggers : ∀ value ∈ emittedValues trace, value = .trigger
  presses : EmitsOnPress trace
  separated : SeparatedByRelease trace

def MidiButtonMode.Faithful (mode : MidiButtonMode) (trace : List (Observation F)) : Prop :=
  match mode with
  | .gate => GateFaithful trace
  | .toggle => ToggleFaithful trace
  | .momentary => MomentaryFaithful trace

variable {o : Observation F} {trace : List (Observation F)}

open Observation

theorem lastObserved_concat_dropped
    (h : ¬o.Observed) : lastObserved (trace ++ [o]) = lastObserved trace := by
  simp only [Observed, Bool.not_eq_false] at h
  simp [lastObserved, filter_append, h]

theorem lastObserved_concat_observed
    (h : o.Observed) : lastObserved (trace ++ [o]) = o.pressed := by
  simp only [Observed] at h
  simp [lastObserved, filter_append, h]

theorem exists_release {before between : List (Observation F)} (hobs : o.Observed)
    (hpressed : o.pressed = true) (hlast : lastObserved (before ++ o :: between) = false) :
    ∃ r ∈ between, r.Observed ∧ r.pressed = false := by
  induction between using reverseRecOn with
  | nil =>
    rw [lastObserved_concat_observed hobs, hpressed] at hlast
    cases hlast
  | append_singleton between r ih =>
    rw [← cons_append, ← append_assoc] at hlast
    by_cases hr : r.Observed
    · rw [lastObserved_concat_observed hr] at hlast
      exact ⟨r, by simp, hr, hlast⟩
    · rw [lastObserved_concat_dropped hr] at hlast
      obtain ⟨r', hmem, hr'⟩ := ih hlast
      exact ⟨r', mem_append_left _ hmem, hr'⟩

theorem Observation.Emits.observed (h : o.Emits) : o.Observed := by
  cases ho : o.outcome with
  | silent | dropped => simp [Emits, ho, Outcome.value?] at h
  | emitted value => simp [Observed, ho, Outcome.isDropped]

theorem EmitsOnPress.separated (h : EmitsOnPress trace) : SeparatedByRelease trace := by
  intro before first between second hpre hfst hsnd
  have hprefix' : before ++ [first] <+: trace :=
    List.IsPrefix.trans ⟨between ++ [second], by simp⟩ hpre
  obtain ⟨hpressed, -⟩ := (h _ _ hprefix' hfst.observed).mp hfst
  obtain ⟨-, hrel⟩ := (h _ _ hpre hsnd.observed).mp hsnd
  exact exists_release hfst.observed hpressed hrel

theorem Alternates.nil : Alternates ([] : List (AutomationValue F)) := by
  intro i value hval
  simp at hval

theorem Alternates.concat {values : List (AutomationValue F)} {value : AutomationValue F}
    (h : Alternates values) (hval : value = .gate (values.length % 2 == 0)) :
    Alternates (values ++ [value]) := by
  intro i v hv
  rcases lt_trichotomy i values.length with hlt | rfl | hgt
  · rw [getElem?_append_left hlt] at hv
    exact h i v hv
  · rw [getElem?_concat_length] at hv
    rw [← Option.some.inj hv, hval]
  · have hlen : (values ++ [value]).length ≤ i := by
      rw [length_append]
      exact hgt
    rw [getElem?_eq_none hlen] at hv
    cases hv

@[simp]
theorem emittedValues_concat (trace : List (Observation F)) (o : Observation F) :
    emittedValues (trace ++ [o]) = emittedValues trace ++ o.outcome.value?.toList := by
  cases h : o.outcome.value? <;> simp [emittedValues, h]

inductive ButtonRun (mode : MidiButtonMode) : List (Observation F) → ButtonState → Prop
  | start : ButtonRun mode [] .released
  | silent {trace : List (Observation F)} {state : ButtonState}
      (pressed : Bool) (run : ButtonRun mode trace state)
      (none : (mode.candidate (F := F) state pressed).1 = none) :
      ButtonRun mode (trace ++ [⟨pressed, .silent⟩]) (mode.candidate (F := F) state pressed).2
  | emitted {trace : List (Observation F)} {state : ButtonState}
      (pressed : Bool) (value : AutomationValue F)
      (run : ButtonRun mode trace state)
      (some : (mode.candidate state pressed).1 = some value) :
      ButtonRun mode (trace ++ [⟨pressed, .emitted value⟩])
        (mode.candidate (F := F) state pressed).2
  | dropped {trace : List (Observation F)} {state : ButtonState}
      (pressed : Bool) (run : ButtonRun mode trace state) :
      ButtonRun mode (trace ++ [⟨pressed, .dropped⟩]) state

namespace ButtonRun

variable {mode : MidiButtonMode} {trace : List (Observation F)}
variable {state : ButtonState}

theorem prefix_run {front : List (Observation F)}
    (h : ButtonRun mode trace state) (hfront : front <+: trace) :
    ∃ state, ButtonRun mode front state := by
  induction h with
  | start =>
    rw [prefix_nil.mp hfront]
    exact ⟨_, .start⟩
  | silent pressed run none ih =>
    rcases prefix_concat_iff.mp hfront with rfl | hfront
    · exact ⟨_, .silent pressed run none⟩
    · exact ih hfront
  | emitted pressed value run some ih =>
    rcases prefix_concat_iff.mp hfront with rfl | hfront
    · exact ⟨_, .emitted pressed value run some⟩
    · exact ih hfront
  | dropped pressed run ih =>
    rcases prefix_concat_iff.mp hfront with rfl | hfront
    · exact ⟨_, .dropped pressed run⟩
    · exact ih hfront

open MidiButtonMode

theorem candidate_pressed (mode : MidiButtonMode) (state : ButtonState) (pressed : Bool) :
    (mode.candidate (F := F) state pressed).2.pressed = pressed := by
  cases mode with
  | momentary | gate => rfl
  | toggle =>
    simp only [candidate]
    split <;> rfl

theorem pressed_eq (h : ButtonRun mode trace state) : state.pressed = lastObserved trace := by
  induction h with
  | start => rfl
  | silent pressed _ _ _ | emitted pressed _ _ _ _ =>
    rw [lastObserved_concat_observed (by rfl)]
    exact candidate_pressed (F := F) mode _ pressed
  | dropped pressed _ ih =>
    rw [lastObserved_concat_dropped (by simp [Observed, Outcome.isDropped])]
    exact ih

theorem emits_iff {before : List (Observation F)} {o : Observation F}
    (h : ButtonRun mode (before ++ [o]) state) (hobs : o.Observed) :
    ∃ prior, ButtonRun mode before prior ∧
      o.outcome.value? = (mode.candidate prior o.pressed).1 := by
  generalize htrace : before ++ [o] = trace at h
  cases h with
  | start => simp at htrace
  | silent pressed run none =>
    obtain ⟨rfl, ho⟩ := append_inj' htrace rfl
    obtain rfl := singleton_inj.mp ho
    exact ⟨_, run, none.symm⟩
  | emitted pressed value run some =>
    obtain ⟨rfl, ho⟩ := append_inj' htrace rfl
    obtain rfl := singleton_inj.mp ho
    exact ⟨_, run, some.symm⟩
  | dropped pressed run =>
    obtain ⟨rfl, ho⟩ := append_inj' htrace rfl
    obtain rfl := singleton_inj.mp ho
    cases hobs

theorem emitsOnPress (h : ButtonRun mode trace state) (hmode : mode ≠ .gate) :
    EmitsOnPress trace := by
  intro before o hpre hobs
  obtain ⟨last, hrun⟩ := h.prefix_run hpre
  obtain ⟨prior, hprior, hval⟩ := hrun.emits_iff hobs
  rw [Emits, hval, ← hprior.pressed_eq]
  cases mode with
  | gate => exact absurd rfl hmode
  | momentary | toggle =>
    simp only [candidate]
    cases o.pressed <;> cases prior.pressed <;> simp

theorem triggers (h : ButtonRun .momentary trace state) :
    ∀ value ∈ emittedValues trace, value = .trigger := by
  induction h with
  | start => intro value hval; cases hval
  | silent pressed run none ih | dropped pressed run ih => simpa [Outcome.value?] using ih
  | emitted pressed value run some ih =>
    intro other hother
    rw [emittedValues_concat, mem_append] at hother
    rcases hother with hother | hother
    · exact ih other hother
    · have hval : other = value := by simpa [Outcome.value?] using hother
      subst hval
      simp only [candidate] at some
      split at some
      · exact (Option.some.inj some).symm
      · cases some

theorem Alternates.turn {values : List (AutomationValue F)} {state : Bool}
    (h : Alternates values ∧ state = (values.length % 2 == 1)) :
    Alternates (values ++ [AutomationValue.gate !state]) ∧
      (!state) = ((values ++ [AutomationValue.gate !state]).length % 2 == 1) := by
  obtain ⟨halternates, rfl⟩ := h
  constructor
  · refine halternates.concat ?_
    rcases mod_two_eq_zero_or_one values.length with hparity | hparity <;>
      simp [hparity]
  · rcases mod_two_eq_zero_or_one values.length with hparity | hparity <;>
      simp [hparity, add_mod]

theorem toggle_alternates (h : ButtonRun .toggle trace state) :
    Alternates (emittedValues trace) ∧ state.toggled = ((emittedValues trace).length % 2 == 1) := by
  induction h with
  | start => exact ⟨.nil, rfl⟩
  | dropped pressed run ih => simpa [Outcome.value?] using ih
  | @silent trace state pressed run none ih =>
    simp only [candidate] at none ⊢
    split at none
    · cases none
    · rename_i hrising
      simpa [Outcome.value?, hrising] using ih
  | @emitted trace state pressed value run some ih =>
    simp only [candidate] at some ⊢
    split at some
    · rename_i hrising
      cases some
      rw [if_pos hrising, emittedValues_concat]
      exact Alternates.turn ih
    · cases some

theorem gate_alternates (h : ButtonRun .gate trace state) :
    Alternates (emittedValues trace) ∧ state.pressed = ((emittedValues trace).length % 2 == 1) := by
  induction h with
  | start => exact ⟨.nil, rfl⟩
  | dropped pressed run ih => simpa [Outcome.value?] using ih
  | @silent trace state pressed run none ih =>
    simp only [candidate] at none ⊢
    split at none
    · cases none
    · rename_i hchanged
      have hpressed : pressed = state.pressed := by simpa using hchanged
      subst hpressed
      simpa [Outcome.value?] using ih
  | @emitted trace state pressed value run some ih =>
    simp only [candidate] at some ⊢
    split at some
    · rename_i hchanged
      have hnot : pressed = !state.pressed := by
        cases pressed <;> cases hprior : state.pressed <;>
          simp [hprior] at hchanged ⊢
      cases some
      rw [emittedValues_concat, hnot]
      exact Alternates.turn ih
    · cases some

theorem lastGate_eq (h : ButtonRun .gate trace state) :
    lastGate (emittedValues trace) = state.pressed := by
  obtain ⟨halternates, hpressed⟩ := h.gate_alternates
  rw [hpressed, lastGate]
  cases hlast : (emittedValues trace).getLast? with
  | none =>
    rw [getLast?_eq_none_iff.mp hlast]
    rfl
  | some value =>
    rw [getLast?_eq_getElem?] at hlast
    have hval := halternates _ _ hlast
    have hpos : 0 < (emittedValues trace).length := by
      have := (List.getElem?_eq_some_iff.mp hlast).1
      omega
    rw [hval]
    rcases mod_two_eq_zero_or_one (emittedValues trace).length with hparity | hparity
    · have hpred : ((emittedValues trace).length - 1) % 2 = 1 := by omega
      simp [hparity, hpred]
    · have hpred : ((emittedValues trace).length - 1) % 2 = 0 := by omega
      simp [hparity, hpred]

theorem faithful (h : ButtonRun mode trace state) : mode.Faithful trace := by
  cases mode with
  | gate =>
    refine ⟨h.gate_alternates.1, fun before o hpre hobs => ?_⟩
    obtain ⟨last, hrun⟩ := h.prefix_run hpre
    rw [hrun.lastGate_eq, hrun.pressed_eq, lastObserved_concat_observed hobs]
  | toggle =>
    have hpress := h.emitsOnPress (by simp)
    exact ⟨h.toggle_alternates.1, hpress, hpress.separated⟩
  | momentary =>
    have hpress := h.emitsOnPress (by simp)
    exact ⟨h.triggers, hpress, hpress.separated⟩

end ButtonRun

end

/-!
## Faithful decoding

A decoder is driven by any sequence of calls, each with its own message, output
buffer and bound.
-/

variable {F : Type} [MidiFloat F]

/-- The arguments of one `decode_bounded`. -/
structure Call (F : Type) where
  timestampUs : UInt64
  message : List UInt8
  output : List (ControllerEvent F)
  outputLimit : ℕ

def Call.IsChannelMessage (call : Call F) : Prop :=
  isWellFormedControllerMidi call.message ∧ transportEvent (call.message.getD 0 0) = none

instance (call : Call F) : Decidable call.IsChannelMessage := inferInstanceAs (Decidable (_ ∧ _))

namespace ControllerDecoder

def decodeCall (decoder : ControllerDecoder F) (call : Call F) :
    ControllerDecoder F × List (ControllerEvent F) × ControllerDecodeReport :=
  decoder.decodeBounded call.timestampUs call.message call.output call.outputLimit

def after (decoder : ControllerDecoder F) (calls : List (Call F)) : ControllerDecoder F :=
  calls.foldl (fun decoder call => (decoder.decodeCall call).1) decoder

def receptions (decoder : ControllerDecoder F) (call : Call F) :
    List (ResolvedControllerBinding F × Outcome F) :=
  if call.IsChannelMessage then
    Pass.receptions call.timestampUs (.ofBytes call.message) call.outputLimit
      ⟨decoder.buttons, call.output, .empty⟩ decoder.profile.bindings
  else []

def observe (decoder : ControllerDecoder F)
    (binding : ResolvedControllerBinding F) (call : Call F) :
    Option (Observation F) :=
  ((decoder.receptions call).find? (·.1.id == binding.id)).map fun reception =>
    ⟨binding.pressed (.ofBytes call.message), reception.2⟩

def trace (decoder : ControllerDecoder F) (binding : ResolvedControllerBinding F) :
    List (Call F) → List (Observation F)
  | [] => []
  | call :: calls =>
    (decoder.observe binding call).toList ++ (decoder.decodeCall call).1.trace binding calls

/-- A call reaches the bindings it matches, in order, and its output, its report
and its state changes are theirs. -/
structure Transaction (decoder : ControllerDecoder F) (call : Call F) : Prop where
  malformed : isWellFormedControllerMidi call.message = false →
    decoder.decodeCall call = (decoder, call.output, .empty)
  transport : ∀ event, isWellFormedControllerMidi call.message →
    transportEvent (call.message.getD 0 0) = some event →
    decoder.decodeCall call =
      if call.output.length < call.outputLimit then
        (decoder, call.output ++ [⟨call.timestampUs, .midi, .transport event⟩], ⟨1, 1, 0, false⟩)
      else (decoder, call.output, ⟨1, 0, 1, false⟩)
  ordered : call.IsChannelMessage →
    (decoder.receptions call).map Prod.fst =
      decoder.profile.bindings.filter (·.matchesMessage (.ofBytes call.message))
  emitted : call.IsChannelMessage →
    (decoder.decodeCall call).2.1 = call.output ++
      (decoder.receptions call).filterMap (receptionEvent call.timestampUs)
  counted : call.IsChannelMessage →
    ∃ changed, (decoder.decodeCall call).2.2 =
      ⟨(decoder.receptions call).length, Pass.emittedCount (decoder.receptions call),
        Pass.droppedCount (decoder.receptions call), changed⟩
  full : ∀ binding, (binding, Outcome.dropped) ∈ decoder.receptions call →
    call.outputLimit ≤ (decoder.decodeCall call).2.1.length
  untouched : ∀ binding,
    (binding, Outcome.dropped) ∈ decoder.receptions call →
    (decoder.decodeCall call).1.buttons.lookup binding.id = decoder.buttons.lookup binding.id

section

variable {decoder : ControllerDecoder F} {call : Call F}

theorem decodeCall_channel (h : call.IsChannelMessage) :
    decoder.decodeCall call =
      let pass :=
        decoder.profile.bindings.foldl
          (Pass.visit call.timestampUs (.ofBytes call.message) call.outputLimit)
          ⟨decoder.buttons, call.output, .empty⟩
      ({ decoder with buttons := pass.buttons }, pass.output, pass.report) := by
  obtain ⟨hwell, htransport⟩ := h
  rw [decodeCall, decodeBounded, htransport]
  simp [hwell]

theorem decodeCall_state (h : ¬call.IsChannelMessage) : (decoder.decodeCall call).1 = decoder := by
  rw [decodeCall, decodeBounded]
  by_cases hwell : isWellFormedControllerMidi call.message
  · cases htransport : transportEvent (call.message.getD 0 0) with
    | none => exact absurd ⟨hwell, htransport⟩ h
    | some event =>
      simp only [hwell, Bool.not_true, Bool.false_eq_true, if_false]
      split <;> rfl
  · simp [hwell]

@[simp]
theorem decodeCall_profile (decoder : ControllerDecoder F) (call : Call F) :
    (decoder.decodeCall call).1.profile = decoder.profile := by
  by_cases h : call.IsChannelMessage
  · rw [decodeCall_channel h]
  · rw [decodeCall_state h]

theorem after_profile (calls : List (Call F)) :
    (decoder.after calls).profile = decoder.profile := by
  induction calls generalizing decoder with
  | nil => rfl
  | cons call calls ih => exact ih.trans (decodeCall_profile _ _)

theorem exists_visit (h : call.IsChannelMessage)
    (hids : (decoder.profile.bindings.map (·.id)).Nodup) {binding : ResolvedControllerBinding F}
    (hmem : binding ∈ decoder.profile.bindings) :
    ∃ before : Pass F,
      before.buttons.lookup binding.id = decoder.buttons.lookup binding.id ∧
      (decoder.decodeCall call).1.buttons.lookup binding.id =
        (before.visit call.timestampUs (.ofBytes call.message)
          call.outputLimit binding).buttons.lookup binding.id ∧
      (decoder.receptions call).find? (·.1.id == binding.id) =
        if binding.matchesMessage (.ofBytes call.message) then
          some (binding, before.outcome (.ofBytes call.message) call.outputLimit binding)
        else none := by
  obtain ⟨before, hpre, hafter, hfind⟩ :=
    Pass.exists_visit call.timestampUs (.ofBytes call.message)
      call.outputLimit ⟨decoder.buttons, call.output, .empty⟩ hids hmem
  refine ⟨before, hpre, ?_, ?_⟩
  · rw [decodeCall_channel h]
    exact hafter
  · rw [receptions, if_pos h]
    exact hfind

theorem find?_of_mem_receptions (hids : (decoder.profile.bindings.map (·.id)).Nodup)
    (h : call.IsChannelMessage) {reception : ResolvedControllerBinding F × Outcome F}
    (hmem : reception ∈ decoder.receptions call) :
    reception.1 ∈ decoder.profile.bindings ∧
      reception.1.matchesMessage (.ofBytes call.message) ∧
      (decoder.receptions call).find? (·.1.id == reception.1.id) = some reception := by
  have hbindings : (decoder.receptions call).map Prod.fst =
      decoder.profile.bindings.filter (·.matchesMessage (.ofBytes call.message)) := by
    rw [receptions, if_pos h]
    exact Pass.receptions_bindings
  have hbinding : reception.1 ∈ decoder.profile.bindings.filter
      (·.matchesMessage (.ofBytes call.message)) := by
    rw [← hbindings]
    exact mem_map_of_mem hmem
  obtain ⟨hprofile, hmatch⟩ := mem_filter.mp hbinding
  refine ⟨hprofile, hmatch, ?_⟩
  have hnd : ((decoder.receptions call).map (·.1.id)).Nodup := by
    have hmap : (decoder.receptions call).map (·.1.id) =
        (decoder.profile.bindings.filter
          (·.matchesMessage (.ofBytes call.message))).map (·.id) := by
      rw [← hbindings, map_map]
      rfl
    rw [hmap]
    exact hids.sublist (filter_sublist.map _)
  cases hfind : (decoder.receptions call).find? (·.1.id == reception.1.id) with
  | none => exact absurd (find?_eq_none.mp hfind reception hmem) (by simp)
  | some found =>
    have hid := find?_some hfind
    have hfound := mem_of_find?_eq_some hfind
    rw [inj_on_of_nodup_map hnd hfound hmem (by simpa using hid)]

theorem transaction (hvalid : decoder.profile.validate = .ok ())
    (call : Call F) : decoder.Transaction call := by
  have hids := decoder.profile.validate_distinct hvalid
  refine
    { malformed := ?malformed
      transport := ?transport
      ordered := ?ordered
      emitted := ?emitted
      counted := ?counted
      full := ?full
      untouched := ?untouched }
  case malformed =>
    intro h
    rw [decodeCall, decodeBounded, h]
    rfl
  case transport =>
    intro event hwell htransport
    rw [decodeCall, decodeBounded, htransport, hwell]
    rfl
  case ordered =>
    intro h
    rw [receptions, if_pos h]
    exact Pass.receptions_bindings
  case emitted =>
    intro h
    rw [decodeCall_channel h, receptions, if_pos h]
    exact Pass.foldl_visit_output
  case counted =>
    intro h
    have hbd := decoder.profile.validate_bounded hvalid
    rw [decodeCall_channel h, receptions, if_pos h]
    obtain ⟨changed, hrep⟩ :=
      Pass.foldl_visit_report call.timestampUs (.ofBytes call.message)
        call.outputLimit ⟨decoder.buttons, call.output, .empty⟩
        decoder.profile.bindings 0 le_rfl le_rfl le_rfl
        (by rw [controllerProfileMaxBindings] at hbd
            rw [u64Max]
            omega)
    refine ⟨changed, hrep.trans ?_⟩
    simp [ControllerDecodeReport.empty]
  case full =>
    intro binding hmem
    by_cases h : call.IsChannelMessage
    · rw [receptions, if_pos h] at hmem
      rw [decodeCall_channel h]
      exact Pass.full_of_mem_receptions hmem
    · rw [receptions, if_neg h] at hmem
      cases hmem
  case untouched =>
    intro binding hmem
    by_cases h : call.IsChannelMessage
    · obtain ⟨hprofile, hmatch, hfind⟩ := find?_of_mem_receptions hids h hmem
      obtain ⟨before, hpre, hafter, hvisit⟩ := exists_visit h hids hprofile
      rw [hfind, if_pos hmatch] at hvisit
      have hout := congrArg Prod.snd (Option.some.inj hvisit)
      rw [hafter, ← hpre, Pass.visit_buttons_of_dropped hmatch hout.symm]
    · rw [decodeCall_state h]

end

section

variable {decoder : ControllerDecoder F}
variable {binding : ResolvedControllerBinding F} {mode : MidiButtonMode}

theorem reading_button (hmode : binding.buttonMode = some mode)
    (buttons : Buttons) (message : ChannelMessage) :
    binding.reading buttons message =
      ((mode.candidate (buttons.state binding.id) (binding.pressed message)).1,
        some (buttons.state binding.id,
          (mode.candidate (F := F) (buttons.state binding.id) (binding.pressed message)).2)) := by
  simp [ResolvedControllerBinding.reading, hmode]

variable {seen : List (Observation F)}

variable (hids : (decoder.profile.bindings.map (·.id)).Nodup)
  (hmem : binding ∈ decoder.profile.bindings) (hmode : binding.buttonMode = some mode)
  (hrun : ButtonRun mode seen (decoder.buttons.state binding.id))
include hids hmem hmode hrun

theorem run_call (call : Call F) :
    ButtonRun mode (seen ++ (decoder.observe binding call).toList)
      ((decoder.decodeCall call).1.buttons.state binding.id) := by
  by_cases h : call.IsChannelMessage
  · obtain ⟨before, hpre, hafter, hfind⟩ := exists_visit h hids hmem
    have hst : before.buttons.state binding.id = decoder.buttons.state binding.id := by
      simp only [Buttons.state, hpre]
    have hstate' : (decoder.decodeCall call).1.buttons.state binding.id =
        (before.visit call.timestampUs (.ofBytes call.message)
          call.outputLimit binding).buttons.state binding.id := by
      simp only [Buttons.state, hafter]
    rw [hstate', observe, hfind]
    by_cases hmatch : binding.matchesMessage (.ofBytes call.message)
    · rw [if_pos hmatch, Option.map_some, Option.toList_some]
      rw [← hst] at hrun
      have hreading := reading_button hmode before.buttons (.ofBytes call.message)
      rcases Pass.visit_matched call.timestampUs call.outputLimit before hmatch with
        ⟨hnone, hvisit⟩ | ⟨value, hsome, hroom, hvisit⟩ |
          ⟨value, hsome, hfull, hvisit⟩
      · have hout : before.outcome (.ofBytes call.message) call.outputLimit binding = .silent := by
          simp [Pass.outcome, hnone]
        rw [hvisit, hout, hreading]
        rw [hreading] at hnone
        rw [show before.buttons = before.matched.buttons from rfl, Pass.commit_state]
        exact .silent _ hrun hnone
      · have hout : before.outcome (.ofBytes call.message)
            call.outputLimit binding = .emitted value := by
          simp [Pass.outcome, hsome, hroom]
        rw [hvisit, hout, hreading]
        rw [hreading] at hsome
        rw [show before.buttons =
          (before.matched.emit
            { timestampUs := call.timestampUs
              origin := .midi
              kind := .control binding.id binding.target
                value }).buttons from rfl, Pass.commit_state]
        exact .emitted _ value hrun hsome
      · have hout : before.outcome (.ofBytes call.message) call.outputLimit binding = .dropped := by
          simp [Pass.outcome, hsome, not_lt.mpr hfull]
        rw [hvisit, hout]
        exact .dropped _ hrun
    · rw [if_neg hmatch, Pass.visit_unmatched (by simpa using hmatch), hst]
      simpa using hrun
  · rw [decodeCall_state h, observe, receptions, if_neg h]
    simpa using hrun

theorem run_trace (calls : List (Call F)) :
    ButtonRun mode (seen ++ decoder.trace binding calls)
      ((decoder.after calls).buttons.state binding.id) := by
  induction calls generalizing decoder seen with
  | nil => simpa [trace, after] using hrun
  | cons call calls ih =>
    have hnext := run_call hids hmem hmode hrun call
    rw [← decodeCall_profile decoder call] at hids hmem
    rw [trace, ← append_assoc]
    exact ih hids hmem hnext

end

/-- Button edges are faithful under drops. -/
theorem decodeBounded_faithful (decoder : ControllerDecoder F)
    (profile : ResolvedControllerProfile F)
    (hvalid : profile.validate = .ok ()) (calls : List (Call F)) :
    (∀ binding ∈ profile.bindings, ∀ mode,
      binding.buttonMode = some mode →
      mode.Faithful ((decoder.replaceProfile profile).trace binding calls)) ∧
    ∀ call, ((decoder.replaceProfile profile).after calls).Transaction
      call := by
  constructor
  · intro binding hmem mode hmode
    have hstart : ButtonRun (F := F) mode []
        ((decoder.replaceProfile profile).buttons.state binding.id) := by
      exact .start
    exact (run_trace (profile.validate_distinct hvalid) hmem hmode hstart calls).faithful
  · intro call
    refine transaction ?_ call
    rw [after_profile]
    exact hvalid

/-- A note that holds the first gesture contact, on any channel. -/
def contactBinding : ResolvedControllerBinding ℚ where
  id := 1
  source := .note 60
  channel := .omni
  encoding := .absolute
  buttonMode := some .gate
  pressThreshold := 64
  relativeStep := 0
  target := .master .gestureContact
  feedback := none

def contactProfile : ResolvedControllerProfile ℚ where
  name := "contact"
  input := .firstAvailable
  output := .firstAvailable
  bindings := [contactBinding]

/-- A press that finds no room, the same press repeated, and a release. -/
def contactCalls : List (Call ℚ) :=
  [⟨0, [0x90, 60, 100], [], 0⟩, ⟨1, [0x90, 60, 100], [], 8⟩, ⟨2, [0x80, 60, 0], [], 8⟩]

theorem decodeBounded_faithful_contact :
    GateFaithful (((new contactProfile).replaceProfile contactProfile).trace
      contactBinding contactCalls) :=
  (decodeBounded_faithful (new contactProfile) contactProfile
    (by decide +kernel) contactCalls).1 contactBinding
    mem_cons_self .gate rfl

/-- The refused press is repeated and then emitted, and the release follows. -/
example : emittedValues
    ((new contactProfile).trace contactBinding contactCalls) = [.gate true, .gate false] := by
  decide +kernel

end ControllerDecoder

end CollideOScope.Midi
