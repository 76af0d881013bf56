import CollideOScope.Performance.Take

/-!
# Recorded takes

Every call of `recordAccepted` keeps the take valid, and keeps each accepted
edit in step with the event it is stored as.
-/

namespace CollideOScope.Performance

open Nat Option List

open CollideOScope.Checks

theorem le_max_tick (a b : UInt32) : a ≤ max a b ∧ b ≤ max a b := by
  have hmax : max a b = if a ≤ b then b else a := rfl
  rw [hmax]
  by_cases h : a ≤ b
  · rw [if_pos h]
    exact ⟨h, UInt32.le_refl b⟩
  · rw [if_neg h]
    exact ⟨UInt32.le_refl a, UInt32.le_of_lt (UInt32.not_le.mp h)⟩

def Admitted (addresses : List PerformanceAddress) (event : PerformanceEvent) : Prop :=
  ∃ address, addresses[event.address.toNat]? = some address ∧ address.law.admits event.value

namespace PerformanceTake

/-- What `validate` accepts. -/
structure Valid (take : PerformanceTake) : Prop where
  addresses_le : take.addresses.length ≤ maxPerformanceAddresses
  events_le : take.events.length ≤ maxPerformanceEvents
  valid : ∀ address ∈ take.addresses, address.Valid
  distinct : (take.addresses.map (·.control)).Nodup
  monotone : take.events.Pairwise (·.tick ≤ ·.tick)
  admitted : ∀ event ∈ take.events, Admitted take.addresses event
  length : ∀ event ∈ take.events, event.tick ≤ take.lengthTicks

variable {addresses : List PerformanceAddress} {take : PerformanceTake}

theorem refuseCode_ok {event : PerformanceEvent} (h : Admitted addresses event)
    : refuseCode addresses event = .ok () := by
  obtain ⟨address, haddr, hval⟩ := h
  rw [refuseCode, haddr]
  simp [PerformanceValueLaw.validateValue, hval]

theorem validateEvents_ok {previous : UInt32} {events : List PerformanceEvent}
    (hprev : ∀ event ∈ events, previous ≤ event.tick)
    (hmonotone : events.Pairwise (·.tick ≤ ·.tick))
    (hadm : ∀ event ∈ events, Admitted addresses event) :
    validateEvents addresses previous events = .ok () := by
  induction events generalizing previous with
  | nil => rfl
  | cons event rest ih =>
    rw [forall_mem_cons] at hprev hadm
    rw [pairwise_cons] at hmonotone
    simp only [validateEvents, bind_ok, exists_unit, refuse_ok]
    exact ⟨UInt32.not_lt.mpr hprev.1, refuseCode_ok hadm.1, ih hmonotone.1 hmonotone.2 hadm.2⟩

theorem refuseShortLength_ok (h : ∀ event ∈ take.events, event.tick ≤ take.lengthTicks) :
    take.refuseShortLength = .ok () := by
  rw [refuseShortLength]
  cases hlast : take.events.getLast? with
  | none => rfl
  | some last =>
    have hmem := mem_of_getLast? hlast
    simpa using h last hmem

theorem Valid.validate_ok (h : take.Valid) : take.validate = .ok () := by
  simp only [validate, bind_ok, exists_unit, refuse_ok, forEach_ok,
    refuseRepeats_ok nodup_nil, nil_append, not_lt]
  exact ⟨h.addresses_le, h.events_le,
    fun address haddr => PerformanceAddress.validate_ok.mpr (h.valid address haddr), h.distinct,
    validateEvents_ok (fun event _ => UInt32.zero_le) h.monotone h.admitted,
    refuseShortLength_ok h.length⟩

theorem Valid.le_of_last (h : take.Valid)
    {tick : UInt32} (hlast : ∀ last ∈ take.events.getLast?, last.tick ≤ tick) :
    ∀ event ∈ take.events, event.tick ≤ tick := by
  intro event hev
  cases hsome : take.events.getLast? with
  | none =>
    rw [getLast?_eq_none_iff] at hsome
    rw [hsome] at hev
    cases hev
  | some last =>
    have hbd := hlast last hsome
    obtain ⟨earlier, hevs⟩ := getLast?_eq_some_iff.mp hsome
    have hmonotone := h.monotone
    rw [hevs] at hev hmonotone
    rcases mem_append.mp hev with hearl | hnew
    · have hle := (pairwise_append.mp hmonotone).2.2 event hearl last (mem_singleton_self last)
      exact UInt32.le_trans hle hbd
    · rw [mem_singleton.mp hnew]
      exact hbd

theorem Valid.declaredEventCount (h : take.Valid) :
    take.declaredEventCount.toNat = take.events.length := by
  have hsmall : take.events.length < 2 ^ 32 := h.events_le.trans_lt (by decide)
  rw [PerformanceTake.declaredEventCount, if_pos hsmall, UInt32.toNat_ofNat']
  exact mod_eq_of_lt hsmall

theorem Valid.decode_capture (h : take.Valid) (sha256Hex : Bytes → String) :
    (PerformanceTakeDocument.capture sha256Hex take).decode sha256Hex = .ok take := by
  simp only [PerformanceTakeDocument.decode, PerformanceTakeDocument.capture, bind_ok, exists_unit,
    refuse_ok, pure_ok, ne_eq, h.declaredEventCount, not_true_eq_false, not_false_eq_true, true_and]
  exact ⟨h.validate_ok, trivial⟩

variable {a b : PerformanceTake}

theorem flags_inj (h : a.flags = b.flags) :
    a.truncated = b.truncated ∧ a.incomplete = b.incomplete := by
  have hall : ∀ t i t' i' : Bool,
      (if t then performanceFlagTruncated else 0) |||
          (if i then performanceFlagIncomplete else 0) =
        (if t' then performanceFlagTruncated else 0) |||
          (if i' then performanceFlagIncomplete else 0) → t = t' ∧ i = i' := by
    decide
  exact hall _ _ _ _ h

theorem prefixCode_event : PrefixCode (fun _ => True) PerformanceEvent.encodeInto := by
  rintro ⟨tick, address, value⟩ ⟨tick', address', value'⟩ - - r s heq
  simp only [PerformanceEvent.encodeInto, append_assoc] at heq
  obtain ⟨rfl, haddr⟩ := prefixCode_u32 trivial trivial heq
  obtain ⟨rfl, hval⟩ := prefixCode_u16 trivial trivial haddr
  obtain ⟨rfl, hrs⟩ := prefixCode_u16 trivial trivial hval
  exact ⟨rfl, hrs⟩

theorem canonicalBytes_injective (ha : a.Valid) (hb : b.Valid)
    (h : a.canonicalBytes = b.canonicalBytes) : a = b := by
  have hcnt : ∀ {take : PerformanceTake}, take.Valid → take.addresses.length < 256 ^ 2 :=
    fun htake => htake.addresses_le.trans_lt (by decide)
  have heq := congrArg (· ++ ([] : Bytes)) h
  simp only [canonicalBytes, append_assoc, append_cancel_left_eq] at heq
  obtain ⟨hflags, heq⟩ := prefixCode_u16 trivial trivial heq
  obtain ⟨hlen, heq⟩ := prefixCode_u32 trivial trivial heq
  obtain ⟨hsize, heq⟩ := prefixCode_leBytes 2 (hcnt ha) (hcnt hb) heq
  obtain ⟨haddresses, heq⟩ := prefixCode_address.flatMap hsize ha.valid hb.valid heq
  obtain ⟨hevs, heq⟩ := prefixCode_u32 trivial trivial heq
  have hsame : a.events.length = b.events.length := by
    rw [← ha.declaredEventCount, ← hb.declaredEventCount, hevs]
  obtain ⟨hevs, -⟩ := prefixCode_event.flatMap hsame (fun _ _ => trivial) (fun _ _ => trivial) heq
  obtain ⟨htrunc, hincomplete⟩ := flags_inj hflags
  cases a
  cases b
  simp_all

end PerformanceTake

theorem getElem?_grown {addresses interned : List PerformanceAddress} {position : ℕ}
    {address : PerformanceAddress} (h : addresses[position]? = some address) :
    (addresses ++ interned)[position]? = some address := by
  rw [List.getElem?_append_left (List.getElem?_eq_some_iff.mp h).1]
  exact h

section

variable [F32Arithmetic]

structure StoredAs (addresses : List PerformanceAddress) (edit : Edit)
    (event : PerformanceEvent) (address : PerformanceAddress) : Prop where
  tick : event.tick = edit.tick
  interned : addresses[event.address.toNat]? = some address
  control : address.control = edit.control
  encode : address.law.encode edit.raw = some event.value

structure Recorded (take : PerformanceTake) (accepted : List Edit) : Prop where
  valid : take.Valid
  stored : List.Forall₂ (fun edit event => ∃ address, StoredAs take.addresses edit event address)
    accepted take.events

namespace PerformanceTake

variable {take : PerformanceTake} {edit : Edit} {existing : Option ℕ} {code : UInt16}

theorem resolveEdit_ok (h : take.resolveEdit edit = .ok (existing, code)) :
    edit.control.Valid ∧ (∀ last ∈ take.events.getLast?, last.tick ≤ edit.tick) ∧
      existing = take.addresses.findIdx? (·.control = edit.control) ∧
      take.quantize edit existing = .ok (some code) := by
  simp only [resolveEdit, bind_ok, exists_unit, PerformanceControl.validate_ok] at h
  obtain ⟨hctl, hearl, value, hquantize, hcode⟩ := h
  cases value with
  | none => cases hcode
  | some value =>
    cases hcode
    refine ⟨hctl, ?_, rfl, hquantize⟩
    intro last hlast
    rw [refuseEarlier, mem_def.mp hlast] at hearl
    exact UInt32.not_lt.mp (refuse_ok.mp hearl)

structure Interns (take : PerformanceTake) (edit : Edit) (code : UInt16) (position : ℕ)
    (interned : List PerformanceAddress) (address : PerformanceAddress) : Prop where
  count : take.addresses.length + interned.length ≤ maxPerformanceAddresses
  small : position < 2 ^ 16
  found : (take.addresses ++ interned)[position]? = some address
  valid : ∀ a ∈ interned, a.Valid
  distinct : ((take.addresses ++ interned).map (·.control)).Nodup
  control : address.control = edit.control
  lawValid : address.law.Valid
  encode : address.law.encode edit.raw = some code

theorem Valid.interns (h : take.Valid) (hreso : take.resolveEdit edit = .ok (existing, code)) :
    ∃ address, Interns take edit code (existing.getD take.addresses.length)
      (if existing.isSome then [] else [⟨edit.control, edit.law⟩]) address := by
  obtain ⟨hctl, -, hexisting, hquantize⟩ := resolveEdit_ok hreso
  have hcap : maxPerformanceAddresses < 2 ^ 16 := by decide
  cases existing with
  | some index =>
    obtain ⟨hidx, hsame, -⟩ := findIdx?_eq_some_iff_getElem.mp hexisting.symm
    have hmem := getElem_mem hidx
    have henc : take.addresses[index].law.encode edit.raw = some code := by
      simpa [quantize, getElem?_eq_getElem hidx] using hquantize
    refine ⟨take.addresses[index], ?_, ?_, ?_, ?_, ?_,
      of_decide_eq_true hsame, (h.valid _ hmem).law, henc⟩
    · exact h.addresses_le
    · exact (hidx.trans_le h.addresses_le).trans hcap
    · simp
    · intro a ha
      cases ha
    · simpa using h.distinct
  | none =>
    simp only [quantize, bind_ok, exists_unit, refuse_ok, pure_ok,
      PerformanceValueLaw.validate_ok, not_le] at hquantize
    obtain ⟨hlaw, hroom, henc⟩ := hquantize
    have hnew := findIdx?_eq_none_iff.mp hexisting.symm
    refine ⟨⟨edit.control, edit.law⟩, ?_, ?_, ?_, ?_, ?_, rfl, hlaw, henc⟩
    · exact hroom
    · exact hroom.trans hcap
    · simp
    · intro a ha
      rw [mem_singleton.mp ha]
      exact ⟨hctl, hlaw⟩
    · simp only [isSome_none, Bool.false_eq_true, if_false, map_append, map_cons, map_nil]
      rw [nodup_append]
      refine ⟨h.distinct, nodup_singleton _, ?_⟩
      intro control hold new hmem
      obtain ⟨a, ha, rfl⟩ := mem_map.mp hold
      rw [mem_singleton.mp hmem]
      exact of_decide_eq_false (hnew a ha)

theorem push_recorded {accepted : List Edit} (h : Recorded take accepted)
    (hreso : take.resolveEdit edit = .ok (existing, code))
    (hroom : take.events.length < maxPerformanceEvents) :
    Recorded (take.push edit existing code) (accepted ++ [edit]) := by
  obtain ⟨address, hinterns⟩ := h.valid.interns hreso
  obtain ⟨-, hlast, -, -⟩ := resolveEdit_ok hreso
  have hbd := h.valid.le_of_last hlast
  have hmax := le_max_tick take.lengthTicks edit.tick
  have hpos : (UInt16.ofNat
      (existing.getD take.addresses.length)).toNat = existing.getD take.addresses.length := by
    rw [UInt16.toNat_ofNat', mod_eq_of_lt hinterns.small]
  have hadmits := (PerformanceValueLaw.decode_encode hinterns.lawValid hinterns.encode).1
  refine ⟨⟨?_, ?_, ?_, hinterns.distinct, ?_, ?_, ?_⟩, ?_⟩
  · rw [push, length_append]
    exact hinterns.count
  · rw [push, length_append]
    exact hroom
  · intro a ha
    rcases mem_append.mp ha with hold | hnew
    · exact h.valid.valid a hold
    · exact hinterns.valid a hnew
  · refine pairwise_append.mpr ⟨h.valid.monotone, pairwise_singleton _ _, ?_⟩
    intro event hev new hnew
    rw [mem_singleton.mp hnew]
    exact hbd event hev
  · intro event hev
    rcases mem_append.mp hev with hold | hnew
    · obtain ⟨stored, hstore, hval⟩ := h.valid.admitted event hold
      exact ⟨stored, getElem?_grown hstore, hval⟩
    · rw [mem_singleton.mp hnew]
      refine ⟨address, ?_, hadmits⟩
      rw [hpos]
      exact hinterns.found
  · intro event hev
    rcases mem_append.mp hev with hold | hnew
    · exact UInt32.le_trans (h.valid.length event hold) hmax.1
    · rw [mem_singleton.mp hnew]
      exact hmax.2
  · refine rel_append ?_ (.cons ⟨address, rfl, ?_, hinterns.control, hinterns.encode⟩ .nil)
    · refine h.stored.imp ?_
      rintro edit event ⟨stored, hstore⟩
      exact ⟨stored, hstore.tick, getElem?_grown hstore.interned, hstore.control, hstore.encode⟩
    · rw [hpos]
      exact hinterns.found

end PerformanceTake

end

/-!
## From recording to replay

Takes are recorded by any sequence of edits and closed by either ending.
-/

/-- In front of the first failure of `p` everything is kept, behind it only
what meets `q`. -/
theorem filter_or_of_monotone {α : Type*} {p q : α → Bool} {items : List α}
    (h : items.Pairwise fun a b => p b → p a) :
    items.filter (fun a => p a || q a) = items.takeWhile p ++ (items.dropWhile p).filter q := by
  induction items with
  | nil => rfl
  | cons item rest ih =>
    rw [pairwise_cons] at h
    by_cases hitem : p item
    · rw [takeWhile_cons_of_pos hitem, dropWhile_cons_of_pos hitem,
        filter_cons_of_pos (by simp [hitem]), ih h.2, cons_append]
    · rw [takeWhile_cons_of_neg hitem, dropWhile_cons_of_neg hitem, nil_append]
      apply filter_congr
      intro a ha
      have hfails : p a = false := by
        rcases mem_cons.mp ha with rfl | hrest
        · exact eq_false_of_ne_true hitem
        · exact eq_false_of_ne_true fun hpa => hitem (h.1 a hrest hpa)
      rw [hfails, Bool.false_or]

namespace PerformanceReplay

theorem advance_eq (events : List PerformanceEvent) (tick : UInt32) (cursor : ℕ) :
    advance events tick cursor = cursor +
      ((events.drop cursor).takeWhile (·.tick ≤ tick)).length := by
  induction cursor using advance.induct events tick with
  | case1 cursor h hdue ih =>
    rw [advance, dif_pos h, if_pos hdue, ih, drop_eq_getElem_cons h,
      takeWhile_cons_of_pos (by simpa using hdue), length_cons]
    omega
  | case2 cursor h hdue =>
    rw [advance, dif_pos h, if_neg hdue, drop_eq_getElem_cons h,
      takeWhile_cons_of_neg (by simpa using hdue)]
    rfl
  | case3 cursor h =>
    rw [advance, dif_neg h, drop_eq_nil_of_le (not_lt.mp h)]
    rfl

theorem eventsDue_eq (replay : PerformanceReplay) (tick : UInt32) :
    (replay.eventsDue tick).1 = (replay.events.drop replay.cursor).takeWhile (·.tick ≤ tick) ∧
      (replay.eventsDue tick).2.events = replay.events ∧
      replay.events.drop (replay.eventsDue tick).2.cursor =
        (replay.events.drop replay.cursor).dropWhile (·.tick ≤ tick) := by
  generalize hleft : replay.events.drop replay.cursor = left
  have hcut : (left.takeWhile (·.tick ≤ tick)) ++
      left.dropWhile (·.tick ≤ tick) = left := takeWhile_append_dropWhile
  refine ⟨?_, rfl, ?_⟩
  · simp only [eventsDue, advance_eq, hleft]
    rw [drop_take, hleft, Nat.add_sub_cancel_left]
    nth_rewrite 2 [← hcut]
    rw [take_left]
  · simp only [eventsDue, advance_eq, hleft]
    rw [← drop_drop, hleft]
    nth_rewrite 2 [← hcut]
    rw [drop_left]

theorem drain_flatten (replay : PerformanceReplay) (ticks : List UInt32)
    (h : (replay.events.drop replay.cursor).Pairwise (·.tick ≤ ·.tick)) :
    (replay.drain ticks).flatten =
      (replay.events.drop replay.cursor).filter
        fun event => ticks.any fun tick => event.tick ≤ tick := by
  induction ticks generalizing replay with
  | nil => simp [drain]
  | cons tick rest ih =>
    obtain ⟨hdue, hevs, hleft⟩ := replay.eventsDue_eq tick
    have hrest := ih (replay.eventsDue tick).2
    rw [hevs, hleft] at hrest
    rw [drain, flatten_cons, hdue, hrest (h.sublist (dropWhile_sublist _))]
    simp only [any_cons]
    refine (filter_or_of_monotone (h.imp ?_)).symm
    intro a b hle hb
    exact decide_eq_true (UInt32.le_trans hle (of_decide_eq_true hb))

end PerformanceReplay

section

variable [F32Arithmetic]

def recordStep (state : PerformanceTake × List Edit) (edit : Edit) : PerformanceTake × List Edit :=
  ((state.1.recordAccepted edit).2,
    match (state.1.recordAccepted edit).1 with
    | .ok true => state.2 ++ [edit]
    | _ => state.2)

def record (edits : List Edit) : PerformanceTake × List Edit := edits.foldl recordStep (.empty, [])

inductive Ending
  | finalize (lengthTicks : UInt32)
  | markIncomplete (lengthTicks : UInt32)

def Ending.apply (ending : Ending) (take : PerformanceTake) : PerformanceTake :=
  match ending with
  | finalize lengthTicks => take.finalize lengthTicks
  | markIncomplete lengthTicks => take.markIncomplete lengthTicks

def recordedTake (edits : List Edit) (ending : Ending) : PerformanceTake :=
  ending.apply (record edits).1

namespace PerformanceTake

theorem recordAccepted_cases (take : PerformanceTake) (edit : Edit) :
    (∃ e, take.recordAccepted edit = (.error e, take)) ∨
      (take.recordAccepted edit = (.ok false, { take with truncated := true }) ∧
        take.events.length ≥ maxPerformanceEvents) ∨
      ∃ existing code, take.resolveEdit edit = .ok (existing, code) ∧
        take.events.length < maxPerformanceEvents ∧
        take.recordAccepted edit = (.ok true, take.push edit existing code) := by
  rw [recordAccepted]
  cases hreso : take.resolveEdit edit with
  | error e => exact .inl ⟨e, rfl⟩
  | ok resolved =>
    obtain ⟨existing, code⟩ := resolved
    by_cases hfull : take.events.length ≥ maxPerformanceEvents
    · exact .inr (.inl ⟨if_pos hfull, hfull⟩)
    · exact .inr (.inr ⟨existing, code, rfl, not_le.mp hfull, if_neg hfull⟩)

theorem recordAccepted_frame (take : PerformanceTake) (edit : Edit) :
    (∀ e, (take.recordAccepted edit).1 = .error e → (take.recordAccepted edit).2 = take) ∧
      ((take.recordAccepted edit).1 = .ok false →
        (take.recordAccepted edit).2 = { take with truncated := true }) ∧
      ((take.recordAccepted edit).1 = .ok true → take.events.length < maxPerformanceEvents) := by
  rcases take.recordAccepted_cases edit with ⟨e, h⟩ | ⟨h, -⟩ | ⟨existing, code, -, hroom, h⟩
  · rw [h]
    exact ⟨fun _ _ => rfl, fun hok => (by cases hok), fun hok => (by cases hok)⟩
  · rw [h]
    exact ⟨fun _ herr => (by cases herr), fun _ => rfl, fun hok => (by cases hok)⟩
  · rw [h]
    exact ⟨fun _ herr => (by cases herr), fun hok => (by cases hok), fun _ => hroom⟩

end PerformanceTake

theorem Recorded.withFlags {take : PerformanceTake} {accepted : List Edit}
    (h : Recorded take accepted) {lengthTicks : UInt32}
    (hlen : ∀ event ∈ take.events, event.tick ≤ lengthTicks) (truncated incomplete : Bool) :
    Recorded { take with lengthTicks, truncated, incomplete } accepted :=
  ⟨⟨h.valid.addresses_le, h.valid.events_le, h.valid.valid, h.valid.distinct,
    h.valid.monotone, h.valid.admitted, hlen⟩, h.stored⟩

theorem recorded_empty : Recorded .empty [] where
  valid := {
    addresses_le := zero_le _
    events_le := zero_le _
    valid := forall_mem_nil _
    distinct := nodup_nil
    monotone := List.Pairwise.nil
    admitted := forall_mem_nil _
    length := forall_mem_nil _ }
  stored := .nil

theorem Recorded.step {state : PerformanceTake × List Edit}
    (h : Recorded state.1 state.2) (edit : Edit) :
    Recorded (recordStep state edit).1 (recordStep state edit).2 := by
  rcases state.1.recordAccepted_cases edit with
    ⟨e, hcall⟩ | ⟨hcall, -⟩ | ⟨existing, code, hreso, hroom, hcall⟩
  · rw [recordStep, hcall]
    exact h
  · rw [recordStep, hcall]
    exact h.withFlags h.valid.length true _
  · rw [recordStep, hcall]
    exact PerformanceTake.push_recorded h hreso hroom

theorem recorded_record (edits : List Edit) : Recorded (record edits).1 (record edits).2 := by
  have hfold : ∀ (edits : List Edit) (state : PerformanceTake × List Edit),
      Recorded state.1 state.2 → Recorded (edits.foldl recordStep state).1
        (edits.foldl recordStep state).2 := by
    intro edits
    induction edits with
    | nil => exact fun state h => h
    | cons edit rest ih => exact fun state h => ih _ (h.step edit)
  exact hfold edits _ recorded_empty

theorem recorded_recordedTake (edits : List Edit) (ending : Ending) :
    Recorded (recordedTake edits ending) (record edits).2 := by
  have h := recorded_record edits
  have hlast : ∀ event ∈ (record edits).1.events, event.tick ≤ (record edits).1.lastTick := by
    apply h.valid.le_of_last
    intro last hsome
    rw [PerformanceTake.lastTick, mem_def.mp hsome]
    exact UInt32.le_refl _
  have hlen : ∀ lengthTicks, ∀ event ∈ (record edits).1.events,
      event.tick ≤ max lengthTicks (record edits).1.lastTick :=
    fun lengthTicks event hev => UInt32.le_trans (hlast event hev) (le_max_tick _ _).2
  cases ending with
  | finalize lengthTicks => exact h.withFlags (hlen lengthTicks) _ false
  | markIncomplete lengthTicks => exact h.withFlags (hlen lengthTicks) _ true

/-- An event replays an edit: at its tick, on its control, and decoded by the
stored law to the value that the law quantized the edit to. -/
def Replays (take : PerformanceTake) (edit : Edit) (event : PerformanceEvent) : Prop :=
  event.tick = edit.tick ∧ ∃ address,
    take.addresses[event.address.toNat]? = some address ∧
      address.control = edit.control ∧
      address.law.encode edit.raw = some event.value ∧
      address.law.decode event.value = address.law.quantized edit.raw ∧
      (address.law.decode event.value).isSome

end

end CollideOScope.Performance
