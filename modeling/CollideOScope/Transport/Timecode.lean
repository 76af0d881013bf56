import Mathlib.Data.Prod.Lex
import Mathlib.Tactic.Ring

/-!
# Timecode labels

A label names a source frame by hours, minutes, seconds and frames.  A
drop-frame rate skips the first labels of every minute but each tenth.  One rule
says which labels are accepted, another counts how many were skipped before a
label; the numbers that come of them have no gap.
-/

namespace CollideOScope.Transport

open Nat

inductive TimecodeRate
  | fps24 | fps25 | fps30 | fps50 | fps60
  | ntsc24 | ntsc30 | ntsc30Drop | ntsc60 | ntsc60Drop
  deriving DecidableEq

namespace TimecodeRate

def nominalFps : TimecodeRate → ℕ
  | fps24 => 24
  | ntsc24 => 24
  | fps25 => 25
  | fps30 => 30
  | ntsc30 => 30
  | ntsc30Drop => 30
  | fps50 => 50
  | fps60 => 60
  | ntsc60 => 60
  | ntsc60Drop => 60

def droppedLabelsPerMinute : TimecodeRate → ℕ
  | ntsc30Drop => 2
  | ntsc60Drop => 4
  | _ => 0

theorem nominalFps_pos (rate : TimecodeRate) : 0 < rate.nominalFps := by
  cases rate <;> decide

theorem dropped_lt_nominal (rate : TimecodeRate) :
    rate.droppedLabelsPerMinute < rate.nominalFps := by
  cases rate <;> decide

end TimecodeRate

def maxTimecodeHours : ℕ := 99

inductive TimecodeError
  | hours | minutes | seconds
  | frames (requested nominalFps : ℕ)
  | droppedLabel

@[ext]
structure SourceTimecode where
  (hours minutes seconds frames : ℕ)
  rate : TimecodeRate

namespace SourceTimecode

def new (hours minutes seconds frames : ℕ) (rate : TimecodeRate) :
    Except TimecodeError SourceTimecode :=
  if maxTimecodeHours < hours then .error .hours
  else if 59 < minutes then .error .minutes
  else if 59 < seconds then .error .seconds
  else if rate.nominalFps ≤ frames then .error (.frames frames rate.nominalFps)
  else if rate.droppedLabelsPerMinute ≠ 0 ∧ minutes % 10 ≠ 0 ∧ seconds = 0 ∧
      frames < rate.droppedLabelsPerMinute then
    .error .droppedLabel
  else .ok ⟨hours, minutes, seconds, frames, rate⟩

def totalMinutes (label : SourceTimecode) : ℕ := label.hours * 60 + label.minutes

/-- The number of a label if none were dropped. -/
def nominalFrames (label : SourceTimecode) : ℕ :=
  (label.hours * 3600 + label.minutes * 60 + label.seconds) * label.rate.nominalFps + label.frames

def droppedFrames (label : SourceTimecode) : ℕ :=
  label.rate.droppedLabelsPerMinute * (label.totalMinutes - label.totalMinutes / 10)

/-- `frame_number`; the subtraction saturates. -/
def frameNumber (label : SourceTimecode) : ℕ :=
  if label.rate.droppedLabelsPerMinute = 0 then label.nominalFrames
  else label.nominalFrames - label.droppedFrames

/-- The fields of a label, the most significant first. -/
def fields (label : SourceTimecode) : ℕ ×ₗ ℕ ×ₗ ℕ ×ₗ ℕ :=
  toLex (label.hours, toLex (label.minutes, toLex (label.seconds, label.frames)))

/-- A label of the rate that `new` returns. -/
def Accepted (rate : TimecodeRate) (label : SourceTimecode) : Prop :=
  new label.hours label.minutes label.seconds label.frames rate = .ok label

def offset (label : SourceTimecode) : ℕ := label.seconds * label.rate.nominalFps + label.frames

end SourceTimecode

namespace TimecodeRate

variable (rate : TimecodeRate)

/-- The labels of a minute, the dropped ones included. -/
def minuteLength : ℕ := 60 * rate.nominalFps

def firstOffset (minute : ℕ) : ℕ := if minute % 10 = 0 then 0 else rate.droppedLabelsPerMinute

/-- The number of the first label of a minute that is kept. -/
def minuteStart (minute : ℕ) : ℕ :=
  minute * rate.minuteLength + rate.firstOffset minute -
    rate.droppedLabelsPerMinute * (minute - minute / 10)

variable (minute : ℕ)

theorem firstOffset_le : rate.firstOffset minute ≤ rate.droppedLabelsPerMinute := by
  unfold firstOffset
  split
  · exact zero_le _
  · exact le_refl _

theorem dropped_lt_minute : rate.droppedLabelsPerMinute < rate.minuteLength := by
  have hdrop := rate.dropped_lt_nominal
  unfold minuteLength
  omega

theorem dropped_le :
    rate.droppedLabelsPerMinute * (minute - minute / 10) ≤ minute * rate.minuteLength := by
  calc
    rate.droppedLabelsPerMinute * (minute - minute / 10) ≤ rate.minuteLength * minute :=
      Nat.mul_le_mul rate.dropped_lt_minute.le (Nat.sub_le _ _)
    _ = minute * rate.minuteLength := mul_comm _ _

theorem dropped_succ :
    rate.droppedLabelsPerMinute * (minute + 1 - (minute + 1) / 10) =
      rate.droppedLabelsPerMinute * (minute - minute / 10) + rate.firstOffset (minute + 1) := by
  unfold firstOffset
  split
  case isTrue htenth =>
    have hsame : minute + 1 - (minute + 1) / 10 = minute - minute / 10 := by omega
    rw [hsame, add_zero]
  case isFalse htenth =>
    have hnext : minute + 1 - (minute + 1) / 10 = minute - minute / 10 + 1 := by omega
    rw [hnext, mul_add, mul_one]

theorem minuteStart_succ :
    rate.minuteStart (minute + 1) + rate.firstOffset minute =
      rate.minuteStart minute + rate.minuteLength := by
  have hdrop := rate.dropped_le minute
  have hnext := rate.dropped_succ minute
  have hlen : (minute + 1) * rate.minuteLength =
      minute * rate.minuteLength + rate.minuteLength := succ_mul _ _
  unfold minuteStart
  omega

theorem minuteStart_lt_succ : rate.minuteStart minute < rate.minuteStart (minute + 1) := by
  have hsucc := rate.minuteStart_succ minute
  have hfst := rate.firstOffset_le minute
  have hdrop := rate.dropped_lt_minute
  omega

theorem minuteStart_mono : StrictMono rate.minuteStart :=
  strictMono_nat_of_lt_succ rate.minuteStart_lt_succ

end TimecodeRate

theorem digits_lt_iff {base high low high' low' : ℕ} (hlow : low < base) (hlow' : low' < base) :
    high * base + low < high' * base + low' ↔ high < high' ∨ high = high' ∧ low < low' := by
  have hstep : ∀ {first second : ℕ}, first < second → first * base + base ≤ second * base := by
    intro first second hlt
    rw [← succ_mul]
    exact mul_le_mul_right base hlt
  rcases lt_trichotomy high high' with hlt | rfl | hgt
  · have hle := hstep hlt
    constructor
    · exact fun _ => .inl hlt
    · intro _
      omega
  · simp
  · have hle := hstep hgt
    constructor
    · intro hless
      omega
    · rintro (hless | ⟨heq, -⟩)
      · omega
      · omega

namespace SourceTimecode

variable {rate : TimecodeRate} {label : SourceTimecode}

open TimecodeRate

theorem accepted_iff :
    Accepted rate label ↔ label.rate = rate ∧
      label.hours ≤ maxTimecodeHours ∧ label.minutes ≤ 59 ∧
      label.seconds ≤ 59 ∧ label.frames < rate.nominalFps ∧
      rate.firstOffset label.totalMinutes ≤ label.offset := by
  obtain ⟨hours, minutes, seconds, frames, rate'⟩ := label
  simp only [Accepted, new, totalMinutes, offset]
  by_cases hrate : rate' = rate
  case neg =>
    simp only [hrate, false_and, iff_false]
    repeat' split
    all_goals simp [Ne.symm hrate]
  case pos =>
    subst hrate
    have hnominal := rate'.dropped_lt_nominal
    have hkept : ¬(rate'.droppedLabelsPerMinute ≠ 0 ∧ minutes % 10 ≠ 0 ∧
        seconds = 0 ∧ frames < rate'.droppedLabelsPerMinute) ↔
          rate'.firstOffset (hours * 60 + minutes) ≤ seconds * rate'.nominalFps + frames := by
      have htenth : (hours * 60 + minutes) % 10 = minutes % 10 := by omega
      unfold firstOffset
      rw [htenth]
      by_cases hminute : minutes % 10 = 0
      · simp [hminute]
      · rw [if_neg hminute]
        cases seconds with
        | zero =>
          rw [zero_mul, zero_add]
          constructor
          · intro hkept
            by_contra hless
            exact hkept ⟨by omega, hminute, rfl, not_le.mp hless⟩
          · rintro hle ⟨-, -, -, hless⟩
            exact absurd hle (not_le.mpr hless)
        | succ seconds =>
          rw [succ_mul]
          omega
    by_cases hhours : maxTimecodeHours < hours
    · simp [hhours, not_le.mpr hhours]
    by_cases hminutes : 59 < minutes
    · simp [hhours, hminutes, not_le.mpr hminutes]
    by_cases hsecs : 59 < seconds
    · simp [hhours, hminutes, hsecs, not_le.mpr hsecs]
    by_cases hframes : rate'.nominalFps ≤ frames
    · simp [hhours, hminutes, hsecs, hframes, not_lt.mpr hframes]
    simp only [hhours, hminutes, hsecs, hframes, if_false, true_and, not_lt.mp hhours,
      not_lt.mp hminutes, not_lt.mp hsecs, not_le.mp hframes, ← hkept]
    split
    case isTrue hdropped => simp [hdropped]
    case isFalse hdropped => simp [hdropped]

def ofMinute (rate : TimecodeRate) (minute offset : ℕ) : SourceTimecode :=
  ⟨minute / 60, minute % 60, offset / rate.nominalFps, offset % rate.nominalFps, rate⟩

theorem totalMinutes_ofMinute (minute offset : ℕ) :
    (ofMinute rate minute offset).totalMinutes = minute := by
  unfold ofMinute totalMinutes
  dsimp only
  omega

theorem offset_ofMinute (minute offset : ℕ) : (ofMinute rate minute offset).offset = offset :=
  div_add_mod' offset rate.nominalFps

theorem accepted_ofMinute {minute offset : ℕ} (hminute : minute < (maxTimecodeHours + 1) * 60)
    (hfst : rate.firstOffset minute ≤ offset) (hoff : offset < rate.minuteLength) :
    Accepted rate (ofMinute rate minute offset) := by
  rw [accepted_iff, totalMinutes_ofMinute, offset_ofMinute]
  have hsecs : offset / rate.nominalFps < 60 := Nat.div_lt_of_lt_mul (by rwa [Nat.mul_comm])
  have hframes : offset % rate.nominalFps < rate.nominalFps := mod_lt _ rate.nominalFps_pos
  refine ⟨rfl, ?_, ?_, ?_, hframes, hfst⟩
  · unfold maxTimecodeHours at hminute ⊢
    dsimp only [ofMinute]
    omega
  · dsimp only [ofMinute]
    omega
  · dsimp only [ofMinute]
    omega

section

variable (h : Accepted rate label)

include h

theorem Accepted.rate_eq : label.rate = rate := (accepted_iff.mp h).1

theorem Accepted.firstOffset_le : rate.firstOffset label.totalMinutes ≤ label.offset :=
  (accepted_iff.mp h).2.2.2.2.2

theorem Accepted.totalMinutes_lt : label.totalMinutes < (maxTimecodeHours + 1) * 60 := by
  obtain ⟨-, hhours, hminutes, -⟩ := accepted_iff.mp h
  unfold totalMinutes maxTimecodeHours at *
  omega

theorem Accepted.offset_lt : label.offset < rate.minuteLength := by
  obtain ⟨rfl, -, -, hsecs, hframes, -⟩ := accepted_iff.mp h
  have hle : label.seconds * label.rate.nominalFps ≤
      59 * label.rate.nominalFps := mul_le_mul_right _ hsecs
  unfold offset minuteLength
  omega

theorem Accepted.nominalFrames_eq :
    label.nominalFrames = label.totalMinutes * rate.minuteLength + label.offset := by
  obtain rfl := h.rate_eq
  unfold nominalFrames totalMinutes minuteLength offset
  ring

theorem Accepted.droppedFrames_eq :
    label.droppedFrames = rate.droppedLabelsPerMinute *
      (label.totalMinutes - label.totalMinutes / 10) := by
  rw [droppedFrames, h.rate_eq]

theorem Accepted.droppedFrames_le : label.droppedFrames ≤ label.nominalFrames := by
  rw [h.droppedFrames_eq, h.nominalFrames_eq]
  exact (rate.dropped_le _).trans (le_add_right _ _)

theorem Accepted.frameNumber_eq :
    label.frameNumber + rate.firstOffset label.totalMinutes =
      rate.minuteStart label.totalMinutes + label.offset := by
  have hsubtract : label.frameNumber = label.nominalFrames - label.droppedFrames := by
    unfold frameNumber
    split
    case isTrue hnone => simp [droppedFrames, hnone]
    case isFalse => rfl
  have hdrop := rate.dropped_le label.totalMinutes
  rw [hsubtract, h.droppedFrames_eq, h.nominalFrames_eq]
  unfold minuteStart
  omega

end

variable {other : SourceTimecode}

theorem Accepted.fields_lt_iff (h : Accepted rate label) (h' : Accepted rate other) :
    label.fields < other.fields ↔
      label.totalMinutes < other.totalMinutes ∨
        label.totalMinutes = other.totalMinutes ∧ label.offset < other.offset := by
  obtain ⟨hrate, -, hminutes, -, hframes, -⟩ := accepted_iff.mp h
  obtain ⟨hrate', -, hminutes', -, hframes', -⟩ := accepted_iff.mp h'
  have hminute := @digits_lt_iff 60 label.hours _ other.hours _
    (lt_succ_of_le hminutes) (lt_succ_of_le hminutes')
  have hoff := @digits_lt_iff _ label.seconds _ other.seconds _ hframes hframes'
  simp only [fields, Prod.Lex.toLex_lt_toLex, totalMinutes, offset, hrate, hrate', hminute, hoff]
  omega

theorem Accepted.frameNumber_lt (h : Accepted rate label)
    (h' : Accepted rate other) (hlt : label.fields < other.fields) :
    label.frameNumber < other.frameNumber := by
  have hlabel := h.frameNumber_eq
  have hother := h'.frameNumber_eq
  have hoff := h.offset_lt
  have hfst := h'.firstOffset_le
  have hnext := rate.minuteStart_succ label.totalMinutes
  rcases (h.fields_lt_iff h').mp hlt with hminute | ⟨hminute, hless⟩
  · have hmono : rate.minuteStart (label.totalMinutes + 1) ≤ rate.minuteStart other.totalMinutes :=
      rate.minuteStart_mono.monotone hminute
    omega
  · rw [hminute] at hlabel
    omega

def next (label : SourceTimecode) : SourceTimecode :=
  if label.offset + 1 < label.rate.minuteLength then
    ofMinute label.rate label.totalMinutes (label.offset + 1)
  else
    ofMinute label.rate (label.totalMinutes + 1) (label.rate.firstOffset (label.totalMinutes + 1))

theorem Accepted.next (h : Accepted rate label) (h' : Accepted rate other)
    (hlt : label.fields < other.fields) :
    Accepted rate label.next ∧ label.fields < label.next.fields ∧
      label.next.frameNumber = label.frameNumber + 1 := by
  obtain rfl := h.rate_eq
  have hlabel := h.frameNumber_eq
  have hfst := h.firstOffset_le
  have hoff := h.offset_lt
  unfold SourceTimecode.next
  split
  case isTrue hinside =>
    have hnext : Accepted label.rate (ofMinute label.rate label.totalMinutes (label.offset + 1)) :=
      accepted_ofMinute h.totalMinutes_lt (hfst.trans (le_succ _)) hinside
    have hnum := hnext.frameNumber_eq
    rw [totalMinutes_ofMinute, offset_ofMinute] at hnum
    refine ⟨hnext, (h.fields_lt_iff hnext).mpr ?_, by omega⟩
    rw [totalMinutes_ofMinute, offset_ofMinute]
    exact .inr ⟨rfl, lt_succ_self _⟩
  case isFalse hlast =>
    have hminute : label.totalMinutes < other.totalMinutes := by
      rcases (h.fields_lt_iff h').mp hlt with hminute | ⟨-, hless⟩
      · exact hminute
      · have hother := h'.offset_lt
        omega
    have hnext : Accepted label.rate (ofMinute label.rate (label.totalMinutes + 1)
        (label.rate.firstOffset (label.totalMinutes + 1))) :=
      accepted_ofMinute (lt_of_le_of_lt (succ_le_of_lt hminute) h'.totalMinutes_lt) le_rfl
        (lt_of_le_of_lt (label.rate.firstOffset_le _) label.rate.dropped_lt_minute)
    have hnum := hnext.frameNumber_eq
    rw [totalMinutes_ofMinute, offset_ofMinute] at hnum
    have hstart := label.rate.minuteStart_succ label.totalMinutes
    refine ⟨hnext, (h.fields_lt_iff hnext).mpr ?_, by omega⟩
    rw [totalMinutes_ofMinute]
    exact .inl (lt_succ_self _)

def zero (rate : TimecodeRate) : SourceTimecode := ⟨0, 0, 0, 0, rate⟩

theorem accepted_zero (rate : TimecodeRate) : Accepted rate (zero rate) := by
  refine accepted_iff.mpr ⟨rfl, zero_le _, zero_le _, zero_le _, rate.nominalFps_pos, ?_⟩
  simp [zero, totalMinutes, offset, firstOffset]

theorem frameNumber_zero (rate : TimecodeRate) : (zero rate).frameNumber = 0 := by
  simp [zero, frameNumber, nominalFrames]

theorem Accepted.exists_frameNumber (h : Accepted rate label) {number : ℕ}
    (hnum : number ≤ label.frameNumber) :
    ∃ other, Accepted rate other ∧ other.frameNumber = number := by
  induction number with
  | zero => exact ⟨zero rate, accepted_zero rate, frameNumber_zero rate⟩
  | succ number ih =>
    obtain ⟨other, hother, rfl⟩ := ih (le_of_succ_le hnum)
    have hlt : other.fields < label.fields := by
      rcases lt_trichotomy other.fields label.fields with hlt | heq | hgt
      · exact hlt
      · have hsame : other = label := by
          simp only [fields, toLex_inj, Prod.mk.injEq] at heq
          obtain ⟨hhours, hminutes, hsecs, hframes⟩ := heq
          exact SourceTimecode.ext hhours hminutes hsecs hframes
            (hother.rate_eq.trans h.rate_eq.symm)
        rw [hsame] at hnum
        omega
      · have hless := h.frameNumber_lt hother hgt
        omega
    obtain ⟨hnext, -, hsucc⟩ := hother.next h hlt
    exact ⟨other.next, hnext, hsucc⟩

end SourceTimecode

open SourceTimecode in
/-- The numbers of the labels of a rate grow with their fields, step by one from
a label to the next one that is accepted, start at zero, leave no gap, and are
never cut off by the count of dropped labels. -/
theorem timecode_numbering_gapless (rate : TimecodeRate) :
    (∀ a b, Accepted rate a → Accepted rate b → a.fields < b.fields →
      a.frameNumber < b.frameNumber) ∧
    (∀ a b, Accepted rate a → Accepted rate b → a.fields < b.fields →
      (∀ c, Accepted rate c → a.fields < c.fields → ¬c.fields < b.fields) →
      b.frameNumber = a.frameNumber + 1) ∧
    (Accepted rate (zero rate) ∧ (zero rate).frameNumber = 0) ∧
    (∀ a, Accepted rate a → a.droppedFrames ≤ a.nominalFrames) ∧
    ∀ b, Accepted rate b → ∀ number ≤ b.frameNumber,
      ∃ a, Accepted rate a ∧ a.frameNumber = number := by
  refine ⟨fun a b ha hb => ha.frameNumber_lt hb, ?_, ⟨accepted_zero rate, frameNumber_zero rate⟩,
    fun a ha => ha.droppedFrames_le, fun b hb number => hb.exists_frameNumber⟩
  intro a b ha hb hlt hbetween
  obtain ⟨hnext, hafter, hsucc⟩ := ha.next hb hlt
  have hless := ha.frameNumber_lt hb hlt
  rcases lt_or_eq_of_le (not_lt.mp (hbetween a.next hnext hafter)) with hbefore | heq
  · have hgreater := hb.frameNumber_lt hnext hbefore
    omega
  · have hsame : b.frameNumber = a.next.frameNumber := by
      simp only [fields, toLex_inj, Prod.mk.injEq] at heq
      obtain ⟨hhours, hminutes, hseconds, hframes⟩ := heq
      exact congrArg frameNumber (SourceTimecode.ext hhours hminutes hseconds
        hframes (hb.rate_eq.trans hnext.rate_eq.symm))
    exact hsame.trans hsucc

/-- The hour of a drop-frame rate, as broadcast counts it. -/
example : SourceTimecode.frameNumber ⟨1, 0, 0, 0, .ntsc30Drop⟩ = 107892 := by
  decide

end CollideOScope.Transport
