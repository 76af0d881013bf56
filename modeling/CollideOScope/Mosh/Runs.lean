import CollideOScope.Mosh.Engine

/-!
# Nothing old reaches the decoder

The log of a stage says for every chunk when it was drained and when it was fed,
and for every picture and image when it was made.  Each event is allowed by the
events before it: a chunk that is fed was drained in the same epoch, a delta is
fed only after a key was accepted in it, and a blend uses only what the epoch
made.
-/

namespace CollideOScope.Mosh

open List MoshChunkRing

open MoshChunkRing (totalBytes Bounded)

abbrev epochOf (log : List Event) : List Event := sinceReset Event.isReset log

def KeyAccepted (log : List Event) : Prop := ∃ chunk, .accepted chunk .key ∈ epochOf log

/-- An old chunk of a ring: the ring keeps its caps, and the chunk is none of
the newest six. -/
def OldInRing (chunk : Chunk) (ring : List Chunk) : Prop :=
  ring.length ≤ ringMaxChunks ∧ totalBytes ring ≤ ringMaxBytes ∧
    ∃ older newest, ring = older ++ newest ∧
      newest.length = ringNewestExcluded ∧ chunk ∈ older ∧ chunk ∉ newest

def RoleAllowed (chunk : Chunk) (log : List Event) : FeedRole → Prop
  | .key => .drained chunk true ∈ epochOf log
  | .delta => .drained chunk false ∈ epochOf log ∧ KeyAccepted log
  | .hold => .drained chunk false ∈ epochOf log ∧ KeyAccepted log
  | .shuffled ring => .drained chunk false ∈ epochOf log ∧ KeyAccepted log ∧ OldInRing chunk ring

def RecycledCurrent (recycled : Option Image) (log : List Event) : Prop :=
  ∀ image, recycled = some image → .stored image ∈ epochOf log

/-- What each event presupposes.  A chunk, a picture and an image are named by
the moment they were made. -/
def Allowed : Event → List Event → Prop
  | .reset, _ => True
  | .encoded forced recycled, log =>
    (¬KeyAccepted log → forced = true) ∧ RecycledCurrent recycled log
  | .drained chunk _, log => chunk.serial = log.length
  | .fed chunk role, log => RoleAllowed chunk log role
  | .accepted _ _, _ => True
  | .decoded picture, log => picture.serial = log.length
  | .blended picture recycled, log => .decoded picture ∈ epochOf log ∧ RecycledCurrent recycled log
  | .stored image, log => image.serial = log.length

def FirstKeysFed (log : List Event) : Prop :=
  ∀ later chunk earlier, log = later ++ .drained chunk true :: earlier →
    (∀ other, .drained other true ∉ epochOf earlier) →
    .fed chunk .key ∈ later

def Event.isDrainedKey : Event → Bool
  | drained _ key => key
  | _ => false

variable {log : List Event} {event : Event}

theorem FirstKeysFed.cons (h : FirstKeysFed log)
    (hev : event.isDrainedKey = false) : FirstKeysFed (event :: log) := by
  intro later chunk earlier heq hfst
  cases later with
  | nil =>
    obtain ⟨rfl, -⟩ := cons.inj heq
    cases hev
  | cons head later =>
    obtain ⟨-, heq⟩ := cons.inj heq
    exact mem_cons_of_mem _ (h later chunk earlier heq hfst)

theorem FirstKeysFed.append (h : FirstKeysFed log) {new : List Event}
    (hnew : ∀ event ∈ new, event.isDrainedKey = false) :
    FirstKeysFed (new ++ log) := by
  induction new with
  | nil => exact h
  | cons event new ih =>
    exact (ih fun other hother => hnew other (mem_cons_of_mem _ hother)).cons
      (hnew event mem_cons_self)

theorem FirstKeysFed.later_key (h : FirstKeysFed log) {other : Chunk}
    (hother : .drained other true ∈ epochOf log) (chunk : Chunk) :
    FirstKeysFed (.drained chunk true :: log) := by
  intro later next earlier heq hfst
  cases later with
  | nil =>
    obtain ⟨-, rfl⟩ := cons.inj heq
    exact absurd hother (hfst other)
  | cons head later =>
    obtain ⟨-, heq⟩ := cons.inj heq
    exact mem_cons_of_mem _ (h later next earlier heq hfst)

theorem FirstKeysFed.fed_key (h : FirstKeysFed log) (chunk : Chunk) :
    FirstKeysFed (.fed chunk .key :: .drained chunk true :: log) := by
  intro later next earlier heq hfst
  cases later with
  | nil =>
    obtain ⟨heq, -⟩ := cons.inj heq
    cases heq
  | cons head later =>
    obtain ⟨rfl, hrest⟩ := cons.inj heq
    cases later with
    | nil =>
      obtain ⟨hchunk, -⟩ := cons.inj hrest
      obtain ⟨rfl, -⟩ := Event.drained.inj hchunk
      exact mem_cons_self
    | cons second later =>
      obtain ⟨-, hlog⟩ := cons.inj hrest
      exact mem_cons_of_mem _ (mem_cons_of_mem _ (h later next earlier hlog hfst))

/-- The ring holds deltas of the epoch, in the order they were drained. -/
structure RingCurrent (ring : MoshChunkRing) (log : List Event) : Prop where
  bounded : Bounded ring
  drained : ∀ chunk ∈ ring.entries, .drained chunk false ∈ epochOf log
  ordered : ring.entries.Pairwise fun a b => a.serial < b.serial
  earlier : ∀ chunk ∈ ring.entries, chunk.serial < log.length

/-- All that the engine holds was made since the last reset. -/
structure Sound (stage : Stage) : Prop where
  history : Justified Allowed stage.log
  bootstrap : stage.engine.needKey = !stage.engine.seen
  accepted : stage.engine.seen = true → ∃ chunk,
    .accepted chunk .key ∈ stage.epoch ∧ .drained chunk true ∈ stage.epoch
  ring : RingCurrent stage.engine.ring stage.log
  picture : ∀ picture, stage.engine.lastDecoded = some picture → .decoded picture ∈ stage.epoch
  recycled : RecycledCurrent stage.engine.recycled stage.log

variable {ring : MoshChunkRing}

theorem RingCurrent.record (h : RingCurrent ring log) (event : Event)
    (hev : event.isReset = false) : RingCurrent ring (event :: log) where
  bounded := h.bounded
  drained := fun chunk hmem => mem_sinceReset_cons hev (h.drained chunk hmem)
  ordered := h.ordered
  earlier := fun chunk hmem => (h.earlier chunk hmem).trans (Nat.lt_succ_self _)

theorem ringCurrent_empty (log : List Event) : RingCurrent .empty log where
  bounded := bounded_empty
  drained := by simp [empty]
  ordered := by simp [empty]
  earlier := by simp [empty]

theorem RingCurrent.push (h : RingCurrent ring log) {chunk : Chunk}
    (hserial : chunk.serial = log.length) :
    RingCurrent (ring.push chunk) (.drained chunk false :: log) := by
  obtain ⟨hbdd, hsuf⟩ := push_spec h.bounded chunk
  have hrec := h.record (.drained chunk false) rfl
  refine ⟨hbdd, ?_, ?_, ?_⟩
  · intro other hmem
    rcases mem_append.mp (hsuf.subset hmem) with hold | hnew
    · exact hrec.drained other hold
    · obtain rfl := mem_singleton.mp hnew
      exact mem_sinceReset_self rfl
  · apply List.Pairwise.sublist hsuf.sublist
    rw [pairwise_append]
    refine ⟨h.ordered, pairwise_singleton _ _, ?_⟩
    intro old hold new hnew
    obtain rfl := mem_singleton.mp hnew
    rw [hserial]
    exact h.earlier old hold
  · intro other hmem
    rcases mem_append.mp (hsuf.subset hmem) with hold | hnew
    · exact hrec.earlier other hold
    · obtain rfl := mem_singleton.mp hnew
      rw [hserial]
      exact Nat.lt_succ_self _

theorem RingCurrent.old (h : RingCurrent ring log) {unit : F32} {chunk : Chunk}
    (hpick : ring.pick unit = some chunk) :
    .drained chunk false ∈ epochOf log ∧ OldInRing chunk ring.entries := by
  obtain ⟨older, newest, heq, hnewest, hold⟩ := pick_spec hpick
  have hmem : chunk ∈ ring.entries := by
    rw [heq]
    exact mem_append_left _ hold
  refine ⟨h.drained chunk hmem, h.bounded.length_le, ?_, older, newest, heq, hnewest, hold, ?_⟩
  · rw [← h.bounded.bytes_eq]
    exact h.bounded.bytes_le
  · intro hnew
    have hord := h.ordered
    rw [heq, pairwise_append] at hord
    exact lt_irrefl _ (hord.2.2 chunk hold chunk hnew)

theorem RecycledCurrent.record {recycled : Option Image}
    (h : RecycledCurrent recycled log) (hev : event.isReset = false) :
    RecycledCurrent recycled (event :: log) :=
  fun image himage => mem_sinceReset_cons hev (h image himage)

theorem recycledCurrent_none (log : List Event) : RecycledCurrent none log := by
  intro image himage
  cases himage

namespace Sound

variable {stage : Stage}

theorem keyAccepted (h : Sound stage) (hseen : stage.engine.seen = true) :
    KeyAccepted stage.log := by
  obtain ⟨chunk, hacc, -⟩ := h.accepted hseen
  exact ⟨chunk, hacc⟩

theorem record (h : Sound stage) (event : Event)
    (hev : event.isReset = false) (hallowed : Allowed event stage.log) :
    Sound (stage.record event) where
  history := h.history.cons hallowed
  bootstrap := h.bootstrap
  accepted := by
    intro hseen
    obtain ⟨chunk, hacc, hdrain⟩ := h.accepted hseen
    exact ⟨chunk, mem_sinceReset_cons hev hacc, mem_sinceReset_cons hev hdrain⟩
  ring := h.ring.record event hev
  picture := fun picture hpicture => mem_sinceReset_cons hev (h.picture picture hpicture)
  recycled := h.recycled.record hev

theorem of_reset {engine : MoshEngine} {log : List Event} (h : Justified Allowed log)
    (hseen : engine.seen = false) (hneed : engine.needKey = true) (hring : engine.ring = .empty)
    (hpicture : engine.lastDecoded = none) (hrecy : engine.recycled = none) :
    Sound ⟨engine, .reset :: log⟩ where
  history := h.cons trivial
  bootstrap := by simp [hseen, hneed]
  accepted := by simp [hseen]
  ring := by
    rw [hring]
    exact ringCurrent_empty _
  picture := by simp [hpicture]
  recycled := by
    rw [hrecy]
    exact recycledCurrent_none _

theorem resetStream (h : Sound stage) : Sound stage.resetStream :=
  of_reset h.history rfl rfl rfl rfl rfl

theorem recoverDecodedOutput (h : Sound stage) : Sound stage.recoverDecodedOutput := by
  have hfault : Sound stage.recordDecodeFault := { h with }
  simp only [Stage.recoverDecodedOutput]
  split_ifs
  · exact hfault.resetStream
  · exact hfault.resetStream

theorem receive (h : Sound stage) (format : Pixel) (width height : ℕ) :
    Sound (stage.receive format width height) := by
  have hrec := h.record (.decoded ⟨stage.log.length, format, width, height⟩) rfl rfl
  exact
    { hrec with
      picture := by
        intro picture hpicture
        cases hpicture
        exact mem_sinceReset_self rfl }

end Sound

@[simp]
theorem seen_recoverDecodedOutput (stage : Stage) :
    stage.recoverDecodedOutput.engine.seen = false := by
  simp only [Stage.recoverDecodedOutput]
  split_ifs <;> rfl

@[simp]
theorem lastDecoded_recoverDecodedOutput (stage : Stage) :
    stage.recoverDecodedOutput.engine.lastDecoded = none := by
  simp only [Stage.recoverDecodedOutput]
  split_ifs <;> rfl

theorem log_recoverDecodedOutput (stage : Stage) :
    stage.recoverDecodedOutput.log = .reset :: stage.log := by
  simp only [Stage.recoverDecodedOutput]
  split_ifs <;> rfl

/-!
## Every call keeps the decoder on current data

Each step of a call keeps the stage sound and the first keys fed: a feed of the
decoder, a packet, the loop over the packets, the replacement of a stream, and
the blend.
-/

/-- The stream goes on: the bootstrap, the ring and the epoch stay. -/
structure Continues (before after : Stage) : Prop where
  seen : after.engine.seen = before.engine.seen
  ring : after.engine.ring = before.engine.ring
  epoch : ∀ event ∈ before.epoch, event ∈ after.epoch

theorem Continues.trans {before between after : Stage}
    (h : Continues before between) (hnext : Continues between after) :
    Continues before after where
  seen := hnext.seen.trans h.seen
  ring := hnext.ring.trans h.ring
  epoch := fun event hmem => hnext.epoch event (h.epoch event hmem)

def Extends (before after : List Event) : Prop :=
  ∃ new, after = new ++ before ∧ ∀ event ∈ new, event.isDrainedKey = false

theorem Extends.refl (log : List Event) : Extends log log := ⟨[], rfl, by simp⟩

variable {before after : List Event}

theorem Extends.cons (h : Extends before after) {event : Event} (hev : event.isDrainedKey = false) :
    Extends before (event :: after) := by
  obtain ⟨new, rfl, hnew⟩ := h
  refine ⟨event :: new, rfl, ?_⟩
  intro other hother
  rcases mem_cons.mp hother with rfl | hmem
  · exact hev
  · exact hnew other hmem

theorem Extends.trans {before between after : List Event}
    (h : Extends before between) (hnext : Extends between after) :
    Extends before after := by
  obtain ⟨new, rfl, hnew⟩ := h
  obtain ⟨more, rfl, hmore⟩ := hnext
  refine ⟨more ++ new, (append_assoc _ _ _).symm, ?_⟩
  intro event hev
  rcases mem_append.mp hev with hmem | hmem
  · exact hmore event hmem
  · exact hnew event hmem

theorem FirstKeysFed.extends (h : FirstKeysFed before) (hextends : Extends before after) :
    FirstKeysFed after := by
  obtain ⟨new, rfl, hnew⟩ := hextends
  exact h.append hnew

structure DrainSpec (stage : Stage) (result : MoshEmitOutcome × Stage) : Prop where
  sound : Sound result.2
  log : Extends stage.log result.2.log
  kept : result.1 ≠ .reset → Continues stage result.2
  lost : result.1 = .reset → result.2.engine.seen = false ∧ result.2.engine.lastDecoded = none

variable {stage : Stage}

theorem drainSpec_refl (h : Sound stage) {outcome : MoshEmitOutcome} (hout : outcome ≠ .reset) :
    DrainSpec stage (outcome, stage) where
  sound := h
  log := .refl _
  kept := fun _ => ⟨rfl, rfl, fun _ hmem => hmem⟩
  lost := fun hreset => absurd hreset hout

theorem drainSpec_recover (h : Sound stage) :
    DrainSpec stage (.reset, stage.recoverDecodedOutput) where
  sound := h.recoverDecodedOutput
  log := by
    rw [log_recoverDecodedOutput]
    exact (Extends.refl _).cons rfl
  kept := fun hkept => absurd rfl hkept
  lost := fun _ => ⟨seen_recoverDecodedOutput stage, lastDecoded_recoverDecodedOutput stage⟩

theorem continues_receive (stage : Stage) (format : Pixel) (width height : ℕ) :
    Continues stage (stage.receive format width height) where
  seen := rfl
  ring := rfl
  epoch := fun _ hmem => mem_sinceReset_cons rfl hmem

theorem drainDecoder_spec (budget : ℕ) (received : List Received)
    (decoded : Bool) (h : Sound stage) :
    DrainSpec stage (stage.drainDecoder budget received decoded) := by
  have hdone : (if decoded then .acceptedPicture else .accepted) ≠ MoshEmitOutcome.reset := by
    cases decoded <;> simp
  induction budget generalizing received decoded stage with
  | zero =>
    rw [Stage.drainDecoder]
    · exact drainSpec_refl h hdone
    · simp
    · simp
  | succ budget ih =>
    rcases received with _ | ⟨⟨format, width, height⟩ | _, rest⟩
    · rw [Stage.drainDecoder]
      · exact drainSpec_refl h hdone
      · simp
      · simp
    · rw [Stage.drainDecoder]
      have hrest := ih rest true (h.receive format width height) (by simp)
      refine ⟨hrest.sound, ?_, ?_, hrest.lost⟩
      · exact ((Extends.refl _).cons rfl).trans hrest.log
      · intro hkept
        exact (continues_receive stage format width height).trans (hrest.kept hkept)
    · rw [Stage.drainDecoder]
      exact drainSpec_recover h

structure EmitSpec (chunk : Chunk) (role : FeedRole) (stage : Stage)
    (result : MoshEmitOutcome × Stage) : Prop where
  sound : Sound result.2
  log : Extends (.fed chunk role :: stage.log) result.2.log
  kept : result.1 ≠ .reset → Continues stage result.2 ∧ .accepted chunk role ∈ result.2.epoch
  lost : result.1 = .reset → result.2.engine.seen = false ∧ result.2.engine.lastDecoded = none

theorem emit_spec (chunk : Chunk) (role : FeedRole) (h : Sound stage)
    (hallowed : RoleAllowed chunk stage.log role) (answer : FeedAnswer) :
    EmitSpec chunk role stage (stage.emit chunk role answer) := by
  have hcnt : Sound
      { stage with
        engine := { stage.engine with emitCount := stage.engine.emitCount + 1 } } := { h with }
  have hfed := hcnt.record (.fed chunk role) rfl hallowed
  simp only [Stage.emit]
  split_ifs with hsent hreset
  · have hdrain := drainDecoder_spec maxDecodeFramesPerChunk answer.received false hfed
    exact ⟨hdrain.sound, hdrain.log, fun hkept => absurd hreset hkept, hdrain.lost⟩
  · have hdrain := drainDecoder_spec maxDecodeFramesPerChunk answer.received false hfed
    have hgoes := hdrain.kept hreset
    refine ⟨hdrain.sound.record _ rfl trivial, hdrain.log.cons rfl, ?_, ?_⟩
    · intro _
      refine ⟨⟨hgoes.seen, hgoes.ring, ?_⟩, mem_sinceReset_self rfl⟩
      intro event hmem
      exact mem_sinceReset_cons rfl (hgoes.epoch event (mem_sinceReset_cons rfl hmem))
    · exact fun hlost => absurd hlost hreset
  · have hlost := drainSpec_recover hfed
    exact ⟨hlost.sound, hlost.log, fun hkept => absurd rfl hkept, hlost.lost⟩

/-- The loop over the packets: while the stream has no key, nothing has been
fed in this frame, and when a reset has ended the loop, no picture is held. -/
structure FeedingSound (feeding : Feeding) : Prop where
  sound : Sound feeding.stage
  firstKeys : FirstKeysFed feeding.stage.log
  fresh : feeding.ended = false → feeding.stage.engine.seen = false → feeding.emits = 0
  cleared : feeding.ended = true → feeding.stage.engine.lastDecoded = none

/-- The stream goes on unless the loop has ended. -/
def FeedingContinues (before after : Feeding) : Prop :=
  after.ended = false → before.ended = false ∧ Continues before.stage after.stage

theorem feedingContinues_refl (feeding : Feeding) : FeedingContinues feeding feeding :=
  fun hend => ⟨hend, rfl, rfl, fun _ hmem => hmem⟩

variable {before after : Feeding} {between : Feeding}

theorem FeedingContinues.trans (h : FeedingContinues before between)
    (hnext : FeedingContinues between after) :
    FeedingContinues before after := by
  intro hend
  obtain ⟨hbetween, hafter⟩ := hnext hend
  obtain ⟨hpre, hgoes⟩ := h hbetween
  exact ⟨hpre, hgoes.trans hafter⟩

/-- The epoch goes on unless the loop has ended. -/
def EpochKept (before after : Feeding) : Prop :=
  after.ended = false → before.ended = false ∧
    ∀ event ∈ before.stage.epoch, event ∈ after.stage.epoch

theorem FeedingContinues.epochKept (h : FeedingContinues before after) : EpochKept before after :=
  fun hend => ⟨(h hend).1, (h hend).2.epoch⟩

theorem EpochKept.trans (h : EpochKept before between)
    (hnext : EpochKept between after) : EpochKept before after := by
  intro hend
  obtain ⟨hbetween, hafter⟩ := hnext hend
  obtain ⟨hpre, hepoch⟩ := h hbetween
  exact ⟨hpre, fun event hmem => hafter event (hepoch event hmem)⟩

theorem epochKept_drained (feeding : Feeding) (chunk : Chunk) (key : Bool) :
    EpochKept feeding { feeding with stage := feeding.stage.record (.drained chunk key) } :=
  fun hend => ⟨hend, fun _ hmem => mem_sinceReset_cons rfl hmem⟩

variable {feeding : Feeding}

theorem feed_spec (chunk : Chunk) (role : FeedRole) (h : FeedingSound feeding)
    (hseen : feeding.ended = false → feeding.stage.engine.seen = true)
    (hallowed : feeding.ended = false →
      RoleAllowed chunk feeding.stage.log role) (answers : ℕ → FeedAnswer) :
    FeedingSound (feeding.feed answers chunk role) ∧
      FeedingContinues feeding (feeding.feed answers chunk role) := by
  unfold Feeding.feed
  split_ifs with hstop
  · exact ⟨h, feedingContinues_refl feeding⟩
  · obtain ⟨hend, -⟩ := not_or.mp hstop
    have hgoing : feeding.ended = false := by simpa using hend
    have hemit := emit_spec chunk role h.sound (hallowed hgoing) (answers feeding.emits)
    refine ⟨⟨hemit.sound, ?_, ?_, ?_⟩, ?_⟩
    · exact (h.firstKeys.cons rfl).extends hemit.log
    · intro hnext hunseen
      have hkept := hemit.kept (by simpa using hnext)
      rw [hkept.1.seen, hseen hgoing] at hunseen
      cases hunseen
    · intro hreset
      exact (hemit.lost (by simpa using hreset)).2
    · intro hnext
      exact ⟨hgoing, (hemit.kept (by simpa using hnext)).1⟩

structure Armed (chunk : Chunk) (feeding : Feeding) : Prop where
  seen : feeding.ended = false → feeding.stage.engine.seen = true
  drained : feeding.ended = false → .drained chunk false ∈ epochOf feeding.stage.log

variable {chunk : Chunk}

theorem Armed.continues (h : Armed chunk before) (hgoes : FeedingContinues before after) :
    Armed chunk after where
  seen := by
    intro hend
    obtain ⟨hpre, hstage⟩ := hgoes hend
    rw [hstage.seen]
    exact h.seen hpre
  drained := by
    intro hend
    obtain ⟨hpre, hstage⟩ := hgoes hend
    exact hstage.epoch _ (h.drained hpre)

variable (h : FeedingSound feeding)
include h

theorem holdChunk_spec (harmed : Armed chunk feeding) (answers : ℕ → FeedAnswer) (repeats : ℕ) :
    FeedingSound (feeding.holdChunk answers chunk repeats) ∧
      FeedingContinues feeding (feeding.holdChunk answers chunk repeats) := by
  induction repeats generalizing feeding with
  | zero => exact ⟨h, feedingContinues_refl feeding⟩
  | succ repeats ih =>
    have hfeed := feed_spec chunk .hold h harmed.seen
      (fun hend => ⟨harmed.drained hend, h.sound.keyAccepted (harmed.seen hend)⟩) answers
    have hrest := ih hfeed.1 (harmed.continues hfeed.2)
    exact ⟨hrest.1, hfeed.2.trans hrest.2⟩

theorem shuffleChunk_spec (hseen : feeding.ended = false → feeding.stage.engine.seen = true)
    (answers : ℕ → FeedAnswer) (pick : Option F32) :
    FeedingSound (feeding.shuffleChunk answers pick) ∧
      FeedingContinues feeding (feeding.shuffleChunk answers pick) := by
  unfold Feeding.shuffleChunk
  cases hpick : pick.bind feeding.stage.engine.ring.pick with
  | none => exact ⟨h, feedingContinues_refl feeding⟩
  | some stale =>
    obtain ⟨unit, -, hstale⟩ := Option.bind_eq_some_iff.mp hpick
    obtain ⟨hdrain, hold⟩ := h.sound.ring.old hstale
    exact feed_spec stale (.shuffled _) h hseen (fun hend =>
      ⟨hdrain, h.sound.keyAccepted (hseen hend), hold⟩) answers

theorem pushRing_spec (hserial : chunk.serial = feeding.stage.log.length) :
    FeedingSound (Feeding.pushRing chunk
      { feeding with stage := feeding.stage.record (.drained chunk false) }) := by
  have hrec := h.sound.record (.drained chunk false) rfl hserial
  refine ⟨?_, h.firstKeys.cons rfl, h.fresh, h.cleared⟩
  exact { hrec with ring := h.sound.ring.push hserial }

theorem deltaChunk_spec (hserial : chunk.serial = feeding.stage.log.length)
    (frame : Frame) (answers : ℕ → FeedAnswer) (index : UInt32) :
    FeedingSound (Feeding.deltaChunk frame answers index chunk
        { feeding with stage := feeding.stage.record (.drained chunk false) }) ∧
      EpochKept feeding (Feeding.deltaChunk frame answers index chunk
        { feeding with stage := feeding.stage.record (.drained chunk false) }) := by
  have hpushed := pushRing_spec h hserial
  have hkept := epochKept_drained feeding chunk false
  simp only [Feeding.deltaChunk]
  split_ifs with hunseen hdrop
  · exact ⟨hpushed, hkept⟩
  · exact ⟨hpushed, hkept⟩
  · have harmed : Armed chunk (Feeding.pushRing chunk
        { feeding with stage := feeding.stage.record (.drained chunk false) }) := by
      refine ⟨fun _ => by simpa using hunseen, fun _ => ?_⟩
      exact mem_sinceReset_self rfl
    have hfeed := feed_spec chunk .delta hpushed harmed.seen
      (fun hend => ⟨harmed.drained hend, hpushed.sound.keyAccepted (harmed.seen hend)⟩) answers
    have hheld := holdChunk_spec hfeed.1 (harmed.continues hfeed.2) answers
      (decideDeltaChunk frame.params.sanitized frame.ordinal index frame.seed).extraRepeats
    have hshuffled := shuffleChunk_spec hheld.1
      ((harmed.continues hfeed.2).continues hheld.2).seen answers
      (decideDeltaChunk frame.params.sanitized frame.ordinal index frame.seed).shufflePick
    exact ⟨hshuffled.1, hkept.trans ((hfeed.2.trans hheld.2).trans hshuffled.2).epochKept⟩

theorem fedKey_spec (hend : feeding.ended = false)
    (hserial : chunk.serial = feeding.stage.log.length)
    (hcap : feeding.emits < maxEmitsPerFrame) (answers : ℕ → FeedAnswer) :
    FeedingSound ((Feeding.feed answers chunk .key
        { feeding with stage := feeding.stage.record (.drained chunk true) }).bootstrapAfterEmit) ∧
      EpochKept feeding ((Feeding.feed answers chunk .key
        { feeding with stage := feeding.stage.record (.drained chunk true) }).bootstrapAfterEmit)
    := by
  have hrec := h.sound.record (.drained chunk true) rfl hserial
  have hdrain : .drained chunk true ∈ (feeding.stage.record (.drained chunk true)).epoch :=
    mem_sinceReset_self rfl
  have hemit := emit_spec chunk .key hrec hdrain (answers feeding.emits)
  unfold Feeding.feed
  rw [if_neg (by simp [hend, hcap])]
  refine ⟨⟨?_, (h.firstKeys.fed_key chunk).extends hemit.log, ?_, ?_⟩, ?_⟩
  · by_cases hreset : (Stage.emit chunk .key (answers feeding.emits)
        (feeding.stage.record (.drained chunk true))).1 = .reset
    · exact
        { hemit.sound with
          bootstrap := by simp [Feeding.bootstrapAfterEmit, hreset]
          accepted := by
            intro hseen
            simp [Feeding.bootstrapAfterEmit, hreset] at hseen }
    · obtain ⟨hgoes, hacc⟩ := hemit.kept hreset
      exact
        { hemit.sound with
          bootstrap := by simp [Feeding.bootstrapAfterEmit, hreset]
          accepted := fun _ => ⟨chunk, hacc, hgoes.epoch _ hdrain⟩ }
  · intro hgoing hunseen
    simp only [Feeding.bootstrapAfterEmit] at hgoing hunseen
    rw [hgoing] at hunseen
    cases hunseen
  · intro hreset
    exact (hemit.lost (by simpa [Feeding.bootstrapAfterEmit] using hreset)).2
  · intro hgoing
    have hkept := hemit.kept (by simpa [Feeding.bootstrapAfterEmit] using hgoing)
    exact ⟨hend, fun event hmem => hkept.1.epoch event (mem_sinceReset_cons rfl hmem)⟩

theorem keyChunk_spec (hend : feeding.ended = false)
    (hserial : chunk.serial = feeding.stage.log.length) (frame : Frame)
    (answers : ℕ → FeedAnswer) (index : UInt32) :
    FeedingSound (Feeding.keyChunk frame answers index chunk
        { feeding with stage := feeding.stage.record (.drained chunk true) }) ∧
      EpochKept feeding (Feeding.keyChunk frame answers index chunk
        { feeding with stage := feeding.stage.record (.drained chunk true) }) := by
  simp only [Feeding.keyChunk]
  by_cases hseen : feeding.stage.engine.seen = true
  · have hskip : FeedingSound
        { feeding with stage := feeding.stage.record (.drained chunk true) } := by
      obtain ⟨other, -, hother⟩ := h.sound.accepted hseen
      exact ⟨h.sound.record _ rfl hserial, h.firstKeys.later_key hother chunk, h.fresh, h.cleared⟩
    have hkept := epochKept_drained feeding chunk true
    split
    · split_ifs with hcap
      · exact fedKey_spec h hend hserial hcap answers
      · exact ⟨hskip, hkept⟩
    · exact ⟨hskip, hkept⟩
  · have hunseen : feeding.stage.engine.seen = false := by simpa using hseen
    have hnone := h.fresh hend hunseen
    have hcap : feeding.emits < maxEmitsPerFrame := by
      rw [hnone]
      decide
    have hpend : decideKeyChunk frame.params.sanitized frame.ordinal index
        frame.seed (!(feeding.stage.record (.drained chunk true)).engine.seen ||
          (feeding.stage.record (.drained chunk true)).engine.needKey) =
        .emit := by
      simp [decideKeyChunk, Stage.record, hunseen]
    rw [hpend]
    simp only [if_pos hcap]
    exact fedKey_spec h hend hserial hcap answers

theorem packet_spec (hend : feeding.ended = false) (frame : Frame)
    (answers : ℕ → FeedAnswer) (index : UInt32) (packet : Packet) :
    FeedingSound (feeding.packet frame answers index packet) ∧
      EpochKept feeding (feeding.packet frame answers index packet) := by
  unfold Feeding.packet
  cases packet.data with
  | none => exact ⟨h, (feedingContinues_refl feeding).epochKept⟩
  | some bytes =>
    cases hkey : packet.key with
    | true => simpa [hkey] using keyChunk_spec h hend rfl frame answers index
    | false => simpa [hkey] using deltaChunk_spec h rfl frame answers index

theorem packets_spec (frame : Frame) (answers : ℕ → FeedAnswer) (index : ℕ)
    (packets : List Packet) :
    FeedingSound (feeding.packets frame answers index packets) ∧
      EpochKept feeding (feeding.packets frame answers index packets) := by
  induction packets generalizing feeding index with
  | nil => exact ⟨h, (feedingContinues_refl feeding).epochKept⟩
  | cons next rest ih =>
    rw [Feeding.packets]
    split_ifs with hend
    · exact ⟨h, (feedingContinues_refl feeding).epochKept⟩
    · have hpacket := packet_spec h (by simpa using hend) frame answers (UInt32.ofNat index) next
      have hrest := ih hpacket.1 (index + 1)
      exact ⟨hrest.1, hpacket.2.trans hrest.2⟩

end CollideOScope.Mosh
