import CollideOScope.Support.Checks
import CollideOScope.Video.RasterMoves

/-!
# Handles are counted

A payload counts its handles in each role, and the ledger those of all its
payloads.  A payload that is there has a handle.
-/

namespace CollideOScope.Video

variable {R : Type}

structure InnerCounted (payloads : Table ℕ DecodedImagePayload) (id handles : ℕ)
    (owners : DecodedPayloadOwner → ℕ) : Prop where
  handles : handles = payloads.total fun handle => (decide (handle.inner = id)).toNat
  owners : ∀ owner, owners owner =
    payloads.total fun handle => (decide (handle = ⟨id, owner⟩)).toNat

namespace InnerCounted

variable {payloads : Table ℕ DecodedImagePayload} {id handles payload : ℕ}
  {owners : DecodedPayloadOwner → ℕ} {handle : DecodedImagePayload}

section

variable (h : InnerCounted payloads id handles owners)
include h

theorem insert (hnone : payloads.find payload = none) (owner : DecodedPayloadOwner) :
    InnerCounted (payloads.insert payload ⟨id, owner⟩) id (handles + 1)
      (Function.update owners owner (owners owner + 1)) where
  handles := by
    rw [Table.total_insert hnone, h.handles]
    simp
  owners other := by
    rw [Table.total_insert hnone, ← h.owners other]
    by_cases hother : other = owner
    · subst hother
      simp
    · have hne : owner ≠ other := fun heq => hother heq.symm
      simp [hother, hne]

theorem insert_other (hnone : payloads.find payload = none) (hne : handle.inner ≠ id) :
    InnerCounted (payloads.insert payload handle) id handles owners where
  handles := by
    rw [Table.total_insert hnone, h.handles]
    simp [hne]
  owners other := by
    have hdifferent : handle ≠ ⟨id, other⟩ := by
      rintro rfl
      exact hne rfl
    rw [Table.total_insert hnone, h.owners]
    simp [hdifferent]

theorem erase {owner : DecodedPayloadOwner} (hfind : payloads.find payload = some ⟨id, owner⟩) :
    InnerCounted (payloads.erase payload) id (handles - 1)
      (Function.update owners owner (owners owner - 1)) where
  handles := by
    have htot := Table.total_erase hfind fun handle => (decide (handle.inner = id)).toNat
    have hhands := h.handles
    simp only [decide_true, Bool.toNat_true] at htot
    omega
  owners other := by
    have htot := Table.total_erase hfind fun handle => (decide (handle = ⟨id, other⟩)).toNat
    have howners := h.owners other
    by_cases hother : other = owner
    · subst hother
      simp only [decide_true, Bool.toNat_true] at htot
      rw [Function.update_self]
      omega
    · have hne : (⟨id, owner⟩ : DecodedImagePayload) ≠ ⟨id, other⟩ := by
        intro heq
        exact hother (DecodedImagePayload.mk.inj heq).2.symm
      simp only [hne, decide_false, Bool.toNat_false, Nat.add_zero] at htot
      rw [Function.update_of_ne hother]
      omega

theorem erase_other (hfind : payloads.find payload = some handle) (hne : handle.inner ≠ id) :
    InnerCounted (payloads.erase payload) id handles owners where
  handles := by
    have htot := Table.total_erase hfind fun handle => (decide (handle.inner = id)).toNat
    have hhands := h.handles
    simp only [hne, decide_false, Bool.toNat_false, Nat.add_zero] at htot
    omega
  owners other := by
    have htot := Table.total_erase hfind fun handle => (decide (handle = ⟨id, other⟩)).toNat
    have howners := h.owners other
    have hdifferent : handle ≠ ⟨id, other⟩ := by
      rintro rfl
      exact hne rfl
    simp only [hdifferent, decide_false, Bool.toNat_false, Nat.add_zero] at htot
    omega

end

theorem find_ne (h : InnerCounted payloads id 0 owners)
    (hfind : payloads.find payload = some handle) : handle.inner ≠ id := by
  intro heq
  have hle := Table.measure_le_total hfind fun handle => (decide (handle.inner = id)).toNat
  rw [← h.handles] at hle
  simp [heq] at hle

end InnerCounted

def LedgerCounted (payloads : Table ℕ DecodedImagePayload)
    (owners : DecodedPayloadOwner → ℕ) : Prop :=
  ∀ owner, owners owner = payloads.total fun handle => (decide (handle.owner = owner)).toNat

namespace LedgerCounted

variable {payloads : Table ℕ DecodedImagePayload} {payload : ℕ}
  {owners : DecodedPayloadOwner → ℕ} {handle : DecodedImagePayload}

theorem insert (h : LedgerCounted payloads owners)
    (hnone : payloads.find payload = none) (handle : DecodedImagePayload) :
    LedgerCounted (payloads.insert payload handle)
      (Function.update owners handle.owner (owners handle.owner + 1)) := by
  intro owner
  rw [Table.total_insert hnone, ← h owner]
  by_cases howner : owner = handle.owner
  · subst howner
    simp
  · have hne : handle.owner ≠ owner := fun heq => howner heq.symm
    simp [howner, hne]

theorem erase (h : LedgerCounted payloads owners) (hfind : payloads.find payload = some handle) :
    LedgerCounted (payloads.erase payload)
      (Function.update owners handle.owner (owners handle.owner - 1)) := by
  intro owner
  have htot := Table.total_erase hfind fun handle => (decide (handle.owner = owner)).toNat
  have howners := h owner
  by_cases howner : owner = handle.owner
  · subst howner
    simp only [decide_true, Bool.toNat_true] at htot
    rw [Function.update_self]
    omega
  · have hne : handle.owner ≠ owner := fun heq => howner heq.symm
    simp only [hne, decide_false, Bool.toNat_false, Nat.add_zero] at htot
    rw [Function.update_of_ne howner]
    omega

end LedgerCounted

/-- The counts of all payloads and of the ledger. -/
structure OwnersSound (images : DecodedImages R) : Prop where
  counted : ∀ id inner, images.inners.find id = some inner →
    InnerCounted images.payloads id inner.handles inner.owners
  shared : ∀ id inner, images.inners.find id = some inner → 0 < inner.handles
  alive : ∀ payload handle, images.payloads.find payload = some handle →
    (images.inners.find handle.inner).isSome
  ledger : LedgerCounted images.payloads images.ledger.logicalOwners

structure ImagesSound (images : DecodedImages R) : Prop where
  rasters : RastersSound images []
  owners : OwnersSound images

theorem OwnersSound.moved {images next : DecodedImages R}
    (h : OwnersSound images) (hmoved : RasterMoved images next) :
    OwnersSound next where
  counted := by
    rw [hmoved.inners, hmoved.payloads]
    exact h.counted
  shared := by
    rw [hmoved.inners]
    exact h.shared
  alive := by
    rw [hmoved.inners, hmoved.payloads]
    exact h.alive
  ledger := by
    rw [hmoved.logicalOwners, hmoved.payloads]
    exact h.ledger

/-!
## Held pixels stay

Every operation on payloads and pools keeps the accounts, and the bytes of every
payload that stays alive.
-/

/-- `as_slice` of a live handle. -/
def DecodedImages.asSlice (images : DecodedImages R) (payload : ℕ) : Option Bytes :=
  (images.payloads.find payload).bind fun handle =>
    (images.inners.find handle.inner).bind fun inner =>
      (images.buffers.find inner.raster.buffer).map Buffer.bytes

/-- Old handles are dropped or see what they saw. -/
structure Kept (images next : DecodedImages R) : Prop where
  nextAddress : images.nextAddress ≤ next.nextAddress
  payloads : ∀ payload, payload < images.nextAddress →
    next.payloads.find payload = none ∨
      next.payloads.find payload = images.payloads.find payload ∧
        next.asSlice payload = images.asSlice payload

namespace Kept

variable {images middle next : DecodedImages R}

theorem refl (images : DecodedImages R) : Kept images images := ⟨le_rfl, fun _ _ => .inr ⟨rfl, rfl⟩⟩

theorem trans (h : Kept images middle) (hnext : Kept middle next) : Kept images next := by
  refine ⟨h.nextAddress.trans hnext.nextAddress, ?_⟩
  intro payload hlt
  obtain hgone | ⟨hfind, hslice⟩ := hnext.payloads payload (hlt.trans_le h.nextAddress)
  · exact .inl hgone
  · obtain hgone | ⟨hpre, hbeforeSlice⟩ := h.payloads payload hlt
    · exact .inl (hfind.trans hgone)
    · exact .inr ⟨hfind.trans hpre, hslice.trans hbeforeSlice⟩

theorem of_inners (hnext : images.nextAddress ≤ next.nextAddress)
    (h : ∀ payload, payload < images.nextAddress →
      next.payloads.find payload = none ∨
        next.payloads.find payload = images.payloads.find payload ∧
          ∀ handle, images.payloads.find payload = some handle →
            (next.inners.find handle.inner).map DecodedImagePayloadInner.raster =
              (images.inners.find handle.inner).map DecodedImagePayloadInner.raster ∧
            ∀ inner, images.inners.find handle.inner = some inner →
              next.buffers.find inner.raster.buffer = images.buffers.find inner.raster.buffer) :
    Kept images next := by
  refine ⟨hnext, ?_⟩
  intro payload hlt
  obtain hgone | ⟨hfind, hinner⟩ := h payload hlt
  · exact .inl hgone
  · refine .inr ⟨hfind, ?_⟩
    rw [DecodedImages.asSlice, DecodedImages.asSlice, hfind]
    cases hpayload : images.payloads.find payload with
    | none => rfl
    | some handle =>
      obtain ⟨hraster, hbuf⟩ := hinner handle hpayload
      simp only [Option.bind_some]
      cases hpre : images.inners.find handle.inner with
      | none =>
        rw [hpre] at hraster
        rw [Option.map_eq_none_iff.mp hraster]
        rfl
      | some inner =>
        rw [hpre] at hraster
        obtain ⟨after, hafter, heq⟩ := Option.map_eq_some_iff.mp hraster
        simp [hafter, heq, hbuf inner hpre]

theorem of_moved (h : RasterMoved images next) : Kept images next := by
  refine of_inners h.nextAddress ?_
  intro payload _
  refine .inr ⟨by rw [h.payloads], ?_⟩
  intro handle _
  exact ⟨by rw [h.inners], h.buffers handle.inner⟩

end Kept

namespace RastersSound

variable {images : DecodedImages R} {hand : List RecycledRaster}

theorem touch (h : RastersSound images hand) (innerId : ℕ)
    {f : DecodedImagePayloadInner R → DecodedImagePayloadInner R}
    (hraster : ∀ inner, (f inner).raster = inner.raster)
    (hpool : ∀ inner, (f inner).pool = inner.pool) (payloads : Table ℕ DecodedImagePayload)
    (logicalOwners : DecodedPayloadOwner → ℕ) {nextAddress : ℕ}
    (hnext : images.nextAddress ≤ nextAddress)
    (hfresh : ∀ address, nextAddress ≤ address → payloads.find address = none) :
    RastersSound { images with
      inners := images.inners.adjust innerId f
      payloads
      ledger := { images.ledger with logicalOwners }
      nextAddress } hand := by
  have hfind : ∀ id inner, (images.inners.adjust innerId f).find id =
      some inner → ∃ before, images.inners.find id = some before ∧
        inner.raster = before.raster ∧ inner.pool = before.pool := by
    intro id inner hinner
    simp only [Table.find_adjust] at hinner
    split_ifs at hinner
    · obtain ⟨before, hpre, rfl⟩ := Option.map_eq_some_iff.mp hinner
      exact ⟨before, hpre, hraster before, hpool before⟩
    · exact ⟨inner, hinner, rfl, rfl⟩
  refine h.move ?_ ?_ rfl rfl rfl ?_ ?_ h.idleHome hnext ?_
  · intro measure
    have htot : (images.inners.adjust innerId f).total
        (fun inner => measure inner.raster) =
          images.inners.total fun inner => measure inner.raster := by
      apply Table.total_adjust_of_eq
      intro inner
      rw [hraster]
    simp only [DecodedImages.held, htot]
  · intro other hother
    cases hother with
    | @inner id inner hinner =>
      obtain ⟨before, hpre, hsame, -⟩ := hfind id inner hinner
      rw [hsame]
      exact .inner hpre
    | idle hfound hmem => exact .idle hfound hmem
    | hand hmem => exact .hand hmem
  · intro id pool hfound
    exact ⟨pool, hfound, rfl, rfl, rfl, (h.owned_le id pool hfound).2⟩
  · intro id inner hinner
    obtain ⟨before, hpre, hsame, hsamePool⟩ := hfind id inner hinner
    rw [hsame, hsamePool]
    exact h.innerHome id before hpre
  · intro address haddr hle
    obtain ⟨-, hfreshPool, hfreshInner, -⟩ := h.fresh address haddr
    refine ⟨hfreshPool, ?_, hfresh address hle⟩
    simp [Table.find_adjust, hfreshInner]

end RastersSound

namespace ImagesSound

variable {images : DecodedImages R} {handle : DecodedImagePayload}

open DecodedImages (removeOwner addOwner)

open Table (find_insert find_erase)

theorem shareAs (h : ImagesSound images) {payload : ℕ}
    (hhand : images.payloads.find payload = some handle) (owner : DecodedPayloadOwner) :
    ImagesSound (images.shareAs handle owner) ∧ Kept images (images.shareAs handle owner) := by
  have hnone := (h.rasters.fresh images.nextAddress le_rfl).2.2.2
  obtain ⟨inner, hinner⟩ := Option.isSome_iff_exists.mp (h.owners.alive payload handle hhand)
  simp only [DecodedImages.shareAs, addOwner, DecodedImageLedger.addOwner, Table.adjust_adjust]
  have hfind : ∀ id found, (images.inners.adjust handle.inner fun inner =>
      { inner with
        handles := inner.handles + 1
        owners := Function.update inner.owners owner
          (inner.owners owner + 1) }).find id = some found →
        ∃ before, images.inners.find id = some before ∧
          (id = handle.inner ∧ found = { before with
            handles := before.handles + 1
            owners := Function.update before.owners owner (before.owners owner + 1) } ∨
            id ≠ handle.inner ∧ found = before) := by
    intro id found hfound
    simp only [Table.find_adjust] at hfound
    split_ifs at hfound with hid
    · obtain ⟨before, hpre, rfl⟩ := Option.map_eq_some_iff.mp hfound
      exact ⟨before, hpre, .inl ⟨hid, rfl⟩⟩
    · exact ⟨found, hfound, .inr ⟨hid, rfl⟩⟩
  refine ⟨⟨?_, ?_⟩, ?_⟩
  · refine h.rasters.touch handle.inner ?_ ?_ _ _ (Nat.le_succ _) ?_
    · exact fun _ => rfl
    · exact fun _ => rfl
    · intro address haddr
      have hne : address ≠ images.nextAddress := by omega
      simp only [find_insert, hne, if_false]
      exact (h.rasters.fresh address (by omega)).2.2.2
  · refine ⟨?_, ?_, ?_, h.owners.ledger.insert hnone _⟩
    · intro id found hfound
      obtain ⟨before, hpre, ⟨rfl, rfl⟩ | ⟨hne, rfl⟩⟩ := hfind id found hfound
      · exact (h.owners.counted _ before hpre).insert hnone owner
      · exact (h.owners.counted id found hpre).insert_other hnone
          fun heq => hne heq.symm
    · intro id found hfound
      obtain ⟨before, hpre, ⟨-, rfl⟩ | ⟨-, rfl⟩⟩ := hfind id found hfound
      · exact Nat.succ_pos _
      · exact h.owners.shared id found hpre
    · intro other found hother
      simp only [find_insert] at hother
      simp only [Table.find_adjust]
      split_ifs at hother with hnew
      · cases hother
        simp [hinner]
      · have halive := h.owners.alive other found hother
        split_ifs
        · rw [Option.isSome_map]
          exact halive
        · exact halive
  · refine Kept.of_inners (Nat.le_succ _) ?_
    intro other hlt
    have hne : other ≠ images.nextAddress := hlt.ne
    refine .inr ⟨by simp only [find_insert, hne, if_false], ?_⟩
    intro found _
    refine ⟨?_, fun _ _ => rfl⟩
    simp only [Table.find_adjust]
    split_ifs
    · rw [Option.map_map]
      rfl
    · rfl

variable {poolId : ℕ}

theorem freeze {raster : RecycledRaster}
    (hrasters : RastersSound images [raster]) (howners : OwnersSound images)
    (hhome : raster.poolLease.map PoolAllocationLease.pool = some poolId)
    (layout : DecodedRasterLayout) (outputLen : ℕ) {bytes : Bytes}
    (hlen : ∀ buffer, images.buffers.find raster.buffer = some buffer →
      bytes.length ≤ buffer.capacity) (recipe : Option R) : let next :=
      (images.freeze poolId layout raster outputLen bytes recipe).1
    ImagesSound next ∧ Kept images next := by
  intro next
  have hwrit := hrasters.write hlen
  have hmoved := hrasters.write_moved bytes
  have hwrittenOwners := howners.moved hmoved
  suffices hnext : ImagesSound next ∧ Kept (images.write raster.buffer bytes) next from
    ⟨hnext.1, (Kept.of_moved hmoved).trans hnext.2⟩
  simp only [next, DecodedImages.freeze]
  generalize images.write raster.buffer bytes = written at *
  have hnone := (hwrit.fresh written.nextAddress le_rfl).2.2.1
  have hnonePayload := (hwrit.fresh (written.nextAddress + 1) (Nat.le_succ _)).2.2.2
  have hinstalled := hwrit.install
    { identity := max written.nextPayloadId 1
      layout
      raster
      pool := poolId
      owners := fun _ => 0
      conversionRecipe := recipe
      handles := 1 } rfl hhome
    (written.ledger.materializationCopiedBytes + UInt64.ofNat outputLen)
    (written.nextPayloadId + 1)
  have hemp : InnerCounted written.payloads written.nextAddress 0
      fun _ => 0 := by
    have hother : ∀ payload handle, written.payloads.find payload =
        some handle → handle.inner ≠ written.nextAddress := by
      intro payload handle hhand heq
      have halive := hwrittenOwners.alive payload handle hhand
      rw [heq, hnone] at halive
      cases halive
    refine ⟨?_, ?_⟩
    · rw [Table.total_eq_zero]
      intro payload handle hhand
      simp [hother payload handle hhand]
    · intro owner
      rw [Table.total_eq_zero]
      intro payload handle hhand
      have hne : handle ≠ ⟨written.nextAddress, owner⟩ := by
        rintro rfl
        exact hother payload _ hhand rfl
      simp [hne]
  refine ⟨⟨?_, ?_⟩, ?_⟩
  · refine hinstalled.touch written.nextAddress ?_ ?_ _ _ le_rfl ?_
    · exact fun _ => rfl
    · exact fun _ => rfl
    · intro address haddr
      simp only at haddr
      have hne : address ≠ written.nextAddress + 1 := by omega
      simp only [find_insert, hne, if_false]
      exact (hwrit.fresh address (by omega)).2.2.2
  · have hfind : ∀ id found, ((written.inners.insert written.nextAddress
        { identity := max written.nextPayloadId 1
          layout
          raster
          pool := poolId
          owners := fun _ => 0
          conversionRecipe := recipe
          handles := 1 }).adjust written.nextAddress fun inner =>
            { inner with
              owners := Function.update inner.owners .forward
                (inner.owners .forward + 1) }).find id = some found →
          id = written.nextAddress ∧ found.handles = 1 ∧
              found.owners = Function.update (fun _ => 0) .forward 1 ∨
            id ≠ written.nextAddress ∧ written.inners.find id = some found := by
      intro id found hfound
      simp only [Table.find_adjust, find_insert] at hfound
      split_ifs at hfound with hid
      · simp only [Option.map_some, Option.some.injEq] at hfound
        subst hfound
        exact .inl ⟨hid, rfl, rfl⟩
      · exact .inr ⟨hid, hfound⟩
    refine ⟨?_, ?_, ?_, hwrittenOwners.ledger.insert hnonePayload _⟩
    · intro id found hfound
      obtain ⟨rfl, hhands, hfoundOwners⟩ | ⟨hne, hpre⟩ := hfind id found hfound
      · rw [hhands, hfoundOwners]
        exact hemp.insert hnonePayload .forward
      · exact (hwrittenOwners.counted id found hpre).insert_other
          hnonePayload fun heq => hne heq.symm
    · intro id found hfound
      obtain ⟨-, hhands, -⟩ | ⟨-, hpre⟩ := hfind id found hfound
      · rw [hhands]
        exact Nat.one_pos
      · exact hwrittenOwners.shared id found hpre
    · intro other handle hother
      simp only [addOwner, find_insert] at hother
      simp only [addOwner, Table.find_adjust, find_insert]
      split_ifs at hother with hnew
      · cases hother
        simp
      · have halive := hwrittenOwners.alive other handle hother
        split_ifs
        · rfl
        · exact halive
  · refine Kept.of_inners (Nat.le_add_right _ _) ?_
    intro other hlt
    have hne : other ≠ written.nextAddress + 1 := by omega
    refine .inr ⟨by simp only [addOwner, find_insert, hne, if_false], ?_⟩
    intro found hfound
    refine ⟨?_, fun _ _ => rfl⟩
    have halive := hwrittenOwners.alive other found hfound
    have hother : found.inner ≠ written.nextAddress := by
      intro heq
      rw [heq, hnone] at halive
      cases halive
    simp [addOwner, Table.find_adjust, find_insert, hother]

theorem dropInner {innerId : ℕ} {inner : DecodedImagePayloadInner R}
    (hrasters : RastersSound images []) (hinner : images.inners.find innerId = some inner)
    (howners : OwnersSound { images with inners := images.inners.erase innerId }) :
    ImagesSound (images.dropInner innerId inner) ∧
      Kept { images with inners := images.inners.erase innerId }
        (images.dropInner innerId inner) := by
  have hhand := hrasters.uninstall hinner
  have hhome := hrasters.innerHome innerId inner hinner
  have hdrop : ImagesSound
      (DecodedImages.dropRaster { images with
        inners := images.inners.erase innerId } inner.raster) ∧
      Kept { images with inners := images.inners.erase innerId }
        (DecodedImages.dropRaster { images with
          inners := images.inners.erase innerId } inner.raster) :=
    ⟨⟨hhand.dropRaster, howners.moved hhand.dropRaster_moved⟩, .of_moved hhand.dropRaster_moved⟩
  simp only [DecodedImages.dropInner]
  split
  · exact hdrop
  · rename_i pool hpool
    split_ifs with hlayout hroom
    · exact hdrop
    · refine ⟨⟨hhand.pushIdle hpool hhome hroom, ?_⟩, ?_⟩
      · exact ⟨howners.counted, howners.shared, howners.alive, howners.ledger⟩
      · refine Kept.of_inners le_rfl ?_
        intro payload _
        exact .inr ⟨rfl, fun _ _ => ⟨rfl, fun _ _ => rfl⟩⟩
    · exact hdrop

theorem dropPayload (h : ImagesSound images) {payload : ℕ}
    (hhand : images.payloads.find payload = some handle) :
    ImagesSound (images.dropPayload payload handle) ∧
      Kept images (images.dropPayload payload handle) := by
  obtain ⟨inner, hinner⟩ := Option.isSome_iff_exists.mp (h.owners.alive payload handle hhand)
  have hfind : ∀ id found,
      (images.removeOwner payload handle).inners.find id = some found →
        ∃ before, images.inners.find id = some before ∧
          (id = handle.inner ∧ found.handles = before.handles - 1 ∧
              found.owners = Function.update before.owners handle.owner
                (before.owners handle.owner - 1) ∨
            id ≠ handle.inner ∧ found = before) := by
    intro id found hfound
    simp only [removeOwner, Table.find_adjust] at hfound
    split_ifs at hfound with hid
    · obtain ⟨before, hpre, rfl⟩ := Option.map_eq_some_iff.mp hfound
      exact ⟨before, hpre, .inl ⟨hid, rfl, rfl⟩⟩
    · exact ⟨found, hfound, .inr ⟨hid, rfl⟩⟩
  have hrasters : RastersSound (images.removeOwner payload handle) [] := by
    refine h.rasters.touch handle.inner ?_ ?_ _ _ le_rfl ?_
    · exact fun _ => rfl
    · exact fun _ => rfl
    · intro address haddr
      rw [find_erase, (h.rasters.fresh address haddr).2.2.2, ite_self]
  have hcounted : ∀ id found,
      (images.removeOwner payload handle).inners.find id = some found →
        InnerCounted (images.removeOwner payload handle).payloads id
          found.handles found.owners := by
    intro id found hfound
    obtain ⟨before, hpre, ⟨rfl, hhands, howners⟩ | ⟨hne, rfl⟩⟩ := hfind id found hfound
    · rw [hhands, howners]
      exact (h.owners.counted _ before hpre).erase hhand
    · exact (h.owners.counted id found hpre).erase_other hhand
        fun heq => hne heq.symm
  have halive : ∀ other found,
      (images.removeOwner payload handle).payloads.find other = some found →
        ((images.removeOwner payload handle).inners.find found.inner).isSome := by
    intro other found hother
    simp only [removeOwner, find_erase] at hother
    split_ifs at hother
    have hpre := h.owners.alive other found hother
    simp only [removeOwner, Table.find_adjust]
    split_ifs
    · rw [Option.isSome_map]
      exact hpre
    · exact hpre
  have hledger : LedgerCounted (images.removeOwner payload handle).payloads
      (images.removeOwner payload handle).ledger.logicalOwners :=
    h.owners.ledger.erase hhand
  have hkept : Kept images (images.removeOwner payload handle) := by
    refine Kept.of_inners le_rfl ?_
    intro other _
    by_cases hother : other = payload
    · left
      simp [removeOwner, hother]
    · right
      refine ⟨by simp [removeOwner, hother], ?_⟩
      intro found _
      refine ⟨?_, fun _ _ => rfl⟩
      simp only [removeOwner, Table.find_adjust]
      split_ifs
      · rw [Option.map_map]
        rfl
      · rfl
  simp only [DecodedImages.dropPayload]
  split
  · rename_i left hleft
    split_ifs with hzero
    · have howners : OwnersSound { images.removeOwner payload handle with
          inners := (images.removeOwner payload handle).inners.erase handle.inner } := by
        have hnone : ∀ other found,
            (images.removeOwner payload handle).payloads.find other =
              some found → found.inner ≠ handle.inner := by
          intro other found hother
          have hcnt := hcounted handle.inner left hleft
          rw [hzero] at hcnt
          exact hcnt.find_ne hother
        refine ⟨?_, ?_, ?_, hledger⟩
        · intro id found hfound
          simp only [find_erase] at hfound
          split_ifs at hfound
          exact hcounted id found hfound
        · intro id found hfound
          simp only [find_erase] at hfound
          split_ifs at hfound with hid
          obtain ⟨before, hpre, ⟨heq, -⟩ | ⟨-, rfl⟩⟩ := hfind id found hfound
          · exact absurd heq hid
          · exact h.owners.shared id found hpre
        · intro other found hother
          simp only [find_erase, hnone other found hother, if_false]
          exact halive other found hother
      obtain ⟨hsound, hkeptRest⟩ := dropInner hrasters hleft howners
      refine ⟨hsound, hkept.trans (Kept.trans ?_ hkeptRest)⟩
      refine Kept.of_inners le_rfl ?_
      intro other _
      refine .inr ⟨rfl, ?_⟩
      intro found hother
      refine ⟨?_, fun _ _ => rfl⟩
      have hcnt := hcounted handle.inner left hleft
      rw [hzero] at hcnt
      simp [find_erase, hcnt.find_ne hother]
    · refine ⟨⟨hrasters, hcounted, ?_, halive, hledger⟩, hkept⟩
      intro id found hfound
      obtain ⟨before, hpre, ⟨rfl, -⟩ | ⟨-, rfl⟩⟩ := hfind id found hfound
      · rw [hleft] at hfound
        cases hfound
        exact Nat.pos_of_ne_zero hzero
      · exact h.owners.shared id found hpre
  · rename_i hleft
    simp [removeOwner, hinner] at hleft

theorem dropPool (h : ImagesSound images) {pool : RasterPoolInner}
    (hpool : images.pools.find poolId = some pool) :
    ImagesSound (images.dropPool poolId pool) ∧ Kept images (images.dropPool poolId pool) := by
  rw [DecodedImages.dropPool]
  split_ifs
  · have herased := h.rasters.erasePool hpool
    have hmoved := herased.dropAll_moved
    have howners : OwnersSound { images with pools := images.pools.erase poolId } :=
      ⟨h.owners.counted, h.owners.shared, h.owners.alive, h.owners.ledger⟩
    refine ⟨⟨herased.dropAll, howners.moved hmoved⟩, ?_⟩
    · refine Kept.trans ?_ (.of_moved hmoved)
      refine Kept.of_inners le_rfl ?_
      intro payload _
      exact .inr ⟨rfl, fun _ _ => ⟨rfl, fun _ _ => rfl⟩⟩
  · refine ⟨⟨h.rasters.poolHandles poolId (· - 1), ?_⟩, ?_⟩
    · exact ⟨h.owners.counted, h.owners.shared, h.owners.alive, h.owners.ledger⟩
    · refine Kept.of_inners le_rfl ?_
      intro payload _
      exact .inr ⟨rfl, fun _ _ => ⟨rfl, fun _ _ => rfl⟩⟩

end ImagesSound

variable {layout : DecodedRasterLayout} {outputLen : ℕ}

theorem DecodedRasterLayout.byteLen_eq_ok (h : layout.byteLen = .ok outputLen) :
    outputLen = layout.stride * layout.height +
      match layout.format with
      | .packedRgba8 => 0
      | .planarYuv420p8 =>
        layout.chromaDimensions.1 * layout.chromaDimensions.2 * 2 := by
  simp only [byteLen] at h
  split at h
  · cases h
  · rename_i length hlen
    cases h
    cases hfmt : layout.format with
    | packedRgba8 =>
      rw [hfmt] at hlen
      obtain ⟨-, rfl⟩ := checkedWord_eq_some.mp hlen
      rfl
    | planarYuv420p8 =>
      rw [hfmt] at hlen
      simp only [checkedMulU64, checkedAddU64, Option.bind_eq_some_iff, checkedWord_eq_some] at hlen
      obtain ⟨luma, ⟨-, rfl⟩, chroma, ⟨-, rfl⟩, both, ⟨-, rfl⟩, -, rfl⟩ := hlen
      rfl

theorem DecodedImages.rows_length_le (data : Bytes) (stride rowBytes count : ℕ) :
    (rows data stride rowBytes count).length ≤ rowBytes * count := by
  rw [rows, List.length_flatMap]
  have hrow : ∀ length ∈ (List.range count).map fun row =>
      ((data.drop (row * stride)).take rowBytes).length, length ≤ rowBytes := by
    intro length hmem
    obtain ⟨row, -, rfl⟩ := List.mem_map.mp hmem
    exact List.length_take_le _ _
  have hsum := List.sum_le_card_nsmul _ rowBytes hrow
  rw [List.length_map, List.length_range, nsmul_eq_mul, Nat.cast_id, Nat.mul_comm] at hsum
  exact hsum

theorem DecodedImages.packPlane_length_le (plane : Plane) (rowBytes count : ℕ) :
    (packPlane plane rowBytes count).length ≤ rowBytes * count := by
  rw [packPlane]
  split_ifs
  · exact List.length_take_le _ _
  · exact rows_length_le _ _ _ _

theorem DecodedImages.validatePlanes_ok {luma chromaU chromaV : Plane}
    (h : validatePlanes layout luma chromaU chromaV = .ok outputLen) :
    layout.format = .planarYuv420p8 ∧ layout.byteLen = .ok outputLen := by
  simp only [validatePlanes] at h
  by_cases hfmt : layout.format = .planarYuv420p8
  · refine ⟨hfmt, ?_⟩
    rw [if_neg (not_not.mpr hfmt)] at h
    obtain ⟨length, hlen, hplanes⟩ := Checks.bind_ok.mp h
    obtain ⟨-, -, hchroma⟩ := Checks.bind_ok.mp hplanes
    obtain ⟨-, -, hlast⟩ := Checks.bind_ok.mp hchroma
    obtain ⟨-, -, hreturn⟩ := Checks.bind_ok.mp hlast
    cases hreturn
    exact hlen
  · rw [if_pos hfmt] at h
    cases h

end CollideOScope.Video
