import CollideOScope.Video.Payload

/-!
# Every buffer has one holder

A raster is held by a payload, is idle in a pool, or is in the hand of the
operation that moves it.  Sums over the rasters that are held give the accounts
of the pools and of the ledger, and count the holders of a buffer.
-/

namespace CollideOScope.Video

open Nat Table DecodedImageLedger List Option RecycledRaster DecodedImages

variable {R : Type}

namespace RecycledRaster

def occupies (address : ℕ) (raster : RecycledRaster) : ℕ := (decide (raster.buffer = address)).toNat

def aggregate (raster : RecycledRaster) : ℕ := raster.aggregateLease.getD 0

def leased (pool : ℕ) (raster : RecycledRaster) : ℕ :=
  match raster.poolLease with
  | some lease => if lease.pool = pool then lease.bytes else 0
  | none => 0

end RecycledRaster

namespace DecodedImages

/-- The sum of a measure over the rasters of payloads, pools and a hand. -/
def held (images : DecodedImages R) (hand : List RecycledRaster)
    (measure : RecycledRaster → ℕ) : ℕ :=
  images.inners.total (fun inner => measure inner.raster) +
    images.pools.total (fun pool => (pool.idle.map measure).sum) + (hand.map measure).sum

inductive Holds (images : DecodedImages R) (hand : List RecycledRaster) : RecycledRaster → Prop
  | inner {id : ℕ} {inner : DecodedImagePayloadInner R}
      (h : images.inners.find id = some inner) :
      Holds images hand inner.raster
  | idle {id : ℕ} {pool : RasterPoolInner} {raster : RecycledRaster}
      (h : images.pools.find id = some pool) (hraster : raster ∈ pool.idle) :
      Holds images hand raster
  | hand {raster : RecycledRaster} (h : raster ∈ hand) : Holds images hand raster

theorem held_cons (images : DecodedImages R) (raster : RecycledRaster)
    (hand : List RecycledRaster) (measure : RecycledRaster → ℕ) :
    images.held (raster :: hand) measure = images.held hand measure + measure raster := by
  simp only [held, map_cons, sum_cons]
  omega

theorem total_idle_adjust (pools : Table ℕ RasterPoolInner) (id : ℕ)
    {f : RasterPoolInner → RasterPoolInner}
    (hidle : ∀ pool, (f pool).idle = pool.idle) (measure : RecycledRaster → ℕ) :
    (pools.adjust id f).total (fun pool => (pool.idle.map measure).sum) =
      pools.total fun pool => (pool.idle.map measure).sum := by
  apply total_adjust_of_eq
  intro pool
  rw [hidle]

variable {hand : List RecycledRaster} {images : DecodedImages R} {raster : RecycledRaster}

theorem Holds.le_held (h : images.Holds hand raster) (measure : RecycledRaster → ℕ) :
    measure raster ≤ images.held hand measure := by
  rw [held]
  cases h with
  | inner h =>
    have := measure_le_total h fun inner => measure inner.raster
    omega
  | idle h hraster =>
    have := measure_le_total h fun pool => (pool.idle.map measure).sum
    have := single_le_sum (fun _ _ => zero_le _) _ (mem_map_of_mem (f := measure) hraster)
    omega
  | hand h =>
    have := single_le_sum (fun _ _ => zero_le _) _ (mem_map_of_mem (f := measure) h)
    omega

theorem held_congr {measure other : RecycledRaster → ℕ}
    (h : ∀ raster, images.Holds hand raster → measure raster = other raster) :
    images.held hand measure = images.held hand other := by
  have hinners : images.inners.total (fun inner => measure inner.raster) =
      images.inners.total fun inner => other inner.raster := by
    apply total_congr
    intro id inner hinner
    exact h _ (.inner hinner)
  have hpools : images.pools.total (fun pool => (pool.idle.map measure).sum) =
      images.pools.total fun pool => (pool.idle.map other).sum := by
    apply total_congr
    intro id pool hpool
    rw [map_congr_left fun raster hraster => h raster (.idle hpool hraster)]
  have hhand : hand.map measure = hand.map other :=
    map_congr_left fun raster hraster => h raster (.hand hraster)
  rw [held, held, hinners, hpools, hhand]

theorem Holds.cons
    (h : images.Holds hand raster)
    (other : RecycledRaster) : images.Holds (other :: hand) raster := by
  cases h with
  | inner h => exact .inner h
  | idle h hraster => exact .idle h hraster
  | hand h => exact .hand (mem_cons_of_mem _ h)

end DecodedImages

/-- The leases of a raster are for the capacity of its buffer, which is large
enough for the pool's images. -/
structure LeasedRaster (images : DecodedImages R) (raster : RecycledRaster) : Prop where
  lease : ∃ buffer pool, images.buffers.find raster.buffer = some buffer ∧
    raster.aggregateLease = some buffer.capacity ∧
      raster.poolLease = some ⟨pool, buffer.capacity⟩ ∧
        pool < images.nextAddress ∧
          ∀ inner outputLen, images.pools.find pool = some inner →
            inner.layout.byteLen = .ok outputLen → outputLen ≤ buffer.capacity

structure RastersSound (images : DecodedImages R) (hand : List RecycledRaster) : Prop where
  /-- A buffer that is allocated has one holder, and a freed one none. -/
  located : ∀ address, images.held hand (occupies address) =
    (images.buffers.find address).isSome.toNat
  physical : images.ledger.physicalBytes = images.held hand aggregate
  allocated : images.buffers.total Buffer.capacity = images.ledger.physicalBytes
  physical_le : images.ledger.physicalBytes ≤ images.ledger.maxBytes
  owned : ∀ id pool, images.pools.find id = some pool →
    pool.ownedBytes = images.held hand (leased id)
  owned_le : ∀ id pool, images.pools.find id = some pool →
    pool.ownedBytes ≤ pool.maxPhysicalBytes ∧ pool.idle.length ≤ pool.maxIdleSlots
  leases : ∀ raster, images.Holds hand raster → LeasedRaster images raster
  innerHome : ∀ id inner, images.inners.find id = some inner →
    inner.raster.poolLease.map PoolAllocationLease.pool = some inner.pool
  idleHome : ∀ id pool raster, images.pools.find id = some pool →
    raster ∈ pool.idle → raster.poolLease.map PoolAllocationLease.pool = some id
  fresh : ∀ address, images.nextAddress ≤ address →
    images.buffers.find address = none ∧ images.pools.find address = none ∧
      images.inners.find address = none ∧ images.payloads.find address = none

namespace RastersSound

variable {images : DecodedImages R} {hand : List RecycledRaster} {raster : RecycledRaster}

theorem buffer_ne (h : RastersSound images (raster :: hand))
    {other : RecycledRaster} (hother : images.Holds hand other) :
    other.buffer ≠ raster.buffer := by
  intro heq
  have hloc := h.located raster.buffer
  have hle := hother.le_held (occupies raster.buffer)
  have hlim := Bool.toNat_le (images.buffers.find raster.buffer).isSome
  rw [held_cons] at hloc
  simp only [occupies, heq, decide_true, Bool.toNat_true] at hloc hle
  omega

end RastersSound

namespace DecodedImages

variable (images : DecodedImages R)

theorem dropRaster_eq {raster : RecycledRaster} {bytes pool : ℕ}
    (hagg : raster.aggregateLease = some bytes) (hlease : raster.poolLease = some ⟨pool, bytes⟩) :
    images.dropRaster raster = { images with
      buffers := images.buffers.erase raster.buffer
      ledger := images.ledger.release bytes
      pools := images.pools.adjust pool fun pool => pool.release bytes } := by
  simp [dropRaster, hagg, hlease, releasePool]

end DecodedImages

namespace RastersSound

variable {images : DecodedImages R} {hand : List RecycledRaster} {raster : RecycledRaster}

theorem dropRaster (h : RastersSound images (raster :: hand)) :
    RastersSound (images.dropRaster raster) hand := by
  obtain ⟨buffer, poolId, hbuf, hagg, hlease, hlt, -⟩ :=
    (h.leases raster (.hand mem_cons_self)).lease
  rw [images.dropRaster_eq hagg hlease]
  have hheld : ∀ measure, held { images with
      buffers := images.buffers.erase raster.buffer
      ledger := images.ledger.release buffer.capacity
      pools := images.pools.adjust poolId fun pool =>
        pool.release buffer.capacity } hand measure =
        images.held hand measure := by
    intro measure
    simp only [held]
    rw [total_idle_adjust]
    exact fun _ => rfl
  have hphysical := h.physical
  rw [held_cons] at hphysical
  simp only [aggregate, hagg, getD_some] at hphysical
  have hle := h.physical_le
  have hleased : raster.leased poolId = buffer.capacity := by simp [leased, hlease]
  refine ⟨?_, ?_, ?_, ?_, ?_, ?_, ?_, h.innerHome, ?_, ?_⟩
  · intro address
    rw [hheld]
    have hloc := h.located address
    rw [held_cons] at hloc
    simp only [find_erase]
    by_cases haddr : address = raster.buffer
    · subst haddr
      simp only [occupies, decide_true, Bool.toNat_true, hbuf, isSome_some] at hloc
      simp only [if_true, isSome_none, Bool.toNat_false]
      omega
    · have hne : raster.buffer ≠ address := fun heq => haddr heq.symm
      simp only [occupies, hne, decide_false, Bool.toNat_false, add_zero] at hloc
      simp only [haddr, if_false]
      exact hloc
  · rw [hheld]
    simp only [release, hphysical]
    exact Nat.add_sub_cancel _ _
  · have htot := total_erase hbuf Buffer.capacity
    rw [h.allocated] at htot
    simp only [release]
    omega
  · simp only [release]
    omega
  · intro id pool hpool
    rw [hheld]
    simp only [find_adjust] at hpool
    split_ifs at hpool with hid
    · obtain ⟨before, hpre, rfl⟩ := map_eq_some_iff.mp hpool
      have howned := h.owned id before hpre
      rw [held_cons] at howned
      subst hid
      simp only [RasterPoolInner.release, wrappingSubU64]
      rw [howned, hleased, if_pos (Nat.le_add_left _ _)]
      exact Nat.add_sub_cancel _ _
    · have howned := h.owned id pool hpool
      rw [held_cons] at howned
      have hleased : raster.leased id = 0 := by
        have hne : poolId ≠ id := fun heq => hid heq.symm
        simp [leased, hlease, hne]
      omega
  · intro id pool hpool
    simp only [find_adjust] at hpool
    split_ifs at hpool with hid
    · obtain ⟨before, hpre, rfl⟩ := map_eq_some_iff.mp hpool
      have howned := h.owned id before hpre
      rw [held_cons] at howned
      subst hid
      obtain ⟨hlim, hidle⟩ := h.owned_le id before hpre
      refine ⟨?_, hidle⟩
      simp only [RasterPoolInner.release, wrappingSubU64]
      split_ifs
      · omega
      · omega
    · exact h.owned_le id pool hpool
  · intro other hother
    have hholds : images.Holds hand other := by
      cases hother with
      | inner hinner => exact .inner hinner
      | @idle id pool _ hpool hmem =>
        simp only [find_adjust] at hpool
        split_ifs at hpool
        · obtain ⟨before, hpre, rfl⟩ := map_eq_some_iff.mp hpool
          exact .idle hpre hmem
        · exact .idle hpool hmem
      | hand hmem => exact .hand hmem
    have hne := h.buffer_ne hholds
    obtain ⟨found, pool, hfound, hothers, hpoolLease, hpoolLt, hfits⟩ :=
      (h.leases other (hholds.cons raster)).lease
    refine ⟨found, pool, ?_, hothers, hpoolLease, hpoolLt, ?_⟩
    · simp only [find_erase, hne, if_false]
      exact hfound
    · intro inner outputLen hinner hlen
      simp only [find_adjust] at hinner
      split_ifs at hinner
      · obtain ⟨before, hpre, rfl⟩ := map_eq_some_iff.mp hinner
        exact hfits before outputLen hpre hlen
      · exact hfits inner outputLen hinner hlen
  · intro id pool other hpool hmem
    simp only [find_adjust] at hpool
    split_ifs at hpool
    · obtain ⟨before, hpre, rfl⟩ := map_eq_some_iff.mp hpool
      exact h.idleHome id before other hpre hmem
    · exact h.idleHome id pool other hpool hmem
  · intro address haddr
    obtain ⟨hfreshBuffer, hfreshPool, hfreshRest⟩ := h.fresh address haddr
    refine ⟨?_, ?_, hfreshRest⟩
    · simp [find_erase, hfreshBuffer]
    · simp [find_adjust, hfreshPool]

theorem dropAll {dropped : List RecycledRaster} (h : RastersSound images (dropped ++ hand)) :
    RastersSound (dropped.foldl DecodedImages.dropRaster images) hand := by
  induction dropped generalizing images with
  | nil => exact h
  | cons raster dropped ih => exact ih h.dropRaster

theorem move (h : RastersSound images hand) {next : DecodedImages R}
    {nextHand : List RecycledRaster}
    (hheld : ∀ measure, next.held nextHand measure = images.held hand measure)
    (hholds : ∀ other, next.Holds nextHand other → images.Holds hand other)
    (hledger : next.ledger.physicalBytes = images.ledger.physicalBytes)
    (hmax : next.ledger.maxBytes = images.ledger.maxBytes)
    (hbuffers : next.buffers = images.buffers)
    (hpools : ∀ id pool, next.pools.find id = some pool →
      ∃ before, images.pools.find id = some before ∧
        pool.layout = before.layout ∧ pool.ownedBytes = before.ownedBytes ∧
          pool.maxPhysicalBytes = before.maxPhysicalBytes ∧ pool.idle.length ≤ pool.maxIdleSlots)
    (hinnerHome : ∀ id inner, next.inners.find id = some inner →
      inner.raster.poolLease.map PoolAllocationLease.pool = some inner.pool)
    (hidleHome : ∀ id pool raster, next.pools.find id = some pool →
      raster ∈ pool.idle → raster.poolLease.map PoolAllocationLease.pool = some id)
    (hnext : images.nextAddress ≤ next.nextAddress)
    (hfresh : ∀ address, images.nextAddress ≤ address →
      next.nextAddress ≤ address →
        next.pools.find address = none ∧ next.inners.find address = none ∧
          next.payloads.find address = none) :
    RastersSound next nextHand := by
  refine ⟨?_, ?_, ?_, ?_, ?_, ?_, ?_, hinnerHome, hidleHome, ?_⟩
  · intro address
    rw [hheld, hbuffers]
    exact h.located address
  · rw [hheld, hledger]
    exact h.physical
  · rw [hbuffers, hledger]
    exact h.allocated
  · rw [hledger, hmax]
    exact h.physical_le
  · intro id pool hpool
    obtain ⟨before, hpre, -, howned, -⟩ := hpools id pool hpool
    rw [hheld, howned]
    exact h.owned id before hpre
  · intro id pool hpool
    obtain ⟨before, hpre, -, howned, hmaxBytes, hidle⟩ := hpools id pool hpool
    rw [howned, hmaxBytes]
    exact ⟨(h.owned_le id before hpre).1, hidle⟩
  · intro other hother
    obtain ⟨buffer, pool, hbuf, hagg, hlease, hlt, hfits⟩ :=
      (h.leases other (hholds other hother)).lease
    refine ⟨buffer, pool, hbuffers ▸ hbuf, hagg, hlease, hlt.trans_le hnext, ?_⟩
    intro inner outputLen hinner hlen
    obtain ⟨before, hpre, hlayout, -⟩ := hpools pool inner hinner
    rw [hlayout] at hlen
    exact hfits before outputLen hpre hlen
  · intro address haddr
    obtain ⟨hbuf, -⟩ := h.fresh address (hnext.trans haddr)
    exact ⟨hbuffers ▸ hbuf, hfresh address (hnext.trans haddr) haddr⟩

variable {poolId : ℕ} {pool : RasterPoolInner} {nextHand : List RecycledRaster}

theorem adjustPool (h : RastersSound images hand)
    (hpool : images.pools.find poolId = some pool)
    {f : RasterPoolInner → RasterPoolInner} (reuses : UInt64)
    (hkept : (f pool).layout = pool.layout ∧
      (f pool).ownedBytes = pool.ownedBytes ∧ (f pool).maxPhysicalBytes = pool.maxPhysicalBytes)
    (hroom : (f pool).idle.length ≤ (f pool).maxIdleSlots)
    (hperm : ((f pool).idle ++ nextHand).Perm (pool.idle ++ hand))
    (hhome : ∀ raster ∈ (f pool).idle,
      raster.poolLease.map PoolAllocationLease.pool = some poolId) :
    RastersSound { images with
      pools := images.pools.adjust poolId f
      ledger := { images.ledger with reuses } } nextHand := by
  have hfind : ∀ id next, (images.pools.adjust poolId f).find id = some next →
      id = poolId ∧ next = f pool ∨ images.pools.find id = some next := by
    intro id next hnext
    simp only [find_adjust] at hnext
    split_ifs at hnext with hid
    · rw [hid, hpool] at hnext
      exact .inl ⟨hid, (some.inj hnext).symm⟩
    · exact .inr hnext
  have hplace : ∀ other ∈ (f pool).idle ++ nextHand, images.Holds hand other := by
    intro other hmem
    obtain hmem | hmem := mem_append.mp (hperm.subset hmem)
    · exact .idle hpool hmem
    · exact .hand hmem
  refine h.move ?_ ?_ rfl rfl rfl ?_ h.innerHome ?_ le_rfl ?_
  · intro measure
    have htot := total_adjust hpool f fun pool => (pool.idle.map measure).sum
    have hsum := (hperm.map measure).sum_eq
    simp only [map_append, sum_append_nat] at hsum
    simp only [held] at htot ⊢
    omega
  · intro other hother
    cases hother with
    | inner hinner => exact .inner hinner
    | idle hnext hmem =>
      obtain ⟨-, rfl⟩ | hsame := hfind _ _ hnext
      · exact hplace other (mem_append_left _ hmem)
      · exact .idle hsame hmem
    | hand hmem => exact hplace other (mem_append_right _ hmem)
  · intro id next hnext
    obtain ⟨rfl, rfl⟩ | hsame := hfind id next hnext
    · exact ⟨pool, hpool, hkept.1, hkept.2.1, hkept.2.2, hroom⟩
    · exact ⟨next, hsame, rfl, rfl, rfl, (h.owned_le id next hsame).2⟩
  · intro id next other hnext hmem
    obtain ⟨rfl, rfl⟩ | hsame := hfind id next hnext
    · exact hhome other hmem
    · exact h.idleHome id next other hsame hmem
  · intro address haddr _
    obtain ⟨-, hfreshPool, hfreshRest⟩ := h.fresh address haddr
    simp only [find_adjust, hfreshPool, map_none, ite_self]
    exact ⟨trivial, hfreshRest⟩

theorem takeIdle (h : RastersSound images hand) (hpool : images.pools.find poolId = some pool)
    (hlast : pool.idle.getLast? = some raster) (reuses : UInt64) :
    RastersSound { images with
      pools := images.pools.adjust poolId fun pool => { pool with idle := pool.idle.dropLast }
      ledger := { images.ledger with reuses := reuses } }
      (raster :: hand) := by
  have hidle : pool.idle = pool.idle.dropLast ++ [raster] :=
    (dropLast_append_getLast? raster hlast).symm
  refine h.adjustPool hpool reuses ⟨rfl, rfl, rfl⟩ ?_ ?_ ?_
  · exact (dropLast_sublist _).length_le.trans (h.owned_le poolId pool hpool).2
  · conv_rhs => rw [hidle, append_assoc]
    exact .refl _
  · intro other hother
    exact h.idleHome poolId pool other hpool ((dropLast_sublist _).subset hother)

end RastersSound

end CollideOScope.Video
