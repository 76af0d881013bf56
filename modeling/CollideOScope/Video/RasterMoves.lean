import CollideOScope.Video.Rasters

/-!
# Rasters move

Acquisition takes an idle raster or allocates a new one, a payload holds it, and
it goes back or is dropped.  Each of these keeps the accounts, and leaves the
buffers of all other payloads as they are.
-/

namespace CollideOScope.Video

open Table RecycledRaster List Option Nat RasterPoolInner

variable {R : Type}

structure RasterMoved (images next : DecodedImages R) : Prop where
  inners : next.inners = images.inners
  payloads : next.payloads = images.payloads
  logicalOwners : next.ledger.logicalOwners = images.ledger.logicalOwners
  nextAddress : images.nextAddress ≤ next.nextAddress
  buffers : ∀ id inner, images.inners.find id = some inner →
    next.buffers.find inner.raster.buffer = images.buffers.find inner.raster.buffer

theorem RasterMoved.trans {images middle next : DecodedImages R}
    (h : RasterMoved images middle) (hnext : RasterMoved middle next) :
    RasterMoved images next where
  inners := hnext.inners.trans h.inners
  payloads := hnext.payloads.trans h.payloads
  logicalOwners := hnext.logicalOwners.trans h.logicalOwners
  nextAddress := h.nextAddress.trans hnext.nextAddress
  buffers id inner hinner :=
    (hnext.buffers id inner (h.inners ▸ hinner)).trans (h.buffers id inner hinner)

variable {bytes : ℕ}

theorem RasterPoolInner.reserve_eq_ok {pool reserved : RasterPoolInner}
    (h : pool.reserve bytes = .ok reserved) :
    pool.ownedBytes + bytes ≤ pool.maxPhysicalBytes ∧
      reserved = { pool with ownedBytes := pool.ownedBytes + bytes } := by
  rw [reserve] at h
  split at h
  · cases h
  · rename_i requested hreq
    obtain ⟨-, rfl⟩ := checkedWord_eq_some.mp hreq
    split_ifs at h with hlim
    cases h
    exact ⟨not_lt.mp hlim, rfl⟩

theorem DecodedImageLedger.tryReserve_eq_ok {ledger reserved : DecodedImageLedger}
    (h : ledger.tryReserve bytes = .ok reserved) :
    ledger.physicalBytes + bytes ≤ ledger.maxBytes ∧ ∃ peak,
      reserved = { ledger with
        physicalBytes := ledger.physicalBytes + bytes
        peakPhysicalBytes := peak } := by
  rw [DecodedImageLedger.tryReserve] at h
  split at h
  · cases h
  · rename_i requested hreq
    obtain ⟨-, rfl⟩ := checkedWord_eq_some.mp hreq
    split_ifs at h with hlim
    cases h
    exact ⟨not_lt.mp hlim, _, rfl⟩

theorem DecodedImages.allocate_cases (images : DecodedImages R) {poolId : ℕ}
    {pool : RasterPoolInner} (hpool : images.pools.find poolId = some pool)
    (outputLen : ℕ) (allocation : Except String ℕ) :
    (∃ error, images.allocate poolId pool outputLen allocation = (images, .error error)) ∨
      ∃ capacity peak, allocation = .ok capacity ∧
        pool.ownedBytes + capacity ≤ pool.maxPhysicalBytes ∧
          images.ledger.physicalBytes + capacity ≤ images.ledger.maxBytes ∧
            images.allocate poolId pool outputLen allocation =
              ({ images with
                  pools := images.pools.adjust poolId fun _ =>
                    { pool with ownedBytes := pool.ownedBytes + capacity }
                  ledger := { images.ledger with
                    physicalBytes := images.ledger.physicalBytes + capacity
                    peakPhysicalBytes := peak
                    allocations := images.ledger.allocations + 1 }
                  buffers := images.buffers.insert images.nextAddress ⟨[], capacity⟩
                  nextAddress := images.nextAddress + 1 },
                .ok ⟨images.nextAddress, some capacity, some ⟨poolId, capacity⟩⟩) := by
  cases allocation with
  | error error => exact .inl ⟨_, rfl⟩
  | ok capacity =>
    cases hres : pool.reserve capacity with
    | error error =>
      left
      exact ⟨error, by simp only [allocate, hres]⟩
    | ok reserved =>
      obtain ⟨hlim, rfl⟩ := reserve_eq_ok hres
      cases hledger : images.ledger.tryReserve capacity with
      | error error =>
        left
        refine ⟨error, ?_⟩
        simp only [allocate, hres, hledger, releasePool, adjust_adjust]
        rw [adjust_eq_self]
        intro before hpre
        rw [some.inj (hpre.symm.trans hpool)]
        simp [release, wrappingSubU64]
      | ok ledger =>
        right
        have htry := hledger
        obtain ⟨hmax, peak, rfl⟩ := DecodedImageLedger.tryReserve_eq_ok hledger
        refine ⟨capacity, peak, rfl, hlim, hmax, ?_⟩
        simp only [allocate, hres, htry]

namespace RastersSound

variable {images : DecodedImages R} {hand : List RecycledRaster} {raster : RecycledRaster}

variable {pool : RasterPoolInner}

theorem pool_lt (h : RastersSound images hand) {id : ℕ}
    (hpool : images.pools.find id = some pool) : id < images.nextAddress := by
  by_contra hge
  rw [(h.fresh id (not_lt.mp hge)).2.1] at hpool
  cases hpool

variable {poolId : ℕ}

open DecodedImages (held held_cons)

theorem allocated_raster (h : RastersSound images hand)
    (hpool : images.pools.find poolId = some pool) {capacity : ℕ}
    (hfits : ∀ outputLen, pool.layout.byteLen = .ok outputLen → outputLen ≤ capacity)
    (hlim : pool.ownedBytes + capacity ≤ pool.maxPhysicalBytes)
    (hmax : images.ledger.physicalBytes + capacity ≤ images.ledger.maxBytes)
    (peak : ℕ) (allocations : UInt64) {next : DecodedImages R}
    (hnext : next = { images with
      pools := images.pools.adjust poolId fun _ =>
        { pool with ownedBytes := pool.ownedBytes + capacity }
      ledger := { images.ledger with
        physicalBytes := images.ledger.physicalBytes + capacity
        peakPhysicalBytes := peak
        allocations }
      buffers := images.buffers.insert images.nextAddress ⟨[], capacity⟩
      nextAddress := images.nextAddress + 1 }) :
    RastersSound next (⟨images.nextAddress, some capacity, some ⟨poolId, capacity⟩⟩ :: hand) := by
  have hnone := (h.fresh images.nextAddress le_rfl).1
  have hfind : ∀ id next, (images.pools.adjust poolId fun _ =>
      { pool with ownedBytes := pool.ownedBytes + capacity }).find id =
        some next →
          ∃ before, images.pools.find id = some before ∧
            next.layout = before.layout ∧ next.idle = before.idle ∧
              next.maxPhysicalBytes = before.maxPhysicalBytes ∧
                next.maxIdleSlots = before.maxIdleSlots ∧
                  next.ownedBytes = before.ownedBytes + if id = poolId then capacity else 0 := by
    intro id next hnext
    simp only [find_adjust] at hnext
    split_ifs at hnext with hid
    · obtain ⟨before, hpre, rfl⟩ := map_eq_some_iff.mp hnext
      have hsame : pool = before := by
        rw [hid, hpool] at hpre
        exact some.inj hpre
      subst hsame
      exact ⟨pool, hpre, rfl, rfl, rfl, rfl, by simp [hid]⟩
    · exact ⟨next, hnext, rfl, rfl, rfl, rfl, by simp [hid]⟩
  have hheld : ∀ measure, next.held hand measure = images.held hand measure := by
    intro measure
    have htot := total_adjust hpool
      (fun _ => { pool with ownedBytes := pool.ownedBytes + capacity })
      fun pool => (pool.idle.map measure).sum
    simp only [hnext, held] at htot ⊢
    omega
  subst hnext
  refine ⟨?_, ?_, ?_, hmax, ?_, ?_, ?_, h.innerHome, ?_, ?_⟩
  · intro address
    rw [held_cons, hheld, h.located]
    simp only [find_insert]
    by_cases haddr : address = images.nextAddress
    · subst haddr
      simp [hnone, occupies]
    · have hne : images.nextAddress ≠ address := fun heq => haddr heq.symm
      simp [haddr, occupies, hne]
  · rw [held_cons, hheld, ← h.physical]
    rfl
  · rw [total_insert hnone, h.allocated]
  · intro id next hnext
    obtain ⟨before, hpre, -, -, -, -, howned⟩ := hfind id next hnext
    rw [howned, held_cons, hheld, h.owned id before hpre]
    by_cases hid : id = poolId
    · simp [leased, hid]
    · have hne : poolId ≠ id := fun heq => hid heq.symm
      simp [leased, hid, hne]
  · intro id next hnext
    obtain ⟨before, hpre, -, hidle, hlimitBytes, hslots, howned⟩ := hfind id next hnext
    obtain ⟨hle, hlen⟩ := h.owned_le id before hpre
    rw [howned, hidle, hlimitBytes, hslots]
    refine ⟨?_, hlen⟩
    split_ifs with hid
    · rw [hid, hpool] at hpre
      cases hpre
      exact hlim
    · exact hle
  · intro other hother
    by_cases hnew : other = ⟨images.nextAddress, some capacity, some ⟨poolId, capacity⟩⟩
    · subst hnew
      refine ⟨⟨[], capacity⟩, poolId, ?_, rfl, rfl, ?_, ?_⟩
      · simp
      · exact (h.pool_lt hpool).trans (lt_succ_self _)
      · intro inner outputLen hinner hlen
        obtain ⟨before, hpre, hlayout, -⟩ := hfind poolId inner hinner
        rw [hpool] at hpre
        cases hpre
        rw [hlayout] at hlen
        exact hfits outputLen hlen
    · have hholds : images.Holds hand other := by
        cases hother with
        | inner hinner => exact .inner hinner
        | @idle id next _ hnext hmem =>
          obtain ⟨before, hpre, -, hidle, -⟩ := hfind id next hnext
          exact .idle hpre (hidle ▸ hmem)
        | hand hmem =>
          obtain heq | hmem := mem_cons.mp hmem
          · exact absurd heq hnew
          · exact .hand hmem
      obtain ⟨buffer, id, hbuf, hagg, hlease, hlt, hleaseFits⟩ := (h.leases other hholds).lease
      refine ⟨buffer, id, ?_, hagg, hlease, hlt.trans (lt_succ_self _), ?_⟩
      · have hne : other.buffer ≠ images.nextAddress := by
          intro heq
          rw [heq, hnone] at hbuf
          cases hbuf
        simp only [find_insert, hne, if_false]
        exact hbuf
      · intro inner outputLen hinner hlen
        obtain ⟨before, hpre, hlayout, -⟩ := hfind id inner hinner
        rw [hlayout] at hlen
        exact hleaseFits before outputLen hpre hlen
  · intro id next other hnext hmem
    obtain ⟨before, hpre, -, hidle, -⟩ := hfind id next hnext
    exact h.idleHome id before other hpre (hidle ▸ hmem)
  · intro address haddr
    obtain ⟨hbuf, hfreshPool, hrest⟩ := h.fresh address ((le_succ _).trans haddr)
    have hne : address ≠ images.nextAddress := by
      simp only at haddr
      omega
    refine ⟨?_, ?_, hrest⟩
    · simp only [find_insert, hne, if_false]
      exact hbuf
    · simp [find_adjust, hfreshPool]

theorem acquire (h : RastersSound images hand) (hpool : images.pools.find poolId = some pool)
    (outputLen : ℕ) {allocation : Except String ℕ} (hfits : AllocationFits pool.layout allocation) :
    (∃ error, images.acquire poolId pool outputLen allocation = (images, .error error)) ∨
      ∃ next raster, images.acquire poolId pool outputLen allocation = (next, .ok raster) ∧
        RastersSound next (raster :: hand) ∧ RasterMoved images next ∧
          raster.poolLease.map PoolAllocationLease.pool = some poolId ∧
            ∃ inner, next.pools.find poolId = some inner ∧ inner.layout = pool.layout := by
  cases hlast : pool.idle.getLast? with
  | some raster =>
    right
    refine ⟨_, raster, by simp only [DecodedImages.acquire, hlast],
      h.takeIdle hpool hlast (images.ledger.reuses + 1), ⟨rfl, rfl, rfl, le_rfl, fun _ _ _ => rfl⟩,
      h.idleHome poolId pool raster hpool (mem_of_getLast? hlast), ?_⟩
    simp [hpool]
  | none =>
    simp only [DecodedImages.acquire, hlast]
    obtain herr | ⟨capacity, peak, rfl, hlim, hmax, hallocate⟩ :=
      images.allocate_cases hpool outputLen allocation
    · exact .inl herr
    · right
      refine ⟨_, _, hallocate, h.allocated_raster hpool ?_ hlim hmax peak _
        rfl, ⟨rfl, rfl, rfl, le_succ _, ?_⟩, rfl, ?_⟩
      · intro length hbyteLen
        exact hfits length capacity hbyteLen rfl
      · intro id inner hinner
        obtain ⟨buffer, -, hbuf, -⟩ := (h.leases inner.raster (.inner hinner)).lease
        have hne : inner.raster.buffer ≠ images.nextAddress := by
          intro heq
          rw [heq, (h.fresh images.nextAddress le_rfl).1] at hbuf
          cases hbuf
        simp [find_insert, hne]
      · simp [hpool]

section

variable (h : RastersSound images (raster :: hand))
include h

theorem write {bytes : Bytes}
    (hlen : ∀ buffer, images.buffers.find raster.buffer = some buffer →
      bytes.length ≤ buffer.capacity)
    :
    RastersSound (images.write raster.buffer bytes) (raster :: hand) := by
  have hbuf : ∀ address buffer,
      images.buffers.find address = some buffer →
        ∃ written, (images.write raster.buffer bytes).buffers.find address =
          some written ∧ written.capacity = buffer.capacity := by
    intro address buffer hfound
    simp only [DecodedImages.write, find_adjust, hfound, map_some]
    split_ifs with haddr
    · rw [haddr] at hfound
      exact ⟨_, rfl, max_eq_left (hlen buffer hfound)⟩
    · exact ⟨buffer, rfl, rfl⟩
  refine ⟨?_, h.physical, ?_, h.physical_le, h.owned, h.owned_le, ?_, h.innerHome, h.idleHome, ?_⟩
  · intro address
    have hloc := h.located address
    simp only [DecodedImages.write, find_adjust]
    split_ifs
    · rw [isSome_map]
      exact hloc
    · exact hloc
  · obtain ⟨buffer, -, hfound, -⟩ := (h.leases raster (.hand mem_cons_self)).lease
    have htot := total_adjust hfound
      (fun buffer => ⟨bytes, max buffer.capacity bytes.length⟩) Buffer.capacity
    rw [max_eq_left (hlen buffer hfound), h.allocated] at htot
    simp only [DecodedImages.write] at htot ⊢
    omega
  · intro other hother
    have hholds : images.Holds (raster :: hand) other := by
      cases hother with
      | inner hinner => exact .inner hinner
      | idle hpool hmem => exact .idle hpool hmem
      | hand hmem => exact .hand hmem
    obtain ⟨buffer, pool, hfound, hagg, hlease, hlt, hfits⟩ := (h.leases other hholds).lease
    obtain ⟨written, hwrit, hcap⟩ := hbuf _ buffer hfound
    exact ⟨written, pool, hwrit, hcap ▸ hagg, hcap ▸ hlease, hlt, hcap ▸ hfits⟩
  · intro address haddr
    obtain ⟨hnone, hrest⟩ := h.fresh address haddr
    refine ⟨?_, hrest⟩
    simp [DecodedImages.write, find_adjust, hnone]

theorem write_moved (bytes : Bytes) : RasterMoved images (images.write raster.buffer bytes) where
  inners := rfl
  payloads := rfl
  logicalOwners := rfl
  nextAddress := le_rfl
  buffers id inner hinner := by
    have hne := h.buffer_ne (.inner hinner)
    simp [DecodedImages.write, find_adjust, hne]

theorem dropRaster_moved : RasterMoved images (images.dropRaster raster) := by
  obtain ⟨buffer, poolId, -, hagg, hlease, -⟩ := (h.leases raster (.hand mem_cons_self)).lease
  rw [images.dropRaster_eq hagg hlease]
  refine ⟨rfl, rfl, rfl, le_rfl, ?_⟩
  intro id inner hinner
  have hne := h.buffer_ne (.inner hinner)
  simp [find_erase, hne]

end

theorem dropAll_moved {dropped : List RecycledRaster} (h : RastersSound images (dropped ++ hand)) :
    RasterMoved images (dropped.foldl DecodedImages.dropRaster images) := by
  induction dropped generalizing images with
  | nil => exact ⟨rfl, rfl, rfl, le_rfl, fun _ _ _ => rfl⟩
  | cons raster dropped ih => exact h.dropRaster_moved.trans (ih h.dropRaster)

theorem install (h : RastersSound images (raster :: hand))
    (inner : DecodedImagePayloadInner R) (hraster : inner.raster = raster)
    (hhome : raster.poolLease.map PoolAllocationLease.pool = some inner.pool)
    (copied nextPayloadId : UInt64) :
    RastersSound { images with
      ledger := { images.ledger with materializationCopiedBytes := copied }
      inners := images.inners.insert images.nextAddress inner
      nextAddress := images.nextAddress + 2
      nextPayloadId } hand := by
  have hnone := (h.fresh images.nextAddress le_rfl).2.2.1
  refine h.move ?_ ?_ rfl rfl rfl ?_ ?_ h.idleHome ?_ ?_
  · intro measure
    rw [held_cons]
    simp only [held, total_insert hnone, hraster]
    omega
  · intro other hother
    cases hother with
    | @inner id found hfound =>
      simp only [find_insert] at hfound
      split_ifs at hfound
      · cases hfound
        rw [hraster]
        exact .hand mem_cons_self
      · exact .inner hfound
    | idle hpool hmem => exact .idle hpool hmem
    | hand hmem => exact .hand (mem_cons_of_mem _ hmem)
  · intro id pool hpool
    exact ⟨pool, hpool, rfl, rfl, rfl, (h.owned_le id pool hpool).2⟩
  · intro id found hfound
    simp only [find_insert] at hfound
    split_ifs at hfound
    · cases hfound
      rw [hraster]
      exact hhome
    · exact h.innerHome id found hfound
  · exact le_add_right _ _
  · intro address haddr hnext
    obtain ⟨-, hpool, hinner, hpayload⟩ := h.fresh address haddr
    have hne : address ≠ images.nextAddress := by
      simp only at hnext
      omega
    simp only [find_insert, hne, if_false]
    exact ⟨hpool, hinner, hpayload⟩

theorem uninstall (h : RastersSound images hand) {innerId : ℕ} {inner : DecodedImagePayloadInner R}
    (hinner : images.inners.find innerId = some inner) :
    RastersSound { images with inners := images.inners.erase innerId } (inner.raster :: hand) := by
  refine h.move ?_ ?_ rfl rfl rfl ?_ ?_ h.idleHome le_rfl ?_
  · intro measure
    have htot := total_erase hinner fun inner => measure inner.raster
    rw [held_cons]
    simp only [held] at htot ⊢
    omega
  · intro other hother
    cases hother with
    | @inner id found hfound =>
      simp only [find_erase] at hfound
      split_ifs at hfound
      exact .inner hfound
    | idle hpool hmem => exact .idle hpool hmem
    | hand hmem =>
      obtain rfl | hmem := mem_cons.mp hmem
      · exact .inner hinner
      · exact .hand hmem
  · intro id pool hpool
    exact ⟨pool, hpool, rfl, rfl, rfl, (h.owned_le id pool hpool).2⟩
  · intro id found hfound
    simp only [find_erase] at hfound
    split_ifs at hfound
    exact h.innerHome id found hfound
  · intro address haddr _
    obtain ⟨-, hpool, hfreshInner, hpayload⟩ := h.fresh address haddr
    refine ⟨hpool, ?_, hpayload⟩
    simp [find_erase, hfreshInner]

theorem pushIdle (h : RastersSound images (raster :: hand))
    (hpool : images.pools.find poolId = some pool)
    (hhome : raster.poolLease.map PoolAllocationLease.pool = some poolId)
    (hroom : pool.idle.length < pool.maxIdleSlots) :
    RastersSound { images with
      pools := images.pools.adjust poolId fun pool =>
        { pool with idle := pool.idle ++ [raster] } } hand := by
  refine h.adjustPool hpool images.ledger.reuses ⟨rfl, rfl, rfl⟩ ?_ ?_ ?_
  · rw [length_append]
    exact hroom
  · rw [append_assoc]
    exact .refl _
  · intro other hother
    obtain hother | hother := mem_append.mp hother
    · exact h.idleHome poolId pool other hpool hother
    · rw [mem_singleton.mp hother]
      exact hhome

theorem newPool (h : RastersSound images hand) (hidle : pool.idle = [])
    (howned : pool.ownedBytes = 0) :
    RastersSound { images with
      pools := images.pools.insert images.nextAddress pool
      nextAddress := images.nextAddress + 1 } hand := by
  have hnone := (h.fresh images.nextAddress le_rfl).2.1
  have hheld : ∀ measure, held { images with
      pools := images.pools.insert images.nextAddress pool
      nextAddress := images.nextAddress + 1 } hand measure = images.held hand measure := by
    intro measure
    simp [held, total_insert hnone, hidle]
  have hholds : ∀ other, DecodedImages.Holds { images with
      pools := images.pools.insert images.nextAddress pool
      nextAddress := images.nextAddress + 1 } hand other → images.Holds hand other := by
    intro other hother
    cases hother with
    | inner hinner => exact .inner hinner
    | @idle id next _ hnext hmem =>
      simp only [find_insert] at hnext
      split_ifs at hnext
      · cases hnext
        rw [hidle] at hmem
        cases hmem
      · exact .idle hnext hmem
    | hand hmem => exact .hand hmem
  have hunleased : images.held hand (leased images.nextAddress) = 0 := by
    have hzero : images.held hand (leased images.nextAddress) = images.held hand fun _ => 0 := by
      apply DecodedImages.held_congr
      intro raster hraster
      obtain ⟨buffer, id, -, -, hlease, hlt, -⟩ := (h.leases raster hraster).lease
      simp [leased, hlease, hlt.ne]
    rw [hzero]
    simp [held, total]
  refine ⟨?_, ?_, h.allocated, h.physical_le, ?_, ?_, ?_, h.innerHome, ?_, ?_⟩
  · intro address
    rw [hheld]
    exact h.located address
  · rw [hheld]
    exact h.physical
  · intro id next hnext
    rw [hheld]
    simp only [find_insert] at hnext
    split_ifs at hnext with hid
    · cases hnext
      rw [howned, hid, hunleased]
    · exact h.owned id next hnext
  · intro id next hnext
    simp only [find_insert] at hnext
    split_ifs at hnext
    · cases hnext
      rw [howned, hidle]
      exact ⟨zero_le _, zero_le _⟩
    · exact h.owned_le id next hnext
  · intro other hother
    obtain ⟨buffer, id, hbuf, hagg, hlease, hlt, hfits⟩ :=
      (h.leases other (hholds other hother)).lease
    refine ⟨buffer, id, hbuf, hagg, hlease, hlt.trans (lt_succ_self _), ?_⟩
    intro inner outputLen hinner hlen
    simp only [find_insert, hlt.ne, if_false] at hinner
    exact hfits inner outputLen hinner hlen
  · intro id next other hnext hmem
    simp only [find_insert] at hnext
    split_ifs at hnext
    · cases hnext
      rw [hidle] at hmem
      cases hmem
    · exact h.idleHome id next other hnext hmem
  · intro address haddr
    obtain ⟨hbuf, hpool, hrest⟩ := h.fresh address ((le_succ _).trans haddr)
    have hne : address ≠ images.nextAddress := by
      simp only at haddr
      omega
    simp only [find_insert, hne, if_false]
    exact ⟨hbuf, hpool, hrest⟩

theorem poolHandles (h : RastersSound images hand) (poolId : ℕ) (f : ℕ → ℕ) :
    RastersSound { images with
      pools := images.pools.adjust poolId fun pool =>
        { pool with handles := f pool.handles } } hand := by
  cases hpool : images.pools.find poolId with
  | none =>
    rw [adjust_eq_self fun pool hfound => by
      rw [hpool] at hfound; cases hfound]
    exact h
  | some pool =>
    exact h.adjustPool hpool images.ledger.reuses ⟨rfl, rfl, rfl⟩
      (h.owned_le poolId pool hpool).2 (.refl _)
      fun other => h.idleHome poolId pool other hpool

theorem erasePool (h : RastersSound images hand) (hpool : images.pools.find poolId = some pool) :
    RastersSound { images with pools := images.pools.erase poolId } (pool.idle ++ hand) := by
  have hfind : ∀ id next, (images.pools.erase poolId).find id = some next →
      images.pools.find id = some next := by
    intro id next hnext
    rw [find_erase] at hnext
    split_ifs at hnext
    exact hnext
  refine h.move ?_ ?_ rfl rfl rfl ?_ h.innerHome ?_ le_rfl ?_
  · intro measure
    have htot := total_erase hpool fun pool => (pool.idle.map measure).sum
    simp only [held, map_append, sum_append_nat] at htot ⊢
    omega
  · intro other hother
    cases hother with
    | inner hinner => exact .inner hinner
    | idle hnext hmem => exact .idle (hfind _ _ hnext) hmem
    | hand hmem =>
      obtain hmem | hmem := mem_append.mp hmem
      · exact .idle hpool hmem
      · exact .hand hmem
  · intro id next hnext
    exact ⟨next, hfind id next hnext, rfl, rfl, rfl, (h.owned_le id next (hfind id next hnext)).2⟩
  · intro id next other hnext hmem
    exact h.idleHome id next other (hfind id next hnext) hmem
  · intro address haddr _
    obtain ⟨-, hfreshPool, hfreshRest⟩ := h.fresh address haddr
    simp only [find_erase, hfreshPool, ite_self]
    exact ⟨trivial, hfreshRest⟩

end RastersSound

end CollideOScope.Video
