import CollideOScope.Video.Images

/-!
# Held pixels in every run

Whatever is materialized, shared and dropped: the bytes behind a live handle
stay, every buffer has one holder and is charged to its pool and to the ledger,
and a refused materialization changes nothing.
-/

namespace CollideOScope.Video

open Nat List Option Kept DecodedImages

variable {R : Type}

structure Materializes (images : DecodedImages R)
    (result : DecodedImages R × Materialized) : Prop where
  sound : ImagesSound result.1
  kept : Kept images result.1
  refused : ∀ error, result.2 = .refused error → result.1 = images

namespace ImagesSound

variable {images : DecodedImages R}

theorem refusal (h : ImagesSound images) (error : String) :
    Materializes images (images, .refused error) :=
  ⟨h, refl images, fun _ _ => rfl⟩

variable {next : DecodedImages R} {pool : RasterPoolInner} {poolId : ℕ}

variable {raster : RecycledRaster} {outputLen : ℕ}

theorem acquired_room (h : RastersSound next [raster]) (hpool : next.pools.find poolId = some pool)
    (hhome : raster.poolLease.map PoolAllocationLease.pool = some poolId)
    (hlen : pool.layout.byteLen = .ok outputLen) {buffer : Buffer}
    (hbuf : next.buffers.find raster.buffer = some buffer) :
    outputLen ≤ buffer.capacity := by
  obtain ⟨leased, home, hleased, -, hlease, -, hroom⟩ :=
    (h.leases raster (.hand mem_cons_self)).lease
  rw [hlease] at hhome
  cases hhome
  rw [hbuf] at hleased
  cases hleased
  exact hroom pool outputLen hpool hlen

theorem acquired_freeze (h : ImagesSound images) (hrasters : RastersSound next [raster])
    (hmoved : RasterMoved images next) (hpool : next.pools.find poolId = some pool)
    (hhome : raster.poolLease.map PoolAllocationLease.pool = some poolId)
    {layout : DecodedRasterLayout} (hlayout : pool.layout = layout)
    (hlen : layout.byteLen = .ok outputLen) {bytes : Bytes} (hbytes : bytes.length ≤ outputLen)
    (recipe : Option R) :
    Materializes images (next.freeze poolId layout raster outputLen bytes recipe) := by
  subst hlayout
  obtain ⟨hsound, hkept⟩ := freeze hrasters (h.owners.moved hmoved) hhome pool.layout outputLen
    (fun buffer hbuf => hbytes.trans (acquired_room hrasters hpool hhome hlen hbuf)) recipe
  refine ⟨hsound, (of_moved hmoved).trans hkept, ?_⟩
  intro error href
  cases href

variable {allocation : Except String ℕ}

/-- `materialize_plane`. -/
theorem materializePlane (h : ImagesSound images) (hpool : images.pools.find poolId = some pool)
    (source : Bytes) (sourceStride : ℕ) (hfits : AllocationFits pool.layout allocation) :
    Materializes images (images.materializePlane poolId pool source sourceStride allocation) := by
  simp only [DecodedImages.materializePlane]
  cases hlen : pool.layout.byteLen with
  | error error => exact h.refusal error
  | ok outputLen =>
    have hrows : pool.layout.stride * pool.layout.height ≤ outputLen := by
      rw [DecodedRasterLayout.byteLen_eq_ok hlen]
      exact le_add_right _ _
    dsimp only
    cases hrequired : checkedMulU64 sourceStride pool.layout.height with
    | none => exact h.refusal _
    | some required =>
      dsimp only
      by_cases hinv : sourceStride < pool.layout.stride ∨ source.length < required
      · rw [if_pos hinv]
        exact h.refusal _
      · rw [if_neg hinv]
        obtain ⟨error, hacquire⟩ | ⟨next, raster, hacquire, hrasters, hmoved,
          hhome, inner, hinner, hlayout⟩ := h.rasters.acquire hpool outputLen hfits
        · rw [hacquire]
          exact h.refusal error
        · rw [hacquire]
          dsimp only
          split_ifs with htight hshort
          · refine ⟨⟨hrasters.dropRaster, ?_⟩, ?_, ?_⟩
            · exact (h.owners.moved hmoved).moved hrasters.dropRaster_moved
            · exact (of_moved hmoved).trans (of_moved hrasters.dropRaster_moved)
            · intro error href
              cases href
          · exact h.acquired_freeze hrasters hmoved hinner hhome hlayout
              hlen (length_take_le _ _) none
          · exact h.acquired_freeze hrasters hmoved hinner hhome hlayout
              hlen ((rows_length_le _ _ _ _).trans hrows) none

/-- `materialize_yuv420p_planes`. -/
theorem materializeYuv420pPlanes (h : ImagesSound images)
    (hpool : images.pools.find poolId = some pool) (luma chromaU chromaV : Plane) (recipe : R)
    (hfits : AllocationFits pool.layout allocation) :
    Materializes images (images.materializeYuv420pPlanes poolId pool luma
      chromaU chromaV recipe allocation) := by
  simp only [DecodedImages.materializeYuv420pPlanes]
  cases hplanes :
      validatePlanes pool.layout luma chromaU chromaV with
  | error error => exact h.refusal error
  | ok outputLen =>
    obtain ⟨hfmt, hlen⟩ := validatePlanes_ok hplanes
    have hplanar := DecodedRasterLayout.byteLen_eq_ok hlen
    simp only [hfmt] at hplanar
    have hluma := packPlane_length_le luma pool.layout.stride pool.layout.height
    have hchroma := fun plane => packPlane_length_le plane
      pool.layout.chromaDimensions.1 pool.layout.chromaDimensions.2
    have hbytes : (packPlane luma pool.layout.stride
        pool.layout.height ++
          packPlane chromaU pool.layout.chromaDimensions.1 pool.layout.chromaDimensions.2 ++
            packPlane chromaV pool.layout.chromaDimensions.1
              pool.layout.chromaDimensions.2).length ≤ outputLen := by
      have hU := hchroma chromaU
      have hV := hchroma chromaV
      rw [length_append, length_append]
      omega
    dsimp only
    obtain ⟨error, hacquire⟩ | ⟨next, raster, hacquire, hrasters, hmoved,
      hhome, inner, hinner, hlayout⟩ := h.rasters.acquire hpool outputLen hfits
    · rw [hacquire]
      exact h.refusal error
    · rw [hacquire]
      exact h.acquired_freeze hrasters hmoved hinner hhome hlayout hlen hbytes _

theorem opened (maxBytes : ℕ) : ImagesSound (.opened maxBytes : DecodedImages R) where
  rasters := by
    have hholds : ∀ raster : RecycledRaster,
        ¬ (DecodedImages.opened maxBytes : DecodedImages R).Holds [] raster := by
      intro raster hraster
      cases hraster with
      | inner hfind | idle hfind => cases hfind
      | hand hmem => cases hmem
    refine ⟨fun _ => rfl, rfl, rfl, zero_le _, ?_, ?_, ?_, ?_, ?_, ?_⟩
    · exact fun _ _ hfind => nomatch hfind
    · exact fun _ _ hfind => nomatch hfind
    · exact fun raster hraster => absurd hraster (hholds raster)
    · exact fun _ _ hfind => nomatch hfind
    · exact fun _ _ _ hfind => nomatch hfind
    · exact fun _ _ => ⟨rfl, rfl, rfl, rfl⟩
  owners := by
    refine ⟨?_, ?_, ?_, fun _ => rfl⟩
    · exact fun _ _ hfind => nomatch hfind
    · exact fun _ _ hfind => nomatch hfind
    · exact fun _ _ hfind => nomatch hfind

theorem of_pools (h : ImagesSound images) (hrasters : RastersSound next [])
    (hinners : next.inners = images.inners) (hpayloads : next.payloads = images.payloads)
    (hbuffers : next.buffers = images.buffers) (hledger : next.ledger = images.ledger)
    (hnext : images.nextAddress ≤ next.nextAddress) :
    ImagesSound next ∧ Kept images next := by
  have hmoved : RasterMoved images next := by
    refine ⟨hinners, hpayloads, ?_, hnext, ?_⟩
    · rw [hledger]
    · intro id inner hinner
      rw [hbuffers]
  exact ⟨⟨hrasters, h.owners.moved hmoved⟩, of_moved hmoved⟩

theorem step (h : ImagesSound images) {label : ImageLabel R}
    (hstep : imageStep images label = some next) :
    ImagesSound next ∧ Kept images next := by
  cases label with
  | newPool layout maxIdleSlots maxPhysicalBytes =>
    simp only [imageStep] at hstep
    split at hstep
    · cases hstep
      exact ⟨h, refl images⟩
    · rename_i pool hpool
      cases hstep
      simp only [RasterPoolInner.new] at hpool
      split at hpool
      · cases hpool
      · split_ifs at hpool
        cases hpool
        exact h.of_pools (h.rasters.newPool rfl rfl) rfl rfl rfl rfl (le_succ _)
  | clonePool poolId =>
    obtain ⟨pool, hpool, rfl⟩ := map_eq_some_iff.mp hstep
    exact h.of_pools (h.rasters.poolHandles poolId (· + 1)) rfl rfl rfl rfl le_rfl
  | dropPool poolId =>
    obtain ⟨pool, hpool, rfl⟩ := map_eq_some_iff.mp hstep
    exact h.dropPool hpool
  | materializePlane poolId source sourceStride allocation =>
    simp only [imageStep] at hstep
    split at hstep
    · rename_i pool hpool
      split_ifs at hstep with hfits
      cases hstep
      have hres := h.materializePlane hpool source sourceStride hfits
      exact ⟨hres.sound, hres.kept⟩
    · cases hstep
  | materializeYuv420pPlanes poolId luma chromaU chromaV recipe allocation =>
    simp only [imageStep] at hstep
    split at hstep
    · rename_i pool hpool
      split_ifs at hstep with hfits
      cases hstep
      have hres := h.materializeYuv420pPlanes hpool luma chromaU chromaV recipe hfits
      exact ⟨hres.sound, hres.kept⟩
    · cases hstep
  | shareAs payload owner =>
    obtain ⟨handle, hhand, rfl⟩ := map_eq_some_iff.mp hstep
    exact h.shareAs hhand owner
  | clone payload =>
    obtain ⟨handle, hhand, rfl⟩ := map_eq_some_iff.mp hstep
    exact h.shareAs hhand handle.owner
  | drop payload =>
    obtain ⟨handle, hhand, rfl⟩ := map_eq_some_iff.mp hstep
    exact h.dropPayload hhand

end ImagesSound

theorem imagesSound_of_reachable {images : DecodedImages R}
    (h : (imageMachine R).Reachable images) : ImagesSound images := by
  refine Machine.Reachable.invariant ?_ ?_ h
  · rintro _ ⟨maxBytes, rfl⟩
    exact ImagesSound.opened maxBytes
  · intro images label next hsound hstep
    exact (hsound.step hstep).1

theorem kept_of_run {images next : DecodedImages R} (h : ImagesSound images)
    (hrun : (imageMachine R).FreeRun images next) :
    ImagesSound next ∧ Kept images next := by
  induction hrun with
  | refl => exact ⟨h, refl _⟩
  | tail _ _ hstep ih =>
    obtain ⟨hsound, hkept⟩ := ih.1.step hstep
    exact ⟨hsound, ih.2.trans hkept⟩

namespace DecodedImages

def holders (images : DecodedImages R) (address : ℕ) : ℕ :=
  images.inners.total (fun inner => if inner.raster.buffer = address then 1 else 0) +
    images.pools.total fun pool => pool.idle.countP fun raster => raster.buffer = address

def capacity (images : DecodedImages R) (raster : RecycledRaster) : ℕ :=
  match images.buffers.find raster.buffer with
  | some buffer => buffer.capacity
  | none => 0

/-- The capacities of the live and the idle buffers of a pool. -/
def poolCapacity (images : DecodedImages R) (poolId : ℕ) (pool : RasterPoolInner) : ℕ :=
  images.inners.total
      (fun inner => if inner.pool = poolId then images.capacity inner.raster else 0) +
    (pool.idle.map images.capacity).sum

end DecodedImages

/-- The counters are the sums that they stand for. -/
structure ImageAccounts (images : DecodedImages R) : Prop where
  /-- A buffer has one holder while it is allocated. -/
  holders : ∀ address, images.holders address = (images.buffers.find address).isSome.toNat
  /-- A live handle sees its bytes. -/
  live : ∀ payload handle, images.payloads.find payload = some handle →
    (images.asSlice payload).isSome
  pools : ∀ poolId pool, images.pools.find poolId = some pool →
    pool.ownedBytes = images.poolCapacity poolId pool ∧
      pool.ownedBytes ≤ pool.maxPhysicalBytes ∧ pool.idle.length ≤ pool.maxIdleSlots
  ledger : images.ledger.physicalBytes = images.buffers.total Buffer.capacity ∧
    images.ledger.physicalBytes ≤ images.ledger.maxBytes
  owners : ∀ owner, images.ledger.logicalOwners owner =
    images.payloads.total fun handle => if handle.owner = owner then 1 else 0
  inners : ∀ id inner, images.inners.find id = some inner →
    0 < inner.handles ∧
      inner.handles = images.payloads.total (fun handle => if handle.inner = id then 1 else 0) ∧
      ∀ owner, inner.owners owner = images.payloads.total fun handle =>
        if handle.inner = id ∧ handle.owner = owner then 1 else 0

theorem toNat_decide (p : Prop) [Decidable p] : (decide p).toNat = if p then 1 else 0 := by
  by_cases h : p <;> simp [h]

theorem RecycledRaster.sum_occupies (address : ℕ) (rasters : List RecycledRaster) :
    (rasters.map (occupies address)).sum =
      rasters.countP fun raster => raster.buffer = address := by
  induction rasters with
  | nil => rfl
  | cons raster rasters ih =>
    rw [map_cons, sum_cons, ih, countP_cons, occupies, toNat_decide, add_comm]
    simp

namespace RastersSound

variable {images : DecodedImages R} {hand : List RecycledRaster}

open RecycledRaster

theorem leased_eq (h : RastersSound images hand) {raster : RecycledRaster}
    (hraster : images.Holds hand raster) {poolId : ℕ}
    (hhome : raster.poolLease.map PoolAllocationLease.pool = some poolId) (other : ℕ) :
    raster.leased other = if poolId = other then images.capacity raster else 0 := by
  obtain ⟨buffer, home, hbuf, -, hlease, -⟩ := (h.leases raster hraster).lease
  rw [hlease] at hhome
  cases hhome
  simp only [leased, hlease, capacity, hbuf]

theorem holders_eq (h : RastersSound images []) (address : ℕ) :
    images.holders address = (images.buffers.find address).isSome.toNat := by
  rw [← h.located address, holders, held]
  have hinners : images.inners.total
      (fun inner => if inner.raster.buffer = address then 1 else 0) =
        images.inners.total fun inner => inner.raster.occupies address := by
    apply Table.total_congr
    intro id inner _
    exact (toNat_decide _).symm
  have hpools : images.pools.total
      (fun pool => pool.idle.countP fun raster => raster.buffer = address) =
        images.pools.total fun pool => (pool.idle.map (occupies address)).sum := by
    apply Table.total_congr
    intro id pool _
    exact (sum_occupies address pool.idle).symm
  rw [hinners, hpools]
  simp

theorem ownedBytes_eq (h : RastersSound images []) {poolId : ℕ}
    {pool : RasterPoolInner} (hpool : images.pools.find poolId = some pool) :
    pool.ownedBytes = images.poolCapacity poolId pool := by
  rw [h.owned poolId pool hpool, held, poolCapacity]
  have hinners : images.inners.total
      (fun inner => inner.raster.leased poolId) =
        images.inners.total fun inner =>
          if inner.pool = poolId then images.capacity inner.raster else 0 := by
    apply Table.total_congr
    intro id inner hinner
    exact h.leased_eq (.inner hinner) (h.innerHome id inner hinner) poolId
  have hidle : ∀ id inner, images.pools.find id = some inner →
      (inner.idle.map (leased poolId)).sum =
        if id = poolId then (inner.idle.map images.capacity).sum else 0 := by
    intro id inner hinner
    have hrasters : inner.idle.map (leased poolId) =
        inner.idle.map fun raster => if id = poolId then images.capacity raster else 0 := by
      apply map_congr_left
      intro raster hraster
      exact h.leased_eq (.idle hinner hraster) (h.idleHome id inner raster hinner hraster) poolId
    rw [hrasters]
    split_ifs
    · rfl
    · simp
  have hpools : images.pools.total
      (fun inner => (inner.idle.map (leased poolId)).sum) =
        (pool.idle.map (leased poolId)).sum := by
    apply Table.total_eq_single hpool
    intro id inner hinner hne
    rw [hidle id inner hinner, if_neg hne]
  rw [hinners, hpools, hidle poolId pool hpool, if_pos rfl]
  rfl

end RastersSound

theorem ImagesSound.accounts {images : DecodedImages R}
    (h : ImagesSound images) : ImageAccounts images where
  holders := h.rasters.holders_eq
  live payload handle hhand := by
    obtain ⟨inner, hinner⟩ := isSome_iff_exists.mp (h.owners.alive payload handle hhand)
    obtain ⟨buffer, -, hbuf, -⟩ := (h.rasters.leases inner.raster (.inner hinner)).lease
    simp [asSlice, hhand, hinner, hbuf]
  pools poolId pool hpool := ⟨h.rasters.ownedBytes_eq hpool, h.rasters.owned_le poolId pool hpool⟩
  ledger := ⟨h.rasters.allocated.symm, h.rasters.physical_le⟩
  owners owner := by
    rw [h.owners.ledger owner]
    simp only [toNat_decide]
  inners id inner hinner := by
    obtain ⟨hhands, howners⟩ := h.owners.counted id inner hinner
    refine ⟨h.owners.shared id inner hinner, ?_, ?_⟩
    · rw [hhands]
      simp only [toNat_decide]
    · intro owner
      rw [howners owner]
      apply Table.total_congr
      rintro payload ⟨innerId, role⟩ -
      simp only [toNat_decide, DecodedImagePayload.mk.injEq]

/-- In every state that is reached, the counters are the sums they stand for and
a refused materialization changes nothing; in every later state a handle is gone
or sees the bytes it saw. -/
theorem held_pixels_stay {images : DecodedImages R} (h : (imageMachine R).Reachable images) :
    ImageAccounts images ∧
      (∀ next, (imageMachine R).FreeRun images next → ∀ payload bytes,
        images.asSlice payload = some bytes →
          next.payloads.find payload = none ∨ next.asSlice payload = some bytes) ∧
      ∀ poolId pool allocation, images.pools.find poolId = some pool →
        AllocationFits pool.layout allocation →
          (∀ source sourceStride next error,
            images.materializePlane poolId pool source sourceStride
              allocation = (next, .refused error) → next = images) ∧
          ∀ luma chromaU chromaV recipe next error,
            images.materializeYuv420pPlanes poolId pool luma chromaU chromaV
              recipe allocation = (next, .refused error) → next = images := by
  have hsound := imagesSound_of_reachable h
  refine ⟨hsound.accounts, ?_, ?_⟩
  · intro next hrun payload bytes hslice
    have hlt : payload < images.nextAddress := by
      by_contra hge
      have hfresh := (hsound.rasters.fresh payload (not_lt.mp hge)).2.2.2
      rw [asSlice, hfresh] at hslice
      cases hslice
    obtain hgone | ⟨-, hsame⟩ := (kept_of_run hsound hrun).2.payloads payload hlt
    · exact .inl hgone
    · exact .inr (hsame.trans hslice)
  · intro poolId pool allocation hpool hfits
    refine ⟨?_, ?_⟩
    · intro source sourceStride next error hrefused
      have hresult := (hsound.materializePlane hpool source sourceStride hfits).refused error
      rw [hrefused] at hresult
      exact hresult rfl
    · intro luma chromaU chromaV recipe next error hrefused
      have hresult := (hsound.materializeYuv420pPlanes hpool luma chromaU
        chromaV recipe hfits).refused error
      rw [hrefused] at hresult
      exact hresult rfl

/-- One image is shared, and its first handle is dropped. -/
def sampleImages : List (ImageLabel Unit) :=
  [.newPool ⟨1, 1, 4, .packedRgba8⟩ 1 8, .materializePlane 0 [1, 2, 3, 4] 4 (.ok 8),
    .shareAs 3 .upload, .drop 3]

theorem held_pixels_stay_sampleImages :
    ∃ images, (imageMachine Unit).exec (.opened 16) sampleImages = some images ∧
      images.asSlice 4 = some [1, 2, 3, 4] ∧ ImageAccounts images := by
  have hslice : ((imageMachine Unit).exec (.opened 16) sampleImages).map
      (fun images => images.asSlice 4) = some (some [1, 2, 3, 4]) := by
    decide +kernel
  obtain ⟨images, hexec, hbytes⟩ := map_eq_some_iff.mp hslice
  exact ⟨images, hexec, hbytes, (held_pixels_stay ⟨_, ⟨16, rfl⟩, Machine.freeRun_of_exec hexec⟩).1⟩

end CollideOScope.Video
