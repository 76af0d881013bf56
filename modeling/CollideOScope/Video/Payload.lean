import CollideOScope.Support.Machine
import CollideOScope.Support.Table
import CollideOScope.Support.Words

/-!
# Decoded images

A decoded picture is packed into a buffer of its decoder's pool and frozen
behind a shared payload.  When its last handle is dropped the buffer goes back
to the pool, or its memory is freed.  Every buffer carries two leases, one of
its pool and one of the ledger that all pools share.

Counts of handles are natural numbers: each handle takes memory.
-/

namespace CollideOScope.Video

open Function

inductive DecodedPixelFormat
  | packedRgba8 | planarYuv420p8
  deriving DecidableEq

structure DecodedRasterLayout where
  (width height stride : ℕ)
  format : DecodedPixelFormat
  deriving DecidableEq

namespace DecodedRasterLayout

def chromaDimensions (layout : DecodedRasterLayout) : ℕ × ℕ :=
  (layout.width / 2 + layout.width % 2, layout.height / 2 + layout.height % 2)

def byteLen (layout : DecodedRasterLayout) : Except String ℕ :=
  let (chromaWidth, chromaHeight) := layout.chromaDimensions
  let length :=
    match layout.format with
    | .packedRgba8 => checkedMulU64 layout.stride layout.height
    | .planarYuv420p8 =>
      (checkedMulU64 layout.stride layout.height).bind fun luma =>
        (checkedMulU64 chromaWidth chromaHeight).bind fun chroma =>
          (checkedMulU64 chroma 2).bind fun chroma => checkedAddU64 luma chroma
  match length with
  | none => .error "decoded image byte count overflows"
  | some length => .ok length

end DecodedRasterLayout

inductive DecodedPayloadOwner
  | forward | reverseCache | upload | readOnly
  deriving DecidableEq

structure Buffer where
  bytes : Bytes
  capacity : ℕ

structure PoolAllocationLease where
  (pool bytes : ℕ)
  deriving DecidableEq

/-- A buffer, by its address, with its leases. -/
structure RecycledRaster where
  buffer : ℕ
  aggregateLease : Option ℕ
  poolLease : Option PoolAllocationLease
  deriving DecidableEq

/-- `DecodedImageLedger`, without the counters of copies out of payloads. -/
structure DecodedImageLedger where
  (maxBytes physicalBytes peakPhysicalBytes : ℕ)
  (allocations reuses materializationCopiedBytes : UInt64)
  logicalOwners : DecodedPayloadOwner → ℕ

namespace DecodedImageLedger

def new (maxBytes : ℕ) : DecodedImageLedger where
  maxBytes
  physicalBytes := 0
  peakPhysicalBytes := 0
  allocations := 0
  reuses := 0
  materializationCopiedBytes := 0
  logicalOwners _ := 0

def tryReserve (ledger : DecodedImageLedger) (bytes : ℕ) : Except String DecodedImageLedger :=
  match checkedAddU64 ledger.physicalBytes bytes with
  | none => .error "decoded image byte accounting overflow"
  | some requested =>
    if ledger.maxBytes < requested then .error "aggregate decoded image budget exceeded"
    else
      .ok { ledger with
        physicalBytes := requested
        peakPhysicalBytes := max ledger.peakPhysicalBytes requested }

def release (ledger : DecodedImageLedger) (bytes : ℕ) : DecodedImageLedger :=
  { ledger with physicalBytes := ledger.physicalBytes - bytes }

def addOwner (ledger : DecodedImageLedger) (owner : DecodedPayloadOwner) : DecodedImageLedger :=
  { ledger with
    logicalOwners := update ledger.logicalOwners owner (ledger.logicalOwners owner + 1) }

def removeOwner (ledger : DecodedImageLedger) (owner : DecodedPayloadOwner) : DecodedImageLedger :=
  { ledger with
    logicalOwners := update ledger.logicalOwners owner (ledger.logicalOwners owner - 1) }

end DecodedImageLedger

structure RasterPoolInner where
  layout : DecodedRasterLayout
  (maxIdleSlots maxPhysicalBytes ownedBytes : ℕ)
  idle : List RecycledRaster
  handles : ℕ

/-- `u64::wrapping_sub`, as `fetch_sub` does it. -/
def wrappingSubU64 (a b : ℕ) : ℕ := if b ≤ a then a - b else a + 2 ^ 64 - b

namespace RasterPoolInner

def new (layout : DecodedRasterLayout) (maxIdleSlots maxPhysicalBytes : ℕ) :
    Except String RasterPoolInner :=
  match layout.byteLen with
  | .error error => .error error
  | .ok bytes =>
    if bytes = 0 then .error "decoded image pool cannot admit an empty raster"
    else if maxPhysicalBytes < bytes then
      .error (s!"decoded image pool limit {maxPhysicalBytes} is smaller than "
        ++ s!"one {bytes}-byte raster")
    else
      .ok
        { layout
          maxIdleSlots
          maxPhysicalBytes
          ownedBytes := 0
          idle := []
          handles := 1 }

/-- `reserve_pool_bytes`. -/
def reserve (pool : RasterPoolInner) (bytes : ℕ) : Except String RasterPoolInner :=
  match checkedAddU64 pool.ownedBytes bytes with
  | none => .error "decoded image pool byte accounting overflow"
  | some requested =>
    if pool.maxPhysicalBytes < requested then
      .error "decoded image pool is fully retained by live consumers"
    else .ok { pool with ownedBytes := requested }

def release (pool : RasterPoolInner) (bytes : ℕ) : RasterPoolInner :=
  { pool with ownedBytes := wrappingSubU64 pool.ownedBytes bytes }

end RasterPoolInner

/-- The shared part of a payload, with the number of its handles; the raster is
there until the last of them is dropped. -/
structure DecodedImagePayloadInner (R : Type) where
  identity : UInt64
  layout : DecodedRasterLayout
  raster : RecycledRaster
  pool : ℕ
  owners : DecodedPayloadOwner → ℕ
  conversionRecipe : Option R
  handles : ℕ

structure DecodedImagePayload where
  inner : ℕ
  owner : DecodedPayloadOwner
  deriving DecidableEq

/-- The memory that the pools of one ledger and their payloads take. -/
structure DecodedImages (R : Type) where
  ledger : DecodedImageLedger
  buffers : Table ℕ Buffer
  pools : Table ℕ RasterPoolInner
  inners : Table ℕ (DecodedImagePayloadInner R)
  payloads : Table ℕ DecodedImagePayload
  nextAddress : ℕ
  nextPayloadId : UInt64

/-- What a materialization gives; it panics when a slice is out of range. -/
inductive Materialized
  | payload (payload : ℕ)
  | refused (error : String)
  | panicked

namespace DecodedImages

variable {R : Type}

def opened (maxBytes : ℕ) : DecodedImages R where
  ledger := .new maxBytes
  buffers := .empty
  pools := .empty
  inners := .empty
  payloads := .empty
  nextAddress := 0
  nextPayloadId := 1

/-- The drop of a lease of a pool, which may be gone. -/
def releasePool (images : DecodedImages R) (lease : PoolAllocationLease) : DecodedImages R :=
  { images with pools := images.pools.adjust lease.pool fun pool => pool.release lease.bytes }

/-- The drop of a raster: its buffer is freed and both leases are dropped. -/
def dropRaster (images : DecodedImages R) (raster : RecycledRaster) : DecodedImages R :=
  let images := { images with buffers := images.buffers.erase raster.buffer }
  let images :=
    match raster.aggregateLease with
    | some bytes => { images with ledger := images.ledger.release bytes }
    | none => images
  match raster.poolLease with
  | some lease => images.releasePool lease
  | none => images

/-- The part of `acquire` that allocates.  The allocator answers with a capacity
or an error. -/
def allocate (images : DecodedImages R) (poolId : ℕ) (pool : RasterPoolInner)
    (outputLen : ℕ) (allocation : Except String ℕ) :
    DecodedImages R × Except String RecycledRaster :=
  match allocation with
  | .error error =>
    (images, .error (s!"could not reserve {outputLen} bytes for packed decoded "
      ++ s!"image: {error}"))
  | .ok capacity =>
    match pool.reserve capacity with
    | .error error => (images, .error error)
    | .ok pool =>
      let images := { images with pools := images.pools.adjust poolId fun _ => pool }
      let lease : PoolAllocationLease := ⟨poolId, capacity⟩
      match images.ledger.tryReserve capacity with
      | .error error => (images.releasePool lease, .error error)
      | .ok ledger =>
        ({ images with
            ledger := { ledger with allocations := ledger.allocations + 1 }
            buffers := images.buffers.insert images.nextAddress ⟨[], capacity⟩
            nextAddress := images.nextAddress + 1 },
          .ok ⟨images.nextAddress, some capacity, some lease⟩)

def acquire (images : DecodedImages R) (poolId : ℕ) (pool : RasterPoolInner)
    (outputLen : ℕ) (allocation : Except String ℕ) :
    DecodedImages R × Except String RecycledRaster :=
  match pool.idle.getLast? with
  | some raster =>
    ({ images with
        pools := images.pools.adjust poolId fun pool => { pool with idle := pool.idle.dropLast }
        ledger := { images.ledger with reuses := images.ledger.reuses + 1 } },
      .ok raster)
  | none => images.allocate poolId pool outputLen allocation

/-- The bytes of a buffer are cleared and extended; it grows if it has to. -/
def write (images : DecodedImages R) (address : ℕ) (bytes : Bytes) : DecodedImages R :=
  { images with
    buffers := images.buffers.adjust address fun buffer =>
      ⟨bytes, max buffer.capacity bytes.length⟩ }

/-- `add_owner` of a payload, and the handle itself. -/
def addOwner (images : DecodedImages R) (payload : ℕ)
    (handle : DecodedImagePayload) : DecodedImages R :=
  { images with
    payloads := images.payloads.insert payload handle
    inners := images.inners.adjust handle.inner fun inner =>
      { inner with owners := update inner.owners handle.owner (inner.owners handle.owner + 1) }
    ledger := images.ledger.addOwner handle.owner }

/-- The end of a materialization, with `from_recycled`. -/
def freeze (images : DecodedImages R) (poolId : ℕ)
    (layout : DecodedRasterLayout) (raster : RecycledRaster) (outputLen : ℕ)
    (bytes : Bytes) (recipe : Option R) : DecodedImages R × Materialized :=
  let images := images.write raster.buffer bytes
  let inner : DecodedImagePayloadInner R :=
    { identity := max images.nextPayloadId 1
      layout
      raster
      pool := poolId
      owners := fun _ => 0
      conversionRecipe := recipe
      handles := 1 }
  let innerId := images.nextAddress
  let payload := images.nextAddress + 1
  let images :=
    { images with
      ledger :=
        { images.ledger with
          materializationCopiedBytes :=
            images.ledger.materializationCopiedBytes + UInt64.ofNat outputLen }
      inners := images.inners.insert innerId inner
      nextAddress := images.nextAddress + 2
      nextPayloadId := images.nextPayloadId + 1 }
  (images.addOwner payload ⟨innerId, .forward⟩, .payload payload)

/-- The rows of a plane without their padding. -/
def rows (data : Bytes) (stride rowBytes count : ℕ) : Bytes :=
  (List.range count).flatMap fun row => (data.drop (row * stride)).take rowBytes

def materializePlane (images : DecodedImages R) (poolId : ℕ)
    (pool : RasterPoolInner) (source : Bytes) (sourceStride : ℕ)
    (allocation : Except String ℕ) : DecodedImages R × Materialized :=
  let layout := pool.layout
  match layout.byteLen with
  | .error error => (images, .refused error)
  | .ok outputLen =>
    match checkedMulU64 sourceStride layout.height with
    | none => (images, .refused "decoded source plane byte count overflows")
    | some required =>
      if sourceStride < layout.stride ∨ source.length < required then
        (images, .refused (s!"invalid decoded RGBA plane: stride={sourceStride}, "
          ++ s!"row_bytes={layout.stride}, height={layout.height}, "
          ++ s!"data_len={source.length}"))
      else
        match images.acquire poolId pool outputLen allocation with
        | (images, .error error) => (images, .refused error)
        | (images, .ok raster) =>
          if sourceStride = layout.stride then
            if source.length < outputLen then (images.dropRaster raster, .panicked)
            else images.freeze poolId layout raster outputLen (source.take outputLen) none
          else
            images.freeze poolId layout raster outputLen
              (rows source sourceStride layout.stride layout.height) none

abbrev Plane := Bytes × ℕ

/-- The closure `validate`. -/
def validatePlane (label : String) (plane : Plane) (rowBytes count : ℕ) : Except String Unit :=
  match (checkedMulU64 plane.2 (count - 1)).bind
      fun front => checkedAddU64 front rowBytes with
  | none => .error s!"decoded {label} plane byte count overflows"
  | some required =>
    if plane.2 < rowBytes ∨ plane.1.length < required then
      .error (s!"invalid decoded {label} plane: stride={plane.2}, "
        ++ s!"row_bytes={rowBytes}, rows={count}, "
        ++ s!"data_len={plane.1.length}")
    else .ok ()

/-- The closure `pack`. -/
def packPlane (plane : Plane) (rowBytes count : ℕ) : Bytes :=
  if plane.2 = rowBytes then plane.1.take (rowBytes * count)
  else rows plane.1 plane.2 rowBytes count

/-- The checks of `materialize_yuv420p_planes`, and the length of the image. -/
def validatePlanes (layout : DecodedRasterLayout)
    (luma chromaU chromaV : Plane) : Except String ℕ := do
  if layout.format ≠ .planarYuv420p8 then
    throw "this pool does not materialize planar frames"
  let outputLen ← layout.byteLen
  let (chromaWidth, chromaHeight) := layout.chromaDimensions
  validatePlane "luma" luma layout.stride layout.height
  validatePlane "chroma-u" chromaU chromaWidth chromaHeight
  validatePlane "chroma-v" chromaV chromaWidth chromaHeight
  return outputLen

def materializeYuv420pPlanes (images : DecodedImages R) (poolId : ℕ)
    (pool : RasterPoolInner) (luma chromaU chromaV : Plane) (recipe : R)
    (allocation : Except String ℕ) : DecodedImages R × Materialized :=
  let layout := pool.layout
  let (chromaWidth, chromaHeight) := layout.chromaDimensions
  match validatePlanes layout luma chromaU chromaV with
  | .error error => (images, .refused error)
  | .ok outputLen =>
    match images.acquire poolId pool outputLen allocation with
    | (images, .error error) => (images, .refused error)
    | (images, .ok raster) =>
      images.freeze poolId layout raster outputLen
        (packPlane luma layout.stride layout.height ++
          packPlane chromaU chromaWidth chromaHeight ++ packPlane chromaV chromaWidth chromaHeight)
        (some recipe)

def shareAs (images : DecodedImages R) (handle : DecodedImagePayload)
    (owner : DecodedPayloadOwner) : DecodedImages R :=
  { images with
    inners := images.inners.adjust handle.inner fun inner =>
      { inner with handles := inner.handles + 1 }
    nextAddress := images.nextAddress + 1 }.addOwner images.nextAddress ⟨handle.inner, owner⟩

/-- `DecodedImagePayloadInner::drop`. -/
def dropInner (images : DecodedImages R) (innerId : ℕ)
    (inner : DecodedImagePayloadInner R) : DecodedImages R :=
  let images := { images with inners := images.inners.erase innerId }
  match images.pools.find inner.pool with
  | none => images.dropRaster inner.raster
  | some pool =>
    if pool.layout ≠ inner.layout then images.dropRaster inner.raster
    else if pool.idle.length < pool.maxIdleSlots then
      { images with
        pools := images.pools.adjust inner.pool fun pool =>
          { pool with idle := pool.idle ++ [inner.raster] } }
    else images.dropRaster inner.raster

/-- `remove_owner` of a payload, and the handle itself. -/
def removeOwner (images : DecodedImages R) (payload : ℕ)
    (handle : DecodedImagePayload) : DecodedImages R :=
  { images with
    payloads := images.payloads.erase payload
    inners := images.inners.adjust handle.inner fun inner =>
      { inner with
        owners := update inner.owners handle.owner (inner.owners handle.owner - 1)
        handles := inner.handles - 1 }
    ledger := images.ledger.removeOwner handle.owner }

/-- The drop of a handle, and of what it held last. -/
def dropPayload (images : DecodedImages R) (payload : ℕ)
    (handle : DecodedImagePayload) : DecodedImages R :=
  let images := images.removeOwner payload handle
  match images.inners.find handle.inner with
  | some inner => if inner.handles = 0 then images.dropInner handle.inner inner else images
  | none => images

def dropPool (images : DecodedImages R) (poolId : ℕ) (pool : RasterPoolInner) : DecodedImages R :=
  if pool.handles = 1 then
    pool.idle.foldl dropRaster { images with pools := images.pools.erase poolId }
  else
    { images with
      pools := images.pools.adjust poolId fun pool => { pool with handles := pool.handles - 1 } }

end DecodedImages

inductive ImageLabel (R : Type)
  | newPool (layout : DecodedRasterLayout) (maxIdleSlots maxPhysicalBytes : ℕ)
  | clonePool (pool : ℕ)
  | dropPool (pool : ℕ)
  | materializePlane (pool : ℕ) (source : Bytes) (sourceStride : ℕ)
      (allocation : Except String ℕ)
  | materializeYuv420pPlanes (pool : ℕ)
      (luma chromaU chromaV : DecodedImages.Plane) (recipe : R)
      (allocation : Except String ℕ)
  | shareAs (payload : ℕ) (owner : DecodedPayloadOwner)
  | clone (payload : ℕ)
  | drop (payload : ℕ)

def AllocationFits (layout : DecodedRasterLayout) (allocation : Except String ℕ) : Prop :=
  ∀ outputLen capacity, layout.byteLen = .ok outputLen →
    allocation = .ok capacity → outputLen ≤ capacity

instance (layout : DecodedRasterLayout) (allocation : Except String ℕ) :
    Decidable (AllocationFits layout allocation) :=
  match hlayout : layout.byteLen, allocation with
  | .ok outputLen, .ok capacity =>
    decidable_of_iff (outputLen ≤ capacity)
      ⟨fun h _ _ hlength hcapacity => by
          cases hlayout.symm.trans hlength
          cases hcapacity
          exact h,
        fun h => h outputLen capacity hlayout rfl⟩
  | .error _, _ => isTrue fun _ _ hlength _ => nomatch hlayout.symm.trans hlength
  | _, .error _ => isTrue nofun

def imageStep {R : Type} (images : DecodedImages R) : ImageLabel R → Option (DecodedImages R)
  | .newPool layout maxIdleSlots maxPhysicalBytes =>
    match RasterPoolInner.new layout maxIdleSlots maxPhysicalBytes with
    | .error _ => some images
    | .ok pool =>
      some { images with
        pools := images.pools.insert images.nextAddress pool
        nextAddress := images.nextAddress + 1 }
  | .clonePool poolId =>
    (images.pools.find poolId).map fun _ =>
      { images with
        pools := images.pools.adjust poolId fun pool => { pool with handles := pool.handles + 1 } }
  | .dropPool poolId => (images.pools.find poolId).map fun pool => images.dropPool poolId pool
  | .materializePlane poolId source sourceStride allocation =>
    match images.pools.find poolId with
    | some pool =>
      if AllocationFits pool.layout allocation then
        some (images.materializePlane poolId pool source sourceStride allocation).1
      else none
    | none => none
  | .materializeYuv420pPlanes poolId luma chromaU chromaV recipe allocation =>
    match images.pools.find poolId with
    | some pool =>
      if AllocationFits pool.layout allocation then
        some (images.materializeYuv420pPlanes poolId pool luma chromaU chromaV recipe allocation).1
      else none
    | none => none
  | .shareAs payload owner =>
    (images.payloads.find payload).map fun handle => images.shareAs handle owner
  | .clone payload =>
    (images.payloads.find payload).map fun handle => images.shareAs handle handle.owner
  | .drop payload =>
    (images.payloads.find payload).map fun handle => images.dropPayload payload handle

/-- The images of a ledger, from when it is empty. -/
def imageMachine (R : Type) : Machine (DecodedImages R) (ImageLabel R) where
  start images := ∃ maxBytes, images = .opened maxBytes
  step := imageStep

end CollideOScope.Video
