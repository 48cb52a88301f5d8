import KvCache.Foundation.EqualBlocks
import KvCache.Foundation.WordBytes
import Mathlib.Data.List.Sort

/-!
# Chunks as values of the wire

A chunk of a cache that is sharded over chips travels as raw bytes: for each layer one buffer
with its keys and its values, all of them behind a header of their sizes. The value is stored
on device pages of 32 KiB. A reader allocates the output before it knows the size of the value;
it estimates the size from the configured geometry and from what its own process has stored.

The device path stores the same buffers under the same key, behind a header with a magic number
of its own.
-/

namespace KvCache.Lmcache.RawWire

open WordBytes EqualBlocks

abbrev Bytes := List UInt8

/-- What the host path raises. -/
inductive WireError where
  | emptySlice
  | unaligned
  | scattered
  | crossesGroup
  | wordOverflow
  | valueTooLarge
  | badMagic
deriving DecidableEq, Repr

/-! ## The codec -/

/-- The bytes of a bfp8 tile. -/
def bfp8TileBytes : Nat := 1088

def tile : Nat := 32

/-- A cache tensor: its type and layout, and its shape on each device. -/
structure Handle where
  bfloat8 : Bool
  tiled : Bool
  headsPerDev : Nat
  block : Nat
  headDim : Nat

/-- What a connector knows when it asks for a codec. -/
structure Deployment where
  enabled : Bool
  operations : Bool
  tpSize : Nat
  dpSize : Nat
  tpAxis : Nat
  dpAxis : Nat
  blockSize : Option Nat
  blocksPerDp : Option Nat
  k0 : Option Handle

structure Codec where
  tpSize : Nat
  dpSize : Nat
  blockSize : Nat
  blocksPerDp : Nat
  shardBlockBytes : Nat
deriving DecidableEq

/-- The bytes of a block on all chips. -/
def Codec.blockBytes (codec : Codec) : Nat := codec.shardBlockBytes * codec.tpSize

/-- A codec, where the raw path applies. -/
def maybeBuild (deployment : Deployment) : Option Codec :=
  let blockSize := deployment.blockSize.getD 0
  let blocksPerDp := deployment.blocksPerDp.getD 0
  if deployment.enabled = false then none
  else if deployment.tpSize ≤ 1 then none
  else if (deployment.dpAxis, deployment.tpAxis) ≠ (0, 1) then none
  else if blockSize = 0 ∨ blocksPerDp = 0 then none
  else if deployment.operations = false then none
  else match deployment.k0 with
    | none => none
    | some k0 =>
      if k0.bfloat8 = false ∨ k0.tiled = false then none
      else if k0.block ≠ blockSize then none
      else if k0.block % tile ≠ 0 ∨ k0.headDim % tile ≠ 0 then none
      else some
        { tpSize := deployment.tpSize, dpSize := deployment.dpSize, blockSize, blocksPerDp
          shardBlockBytes :=
            k0.headsPerDev * (k0.block / tile) * (k0.headDim / tile) * bfp8TileBytes }

/-- The slots of a chunk: from the start of a block on, one after the other. -/
def Codec.chunkSlots (codec : Codec) (slots : List Int) : Except WireError (List Int) :=
  match slots with
  | [] => .error .emptySlice
  | first :: _ =>
    if first % codec.blockSize ≠ 0 then .error .unaligned
    else if slots ≠ (List.range slots.length).map fun step : Nat => first + step then .error .scattered
    else .ok slots

def Codec.nBlocks (codec : Codec) (numSlots : Nat) : Nat :=
  (numSlots + codec.blockSize - 1) / codec.blockSize

/-- The bytes of one member of a layer. -/
def Codec.alloc (codec : Codec) (numSlots : Nat) : Nat := codec.nBlocks numSlots * codec.blockBytes

/-- A chunk's buffers: for each layer what the gather finds in its blocks. -/
def Codec.gatherChunk (codec : Codec) (found : Nat → Nat → UInt8) (numLayers : Nat)
    (slots : List Int) : Except WireError (List (Nat × Bytes)) := do
  let slots ← codec.chunkSlots slots
  return (List.range numLayers).map fun layer =>
    (layer, (List.range (2 * codec.alloc slots.length)).map (found layer))

/-! ## The wire -/

/-- The values that are stored under keys. -/
abbrev Wire := String → Option Bytes

/-- Read a value into a buffer; a value that exceeds it is an error. -/
def Wire.get (wire : Wire) (key : String) (out : Bytes) : Except WireError (Option Bytes) :=
  match wire key with
  | none => .ok none
  | some value =>
    if out.length < value.length then .error .valueTooLarge else .ok (some (overwrite value out))

def Wire.put (wire : Wire) (key : String) (value : Bytes) : Wire := fun other =>
  if other = key then some value else wire other

/-! ## The client -/

/-- The configured geometry. -/
structure Spec where
  numLayers : Option Nat
  numKvHeads : Option Nat
  headSize : Option Nat
  blockSize : Option Nat
  chunkSize : Option Nat

/-- A client of one process: what is configured, and the largest value that it has stored. -/
structure Client where
  spec : Spec
  rawWireSeenMax : Nat

/-- A page of the device. -/
def page : Nat := 8192 * 4

def rawWireMagic : Nat := 0x524B564D

/-- What a chunk of the configured geometry would take. -/
def Spec.estimate (spec : Spec) : Nat :=
  let numLayers := spec.numLayers.getD 0
  let chunk := if spec.chunkSize.getD 0 ≠ 0 then spec.chunkSize.getD 0 else spec.blockSize.getD 0
  let heads := spec.numKvHeads.getD 0
  let head := spec.headSize.getD 0
  if numLayers ≠ 0 ∧ chunk ≠ 0 ∧ heads ≠ 0 ∧ head ≠ 0 then
    4 * (2 + numLayers) + numLayers * (2 * chunk * heads * head * 2)
  else 0

def Client.rawWireUpperBoundBytes (client : Client) : Nat :=
  (max client.rawWireSeenMax client.spec.estimate + 3) / 4 * 4

/-- Words of a tensor of 32-bit integers. -/
def int32 (words : List Nat) : Except WireError Bytes :=
  if ∀ word ∈ words, word < 0x80000000 then .ok (words.flatMap wordBytes) else .error .wordOverflow

section Store

variable (rawWireKey : String → String)

/-- Store the buffers of a chunk, in the order of the layers. -/
def putChunkRawWire (client : Client) (wire : Wire) (key : String) (bufs : List (Nat × Bytes)) :
    Except WireError (Client × Wire) := do
  let layers := bufs.insertionSort fun one other => one.1 ≤ other.1
  let parts := layers.map (·.2)
  let header ← int32 ([rawWireMagic, parts.length] ++ parts.map List.length)
  let blob := header ++ parts.flatten
  let total := blob.length
  let padded := blob ++ List.replicate (padding page total) 0
  return ({ client with rawWireSeenMax := max client.rawWireSeenMax padded.length },
    wire.put (rawWireKey key) (padded.take total))

/-- The size of the output that a reader allocates. -/
def Client.allocation (client : Client) : Nat :=
  client.rawWireUpperBoundBytes + padding page client.rawWireUpperBoundBytes

/-- Read the buffers of a chunk. No word that was stored is negative. -/
def getChunkRawWire (client : Client) (wire : Wire) (key : String) :
    Except WireError (Option (List (Nat × Bytes))) :=
  if client.rawWireUpperBoundBytes ≤ 8 then .ok none
  else do
    match ← wire.get (rawWireKey key) (List.replicate client.allocation 0) with
    | none => return none
    | some blob =>
      if readWord blob ≠ rawWireMagic then .error .badMagic
      else
        let numLayers := readWord (blob.drop 4)
        let sizes := readWords numLayers (blob.drop 8)
        return some ((slices blob (8 + 4 * numLayers) sizes).mapIdx Prod.mk)

/-! ## The device path -/

/-- The magic number of the device path. -/
def Codec.magic : Nat := 0x524B564E

def headerAlign : Nat := 32

/-- The header of a chunk's plan. -/
def Codec.headerWords (codec : Codec) (numLayers numSlots : Nat) : List Nat :=
  let words := [Codec.magic, numLayers] ++ List.replicate numLayers (2 * codec.alloc numSlots)
  words ++ List.replicate (padding headerAlign (words.length * 4) / 4) 0

/-- The header and the size of the value that the device path stores for a chunk. -/
def Codec.deviceChunkPlan (codec : Codec) (numLayers : Nat) (slots : List Int) :
    Except WireError (List Nat × Nat) := do
  let slots ← codec.chunkSlots slots
  let nBlocks := codec.nBlocks slots.length
  let firstBlock := slots.headD 0 / codec.blockSize
  let dp := firstBlock / codec.blocksPerDp
  let localFirst := firstBlock - dp * codec.blocksPerDp
  if localFirst + nBlocks > codec.blocksPerDp then .error .crossesGroup
  else
    let words := codec.headerWords numLayers slots.length
    return (words, 4 * words.length + numLayers * 2 * codec.alloc slots.length)

end Store

end KvCache.Lmcache.RawWire
