import KvCache.Foundation.ByteMemory
import KvCache.Protocol.Layout

/-!
# Values between the host and the banked heap

The value heap is interleaved over the DRAM banks: consecutive units go to consecutive
banks, and the units of one bank are consecutive pages. A value is read unit by unit
if it is short, else bank by bank with the pages scattered back to the order of the
units. A pass is repeated until two passes agree or the bound on mismatches is
reached. A value is written with one transfer for each bank.

Scratch buffers are memories of their own, since a transfer reuses the one of the
bank before.
-/

namespace KvCache.HostTransfer

open Layout

/-- What the runtime of the server fixes once its resources are reserved: the limits of a
request, the mapping of the host window, the pool, and the layout of the heap over the
banks. -/
structure RuntimeConfig where
  maxKeys : Nat
  maxKeyLen : Nat
  maxValueBytes : Nat
  valueHeapBytes : Nat
  stageNocOk : Bool
  poolHost : Bool
  poolReadOff : Nat
  poolUnitsTotal : Nat
  numBanks : Nat
  alignedPage : Nat
  base : Nat
  keyFits : maxKeyLen ≤ maxPutKeyBytes
  banked : 0 < numBanks
  paged : maxChunkValueBytes ≤ alignedPage
  poolMapped : poolHost = true → stageNocOk = true
  poolPast : poolHost = true → 0 < poolReadOff

variable (cfg : RuntimeConfig)

/-- Bytes of the staging window. -/
def RuntimeConfig.stageBytes : Nat := chunkCountFor cfg.maxValueBytes * maxChunkValueBytes

/-- Mismatching passes after which the last pass is used. -/
def valueReadMaxMismatches : Nat := 101

/-- What the banks of the device hold. -/
abbrev Banks := Nat → ByteMemory

/-- The address of the page of a heap unit in its bank. -/
def RuntimeConfig.pageAddress (unit : Nat) : Nat :=
  (cfg.base + unit / cfg.numBanks * cfg.alignedPage) % 2 ^ 32

/-- The first unit of a value that lies in a bank, counted from the value. -/
def RuntimeConfig.firstUnit (baseUnit bank : Nat) : Nat :=
  (bank + cfg.numBanks - baseUnit % cfg.numBanks) % cfg.numBanks

/-- How many of the units from the first one on lie in its bank. -/
def RuntimeConfig.pageCount (units first : Nat) : Nat := 1 + (units - 1 - first) / cfg.numBanks

/-! ## Reading -/

/-- One pass over a short value: a transfer for each unit. -/
def readUnits (banks : Banks) (baseUnit units : Nat) (into : ByteMemory) : ByteMemory :=
  (List.range units).foldl (fun into unit =>
    into.write (unit * maxChunkValueBytes)
      ((banks ((baseUnit + unit) % cfg.numBanks)).read (cfg.pageAddress (baseUnit + unit))
        maxChunkValueBytes)) into

/-- Scatter the pages of one bank, read as one transfer, to the units they belong to. -/
def scatterPages (first pages : Nat) (scratch into : ByteMemory) : ByteMemory :=
  (List.range pages).foldl (fun into page =>
    into.write ((first + page * cfg.numBanks) * maxChunkValueBytes)
      (scratch.read (page * cfg.alignedPage) maxChunkValueBytes)) into

/-- One pass over a long value: a transfer for each bank that holds a unit of it. -/
def readBanks (banks : Banks) (baseUnit units : Nat) (scratch into : ByteMemory) :
    ByteMemory × ByteMemory :=
  (List.range cfg.numBanks).foldl (fun (scratch, into) bank =>
    let first := cfg.firstUnit baseUnit bank
    if units ≤ first then (scratch, into)
    else
      let pages := cfg.pageCount units first
      let scratch := scratch.write 0
        ((banks bank).read (cfg.pageAddress (baseUnit + first)) (pages * cfg.alignedPage))
      (scratch, scatterPages cfg first pages scratch into)) (scratch, into)

/-- One pass: the scratch buffer and the image it leaves. -/
def readAll (banks : Banks) (baseUnit units : Nat) (scratch into : ByteMemory) :
    ByteMemory × ByteMemory :=
  if cfg.numBanks < units then readBanks cfg banks baseUnit units scratch into
  else (scratch, readUnits cfg banks baseUnit units into)

/-- Compare the next pass with the candidate until they agree. The passes still allowed to
disagree are counted down. -/
def stabilise (images : Nat → Banks) (baseUnit units totalLen : Nat) :
    Nat → Nat → ByteMemory → ByteMemory → ByteMemory → ByteMemory
  | 0, _, _, candidate, _ => candidate
  | mismatches + 1, pass, scratch, candidate, other =>
    let (scratch, other) := readAll cfg (images pass) baseUnit units scratch other
    if candidate.read 0 totalLen = other.read 0 totalLen then candidate
    else
      stabilise images baseUnit units totalLen mismatches (pass + 1) scratch
        (candidate.write 0 (other.read 0 (units * maxChunkValueBytes))) other

/-- Read the units of a value into a buffer, with one image of the device for each pass.
The loop is never to be unfolded by accident. -/
@[irreducible] def readValueUnitsInto (images : Nat → Banks) (valueByteOff totalLen : Nat)
    (into : ByteMemory) : ByteMemory :=
  let baseUnit := valueByteOff / maxChunkValueBytes
  let units := chunkCountFor totalLen
  let (scratch, candidate) := readAll cfg (images 0) baseUnit units (fun _ => 0) into
  stabilise cfg images baseUnit units totalLen valueReadMaxMismatches 1 scratch candidate
    fun _ => 0

/-! ## Writing -/

/-- A transfer of pages to a bank. -/
structure BankWrite where
  bank : Nat
  pageAddress : Nat
  bytes : List UInt8
deriving DecidableEq, Repr

/-- Lay the units of a value that lie in one bank into consecutive pages of a scratch
buffer. How a page is filled is the argument. -/
def gatherPages (fillPage : Nat → List UInt8 → ByteMemory → ByteMemory) (bytes : List UInt8)
    (totalLen first pages : Nat) (scratch : ByteMemory) : ByteMemory :=
  (List.range pages).foldl (fun scratch page =>
    let source := (first + page * cfg.numBanks) * maxChunkValueBytes
    fillPage (page * cfg.alignedPage)
      ((bytes.drop source).take (min maxChunkValueBytes (totalLen - source))) scratch) scratch

/-- The transfers that write a value, one for each bank that holds a unit of it. -/
def bankWrites (fillPage : Nat → List UInt8 → ByteMemory → ByteMemory) (bytes : List UInt8)
    (valueByteOff totalLen : Nat) : List BankWrite :=
  let baseUnit := valueByteOff / maxChunkValueBytes
  let units := chunkCountFor totalLen
  ((List.range cfg.numBanks).foldl (fun (scratch, writes) bank =>
    let first := cfg.firstUnit baseUnit bank
    if units ≤ first then (scratch, writes)
    else
      let pages := cfg.pageCount units first
      let scratch := gatherPages cfg fillPage bytes totalLen first pages scratch
      (scratch, writes ++ [⟨bank, cfg.pageAddress (baseUnit + first),
        scratch.read 0 (pages * cfg.alignedPage)⟩]))
    ((fun _ => 0 : ByteMemory), ([] : List BankWrite))).2

/-- Ways to fill a page that agree on every unit give the same transfers. -/
theorem bankWrites_congr {fill other : Nat → List UInt8 → ByteMemory → ByteMemory}
    (same : ∀ offset unit scratch, unit.length ≤ maxChunkValueBytes →
      fill offset unit scratch = other offset unit scratch)
    (bytes : List UInt8) (valueByteOff totalLen : Nat) :
    bankWrites cfg fill bytes valueByteOff totalLen =
      bankWrites cfg other bytes valueByteOff totalLen := by
  have pages : ∀ first count scratch, gatherPages cfg fill bytes totalLen first count scratch =
      gatherPages cfg other bytes totalLen first count scratch := by
    intro first count scratch
    apply List.foldl_ext
    intro scratch page _
    apply same
    exact (List.length_take_le _ _).trans (Nat.min_le_left _ _)
  simp only [bankWrites, pages]

end KvCache.HostTransfer
