import KvCache.ClientOps.Operations
import KvCache.Foundation.ByteMemory
import KvCache.Foundation.Stretches

/-!
# The value stream of a GET

A hit is served by two processors of the server. The directory processor reads the value
in batches of eight chunks into a circular buffer, from the banked heap or from the
staging window of the host, and always publishes whole batches. The network processor
takes the batches in order and writes the chunks that exist into the client's output,
whose pages are interleaved over the banks of the client.

A chunk is split at the ends of the pages, with an address computed for each part. For
pages of one chunk the address of the next page is kept in a cursor instead. Every write
is rounded up to the unit of the fabric, so that it may carry bytes that follow the value.

Lengths and positions are 32-bit words. NoC addresses are 64-bit and kept as numbers.
-/

namespace KvCache.GetStream

open Layout Stretches
open ClientOps (toWord)

/-- Difference of two 32-bit words. -/
def subWord (left right : Nat) : Nat := (left + 2 ^ 32 - right % 2 ^ 32) % 2 ^ 32

/-- Chunks of one batch of the circular buffer. -/
def getValueCbReadBatch : Nat := 8

def getStatusFound : Nat := 1

def getStatusOutputTooSmall : Nat := 2

/-! ## The answer of the directory -/

/-- What the directory processor answers to a lookup. -/
structure DirResult where
  found : Nat
  totalValueLen : Nat
  numChunks : Nat
deriving DecidableEq, Repr

/-- The answer to the GET of a stored value. A value longer than the output is reported
with its length but not served; the empty value counts as one chunk. -/
def lookupResponse (totalValueLen outputCapacity : Nat) : DirResult where
  found :=
    if outputCapacity < totalValueLen then getStatusFound ||| getStatusOutputTooSmall
    else getStatusFound
  totalValueLen
  numChunks := if 0 < totalValueLen then chunkCountFor totalValueLen else 1

/-! ## Filling the circular buffer -/

/-- Where the value is read from: consecutive units of the heap, or the window. -/
inductive ValueSource where
  | device (heap : Nat → ByteMemory) (baseUnit : Nat)
  | host (window : ByteMemory)

/-- Byte of the value at a position. -/
def ValueSource.byteAt : ValueSource → Nat → UInt8
  | .device heap baseUnit, position =>
    heap (baseUnit + position / maxChunkValueBytes) (position % maxChunkValueBytes)
  | .host window, position => window position

/-- Length of a chunk of the value. -/
def chunkLen (totalValueLen index : Nat) : Nat :=
  let streamPos := toWord (index * maxChunkValueBytes)
  let remaining := subWord totalValueLen streamPos
  if remaining < maxChunkValueBytes then remaining else maxChunkValueBytes

/-- Read one batch from the heap: every chunk of it into its slot, rounded up to the
alignment of the banks. -/
def readBatch (heap : Nat → ByteMemory) (baseUnit totalValueLen base thisBatch : Nat)
    (slots : ByteMemory) : ByteMemory :=
  (List.range thisBatch).foldl (fun slots k =>
    slots.write (k * maxChunkValueBytes)
      ((heap (baseUnit + base + k)).read 0 (roundUp 32 (chunkLen totalValueLen (base + k))))) slots

/-- Read one batch from the window, as a single transfer. -/
def readHostBatch (window : ByteMemory) (totalValueLen base thisBatch : Nat)
    (slots : ByteMemory) : ByteMemory :=
  let batchSpan := toWord (thisBatch * maxChunkValueBytes)
  let batchLeft := subWord totalValueLen (toWord (base * maxChunkValueBytes))
  let batchBytes := if batchSpan < batchLeft then batchSpan else batchLeft
  slots.write 0 (window.read (base * maxChunkValueBytes) (roundUp 32 batchBytes))

/-- The slots of a batch when the directory processor publishes it. -/
def publishBatch (source : ValueSource) (totalValueLen numChunks base : Nat)
    (slots : ByteMemory) : ByteMemory :=
  let thisBatch :=
    if numChunks - base < getValueCbReadBatch then numChunks - base else getValueCbReadBatch
  match source with
  | .device heap baseUnit => readBatch heap baseUnit totalValueLen base thisBatch slots
  | .host window => readHostBatch window totalValueLen base thisBatch slots

/-! ## The output of the client -/

/-- The pages of an output, interleaved over the banks: page after page goes to the next
bank, and the pages of one bank are the rows of it. The rows of different banks do not
meet. -/
structure ClientOutput (pageSize capacity : Nat) where
  numBanks : Nat
  bankNoc : Nat → Nat
  rowStride : Nat
  rows : Nat
  banked : 0 < numBanks
  holds : capacity ≤ rows * numBanks * pageSize
  rowHolds : pageSize ≤ rowStride
  apart : ∀ bank other position position', bank < numBanks → other < numBanks →
    position < rows * rowStride → position' < rows * rowStride →
    bankNoc bank + position = bankNoc other + position' → bank = other

variable {pageSize capacity : Nat} (out : ClientOutput pageSize capacity)

/-- Address of a byte of a page of the client. -/
def clientDramPageNocAddr (pageId offset : Nat) : Nat :=
  out.bankNoc (pageId % out.numBanks) + pageId / out.numBanks * out.rowStride + offset

/-- A fabric write into the memory of the client. -/
structure DramWrite where
  nocAddr : Nat
  data : List UInt8
deriving DecidableEq, Repr

/-- Bank and row of the next page, kept for pages of one chunk. -/
structure AddrCursor where
  bank : Nat
  rowOffset : Nat
deriving DecidableEq, Repr

/-- Local addresses of two consecutive rows differ by this much. -/
def addrRowStride : Nat :=
  clientDramPageNocAddr out out.numBanks 0 - clientDramPageNocAddr out 0 0

/-- Move the cursor to the next page. -/
def AddrCursor.advance (cursor : AddrCursor) : AddrCursor :=
  if cursor.bank + 1 = out.numBanks then ⟨0, cursor.rowOffset + addrRowStride out⟩
  else ⟨cursor.bank + 1, cursor.rowOffset⟩

/-- The write of a chunk at the cursor. -/
def fastWrite (cursor : AddrCursor) (slots : ByteMemory) (srcL1 chunkValueLen : Nat) :
    DramWrite where
  nocAddr := clientDramPageNocAddr out cursor.bank 0 + cursor.rowOffset
  data := slots.read srcL1 (roundUp 16 chunkValueLen)

/-- The writes of a chunk split at the ends of the pages. Each round sends a byte at
least, so the length of the chunk bounds the rounds. -/
def splitWrites (slots : ByteMemory) (srcL1 streamPos chunkValueLen : Nat) :
    Nat → Nat → List DramWrite
  | 0, _ => []
  | fuel + 1, copied =>
    if copied < chunkValueLen then
      let absPos := toWord (streamPos + copied)
      let pageIdx := absPos / pageSize
      let inPageOff := absPos % pageSize
      let pageRemaining := pageSize - inPageOff
      let want := chunkValueLen - copied
      let thisWrite := if pageRemaining < want then pageRemaining else want
      ⟨clientDramPageNocAddr out pageIdx inPageOff,
        slots.read (srcL1 + copied) (roundUp 16 thisWrite)⟩
        :: splitWrites slots srcL1 streamPos chunkValueLen fuel (copied + thisWrite)
    else []

/-- Send one chunk of a batch. -/
def sendChunkToDram (fastAddr : Bool) (cursor : AddrCursor) (slots : ByteMemory)
    (srcL1 index chunkValueLen : Nat) : AddrCursor × List DramWrite :=
  if fastAddr then (cursor.advance out, [fastWrite out cursor slots srcL1 chunkValueLen])
  else (cursor, splitWrites out slots srcL1 (toWord (index * maxChunkValueBytes)) chunkValueLen
    chunkValueLen 0)

/-- Send the chunks of a batch from a slot on, leaving out the padding. -/
def sendBatch (fastAddr : Bool) (totalValueLen numChunks base : Nat) (slots : ByteMemory) :
    Nat → Nat → AddrCursor → AddrCursor × List DramWrite
  | 0, _, cursor => (cursor, [])
  | count + 1, k, cursor =>
    let index := base + k
    if index < numChunks then
      let sent := sendChunkToDram out fastAddr cursor slots (k * maxChunkValueBytes) index
        (chunkLen totalValueLen index)
      let rest := sendBatch fastAddr totalValueLen numChunks base slots count (k + 1) sent.1
      (rest.1, sent.2 ++ rest.2)
    else sendBatch fastAddr totalValueLen numChunks base slots count (k + 1) cursor

/-- Take the batches in order. The stream is given up when the server is terminated
during the wait for a batch, or during the wait for the admission of the one sent. The
result says whether all batches were sent. -/
def drainBatches (fastAddr : Bool) (totalValueLen numChunks : Nat)
    (received : Nat → Option ByteMemory) (admitted : Nat → Bool) :
    Nat → Nat → AddrCursor → List DramWrite × Bool
  | 0, _, _ => ([], true)
  | batches + 1, base, cursor =>
    match received base with
    | none => ([], false)
    | some slots =>
      let sent := sendBatch out fastAddr totalValueLen numChunks base slots
        getValueCbReadBatch 0 cursor
      if admitted base then
        let rest := drainBatches fastAddr totalValueLen numChunks received admitted batches
          (base + getValueCbReadBatch) sent.1
        (sent.2 ++ rest.1, rest.2)
      else (sent.2, false)

/-- The value stream with a given way to address pages. -/
def streamWith (fastAddr : Bool) (answer : DirResult) (received : Nat → Option ByteMemory)
    (admitted : Nat → Bool) : List DramWrite × Bool :=
  let found := answer.found &&& getStatusFound
  if found ≠ 0 ∧ answer.found &&& getStatusOutputTooSmall = 0 ∧ 0 < answer.totalValueLen then
    drainBatches out fastAddr answer.totalValueLen answer.numChunks received admitted
      ((answer.numChunks + getValueCbReadBatch - 1) / getValueCbReadBatch) 0 ⟨0, 0⟩
  else ([], true)

/-- The value stream of a GET. Pages of one chunk are addressed by the cursor. -/
def handleGetStream (answer : DirResult) (received : Nat → Option ByteMemory)
    (admitted : Nat → Bool) : List DramWrite × Bool :=
  streamWith out (decide (pageSize = maxChunkValueBytes)) answer received admitted

/-! ## Both processors -/

/-- What one GET meets while it is served: where its value lies, what the slots of the
circular buffer held before, and which waits end before a termination. -/
structure Serving where
  source : ValueSource
  totalValueLen : Nat
  before : Nat → ByteMemory
  arrives : Nat → Bool
  admitted : Nat → Bool

variable (serving : Serving)

/-- The directory's answer to a GET. -/
def Serving.answer (outputCapacity : Nat) : DirResult :=
  lookupResponse serving.totalValueLen outputCapacity

/-- The batch that the network processor takes when it waits for one. The buffer is a
queue, so it is the one published for the same chunks. -/
def Serving.received (outputCapacity base : Nat) : Option ByteMemory :=
  if serving.arrives base then
    some (publishBatch serving.source serving.totalValueLen
      (serving.answer outputCapacity).numChunks base (serving.before base))
  else none

/-- The writes of a GET, and whether its stream was completed. -/
def serveGet : List DramWrite × Bool :=
  handleGetStream out (serving.answer capacity) (serving.received capacity) serving.admitted

/-- The same with an address computed for every part of a page. -/
def serveGetSplit : List DramWrite × Bool :=
  streamWith out false (serving.answer capacity) (serving.received capacity) serving.admitted

/-- The bytes that a write sets, each with its address. -/
def DramWrite.touches (write : DramWrite) : List (Nat × UInt8) :=
  write.data.mapIdx fun offset byte => (write.nocAddr + offset, byte)

end KvCache.GetStream
