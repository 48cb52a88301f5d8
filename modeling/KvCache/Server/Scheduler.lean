import KvCache.Server.State

/-!
# The scheduler loop of BRISC

One pass of the loop takes the first thing it can do: the tail of a streamed PUT,
then a directory request, then the head of the pending-host FIFO, then a finished
promotion. The FIFO and the promotion may both advance in one pass.

Waits are states of their own, and a step that waits is enabled once its condition
holds. What a step does between two waits is atomic: the parties that run meanwhile
touch other words, other blocks of the heap and other parts of the window. The one
place where they can tell the order of two writes is a post, whose slot words are
written before the counter is raised; a post is therefore two steps.
-/

namespace KvCache.Server

open Directory HashIndex Layout

/-- A state with the events of the step that led to it. -/
abbrev Outcome := Sys × List Event

variable (cfg : Config)

/-- Go to another point of the loop. -/
def goto (phase : Phase) (sys : Sys) : Sys :=
  { sys with brisc := { sys.brisc with phase := phase } }

/-- Write the response mailbox. -/
def respond (response : DirResponse) (sys : Sys) : Sys :=
  { sys with words := { sys.words with response := some response } }

/-- Write the words of the move-request slot. -/
def post (request : MoveRequest) (next : Wait) (sys : Sys) : Sys :=
  goto (.posting next) { sys with words := { sys.words with moveReq := request } }

/-- Raise the commit frontier by one PUT. -/
def countCommit (sys : Sys) : Outcome :=
  ({ sys with words := { sys.words with commitDone := sys.words.commitDone + 1 } }, [.counted])

/-- Slot of a requested key; a key of illegal length has none. -/
def lookupRequest (key : Key) (dir : Directory.State) : Option Nat :=
  if 0 < key.length ∧ key.length ≤ cfg.geometry.maxKeyLen then dirLookup cfg.geometry key dir
  else none

/-! ## PUT -/

/-- Entries that a prepare invalidated. -/
def displacements (putKey : Key) (before after : Directory.State) : List Event :=
  ((List.range cfg.geometry.maxKeys).filter fun slot =>
    (before.entry slot).valid && !(after.entry slot).valid).map fun slot =>
      .displaced slot (before.entry slot).key putKey

/-- Progress events of a streamed value: one for each complete group of chunks but
the last. -/
def progressEvents (totalLen : Nat) : Nat :=
  (chunkCountFor totalLen - 1) / putStreamProgressChunks

/-- After a grant: a large value is streamed to the host if nothing is queued,
otherwise its progress events are skipped at publication. -/
def startStream (grant : PutGrant) (totalLen : Nat) (sys : Sys) : Sys :=
  if totalLen < putStreamMinBytes then sys
  else if cfg.stageEnabled ∧ sys.dir.putHostQueue = [] then
    post ⟨.writeThrough, grant.dirSlot, grant.valueByteOff, totalLen⟩ .prefixAck
      { sys with
        brisc := { sys.brisc with
          stream := { noStream with
            slot := grant.dirSlot, valueByteOff := grant.valueByteOff, totalLen := totalLen } } }
  else
    { sys with
      brisc := { sys.brisc with
        fallbackProgress := some (grant.dirSlot, progressEvents totalLen) } }

/-- PUT prepare. -/
def servicePutPrepare (req : PutPrepareRequest) (sys : Sys) : Outcome :=
  let (dir, response, order) :=
    putPrepare cfg.geometry cfg.policy sys.brisc.previousPutOrder req sys.dir
  let prepared := respond (.prepared response)
    { sys with
      dir := dir
      brisc := { sys.brisc with
        previousPutOrder := order
        forcePutHostCommit :=
          if response.grant.isSome then false
          else sys.brisc.forcePutHostCommit || !dir.putHostQueue.isEmpty } }
  let started := match response.grant with
    | none => prepared
    | some grant => startStream cfg grant req.totalLen prepared
  (started, displacements cfg req.key sys.dir dir)

/-- The value of the PUT that NCRISC is publishing. -/
def landedValue (sys : Sys) : Bytes :=
  match sys.ncrisc.phase with
  | .publishing client _ =>
    match (sys.client client).operation with
    | some (.put flight) => flight.value
    | _ => []
  | _ => []

/-- What publication does to the streams: the prefix becomes the tail, or the
skipped events count as seen. -/
def advanceStreams (streamMatches : Bool) (req : PutPublishRequest) (brisc : Brisc) : Brisc :=
  if streamMatches then
    { brisc with
      stream := { brisc.stream with
        prefixReady := false, tailPending := true, pendingToken := req.pendingToken } }
  else
    match brisc.fallbackProgress with
    | some (slot, events) =>
      if slot = req.dirSlot then
        { brisc with
          directProgressSeen := brisc.directProgressSeen + events, fallbackProgress := none }
      else brisc
    | none => brisc

/-- PUT publish. -/
def servicePutPublish (req : PutPublishRequest) (sys : Sys) : Outcome :=
  let streamMatches := sys.brisc.stream.prefixReady && sys.brisc.stream.slot == req.dirSlot
  match putPublish cfg.geometry streamMatches req sys.dir with
  | none =>
    (respond (.published false)
      { sys with
        brisc := { sys.brisc with
          forcePutHostCommit :=
            sys.brisc.forcePutHostCommit || !sys.dir.putHostQueue.isEmpty } }, [])
  | some dir =>
    (respond (.published true)
      { sys with
        dir := dir
        brisc := advanceStreams streamMatches req
          { sys.brisc with forcePutHostCommit := false } },
      [.published req.dirSlot req.pendingToken req.key (landedValue sys)])

/-! ## GET -/

/-- Answer a GET. -/
def answerGet (key : Key) (outputCapacity : Nat) (status : GetStatus) (totalLen : Nat)
    (streamed : Bytes) (sys : Sys) : Outcome :=
  (respond (.got status totalLen streamed) sys,
    [.getServed key outputCapacity status totalLen streamed])

/-- Stamp a host entry that gets no cache block. -/
def stampUncached (serve : HostServe) (dir : Directory.State) : Directory.State :=
  match serve.cacheBlock with
  | none =>
    persistHostGetAccessStampIfCurrent serve.slot serve.totalLen serve.accessEpoch dir
  | some _ => dir

/-- Whether the slot's pool record is the extent that the entry names. -/
def poolHit (entry : DirEntry) (record : PoolMeta) : Bool :=
  entry.hostGeneration != 0 && record.generation == entry.hostGeneration &&
    record.readOff != 0 && record.totalLen == entry.totalValueLen

/-- Serve a host entry: in place from the pool, or through the worker. Without a
mapped window the worker needs a cache block as its destination. -/
def serveHostEntry (key : Key) (outputCapacity slot accessEpoch : Nat) (sys : Sys) : Outcome :=
  let entry := sys.dir.entry slot
  let record := sys.host.poolMeta slot
  let directPool := cfg.stageEnabled && poolHit entry record
  let (dir, block) := allocateCacheBlock cfg.geometry (chunkCountFor entry.totalValueLen)
    (.slot slot) true sys.dir
  let serve : HostServe :=
    { key := key
      outputCapacity := outputCapacity
      slot := slot
      totalLen := entry.totalValueLen
      accessEpoch := accessEpoch
      cacheBlock := block.map fun (unit, order) => (unit * maxChunkValueBytes, order)
      directPool := directPool
      readOff := if directPool then record.readOff else 0 }
  if directPool then
    (goto (.hostStream serve 0 []) { sys with dir := stampUncached serve dir }, [])
  else if cfg.stageEnabled = false ∧ block = none then
    answerGet key outputCapacity .miss 0 [] { sys with dir := stampUncached serve dir }
  else
    (post ⟨.hostServe, slot, (serve.cacheBlock.map Prod.fst).getD 0, entry.totalValueLen⟩
      (.serveCommit serve) { sys with dir := dir }, [])

/-- GET. A miss and a too small output are answered before anything is touched. -/
def serviceGet (key : Key) (outputCapacity : Nat) (sys : Sys) : Outcome :=
  match lookupRequest cfg key sys.dir with
  | none => answerGet key outputCapacity .miss 0 [] sys
  | some slot =>
    let entry := sys.dir.entry slot
    if outputCapacity < entry.totalValueLen then
      answerGet key outputCapacity .outputTooSmall entry.totalValueLen [] sys
    else
      let dir := advanceEpoch sys.dir
      if entry.location = .host then
        serveHostEntry cfg key outputCapacity slot dir.epoch { sys with dir := dir }
      else
        answerGet key outputCapacity .found entry.totalValueLen
          (readValue entry.totalValueLen (heapFrom sys.valueHeap entry.valueByteOff))
          { sys with dir := recordDeviceHit slot dir.epoch dir }

/-- End of a host-tier GET: admit the filled block, or return it if the slot changed,
acknowledge the worker, and answer. -/
def finishServe (serve : HostServe) (streamed : Bytes) (sys : Sys) : Outcome :=
  let dir := match serve.cacheBlock with
    | none => sys.dir
    | some (valueByteOff, order) =>
      let (admitted, committed) := commitHostGetAdmission serve.slot valueByteOff serve.totalLen
        order serve.accessEpoch sys.dir
      if committed then admitted else freeBlock cfg.geometry valueByteOff order admitted
  answerGet serve.key serve.outputCapacity .found serve.totalLen streamed
    (goto .top
      { sys with
        dir := dir
        words := { sys.words with
          promoteDone :=
            if serve.directPool then sys.words.promoteDone else sys.words.promoteDone + 1 } })

/-- Chunks of one batch of a host-tier GET. -/
def getValueCbReadBatch : Nat := 8

/-- One batch of a host-tier GET: read it from the window, copy it to the cache
block, and send it. -/
def streamBatch (serve : HostServe) (start : Nat) (streamed : Bytes) (sys : Sys) : Sys :=
  let batch := min getValueCbReadBatch (chunkCountFor serve.totalLen - start)
  let source := windowFrom sys.window serve.readOff
  let filled := match serve.cacheBlock with
    | none => sys.valueHeap
    | some (valueByteOff, _) =>
      writeHeap (valueByteOff / maxChunkValueBytes + start) batch (fun index => source (start + index))
        sys.valueHeap
  goto (.hostStream serve (start + batch)
      (streamed ++ Chunked.gatherFrom maxChunkValueBytes 0 source batch start
        (serve.totalLen - start * maxChunkValueBytes)))
    { sys with valueHeap := filled }

/-! ## REMOVE, MOVE and EXISTS -/

/-- REMOVE. The response waits until the worker dropped the host copy. -/
def serviceRemove (key : Key) (sys : Sys) : Outcome :=
  match lookupRequest cfg key sys.dir with
  | none => (respond (.removed none) sys, [])
  | some slot =>
    (post ⟨.removeBacking, slot, 0, 0⟩ (.removeDrain slot)
      { sys with dir := removeEntry cfg.geometry slot sys.dir }, [.removed slot key])

/-- MOVE_TO_HOST drops the block of a committed device entry. -/
def serviceMoveToHost (key : Key) (sys : Sys) : Outcome :=
  match lookupRequest cfg key sys.dir with
  | none => (respond .moved sys, [])
  | some slot =>
    match evictCachedBlock cfg.geometry slot sys.dir with
    | none => (respond .moved sys, [])
    | some dir => (respond .moved { sys with dir := dir }, [])

/-- MOVE_TO_DEVICE reserves a block for a host entry and asks the worker to supply the
value; the response does not wait for it. -/
def serviceMoveToDevice (key : Key) (sys : Sys) : Outcome :=
  match lookupRequest cfg key sys.dir with
  | none => (respond .moved sys, [])
  | some slot =>
    let entry := sys.dir.entry slot
    if entry.location = .host then
      match allocateCacheBlock cfg.geometry (chunkCountFor entry.totalValueLen) (.slot slot) true
          sys.dir with
      | (dir, none) => (respond .moved { sys with dir := dir }, [])
      | (dir, some (unit, order)) =>
        (post ⟨.devicePromote, slot, unit * maxChunkValueBytes, entry.totalValueLen⟩ .promoteAccepted
          { sys with
            dir := dir
            brisc := { sys.brisc with pendingPromote := some (slot, order) } }, [])
    else (respond .moved sys, [])

/-- EXISTS. -/
def serviceExists (key : Key) (sys : Sys) : Outcome :=
  let found := (lookupRequest cfg key sys.dir).isSome
  (respond (.existed found) sys, [.existsServed key found])

/-- Channel (A): a directory request. -/
def serviceRequest (request : DirRequest) (sys : Sys) : Outcome :=
  let taken := { sys with words := { sys.words with request := none } }
  match request with
  | .putPrepare req => servicePutPrepare cfg req taken
  | .putPublish req => servicePutPublish cfg req taken
  | .getChunk key outputCapacity => serviceGet cfg key outputCapacity taken
  | .exists_ key => serviceExists cfg key taken
  | .remove key => serviceRemove cfg key taken
  | .moveToHost key => serviceMoveToHost cfg key taken
  | .moveToDevice key => serviceMoveToDevice cfg key taken

/-! ## Channels (B) and (C) -/

/-- FIFO length from which requests wait. -/
def putHostQueueHighWatermark : Nat := min cfg.geometry.maxKeys Layout.putHostQueueHighWatermark

/-- Consume the FIFO head after its commit, or as stale. -/
def consumeHead (sys : Sys) : Outcome :=
  countCommit (goto .promoteCheck
    { sys with
      dir := popQueue sys.dir
      brisc := { sys.brisc with forcePutHostCommit := false } })

/-- Channel (B): write the head of the FIFO through, unless it is stale. -/
def commitHead (item : QueueItem) (sys : Sys) : Outcome :=
  if freshItem sys.dir item then
    let entry := sys.dir.entry item.dirSlot
    (post ⟨.writeThrough, item.dirSlot, entry.valueByteOff, entry.totalValueLen⟩
      (if cfg.stageEnabled then .commitAck item.dirSlot else .commitDrain item.dirSlot 0) sys, [])
  else consumeHead sys

/-- Channel (C): commit a promotion that the worker supplied. -/
def finishPromote (sys : Sys) : Sys :=
  let request := sys.words.commitReq
  let order := (sys.brisc.pendingPromote.map Prod.snd).getD 0
  { sys with
    dir := finishPromotion cfg.geometry request.slot request.valueByteOff request.totalLen order
      sys.dir
    valueHeap :=
      if cfg.stageEnabled then
        writeHeap (request.valueByteOff / maxChunkValueBytes) (chunkCountFor request.totalLen)
          (windowFrom sys.window request.stageReadOff) sys.valueHeap
      else sys.valueHeap
    words := { sys.words with promoteDone := sys.words.promoteDone + 1 }
    brisc := { sys.brisc with
      phase := .top, commitReqSeen := sys.words.commitReqSem, pendingPromote := none } }

/-- The first thing a pass of the loop can do. -/
def schedule (sys : Sys) : Outcome :=
  if sys.brisc.stream.tailPending then
    let stream := sys.brisc.stream
    let pushed := pushChunkRange stream.valueByteOff stream.hostDst stream.tailBegin
      (chunkCountFor stream.totalLen) sys
    (goto (.waiting .tailDrain)
      { pushed with words := { sys.words with evictDone := sys.words.evictDone + 1 } }, [])
  else
    match sys.words.request with
    | some request =>
      if (sys.brisc.stream.prefixReady ∨ sys.words.moveProcessed = sys.words.moveReqSem) ∧
          ¬ ((sys.brisc.forcePutHostCommit ∨
            putHostQueueHighWatermark cfg ≤ sys.dir.putHostQueue.length) ∧
              sys.dir.putHostQueue ≠ []) then
        serviceRequest cfg request sys
      else
        match sys.dir.putHostQueue with
        | item :: _ => commitHead cfg item sys
        | [] => (goto .promoteCheck sys, [])
    | none =>
      match sys.dir.putHostQueue with
      | item :: _ => commitHead cfg item sys
      | [] => (goto .promoteCheck sys, [])

/-- The end of a wait, once its condition holds. -/
def finishWait (wait : Wait) (sys : Sys) : Option Outcome :=
  match wait with
  | .prefixAck =>
    if sys.words.evictAckSem = sys.brisc.evictAckSeen then none
    else
      some (goto (.pushPrefix 0)
        { sys with
          brisc := { sys.brisc with
            evictAckSeen := sys.words.evictAckSem
            stream := { sys.brisc.stream with
              hostGeneration := sys.words.evictAck.generation
              hostDst := sys.words.evictAck.readOff
              tailBegin := progressEvents sys.brisc.stream.totalLen * putStreamProgressChunks } } },
        [])
  | .commitAck slot =>
    if sys.words.evictAckSem = sys.brisc.evictAckSeen then none
    else
      let entry := sys.dir.entry slot
      let pushed := pushChunkRange entry.valueByteOff sys.words.evictAck.readOff 0
        (chunkCountFor entry.totalValueLen) sys
      some (goto (.waiting (.commitDrain slot sys.words.evictAck.generation))
        { pushed with
          words := { sys.words with evictDone := sys.words.evictDone + 1 }
          brisc := { sys.brisc with evictAckSeen := sys.words.evictAckSem } }, [])
  | .commitDrain slot hostGeneration =>
    if sys.words.moveProcessed = sys.words.moveReqSem then
      some (consumeHead { sys with dir := commitEntry slot hostGeneration sys.dir })
    else none
  | .tailDrain =>
    if sys.words.moveProcessed = sys.words.moveReqSem then
      some (countCommit (goto .top
        { sys with
          dir := commitEntry sys.brisc.stream.slot sys.brisc.stream.hostGeneration sys.dir
          brisc := { sys.brisc with stream := noStream } }))
    else none
  | .removeDrain slot =>
    if sys.words.moveProcessed = sys.words.moveReqSem then
      some (respond (.removed (some slot)) (goto .top sys), [])
    else none
  | .promoteAccepted => some (respond .moved (goto .top sys), [])
  | .serveCommit serve =>
    if sys.words.commitReqSem = sys.brisc.commitReqSeen then none
    else
      let seen := { sys with brisc := { sys.brisc with commitReqSeen := sys.words.commitReqSem } }
      if cfg.stageEnabled then
        some (goto (.hostStream { serve with readOff := sys.words.commitReq.stageReadOff } 0 [])
          { seen with dir := stampUncached serve sys.dir }, [])
      else
        some (finishServe cfg serve
          (readValue serve.totalLen
            (heapFrom sys.valueHeap ((serve.cacheBlock.map Prod.fst).getD 0))) seen)

/-- One step of BRISC. -/
def briscStep (sys : Sys) : Option Outcome :=
  match sys.brisc.phase with
  | .top => some (schedule cfg sys)
  | .posting next =>
    some (goto (.waiting next)
      { sys with words := { sys.words with moveReqSem := sys.words.moveReqSem + 1 } }, [])
  | .waiting wait => finishWait cfg wait sys
  | .pushPrefix start =>
    let stream := sys.brisc.stream
    if start < stream.tailBegin then
      if sys.words.putProgress = sys.brisc.directProgressSeen then none
      else
        let pushed := pushChunkRange stream.valueByteOff stream.hostDst start
          (start + putStreamProgressChunks) sys
        some (goto (.pushPrefix (start + putStreamProgressChunks))
          { pushed with
            brisc := { sys.brisc with directProgressSeen := sys.brisc.directProgressSeen + 1 } }, [])
    else
      some (goto .top
        { sys with brisc := { sys.brisc with stream := { stream with prefixReady := true } } }, [])
  | .hostStream serve start streamed =>
    if start < chunkCountFor serve.totalLen then
      if serve.directPool ∨
          start + min getValueCbReadBatch (chunkCountFor serve.totalLen - start) ≤
            sys.words.stageProgress then
        some (streamBatch serve start streamed sys, [])
      else none
    else some (finishServe cfg serve streamed sys)
  | .promoteCheck =>
    if sys.words.commitReqSem = sys.brisc.commitReqSeen then some (goto .top sys, [])
    else some (finishPromote cfg sys, [])

end KvCache.Server
