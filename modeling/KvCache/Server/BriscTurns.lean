import KvCache.Server.System

/-!
# What BRISC can do in one step

The executable steps compute one outcome from a deep nest of cases. Here every case
is a constructor: its hypotheses say when the case applies, its indices are the state
after the step and the events. Invariants are proved by going through the
constructors, so that a change of one function of the server touches one of them. The
modules that follow do the same for the other parties.

A word that no invariant reads is left open in a constructor: the progress events that
a PUT without a stream skips.
-/

namespace KvCache.Server

open Directory HashIndex Layout

/-- The state in which a request is served: its mailbox is empty. -/
def takeRequest (sys : Sys) : Sys := { sys with words := { sys.words with request := none } }

/-- The state after an answered prepare. -/
def prepared (dir : Directory.State) (response : PutPrepareResponse) (order : Option Nat)
    (force : Bool) (fallback : Option (Nat × Nat)) (sys : Sys) : Sys :=
  respond (.prepared response)
    { sys with
      dir := dir
      brisc := { sys.brisc with
        previousPutOrder := order, forcePutHostCommit := force, fallbackProgress := fallback } }

/-- The state after a streamed PUT was granted. -/
def streaming (grant : PutGrant) (totalLen : Nat) (sys : Sys) : Sys :=
  post ⟨.writeThrough, grant.dirSlot, grant.valueByteOff, totalLen⟩ .prefixAck
    { sys with
      brisc := { sys.brisc with
        stream := { noStream with
          slot := grant.dirSlot, valueByteOff := grant.valueByteOff, totalLen := totalLen } } }

/-- The serve record of a host entry. -/
def serveRecord (key : Key) (outputCapacity slot accessEpoch readOff : Nat) (directPool : Bool)
    (block : Option (Nat × Nat)) (entry : DirEntry) : HostServe where
  key := key
  outputCapacity := outputCapacity
  slot := slot
  totalLen := entry.totalValueLen
  accessEpoch := accessEpoch
  cacheBlock := block.map fun (unit, order) => (unit * maxChunkValueBytes, order)
  directPool := directPool
  readOff := readOff

/-- The cases of a request service. -/
inductive Serves (cfg : Config) (sys : Sys) : DirRequest → Sys → List Event → Prop
  | refusePrepare {req : PutPrepareRequest} {dir : Directory.State}
      {response : PutPrepareResponse} {order : Option Nat} (force : Bool)
      (result : putPrepare cfg.geometry cfg.policy sys.brisc.previousPutOrder req sys.dir =
        (dir, response, order))
      (refused : response.grant = none) :
      Serves cfg sys (.putPrepare req)
        (prepared dir response order force sys.brisc.fallbackProgress sys)
        (displacements cfg req.key sys.dir dir)
  | grantQuietly {req : PutPrepareRequest} {dir : Directory.State}
      {response : PutPrepareResponse} {order : Option Nat} {grant : PutGrant}
      (fallback : Option (Nat × Nat))
      (result : putPrepare cfg.geometry cfg.policy sys.brisc.previousPutOrder req sys.dir =
        (dir, response, order))
      (granted : response.grant = some grant) :
      Serves cfg sys (.putPrepare req) (prepared dir response order false fallback sys)
        (displacements cfg req.key sys.dir dir)
  | grantStreaming {req : PutPrepareRequest} {dir : Directory.State}
      {response : PutPrepareResponse} {order : Option Nat} {grant : PutGrant}
      (result : putPrepare cfg.geometry cfg.policy sys.brisc.previousPutOrder req sys.dir =
        (dir, response, order))
      (granted : response.grant = some grant)
      (large : putStreamMinBytes ≤ req.totalLen)
      (staged : cfg.stageEnabled = true) (empty : dir.putHostQueue = []) :
      Serves cfg sys (.putPrepare req)
        (streaming grant req.totalLen
          (prepared dir response order false sys.brisc.fallbackProgress sys))
        (displacements cfg req.key sys.dir dir)
  | refusePublish {req : PutPublishRequest} (force : Bool) {streamMatches : Bool}
      (matching : streamMatches = (sys.brisc.stream.prefixReady && sys.brisc.stream.slot == req.dirSlot))
      (refused : putPublish cfg.geometry streamMatches req sys.dir = none) :
      Serves cfg sys (.putPublish req)
        (respond (.published false)
          { sys with brisc := { sys.brisc with forcePutHostCommit := force } }) []
  | publishStreamed {req : PutPublishRequest} {dir : Directory.State}
      (ready : sys.brisc.stream.prefixReady = true) (sameSlot : sys.brisc.stream.slot = req.dirSlot)
      (published : putPublish cfg.geometry true req sys.dir = some dir) :
      Serves cfg sys (.putPublish req)
        (respond (.published true)
          { sys with
            dir := dir
            brisc := { sys.brisc with
              forcePutHostCommit := false
              stream := { sys.brisc.stream with
                prefixReady := false, tailPending := true, pendingToken := req.pendingToken } } })
        [.published req.dirSlot req.pendingToken req.key (landedValue sys)]
  | publishQueued {req : PutPublishRequest} {dir : Directory.State} (progressSeen : Nat)
      (fallback : Option (Nat × Nat))
      (unmatched : ¬ (sys.brisc.stream.prefixReady = true ∧ sys.brisc.stream.slot = req.dirSlot))
      (published : putPublish cfg.geometry false req sys.dir = some dir) :
      Serves cfg sys (.putPublish req)
        (respond (.published true)
          { sys with
            dir := dir
            brisc := { sys.brisc with
              forcePutHostCommit := false
              directProgressSeen := progressSeen
              fallbackProgress := fallback } })
        [.published req.dirSlot req.pendingToken req.key (landedValue sys)]
  | getMissing {key : Key} {outputCapacity : Nat} (missing : lookupRequest cfg key sys.dir = none) :
      Serves cfg sys (.getChunk key outputCapacity) (respond (.got .miss 0 []) sys)
        [.getServed key outputCapacity .miss 0 []]
  | getSmall {key : Key} {outputCapacity slot : Nat}
      (found : lookupRequest cfg key sys.dir = some slot)
      (small : outputCapacity < (sys.dir.entry slot).totalValueLen) :
      Serves cfg sys (.getChunk key outputCapacity)
        (respond (.got .outputTooSmall (sys.dir.entry slot).totalValueLen []) sys)
        [.getServed key outputCapacity .outputTooSmall (sys.dir.entry slot).totalValueLen []]
  | getDevice {key : Key} {outputCapacity slot : Nat} {streamed : Bytes}
      (found : lookupRequest cfg key sys.dir = some slot)
      (large : (sys.dir.entry slot).totalValueLen ≤ outputCapacity)
      (onDevice : (sys.dir.entry slot).location ≠ .host)
      (isValue : streamed = readValue (sys.dir.entry slot).totalValueLen
        (heapFrom sys.valueHeap (sys.dir.entry slot).valueByteOff)) :
      Serves cfg sys (.getChunk key outputCapacity)
        (respond (.got .found (sys.dir.entry slot).totalValueLen streamed)
          { sys with dir := recordDeviceHit slot (nextEpoch sys.dir.epoch) (advanceEpoch sys.dir) })
        [.getServed key outputCapacity .found (sys.dir.entry slot).totalValueLen streamed]
  | getPooled {key : Key} {outputCapacity slot : Nat} {dir : Directory.State}
      {block : Option (Nat × Nat)} {serve : HostServe}
      (found : lookupRequest cfg key sys.dir = some slot)
      (large : (sys.dir.entry slot).totalValueLen ≤ outputCapacity)
      (onHost : (sys.dir.entry slot).location = .host)
      (staged : cfg.stageEnabled = true)
      (hit : poolHit (sys.dir.entry slot) (sys.host.poolMeta slot) = true)
      (reserved : allocateCacheBlock cfg.geometry
        (chunkCountFor (sys.dir.entry slot).totalValueLen) (.slot slot) true
        (advanceEpoch sys.dir) = (dir, block))
      (isServe : serve = serveRecord key outputCapacity slot (nextEpoch sys.dir.epoch)
        (sys.host.poolMeta slot).readOff true block (sys.dir.entry slot)) :
      Serves cfg sys (.getChunk key outputCapacity)
        (goto (.hostStream serve 0 []) { sys with dir := stampUncached serve dir }) []
  | getBlocked {key : Key} {outputCapacity slot : Nat} {dir : Directory.State} {serve : HostServe}
      (found : lookupRequest cfg key sys.dir = some slot)
      (large : (sys.dir.entry slot).totalValueLen ≤ outputCapacity)
      (onHost : (sys.dir.entry slot).location = .host)
      (unstaged : cfg.stageEnabled = false)
      (reserved : allocateCacheBlock cfg.geometry
        (chunkCountFor (sys.dir.entry slot).totalValueLen) (.slot slot) true
        (advanceEpoch sys.dir) = (dir, none))
      (isServe : serve = serveRecord key outputCapacity slot (nextEpoch sys.dir.epoch)
        0 false none (sys.dir.entry slot)) :
      Serves cfg sys (.getChunk key outputCapacity)
        (respond (.got .miss 0 []) { sys with dir := stampUncached serve dir })
        [.getServed key outputCapacity .miss 0 []]
  | getPosted {key : Key} {outputCapacity slot : Nat} {dir : Directory.State}
      {block : Option (Nat × Nat)} (serve : HostServe)
      (found : lookupRequest cfg key sys.dir = some slot)
      (large : (sys.dir.entry slot).totalValueLen ≤ outputCapacity)
      (onHost : (sys.dir.entry slot).location = .host)
      (window : cfg.stageEnabled = true ∨ block ≠ none)
      (reserved : allocateCacheBlock cfg.geometry
        (chunkCountFor (sys.dir.entry slot).totalValueLen) (.slot slot) true
        (advanceEpoch sys.dir) = (dir, block))
      (isServe : serve = serveRecord key outputCapacity slot (nextEpoch sys.dir.epoch)
        0 false block (sys.dir.entry slot)) :
      Serves cfg sys (.getChunk key outputCapacity)
        (post ⟨.hostServe, slot, (serve.cacheBlock.map Prod.fst).getD 0, serve.totalLen⟩
          (.serveCommit serve) { sys with dir := dir }) []
  | removeMissing {key : Key} (missing : lookupRequest cfg key sys.dir = none) :
      Serves cfg sys (.remove key) (respond (.removed none) sys) []
  | removeFound {key : Key} {slot : Nat} (found : lookupRequest cfg key sys.dir = some slot) :
      Serves cfg sys (.remove key)
        (post ⟨.removeBacking, slot, 0, 0⟩ (.removeDrain slot)
          { sys with dir := removeEntry cfg.geometry slot sys.dir })
        [.removed slot key]
  | keepOnDevice {key : Key} : Serves cfg sys (.moveToHost key) (respond .moved sys) []
  | evictToHost {key : Key} {slot : Nat} {dir : Directory.State}
      (found : lookupRequest cfg key sys.dir = some slot)
      (evicted : evictCachedBlock cfg.geometry slot sys.dir = some dir) :
      Serves cfg sys (.moveToHost key) (respond .moved { sys with dir := dir }) []
  | keepOnHost {key : Key} : Serves cfg sys (.moveToDevice key) (respond .moved sys) []
  | blockPromote {key : Key} {slot : Nat} {dir : Directory.State}
      (found : lookupRequest cfg key sys.dir = some slot)
      (onHost : (sys.dir.entry slot).location = .host)
      (reserved : allocateCacheBlock cfg.geometry
        (chunkCountFor (sys.dir.entry slot).totalValueLen) (.slot slot) true sys.dir =
          (dir, none)) :
      Serves cfg sys (.moveToDevice key) (respond .moved { sys with dir := dir }) []
  | postPromote {key : Key} {slot unit order : Nat} {dir : Directory.State}
      (found : lookupRequest cfg key sys.dir = some slot)
      (onHost : (sys.dir.entry slot).location = .host)
      (reserved : allocateCacheBlock cfg.geometry
        (chunkCountFor (sys.dir.entry slot).totalValueLen) (.slot slot) true sys.dir =
          (dir, some (unit, order))) :
      Serves cfg sys (.moveToDevice key)
        (post ⟨.devicePromote, slot, unit * maxChunkValueBytes, (sys.dir.entry slot).totalValueLen⟩
          .promoteAccepted
          { sys with
            dir := dir
            brisc := { sys.brisc with pendingPromote := some (slot, order) } }) []
  | exists_ {key : Key} {found : Bool} (isFound : found = (lookupRequest cfg key sys.dir).isSome) :
      Serves cfg sys (.exists_ key) (respond (.existed found) sys) [.existsServed key found]

variable {cfg : Config} {sys after : Sys} {events : List Event}

/-- Every request service is one of the cases. -/
theorem serviceRequest_cases (request : DirRequest) :
    Serves cfg (takeRequest sys) request (serviceRequest cfg request sys).1
      (serviceRequest cfg request sys).2 := by
  unfold serviceRequest
  generalize isTaken : takeRequest sys = taken
  have same : ({ sys with words := { sys.words with request := none } } : Sys) = taken := isTaken
  rw [same]
  clear same isTaken
  cases request with
  | putPrepare req =>
    simp only [servicePutPrepare]
    generalize result : putPrepare cfg.geometry cfg.policy taken.brisc.previousPutOrder req
      taken.dir = outcome
    obtain ⟨dir, response, order⟩ := outcome
    cases granted : response.grant with
    | none => exact .refusePrepare _ result granted
    | some grant =>
      simp only [Option.isSome_some, if_true, startStream]
      split
      · exact .grantQuietly taken.brisc.fallbackProgress result granted
      · next large =>
        split
        · next staged => exact .grantStreaming result granted (Nat.not_lt.mp large) staged.1 staged.2
        · exact .grantQuietly (some (grant.dirSlot, progressEvents req.totalLen)) result granted
  | putPublish req =>
    simp only [servicePutPublish]
    split
    · next refused => exact .refusePublish _ rfl refused
    · next dir published =>
      by_cases matching : taken.brisc.stream.prefixReady = true ∧
          taken.brisc.stream.slot = req.dirSlot
      · have isTrue : (taken.brisc.stream.prefixReady && taken.brisc.stream.slot == req.dirSlot) =
            true := by simp [matching]
        rw [isTrue] at published ⊢
        exact .publishStreamed matching.1 matching.2 published
      · have isFalse : (taken.brisc.stream.prefixReady && taken.brisc.stream.slot == req.dirSlot) =
            false := by
          rw [Bool.eq_false_iff]
          simpa using matching
        rw [isFalse] at published ⊢
        simp only [advanceStreams, Bool.false_eq_true, if_false]
        split
        · split
          · exact .publishQueued _ _ matching published
          · exact .publishQueued _ _ matching published
        · exact .publishQueued _ _ matching published
  | getChunk key outputCapacity =>
    simp only [serviceGet]
    split
    · next missing => exact .getMissing missing
    · next slot found =>
      split
      · next small => exact .getSmall found small
      · next large =>
        rw [Nat.not_lt] at large
        split
        · next onHost =>
          simp only [serveHostEntry]
          split
          · next pooled =>
            replace pooled : (cfg.stageEnabled && poolHit (taken.dir.entry slot)
              (taken.host.poolMeta slot)) = true := pooled
            obtain ⟨staged, hit⟩ := Bool.and_eq_true_iff.mp pooled
            refine .getPooled found large onHost staged hit Prod.mk.eta.symm ?_
            simp only [serveRecord, advanceEpoch, pooled]
          · next unpooled =>
            rw [Bool.not_eq_true] at unpooled
            simp only [unpooled]
            split
            · next blocked =>
              obtain ⟨unstaged, isNone⟩ := blocked
              refine .getBlocked found large onHost unstaged (Prod.ext rfl isNone) ?_
              rw [isNone]
              rfl
            · next open_ =>
              refine .getPosted (serveRecord key outputCapacity slot (nextEpoch taken.dir.epoch) 0
                false _ (taken.dir.entry slot)) found large onHost ?_ Prod.mk.eta.symm rfl
              cases staged : cfg.stageEnabled with
              | true => exact Or.inl rfl
              | false => exact Or.inr fun isNone => open_ ⟨staged, isNone⟩
        · next onDevice => exact .getDevice found large onDevice rfl
  | exists_ key => exact .exists_ rfl
  | remove key =>
    simp only [serviceRemove]
    split
    · next missing => exact .removeMissing missing
    · next found => exact .removeFound found
  | moveToHost key =>
    simp only [serviceMoveToHost]
    split
    · exact .keepOnDevice
    · next found =>
      split
      · exact .keepOnDevice
      · next evicted => exact .evictToHost found evicted
  | moveToDevice key =>
    simp only [serviceMoveToDevice]
    split
    · exact .keepOnHost
    · next found =>
      split
      · next onHost =>
        split
        · next reserved => exact .blockPromote found onHost reserved
        · next reserved => exact .postPromote found onHost reserved
      · exact .keepOnHost

/-- The state after the tail of a streamed PUT was pushed. -/
def tailPushed (sys : Sys) : Sys :=
  let stream := sys.brisc.stream
  goto (.waiting .tailDrain)
    { pushChunkRange stream.valueByteOff stream.hostDst stream.tailBegin
        (chunkCountFor stream.totalLen) sys with
      words := { sys.words with evictDone := sys.words.evictDone + 1 } }

/-- The state after a committed head or a stale one was consumed. -/
def consumed (sys : Sys) : Sys :=
  goto .promoteCheck
    { sys with
      dir := popQueue sys.dir
      words := { sys.words with commitDone := sys.words.commitDone + 1 }
      brisc := { sys.brisc with forcePutHostCommit := false } }

/-- The state after the destination of a streamed PUT was acknowledged. -/
def prefixStarted (sys : Sys) : Sys :=
  goto (.pushPrefix 0)
    { sys with
      brisc := { sys.brisc with
        evictAckSeen := sys.words.evictAckSem
        stream := { sys.brisc.stream with
          hostGeneration := sys.words.evictAck.generation
          hostDst := sys.words.evictAck.readOff
          tailBegin := progressEvents sys.brisc.stream.totalLen * putStreamProgressChunks } } }

/-- The state after a queued value was pushed. -/
def headPushed (slot : Nat) (sys : Sys) : Sys :=
  let entry := sys.dir.entry slot
  goto (.waiting (.commitDrain slot sys.words.evictAck.generation))
    { pushChunkRange entry.valueByteOff sys.words.evictAck.readOff 0
        (chunkCountFor entry.totalValueLen) sys with
      words := { sys.words with evictDone := sys.words.evictDone + 1 }
      brisc := { sys.brisc with evictAckSeen := sys.words.evictAckSem } }

/-- The state after a streamed PUT was committed. -/
def tailCommitted (sys : Sys) : Sys :=
  goto .top
    { sys with
      dir := commitEntry sys.brisc.stream.slot sys.brisc.stream.hostGeneration sys.dir
      words := { sys.words with commitDone := sys.words.commitDone + 1 }
      brisc := { sys.brisc with stream := noStream } }

/-- The state after a group of chunks was pushed. -/
def groupPushed (start : Nat) (sys : Sys) : Sys :=
  let stream := sys.brisc.stream
  goto (.pushPrefix (start + putStreamProgressChunks))
    { pushChunkRange stream.valueByteOff stream.hostDst start (start + putStreamProgressChunks)
        sys with
      brisc := { sys.brisc with directProgressSeen := sys.brisc.directProgressSeen + 1 } }

/-- The state after all groups were pushed. -/
def prefixPushed (sys : Sys) : Sys :=
  goto .top
    { sys with brisc := { sys.brisc with stream := { sys.brisc.stream with prefixReady := true } } }

/-- The state after the commit request of the worker was seen. -/
def commitSeen (sys : Sys) : Sys :=
  { sys with brisc := { sys.brisc with commitReqSeen := sys.words.commitReqSem } }

/-- The cases of a step of BRISC. -/
inductive BriscTurn (cfg : Config) (sys : Sys) : Sys → List Event → Prop
  | pushTail (atTop : sys.brisc.phase = .top) (tail : sys.brisc.stream.tailPending = true) :
      BriscTurn cfg sys (tailPushed sys) []
  | serve {request : DirRequest} {after : Sys} {events : List Event}
      (atTop : sys.brisc.phase = .top) (noTail : sys.brisc.stream.tailPending = false)
      (asked : sys.words.request = some request)
      (free : sys.brisc.stream.prefixReady = true ∨ sys.words.moveProcessed = sys.words.moveReqSem)
      (served : Serves cfg (takeRequest sys) request after events) : BriscTurn cfg sys after events
  | postHead {item : QueueItem} {rest : List QueueItem} (atTop : sys.brisc.phase = .top)
      (noTail : sys.brisc.stream.tailPending = false)
      (queued : sys.dir.putHostQueue = item :: rest) (fresh : freshItem sys.dir item = true) :
      BriscTurn cfg sys
        (post ⟨.writeThrough, item.dirSlot, (sys.dir.entry item.dirSlot).valueByteOff,
            (sys.dir.entry item.dirSlot).totalValueLen⟩
          (if cfg.stageEnabled then .commitAck item.dirSlot else .commitDrain item.dirSlot 0) sys) []
  | skipHead {item : QueueItem} {rest : List QueueItem} (atTop : sys.brisc.phase = .top)
      (noTail : sys.brisc.stream.tailPending = false)
      (queued : sys.dir.putHostQueue = item :: rest) (stale : freshItem sys.dir item = false) :
      BriscTurn cfg sys (consumed sys) [.counted]
  | pass (atTop : sys.brisc.phase = .top) (noTail : sys.brisc.stream.tailPending = false)
      (empty : sys.dir.putHostQueue = []) : BriscTurn cfg sys (goto .promoteCheck sys) []
  | raise {next : Wait} (written : sys.brisc.phase = .posting next) :
      BriscTurn cfg sys
        (goto (.waiting next)
          { sys with words := { sys.words with moveReqSem := sys.words.moveReqSem + 1 } }) []
  | startPrefix (awaits : sys.brisc.phase = .waiting .prefixAck)
      (acked : sys.words.evictAckSem ≠ sys.brisc.evictAckSeen) :
      BriscTurn cfg sys (prefixStarted sys) []
  | pushHead {slot : Nat} (awaits : sys.brisc.phase = .waiting (.commitAck slot))
      (acked : sys.words.evictAckSem ≠ sys.brisc.evictAckSeen) :
      BriscTurn cfg sys (headPushed slot sys) []
  | commitHead {slot hostGeneration : Nat}
      (awaits : sys.brisc.phase = .waiting (.commitDrain slot hostGeneration))
      (drained : sys.words.moveProcessed = sys.words.moveReqSem) :
      BriscTurn cfg sys (consumed { sys with dir := commitEntry slot hostGeneration sys.dir })
        [.counted]
  | commitTail (awaits : sys.brisc.phase = .waiting .tailDrain)
      (drained : sys.words.moveProcessed = sys.words.moveReqSem) :
      BriscTurn cfg sys (tailCommitted sys) [.counted]
  | finishRemove {slot : Nat} (awaits : sys.brisc.phase = .waiting (.removeDrain slot))
      (drained : sys.words.moveProcessed = sys.words.moveReqSem) :
      BriscTurn cfg sys (respond (.removed (some slot)) (goto .top sys)) []
  | acceptPromote (awaits : sys.brisc.phase = .waiting .promoteAccepted) :
      BriscTurn cfg sys (respond .moved (goto .top sys)) []
  | startServe {serve : HostServe} (awaits : sys.brisc.phase = .waiting (.serveCommit serve))
      (posted : sys.words.commitReqSem ≠ sys.brisc.commitReqSeen)
      (staged : cfg.stageEnabled = true) :
      BriscTurn cfg sys
        (goto (.hostStream { serve with readOff := sys.words.commitReq.stageReadOff } 0 [])
          { commitSeen sys with dir := stampUncached serve sys.dir }) []
  | finishUnmapped {serve : HostServe} {streamed : Bytes}
      (awaits : sys.brisc.phase = .waiting (.serveCommit serve))
      (posted : sys.words.commitReqSem ≠ sys.brisc.commitReqSeen)
      (unstaged : cfg.stageEnabled = false)
      (isValue : streamed = readValue serve.totalLen
        (heapFrom sys.valueHeap ((serve.cacheBlock.map Prod.fst).getD 0))) :
      BriscTurn cfg sys (finishServe cfg serve streamed (commitSeen sys)).1
        (finishServe cfg serve streamed (commitSeen sys)).2
  | pushGroup {start : Nat} (pushing : sys.brisc.phase = .pushPrefix start)
      (more : start < sys.brisc.stream.tailBegin)
      (raised : sys.words.putProgress ≠ sys.brisc.directProgressSeen) :
      BriscTurn cfg sys (groupPushed start sys) []
  | finishPrefix {start : Nat} (pushing : sys.brisc.phase = .pushPrefix start)
      (done : sys.brisc.stream.tailBegin ≤ start) : BriscTurn cfg sys (prefixPushed sys) []
  | streamBatch {serve : HostServe} {start : Nat} {streamed : Bytes}
      (serving : sys.brisc.phase = .hostStream serve start streamed)
      (more : start < chunkCountFor serve.totalLen)
      (staged : serve.directPool = true ∨
        start + min getValueCbReadBatch (chunkCountFor serve.totalLen - start) ≤
          sys.words.stageProgress) :
      BriscTurn cfg sys (streamBatch serve start streamed sys) []
  | finishStream {serve : HostServe} {start : Nat} {streamed : Bytes}
      (serving : sys.brisc.phase = .hostStream serve start streamed)
      (done : chunkCountFor serve.totalLen ≤ start) :
      BriscTurn cfg sys (finishServe cfg serve streamed sys).1
        (finishServe cfg serve streamed sys).2
  | noPromotion (checking : sys.brisc.phase = .promoteCheck)
      (none_ : sys.words.commitReqSem = sys.brisc.commitReqSeen) :
      BriscTurn cfg sys (goto .top sys) []
  | finishPromote (checking : sys.brisc.phase = .promoteCheck)
      (posted : sys.words.commitReqSem ≠ sys.brisc.commitReqSeen) :
      BriscTurn cfg sys (finishPromote cfg sys) []

/-- The head of the FIFO is posted or skipped. -/
theorem commitHead_cases {item : QueueItem} {rest : List QueueItem}
    (atTop : sys.brisc.phase = .top) (noTail : sys.brisc.stream.tailPending = false)
    (queued : sys.dir.putHostQueue = item :: rest) :
    BriscTurn cfg sys (commitHead cfg item sys).1 (commitHead cfg item sys).2 := by
  unfold Server.commitHead
  split
  · next fresh => exact .postHead atTop noTail queued fresh
  · next stale => exact .skipHead atTop noTail queued (Bool.eq_false_iff.mpr stale)

/-- A pass of the scheduler loop is one of the cases. -/
theorem schedule_cases (atTop : sys.brisc.phase = .top) :
    BriscTurn cfg sys (schedule cfg sys).1 (schedule cfg sys).2 := by
  unfold schedule
  split
  · next tail => exact .pushTail atTop tail
  · next noTail =>
    rw [Bool.not_eq_true] at noTail
    split
    · next request asked =>
      split
      · next allowed => exact .serve atTop noTail asked allowed.1 (serviceRequest_cases request)
      · split
        · next queued => exact commitHead_cases atTop noTail queued
        · next empty => exact .pass atTop noTail empty
    · split
      · next queued => exact commitHead_cases atTop noTail queued
      · next empty => exact .pass atTop noTail empty

/-- Every step of BRISC is one of the cases. -/
theorem briscStep_cases (stepped : briscStep cfg sys = some (after, events)) :
    BriscTurn cfg sys after events := by
  unfold briscStep at stepped
  split at stepped
  · next atTop =>
    have turn : BriscTurn cfg sys _ _ := schedule_cases atTop
    rwa [Option.some.inj stepped] at turn
  · next written =>
    cases stepped
    exact .raise written
  · next wait awaits =>
    cases wait with
    | prefixAck =>
      simp only [finishWait, Option.ite_none_left_eq_some] at stepped
      obtain ⟨acked, stepped⟩ := stepped
      cases stepped
      exact .startPrefix awaits acked
    | commitAck slot =>
      simp only [finishWait, Option.ite_none_left_eq_some] at stepped
      obtain ⟨acked, stepped⟩ := stepped
      cases stepped
      exact .pushHead awaits acked
    | commitDrain slot hostGeneration =>
      simp only [finishWait, Option.ite_none_right_eq_some] at stepped
      obtain ⟨drained, stepped⟩ := stepped
      cases stepped
      exact .commitHead awaits drained
    | tailDrain =>
      simp only [finishWait, Option.ite_none_right_eq_some] at stepped
      obtain ⟨drained, stepped⟩ := stepped
      cases stepped
      exact .commitTail awaits drained
    | removeDrain slot =>
      simp only [finishWait, Option.ite_none_right_eq_some] at stepped
      obtain ⟨drained, stepped⟩ := stepped
      cases stepped
      exact .finishRemove awaits drained
    | promoteAccepted =>
      cases stepped
      exact .acceptPromote awaits
    | serveCommit serve =>
      simp only [finishWait, Option.ite_none_left_eq_some] at stepped
      obtain ⟨posted, stepped⟩ := stepped
      split at stepped
      · next staged =>
        cases stepped
        exact .startServe awaits posted staged
      · next unstaged =>
        cases stepped
        exact .finishUnmapped awaits posted (Bool.eq_false_iff.mpr unstaged) rfl
  · next start pushing =>
    dsimp only at stepped
    split at stepped
    · next more =>
      simp only [Option.ite_none_left_eq_some] at stepped
      obtain ⟨raised, stepped⟩ := stepped
      cases stepped
      exact .pushGroup pushing more raised
    · next done =>
      cases stepped
      exact .finishPrefix pushing (Nat.not_lt.mp done)
  · next serve start streamed serving =>
    split at stepped
    · next more =>
      simp only [Option.ite_none_right_eq_some] at stepped
      obtain ⟨staged, stepped⟩ := stepped
      cases stepped
      exact .streamBatch serving more staged
    · next done =>
      cases stepped
      exact .finishStream serving (Nat.not_lt.mp done)
  · next checking =>
    split at stepped
    · next none_ =>
      cases stepped
      exact .noPromotion checking none_
    · next posted =>
      cases stepped
      exact .finishPromote checking posted

end KvCache.Server
