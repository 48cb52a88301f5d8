import KvCache.Server.System

/-!
# What the host worker can do in one step

Every case of a step of the worker is a constructor, with the state after the step
as its index. The worker shows no events.
-/

namespace KvCache.Server

open Directory HashIndex Layout

variable {cfg : Config} {sys after : Sys} {events : List Event}

/-- The cases of a step of the worker. -/
inductive WorkerTurn (cfg : Config) (sys : Sys) : Sys → Prop
  | poll (waits : sys.host.worker = .idle) (next : sys.words.moveReqSem = sys.host.seen + 1)
      (shape : requestShape cfg sys.words.moveReq = true) :
      WorkerTurn cfg sys (workAs (.pending sys.words.moveReq) sys)
  | failPoll (waits : sys.host.worker = .idle) (raised : sys.words.moveReqSem ≠ sys.host.seen)
      (bad : ¬ (sys.words.moveReqSem = sys.host.seen + 1 ∧
        requestShape cfg sys.words.moveReq = true)) :
      WorkerTurn cfg sys (workAs .failed sys)
  | receive {request : MoveRequest} {reserved : Host} {lease : Option HostLease}
      (took : sys.host.worker = .pending request) (isWrite : request.op = .writeThrough)
      (staged : cfg.stageEnabled = true)
      (reservation : reserveLease cfg request.slot request.totalLen
        (eraseHostValue request.slot sys.host) = (reserved, lease)) :
      WorkerTurn cfg sys
        { sys with
          words := { sys.words with
            evictAck :=
              ⟨(lease.map HostLease.readOff).getD 0, (lease.map HostLease.generation).getD 0⟩
            evictAckSem := reserved.evictIssued + 1 }
          host := { reserved with
            evictIssued := reserved.evictIssued + 1
            worker := .awaitPush request lease } }
  | read {request : MoveRequest} (took : sys.host.worker = .pending request)
      (isWrite : request.op = .writeThrough) (unstaged : cfg.stageEnabled = false) :
      WorkerTurn cfg sys
        (backValue request
          ⟨request.totalLen, none,
            readValue request.totalLen (heapFrom sys.valueHeap request.valueByteOff)⟩
          { sys with host := eraseHostValue request.slot sys.host })
  | remove {request : MoveRequest} (took : sys.host.worker = .pending request)
      (isRemove : request.op = .removeBacking) :
      WorkerTurn cfg sys
        (workAs (.transferComplete request)
          { sys with host := eraseHostValue request.slot sys.host })
  | failSupply {request : MoveRequest} (took : sys.host.worker = .pending request)
      (supplies : request.op = .devicePromote ∨ request.op = .hostServe)
      (bad : ∀ value, sys.host.hostValue request.slot = some value →
        value.len = request.totalLen → cfg.stageEnabled = false ∧ value.lease ≠ none) :
      WorkerTurn cfg sys (workAs .failed sys)
  | serveExtent {request : MoveRequest} {value : HostValue} {lease : HostLease}
      (took : sys.host.worker = .pending request) (isServe : request.op = .hostServe)
      (backed : sys.host.hostValue request.slot = some value)
      (sameLen : value.len = request.totalLen) (staged : cfg.stageEnabled = true)
      (isLease : value.lease = some lease) :
      WorkerTurn cfg sys
        (publishStageProgress (chunkCountFor request.totalLen)
          (postCommit request (some lease) (.awaitCommit request) (publishStageProgress 0 sys)))
  | serveBytes {request : MoveRequest} {value : HostValue}
      (took : sys.host.worker = .pending request) (isServe : request.op = .hostServe)
      (backed : sys.host.hostValue request.slot = some value)
      (sameLen : value.len = request.totalLen) (staged : cfg.stageEnabled = true)
      (isBytes : value.lease = none) :
      WorkerTurn cfg sys
        (postCommit request none (.staging request 0) (publishStageProgress 0 sys))
  | promoteExtent {request : MoveRequest} {value : HostValue} {lease : HostLease}
      (took : sys.host.worker = .pending request) (isPromote : request.op = .devicePromote)
      (backed : sys.host.hostValue request.slot = some value)
      (sameLen : value.len = request.totalLen) (staged : cfg.stageEnabled = true)
      (isLease : value.lease = some lease) :
      WorkerTurn cfg sys (postCommit request (some lease) (.awaitCommit request) sys)
  | promoteBytes {request : MoveRequest} {value : HostValue}
      (took : sys.host.worker = .pending request) (isPromote : request.op = .devicePromote)
      (backed : sys.host.hostValue request.slot = some value)
      (sameLen : value.len = request.totalLen) (staged : cfg.stageEnabled = true)
      (isBytes : value.lease = none) :
      WorkerTurn cfg sys
        (postCommit request none (.awaitCommit request)
          { sys with
            window := writeWindow 0 0 (chunkCountFor request.totalLen) (hostChunk value.bytes)
              sys.window })
  | fill {request : MoveRequest} {value : HostValue}
      (took : sys.host.worker = .pending request)
      (supplies : request.op = .devicePromote ∨ request.op = .hostServe)
      (backed : sys.host.hostValue request.slot = some value)
      (sameLen : value.len = request.totalLen) (unstaged : cfg.stageEnabled = false)
      (isBytes : value.lease = none) :
      WorkerTurn cfg sys
        (postCommit request none (.awaitCommit request)
          (fillHeap request.valueByteOff request.totalLen (hostChunk value.bytes) sys))
  | finishPush {request : MoveRequest} {lease : Option HostLease}
      (awaits : sys.host.worker = .awaitPush request lease)
      (pushed : sys.words.evictDone = sys.host.evictIssued) :
      WorkerTurn cfg sys (receivePushed request lease sys)
  | stageBlock {request : MoveRequest} {start : Nat} {value : HostValue}
      (stages : sys.host.worker = .staging request start)
      (more : start < chunkCountFor request.totalLen)
      (backed : sys.host.hostValue request.slot = some value) :
      WorkerTurn cfg sys (stageBlock request start value sys)
  | finishStage {request : MoveRequest} {start : Nat}
      (stages : sys.host.worker = .staging request start)
      (done : chunkCountFor request.totalLen ≤ start) :
      WorkerTurn cfg sys (workAs (.awaitCommit request) sys)
  | finishCommit {request : MoveRequest} (awaits : sys.host.worker = .awaitCommit request)
      (committed : sys.words.promoteDone = sys.host.commitIssued) :
      WorkerTurn cfg sys (workAs (.transferComplete request) sys)
  | complete {request : MoveRequest} (transferred : sys.host.worker = .transferComplete request) :
      WorkerTurn cfg sys (completeRequest sys)

/-- Supplying a value is one of the cases. -/
theorem supplyValue_cases {request : MoveRequest} {value : HostValue}
    (took : sys.host.worker = .pending request)
    (supplies : request.op = .devicePromote ∨ request.op = .hostServe)
    (backed : sys.host.hostValue request.slot = some value)
    (sameLen : value.len = request.totalLen) :
    WorkerTurn cfg sys (supplyValue cfg request value sys) := by
  unfold supplyValue
  dsimp only
  split
  · next staged =>
    split
    · next isServe =>
      split
      · next isLease =>
        rw [isLease]
        exact .serveExtent took isServe backed sameLen staged isLease
      · next isBytes => exact .serveBytes took isServe backed sameLen staged isBytes
    · next notServe =>
      have isPromote := supplies.resolve_right notServe
      split
      · next isLease =>
        rw [isLease]
        exact .promoteExtent took isPromote backed sameLen staged isLease
      · next isBytes => exact .promoteBytes took isPromote backed sameLen staged isBytes
  · next unstaged =>
    rw [Bool.not_eq_true] at unstaged
    split
    · next isLease =>
      refine .failSupply took supplies fun other holds _ => ⟨unstaged, ?_⟩
      rw [backed] at holds
      rw [← Option.some.inj holds, isLease]
      exact Option.some_ne_none _
    · next isBytes => exact .fill took supplies backed sameLen unstaged isBytes

/-- Handling a request is one of the cases. -/
theorem handleHostRequest_cases {request : MoveRequest}
    (took : sys.host.worker = .pending request) :
    WorkerTurn cfg sys (handleHostRequest cfg request sys) := by
  have missing (supplies : request.op = .devicePromote ∨ request.op = .hostServe)
      (unbacked : sys.host.hostValue request.slot = none) :
      WorkerTurn cfg sys (workAs .failed sys) :=
    .failSupply took supplies fun _ holds => by cases unbacked.symm.trans holds
  have supply (supplies : request.op = .devicePromote ∨ request.op = .hostServe)
      {value : HostValue} (backed : sys.host.hostValue request.slot = some value) :
      WorkerTurn cfg sys (if value.len = request.totalLen then supplyValue cfg request value sys
        else workAs .failed sys) := by
    split
    · next sameLen => exact supplyValue_cases took supplies backed sameLen
    · next different =>
      refine .failSupply took supplies fun other holds sameLen => ?_
      rw [backed] at holds
      exact absurd (Option.some.inj holds ▸ sameLen) different
  unfold handleHostRequest
  split
  · next isWrite =>
    unfold receiveValue
    dsimp only
    split
    · next staged => exact .receive took isWrite staged Prod.mk.eta.symm
    · next unstaged => exact .read took isWrite (Bool.eq_false_iff.mpr unstaged)
  · next isRemove => exact .remove took isRemove
  · next isPromote =>
    split
    · next unbacked => exact missing (Or.inl isPromote) unbacked
    · next value backed => exact supply (Or.inl isPromote) backed
  · next isServe =>
    split
    · next unbacked => exact missing (Or.inr isServe) unbacked
    · next value backed => exact supply (Or.inr isServe) backed

/-- Every step of the worker is one of the cases, and shows no event. -/
theorem workerStep_cases (stepped : workerStep cfg sys = some (after, events)) :
    WorkerTurn cfg sys after ∧ events = [] := by
  unfold workerStep at stepped
  split at stepped
  · next waits =>
    unfold pollRequest at stepped
    split at stepped
    · exact nomatch stepped
    · next raised =>
      split at stepped
      · next good =>
        cases stepped
        exact ⟨.poll waits good.1 good.2, rfl⟩
      · next bad =>
        cases stepped
        exact ⟨.failPoll waits raised bad, rfl⟩
  · next took =>
    cases stepped
    exact ⟨handleHostRequest_cases took, rfl⟩
  · next awaits =>
    simp only [Option.ite_none_right_eq_some] at stepped
    obtain ⟨pushed, stepped⟩ := stepped
    cases stepped
    exact ⟨.finishPush awaits pushed, rfl⟩
  · next stages =>
    split at stepped
    · next more =>
      obtain ⟨value, backed, stepped⟩ := Option.map_eq_some_iff.mp stepped
      cases stepped
      exact ⟨.stageBlock stages more backed, rfl⟩
    · next done =>
      cases stepped
      exact ⟨.finishStage stages (Nat.not_lt.mp done), rfl⟩
  · next awaits =>
    simp only [Option.ite_none_right_eq_some] at stepped
    obtain ⟨committed, stepped⟩ := stepped
    cases stepped
    exact ⟨.finishCommit awaits committed, rfl⟩
  · next transferred =>
    cases stepped
    exact ⟨.complete transferred, rfl⟩
  · exact nomatch stepped

end KvCache.Server
