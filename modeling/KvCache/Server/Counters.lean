import KvCache.Server.BriscTurns
import KvCache.Server.WorkerTurns
import KvCache.Server.SessionTurns

/-!
# The counters between BRISC and the worker

Each handshake compares two counters that only one party raises. The worker completes
what it polled, so the request counter is ahead by the requests it has not completed.
A push and a supply are handshakes inside a request: the worker raises the
acknowledgement or the commit counter once and waits until BRISC answers it, so these
are ahead by at most one, and only while the worker waits.
-/

namespace KvCache.Server

open Directory

/-- The request that the worker handles. -/
def handling : WorkerPhase → Option MoveRequest
  | .idle | .failed => none
  | .pending request | .awaitPush request _ | .staging request _ | .awaitCommit request
  | .transferComplete request => some request

/-- The requests that the worker polled and did not complete. -/
def held (worker : WorkerPhase) : Nat := if (handling worker).isSome then 1 else 0

/-- Whether the worker waits for a push. -/
def awaitsPush : WorkerPhase → Bool
  | .awaitPush _ _ => true
  | _ => false

/-- Whether the worker waits for the commit of a supplied value. -/
def awaitsCommit : WorkerPhase → Bool
  | .staging _ _ | .awaitCommit _ => true
  | _ => false

/-- Whether BRISC took a destination and owes the end of the push. -/
def pushDue (stream : PutStream) : Phase → Bool
  | .pushPrefix _ => true
  | .posting .tailDrain | .waiting .tailDrain => false
  | _ => stream.prefixReady || stream.tailPending

/-- Whether BRISC took a supplied value and owes the end of its GET. -/
def serveDue : Phase → Bool
  | .hostStream serve _ _ => !serve.directPool
  | _ => false

/-- Whether BRISC posts a GET that needs no worker. -/
def postsDirect : Phase → Bool
  | .posting (.serveCommit serve) | .waiting (.serveCommit serve) => serve.directPool
  | _ => false

/-- How far the counters are apart. -/
structure Counters (words : Words) (brisc : Brisc) (host : Host) : Prop where
  processed : words.moveProcessed = host.seen
  raised : host.seen + held host.worker ≤ words.moveReqSem
  evictIssued : host.evictIssued = words.evictAckSem
  evictSeen : brisc.evictAckSeen = words.evictDone + (pushDue brisc.stream brisc.phase).toNat
  evictLe : brisc.evictAckSeen ≤ words.evictAckSem
  evictDue : words.evictAckSem ≤ words.evictDone + (awaitsPush host.worker).toNat
  commitIssued : host.commitIssued = words.commitReqSem
  commitSeen : brisc.commitReqSeen = words.promoteDone + (serveDue brisc.phase).toNat
  commitLe : brisc.commitReqSeen ≤ words.commitReqSem
  commitDue : words.commitReqSem ≤ words.promoteDone + (awaitsCommit host.worker).toNat
  indirect : postsDirect brisc.phase = false

namespace Counters

variable {cfg : Config} {sys after : Sys} {events : List Event}

theorem cold : Counters coldWords coldBrisc (coldSys cfg).host :=
  ⟨rfl, Nat.le_refl _, rfl, rfl, Nat.le_refl _, Nat.le_refl _, rfl, rfl, Nat.le_refl _,
    Nat.le_refl _, rfl⟩

theorem session (inv : Counters sys.words sys.brisc sys.host) (turn : SessionTurn cfg sys after events) :
    Counters after.words after.brisc after.host := by
  cases turn <;> exact { inv with }

/-- Dropping a host copy touches no counter. -/
theorem eraseHostValue_counters (slot : Nat) (host : Host) :
    (eraseHostValue slot host).seen = host.seen ∧
      (eraseHostValue slot host).evictIssued = host.evictIssued ∧
      (eraseHostValue slot host).commitIssued = host.commitIssued := by
  unfold eraseHostValue
  dsimp only
  split
  · exact ⟨rfl, rfl, rfl⟩
  · simp only [releaseLease, invalidatePoolMetaIfGeneration]
    split <;> exact ⟨rfl, rfl, rfl⟩

/-- Reserving an extent touches no counter. -/
theorem reserveLease_counters {slot totalLen : Nat} {host reserved : Host}
    {lease : Option HostLease} (reservation : reserveLease cfg slot totalLen host = (reserved, lease)) :
    reserved.seen = host.seen ∧ reserved.evictIssued = host.evictIssued ∧
      reserved.commitIssued = host.commitIssued := by
  unfold reserveLease publishPoolMeta at reservation
  split at reservation <;> cases reservation <;> exact ⟨rfl, rfl, rfl⟩

/-- A step of the worker. -/
theorem worker (inv : Counters sys.words sys.brisc sys.host) (turn : WorkerTurn cfg sys after) :
    Counters after.words after.brisc after.host := by
  have erased := fun slot => eraseHostValue_counters slot sys.host
  obtain ⟨processed, raised, evictIssued, evictSeen, evictLe, evictDue, commitIssued, commitSeen,
    commitLe, commitDue, indirect⟩ := inv
  cases turn with
  | receive took isWrite staged reservation =>
    have reserved := reserveLease_counters reservation
    constructor <;> grind [held, handling, awaitsPush, awaitsCommit]
  | _ =>
    constructor <;> grind [workAs, backValue, receivePushed, publishStageProgress, postCommit,
      fillHeap, stageBlock, completeRequest, held, handling, awaitsPush, awaitsCommit]

/-- A request service. A stream starts only if none is under way. -/
theorem serves {request : DirRequest} (inv : Counters sys.words sys.brisc sys.host)
    (served : Serves cfg sys request after events) (atTop : sys.brisc.phase = .top)
    (noStream : ∀ req, request = .putPrepare req → sys.brisc.stream.prefixReady = false)
    (noTail : sys.brisc.stream.tailPending = false) :
    Counters after.words after.brisc after.host := by
  have evictSeen := inv.evictSeen
  have commitSeen := inv.commitSeen
  rw [atTop] at evictSeen commitSeen
  have indirect : postsDirect .top = false := rfl
  cases served with
  | grantStreaming =>
    have flags : pushDue sys.brisc.stream .top = false := by
      simp [pushDue, noStream _ rfl, noTail]
    rw [flags] at evictSeen
    exact { inv with evictSeen := evictSeen, commitSeen := commitSeen, indirect := indirect }
  | publishStreamed ready =>
    have flags : pushDue sys.brisc.stream .top = true := by
      simp [pushDue, ready]
    have later : ∀ token, pushDue { sys.brisc.stream with
        prefixReady := false, tailPending := true, pendingToken := token } sys.brisc.phase = true := by
      intro token
      rw [atTop]
      rfl
    rw [flags, ← later _] at evictSeen
    exact { inv with evictSeen := evictSeen }
  | getPooled found large onHost staged hit reserved isServe =>
    subst isServe
    exact { inv with evictSeen := evictSeen, commitSeen := commitSeen, indirect := indirect }
  | getPosted serve found large onHost window reserved isServe =>
    subst isServe
    exact { inv with evictSeen := evictSeen, commitSeen := commitSeen, indirect := indirect }
  | removeFound | postPromote =>
    exact { inv with evictSeen := evictSeen, commitSeen := commitSeen, indirect := indirect }
  | _ => exact { inv with }

/-- Raising the request counter does not settle a push. -/
theorem pushDue_raised (stream : PutStream) (next : Wait) :
    pushDue stream (.posting next) = pushDue stream (.waiting next) ∧
      postsDirect (.posting next) = postsDirect (.waiting next) := by
  cases next <;> exact ⟨rfl, rfl⟩

/-- An acknowledged destination means that no push was owed. -/
theorem acked (inv : Counters sys.words sys.brisc sys.host)
    (unseen : sys.words.evictAckSem ≠ sys.brisc.evictAckSeen) :
    pushDue sys.brisc.stream sys.brisc.phase = false ∧
      sys.words.evictAckSem = sys.words.evictDone + 1 := by
  obtain ⟨-, -, -, evictSeen, evictLe, evictDue, -⟩ := inv
  have pushes := Bool.toNat_le (awaitsPush sys.host.worker)
  cases due : pushDue sys.brisc.stream sys.brisc.phase with
  | false =>
    rw [due, Bool.toNat_false] at evictSeen
    exact ⟨rfl, by omega⟩
  | true =>
    rw [due, Bool.toNat_true] at evictSeen
    omega

/-- A posted commit means that no supplied value was owed. -/
theorem posted (inv : Counters sys.words sys.brisc sys.host)
    (unseen : sys.words.commitReqSem ≠ sys.brisc.commitReqSeen) :
    serveDue sys.brisc.phase = false ∧ sys.words.commitReqSem = sys.words.promoteDone + 1 := by
  obtain ⟨-, -, -, -, -, -, -, commitSeen, commitLe, commitDue, -⟩ := inv
  have supplies := Bool.toNat_le (awaitsCommit sys.host.worker)
  cases due : serveDue sys.brisc.phase with
  | false =>
    rw [due, Bool.toNat_false] at commitSeen
    exact ⟨rfl, by omega⟩
  | true =>
    rw [due, Bool.toNat_true] at commitSeen
    omega

/-- The end of a GET settles the supply of its value. -/
theorem finishServe {serve : HostServe} {streamed : Bytes} {seen : Nat}
    (inv : Counters sys.words sys.brisc sys.host)
    (flags : pushDue sys.brisc.stream .top = pushDue sys.brisc.stream sys.brisc.phase)
    (isSeen : seen = sys.words.promoteDone + (!serve.directPool).toNat)
    (seenLe : seen ≤ sys.words.commitReqSem) :
    let after := (Server.finishServe cfg serve streamed
      { sys with brisc := { sys.brisc with commitReqSeen := seen } }).1
    Counters after.words after.brisc after.host := by
  intro after
  have evictSeen := inv.evictSeen
  have commitDue := inv.commitDue
  rw [← flags] at evictSeen
  have settled : after.words.promoteDone = seen := by
    rw [isSeen]
    show (if serve.directPool then _ else _) = _
    cases serve.directPool <;> rfl
  exact { inv with
    evictSeen := evictSeen
    commitSeen := settled.symm
    commitLe := seenLe
    commitDue := by
      rw [settled, isSeen]
      exact commitDue.trans (Nat.add_le_add_right (Nat.le_add_right _ _) _)
    indirect := rfl }

/-- A step of BRISC. -/
theorem brisc (inv : Counters sys.words sys.brisc sys.host) (turn : BriscTurn cfg sys after events)
    (noStream : ∀ req, sys.words.request = some (.putPrepare req) →
      sys.brisc.stream.prefixReady = false) :
    Counters after.words after.brisc after.host := by
  have evictSeen := inv.evictSeen
  have evictDue := inv.evictDue
  have commitSeen := inv.commitSeen
  have commitDue := inv.commitDue
  have indirect := inv.indirect
  cases turn with
  | serve atTop noTail asked free served =>
    have taken : Counters (takeRequest sys).words (takeRequest sys).brisc (takeRequest sys).host :=
      { inv with }
    apply serves taken served atTop _ noTail
    intro req isPrepare
    exact noStream req (asked.trans (congrArg some isPrepare))
  | pushTail atTop tail =>
    have flags : pushDue sys.brisc.stream sys.brisc.phase = true := by
      simp [pushDue, atTop, tail]
    rw [flags, Bool.toNat_true] at evictSeen
    rw [atTop] at commitSeen
    exact { inv with
      evictSeen := evictSeen
      evictDue := evictDue.trans (Nat.add_le_add_right (Nat.le_succ _) _)
      commitSeen := commitSeen
      indirect := rfl }
  | postHead atTop noTail queued fresh =>
    rw [atTop] at evictSeen commitSeen
    cases staged : cfg.stageEnabled <;>
      exact { inv with evictSeen := evictSeen, commitSeen := commitSeen, indirect := rfl }
  | raise written =>
    obtain ⟨samePush, sameDirect⟩ := pushDue_raised sys.brisc.stream _
    rw [written, samePush] at evictSeen
    rw [written] at commitSeen
    rw [written, sameDirect] at indirect
    exact { inv with
      raised := Nat.le_succ_of_le inv.raised
      evictSeen := evictSeen
      commitSeen := commitSeen
      indirect := indirect }
  | startPrefix awaits unseen =>
    obtain ⟨-, one⟩ := inv.acked unseen
    rw [awaits] at commitSeen
    exact { inv with
      evictSeen := one, evictLe := Nat.le_refl _, commitSeen := commitSeen, indirect := rfl }
  | @pushHead slot awaits unseen =>
    obtain ⟨noDue, one⟩ := inv.acked unseen
    rw [awaits] at noDue commitSeen
    have flags : pushDue sys.brisc.stream (headPushed slot sys).brisc.phase = false := noDue
    have done : sys.words.evictAckSem = sys.words.evictDone + 1 +
        (pushDue sys.brisc.stream (headPushed slot sys).brisc.phase).toNat := by
      rw [flags, one, Bool.toNat_false]
    exact { inv with
      evictSeen := done
      evictLe := Nat.le_refl _
      evictDue := evictDue.trans (Nat.add_le_add_right (Nat.le_succ _) _)
      commitSeen := commitSeen
      indirect := rfl }
  | skipHead phase | pass phase | commitHead phase | commitTail phase | finishRemove phase
  | acceptPromote phase | noPromotion phase =>
    rw [phase] at evictSeen commitSeen
    exact { inv with evictSeen := evictSeen, commitSeen := commitSeen, indirect := rfl }
  | @startServe serve awaits unseen =>
    obtain ⟨-, one⟩ := inv.posted unseen
    rw [awaits] at evictSeen indirect
    have due : sys.words.commitReqSem = sys.words.promoteDone + (!serve.directPool).toNat := by
      rw [show serve.directPool = false from indirect]
      exact one
    exact { inv with
      evictSeen := evictSeen, commitSeen := due, commitLe := Nat.le_refl _, indirect := rfl }
  | @finishUnmapped serve _ awaits unseen =>
    obtain ⟨-, one⟩ := inv.posted unseen
    rw [awaits] at indirect
    refine inv.finishServe (by rw [awaits]; rfl) ?_ (Nat.le_refl _)
    rw [show serve.directPool = false from indirect]
    exact one
  | pushGroup pushing =>
    rw [pushing] at evictSeen commitSeen
    exact { inv with evictSeen := evictSeen, commitSeen := commitSeen, indirect := rfl }
  | finishPrefix pushing =>
    rw [pushing] at evictSeen commitSeen
    exact { inv with evictSeen := evictSeen, commitSeen := commitSeen, indirect := rfl }
  | streamBatch serving =>
    rw [serving] at evictSeen commitSeen
    exact { inv with evictSeen := evictSeen, commitSeen := commitSeen, indirect := rfl }
  | finishStream serving =>
    rw [serving] at commitSeen
    exact inv.finishServe (by rw [serving]; rfl) commitSeen inv.commitLe
  | finishPromote checking unseen =>
    obtain ⟨-, one⟩ := inv.posted unseen
    rw [checking] at evictSeen
    exact { inv with
      evictSeen := evictSeen
      commitSeen := one
      commitLe := Nat.le_refl _
      commitDue := commitDue.trans (Nat.add_le_add_right (Nat.le_succ _) _)
      indirect := rfl }

end Counters

end KvCache.Server
