import KvCache.Lifecycle.WorkerFailure

/-!
# A close that is prompt swallows no failure

Up to the stop of the worker, an exception is known from the flag or in the hands of the
worker, so a close that finds neither has nothing to report. From the stop on, the worker
completes what it accepted. A close that looked too early has nothing behind it that would
find the failure, and returns.
-/

namespace KvCache.ServerLifecycle

open Run

variable {server after : Shutdown} {impl next : Impl}

/-! ## Steps of the worker -/

/-- A thread that takes a step is not joined. -/
theorem workerStep_live {event : WorkerEvent} (taken : workerStep event impl = some next) :
    impl.worker ≠ .joined := by
  intro joined
  simp [workerStep, joined] at taken

/-- A step of the thread changes the thread and its flag only. -/
theorem workerStep_same {event : WorkerEvent} (taken : workerStep event impl = some next) :
    next = { impl with worker := next.worker, workerFailed := next.workerFailed } := by
  unfold workerStep at taken
  split at taken
  · split at taken
    · obtain rfl := Option.some.inj taken
      rfl
    · cases taken
  · obtain rfl := Option.some.inj taken
    rfl
  · obtain rfl := Option.some.inj taken
    rfl
  · obtain rfl := Option.some.inj taken
    rfl
  · cases taken

/-- A worker that is not joined may change as long as what holds at the statement and the
accounts do. -/
theorem Attentive.work (attentive : Attentive server) (fits : Fits after.impl)
    (live : server.impl.worker ≠ .joined)
    (same : after.impl = { server.impl with
      worker := after.impl.worker, workerFailed := after.impl.workerFailed })
    (outcomes : after.outcomes = server.outcomes)
    (flagged : after.impl.workerFailed = true →
      after.impl.worker = .ended ∨ after.impl.worker = .joined)
    (counts : after.accepted = after.completed + (if after.activity = .handling then 1 else 0))
    (finishes : Finishing server → (∃ closer, server.impl.point = .joining (.close closer)) →
      Finishing after)
    (known : server.impl.workerStop = false → Known server → Known after) : Attentive after := by
  have point : after.impl.point = server.impl.point := by rw [same]
  have lifecycle : after.impl.lifecycle = server.impl.lifecycle := by rw [same]
  have stop : after.impl.workerStop = server.impl.workerStop := by rw [same]
  have undone : ¬ Done server := fun done => live done.joined
  have unreturned : .returned ∉ after.outcomes := by
    rw [outcomes]
    intro returned
    exact live (attentive.returned returned)
  refine ⟨fits, ⟨?_, ?_, ?_⟩, flagged, counts, ?_, ?_, ?_, ?_⟩
  · intro closer joining
    rw [point] at joining
    exact finishes (attentive.follows.joining closer joining) ⟨closer, joining⟩
  · intro closer torn
    rw [point] at torn
    exact absurd (attentive.follows.joined closer torn) undone
  · intro before
    rw [point] at before
    rw [stop, lifecycle]
    rcases attentive.follows.before before with settled | ⟨going, was⟩
    · exact Or.inl settled
    · exact Or.inr ⟨going, known going was⟩
  · intro closed
    rw [lifecycle] at closed
    exact absurd (attentive.closed closed) undone
  · rw [lifecycle, outcomes, point]
    exact attentive.quarantined
  · intro returned
    exact absurd returned unreturned
  · intro returned
    exact absurd returned unreturned

theorem works_attentive {action : WorkerAction} (attentive : Attentive server)
    (prompt : Prompt server (.work action)) (taken : works server action = some after) :
    Attentive after := by
  have counts := attentive.counts
  cases action with
  | looks =>
    simp only [works] at taken
    split at taken
    · next runs =>
      split at taken
      · obtain ⟨next, stepped, rfl⟩ := Option.map_eq_some_iff.mp taken
        have ended : next.worker = .ended ∧ next.workerFailed = server.impl.workerFailed := by
          unfold workerStep at stepped
          grind
        have same := workerStep_same stepped
        apply attentive.work
        · exact workerStep_fits attentive.fits stepped
        · exact workerStep_live stepped
        · exact same
        · rfl
        · exact fun _ => Or.inl ended.1
        · exact counts
        · intro finishing _
          exact ⟨by rw [same]; exact finishing.told, finishing.early, Or.inr (by simp [runs.2])⟩
        · intro _ known early
          rcases known early with failed | failing | recording
          · exact Or.inl (ended.2.trans failed)
          · exact absurd (runs.1.symm.trans failing) (by simp)
          · exact absurd (runs.1.symm.trans recording) (by simp)
      · obtain rfl := Option.some.inj taken
        apply attentive.work
        · exact attentive.fits
        · simp [runs.1]
        · rfl
        · rfl
        · exact attentive.flagged
        · simpa [runs.2] using counts
        · intro finishing _
          exact ⟨finishing.told, finishing.early, Or.inl runs.1⟩
        · exact fun _ known => known
    · cases taken
  | polls found =>
    simp only [works] at taken
    split at taken
    · next runs =>
      split at taken
      · obtain rfl := Option.some.inj taken
        apply attentive.work
        · exact attentive.fits
        · simp [runs.1]
        · rfl
        · rfl
        · exact attentive.flagged
        · simpa [runs.2] using counts
        · intro finishing _
          exact ⟨finishing.told, finishing.early, Or.inl runs.1⟩
        · exact fun _ known => known
      · obtain rfl := Option.some.inj taken
        apply attentive.work
        · exact attentive.fits
        · simp [runs.1]
        · rfl
        · rfl
        · exact attentive.flagged
        · simpa [runs.2] using counts
        · intro finishing _
          exact ⟨finishing.told, finishing.early, Or.inl runs.1⟩
        · exact fun _ known => known
    · cases taken
  | completes =>
    simp only [works] at taken
    split at taken
    · next runs =>
      obtain rfl := Option.some.inj taken
      apply attentive.work
      · exact attentive.fits
      · simp [runs.1]
      · rfl
      · rfl
      · exact attentive.flagged
      · simpa [runs.2] using counts
      · intro finishing _
        exact ⟨finishing.told, finishing.early, Or.inl runs.1⟩
      · exact fun _ known => known
    · cases taken
  | throws =>
    simp only [works] at taken
    split at taken
    · cases taken
    · obtain ⟨next, stepped, rfl⟩ := Option.map_eq_some_iff.mp taken
      have same := workerStep_same stepped
      have thrown : next.worker = .failing ∧ server.impl.worker = .running ∧
          next.workerFailed = server.impl.workerFailed := by
        unfold workerStep at stepped
        grind
      obtain ⟨failing, running, unflagged⟩ := thrown
      apply attentive.work
      · exact workerStep_fits attentive.fits stepped
      · exact workerStep_live stepped
      · exact same
      · rfl
      · intro failed
        have before := attentive.flagged (unflagged.symm.trans failed)
        rw [running] at before
        simp at before
      · exact counts
      · rintro finishing ⟨closer, joining⟩
        have idle : server.activity ≠ .handling := by
          simpa only [Prompt, joining] using prompt
        have told : next.workerStop = true := by rw [same]; exact finishing.told
        exact ⟨told, by simp [finishing.early, told], Or.inr idle⟩
      · intro _ _ _
        exact Or.inr (Or.inl failing)
  | continues =>
    obtain ⟨next, stepped, rfl⟩ := Option.map_eq_some_iff.mp taken
    have same := workerStep_same stepped
    apply attentive.work
    · exact workerStep_fits attentive.fits stepped
    · exact workerStep_live stepped
    · exact same
    · rfl
    · intro failed
      have flagged := attentive.flagged
      unfold workerStep at stepped
      grind
    · exact counts
    · intro finishing _
      refine ⟨by rw [same]; exact finishing.told, finishing.early, ?_⟩
      rcases finishing.finishes with running | idle
      · simp [workerStep, running] at stepped
      · exact Or.inr idle
    · intro going known early
      have before := known early
      unfold workerStep at stepped
      change next.workerFailed = true ∨ next.worker = .failing ∨ next.worker = .recording
      grind

/-! ## Steps of the owner of the mutex -/

/-- A call that leaves changes neither the worker nor the life cycle. -/
structure Leaves (impl next : Impl) : Prop where
  worker : next.worker = impl.worker
  stop : next.workerStop = impl.workerStop
  failed : next.workerFailed = impl.workerFailed
  lifecycle : next.lifecycle = impl.lifecycle
  point : next.point = .gone ∨ next.point = .idle

theorem leaveClose_leaves (closer : Closer) (threw : Bool) (impl : Impl) :
    Leaves impl (leaveClose closer threw impl) := by
  unfold leaveClose destroyMembers
  split
  · exact ⟨rfl, rfl, rfl, rfl, Or.inr rfl⟩
  · exact ⟨rfl, rfl, rfl, rfl, Or.inl rfl⟩
  · exact ⟨rfl, rfl, rfl, rfl, Or.inr rfl⟩
  · exact ⟨rfl, rfl, rfl, rfl, Or.inr rfl⟩

theorem leaveQuarantine_leaves (quarantiner : Quarantiner) (impl : Impl) :
    Leaves impl (leaveQuarantine quarantiner impl) := by
  cases quarantiner with
  | closer closer => exact leaveClose_leaves closer true impl
  | destructor => exact ⟨rfl, rfl, rfl, rfl, Or.inl rfl⟩

theorem leaveTeardown_leaves (teardown : Teardown) (impl : Impl) :
    Leaves impl (leaveTeardown teardown impl) := by
  cases teardown with
  | close closer => exact leaveClose_leaves closer false impl
  | quarantine quarantiner => exact leaveQuarantine_leaves quarantiner impl

theorem proceed_fits {succeeds : Bool} (fits : Fits impl)
    (taken : proceed succeeds impl = some next) : Fits next := by
  unfold proceed at taken
  split at taken
  · next teardown unregistering =>
    obtain rfl := Option.some.inj taken
    obtain ⟨owns, counted, once, closed, destroyed⟩ := fits
    simp only [Owns, unregistering] at owns
    obtain ⟨⟨registered, runtime, joined⟩, lifecycle, -⟩ := owns
    have settled : impl.lifecycle.Settled := by
      rw [lifecycle]
      cases teardown with
      | close closer => exact Or.inl rfl
      | quarantine quarantiner => exact Or.inr rfl
    have counts : impl.inserts = impl.releases + 1 := by simpa [registered] using counted
    apply leaveTeardown_fits
    · exact ⟨settled, rfl, runtime, joined⟩
    · exact ⟨counts, once, closed, destroyed⟩
    · simp [unregistering]
  · rcases Option.or_eq_some_iff.mp taken with closing | ⟨-, tearing⟩
    · exact closes_fits fits closing
    · exact tearsDown_fits fits tearing

/-- A statement before the teardown that leaves the worker alone, or one by which a call
leaves. A call returns here only if the server is closed or quarantined. -/
theorem Attentive.steady (attentive : Attentive server) (fits : Fits next)
    (before : ¬ server.impl.point.TearingDown) (worker : next.worker = server.impl.worker)
    (stop : next.workerStop = server.impl.workerStop)
    (failed : next.workerFailed = server.impl.workerFailed)
    (lifecycle : next.lifecycle = server.impl.lifecycle ∨
      (server.impl.lifecycle.Unsettled ∧ next.lifecycle.Unsettled))
    (point : next.point = .gone ∨ ¬ next.point.TearingDown) (ended : List Outcome)
    (returned : .returned ∈ ended →
      server.impl.lifecycle.Settled ∧ server.impl.worker = .joined) :
    Attentive { server with impl := next, outcomes := server.outcomes ++ ended } := by
  have reported : server.impl.lifecycle = .quarantined → .reported ∈ server.outcomes := by
    intro quarantined
    rcases attentive.quarantined quarantined with known | gone | ⟨quarantiner, leaving⟩
    · exact known
    · exact absurd (by rw [gone]; trivial) before
    · exact absurd (by rw [leaving]; trivial) before
  have kept : next.lifecycle.Settled → next.lifecycle = server.impl.lifecycle := by
    intro settled
    rcases lifecycle with same | ⟨-, unsettled⟩
    · exact same
    · rcases settled with settled | settled <;> rcases unsettled with unsettled | unsettled <;>
        exact absurd (settled.symm.trans unsettled) (by simp)
  refine ⟨fits, ⟨?_, ?_, ?_⟩, ?_, attentive.counts, ?_, ?_, ?_, ?_⟩
  · intro closer joining
    rcases point with gone | outside
    · exact absurd (joining.symm.trans gone) (by simp)
    · exact absurd (by rw [joining]; trivial) outside
  · intro closer torn
    rcases point with gone | outside
    · rcases torn with torn | torn | torn <;> exact absurd (torn.symm.trans gone) (by simp)
    · rcases torn with torn | torn | torn <;> exact absurd (by rw [torn]; trivial) outside
  · intro _
    rcases attentive.follows.before before with settled | ⟨going, known⟩
    · left
      rcases lifecycle with same | ⟨unsettled, -⟩
      · exact same ▸ settled
      · rcases settled with settled | settled <;> rcases unsettled with unsettled | unsettled <;>
          exact absurd (settled.symm.trans unsettled) (by simp)
    · right
      refine ⟨stop.trans going, ?_⟩
      intro early
      simp only [worker, failed]
      exact known early
  · simp only [worker, failed]
    exact attentive.flagged
  · intro closed
    have done := attentive.closed ((kept (Or.inl closed)).symm.trans closed)
    exact ⟨worker.trans done.joined, done.early, done.accounted⟩
  · intro quarantined
    exact Or.inl (List.mem_append_left _
      (reported ((kept (Or.inr quarantined)).symm.trans quarantined)))
  · intro listed
    rw [worker]
    rcases List.mem_append.mp listed with old | new
    · exact attentive.returned old
    · exact (returned new).2
  · intro listed
    rcases List.mem_append.mp listed with old | new
    · rcases attentive.heeded old with done | known
      · exact Or.inl done
      · exact Or.inr (List.mem_append_left _ known)
    · rcases (returned new).1 with closed | quarantined
      · have done := attentive.closed closed
        exact Or.inl ⟨done.early, done.accounted⟩
      · exact Or.inr (List.mem_append_left _ (reported quarantined))

/-- The statements of `close` before its teardown, and the beginning of a quarantine. -/
theorem calm_attentive {succeeds : Bool} (attentive : Attentive server)
    (taken : proceed succeeds server.impl = some next)
    (calm : ¬ server.impl.point.TearingDown) (going : ∀ teardown,
      server.impl.point ≠ .stopping teardown) :
    Attentive { server with
      impl := next, outcomes := server.outcomes ++ ends succeeds server.impl } := by
  have fits := proceed_fits attentive.fits taken
  have owns := attentive.fits.owns
  unfold proceed closes tearsDown at taken
  cases point : server.impl.point with
  | entered closer =>
    simp only [Owns, point] at owns
    have shut : server.impl.lifecycle.Settled → server.impl.worker = .joined := by
      intro settled
      rcases owns with opened | shut
      · rcases settled with settled | settled <;>
          rcases opened.1 with unsettled | unsettled <;>
            exact absurd (settled.symm.trans unsettled) (by simp)
      · exact shut.2.2.2
    simp only [point, Option.or_none] at taken
    cases lifecycle : server.impl.lifecycle with
    | constructing =>
      rcases owns with ⟨unsettled, -⟩ | ⟨settled, -⟩
      · simp [LifecycleState.Unsettled, lifecycle] at unsettled
      · simp [LifecycleState.Settled, lifecycle] at settled
    | ready =>
      simp only [lifecycle] at taken
      obtain rfl := Option.some.inj taken
      apply attentive.steady fits calm rfl rfl rfl
      · exact Or.inr ⟨Or.inl lifecycle, Or.inr rfl⟩
      · simp [Point.TearingDown]
      · simp [ends, point, lifecycle]
    | closing =>
      simp only [lifecycle] at taken
      obtain rfl := Option.some.inj taken
      apply attentive.steady fits calm rfl rfl rfl (Or.inl lifecycle.symm)
      · simp [Point.TearingDown]
      · simp [ends, point, lifecycle]
    | closed =>
      simp only [lifecycle] at taken
      obtain rfl := Option.some.inj taken
      have leaves := leaveClose_leaves closer false server.impl
      apply attentive.steady fits calm leaves.worker leaves.stop leaves.failed
        (Or.inl leaves.lifecycle)
      · exact leaves.point.imp id fun idle => by simp [idle, Point.TearingDown]
      · exact fun _ => ⟨Or.inl lifecycle, shut (Or.inl lifecycle)⟩
    | quarantined =>
      simp only [lifecycle] at taken
      obtain rfl := Option.some.inj taken
      have leaves := leaveClose_leaves closer false server.impl
      apply attentive.steady fits calm leaves.worker leaves.stop leaves.failed
        (Or.inl leaves.lifecycle)
      · exact leaves.point.imp id fun idle => by simp [idle, Point.TearingDown]
      · exact fun _ => ⟨Or.inr lifecycle, shut (Or.inr lifecycle)⟩
  | checkingBeforeDrain closer =>
    simp only [point, Option.or_none] at taken
    obtain rfl := Option.some.inj taken
    apply attentive.steady fits calm rfl rfl rfl (Or.inl rfl)
    · dsimp only
      split <;> simp [Point.TearingDown]
    · simp [ends, point]
  | draining closer =>
    simp only [point, Option.or_none] at taken
    obtain rfl := Option.some.inj taken
    apply attentive.steady fits calm rfl rfl rfl (Or.inl rfl)
    · dsimp only
      split <;> simp [Point.TearingDown]
    · simp [ends, point]
  | drainFailed closer =>
    simp only [Owns, point] at owns
    simp only [point, Option.or_none] at taken
    obtain rfl := Option.some.inj taken
    apply attentive.steady fits calm (leaveClose_leaves ..).worker (leaveClose_leaves ..).stop
      (leaveClose_leaves ..).failed
    · right
      rw [(leaveClose_leaves ..).lifecycle]
      refine ⟨owns.1.1, ?_⟩
      dsimp only
      split
      · exact owns.1.1
      · exact Or.inl rfl
    · exact (leaveClose_leaves ..).point.imp id fun idle => by simp [idle, Point.TearingDown]
    · simp [ends, point]
  | checkingAfterDrain closer =>
    simp only [point, Option.or_none] at taken
    split at taken
    · obtain rfl := Option.some.inj taken
      apply attentive.steady fits calm rfl rfl rfl (Or.inl rfl)
      · simp [Point.TearingDown]
      · simp [ends, point]
    · obtain rfl := Option.some.inj taken
      apply attentive.steady fits calm rfl rfl rfl (Or.inl rfl)
      · simp [Point.TearingDown]
      · simp [ends, point]
  | terminating closer =>
    simp only [point, Option.or_none] at taken
    split at taken
    · next works =>
      obtain rfl := Option.some.inj taken
      apply attentive.steady fits calm rfl rfl rfl (Or.inl rfl)
      · simp [Point.TearingDown]
      · simp [ends, point, works]
    · next fails =>
      obtain rfl := Option.some.inj taken
      have leaves := leaveClose_leaves closer true server.impl
      apply attentive.steady fits calm leaves.worker leaves.stop leaves.failed
        (Or.inl leaves.lifecycle)
      · exact leaves.point.imp id fun idle => by simp [idle, Point.TearingDown]
      · simp [ends, point, fails]
  | quarantineEntered quarantiner =>
    simp only [point, Option.none_or] at taken
    have unreturned : .returned ∉ ends succeeds server.impl := by
      unfold ends
      simp only [point]
      cases quarantiner with
      | closer closer =>
        dsimp only
        split <;> simp
      | destructor => simp
    split at taken
    · obtain rfl := Option.some.inj taken
      have leaves := leaveQuarantine_leaves quarantiner server.impl
      apply attentive.steady fits calm leaves.worker leaves.stop leaves.failed
        (Or.inl leaves.lifecycle)
      · exact leaves.point.imp id fun idle => by simp [idle, Point.TearingDown]
      · exact fun returned => absurd returned unreturned
    · obtain rfl := Option.some.inj taken
      apply attentive.steady fits calm rfl rfl rfl (Or.inl rfl)
      · simp [Point.TearingDown]
      · exact fun returned => absurd returned unreturned
  | stopping teardown => exact absurd point (going teardown)
  | joining teardown => exact absurd (by rw [point]; trivial) calm
  | resetting teardown => exact absurd (by rw [point]; trivial) calm
  | settling teardown => exact absurd (by rw [point]; trivial) calm
  | unregistering teardown => exact absurd (by rw [point]; trivial) calm
  | gone => exact absurd (by rw [point]; trivial) calm
  | unborn => simp [point] at taken
  | registering => simp [point] at taken
  | configuring => simp [point] at taken
  | creating => simp [point] at taken
  | spawning => simp [point] at taken
  | launching => simp [point] at taken
  | cancelling => simp [point] at taken
  | starting => simp [point] at taken
  | abandoning => simp [point] at taken
  | unwinding => simp [point] at taken
  | idle => simp [point] at taken

/-- A statement of a teardown: it goes from one to the next without a call that leaves. -/
theorem Attentive.torn {tears : Impl} (attentive : Attentive server) (fits : Fits tears)
    (follows : Follows { server with impl := tears })
    (flagged : tears.workerFailed = true → tears.worker = .ended ∨ tears.worker = .joined)
    (closed : tears.lifecycle = .closed → Done { server with impl := tears })
    (quarantined : tears.lifecycle = .quarantined → .reported ∈ server.outcomes ∨
      tears.point = .gone ∨ ∃ quarantiner, tears.point = .unregistering (.quarantine quarantiner))
    (joined : server.impl.worker = .joined → tears.worker = .joined) :
    Attentive { server with impl := tears, outcomes := server.outcomes ++ [] } := by
  rw [List.append_nil]
  refine ⟨fits, follows, flagged, attentive.counts, closed, quarantined, ?_, attentive.heeded⟩
  intro returned
  exact joined (attentive.returned returned)

/-- A lifecycle is not both settled and unsettled. -/
theorem LifecycleState.Unsettled.not_settled {lifecycle : LifecycleState}
    (unsettled : lifecycle.Unsettled) : ¬ lifecycle.Settled := by
  rintro (settled | settled) <;> rcases unsettled with unsettled | unsettled <;>
    exact absurd (settled.symm.trans unsettled) (by simp)

theorem stopping_attentive {teardown : Teardown} {succeeds : Bool} (attentive : Attentive server)
    (prompt : Prompt server (.advance succeeds))
    (stopping : server.impl.point = .stopping teardown) :
    Attentive { server with
      impl := { server.impl with workerStop := true, point := .joining teardown }
      outcomes := server.outcomes ++ [] } := by
  have owns := attentive.fits.owns
  simp only [Owns, stopping] at owns
  have fits : Fits { server.impl with workerStop := true, point := .joining teardown } :=
    tearsDown_fits attentive.fits (by simp [tearsDown, stopping])
  have unsettled := owns.1.1.not_settled
  apply attentive.torn fits
  · refine ⟨?_, by simp, by simp [Point.TearingDown]⟩
    intro closer same
    obtain rfl : teardown = .close closer := Point.joining.inj same
    have runs : server.impl.worker = .running := by
      simpa only [Prompt, stopping] using prompt
    have unfailed : server.failedEarly = false := by
      by_contra early
      have known : Known server := by
        rcases attentive.follows.before (by simp [stopping, Point.TearingDown]) with
          settled | ⟨-, known⟩
        · exact absurd settled unsettled
        · exact known
      rcases known (eq_true_of_ne_false early) with failed | failing | recording
      · rcases attentive.flagged failed with ended | joined
        · exact absurd (runs.symm.trans ended) (by simp)
        · exact absurd (runs.symm.trans joined) (by simp)
      · exact absurd (runs.symm.trans failing) (by simp)
      · exact absurd (runs.symm.trans recording) (by simp)
    exact ⟨rfl, unfailed, Or.inl runs⟩
  · exact attentive.flagged
  · intro closed
    exact absurd (Or.inl closed) unsettled
  · intro quarantined
    exact absurd (Or.inr quarantined) unsettled
  · exact id

theorem joining_attentive {teardown : Teardown} (attentive : Attentive server)
    (joining : server.impl.point = .joining teardown) (ended : server.impl.worker = .ended) :
    Attentive { server with
      impl := { server.impl with worker := .joined, point := .resetting teardown }
      outcomes := server.outcomes ++ [] } := by
  have owns := attentive.fits.owns
  simp only [Owns, joining] at owns
  have fits : Fits { server.impl with worker := .joined, point := .resetting teardown } :=
    tearsDown_fits attentive.fits (by simp [tearsDown, joining, ended])
  have unsettled := owns.1.1.not_settled
  apply attentive.torn fits
  · refine ⟨by simp, ?_, by simp [Point.TearingDown]⟩
    rintro closer (same | same | same)
    · obtain rfl : teardown = .close closer := Point.resetting.inj same
      have finishing := attentive.follows.joining closer joining
      have idle : server.activity ≠ .handling := by
        rcases finishing.finishes with running | idle
        · exact absurd (ended.symm.trans running) (by simp)
        · exact idle
      have counts := attentive.counts
      rw [if_neg idle, Nat.add_zero] at counts
      exact ⟨rfl, finishing.early, counts⟩
    · simp at same
    · simp at same
  · exact fun _ => Or.inr rfl
  · intro closed
    exact absurd (Or.inl closed) unsettled
  · intro quarantined
    exact absurd (Or.inr quarantined) unsettled
  · exact fun _ => rfl

theorem resetting_attentive {teardown : Teardown} (attentive : Attentive server)
    (resetting : server.impl.point = .resetting teardown) :
    Attentive { server with
      impl := { server.impl with runtime := false, point := .settling teardown }
      outcomes := server.outcomes ++ [] } := by
  have owns := attentive.fits.owns
  simp only [Owns, resetting] at owns
  have fits : Fits { server.impl with runtime := false, point := .settling teardown } :=
    tearsDown_fits attentive.fits (by simp [tearsDown, resetting])
  have unsettled := owns.2.1.not_settled
  apply attentive.torn fits
  · refine ⟨by simp, ?_, by simp [Point.TearingDown]⟩
    rintro closer (same | same | same)
    · simp at same
    · obtain rfl : teardown = .close closer := Point.settling.inj same
      have done := attentive.follows.joined closer (Or.inl resetting)
      exact ⟨done.joined, done.early, done.accounted⟩
    · simp at same
  · exact attentive.flagged
  · intro closed
    exact absurd (Or.inl closed) unsettled
  · intro quarantined
    exact absurd (Or.inr quarantined) unsettled
  · exact id

theorem settling_attentive {teardown : Teardown} (attentive : Attentive server)
    (settling : server.impl.point = .settling teardown) :
    Attentive { server with
      impl := { server.impl with lifecycle := teardown.target, point := .unregistering teardown }
      outcomes := server.outcomes ++ [] } := by
  have fits : Fits { server.impl with
      lifecycle := teardown.target, point := .unregistering teardown } :=
    tearsDown_fits attentive.fits (by simp [tearsDown, settling])
  have done : ∀ closer, teardown = .close closer → Done server := by
    rintro closer rfl
    exact attentive.follows.joined closer (Or.inr (Or.inl settling))
  apply attentive.torn fits
  · refine ⟨by simp, ?_, by simp [Point.TearingDown]⟩
    rintro closer (same | same | same)
    · simp at same
    · simp at same
    · have known := done closer (Point.unregistering.inj same)
      exact ⟨known.joined, known.early, known.accounted⟩
  · exact attentive.flagged
  · intro closed
    cases teardown with
    | close closer =>
      have known := done closer rfl
      exact ⟨known.joined, known.early, known.accounted⟩
    | quarantine quarantiner => simp [Teardown.target] at closed
  · intro quarantined
    cases teardown with
    | close closer => simp [Teardown.target] at quarantined
    | quarantine quarantiner => exact Or.inr (Or.inr ⟨quarantiner, rfl⟩)
  · exact id

/-- The last statement of a teardown: the call that tore the server down ends. -/
theorem unregistering_attentive {teardown : Teardown} (succeeds : Bool)
    (attentive : Attentive server) (unregistering : server.impl.point = .unregistering teardown) :
    Attentive { server with
      impl := leaveTeardown teardown
        { server.impl with registered := false, releases := server.impl.releases + 1 }
      outcomes := server.outcomes ++ ends succeeds server.impl } := by
  have owns := attentive.fits.owns
  simp only [Owns, unregistering] at owns
  obtain ⟨⟨-, -, joined⟩, lifecycle, -⟩ := owns
  have fits : Fits (leaveTeardown teardown
      { server.impl with registered := false, releases := server.impl.releases + 1 }) :=
    proceed_fits attentive.fits
      (show proceed succeeds server.impl = some _ by simp [proceed, unregistering])
  have leaves := leaveTeardown_leaves teardown
    { server.impl with registered := false, releases := server.impl.releases + 1 }
  have outside : (leaveTeardown teardown { server.impl with
      registered := false, releases := server.impl.releases + 1 }).lifecycle.Settled := by
    rw [leaves.lifecycle]
    change server.impl.lifecycle.Settled
    rw [lifecycle]
    cases teardown with
    | close closer => exact Or.inl rfl
    | quarantine quarantiner => exact Or.inr rfl
  have finished : ∀ closer, teardown = .close closer → Done server := by
    rintro closer rfl
    exact attentive.follows.joined closer (Or.inr (Or.inr unregistering))
  refine ⟨fits, ⟨?_, ?_, fun _ => Or.inl outside⟩, ?_, attentive.counts, ?_, ?_, ?_, ?_⟩
  · intro closer same
    rcases leaves.point with point | point <;> exact absurd (same.symm.trans point) (by simp)
  · intro closer same
    rcases leaves.point with point | point <;> rcases same with same | same | same <;>
      exact absurd (same.symm.trans point) (by simp)
  · intro _
    exact Or.inr (leaves.worker.trans joined)
  · intro closed
    cases teardown with
    | close closer =>
      have done := finished closer rfl
      exact ⟨leaves.worker.trans joined, done.early, done.accounted⟩
    | quarantine quarantiner =>
      have settled := (leaves.lifecycle.trans lifecycle).symm.trans closed
      simp [Teardown.target] at settled
  · intro quarantined
    cases teardown with
    | close closer =>
      have settled := (leaves.lifecycle.trans lifecycle).symm.trans quarantined
      simp [Teardown.target] at settled
    | quarantine quarantiner =>
      cases quarantiner with
      | closer closer => exact Or.inl (by simp [ends, unregistering])
      | destructor => exact Or.inr (Or.inl rfl)
  · intro _
    exact leaves.worker.trans joined
  · intro listed
    cases teardown with
    | close closer =>
      have done := finished closer rfl
      exact Or.inl ⟨done.early, done.accounted⟩
    | quarantine quarantiner =>
      cases quarantiner with
      | closer closer => exact Or.inr (by simp [ends, unregistering])
      | destructor =>
        have old : .returned ∈ server.outcomes := by simpa [ends, unregistering] using listed
        rcases attentive.heeded old with done | known
        · exact Or.inl done
        · exact Or.inr (List.mem_append_left _ known)

theorem advance_attentive {succeeds : Bool} (attentive : Attentive server)
    (prompt : Prompt server (.advance succeeds))
    (taken : proceed succeeds server.impl = some next) :
    Attentive { server with
      impl := next, outcomes := server.outcomes ++ ends succeeds server.impl } := by
  have unended : ∀ teardown, server.impl.point = .stopping teardown ∨
      server.impl.point = .joining teardown ∨ server.impl.point = .resetting teardown ∨
      server.impl.point = .settling teardown → ends succeeds server.impl = [] := by
    rintro teardown (point | point | point | point) <;> simp [ends, point]
  cases point : server.impl.point with
  | stopping teardown =>
    rw [unended teardown (Or.inl point)]
    simp only [proceed, closes, tearsDown, point, Option.none_or, Option.some.injEq] at taken
    obtain rfl := taken
    exact stopping_attentive attentive prompt point
  | joining teardown =>
    rw [unended teardown (Or.inr (Or.inl point))]
    have live := attentive.fits.owns
    simp only [Owns, point] at live
    simp only [proceed, closes, tearsDown, point, Option.none_or] at taken
    split at taken
    · next absent => exact absurd absent live.1.2.2.2.1
    · next joined => exact absurd joined live.1.2.2.2.2.2
    · next ended =>
      obtain rfl := Option.some.inj taken
      exact joining_attentive attentive point ended
    · cases taken
  | resetting teardown =>
    rw [unended teardown (Or.inr (Or.inr (Or.inl point)))]
    simp only [proceed, closes, tearsDown, point, Option.none_or, Option.some.injEq] at taken
    obtain rfl := taken
    exact resetting_attentive attentive point
  | settling teardown =>
    rw [unended teardown (Or.inr (Or.inr (Or.inr point)))]
    simp only [proceed, closes, tearsDown, point, Option.none_or, Option.some.injEq] at taken
    obtain rfl := taken
    exact settling_attentive attentive point
  | unregistering teardown =>
    have left := unregistering_attentive succeeds attentive point
    unfold proceed at taken
    simp only [point] at taken
    obtain rfl := Option.some.inj taken
    simpa only [point] using left
  | gone => simp [proceed, closes, tearsDown, point] at taken
  | _ =>
    exact calm_attentive attentive taken (by simp [point, Point.TearingDown]) (by simp [point])

/-! ## Runs -/

theorem enter_attentive {index : Nat} (attentive : Attentive server)
    (taken : enter index server.impl = some next) : Attentive { server with impl := next } := by
  have fits := enter_fits attentive.fits taken
  unfold enter at taken
  split at taken
  · next idle =>
    obtain ⟨call, -, rfl⟩ := Option.map_eq_some_iff.mp taken
    have calm : ¬ server.impl.point.TearingDown := by simp [idle, Point.TearingDown]
    rw [← List.append_nil server.outcomes]
    apply attentive.steady fits calm rfl rfl rfl (Or.inl rfl)
    · right
      cases call <;> simp [Point.TearingDown]
    · exact fun impossible => absurd impossible List.not_mem_nil
  · cases taken

/-- A longer queue for the mutex changes nothing. -/
theorem queue_attentive (attentive : Attentive server) (waiting : List Waiting)
    (destroying : Bool) :
    Attentive { server with impl := { server.impl with waiting, destroying } } where
  fits := (queue_private attentive.fits waiting destroying).fits
  follows := {
    joining := fun closer joining =>
      let finishing := attentive.follows.joining closer joining
      ⟨finishing.told, finishing.early, finishing.finishes⟩
    joined := fun closer torn =>
      let done := attentive.follows.joined closer torn
      ⟨done.joined, done.early, done.accounted⟩
    before := attentive.follows.before }
  flagged := attentive.flagged
  counts := attentive.counts
  closed := fun closed =>
    let done := attentive.closed closed
    ⟨done.joined, done.early, done.accounted⟩
  quarantined := attentive.quarantined
  returned := attentive.returned
  heeded := attentive.heeded

theorem step_attentive {action : ShutdownAction} (attentive : Attentive server)
    (prompt : Prompt server action) (taken : shutdownStep server action = some after) :
    Attentive after := by
  cases action with
  | callClose =>
    simp only [shutdownStep] at taken
    split at taken
    · obtain rfl := Option.some.inj taken
      exact queue_attentive attentive _ _
    · cases taken
  | destroy =>
    simp only [shutdownStep] at taken
    split at taken
    · obtain rfl := Option.some.inj taken
      exact queue_attentive attentive _ _
    · cases taken
  | enter index =>
    obtain ⟨next, entered, rfl⟩ := Option.map_eq_some_iff.mp taken
    exact enter_attentive attentive entered
  | advance succeeds =>
    obtain ⟨next, advanced, rfl⟩ := Option.map_eq_some_iff.mp taken
    exact advance_attentive attentive prompt advanced
  | work action => exact works_attentive attentive prompt taken

/-- A server as its constructor leaves it has nothing to report. -/
theorem launched_attentive : Attentive .launched where
  fits := {
    owns := Or.inl ⟨Or.inl rfl, rfl, rfl, by simp [Shutdown.launched, Impl.launched, Worker.Live]⟩
    history := ⟨rfl, Nat.le_refl _, nofun, nofun⟩ }
  follows := {
    joining := by simp [Shutdown.launched, Impl.launched]
    joined := by simp [Shutdown.launched, Impl.launched]
    before := fun _ => Or.inr ⟨rfl, nofun⟩ }
  flagged := nofun
  counts := rfl
  closed := nofun
  quarantined := nofun
  returned := nofun
  heeded := nofun

/-- The constructor leaves a server so, with the gate of its worker open. -/
theorem constructor_launches :
    (constructs true { Impl.launched with
      lifecycle := .constructing, worker := .gated, point := .starting }) = some .launched := rfl

/-- A call of `close` that finds a failure recorded when it begins can go on, and then ends
by reporting it. -/
def Reports (server : Shutdown) : Prop :=
  ∀ closer, server.impl.point = .entered closer → server.impl.workerFailed = true →
    server.impl.lifecycle.Unsettled → ∃ actions after,
      Run.execute shutdownMove server actions = some (after, []) ∧
        after.outcomes = server.outcomes ++ [.reported]

/-- Some actions end the call with the report of the failure. -/
def Reporting (server : Shutdown) : Prop :=
  ∃ actions after, Run.execute shutdownMove server actions = some (after, []) ∧
    after.outcomes = server.outcomes ++ [.reported]

/-- A step of the owner that ends no call comes before the report. -/
theorem Reporting.advance {impl : Impl} (proceeds : proceed true server.impl = some impl)
    (quiet : ends true server.impl = []) (reporting : Reporting { server with impl }) :
    Reporting server := by
  obtain ⟨actions, after, executed, reported⟩ := reporting
  refine ⟨.advance true :: actions, after, ?_, reported⟩
  have stepped : shutdownMove server (.advance true) = some ({ server with impl }, []) := by
    simp [shutdownMove, shutdownStep, proceeds, quiet]
  simp only [Run.execute, stepped, Option.bind_some, executed, Option.map_some, List.nil_append]

/-- The mutex goes to a waiting call. -/
theorem Reporting.enter {impl : Impl} {index : Nat}
    (entered : ServerLifecycle.enter index server.impl = some impl)
    (reporting : Reporting { server with impl }) : Reporting server := by
  obtain ⟨actions, after, executed, reported⟩ := reporting
  refine ⟨.enter index :: actions, after, ?_, reported⟩
  have stepped : shutdownMove server (.enter index) = some ({ server with impl }, []) := by
    simp [shutdownMove, shutdownStep, entered]
  simp only [Run.execute, stepped, Option.bind_some, executed, Option.map_some, List.nil_append]

/-- A quarantine that a close called ends with the report, once the worker has ended. -/
theorem quarantine_reports {closer : Closer}
    (entered : server.impl.point = .quarantineEntered (.closer closer))
    (ended : server.impl.worker = .ended) (unsettled : server.impl.lifecycle = .closing) :
    Reporting server := by
  have begins : proceed true server.impl =
      some { server.impl with point := .stopping (.quarantine (.closer closer)) } := by
    simp [proceed, closes, tearsDown, entered, unsettled]
  refine .advance begins (by simp [ends, entered, unsettled]) ?_
  refine .advance rfl rfl ?_
  have joins : proceed true { server.impl with
      workerStop := true, point := .joining (.quarantine (.closer closer)) } =
      some { server.impl with
        workerStop := true, worker := .joined
        point := .resetting (.quarantine (.closer closer)) } := by
    simp [proceed, closes, tearsDown, ended]
  refine .advance joins rfl ?_
  refine .advance rfl rfl ?_
  refine .advance rfl rfl ?_
  exact ⟨[.advance true], _, rfl, rfl⟩

/-- A close that finds the failure before it terminates the device calls the quarantine. -/
theorem checkingAfterDrain_reports {closer : Closer}
    (checking : server.impl.point = .checkingAfterDrain closer)
    (failed : server.impl.workerFailed = true) (ended : server.impl.worker = .ended)
    (unsettled : server.impl.lifecycle = .closing) : Reporting server := by
  have calls : proceed true server.impl = some { server.impl with
      point := .idle, waiting := server.impl.waiting ++ [.quarantine (.closer closer)] } := by
    simp [proceed, closes, checking, failed]
  refine .advance calls (by simp [ends, checking]) ?_
  have entered : ServerLifecycle.enter server.impl.waiting.length { server.impl with
      point := .idle, waiting := server.impl.waiting ++ [.quarantine (.closer closer)] } =
      some { server.impl with point := .quarantineEntered (.closer closer) } := by
    simp [ServerLifecycle.enter, List.eraseIdx_append_of_length_le]
  exact .enter entered (quarantine_reports rfl ended unsettled)

/-- A recorded failure is reported, since the worker has ended and the quarantine cannot
fail. -/
theorem Attentive.reports (attentive : Attentive server) : Reports server := by
  intro closer entered failed unsettled
  have owns := attentive.fits.owns
  simp only [Owns, entered] at owns
  have ended : server.impl.worker = .ended := by
    rcases attentive.flagged failed with ended | joined
    · exact ended
    · rcases owns with ⟨-, -, -, -, -, unjoined⟩ | ⟨settled, -⟩
      · exact absurd joined unjoined
      · exact absurd settled unsettled.not_settled
  rcases unsettled with ready | closing
  · have closes : proceed true server.impl = some { server.impl with
        lifecycle := .closing, point := .checkingBeforeDrain closer } := by
      simp [proceed, ServerLifecycle.closes, entered, ready]
    have checks : proceed true { server.impl with
        lifecycle := .closing, point := .checkingBeforeDrain closer } =
        some { server.impl with lifecycle := .closing, point := .checkingAfterDrain closer } := by
      simp [proceed, ServerLifecycle.closes, failed]
    refine Reporting.advance closes (by simp [ends, entered, ready]) ?_
    exact .advance checks rfl (checkingAfterDrain_reports rfl failed ended rfl)
  · have checks : proceed true server.impl =
        some { server.impl with point := .checkingAfterDrain closer } := by
      simp [proceed, closes, entered, closing]
    refine Reporting.advance checks (by simp [ends, entered, closing]) ?_
    exact checkingAfterDrain_reports rfl failed ended closing

/-- A prompt close swallows no failure of the worker.

For every interleaving of the calls of `close` with the worker in which each step is
prompt, in every state reached: if a call of `close` has returned, the worker threw
nothing before it was told to stop and completed every request that it accepted, unless a
call of `close` has reported the failure. And a call that begins when a failure is recorded
can go on and reports it.

Proof: before the stop an exception is in the flag or in the hands of the worker, so a
worker that still runs then has thrown nothing; afterwards it throws between requests
only, so that the join finds all of them completed. -/
theorem close_heeds_failures {trace : List Empty}
    (run : Run (TakesWhere shutdownMove Prompt) .launched trace server) :
    Heeded server ∧ Reports server := by
  have attentive : Attentive server := by
    apply run.invariant Attentive launched_attentive
    rintro before events last attentive ⟨action, prompt, moved⟩
    obtain ⟨stepped, taken, same⟩ := Option.map_eq_some_iff.mp moved
    obtain rfl := (Prod.mk.inj same).1
    exact step_attentive attentive prompt taken
  exact ⟨attentive.heeded, attentive.reports⟩

/-- A close while the worker completes a request. -/
def quietClose : List ShutdownAction :=
  [.work .looks, .work (.polls true), .callClose, .enter 0, .advance true, .advance true,
    .advance true, .work .completes, .advance true, .advance true, .advance true, .work .looks,
    .advance true, .advance true, .advance true, .advance true]

/-- It returns with the request completed. -/
theorem quiet_close_heeds : ∃ trace server,
    Run (TakesWhere shutdownMove Prompt) .launched trace server ∧
      server.outcomes = [.returned] ∧ server.accepted = 1 ∧ Heeded server := by
  have ends : (Run.execute (guarded shutdownMove Prompt) .launched quietClose).map
      (fun last => (last.1.outcomes, last.1.accepted)) = some ([.returned], 1) := by
    decide +kernel
  cases executed : Run.execute (guarded shutdownMove Prompt) .launched quietClose with
  | none =>
    rw [executed] at ends
    cases ends
  | some last =>
    obtain ⟨server, trace⟩ := last
    rw [executed] at ends
    simp only [Option.map_some, Option.some.injEq, Prod.mk.injEq] at ends
    have run := (Run.Run.execute .start executed).mono fun _ _ _ => Run.guarded_takes
    exact ⟨trace, server, run, ends.1, ends.2, (close_heeds_failures run).1⟩

/-- A close whose last look at the flag comes before the worker throws, while the device
program is terminated. -/
def hastyClose : List ShutdownAction :=
  [.work .looks, .work (.polls true), .callClose, .enter 0, .advance true, .advance true,
    .advance true, .advance true, .work .throws, .work .continues, .work .continues,
    .advance true, .advance true, .advance true, .advance true, .advance true, .advance true]

/-- It returns although the worker has recorded that it failed on a request. -/
theorem hasty_close_swallows :
    ¬ ∀ trace server, Run (Takes shutdownMove) .launched trace server → Heeded server := by
  intro claim
  have ends : (Run.execute shutdownMove .launched hastyClose).map (fun last =>
      (last.1.outcomes, last.1.impl.workerFailed, last.1.failedEarly)) =
        some ([.returned], true, true) := by
    decide +kernel
  cases executed : Run.execute shutdownMove .launched hastyClose with
  | none =>
    rw [executed] at ends
    cases ends
  | some last =>
    obtain ⟨server, trace⟩ := last
    rw [executed] at ends
    simp only [Option.map_some, Option.some.injEq, Prod.mk.injEq] at ends
    obtain ⟨outcomes, -, early⟩ := ends
    have heeded := claim trace server (Run.Run.execute .start executed)
    simp [Heeded, outcomes, early] at heeded

end KvCache.ServerLifecycle
