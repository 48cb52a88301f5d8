import KvCache.Foundation.WrappedCounter
import KvCache.Server.CommitFrontier

/-!
# Waiting for the commit frontier

A wait that succeeds has seen the frontier reach the PUTs issued when it started, and a wait
that does not has seen it behind them. The account of a run says which counts the words stand
for: the frontier is behind the publications and may be one ahead of the count of NCRISC, and a
target is not half of the range ahead of the frontier. A drain of the host may be overtaken by
so many PUTs that its target comes to lie half of the range behind, which NCRISC cannot, since
it issues no PUT while it waits.
-/

namespace KvCache.Server.CommitFrontier

open Function Layout.Word Run WrappedCounter

/-! ## What words stand for -/

/-- The word of a count. -/
def word (base count : Nat) : Nat := u32 (base + count)

variable {base limit observed target : Nat} {state after : State} {events : List Event}

theorem cumulativeCounterIsAhead_eq (candidate baseline : Nat) :
    cumulativeCounterIsAhead candidate baseline = isAhead (2 ^ 32) candidate baseline := by
  have half : ∀ delta, decide (delta < 2 ^ 31) = decide (2 * delta < 2 ^ 32) := by
    intro delta
    rw [decide_eq_decide]
    omega
  rw [cumulativeCounterIsAhead, isAhead, half]
  rfl

theorem word_succ (base count : Nat) : u32 (word base count + 1) = word base (count + 1) := by
  rw [word, word, u32, u32, u32, Nat.mod_add_mod, Nat.add_assoc]

/-- A poll that accepts is right, however far the word is ahead. -/
theorem reached_of_reaches (behind : target < observed + 2 ^ 31)
    (accepts : reaches (word base observed) (word base target) = true) : target ≤ observed := by
  rw [reaches, Bool.or_eq_true, beq_iff_eq, cumulativeCounterIsAhead_eq] at accepts
  rcases accepts with same | ahead
  · rcases Nat.lt_or_ge observed target with less | reached
    · have counts := (mod_eq_iff (by omega) (by omega)).mp same
      omega
    · exact reached
  · have counts := reached_of_isAhead (by omega) ahead
    omega

/-- A poll accepts a word that has reached its target and is not half of the range ahead. -/
theorem reaches_of_reached (reached : target ≤ observed) (ahead : observed < target + 2 ^ 31) :
    reaches (word base observed) (word base target) = true := by
  rw [reaches, Bool.or_eq_true, beq_iff_eq, cumulativeCounterIsAhead_eq]
  rcases Nat.eq_or_lt_of_le reached with same | more
  · exact Or.inl (by rw [same])
  · exact Or.inr ((isAhead_iff (by omega) (by omega)).mpr (by omega))

/-! ## The account of a run -/

/-- The PUT that NCRISC completes. -/
def Dispatch.completes : Dispatch → Option Nat
  | .published put | .counted put | .stored put => some put
  | _ => none

/-- The PUTs are consumed in the order of their publication, each with its fate; the words
stand for the PUTs counted, shown and consumed; and a PUT has landed only after its count was
shown. -/
structure Accounted (base : Nat) (state : State) : Prop where
  fifo : state.committed ++ (state.streamTail.toList ++ state.putHostQueue) =
    List.range state.published
  fate : ∀ put ∈ state.committed, put ∈ state.hostBacked ∨ put ∈ state.displaced
  alone : state.dispatch = .receiving true → state.putHostQueue = []
  latest : ∀ put, state.dispatch.completes = some put → put + 1 = state.published
  total : state.putIssuedTotal = word base state.issued
  shows : state.commitIssued = word base state.shown
  done : state.commitDone = word base state.committed.length
  landed : ∀ put ∈ state.landed, put < state.shown

/-- What a wait relies on: its target is the word of PUTs that were published, not half of the
range ahead of those consumed, and the PUTs that had landed are among them. -/
structure Sound (base : Nat) (state : State) (wait : Wait) : Prop where
  target : wait.target = word base wait.issued
  issued : wait.issued ≤ state.published
  near : wait.issued < state.committed.length + 2 ^ 31
  landed : ∀ put ∈ wait.landed, put < wait.issued

/-- The waits of a state. NCRISC publishes nothing while it waits. -/
structure Waits (base : Nat) (state : State) : Prop where
  drains : ∀ caller wait, state.drains caller = some wait →
    wait.waiter = .drain caller ∧ Sound base state wait
  waiting : ∀ wait, state.dispatch = .waiting wait →
    wait.issued = state.published ∧ Sound base state wait

/-- What is consumed was published. -/
theorem Accounted.committed_le (accounted : Accounted base state) :
    state.committed.length ≤ state.published := by
  have lengths := congrArg List.length accounted.fifo
  rw [List.length_append, List.length_range] at lengths
  omega

/-- The consumed PUTs are the first ones. -/
theorem Accounted.mem_committed (accounted : Accounted base state) {put : Nat}
    (early : put < state.committed.length) : put ∈ state.committed := by
  have few := accounted.committed_le
  have prefixed : state.committed = List.range state.committed.length := by
    have taken := congrArg (List.take state.committed.length) accounted.fifo
    rwa [List.take_left, List.take_range, Nat.min_eq_left few] at taken
  rw [prefixed]
  exact List.mem_range.mpr early

/-- The counts lag behind the publications by the PUT that NCRISC completes. -/
theorem shown_le (state : State) :
    state.shown ≤ state.issued ∧ state.issued ≤ state.published := by
  rw [State.shown, State.issued]
  cases state.dispatch with
  | published put => exact ⟨Nat.le_refl _, Nat.sub_le _ _⟩
  | counted put => exact ⟨Nat.sub_le _ _, Nat.le_refl _⟩
  | _ => exact ⟨Nat.le_refl _, Nat.le_refl _⟩

/-- While NCRISC completes no PUT, every publication is counted and shown. -/
theorem counts_of_none {dispatch : Dispatch} (completes : dispatch.completes = none)
    (published : Nat) :
    dispatch.issued published = published ∧ dispatch.shown published = published := by
  cases dispatch with
  | published put | counted put => exact nomatch completes
  | _ => exact ⟨rfl, rfl⟩

/-! ## Steps keep the account -/

/-- NCRISC goes on without a PUT to complete. -/
theorem Accounted.goTo (accounted : Accounted base state) {dispatch : Dispatch}
    (before : state.dispatch.completes = none) (later : dispatch.completes = none)
    (alone : dispatch = .receiving true → state.putHostQueue = []) :
    Accounted base { state with dispatch := dispatch } := by
  obtain ⟨issued, shown⟩ := counts_of_none before state.published
  obtain ⟨issuedLater, shownLater⟩ := counts_of_none later state.published
  have total : state.putIssuedTotal = word base (dispatch.issued state.published) := by
    rw [issuedLater, ← issued]
    exact accounted.total
  have shows : state.commitIssued = word base (dispatch.shown state.published) := by
    rw [shownLater, ← shown]
    exact accounted.shows
  have landed : ∀ put ∈ state.landed, put < dispatch.shown state.published := by
    rw [shownLater, ← shown]
    exact accounted.landed
  exact { accounted with
    alone := alone
    latest := fun put now => nomatch later.symm.trans now
    total := total
    shows := shows
    landed := landed }

/-- BRISC publishes a PUT. -/
theorem Accounted.publish (accounted : Accounted base state) {streams : Bool}
    (receiving : state.dispatch = .receiving streams) (tail : state.streamTail = none) :
    Accounted base (state.publish streams) := by
  have fifo : state.committed ++ state.putHostQueue = List.range state.published := by
    have before := accounted.fifo
    rwa [tail] at before
  have counts : state.issued = state.published ∧ state.shown = state.published := by
    rw [State.issued, State.shown, receiving]
    exact ⟨rfl, rfl⟩
  have total := accounted.total
  have shows := accounted.shows
  have landed := accounted.landed
  rw [counts.1] at total
  rw [counts.2] at shows landed
  refine ⟨?_, accounted.fate, nofun, ?_, total, shows, accounted.done, landed⟩
  · cases streams with
    | true =>
      have empty := accounted.alone receiving
      rw [empty, List.append_nil] at fifo
      change state.committed ++ ([state.published] ++ state.putHostQueue) = _
      rw [empty, List.append_nil, fifo]
      exact List.range_succ.symm
    | false =>
      change state.committed ++ (state.putHostQueue ++ [state.published]) = _
      rw [← List.append_assoc, fifo]
      exact List.range_succ.symm
  · intro put now
    rw [← Option.some.inj now]
    rfl

/-- BRISC counts the PUT that it has taken from the front. -/
theorem Accounted.countCommit (accounted : Accounted base state) {put : Nat}
    {tail : Option Nat} {rest hostBacked : List Nat}
    (front : state.streamTail.toList ++ state.putHostQueue = put :: (tail.toList ++ rest))
    (alone : state.putHostQueue = [] → rest = [])
    (kept : ∀ other ∈ state.hostBacked, other ∈ hostBacked)
    (fate : put ∈ hostBacked ∨ put ∈ state.displaced) :
    Accounted base { state.countCommit put with
      streamTail := tail, putHostQueue := rest, hostBacked := hostBacked } where
  fifo := by
    have before := accounted.fifo
    rw [front] at before
    change (state.committed ++ [put]) ++ (tail.toList ++ rest) = List.range state.published
    rw [List.append_assoc]
    exact before
  fate := by
    intro other member
    rcases List.mem_append.mp member with earlier | last
    · exact (accounted.fate other earlier).imp_left (kept other)
    · rw [List.mem_singleton.mp last]
      exact fate
  alone := fun receiving => alone (accounted.alone receiving)
  latest := accounted.latest
  total := accounted.total
  shows := accounted.shows
  done := by
    change u32 (state.commitDone + 1) = word base (state.committed ++ [put]).length
    rw [accounted.done, word_succ, List.length_append, List.length_singleton]
  landed := accounted.landed

/-- Every step of the device keeps the account. -/
theorem Accounted.device (accounted : Accounted base state) {action : DeviceAction}
    (stepped : deviceStep state action = some (after, events)) : Accounted base after := by
  cases action with
  | displace put =>
    simp only [deviceStep, Option.ite_none_right_eq_some, Option.some.injEq, Prod.mk.injEq]
      at stepped
    obtain ⟨-, rfl, rfl⟩ := stepped
    have fate : ∀ other ∈ state.committed,
        other ∈ state.hostBacked ∨ other ∈ put :: state.displaced :=
      fun other member => (accounted.fate other member).imp_right (List.mem_cons_of_mem put)
    exact { accounted with fate := fate }
  | prepare streams =>
    simp only [deviceStep, Option.ite_none_right_eq_some, Option.some.injEq, Prod.mk.injEq]
      at stepped
    obtain ⟨⟨⟨idle, -⟩, empty⟩, rfl, rfl⟩ := stepped
    apply accounted.goTo (by rw [idle]; rfl) rfl
    intro receiving
    injection receiving with isTrue
    exact empty isTrue
  | publish =>
    simp only [deviceStep] at stepped
    split at stepped
    · next streams receiving =>
      simp only [Option.ite_none_right_eq_some, Option.some.injEq, Prod.mk.injEq] at stepped
      obtain ⟨tail, rfl, rfl⟩ := stepped
      exact accounted.publish receiving tail
    · cases stepped
  | count =>
    simp only [deviceStep] at stepped
    split at stepped
    · next put published =>
      cases stepped
      have isLatest := accounted.latest put (by rw [published]; rfl)
      have total := accounted.total
      have shows := accounted.shows
      have landed := accounted.landed
      rw [State.issued, published] at total
      rw [State.shown, published] at shows landed
      have counted : u32 (state.putIssuedTotal + 1) = word base state.published := by
        rw [total, word_succ, ← isLatest]
        rfl
      exact { accounted with
        alone := nofun
        latest := fun _ same => Option.some.inj same ▸ isLatest
        total := counted
        shows := shows
        landed := landed }
    · cases stepped
  | store =>
    simp only [deviceStep] at stepped
    split at stepped
    · next put counted =>
      cases stepped
      have isLatest := accounted.latest put (by rw [counted]; rfl)
      have total := accounted.total
      have landed := accounted.landed
      rw [State.issued, counted] at total
      rw [State.shown, counted] at landed
      have earlier : ∀ other ∈ state.landed, other < state.published :=
        fun other member => (landed other member).trans_le (Nat.sub_le _ _)
      exact { accounted with
        alone := nofun
        latest := fun _ same => Option.some.inj same ▸ isLatest
        total := total
        shows := total
        landed := earlier }
    · cases stepped
  | land =>
    simp only [deviceStep] at stepped
    split at stepped
    · next put stored =>
      cases stepped
      have isLatest := accounted.latest put (by rw [stored]; rfl)
      have total := accounted.total
      have shows := accounted.shows
      have landed := accounted.landed
      rw [State.issued, stored] at total
      rw [State.shown, stored] at shows landed
      have now : ∀ other ∈ put :: state.landed, other < state.published := by
        intro other member
        rcases List.mem_cons.mp member with rfl | earlier
        · omega
        · exact landed other earlier
      exact { accounted with
        alone := nofun
        latest := nofun
        total := total
        shows := shows
        landed := now }
    · cases stepped
  | commitTail =>
    simp only [deviceStep] at stepped
    split at stepped
    · next put tail =>
      cases stepped
      have front : state.streamTail.toList ++ state.putHostQueue =
          put :: ((none : Option Nat).toList ++ state.putHostQueue) := by
        rw [tail]
        rfl
      exact accounted.countCommit front id (fun _ => List.mem_cons_of_mem put)
        (Or.inl (List.mem_cons_self ..))
    · cases stepped
  | commitHead =>
    simp only [deviceStep] at stepped
    split at stepped
    · next put rest tail queue =>
      cases stepped
      have front : state.streamTail.toList ++ state.putHostQueue =
          put :: (state.streamTail.toList ++ rest) := by
        rw [tail, queue]
        rfl
      have alone : state.putHostQueue = [] → rest = [] := by
        rw [queue]
        nofun
      split
      · next taken => exact accounted.countCommit front alone (fun _ => id) (Or.inr taken)
      · exact accounted.countCommit front alone (fun _ => List.mem_cons_of_mem put)
          (Or.inl (List.mem_cons_self ..))
    · cases stepped
  | commitBarrier client | exists_ client =>
    simp only [deviceStep, Option.ite_none_right_eq_some, Option.some.injEq, Prod.mk.injEq]
      at stepped
    obtain ⟨idle, rfl, rfl⟩ := stepped
    exact accounted.goTo (by rw [idle]; rfl) rfl nofun
  | pollPrefix =>
    simp only [deviceStep] at stepped
    split at stepped
    · next wait waiting =>
      have answered : Accounted base { state with dispatch := .idle } :=
        accounted.goTo (by rw [waiting]; rfl) rfl nofun
      split at stepped
      · cases stepped
        exact answered
      · split at stepped
        · cases stepped
          exact answered
        · cases stepped
          exact accounted
    · cases stepped

/-- Steps of the host do not touch what is accounted for. -/
theorem Accounted.host (accounted : Accounted base state) {action : HostAction}
    (stepped : hostStep state action = some (after, events)) : Accounted base after := by
  cases action with
  | startDrain caller =>
    simp only [hostStep] at stepped
    split at stepped
    · cases stepped
    · split at stepped
      · cases stepped
        exact accounted
      · split at stepped
        · cases stepped
          exact accounted
        · cases stepped
          exact { accounted with }
  | pollDrain caller late =>
    simp only [hostStep] at stepped
    have ended : Accounted base (state.endDrain caller) := { accounted with }
    split at stepped
    · cases stepped
    · split at stepped
      · cases stepped
        exact ended
      · split at stepped
        · cases stepped
          exact ended
        · split at stepped
          · cases stepped
            exact ended
          · cases stepped
            exact accounted
  | failWorker | terminate =>
    cases stepped
    exact { accounted with }
  | stop =>
    simp only [hostStep, Option.ite_none_right_eq_some, Option.some.injEq, Prod.mk.injEq]
      at stepped
    obtain ⟨-, rfl, rfl⟩ := stepped
    exact { accounted with }

/-! ## Steps keep the waits -/

/-- A wait stays sound while PUTs are published and consumed. -/
theorem Sound.mono {wait : Wait} (sound : Sound base state wait)
    (published : state.published ≤ after.published)
    (committed : state.committed.length ≤ after.committed.length) : Sound base after wait where
  target := sound.target
  issued := sound.issued.trans published
  near := by
    have near := sound.near
    omega
  landed := sound.landed

/-- What a step of the device does to the waits: drains stay, PUTs are only added, and NCRISC
goes on waiting or takes its count as a target. -/
structure Advances (state after : State) : Prop where
  drains : after.drains = state.drains
  published : state.published ≤ after.published
  committed : state.committed.length ≤ after.committed.length
  waiting : ∀ wait, after.dispatch = .waiting wait →
    after.published = state.published ∧
      (state.dispatch = .waiting wait ∨ state.dispatch = .idle ∧
        ∃ waiter, wait = ⟨waiter, state.putIssuedTotal, state.issued, state.landed⟩)

/-- Every step of the device advances. -/
theorem deviceStep_advances {action : DeviceAction}
    (stepped : deviceStep state action = some (after, events)) : Advances state after := by
  cases action with
  | displace put =>
    simp only [deviceStep, Option.ite_none_right_eq_some, Option.some.injEq, Prod.mk.injEq]
      at stepped
    obtain ⟨-, rfl, rfl⟩ := stepped
    exact ⟨rfl, Nat.le_refl _, Nat.le_refl _, fun wait waiting => ⟨rfl, Or.inl waiting⟩⟩
  | prepare streams =>
    simp only [deviceStep, Option.ite_none_right_eq_some, Option.some.injEq, Prod.mk.injEq]
      at stepped
    obtain ⟨-, rfl, rfl⟩ := stepped
    exact ⟨rfl, Nat.le_refl _, Nat.le_refl _, nofun⟩
  | publish =>
    simp only [deviceStep] at stepped
    split at stepped
    · simp only [Option.ite_none_right_eq_some, Option.some.injEq, Prod.mk.injEq] at stepped
      obtain ⟨-, rfl, rfl⟩ := stepped
      exact ⟨rfl, Nat.le_succ _, Nat.le_refl _, nofun⟩
    · cases stepped
  | count | store | land =>
    simp only [deviceStep] at stepped
    split at stepped
    · cases stepped
      exact ⟨rfl, Nat.le_refl _, Nat.le_refl _, nofun⟩
    · cases stepped
  | commitTail | commitHead =>
    simp only [deviceStep] at stepped
    split at stepped
    · cases stepped
      refine ⟨rfl, Nat.le_refl _, ?_, fun wait waiting => ⟨rfl, Or.inl waiting⟩⟩
      change state.committed.length ≤ (state.committed ++ [_]).length
      rw [List.length_append]
      exact Nat.le_add_right _ _
    · cases stepped
  | commitBarrier client | exists_ client =>
    simp only [deviceStep, Option.ite_none_right_eq_some, Option.some.injEq, Prod.mk.injEq]
      at stepped
    obtain ⟨idle, rfl, rfl⟩ := stepped
    refine ⟨rfl, Nat.le_refl _, Nat.le_refl _, ?_⟩
    intro wait waiting
    cases waiting
    exact ⟨rfl, Or.inr ⟨idle, _, rfl⟩⟩
  | pollPrefix =>
    simp only [deviceStep] at stepped
    split at stepped
    · have answered : Advances state { state with dispatch := .idle } :=
        ⟨rfl, Nat.le_refl _, Nat.le_refl _, nofun⟩
      split at stepped
      · cases stepped
        exact answered
      · split at stepped
        · cases stepped
          exact answered
        · cases stepped
          exact ⟨rfl, Nat.le_refl _, Nat.le_refl _, fun wait waiting => ⟨rfl, Or.inl waiting⟩⟩
    · cases stepped

/-- A step of the device keeps the waits. A new one takes the count of all publications, and
few of them are outstanding. -/
theorem Waits.device (waits : Waits base state) (accounted : Accounted base state)
    (few : state.published < state.committed.length + 2 ^ 31) {action : DeviceAction}
    (stepped : deviceStep state action = some (after, events)) : Waits base after := by
  obtain ⟨drains, published, committed, waiting⟩ := deviceStep_advances stepped
  constructor
  · intro caller wait drain
    obtain ⟨waiter, sound⟩ := waits.drains caller wait (drains ▸ drain)
    exact ⟨waiter, sound.mono published committed⟩
  · intro wait waits'
    obtain ⟨same, before | ⟨idle, waiter, rfl⟩⟩ := waiting wait waits'
    · obtain ⟨issued, sound⟩ := waits.waiting wait before
      exact ⟨issued.trans same.symm, sound.mono published committed⟩
    · have counts : state.issued = state.published ∧ state.shown = state.published := by
        rw [State.issued, State.shown, idle]
        exact ⟨rfl, rfl⟩
      have sound : Sound base state ⟨waiter, state.putIssuedTotal, state.issued, state.landed⟩ := by
        refine ⟨accounted.total, counts.1.le, counts.1 ▸ few, ?_⟩
        intro put landed
        have early := accounted.landed put landed
        rw [counts.2, ← counts.1] at early
        exact early
      exact ⟨counts.1.trans same.symm, sound.mono published committed⟩

/-- A drain starts or ends. -/
theorem Waits.setDrain (waits : Waits base state) (caller : Nat) {drain : Option Wait}
    (sound : ∀ wait, drain = some wait → wait.waiter = .drain caller ∧ Sound base state wait) :
    Waits base { state with drains := update state.drains caller drain } := by
  constructor
  · intro other wait drains
    change update state.drains caller drain other = some wait at drains
    by_cases same : other = caller
    · subst same
      rw [update_self] at drains
      obtain ⟨waiter, held⟩ := sound wait drains
      exact ⟨waiter, { held with }⟩
    · rw [update_of_ne same] at drains
      obtain ⟨waiter, held⟩ := waits.drains other wait drains
      exact ⟨waiter, { held with }⟩
  · intro wait waiting
    obtain ⟨issued, held⟩ := waits.waiting wait waiting
    exact ⟨issued, { held with }⟩

/-- Flags of the host do not matter to a wait. -/
theorem Waits.congr (waits : Waits base state) (drains : after.drains = state.drains)
    (dispatch : after.dispatch = state.dispatch) (published : after.published = state.published)
    (committed : after.committed = state.committed) : Waits base after := by
  have sound : ∀ {wait}, Sound base state wait → Sound base after wait :=
    fun held => held.mono published.ge (committed ▸ Nat.le_refl _)
  constructor
  · intro caller wait drain
    exact (waits.drains caller wait (drains ▸ drain)).imp_right sound
  · intro wait waiting
    obtain ⟨issued, held⟩ := waits.waiting wait (dispatch ▸ waiting)
    exact ⟨issued.trans published.symm, sound held⟩

/-- A step of the host keeps the waits. A drain takes the count that NCRISC shows. -/
theorem Waits.host (waits : Waits base state) (accounted : Accounted base state)
    (few : state.published < state.committed.length + 2 ^ 31) {action : HostAction}
    (stepped : hostStep state action = some (after, events)) : Waits base after := by
  cases action with
  | startDrain caller =>
    simp only [hostStep] at stepped
    split at stepped
    · cases stepped
    · split at stepped
      · cases stepped
        exact waits
      · split at stepped
        · cases stepped
          exact waits
        · cases stepped
          apply waits.setDrain caller
          rintro wait ⟨rfl⟩
          obtain ⟨shown, issued⟩ := shown_le state
          have below := shown.trans issued
          exact ⟨rfl, accounted.shows, below, below.trans_lt few, accounted.landed⟩
  | pollDrain caller late =>
    simp only [hostStep] at stepped
    have ended : Waits base (state.endDrain caller) := waits.setDrain caller nofun
    split at stepped
    · cases stepped
    · split at stepped
      · cases stepped
        exact ended
      · split at stepped
        · cases stepped
          exact ended
        · split at stepped
          · cases stepped
            exact ended
          · cases stepped
            exact waits
  | failWorker | terminate =>
    cases stepped
    exact waits.congr rfl rfl rfl rfl
  | stop =>
    simp only [hostStep, Option.ite_none_right_eq_some, Option.some.injEq, Prod.mk.injEq]
      at stepped
    obtain ⟨-, rfl, rfl⟩ := stepped
    exact waits.congr rfl rfl rfl rfl

/-! ## Runs keep both -/

/-- What every state of a run keeps. -/
theorem Runs.kept {trace : List Event} (run : Runs base (2 ^ 31) trace state) :
    Accounted base state ∧ Waits base state := by
  refine Run.invariant (fun state => Accounted base state ∧ Waits base state) run ?_ ?_
  · have accounted : Accounted base (cold base) :=
      ⟨rfl, nofun, nofun, nofun, rfl, rfl, rfl, nofun⟩
    exact ⟨accounted, nofun, nofun⟩
  · rintro state events after ⟨accounted, waits⟩ ⟨action, few, stepped⟩
    cases action with
    | device action =>
      simp only [step, Option.ite_none_right_eq_some] at stepped
      exact ⟨accounted.device stepped.2, waits.device accounted few stepped.2⟩
    | host action => exact ⟨accounted.host stepped, waits.host accounted few stepped⟩

/-- Runs with fewer PUTs outstanding are runs with more. -/
theorem Runs.widen {wider : Nat} (less : limit ≤ wider) {trace : List Event}
    (run : Runs base limit trace state) : Runs base wider trace state := by
  apply run.mono
  rintro state events after ⟨action, few, stepped⟩
  exact ⟨action, few.trans_le (Nat.add_le_add_left less _), stepped⟩

/-! ## What a wait tells -/

/-- The wait of a poll, and whether it has succeeded. -/
def Event.poll : Event → Option (Wait × Bool)
  | .succeeded wait => some (wait, true)
  | .pending wait | .failed wait | .aborted wait => some (wait, false)
  | .threw _ | .skipped _ => none

/-- A wait that is under way. -/
def Held (state : State) (wait : Wait) : Prop :=
  state.dispatch = .waiting wait ∨ ∃ caller, state.drains caller = some wait

/-- A poll of NCRISC compares the frontier with its target. -/
theorem deviceStep_polls {action : DeviceAction}
    (stepped : deviceStep state action = some (after, events)) {event : Event}
    (shown : event ∈ events) {wait : Wait} {success : Bool}
    (poll : event.poll = some (wait, success)) :
    state.dispatch = .waiting wait ∧ reaches state.commitDone wait.target = success := by
  cases action with
  | pollPrefix =>
    simp only [deviceStep] at stepped
    split at stepped
    · next held waiting =>
      split at stepped
      · next accepts =>
        cases stepped
        cases List.mem_singleton.mp shown
        cases poll
        exact ⟨waiting, accepts⟩
      · next refuses =>
        have answer := Bool.eq_false_iff.mpr refuses
        split at stepped
        · cases stepped
          cases List.mem_singleton.mp shown
          cases poll
          exact ⟨waiting, answer⟩
        · cases stepped
          cases List.mem_singleton.mp shown
          cases poll
          exact ⟨waiting, answer⟩
    · cases stepped
  | _ =>
    have silent : events = [] := by
      grind [deviceStep]
    rw [silent] at shown
    exact nomatch shown

/-- A poll of a drain compares the frontier with its target. -/
theorem hostStep_polls {action : HostAction}
    (stepped : hostStep state action = some (after, events)) {event : Event}
    (shown : event ∈ events) {wait : Wait} {success : Bool}
    (poll : event.poll = some (wait, success)) :
    (∃ caller, state.drains caller = some wait) ∧
      reaches state.commitDone wait.target = success := by
  cases action with
  | pollDrain caller late =>
    simp only [hostStep] at stepped
    split at stepped
    · cases stepped
    · next held drain =>
      split at stepped
      · cases stepped
        cases List.mem_singleton.mp shown
        exact nomatch poll
      · split at stepped
        · next accepts =>
          cases stepped
          cases List.mem_singleton.mp shown
          cases poll
          exact ⟨⟨caller, drain⟩, accepts⟩
        · next refuses =>
          have answer := Bool.eq_false_iff.mpr refuses
          split at stepped
          · cases stepped
            cases List.mem_singleton.mp shown
            cases poll
            exact ⟨⟨caller, drain⟩, answer⟩
          · cases stepped
            cases List.mem_singleton.mp shown
            cases poll
            exact ⟨⟨caller, drain⟩, answer⟩
  | _ =>
    have silent : event.poll = none := by
      grind [hostStep, Event.poll]
    exact nomatch silent.symm.trans poll

/-- Every poll compares the frontier with the target of a wait that is under way. -/
theorem step_polls {action : Action} (stepped : step state action = some (after, events))
    {event : Event} (shown : event ∈ events) {wait : Wait} {success : Bool}
    (poll : event.poll = some (wait, success)) :
    Held state wait ∧ reaches state.commitDone wait.target = success := by
  cases action with
  | device action =>
    simp only [step, Option.ite_none_right_eq_some] at stepped
    exact (deviceStep_polls stepped.2 shown poll).imp_left Or.inl
  | host action => exact (hostStep_polls stepped shown poll).imp_left Or.inr

/-- A success means committed, and a wait whose prefix is committed succeeds. In every run, with
words that start anywhere and fewer than 2^31 PUTs outstanding: if a poll of a drain, a
COMMIT_BARRIER or an EXISTS succeeds, the PUTs issued when the wait started have been consumed,
and every PUT that had landed by then is backed by the host or has lost its entry to a REMOVE or
another PUT. A poll that does not succeed finds fewer PUTs consumed than were issued, unless
2^31 more than these have been consumed meanwhile; for NCRISC, which issues no PUT while it
waits, without exception.

Proof: the target and the frontier are the words of two counts. The target was not ahead of the
frontier by half of the range, and stays so because the frontier only advances. -/
theorem success_means_committed {trace : List Event} (run : Runs base (2 ^ 31) trace state)
    {action : Action} (stepped : step state action = some (after, events)) {event : Event}
    (shown : event ∈ events) {wait : Wait} {success : Bool}
    (poll : event.poll = some (wait, success)) :
    wait.target = word base wait.issued ∧
      state.commitDone = word base state.committed.length ∧
      (success = true → wait.issued ≤ state.committed.length ∧
        ∀ put ∈ wait.landed, put ∈ state.committed ∧
          (put ∈ state.hostBacked ∨ put ∈ state.displaced)) ∧
      (success = false → state.committed.length < wait.issued + 2 ^ 31 →
        state.committed.length < wait.issued) ∧
      (success = false → (∀ caller, wait.waiter ≠ .drain caller) →
        state.committed.length < wait.issued) := by
  obtain ⟨accounted, waits⟩ := run.kept
  obtain ⟨held, compared⟩ := step_polls stepped shown poll
  have sound : Sound base state wait := by
    rcases held with waiting | ⟨caller, drain⟩
    · exact (waits.waiting wait waiting).2
    · exact (waits.drains caller wait drain).2
  rw [accounted.done, sound.target] at compared
  have behind : success = false → state.committed.length < wait.issued + 2 ^ 31 →
      state.committed.length < wait.issued := by
    rintro rfl near
    by_contra reached
    rw [reaches_of_reached (by omega) near] at compared
    exact nomatch compared
  refine ⟨sound.target, accounted.done, ?_, behind, ?_⟩
  · rintro rfl
    have reached := reached_of_reaches sound.near compared
    refine ⟨reached, ?_⟩
    intro put landed
    have member := accounted.mem_committed ((sound.landed put landed).trans_le reached)
    exact ⟨member, accounted.fate put member⟩
  · intro fails device
    rcases held with waiting | ⟨caller, drain⟩
    · obtain ⟨all, -⟩ := waits.waiting wait waiting
      have few := accounted.committed_le
      exact behind fails (by omega)
    · exact absurd (waits.drains caller wait drain).1 (device caller)

/-- A small PUT is published and consumed before NCRISC has counted it, and the words wrap. A
drain that starts there finds the frontier ahead of its target, and succeeds. -/
theorem success_means_committed_wrapped :
    ∃ trace state after wait, Runs (2 ^ 32 - 1) (2 ^ 31) trace state ∧
      step state (.host (.pollDrain 0 false)) = some (after, [.succeeded wait]) ∧
      wait.target = 2 ^ 32 - 1 ∧ state.commitDone = 0 ∧ state.issued < state.committed.length ∧
      wait.issued ≤ state.committed.length := by
  let steps : List Action := [.device (.prepare false), .device .publish, .device .commitHead,
    .host (.startDrain 0)]
  have executed : ∃ state, execute (guarded step (Outstanding 2)) (cold (2 ^ 32 - 1)) steps =
      some (state, []) ∧ state.drains 0 = some ⟨.drain 0, 2 ^ 32 - 1, 0, []⟩ ∧
      state.commitDone = 0 ∧ state.issued = 0 ∧ state.committed = [0] ∧
      state.workerFailed = false := ⟨_, rfl, rfl, rfl, rfl, rfl, rfl⟩
  obtain ⟨state, executed, drain, done, issued, committed, works⟩ := executed
  have run : Runs (2 ^ 32 - 1) (2 ^ 31) ([] ++ []) state :=
    Runs.widen (by decide) ((Run.start.execute executed).mono fun _ _ _ => guarded_takes)
  have polled : step state (.host (.pollDrain 0 false)) =
      some (state.endDrain 0, [.succeeded ⟨.drain 0, 2 ^ 32 - 1, 0, []⟩]) := by
    simp only [step, hostStep, drain, works, done]
    rfl
  obtain ⟨-, -, reached, -⟩ :=
    success_means_committed run polled (List.mem_singleton.mpr rfl) rfl
  exact ⟨_, state, _, _, run, polled, rfl, done, by rw [issued, committed]; decide,
    (reached rfl).1⟩

/-! ## A drain that is overtaken -/

/-- After so many PUTs, each consumed before the next, with a drain that has not polled since
before the first. -/
def drainOvertaken (count : Nat) : State where
  published := count
  putHostQueue := []
  streamTail := none
  committed := List.range count
  hostBacked := (List.range count).reverse
  displaced := []
  landed := (List.range count).reverse
  putIssuedTotal := word 0 count
  commitIssued := word 0 count
  commitDone := word 0 count
  dispatch := .idle
  drains := update (fun _ => none) 0 (some ⟨.drain 0, 0, 0, []⟩)
  running := true
  terminating := false
  workerFailed := false

/-- One more PUT, consumed once it has landed. -/
theorem drainOvertaken_next (count : Nat) :
    execute (guarded step (Outstanding 2)) (drainOvertaken count)
      [.device (.prepare false), .device .publish, .device .count, .device .store, .device .land,
        .device .commitHead] = some (drainOvertaken (count + 1), []) := by
  simp [execute, guarded, Outstanding, step, deviceStep, State.serves, State.publish,
    State.countCommit, drainOvertaken, word_succ, List.range_succ]

/-- Every such state is reached with at most one PUT outstanding.

Proof: by induction on the PUTs. -/
theorem drainOvertaken_reached (count : Nat) :
    ∃ trace, Run (Takes (guarded step (Outstanding 2))) (cold 0) trace (drainOvertaken count) := by
  induction count with
  | zero =>
    have executed : execute (guarded step (Outstanding 2)) (cold 0) [.host (.startDrain 0)] =
        some (drainOvertaken 0, []) := rfl
    exact ⟨_, Run.start.execute executed⟩
  | succ count inductionHypothesis =>
    obtain ⟨trace, run⟩ := inductionHypothesis
    exact ⟨_, run.execute (drainOvertaken_next count)⟩

/-- BRISC consumes one more PUT before NCRISC counts it. -/
theorem drainOvertaken_leads (count : Nat) :
    ∃ state, execute (guarded step (Outstanding 2)) (drainOvertaken count)
        [.device (.prepare false), .device .publish, .device .commitHead] = some (state, []) ∧
      state.drains 0 = some ⟨.drain 0, 0, 0, []⟩ ∧ state.commitDone = word 0 (count + 1) ∧
      state.issued = count ∧ state.committed.length = count + 1 ∧ state.workerFailed = false := by
  simp [execute, guarded, Outstanding, step, deviceStep, State.serves, State.publish,
    State.countCommit, drainOvertaken, word_succ, State.issued, Dispatch.issued]

/-- A wait may fail because the frontier is ahead, and succeed before a PUT has reached the host.

With one PUT outstanding at most, 2^31 PUTs are consumed between two polls of a drain, the last
of them before NCRISC has counted it. The word of the frontier is then as far from the target as
half of the range, and a drain at its deadline fails, though its prefix is committed. One PUT
less would not have been too far.

A PUT whose entry is removed before it is consumed counts as committed, and a drain that waited
for it succeeds without a copy on the host. -/
theorem overtaken_drain_fails :
    (∃ trace state after wait, Runs 0 2 trace state ∧
      step state (.host (.pollDrain 0 true)) = some (after, [.failed wait]) ∧
      wait.issued ≤ state.committed.length ∧ state.issued < state.committed.length) ∧
    ∃ trace state after wait put, Runs 0 2 trace state ∧
      step state (.host (.pollDrain 0 true)) = some (after, [.succeeded wait]) ∧
      put ∈ wait.landed ∧ put ∉ state.hostBacked := by
  constructor
  · obtain ⟨trace, run⟩ := drainOvertaken_reached (2 ^ 31 - 1)
    obtain ⟨state, executed, drain, done, issued, committed, works⟩ :=
      drainOvertaken_leads (2 ^ 31 - 1)
    have last := (run.execute executed).mono fun _ _ _ => guarded_takes
    have refused : reaches (word 0 (2 ^ 31 - 1 + 1)) 0 = false := by decide
    have polled : step state (.host (.pollDrain 0 true)) =
        some (state.endDrain 0, [.failed ⟨.drain 0, 0, 0, []⟩]) := by
      simp only [step, hostStep, drain, works, done, refused, Bool.false_eq_true, if_false,
        if_true]
    exact ⟨_, state, _, _, last, polled, Nat.zero_le _, by omega⟩
  · have executed : ∃ state, execute (guarded step (Outstanding 2)) (cold 0)
        [.device (.prepare false), .device .publish, .device .count, .device .store,
          .device .land, .host (.startDrain 0), .device (.displace 0), .device .commitHead] =
          some (state, []) ∧ state.drains 0 = some ⟨.drain 0, 1, 1, [0]⟩ ∧
        state.commitDone = 1 ∧ state.hostBacked = [] ∧ state.workerFailed = false :=
      ⟨_, rfl, rfl, rfl, rfl, rfl⟩
    obtain ⟨state, executed, drain, done, backed, works⟩ := executed
    have run : Runs 0 2 ([] ++ []) state :=
      (Run.start.execute executed).mono fun _ _ _ => guarded_takes
    have polled : step state (.host (.pollDrain 0 true)) =
        some (state.endDrain 0, [.succeeded ⟨.drain 0, 1, 1, [0]⟩]) := by
      simp only [step, hostStep, drain, works, done]
      rfl
    refine ⟨_, state, _, _, 0, run, polled, List.mem_singleton.mpr rfl, ?_⟩
    rw [backed]
    exact List.not_mem_nil

end KvCache.Server.CommitFrontier
