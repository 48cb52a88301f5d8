import KvCache.Lmcache.WireClient
import Mathlib.Data.List.Nodup
import Mathlib.Data.List.Count

/-!
# No handle of the wire client is lost

What the client holds and what is attached, reserved and running agree after every call, however
it fails: the registry of the runtime keeps a second open from replacing a wire client that a
failed close has left, and a mesh has one reservation. Only the wait for the thread of the proxy
can end before the thread does.
-/

namespace KvCache.Lmcache.WireClient

open Function Fallible Run

variable {settings : Settings} {state after : State}

/-! ## What every call keeps -/

/-- The promise without its last part; and a proxy is served by an opened client only. -/
structure Kept (settings : Settings) (state : State) : Prop where
  held : ∀ coord, state.activeClients.count coord = state.shardClients.count coord +
    if state.ttnnClient ∧ coord = settings.masterCoord then 1 else 0
  once : state.activeClients.Nodup
  detached : ∀ coord, state.attaches coord = state.detaches coord + state.activeClients.count coord
  ordered : state.shardClients ≠ [] → state.ttnnClient = true
  reserved : state.gatherResources = state.gatherResourcesReserved
  released : state.reservations = state.releases + if state.gatherResources then 1 else 0
  served : state.abandoned = [] ∧ (state.thread ≠ none → state.gmProxy = true)
  calm : state.closedWhileExecuting = false
  connected : state.forwarderSockets = state.overwritten + if state.gmFwd then 1 else 0
  proxied : state.gmProxy = true → state.opened = true

theorem kept_start (settings : Settings) : Kept settings start where
  held _ := rfl
  once := List.nodup_nil
  detached _ := rfl
  ordered := fun some_shard => absurd rfl some_shard
  reserved := rfl
  released := rfl
  served := ⟨rfl, fun running => absurd rfl running⟩
  calm := rfl
  connected := rfl
  proxied := nofun

/-- The chips of the shard clients are distinct and attached. -/
theorem Kept.shards_nodup (kept : Kept settings state) : state.shardClients.Nodup := by
  rw [List.nodup_iff_count_le_one]
  intro coord
  have counted := kept.held coord
  have single := List.nodup_iff_count_le_one.mp kept.once coord
  omega

/-! ## Opening -/

/-- While the client is opened: the promise, no proxy yet, and the master once it is wired. -/
structure Opening (settings : Settings) (wired : Bool) (state : State) : Prop where
  kept : Kept settings state
  unserved : state.gmProxy = false
  master : wired = true → state.ttnnClient = true

variable {fails : Point → Bool} {wired : Bool}

theorem Opening.weaken (opening : Opening settings wired state) : Opening settings false state :=
  ⟨opening.kept, opening.unserved, nofun⟩

theorem passes_meets (point : Point) : Meets (Opening settings wired) (passes fails point)
    (fun _ => Opening settings wired) (Opening settings false) :=
  Meets.check (fun _ opening _ => opening) (fun _ opening _ => opening.weaken)

/-- A chip without a wire client gets one, and `keep` remembers it. -/
theorem attach_meets {coord : Coord} {keep : State → State}
    (attached : ∀ state, Opening settings wired state → coord ∉ state.activeClients →
      Opening settings true (keep (enter coord state))) :
    Meets (Opening settings wired) (attach fails coord keep)
      (fun _ => Opening settings true) (Opening settings false) := by
  refine Meets.bind (fun seen state => Opening settings wired state ∧ seen = state)
    (Meets.look fun state opening => ⟨opening, rfl⟩) fun seen => ?_
  refine Meets.bind (fun _ state => Opening settings wired state ∧ coord ∉ state.activeClients)
    (Meets.check (fun state ⟨opening, same⟩ absent => ⟨opening, same ▸ absent⟩)
      fun _ ⟨opening, _⟩ _ => opening.weaken) fun _ => ?_
  refine Meets.bind (fun _ state => Opening settings wired state ∧ coord ∉ state.activeClients)
    (Meets.check (fun _ both _ => both) fun _ ⟨opening, _⟩ _ => opening.weaken) fun _ => ?_
  exact Meets.modify fun state ⟨opening, absent⟩ => attached state opening absent

theorem attachMaster_meets : Meets (Opening settings wired) (attachMaster settings fails)
    (fun _ => Opening settings true) (Opening settings false) := by
  refine attach_meets fun state opening absent => ?_
  obtain ⟨kept, unserved, _⟩ := opening
  have unattached := List.count_eq_zero.mpr absent
  have unheld : state.ttnnClient = false := by
    have counted := kept.held settings.masterCoord
    cases master : state.ttnnClient with
    | false => rfl
    | true =>
      rw [master, if_pos ⟨rfl, rfl⟩] at counted
      omega
  refine ⟨{ kept with held := ?_, once := ?_, detached := ?_, ordered := fun _ => rfl }, unserved,
    fun _ => rfl⟩
  · intro coord
    have counted := kept.held coord
    rw [unheld, if_neg (fun both => Bool.false_ne_true both.1)] at counted
    simp only [enter, List.count_cons, beq_iff_eq, true_and]
    rw [counted]
    simp only [eq_comm, Nat.add_zero]
  · exact List.nodup_cons.mpr ⟨absent, kept.once⟩
  · intro coord
    have counted := kept.detached coord
    simp only [enter, List.count_cons, beq_iff_eq]
    rcases eq_or_ne coord settings.masterCoord with rfl | different
    · rw [update_self, if_pos rfl]
      omega
    · rw [update_of_ne different, if_neg different.symm]
      omega

theorem shardClient_meets (coord : Coord) :
    Meets (Opening settings true) (shardClient settings fails coord)
      (fun _ => Opening settings true) (Opening settings false) := by
  refine Meets.bind (fun seen state => Opening settings true state ∧ seen = state)
    (Meets.look fun state opening => ⟨opening, rfl⟩) fun seen => ?_
  split
  · exact Meets.pure fun _ ⟨opening, _⟩ => opening
  · refine Meets.weaken (@attach_meets settings _ true _ _ ?_)
      (fun _ both => both.1) (fun _ _ same => same) fun _ same => same
    intro state opening absent
    obtain ⟨kept, unserved, master⟩ := opening
    refine ⟨{ kept with held := ?_, once := ?_, detached := ?_, ordered := fun _ => master rfl },
      unserved, fun _ => master rfl⟩
    · intro other
      have counted := kept.held other
      change (coord :: state.activeClients).count other =
        (state.shardClients ++ [coord]).count other +
          if state.ttnnClient ∧ other = settings.masterCoord then 1 else 0
      rw [List.count_cons, List.count_append, List.count_singleton, counted]
      omega
    · exact List.nodup_cons.mpr ⟨absent, kept.once⟩
    · intro other
      have counted := kept.detached other
      simp only [enter, List.count_cons, beq_iff_eq]
      rcases eq_or_ne other coord with rfl | different
      · rw [update_self, if_pos rfl]
        omega
      · rw [update_of_ne different, if_neg different.symm]
        omega

theorem reserve_meets : Meets (Opening settings wired) (reserveGatherResources fails)
    (fun _ => Opening settings wired) (Opening settings false) := by
  refine Meets.bind _ (passes_meets .reserve) fun _ => Meets.modify ?_
  rintro state ⟨kept, unserved, master⟩
  refine ⟨{ kept with reserved := rfl, released := ?_ }, unserved, master⟩
  have counted := kept.released
  cases there : state.gatherResources <;> simp [there] at counted ⊢ <;> omega

/-- Opened, the client may start its proxy. -/
def Ready (settings : Settings) (state : State) : Prop :=
  Opening settings false state ∧ state.opened = true

theorem setOpened_meets : Meets (Opening settings wired) setOpened
    (fun _ => Ready settings) (Opening settings false) :=
  Meets.modify fun _ opening =>
    ⟨⟨{ opening.kept with proxied := fun _ => rfl }, opening.unserved, nofun⟩, rfl⟩

theorem openAttached_meets : Meets (Opening settings false) (openAttached settings fails)
    (fun _ => Ready settings) (Opening settings false) := by
  refine Meets.bind _ attachMaster_meets fun _ => ?_
  refine Meets.bind _ (passes_meets .ping) fun _ => ?_
  refine Meets.bind _ (Meets.onlyIf reserve_meets) fun _ => ?_
  refine Meets.bind (fun _ => Opening settings true) (Meets.onlyIf ?_) fun _ => ?_
  · refine Meets.bind _ (passes_meets .limit) fun _ => ?_
    exact Meets.forEach (fun _ _ => Opening settings true) settings.meshCoords
      fun _ coord _ _ => shardClient_meets coord
  · refine Meets.bind _ (passes_meets .pool) fun _ => ?_
    exact Meets.bind _ (Meets.onlyIf (passes_meets .blob)) fun _ => setOpened_meets

theorem openGmForwarder_meets : Meets (Opening settings false) (openGmForwarder settings fails)
    (fun _ => Ready settings) (Opening settings false) := by
  refine Meets.bind _ (passes_meets .checks) fun _ => ?_
  refine Meets.bind _ (passes_meets .forwarder) fun _ => ?_
  refine Meets.bind (fun _ => Opening settings false) (Meets.modify ?_) fun _ => ?_
  · rintro state ⟨kept, unserved, _⟩
    refine ⟨{ kept with connected := ?_ }, unserved, nofun⟩
    have counted := kept.connected
    simp only [counted, if_true]
  · refine Meets.bind _ reserve_meets fun _ => ?_
    refine Meets.bind _ (passes_meets .pool) fun _ => ?_
    exact Meets.bind _ (Meets.onlyIf (passes_meets .blob)) fun _ => setOpened_meets

/-- Whatever the mode, opening keeps the promise until the client is opened or has failed. -/
theorem openParts_meets : Meets (Opening settings false) (openParts settings fails)
    (fun _ => Ready settings) (Opening settings false) := by
  rw [openParts]
  split
  · exact setOpened_meets
  split
  · exact openGmForwarder_meets
  split
  · refine Meets.bind (fun _ => Opening settings false)
      (Meets.check (fun _ opening _ => opening) fun _ opening _ => opening) fun _ => ?_
    exact Meets.bind _ (passes_meets .checks) fun _ => openAttached_meets
  split
  · refine Meets.bind _ (passes_meets .checks) fun _ => ?_
    refine Meets.bind _ reserve_meets fun _ => ?_
    exact Meets.bind _ (passes_meets .blob) fun _ => setOpened_meets
  · exact Meets.bind _ (passes_meets .checks) fun _ => openAttached_meets

theorem openBody_meets : Meets (Opening settings false) (openBody settings fails)
    (fun _ => Kept settings) (Opening settings false) := by
  refine Meets.bind _ openParts_meets fun _ => ?_
  rw [onlyIf]
  split
  · refine Meets.bind (fun _ => Ready settings)
      (Meets.check (fun _ ready _ => ready) fun _ ready _ => ready.1) fun _ => Meets.modify ?_
    rintro state ⟨opening, opened⟩
    exact { opening.kept with
      served := ⟨opening.kept.served.1, fun _ => rfl⟩
      proxied := fun _ => opened }
  · exact Meets.pure fun _ ready => ready.1.kept

/-! ## Closing -/

variable {closing : Closing}

/-- Closing the shard clients changes nothing but them and the registry. -/
theorem closeShards_form (coords : List Coord) (state : State) :
    ∃ shards active detaches, coords.foldl (closeShard closing) state =
      { state with shardClients := shards, activeClients := active, detaches := detaches } := by
  induction coords generalizing state with
  | nil => exact ⟨_, _, _, rfl⟩
  | cons coord rest inductionHypothesis =>
    rw [List.foldl_cons, closeShard]
    split
    · exact inductionHypothesis state
    · obtain ⟨shards, active, detaches, same⟩ := inductionHypothesis
        { leave coord state with shardClients := state.shardClients.erase coord }
      exact ⟨shards, active, detaches, same⟩

theorem Kept.leave (kept : Kept settings state) {coord : Coord} (shard : coord ∈ state.shardClients) :
    Kept settings { leave coord state with shardClients := state.shardClients.erase coord } := by
  refine { kept with held := ?_, once := kept.once.erase coord, detached := ?_, ordered := ?_ }
  · intro other
    have counted := kept.held other
    change (state.activeClients.erase coord).count other =
      (state.shardClients.erase coord).count other +
        if state.ttnnClient ∧ other = settings.masterCoord then 1 else 0
    rw [List.count_erase, List.count_erase, counted]
    have present := List.count_pos_iff.mpr shard
    rcases eq_or_ne coord other with rfl | different
    · rw [beq_self_eq_true, if_pos rfl]
      omega
    · rw [beq_false_of_ne different]
      simp
  · intro other
    have counted := kept.detached other
    have held := kept.held coord
    have present := List.count_pos_iff.mpr shard
    simp only [WireClient.leave, List.count_erase]
    rcases eq_or_ne other coord with rfl | different
    · rw [update_self, beq_self_eq_true, if_pos rfl]
      omega
    · rw [update_of_ne different, beq_false_of_ne different.symm]
      simpa using counted
  · intro some_left
    exact kept.ordered fun none_left => some_left (by simp [none_left])

/-- The shard clients that do not raise are closed, and the others stay.

Proof: by induction on the chips that are still to be closed, all of which have a client. -/
theorem Kept.closeShards (kept : Kept settings state) {coords : List Coord}
    (distinct : coords.Nodup) (shards : ∀ coord ∈ coords, coord ∈ state.shardClients) :
    Kept settings (coords.foldl (closeShard closing) state) ∧
      ∀ coord, coord ∈ (coords.foldl (closeShard closing) state).shardClients ↔
        coord ∈ state.shardClients ∧ (coord ∈ coords → closing.raises (.shard coord) = true) := by
  induction coords generalizing state with
  | nil => exact ⟨kept, fun coord => by simp⟩
  | cons coord rest inductionHypothesis =>
    obtain ⟨apart, distinct⟩ := List.nodup_cons.mp distinct
    have present := shards coord List.mem_cons_self
    rw [List.foldl_cons, closeShard]
    split
    · next raises =>
      obtain ⟨closed, left⟩ := inductionHypothesis kept distinct fun other member =>
        shards other (List.mem_cons_of_mem coord member)
      refine ⟨closed, fun other => (left other).trans (and_congr_right fun _ => ?_)⟩
      simp only [List.mem_cons]
      constructor
      · rintro stays (rfl | later)
        · exact raises
        · exact stays later
      · exact fun stays later => stays (Or.inr later)
    · next closes =>
      have shards_nodup := kept.shards_nodup
      have still : ∀ other ∈ rest, other ∈ state.shardClients.erase coord := fun other member =>
        shards_nodup.mem_erase_iff.mpr
          ⟨fun same => apart (same ▸ member), shards other (List.mem_cons_of_mem coord member)⟩
      obtain ⟨closed, left⟩ := inductionHypothesis (kept.leave present) distinct still
      refine ⟨closed, fun other => (left other).trans ?_⟩
      change other ∈ state.shardClients.erase coord ∧ _ ↔ _
      rw [shards_nodup.mem_erase_iff]
      simp only [List.mem_cons]
      constructor
      · rintro ⟨⟨different, there⟩, stays⟩
        exact ⟨there, fun either => stays (either.resolve_left different)⟩
      · rintro ⟨there, stays⟩
        exact ⟨⟨fun same => closes (same ▸ stays (Or.inl same)), there⟩,
          fun later => stays (Or.inr later)⟩

/-- What was ever attached and reserved. -/
structure Acquired (attaches : Coord → Nat) (reservations : Nat) (state : State) : Prop where
  attaches : state.attaches = attaches
  reservations : state.reservations = reservations

/-- Closing failed: the promise is kept, nothing new is held, and some part raised. -/
structure Failed (settings : Settings) (closing : Closing) (attaches : Coord → Nat)
    (reservations : Nat) (state : State) : Prop where
  kept : Kept settings state
  acquired : Acquired attaches reservations state
  raised : ∃ part, closing.raises part = true

/-- Between the parts of a close: the promise, with no shard client left. -/
structure Closing.Between (closing : Closing) (settings : Settings) (attaches : Coord → Nat)
    (reservations : Nat) (state : State) : Prop where
  kept : Kept settings state
  acquired : Acquired attaches reservations state
  shards : state.shardClients = []

section Stages

variable {attaches : Coord → Nat} {reservations : Nat}

theorem closeShards_meets : Meets
    (fun state => Kept settings state ∧ Acquired attaches reservations state ∧
      ¬ Abandons closing state)
    (closeShards closing)
    (fun _ state => closing.Between settings attaches reservations state ∧
      ¬ Abandons closing state)
    (Failed settings closing attaches reservations) := by
  refine Meets.bind (fun _ state => Kept settings state ∧ Acquired attaches reservations state ∧
    (state.shardClients = [] → ¬ Abandons closing state) ∧
    ∀ coord ∈ state.shardClients, closing.raises (.shard coord) = true) (Meets.modify ?_) fun _ => ?_
  · rintro state ⟨kept, acquired, attended⟩
    obtain ⟨closed, left⟩ := @Kept.closeShards settings state closing kept _ kept.shards_nodup
      fun _ member => member
    obtain ⟨shards, active, detaches, same⟩ :=
      @closeShards_form closing state.shardClients state
    rw [same] at closed left ⊢
    refine ⟨closed, ⟨acquired.attaches, acquired.reservations⟩, ?_, ?_⟩
    · rintro none_left ⟨outlasts, busy, _, forwarder, proxy⟩
      refine attended ⟨outlasts, busy, fun coord member => ?_, forwarder, proxy⟩
      have closes := (not_congr (left coord)).mp (by rw [none_left]; exact List.not_mem_nil)
      simpa [member] using closes
    · intro coord member
      exact ((left coord).mp member).2 ((left coord).mp member).1
  · refine Meets.bind (fun seen state => (Kept settings state ∧ Acquired attaches reservations state ∧
      (state.shardClients = [] → ¬ Abandons closing state) ∧
      ∀ coord ∈ state.shardClients, closing.raises (.shard coord) = true) ∧ seen = state)
      (Meets.look fun state holds => ⟨holds, rfl⟩) fun seen => Meets.check ?_ ?_
    · rintro state ⟨⟨kept, acquired, attended, _⟩, rfl⟩ none_left
      exact ⟨⟨kept, acquired, none_left⟩, attended none_left⟩
    · rintro state ⟨⟨kept, acquired, _, raises⟩, rfl⟩ some_left
      obtain ⟨coord, member⟩ := List.exists_mem_of_ne_nil _ some_left
      exact ⟨kept, acquired, .shard coord, raises coord member⟩

theorem closeForwarder_meets : Meets
    (fun state => closing.Between settings attaches reservations state ∧ ¬ Abandons closing state)
    (closeForwarder closing)
    (fun _ state => closing.Between settings attaches reservations state ∧
      ¬ Abandons closing state ∧ state.gmFwd = false)
    (Failed settings closing attaches reservations) := by
  refine Meets.bind (fun seen state => (closing.Between settings attaches reservations state ∧
    ¬ Abandons closing state) ∧ seen = state) (Meets.look fun state holds => ⟨holds, rfl⟩)
    fun seen => ?_
  split
  · next forwards =>
    refine Meets.bind (fun _ state => (closing.Between settings attaches reservations state ∧
      ¬ Abandons closing state) ∧ state.gmFwd = true ∧ closing.raises .forwarder = false)
      (Meets.check ?_ ?_) fun _ => Meets.modify ?_
    · rintro state ⟨holds, rfl⟩ closes
      exact ⟨holds, forwards, closes⟩
    · rintro state ⟨⟨between, _⟩, rfl⟩ raises
      exact ⟨between.kept, between.acquired, .forwarder, by simpa using raises⟩
    · rintro state ⟨⟨⟨kept, acquired, shards⟩, attended⟩, forwards, closes⟩
      refine ⟨⟨{ kept with connected := ?_ }, ⟨acquired.attaches, acquired.reservations⟩, shards⟩,
        ?_, rfl⟩
      · have counted := kept.connected
        rw [forwards, if_pos rfl] at counted
        simp [counted]
      · rintro ⟨outlasts, busy, shards, _, proxy⟩
        exact attended ⟨outlasts, busy, shards, fun _ => closes, proxy⟩
  · next not_forwards =>
    refine Meets.pure ?_
    rintro state ⟨⟨between, attended⟩, rfl⟩
    exact ⟨between, attended, by simpa using not_forwards⟩

/-- The thread has ended, unless its request outlasts the wait. -/
theorem joined_none {thread : Option ProxyThread}
    (ends : closing.outlasts = false ∨ (thread ≠ some .executing ∧ thread ≠ some .finishing)) :
    joined closing thread = none := by
  rcases thread with _ | _ | _ | _ <;> rcases ends with ends | ⟨neither, nor⟩ <;>
    simp_all [joined]

theorem closeProxy_meets : Meets
    (fun state => closing.Between settings attaches reservations state ∧
      ¬ Abandons closing state ∧ state.gmFwd = false)
    (closeProxy closing)
    (fun _ state => closing.Between settings attaches reservations state ∧
      state.gmFwd = false ∧ state.gmProxy = false)
    (Failed settings closing attaches reservations) := by
  refine Meets.bind (fun seen state => (closing.Between settings attaches reservations state ∧
    ¬ Abandons closing state ∧ state.gmFwd = false) ∧ seen = state)
    (Meets.look fun state holds => ⟨holds, rfl⟩) fun seen => ?_
  split
  · next serves =>
    refine Meets.bind (fun _ state => closing.Between settings attaches reservations state ∧
      state.gmFwd = false ∧ (closing.raises .proxy = false → state.thread = none))
      (Meets.modify ?_) fun _ => Meets.bind (fun _ state =>
        closing.Between settings attaches reservations state ∧ state.gmFwd = false ∧
          state.thread = none) (Meets.check ?_ ?_) fun _ => Meets.modify ?_
    · rintro state ⟨⟨⟨kept, acquired, shards⟩, attended, unforwarded⟩, rfl⟩
      refine ⟨⟨{ kept with served := ⟨kept.served.1, fun _ => serves⟩ },
        ⟨acquired.attaches, acquired.reservations⟩, shards⟩, unforwarded, fun closes => ?_⟩
      refine joined_none ?_
      by_contra busy
      rw [not_or, not_and_or, not_not, not_not] at busy
      refine attended ⟨by simpa using busy.1, busy.2, ?_, ?_, closes⟩
      · rw [shards]
        exact nofun
      · rw [unforwarded]
        exact nofun
    · exact fun state ⟨between, unforwarded, ended⟩ closes => ⟨between, unforwarded, ended closes⟩
    · exact fun state ⟨between, _⟩ raises =>
        ⟨between.kept, between.acquired, .proxy, by simpa using raises⟩
    · rintro state ⟨⟨kept, acquired, shards⟩, unforwarded, ended⟩
      refine ⟨⟨{ kept with served := ⟨?_, fun running => absurd rfl running⟩, proxied := nofun },
        ⟨acquired.attaches, acquired.reservations⟩, shards⟩, unforwarded, rfl⟩
      simp [ended, kept.served.1]
  · next idle =>
    refine Meets.pure ?_
    rintro state ⟨⟨between, _, unforwarded⟩, rfl⟩
    exact ⟨between, unforwarded, by simpa using idle⟩

theorem closeMaster_meets : Meets
    (fun state => closing.Between settings attaches reservations state ∧
      state.gmFwd = false ∧ state.gmProxy = false)
    (closeMaster closing settings)
    (fun _ state => closing.Between settings attaches reservations state ∧
      state.gmFwd = false ∧ state.gmProxy = false ∧ state.ttnnClient = false)
    (Failed settings closing attaches reservations) := by
  refine Meets.bind (fun seen state => (closing.Between settings attaches reservations state ∧
    state.gmFwd = false ∧ state.gmProxy = false) ∧ seen = state)
    (Meets.look fun state holds => ⟨holds, rfl⟩) fun seen => ?_
  split
  · next attached =>
    refine Meets.bind (fun _ state => closing.Between settings attaches reservations state ∧
      state.gmFwd = false ∧ state.gmProxy = false ∧ state.ttnnClient = true)
      (Meets.modify ?_) fun _ => Meets.bind (fun _ state =>
        closing.Between settings attaches reservations state ∧ state.gmFwd = false ∧
          state.gmProxy = false ∧ state.ttnnClient = true)
        (Meets.check (fun _ holds _ => holds) ?_) fun _ => Meets.modify ?_
    · rintro state ⟨⟨⟨kept, acquired, shards⟩, unforwarded, idle⟩, rfl⟩
      have ended : seen.thread = none := by
        by_contra running
        exact absurd (kept.served.2 running) (by simp [idle])
      refine ⟨⟨{ kept with calm := ?_ }, ⟨acquired.attaches, acquired.reservations⟩, shards⟩,
        unforwarded, idle, attached⟩
      simp [kept.calm, kept.served.1, ended]
    · exact fun state ⟨between, _⟩ raises =>
        ⟨between.kept, between.acquired, .master, by simpa using raises⟩
    · rintro state ⟨⟨kept, acquired, shards⟩, unforwarded, idle, attached⟩
      have held := kept.held
      simp only [attached, shards, List.count_nil, true_and, Nat.zero_add] at held
      refine ⟨⟨{ kept with
          held := ?_, once := kept.once.erase _, detached := ?_,
          ordered := fun some_shard => absurd shards some_shard },
        ⟨acquired.attaches, acquired.reservations⟩, shards⟩, unforwarded, idle, rfl⟩
      · intro coord
        have counted := held coord
        simp only [leave, List.count_erase, shards, List.count_nil, counted]
        rcases eq_or_ne coord settings.masterCoord with rfl | different
        · simp
        · simp [different, different.symm]
      · intro coord
        have counted := kept.detached coord
        have counts := held coord
        simp only [leave, List.count_erase]
        rcases eq_or_ne coord settings.masterCoord with rfl | different
        · rw [update_self, beq_self_eq_true, if_pos rfl]
          rw [if_pos rfl] at counts
          omega
        · rw [update_of_ne different, beq_false_of_ne different.symm]
          simpa using counted
  · next unattached =>
    refine Meets.pure ?_
    rintro state ⟨⟨between, unforwarded, idle⟩, rfl⟩
    exact ⟨between, unforwarded, idle, by simpa using unattached⟩

/-- A close that attends to the requests of forwarders keeps the promise however it ends; one
that returns has released everything but a reservation whose release failed. -/
theorem close_meets : Meets
    (fun state => Kept settings state ∧ Acquired attaches reservations state ∧
      ¬ Abandons closing state)
    (close closing settings)
    (fun _ state => closing.Between settings attaches reservations state ∧
      state.gmFwd = false ∧ state.gmProxy = false ∧ state.ttnnClient = false ∧
      state.opened = false ∧ (closing.raises .gather = false → state.gatherResources = false))
    (Failed settings closing attaches reservations) := by
  refine Meets.bind _ closeShards_meets fun _ => ?_
  refine Meets.bind _ closeForwarder_meets fun _ => ?_
  refine Meets.bind _ closeProxy_meets fun _ => ?_
  refine Meets.bind _ closeMaster_meets fun _ => ?_
  refine Meets.bind (fun _ state => closing.Between settings attaches reservations state ∧
      state.gmFwd = false ∧ state.gmProxy = false ∧ state.ttnnClient = false ∧
      (closing.raises .gather = false → state.gatherResources = false))
    (Meets.modify ?_) fun _ => Meets.modify ?_
  · rintro state ⟨⟨kept, acquired, shards⟩, unforwarded, idle, unattached⟩
    rw [releaseGather]
    split
    · next releases =>
      refine ⟨⟨{ kept with reserved := rfl, released := ?_ },
        ⟨acquired.attaches, acquired.reservations⟩, shards⟩, unforwarded, idle, unattached,
        fun _ => rfl⟩
      have counted := kept.released
      rw [kept.reserved, releases.1, if_pos rfl] at counted
      simpa using counted
    · next keeps =>
      refine ⟨⟨kept, acquired, shards⟩, unforwarded, idle, unattached, fun closes => ?_⟩
      rw [kept.reserved]
      simpa [closes] using keeps
  · rintro state ⟨⟨kept, acquired, shards⟩, unforwarded, idle, unattached, gather⟩
    exact ⟨⟨{ kept with proxied := fun serves => absurd (idle.symm.trans serves) nofun },
      ⟨acquired.attaches, acquired.reservations⟩, shards⟩, unforwarded, idle, unattached, rfl,
      gather⟩

end Stages

/-! ## Runs -/

/-- A smooth close abandons nothing. -/
theorem smooth_attends (state : State) : ¬ Abandons .smooth state := fun abandons =>
  Bool.false_ne_true abandons.1

/-- The promise, its last part included. -/
theorem Kept.allOrNothing (kept : Kept settings state) : AllOrNothing settings state where
  held := kept.held
  once := kept.once
  detached := kept.detached
  ordered := kept.ordered
  reserved := kept.reserved
  released := kept.released
  served := kept.served
  calm := kept.calm
  connected := kept.connected
  closes := by
    rcases close_meets.outcome ⟨kept, ⟨rfl, rfl⟩, smooth_attends state⟩ with
      ⟨_, after, _, failed⟩ | ⟨⟨⟩, after, returned, between, unforwarded, idle, unattached, closed,
        gather⟩
    · obtain ⟨_, raises⟩ := failed.raised
      exact absurd raises Bool.false_ne_true
    · have detached := between.kept.held
      simp only [between.shards, unattached, List.count_nil, Bool.false_eq_true, false_and,
        if_false, Nat.zero_add] at detached
      have none_active : after.activeClients = [] :=
        List.eq_nil_iff_forall_not_mem.mpr fun coord => List.count_eq_zero.mp (detached coord)
      have ended : after.thread = none := by
        by_contra running
        exact absurd (idle.symm.trans (between.kept.served.2 running)) Bool.false_ne_true
      refine ⟨after, returned, none_active, gather rfl, ended, between.kept.served.1, unforwarded,
        closed, fun coord => ?_, between.acquired.reservations, ?_⟩
      · have counted := between.kept.detached coord
        rw [detached coord, between.acquired.attaches] at counted
        exact ⟨congrFun between.acquired.attaches coord, counted.symm⟩
      · have counted := between.kept.released
        rw [gather rfl, between.acquired.reservations] at counted
        exact counted.symm

theorem Kept.openClient (kept : Kept settings state) (fails : Point → Bool) (closing : Closing) :
    Kept settings (openClient settings fails closing state).2 := by
  rw [WireClient.openClient]
  split
  · exact kept
  · next unopened =>
    have unserved : state.gmProxy = false := by
      by_contra serves
      exact unopened (kept.proxied (by simpa using serves))
    rcases (@openBody_meets settings fails).outcome ⟨kept, unserved, nofun⟩ with
      ⟨failure, after, failed, opening⟩ | ⟨value, after, returned, opened⟩
    · rw [failed]
      have attends : ¬ Abandons closing after := by
        rintro ⟨_, busy, _⟩
        have running : after.thread ≠ none := by
          rcases busy with executing | finishing
          · simp [executing]
          · simp [finishing]
        exact absurd (opening.unserved.symm.trans (opening.kept.served.2 running))
          Bool.false_ne_true
      rcases close_meets.outcome ⟨opening.kept, ⟨rfl, rfl⟩, attends⟩ with
        ⟨_, last, closed, left⟩ | ⟨_, last, closed, between, _⟩
      · exact (congrArg Prod.snd closed) ▸ left.kept
      · exact (congrArg Prod.snd closed) ▸ between.kept
    · rw [returned]
      exact opened

theorem Kept.move (kept : Kept settings state) {action : Action} {events : List Empty}
    (attended : Attended state action)
    (moved : move settings state action = some (after, events)) : Kept settings after := by
  cases action with
  | openClient fails closing =>
    obtain ⟨rfl, _⟩ := Prod.mk.inj (Option.some.inj moved)
    exact kept.openClient fails closing
  | close closing =>
    obtain ⟨rfl, _⟩ := Prod.mk.inj (Option.some.inj moved)
    rcases close_meets.outcome ⟨kept, ⟨rfl, rfl⟩, attended⟩ with
      ⟨_, last, closed, left⟩ | ⟨_, last, closed, between, _⟩
    · exact (congrArg Prod.snd closed) ▸ left.kept
    · exact (congrArg Prod.snd closed) ▸ between.kept
  | receive =>
    rw [WireClient.move] at moved
    split at moved
    · next polls =>
      obtain ⟨rfl, _⟩ := Prod.mk.inj (Option.some.inj moved)
      exact { kept with served := ⟨kept.served.1, fun _ => kept.served.2 (by simp [polls])⟩ }
    · cases moved
  | reply =>
    obtain ⟨rfl, _⟩ := Prod.mk.inj (Option.some.inj moved)
    refine { kept with served := ⟨kept.served.1, fun running => kept.served.2 fun ended => ?_⟩ }
    exact running (by rw [ended]; rfl)
  | abandonedReply =>
    obtain ⟨rfl, _⟩ := Prod.mk.inj (Option.some.inj moved)
    exact { kept with served := ⟨by simp [kept.served.1], kept.served.2⟩ }

/-- In every run whose closes abandon no request, opening is all or nothing and closing is
ordered.

Proof: every call keeps the promise. Opening acquires a part only where none is held, which the
registry sees to for the wire clients; and a close that comes to the master has no thread left. -/
theorem handles_are_kept {events : List Empty}
    (run : Run (TakesWhere (move settings) Attended) start events state) :
    AllOrNothing settings state :=
  (run.invariant (Kept settings) (kept_start settings)
    fun _ _ _ kept ⟨_, attended, moved⟩ => kept.move attended moved).allOrNothing

/-- The owner of the wire on a mesh of two chips. -/
def owner : Settings := ⟨false, some .owner, false, .device, some [0, 0], [[0, 0], [0, 1]]⟩

/-- An open that succeeds. -/
def opens : Action := .openClient (fun _ => false) .smooth

/-- A request is answered before the client is closed. -/
theorem handles_are_kept_once : ∃ state,
    Run.execute (move owner) start [opens, .receive, .reply, .close .smooth] = some (state, []) ∧
      state.detaches [0, 0] = 1 ∧ AllOrNothing owner state :=
  ⟨_, rfl, rfl, handles_are_kept
    (.next (.next (.next (.next .start ⟨opens, trivial, rfl⟩) ⟨.receive, trivial, rfl⟩)
      ⟨.reply, trivial, rfl⟩) ⟨.close .smooth, smooth_attends _, rfl⟩)⟩

/-- A request outlasts the wait of a close, which then closes the master under it and forgets
the proxy that still runs. -/
theorem abandoned_request : ∃ state,
    Run (Takes (move owner)) start [] state ∧
      Run.execute (move owner) start [opens, .receive, .close ⟨fun _ => false, true⟩] =
        some (state, []) ∧
      state.closedWhileExecuting = true ∧ state.gmProxy = false ∧
      state.abandoned = [.finishing] ∧ ¬ AllOrNothing owner state := by
  suffices broken : ∃ state,
      Run.execute (move owner) start [opens, .receive, .close ⟨fun _ => false, true⟩] =
        some (state, []) ∧
      state.closedWhileExecuting = true ∧ state.gmProxy = false ∧
      state.abandoned = [.finishing] by
    obtain ⟨state, executed, closed, forgotten, runs⟩ := broken
    exact ⟨state, Run.Run.execute .start executed, executed, closed, forgotten, runs,
      fun kept => absurd (closed.symm.trans kept.calm) (by decide)⟩
  exact ⟨_, rfl, rfl, rfl, rfl⟩

end KvCache.Lmcache.WireClient
