import Mathlib.Data.List.Basic
import Mathlib.Data.List.Nodup
import Mathlib.Logic.Function.Basic

/-!
# Copies under way

A program issues copies of single places and waits for them with barriers. A copy reads its
source and writes its target at one moment, anywhere between its issue and the barrier of its
kind; copies under way finish in any order.

The settled memory is what the memory becomes when the copies under way have finished. As
long as copies under way are apart, that is, none writes what another one reads or writes,
finishing one of them leaves the settled memory; issuing a copy changes it as if the copy
were made at once. A program is safe when every copy is apart from those that may be under
way, whatever has finished.
-/

namespace KvCache.Transfers

universe u v w
variable {α : Type u} {β : Type v} {κ : Type w}

/-- A copy from one place to another. -/
structure Move (α : Type u) where
  source : α
  target : α
deriving DecidableEq, Repr

/-- Neither copy writes what the other one reads or writes. -/
def Move.Apart (one other : Move α) : Prop :=
  one.target ≠ other.target ∧ one.target ≠ other.source ∧ other.target ≠ one.source

theorem Move.Apart.symm {one other : Move α} (apart : one.Apart other) : other.Apart one :=
  ⟨apart.1.symm, apart.2.2, apart.2.1⟩

/-- What a program issues: copies of one kind, or a barrier for a kind. -/
inductive Command (κ : Type w) (α : Type u) where
  | issue (kind : κ) (moves : List (Move α))
  | barrier (kind : κ)
deriving DecidableEq, Repr

/-- A memory with the copies under way. -/
structure Engine (κ : Type w) (α : Type u) (β : Type v) where
  memory : α → β
  pending : List (κ × Move α)

section Copies

variable [DecidableEq α]

/-- One copy. -/
def carry (memory : α → β) (move : Move α) : α → β :=
  Function.update memory move.target (memory move.source)

/-- Copies one after the other. -/
def carryAll (memory : α → β) (moves : List (Move α)) : α → β := moves.foldl carry memory

theorem carryAll_append (memory : α → β) (front back : List (Move α)) :
    carryAll memory (front ++ back) = carryAll (carryAll memory front) back :=
  List.foldl_append

/-- Copies that are apart commute. -/
theorem carry_comm {one other : Move α} (apart : one.Apart other) (memory : α → β) :
    carry (carry memory one) other = carry (carry memory other) one := by
  obtain ⟨targets, first, second⟩ := apart
  unfold carry
  rw [Function.update_of_ne first.symm, Function.update_of_ne second.symm,
    Function.update_comm targets]

/-- A copy that is apart from others may be made before them. -/
theorem carryAll_carry {moves : List (Move α)} {move : Move α}
    (apart : ∀ other ∈ moves, move.Apart other) (memory : α → β) :
    carry (carryAll memory moves) move = carryAll (carry memory move) moves := by
  induction moves generalizing memory with
  | nil => rfl
  | cons first rest inductionHypothesis =>
    have here := apart first (List.mem_cons_self ..)
    change carry (carryAll (carry memory first) rest) move =
      carryAll (carry (carry memory move) first) rest
    rw [inductionHypothesis (fun other member => apart other (List.mem_cons_of_mem _ member)),
      carry_comm here]

/-- A place that no copy writes keeps its value. -/
theorem carryAll_other {moves : List (Move α)} {place : α}
    (untouched : ∀ move ∈ moves, move.target ≠ place) (memory : α → β) :
    carryAll memory moves place = memory place := by
  induction moves generalizing memory with
  | nil => rfl
  | cons first rest inductionHypothesis =>
    have here := untouched first (List.mem_cons_self ..)
    change carryAll (carry memory first) rest place = memory place
    rw [inductionHypothesis (fun move member => untouched move (List.mem_cons_of_mem _ member)),
      carry, Function.update_of_ne here.symm]

/-- The target of a copy gets its source, when the copies are apart. -/
theorem carryAll_target {moves : List (Move α)} (apart : moves.Pairwise Move.Apart)
    {move : Move α} (member : move ∈ moves) (memory : α → β) :
    carryAll memory moves move.target = memory move.source := by
  induction moves generalizing memory with
  | nil => cases member
  | cons first rest inductionHypothesis =>
    obtain ⟨ahead, behind⟩ := List.pairwise_cons.mp apart
    change carryAll (carry memory first) rest move.target = memory move.source
    obtain rfl | later := List.mem_cons.mp member
    · rw [carryAll_other (fun other listed => (ahead other listed).1.symm), carry,
        Function.update_self]
    · rw [inductionHypothesis behind later, carry,
        Function.update_of_ne (ahead move later).2.1.symm]

/-- A change of a place that no copy reads or writes is seen behind the copies. -/
theorem carryAll_update {moves : List (Move α)} {place : α}
    (untouched : ∀ move ∈ moves, move.target ≠ place ∧ move.source ≠ place) (memory : α → β)
    (value : β) :
    carryAll (Function.update memory place value) moves =
      Function.update (carryAll memory moves) place value := by
  induction moves generalizing memory with
  | nil => rfl
  | cons first rest inductionHypothesis =>
    obtain ⟨target, source⟩ := untouched first (List.mem_cons_self ..)
    change carryAll (carry (Function.update memory place value) first) rest =
      Function.update (carryAll (carry memory first) rest) place value
    have moved : carry (Function.update memory place value) first =
        Function.update (carry memory first) place value := by
      unfold carry
      rw [Function.update_of_ne source, Function.update_comm target.symm]
    rw [moved, inductionHypothesis fun move member =>
      untouched move (List.mem_cons_of_mem _ member)]

/-! ## Engines -/

/-- The memory once every copy under way has finished. -/
def Engine.settled (engine : Engine κ α β) : α → β :=
  carryAll engine.memory (engine.pending.map Prod.snd)

/-- Copies are issued. -/
def Engine.issue (kind : κ) (moves : List (Move α)) (engine : Engine κ α β) : Engine κ α β :=
  { engine with pending := engine.pending ++ moves.map fun move => (kind, move) }

/-- A copy under way finishes. -/
def Engine.finish (index : Nat) (engine : Engine κ α β) : Option (Engine κ α β) :=
  engine.pending[index]?.map fun (_, move) =>
    ⟨carry engine.memory move, engine.pending.eraseIdx index⟩

/-- A place is written from outside. -/
def Engine.poke (place : α) (value : β) (engine : Engine κ α β) : Engine κ α β :=
  { engine with memory := Function.update engine.memory place value }

/-- No copy of a kind is under way. -/
def Engine.idle [DecidableEq κ] (kind : κ) (engine : Engine κ α β) : Bool :=
  engine.pending.all fun copy => copy.1 != kind

/-- A program without delays. -/
def perform : List (Command κ α) → (α → β) → α → β
  | [], memory => memory
  | .issue _ moves :: rest, memory => perform rest (carryAll memory moves)
  | .barrier _ :: rest, memory => perform rest memory

omit [DecidableEq α] in
theorem map_tagged (kind : κ) (moves : List (Move α)) :
    (moves.map fun move => (kind, move)).map Prod.snd = moves := by
  rw [List.map_map]
  exact List.map_id moves

omit [DecidableEq α] in
/-- Erasing from the copies erases from their moves. -/
theorem map_eraseIdx (copies : List (κ × Move α)) (index : Nat) :
    (copies.eraseIdx index).map Prod.snd = (copies.map Prod.snd).eraseIdx index := by
  induction copies generalizing index with
  | nil => rfl
  | cons first rest inductionHypothesis =>
    cases index with
    | zero => rfl
    | succ index => simp [inductionHypothesis]

/-- Finishing one of several copies that are apart leads to the same memory. -/
theorem carryAll_eraseIdx {moves : List (Move α)} (apart : moves.Pairwise Move.Apart)
    {index : Nat} {move : Move α} (found : moves[index]? = some move) (memory : α → β) :
    carryAll (carry memory move) (moves.eraseIdx index) = carryAll memory moves := by
  induction moves generalizing index memory with
  | nil => simp at found
  | cons first rest inductionHypothesis =>
    obtain ⟨ahead, behind⟩ := List.pairwise_cons.mp apart
    cases index with
    | zero =>
      have same : first = move := by simpa using found
      rw [same]
      rfl
    | succ index =>
      have later : rest[index]? = some move := by simpa using found
      have apart := ahead move (List.mem_of_getElem? later)
      change carryAll (carry (carry memory move) first) (rest.eraseIdx index) =
        carryAll (carry memory first) rest
      rw [← carry_comm apart, inductionHypothesis behind later]

/-! ## What is known of an engine -/

/-- The copies under way are apart and among those that were issued since their barriers;
what they lead to is known. -/
structure Tracks (engine : Engine κ α β) (inFlight : List (κ × Move α)) (settled : α → β) :
    Prop where
  apart : (engine.pending.map Prod.snd).Pairwise Move.Apart
  issued : ∀ copy ∈ engine.pending, copy ∈ inFlight
  settles : engine.settled = settled

variable {engine after : Engine κ α β} {inFlight : List (κ × Move α)} {memory : α → β}

theorem Tracks.issue (tracks : Tracks engine inFlight memory) {kind : κ} {moves : List (Move α)}
    (clear : ∀ move ∈ moves, ∀ copy ∈ inFlight, copy.2.Apart move)
    (apart : moves.Pairwise Move.Apart) :
    Tracks (engine.issue kind moves) (inFlight ++ moves.map fun move => (kind, move))
      (carryAll memory moves) where
  apart := by
    simp only [Engine.issue, List.map_append, map_tagged]
    refine List.pairwise_append.mpr ⟨tracks.apart, apart, ?_⟩
    intro earlier listed move member
    obtain ⟨copy, under, rfl⟩ := List.mem_map.mp listed
    exact clear move member copy (tracks.issued copy under)
  issued := by
    intro copy member
    obtain before | new := List.mem_append.mp member
    · exact List.mem_append_left _ (tracks.issued copy before)
    · exact List.mem_append_right _ new
  settles := by
    rw [Engine.settled, Engine.issue, List.map_append, carryAll_append, map_tagged,
      ← tracks.settles]
    rfl

theorem Tracks.barrier [DecidableEq κ] (tracks : Tracks engine inFlight memory) {kind : κ}
    (idle : engine.idle kind = true) :
    Tracks engine (inFlight.filter fun copy => copy.1 != kind) memory where
  apart := tracks.apart
  issued := by
    intro copy member
    have different := List.all_eq_true.mp idle copy member
    exact List.mem_filter.mpr ⟨tracks.issued copy member, different⟩
  settles := tracks.settles

theorem Tracks.finish (tracks : Tracks engine inFlight memory) {index : Nat}
    (finished : engine.finish index = some after) : Tracks after inFlight memory := by
  obtain ⟨⟨kind, move⟩, found, rfl⟩ := Option.map_eq_some_iff.mp finished
  have here : (engine.pending.map Prod.snd)[index]? = some move := by simp [found]
  constructor
  · rw [map_eraseIdx]
    exact tracks.apart.sublist (List.eraseIdx_sublist ..)
  · intro copy member
    exact tracks.issued copy (List.mem_of_mem_eraseIdx member)
  · rw [← tracks.settles, Engine.settled, Engine.settled, map_eraseIdx]
    exact carryAll_eraseIdx tracks.apart here engine.memory

/-- A place that no copy in flight reads or writes is changed from outside. -/
theorem Tracks.poke (tracks : Tracks engine inFlight memory) {place : α} {value : β}
    (untouched : ∀ copy ∈ inFlight, copy.2.target ≠ place ∧ copy.2.source ≠ place) :
    Tracks (engine.poke place value) inFlight (Function.update memory place value) where
  apart := tracks.apart
  issued := tracks.issued
  settles := by
    rw [← tracks.settles, Engine.settled, Engine.settled, Engine.poke]
    apply carryAll_update
    intro move member
    obtain ⟨copy, under, rfl⟩ := List.mem_map.mp member
    exact untouched copy (tracks.issued copy under)

/-- When nothing is in flight the memory is settled. -/
theorem Tracks.memory_eq (tracks : Tracks engine [] memory) : engine.memory = memory := by
  have none : engine.pending = [] :=
    List.eq_nil_iff_forall_not_mem.mpr fun copy member => by
      cases tracks.issued copy member
  rw [← tracks.settles, Engine.settled, none]
  rfl

/-- The copies in flight after a command. -/
def Command.launch [DecidableEq κ] (inFlight : List (κ × Move α)) :
    Command κ α → List (κ × Move α)
  | .issue kind moves => inFlight ++ moves.map fun move => (kind, move)
  | .barrier kind => inFlight.filter fun copy => copy.1 != kind

/-- Every copy of a program is apart from those that may be under way when it is issued. -/
def Safe [DecidableEq κ] : List (κ × Move α) → List (Command κ α) → Prop
  | _, [] => True
  | inFlight, .issue kind moves :: rest =>
    ((∀ move ∈ moves, ∀ copy ∈ inFlight, copy.2.Apart move) ∧ moves.Pairwise Move.Apart) ∧
      Safe ((Command.issue kind moves).launch inFlight) rest
  | inFlight, .barrier kind :: rest => Safe ((Command.barrier kind).launch inFlight) rest

end Copies

/-! ## Programs after one another -/

section Programs

variable [DecidableEq κ] {first second : List (Command κ α)} {inFlight : List (κ × Move α)}

/-- What may be under way after a program. -/
def launchAll (inFlight : List (κ × Move α)) (program : List (Command κ α)) :
    List (κ × Move α) :=
  program.foldl Command.launch inFlight

theorem launchAll_append : launchAll inFlight (first ++ second) =
    launchAll (launchAll inFlight first) second :=
  List.foldl_append

theorem safe_append : Safe inFlight (first ++ second) ↔
    Safe inFlight first ∧ Safe (launchAll inFlight first) second := by
  induction first generalizing inFlight with
  | nil => simp [Safe, launchAll]
  | cons command rest inductionHypothesis =>
    cases command with
    | issue kind moves =>
      rw [List.cons_append, Safe, Safe, inductionHypothesis, ← and_assoc]
      rfl
    | barrier kind =>
      rw [List.cons_append, Safe, Safe, inductionHypothesis]
      rfl

omit [DecidableEq κ] in
theorem perform_append [DecidableEq α] (memory : α → β) :
    perform (first ++ second) memory = perform second (perform first memory) := by
  induction first generalizing memory with
  | nil => rfl
  | cons command rest inductionHypothesis =>
    cases command with
    | issue kind moves => exact inductionHypothesis _
    | barrier kind => exact inductionHypothesis _

end Programs

/-! ## Copies of blocks -/

section Blocks

/-- The copies of a block, place by place. -/
def block (source target : Nat → α) (origin start length : Nat) : List (Move α) :=
  (List.range length).map fun offset => ⟨source (origin + offset), target (start + offset)⟩

variable {source target : Nat → α} {origin start length : Nat}

theorem mem_block {move : Move α} : move ∈ block source target origin start length ↔
    ∃ offset < length, move = ⟨source (origin + offset), target (start + offset)⟩ := by
  unfold block
  rw [List.mem_map]
  constructor
  · rintro ⟨offset, member, rfl⟩
    exact ⟨offset, List.mem_range.mp member, rfl⟩
  · rintro ⟨offset, less, rfl⟩
    exact ⟨offset, List.mem_range.mpr less, rfl⟩

/-- The copies of a block between two spaces are apart. -/
theorem block_apart (injective : Function.Injective target)
    (separate : ∀ here there, target here ≠ source there) :
    (block source target origin start length).Pairwise Move.Apart := by
  unfold block
  rw [List.pairwise_map]
  apply List.Pairwise.imp _ (List.nodup_range)
  intro one other different
  refine ⟨fun same => different ?_, separate _ _, separate _ _⟩
  have places := injective same
  omega

variable [DecidableEq α]

/-- A copied block. -/
theorem carryAll_block (injective : Function.Injective target)
    (separate : ∀ here there, target here ≠ source there) (memory : α → β) {offset : Nat}
    (inside : offset < length) :
    carryAll memory (block source target origin start length) (target (start + offset)) =
      memory (source (origin + offset)) := by
  have member : (⟨source (origin + offset), target (start + offset)⟩ : Move α) ∈
      block source target origin start length := mem_block.mpr ⟨offset, inside, rfl⟩
  exact carryAll_target (block_apart injective separate) member memory

/-- Outside the target of a copied block nothing changes. -/
theorem carryAll_block_other (memory : α → β) {place : α}
    (outside : ∀ offset < length, target (start + offset) ≠ place) :
    carryAll memory (block source target origin start length) place = memory place := by
  apply carryAll_other
  intro move member
  obtain ⟨offset, less, rfl⟩ := mem_block.mp member
  exact outside offset less

end Blocks

end KvCache.Transfers
