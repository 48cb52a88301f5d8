import Mathlib.Data.List.Perm.Basic
import Mathlib.Data.List.Forall2
import Mathlib.Logic.Function.Basic

/-!
# A lock-free stack of linked nodes

A stack is an atomic head pointer and a next pointer in every node. A push writes the
head it has read into the next pointer of its node and then compares and exchanges; if
the head has changed meanwhile, or the exchange fails spuriously, it reads again. A drain
exchanges the head for null and walks the chain it has taken, node after node; it may
push a node again. Any number of pushes and drains interleave.

The comparison is of pointers only, so that a head which has been drained and pushed
again passes for the head that was read. This does no harm: what is written is the next
pointer of the pushed node, and the chain it starts is the one that the head starts now.
-/

namespace KvCache

variable {ν : Type*}

/-- The atomic head, the next pointers, the nodes that are being pushed with the head
each of them has read, and where the drains stand in their chains. -/
structure PointerStack (ν : Type*) where
  head : Option ν
  next : ν → Option ν
  pushing : List (ν × Option ν)
  draining : List (Option ν)

namespace PointerStack

/-- A stack without nodes. -/
def empty : PointerStack ν := ⟨none, fun _ => none, [], []⟩

section Operations

variable [DecidableEq ν]

/-- Load the head and write it into the node. -/
def load (stack : PointerStack ν) (node : ν) : PointerStack ν :=
  { stack with
    next := Function.update stack.next node stack.head
    pushing := (node, stack.head) :: stack.pushing }

/-- Compare the head with the one that was read and exchange it for the node, or read it
again. -/
def attempt (stack : PointerStack ν) (node : ν) (expected : Option ν) (spurious : Bool) :
    PointerStack ν :=
  let others := { stack with pushing := stack.pushing.erase (node, expected) }
  if stack.head = expected ∧ ¬ spurious then { others with head := some node }
  else others.load node

/-- Exchange the head for null and walk what it led to. -/
def exchange (stack : PointerStack ν) : PointerStack ν :=
  { stack with head := none, draining := stack.head :: stack.draining }

/-- Take the node that a drain stands at and go on to its next one. -/
def take (stack : PointerStack ν) (node : ν) : PointerStack ν :=
  { stack with draining := stack.next node :: stack.draining.erase (some node) }

end Operations

/-! ## The chains -/

/-- The nodes that a pointer leads to. -/
inductive Chain (next : ν → Option ν) : Option ν → List ν → Prop where
  | null : Chain next none []
  | node {node : ν} {rest : List ν} (tail : Chain next (next node) rest) :
      Chain next (some node) (node :: rest)

variable {stack : PointerStack ν} {next : ν → Option ν} {pointer : Option ν} {node : ν}

/-- Writing the next pointer of a node that a chain does not lead to keeps the chain. -/
theorem Chain.write [DecidableEq ν] {chain : List ν} (led : Chain next pointer chain) (apart : node ∉ chain)
    (value : Option ν) : Chain (Function.update next node value) pointer chain := by
  induction led with
  | null => exact .null
  | node tail inductionHypothesis =>
    simp only [List.mem_cons, not_or] at apart
    apply Chain.node
    rw [Function.update_of_ne (Ne.symm apart.1)]
    exact inductionHypothesis apart.2

/-- The stack holds exactly the given nodes, each once: on the chain of the head, in a
push, or on the chain of a drain. -/
structure Represents (stack : PointerStack ν) (contents : List ν) : Prop where
  written : ∀ node expected, (node, expected) ∈ stack.pushing → stack.next node = expected
  nodup : contents.Nodup
  chained : ∃ chains : List (List ν),
    List.Forall₂ (Chain stack.next) (stack.head :: stack.draining) chains ∧
      contents.Perm (stack.pushing.map Prod.fst ++ chains.flatten)

theorem represents_empty : (empty : PointerStack ν).Represents [] :=
  ⟨nofun, .nil, [[]], .cons .null .nil, .nil⟩

/-- The order in which the contents are listed does not matter. -/
theorem Represents.perm {contents others : List ν} (held : stack.Represents contents)
    (same : contents.Perm others) : stack.Represents others := by
  obtain ⟨chains, led, listed⟩ := held.chained
  exact ⟨held.written, same.nodup held.nodup, chains, led, same.symm.trans listed⟩

/-- Pointers listed in another order lead to the same nodes. -/
theorem chains_perm {pointers others : List (Option ν)} {chains : List (List ν)}
    (led : List.Forall₂ (Chain next) pointers chains) (same : others.Perm pointers) :
    ∃ permuted, List.Forall₂ (Chain next) others permuted ∧
      permuted.flatten.Perm chains.flatten := by
  obtain ⟨permuted, ledOthers, sameChains⟩ := List.perm_comp_forall₂ same led
  exact ⟨permuted, ledOthers, sameChains.flatten⟩

/-- The exchange for null moves the whole chain to a drain. -/
theorem Represents.exchange {contents : List ν} (held : stack.Represents contents) :
    stack.exchange.Represents contents := by
  obtain ⟨chains, led, listed⟩ := held.chained
  exact ⟨held.written, held.nodup, [] :: chains, .cons .null led, listed⟩

section Operations

variable [DecidableEq ν]

/-- Writing the next pointer of a node that no chain leads to keeps all chains. -/
theorem chains_write {pointers : List (Option ν)} {chains : List (List ν)}
    (led : List.Forall₂ (Chain next) pointers chains) (apart : node ∉ chains.flatten)
    (value : Option ν) :
    List.Forall₂ (Chain (Function.update next node value)) pointers chains := by
  induction led with
  | nil => exact .nil
  | cons chain rest inductionHypothesis =>
    simp only [List.flatten_cons, List.mem_append, not_or] at apart
    exact .cons (chain.write apart.1 value) (inductionHypothesis apart.2)

/-- Pushing a node that the stack does not hold adds it. -/
theorem Represents.load {contents : List ν} (held : stack.Represents contents)
    (fresh : node ∉ contents) : (stack.load node).Represents (node :: contents) := by
  obtain ⟨chains, led, listed⟩ := held.chained
  have apart : node ∉ stack.pushing.map Prod.fst ++ chains.flatten :=
    fun present => fresh (listed.symm.subset present)
  have apartPushing : ∀ expected, (node, expected) ∉ stack.pushing := fun expected present =>
    apart (List.mem_append_left _ (List.mem_map_of_mem (f := Prod.fst) present))
  refine ⟨?_, List.nodup_cons.mpr ⟨fresh, held.nodup⟩, chains, ?_, ?_⟩
  · intro other expected present
    rcases List.mem_cons.mp present with same | present
    · obtain ⟨rfl, rfl⟩ := Prod.mk.inj same
      exact Function.update_self ..
    · have differs : other ≠ node := fun same => apartPushing expected (same ▸ present)
      exact (Function.update_of_ne differs ..).trans (held.written other expected present)
  · exact chains_write led (fun inside => apart (List.mem_append_right _ inside)) stack.head
  · exact listed.cons node

/-- An attempt neither adds nor removes a node.

Proof: the node leaves the pushes. If the exchange succeeds, the node leads to the head
that was compared, which is the present one. Otherwise the node is pushed again. -/
theorem Represents.attempt {contents : List ν} (held : stack.Represents contents)
    {expected : Option ν} (pushing : (node, expected) ∈ stack.pushing) (spurious : Bool) :
    (stack.attempt node expected spurious).Represents contents := by
  obtain ⟨chains, led, listed⟩ := held.chained
  have split : stack.pushing.Perm ((node, expected) :: stack.pushing.erase (node, expected)) :=
    List.perm_cons_erase pushing
  have separated : contents.Perm
      (node :: ((stack.pushing.erase (node, expected)).map Prod.fst ++ chains.flatten)) :=
    listed.trans ((split.map Prod.fst).append_right _)
  have writtenOthers : ∀ other read, (other, read) ∈ stack.pushing.erase (node, expected) →
      stack.next other = read := fun other read present =>
    held.written other read (List.mem_of_mem_erase present)
  unfold PointerStack.attempt
  simp only
  split
  · rename_i compared
    refine ⟨writtenOthers, held.nodup, ?_⟩
    cases led with
    | @cons _ first _ others chain rest =>
      have linked : Chain stack.next (stack.next node) first := by
        rw [held.written node expected pushing, ← compared.1]
        exact chain
      exact ⟨(node :: first) :: others, .cons (.node linked) rest,
        separated.trans List.perm_middle.symm⟩
  · have withoutNode := separated.nodup held.nodup
    have others : PointerStack.Represents
        { stack with pushing := stack.pushing.erase (node, expected) } _ :=
      ⟨writtenOthers, (List.nodup_cons.mp withoutNode).2, chains, led, List.Perm.refl _⟩
    exact (others.load (List.nodup_cons.mp withoutNode).1).perm separated.symm

/-- Taking the node that a drain stands at removes that node and no other. -/
theorem Represents.take {contents : List ν} (held : stack.Represents contents)
    (standing : some node ∈ stack.draining) :
    ∃ others, contents.Perm (node :: others) ∧ (stack.take node).Represents others := by
  obtain ⟨chains, led, listed⟩ := held.chained
  have front : (some node :: stack.head :: stack.draining.erase (some node)).Perm
      (stack.head :: stack.draining) :=
    (List.Perm.swap ..).trans ((List.perm_cons_erase standing).symm.cons stack.head)
  obtain ⟨permuted, ledFront, sameNodes⟩ := chains_perm led front
  cases ledFront with
  | cons chain rest =>
    cases chain with
    | node tail =>
      rename_i restChains restOfChain
      have back : (stack.head :: stack.next node :: stack.draining.erase (some node)).Perm
          (stack.next node :: stack.head :: stack.draining.erase (some node)) := .swap ..
      obtain ⟨taken, ledTaken, sameTaken⟩ := chains_perm (.cons tail rest) back
      have separated : contents.Perm (node :: (stack.pushing.map Prod.fst ++ taken.flatten)) :=
        calc contents
          _ |>.Perm (stack.pushing.map Prod.fst ++ chains.flatten) := listed
          _ |>.Perm (stack.pushing.map Prod.fst ++ (node :: (restOfChain :: restChains).flatten)) :=
            sameNodes.symm.append_left _
          _ |>.Perm (stack.pushing.map Prod.fst ++ (node :: taken.flatten)) :=
            (sameTaken.symm.cons node).append_left _
          _ |>.Perm (node :: (stack.pushing.map Prod.fst ++ taken.flatten)) := List.perm_middle
      refine ⟨_, separated, held.written, ?_, taken, ledTaken, List.Perm.refl _⟩
      exact (List.nodup_cons.mp (separated.nodup held.nodup)).2

end Operations

/-- Where nothing is being pushed or drained, the head leads to all the nodes. -/
theorem Represents.settled {contents : List ν} (held : stack.Represents contents)
    (quiet : stack.pushing = []) (walked : ∀ pointer ∈ stack.draining, pointer = none) :
    ∃ chain, Chain stack.next stack.head chain ∧ contents.Perm chain := by
  obtain ⟨chains, led, listed⟩ := held.chained
  rw [quiet] at listed
  cases led with
  | cons chain rest =>
    rename_i first others
    have emptied : others.flatten = [] := by
      clear listed
      generalize stack.draining = pointers at rest walked
      induction rest with
      | nil => rfl
      | cons drained _ inductionHypothesis =>
        rw [List.forall_mem_cons] at walked
        obtain ⟨rfl, walkedRest⟩ := walked
        cases drained
        exact inductionHypothesis walkedRest
    refine ⟨first, chain, ?_⟩
    rwa [List.map_nil, List.nil_append, List.flatten_cons, emptied, List.append_nil] at listed

/-! ## Pushes only -/

/-- The pushes of a stack are of different nodes. -/
theorem Represents.pushing_nodup {contents : List ν} (held : stack.Represents contents) :
    stack.pushing.Nodup := by
  obtain ⟨chains, -, listed⟩ := held.chained
  exact List.Pairwise.of_map Prod.fst (fun _ _ => mt (congrArg Prod.fst))
    (List.nodup_append.mp (listed.nodup held.nodup)).1

/-- A stack that is pushed to and never drained holds exactly the pushed nodes, and its
pushes are those that the pushers know of, with the heads that they have read. -/
structure Pushed (stack : PointerStack ν) (pushed : ν → Prop) (reading : ν → Option (Option ν)) :
    Prop where
  represented : ∃ contents, stack.Represents contents ∧ ∀ node, node ∈ contents ↔ pushed node
  pushing : ∀ node expected, (node, expected) ∈ stack.pushing ↔ reading node = some expected
  undrained : stack.draining = []

variable {pushed others : ν → Prop} {reading readings : ν → Option (Option ν)}

theorem pushed_empty : (empty : PointerStack ν).Pushed (fun _ => False) fun _ => none :=
  ⟨⟨[], represents_empty, by simp⟩, by simp [empty], rfl⟩

/-- Only what is pushed and what is read matters. -/
theorem Pushed.congr (held : stack.Pushed pushed reading) (same : ∀ node, others node ↔ pushed node)
    (read : ∀ node, readings node = reading node) : stack.Pushed others readings := by
  obtain rfl : others = pushed := funext fun node => propext (same node)
  obtain rfl : readings = reading := funext read
  exact held

/-- A node that is being pushed is a pushed node. -/
theorem Pushed.pushed_of_reading (held : stack.Pushed pushed reading) {expected : Option ν}
    (reads : reading node = some expected) : pushed node := by
  obtain ⟨contents, represents, listed⟩ := held.represented
  obtain ⟨chains, -, split⟩ := represents.chained
  refine (listed node).mp (split.symm.subset (List.mem_append_left _ ?_))
  exact List.mem_map_of_mem (f := Prod.fst) ((held.pushing node expected).mpr reads)

/-- A pushed node whose push is over is on the chain of the head. -/
theorem Pushed.on_chain (held : stack.Pushed pushed reading) (present : pushed node)
    (finished : reading node = none) : ∃ chain, Chain stack.next stack.head chain ∧ node ∈ chain := by
  obtain ⟨contents, represents, listed⟩ := held.represented
  obtain ⟨chains, led, split⟩ := represents.chained
  rw [held.undrained] at led
  cases led with
  | cons chain rest =>
    rename_i first others
    cases rest
    refine ⟨first, chain, ?_⟩
    rcases List.mem_append.mp (split.subset ((listed node).mpr present)) with pushing | on
    · obtain ⟨⟨_, expected⟩, inside, rfl⟩ := List.mem_map.mp pushing
      exact nomatch finished.symm.trans ((held.pushing _ expected).mp inside)
    · simpa using on

section Operations

variable [DecidableEq ν]

/-- A node begins to be pushed. -/
theorem Pushed.load (held : stack.Pushed pushed reading) (fresh : ¬ pushed node)
    (mine : others node) (rest : ∀ other, other ≠ node → (others other ↔ pushed other))
    (reads : readings node = some stack.head)
    (unread : ∀ other, other ≠ node → readings other = reading other) :
    (stack.load node).Pushed others readings := by
  obtain ⟨contents, represents, listed⟩ := held.represented
  have idle : reading node = none := by
    by_contra reads
    obtain ⟨expected, reads⟩ := Option.ne_none_iff_exists'.mp reads
    exact fresh (held.pushed_of_reading reads)
  refine ⟨⟨node :: contents, represents.load fun inside => fresh ((listed node).mp inside), ?_⟩, ?_,
    held.undrained⟩
  · intro other
    by_cases here : other = node
    · simp [here, mine]
    · simp [here, rest other here, listed]
  · intro other expected
    have pushing : (stack.load node).pushing = (node, stack.head) :: stack.pushing := rfl
    rw [pushing, List.mem_cons, held.pushing, Prod.mk.injEq]
    by_cases here : other = node
    · simp [here, reads, idle, eq_comm]
    · simp [here, unread other here]

/-- A push is tried: either it is over, or the node has read the head again. -/
theorem Pushed.attempt (held : stack.Pushed pushed reading) {expected : Option ν}
    (reads : reading node = some expected) (spurious : Bool)
    (mine : readings node =
      if stack.head = expected ∧ ¬ spurious then none else some stack.head)
    (unread : ∀ other, other ≠ node → readings other = reading other) :
    (stack.attempt node expected spurious).Pushed pushed readings := by
  obtain ⟨contents, represents, listed⟩ := held.represented
  have pushing := (held.pushing node expected).mpr reads
  refine ⟨⟨contents, represents.attempt pushing spurious, listed⟩, ?_, ?_⟩
  · have gone : ∀ read, (node, read) ∉ stack.pushing.erase (node, expected) := by
      intro read inside
      obtain ⟨apart, inside⟩ := represents.pushing_nodup.mem_erase_iff.mp inside
      have same := reads.symm.trans ((held.pushing node read).mp inside)
      exact apart (Prod.ext rfl (Option.some.inj same).symm)
    have kept : ∀ other, other ≠ node → ∀ read,
        ((other, read) ∈ stack.pushing.erase (node, expected) ↔ reading other = some read) := by
      intro other here read
      rw [List.mem_erase_of_ne fun same => here (Prod.mk.inj same).1, held.pushing]
    intro other read
    unfold PointerStack.attempt
    by_cases here : other = node
    · subst here
      rw [mine]
      split
      · simp [gone]
      · simp [PointerStack.load, gone, eq_comm]
    · rw [unread other here, ← kept other here]
      split <;> simp [PointerStack.load, here]
  · unfold PointerStack.attempt
    split <;> exact held.undrained

end Operations

end PointerStack

end KvCache
