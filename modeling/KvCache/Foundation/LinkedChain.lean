import Mathlib.Data.List.Basic
import Mathlib.Data.List.Nodup

/-!
# Doubly linked chains in node tables

A chain is a list of node numbers whose forward and backward links agree with
it. The links live in two functions of the node number; their type is a
parameter, since a table may use spare link values for something else, and
`encode` gives the link that stands for an optional neighbour.

Surgery is stated by what the new link functions are at the nodes of the
remaining chain. Other nodes are not constrained, so one table can carry several
chains and a program may reuse the links of a node that has left its chain.
-/

namespace KvCache.LinkedChain

universe u
variable {Link : Type u} {encode : Option Nat → Link}
variable {next previous next' previous' : Nat → Link}

/-- The links spell the list, entered from `before` and left towards `after`. -/
def Chained (encode : Option Nat → Link) (next previous : Nat → Link) :
    Option Nat → List Nat → Option Nat → Prop
  | _, [], _ => True
  | before, node :: rest, after =>
    previous node = encode before ∧ next node = encode (rest.head?.or after) ∧
      Chained encode next previous (some node) rest after

/-- A chain is two chains meeting at any of its cuts. -/
theorem chained_append (before after : Option Nat) (front back : List Nat) :
    Chained encode next previous before (front ++ back) after ↔
      Chained encode next previous before front (back.head?.or after) ∧
      Chained encode next previous (front.getLast?.or before) back after := by
  induction front generalizing before with
  | nil => simp [Chained]
  | cons node rest inductionHypothesis =>
    have entry : (rest.getLast?.or (some node)) = ((node :: rest).getLast?.or before) := by
      cases rest with
      | nil => rfl
      | cons second others => simp [List.getLast?_cons]
    have exit : ((rest ++ back).head?.or after) = (rest.head?.or (back.head?.or after)) := by
      cases rest <;> simp
    simp only [List.cons_append, Chained, inductionHypothesis, entry, exit]
    exact ⟨fun ⟨p, n, f, b⟩ => ⟨⟨p, n, f⟩, b⟩, fun ⟨⟨p, n, f⟩, b⟩ => ⟨p, n, f, b⟩⟩

/-- Only the links of the chain's own nodes matter. -/
theorem chained_congr {before after : Option Nat} {nodes : List Nat}
    (chain : Chained encode next previous before nodes after)
    (sameNext : ∀ node ∈ nodes, next' node = next node)
    (samePrevious : ∀ node ∈ nodes, previous' node = previous node) :
    Chained encode next' previous' before nodes after := by
  induction nodes generalizing before with
  | nil => trivial
  | cons node rest inductionHypothesis =>
    obtain ⟨entered, left, tail⟩ := chain
    refine ⟨?_, ?_, ?_⟩
    · rw [samePrevious node (by simp), entered]
    · rw [sameNext node (by simp), left]
    · exact inductionHypothesis tail (fun other member => sameNext other (by simp [member]))
        (fun other member => samePrevious other (by simp [member]))

/-- The links of one node of a chain. -/
theorem chained_links {before after : Option Nat} {front back : List Nat} {node : Nat}
    (chain : Chained encode next previous before (front ++ node :: back) after) :
    previous node = encode (front.getLast?.or before) ∧
      next node = encode (back.head?.or after) := by
  obtain ⟨_, entered, left, _⟩ := (chained_append before after front (node :: back)).mp chain
  exact ⟨entered, left⟩

/-- Redirecting the last node changes where a chain leaves to. -/
theorem chained_exit {before after exit : Option Nat} {nodes : List Nat}
    (chain : Chained encode next previous before nodes after) (distinct : nodes.Nodup)
    (redirected : ∀ node ∈ nodes,
      next' node = if nodes.getLast? = some node then encode exit else next node) :
    Chained encode next' previous before nodes exit := by
  induction nodes generalizing before with
  | nil => trivial
  | cons node rest inductionHypothesis =>
    obtain ⟨entered, left, tail⟩ := chain
    obtain ⟨fresh, restDistinct⟩ := List.nodup_cons.mp distinct
    cases rest with
    | nil =>
      refine ⟨entered, ?_, trivial⟩
      simpa using redirected node (by simp)
    | cons second others =>
      have lastSame : (node :: second :: others).getLast? = (second :: others).getLast? := by
        simp [List.getLast?_cons]
      refine ⟨entered, ?_, inductionHypothesis tail restDistinct ?_⟩
      · rw [redirected node (by simp), if_neg, left]
        · rfl
        · rw [lastSame]
          intro last
          exact fresh (List.mem_of_getLast? last)
      · intro other member
        rw [redirected other (by simp [member]), lastSame]

/-- Redirecting the first node changes where a chain is entered from. -/
theorem chained_entry {before after entry : Option Nat} {nodes : List Nat}
    (chain : Chained encode next previous before nodes after) (distinct : nodes.Nodup)
    (redirected : ∀ node ∈ nodes,
      previous' node = if nodes.head? = some node then encode entry else previous node) :
    Chained encode next previous' entry nodes after := by
  cases nodes with
  | nil => trivial
  | cons node rest =>
    obtain ⟨entered, left, tail⟩ := chain
    obtain ⟨fresh, _⟩ := List.nodup_cons.mp distinct
    refine ⟨?_, left, chained_congr tail (fun _ _ => rfl) ?_⟩
    · simpa using redirected node (by simp)
    · intro other member
      have different : node ≠ other := fun same => fresh (same ▸ member)
      rw [redirected other (by simp [member]), if_neg]
      simpa using different

/-- Unlinking a node: its predecessor takes over its forward link and its
successor takes over its backward link. -/
theorem chained_remove {before after : Option Nat} {front back : List Nat} {node : Nat}
    (chain : Chained encode next previous before (front ++ node :: back) after)
    (distinct : (front ++ node :: back).Nodup)
    (forward : ∀ other ∈ front ++ back,
      next' other = if front.getLast? = some other then next node else next other)
    (backward : ∀ other ∈ front ++ back,
      previous' other = if back.head? = some other then previous node else previous other) :
    Chained encode next' previous' before (front ++ back) after := by
  obtain ⟨entered, left⟩ := chained_links chain
  obtain ⟨first, _, _, second⟩ := (chained_append before after front (node :: back)).mp chain
  have frontDistinct : front.Nodup := (List.nodup_append.mp distinct).1
  have backDistinct : back.Nodup := (List.nodup_cons.mp (List.nodup_append.mp distinct).2.1).2
  have separate : ∀ other ∈ front, other ∉ back := by
    intro other inFront inBack
    exact (List.nodup_append.mp distinct).2.2 other inFront other (by simp [inBack]) rfl
  refine (chained_append before after front back).mpr ⟨?_, ?_⟩
  · have exited : Chained encode next' previous before front (back.head?.or after) := by
      apply chained_exit first frontDistinct
      intro other member
      rw [forward other (by simp [member]), left]
    apply chained_congr exited (fun _ _ => rfl)
    · intro other member
      rw [backward other (by simp [member]), if_neg]
      intro head
      exact separate other member (List.mem_of_head? head)
  · have joined : Chained encode next previous' (front.getLast?.or before) back after := by
      apply chained_entry second backDistinct
      intro other member
      rw [backward other (by simp [member]), entered]
    refine chained_congr joined ?_ (fun _ _ => rfl)
    · intro other member
      rw [forward other (by simp [member]), if_neg]
      intro last
      exact separate other (List.mem_of_getLast? last) member

/-- Pushing a node in front: it links to the old head, whose backward link now
names it. -/
theorem chained_push {after : Option Nat} {nodes : List Nat} {node : Nat}
    (chain : Chained encode next previous none nodes after) (distinct : nodes.Nodup)
    (entered : previous' node = encode none) (left : next' node = encode (nodes.head?.or after))
    (forward : ∀ other ∈ nodes, next' other = next other)
    (backward : ∀ other ∈ nodes,
      previous' other = if nodes.head? = some other then encode (some node) else previous other) :
    Chained encode next' previous' none (node :: nodes) after := by
  refine ⟨entered, left, ?_⟩
  exact chained_congr (chained_entry chain distinct backward) forward (fun _ _ => rfl)

end KvCache.LinkedChain
