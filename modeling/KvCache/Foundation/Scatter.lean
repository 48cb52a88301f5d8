import Mathlib.Data.List.Nodup
import Mathlib.Logic.Function.Basic

/-!
# Gather and scatter

A plan pairs places of one memory with places of another. Gathering copies along the plan one
way, scattering copies back. A scatter changes no place that its plan does not name. Where the
plan names no place of the other memory twice, what was gathered is scattered back to where it
came from, and nothing changes.
-/

namespace KvCache.Scatter

universe u v w
variable {δ : Type u} {η : Type v} {β : Type w} [DecidableEq δ] [DecidableEq η]

/-- The second memory after the places of the first are copied to it. -/
def gather (plan : List (δ × η)) (device : δ → β) (host : η → β) : η → β :=
  plan.foldl (fun host pair => Function.update host pair.2 (device pair.1)) host

/-- The first memory after the places of the second are copied to it. -/
def scatter (plan : List (δ × η)) (host : η → β) (device : δ → β) : δ → β :=
  plan.foldl (fun device pair => Function.update device pair.1 (host pair.2)) device

theorem gather_other {plan : List (δ × η)} {place : η} (device : δ → β) (host : η → β)
    (unnamed : place ∉ plan.map Prod.snd) : gather plan device host place = host place := by
  induction plan generalizing host with
  | nil => rfl
  | cons pair plan inductionHypothesis =>
    rw [List.map_cons, List.mem_cons, not_or] at unnamed
    rw [gather, List.foldl_cons, ← gather, inductionHypothesis _ unnamed.2,
      Function.update_of_ne unnamed.1]

/-- Other places keep what they hold. -/
theorem scatter_other {plan : List (δ × η)} {place : δ} (host : η → β) (device : δ → β)
    (unnamed : place ∉ plan.map Prod.fst) : scatter plan host device place = device place := by
  induction plan generalizing device with
  | nil => rfl
  | cons pair plan inductionHypothesis =>
    rw [List.map_cons, List.mem_cons, not_or] at unnamed
    rw [scatter, List.foldl_cons, ← scatter, inductionHypothesis _ unnamed.2,
      Function.update_of_ne unnamed.1]

/-- What is gathered is what the device holds. -/
theorem gather_at {plan : List (δ × η)} {pair : δ × η} (distinct : (plan.map Prod.snd).Nodup)
    (member : pair ∈ plan) (device : δ → β) (host : η → β) :
    gather plan device host pair.2 = device pair.1 := by
  induction plan generalizing host with
  | nil => cases member
  | cons first plan inductionHypothesis =>
    rw [List.map_cons, List.nodup_cons] at distinct
    rw [gather, List.foldl_cons, ← gather]
    obtain rfl | later := List.mem_cons.mp member
    · rw [gather_other _ _ distinct.1, Function.update_self]
    · exact inductionHypothesis distinct.2 later _

/-- Scattering what the device holds changes nothing. -/
theorem scatter_same {plan : List (δ × η)} {host : η → β} {device : δ → β}
    (same : ∀ pair ∈ plan, host pair.2 = device pair.1) : scatter plan host device = device := by
  induction plan with
  | nil => rfl
  | cons first plan inductionHypothesis =>
    rw [scatter, List.foldl_cons, same first List.mem_cons_self, Function.update_eq_self, ← scatter]
    exact inductionHypothesis fun pair member => same pair (List.mem_cons_of_mem first member)

/-- A gather followed by a scatter along the same plan leaves the device as it was. -/
theorem scatter_gather {plan : List (δ × η)} (distinct : (plan.map Prod.snd).Nodup)
    (device : δ → β) (host : η → β) : scatter plan (gather plan device host) device = device :=
  scatter_same fun _ member => gather_at distinct member device host

end KvCache.Scatter
