import Mathlib

/-!
# Pro rata shares

A pot is divided over claimants in proportion to what each has at stake, every share rounded down.
The shares together never exceed the pot as long as the stakes do not exceed the total they are
taken of; where each group of claimants has a pot of its own, as long as that holds of each group.

## Main definitions

* `share pot w total`: what `w` of `total` is given of the pot

## Main results

* `sum_share_le`, `sum_map_share_le`: the shares of a pot are within the pot
* `sum_share_le_card_mul`: the shares of a pot for each group are within the pots
* `sum_premium_le`: premiums of which each group receives one are within those of the groups
-/

namespace Accounting

variable {ι κ : Type*} {S : Finset ι} {groups : Finset κ} {g : ι → κ} {w : ι → ℕ}

/-- What `w` of `total` is given of the pot, rounded down. -/
def share (pot w total : ℕ) : ℕ := pot * w / total

theorem share_mono {pot pot' w total : ℕ} (h : pot ≤ pot') : share pot w total ≤ share pot' w total :=
  Nat.div_le_div_right (Nat.mul_le_mul_right w h)

theorem share_le_pot {pot w total : ℕ} (h : w ≤ total) : share pot w total ≤ pot :=
  Nat.div_le_of_le_mul ((Nat.mul_le_mul_left pot h).trans_eq (Nat.mul_comm ..))

/-- Shares that are rounded down one by one are within the share of their sum. -/
theorem sum_share_le_share_sum (pot total : ℕ) :
    ∑ i ∈ S, share pot (w i) total ≤ share pot (∑ i ∈ S, w i) total := by
  classical
  induction S using Finset.induction_on with
  | empty => exact Nat.zero_le _
  | insert i S hi ih =>
    rw [Finset.sum_insert hi, Finset.sum_insert hi]
    refine (Nat.add_le_add_left ih _).trans ?_
    unfold share
    rw [Nat.mul_add]
    exact Nat.div_add_div_le_add_div ..

/-- **The shares of a pot** are within the pot. -/
theorem sum_share_le {pot total : ℕ} (h : ∑ i ∈ S, w i ≤ total) :
    ∑ i ∈ S, share pot (w i) total ≤ pot :=
  (sum_share_le_share_sum pot total).trans (share_le_pot h)

/-- The shares of a pot that a list hands out are within the pot. -/
theorem sum_map_share_le {l : List ι} {pot total : ℕ} (h : (l.map w).sum ≤ total) :
    (l.map fun i => share pot (w i) total).sum ≤ pot := by
  rw [← Fin.sum_univ_fun_getElem] at h ⊢
  exact sum_share_le h

variable [DecidableEq κ]

/-- **The shares of a pot for each group** are within the pots. -/
theorem sum_share_le_card_mul {pot total : ℕ} (hg : ∀ i ∈ S, g i ∈ groups)
    (h : ∀ c ∈ groups, ∑ i ∈ S with g i = c, w i ≤ total) :
    ∑ i ∈ S, share pot (w i) total ≤ groups.card * pot := by
  rw [← Finset.sum_fiberwise_of_maps_to hg]
  calc ∑ c ∈ groups, ∑ i ∈ S with g i = c, share pot (w i) total
      ≤ ∑ _c ∈ groups, pot := Finset.sum_le_sum fun c hc => sum_share_le (h c hc)
    _ = groups.card * pot := by rw [Finset.sum_const, smul_eq_mul]

/-- What is at stake in all groups together is within the sum of their bounds. -/
theorem sum_le_of_groups {bound : κ → ℕ} (hg : ∀ i ∈ S, g i ∈ groups)
    (h : ∀ c ∈ groups, ∑ i ∈ S with g i = c, w i ≤ bound c) :
    ∑ i ∈ S, w i ≤ ∑ c ∈ groups, bound c := by
  rw [← Finset.sum_fiberwise_of_maps_to hg]
  exact Finset.sum_le_sum h

/-- **Premiums** of which each group receives at most one are within those of all groups. -/
theorem sum_premium_le {p : ι → Prop} [DecidablePred p] {premium : κ → ℕ}
    (hg : ∀ i ∈ S, g i ∈ groups)
    (hone : ∀ i ∈ S, ∀ j ∈ S, p i → p j → g i = g j → i = j) :
    ∑ i ∈ S with p i, premium (g i) ≤ ∑ c ∈ groups, premium c := by
  have hinj : Set.InjOn g (S.filter p) := by
    intro i hi j hj hij
    rw [Finset.mem_coe, Finset.mem_filter] at hi hj
    exact hone i hi.1 j hj.1 hi.2 hj.2 hij
  rw [← Finset.sum_image hinj]
  refine Finset.sum_le_sum_of_subset fun c hc => ?_
  obtain ⟨i, hi, rfl⟩ := Finset.mem_image.mp hc
  exact hg i (Finset.mem_of_mem_filter i hi)

end Accounting
