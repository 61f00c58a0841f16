import Mathlib

/-!
# Drawing from lots

An amount is drawn from lots in the order in which they are listed. Lots are drawn empty, and are
listed no more, as long as they hold no more than is left to draw; of the next one a part is drawn.
Some lots are closed: nothing is drawn from them, and they stay.

## Main definitions

* `Lots α`: what a lot holds, whether it is open, and what is left of it
* `Lots.Draws lots kept x`: `kept` is left of `lots` when `x` is drawn

## Main results

* `Draws.skip`, `Draws.stop`, `Draws.part`, `Draws.whole`: what is drawn from the first lot
* `Draws.holding_add`: what is left is less by what is drawn
-/

namespace Accounting

/-- Lots that can be drawn from: what each holds, whether it is open, and what is left of it when a
part is drawn. -/
structure Lots (α : Type*) where
  amount : α → ℕ
  isOpen : α → Bool
  reduce : ℕ → α → α
  reduce_zero : ∀ lot, reduce 0 lot = lot
  amount_reduce : ∀ x lot, amount (reduce x lot) = amount lot - x
  isOpen_reduce : ∀ x lot, isOpen (reduce x lot) = isOpen lot

namespace Lots

variable {α : Type*} (L : Lots α) {lots kept lots' : List α} {lot : α} {x : ℕ}

/-- What lots hold together. -/
def holding (lots : List α) : ℕ := (lots.map L.amount).sum

/-- The lots that are open. -/
def opened (lots : List α) : List α := lots.filter L.isOpen

/-- The lots that are closed. -/
def closed (lots : List α) : List α := lots.filter fun lot => !L.isOpen lot

/-- The lots with `x` drawn from the first. -/
def reduceHead (x : ℕ) : List α → List α
  | [] => []
  | lot :: lots => L.reduce x lot :: lots

/-- `kept` is left of `lots` when `x` is drawn: the closed lots stay, the first open ones are drawn
empty, and of the next one a part is drawn that is less than it holds. -/
structure Draws (lots kept : List α) (x : ℕ) : Prop where
  closed : L.closed kept = L.closed lots
  inOrder : ∃ drawn rest part, L.opened lots = drawn ++ rest ∧
    L.opened kept = L.reduceHead part rest ∧ L.holding drawn + part = x ∧
      (part ≠ 0 → ∃ lot ∈ rest.head?, part < L.amount lot)

section Lists

@[simp] theorem holding_nil : L.holding [] = 0 := rfl

@[simp] theorem holding_cons (lot : α) (lots : List α) :
    L.holding (lot :: lots) = L.amount lot + L.holding lots := by
  simp [holding]

@[simp] theorem holding_append (lots lots' : List α) :
    L.holding (lots ++ lots') = L.holding lots + L.holding lots' := by
  simp [holding]

theorem holding_perm (h : lots.Perm lots') : L.holding lots = L.holding lots' :=
  (h.map _).sum_eq

theorem opened_cons_of_open (h : L.isOpen lot = true) (lots : List α) :
    L.opened (lot :: lots) = lot :: L.opened lots := by
  simp [opened, h]

theorem opened_cons_of_closed (h : L.isOpen lot = false) (lots : List α) :
    L.opened (lot :: lots) = L.opened lots := by
  simp [opened, h]

theorem closed_cons_of_open (h : L.isOpen lot = true) (lots : List α) :
    L.closed (lot :: lots) = L.closed lots := by
  simp [closed, h]

theorem closed_cons_of_closed (h : L.isOpen lot = false) (lots : List α) :
    L.closed (lot :: lots) = lot :: L.closed lots := by
  simp [closed, h]

/-- The open and the closed lots hold what all lots hold. -/
theorem holding_opened_add_closed (lots : List α) :
    L.holding (L.opened lots) + L.holding (L.closed lots) = L.holding lots := by
  rw [← holding_append]
  exact L.holding_perm (List.filter_append_perm _ _)

@[simp] theorem reduceHead_zero (lots : List α) : L.reduceHead 0 lots = lots := by
  cases lots with
  | nil => rfl
  | cons lot lots => rw [reduceHead, L.reduce_zero]

end Lists

namespace Draws

variable {L}

/-- Nothing is drawn from a closed lot. -/
theorem skip (h : L.Draws lots kept x) (hlot : L.isOpen lot = false) :
    L.Draws (lot :: lots) (lot :: kept) x where
  closed := by rw [L.closed_cons_of_closed hlot, L.closed_cons_of_closed hlot, h.closed]
  inOrder := by
    rw [L.opened_cons_of_closed hlot, L.opened_cons_of_closed hlot]
    exact h.inOrder

/-- Where nothing is drawn all lots stay. -/
theorem stop (lots : List α) : L.Draws lots lots 0 where
  closed := rfl
  inOrder := ⟨[], L.opened lots, 0, rfl, (L.reduceHead_zero _).symm, rfl, fun h => absurd rfl h⟩

/-- A part is drawn from the first lot, and nothing from the others. -/
theorem part (hlot : L.isOpen lot = true) (hx : x < L.amount lot) (lots : List α) :
    L.Draws (lot :: lots) (L.reduce x lot :: lots) x where
  closed := by
    rw [L.closed_cons_of_open hlot, L.closed_cons_of_open ((L.isOpen_reduce x lot).trans hlot)]
  inOrder := by
    refine ⟨[], lot :: L.opened lots, x, L.opened_cons_of_open hlot lots, ?_, Nat.zero_add x,
      fun _ => ⟨lot, rfl, hx⟩⟩
    exact L.opened_cons_of_open ((L.isOpen_reduce x lot).trans hlot) lots

/-- The first lot is drawn empty. -/
theorem whole (h : L.Draws lots kept x) (hlot : L.isOpen lot = true) :
    L.Draws (lot :: lots) kept (L.amount lot + x) where
  closed := by rw [L.closed_cons_of_open hlot, h.closed]
  inOrder := by
    obtain ⟨drawn, rest, part, hopened, hkept, rfl, hpart⟩ := h.inOrder
    refine ⟨lot :: drawn, rest, part, ?_, hkept, ?_, hpart⟩
    · rw [L.opened_cons_of_open hlot, hopened, List.cons_append]
    · rw [holding_cons, Nat.add_assoc]

/-- **What is left** is less by what is drawn. -/
theorem holding_add (h : L.Draws lots kept x) : L.holding kept + x = L.holding lots := by
  obtain ⟨drawn, rest, part, hopened, hkept, rfl, hpart⟩ := h.inOrder
  have hrest : L.holding (L.reduceHead part rest) + part = L.holding rest := by
    cases rest with
    | nil =>
      by_cases h0 : part = 0
      · rw [h0]
        rfl
      · obtain ⟨lot, hlot, -⟩ := hpart h0
        cases hlot
    | cons lot rest =>
      have hle : part ≤ L.amount lot := by
        by_cases h0 : part = 0
        · exact h0 ▸ Nat.zero_le _
        · obtain ⟨first, hfirst, hlt⟩ := hpart h0
          cases hfirst
          exact hlt.le
      rw [reduceHead, holding_cons, holding_cons, L.amount_reduce]
      omega
  rw [← L.holding_opened_add_closed kept, ← L.holding_opened_add_closed lots, h.closed, hkept,
    hopened, holding_append]
  omega

end Draws

end Lots

end Accounting
