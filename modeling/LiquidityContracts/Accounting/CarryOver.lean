import Mathlib

/-!
# Allowances with carry-over

A meter grants an allowance of `V` units a day and carries over what a day leaves unused. It is
advanced lazily, when something is spent on a new day, so it knows the last active day only; the
allowance of the days between is forfeited.

## Main definitions

* `Meter`: the credit carried over, the units used on the last active day, and that day
* `Meter.advance`, `Meter.spend`: move to a day, spend on it
* `Meter.Covers V d₀ m n`: the allowance since the day `d₀` pays for `n` units spent so far

## Main results

* `Meter.Covers.spend`: spending keeps the allowance since `d₀` sufficient, provided that a day
  is only closed when it used no more than its own allowance
* `Meter.Covers.le`: the units spent are at most `V` for each day since `d₀`
-/

namespace Accounting

/-- The credit carried over to the last active day, and what that day used. -/
@[ext] structure Meter where
  carried : ℕ
  used : ℕ
  lastDay : ℕ
  deriving DecidableEq, Repr

namespace Meter

variable {V d₀ d n r : ℕ} {m m' : Meter}

/-- The meter on the day `d`: on a new day, what the last one left of its allowance is carried
over. A day that used more than its allowance leaves nothing. -/
def advance (V : ℕ) (m : Meter) (d : ℕ) : Meter :=
  if d = m.lastDay then m else ⟨m.carried + (V - m.used), 0, d⟩

/-- Use `r` units on the day `d`, as far as the allowance and the credit allow. -/
def spend (V : ℕ) (m : Meter) (d r : ℕ) : Option Meter :=
  let m := m.advance V d
  if m.used + r ≤ V + m.carried then some { m with used := m.used + r } else none

/-- The allowance of the days from `d₀` to the last active one pays for `n` units: what the days
before the last active one used, and the credit that is left, are within the allowance of those
days. -/
structure Covers (V d₀ : ℕ) (m : Meter) (n : ℕ) : Prop where
  started : d₀ ≤ m.lastDay
  used_le : m.used ≤ V + m.carried
  past_le : n + m.carried ≤ V * (m.lastDay - d₀) + m.used

theorem advance_lastDay (m : Meter) (d : ℕ) : (m.advance V d).lastDay = d := by
  unfold advance
  split
  · rename_i h
    exact h.symm
  · rfl

/-- A new meter covers that nothing is spent. -/
theorem Covers.init (V d : ℕ) : Covers V d ⟨0, 0, d⟩ 0 :=
  ⟨le_rfl, Nat.zero_le _, Nat.zero_le _⟩

/-- **The bound.** The units spent are at most `V` for each day so far. -/
theorem Covers.le (h : m.Covers V d₀ n) : n ≤ V * (m.lastDay - d₀ + 1) := by
  have hpast := h.past_le
  have hused := h.used_le
  rw [Nat.mul_succ]
  omega

/-- A day that used at most its allowance may be closed. -/
theorem Covers.advance (h : m.Covers V d₀ n) (hd : m.lastDay ≤ d)
    (hclose : d ≠ m.lastDay → m.used ≤ V) : (m.advance V d).Covers V d₀ n := by
  unfold Meter.advance
  split
  · exact h
  · rename_i hne
    have hstarted := h.started
    have hused := hclose hne
    have hdays : V * (m.lastDay - d₀) + V ≤ V * (d - d₀) := by
      rw [← Nat.mul_succ]
      exact Nat.mul_le_mul_left V (by omega)
    refine ⟨hstarted.trans hd, Nat.zero_le _, ?_⟩
    have hpast := h.past_le
    show n + (m.carried + (V - m.used)) ≤ V * (d - d₀) + 0
    omega

/-- **One day's spending.** What is spent stays within the allowance since `d₀`. -/
theorem Covers.spend (h : m.Covers V d₀ n) (hd : m.lastDay ≤ d)
    (hclose : d ≠ m.lastDay → m.used ≤ V) (hspend : m.spend V d r = some m') :
    m'.Covers V d₀ (n + r) ∧ m'.lastDay = d := by
  unfold Meter.spend at hspend
  have hadv := h.advance hd hclose
  by_cases hle : (m.advance V d).used + r ≤ V + (m.advance V d).carried
  · rw [if_pos hle] at hspend
    obtain rfl := Option.some.inj hspend
    have hpast := hadv.past_le
    refine ⟨⟨hadv.started, hle, ?_⟩, advance_lastDay m d⟩
    show n + r + (m.advance V d).carried ≤
      V * ((m.advance V d).lastDay - d₀) + ((m.advance V d).used + r)
    omega
  · rw [if_neg hle] at hspend
    cases hspend

end Meter

end Accounting
