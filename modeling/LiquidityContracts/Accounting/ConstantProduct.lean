import Mathlib

/-!
# Pools priced by a constant product

A pool holds two reserves against shares. A swap adds to one reserve and pays out of the other at
a price that keeps their product from falling; shares are minted and redeemed in proportion to the
reserves. All divisions are floored, and each is floored against whoever deals with the pool.

## Main definitions

* `Reserves`: the two reserves and the shares
* `quote n d a x y`: what a swap of `a` into the reserve `x` pays out of `y`, with `n / d` of the
  input counted
* `Reserves.Undiluted p p'`: neither reserve is worth less a share in `p'` than in `p`
* `Reserves.Backs p p'`: the product of what the two reserves are worth a share does not fall
* `Reserves.Traded p p'`: `p'` comes from `p` by swaps
* `Reserves.Trade`, `Reserves.Step`: the pool as a transition system

## Main results

* `mul_le_of_quote`, `quote_lt`: a swap keeps the product and never drains a reserve
* `quote_add_le`, `quote_mono`: a swap in two parts pays out no more, and one of more no less
* `Undiluted.mint`, `Undiluted.redeem`: minting and redeeming shares dilute neither reserve
* `redeem_added_le`: shares give back no more of a reserve than was added for them
* `Step.backs`: nothing that happens to a pool with shares lowers the value of a share
* `Backs.trans`: the order composes over states with shares
* `Traded.not_extracted`: no sequence of swaps takes out of one reserve without paying into the
  other
-/

namespace Accounting

/-! ## Swaps -/

/-- What a swap of `a` into the reserve `x` pays out of the reserve `y`, where only the part
`n / d` of the input is counted. -/
def quote (n d a x y : ℕ) : ℕ := a * n * y / (x * d + a * n)

section Quote

variable {n d a x y : ℕ}

/-- A swap pays out less than the reserve. -/
theorem quote_lt (hd : 0 < d) (hx : 0 < x) (hy : 0 < y) : quote n d a x y < y := by
  have hden : 0 < x * d + a * n := Nat.add_pos_left (Nat.mul_pos hx hd) _
  rw [quote, Nat.div_lt_iff_lt_mul hden]
  have hpos : 0 < y * (x * d) := Nat.mul_pos hy (Nat.mul_pos hx hd)
  calc a * n * y = y * (a * n) := Nat.mul_comm _ _
    _ < y * (x * d) + y * (a * n) := Nat.lt_add_of_pos_left hpos
    _ = y * (x * d + a * n) := (Nat.mul_add _ _ _).symm

/-- What is paid out is worth no more than the input at the price after the swap. -/
theorem mul_quote_le (hn : n ≤ d) : (x + a) * quote n d a x y ≤ a * y := by
  rcases Nat.eq_zero_or_pos n with rfl | hpos
  · simp [quote]
  · have hfloor : quote n d a x y * (x * d + a * n) ≤ a * n * y := Nat.div_mul_le_self _ _
    have hfee : x * n ≤ x * d := Nat.mul_le_mul_left x hn
    refine Nat.le_of_mul_le_mul_left ?_ hpos
    calc n * ((x + a) * quote n d a x y) = quote n d a x y * (x * n + a * n) := by ring
      _ ≤ quote n d a x y * (x * d + a * n) :=
        Nat.mul_le_mul_left _ (Nat.add_le_add_right hfee _)
      _ ≤ a * n * y := hfloor
      _ = n * (a * y) := by ring

/-- **A swap keeps the product** of the reserves from falling. -/
theorem mul_le_of_quote (hn : n ≤ d) : x * y ≤ (x + a) * (y - quote n d a x y) := by
  have hpaid := mul_quote_le (x := x) (a := a) (y := y) hn
  rw [Nat.mul_sub]
  apply Nat.le_sub_of_add_le
  calc x * y + (x + a) * quote n d a x y ≤ x * y + a * y := Nat.add_le_add_left hpaid _
    _ = (x + a) * y := (Nat.add_mul _ _ _).symm

/-- **A swap in two parts** pays out no more than the whole: the fee on the first part stays in the
pool, and the second part is priced with it. -/
theorem quote_add_le {b : ℕ} (hn : n ≤ d) (hd : 0 < d) (hx : 0 < x) :
    quote n d a x y + quote n d b (x + a) (y - quote n d a x y) ≤ quote n d (a + b) x y := by
  have hden : 0 < x * d + (a + b) * n := Nat.add_pos_left (Nat.mul_pos hx hd) _
  have hle : quote n d a x y ≤ y := by
    rcases Nat.eq_zero_or_pos y with rfl | hy
    · simp [quote]
    · exact (quote_lt hd hx hy).le
  have hfirst : quote n d a x y * (x * d + a * n) ≤ a * n * y := Nat.div_mul_le_self _ _
  generalize quote n d a x y = p at *
  have hsecond : quote n d b (x + a) (y - p) * ((x + a) * d + b * n) ≤ b * n * (y - p) :=
    Nat.div_mul_le_self _ _
  generalize quote n d b (x + a) (y - p) = p' at *
  -- the second part is priced against at least what the whole is
  have hprice : x * d + (a + b) * n ≤ (x + a) * d + b * n := by
    have hfee : a * n ≤ a * d := Nat.mul_le_mul_left a hn
    rw [Nat.add_mul, Nat.add_mul]
    omega
  rw [quote, Nat.le_div_iff_mul_le hden]
  calc (p + p') * (x * d + (a + b) * n)
      = p * (x * d + a * n) + p * (b * n) + p' * (x * d + (a + b) * n) := by ring
    _ ≤ a * n * y + p * (b * n) + b * n * (y - p) :=
      Nat.add_le_add (Nat.add_le_add_right hfirst _)
        ((Nat.mul_le_mul_left p' hprice).trans hsecond)
    _ = a * n * y + b * n * (p + (y - p)) := by ring
    _ = (a + b) * n * y := by
      rw [Nat.add_sub_of_le hle]
      ring

/-- More is paid out for more. -/
theorem quote_mono {b : ℕ} (hn : n ≤ d) (hd : 0 < d) (hx : 0 < x) (h : a ≤ b) :
    quote n d a x y ≤ quote n d b x y := by
  obtain ⟨c, rfl⟩ := Nat.exists_eq_add_of_le h
  exact (Nat.le_add_right _ _).trans (quote_add_le hn hd hx)

end Quote

/-! ## Shares -/

/-- The reserves of a pool, and the supply of its shares. -/
@[ext] structure Reserves where
  first : ℕ
  second : ℕ
  shares : ℕ
  deriving DecidableEq, Repr

namespace Reserves

variable {p p' p'' : Reserves} {a r s t : ℕ}

/-- Neither reserve is worth less a share in `p'` than in `p`. -/
def Undiluted (p p' : Reserves) : Prop :=
  p.first * p'.shares ≤ p'.first * p.shares ∧ p.second * p'.shares ≤ p'.second * p.shares

/-- The product of what the two reserves are worth a share is no less in `p'` than in `p`. -/
def Backs (p p' : Reserves) : Prop :=
  p.first * p.second * p'.shares ^ 2 ≤ p'.first * p'.second * p.shares ^ 2

/-- From `p` to `p'` by swaps: nothing happened, or both reserves were there and their product did
not fall. -/
def Traded (p p' : Reserves) : Prop :=
  (p'.first = p.first ∧ p'.second = p.second) ∨
    0 < p.first ∧ 0 < p.second ∧ p.first * p.second ≤ p'.first * p'.second

instance : DecidableRel Undiluted := fun _ _ => inferInstanceAs (Decidable (_ ∧ _))

instance : DecidableRel Backs := fun _ _ => inferInstanceAs (Decidable (_ ≤ _))

theorem Undiluted.backs (h : p.Undiluted p') : p.Backs p' := by
  have hmul := Nat.mul_le_mul h.1 h.2
  unfold Backs
  calc p.first * p.second * p'.shares ^ 2
      = p.first * p'.shares * (p.second * p'.shares) := by ring
    _ ≤ p'.first * p.shares * (p'.second * p.shares) := hmul
    _ = p'.first * p'.second * p.shares ^ 2 := by ring

theorem Backs.refl (p : Reserves) : p.Backs p := le_rfl

/-- The order composes over a state with shares. -/
theorem Backs.trans (h : p.Backs p') (h' : p'.Backs p'') (hpos : 0 < p'.shares) :
    p.Backs p'' := by
  unfold Backs at *
  refine Nat.le_of_mul_le_mul_right ?_ (Nat.pow_pos hpos : 0 < p'.shares ^ 2)
  calc p.first * p.second * p''.shares ^ 2 * p'.shares ^ 2
      = p.first * p.second * p'.shares ^ 2 * p''.shares ^ 2 := by ring
    _ ≤ p'.first * p'.second * p.shares ^ 2 * p''.shares ^ 2 := Nat.mul_le_mul_right _ h
    _ = p'.first * p'.second * p''.shares ^ 2 * p.shares ^ 2 := by ring
    _ ≤ p''.first * p''.second * p'.shares ^ 2 * p.shares ^ 2 := Nat.mul_le_mul_right _ h'
    _ = p''.first * p''.second * p.shares ^ 2 * p'.shares ^ 2 := by ring

/-- With the shares as they were, the order compares the products. -/
theorem Backs.of_product (hs : p'.shares = p.shares)
    (h : p.first * p.second ≤ p'.first * p'.second) : p.Backs p' := by
  unfold Backs
  rw [hs]
  exact Nat.mul_le_mul_right _ h

/-- More in the reserves against no more shares. -/
theorem Undiluted.of_le (h₁ : p.first ≤ p'.first) (h₂ : p.second ≤ p'.second)
    (hs : p'.shares ≤ p.shares) : p.Undiluted p' :=
  ⟨Nat.mul_le_mul h₁ hs, Nat.mul_le_mul h₂ hs⟩

/-- **Minting.** Shares in proportion to what is added to the first reserve, against a deposit to
the second that is at least proportional, dilute neither. -/
theorem Undiluted.mint (hpos : 0 < p.first) (hs : p'.shares = p.shares + t * p.shares / p.first)
    (h₁ : p'.first = p.first + t) (h₂ : p'.second = p.second + (t * p.second / p.first + 1)) :
    p.Undiluted p' := by
  -- shares are rounded down, the deposit is rounded up
  have hshares : t * p.shares / p.first * p.first ≤ t * p.shares := Nat.div_mul_le_self _ _
  have hdeposit : t * p.second ≤ (t * p.second / p.first + 1) * p.first :=
    (Nat.lt_mul_of_div_lt (Nat.lt_succ_self _) hpos).le
  rw [Undiluted, hs, h₁, h₂]
  constructor
  · calc p.first * (p.shares + t * p.shares / p.first)
        = p.first * p.shares + t * p.shares / p.first * p.first := by ring
      _ ≤ p.first * p.shares + t * p.shares := Nat.add_le_add_left hshares _
      _ = (p.first + t) * p.shares := (Nat.add_mul _ _ _).symm
  -- both sides are multiplied by the first reserve, by which they were divided
  · have hsecond : p.second * (t * p.shares / p.first) ≤
        (t * p.second / p.first + 1) * p.shares := by
      refine Nat.le_of_mul_le_mul_right ?_ hpos
      calc p.second * (t * p.shares / p.first) * p.first
          = p.second * (t * p.shares / p.first * p.first) := Nat.mul_assoc _ _ _
        _ ≤ p.second * (t * p.shares) := Nat.mul_le_mul_left _ hshares
        _ = t * p.second * p.shares := by ring
        _ ≤ (t * p.second / p.first + 1) * p.first * p.shares := Nat.mul_le_mul_right _ hdeposit
        _ = (t * p.second / p.first + 1) * p.shares * p.first := by ring
    rw [Nat.mul_add, Nat.add_mul]
    exact Nat.add_le_add_left hsecond _

/-- A part of the shares leaves something in the reserve. -/
theorem redeem_lt (h : a < s) (hr : 0 < r) : a * r / s < r := by
  rw [Nat.div_lt_iff_lt_mul (Nat.zero_lt_of_lt h), Nat.mul_comm r s]
  exact Nat.mul_lt_mul_of_pos_right h hr

theorem redeem_mul_le (s : ℕ) : r * (s - a) ≤ (r - a * r / s) * s := by
  rw [Nat.mul_sub, Nat.sub_mul]
  have hfloor : a * r / s * s ≤ a * r := Nat.div_mul_le_self _ _
  rw [Nat.mul_comm r a]
  exact Nat.sub_le_sub_left hfloor _

/-- **Redeeming** shares at the floor of their part of each reserve dilutes neither. -/
theorem Undiluted.redeem (hs : p'.shares = p.shares - a)
    (h₁ : p'.first = p.first - a * p.first / p.shares)
    (h₂ : p'.second = p.second - a * p.second / p.shares) : p.Undiluted p' := by
  rw [Undiluted, hs, h₁, h₂]
  exact ⟨redeem_mul_le _, redeem_mul_le _⟩

/-- **Shares give back no more** of a reserve than was added for them, where nothing was diluted. -/
theorem redeem_added_le {m : ℕ} (h : r * (s + m) ≤ (r + t) * s) : m * (r + t) / (s + m) ≤ t := by
  refine Nat.div_le_of_le_mul ?_
  have hadded : m * r ≤ t * s := by
    rw [Nat.mul_add, Nat.add_mul] at h
    rw [Nat.mul_comm m r]
    exact Nat.le_of_add_le_add_left h
  calc m * (r + t) = m * r + m * t := Nat.mul_add _ _ _
    _ ≤ t * s + m * t := Nat.add_le_add_right hadded _
    _ = (s + m) * t := by ring

theorem Traded.trans (h : p.Traded p') (h' : p'.Traded p'') : p.Traded p'' := by
  rcases h with ⟨h₁, h₂⟩ | ⟨hpos₁, hpos₂, hle⟩
  · unfold Traded at h' ⊢
    rwa [h₁, h₂] at h'
  · rcases h' with ⟨h₁, h₂⟩ | ⟨-, -, hle'⟩
    · refine .inr ⟨hpos₁, hpos₂, ?_⟩
      rwa [h₁, h₂]
    · exact .inr ⟨hpos₁, hpos₂, hle.trans hle'⟩

/-- **Swaps extract nothing**: neither reserve falls while the other does not rise. -/
theorem Traded.not_extracted (h : p.Traded p') :
    ¬ (p'.first < p.first ∧ p'.second ≤ p.second) ∧
      ¬ (p'.first ≤ p.first ∧ p'.second < p.second) := by
  rcases h with ⟨h₁, h₂⟩ | ⟨hpos₁, hpos₂, hle⟩
  · omega
  · constructor
    · rintro ⟨hlt, hle'⟩
      have : p'.first * p'.second < p.first * p.second :=
        Nat.mul_lt_mul_of_lt_of_le hlt hle' hpos₂
      omega
    · rintro ⟨hle', hlt⟩
      have : p'.first * p'.second < p.first * p.second :=
        Nat.mul_lt_mul_of_le_of_lt hle' hlt hpos₁
      omega

/-! ## The pool as a transition system -/

/-- A swap in either direction, between reserves that are not empty. -/
inductive Trade (n d : ℕ) : Reserves → Reserves → Prop
  | sellFirst (x y s a : ℕ) (hx : 0 < x) (hy : 0 < y) :
    Trade n d ⟨x, y, s⟩ ⟨x + a, y - quote n d a x y, s⟩
  | sellSecond (x y s a : ℕ) (hx : 0 < x) (hy : 0 < y) :
    Trade n d ⟨x, y, s⟩ ⟨x - quote n d a y x, y + a, s⟩

/-- What may happen to a pool: the first deposit, for shares of the same number; later deposits
and withdrawals in proportion; swaps; and gifts, to the reserves or by giving up shares. -/
inductive Step (n d : ℕ) : Reserves → Reserves → Prop
  | found (x y t u : ℕ) : Step n d ⟨x, y, 0⟩ ⟨x + t, y + u, t⟩
  | mint (x y s t : ℕ) (hs : 0 < s) (hx : 0 < x) :
    Step n d ⟨x, y, s⟩ ⟨x + t, y + (t * y / x + 1), s + t * s / x⟩
  | redeem (x y s a : ℕ) (ha : a ≤ s) :
    Step n d ⟨x, y, s⟩ ⟨x - a * x / s, y - a * y / s, s - a⟩
  | trade {p p' : Reserves} (h : Trade n d p p') : Step n d p p'
  | donate {p p' : Reserves} (h₁ : p.first ≤ p'.first) (h₂ : p.second ≤ p'.second)
      (hs : p'.shares ≤ p.shares) : Step n d p p'

section Steps

variable {n d : ℕ}

/-- A swap keeps the product, the shares, and something in each reserve. -/
theorem Trade.traded (hn : n ≤ d) (h : Trade n d p p') : p.Traded p' ∧ p'.shares = p.shares := by
  cases h with
  | sellFirst x y s a hx hy => exact ⟨.inr ⟨hx, hy, mul_le_of_quote hn⟩, rfl⟩
  | sellSecond x y s a hx hy =>
    refine ⟨.inr ⟨hx, hy, ?_⟩, rfl⟩
    show x * y ≤ (x - quote n d a y x) * (y + a)
    rw [Nat.mul_comm x y, Nat.mul_comm _ (y + a)]
    exact mul_le_of_quote hn

theorem Trade.pos (hd : 0 < d) (h : Trade n d p p') : 0 < p'.first ∧ 0 < p'.second := by
  cases h with
  | sellFirst x y s a hx hy =>
    have hlt : quote n d a x y < y := quote_lt hd hx hy
    exact ⟨Nat.add_pos_left hx a, Nat.sub_pos_of_lt hlt⟩
  | sellSecond x y s a hx hy =>
    have hlt : quote n d a y x < x := quote_lt hd hy hx
    exact ⟨Nat.sub_pos_of_lt hlt, Nat.add_pos_left hy a⟩

/-- **Nothing that happens to a pool with shares lowers the value of a share.** -/
theorem Step.backs (hn : n ≤ d) (h : Step n d p p') (hpos : 0 < p.shares) : p.Backs p' := by
  cases h with
  | found x y t u => exact absurd hpos (Nat.lt_irrefl 0)
  | mint x y s t hs hx => exact (Undiluted.mint hx rfl rfl rfl).backs
  | redeem x y s a ha => exact (Undiluted.redeem rfl rfl rfl).backs
  | trade h =>
    obtain ⟨htraded, hshares⟩ := h.traded hn
    rcases htraded with ⟨h₁, h₂⟩ | ⟨-, -, hle⟩
    · exact .of_product hshares (by rw [h₁, h₂])
    · exact .of_product hshares hle
  | donate h₁ h₂ hs => exact (Undiluted.of_le h₁ h₂ hs).backs

/-- Shares are only there with a first reserve. -/
theorem Step.first_pos (hd : 0 < d) (h : Step n d p p') (hfirst : 0 < p.shares → 0 < p.first)
    (hpos : 0 < p'.shares) : 0 < p'.first := by
  cases h with
  | found x y t u => exact Nat.add_pos_right x hpos
  | mint x y s t hs hx => exact Nat.add_pos_left hx t
  | redeem x y s a ha =>
    have hlt : a < s := Nat.lt_of_sub_pos hpos
    exact Nat.sub_pos_of_lt (redeem_lt hlt (hfirst (Nat.zero_lt_of_lt hlt)))
  | trade h => exact (h.pos hd).1
  | donate h₁ h₂ hs => exact (hfirst (hpos.trans_le hs)).trans_le h₁

/-- A second reserve is not drained while shares are left. -/
theorem Step.second_pos (hd : 0 < d) (h : Step n d p p') (hsecond : 0 < p.second)
    (hpos : 0 < p'.shares) : 0 < p'.second := by
  cases h with
  | found x y t u => exact Nat.add_pos_left hsecond u
  | mint x y s t hs hx => exact Nat.add_pos_left hsecond _
  | redeem x y s a ha => exact Nat.sub_pos_of_lt (redeem_lt (Nat.lt_of_sub_pos hpos) hsecond)
  | trade h => exact (h.pos hd).2
  | donate h₁ h₂ hs => exact hsecond.trans_le h₂

end Steps

end Reserves

end Accounting
