import LiquidityContracts.Bonding.Vesting

/-!
# What a bond is credited with

A bond is recorded with its discount added: an amount `a` counts as `a * 1000 / (1000 - discount)`.
That is never less than `a` for the discounts below the whole price. Neither the instantiation nor
the owner's message holds the discount to that: with the whole price every bond that the pool makes
when liquidity is added divides by zero, and with more the difference wraps around, so that the bond
is credited with less than its amount.

## Main definitions

* `Admitted`: the configurations that the contract accepts
* `Credits`: the bonds of an amount are credited with that amount at least

## Main results

* `receivingAmountOf_eq_ok`: when the credited amount is defined, and what it is
* `le_of_receivingAmountOf`, `lt_of_receivingAmountOf`: the discounts below and above the whole price
* `le_receivingAmount`, `executeLpBond_panics`: the pool's bonds below the whole price, and at it
* `credits_iff`: the bonds are credited exactly for the discounts below the whole price
-/

namespace Fanfurybonding

open CosmWasm Util

/-- A configuration that the instantiation or an accepted `UpdateConfig` has set. -/
structure Admitted (cfg : Config) : Prop where
  u64 : cfg.discount < Uint64.bound ∧ cfg.txFee < Uint64.bound ∧ cfg.platformFee < Uint64.bound
  set : (∃ env msg, cfg = (instantiate env msg).config) ∨
    ∃ info st st' r treasuryAddress lockSeconds discount txFee platformFee dailyVestingAmount,
      executeUpdateConfig info st treasuryAddress lockSeconds discount txFee platformFee
        dailyVestingAmount = .ok (st', r) ∧ cfg = st'.config

/-- **No bond is credited with less**: the amount that is recorded for the FURY amount `a` is defined
and at least `a`, for the bonds that the pool makes and for those that are priced at `a`. -/
structure Credits (q : Querier) (cfg : Config) (a : ℕ) : Prop where
  lpBond : ∃ r, (receivingAmountOf cfg a : Exec ContractError ℕ) = .ok r ∧ a ≤ r
  bond : ∀ amount, q.token1ForToken2Price cfg.poolAddress amount = .ok a →
    ∃ r, bondReceivingAmount q cfg amount = .ok r ∧ a ≤ r

section Crediting

variable {q : Querier} {env : Env} {info : MessageInfo} {cfg : Config} {st : Storage} {a r : ℕ}

/-- The price left by a discount that is below the whole one. -/
theorem rest_of_lt (h : cfg.discount < thousand) :
    Uint64.sub thousand cfg.discount = thousand - cfg.discount :=
  Uint64.sub_of_le (by decide) h.le

/-- A discount above the whole price leaves more than that, since the difference wraps around. -/
theorem lt_rest (hu64 : cfg.discount < Uint64.bound) (h : thousand < cfg.discount) :
    thousand < Uint64.sub thousand cfg.discount := by
  have hlt : thousand + (Uint64.bound - cfg.discount) < Uint64.bound := by omega
  unfold Uint64.sub
  rw [Nat.mod_eq_of_lt hu64, Nat.mod_eq_of_lt hlt]
  omega

/-- The amount is defined unless the discount leaves nothing of the price. -/
theorem receivingAmountOf_eq_ok :
    (receivingAmountOf cfg a : Exec ContractError ℕ) = .ok r ↔
      a * thousand < Uint128.bound ∧ Uint64.sub thousand cfg.discount ≠ 0 ∧
        r = a * thousand / Uint64.sub thousand cfg.discount := by
  unfold receivingAmountOf
  constructor
  · intro h
    obtain ⟨scaled, hscaled, h⟩ := bind_eq_ok.mp h
    obtain ⟨hbound, rfl⟩ := Uint128.mul_eq_ok.mp hscaled
    obtain ⟨hne, rfl⟩ := Uint128.div_eq_ok.mp h
    exact ⟨hbound, hne, rfl⟩
  · rintro ⟨hbound, hne, rfl⟩
    rw [bind_of_eq_ok (Uint128.mul_eq_ok.mpr ⟨hbound, rfl⟩)]
    exact Uint128.div_eq_ok.mpr ⟨hne, rfl⟩

/-- Below the whole price, what is credited is the amount and the discount on top of it. -/
theorem le_of_receivingAmountOf (hlt : cfg.discount < thousand)
    (h : (receivingAmountOf cfg a : Exec ContractError ℕ) = .ok r) : a ≤ r := by
  obtain ⟨-, -, rfl⟩ := receivingAmountOf_eq_ok.mp h
  rw [rest_of_lt hlt, Nat.le_div_iff_mul_le (Nat.sub_pos_of_lt hlt)]
  exact Nat.mul_le_mul_left a (Nat.sub_le thousand cfg.discount)

/-- Above the whole price, less than the amount is credited. -/
theorem lt_of_receivingAmountOf (hu64 : cfg.discount < Uint64.bound) (hlt : thousand < cfg.discount)
    (ha : 0 < a) (h : (receivingAmountOf cfg a : Exec ContractError ℕ) = .ok r) : r < a := by
  obtain ⟨-, hne, rfl⟩ := receivingAmountOf_eq_ok.mp h
  rw [Nat.div_lt_iff_lt_mul (Nat.pos_of_ne_zero hne)]
  exact Nat.mul_lt_mul_of_pos_left (lt_rest hu64 hlt) ha

/-- An accepted bond of the pool is credited with its amount at least, below the whole price. -/
theorem le_receivingAmount {c : Call} {address : Addr} (hmsg : c.msg = .lpBond address a)
    (hlt : st.config.discount < thousand) (h : (exec st c).isSome) : a ≤ receivingAmount st c := by
  obtain ⟨⟨st', r⟩, h⟩ := Option.isSome_iff_exists.mp h
  rw [exec_eq_some, hmsg] at h
  obtain ⟨receiving, -, hreceiving, -⟩ := executeLpBond_spec h
  have hamount : receivingAmount st c = receiving := by
    simp [receivingAmount, hmsg, hreceiving, Except.toOption]
  rw [hamount]
  exact le_of_receivingAmountOf hlt hreceiving

/-- The whole price divides by zero. -/
theorem receivingAmountOf_panics (hbound : a * thousand < Uint128.bound)
    (hdiscount : cfg.discount = thousand) :
    (receivingAmountOf cfg a : Exec ContractError ℕ) = .error .panic := by
  unfold receivingAmountOf
  rw [bind_of_eq_ok (Uint128.mul_eq_ok.mpr ⟨hbound, rfl⟩), hdiscount]
  rfl

/-- **A discount of the whole price** makes every bond of the pool panic, whatever the state. -/
theorem executeLpBond_panics {address : Addr} (henabled : st.config.enabled = true)
    (hsender : info.sender = st.config.poolAddress) (hnative : st.config.isNativeBonding = false)
    (ha : 0 < a) (hbound : a * thousand < Uint128.bound)
    (hdiscount : st.config.discount = thousand) :
    executeLpBond env info st address a = .error .panic := by
  unfold executeLpBond
  dsimp only
  rw [bind_of_eq_ok (checkEnabled_eq_ok.mpr henabled),
    refuse_bind_of_not (not_not_intro hsender), refuse_bind_of_not ha.ne',
    refuse_bind_of_not (Bool.not_eq_true _ |>.mpr hnative), receivingAmountOf_panics hbound hdiscount]
  rfl

end Crediting

/-- **The bonds are credited with their amount** exactly if the discount is below the whole price. -/
theorem credits_iff (q : Querier) (cfg : Config) (a : ℕ) (hcfg : Admitted cfg) (ha : 0 < a)
    (hbound : a * thousand < Uint128.bound) : Credits q cfg a ↔ cfg.discount < thousand := by
  constructor
  · rintro ⟨⟨r, hr, hle⟩, -⟩
    by_contra hdiscount
    rcases (not_lt.mp hdiscount).eq_or_lt with heq | hlt
    · rw [receivingAmountOf_panics hbound heq.symm] at hr
      cases hr
    · exact (lt_of_receivingAmountOf hcfg.u64.1 hlt ha hr).not_ge hle
  · intro hlt
    have hrest : Uint64.sub thousand cfg.discount ≠ 0 := by
      rw [rest_of_lt hlt]
      exact Nat.sub_ne_zero_of_lt hlt
    have hcredited := receivingAmountOf_eq_ok.mpr ⟨hbound, hrest, rfl⟩
    refine ⟨⟨_, hcredited, le_of_receivingAmountOf hlt hcredited⟩, fun amount hprice => ?_⟩
    -- the other bond asks for the price first, and is credited with the same
    refine ⟨_, ?_, le_of_receivingAmountOf hlt hcredited⟩
    rw [bondReceivingAmount, bind_of_eq_ok (liftStd_eq_ok.mpr hprice)]
    exact hcredited

namespace Sample

/-- The message that instantiates the contract with a discount. -/
def discounted (discount : ℕ) : InstantiateMsg := { tenADay with discount }

/-- A pool that prices everything at an amount. -/
def pricedAt (amount : ℕ) : Querier := ⟨fun _ _ => .ok amount, fun _ _ => .ok 0, fun _ _ => .ok 0⟩

end Sample

open Sample in
/-- With a discount of five percent. -/
theorem credits_fivePercent :
    Credits (pricedAt 100) (instantiate (noonOf 0) (discounted 50)).config 100 :=
  (credits_iff (pricedAt 100) (instantiate (noonOf 0) (discounted 50)).config 100
    ⟨by decide +kernel, .inl ⟨_, _, rfl⟩⟩ (by decide) (by decide +kernel)).mpr (by decide +kernel)

open Sample in
/-- **A discount of the whole price** is accepted, and a bond of one unit divides by zero. -/
theorem not_credits : ¬ ∀ (q : Querier) (cfg : Config) (a : ℕ), Admitted cfg → 0 < a →
    a * thousand < Uint128.bound → Credits q cfg a := by
  intro h
  have hadmitted : Admitted (instantiate (noonOf 0) (discounted 1000)).config :=
    ⟨by decide +kernel, .inl ⟨_, _, rfl⟩⟩
  obtain ⟨r, hr, -⟩ := (h (pricedAt 1) _ 1 hadmitted one_pos (by decide +kernel)).lpBond
  rw [receivingAmountOf_panics (by decide +kernel) rfl] at hr
  cases hr

end Fanfurybonding
