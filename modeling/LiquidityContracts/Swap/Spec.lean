import LiquidityContracts.Accounting.ConstantProduct
import LiquidityContracts.Swap.Contract

/-!
# What the handlers of the pool do

One lemma for each handler: when it succeeds, what it has checked, what it stores and what it
emits. The amounts are those of the constant-product library.

## Main results

* `executeAddLiquidity_spec`, `executeRemoveLiquidity_spec`, `executeSwap_spec`,
  `executeAddToken_spec`, `executeUpdateConfig_spec`: the handlers
* `getInputPrice_spec`, `getLpTokenAmountToMint_spec`, `getToken2AmountRequired_spec`: the amounts
* `executeSwap_spec`, `executeSwap_succeeds`: what a swap does, and when it succeeds
-/

namespace Fanfuryswap

open CosmWasm Cw20 Util Accounting

/-! ## Amounts -/

section Amounts

variable {a n s t x y r₁ r₂ : ℕ} {denom : String} {funds : List Coin}

/-- A price is quoted by the constant product, from reserves that are not empty, while the
computation is in range. -/
theorem getInputPrice_eq_ok {ε : Type} [OfStdError ε] :
    (getInputPrice a x y : Exec ε ℕ) = .ok n ↔
      0 < x ∧ 0 < y ∧ a * 997 < Uint128.bound ∧ a * 997 * y < Uint128.bound ∧
        x * 1000 + a * 997 < Uint128.bound ∧ n = quote 997 1000 a x y := by
  constructor
  · intro h
    unfold getInputPrice at h
    obtain ⟨hpos, h⟩ := refuseGeneric_bind_eq_ok.mp h
    obtain ⟨counted, hcounted, h⟩ := bind_eq_ok.mp h
    obtain ⟨numerator, hnumerator, h⟩ := bind_eq_ok.mp h
    obtain ⟨scaled, hscaled, h⟩ := bind_eq_ok.mp h
    obtain ⟨denominator, hdenominator, h⟩ := bind_eq_ok.mp h
    obtain ⟨hcountedLt, rfl⟩ := Uint128.checkedMul_eq_ok.mp hcounted
    obtain ⟨hnumeratorLt, rfl⟩ := Uint128.checkedMul_eq_ok.mp hnumerator
    obtain ⟨-, rfl⟩ := Uint128.checkedMul_eq_ok.mp hscaled
    obtain ⟨hdenominatorLt, rfl⟩ := Uint128.checkedAdd_eq_ok.mp hdenominator
    obtain ⟨-, rfl⟩ := Uint128.checkedDiv_eq_ok.mp h
    rw [not_or] at hpos
    exact ⟨Nat.pos_of_ne_zero hpos.1, Nat.pos_of_ne_zero hpos.2, hcountedLt, hnumeratorLt,
      hdenominatorLt, rfl⟩
  · rintro ⟨hx, hy, hcounted, hnumerator, hdenominator, rfl⟩
    -- the other products are in range with these
    have hscaled : x * 1000 < Uint128.bound := (Nat.le_add_right _ _).trans_lt hdenominator
    have hpos : ¬ (x = 0 ∨ y = 0) := not_or.mpr ⟨hx.ne', hy.ne'⟩
    have hne : x * 1000 + a * 997 ≠ 0 := by omega
    unfold getInputPrice
    refine refuseGeneric_bind_eq_ok.mpr ⟨hpos, ?_⟩
    rw [bind_of_eq_ok (Uint128.checkedMul_eq_ok.mpr ⟨hcounted, rfl⟩),
      bind_of_eq_ok (Uint128.checkedMul_eq_ok.mpr ⟨hnumerator, rfl⟩),
      bind_of_eq_ok (Uint128.checkedMul_eq_ok.mpr ⟨hscaled, rfl⟩),
      bind_of_eq_ok (Uint128.checkedAdd_eq_ok.mpr ⟨hdenominator, rfl⟩)]
    exact Uint128.checkedDiv_eq_ok.mpr ⟨hne, rfl⟩

theorem getInputPrice_spec {ε : Type} [OfStdError ε]
    (h : (getInputPrice a x y : Exec ε ℕ) = .ok n) :
    0 < x ∧ 0 < y ∧ n = quote 997 1000 a x y := by
  obtain ⟨hx, hy, -, -, -, hn⟩ := getInputPrice_eq_ok.mp h
  exact ⟨hx, hy, hn⟩

/-- The fees of a swap are in per mille of an amount, while the computation is in range. -/
theorem platformFeeOf_eq_ok {cfg : Config} : platformFeeOf cfg a = .ok n ↔
    a * Uint64.add cfg.platformFee cfg.txFee < Uint128.bound ∧
      n = a * Uint64.add cfg.platformFee cfg.txFee / thousand :=
  perMille_eq_ok

/-- The first shares are as many as the deposit, later ones in proportion to the reserve. -/
theorem getLpTokenAmountToMint_spec (h : getLpTokenAmountToMint t s r₁ = .ok n) :
    s = 0 ∧ n = t ∨ 0 < s ∧ 0 < r₁ ∧ n = t * s / r₁ := by
  unfold getLpTokenAmountToMint at h
  split at h
  · rename_i hs
    exact .inl ⟨hs, (pure_eq_ok.mp h).symm⟩
  · rename_i hs
    obtain ⟨scaled, hscaled, h⟩ := bind_eq_ok.mp h
    obtain ⟨-, rfl⟩ := Uint128.checkedMul_eq_ok.mp hscaled
    obtain ⟨hpos, rfl⟩ := Uint128.checkedDiv_eq_ok.mp h
    exact .inr ⟨Nat.pos_of_ne_zero hs, Nat.pos_of_ne_zero hpos, rfl⟩

/-- Once there are shares, a deposit is matched in proportion, rounded up. -/
theorem getToken2AmountRequired_spec (h : getToken2AmountRequired a t s r₂ r₁ = .ok n) :
    s = 0 ∧ n = a ∨ 0 < s ∧ n = t * r₂ / r₁ + 1 := by
  unfold getToken2AmountRequired at h
  split at h
  · rename_i hs
    exact .inl ⟨hs, (pure_eq_ok.mp h).symm⟩
  · rename_i hs
    obtain ⟨scaled, hscaled, h⟩ := bind_eq_ok.mp h
    obtain ⟨share, hshare, h⟩ := bind_eq_ok.mp h
    obtain ⟨-, rfl⟩ := Uint128.checkedMul_eq_ok.mp hscaled
    obtain ⟨-, rfl⟩ := Uint128.checkedDiv_eq_ok.mp hshare
    exact .inr ⟨Nat.pos_of_ne_zero hs, (Uint128.checkedAdd_eq_ok.mp h).2⟩

/-- Of a native coin exactly the given amount is attached. -/
theorem validateInputAmount_native (h : validateInputAmount funds n (.native denom) = .ok ()) :
    amountOf denom funds = n := by
  unfold validateInputAmount at h
  obtain ⟨actual, hactual, h⟩ := bind_eq_ok.mp h
  obtain ⟨hne, -⟩ := refuse_bind_eq_ok.mp h
  obtain ⟨amount, hamount, hcoin⟩ := bind_eq_ok.mp hactual
  obtain rfl := pure_eq_ok.mp hcoin
  have hsum := Uint128.foldlM_add_eq_ok hamount
  rw [Nat.zero_add] at hsum
  rw [amountOf, ← hsum]
  exact not_not.mp hne

end Amounts

/-! ## State -/

namespace Storage

variable (st : Storage) (n m : ℕ) (sel : TokenSelect)

@[simp] theorem setReserve_config : (st.setReserve n sel).config = st.config := by
  cases sel <;> rfl

@[simp] theorem setReserve_lpToken : (st.setReserve n sel).lpToken = st.lpToken := by
  cases sel <;> rfl

@[simp] theorem setReserve_denom (other : TokenSelect) :
    ((st.setReserve n sel).token other).denom = (st.token other).denom := by
  cases sel <;> cases other <;> rfl

@[simp] theorem setReserve_reserve (other : TokenSelect) :
    ((st.setReserve n sel).token other).reserve =
      if other = sel then n else (st.token other).reserve := by
  cases sel <;> cases other <;> rfl

end Storage

/-! ## Handlers -/

section Handlers

variable {q : Querier} {env : Env} {info : MessageInfo} {st st' : Storage} {fee : ℕ}
  {expiration : Option Expiration} {resp : Response Payload}

theorem executeUpdateConfig_spec {owner bonding treasury : Addr}
    (h : executeUpdateConfig info st owner bonding treasury = .ok (st', resp)) :
    st'.token1 = st.token1 ∧ st'.token2 = st.token2 ∧ st'.lpToken = st.lpToken ∧
      st'.config.usdcDenom = st.config.usdcDenom ∧ resp.messages = [] := by
  obtain ⟨-, h⟩ := refuse_bind_eq_ok.mp h
  cases pure_eq_ok.mp h
  exact ⟨rfl, rfl, rfl, rfl, rfl⟩

theorem executeAddLiquidity_spec {minLiquidity t maxToken2 : ℕ}
    (h : executeAddLiquidity q env info st minLiquidity t maxToken2 fee expiration =
      .ok (st', resp)) :
    ∃ lp supply minted token2Amount bonds, st.lpToken = some lp ∧ q.totalSupply lp = .ok supply ∧
      validateInputAmount info.funds (t + fee) st.token1.denom = .ok () ∧
      validateInputAmount info.funds maxToken2 st.token2.denom = .ok () ∧
      getLpTokenAmountToMint t supply st.token1.reserve = .ok minted ∧
      getToken2AmountRequired maxToken2 t supply st.token2.reserve st.token1.reserve =
        .ok token2Amount ∧
      st' = (st.setReserve (st.token1.reserve + t) .token1).setReserve
        (st.token2.reserve + token2Amount) .token2 ∧
      (∀ m ∈ bonds, ∃ b, m = .wasmExecute st.config.bondingContractAddress (.bonding b) []) ∧
      resp.messages = pullMessages st.token1.denom info.sender env.contractAddress t ++
        pullMessages st.token2.denom info.sender env.contractAddress token2Amount ++
        refundMessages st.token2.denom info.sender maxToken2 token2Amount ++
        [transferTokenMessage .cw20 st.token1.denom fee st.config.treasuryAddress,
          mintLpTokens st.config.owner minted lp] ++ bonds := by
  unfold executeAddLiquidity at h
  obtain ⟨-, -, h⟩ := bind_eq_ok.mp h
  obtain ⟨lp, hlp, h⟩ := bind_eq_ok.mp h
  obtain ⟨attached, hattached, h⟩ := bind_eq_ok.mp h
  obtain ⟨⟨⟩, hfunds1, h⟩ := bind_eq_ok.mp h
  obtain ⟨⟨⟩, hfunds2, h⟩ := bind_eq_ok.mp h
  obtain ⟨supply, hsupply, h⟩ := bind_eq_ok.mp h
  obtain ⟨minted, hminted, h⟩ := bind_eq_ok.mp h
  obtain ⟨token2Amount, htoken2, h⟩ := bind_eq_ok.mp h
  obtain ⟨-, h⟩ := refuse_bind_eq_ok.mp h
  obtain ⟨-, h⟩ := refuse_bind_eq_ok.mp h
  obtain ⟨reserve1, hreserve1, h⟩ := bind_eq_ok.mp h
  obtain ⟨reserve2, hreserve2, h⟩ := bind_eq_ok.mp h
  obtain ⟨scaled, -, h⟩ := bind_eq_ok.mp h
  obtain ⟨doubled, -, h⟩ := bind_eq_ok.mp h
  obtain ⟨required, -, h⟩ := bind_eq_ok.mp h
  obtain ⟨-, h⟩ := refuse_bind_eq_ok.mp h
  obtain ⟨bonds, hbonds, h⟩ := bind_eq_ok.mp h
  cases pure_eq_ok.mp h
  obtain ⟨-, rfl⟩ := Uint128.add_eq_ok.mp hattached
  obtain ⟨-, rfl⟩ := Uint128.add_eq_ok.mp hreserve1
  obtain ⟨-, rfl⟩ := Uint128.add_eq_ok.mp hreserve2
  -- the sender of the deposit gets a bond, unless it is the owner or the treasury
  refine ⟨lp, supply, minted, token2Amount, bonds, load_eq_ok.mp hlp, liftStd_eq_ok.mp hsupply,
    hfunds1, hfunds2, hminted, htoken2, rfl, ?_, rfl⟩
  intro m hm
  split at hbonds
  · obtain ⟨amount, -, hbonds⟩ := bind_eq_ok.mp hbonds
    rw [← pure_eq_ok.mp hbonds, List.mem_singleton] at hm
    exact ⟨_, hm⟩
  · rw [← pure_eq_ok.mp hbonds] at hm
    cases hm

theorem executeRemoveLiquidity_spec {a min1 min2 : ℕ}
    (h : executeRemoveLiquidity q env info st a min1 min2 expiration = .ok (st', resp)) :
    ∃ lp supply, st.lpToken = some lp ∧ q.totalSupply lp = .ok supply ∧ 0 < supply ∧
      a * st.token1.reserve / supply ≤ st.token1.reserve ∧
      a * st.token2.reserve / supply ≤ st.token2.reserve ∧
      st' = (st.setReserve (st.token1.reserve - a * st.token1.reserve / supply) .token1).setReserve
        (st.token2.reserve - a * st.token2.reserve / supply) .token2 ∧
      resp.messages =
        [payMessage st.token1.denom info.sender (a * st.token1.reserve / supply),
          payMessage st.token2.denom info.sender (a * st.token2.reserve / supply),
          getBurnMsg lp info.sender a] := by
  unfold executeRemoveLiquidity at h
  obtain ⟨-, -, h⟩ := bind_eq_ok.mp h
  obtain ⟨lp, hlp, h⟩ := bind_eq_ok.mp h
  obtain ⟨balance, -, h⟩ := bind_eq_ok.mp h
  obtain ⟨supply, hsupply, h⟩ := bind_eq_ok.mp h
  obtain ⟨-, h⟩ := refuse_bind_eq_ok.mp h
  obtain ⟨scaled1, hscaled1, h⟩ := bind_eq_ok.mp h
  obtain ⟨token1Amount, htoken1, h⟩ := bind_eq_ok.mp h
  obtain ⟨-, h⟩ := refuse_bind_eq_ok.mp h
  obtain ⟨scaled2, hscaled2, h⟩ := bind_eq_ok.mp h
  obtain ⟨token2Amount, htoken2, h⟩ := bind_eq_ok.mp h
  obtain ⟨-, h⟩ := refuse_bind_eq_ok.mp h
  obtain ⟨reserve1, hreserve1, h⟩ := bind_eq_ok.mp h
  obtain ⟨reserve2, hreserve2, h⟩ := bind_eq_ok.mp h
  cases pure_eq_ok.mp h
  obtain ⟨-, rfl⟩ := Uint128.checkedMul_eq_ok.mp hscaled1
  obtain ⟨-, rfl⟩ := Uint128.checkedMul_eq_ok.mp hscaled2
  obtain ⟨hpos, rfl⟩ := Uint128.checkedDiv_eq_ok.mp htoken1
  obtain ⟨-, rfl⟩ := Uint128.checkedDiv_eq_ok.mp htoken2
  obtain ⟨hle1, rfl⟩ := Uint128.checkedSub_eq_ok.mp hreserve1
  obtain ⟨hle2, rfl⟩ := Uint128.checkedSub_eq_ok.mp hreserve2
  exact ⟨lp, supply, load_eq_ok.mp hlp, liftStd_eq_ok.mp hsupply, Nat.pos_of_ne_zero hpos,
    hle1, hle2, rfl, rfl⟩

theorem executeSwap_spec {a minToken : ℕ} {sel : TokenSelect} {recipient : Addr}
    (h : executeSwap env info st a sel recipient minToken fee expiration = .ok (st', resp)) :
    ∃ bought, validateSwapFunds info st sel a fee = .ok () ∧
      (getInputPrice a (st.token sel).reserve (st.token sel.other).reserve :
        Exec ContractError ℕ) = .ok bought ∧
      bought ≤ (st.token sel.other).reserve ∧
      st' = (st.setReserve ((st.token sel).reserve + a) sel).setReserve
        ((st.token sel.other).reserve - bought) sel.other ∧
      resp.messages = pullMessages (st.token sel).denom info.sender env.contractAddress a ++
        [payMessage (st.token sel.other).denom recipient bought,
          transferTokenMessage .cw20 (.native st.config.usdcDenom) fee
            st.config.treasuryAddress] := by
  unfold executeSwap at h
  obtain ⟨-, -, h⟩ := bind_eq_ok.mp h
  obtain ⟨⟨⟩, hfunds, h⟩ := bind_eq_ok.mp h
  obtain ⟨bought, hbought, h⟩ := bind_eq_ok.mp h
  obtain ⟨-, h⟩ := refuse_bind_eq_ok.mp h
  obtain ⟨required, -, h⟩ := bind_eq_ok.mp h
  obtain ⟨-, h⟩ := refuse_bind_eq_ok.mp h
  obtain ⟨inputReserve, hinput, h⟩ := bind_eq_ok.mp h
  obtain ⟨outputReserve, houtput, h⟩ := bind_eq_ok.mp h
  cases pure_eq_ok.mp h
  obtain ⟨-, rfl⟩ := Uint128.checkedAdd_eq_ok.mp hinput
  obtain ⟨hle, rfl⟩ := Uint128.checkedSub_eq_ok.mp houtput
  exact ⟨bought, hfunds, hbought, hle, rfl, rfl⟩

/-- A swap whose coins, output and fee pass the checks succeeds, and pays what it buys. -/
theorem executeSwap_succeeds {a minToken bought required : ℕ} {sel : TokenSelect}
    {recipient : Addr} (hfunds : validateSwapFunds info st sel a fee = .ok ())
    (hbought : (getInputPrice a (st.token sel).reserve (st.token sel.other).reserve :
      Exec ContractError ℕ) = .ok bought) (hmin : minToken ≤ bought)
    (hrequired : platformFeeOf st.config (feeBase sel a bought) = .ok required)
    (hfee : required ≤ fee) :
    ∃ st', executeSwap env info st a sel recipient minToken fee none = .ok (st',
      { messages := pullMessages (st.token sel).denom info.sender env.contractAddress a ++
        [payMessage (st.token sel.other).denom recipient bought,
          transferTokenMessage .cw20 (.native st.config.usdcDenom) fee
            st.config.treasuryAddress] }) := by
  obtain ⟨hx, hy, -, -, hrange, hquote⟩ := getInputPrice_eq_ok.mp hbought
  have hinput : (st.token sel).reserve + a < Uint128.bound := by omega
  -- the quote never empties the reserve
  have houtput : bought ≤ (st.token sel.other).reserve := by
    rw [hquote]
    exact (quote_lt (by decide) hx hy).le
  have hexpiration : checkExpiration none env.block = .ok () := refuse_eq_ok.mpr (by simp)
  refine ⟨(st.setReserve ((st.token sel).reserve + a) sel).setReserve
    ((st.token sel.other).reserve - bought) sel.other, ?_⟩
  unfold executeSwap
  rw [bind_of_eq_ok hexpiration, bind_of_eq_ok hfunds, bind_of_eq_ok hbought]
  refine refuse_bind_eq_ok.mpr ⟨not_lt.mpr hmin, ?_⟩
  rw [bind_of_eq_ok hrequired]
  refine refuse_bind_eq_ok.mpr ⟨not_lt.mpr hfee, ?_⟩
  rw [bind_of_eq_ok (Uint128.checkedAdd_eq_ok.mpr ⟨hinput, rfl⟩),
    bind_of_eq_ok (Uint128.checkedSub_eq_ok.mpr ⟨houtput, rfl⟩)]
  rfl

theorem executeAddToken_spec {a : ℕ} {sel : TokenSelect}
    (h : executeAddToken env info st sel a = .ok (st', resp)) :
    (sel = .token1 → validateInputAmount info.funds a st.token1.denom = .ok ()) ∧
      st' = st.setReserve ((st.token sel).reserve + a) sel ∧
      resp.messages = pullMessages (st.token sel).denom info.sender env.contractAddress a := by
  unfold executeAddToken at h
  obtain ⟨-, h⟩ := refuse_bind_eq_ok.mp h
  cases sel with
  | token1 =>
    obtain ⟨⟨⟩, hfunds, h⟩ := bind_eq_ok.mp h
    obtain ⟨reserve, hreserve, h⟩ := bind_eq_ok.mp h
    cases pure_eq_ok.mp h
    obtain ⟨-, rfl⟩ := Uint128.checkedAdd_eq_ok.mp hreserve
    exact ⟨fun _ => hfunds, rfl, rfl⟩
  | token2 =>
    obtain ⟨reserve, hreserve, h⟩ := bind_eq_ok.mp h
    cases pure_eq_ok.mp h
    obtain ⟨-, rfl⟩ := Uint128.checkedAdd_eq_ok.mp hreserve
    exact ⟨nofun, rfl, rfl⟩

end Handlers

end Fanfuryswap
