import LiquidityContracts.Gaming.Collateral

/-!
# The swaps of the gaming pool

Bids, claims of refunds and the admin's swap each send the pool one swap. The gaming pool asks the
pool for its price and its fees, and computes from them the least output, the fee and the coins to
attach; the pool computes them again when it gets the swap. Both compute the same, so that the pool
accepts the swap and pays what it has quoted. Only the denom of the coins is no answer of the pool:
the gaming pool sends the one it is configured with, and the pool looks for its own in what comes
with a swap of USDC.

## Main definitions

* `EmittedSwap`: a swap as the gaming pool sends it
* `Accepted`: the pool accepts a swap, and pays what it has quoted
* `EmitsAccepted`: the one swap of a call is accepted after the messages before it

## Main results

* `sellFury_accepted`, `sellUsdc_accepted`: the swaps of bids, and those of USDC
* `emitsAccepted`: the pool accepts the swaps of the gaming pool, those of USDC in its own denom
* `not_emitsAccepted`: a swap of USDC in another denom is refused
-/

namespace Gamingpool

open CosmWasm

/-- A swap as the gaming pool sends it to the pool. -/
structure EmittedSwap where
  inputToken : Fanfuryswap.TokenSelect
  inputAmount : ℕ
  minOutput : ℕ
  feeAmount : ℕ
  funds : List Coin
  deriving DecidableEq

namespace EmittedSwap

variable (d : Deployment) (s : EmittedSwap)

/-- The message of a swap. -/
def message : CosmosMsg Payload :=
  .wasmExecute d.swap.pool
    (.fanfuryswap (.swap s.inputToken s.inputAmount s.minOutput s.feeAmount none)) s.funds

/-- What the pool does with a swap of the gaming pool. -/
def execute (block : BlockInfo) (pool : Fanfuryswap.Storage) :
    Exec Fanfuryswap.ContractError (Fanfuryswap.Storage × Response Fanfuryswap.Payload) :=
  Fanfuryswap.executeSwap ⟨block, d.swap.pool⟩ ⟨d.gaming, s.funds⟩ pool s.inputAmount s.inputToken
    d.gaming s.minOutput s.feeAmount none

/-- What the pool has to send for a swap at its quote: it takes what is sold, and pays the least
output to the gaming pool and the fee to the treasury. -/
def payments (pool : Fanfuryswap.Storage) : List (CosmosMsg Fanfuryswap.Payload) :=
  Fanfuryswap.pullMessages (pool.token s.inputToken).denom d.gaming d.swap.pool s.inputAmount ++
    [Fanfuryswap.payMessage (pool.token s.inputToken.other).denom d.gaming s.minOutput,
      Util.transferTokenMessage .cw20 (.native pool.config.usdcDenom) s.feeAmount
        pool.config.treasuryAddress]

/-- What the pool quotes for a swap. -/
def quoted (chain : Fanfuryswap.World) : Except StdError ℕ :=
  match s.inputToken with
  | .token1 => (querier d chain).token1ForToken2Price d.swap.pool s.inputAmount
  | .token2 => (querier d chain).token2ForToken1Price d.swap.pool s.inputAmount

/-- A swap can be read off its message. -/
theorem message_injective : Function.Injective (message d) := by
  intro s s' h
  cases s
  cases s'
  cases h
  rfl

end EmittedSwap

/-- A message to the pool. -/
def ToPool (m : CosmosMsg Payload) : Prop :=
  ∃ contract msg funds, m = .wasmExecute contract (.fanfuryswap msg) funds

/-- The pool, in one state, accepts a swap, and pays out what it has quoted in another. -/
structure Accepted (d : Deployment) (block : BlockInfo) (chain chain' : Fanfuryswap.World)
    (s : EmittedSwap) : Prop where
  quoted : s.quoted d chain = .ok s.minOutput
  paid : ∃ pool, s.execute d block chain'.pool =
    .ok (pool, { messages := s.payments d chain.pool })

/-- A response has one message to the pool, a swap that the pool accepts after the messages before
it have been applied. -/
def EmitsAccepted (d : Deployment) (block : BlockInfo) (chain : Fanfuryswap.World)
    (r : Response Payload) : Prop :=
  ∃ before s after, r.emitted = before ++ s.message d :: after ∧
    (∀ m ∈ before ++ after, ¬ ToPool m) ∧
    ∀ chain', applyMessages d block chain before = some chain' → Accepted d block chain chain' s

/-- The token that a message has the gaming pool sell. -/
def ExecuteMsg.sells : ExecuteMsg → Option Fanfuryswap.TokenSelect
  | .gamePoolBidSubmitCommand _ _ _ _ _ => some .token2
  | .claimRefund _ => some .token1
  | .swap _ _ => some .token1
  | _ => none

section Swaps

variable {d : Deployment} {block : BlockInfo} {info : MessageInfo} {gaming : Storage}
  {chain chain' : Fanfuryswap.World} {amount n fee : ℕ} {m : CosmosMsg Payload}

/-- The price of the pool is the same whoever is told of its errors. -/
theorem getInputPrice_of_query {x y : ℕ}
    (h : (Fanfuryswap.getInputPrice amount x y : Exec StdError ℕ) = .ok n) :
    (Fanfuryswap.getInputPrice amount x y : Exec Fanfuryswap.ContractError ℕ) = .ok n :=
  Fanfuryswap.getInputPrice_eq_ok.mpr (Fanfuryswap.getInputPrice_eq_ok.mp h)

/-- The fee that the gaming pool computes is the fee that the pool asks for. -/
theorem platformFeeOf_of_swapFeeOf {swapConfig : FanfuryswapConfigResponse}
    (hconfig : (querier d chain).swapConfig d.swap.pool = .ok swapConfig)
    (hfee : swapFeeOf swapConfig n = .ok fee) :
    Fanfuryswap.platformFeeOf chain.pool.config n = .ok fee := by
  rw [querier_swapConfig hconfig] at hfee
  exact Fanfuryswap.platformFeeOf_eq_ok.mpr (swapFeeOf_eq_ok.mp hfee)

/-- Of one coin as much is attached as it has. -/
theorem validateInputAmount_singleton {denom : String} (hn : n < Uint128.bound) :
    Fanfuryswap.validateInputAmount [⟨denom, n⟩] n (.native denom) = .ok () := by
  have hcoin : Fanfuryswap.getAmountForDenom [⟨denom, n⟩] denom = .ok ⟨denom, n⟩ := by
    have hadd : (Uint128.add 0 n : Exec Fanfuryswap.ContractError ℕ) = .ok n :=
      Uint128.add_eq_ok.mpr ⟨by rwa [Nat.zero_add], (Nat.zero_add n).symm⟩
    unfold Fanfuryswap.getAmountForDenom
    simp only [decide_true, List.filter_cons_of_pos, List.filter_nil, List.foldlM_cons,
      List.foldlM_nil, hadd]
    rfl
  exact bind_eq_ok.mpr ⟨_, hcoin, refuse_bind_eq_ok.mpr ⟨not_not.mpr rfl,
    refuse_eq_ok.mpr (not_not.mpr rfl)⟩⟩

/-- **A swap of FURY is accepted**, with the fee of what the pool has quoted. -/
theorem sellFury_accepted {swapConfig : FanfuryswapConfigResponse} {denom : String}
    (hchain : chain.pool.Wired d.swap) (hpool : chain'.pool = chain.pool)
    (hconfig : (querier d chain).swapConfig d.swap.pool = .ok swapConfig)
    (hquoted : (querier d chain).token2ForToken1Price d.swap.pool amount = .ok n)
    (hfee : swapFeeOf swapConfig n = .ok fee) :
    Accepted d block chain chain' ⟨.token2, amount, n, fee, [⟨denom, fee⟩]⟩ := by
  refine ⟨hquoted, ?_⟩
  have hprice : Fanfuryswap.queryToken2ForToken1Price chain.pool amount = .ok n := by
    simp only [querier, if_true] at hquoted
    exact answer_eq_ok.mp hquoted
  -- the pool checks nothing of what is attached to a swap of a cw20 token
  have hfunds : Fanfuryswap.validateSwapFunds ⟨d.gaming, [⟨denom, fee⟩]⟩ chain.pool .token2 amount
      fee = .ok () := by
    show Fanfuryswap.validateInputAmount _ _ chain.pool.token2.denom = _
    rw [hchain.token2]
    rfl
  rw [EmittedSwap.execute, hpool]
  exact Fanfuryswap.executeSwap_succeeds hfunds (getInputPrice_of_query hprice) le_rfl
    (platformFeeOf_of_swapFeeOf hconfig hfee) le_rfl

/-- **A swap of USDC is accepted**, when it comes in the denom of the pool. -/
theorem sellUsdc_accepted (hchain : chain.pool.Wired d.swap) (hpool : chain'.pool = chain.pool)
    (haddress : gaming.config.poolAddress = d.swap.pool)
    (hcoin : gaming.config.usdcIbcSymbol = chain.pool.config.usdcDenom)
    (h : SellsUsdc (querier d chain) gaming amount m) :
    ∃ s : EmittedSwap, m = s.message d ∧ Accepted d block chain chain' s := by
  obtain ⟨swapConfig, expectedFury, swapFee, hconfig, hfee, hquoted, hlt, rfl⟩ := h
  rw [haddress] at hconfig hquoted
  refine ⟨⟨.token1, amount, expectedFury, swapFee,
    [⟨gaming.config.usdcIbcSymbol, amount + swapFee⟩]⟩, by rw [haddress]; rfl, hquoted, ?_⟩
  have hprice : Fanfuryswap.queryToken1ForToken2Price chain.pool amount = .ok expectedFury := by
    simp only [querier, if_true] at hquoted
    exact answer_eq_ok.mp hquoted
  -- the coins attached are what is sold and the fee, in one denom
  have hfunds : Fanfuryswap.validateSwapFunds
      ⟨d.gaming, [⟨gaming.config.usdcIbcSymbol, amount + swapFee⟩]⟩ chain.pool .token1 amount
      swapFee = .ok () := by
    unfold Fanfuryswap.validateSwapFunds
    rw [bind_of_eq_ok (Uint128.add_eq_ok.mpr ⟨hlt, rfl⟩)]
    show Fanfuryswap.validateInputAmount _ _ chain.pool.token1.denom = _
    rw [hchain.token1, hcoin]
    exact validateInputAmount_singleton hlt
  rw [EmittedSwap.execute, hpool]
  exact Fanfuryswap.executeSwap_succeeds hfunds (getInputPrice_of_query hprice) le_rfl
    (platformFeeOf_of_swapFeeOf hconfig hfee) le_rfl

/-- A call of a token leaves the pool as it is. -/
theorem applyMessages_transfer {token contract : Addr} {n k : Cw20.ExecuteMsg}
    (h : applyMessages d block chain [.wasmExecute token (.cw20 n) [],
      .wasmExecute contract (.cw20 k) []] = some chain') : chain'.pool = chain.pool := by
  simp only [applyMessages, List.foldlM_cons, List.foldlM_nil, Option.pure_def,
    Option.bind_eq_bind, Option.bind_eq_some_iff] at h
  obtain ⟨taken, htaken, lent, hlent, h⟩ := h
  cases h
  exact (applyMessage_cw20 hlent).2.trans (applyMessage_cw20 htaken).2

/-- **A bid** has its swap accepted once its FURY is taken and lent to the pool. -/
theorem bidMessages_accepted {env : Env} {r : Response Payload} (hchain : chain.pool.Wired d.swap)
    (haddress : gaming.config.poolAddress = d.swap.pool)
    (hmessages : bidMessages (querier d chain) env info gaming amount = .ok r.messages)
    (hnone : r.submessages = []) : EmitsAccepted d block chain r := by
  obtain ⟨swapConfig, expectedUsdc, fee, hconfig, hquoted, hfee, hmessages⟩ :=
    bidMessages_spec hmessages
  rw [haddress] at hconfig hquoted hmessages
  -- two messages to FURY come before the swap
  have hemitted : r.emitted =
      [.wasmExecute gaming.config.furyTokenAddress
          (.cw20 (.transferFrom info.sender env.contractAddress amount)) [],
        .wasmExecute gaming.config.furyTokenAddress
          (.cw20 (.increaseAllowance d.swap.pool amount none)) []] ++
      EmittedSwap.message d
        ⟨.token2, amount, expectedUsdc, fee, [⟨gaming.config.usdcIbcSymbol, fee⟩]⟩ :: [] := by
    rw [Response.emitted, hmessages, hnone]
    rfl
  refine ⟨_, _, _, hemitted, ?_, fun chain' hbefore => ?_⟩
  · rintro m hm ⟨contract, msg, funds, rfl⟩
    simp at hm
  · exact sellFury_accepted hchain (applyMessages_transfer hbefore) hconfig hquoted hfee

/-- **A call whose first message sells USDC** has its swap accepted, in the denom of the pool. -/
theorem emits_sellUsdc {after : List (CosmosMsg Payload)} {r : Response Payload}
    (hchain : chain.pool.Wired d.swap) (haddress : gaming.config.poolAddress = d.swap.pool)
    (hcoin : gaming.config.usdcIbcSymbol = chain.pool.config.usdcDenom)
    (hsells : SellsUsdc (querier d chain) gaming amount m) (hemitted : r.emitted = m :: after)
    (hafter : ∀ m ∈ after, ¬ ToPool m) : EmitsAccepted d block chain r := by
  obtain ⟨s, rfl, haccepted⟩ : ∃ s : EmittedSwap, m = s.message d ∧
      Accepted d block chain chain s := sellUsdc_accepted hchain rfl haddress hcoin hsells
  refine ⟨[], s, after, hemitted, hafter, fun chain' hbefore => ?_⟩
  cases hbefore
  exact haccepted

end Swaps

/-- **The pool accepts the swaps of the gaming pool**, those of USDC when they come in the denom of
the pool: in every state of both in which a message that sells succeeds on the answers of the
pool. -/
theorem emitsAccepted (d : Deployment) (w : Fanfuryswap.World)
    (hinit : Fanfuryswap.Initial d.swap w) (ls : List Fanfuryswap.Label)
    (chain : Fanfuryswap.World) (hpool : chain.pool = (run (Fanfuryswap.exec d.swap) w ls).pool)
    (gaming : Storage) (haddress : gaming.config.poolAddress = d.swap.pool) (block : BlockInfo)
    (info : MessageInfo) (msg : ExecuteMsg) (sold : Fanfuryswap.TokenSelect)
    (hsells : msg.sells = some sold)
    (hcoin : sold = .token1 → gaming.config.usdcIbcSymbol = chain.pool.config.usdcDenom)
    (gaming' : Storage) (r : Response Payload)
    (h : execute d.swap.api (querier d chain) ⟨block, d.gaming⟩ info gaming msg =
      .ok (gaming', r)) :
    EmitsAccepted d block chain r := by
  have hchain : chain.pool.Wired d.swap := by
    rw [hpool]
    exact (Fanfuryswap.run_wired hinit.wired.1 ls).pool
  unfold ExecuteMsg.sells at hsells
  split at hsells
  · obtain ⟨hmessages, hnone⟩ := gamePoolBidSubmit_messages h
    exact bidMessages_accepted hchain haddress hmessages hnone
  · cases hsells
    obtain ⟨-, hmessages, hnone⟩ := claimRefund_spec h
    obtain ⟨m, fees, hsold, -, hmessages⟩ := refundMessages_spec hmessages
    -- the fees of the platform are sent after the swap
    have hemitted : r.emitted = [m, .bankSend info.sender
        [⟨gaming.config.usdcIbcSymbol, fees.transactionFee + fees.platformFee⟩]] := by
      rw [Response.emitted, hmessages, hnone]
      rfl
    refine emits_sellUsdc hchain haddress (hcoin rfl) hsold hemitted ?_
    rintro m hm ⟨contract, msg, funds, rfl⟩
    simp at hm
  · cases hsells
    obtain ⟨id, m, hsold, hmessages, hsub⟩ := swap_messages h
    -- the swap is the only message, to be replied to
    have hemitted : r.emitted = [m] := by
      rw [Response.emitted, hmessages, hsub]
      rfl
    exact emits_sellUsdc hchain haddress (hcoin rfl) hsold hemitted fun m hm =>
      absurd hm List.not_mem_nil
  · cases hsells

namespace Sample

/-- The gaming pool with one pool of duels, configured with a denom. -/
def configured (usdcIbcSymbol : String) : Storage :=
  let st := run (exec api) storage [setType "duel" 10000, create "duel"]
  { st with config := { st.config with usdcIbcSymbol } }

/-- The admin sells some USDC in this denom for the pool of duels. -/
def sellUsdc (usdcIbcSymbol : String) : Option (Storage × Response Payload) :=
  (execute deployment.swap.api (Gamingpool.querier deployment Fanfuryswap.Sample.funded)
    ⟨Fanfuryswap.Sample.block, deployment.gaming⟩ ⟨"admin", []⟩ (configured usdcIbcSymbol)
    (.swap 1000 "1")).toOption

theorem sellUsdc_uusd : (sellUsdc "uusd").isSome = true := by decide +kernel

theorem sellUsdc_uosmo : (sellUsdc "uosmo").isSome = true := by decide +kernel

/-- What the admin has the contract send. -/
def sold : EmittedSwap := ⟨.token1, 1000, 996, 3, [⟨"uosmo", 1003⟩]⟩

end Sample

open Sample in
/-- The admin sells USDC in the denom of the pool. -/
theorem emitsAccepted_sample :
    EmitsAccepted deployment Fanfuryswap.Sample.block Fanfuryswap.Sample.funded
      ((sellUsdc "uusd").get sellUsdc_uusd).2 :=
  emitsAccepted deployment Fanfuryswap.Sample.world Fanfuryswap.Sample.initial
    [Fanfuryswap.Sample.addLiquidity] Fanfuryswap.Sample.funded rfl (configured "uusd")
    (by decide +kernel) Fanfuryswap.Sample.block ⟨"admin", []⟩ (.swap 1000 "1") .token1 rfl
    (fun _ => by decide +kernel) ((sellUsdc "uusd").get sellUsdc_uusd).1 _
    (toOption_eq_some.mp (Option.some_get sellUsdc_uusd).symm)

open Sample in
/-- **A swap of USDC in another denom is refused**: nothing compares the denom that the gaming pool
is configured with to that of the pool. -/
theorem not_emitsAccepted :
    ¬ ∀ (d : Deployment) (w : Fanfuryswap.World), Fanfuryswap.Initial d.swap w →
      ∀ (ls : List Fanfuryswap.Label) (chain : Fanfuryswap.World),
        chain.pool = (run (Fanfuryswap.exec d.swap) w ls).pool →
        ∀ gaming : Storage, gaming.config.poolAddress = d.swap.pool →
          ∀ (block : BlockInfo) (info : MessageInfo) (msg : ExecuteMsg), msg.sells.isSome →
            ∀ (gaming' : Storage) (r : Response Payload),
              execute d.swap.api (querier d chain) ⟨block, d.gaming⟩ info gaming msg =
                .ok (gaming', r) →
              EmitsAccepted d block chain r := by
  intro h
  obtain ⟨before, s, after, hemitted, -, haccepted⟩ := h deployment Fanfuryswap.Sample.world
    Fanfuryswap.Sample.initial [Fanfuryswap.Sample.addLiquidity] Fanfuryswap.Sample.funded rfl
    (configured "uosmo") (by decide +kernel) Fanfuryswap.Sample.block ⟨"admin", []⟩
    (.swap 1000 "1") rfl ((sellUsdc "uosmo").get sellUsdc_uosmo).1 _
    (toOption_eq_some.mp (Option.some_get sellUsdc_uosmo).symm)
  -- the contract sends one message
  have hsold : ((sellUsdc "uosmo").get sellUsdc_uosmo).2.emitted = [sold.message deployment] := by
    decide +kernel
  obtain ⟨rfl, hs⟩ | ⟨-, hs⟩ := List.append_eq_singleton_iff.mp (hemitted.symm.trans hsold)
  · obtain rfl := EmittedSwap.message_injective deployment (List.cons.inj hs).1
    obtain ⟨pool, hpaid⟩ := (haccepted Fanfuryswap.Sample.funded rfl).paid
    have hrefused : (sold.execute deployment Fanfuryswap.Sample.block
        Fanfuryswap.Sample.funded.pool).toOption = none := by decide +kernel
    rw [toOption_eq_some.mpr hpaid] at hrefused
    cases hrefused
  · cases hs

end Gamingpool
