import LiquidityContracts.Gaming.Refund

/-!
# Collateral for refunds

A bid brings in what is attached to it and what the pool pays for its FURY, and costs the fee of
that swap, which nobody is asked for. Once the game is cancelled, a claim of refunds sends the
nominal fee of every team of the gamer, a fee for the swap of this amount, and the platform and
transaction fees of it. Whether the first covers the second is up to what the gamers bid: the
contract holds exactly what the bids have brought in, less the fees of their swaps.

## Main definitions

* `usdcHeld`: the USDC of the contract
* `refundSends`: what a claim of refunds sends
* `Covered`: the contract can pay the refunds of all gamers
* `bidTaken`, `bidSpent`: what a bid brings in and costs
* `BidsOnly`: nothing but bids moves the USDC of the contract

## Main results

* `claimRefund_sends`: a claim of refunds sends what the gamer is counted for
* `callGaming_bid`: what a bid brings in and costs is what the contract gains
* `covered_iff`: the refunds are covered exactly when the bids have brought in as much
* `not_covered`: a bid with the fees that are asked for does not cover its refund
-/

namespace Gamingpool

open CosmWasm Accounting

/-- The USDC of the contract. -/
def usdcHeld (d : Deployment) (w : World) : ℕ :=
  w.chain.bank.balance d.gaming w.gaming.config.usdcIbcSymbol

/-- The gamers that have entered a team. -/
def gamers (st : Storage) : List String := (st.poolTeamDetails.keys.map Prod.snd).dedup

/-- What a claim of refunds over an amount sends: the amount, the fee of its swap, and the
transaction and platform fees. -/
def refundSends (w : World) (total : ℕ) : ℕ :=
  total +
    total * Uint64.add w.chain.pool.config.platformFee w.chain.pool.config.txFee / Util.thousand +
    (total * w.gaming.config.transactionFee / hundredPercent +
      total * w.gaming.config.platformFee / hundredPercent)

/-- The contract holds what the claims of all gamers send. -/
def Covered (d : Deployment) (w : World) : Prop :=
  ((gamers w.gaming).map fun gamer => refundSends w (refundTotal w.gaming gamer)).sum ≤
    usdcHeld d w

instance (d : Deployment) (w : World) : Decidable (Covered d w) :=
  inferInstanceAs (Decidable (_ ≤ _))

/-- The fees of the teams that a gamer has entered, by the types that their pools have. -/
def entryFees (st : Storage) (gamer : String) : ℕ :=
  (st.poolDetails.keys.map fun poolId => (st.teams poolId gamer).length * st.feeOf poolId).sum

/-- What the pool pays for the FURY of a bid. -/
def bidQuote (w : World) (amount : ℕ) : ℕ :=
  quote 997 1000 amount w.chain.pool.token2.reserve w.chain.pool.token1.reserve

/-- What an accepted bid brings in: what is attached, and what the pool pays for its FURY. -/
def bidTaken (d : Deployment) (w : World) (l : Label) : ℕ :=
  match l with
  | .gaming _ info (.gamePoolBidSubmitCommand _ _ _ _ amount) =>
    if (step d w l).isSome then
      amountOf w.gaming.config.usdcIbcSymbol info.funds + bidQuote w amount
    else 0
  | _ => 0

/-- What an accepted bid costs: the fee of its swap, unless the contract collects the fees of the
pool itself. -/
def bidSpent (d : Deployment) (w : World) (l : Label) : ℕ :=
  match l with
  | .gaming _ _ (.gamePoolBidSubmitCommand _ _ _ _ amount) =>
    if (step d w l).isSome ∧ w.chain.pool.config.treasuryAddress ≠ d.gaming then
      bidQuote w amount *
        Uint64.add w.chain.pool.config.platformFee w.chain.pool.config.txFee / Util.thousand
    else 0
  | _ => 0

/-- A bid, whoever makes it. -/
def Label.isBid : Label → Bool
  | .gaming _ _ (.gamePoolBidSubmitCommand _ _ _ _ _) => true
  | _ => false

/-- Nothing but bids moves the USDC of the contract in a run. -/
def BidsOnly (d : Deployment) (w : World) (ls : List Label) : Prop :=
  ∀ x ∈ history (step d) w ls,
    x.2.isBid = true ∨ usdcHeld d (commit (step d) x.1 x.2) = usdcHeld d x.1

instance (d : Deployment) (w : World) (ls : List Label) : Decidable (BidsOnly d w ls) :=
  inferInstanceAs (Decidable (∀ _ ∈ _, _ ∨ _))

/-- The coins of a denom that messages send or attach. -/
def coinsSent (denom : String) (msgs : List (CosmosMsg Payload)) : ℕ :=
  (msgs.map fun
    | .bankSend _ coins => amountOf denom coins
    | .wasmExecute _ _ funds => amountOf denom funds
    | .wasmInstantiate _ _ _ funds _ => amountOf denom funds).sum

section Claims

variable {d : Deployment} {block : BlockInfo} {info : MessageInfo} {w w' : World}
  {chain chain' : Fanfuryswap.World} {r : Response Payload}

/-- The pool answers with its quote for FURY. -/
theorem querier_token2ForToken1Price {amount n : ℕ}
    (h : (querier d chain).token2ForToken1Price d.swap.pool amount = .ok n) :
    n = quote 997 1000 amount chain.pool.token2.reserve chain.pool.token1.reserve := by
  simp only [querier, if_true] at h
  exact (Fanfuryswap.getInputPrice_spec (answer_eq_ok.mp h)).2.2

/-- The pool answers with the fees of its configuration. -/
theorem querier_swapConfig {swapConfig : FanfuryswapConfigResponse}
    (h : (querier d chain).swapConfig d.swap.pool = .ok swapConfig) :
    swapConfig = ⟨chain.pool.config.txFee, chain.pool.config.platformFee⟩ := by
  simp only [querier, if_true] at h
  cases h
  rfl

/-- **A claim of refunds** sends what the gamer is counted for. -/
theorem claimRefund_sends {gamer : String} (hw : Wired d w)
    (h : callGaming d block w info (.claimRefund gamer) = some (w', r)) :
    coinsSent w.gaming.config.usdcIbcSymbol r.messages =
      refundSends w (refundTotal w.gaming gamer) := by
  obtain ⟨bank, gaming, chain, -, hexec, -, -⟩ := callGaming_eq_some.mp h
  obtain ⟨-, hmessages, -⟩ := claimRefund_spec hexec
  obtain ⟨m, fees, ⟨swapConfig, expectedFury, swapFee, hconfig, hfee, -, -, rfl⟩, hfees,
    hmessages⟩ := refundMessages_spec hmessages
  rw [hw.pool] at hconfig
  obtain ⟨hplatform, htransaction⟩ := queryPlatformFees_spec hfees
  rw [hmessages, hplatform, htransaction, swapFeeOf_spec hfee, querier_swapConfig hconfig]
  simp only [coinsSent, List.map_cons, List.map_nil, List.sum_cons, List.sum_nil,
    amountOf_singleton, if_true, refundSends, add_zero]
  rfl

/-- A call of a token by the gaming pool moves tokens only. -/
theorem applyMessage_cw20 {contract : Addr} {n : Cw20.ExecuteMsg}
    (h : applyMessage d block chain (.wasmExecute contract (.cw20 n) []) = some chain') :
    chain'.bank = chain.bank ∧ chain'.pool = chain.pool := by
  obtain ⟨l, r, hl, hexec⟩ := applyMessage_eq_some.mp h
  rw [asLabel] at hl
  split at hl
  · cases hl
    unfold Fanfuryswap.exec at hexec
    split at hexec
    · cases hexec
    · simp only [Option.pure_def, Option.bind_eq_bind, Option.bind_eq_some_iff] at hexec
      obtain ⟨⟨fury, r₁⟩, -, hexec⟩ := hexec
      cases hexec
      exact ⟨rfl, rfl⟩
  · cases hl

/-- **A swap of FURY** by the gaming pool, with the fee attached, brings in what it buys. -/
theorem applyMessage_sellFury {a minOutput fee : ℕ} {expiration : Option Cw20.Expiration}
    (hw : Fanfuryswap.Wired d.swap chain)
    (h : applyMessage d block chain (.wasmExecute d.swap.pool
      (.fanfuryswap (.swap .token2 a minOutput fee expiration))
      [⟨chain.pool.config.usdcDenom, fee⟩]) = some chain') :
    chain'.bank.balance d.gaming chain.pool.config.usdcDenom + fee =
      chain.bank.balance d.gaming chain.pool.config.usdcDenom +
        quote 997 1000 a chain.pool.token2.reserve chain.pool.token1.reserve +
        (if d.gaming = chain.pool.config.treasuryAddress then fee else 0) := by
  obtain ⟨l, r, hl, hexec⟩ := applyMessage_eq_some.mp h
  rw [asLabel, if_pos rfl] at hl
  cases hl
  obtain ⟨bought, hbought, hmoved⟩ := Fanfuryswap.exec_sellFury hw hexec
  have hgaming := hmoved d.gaming d.gaming_ne_pool
  simp only [if_true, amountOf_singleton] at hgaming
  rw [hgaming, hbought]

/-- **What a bid brings in and costs** is what the contract gains. -/
theorem callGaming_bid {gamer poolType poolId teamId : String} {amount : ℕ} (hw : Wired d w)
    (hdenom : w.gaming.config.usdcIbcSymbol = w.chain.pool.config.usdcDenom)
    (hsender : info.sender ≠ d.gaming)
    (h : callGaming d block w info
      (.gamePoolBidSubmitCommand gamer poolType poolId teamId amount) = some (w', r)) :
    usdcHeld d w' + (if w.chain.pool.config.treasuryAddress ≠ d.gaming then
        bidQuote w amount *
          Uint64.add w.chain.pool.config.platformFee w.chain.pool.config.txFee / Util.thousand
      else 0) =
      usdcHeld d w +
        (amountOf w.gaming.config.usdcIbcSymbol info.funds + bidQuote w amount) := by
  obtain ⟨bank, gaming, chain, hbank, hexec, hmsgs, hsub⟩ := callGaming_eq_some.mp h
  have hconfig : gaming.config = w.gaming.config := (execute_effect hexec).config
  obtain ⟨hmessages, hnone⟩ := gamePoolBidSubmit_messages hexec
  obtain ⟨swapConfig, expectedUsdc, fee, hswapConfig, hexpected, hfee, hmessages⟩ :=
    bidMessages_spec hmessages
  rw [hnone] at hsub
  cases hsub
  -- the fee is that of the pool, for what it quotes
  rw [hw.pool] at hswapConfig hexpected
  have hfee := swapFeeOf_spec hfee
  rw [querier_swapConfig hswapConfig, querier_token2ForToken1Price hexpected] at hfee
  rw [hmessages, hw.pool, hdenom] at hmsgs
  simp only [applyMessages, List.foldlM_cons, List.foldlM_nil, Option.pure_def,
    Option.bind_eq_bind, Option.bind_eq_some_iff] at hmsgs
  obtain ⟨taken, htaken, lent, hlent, swapped, hswap, hmsgs⟩ := hmsgs
  cases hmsgs
  -- the first two messages move FURY only
  obtain ⟨hbank₁, hpool₁⟩ := applyMessage_cw20 htaken
  obtain ⟨hbank₂, hpool₂⟩ := applyMessage_cw20 hlent
  have hwired : Fanfuryswap.Wired d.swap lent := by
    have hkept := kept_wired d w.chain.pool.config.usdcDenom
    have h₀ := hkept.bank w.chain bank ⟨hw.chain, rfl⟩
    exact (applyMessage_kept hkept (applyMessage_kept hkept h₀ htaken) hlent).1
  have hpool : lent.pool = w.chain.pool := hpool₂.trans hpool₁
  have hlentBank : lent.bank = bank := hbank₂.trans hbank₁
  rw [← hpool] at hswap
  have hgained := applyMessage_sellFury hwired hswap
  rw [hpool, hlentBank] at hgained
  have hattached := Bank.send_balance hbank d.gaming w.chain.pool.config.usdcDenom
  rw [if_neg (Ne.symm hsender), if_pos rfl] at hattached
  rw [usdcHeld, usdcHeld, bidQuote, hconfig, hdenom]
  dsimp only at hfee hgained ⊢
  rw [← hfee]
  by_cases htreasury : w.chain.pool.config.treasuryAddress = d.gaming
  · rw [if_pos htreasury.symm] at hgained
    rw [if_neg (not_not.mpr htreasury)]
    omega
  · rw [if_neg (Ne.symm htreasury)] at hgained
    rw [if_pos htreasury]
    omega

end Claims

/-! ## Runs -/

section Runs

variable {d : Deployment} {w w' w₀ : World} {l : Label} {ls : List Label}

/-- What is not a bid brings nothing in and costs nothing. -/
theorem flows_of_not_bid (h : ¬ l.isBid = true) : bidTaken d w l = 0 ∧ bidSpent d w l = 0 := by
  cases l with
  | gaming block info msg =>
    cases msg with
    | gamePoolBidSubmitCommand => exact absurd rfl h
    | _ => exact ⟨rfl, rfl⟩
  | chain l => exact ⟨rfl, rfl⟩

/-- **One step.** The contract gains what a bid brings in, less what it costs. -/
theorem commit_ledger (hw : Wired d w)
    (hdenom : w.gaming.config.usdcIbcSymbol = w.chain.pool.config.usdcDenom)
    (h : l.isBid = true ∨ usdcHeld d (commit (step d) w l) = usdcHeld d w) :
    usdcHeld d (commit (step d) w l) + bidSpent d w l = usdcHeld d w + bidTaken d w l := by
  by_cases hbid : l.isBid = true
  · cases l with
    | chain l => cases hbid
    | gaming block info msg =>
      cases msg with
      | gamePoolBidSubmitCommand gamer poolType poolId teamId amount =>
        rcases commit_cases (step d) w (.gaming block info
          (.gamePoolBidSubmitCommand gamer poolType poolId teamId amount)) with ⟨r, hr⟩ | ⟨hr, hs⟩
        -- an accepted bid is a call of the gaming pool by somebody else
        · simp only [bidTaken, bidSpent, hr, Option.isSome_some, true_and, if_true]
          simp only [step] at hr
          split at hr
          · cases hr
          · rename_i hsender
            exact callGaming_bid hw hdenom (fun hs => hsender (.inl hs)) hr
        · rw [hs]
          simp [bidTaken, bidSpent, hr]
      | _ => cases hbid
  -- what is no bid moves none of the USDC, by assumption
  · obtain ⟨htaken, hspent⟩ := flows_of_not_bid (d := d) (w := w) hbid
    rw [htaken, hspent, h.resolve_left hbid]

/-- **The ledger of a run.** The contract holds what it held and what the bids have brought in,
less what they have cost. -/
theorem run_ledger (hd : Deployed d w₀)
    (hdenom : w₀.gaming.config.usdcIbcSymbol = w₀.chain.pool.config.usdcDenom)
    (hbids : BidsOnly d w₀ ls) :
    usdcHeld d (run (step d) w₀ ls) + tally (step d) (bidSpent d) w₀ ls =
      usdcHeld d w₀ + tally (step d) (bidTaken d) w₀ ls := by
  have hstep : ∀ x ∈ history (step d) w₀ ls,
      bidSpent d x.1 x.2 + usdcHeld d (commit (step d) x.1 x.2) =
        usdcHeld d x.1 + bidTaken d x.1 x.2 := by
    intro x hx
    obtain ⟨before, after, -, hbefore⟩ := mem_history hx
    -- the denoms agree in every state, since neither contract changes its own
    have hdenom' : x.1.gaming.config.usdcIbcSymbol = x.1.chain.pool.config.usdcDenom := by
      rw [hbefore, run_config hd, run_usdcDenom hd, hdenom]
    have hwired : Wired d x.1 := by
      rw [hbefore]
      exact run_wired hd before
    rw [add_comm]
    exact commit_ledger hwired hdenom' (hbids x hx)
  rw [add_comm]
  exact tally_add_eq hstep

end Runs

/-! ## The game is cancelled -/

section Cancelled

variable {d : Deployment} {block : BlockInfo} {info : MessageInfo} {w w' : World}
  {st st' : Storage} {pools : Store String PoolDetails} {r : Response Payload}

/-- Once every pool is to be refunded, the fees of all teams are due. -/
theorem refundTotal_refunded
    (hpools : ∀ p : String, pools[p]? = (st.poolDetails[p]?).map PoolDetails.refunded)
    (gamer : String) :
    refundTotal { st.setGameStatus gameCancelled with poolDetails := pools } gamer =
      entryFees st gamer := by
  -- the pools are the same, and may be listed in another order
  have hkeys : pools.keys.Perm st.poolDetails.keys :=
    Store.keys_perm fun p => by rw [hpools p, Option.isSome_map]
  show (pools.keys.map _).sum = _
  rw [(hkeys.map _).sum_eq, entryFees]
  refine congrArg List.sum (List.map_congr_left fun p hp => ?_)
  obtain ⟨pool, hpool⟩ := (Store.mem_keys_iff st.poolDetails p).mp hp
  have hrefunded : pools[p]? = some pool.refunded := by
    rw [hpools p, hpool, Option.map_some]
  have hstatus : Storage.refundStatus
      { st.setGameStatus gameCancelled with poolDetails := pools } p = true := by
    rw [Storage.refundStatus, hrefunded]
    rfl
  have hfee : Storage.feeOf { st.setGameStatus gameCancelled with poolDetails := pools } p =
      st.feeOf p := by
    rw [Storage.feeOf, Storage.feeOf, hrefunded, hpool]
    rfl
  rw [refundsDue, hstatus, if_pos rfl, hfee]
  rfl

/-- Cancelling the game makes the fees of all teams due, and leaves the prices as they are. -/
theorem callGaming_cancelGame (h : callGaming d block w info .cancelGame = some (w', r)) :
    gamers w'.gaming = gamers w.gaming ∧
      (∀ gamer, refundTotal w'.gaming gamer = entryFees w.gaming gamer) ∧
      ∀ total, refundSends w' total = refundSends w total := by
  obtain ⟨bank, gaming, chain, -, hexec, hmsgs, hsub⟩ := callGaming_eq_some.mp h
  obtain ⟨status, pools, -, -, hpools, hst, rfl⟩ := cancelGame_spec hexec
  cases hmsgs
  cases hsub
  rw [hst]
  exact ⟨rfl, refundTotal_refunded hpools, fun _ => rfl⟩

end Cancelled

/-- **The refunds are covered** exactly when the bids of the run have brought in what the claims of
all gamers send, over the fees of the teams they have entered, and what the swaps of the bids have
cost. -/
theorem covered_iff (d : Deployment) (w₀ : World) (hd : Deployed d w₀)
    (hdenom : w₀.gaming.config.usdcIbcSymbol = w₀.chain.pool.config.usdcDenom)
    (hnone : usdcHeld d w₀ = 0) (ls : List Label) (block : BlockInfo) (info : MessageInfo)
    (w' : World) (r : Response Payload)
    (hbids : BidsOnly d w₀ (ls ++ [.gaming block info .cancelGame]))
    (h : step d (run (step d) w₀ ls) (.gaming block info .cancelGame) = some (w', r)) :
    Covered d w' ↔
      ((gamers (run (step d) w₀ ls).gaming).map fun gamer =>
          refundSends (run (step d) w₀ ls) (entryFees (run (step d) w₀ ls).gaming gamer)).sum +
        tally (step d) (bidSpent d) w₀ ls ≤ tally (step d) (bidTaken d) w₀ ls := by
  have hledger := run_ledger hd hdenom hbids
  rw [run_snoc, commit_of_some h, tally_snoc, tally_snoc, hnone] at hledger
  -- the call that cancels the game is not a bid
  obtain ⟨htaken, hspent⟩ : bidTaken d (run (step d) w₀ ls) (.gaming block info .cancelGame) = 0 ∧
      bidSpent d (run (step d) w₀ ls) (.gaming block info .cancelGame) = 0 := ⟨rfl, rfl⟩
  rw [htaken, hspent] at hledger
  simp only [step] at h
  split at h
  · cases h
  · obtain ⟨hgamers, hdue, hsends⟩ := callGaming_cancelGame h
    have hsum : ((gamers w'.gaming).map fun gamer =>
        refundSends w' (refundTotal w'.gaming gamer)) =
        (gamers (run (step d) w₀ ls).gaming).map fun gamer =>
          refundSends (run (step d) w₀ ls) (entryFees (run (step d) w₀ ls).gaming gamer) := by
      rw [hgamers]
      refine List.map_congr_left fun gamer _ => ?_
      rw [hsends, hdue]
    rw [Covered, hsum]
    omega

namespace Sample

/-- The trader bids an amount of FURY in a pool with a fee of 10000, with some USDC attached. -/
def loneBid (amount usdc : ℕ) : List Label := [
  .chain Fanfuryswap.Sample.addLiquidity,
  .chain (.fury Fanfuryswap.Sample.block ⟨"trader", []⟩ (.increaseAllowance "gaming" amount none)),
  ask "admin" 0 (.setPoolTypeParams "duel" 10000 2 10 5 []),
  ask "admin" 0 (.createPool "duel"),
  ask "trader" usdc (.gamePoolBidSubmitCommand "trader" "duel" "1" "lions" amount)]

/-- What comes of cancelling the game after a bid. -/
def calledOff (amount usdc : ℕ) : Option (World × Response Payload) :=
  step deployment (run (step deployment) world (loneBid amount usdc))
    (.gaming Fanfuryswap.Sample.block ⟨"admin", []⟩ .cancelGame)

theorem calledOff_generous : (calledOff 10400 500).isSome = true := by decide +kernel

theorem calledOff_fair : (calledOff 10000 400).isSome = true := by decide +kernel

end Sample

open Sample in
/-- A bid with more FURY and more fees than are asked for covers its refund. -/
theorem covered_generous :
    Covered deployment ((calledOff 10400 500).get calledOff_generous).1 :=
  (covered_iff deployment world deployed (by decide +kernel) (by decide +kernel)
    (loneBid 10400 500) Fanfuryswap.Sample.block ⟨"admin", []⟩ _ _ (by decide +kernel)
    (Option.some_get calledOff_generous).symm).mpr (by decide +kernel)

open Sample in
/-- **A bid with the fees that are asked for** does not cover its refund. -/
theorem not_covered :
    ¬ ∀ (d : Deployment) (w₀ : World), Deployed d w₀ →
      w₀.gaming.config.usdcIbcSymbol = w₀.chain.pool.config.usdcDenom → usdcHeld d w₀ = 0 →
      ∀ (ls : List Label) (block : BlockInfo) (info : MessageInfo) (w' : World)
        (r : Response Payload), BidsOnly d w₀ (ls ++ [.gaming block info .cancelGame]) →
        step d (run (step d) w₀ ls) (.gaming block info .cancelGame) = some (w', r) →
          Covered d w' := by
  intro h
  have hcovered := h deployment world deployed (by decide +kernel) (by decide +kernel)
    (loneBid 10000 400) Fanfuryswap.Sample.block ⟨"admin", []⟩ _ _ (by decide +kernel)
    (Option.some_get calledOff_fair).symm
  exact absurd hcovered (by decide +kernel)

end Gamingpool
