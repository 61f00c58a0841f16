import LiquidityContracts.Gaming.Chain

/-!
# Where a refund goes

A claim of refunds swaps what is due for FURY at the pool, and sends the fees of the bids back.
The pool credits whoever calls it, which is the gaming pool: the FURY of every refund stays in the
contract, and the gamer gets the fees only.

## Main definitions

* `refundTotal`: what a claim of refunds is about
* `RefundReaches`: the gamer gets the FURY and the fees, and the contract keeps its FURY

## Main results

* `callGaming_claimRefund`: a claim of refunds credits the contract with what is bought
* `not_refundReaches`: no refund reaches the gamer
-/

namespace Gamingpool

open CosmWasm Accounting

/-- What is due to a gamer from the pools to be refunded. -/
def refundTotal (st : Storage) (gamer : String) : ℕ :=
  (st.poolDetails.keys.map (refundsDue st gamer)).sum

/-- The gamer of a claim of refunds gets what the pool pays for the refund and the fees, whatever
is attached to the claim aside, and the contract keeps its FURY. -/
structure RefundReaches (d : Deployment) (info : MessageInfo) (gamer : String) (w w' : World) :
    Prop where
  fury : ∃ bought, (Fanfuryswap.getInputPrice (refundTotal w.gaming gamer)
      w.chain.pool.token1.reserve w.chain.pool.token2.reserve :
        Exec Fanfuryswap.ContractError ℕ) = .ok bought ∧
    w'.chain.fury.balance gamer = w.chain.fury.balance gamer + bought
  usdc : ∃ fees, queryPlatformFees (refundTotal w.gaming gamer) w.gaming.config.platformFee
      w.gaming.config.transactionFee = .ok fees ∧
    w'.chain.bank.balance gamer w.gaming.config.usdcIbcSymbol +
        amountOf w.gaming.config.usdcIbcSymbol info.funds =
      w.chain.bank.balance gamer w.gaming.config.usdcIbcSymbol +
        (fees.transactionFee + fees.platformFee)
  kept : w'.chain.fury.balance d.gaming = w.chain.fury.balance d.gaming

section Claims

variable {d : Deployment} {block : BlockInfo} {info : MessageInfo} {w w' : World}
  {chain chain' : Fanfuryswap.World} {r : Response Payload}

/-- A message that sends coins moves no FURY. -/
theorem applyMessage_bankSend {recipient : Addr} {coins : List Coin}
    (h : applyMessage d block chain (.bankSend recipient coins) = some chain') :
    chain'.fury = chain.fury := by
  obtain ⟨l, r, hl, hexec⟩ := applyMessage_eq_some.mp h
  cases hl
  unfold Fanfuryswap.exec at hexec
  split at hexec
  · cases hexec
  · simp only [Option.pure_def, Option.bind_eq_bind, Option.bind_eq_some_iff] at hexec
    obtain ⟨bank, -, hexec⟩ := hexec
    cases hexec
    rfl

/-- **A swap of USDC** by the gaming pool moves what it buys to the gaming pool. -/
theorem applyMessage_sellUsdc {a minOutput fee : ℕ} {expiration : Option Cw20.Expiration}
    {funds : List Coin} (hw : Fanfuryswap.Wired d.swap chain)
    (h : applyMessage d block chain (.wasmExecute d.swap.pool
      (.fanfuryswap (.swap .token1 a minOutput fee expiration)) funds) = some chain') :
    ∃ bought, 0 < bought ∧
      bought = quote 997 1000 a chain.pool.token1.reserve chain.pool.token2.reserve ∧
      ∀ x, chain'.fury.balance x + (if x = d.swap.pool then bought else 0) =
        chain.fury.balance x + (if x = d.gaming then bought else 0) := by
  obtain ⟨l, r, hl, hexec⟩ := applyMessage_eq_some.mp h
  rw [asLabel, if_pos rfl] at hl
  cases hl
  exact Fanfuryswap.exec_sellUsdc hw hexec

/-- **A claim of refunds** credits the contract with what is bought, and nobody else. -/
theorem callGaming_claimRefund {gamer : String} (hw : Wired d w)
    (h : callGaming d block w info (.claimRefund gamer) = some (w', r)) :
    ∃ bought, 0 < bought ∧
      bought = quote 997 1000 (refundTotal w.gaming gamer) w.chain.pool.token1.reserve
        w.chain.pool.token2.reserve ∧
      ∀ x, w'.chain.fury.balance x + (if x = d.swap.pool then bought else 0) =
        w.chain.fury.balance x + (if x = d.gaming then bought else 0) := by
  obtain ⟨bank, gaming, chain, -, hexec, hmsgs, hsub⟩ := callGaming_eq_some.mp h
  obtain ⟨-, hmessages, hnone⟩ := claimRefund_spec hexec
  obtain ⟨m, fees, ⟨swapConfig, expectedFury, swapFee, -, -, -, -, rfl⟩, -, hmessages⟩ :=
    refundMessages_spec hmessages
  -- there is no reply to wait for, and two messages: the swap, then the fees
  rw [hnone] at hsub
  cases hsub
  rw [hmessages, hw.pool] at hmsgs
  simp only [applyMessages, List.foldlM_cons, List.foldlM_nil, Option.pure_def,
    Option.bind_eq_bind, Option.bind_eq_some_iff] at hmsgs
  obtain ⟨swapped, hswap, paid, hpaid, hmsgs⟩ := hmsgs
  cases hmsgs
  have hwired : Fanfuryswap.Wired d.swap { w.chain with bank } :=
    ⟨hw.chain.pool, hw.chain.minter, hw.chain.unlent⟩
  obtain ⟨bought, hpos, hbought, hmoved⟩ := applyMessage_sellUsdc hwired hswap
  refine ⟨bought, hpos, hbought, fun x => ?_⟩
  -- sending the fees moves no FURY
  rw [applyMessage_bankSend hpaid]
  exact hmoved x

end Claims

/-- **No refund reaches the gamer.** In every run, after every claim of refunds the contract has
gained the FURY that its swap has bought. -/
theorem not_refundReaches (d : Deployment) (w₀ : World) (hd : Deployed d w₀) (ls : List Label)
    (block : BlockInfo) (info : MessageInfo) (gamer : String) (w' : World) (r : Response Payload)
    (h : step d (run (step d) w₀ ls) (.gaming block info (.claimRefund gamer)) = some (w', r)) :
    ¬ RefundReaches d info gamer (run (step d) w₀ ls) w' := by
  intro hreaches
  have hw := run_wired hd ls
  simp only [step] at h
  split at h
  · cases h
  · obtain ⟨bought, hpos, -, hmoved⟩ := callGaming_claimRefund hw h
    have hgaming := hmoved d.gaming
    rw [if_neg d.gaming_ne_pool, if_pos rfl, hreaches.kept] at hgaming
    omega

namespace Sample

/-- The gaming pool with the sample pool. -/
def deployment : Deployment where
  swap := Fanfuryswap.Sample.deployment
  gaming := "gaming"
  gaming_ne_pool := by decide

/-- The chain after both are instantiated. -/
def world : World := ⟨storage, Fanfuryswap.Sample.world⟩

theorem deployed : Deployed deployment world :=
  ⟨initial, by decide +kernel, Fanfuryswap.Sample.initial⟩

/-- A call of the gaming pool with some USDC attached. -/
def ask (sender : Addr) (usdc : ℕ) (msg : ExecuteMsg) : Label :=
  .gaming Fanfuryswap.Sample.block ⟨sender, if usdc = 0 then [] else [⟨"uusd", usdc⟩]⟩ msg

/-- The trader bids alone in a pool for two teams or more, and the game is locked. The owner sends
the contract what it needs for the refund. -/
def lockedAlone : List Label := [
  .chain Fanfuryswap.Sample.addLiquidity,
  .chain (.fury Fanfuryswap.Sample.block ⟨"trader", []⟩ (.increaseAllowance "gaming" 10000 none)),
  .chain (.bank "owner" "gaming" [⟨"uusd", 5000⟩]),
  ask "admin" 0 (.setPoolTypeParams "duel" 10000 2 10 5 []),
  ask "admin" 0 (.createPool "duel"),
  ask "trader" 400 (.gamePoolBidSubmitCommand "trader" "duel" "1" "lions" 10000),
  ask "admin" 0 .lockGame]

/-- What comes of the claim of the trader. -/
def claim : Option (World × Response Payload) :=
  step deployment (run (step deployment) world lockedAlone)
    (.gaming Fanfuryswap.Sample.block ⟨"trader", []⟩ (.claimRefund "trader"))

theorem claim_isSome : claim.isSome = true := by decide +kernel

/-- The chain after the claim of the trader. -/
def claimed : World := (claim.get claim_isSome).1

theorem claimed_eq : step deployment (run (step deployment) world lockedAlone)
    (.gaming Fanfuryswap.Sample.block ⟨"trader", []⟩ (.claimRefund "trader")) =
      some (claimed, (claim.get claim_isSome).2) := by
  have h : claim = some (claimed, (claim.get claim_isSome).2) := by
    simp only [claimed, Prod.mk.eta, Option.some_get]
  exact h

end Sample

open Sample in
/-- The claim of the trader. -/
theorem not_refundReaches_trader :
    ¬ RefundReaches deployment ⟨"trader", []⟩ "trader"
      (run (step deployment) world lockedAlone) claimed :=
  not_refundReaches deployment world deployed lockedAlone Fanfuryswap.Sample.block
    ⟨"trader", []⟩ "trader" claimed _ claimed_eq

open Sample in
/-- **The refund of the trader stays in the contract.** -/
theorem refund_stays :
    ¬ ∀ (d : Deployment) (w₀ : World), Deployed d w₀ → ∀ (ls : List Label) (block : BlockInfo)
      (info : MessageInfo) (gamer : String) (w' : World) (r : Response Payload),
      step d (run (step d) w₀ ls) (.gaming block info (.claimRefund gamer)) = some (w', r) →
        RefundReaches d info gamer (run (step d) w₀ ls) w' := by
  intro h
  have hkept := (h deployment world deployed lockedAlone Fanfuryswap.Sample.block ⟨"trader", []⟩
    "trader" claimed _ claimed_eq).kept
  exact absurd hkept (by decide +kernel)

end Gamingpool
