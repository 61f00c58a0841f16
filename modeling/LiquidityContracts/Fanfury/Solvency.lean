import LiquidityContracts.Fanfury.Chain
import LiquidityContracts.Gaming.Swaps
import LiquidityContracts.Swap.Redemption

/-!
# The pool is solvent among the contracts

The gaming pool is the one contract that calls the pool. All it sends there are swaps, with their
fees attached in its own coin, which is the coin of the pool. So it is for the others outside to
attach the fees of their swaps of FURY: as long as they do, the pool holds its reserves, whatever
happens in all contracts, and whoever lends its tokens to the pool can redeem them.

## Main definitions

* `Sent`: the messages of the gaming pool
* `FeeAttached`: the fee of a swap of FURY from outside is attached to it

## Main results

* `execute_sent`: the gaming pool calls the pool for swaps only, with their fees
* `history_feeAttached`: every swap of FURY on the chain has its fee attached
* `run_pool`: the pool is solvent, and its tokens can be redeemed, in every run
-/

namespace Gamingpool

open CosmWasm

/-- The messages of the gaming pool: coins, calls of FURY, and swaps that come with their fees. -/
inductive Sent (denom : String) : CosmosMsg Payload → Prop
  | pay (recipient : Addr) (coins : List Coin) : Sent denom (.bankSend recipient coins)
  | token (contract : Addr) (n : Cw20.ExecuteMsg) :
    Sent denom (.wasmExecute contract (.cw20 n) [])
  | swap (contract : Addr) (sel : Fanfuryswap.TokenSelect) (amount minOutput fee : ℕ)
      (funds : List Coin) (hfee : fee ≤ amountOf denom funds) :
    Sent denom (.wasmExecute contract (.fanfuryswap (.swap sel amount minOutput fee none)) funds)

section Messages

variable {api : Api} {q : Querier} {env : Env} {info : MessageInfo} {st st' : Storage}
  {r : Response Payload}

/-- Some coins are attached to a sale of USDC, the fee among them. -/
theorem SellsUsdc.sent {amount : ℕ} {m : CosmosMsg Payload} (h : SellsUsdc q st amount m) :
    Sent st.config.usdcIbcSymbol m := by
  obtain ⟨swapConfig, expectedFury, swapFee, -, -, -, -, rfl⟩ := h
  refine .swap _ _ _ _ _ _ ?_
  rw [amountOf_singleton, if_pos rfl]
  exact Nat.le_add_left _ _

/-- **Whatever the gaming pool emits** pays coins, calls FURY, or swaps with the fee attached. -/
theorem execute_sent {msg : ExecuteMsg} (h : execute api q env info st msg = .ok (st', r)) :
    ∀ m ∈ r.emitted, Sent st.config.usdcIbcSymbol m := by
  intro m hm
  cases msg with
  | setPlatformFeeWallets walletPercentages =>
    obtain ⟨-, -, h⟩ := bind_eq_ok.mp h
    cases pure_eq_ok.mp h
    cases hm
  | setPoolTypeParams poolType fee min max maxGamer rake =>
    obtain ⟨-, -, h⟩ := bind_eq_ok.mp h
    obtain ⟨-, h⟩ := refuseGeneric_bind_eq_ok.mp h
    cases pure_eq_ok.mp h
    cases hm
  | cancelGame =>
    obtain ⟨-, -, h⟩ := bind_eq_ok.mp h
    obtain ⟨game, -, h⟩ := bind_eq_ok.mp h
    obtain ⟨-, h⟩ := refuseGeneric_bind_eq_ok.mp h
    obtain ⟨-, h⟩ := refuseGeneric_bind_eq_ok.mp h
    obtain ⟨pools, -, h⟩ := bind_eq_ok.mp h
    cases pure_eq_ok.mp h
    cases hm
  | lockGame =>
    obtain ⟨-, -, h⟩ := bind_eq_ok.mp h
    obtain ⟨game, -, h⟩ := bind_eq_ok.mp h
    obtain ⟨-, h⟩ := refuseGeneric_bind_eq_ok.mp h
    obtain ⟨pools, -, h⟩ := bind_eq_ok.mp h
    cases pure_eq_ok.mp h
    cases hm
  | createPool poolType =>
    obtain ⟨-, -, h⟩ := bind_eq_ok.mp h
    obtain ⟨game, -, h⟩ := bind_eq_ok.mp h
    obtain ⟨-, h⟩ := refuseGeneric_bind_eq_ok.mp h
    obtain ⟨address, -, h⟩ := bind_eq_ok.mp h
    obtain ⟨count, -, h⟩ := bind_eq_ok.mp h
    cases pure_eq_ok.mp h
    cases hm
  | claimReward gamer =>
    have hsub : r.submessages = [] := by
      obtain ⟨gamerAddr, -, h⟩ := bind_eq_ok.mp h
      obtain ⟨-, h⟩ := refuse_bind_eq_ok.mp h
      obtain ⟨x, -, h⟩ := bind_eq_ok.mp h
      obtain ⟨-, h⟩ := refuseGeneric_bind_eq_ok.mp h
      obtain ⟨-, -, h⟩ := bind_eq_ok.mp h
      cases pure_eq_ok.mp h
      rfl
    rw [Response.emitted, (claimReward_spec h).2, hsub] at hm
    simp only [List.map_nil, List.append_nil, List.mem_cons, List.not_mem_nil, or_false] at hm
    rcases hm with rfl | rfl
    · exact .pay _ _
    · exact .token _ _
  | claimRefund gamer =>
    obtain ⟨-, hmessages, hsub⟩ := claimRefund_spec h
    obtain ⟨sold, fees, hsold, -, hmessages⟩ := refundMessages_spec hmessages
    rw [Response.emitted, hmessages, hsub] at hm
    simp only [List.map_nil, List.append_nil, List.mem_cons, List.not_mem_nil, or_false] at hm
    rcases hm with rfl | rfl
    · exact hsold.sent
    · exact .pay _ _
  | gamePoolRewardDistribute poolId gameWinners isFinalBatch ustForRake gameId =>
    obtain ⟨-, -, details, -, -, -, -, -, -, -, -, hresponse⟩ := gamePoolRewardDistribute_parts h
    -- the rake is paid in coins
    obtain ⟨-, rfl⟩ := Prod.ext_iff.mp (Except.ok.inj (h.symm.trans (hresponse ustForRake)))
    dsimp only at hm
    split_ifs at hm
    · rw [Response.emitted, transferToMultipleWallets, List.map_nil, List.append_nil] at hm
      obtain ⟨wallet, -, rfl⟩ := List.mem_map.mp hm
      exact .pay _ _
    · cases hm
  | gamePoolBidSubmitCommand gamer poolType poolId teamId amount =>
    obtain ⟨hmessages, hsub⟩ := gamePoolBidSubmit_messages h
    obtain ⟨swapConfig, expectedUsdc, fee, -, -, -, hmessages⟩ := bidMessages_spec hmessages
    rw [Response.emitted, hmessages, hsub] at hm
    simp only [List.map_nil, List.append_nil, List.mem_cons, List.not_mem_nil, or_false] at hm
    rcases hm with rfl | rfl | rfl
    · exact .token _ _
    · exact .token _ _
    · refine .swap _ _ _ _ _ _ ?_
      rw [amountOf_singleton, if_pos rfl]
  | sweep funds =>
    obtain ⟨-, -, h⟩ := bind_eq_ok.mp h
    cases pure_eq_ok.mp h
    rcases List.mem_singleton.mp hm with rfl
    exact .pay _ _
  | swap amount poolId =>
    obtain ⟨id, sold, hsold, hmessages, hsub⟩ := swap_messages h
    rw [Response.emitted, hmessages, hsub] at hm
    rcases List.mem_singleton.mp hm with rfl
    exact hsold.sent

end Messages

end Gamingpool

namespace Fanfury

open CosmWasm

/-- The fee of a swap of FURY from outside is among the coins attached to it. -/
def FeeAttached (w : World) : Label → Prop
  | .chain l => Fanfuryswap.FeeAttached w.chain l
  | _ => True

instance (w : World) : DecidablePred (FeeAttached w)
  | .chain _ => inferInstanceAs (Decidable (Fanfuryswap.FeeAttached _ _))
  | .gaming _ _ _ => isTrue trivial
  | .bonding _ _ _ => isTrue trivial
  | .staking _ _ _ => isTrue trivial

section Runs

variable {d : Deployment} {w : World}

/-- The configuration of the gaming pool, its pool and the coin of the pool stay as they are. -/
theorem run_coin (h : Deployed d w) (ls : List Label) :
    (run (step d) w ls).gaming.config = w.gaming.config ∧
      (run (step d) w ls).chain.pool.config.usdcDenom = w.chain.pool.config.usdcDenom := by
  have hconfig := Gamingpool.run_config h.gaming
    (trace (step d) (fun w l => (events d w l).gaming) w ls)
  have hdenom := Gamingpool.run_usdcDenom h.gaming
    (trace (step d) (fun w l => (events d w l).gaming) w ls)
  rw [run_gaming] at hconfig hdenom
  exact ⟨hconfig, hdenom⟩

/-- A contract that does not call the pool has no fees to attach. -/
theorem asLabel_feeAttached {block : BlockInfo} {contract : Addr} {m : CosmosMsg Cw20.ExecuteMsg}
    {l : Fanfuryswap.Label} (h : asLabel d block contract m = some l) (x : Fanfuryswap.World) :
    Fanfuryswap.FeeAttached x l := by
  unfold asLabel at h
  split at h
  · cases h
    trivial
  · split_ifs at h
    cases h
    trivial
  · cases h

/-- The gaming pool attaches the fees of its swaps, in the coin of the pool. -/
theorem sent_feeAttached {block : BlockInfo} {denom : String} {m : CosmosMsg Gamingpool.Payload}
    {l : Fanfuryswap.Label} {x : Fanfuryswap.World} (hm : Gamingpool.Sent denom m)
    (hdenom : denom = x.pool.config.usdcDenom)
    (h : Gamingpool.asLabel d.toDeployment block m = some l) : Fanfuryswap.FeeAttached x l := by
  cases hm with
  | pay recipient coins =>
    cases h
    trivial
  | token contract n =>
    simp only [Gamingpool.asLabel] at h
    split_ifs at h
    cases h
    trivial
  | swap contract sel amount minOutput fee funds hfee =>
    simp only [Gamingpool.asLabel] at h
    split_ifs at h
    cases h
    cases sel with
    | token1 => trivial
    | token2 =>
      show fee ≤ amountOf x.pool.config.usdcDenom funds
      rw [← hdenom]
      exact hfee

/-- **In one step** it is for whoever swaps FURY from outside to attach the fee. -/
theorem Step.feeAttached {x : World} {l : Label} {w' : World} {e : Events}
    (h : Step d x l w' e) (hchain : Fanfuryswap.Wired d.swap x.chain)
    (hcoin : x.gaming.config.usdcIbcSymbol = x.chain.pool.config.usdcDenom)
    (hfee : FeeAttached x l) {y : Fanfuryswap.World × Fanfuryswap.Label}
    (hy : y ∈ history (Fanfuryswap.exec d.swap) x.chain e.chain) :
    Fanfuryswap.FeeAttached y.1 y.2 := by
  -- the pool trades one coin all along
  have hdenom : y.1.pool.config.usdcDenom = x.chain.pool.config.usdcDenom :=
    (history_invariant (P := fun _ _ => True)
      (I := fun c => Fanfuryswap.Wired d.swap c ∧
        c.pool.config.usdcDenom = x.chain.pool.config.usdcDenom)
      (fun c l c' r hc _ hexec => ⟨Fanfuryswap.exec_wired hc.1 hexec,
        (Fanfuryswap.exec_usdcDenom hc.1 hexec).trans hc.2⟩) ⟨hchain, rfl⟩
      (fun _ _ => trivial) y hy).2
  have hlabel := label_mem hy
  cases h with
  | chain l chain r bonding hsender hexec hbonds =>
    rcases List.mem_singleton.mp hy with rfl
    exact hfee
  | gaming block info msg g r hsender hcall =>
    obtain ⟨bank, gaming, chain, -, hexec, -, -⟩ := Gamingpool.callGaming_eq_some.mp hcall
    rcases List.mem_cons.mp hlabel with hl | hl
    · rw [hl]
      trivial
    · obtain ⟨m, hm, hl⟩ := List.mem_filterMap.mp hl
      exact sent_feeAttached (Gamingpool.execute_sent hexec m hm) (hcoin.trans hdenom.symm) hl
  | bonding block info msg paid chain bonding r labels hsender hpaid hexec hlabels hchain =>
    rcases List.mem_cons.mp hlabel with hl | hl
    · rw [hl]
      trivial
    · obtain ⟨m, -, hm⟩ := exists_of_mapM hlabels hl
      exact asLabel_feeAttached hm y.1
  | staking block info msg paid chain staking r labels hsender hpaid hexec hlabels hchain =>
    rcases List.mem_cons.mp hlabel with hl | hl
    · rw [hl]
      trivial
    · obtain ⟨m, -, hm⟩ := exists_of_mapM hlabels hl
      exact asLabel_feeAttached hm y.1

/-- The pool trades the coin of the gaming pool all along. -/
theorem run_traded (h : Deployed d w) (ls : List Label) :
    (run (step d) w ls).gaming.config.usdcIbcSymbol =
      (run (step d) w ls).chain.pool.config.usdcDenom := by
  obtain ⟨hconfig, hdenom⟩ := run_coin h ls
  rw [hconfig, hdenom]
  exact h.coin

/-- **Every fee is attached** on the chain when those from outside are. -/
theorem history_feeAttached (h : Deployed d w) {ls : List Label}
    (hfee : ∀ x ∈ history (step d) w ls, (step d x.1 x.2).isSome → FeeAttached x.1 x.2)
    {y : Fanfuryswap.World × Fanfuryswap.Label}
    (hy : y ∈ history (Fanfuryswap.exec d.swap) w.chain
      (trace (step d) (fun w l => (events d w l).chain) w ls)) :
    Fanfuryswap.FeeAttached y.1 y.2 := by
  obtain ⟨x, hx, w', e, he, hy⟩ := history_events d w (g := World.chain)
    (f := Events.chain) rfl (fun _ _ _ _ h => h.accepts_chain) hy
  obtain ⟨before, after, -, hrun⟩ := mem_history hx
  have hwired := run_chain_wired h before
  have hcoin := run_traded h before
  rw [← hrun] at hwired hcoin
  exact (step_cases he).feeAttached hwired hcoin (hfee x hx (Option.isSome_of_eq_some he)) hy

/-- A withdrawal has no bonds recorded. -/
theorem bonds_removeLiquidity {block : BlockInfo} {info : MessageInfo} {a min1 min2 : ℕ}
    {expiration : Option Cw20.Expiration} {x chain : Fanfuryswap.World}
    {r : Response Fanfuryswap.Payload}
    (h : Fanfuryswap.exec d.swap x
      (.pool block info (.removeLiquidity a min1 min2 expiration)) = some (chain, r)) :
    bonds d chain (.pool block info (.removeLiquidity a min1 min2 expiration)) r = [] := by
  have hcaller := Fanfuryswap.sender_ne_pool h
  unfold Fanfuryswap.exec at h
  rw [if_neg hcaller] at h
  obtain ⟨bank, pool, -, hexec, -⟩ := Fanfuryswap.callPool_eq_some.mp h
  obtain ⟨lp, supply, -, -, -, -, -, -, hr⟩ := Fanfuryswap.executeRemoveLiquidity_spec hexec
  -- both shares are paid, and the tokens are burned
  have hpay : ∀ denom n, asBond d block chain (Fanfuryswap.payMessage denom info.sender n) = none := by
    intro denom n
    cases denom with
    | native denom => rfl
    | cw20 addr => rfl
  rw [bonds, hr, List.filterMap_cons_none (hpay _ _), List.filterMap_cons_none (hpay _ _)]
  rfl

/-- So nothing else has to go well than the withdrawal itself. -/
theorem step_redeem {block : BlockInfo} {info : MessageInfo} {a min1 min2 : ℕ}
    {expiration : Option Cw20.Expiration} (hw : Fanfuryswap.Wired d.swap w.chain)
    (hs : Fanfuryswap.Solvent d.swap w.chain) (hsound : Fanfuryswap.Sound w.chain) :
    (step d w (.chain (.pool block info (.removeLiquidity a min1 min2 expiration)))).isSome ↔
      info.sender ∉ d.contracts ∧
        Fanfuryswap.Redeemable d.swap w.chain block info a min1 min2 expiration := by
  rw [← Fanfuryswap.exec_redeem hw hs hsound]
  constructor
  · intro h
    obtain ⟨⟨w', e⟩, h⟩ := Option.isSome_iff_exists.mp h
    have hstep := step_cases h
    cases hstep with
    | chain _ chain r bonding hsender hexec hbonds =>
      exact ⟨hsender, Option.isSome_of_eq_some hexec⟩
  · rintro ⟨hsender, h⟩
    obtain ⟨⟨chain, r⟩, hexec⟩ := Option.isSome_iff_exists.mp h
    have hbonds := bonds_removeLiquidity hexec
    have hlabel : (Label.chain (.pool block info
        (.removeLiquidity a min1 min2 expiration))).sender ∉ d.contracts := hsender
    unfold step
    rw [if_neg hlabel]
    simp only [hexec, hbonds, Option.bind_eq_bind, Option.bind_some, acceptAll_nil,
      Option.pure_def, Option.isSome_some]

/-- **The pool is solvent, and its tokens can be redeemed**, in every run of the chain in which the
fees of the swaps of FURY from outside are attached. -/
theorem run_pool (h : Deployed d w) (ls : List Label)
    (hfee : ∀ x ∈ history (step d) w ls, (step d x.1 x.2).isSome → FeeAttached x.1 x.2) :
    Fanfuryswap.Solvent d.swap (run (step d) w ls).chain ∧
      ∀ block info a min1 min2 expiration,
        (step d (run (step d) w ls)
            (.chain (.pool block info (.removeLiquidity a min1 min2 expiration)))).isSome ↔
          info.sender ∉ d.contracts ∧
            Fanfuryswap.Redeemable d.swap (run (step d) w ls).chain block info a min1 min2
              expiration := by
  have hwired := run_chain_wired h ls
  have hsolvent := Fanfuryswap.run_solvent d.swap w.chain _ h.gaming.chain
    fun y hy _ => history_feeAttached h hfee hy
  have hsound : Fanfuryswap.Sound (run (Fanfuryswap.exec d.swap) w.chain
      (trace (step d) (fun w l => (events d w l).chain) w ls)) :=
    Fanfuryswap.run_sound h.gaming.chain h.conserved _
  rw [run_chain] at hsolvent hsound
  exact ⟨hsolvent, fun _ _ _ _ _ _ => step_redeem hwired hsolvent hsound⟩

end Runs

namespace Sample

/-- The owner provides liquidity and lends half of its shares to the pool, and a trader sells FURY
with the fee attached. -/
def trades : List Label :=
  [.chain Fanfuryswap.Sample.addLiquidity, .chain Fanfuryswap.Sample.lendShares,
    .chain (Fanfuryswap.Sample.sellFury 300 300)]

end Sample

open Sample in
/-- The owner redeems a part of the shares that it has lent. -/
theorem run_pool_sample :
    Fanfuryswap.Solvent deployment.swap (run (step deployment) world trades).chain ∧
      Fanfuryswap.Redeemable deployment.swap (run (step deployment) world trades).chain
        Fanfuryswap.Sample.block ⟨"owner", []⟩ 400000 300000 300000 none := by
  obtain ⟨hsolvent, hredeem⟩ := run_pool deployed trades (by decide +kernel)
  exact ⟨hsolvent, ((hredeem _ _ _ _ _ _).mp (by decide +kernel)).2⟩

end Fanfury
