import LiquidityContracts.Swap.Effect

/-!
# The pool holds its reserves

What the pool holds of its two tokens should cover the reserves it records. Every effect of a call
keeps that, but for one: the fee of a swap of FURY is charged in USDC and is looked for among the
attached FURY, so it is paid to the treasury whether it was attached or not. Over runs in which
the fee of every such swap is attached, the pool is solvent in every state.

## Main definitions

* `Solvent`: the holdings of the pool cover its reserves
* `FeeAttached`: the fee of a swap of FURY is attached to it

## Main results

* `Effect.reserves_le`: an effect raises no reserve by more than what comes in for it
* `run_solvent`: a pool is solvent as long as the fees of the swaps of FURY are attached
* `not_always_solvent`: a fee that is not attached is paid out of the reserve
-/

namespace Fanfuryswap

open CosmWasm Cw20 Util

/-- The holdings of the pool cover its reserves. -/
def Solvent (d : Deployment) (w : World) : Prop :=
  w.pool.token1.reserve ≤ w.usdcHeld d ∧ w.pool.token2.reserve ≤ w.furyHeld d

instance (d : Deployment) (w : World) : Decidable (Solvent d w) :=
  inferInstanceAs (Decidable (_ ∧ _))

/-- The fee of a swap of FURY is among the coins attached to it. -/
def FeeAttached (w : World) : Label → Prop
  | .pool _ info (.swap .token2 _ _ fee _) => fee ≤ amountOf w.pool.config.usdcDenom info.funds
  | _ => True

instance (w : World) : DecidablePred (FeeAttached w)
  | .pool _ _ (.swap .token2 _ _ _ _) => inferInstanceAs (Decidable (_ ≤ _))
  | .pool _ _ (.swap .token1 _ _ _ _) => isTrue trivial
  | .pool _ _ (.updateConfig _ _ _) => isTrue trivial
  | .pool _ _ (.addLiquidity _ _ _ _ _) => isTrue trivial
  | .pool _ _ (.addToken _ _) => isTrue trivial
  | .pool _ _ (.removeLiquidity _ _ _ _) => isTrue trivial
  | .fury _ _ _ => isTrue trivial
  | .lp _ _ _ => isTrue trivial
  | .bank _ _ _ => isTrue trivial

section Reserves

variable {d : Deployment} {supply : ℕ} {info : MessageInfo} {block : BlockInfo}
  {st st' : Storage} {msg : ExecuteMsg} {msgs : List (CosmosMsg Payload)}

/-- **No effect raises a reserve by more than what comes in for it**, once the fee of a swap of
FURY is attached. -/
theorem Effect.reserves_le (h : Effect d supply info st msg st' msgs)
    (hfee : ∀ a minOutput fee expiration, msg = .swap .token2 a minOutput fee expiration →
      fee ≤ amountOf st.config.usdcDenom info.funds) :
    st'.token1.reserve + coinsOut st.config.usdcDenom msgs ≤
        st.token1.reserve + amountOf st.config.usdcDenom info.funds ∧
      st'.token2.reserve + furyOut msgs ≤ st.token2.reserve + furyIn msgs ∧
      st'.config.usdcDenom = st.config.usdcDenom := by
  cases h with
  | configure owner bonding treasury st' h₁ h₂ hlp husdc =>
    rw [h₁, h₂]
    exact ⟨Nat.add_le_add_left (Nat.zero_le _) _, le_rfl, husdc⟩
  | addLiquidity t minLiquidity maxToken2 fee token2Amount shares expiration bonds hfunds hshares
      hbonds =>
    obtain ⟨hcoins, hout, hin, -, -⟩ := flows_of_bonds st.config.usdcDenom hbonds
    rw [coinsOut_append, furyOut_append, furyIn_append, hcoins, hout, hin, hfunds]
    simp [coinsOut, furyOut, furyIn, Storage.setReserve, sendCoins, getCw20TransferFromMsg,
      mintLpTokens]
    omega
  | removeLiquidity a min1 min2 expiration hsupply h₁ h₂ =>
    simp [coinsOut, furyOut, furyIn, Storage.setReserve, sendCoins, getCw20TransferToMsg,
      getBurnMsg]
    omega
  | sellUsdc a minOutput fee bought expiration hfunds h₁ h₂ hbought =>
    have hlt : bought < st.token2.reserve := by
      rw [hbought]
      exact Accounting.quote_lt (by decide) h₁ h₂
    rw [hfunds]
    simp [coinsOut, furyOut, furyIn, Storage.setReserve, sendCoins, getCw20TransferToMsg]
    omega
  | sellFury a minOutput fee bought expiration h₁ h₂ hbought =>
    have hlt : bought < st.token1.reserve := by
      rw [hbought]
      exact Accounting.quote_lt (by decide) h₂ h₁
    -- the fee leaves with the messages, and has come in only by the condition
    have hattached := hfee a minOutput fee expiration rfl
    simp [coinsOut, furyOut, furyIn, Storage.setReserve, sendCoins, getCw20TransferFromMsg]
    omega
  | addUsdc a hfunds =>
    rw [hfunds]
    simp [coinsOut, furyOut, furyIn, Storage.setReserve]
  | addFury a =>
    simp [coinsOut, furyOut, furyIn, Storage.setReserve, getCw20TransferFromMsg]

end Reserves

section Runs

variable {d : Deployment} {w w' : World} {l : Label} {r : Response Payload}

/-- **One step** of the chain keeps the pool solvent when the fee is attached. -/
theorem exec_solvent (hw : Wired d w) (hs : Solvent d w) (hfee : FeeAttached w l)
    (h : exec d w l = some (w', r)) : Solvent d w' := by
  obtain ⟨hs₁, hs₂⟩ := hs
  rcases exec_cases hw h with ⟨block, info, msg, rfl, hcall⟩ | hby
  · obtain ⟨h₁, h₂, husdc⟩ := hcall.effect.reserves_le (by
      rintro a minOutput fee expiration rfl
      exact hfee)
    have hcoins := hcall.coins w.pool.config.usdcDenom
    have hfury := hcall.fury
    simp only [World.usdcHeld] at hs₁
    refine ⟨?_, by omega⟩
    rw [World.usdcHeld, husdc]
    omega
  · rw [Solvent, hby.pool, World.usdcHeld, hby.pool]
    exact ⟨hs₁.trans (hby.coins _), hs₂.trans hby.fury⟩

/-- **The pool is solvent** in every run, from its instantiation on, in which the fee of every
accepted swap of FURY is attached. -/
theorem run_solvent (d : Deployment) (w : World) (ls : List Label) (hinit : Initial d w)
    (hfee : ∀ x ∈ history (exec d) w ls, (exec d x.1 x.2).isSome → FeeAttached x.1 x.2) :
    Solvent d (run (exec d) w ls) := by
  obtain ⟨hwired, h₁, h₂, -⟩ := hinit.wired
  refine (run_invariant (I := fun w => Wired d w ∧ Solvent d w)
    (P := fun w l => (exec d w l).isSome → FeeAttached w l) ?_ ⟨hwired, ?_⟩ hfee).2
  · rintro w l w' r ⟨hw, hs⟩ hfee h
    exact ⟨exec_wired hw h, exec_solvent hw hs (hfee (by rw [h]; rfl)) h⟩
  · rw [Solvent, h₁, h₂]
    exact ⟨Nat.zero_le _, Nat.zero_le _⟩

end Runs

open Sample in
/-- The trader attaches the fee. -/
theorem run_solvent_sample :
    Solvent deployment (run (exec deployment) world [addLiquidity, sellFury 300 300]) :=
  run_solvent deployment world [addLiquidity, sellFury 300 300] initial (by decide +kernel)

open Sample in
/-- **The reserve pays a fee that is not attached**: the pool records 909339 of USDC and holds
909039. -/
theorem not_always_solvent :
    ¬ ∀ (d : Deployment) (w : World) (ls : List Label), Initial d w →
      Solvent d (run (exec d) w ls) := by
  intro h
  have hsolvent := h deployment world [addLiquidity, sellFury 300 0] initial
  exact absurd hsolvent (by decide +kernel)

end Fanfuryswap
