import LiquidityContracts.Swap.Solvency

/-!
# What the reserve of USDC may lack

Only the fees of the swaps of FURY are ever paid out of a reserve, as far as they were not attached.
So what the pool lacks of its reserve of USDC, in any run, is bounded by these fees, and the reserve
of FURY is always there.

## Main definitions

* `unattached`: the part of the fee of an accepted swap of FURY that was not attached

## Main results

* `Effect.reserves_le_unattached`: an effect raises a reserve by no more than what comes in and what
  is not attached
* `run_shortfall_le`: what the pool lacks in any run
-/

namespace Fanfuryswap

open CosmWasm Cw20 Util

/-- What a call pays as the fee of a swap of FURY beyond what is attached to it. -/
def unattachedFee (usdcDenom : String) (info : MessageInfo) : ExecuteMsg → ℕ
  | .swap .token2 _ _ fee _ => fee - amountOf usdcDenom info.funds
  | _ => 0

/-- The part of the fee of an accepted swap of FURY that was not attached. -/
def unattached (d : Deployment) (w : World) (l : Label) : ℕ :=
  match l with
  | .pool _ info msg =>
    if (exec d w l).isSome then unattachedFee w.pool.config.usdcDenom info msg else 0
  | _ => 0

section Reserves

variable {d : Deployment} {supply : ℕ} {info : MessageInfo} {st st' : Storage} {msg : ExecuteMsg}
  {msgs : List (CosmosMsg Payload)}

/-- **An effect raises the reserve of USDC** by no more than what comes in, and what is not attached
of the fee of a swap of FURY. -/
theorem Effect.reserves_le_unattached (h : Effect d supply info st msg st' msgs) :
    st'.token1.reserve + coinsOut st.config.usdcDenom msgs ≤
        st.token1.reserve + amountOf st.config.usdcDenom info.funds +
          unattachedFee st.config.usdcDenom info msg ∧
      st'.token2.reserve + furyOut msgs ≤ st.token2.reserve + furyIn msgs := by
  by_cases hsell : ∃ a minOutput fee expiration, msg = .swap .token2 a minOutput fee expiration
  · obtain ⟨a, minOutput, fee, expiration, rfl⟩ := hsell
    cases h with
    | sellFury _ _ _ bought _ h₁ h₂ hbought =>
      have hlt : bought < st.token1.reserve := by
        rw [hbought]
        exact Accounting.quote_lt (by decide) h₂ h₁
      simp [coinsOut, furyOut, furyIn, Storage.setReserve, sendCoins, getCw20TransferFromMsg,
        unattachedFee]
      omega
  -- no other message pays what has not come in
  · obtain ⟨h₁, h₂, -⟩ := h.reserves_le fun a minOutput fee expiration heq =>
      absurd ⟨a, minOutput, fee, expiration, heq⟩ hsell
    exact ⟨h₁.trans (Nat.le_add_right _ _), h₂⟩

end Reserves

section Runs

variable {d : Deployment} {w w' : World} {l : Label} {r : Response Payload}

/-- **One step** of the chain adds to what the pool lacks at most what is not attached. -/
theorem exec_shortfall (hw : Wired d w) (hfury : w.pool.token2.reserve ≤ w.furyHeld d)
    (h : exec d w l = some (w', r)) :
    w'.pool.token1.reserve + w.usdcHeld d ≤
        w.pool.token1.reserve + w'.usdcHeld d + unattached d w l ∧
      w'.pool.token2.reserve ≤ w'.furyHeld d := by
  rcases exec_cases hw h with ⟨block, info, msg, rfl, hcall⟩ | hby
  · obtain ⟨h₁, h₂⟩ := hcall.effect.reserves_le_unattached
    have husdc := hcall.effect.usdcDenom
    have hcoins := hcall.coins w.pool.config.usdcDenom
    have hmoved := hcall.fury
    have haccepted : unattached d w (.pool block info msg) =
        unattachedFee w.pool.config.usdcDenom info msg := by
      rw [unattached, h]
      rfl
    rw [haccepted, World.usdcHeld, World.usdcHeld, husdc]
    omega
  · have hcoins := hby.coins w.pool.config.usdcDenom
    have hheld := hby.fury
    rw [World.usdcHeld, World.usdcHeld, hby.pool]
    omega

/-- **What the pool lacks** of its reserve of USDC, in any run from its instantiation on, is no more
than what was not attached of the fees of the swaps of FURY; of FURY it lacks nothing. -/
theorem run_shortfall_le (h : Initial d w) (ls : List Label) :
    (run (exec d) w ls).pool.token1.reserve ≤
        (run (exec d) w ls).usdcHeld d + tally (exec d) (unattached d) w ls ∧
      (run (exec d) w ls).pool.token2.reserve ≤ (run (exec d) w ls).furyHeld d := by
  obtain ⟨hwired, h₁, h₂, -⟩ := h.wired
  have hstep : ∀ (w : World) (l : Label) (w' : World) (r : Response Payload),
      Wired d w ∧ w.pool.token2.reserve ≤ w.furyHeld d → exec d w l = some (w', r) →
        (Wired d w' ∧ w'.pool.token2.reserve ≤ w'.furyHeld d) ∧
          w'.pool.token1.reserve - w'.usdcHeld d ≤
            w.pool.token1.reserve - w.usdcHeld d + unattached d w l := by
    rintro w l w' r ⟨hw, hfury⟩ hexec
    obtain ⟨hlack, hfury'⟩ := exec_shortfall hw hfury hexec
    exact ⟨⟨exec_wired hw hexec, hfury'⟩, by omega⟩
  obtain ⟨⟨-, hfury⟩, hlack⟩ := run_le_tally (I := fun w => Wired d w ∧ _) hstep
    ⟨hwired, h₂ ▸ Nat.zero_le _⟩ ls
  rw [h₁] at hlack
  omega

end Runs

open Sample in
/-- The trader names a fee of 300 and attaches none of it. -/
theorem run_shortfall_le_sample :
    (run (exec deployment) world [addLiquidity, sellFury 300 0]).pool.token1.reserve ≤
        (run (exec deployment) world [addLiquidity, sellFury 300 0]).usdcHeld deployment +
          tally (exec deployment) (unattached deployment) world [addLiquidity, sellFury 300 0] ∧
      (run (exec deployment) world [addLiquidity, sellFury 300 0]).pool.token2.reserve ≤
        (run (exec deployment) world [addLiquidity, sellFury 300 0]).furyHeld deployment :=
  run_shortfall_le initial [addLiquidity, sellFury 300 0]

end Fanfuryswap
