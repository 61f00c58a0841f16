import LiquidityContracts.Swap.Effect

/-!
# The value of a share

On its chain the pool is a pool priced by a constant product: every effect of a call is one of the
abstract steps, and so is what anyone else may do to the supply of its token. Hence the product of
what the two reserves are worth a share never falls.

## Main definitions

* `World.reserves`: the reserves of the pool and the supply of its token
* `Label.isTrade`: a step that is no call of the pool but a swap

## Main results

* `exec_step`: what happens on the chain is a step of the abstract pool
* `run_backs`, `run_traded`: the value of a share over runs, and the reserves over swaps alone
* `value_per_share`: both, from every reachable state
-/

namespace Fanfuryswap

open CosmWasm Accounting

/-- The reserves of the pool, against the supply of its token. -/
def World.reserves (w : World) : Reserves :=
  ⟨w.pool.token1.reserve, w.pool.token2.reserve, w.lp.totalSupply⟩

/-- Whether a step is a swap, or no call of the pool at all. -/
def Label.isTrade : Label → Bool
  | .pool _ _ (.swap _ _ _ _ _) => true
  | .pool _ _ _ => false
  | _ => true

section Effects

variable {d : Deployment} {supply supply' : ℕ} {info : MessageInfo} {st st' : Storage}
  {msg : ExecuteMsg} {msgs : List (CosmosMsg Payload)}

/-- **An effect of a call is a step of the abstract pool.** -/
theorem Effect.step (h : Effect d supply info st msg st' msgs)
    (hsupply : supply' + burned msgs = supply + minted msgs) :
    Reserves.Step 997 1000 ⟨st.token1.reserve, st.token2.reserve, supply⟩
      ⟨st'.token1.reserve, st'.token2.reserve, supply'⟩ := by
  cases h with
  | configure owner bonding treasury st' h₁ h₂ hlp husdc =>
    obtain rfl : supply' = supply := hsupply
    rw [h₁, h₂]
    exact .donate le_rfl le_rfl le_rfl
  | addLiquidity t minLiquidity maxToken2 fee token2Amount shares expiration bonds hfunds hshares
      hbonds =>
    obtain ⟨-, -, -, hminted, hburned⟩ := flows_of_bonds st.config.usdcDenom hbonds
    rw [minted_append, burned_append, hminted, hburned] at hsupply
    obtain rfl : supply' = supply + shares := by
      simpa [minted, burned, getCw20TransferFromMsg, sendCoins, mintLpTokens] using hsupply
    -- the first deposit founds the pool, a later one mints in proportion
    rcases hshares with ⟨rfl, rfl⟩ | ⟨hpos, hreserve, rfl, rfl⟩
    · rw [Nat.zero_add]
      exact .found _ _ _ _
    · exact .mint _ _ _ _ hpos hreserve
  | removeLiquidity a min1 min2 expiration hpos h₁ h₂ =>
    have hburn : supply' + a = supply := by
      simpa [minted, burned, getCw20TransferToMsg, sendCoins, getBurnMsg] using hsupply
    obtain rfl : supply' = supply - a := by omega
    exact .redeem _ _ _ _ (by omega)
  | sellUsdc a minOutput fee bought expiration hfunds h₁ h₂ hbought =>
    obtain rfl : supply' = supply := by
      simpa [minted, burned, getCw20TransferToMsg, sendCoins] using hsupply
    rw [hbought]
    exact .trade (.sellFirst _ _ _ _ h₁ h₂)
  | sellFury a minOutput fee bought expiration h₁ h₂ hbought =>
    obtain rfl : supply' = supply := by
      simpa [minted, burned, getCw20TransferFromMsg, sendCoins] using hsupply
    rw [hbought]
    exact .trade (.sellSecond _ _ _ _ h₁ h₂)
  | addUsdc a hfunds =>
    obtain rfl : supply' = supply := hsupply
    exact .donate (Nat.le_add_right _ _) le_rfl le_rfl
  | addFury a =>
    obtain rfl : supply' = supply := by
      simpa [minted, burned, getCw20TransferFromMsg] using hsupply
    exact .donate le_rfl (Nat.le_add_right _ _) le_rfl

/-- The effect of a swap is a trade of the abstract pool. -/
theorem Effect.trade {sel : TokenSelect} {a minOutput fee : ℕ}
    {expiration : Option Cw20.Expiration}
    (h : Effect d supply info st (.swap sel a minOutput fee expiration) st' msgs) :
    Reserves.Trade 997 1000 ⟨st.token1.reserve, st.token2.reserve, supply⟩
      ⟨st'.token1.reserve, st'.token2.reserve, supply⟩ := by
  cases h with
  | sellUsdc a minOutput fee bought expiration hfunds h₁ h₂ hbought =>
    rw [hbought]
    exact .sellFirst _ _ _ _ h₁ h₂
  | sellFury a minOutput fee bought expiration h₁ h₂ hbought =>
    rw [hbought]
    exact .sellSecond _ _ _ _ h₁ h₂

end Effects

section Runs

variable {d : Deployment} {w w' : World} {l : Label} {ls : List Label} {r : Response Payload}

/-- **One step.** What happens on the chain is a step of the abstract pool. -/
theorem exec_step (hw : Wired d w) (h : exec d w l = some (w', r)) :
    Reserves.Step 997 1000 w.reserves w'.reserves := by
  rcases exec_cases hw h with ⟨block, info, msg, -, hcall⟩ | hby
  · exact hcall.effect.step hcall.supply
  · refine .donate ?_ ?_ hby.supply <;> rw [World.reserves, World.reserves, hby.pool]

/-- A step that is no call of the pool but a swap trades on the reserves. -/
theorem exec_traded (hw : Wired d w) (hl : l.isTrade) (h : exec d w l = some (w', r)) :
    w.reserves.Traded w'.reserves := by
  rcases exec_cases hw h with ⟨block, info, msg, rfl, hcall⟩ | hby
  · cases msg with
    | swap sel a minOutput fee expiration => exact (hcall.effect.trade.traded (by decide)).1
    | updateConfig | addLiquidity | addToken | removeLiquidity => cases hl
  · refine .inl ⟨?_, ?_⟩ <;> rw [World.reserves, World.reserves, hby.pool]

/-- Shares are only there with a first reserve. -/
theorem run_first_pos (hw : Wired d w) (hfirst : 0 < w.reserves.shares → 0 < w.reserves.first) :
    0 < (run (exec d) w ls).reserves.shares → 0 < (run (exec d) w ls).reserves.first := by
  have hstep : ∀ w l w' r, (Wired d w ∧ (0 < w.reserves.shares → 0 < w.reserves.first)) → True →
      exec d w l = some (w', r) →
      Wired d w' ∧ (0 < w'.reserves.shares → 0 < w'.reserves.first) := by
    rintro w l w' r ⟨hw, hfirst⟩ - h
    exact ⟨exec_wired hw h, (exec_step hw h).first_pos (by decide) hfirst⟩
  exact (run_invariant hstep ⟨hw, hfirst⟩ fun _ _ => trivial).2

/-- **The value of a share does not fall** over a run whose states have shares. -/
theorem run_backs (hw : Wired d w) (hshares : ∀ x ∈ history (exec d) w ls, 0 < x.1.reserves.shares) :
    w.reserves.Backs (run (exec d) w ls).reserves := by
  induction ls generalizing w with
  | nil => exact .refl _
  | cons l ls ih =>
    have hpos : 0 < w.reserves.shares := hshares (w, l) (by simp)
    rw [history_cons] at hshares
    have hrest := fun x hx => hshares x (List.mem_cons_of_mem _ hx)
    rcases commit_cases (exec d) w l with ⟨r, h⟩ | ⟨-, hs⟩
    · have hstep := (exec_step hw h).backs (by decide) hpos
      have hrun := ih (exec_wired hw h) hrest
      cases ls with
      | nil => exact hstep
      | cons l' ls => exact hstep.trans hrun (hrest (commit (exec d) w l, l') (by simp))
    · rw [run_cons, hs]
      rw [hs] at hrest
      exact ih hw hrest

/-- A second reserve is not drained over a run whose states have shares. -/
theorem run_second_pos (hw : Wired d w)
    (hshares : ∀ x ∈ history (exec d) w ls, 0 < x.1.reserves.shares)
    (hlast : 0 < (run (exec d) w ls).reserves.shares) (hsecond : 0 < w.reserves.second) :
    0 < (run (exec d) w ls).reserves.second := by
  induction ls generalizing w with
  | nil => exact hsecond
  | cons l ls ih =>
    rw [history_cons] at hshares
    have hrest := fun x hx => hshares x (List.mem_cons_of_mem _ hx)
    rcases commit_cases (exec d) w l with ⟨r, h⟩ | ⟨-, hs⟩
    -- the state after the first call is in the history, or it is the last one
    · have hpos : 0 < (commit (exec d) w l).reserves.shares := by
        cases ls with
        | nil => exact hlast
        | cons l' ls => exact hrest (commit (exec d) w l, l') (by simp)
      exact ih (exec_wired hw h) hrest hlast ((exec_step hw h).second_pos (by decide) hsecond hpos)
    · rw [run_cons, hs] at hlast ⊢
      rw [hs] at hrest
      exact ih hw hrest hlast hsecond

/-- **Swaps alone trade on the reserves.** -/
theorem run_traded (hw : Wired d w) (hls : ∀ l ∈ ls, l.isTrade) :
    w.reserves.Traded (run (exec d) w ls).reserves := by
  induction ls generalizing w with
  | nil => exact .inl ⟨rfl, rfl⟩
  | cons l ls ih =>
    have hrest := fun l' hl' => hls l' (List.mem_cons_of_mem _ hl')
    rcases commit_cases (exec d) w l with ⟨r, h⟩ | ⟨-, hs⟩
    · exact (exec_traded hw (hls l (by simp)) h).trans (ih (exec_wired hw h) hrest)
    · rw [run_cons, hs]
      exact ih hw hrest

end Runs

/-- The states that a pool may reach from its instantiation on. -/
def Reachable (d : Deployment) (w : World) : Prop :=
  ∃ w₀ ls, Initial d w₀ ∧ w = run (exec d) w₀ ls

theorem Reachable.wired {d : Deployment} {w : World} (h : Reachable d w) :
    Wired d w ∧ (0 < w.reserves.shares → 0 < w.reserves.first) := by
  obtain ⟨w₀, ls, hinit, rfl⟩ := h
  obtain ⟨hwired, -, -, hsupply⟩ := hinit.wired
  refine ⟨run_wired hwired ls, run_first_pos hwired fun hpos => ?_⟩
  rw [World.reserves, hsupply] at hpos
  exact absurd hpos (Nat.lt_irrefl 0)

/-- **The value of a share.** In every reachable state of the pool the first reserve is positive
when there are shares. From there on, as long as there are shares, the product of the reserves
over the square of the shares does not fall and a positive second reserve stays positive; and
swaps alone never lower one reserve without raising the other. -/
theorem value_per_share (d : Deployment) (w : World) (h : Reachable d w) (ls : List Label) :
    (0 < w.lp.totalSupply → 0 < w.pool.token1.reserve) ∧
      ((∀ x ∈ history (exec d) w ls, 0 < x.1.lp.totalSupply) →
        w.pool.token1.reserve * w.pool.token2.reserve *
            (run (exec d) w ls).lp.totalSupply ^ 2 ≤
          (run (exec d) w ls).pool.token1.reserve * (run (exec d) w ls).pool.token2.reserve *
            w.lp.totalSupply ^ 2 ∧
        (0 < (run (exec d) w ls).lp.totalSupply → 0 < w.pool.token2.reserve →
          0 < (run (exec d) w ls).pool.token2.reserve)) ∧
      ((∀ l ∈ ls, l.isTrade) →
        ¬ ((run (exec d) w ls).pool.token1.reserve < w.pool.token1.reserve ∧
            (run (exec d) w ls).pool.token2.reserve ≤ w.pool.token2.reserve) ∧
          ¬ ((run (exec d) w ls).pool.token1.reserve ≤ w.pool.token1.reserve ∧
            (run (exec d) w ls).pool.token2.reserve < w.pool.token2.reserve)) := by
  obtain ⟨hwired, hfirst⟩ := h.wired
  refine ⟨hfirst, fun hshares => ⟨run_backs hwired hshares, ?_⟩, fun hls => ?_⟩
  · exact fun hlast => run_second_pos hwired hshares hlast
  · exact (run_traded hwired hls).not_extracted

open Sample in
/-- A deposit of a million of each token, then a sale of FURY. -/
theorem value_per_share_sample :
    0 < funded.pool.token1.reserve ∧
      funded.pool.token1.reserve * funded.pool.token2.reserve *
          (run (exec deployment) funded [sellFury 300 300]).lp.totalSupply ^ 2 ≤
        (run (exec deployment) funded [sellFury 300 300]).pool.token1.reserve *
          (run (exec deployment) funded [sellFury 300 300]).pool.token2.reserve *
          funded.lp.totalSupply ^ 2 ∧
      0 < (run (exec deployment) funded [sellFury 300 300]).pool.token2.reserve ∧
      ¬ ((run (exec deployment) funded [sellFury 300 300]).pool.token1.reserve <
          funded.pool.token1.reserve ∧
        (run (exec deployment) funded [sellFury 300 300]).pool.token2.reserve ≤
          funded.pool.token2.reserve) := by
  obtain ⟨hfirst, hvalue, htrade⟩ := value_per_share deployment funded
    ⟨world, [addLiquidity], initial, rfl⟩ [sellFury 300 300]
  obtain ⟨hbacks, hsecond⟩ := hvalue (by decide +kernel)
  exact ⟨hfirst (by decide +kernel), hbacks, hsecond (by decide +kernel) (by decide +kernel),
    (htrade (by decide +kernel)).1⟩

end Fanfuryswap
