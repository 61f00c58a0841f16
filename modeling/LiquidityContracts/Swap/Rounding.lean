import LiquidityContracts.Swap.Value

/-!
# Rounding

Every amount the pool computes is rounded down, or up by one: what a swap pays out, the shares that
are minted, the deposit they are matched with, and what shares are redeemed for. Each is rounded
against whoever deals with the pool, so that nothing is gained by swapping in parts, or by adding
liquidity and removing it at once, and what others hold of either token is never diluted.

## Main definitions

* `Swaps sel a st st' n`: a swap of `a` is accepted, and pays `n` out

## Main results

* `execute_swaps`: every swap that is accepted pays out what its reserve falls by
* `swaps_split_le`: a swap in two parts pays no more, one of more no less, and none the reserve
* `liquidity_undiluted`: adding and removing liquidity dilutes neither token, and gives nothing back
-/

namespace Fanfuryswap

open CosmWasm Cw20 Util Accounting

/-! ## Swaps in parts -/

/-- A swap of `a` is accepted in `st`, and pays `n` of the other token to its sender. -/
def Swaps (sel : TokenSelect) (a : ℕ) (st st' : Storage) (n : ℕ) : Prop :=
  ∃ q env info minOutput feeAmount expiration r,
    execute q env info st (.swap sel a minOutput feeAmount expiration) = .ok (st', r) ∧
      r.messages = pullMessages (st.token sel).denom info.sender env.contractAddress a ++
        [payMessage (st.token sel.other).denom info.sender n,
          transferTokenMessage .cw20 (.native st.config.usdcDenom) feeAmount
            st.config.treasuryAddress]

section Swaps

variable {q : Querier} {env : Env} {info : MessageInfo} {st st' : Storage} {sel : TokenSelect}
  {a minOutput fee n : ℕ} {expiration : Option Expiration} {r : Response Payload}

/-- **Every swap that is accepted** pays out what its reserve falls by. -/
theorem execute_swaps
    (h : execute q env info st (.swap sel a minOutput fee expiration) = .ok (st', r)) :
    ∃ n, Swaps sel a st st' n ∧
      (st'.token sel.other).reserve + n = (st.token sel.other).reserve := by
  obtain ⟨bought, -, -, hle, hst, hmsgs⟩ := executeSwap_spec h
  refine ⟨bought, ⟨q, env, info, minOutput, fee, expiration, r, h, hmsgs⟩, ?_⟩
  rw [hst, Storage.setReserve_reserve, if_pos rfl]
  omega

theorem payMessage_inj {denom : Denom} {recipient : Addr} {m n : ℕ}
    (h : payMessage denom recipient m = payMessage denom recipient n) : m = n := by
  cases denom with
  | native denom => simpa [payMessage, getBankTransferToMsg] using h
  | cw20 addr => simpa [payMessage, getCw20TransferToMsg] using h

/-- A swap pays the quote on its reserves, and moves them by what comes in and goes out. -/
theorem Swaps.spec (h : Swaps sel a st st' n) :
    0 < (st.token sel).reserve ∧ 0 < (st.token sel.other).reserve ∧
      n = quote 997 1000 a (st.token sel).reserve (st.token sel.other).reserve ∧
      (st'.token sel).reserve = (st.token sel).reserve + a ∧
      (st'.token sel.other).reserve = (st.token sel.other).reserve - n := by
  obtain ⟨q, env, info, minOutput, fee, expiration, r, hexec, hpays⟩ := h
  obtain ⟨bought, -, hprice, -, rfl, hmsgs⟩ := executeSwap_spec hexec
  -- the messages name the amount that is priced
  rw [hmsgs] at hpays
  obtain ⟨hpay, -⟩ := List.cons.inj (List.append_cancel_left hpays)
  obtain rfl := payMessage_inj hpay
  obtain ⟨hx, hy, hquote⟩ := getInputPrice_spec hprice
  refine ⟨hx, hy, hquote, ?_, ?_⟩
  · cases sel <;> rfl
  · cases sel <;> rfl

end Swaps

/-- **Splitting a swap never helps.** Two swaps in the same direction pay together no more than one
swap of both inputs; a swap of more pays no less; and no swap pays the whole reserve. -/
theorem swaps_split_le (sel : TokenSelect) (st : Storage) :
    (∀ a b n₁ n₂ n st₁ st₂ st', Swaps sel a st st₁ n₁ → Swaps sel b st₁ st₂ n₂ →
        Swaps sel (a + b) st st' n → n₁ + n₂ ≤ n) ∧
      (∀ a b m n st₁ st₂, a ≤ b → Swaps sel a st st₁ m → Swaps sel b st st₂ n → m ≤ n) ∧
      ∀ a n st', Swaps sel a st st' n → n < (st.token sel.other).reserve := by
  refine ⟨?_, ?_, ?_⟩
  · intro a b n₁ n₂ n st₁ st₂ st' h₁ h₂ h
    obtain ⟨hx, -, hfirst, hinput, houtput⟩ := h₁.spec
    obtain ⟨-, -, hsecond, -, -⟩ := h₂.spec
    obtain ⟨-, -, hwhole, -, -⟩ := h.spec
    -- the second swap is priced with the reserves that the first one leaves
    rw [hinput, houtput, hfirst] at hsecond
    rw [hfirst, hsecond, hwhole]
    exact quote_add_le (by decide) (by decide) hx
  · intro a b m n st₁ st₂ hle h₁ h₂
    obtain ⟨hx, -, hm, -, -⟩ := h₁.spec
    obtain ⟨-, -, hn, -, -⟩ := h₂.spec
    rw [hm, hn]
    exact quote_mono (by decide) (by decide) hx hle
  · intro a n st' h
    obtain ⟨hx, hy, hn, -, -⟩ := h.spec
    rw [hn]
    exact quote_lt (by decide) hx hy

namespace Sample

/-- A pool with reserves, as far as swaps of FURY are concerned. -/
def reserved (usdc fury : ℕ) : Storage :=
  { world.pool with
    token1 := ⟨usdc, .native "uusd"⟩
    token2 := ⟨fury, .cw20 "fury"⟩ }

/-- The querier of a pool that swaps ask nothing. -/
def silent : Querier := ⟨fun _ => .ok 0, fun _ _ => .ok 0⟩

end Sample

open Sample in
/-- Two swaps of a hundred, and one of two hundred. -/
theorem swaps_split_le_sample :
    Swaps .token2 100 (reserved 1000 1000) (reserved 910 1100) 90 ∧ 90 + 75 ≤ 166 ∧ 90 ≤ 166 ∧
      90 < ((reserved 1000 1000).token .token1).reserve := by
  have hfirst : Swaps .token2 100 (reserved 1000 1000) (reserved 910 1100) 90 :=
    ⟨silent, ⟨block, "pool"⟩, ⟨"trader", []⟩, 0, 0, none, _, rfl, rfl⟩
  have hsecond : Swaps .token2 100 (reserved 910 1100) (reserved 835 1200) 75 :=
    ⟨silent, ⟨block, "pool"⟩, ⟨"trader", []⟩, 0, 0, none, _, rfl, rfl⟩
  have hwhole : Swaps .token2 200 (reserved 1000 1000) (reserved 834 1200) 166 :=
    ⟨silent, ⟨block, "pool"⟩, ⟨"trader", []⟩, 0, 0, none, _, rfl, rfl⟩
  obtain ⟨hsplit, hmono, hlt⟩ := swaps_split_le .token2 (reserved 1000 1000)
  exact ⟨hfirst, hsplit _ _ _ _ _ _ _ _ hfirst hsecond hwhole,
    hmono _ _ _ _ _ _ (by decide) hfirst hwhole, hlt _ _ _ hfirst⟩

/-! ## Liquidity -/

section Liquidity

variable {d : Deployment} {w w' : World} {info : MessageInfo} {msgs : List (CosmosMsg Payload)}
  {t minLiquidity maxToken2 fee a min1 min2 : ℕ} {expiration : Option Expiration}

/-- What an addition of liquidity does to a pool with shares. -/
structure Adds (t u m : ℕ) (msgs : List (CosmosMsg Payload)) (w w' : World) : Prop where
  pos : 0 < w.reserves.first
  shares : m = t * w.reserves.shares / w.reserves.first
  deposit : u = t * w.reserves.second / w.reserves.first + 1
  reserves : w'.reserves = ⟨w.reserves.first + t, w.reserves.second + u, w.reserves.shares + m⟩
  minted : minted msgs = m
  pulled : furyIn msgs = u

theorem Called.adds
    (h : Called d info (.addLiquidity t minLiquidity maxToken2 fee expiration) msgs w w')
    (hsupply : 0 < w.lp.totalSupply) : ∃ u m, Adds t u m msgs w w' := by
  have hmoved := h.supply
  have heffect := h.effect
  generalize hpool : w'.pool = pool at heffect
  cases heffect with
  | addLiquidity t minLiquidity maxToken2 fee token2Amount shares expiration bonds hfunds hshares
      hbonds =>
    obtain ⟨-, -, hpulled, hminted, hburned⟩ := flows_of_bonds w.pool.config.usdcDenom hbonds
    rw [minted_append, burned_append, hminted, hburned] at hmoved
    rcases hshares with ⟨hzero, -⟩ | ⟨-, hreserve, rfl, rfl⟩
    · omega
    · refine ⟨_, _, hreserve, rfl, rfl, ?_, ?_, ?_⟩
      · rw [World.reserves, hpool]
        refine congrArg (Reserves.mk _ _) ?_
        simpa [minted, burned, getCw20TransferFromMsg, sendCoins, mintLpTokens, World.reserves]
          using hmoved
      · rw [minted_append, hminted]
        simp [minted, getCw20TransferFromMsg, sendCoins, mintLpTokens, World.reserves]
      · rw [furyIn_append, hpulled]
        simp [furyIn, getCw20TransferFromMsg, sendCoins, mintLpTokens, World.reserves]

/-- What a removal of liquidity does. -/
structure Removes (denom : String) (a : ℕ) (msgs : List (CosmosMsg Payload)) (w w' : World) :
    Prop where
  reserves : w'.reserves = ⟨w.reserves.first - a * w.reserves.first / w.reserves.shares,
    w.reserves.second - a * w.reserves.second / w.reserves.shares, w.reserves.shares - a⟩
  coins : coinsOut denom msgs = a * w.reserves.first / w.reserves.shares
  fury : furyOut msgs = a * w.reserves.second / w.reserves.shares

theorem Called.removes (h : Called d info (.removeLiquidity a min1 min2 expiration) msgs w w') :
    Removes w.pool.config.usdcDenom a msgs w w' := by
  have hmoved := h.supply
  have heffect := h.effect
  generalize hpool : w'.pool = pool at heffect
  cases heffect with
  | removeLiquidity a min1 min2 expiration hpos h₁ h₂ =>
    have hburned : w'.lp.totalSupply + a = w.lp.totalSupply := by
      simpa [minted, burned, getCw20TransferToMsg, sendCoins, getBurnMsg] using hmoved
    refine ⟨?_, ?_, ?_⟩
    · rw [World.reserves, hpool]
      exact congrArg (Reserves.mk _ _) (by simp only [World.reserves]; omega)
    · simp [coinsOut, getCw20TransferToMsg, sendCoins, getBurnMsg, World.reserves]
    · simp [furyOut, getCw20TransferToMsg, sendCoins, getBurnMsg, World.reserves]

end Liquidity

/-- **Liquidity changes dilute neither token.** While there are shares, no accepted addition or
removal of liquidity lowers what a share is worth of either reserve; and removing the shares that
an addition has minted gives back no more of either token than was added. -/
theorem liquidity_undiluted (d : Deployment) (w : World) (hw : Wired d w)
    (hsupply : 0 < w.lp.totalSupply) :
    (∀ block info t minLiquidity maxToken2 fee expiration w' r,
        exec d w (.pool block info (.addLiquidity t minLiquidity maxToken2 fee expiration)) =
          some (w', r) →
        w.reserves.Undiluted w'.reserves ∧
          ∀ block' info' min1 min2 expiration' w'' r',
            exec d w' (.pool block' info'
              (.removeLiquidity (minted r.messages) min1 min2 expiration')) = some (w'', r') →
            coinsOut w'.pool.config.usdcDenom r'.messages ≤ t ∧
              furyOut r'.messages ≤ furyIn r.messages) ∧
      ∀ block info a min1 min2 expiration w' r,
        exec d w (.pool block info (.removeLiquidity a min1 min2 expiration)) = some (w', r) →
        w.reserves.Undiluted w'.reserves := by
  constructor
  · intro block info t minLiquidity maxToken2 fee expiration w' r h
    obtain ⟨u, m, hadds⟩ := (exec_called hw h).adds hsupply
    have hundiluted : w.reserves.Undiluted w'.reserves := by
      rw [hadds.reserves]
      refine .mint hadds.pos ?_ rfl ?_
      · rw [hadds.shares]
      · rw [hadds.deposit]
    refine ⟨hundiluted, fun block' info' min1 min2 expiration' w'' r' h' => ?_⟩
    have hremoves := (exec_called (exec_wired hw h) h').removes
    -- what was not diluted is what bounds the part of the new shares
    rw [hadds.reserves] at hundiluted
    rw [hremoves.coins, hremoves.fury, hadds.pulled, hadds.minted, hadds.reserves]
    exact ⟨Reserves.redeem_added_le hundiluted.1, Reserves.redeem_added_le hundiluted.2⟩
  · intro block info a min1 min2 expiration w' r h
    rw [(exec_called hw h).removes.reserves]
    exact .redeem rfl rfl rfl

namespace Sample

/-- The trader adds USDC, and the FURY that is asked for it. -/
def deposit : Label :=
  .pool block ⟨"trader", [⟨"uusd", 402⟩]⟩ (.addLiquidity 400 0 1000 2 none)

end Sample

open Sample in
/-- A deposit to the pool that its owner has funded. -/
theorem liquidity_undiluted_sample : ∃ w' r, exec deployment funded deposit = some (w', r) ∧
    funded.reserves.Undiluted w'.reserves := by
  obtain ⟨hadd, -⟩ := liquidity_undiluted deployment funded (run_wired initial.wired.1 [addLiquidity])
    (by decide +kernel)
  have haccepted : (exec deployment funded deposit).isSome = true := by decide +kernel
  obtain ⟨⟨w', r⟩, h⟩ := Option.isSome_iff_exists.mp haccepted
  exact ⟨w', r, h, (hadd _ _ _ _ _ _ _ _ _ h).1⟩

end Fanfuryswap
