import LiquidityContracts.Swap.Chain

/-!
# What a call of the pool does

On the chain the pool is connected to one native coin, to FURY and to its own token. There its
handlers come down to seven kinds of effect on the reserves, each with the coins it found attached
and the messages it emits.

## Main definitions

* `Storage.Wired`, `Wired`: the pool is connected to its tokens
* `Effect`: the effects of a call

## Main results

* `execute_effect`: every successful call has one of the effects
* `exec_cases`: what happens on the chain is such an effect or leaves the pool alone
* `exec_sellUsdc`, `exec_sellFury`: what is bought goes to the caller
* `run_wired`: the pool stays connected to its tokens
-/

namespace Fanfuryswap

open CosmWasm Cw20 Util Accounting

/-- The pool trades the native coin of its configuration for FURY against its own token. -/
structure Storage.Wired (d : Deployment) (st : Storage) : Prop where
  token1 : st.token1.denom = .native st.config.usdcDenom
  token2 : st.token2.denom = .cw20 d.fury
  lpToken : st.lpToken = some d.lp

/-- The pool is connected to its tokens: it alone mints its own, and it has lent FURY to
nobody. -/
structure Wired (d : Deployment) (w : World) : Prop where
  pool : w.pool.Wired d
  minter : ∀ m ∈ w.lp.mint, m.minter = d.pool
  unlent : w.fury.Unlent d.pool

/-- The message that sends coins to an address. -/
def sendCoins (recipient : Addr) (denom : String) (n : ℕ) : CosmosMsg Payload :=
  .bankSend recipient [⟨denom, n⟩]

/-- The effects of a call, by the supply of the pool's token: the new reserves, the shares
minted or burned and the messages. -/
inductive Effect (d : Deployment) (supply : ℕ) (info : MessageInfo) (st : Storage) :
    ExecuteMsg → Storage → List (CosmosMsg Payload) → Prop
  | configure (owner bonding treasury : Addr) (st' : Storage) (h₁ : st'.token1 = st.token1)
      (h₂ : st'.token2 = st.token2) (hlp : st'.lpToken = st.lpToken)
      (husdc : st'.config.usdcDenom = st.config.usdcDenom) :
    Effect d supply info st (.updateConfig owner bonding treasury) st' []
  | addLiquidity (t minLiquidity maxToken2 fee token2Amount shares : ℕ)
      (expiration : Option Expiration) (bonds : List (CosmosMsg Payload))
      (hfunds : amountOf st.config.usdcDenom info.funds = t + fee)
      (hshares : supply = 0 ∧ shares = t ∨
        0 < supply ∧ 0 < st.token1.reserve ∧ shares = t * supply / st.token1.reserve ∧
          token2Amount = t * st.token2.reserve / st.token1.reserve + 1)
      (hbonds : ∀ m ∈ bonds, ∃ contract b, m = .wasmExecute contract (.bonding b) []) :
    Effect d supply info st (.addLiquidity t minLiquidity maxToken2 fee expiration)
      ((st.setReserve (st.token1.reserve + t) .token1).setReserve
        (st.token2.reserve + token2Amount) .token2)
      ([getCw20TransferFromMsg info.sender d.pool d.fury token2Amount,
        sendCoins st.config.treasuryAddress st.config.usdcDenom fee,
        mintLpTokens st.config.owner shares d.lp] ++ bonds)
  | removeLiquidity (a min1 min2 : ℕ) (expiration : Option Expiration) (hsupply : 0 < supply)
      (h₁ : a * st.token1.reserve / supply ≤ st.token1.reserve)
      (h₂ : a * st.token2.reserve / supply ≤ st.token2.reserve) :
    Effect d supply info st (.removeLiquidity a min1 min2 expiration)
      ((st.setReserve (st.token1.reserve - a * st.token1.reserve / supply) .token1).setReserve
        (st.token2.reserve - a * st.token2.reserve / supply) .token2)
      [sendCoins info.sender st.config.usdcDenom (a * st.token1.reserve / supply),
        getCw20TransferToMsg info.sender d.fury (a * st.token2.reserve / supply),
        getBurnMsg d.lp info.sender a]
  | sellUsdc (a minOutput fee bought : ℕ) (expiration : Option Expiration)
      (hfunds : amountOf st.config.usdcDenom info.funds = a + fee)
      (h₁ : 0 < st.token1.reserve) (h₂ : 0 < st.token2.reserve)
      (hbought : bought = quote 997 1000 a st.token1.reserve st.token2.reserve) :
    Effect d supply info st (.swap .token1 a minOutput fee expiration)
      ((st.setReserve (st.token1.reserve + a) .token1).setReserve
        (st.token2.reserve - bought) .token2)
      [getCw20TransferToMsg info.sender d.fury bought,
        sendCoins st.config.treasuryAddress st.config.usdcDenom fee]
  | sellFury (a minOutput fee bought : ℕ) (expiration : Option Expiration)
      (h₁ : 0 < st.token1.reserve) (h₂ : 0 < st.token2.reserve)
      (hbought : bought = quote 997 1000 a st.token2.reserve st.token1.reserve) :
    Effect d supply info st (.swap .token2 a minOutput fee expiration)
      ((st.setReserve (st.token2.reserve + a) .token2).setReserve
        (st.token1.reserve - bought) .token1)
      [getCw20TransferFromMsg info.sender d.pool d.fury a,
        sendCoins info.sender st.config.usdcDenom bought,
        sendCoins st.config.treasuryAddress st.config.usdcDenom fee]
  | addUsdc (a : ℕ) (hfunds : amountOf st.config.usdcDenom info.funds = a) :
    Effect d supply info st (.addToken .token1 a)
      (st.setReserve (st.token1.reserve + a) .token1) []
  | addFury (a : ℕ) :
    Effect d supply info st (.addToken .token2 a)
      (st.setReserve (st.token2.reserve + a) .token2)
      [getCw20TransferFromMsg info.sender d.pool d.fury a]

section Effects

variable {d : Deployment} {q : Querier} {block : BlockInfo} {info : MessageInfo}
  {st st' : Storage} {supply : ℕ} {resp : Response Payload} {msg : ExecuteMsg}
  {msgs bonds : List (CosmosMsg Payload)}

/-- **Every successful call of the pool has one of the effects.** -/
theorem execute_effect (hw : st.Wired d) (hq : q.totalSupply d.lp = .ok supply)
    (h : execute q ⟨block, d.pool⟩ info st msg = .ok (st', resp)) :
    Effect d supply info st msg st' resp.messages := by
  cases msg with
  | updateConfig owner bonding treasury =>
    obtain ⟨h₁, h₂, hlp, husdc, hmsgs⟩ := executeUpdateConfig_spec h
    rw [hmsgs]
    exact .configure owner bonding treasury st' h₁ h₂ hlp husdc
  | addLiquidity t minLiquidity maxToken2 fee expiration =>
    obtain ⟨lp, s, shares, token2Amount, bonds, hlp, hs, hfunds, -, hshares, htoken2, rfl, hbonds,
      hmsgs⟩ := executeAddLiquidity_spec h
    rw [hw.lpToken] at hlp
    cases hlp
    rw [hq] at hs
    cases hs
    rw [hw.token1] at hfunds
    rw [hmsgs, hw.token1, hw.token2]
    refine .addLiquidity t minLiquidity maxToken2 fee token2Amount shares expiration bonds
      (validateInputAmount_native hfunds) ?_ fun m hm => ⟨_, hbonds m hm⟩
    -- the first deposit sets the price, the others follow it
    rcases getLpTokenAmountToMint_spec hshares with hzero | ⟨hpos, hreserve, hshares⟩
    · exact .inl hzero
    · rcases getToken2AmountRequired_spec htoken2 with ⟨hzero, -⟩ | ⟨-, htoken2⟩
      · omega
      · exact .inr ⟨hpos, hreserve, hshares, htoken2⟩
  | removeLiquidity a min1 min2 expiration =>
    obtain ⟨lp, s, hlp, hs, hpos, h₁, h₂, rfl, hmsgs⟩ := executeRemoveLiquidity_spec h
    rw [hw.lpToken] at hlp
    cases hlp
    rw [hq] at hs
    cases hs
    rw [hmsgs, hw.token1, hw.token2]
    exact .removeLiquidity a min1 min2 expiration hpos h₁ h₂
  | swap sel a minOutput fee expiration =>
    obtain ⟨bought, hfunds, hprice, -, rfl, hmsgs⟩ := executeSwap_spec h
    obtain ⟨hin, hout, rfl⟩ := getInputPrice_spec hprice
    rw [hmsgs]
    cases sel with
    | token1 =>
      -- of USDC the amount and the fee come attached
      obtain ⟨attached, hattached, hfunds⟩ := bind_eq_ok.mp hfunds
      obtain ⟨-, rfl⟩ := Uint128.add_eq_ok.mp hattached
      simp only [Storage.token, TokenSelect.other, hw.token1] at hfunds hin hout ⊢
      rw [hw.token2]
      exact .sellUsdc a minOutput fee _ expiration (validateInputAmount_native hfunds) hin hout rfl
    | token2 =>
      simp only [Storage.token, TokenSelect.other, hw.token1, hw.token2] at hin hout ⊢
      exact .sellFury a minOutput fee _ expiration hout hin rfl
  | addToken sel a =>
    obtain ⟨hfunds, rfl, hmsgs⟩ := executeAddToken_spec h
    rw [hmsgs]
    cases sel with
    | token1 =>
      have hfunds := hfunds rfl
      rw [hw.token1] at hfunds
      simp only [Storage.token, hw.token1]
      exact .addUsdc a (validateInputAmount_native hfunds)
    | token2 =>
      simp only [Storage.token, hw.token2]
      exact .addFury a

/-- Bonds move nothing of the pool's. -/
theorem flows_of_bonds (denom : String)
    (hbonds : ∀ m ∈ bonds, ∃ contract b, m = .wasmExecute contract (.bonding b) []) :
    coinsOut denom bonds = 0 ∧ furyOut bonds = 0 ∧ furyIn bonds = 0 ∧ minted bonds = 0 ∧
      burned bonds = 0 := by
  refine ⟨?_, ?_, ?_, ?_, ?_⟩ <;> refine List.sum_eq_zero fun n hn => ?_ <;>
    obtain ⟨m, hm, rfl⟩ := List.mem_map.mp hn <;> obtain ⟨contract, b, rfl⟩ := hbonds m hm <;> rfl

/-- The pool keeps its connections, and emits messages of its own only. -/
theorem Effect.wired (hw : st.Wired d) (h : Effect d supply info st msg st' msgs) :
    st'.Wired d ∧ ∀ m ∈ msgs, OwnMessage d info.sender m := by
  cases h with
  | configure owner bonding treasury st' h₁ h₂ hlp husdc =>
    refine ⟨⟨?_, ?_, ?_⟩, nofun⟩
    · rw [h₁, husdc, hw.token1]
    · rw [h₂, hw.token2]
    · rw [hlp, hw.lpToken]
  | addLiquidity t minLiquidity maxToken2 fee token2Amount shares expiration bonds hfunds hshares
      hbonds =>
    refine ⟨⟨hw.token1, hw.token2, hw.lpToken⟩, fun m hm => ?_⟩
    rcases List.mem_append.mp hm with hm | hm
    · simp only [List.mem_cons, List.not_mem_nil, or_false] at hm
      rcases hm with rfl | rfl | rfl
      · exact .pull _
      · exact .pay _ _
      · exact .mint _ _
    · obtain ⟨contract, b, rfl⟩ := hbonds m hm
      exact .bond _ _
  | removeLiquidity a min1 min2 expiration hsupply h₁ h₂ =>
    refine ⟨⟨hw.token1, hw.token2, hw.lpToken⟩, fun m hm => ?_⟩
    simp only [List.mem_cons, List.not_mem_nil, or_false] at hm
    rcases hm with rfl | rfl | rfl
    · exact .pay _ _
    · exact .transfer _ _
    · exact .burn _ _
  | sellUsdc a minOutput fee bought expiration hfunds h₁ h₂ hbought =>
    refine ⟨⟨hw.token1, hw.token2, hw.lpToken⟩, fun m hm => ?_⟩
    simp only [List.mem_cons, List.not_mem_nil, or_false] at hm
    rcases hm with rfl | rfl
    · exact .transfer _ _
    · exact .pay _ _
  | sellFury a minOutput fee bought expiration h₁ h₂ hbought =>
    refine ⟨⟨hw.token1, hw.token2, hw.lpToken⟩, fun m hm => ?_⟩
    simp only [List.mem_cons, List.not_mem_nil, or_false] at hm
    rcases hm with rfl | rfl | rfl
    · exact .pull _
    · exact .pay _ _
    · exact .pay _ _
  | addUsdc a hfunds => exact ⟨⟨hw.token1, hw.token2, hw.lpToken⟩, nofun⟩
  | addFury a =>
    refine ⟨⟨hw.token1, hw.token2, hw.lpToken⟩, fun m hm => ?_⟩
    rw [List.mem_singleton.mp hm]
    exact .pull _

theorem Effect.usdcDenom (h : Effect d supply info st msg st' msgs) :
    st'.config.usdcDenom = st.config.usdcDenom := by
  cases h with
  | configure _ _ _ _ _ _ _ husdc => exact husdc
  | addLiquidity => rfl
  | removeLiquidity => rfl
  | sellUsdc => rfl
  | sellFury => rfl
  | addUsdc => rfl
  | addFury => rfl

end Effects

/-! ## Steps and runs -/

/-- What changes from `w` to `w'` when someone else deals with the tokens and the bank: the pool
loses nothing, and shares may only be burned. -/
structure Bystander (d : Deployment) (w w' : World) : Prop where
  pool : w'.pool = w.pool
  coins : ∀ denom, w.bank.balance d.pool denom ≤ w'.bank.balance d.pool denom
  fury : w.furyHeld d ≤ w'.furyHeld d
  supply : w'.lp.totalSupply ≤ w.lp.totalSupply
  mint : w'.lp.mint = w.lp.mint
  unlent : w'.fury.Unlent d.pool

/-- What changes from `w` to `w'` in a call of the pool: the attached coins come in, the handler
has its effect, and what the messages say is moved. -/
structure Called (d : Deployment) (info : MessageInfo) (msg : ExecuteMsg)
    (msgs : List (CosmosMsg Payload)) (w w' : World) : Prop where
  caller : info.sender ≠ d.pool
  effect : Effect d w.lp.totalSupply info w.pool msg w'.pool msgs
  coins : ∀ denom, w.bank.balance d.pool denom + amountOf denom info.funds ≤
    w'.bank.balance d.pool denom + coinsOut denom msgs
  fury : w.furyHeld d + furyIn msgs ≤ w'.furyHeld d + furyOut msgs
  supply : w'.lp.totalSupply + burned msgs = w.lp.totalSupply + minted msgs
  mint : w'.lp.mint = w.lp.mint
  unlent : w'.fury.Unlent d.pool

section Steps

variable {d : Deployment} {w w' : World} {l : Label} {r : Response Payload}

/-- A call of the pool moves the attached coins, has one of the effects, and moves what its
messages say. -/
theorem exec_pool {block : BlockInfo} {info : MessageInfo} {msg : ExecuteMsg} (hw : Wired d w)
    (h : exec d w (.pool block info msg) = some (w', r)) :
    info.sender ≠ d.pool ∧ ∃ bank pool, w.bank.send info.sender d.pool info.funds = some bank ∧
      Effect d w.lp.totalSupply info w.pool msg pool r.messages ∧
      applyMessages d block { w with bank, pool } r.messages = some w' := by
  unfold exec at h
  split at h
  · cases h
  · rename_i hsender
    obtain ⟨bank, pool, hbank, hexec, hmsgs⟩ := callPool_eq_some.mp h
    have hsupply : (World.querier d { w with bank }).totalSupply d.lp = .ok w.lp.totalSupply := by
      simp [World.querier, d.fury_ne_lp.symm]
    exact ⟨hsender, bank, pool, hbank, execute_effect hw.pool hsupply hexec, hmsgs⟩

/-- What changes in a call of the pool that is accepted. -/
theorem exec_called {block : BlockInfo} {info : MessageInfo} {msg : ExecuteMsg} (hw : Wired d w)
    (h : exec d w (.pool block info msg) = some (w', r)) : Called d info msg r.messages w w' := by
  obtain ⟨hsender, bank, pool, hbank, heffect, hmsgs⟩ := exec_pool hw h
  obtain ⟨-, hown⟩ := heffect.wired hw.pool
  have hflows := applyMessages_flows hown hsender hmsgs
  refine ⟨hsender, ?_, fun denom => ?_, hflows.fury, hflows.supply, hflows.mint,
    hflows.unlent hw.unlent⟩
  · rw [hflows.pool]
    exact heffect
  -- the coins attached come in before the messages send any out
  · have hne : d.pool ≠ info.sender := Ne.symm hsender
    have hin := Bank.send_balance hbank d.pool denom
    rw [if_neg hne, if_pos rfl] at hin
    have := hflows.coins denom
    simp only at this
    omega

/-- **One step.** What happens on the chain is a call of the pool with one of its effects, or
leaves the pool no poorer. -/
theorem exec_cases (hw : Wired d w) (h : exec d w l = some (w', r)) :
    (∃ block info msg, l = .pool block info msg ∧ Called d info msg r.messages w w') ∨
      Bystander d w w' := by
  by_cases hsender : l.sender = d.pool
  · unfold exec at h
    rw [if_pos hsender] at h
    cases h
  · cases l with
    | pool block info msg => exact .inl ⟨block, info, msg, rfl, exec_called hw h⟩
    | fury block info msg =>
      rw [exec, if_neg hsender] at h
      simp only [Option.pure_def, Option.bind_eq_bind, Option.bind_eq_some_iff,
        toOption_eq_some] at h
      obtain ⟨⟨fury, r₁⟩, hexec, h⟩ := h
      cases h
      -- somebody else cannot take FURY of the pool, which has lent none
      obtain ⟨hunlent, hheld⟩ := execute_unlent hexec (Ne.symm hsender) hw.unlent
      exact .inr ⟨rfl, fun _ => le_rfl, hheld, le_rfl, rfl, hunlent⟩
    | lp block info msg =>
      rw [exec, if_neg hsender] at h
      simp only [Option.pure_def, Option.bind_eq_bind, Option.bind_eq_some_iff,
        toOption_eq_some] at h
      obtain ⟨⟨lp, r₁⟩, hexec, h⟩ := h
      cases h
      -- somebody else cannot mint, since the pool is the minter
      obtain ⟨hsupply, hmint⟩ := execute_supply hexec fun m hm => by
        rw [hw.minter m hm]
        exact Ne.symm hsender
      exact .inr ⟨rfl, fun _ => le_rfl, le_rfl, hsupply, hmint, hw.unlent⟩
    | bank sender toAddress amount =>
      rw [exec, if_neg hsender] at h
      simp only [Option.pure_def, Option.bind_eq_bind, Option.bind_eq_some_iff] at h
      obtain ⟨bank, hbank, h⟩ := h
      cases h
      exact .inr ⟨rfl, fun denom => Bank.balance_le_of_send hbank (Ne.symm hsender) denom, le_rfl,
        le_rfl, rfl, hw.unlent⟩

/-- **A swap of USDC** moves the FURY it buys from the pool to the caller. -/
theorem exec_sellUsdc {block : BlockInfo} {info : MessageInfo} {a minOutput fee : ℕ}
    {expiration : Option Expiration} (hw : Wired d w)
    (h : exec d w (.pool block info (.swap .token1 a minOutput fee expiration)) = some (w', r)) :
    ∃ bought, 0 < bought ∧
      bought = quote 997 1000 a w.pool.token1.reserve w.pool.token2.reserve ∧
      ∀ x, w'.fury.balance x + (if x = d.pool then bought else 0) =
        w.fury.balance x + (if x = info.sender then bought else 0) := by
  obtain ⟨-, bank, pool, -, heffect, hmsgs⟩ := exec_pool hw h
  generalize r.messages = msgs at heffect hmsgs
  cases heffect with
  | sellUsdc _ _ _ bought _ hfunds h₁ h₂ hbought =>
    simp only [applyMessages, List.foldlM_cons, List.foldlM_nil, Option.pure_def,
      Option.bind_eq_bind, Option.bind_eq_some_iff] at hmsgs
    obtain ⟨w₁, hfury, w₂, hbank, hmsgs⟩ := hmsgs
    cases hmsgs
    obtain ⟨r₁, htransfer, -⟩ := applyMessage_fury hfury
    obtain ⟨hpos, rcpt, hrcpt, hmoved, -⟩ := executeTransfer_spec htransfer
    obtain rfl := d.validate_eq _ _ hrcpt
    -- the payment to the treasury moves no FURY
    obtain ⟨bank', -, rfl⟩ := applyMessage_pay hbank
    exact ⟨bought, hpos, hbought, hmoved⟩

/-- **A swap of FURY** pays the caller the USDC it buys, and the treasury the fee, of which the
caller has attached what is in its coins. -/
theorem exec_sellFury {block : BlockInfo} {info : MessageInfo} {a minOutput fee : ℕ}
    {expiration : Option Expiration} (hw : Wired d w)
    (h : exec d w (.pool block info (.swap .token2 a minOutput fee expiration)) = some (w', r)) :
    ∃ bought, bought = quote 997 1000 a w.pool.token2.reserve w.pool.token1.reserve ∧
      ∀ x, x ≠ d.pool → w'.bank.balance x w.pool.config.usdcDenom +
          (if x = info.sender then amountOf w.pool.config.usdcDenom info.funds else 0) =
        w.bank.balance x w.pool.config.usdcDenom + (if x = info.sender then bought else 0) +
          (if x = w.pool.config.treasuryAddress then fee else 0) := by
  obtain ⟨-, bank, pool, hattached, heffect, hmsgs⟩ := exec_pool hw h
  generalize r.messages = msgs at heffect hmsgs
  cases heffect with
  | sellFury _ _ _ bought _ h₁ h₂ hbought =>
    simp only [applyMessages, List.foldlM_cons, List.foldlM_nil, Option.pure_def,
      Option.bind_eq_bind, Option.bind_eq_some_iff] at hmsgs
    obtain ⟨w₁, hpull, w₂, hpaid, w₃, hfee, hmsgs⟩ := hmsgs
    cases hmsgs
    -- FURY is pulled in without any coins
    obtain ⟨r₁, -, hpulled⟩ := applyMessage_fury hpull
    obtain ⟨bank₂, hsent₂, rfl⟩ := applyMessage_pay hpaid
    obtain ⟨bank₃, hsent₃, rfl⟩ := applyMessage_pay hfee
    refine ⟨bought, hbought, fun x hx => ?_⟩
    have hin := Bank.send_balance hattached x w.pool.config.usdcDenom
    have hout := Bank.send_balance hsent₂ x w.pool.config.usdcDenom
    have htreasury := Bank.send_balance hsent₃ x w.pool.config.usdcDenom
    rw [hpulled] at hout
    simp only [if_neg hx, amountOf_singleton, if_true] at hin hout htreasury
    dsimp only at hin hout htreasury ⊢
    omega

/-- The pool trades one native coin. -/
theorem exec_usdcDenom (hw : Wired d w) (h : exec d w l = some (w', r)) :
    w'.pool.config.usdcDenom = w.pool.config.usdcDenom := by
  rcases exec_cases hw h with ⟨block, info, msg, -, hcall⟩ | hby
  · exact hcall.effect.usdcDenom
  · rw [hby.pool]

theorem exec_wired (hw : Wired d w) (h : exec d w l = some (w', r)) : Wired d w' := by
  rcases exec_cases hw h with ⟨block, info, msg, -, hcall⟩ | hby
  · refine ⟨(hcall.effect.wired hw.pool).1, ?_, hcall.unlent⟩
    rw [hcall.mint]
    exact hw.minter
  · refine ⟨?_, ?_, hby.unlent⟩
    · rw [hby.pool]
      exact hw.pool
    · rw [hby.mint]
      exact hw.minter

/-- **The pool stays connected to its tokens.** -/
theorem run_wired (hw : Wired d w) (ls : List Label) : Wired d (run (exec d) w ls) :=
  run_preserves (fun _ _ _ _ hw h => exec_wired hw h) hw ls

/-- A pool that has just been instantiated is connected to its tokens, without reserves or
shares. -/
theorem Initial.wired (h : Initial d w) :
    Wired d w ∧ w.pool.token1.reserve = 0 ∧ w.pool.token2.reserve = 0 ∧ w.lp.totalSupply = 0 := by
  obtain ⟨block, msg, bank, fury, hfury, hunlent, hdeploy⟩ := h
  simp only [deploy, instantiate, createToken, Option.pure_def, Option.bind_eq_bind,
    Option.bind_eq_some_iff, toOption_eq_some] at hdeploy
  obtain ⟨lp, hlp, ⟨st₁, r₁⟩, hreply₁, ⟨st₂, r₂⟩, hreply₂, hdeploy⟩ := hdeploy
  cases hdeploy
  obtain ⟨hsupply, hminter⟩ := Cw20.instantiate_spec hlp rfl
  -- the replies save the addresses of the token and of the bonding contract
  obtain ⟨-, hreply₁⟩ := refuse_bind_eq_ok.mp hreply₁
  obtain ⟨lpAddr, hlpAddr, hreply₁⟩ := bind_eq_ok.mp hreply₁
  cases hreply₁
  obtain ⟨-, hreply₂⟩ := refuse_bind_eq_ok.mp hreply₂
  obtain ⟨bondingAddr, -, hreply₂⟩ := bind_eq_ok.mp hreply₂
  cases hreply₂
  refine ⟨⟨⟨rfl, ?_, ?_⟩, fun m hm => ?_, hunlent⟩, rfl, rfl, hsupply⟩
  · exact congrArg Denom.cw20 hfury
  · exact congrArg some (d.validate_eq _ _ (validate_eq_ok.mp hlpAddr))
  · obtain ⟨asked, hasked, hm⟩ := hminter m hm
    cases hasked
    exact d.validate_eq _ _ hm

end Steps

end Fanfuryswap
