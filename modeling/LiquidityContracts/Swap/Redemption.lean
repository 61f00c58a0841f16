import LiquidityContracts.Swap.Solvency
import LiquidityContracts.Swap.Tokens

/-!
# Shares can be redeemed

What a withdrawal asks for it finds: the reserves are covered, no balance overflows, and no share
is larger than its reserve. So a withdrawal fails for reasons that are up to the caller only, or
because a product is out of range or one of the shares is nothing, which neither the bank nor the
token of FURY transfers.

## Main definitions

* `World.share`: the part of a reserve that some of the pool's tokens stand for
* `Redeemable`: when a withdrawal is accepted

## Main results

* `executeRemoveLiquidity_succeeds`: what the handler checks is all that it needs
* `exec_redeem`: a withdrawal is accepted exactly when it is redeemable
* `run_redeem`: the same in every state of a run
-/

namespace Fanfuryswap

open CosmWasm Cw20 Util

/-- The part of a reserve that `a` of the pool's tokens stand for. -/
def World.share (w : World) (a reserve : ℕ) : ℕ := a * reserve / w.lp.totalSupply

/-- What a withdrawal of `a` by a caller other than the pool needs: an address to pay to, the coins
that it attaches, tokens that are lent to the pool, and shares in range that are as large as asked
for and that are something. -/
structure Redeemable (d : Deployment) (w : World) (block : BlockInfo) (info : MessageInfo)
    (a min1 min2 : ℕ) (expiration : Option Expiration) : Prop where
  caller : info.sender ≠ d.pool
  valid : Valid d.api info.sender
  attached : (w.bank.send info.sender d.pool info.funds).isSome
  unexpired : ∀ e ∈ expiration, e.isExpired block = false
  lent : w.lp.Spendable block info.sender d.pool a
  range1 : a * w.pool.token1.reserve < Uint128.bound
  range2 : a * w.pool.token2.reserve < Uint128.bound
  min1_le : min1 ≤ w.share a w.pool.token1.reserve
  min2_le : min2 ≤ w.share a w.pool.token2.reserve
  pays1 : 0 < w.share a w.pool.token1.reserve
  pays2 : 0 < w.share a w.pool.token2.reserve

section Parts

variable {d : Deployment} {q : Querier} {env : Env} {info : MessageInfo} {block : BlockInfo}
  {st st' : Storage} {w : World} {a min1 min2 balance supply : ℕ} {lp : Addr}
  {expiration : Option Expiration} {resp : Response Payload}

/-- What a withdrawal has checked when it succeeds. -/
theorem executeRemoveLiquidity_checked
    (h : executeRemoveLiquidity q env info st a min1 min2 expiration = .ok (st', resp)) :
    (∀ e ∈ expiration, e.isExpired env.block = false) ∧
      ∃ lp balance supply, st.lpToken = some lp ∧ q.tokenBalance lp info.sender = .ok balance ∧
        q.totalSupply lp = .ok supply ∧ a ≤ balance ∧ supply ≠ 0 ∧
        a * st.token1.reserve < Uint128.bound ∧ a * st.token2.reserve < Uint128.bound ∧
        min1 ≤ a * st.token1.reserve / supply ∧ min2 ≤ a * st.token2.reserve / supply := by
  unfold executeRemoveLiquidity at h
  obtain ⟨u, hexpired, h⟩ := bind_eq_ok.mp h
  obtain ⟨lp, hlp, h⟩ := bind_eq_ok.mp h
  obtain ⟨balance, hbalance, h⟩ := bind_eq_ok.mp h
  obtain ⟨supply, hsupply, h⟩ := bind_eq_ok.mp h
  obtain ⟨hle, h⟩ := refuse_bind_eq_ok.mp h
  obtain ⟨scaled1, hscaled1, h⟩ := bind_eq_ok.mp h
  obtain ⟨token1Amount, htoken1, h⟩ := bind_eq_ok.mp h
  obtain ⟨hmin1, h⟩ := refuse_bind_eq_ok.mp h
  obtain ⟨scaled2, hscaled2, h⟩ := bind_eq_ok.mp h
  obtain ⟨token2Amount, htoken2, h⟩ := bind_eq_ok.mp h
  obtain ⟨hmin2, -⟩ := refuse_bind_eq_ok.mp h
  obtain ⟨hrange1, rfl⟩ := Uint128.checkedMul_eq_ok.mp hscaled1
  obtain ⟨hrange2, rfl⟩ := Uint128.checkedMul_eq_ok.mp hscaled2
  obtain ⟨hne, rfl⟩ := Uint128.checkedDiv_eq_ok.mp htoken1
  obtain ⟨-, rfl⟩ := Uint128.checkedDiv_eq_ok.mp htoken2
  refine ⟨fun e he => ?_, lp, balance, supply, load_eq_ok.mp hlp, liftStd_eq_ok.mp hbalance,
    liftStd_eq_ok.mp hsupply, not_lt.mp hle, hne, hrange1, hrange2, not_lt.mp hmin1,
    not_lt.mp hmin2⟩
  exact Bool.eq_false_iff.mpr fun hexp => refuse_eq_ok.mp hexpired ⟨e, he, hexp⟩

/-- What a withdrawal checks is all that it needs, where nobody has more than there is. -/
theorem executeRemoveLiquidity_succeeds (hexpired : ∀ e ∈ expiration, e.isExpired env.block = false)
    (hlp : st.lpToken = some lp) (hbalance : q.tokenBalance lp info.sender = .ok balance)
    (hsupply : q.totalSupply lp = .ok supply) (hle : a ≤ balance) (hne : supply ≠ 0)
    (hheld : a ≤ supply) (hrange1 : a * st.token1.reserve < Uint128.bound)
    (hrange2 : a * st.token2.reserve < Uint128.bound)
    (hmin1 : min1 ≤ a * st.token1.reserve / supply)
    (hmin2 : min2 ≤ a * st.token2.reserve / supply) :
    ∃ st', executeRemoveLiquidity q env info st a min1 min2 expiration = .ok (st',
      { messages :=
          [payMessage st.token1.denom info.sender (a * st.token1.reserve / supply),
            payMessage st.token2.denom info.sender (a * st.token2.reserve / supply),
            getBurnMsg lp info.sender a] }) := by
  have hunexpired : checkExpiration expiration env.block = .ok () := by
    refine refuse_eq_ok.mpr ?_
    rintro ⟨e, he, hexp⟩
    rw [hexpired e he] at hexp
    cases hexp
  -- no share is larger than the reserve
  have hshare : ∀ reserve, a * reserve / supply ≤ reserve := fun reserve =>
    Nat.div_le_of_le_mul (Nat.mul_le_mul_right _ hheld)
  refine ⟨(st.setReserve (st.token1.reserve - a * st.token1.reserve / supply) .token1).setReserve
    (st.token2.reserve - a * st.token2.reserve / supply) .token2, ?_⟩
  unfold executeRemoveLiquidity
  rw [bind_of_eq_ok hunexpired, bind_of_eq_ok (load_eq_ok.mpr hlp),
    bind_of_eq_ok (liftStd_eq_ok.mpr hbalance), bind_of_eq_ok (liftStd_eq_ok.mpr hsupply)]
  refine refuse_bind_eq_ok.mpr ⟨not_lt.mpr hle, ?_⟩
  rw [bind_of_eq_ok (Uint128.checkedMul_eq_ok.mpr ⟨hrange1, rfl⟩),
    bind_of_eq_ok (Uint128.checkedDiv_eq_ok.mpr ⟨hne, rfl⟩)]
  refine refuse_bind_eq_ok.mpr ⟨not_lt.mpr hmin1, ?_⟩
  rw [bind_of_eq_ok (Uint128.checkedMul_eq_ok.mpr ⟨hrange2, rfl⟩),
    bind_of_eq_ok (Uint128.checkedDiv_eq_ok.mpr ⟨hne, rfl⟩)]
  refine refuse_bind_eq_ok.mpr ⟨not_lt.mpr hmin2, ?_⟩
  rw [bind_of_eq_ok (Uint128.checkedSub_eq_ok.mpr ⟨hshare _, rfl⟩),
    bind_of_eq_ok (Uint128.checkedSub_eq_ok.mpr ⟨hshare _, rfl⟩)]
  rfl

/-- Coins of one denom can be sent by whoever has them, unless they are none. -/
theorem exists_pay (block : BlockInfo) (recipient : Addr) {denom : String} {n : ℕ} (hpos : 0 < n)
    (h : n ≤ w.bank.balance d.pool denom) :
    ∃ bank, applyMessage d block w (sendCoins recipient denom n) = some { w with bank } := by
  have hsend : ∃ bank, w.bank.send d.pool recipient [⟨denom, n⟩] = some bank :=
    Bank.exists_send_singleton.mpr ⟨hpos.ne', h⟩
  obtain ⟨bank, hbank⟩ := hsend
  exact ⟨bank, by simp [sendCoins, applyMessage, hbank]⟩

/-- A message to FURY takes effect when the token permits it. -/
theorem exists_fury (block : BlockInfo) {m : Cw20.ExecuteMsg} (hfury : Conserved w.fury)
    (h : Permits d.api ⟨block, d.fury⟩ ⟨d.pool, []⟩ w.fury m) :
    ∃ fury, applyMessage d block w (.wasmExecute d.fury (.cw20 m) []) = some { w with fury } := by
  obtain ⟨⟨fury, r⟩, hexec⟩ := (execute_ok_iff hfury m).mpr h
  exact ⟨fury, by simp [applyMessage, Bank.send, hexec, Except.toOption]⟩

/-- A message to the token of the pool takes effect exactly when the token permits it. -/
theorem exists_lp {m : Cw20.ExecuteMsg} (hlp : Conserved w.lp) :
    (∃ w', applyMessage d block w (.wasmExecute d.lp (.cw20 m) []) = some w') ↔
      Permits d.api ⟨block, d.lp⟩ ⟨d.pool, []⟩ w.lp m := by
  rw [← execute_ok_iff hlp m]
  constructor
  · rintro ⟨w', h⟩
    obtain ⟨r, hexec, -⟩ := applyMessage_lp h
    exact ⟨_, hexec⟩
  · rintro ⟨⟨lp, r⟩, hexec⟩
    exact ⟨{ w with lp }, by
      simp [applyMessage, Bank.send, d.fury_ne_lp.symm, hexec, Except.toOption]⟩

end Parts

section Steps

variable {d : Deployment} {w : World} {block : BlockInfo} {info : MessageInfo}
  {a min1 min2 : ℕ} {expiration : Option Expiration}

/-- The balance that the token of the pool reports is that of a valid address. -/
theorem tokenBalance_eq_ok {bank : Bank} {n : ℕ} {holder : Addr} :
    (World.querier d { w with bank }).tokenBalance d.lp holder = .ok n ↔
      Valid d.api holder ∧ n = w.lp.balance holder := by
  simp only [World.querier, d.fury_ne_lp.symm, if_false, if_true]
  constructor
  · intro h
    cases hvalid : d.api holder with
    | error e =>
      rw [hvalid] at h
      cases h
    | ok x =>
      rw [hvalid] at h
      cases h
      rw [d.validate_eq _ _ hvalid]
      exact ⟨⟨_, hvalid⟩, rfl⟩
  · rintro ⟨⟨x, hvalid⟩, rfl⟩
    rw [hvalid]
    obtain rfl := d.validate_eq _ _ hvalid
    rfl

/-- **A withdrawal is accepted exactly when it is redeemable.** -/
theorem exec_redeem (hw : Wired d w) (hs : Solvent d w) (hsound : Sound w) :
    (exec d w (.pool block info (.removeLiquidity a min1 min2 expiration))).isSome ↔
      Redeemable d w block info a min1 min2 expiration := by
  have hlpSound : Conserved w.lp := hsound .lp
  have hquery : ∀ bank, (World.querier d { w with bank }).totalSupply d.lp =
      .ok w.lp.totalSupply := fun bank => by simp [World.querier, d.fury_ne_lp.symm]
  constructor
  · intro h
    obtain ⟨⟨w', r⟩, h⟩ := Option.isSome_iff_exists.mp h
    have hcaller := sender_ne_pool h
    unfold exec at h
    rw [if_neg hcaller] at h
    obtain ⟨bank, pool, hbank, hexec, hmsgs⟩ := callPool_eq_some.mp h
    obtain ⟨hunexpired, lp, balance, supply, hlp, hbalance, hsupply, hle, hne, hrange1, hrange2,
      hmin1, hmin2⟩ := executeRemoveLiquidity_checked hexec
    obtain ⟨lp', supply', hlp', hsupply', -, -, -, -, hr⟩ := executeRemoveLiquidity_spec hexec
    rw [hw.pool.lpToken] at hlp hlp'
    cases hlp
    cases hlp'
    rw [hquery] at hsupply hsupply'
    cases hsupply
    cases hsupply'
    obtain ⟨hvalid, rfl⟩ := tokenBalance_eq_ok.mp hbalance
    rw [hr, hw.pool.token1, hw.pool.token2] at hmsgs
    simp only [applyMessages, List.foldlM_cons, List.foldlM_nil, Option.pure_def,
      Option.bind_eq_bind, Option.bind_eq_some_iff] at hmsgs
    obtain ⟨w₁, hpay, w₂, htransfer, w₃, hburn, -⟩ := hmsgs
    obtain ⟨bank₁, hsent, rfl⟩ := applyMessage_pay hpay
    obtain ⟨hne₁, -⟩ := Bank.exists_send_singleton.mp ⟨bank₁, hsent⟩
    obtain ⟨r₂, hfury, hw₂⟩ := applyMessage_fury htransfer
    obtain ⟨hpos, -⟩ := executeTransfer_spec hfury
    -- what the pool may take of the caller is what it burns
    have hlp₂ : w₂.lp = w.lp := by rw [hw₂]
    obtain ⟨x, hx, hlent⟩ := (exists_lp (hlp₂ ▸ hlpSound)).mp ⟨w₃, hburn⟩
    obtain rfl := d.validate_eq _ _ hx
    rw [hlp₂] at hlent
    exact ⟨hcaller, hvalid, Option.isSome_of_eq_some hbank, hunexpired, hlent, hrange1, hrange2,
      hmin1, hmin2, Nat.pos_of_ne_zero hne₁, hpos⟩
  · intro h
    obtain ⟨bank, hbank⟩ := Option.isSome_iff_exists.mp h.attached
    have hheld := h.lent.held
    have hall := w.lp.balance_le_held info.sender
    have hsum := hlpSound.held_eq
    have hne : w.lp.totalSupply ≠ 0 := by
      intro hzero
      have hpays := h.pays1
      rw [World.share, hzero, Nat.div_zero] at hpays
      exact hpays.false
    have hshare : ∀ reserve, w.share a reserve ≤ reserve := fun reserve =>
      Nat.div_le_of_le_mul (Nat.mul_le_mul_right _ (by omega))
    obtain ⟨pool, hexec⟩ : ∃ pool, execute (World.querier d { w with bank }) ⟨block, d.pool⟩ info
        w.pool (.removeLiquidity a min1 min2 expiration) = .ok (pool, _) :=
      executeRemoveLiquidity_succeeds h.unexpired hw.pool.lpToken
        (tokenBalance_eq_ok.mpr ⟨h.valid, rfl⟩) (hquery bank) hheld hne (by omega) h.range1 h.range2
        h.min1_le h.min2_le
    rw [hw.pool.token1, hw.pool.token2] at hexec
    -- the coins attached do not make the pool poorer
    have hcoins := Bank.balance_le_of_send hbank (Ne.symm h.caller) w.pool.config.usdcDenom
    have hfunded := (hshare w.pool.token1.reserve).trans (hs.1.trans hcoins)
    have hfunded₂ := (hshare w.pool.token2.reserve).trans hs.2
    obtain ⟨bank₁, hpay⟩ := exists_pay (w := { w with bank, pool }) block info.sender h.pays1
      hfunded
    obtain ⟨fury, htransfer⟩ := exists_fury (w := { w with bank := bank₁, pool := pool }) block
      (m := .transfer info.sender (w.share a w.pool.token2.reserve)) (hsound .fury)
      ⟨h.pays2.ne', h.valid, hfunded₂⟩
    have hpermits : Permits d.api ⟨block, d.lp⟩ ⟨d.pool, []⟩ w.lp (.burnFrom info.sender a) := by
      obtain ⟨x, hx⟩ := h.valid
      obtain rfl := d.validate_eq _ _ hx
      exact ⟨_, hx, h.lent⟩
    obtain ⟨w', hburn⟩ := (exists_lp (w := { w with bank := bank₁, pool := pool, fury := fury })
      hlpSound).mpr hpermits
    have hmsgs : applyMessages d block { w with bank, pool }
        [sendCoins info.sender w.pool.config.usdcDenom (w.share a w.pool.token1.reserve),
          getCw20TransferToMsg info.sender d.fury (w.share a w.pool.token2.reserve),
          getBurnMsg d.lp info.sender a] = some w' := by
      simp only [applyMessages, List.foldlM_cons, List.foldlM_nil, Option.pure_def,
        Option.bind_eq_bind, Option.bind_eq_some_iff]
      exact ⟨_, hpay, _, htransfer, _, hburn, rfl⟩
    unfold exec
    rw [if_neg (by exact h.caller)]
    exact Option.isSome_of_eq_some (callPool_eq_some.mpr ⟨bank, pool, hbank, hexec, hmsgs⟩)

end Steps

section Runs

variable {d : Deployment} {w : World}

/-- **Shares can be redeemed in every state** of a run, from the deployment of the pool on, in which
the fee of every accepted swap of FURY is attached. -/
theorem run_redeem (h : Initial d w) (hfury : Conserved w.fury) (ls : List Label)
    (hfee : ∀ x ∈ history (exec d) w ls, (exec d x.1 x.2).isSome → FeeAttached x.1 x.2)
    (block : BlockInfo) (info : MessageInfo) (a min1 min2 : ℕ) (expiration : Option Expiration) :
    (exec d (run (exec d) w ls)
        (.pool block info (.removeLiquidity a min1 min2 expiration))).isSome ↔
      Redeemable d (run (exec d) w ls) block info a min1 min2 expiration := by
  obtain ⟨hwired, -⟩ := h.wired
  exact exec_redeem (run_wired hwired ls) (run_solvent d w ls h hfee) (run_sound h hfury ls)

end Runs

namespace Sample

/-- The owner lends half of its shares to the pool. -/
def lendShares : Label := .lp block ⟨"owner", []⟩ (.increaseAllowance "pool" 500000 none)

end Sample

open Sample in
/-- The owner redeems a part of the shares that it has lent. -/
theorem run_redeem_sample :
    Redeemable deployment (run (exec deployment) world [addLiquidity, lendShares]) block
      ⟨"owner", []⟩ 400000 400000 400000 none :=
  (run_redeem initial ⟨by decide +kernel, by decide⟩ [addLiquidity, lendShares]
    (by decide +kernel) block ⟨"owner", []⟩ 400000 400000 400000 none).mp (by decide +kernel)

end Fanfuryswap
