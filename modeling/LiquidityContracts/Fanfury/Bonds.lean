import LiquidityContracts.Bonding.Discount
import LiquidityContracts.Fanfury.Chain

/-!
# Bonds come from deposits

Whoever adds liquidity, other than the owner and the treasury of the pool, has a bond of twice the
FURY that it deposits recorded, the discount added. On the chain there is no other way to a bond: the
bonding contract takes bonds of the pool only, and the pool has them recorded for deposits only. So
what an address is paid as it unbonds, and what is still recorded for it, is what its deposits were
worth when it made them.

## Main definitions

* `bondDue`: the bond that a step is to be recorded as for an address
* `unbonded`: what the bonding contract pays an address as it unbonds
* `LocksInRange`: the time that the bond of a deposit is unlocked at is within 64 bits

## Main results

* `bonds_addLiquidity`, `bonds_eq_nil`: the bonds that the pool has recorded
* `Step.bonds`: one step records the bond that is due, and nothing else
* `run_bonds`: all bonds come from deposits, and are paid or still recorded
-/

namespace Fanfurybonding

open CosmWasm Util

/-- The contract takes bonds of the pool, and of nobody else. -/
structure ForPool (pool : Addr) (st : Storage) : Prop where
  pool : st.config.poolAddress = pool
  lp : st.config.isNativeBonding = false

section ForPool

variable {st st' : Storage} {c : Call} {r : Response Cw20.ExecuteMsg} {pool : Addr}

/-- Nobody changes whom the contract takes bonds of. -/
theorem exec_forPool (hp : ForPool pool st) (h : exec st c = some (st', r)) : ForPool pool st' := by
  have hexec := exec_eq_some.mp h
  cases exec_effect h with
  | bonds cumulated current last isBond state spends =>
    rw [state]
    exact ⟨hp.pool, hp.lp⟩
  | unbonds usdcAmount msg state response =>
    rw [state]
    exact ⟨hp.pool, hp.lp⟩
  | owns config isOwners sender owner meter state =>
    obtain ⟨q, env, info, msg⟩ := c
    cases msg with
    | bond | lpBond | unbond => cases isOwners
    | updateOwner owner =>
      obtain ⟨-, -, hexec⟩ := bind_eq_ok.mp hexec
      cases pure_eq_ok.mp hexec
      exact hp
    | updateEnabled enabled =>
      obtain ⟨-, -, hexec⟩ := bind_eq_ok.mp hexec
      cases pure_eq_ok.mp hexec
      exact ⟨hp.pool, hp.lp⟩
    | updateConfig treasuryAddress lockSeconds discount txFee platformFee vesting =>
      obtain ⟨-, -, hexec⟩ := bind_eq_ok.mp hexec
      cases pure_eq_ok.mp hexec
      exact ⟨hp.pool, hp.lp⟩
    | withdraw amount =>
      simp only [execute, executeWithdraw] at hexec
      obtain ⟨-, -, hexec⟩ := bind_eq_ok.mp hexec
      obtain ⟨furyBalance, -, hexec⟩ := bind_eq_ok.mp hexec
      obtain ⟨-, hexec⟩ := refuse_bind_eq_ok.mp hexec
      cases pure_eq_ok.mp hexec
      exact hp

/-- A bond is one that the pool has recorded. -/
theorem ForPool.of_isBond (hp : ForPool pool st) (h : exec st c = some (st', r))
    (hbond : c.msg.isBond) : c.info.sender = pool := by
  have hexec := exec_eq_some.mp h
  obtain ⟨q, env, info, msg⟩ := c
  cases msg with
  | bond amount =>
    obtain ⟨-, -, hexec⟩ := bind_eq_ok.mp hexec
    obtain ⟨hnative, -⟩ := refuse_bind_eq_ok.mp hexec
    exact absurd hp.lp hnative
  | lpBond address amount =>
    obtain ⟨-, -, hexec⟩ := bind_eq_ok.mp hexec
    obtain ⟨hsender, -⟩ := refuse_bind_eq_ok.mp hexec
    exact (not_not.mp hsender).trans hp.pool
  | updateOwner | updateEnabled | updateConfig | unbond | withdraw => cases hbond

end ForPool

end Fanfurybonding

namespace Fanfuryswap

open CosmWasm Cw20 Util

/-- A message that has no bond recorded. -/
def Moves : CosmosMsg Payload → Prop
  | .wasmExecute _ (.bonding _) _ => False
  | _ => True

section Deposits

variable {d : Deployment} {q : Querier} {env : Env} {block : BlockInfo} {info : MessageInfo}
  {st st' : Storage} {w w' : World} {r : Response Payload} {msg : ExecuteMsg}

theorem moves_pullMessages (denom : Denom) (owner recipient : Addr) (n : ℕ) :
    ∀ m ∈ pullMessages denom owner recipient n, Moves m := by
  intro m hm
  cases denom with
  | native denom => cases hm
  | cw20 addr =>
    rcases List.mem_singleton.mp hm with rfl
    trivial

theorem moves_refundMessages (denom : Denom) (recipient : Addr) (n k : ℕ) :
    ∀ m ∈ refundMessages denom recipient n k, Moves m := by
  intro m hm
  cases denom with
  | native denom =>
    rw [refundMessages] at hm
    split at hm
    · rcases List.mem_singleton.mp hm with rfl
      trivial
    · cases hm
  | cw20 addr => cases hm

theorem moves_transferTokenMessage (denom : Denom) (n : ℕ) (receiver : Addr) :
    Moves (transferTokenMessage .cw20 denom n receiver) := by
  cases denom with
  | native denom => trivial
  | cw20 addr => trivial

/-- The last message of a deposit has twice the FURY that joins the reserve bonded, for anyone but
the owner and the treasury. -/
theorem executeAddLiquidity_bonds {minLiquidity t maxToken2 fee : ℕ}
    {expiration : Option Expiration}
    (h : executeAddLiquidity q env info st minLiquidity t maxToken2 fee expiration =
      .ok (st', r)) :
    ∃ moves, (∀ m ∈ moves, Moves m) ∧ r.messages = moves ++
      if info.sender ≠ st.config.owner ∧ info.sender ≠ st.config.treasuryAddress then
        [.wasmExecute st.config.bondingContractAddress
          (.bonding (.lpBond info.sender ((st'.token2.reserve - st.token2.reserve) * 2))) []]
      else [] := by
  obtain ⟨-, -, h⟩ := bind_eq_ok.mp h
  obtain ⟨lp, -, h⟩ := bind_eq_ok.mp h
  obtain ⟨attached, -, h⟩ := bind_eq_ok.mp h
  obtain ⟨-, -, h⟩ := bind_eq_ok.mp h
  obtain ⟨-, -, h⟩ := bind_eq_ok.mp h
  obtain ⟨supply, -, h⟩ := bind_eq_ok.mp h
  obtain ⟨minted, -, h⟩ := bind_eq_ok.mp h
  obtain ⟨token2Amount, -, h⟩ := bind_eq_ok.mp h
  obtain ⟨-, h⟩ := refuse_bind_eq_ok.mp h
  obtain ⟨-, h⟩ := refuse_bind_eq_ok.mp h
  obtain ⟨reserve1, -, h⟩ := bind_eq_ok.mp h
  obtain ⟨reserve2, hreserve2, h⟩ := bind_eq_ok.mp h
  dsimp only at h
  obtain ⟨scaled, -, h⟩ := bind_eq_ok.mp h
  obtain ⟨doubled, -, h⟩ := bind_eq_ok.mp h
  obtain ⟨required, -, h⟩ := bind_eq_ok.mp h
  obtain ⟨-, h⟩ := refuse_bind_eq_ok.mp h
  obtain ⟨bonds, hbonds, h⟩ := bind_eq_ok.mp h
  cases pure_eq_ok.mp h
  obtain ⟨-, rfl⟩ := Uint128.add_eq_ok.mp hreserve2
  have hdeposit : ((st.setReserve reserve1 .token1).setReserve
      (st.token2.reserve + token2Amount) .token2).token2.reserve - st.token2.reserve =
        token2Amount := Nat.add_sub_cancel_left _ _
  have hlast : bonds =
      if info.sender ≠ st.config.owner ∧ info.sender ≠ st.config.treasuryAddress then
        [.wasmExecute st.config.bondingContractAddress
          (.bonding (.lpBond info.sender (token2Amount * 2))) []]
      else [] := by
    split at hbonds
    · rename_i houtside
      obtain ⟨bonded, hbonded, hbonds⟩ := bind_eq_ok.mp hbonds
      obtain ⟨-, rfl⟩ := Uint128.mul_eq_ok.mp hbonded
      rw [if_pos houtside, ← pure_eq_ok.mp hbonds]
    · rename_i hinside
      rw [if_neg hinside, ← pure_eq_ok.mp hbonds]
  rw [hdeposit, hlast]
  refine ⟨_, fun m hm => ?_, rfl⟩
  simp only [List.mem_append, or_assoc] at hm
  rcases hm with hm | hm | hm | hm
  · exact moves_pullMessages _ _ _ _ m hm
  · exact moves_pullMessages _ _ _ _ m hm
  · exact moves_refundMessages _ _ _ _ m hm
  · rcases List.mem_pair.mp hm with rfl | rfl
    · exact moves_transferTokenMessage _ _ _
    · trivial

/-- No other message has a bond recorded. -/
theorem Effect.moves {supply : ℕ} {msgs : List (CosmosMsg Payload)}
    (h : Effect d supply info st msg st' msgs)
    (hmsg : ∀ t minLiquidity maxToken2 fee expiration,
      msg ≠ .addLiquidity t minLiquidity maxToken2 fee expiration) : ∀ m ∈ msgs, Moves m := by
  intro m hm
  cases h with
  | configure => cases hm
  | addLiquidity => exact absurd rfl (hmsg _ _ _ _ _)
  | removeLiquidity =>
    simp only [List.mem_cons, List.not_mem_nil, or_false] at hm
    rcases hm with rfl | rfl | rfl <;> trivial
  | sellUsdc =>
    rcases List.mem_pair.mp hm with rfl | rfl <;> trivial
  | sellFury =>
    simp only [List.mem_cons, List.not_mem_nil, or_false] at hm
    rcases hm with rfl | rfl | rfl <;> trivial
  | addUsdc => cases hm
  | addFury =>
    rcases List.mem_singleton.mp hm with rfl
    trivial

/-- The messages of the pool leave its own state as the handler has saved it. -/
theorem exec_handler (hw : Wired d w) (h : exec d w (.pool block info msg) = some (w', r)) :
    ∃ q, execute q ⟨block, d.pool⟩ info w.pool msg = .ok (w'.pool, r) := by
  obtain ⟨hsender, _, _, -, heffect, -⟩ := exec_pool hw h
  unfold exec at h
  rw [if_neg (by exact hsender)] at h
  obtain ⟨bank, pool, -, hexec, hmsgs⟩ := callPool_eq_some.mp h
  have hown := (heffect.wired hw.pool).2
  have hpool : w'.pool = pool := (applyMessages_flows hown hsender hmsgs).pool
  rw [hpool]
  exact ⟨_, hexec⟩

end Deposits

end Fanfuryswap

namespace Fanfury

open CosmWasm Util

/-- What a bond of some FURY is recorded as, the discount added. -/
def withDiscount (cfg : Fanfurybonding.Config) (amount : ℕ) : ℕ :=
  amount * thousand / Uint64.sub thousand cfg.discount

/-- What a step adds to the reserve of FURY. -/
def furyDeposited (d : Deployment) (w : World) (l : Label) : ℕ :=
  (commit (step d) w l).chain.pool.token2.reserve - w.chain.pool.token2.reserve

/-- Whether an address gets a bond for what it deposits. -/
def Bonds (d : Deployment) (u : Addr) (cfg : Fanfuryswap.Config) : Prop :=
  u ≠ cfg.owner ∧ u ≠ cfg.treasuryAddress ∧ cfg.bondingContractAddress = d.swap.bonding

instance (d : Deployment) (u : Addr) (cfg : Fanfuryswap.Config) : Decidable (Bonds d u cfg) :=
  inferInstanceAs (Decidable (_ ∧ _))

/-- The bond that a step is to be recorded as for an address: that of twice the FURY that it
deposits. -/
def bondDue (d : Deployment) (u : Addr) (w : World) (l : Label) : ℕ :=
  match l with
  | .chain (.pool _ info (.addLiquidity _ _ _ _ _)) =>
    if info.sender = u ∧ Bonds d info.sender w.chain.pool.config then
      withDiscount w.bonding.config (furyDeposited d w l * 2)
    else 0
  | _ => 0

/-- What the bonding contract loses of its FURY as an address unbonds. -/
def unbonded (d : Deployment) (u : Addr) (w : World) (l : Label) : ℕ :=
  match l with
  | .bonding _ info .unbond =>
    if info.sender = u then
      w.chain.fury.balance d.swap.bonding -
        (commit (step d) w l).chain.fury.balance d.swap.bonding
    else 0
  | _ => 0

/-- The time of a step, in seconds; coins are sent at any time. -/
def Label.seconds : Label → ℕ
  | .chain (.pool block _ _) => block.time.seconds
  | .chain (.fury block _ _) => block.time.seconds
  | .chain (.lp block _ _) => block.time.seconds
  | .chain (.bank _ _ _) => 0
  | .gaming block _ _ => block.time.seconds
  | .bonding block _ _ => block.time.seconds
  | .staking block _ _ => block.time.seconds

/-- A step that adds liquidity to the pool. -/
def Label.isDeposit : Label → Bool
  | .chain (.pool _ _ (.addLiquidity _ _ _ _ _)) => true
  | _ => false

/-- When the step is an accepted deposit, the time that a bond is unlocked at is within 64 bits. -/
def LocksInRange (d : Deployment) (w : World) (l : Label) : Prop :=
  l.isDeposit ∧ (step d w l).isSome → l.seconds + w.bonding.config.lockSeconds < Uint64.bound

instance (d : Deployment) (w : World) (l : Label) : Decidable (LocksInRange d w l) :=
  inferInstanceAs (Decidable (_ → _))

/-- The bond that a step is to be recorded as for an address, when it is unlocked by the time
`t`. -/
def bondDueBy (d : Deployment) (u : Addr) (t : ℕ) (w : World) (l : Label) : ℕ :=
  if l.seconds + w.bonding.config.lockSeconds ≤ t then bondDue d u w l else 0

/-- What the bonding contract loses of its FURY by the time `t`. -/
def unbondedBy (d : Deployment) (u : Addr) (t : ℕ) (w : World) (l : Label) : ℕ :=
  if l.seconds ≤ t then unbonded d u w l else 0

section Pool

variable {d : Deployment} {block : BlockInfo} {info : MessageInfo}
  {x chain : Fanfuryswap.World} {r : Response Fanfuryswap.Payload} {msg : Fanfuryswap.ExecuteMsg}

theorem asBond_of_moves {m : CosmosMsg Fanfuryswap.Payload} (h : Fanfuryswap.Moves m) :
    asBond d block chain m = none := by
  unfold asBond
  split
  · cases h
  · rfl

/-- **What a deposit has recorded** is a bond of twice the FURY that joins the reserve. -/
theorem bonds_addLiquidity {t minLiquidity maxToken2 fee : ℕ} {expiration : Option Cw20.Expiration}
    (hw : Fanfuryswap.Wired d.swap x)
    (h : Fanfuryswap.exec d.swap x
      (.pool block info (.addLiquidity t minLiquidity maxToken2 fee expiration)) =
        some (chain, r)) :
    bonds d chain (.pool block info (.addLiquidity t minLiquidity maxToken2 fee expiration)) r =
      if Bonds d info.sender x.pool.config then
        [⟨bondingQuerier d chain, ⟨block, d.swap.bonding⟩, ⟨d.swap.pool, []⟩,
          .lpBond info.sender ((chain.pool.token2.reserve - x.pool.token2.reserve) * 2)⟩]
      else [] := by
  obtain ⟨q, hexec⟩ := Fanfuryswap.exec_handler hw h
  obtain ⟨moves, hmoves, hmsgs⟩ := Fanfuryswap.executeAddLiquidity_bonds hexec
  have hnone : moves.filterMap (asBond d block chain) = [] :=
    List.filterMap_eq_nil_iff.mpr fun m hm => asBond_of_moves (hmoves m hm)
  rw [bonds, hmsgs, List.filterMap_append, hnone, List.nil_append]
  by_cases houtside : info.sender ≠ x.pool.config.owner ∧
      info.sender ≠ x.pool.config.treasuryAddress
  · rw [if_pos houtside]
    by_cases hbonding : x.pool.config.bondingContractAddress = d.swap.bonding
    · rw [if_pos ⟨houtside.1, houtside.2, hbonding⟩, hbonding]
      simp [asBond]
    · rw [if_neg fun h => hbonding h.2.2]
      simp [asBond, hbonding]
  · rw [if_neg houtside, if_neg fun h => houtside ⟨h.1, h.2.1⟩]
    rfl

/-- Nothing else has a bond recorded. -/
theorem bonds_eq_nil (hw : Fanfuryswap.Wired d.swap x)
    (h : Fanfuryswap.exec d.swap x (.pool block info msg) = some (chain, r))
    (hmsg : ∀ t minLiquidity maxToken2 fee expiration,
      msg ≠ .addLiquidity t minLiquidity maxToken2 fee expiration) :
    bonds d chain (.pool block info msg) r = [] := by
  have hcalled := Fanfuryswap.exec_called hw h
  exact List.filterMap_eq_nil_iff.mpr fun m hm =>
    asBond_of_moves (hcalled.effect.moves hmsg m hm)

/-- The pool has nothing unbonded. -/
theorem bonds_ne_unbond {l : Fanfuryswap.Label} (hw : Fanfuryswap.Wired d.swap x)
    (h : Fanfuryswap.exec d.swap x l = some (chain, r)) :
    ∀ c ∈ bonds d chain l r, c.msg ≠ .unbond := by
  intro c hc
  cases l with
  | pool block info msg =>
    by_cases hmsg : ∀ t minLiquidity maxToken2 fee expiration,
        msg ≠ .addLiquidity t minLiquidity maxToken2 fee expiration
    · rw [bonds_eq_nil hw h hmsg] at hc
      cases hc
    · push Not at hmsg
      obtain ⟨t, minLiquidity, maxToken2, fee, expiration, rfl⟩ := hmsg
      rw [bonds_addLiquidity hw h] at hc
      split at hc
      · rw [List.mem_singleton.mp hc]
        exact nofun
      · cases hc
  | _ => cases hc

end Pool

section Steps

variable {d : Deployment} {w w' : World} {l : Label} {e : Events} {u : Addr}

theorem withDiscount_zero (cfg : Fanfurybonding.Config) : withDiscount cfg 0 = 0 := by
  rw [withDiscount, Nat.zero_mul, Nat.zero_div]

/-- A bond that the pool has recorded is recorded with the discount. -/
theorem bondedFor_lpBond {c : Fanfurybonding.Call} {address : Addr} {n : ℕ}
    {st st' : Fanfurybonding.Storage} {r : Response Cw20.ExecuteMsg}
    (hmsg : c.msg = .lpBond address n) (h : Fanfurybonding.exec st c = some (st', r)) :
    Fanfurybonding.bondedFor u st c = if address = u then withDiscount st.config n else 0 := by
  have hexec := Fanfurybonding.exec_eq_some.mp h
  rw [hmsg] at hexec
  obtain ⟨-, -, hexec⟩ := bind_eq_ok.mp hexec
  obtain ⟨-, hexec⟩ := refuse_bind_eq_ok.mp hexec
  obtain ⟨-, hexec⟩ := refuse_bind_eq_ok.mp hexec
  obtain ⟨-, hexec⟩ := refuse_bind_eq_ok.mp hexec
  obtain ⟨receiving, hreceiving, -⟩ := bind_eq_ok.mp hexec
  have hamount : Fanfurybonding.receivingAmount st c = receiving := by
    rw [Fanfurybonding.receivingAmount, hmsg]
    dsimp only
    rw [hreceiving]
    rfl
  obtain ⟨-, -, rfl⟩ := Fanfurybonding.receivingAmountOf_eq_ok.mp hreceiving
  rw [Fanfurybonding.bondedFor, Fanfurybonding.bonded_of_exec h, hamount,
    Fanfurybonding.Call.holder, hmsg, withDiscount]

/-- **One step** records the bond that is due, and nothing else. -/
theorem Step.bonds (h : Step d w l w' e) (hcommit : commit (step d) w l = w')
    (hw : Fanfuryswap.Wired d.swap w.chain)
    (hp : Fanfurybonding.ForPool d.swap.pool w.bonding) (u : Addr) :
    tally Fanfurybonding.exec (Fanfurybonding.bondedFor u) w.bonding e.bonding =
      bondDue d u w l := by
  cases h with
  | chain l chain r bonding hsender hexec hbonds =>
    cases l with
    | pool block info msg =>
      by_cases hmsg : ∀ t minLiquidity maxToken2 fee expiration,
          msg ≠ .addLiquidity t minLiquidity maxToken2 fee expiration
      · rw [bonds_eq_nil hw hexec hmsg, tally_nil]
        cases msg with
        | addLiquidity => exact absurd rfl (hmsg _ _ _ _ _)
        | _ => rfl
      · push Not at hmsg
        obtain ⟨t, minLiquidity, maxToken2, fee, expiration, rfl⟩ := hmsg
        have hdeposit : furyDeposited d w (.chain (.pool block info
            (.addLiquidity t minLiquidity maxToken2 fee expiration))) =
              chain.pool.token2.reserve - w.chain.pool.token2.reserve := by
          rw [furyDeposited, hcommit]
        rw [bonds_addLiquidity hw hexec] at hbonds ⊢
        rw [bondDue, hdeposit]
        by_cases hb : Bonds d info.sender w.chain.pool.config
        · rw [if_pos hb] at hbonds ⊢
          obtain ⟨mid, rb, hexecb, -⟩ := acceptAll_cons.mp hbonds
          rw [tally_singleton, bondedFor_lpBond rfl hexecb]
          exact if_congr (and_iff_left hb).symm rfl rfl
        · rw [if_neg hb, tally_nil, if_neg fun h => hb h.2]
    | _ => rfl
  | gaming => rfl
  | bonding block info msg paid chain bonding r labels hsender hpaid hexec hlabels hchain =>
    have hbond : ¬ msg.isBond := by
      intro hbond
      exact (Deployment.ne_of_not_mem hsender).1 (hp.of_isBond hexec hbond)
    rw [tally_singleton, Fanfurybonding.bondedFor_of_not_isBond hexec hbond]
    rfl
  | staking => rfl

theorem paidTo_of_ne_unbond {st : Fanfurybonding.Storage} {c : Fanfurybonding.Call}
    (h : c.msg ≠ .unbond) : Fanfurybonding.paidTo u st c = 0 := by
  unfold Fanfurybonding.paidTo
  split
  · rename_i hmsg _
    exact absurd hmsg h
  · rfl

/-- **The FURY of an unbonding** leaves the bonding contract. -/
theorem unbond_fury {q : Fanfurybonding.Querier} {block : BlockInfo} {info : MessageInfo}
    {st st' : Fanfurybonding.Storage} {r : Response Cw20.ExecuteMsg}
    {labels : List Fanfuryswap.Label} {paid chain : Fanfuryswap.World}
    (hexec : Fanfurybonding.exec st ⟨q, ⟨block, d.swap.bonding⟩, info, .unbond⟩ = some (st', r))
    (hlabels : r.messages.mapM (asLabel d block d.swap.bonding) = some labels)
    (hchain : acceptAll (Fanfuryswap.exec d.swap) paid labels = some chain)
    (hsender : info.sender ≠ d.swap.bonding) :
    chain.fury.balance d.swap.bonding +
        Fanfurybonding.paidTo info.sender st ⟨q, ⟨block, d.swap.bonding⟩, info, .unbond⟩ =
      paid.fury.balance d.swap.bonding := by
  have heffect := Fanfurybonding.exec_effect hexec
  rw [heffect.paidTo_eq hexec, if_pos ⟨rfl, rfl⟩]
  cases heffect with
  | bonds _ _ _ isBond => cases isBond
  | owns _ isOwners => cases isOwners
  | unbonds usdcAmount msg state response =>
    rw [response] at hlabels
    simp only [List.mapM_cons, List.mapM_nil, Option.pure_def, Option.bind_eq_bind,
      Option.bind_eq_some_iff] at hlabels
    obtain ⟨l₁, hl₁, rest, ⟨l₂, hl₂, rest', hrest', hrest⟩, hlabels⟩ := hlabels
    cases hrest'
    cases hrest
    cases hlabels
    simp only [transferTokenMessage, asLabel] at hl₁ hl₂
    split_ifs at hl₁
    cases hl₁
    cases hl₂
    -- the FURY is transferred first, and the coins leave it alone
    obtain ⟨mid, r₁, htransfer, hchain⟩ := acceptAll_cons.mp hchain
    have hcoins : acceptAll (Fanfuryswap.exec d.swap) mid [attach st.config.treasuryAddress
        ⟨d.swap.bonding, [⟨st.config.usdcDenom, usdcAmount⟩]⟩] = some chain := hchain
    obtain ⟨bank, -, rfl⟩ := attach_eq_some hcoins
    unfold Fanfuryswap.exec at htransfer
    split at htransfer
    · cases htransfer
    · simp only [Option.pure_def, Option.bind_eq_bind, Option.bind_eq_some_iff] at htransfer
      obtain ⟨⟨fury, r₂⟩, hfury, htransfer⟩ := htransfer
      cases htransfer
      obtain ⟨-, rcpt, hrcpt, hmoved, -⟩ := Cw20.executeTransfer_spec (toOption_eq_some.mp hfury)
      have hrcpt : rcpt = info.sender := d.swap.validate_eq _ _ hrcpt
      have hbonding := hmoved d.swap.bonding
      rw [if_pos rfl, hrcpt, if_neg (Ne.symm hsender), Nat.add_zero] at hbonding
      exact hbonding

/-- What a step pays for unbonding is what the bonding contract loses of its FURY. -/
theorem Step.unbonds (h : Step d w l w' e) (hcommit : commit (step d) w l = w')
    (hw : Fanfuryswap.Wired d.swap w.chain) (u : Addr) :
    tally Fanfurybonding.exec (Fanfurybonding.paidTo u) w.bonding e.bonding =
      unbonded d u w l := by
  cases h with
  | chain l chain r bonding hsender hexec hbonds =>
    -- the pool has bonds recorded, and unbonds nothing
    have hunbond : unbonded d u w (.chain l) = 0 := rfl
    rw [hunbond]
    exact tally_eq_zero fun y hy =>
      paidTo_of_ne_unbond (bonds_ne_unbond hw hexec y.2 (label_mem hy))
  | gaming => rfl
  | bonding block info msg paid chain bonding r labels hsender hpaid hexec hlabels hchain =>
    rw [tally_singleton]
    by_cases hmsg : msg = .unbond
    · subst hmsg
      have hne := (Deployment.ne_of_not_mem hsender).2.2.1
      have hfury := unbond_fury hexec hlabels hchain hne
      obtain ⟨bank, -, rfl⟩ := attach_eq_some hpaid
      have hunbonded : unbonded d u w (.bonding block info .unbond) = if info.sender = u then
          w.chain.fury.balance d.swap.bonding - chain.fury.balance d.swap.bonding else 0 := by
        rw [unbonded, hcommit]
      rw [hunbonded]
      by_cases hu : info.sender = u
      · rw [if_pos hu, ← hu]
        exact (Nat.sub_eq_of_eq_add (by rw [← hfury, Nat.add_comm])).symm
      · rw [if_neg hu, (Fanfurybonding.exec_effect hexec).paidTo_eq hexec, if_neg fun h => hu h.2]
    · rw [paidTo_of_ne_unbond hmsg]
      cases msg with
      | unbond => exact absurd rfl hmsg
      | _ => rfl
  | staking => rfl

/-- A step is at most one call of the bonding contract, at the time of the step, and one that bonds
only if the step is a deposit. -/
theorem Step.bonding_cases (h : Step d w l w' e) (hw : Fanfuryswap.Wired d.swap w.chain)
    (hp : Fanfurybonding.ForPool d.swap.pool w.bonding) :
    e.bonding = [] ∨ ∃ c, e.bonding = [c] ∧ c.env.block.time.seconds = l.seconds ∧
      (c.msg.isBond → l.isDeposit) := by
  cases h with
  | chain l chain r bonding hsender hexec hbonds =>
    cases l with
    | pool block info msg =>
      by_cases hmsg : ∀ t minLiquidity maxToken2 fee expiration,
          msg ≠ .addLiquidity t minLiquidity maxToken2 fee expiration
      · exact .inl (bonds_eq_nil hw hexec hmsg)
      · push Not at hmsg
        obtain ⟨t, minLiquidity, maxToken2, fee, expiration, rfl⟩ := hmsg
        rw [bonds_addLiquidity hw hexec]
        split
        · exact .inr ⟨_, rfl, rfl, fun _ => rfl⟩
        · exact .inl rfl
    | _ => exact .inl rfl
  | gaming => exact .inl rfl
  | bonding block info msg paid chain bonding r labels hsender hpaid hexec hlabels hchain =>
    -- only the pool may have a bond recorded
    refine .inr ⟨_, rfl, rfl, fun hbond => ?_⟩
    exact absurd (hp.of_isBond hexec hbond) (Deployment.ne_of_not_mem hsender).1
  | staking => exact .inl rfl

/-- What is counted of the calls at some times is counted of the steps at these times. -/
theorem Step.tally_if (h : Step d w l w' e) (hw : Fanfuryswap.Wired d.swap w.chain)
    (hp : Fanfurybonding.ForPool d.swap.pool w.bonding)
    (f : Fanfurybonding.Storage → Fanfurybonding.Call → ℕ) (p : Fanfurybonding.Storage → ℕ → Prop)
    [∀ st n, Decidable (p st n)] :
    tally Fanfurybonding.exec (fun st c => if p st c.env.block.time.seconds then f st c else 0)
        w.bonding e.bonding =
      if p w.bonding l.seconds then tally Fanfurybonding.exec f w.bonding e.bonding else 0 := by
  rcases h.bonding_cases hw hp with hnil | ⟨c, hc, hseconds, -⟩
  · rw [hnil, tally_nil, tally_nil, ite_self]
  · rw [hc, tally_singleton, tally_singleton, hseconds]

end Steps

section Runs

variable {d : Deployment} {w : World}

/-- The bonding contract takes bonds of the pool only, in every run. -/
theorem run_forPool (h : Deployed d w) (ls : List Label) :
    Fanfurybonding.ForPool d.swap.pool (run (step d) w ls).bonding := by
  obtain ⟨env, hbonding⟩ := h.bonding
  rw [← run_bonding]
  refine run_preserves (I := Fanfurybonding.ForPool d.swap.pool)
    (fun _ _ _ _ hp hexec => Fanfurybonding.exec_forPool hp hexec) ?_ _
  rw [hbonding]
  exact ⟨rfl, rfl⟩

/-- In every state of a run the pool is connected to its tokens, and has the bonds recorded. -/
theorem history_wired (h : Deployed d w) {ls : List Label} {x : World × Label}
    (hx : x ∈ history (step d) w ls) :
    Fanfuryswap.Wired d.swap x.1.chain ∧ Fanfurybonding.ForPool d.swap.pool x.1.bonding := by
  obtain ⟨before, after, -, hrun⟩ := mem_history hx
  rw [hrun]
  exact ⟨run_chain_wired h before, run_forPool h before⟩

theorem commit_bonding (x : World × Label) :
    run Fanfurybonding.exec x.1.bonding (events d x.1 x.2).bonding =
      (commit (step d) x.1 x.2).bonding :=
  commit_events d x.1 (g := World.bonding) (f := Events.bonding) rfl
    (fun _ _ _ _ hs => hs.accepts_bonding) x.2

/-- What is summed up over the calls of the bonding contract is summed up over the steps. -/
theorem tally_bonding {f : Fanfurybonding.Storage → Fanfurybonding.Call → ℕ}
    {g : World → Label → ℕ} (h : Deployed d w) (ls : List Label)
    (hzero : ∀ x l, step d x l = none → g x l = 0)
    (hstep : ∀ x l w' e, Step d x l w' e → commit (step d) x l = w' →
      Fanfuryswap.Wired d.swap x.chain → Fanfurybonding.ForPool d.swap.pool x.bonding →
        tally Fanfurybonding.exec f x.bonding e.bonding = g x l) :
    tally Fanfurybonding.exec f w.bonding
        (trace (step d) (fun w l => (events d w l).bonding) w ls) = tally (step d) g w ls := by
  refine tally_trace (g := World.bonding) (fun x _ => commit_bonding x) fun x hx => ?_
  obtain ⟨hwired, hpool⟩ := history_wired h hx
  rcases commit_cases (step d) x.1 x.2 with ⟨e, he⟩ | ⟨hnone, -⟩
  · rw [step_events d he]
    exact hstep _ _ _ _ (step_cases he) rfl hwired hpool
  · rw [hzero _ _ hnone, events, hnone]
    rfl

/-- Where the deposits lock their bonds in range, the bonding contract does. -/
theorem history_locksInRange (h : Deployed d w) (ls : List Label)
    (hrange : ∀ x ∈ history (step d) w ls, LocksInRange d x.1 x.2) :
    ∀ y ∈ history Fanfurybonding.exec w.bonding
      (trace (step d) (fun w l => (events d w l).bonding) w ls),
      Fanfurybonding.LocksInRange y.1 y.2 := by
  rintro y hy ⟨hbond, -⟩
  obtain ⟨x, hx, hyx⟩ := history_trace (g := World.bonding) (fun x _ => commit_bonding x) hy
  obtain ⟨hwired, hpool⟩ := history_wired h hx
  rcases commit_cases (step d) x.1 x.2 with ⟨e, he⟩ | ⟨hnone, -⟩
  · rw [step_events d he] at hyx
    rcases (step_cases he).bonding_cases hwired hpool with hnil | ⟨c, hc, hseconds, hdeposit⟩
    · rw [hnil] at hyx
      cases hyx
    · rw [hc, history_cons, history_nil, List.mem_singleton] at hyx
      subst hyx
      have hlt := hrange x hx ⟨hdeposit hbond, by rw [he]; rfl⟩
      rwa [← hseconds] at hlt
  · rw [events, hnone] at hyx
    cases hyx

theorem bondDue_of_none {x : World} {l : Label} (u : Addr) (h : step d x l = none) :
    bondDue d u x l = 0 := by
  unfold bondDue
  split
  · rw [furyDeposited, commit_of_none h, Nat.sub_self, Nat.zero_mul, withDiscount_zero, ite_self]
  · rfl

theorem unbonded_of_none {x : World} {l : Label} (u : Addr) (h : step d x l = none) :
    unbonded d u x l = 0 := by
  unfold unbonded
  split
  · rw [commit_of_none h, Nat.sub_self, ite_self]
  · rfl

end Runs

namespace Sample

/-- A block in which a bond of the first one is unlocked. -/
def laterBlock : BlockInfo := ⟨200, 1700604800000000000⟩

/-- A trader deposits FURY after the owner, and unbonds when its bond is unlocked. -/
def unlocked : List Label := [
  .chain Fanfuryswap.Sample.addLiquidity,
  .chain (.pool Fanfuryswap.Sample.block ⟨"trader", [⟨"uusd", 101⟩]⟩
    (.addLiquidity 100 0 200 1 none)),
  .chain (.fury Fanfuryswap.Sample.block ⟨"trader", []⟩ (.transfer "bonding" 1000)),
  .bonding laterBlock ⟨"trader", [⟨"uusd", 10⟩]⟩ .unbond]

end Sample

end Fanfury
