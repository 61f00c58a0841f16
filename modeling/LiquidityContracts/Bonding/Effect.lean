import LiquidityContracts.Accounting.CarryOver
import LiquidityContracts.Bonding.Contract
import LiquidityContracts.CosmWasm.Run

/-!
# What the bonding contract does

Two messages bond FURY, for the sender or for an address that the pool names, and differ only in
what they ask for it. One pays the records that are unlocked, and the others are the owner's. So an
accepted message has one of three effects, and what a run keeps is proved of these.

## Main definitions

* `Call`, `exec`: a message with the block and the answers it meets, and its effect
* `receivingAmount`: the FURY that a message records as bonded
* `Config.meter`: the counters of the contract as a meter
* `Effect`: what an accepted message does to the state, and what it pays

## Main results

* `checkDailyVestingAmount_spec`: the check of a bond spends from the meter
* `exec_effect`: every accepted message has its effect
-/

namespace Fanfurybonding

open CosmWasm Util Accounting

/-- A message as the contract receives it: the answers to its queries, the block, the sender and
the funds. -/
structure Call where
  q : Querier
  env : Env
  info : MessageInfo
  msg : ExecuteMsg

/-- The effect of a call; `none` when it is reverted. -/
def exec (st : Storage) (c : Call) : Option (Storage × Response Cw20.ExecuteMsg) :=
  (execute c.q c.env c.info st c.msg).toOption

/-- The day on which a call is received. -/
def Call.day (c : Call) : ℕ := Fanfurybonding.day c.env.block.time.seconds

/-- For whom a bond is recorded. -/
def Call.holder (c : Call) : Addr :=
  match c.msg with
  | .lpBond address _ => address
  | _ => c.info.sender

/-- The FURY that a message records as bonded when it is accepted. -/
def receivingAmount (st : Storage) (c : Call) : ℕ :=
  match c.msg with
  | .bond amount => (bondReceivingAmount c.q st.config amount).toOption.getD 0
  | .lpBond _ amount =>
    (receivingAmountOf st.config amount : Exec ContractError ℕ).toOption.getD 0
  | _ => 0

/-- The records of an address. -/
def Storage.records (st : Storage) (u : Addr) : List BondingRecord := (st.bonding[u]?).getD []

theorem records_of_get {st : Storage} {u : Addr} {list : List BondingRecord}
    (h : st.bonding[u]? = some list) : st.records u = list := by
  rw [Storage.records, h]
  rfl

/-- When a bond made by a call is to be unlocked. -/
def Call.unlock (c : Call) (st : Storage) : ℕ := c.env.block.time.seconds + st.config.lockSeconds

/-- The timestamp that a bond made by a call is recorded with: 64 bits of that time. -/
def Call.timestamp (c : Call) (st : Storage) : ℕ :=
  Uint64.add c.env.block.time.seconds st.config.lockSeconds

/-- What the records unlocked at a time in `p` amount to. -/
def amountIn (p : ℕ → Bool) (records : List BondingRecord) : ℕ :=
  ((records.filter fun b => p b.timestamp).map (·.amount)).sum

/-- The counters as a meter. -/
def Config.meter (cfg : Config) : Meter where
  carried := cfg.cumulatedAmount
  used := cfg.dailyCurrentBondAmount
  lastDay := day cfg.lastTimestamp

/-- Whether a message is one that bonds. -/
def ExecuteMsg.isBond : ExecuteMsg → Bool
  | .bond _ => true
  | .lpBond _ _ => true
  | _ => false

/-- Whether a message is one of the owner's. -/
def ExecuteMsg.isOwners : ExecuteMsg → Bool
  | .updateOwner _ | .updateEnabled _ | .updateConfig .. | .withdraw _ => true
  | _ => false

/-- **What an accepted message does.** -/
inductive Effect (c : Call) (st st' : Storage) (r : Response Cw20.ExecuteMsg) : Prop where
  /-- A bond spends what it records from the meter. -/
  | bonds (cumulatedAmount dailyCurrentBondAmount lastTimestamp : ℕ) (isBond : c.msg.isBond)
      (state : st' =
        { config := { st.config with cumulatedAmount, dailyCurrentBondAmount, lastTimestamp }
          bonding := st.bonding.insert c.holder
            (st.records c.holder ++ [⟨receivingAmount st c, c.timestamp st⟩]) })
      (spends : st.config.meter.spend st.config.dailyVestingAmount c.day (receivingAmount st c) =
        some st'.config.meter)
  /-- An unbonding pays the unlocked records and keeps the others. -/
  | unbonds (usdcAmount : ℕ) (msg : c.msg = .unbond)
      (state : st' = { st with
        bonding := st.bonding.insert c.info.sender
          ((st.records c.info.sender).filter fun b => c.env.block.time.seconds < b.timestamp) })
      (response : r = { messages :=
        [transferTokenMessage id (.cw20 st.config.furyTokenAddress)
            (amountIn (· ≤ c.env.block.time.seconds) (st.records c.info.sender)) c.info.sender,
          transferTokenMessage id (.native st.config.usdcDenom) usdcAmount
            st.config.treasuryAddress] })
  /-- A message of the owner rewrites the configuration, the owner's address and the counters
  apart. -/
  | owns (config : Config) (isOwners : c.msg.isOwners) (sender : c.info.sender = st.config.owner)
      (owner : config.owner = st.config.owner) (meter : config.meter = st.config.meter)
      (state : st' = { st with config })

section Steps

variable {q : Querier} {env : Env} {info : MessageInfo} {st st' : Storage} {c : Call}
  {r : Response Cw20.ExecuteMsg} {t a lock : ℕ} {address : Addr}

theorem executeBond_spec (h : executeBond q env info st a = .ok (st', r)) :
    ∃ receiving st₁, bondReceivingAmount q st.config a = .ok receiving ∧
      checkDailyVestingAmount st env.block.time.seconds receiving = .ok st₁ ∧
      st' = pushBond st₁ env st.config.lockSeconds info.sender receiving := by
  unfold executeBond at h
  obtain ⟨-, -, h⟩ := bind_eq_ok.mp h
  obtain ⟨-, h⟩ := refuse_bind_eq_ok.mp h
  obtain ⟨usdcAmount, -, h⟩ := bind_eq_ok.mp h
  obtain ⟨-, h⟩ := refuse_bind_eq_ok.mp h
  obtain ⟨feeScaled, -, h⟩ := bind_eq_ok.mp h
  obtain ⟨feeAmount, -, h⟩ := bind_eq_ok.mp h
  obtain ⟨required, -, h⟩ := bind_eq_ok.mp h
  obtain ⟨-, h⟩ := refuse_bind_eq_ok.mp h
  obtain ⟨receiving, hreceiving, h⟩ := bind_eq_ok.mp h
  obtain ⟨st₁, hcheck, h⟩ := bind_eq_ok.mp h
  cases pure_eq_ok.mp h
  exact ⟨receiving, st₁, hreceiving, hcheck, rfl⟩

theorem executeLpBond_spec {address : Addr} (h : executeLpBond env info st address a = .ok (st', r)) :
    ∃ receiving st₁, receivingAmountOf st.config a = (.ok receiving : Exec ContractError ℕ) ∧
      checkDailyVestingAmount st env.block.time.seconds receiving = .ok st₁ ∧
      st' = pushBond st₁ env st.config.lockSeconds address receiving := by
  unfold executeLpBond at h
  obtain ⟨-, -, h⟩ := bind_eq_ok.mp h
  obtain ⟨-, h⟩ := refuse_bind_eq_ok.mp h
  obtain ⟨-, h⟩ := refuse_bind_eq_ok.mp h
  obtain ⟨-, h⟩ := refuse_bind_eq_ok.mp h
  obtain ⟨receiving, hreceiving, h⟩ := bind_eq_ok.mp h
  obtain ⟨st₁, hcheck, h⟩ := bind_eq_ok.mp h
  cases pure_eq_ok.mp h
  exact ⟨receiving, st₁, hreceiving, hcheck, rfl⟩

theorem exec_eq_some : exec st c = some (st', r) ↔ execute c.q c.env c.info st c.msg = .ok (st', r) := by
  rw [exec, toOption_eq_some]

theorem checkOwner_eq_ok : (checkOwner st u : Exec ContractError Unit) = .ok () ↔
    u = st.config.owner := by
  rw [checkOwner, refuse_eq_ok, not_not]
  exact eq_comm

theorem checkEnabled_eq_ok : (checkEnabled st : Exec ContractError Unit) = .ok () ↔
    st.config.enabled = true := by
  rw [checkEnabled, refuse_eq_ok, Bool.not_eq_false]

/-- A new day moves the meter to it, and changes nothing but the counters. -/
theorem startDay_spec {cfg cfg' : Config}
    (h : (startDay cfg t : Exec ContractError Config) = .ok cfg') :
    ∃ cumulatedAmount dailyCurrentBondAmount,
      cfg' = { cfg with cumulatedAmount, dailyCurrentBondAmount } ∧
        { cfg' with lastTimestamp := t }.meter =
          cfg.meter.advance cfg.dailyVestingAmount (day t) := by
  unfold startDay at h
  by_cases hday : day t = day cfg.lastTimestamp
  · rw [if_neg (not_not_intro hday)] at h
    obtain rfl := pure_eq_ok.mp h
    refine ⟨_, _, rfl, ?_⟩
    rw [Meter.advance, if_pos (show day t = cfg.meter.lastDay from hday), Config.meter, hday]
    rfl
  · rw [if_pos hday] at h
    obtain ⟨cumulated, hcumulated, h⟩ := bind_eq_ok.mp h
    obtain rfl := pure_eq_ok.mp h
    refine ⟨_, _, rfl, ?_⟩
    rw [Meter.advance, if_neg (show ¬ day t = cfg.meter.lastDay from hday)]
    -- a day that overspent leaves the credit as it is, which is what the truncated `-` says
    have hcredit :
        cumulated = cfg.cumulatedAmount + (cfg.dailyVestingAmount - cfg.dailyCurrentBondAmount) := by
      split at hcumulated
      · obtain ⟨left, hleft, hadd⟩ := bind_eq_ok.mp hcumulated
        rw [(Uint128.add_eq_ok.mp hadd).2, (Uint128.sub_eq_ok.mp hleft).2]
      · rw [← pure_eq_ok.mp hcumulated]
        omega
    rw [hcredit]
    rfl

/-- The check spends the amount from the meter, and changes nothing but the counters. -/
theorem checkDailyVestingAmount_spec
    (h : (checkDailyVestingAmount st t a : Exec ContractError Storage) = .ok st') :
    ∃ cumulatedAmount dailyCurrentBondAmount lastTimestamp,
      st' = { st with
        config := { st.config with cumulatedAmount, dailyCurrentBondAmount, lastTimestamp } } ∧
      st.config.meter.spend st.config.dailyVestingAmount (day t) a = some st'.config.meter := by
  unfold checkDailyVestingAmount at h
  obtain ⟨cfg, hcfg, h⟩ := bind_eq_ok.mp h
  obtain ⟨sum, hsum, h⟩ := bind_eq_ok.mp h
  obtain ⟨allowed, hallowed, h⟩ := bind_eq_ok.mp h
  obtain ⟨hle, h⟩ := refuse_bind_eq_ok.mp h
  obtain rfl := pure_eq_ok.mp h
  obtain ⟨-, rfl⟩ := Uint128.add_eq_ok.mp hsum
  obtain ⟨-, rfl⟩ := Uint128.add_eq_ok.mp hallowed
  obtain ⟨cumulated, current, rfl, hmeter⟩ := startDay_spec hcfg
  refine ⟨_, _, _, rfl, ?_⟩
  -- the amount is within what the day allows on top of the credit
  rw [Meter.spend, ← hmeter]
  exact if_pos (not_lt.mp hle)

/-- The two parts that a bond of either kind ends with. -/
theorem pushBond_of_check {st₁ : Storage}
    (hcheck : (checkDailyVestingAmount st t a : Exec ContractError Storage) = .ok st₁)
    (hpush : st' = pushBond st₁ env lock address a) :
    ∃ cumulatedAmount dailyCurrentBondAmount lastTimestamp,
      st' = { config := { st.config with cumulatedAmount, dailyCurrentBondAmount, lastTimestamp }
              bonding := st.bonding.insert address
                (st.records address ++ [⟨a, Uint64.add env.block.time.seconds lock⟩]) } ∧
      st.config.meter.spend st.config.dailyVestingAmount (day t) a = some st'.config.meter := by
  obtain ⟨cumulated, current, last, rfl, hspend⟩ := checkDailyVestingAmount_spec hcheck
  subst hpush
  exact ⟨cumulated, current, last, rfl, hspend⟩

/-- The loop that sums up skips the records that are locked. -/
theorem unlockedAmount_eq_ok {records : List BondingRecord} {n : ℕ}
    (h : (unlockedAmount records t : Exec ContractError ℕ) = .ok n) :
    n = amountIn (· ≤ t) records := by
  have hloop : ∀ (m : ℕ), records.foldlM (fun sum item =>
      if t < item.timestamp then (return sum : Exec ContractError ℕ)
      else Uint128.add sum item.amount) m = .ok n → n = m + amountIn (· ≤ t) records := by
    clear h
    -- the sum so far is general, since the loop passes it on
    induction records with
    | nil =>
      intro m h
      exact (pure_eq_ok.mp h).symm
    | cons b records ih =>
      intro m h
      rw [List.foldlM_cons] at h
      obtain ⟨sum, hsum, h⟩ := bind_eq_ok.mp h
      rw [ih sum h, amountIn, amountIn, List.filter_cons]
      split at hsum
      -- a locked record leaves the sum as it is
      · rename_i hlocked
        obtain rfl := pure_eq_ok.mp hsum
        rw [if_neg (by simpa using hlocked)]
      · rename_i hlocked
        rw [(Uint128.add_eq_ok.mp hsum).2, if_pos (by simpa using hlocked), List.map_cons,
          List.sum_cons, Nat.add_assoc]
  rw [hloop 0 h, Nat.zero_add]

/-- What is paid is the sum of that loop. -/
theorem getBondState_unbondAmount {cfg : Config} {records : List BondingRecord} {price : ℕ}
    {bondState : BondStateResponse}
    (h : getBondState cfg records price t address = .ok bondState) :
    bondState.unbondAmount = amountIn (· ≤ t) records := by
  unfold getBondState at h
  obtain ⟨unbondAmount, hunbond, h⟩ := bind_eq_ok.mp h
  obtain ⟨feeAmount, -, h⟩ := bind_eq_ok.mp h
  obtain rfl := pure_eq_ok.mp h
  exact unlockedAmount_eq_ok hunbond

/-- **One step**: every accepted message has its effect. -/
theorem exec_effect (h : exec st c = some (st', r)) : Effect c st st' r := by
  have hexec := exec_eq_some.mp h
  obtain ⟨q, env, info, msg⟩ := c
  cases msg with
  -- the two bonds differ in what they ask for the amount only
  | bond amount =>
    obtain ⟨receiving, st₁, hreceiving, hcheck, hpush⟩ := executeBond_spec hexec
    obtain ⟨cumulated, current, last, rfl, hspend⟩ := pushBond_of_check hcheck hpush
    refine .bonds cumulated current last rfl ?_ ?_
    · simp [receivingAmount, hreceiving, Except.toOption, Call.holder, Call.timestamp]
    · simpa [receivingAmount, hreceiving, Except.toOption, Call.day] using hspend
  | lpBond address amount =>
    obtain ⟨receiving, st₁, hreceiving, hcheck, hpush⟩ := executeLpBond_spec hexec
    obtain ⟨cumulated, current, last, rfl, hspend⟩ := pushBond_of_check hcheck hpush
    refine .bonds cumulated current last rfl ?_ ?_
    · simp [receivingAmount, hreceiving, Except.toOption, Call.holder, Call.timestamp]
    · simpa [receivingAmount, hreceiving, Except.toOption, Call.day] using hspend
  -- `UpdateOwner` saves the configuration it has read
  | updateOwner owner =>
    obtain ⟨⟨⟩, hsender, hexec⟩ := bind_eq_ok.mp hexec
    cases pure_eq_ok.mp hexec
    exact .owns _ rfl (checkOwner_eq_ok.mp hsender) rfl rfl rfl
  | updateEnabled enabled =>
    obtain ⟨⟨⟩, hsender, hexec⟩ := bind_eq_ok.mp hexec
    cases pure_eq_ok.mp hexec
    exact .owns { st.config with enabled } rfl (checkOwner_eq_ok.mp hsender) rfl rfl rfl
  | updateConfig treasuryAddress lockSeconds discount txFee platformFee vesting =>
    obtain ⟨⟨⟩, hsender, hexec⟩ := bind_eq_ok.mp hexec
    cases pure_eq_ok.mp hexec
    exact .owns { st.config with
        treasuryAddress, lockSeconds, discount, txFee, platformFee, dailyVestingAmount := vesting }
      rfl (checkOwner_eq_ok.mp hsender) rfl rfl rfl
  | unbond =>
    simp only [execute, executeUnbond] at hexec
    obtain ⟨-, -, hexec⟩ := bind_eq_ok.mp hexec
    obtain ⟨list, hlist, hexec⟩ := bind_eq_ok.mp hexec
    obtain ⟨price, -, hexec⟩ := bind_eq_ok.mp hexec
    obtain ⟨bondState, hstate, hexec⟩ := bind_eq_ok.mp hexec
    obtain ⟨-, hexec⟩ := refuse_bind_eq_ok.mp hexec
    obtain ⟨usdcAmount, -, hexec⟩ := bind_eq_ok.mp hexec
    obtain ⟨-, hexec⟩ := refuse_bind_eq_ok.mp hexec
    obtain ⟨furyBalance, -, hexec⟩ := bind_eq_ok.mp hexec
    obtain ⟨-, hexec⟩ := refuse_bind_eq_ok.mp hexec
    cases pure_eq_ok.mp hexec
    -- the list that is loaded are the records of the sender
    have hrecords : st.records info.sender = list := records_of_get (load_eq_ok.mp hlist)
    rw [getBondState_unbondAmount hstate, ← hrecords]
    exact .unbonds usdcAmount rfl rfl rfl
  | withdraw amount =>
    simp only [execute, executeWithdraw] at hexec
    obtain ⟨⟨⟩, hsender, hexec⟩ := bind_eq_ok.mp hexec
    obtain ⟨furyBalance, -, hexec⟩ := bind_eq_ok.mp hexec
    obtain ⟨-, hexec⟩ := refuse_bind_eq_ok.mp hexec
    cases pure_eq_ok.mp hexec
    exact .owns _ rfl (checkOwner_eq_ok.mp hsender) rfl rfl rfl

/-- The owner bonds nothing. -/
theorem not_isBond_of_isOwners {msg : ExecuteMsg} (h : msg.isOwners) : ¬ msg.isBond := by
  cases msg with
  | bond | lpBond | unbond => cases h
  | updateOwner | updateEnabled | updateConfig | withdraw => exact Bool.false_ne_true

theorem not_unbond_of_isOwners {msg : ExecuteMsg} (h : msg.isOwners) : msg ≠ .unbond := by
  rintro rfl
  cases h

theorem not_unbond_of_isBond {msg : ExecuteMsg} (h : msg.isBond) : msg ≠ .unbond := by
  rintro rfl
  cases h

theorem receivingAmount_of_not_isBond (h : ¬ c.msg.isBond) (st : Storage) :
    receivingAmount st c = 0 := by
  obtain ⟨q, env, info, msg⟩ := c
  cases msg with
  | bond | lpBond => exact absurd rfl h
  | updateOwner | updateEnabled | updateConfig | unbond | withdraw => rfl

end Steps

end Fanfurybonding
