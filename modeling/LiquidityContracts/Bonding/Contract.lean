import LiquidityContracts.Token.Util

/-!
# The bonding contract

`fanfurybonding` sells FURY at a discount against a lock: a bond, paid in USDC or made by the
liquidity pool, records an amount of FURY that its holder may take out once the lock is over. How
much may be bonded in a day is bounded by an allowance, and what a day leaves unused is carried
over.

## Main definitions

* `Config`, `Storage`, `ExecuteMsg`: the contract's state and messages
* `checkDailyVestingAmount`: the daily allowance
* `getBondState`: what a holder may take out, and the fee for it
* `instantiate`, `execute`: the entry points
-/

namespace Fanfurybonding

open CosmWasm Cw20 Util

structure Config where
  owner : Addr
  poolAddress : Addr
  treasuryAddress : Addr
  furyTokenAddress : Addr
  lockSeconds : ℕ
  discount : ℕ
  usdcDenom : String
  isNativeBonding : Bool
  txFee : ℕ
  platformFee : ℕ
  enabled : Bool
  dailyVestingAmount : ℕ
  cumulatedAmount : ℕ
  dailyCurrentBondAmount : ℕ
  lastTimestamp : ℕ
  deriving DecidableEq, Repr

/-- FURY bonded until `timestamp`, in seconds. -/
structure BondingRecord where
  amount : ℕ
  timestamp : ℕ
  deriving DecidableEq, Repr

/-- The stored items; `CONFIG` is there once the contract is instantiated. -/
structure Storage where
  config : Config
  bonding : Store Addr (List BondingRecord) := ∅

structure InstantiateMsg where
  owner : Addr
  poolAddress : Addr
  treasuryAddress : Addr
  furyTokenAddress : Addr
  usdcDenom : String
  lockSeconds : ℕ
  discount : ℕ
  txFee : ℕ
  platformFee : ℕ
  dailyVestingAmount : ℕ
  isNativeBonding : Bool
  deriving DecidableEq, Repr

inductive ExecuteMsg where
  | updateOwner (owner : Addr)
  | updateEnabled (enabled : Bool)
  | updateConfig (treasuryAddress : Addr) (lockSeconds discount txFee platformFee : ℕ)
      (dailyVestingAmount : ℕ)
  | bond (amount : ℕ)
  | lpBond (address : Addr) (amount : ℕ)
  | unbond
  | withdraw (amount : ℕ)
  deriving DecidableEq, Repr

inductive ContractError where
  | std (e : StdError)
  | unauthorized
  | disabled
  | nothingToUnbond
  | insufficientFury
  | maxBondingExceed
  | insufficientFee
  | notAllowedBondingType
  | nativeInputZero
  | cw20InputZero
  | tokenTypeMismatch
  deriving DecidableEq, Repr

instance : OfStdError ContractError := ⟨.std⟩

instance : UtilError ContractError := ⟨.nativeInputZero, .cw20InputZero, .tokenTypeMismatch⟩

/-- What the contract asks of the pool and of the FURY token, named by their addresses. -/
structure Querier where
  token1ForToken2Price : Addr → ℕ → Except StdError ℕ
  token2ForToken1Price : Addr → ℕ → Except StdError ℕ
  tokenBalance : Addr → Addr → Except StdError ℕ

/-- What `BondState` reports. -/
structure BondStateResponse where
  address : Addr
  list : List BondingRecord
  unbondAmount : ℕ
  feeAmount : ℕ
  deriving DecidableEq, Repr

/-- `instantiate`. -/
def instantiate (env : Env) (msg : InstantiateMsg) : Storage where
  config :=
    { owner := msg.owner
      poolAddress := msg.poolAddress
      treasuryAddress := msg.treasuryAddress
      furyTokenAddress := msg.furyTokenAddress
      lockSeconds := msg.lockSeconds
      discount := msg.discount
      usdcDenom := msg.usdcDenom
      isNativeBonding := msg.isNativeBonding
      txFee := msg.txFee
      platformFee := msg.platformFee
      enabled := true
      dailyVestingAmount := msg.dailyVestingAmount
      cumulatedAmount := 0
      dailyCurrentBondAmount := 0
      lastTimestamp := env.block.time.seconds }

/-- `check_enabled`. -/
def checkEnabled (st : Storage) : Exec ContractError Unit :=
  refuse (st.config.enabled = false) .disabled

/-- `check_owner`. -/
def checkOwner (st : Storage) (address : Addr) : Exec ContractError Unit :=
  refuse (st.config.owner ≠ address) .disabled

/-- The day a timestamp in seconds falls on. -/
def day (timestamp : ℕ) : ℕ := timestamp / 86400

/-- The configuration with the counters of the day of `timestamp`: on a new day the allowance
that the last active day left is carried over, and the day's own counter starts at zero. -/
def startDay (cfg : Config) (timestamp : ℕ) : Exec ContractError Config :=
  if day timestamp ≠ day cfg.lastTimestamp then do
    let cumulated ← (
      if cfg.dailyCurrentBondAmount ≤ cfg.dailyVestingAmount then do
        let left ← Uint128.sub cfg.dailyVestingAmount cfg.dailyCurrentBondAmount
        Uint128.add cfg.cumulatedAmount left
      else pure cfg.cumulatedAmount)
    return { cfg with cumulatedAmount := cumulated, dailyCurrentBondAmount := 0 }
  else return cfg

/-- `check_daily_vesting_amount`. -/
def checkDailyVestingAmount (st : Storage) (timestamp receivingAmount : ℕ) :
    Exec ContractError Storage := do
  let cfg ← startDay st.config timestamp
  let bonded ← Uint128.add cfg.dailyCurrentBondAmount receivingAmount
  let allowed ← Uint128.add cfg.dailyVestingAmount cfg.cumulatedAmount
  refuse (allowed < bonded) .maxBondingExceed
  return { st with
    config := { cfg with lastTimestamp := timestamp, dailyCurrentBondAmount := bonded } }

/-- Record `amount` for `address`, locked for the configured time. -/
def pushBond (st : Storage) (env : Env) (lockSeconds : ℕ) (address : Addr) (amount : ℕ) :
    Storage :=
  let list := (st.bonding[address]?).getD []
  let timestamp := Uint64.add env.block.time.seconds lockSeconds
  { st with bonding := st.bonding.insert address (list ++ [⟨amount, timestamp⟩]) }

/-- The FURY a bond of `furyAmount` is recorded as, the discount added. -/
def receivingAmountOf (cfg : Config) (furyAmount : ℕ) : Exec ContractError ℕ := do
  let scaled ← Uint128.mul furyAmount thousand
  let rest := Uint64.sub thousand cfg.discount
  Uint128.div scaled rest

section Handlers

variable (q : Querier) (env : Env) (info : MessageInfo) (st : Storage)

/-- `execute_update_owner`. -/
def executeUpdateOwner (_owner : Addr) : Exec ContractError (Storage × Response Cw20.ExecuteMsg) := do
  checkOwner st info.sender
  -- the configuration is loaded and saved as it is; the argument only reaches the attributes
  return (st, {})

/-- `execute_update_enabled`. -/
def executeUpdateEnabled (enabled : Bool) :
    Exec ContractError (Storage × Response Cw20.ExecuteMsg) := do
  checkOwner st info.sender
  return ({ st with config := { st.config with enabled := enabled } }, {})

/-- `execute_update_config`. -/
def executeUpdateConfig (treasuryAddress : Addr) (lockSeconds discount txFee platformFee : ℕ)
    (dailyVestingAmount : ℕ) : Exec ContractError (Storage × Response Cw20.ExecuteMsg) := do
  checkOwner st info.sender
  return ({ st with config := { st.config with
    treasuryAddress := treasuryAddress
    lockSeconds := lockSeconds
    discount := discount
    txFee := txFee
    platformFee := platformFee
    dailyVestingAmount := dailyVestingAmount } }, {})

/-- The FURY that `execute_bond` records for `amount` of USDC: the pool's price, the discount
added. -/
def bondReceivingAmount (cfg : Config) (amount : ℕ) : Exec ContractError ℕ := do
  let token2Amount ← liftStd (q.token1ForToken2Price cfg.poolAddress amount)
  receivingAmountOf cfg token2Amount

/-- `execute_bond`. -/
def executeBond (amount : ℕ) : Exec ContractError (Storage × Response Cw20.ExecuteMsg) := do
  checkEnabled st
  let cfg := st.config
  refuse (cfg.isNativeBonding = false) .notAllowedBondingType
  let usdcAmount ← getAmountOfDenom (.native info.funds) (.native cfg.usdcDenom)
  refuse (usdcAmount = 0) .nativeInputZero
  let fees := Uint64.add cfg.platformFee cfg.txFee
  let feeScaled ← Uint128.mul amount fees
  let feeAmount ← Uint128.div feeScaled thousand
  let required ← Uint128.add feeAmount amount
  refuse (usdcAmount < required) .insufficientFee
  let receivingAmount ← bondReceivingAmount q cfg amount
  let st ← checkDailyVestingAmount st env.block.time.seconds receivingAmount
  let st := pushBond st env cfg.lockSeconds info.sender receivingAmount
  return (st, { messages :=
    [transferTokenMessage id (.native cfg.usdcDenom) usdcAmount cfg.treasuryAddress] })

/-- `execute_lp_bond`. -/
def executeLpBond (address : Addr) (amount : ℕ) :
    Exec ContractError (Storage × Response Cw20.ExecuteMsg) := do
  checkEnabled st
  let cfg := st.config
  refuse (info.sender ≠ cfg.poolAddress) .unauthorized
  refuse (amount = 0) .cw20InputZero
  refuse (cfg.isNativeBonding = true) .notAllowedBondingType
  let receivingAmount ← receivingAmountOf cfg amount
  let st ← checkDailyVestingAmount st env.block.time.seconds receivingAmount
  let st := pushBond st env cfg.lockSeconds address receivingAmount
  return (st, {})

/-- The amount of the records whose lock is over at `now`. -/
def unlockedAmount (list : List BondingRecord) (now : ℕ) : Exec ContractError ℕ :=
  list.foldlM (fun sum item =>
    if now < item.timestamp then return sum else Uint128.add sum item.amount) 0

/-- `get_bond_state`. -/
def getBondState (cfg : Config) (list : List BondingRecord) (usdcPrice currentTimestamp : ℕ)
    (address : Addr) : Exec ContractError BondStateResponse := do
  let unbondAmount ← unlockedAmount list currentTimestamp
  let feeAmount ← (
    if 0 < unbondAmount then do
      let value ← Uint128.mul usdcPrice unbondAmount
      let fees := Uint64.add cfg.platformFee cfg.txFee
      let scaled ← Uint128.mul value fees
      let perThousand ← Uint128.div scaled thousand
      Uint128.div perThousand normalDecimal
    else pure 0)
  return { address, list, unbondAmount, feeAmount }

/-- `get_usdc_price`. -/
def getUsdcPrice (cfg : Config) : Exec ContractError ℕ :=
  liftStd (q.token2ForToken1Price cfg.poolAddress normalDecimal)

/-- `execute_unbond`. -/
def executeUnbond : Exec ContractError (Storage × Response Cw20.ExecuteMsg) := do
  checkEnabled st
  let cfg := st.config
  let list ← load "Vec<BondingRecord>" (st.bonding[info.sender]?)
  let price ← getUsdcPrice q cfg
  let bondState ← getBondState cfg list price env.block.time.seconds info.sender
  refuse (bondState.unbondAmount = 0) .nothingToUnbond
  let newList := list.filter fun item => env.block.time.seconds < item.timestamp
  let st := { st with bonding := st.bonding.insert info.sender newList }
  let usdcAmount ← getAmountOfDenom (.native info.funds) (.native cfg.usdcDenom)
  refuse (usdcAmount < bondState.feeAmount) .insufficientFee
  let furyBalance ← liftStd (q.tokenBalance cfg.furyTokenAddress env.contractAddress)
  refuse (furyBalance < bondState.unbondAmount) .insufficientFury
  return (st, { messages :=
    [transferTokenMessage id (.cw20 cfg.furyTokenAddress) bondState.unbondAmount info.sender,
      transferTokenMessage id (.native cfg.usdcDenom) usdcAmount cfg.treasuryAddress] })

/-- `execute_withdraw`. -/
def executeWithdraw (amount : ℕ) : Exec ContractError (Storage × Response Cw20.ExecuteMsg) := do
  checkOwner st info.sender
  let cfg := st.config
  let furyBalance ← liftStd (q.tokenBalance cfg.furyTokenAddress env.contractAddress)
  refuse (furyBalance < amount) .insufficientFury
  return (st, { messages :=
    [transferTokenMessage id (.cw20 cfg.furyTokenAddress) amount info.sender] })

/-- `execute`. -/
def execute : ExecuteMsg → Exec ContractError (Storage × Response Cw20.ExecuteMsg)
  | .updateOwner owner => executeUpdateOwner info st owner
  | .updateEnabled enabled => executeUpdateEnabled info st enabled
  | .updateConfig treasuryAddress lockSeconds discount txFee platformFee dailyVestingAmount =>
    executeUpdateConfig info st treasuryAddress lockSeconds discount txFee platformFee
      dailyVestingAmount
  | .bond amount => executeBond q env info st amount
  | .lpBond address amount => executeLpBond env info st address amount
  | .unbond => executeUnbond q env info st
  | .withdraw amount => executeWithdraw q env info st amount

end Handlers

end Fanfurybonding
