import LiquidityContracts.Bonding.Contract

/-!
# The liquidity pool

`fanfuryswap` keeps a reserve of USDC, a native coin, and one of FURY, a cw20 token. Liquidity is
added and removed against a token of its own, and a swap is priced by the constant product of the
reserves less a fee of three per mille; a platform fee in USDC is passed on to the treasury.

## Main definitions

* `Token`, `Config`, `Storage`, `ExecuteMsg`: the contract's state and messages
* `getInputPrice`: what a swap pays out
* `instantiate`, `reply`, `execute`: the entry points
-/

namespace Fanfuryswap

open CosmWasm Cw20 Util

structure Token where
  reserve : ℕ
  denom : Denom
  deriving DecidableEq, Repr

structure Config where
  owner : Addr
  bondingCodeId : ℕ
  bondingContractAddress : Addr
  furyTokenAddress : Addr
  treasuryAddress : Addr
  usdcDenom : String
  txFee : ℕ
  platformFee : ℕ
  lockSeconds : ℕ
  discount : ℕ
  dailyVestingAmount : ℕ
  deriving DecidableEq, Repr

/-- The stored items; `LP_TOKEN` is there once the token of the pool is instantiated. -/
structure Storage where
  config : Config
  token1 : Token
  token2 : Token
  lpToken : Option Addr := none
  deriving DecidableEq, Repr

structure InstantiateMsg where
  lpTokenCodeId : ℕ
  bondingCodeId : ℕ
  owner : Addr
  treasuryAddress : Addr
  furyTokenAddress : Addr
  usdcDenom : String
  lockSeconds : ℕ
  discount : ℕ
  txFee : ℕ
  platformFee : ℕ
  dailyVestingAmount : ℕ
  deriving DecidableEq, Repr

inductive TokenSelect where
  | token1
  | token2
  deriving DecidableEq, Repr

inductive ExecuteMsg where
  | updateConfig (owner bondingContractAddress treasuryAddress : Addr)
  | addLiquidity (token1Amount minLiquidity maxToken2 feeAmount : ℕ)
      (expiration : Option Expiration)
  | addToken (inputToken : TokenSelect) (amount : ℕ)
  | removeLiquidity (amount minToken1 minToken2 : ℕ) (expiration : Option Expiration)
  | swap (inputToken : TokenSelect) (inputAmount minOutput feeAmount : ℕ)
      (expiration : Option Expiration)
  deriving DecidableEq, Repr

/-- The reply to a submessage: its id, and the address of the contract it created unless the
data cannot be parsed. -/
structure Reply where
  id : ℕ
  contractAddress : Option String
  deriving DecidableEq, Repr

inductive ContractError where
  | std (e : StdError)
  | unauthorized
  | minLiquidityError (minLiquidity liquidityAvailable : ℕ)
  | maxTokenError (maxToken tokensRequired : ℕ)
  | insufficientLiquidityError (requested available : ℕ)
  | minToken1Error (requested available : ℕ)
  | minToken2Error (requested available : ℕ)
  | incorrectNativeDenom (provided required : String)
  | swapMinError (min available : ℕ)
  | msgExpirationError
  | insufficientFunds
  | insufficientFee
  | unknownReplyId (id : ℕ)
  | instantiateLpTokenError
  deriving DecidableEq, Repr

instance : OfStdError ContractError := ⟨.std⟩

/-- The messages to other contracts. -/
inductive Payload where
  | cw20 (msg : Cw20.ExecuteMsg)
  | bonding (msg : Fanfurybonding.ExecuteMsg)
  | newToken (msg : Cw20.InstantiateMsg)
  | newBonding (msg : Fanfurybonding.InstantiateMsg)
  deriving DecidableEq, Repr

/-- What the contract asks of the token of the pool, named by its address. -/
structure Querier where
  totalSupply : Addr → Except StdError ℕ
  tokenBalance : Addr → Addr → Except StdError ℕ

/-- `INSTANTIATE_LP_TOKEN_REPLY_ID`. -/
def instantiateLpTokenReplyId : ℕ := 0

/-- `INSTANTIATE_BONDING_ID`. -/
def instantiateBondingId : ℕ := 1

/-- `instantiate`. -/
def instantiate (env : Env) (msg : InstantiateMsg) : Storage × Response Payload :=
  ({ config :=
      { owner := msg.owner
        bondingCodeId := msg.bondingCodeId
        bondingContractAddress := msg.owner
        furyTokenAddress := msg.furyTokenAddress
        treasuryAddress := msg.treasuryAddress
        usdcDenom := msg.usdcDenom
        txFee := msg.txFee
        platformFee := msg.platformFee
        lockSeconds := msg.lockSeconds
        discount := msg.discount
        dailyVestingAmount := msg.dailyVestingAmount }
     token1 := ⟨0, .native msg.usdcDenom⟩
     token2 := ⟨0, .cw20 msg.furyTokenAddress⟩ },
    { submessages := [(instantiateLpTokenReplyId,
        .wasmInstantiate none msg.lpTokenCodeId
          (.newToken
            { name := "FanFurySwap_Liquidity_Token"
              symbol := "ffslpt"
              decimals := 6
              initialBalances := []
              mint := some ⟨env.contractAddress, none⟩ }) [] "lp_token")] })

/-! ## Amounts -/

/-- `check_expiration`. -/
def checkExpiration (expiration : Option Expiration) (block : BlockInfo) :
    Exec ContractError Unit :=
  refuse (∃ e ∈ expiration, e.isExpired block) .msgExpirationError

/-- `get_lp_token_amount_to_mint`. -/
def getLpTokenAmountToMint (token1Amount liquiditySupply token1Reserve : ℕ) :
    Exec ContractError ℕ :=
  if liquiditySupply = 0 then return token1Amount
  else do
    let scaled ← Uint128.checkedMul token1Amount liquiditySupply
    Uint128.checkedDiv scaled token1Reserve

/-- `get_token2_amount_required`. -/
def getToken2AmountRequired
    (maxToken token1Amount liquiditySupply token2Reserve token1Reserve : ℕ) :
    Exec ContractError ℕ :=
  if liquiditySupply = 0 then return maxToken
  else do
    let scaled ← Uint128.checkedMul token1Amount token2Reserve
    let share ← Uint128.checkedDiv scaled token1Reserve
    Uint128.checkedAdd share 1

/-- `get_input_price`. -/
def getInputPrice {ε : Type} [OfStdError ε] (inputAmount inputReserve outputReserve : ℕ) :
    Exec ε ℕ := do
  refuseGeneric (inputReserve = 0 ∨ outputReserve = 0) "No liquidity"
  let inputAmountWithFee ← Uint128.checkedMul inputAmount 997
  let numerator ← Uint128.checkedMul inputAmountWithFee outputReserve
  let scaledReserve ← Uint128.checkedMul inputReserve 1000
  let denominator ← Uint128.checkedAdd scaledReserve inputAmountWithFee
  Uint128.checkedDiv numerator denominator

/-- `get_amount_for_denom`. -/
def getAmountForDenom (coins : List Coin) (denom : String) : Exec ContractError Coin := do
  let amount ← (coins.filter fun c => c.denom = denom).foldlM
    (fun sum c => Uint128.add sum c.amount) 0
  return { denom, amount }

/-- `validate_input_amount`: nothing is checked of a cw20 token. -/
def validateInputAmount (actualFunds : List Coin) (givenAmount : ℕ) (givenDenom : Denom) :
    Exec ContractError Unit :=
  match givenDenom with
  | .cw20 _ => return ()
  | .native denom => do
    let actual ← getAmountForDenom actualFunds denom
    refuse (actual.amount ≠ givenAmount) .insufficientFunds
    refuse (actual.denom ≠ denom) (.incorrectNativeDenom actual.denom denom)

/-- The part of `amount` that the platform and transaction fees take, in per mille. -/
def platformFeeOf (cfg : Config) (amount : ℕ) : Exec ContractError ℕ := do
  let fees := Uint64.add cfg.platformFee cfg.txFee
  let scaled ← Uint128.mul amount fees
  Uint128.div scaled thousand

/-! ## Messages -/

/-- `get_cw20_transfer_from_msg`. -/
def getCw20TransferFromMsg (owner recipient tokenAddr : Addr) (tokenAmount : ℕ) :
    CosmosMsg Payload :=
  .wasmExecute tokenAddr (.cw20 (.transferFrom owner recipient tokenAmount)) []

/-- `get_cw20_transfer_to_msg`. -/
def getCw20TransferToMsg (recipient tokenAddr : Addr) (tokenAmount : ℕ) : CosmosMsg Payload :=
  .wasmExecute tokenAddr (.cw20 (.transfer recipient tokenAmount)) []

/-- `get_bank_transfer_to_msg`. -/
def getBankTransferToMsg (recipient : Addr) (denom : String) (nativeAmount : ℕ) :
    CosmosMsg Payload :=
  .bankSend recipient [⟨denom, nativeAmount⟩]

/-- `mint_lp_tokens`. -/
def mintLpTokens (recipient : Addr) (liquidityAmount : ℕ) (lpTokenAddress : Addr) :
    CosmosMsg Payload :=
  .wasmExecute lpTokenAddress (.cw20 (.mint recipient liquidityAmount)) []

/-- `get_burn_msg`. -/
def getBurnMsg (contract owner : Addr) (amount : ℕ) : CosmosMsg Payload :=
  .wasmExecute contract (.cw20 (.burnFrom owner amount)) []

/-- The messages that pull an amount of a token into the contract: none for a native coin, which
is attached to the call. -/
def pullMessages (denom : Denom) (owner contract : Addr) (amount : ℕ) :
    List (CosmosMsg Payload) :=
  match denom with
  | .cw20 addr => [getCw20TransferFromMsg owner contract addr amount]
  | .native _ => []

/-- The message that pays an amount of a token out. -/
def payMessage (denom : Denom) (recipient : Addr) (amount : ℕ) : CosmosMsg Payload :=
  match denom with
  | .cw20 addr => getCw20TransferToMsg recipient addr amount
  | .native denom => getBankTransferToMsg recipient denom amount

/-- The message that returns what was attached of a native second token beyond the amount
required. -/
def refundMessages (denom : Denom) (recipient : Addr) (maxToken2 token2Amount : ℕ) :
    List (CosmosMsg Payload) :=
  match denom with
  | .cw20 _ => []
  | .native denom =>
    if token2Amount < maxToken2 then
      [getBankTransferToMsg recipient denom (maxToken2 - token2Amount)]
    else []

/-! ## State -/

namespace Storage

/-- The stored token that a selection names. -/
def token (st : Storage) : TokenSelect → Token
  | .token1 => st.token1
  | .token2 => st.token2

/-- Store a reserve of the token that a selection names. -/
def setReserve (st : Storage) (reserve : ℕ) : TokenSelect → Storage
  | .token1 => { st with token1 := { st.token1 with reserve := reserve } }
  | .token2 => { st with token2 := { st.token2 with reserve := reserve } }

end Storage

/-- The token a swap pays out in. -/
def TokenSelect.other : TokenSelect → TokenSelect
  | .token1 => .token2
  | .token2 => .token1

section Handlers

variable (q : Querier) (env : Env) (info : MessageInfo) (st : Storage)

/-- `execute_update_config`. -/
def executeUpdateConfig (owner bondingContractAddress treasuryAddress : Addr) :
    Exec ContractError (Storage × Response Payload) := do
  refuse (info.sender ≠ st.config.owner) .unauthorized
  return ({ st with config := { st.config with
    owner := owner
    bondingContractAddress := bondingContractAddress
    treasuryAddress := treasuryAddress } }, {})

/-- `execute_add_liquidity`. -/
def executeAddLiquidity (minLiquidity token1Amount maxToken2 feeAmount : ℕ)
    (expiration : Option Expiration) : Exec ContractError (Storage × Response Payload) := do
  checkExpiration expiration env.block
  let lpTokenAddr ← load "Addr" st.lpToken
  let attached ← Uint128.add token1Amount feeAmount
  validateInputAmount info.funds attached st.token1.denom
  validateInputAmount info.funds maxToken2 st.token2.denom
  let lpTokenSupply ← liftStd (q.totalSupply lpTokenAddr)
  let liquidityAmount ← getLpTokenAmountToMint token1Amount lpTokenSupply st.token1.reserve
  let token2Amount ← getToken2AmountRequired maxToken2 token1Amount lpTokenSupply
    st.token2.reserve st.token1.reserve
  refuse (liquidityAmount < minLiquidity) (.minLiquidityError minLiquidity liquidityAmount)
  refuse (maxToken2 < token2Amount) (.maxTokenError maxToken2 token2Amount)
  let reserve1 ← Uint128.add st.token1.reserve token1Amount
  let reserve2 ← Uint128.add st.token2.reserve token2Amount
  let fees := Uint64.add st.config.platformFee st.config.txFee
  let scaled ← Uint128.mul token1Amount fees
  let doubled ← Uint128.mul scaled 2
  let required ← Uint128.div doubled thousand
  refuse (feeAmount < required) .insufficientFee
  let bondMsgs ← (
    -- the owner and the treasury hold the token of the pool, anyone else gets a bond
    if info.sender ≠ st.config.owner ∧ info.sender ≠ st.config.treasuryAddress then do
      let bonded ← Uint128.mul token2Amount 2
      pure [.wasmExecute st.config.bondingContractAddress
        (.bonding (.lpBond info.sender bonded)) []]
    else pure [])
  return ((st.setReserve reserve1 .token1).setReserve reserve2 .token2,
    { messages :=
      pullMessages st.token1.denom info.sender env.contractAddress token1Amount ++
        pullMessages st.token2.denom info.sender env.contractAddress token2Amount ++
        refundMessages st.token2.denom info.sender maxToken2 token2Amount ++
        [transferTokenMessage .cw20 st.token1.denom feeAmount st.config.treasuryAddress,
          mintLpTokens st.config.owner liquidityAmount lpTokenAddr] ++ bondMsgs })

/-- `execute_remove_liquidity`. -/
def executeRemoveLiquidity (amount minToken1 minToken2 : ℕ) (expiration : Option Expiration) :
    Exec ContractError (Storage × Response Payload) := do
  checkExpiration expiration env.block
  let lpTokenAddr ← load "Addr" st.lpToken
  let balance ← liftStd (q.tokenBalance lpTokenAddr info.sender)
  let lpTokenSupply ← liftStd (q.totalSupply lpTokenAddr)
  refuse (balance < amount) (.insufficientLiquidityError amount balance)
  let scaled1 ← Uint128.checkedMul amount st.token1.reserve
  let token1Amount ← Uint128.checkedDiv scaled1 lpTokenSupply
  refuse (token1Amount < minToken1) (.minToken1Error minToken1 token1Amount)
  let scaled2 ← Uint128.checkedMul amount st.token2.reserve
  let token2Amount ← Uint128.checkedDiv scaled2 lpTokenSupply
  refuse (token2Amount < minToken2) (.minToken2Error minToken2 token2Amount)
  let reserve1 ← Uint128.checkedSub st.token1.reserve token1Amount
  let reserve2 ← Uint128.checkedSub st.token2.reserve token2Amount
  return ((st.setReserve reserve1 .token1).setReserve reserve2 .token2, { messages :=
    [payMessage st.token1.denom info.sender token1Amount,
      payMessage st.token2.denom info.sender token2Amount,
      getBurnMsg lpTokenAddr info.sender amount] })

/-- The check of what is attached to a swap. The fee of a swap of the second token is looked for
in the second token. -/
def validateSwapFunds (inputToken : TokenSelect) (inputAmount feeAmount : ℕ) :
    Exec ContractError Unit :=
  match inputToken with
  | .token1 => do
    let attached ← Uint128.add inputAmount feeAmount
    validateInputAmount info.funds attached (st.token inputToken).denom
  | .token2 => validateInputAmount info.funds feeAmount (st.token inputToken).denom

/-- The amount of USDC that the fee of a swap is a part of. -/
def feeBase (inputToken : TokenSelect) (inputAmount tokenBought : ℕ) : ℕ :=
  match inputToken with
  | .token1 => inputAmount
  | .token2 => tokenBought

/-- `execute_swap`. -/
def executeSwap (inputAmount : ℕ) (inputToken : TokenSelect) (recipient : Addr)
    (minToken feeAmount : ℕ) (expiration : Option Expiration) :
    Exec ContractError (Storage × Response Payload) := do
  checkExpiration expiration env.block
  let input := st.token inputToken
  let output := st.token inputToken.other
  validateSwapFunds info st inputToken inputAmount feeAmount
  let tokenBought ← getInputPrice inputAmount input.reserve output.reserve
  refuse (tokenBought < minToken) (.swapMinError minToken tokenBought)
  let required ← platformFeeOf st.config (feeBase inputToken inputAmount tokenBought)
  refuse (feeAmount < required) .insufficientFee
  let inputReserve ← Uint128.checkedAdd input.reserve inputAmount
  let outputReserve ← Uint128.checkedSub output.reserve tokenBought
  return ((st.setReserve inputReserve inputToken).setReserve outputReserve inputToken.other,
    { messages :=
      pullMessages input.denom info.sender env.contractAddress inputAmount ++
        [payMessage output.denom recipient tokenBought,
          transferTokenMessage .cw20 (.native st.config.usdcDenom) feeAmount
            st.config.treasuryAddress] })

/-- `execute_add_token`. -/
def executeAddToken (inputToken : TokenSelect) (amount : ℕ) :
    Exec ContractError (Storage × Response Payload) := do
  refuse (st.config.owner ≠ info.sender) .unauthorized
  let input := st.token inputToken
  match inputToken with
  | .token1 => validateInputAmount info.funds amount input.denom
  | .token2 => pure ()
  let reserve ← Uint128.checkedAdd input.reserve amount
  return (st.setReserve reserve inputToken,
    { messages := pullMessages input.denom info.sender env.contractAddress amount })

/-- `execute`. -/
def execute : ExecuteMsg → Exec ContractError (Storage × Response Payload)
  | .updateConfig owner bondingContractAddress treasuryAddress =>
    executeUpdateConfig info st owner bondingContractAddress treasuryAddress
  | .addLiquidity token1Amount minLiquidity maxToken2 feeAmount expiration =>
    executeAddLiquidity q env info st minLiquidity token1Amount maxToken2 feeAmount expiration
  | .removeLiquidity amount minToken1 minToken2 expiration =>
    executeRemoveLiquidity q env info st amount minToken1 minToken2 expiration
  | .swap inputToken inputAmount minOutput feeAmount expiration =>
    executeSwap env info st inputAmount inputToken info.sender minOutput feeAmount expiration
  | .addToken inputToken amount => executeAddToken env info st inputToken amount

end Handlers

/-- The bonding contract that the pool creates, by its configuration. -/
def newBonding (pool : Addr) (cfg : Config) : Fanfurybonding.InstantiateMsg where
  owner := cfg.owner
  poolAddress := pool
  treasuryAddress := cfg.treasuryAddress
  furyTokenAddress := cfg.furyTokenAddress
  lockSeconds := cfg.lockSeconds
  discount := cfg.discount
  usdcDenom := cfg.usdcDenom
  isNativeBonding := false
  txFee := cfg.txFee
  platformFee := cfg.platformFee
  dailyVestingAmount := cfg.dailyVestingAmount

/-- `reply`. -/
def reply (api : Api) (env : Env) (st : Storage) (msg : Reply) :
    Exec ContractError (Storage × Response Payload) := do
  refuse (msg.id ≠ instantiateLpTokenReplyId ∧ msg.id ≠ instantiateBondingId)
    (.unknownReplyId msg.id)
  match msg.contractAddress with
  | none => fail .instantiateLpTokenError
  | some contractAddress =>
    if msg.id = instantiateLpTokenReplyId then do
      let cw20Addr ← validate api contractAddress
      let cfg := st.config
      return ({ st with lpToken := some cw20Addr },
        { submessages := [(instantiateBondingId,
            .wasmInstantiate (some cfg.owner) cfg.bondingCodeId
              (.newBonding (newBonding env.contractAddress cfg)) [] "USDC_Fury_LP_Bonding")] })
    else do
      let bondingAddr ← validate api contractAddress
      return ({ st with config := { st.config with bondingContractAddress := bondingAddr } }, {})

/-! ## Queries -/

/-- `query_token1_for_token2_price`. -/
def queryToken1ForToken2Price (st : Storage) (token1Amount : ℕ) : Exec StdError ℕ :=
  getInputPrice token1Amount st.token1.reserve st.token2.reserve

/-- `query_token2_for_token1_price`. -/
def queryToken2ForToken1Price (st : Storage) (token2Amount : ℕ) : Exec StdError ℕ :=
  getInputPrice token2Amount st.token2.reserve st.token1.reserve

end Fanfuryswap
