import LiquidityContracts.Gaming.State

/-!
# The gaming pool

The handlers of `gamingpool`. The admin sets up types of pools, creates pools, locks or cancels
the game and hands out rewards; gamers bid, and claim refunds and rewards.

## Main definitions

* `gamePoolBidSubmit`: the entry of a team
* `claimReward`, `claimRefund`: what a gamer gets, over all pools
* `gamePoolRewardDistribute`: a batch of rewards
* `instantiate`, `execute`, `reply`: the entry points
-/

namespace Gamingpool

open CosmWasm Util

/-- `instantiate`. -/
def instantiate (api : Api) (msg : InstantiateMsg) : Exec ContractError Storage := do
  let adminAddress ← validate api msg.adminAddress
  let furyTokenAddress ← validate api msg.furyTokenAddress
  let platformFeesCollectorWallet ← validate api msg.platformFeesCollectorWallet
  let poolAddress ← validate api msg.poolAddress
  return {
    config :=
      { adminAddress
        furyTokenAddress
        platformFeesCollectorWallet
        poolAddress
        platformFee := msg.platformFee
        transactionFee := msg.transactionFee
        gameId := msg.gameId
        usdcIbcSymbol := msg.usdcIbcSymbol }
    gameDetails := (∅ : Store String GameDetails).insert msg.gameId
      { gameId := msg.gameId, gameStatus := gamePoolOpen } }

/-! ## State -/

section Records

variable (st : Storage)

/-- The game that the contract is about. -/
def loadGame : Exec ContractError GameDetails :=
  match st.gameDetails[st.config.gameId]? with
  | some game => return game
  | none => failGeneric "Game status cannot be retrieved"

/-- Save the game with a status. -/
def Storage.setGameStatus (gameStatus : ℕ) : Storage :=
  { st with
    gameDetails := st.gameDetails.insert st.config.gameId
      { gameId := st.config.gameId, gameStatus } }

/-- `query_pool_details`. -/
def queryPoolDetails (poolId : String) : Exec ContractError PoolDetails :=
  match st.poolDetails[poolId]? with
  | some pool => return pool
  | none => failGeneric "No pool details found"

/-- `save_team_details`. -/
def saveTeamDetails (poolTeamDetails : Teams) (gamer poolId teamId gameId poolType : String)
    (rewardAmount : ℕ) (claimedReward : Bool) (refundAmount : ℕ) (claimedRefund : Bool)
    (teamPoints teamRank : ℕ) : Teams :=
  let teams := (poolTeamDetails[(poolId, gamer)]?).getD []
  poolTeamDetails.insert (poolId, gamer) (teams ++
    [{ gamerAddress := gamer
       gameId
       poolType
       poolId
       teamId
       rewardAmount
       claimedReward
       refundAmount
       claimedRefund
       teamPoints
       teamRank }])

end Records

/-! ## Fees -/

/-- `query_platform_fees`. -/
def queryPlatformFees (poolFee platformFeesPercentage transactionFeePercentage : ℕ) :
    Exec ContractError FeeDetails := do
  let platformScaled ← Uint128.checkedMul poolFee platformFeesPercentage
  let platformFee ← Uint128.checkedDiv platformScaled hundredPercent
  let transactionScaled ← Uint128.checkedMul poolFee transactionFeePercentage
  let transactionFee ← Uint128.checkedDiv transactionScaled hundredPercent
  return { platformFee, transactionFee }

/-- The fee that the pool asks for a swap worth an amount of USDC. -/
def swapFeeOf (swapConfig : FanfuryswapConfigResponse) (amount : ℕ) : Exec ContractError ℕ := do
  let fees := Uint64.add swapConfig.platformFee swapConfig.txFee
  let scaled ← Uint128.mul amount fees
  Uint128.div scaled thousand

/-! ## The state of the game -/

section Game

variable (st : Storage) (pools : Store String PoolDetails) (poolId : String)

/-- A pool and its type, as `cancel_game` and `lock_game` load them. -/
def loadPoolAndType : Exec ContractError (PoolDetails × PoolTypeDetails) :=
  match pools[poolId]? with
  | none => failGeneric "No pool details found for pool"
  | some pool =>
    match st.poolTypeDetails[pool.poolType]? with
    | none => failGeneric "No pool type details found for pool"
    | some poolType => return (pool, poolType)

/-- The round of `cancel_game` for a pool. -/
def cancelPool : Exec ContractError (Store String PoolDetails) := do
  let (pool, _) ← loadPoolAndType st pools poolId
  return pools.insert poolId { pool with poolRefundStatus := true }

/-- The round of `lock_game` for a pool: one with too few teams is refunded. -/
def lockPool : Exec ContractError (Store String PoolDetails) := do
  let (pool, poolType) ← loadPoolAndType st pools poolId
  if poolType.minTeamsForPool ≤ pool.currentTeamsCount then return pools
  else return pools.insert poolId { pool with poolRefundStatus := true }

end Game

/-! ## Claims -/

/-- A team whose reward is claimed. -/
def PoolTeamDetails.claimReward (team : PoolTeamDetails) : PoolTeamDetails :=
  { team with claimedReward := true }

/-- A team whose refund is claimed. -/
def PoolTeamDetails.claimRefund (refundAmount : ℕ) (team : PoolTeamDetails) : PoolTeamDetails :=
  { team with refundAmount := refundAmount, claimedRefund := true }

/-- The round of `claim_reward` for a team: what has not been claimed is added to the reward. -/
def claimTeamReward (acc : List PoolTeamDetails × ℕ) (team : PoolTeamDetails) :
    Exec ContractError (List PoolTeamDetails × ℕ) :=
  if team.claimedReward then return (acc.1 ++ [team], acc.2)
  else do
    let userReward ← Uint128.add acc.2 team.rewardAmount
    return (acc.1 ++ [team.claimReward], userReward)

/-- The round of `claim_refund` for a team: the fee of the pool's type is added to the refund. -/
def claimTeamRefund (refundAmount : ℕ) (acc : List PoolTeamDetails × ℕ) (team : PoolTeamDetails) :
    Exec ContractError (List PoolTeamDetails × ℕ) := do
  refuse (team.claimedRefund = true) .refundAlreadyClaimed
  let totalRefundAmount ← Uint128.add acc.2 refundAmount
  return (acc.1 ++ [team.claimRefund refundAmount], totalRefundAmount)

/-- Save the updated teams of a gamer, if there are any. -/
def saveUpdated (poolTeamDetails : Teams) (poolId gamer : String)
    (updatedDetails : List PoolTeamDetails) : Teams :=
  if updatedDetails = [] then poolTeamDetails
  else poolTeamDetails.insert (poolId, gamer) updatedDetails

/-- The round of `claim_reward` for a pool. -/
def claimPoolReward (st : Storage) (gamer : String) (acc : Teams × ℕ) (poolId : String) :
    Exec ContractError (Teams × ℕ) :=
  match st.poolDetails[poolId]? with
  | none => return acc
  | some poolDetails =>
    if poolDetails.poolRewardStatus = false then return acc
    else match acc.1[(poolId, gamer)]? with
      | none => return acc
      | some teams => do
        let (updatedDetails, userReward) ← teams.foldlM claimTeamReward ([], acc.2)
        return (saveUpdated acc.1 poolId gamer updatedDetails, userReward)

/-- The round of `claim_refund` for a pool. -/
def claimPoolRefund (st : Storage) (gamer : String) (acc : Teams × ℕ) (poolId : String) :
    Exec ContractError (Teams × ℕ) :=
  match st.poolDetails[poolId]? with
  | none => return acc
  | some poolDetails =>
    if poolDetails.poolRefundStatus = false then return acc
    else do
      let poolType ← load "PoolTypeDetails" (st.poolTypeDetails[poolDetails.poolType]?)
      match acc.1[(poolId, gamer)]? with
      | none => return acc
      | some teams => do
        let (updatedDetails, totalRefundAmount) ←
          teams.foldlM (claimTeamRefund poolType.poolFee) ([], acc.2)
        return (saveUpdated acc.1 poolId gamer updatedDetails, totalRefundAmount)

/-! ## Rewards -/

/-- A winner is named by gamer, team and game. -/
def GameResult.Names (gameId : String) (winner : GameResult) (team : PoolTeamDetails) : Prop :=
  team.gamerAddress = winner.gamerAddress ∧ team.teamId = winner.teamId ∧ team.gameId = gameId

instance (gameId : String) (winner : GameResult) (team : PoolTeamDetails) :
    Decidable (winner.Names gameId team) :=
  inferInstanceAs (Decidable (_ ∧ _ ∧ _))

/-- A winner's reward replaces that of the team it names. -/
def rewardTeam (gameId : String) (team : PoolTeamDetails) (acc : PoolTeamDetails × ℕ)
    (winner : GameResult) : Exec ContractError (PoolTeamDetails × ℕ) :=
  if winner.Names gameId team then do
    let rewardGivenSoFar ← Uint128.add acc.2 winner.rewardAmount
    return ({ acc.1 with rewardAmount := winner.rewardAmount }, rewardGivenSoFar)
  else return acc

/-- A team gets the rewards of the winners that name it. -/
def rewardListed (gameId : String) (gameWinners : List GameResult)
    (acc : List PoolTeamDetails × ℕ) (team : PoolTeamDetails) :
    Exec ContractError (List PoolTeamDetails × ℕ) := do
  let (updatedTeam, rewardGivenSoFar) ←
    gameWinners.foldlM (rewardTeam gameId team) (team, acc.2)
  return (acc.1 ++ [updatedTeam], rewardGivenSoFar)

/-- The round of `game_pool_reward_distribute` for a winner: all teams of the gamer in the pool
get their rewards. -/
def rewardWinner (gameId poolId : String) (gameWinners : List GameResult) (acc : Teams × ℕ)
    (winner : GameResult) : Exec ContractError (Teams × ℕ) :=
  match acc.1[(poolId, winner.gamerAddress)]? with
  | none => return acc
  | some allTeams => do
    let (updatedTeams, rewardGivenSoFar) ←
      allTeams.foldlM (rewardListed gameId gameWinners) ([], acc.2)
    return (acc.1.insert (poolId, winner.gamerAddress) updatedTeams, rewardGivenSoFar)

/-- The share of a rake wallet. -/
def rakeTransfer (ustForRake : ℕ) (wallet : WalletPercentage) : WalletTransferDetails where
  walletAddress := wallet.walletAddress
  amount := Uint128.divOrZero (Uint128.mulOrZero ustForRake wallet.percentage) 100

/-- `_transfer_to_multiple_wallets`. -/
def transferToMultipleWallets (st : Storage) (walletDetails : List WalletTransferDetails) :
    Response Payload :=
  { messages := walletDetails.map fun wallet =>
      .bankSend wallet.walletAddress [⟨st.config.usdcIbcSymbol, wallet.amount⟩] }

/-! ## Handlers -/

/-- `pool_id.parse::<u64>()`: digits, after a plus sign or none. -/
def parseU64 (s : String) : Option ℕ :=
  let digits := match s.toList with
    | '+' :: cs => cs
    | cs => cs
  if digits = [] ∨ digits.all Char.isDigit = false then none
  else
    let n := Nat.ofDigitChars 10 digits 0
    if n < Uint64.bound then some n else none

section Handlers

variable (api : Api) (q : Querier) (env : Env) (info : MessageInfo) (st : Storage)

/-- The check that the admin calls. -/
def adminOnly : Exec ContractError Unit :=
  refuse (info.sender ≠ st.config.adminAddress) (.unauthorizedInvoker info.sender)

/-- `set_platform_fee_wallets`. -/
def setPlatformFeeWallets (walletPercentages : List WalletPercentage) :
    Exec ContractError (Storage × Response Payload) := do
  adminOnly info st
  return ({ st with
    platformWalletPercentages := walletPercentages.foldl
      (fun wallets wp => wallets.insert wp.walletName wp) st.platformWalletPercentages }, {})

/-- `set_pool_type_params`. -/
def setPoolTypeParams (poolType : String)
    (poolFee minTeamsForPool maxTeamsForPool maxTeamsForGamer : ℕ)
    (walletPercentages : List WalletPercentage) :
    Exec ContractError (Storage × Response Payload) := do
  adminOnly info st
  refuseGeneric (st.poolTypeDetails[poolType]?.isSome) "Pool type already set"
  return ({ st with
    poolTypeDetails := st.poolTypeDetails.insert poolType
      { poolType, minTeamsForPool, maxTeamsForPool, maxTeamsForGamer, poolFee
        rakeList := walletPercentages } }, {})

/-- `cancel_game`. -/
def cancelGame : Exec ContractError (Storage × Response Payload) := do
  adminOnly info st
  let game ← loadGame st
  refuseGeneric (game.gameStatus = gameCompleted) "Cant cancel game as it is already over"
  refuseGeneric (game.gameStatus = gameCancelled) "Cant cancel game as it is already cancelled"
  let poolDetails ← st.poolDetails.keys.foldlM (cancelPool st) st.poolDetails
  return ({ st.setGameStatus gameCancelled with poolDetails }, {})

/-- `lock_game`. -/
def lockGame : Exec ContractError (Storage × Response Payload) := do
  adminOnly info st
  let game ← loadGame st
  refuseGeneric (game.gameStatus ≠ gamePoolOpen)
    "Cant lock this game as it is not open for bidding"
  let poolDetails ← st.poolDetails.keys.foldlM (lockPool st) st.poolDetails
  return ({ st.setGameStatus gamePoolClosed with poolDetails }, {})

/-- `create_pool`: the type need not be set up. -/
def createPool (poolType : String) : Exec ContractError (Storage × Response Payload) := do
  adminOnly info st
  let game ← loadGame st
  refuseGeneric (game.gameStatus ≠ gamePoolOpen) "Game is not open for bidding"
  let address ← validate api dummyWallet
  let count ← Uint128.add ((st.contractPoolCount[address]?).getD 0) 1
  let poolId := toString count
  return ({ st with
    contractPoolCount := st.contractPoolCount.insert address count
    poolDetails := st.poolDetails.insert poolId
      { gameId := st.config.gameId
        poolId
        poolType
        currentTeamsCount := 0
        rewardsDistributed := notDistributed
        poolRefundStatus := false
        poolRewardStatus := false } }, {})

/-- The check that the fees of a bid are attached, as one coin. -/
def checkBidFees (poolFee : ℕ) : Exec ContractError Unit := do
  let feeDetails ← queryPlatformFees poolFee st.config.platformFee st.config.transactionFee
  refuse (info.funds.length ≠ 1) .invalidNumberOfCoinsSent
  let usdcAmount ← getAmountOfDenom (.native info.funds) (.native st.config.usdcIbcSymbol)
  let required ← Uint128.add feeDetails.platformFee feeDetails.transactionFee
  refuse (usdcAmount < required) .insufficientFeesUst

/-- The check that the amount of FURY of a bid is worth the fee of the pool type. -/
def checkBidAmount (poolFee amount : ℕ) : Exec ContractError Unit := do
  let furyFee ← liftStd (q.token1ForToken2Price st.config.poolAddress poolFee)
  let scaled ← Uint128.mul furyFee ninetyNineNinePercent
  let amountRequired ← Uint128.div scaled hundredPercent
  refuseGeneric (amount < amountRequired)
    "Amount being bid does not match the pool fee and the platform fee"

/-- The messages of a bid: its FURY is taken from the gamer and swapped for USDC. -/
def bidMessages (amount : ℕ) : Exec ContractError (List (CosmosMsg Payload)) := do
  let swapConfig ← liftStd (q.swapConfig st.config.poolAddress)
  let expectedUsdc ← liftStd (q.token2ForToken1Price st.config.poolAddress amount)
  let platformFeesForSwap ← swapFeeOf swapConfig expectedUsdc
  return [
    .wasmExecute st.config.furyTokenAddress
      (.cw20 (.transferFrom info.sender env.contractAddress amount)) [],
    .wasmExecute st.config.furyTokenAddress
      (.cw20 (.increaseAllowance st.config.poolAddress amount none)) [],
    .wasmExecute st.config.poolAddress
      (.fanfuryswap (.swap .token2 amount expectedUsdc platformFeesForSwap none))
      [⟨st.config.usdcIbcSymbol, platformFeesForSwap⟩]]

/-- `game_pool_bid_submit`. -/
def gamePoolBidSubmit (gamer poolType poolId teamId : String) (amount : ℕ) :
    Exec ContractError (Storage × Response Payload) := do
  refuse (gamer ≠ info.sender) (.unauthorizedInvoker info.sender)
  let game ← loadGame st
  refuseGeneric (game.gameStatus ≠ gamePoolOpen) "Game is not open for bidding"
  match st.poolTypeDetails[poolType]? with
  | none => failGeneric "Cant get details for pool type "
  | some poolTypeDetails => do
    checkBidFees info st poolTypeDetails.poolFee
    checkBidAmount q st poolTypeDetails.poolFee amount
    let userTeamCount := ((st.poolTeamDetails[(poolId, gamer)]?).getD []).countP
      fun team => team.gamerAddress = gamer
    refuseGeneric (poolTypeDetails.maxTeamsForGamer ≤ userTeamCount) "User max team limit reached "
    let poolDetails ← queryPoolDetails st poolId
    refuseGeneric (poolTypeDetails.maxTeamsForPool ≤ poolDetails.currentTeamsCount)
      "pool max team limit reached "
    let messages ← bidMessages q env info st amount
    -- the pool is saved with the type that the bid names
    return ({ st with
      poolDetails := st.poolDetails.insert poolId
        { poolType
          poolId
          gameId := poolDetails.gameId
          currentTeamsCount := poolDetails.currentTeamsCount + 1
          rewardsDistributed := poolDetails.rewardsDistributed
          poolRefundStatus := false
          poolRewardStatus := false }
      poolTeamDetails := saveTeamDetails st.poolTeamDetails gamer poolId teamId
        st.config.gameId poolType initialRewardAmount unclaimedReward initialRefundAmount
        unclaimedRefund initialTeamPoints initialTeamRank }, { messages })

/-- The check that the first coin attached to a claim of rewards covers its fees. -/
def checkRewardFees (userReward : ℕ) : Exec ContractError Unit := do
  let userRewardInUst ← liftStd (q.token2ForToken1Price st.config.poolAddress userReward)
  let feeDetails ←
    queryPlatformFees userRewardInUst st.config.platformFee st.config.transactionFee
  match info.funds with
  | [] => fail .insufficientFeesUst
  | fundsSent :: _ => do
    refuse (fundsSent.denom ≠ st.config.usdcIbcSymbol) .insufficientFeesUst
    let required ← Uint128.add feeDetails.platformFee feeDetails.transactionFee
    refuse (fundsSent.amount < required) .insufficientFeesUst

/-- `claim_reward`. -/
def claimReward (gamer : String) : Exec ContractError (Storage × Response Payload) := do
  let gamerAddr ← validate api gamer
  refuse (gamerAddr ≠ info.sender) (.unauthorizedInvoker info.sender)
  let (poolTeamDetails, userReward) ←
    st.poolDetails.keys.foldlM (claimPoolReward st gamer) (st.poolTeamDetails, 0)
  refuseGeneric (userReward = 0) "No reward for this user"
  checkRewardFees q info st userReward
  return ({ st with poolTeamDetails }, { messages :=
    [.bankSend st.config.platformFeesCollectorWallet info.funds,
      .wasmExecute st.config.furyTokenAddress (.cw20 (.transfer info.sender userReward)) []] })

/-- The messages of a claim of refunds: the fees of the pools are swapped for FURY, and the
platform and transaction fees are sent back. -/
def refundMessages (totalRefundAmount : ℕ) : Exec ContractError (List (CosmosMsg Payload)) := do
  let refundDetails ←
    queryPlatformFees totalRefundAmount st.config.platformFee st.config.transactionFee
  let refundInUstFees ← Uint128.add refundDetails.transactionFee refundDetails.platformFee
  let swapConfig ← liftStd (q.swapConfig st.config.poolAddress)
  let swapFee ← swapFeeOf swapConfig totalRefundAmount
  let expectedFury ← liftStd (q.token1ForToken2Price st.config.poolAddress totalRefundAmount)
  let finalAmount ← Uint128.add totalRefundAmount swapFee
  return [
    .wasmExecute st.config.poolAddress
      (.fanfuryswap (.swap .token1 totalRefundAmount expectedFury swapFee none))
      [⟨st.config.usdcIbcSymbol, finalAmount⟩],
    .bankSend info.sender [⟨st.config.usdcIbcSymbol, refundInUstFees⟩]]

/-- `claim_refund`. -/
def claimRefund (gamer : String) : Exec ContractError (Storage × Response Payload) := do
  let gamerAddr ← validate api gamer
  refuse (gamerAddr ≠ info.sender) (.unauthorizedInvoker info.sender)
  let (poolTeamDetails, totalRefundAmount) ←
    st.poolDetails.keys.foldlM (claimPoolRefund st gamer) (st.poolTeamDetails, 0)
  refuseGeneric (totalRefundAmount = 0) "No refund for this user"
  let messages ← refundMessages q info st totalRefundAmount
  return ({ st with poolTeamDetails }, { messages })

/-- The reward of a batch is added to that of the pool, which starts anew where the details of a
swap are stored. -/
def addReward (poolId : String) (rewardGivenSoFar : ℕ) : Exec ContractError Storage := do
  let rewardTotal ← (
    match (st.currentRewardForPool[poolId]?).bind PoolSlot.reward? with
    | some current => Uint128.add current rewardGivenSoFar
    | none => pure rewardGivenSoFar)
  return { st with
    currentRewardForPool := st.currentRewardForPool.insert poolId (.reward rewardTotal) }

/-- `game_pool_reward_distribute`: the game of the configuration counts, not the one named. -/
def gamePoolRewardDistribute (poolId : String) (gameWinners : List GameResult)
    (isFinalBatch : Bool) (ustForRake : ℕ) : Exec ContractError (Storage × Response Payload) := do
  adminOnly info st
  let gameId := st.config.gameId
  let game ← loadGame st
  refuseGeneric (game.gameStatus = gameCancelled)
    "Rewards cant be distributed as game is cancelled"
  refuseGeneric (game.gameStatus = gamePoolOpen)
    "Rewards cant be distributed as game not yet started"
  let poolDetails ← queryPoolDetails st poolId
  refuseGeneric (poolDetails.rewardsDistributed = distributed)
    "Rewards are already distributed for this pool"
  match st.poolTypeDetails[poolDetails.poolType]? with
  | none => failGeneric "Cant get details for pool type"
  | some poolTypeDetails => do
    let _ ← queryPlatformFees poolTypeDetails.poolFee st.config.platformFee
      st.config.transactionFee
    let _ ← gameWinners.foldlM (fun sum winner => Uint128.add sum winner.rewardAmount) 0
    let (poolTeamDetails, rewardGivenSoFar) ←
      gameWinners.foldlM (rewardWinner gameId poolId gameWinners) (st.poolTeamDetails, 0)
    let st' ← addReward { st.setGameStatus
        (if isFinalBatch then gameCompleted else gamePoolClosed) with
      poolDetails := st.poolDetails.insert poolId
        { gameId
          poolId
          poolType := poolDetails.poolType
          currentTeamsCount := poolDetails.currentTeamsCount
          rewardsDistributed := isFinalBatch
          poolRefundStatus := false
          poolRewardStatus := true }
      poolTeamDetails } poolId rewardGivenSoFar
    if isFinalBatch = true ∧ ustForRake ≠ 0 then
      return (st', transferToMultipleWallets st
        (poolTypeDetails.rakeList.map (rakeTransfer ustForRake)))
    else return (st', {})

/-- `swap`: the collection of a pool is swapped for FURY. -/
def swap (amount : ℕ) (poolId : String) : Exec ContractError (Storage × Response Payload) := do
  adminOnly info st
  let poolDetails ← queryPoolDetails st poolId
  let poolTypeDetails ← load "PoolTypeDetails" (st.poolTypeDetails[poolDetails.poolType]?)
  let totalCollectionInPool :=
    Uint128.mulOrZero poolTypeDetails.poolFee poolDetails.currentTeamsCount
  let fundsForRake :=
    if totalCollectionInPool ≤ amount then 0 else totalCollectionInPool - amount
  let currentFuryBalance ←
    liftStd (q.tokenBalance st.config.furyTokenAddress env.contractAddress)
  let stored := ((st.currentRewardForPool[poolId]?).bind PoolSlot.swap?).getD ⟨0, 0, 0, 0, 0⟩
  let swapInfo := { stored with
    balancePreSwap := currentFuryBalance
    ustAmountSwapped := amount
    ustForRake := fundsForRake }
  let swapConfig ← liftStd (q.swapConfig st.config.poolAddress)
  let swapFee ← swapFeeOf swapConfig amount
  let finalAmount ← Uint128.add amount swapFee
  let expectedFury ← liftStd (q.token1ForToken2Price st.config.poolAddress amount)
  match parseU64 poolId with
  | none => .error .panic
  | some id =>
    return ({ st with
      currentRewardForPool := st.currentRewardForPool.insert poolId (.swap swapInfo) },
      { submessages := [(id, .wasmExecute st.config.poolAddress
        (.fanfuryswap (.swap .token1 amount expectedFury swapFee none))
        [⟨st.config.usdcIbcSymbol, finalAmount⟩])] })

/-- `execute_sweep`. -/
def executeSweep (fundsToSend : List Coin) : Exec ContractError (Storage × Response Payload) := do
  adminOnly info st
  return (st, { messages := [.bankSend st.config.platformFeesCollectorWallet fundsToSend] })

/-- `execute`. -/
def execute : ExecuteMsg → Exec ContractError (Storage × Response Payload)
  | .setPlatformFeeWallets walletPercentages => setPlatformFeeWallets info st walletPercentages
  | .setPoolTypeParams poolType poolFee minTeamsForPool maxTeamsForPool maxTeamsForGamer
      walletPercentages =>
    setPoolTypeParams info st poolType poolFee minTeamsForPool maxTeamsForPool maxTeamsForGamer
      walletPercentages
  | .cancelGame => cancelGame info st
  | .lockGame => lockGame info st
  | .createPool poolType => createPool api info st poolType
  | .claimReward gamer => claimReward api q info st gamer
  | .claimRefund gamer => claimRefund api q info st gamer
  | .gamePoolRewardDistribute poolId gameWinners isFinalBatch ustForRake _ =>
    gamePoolRewardDistribute info st poolId gameWinners isFinalBatch ustForRake
  | .gamePoolBidSubmitCommand gamer poolType poolId teamId amount =>
    gamePoolBidSubmit q env info st gamer poolType poolId teamId amount
  | .sweep funds => executeSweep info st funds
  | .swap amount poolId => swap q env info st amount poolId

/-- `reply`: the rate of the swap is computed from what it has gained. -/
def reply (id : ℕ) : Exec ContractError (Storage × Response Payload) := do
  let poolId := toString id
  let currentFuryBalance ←
    liftStd (q.tokenBalance st.config.furyTokenAddress env.contractAddress)
  let balanceInfo ← load "SwapBalanceDetails"
    ((st.currentRewardForPool[poolId]?).bind PoolSlot.swap?)
  let balanceGained ← Uint128.sub currentFuryBalance balanceInfo.balancePreSwap
  let scaled ← Uint128.mul balanceGained 10000
  let exchangeRate ← Uint128.div scaled balanceInfo.ustAmountSwapped
  return ({ st with currentRewardForPool := st.currentRewardForPool.insert poolId (.swap
    { balanceInfo with balancePostSwap := currentFuryBalance, exchangeRate }) }, {})

end Handlers

end Gamingpool
