import LiquidityContracts.Swap.Contract

/-!
# The state of the gaming pool

`gamingpool` runs the pools of one game. A pool is of a type, which fixes its entry fee and how
many teams it takes; gamers enter teams by bids while the game is open. When the game is locked or
cancelled the teams of some pools may get their fee back, and the teams of others get rewards that
the admin hands out in batches. Two flags of a pool say which of the two its gamers may claim.

## Main definitions

* `PoolTypeDetails`, `PoolDetails`, `PoolTeamDetails`: the records
* `Storage`: the stored items
* `ExecuteMsg`, `ContractError`, `Querier`: messages, errors, and what is asked of other contracts
-/

namespace Gamingpool

open CosmWasm

structure Config where
  adminAddress : Addr
  furyTokenAddress : Addr
  platformFeesCollectorWallet : Addr
  poolAddress : Addr
  platformFee : ℕ
  transactionFee : ℕ
  gameId : String
  usdcIbcSymbol : String
  deriving DecidableEq, Repr

structure GameDetails where
  gameId : String
  gameStatus : ℕ
  deriving DecidableEq, Repr

structure FeeDetails where
  platformFee : ℕ
  transactionFee : ℕ
  deriving DecidableEq, Repr

structure WalletPercentage where
  walletAddress : String
  walletName : String
  percentage : ℕ
  deriving DecidableEq, Repr

structure PoolTypeDetails where
  poolType : String
  /-- A pool with fewer teams than this when the game is locked gets dissolved. -/
  minTeamsForPool : ℕ
  maxTeamsForPool : ℕ
  maxTeamsForGamer : ℕ
  poolFee : ℕ
  rakeList : List WalletPercentage
  deriving DecidableEq, Repr

structure PoolDetails where
  poolId : String
  gameId : String
  poolType : String
  currentTeamsCount : ℕ
  rewardsDistributed : Bool
  poolRefundStatus : Bool
  poolRewardStatus : Bool
  deriving DecidableEq, Repr

structure PoolTeamDetails where
  poolId : String
  gameId : String
  poolType : String
  gamerAddress : String
  teamId : String
  rewardAmount : ℕ
  claimedReward : Bool
  refundAmount : ℕ
  claimedRefund : Bool
  teamPoints : ℕ
  teamRank : ℕ
  deriving DecidableEq, Repr

structure GameResult where
  gamerAddress : String
  teamId : String
  rewardAmount : ℕ
  deriving DecidableEq, Repr

structure WalletTransferDetails where
  walletAddress : String
  amount : ℕ
  deriving DecidableEq, Repr

structure SwapBalanceDetails where
  balancePreSwap : ℕ
  balancePostSwap : ℕ
  exchangeRate : ℕ
  ustAmountSwapped : ℕ
  ustForRake : ℕ
  deriving DecidableEq, Repr

/-- What is stored under `current_reward_for_pool`, a key that `CURRENT_REWARD_FOR_POOL` and
`SWAP_BALANCE_INFO` share: neither can be loaded where the other was saved last. -/
inductive PoolSlot where
  | reward (amount : ℕ)
  | swap (details : SwapBalanceDetails)
  deriving DecidableEq, Repr

/-- `CURRENT_REWARD_FOR_POOL.load`. -/
def PoolSlot.reward? : PoolSlot → Option ℕ
  | .reward amount => some amount
  | .swap _ => none

/-- `SWAP_BALANCE_INFO.load`. -/
def PoolSlot.swap? : PoolSlot → Option SwapBalanceDetails
  | .reward _ => none
  | .swap details => some details

/-- The teams, by pool and gamer. -/
abbrev Teams := Store (String × String) (List PoolTeamDetails)

/-- The stored items. -/
structure Storage where
  config : Config
  gameDetails : Store String GameDetails := ∅
  poolTypeDetails : Store String PoolTypeDetails := ∅
  poolDetails : Store String PoolDetails := ∅
  poolTeamDetails : Teams := ∅
  contractPoolCount : Store Addr ℕ := ∅
  platformWalletPercentages : Store String WalletPercentage := ∅
  currentRewardForPool : Store String PoolSlot := ∅

structure InstantiateMsg where
  adminAddress : String
  furyTokenAddress : String
  poolAddress : String
  platformFeesCollectorWallet : String
  transactionFee : ℕ
  platformFee : ℕ
  gameId : String
  usdcIbcSymbol : String
  deriving DecidableEq, Repr

/-- The spread that a caller may name is passed on to no other contract. -/
inductive ExecuteMsg where
  | setPlatformFeeWallets (walletPercentages : List WalletPercentage)
  | setPoolTypeParams (poolType : String)
      (poolFee minTeamsForPool maxTeamsForPool maxTeamsForGamer : ℕ)
      (walletPercentages : List WalletPercentage)
  | cancelGame
  | lockGame
  | createPool (poolType : String)
  | claimReward (gamer : String)
  | claimRefund (gamer : String)
  | gamePoolRewardDistribute (poolId : String) (gameWinners : List GameResult)
      (isFinalBatch : Bool) (ustForRake : ℕ) (gameId : String)
  | gamePoolBidSubmitCommand (gamer poolType poolId teamId : String) (amount : ℕ)
  | sweep (funds : List Coin)
  | swap (amount : ℕ) (poolId : String)
  deriving DecidableEq, Repr

inductive ContractError where
  | std (e : StdError)
  | unauthorizedInvoker (invoker : String)
  | insufficientFeesUst
  | invalidNumberOfCoinsSent
  | refundAlreadyClaimed
  | nativeInputZero
  | tokenTypeMismatch
  | cw20InputZero
  deriving DecidableEq, Repr

instance : OfStdError ContractError := ⟨.std⟩

instance : Util.UtilError ContractError := ⟨.nativeInputZero, .cw20InputZero, .tokenTypeMismatch⟩

/-- The messages to other contracts. -/
inductive Payload where
  | cw20 (msg : Cw20.ExecuteMsg)
  | fanfuryswap (msg : Fanfuryswap.ExecuteMsg)
  deriving DecidableEq, Repr

/-- The fees of the pool, of what it answers when it is asked for its configuration. -/
structure FanfuryswapConfigResponse where
  txFee : ℕ
  platformFee : ℕ
  deriving DecidableEq, Repr

/-- What the contract asks of the pool and of the token, named by their addresses. -/
structure Querier where
  token1ForToken2Price : Addr → ℕ → Except StdError ℕ
  token2ForToken1Price : Addr → ℕ → Except StdError ℕ
  swapConfig : Addr → Except StdError FanfuryswapConfigResponse
  tokenBalance : Addr → Addr → Except StdError ℕ

/-- `DUMMY_WALLET`. -/
def dummyWallet : String := "juno1ev8q3fml0d79aafd9zgzvxdt7fvmu4ac9czj4u"

/-- `INITIAL_REWARD_AMOUNT`. -/
def initialRewardAmount : ℕ := 0

/-- `INITIAL_REFUND_AMOUNT`. -/
def initialRefundAmount : ℕ := 0

/-- `INITIAL_TEAM_POINTS`. -/
def initialTeamPoints : ℕ := 0

/-- `INITIAL_TEAM_RANK`. -/
def initialTeamRank : ℕ := 100000

/-- `UNCLAIMED_REWARD`. -/
def unclaimedReward : Bool := false

/-- `UNCLAIMED_REFUND`. -/
def unclaimedRefund : Bool := false

/-- `REWARDS_DISTRIBUTED`. -/
def distributed : Bool := true

/-- `REWARDS_NOT_DISTRIBUTED`. -/
def notDistributed : Bool := false

/-- `GAME_POOL_OPEN`. -/
def gamePoolOpen : ℕ := 1

/-- `GAME_POOL_CLOSED`. -/
def gamePoolClosed : ℕ := 2

/-- `GAME_CANCELLED`. -/
def gameCancelled : ℕ := 3

/-- `GAME_COMPLETED`. -/
def gameCompleted : ℕ := 4

/-- `HUNDRED_PERCENT`. -/
def hundredPercent : ℕ := 10000

/-- `NINETY_NINE_NINE_PERCENT`. -/
def ninetyNineNinePercent : ℕ := 9990

end Gamingpool
