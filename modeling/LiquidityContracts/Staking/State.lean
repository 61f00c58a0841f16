import LiquidityContracts.Token.Util

/-!
# The state of the staking contract

`clubstaking` lets clubs be owned, and FURY be staked on them. A club has an owner and the total
staked on it; a staker has a record for each club, and bonds of withdrawn stakes until these are
mature. From time to time a pot of rewards is distributed over the stakes.

## Main definitions

* `ClubOwnershipDetails`, `ClubStakingDetails`, `ClubBondingDetails`: the records
* `Storage`: the stored items
* `ExecuteMsg`, `ContractError`, `Querier`: messages, errors, and what is asked of the pool
-/

namespace Clubstaking

open CosmWasm

structure Config where
  adminAddress : Addr
  furyTokenAddress : Addr
  poolAddress : Addr
  clubFeeCollectorWallet : Addr
  clubRewardNextTimestamp : Timestamp
  rewardPeriodicity : ℕ
  clubPrice : ℕ
  bondingDuration : ℕ
  ownerReleaseLockingDuration : ℕ
  platformFeesCollectorWallet : Addr
  platformFees : ℕ
  transactionFees : ℕ
  controlFees : ℕ
  maxBondingLimitPerUser : ℕ
  usdcIbcSymbol : String
  deriving DecidableEq, Repr

structure ClubOwnershipDetails where
  clubName : String
  startTimestamp : Timestamp
  lockingPeriod : ℕ
  ownerAddress : String
  pricePaid : ℕ
  rewardAmount : ℕ
  ownerReleased : Bool
  /-- Total amount staked across all stakes for this club. -/
  totalStakedAmount : ℕ
  deriving DecidableEq, Repr

structure ClubPreviousOwnerDetails where
  previousOwnerAddress : String
  rewardAmount : ℕ
  deriving DecidableEq, Repr

structure ClubStakingDetails where
  clubName : String
  stakerAddress : String
  stakingStartTimestamp : Timestamp
  stakedAmount : ℕ
  stakingDuration : ℕ
  rewardAmount : ℕ
  autoStake : Bool
  deriving DecidableEq, Repr

structure ClubBondingDetails where
  clubName : String
  bonderAddress : String
  bondingStartTimestamp : Timestamp
  bondedAmount : ℕ
  bondingDuration : ℕ
  deriving DecidableEq, Repr

structure WinningClubDetails where
  totalNumberOfClubs : ℕ := 0
  totalStakeAcrossAllClubs : ℕ := 0
  totalStakeInWinningClub : ℕ := 0
  winnerList : List String := []
  deriving DecidableEq, Repr

/-- The stored items. Stakes and bonds are stored by club and address. -/
structure Storage where
  config : Config
  ownership : Store String ClubOwnershipDetails := ∅
  staking : Store (String × String) (List ClubStakingDetails) := ∅
  bonding : Store (String × String) (List ClubBondingDetails) := ∅
  previousOwners : Store String ClubPreviousOwnerDetails := ∅
  reward : Option ℕ := none
  rewardGivenInCurrentTimestamp : Option ℕ := none
  clubRewardNextTimestamp : Option Timestamp := none
  stakingSnapshot : Store String ℕ := ∅
  winningClubDetailsSnapshot : Option WinningClubDetails := none

structure InstantiateMsg where
  adminAddress : String
  furyTokenAddress : String
  poolAddress : String
  clubFeeCollectorWallet : String
  clubRewardNextTimestamp : Timestamp
  rewardPeriodicity : ℕ
  clubPrice : ℕ
  bondingDuration : ℕ
  ownerReleaseLockingDuration : ℕ
  platformFeesCollectorWallet : String
  platformFees : ℕ
  transactionFees : ℕ
  controlFees : ℕ
  maxBondingLimitPerUser : ℕ
  usdcIbcSymbol : String
  deriving DecidableEq, Repr

inductive ExecuteMsg where
  | buyAClub (buyer : String) (seller : Option String) (clubName : String) (autoStake : Bool)
  | assignAClub (buyer : String) (seller : Option String) (clubName : String) (autoStake : Bool)
  | stakeOnAClub (staker clubName : String) (amount : ℕ) (autoStake : Bool)
  | assignStakesToAClub (stakeList : List ClubStakingDetails) (clubName : String)
  | releaseClub (owner clubName : String)
  | claimOwnerRewards (owner clubName : String)
  | claimPreviousOwnerRewards (previousOwner : String)
  | stakeWithdrawFromAClub (staker clubName : String) (amount : ℕ) (immediateWithdrawal : Bool)
  | calculateAndDistributeRewards (stakerList : List String) (clubName : String)
      (isFirstBatch isFinalBatch : Bool)
  | claimStakerRewards (staker clubName : String)
  | increaseRewardAmount (rewardFrom : String) (amount : ℕ)
  deriving DecidableEq, Repr

inductive ContractError where
  | std (e : StdError)
  | unauthorized
  | insufficientFees (required received : ℕ)
  deriving DecidableEq, Repr

instance : OfStdError ContractError := ⟨.std⟩

/-- What the contract asks of the pool, named by its address. -/
structure Querier where
  token2ForToken1Price : Addr → ℕ → Except StdError ℕ

/-- `MAX_UFURY_COUNT`. -/
def maxUfuryCount : ℤ := 420000000000000

/-- `CLUB_BUYING_REWARD_AMOUNT`. -/
def clubBuyingRewardAmount : ℕ := 0

/-- `CLUB_STAKING_REWARD_AMOUNT`. -/
def clubStakingRewardAmount : ℕ := 0

/-- `CLUB_STAKING_DURATION`. -/
def clubStakingDuration : ℕ := 0

/-- `HUNDRED_PERCENT`. -/
def hundredPercent : ℕ := 10000

/-- `NINETY_NINE_NINE_PERCENT`. -/
def ninetyNineNinePercent : ℕ := 9990

/-- The senders whose stakes are free of fees, named in the code for its unit tests. -/
def feeFreeStakers : List Addr :=
  ["staker001", "staker002", "staker003", "staker004", "staker005", "staker006"]

/-- The senders who buy free of fees, named in the code for its unit tests. -/
def feeFreeBuyers : List Addr := ["owner001", "owner002", "owner003"]

end Clubstaking
