import LiquidityContracts.Staking.State

/-!
# The distribution of rewards

The pot is distributed over the stakes in batches, each for one club. The first batch ranks the
clubs by what was staked on them since the last ranking and keeps the result for the others; the
final batch takes from the pot what the batches have given.

## Main definitions

* `getWinningClubsDetails`: the ranking of the clubs
* `RewardTerms`, `rewardForStake`: what a stake is given
* `stakesAt`: the records of a staker in a club
* `creditStake`, `creditStaker`: the loops over the records of a staker and over the stakers
* `distributeRewardToClubStakers`, `calculateAndDistributeRewards`: a batch
-/

namespace Clubstaking

open CosmWasm

/-! ## Ranking -/

/-- The variables of the loop over the clubs. -/
structure Ranking where
  maxIncrementalStakeValue : ℤ := -maxUfuryCount
  maxTotalStakeValue : ℕ := 0
  totalNumberOfClubs : ℕ := 0
  totalStakeAcrossAllClubs : ℕ := 0
  totalStakeInWinningClub : ℕ := 0
  winners : List String := []
  stakingSnapshot : Store String ℕ

/-- The winners after a club with the given increase and total stake: it replaces them when its
increase is the largest so far, and joins them when it equals them in the increase and has no less
staked. -/
def Ranking.enter (acc : Ranking) (club : String) (difference : ℤ) (stakeInClub : ℕ) : Ranking :=
  if acc.maxIncrementalStakeValue < difference then
    { acc with
      totalStakeInWinningClub := stakeInClub
      maxIncrementalStakeValue := difference
      maxTotalStakeValue := stakeInClub
      winners := [club] }
  else if difference = acc.maxIncrementalStakeValue ∧ acc.maxTotalStakeValue ≤ stakeInClub then
    -- the maximum is updated before it is compared with, so a larger stake joins as an equal one
    { acc with
      totalStakeInWinningClub := stakeInClub
      maxTotalStakeValue := stakeInClub
      winners := acc.winners ++ [club] }
  else acc

section Ranking

variable {ε : Type} [OfStdError ε]

/-- `query_club_ownership_details`. -/
def queryClubOwnershipDetails (st : Storage) (clubName : String) : Exec ε ClubOwnershipDetails :=
  match st.ownership[clubName]? with
  | some details => return details
  | none => failGeneric "No ownership details found"

/-- One round of the loop over the clubs. -/
def rankClub (st : Storage) (acc : Ranking) (club : String) : Exec ε Ranking := do
  let details ← queryClubOwnershipDetails st club
  let stakeInClub := details.totalStakedAmount
  let total ← Uint128.add acc.totalStakeAcrossAllClubs stakeInClub
  let previous := (acc.stakingSnapshot[club]?).getD 0
  let difference := Int128.sub (Int128.ofUint128 stakeInClub) (Int128.ofUint128 previous)
  let acc := acc.enter club difference stakeInClub
  return { acc with
    totalNumberOfClubs := Uint64.add acc.totalNumberOfClubs 1
    totalStakeAcrossAllClubs := total
    stakingSnapshot := acc.stakingSnapshot.insert club stakeInClub }

/-- The names of all clubs, collected into a vector: it has less room than 32 bits can address, and
the call is aborted when it does not hold them. -/
def allClubs (st : Storage) : Exec ε (List String) :=
  provided (st.ownership.keys.length < Uint32.bound) .panic st.ownership.keys

/-- `get_winning_clubs_details`: the ranking, and the state with the new snapshot of the stakes. -/
def getWinningClubsDetails (st : Storage) : Exec ε (Storage × WinningClubDetails) := do
  let clubs ← allClubs st
  let acc ← clubs.foldlM (rankClub st) { stakingSnapshot := st.stakingSnapshot }
  return ({ st with stakingSnapshot := acc.stakingSnapshot },
    { totalNumberOfClubs := acc.totalNumberOfClubs
      totalStakeAcrossAllClubs := acc.totalStakeAcrossAllClubs
      totalStakeInWinningClub := acc.totalStakeInWinningClub
      winnerList := acc.winners })

end Ranking

/-! ## Rewards -/

/-- What a batch is distributed by. -/
structure RewardTerms where
  allStakersReward : ℕ
  totalStakeAcrossAllClubs : ℕ
  isClubAWinner : Bool
  rewardForAllStakersInWinningClub : ℕ
  totalStakeInWinningClub : ℕ
  clubOwnerAddress : String
  ownerReward : ℕ
  deriving DecidableEq, Repr

/-- `percent` hundredths of `amount`, zero on overflow. -/
def percentOf (percent amount : ℕ) : ℕ := Uint128.divOrZero (Uint128.mulOrZero amount percent) 100

/-- The part of `reward` that `staked` is of `total`, zero on overflow. -/
def shareOf (reward staked total : ℕ) : ℕ :=
  Uint128.divOrZero (Uint128.mulOrZero reward staked) total

/-- The terms for a club: 78 per cent of the pot for all stakers, 19 for those of the winners, and
for the owners one (three when all clubs win) or, on the other clubs, two. -/
def rewardTerms (winning : WinningClubDetails) (club : ClubOwnershipDetails) (clubName : String)
    (totalReward : ℕ) : Exec ContractError RewardTerms := do
  let isClubAWinner := winning.winnerList.contains clubName
  let numOfWinners := winning.winnerList.length
  let otherClubCount := Uint64.sub winning.totalNumberOfClubs numOfWinners
  refuseGeneric (isClubAWinner = false ∧ otherClubCount = 0)
    "computation error - should never happen"
  let ownerReward :=
    if isClubAWinner then
      if 0 < otherClubCount then
        Uint128.divOrZero (Uint128.divOrZero totalReward 100) numOfWinners
      else Uint128.divOrZero (percentOf 3 totalReward) numOfWinners
    else Uint128.divOrZero (percentOf 2 totalReward) otherClubCount
  let rewardForAllStakersInWinningClub :=
    if isClubAWinner then Uint128.divOrZero (percentOf 19 totalReward) numOfWinners else 0
  return {
    allStakersReward := percentOf 78 totalReward
    totalStakeAcrossAllClubs := winning.totalStakeAcrossAllClubs
    isClubAWinner
    rewardForAllStakersInWinningClub
    totalStakeInWinningClub := winning.totalStakeInWinningClub
    clubOwnerAddress := club.ownerAddress
    ownerReward }

/-- `reward_for_this_stake`. -/
def rewardForStake (terms : RewardTerms) (stake : ClubStakingDetails) : Exec ContractError ℕ := do
  let share := shareOf terms.allStakersReward stake.stakedAmount terms.totalStakeAcrossAllClubs
  let reward ← (
    if terms.isClubAWinner then
      Uint128.add share (shareOf terms.rewardForAllStakersInWinningClub stake.stakedAmount
        terms.totalStakeInWinningClub)
    else pure share)
  if stake.stakerAddress = terms.clubOwnerAddress then Uint128.add reward terms.ownerReward
  else return reward

/-- When a batch is distributed, and the start of the next period. -/
structure RewardPeriod where
  now : Timestamp
  savedNextRewardTimestamp : Timestamp
  rewardPeriodicity : ℕ
  deriving DecidableEq, Repr

/-- The timestamp that a stake is given with its reward. -/
def RewardPeriod.newStart (period : RewardPeriod) : Timestamp :=
  if period.savedNextRewardTimestamp < period.now then
    Timestamp.plusSeconds period.savedNextRewardTimestamp period.rewardPeriodicity
  else period.savedNextRewardTimestamp

/-- What the batch has given so far, and what of it was staked. -/
structure Given where
  rewardGivenSoFar : ℕ := 0
  stakeToAddForClub : ℕ := 0
  deriving DecidableEq, Repr

/-- One round of the loop over the records of a staker: the records kept so far are extended by
the record with its reward, which is staked or left to be claimed. A record that starts in the
future is skipped, and is not among those that are kept. -/
def creditStake (terms : RewardTerms) (period : RewardPeriod)
    (acc : List ClubStakingDetails × Given) (stake : ClubStakingDetails) :
    Exec ContractError (List ClubStakingDetails × Given) :=
  if period.now < stake.stakingStartTimestamp then return acc
  else do
    let start := period.newStart
    let reward ← rewardForStake terms stake
    let given ← Uint128.add acc.2.rewardGivenSoFar reward
    if stake.autoStake then
      let toAdd ← Uint128.add acc.2.stakeToAddForClub reward
      let staked ← Uint128.add stake.stakedAmount reward
      let staked ← Uint128.add staked stake.rewardAmount
      return (acc.1 ++ [{ stake with
        stakingStartTimestamp := start
        stakedAmount := staked
        rewardAmount := 0 }], ⟨given, toAdd⟩)
    else
      let pending ← Uint128.add stake.rewardAmount reward
      return (acc.1 ++ [{ stake with
        stakingStartTimestamp := start
        rewardAmount := pending }], ⟨given, acc.2.stakeToAddForClub⟩)

/-- The records stored under a club and a staker. -/
def stakesAt (staking : Store (String × String) (List ClubStakingDetails)) (k : String × String) :
    List ClubStakingDetails :=
  (staking[k]?).getD []

/-- One round of the loop over the stakers. What is kept replaces the stored records, also where
nothing is stored or nothing is kept. -/
def creditStaker (terms : RewardTerms) (period : RewardPeriod) (clubName : String)
    (acc : Store (String × String) (List ClubStakingDetails) × Given) (staker : String) :
    Exec ContractError (Store (String × String) (List ClubStakingDetails) × Given) := do
  let (updated, given) ← (stakesAt acc.1 (clubName, staker)).foldlM (creditStake terms period)
    ([], acc.2)
  return (acc.1.insert (clubName, staker) updated, given)

/-- The ranking a batch goes by: its own for the first batch, the stored one for the others. -/
def rankingFor (st : Storage) (isFirstBatch : Bool) :
    Exec ContractError (Storage × WinningClubDetails) :=
  if isFirstBatch then do
    let (st, winning) ← getWinningClubsDetails st
    return ({ st with winningClubDetailsSnapshot := some winning }, winning)
  else return (st, st.winningClubDetailsSnapshot.getD {})

/-- What a batch goes by: the state with the ranking, the club, and the terms. -/
def openBatch (st : Storage) (clubName : String) (totalReward : ℕ) (isFirstBatch : Bool) :
    Exec ContractError (Storage × ClubOwnershipDetails × RewardTerms) := do
  let (st, winning) ← rankingFor st isFirstBatch
  let club ← queryClubOwnershipDetails st clubName
  let terms ← rewardTerms winning club clubName totalReward
  return (st, club, terms)

/-- `distribute_reward_to_club_stakers`. -/
def distributeRewardToClubStakers (st : Storage) (period : RewardPeriod)
    (stakerList : List String) (clubName : String) (totalReward : ℕ)
    (isFirstBatch isFinalBatch : Bool) : Exec ContractError Storage := do
  let (st, club, terms) ← openBatch st clubName totalReward isFirstBatch
  let (staking, given) ← stakerList.foldlM (creditStaker terms period clubName) (st.staking, {})
  let totalStaked ← Uint128.add club.totalStakedAmount given.stakeToAddForClub
  let givenInPeriod ← Uint128.add (st.rewardGivenInCurrentTimestamp.getD 0) given.rewardGivenSoFar
  return { st with
    staking := staking
    ownership := st.ownership.insert clubName { club with totalStakedAmount := totalStaked }
    rewardGivenInCurrentTimestamp := some givenInPeriod
    reward := if isFinalBatch then some (totalReward - givenInPeriod) else st.reward }

/-- The period a batch is distributed in. -/
def rewardPeriod (st : Storage) (env : Env) : RewardPeriod where
  now := env.block.time
  savedNextRewardTimestamp := st.clubRewardNextTimestamp.getD 0
  rewardPeriodicity := st.config.rewardPeriodicity

/-- The final batch saves the start of the next period. -/
def saveNextTimestamp (st : Storage) (env : Env) (isFinalBatch : Bool) : Storage :=
  if isFinalBatch then { st with clubRewardNextTimestamp := some (rewardPeriod st env).newStart }
  else st

/-- `calculate_and_distribute_rewards`. -/
def calculateAndDistributeRewards (env : Env) (info : MessageInfo) (st : Storage)
    (stakerList : List String) (clubName : String) (isFirstBatch isFinalBatch : Bool) :
    Exec ContractError (Storage × Response Cw20.ExecuteMsg) := do
  refuseGeneric (info.sender ≠ st.config.adminAddress) "not authorised"
  let totalReward := st.reward.getD 0
  let period := rewardPeriod st env
  refuseGeneric (env.block.time < period.savedNextRewardTimestamp) "Time for Reward not yet arrived"
  let st := saveNextTimestamp st env isFinalBatch
  if totalReward = 0 then return (st, {})
  else do
    let st ← distributeRewardToClubStakers st period stakerList clubName totalReward isFirstBatch
      isFinalBatch
    return (st, {})

end Clubstaking
