import LiquidityContracts.Staking.Distribution

/-!
# The staking contract

The handlers of `clubstaking`: clubs are bought, assigned and released, FURY is staked on them and
withdrawn by way of bonds, and rewards are claimed.

## Main definitions

* `saveStakingDetails`, `saveBondingDetails`: the records of a staker
* `queryStakerRewards`, `queryPlatformFees`: what a claim pays, and what a message costs
* `instantiate`, `execute`: the entry points
-/

namespace Clubstaking

open CosmWasm

/-- `instantiate`. -/
def instantiate (api : Api) (env : Env) (msg : InstantiateMsg) : Exec ContractError Storage := do
  let nextRewardTime :=
    if msg.clubRewardNextTimestamp.seconds = 0 then Timestamp.minusSeconds env.block.time 1
    else msg.clubRewardNextTimestamp
  let adminAddress ← validate api msg.adminAddress
  let furyTokenAddress ← validate api msg.furyTokenAddress
  let poolAddress ← validate api msg.poolAddress
  let clubFeeCollectorWallet ← validate api msg.clubFeeCollectorWallet
  let platformFeesCollectorWallet ← validate api msg.platformFeesCollectorWallet
  return {
    config :=
      { adminAddress
        furyTokenAddress
        poolAddress
        clubFeeCollectorWallet
        clubRewardNextTimestamp := nextRewardTime
        rewardPeriodicity := msg.rewardPeriodicity
        clubPrice := msg.clubPrice
        bondingDuration := msg.bondingDuration
        ownerReleaseLockingDuration := msg.ownerReleaseLockingDuration
        platformFeesCollectorWallet
        platformFees := msg.platformFees
        transactionFees := msg.transactionFees
        controlFees := msg.controlFees
        maxBondingLimitPerUser := msg.maxBondingLimitPerUser
        usdcIbcSymbol := msg.usdcIbcSymbol }
    clubRewardNextTimestamp := some nextRewardTime }

/-! ## Stakes and bonds -/

/-- The stakes stored for a club and a staker. -/
def Storage.stakes (st : Storage) (clubName staker : String) : List ClubStakingDetails :=
  stakesAt st.staking (clubName, staker)

/-- The bonds stored for a club and a staker. -/
def Storage.bonds (st : Storage) (clubName staker : String) : List ClubBondingDetails :=
  (st.bonding[(clubName, staker)]?).getD []

/-- A record of the staker with its stake increased, or decreased; other records stay. With
auto-stake an increase also stakes the reward that has not been claimed. -/
def updateStake (staker : String) (amount : ℕ) (autoStake increaseStake : Bool)
    (stake : ClubStakingDetails) : Exec ContractError ClubStakingDetails :=
  if stake.stakerAddress = staker then
    if increaseStake then do
      let staked ← Uint128.add stake.stakedAmount amount
      if autoStake then do
        let staked ← Uint128.add staked stake.rewardAmount
        return { stake with stakedAmount := staked, rewardAmount := 0, autoStake := true }
      else return { stake with stakedAmount := staked, autoStake := false }
    else do
      refuseGeneric (stake.stakedAmount < amount) "Excess amount demanded for withdrawal"
      let staked ← Uint128.sub stake.stakedAmount amount
      return { stake with stakedAmount := staked }
  else return stake

/-- The record of a first stake. -/
def newStake (env : Env) (staker clubName : String) (amount : ℕ) (autoStake : Bool) :
    ClubStakingDetails where
  clubName := clubName
  stakerAddress := staker
  stakingStartTimestamp := env.block.time
  stakedAmount := amount
  stakingDuration := clubStakingDuration
  rewardAmount := clubStakingRewardAmount
  autoStake := autoStake

/-- `save_staking_details`: the total of the club changes by `amount`. -/
def saveStakingDetails (st : Storage) (env : Env) (staker clubName : String) (amount : ℕ)
    (autoStake increaseStake : Bool) : Exec ContractError Storage := do
  let stakes := st.stakes clubName staker
  let updatedStakes ← stakes.mapM (updateStake staker amount autoStake increaseStake)
  let alreadyStaked := stakes.any fun stake => stake.stakerAddress = staker
  let staking :=
    if alreadyStaked then st.staking.insert (clubName, staker) updatedStakes
    else if increaseStake then
      st.staking.insert (clubName, staker)
        (stakes ++ [newStake env staker clubName amount autoStake])
    else st.staking
  let owner ← load "ClubOwnershipDetails" (st.ownership[clubName]?)
  let totalStakedAmount ← (
    if increaseStake then Uint128.add owner.totalStakedAmount amount
    else Uint128.sub owner.totalStakedAmount amount)
  return { st with
    staking := staking
    ownership := st.ownership.insert clubName { owner with totalStakedAmount } }

/-- `save_bonding_details`. -/
def saveBondingDetails (st : Storage) (env : Env) (bonder clubName : String)
    (bondedAmount duration : ℕ) : Storage :=
  { st with bonding := st.bonding.insert (clubName, bonder) (st.bonds clubName bonder ++
    [{ clubName
       bonderAddress := bonder
       bondingStartTimestamp := env.block.time
       bondedAmount
       bondingDuration := duration }]) }

/-! ## Fees -/

/-- `query_staker_rewards`. -/
def queryStakerRewards {ε : Type} (st : Storage) (staker clubName : String) : Exec ε ℕ :=
  ((st.stakes clubName staker).filter fun stake => stake.stakerAddress = staker).foldlM
    (fun amount stake => Uint128.add amount stake.rewardAmount) 0

section Fees

variable (q : Querier) (st : Storage)

/-- The fees, in hundredths of a per cent, of an amount of FURY, at the price of the pool. -/
def usdFees (feesPercentage furyAmountProvided : ℕ) : Exec ContractError ℕ := do
  let ustEquivForFury ← liftStd (q.token2ForToken1Price st.config.poolAddress furyAmountProvided)
  let scaled ← Uint128.checkedMul ustEquivForFury feesPercentage
  Uint128.checkedDiv scaled hundredPercent

/-- `query_platform_fees`. -/
def queryPlatformFees : ExecuteMsg → Exec ContractError ℕ
  | .buyAClub _ _ _ _ => do
    let fees ← Uint128.add st.config.platformFees st.config.transactionFees
    usdFees q st fees st.config.clubPrice
  | .stakeOnAClub _ _ amount _ => do
    let fees ← Uint128.add st.config.platformFees st.config.transactionFees
    let fees ← Uint128.add fees st.config.controlFees
    usdFees q st fees amount
  | .stakeWithdrawFromAClub _ _ amount _ => do
    let fees ← Uint128.add st.config.platformFees st.config.transactionFees
    usdFees q st fees amount
  | .claimStakerRewards staker clubName => do
    let reward ← queryStakerRewards st staker clubName
    let fees ← Uint128.add st.config.platformFees st.config.transactionFees
    usdFees q st fees reward
  | .assignAClub _ _ _ _ => return 0
  | .assignStakesToAClub _ _ => return 0
  | .releaseClub _ _ => return 0
  | .claimOwnerRewards _ _ => return 0
  | .claimPreviousOwnerRewards _ => return 0
  | .calculateAndDistributeRewards _ _ _ _ => return 0
  | .increaseRewardAmount _ _ => return 0

/-- The fees attached to a message. -/
def receivedFees (funds : List Coin) : Exec ContractError ℕ :=
  (funds.filter fun fund => fund.denom = st.config.usdcIbcSymbol).foldlM
    (fun fees fund => Uint128.add fees fund.amount) 0

/-- The check that the fees of a message are attached, but for a tenth of a per cent. The senders
in `feeFree` pay none. -/
def checkFees (info : MessageInfo) (feeFree : List Addr) (msg : ExecuteMsg) :
    Exec ContractError Unit := do
  let required ← (
    if info.sender ∈ feeFree then pure 0 else queryPlatformFees q st msg)
  let received ← receivedFees st info.funds
  let scaled ← Uint128.mul required ninetyNineNinePercent
  let adjusted ← Uint128.div scaled hundredPercent
  refuse (received < adjusted) (.insufficientFees required received)

end Fees

/-! ## Messages -/

section Messages

variable (st : Storage)

/-- The transfer of FURY from the contract. -/
def transferMsg (recipient : String) (amount : ℕ) : CosmosMsg Cw20.ExecuteMsg :=
  .wasmExecute st.config.furyTokenAddress (.transfer recipient amount) []

/-- The transfer of FURY from a sender who has lent it to the contract. -/
def transferFromMsg (owner recipient : String) (amount : ℕ) : CosmosMsg Cw20.ExecuteMsg :=
  .wasmExecute st.config.furyTokenAddress (.transferFrom owner recipient amount) []

/-- The attached coins are passed on as fees. -/
def feesMsg (info : MessageInfo) : CosmosMsg Cw20.ExecuteMsg :=
  .bankSend st.config.platformFeesCollectorWallet info.funds

end Messages

section Handlers

variable (api : Api) (q : Querier) (env : Env) (info : MessageInfo) (st : Storage)

/-! ## Clubs -/

/-- The owner who sells is shown to have released the club, in time, and to be the seller. -/
def checkReleased (seller : String) (owner : ClubOwnershipDetails) : Exec ContractError Unit := do
  refuseGeneric (owner.ownerReleased = false) "Owner has not released the club"
  let expires := Timestamp.plusSeconds owner.startTimestamp owner.lockingPeriod
  refuseGeneric (expires < env.block.time) "Release time for the club has expired"
  refuseGeneric (owner.ownerAddress ≠ "" ∧ owner.ownerAddress ≠ seller)
    "Seller is not the owner for the club"

/-- The reward that the owner who sells has not claimed is kept for the seller. -/
def keepOwnerReward (seller : String) (owner : ClubOwnershipDetails) :
    Exec ContractError Storage :=
  if owner.rewardAmount = 0 then return st
  else do
    let previous := ((st.previousOwners[seller]?).map (·.rewardAmount)).getD 0
    let rewardAmount ← Uint128.add previous owner.rewardAmount
    return { st with
      previousOwners := st.previousOwners.insert seller
        { previousOwnerAddress := seller, rewardAmount } }

/-- The club is saved with its new owner, who gets a stake of zero where there is none. -/
def saveOwner (club : ClubOwnershipDetails) (buyer clubName : String) (autoStake : Bool) :
    Exec ContractError Storage :=
  let st := { st with ownership := st.ownership.insert clubName club }
  if (st.stakes clubName buyer).any fun stake => stake.stakerAddress = buyer then return st
  else saveStakingDetails st env buyer clubName 0 autoStake true

/-- The part that buying and assigning a club share: the club is released or new, the buyer has no
club, and becomes the owner. -/
def acquireClub (buyer : String) (seller : Option String) (clubName : String) (pricePaid : ℕ)
    (autoStake : Bool) : Exec ContractError Storage := do
  let seller := seller.getD ""
  let buyerAddr ← validate api buyer
  refuseGeneric (∃ owner ∈ st.ownership.values, owner.ownerAddress = buyer)
    "buyer already owns this club"
  let (acquired, totalStakedAmount) ← (
    match st.ownership[clubName]? with
    | none => pure (st, 0)
    | some owner => do
      checkReleased env seller owner
      let kept ← keepOwnerReward st seller owner
      pure (kept, owner.totalStakedAmount))
  saveOwner env acquired
    { clubName
      startTimestamp := env.block.time
      lockingPeriod := st.config.ownerReleaseLockingDuration
      ownerAddress := buyerAddr
      pricePaid
      rewardAmount := clubBuyingRewardAmount
      ownerReleased := false
      totalStakedAmount } buyer clubName autoStake

/-- `buy_a_club`. -/
def buyAClub (buyer : String) (seller : Option String) (clubName : String) (price : ℕ)
    (autoStake : Bool) : Exec ContractError (Storage × Response Cw20.ExecuteMsg) := do
  refuse (info.sender ≠ buyer) .unauthorized
  refuseGeneric (price ≠ st.config.clubPrice) "Club price is not matching"
  checkFees q st info feeFreeBuyers (.buyAClub buyer seller clubName autoStake)
  let st ← acquireClub api env st buyer seller clubName price autoStake
  return (st, { messages :=
    [transferFromMsg st info.sender st.config.clubFeeCollectorWallet price, feesMsg st info] })

/-- `assign_a_club`. -/
def assignAClub (buyer : String) (seller : Option String) (clubName : String) (autoStake : Bool) :
    Exec ContractError (Storage × Response Cw20.ExecuteMsg) := do
  refuse (info.sender ≠ st.config.adminAddress) .unauthorized
  let st ← acquireClub api env st buyer seller clubName 0 autoStake
  return (st, {})

/-- `release_club`. -/
def releaseClub (seller clubName : String) :
    Exec ContractError (Storage × Response Cw20.ExecuteMsg) := do
  let sellerAddr ← validate api seller
  refuse (sellerAddr ≠ info.sender) .unauthorized
  match st.ownership[clubName]? with
  | none => failGeneric "Releaser is not the owner for the club"
  | some owner => do
    refuseGeneric (owner.ownerAddress ≠ sellerAddr) "Releaser is not the owner for the club"
    return ({ st with
      ownership := st.ownership.insert clubName { owner with
        startTimestamp := env.block.time
        ownerReleased := true } }, {})

/-- `claim_owner_rewards`. -/
def claimOwnerRewards (owner clubName : String) :
    Exec ContractError (Storage × Response Cw20.ExecuteMsg) := do
  let ownerAddr ← validate api owner
  refuse (ownerAddr ≠ info.sender) .unauthorized
  match st.ownership[clubName]? with
  | none => failGeneric "Not a valid owner for the club"
  | some details => do
    refuseGeneric (details.ownerAddress ≠ owner) "Not a valid owner for the club"
    refuseGeneric (details.rewardAmount = 0) "No rewards for this owner"
    let st := { st with
      ownership := st.ownership.insert clubName { details with rewardAmount := 0 } }
    return (st, { messages := [transferMsg st owner details.rewardAmount] })

/-- `claim_previous_owner_rewards`. -/
def claimPreviousOwnerRewards (previousOwner : String) :
    Exec ContractError (Storage × Response Cw20.ExecuteMsg) := do
  let previousOwnerAddr ← validate api previousOwner
  refuse (previousOwnerAddr ≠ info.sender) .unauthorized
  match st.previousOwners[previousOwner]? with
  | none => failGeneric "Not a valid previous owner for the club"
  | some details => do
    refuseGeneric (details.previousOwnerAddress ≠ previousOwner)
      "Not a valid previous owner for the club"
    refuseGeneric (details.rewardAmount = 0) "No rewards for this previous owner"
    let st := { st with previousOwners := st.previousOwners.erase previousOwner }
    return (st, { messages := [transferMsg st previousOwner details.rewardAmount] })

/-! ## Staking -/

/-- `stake_on_a_club`. -/
def stakeOnAClub (staker clubName : String) (amount : ℕ) (autoStake : Bool) :
    Exec ContractError (Storage × Response Cw20.ExecuteMsg) := do
  refuse (info.sender ≠ staker) .unauthorized
  let _ ← validate api staker
  checkFees q st info feeFreeStakers (.stakeOnAClub staker clubName amount autoStake)
  refuseGeneric (st.ownership[clubName]? = none) "The club is not available for staking"
  let st ← saveStakingDetails st env staker clubName amount autoStake true
  return (st, { messages :=
    [transferFromMsg st info.sender env.contractAddress amount, feesMsg st info] })

/-- One round of the loop over the assigned stakes: the stake is saved, and summed up. -/
def assignStake (clubName : String) (acc : Storage × ℕ) (stake : ClubStakingDetails) :
    Exec ContractError (Storage × ℕ) := do
  let total ← Uint128.add acc.2 stake.stakedAmount
  let st ← saveStakingDetails acc.1 env stake.stakerAddress clubName stake.stakedAmount
    stake.autoStake true
  return (st, total)

/-- `assign_stakes_to_a_club`. -/
def assignStakesToAClub (stakeList : List ClubStakingDetails) (clubName : String) :
    Exec ContractError (Storage × Response Cw20.ExecuteMsg) := do
  refuse (info.sender ≠ st.config.adminAddress) .unauthorized
  refuseGeneric (∃ stake ∈ stakeList, stake.clubName ≠ clubName) "Passed club names do not match"
  refuseGeneric (st.ownership[clubName]? = none) "The club is not available for staking"
  let (st, totalAmount) ← stakeList.foldlM (assignStake env clubName) (st, 0)
  return (st, { messages := [transferFromMsg st info.sender env.contractAddress totalAmount] })

/-! ## Withdrawals -/

/-- The variables of the loop over the bonds. -/
structure Unbonding where
  unbondedAmount : ℕ := 0
  amountRemaining : ℕ
  updatedBonds : List ClubBondingDetails := []
  deriving DecidableEq, Repr

/-- One round of the loop over the bonds: a mature bond is used up to what remains to be
withdrawn, and kept for the rest. -/
def unbond (stakerAddr : Addr) (acc : Unbonding) (bond : ClubBondingDetails) :
    Exec ContractError Unbonding :=
  let keep := { acc with updatedBonds := acc.updatedBonds ++ [bond] }
  if stakerAddr ≠ bond.bonderAddress then return keep
  else do
    let matured := Timestamp.minusSeconds env.block.time bond.bondingDuration
    if matured ≤ bond.bondingStartTimestamp ∨ acc.amountRemaining = 0 then return keep
    else if acc.amountRemaining < bond.bondedAmount then do
      let unbonded ← Uint128.add acc.unbondedAmount acc.amountRemaining
      let left ← Uint128.sub bond.bondedAmount acc.amountRemaining
      return ⟨unbonded, 0, acc.updatedBonds ++ [{ bond with bondedAmount := left }]⟩
    else do
      let unbonded ← Uint128.add acc.unbondedAmount bond.bondedAmount
      let remaining ← Uint128.sub acc.amountRemaining bond.bondedAmount
      return ⟨unbonded, remaining, acc.updatedBonds⟩

/-- The withdrawal of mature bonds; all of the amount must come from them. -/
def withdrawImmediately (stakerAddr : Addr) (staker clubName : String) (withdrawalAmount : ℕ) :
    Exec ContractError (Storage × Response Cw20.ExecuteMsg) := do
  -- latest first, by whole seconds; the sort is stable
  let bonds := (st.bonds clubName staker).insertionSort fun a b =>
    b.bondingStartTimestamp.seconds ≤ a.bondingStartTimestamp.seconds
  let acc ← bonds.foldlM (unbond env stakerAddr) { amountRemaining := withdrawalAmount }
  let st := { st with bonding := st.bonding.insert (clubName, staker) acc.updatedBonds }
  let decrease ← Uint128.sub withdrawalAmount acc.unbondedAmount
  let st ← saveStakingDetails st env staker clubName decrease false false
  refuseGeneric (acc.unbondedAmount < withdrawalAmount) "Not Sufficient Matured Unstaked Bonds"
  return (st, { messages := [transferMsg st staker withdrawalAmount, feesMsg st info] })

/-- The withdrawal of a stake into a bond. -/
def withdrawToBond (staker clubName : String) (withdrawalAmount : ℕ) :
    Exec ContractError (Storage × Response Cw20.ExecuteMsg) := do
  refuseGeneric (∃ stake ∈ st.stakes clubName staker, stake.stakerAddress = staker ∧
    stake.stakedAmount < withdrawalAmount) "Excess amount demanded for unstaking"
  refuseGeneric (st.config.maxBondingLimitPerUser ≤ (st.bonds clubName staker).length)
    "Too many bonded stakes for this staker"
  let st ← saveStakingDetails st env staker clubName withdrawalAmount false false
  let st := saveBondingDetails st env staker clubName withdrawalAmount st.config.bondingDuration
  return (st, { messages := [feesMsg st info] })

/-- `withdraw_stake_from_a_club`. -/
def withdrawStakeFromAClub (staker clubName : String) (withdrawalAmount : ℕ)
    (immediateWithdrawal : Bool) : Exec ContractError (Storage × Response Cw20.ExecuteMsg) := do
  let stakerAddr ← validate api staker
  refuse (stakerAddr ≠ info.sender) .unauthorized
  checkFees q st info feeFreeStakers
    (.stakeWithdrawFromAClub staker clubName withdrawalAmount immediateWithdrawal)
  refuseGeneric (st.staking[(clubName, staker)]? = none) "No stake found for this club"
  refuseGeneric (¬ ∃ stake ∈ st.stakes clubName staker, stake.stakerAddress = staker)
    "User has not staked in this club"
  refuseGeneric (st.ownership[clubName]? = none) "Invalid club"
  if immediateWithdrawal then
    withdrawImmediately env info st stakerAddr staker clubName withdrawalAmount
  else withdrawToBond env info st staker clubName withdrawalAmount

/-! ## Rewards -/

/-- `increase_reward_amount`. -/
def increaseRewardAmount (_rewardFrom : String) (amount : ℕ) :
    Exec ContractError (Storage × Response Cw20.ExecuteMsg) := do
  refuse (info.sender ≠ st.config.adminAddress) .unauthorized
  let reward ← Uint128.add (st.reward.getD 0) amount
  return ({ st with reward := some reward, rewardGivenInCurrentTimestamp := some 0 }, {})

/-- `claim_staker_rewards`. The loop collects the records without their rewards, and the records
as they were loaded are saved. -/
def claimStakerRewards (staker clubName : String) :
    Exec ContractError (Storage × Response Cw20.ExecuteMsg) := do
  let stakerAddr ← validate api staker
  refuse (stakerAddr ≠ info.sender) .unauthorized
  checkFees q st info [] (.claimStakerRewards staker clubName)
  let stakes := st.stakes clubName staker
  let own := stakes.filter fun stake => stake.stakerAddress = staker
  let amount ← own.foldlM (fun amount stake => Uint128.add amount stake.rewardAmount) 0
  let st := { st with staking := st.staking.insert (clubName, staker) stakes }
  refuseGeneric (own = []) "Not a valid staker for the club"
  refuseGeneric (amount = 0) "No rewards for this user"
  return (st, { messages := [transferMsg st staker amount, feesMsg st info] })

/-- `execute`. -/
def execute : ExecuteMsg → Exec ContractError (Storage × Response Cw20.ExecuteMsg)
  | .stakeOnAClub staker clubName amount autoStake =>
    stakeOnAClub api q env info st staker clubName amount autoStake
  | .assignStakesToAClub stakeList clubName => assignStakesToAClub env info st stakeList clubName
  | .buyAClub buyer seller clubName autoStake =>
    buyAClub api q env info st buyer seller clubName st.config.clubPrice autoStake
  | .assignAClub buyer seller clubName autoStake =>
    assignAClub api env info st buyer seller clubName autoStake
  | .releaseClub owner clubName => releaseClub api env info st owner clubName
  | .claimOwnerRewards owner clubName => claimOwnerRewards api info st owner clubName
  | .claimPreviousOwnerRewards previousOwner =>
    claimPreviousOwnerRewards api info st previousOwner
  | .stakeWithdrawFromAClub staker clubName amount immediateWithdrawal =>
    withdrawStakeFromAClub api q env info st staker clubName amount immediateWithdrawal
  | .calculateAndDistributeRewards stakerList clubName isFirstBatch isFinalBatch =>
    calculateAndDistributeRewards env info st stakerList clubName isFirstBatch isFinalBatch
  | .claimStakerRewards staker clubName => claimStakerRewards api q info st staker clubName
  | .increaseRewardAmount rewardFrom amount => increaseRewardAmount info st rewardFrom amount

end Handlers

end Clubstaking
