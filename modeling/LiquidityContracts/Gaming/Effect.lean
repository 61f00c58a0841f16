import LiquidityContracts.CosmWasm.Run
import LiquidityContracts.Gaming.Records

/-!
# The effects of the messages

Every handler of the gaming pool is taken apart once, down to what it does to the game, the pools
and the teams.

## Main definitions

* `Call`, `exec`: a call of an entry point with the answers it meets, and its effect
* `Effect`: what an accepted call does to the state
* `Continues`: how the teams of a gamer in a pool go on
* `Initial`: the state of a contract that has just been instantiated

## Main results

* `claimReward_spec`, `claimRefund_spec`: the claims, with what they pay
* `gamePoolRewardDistribute_spec`: a batch of rewards
* `exec_effect`: every accepted call has one of the effects
* `Effect.continues`: in every effect the teams stay in their places
-/

namespace Gamingpool

open CosmWasm

/-- The entry points that change the state. -/
inductive Entry where
  | execute (info : MessageInfo) (msg : ExecuteMsg)
  | reply (id : ℕ)
  deriving DecidableEq, Repr

/-- A call as the contract receives it: the answers to its queries, and the block. -/
structure Call where
  q : Querier
  env : Env
  entry : Entry

/-- The effect of a call; `none` when it is reverted. -/
def exec (api : Api) (st : Storage) (c : Call) : Option (Storage × Response Payload) :=
  match c.entry with
  | .execute info msg => (execute api c.q c.env info st msg).toOption
  | .reply id => (reply c.q c.env st id).toOption

/-- The state of a contract that has just been instantiated. -/
def Initial (api : Api) (st : Storage) : Prop := ∃ msg, instantiate api msg = .ok st

/-- A pool that has just been created. -/
def newPool (gameId poolId poolType : String) : PoolDetails where
  poolId := poolId
  gameId := gameId
  poolType := poolType
  currentTeamsCount := 0
  rewardsDistributed := notDistributed
  poolRefundStatus := false
  poolRewardStatus := false

/-- A pool after a bid. -/
def PoolDetails.joined (poolId poolType : String) (pool : PoolDetails) : PoolDetails where
  poolId := poolId
  gameId := pool.gameId
  poolType := poolType
  currentTeamsCount := pool.currentTeamsCount + 1
  rewardsDistributed := pool.rewardsDistributed
  poolRefundStatus := false
  poolRewardStatus := false

/-- A pool after a batch of rewards. -/
def PoolDetails.distributedTo (gameId poolId : String) (isFinalBatch : Bool) (pool : PoolDetails) :
    PoolDetails where
  poolId := poolId
  gameId := gameId
  poolType := pool.poolType
  currentTeamsCount := pool.currentTeamsCount
  rewardsDistributed := isFinalBatch
  poolRefundStatus := false
  poolRewardStatus := true

/-- The team of a bid. -/
def newTeam (gameId gamer poolId teamId poolType : String) : PoolTeamDetails where
  poolId := poolId
  gameId := gameId
  poolType := poolType
  gamerAddress := gamer
  teamId := teamId
  rewardAmount := initialRewardAmount
  claimedReward := unclaimedReward
  refundAmount := initialRefundAmount
  claimedRefund := unclaimedRefund
  teamPoints := initialTeamPoints
  teamRank := initialTeamRank

/-- A pool of a type is opened, under the next number. -/
structure Opens (api : Api) (poolType : String) (st st' : Storage) : Prop where
  opened : st.status = some gamePoolOpen
  created : ∃ address count, api dummyWallet = .ok address ∧
    count = (st.contractPoolCount[address]?).getD 0 + 1 ∧
    st' = { st with
      contractPoolCount := st.contractPoolCount.insert address count
      poolDetails := st.poolDetails.insert (toString count)
        (newPool st.config.gameId (toString count) poolType) }

/-- A gamer's bid is taken: the pool is saved with the type that the bid names, and with a team
more. -/
structure Joins (info : MessageInfo) (gamer poolType poolId teamId : String) (st st' : Storage) :
    Prop where
  sender : gamer = info.sender
  opened : st.status = some gamePoolOpen
  joined : ∃ details pool, st.poolTypeDetails[poolType]? = some details ∧
    (st.teams poolId gamer).countP (fun team => team.gamerAddress = gamer) <
      details.maxTeamsForGamer ∧
    st.poolDetails[poolId]? = some pool ∧ pool.currentTeamsCount < details.maxTeamsForPool ∧
    st' = { st with
      poolDetails := st.poolDetails.insert poolId (pool.joined poolId poolType)
      poolTeamDetails := st.poolTeamDetails.insert (poolId, gamer)
        (st.teams poolId gamer ++ [newTeam st.config.gameId gamer poolId teamId poolType]) }

/-- A gamer's claim of rewards is paid: what is due is marked as claimed. -/
structure ClaimsRewards (api : Api) (info : MessageInfo) (gamer : String) (st st' : Storage) :
    Prop where
  sender : api gamer = .ok info.sender
  pos : 0 < (st.poolDetails.keys.map (rewardsDue st gamer)).sum
  teams : ∀ p g, st'.teams p g = if g = gamer ∧ st.rewardStatus p = true then
    (st.teams p g).map PoolTeamDetails.claimReward else st.teams p g
  rest : ∃ teams, st' = { st with poolTeamDetails := teams }

/-- A gamer's claim of refunds is paid: the teams in the pools to be refunded are marked, none of
which was before. -/
structure ClaimsRefunds (api : Api) (info : MessageInfo) (gamer : String) (st st' : Storage) :
    Prop where
  sender : api gamer = .ok info.sender
  pos : 0 < (st.poolDetails.keys.map (refundsDue st gamer)).sum
  unclaimed : ∀ p, st.refundStatus p = true → ∀ team ∈ st.teams p gamer, team.claimedRefund = false
  teams : ∀ p g, st'.teams p g = if g = gamer ∧ st.refundStatus p = true then
    (st.teams p g).map (PoolTeamDetails.claimRefund (st.feeOf p)) else st.teams p g
  rest : ∃ teams, st' = { st with poolTeamDetails := teams }

/-- A batch of rewards for a pool is handed out: the teams of the listed gamers have the rewards of
the winners that name them, and the game is completed when it is the final batch. -/
structure Distributes (poolId : String) (gameWinners : List GameResult) (isFinalBatch : Bool)
    (st st' : Storage) : Prop where
  live : ∃ status, st.status = some status ∧ status ≠ gameCancelled ∧ status ≠ gamePoolOpen
  distributed : ∃ pool teams total, st.poolDetails[poolId]? = some pool ∧
    (∀ k, teamsAt teams k =
      if k.1 = poolId ∧ k.2 ∈ gameWinners.map (·.gamerAddress) then
        (teamsAt st.poolTeamDetails k).map (rewarded st.config.gameId gameWinners)
      else teamsAt st.poolTeamDetails k) ∧
    st' = { st.setGameStatus (if isFinalBatch then gameCompleted else gamePoolClosed) with
      poolDetails := st.poolDetails.insert poolId
        (pool.distributedTo st.config.gameId poolId isFinalBatch)
      poolTeamDetails := teams
      currentRewardForPool := st.currentRewardForPool.insert poolId (.reward total) }

/-- What an accepted call does to the state. -/
inductive Effect (api : Api) (st st' : Storage) (entry : Entry) : Prop
  | keeps (wallets : Store String WalletPercentage) (slots : Store String PoolSlot)
      (hst : st' = { st with platformWalletPercentages := wallets, currentRewardForPool := slots })
  | setsType (poolType : String) (details : PoolTypeDetails)
      (hnone : st.poolTypeDetails[poolType]? = none)
      (hst : st' = { st with poolTypeDetails := st.poolTypeDetails.insert poolType details })
  | cancels (info : MessageInfo) (status : ℕ) (pools : Store String PoolDetails)
      (hentry : entry = .execute info .cancelGame) (hstatus : st.status = some status)
      (hlive : status ≠ gameCompleted ∧ status ≠ gameCancelled)
      (hpools : ∀ p : String, pools[p]? = (st.poolDetails[p]?).map PoolDetails.refunded)
      (hst : st' = { st.setGameStatus gameCancelled with poolDetails := pools })
  | locks (info : MessageInfo) (pools : Store String PoolDetails)
      (hentry : entry = .execute info .lockGame) (hopen : st.status = some gamePoolOpen)
      (hpools : ∀ p : String, Locked st (st.poolDetails[p]?) (pools[p]?))
      (hst : st' = { st.setGameStatus gamePoolClosed with poolDetails := pools })
  | creates (info : MessageInfo) (poolType : String)
      (hentry : entry = .execute info (.createPool poolType)) (hopens : Opens api poolType st st')
  | bids (info : MessageInfo) (gamer poolType poolId teamId : String) (amount : ℕ)
      (hentry : entry =
        .execute info (.gamePoolBidSubmitCommand gamer poolType poolId teamId amount))
      (hjoins : Joins info gamer poolType poolId teamId st st')
  | claimsRewards (info : MessageInfo) (gamer : String)
      (hentry : entry = .execute info (.claimReward gamer))
      (hclaims : ClaimsRewards api info gamer st st')
  | claimsRefunds (info : MessageInfo) (gamer : String)
      (hentry : entry = .execute info (.claimRefund gamer))
      (hclaims : ClaimsRefunds api info gamer st st')
  | distributes (info : MessageInfo) (poolId : String) (gameWinners : List GameResult)
      (isFinalBatch : Bool) (ustForRake : ℕ) (gameId : String) (status : ℕ) (pool : PoolDetails)
      (teams : Teams) (slots : Store String PoolSlot)
      (hentry : entry = .execute info
        (.gamePoolRewardDistribute poolId gameWinners isFinalBatch ustForRake gameId))
      (hstatus : st.status = some status)
      (hclosed : status ≠ gameCancelled ∧ status ≠ gamePoolOpen)
      (hpool : st.poolDetails[poolId]? = some pool)
      (hteams : ∀ k, teamsAt teams k =
        if k.1 = poolId ∧ k.2 ∈ gameWinners.map (·.gamerAddress) then
          (teamsAt st.poolTeamDetails k).map (rewarded st.config.gameId gameWinners)
        else teamsAt st.poolTeamDetails k)
      (hst : st' = { st.setGameStatus (if isFinalBatch then gameCompleted else gamePoolClosed) with
        poolDetails := st.poolDetails.insert poolId
          (pool.distributedTo st.config.gameId poolId isFinalBatch)
        poolTeamDetails := teams
        currentRewardForPool := slots })

section Handlers

variable {api : Api} {q : Querier} {env : Env} {info : MessageInfo} {st st' : Storage}
  {r : Response Payload}

theorem loadGame_eq_ok {game : GameDetails} (h : loadGame st = .ok game) :
    st.status = some game.gameStatus := by
  unfold loadGame at h
  split at h
  · rename_i game' hgame
    obtain rfl := pure_eq_ok.mp h
    rw [Storage.status, hgame, Option.map_some]
  · exact absurd h (failGeneric_ne_ok _ _)

theorem queryPoolDetails_eq_ok {poolId : String} {pool : PoolDetails}
    (h : queryPoolDetails st poolId = .ok pool) : st.poolDetails[poolId]? = some pool := by
  unfold queryPoolDetails at h
  split at h
  · rename_i pool' hpool
    obtain rfl := pure_eq_ok.mp h
    exact hpool
  · exact absurd h (failGeneric_ne_ok _ _)

/-! ## The game -/

theorem status_setGameStatus (n : ℕ) : (st.setGameStatus n).status = some n := by
  simp [Storage.status, Storage.setGameStatus]

/-- Cancelling the game opens every pool for refunds, and emits nothing. -/
theorem cancelGame_spec (h : cancelGame info st = .ok (st', r)) :
    ∃ status pools, st.status = some status ∧ (status ≠ gameCompleted ∧ status ≠ gameCancelled) ∧
      (∀ p : String, pools[p]? = (st.poolDetails[p]?).map PoolDetails.refunded) ∧
      st' = { st.setGameStatus gameCancelled with poolDetails := pools } ∧ r = {} := by
  unfold cancelGame at h
  obtain ⟨-, -, h⟩ := bind_eq_ok.mp h
  obtain ⟨game, hgame, h⟩ := bind_eq_ok.mp h
  obtain ⟨hover, h⟩ := refuseGeneric_bind_eq_ok.mp h
  obtain ⟨hcancelled, h⟩ := refuseGeneric_bind_eq_ok.mp h
  obtain ⟨pools, hpools, h⟩ := bind_eq_ok.mp h
  cases pure_eq_ok.mp h
  exact ⟨game.gameStatus, pools, loadGame_eq_ok hgame, ⟨hover, hcancelled⟩,
    foldlM_cancelPool hpools, rfl, rfl⟩

theorem cancelGame_effect (h : cancelGame info st = .ok (st', r)) :
    Effect api st st' (.execute info .cancelGame) := by
  obtain ⟨status, pools, hstatus, hlive, hpools, hst, -⟩ := cancelGame_spec h
  exact .cancels info status pools rfl hstatus hlive hpools hst

theorem status_eq_open {game : GameDetails} (h : loadGame st = .ok game)
    (hopen : ¬ game.gameStatus ≠ gamePoolOpen) : st.status = some gamePoolOpen := by
  rw [loadGame_eq_ok h, not_not.mp hopen]

/-- Locking the game opens the pools that have too few teams for refunds. -/
theorem lockGame_spec (h : lockGame info st = .ok (st', r)) :
    ∃ pools : Store String PoolDetails, st.status = some gamePoolOpen ∧
      (∀ p : String, Locked st (st.poolDetails[p]?) (pools[p]?)) ∧
      st' = { st.setGameStatus gamePoolClosed with poolDetails := pools } := by
  unfold lockGame at h
  obtain ⟨-, -, h⟩ := bind_eq_ok.mp h
  obtain ⟨game, hgame, h⟩ := bind_eq_ok.mp h
  obtain ⟨hopen, h⟩ := refuseGeneric_bind_eq_ok.mp h
  obtain ⟨pools, hpools, h⟩ := bind_eq_ok.mp h
  cases pure_eq_ok.mp h
  exact ⟨pools, status_eq_open hgame hopen, foldlM_lockPool hpools, rfl⟩

theorem lockGame_effect (h : lockGame info st = .ok (st', r)) :
    Effect api st st' (.execute info .lockGame) := by
  obtain ⟨pools, hopen, hpools, hst⟩ := lockGame_spec h
  exact .locks info pools rfl hopen hpools hst

theorem createPool_spec {poolType : String} (h : createPool api info st poolType = .ok (st', r)) :
    Opens api poolType st st' := by
  unfold createPool at h
  obtain ⟨-, -, h⟩ := bind_eq_ok.mp h
  obtain ⟨game, hgame, h⟩ := bind_eq_ok.mp h
  obtain ⟨hopen, h⟩ := refuseGeneric_bind_eq_ok.mp h
  obtain ⟨address, haddress, h⟩ := bind_eq_ok.mp h
  obtain ⟨count, hcount, h⟩ := bind_eq_ok.mp h
  cases pure_eq_ok.mp h
  exact ⟨status_eq_open hgame hopen, address, count, validate_eq_ok.mp haddress,
    (Uint128.add_eq_ok.mp hcount).2, rfl⟩

theorem setPoolTypeParams_effect {poolType : String} {fee min max maxGamer : ℕ}
    {rake : List WalletPercentage} {entry : Entry}
    (h : setPoolTypeParams info st poolType fee min max maxGamer rake = .ok (st', r)) :
    Effect api st st' entry := by
  unfold setPoolTypeParams at h
  obtain ⟨-, -, h⟩ := bind_eq_ok.mp h
  obtain ⟨hnew, h⟩ := refuseGeneric_bind_eq_ok.mp h
  cases pure_eq_ok.mp h
  exact .setsType poolType _ (by simpa using hnew) rfl

/-! ## Fees -/

/-- The platform and transaction fees are cut off to whole units, each on its own. -/
theorem queryPlatformFees_spec {n platform transaction : ℕ} {fees : FeeDetails}
    (h : queryPlatformFees n platform transaction = .ok fees) :
    fees.platformFee = n * platform / hundredPercent ∧
      fees.transactionFee = n * transaction / hundredPercent := by
  unfold queryPlatformFees at h
  obtain ⟨platformScaled, hplatformScaled, h⟩ := bind_eq_ok.mp h
  obtain ⟨platformFee, hplatform, h⟩ := bind_eq_ok.mp h
  obtain ⟨transactionScaled, htransactionScaled, h⟩ := bind_eq_ok.mp h
  obtain ⟨transactionFee, htransaction, h⟩ := bind_eq_ok.mp h
  obtain rfl := pure_eq_ok.mp h
  obtain ⟨-, rfl⟩ := Uint128.checkedMul_eq_ok.mp hplatformScaled
  obtain ⟨-, rfl⟩ := Uint128.checkedMul_eq_ok.mp htransactionScaled
  exact ⟨(Uint128.checkedDiv_eq_ok.mp hplatform).2, (Uint128.checkedDiv_eq_ok.mp htransaction).2⟩

/-- The fees of a swap are in per mille of an amount, while the computation is in range. -/
theorem swapFeeOf_eq_ok {swapConfig : FanfuryswapConfigResponse} {n fee : ℕ} :
    swapFeeOf swapConfig n = .ok fee ↔
      n * Uint64.add swapConfig.platformFee swapConfig.txFee < Uint128.bound ∧
        fee = n * Uint64.add swapConfig.platformFee swapConfig.txFee / Util.thousand :=
  Util.perMille_eq_ok

theorem swapFeeOf_spec {swapConfig : FanfuryswapConfigResponse} {n fee : ℕ}
    (h : swapFeeOf swapConfig n = .ok fee) :
    fee = n * Uint64.add swapConfig.platformFee swapConfig.txFee / Util.thousand :=
  (swapFeeOf_eq_ok.mp h).2

/-- A message that swaps USDC at the pool, for what the pool has quoted: the fee is computed of the
amount, and attached on top of it. -/
def SellsUsdc (q : Querier) (st : Storage) (amount : ℕ) (m : CosmosMsg Payload) : Prop :=
  ∃ swapConfig expectedFury swapFee,
    q.swapConfig st.config.poolAddress = .ok swapConfig ∧
    swapFeeOf swapConfig amount = .ok swapFee ∧
    q.token1ForToken2Price st.config.poolAddress amount = .ok expectedFury ∧
    amount + swapFee < Uint128.bound ∧
    m = .wasmExecute st.config.poolAddress
      (.fanfuryswap (.swap .token1 amount expectedFury swapFee none))
      [⟨st.config.usdcIbcSymbol, amount + swapFee⟩]

/-! ## Bids -/

theorem gamePoolBidSubmit_spec {gamer poolType poolId teamId : String} {amount : ℕ}
    (h : gamePoolBidSubmit q env info st gamer poolType poolId teamId amount = .ok (st', r)) :
    Joins info gamer poolType poolId teamId st st' := by
  unfold gamePoolBidSubmit at h
  obtain ⟨hsender, h⟩ := refuse_bind_eq_ok.mp h
  obtain ⟨game, hgame, h⟩ := bind_eq_ok.mp h
  obtain ⟨hopen, h⟩ := refuseGeneric_bind_eq_ok.mp h
  split at h
  -- the type that the bid names is not set up
  · exact absurd h (failGeneric_ne_ok _ _)
  · rename_i details hdetails
    obtain ⟨-, -, h⟩ := bind_eq_ok.mp h
    obtain ⟨-, -, h⟩ := bind_eq_ok.mp h
    obtain ⟨hgamer, h⟩ := refuseGeneric_bind_eq_ok.mp h
    obtain ⟨pool, hpool, h⟩ := bind_eq_ok.mp h
    obtain ⟨hroom, h⟩ := refuseGeneric_bind_eq_ok.mp h
    -- past the checks of the gamer's and of the pool's teams only the messages can fail
    obtain ⟨messages, -, h⟩ := bind_eq_ok.mp h
    cases pure_eq_ok.mp h
    exact ⟨not_not.mp hsender, status_eq_open hgame hopen, details, pool, hdetails,
      not_le.mp hgamer, queryPoolDetails_eq_ok hpool, not_le.mp hroom, rfl⟩

/-- What a bid emits are the messages that take its FURY and swap it. -/
theorem gamePoolBidSubmit_messages {gamer poolType poolId teamId : String} {amount : ℕ}
    (h : gamePoolBidSubmit q env info st gamer poolType poolId teamId amount = .ok (st', r)) :
    bidMessages q env info st amount = .ok r.messages ∧ r.submessages = [] := by
  unfold gamePoolBidSubmit at h
  obtain ⟨-, h⟩ := refuse_bind_eq_ok.mp h
  obtain ⟨game, -, h⟩ := bind_eq_ok.mp h
  obtain ⟨-, h⟩ := refuseGeneric_bind_eq_ok.mp h
  split at h
  · exact absurd h (failGeneric_ne_ok _ _)
  · obtain ⟨-, -, h⟩ := bind_eq_ok.mp h
    obtain ⟨-, -, h⟩ := bind_eq_ok.mp h
    obtain ⟨-, h⟩ := refuseGeneric_bind_eq_ok.mp h
    obtain ⟨pool, -, h⟩ := bind_eq_ok.mp h
    obtain ⟨-, h⟩ := refuseGeneric_bind_eq_ok.mp h
    obtain ⟨messages, hmessages, h⟩ := bind_eq_ok.mp h
    cases pure_eq_ok.mp h
    exact ⟨hmessages, rfl⟩

/-- The messages of a bid: its FURY is taken and lent to the pool, and swapped for what the pool
has quoted, with the fee of the swap attached. -/
theorem bidMessages_spec {amount : ℕ} {messages : List (CosmosMsg Payload)}
    (h : bidMessages q env info st amount = .ok messages) :
    ∃ swapConfig expectedUsdc fee,
      q.swapConfig st.config.poolAddress = .ok swapConfig ∧
      q.token2ForToken1Price st.config.poolAddress amount = .ok expectedUsdc ∧
      swapFeeOf swapConfig expectedUsdc = .ok fee ∧
      messages = [
        .wasmExecute st.config.furyTokenAddress
          (.cw20 (.transferFrom info.sender env.contractAddress amount)) [],
        .wasmExecute st.config.furyTokenAddress
          (.cw20 (.increaseAllowance st.config.poolAddress amount none)) [],
        .wasmExecute st.config.poolAddress
          (.fanfuryswap (.swap .token2 amount expectedUsdc fee none))
          [⟨st.config.usdcIbcSymbol, fee⟩]] := by
  unfold bidMessages at h
  obtain ⟨swapConfig, hconfig, h⟩ := bind_eq_ok.mp h
  obtain ⟨expectedUsdc, hexpected, h⟩ := bind_eq_ok.mp h
  obtain ⟨fee, hfee, h⟩ := bind_eq_ok.mp h
  obtain rfl := pure_eq_ok.mp h
  exact ⟨swapConfig, expectedUsdc, fee, liftStd_eq_ok.mp hconfig, liftStd_eq_ok.mp hexpected,
    hfee, rfl⟩

/-! ## Claims -/

/-- **A claim of rewards** pays what is due for the gamer's teams in the pools with rewards, and
marks them. -/
theorem claimReward_spec {gamer : String} (h : claimReward api q info st gamer = .ok (st', r)) :
    ClaimsRewards api info gamer st st' ∧
      r.messages = [.bankSend st.config.platformFeesCollectorWallet info.funds,
        .wasmExecute st.config.furyTokenAddress (.cw20 (.transfer info.sender
          (st.poolDetails.keys.map (rewardsDue st gamer)).sum)) []] := by
  unfold claimReward at h
  obtain ⟨gamerAddr, haddr, h⟩ := bind_eq_ok.mp h
  obtain ⟨hsender, h⟩ := refuse_bind_eq_ok.mp h
  obtain ⟨⟨teams, userReward⟩, hloop, h⟩ := bind_eq_ok.mp h
  obtain ⟨hpos, h⟩ := refuseGeneric_bind_eq_ok.mp h
  obtain ⟨-, -, h⟩ := bind_eq_ok.mp h
  cases pure_eq_ok.mp h
  -- the loop over the pools has marked the teams and added up what is due for them
  obtain ⟨hteams, hamount⟩ := foldlM_claimPoolReward hloop
  dsimp only at hteams hamount
  rw [not_not.mp hsender] at haddr
  rw [hamount] at hpos ⊢
  exact ⟨⟨validate_eq_ok.mp haddr, Nat.pos_of_ne_zero hpos, fun p g => hteams (p, g), teams, rfl⟩,
    rfl⟩

/-- The messages of a claim of refunds: a swap of the amount, and the fees sent back. -/
theorem refundMessages_spec {total : ℕ} {messages : List (CosmosMsg Payload)}
    (h : refundMessages q info st total = .ok messages) :
    ∃ m fees, SellsUsdc q st total m ∧
      queryPlatformFees total st.config.platformFee st.config.transactionFee = .ok fees ∧
      messages = [m, .bankSend info.sender
        [⟨st.config.usdcIbcSymbol, fees.transactionFee + fees.platformFee⟩]] := by
  unfold refundMessages at h
  obtain ⟨fees, hfees, h⟩ := bind_eq_ok.mp h
  obtain ⟨feesTotal, hfeesTotal, h⟩ := bind_eq_ok.mp h
  obtain ⟨swapConfig, hconfig, h⟩ := bind_eq_ok.mp h
  obtain ⟨swapFee, hswapFee, h⟩ := bind_eq_ok.mp h
  obtain ⟨expectedFury, hexpected, h⟩ := bind_eq_ok.mp h
  obtain ⟨final, hfinal, h⟩ := bind_eq_ok.mp h
  obtain rfl := pure_eq_ok.mp h
  obtain ⟨hlt, rfl⟩ := Uint128.add_eq_ok.mp hfinal
  -- the fees of the swap are attached to it, those of the platform are sent apart
  rw [(Uint128.add_eq_ok.mp hfeesTotal).2]
  exact ⟨_, fees, ⟨swapConfig, expectedFury, swapFee, liftStd_eq_ok.mp hconfig, hswapFee,
    liftStd_eq_ok.mp hexpected, hlt, rfl⟩, hfees, rfl⟩

/-- **A claim of refunds** marks the gamer's teams in the pools to be refunded, none of which was
before, and swaps what is due for them. -/
theorem claimRefund_spec {gamer : String} (h : claimRefund api q info st gamer = .ok (st', r)) :
    ClaimsRefunds api info gamer st st' ∧
      refundMessages q info st (st.poolDetails.keys.map (refundsDue st gamer)).sum =
        .ok r.messages ∧
      r.submessages = [] := by
  unfold claimRefund at h
  obtain ⟨gamerAddr, haddr, h⟩ := bind_eq_ok.mp h
  obtain ⟨hsender, h⟩ := refuse_bind_eq_ok.mp h
  obtain ⟨⟨teams, total⟩, hloop, h⟩ := bind_eq_ok.mp h
  obtain ⟨hpos, h⟩ := refuseGeneric_bind_eq_ok.mp h
  obtain ⟨messages, hmessages, h⟩ := bind_eq_ok.mp h
  cases pure_eq_ok.mp h
  -- the loop over the pools has marked the teams and added up what is due for them
  obtain ⟨hteams, hamount, hnone⟩ := foldlM_claimPoolRefund hloop
  dsimp only at hteams hamount
  rw [not_not.mp hsender] at haddr
  rw [hamount] at hpos hmessages
  exact ⟨⟨validate_eq_ok.mp haddr, Nat.pos_of_ne_zero hpos, hnone, fun p g => hteams (p, g), teams,
    rfl⟩, hmessages, rfl⟩

/-! ## Rewards -/

theorem addReward_spec {poolId : String} {given : ℕ} (h : addReward st poolId given = .ok st') :
    ∃ total, st' = { st with
      currentRewardForPool := st.currentRewardForPool.insert poolId (.reward total) } := by
  unfold addReward at h
  obtain ⟨rewardTotal, -, h⟩ := bind_eq_ok.mp h
  exact ⟨rewardTotal, (pure_eq_ok.mp h).symm⟩

/-- The total of a pool grows by what is given, from nothing where no total can be read. -/
theorem addReward_total {poolId : String} {given : ℕ} (h : addReward st poolId given = .ok st') :
    st'.currentRewardForPool = st.currentRewardForPool.insert poolId (.reward
      (((st.currentRewardForPool[poolId]?).bind PoolSlot.reward?).getD 0 + given)) := by
  unfold addReward at h
  obtain ⟨rewardTotal, htotal, h⟩ := bind_eq_ok.mp h
  rw [← pure_eq_ok.mp h]
  cases hcurrent : (st.currentRewardForPool[poolId]?).bind PoolSlot.reward? with
  | none =>
    rw [hcurrent] at htotal
    rw [← pure_eq_ok.mp htotal, Option.getD_none, Nat.zero_add]
  | some current =>
    rw [hcurrent] at htotal
    rw [(Uint128.add_eq_ok.mp htotal).2]
    rfl

/-- The parts of a batch of rewards: the game is locked or over, the winners are rewarded one by
one, and what they are given is added to the total of the pool. What is for the rake makes no
difference but to what is emitted. -/
theorem gamePoolRewardDistribute_parts {poolId : String} {gameWinners : List GameResult}
    {isFinalBatch : Bool} {ustForRake : ℕ}
    (h : gamePoolRewardDistribute info st poolId gameWinners isFinalBatch ustForRake =
      .ok (st', r)) :
    ∃ status pool details teams given, st.status = some status ∧
      (status ≠ gameCancelled ∧ status ≠ gamePoolOpen) ∧ st.poolDetails[poolId]? = some pool ∧
      st.poolTypeDetails[pool.poolType]? = some details ∧
      gameWinners.foldlM (rewardWinner st.config.gameId poolId gameWinners)
        (st.poolTeamDetails, 0) = .ok (teams, given) ∧
      addReward { st.setGameStatus (if isFinalBatch then gameCompleted else gamePoolClosed) with
        poolDetails := st.poolDetails.insert poolId
          (pool.distributedTo st.config.gameId poolId isFinalBatch)
        poolTeamDetails := teams } poolId given = .ok st' ∧
      ∀ u, gamePoolRewardDistribute info st poolId gameWinners isFinalBatch u =
        .ok (st', if isFinalBatch = true ∧ u ≠ 0 then
          transferToMultipleWallets st (details.rakeList.map (rakeTransfer u)) else {}) := by
  unfold gamePoolRewardDistribute at h
  obtain ⟨admin, hadmin, h⟩ := bind_eq_ok.mp h
  obtain ⟨game, hgame, h⟩ := bind_eq_ok.mp h
  obtain ⟨hcancelled, h⟩ := refuseGeneric_bind_eq_ok.mp h
  obtain ⟨hopen, h⟩ := refuseGeneric_bind_eq_ok.mp h
  obtain ⟨pool, hpool, h⟩ := bind_eq_ok.mp h
  obtain ⟨hdistributed, h⟩ := refuseGeneric_bind_eq_ok.mp h
  split at h
  · exact absurd h (failGeneric_ne_ok _ _)
  · rename_i details hdetails
    obtain ⟨fees, hfees, h⟩ := bind_eq_ok.mp h
    obtain ⟨total, htotal, h⟩ := bind_eq_ok.mp h
    obtain ⟨⟨teams, given⟩, hloop, h⟩ := bind_eq_ok.mp h
    obtain ⟨saved, hsaved, h⟩ := bind_eq_ok.mp h
    -- whether the rake is paid makes no difference to the state
    have hst : saved = st' := by
      split at h
      · cases pure_eq_ok.mp h
        rfl
      · cases pure_eq_ok.mp h
        rfl
    rw [hst] at hsaved
    refine ⟨game.gameStatus, pool, details, teams, given, loadGame_eq_ok hgame,
      ⟨hcancelled, hopen⟩, queryPoolDetails_eq_ok hpool, hdetails, hloop, hsaved, fun u => ?_⟩
    unfold gamePoolRewardDistribute
    -- no check before the transfers sees the amount
    refine bind_eq_ok.mpr ⟨admin, hadmin, bind_eq_ok.mpr ⟨game, hgame, ?_⟩⟩
    refine refuseGeneric_bind_eq_ok.mpr ⟨hcancelled, refuseGeneric_bind_eq_ok.mpr ⟨hopen, ?_⟩⟩
    refine bind_eq_ok.mpr ⟨pool, hpool, refuseGeneric_bind_eq_ok.mpr ⟨hdistributed, ?_⟩⟩
    rw [hdetails]
    refine bind_eq_ok.mpr ⟨fees, hfees, bind_eq_ok.mpr ⟨total, htotal, ?_⟩⟩
    refine bind_eq_ok.mpr ⟨(teams, given), hloop, bind_eq_ok.mpr ⟨st', hsaved, ?_⟩⟩
    split
    · rfl
    · rfl

/-- **A batch of rewards** sets the status of the game, the flags of the pool and the rewards of the
teams. -/
theorem gamePoolRewardDistribute_spec {poolId : String} {gameWinners : List GameResult}
    {isFinalBatch : Bool} {ustForRake : ℕ}
    (h : gamePoolRewardDistribute info st poolId gameWinners isFinalBatch ustForRake =
      .ok (st', r)) : Distributes poolId gameWinners isFinalBatch st st' := by
  obtain ⟨status, pool, -, teams, given, hstatus, hlive, hpool, -, hloop, hsaved, -⟩ :=
    gamePoolRewardDistribute_parts h
  obtain ⟨total, hst⟩ := addReward_spec hsaved
  exact ⟨⟨status, hstatus, hlive⟩, pool, teams, total, hpool, (foldlM_rewardWinner hloop).1, hst⟩

theorem Distributes.effect {poolId gameId : String} {gameWinners : List GameResult}
    {isFinalBatch : Bool} {ustForRake : ℕ} (h : Distributes poolId gameWinners isFinalBatch st st') :
    Effect api st st' (.execute info
      (.gamePoolRewardDistribute poolId gameWinners isFinalBatch ustForRake gameId)) := by
  obtain ⟨status, hstatus, hclosed⟩ := h.live
  obtain ⟨pool, teams, total, hpool, hteams, hst⟩ := h.distributed
  exact .distributes info poolId gameWinners isFinalBatch ustForRake gameId status pool teams _ rfl
    hstatus hclosed hpool hteams hst

/-! ## All calls -/

/-- A swap saves what is known of it. -/
theorem swap_spec {amount : ℕ} {poolId : String}
    (h : swap q env info st amount poolId = .ok (st', r)) : ∃ details, st' = { st with
      currentRewardForPool := st.currentRewardForPool.insert poolId (.swap details) } := by
  unfold swap at h
  obtain ⟨-, -, h⟩ := bind_eq_ok.mp h
  obtain ⟨pool, -, h⟩ := bind_eq_ok.mp h
  obtain ⟨details, -, h⟩ := bind_eq_ok.mp h
  obtain ⟨balance, -, h⟩ := bind_eq_ok.mp h
  obtain ⟨swapConfig, -, h⟩ := bind_eq_ok.mp h
  obtain ⟨swapFee, -, h⟩ := bind_eq_ok.mp h
  obtain ⟨final, -, h⟩ := bind_eq_ok.mp h
  obtain ⟨expected, -, h⟩ := bind_eq_ok.mp h
  split at h
  · cases h
  · cases pure_eq_ok.mp h
    exact ⟨_, rfl⟩

/-- What a swap emits is one message, to be replied to. -/
theorem swap_messages {amount : ℕ} {poolId : String}
    (h : swap q env info st amount poolId = .ok (st', r)) :
    ∃ id m, SellsUsdc q st amount m ∧ r.messages = [] ∧ r.submessages = [(id, m)] := by
  unfold swap at h
  obtain ⟨-, -, h⟩ := bind_eq_ok.mp h
  obtain ⟨pool, -, h⟩ := bind_eq_ok.mp h
  obtain ⟨details, -, h⟩ := bind_eq_ok.mp h
  obtain ⟨balance, -, h⟩ := bind_eq_ok.mp h
  obtain ⟨swapConfig, hconfig, h⟩ := bind_eq_ok.mp h
  obtain ⟨swapFee, hswapFee, h⟩ := bind_eq_ok.mp h
  obtain ⟨final, hfinal, h⟩ := bind_eq_ok.mp h
  obtain ⟨expectedFury, hexpected, h⟩ := bind_eq_ok.mp h
  obtain ⟨hlt, rfl⟩ := Uint128.add_eq_ok.mp hfinal
  split at h
  -- the id of a reply is the number of the pool
  · cases h
  · rename_i id hid
    cases pure_eq_ok.mp h
    exact ⟨id, _, ⟨swapConfig, expectedFury, swapFee, liftStd_eq_ok.mp hconfig, hswapFee,
      liftStd_eq_ok.mp hexpected, hlt, rfl⟩, rfl, rfl⟩

/-- The reply to a swap saves what is known of it then. -/
theorem reply_spec {id : ℕ} (h : reply q env st id = .ok (st', r)) : ∃ details, st' = { st with
    currentRewardForPool := st.currentRewardForPool.insert (toString id) (.swap details) } := by
  unfold reply at h
  obtain ⟨balance, -, h⟩ := bind_eq_ok.mp h
  obtain ⟨balanceInfo, -, h⟩ := bind_eq_ok.mp h
  obtain ⟨gained, -, h⟩ := bind_eq_ok.mp h
  obtain ⟨scaled, -, h⟩ := bind_eq_ok.mp h
  obtain ⟨rate, -, h⟩ := bind_eq_ok.mp h
  cases pure_eq_ok.mp h
  exact ⟨_, rfl⟩

theorem execute_effect {msg : ExecuteMsg} (h : execute api q env info st msg = .ok (st', r)) :
    Effect api st st' (.execute info msg) := by
  cases msg with
  | setPlatformFeeWallets walletPercentages =>
    obtain ⟨-, -, h⟩ := bind_eq_ok.mp h
    cases pure_eq_ok.mp h
    exact .keeps _ st.currentRewardForPool rfl
  | setPoolTypeParams poolType fee min max maxGamer rake => exact setPoolTypeParams_effect h
  | cancelGame => exact cancelGame_effect h
  | lockGame => exact lockGame_effect h
  | createPool poolType => exact .creates info poolType rfl (createPool_spec h)
  | claimReward gamer => exact .claimsRewards info gamer rfl (claimReward_spec h).1
  | claimRefund gamer => exact .claimsRefunds info gamer rfl (claimRefund_spec h).1
  | gamePoolRewardDistribute poolId gameWinners isFinalBatch ustForRake gameId =>
    exact (gamePoolRewardDistribute_spec h).effect
  | gamePoolBidSubmitCommand gamer poolType poolId teamId amount =>
    exact .bids info gamer poolType poolId teamId amount rfl (gamePoolBidSubmit_spec h)
  -- a sweep only sends coins
  | sweep funds =>
    obtain ⟨-, -, h⟩ := bind_eq_ok.mp h
    cases pure_eq_ok.mp h
    exact .keeps st.platformWalletPercentages st.currentRewardForPool rfl
  | swap amount poolId =>
    obtain ⟨details, hst⟩ := swap_spec h
    exact .keeps st.platformWalletPercentages _ hst

theorem exec_createPool {c : Call} {poolType : String}
    (hentry : c.entry = .execute info (.createPool poolType)) (h : exec api st c = some (st', r)) :
    Opens api poolType st st' := by
  rw [exec, hentry] at h
  exact createPool_spec (toOption_eq_some.mp h)

theorem exec_bid {c : Call} {gamer poolType poolId teamId : String} {amount : ℕ}
    (hentry : c.entry =
      .execute info (.gamePoolBidSubmitCommand gamer poolType poolId teamId amount))
    (h : exec api st c = some (st', r)) : Joins info gamer poolType poolId teamId st st' := by
  rw [exec, hentry] at h
  exact gamePoolBidSubmit_spec (toOption_eq_some.mp h)

theorem exec_claimReward {c : Call} {gamer : String}
    (hentry : c.entry = .execute info (.claimReward gamer)) (h : exec api st c = some (st', r)) :
    ClaimsRewards api info gamer st st' := by
  rw [exec, hentry] at h
  exact (claimReward_spec (toOption_eq_some.mp h)).1

theorem exec_claimRefund {c : Call} {gamer : String}
    (hentry : c.entry = .execute info (.claimRefund gamer)) (h : exec api st c = some (st', r)) :
    ClaimsRefunds api info gamer st st' := by
  rw [exec, hentry] at h
  exact (claimRefund_spec (toOption_eq_some.mp h)).1

theorem exec_batch {c : Call} {poolId gameId : String} {gameWinners : List GameResult}
    {isFinalBatch : Bool} {ustForRake : ℕ} (hentry : c.entry = .execute info
      (.gamePoolRewardDistribute poolId gameWinners isFinalBatch ustForRake gameId))
    (h : exec api st c = some (st', r)) : Distributes poolId gameWinners isFinalBatch st st' := by
  rw [exec, hentry] at h
  exact gamePoolRewardDistribute_spec (toOption_eq_some.mp h)

/-- **Every accepted call** has one of the effects. -/
theorem exec_effect {c : Call} (h : exec api st c = some (st', r)) : Effect api st st' c.entry := by
  unfold exec at h
  split at h
  · rename_i info msg hentry
    rw [hentry]
    exact execute_effect (toOption_eq_some.mp h)
  · obtain ⟨details, hst⟩ := reply_spec (toOption_eq_some.mp h)
    exact .keeps st.platformWalletPercentages _ hst

end Handlers

/-! ## What every effect has in common -/

/-- A team after a call: its entry is as it was, and what was claimed stays claimed. -/
structure Follows (old new : PoolTeamDetails) : Prop where
  poolId : new.poolId = old.poolId
  gameId : new.gameId = old.gameId
  poolType : new.poolType = old.poolType
  gamerAddress : new.gamerAddress = old.gamerAddress
  teamId : new.teamId = old.teamId
  claimedReward : old.claimedReward = true → new.claimedReward = true
  claimedRefund : old.claimedRefund = true → new.claimedRefund = true

theorem Follows.refl (team : PoolTeamDetails) : Follows team team :=
  ⟨rfl, rfl, rfl, rfl, rfl, id, id⟩

theorem follows_claimReward (team : PoolTeamDetails) : Follows team team.claimReward :=
  ⟨rfl, rfl, rfl, rfl, rfl, fun _ => rfl, id⟩

theorem follows_claimRefund (fee : ℕ) (team : PoolTeamDetails) :
    Follows team (team.claimRefund fee) :=
  ⟨rfl, rfl, rfl, rfl, rfl, id, fun _ => rfl⟩

theorem follows_rewarded (gameId : String) (ws : List GameResult) (team : PoolTeamDetails) :
    Follows team (rewarded gameId ws team) :=
  ⟨rfl, rfl, rfl, rfl, rfl, id, id⟩

/-- How the teams of a gamer in a pool go on: those there are follow in place, and a bid adds
one. -/
def Continues (st st' : Storage) (entry : Entry) (p g : String) (old new : List PoolTeamDetails) :
    Prop :=
  ∃ f added, (∀ team, Follows team (f team)) ∧ new = old.map f ++ added ∧
    (added = [] ∨ ∃ info poolType teamId amount,
      entry = .execute info (.gamePoolBidSubmitCommand g poolType p teamId amount) ∧
      Joins info g poolType p teamId st st' ∧
      added = [newTeam st.config.gameId g p teamId poolType])

section Common

variable {api : Api} {st st' : Storage} {entry : Entry} {p g : String}
  {l l' : List PoolTeamDetails}

theorem Continues.map {f : PoolTeamDetails → PoolTeamDetails} (hf : ∀ team, Follows team (f team))
    (h : l' = l.map f) : Continues st st' entry p g l l' :=
  ⟨f, [], hf, by rw [h, List.append_nil], .inl rfl⟩

theorem Continues.same (h : l' = l) : Continues st st' entry p g l l' :=
  .map Follows.refl (by rw [h, List.map_id'])

/-- Where a condition says which teams follow, all of them continue. -/
theorem Continues.ite {P : Prop} [Decidable P] {f : PoolTeamDetails → PoolTeamDetails}
    (hf : ∀ team, Follows team (f team)) (h : l' = if P then l.map f else l) :
    Continues st st' entry p g l l' := by
  split at h
  · exact .map hf h
  · exact .same h

/-- A bid adds a team to those of the bidder in the pool. -/
theorem Joins.teams {info : MessageInfo} {gamer poolType poolId teamId : String}
    (h : Joins info gamer poolType poolId teamId st st') (p g : String) :
    st'.teams p g = if poolId = p ∧ gamer = g then
      st.teams poolId gamer ++ [newTeam st.config.gameId gamer poolId teamId poolType]
      else st.teams p g := by
  obtain ⟨details, pool, -, -, -, -, hst⟩ := h.joined
  rw [hst, Storage.teams, teamsAt_insert]
  simp only [Prod.mk.injEq]
  rfl

/-- **In every effect** the teams stay in their places. -/
theorem Effect.continues (h : Effect api st st' entry) (p g : String) :
    Continues st st' entry p g (st.teams p g) (st'.teams p g) := by
  cases h with
  | keeps wallets slots hst => exact .same (by rw [hst]; rfl)
  | setsType poolType details hnone hst => exact .same (by rw [hst]; rfl)
  | cancels info status pools hentry hstatus hlive hpools hst => exact .same (by rw [hst]; rfl)
  | locks info pools hentry hopen hpools hst => exact .same (by rw [hst]; rfl)
  | creates info poolType hentry hopens =>
    obtain ⟨address, count, -, -, hst⟩ := hopens.created
    exact .same (by rw [hst]; rfl)
  | bids info gamer poolType poolId teamId amount hentry hjoins =>
    -- the list of the bidder in this pool grows by one team
    have hteams := hjoins.teams p g
    split at hteams
    · rename_i hk
      obtain ⟨rfl, rfl⟩ := hk
      refine ⟨id, _, Follows.refl, ?_, .inr ⟨info, poolType, teamId, amount, hentry, hjoins, rfl⟩⟩
      rw [hteams, List.map_id]
    · exact .same hteams
  -- claims and batches rewrite each team where it is
  | claimsRewards info gamer hentry hclaims =>
    exact .ite follows_claimReward (hclaims.teams p g)
  | claimsRefunds info gamer hentry hclaims =>
    exact .ite (follows_claimRefund (st.feeOf p)) (hclaims.teams p g)
  | distributes info poolId gameWinners isFinalBatch ustForRake gameId status pool teams slots
      hentry hstatus hclosed hpool hteams hst =>
    exact .ite (follows_rewarded st.config.gameId gameWinners) (by rw [hst]; exact hteams (p, g))

/-- The configuration never changes. -/
theorem Effect.config (h : Effect api st st' entry) : st'.config = st.config := by
  cases h with
  | keeps _ _ hst => rw [hst]
  | setsType _ _ _ hst => rw [hst]
  | cancels _ _ _ _ _ _ _ hst => rw [hst]; rfl
  | locks _ _ _ _ _ hst => rw [hst]; rfl
  | creates _ _ _ hopens =>
    obtain ⟨address, count, -, -, hst⟩ := hopens.created
    rw [hst]
  | bids _ _ _ _ _ _ _ hjoins =>
    obtain ⟨details, pool, -, -, -, -, hst⟩ := hjoins.joined
    rw [hst]
  | claimsRewards _ _ _ hclaims =>
    obtain ⟨teams, hst⟩ := hclaims.rest
    rw [hst]
  | claimsRefunds _ _ _ hclaims =>
    obtain ⟨teams, hst⟩ := hclaims.rest
    rw [hst]
  | distributes _ _ _ _ _ _ _ _ _ _ _ _ _ _ _ hst => rw [hst]; rfl

/-- A team of a gamer in a pool follows one that was there, or is that of a bid. -/
theorem Continues.mem (h : Continues st st' entry p g l l') {team : PoolTeamDetails}
    (hteam : team ∈ l') : (∃ old ∈ l, Follows old team) ∨
      ∃ info poolType teamId amount,
        entry = .execute info (.gamePoolBidSubmitCommand g poolType p teamId amount) ∧
        Joins info g poolType p teamId st st' ∧
        team = newTeam st.config.gameId g p teamId poolType := by
  obtain ⟨f, added, hf, rfl, hadded⟩ := h
  rcases List.mem_append.mp hteam with hteam | hteam
  · obtain ⟨old, hold, rfl⟩ := List.mem_map.mp hteam
    exact .inl ⟨old, hold, hf old⟩
  · rcases hadded with rfl | ⟨info, poolType, teamId, amount, hentry, hjoins, rfl⟩
    · cases hteam
    · exact .inr ⟨info, poolType, teamId, amount, hentry, hjoins, List.mem_singleton.mp hteam⟩

/-- A team is found again in its place. -/
theorem Continues.get (h : Continues st st' entry p g l l') {i : ℕ} {team : PoolTeamDetails}
    (hteam : l[i]? = some team) : ∃ new, l'[i]? = some new ∧ Follows team new := by
  obtain ⟨f, added, hf, rfl, -⟩ := h
  refine ⟨f team, ?_, hf team⟩
  obtain ⟨hi, -⟩ := List.getElem?_eq_some_iff.mp hteam
  rw [List.getElem?_append_left (by rwa [List.length_map]), List.getElem?_map, hteam,
    Option.map_some]

end Common

/-! ## Runs -/

/-- The teams are stored under their own pool and gamer. -/
def Filed (st : Storage) : Prop :=
  ∀ p g, ∀ team ∈ st.teams p g, team.poolId = p ∧ team.gamerAddress = g

section Runs

variable {api : Api} {st st' : Storage} {entry : Entry}

theorem Effect.filed (h : Effect api st st' entry) (hf : Filed st) : Filed st' := by
  intro p g team hteam
  rcases (h.continues p g).mem hteam with ⟨old, hold, hfollows⟩ | ⟨info, poolType, teamId, amount,
    -, -, rfl⟩
  · rw [hfollows.poolId, hfollows.gamerAddress]
    exact hf p g old hold
  · exact ⟨rfl, rfl⟩

/-- What is stored by `instantiate`: the configuration, and a game that is open. -/
theorem instantiate_spec {msg : InstantiateMsg} (h : instantiate api msg = .ok st) :
    ∃ config, config.gameId = msg.gameId ∧ st = {
      config
      gameDetails := (∅ : Store String GameDetails).insert msg.gameId
        { gameId := msg.gameId, gameStatus := gamePoolOpen } } := by
  unfold instantiate at h
  obtain ⟨adminAddress, -, h⟩ := bind_eq_ok.mp h
  obtain ⟨furyTokenAddress, -, h⟩ := bind_eq_ok.mp h
  obtain ⟨collector, -, h⟩ := bind_eq_ok.mp h
  obtain ⟨poolAddress, -, h⟩ := bind_eq_ok.mp h
  exact ⟨_, rfl, (pure_eq_ok.mp h).symm⟩

/-- A contract that has just been instantiated has an open game, and nothing else. -/
theorem Initial.spec (h : Initial api st) :
    st.status = some gamePoolOpen ∧ st.poolDetails = ∅ ∧ st.poolTeamDetails = ∅ ∧
      st.contractPoolCount = ∅ := by
  obtain ⟨msg, h⟩ := h
  obtain ⟨config, hgame, rfl⟩ := instantiate_spec h
  refine ⟨?_, rfl, rfl, rfl⟩
  rw [Storage.status, hgame, Store.get_insert_self]
  rfl

theorem Initial.teams (h : Initial api st) (p g : String) : st.teams p g = [] := by
  rw [Storage.teams, h.spec.2.2.1, teamsAt_empty]

theorem Initial.slots (h : Initial api st) : st.currentRewardForPool = ∅ := by
  obtain ⟨msg, h⟩ := h
  obtain ⟨config, -, rfl⟩ := instantiate_spec h
  rfl

end Runs

/-! ## A sample -/

namespace Sample

/-- A chain that accepts every address. -/
def api : Api := fun s => .ok s

/-- A pool that swaps one for one, at a fee of three per mille, and a token of which the contract
holds nothing. -/
def querier : Querier where
  token1ForToken2Price _ amount := .ok amount
  token2ForToken1Price _ amount := .ok amount
  swapConfig _ := .ok ⟨1, 2⟩
  tokenBalance _ _ := .ok 0

/-- The platform takes three per cent, a transaction one. -/
def instantiateMsg : InstantiateMsg where
  adminAddress := "admin"
  furyTokenAddress := "fury"
  poolAddress := "pool"
  platformFeesCollectorWallet := "collector"
  transactionFee := 100
  platformFee := 300
  gameId := "game"
  usdcIbcSymbol := "uusd"

/-- The contract after it is instantiated. -/
def storage : Storage := (instantiate api instantiateMsg).toOption.get (by decide +kernel)

theorem initial : Initial api storage := by
  have h : (instantiate api instantiateMsg).toOption = some storage := (Option.some_get _).symm
  exact ⟨_, toOption_eq_some.mp h⟩

/-- A message with some USDC attached. -/
def call (sender : Addr) (usdc : ℕ) (msg : ExecuteMsg) : Call :=
  ⟨querier, ⟨⟨1, 1⟩, "gaming"⟩, .execute ⟨sender, [⟨"uusd", usdc⟩]⟩ msg⟩

/-- A type of pools for two teams or more. -/
def setType (poolType : String) (poolFee : ℕ) : Call :=
  call "admin" 0 (.setPoolTypeParams poolType poolFee 2 10 5 [])

def create (poolType : String) : Call := call "admin" 0 (.createPool poolType)

/-- A bid with the fees of four per cent attached. -/
def bid (gamer poolType poolId teamId : String) (amount : ℕ) : Call :=
  call gamer (amount / 25) (.gamePoolBidSubmitCommand gamer poolType poolId teamId amount)

def lock : Call := call "admin" 0 .lockGame

def askRefund (gamer : String) : Call := call gamer 0 (.claimRefund gamer)

def askReward (gamer : String) (fees : ℕ) : Call := call gamer fees (.claimReward gamer)

/-- A batch of rewards that is not the final one. -/
def batch (poolId : String) (winners : List GameResult) : Call :=
  call "admin" 0 (.gamePoolRewardDistribute poolId winners false 0 "game")

end Sample

end Gamingpool
