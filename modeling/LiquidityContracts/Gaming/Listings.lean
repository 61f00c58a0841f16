import LiquidityContracts.Gaming.Bids
import LiquidityContracts.Gaming.Counts
import LiquidityContracts.Gaming.RewardQuery

/-!
# What is told of the game

The front end puts together what it shows of a game from several queries: the pools of the game, the
teams of the users that it knows, what a pool has collected, and what a gamer may claim. Each walks
over other records. They tell of one game when the front end knows everyone who has bid: every pool
is told once, with as many teams as it counts, and every gamer with the teams, and the rewards, that
are told of the gamer alone.

## Main definitions

* `queryAllTeams`, `queryAllPoolsInGame`, `queryPoolCollection`: the queries
* `Labelled`: the pools carry their own id, and that of the game
* `TellsGame`: what is told of the pools and of the teams agrees

## Main results

* `Effect.labelled`: one step keeps the labels of the pools
* `filter_pool`, `filter_gamer`: the teams that are told of a pool, and of a gamer
* `run_tellsGame`: in every run the queries tell of one game
-/

namespace Gamingpool

open CosmWasm

/-! ## The queries -/

section Queries

variable (st : Storage)

/-- `query_pool_type_details`. -/
def queryPoolTypeDetails (poolType : String) : Exec ContractError PoolTypeDetails :=
  match st.poolTypeDetails[poolType]? with
  | some ptd => return ptd
  | none => failGeneric "No pool type details found"

/-- `query_all_pool_type_details`. -/
def queryAllPoolTypeDetails : Exec ContractError (List PoolTypeDetails) :=
  st.poolTypeDetails.keys.mapM fun ptn => load "PoolTypeDetails" st.poolTypeDetails[ptn]?

/-- `query_game_details`. -/
def queryGameDetails : Exec ContractError GameDetails :=
  match st.gameDetails[st.config.gameId]? with
  | some gameDetail => return gameDetail
  | none => failGeneric "No Game detail found"

/-- `query_all_teams`: a list that cannot be loaded is passed over. -/
def queryAllTeams (users : List String) : Exec ContractError (List PoolTeamDetails) :=
  return st.poolDetails.keys.flatMap fun poolId => users.flatMap fun user =>
    (st.poolTeamDetails[(poolId, user)]?).getD []

/-- `query_all_pools_in_game`. -/
def queryAllPoolsInGame : Exec ContractError (List PoolDetails) := do
  let allPools ← st.poolDetails.keys.mapM fun poolName => load "PoolDetails" st.poolDetails[poolName]?
  return allPools.filter fun poolDetails => poolDetails.gameId = st.config.gameId

/-- `query_pool_collection`: the fees of the teams of a pool, or nothing where they are out of
range. -/
def queryPoolCollection (poolId : String) : Exec ContractError ℕ := do
  let pool ← queryPoolDetails st poolId
  let poolType ← queryPoolTypeDetails st pool.poolType
  return Uint128.mulOrZero poolType.poolFee pool.currentTeamsCount

end Queries

/-- What the queries tell of the pools and the teams of a game, taken together. -/
structure TellsGame (st : Storage) (pools : List PoolDetails) (teams : List PoolTeamDetails) :
    Prop where
  /-- The game is told. -/
  game : ∃ game, queryGameDetails st = .ok game ∧ st.status = some game.gameStatus
  /-- The types that are told are those that there are. -/
  types : ∃ types, queryAllPoolTypeDetails st = .ok types ∧
    ∀ details, details ∈ types ↔ ∃ poolType, queryPoolTypeDetails st poolType = .ok details
  /-- The pools that are told are those that there are, each under its own id. -/
  stored : ∀ p pool, queryPoolDetails st p = .ok pool ↔ pool ∈ pools ∧ pool.poolId = p
  /-- No pool is told twice. -/
  distinct : (pools.map (·.poolId)).Nodup
  /-- A pool counts the teams that are told of it. -/
  counts : ∀ pool ∈ pools, pool.currentTeamsCount =
    (teams.filter fun team => team.poolId = pool.poolId).length
  /-- A team that is told of a gamer in a pool is among the teams that are told. -/
  complete : ∀ p g own, queryPoolTeamDetails st p g = .ok own → own ⊆ teams
  /-- All teams that are told are counted. -/
  total : teams.length = (pools.map (·.currentTeamsCount)).sum
  /-- A pool with teams is of a type that is told, and has collected the fee of each of them. -/
  collection : ∀ pool ∈ pools, 0 < pool.currentTeamsCount → ∃ details,
    queryPoolTypeDetails st pool.poolType = .ok details ∧
      pool.currentTeamsCount ≤ details.maxTeamsForPool ∧ queryPoolCollection st pool.poolId =
        .ok (Uint128.mulOrZero details.poolFee pool.currentTeamsCount)
  /-- The teams of a gamer are told of the gamer alone. -/
  gamers : ∀ gamer, queryAllTeams st [gamer] =
    .ok (teams.filter fun team => team.gamerAddress = gamer)
  /-- The reward of a gamer is that of the gamer's teams. -/
  rewards : ∀ gamer amount, queryReward st gamer = .ok amount ↔
    amount = ((teams.filter fun team => team.gamerAddress = gamer).map rewardDue).sum ∧
      amount < Uint128.bound

/-! ## The labels of the pools -/

/-- The pools carry their own id, and that of the game. -/
def Labelled (st : Storage) : Prop :=
  ∀ (p : String) (pool : PoolDetails), st.poolDetails[p]? = some pool →
    pool.poolId = p ∧ pool.gameId = st.config.gameId

section Steps

variable {api : Api} {st st' : Storage} {entry : Entry}

theorem Labelled.same (hl : Labelled st) (hpools : st'.poolDetails = st.poolDetails)
    (hconfig : st'.config = st.config) : Labelled st' := by
  intro p pool hpool
  rw [hconfig]
  rw [hpools] at hpool
  exact hl p pool hpool

theorem Labelled.insert {poolId : String} {new : PoolDetails} (hl : Labelled st)
    (hpools : st'.poolDetails = st.poolDetails.insert poolId new) (hconfig : st'.config = st.config)
    (hid : new.poolId = poolId) (hgame : new.gameId = st.config.gameId) : Labelled st' := by
  intro p pool hpool
  rw [hconfig]
  rw [hpools, Store.get_insert] at hpool
  split at hpool
  · rename_i hp
    obtain rfl := Option.some.inj hpool
    exact ⟨hid.trans hp, hgame⟩
  · exact hl p pool hpool

/-- **One effect** keeps the labels of the pools. -/
theorem Effect.labelled (h : Effect api st st' entry) (hl : Labelled st) : Labelled st' := by
  have hconfig := h.config
  cases h with
  | keeps wallets slots hst => exact hl.same (by rw [hst]) hconfig
  | setsType poolType details hnone hst => exact hl.same (by rw [hst]) hconfig
  | cancels info status pools hentry hstatus hlive hpools hst =>
    intro p pool hpool
    rw [hconfig]
    rw [hst] at hpool
    -- only the flags of the pools change
    obtain ⟨old, hold, rfl⟩ := Option.map_eq_some_iff.mp ((hpools p).symm.trans hpool)
    exact hl p old hold
  | locks info pools hentry hopen hpools hst =>
    intro p pool hpool
    rw [hconfig]
    rw [hst] at hpool
    rcases hpools p with ⟨-, hnone⟩ | ⟨old, details, hold, -, hnew⟩
    · rw [hnone] at hpool
      cases hpool
    · rw [hnew] at hpool
      obtain rfl := Option.some.inj hpool
      split
      · exact hl p old hold
      · exact hl p old hold
  | creates info poolType hentry hopens =>
    obtain ⟨-, counts, hst⟩ := hopens.numbered
    have hpools : st'.poolDetails = st.poolDetails.insert (st.nextPoolId api)
      (newPool st.config.gameId (st.nextPoolId api) poolType) := by rw [hst]
    exact hl.insert hpools hconfig rfl rfl
  | bids info gamer poolType poolId teamId amount hentry hjoins =>
    obtain ⟨details, pool, -, -, hpool, -, hst⟩ := hjoins.joined
    have hpools : st'.poolDetails = st.poolDetails.insert poolId (pool.joined poolId poolType) := by
      rw [hst]
    exact hl.insert hpools hconfig rfl (hl poolId pool hpool).2
  | claimsRewards info gamer hentry hclaims =>
    obtain ⟨teams, hst⟩ := hclaims.rest
    exact hl.same (by rw [hst]) hconfig
  | claimsRefunds info gamer hentry hclaims =>
    obtain ⟨teams, hst⟩ := hclaims.rest
    exact hl.same (by rw [hst]) hconfig
  | distributes info poolId gameWinners isFinalBatch ustForRake gameId status pool teams slots
      hentry hstatus hclosed hpool hteams hst =>
    have hpools : st'.poolDetails = st.poolDetails.insert poolId
      (pool.distributedTo st.config.gameId poolId isFinalBatch) := by rw [hst]
    exact hl.insert hpools hconfig rfl rfl

theorem labelled_of_initial (h : Initial api st) : Labelled st := by
  intro p pool hpool
  rw [h.spec.2.1, Store.get_empty] at hpool
  cases hpool

theorem run_labelled (h : Initial api st) (cs : List Call) : Labelled (run (exec api) st cs) :=
  run_preserves (fun _ _ _ _ hl hexec => (exec_effect hexec).labelled hl) (labelled_of_initial h) cs

/-- The game never goes away. -/
theorem Effect.status_isSome (h : Effect api st st' entry) (hs : st.status.isSome) :
    st'.status.isSome := by
  have hset : ∀ n, ((st.setGameStatus n).status).isSome := fun n => by
    rw [status_setGameStatus]
    rfl
  cases h with
  | keeps wallets slots hst => rw [hst]; exact hs
  | setsType poolType details hnone hst => rw [hst]; exact hs
  | cancels info status pools hentry hstatus hlive hpools hst => rw [hst]; exact hset _
  | locks info pools hentry hopen hpools hst => rw [hst]; exact hset _
  | creates info poolType hentry hopens =>
    obtain ⟨-, counts, hst⟩ := hopens.numbered
    rw [hst]
    exact hs
  | bids info gamer poolType poolId teamId amount hentry hjoins =>
    obtain ⟨details, pool, -, -, -, -, hst⟩ := hjoins.joined
    rw [hst]
    exact hs
  | claimsRewards info gamer hentry hclaims =>
    obtain ⟨teams, hst⟩ := hclaims.rest
    rw [hst]
    exact hs
  | claimsRefunds info gamer hentry hclaims =>
    obtain ⟨teams, hst⟩ := hclaims.rest
    rw [hst]
    exact hs
  | distributes info poolId gameWinners isFinalBatch ustForRake gameId status pool teams slots
      hentry hstatus hclosed hpool hteams hst => rw [hst]; exact hset _

theorem run_status_isSome (h : Initial api st) (cs : List Call) :
    ((run (exec api) st cs).status).isSome :=
  run_preserves (I := fun s => s.status.isSome) (fun _ _ _ _ hs hexec =>
    (exec_effect hexec).status_isSome hs) (by rw [h.spec.1]; rfl) cs

end Steps

/-! ## The teams that are told -/

section Teams

variable {st : Storage} {users : List String}

theorem queryAllTeams_eq (st : Storage) (users : List String) : queryAllTeams st users =
    .ok (st.poolDetails.keys.flatMap fun p => users.flatMap fun g => st.teams p g) :=
  rfl

theorem queryAllPoolsInGame_eq (hl : Labelled st) :
    queryAllPoolsInGame st = .ok st.poolDetails.values := by
  unfold queryAllPoolsInGame
  rw [Store.mapM_load, bind_of_eq_ok rfl, pure_eq_ok]
  refine List.filter_eq_self.mpr fun pool hpool => ?_
  obtain ⟨p, hp⟩ := (Store.mem_values_iff _ pool).mp hpool
  exact decide_eq_true (hl p pool hp).2

/-- Of a pool there are told the teams of the users in it. -/
theorem filter_pool (hf : Filed st) {p : String} (hp : (st.poolDetails[p]?).isSome) :
    (st.poolDetails.keys.flatMap fun p => users.flatMap fun g => st.teams p g).filter
      (fun team => team.poolId = p) = users.flatMap fun g => st.teams p g := by
  refine filter_flatMap_label (Store.nodup_keys _) (fun a team hteam => ?_) fun hnot => ?_
  · obtain ⟨g, -, hteam⟩ := List.mem_flatMap.mp hteam
    exact (hf a g team hteam).1
  · exact absurd ((Store.mem_keys_iff _ p).mpr (Option.isSome_iff_exists.mp hp)) hnot

/-- Of a gamer there are told the gamer's teams in all pools. -/
theorem filter_gamer (hf : Filed st) (hnodup : users.Nodup) {gamer : String}
    (hall : gamer ∉ users → ∀ p, st.teams p gamer = []) :
    (st.poolDetails.keys.flatMap fun p => users.flatMap fun g => st.teams p g).filter
      (fun team => team.gamerAddress = gamer) =
        st.poolDetails.keys.flatMap fun p => st.teams p gamer := by
  rw [List.filter_flatMap]
  refine congrArg (fun f => st.poolDetails.keys.flatMap f) (funext fun p => ?_)
  exact filter_flatMap_label hnodup (fun g team hteam => (hf p g team hteam).2) fun hnot => hall hnot p

/-- As many teams of a pool are told as there are, when all gamers are among the users. -/
theorem length_pool (hnodup : users.Nodup) {p : String} (hall : ∀ g, st.teams p g ≠ [] → g ∈ users) :
    (users.flatMap fun g => st.teams p g).length = st.teamsIn p := by
  rw [List.length_flatMap, ← List.sum_toFinset _ hnodup, Storage.teamsIn,
    Store.total_eq_sum_of_support
      (S := users.toFinset.map ⟨fun g => (p, g), Prod.mk_right_injective p⟩)]
  · rw [Finset.sum_map]
    refine Finset.sum_congr rfl fun g _ => ?_
    rw [Store.weigh_getD (weighTeams_nil p)]
    exact (if_pos rfl).symm
  · rintro ⟨a, g⟩ hnot
    rw [Store.weigh_getD (weighTeams_nil p)]
    unfold weighTeams
    split
    · rename_i ha
      subst ha
      -- a gamer who is not among the users has no team
      by_contra hne
      refine hnot (Finset.mem_map_of_mem _ (List.mem_toFinset.mpr (hall g fun hnil => hne ?_)))
      exact congrArg List.length hnil
    · rfl

theorem queryPoolDetails_eq_ok_iff {p : String} {pool : PoolDetails} :
    queryPoolDetails st p = .ok pool ↔ st.poolDetails[p]? = some pool := by
  refine ⟨queryPoolDetails_eq_ok, fun h => ?_⟩
  unfold queryPoolDetails
  rw [h]
  rfl

theorem queryPoolTypeDetails_eq_ok {poolType : String} {details : PoolTypeDetails} :
    queryPoolTypeDetails st poolType = .ok details ↔ st.poolTypeDetails[poolType]? = some details := by
  unfold queryPoolTypeDetails
  split
  · rename_i ptd hptd
    rw [hptd, pure_eq_ok, Option.some.injEq]
  · rename_i hnone
    rw [hnone]
    exact ⟨fun h => absurd h (failGeneric_ne_ok _ _), nofun⟩

/-- The types that are told are those that there are. -/
theorem queryAllPoolTypeDetails_tells (st : Storage) :
    ∃ types, queryAllPoolTypeDetails st = .ok types ∧
      ∀ details, details ∈ types ↔ ∃ poolType, queryPoolTypeDetails st poolType = .ok details := by
  refine ⟨_, Store.mapM_load _ _, fun details => ?_⟩
  rw [Store.mem_values_iff]
  exact exists_congr fun poolType => queryPoolTypeDetails_eq_ok.symm

theorem queryGameDetails_tells (h : st.status.isSome) :
    ∃ game, queryGameDetails st = .ok game ∧ st.status = some game.gameStatus := by
  unfold queryGameDetails Storage.status at *
  cases hgame : st.gameDetails[st.config.gameId]? with
  | none =>
    rw [hgame] at h
    cases h
  | some game => exact ⟨game, rfl, rfl⟩

/-- **The queries tell of one game**, where the pools count their teams and all gamers are known. -/
theorem tellsGame (hs : st.status.isSome) (hl : Labelled st) (hf : Filed st) (hc : Counted st)
    (hhoused : ∀ p g, st.teams p g ≠ [] → (st.poolDetails[p]?).isSome) (hnodup : users.Nodup)
    (hall : ∀ p g, st.teams p g ≠ [] → g ∈ users) : TellsGame st st.poolDetails.values
      (st.poolDetails.keys.flatMap fun p => users.flatMap fun g => st.teams p g) := by
  have hstored : ∀ p pool, queryPoolDetails st p = .ok pool ↔
      pool ∈ st.poolDetails.values ∧ pool.poolId = p := by
    intro p pool
    rw [queryPoolDetails_eq_ok_iff, Store.mem_values_iff]
    constructor
    · exact fun h => ⟨⟨p, h⟩, (hl p pool h).1⟩
    · rintro ⟨⟨p', h⟩, rfl⟩
      rw [(hl p' pool h).1]
      exact h
  -- what is stored under the id of a pool that is told is the pool
  have hget : ∀ pool ∈ st.poolDetails.values, st.poolDetails[pool.poolId]? = some pool :=
    fun pool hpool => queryPoolDetails_eq_ok_iff.mp ((hstored _ pool).mpr ⟨hpool, rfl⟩)
  have hgamer : ∀ gamer, (st.poolDetails.keys.flatMap fun p => users.flatMap fun g => st.teams p g).filter
      (fun team => team.gamerAddress = gamer) = st.poolDetails.keys.flatMap fun p => st.teams p gamer := by
    intro gamer
    exact filter_gamer hf hnodup fun hnot p => by_contra fun hne => hnot (hall p gamer hne)
  refine ⟨queryGameDetails_tells hs, queryAllPoolTypeDetails_tells st, hstored,
    ?_, ?_, ?_, ?_, ?_, ?_, ?_⟩
  · rw [Store.map_values st.poolDetails fun p pool h => (hl p pool h).1, List.map_id']
    exact Store.nodup_keys _
  · intro pool hpool
    rw [filter_pool hf (by rw [hget pool hpool]; rfl), length_pool hnodup (hall pool.poolId)]
    exact (hc _ pool (hget pool hpool)).teams
  · intro p g own hown team hteam
    have hteams : team ∈ st.teams p g := by
      rw [Storage.teams, teamsAt_of_get (queryPoolTeamDetails_eq_ok.mp hown)]
      exact hteam
    -- a team that there is has its pool, and its gamer is known
    have hne := List.ne_nil_of_mem hteams
    have hp := (Store.mem_keys_iff _ p).mpr (Option.isSome_iff_exists.mp (hhoused p g hne))
    exact List.mem_flatMap.mpr ⟨p, hp, List.mem_flatMap.mpr ⟨g, hall p g hne, hteams⟩⟩
  · rw [List.length_flatMap, Store.map_values st.poolDetails fun p pool h => (hc p pool h).teams]
    exact congrArg List.sum (List.map_congr_left fun p _ => length_pool hnodup (hall p))
  · intro pool hpool hpos
    obtain ⟨details, hdetails, hle⟩ := (hc _ pool (hget pool hpool)).limit hpos
    refine ⟨details, queryPoolTypeDetails_eq_ok.mpr hdetails, hle, ?_⟩
    unfold queryPoolCollection
    rw [bind_of_eq_ok (queryPoolDetails_eq_ok_iff.mpr (hget pool hpool)),
      bind_of_eq_ok (queryPoolTypeDetails_eq_ok.mpr hdetails)]
    rfl
  · intro gamer
    rw [hgamer gamer, queryAllTeams_eq]
    refine congrArg Except.ok (congrArg (fun f => st.poolDetails.keys.flatMap f) (funext fun p => ?_))
    exact List.flatMap_singleton _ _
  · intro gamer amount
    rw [hgamer gamer, queryReward_eq_ok_unclaimed hf, List.flatMap_def, List.map_flatten,
      List.sum_flatten, List.map_map, List.map_map]
    rfl

end Teams

/-- **In every run the queries tell of one game**, to a front end that asks for the teams of users
among whom is everyone who has bid: the pools are told once each, a pool counts the teams that are
told of it and has collected the fee of each, and a gamer has the teams and the reward that are told
of the gamer alone. -/
theorem run_tellsGame (api : Api) (st : Storage) (cs : List Call) (hinit : Initial api st)
    (users : List String) (hnodup : users.Nodup)
    (hall : ∀ p g, bidLog api p g st cs ≠ [] → g ∈ users) :
    ∃ pools teams, queryAllPoolsInGame (run (exec api) st cs) = .ok pools ∧
      queryAllTeams (run (exec api) st cs) users = .ok teams ∧
        TellsGame (run (exec api) st cs) pools teams := by
  refine ⟨_, _, queryAllPoolsInGame_eq (run_labelled hinit cs), queryAllTeams_eq _ users, ?_⟩
  refine tellsGame (run_status_isSome hinit cs) (run_labelled hinit cs) (run_filed hinit cs)
    (run_counted hinit cs) (run_housed hinit cs).teams hnodup fun p g hne => hall p g fun hnil => hne ?_
  -- who has teams has bid
  have hteams := run_teams (p := p) (g := g) hinit cs
  rw [hnil, List.forall₂_nil_left_iff] at hteams
  exact hteams

open Sample in
/-- Two pools of one type are played by two gamers, one of whom has a reward. -/
theorem run_tellsGame_sample :
    let cs := played ++ [batch "1" [⟨"alice", "lions", 5000⟩]]
    ∃ pools teams, queryAllPoolsInGame (run (exec api) storage cs) = .ok pools ∧
      queryAllTeams (run (exec api) storage cs) ["alice", "bob"] = .ok teams ∧
        TellsGame (run (exec api) storage cs) pools teams :=
  run_tellsGame api storage _ initial ["alice", "bob"] (by decide) fun _ g hne =>
    (by decide +kernel : ∀ g ∈ (played ++ [batch "1" [⟨"alice", "lions", 5000⟩]]).filterMap
      fun c => c.entry.bidder, g ∈ ["alice", "bob"]) g (mem_bidders hne)

end Gamingpool
