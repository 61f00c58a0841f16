import LiquidityContracts.Gaming.Closing
import LiquidityContracts.Gaming.Payouts

/-!
# What a gamer is told of rewards

`query_reward` adds up the unclaimed rewards of a gamer over all pools, `claim_reward` over the
pools whose rewards are open. The two agree since a team gets a reward only by a batch, which opens
the rewards of its pool, and nothing closes them again: a bid saves the pool with its flags reset,
but only while the game is open, when there have been no rewards.

## Main definitions

* `queryReward`: the query
* `Flagged`: unclaimed rewards are those of pools whose rewards are open
* `PaysWhatIsTold`: the claim pays what the query tells, and leaves nothing

## Main results

* `Effect.flagged`: one step keeps the unclaimed rewards in pools whose rewards are open
* `queryReward_eq_ok`: the query tells what is due, if it is in range
* `claimLoop_succeeds`: so far the claim gets, too
* `paysWhatIsTold`: in every run the claim pays what the query tells
-/

namespace Gamingpool

open CosmWasm

/-- The round of `query_reward` for a team. -/
def queryTeamReward (gamer : String) (userReward : ℕ) (team : PoolTeamDetails) :
    Exec ContractError ℕ :=
  if gamer = team.gamerAddress ∧ team.claimedReward = unclaimedReward then
    Uint128.add userReward team.rewardAmount
  else return userReward

/-- The round of `query_reward` for a pool. -/
def queryPoolReward (st : Storage) (gamer : String) (userReward : ℕ) (poolId : String) :
    Exec ContractError ℕ :=
  let teams := (st.poolTeamDetails[(poolId, gamer)]?).getD []
  teams.foldlM (queryTeamReward gamer) userReward

/-- `query_reward`. -/
def queryReward (st : Storage) (gamer : String) : Exec ContractError ℕ :=
  st.poolDetails.keys.foldlM (queryPoolReward st gamer) 0

/-- The error of a claim of rewards when there is none. -/
def noReward : Fault ContractError := .err (.std (.genericErr "No reward for this user"))

/-- What `QuerierWrapper::query` puts before the message of a query that fails. -/
def queryErrorPrefixes : List String :=
  ["Querier contract error: ", "Querier system error: ", "Serializing QueryRequest: "]

/-- The messages of queries that fail say that it is a query that failed. -/
def MarksErrors (q : Querier) : Prop :=
  ∀ address amount msg, q.token2ForToken1Price address amount = .error (.genericErr msg) →
    ∃ mark ∈ queryErrorPrefixes, ∃ text, msg = mark ++ text

/-- A gamer's claim of rewards pays what the query tells, and leaves nothing to claim; it is refused
for want of a reward when the query tells of none. -/
structure PaysWhatIsTold (api : Api) (st : Storage) (gamer : String) : Prop where
  refused : ∀ q env info, api gamer = .ok info.sender → MarksErrors q →
    (execute api q env info st (.claimReward gamer) = .error noReward ↔
      queryReward st gamer = .ok 0)
  paid : ∀ q env info st' r,
    execute api q env info st (.claimReward gamer) = .ok (st', r) →
    ∃ amount, queryReward st gamer = .ok amount ∧ api gamer = .ok info.sender ∧
      r.messages = [.bankSend st.config.platformFeesCollectorWallet info.funds,
        .wasmExecute st.config.furyTokenAddress (.cw20 (.transfer info.sender amount)) []] ∧
      queryReward st' gamer = .ok 0

/-! ## Where unclaimed rewards are -/

/-- Teams with a reward that is not claimed are in pools whose rewards are open. -/
def Flagged (st : Storage) : Prop :=
  ∀ p g, ∀ team ∈ st.teams p g, 0 < rewardDue team → st.rewardStatus p = true

section Steps

variable {api : Api} {st st' : Storage} {entry : Entry}

theorem rewardDue_claimReward (team : PoolTeamDetails) : rewardDue team.claimReward = 0 :=
  if_pos rfl

/-- Where the rewards of the pools stay open, and no team gets one, they stay flagged. -/
theorem Flagged.kept (hf : Flagged st)
    (hteams : ∀ p g, ∀ team ∈ st'.teams p g, 0 < rewardDue team →
      ∃ old ∈ st.teams p g, 0 < rewardDue old)
    (hflags : ∀ p, st.rewardStatus p = true → (∃ g, st.teams p g ≠ []) →
      st'.rewardStatus p = true) : Flagged st' := by
  intro p g team hteam hdue
  obtain ⟨old, hold, hdue⟩ := hteams p g team hteam hdue
  exact hflags p (hf p g old hold hdue) ⟨g, List.ne_nil_of_mem hold⟩

theorem Flagged.same (hf : Flagged st) (hteams : st'.poolTeamDetails = st.poolTeamDetails)
    (hflags : ∀ p, st.rewardStatus p = true → (∃ g, st.teams p g ≠ []) →
      st'.rewardStatus p = true) : Flagged st' := by
  refine hf.kept (fun p g team hteam hdue => ⟨team, ?_, hdue⟩) hflags
  unfold Storage.teams at hteam ⊢
  rwa [hteams] at hteam

/-- Claims rewrite teams in their places, and give no rewards. -/
theorem Flagged.claimed {P : String → String → Prop} [∀ p g, Decidable (P p g)]
    {f : String → PoolTeamDetails → PoolTeamDetails} (hf : Flagged st)
    (hdue : ∀ p team, rewardDue (f p team) ≤ rewardDue team)
    (hteams : ∀ p g, st'.teams p g = if P p g then (st.teams p g).map (f p) else st.teams p g)
    (hrest : ∃ teams, st' = { st with poolTeamDetails := teams }) : Flagged st' := by
  refine hf.kept (fun p g team hteam hpos => ?_) fun p hstatus _ => ?_
  -- a team with a reward had one before
  · rw [hteams p g] at hteam
    split at hteam
    · obtain ⟨old, hold, rfl⟩ := List.mem_map.mp hteam
      exact ⟨old, hold, hpos.trans_le (hdue p old)⟩
    · exact ⟨team, hteam, hpos⟩
  · rw [(flags_of_rest hrest).2.1]
    exact hstatus

/-- A bid is made while the game is open, when no team has a reward. -/
theorem Joins.flagged {info : MessageInfo} {gamer poolType poolId teamId : String}
    (hjoins : Joins info gamer poolType poolId teamId st st') (hu : Unsettled st)
    (hf : Flagged st) : Flagged st' := by
  have hnone : ∀ p g, ∀ team ∈ st.teams p g, ¬ 0 < rewardDue team := by
    intro p g team hteam hdue
    have hflag := hf p g team hteam hdue
    rw [(hu hjoins.opened p).2] at hflag
    cases hflag
  intro p g team hteam hdue
  -- no team has a reward, old or new
  exfalso
  rw [hjoins.teams] at hteam
  split at hteam
  · rcases List.mem_append.mp hteam with hold | hnew
    · exact hnone poolId gamer team hold hdue
    · obtain rfl := List.mem_singleton.mp hnew
      exact absurd hdue (Nat.lt_irrefl 0)
  · exact hnone p g team hteam hdue

/-- **One effect** keeps the unclaimed rewards in pools whose rewards are open. -/
theorem Effect.flagged (h : Effect api st st' entry) (hh : Housed api st) (hu : Unsettled st)
    (hf : Flagged st) : Flagged st' := by
  cases h with
  | keeps wallets slots hst =>
    refine hf.same (by rw [hst]) fun p hstatus _ => ?_
    rw [hst]
    exact hstatus
  | setsType poolType details hnone hst =>
    refine hf.same (by rw [hst]) fun p hstatus _ => ?_
    rw [hst]
    exact hstatus
  | cancels info status pools hentry hstatus hlive hpools hst =>
    refine hf.same (by rw [hst]; rfl) fun p hflag _ => ?_
    have hafter : st'.poolDetails[p]? = (st.poolDetails[p]?).map PoolDetails.refunded := by
      rw [hst]
      exact hpools p
    unfold Storage.rewardStatus at hflag ⊢
    rw [hafter, Option.any_map]
    exact hflag
  | locks info pools hentry hopen hpools hst =>
    refine hf.same (by rw [hst]; rfl) fun p hflag _ => ?_
    have hlocked : ∀ a : String, Locked st (st.poolDetails[a]?) (st'.poolDetails[a]?) := by
      intro a
      rw [hst]
      exact hpools a
    rw [rewardStatus_locked hlocked]
    exact hflag
  | creates info poolType hentry hopens =>
    obtain ⟨-, counts, hst⟩ := hopens.numbered
    have hinsert : st'.poolDetails = st.poolDetails.insert (st.nextPoolId api)
        (newPool st.config.gameId (st.nextPoolId api) poolType) := by rw [hst]
    refine hf.same (by rw [hst]) fun p hflag ⟨g, hg⟩ => ?_
    rw [rewardStatus_insert hinsert, if_neg]
    · exact hflag
    · -- no team is stored for the pool that is created
      rintro rfl
      exact hg (hh.fresh_teams g)
  | bids info gamer poolType poolId teamId amount hentry hjoins => exact hjoins.flagged hu hf
  | claimsRewards info gamer hentry hclaims =>
    refine hf.claimed (f := fun _ => PoolTeamDetails.claimReward) (fun p team => ?_) hclaims.teams
      hclaims.rest
    rw [rewardDue_claimReward]
    exact Nat.zero_le _
  | claimsRefunds info gamer hentry hclaims =>
    exact hf.claimed (f := fun p => PoolTeamDetails.claimRefund (st.feeOf p)) (fun p team => le_rfl)
      hclaims.teams hclaims.rest
  | distributes info poolId gameWinners isFinalBatch ustForRake gameId status pool teams slots
      hentry hstatus hclosed hpool hteams hst =>
    have hinsert : st'.poolDetails = st.poolDetails.insert poolId
        (pool.distributedTo st.config.gameId poolId isFinalBatch) := by rw [hst]
    -- the pool of the batch is flagged; in the others the teams are as they were
    intro p g team hteam hdue
    rw [rewardStatus_insert hinsert]
    split
    · rfl
    · rename_i hp
      have hsame : st'.teams p g = st.teams p g := by
        rw [hst]
        exact (hteams (p, g)).trans (if_neg fun hk => hp hk.1.symm)
      rw [hsame] at hteam
      exact hf p g team hteam hdue

theorem flagged_of_initial (h : Initial api st) : Flagged st := by
  intro p g team hteam
  rw [h.teams] at hteam
  cases hteam

/-- In every run the unclaimed rewards are in pools whose rewards are open. -/
theorem run_flagged (h : Initial api st) (cs : List Call) : Flagged (run (exec api) st cs) := by
  suffices hrun : Housed api (run (exec api) st cs) ∧ Unsettled (run (exec api) st cs) ∧
      Flagged (run (exec api) st cs) from hrun.2.2
  refine run_preserves (I := fun s => Housed api s ∧ Unsettled s ∧ Flagged s) ?_
    ⟨housed_of_initial h, unsettled_of_initial h, flagged_of_initial h⟩ cs
  rintro s c s' r ⟨hh, hu, hf⟩ hexec
  have heffect := exec_effect hexec
  exact ⟨heffect.housed hh, heffect.unsettled hu, heffect.flagged hh hu hf⟩

end Steps

/-! ## The loops -/

/-- What a gamer has not claimed of the rewards of a pool, whether they are open or not. -/
def unclaimed (st : Storage) (gamer poolId : String) : ℕ :=
  ((st.teams poolId gamer).map rewardDue).sum

section Loops

variable {st : Storage} {gamer : String} {n m : ℕ} {l l' : List PoolTeamDetails}

/-- What the rules for sums ask of a round of the query over teams. -/
theorem queryTeamReward_eq_ok {team : PoolTeamDetails} (hgamer : team.gamerAddress = gamer)
    (hn : n < Uint128.bound) : queryTeamReward gamer n team = .ok m ↔
      m = n + rewardDue team ∧ m < Uint128.bound := by
  rw [queryTeamReward, rewardDue]
  by_cases hclaimed : team.claimedReward = true
  · rw [if_neg (fun h => Bool.noConfusion (hclaimed.symm.trans h.2)), if_pos hclaimed, pure_eq_ok]
    constructor
    · rintro rfl
      exact ⟨rfl, hn⟩
    · rintro ⟨rfl, -⟩
      rfl
  · rw [if_pos ⟨hgamer.symm, Bool.eq_false_iff.mpr hclaimed⟩, if_neg hclaimed, Uint128.add_eq_ok]
    constructor
    · rintro ⟨hlt, rfl⟩
      exact ⟨rfl, hlt⟩
    · rintro ⟨rfl, hlt⟩
      exact ⟨hlt, rfl⟩

/-- **The query adds up** what the gamer has not claimed, and succeeds when it is in range. -/
theorem queryReward_eq_ok_unclaimed (hf : Filed st) : queryReward st gamer = .ok m ↔
    m = (st.poolDetails.keys.map (unclaimed st gamer)).sum ∧ m < Uint128.bound := by
  have hround : ∀ p ∈ st.poolDetails.keys, ∀ n m, n < Uint128.bound →
      (queryPoolReward st gamer n p = .ok m ↔ m = n + unclaimed st gamer p ∧ m < Uint128.bound) := by
    intro p _ n m hn
    exact foldlM_adds
      (fun team hteam n m hn => queryTeamReward_eq_ok (hf p gamer team hteam).2 hn) hn
  -- a sum of sums: the rule is applied to the pools, and in each to its teams
  have hloop := foldlM_adds (m := m) hround (show 0 < Uint128.bound by decide)
  rw [Nat.zero_add] at hloop
  exact hloop

/-- Unclaimed rewards are due, where they are in pools whose rewards are open. -/
theorem Flagged.unclaimed_eq (hflag : Flagged st) (p : String) :
    unclaimed st gamer p = rewardsDue st gamer p := by
  unfold rewardsDue unclaimed
  split
  · rfl
  · rename_i hstatus
    refine List.sum_eq_zero fun n hn => ?_
    obtain ⟨team, hteam, rfl⟩ := List.mem_map.mp hn
    by_contra hne
    exact hstatus (hflag p gamer team hteam (Nat.pos_of_ne_zero hne))

/-- **The query tells what is due**, if it is in range. -/
theorem queryReward_eq_ok (hf : Filed st) (hflag : Flagged st) : queryReward st gamer = .ok m ↔
    m = (st.poolDetails.keys.map (rewardsDue st gamer)).sum ∧ m < Uint128.bound := by
  rw [queryReward_eq_ok_unclaimed hf, funext hflag.unclaimed_eq]

/-- Over the teams of a pool the claim gets through while the rewards are in range. -/
theorem claimTeams_succeed (h : n + (l.map rewardDue).sum < Uint128.bound) :
    ∃ r, l.foldlM claimTeamReward (l', n) = .ok r := by
  refine foldlM_succeeds (I := fun l acc => acc.2 + (l.map rewardDue).sum < Uint128.bound) ?_ h
  -- what is still to be added is part of the bound, so each sum is in range
  rintro team l ⟨updated, sum⟩ hlt
  rw [List.map_cons, List.sum_cons, ← Nat.add_assoc] at hlt
  unfold claimTeamReward
  by_cases hclaimed : team.claimedReward = true
  · rw [rewardDue, if_pos hclaimed] at hlt
    exact ⟨_, if_pos hclaimed, hlt⟩
  · rw [rewardDue, if_neg hclaimed] at hlt
    have hadd : (Uint128.add sum team.rewardAmount : Exec ContractError ℕ) =
        .ok (sum + team.rewardAmount) :=
      Uint128.add_eq_ok.mpr ⟨(Nat.le_add_right _ _).trans_lt hlt, rfl⟩
    rw [if_neg hclaimed, bind_of_eq_ok hadd]
    exact ⟨_, rfl, hlt⟩

/-- What a round of the claim adds for a pool. -/
theorem claimPool_succeeds {acc : Teams × ℕ} {p : String}
    (h : acc.2 + (if st.rewardStatus p then ((teamsAt acc.1 (p, gamer)).map rewardDue).sum else 0) <
      Uint128.bound) : ∃ acc', claimPoolReward st gamer acc p = .ok acc' := by
  unfold claimPoolReward
  split
  · exact ⟨acc, rfl⟩
  · rename_i pool hpool
    rw [rewardStatus_of_get hpool] at h
    split
    · exact ⟨acc, rfl⟩
    · rename_i hstatus
      rw [if_pos (Bool.eq_true_of_not_eq_false hstatus)] at h
      split
      · exact ⟨acc, rfl⟩
      · rename_i teams hteams
        rw [teamsAt_of_get hteams] at h
        obtain ⟨⟨updated, sum⟩, hloop⟩ : ∃ r, teams.foldlM claimTeamReward ([], acc.2) = .ok r :=
          claimTeams_succeed h
        rw [bind_of_eq_ok hloop]
        exact ⟨_, rfl⟩

/-- **The claim gets through** all pools while what is due is in range. -/
theorem claimLoop_succeeds
    (h : (st.poolDetails.keys.map (rewardsDue st gamer)).sum < Uint128.bound) :
    ∃ acc, st.poolDetails.keys.foldlM (claimPoolReward st gamer) (st.poolTeamDetails, 0) =
      .ok acc := by
  -- the pools that remain are as they are stored, and what is due for them is still in range
  refine foldlM_succeeds (I := fun ps acc => ps.Nodup ∧
    (∀ p ∈ ps, teamsAt acc.1 (p, gamer) = st.teams p gamer) ∧
    acc.2 + (ps.map (rewardsDue st gamer)).sum < Uint128.bound) ?_
    ⟨Store.nodup_keys _, fun _ _ => rfl, by rwa [Nat.zero_add]⟩
  rintro p ps acc ⟨hnodup, hteams, hlt⟩
  obtain ⟨hp, hps⟩ := List.nodup_cons.mp hnodup
  obtain ⟨hteams₀, hteams⟩ := List.forall_mem_cons.mp hteams
  rw [List.map_cons, List.sum_cons, ← Nat.add_assoc] at hlt
  have hdue : (if st.rewardStatus p then ((teamsAt acc.1 (p, gamer)).map rewardDue).sum else 0) =
      rewardsDue st gamer p := by rw [hteams₀, rewardsDue]
  obtain ⟨acc', hround⟩ : ∃ acc', claimPoolReward st gamer acc p = .ok acc' := by
    apply claimPool_succeeds
    rw [hdue]
    exact (Nat.le_add_right _ _).trans_lt hlt
  -- the round leaves the teams of the pools that remain
  obtain ⟨hafter, hsum⟩ := claimPoolReward_spec hround
  rw [hdue] at hsum
  refine ⟨acc', hround, hps, fun a ha => ?_, ?_⟩
  · rw [hafter, if_neg]
    · exact hteams a ha
    · rintro ⟨hk, -⟩
      exact hp ((Prod.mk.inj hk).1 ▸ ha)
  · rw [hsum]
    exact hlt

/-- What the claim has added up is in range. -/
theorem claimLoop_lt {acc : Teams × ℕ}
    (h : st.poolDetails.keys.foldlM (claimPoolReward st gamer) (st.poolTeamDetails, 0) = .ok acc) :
    acc.2 < Uint128.bound := by
  refine foldlM_invariant (I := fun acc : Teams × ℕ => acc.2 < Uint128.bound) ?_
    (show 0 < Uint128.bound by decide) h
  -- the sum starts in range, and each addition is checked
  intro p acc acc' hacc hround
  unfold claimPoolReward at hround
  split at hround
  · rwa [← pure_eq_ok.mp hround]
  · split at hround
    · rwa [← pure_eq_ok.mp hround]
    · split at hround
      · rwa [← pure_eq_ok.mp hround]
      · obtain ⟨⟨updated, sum⟩, hteams, hround⟩ := bind_eq_ok.mp hround
        cases pure_eq_ok.mp hround
        refine foldlM_invariant (I := fun r : List PoolTeamDetails × ℕ => r.2 < Uint128.bound) ?_
          hacc hteams
        intro team r r' hr hteam
        unfold claimTeamReward at hteam
        split at hteam
        · cases pure_eq_ok.mp hteam
          exact hr
        · obtain ⟨sum', hadd, hteam⟩ := bind_eq_ok.mp hteam
          cases pure_eq_ok.mp hteam
          obtain ⟨hlt, rfl⟩ := Uint128.add_eq_ok.mp hadd
          exact hlt

/-- The loop of the claim fails by a panic only, when its sum overflows. -/
theorem claimLoop_error {e : Fault ContractError}
    (h : st.poolDetails.keys.foldlM (claimPoolReward st gamer) (st.poolTeamDetails, 0) = .error e) :
    e = .panic := by
  refine foldlM_error (P := fun e => e = .panic) ?_ h
  intro acc p e hround
  unfold claimPoolReward at hround
  split at hround
  · cases hround
  · split at hround
    · cases hround
    · split at hround
      · cases hround
      -- the one step that fails is the addition
      · rcases bind_eq_error.mp hround with hteams | ⟨r, -, hsaved⟩
        · refine foldlM_error (P := fun e => e = .panic) ?_ hteams
          intro r team e hteam
          unfold claimTeamReward at hteam
          split at hteam
          · cases hteam
          · rcases bind_eq_error.mp hteam with hadd | ⟨sum, -, hrest⟩
            · exact (provided_eq_error.mp hadd).2
            · cases hrest
        · cases hsaved

end Loops

/-! ## The claim and the query -/

section Claim

variable {api : Api} {q : Querier} {info : MessageInfo} {st st' : Storage} {gamer : String}
  {r : Response Payload}

/-- The message of a query that fails is not that of a claim without a reward. -/
theorem MarksErrors.ne_noReward (hq : MarksErrors q) {address : Addr} {amount : ℕ}
    {e : StdError} (h : q.token2ForToken1Price address amount = .error e) :
    (Fault.err (OfStdError.std e) : Fault ContractError) ≠ noReward := by
  intro heq
  have hmsg : e = .genericErr "No reward for this user" := by
    injection heq with heq
    injection heq
  rw [hmsg] at h
  obtain ⟨mark, hmark, text, htext⟩ := hq address amount _ h
  have hchars := congrArg String.toList htext
  rw [String.toList_append] at hchars
  -- the messages differ in their first letters
  rcases List.mem_cons.mp hmark with rfl | hmark
  · cases (List.cons.inj hchars).1
  · rcases List.mem_cons.mp hmark with rfl | hmark
    · cases (List.cons.inj hchars).1
    · obtain rfl := List.mem_singleton.mp hmark
      cases (List.cons.inj hchars).1

/-- The fees of a claim are refused with other errors than that of a claim without a reward. -/
theorem checkRewardFees_ne_noReward (hq : MarksErrors q) (userReward : ℕ) :
    checkRewardFees q info st userReward ≠ .error noReward := by
  intro h
  unfold checkRewardFees at h
  rcases bind_eq_error.mp h with hprice | ⟨price, -, h⟩
  · cases hanswer : q.token2ForToken1Price st.config.poolAddress userReward with
    | ok price =>
      rw [hanswer] at hprice
      cases hprice
    | error e =>
      rw [hanswer] at hprice
      exact hq.ne_noReward hanswer (Except.error.inj hprice)
  · rcases bind_eq_error.mp h with hfees | ⟨fees, -, h⟩
    -- the arithmetic of the fees fails by panics
    · unfold queryPlatformFees at hfees
      rcases bind_eq_error.mp hfees with hmul | ⟨platform, -, hfees⟩
      · cases (provided_eq_error.mp hmul).2
      · rcases bind_eq_error.mp hfees with hdiv | ⟨platformFee, -, hfees⟩
        · cases (provided_eq_error.mp hdiv).2
        · rcases bind_eq_error.mp hfees with hmul | ⟨transaction, -, hfees⟩
          · cases (provided_eq_error.mp hmul).2
          · rcases bind_eq_error.mp hfees with hdiv | ⟨transactionFee, -, hfees⟩
            · cases (provided_eq_error.mp hdiv).2
            · cases hfees
    · split at h
      · cases h
      -- the checks of the coins have errors of their own
      · rcases bind_eq_error.mp h with hdenom | ⟨-, -, h⟩
        · cases (provided_eq_error.mp hdenom).2
        · rcases bind_eq_error.mp h with hadd | ⟨required, -, h⟩
          · cases (provided_eq_error.mp hadd).2
          · cases (provided_eq_error.mp h).2

/-- What the claim has added up over the pools is what the query tells. -/
theorem queryReward_of_claimLoop {acc : Teams × ℕ} (hf : Filed st) (hflag : Flagged st)
    (h : st.poolDetails.keys.foldlM (claimPoolReward st gamer) (st.poolTeamDetails, 0) = .ok acc) :
    queryReward st gamer = .ok acc.2 :=
  (queryReward_eq_ok hf hflag).mpr ⟨(foldlM_claimPoolReward h).2, claimLoop_lt h⟩

/-- **A claim is refused for want of a reward** exactly when the query tells of none. -/
theorem claimReward_refused_iff (hsender : api gamer = .ok info.sender) (hq : MarksErrors q)
    (hf : Filed st) (hflag : Flagged st) :
    claimReward api q info st gamer = .error noReward ↔ queryReward st gamer = .ok 0 := by
  have hself : (refuse (info.sender ≠ info.sender) (.unauthorizedInvoker info.sender) :
      Exec ContractError Unit) = .ok () :=
    refuse_eq_ok.mpr (not_not.mpr rfl)
  rw [claimReward, bind_of_eq_ok (validate_eq_ok.mpr hsender), bind_of_eq_ok hself]
  constructor
  · intro h
    -- which step has refused the claim: the loop, the check of the sum, or the fees
    rcases bind_eq_error.mp h with hloop | ⟨⟨teams, userReward⟩, hloop, h⟩
    · cases claimLoop_error hloop
    · rw [queryReward_of_claimLoop hf hflag hloop]
      rcases bind_eq_error.mp h with hrefused | ⟨-, -, h⟩
      · rw [not_not.mp (provided_eq_error.mp hrefused).1]
      · rcases bind_eq_error.mp h with hfees | ⟨-, -, h⟩
        · exact absurd hfees (checkRewardFees_ne_noReward hq userReward)
        · cases h
  · intro h
    -- nothing is due, so the loop gets through with zero, and the check refuses it
    obtain ⟨hzero, -⟩ := (queryReward_eq_ok hf hflag).mp h
    have hlt : (st.poolDetails.keys.map (rewardsDue st gamer)).sum < Uint128.bound := by
      rw [← hzero]
      decide
    obtain ⟨⟨teams, userReward⟩, hloop⟩ := claimLoop_succeeds hlt
    have hamount := (foldlM_claimPoolReward hloop).2
    rw [← hzero] at hamount
    rw [bind_of_eq_ok hloop]
    exact bind_eq_error.mpr (.inl (provided_eq_error.mpr ⟨not_not.mpr hamount, rfl⟩))

/-- A claim that is paid has got through all pools. -/
theorem claimLoop_of_claimReward (h : claimReward api q info st gamer = .ok (st', r)) :
    ∃ acc, st.poolDetails.keys.foldlM (claimPoolReward st gamer) (st.poolTeamDetails, 0) =
      .ok acc := by
  unfold claimReward at h
  obtain ⟨gamerAddr, -, h⟩ := bind_eq_ok.mp h
  obtain ⟨-, h⟩ := refuse_bind_eq_ok.mp h
  obtain ⟨acc, hloop, -⟩ := bind_eq_ok.mp h
  exact ⟨acc, hloop⟩

/-- After a claim nothing that is due to the gamer is left. -/
theorem ClaimsRewards.unclaimed_eq_zero (h : ClaimsRewards api info gamer st st')
    (hflag : Flagged st) (p : String) : unclaimed st' gamer p = 0 := by
  refine List.sum_eq_zero fun n hn => ?_
  obtain ⟨team, hteam, rfl⟩ := List.mem_map.mp hn
  rw [h.teams] at hteam
  split at hteam
  · obtain ⟨old, -, rfl⟩ := List.mem_map.mp hteam
    exact rewardDue_claimReward old
  · rename_i hp
    by_contra hne
    exact hp ⟨rfl, hflag p gamer team hteam (Nat.pos_of_ne_zero hne)⟩

end Claim

/-- **In every run a claim of rewards pays what the query tells**: it is refused for want of a reward
exactly when the query tells of none, it transfers what the query tells to the gamer, and afterwards
the query tells of none. -/
theorem paysWhatIsTold (api : Api) (st : Storage) (cs : List Call) (hinit : Initial api st)
    (gamer : String) : PaysWhatIsTold api (run (exec api) st cs) gamer := by
  have hf := run_filed hinit cs
  have hflag := run_flagged hinit cs
  generalize run (exec api) st cs = s at hf hflag
  refine ⟨fun q env info hsender hq => claimReward_refused_iff hsender hq hf hflag, ?_⟩
  intro q env info st' r h
  obtain ⟨hclaims, hmessages⟩ := claimReward_spec h
  have hf' : Filed st' := (execute_effect h).filed hf
  obtain ⟨acc, hloop⟩ := claimLoop_of_claimReward h
  have hquery := queryReward_of_claimLoop hf hflag hloop
  rw [(foldlM_claimPoolReward hloop).2] at hquery
  refine ⟨_, hquery, hclaims.sender, hmessages, ?_⟩
  -- after the claim nothing is left in any pool
  refine (queryReward_eq_ok_unclaimed hf').mpr ⟨?_, by decide⟩
  rw [funext (hclaims.unclaimed_eq_zero hflag), List.map_const', List.sum_replicate, smul_zero]

open Sample in
/-- Two pools are played, and a gamer has a reward in each. -/
theorem paysWhatIsTold_sample :
    let st := run (exec api) storage (played ++
      [batch "1" [⟨"alice", "lions", 5000⟩], batch "2" [⟨"alice", "lions", 7000⟩]])
    queryReward st "alice" = .ok 12000 ∧ PaysWhatIsTold api st "alice" :=
  ⟨by decide +kernel, paysWhatIsTold api storage _ initial "alice"⟩

end Gamingpool
