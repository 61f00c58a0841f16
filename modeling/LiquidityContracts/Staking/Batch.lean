import LiquidityContracts.Staking.Stakes

/-!
# A batch of rewards

A batch walks a list of stakers. A round credits the record of a staker with a reward and moves
its start to the next period; a record that starts in the future is lost. So a staker who is
listed again loses the record when the next period is still to come.

## Main definitions

* `Round`: what the loop does to the record of a staker
* `Credit`, `creditsOver`, `credits`: the rewards that a loop, and a call, credits
* `Keeps`: no record of a listed staker is lost

## Main results

* `creditStaker_round`, `Round.empties_or_credits`: the rounds of the loop
* `foldlM_given`: the loop counts what it credits
* `Keeps.tail`: which records the rest of the loop keeps
* `calculateAndDistributeRewards_spec`: what an accepted batch does
-/

namespace Clubstaking

open CosmWasm

/-- The record with its reward, which is staked or left to be claimed. -/
def ClubStakingDetails.credit (r : ClubStakingDetails) (start : Timestamp) (reward : ℕ) :
    ClubStakingDetails :=
  if r.autoStake then
    { r with
      stakingStartTimestamp := start
      stakedAmount := r.stakedAmount + reward + r.rewardAmount
      rewardAmount := 0 }
  else { r with stakingStartTimestamp := start, rewardAmount := r.rewardAmount + reward }

/-- A reward credited to a stake. -/
structure Credit where
  clubName : String
  stakerAddress : String
  stakedAmount : ℕ
  autoStake : Bool
  reward : ℕ
  deriving DecidableEq, Repr

section Loop

variable (terms : RewardTerms) (period : RewardPeriod) (clubName : String)

/-- The credit of a record, none where it starts in the future. -/
def creditOf (staker : String) (r : ClubStakingDetails) : Option Credit :=
  if period.now < r.stakingStartTimestamp then none
  else (rewardForStake terms r).toOption.map fun reward =>
    ⟨clubName, staker, r.stakedAmount, r.autoStake, reward⟩

/-- The credits of a round of the loop. -/
def roundCredits (staking : Store (String × String) (List ClubStakingDetails)) (staker : String) :
    List Credit :=
  (stakesAt staking (clubName, staker)).filterMap (creditOf terms period clubName staker)

/-- The credits of the loop over the stakers. -/
def creditsOver : Store (String × String) (List ClubStakingDetails) × Given → List String →
    List Credit
  | _, [] => []
  | acc, staker :: stakers =>
    roundCredits terms period clubName acc.1 staker ++
      match creditStaker terms period clubName acc staker with
      | .ok acc => creditsOver acc stakers
      | .error _ => []

/-- A round of the loop over the stakers: the staker has no record, has one that is lost, or has
one that is credited. -/
inductive Round (acc acc' : Store (String × String) (List ClubStakingDetails) × Given)
    (staker : String) : Prop
  | absent (hstakes : stakesAt acc.1 (clubName, staker) = [])
      (hacc : acc' = (acc.1.insert (clubName, staker) [], acc.2))
  | loses (r : ClubStakingDetails) (hstakes : stakesAt acc.1 (clubName, staker) = [r])
      (hlt : period.now < r.stakingStartTimestamp)
      (hacc : acc' = (acc.1.insert (clubName, staker) [], acc.2))
  | credits (r : ClubStakingDetails) (reward : ℕ)
      (hstakes : stakesAt acc.1 (clubName, staker) = [r]) (hof : r.IsOf staker)
      (hle : r.stakingStartTimestamp ≤ period.now)
      (hreward : rewardForStake terms r = .ok reward)
      (hacc : acc' = (acc.1.insert (clubName, staker) [r.credit period.newStart reward],
        ⟨acc.2.rewardGivenSoFar + reward,
          acc.2.stakeToAddForClub + if r.autoStake then reward else 0⟩))

end Loop

section Rounds

variable {terms : RewardTerms} {period : RewardPeriod} {c s : String} {r : ClubStakingDetails}
  {start reward : ℕ} {acc acc' : Store (String × String) (List ClubStakingDetails) × Given}
  {stakers : List String}

theorem credit_isOf (h : r.IsOf s) : (r.credit start reward).IsOf s := by
  unfold ClubStakingDetails.credit
  split
  · exact ⟨h.staker, fun _ => rfl⟩
  · rename_i hauto
    exact ⟨h.staker, fun h => absurd h hauto⟩

@[simp] theorem credit_start : (r.credit start reward).stakingStartTimestamp = start := by
  unfold ClubStakingDetails.credit
  split
  · rfl
  · rfl

/-- A credit raises the stake and the pending reward by the reward. -/
theorem credit_value : (r.credit start reward).stakedAmount + (r.credit start reward).rewardAmount =
    r.stakedAmount + r.rewardAmount + reward := by
  unfold ClubStakingDetails.credit
  split
  · change r.stakedAmount + reward + r.rewardAmount + 0 = _
    omega
  · exact (Nat.add_assoc ..).symm

theorem creditStake_spec {kept kept' : List ClubStakingDetails × Given}
    (hle : r.stakingStartTimestamp ≤ period.now)
    (h : creditStake terms period kept r = .ok kept') :
    ∃ reward, rewardForStake terms r = .ok reward ∧
      kept' = (kept.1 ++ [r.credit period.newStart reward],
        ⟨kept.2.rewardGivenSoFar + reward,
          kept.2.stakeToAddForClub + if r.autoStake then reward else 0⟩) := by
  rw [creditStake, if_neg (not_lt.mpr hle)] at h
  obtain ⟨reward, hreward, h⟩ := bind_eq_ok.mp h
  obtain ⟨given, hgiven, h⟩ := bind_eq_ok.mp h
  obtain ⟨-, rfl⟩ := Uint128.add_eq_ok.mp hgiven
  refine ⟨reward, hreward, ?_⟩
  unfold ClubStakingDetails.credit
  split at h
  -- the reward is folded into the stake
  · rename_i hauto
    obtain ⟨toAdd, htoAdd, h⟩ := bind_eq_ok.mp h
    obtain ⟨staked, hstaked, h⟩ := bind_eq_ok.mp h
    obtain ⟨folded, hfolded, h⟩ := bind_eq_ok.mp h
    obtain ⟨-, rfl⟩ := Uint128.add_eq_ok.mp htoAdd
    obtain ⟨-, rfl⟩ := Uint128.add_eq_ok.mp hstaked
    obtain ⟨-, rfl⟩ := Uint128.add_eq_ok.mp hfolded
    rw [if_pos hauto, if_pos hauto]
    exact (pure_eq_ok.mp h).symm
  -- the reward is kept as pending
  · rename_i hauto
    obtain ⟨pending, hpending, h⟩ := bind_eq_ok.mp h
    obtain ⟨-, rfl⟩ := Uint128.add_eq_ok.mp hpending
    rw [if_neg hauto, if_neg hauto]
    exact (pure_eq_ok.mp h).symm

/-- **A round** finds no record, loses one or credits one. -/
theorem creditStaker_round (ht : Tidy acc.1)
    (h : creditStaker terms period c acc s = .ok acc') : Round terms period c acc acc' s := by
  unfold creditStaker at h
  obtain ⟨⟨updated, given⟩, hloop, h⟩ := bind_eq_ok.mp h
  obtain rfl := pure_eq_ok.mp h
  -- there is one record at most, so the loop over them has one round
  rcases ht (c, s) with hnil | ⟨r, hr, hof⟩
  · rw [hnil] at hloop
    cases pure_eq_ok.mp hloop
    exact .absent hnil rfl
  · rw [hr, List.foldlM_cons] at hloop
    obtain ⟨kept, hround, hloop⟩ := bind_eq_ok.mp hloop
    obtain rfl := pure_eq_ok.mp hloop
    by_cases hlt : period.now < r.stakingStartTimestamp
    · rw [creditStake, if_pos hlt] at hround
      cases pure_eq_ok.mp hround
      exact .loses r hr hlt rfl
    · obtain ⟨reward, hreward, hkept⟩ := creditStake_spec (not_lt.mp hlt) hround
      cases hkept
      exact .credits r reward hr hof (not_lt.mp hlt) hreward rfl

/-- A round leaves the staker without a record, or credits the one that there is. -/
theorem Round.empties_or_credits (h : Round terms period c acc acc' s) :
    acc' = (acc.1.insert (c, s) [], acc.2) ∨
      ∃ r reward, stakesAt acc.1 (c, s) = [r] ∧ r.IsOf s ∧ r.stakingStartTimestamp ≤ period.now ∧
        rewardForStake terms r = .ok reward ∧
        acc' = (acc.1.insert (c, s) [r.credit period.newStart reward],
          ⟨acc.2.rewardGivenSoFar + reward,
            acc.2.stakeToAddForClub + if r.autoStake then reward else 0⟩) := by
  cases h with
  | absent hstakes hacc => exact .inl hacc
  | loses r hstakes hlt hacc => exact .inl hacc
  | credits r reward hstakes hof hle hreward hacc =>
    exact .inr ⟨r, reward, hstakes, hof, hle, hreward, hacc⟩

/-- A round changes the records of its staker alone. -/
theorem Round.stakes_of_ne (h : Round terms period c acc acc' s) {k : String × String}
    (hk : (c, s) ≠ k) : stakesAt acc'.1 k = stakesAt acc.1 k := by
  rcases h.empties_or_credits with hacc | ⟨r, reward, -, -, -, -, hacc⟩
  · rw [hacc, stakesAt_insert, if_neg hk]
  · rw [hacc, stakesAt_insert, if_neg hk]

theorem Round.tidy (h : Round terms period c acc acc' s) (ht : Tidy acc.1) : Tidy acc'.1 := by
  rcases h.empties_or_credits with hacc | ⟨r, reward, -, hof, -, -, hacc⟩
  · rw [hacc]
    exact ht.replace stakesAt_insert (.inl rfl)
  · rw [hacc]
    exact ht.replace stakesAt_insert (.inr ⟨_, rfl, credit_isOf hof⟩)

/-- The credit of a round is the reward of the record that is credited. -/
theorem Round.credits_eq (h : Round terms period c acc acc' s) :
    roundCredits terms period c acc.1 s = [] ∧ acc'.2 = acc.2 ∨
      ∃ r reward, stakesAt acc.1 (c, s) = [r] ∧ r.IsOf s ∧ rewardForStake terms r = .ok reward ∧
        roundCredits terms period c acc.1 s = [⟨c, s, r.stakedAmount, r.autoStake, reward⟩] ∧
        acc'.2.rewardGivenSoFar = acc.2.rewardGivenSoFar + reward := by
  unfold roundCredits
  cases h with
  | absent hstakes hacc =>
    rw [hstakes, hacc]
    exact .inl ⟨rfl, rfl⟩
  -- a record that starts in the future is dropped without a credit
  | loses r hstakes hlt hacc =>
    rw [hstakes, hacc]
    refine .inl ⟨?_, rfl⟩
    rw [List.filterMap_cons, creditOf, if_pos hlt]
    rfl
  | credits r reward hstakes hof hle hreward hacc =>
    rw [hstakes, hacc]
    refine .inr ⟨r, reward, rfl, hof, hreward, ?_, rfl⟩
    rw [List.filterMap_cons, creditOf, if_neg (not_lt.mpr hle), hreward]
    rfl

/-- The loop, round by round. -/
theorem foldlM_creditStaker_cons {staker : String}
    (h : (staker :: stakers).foldlM (creditStaker terms period c) acc = .ok acc') (ht : Tidy acc.1) :
    ∃ acc₁, Round terms period c acc acc₁ staker ∧ Tidy acc₁.1 ∧
      stakers.foldlM (creditStaker terms period c) acc₁ = .ok acc' ∧
      creditsOver terms period c acc (staker :: stakers) =
        roundCredits terms period c acc.1 staker ++ creditsOver terms period c acc₁ stakers := by
  rw [List.foldlM_cons] at h
  obtain ⟨acc₁, hround, h⟩ := bind_eq_ok.mp h
  have hr := creditStaker_round ht hround
  refine ⟨acc₁, hr, hr.tidy ht, h, ?_⟩
  rw [creditsOver, hround]

theorem foldlM_tidy (h : stakers.foldlM (creditStaker terms period c) acc = .ok acc')
    (ht : Tidy acc.1) : Tidy acc'.1 :=
  foldlM_invariant (I := fun acc => Tidy acc.1)
    (fun _ _ _ ht hround => (creditStaker_round ht hround).tidy ht) ht h

/-- **The loop counts what it credits.** -/
theorem foldlM_given (h : stakers.foldlM (creditStaker terms period c) acc = .ok acc')
    (ht : Tidy acc.1) : acc'.2.rewardGivenSoFar = acc.2.rewardGivenSoFar +
      ((creditsOver terms period c acc stakers).map (·.reward)).sum := by
  induction stakers generalizing acc with
  | nil =>
    cases h
    rfl
  | cons staker stakers ih =>
    obtain ⟨acc₁, hround, ht₁, h, hcredits⟩ := foldlM_creditStaker_cons h ht
    rw [ih h ht₁, hcredits]
    rcases hround.credits_eq with ⟨hnone, hgiven⟩ | ⟨r, reward, -, -, -, hone, hgiven⟩
    · rw [hnone, hgiven]
      rfl
    · rw [hone, hgiven, List.singleton_append, List.map_cons, List.sum_cons, Nat.add_assoc]

end Rounds

/-! ## The records that are kept -/

/-- No record of a listed staker is lost: it does not start in the future, and neither does the
next period where the staker is listed more than once. -/
def Keeps (period : RewardPeriod) (clubName : String)
    (staking : Store (String × String) (List ClubStakingDetails)) (stakers : List String) : Prop :=
  ∀ s ∈ stakers, ∀ r ∈ stakesAt staking (clubName, s), r.stakingStartTimestamp ≤ period.now ∧
    (1 < stakers.count s → period.newStart ≤ period.now)

instance (period : RewardPeriod) (clubName : String)
    (staking : Store (String × String) (List ClubStakingDetails)) (stakers : List String) :
    Decidable (Keeps period clubName staking stakers) :=
  inferInstanceAs (Decidable (∀ s ∈ stakers, ∀ r ∈ stakesAt staking (clubName, s), _ ∧ (_ → _)))

section Kept

variable {terms : RewardTerms} {period : RewardPeriod} {c s : String}
  {acc acc' : Store (String × String) (List ClubStakingDetails) × Given} {stakers : List String}

/-- A round leaves the rest of the loop to keep its records. -/
theorem Keeps.tail (hk : Keeps period c acc.1 (s :: stakers))
    (h : Round terms period c acc acc' s) : Keeps period c acc'.1 stakers := by
  intro s' hs' r' hr'
  by_cases hss : s = s'
  · subst hss
    -- the staker is listed again, so the next period has started
    have htwice : 1 < (s :: stakers).count s := by
      have hpos := List.count_pos_iff.mpr hs'
      rw [List.count_cons_self]
      omega
    rcases h.empties_or_credits with hacc | ⟨r, reward, hstakes, -, -, -, hacc⟩
    · rw [hacc, stakesAt_insert, if_pos rfl] at hr'
      cases hr'
    · rw [hacc, stakesAt_insert, if_pos rfl] at hr'
      have hnext := (hk s List.mem_cons_self r (by rw [hstakes]; exact List.mem_singleton.mpr rfl)).2
      rw [List.mem_singleton.mp hr', credit_start]
      exact ⟨hnext htwice, fun _ => hnext htwice⟩
  · rw [h.stakes_of_ne (by rintro ⟨⟩; exact hss rfl)] at hr'
    obtain ⟨hle, hnext⟩ := hk s' (List.mem_cons_of_mem _ hs') r' hr'
    rw [List.count_cons_of_ne hss] at hnext
    exact ⟨hle, hnext⟩

/-- A round that keeps its record finds none or credits it. -/
theorem Keeps.head (hk : Keeps period c acc.1 (s :: stakers)) {r : ClubStakingDetails}
    (hr : stakesAt acc.1 (c, s) = [r]) : ¬ period.now < r.stakingStartTimestamp := by
  have hle := (hk s List.mem_cons_self r (by rw [hr]; exact List.mem_singleton.mpr rfl)).1
  exact not_lt.mpr hle

end Kept

/-! ## The call -/

/-- The terms of a batch. -/
def batchTerms (st : Storage) (env : Env) (clubName : String) (isFirstBatch isFinalBatch : Bool) :
    Exec ContractError RewardTerms := do
  let st := saveNextTimestamp st env isFinalBatch
  let (_, _, terms) ← openBatch st clubName (st.reward.getD 0) isFirstBatch
  return terms

/-- The rewards that a call credits to stakes. -/
def credits (api : Api) (st : Storage) (c : Call) : List Credit :=
  match c.msg with
  | .calculateAndDistributeRewards stakerList clubName isFirstBatch isFinalBatch =>
    if (exec api st c).isSome ∧ st.reward.getD 0 ≠ 0 then
      match batchTerms st c.env clubName isFirstBatch isFinalBatch with
      | .ok terms => creditsOver terms (rewardPeriod st c.env) clubName (st.staking, {}) stakerList
      | .error _ => []
    else []
  | _ => []

/-- What an accepted batch does: without a reward nothing but to save the next timestamp. -/
inductive Batch (env : Env) (st st' : Storage) (stakerList : List String) (clubName : String)
    (isFirstBatch isFinalBatch : Bool) : Prop
  | idle (next : Option Timestamp) (hreward : st.reward.getD 0 = 0)
      (hst : st' = { st with clubRewardNextTimestamp := next })
  | runs (next : Option Timestamp) (ranked : Storage) (winning : WinningClubDetails)
      (owner : ClubOwnershipDetails) (terms : RewardTerms)
      (staking : Store (String × String) (List ClubStakingDetails)) (given : Given)
      (hreward : st.reward.getD 0 ≠ 0)
      (hranking : rankingFor { st with clubRewardNextTimestamp := next } isFirstBatch =
        .ok (ranked, winning))
      (howner : st.ownership[clubName]? = some owner)
      (hterms : rewardTerms winning owner clubName (st.reward.getD 0) = .ok terms)
      (hbatch : batchTerms st env clubName isFirstBatch isFinalBatch = .ok terms)
      (hloop : stakerList.foldlM (creditStaker terms (rewardPeriod st env) clubName)
        (st.staking, {}) = .ok (staking, given))
      (hst : st' = { st with
        clubRewardNextTimestamp := next
        stakingSnapshot := ranked.stakingSnapshot
        winningClubDetailsSnapshot := ranked.winningClubDetailsSnapshot
        staking := staking
        ownership := st.ownership.insert clubName
          { owner with totalStakedAmount := owner.totalStakedAmount + given.stakeToAddForClub }
        rewardGivenInCurrentTimestamp :=
          some (st.rewardGivenInCurrentTimestamp.getD 0 + given.rewardGivenSoFar)
        reward := if isFinalBatch then some (st.reward.getD 0 -
          (st.rewardGivenInCurrentTimestamp.getD 0 + given.rewardGivenSoFar)) else st.reward })

section Call

variable {api : Api} {env : Env} {info : MessageInfo} {st st' : Storage} {stakerList : List String}
  {clubName : String} {isFirstBatch isFinalBatch : Bool} {r : Response Cw20.ExecuteMsg}
  {winning : WinningClubDetails} {c : Call}

theorem saveNextTimestamp_frame (st : Storage) (env : Env) (isFinalBatch : Bool) :
    ∃ next, saveNextTimestamp st env isFinalBatch = { st with clubRewardNextTimestamp := next } := by
  unfold saveNextTimestamp
  split
  · exact ⟨some _, rfl⟩
  · exact ⟨st.clubRewardNextTimestamp, rfl⟩

theorem queryClubOwnershipDetails_eq_ok {owner : ClubOwnershipDetails}
    (h : queryClubOwnershipDetails st clubName = (.ok owner : Exec ContractError _)) :
    st.ownership[clubName]? = some owner := by
  unfold queryClubOwnershipDetails at h
  split at h
  · rename_i owner' howner
    rw [howner, pure_eq_ok.mp h]
  · exact absurd h (failGeneric_ne_ok _ _)

theorem queryClubOwnershipDetails_eq_ok_iff {club : ClubOwnershipDetails} :
    queryClubOwnershipDetails st clubName = (.ok club : Exec ContractError _) ↔
      st.ownership[clubName]? = some club := by
  refine ⟨queryClubOwnershipDetails_eq_ok, fun h => ?_⟩
  rw [queryClubOwnershipDetails, h]
  rfl

/-- The ranking changes nothing but what is kept of rankings. -/
theorem rankingFor_frame (h : rankingFor st isFirstBatch = .ok (st', winning)) :
    ∃ snapshot details, st' = { st with
      stakingSnapshot := snapshot, winningClubDetailsSnapshot := details } := by
  unfold rankingFor at h
  split at h
  · obtain ⟨⟨ranked, winning⟩, hranked, h⟩ := bind_eq_ok.mp h
    cases pure_eq_ok.mp h
    unfold getWinningClubsDetails at hranked
    obtain ⟨clubs, -, hranked⟩ := bind_eq_ok.mp hranked
    obtain ⟨acc, -, hranked⟩ := bind_eq_ok.mp hranked
    cases pure_eq_ok.mp hranked
    exact ⟨_, _, rfl⟩
  · cases pure_eq_ok.mp h
    exact ⟨_, _, rfl⟩

theorem openBatch_spec {totalReward : ℕ} {owner : ClubOwnershipDetails} {terms : RewardTerms}
    (h : openBatch st clubName totalReward isFirstBatch = .ok (st', owner, terms)) :
    ∃ winning snapshot details, rankingFor st isFirstBatch = .ok (st', winning) ∧
      st' = { st with stakingSnapshot := snapshot, winningClubDetailsSnapshot := details } ∧
      st.ownership[clubName]? = some owner ∧
      rewardTerms winning owner clubName totalReward = .ok terms := by
  unfold openBatch at h
  obtain ⟨⟨ranked, winning⟩, hranking, h⟩ := bind_eq_ok.mp h
  obtain ⟨snapshot, details, rfl⟩ := rankingFor_frame hranking
  obtain ⟨owner, howner, h⟩ := bind_eq_ok.mp h
  obtain ⟨terms, hterms, h⟩ := bind_eq_ok.mp h
  cases pure_eq_ok.mp h
  exact ⟨winning, snapshot, details, hranking, rfl, queryClubOwnershipDetails_eq_ok howner, hterms⟩

/-- **An accepted batch.** -/
theorem calculateAndDistributeRewards_spec
    (h : calculateAndDistributeRewards env info st stakerList clubName isFirstBatch isFinalBatch =
      .ok (st', r)) : Batch env st st' stakerList clubName isFirstBatch isFinalBatch := by
  unfold calculateAndDistributeRewards at h
  obtain ⟨-, h⟩ := refuseGeneric_bind_eq_ok.mp h
  obtain ⟨-, h⟩ := refuseGeneric_bind_eq_ok.mp h
  obtain ⟨next, hsaved⟩ := saveNextTimestamp_frame st env isFinalBatch
  rw [hsaved] at h
  dsimp only at h
  split at h
  -- without a pot the message does nothing but move the schedule
  · rename_i hreward
    cases pure_eq_ok.mp h
    exact .idle next hreward rfl
  · rename_i hreward
    obtain ⟨distributed, hdistributed, h⟩ := bind_eq_ok.mp h
    cases pure_eq_ok.mp h
    unfold distributeRewardToClubStakers at hdistributed
    obtain ⟨⟨ranked, owner, terms⟩, hopen, hdistributed⟩ := bind_eq_ok.mp hdistributed
    obtain ⟨⟨staking, given⟩, hloop, hdistributed⟩ := bind_eq_ok.mp hdistributed
    obtain ⟨total, htotal, hdistributed⟩ := bind_eq_ok.mp hdistributed
    obtain ⟨sum, hsum, hdistributed⟩ := bind_eq_ok.mp hdistributed
    obtain ⟨-, rfl⟩ := Uint128.add_eq_ok.mp htotal
    obtain ⟨-, rfl⟩ := Uint128.add_eq_ok.mp hsum
    -- the terms are those that the ranking and the pot of this batch give
    have hbatch : batchTerms st env clubName isFirstBatch isFinalBatch = .ok terms := by
      rw [batchTerms, hsaved]
      exact bind_eq_ok.mpr ⟨_, hopen, rfl⟩
    obtain ⟨winning, snapshot, details, hranking, rfl, howner, hterms⟩ := openBatch_spec hopen
    obtain rfl := pure_eq_ok.mp hdistributed
    exact .runs next _ winning owner terms staking given hreward hranking howner hterms hbatch
      hloop rfl

theorem exec_batch (h : exec api st c = some (st', r))
    (hmsg : c.msg = .calculateAndDistributeRewards stakerList clubName isFirstBatch isFinalBatch) :
    Batch c.env st st' stakerList clubName isFirstBatch isFinalBatch := by
  rw [exec, toOption_eq_some, hmsg] at h
  exact calculateAndDistributeRewards_spec h

/-- A batch leaves the configuration and the bonds alone. -/
theorem Batch.frame (h : Batch env st st' stakerList clubName isFirstBatch isFinalBatch) :
    st'.config = st.config ∧ st'.bonding = st.bonding := by
  cases h with
  | idle next hreward hst =>
    rw [hst]
    exact ⟨rfl, rfl⟩
  | runs next ranked winning owner terms staking given hreward hranking howner hterms hbatch hloop
      hst =>
    rw [hst]
    exact ⟨rfl, rfl⟩

theorem Batch.tidy (h : Batch env st st' stakerList clubName isFirstBatch isFinalBatch)
    (ht : Tidy st.staking) : Tidy st'.staking := by
  cases h with
  | idle next hreward hst =>
    rw [hst]
    exact ht
  | runs next ranked winning owner terms staking given hreward hranking howner hterms hbatch hloop
      hst =>
    rw [hst]
    exact foldlM_tidy hloop ht

/-- A call that is reverted, or is no batch, credits nothing. -/
theorem credits_of_none (h : exec api st c = none) : credits api st c = [] := by
  unfold credits
  rw [h]
  split
  · exact if_neg (by rintro ⟨⟨⟩, -⟩)
  · rfl

theorem credits_of_idle (h : st.reward.getD 0 = 0) : credits api st c = [] := by
  unfold credits
  split
  · exact if_neg fun hc => hc.2 h
  · rfl

theorem credits_of_batch {terms : RewardTerms} (hexec : (exec api st c).isSome)
    (hmsg : c.msg = .calculateAndDistributeRewards stakerList clubName isFirstBatch isFinalBatch)
    (hreward : st.reward.getD 0 ≠ 0)
    (hbatch : batchTerms st c.env clubName isFirstBatch isFinalBatch = .ok terms) :
    credits api st c =
      creditsOver terms (rewardPeriod st c.env) clubName (st.staking, {}) stakerList := by
  unfold credits
  rw [hmsg]
  dsimp only
  rw [if_pos ⟨hexec, hreward⟩, hbatch]

end Call

end Clubstaking
