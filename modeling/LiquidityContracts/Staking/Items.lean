import LiquidityContracts.Staking.Cycle

/-!
# The pot, the schedule and the bonds

Beside the stakes the staking contract keeps the pot of rewards, what the batches have given since
the pot was filled, the time of the next reward, and the bonds. Most messages leave them alone:
the pot is filled by one message and emptied by batches, the time is moved by final batches, and
the bonds are changed by withdrawals.

## Main definitions

* `SameItems`: the pot, the schedule and the rankings are the same
* `ItemsEffect`: what an accepted message does to them
* `ClosesCycle`: a final batch is accepted

## Main results

* `execute_items`: every accepted message has one of the effects
* `schedule_of_batch`: when a batch is admitted, and what a final one schedules
* `nextReward_of_not_closes`: nothing else moves the time of the next reward
-/

namespace Clubstaking

open CosmWasm

/-- The configuration, the pot, the schedule and the rankings are the same. -/
structure SameItems (st st' : Storage) : Prop where
  config : st'.config = st.config
  reward : st'.reward = st.reward
  given : st'.rewardGivenInCurrentTimestamp = st.rewardGivenInCurrentTimestamp
  next : st'.clubRewardNextTimestamp = st.clubRewardNextTimestamp
  snapshot : st'.stakingSnapshot = st.stakingSnapshot
  winning : st'.winningClubDetailsSnapshot = st.winningClubDetailsSnapshot

/-- The reward that the pot holds. -/
def Storage.pot (st : Storage) : ℕ := st.reward.getD 0

/-- The reward that was given, by the contract's own count. -/
def Storage.given (st : Storage) : ℕ := st.rewardGivenInCurrentTimestamp.getD 0

/-- Whether a message leaves the pot, the schedule and the bonds alone. -/
def ExecuteMsg.isPlain : ExecuteMsg → Bool
  | .stakeWithdrawFromAClub _ _ _ _ => false
  | .calculateAndDistributeRewards _ _ _ _ => false
  | .increaseRewardAmount _ _ => false
  | _ => true

/-- What an accepted message does to the pot, the schedule and the bonds. -/
inductive ItemsEffect (env : Env) (st st' : Storage) (msg : ExecuteMsg) : Prop
  | plain (hmsg : msg.isPlain = true) (h : SameItems st st') (hbonds : st'.bonding = st.bonding)
  | withdraws (staker clubName : String) (amount : ℕ) (immediateWithdrawal : Bool)
      (hmsg : msg = .stakeWithdrawFromAClub staker clubName amount immediateWithdrawal)
      (h : SameItems st st')
  | increases (rewardFrom : String) (amount : ℕ)
      (hmsg : msg = .increaseRewardAmount rewardFrom amount)
      (hst : st' = { st with
        reward := some (st.reward.getD 0 + amount)
        rewardGivenInCurrentTimestamp := some 0 })
  | distributes (stakerList : List String) (clubName : String) (isFirstBatch isFinalBatch : Bool)
      (hmsg : msg = .calculateAndDistributeRewards stakerList clubName isFirstBatch isFinalBatch)
      (h : Batch env st st' stakerList clubName isFirstBatch isFinalBatch)

section Frames

variable {api : Api} {q : Querier} {env : Env} {info : MessageInfo} {st st₁ st' : Storage}
  {r : Response Cw20.ExecuteMsg} {c s : String} {a price : ℕ} {autoStake increaseStake : Bool}
  {seller : Option String}

theorem SameItems.refl (st : Storage) : SameItems st st := ⟨rfl, rfl, rfl, rfl, rfl, rfl⟩

theorem SameItems.trans (h : SameItems st st₁) (h' : SameItems st₁ st') : SameItems st st' where
  config := h'.config.trans h.config
  reward := h'.reward.trans h.reward
  given := h'.given.trans h.given
  next := h'.next.trans h.next
  snapshot := h'.snapshot.trans h.snapshot
  winning := h'.winning.trans h.winning

/-- Saving a stake changes the stakes under its key, and the total of the club. -/
theorem saveStakingDetails_frame
    (h : saveStakingDetails st env s c a autoStake increaseStake = .ok st') :
    ∃ staking owner total, st.ownership[c]? = some owner ∧
      (∀ k, k ≠ (c, s) → staking[k]? = st.staking[k]?) ∧ st' = { st with
        staking
        ownership := st.ownership.insert c { owner with totalStakedAmount := total } } := by
  unfold saveStakingDetails at h
  obtain ⟨updated, -, h⟩ := bind_eq_ok.mp h
  obtain ⟨owner, howner, h⟩ := bind_eq_ok.mp h
  obtain ⟨total, -, h⟩ := bind_eq_ok.mp h
  refine ⟨_, owner, total, load_eq_ok.mp howner, fun k hk => ?_, (pure_eq_ok.mp h).symm⟩
  split
  · exact Store.get_insert_of_ne _ _ hk.symm
  · split
    · exact Store.get_insert_of_ne _ _ hk.symm
    · rfl

theorem saveStakingDetails_items
    (h : saveStakingDetails st env s c a autoStake increaseStake = .ok st') :
    SameItems st st' ∧ st'.bonding = st.bonding := by
  obtain ⟨staking, owner, total, -, -, rfl⟩ := saveStakingDetails_frame h
  exact ⟨⟨rfl, rfl, rfl, rfl, rfl, rfl⟩, rfl⟩

theorem saveOwner_items {owner : ClubOwnershipDetails}
    (h : saveOwner env st owner s c autoStake = .ok st') :
    SameItems st st' ∧ st'.bonding = st.bonding := by
  unfold saveOwner at h
  dsimp only at h
  split at h
  · obtain rfl := pure_eq_ok.mp h
    exact ⟨⟨rfl, rfl, rfl, rfl, rfl, rfl⟩, rfl⟩
  · obtain ⟨hitems, hbonds⟩ := saveStakingDetails_items h
    exact ⟨⟨hitems.config, hitems.reward, hitems.given, hitems.next, hitems.snapshot,
      hitems.winning⟩, hbonds⟩

theorem keepOwnerReward_items {sellerName : String} {owner : ClubOwnershipDetails}
    (h : keepOwnerReward st sellerName owner = .ok st') :
    SameItems st st' ∧ st'.bonding = st.bonding := by
  unfold keepOwnerReward at h
  split at h
  · obtain rfl := pure_eq_ok.mp h
    exact ⟨.refl _, rfl⟩
  · obtain ⟨rewardAmount, -, h⟩ := bind_eq_ok.mp h
    obtain rfl := pure_eq_ok.mp h
    exact ⟨⟨rfl, rfl, rfl, rfl, rfl, rfl⟩, rfl⟩

theorem acquireClub_items (h : acquireClub api env st s seller c price autoStake = .ok st') :
    SameItems st st' ∧ st'.bonding = st.bonding := by
  obtain ⟨-, buyerAddr, acquired, total, -, hfrom, h⟩ := acquireClub_spec h
  obtain ⟨hsaved, hbonds⟩ := saveOwner_items h
  rcases hfrom with ⟨-, rfl, -⟩ | ⟨owner, -, -, hkept, -⟩
  · exact ⟨hsaved, hbonds⟩
  · obtain ⟨hitems, hbonds'⟩ := keepOwnerReward_items hkept
    exact ⟨hitems.trans hsaved, hbonds.trans hbonds'⟩

theorem foldlM_assignStake_items {stakeList : List ClubStakingDetails} {total total' : ℕ}
    (h : stakeList.foldlM (assignStake env c) (st, total) = .ok (st', total')) :
    SameItems st st' ∧ st'.bonding = st.bonding := by
  refine foldlM_assignStake_keeps (P := fun saved => SameItems st saved ∧
    saved.bonding = st.bonding) ⟨.refl st, rfl⟩ ?_ h
  rintro saved saved' s a autoStake ⟨hitems, hbonds⟩ hsaved
  obtain ⟨hitems', hbonds'⟩ := saveStakingDetails_items hsaved
  exact ⟨hitems.trans hitems', hbonds'.trans hbonds⟩

theorem releaseClub_items (h : releaseClub api env info st s c = .ok (st', r)) :
    SameItems st st' ∧ st'.bonding = st.bonding := by
  obtain ⟨owner, -, -, -, rfl⟩ := releaseClub_spec h
  exact ⟨⟨rfl, rfl, rfl, rfl, rfl, rfl⟩, rfl⟩

theorem claimOwnerRewards_items (h : claimOwnerRewards api info st s c = .ok (st', r)) :
    SameItems st st' ∧ st'.bonding = st.bonding := by
  obtain ⟨-, details, -, -, rfl, -⟩ := claimOwnerRewards_spec h
  exact ⟨⟨rfl, rfl, rfl, rfl, rfl, rfl⟩, rfl⟩

theorem claimPreviousOwnerRewards_items
    (h : claimPreviousOwnerRewards api info st s = .ok (st', r)) :
    SameItems st st' ∧ st'.bonding = st.bonding := by
  obtain ⟨-, details, -, rfl, -⟩ := claimPreviousOwnerRewards_spec h
  exact ⟨⟨rfl, rfl, rfl, rfl, rfl, rfl⟩, rfl⟩

theorem withdrawStakeFromAClub_items {immediate : Bool}
    (h : withdrawStakeFromAClub api q env info st s c a immediate = .ok (st', r)) :
    SameItems st st' := by
  obtain ⟨-, decrease, bonding, saved, bonding', -, hsaved, rfl⟩ := withdrawStakeFromAClub_spec h
  obtain ⟨hitems, -⟩ := saveStakingDetails_items hsaved
  exact ⟨hitems.config, hitems.reward, hitems.given, hitems.next, hitems.snapshot, hitems.winning⟩

/-- **Every accepted message** has one of the effects on the pot, the schedule and the bonds. -/
theorem execute_items {msg : ExecuteMsg} (h : execute api q env info st msg = .ok (st', r)) :
    ItemsEffect env st st' msg := by
  cases msg with
  | buyAClub buyer seller clubName autoStake =>
    obtain ⟨hitems, hbonds⟩ := acquireClub_items (buyAClub_spec h).2.1
    exact .plain rfl hitems hbonds
  | assignAClub buyer seller clubName autoStake =>
    obtain ⟨hitems, hbonds⟩ := acquireClub_items (assignAClub_spec h).1
    exact .plain rfl hitems hbonds
  | stakeOnAClub staker clubName amount autoStake =>
    obtain ⟨hitems, hbonds⟩ := saveStakingDetails_items (stakeOnAClub_spec h).2.1
    exact .plain rfl hitems hbonds
  | assignStakesToAClub stakeList clubName =>
    obtain ⟨total, hassigned, -⟩ := assignStakesToAClub_spec h
    obtain ⟨hitems, hbonds⟩ := foldlM_assignStake_items hassigned
    exact .plain rfl hitems hbonds
  | releaseClub owner clubName =>
    obtain ⟨hitems, hbonds⟩ := releaseClub_items h
    exact .plain rfl hitems hbonds
  | claimOwnerRewards owner clubName =>
    obtain ⟨hitems, hbonds⟩ := claimOwnerRewards_items h
    exact .plain rfl hitems hbonds
  | claimPreviousOwnerRewards previousOwner =>
    obtain ⟨hitems, hbonds⟩ := claimPreviousOwnerRewards_items h
    exact .plain rfl hitems hbonds
  | claimStakerRewards staker clubName =>
    -- a claim rewrites stakes only
    obtain ⟨-, -, amount, -, -, rfl, -⟩ := claimStakerRewards_spec h
    exact .plain rfl ⟨rfl, rfl, rfl, rfl, rfl, rfl⟩ rfl
  | stakeWithdrawFromAClub staker clubName amount immediateWithdrawal =>
    exact .withdraws staker clubName amount immediateWithdrawal rfl (withdrawStakeFromAClub_items h)
  | calculateAndDistributeRewards stakerList clubName isFirstBatch isFinalBatch =>
    exact .distributes stakerList clubName isFirstBatch isFinalBatch rfl
      (calculateAndDistributeRewards_spec h)
  | increaseRewardAmount rewardFrom amount =>
    obtain ⟨-, h⟩ := refuse_bind_eq_ok.mp h
    obtain ⟨reward, hreward, h⟩ := bind_eq_ok.mp h
    cases pure_eq_ok.mp h
    obtain ⟨-, rfl⟩ := Uint128.add_eq_ok.mp hreward
    exact .increases rewardFrom amount rfl rfl

end Frames

/-! ## The schedule -/

/-- The time of the next reward. -/
def Storage.nextReward (st : Storage) : Timestamp := st.clubRewardNextTimestamp.getD 0

/-- A final batch is accepted. -/
def ClosesCycle (api : Api) (st : Storage) (c : Call) : Prop :=
  (exec api st c).isSome ∧ c.msg.isFinalBatch = true

instance (api : Api) (st : Storage) (c : Call) : Decidable (ClosesCycle api st c) :=
  inferInstanceAs (Decidable (_ ∧ _))

section Calls

variable {api : Api} {c : Call} {st st' : Storage} {r : Response Cw20.ExecuteMsg}

theorem ClosesCycle.batch (h : ClosesCycle api st c) : ∃ stakerList clubName isFirstBatch,
    c.msg = .calculateAndDistributeRewards stakerList clubName isFirstBatch true := by
  obtain ⟨-, hfinal⟩ := h
  generalize c.msg = msg at hfinal
  cases msg with
  | calculateAndDistributeRewards stakerList clubName isFirstBatch isFinalBatch =>
    obtain rfl : isFinalBatch = true := hfinal
    exact ⟨stakerList, clubName, isFirstBatch, rfl⟩
  | _ => cases hfinal

theorem exec_items (h : exec api st c = some (st', r)) : ItemsEffect c.env st st' c.msg :=
  execute_items (exec_eq_some.mp h)

/-- The configuration never changes. -/
theorem exec_config (h : exec api st c = some (st', r)) : st'.config = st.config := by
  cases exec_items h with
  | plain hmsg h hbonds => exact h.config
  | withdraws staker clubName amount immediateWithdrawal hmsg h => exact h.config
  | increases rewardFrom amount hmsg hst => rw [hst]
  | distributes stakerList clubName isFirstBatch isFinalBatch hmsg h => exact h.frame.1

theorem run_config (st : Storage) (cs : List Call) : (run (exec api) st cs).config = st.config :=
  run_preserves (I := fun st' : Storage => st'.config = st.config)
    (fun _ _ _ _ hs h => (exec_config h).trans hs) rfl cs

/-- A batch is admitted from the time of the next reward on; a final one schedules the reward
after it. -/
theorem schedule_of_batch {stakerList : List String} {clubName : String}
    {isFirstBatch isFinalBatch : Bool} (h : exec api st c = some (st', r))
    (hmsg : c.msg = .calculateAndDistributeRewards stakerList clubName isFirstBatch isFinalBatch) :
    st.nextReward ≤ c.env.block.time ∧
      st'.nextReward = if isFinalBatch then (rewardPeriod st c.env).newStart
        else st.nextReward := by
  rw [exec_eq_some, hmsg] at h
  obtain ⟨-, h⟩ := refuseGeneric_bind_eq_ok.mp h
  obtain ⟨hadmitted, h⟩ := refuseGeneric_bind_eq_ok.mp h
  refine ⟨not_lt.mp hadmitted, ?_⟩
  -- the schedule is saved before the distribution, which leaves it alone
  have hnext : (saveNextTimestamp st c.env isFinalBatch).nextReward =
      if isFinalBatch then (rewardPeriod st c.env).newStart else st.nextReward := by
    unfold saveNextTimestamp
    split
    · rfl
    · rfl
  rw [← hnext]
  dsimp only at h
  split at h
  · cases pure_eq_ok.mp h
    rfl
  · obtain ⟨distributed, hdistributed, h⟩ := bind_eq_ok.mp h
    cases pure_eq_ok.mp h
    unfold distributeRewardToClubStakers at hdistributed
    obtain ⟨⟨ranked, owner, terms⟩, hopen, hdistributed⟩ := bind_eq_ok.mp hdistributed
    obtain ⟨⟨staking, given⟩, -, hdistributed⟩ := bind_eq_ok.mp hdistributed
    obtain ⟨total, -, hdistributed⟩ := bind_eq_ok.mp hdistributed
    obtain ⟨sum, -, hdistributed⟩ := bind_eq_ok.mp hdistributed
    obtain ⟨winning, snapshot, details, -, rfl, -, -⟩ := openBatch_spec hopen
    rw [← pure_eq_ok.mp hdistributed]
    rfl

/-- A call that closes no cycle leaves the time of the next reward as it is. -/
theorem nextReward_of_not_closes (h : exec api st c = some (st', r))
    (hcloses : ¬ ClosesCycle api st c) : st'.nextReward = st.nextReward := by
  cases exec_items h with
  | plain hmsg h hbonds => rw [Storage.nextReward, h.next, Storage.nextReward]
  | withdraws staker clubName amount immediateWithdrawal hmsg h =>
    rw [Storage.nextReward, h.next, Storage.nextReward]
  | increases rewardFrom amount hmsg hst =>
    rw [hst]
    rfl
  | distributes stakerList clubName isFirstBatch isFinalBatch hmsg hbatch =>
    have hopen : isFinalBatch = false := by
      by_contra hfinal
      refine hcloses ⟨by rw [h]; rfl, ?_⟩
      rw [hmsg]
      exact Bool.not_eq_false _ ▸ hfinal
    rw [(schedule_of_batch h hmsg).2, hopen]
    rfl

end Calls

end Clubstaking
