import LiquidityContracts.Staking.Batch

/-!
# The effects of the messages

Every handler of the staking contract is taken apart once, down to what it does to the stakes and
to the totals of the clubs: most messages leave them as they are, some increase the stakes of a
club one after the other, a withdrawal decreases a stake, and a batch distributes rewards.

## Main definitions

* `ExecuteMsg.increases`: the increases a message asks for
* `Effect`: what an accepted message does to the stakes

## Main results

* `stakeOnAClub_spec`, `withdrawStakeFromAClub_spec`, `acquireClub_same_or_opens`: the handlers
* `execute_effect`: every accepted message has one of the effects
* `run_tidy`: in every run a staker has at most one record in a club
-/

namespace Clubstaking

open CosmWasm

/-- The increases a message asks for, each with its club. -/
def ExecuteMsg.increases : ExecuteMsg → List (String × Increase)
  | .stakeOnAClub staker clubName amount autoStake => [(clubName, ⟨staker, amount, autoStake⟩)]
  | .assignStakesToAClub stakeList clubName => stakeList.map fun stake =>
    (clubName, ⟨stake.stakerAddress, stake.stakedAmount, stake.autoStake⟩)
  | _ => []

/-- What an accepted message does to the stakes and to the totals of the clubs. -/
inductive Effect (env : Env) (st st' : Storage) (msg : ExecuteMsg) : Prop
  | same (h : Same st st')
  /-- A new owner without a stake gets a stake of zero. -/
  | opens (clubName buyer : String) (autoStake : Bool)
      (hnone : stakesAt st.staking (clubName, buyer) = [])
      (h : Increases env clubName [⟨buyer, 0, autoStake⟩] st st')
  | increases (clubName : String) (is : List Increase)
      (hmsg : msg.increases = is.map fun i => (clubName, i))
      (h : Increases env clubName is st st')
  | decreases (clubName staker : String) (amount : ℕ) (hle : amount ≤ st.total clubName)
      (hsome : stakesAt st.staking (clubName, staker) ≠ [])
      (hstaked : ∀ r ∈ stakesAt st.staking (clubName, staker), amount ≤ r.stakedAmount)
      (h : Replaces (clubName, staker)
        ((stakesAt st.staking (clubName, staker)).map (·.decrease amount))
        (st.total clubName - amount) st st')
  | distributes (stakerList : List String) (clubName : String) (isFirstBatch isFinalBatch : Bool)
      (hmsg : msg = .calculateAndDistributeRewards stakerList clubName isFirstBatch isFinalBatch)
      (h : Batch env st st' stakerList clubName isFirstBatch isFinalBatch)

section Handlers

variable {api : Api} {q : Querier} {env : Env} {info : MessageInfo} {st st' : Storage}
  {r : Response Cw20.ExecuteMsg} {c s : String} {a price : ℕ} {autoStake immediate : Bool}
  {seller : Option String}

/-! ## Clubs -/

/-- A club saved with the total it has leaves the totals as they are. -/
theorem same_of_save {owner : ClubOwnershipDetails} (hstaking : st'.staking = st.staking)
    (hownership : st'.ownership = st.ownership) (htotal : owner.totalStakedAmount = st.total c) :
    Same st { st' with ownership := st'.ownership.insert c owner } := by
  refine ⟨fun k => by rw [hstaking], fun d => ?_⟩
  rw [total_insert_ownership, Storage.total, Storage.total, hownership]
  split
  · rename_i hd
    rw [← hd]
    exact htotal
  · rfl

theorem saveOwner_spec {owner : ClubOwnershipDetails} (ht : Tidy st.staking)
    (h : saveOwner env st owner s c autoStake = .ok st')
    (htotal : owner.totalStakedAmount = st.total c) :
    Same st st' ∨ stakesAt st.staking (c, s) = [] ∧
      Increases env c [⟨s, 0, autoStake⟩] st st' := by
  have hsame : Same st { st with ownership := st.ownership.insert c owner } :=
    same_of_save rfl rfl htotal
  unfold saveOwner at h
  dsimp only at h
  split at h
  · obtain rfl := pure_eq_ok.mp h
    exact .inl hsame
  · rename_i hnone
    rw [Bool.not_eq_true] at hnone
    have hsingle : Increases env c [⟨s, 0, autoStake⟩] _ st' :=
      .single (saveStakingDetails_replaces (hsame.tidy ht) h)
    exact .inr ⟨ht.eq_nil hnone, hsingle.of_same hsame⟩

theorem keepOwnerReward_spec {sellerName : String} {owner : ClubOwnershipDetails}
    (h : keepOwnerReward st sellerName owner = .ok st') :
    st'.staking = st.staking ∧ st'.ownership = st.ownership := by
  unfold keepOwnerReward at h
  split at h
  · obtain rfl := pure_eq_ok.mp h
    exact ⟨rfl, rfl⟩
  · obtain ⟨rewardAmount, -, h⟩ := bind_eq_ok.mp h
    obtain rfl := pure_eq_ok.mp h
    exact ⟨rfl, rfl⟩

/-- A club is acquired from nobody, or from an owner who keeps its reward; it keeps its total, and
has no reward for the new owner. -/
theorem acquireClub_spec (h : acquireClub api env st s seller c price autoStake = .ok st') :
    (¬ ∃ owner ∈ st.ownership.values, owner.ownerAddress = s) ∧
      ∃ buyerAddr acquired totalStakedAmount, api s = .ok buyerAddr ∧
        (st.ownership[c]? = none ∧ acquired = st ∧ totalStakedAmount = 0 ∨
          ∃ owner, st.ownership[c]? = some owner ∧
            checkReleased env (seller.getD "") owner = .ok () ∧
            keepOwnerReward st (seller.getD "") owner = .ok acquired ∧
            totalStakedAmount = owner.totalStakedAmount) ∧
        saveOwner env acquired
          { clubName := c
            startTimestamp := env.block.time
            lockingPeriod := st.config.ownerReleaseLockingDuration
            ownerAddress := buyerAddr
            pricePaid := price
            rewardAmount := clubBuyingRewardAmount
            ownerReleased := false
            totalStakedAmount } s c autoStake = .ok st' := by
  unfold acquireClub at h
  obtain ⟨buyerAddr, hbuyer, h⟩ := bind_eq_ok.mp h
  obtain ⟨hscan, h⟩ := refuseGeneric_bind_eq_ok.mp h
  obtain ⟨⟨acquired, totalStakedAmount⟩, hacquired, h⟩ := bind_eq_ok.mp h
  refine ⟨hscan, buyerAddr, acquired, totalStakedAmount, validate_eq_ok.mp hbuyer, ?_, h⟩
  split at hacquired
  · rename_i hnew
    cases pure_eq_ok.mp hacquired
    exact .inl ⟨hnew, rfl, rfl⟩
  · rename_i owner howner
    obtain ⟨⟨⟩, hreleased, hacquired⟩ := bind_eq_ok.mp hacquired
    obtain ⟨kept, hkept, hacquired⟩ := bind_eq_ok.mp hacquired
    cases pure_eq_ok.mp hacquired
    exact .inr ⟨owner, howner, hreleased, hkept, rfl⟩

/-- **A club changes hands** with its total; the new owner gets a stake of zero where there is
none. -/
theorem acquireClub_same_or_opens (ht : Tidy st.staking)
    (h : acquireClub api env st s seller c price autoStake = .ok st') :
    Same st st' ∨ stakesAt st.staking (c, s) = [] ∧
      Increases env c [⟨s, 0, autoStake⟩] st st' := by
  -- the total is that of the club before, which is zero for a new club
  obtain ⟨-, buyerAddr, acquired, total, -, hfrom, h⟩ := acquireClub_spec h
  rcases hfrom with ⟨hnew, rfl, rfl⟩ | ⟨owner, howner, -, hkept, rfl⟩
  · exact saveOwner_spec ht h (Store.weigh_of_none hnew).symm
  · obtain ⟨hstaking, hownership⟩ := keepOwnerReward_spec hkept
    have htotal : owner.totalStakedAmount = acquired.total c := by
      rw [Storage.total, hownership]
      exact (total_of_get howner).symm
    have hsame : Same st acquired := ⟨fun k => by rw [hstaking], fun d => by
      rw [Storage.total, hownership]
      rfl⟩
    rcases saveOwner_spec (hsame.tidy ht) h htotal with h | ⟨hnone, h⟩
    · exact .inl (hsame.trans h)
    · rw [hsame.stakes] at hnone
      exact .inr ⟨hnone, h.of_same hsame⟩

/-! ## Stakes -/

theorem stakeOnAClub_spec (h : stakeOnAClub api q env info st s c a autoStake = .ok (st', r)) :
    info.sender = s ∧ saveStakingDetails st env s c a autoStake true = .ok st' ∧ r = { messages :=
      [transferFromMsg st' info.sender env.contractAddress a, feesMsg st' info] } := by
  unfold stakeOnAClub at h
  obtain ⟨hsender, h⟩ := refuse_bind_eq_ok.mp h
  obtain ⟨-, -, h⟩ := bind_eq_ok.mp h
  obtain ⟨-, -, h⟩ := bind_eq_ok.mp h
  obtain ⟨-, h⟩ := refuseGeneric_bind_eq_ok.mp h
  obtain ⟨saved, hsaved, h⟩ := bind_eq_ok.mp h
  cases pure_eq_ok.mp h
  exact ⟨not_not.mp hsender, hsaved, rfl⟩

theorem assignStakesToAClub_spec {stakeList : List ClubStakingDetails}
    (h : assignStakesToAClub env info st stakeList c = .ok (st', r)) :
    ∃ total, stakeList.foldlM (assignStake env c) (st, 0) = .ok (st', total) ∧
      r.messages = [transferFromMsg st' info.sender env.contractAddress total] := by
  unfold assignStakesToAClub at h
  obtain ⟨-, h⟩ := refuse_bind_eq_ok.mp h
  obtain ⟨-, h⟩ := refuseGeneric_bind_eq_ok.mp h
  obtain ⟨-, h⟩ := refuseGeneric_bind_eq_ok.mp h
  obtain ⟨⟨saved, total⟩, hsaved, h⟩ := bind_eq_ok.mp h
  cases pure_eq_ok.mp h
  exact ⟨total, hsaved, rfl⟩

/-- A round of the assignment saves one stake, and counts its amount. -/
theorem assignStake_spec {acc acc' : Storage × ℕ} {stake : ClubStakingDetails}
    (h : assignStake env c acc stake = .ok acc') :
    saveStakingDetails acc.1 env stake.stakerAddress c stake.stakedAmount stake.autoStake true =
      .ok acc'.1 ∧ acc'.2 = acc.2 + stake.stakedAmount := by
  unfold assignStake at h
  obtain ⟨total, htotal, h⟩ := bind_eq_ok.mp h
  obtain ⟨saved, hsaved, h⟩ := bind_eq_ok.mp h
  obtain rfl := pure_eq_ok.mp h
  exact ⟨hsaved, (Uint128.add_eq_ok.mp htotal).2⟩

/-- What saving a stake keeps, assigning stakes keeps. -/
theorem foldlM_assignStake_keeps {P : Storage → Prop} {stakeList : List ClubStakingDetails}
    {total total' : ℕ} (init : P st)
    (step : ∀ st st' s a autoStake, P st →
      saveStakingDetails st env s c a autoStake true = .ok st' → P st')
    (h : stakeList.foldlM (assignStake env c) (st, total) = .ok (st', total')) : P st' := by
  refine foldlM_invariant (I := fun acc : Storage × ℕ => P acc.1) ?_ init h
  intro stake acc acc' hacc hround
  obtain ⟨hsaved, -⟩ := assignStake_spec hround
  exact step _ _ _ _ _ hacc hsaved

/-- The assigned stakes are increased one after the other. -/
theorem foldlM_assignStake {stakeList : List ClubStakingDetails} {total total' : ℕ}
    (ht : Tidy st.staking)
    (h : stakeList.foldlM (assignStake env c) (st, total) = .ok (st', total')) :
    Increases env c (stakeList.map fun stake =>
      ⟨stake.stakerAddress, stake.stakedAmount, stake.autoStake⟩) st st' := by
  induction stakeList generalizing st total with
  | nil =>
    cases h
    exact .nil (.refl _)
  | cons stake stakeList ih =>
    rw [List.foldlM_cons] at h
    obtain ⟨⟨saved, sum⟩, hround, h⟩ := bind_eq_ok.mp h
    -- each round is one increase, and keeps the store tidy for the next
    obtain ⟨hsaved, -⟩ := assignStake_spec hround
    have hreplaces := saveStakingDetails_replaces ht hsaved
    have htidy := ht.replace hreplaces.stakes
      (.inr (increased_isOf (i := ⟨stake.stakerAddress, stake.stakedAmount, stake.autoStake⟩) ht))
    exact .cons hreplaces (ih htidy h)

/-! ## Withdrawals -/

/-- An immediate withdrawal is paid by bonds alone: the stake is decreased by nothing. -/
theorem withdrawImmediately_spec {stakerAddr : Addr}
    (h : withdrawImmediately env info st stakerAddr s c a = .ok (st', r)) :
    ∃ acc, ((st.bonds c s).insertionSort fun a b =>
        b.bondingStartTimestamp.seconds ≤ a.bondingStartTimestamp.seconds).foldlM
          (unbond env stakerAddr) { amountRemaining := a } = .ok acc ∧ acc.unbondedAmount = a ∧
      saveStakingDetails { st with bonding := st.bonding.insert (c, s) acc.updatedBonds } env s c 0
        false false = .ok st' ∧
      r = { messages := [transferMsg st' s a, feesMsg st' info] } := by
  unfold withdrawImmediately at h
  obtain ⟨acc, hloop, h⟩ := bind_eq_ok.mp h
  obtain ⟨decrease, hdecrease, h⟩ := bind_eq_ok.mp h
  obtain ⟨saved, hsaved, h⟩ := bind_eq_ok.mp h
  obtain ⟨hall, h⟩ := refuseGeneric_bind_eq_ok.mp h
  cases pure_eq_ok.mp h
  obtain ⟨hle, rfl⟩ := Uint128.sub_eq_ok.mp hdecrease
  have hunbonded : acc.unbondedAmount = a := by omega
  rw [hunbonded, Nat.sub_self] at hsaved
  exact ⟨acc, hloop, hunbonded, hsaved, rfl⟩

/-- Any other withdrawal moves the stake into a bond. -/
theorem withdrawToBond_spec (h : withdrawToBond env info st s c a = .ok (st', r)) :
    ∃ saved, saveStakingDetails st env s c a false false = .ok saved ∧
      st' = saveBondingDetails saved env s c a saved.config.bondingDuration ∧
      r = { messages := [feesMsg st' info] } := by
  unfold withdrawToBond at h
  obtain ⟨-, h⟩ := refuseGeneric_bind_eq_ok.mp h
  obtain ⟨-, h⟩ := refuseGeneric_bind_eq_ok.mp h
  obtain ⟨saved, hsaved, h⟩ := bind_eq_ok.mp h
  cases pure_eq_ok.mp h
  exact ⟨saved, hsaved, rfl, rfl⟩

/-- A withdrawal is of a stake that there is, and is of one of the two kinds. -/
theorem withdrawStakeFromAClub_cases
    (h : withdrawStakeFromAClub api q env info st s c a immediate = .ok (st', r)) :
    api s = .ok info.sender ∧ stakesAt st.staking (c, s) ≠ [] ∧
      (immediate = true ∧
        (∃ stakerAddr, withdrawImmediately env info st stakerAddr s c a = .ok (st', r)) ∨
      immediate = false ∧ withdrawToBond env info st s c a = .ok (st', r)) := by
  unfold withdrawStakeFromAClub at h
  obtain ⟨stakerAddr, hvalid, h⟩ := bind_eq_ok.mp h
  obtain ⟨hsender, h⟩ := refuse_bind_eq_ok.mp h
  obtain ⟨-, -, h⟩ := bind_eq_ok.mp h
  obtain ⟨-, h⟩ := refuseGeneric_bind_eq_ok.mp h
  obtain ⟨hstaked, h⟩ := refuseGeneric_bind_eq_ok.mp h
  obtain ⟨-, h⟩ := refuseGeneric_bind_eq_ok.mp h
  refine ⟨not_not.mp hsender ▸ validate_eq_ok.mp hvalid, ?_, ?_⟩
  -- the check has found a record of the staker
  · intro hnil
    obtain ⟨stake, hmem, -⟩ := not_not.mp hstaked
    rw [Storage.stakes, hnil] at hmem
    cases hmem
  cases immediate with
  | true => exact .inl ⟨rfl, stakerAddr, h⟩
  | false => exact .inr ⟨rfl, h⟩

/-- A withdrawal decreases the stake by the amount, or by nothing when it is immediate. -/
theorem withdrawStakeFromAClub_spec
    (h : withdrawStakeFromAClub api q env info st s c a immediate = .ok (st', r)) :
    stakesAt st.staking (c, s) ≠ [] ∧
    ∃ decrease bonding saved bonding', decrease = (if immediate then 0 else a) ∧
      saveStakingDetails { st with bonding := bonding } env s c decrease false false = .ok saved ∧
      st' = { saved with bonding := bonding' } := by
  obtain ⟨-, hstaked, hcases⟩ := withdrawStakeFromAClub_cases h
  refine ⟨hstaked, ?_⟩
  rcases hcases with ⟨rfl, stakerAddr, hpaid⟩ | ⟨rfl, hbonded⟩
  · obtain ⟨acc, -, -, hsaved, -⟩ := withdrawImmediately_spec hpaid
    exact ⟨0, _, st', _, rfl, hsaved, rfl⟩
  · obtain ⟨saved, hsaved, rfl, -⟩ := withdrawToBond_spec hbonded
    exact ⟨a, st.bonding, saved, _, rfl, hsaved, rfl⟩

/-! ## All messages -/

theorem buyAClub_spec (h : buyAClub api q env info st s seller c price autoStake = .ok (st', r)) :
    info.sender = s ∧ acquireClub api env st s seller c price autoStake = .ok st' ∧ r = { messages :=
      [transferFromMsg st' info.sender st'.config.clubFeeCollectorWallet price,
        feesMsg st' info] } := by
  unfold buyAClub at h
  obtain ⟨hsender, h⟩ := refuse_bind_eq_ok.mp h
  obtain ⟨-, h⟩ := refuseGeneric_bind_eq_ok.mp h
  obtain ⟨-, -, h⟩ := bind_eq_ok.mp h
  obtain ⟨acquired, hacquired, h⟩ := bind_eq_ok.mp h
  cases pure_eq_ok.mp h
  exact ⟨not_not.mp hsender, hacquired, rfl⟩

theorem assignAClub_spec (h : assignAClub api env info st s seller c autoStake = .ok (st', r)) :
    acquireClub api env st s seller c 0 autoStake = .ok st' ∧ r.messages = [] := by
  unfold assignAClub at h
  obtain ⟨-, h⟩ := refuse_bind_eq_ok.mp h
  obtain ⟨acquired, hacquired, h⟩ := bind_eq_ok.mp h
  cases pure_eq_ok.mp h
  exact ⟨hacquired, rfl⟩

/-- A release by the owner marks the club, and emits nothing. -/
theorem releaseClub_spec (h : releaseClub api env info st s c = .ok (st', r)) :
    ∃ owner, st.ownership[c]? = some owner ∧ owner.ownerAddress = info.sender ∧ r = {} ∧
      st' = { st with
        ownership := st.ownership.insert c { owner with
          startTimestamp := env.block.time
          ownerReleased := true } } := by
  unfold releaseClub at h
  obtain ⟨sellerAddr, -, h⟩ := bind_eq_ok.mp h
  obtain ⟨hsender, h⟩ := refuse_bind_eq_ok.mp h
  split at h
  · exact absurd h (failGeneric_ne_ok _ _)
  · rename_i owner howner
    obtain ⟨hseller, h⟩ := refuseGeneric_bind_eq_ok.mp h
    cases pure_eq_ok.mp h
    exact ⟨owner, howner, (not_not.mp hseller).trans (not_not.mp hsender), rfl, rfl⟩

theorem releaseClub_same (h : releaseClub api env info st s c = .ok (st', r)) : Same st st' := by
  obtain ⟨owner, howner, -, -, rfl⟩ := releaseClub_spec h
  exact same_of_save rfl rfl (total_of_get howner).symm

/-- An owner is paid a reward that there is, once. -/
theorem claimOwnerRewards_spec (h : claimOwnerRewards api info st s c = .ok (st', r)) :
    api s = .ok info.sender ∧
      ∃ details, st.ownership[c]? = some details ∧ details.rewardAmount ≠ 0 ∧
      st' = { st with ownership := st.ownership.insert c { details with rewardAmount := 0 } } ∧
      r = { messages := [transferMsg st s details.rewardAmount] } := by
  unfold claimOwnerRewards at h
  obtain ⟨ownerAddr, hvalid, h⟩ := bind_eq_ok.mp h
  obtain ⟨hsender, h⟩ := refuse_bind_eq_ok.mp h
  rw [not_not.mp hsender] at hvalid
  split at h
  · exact absurd h (failGeneric_ne_ok _ _)
  · rename_i details hdetails
    obtain ⟨-, h⟩ := refuseGeneric_bind_eq_ok.mp h
    obtain ⟨hreward, h⟩ := refuseGeneric_bind_eq_ok.mp h
    cases pure_eq_ok.mp h
    exact ⟨validate_eq_ok.mp hvalid, details, hdetails, hreward, rfl, rfl⟩

theorem claimOwnerRewards_same (h : claimOwnerRewards api info st s c = .ok (st', r)) :
    Same st st' := by
  obtain ⟨-, details, hdetails, -, rfl, -⟩ := claimOwnerRewards_spec h
  exact same_of_save rfl rfl (total_of_get hdetails).symm

/-- The reward of a previous owner is removed once it is paid. -/
theorem claimPreviousOwnerRewards_spec
    (h : claimPreviousOwnerRewards api info st s = .ok (st', r)) :
    api s = .ok info.sender ∧ ∃ details, st.previousOwners[s]? = some details ∧
      st' = { st with previousOwners := st.previousOwners.erase s } ∧
      r = { messages := [transferMsg st s details.rewardAmount] } := by
  unfold claimPreviousOwnerRewards at h
  obtain ⟨previousOwnerAddr, hvalid, h⟩ := bind_eq_ok.mp h
  obtain ⟨hsender, h⟩ := refuse_bind_eq_ok.mp h
  rw [not_not.mp hsender] at hvalid
  split at h
  · exact absurd h (failGeneric_ne_ok _ _)
  · rename_i details hdetails
    obtain ⟨-, h⟩ := refuseGeneric_bind_eq_ok.mp h
    obtain ⟨-, h⟩ := refuseGeneric_bind_eq_ok.mp h
    cases pure_eq_ok.mp h
    exact ⟨validate_eq_ok.mp hvalid, details, hdetails, rfl, rfl⟩

theorem claimPreviousOwnerRewards_same
    (h : claimPreviousOwnerRewards api info st s = .ok (st', r)) : Same st st' := by
  obtain ⟨-, details, -, rfl, -⟩ := claimPreviousOwnerRewards_spec h
  exact ⟨fun _ => rfl, fun _ => rfl⟩

theorem increaseRewardAmount_same (h : increaseRewardAmount info st s a = .ok (st', r)) :
    Same st st' := by
  unfold increaseRewardAmount at h
  obtain ⟨-, h⟩ := refuse_bind_eq_ok.mp h
  obtain ⟨reward, -, h⟩ := bind_eq_ok.mp h
  cases pure_eq_ok.mp h
  exact ⟨fun _ => rfl, fun _ => rfl⟩

/-- **A claim** pays what is pending and saves the records as they were. -/
theorem claimStakerRewards_spec (h : claimStakerRewards api q info st s c = .ok (st', r)) :
    validate api s = (.ok info.sender : Exec ContractError Addr) ∧
      checkFees q st info [] (.claimStakerRewards s c) = .ok () ∧
      ∃ amount, queryStakerRewards st s c = (.ok amount : Exec ContractError ℕ) ∧ 0 < amount ∧
        st' = { st with staking := st.staking.insert (c, s) (st.stakes c s) } ∧
        r = { messages := [transferMsg st s amount, feesMsg st info] } := by
  unfold claimStakerRewards at h
  obtain ⟨stakerAddr, hvalid, h⟩ := bind_eq_ok.mp h
  obtain ⟨hsender, h⟩ := refuse_bind_eq_ok.mp h
  obtain ⟨⟨⟩, hfees, h⟩ := bind_eq_ok.mp h
  obtain ⟨amount, hamount, h⟩ := bind_eq_ok.mp h
  obtain ⟨-, h⟩ := refuseGeneric_bind_eq_ok.mp h
  obtain ⟨hne, h⟩ := refuseGeneric_bind_eq_ok.mp h
  cases pure_eq_ok.mp h
  rw [not_not.mp hsender] at hvalid
  exact ⟨hvalid, hfees, amount, hamount, Nat.pos_of_ne_zero hne, rfl, rfl⟩

theorem same_of_claim (h : claimStakerRewards api q info st s c = .ok (st', r)) : Same st st' := by
  obtain ⟨-, -, amount, -, -, rfl, -⟩ := claimStakerRewards_spec h
  refine ⟨fun k => ?_, fun _ => rfl⟩
  rw [stakesAt_insert]
  split
  · rename_i hk
    rw [← hk]
    rfl
  · rfl

/-- **Every accepted message** has one of the effects. -/
theorem execute_effect {msg : ExecuteMsg} (ht : Tidy st.staking)
    (h : execute api q env info st msg = .ok (st', r)) : Effect env st st' msg := by
  cases msg with
  | buyAClub buyer seller clubName autoStake =>
    rcases acquireClub_same_or_opens ht (buyAClub_spec h).2.1 with h | ⟨hnone, h⟩
    · exact .same h
    · exact .opens clubName buyer autoStake hnone h
  | assignAClub buyer seller clubName autoStake =>
    rcases acquireClub_same_or_opens ht (assignAClub_spec h).1 with h | ⟨hnone, h⟩
    · exact .same h
    · exact .opens clubName buyer autoStake hnone h
  | stakeOnAClub staker clubName amount autoStake =>
    have hreplaces := saveStakingDetails_replaces ht (stakeOnAClub_spec h).2.1
    exact .increases clubName [⟨staker, amount, autoStake⟩] rfl (.single hreplaces)
  | assignStakesToAClub stakeList clubName =>
    obtain ⟨total, hassigned, -⟩ := assignStakesToAClub_spec h
    refine .increases clubName _ ?_ (foldlM_assignStake ht hassigned)
    rw [List.map_map]
    rfl
  | releaseClub owner clubName => exact .same (releaseClub_same h)
  | claimOwnerRewards owner clubName => exact .same (claimOwnerRewards_same h)
  | claimPreviousOwnerRewards previousOwner => exact .same (claimPreviousOwnerRewards_same h)
  | stakeWithdrawFromAClub staker clubName amount immediateWithdrawal =>
    obtain ⟨hsome, decrease, bonding, saved, bonding', -, hsaved, rfl⟩ :=
      withdrawStakeFromAClub_spec h
    have ht' : Tidy { st with bonding := bonding }.staking := ht
    obtain ⟨owner, staking, howner, hle, hstaked, hstakes, rfl⟩ :=
      saveStakingDetails_decrease ht' hsaved
    -- the total of the club is what the record of its owner says
    have htotal : st.total clubName = owner.totalStakedAmount := total_of_get howner
    refine .decreases clubName staker decrease ?_ hsome hstaked ⟨hstakes, fun c => ?_⟩
    · exact hle.trans_eq htotal.symm
    · rw [htotal]
      exact total_insert_ownership _ c
  | calculateAndDistributeRewards stakerList clubName isFirstBatch isFinalBatch =>
    exact .distributes stakerList clubName isFirstBatch isFinalBatch rfl
      (calculateAndDistributeRewards_spec h)
  | claimStakerRewards staker clubName => exact .same (same_of_claim h)
  | increaseRewardAmount rewardFrom amount => exact .same (increaseRewardAmount_same (s := rewardFrom) h)

end Handlers

/-! ## Runs -/

/-- The state of a contract that has just been instantiated. -/
def Initial (api : Api) (st : Storage) : Prop :=
  ∃ env msg, instantiate api env msg = .ok st

section Runs

variable {api : Api} {c : Call} {st st' : Storage} {r : Response Cw20.ExecuteMsg}

theorem exec_eq_some :
    exec api st c = some (st', r) ↔ execute api c.q c.env c.info st c.msg = .ok (st', r) := by
  rw [exec, toOption_eq_some]

theorem exec_effect (ht : Tidy st.staking) (h : exec api st c = some (st', r)) :
    Effect c.env st st' c.msg :=
  execute_effect ht (exec_eq_some.mp h)

theorem exec_tidy (ht : Tidy st.staking) (h : exec api st c = some (st', r)) :
    Tidy st'.staking := by
  cases exec_effect ht h with
  | same h => exact h.tidy ht
  | opens clubName buyer autoStake hnone h => exact h.tidy ht
  | increases clubName is hmsg h => exact h.tidy ht
  | decreases clubName staker amount hle hsome hstaked h =>
    refine ht.replace h.stakes ?_
    rcases ht (clubName, staker) with hnil | ⟨r, hr, hof⟩
    · exact absurd hnil hsome
    · rw [hr]
      exact .inr ⟨r.decrease amount, rfl, hof.staker, hof.folded⟩
  | distributes stakerList clubName isFirstBatch isFinalBatch hmsg h => exact h.tidy ht

/-- Nothing is stored at first but the configuration and the time of the next reward. -/
theorem Initial.eq (h : Initial api st) :
    ∃ config next, st = { config, clubRewardNextTimestamp := some next } := by
  obtain ⟨env, msg, h⟩ := h
  unfold instantiate at h
  obtain ⟨adminAddress, -, h⟩ := bind_eq_ok.mp h
  obtain ⟨furyTokenAddress, -, h⟩ := bind_eq_ok.mp h
  obtain ⟨poolAddress, -, h⟩ := bind_eq_ok.mp h
  obtain ⟨clubFeeCollectorWallet, -, h⟩ := bind_eq_ok.mp h
  obtain ⟨platformFeesCollectorWallet, -, h⟩ := bind_eq_ok.mp h
  obtain rfl := pure_eq_ok.mp h
  exact ⟨_, _, rfl⟩

theorem Initial.spec (h : Initial api st) :
    st.staking = ∅ ∧ st.ownership = ∅ ∧ st.reward = none := by
  obtain ⟨config, next, rfl⟩ := h.eq
  exact ⟨rfl, rfl, rfl⟩

/-- **In every run** a staker has at most one record in a club. -/
theorem run_tidy (h : Initial api st) (cs : List Call) : Tidy (run (exec api) st cs).staking := by
  have hinit : Tidy st.staking := by
    rw [h.spec.1]
    exact tidy_empty
  exact run_preserves (I := fun st => Tidy st.staking) (fun _ _ _ _ ht h => exec_tidy ht h)
    hinit cs

end Runs

/-! ## A sample -/

namespace Sample

/-- A chain that accepts every address. -/
def api : Api := fun s => .ok s

/-- A pool that gives as much USDC as it is asked for FURY. -/
def querier : Querier := ⟨fun _ amount => .ok amount⟩

/-- The time of a second. -/
def second (t : ℕ) : Timestamp := t * Timestamp.nanosPerSecond

/-- The next reward is due in the hundredth second, then in every hundredth. -/
def instantiateMsg : InstantiateMsg where
  adminAddress := "admin"
  furyTokenAddress := "fury"
  poolAddress := "pool"
  clubFeeCollectorWallet := "clubFees"
  clubRewardNextTimestamp := second 100
  rewardPeriodicity := 100
  clubPrice := 1000
  bondingDuration := 7
  ownerReleaseLockingDuration := 21
  platformFeesCollectorWallet := "platformFees"
  platformFees := 100
  transactionFees := 30
  controlFees := 50
  maxBondingLimitPerUser := 10
  usdcIbcSymbol := "usdc"

/-- A message in a given second, with USDC for the fees. -/
def call (t : ℕ) (sender : Addr) (msg : ExecuteMsg) : Call :=
  ⟨querier, ⟨⟨t, second t⟩, "staking"⟩, ⟨sender, [⟨"usdc", 1000⟩]⟩, msg⟩

/-- The contract after it is instantiated. -/
def storage : Storage :=
  (instantiate api ⟨⟨0, 0⟩, "staking"⟩ instantiateMsg).toOption.get (by decide +kernel)

theorem initial : Initial api storage := by
  have h : (instantiate api ⟨⟨0, 0⟩, "staking"⟩ instantiateMsg).toOption = some storage :=
    (Option.some_get _).symm
  exact ⟨_, _, toOption_eq_some.mp h⟩

/-- A club is assigned to its owner, and the pot is filled. -/
def opened (reward : ℕ) : List Call :=
  [call 1 "admin" (.assignAClub "owner" none "club" false),
    call 1 "admin" (.increaseRewardAmount "admin" reward)]

def stake (t : ℕ) (staker : Addr) (amount : ℕ) (autoStake : Bool) : Call :=
  call t staker (.stakeOnAClub staker "club" amount autoStake)

def claim (t : ℕ) (staker : Addr) : Call := call t staker (.claimStakerRewards staker "club")

/-- A batch for the club that is not the final one. -/
def batch (t : ℕ) (stakers : List String) : Call :=
  call t "admin" (.calculateAndDistributeRewards stakers "club" true false)

end Sample

end Clubstaking
