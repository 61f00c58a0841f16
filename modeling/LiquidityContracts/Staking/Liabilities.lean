import LiquidityContracts.Staking.Maturity

/-!
# What the contract owes

The contract owes the stakes, the bonds and the rewards that are left to be claimed. A message that
takes FURY in raises what is owed by no more, one that pays FURY out lowers it by as much, and a
batch raises it by what it credits. The claim of a reward is the exception: it pays, and the reward
stays owed. The rewards of the owners are never more than nothing, so that none is ever paid.

## Main definitions

* `Storage.liabilities`: what is owed
* `NoOwnerRewards`: no owner has a reward, and no previous owner
* `Settles`: what a call owes more is taken in, or credited

## Main results

* `execute_noOwnerRewards`: no message gives a reward to an owner
* `exec_settles`: every accepted message but the claim of a reward settles
-/

namespace Clubstaking

open CosmWasm

/-- What some records are worth: the stake and the reward that is left to be claimed. -/
def owedOf (stakes : List ClubStakingDetails) : ℕ := stakedOf stakes + pendingOf stakes

/-- What is owed for stakes and rewards. -/
def owedIn (staking : Store (String × String) (List ClubStakingDetails)) : ℕ :=
  Store.total (fun _ stakes => owedOf stakes) staking

/-- What is held in bonds. -/
def bondedIn (bonding : Store (String × String) (List ClubBondingDetails)) : ℕ :=
  Store.total (fun _ bonds => bondedOf (fun _ => true) bonds) bonding

/-- All stakes, bonds and rewards that are left to be claimed. -/
def Storage.liabilities (st : Storage) : ℕ := owedIn st.staking + bondedIn st.bonding

/-- No owner has a reward, and nobody who sold a club has one. -/
structure NoOwnerRewards (st : Storage) : Prop where
  owners : ∀ (c : String) (owner : ClubOwnershipDetails), st.ownership[c]? = some owner →
    owner.rewardAmount = 0
  previous : st.previousOwners = ∅

/-- The messages that the contract emits in a call by `sender`. -/
inductive OwnMessage (fury sender : Addr) : CosmosMsg Cw20.ExecuteMsg → Prop
  | fees (recipient : Addr) (coins : List Coin) : OwnMessage fury sender (.bankSend recipient coins)
  | transfer (recipient : Addr) (n : ℕ) :
    OwnMessage fury sender (.wasmExecute fury (.transfer recipient n) [])
  | pull (recipient : Addr) (n : ℕ) :
    OwnMessage fury sender (.wasmExecute fury (.transferFrom sender recipient n) [])

/-- The FURY that messages transfer. -/
def furyOut (msgs : List (CosmosMsg Cw20.ExecuteMsg)) : ℕ :=
  (msgs.map fun
    | .wasmExecute _ (.transfer _ amount) _ => amount
    | _ => 0).sum

/-- The FURY that messages transfer from others to the contract. -/
def furyIn (contract : Addr) (msgs : List (CosmosMsg Cw20.ExecuteMsg)) : ℕ :=
  (msgs.map fun
    | .wasmExecute _ (.transferFrom _ recipient amount) _ =>
      if recipient = contract then amount else 0
    | _ => 0).sum

/-- The messages of a call are the contract's own, and what it owes more is taken in, or credited
to stakes. -/
structure Settles (env : Env) (info : MessageInfo) (credited : ℕ) (st st' : Storage)
    (r : Response Cw20.ExecuteMsg) : Prop where
  messages : ∀ m ∈ r.messages, OwnMessage st.config.furyTokenAddress info.sender m
  balance : st'.liabilities + furyOut r.messages ≤
    st.liabilities + furyIn env.contractAddress r.messages + credited

/-! ## The rewards of the owners -/

section Owners

variable {api : Api} {q : Querier} {env : Env} {info : MessageInfo} {st st' : Storage}
  {r : Response Cw20.ExecuteMsg} {c s : String} {a price : ℕ} {autoStake increaseStake : Bool}
  {seller : Option String}

/-- A club saved without a reward. -/
theorem NoOwnerRewards.save {owner : ClubOwnershipDetails} (h : NoOwnerRewards st)
    (hownership : st'.ownership = st.ownership.insert c owner)
    (hprevious : st'.previousOwners = st.previousOwners) (howner : owner.rewardAmount = 0) :
    NoOwnerRewards st' := by
  refine ⟨fun d owner' hd => ?_, hprevious.trans h.previous⟩
  rw [hownership, Store.get_insert] at hd
  split at hd
  · cases hd
    exact howner
  · exact h.owners d owner' hd

theorem NoOwnerRewards.same (h : NoOwnerRewards st) (hownership : st'.ownership = st.ownership)
    (hprevious : st'.previousOwners = st.previousOwners) : NoOwnerRewards st' := by
  refine ⟨fun d owner hd => ?_, hprevious.trans h.previous⟩
  rw [hownership] at hd
  exact h.owners d owner hd

theorem saveStakingDetails_noOwnerRewards (ho : NoOwnerRewards st)
    (h : saveStakingDetails st env s c a autoStake increaseStake = .ok st') :
    NoOwnerRewards st' := by
  obtain ⟨staking, owner, total, howner, -, rfl⟩ := saveStakingDetails_frame h
  exact ho.save rfl rfl (ho.owners c owner howner)

theorem saveOwner_noOwnerRewards {owner : ClubOwnershipDetails} (ho : NoOwnerRewards st)
    (howner : owner.rewardAmount = 0) (h : saveOwner env st owner s c autoStake = .ok st') :
    NoOwnerRewards st' := by
  have hsaved : NoOwnerRewards { st with ownership := st.ownership.insert c owner } :=
    ho.save rfl rfl howner
  unfold saveOwner at h
  dsimp only at h
  split at h
  · obtain rfl := pure_eq_ok.mp h
    exact hsaved
  · exact saveStakingDetails_noOwnerRewards hsaved h

/-- A club is bought without a reward, and the seller has none to keep. -/
theorem acquireClub_noOwnerRewards (ho : NoOwnerRewards st)
    (h : acquireClub api env st s seller c price autoStake = .ok st') : NoOwnerRewards st' := by
  obtain ⟨-, buyerAddr, acquired, total, -, hfrom, h⟩ := acquireClub_spec h
  rcases hfrom with ⟨-, rfl, -⟩ | ⟨owner, howner, -, hkept, -⟩
  · exact saveOwner_noOwnerRewards ho rfl h
  · rw [keepOwnerReward, if_pos (ho.owners c owner howner)] at hkept
    obtain rfl := pure_eq_ok.mp hkept
    exact saveOwner_noOwnerRewards ho rfl h

theorem foldlM_assignStake_noOwnerRewards {stakeList : List ClubStakingDetails} {total total' : ℕ}
    (ho : NoOwnerRewards st)
    (h : stakeList.foldlM (assignStake env c) (st, total) = .ok (st', total')) :
    NoOwnerRewards st' := by
  refine foldlM_assignStake_keeps ho ?_ h
  intro saved saved' s a autoStake ho hsaved
  exact saveStakingDetails_noOwnerRewards ho hsaved

theorem releaseClub_noOwnerRewards (ho : NoOwnerRewards st)
    (h : releaseClub api env info st s c = .ok (st', r)) : NoOwnerRewards st' := by
  obtain ⟨owner, howner, -, -, rfl⟩ := releaseClub_spec h
  exact ho.save rfl rfl (ho.owners c owner howner)

/-- An owner has no reward to claim. -/
theorem claimOwnerRewards_ne_ok (ho : NoOwnerRewards st) :
    claimOwnerRewards api info st s c ≠ .ok (st', r) := by
  intro h
  obtain ⟨-, owner, howner, hreward, -⟩ := claimOwnerRewards_spec h
  exact hreward (ho.owners c owner howner)

/-- Nobody has a reward of a club that was sold. -/
theorem claimPreviousOwnerRewards_ne_ok (ho : NoOwnerRewards st) :
    claimPreviousOwnerRewards api info st s ≠ .ok (st', r) := by
  intro h
  obtain ⟨-, details, hdetails, -⟩ := claimPreviousOwnerRewards_spec h
  rw [ho.previous, Store.get_empty] at hdetails
  cases hdetails

theorem withdrawStakeFromAClub_noOwnerRewards {immediate : Bool} (ho : NoOwnerRewards st)
    (h : withdrawStakeFromAClub api q env info st s c a immediate = .ok (st', r)) :
    NoOwnerRewards st' := by
  obtain ⟨-, decrease, bonding, saved, bonding', -, hsaved, rfl⟩ := withdrawStakeFromAClub_spec h
  have ho' : NoOwnerRewards { st with bonding := bonding } := ho.same rfl rfl
  exact (saveStakingDetails_noOwnerRewards ho' hsaved).same rfl rfl

/-- **No message gives a reward to an owner.** -/
theorem execute_noOwnerRewards {msg : ExecuteMsg} (ho : NoOwnerRewards st)
    (h : execute api q env info st msg = .ok (st', r)) : NoOwnerRewards st' := by
  cases msg with
  | buyAClub buyer seller clubName autoStake =>
    exact acquireClub_noOwnerRewards ho (buyAClub_spec h).2.1
  | assignAClub buyer seller clubName autoStake =>
    exact acquireClub_noOwnerRewards ho (assignAClub_spec h).1
  | stakeOnAClub staker clubName amount autoStake =>
    exact saveStakingDetails_noOwnerRewards ho (stakeOnAClub_spec h).2.1
  | assignStakesToAClub stakeList clubName =>
    obtain ⟨total, hassigned, -⟩ := assignStakesToAClub_spec h
    exact foldlM_assignStake_noOwnerRewards ho hassigned
  | releaseClub owner clubName => exact releaseClub_noOwnerRewards ho h
  | claimOwnerRewards owner clubName => exact absurd h (claimOwnerRewards_ne_ok ho)
  | claimPreviousOwnerRewards previousOwner => exact absurd h (claimPreviousOwnerRewards_ne_ok ho)
  | claimStakerRewards staker clubName =>
    obtain ⟨-, -, amount, -, -, rfl, -⟩ := claimStakerRewards_spec h
    exact ho.same rfl rfl
  | stakeWithdrawFromAClub staker clubName amount immediateWithdrawal =>
    exact withdrawStakeFromAClub_noOwnerRewards ho h
  | calculateAndDistributeRewards stakerList clubName isFirstBatch isFinalBatch =>
    cases calculateAndDistributeRewards_spec h with
    | idle next hreward hst =>
      rw [hst]
      exact ho.same rfl rfl
    | runs next ranked winning owner terms staking given hreward hranking howner hterms hbatch
        hloop hst =>
      rw [hst]
      exact ho.save rfl rfl (ho.owners clubName owner howner)
  | increaseRewardAmount rewardFrom amount =>
    obtain ⟨-, h⟩ := refuse_bind_eq_ok.mp h
    obtain ⟨reward, hreward, h⟩ := bind_eq_ok.mp h
    cases pure_eq_ok.mp h
    exact ho.same rfl rfl

end Owners

/-! ## What is owed -/

section Owed

variable {env : Env} {c s : String} {i : Increase} {is : List Increase} {st st' : Storage}
  {staking staking' : Store (String × String) (List ClubStakingDetails)} {k : String × String}
  {l : List ClubStakingDetails}

@[simp] theorem owedOf_nil : owedOf [] = 0 := rfl

@[simp] theorem owedOf_singleton (r : ClubStakingDetails) :
    owedOf [r] = r.stakedAmount + r.rewardAmount := by
  rw [owedOf, stakedOf_singleton, pendingOf_singleton]

theorem owedIn_replaces
    (h : ∀ a, stakesAt staking' a = if k = a then l else stakesAt staking a) :
    owedIn staking' + owedOf (stakesAt staking k) = owedIn staking + owedOf l :=
  total_replaces (w := fun _ stakes => owedOf stakes) (fun _ => rfl) h

theorem owedIn_insert (staking : Store (String × String) (List ClubStakingDetails))
    (k : String × String) (l : List ClubStakingDetails) :
    owedIn (staking.insert k l) + owedOf (stakesAt staking k) = owedIn staking + owedOf l :=
  owedIn_replaces stakesAt_insert

theorem owedIn_congr (h : ∀ a, stakesAt staking' a = stakesAt staking a) :
    owedIn staking' = owedIn staking := by
  refine Store.total_congr fun a => ?_
  rw [Store.weigh_getD fun _ => rfl, Store.weigh_getD fun _ => rfl]
  exact congrArg owedOf (h a)

/-- What is pending is owed before and after it is staked. -/
theorem owedOf_increased (ht : Tidy st.staking) :
    owedOf (increased env c i (stakesAt st.staking (c, i.staker))) =
      owedOf (stakesAt st.staking (c, i.staker)) + i.amount := by
  rcases ht (c, i.staker) with hnil | ⟨r, hr, -⟩
  · rw [hnil]
    simp [newStake, clubStakingRewardAmount]
  · rw [hr, increased_singleton, owedOf_singleton, owedOf_singleton, ClubStakingDetails.increase]
    split
    · dsimp only
      omega
    · dsimp only
      omega

/-- Increases owe their amounts more. -/
theorem Increases.owedIn_eq (h : Increases env c is st st') (ht : Tidy st.staking) :
    owedIn st'.staking = owedIn st.staking + (is.map (·.amount)).sum := by
  induction h with
  | nil h => exact owedIn_congr h.stakes
  | @cons i is st st₁ st' h hrest ih =>
    have hrest := ih (ht.replace h.stakes (.inr (increased_isOf ht)))
    have hfirst := owedIn_replaces h.stakes
    rw [owedOf_increased ht] at hfirst
    rw [hrest, List.map_cons, List.sum_cons]
    omega

/-- A withdrawal owes its amount less. -/
theorem owedIn_decrease {a : ℕ} (ht : Tidy staking) (hsome : stakesAt staking k ≠ [])
    (hle : ∀ r ∈ stakesAt staking k, a ≤ r.stakedAmount)
    (h : ∀ d, stakesAt staking' d = if k = d then (stakesAt staking k).map (·.decrease a)
      else stakesAt staking d) : owedIn staking' + a = owedIn staking := by
  have hsum := owedIn_replaces h
  rcases ht k with hnil | ⟨r, hr, -⟩
  · exact absurd hnil hsome
  · have hamount := hle r (by rw [hr]; exact List.mem_singleton.mpr rfl)
    rw [hr, List.map_singleton, owedOf_singleton, owedOf_singleton,
      ClubStakingDetails.decrease] at hsum
    dsimp only at hsum
    omega

/-- A round of a batch owes no more than what it credits. -/
theorem Round.owedIn_le {terms : RewardTerms} {period : RewardPeriod}
    {acc acc' : Store (String × String) (List ClubStakingDetails) × Given}
    (h : Round terms period c acc acc' s) :
    owedIn acc'.1 + acc.2.rewardGivenSoFar ≤ owedIn acc.1 + acc'.2.rewardGivenSoFar := by
  rcases h.empties_or_credits with hacc | ⟨r, reward, hstakes, -, -, -, hacc⟩
  · have hsum := owedIn_insert acc.1 (c, s) []
    rw [owedOf_nil] at hsum
    rw [hacc]
    dsimp only
    omega
  -- the record is worth more by the reward, whether it is folded in or pending
  · have hsum := owedIn_insert acc.1 (c, s) [r.credit period.newStart reward]
    rw [hstakes, owedOf_singleton, owedOf_singleton, credit_value] at hsum
    rw [hacc]
    dsimp only
    omega

/-- **A batch owes no more** than what it credits. -/
theorem Batch.owedIn_le {stakerList : List String} {isFirstBatch isFinalBatch : Bool}
    (h : Batch env st st' stakerList c isFirstBatch isFinalBatch) (ht : Tidy st.staking) :
    owedIn st'.staking + st.rewardGivenInCurrentTimestamp.getD 0 ≤
      owedIn st.staking + st'.rewardGivenInCurrentTimestamp.getD 0 := by
  cases h with
  | idle next hreward hst => rw [hst]
  | runs next ranked winning owner terms staking given hreward hranking howner hterms hbatch hloop
      hst =>
    have hrule := foldlM_invariant (I := fun acc₁ => Tidy acc₁.1 ∧
      owedIn acc₁.1 ≤ owedIn st.staking + acc₁.2.rewardGivenSoFar) ?_ ⟨ht, le_rfl⟩ hloop
    · rw [hst, Option.getD_some]
      have hle := hrule.2
      dsimp only at hle ⊢
      omega
    · rintro staker acc acc' ⟨ht, hle⟩ hround
      have hr := creditStaker_round ht hround
      have hstep := hr.owedIn_le
      exact ⟨hr.tidy ht, by omega⟩

theorem bondedIn_insert (st : Storage) (k : String × String) (bonds : List ClubBondingDetails) :
    bondedIn (st.bonding.insert k bonds) + bondedOf (fun _ => true) (st.bonds k.1 k.2) =
      bondedIn st.bonding + bondedOf (fun _ => true) bonds :=
  Store.total_insert_getD (fun _ => rfl) st.bonding k bonds

end Owed

/-! ## Settlements -/

section Settlements

variable {api : Api} {q : Querier} {env : Env} {info : MessageInfo} {st st' : Storage}
  {r : Response Cw20.ExecuteMsg} {c s : String} {a : ℕ} {autoStake : Bool}
  {seller : Option String}

/-- A call that neither takes nor pays, and owes no more. -/
theorem Settles.of_quiet {credited : ℕ} (hmessages : r.messages = [])
    (h : st'.liabilities ≤ st.liabilities + credited) : Settles env info credited st st' r := by
  refine ⟨fun m hm => ?_, ?_⟩
  · rw [hmessages] at hm
    cases hm
  · rw [hmessages]
    exact h

/-- The stakes and the bonds that a message leaves as they are. -/
theorem liabilities_of_same (h : Same st st') (hbonds : st'.bonding = st.bonding) :
    st'.liabilities = st.liabilities := by
  rw [Storage.liabilities, Storage.liabilities, owedIn_congr h.stakes, hbonds]

theorem Increases.liabilities_eq {is : List Increase} (h : Increases env c is st st')
    (ht : Tidy st.staking) (hbonds : st'.bonding = st.bonding) :
    st'.liabilities = st.liabilities + (is.map (·.amount)).sum := by
  rw [Storage.liabilities, Storage.liabilities, h.owedIn_eq ht, hbonds]
  omega

theorem acquireClub_liabilities {price : ℕ} (ht : Tidy st.staking)
    (h : acquireClub api env st s seller c price autoStake = .ok st') :
    st'.liabilities = st.liabilities := by
  have hbonds := (acquireClub_items h).2
  rcases acquireClub_same_or_opens ht h with hsame | ⟨-, hopens⟩
  · exact liabilities_of_same hsame hbonds
  · exact hopens.liabilities_eq ht hbonds

theorem buyAClub_settles {price : ℕ} (ht : Tidy st.staking)
    (h : buyAClub api q env info st s seller c price autoStake = .ok (st', r)) :
    Settles env info 0 st st' r := by
  obtain ⟨-, hacquired, hresponse⟩ := buyAClub_spec h
  have hmessages := congrArg Response.messages hresponse
  have hconfig := (acquireClub_items hacquired).1.config
  refine ⟨fun m hm => ?_, ?_⟩
  · rw [hmessages, List.mem_cons, List.mem_singleton] at hm
    rcases hm with rfl | rfl
    · rw [← hconfig]
      exact .pull _ _
    · exact .fees _ _
  · rw [acquireClub_liabilities ht hacquired, hmessages]
    exact Nat.le_add_right _ _

theorem assignAClub_settles (ht : Tidy st.staking)
    (h : assignAClub api env info st s seller c autoStake = .ok (st', r)) :
    Settles env info 0 st st' r := by
  obtain ⟨hacquired, hmessages⟩ := assignAClub_spec h
  exact .of_quiet hmessages (acquireClub_liabilities ht hacquired).le

theorem releaseClub_settles (h : releaseClub api env info st s c = .ok (st', r)) :
    Settles env info 0 st st' r := by
  have hliabilities := liabilities_of_same (releaseClub_same h) (releaseClub_items h).2
  obtain ⟨owner, -, -, hresponse, -⟩ := releaseClub_spec h
  exact .of_quiet (congrArg Response.messages hresponse) hliabilities.le

/-- A stake is taken in. -/
theorem stakeOnAClub_settles (ht : Tidy st.staking)
    (h : stakeOnAClub api q env info st s c a autoStake = .ok (st', r)) :
    Settles env info 0 st st' r := by
  obtain ⟨-, hsaved, hresponse⟩ := stakeOnAClub_spec h
  have hmessages := congrArg Response.messages hresponse
  obtain ⟨hitems, hbonds⟩ := saveStakingDetails_items hsaved
  have hincreases : Increases env c [⟨s, a, autoStake⟩] st st' :=
    .single (saveStakingDetails_replaces ht hsaved)
  refine ⟨fun m hm => ?_, ?_⟩
  · rw [hmessages, List.mem_cons, List.mem_singleton] at hm
    rcases hm with rfl | rfl
    · rw [← hitems.config]
      exact .pull _ _
    · exact .fees _ _
  · rw [hincreases.liabilities_eq ht hbonds, hmessages]
    simp [furyOut, furyIn, transferFromMsg, feesMsg]

/-- The stakes that are assigned sum up to what is taken in. -/
theorem foldlM_assignStake_total {stakeList : List ClubStakingDetails} {total total' : ℕ}
    (h : stakeList.foldlM (assignStake env c) (st, total) = .ok (st', total')) :
    total' = total + (stakeList.map (·.stakedAmount)).sum := by
  induction stakeList generalizing st total with
  | nil =>
    cases h
    rfl
  | cons stake stakeList ih =>
    rw [List.foldlM_cons] at h
    obtain ⟨⟨st₁, total₁⟩, hround, h⟩ := bind_eq_ok.mp h
    obtain ⟨-, rfl⟩ := assignStake_spec hround
    rw [ih h, List.map_cons, List.sum_cons, Nat.add_assoc]

/-- Stakes that are assigned are taken in together. -/
theorem assignStakesToAClub_settles {stakeList : List ClubStakingDetails} (ht : Tidy st.staking)
    (h : assignStakesToAClub env info st stakeList c = .ok (st', r)) :
    Settles env info 0 st st' r := by
  obtain ⟨total, hassigned, hmessages⟩ := assignStakesToAClub_spec h
  obtain ⟨hitems, hbonds⟩ := foldlM_assignStake_items hassigned
  have hliabilities := (foldlM_assignStake ht hassigned).liabilities_eq ht hbonds
  have htotal := foldlM_assignStake_total hassigned
  refine ⟨fun m hm => ?_, ?_⟩
  · rw [hmessages, List.mem_singleton] at hm
    rw [hm, ← hitems.config]
    exact .pull _ _
  · rw [hliabilities, hmessages, List.map_map, htotal, Nat.zero_add]
    simp [furyOut, furyIn, transferFromMsg, Function.comp_def]

/-- A withdrawal moves a stake into a bond, or pays a bond. -/
theorem withdrawStakeFromAClub_settles {immediate : Bool} (ht : Tidy st.staking)
    (h : withdrawStakeFromAClub api q env info st s c a immediate = .ok (st', r)) :
    Settles env info 0 st st' r := by
  obtain ⟨hsome, decrease, bonding, saved, bonding', hdecrease, hsaved, rfl⟩ :=
    withdrawStakeFromAClub_spec h
  have ht' : Tidy { st with bonding := bonding }.staking := ht
  obtain ⟨owner, staking, -, -, hstaked, hstakes, rfl⟩ := saveStakingDetails_decrease ht' hsaved
  have howed := owedIn_decrease ht hsome hstaked hstakes
  cases withdrawStakeFromAClub_bonds h with
  | pays kept hst hfiled hle hpaid hr =>
    -- what is taken from the bonds is paid
    have hbonds := bondedIn_insert st (c, s) kept
    have hpaid := hpaid (fun _ => true) fun _ _ _ => rfl
    refine ⟨fun m hm => ?_, ?_⟩
    · rw [hr, List.mem_cons, List.mem_singleton] at hm
      rcases hm with rfl | rfl
      · exact .transfer _ _
      · exact .fees _ _
    · rw [Storage.liabilities, hst, hr, Storage.liabilities]
      simp only [furyOut, furyIn, transferMsg, feesMsg, List.map_cons, List.map_nil, List.sum_cons,
        List.sum_nil]
      dsimp only at hbonds howed ⊢
      omega
  | bonds hst hr =>
    -- what is taken from the stakes becomes a bond
    have hbonds := bondedIn_insert st (c, s)
      (st.bonds c s ++ [⟨c, s, env.block.time, a, st.config.bondingDuration⟩])
    rw [bondedOf_append, bondedOf_singleton, if_pos rfl] at hbonds
    refine ⟨fun m hm => ?_, ?_⟩
    · rw [hr, List.mem_singleton] at hm
      rw [hm]
      exact .fees _ _
    · rw [Storage.liabilities, hst, hr, Storage.liabilities]
      simp only [furyOut, furyIn, feesMsg, List.map_cons, List.map_nil, List.sum_cons,
        List.sum_nil]
      dsimp only at hbonds howed ⊢
      rw [if_neg Bool.false_ne_true] at hdecrease
      omega

theorem increaseRewardAmount_settles (h : increaseRewardAmount info st s a = .ok (st', r)) :
    Settles env info 0 st st' r := by
  unfold increaseRewardAmount at h
  obtain ⟨-, h⟩ := refuse_bind_eq_ok.mp h
  obtain ⟨reward, -, h⟩ := bind_eq_ok.mp h
  cases pure_eq_ok.mp h
  exact .of_quiet rfl le_rfl

/-- A batch emits no message. -/
theorem calculateAndDistributeRewards_messages {stakerList : List String}
    {isFirstBatch isFinalBatch : Bool}
    (h : calculateAndDistributeRewards env info st stakerList c isFirstBatch isFinalBatch =
      .ok (st', r)) : r.messages = [] := by
  unfold calculateAndDistributeRewards at h
  obtain ⟨-, h⟩ := refuseGeneric_bind_eq_ok.mp h
  obtain ⟨-, h⟩ := refuseGeneric_bind_eq_ok.mp h
  dsimp only at h
  split at h
  · cases pure_eq_ok.mp h
    rfl
  · obtain ⟨distributed, -, h⟩ := bind_eq_ok.mp h
    cases pure_eq_ok.mp h
    rfl

theorem Settles.mono {credited credited' : ℕ} (h : Settles env info credited st st' r)
    (hle : credited ≤ credited') : Settles env info credited' st st' r :=
  ⟨h.messages, h.balance.trans (Nat.add_le_add_left hle _)⟩

/-- **Every accepted message but the claim of a reward** settles. -/
theorem exec_settles {call : Call} (ht : Tidy st.staking) (ho : NoOwnerRewards st)
    (h : exec api st call = some (st', r))
    (hclaim : ∀ staker clubName, call.msg ≠ .claimStakerRewards staker clubName) :
    Settles call.env call.info (rewardCredited api st call) st st' r := by
  have hexec := exec_eq_some.mp h
  generalize hmsg : call.msg = msg at hexec hclaim
  cases msg with
  | buyAClub buyer seller clubName autoStake =>
    exact (buyAClub_settles ht hexec).mono (Nat.zero_le _)
  | assignAClub buyer seller clubName autoStake =>
    exact (assignAClub_settles ht hexec).mono (Nat.zero_le _)
  | stakeOnAClub staker clubName amount autoStake =>
    exact (stakeOnAClub_settles ht hexec).mono (Nat.zero_le _)
  | assignStakesToAClub stakeList clubName =>
    exact (assignStakesToAClub_settles ht hexec).mono (Nat.zero_le _)
  | releaseClub owner clubName => exact (releaseClub_settles hexec).mono (Nat.zero_le _)
  | claimOwnerRewards owner clubName => exact absurd hexec (claimOwnerRewards_ne_ok ho)
  | claimPreviousOwnerRewards previousOwner =>
    exact absurd hexec (claimPreviousOwnerRewards_ne_ok ho)
  | claimStakerRewards staker clubName => exact absurd rfl (hclaim staker clubName)
  | stakeWithdrawFromAClub staker clubName amount immediateWithdrawal =>
    exact (withdrawStakeFromAClub_settles ht hexec).mono (Nat.zero_le _)
  | calculateAndDistributeRewards stakerList clubName isFirstBatch isFinalBatch =>
    refine .of_quiet (calculateAndDistributeRewards_messages hexec) ?_
    -- a batch owes more by what it credits, and moves no FURY
    have hbatch := exec_batch h hmsg
    have howed := hbatch.owedIn_le ht
    have hgiven := rewardGiven_eq ht h hmsg
    rw [Storage.liabilities, Storage.liabilities, hbatch.frame.2]
    omega
  | increaseRewardAmount rewardFrom amount =>
    exact (increaseRewardAmount_settles (s := rewardFrom) hexec).mono (Nat.zero_le _)

end Settlements

end Clubstaking
