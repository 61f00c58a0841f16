import LiquidityContracts.Staking.Ownership

/-!
# The stakes of a user, as they are listed

Two queries list the stakes of a user, club by club. `query_all_stakes` passes over the clubs in
which the user has no entry, `query_all_stakes_for_user` fails at the first of them. So the two
agree for the users who have an entry in every club, though it may be an empty one.

## Main definitions

* `queryAllStakes`, `queryAllStakesForUser`: the queries
* `Storage.stakesOf`: the stakes of a user over all clubs
* `ListingsAgree`: both queries list these
* `OnClubs`: there are stakes only in clubs that there are

## Main results

* `queryAllStakes_eq`, `queryAllStakesForUser_eq_ok`: what the queries list
* `run_onClubs`: in every run the clubs have all the stakes
* `listingsAgree_iff`: in every reachable state the queries agree for exactly the users with an entry
  in every club
* `not_listingsAgree`: a user without a stake
-/

namespace Clubstaking

open CosmWasm

/-! ## The queries -/

section Queries

variable (st : Storage)

/-- The round of `query_all_stakes` for a user in a club. -/
def listStakes (clubName : String) (allStakes : List ClubStakingDetails) (userAddress : String) :
    List ClubStakingDetails :=
  match st.staking[(clubName, userAddress)]? with
  | some stakingDetails => allStakes ++ stakingDetails
  | none => allStakes

/-- `query_all_stakes`. -/
def queryAllStakes (userAddressList : List String) :
    Exec ContractError (List ClubStakingDetails) :=
  return st.ownership.keys.foldl
    (fun allStakes clubName => userAddressList.foldl (listStakes st clubName) allStakes) []

/-- The round of `query_all_stakes_for_user` for a club, which has to have an entry of the user. -/
def listStakesForUser (userAddress : String) (allStakes : List ClubStakingDetails)
    (clubName : String) : Exec ContractError (List ClubStakingDetails) := do
  let stakingDetails ← load "Vec<ClubStakingDetails>" (st.staking[(clubName, userAddress)]?)
  return allStakes ++ stakingDetails.filter fun stake => stake.stakerAddress = userAddress

/-- `query_all_stakes_for_user`. -/
def queryAllStakesForUser (userAddress : String) :
    Exec ContractError (List ClubStakingDetails) :=
  st.ownership.keys.foldlM (listStakesForUser st userAddress) []

/-- The stakes of a user over all clubs. -/
def Storage.stakesOf (u : String) : List ClubStakingDetails :=
  st.ownership.keys.flatMap fun clubName => st.stakes clubName u

/-- Both queries list all the stakes of a user, club by club in ascending order. -/
structure ListingsAgree (u : String) : Prop where
  forUser : queryAllStakesForUser st u = .ok (st.stakesOf u)
  forList : queryAllStakes st [u] = .ok (st.stakesOf u)
  ascending : st.ownership.keys.Pairwise fun a b => compare a b = .lt
  complete : ∀ clubName, ∀ stake ∈ st.stakes clubName u, stake ∈ st.stakesOf u

end Queries

section Lists

variable {st : Storage} {u : String} {l : List ClubStakingDetails}

/-- **What the one query lists**: the stakes that there are. -/
theorem queryAllStakes_eq (st : Storage) (u : String) :
    queryAllStakes st [u] = .ok (st.stakesOf u) := by
  have hround : ∀ (allStakes : List ClubStakingDetails) (clubName : String),
      [u].foldl (listStakes st clubName) allStakes = allStakes ++ st.stakes clubName u := by
    intro allStakes clubName
    show listStakes st clubName allStakes u = _
    unfold listStakes Storage.stakes stakesAt
    split
    · rename_i stakes hstakes
      rw [hstakes]
      rfl
    · rename_i hnone
      rw [hnone]
      exact (List.append_nil _).symm
  have hloop : ∀ (clubs : List String) (allStakes : List ClubStakingDetails),
      clubs.foldl (fun allStakes clubName => [u].foldl (listStakes st clubName) allStakes) allStakes =
        allStakes ++ clubs.flatMap fun clubName => st.stakes clubName u := by
    intro clubs
    induction clubs with
    | nil => exact fun allStakes => (List.append_nil allStakes).symm
    | cons clubName clubs ih =>
      intro allStakes
      rw [List.foldl_cons, ih, hround, List.flatMap_cons, List.append_assoc]
  exact congrArg Except.ok (hloop _ _)

/-- All records under a key are the user's. -/
theorem Tidy.filter_eq (ht : Tidy st.staking) (clubName u : String) :
    (st.stakes clubName u).filter (fun stake => stake.stakerAddress = u) = st.stakes clubName u := by
  refine List.filter_eq_self.mpr fun stake hstake => decide_eq_true ?_
  rcases ht (clubName, u) with hnil | ⟨r, hr, hof⟩
  · rw [Storage.stakes, hnil] at hstake
    cases hstake
  · rw [Storage.stakes, hr] at hstake
    rw [List.mem_singleton.mp hstake]
    exact hof.staker

/-- A round of the other query needs an entry, of which it lists the stakes. -/
theorem listStakesForUser_eq_ok (ht : Tidy st.staking) {clubName : String}
    {before : List ClubStakingDetails} : listStakesForUser st u before clubName = .ok l ↔
      (st.staking[(clubName, u)]?).isSome ∧ l = before ++ st.stakes clubName u := by
  unfold listStakesForUser
  cases hget : st.staking[(clubName, u)]? with
  | none =>
    rw [bind_eq_ok]
    constructor
    · rintro ⟨stakes, hload, -⟩
      cases load_eq_ok.mp hload
    · rintro ⟨hsome, -⟩
      cases hsome
  | some stakes =>
    have hstakes : st.stakes clubName u = stakes := stakes_of_get hget
    have hall := ht.filter_eq clubName u
    rw [hstakes] at hall
    rw [bind_of_eq_ok (load_eq_ok.mpr rfl), hall, hstakes, pure_eq_ok, eq_comm]
    exact (and_iff_right rfl).symm

/-- **What the other query lists**: the same, if the user has an entry in every club. -/
theorem queryAllStakesForUser_eq_ok (ht : Tidy st.staking) :
    queryAllStakesForUser st u = .ok l ↔
      (∀ clubName ∈ st.ownership.keys, (st.staking[(clubName, u)]?).isSome) ∧
        l = st.stakesOf u := by
  have hloop : ∀ (clubs : List String) (before : List ClubStakingDetails),
      clubs.foldlM (listStakesForUser st u) before = .ok l ↔
        (∀ clubName ∈ clubs, (st.staking[(clubName, u)]?).isSome) ∧
          l = before ++ clubs.flatMap fun clubName => st.stakes clubName u := by
    intro clubs
    induction clubs with
    | nil =>
      intro before
      rw [List.foldlM_nil, List.flatMap_nil, List.append_nil, pure_eq_ok, eq_comm]
      exact (and_iff_right nofun).symm
    | cons clubName clubs ih =>
      intro before
      rw [List.foldlM_cons, bind_eq_ok, List.forall_mem_cons, List.flatMap_cons,
        ← List.append_assoc]
      constructor
      · rintro ⟨listed, hround, hrest⟩
        obtain ⟨hsome, rfl⟩ := (listStakesForUser_eq_ok ht).mp hround
        obtain ⟨hall, hl⟩ := (ih _).mp hrest
        exact ⟨⟨hsome, hall⟩, hl⟩
      · rintro ⟨⟨hsome, hall⟩, hl⟩
        exact ⟨_, (listStakesForUser_eq_ok ht).mpr ⟨hsome, rfl⟩, (ih _).mpr ⟨hall, hl⟩⟩
  exact hloop _ _

end Lists

/-! ## The clubs have all the stakes -/

/-- There are stakes only in clubs that there are. -/
def OnClubs (st : Storage) : Prop :=
  ∀ clubName, st.control clubName = none → ∀ staker, stakesAt st.staking (clubName, staker) = []

/-- A change gives up no club, and leaves the stakes as they are where there is none. -/
def StaysOnClubs (st st' : Storage) : Prop :=
  ∀ clubName, st'.control clubName = none → st.control clubName = none ∧
    ∀ staker, stakesAt st'.staking (clubName, staker) = stakesAt st.staking (clubName, staker)

section Clubs

variable {api : Api} {q : Querier} {env : Env} {info : MessageInfo} {st st' : Storage}
  {r : Response Cw20.ExecuteMsg} {c s : String} {a : ℕ} {autoStake increaseStake : Bool}

theorem OnClubs.stays (h : OnClubs st) (hstays : StaysOnClubs st st') : OnClubs st' := by
  intro clubName hnone staker
  obtain ⟨hbefore, hstakes⟩ := hstays clubName hnone
  rw [hstakes, h clubName hbefore]

theorem StaysOnClubs.refl (st : Storage) : StaysOnClubs st st :=
  fun _ hnone => ⟨hnone, fun _ => rfl⟩

theorem StaysOnClubs.trans {st₁ : Storage} (h : StaysOnClubs st st₁) (h' : StaysOnClubs st₁ st') :
    StaysOnClubs st st' := by
  intro clubName hnone
  obtain ⟨hnone₁, hstakes₁⟩ := h' clubName hnone
  obtain ⟨hnone₀, hstakes₀⟩ := h clubName hnone₁
  exact ⟨hnone₀, fun staker => (hstakes₁ staker).trans (hstakes₀ staker)⟩

/-- Where the clubs are the same, only the stakes of a club that there is may change. -/
theorem staysOnClubs_of_club (hcontrol : ∀ k, st'.control k = st.control k)
    (hclub : st.control c ≠ none)
    (hstakes : ∀ k : String × String, k.1 ≠ c → st'.staking[k]? = st.staking[k]?) :
    StaysOnClubs st st' := by
  intro clubName hnone
  rw [hcontrol] at hnone
  refine ⟨hnone, fun staker => ?_⟩
  have hne : clubName ≠ c := by
    rintro rfl
    exact hclub hnone
  rw [stakesAt, stakesAt, hstakes (clubName, staker) hne]

theorem saveStakingDetails_staysOnClubs
    (h : saveStakingDetails st env s c a autoStake increaseStake = .ok st') :
    StaysOnClubs st st' := by
  have hcontrol := saveStakingDetails_control h
  obtain ⟨staking, owner, total, howner, hstaking, rfl⟩ := saveStakingDetails_frame h
  refine staysOnClubs_of_club (c := c) hcontrol ?_ fun k hk => hstaking k ?_
  · rw [control_of_get howner]
    exact Option.some_ne_none _
  · rintro rfl
    exact hk rfl

/-- A club that changes hands is there, and the stakes of no other club change. -/
theorem Acquired.staysOnClubs (h : Acquired api env st st' s c) : StaysOnClubs st st' := by
  obtain ⟨buyerAddr, -, howner⟩ := h.owner
  intro clubName hnone
  have hne : clubName ≠ c := by
    rintro rfl
    rw [howner] at hnone
    cases hnone
  rw [h.control_other clubName hne] at hnone
  refine ⟨hnone, fun staker => ?_⟩
  rw [stakesAt, stakesAt, h.staking_other]
  rintro ⟨⟩
  exact hne rfl

/-- A batch changes the stakes of its club, which there is. -/
theorem Batch.staysOnClubs {stakerList : List String} {isFirstBatch isFinalBatch : Bool}
    (h : Batch env st st' stakerList c isFirstBatch isFinalBatch) : StaysOnClubs st st' := by
  have hcontrol := h.control
  cases h with
  | idle next hreward hst =>
    rw [hst]
    exact .refl st
  | runs next ranked winning owner terms staking given hreward hranking howner hterms hbatch hloop
      hst =>
    refine staysOnClubs_of_club (c := c) hcontrol ?_ fun k hk => ?_
    · rw [control_of_get howner]
      exact Option.some_ne_none _
    · rw [hst]
      refine foldlM_invariant (I := fun acc : _ × Given => acc.1[k]? = st.staking[k]?) ?_ rfl hloop
      rintro staker acc acc' hacc hround
      unfold creditStaker at hround
      obtain ⟨⟨updated, given'⟩, -, hround⟩ := bind_eq_ok.mp hround
      obtain rfl := pure_eq_ok.mp hround
      rw [← hacc]
      refine Store.get_insert_of_ne _ _ ?_
      rintro rfl
      exact hk rfl

theorem staysOnClubs_of_same (hsame : Same st st')
    (hcontrol : ∀ k, st'.control k = none → st.control k = none) : StaysOnClubs st st' :=
  fun clubName hnone => ⟨hcontrol clubName hnone, fun staker => hsame.stakes (clubName, staker)⟩

/-- **Every accepted message** keeps to the clubs that there are. -/
theorem execute_staysOnClubs {msg : ExecuteMsg} (h : execute api q env info st msg = .ok (st', r)) :
    StaysOnClubs st st' := by
  cases msg with
  | buyAClub buyer seller clubName autoStake =>
    exact (acquireClub_acquired (buyAClub_spec h).2.1).staysOnClubs
  | assignAClub buyer seller clubName autoStake =>
    exact (acquireClub_acquired (assignAClub_spec h).1).staysOnClubs
  | stakeOnAClub staker clubName amount autoStake =>
    exact saveStakingDetails_staysOnClubs (stakeOnAClub_spec h).2.1
  | assignStakesToAClub stakeList clubName =>
    obtain ⟨total, hassigned, -⟩ := assignStakesToAClub_spec h
    refine foldlM_assignStake_keeps (.refl st) ?_ hassigned
    intro saved saved' s a autoStake hkept hsaved
    exact hkept.trans (saveStakingDetails_staysOnClubs hsaved)
  -- the owner's messages save clubs that there are, with the stakes as they are
  | releaseClub owner clubName =>
    refine staysOnClubs_of_same (releaseClub_same h) fun k hnone => ?_
    obtain ⟨details, hdetails, -, -, hst⟩ := releaseClub_spec h
    rw [control_insert (congrArg Storage.ownership hst)] at hnone
    split at hnone
    · cases hnone
    · exact hnone
  | claimOwnerRewards owner clubName =>
    refine staysOnClubs_of_same (claimOwnerRewards_same h) fun k hnone => ?_
    rwa [claimOwnerRewards_control h] at hnone
  | claimPreviousOwnerRewards previousOwner =>
    obtain ⟨-, details, -, rfl, -⟩ := claimPreviousOwnerRewards_spec h
    exact .refl st
  | stakeWithdrawFromAClub staker clubName amount immediateWithdrawal =>
    obtain ⟨-, decrease, bonding, saved, bonding', -, hsaved, rfl⟩ := withdrawStakeFromAClub_spec h
    -- the bonds on both sides of the saved stake are no part of what stays
    have hstays : StaysOnClubs { st with bonding } saved := saveStakingDetails_staysOnClubs hsaved
    exact hstays
  | calculateAndDistributeRewards stakerList clubName isFirstBatch isFinalBatch =>
    exact (calculateAndDistributeRewards_spec h).staysOnClubs
  | claimStakerRewards staker clubName =>
    refine staysOnClubs_of_same (same_of_claim h) fun k hnone => ?_
    obtain ⟨-, -, amount, -, -, rfl, -⟩ := claimStakerRewards_spec h
    exact hnone
  | increaseRewardAmount rewardFrom amount =>
    obtain ⟨-, h⟩ := refuse_bind_eq_ok.mp h
    obtain ⟨reward, -, h⟩ := bind_eq_ok.mp h
    cases pure_eq_ok.mp h
    exact .refl st

/-- **In every run** the clubs have all the stakes. -/
theorem run_onClubs (hinit : Initial api st) (cs : List Call) : OnClubs (run (exec api) st cs) := by
  refine run_preserves (fun s c s' r hs hexec => ?_) ?_ cs
  · exact hs.stays (execute_staysOnClubs (exec_eq_some.mp hexec))
  · intro clubName _ staker
    rw [hinit.spec.1]
    exact stakesAt_empty

theorem OnClubs.mem_stakesOf (h : OnClubs st) {clubName u : String} {stake : ClubStakingDetails}
    (hstake : stake ∈ st.stakes clubName u) : stake ∈ st.stakesOf u := by
  refine List.mem_flatMap.mpr ⟨clubName, (Store.mem_keys_iff _ _).mpr ?_, hstake⟩
  by_contra hnone
  rw [Storage.stakes, h clubName] at hstake
  · cases hstake
  · rw [Storage.control, Option.eq_none_iff_forall_ne_some.mpr fun v hv => hnone ⟨v, hv⟩]
    rfl

end Clubs

/-- **The two listings agree**, in every reachable state, for exactly the users who have an entry in
every club. -/
theorem listingsAgree_iff (api : Api) (st : Storage) (cs : List Call) (hinit : Initial api st)
    (u : String) : ListingsAgree (run (exec api) st cs) u ↔
      ∀ clubName ∈ (run (exec api) st cs).ownership.keys,
        ((run (exec api) st cs).staking[(clubName, u)]?).isSome := by
  have ht := run_tidy hinit cs
  constructor
  · intro h
    exact ((queryAllStakesForUser_eq_ok ht).mp h.forUser).1
  · intro hentries
    exact ⟨(queryAllStakesForUser_eq_ok ht).mpr ⟨hentries, rfl⟩, queryAllStakes_eq _ u,
      Std.ExtTreeMap.ordered_keys, fun _ _ => (run_onClubs hinit cs).mem_stakesOf⟩

namespace Sample

/-- Alice stakes on a club, which is the only one. -/
def onOneClub : List Call := opened 1000 ++ [stake 2 "alice" 500 false]

/-- Then there is another club. -/
def onOneOfTwo : List Call := onOneClub ++ [call 3 "admin" (.assignAClub "rival" none "team" false)]

end Sample

open Sample in
/-- The stake of alice is listed by both. -/
theorem listingsAgree_onOneClub : ListingsAgree (run (exec api) storage onOneClub) "alice" :=
  (listingsAgree_iff api storage onOneClub initial "alice").mpr (by decide +kernel)

open Sample in
/-- **A user without a stake in the other club** has none listed by one of the queries. -/
theorem not_listingsAgree : ¬ ∀ (api : Api) (st : Storage) (cs : List Call), Initial api st →
    ∀ u, ListingsAgree (run (exec api) st cs) u := by
  intro h
  have hlisted := (h api storage onOneOfTwo initial "alice").forUser
  exact absurd hlisted (by decide +kernel)

end Clubstaking
