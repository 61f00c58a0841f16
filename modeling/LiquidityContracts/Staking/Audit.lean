import LiquidityContracts.CosmWasm.Paging
import LiquidityContracts.Staking.Liabilities
import LiquidityContracts.Staking.Listings
import LiquidityContracts.Staking.WellFormed

/-!
# An audit by queries

What the contract owes can be found out from outside: the stakes and the bonds of users are listed
over the clubs that there are, and the clubs with their owners. An auditor who knows everyone with a
stake or a bond adds up from the listings just what the contract owes, and finds in them what the
other queries tell of a club, a staker or an owner. Nothing is owed to the owners: none of them is
ever given a reward, so that their claims are refused.

## Main definitions

* `queryAllBonds`, `queryAllClubOwnershipDetails`, `queryClubStakingDetails`: the queries
* `Named`, `BondsOnClubs`: the clubs carry their names, and have all the bonds
* `Audits`: what the listings have to do with the other queries, and with what is owed
* `OwnersUnpaid`: the owners have no reward, and can claim none

## Main results

* `execute_named`, `exec_bondsOnClubs`: every accepted message keeps the names and the bonds
* `run_audits`: in every run the listings have what is owed
* `run_ownersUnpaid`: in every run the claims of owners are refused
-/

namespace Clubstaking

open CosmWasm

/-! ## The queries -/

section Queries

variable (st : Storage)

/-- `query_club_staking_details`. -/
def queryClubStakingDetails (clubName : String) (userList : List String) :
    Exec ContractError (List ClubStakingDetails) :=
  return userList.foldl (listStakes st clubName) []

/-- The round of `query_all_bonds` for a user in a club. -/
def listBonds (clubName : String) (allBonds : List ClubBondingDetails) (userAddress : String) :
    List ClubBondingDetails :=
  match st.bonding[(clubName, userAddress)]? with
  | some bondingDetails => allBonds ++ bondingDetails
  | none => allBonds

/-- `query_all_bonds`. -/
def queryAllBonds (userAddressList : List String) : Exec ContractError (List ClubBondingDetails) :=
  return st.ownership.keys.foldl
    (fun allBonds clubName => userAddressList.foldl (listBonds st clubName) allBonds) []

/-- `query_club_previous_owner_details`. -/
def queryClubPreviousOwnerDetails (previousOwner : String) :
    Exec ContractError ClubPreviousOwnerDetails :=
  match st.previousOwners[previousOwner]? with
  | some details => return details
  | none => failGeneric "No previous ownership details found"

/-- `query_club_bonding_details_for_user`. -/
def queryClubBondingDetailsForUser (clubName userAddress : String) :
    Exec ContractError (List ClubBondingDetails) :=
  match st.bonding[(clubName, userAddress)]? with
  | some bonds => return bonds.filter fun bond => bond.bonderAddress = userAddress
  | none => failGeneric "No bonding details found"

/-- `query_all_club_ownership_details`. -/
def queryAllClubOwnershipDetails : Exec ContractError (List ClubOwnershipDetails) :=
  st.ownership.keys.mapM fun clubName => load "ClubOwnershipDetails" st.ownership[clubName]?

/-- `query_all_previous_club_ownership_details`. -/
def queryAllPreviousClubOwnershipDetails : Exec ContractError (List ClubPreviousOwnerDetails) :=
  st.previousOwners.keys.mapM fun previous =>
    load "ClubPreviousOwnerDetails" st.previousOwners[previous]?

/-- `query_club_ownership_details_for_owner`. -/
def queryClubOwnershipDetailsForOwner (ownerAddress : String) :
    Exec ContractError (List ClubOwnershipDetails) := do
  let allOwners ← queryAllClubOwnershipDetails st
  return allOwners.filter fun ownerDetails => ownerDetails.ownerAddress = ownerAddress

end Queries

/-- What an auditor finds in the listings of the stakes, the bonds and the clubs. -/
structure Audits (st : Storage) (users : List String) (stakes : List ClubStakingDetails)
    (bonds : List ClubBondingDetails) (owners : List ClubOwnershipDetails) : Prop where
  /-- All that is owed is listed. -/
  owed : stakedOf stakes + pendingOf stakes + (bonds.map (·.bondedAmount)).sum = st.liabilities
  /-- The stakes of a club are told of the club alone. -/
  club : ∀ clubName, queryClubStakingDetails st clubName users =
    .ok (stakes.filter fun stake => stake.clubName = clubName)
  /-- The stakes of a user are told of the user alone. -/
  user : ∀ u, queryAllStakes st [u] = .ok (stakes.filter fun stake => stake.stakerAddress = u)
  /-- The bonds of a user on a club are told of the two alone. -/
  bonder : ∀ clubName u own, queryClubBondingDetailsForUser st clubName u = .ok own →
    own = bonds.filter fun bond => bond.clubName = clubName ∧ bond.bonderAddress = u
  /-- The clubs that are told are those that there are, each under its own name. -/
  stored : ∀ clubName owner, (queryClubOwnershipDetails st clubName : Exec ContractError _) =
    .ok owner ↔ owner ∈ owners ∧ owner.clubName = clubName
  /-- No club is told twice. -/
  distinct : (owners.map (·.clubName)).Nodup
  /-- The clubs of an owner are told of the owner alone. -/
  owner : ∀ u, queryClubOwnershipDetailsForOwner st u =
    .ok (owners.filter fun owner => owner.ownerAddress = u)

/-- The owners have no reward, and whoever claims one is refused. -/
structure OwnersUnpaid (api : Api) (st : Storage) : Prop where
  /-- No club has a reward for its owner. -/
  current : ∀ owners, queryAllClubOwnershipDetails st = .ok owners →
    ∀ owner ∈ owners, owner.rewardAmount = 0
  /-- Nobody has a reward of a club that was given up. -/
  previous : queryAllPreviousClubOwnershipDetails st = .ok [] ∧ ∀ u,
    queryClubPreviousOwnerDetails st u = failGeneric "No previous ownership details found"
  /-- A claim of either reward is refused, whoever sends it. -/
  refused : ∀ q env info u clubName,
    (∀ x, execute api q env info st (.claimOwnerRewards u clubName) ≠ .ok x) ∧
      ∀ x, execute api q env info st (.claimPreviousOwnerRewards u) ≠ .ok x

/-! ## The names of the clubs -/

/-- The clubs carry their names. -/
def Named (st : Storage) : Prop :=
  ∀ (c : String) (owner : ClubOwnershipDetails), st.ownership[c]? = some owner → owner.clubName = c

section Names

variable {api : Api} {q : Querier} {env : Env} {info : MessageInfo} {st st' : Storage}
  {r : Response Cw20.ExecuteMsg} {c s : String} {a price : ℕ} {autoStake increaseStake : Bool}
  {seller : Option String}

theorem Named.same (h : Named st) (hownership : st'.ownership = st.ownership) : Named st' := by
  intro d owner hd
  rw [hownership] at hd
  exact h d owner hd

/-- A club that is saved under its name. -/
theorem Named.save {owner : ClubOwnershipDetails} (h : Named st)
    (hownership : st'.ownership = st.ownership.insert c owner) (howner : owner.clubName = c) :
    Named st' := by
  intro d owner' hd
  rw [hownership, Store.get_insert] at hd
  split at hd
  · rename_i hc
    obtain rfl := Option.some.inj hd
    exact howner.trans hc
  · exact h d owner' hd

theorem saveStakingDetails_named (hn : Named st)
    (h : saveStakingDetails st env s c a autoStake increaseStake = .ok st') : Named st' := by
  obtain ⟨staking, owner, total, howner, -, rfl⟩ := saveStakingDetails_frame h
  exact hn.save rfl (hn c owner howner)

theorem saveOwner_named {owner : ClubOwnershipDetails} (hn : Named st) (howner : owner.clubName = c)
    (h : saveOwner env st owner s c autoStake = .ok st') : Named st' := by
  have hsaved : Named { st with ownership := st.ownership.insert c owner } := hn.save rfl howner
  unfold saveOwner at h
  dsimp only at h
  split at h
  · obtain rfl := pure_eq_ok.mp h
    exact hsaved
  · exact saveStakingDetails_named hsaved h

theorem keepOwnerReward_named {sellerName : String} {owner : ClubOwnershipDetails} (hn : Named st)
    (h : keepOwnerReward st sellerName owner = .ok st') : Named st' := by
  unfold keepOwnerReward at h
  split at h
  · obtain rfl := pure_eq_ok.mp h
    exact hn
  · obtain ⟨rewardAmount, -, h⟩ := bind_eq_ok.mp h
    obtain rfl := pure_eq_ok.mp h
    exact hn.same rfl

theorem acquireClub_named (hn : Named st)
    (h : acquireClub api env st s seller c price autoStake = .ok st') : Named st' := by
  obtain ⟨-, buyerAddr, acquired, total, -, hfrom, h⟩ := acquireClub_spec h
  rcases hfrom with ⟨-, rfl, -⟩ | ⟨owner, -, -, hkept, -⟩
  · exact saveOwner_named hn rfl h
  · exact saveOwner_named (keepOwnerReward_named hn hkept) rfl h

/-- **Every accepted message** keeps the names of the clubs. -/
theorem execute_named {msg : ExecuteMsg} (hn : Named st)
    (h : execute api q env info st msg = .ok (st', r)) : Named st' := by
  cases msg with
  | buyAClub buyer seller clubName autoStake => exact acquireClub_named hn (buyAClub_spec h).2.1
  | assignAClub buyer seller clubName autoStake => exact acquireClub_named hn (assignAClub_spec h).1
  | stakeOnAClub staker clubName amount autoStake =>
    exact saveStakingDetails_named hn (stakeOnAClub_spec h).2.1
  | assignStakesToAClub stakeList clubName =>
    obtain ⟨total, hassigned, -⟩ := assignStakesToAClub_spec h
    refine foldlM_assignStake_keeps hn ?_ hassigned
    intro saved saved' s a autoStake hn hsaved
    exact saveStakingDetails_named hn hsaved
  | releaseClub owner clubName =>
    obtain ⟨details, hdetails, -, -, hst⟩ := releaseClub_spec h
    exact hn.save (congrArg Storage.ownership hst) (hn clubName details hdetails)
  | claimOwnerRewards owner clubName =>
    obtain ⟨-, details, hdetails, -, hst, -⟩ := claimOwnerRewards_spec h
    exact hn.save (congrArg Storage.ownership hst) (hn clubName details hdetails)
  | claimPreviousOwnerRewards previousOwner =>
    obtain ⟨-, details, -, rfl, -⟩ := claimPreviousOwnerRewards_spec h
    exact hn.same rfl
  | claimStakerRewards staker clubName =>
    obtain ⟨-, -, amount, -, -, rfl, -⟩ := claimStakerRewards_spec h
    exact hn.same rfl
  | stakeWithdrawFromAClub staker clubName amount immediateWithdrawal =>
    obtain ⟨-, decrease, bonding, saved, bonding', -, hsaved, rfl⟩ := withdrawStakeFromAClub_spec h
    have hn' : Named { st with bonding := bonding } := hn.same rfl
    exact (saveStakingDetails_named hn' hsaved).same rfl
  | calculateAndDistributeRewards stakerList clubName isFirstBatch isFinalBatch =>
    cases calculateAndDistributeRewards_spec h with
    | idle next hreward hst =>
      rw [hst]
      exact hn.same rfl
    | runs next ranked winning owner terms staking given hreward hranking howner hterms hbatch
        hloop hst =>
      rw [hst]
      exact hn.save rfl (hn clubName owner howner)
  | increaseRewardAmount rewardFrom amount =>
    obtain ⟨-, h⟩ := refuse_bind_eq_ok.mp h
    obtain ⟨reward, -, h⟩ := bind_eq_ok.mp h
    cases pure_eq_ok.mp h
    exact hn.same rfl

end Names

/-! ## The clubs have all the bonds -/

/-- There are bonds only on clubs that there are. -/
def BondsOnClubs (st : Storage) : Prop :=
  ∀ clubName, st.control clubName = none → ∀ bonder, st.bonds clubName bonder = []

section Bonds

variable {api : Api} {st st' : Storage} {c : Call} {r : Response Cw20.ExecuteMsg}

/-- **One step** leaves the bonds on clubs: who withdraws has a stake, in a club that there is. -/
theorem exec_bondsOnClubs (hs : OnClubs st) (hb : BondsOnClubs st)
    (h : exec api st c = some (st', r)) : BondsOnClubs st' := by
  intro clubName hnone bonder
  have hbefore := (execute_staysOnClubs (exec_eq_some.mp h) clubName hnone).1
  rcases exec_bonding h with ⟨-, hbonding⟩ | ⟨staker, withdrawn, amount, immediate, hmsg, hw⟩
  · rw [Storage.bonds, hbonding]
    exact hb clubName hbefore bonder
  · have hne : (withdrawn, staker) ≠ (clubName, bonder) := by
      intro heq
      rw [← (Prod.mk.inj heq).1] at hbefore
      have hexec := exec_eq_some.mp h
      rw [hmsg] at hexec
      exact (withdrawStakeFromAClub_cases hexec).2.1 (hs withdrawn hbefore staker)
    rw [hw.bonds_of_ne hne]
    exact hb clubName hbefore bonder

/-- In every run the clubs have all the bonds, and carry their names. -/
theorem run_onNamedClubs (hinit : Initial api st) (cs : List Call) :
    BondsOnClubs (run (exec api) st cs) ∧ Named (run (exec api) st cs) := by
  suffices hrun : OnClubs (run (exec api) st cs) ∧ BondsOnClubs (run (exec api) st cs) ∧
      Named (run (exec api) st cs) from hrun.2
  refine run_preserves (I := fun s => OnClubs s ∧ BondsOnClubs s ∧ Named s) ?_ ?_ cs
  · rintro s c s' r ⟨hs, hb, hn⟩ h
    exact ⟨hs.stays (execute_staysOnClubs (exec_eq_some.mp h)), exec_bondsOnClubs hs hb h,
      execute_named hn (exec_eq_some.mp h)⟩
  · obtain ⟨config, next, rfl⟩ := hinit.eq
    refine ⟨fun clubName _ staker => stakesAt_empty, fun clubName _ bonder => ?_, fun c owner hc => ?_⟩
    · rw [Storage.bonds, Store.get_empty]
      rfl
    · rw [Store.get_empty] at hc
      cases hc

theorem run_noOwnerRewards (hinit : Initial api st) (cs : List Call) :
    NoOwnerRewards (run (exec api) st cs) := by
  refine run_preserves (fun s c s' r ho h => execute_noOwnerRewards ho (exec_eq_some.mp h)) ?_ cs
  obtain ⟨config, next, rfl⟩ := hinit.eq
  refine ⟨fun c owner hc => ?_, rfl⟩
  rw [Store.get_empty] at hc
  cases hc

end Bonds

/-! ## The listings -/

section Listings

variable {st : Storage} {users : List String}

/-- The stakes of some users in a club, strung together. -/
theorem foldl_listStakes (st : Storage) (clubName : String) (users : List String)
    (before : List ClubStakingDetails) : users.foldl (listStakes st clubName) before =
      before ++ users.flatMap fun u => st.stakes clubName u := by
  have hround : listStakes st clubName = fun before u => before ++ st.stakes clubName u := by
    funext before u
    unfold listStakes Storage.stakes stakesAt
    cases st.staking[(clubName, u)]? with
    | none => exact (List.append_nil _).symm
    | some stakes => rfl
  rw [hround, List.foldl_append_eq_append, List.flatMap_def]

theorem foldl_listBonds (st : Storage) (clubName : String) (users : List String)
    (before : List ClubBondingDetails) : users.foldl (listBonds st clubName) before =
      before ++ users.flatMap fun u => st.bonds clubName u := by
  have hround : listBonds st clubName = fun before u => before ++ st.bonds clubName u := by
    funext before u
    unfold listBonds Storage.bonds
    cases st.bonding[(clubName, u)]? with
    | none => exact (List.append_nil _).symm
    | some bonds => rfl
  rw [hround, List.foldl_append_eq_append, List.flatMap_def]

theorem queryAllStakes_list (st : Storage) (users : List String) : queryAllStakes st users =
    .ok (st.ownership.keys.flatMap fun c => users.flatMap fun u => st.stakes c u) := by
  unfold queryAllStakes
  simp only [foldl_listStakes, List.foldl_append_eq_append, ← List.flatMap_def]
  rfl

theorem queryAllBonds_list (st : Storage) (users : List String) : queryAllBonds st users =
    .ok (st.ownership.keys.flatMap fun c => users.flatMap fun u => st.bonds c u) := by
  unfold queryAllBonds
  simp only [foldl_listBonds, List.foldl_append_eq_append, ← List.flatMap_def]
  rfl

theorem queryAllClubOwnershipDetails_eq (st : Storage) :
    queryAllClubOwnershipDetails st = .ok st.ownership.values :=
  Store.mapM_load _ _

/-- A club is among those over which the listings go. -/
theorem mem_clubs {clubName : String} (h : st.control clubName ≠ none) :
    clubName ∈ st.ownership.keys := by
  refine (Store.mem_keys_iff _ _).mpr (Option.ne_none_iff_exists'.mp fun hnone => h ?_)
  rw [Storage.control, hnone]
  rfl

/-- What is owed for some records, one by one. -/
theorem owedOf_eq_sum (stakes : List ClubStakingDetails) :
    owedOf stakes = (stakes.map fun stake => stake.stakedAmount + stake.rewardAmount).sum :=
  List.sum_map_add.symm

theorem bondedOf_true (bonds : List ClubBondingDetails) :
    bondedOf (fun _ => true) bonds = (bonds.map (·.bondedAmount)).sum := by
  rw [bondedOf, List.filter_true]

/-- **The listings have what is owed**, where everyone with a stake or a bond is among the users. -/
theorem owed_listed (hs : OnClubs st) (hb : BondsOnClubs st) (hnodup : users.Nodup)
    (hall : ∀ c u, st.stakes c u ≠ [] ∨ st.bonds c u ≠ [] → u ∈ users) :
    owedOf (st.ownership.keys.flatMap fun c => users.flatMap fun u => st.stakes c u) +
      ((st.ownership.keys.flatMap fun c => users.flatMap fun u => st.bonds c u).map
        (·.bondedAmount)).sum = st.liabilities := by
  have howed : owedIn st.staking =
      owedOf (st.ownership.keys.flatMap fun c => users.flatMap fun u => st.stakes c u) := by
    rw [owedIn, owedOf_eq_sum, funext fun _ => funext owedOf_eq_sum]
    refine Store.total_pairs _ st.staking (Store.nodup_keys _) hnodup fun c u hne => ?_
    refine ⟨mem_clubs fun hnone => hne (hs c hnone u), hall c u (.inl hne)⟩
  have hbonded : bondedIn st.bonding =
      ((st.ownership.keys.flatMap fun c => users.flatMap fun u => st.bonds c u).map
        (·.bondedAmount)).sum := by
    rw [bondedIn, funext fun _ => funext bondedOf_true]
    refine Store.total_pairs _ st.bonding (Store.nodup_keys _) hnodup fun c u hne => ?_
    refine ⟨mem_clubs fun hnone => hne (hb c hnone u), hall c u (.inr hne)⟩
  rw [Storage.liabilities, howed, hbonded]

/-- Of a club there are listed the stakes of the users in it. -/
theorem filter_club (hs : OnClubs st) (hc : InClub st.staking) (clubName : String) :
    (st.ownership.keys.flatMap fun c => users.flatMap fun u => st.stakes c u).filter
      (fun stake => stake.clubName = clubName) = users.flatMap fun u => st.stakes clubName u := by
  refine filter_flatMap_label (Store.nodup_keys _) (fun c stake hstake => ?_) fun hnot => ?_
  · obtain ⟨u, -, hstake⟩ := List.mem_flatMap.mp hstake
    exact hc (c, u) stake hstake
  · refine List.flatMap_eq_nil_iff.mpr fun u _ => hs clubName ?_ u
    exact of_not_not fun hsome => hnot (mem_clubs hsome)

/-- Of a user there are listed the user's stakes in all clubs. -/
theorem filter_user (ht : Tidy st.staking) (hnodup : users.Nodup) {u : String}
    (hall : u ∉ users → ∀ c, st.stakes c u = []) :
    (st.ownership.keys.flatMap fun c => users.flatMap fun u => st.stakes c u).filter
      (fun stake => stake.stakerAddress = u) = st.stakesOf u := by
  rw [List.filter_flatMap]
  refine congrArg (fun f => st.ownership.keys.flatMap f) (funext fun c => ?_)
  refine filter_flatMap_label hnodup (fun u' stake hstake => ?_) fun hnot => hall hnot c
  have hfiltered := (ht.filter_eq c u').symm ▸ hstake
  exact of_decide_eq_true (List.mem_filter.mp hfiltered).2

/-- Of a user and a club there are listed the user's bonds on the club. -/
theorem filter_bonder (hb : BondsOnClubs st) (hf : BondsFiled st) (hnodup : users.Nodup)
    {clubName u : String} (hall : u ∉ users → st.bonds clubName u = []) :
    (st.ownership.keys.flatMap fun c => users.flatMap fun u => st.bonds c u).filter
      (fun bond => bond.clubName = clubName ∧ bond.bonderAddress = u) = st.bonds clubName u := by
  have hclub : (st.ownership.keys.flatMap fun c => users.flatMap fun u => st.bonds c u).filter
      (fun bond => bond.clubName = clubName) = users.flatMap fun u => st.bonds clubName u := by
    refine filter_flatMap_label (Store.nodup_keys _) (fun c bond hbond => ?_) fun hnot => ?_
    · obtain ⟨u, -, hbond⟩ := List.mem_flatMap.mp hbond
      exact (hf c u).clubName bond hbond
    · refine List.flatMap_eq_nil_iff.mpr fun u _ => hb clubName ?_ u
      exact of_not_not fun hsome => hnot (mem_clubs hsome)
  have hboth : (fun bond : ClubBondingDetails =>
      decide (bond.clubName = clubName ∧ bond.bonderAddress = u)) =
        fun bond => decide (bond.bonderAddress = u) && decide (bond.clubName = clubName) := by
    funext bond
    rw [Bool.decide_and, Bool.and_comm]
  rw [hboth, ← List.filter_filter, hclub]
  refine filter_flatMap_label hnodup (fun u' bond hbond => ?_) hall
  exact (hf clubName u').bonderAddress bond hbond

/-- **An auditor finds** what is owed, and what the other queries tell. -/
theorem audits (hs : OnClubs st) (hb : BondsOnClubs st) (hn : Named st) (ht : Tidy st.staking)
    (hc : InClub st.staking) (hf : BondsFiled st) (hnodup : users.Nodup)
    (hall : ∀ c u, st.stakes c u ≠ [] ∨ st.bonds c u ≠ [] → u ∈ users) :
    Audits st users (st.ownership.keys.flatMap fun c => users.flatMap fun u => st.stakes c u)
      (st.ownership.keys.flatMap fun c => users.flatMap fun u => st.bonds c u)
      st.ownership.values where
  owed := owed_listed hs hb hnodup hall
  club clubName := by
    rw [filter_club hs hc, queryClubStakingDetails, foldl_listStakes]
    rfl
  user u := by
    rw [filter_user ht hnodup fun hnot c => of_not_not fun hne => hnot (hall c u (.inl hne))]
    exact queryAllStakes_eq st u
  bonder clubName u own hown := by
    rw [filter_bonder hb hf hnodup fun hnot => of_not_not fun hne => hnot (hall clubName u (.inr hne))]
    unfold queryClubBondingDetailsForUser at hown
    split at hown
    · rename_i bonds hbonds
      have hget : st.bonds clubName u = bonds := by
        rw [Storage.bonds, hbonds]
        rfl
      rw [hget, ← pure_eq_ok.mp hown]
      refine List.filter_eq_self.mpr fun bond hbond => decide_eq_true ?_
      exact (hf clubName u).bonderAddress bond (hget ▸ hbond)
    · exact absurd hown (failGeneric_ne_ok _ _)
  stored clubName owner := by
    rw [queryClubOwnershipDetails_eq_ok_iff, Store.mem_values_iff]
    constructor
    · exact fun h => ⟨⟨clubName, h⟩, hn clubName owner h⟩
    · rintro ⟨⟨c, h⟩, rfl⟩
      rw [hn c owner h]
      exact h
  distinct := by
    rw [Store.map_values st.ownership hn, List.map_id']
    exact Store.nodup_keys _
  owner u := by
    rw [queryClubOwnershipDetailsForOwner, queryAllClubOwnershipDetails_eq]
    rfl

/-- Where the owners have no reward, none is paid. -/
theorem ownersUnpaid (api : Api) (ho : NoOwnerRewards st) : OwnersUnpaid api st where
  current owners howners owner hmem := by
    rw [queryAllClubOwnershipDetails_eq] at howners
    obtain rfl := Except.ok.inj howners
    obtain ⟨c, hc⟩ := (Store.mem_values_iff _ owner).mp hmem
    exact ho.owners c owner hc
  previous := by
    refine ⟨?_, fun u => ?_⟩
    · rw [queryAllPreviousClubOwnershipDetails, Store.mapM_load, ho.previous]
      rfl
    · rw [queryClubPreviousOwnerDetails, ho.previous, Store.get_empty]
  refused q env info u clubName :=
    ⟨fun _ => claimOwnerRewards_ne_ok ho, fun _ => claimPreviousOwnerRewards_ne_ok ho⟩

/-- Who has a stake or a bond is found among the keys. -/
theorem mem_users (h : ∀ k ∈ st.staking.keys ++ st.bonding.keys, k.2 ∈ users) (c u : String)
    (hne : st.stakes c u ≠ [] ∨ st.bonds c u ≠ []) : u ∈ users := by
  refine h (c, u) (List.mem_append.mpr (hne.imp (fun hne => ?_) fun hne => ?_))
  · refine (Store.mem_keys_iff _ _).mpr (Option.ne_none_iff_exists'.mp fun hnone => hne ?_)
    rw [Storage.stakes, stakesAt, hnone]
    rfl
  · refine (Store.mem_keys_iff _ _).mpr (Option.ne_none_iff_exists'.mp fun hnone => hne ?_)
    rw [Storage.bonds, hnone]
    rfl

end Listings

/-! ## Runs -/

/-- **In every run the listings have what is owed**: an auditor who asks for the stakes and the bonds
of users among whom is everyone that has any gets records that add up to all stakes, rewards and
bonds, and that are, for each club and user, those that the other queries tell. -/
theorem run_audits (api : Api) (st : Storage) (cs : List Call) (hinit : Initial api st)
    (users : List String) (hnodup : users.Nodup)
    (hall : ∀ clubName u, (run (exec api) st cs).stakes clubName u ≠ [] ∨
      (run (exec api) st cs).bonds clubName u ≠ [] → u ∈ users) :
    ∃ stakes bonds owners, queryAllStakes (run (exec api) st cs) users = .ok stakes ∧
      queryAllBonds (run (exec api) st cs) users = .ok bonds ∧
        queryAllClubOwnershipDetails (run (exec api) st cs) = .ok owners ∧
          Audits (run (exec api) st cs) users stakes bonds owners := by
  obtain ⟨hb, hn⟩ := run_onNamedClubs hinit cs
  obtain ⟨ht, hc, hf⟩ := run_filed hinit cs
  exact ⟨_, _, _, queryAllStakes_list _ users, queryAllBonds_list _ users,
    queryAllClubOwnershipDetails_eq _, audits (run_onClubs hinit cs) hb hn ht hc hf hnodup hall⟩

open Sample in
/-- The stake of alice is partly withdrawn, and one of the bonds is paid. -/
theorem run_audits_sample :
    ∃ stakes bonds owners, queryAllStakes (run (exec api) storage Sample.bonds) ["alice", "owner"] =
      .ok stakes ∧
        queryAllBonds (run (exec api) storage Sample.bonds) ["alice", "owner"] = .ok bonds ∧
          queryAllClubOwnershipDetails (run (exec api) storage Sample.bonds) = .ok owners ∧
            Audits (run (exec api) storage Sample.bonds) ["alice", "owner"] stakes bonds owners :=
  run_audits api storage Sample.bonds initial ["alice", "owner"] (by decide)
    (mem_users (by decide +kernel))

/-- **In every run no owner is paid a reward**: the clubs list none for their owners, nobody is
listed as a previous owner, and whoever claims a reward of either kind is refused. -/
theorem run_ownersUnpaid (api : Api) (st : Storage) (cs : List Call) (hinit : Initial api st) :
    OwnersUnpaid api (run (exec api) st cs) :=
  ownersUnpaid api (run_noOwnerRewards hinit cs)

open Sample in
/-- A club changes hands after a batch that gives a staker a reward. -/
theorem run_ownersUnpaid_sample :
    let cs := opened 10000 ++ [stake 2 "alice" 500 false,
      call 101 "admin" (.calculateAndDistributeRewards ["alice", "owner"] "club" true true),
      call 102 "owner" (.releaseClub "owner" "club"),
      call 103 "buyer" (.buyAClub "buyer" (some "owner") "club" false)]
    (acceptAll (exec api) storage cs).isSome ∧ OwnersUnpaid api (run (exec api) storage cs) :=
  ⟨by decide +kernel, run_ownersUnpaid api storage _ initial⟩

end Clubstaking
