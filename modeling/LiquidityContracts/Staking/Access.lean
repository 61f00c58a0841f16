import LiquidityContracts.Staking.Ownership

/-!
# What a public message may touch

Every message but the admin's acts for one account, which a string argument names; each handler
compares it with the sender in a way of its own. What a message reads and writes is stored under
that account, so that nobody can touch the records of another: not the stakes, not the bonds, and
the reward of a previous owner only to raise it. What the message emits takes FURY from the sender
alone, pays it to the sender alone, and passes on no more coins than the sender attached.

## Main definitions

* `TouchesOnly`: a call changes the records of one address, and moves its tokens alone

## Main results

* `public_touches_sender`: an accepted message touches only its sender, unless the admin sends it
-/

namespace Clubstaking

open CosmWasm

/-- **A call by `u`**, with the coins that `u` attached, leaves the records of the others, the pot
and the schedule alone, and moves tokens of `u` and to `u` alone. -/
structure TouchesOnly (u : Addr) (funds : List Coin) (st st' : Storage)
    (r : Response Cw20.ExecuteMsg) : Prop where
  staking : ∀ clubName v : String, v ≠ u → st'.staking[(clubName, v)]? = st.staking[(clubName, v)]?
  bonding : ∀ clubName v : String, v ≠ u → st'.bonding[(clubName, v)]? = st.bonding[(clubName, v)]?
  kept : ∀ v, v ≠ u → st.keptFor v ≤ st'.keptFor v
  items : SameItems st st'
  debits : ∀ contract owner recipient amount coins,
    .wasmExecute contract (.transferFrom owner recipient amount) coins ∈ r.emitted → owner = u
  pays : ∀ recipient amount coins, .wasmExecute st.config.furyTokenAddress
    (.transfer recipient amount) coins ∈ r.emitted → recipient = u
  coins : ∀ denom, amountOf denom (r.emitted.flatMap CosmosMsg.coins) ≤ amountOf denom funds

/-- A message that moves FURY of `u`, or to `u`, or coins. -/
inductive Personal (fury u : Addr) : CosmosMsg Cw20.ExecuteMsg → Prop
  | fees (recipient : Addr) (coins : List Coin) : Personal fury u (.bankSend recipient coins)
  | transfer (n : ℕ) : Personal fury u (.wasmExecute fury (.transfer u n) [])
  | pull (recipient : Addr) (n : ℕ) :
    Personal fury u (.wasmExecute fury (.transferFrom u recipient n) [])

section Handlers

variable {api : Api} {q : Querier} {env : Env} {info : MessageInfo} {st st' : Storage}
  {r : Response Cw20.ExecuteMsg} {c s u : String} {a : ℕ} {funds : List Coin}

/-- A call that changes records of `u` alone, and emits personal messages with the coins attached or
none, touches only `u`. -/
theorem TouchesOnly.of_personal
    (staking : ∀ clubName v : String, v ≠ u → st'.staking[(clubName, v)]? = st.staking[(clubName, v)]?)
    (bonding : ∀ clubName v : String, v ≠ u → st'.bonding[(clubName, v)]? = st.bonding[(clubName, v)]?)
    (kept : ∀ v, v ≠ u → st.keptFor v ≤ st'.keptFor v) (items : SameItems st st')
    (hpersonal : ∀ m ∈ r.emitted, Personal st.config.furyTokenAddress u m)
    (hcoins : r.emitted.flatMap CosmosMsg.coins = funds ∨ r.emitted.flatMap CosmosMsg.coins = []) :
    TouchesOnly u funds st st' r := by
  refine ⟨staking, bonding, kept, items, ?_, ?_, ?_⟩
  · intro contract owner recipient amount coins hm
    cases hpersonal _ hm
    rfl
  · intro recipient amount coins hm
    cases hpersonal _ hm
    rfl
  · intro denom
    rcases hcoins with hcoins | hcoins
    · rw [hcoins]
    · rw [hcoins]
      exact Nat.zero_le _

/-- Records saved under the key of `u` are no other address's. -/
theorem get_of_key {ν : Type} {records records' : Store (String × String) ν}
    (h : ∀ k, k ≠ (c, u) → records'[k]? = records[k]?) (clubName v : String) (hv : v ≠ u) :
    records'[(clubName, v)]? = records[(clubName, v)]? :=
  h (clubName, v) fun hk => hv (Prod.ext_iff.mp hk).2

variable {autoStake immediate : Bool} {price : ℕ} {seller : Option String}

theorem buyAClub_touches (h : buyAClub api q env info st s seller c price autoStake = .ok (st', r)) :
    TouchesOnly info.sender info.funds st st' r := by
  obtain ⟨rfl, hacquired, rfl⟩ := buyAClub_spec h
  obtain ⟨hitems, hbonds⟩ := acquireClub_items hacquired
  have hacquires := acquireClub_acquired hacquired
  refine .of_personal (get_of_key hacquires.staking_other) (fun _ _ _ => by rw [hbonds])
    (fun v _ => hacquires.kept_le v) hitems ?_ (.inl (List.append_nil _))
  intro m hm
  rw [← hitems.config]
  rcases List.mem_cons.mp hm with rfl | hm
  · exact .pull _ _
  · obtain rfl := List.mem_singleton.mp hm
    exact .fees _ _

theorem stakeOnAClub_touches (h : stakeOnAClub api q env info st s c a autoStake = .ok (st', r)) :
    TouchesOnly info.sender info.funds st st' r := by
  obtain ⟨rfl, hsaved, rfl⟩ := stakeOnAClub_spec h
  obtain ⟨hitems, hbonds⟩ := saveStakingDetails_items hsaved
  obtain ⟨staking, owner, total, -, hstaking, rfl⟩ := saveStakingDetails_frame hsaved
  refine .of_personal (get_of_key hstaking) (fun _ _ _ => rfl) (fun _ _ => le_rfl) hitems ?_
    (.inl (List.append_nil _))
  intro m hm
  rcases List.mem_cons.mp hm with rfl | hm
  · exact .pull _ _
  · obtain rfl := List.mem_singleton.mp hm
    exact .fees _ _

theorem releaseClub_touches (h : releaseClub api env info st s c = .ok (st', r)) :
    TouchesOnly info.sender info.funds st st' r := by
  have hitems := (releaseClub_items h).1
  obtain ⟨owner, -, -, rfl, rfl⟩ := releaseClub_spec h
  exact .of_personal (fun _ _ _ => rfl) (fun _ _ _ => rfl) (fun _ _ => le_rfl) hitems nofun (.inr rfl)

variable (hapi : ∀ s a, api s = .ok a → a = s)

include hapi

theorem claimOwnerRewards_touches (h : claimOwnerRewards api info st s c = .ok (st', r)) :
    TouchesOnly info.sender info.funds st st' r := by
  have hitems := (claimOwnerRewards_items h).1
  obtain ⟨hsender, details, -, -, rfl, rfl⟩ := claimOwnerRewards_spec h
  refine .of_personal (fun _ _ _ => rfl) (fun _ _ _ => rfl) (fun _ _ => le_rfl) hitems ?_ (.inr rfl)
  intro m hm
  obtain rfl := List.mem_singleton.mp hm
  rw [hapi _ _ hsender]
  exact .transfer _

theorem claimPreviousOwnerRewards_touches
    (h : claimPreviousOwnerRewards api info st s = .ok (st', r)) :
    TouchesOnly info.sender info.funds st st' r := by
  have hitems := (claimPreviousOwnerRewards_items h).1
  obtain ⟨hsender, details, -, rfl, rfl⟩ := claimPreviousOwnerRewards_spec h
  refine .of_personal (fun _ _ _ => rfl) (fun _ _ _ => rfl) (fun v hv => ?_) hitems ?_ (.inr rfl)
  · -- only the reward of the sender is removed
    rw [Storage.keptFor, Storage.keptFor, Store.get_erase, if_neg]
    rw [← hapi _ _ hsender]
    exact hv.symm
  · intro m hm
    obtain rfl := List.mem_singleton.mp hm
    rw [hapi _ _ hsender]
    exact .transfer _

theorem claimStakerRewards_touches (h : claimStakerRewards api q info st s c = .ok (st', r)) :
    TouchesOnly info.sender info.funds st st' r := by
  obtain ⟨hsender, -, amount, -, -, rfl, rfl⟩ := claimStakerRewards_spec h
  obtain rfl := hapi _ _ (validate_eq_ok.mp hsender)
  refine .of_personal (get_of_key fun k hk => Store.get_insert_of_ne _ _ hk.symm) (fun _ _ _ => rfl)
    (fun _ _ => le_rfl) ⟨rfl, rfl, rfl, rfl, rfl, rfl⟩ ?_ (.inl (List.append_nil _))
  intro m hm
  rcases List.mem_cons.mp hm with rfl | hm
  · exact .transfer _
  · obtain rfl := List.mem_singleton.mp hm
    exact .fees _ _

theorem withdrawStakeFromAClub_touches
    (h : withdrawStakeFromAClub api q env info st s c a immediate = .ok (st', r)) :
    TouchesOnly info.sender info.funds st st' r := by
  have hitems := withdrawStakeFromAClub_items h
  obtain ⟨hsender, -, hcases⟩ := withdrawStakeFromAClub_cases h
  obtain rfl := hapi _ _ hsender
  -- an immediate withdrawal pays the staker, the other kind only makes a bond
  rcases hcases with ⟨-, stakerAddr, hpaid⟩ | ⟨-, hbonded⟩
  · obtain ⟨acc, -, -, hsaved, rfl⟩ := withdrawImmediately_spec hpaid
    obtain ⟨staking, owner, total, -, hstaking, rfl⟩ := saveStakingDetails_frame hsaved
    refine .of_personal (get_of_key hstaking)
      (get_of_key fun k hk => Store.get_insert_of_ne _ _ hk.symm) (fun _ _ => le_rfl) hitems ?_
      (.inl (List.append_nil _))
    intro m hm
    rcases List.mem_cons.mp hm with rfl | hm
    · exact .transfer _
    · obtain rfl := List.mem_singleton.mp hm
      exact .fees _ _
  · obtain ⟨saved, hsaved, rfl, rfl⟩ := withdrawToBond_spec hbonded
    obtain ⟨staking, owner, total, -, hstaking, rfl⟩ := saveStakingDetails_frame hsaved
    refine .of_personal (get_of_key hstaking)
      (get_of_key fun k hk => Store.get_insert_of_ne _ _ hk.symm) (fun _ _ => le_rfl) hitems ?_
      (.inl (List.append_nil _))
    intro m hm
    obtain rfl := List.mem_singleton.mp hm
    exact .fees _ _

end Handlers

/-- **A public message touches only its sender**: in every state, whatever accounts and clubs the
message names, as long as the admin does not send it. -/
theorem public_touches_sender (api : Api) (hapi : ∀ s a, api s = .ok a → a = s) (q : Querier)
    (env : Env) (info : MessageInfo) (st st' : Storage) (msg : ExecuteMsg)
    (r : Response Cw20.ExecuteMsg) (hpublic : info.sender ≠ st.config.adminAddress)
    (h : execute api q env info st msg = .ok (st', r)) :
    TouchesOnly info.sender info.funds st st' r := by
  cases msg with
  | buyAClub buyer seller clubName autoStake => exact buyAClub_touches h
  | stakeOnAClub staker clubName amount autoStake => exact stakeOnAClub_touches h
  | releaseClub owner clubName => exact releaseClub_touches h
  | claimOwnerRewards owner clubName => exact claimOwnerRewards_touches hapi h
  | claimPreviousOwnerRewards previousOwner => exact claimPreviousOwnerRewards_touches hapi h
  | claimStakerRewards staker clubName => exact claimStakerRewards_touches hapi h
  | stakeWithdrawFromAClub staker clubName amount immediate =>
    exact withdrawStakeFromAClub_touches hapi h
  -- the rest begin with the check of the admin
  | assignAClub buyer seller clubName autoStake =>
    exact absurd hpublic (refuse_bind_eq_ok.mp h).1
  | assignStakesToAClub stakeList clubName => exact absurd hpublic (refuse_bind_eq_ok.mp h).1
  | increaseRewardAmount rewardFrom amount => exact absurd hpublic (refuse_bind_eq_ok.mp h).1
  | calculateAndDistributeRewards stakerList clubName isFirstBatch isFinalBatch =>
    exact absurd hpublic (refuseGeneric_bind_eq_ok.mp h).1

open Sample in
/-- A club is bought from the owner who released it. -/
theorem public_touches_sender_sample :
    ∃ st' r, execute api querier buy.env buy.info (run (exec api) storage forSale) buy.msg =
      .ok (st', r) ∧ TouchesOnly "buyer" buy.info.funds (run (exec api) storage forSale) st' r := by
  have hbuy : (exec api (run (exec api) storage forSale) buy).isSome := by decide +kernel
  obtain ⟨⟨st', r⟩, h⟩ := Option.isSome_iff_exists.mp hbuy
  exact ⟨st', r, exec_eq_some.mp h, public_touches_sender api (fun _ _ h => (Except.ok.inj h).symm)
    querier buy.env buy.info _ st' buy.msg r (by decide +kernel) (exec_eq_some.mp h)⟩

end Clubstaking
