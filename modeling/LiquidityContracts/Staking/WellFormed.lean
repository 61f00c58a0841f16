import LiquidityContracts.Staking.Maturity

/-!
# The records are well formed

The handlers take the shape of the records for granted: that a staker has one record of stakes in a
club, and that it is filed under its club and staker. The lists are rebuilt by increases,
assignments, takeovers, withdrawals, batches of rewards and payments from bonds, and every one of
them keeps the shape.

## Main definitions

* `StakesOf`, `BondsOf`: the shape of the lists of a staker in a club
* `WellFormed`: every stored list has its shape

## Main results

* `Effect.inClub`: every accepted message leaves the stakes filed under their clubs
* `withdrawStakeFromAClub_bondsOf`: a withdrawal saves bonds of the shape
* `run_wellFormed`: the records are well formed in every run
-/

namespace Clubstaking

open CosmWasm

/-- A staker has one record in a club at most, without a pending reward when it is staked. -/
structure StakesOf (clubName staker : String) (stakes : List ClubStakingDetails) : Prop where
  one : stakes.length ≤ 1
  clubName : ∀ r ∈ stakes, r.clubName = clubName
  stakerAddress : ∀ r ∈ stakes, r.stakerAddress = staker
  folded : ∀ r ∈ stakes, r.autoStake = true → r.rewardAmount = 0

/-- A staker has a limited number of bonds on a club. -/
structure BondsOf (clubName bonder : String) (limit : ℕ) (bonds : List ClubBondingDetails) :
    Prop where
  clubName : ∀ b ∈ bonds, b.clubName = clubName
  bonderAddress : ∀ b ∈ bonds, b.bonderAddress = bonder
  limited : bonds.length ≤ limit

/-- Every stored list has the shape that belongs to its key. -/
structure WellFormed (st : Storage) : Prop where
  stakes : ∀ clubName staker stakes, st.staking[(clubName, staker)]? = some stakes →
    StakesOf clubName staker stakes
  bonds : ∀ clubName bonder bonds, st.bonding[(clubName, bonder)]? = some bonds →
    BondsOf clubName bonder st.config.maxBondingLimitPerUser bonds

/-! ## The stakes -/

/-- The stakes are filed under their clubs. -/
def InClub (staking : Store (String × String) (List ClubStakingDetails)) : Prop :=
  ∀ k, ∀ r ∈ stakesAt staking k, r.clubName = k.1

section Stakes

variable {env : Env} {st st' : Storage} {c s : String} {is : List Increase} {msg : ExecuteMsg}
  {staking staking' : Store (String × String) (List ClubStakingDetails)}
  {k : String × String} {l : List ClubStakingDetails}

theorem inClub_empty : InClub ∅ := by
  intro k r hr
  rw [stakesAt_empty] at hr
  cases hr

/-- The stakes stay filed when those under one key are replaced by some of its club. -/
theorem InClub.replace (hc : InClub staking)
    (h : ∀ a, stakesAt staking' a = if k = a then l else stakesAt staking a)
    (hl : ∀ r ∈ l, r.clubName = k.1) : InClub staking' := by
  intro a r hr
  rw [h] at hr
  split at hr
  · rename_i hka
    rw [← hka]
    exact hl r hr
  · exact hc a r hr

theorem InClub.of_same (hc : InClub st.staking) (h : Same st st') : InClub st'.staking := by
  intro k r hr
  rw [h.stakes] at hr
  exact hc k r hr

theorem clubName_increase (r : ClubStakingDetails) (i : Increase) :
    (r.increase i).clubName = r.clubName := by
  unfold ClubStakingDetails.increase
  split
  · rfl
  · rfl

theorem clubName_credit (r : ClubStakingDetails) (start : Timestamp) (reward : ℕ) :
    (r.credit start reward).clubName = r.clubName := by
  unfold ClubStakingDetails.credit
  split
  · rfl
  · rfl

/-- An increase keeps the club of the record, or has a new one for it. -/
theorem clubName_increased {i : Increase} (hl : ∀ r ∈ l, r.clubName = c) :
    ∀ r ∈ increased env c i l, r.clubName = c := by
  intro r hr
  cases l with
  | nil =>
    rw [increased_nil, List.mem_singleton] at hr
    rw [hr]
    rfl
  | cons r₀ l =>
    obtain ⟨old, hold, rfl⟩ := List.mem_map.mp hr
    rw [clubName_increase]
    exact hl old hold

theorem Increases.inClub (h : Increases env c is st st') (hc : InClub st.staking) :
    InClub st'.staking := by
  induction h with
  | nil h => exact hc.of_same h
  | cons h _ ih => exact ih (hc.replace h.stakes (clubName_increased (hc _)))

/-- A round of a batch keeps the club of the record, if it keeps the record. -/
theorem Round.inClub {terms : RewardTerms} {period : RewardPeriod}
    {acc acc' : Store (String × String) (List ClubStakingDetails) × Given}
    (h : Round terms period c acc acc' s) (hc : InClub acc.1) : InClub acc'.1 := by
  rcases h.empties_or_credits with hacc | ⟨r, reward, hstakes, -, -, -, hacc⟩
  · rw [hacc]
    exact hc.replace stakesAt_insert (by simp)
  · have hclub : r.clubName = c := hc (c, s) r (by rw [hstakes]; exact List.mem_singleton.mpr rfl)
    rw [hacc]
    refine hc.replace stakesAt_insert fun r' hr' => ?_
    rw [List.mem_singleton.mp hr', clubName_credit, hclub]

theorem Batch.inClub {stakerList : List String} {isFirstBatch isFinalBatch : Bool}
    (h : Batch env st st' stakerList c isFirstBatch isFinalBatch) (ht : Tidy st.staking)
    (hc : InClub st.staking) : InClub st'.staking := by
  cases h with
  | idle next hreward hst =>
    rw [hst]
    exact hc
  | runs next ranked winning owner terms staking given hreward hranking howner hterms hbatch hloop
      hst =>
    rw [hst]
    exact (foldlM_invariant (I := fun acc : _ × Given => Tidy acc.1 ∧ InClub acc.1)
      (fun _ _ _ hacc hround =>
        have hr := creditStaker_round hacc.1 hround
        ⟨hr.tidy hacc.1, hr.inClub hacc.2⟩) ⟨ht, hc⟩ hloop).2

/-- **Every accepted message** leaves the stakes filed under their clubs. -/
theorem Effect.inClub (h : Effect env st st' msg) (ht : Tidy st.staking) (hc : InClub st.staking) :
    InClub st'.staking := by
  cases h with
  | same h => exact hc.of_same h
  | opens clubName buyer autoStake hnone h => exact h.inClub hc
  | increases clubName is hmsg h => exact h.inClub hc
  | decreases clubName staker amount hle hsome hstaked h =>
    refine hc.replace h.stakes fun r hr => ?_
    obtain ⟨old, hold, rfl⟩ := List.mem_map.mp hr
    exact hc _ old hold
  | distributes stakerList clubName isFirstBatch isFinalBatch hmsg h => exact h.inClub ht hc

/-- One record at most, of the staker and filed under the club, is the shape of the stakes. -/
theorem Tidy.stakesOf (ht : Tidy staking) (hc : InClub staking)
    (hget : staking[(c, s)]? = some l) : StakesOf c s l := by
  have hl : stakesAt staking (c, s) = l := by
    rw [stakesAt, hget]
    rfl
  have hclub : ∀ r ∈ l, r.clubName = c := by
    rw [← hl]
    exact hc (c, s)
  rcases ht (c, s) with hnil | ⟨r, hr, hof⟩
  · rw [hnil] at hl
    subst hl
    exact ⟨Nat.zero_le _, hclub, by simp, by simp⟩
  · rw [hr] at hl
    subst hl
    exact ⟨le_rfl, hclub, by simpa using hof.staker, by simpa using hof.folded⟩

end Stakes

/-! ## The bonds -/

section Bonds

variable {api : Api} {q : Querier} {env : Env} {info : MessageInfo} {st st' : Storage}
  {r : Response Cw20.ExecuteMsg} {c s : String} {a limit : ℕ} {immediate : Bool}
  {bonds kept : List ClubBondingDetails}

/-- Bonds that are filed as some of the bonds of a staker have the shape of these. -/
theorem BondsOf.of_subperm (h : BondsOf c s limit bonds)
    (hkept : (kept.map ClubBondingDetails.filing).Subperm
      (bonds.map ClubBondingDetails.filing)) : BondsOf c s limit kept := by
  have hold : ∀ b ∈ kept, ∃ old ∈ bonds, old.filing = b.filing := by
    intro b hb
    exact List.mem_map.mp (hkept.subset (List.mem_map_of_mem hb))
  refine ⟨fun b hb => ?_, fun b hb => ?_, ?_⟩
  · obtain ⟨old, hmem, hfiling⟩ := hold b hb
    rw [← h.clubName old hmem]
    exact (congrArg ClubBondingDetails.clubName hfiling).symm
  · obtain ⟨old, hmem, hfiling⟩ := hold b hb
    rw [← h.bonderAddress old hmem]
    exact (congrArg ClubBondingDetails.bonderAddress hfiling).symm
  · have hlength := hkept.length_le
    rw [List.length_map, List.length_map] at hlength
    exact hlength.trans h.limited

/-- A bond is only added while there are fewer than the limit. -/
theorem withdrawToBond_limited (h : withdrawToBond env info st s c a = .ok (st', r)) :
    (st.bonds c s).length < st.config.maxBondingLimitPerUser := by
  unfold withdrawToBond at h
  obtain ⟨-, h⟩ := refuseGeneric_bind_eq_ok.mp h
  obtain ⟨hlimit, -⟩ := refuseGeneric_bind_eq_ok.mp h
  exact not_le.mp hlimit

/-- **A withdrawal** saves bonds of the shape under its key alone. -/
theorem withdrawStakeFromAClub_bondsOf
    (h : withdrawStakeFromAClub api q env info st s c a immediate = .ok (st', r))
    (hbonds : BondsOf c s st.config.maxBondingLimitPerUser (st.bonds c s)) :
    ∃ kept, st'.bonding = st.bonding.insert (c, s) kept ∧
      BondsOf c s st.config.maxBondingLimitPerUser kept := by
  obtain ⟨-, -, ⟨-, stakerAddr, hpaid⟩ | ⟨-, hbonded⟩⟩ := withdrawStakeFromAClub_cases h
  · cases withdrawImmediately_bonds hpaid with
    | pays kept hst hfiled hle hpaid hr => exact ⟨kept, hst, hbonds.of_subperm hfiled⟩
  · have hlimited := withdrawToBond_limited hbonded
    cases withdrawToBond_bonds hbonded with
    | bonds hst hr =>
      refine ⟨_, hst, fun b hb => ?_, fun b hb => ?_, ?_⟩
      · rcases List.mem_append.mp hb with hb | hb
        · exact hbonds.clubName b hb
        · rw [List.mem_singleton.mp hb]
      · rcases List.mem_append.mp hb with hb | hb
        · exact hbonds.bonderAddress b hb
        · rw [List.mem_singleton.mp hb]
      · rw [List.length_append, List.length_singleton]
        exact hlimited

end Bonds

/-! ## Runs -/

/-- The bonds under every key have their shape. -/
def BondsFiled (st : Storage) : Prop :=
  ∀ clubName bonder,
    BondsOf clubName bonder st.config.maxBondingLimitPerUser (st.bonds clubName bonder)

section Runs

variable {api : Api} {c : Call} {st st' : Storage} {r : Response Cw20.ExecuteMsg}

/-- **One step** keeps the shape of the bonds. -/
theorem exec_bondsFiled (hb : BondsFiled st) (h : exec api st c = some (st', r)) :
    BondsFiled st' := by
  intro clubName' bonder
  rw [exec_config h]
  rcases exec_bonding h with ⟨-, hbonding⟩ | ⟨staker, clubName, amount, immediate, hmsg, hw⟩
  · rw [Storage.bonds, hbonding]
    exact hb clubName' bonder
  · have hexec := exec_eq_some.mp h
    rw [hmsg] at hexec
    obtain ⟨kept, hst, hkept⟩ := withdrawStakeFromAClub_bondsOf hexec (hb clubName staker)
    by_cases hk : (clubName, staker) = (clubName', bonder)
    · cases hk
      rw [bonds_insert_self (clubName', bonder) kept hst]
      exact hkept
    · rw [hw.bonds_of_ne hk]
      exact hb clubName' bonder

theorem Initial.bondsFiled (h : Initial api st) : BondsFiled st := by
  obtain ⟨config, next, rfl⟩ := h.eq
  intro clubName bonder
  change BondsOf clubName bonder _ []
  exact ⟨by simp, by simp, Nat.zero_le _⟩

/-- In every run the stakes and the bonds name the club and the user that they are stored under. -/
theorem run_filed (hinit : Initial api st) (cs : List Call) : Tidy (run (exec api) st cs).staking ∧
    InClub (run (exec api) st cs).staking ∧ BondsFiled (run (exec api) st cs) := by
  refine run_preserves (I := fun s => Tidy s.staking ∧ InClub s.staking ∧ BondsFiled s) ?_ ?_ cs
  · rintro s c s' r ⟨ht, hc, hf⟩ h
    exact ⟨exec_tidy ht h, (exec_effect ht h).inClub ht hc, exec_bondsFiled hf h⟩
  · rw [hinit.spec.1]
    exact ⟨tidy_empty, inClub_empty, hinit.bondsFiled⟩

end Runs

/-- **The records are well formed in every run**: the stakes of a staker in a club are one record at
most, and they and the bonds name the club and the staker that they are stored under. -/
theorem run_wellFormed (api : Api) (st : Storage) (hinit : Initial api st) (cs : List Call) :
    WellFormed (run (exec api) st cs) := by
  obtain ⟨ht, hc, hb⟩ := run_filed hinit cs
  refine ⟨fun clubName staker stakes hget => ht.stakesOf hc hget,
    fun clubName bonder bonds hget => ?_⟩
  have hbonds : (run (exec api) st cs).bonds clubName bonder = bonds := by
    rw [Storage.bonds, hget]
    rfl
  rw [← hbonds]
  exact hb clubName bonder

open Sample in
/-- A stake and what is left of two bonds. -/
theorem run_wellFormed_sample :
    ((run (exec api) storage Sample.bonds).bonds "club" "alice").length = 2 ∧
      WellFormed (run (exec api) storage Sample.bonds) :=
  ⟨by decide +kernel, run_wellFormed api storage initial Sample.bonds⟩

end Clubstaking
