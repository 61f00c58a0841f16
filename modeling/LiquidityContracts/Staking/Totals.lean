import LiquidityContracts.Staking.Effect

/-!
# The total of a club and its stakes

A club records the total staked on it, next to the records of its stakers. Two of the writers move
one without the other: an increase with auto-stake stakes the pending reward and does not add it to
the total, and a distribution that loses a record does not subtract it. Over runs in which neither
happens the two agree.

## Main definitions

* `Agrees`: each club's total is the sum of its stakes
* `FoldsNothing`, `LosesNothing`: a call does neither of the two

## Main results

* `Increases.agrees`, `Batch.agrees`: the writers keep the agreement
* `run_total_eq_stakedIn`: the total is the sum of the stakes
* `total_ne_stakedIn`: a run that stakes a pending reward
-/

namespace Clubstaking

open CosmWasm

/-- The total of each club is the sum of its stakes. -/
def Agrees (st : Storage) : Prop := ∀ clubName, st.total clubName = stakedIn st.staking clubName

/-- No increase with auto-stake finds a reward of the staker that is pending. -/
def FoldsNothing (st : Storage) (c : Call) : Prop :=
  ∀ x ∈ c.msg.increases, x.2.autoStake = true →
    pendingOf (stakesAt st.staking (x.1, x.2.staker)) = 0

/-- No record is lost in a distribution. -/
def LosesNothing (st : Storage) (c : Call) : Prop :=
  match c.msg with
  | .calculateAndDistributeRewards stakerList clubName _ _ =>
    st.reward.getD 0 = 0 ∨ Keeps (rewardPeriod st c.env) clubName st.staking stakerList
  | _ => True

instance (st : Storage) (c : Call) : Decidable (FoldsNothing st c) :=
  inferInstanceAs (Decidable (∀ x ∈ c.msg.increases, _ → _))

instance (st : Storage) (c : Call) : Decidable (LosesNothing st c) := by
  unfold LosesNothing
  split
  · infer_instance
  · infer_instance

/-! ## Increases -/

section Increases

variable {env : Env} {c : String} {i : Increase} {is : List Increase} {st st₁ st' : Storage}

/-- A change of the records under one key that moves the total by the same amount. -/
theorem Agrees.replace {k : String × String} {l : List ClubStakingDetails} {t : ℕ}
    (ha : Agrees st) (h : Replaces k l t st st')
    (ht : t + stakedOf (stakesAt st.staking k) = st.total k.1 + stakedOf l) : Agrees st' := by
  intro d
  have hsum := stakedIn_replaces (c := d) h.stakes
  have hd := ha d
  rw [h.total]
  by_cases hk : k.1 = d
  · rw [if_pos hk, if_pos hk] at hsum
    rw [if_pos hk]
    rw [hk] at ht
    omega
  · rw [if_neg hk, if_neg hk] at hsum
    rw [if_neg hk]
    omega

/-- **Increases keep the agreement** when none stakes a pending reward. -/
theorem Increases.agrees (h : Increases env c is st st') (ht : Tidy st.staking) (ha : Agrees st)
    (hfold : ∀ i ∈ is, i.autoStake = true →
      pendingOf (stakesAt st.staking (c, i.staker)) = 0) : Agrees st' := by
  induction h with
  | nil h =>
    intro d
    rw [h.total, stakedIn_congr h.stakes]
    exact ha d
  | @cons i is st st₁ st' h hrest ih =>
    have htidy := ht.replace h.stakes (.inr (increased_isOf ht))
    refine ih htidy (ha.replace h ?_) fun j hj hauto => ?_
    · rw [stakedOf_increased ht]
      -- what is pending is staked only with auto-stake, and is nothing then
      have hzero : (if i.autoStake then pendingOf (stakesAt st.staking (c, i.staker)) else 0) = 0 := by
        split
        · rename_i hauto
          exact hfold i List.mem_cons_self hauto
        · rfl
      dsimp only
      omega
    · have hle := (Increases.single h).pendingOf_le ht (c, j.staker)
      rw [hfold j (List.mem_cons_of_mem _ hj) hauto] at hle
      exact Nat.le_zero.mp hle

end Increases

/-! ## Distributions -/

section Distributions

variable {terms : RewardTerms} {period : RewardPeriod} {c s : String} {stakers : List String}
  {acc acc' : Store (String × String) (List ClubStakingDetails) × Given}

/-- A round that loses no record adds to the stakes of its club what it adds to be staked. -/
theorem Round.stakedIn (h : Round terms period c acc acc' s)
    (hkeeps : Keeps period c acc.1 (s :: stakers)) (d : String) :
    Clubstaking.stakedIn acc'.1 d + (if c = d then acc.2.stakeToAddForClub else 0) =
      Clubstaking.stakedIn acc.1 d + (if c = d then acc'.2.stakeToAddForClub else 0) := by
  cases h with
  | absent hstakes hacc =>
    have hsum := stakedIn_insert acc.1 (c, s) [] d
    rw [hstakes, stakedOf_nil, ite_self, Nat.add_zero, Nat.add_zero] at hsum
    rw [hacc, hsum]
  | loses r hstakes hlt hacc => exact absurd hlt (hkeeps.head hstakes)
  | credits r reward hstakes hof hle hreward hacc =>
    have hsum := stakedIn_insert acc.1 (c, s) [r.credit period.newStart reward] d
    rw [hstakes, stakedOf_singleton, stakedOf_singleton] at hsum
    have hstaked : (r.credit period.newStart reward).stakedAmount =
        r.stakedAmount + if r.autoStake then reward else 0 := by
      unfold ClubStakingDetails.credit
      split
      · rename_i hauto
        -- with auto-stake there is no reward that has been left to be claimed
        change r.stakedAmount + reward + r.rewardAmount = _
        rw [hof.folded hauto, Nat.add_zero]
      · rfl
    rw [hacc]
    dsimp only at hsum ⊢
    by_cases hd : c = d
    · rw [if_pos hd, if_pos hd] at hsum ⊢
      omega
    · rw [if_neg hd, if_neg hd] at hsum ⊢
      omega

/-- The loop adds to the stakes of its club what it adds to be staked. -/
theorem foldlM_stakedIn (h : stakers.foldlM (creditStaker terms period c) acc = .ok acc')
    (ht : Tidy acc.1) (hkeeps : Keeps period c acc.1 stakers) (d : String) :
    stakedIn acc'.1 d + (if c = d then acc.2.stakeToAddForClub else 0) =
      stakedIn acc.1 d + (if c = d then acc'.2.stakeToAddForClub else 0) := by
  have hrule := foldlM_remaining
    (I := fun stakers acc₁ => Tidy acc₁.1 ∧ Keeps period c acc₁.1 stakers ∧
      stakedIn acc₁.1 d + (if c = d then acc.2.stakeToAddForClub else 0) =
        stakedIn acc.1 d + (if c = d then acc₁.2.stakeToAddForClub else 0))
    ?_ ⟨ht, hkeeps, rfl⟩ h
  · exact hrule.2.2
  · rintro s stakers acc₁ acc₂ ⟨ht, hkeeps, hsum⟩ hround
    have hr := creditStaker_round ht hround
    have hstep := hr.stakedIn hkeeps d
    exact ⟨hr.tidy ht, hkeeps.tail hr, by omega⟩

/-- **A batch keeps the agreement** when it loses no record. -/
theorem Batch.agrees {env : Env} {st st' : Storage} {isFirstBatch isFinalBatch : Bool}
    (h : Batch env st st' stakers c isFirstBatch isFinalBatch) (ht : Tidy st.staking)
    (ha : Agrees st)
    (hkeeps : st.reward.getD 0 = 0 ∨ Keeps (rewardPeriod st env) c st.staking stakers) :
    Agrees st' := by
  cases h with
  | idle next hreward hst =>
    rw [hst]
    exact ha
  | runs next ranked winning owner terms staking given hreward hranking howner hterms hbatch hloop
      hst =>
    rw [hst]
    intro d
    have hsum := foldlM_stakedIn hloop ht (hkeeps.resolve_left hreward) d
    have hd := ha d
    change Store.weigh _ _ _ = stakedIn staking d
    rw [Store.weigh_insert]
    dsimp only at hsum
    -- the total of this club grows by what its stakers add, the other totals stay
    by_cases hcd : c = d
    · rw [if_pos hcd, if_pos hcd] at hsum
      rw [if_pos hcd]
      rw [← hcd, total_of_get howner, hcd] at hd
      dsimp only
      omega
    · rw [if_neg hcd, if_neg hcd] at hsum
      rw [if_neg hcd]
      exact hd.trans hsum.symm

end Distributions

/-! ## Runs -/

section Runs

variable {api : Api} {c : Call} {st st' : Storage} {r : Response Cw20.ExecuteMsg}

/-- **One step** keeps the agreement when it stakes no pending reward and loses no record. -/
theorem exec_agrees (ht : Tidy st.staking) (ha : Agrees st) (hfold : FoldsNothing st c)
    (hlose : LosesNothing st c) (h : exec api st c = some (st', r)) : Agrees st' := by
  cases exec_effect ht h with
  | same h =>
    intro d
    rw [h.total, stakedIn_congr h.stakes]
    exact ha d
  | opens clubName buyer autoStake hnone h =>
    refine h.agrees ht ha fun i hi _ => ?_
    rw [List.mem_singleton.mp hi, hnone]
    rfl
  | increases clubName is hmsg h =>
    refine h.agrees ht ha fun i hi hauto => ?_
    exact hfold (clubName, i) (by rw [hmsg]; exact List.mem_map_of_mem hi) hauto
  | decreases clubName staker amount hle hsome hstaked h =>
    refine ha.replace h ?_
    rcases ht (clubName, staker) with hnil | ⟨r, hr, -⟩
    · exact absurd hnil hsome
    -- the record loses what the total loses
    · have hamount := hstaked r (by rw [hr]; exact List.mem_singleton.mpr rfl)
      rw [hr, List.map_singleton, stakedOf_singleton, stakedOf_singleton,
        ClubStakingDetails.decrease]
      dsimp only
      omega
  | distributes stakerList clubName isFirstBatch isFinalBatch hmsg h =>
    refine h.agrees ht ha ?_
    rw [LosesNothing, hmsg] at hlose
    exact hlose

/-- A record's stake is within the sum of the stakes of its club. -/
theorem stakedAmount_le_stakedIn {clubName staker : String} {r : ClubStakingDetails}
    (hr : r ∈ st.stakes clubName staker) : r.stakedAmount ≤ stakedIn st.staking clubName := by
  have hweigh := Store.weigh_le_total
    (fun k stakes => if k.1 = clubName then stakedOf stakes else 0) st.staking (clubName, staker)
  rw [weigh_stakes, if_pos rfl] at hweigh
  have hmem : r.stakedAmount ≤ stakedOf (stakesAt st.staking (clubName, staker)) :=
    List.single_le_sum (fun _ _ => Nat.zero_le _) _ (List.mem_map_of_mem hr)
  exact hmem.trans hweigh

end Runs

/-- **The total of a club is the sum of its stakes**, and so covers each of them, in every run in
which no accepted call stakes a pending reward or loses a record. -/
theorem run_total_eq_stakedIn (api : Api) (st : Storage) (cs : List Call) (hinit : Initial api st)
    (hsteps : ∀ x ∈ history (exec api) st cs, (exec api x.1 x.2).isSome →
      FoldsNothing x.1 x.2 ∧ LosesNothing x.1 x.2) :
    ∀ clubName owner, (run (exec api) st cs).ownership[clubName]? = some owner →
      owner.totalStakedAmount = stakedIn (run (exec api) st cs).staking clubName ∧
      ∀ staker, ∀ r ∈ (run (exec api) st cs).stakes clubName staker,
        r.stakedAmount ≤ owner.totalStakedAmount := by
  obtain ⟨hstaking, hownership, -⟩ := hinit.spec
  -- the totals agree with the stakes all along, as the store stays tidy
  have hagrees : Tidy (run (exec api) st cs).staking ∧ Agrees (run (exec api) st cs) := by
    refine run_invariant (I := fun st => Tidy st.staking ∧ Agrees st)
      (P := fun st c => (exec api st c).isSome → FoldsNothing st c ∧ LosesNothing st c)
      ?_ ⟨?_, ?_⟩ hsteps
    · rintro st c st' r ⟨ht, ha⟩ hstep h
      obtain ⟨hfold, hlose⟩ := hstep (by rw [h]; rfl)
      exact ⟨exec_tidy ht h, exec_agrees ht ha hfold hlose h⟩
    · rw [hstaking]
      exact tidy_empty
    · intro d
      rw [Storage.total, hownership, hstaking, stakedIn, Store.total_empty]
      exact Store.weigh_of_none (Store.get_empty d)
  intro clubName owner howner
  have htotal : owner.totalStakedAmount = stakedIn (run (exec api) st cs).staking clubName := by
    rw [← total_of_get howner]
    exact hagrees.2 clubName
  refine ⟨htotal, fun staker r hr => ?_⟩
  rw [htotal]
  exact stakedAmount_le_stakedIn hr

namespace Sample

/-- A staker stakes, is given a reward, and stakes again. -/
def restaking (autoStake : Bool) : List Call :=
  opened 10000 ++ [stake 2 "alice" 500 false, batch 101 ["alice"], stake 102 "alice" 100 autoStake]

end Sample

open Sample in
/-- Without auto-stake the reward is left to be claimed. -/
theorem run_total_eq_stakedIn_sample :
    ((run (exec api) storage (restaking false)).ownership["club"]?).map (·.totalStakedAmount) =
      some (stakedIn (run (exec api) storage (restaking false)).staking "club") := by
  obtain ⟨owner, howner⟩ := Option.isSome_iff_exists.mp
    (show ((run (exec api) storage (restaking false)).ownership["club"]?).isSome by decide +kernel)
  rw [howner]
  exact congrArg some
    (run_total_eq_stakedIn api storage (restaking false) initial (by decide +kernel) "club" owner
      howner).1

open Sample in
/-- **A pending reward that is staked is not added to the total**: the club records 600, and the
record of the staker holds 10300. -/
theorem total_ne_stakedIn :
    ¬ ∀ (api : Api) (st : Storage) (cs : List Call), Initial api st → ∀ clubName owner,
      (run (exec api) st cs).ownership[clubName]? = some owner →
      owner.totalStakedAmount = stakedIn (run (exec api) st cs).staking clubName := by
  intro h
  obtain ⟨owner, howner⟩ := Option.isSome_iff_exists.mp
    (show ((run (exec api) storage (restaking true)).ownership["club"]?).isSome by decide +kernel)
  have htotal := h api storage (restaking true) initial "club" owner howner
  have hne : ((run (exec api) storage (restaking true)).ownership["club"]?).map
      (·.totalStakedAmount) ≠
        some (stakedIn (run (exec api) storage (restaking true)).staking "club") := by
    decide +kernel
  rw [howner] at hne
  exact hne (congrArg some htotal)

end Clubstaking
