import LiquidityContracts.Staking.Effect

/-!
# What a distribution keeps

A distribution should remove no stake, and should not decrease what a stake and its pending reward
are worth. The loop over the records of a staker skips a record that starts in the future, and
what it skips it does not save: the record is lost. It happens exactly when a listed staker has a
record that starts after the block, or is listed more than once before the next period starts.

## Main definitions

* `Retains`: no record is removed or worth less

## Main results

* `foldlM_retains`, `foldlM_loses`: the loop over the stakers keeps its records, or loses one
* `distribution_retains_iff`: when a distribution retains all stakes
* `distribution_loses`: a staker who is listed twice loses the stake
-/

namespace Clubstaking

open CosmWasm

/-- No record is removed, and no record's stake and pending reward together decrease. -/
def Retains (staking staking' : Store (String × String) (List ClubStakingDetails)) : Prop :=
  ∀ k, ∀ r ∈ stakesAt staking k, ∃ r' ∈ stakesAt staking' k,
    r.stakedAmount + r.rewardAmount ≤ r'.stakedAmount + r'.rewardAmount

section Loop

variable {terms : RewardTerms} {period : RewardPeriod} {c s : String} {stakers : List String}
  {acc acc' : Store (String × String) (List ClubStakingDetails) × Given}

theorem Retains.trans {staking staking₁ staking' : Store (String × String) (List ClubStakingDetails)}
    (h : Retains staking staking₁) (h' : Retains staking₁ staking') :
    Retains staking staking' := by
  intro k r hr
  obtain ⟨r₁, hr₁, hle₁⟩ := h k r hr
  obtain ⟨r', hr', hle'⟩ := h' k r₁ hr₁
  exact ⟨r', hr', hle₁.trans hle'⟩

/-- A round that loses no record retains all. -/
theorem Round.retains (h : Round terms period c acc acc' s)
    (hkeeps : Keeps period c acc.1 (s :: stakers)) : Retains acc.1 acc'.1 := by
  intro k r hr
  -- only the record of this staker changes, and its worth grows by the reward
  by_cases hk : (c, s) = k
  · subst hk
    cases h with
    | absent hstakes hacc =>
      rw [hstakes] at hr
      cases hr
    | loses r₀ hstakes hlt hacc => exact absurd hlt (hkeeps.head hstakes)
    | credits r₀ reward hstakes hof hle hreward hacc =>
      rw [hstakes] at hr
      obtain rfl := List.mem_singleton.mp hr
      refine ⟨r.credit period.newStart reward, ?_, ?_⟩
      · rw [hacc, stakesAt_insert, if_pos rfl]
        exact List.mem_singleton.mpr rfl
      · rw [credit_value]
        exact Nat.le_add_right _ _
  · rw [← h.stakes_of_ne hk] at hr
    exact ⟨r, hr, le_rfl⟩

/-- **The loop retains all records** when none of a listed staker is lost. -/
theorem foldlM_retains (h : stakers.foldlM (creditStaker terms period c) acc = .ok acc')
    (ht : Tidy acc.1) (hkeeps : Keeps period c acc.1 stakers) : Retains acc.1 acc'.1 := by
  -- the rounds that remain keep their records, and those that are done have retained all
  have hrule := foldlM_remaining
    (I := fun stakers acc₁ => Tidy acc₁.1 ∧ Keeps period c acc₁.1 stakers ∧ Retains acc.1 acc₁.1)
    ?_ ⟨ht, hkeeps, fun _ r hr => ⟨r, hr, le_rfl⟩⟩ h
  · exact hrule.2.2
  · rintro s stakers acc₁ acc₂ ⟨ht, hkeeps, hretains⟩ hround
    have hr := creditStaker_round ht hround
    exact ⟨hr.tidy ht, hkeeps.tail hr, hretains.trans (hr.retains hkeeps)⟩

/-- The staker has no record, or has one that the rounds which remain lose. -/
def Loses (period : RewardPeriod) (c s : String)
    (staking : Store (String × String) (List ClubStakingDetails)) (stakers : List String) : Prop :=
  ∀ r ∈ stakesAt staking (c, s), s ∈ stakers ∧ period.now < r.stakingStartTimestamp ∨
    1 < stakers.count s ∧ period.now < period.newStart

theorem Loses.tail {s' : String} (hl : Loses period c s acc.1 (s' :: stakers))
    (h : Round terms period c acc acc' s') : Loses period c s acc'.1 stakers := by
  intro r' hr'
  by_cases hs : s' = s
  · subst hs
    rcases h.empties_or_credits with hacc | ⟨r, reward, hstakes, -, hle, -, hacc⟩
    · rw [hacc, stakesAt_insert, if_pos rfl] at hr'
      cases hr'
    · rw [hacc, stakesAt_insert, if_pos rfl] at hr'
      rcases hl r (by rw [hstakes]; exact List.mem_singleton.mpr rfl) with ⟨-, hlt⟩ | ⟨htwice, hlt⟩
      · exact absurd hlt (not_lt.mpr hle)
      · -- the credited record starts with the next period, and is found again
        rw [List.count_cons_self] at htwice
        rw [List.mem_singleton.mp hr', credit_start]
        exact .inl ⟨List.count_pos_iff.mp (by omega), hlt⟩
  · rw [h.stakes_of_ne (by rintro ⟨⟩; exact hs rfl)] at hr'
    rcases hl r' hr' with ⟨hmem, hlt⟩ | ⟨htwice, hlt⟩
    · exact .inl ⟨(List.mem_cons.mp hmem).resolve_left (Ne.symm hs), hlt⟩
    · rw [List.count_cons_of_ne hs] at htwice
      exact .inr ⟨htwice, hlt⟩

/-- **The loop loses** the record of such a staker. -/
theorem foldlM_loses (h : stakers.foldlM (creditStaker terms period c) acc = .ok acc')
    (ht : Tidy acc.1) (hl : Loses period c s acc.1 stakers) : stakesAt acc'.1 (c, s) = [] := by
  have hrule := foldlM_remaining
    (I := fun stakers acc₁ => Tidy acc₁.1 ∧ Loses period c s acc₁.1 stakers) ?_ ⟨ht, hl⟩ h
  · refine List.eq_nil_iff_forall_not_mem.mpr fun r hr => ?_
    rcases hrule.2 r hr with ⟨hmem, -⟩ | ⟨htwice, -⟩
    · cases hmem
    · exact absurd htwice (by simp)
  · rintro s' stakers acc₁ acc₂ ⟨ht, hl⟩ hround
    have hr := creditStaker_round ht hround
    exact ⟨hr.tidy ht, hl.tail hr⟩

/-- Where not all records are kept, a listed staker has one that is lost. -/
theorem exists_loses {staking : Store (String × String) (List ClubStakingDetails)}
    (ht : Tidy staking) (h : ¬ Keeps period c staking stakers) :
    ∃ s, (∃ r, r ∈ stakesAt staking (c, s)) ∧ Loses period c s staking stakers := by
  simp only [Keeps, not_forall] at h
  obtain ⟨s, hs, r, hr, hlost⟩ := h
  refine ⟨s, ⟨r, hr⟩, fun r' hr' => ?_⟩
  -- the staker has one record only
  have hsame : r' = r := by
    rcases ht (c, s) with hnil | ⟨r₀, hr₀, -⟩
    · rw [hnil] at hr
      cases hr
    · rw [hr₀] at hr hr'
      rw [List.mem_singleton.mp hr, List.mem_singleton.mp hr']
  rw [hsame]
  by_cases hlt : period.now < r.stakingStartTimestamp
  · exact .inl ⟨hs, hlt⟩
  · refine .inr ?_
    by_contra hc
    refine hlost ⟨not_lt.mp hlt, fun htwice => not_lt.mp fun hnext => hc ⟨htwice, hnext⟩⟩

end Loop

section Runs

variable {st st' : Storage} {env : Env} {stakerList : List String} {clubName : String}
  {isFirstBatch isFinalBatch : Bool}

/-- A batch retains all stakes exactly when there is no reward, or it keeps its records. -/
theorem Batch.retains_iff (h : Batch env st st' stakerList clubName isFirstBatch isFinalBatch)
    (ht : Tidy st.staking) : Retains st.staking st'.staking ↔
      st.reward.getD 0 = 0 ∨ Keeps (rewardPeriod st env) clubName st.staking stakerList := by
  cases h with
  | idle next hreward hst =>
    refine iff_of_true ?_ (.inl hreward)
    rw [hst]
    exact fun _ r hr => ⟨r, hr, le_rfl⟩
  | runs next ranked winning owner terms staking given hreward hranking howner hterms hbatch hloop
      hst =>
    rw [hst]
    constructor
    · intro hretains
      -- a list that does not keep its records loses one of them, and no later round restores it
      refine .inr (by_contra fun hlost => ?_)
      obtain ⟨s, ⟨r, hr⟩, hloses⟩ := exists_loses ht hlost
      obtain ⟨r', hr', -⟩ := hretains (clubName, s) r hr
      have hnil := foldlM_loses hloop ht hloses
      rw [hnil] at hr'
      cases hr'
    · intro h
      have hkeeps := h.resolve_left hreward
      exact foldlM_retains hloop ht hkeeps

end Runs

/-- **A distribution retains all stakes**, in a state that is reached by any run, exactly when
there is no reward to distribute, or no listed staker has a record that starts after the block or
is listed more than once before the next period starts. -/
theorem distribution_retains_iff (api : Api) (st : Storage) (cs : List Call) (c : Call)
    (stakerList : List String) (clubName : String) (isFirstBatch isFinalBatch : Bool)
    (hinit : Initial api st)
    (hmsg : c.msg = .calculateAndDistributeRewards stakerList clubName isFirstBatch isFinalBatch)
    (haccepted : (exec api (run (exec api) st cs) c).isSome) :
    Retains (run (exec api) st cs).staking
        (commit (exec api) (run (exec api) st cs) c).staking ↔
      (run (exec api) st cs).reward.getD 0 = 0 ∨
        Keeps (rewardPeriod (run (exec api) st cs) c.env) clubName (run (exec api) st cs).staking
          stakerList := by
  have ht := run_tidy hinit cs
  generalize run (exec api) st cs = before at *
  obtain ⟨r, hexec⟩ := exists_commit haccepted
  exact (exec_batch hexec hmsg).retains_iff ht

namespace Sample

/-- The owner opened the club, and a staker staked on it. -/
def staked : Storage := run (exec api) storage (opened 10000 ++ [stake 2 "alice" 500 false])

end Sample

open Sample in
/-- A staker who is listed once keeps the stake. -/
theorem distribution_retains_listed_once :
    Retains staked.staking (commit (exec api) staked (batch 101 ["alice"])).staking :=
  (distribution_retains_iff api storage (opened 10000 ++ [stake 2 "alice" 500 false])
    (batch 101 ["alice"]) ["alice"] "club" true false initial rfl (by decide +kernel)).mpr
    (.inr (by decide +kernel))

open Sample in
/-- **A staker who is listed twice loses the stake**: the first round moves its start to the next
period, and the second round skips it. -/
theorem distribution_loses :
    ¬ ∀ (api : Api) (st : Storage) (cs : List Call) (c : Call) (stakerList : List String)
      (clubName : String) (isFirstBatch isFinalBatch : Bool), Initial api st →
      c.msg = .calculateAndDistributeRewards stakerList clubName isFirstBatch isFinalBatch →
      (exec api (run (exec api) st cs) c).isSome →
      Retains (run (exec api) st cs).staking
        (commit (exec api) (run (exec api) st cs) c).staking := by
  intro h
  have hretains := h api storage (opened 10000 ++ [stake 2 "alice" 500 false])
    (batch 101 ["alice", "alice"]) ["alice", "alice"] "club" true false initial rfl
    (by decide +kernel)
  have hstake : ∃ r, r ∈ stakesAt staked.staking ("club", "alice") :=
    List.exists_mem_of_ne_nil _ (by decide +kernel)
  have hlost : stakesAt (commit (exec api) staked (batch 101 ["alice", "alice"])).staking
      ("club", "alice") = [] := by
    decide +kernel
  obtain ⟨r, hr⟩ := hstake
  obtain ⟨r', hr', -⟩ := hretains ("club", "alice") r hr
  change r' ∈ stakesAt (commit (exec api) staked (batch 101 ["alice", "alice"])).staking
    ("club", "alice") at hr'
  rw [hlost] at hr'
  cases hr'

end Clubstaking
