import LiquidityContracts.Staking.Effect

/-!
# Claims of rewards

What a staker has not claimed never exceeds what the distributions have credited. A claim should
pay it once: afterwards nothing is pending, and a second claim without a distribution in between
fails. The claim saves the records as they were loaded, with their rewards, so the law fails with
the first claim that is accepted.

## Main definitions

* `credited`, `paid`: what a call credits to a stake's reward, and what a claim pays for it
* `PaysOnce`: the law of the claims of a run
* `Claimable`: a claim finds a pending reward and the fees attached

## Main results

* `pending_le_credited`: what is pending is within what was credited
* `isSome_exec_claim`: a claim is accepted exactly when it is claimable
* `paysOnce_iff`: the law holds of the runs without a claimable claim
* `not_paysOnce`: a run that pays a reward twice
-/

namespace Clubstaking

open CosmWasm

/-- The rewards of some credits that are left to be claimed under a key. -/
def creditedTo (k : String × String) (l : List Credit) : ℕ :=
  ((l.filter fun x => (x.clubName, x.stakerAddress) = k ∧ x.autoStake = false).map (·.reward)).sum

/-- What a call credits to the reward of a stake. -/
def credited (api : Api) (k : String × String) (st : Storage) (c : Call) : ℕ :=
  creditedTo k (credits api st c)

/-- The claim of a staker's reward. -/
def claimMsg (k : String × String) : ExecuteMsg := .claimStakerRewards k.2 k.1

/-- The FURY that the messages of a response transfer. -/
def furyTransferred (r : Response Cw20.ExecuteMsg) : ℕ :=
  (r.messages.map fun
    | .wasmExecute _ (.transfer _ amount) _ => amount
    | _ => 0).sum

/-- What a call pays as a claim of a stake's reward. -/
def paid (api : Api) (k : String × String) (st : Storage) (c : Call) : ℕ :=
  if c.msg = claimMsg k then ((exec api st c).map fun x => furyTransferred x.2).getD 0 else 0

/-- An accepted distribution. -/
def Distributes (api : Api) (st : Storage) (c : Call) : Prop :=
  (exec api st c).isSome ∧ ∃ stakerList clubName isFirstBatch isFinalBatch,
    c.msg = .calculateAndDistributeRewards stakerList clubName isFirstBatch isFinalBatch

/-- The reward of a stake is paid once in a run. -/
structure PaysOnce (api : Api) (k : String × String) (st : Storage) (cs : List Call) : Prop where
  /-- At any time no more is paid than was credited. -/
  covered : ∀ n, tally (exec api) (paid api k) st (cs.take n) ≤
    tally (exec api) (credited api k) st (cs.take n)
  /-- After an accepted claim nothing is pending. -/
  settled : ∀ x ∈ history (exec api) st cs, x.2.msg = claimMsg k → (exec api x.1 x.2).isSome →
    queryStakerRewards (commit (exec api) x.1 x.2) k.2 k.1 = (.ok 0 : Exec ContractError ℕ)
  /-- Of two claims without a distribution in between the second fails. -/
  once : ∀ before first between second after,
    cs = before ++ first :: between ++ second :: after →
    first.msg = claimMsg k → second.msg = claimMsg k →
    (exec api (run (exec api) st before) first).isSome →
    (∀ x ∈ history (exec api) (run (exec api) st (before ++ [first])) between,
      ¬ Distributes api x.1 x.2) →
    exec api (run (exec api) st (before ++ first :: between)) second = none

/-- A claim is made by the staker, finds a pending reward and has the fees attached. -/
structure Claimable (api : Api) (k : String × String) (st : Storage) (c : Call) : Prop where
  sender : validate api k.2 = (.ok c.info.sender : Exec ContractError Addr)
  fees : checkFees c.q st c.info [] (claimMsg k) = .ok ()
  pending : ∃ amount, queryStakerRewards st k.2 k.1 = (.ok amount : Exec ContractError ℕ) ∧
    0 < amount

/-! ## What is pending -/

section Pending

variable {api : Api} {k : String × String} {terms : RewardTerms} {period : RewardPeriod}
  {c s : String} {stakers : List String} {st st' : Storage} {call : Call}
  {acc acc' : Store (String × String) (List ClubStakingDetails) × Given}
  {r : Response Cw20.ExecuteMsg}

theorem creditedTo_append (l l' : List Credit) :
    creditedTo k (l ++ l') = creditedTo k l + creditedTo k l' := by
  simp [creditedTo]

/-- A round leaves no more pending than there was, and what it credits. -/
theorem Round.pendingOf_le (h : Round terms period c acc acc' s) :
    pendingOf (stakesAt acc'.1 k) ≤ pendingOf (stakesAt acc.1 k) +
      creditedTo k (roundCredits terms period c acc.1 s) := by
  by_cases hk : (c, s) = k
  · subst hk
    rcases h.empties_or_credits with hacc | ⟨r, reward, hstakes, -, hle, hreward, hacc⟩
    · rw [hacc, stakesAt_insert, if_pos rfl]
      exact Nat.zero_le _
    · rw [hacc, stakesAt_insert, if_pos rfl, hstakes, pendingOf_singleton, pendingOf_singleton,
        roundCredits, hstakes, List.filterMap_cons, creditOf, if_neg (not_lt.mpr hle), hreward,
        ClubStakingDetails.credit]
      split
      · exact Nat.zero_le _
      · rename_i hauto
        simp [creditedTo, hauto, Except.toOption]
  · rw [h.stakes_of_ne hk]
    exact Nat.le_add_right _ _

theorem foldlM_pendingOf_le (h : stakers.foldlM (creditStaker terms period c) acc = .ok acc')
    (ht : Tidy acc.1) : pendingOf (stakesAt acc'.1 k) ≤ pendingOf (stakesAt acc.1 k) +
      creditedTo k (creditsOver terms period c acc stakers) := by
  induction stakers generalizing acc with
  | nil =>
    cases h
    exact Nat.le_add_right _ _
  | cons staker stakers ih =>
    obtain ⟨acc₁, hround, ht₁, h, hcredits⟩ := foldlM_creditStaker_cons h ht
    have hrest := ih h ht₁
    have hfirst := hround.pendingOf_le (k := k)
    rw [hcredits, creditedTo_append]
    omega

/-- **One step** leaves no more pending than there was, and what it credits. -/
theorem exec_pendingOf_le (ht : Tidy st.staking) (h : exec api st call = some (st', r)) :
    pendingOf (stakesAt st'.staking k) ≤ pendingOf (stakesAt st.staking k) +
      credited api k st call := by
  cases exec_effect ht h with
  | same hsame =>
    rw [hsame.stakes]
    exact Nat.le_add_right _ _
  | opens clubName buyer autoStake hnone hopens =>
    exact (hopens.pendingOf_le ht k).trans (Nat.le_add_right _ _)
  | increases clubName is hmsg hincreases =>
    exact (hincreases.pendingOf_le ht k).trans (Nat.le_add_right _ _)
  | decreases clubName staker amount hle hsome hstaked hreplaces =>
    rw [hreplaces.stakes]
    split
    -- a withdrawal lowers stakes, and leaves what is pending
    · rename_i hk
      rw [← hk, pendingOf, List.map_map]
      exact Nat.le_add_right _ _
    · exact Nat.le_add_right _ _
  | distributes stakerList clubName isFirstBatch isFinalBatch hmsg hbatch =>
    cases hbatch with
    | idle next hreward hst =>
      rw [hst]
      exact Nat.le_add_right _ _
    | runs next ranked winning owner terms staking given hreward hranking howner hterms hbatch
        hloop hst =>
      rw [credited, credits_of_batch (by rw [h]; rfl) hmsg hreward hbatch, hst]
      exact foldlM_pendingOf_le hloop ht

/-- **What is pending** is within what the distributions of the run have credited. -/
theorem pending_le_credited (hinit : Initial api st) (cs : List Call) (k : String × String) :
    pendingOf (stakesAt (run (exec api) st cs).staking k) ≤
      tally (exec api) (credited api k) st cs := by
  have hstaking := hinit.spec.1
  have hle := run_le_tally (I := fun st => Tidy st.staking)
    (q := fun st => pendingOf (stakesAt st.staking k)) (f := credited api k)
    (fun _ _ _ _ ht h => ⟨exec_tidy ht h, exec_pendingOf_le ht h⟩)
    (by rw [hstaking]; exact tidy_empty) cs
  rw [hstaking, stakesAt_empty, pendingOf_nil, Nat.zero_add] at hle
  exact hle.2

end Pending

/-! ## The law -/

section Law

variable {api : Api} {k : String × String} {st st' : Storage} {c : Call}
  {r : Response Cw20.ExecuteMsg}

/-- A claim is accepted exactly when it is claimable. -/
theorem isSome_exec_claim (hmsg : c.msg = claimMsg k) :
    (exec api st c).isSome ↔ Claimable api k st c := by
  constructor
  · intro h
    obtain ⟨⟨st', r⟩, h⟩ := Option.isSome_iff_exists.mp h
    rw [exec_eq_some, hmsg] at h
    obtain ⟨hsender, hfees, amount, hamount, hpos, -, -⟩ := claimStakerRewards_spec h
    exact ⟨hsender, hfees, amount, hamount, hpos⟩
  · rintro ⟨hsender, hfees, amount, hamount, hpos⟩
    -- some record of the staker is found, as its reward is not zero
    have hown : ¬ (st.stakes k.1 k.2).filter (fun stake => stake.stakerAddress = k.2) = [] := by
      intro hnil
      rw [queryStakerRewards, hnil] at hamount
      cases hamount
      exact absurd hpos (lt_irrefl 0)
    have hclaim : ∃ x, claimStakerRewards api c.q c.info st k.2 k.1 = .ok x :=
      ⟨_, bind_eq_ok.mpr ⟨_, hsender, refuse_bind_eq_ok.mpr ⟨not_not_intro rfl,
        bind_eq_ok.mpr ⟨_, hfees, bind_eq_ok.mpr ⟨_, hamount,
          refuseGeneric_bind_eq_ok.mpr ⟨hown,
            refuseGeneric_bind_eq_ok.mpr ⟨hpos.ne', rfl⟩⟩⟩⟩⟩⟩⟩
    obtain ⟨⟨st', r⟩, hclaim⟩ := hclaim
    refine Option.isSome_iff_exists.mpr ⟨(st', r), exec_eq_some.mpr ?_⟩
    rw [hmsg]
    exact hclaim

/-- An accepted claim leaves the pending reward as it was. -/
theorem queryStakerRewards_after_claim (hmsg : c.msg = claimMsg k)
    (h : exec api st c = some (st', r)) :
    queryStakerRewards st' k.2 k.1 = (queryStakerRewards st k.2 k.1 : Exec ContractError ℕ) := by
  rw [exec_eq_some, hmsg] at h
  have hstakes := (same_of_claim h).stakes (k.1, k.2)
  rw [queryStakerRewards, queryStakerRewards, Storage.stakes, Storage.stakes, hstakes]

theorem tally_paid_eq_zero {cs : List Call}
    (h : ∀ x ∈ history (exec api) st cs, x.2.msg = claimMsg k → exec api x.1 x.2 = none) :
    tally (exec api) (paid api k) st cs = 0 := by
  refine tally_eq_zero fun x hx => ?_
  unfold paid
  split
  · rename_i hmsg
    rw [h x hx hmsg]
    rfl
  · rfl

end Law

/-- **The reward of a stake is paid once** exactly in the runs in which no claim for it is
claimable: an accepted claim leaves pending what it pays. -/
theorem paysOnce_iff (api : Api) (k : String × String) (st : Storage) (cs : List Call) :
    PaysOnce api k st cs ↔
      ∀ x ∈ history (exec api) st cs, x.2.msg = claimMsg k → ¬ Claimable api k x.1 x.2 := by
  constructor
  · intro hlaw x hx hmsg hclaimable
    have haccepted := (isSome_exec_claim hmsg).mpr hclaimable
    -- the claim is accepted, pays, and leaves what it has paid
    have hzero := hlaw.settled x hx hmsg haccepted
    obtain ⟨r, hexec⟩ := exists_commit haccepted
    obtain ⟨amount, hamount, hpos⟩ := hclaimable.pending
    rw [queryStakerRewards_after_claim hmsg hexec, hamount] at hzero
    cases hzero
    exact absurd hpos (lt_irrefl 0)
  · intro h
    -- no claim gets through, so that none pays
    have hrejected : ∀ x ∈ history (exec api) st cs, x.2.msg = claimMsg k →
        exec api x.1 x.2 = none := by
      intro x hx hmsg
      have hnot := mt (isSome_exec_claim hmsg).mp (h x hx hmsg)
      exact Option.not_isSome_iff_eq_none.mp hnot
    refine ⟨fun n => ?_, fun x hx hmsg haccepted => ?_, ?_⟩
    · rw [tally_paid_eq_zero fun x hx => hrejected x (history_subset (List.take_prefix n cs) hx)]
      exact Nat.zero_le _
    · rw [hrejected x hx hmsg] at haccepted
      cases haccepted
    · rintro before first between second after rfl - hmsg - -
      refine hrejected (_, second) ?_ hmsg
      rw [history_append]
      exact List.mem_append_right _ List.mem_cons_self

open Sample in
/-- **A claim pays again what was claimed**: 19400 is paid of the 9700 that were credited. -/
theorem not_paysOnce :
    ¬ ∀ (api : Api) (k : String × String) (st : Storage) (cs : List Call), Initial api st →
      PaysOnce api k st cs := by
  intro h
  have hcovered := (h api ("club", "alice") storage (opened 10000 ++
    [stake 2 "alice" 500 false, batch 101 ["alice"], claim 102 "alice", claim 103 "alice"])
    initial).covered 6
  exact absurd hcovered (by decide +kernel)

end Clubstaking
