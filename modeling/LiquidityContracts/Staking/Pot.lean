import LiquidityContracts.Staking.Schedule

/-!
# The pot of rewards

The pot is filled by increases, and a final batch takes from it what a counter says was given. The
counter is set to zero by an increase and not by a final batch, so it counts what was given since
the last increase, whatever the cycle. The pot is right after every cycle that starts with an
increase and has no other once it has given something; a cycle without an increase of its own is
charged again for the cycles before it. In a run whose calls keep to the pots, and whose cycles are
counted, no more is credited than was filled into the pot.

## Main definitions

* `deposited`: what a call fills into the pot
* `cycleCredited`: what a cycle has credited when a call ends it
* `PotSettled`: after each cycle within its pot, the pot is what was filled less what was credited
* `Counted`: the counter tells what the cycle has credited
* `KeepsPots`: no call credits more, with its cycle so far, than is in the pot

## Main results

* `given_eq_since`: the counter tells what was credited since the last increase
* `reward_add_credited`: between the ends of the cycles the pot is short of nothing but the cycle
* `potSettled_iff`: the pot is settled in the runs whose cycles are counted
* `not_potSettled`: a run with two cycles and one increase
* `credited_le_deposited`: no more is credited than is filled into the pot
* `KeepsPots.append_cycle`, `Counted.append_cycle`: a cycle by its ranking keeps both
-/

namespace Clubstaking

open CosmWasm

/-- The amount that a call fills into the pot. -/
def deposited (api : Api) (st : Storage) (c : Call) : ℕ :=
  match c.msg with
  | .increaseRewardAmount _ amount => if (exec api st c).isSome then amount else 0
  | _ => 0

/-- Whether a message fills the pot. -/
def ExecuteMsg.isIncrease : ExecuteMsg → Bool
  | .increaseRewardAmount _ _ => true
  | _ => false

/-- The pot is filled. -/
def FillsPot (api : Api) (st : Storage) (c : Call) : Prop :=
  (exec api st c).isSome ∧ c.msg.isIncrease = true

instance (api : Api) (st : Storage) (c : Call) : Decidable (FillsPot api st c) :=
  inferInstanceAs (Decidable (_ ∧ _))

section Laws

variable (api : Api) (st : Storage)

/-- What was credited in the cycle of the call `c`, with `c`. -/
def cycleCredited (before : List Call) (c : Call) : ℕ :=
  since (exec api) (ClosesCycle api) (rewardCredited api) st before +
    rewardCredited api (run (exec api) st before) c

/-- Every cycle that a run ends has credited no more than its pot. -/
def WithinPots (cs : List Call) : Prop :=
  Along (fun before c => ClosesCycle api (run (exec api) st before) c →
    cycleCredited api st before c ≤ (run (exec api) st before).pot) cs

/-- Right after every final batch whose cycle is within its pot, the pot is what was filled into
it less what was credited to stakes. -/
def PotSettled (cs : List Call) : Prop :=
  Along (fun before c => ClosesCycle api (run (exec api) st before) c →
    cycleCredited api st before c ≤ (run (exec api) st before).pot →
    (run (exec api) st (before ++ [c])).pot +
        tally (exec api) (rewardCredited api) st (before ++ [c]) =
      tally (exec api) (deposited api) st (before ++ [c])) cs

/-- At every final batch the contract has counted what the cycle has credited so far, neither less
nor more; where the cycle credits the whole pot it may have counted more. -/
def Counted (cs : List Call) : Prop :=
  Along (fun before c => ClosesCycle api (run (exec api) st before) c →
    since (exec api) (FillsPot api) (rewardCredited api) st before =
        since (exec api) (ClosesCycle api) (rewardCredited api) st before ∨
      cycleCredited api st before c = (run (exec api) st before).pot ∧
        since (exec api) (ClosesCycle api) (rewardCredited api) st before ≤
          since (exec api) (FillsPot api) (rewardCredited api) st before) cs

/-- No accepted call credits more, with what its cycle has credited before, than is in the pot. -/
def KeepsPots (cs : List Call) : Prop :=
  Along (fun before c => (exec api (run (exec api) st before) c).isSome →
    cycleCredited api st before c ≤ (run (exec api) st before).pot) cs

instance (cs : List Call) : Decidable (WithinPots api st cs) :=
  inferInstanceAs (Decidable (Along _ cs))

instance (cs : List Call) : Decidable (PotSettled api st cs) :=
  inferInstanceAs (Decidable (Along _ cs))

instance (cs : List Call) : Decidable (Counted api st cs) :=
  inferInstanceAs (Decidable (Along _ cs))

instance (cs : List Call) : Decidable (KeepsPots api st cs) :=
  inferInstanceAs (Decidable (Along _ cs))

end Laws

section Calls

variable {api : Api} {c : Call} {st st' : Storage} {r : Response Cw20.ExecuteMsg}

/-- What an accepted call does to the pot and to the count of what was given. -/
structure PotStep (api : Api) (st : Storage) (c : Call) (st' : Storage) : Prop where
  /-- A final batch takes from the pot what was given, and an increase fills it. -/
  pot : st'.pot = if ClosesCycle api st c then st.pot - (st.given + rewardCredited api st c)
    else st.pot + deposited api st c
  /-- An increase resets the count. -/
  given : st'.given = if FillsPot api st c then 0 else st.given + rewardCredited api st c
  /-- An increase credits nothing. -/
  increases : FillsPot api st c → rewardCredited api st c = 0
  /-- A final batch fills nothing. -/
  closes : ClosesCycle api st c → deposited api st c = 0

theorem deposited_of_not_increase (h : c.msg.isIncrease = false) : deposited api st c = 0 := by
  unfold deposited
  split
  · rename_i hmsg
    rw [hmsg] at h
    cases h
  · rfl

/-- A call that is no batch credits nothing. -/
theorem rewardCredited_of_not_batch (h : ∀ stakerList clubName isFirstBatch isFinalBatch,
    c.msg ≠ .calculateAndDistributeRewards stakerList clubName isFirstBatch isFinalBatch) :
    rewardCredited api st c = 0 := by
  rcases credits_cases api st c with hnone | ⟨stakerList, clubName, isFirst, isFinal, hmsg⟩
  · rw [rewardCredited, hnone]
    rfl
  · exact absurd hmsg (h _ _ _ _)

/-- A call that neither is a batch nor fills the pot. -/
theorem PotStep.quiet (hincrease : c.msg.isIncrease = false)
    (hbatch : ∀ stakerList clubName isFirstBatch isFinalBatch,
      c.msg ≠ .calculateAndDistributeRewards stakerList clubName isFirstBatch isFinalBatch)
    (h : SameItems st st') : PotStep api st c st' := by
  have hcloses : ¬ ClosesCycle api st c := by
    intro hc
    obtain ⟨stakerList, clubName, isFirstBatch, hmsg⟩ := hc.batch
    exact hbatch _ _ _ _ hmsg
  have hincreases : ¬ FillsPot api st c := by
    rintro ⟨-, hc⟩
    rw [hincrease] at hc
    cases hc
  refine ⟨?_, ?_, fun hc => absurd hc hincreases, fun hc => absurd hc hcloses⟩
  · rw [if_neg hcloses, deposited_of_not_increase hincrease, Storage.pot, h.reward, Nat.add_zero,
      Storage.pot]
  · rw [if_neg hincreases, rewardCredited_of_not_batch hbatch, Storage.given, h.given,
      Nat.add_zero, Storage.given]

theorem Batch.pot {env : Env} {stakerList : List String} {clubName : String}
    {isFirstBatch isFinalBatch : Bool}
    (h : Batch env st st' stakerList clubName isFirstBatch isFinalBatch) :
    st'.pot = if isFinalBatch then st.pot - st'.given else st.pot := by
  cases h with
  | idle next hreward hst =>
    have hpot : st.pot = 0 := hreward
    have hpot' : st'.pot = st.pot := by
      rw [hst]
      rfl
    rw [hpot', hpot, Nat.zero_sub, ite_self]
  | runs next ranked winning owner terms staking given hreward hrank howner hterms hbatch hloop
      hst =>
    rw [hst]
    cases isFinalBatch with
    | false => rfl
    | true => rfl

/-- **What an accepted call does** to the pot and to the count. -/
theorem exec_pot (ht : Tidy st.staking) (h : exec api st c = some (st', r)) :
    PotStep api st c st' := by
  have haccepted : (exec api st c).isSome = true := by
    rw [h]
    rfl
  cases exec_items h with
  | plain hmsg hitems hbonds =>
    refine .quiet ?_ (fun _ _ _ _ hc => ?_) hitems
    · generalize c.msg = msg at hmsg
      cases msg with
      | increaseRewardAmount rewardFrom amount => cases hmsg
      | _ => rfl
    · rw [hc] at hmsg
      cases hmsg
  | withdraws staker clubName amount immediateWithdrawal hmsg hitems =>
    refine .quiet ?_ (fun _ _ _ _ hc => ?_) hitems
    · rw [hmsg]
      rfl
    · rw [hmsg] at hc
      cases hc
  | increases rewardFrom amount hmsg hst =>
    -- an increase fills the pot, and neither credits nor closes a cycle
    have hcredited : rewardCredited api st c = 0 := by
      refine rewardCredited_of_not_batch fun _ _ _ _ hc => ?_
      rw [hmsg] at hc
      cases hc
    have hincreases : FillsPot api st c := ⟨haccepted, by rw [hmsg]; rfl⟩
    have hcloses : ¬ ClosesCycle api st c := by
      rintro ⟨-, hc⟩
      rw [hmsg] at hc
      cases hc
    have hdeposited : deposited api st c = amount := by
      rw [deposited, hmsg]
      exact if_pos haccepted
    refine ⟨?_, ?_, fun _ => hcredited, fun hc => absurd hc hcloses⟩
    · rw [if_neg hcloses, hdeposited, hst]
      rfl
    · rw [if_pos hincreases, hst]
      rfl
  | distributes stakerList clubName isFirstBatch isFinalBatch hmsg hbatch =>
    -- a batch adds to what the cycle has given, and the final one settles the pot
    have hgiven : st'.given = st.given + rewardCredited api st c := rewardGiven_eq ht h hmsg
    have hincrease : c.msg.isIncrease = false := by
      rw [hmsg]
      rfl
    have hincreases : ¬ FillsPot api st c := by
      rintro ⟨-, hc⟩
      rw [hincrease] at hc
      cases hc
    have hcloses : ClosesCycle api st c ↔ isFinalBatch = true := by
      rw [ClosesCycle, hmsg]
      exact and_iff_right haccepted
    have hdeposited : deposited api st c = 0 := deposited_of_not_increase hincrease
    refine ⟨?_, ?_, fun hc => absurd hc hincreases, fun _ => hdeposited⟩
    · rw [hbatch.pot, hgiven, hdeposited, Nat.add_zero]
      exact if_congr hcloses.symm rfl rfl
    · rw [if_neg hincreases, hgiven]

end Calls

section Runs

variable {api : Api} {st : Storage} {cs : List Call}

theorem Initial.pot (h : Initial api st) : st.pot = 0 ∧ st.given = 0 := by
  obtain ⟨config, next, rfl⟩ := h.eq
  exact ⟨rfl, rfl⟩

/-- A call that is reverted credits nothing and fills nothing. -/
theorem quiet_of_none {s : Storage} {c : Call} (h : exec api s c = none) :
    rewardCredited api s c = 0 ∧ deposited api s c = 0 := by
  refine ⟨by rw [rewardCredited, credits_of_none h]; rfl, ?_⟩
  unfold deposited
  split
  · rw [h]
    rfl
  · rfl

/-- The count is of what was credited since the last increase. -/
theorem given_eq_since (hinit : Initial api st) (cs : List Call) :
    (run (exec api) st cs).given = since (exec api) (FillsPot api) (rewardCredited api) st cs := by
  induction cs using List.reverseRecOn with
  | nil => exact hinit.pot.2
  | append_singleton cs c ih =>
    rw [run_snoc, since_snoc, ← ih]
    rcases commit_cases (exec api) (run (exec api) st cs) c with ⟨r, hr⟩ | ⟨hnone, hs⟩
    · exact (exec_pot (run_tidy hinit cs) hr).given
    · have hfills : ¬ FillsPot api (run (exec api) st cs) c := by
        rintro ⟨hsome, -⟩
        rw [hnone] at hsome
        cases hsome
      rw [if_neg hfills, hs, (quiet_of_none hnone).1, Nat.add_zero]

/-- **Between the ends of the cycles** the pot is short of nothing but what the cycle has credited,
when it was settled at the end of every cycle. -/
theorem reward_add_credited (hinit : Initial api st) (hwithin : WithinPots api st cs)
    (hsettled : PotSettled api st cs) :
    (run (exec api) st cs).pot + tally (exec api) (rewardCredited api) st cs =
      tally (exec api) (deposited api) st cs +
        since (exec api) (ClosesCycle api) (rewardCredited api) st cs := by
  induction cs using List.reverseRecOn with
  | nil => exact hinit.pot.1
  | append_singleton cs c ih =>
    obtain ⟨hwithin, hwithinc⟩ := along_snoc.mp hwithin
    obtain ⟨hsettled, hsettledc⟩ := along_snoc.mp hsettled
    -- the end of a cycle settles the pot by assumption, and the count starts anew
    by_cases hcloses : ClosesCycle api (run (exec api) st cs) c
    · rw [since_snoc, if_pos hcloses, Nat.add_zero]
      exact hsettledc hcloses (hwithinc hcloses)
    · have ih := ih hwithin hsettled
      rw [run_snoc, tally_snoc, tally_snoc, since_snoc, if_neg hcloses]
      rcases commit_cases (exec api) (run (exec api) st cs) c with ⟨r, hr⟩ | ⟨hnone, hs⟩
      · have hpot := (exec_pot (run_tidy hinit cs) hr).pot
        rw [if_neg hcloses] at hpot
        rw [hpot]
        omega
      · obtain ⟨hcredited, hdeposited⟩ := quiet_of_none hnone
        rw [hs, hcredited, hdeposited]
        exact ih

/-- A final batch settles the pot exactly when its cycle is counted. -/
theorem settles_iff (hinit : Initial api st) (hwithin : WithinPots api st cs)
    (hsettled : PotSettled api st cs) {c : Call} (hcloses : ClosesCycle api (run (exec api) st cs) c)
    (hpot : cycleCredited api st cs c ≤ (run (exec api) st cs).pot) :
    (run (exec api) st (cs ++ [c])).pot +
        tally (exec api) (rewardCredited api) st (cs ++ [c]) =
      tally (exec api) (deposited api) st (cs ++ [c]) ↔
    since (exec api) (FillsPot api) (rewardCredited api) st cs =
        since (exec api) (ClosesCycle api) (rewardCredited api) st cs ∨
      cycleCredited api st cs c = (run (exec api) st cs).pot ∧
        since (exec api) (ClosesCycle api) (rewardCredited api) st cs ≤
          since (exec api) (FillsPot api) (rewardCredited api) st cs := by
  obtain ⟨r, hr⟩ := exists_commit hcloses.1
  have hstep := exec_pot (run_tidy hinit cs) hr
  have hafter := hstep.pot
  rw [if_pos hcloses, given_eq_since hinit] at hafter
  have hbefore := reward_add_credited hinit hwithin hsettled
  -- the pot after the batch, minus what the counter has, against the pot before it
  rw [run_snoc, tally_snoc, tally_snoc, hafter, hstep.closes hcloses]
  unfold cycleCredited at hpot ⊢
  omega

end Runs

/-- **The pot is settled** after every cycle, in a run whose cycles are within their pots, exactly
when the contract has counted each of them. -/
theorem potSettled_iff (api : Api) (st : Storage) (cs : List Call) (hinit : Initial api st)
    (hwithin : WithinPots api st cs) : PotSettled api st cs ↔ Counted api st cs := by
  induction cs using List.reverseRecOn with
  | nil => exact iff_of_true (along_nil _) (along_nil _)
  | append_singleton cs c ih =>
    obtain ⟨hwithin, hwithinc⟩ := along_snoc.mp hwithin
    have ih := ih hwithin
    unfold PotSettled Counted at ih ⊢
    rw [along_snoc, along_snoc, ← ih]
    refine and_congr_right fun hsettled => ?_
    refine forall_congr' fun hcloses => ?_
    rw [forall_prop_of_true (hwithinc hcloses)]
    exact settles_iff hinit hwithin hsettled hcloses (hwithinc hcloses)

namespace Sample

/-- Two cycles, of which the second has an increase of its own when there is one between them. -/
def cycles (between : List Call) : List Call :=
  opened 10000 ++ closing 101 :: between ++ [closing 201]

end Sample

open Sample in
/-- Two cycles that start with an increase each. -/
theorem potSettled_sample :
    PotSettled api storage (cycles [call 150 "admin" (.increaseRewardAmount "admin" 500)]) :=
  (potSettled_iff api storage _ initial (by decide +kernel)).mpr (by decide +kernel)

open Sample in
/-- **A cycle without an increase of its own** is charged for the cycle before it as well. -/
theorem not_potSettled :
    ¬ ∀ (api : Api) (st : Storage) (cs : List Call), Initial api st → PotSettled api st cs := by
  intro h
  exact absurd (h api storage (cycles []) initial) (by decide +kernel)

/-! ## Runs that keep to the pots -/

section Keeping

variable {api : Api} {st : Storage} {cs cycle : List Call} {c : Call}

theorem KeepsPots.within (h : KeepsPots api st cs) : WithinPots api st cs :=
  fun i hcloses => h i hcloses.1

/-- The pot still has what the cycle has credited. -/
theorem KeepsPots.since_le (hinit : Initial api st) (h : KeepsPots api st cs) :
    since (exec api) (ClosesCycle api) (rewardCredited api) st cs ≤ (run (exec api) st cs).pot := by
  induction cs using List.reverseRecOn with
  | nil => exact Nat.zero_le _
  | append_singleton cs c ih =>
    obtain ⟨hbefore, hlast⟩ := along_snoc.mp h
    rw [since_snoc, run_snoc]
    split
    · exact Nat.zero_le _
    · rename_i hcloses
      rcases commit_cases (exec api) (run (exec api) st cs) c with ⟨r, hr⟩ | ⟨hnone, hs⟩
      · rw [(exec_pot (run_tidy hinit cs) hr).pot, if_neg hcloses]
        exact (hlast (Option.isSome_of_eq_some hr)).trans (Nat.le_add_right _ _)
      · rw [hs, (quiet_of_none hnone).1, Nat.add_zero]
        exact ih hbefore

/-- **No more is credited than is filled into the pot**, in a run that keeps to the pots and whose
cycles are counted. -/
theorem credited_le_deposited (hinit : Initial api st) (hkeeps : KeepsPots api st cs)
    (hcounted : Counted api st cs) :
    tally (exec api) (rewardCredited api) st cs ≤ tally (exec api) (deposited api) st cs := by
  have hsettled := (potSettled_iff api st cs hinit hkeeps.within).mpr hcounted
  have hledger := reward_add_credited hinit hkeeps.within hsettled
  have hle := hkeeps.since_le hinit
  omega

/-- A call that credits nothing keeps to the pot. -/
theorem KeepsPots.append_quiet (hinit : Initial api st) (h : KeepsPots api st cs)
    (hnone : rewardCredited api (run (exec api) st cs) c = 0) : KeepsPots api st (cs ++ [c]) := by
  refine along_snoc.mpr ⟨h, fun _ => ?_⟩
  rw [cycleCredited, hnone, Nat.add_zero]
  exact h.since_le hinit

/-- Before the end of a cycle the pot does not shrink. -/
theorem pot_le_run {s : Storage} (ht : Tidy s.staking)
    (hopen : ∀ x ∈ history (exec api) s cs, ¬ ClosesCycle api x.1 x.2) :
    s.pot ≤ (run (exec api) s cs).pot := by
  have hinv : Tidy (run (exec api) s cs).staking ∧ s.pot ≤ (run (exec api) s cs).pot := by
    refine run_invariant (I := fun s' => Tidy s'.staking ∧ s.pot ≤ s'.pot)
      (P := fun s c => ¬ ClosesCycle api s c) ?_ ⟨ht, le_rfl⟩ hopen
    rintro s' c s'' r ⟨ht', hle⟩ hcloses h
    refine ⟨exec_tidy ht' h, ?_⟩
    rw [(exec_pot ht' h).pot, if_neg hcloses]
    exact hle.trans (Nat.le_add_right _ _)
  exact hinv.2

/-- The calls of a cycle before one of them do not end it. -/
theorem not_closes_of_before {s : Storage} {before after : List Call}
    (hopen : ∀ x ∈ (history (exec api) s (before ++ c :: after)).dropLast,
      ¬ ClosesCycle api x.1 x.2) :
    ∀ x ∈ history (exec api) s before, ¬ ClosesCycle api x.1 x.2 := by
  intro x hx
  apply hopen
  rw [history_append, List.dropLast_append_of_ne_nil (by simp)]
  exact List.mem_append_left _ hx

/-- **A cycle by its ranking keeps to the pot**, when nothing is credited between the end of the
last cycle and it. -/
theorem KeepsPots.append_cycle (hinit : Initial api st) (h : KeepsPots api st cs)
    (hstart : since (exec api) (ClosesCycle api) (rewardCredited api) st cs = 0)
    (hcycle : Cycle api (run (exec api) st cs) cycle)
    (hopen : ∀ x ∈ (history (exec api) (run (exec api) st cs) cycle).dropLast,
      ¬ ClosesCycle api x.1 x.2)
    (hranking : ∀ x ∈ (history (exec api) (run (exec api) st cs) cycle).tail,
      (exec api x.1 x.2).isSome → x.2.msg.isFirstBatch = false)
    (hstaked : ∀ clubName ∈ (run (exec api) st cs).ownership.keys,
      tally (exec api) (stakeRead api clubName) (run (exec api) st cs) cycle ≤
        (run (exec api) st cs).total clubName) : KeepsPots api st (cs ++ cycle) := by
  refine along_append.mpr ⟨h, along_iff.mpr ?_⟩
  rintro before c after rfl -
  have hcredits := cycle_credits_le api st cs _ hinit hcycle hranking hstaked
  have hbefore := not_closes_of_before hopen
  -- what the cycle has credited by now is a part of what it credits
  rw [List.append_cons, tally_append, tally_snoc] at hcredits
  rw [cycleCredited, since_append _ _ _ hbefore, hstart, run_append]
  have hpot := pot_le_run (run_tidy hinit cs) hbefore
  unfold Storage.pot at hpot ⊢
  omega

/-- **A cycle is counted** when nothing is credited between the last increase of the pot and it. -/
theorem Counted.append_cycle (h : Counted api st cs)
    (hstart : since (exec api) (ClosesCycle api) (rewardCredited api) st cs = 0)
    (hfilled : since (exec api) (FillsPot api) (rewardCredited api) st cs = 0)
    (hcycle : Cycle api (run (exec api) st cs) cycle)
    (hopen : ∀ x ∈ (history (exec api) (run (exec api) st cs) cycle).dropLast,
      ¬ ClosesCycle api x.1 x.2) : Counted api st (cs ++ cycle) := by
  refine along_append.mpr ⟨h, along_iff.mpr ?_⟩
  rintro before c after rfl -
  have hunfilled : ∀ x ∈ history (exec api) (run (exec api) st cs) before,
      ¬ FillsPot api x.1 x.2 := by
    rintro x hx ⟨-, hincrease⟩
    have hin := hcycle.messages x.2 (List.mem_append_left _ (label_mem hx))
    -- an increase is no message of a cycle
    generalize x.2.msg = msg at hincrease hin
    cases msg with
    | increaseRewardAmount rewardFrom amount => cases hin
    | _ => cases hincrease
  left
  have hbefore := not_closes_of_before hopen
  rw [since_append _ _ _ hunfilled, since_append _ _ _ hbefore, hstart, hfilled]

end Keeping

end Clubstaking
