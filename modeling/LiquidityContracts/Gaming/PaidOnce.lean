import LiquidityContracts.Gaming.Payouts

/-!
# Each team is paid once

The teams of a gamer in a pool are one list, and bids, batches of rewards and both claims save it
anew as a whole. A claim sweeps over the lists of all pools; what keeps a team from being paid again
is a flag that the claim sets in it. So each team has to keep its position and its flags in every
rewriting of its list.

## Main definitions

* `Storage.places`: the places of a gamer's teams, in all pools
* `CountsReward`, `CountsRefund`: a claim counts a team
* `PaysOnce`: the law of a run

## Main results

* `run_follows`: in every run a team keeps its place, and what it has claimed
* `sum_rewardFor`, `sum_refundFor`: a claim pays for the teams that it counts
* `paysOnce`: in every run each team is rewarded once and refunded once at most
-/

namespace Gamingpool

open CosmWasm

/-- The gamer for whom an entry claims rewards. -/
def Entry.claimsRewardsFor : Entry → Option String
  | .execute _ (.claimReward gamer) => some gamer
  | _ => none

/-- The gamer for whom an entry claims refunds. -/
def Entry.claimsRefundsFor : Entry → Option String
  | .execute _ (.claimRefund gamer) => some gamer
  | _ => none

/-- The places of a gamer's teams, in all pools. -/
def Storage.placeList (st : Storage) (gamer : String) : List Place :=
  st.poolDetails.keys.flatMap fun p =>
    (List.range (st.teams p gamer).length).map fun i => ⟨p, gamer, i⟩

/-- The set of the places of a gamer's teams. -/
def Storage.places (st : Storage) (gamer : String) : Finset Place := (st.placeList gamer).toFinset

section Counting

variable (api : Api) (t : Place) (st : Storage) (c : Call)

/-- A claim of rewards is accepted and counts a team, which has not claimed its reward. -/
def CountsReward : Prop :=
  c.entry.claimsRewardsFor = some t.gamer ∧ (exec api st c).isSome ∧
    st.rewardStatus t.poolId = true ∧ ∃ team ∈ st.team? t, team.claimedReward = false

instance : Decidable (CountsReward api t st c) := inferInstanceAs (Decidable (_ ∧ _ ∧ _ ∧ _))

/-- A claim of refunds is accepted and counts a team. -/
def CountsRefund : Prop :=
  c.entry.claimsRefundsFor = some t.gamer ∧ (exec api st c).isSome ∧
    st.refundStatus t.poolId = true ∧ (st.team? t).isSome

instance : Decidable (CountsRefund api t st c) := inferInstanceAs (Decidable (_ ∧ _ ∧ _ ∧ _))

/-- What a claim of rewards pays for a team. -/
def rewardFor : ℕ := if CountsReward api t st c then (st.team? t).elim 0 (·.rewardAmount) else 0

/-- What a claim of refunds pays for a team. -/
def refundFor : ℕ := if CountsRefund api t st c then st.feeOf t.poolId else 0

end Counting

/-- The teams of a run are rewarded once and refunded once at most. -/
structure PaysOnce (api : Api) (st : Storage) (cs : List Call) : Prop where
  /-- A claim of rewards transfers the rewards of the teams that it counts. -/
  reward : ∀ x ∈ history (exec api) st cs, ∀ info gamer st' r,
    x.2.entry = .execute info (.claimReward gamer) → exec api x.1 x.2 = some (st', r) →
    r.messages = [.bankSend x.1.config.platformFeesCollectorWallet info.funds,
      .wasmExecute x.1.config.furyTokenAddress (.cw20 (.transfer info.sender
        (∑ t ∈ x.1.places gamer, rewardFor api t x.1 x.2))) []]
  /-- A claim of refunds pays the fees of the teams that it counts. -/
  refund : ∀ x ∈ history (exec api) st cs, ∀ info gamer st' r,
    x.2.entry = .execute info (.claimRefund gamer) → exec api x.1 x.2 = some (st', r) →
    refundMessages x.2.q info x.1 (∑ t ∈ x.1.places gamer, refundFor api t x.1 x.2) =
      .ok r.messages
  /-- No two claims count the reward of a team. -/
  rewardedOnce : ∀ t, (history (exec api) st cs).Pairwise fun x y =>
    ¬ (CountsReward api t x.1 x.2 ∧ CountsReward api t y.1 y.2)
  /-- No two claims count the refund of a team. -/
  refundedOnce : ∀ t, (history (exec api) st cs).Pairwise fun x y =>
    ¬ (CountsRefund api t x.1 x.2 ∧ CountsRefund api t y.1 y.2)
  /-- A claim that counts a team is sent by the gamer under whose key it is stored. -/
  sender : ∀ x ∈ history (exec api) st cs, ∀ t,
    CountsReward api t x.1 x.2 ∨ CountsRefund api t x.1 x.2 →
    ∃ info msg, x.2.entry = .execute info msg ∧ api t.gamer = .ok info.sender
  /-- A team keeps its place, and what it has claimed stays claimed. -/
  kept : ∀ ls ls', ls ++ ls' <+: cs → ∀ t team, (run (exec api) st ls).team? t = some team →
    ∃ new, (run (exec api) st (ls ++ ls')).team? t = some new ∧ Follows team new

/-! ## Teams over runs -/

/-- A claim has set a flag of a team. -/
def Marked (flag : PoolTeamDetails → Bool) (t : Place) (st : Storage) : Prop :=
  ∃ team, st.team? t = some team ∧ flag team = true

section Teams

variable {api : Api} {st st' : Storage} {c : Call} {t : Place} {r : Response Payload}
  {info : MessageInfo} {gamer : String}

theorem Follows.trans {old team new : PoolTeamDetails} (h : Follows old team)
    (h' : Follows team new) : Follows old new where
  poolId := h'.poolId.trans h.poolId
  gameId := h'.gameId.trans h.gameId
  poolType := h'.poolType.trans h.poolType
  gamerAddress := h'.gamerAddress.trans h.gamerAddress
  teamId := h'.teamId.trans h.teamId
  claimedReward hclaimed := h'.claimedReward (h.claimedReward hclaimed)
  claimedRefund hclaimed := h'.claimedRefund (h.claimedRefund hclaimed)

/-- **In every run a team keeps its place**, and what it has claimed. -/
theorem run_follows {team : PoolTeamDetails} (hteam : st.team? t = some team) (cs : List Call) :
    ∃ new, (run (exec api) st cs).team? t = some new ∧ Follows team new := by
  refine run_preserves (I := fun s : Storage => ∃ new, s.team? t = some new ∧ Follows team new) ?_
    ⟨team, hteam, .refl team⟩ cs
  rintro s c s' r ⟨old, hold, hfollows⟩ hexec
  obtain ⟨new, hnew, hfollows'⟩ := exec_follows hold hexec
  exact ⟨new, hnew, hfollows.trans hfollows'⟩

theorem entry_of_claimsRewardsFor {entry : Entry} (h : entry.claimsRewardsFor = some gamer) :
    ∃ info, entry = .execute info (.claimReward gamer) := by
  unfold Entry.claimsRewardsFor at h
  split at h
  · rename_i info claimed
    obtain rfl := Option.some.inj h
    exact ⟨info, rfl⟩
  · cases h

theorem entry_of_claimsRefundsFor {entry : Entry} (h : entry.claimsRefundsFor = some gamer) :
    ∃ info, entry = .execute info (.claimRefund gamer) := by
  unfold Entry.claimsRefundsFor at h
  split at h
  · rename_i info claimed
    obtain rfl := Option.some.inj h
    exact ⟨info, rfl⟩
  · cases h

/-- A claim that counts the reward of a team finds it unclaimed, and leaves it claimed. -/
theorem CountsReward.marks (h : CountsReward api t st c) :
    (¬ ∃ team, st.team? t = some team ∧ team.claimedReward = true) ∧
      ∃ team, (commit (exec api) st c).team? t = some team ∧ team.claimedReward = true := by
  obtain ⟨hclaim, haccepted, hstatus, team, hteam, hunclaimed⟩ := h
  obtain ⟨info, hentry⟩ := entry_of_claimsRewardsFor hclaim
  obtain ⟨r, hexec⟩ := exists_commit haccepted
  constructor
  · rintro ⟨team', hteam', hclaimed⟩
    obtain rfl := Option.some.inj (hteam.symm.trans hteam')
    rw [hunclaimed] at hclaimed
    cases hclaimed
  · refine ⟨team.claimReward, ?_, rfl⟩
    rw [Storage.team?, (exec_claimReward hentry hexec).teams, if_pos ⟨rfl, hstatus⟩,
      List.getElem?_map]
    exact congrArg (Option.map _) hteam

/-- A claim that counts the refund of a team finds it unclaimed, or it fails, and leaves it
claimed. -/
theorem CountsRefund.marks (h : CountsRefund api t st c) :
    (¬ ∃ team, st.team? t = some team ∧ team.claimedRefund = true) ∧
      ∃ team, (commit (exec api) st c).team? t = some team ∧ team.claimedRefund = true := by
  obtain ⟨hclaim, haccepted, hstatus, hteam⟩ := h
  obtain ⟨info, hentry⟩ := entry_of_claimsRefundsFor hclaim
  constructor
  · rintro ⟨team, hteam, hclaimed⟩
    obtain ⟨r, hexec⟩ := exists_commit haccepted
    have hunclaimed := (exec_claimRefund hentry hexec).unclaimed t.poolId hstatus team
      (mem_teams hteam)
    rw [hunclaimed] at hclaimed
    cases hclaimed
  · exact claimedRefund_of_paysRefund ⟨⟨info, hentry⟩, haccepted, hstatus, hteam⟩

/-- A flag that stays wherever a team is saved again stays over an accepted call. -/
theorem exec_marked {flag : PoolTeamDetails → Bool} {t : Place}
    (hflag : ∀ {team new}, Follows team new → flag team = true → flag new = true)
    (h : Marked flag t st) (hexec : exec api st c = some (st', r)) : Marked flag t st' := by
  obtain ⟨team, hteam, hmark⟩ := h
  obtain ⟨new, hnew, hfollows⟩ := exec_follows hteam hexec
  exact ⟨new, hnew, hflag hfollows hmark⟩

/-! ## What a claim pays -/

theorem nodup_placeList (st : Storage) (gamer : String) : (st.placeList gamer).Nodup := by
  refine List.nodup_flatMap.mpr ⟨fun p _ => ?_, ?_⟩
  · refine List.nodup_range.map fun i j hij => ?_
    exact congrArg Place.index hij
  · refine (Store.nodup_keys st.poolDetails).imp fun {p p'} hne t ht ht' => ?_
    obtain ⟨i, -, rfl⟩ := List.mem_map.mp ht
    obtain ⟨j, -, hj⟩ := List.mem_map.mp ht'
    exact hne (congrArg Place.poolId hj).symm

/-- A sum over the positions of a list is one over its entries. -/
theorem sum_range_getElem? {α : Type} (l : List α) (f : α → ℕ) :
    ((List.range l.length).map fun i => (l[i]?).elim 0 f).sum = (l.map f).sum := by
  congr 1
  refine List.ext_getElem (by simp) fun i hi hi' => ?_
  have hlt : i < l.length := by simpa using hi'
  simp [List.getElem?_eq_getElem hlt]

/-- A sum over the places of a gamer's teams is one over the pools, and the teams in each. -/
theorem sum_places (f : Place → ℕ) (g : String → PoolTeamDetails → ℕ)
    (hf : ∀ p i, f ⟨p, gamer, i⟩ = (st.team? ⟨p, gamer, i⟩).elim 0 (g p)) :
    ∑ t ∈ st.places gamer, f t =
      (st.poolDetails.keys.map fun p => ((st.teams p gamer).map (g p)).sum).sum := by
  rw [Storage.places, List.sum_toFinset _ (nodup_placeList st gamer), Storage.placeList,
    List.map_flatMap, List.flatMap_def, List.sum_flatten, List.map_map]
  refine congrArg List.sum (List.map_congr_left fun p _ => ?_)
  rw [← sum_range_getElem? (st.teams p gamer) (g p)]
  refine congrArg List.sum ?_
  show List.map f (List.map _ _) = _
  rw [List.map_map]
  exact List.map_congr_left fun i _ => hf p i

/-- **A claim of rewards pays for the teams that it counts.** -/
theorem sum_rewardFor (hentry : c.entry = .execute info (.claimReward gamer))
    (hexec : exec api st c = some (st', r)) :
    ∑ t ∈ st.places gamer, rewardFor api t st c =
      (st.poolDetails.keys.map (rewardsDue st gamer)).sum := by
  have hcounts : ∀ p i, CountsReward api ⟨p, gamer, i⟩ st c ↔ st.rewardStatus p = true ∧
      ∃ team ∈ st.team? ⟨p, gamer, i⟩, team.claimedReward = false := by
    intro p i
    rw [CountsReward, hentry, hexec]
    exact ⟨fun h => h.2.2, fun h => ⟨rfl, rfl, h⟩⟩
  -- what is due for a list of teams is summed up over their places
  rw [sum_places _ fun p team => if st.rewardStatus p = true then rewardDue team else 0]
  · refine congrArg List.sum (List.map_congr_left fun p _ => ?_)
    rw [rewardsDue]
    split
    · rfl
    · simp
  · intro p i
    rw [rewardFor, if_congr (hcounts p i) rfl rfl]
    cases hteam : st.team? ⟨p, gamer, i⟩ with
    | none => simp
    | some team =>
      show (if _ then team.rewardAmount else 0) = if _ then rewardDue team else 0
      rw [rewardDue]
      -- a team that has claimed counts for nothing on both sides
      by_cases hstatus : st.rewardStatus p = true
      · by_cases hclaimed : team.claimedReward = true
        · simp [hclaimed]
        · simp [hstatus, hclaimed]
      · simp [hstatus]

/-- **A claim of refunds pays for the teams that it counts.** -/
theorem sum_refundFor (hentry : c.entry = .execute info (.claimRefund gamer))
    (hexec : exec api st c = some (st', r)) :
    ∑ t ∈ st.places gamer, refundFor api t st c =
      (st.poolDetails.keys.map (refundsDue st gamer)).sum := by
  have hcounts : ∀ p i, CountsRefund api ⟨p, gamer, i⟩ st c ↔ st.refundStatus p = true ∧
      (st.team? ⟨p, gamer, i⟩).isSome := by
    intro p i
    rw [CountsRefund, hentry, hexec]
    exact ⟨fun h => h.2.2, fun h => ⟨rfl, rfl, h⟩⟩
  -- each place of a pool that is to be refunded counts for the fee of the pool
  rw [sum_places _ fun p _ => if st.refundStatus p = true then st.feeOf p else 0]
  · refine congrArg List.sum (List.map_congr_left fun p _ => ?_)
    rw [refundsDue]
    split
    · simp
    · simp
  · intro p i
    rw [refundFor, if_congr (hcounts p i) rfl rfl]
    cases hteam : st.team? ⟨p, gamer, i⟩ with
    | none => simp
    | some team => simp

end Teams

/-- **In every run each team is rewarded once and refunded once at most**, by claims of its gamer,
and it keeps its place and what it has claimed. -/
theorem paysOnce (api : Api) (st : Storage) (cs : List Call) : PaysOnce api st cs where
  reward := by
    rintro x - info gamer st' r hentry hexec
    rw [sum_rewardFor hentry hexec]
    rw [exec, hentry] at hexec
    exact (claimReward_spec (toOption_eq_some.mp hexec)).2
  refund := by
    rintro x - info gamer st' r hentry hexec
    rw [sum_refundFor hentry hexec]
    rw [exec, hentry] at hexec
    exact (claimRefund_spec (toOption_eq_some.mp hexec)).2.1
  rewardedOnce t :=
    pairwise_of_mark (P := CountsReward api t) (M := Marked (·.claimedReward) t)
      (fun _ _ => CountsReward.marks) (fun _ _ _ _ => exec_marked fun h => h.claimedReward) st cs
  refundedOnce t :=
    pairwise_of_mark (P := CountsRefund api t) (M := Marked (·.claimedRefund) t)
      (fun _ _ => CountsRefund.marks) (fun _ _ _ _ => exec_marked fun h => h.claimedRefund) st cs
  sender := by
    rintro ⟨s, c⟩ - t (hcounts | hcounts)
    · obtain ⟨hclaim, haccepted, -⟩ := hcounts
      obtain ⟨info, hentry⟩ := entry_of_claimsRewardsFor hclaim
      obtain ⟨r, hexec⟩ := exists_commit haccepted
      exact ⟨info, _, hentry, (exec_claimReward hentry hexec).sender⟩
    · obtain ⟨hclaim, haccepted, -⟩ := hcounts
      obtain ⟨info, hentry⟩ := entry_of_claimsRefundsFor hclaim
      obtain ⟨r, hexec⟩ := exists_commit haccepted
      exact ⟨info, _, hentry, (exec_claimRefund hentry hexec).sender⟩
  kept := by
    intro ls ls' _ t team hteam
    rw [run_append]
    exact run_follows hteam ls'

end Gamingpool
