import LiquidityContracts.Gaming.Payouts

/-!
# Awarded rewards

A claim of rewards marks all teams of the gamer in the pools with rewards, also those that have no
reward yet, and a later batch may record a reward for a team that is marked. That reward is never
paid. No reward is lost in the runs in which the batches leave the rewards of the claimed teams as
they are, and in no others.

## Main definitions

* `paidFor`: what a call pays for a team
* `NothingLost`: the law of a run
* `KeepsAwards`: a batch leaves the rewards of the claimed teams as they are

## Main results

* `exec_award`: what a call pays and what it leaves due is what was due and what it awards
* `nothingLost_iff`: the law holds of the runs whose batches meet the condition
* `not_nothingLost`: a reward that comes after the claim is lost
-/

namespace Gamingpool

open CosmWasm

/-- What is due for a team. -/
def Storage.dueFor (st : Storage) (t : Place) : ℕ := (st.team? t).elim 0 rewardDue

/-- The reward that is recorded for a team. -/
def Storage.awarded (st : Storage) (t : Place) : ℕ := (st.team? t).elim 0 (·.rewardAmount)

/-- What a call pays for a team: an accepted claim of its gamer pays what is due for it, if its pool
has rewards. -/
def paidFor (api : Api) (t : Place) (st : Storage) (c : Call) : ℕ :=
  match c.entry with
  | .execute _ (.claimReward gamer) =>
    if gamer = t.gamer ∧ st.rewardStatus t.poolId = true ∧ (exec api st c).isSome then st.dueFor t
    else 0
  | _ => 0

/-- No awarded reward is lost in a run. -/
structure NothingLost (api : Api) (st : Storage) (cs : List Call) : Prop where
  /-- At any time a claimed team has been paid its recorded reward. -/
  claimed : ∀ ls, ls <+: cs → ∀ t team, (run (exec api) st ls).team? t = some team →
    team.claimedReward = true → tally (exec api) (paidFor api t) st ls = team.rewardAmount
  /-- At any time what is recorded for a team has been paid, or may be claimed. -/
  claimable : ∀ ls, ls <+: cs → ∀ t team, (run (exec api) st ls).team? t = some team →
    tally (exec api) (paidFor api t) st ls + rewardDue team = team.rewardAmount

/-- A batch leaves the rewards of the claimed teams as they are. -/
def KeepsAwards (st : Storage) : Entry → Prop
  | .execute _ (.gamePoolRewardDistribute poolId gameWinners _ _ _) =>
    ∀ w ∈ gameWinners, ∀ team ∈ st.teams poolId w.gamerAddress, team.claimedReward = true →
      (rewarded st.config.gameId gameWinners team).rewardAmount = team.rewardAmount
  | _ => True

instance (st : Storage) (entry : Entry) : Decidable (KeepsAwards st entry) := by
  cases entry with
  | execute info msg =>
    cases msg <;>
      unfold KeepsAwards <;>
      infer_instance
  | reply id => exact instDecidableTrue

/-! ## One call -/

section Teams

variable {st st' : Storage} {t : Place} {f : PoolTeamDetails → PoolTeamDetails}

theorem team?_map (h : st'.teams t.poolId t.gamer = (st.teams t.poolId t.gamer).map f) :
    st'.team? t = (st.team? t).map f := by
  rw [Storage.team?, h, List.getElem?_map]
  rfl

/-- A change of the team that awards as much as it makes due. -/
theorem award_of_map (h : st'.teams t.poolId t.gamer = (st.teams t.poolId t.gamer).map f)
    (hf : ∀ team ∈ st.teams t.poolId t.gamer,
      rewardDue (f team) + team.rewardAmount = rewardDue team + (f team).rewardAmount) :
    st'.dueFor t + st.awarded t = st.dueFor t + st'.awarded t := by
  rw [Storage.dueFor, Storage.dueFor, Storage.awarded, Storage.awarded, team?_map h]
  cases hteam : st.team? t with
  | none => rfl
  | some team => exact hf team (mem_teams hteam)

theorem award_of_same (h : st'.teams t.poolId t.gamer = st.teams t.poolId t.gamer) :
    st'.dueFor t + st.awarded t = st.dueFor t + st'.awarded t :=
  award_of_map (f := id) (h.trans (List.map_id _).symm) fun _ _ => rfl

/-- Nothing is due for the team of a bid, or recorded. -/
theorem award_of_append {team : PoolTeamDetails} (hdue : rewardDue team = 0)
    (hamount : team.rewardAmount = 0)
    (h : st'.teams t.poolId t.gamer = st.teams t.poolId t.gamer ++ [team]) :
    st'.dueFor t + st.awarded t = st.dueFor t + st'.awarded t := by
  rw [Storage.dueFor, Storage.dueFor, Storage.awarded, Storage.awarded, Storage.team?,
    Storage.team?, h]
  rcases lt_trichotomy t.index (st.teams t.poolId t.gamer).length with hlt | heq | hgt
  · rw [List.getElem?_append_left hlt]
  · rw [heq, List.getElem?_concat_length, List.getElem?_eq_none le_rfl]
    show rewardDue team + 0 = 0 + team.rewardAmount
    rw [hdue, hamount]
  · have hlen : (st.teams t.poolId t.gamer ++ [team]).length ≤ t.index := by simpa using hgt
    rw [List.getElem?_eq_none hlen, List.getElem?_eq_none hgt.le]

end Teams

section Steps

variable {api : Api} {st st' : Storage} {c : Call} {r : Response Payload} {t : Place}

theorem paidFor_eq_zero (h : ∀ info gamer, c.entry ≠ .execute info (.claimReward gamer)) :
    paidFor api t st c = 0 := by
  unfold paidFor
  split
  · rename_i info gamer hentry
    exact absurd hentry (h info gamer)
  · rfl

/-- A team after a batch of which the condition holds. -/
theorem rewarded_award {gameId : String} {ws : List GameResult} {team : PoolTeamDetails}
    (h : team.claimedReward = true → (rewarded gameId ws team).rewardAmount = team.rewardAmount) :
    rewardDue (rewarded gameId ws team) + team.rewardAmount =
      rewardDue team + (rewarded gameId ws team).rewardAmount := by
  unfold rewardDue
  by_cases hclaimed : team.claimedReward = true
  · rw [if_pos hclaimed, if_pos (show (rewarded gameId ws team).claimedReward = true from hclaimed),
      h hclaimed]
  · rw [if_neg hclaimed, if_neg (show ¬ (rewarded gameId ws team).claimedReward = true from hclaimed),
      Nat.add_comm]

/-- An effect that is no claim of rewards awards as much as it makes due, if it leaves the rewards
of the claimed teams as they are. -/
theorem Effect.award {entry : Entry} (h : Effect api st st' entry)
    (hn : ∀ info gamer, entry ≠ .execute info (.claimReward gamer)) (hk : KeepsAwards st entry)
    (t : Place) : st'.dueFor t + st.awarded t = st.dueFor t + st'.awarded t := by
  cases h with
  | keeps wallets slots hst =>
    apply award_of_same
    rw [hst]
    rfl
  | setsType poolType details hnone hst =>
    apply award_of_same
    rw [hst]
    rfl
  | cancels info status pools hentry hstatus hlive hpools hst =>
    apply award_of_same
    rw [hst]
    rfl
  | locks info pools hentry hopen hpools hst =>
    apply award_of_same
    rw [hst]
    rfl
  | creates info poolType hentry hopens =>
    obtain ⟨address, count, -, -, hst⟩ := hopens.created
    apply award_of_same
    rw [hst]
    rfl
  | bids info gamer poolType poolId teamId amount hentry hjoins =>
    have hteams := hjoins.teams t.poolId t.gamer
    split at hteams
    · rename_i ht
      rw [ht.1, ht.2] at hteams
      exact award_of_append rfl rfl hteams
    · exact award_of_same hteams
  | claimsRewards info gamer hentry hclaims => exact absurd hentry (hn info gamer)
  | claimsRefunds info gamer hentry hclaims =>
    have hteams := hclaims.teams t.poolId t.gamer
    split at hteams
    · exact award_of_map hteams fun _ _ => rfl
    · exact award_of_same hteams
  | distributes info poolId gameWinners isFinalBatch ustForRake gameId status pool teams slots
      hentry hstatus hclosed hpool hteams hst =>
    have hnew := hteams (t.poolId, t.gamer)
    have hsaved : st'.teams t.poolId t.gamer = teamsAt teams (t.poolId, t.gamer) := by
      rw [hst]
      rfl
    rw [← hsaved] at hnew
    split at hnew
    · rename_i ht
      refine award_of_map hnew fun team hteam => rewarded_award fun hclaimed => ?_
      -- the team is one of a listed winner
      obtain ⟨w, hw, hgamer⟩ := List.mem_map.mp ht.2
      rw [hentry] at hk
      refine hk w hw team ?_ hclaimed
      rw [hgamer, ← ht.1]
      exact hteam
    · exact award_of_same hnew

/-- **What a call pays and leaves due** is what was due before and what it awards, if it leaves the
rewards of the claimed teams as they are. -/
theorem exec_award (h : exec api st c = some (st', r)) (hk : KeepsAwards st c.entry) (t : Place) :
    paidFor api t st c + st'.dueFor t + st.awarded t = st.dueFor t + st'.awarded t := by
  by_cases hclaim : ∃ info gamer, c.entry = .execute info (.claimReward gamer)
  · obtain ⟨info, gamer, hentry⟩ := hclaim
    have hteams := (exec_claimReward hentry h).teams t.poolId t.gamer
    rw [paidFor, hentry]
    dsimp only
    split at hteams
    -- a claim that covers the team pays what was due for it, and leaves nothing
    · rename_i ht
      rw [if_pos ⟨ht.1.symm, ht.2, by rw [h]; rfl⟩]
      rw [Storage.dueFor, Storage.dueFor, Storage.awarded, Storage.awarded, team?_map hteams]
      cases hteam : st.team? t with
      | none => rfl
      | some team =>
        show rewardDue team + 0 + team.rewardAmount = rewardDue team + team.rewardAmount
        rw [Nat.add_zero]
    -- a claim of another gamer, or of a pool whose rewards are not open
    · rename_i ht
      rw [if_neg fun h => ht ⟨h.1.symm, h.2.1⟩, Nat.zero_add]
      exact award_of_same hteams
  -- every other call pays nothing
  · have hn : ∀ info gamer, c.entry ≠ .execute info (.claimReward gamer) :=
      fun info gamer hentry => hclaim ⟨info, gamer, hentry⟩
    rw [paidFor_eq_zero hn, Nat.zero_add]
    exact (exec_effect h).award hn hk t

/-- A call that is rejected pays nothing. -/
theorem paidFor_of_none (h : exec api st c = none) : paidFor api t st c = 0 := by
  unfold paidFor
  split
  · rw [if_neg]
    rintro ⟨-, -, haccepted⟩
    rw [h] at haccepted
    cases haccepted
  · rfl

/-- A batch leaves the rewards of the claimed teams as they are, if it leaves each of them at its
place as it is. -/
theorem keepsAwards_of_batch (h : exec api st c = some (st', r))
    (hsame : ∀ t team new, st.team? t = some team → team.claimedReward = true →
      st'.team? t = some new → new.claimedReward = true →
      (∀ info gamer, c.entry ≠ .execute info (.claimReward gamer)) →
      new.rewardAmount = team.rewardAmount) : KeepsAwards st c.entry := by
  unfold KeepsAwards
  split
  · rename_i info poolId gameWinners isFinalBatch ustForRake gameId hentry
    obtain ⟨pool, teams, total, hpool, hteams, hst⟩ := (exec_batch hentry h).distributed
    intro w hw team hteam hclaimed
    -- the team has a place, and the batch rewrites it there
    obtain ⟨i, hi⟩ := List.mem_iff_getElem?.mp hteam
    have hnew : st'.teams poolId w.gamerAddress =
        (st.teams poolId w.gamerAddress).map (rewarded st.config.gameId gameWinners) := by
      have hat := hteams (poolId, w.gamerAddress)
      rw [if_pos ⟨rfl, List.mem_map_of_mem hw⟩] at hat
      rw [hst]
      exact hat
    refine hsame ⟨poolId, w.gamerAddress, i⟩ team _ hi hclaimed ?_ hclaimed ?_
    · rw [team?_map (t := ⟨poolId, w.gamerAddress, i⟩) hnew]
      exact congrArg (Option.map _) hi
    · rw [hentry]
      nofun
  · trivial

end Steps

/-- What is paid for a team in a run and what is due for it at the end is what is awarded. -/
theorem run_award {api : Api} {st : Storage} (hinit : Initial api st) {cs : List Call}
    (hk : ∀ x ∈ history (exec api) st cs, (exec api x.1 x.2).isSome → KeepsAwards x.1 x.2.entry)
    (t : Place) : tally (exec api) (paidFor api t) st cs + (run (exec api) st cs).dueFor t =
      (run (exec api) st cs).awarded t := by
  induction cs using List.reverseRecOn with
  | nil =>
    -- no team is stored at first
    show 0 + st.dueFor t = st.awarded t
    rw [Storage.dueFor, Storage.awarded, Storage.team?, hinit.teams]
    rfl
  | append_singleton cs c ih =>
    rw [history_snoc] at hk
    have hbefore := ih fun x hx => hk x (List.mem_append_left _ hx)
    rw [tally_snoc, run_snoc]
    -- what one call adds is `exec_award`; a call that is reverted adds nothing
    rcases commit_cases (exec api) (run (exec api) st cs) c with ⟨r, hexec⟩ | ⟨hnone, hsame⟩
    · have hstep := exec_award hexec
        (hk _ (List.mem_append_right _ List.mem_cons_self) (by rw [hexec]; rfl)) t
      omega
    · rw [hsame, paidFor_of_none hnone]
      exact hbefore

/-- **No awarded reward is lost** in exactly the runs in which every accepted batch leaves the
rewards of the claimed teams as they are. -/
theorem nothingLost_iff (api : Api) (st : Storage) (cs : List Call) (hinit : Initial api st) :
    NothingLost api st cs ↔ ∀ x ∈ history (exec api) st cs, (exec api x.1 x.2).isSome →
      KeepsAwards x.1 x.2.entry := by
  constructor
  · intro hlaw x hx haccepted
    obtain ⟨r, hexec⟩ := exists_commit haccepted
    obtain ⟨ls, ls', rfl, hstate⟩ := mem_history hx
    refine keepsAwards_of_batch hexec fun t team new hteam hclaimed hnew hclaimed' hn => ?_
    -- the batch pays nothing, so the same has been paid before and after
    have hbefore := hlaw.claimed ls ⟨_, rfl⟩ t team (by rw [← hstate]; exact hteam) hclaimed
    have hafter := hlaw.claimed (ls ++ [x.2]) ⟨ls', by simp⟩ t new
      (by rw [run_snoc, ← hstate]; exact hnew) hclaimed'
    rw [tally_snoc, ← hstate, paidFor_eq_zero hn, Nat.add_zero, hbefore] at hafter
    exact hafter.symm
  · intro h
    have hpaid : ∀ ls, ls <+: cs → ∀ t team, (run (exec api) st ls).team? t = some team →
        tally (exec api) (paidFor api t) st ls + rewardDue team = team.rewardAmount := by
      intro ls hls t team hteam
      have haward := run_award hinit (fun x hx => h x (history_subset hls hx)) t
      rw [Storage.dueFor, Storage.awarded, hteam] at haward
      exact haward
    refine ⟨fun ls hls t team hteam hclaimed => ?_, hpaid⟩
    have haward := hpaid ls hls t team hteam
    rw [rewardDue, if_pos hclaimed, Nat.add_zero] at haward
    exact haward

open Sample in
/-- The reward of a full pool is paid; a batch after the claim rewards the other gamer. -/
theorem nothingLost_filled :
    NothingLost api storage (filled ++ [batch "1" [⟨"bob", "bears", 3000⟩], askReward "bob" 200]) :=
  (nothingLost_iff api storage _ initial).mpr (by decide +kernel)

open Sample in
/-- **A reward that comes after the claim is lost**: a second team of the gamer, marked by the claim
for the first, is rewarded by the next batch. -/
theorem not_nothingLost :
    ¬ ∀ (api : Api) (st : Storage) (cs : List Call), Initial api st → NothingLost api st cs := by
  intro h
  have hclaimed := (h api storage
    ([setType "duel" 10000, create "duel", bid "alice" "duel" "1" "lions" 10000,
      bid "alice" "duel" "1" "bears" 10000, lock, batch "1" [⟨"alice", "lions", 5000⟩],
      askReward "alice" 200, batch "1" [⟨"alice", "bears", 3000⟩]]) initial).claimed _
    (List.prefix_refl _) ⟨"1", "alice", 1⟩ _ (Option.some_get (by decide +kernel)).symm
    (by decide +kernel)
  exact absurd hclaimed (by decide +kernel)

end Gamingpool
