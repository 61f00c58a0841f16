import LiquidityContracts.Gaming.Effect

/-!
# Refunds and rewards

No team is to be paid both a refund and a reward. Whether its gamer may claim one or the other is
read off two flags of the pool. A batch of rewards sets the one and clears the other, whatever has
been refunded before; cancelling the game sets the second and leaves the first, whatever has been
rewarded. So the law holds of the runs in which no batch rewards a refunded team, and in which the
game is cancelled before any reward.

## Main definitions

* `Place`, `Storage.team?`: a team, named by its place
* `PaysRefund`, `PaysReward`, `PaidTwice`: what a claim pays a team
* `Apart`: the condition on a call
* `Separated`: the invariant

## Main results

* `exec_separated`: one step keeps the invariant
* `not_paidTwice`: no team is paid both in the runs that meet the condition
* `paidTwice_dissolved`: a run that pays a refund and a reward for one team
-/

namespace Gamingpool

open CosmWasm

/-- The place of a team: its pool, its gamer, and its position among the gamer's teams. -/
structure Place where
  poolId : String
  gamer : String
  index : ℕ
  deriving DecidableEq, Repr

/-- The team at a place. -/
def Storage.team? (st : Storage) (t : Place) : Option PoolTeamDetails :=
  (st.teams t.poolId t.gamer)[t.index]?

/-- A claim of refunds is accepted, and counts the team. -/
structure PaysRefund (api : Api) (t : Place) (st : Storage) (c : Call) : Prop where
  claim : ∃ info, c.entry = .execute info (.claimRefund t.gamer)
  accepted : (exec api st c).isSome
  status : st.refundStatus t.poolId = true
  team : (st.team? t).isSome

/-- A claim of rewards is accepted, and counts a positive reward for the team. -/
structure PaysReward (api : Api) (t : Place) (st : Storage) (c : Call) : Prop where
  claim : ∃ info, c.entry = .execute info (.claimReward t.gamer)
  accepted : (exec api st c).isSome
  status : st.rewardStatus t.poolId = true
  due : 0 < (st.team? t).elim 0 rewardDue

/-- A team is paid both a refund and a reward in a run. -/
def PaidTwice (api : Api) (t : Place) (st : Storage) (cs : List Call) : Prop :=
  (∃ x ∈ history (exec api) st cs, PaysRefund api t x.1 x.2) ∧
    ∃ x ∈ history (exec api) st cs, PaysReward api t x.1 x.2

/-- A team that has no reward and has claimed none. -/
def Blank (team : PoolTeamDetails) : Prop := team.rewardAmount = 0 ∧ team.claimedReward = false

instance (team : PoolTeamDetails) : Decidable (Blank team) := inferInstanceAs (Decidable (_ ∧ _))

/-- No team has a reward, or has claimed one. -/
def AllBlank (st : Storage) : Prop :=
  ∀ k ∈ st.poolTeamDetails.keys, ∀ team ∈ teamsAt st.poolTeamDetails k, Blank team

instance (st : Storage) : Decidable (AllBlank st) :=
  inferInstanceAs (Decidable (∀ _ ∈ _, ∀ _ ∈ _, Blank _))

/-- Refunds and rewards are kept apart: no batch rewards a team that has its refund and has
claimed no reward, and the game is not cancelled once there is a reward. -/
def Apart (st : Storage) : Entry → Prop
  | .execute _ (.gamePoolRewardDistribute poolId gameWinners _ _ _) =>
    ∀ w ∈ gameWinners, ∀ team ∈ st.teams poolId w.gamerAddress,
      w.Names st.config.gameId team ∧ team.claimedRefund = true ∧ team.claimedReward = false →
        w.rewardAmount = 0
  | .execute _ .cancelGame => AllBlank st
  | _ => True

instance (st : Storage) (entry : Entry) : Decidable (Apart st entry) := by
  unfold Apart
  split <;> infer_instance

/-! ## The invariant -/

/-- What keeps refunds and rewards apart. While the game is open, and after it is cancelled, there
are no rewards at all. -/
structure Separated (st : Storage) : Prop where
  opened : st.status = some gamePoolOpen → AllBlank st ∧ ∀ p, st.rewardStatus p = false
  cancelled : st.status = some gameCancelled → AllBlank st
  flags : ∀ p, st.refundStatus p = true → st.rewardStatus p = true →
    st.status = some gameCancelled
  refundable : ∀ p, st.refundStatus p = true → ∀ g, ∀ team ∈ st.teams p g, Blank team
  refunded : ∀ p g, ∀ team ∈ st.teams p g, team.claimedRefund = true →
    team.claimedReward = false → team.rewardAmount = 0

section States

variable {st st' : Storage} {p g : String} {pool : PoolDetails}

theorem allBlank_iff : AllBlank st ↔ ∀ p g, ∀ team ∈ st.teams p g, Blank team := by
  constructor
  · intro h p g team hteam
    -- a team is stored under a key that the store has
    refine h (p, g) ?_ team hteam
    rw [Store.mem_keys_iff]
    by_contra hnone
    rw [Storage.teams, teamsAt, Option.eq_none_iff_forall_ne_some.mpr fun v hv => hnone ⟨v, hv⟩]
      at hteam
    cases hteam
  · intro h k _ team hteam
    exact h k.1 k.2 team hteam

theorem rewardStatus_insert (h : st'.poolDetails = st.poolDetails.insert p pool) (a : String) :
    st'.rewardStatus a = if p = a then pool.poolRewardStatus else st.rewardStatus a := by
  rw [Storage.rewardStatus, h, Store.get_insert]
  split
  · rfl
  · rfl

theorem refundStatus_insert (h : st'.poolDetails = st.poolDetails.insert p pool) (a : String) :
    st'.refundStatus a = if p = a then pool.poolRefundStatus else st.refundStatus a := by
  rw [Storage.refundStatus, h, Store.get_insert]
  split
  · rfl
  · rfl

/-- Locking a pool leaves the flag of its rewards as it is. -/
theorem rewardStatus_locked
    (h : ∀ p : String, Locked st (st.poolDetails[p]?) (st'.poolDetails[p]?)) (p : String) :
    st'.rewardStatus p = st.rewardStatus p := by
  unfold Storage.rewardStatus
  rcases h p with ⟨hold, hnew⟩ | ⟨pool, details, hold, -, hnew⟩
  · rw [hold, hnew]
  · rw [hold, hnew]
    split
    · rfl
    · rfl

/-- Where no reward is pending, there is none to claim. -/
theorem sum_rewardsDue_eq_zero (h : AllBlank st) (g : String) :
    (st.poolDetails.keys.map (rewardsDue st g)).sum = 0 := by
  refine List.sum_eq_zero fun n hn => ?_
  obtain ⟨p, -, rfl⟩ := List.mem_map.mp hn
  unfold rewardsDue
  split
  · refine List.sum_eq_zero fun n hn => ?_
    obtain ⟨team, hteam, rfl⟩ := List.mem_map.mp hn
    obtain ⟨hzero, hunclaimed⟩ := allBlank_iff.mp h p g team hteam
    rw [rewardDue, hunclaimed, hzero]
    rfl
  · rfl

/-- Without any reward or claim of one, the two are apart. -/
theorem separated_of_allBlank (hblank : AllBlank st)
    (hopen : st.status = some gamePoolOpen → ∀ p, st.rewardStatus p = false)
    (hflags : ∀ p, st.refundStatus p = true → st.rewardStatus p = true →
      st.status = some gameCancelled) : Separated st where
  opened h := ⟨hblank, hopen h⟩
  cancelled _ := hblank
  flags := hflags
  refundable p _ := allBlank_iff.mp hblank p
  refunded p g team hteam _ _ := (allBlank_iff.mp hblank p g team hteam).1

/-- Before any batch of rewards, the two are apart. -/
theorem separated_of_unrewarded (hblank : AllBlank st) (hnone : ∀ p, st.rewardStatus p = false) :
    Separated st := by
  refine separated_of_allBlank hblank (fun _ => hnone) fun p _ hp => ?_
  rw [hnone] at hp
  cases hp

/-- A pool without rewards is added, or saved. -/
theorem unrewarded_insert (hpools : st'.poolDetails = st.poolDetails.insert p pool)
    (hpool : pool.poolRewardStatus = false) (hnone : ∀ a, st.rewardStatus a = false) (a : String) :
    st'.rewardStatus a = false := by
  rw [rewardStatus_insert hpools]
  split
  · exact hpool
  · exact hnone a

/-- Claims leave the game and the pools as they are. -/
theorem flags_of_rest (h : ∃ teams, st' = { st with poolTeamDetails := teams }) :
    st'.status = st.status ∧ st'.rewardStatus = st.rewardStatus ∧
      st'.refundStatus = st.refundStatus := by
  obtain ⟨teams, hst⟩ := h
  rw [hst]
  exact ⟨rfl, rfl, rfl⟩

end States

section Steps

variable {api : Api} {st st' : Storage} {c : Call} {r : Response Payload} {entry : Entry}
  {info : MessageInfo} {gamer : String}

/-- A bid adds a team that has no reward. -/
theorem Joins.allBlank {poolType poolId teamId : String}
    (h : Joins info gamer poolType poolId teamId st st') (hblank : AllBlank st) : AllBlank st' := by
  rw [allBlank_iff] at hblank ⊢
  intro p g team hteam
  rw [h.teams] at hteam
  split at hteam
  · rcases List.mem_append.mp hteam with hteam | hteam
    · exact hblank poolId gamer team hteam
    · obtain rfl := List.mem_singleton.mp hteam
      exact ⟨rfl, rfl⟩
  · exact hblank p g team hteam

/-- A claim of rewards keeps refunds and rewards apart: there is something to claim, so no refund
is open beside it. -/
theorem ClaimsRewards.separated (h : ClaimsRewards api info gamer st st') (hs : Separated st) :
    Separated st' := by
  obtain ⟨hstatus, hreward, hrefund⟩ := flags_of_rest h.rest
  -- where all teams are blank nothing is due, and the claim would have been refused
  have hsome : ¬ AllBlank st := by
    intro hblank
    have hpos := h.pos
    rw [sum_rewardsDue_eq_zero hblank] at hpos
    exact absurd hpos (lt_irrefl 0)
  refine ⟨fun hopen => ?_, fun hcancelled => ?_, fun p hp hp' => ?_, fun p hp g team hteam => ?_,
    fun p g team hteam hclaimed hunclaimed => ?_⟩
  · rw [hstatus] at hopen
    exact absurd (hs.opened hopen).1 hsome
  · rw [hstatus] at hcancelled
    exact absurd (hs.cancelled hcancelled) hsome
  · rw [hrefund] at hp
    rw [hreward] at hp'
    rw [hstatus]
    exact hs.flags p hp hp'
  · rw [hrefund] at hp
    rw [h.teams] at hteam
    split at hteam
    · rename_i hk
      -- a pool of both flags is one of a cancelled game
      exact absurd (hs.cancelled (hs.flags p hp hk.2)) hsome
    · exact hs.refundable p hp g team hteam
  · rw [h.teams] at hteam
    split at hteam
    · obtain ⟨team, -, rfl⟩ := List.mem_map.mp hteam
      cases hunclaimed
    · exact hs.refunded p g team hteam hclaimed hunclaimed

/-- A claim of refunds leaves the rewards of the teams as they are, and concerns pools to be
refunded. -/
theorem ClaimsRefunds.mem_teams (h : ClaimsRefunds api info gamer st st') {p g : String}
    {team : PoolTeamDetails} (hteam : team ∈ st'.teams p g) : ∃ old ∈ st.teams p g,
      team.rewardAmount = old.rewardAmount ∧ team.claimedReward = old.claimedReward ∧
        (team = old ∨ st.refundStatus p = true) := by
  rw [h.teams] at hteam
  split at hteam
  · rename_i hk
    obtain ⟨old, hold, rfl⟩ := List.mem_map.mp hteam
    exact ⟨old, hold, rfl, rfl, .inr hk.2⟩
  · exact ⟨team, hteam, rfl, rfl, .inl rfl⟩

/-- A claim of refunds keeps refunds and rewards apart: the teams of the pools to be refunded have
no rewards. -/
theorem ClaimsRefunds.separated (h : ClaimsRefunds api info gamer st st') (hs : Separated st) :
    Separated st' := by
  obtain ⟨hstatus, hreward, hrefund⟩ := flags_of_rest h.rest
  -- a refund leaves the rewards of a team as they were
  have hblank : AllBlank st → AllBlank st' := by
    rw [allBlank_iff, allBlank_iff]
    intro hblank p g team hteam
    obtain ⟨old, hold, hamount, hclaimed, -⟩ := h.mem_teams hteam
    rw [Blank, hamount, hclaimed]
    exact hblank p g old hold
  refine ⟨fun hopen => ?_, fun hcancelled => ?_, fun p hp hp' => ?_, fun p hp g team hteam => ?_,
    fun p g team hteam hclaimed hunclaimed => ?_⟩
  · rw [hstatus] at hopen
    rw [hreward]
    exact ⟨hblank (hs.opened hopen).1, (hs.opened hopen).2⟩
  · rw [hstatus] at hcancelled
    exact hblank (hs.cancelled hcancelled)
  · rw [hrefund] at hp
    rw [hreward] at hp'
    rw [hstatus]
    exact hs.flags p hp hp'
  · rw [hrefund] at hp
    obtain ⟨old, hold, hamount, hclaimed, -⟩ := h.mem_teams hteam
    rw [Blank, hamount, hclaimed]
    exact hs.refundable p hp g old hold
  · obtain ⟨old, hold, hamount, -, heq | hp⟩ := h.mem_teams hteam
    · rw [heq] at hclaimed hunclaimed ⊢
      exact hs.refunded p g old hold hclaimed hunclaimed
    · rw [hamount]
      exact (hs.refundable p hp g old hold).1

/-- A batch of rewards keeps refunds and rewards apart, if it rewards no team that has its refund:
the pool of the batch is not to be refunded any more. -/
theorem separated_of_batch {poolId : String} {ws : List GameResult} {pool : PoolDetails} {n : ℕ}
    (hs : Separated st) (hf : Filed st)
    (ha : ∀ w ∈ ws, ∀ team ∈ st.teams poolId w.gamerAddress,
      w.Names st.config.gameId team ∧ team.claimedRefund = true ∧ team.claimedReward = false →
        w.rewardAmount = 0)
    (hlive : st.status ≠ some gameCancelled) (hstatus : st'.status = some n)
    (hn : n ≠ gamePoolOpen ∧ n ≠ gameCancelled)
    (hpools : st'.poolDetails = st.poolDetails.insert poolId pool)
    (hpool : pool.poolRefundStatus = false)
    (hteams : ∀ p g, st'.teams p g = if p = poolId ∧ g ∈ ws.map (·.gamerAddress) then
      (st.teams p g).map (rewarded st.config.gameId ws) else st.teams p g) : Separated st' := by
  have hother : ∀ p, st'.refundStatus p = true → p ≠ poolId ∧ st.refundStatus p = true := by
    intro p hp
    rw [refundStatus_insert hpools] at hp
    split at hp
    · rw [hpool] at hp
      cases hp
    · rename_i hne
      exact ⟨fun h => hne h.symm, hp⟩
  refine ⟨fun hopen => ?_, fun hcancelled => ?_, fun p hp hp' => ?_, fun p hp g team hteam => ?_,
    fun p g team hteam hclaimed hunclaimed => ?_⟩
  · rw [hstatus] at hopen
    exact absurd (Option.some.inj hopen) hn.1
  · rw [hstatus] at hcancelled
    exact absurd (Option.some.inj hcancelled) hn.2
  · obtain ⟨hne, hp⟩ := hother p hp
    rw [rewardStatus_insert hpools, if_neg hne.symm] at hp'
    exact absurd (hs.flags p hp hp') hlive
  · obtain ⟨hne, hp⟩ := hother p hp
    rw [hteams, if_neg fun hk => hne hk.1] at hteam
    exact hs.refundable p hp g team hteam
  · rw [hteams] at hteam
    split at hteam
    · rename_i hk
      obtain ⟨team, hold, rfl⟩ := List.mem_map.mp hteam
      rcases rewardAfter_cases st.config.gameId ws team with hid | ⟨w, hw, hnames, hconst⟩
      · rw [rewarded, hid]
        exact hs.refunded p g team hold hclaimed hunclaimed
      · rw [rewarded, hconst]
        -- the team is stored under the gamer that the winner names
        refine ha w hw team ?_ ⟨hnames, hclaimed, hunclaimed⟩
        rw [← hnames.1, (hf p g team hold).2, ← hk.1]
        exact hold
    · exact hs.refunded p g team hteam hclaimed hunclaimed

/-- **One effect** keeps refunds and rewards apart, if it meets the condition. -/
theorem Effect.separated (h : Effect api st st' entry) (hs : Separated st) (hf : Filed st)
    (ha : Apart st entry) : Separated st' := by
  cases h with
  | keeps wallets slots hst =>
    rw [hst]
    exact ⟨hs.opened, hs.cancelled, hs.flags, hs.refundable, hs.refunded⟩
  | setsType poolType details hnone hst =>
    rw [hst]
    exact ⟨hs.opened, hs.cancelled, hs.flags, hs.refundable, hs.refunded⟩
  | cancels info status pools hentry hstatus hlive hpools hst =>
    rw [hentry] at ha
    -- cancelling with rewards around is what the condition excludes
    have hblank : AllBlank st' := by
      rw [hst]
      exact ha
    have hnew : st'.status = some gameCancelled := by
      rw [hst]
      exact status_setGameStatus gameCancelled
    refine separated_of_allBlank hblank (fun hopen => ?_) fun _ _ _ => hnew
    rw [hnew] at hopen
    cases hopen
  | locks info pools hentry hopen hpools hst =>
    -- while the game is open there are no rewards at all
    obtain ⟨hblank, hnone⟩ := hs.opened hopen
    have hblank' : AllBlank st' := by
      rw [hst]
      exact hblank
    refine separated_of_unrewarded hblank' fun p => ?_
    have hlocked : ∀ p : String, Locked st (st.poolDetails[p]?) (st'.poolDetails[p]?) := by
      rw [hst]
      exact hpools
    rw [rewardStatus_locked hlocked, hnone]
  | creates info poolType hentry hopens =>
    obtain ⟨hblank, hnone⟩ := hs.opened hopens.opened
    obtain ⟨address, count, -, -, hst⟩ := hopens.created
    have hblank' : AllBlank st' := by
      rw [hst]
      exact hblank
    exact separated_of_unrewarded hblank' (unrewarded_insert (by rw [hst]) rfl hnone)
  | bids info gamer poolType poolId teamId amount hentry hjoins =>
    obtain ⟨hblank, hnone⟩ := hs.opened hjoins.opened
    obtain ⟨details, pool, -, -, -, -, hst⟩ := hjoins.joined
    exact separated_of_unrewarded (hjoins.allBlank hblank)
      (unrewarded_insert (by rw [hst]) rfl hnone)
  | claimsRewards info gamer hentry hclaims => exact hclaims.separated hs
  | claimsRefunds info gamer hentry hclaims => exact hclaims.separated hs
  | distributes info poolId gameWinners isFinalBatch ustForRake gameId status pool teams slots
      hentry hstatus hclosed hpool hteams hst =>
    rw [hentry] at ha
    -- a batch needs a game that is closed, and leaves it closed or completed
    refine separated_of_batch hs hf ha ?_ (by rw [hst]; exact status_setGameStatus _) ?_
      (by rw [hst]) rfl fun p g => by rw [hst]; exact hteams (p, g)
    · rw [hstatus]
      exact fun h => hclosed.1 (Option.some.inj h)
    · cases isFinalBatch <;> decide

theorem separated_of_initial (h : Initial api st) : Separated st := by
  obtain ⟨-, hpools, -, -⟩ := h.spec
  refine separated_of_unrewarded (allBlank_iff.mpr fun p g team hteam => ?_) fun p => ?_
  · rw [h.teams] at hteam
    cases hteam
  · simp [Storage.rewardStatus, hpools]

theorem filed_of_initial (h : Initial api st) : Filed st := by
  intro p g team hteam
  rw [h.teams] at hteam
  cases hteam

/-- In every run the teams are stored under their gamers. -/
theorem run_filed (h : Initial api st) (cs : List Call) : Filed (run (exec api) st cs) :=
  run_preserves (fun _ _ _ _ hf hexec => (exec_effect hexec).filed hf) (filed_of_initial h) cs

/-- **One step** keeps refunds and rewards apart, if it meets the condition. -/
theorem exec_separated (hs : Separated st ∧ Filed st) (ha : (exec api st c).isSome → Apart st c.entry)
    (h : exec api st c = some (st', r)) : Separated st' ∧ Filed st' := by
  have heffect := exec_effect h
  exact ⟨heffect.separated hs.1 hs.2 (ha (by rw [h]; rfl)), heffect.filed hs.2⟩

/-- What a team has claimed stays claimed. -/
theorem exec_follows {t : Place} {team : PoolTeamDetails} (hteam : st.team? t = some team)
    (h : exec api st c = some (st', r)) : ∃ new, st'.team? t = some new ∧ Follows team new :=
  ((exec_effect h).continues t.poolId t.gamer).get hteam

theorem PaysReward.team {t : Place} (h : PaysReward api t st c) :
    ∃ team, st.team? t = some team ∧ 0 < rewardDue team := by
  have hdue := h.due
  cases hteam : st.team? t with
  | none =>
    rw [hteam] at hdue
    exact absurd hdue (lt_irrefl 0)
  | some team =>
    rw [hteam] at hdue
    exact ⟨team, rfl, hdue⟩

/-- After a refund is paid it is claimed. -/
theorem claimedRefund_of_paysRefund {t : Place} (h : PaysRefund api t st c) :
    ∃ team, (commit (exec api) st c).team? t = some team ∧ team.claimedRefund = true := by
  obtain ⟨info, hentry⟩ := h.claim
  obtain ⟨r, hexec⟩ := exists_commit h.accepted
  obtain ⟨team, hteam⟩ := Option.isSome_iff_exists.mp h.team
  refine ⟨team.claimRefund (st.feeOf t.poolId), ?_, rfl⟩
  rw [Storage.team?, (exec_claimRefund hentry hexec).teams,
    if_pos ⟨rfl, h.status⟩, List.getElem?_map]
  exact congrArg (Option.map _) hteam

/-- After a reward is paid it is claimed. -/
theorem claimedReward_of_paysReward {t : Place} (h : PaysReward api t st c) :
    ∃ team, (commit (exec api) st c).team? t = some team ∧ team.claimedReward = true := by
  obtain ⟨info, hentry⟩ := h.claim
  obtain ⟨r, hexec⟩ := exists_commit h.accepted
  obtain ⟨team, hteam, -⟩ := h.team
  refine ⟨team.claimReward, ?_, rfl⟩
  rw [Storage.team?, (exec_claimReward hentry hexec).teams,
    if_pos ⟨rfl, h.status⟩, List.getElem?_map]
  exact congrArg (Option.map _) hteam

theorem mem_teams {t : Place} {team : PoolTeamDetails} (h : st.team? t = some team) :
    team ∈ st.teams t.poolId t.gamer :=
  List.mem_of_getElem? h

/-- A refund that is paid in a run is claimed at its end. -/
theorem run_claimedRefund {t : Place} {cs : List Call}
    (h : ∃ x ∈ history (exec api) st cs, PaysRefund api t x.1 x.2) :
    ∃ team, (run (exec api) st cs).team? t = some team ∧ team.claimedRefund = true := by
  refine run_mark (M := fun st : Storage => ∃ team, st.team? t = some team ∧
    team.claimedRefund = true) (fun _ _ => claimedRefund_of_paysRefund) ?_ h
  rintro s l s' r ⟨team, hteam, hclaimed⟩ hexec
  obtain ⟨new, hnew, hfollows⟩ := exec_follows hteam hexec
  exact ⟨new, hnew, hfollows.claimedRefund hclaimed⟩

/-- A reward that is paid in a run is claimed at its end. -/
theorem run_claimedReward {t : Place} {cs : List Call}
    (h : ∃ x ∈ history (exec api) st cs, PaysReward api t x.1 x.2) :
    ∃ team, (run (exec api) st cs).team? t = some team ∧ team.claimedReward = true := by
  refine run_mark (M := fun st : Storage => ∃ team, st.team? t = some team ∧
    team.claimedReward = true) (fun _ _ => claimedReward_of_paysReward) ?_ h
  rintro s l s' r ⟨team, hteam, hclaimed⟩ hexec
  obtain ⟨new, hnew, hfollows⟩ := exec_follows hteam hexec
  exact ⟨new, hnew, hfollows.claimedReward hclaimed⟩

/-- No reward is paid for a team that has its refund. -/
theorem Separated.not_paysReward {t : Place} {team : PoolTeamDetails} (hs : Separated st)
    (hteam : st.team? t = some team) (hrefund : team.claimedRefund = true) :
    ¬ PaysReward api t st c := by
  intro h
  obtain ⟨team', hteam', hdue⟩ := h.team
  rw [hteam] at hteam'
  cases hteam'
  unfold rewardDue at hdue
  split at hdue
  · exact absurd hdue (lt_irrefl 0)
  · rename_i hreward
    rw [hs.refunded _ _ team (mem_teams hteam) hrefund (Bool.eq_false_iff.mpr hreward)] at hdue
    exact absurd hdue (lt_irrefl 0)

/-- No refund is paid for a team that has claimed its reward. -/
theorem Separated.not_paysRefund {t : Place} {team : PoolTeamDetails} (hs : Separated st)
    (hteam : st.team? t = some team) (hreward : team.claimedReward = true) :
    ¬ PaysRefund api t st c := by
  intro h
  have hblank := hs.refundable t.poolId h.status t.gamer team (mem_teams hteam)
  rw [hblank.2] at hreward
  cases hreward

end Steps

/-- **No team is paid both a refund and a reward** in a run in which every accepted call keeps the
two apart. -/
theorem not_paidTwice (api : Api) (st : Storage) (cs : List Call) (hinit : Initial api st)
    (hapart : ∀ x ∈ history (exec api) st cs, (exec api x.1 x.2).isSome → Apart x.1 x.2.entry)
    (t : Place) : ¬ PaidTwice api t st cs := by
  induction cs using List.reverseRecOn with
  | nil =>
    rintro ⟨⟨x, hx, -⟩, -⟩
    cases hx
  | append_singleton cs c ih =>
    rw [history_snoc] at hapart
    have hbefore : ∀ x ∈ history (exec api) st cs, (exec api x.1 x.2).isSome →
        Apart x.1 x.2.entry :=
      fun x hx => hapart x (List.mem_append_left _ hx)
    have hs : Separated (run (exec api) st cs) :=
      (run_invariant (I := fun st => Separated st ∧ Filed st) (fun _ _ _ _ => exec_separated)
        ⟨separated_of_initial hinit, filed_of_initial hinit⟩ hbefore).1
    rw [PaidTwice, history_snoc]
    rintro ⟨⟨x, hx, hrefund⟩, y, hy, hreward⟩
    rcases List.mem_append.mp hx with hx | hx
    · rcases List.mem_append.mp hy with hy | hy
      · exact ih hbefore ⟨⟨x, hx, hrefund⟩, y, hy, hreward⟩
      · obtain rfl := List.mem_singleton.mp hy
        obtain ⟨team, hteam, hclaimed⟩ := run_claimedRefund ⟨x, hx, hrefund⟩
        exact hs.not_paysReward hteam hclaimed hreward
    · obtain rfl := List.mem_singleton.mp hx
      rcases List.mem_append.mp hy with hy | hy
      · obtain ⟨team, hteam, hclaimed⟩ := run_claimedReward ⟨y, hy, hreward⟩
        exact hs.not_paysRefund hteam hclaimed hrefund
      · -- one call is not both a claim of refunds and one of rewards
        obtain rfl := List.mem_singleton.mp hy
        obtain ⟨info, hclaim⟩ := hrefund.claim
        obtain ⟨info', hclaim'⟩ := hreward.claim
        rw [hclaim] at hclaim'
        cases hclaim'

namespace Sample

/-- Two gamers fill a pool; the game is locked, and one of them is rewarded. -/
def filled : List Call :=
  [setType "duel" 10000, create "duel", bid "alice" "duel" "1" "lions" 10000,
    bid "bob" "duel" "1" "bears" 10000, lock, batch "1" [⟨"alice", "lions", 5000⟩],
    askReward "alice" 200]

/-- The pool has one team only when the game is locked, which is refunded. -/
def dissolved : List Call :=
  [setType "duel" 10000, create "duel", bid "alice" "duel" "1" "lions" 10000, lock]

end Sample

open Sample in
/-- The reward of a full pool is paid. -/
theorem not_paidTwice_filled : ¬ PaidTwice api ⟨"1", "alice", 0⟩ storage filled :=
  not_paidTwice api storage filled initial (by decide +kernel) ⟨"1", "alice", 0⟩

open Sample in
/-- **A dissolved pool is rewarded**: its team, which has its refund, gets the reward as well. -/
theorem paidTwice_dissolved :
    ¬ ∀ (api : Api) (st : Storage) (cs : List Call), Initial api st →
      ∀ t, ¬ PaidTwice api t st cs := by
  intro h
  refine h api storage (dissolved ++ [askRefund "alice", batch "1" [⟨"alice", "lions", 5000⟩],
    askReward "alice" 200]) initial ⟨"1", "alice", 0⟩ ⟨?_, ?_⟩
  · exact ⟨_, mem_history_append storage dissolved (askRefund "alice") _,
      ⟨⟨_, rfl⟩, by decide +kernel, by decide +kernel, by decide +kernel⟩⟩
  · exact ⟨_, mem_history_append storage (dissolved ++ [askRefund "alice",
        batch "1" [⟨"alice", "lions", 5000⟩]]) (askReward "alice" 200) [],
      ⟨⟨_, rfl⟩, by decide +kernel, by decide +kernel, by decide +kernel⟩⟩

end Gamingpool
