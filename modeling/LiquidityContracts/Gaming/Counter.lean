import LiquidityContracts.Gaming.Recorded
import LiquidityContracts.Gaming.Slots

/-!
# The reward total of a pool

What the batches of a pool give is added up in a total beside the teams. A batch walks over its
winners, and for each of them over the teams of the gamer and over all the winners again, so that
the rewards of a gamer who is listed twice are added twice, while each is recorded once. The total
is the sum of the recorded rewards in the runs in which no batch lists a gamer with a reward more
than once, and in no others.

## Main definitions

* `listedBy`: the winners that a call rewards in a pool
* `ListsOnce`: each winner is listed once, and names one team
* `CounterExact`: the total is the sum of the recorded rewards
* `SingleGamers`: the condition on a batch
* `overcounted`: what a batch adds beside its rewards

## Main results

* `Distributes.rewardsIn_eq`: what a batch records
* `given_eq`: what a batch adds to the total
* `counterExact_iff`: the total is exact in the runs that meet the condition
* `not_counterExact`: a gamer whose two teams are rewarded in one batch
-/

namespace Gamingpool

open CosmWasm

/-- A message that swaps the collection of a pool. -/
def Entry.isSwap : Entry → Bool
  | .execute _ (.swap _ _) => true
  | _ => false

/-- The winners that a batch for a pool lists. -/
def Entry.winnersFor (p : String) : Entry → List GameResult
  | .execute _ (.gamePoolRewardDistribute poolId gameWinners _ _ _) =>
    if poolId = p then gameWinners else []
  | _ => []

/-- The winners that an accepted call rewards in a pool. -/
def listedBy (api : Api) (p : String) (st : Storage) (c : Call) : List GameResult :=
  if (exec api st c).isSome then c.entry.winnersFor p else []

/-- A winner as it is listed. -/
def GameResult.listing (w : GameResult) : String × String := (w.gamerAddress, w.teamId)

/-- All winners that a run rewards in a pool. -/
def allListed (api : Api) (p : String) (st : Storage) (cs : List Call) : List (String × String) :=
  ((history (exec api) st cs).flatMap fun x => listedBy api p x.1 x.2).map GameResult.listing

/-- A run without swaps, in which each winner of a pool is listed once and names one team. -/
structure ListsOnce (api : Api) (p : String) (st : Storage) (cs : List Call) : Prop where
  swapless : ∀ x ∈ history (exec api) st cs, (exec api x.1 x.2).isSome → x.2.entry.isSwap = false
  distinct : (allListed api p st cs).Nodup
  names : ∀ x ∈ history (exec api) st cs, ∀ w ∈ listedBy api p x.1 x.2, x.1.named p w = 1

/-- The total of a pool is the sum of the rewards of its teams. -/
def CounterExact (p : String) (st : Storage) : Prop :=
  loadCurrentReward st p = some (st.rewardsIn p)

/-- How often a batch lists the gamer of a winner. -/
def listings (ws : List GameResult) (w : GameResult) : ℕ :=
  ws.countP fun u => w.gamerAddress = u.gamerAddress

/-- A batch lists each gamer with a reward once. -/
def SingleGamers (ws : List GameResult) : Prop :=
  ∀ w ∈ ws, 0 < w.rewardAmount → listings ws w = 1

instance (ws : List GameResult) : Decidable (SingleGamers ws) :=
  inferInstanceAs (Decidable (∀ _ ∈ _, _))

/-- What a batch adds to the total beside its rewards: these again for each further listing of
the gamer. -/
def overcounted (ws : List GameResult) : ℕ :=
  (ws.map fun w => w.rewardAmount * (listings ws w - 1)).sum

/-! ## The winners of a batch -/

section Winners

variable {ws : List GameResult}

/-- A winner's gamer is listed. -/
theorem listings_pos {w : GameResult} (hw : w ∈ ws) : 0 < listings ws w :=
  List.countP_pos_iff.mpr ⟨w, hw, decide_eq_true rfl⟩

/-- What the listings count is what the winners get and what is counted beside it. -/
theorem sum_listings (ws : List GameResult) :
    (ws.map fun w => w.rewardAmount * listings ws w).sum =
      (ws.map (·.rewardAmount)).sum + overcounted ws := by
  rw [overcounted, ← List.sum_map_add]
  refine congrArg List.sum (List.map_congr_left fun w hw => ?_)
  have hpos := listings_pos hw
  calc w.rewardAmount * listings ws w = w.rewardAmount * (1 + (listings ws w - 1)) := by
        rw [Nat.add_sub_cancel' hpos]
    _ = w.rewardAmount + w.rewardAmount * (listings ws w - 1) := by
        rw [Nat.mul_add, Nat.mul_one]

/-- Nothing is counted beside the rewards where each gamer with a reward is listed once. -/
theorem overcounted_eq_zero : overcounted ws = 0 ↔ SingleGamers ws := by
  rw [overcounted, List.sum_eq_zero_iff, List.forall_mem_map]
  refine forall₂_congr fun w hw => ?_
  have hpos := listings_pos hw
  rw [Nat.mul_eq_zero]
  omega

/-- A sum over pairs, one way and the other. -/
theorem sum_sum_ite {α : Type} (l l' : List α) (f : α → ℕ) (R : α → α → Prop) [DecidableRel R] :
    (l.map fun a => (l'.map fun b => if R b a then f b else 0).sum).sum =
      (l'.map fun b => f b * l.countP fun a => R b a).sum := by
  induction l with
  | nil => simp
  | cons a l ih =>
    rw [List.map_cons, List.sum_cons, ih, ← List.sum_map_add]
    refine congrArg List.sum (List.map_congr_left fun b _ => ?_)
    rw [List.countP_cons, Nat.mul_add, Nat.add_comm]
    congr 1
    by_cases h : R b a
    · simp [h]
    · simp [h]

end Winners

/-! ## A batch of rewards -/

section Batch

variable {api : Api} {st st' : Storage} {c : Call} {r : Response Payload} {info : MessageInfo}
  {gameId p g : String} {ws : List GameResult} {isFinalBatch : Bool} {ustForRake : ℕ}
  {team : PoolTeamDetails} {L : List (String × String)}

/-- The teams of a pool that have rewards are among those listed. -/
def RewardsListed (L : List (String × String)) (p : String) (st : Storage) : Prop :=
  ∀ g, ∀ team ∈ st.teams p g, 0 < team.rewardAmount → (team.gamerAddress, team.teamId) ∈ L

/-- What the winners are owed for the teams of one gamer is what those of the gamer are owed. -/
theorem sum_rewardsFor (hf : Filed st) (p g : String) (ws : List GameResult) :
    ((st.teams p g).map (rewardsFor st.config.gameId ws)).sum =
      (ws.map fun w =>
        if w.gamerAddress = g then w.rewardAmount * st.named p w else 0).sum := by
  induction ws with
  | nil =>
    refine List.sum_eq_zero fun n hn => ?_
    obtain ⟨team, -, rfl⟩ := List.mem_map.mp hn
    rfl
  | cons w ws ih =>
    have hsplit : (st.teams p g).map (rewardsFor st.config.gameId (w :: ws)) =
        (st.teams p g).map fun team =>
          (if w.Names st.config.gameId team then w.rewardAmount else 0) +
            rewardsFor st.config.gameId ws team :=
      List.map_congr_left fun _ _ => rewardsFor_cons w
    rw [hsplit, List.sum_map_add, ih, List.map_cons, List.sum_cons]
    congr 1
    split
    · rename_i hg
      rw [sum_map_ite, Storage.named, hg]
    · rename_i hg
      exact sum_names_eq_zero hf p (Ne.symm hg)

/-- **What a batch adds to the total**: the reward of each winner as often as the gamer is listed,
where each winner names one team. -/
theorem given_eq (hf : Filed st) (hnames : ∀ w ∈ ws, st.named p w = 1) :
    (ws.map fun w =>
      ((st.teams p w.gamerAddress).map (rewardsFor st.config.gameId ws)).sum).sum =
        (ws.map (·.rewardAmount)).sum + overcounted ws := by
  have hinner : ∀ g, ((st.teams p g).map (rewardsFor st.config.gameId ws)).sum =
      (ws.map fun w => if w.gamerAddress = g then w.rewardAmount else 0).sum := by
    intro g
    rw [sum_rewardsFor hf]
    refine congrArg List.sum (List.map_congr_left fun w hw => ?_)
    rw [hnames w hw, Nat.mul_one]
  simp only [hinner]
  rw [sum_sum_ite ws ws (·.rewardAmount) fun w u => w.gamerAddress = u.gamerAddress]
  exact sum_listings ws

/-- Where at most one winner names a team, which had no reward, it gets what it is owed. -/
theorem rewardAfter_eq_add {n : ℕ} (hnodup : (ws.map GameResult.listing).Nodup)
    (hzero : ∀ w ∈ ws, w.Names gameId team → n = 0) :
    rewardAfter gameId ws team n = n + rewardsFor gameId ws team := by
  induction ws generalizing n with
  | nil => rfl
  | cons w ws ih =>
    rw [List.map_cons, List.nodup_cons] at hnodup
    rw [rewardAfter_cons, rewardsFor_cons]
    by_cases hw : w.Names gameId team
    · -- no further winner names the team
      have hnone : ∀ u ∈ ws, ¬ u.Names gameId team := by
        intro u hu hnames
        refine hnodup.1 (List.mem_map.mpr ⟨u, hu, ?_⟩)
        rw [GameResult.listing, GameResult.listing, ← hnames.1, ← hnames.2.1, hw.1, hw.2.1]
      rw [if_pos hw, if_pos hw, ih hnodup.2 fun u hu hnames => absurd hnames (hnone u hu),
        hzero w List.mem_cons_self hw, Nat.zero_add]
    · rw [if_neg hw, if_neg hw, Nat.zero_add]
      exact ih hnodup.2 fun u hu => hzero u (List.mem_cons_of_mem w hu)

/-- A team of a gamer who is not listed gets nothing. -/
theorem rewardsFor_eq_zero (h : team.gamerAddress ∉ ws.map (·.gamerAddress)) :
    rewardsFor gameId ws team = 0 := by
  refine List.sum_eq_zero fun n hn => ?_
  obtain ⟨w, hw, rfl⟩ := List.mem_map.mp hn
  obtain ⟨hw, hnames⟩ := List.mem_filter.mp hw
  refine absurd (List.mem_map.mpr ⟨w, hw, ?_⟩) h
  exact (of_decide_eq_true hnames).1.symm

/-- **What a batch records** is what its winners are owed, if none of them was listed before. -/
theorem Distributes.rewardsIn_eq (hf : Filed st) (h : Distributes p ws isFinalBatch st st')
    (hlisted : RewardsListed L p st) (hnodup : (ws.map GameResult.listing).Nodup)
    (hnew : ∀ w ∈ ws, w.listing ∉ L) (hnames : ∀ w ∈ ws, st.named p w = 1) :
    st'.rewardsIn p = st.rewardsIn p + (ws.map (·.rewardAmount)).sum := by
  have howed : (ws.map fun w => w.rewardAmount * st.named p w) = ws.map (·.rewardAmount) :=
    List.map_congr_left fun w hw => by rw [hnames w hw, Nat.mul_one]
  rw [← howed, ← sumTeams_rewardsFor hf, Storage.rewardsIn, Storage.rewardsIn, ← sumTeams_add]
  refine sumTeams_congr fun g => ?_
  rw [h.teams g]
  split
  · rw [List.map_map]
    refine congrArg List.sum (List.map_congr_left fun team hteam => ?_)
    refine rewardAfter_eq_add hnodup fun w hw hnamed => ?_
    -- a team with a reward has been listed before
    by_contra hreward
    refine hnew w hw ?_
    rw [GameResult.listing, ← hnamed.1, ← hnamed.2.1]
    exact hlisted g team hteam (Nat.pos_of_ne_zero hreward)
  · rename_i hg
    refine congrArg List.sum (List.map_congr_left fun team hteam => ?_)
    rw [← (hf p g team hteam).2] at hg
    rw [rewardsFor_eq_zero hg, Nat.add_zero]

/-- After a batch the teams with rewards are among those listed before and the winners. -/
theorem Distributes.rewardsListed (h : Distributes p ws isFinalBatch st st')
    (hlisted : RewardsListed L p st) : RewardsListed (L ++ ws.map GameResult.listing) p st' := by
  intro g team hteam hpos
  rw [h.teams g] at hteam
  split at hteam
  · obtain ⟨old, hold, rfl⟩ := List.mem_map.mp hteam
    rcases rewardAfter_cases st.config.gameId ws old with hsame | ⟨w, hw, hnames, -⟩
    · rw [rewarded, hsame] at hpos
      exact List.mem_append_left _ (hlisted g old hold hpos)
    · refine List.mem_append_right _ (List.mem_map.mpr ⟨w, hw, ?_⟩)
      rw [GameResult.listing, ← hnames.1, ← hnames.2.1]
      rfl
  · exact List.mem_append_left _ (hlisted g team hteam hpos)

/-- The total after an accepted batch. -/
theorem exec_batch_total (hentry : c.entry =
      .execute info (.gamePoolRewardDistribute p ws isFinalBatch ustForRake gameId))
    (h : exec api st c = some (st', r)) :
    loadCurrentReward st' p = some ((loadCurrentReward st p).getD 0 + (ws.map fun w =>
      ((st.teams p w.gamerAddress).map (rewardsFor st.config.gameId ws)).sum).sum) := by
  rw [exec, hentry] at h
  obtain ⟨status, pool, details, teams, given, -, -, -, -, hloop, hsaved, -⟩ :=
    gamePoolRewardDistribute_parts (toOption_eq_some.mp h)
  have hgiven := (foldlM_rewardWinner hloop).2
  dsimp only at hgiven
  rw [Nat.zero_add] at hgiven
  rw [loadCurrentReward_eq, loadCurrentReward_eq, addReward_total hsaved, Store.get_insert_self,
    hgiven]
  rfl

end Batch

/-! ## Other calls -/

/-- How the teams of a gamer go on where nothing is rewarded: those there follow with their
rewards, and those that are added have none. -/
def Carried (old new : List PoolTeamDetails) : Prop :=
  ∃ f added, (∀ team, Follows team (f team) ∧ (f team).rewardAmount = team.rewardAmount) ∧
    new = old.map f ++ added ∧ ∀ team ∈ added, team.rewardAmount = 0

section Others

variable {api : Api} {st st' : Storage} {entry : Entry} {c : Call} {r : Response Payload}
  {p g : String} {l l' : List PoolTeamDetails} {L : List (String × String)}

theorem Carried.map {f : PoolTeamDetails → PoolTeamDetails}
    (hf : ∀ team, Follows team (f team) ∧ (f team).rewardAmount = team.rewardAmount)
    (h : l' = l.map f) : Carried l l' :=
  ⟨f, [], hf, by rw [h, List.append_nil], nofun⟩

theorem Carried.same (h : l' = l) : Carried l l' :=
  .map (fun team => ⟨Follows.refl team, rfl⟩) (by rw [h, List.map_id'])

theorem Carried.ite {P : Prop} [Decidable P] {f : PoolTeamDetails → PoolTeamDetails}
    (hf : ∀ team, Follows team (f team) ∧ (f team).rewardAmount = team.rewardAmount)
    (h : l' = if P then l.map f else l) : Carried l l' := by
  split at h
  · exact .map hf h
  · exact .same h

/-- **Every effect but a batch for the pool** carries the rewards of its teams on. -/
theorem Effect.carried (h : Effect api st st' entry) (hother : entry.rewardPool ≠ some p)
    (g : String) : Carried (st.teams p g) (st'.teams p g) := by
  cases h with
  | keeps wallets slots hst => exact .same (by rw [hst]; rfl)
  | setsType poolType details hnone hst => exact .same (by rw [hst]; rfl)
  | cancels info status pools hentry hstatus hlive hpools hst => exact .same (by rw [hst]; rfl)
  | locks info pools hentry hopen hpools hst => exact .same (by rw [hst]; rfl)
  | creates info poolType hentry hopens =>
    obtain ⟨address, count, -, -, hst⟩ := hopens.created
    exact .same (by rw [hst]; rfl)
  | bids info gamer poolType poolId teamId amount hentry hjoins =>
    have hteams := hjoins.teams p g
    split at hteams
    · rename_i hk
      rw [hk.1, hk.2] at hteams
      refine ⟨id, [newTeam st.config.gameId g p teamId poolType],
        fun team => ⟨Follows.refl team, rfl⟩, ?_, fun team hteam => ?_⟩
      · rw [hteams, List.map_id]
      · rw [List.mem_singleton.mp hteam]
        rfl
    · exact .same hteams
  | claimsRewards info gamer hentry hclaims =>
    exact .ite (fun team => ⟨follows_claimReward team, rfl⟩) (hclaims.teams p g)
  | claimsRefunds info gamer hentry hclaims =>
    exact .ite (fun team => ⟨follows_claimRefund (st.feeOf p) team, rfl⟩) (hclaims.teams p g)
  | distributes info poolId gameWinners isFinalBatch ustForRake gameId status pool teams slots
      hentry hstatus hclosed hpool hteams hst =>
    -- the batch is for another pool
    rw [hentry] at hother
    have hg := hteams (p, g)
    rw [if_neg fun hk => hother (congrArg some hk.1.symm)] at hg
    exact .same (by rw [hst]; exact hg)

theorem rewardsIn_of_carried (h : ∀ g, Carried (st.teams p g) (st'.teams p g)) :
    st'.rewardsIn p = st.rewardsIn p := by
  refine sumTeams_congr fun g => ?_
  obtain ⟨f, added, hf, hteams, hadded⟩ := h g
  have hzero : (added.map (·.rewardAmount)).sum = 0 := by
    refine List.sum_eq_zero fun n hn => ?_
    obtain ⟨team, hteam, rfl⟩ := List.mem_map.mp hn
    exact hadded team hteam
  rw [hteams, List.map_append, List.sum_append, hzero, Nat.add_zero, List.map_map]
  exact congrArg List.sum (List.map_congr_left fun team _ => (hf team).2)

theorem RewardsListed.carried (hlisted : RewardsListed L p st)
    (h : ∀ g, Carried (st.teams p g) (st'.teams p g)) : RewardsListed L p st' := by
  intro g team hteam hpos
  obtain ⟨f, added, hf, hteams, hadded⟩ := h g
  rw [hteams] at hteam
  rcases List.mem_append.mp hteam with hteam | hteam
  · obtain ⟨old, hold, rfl⟩ := List.mem_map.mp hteam
    rw [(hf old).2] at hpos
    rw [(hf old).1.gamerAddress, (hf old).1.teamId]
    exact hlisted g old hold hpos
  · rw [hadded team hteam] at hpos
    exact absurd hpos (lt_irrefl 0)

/-- Nothing is known of any swap. -/
def Swapless (st : Storage) : Prop := ∀ p, querySwapDataForPool st p = none

/-- Without swaps there is no reply to one that is accepted either. -/
theorem Swapless.swapPool_eq_none (hs : Swapless st) (hn : c.entry.isSwap = false)
    (h : exec api st c = some (st', r)) : c.entry.swapPool = none := by
  unfold exec at h
  split at h
  · rename_i info msg hentry
    rw [hentry] at hn ⊢
    cases msg with
    | swap amount poolId => cases hn
    | _ => rfl
  -- a reply loads what is known of the swap
  · rename_i id hentry
    have hnone := hs (toString id)
    have hreply := toOption_eq_some.mp h
    unfold reply at hreply
    obtain ⟨balance, -, hreply⟩ := bind_eq_ok.mp hreply
    obtain ⟨balanceInfo, hload, hreply⟩ := bind_eq_ok.mp hreply
    rw [querySwapDataForPool_eq, load_eq_ok.mp hload] at hnone
    cases hnone

theorem Swapless.exec (hs : Swapless st) (hn : c.entry.isSwap = false)
    (h : exec api st c = some (st', r)) : Swapless st' := by
  intro q
  have hnone := hs q
  rw [querySwapDataForPool_eq] at hnone ⊢
  cases exec_slots h with
  | keeps hswap hreward hst => rwa [hst]
  | swaps poolId details hswap hreward hst =>
    rw [hs.swapPool_eq_none hn h] at hswap
    cases hswap
  | rewards poolId amount hswap hreward hst =>
    rw [hst, Store.get_insert]
    split
    · rfl
    · exact hnone

end Others

/-! ## Runs -/

section Runs

variable {api : Api} {st : Storage} {cs : List Call} {c : Call} {r : Response Payload} {p : String}
  {ws : List GameResult}

/-- What is known of a pool after a run: what its total has beside the rewards of its teams. -/
structure Tallied (api : Api) (p : String) (st : Storage) (cs : List Call) : Prop where
  swapless : Swapless (run (exec api) st cs)
  listed : RewardsListed (allListed api p st cs) p (run (exec api) st cs)
  total : (loadCurrentReward (run (exec api) st cs) p).getD 0 =
    (run (exec api) st cs).rewardsIn p +
      tally (exec api) (fun st c => overcounted (listedBy api p st c)) st cs

theorem allListed_snoc : allListed api p st (cs ++ [c]) =
    allListed api p st cs ++ (listedBy api p (run (exec api) st cs) c).map GameResult.listing := by
  rw [allListed, history_snoc, List.flatMap_append, List.map_append, List.flatMap_singleton]
  rfl

theorem entry_of_rewardPool {entry : Entry} (h : entry.rewardPool = some p) :
    ∃ info ws isFinalBatch ustForRake gameId,
      entry = .execute info (.gamePoolRewardDistribute p ws isFinalBatch ustForRake gameId) := by
  unfold Entry.rewardPool at h
  split at h
  · cases h
    exact ⟨_, _, _, _, _, rfl⟩
  · cases h

theorem listedBy_of_none (h : exec api st c = none) : listedBy api p st c = [] := by
  rw [listedBy, h]
  rfl

theorem listedBy_of_other (h : c.entry.rewardPool ≠ some p) : listedBy api p st c = [] := by
  unfold listedBy Entry.winnersFor
  split
  · split
    · rename_i hentry
      rw [hentry] at h
      exact if_neg fun hp => h (congrArg some hp)
    · rfl
  · rfl

theorem listedBy_of_batch {info : MessageInfo} {isFinalBatch : Bool} {ustForRake : ℕ}
    {gameId : String} (hentry : c.entry =
      .execute info (.gamePoolRewardDistribute p ws isFinalBatch ustForRake gameId))
    (h : (exec api st c).isSome) : listedBy api p st c = ws := by
  rw [listedBy, if_pos h, hentry]
  exact if_pos rfl

theorem ListsOnce.before (h : ListsOnce api p st (cs ++ [c])) : ListsOnce api p st cs := by
  have hsub : history (exec api) st cs ⊆ history (exec api) st (cs ++ [c]) :=
    history_subset (List.prefix_append cs [c])
  refine ⟨fun x hx => h.swapless x (hsub hx), ?_, fun x hx => h.names x (hsub hx)⟩
  have hdistinct := h.distinct
  rw [allListed_snoc] at hdistinct
  exact (List.nodup_append.mp hdistinct).1

theorem tallied_of_initial (hinit : Initial api st) (p : String) : Tallied api p st [] := by
  have hteams : ∀ g, st.teams p g = [] := fun g => hinit.teams p g
  refine ⟨fun q => ?_, fun g team hteam => ?_, ?_⟩
  · rw [querySwapDataForPool_eq, run_nil, hinit.slots]
    rfl
  · rw [run_nil, hteams] at hteam
    cases hteam
  · have hzero : st.rewardsIn p = 0 := by
      rw [Storage.rewardsIn, Storage.sumTeams, hinit.spec.2.2.1, Store.total_empty]
    rw [run_nil, tally_nil, loadCurrentReward_eq, hinit.slots, hzero]
    rfl

/-- A call that rewards nothing in the pool leaves its total where it was. -/
theorem Tallied.quiet (ht : Tallied api p st cs)
    (hlisted : listedBy api p (run (exec api) st cs) c = [])
    (hswapless : Swapless (commit (exec api) (run (exec api) st cs) c))
    (hcarried : ∀ g, Carried ((run (exec api) st cs).teams p g)
      ((commit (exec api) (run (exec api) st cs) c).teams p g))
    (htotal : loadCurrentReward (commit (exec api) (run (exec api) st cs) c) p =
      loadCurrentReward (run (exec api) st cs) p) : Tallied api p st (cs ++ [c]) := by
  refine ⟨?_, ?_, ?_⟩
  · rw [run_snoc]
    exact hswapless
  · rw [run_snoc, allListed_snoc, hlisted, List.map_nil, List.append_nil]
    exact ht.listed.carried hcarried
  · rw [run_snoc, tally_snoc, hlisted, htotal, ht.total, rewardsIn_of_carried hcarried]
    rfl

/-- An accepted batch adds to the total what it records, and what it counts beside that. -/
theorem Tallied.batch {info : MessageInfo} {isFinalBatch : Bool} {ustForRake : ℕ} {gameId : String}
    (hinit : Initial api st) (h : ListsOnce api p st (cs ++ [c])) (ht : Tallied api p st cs)
    (hentry : c.entry =
      .execute info (.gamePoolRewardDistribute p ws isFinalBatch ustForRake gameId))
    (hexec : exec api (run (exec api) st cs) c =
      some (commit (exec api) (run (exec api) st cs) c, r)) : Tallied api p st (cs ++ [c]) := by
  have hmem : (run (exec api) st cs, c) ∈ history (exec api) st (cs ++ [c]) :=
    mem_history_append st cs c []
  have haccepted : (exec api (run (exec api) st cs) c).isSome := by
    rw [hexec]
    rfl
  have hlistedBy := listedBy_of_batch hentry haccepted
  have hf := run_filed hinit cs
  have hnames : ∀ w ∈ ws, (run (exec api) st cs).named p w = 1 := by
    intro w hw
    rw [← hlistedBy] at hw
    exact h.names _ hmem w hw
  -- the winners are listed once, and none of them was listed before
  have hdistinct := h.distinct
  rw [allListed_snoc, hlistedBy, List.nodup_append] at hdistinct
  obtain ⟨-, hnodup, hapart⟩ := hdistinct
  have hbatch := exec_batch hentry hexec
  have hrecorded := hbatch.rewardsIn_eq hf ht.listed hnodup
    (fun w hw hin => hapart _ hin _ (List.mem_map_of_mem hw) rfl) hnames
  refine ⟨?_, ?_, ?_⟩
  · rw [run_snoc]
    exact ht.swapless.exec (h.swapless _ hmem haccepted) hexec
  · rw [run_snoc, allListed_snoc, hlistedBy]
    exact hbatch.rewardsListed ht.listed
  · rw [run_snoc, tally_snoc, hlistedBy, exec_batch_total hentry hexec, Option.getD_some, ht.total,
      given_eq hf hnames, hrecorded]
    omega

/-- **The total of a pool after a run**, in which each winner is listed once and names one team. -/
theorem run_tallied (hinit : Initial api st) (h : ListsOnce api p st cs) : Tallied api p st cs := by
  induction cs using List.reverseRecOn with
  | nil => exact tallied_of_initial hinit p
  | append_singleton cs c ih =>
    have ht := ih h.before
    rcases commit_cases (exec api) (run (exec api) st cs) c with ⟨r, hexec⟩ | ⟨hnone, hsame⟩
    · by_cases hpool : c.entry.rewardPool = some p
      · obtain ⟨info, ws, isFinalBatch, ustForRake, gameId, hentry⟩ := entry_of_rewardPool hpool
        exact ht.batch hinit h hentry hexec
      · have haccepted : (exec api (run (exec api) st cs) c).isSome := by
          rw [hexec]
          rfl
        have hn := h.swapless _ (mem_history_append st cs c []) haccepted
        have hswap := ht.swapless.swapPool_eq_none hn hexec
        refine ht.quiet (listedBy_of_other hpool) (ht.swapless.exec hn hexec)
          (fun g => (exec_effect hexec).carried hpool g) ?_
        rw [loadCurrentReward_eq, loadCurrentReward_eq, slot_of_neither]
        · rw [hswap]
          rintro ⟨hs, -⟩
          cases hs
        · exact fun hr => hpool hr.1
    · refine ht.quiet (listedBy_of_none hnone) ?_ (fun g => .same ?_) ?_
      · rw [hsame]
        exact ht.swapless
      · rw [hsame]
      · rw [hsame]

/-- Once there is a batch for a pool, its total can be read. -/
theorem isSome_of_batch (hinit : Initial api st) (h : ListsOnce api p st cs)
    (hbatch : ∃ x ∈ history (exec api) st cs,
      x.2.entry.rewardPool = some p ∧ (exec api x.1 x.2).isSome) :
    (loadCurrentReward (run (exec api) st cs) p).isSome := by
  -- without swaps there is none that could take the place of the total
  have hswapless : ∀ x ∈ history (exec api) st cs, Swapless x.1 :=
    history_invariant (P := fun st c => (exec api st c).isSome → c.entry.isSwap = false)
      (fun s c s' r hs hn hexec => hs.exec (hn (by rw [hexec]; rfl)) hexec)
      (tallied_of_initial hinit p).swapless h.swapless
  have hapart : SwappedOrRewarded api st cs := by
    intro x hx y _ haccepted _ hswapped
    obtain ⟨r, hexec⟩ := exists_commit haccepted
    rw [(hswapless x hx).swapPool_eq_none (h.swapless x hx haccepted) hexec] at hswapped
    cases hswapped
  rw [(run_reads hinit hapart p).2, lastSome_isSome]
  obtain ⟨x, hx, hwritten⟩ := hbatch
  exact ⟨x, hx, rewardWritten_isSome.mpr hwritten⟩

end Runs

/-- **The total of a pool is the sum of the recorded rewards** after a run in which each winner is
listed once and names one team, if and only if no batch lists a gamer with a reward more than
once. -/
theorem counterExact_iff (api : Api) (st : Storage) (cs : List Call) (p : String)
    (hinit : Initial api st) (hlists : ListsOnce api p st cs)
    (hbatch : ∃ x ∈ history (exec api) st cs,
      x.2.entry.rewardPool = some p ∧ (exec api x.1 x.2).isSome) :
    CounterExact p (run (exec api) st cs) ↔
      ∀ x ∈ history (exec api) st cs, SingleGamers (listedBy api p x.1 x.2) := by
  obtain ⟨n, hn⟩ := Option.isSome_iff_exists.mp (isSome_of_batch hinit hlists hbatch)
  have htotal := (run_tallied hinit hlists).total
  rw [hn, Option.getD_some] at htotal
  have hzero : tally (exec api) (fun st c => overcounted (listedBy api p st c)) st cs = 0 ↔
      ∀ x ∈ history (exec api) st cs, SingleGamers (listedBy api p x.1 x.2) := by
    rw [tally, List.sum_eq_zero_iff, List.forall_mem_map]
    exact forall₂_congr fun x _ => overcounted_eq_zero
  rw [CounterExact, hn, Option.some.injEq, ← hzero]
  omega

namespace Sample

/-- Alice has two teams in the pool and bob one, when the game is locked. -/
def threeTeams : List Call :=
  [setType "duel" 10000, create "duel", bid "alice" "duel" "1" "lions" 10000,
    bid "alice" "duel" "1" "bears" 10000, bid "bob" "duel" "1" "wolves" 10000, lock]

/-- Each of alice's teams is rewarded in a batch of its own. -/
def inTwoBatches : List Call :=
  threeTeams ++ [batch "1" [⟨"alice", "lions", 5000⟩, ⟨"bob", "wolves", 2000⟩],
    batch "1" [⟨"alice", "bears", 3000⟩]]

/-- Both of alice's teams are rewarded in one batch. -/
def inOneBatch : List Call :=
  threeTeams ++ [batch "1" [⟨"alice", "lions", 5000⟩, ⟨"alice", "bears", 3000⟩]]

end Sample

open Sample in
/-- The total of two batches, each of which lists its gamers once. -/
theorem counterExact_inTwoBatches : CounterExact "1" (run (exec api) storage inTwoBatches) :=
  (counterExact_iff api storage inTwoBatches "1" initial
    ⟨by decide +kernel, by decide +kernel, by decide +kernel⟩ (by decide +kernel)).mpr
    (by decide +kernel)

open Sample in
/-- **A gamer whose two teams are rewarded in one batch** is counted twice. -/
theorem not_counterExact : ¬ ∀ (api : Api) (st : Storage) (cs : List Call) (p : String),
    Initial api st → ListsOnce api p st cs →
      (∃ x ∈ history (exec api) st cs,
        x.2.entry.rewardPool = some p ∧ (exec api x.1 x.2).isSome) →
      CounterExact p (run (exec api) st cs) := by
  intro h
  have hexact := h api storage inOneBatch "1" initial
    ⟨by decide +kernel, by decide +kernel, by decide +kernel⟩ (by decide +kernel)
  exact absurd hexact (by unfold CounterExact; decide +kernel)

end Gamingpool
