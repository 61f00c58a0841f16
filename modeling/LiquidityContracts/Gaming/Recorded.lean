import LiquidityContracts.Gaming.Payouts

/-!
# The rewards recorded for a pool

A batch of rewards records the reward of a winner for every team of the gamer that has the named
id. A gamer may enter a team in a pool more than once, each time for the fee, and then each of the
entries gets the reward. So what a batch adds to the rewards of a pool is bounded by what it lists,
with each winner counted for each of the teams that it names.

## Main definitions

* `Storage.sumTeams`, `Storage.rewardsIn`: sums over the teams of a pool
* `Storage.named`: how many teams a winner names
* `AddsListed`: a batch adds no more than it lists

## Main results

* `sumTeams_rewardsFor`: what the winners are owed, over the teams and over the winners
* `rewardsIn_batch_le`: what a batch adds, in every reachable state
* `not_addsListed`: a team that is entered twice gets its reward twice
-/

namespace Gamingpool

open CosmWasm

/-- The weight of the teams under a key, where those of one pool count. -/
def weighBy (f : PoolTeamDetails → ℕ) (p : String) (k : String × String)
    (teams : List PoolTeamDetails) : ℕ :=
  if k.1 = p then (teams.map f).sum else 0

namespace Storage

variable (st : Storage)

/-- The sum of `f` over the teams of a pool. -/
def sumTeams (f : PoolTeamDetails → ℕ) (p : String) : ℕ :=
  Store.total (weighBy f p) st.poolTeamDetails

/-- The rewards recorded for the teams of a pool. -/
def rewardsIn (p : String) : ℕ := st.sumTeams (·.rewardAmount) p

/-- How many of the gamer's teams in a pool a winner names. -/
def named (p : String) (w : GameResult) : ℕ :=
  (st.teams p w.gamerAddress).countP fun team => w.Names st.config.gameId team

end Storage

/-- An accepted batch of different winners adds no more to the rewards of its pool than it
lists. -/
def AddsListed (api : Api) (st : Storage) (c : Call) : Prop :=
  ∀ info p ws isFinalBatch ustForRake gameId,
    c.entry = .execute info (.gamePoolRewardDistribute p ws isFinalBatch ustForRake gameId) →
    (exec api st c).isSome → (ws.map fun w => (w.gamerAddress, w.teamId)).Nodup →
    (commit (exec api) st c).rewardsIn p ≤ st.rewardsIn p + (ws.map (·.rewardAmount)).sum

/-! ## Sums over the teams of a pool -/

section Sums

variable {st st' : Storage} {f f' : PoolTeamDetails → ℕ} {p g : String}

theorem weighBy_nil (f : PoolTeamDetails → ℕ) (p : String) (k : String × String) :
    weighBy f p k [] = 0 := by
  unfold weighBy
  split
  · rfl
  · rfl

/-- The sum may be taken over any keys that there are teams under. -/
theorem sumTeams_eq {S : Finset (String × String)} (h : st.poolTeamDetails.keys.toFinset ⊆ S) :
    st.sumTeams f p = ∑ k ∈ S, weighBy f p k (st.teams k.1 k.2) := by
  rw [Storage.sumTeams, Store.total_eq_sum h]
  exact Finset.sum_congr rfl fun k _ => Store.weigh_getD (weighBy_nil f p) _ _

/-- Where the sums of the gamers are no more, neither is that of the pool. -/
theorem sumTeams_mono (h : ∀ g, ((st'.teams p g).map f').sum ≤ ((st.teams p g).map f).sum) :
    st'.sumTeams f' p ≤ st.sumTeams f p := by
  have hkeys : st.poolTeamDetails.keys.toFinset ⊆
      st.poolTeamDetails.keys.toFinset ∪ st'.poolTeamDetails.keys.toFinset :=
    Finset.subset_union_left
  have hkeys' : st'.poolTeamDetails.keys.toFinset ⊆
      st.poolTeamDetails.keys.toFinset ∪ st'.poolTeamDetails.keys.toFinset :=
    Finset.subset_union_right
  rw [sumTeams_eq hkeys', sumTeams_eq hkeys]
  refine Finset.sum_le_sum fun k _ => ?_
  unfold weighBy
  split
  · rename_i hk
    rw [hk]
    exact h k.2
  · exact le_rfl

theorem sumTeams_congr (h : ∀ g, ((st'.teams p g).map f').sum = ((st.teams p g).map f).sum) :
    st'.sumTeams f' p = st.sumTeams f p :=
  le_antisymm (sumTeams_mono fun g => (h g).le) (sumTeams_mono fun g => (h g).ge)

theorem sumTeams_add (st : Storage) (f e : PoolTeamDetails → ℕ) (p : String) :
    st.sumTeams (fun team => f team + e team) p = st.sumTeams f p + st.sumTeams e p := by
  have hkeys := Finset.Subset.refl st.poolTeamDetails.keys.toFinset
  rw [sumTeams_eq hkeys, sumTeams_eq hkeys, sumTeams_eq hkeys, ← Finset.sum_add_distrib]
  refine Finset.sum_congr rfl fun k _ => ?_
  unfold weighBy
  split
  · exact List.sum_map_add
  · rfl

theorem sumTeams_zero (st : Storage) (p : String) : st.sumTeams (fun _ => 0) p = 0 := by
  have hadd : st.sumTeams (fun _ => 0) p = st.sumTeams (fun _ => 0) p + st.sumTeams (fun _ => 0) p :=
    sumTeams_add st (fun _ => 0) (fun _ => 0) p
  omega

/-- What only the teams of one gamer count for is a sum over these. -/
theorem sumTeams_single (h : ∀ a, a ≠ g → ((st.teams p a).map f).sum = 0) :
    st.sumTeams f p = ((st.teams p g).map f).sum := by
  rw [sumTeams_eq (Finset.subset_insert (p, g) _), Finset.sum_eq_single (p, g)]
  · exact if_pos rfl
  · rintro ⟨p', a⟩ - hne
    unfold weighBy
    split
    · rename_i hp
      dsimp only at hp
      rw [hp] at hne ⊢
      exact h a fun ha => hne (by rw [ha])
    · rfl
  · intro hnot
    exact absurd (Finset.mem_insert_self _ _) hnot

end Sums

/-! ## A batch of rewards -/

section Batch

variable {api : Api} {st st' : Storage} {r : Response Payload} {gameId p : String}
  {ws : List GameResult} {team : PoolTeamDetails} {g : String} {isFinalBatch : Bool}

theorem rewardsFor_cons (w : GameResult) : rewardsFor gameId (w :: ws) team =
    (if w.Names gameId team then w.rewardAmount else 0) + rewardsFor gameId ws team := by
  unfold rewardsFor
  rw [List.filter_cons]
  split
  · rename_i hw
    rw [List.map_cons, List.sum_cons, if_pos (of_decide_eq_true hw)]
  · rename_i hw
    rw [if_neg (of_decide_eq_false (Bool.not_eq_true _ ▸ hw)), Nat.zero_add]

/-- A batch adds no more to the reward of a team than the rewards of the winners that name it. -/
theorem rewardAfter_le (n : ℕ) : rewardAfter gameId ws team n ≤ n + rewardsFor gameId ws team := by
  rcases rewardAfter_cases gameId ws team with hsame | ⟨w, hw, hnames, hreward⟩
  · rw [hsame]
    exact Nat.le_add_right _ _
  · have hmem : w.rewardAmount ∈
        (ws.filter fun w => w.Names gameId team).map (·.rewardAmount) :=
      List.mem_map_of_mem (List.mem_filter.mpr ⟨hw, decide_eq_true hnames⟩)
    rw [hreward]
    exact (List.single_le_sum (fun _ _ => Nat.zero_le _) _ hmem).trans (Nat.le_add_left _ _)

/-- A winner names no team of another gamer. -/
theorem sum_names_eq_zero (hf : Filed st) (p : String) {w : GameResult} (hg : g ≠ w.gamerAddress) :
    ((st.teams p g).map fun team =>
      if w.Names st.config.gameId team then w.rewardAmount else 0).sum = 0 := by
  refine List.sum_eq_zero fun n hn => ?_
  obtain ⟨team, hteam, rfl⟩ := List.mem_map.mp hn
  exact if_neg fun hnames => hg ((hf p g team hteam).2.symm.trans hnames.1)

/-- **What the winners are owed**, over the teams of a pool, is what each of them is owed for the
teams that it names: these are teams of the gamer. -/
theorem sumTeams_rewardsFor (hf : Filed st) (p : String) (ws : List GameResult) :
    st.sumTeams (rewardsFor st.config.gameId ws) p =
      (ws.map fun w => w.rewardAmount * st.named p w).sum := by
  induction ws with
  | nil => exact sumTeams_zero st p
  | cons w ws ih =>
    have hsplit : rewardsFor st.config.gameId (w :: ws) = fun team =>
        (if w.Names st.config.gameId team then w.rewardAmount else 0) +
          rewardsFor st.config.gameId ws team :=
      funext fun _ => rewardsFor_cons w
    have hother := fun g (hg : g ≠ w.gamerAddress) => sum_names_eq_zero hf p hg
    rw [hsplit, sumTeams_add, ih, sumTeams_single hother, sum_map_ite, List.map_cons, List.sum_cons]
    rfl

/-- A batch rewards the teams of the gamers it lists. -/
theorem Distributes.teams (h : Distributes p ws isFinalBatch st st') (g : String) :
    st'.teams p g = if g ∈ ws.map (·.gamerAddress) then
      (st.teams p g).map (rewarded st.config.gameId ws) else st.teams p g := by
  obtain ⟨pool, teams, total, -, hteams, hst⟩ := h.distributed
  have hg := hteams (p, g)
  simp only [true_and] at hg
  rw [hst]
  exact hg

/-- **What a batch adds** to the rewards of its pool is no more than its winners are owed, each for
all the teams that it names. -/
theorem Distributes.rewardsIn_le (hf : Filed st)
    (h : Distributes p ws isFinalBatch st st') :
    st'.rewardsIn p ≤ st.rewardsIn p + (ws.map fun w => w.rewardAmount * st.named p w).sum := by
  rw [← sumTeams_rewardsFor hf, Storage.rewardsIn, Storage.rewardsIn, ← sumTeams_add]
  refine sumTeams_mono fun g => ?_
  rw [h.teams g]
  split
  · rw [List.map_map]
    exact List.sum_le_sum fun team _ => rewardAfter_le team.rewardAmount
  · exact List.sum_le_sum fun team _ => Nat.le_add_right _ _

end Batch

/-- **What a batch adds in every reachable state**: no more than it lists, with each winner counted
for each of the gamer's teams that it names. Where no winner with a reward names more than one team
this is no more than it lists. -/
theorem rewardsIn_batch_le (api : Api) (st : Storage) (cs : List Call) (c : Call)
    (hinit : Initial api st) (info : MessageInfo) (p : String) (ws : List GameResult)
    (isFinalBatch : Bool) (ustForRake : ℕ) (gameId : String)
    (hentry : c.entry =
      .execute info (.gamePoolRewardDistribute p ws isFinalBatch ustForRake gameId))
    (haccepted : (exec api (run (exec api) st cs) c).isSome) :
    (run (exec api) st (cs ++ [c])).rewardsIn p ≤ (run (exec api) st cs).rewardsIn p +
        (ws.map fun w => w.rewardAmount * (run (exec api) st cs).named p w).sum ∧
      ((∀ w ∈ ws, 0 < w.rewardAmount → (run (exec api) st cs).named p w ≤ 1) →
        (run (exec api) st (cs ++ [c])).rewardsIn p ≤ (run (exec api) st cs).rewardsIn p +
          (ws.map (·.rewardAmount)).sum) := by
  obtain ⟨r, hexec⟩ := exists_commit haccepted
  have hbound := (exec_batch hentry hexec).rewardsIn_le (run_filed hinit cs)
  rw [run_snoc]
  refine ⟨hbound, fun honce => hbound.trans (Nat.add_le_add_left (List.sum_le_sum fun w hw => ?_) _)⟩
  rcases Nat.eq_zero_or_pos w.rewardAmount with hzero | hpos
  · rw [hzero, Nat.zero_mul]
  · exact (Nat.mul_le_mul_left _ (honce w hw hpos)).trans_eq (Nat.mul_one _)

namespace Sample

/-- Alice enters the lions in the pool twice, and the game is locked. -/
def lionsTwice : List Call :=
  [setType "duel" 10000, create "duel", bid "alice" "duel" "1" "lions" 10000,
    bid "alice" "duel" "1" "lions" 10000, lock]

/-- The lions win. -/
def lionsWin : Call := batch "1" [⟨"alice", "lions", 5000⟩]

end Sample

open Sample in
/-- What the lions get for one winner, who names two teams. -/
theorem rewardsIn_batch_le_sample :
    (run (exec api) storage (lionsTwice ++ [lionsWin])).rewardsIn "1" ≤
      (run (exec api) storage lionsTwice).rewardsIn "1" + 10000 := by
  have hbound := (rewardsIn_batch_le api storage lionsTwice lionsWin initial _ "1" _ _ _ _ rfl
    (by decide +kernel)).1
  have hnamed : (([⟨"alice", "lions", 5000⟩] : List GameResult).map fun w =>
      w.rewardAmount * (run (exec api) storage lionsTwice).named "1" w).sum = 10000 := by
    decide +kernel
  rwa [hnamed] at hbound

open Sample in
/-- **A team that is entered twice** gets its reward twice. -/
theorem not_addsListed : ¬ ∀ (api : Api) (st : Storage) (cs : List Call) (c : Call),
    Initial api st → AddsListed api (run (exec api) st cs) c := by
  intro h
  have hle := h api storage lionsTwice lionsWin initial _ "1" _ _ _ _ rfl (by decide +kernel)
    (by decide +kernel)
  exact absurd hle (by decide +kernel)

end Gamingpool
