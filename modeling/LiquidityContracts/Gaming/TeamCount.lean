import LiquidityContracts.Gaming.Payouts

/-!
# The teams of a gamer, as they are counted

`get_team_count_for_user_in_pool_type` walks over the keys of all teams, each of which is that of a
pool and a gamer, and for each of them loads the teams of the gamer in question. A pool counts once
for every gamer who has teams in it, and a pool in which only others have teams is an error. So the
count is right for gamers who have teams in every pool in which there are any, and who are alone in
the pools that count: only a multiple of 2^32 teams that are counted again would go unnoticed.

## Main definitions

* `getTeamCountForUserInPoolType`: the query
* `Storage.teamCount`: how many teams there are
* `recounted`: how many the query counts again, for the other gamers
* `CountsRight`: the query tells how many there are
* `Alone`: the condition on a gamer

## Main results

* `getTeamCount_eq_ok`: what the query tells
* `recounted_eq_zero_iff`: nothing is counted again for a gamer alone in the pools that count
* `countsRight_iff`: in every reachable state the query is right for the gamers that meet the
  condition
* `not_countsRight`: two gamers with a team each, in one pool
-/

namespace Gamingpool

open CosmWasm

/-! ## The query -/

section Query

variable (st : Storage) (gamer gameId poolType : String)

/-- The round of `get_team_count_for_user_in_pool_type` for a team. -/
def countTeam (poolId : String) (count : ℕ) (team : PoolTeamDetails) : ℕ :=
  if team.poolType = poolType ∧ team.gameId = gameId ∧ team.gamerAddress = gamer ∧
      team.poolId = poolId then
    Uint32.add count 1
  else count

/-- The round of `get_team_count_for_user_in_pool_type` for a key: the gamer of the key is not
looked at. -/
def countPool (count : ℕ) (key : String × String) : Exec ContractError ℕ := do
  let teamDetails ← load "Vec<PoolTeamDetails>" (st.poolTeamDetails[(key.1, gamer)]?)
  return teamDetails.foldl (countTeam gamer gameId poolType key.1) count

/-- `get_team_count_for_user_in_pool_type`. -/
def getTeamCountForUserInPoolType : Exec ContractError ℕ :=
  st.poolTeamDetails.keys.foldlM (countPool st gamer gameId poolType) 0

/-- A team of a gamer, in pools of a type. -/
def PoolTeamDetails.Counts (team : PoolTeamDetails) : Prop :=
  team.gamerAddress = gamer ∧ team.gameId = gameId ∧ team.poolType = poolType

instance (team : PoolTeamDetails) : Decidable (team.Counts gamer gameId poolType) :=
  inferInstanceAs (Decidable (_ ∧ _ ∧ _))

/-- How many teams of a gamer there are in pools of a type. -/
def Storage.teamCount : ℕ :=
  Store.total (fun _ teams => teams.countP fun team => team.Counts gamer gameId poolType)
    st.poolTeamDetails

/-- The query tells how many teams there are. -/
def CountsRight : Prop :=
  getTeamCountForUserInPoolType st gamer gameId poolType = .ok (st.teamCount gamer gameId poolType)

/-- How many teams of a gamer count in a pool. -/
def countIn (poolId : String) : ℕ :=
  (st.teams poolId gamer).countP fun team => team.Counts gamer gameId poolType

/-- How many teams are counted again, for the other gamers of the pools. -/
def recounted : ℕ :=
  ∑ k ∈ st.poolTeamDetails.keys.toFinset with k.2 ≠ gamer, countIn st gamer gameId poolType k.1

/-- The gamer has teams in every pool in which there are any, and none of them is counted again for
anyone else: or so many that the counter comes around to the same number. -/
structure Alone : Prop where
  entered : ∀ k ∈ st.poolTeamDetails.keys, (st.poolTeamDetails[(k.1, gamer)]?).isSome
  alone : Uint32.bound ∣ recounted st gamer gameId poolType
  inRange : st.teamCount gamer gameId poolType < Uint32.bound

end Query

/-! ## What the query tells -/

section Counts

variable {st : Storage} {gamer gameId poolType : String} {m : ℕ}

/-- Nothing is counted again for a gamer who is alone in the pools that count. -/
theorem recounted_eq_zero_iff : recounted st gamer gameId poolType = 0 ↔
    ∀ k ∈ st.poolTeamDetails.keys,
      (∃ team ∈ st.teams k.1 gamer, team.Counts gamer gameId poolType) → k.2 = gamer := by
  unfold recounted
  rw [Finset.sum_eq_zero_iff]
  constructor
  · rintro h k hk ⟨team, hteam, hcounts⟩
    by_contra hother
    have hzero := h k (Finset.mem_filter.mpr ⟨List.mem_toFinset.mpr hk, hother⟩)
    exact List.countP_eq_zero.mp hzero team hteam (decide_eq_true hcounts)
  · intro h k hk
    obtain ⟨hk, hother⟩ := Finset.mem_filter.mp hk
    refine List.countP_eq_zero.mpr fun team hteam hcounts => hother ?_
    exact h k (List.mem_toFinset.mp hk) ⟨team, hteam, of_decide_eq_true hcounts⟩

/-- A round of the query for a team of the pool. -/
theorem countTeam_eq {poolId : String} {n : ℕ} {team : PoolTeamDetails}
    (hteam : team.poolId = poolId) (hn : n < Uint32.bound) :
    countTeam gamer gameId poolType poolId n team =
      (n + if team.Counts gamer gameId poolType then 1 else 0) % Uint32.bound := by
  unfold countTeam
  by_cases hcounts : team.Counts gamer gameId poolType
  · rw [if_pos ⟨hcounts.2.2, hcounts.2.1, hcounts.1, hteam⟩, if_pos hcounts]
    rfl
  · rw [if_neg fun h => hcounts ⟨h.2.2.1, h.2.1, h.1⟩, if_neg hcounts, Nat.add_zero,
      Nat.mod_eq_of_lt hn]

/-- The loop over the teams of a gamer adds those that count. -/
theorem foldl_countTeam {poolId : String} {n : ℕ} {teams : List PoolTeamDetails}
    (hteams : ∀ team ∈ teams, team.poolId = poolId) (hn : n < Uint32.bound) :
    teams.foldl (countTeam gamer gameId poolType poolId) n =
      (n + teams.countP fun team => team.Counts gamer gameId poolType) % Uint32.bound := by
  induction teams generalizing n with
  | nil => exact (Nat.mod_eq_of_lt hn).symm
  | cons team teams ih =>
    obtain ⟨hteam, hteams⟩ := List.forall_mem_cons.mp hteams
    rw [List.foldl_cons, countTeam_eq hteam hn, ih hteams (Nat.mod_lt _ (by decide)),
      Nat.mod_add_mod, List.countP_cons]
    simp only [decide_eq_true_eq]
    rw [Nat.add_right_comm, Nat.add_assoc]

/-- A round of the query needs an entry of the gamer, and adds the teams that count. -/
theorem countPool_eq_ok (hf : Filed st) {k : String × String} {n : ℕ} (hn : n < Uint32.bound) :
    countPool st gamer gameId poolType n k = .ok m ↔
      (st.poolTeamDetails[(k.1, gamer)]?).isSome ∧
        m = (n + countIn st gamer gameId poolType k.1) % Uint32.bound := by
  unfold countPool
  cases hteams : st.poolTeamDetails[(k.1, gamer)]? with
  | none =>
    rw [bind_eq_ok]
    constructor
    · rintro ⟨teams, hload, -⟩
      cases load_eq_ok.mp hload
    · rintro ⟨hsome, -⟩
      cases hsome
  | some teams =>
    have hall : st.teams k.1 gamer = teams := teamsAt_of_get hteams
    have hpool : ∀ team ∈ teams, team.poolId = k.1 := fun team hteam =>
      (hf k.1 gamer team (hall ▸ hteam)).1
    rw [bind_of_eq_ok (load_eq_ok.mpr rfl), foldl_countTeam hpool hn, pure_eq_ok, countIn, hall,
      eq_comm]
    exact (and_iff_right rfl).symm

/-- **What the query tells**: for every gamer with teams in a pool, how many the pool has that
count, as far as 32 bits tell. -/
theorem getTeamCount_eq_ok (hf : Filed st) :
    getTeamCountForUserInPoolType st gamer gameId poolType = .ok m ↔
      (∀ k ∈ st.poolTeamDetails.keys, (st.poolTeamDetails[(k.1, gamer)]?).isSome) ∧
        m = (∑ k ∈ st.poolTeamDetails.keys.toFinset, countIn st gamer gameId poolType k.1) %
          Uint32.bound := by
  have hround : ∀ k ∈ st.poolTeamDetails.keys, ∀ n m, n < Uint32.bound →
      (countPool st gamer gameId poolType n k = .ok m ↔
        (st.poolTeamDetails[(k.1, gamer)]?).isSome ∧
          m = (n + countIn st gamer gameId poolType k.1) % Uint32.bound) :=
    fun k _ n m hlt => countPool_eq_ok hf hlt
  have hloop := foldlM_wraps (m := m) hround (show 0 < Uint32.bound by decide)
  rw [Nat.zero_add, ← List.sum_toFinset _ (Store.nodup_keys _)] at hloop
  exact hloop

/-- The teams are those of the keys of the gamer. -/
theorem teamCount_eq (hf : Filed st) : st.teamCount gamer gameId poolType =
    ∑ k ∈ st.poolTeamDetails.keys.toFinset with k.2 = gamer,
      countIn st gamer gameId poolType k.1 := by
  rw [Storage.teamCount, Store.total, Finset.sum_filter]
  refine Finset.sum_congr rfl fun k _ => ?_
  rw [Store.weigh_getD fun _ => rfl]
  show (st.teams k.1 k.2).countP _ = _
  split
  · rename_i hk
    rw [countIn, hk]
  · rename_i hk
    refine List.countP_eq_zero.mpr fun team hteam hcounts => hk ?_
    rw [← (hf k.1 k.2 team hteam).2]
    exact (of_decide_eq_true hcounts).1

/-- What is counted are the teams, and those that are counted again. -/
theorem sum_countIn (hf : Filed st) :
    ∑ k ∈ st.poolTeamDetails.keys.toFinset, countIn st gamer gameId poolType k.1 =
      st.teamCount gamer gameId poolType + recounted st gamer gameId poolType := by
  rw [teamCount_eq hf, recounted]
  exact (Finset.sum_filter_add_sum_filter_not _ _ _).symm

end Counts

/-- **The query is right**, in every reachable state, for exactly the gamers who have teams in every
pool in which there are any, and who are alone in the pools that count. -/
theorem countsRight_iff (api : Api) (st : Storage) (cs : List Call) (hinit : Initial api st)
    (gamer gameId poolType : String) :
    CountsRight (run (exec api) st cs) gamer gameId poolType ↔
      Alone (run (exec api) st cs) gamer gameId poolType := by
  have hf := run_filed hinit cs
  generalize run (exec api) st cs = s at hf
  rw [CountsRight, getTeamCount_eq_ok hf, sum_countIn hf]
  constructor
  · rintro ⟨hentered, hcount⟩
    have hlt : s.teamCount gamer gameId poolType < Uint32.bound := by
      rw [hcount]
      exact Nat.mod_lt _ (by decide)
    refine ⟨hentered, ?_, hlt⟩
    -- the count and the teams have the same remainder, so what is counted again has none
    have hsame : (s.teamCount gamer gameId poolType + recounted s gamer gameId poolType) %
        Uint32.bound = s.teamCount gamer gameId poolType % Uint32.bound := by
      rw [← hcount, Nat.mod_eq_of_lt hlt]
    have hdiff := Nat.sub_mod_eq_zero_of_mod_eq hsame
    rw [Nat.add_sub_cancel_left] at hdiff
    exact Nat.dvd_of_mod_eq_zero hdiff
  · rintro ⟨hentered, ⟨c, hc⟩, hlt⟩
    refine ⟨hentered, ?_⟩
    rw [hc, Nat.add_mul_mod_self_left, Nat.mod_eq_of_lt hlt]

namespace Sample

/-- Alice has two teams in a pool of her own. -/
def byHerself : List Call :=
  [setType "duel" 10000, create "duel", bid "alice" "duel" "1" "lions" 10000,
    bid "alice" "duel" "1" "bears" 10000]

/-- Alice and bob have a team each, in one pool. -/
def together : List Call :=
  [setType "duel" 10000, create "duel", bid "alice" "duel" "1" "lions" 10000,
    bid "bob" "duel" "1" "bears" 10000]

end Sample

open Sample in
/-- Alice is told of two teams. -/
theorem countsRight_byHerself : CountsRight (run (exec api) storage byHerself) "alice" "game" "duel" :=
  (countsRight_iff api storage byHerself initial "alice" "game" "duel").mpr
    ⟨by decide +kernel, by decide +kernel, by decide +kernel⟩

open Sample in
/-- **Alice is told of two teams** where she has one, and bob another. -/
theorem not_countsRight : ¬ ∀ (api : Api) (st : Storage) (cs : List Call), Initial api st →
    ∀ gamer gameId poolType, CountsRight (run (exec api) st cs) gamer gameId poolType := by
  intro h
  have hright := h api storage together initial "alice" "game" "duel"
  exact absurd hright (by unfold CountsRight; decide +kernel)

end Gamingpool
