import LiquidityContracts.Gaming.Pools

/-!
# The teams of a pool

A pool counts its teams, while the teams themselves are stored by pool and gamer. A bid is what
raises the count, and adds a team at once; every other message rewrites the lists of teams without
changing how many there are. The limit of a pool is that of the type it is stored with, which is
the type that the last bid on it names.

## Main definitions

* `Storage.teamsIn`: the teams stored for a pool, over all gamers
* `CountsItsTeams`: the count of a pool is that of its teams, and within the limit of its type
* `CountsTeams`: the law of a run

## Main results

* `Effect.counted`: one step keeps the counts
* `countsTeams`: in every run the counts are those of the teams
-/

namespace Gamingpool

open CosmWasm

/-- The weight of a list of teams in a pool. -/
def weighTeams (p : String) (k : String × String) (teams : List PoolTeamDetails) : ℕ :=
  if k.1 = p then teams.length else 0

/-- How many teams are stored for a pool, over all gamers. -/
def Storage.teamsIn (st : Storage) (p : String) : ℕ :=
  Store.total (weighTeams p) st.poolTeamDetails

/-- A pool counts the teams that are stored for it, and keeps to the limit of its type once it has
any. -/
structure CountsItsTeams (st : Storage) (p : String) (pool : PoolDetails) : Prop where
  teams : pool.currentTeamsCount = st.teamsIn p
  limit : 0 < pool.currentTeamsCount → ∃ details,
    st.poolTypeDetails[pool.poolType]? = some details ∧
      pool.currentTeamsCount ≤ details.maxTeamsForPool

/-- Every pool counts its teams. -/
def Counted (st : Storage) : Prop :=
  ∀ (p : String) (pool : PoolDetails), st.poolDetails[p]? = some pool → CountsItsTeams st p pool

/-- The counts of the pools in a run. -/
structure CountsTeams (api : Api) (st : Storage) (cs : List Call) : Prop where
  /-- After the run the pools count their teams. -/
  counted : Counted (run (exec api) st cs)
  /-- Every pool of the run is created under an id that no pool has. -/
  fresh : ∀ x ∈ history (exec api) st cs, ∀ info poolType,
    x.2.entry = .execute info (.createPool poolType) → (exec api x.1 x.2).isSome →
    ∃ id, x.1.poolDetails[id]? = none ∧ (commit (exec api) x.1 x.2).poolDetails =
      x.1.poolDetails.insert id (newPool x.1.config.gameId id poolType)

section Steps

variable {api : Api} {st st' : Storage} {entry : Entry} {p : String}

theorem weighTeams_nil (p : String) (k : String × String) : weighTeams p k [] = 0 := by
  unfold weighTeams
  split
  · rfl
  · rfl

/-- Where the lists of a pool are as long as they were, there are as many teams in it. -/
theorem teamsIn_congr (h : ∀ g, (st'.teams p g).length = (st.teams p g).length) :
    st'.teamsIn p = st.teamsIn p := by
  refine Store.total_congr fun k => ?_
  rw [Store.weigh_getD (weighTeams_nil p), Store.weigh_getD (weighTeams_nil p)]
  unfold weighTeams
  split
  · rename_i hk
    have hlength := h k.2
    rw [← hk] at hlength
    exact hlength
  · rfl

theorem teamsIn_eq_zero (h : ∀ g, st.teams p g = []) : st.teamsIn p = 0 := by
  have hempty : st.teamsIn p = Store.total (weighTeams p) (∅ : Teams) := by
    refine Store.total_congr fun k => ?_
    rw [Store.weigh_getD (weighTeams_nil p), Store.weigh_of_none (Store.get_empty k)]
    unfold weighTeams
    split
    · rename_i hk
      have hnil := h k.2
      rw [← hk] at hnil
      exact congrArg List.length hnil
    · rfl
  rw [hempty, Store.total_empty]

/-- A team that is added under a gamer is one team more of its pool, and none of any other. -/
theorem teamsIn_insert {poolId gamer : String} {team : PoolTeamDetails}
    (h : st'.poolTeamDetails = st.poolTeamDetails.insert (poolId, gamer)
      (st.teams poolId gamer ++ [team])) :
    st'.teamsIn p = st.teamsIn p + if poolId = p then 1 else 0 := by
  have htotal := Store.total_insert_getD (weighTeams_nil p) st.poolTeamDetails (poolId, gamer)
    (st.teams poolId gamer ++ [team])
  change _ + weighTeams p (poolId, gamer) (st.teams poolId gamer) = _ at htotal
  rw [Storage.teamsIn, h, Storage.teamsIn]
  -- what is saved weighs one team more than what was there
  unfold weighTeams at htotal ⊢
  split
  · rename_i hp
    rw [if_pos hp, if_pos hp, List.length_append, List.length_singleton] at htotal
    omega
  · rename_i hp
    rw [if_neg hp, if_neg hp] at htotal
    omega

/-- A type of pools that is set up stays as it is. -/
theorem Effect.poolTypeDetails (h : Effect api st st' entry) {poolType : String}
    {details : PoolTypeDetails} (hdetails : st.poolTypeDetails[poolType]? = some details) :
    st'.poolTypeDetails[poolType]? = some details := by
  have same : st'.poolTypeDetails = st.poolTypeDetails →
      st'.poolTypeDetails[poolType]? = some details := by
    intro hsame
    rw [hsame]
    exact hdetails
  cases h with
  | keeps _ _ hst => exact same (by rw [hst])
  | setsType poolType' details' hnone hst =>
    -- a type is set up once only
    have hne : poolType' ≠ poolType := by
      rintro rfl
      rw [hnone] at hdetails
      cases hdetails
    rw [hst]
    exact (Store.get_insert_of_ne _ _ hne).trans hdetails
  | cancels _ _ _ _ _ _ _ hst => exact same (by rw [hst]; rfl)
  | locks _ _ _ _ _ hst => exact same (by rw [hst]; rfl)
  | creates _ _ _ hopens =>
    obtain ⟨address, count, -, -, hst⟩ := hopens.created
    exact same (by rw [hst])
  | bids _ _ _ _ _ _ _ hjoins =>
    obtain ⟨details, pool, -, -, -, -, hst⟩ := hjoins.joined
    exact same (by rw [hst])
  | claimsRewards _ _ _ hclaims =>
    obtain ⟨teams, hst⟩ := hclaims.rest
    exact same (by rw [hst])
  | claimsRefunds _ _ _ hclaims =>
    obtain ⟨teams, hst⟩ := hclaims.rest
    exact same (by rw [hst])
  | distributes _ _ _ _ _ _ _ _ _ _ _ _ _ _ _ hst => exact same (by rw [hst]; rfl)

/-- A pool that counted its teams still does, where there are as many. -/
theorem CountsItsTeams.kept {old new : PoolDetails} (hc : CountsItsTeams st p old)
    (h : Effect api st st' entry) (hteams : st'.teamsIn p = st.teamsIn p)
    (htype : new.poolType = old.poolType)
    (hcount : new.currentTeamsCount = old.currentTeamsCount) : CountsItsTeams st' p new := by
  constructor
  · rw [hcount, hteams]
    exact hc.teams
  · intro hpos
    rw [hcount] at hpos
    obtain ⟨details, hdetails, hle⟩ := hc.limit hpos
    rw [htype, hcount]
    exact ⟨details, h.poolTypeDetails hdetails, hle⟩

/-- A pool as it was before, as far as its type and its count go. -/
def Resembles (st : Storage) (p : String) (new : PoolDetails) : Prop :=
  ∃ old, st.poolDetails[p]? = some old ∧ new.poolType = old.poolType ∧
    new.currentTeamsCount = old.currentTeamsCount

theorem Resembles.refl {pool : PoolDetails} (h : st.poolDetails[p]? = some pool) :
    Resembles st p pool :=
  ⟨pool, h, rfl, rfl⟩

/-- Where teams are rewritten in their places there are as many as before. -/
theorem teamsIn_of_rewritten {P : String → Prop} [DecidablePred P]
    {f : PoolTeamDetails → PoolTeamDetails}
    (h : ∀ g, st'.teams p g = if P g then (st.teams p g).map f else st.teams p g) :
    st'.teamsIn p = st.teamsIn p := by
  refine teamsIn_congr fun g => ?_
  rw [h g]
  split
  · exact List.length_map f
  · rfl

/-- A step that adds no team and leaves the types and the counts of the pools keeps the law. -/
theorem Effect.counted_of_resembles (h : Effect api st st' entry) (hc : Counted st)
    (hteams : ∀ p, st'.teamsIn p = st.teamsIn p)
    (hpools : ∀ (p : String) (pool : PoolDetails), st'.poolDetails[p]? = some pool →
      Resembles st p pool) : Counted st' := by
  intro p pool hpool
  obtain ⟨old, hold, htype, hcount⟩ := hpools p pool hpool
  exact (hc p old hold).kept h (hteams p) htype hcount

/-- A pool that is created has no teams, since no team is stored for a pool that does not exist. -/
theorem Opens.counted {poolType : String} (hopens : Opens api poolType st st')
    (h : Effect api st st' entry) (hh : Housed api st) (hc : Counted st) : Counted st' := by
  obtain ⟨-, counts, hst⟩ := hopens.numbered
  have hteams : ∀ p, st'.teamsIn p = st.teamsIn p := by
    intro p
    rw [hst]
    rfl
  intro p pool hpool
  rw [hst, Store.get_insert] at hpool
  split at hpool
  · rename_i hp
    obtain rfl := Option.some.inj hpool
    constructor
    · -- no team is stored for the number that the pool gets
      rw [hteams p, ← hp, teamsIn_eq_zero hh.fresh_teams]
      rfl
    · intro hpos
      exact absurd hpos (Nat.lt_irrefl 0)
  · exact (hc p pool hpool).kept h (hteams p) rfl rfl

/-- A bid raises the count and adds a team, within the limit of the type that it names. -/
theorem Joins.counted {info : MessageInfo} {gamer poolType poolId teamId : String}
    (hjoins : Joins info gamer poolType poolId teamId st st') (h : Effect api st st' entry)
    (hc : Counted st) : Counted st' := by
  obtain ⟨details, old, hdetails, -, hold, hlt, hst⟩ := hjoins.joined
  have hteams : ∀ p, st'.teamsIn p = st.teamsIn p + if poolId = p then 1 else 0 := by
    intro p
    exact teamsIn_insert (by rw [hst])
  intro p pool hpool
  rw [hst, Store.get_insert] at hpool
  split at hpool
  -- the bid checks the count against the limit of the type that it names
  · rename_i hp
    obtain rfl := Option.some.inj hpool
    constructor
    · show old.currentTeamsCount + 1 = _
      rw [hteams p, if_pos hp, ← hp, (hc poolId old hold).teams]
    · intro _
      refine ⟨details, h.poolTypeDetails hdetails, ?_⟩
      show old.currentTeamsCount + 1 ≤ _
      exact hlt
  · rename_i hp
    refine (hc p pool hpool).kept h ?_ rfl rfl
    rw [hteams p, if_neg hp, Nat.add_zero]

/-- **One effect** keeps the counts. -/
theorem Effect.counted (h : Effect api st st' entry) (hh : Housed api st) (hc : Counted st) :
    Counted st' := by
  have heffect := h
  have hkept := heffect.counted_of_resembles hc
  -- the pools of a step that does not touch them resemble themselves
  have hsame : st'.poolDetails = st.poolDetails → ∀ (p : String) (pool : PoolDetails),
      st'.poolDetails[p]? = some pool → Resembles st p pool := by
    intro hpools p pool hpool
    rw [hpools] at hpool
    exact .refl hpool
  cases h with
  | keeps wallets slots hst =>
    exact hkept (fun p => by rw [hst]; rfl) (hsame (by rw [hst]))
  | setsType poolType details hnone hst =>
    exact hkept (fun p => by rw [hst]; rfl) (hsame (by rw [hst]))
  | cancels info status pools hentry hstatus hlive hpools hst =>
    refine hkept (fun p => by rw [hst]; rfl) fun p pool hpool => ?_
    rw [hst] at hpool
    -- only the flags of the pools change
    obtain ⟨old, hold, rfl⟩ := Option.map_eq_some_iff.mp ((hpools p).symm.trans hpool)
    exact ⟨old, hold, rfl, rfl⟩
  | locks info pools hentry hopen hpools hst =>
    refine hkept (fun p => by rw [hst]; rfl) fun p pool hpool => ?_
    rw [hst] at hpool
    rcases hpools p with ⟨-, hnone⟩ | ⟨old, details, hold, -, hnew⟩
    · rw [hnone] at hpool
      cases hpool
    · rw [hnew] at hpool
      obtain rfl := Option.some.inj hpool
      refine ⟨old, hold, ?_⟩
      split
      · exact ⟨rfl, rfl⟩
      · exact ⟨rfl, rfl⟩
  | creates info poolType hentry hopens => exact hopens.counted heffect hh hc
  | bids info gamer poolType poolId teamId amount hentry hjoins =>
    exact hjoins.counted heffect hc
  | claimsRewards info gamer hentry hclaims =>
    obtain ⟨teams, hst⟩ := hclaims.rest
    exact hkept (fun p => teamsIn_of_rewritten (hclaims.teams p)) (hsame (by rw [hst]))
  | claimsRefunds info gamer hentry hclaims =>
    obtain ⟨teams, hst⟩ := hclaims.rest
    exact hkept (fun p => teamsIn_of_rewritten (hclaims.teams p)) (hsame (by rw [hst]))
  | distributes info poolId gameWinners isFinalBatch ustForRake gameId status old teams slots
      hentry hstatus hclosed hold hteams hst =>
    have hrewritten : ∀ p, st'.teamsIn p = st.teamsIn p := by
      intro p
      refine teamsIn_of_rewritten (P := fun g => p = poolId ∧ g ∈ gameWinners.map (·.gamerAddress))
        (f := rewarded st.config.gameId gameWinners) fun g => ?_
      rw [hst]
      exact hteams (p, g)
    refine hkept hrewritten fun p pool hpool => ?_
    rw [hst, Store.get_insert] at hpool
    split at hpool
    · rename_i hp
      obtain rfl := Option.some.inj hpool
      exact ⟨old, hp ▸ hold, rfl, rfl⟩
    · exact .refl hpool

theorem counted_of_initial (h : Initial api st) : Counted st := by
  intro p pool hpool
  rw [h.spec.2.1, Store.get_empty] at hpool
  cases hpool

/-- In every run the pools count their teams. -/
theorem run_counted (h : Initial api st) (cs : List Call) : Counted (run (exec api) st cs) := by
  suffices hrun : Housed api (run (exec api) st cs) ∧ Counted (run (exec api) st cs) from hrun.2
  refine run_preserves (I := fun s => Housed api s ∧ Counted s) ?_
    ⟨housed_of_initial h, counted_of_initial h⟩ cs
  rintro s c s' r ⟨hh, hc⟩ hexec
  have heffect := exec_effect hexec
  exact ⟨heffect.housed hh, heffect.counted hh hc⟩

end Steps

/-- **In every run** a pool counts the teams that are stored for it, over all gamers, and once it
has any it keeps to the limit of the type it is stored with; and no pool is created under the id of
one that exists. -/
theorem countsTeams (api : Api) (st : Storage) (cs : List Call) (hinit : Initial api st) :
    CountsTeams api st cs := by
  refine ⟨run_counted hinit cs, ?_⟩
  rintro ⟨s, c⟩ hx info poolType hentry haccepted
  obtain ⟨before, after, -, rfl⟩ := mem_history hx
  obtain ⟨r, hexec⟩ := exists_commit haccepted
  obtain ⟨-, counts, hst⟩ := (exec_createPool hentry hexec).numbered
  exact ⟨_, (run_housed hinit before).fresh, congrArg Storage.poolDetails hst⟩

open Sample in
/-- Two pools of one type, one with a team and one with two, of different gamers. -/
theorem countsTeams_sample : CountsTeams api storage [setType "duel" 10000, create "duel",
    create "duel", bid "alice" "duel" "1" "lions" 10000, bid "alice" "duel" "2" "lions" 10000,
    bid "bob" "duel" "2" "bears" 10000, lock, askRefund "alice"] :=
  countsTeams api storage _ initial

end Gamingpool
