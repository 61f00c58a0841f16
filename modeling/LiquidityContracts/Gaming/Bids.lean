import LiquidityContracts.CosmWasm.Paging
import LiquidityContracts.CosmWasm.Refinement
import LiquidityContracts.Gaming.PaidOnce

/-!
# The log of the bids

The teams of a gamer in a pool are one list, which bids, batches of rewards and both claims save
anew as a whole. It is the log of the gamer's bids on the pool: each accepted bid has entered one
team, in the order of the bids, and what the bid said of it stays, as does the flag of a claim. Two
queries read the list, one as a whole and one for the first team of an id.

## Main definitions

* `queryPoolTeamDetails`, `queryTeamDetails`: the queries
* `bidLog`: the teams that the bids of a run have entered
* `TellsBids`: what the queries tell are the bids
* `Grows`: what has become of a list of teams
* `GoesOn`: what the queries tell goes on from what they told earlier

## Main results

* `exec_teams`: one step enters the team of a bid, and keeps the others
* `run_teams`: in every run the teams are those of the log
* `run_grows`: in every run the lists of teams grow
* `run_bids`: in every run the queries tell the bids, and go on to
-/

namespace Gamingpool

open CosmWasm

/-- `query_pool_team_details`. -/
def queryPoolTeamDetails (st : Storage) (poolId user : String) :
    Exec ContractError (List PoolTeamDetails) :=
  match st.poolTeamDetails[(poolId, user)]? with
  | some ptd => return ptd
  | none => failGeneric "No team details found"

/-- `query_team_details`: the first of the gamer's teams with the id. -/
def queryTeamDetails (st : Storage) (poolId teamId gamer : String) :
    Exec ContractError PoolTeamDetails := do
  let teamDetails ← load "Vec<PoolTeamDetails>" (st.poolTeamDetails[(poolId, gamer)]?)
  match teamDetails.find? fun team => team.teamId = teamId with
  | some team => return team
  | none => failGeneric "Pool Team Details not found"

/-- The gamer whose bid an entry is. -/
def Entry.bidder : Entry → Option String
  | .execute _ (.gamePoolBidSubmitCommand gamer _ _ _ _) => some gamer
  | _ => none

/-- The team of an entry that is a gamer's bid on a pool. -/
def Entry.entrant (gameId p g : String) : Entry → List PoolTeamDetails
  | .execute _ (.gamePoolBidSubmitCommand gamer poolType poolId teamId _) =>
    if poolId = p ∧ gamer = g then [newTeam gameId g p teamId poolType] else []
  | _ => []

/-- The team that a call enters for a gamer in a pool, when it is an accepted bid. -/
def entered (api : Api) (p g : String) (st : Storage) (c : Call) : List PoolTeamDetails :=
  if (exec api st c).isSome then c.entry.entrant st.config.gameId p g else []

/-- The teams that the bids of a gamer on a pool have entered in a run. -/
def bidLog (api : Api) (p g : String) (st : Storage) (cs : List Call) : List PoolTeamDetails :=
  trace (exec api) (entered api p g) st cs

/-- What the queries tell of the teams of a gamer in a pool are those of the bids. -/
structure TellsBids (st : Storage) (p g : String) (log : List PoolTeamDetails) : Prop where
  /-- The teams are told in the order of the bids. -/
  listed : ∀ teams, queryPoolTeamDetails st p g = .ok teams → List.Forall₂ Follows log teams
  /-- They are told as soon as there is a bid. -/
  complete : log ≠ [] → ∃ teams, queryPoolTeamDetails st p g = .ok teams
  /-- The team of an id is that of the first bid with it. -/
  found : ∀ teamId team, queryTeamDetails st p teamId g = .ok team →
    ∃ bid, log.find? (fun team => team.teamId = teamId) = some bid ∧ Follows bid team
  /-- It is found as soon as there is a bid with it. -/
  kept : ∀ teamId, (∃ bid ∈ log, bid.teamId = teamId) →
    ∃ team, queryTeamDetails st p teamId g = .ok team

/-- What has become of a list of teams: each is followed in its place, and others come after. -/
def Grows (old new : List PoolTeamDetails) : Prop :=
  ∃ kept added, new = kept ++ added ∧ List.Forall₂ Follows old kept

/-- What the queries tell later goes on from what they told. -/
structure GoesOn (st st' : Storage) (p g : String) : Prop where
  /-- The teams told are followed in their places. -/
  listed : ∀ old new, queryPoolTeamDetails st p g = .ok old →
    queryPoolTeamDetails st' p g = .ok new → Grows old new
  /-- The team found for an id is followed by the one found later. -/
  found : ∀ teamId old, queryTeamDetails st p teamId g = .ok old →
    ∃ new, queryTeamDetails st' p teamId g = .ok new ∧ Follows old new

section Steps

variable {api : Api} {st st' : Storage} {entry : Entry} {c : Call} {r : Response Payload}
  {p g : String} {old : List PoolTeamDetails}

theorem Grows.refl (old : List PoolTeamDetails) : Grows old old :=
  ⟨old, [], (List.append_nil old).symm, List.forall₂_same.mpr fun team _ => .refl team⟩

/-- An entry that enters a team is a bid. -/
theorem entry_of_entrant {gameId : String} (h : entry.entrant gameId p g ≠ []) :
    ∃ info poolType teamId amount,
      entry = .execute info (.gamePoolBidSubmitCommand g poolType p teamId amount) := by
  unfold Entry.entrant at h
  split at h
  · split at h
    · rename_i info gamer poolType poolId teamId amount hbid
      obtain ⟨rfl, rfl⟩ := hbid
      exact ⟨info, poolType, teamId, amount, rfl⟩
    · exact absurd rfl h
  · exact absurd rfl h

/-- Who has bid in a run has sent a bid. -/
theorem mem_bidders {cs : List Call} (h : bidLog api p g st cs ≠ []) :
    g ∈ cs.filterMap fun c => c.entry.bidder := by
  obtain ⟨team, hteam⟩ := List.exists_mem_of_ne_nil _ h
  obtain ⟨x, hx, hteam⟩ := List.mem_flatMap.mp hteam
  unfold entered at hteam
  split at hteam
  · obtain ⟨info, poolType, teamId, amount, hentry⟩ := entry_of_entrant (List.ne_nil_of_mem hteam)
    exact List.mem_filterMap.mpr ⟨x.2, label_mem hx, by rw [hentry]; rfl⟩
  · cases hteam

theorem entrant_bid {gameId poolType teamId : String} {info : MessageInfo} {amount : ℕ} :
    Entry.entrant gameId p g (.execute info (.gamePoolBidSubmitCommand g poolType p teamId amount)) =
      [newTeam gameId g p teamId poolType] :=
  if_pos ⟨rfl, rfl⟩

/-- **One step** enters the team of a bid, and what the teams before it were entered with stays. -/
theorem exec_teams (h : exec api st c = some (st', r)) : ∃ f : PoolTeamDetails → PoolTeamDetails,
    (∀ team, Follows team (f team)) ∧ st'.teams p g =
      (st.teams p g).map f ++ c.entry.entrant st.config.gameId p g := by
  by_cases hbid : c.entry.entrant st.config.gameId p g = []
  · obtain ⟨f, added, hf, hteams, hadded⟩ := (exec_effect h).continues p g
    refine ⟨f, hf, ?_⟩
    rw [hbid, hteams]
    -- what is added is the team of a bid, which the call is not
    rcases hadded with rfl | ⟨info, poolType, teamId, amount, hentry, -, -⟩
    · rfl
    · rw [hentry, entrant_bid] at hbid
      cases hbid
  · obtain ⟨info, poolType, teamId, amount, hentry⟩ := entry_of_entrant hbid
    have hteams := (exec_bid hentry h).teams p g
    rw [if_pos ⟨rfl, rfl⟩] at hteams
    refine ⟨id, Follows.refl, ?_⟩
    rw [hteams, hentry, entrant_bid, List.map_id]

/-- One step lets the teams grow on. -/
theorem exec_grows (hgrows : Grows old (st.teams p g)) (h : exec api st c = some (st', r)) :
    Grows old (st'.teams p g) := by
  obtain ⟨kept, added, hst, hkept⟩ := hgrows
  obtain ⟨f, hf, hteams⟩ := exec_teams (p := p) (g := g) h
  rw [hst, List.map_append, List.append_assoc] at hteams
  refine ⟨_, _, hteams, ?_⟩
  refine List.forall₂_map_right_iff.mpr (hkept.imp fun old team hfollows => ?_)
  exact hfollows.trans (hf team)

/-- **In every run** the teams grow. -/
theorem run_grows (cs : List Call) : Grows (st.teams p g) ((run (exec api) st cs).teams p g) := by
  refine run_preserves (I := fun s : Storage => Grows (st.teams p g) (s.teams p g)) ?_
    (.refl _) cs
  intro s c s' r hgrows hexec
  exact exec_grows hgrows hexec

/-- **In every run** the teams are those of the log. -/
theorem run_teams (hinit : Initial api st) (cs : List Call) :
    List.Forall₂ Follows (bidLog api p g st cs) ((run (exec api) st cs).teams p g) := by
  induction cs using List.reverseRecOn with
  | nil =>
    rw [run_nil, hinit.teams]
    exact .nil
  | append_singleton cs c ih =>
    rw [bidLog, trace_snoc, run_snoc]
    rcases commit_cases (exec api) (run (exec api) st cs) c with ⟨r, hexec⟩ | ⟨hnone, hsame⟩
    · obtain ⟨f, hf, hteams⟩ := exec_teams (p := p) (g := g) hexec
      rw [entered, if_pos (by rw [hexec]; rfl), hteams]
      refine List.rel_append ?_ (List.forall₂_same.mpr fun team _ => .refl team)
      refine List.forall₂_map_right_iff.mpr (ih.imp fun bid team hfollows => ?_)
      exact hfollows.trans (hf team)
    · -- a call that is reverted enters nothing
      rw [hsame, entered, if_neg (by rw [hnone]; exact Bool.false_ne_true), List.append_nil]
      exact ih

end Steps

/-! ## The queries -/

section Queries

variable {st : Storage} {p g : String} {teams log : List PoolTeamDetails}

theorem queryPoolTeamDetails_eq_ok :
    queryPoolTeamDetails st p g = .ok teams ↔ st.poolTeamDetails[(p, g)]? = some teams := by
  unfold queryPoolTeamDetails
  split
  · rename_i ptd hptd
    rw [hptd, pure_eq_ok, Option.some.injEq]
  · rename_i hnone
    rw [hnone]
    exact ⟨fun h => absurd h (failGeneric_ne_ok _ _), nofun⟩

theorem queryTeamDetails_eq_ok {teamId : String} {team : PoolTeamDetails} :
    queryTeamDetails st p teamId g = .ok team ↔
      (st.teams p g).find? (fun team => team.teamId = teamId) = some team := by
  unfold queryTeamDetails Storage.teams teamsAt
  cases st.poolTeamDetails[(p, g)]? with
  | none =>
    rw [bind_eq_ok]
    constructor
    · rintro ⟨teams, hload, -⟩
      cases load_eq_ok.mp hload
    · intro h
      cases h
  | some teams =>
    rw [bind_of_eq_ok (load_eq_ok.mpr rfl), Option.getD_some]
    cases teams.find? fun team => team.teamId = teamId with
    | none => exact ⟨fun h => absurd h (failGeneric_ne_ok _ _), nofun⟩
    | some found => rw [pure_eq_ok, Option.some.injEq]

/-- **The queries tell the log**, where the teams are those of it. -/
theorem tellsBids (h : List.Forall₂ Follows log (st.teams p g)) : TellsBids st p g log := by
  have hfind := fun teamId => forall₂_find? (P := fun team => team.teamId = teamId)
    (Q := fun team => team.teamId = teamId) h fun bid team hfollows => by rw [hfollows.teamId]
  refine ⟨fun teams hteams => ?_, fun hne => ?_, fun teamId team hteam => ?_, fun teamId hbid => ?_⟩
  · rw [Storage.teams, teamsAt_of_get (queryPoolTeamDetails_eq_ok.mp hteams)] at h
    exact h
  · cases hget : st.poolTeamDetails[(p, g)]? with
    | some teams => exact ⟨teams, queryPoolTeamDetails_eq_ok.mpr hget⟩
    | none =>
      rw [Storage.teams, teamsAt, hget] at h
      cases h
      exact absurd rfl hne
  · have hrel := hfind teamId
    rw [queryTeamDetails_eq_ok.mp hteam] at hrel
    generalize log.find? _ = first at hrel
    cases hrel with
    | some hfollows => exact ⟨_, rfl, hfollows⟩
  · have hrel := hfind teamId
    obtain ⟨bid, hbid, hid⟩ := hbid
    have hsome : (log.find? fun team => team.teamId = teamId).isSome :=
      List.find?_isSome.mpr ⟨bid, hbid, decide_eq_true hid⟩
    obtain ⟨first, hfirst⟩ := Option.isSome_iff_exists.mp hsome
    rw [hfirst] at hrel
    generalize hteam : (st.teams p g).find? _ = found at hrel
    cases hrel with
    | some hfollows => exact ⟨_, queryTeamDetails_eq_ok.mpr hteam⟩

/-- **The queries go on** where the teams grow. -/
theorem goesOn {st' : Storage} (h : Grows (st.teams p g) (st'.teams p g)) : GoesOn st st' p g := by
  refine ⟨fun old new hold hnew => ?_, fun teamId team hteam => ?_⟩
  · rw [Storage.teams, teamsAt_of_get (queryPoolTeamDetails_eq_ok.mp hold), Storage.teams,
      teamsAt_of_get (queryPoolTeamDetails_eq_ok.mp hnew)] at h
    exact h
  · obtain ⟨kept, added, hteams, hkept⟩ := h
    have hrel := forall₂_find? (P := fun team => team.teamId = teamId)
      (Q := fun team => team.teamId = teamId) hkept fun old new hfollows => by rw [hfollows.teamId]
    rw [queryTeamDetails_eq_ok.mp hteam] at hrel
    -- the first team of the id among those kept is the first of all
    generalize hfirst : kept.find? _ = first at hrel
    cases hrel with
    | @some _ new hfollows =>
      refine ⟨new, queryTeamDetails_eq_ok.mpr ?_, hfollows⟩
      rw [hteams, List.find?_append, hfirst, Option.some_or]

end Queries

/-- **In every run the queries tell the bids**: the teams of a gamer in a pool are told in the order
in which they were bid, as they were bid, and the team of an id is found exactly when there is a bid
with it, as that of the first such bid. What was told after a part of the run is told at its end, in
the same places and with no flag taken back. -/
theorem run_bids (api : Api) (st : Storage) (cs : List Call) (hinit : Initial api st) (p g : String) :
    TellsBids (run (exec api) st cs) p g (bidLog api p g st cs) ∧
      ∀ before, before <+: cs → GoesOn (run (exec api) st before) (run (exec api) st cs) p g := by
  refine ⟨tellsBids (run_teams hinit cs), ?_⟩
  rintro before ⟨rest, rfl⟩
  rw [run_append]
  exact goesOn (run_grows rest)

open Sample in
/-- A gamer enters two teams in a pool, and gets the reward of one of them. -/
theorem run_bids_sample :
    let cs := [setType "duel" 10000, create "duel", bid "alice" "duel" "1" "lions" 10000,
      bid "bob" "duel" "1" "lions" 10000, bid "alice" "duel" "1" "bears" 10000, lock,
      batch "1" [⟨"alice", "bears", 5000⟩], askReward "alice" 200]
    (bidLog api "1" "alice" storage cs).map (·.teamId) = ["lions", "bears"] ∧
      TellsBids (run (exec api) storage cs) "1" "alice" (bidLog api "1" "alice" storage cs) ∧
      ∀ before, before <+: cs →
        GoesOn (run (exec api) storage before) (run (exec api) storage cs) "1" "alice" :=
  ⟨by decide +kernel, run_bids api storage _ initial "1" "alice"⟩

end Gamingpool
