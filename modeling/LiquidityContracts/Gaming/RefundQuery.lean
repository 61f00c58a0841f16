import LiquidityContracts.Gaming.Payouts

/-!
# What a gamer is told of refunds

`query_refund` and `claim_refund` walk over the same pools and the same teams. The query passes over
the teams that have been refunded, the claim stops at the first of them. So what the query promises
can be claimed as long as no team of the gamer, in the pools to be refunded, has been refunded
before.

## Main definitions

* `queryRefund`: the query
* `RefundClaimable`: the claim gets past its checks with the amount, and leaves nothing
* `NoneRefunded`: no team of a gamer in the pools to be refunded has been refunded

## Main results

* `foldlM_claim_of_query`: the loop of the claim follows the loop of the query
* `foldlM_query_of_claimed`: after the claim the query finds nothing
* `refundClaimable_iff`: what is promised can be claimed if and only if no team has been refunded
* `not_refundClaimable`: a refund of one pool blocks that of another
-/

namespace Gamingpool

open CosmWasm

/-- The round of `query_refund` for a team. -/
def queryTeamRefund (gamer : String) (poolFee : ℕ) (userRefund : ℕ) (team : PoolTeamDetails) :
    Exec ContractError ℕ :=
  if gamer = team.gamerAddress ∧ team.claimedRefund = unclaimedRefund then
    Uint128.add userRefund poolFee
  else return userRefund

/-- The round of `query_refund` for a pool. -/
def queryPoolRefund (st : Storage) (gamer : String) (userRefund : ℕ) (poolId : String) :
    Exec ContractError ℕ :=
  match st.poolDetails[poolId]? with
  | none => return userRefund
  | some poolDetails =>
    if poolDetails.poolRefundStatus = false then return userRefund
    else do
      let ptd ← load "PoolTypeDetails" (st.poolTypeDetails[poolDetails.poolType]?)
      let teams := (st.poolTeamDetails[(poolId, gamer)]?).getD []
      teams.foldlM (queryTeamRefund gamer ptd.poolFee) userRefund

/-- `query_refund`. -/
def queryRefund (st : Storage) (gamer : String) : Exec ContractError ℕ :=
  st.poolDetails.keys.foldlM (queryPoolRefund st gamer) 0

/-- A claim of refunds gets past its checks on what is stored, with an amount: what is left of it is
to compute its messages, with what the pool answers. It leaves nothing to be refunded. -/
def RefundClaimable (api : Api) (info : MessageInfo) (st : Storage) (gamer : String)
    (amount : ℕ) : Prop :=
  ∃ teams, st.poolDetails.keys.foldlM (claimPoolRefund st gamer) (st.poolTeamDetails, 0) =
      .ok (teams, amount) ∧
    (∀ q, claimRefund api q info st gamer = do
      let messages ← refundMessages q info st amount
      return ({ st with poolTeamDetails := teams }, { messages })) ∧
    queryRefund { st with poolTeamDetails := teams } gamer = .ok 0

/-- No team of a gamer in the pools to be refunded has been refunded. -/
def NoneRefunded (st : Storage) (gamer : String) : Prop :=
  ∀ p ∈ st.poolDetails.keys, st.refundStatus p = true → ∀ team ∈ st.teams p gamer,
    team.claimedRefund = false

instance (st : Storage) (gamer : String) : Decidable (NoneRefunded st gamer) :=
  inferInstanceAs (Decidable (∀ _ ∈ _, _ → ∀ _ ∈ _, _ = _))

section Loops

variable {st st' : Storage} {gamer : String} {fee n m : ℕ} {l l' : List PoolTeamDetails}
  {ps : List String}

/-- Over teams of the gamer that have not been refunded the claim adds up what the query does. -/
theorem foldlM_claimTeam_of_query
    (hl : ∀ team ∈ l, team.gamerAddress = gamer ∧ team.claimedRefund = false)
    (h : l.foldlM (queryTeamRefund gamer fee) n = .ok m) :
    ∃ updated, l.foldlM (claimTeamRefund fee) (l', n) = .ok (updated, m) := by
  induction l generalizing n l' with
  | nil =>
    cases h
    exact ⟨l', rfl⟩
  | cons team l ih =>
    obtain ⟨⟨hgamer, hclaimed⟩, hl⟩ := List.forall_mem_cons.mp hl
    rw [List.foldlM_cons] at h ⊢
    obtain ⟨n₁, hround, h⟩ := bind_eq_ok.mp h
    rw [queryTeamRefund, if_pos ⟨hgamer.symm, hclaimed⟩] at hround
    obtain ⟨updated, hrest⟩ : ∃ updated, l.foldlM (claimTeamRefund fee)
        (l' ++ [team.claimRefund fee], n₁) = .ok (updated, m) := ih hl h
    refine ⟨updated, bind_eq_ok.mpr ⟨(l' ++ [team.claimRefund fee], n₁), ?_, hrest⟩⟩
    refine refuse_bind_eq_ok.mpr ⟨?_, ?_⟩
    · rw [hclaimed]
      exact Bool.false_ne_true
    · exact bind_eq_ok.mpr ⟨n₁, hround, rfl⟩

/-- Over teams that have been refunded the query adds up nothing. -/
theorem foldlM_queryTeam_of_claimed (hl : ∀ team ∈ l, team.claimedRefund = true) :
    l.foldlM (queryTeamRefund gamer fee) n = .ok n := by
  induction l generalizing n with
  | nil => rfl
  | cons team l ih =>
    obtain ⟨hclaimed, hl⟩ := List.forall_mem_cons.mp hl
    rw [List.foldlM_cons]
    refine bind_eq_ok.mpr ⟨n, ?_, ih hl⟩
    rw [queryTeamRefund, if_neg]
    · rfl
    · rintro ⟨-, hunclaimed⟩
      rw [hclaimed] at hunclaimed
      exact Bool.noConfusion hunclaimed

/-- The claim follows the query for a pool, and touches no other entry. -/
theorem claimPool_of_query {teams : Teams} {p : String}
    (hteams : teams[(p, gamer)]? = st.poolTeamDetails[(p, gamer)]?)
    (hfiled : ∀ team ∈ st.teams p gamer, team.gamerAddress = gamer)
    (hnone : st.refundStatus p = true → ∀ team ∈ st.teams p gamer, team.claimedRefund = false)
    (h : queryPoolRefund st gamer n p = .ok m) :
    ∃ teams', claimPoolRefund st gamer (teams, n) p = .ok (teams', m) ∧
      ∀ k, k ≠ (p, gamer) → teams'[k]? = teams[k]? := by
  unfold queryPoolRefund at h
  split at h
  · rename_i hpool
    obtain rfl := pure_eq_ok.mp h
    rw [claimPoolRefund, hpool]
    exact ⟨teams, rfl, fun _ _ => rfl⟩
  · rename_i pool hpool
    rw [claimPoolRefund, hpool]
    split at h
    · rename_i hstatus
      obtain rfl := pure_eq_ok.mp h
      refine ⟨teams, ?_, fun _ _ => rfl⟩
      -- neither looks at the teams of a pool that is not to be refunded
      show (if pool.poolRefundStatus = false then _ else _) = _
      rw [if_pos hstatus]
      rfl
    · rename_i hstatus
      obtain ⟨ptd, htype, h⟩ := bind_eq_ok.mp h
      rw [← refundStatus_of_get hpool, Bool.not_eq_false] at hstatus
      show ∃ teams', (if pool.poolRefundStatus = false then _ else _) = _ ∧ _
      have hrefunded : ¬ pool.poolRefundStatus = false := by
        rw [← refundStatus_of_get hpool, hstatus]
        exact Bool.noConfusion
      cases hstored : st.poolTeamDetails[(p, gamer)]? with
      | none =>
        -- the query goes over no team, the claim leaves at once
        rw [hstored] at h hteams
        obtain rfl := pure_eq_ok.mp h
        refine ⟨teams, (if_neg hrefunded).trans (bind_eq_ok.mpr ⟨ptd, htype, ?_⟩), fun _ _ => rfl⟩
        dsimp only
        rw [hteams]
        rfl
      | some l =>
        rw [hstored] at h hteams
        have hl : st.teams p gamer = l := teamsAt_of_get hstored
        rw [hl] at hfiled hnone
        obtain ⟨updated, hupdated⟩ := foldlM_claimTeam_of_query
          (fun team hteam => ⟨hfiled team hteam, hnone hstatus team hteam⟩) h
        refine ⟨saveUpdated teams p gamer updated,
          (if_neg hrefunded).trans (bind_eq_ok.mpr ⟨ptd, htype, ?_⟩), fun k hk => ?_⟩
        · dsimp only
          rw [hteams]
          exact bind_eq_ok.mpr ⟨(updated, m), hupdated, rfl⟩
        · unfold saveUpdated
          split
          · rfl
          · exact Store.get_insert_of_ne _ _ hk.symm

/-- **The loop of the claim follows the loop of the query**, if none of the teams has been
refunded. -/
theorem foldlM_claim_of_query {teams : Teams} (hps : ps.Nodup)
    (hteams : ∀ p ∈ ps, teams[(p, gamer)]? = st.poolTeamDetails[(p, gamer)]?)
    (hfiled : ∀ p ∈ ps, ∀ team ∈ st.teams p gamer, team.gamerAddress = gamer)
    (hnone : ∀ p ∈ ps, st.refundStatus p = true → ∀ team ∈ st.teams p gamer,
      team.claimedRefund = false)
    (h : ps.foldlM (queryPoolRefund st gamer) n = .ok m) :
    ∃ teams', ps.foldlM (claimPoolRefund st gamer) (teams, n) = .ok (teams', m) := by
  induction ps generalizing n teams with
  | nil =>
    cases h
    exact ⟨teams, rfl⟩
  | cons p ps ih =>
    rw [List.foldlM_cons] at h
    obtain ⟨n₁, hround, h⟩ := bind_eq_ok.mp h
    obtain ⟨hp, hps⟩ := List.nodup_cons.mp hps
    obtain ⟨hteams₀, hteams⟩ := List.forall_mem_cons.mp hteams
    obtain ⟨hfiled₀, hfiled⟩ := List.forall_mem_cons.mp hfiled
    obtain ⟨hnone₀, hnone⟩ := List.forall_mem_cons.mp hnone
    obtain ⟨teams₁, hclaim, hother⟩ := claimPool_of_query hteams₀ hfiled₀ hnone₀ hround
    -- the entries of the other pools are those before
    have hteams₁ : ∀ a ∈ ps, teams₁[(a, gamer)]? = st.poolTeamDetails[(a, gamer)]? := by
      intro a ha
      refine (hother (a, gamer) fun hk => hp ?_).trans (hteams a ha)
      rw [← (Prod.mk.inj hk).1]
      exact ha
    obtain ⟨teams₂, hrest⟩ := ih hps hteams₁ hfiled hnone h
    refine ⟨teams₂, ?_⟩
    rw [List.foldlM_cons]
    exact bind_eq_ok.mpr ⟨(teams₁, n₁), hclaim, hrest⟩

/-- **Where all teams have been refunded** the query finds nothing. -/
theorem foldlM_query_of_claimed {teams : Teams}
    (hclaimed : ∀ p ∈ ps, st.refundStatus p = true → ∀ team ∈ teamsAt teams (p, gamer),
      team.claimedRefund = true)
    (h : ps.foldlM (queryPoolRefund st gamer) n = .ok m) (n' : ℕ) :
    ps.foldlM (queryPoolRefund { st with poolTeamDetails := teams } gamer) n' = .ok n' := by
  induction ps generalizing n with
  | nil => rfl
  | cons p ps ih =>
    rw [List.foldlM_cons] at h ⊢
    obtain ⟨n₁, hround, h⟩ := bind_eq_ok.mp h
    obtain ⟨hclaimed₀, hclaimed⟩ := List.forall_mem_cons.mp hclaimed
    refine bind_eq_ok.mpr ⟨n', ?_, ih hclaimed h⟩
    unfold queryPoolRefund at hround ⊢
    show (match st.poolDetails[p]? with | none => _ | some _ => _) = _
    cases hpool : st.poolDetails[p]? with
    | none => rfl
    | some pool =>
      rw [hpool] at hround
      by_cases hstatus : pool.poolRefundStatus = false
      · exact if_pos hstatus
      · refine (if_neg hstatus).trans ?_
        obtain ⟨ptd, htype, -⟩ := bind_eq_ok.mp ((if_neg hstatus).symm.trans hround)
        refine bind_eq_ok.mpr ⟨ptd, htype, foldlM_queryTeam_of_claimed (hclaimed₀ ?_)⟩
        rw [refundStatus_of_get hpool]
        exact Bool.eq_true_of_not_eq_false hstatus

end Loops

/-- A claim that gets past its checks on what is stored is its messages. -/
theorem claimRefund_eq {api : Api} {q : Querier} {info : MessageInfo} {st : Storage}
    {gamer : String} {teams : Teams} {amount : ℕ} (hsender : api gamer = .ok info.sender)
    (hloop : st.poolDetails.keys.foldlM (claimPoolRefund st gamer) (st.poolTeamDetails, 0) =
      .ok (teams, amount)) (hpos : 0 < amount) :
    claimRefund api q info st gamer = do
      let messages ← refundMessages q info st amount
      return ({ st with poolTeamDetails := teams }, { messages }) := by
  have hself : (refuse (info.sender ≠ info.sender) (.unauthorizedInvoker info.sender) :
      Exec ContractError Unit) = .ok () :=
    refuse_eq_ok.mpr (not_not.mpr rfl)
  have hsome : (refuseGeneric (amount = 0) "No refund for this user" : Exec ContractError Unit) =
      .ok () :=
    refuse_eq_ok.mpr hpos.ne'
  rw [claimRefund, bind_of_eq_ok (validate_eq_ok.mpr hsender), bind_of_eq_ok hself,
    bind_of_eq_ok hloop]
  exact bind_of_eq_ok hsome

/-- **Whatever the query promises can be claimed**, in a state that the contract reaches, if and only
if no team of the gamer in the pools to be refunded has been refunded. -/
theorem refundClaimable_iff (api : Api) (st : Storage) (hinit : Initial api st) (cs : List Call)
    (gamer : String) (info : MessageInfo) (hsender : api gamer = .ok info.sender) (amount : ℕ)
    (hquery : queryRefund (run (exec api) st cs) gamer = .ok amount) (hpos : 0 < amount) :
    RefundClaimable api info (run (exec api) st cs) gamer amount ↔
      NoneRefunded (run (exec api) st cs) gamer := by
  have hfiled := run_filed hinit cs
  generalize run (exec api) st cs = s at hquery hfiled ⊢
  constructor
  · -- the loop fails at the first team that has been refunded
    rintro ⟨teams, hloop, -, -⟩ p - hstatus
    exact (foldlM_claimPoolRefund hloop).2.2 p hstatus
  · intro hnone
    obtain ⟨teams, hloop⟩ := foldlM_claim_of_query (Store.nodup_keys _) (fun _ _ => rfl)
      (fun p _ team hteam => (hfiled p gamer team hteam).2) hnone hquery
    have hteams := (foldlM_claimPoolRefund hloop).1
    refine ⟨teams, hloop, fun q => ?_, foldlM_query_of_claimed ?_ hquery 0⟩
    · exact claimRefund_eq hsender hloop hpos
    · intro p _ hstatus team hteam
      rw [hteams, if_pos ⟨rfl, hstatus⟩] at hteam
      obtain ⟨old, -, rfl⟩ := List.mem_map.mp hteam
      rfl

namespace Sample

/-- Two gamers fill the first pool, and one of them is alone in the second, which is dissolved when
the game is locked. -/
def halfFilled : List Call :=
  [setType "duel" 10000, create "duel", create "duel", bid "alice" "duel" "1" "lions" 10000,
    bid "bob" "duel" "1" "bears" 10000, bid "alice" "duel" "2" "lions" 10000, lock]

def info (sender : Addr) : MessageInfo := ⟨sender, []⟩

end Sample

open Sample in
/-- The refund of a dissolved pool is promised, and can be claimed. -/
theorem refundClaimable_halfFilled :
    RefundClaimable api (info "alice") (run (exec api) storage halfFilled) "alice" 10000 :=
  (refundClaimable_iff api storage initial halfFilled "alice" (info "alice") rfl 10000
    (by decide +kernel) (by decide)).mpr (by decide +kernel)

open Sample in
/-- **A refund of one pool blocks that of another**: when the game is cancelled, the query promises
the fee of the first pool, and the claim stops at the second. -/
theorem not_refundClaimable :
    ¬ ∀ (api : Api) (st : Storage), Initial api st → ∀ (cs : List Call) (gamer : String)
      (info : MessageInfo), api gamer = .ok info.sender → ∀ amount,
      queryRefund (run (exec api) st cs) gamer = .ok amount → 0 < amount →
        RefundClaimable api info (run (exec api) st cs) gamer amount := by
  intro h
  obtain ⟨teams, hloop, -, -⟩ := h api storage initial
    (halfFilled ++ [askRefund "alice", call "admin" 0 .cancelGame]) "alice" (info "alice") rfl 10000
    (by decide +kernel) (by decide)
  have hnone := (foldlM_claimPoolRefund hloop).2.2 "2" (by decide +kernel)
  exact absurd hnone (by decide +kernel)

end Gamingpool
