import LiquidityContracts.Gaming.Contract

/-!
# Pools and teams

The claims of a gamer, the locking of the game and a batch of rewards walk over the pools or the
winners and rewrite the records one by one. Here each of these loops is put as what it does to the
records as a whole.

## Main definitions

* `teamsAt`, `Storage.status`, `Storage.refundStatus`, `Storage.rewardStatus`: the records read as
  functions
* `rewardDue`, `rewardsDue`, `refundsDue`: what a claim pays for a team, and for a pool
* `rewarded`: a team with the rewards of the winners that name it

## Main results

* `foldlM_cancelPool`, `foldlM_lockPool`: the pools after the game is cancelled or locked
* `foldlM_claimPoolReward`, `foldlM_claimPoolRefund`: the teams after a claim, and its amount
* `foldlM_rewardWinner`: the teams after a batch of rewards
-/

namespace Gamingpool

open CosmWasm

/-- The teams stored for a pool and a gamer. -/
def teamsAt (teams : Teams) (k : String × String) : List PoolTeamDetails := (teams[k]?).getD []

namespace Storage

variable (st : Storage)

/-- The teams of a gamer in a pool. -/
def teams (poolId gamer : String) : List PoolTeamDetails :=
  teamsAt st.poolTeamDetails (poolId, gamer)

/-- The status of the game, if there is one. -/
def status : Option ℕ := (st.gameDetails[st.config.gameId]?).map (·.gameStatus)

/-- Refunds may be claimed for the teams of a pool. -/
def refundStatus (poolId : String) : Bool := (st.poolDetails[poolId]?).any (·.poolRefundStatus)

/-- Rewards may be claimed for the teams of a pool. -/
def rewardStatus (poolId : String) : Bool := (st.poolDetails[poolId]?).any (·.poolRewardStatus)

/-- The fee of the type that is stored for a pool. -/
def feeOf (poolId : String) : ℕ :=
  ((st.poolDetails[poolId]?).bind fun pool => st.poolTypeDetails[pool.poolType]?).elim 0 (·.poolFee)

end Storage

/-- What a claim of rewards pays for a team. -/
def rewardDue (team : PoolTeamDetails) : ℕ := if team.claimedReward then 0 else team.rewardAmount

/-- What a gamer's claim of rewards pays for a pool. -/
def rewardsDue (st : Storage) (gamer poolId : String) : ℕ :=
  if st.rewardStatus poolId then ((st.teams poolId gamer).map rewardDue).sum else 0

/-- What a gamer's claim of refunds pays for a pool. -/
def refundsDue (st : Storage) (gamer poolId : String) : ℕ :=
  if st.refundStatus poolId then (st.teams poolId gamer).length * st.feeOf poolId else 0

/-- A pool whose teams may be refunded. -/
def PoolDetails.refunded (pool : PoolDetails) : PoolDetails := { pool with poolRefundStatus := true }

/-- The reward of a team after a batch: that of the last winner that names it. -/
def rewardAfter (gameId : String) (gameWinners : List GameResult) (team : PoolTeamDetails)
    (amount : ℕ) : ℕ :=
  gameWinners.foldl (fun a w => if w.Names gameId team then w.rewardAmount else a) amount

/-- The rewards of the winners that name a team. -/
def rewardsFor (gameId : String) (gameWinners : List GameResult) (team : PoolTeamDetails) : ℕ :=
  ((gameWinners.filter fun w => w.Names gameId team).map (·.rewardAmount)).sum

/-- A team after a batch of rewards. -/
def rewarded (gameId : String) (gameWinners : List GameResult) (team : PoolTeamDetails) :
    PoolTeamDetails :=
  { team with rewardAmount := rewardAfter gameId gameWinners team team.rewardAmount }

/-- A sum of one amount over the members of a list that meet a condition. -/
theorem sum_map_ite {α : Type} (P : α → Prop) [DecidablePred P] (n : ℕ) (l : List α) :
    (l.map fun a => if P a then n else 0).sum = n * l.countP fun a => P a := by
  induction l with
  | nil => rfl
  | cons a l ih =>
    rw [List.map_cons, List.sum_cons, ih, List.countP_cons, Nat.mul_add, Nat.add_comm]
    congr 1
    by_cases h : P a
    · simp [h]
    · simp [h]

/-! ## Teams -/

section Teams

variable {teams teams' : Teams} {k : String × String} {l l' : List PoolTeamDetails}
  {p g : String} {n m fee : ℕ}

@[simp] theorem teamsAt_empty : teamsAt ∅ k = [] := by
  simp [teamsAt]

theorem teamsAt_of_get (h : teams[k]? = some l) : teamsAt teams k = l := by
  simp [teamsAt, h]

theorem teamsAt_insert (a : String × String) :
    teamsAt (teams.insert k l) a = if k = a then l else teamsAt teams a := by
  rw [teamsAt, Store.get_insert]
  by_cases h : k = a
  · simp [h]
  · simp [h, teamsAt]

theorem teamsAt_saveUpdated (h : teams[(p, g)]? = some l) (hl : l' = [] → l = [])
    (a : String × String) :
    teamsAt (saveUpdated teams p g l') a = if (p, g) = a then l' else teamsAt teams a := by
  unfold saveUpdated
  split
  · rename_i hnil
    split
    · rename_i ha
      rw [← ha, teamsAt_of_get h, hl hnil, hnil]
    · rfl
  · exact teamsAt_insert a

theorem claimReward_of_claimed {team : PoolTeamDetails} (h : team.claimedReward = true) :
    team.claimReward = team := by
  rw [PoolTeamDetails.claimReward, ← h]

/-- The loop over the teams of a claim of rewards. -/
theorem foldlM_claimTeamReward {r : List PoolTeamDetails × ℕ}
    (h : l.foldlM claimTeamReward (l', n) = .ok r) :
    r.1 = l' ++ l.map PoolTeamDetails.claimReward ∧ r.2 = n + (l.map rewardDue).sum := by
  induction l generalizing l' n with
  | nil =>
    cases h
    exact ⟨(List.append_nil _).symm, rfl⟩
  | cons team l ih =>
    rw [List.foldlM_cons] at h
    obtain ⟨⟨l₁, n₁⟩, hround, h⟩ := bind_eq_ok.mp h
    obtain ⟨hteams, hamount⟩ := ih h
    rw [hteams, hamount, List.map_cons, List.map_cons, List.sum_cons, rewardDue]
    unfold claimTeamReward at hround
    split at hround
    -- a team that has claimed is saved as it is, and counts for nothing
    · rename_i hclaimed
      cases pure_eq_ok.mp hround
      rw [if_pos hclaimed, claimReward_of_claimed hclaimed, Nat.zero_add]
      exact ⟨List.append_assoc .., rfl⟩
    · rename_i hclaimed
      obtain ⟨sum, hsum, hround⟩ := bind_eq_ok.mp hround
      cases pure_eq_ok.mp hround
      rw [if_neg hclaimed, (Uint128.add_eq_ok.mp hsum).2, Nat.add_assoc]
      exact ⟨List.append_assoc .., rfl⟩

/-- The loop over the teams of a claim of refunds, which stops at a team that has been
refunded. -/
theorem foldlM_claimTeamRefund {r : List PoolTeamDetails × ℕ}
    (h : l.foldlM (claimTeamRefund fee) (l', n) = .ok r) :
    r.1 = l' ++ l.map (PoolTeamDetails.claimRefund fee) ∧ r.2 = n + l.length * fee ∧
      ∀ team ∈ l, team.claimedRefund = false := by
  induction l generalizing l' n with
  | nil =>
    cases h
    exact ⟨(List.append_nil _).symm, by simp, nofun⟩
  | cons team l ih =>
    rw [List.foldlM_cons] at h
    obtain ⟨⟨l₁, n₁⟩, hround, h⟩ := bind_eq_ok.mp h
    obtain ⟨hteams, hamount, hnone⟩ := ih h
    -- the round refuses a team that has been refunded
    obtain ⟨hclaimed, hround⟩ := refuse_bind_eq_ok.mp hround
    obtain ⟨sum, hsum, hround⟩ := bind_eq_ok.mp hround
    cases pure_eq_ok.mp hround
    rw [(Uint128.add_eq_ok.mp hsum).2] at hamount
    refine ⟨?_, ?_, ?_⟩
    · rw [hteams]
      exact List.append_assoc ..
    · rw [hamount, List.length_cons]
      ring
    · intro t ht
      rcases List.mem_cons.mp ht with rfl | ht
      · exact Bool.eq_false_iff.mpr hclaimed
      · exact hnone t ht

end Teams

/-! ## The pools of a game that is cancelled or locked -/

section Pools

variable {st : Storage} {pools pools' : Store String PoolDetails} {poolId : String}
  {pool : PoolDetails}

theorem loadPoolAndType_eq_ok {x : PoolDetails × PoolTypeDetails} :
    loadPoolAndType st pools poolId = .ok x ↔
      pools[poolId]? = some x.1 ∧ st.poolTypeDetails[x.1.poolType]? = some x.2 := by
  unfold loadPoolAndType
  split
  · rename_i hnone
    simp [hnone]
  · rename_i pool hpool
    rw [hpool, Option.some.injEq]
    split
    · rename_i hnone
      constructor
      · intro h
        exact absurd h (failGeneric_ne_ok _ _)
      · rintro ⟨rfl, h⟩
        rw [hnone] at h
        cases h
    · rename_i poolType htype
      rw [pure_eq_ok]
      constructor
      · rintro rfl
        exact ⟨rfl, htype⟩
      · rintro ⟨hfst, h⟩
        rw [← hfst, htype] at h
        exact Prod.ext hfst (Option.some.inj h)

/-- The pools stored before a loop over them are those it walks over. -/
theorem get_of_not_mem_keys (h : poolId ∉ st.poolDetails.keys) : st.poolDetails[poolId]? = none :=
  Option.eq_none_iff_forall_ne_some.mpr fun v hv =>
    h ((Store.mem_keys_iff st.poolDetails poolId).mpr ⟨v, hv⟩)

/-- **After the game is cancelled** every pool is to be refunded. -/
theorem foldlM_cancelPool
    (h : st.poolDetails.keys.foldlM (cancelPool st) st.poolDetails = .ok pools) (poolId : String) :
    pools[poolId]? = (st.poolDetails[poolId]?).map PoolDetails.refunded := by
  have hloop := foldlM_entries (fun (b : Store String PoolDetails) k => b[k]?)
    (R := fun _ old new => new = old.map PoolDetails.refunded)
    (fun k b b' hround => ?_) (Store.nodup_keys _) h poolId
  · by_cases hmem : poolId ∈ st.poolDetails.keys
    · exact hloop.1 hmem
    · rw [hloop.2 hmem, get_of_not_mem_keys hmem, Option.map_none]
  · obtain ⟨⟨pool, poolType⟩, hload, hround⟩ := bind_eq_ok.mp hround
    cases pure_eq_ok.mp hround
    refine ⟨?_, fun a ha => Store.get_insert_of_ne _ _ ha.symm⟩
    rw [Store.get_insert_self, (loadPoolAndType_eq_ok.mp hload).1]
    rfl

/-- What `lock_game` does to a pool: it is to be refunded when it has too few teams for its
type. -/
def Locked (st : Storage) (old new : Option PoolDetails) : Prop :=
  old = none ∧ new = none ∨ ∃ pool poolType, old = some pool ∧
    st.poolTypeDetails[pool.poolType]? = some poolType ∧
    new = some (if poolType.minTeamsForPool ≤ pool.currentTeamsCount then pool else pool.refunded)

/-- **After the game is locked** the pools with too few teams are to be refunded. -/
theorem foldlM_lockPool
    (h : st.poolDetails.keys.foldlM (lockPool st) st.poolDetails = .ok pools) (poolId : String) :
    Locked st (st.poolDetails[poolId]?) (pools[poolId]?) := by
  have hloop := foldlM_entries (fun (b : Store String PoolDetails) k => b[k]?)
    (R := fun _ old new => Locked st old new)
    (fun k b b' hround => ?_) (Store.nodup_keys _) h poolId
  -- the loop visits each pool once, and no other key has an entry
  · by_cases hmem : poolId ∈ st.poolDetails.keys
    · exact hloop.1 hmem
    · have hnone := get_of_not_mem_keys hmem
      exact .inl ⟨hnone, (hloop.2 hmem).trans hnone⟩
  · obtain ⟨⟨pool, poolType⟩, hload, hround⟩ := bind_eq_ok.mp hround
    obtain ⟨hpool, htype⟩ := loadPoolAndType_eq_ok.mp hload
    dsimp only at hpool htype hround
    split at hround
    -- a pool with enough teams is not saved again
    · rename_i hmin
      obtain rfl := pure_eq_ok.mp hround
      refine ⟨.inr ⟨pool, poolType, hpool, htype, ?_⟩, fun _ _ => rfl⟩
      rw [if_pos hmin, hpool]
    · rename_i hmin
      obtain rfl := pure_eq_ok.mp hround
      refine ⟨.inr ⟨pool, poolType, hpool, htype, ?_⟩, fun a ha =>
        Store.get_insert_of_ne _ _ ha.symm⟩
      rw [if_neg hmin, Store.get_insert_self]
      rfl

end Pools

/-! ## Claims over all pools -/

section Claims

variable {st : Storage} {gamer poolId : String} {acc acc' : Teams × ℕ}

theorem rewardStatus_of_get {pool : PoolDetails} (h : st.poolDetails[poolId]? = some pool) :
    st.rewardStatus poolId = pool.poolRewardStatus := by
  simp [Storage.rewardStatus, h]

theorem refundStatus_of_get {pool : PoolDetails} (h : st.poolDetails[poolId]? = some pool) :
    st.refundStatus poolId = pool.poolRefundStatus := by
  simp [Storage.refundStatus, h]

theorem rewardStatus_of_none (h : st.poolDetails[poolId]? = none) :
    st.rewardStatus poolId = false := by
  simp [Storage.rewardStatus, h]

theorem refundStatus_of_none (h : st.poolDetails[poolId]? = none) :
    st.refundStatus poolId = false := by
  simp [Storage.refundStatus, h]

/-- Where no team of the gamer is stored, a claim has none to mark. -/
theorem teamsAt_mark_of_none {teams : Teams} {f : PoolTeamDetails → PoolTeamDetails} {b : Bool}
    (h : teams[(poolId, gamer)]? = none) (k : String × String) :
    teamsAt teams k =
      if k = (poolId, gamer) ∧ b = true then (teamsAt teams k).map f else teamsAt teams k := by
  split
  · rename_i hk
    rw [hk.1, teamsAt, h]
    rfl
  · rfl

/-- The teams that a claim has marked are saved for the gamer, and no others. -/
theorem teamsAt_mark {teams : Teams} {f : PoolTeamDetails → PoolTeamDetails} {b : Bool}
    {l : List PoolTeamDetails} (h : teams[(poolId, gamer)]? = some l) (hb : b = true)
    (k : String × String) :
    teamsAt (saveUpdated teams poolId gamer (l.map f)) k =
      if k = (poolId, gamer) ∧ b = true then (teamsAt teams k).map f else teamsAt teams k := by
  rw [teamsAt_saveUpdated h (by simp)]
  by_cases hk : (poolId, gamer) = k
  · rw [if_pos hk, if_pos ⟨hk.symm, hb⟩, ← hk, teamsAt_of_get h]
  · rw [if_neg hk, if_neg fun hand => hk hand.1.symm]

theorem claimPoolReward_spec (h : claimPoolReward st gamer acc poolId = .ok acc') :
    (∀ k, teamsAt acc'.1 k =
      if k = (poolId, gamer) ∧ st.rewardStatus poolId = true then
        (teamsAt acc.1 k).map PoolTeamDetails.claimReward
      else teamsAt acc.1 k) ∧
    acc'.2 = acc.2 + if st.rewardStatus poolId then
      ((teamsAt acc.1 (poolId, gamer)).map rewardDue).sum else 0 := by
  unfold claimPoolReward at h
  split at h
  · rename_i hnone
    obtain rfl := pure_eq_ok.mp h
    simp [rewardStatus_of_none hnone]
  · rename_i pool hpool
    rw [rewardStatus_of_get hpool]
    split at h
    · rename_i hstatus
      obtain rfl := pure_eq_ok.mp h
      simp [hstatus]
    · rename_i hstatus
      rw [Bool.not_eq_false] at hstatus
      split at h
      · -- no team of the gamer is stored
        rename_i hteams
        obtain rfl := pure_eq_ok.mp h
        exact ⟨teamsAt_mark_of_none hteams, by simp [teamsAt, hteams]⟩
      · rename_i teams hteams
        obtain ⟨⟨updated, sum⟩, hloop, h⟩ := bind_eq_ok.mp h
        cases pure_eq_ok.mp h
        obtain ⟨hupdated, hsum⟩ := foldlM_claimTeamReward hloop
        dsimp only at hupdated hsum
        rw [List.nil_append] at hupdated
        rw [hupdated]
        refine ⟨teamsAt_mark hteams hstatus, ?_⟩
        rw [hsum, if_pos hstatus, teamsAt_of_get hteams]

theorem claimPoolRefund_spec (h : claimPoolRefund st gamer acc poolId = .ok acc') :
    (∀ k, teamsAt acc'.1 k =
      if k = (poolId, gamer) ∧ st.refundStatus poolId = true then
        (teamsAt acc.1 k).map (PoolTeamDetails.claimRefund (st.feeOf poolId))
      else teamsAt acc.1 k) ∧
    (acc'.2 = acc.2 + if st.refundStatus poolId then
      (teamsAt acc.1 (poolId, gamer)).length * st.feeOf poolId else 0) ∧
    (st.refundStatus poolId = true →
      ∀ team ∈ teamsAt acc.1 (poolId, gamer), team.claimedRefund = false) := by
  unfold claimPoolRefund at h
  split at h
  · rename_i hnone
    obtain rfl := pure_eq_ok.mp h
    simp [refundStatus_of_none hnone]
  · rename_i pool hpool
    rw [refundStatus_of_get hpool]
    split at h
    · rename_i hstatus
      obtain rfl := pure_eq_ok.mp h
      simp [hstatus]
    · rename_i hstatus
      rw [Bool.not_eq_false] at hstatus
      obtain ⟨poolType, htype, h⟩ := bind_eq_ok.mp h
      have htype := load_eq_ok.mp htype
      have hfee : st.feeOf poolId = poolType.poolFee := by simp [Storage.feeOf, hpool, htype]
      split at h
      · -- no team of the gamer is stored
        rename_i hteams
        obtain rfl := pure_eq_ok.mp h
        have hnil : teamsAt acc.1 (poolId, gamer) = [] := by simp [teamsAt, hteams]
        refine ⟨teamsAt_mark_of_none hteams, by simp [hnil], fun _ => ?_⟩
        rw [hnil]
        nofun
      · rename_i teams hteams
        obtain ⟨⟨updated, sum⟩, hloop, h⟩ := bind_eq_ok.mp h
        cases pure_eq_ok.mp h
        obtain ⟨hupdated, hsum, hnone⟩ := foldlM_claimTeamRefund hloop
        dsimp only at hupdated hsum
        rw [List.nil_append] at hupdated
        rw [hupdated, hfee]
        refine ⟨teamsAt_mark hteams hstatus, ?_, fun _ => ?_⟩
        · rw [hsum, if_pos hstatus, teamsAt_of_get hteams]
        · rw [teamsAt_of_get hteams]
          exact hnone

/-- The teams of one pool, by gamer. -/
def ofPool (acc : Teams × ℕ) (poolId : String) : String → List PoolTeamDetails :=
  fun g => teamsAt acc.1 (poolId, g)

/-- **After a claim of rewards** the gamer's teams in the pools with rewards are marked; the
amount is what is due for them. -/
theorem foldlM_claimPoolReward
    (h : st.poolDetails.keys.foldlM (claimPoolReward st gamer) (st.poolTeamDetails, 0) = .ok acc') :
    (∀ k, teamsAt acc'.1 k =
      if k.2 = gamer ∧ st.rewardStatus k.1 = true then
        (teamsAt st.poolTeamDetails k).map PoolTeamDetails.claimReward
      else teamsAt st.poolTeamDetails k) ∧
    acc'.2 = (st.poolDetails.keys.map (rewardsDue st gamer)).sum := by
  -- a round changes the teams of its own pool only
  have hother : ∀ k b b', claimPoolReward st gamer b k = .ok b' →
      ∀ a, a ≠ k → ofPool b' a = ofPool b a := by
    intro k b b' hround a ha
    funext g
    rw [ofPool, (claimPoolReward_spec hround).1, if_neg fun hk => ha (congrArg Prod.fst hk.1)]
    rfl
  constructor
  · rintro ⟨p, g⟩
    -- entry by entry: each pool is visited once, with the teams it had at first
    have hloop := foldlM_entries ofPool (R := fun p old new => ∀ g, new g =
        if g = gamer ∧ st.rewardStatus p = true then (old g).map PoolTeamDetails.claimReward
        else old g)
      (fun k b b' hround => ⟨fun g => ?_, hother k b b' hround⟩) (Store.nodup_keys _) h p
    · by_cases hmem : p ∈ st.poolDetails.keys
      · exact hloop.1 hmem g
      · have hnone := rewardStatus_of_none (get_of_not_mem_keys hmem)
        rw [if_neg fun hk => Bool.noConfusion (hnone.symm.trans hk.2)]
        exact congrFun (hloop.2 hmem) g
    · rw [ofPool, (claimPoolReward_spec hround).1]
      simp only [Prod.mk.injEq, true_and]
      rfl
  -- what each round adds depends on its own entry only
  · have hsum := foldlM_entries_sum ofPool Prod.snd
      (w := fun p teams => if st.rewardStatus p then ((teams gamer).map rewardDue).sum else 0)
      (fun k b b' hround => ⟨(claimPoolReward_spec hround).2, hother k b b' hround⟩)
      (Store.nodup_keys _) h
    rw [hsum]
    exact Nat.zero_add _

/-- **After a claim of refunds** the gamer's teams in the pools to be refunded are marked, none
of which was before; the amount is what is due for them. -/
theorem foldlM_claimPoolRefund
    (h : st.poolDetails.keys.foldlM (claimPoolRefund st gamer) (st.poolTeamDetails, 0) = .ok acc') :
    (∀ k, teamsAt acc'.1 k =
      if k.2 = gamer ∧ st.refundStatus k.1 = true then
        (teamsAt st.poolTeamDetails k).map (PoolTeamDetails.claimRefund (st.feeOf k.1))
      else teamsAt st.poolTeamDetails k) ∧
    acc'.2 = (st.poolDetails.keys.map (refundsDue st gamer)).sum ∧
    ∀ poolId, st.refundStatus poolId = true →
      ∀ team ∈ st.teams poolId gamer, team.claimedRefund = false := by
  -- a round changes the teams of its own pool only
  have hother : ∀ k b b', claimPoolRefund st gamer b k = .ok b' →
      ∀ a, a ≠ k → ofPool b' a = ofPool b a := by
    intro k b b' hround a ha
    funext g
    rw [ofPool, (claimPoolRefund_spec hround).1, if_neg fun hk => ha (congrArg Prod.fst hk.1)]
    rfl
  -- entry by entry: each pool is visited once, with the teams it had at first
  have hloop := fun p => foldlM_entries ofPool (R := fun p old new =>
      (∀ g, new g = if g = gamer ∧ st.refundStatus p = true then
        (old g).map (PoolTeamDetails.claimRefund (st.feeOf p)) else old g) ∧
      (st.refundStatus p = true → ∀ team ∈ old gamer, team.claimedRefund = false))
    (fun k b b' hround => ⟨⟨fun g => ?_, fun hstatus => ?_⟩, hother k b b' hround⟩)
    (Store.nodup_keys _) h p
  · refine ⟨?_, ?_, fun p hstatus => ?_⟩
    · rintro ⟨p, g⟩
      by_cases hmem : p ∈ st.poolDetails.keys
      · exact ((hloop p).1 hmem).1 g
      · have hnone := refundStatus_of_none (get_of_not_mem_keys hmem)
        rw [if_neg fun hk => Bool.noConfusion (hnone.symm.trans hk.2)]
        exact congrFun ((hloop p).2 hmem) g
    · have hsum := foldlM_entries_sum ofPool Prod.snd
        (w := fun p teams => if st.refundStatus p then (teams gamer).length * st.feeOf p else 0)
        (fun k b b' hround => ⟨(claimPoolRefund_spec hround).2.1, hother k b b' hround⟩)
        (Store.nodup_keys _) h
      rw [hsum]
      exact Nat.zero_add _
    -- a pool that is not stored is not to be refunded
    · by_cases hmem : p ∈ st.poolDetails.keys
      · exact ((hloop p).1 hmem).2 hstatus
      · rw [refundStatus_of_none (get_of_not_mem_keys hmem)] at hstatus
        cases hstatus
  · rw [ofPool, (claimPoolRefund_spec hround).1]
    simp only [Prod.mk.injEq, true_and]
    rfl
  · exact (claimPoolRefund_spec hround).2.2 hstatus

end Claims

/-! ## A batch of rewards -/

section Rewards

variable {gameId poolId : String} {team : PoolTeamDetails} {ws : List GameResult}
  {l l' : List PoolTeamDetails} {acc acc' : Teams × ℕ} {n : ℕ}

theorem rewardAfter_cons (w : GameResult) (a : ℕ) :
    rewardAfter gameId (w :: ws) team a =
      rewardAfter gameId ws team (if w.Names gameId team then w.rewardAmount else a) := rfl

/-- A team keeps its reward, or it has that of a winner that names it. -/
theorem rewardAfter_cases (gameId : String) (ws : List GameResult) (team : PoolTeamDetails) :
    (∀ a, rewardAfter gameId ws team a = a) ∨
      ∃ w ∈ ws, w.Names gameId team ∧ ∀ a, rewardAfter gameId ws team a = w.rewardAmount := by
  induction ws with
  | nil => exact .inl fun _ => rfl
  | cons w ws ih =>
    rcases ih with hid | ⟨w', hw', hnames, hconst⟩
    · by_cases hw : w.Names gameId team
      · refine .inr ⟨w, List.mem_cons_self, hw, fun a => ?_⟩
        rw [rewardAfter_cons, if_pos hw, hid]
      · refine .inl fun a => ?_
        rw [rewardAfter_cons, if_neg hw, hid]
    · refine .inr ⟨w', List.mem_cons_of_mem w hw', hnames, fun a => ?_⟩
      rw [rewardAfter_cons, hconst]

theorem rewardAfter_idem (a : ℕ) :
    rewardAfter gameId ws team (rewardAfter gameId ws team a) = rewardAfter gameId ws team a := by
  rcases rewardAfter_cases gameId ws team with hid | ⟨w, -, -, hconst⟩
  · rw [hid, hid]
  · rw [hconst, hconst]

/-- The winners of a batch that name a team name it after the batch as well. -/
theorem rewarded_idem : rewarded gameId ws (rewarded gameId ws team) = rewarded gameId ws team :=
  congrArg (fun a => { team with rewardAmount := a }) (rewardAfter_idem team.rewardAmount)

theorem foldlM_rewardTeam {t : PoolTeamDetails} {r : PoolTeamDetails × ℕ}
    (h : ws.foldlM (rewardTeam gameId team) (t, n) = .ok r) :
    r.1 = { t with rewardAmount := rewardAfter gameId ws team t.rewardAmount } ∧
      r.2 = n + rewardsFor gameId ws team := by
  induction ws generalizing t n with
  | nil =>
    cases h
    exact ⟨rfl, rfl⟩
  | cons w ws ih =>
    rw [List.foldlM_cons] at h
    obtain ⟨⟨t₁, n₁⟩, hround, h⟩ := bind_eq_ok.mp h
    obtain ⟨hteam, hgiven⟩ := ih h
    rw [hteam, hgiven, rewardAfter_cons, rewardsFor, rewardsFor, List.filter_cons]
    unfold rewardTeam at hround
    split at hround
    -- a result of this team sets the amount, and adds to what is given
    · rename_i hw
      obtain ⟨given, hsum, hround⟩ := bind_eq_ok.mp hround
      cases pure_eq_ok.mp hround
      rw [if_pos hw, if_pos (decide_eq_true hw), (Uint128.add_eq_ok.mp hsum).2, List.map_cons,
        List.sum_cons, Nat.add_assoc]
      exact ⟨rfl, rfl⟩
    -- a result of another team
    · rename_i hw
      cases pure_eq_ok.mp hround
      rw [if_neg hw, if_neg (by simpa using hw)]
      exact ⟨rfl, rfl⟩

theorem foldlM_rewardListed {r : List PoolTeamDetails × ℕ}
    (h : l.foldlM (rewardListed gameId ws) (l', n) = .ok r) :
    r.1 = l' ++ l.map (rewarded gameId ws) ∧
      r.2 = n + (l.map (rewardsFor gameId ws)).sum := by
  induction l generalizing l' n with
  | nil =>
    cases h
    exact ⟨(List.append_nil _).symm, rfl⟩
  | cons team l ih =>
    rw [List.foldlM_cons] at h
    obtain ⟨⟨l₁, n₁⟩, hround, h⟩ := bind_eq_ok.mp h
    obtain ⟨hteams, hgiven⟩ := ih h
    obtain ⟨⟨updated, given⟩, hfold, hround⟩ := bind_eq_ok.mp hround
    cases pure_eq_ok.mp hround
    obtain ⟨hupdated, hsum⟩ := foldlM_rewardTeam hfold
    dsimp only at hupdated hsum
    rw [hteams, hgiven, hupdated, hsum]
    refine ⟨List.append_assoc .., ?_⟩
    rw [List.map_cons, List.sum_cons, Nat.add_assoc]

theorem rewardWinner_spec {w : GameResult} (h : rewardWinner gameId poolId ws acc w = .ok acc') :
    (∀ k, teamsAt acc'.1 k = if k = (poolId, w.gamerAddress) then
        (teamsAt acc.1 k).map (rewarded gameId ws) else teamsAt acc.1 k) ∧
      acc'.2 = acc.2 +
        ((teamsAt acc.1 (poolId, w.gamerAddress)).map (rewardsFor gameId ws)).sum := by
  unfold rewardWinner at h
  split at h
  -- no team is stored for the winner in this pool
  · rename_i hteams
    obtain rfl := pure_eq_ok.mp h
    have hnil : teamsAt acc.1 (poolId, w.gamerAddress) = [] := by simp [teamsAt, hteams]
    refine ⟨fun k => ?_, by simp [hnil]⟩
    split
    · rename_i hk
      rw [hk, hnil, List.map_nil]
    · rfl
  · rename_i teams hteams
    obtain ⟨⟨updated, given⟩, hfold, h⟩ := bind_eq_ok.mp h
    cases pure_eq_ok.mp h
    obtain ⟨hupdated, hsum⟩ := foldlM_rewardListed hfold
    dsimp only at hupdated hsum
    rw [List.nil_append] at hupdated
    refine ⟨fun k => ?_, ?_⟩
    -- the list is saved again with each team rewarded in its place
    · rw [teamsAt_insert, hupdated]
      by_cases hk : (poolId, w.gamerAddress) = k
      · rw [if_pos hk, if_pos hk.symm, ← hk, teamsAt_of_get hteams]
      · rw [if_neg hk, if_neg fun hk' => hk hk'.symm]
    · rw [hsum, teamsAt_of_get hteams]

/-- **After a batch** the teams of the listed gamers have the rewards of the winners that name
them, each once however often the gamer is listed; what was given counts each listing. -/
theorem foldlM_rewardWinner {listed : List GameResult}
    (h : listed.foldlM (rewardWinner gameId poolId ws) acc = .ok acc') :
    (∀ k, teamsAt acc'.1 k = if k.1 = poolId ∧ k.2 ∈ listed.map (·.gamerAddress) then
        (teamsAt acc.1 k).map (rewarded gameId ws) else teamsAt acc.1 k) ∧
      acc'.2 = acc.2 + (listed.map fun w =>
        ((teamsAt acc.1 (poolId, w.gamerAddress)).map (rewardsFor gameId ws)).sum).sum := by
  induction listed generalizing acc with
  | nil =>
    cases h
    simp
  | cons w listed ih =>
    rw [List.foldlM_cons] at h
    obtain ⟨acc₁, hround, h⟩ := bind_eq_ok.mp h
    obtain ⟨hteams, hgiven⟩ := rewardWinner_spec hround
    obtain ⟨hteams', hgiven'⟩ := ih h
    -- a round does not change which winners name a team
    have hsame : ∀ k, (teamsAt acc₁.1 k).map (rewardsFor gameId ws) =
        (teamsAt acc.1 k).map (rewardsFor gameId ws) := by
      intro k
      rw [hteams]
      split
      · rw [List.map_map]
        rfl
      · rfl
    constructor
    · rintro ⟨p, g⟩
      rw [hteams', hteams]
      by_cases hp : p = poolId
      · by_cases hw : g = w.gamerAddress
        · simp [hp, hw, rewarded_idem]
        · simp [hp, hw]
      · simp [hp]
    · rw [hgiven', hgiven, List.map_cons, List.sum_cons]
      simp only [hsame]
      ring

end Rewards

end Gamingpool
