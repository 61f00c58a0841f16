import LiquidityContracts.Gaming.Counts
import LiquidityContracts.Gaming.Status

/-!
# Closing the game

To lock or to cancel the game the contract walks over all pools and loads the type of each. One
pool of a type that is not set up makes the whole loop fail, and the game stays as it is. A bid
names a type that is set up; whether a pool is created with one is not checked. So the admin can
close the game in the runs in which every pool is created with a type that is set up, and in no
others.

## Main definitions

* `Typed`: every pool is of a type that is set up
* `Unsettled`: while the game is open no pool is to be refunded or rewarded
* `Closable`: the admin can close the game
* `CreatesTyped`: a pool that is created has a type that is set up

## Main results

* `exec_typed`: one step keeps the pools typed, if it meets the condition
* `closable_of_typed`: where the pools are typed the admin can close the game
* `closable_iff`: the admin can always close the game in the runs whose pools are created typed
* `not_closable`: a pool without a type, and a game that cannot be locked
-/

namespace Gamingpool

open CosmWasm

/-- Every pool is of a type that is set up. -/
def Typed (st : Storage) : Prop :=
  ∀ (p : String) (pool : PoolDetails), st.poolDetails[p]? = some pool →
    (st.poolTypeDetails[pool.poolType]?).isSome

/-- While the game is open no pool is to be refunded or rewarded. -/
def Unsettled (st : Storage) : Prop :=
  st.status = some gamePoolOpen → ∀ p, st.refundStatus p = false ∧ st.rewardStatus p = false

/-- The admin can close the game: lock it while it is open, which refunds the pools that have too
few teams for their type, and cancel it while it is open or closed, which refunds all pools. -/
structure Closable (api : Api) (st : Storage) : Prop where
  typed : Typed st
  lock : ∀ q env info, info.sender = st.config.adminAddress → st.status = some gamePoolOpen →
    ∃ st' r, exec api st ⟨q, env, .execute info .lockGame⟩ = some (st', r) ∧
      ∀ (p : String) (pool : PoolDetails), st.poolDetails[p]? = some pool →
        ∃ details, st.poolTypeDetails[pool.poolType]? = some details ∧
          (st'.refundStatus p = true ↔ pool.currentTeamsCount < details.minTeamsForPool)
  cancel : ∀ q env info, info.sender = st.config.adminAddress →
    st.status = some gamePoolOpen ∨ st.status = some gamePoolClosed →
    ∃ st' r, exec api st ⟨q, env, .execute info .cancelGame⟩ = some (st', r) ∧
      ∀ p : String, (st.poolDetails[p]?).isSome → st'.refundStatus p = true

/-- The type that a pool is created with, where an entry creates one. -/
def Entry.createdType : Entry → Option String
  | .execute _ (.createPool poolType) => some poolType
  | _ => none

/-- A pool that is created has a type that is set up. -/
def CreatesTyped (st : Storage) (entry : Entry) : Prop :=
  ∀ poolType ∈ entry.createdType, (st.poolTypeDetails[poolType]?).isSome

instance (st : Storage) (entry : Entry) : Decidable (CreatesTyped st entry) :=
  inferInstanceAs (Decidable (∀ poolType ∈ entry.createdType, _))

section Steps

variable {api : Api} {st st' : Storage} {entry : Entry}

theorem entry_of_createdType {poolType : String} (h : poolType ∈ entry.createdType) :
    ∃ info, entry = .execute info (.createPool poolType) := by
  unfold Entry.createdType at h
  split at h
  · rename_i info created
    obtain rfl := Option.some.inj h
    exact ⟨info, rfl⟩
  · cases h

/-- **One accepted call** keeps the pools typed, if it creates none without a type. -/
theorem exec_typed {c : Call} {r : Response Payload} (ht : Typed st)
    (hcreates : CreatesTyped st c.entry) (h : exec api st c = some (st', r)) : Typed st' := by
  intro p pool hpool
  have heffect := exec_effect h
  -- a type that was set up before is set up still
  have hkept : ∀ poolType : String, (st.poolTypeDetails[poolType]?).isSome →
      (st'.poolTypeDetails[poolType]?).isSome := by
    intro poolType hsome
    obtain ⟨details, hdetails⟩ := Option.isSome_iff_exists.mp hsome
    rw [heffect.poolTypeDetails hdetails]
    rfl
  have hstep := heffect.pool p
  -- the pool was there before, or is created by this call
  generalize hbefore : st.poolDetails[p]? = before at hstep
  rw [hpool] at hstep
  cases hstep with
  | proceeds old new hproceeds =>
    -- a bid saves the pool with a type that is set up
    rcases hproceeds with htype | ⟨info, gamer, teamId, amount, hentry⟩
    · rw [htype]
      exact hkept _ (ht p old hbefore)
    · obtain ⟨details, pool', hdetails, -⟩ := (exec_bid hentry h).joined
      exact hkept _ (by rw [hdetails]; rfl)
  | created before info poolType hentry hid hcount =>
    exact hkept poolType (hcreates poolType (by rw [hentry]; rfl))

theorem unsettled_of_same (hstatus : st'.status = st.status)
    (hpools : st'.poolDetails = st.poolDetails) (hu : Unsettled st) : Unsettled st' := by
  intro hopen p
  rw [hstatus] at hopen
  unfold Storage.refundStatus Storage.rewardStatus
  rw [hpools]
  exact hu hopen p

theorem unsettled_of_closed {n : ℕ} (hstatus : st'.status = some n) (hn : n ≠ gamePoolOpen) :
    Unsettled st' := by
  intro hopen
  rw [hstatus] at hopen
  exact absurd (Option.some.inj hopen) hn

/-- A pool that is saved with no flag set is not to be settled. -/
theorem unsettled_of_insert {poolId : String} {pool : PoolDetails}
    (hstatus : st'.status = st.status)
    (hpools : st'.poolDetails = st.poolDetails.insert poolId pool)
    (hpool : pool.poolRefundStatus = false ∧ pool.poolRewardStatus = false)
    (hu : Unsettled st) : Unsettled st' := by
  intro hopen p
  rw [hstatus] at hopen
  unfold Storage.refundStatus Storage.rewardStatus
  rw [hpools, Store.get_insert]
  split
  · exact hpool
  · exact hu hopen p

/-- **In every effect** an open game stays unsettled: what settles a pool also closes the game. -/
theorem Effect.unsettled (h : Effect api st st' entry) (hu : Unsettled st) : Unsettled st' := by
  cases h with
  | keeps wallets slots hst => exact unsettled_of_same (by rw [hst]; rfl) (by rw [hst]) hu
  | setsType poolType details hnone hst =>
    exact unsettled_of_same (by rw [hst]; rfl) (by rw [hst]) hu
  | cancels info status pools hentry hstatus hlive hpools hst =>
    -- the calls that set the flags leave the game closed, completed or cancelled
    refine unsettled_of_closed (n := gameCancelled) ?_ (by decide)
    rw [hst]
    exact status_setGameStatus gameCancelled
  | locks info pools hentry hopen hpools hst =>
    refine unsettled_of_closed (n := gamePoolClosed) ?_ (by decide)
    rw [hst]
    exact status_setGameStatus gamePoolClosed
  | creates info poolType hentry hopens =>
    obtain ⟨address, count, -, -, hst⟩ := hopens.created
    exact unsettled_of_insert (by rw [hst]; rfl) (by rw [hst]) ⟨rfl, rfl⟩ hu
  | bids info gamer poolType poolId teamId amount hentry hjoins =>
    obtain ⟨details, pool, -, -, -, -, hst⟩ := hjoins.joined
    exact unsettled_of_insert (by rw [hst]; rfl) (by rw [hst]) ⟨rfl, rfl⟩ hu
  | claimsRewards info gamer hentry hclaims =>
    obtain ⟨teams, hst⟩ := hclaims.rest
    exact unsettled_of_same (by rw [hst]; rfl) (by rw [hst]) hu
  | claimsRefunds info gamer hentry hclaims =>
    obtain ⟨teams, hst⟩ := hclaims.rest
    exact unsettled_of_same (by rw [hst]; rfl) (by rw [hst]) hu
  | distributes info poolId gameWinners isFinalBatch ustForRake gameId status pool teams slots
      hentry hstatus hclosed hpool hteams hst =>
    refine unsettled_of_closed (n := if isFinalBatch then gameCompleted else gamePoolClosed) ?_ ?_
    · rw [hst]
      exact status_setGameStatus _
    · cases isFinalBatch with
      | false => decide
      | true => decide

theorem unsettled_of_initial (h : Initial api st) : Unsettled st := by
  intro _ p
  unfold Storage.refundStatus Storage.rewardStatus
  rw [h.spec.2.1, Store.get_empty]
  exact ⟨rfl, rfl⟩

/-- In every run an open game is unsettled. -/
theorem run_unsettled (h : Initial api st) (cs : List Call) : Unsettled (run (exec api) st cs) :=
  run_preserves (fun _ _ _ _ hu hexec => (exec_effect hexec).unsettled hu)
    (unsettled_of_initial h) cs

end Steps

/-! ## The loops over the pools -/

section Loops

variable {api : Api} {st : Storage} {info : MessageInfo}

/-- What the loops over the pools keep: every pool is stored still, and with its type. -/
def KeepsPools (st : Storage) (pools : Store String PoolDetails) : Prop :=
  ∀ (p : String) (pool : PoolDetails), st.poolDetails[p]? = some pool →
    ∃ new, pools[p]? = some new ∧ new.poolType = pool.poolType

theorem KeepsPools.refl (st : Storage) : KeepsPools st st.poolDetails :=
  fun _ pool hpool => ⟨pool, hpool, rfl⟩

theorem KeepsPools.insert {pools : Store String PoolDetails} {poolId : String} {old new : PoolDetails}
    (h : KeepsPools st pools) (hold : pools[poolId]? = some old)
    (htype : new.poolType = old.poolType) : KeepsPools st (pools.insert poolId new) := by
  intro p pool hpool
  obtain ⟨current, hcurrent, hsame⟩ := h p pool hpool
  rw [Store.get_insert]
  split
  · rename_i hp
    rw [← hp, hold] at hcurrent
    obtain rfl := Option.some.inj hcurrent
    exact ⟨new, rfl, htype.trans hsame⟩
  · exact ⟨current, hcurrent, hsame⟩

/-- A round of the loops finds a pool and its type, where the pools are typed. -/
theorem KeepsPools.loads {pools : Store String PoolDetails} {poolId : String} (ht : Typed st)
    (h : KeepsPools st pools) (hmem : poolId ∈ st.poolDetails.keys) :
    ∃ pool details, loadPoolAndType st pools poolId = .ok (pool, details) ∧
      pools[poolId]? = some pool := by
  obtain ⟨old, hold⟩ := (Store.mem_keys_iff _ _).mp hmem
  obtain ⟨pool, hpool, htype⟩ := h poolId old hold
  obtain ⟨details, hdetails⟩ := Option.isSome_iff_exists.mp (ht poolId old hold)
  rw [← htype] at hdetails
  exact ⟨pool, details, loadPoolAndType_eq_ok.mpr ⟨hpool, hdetails⟩, hpool⟩

/-- A loop over all pools succeeds, where each round does with the pool and the type that it
finds. -/
theorem foldlM_pools_succeeds {f : Store String PoolDetails → String → Exec ContractError _}
    (ht : Typed st)
    (round : ∀ pools poolId pool details, KeepsPools st pools →
      loadPoolAndType st pools poolId = .ok (pool, details) → pools[poolId]? = some pool →
      ∃ pools', f pools poolId = .ok pools' ∧ KeepsPools st pools') :
    ∃ pools, st.poolDetails.keys.foldlM f st.poolDetails = .ok pools := by
  refine foldlM_succeeds (I := fun l pools => l ⊆ st.poolDetails.keys ∧ KeepsPools st pools) ?_
    ⟨List.Subset.refl _, .refl st⟩
  rintro poolId l pools ⟨hmem, hkept⟩
  obtain ⟨hpoolId, hl⟩ := List.cons_subset.mp hmem
  obtain ⟨pool, details, hload, hpool⟩ := hkept.loads ht hpoolId
  obtain ⟨pools', hround, hkept'⟩ := round pools poolId pool details hkept hload hpool
  exact ⟨pools', hround, hl, hkept'⟩

theorem cancelPools_succeed (ht : Typed st) :
    ∃ pools, st.poolDetails.keys.foldlM (cancelPool st) st.poolDetails = .ok pools := by
  apply foldlM_pools_succeeds ht
  intro pools poolId pool details hkept hload hpool
  rw [cancelPool, bind_of_eq_ok hload]
  exact ⟨_, rfl, hkept.insert hpool rfl⟩

theorem lockPools_succeed (ht : Typed st) :
    ∃ pools, st.poolDetails.keys.foldlM (lockPool st) st.poolDetails = .ok pools := by
  apply foldlM_pools_succeeds ht
  intro pools poolId pool details hkept hload hpool
  rw [lockPool, bind_of_eq_ok hload]
  by_cases hmin : details.minTeamsForPool ≤ pool.currentTeamsCount
  · exact ⟨pools, if_pos hmin, hkept⟩
  · exact ⟨_, if_neg hmin, hkept.insert hpool rfl⟩

theorem loadGame_of_status {n : ℕ} (h : st.status = some n) :
    ∃ game, loadGame st = .ok game ∧ game.gameStatus = n := by
  obtain ⟨game, hgame, hn⟩ := Option.map_eq_some_iff.mp h
  refine ⟨game, ?_, hn⟩
  unfold loadGame
  rw [hgame]
  rfl

theorem adminOnly_of_sender (h : info.sender = st.config.adminAddress) :
    adminOnly info st = .ok () :=
  refuse_eq_ok.mpr (not_not.mpr h)

/-- Where the pools are typed the admin cancels a game that is not over. -/
theorem cancelGame_succeeds (ht : Typed st) (hadmin : info.sender = st.config.adminAddress)
    (hstatus : st.status = some gamePoolOpen ∨ st.status = some gamePoolClosed) :
    ∃ st' r, cancelGame info st = .ok (st', r) := by
  obtain ⟨pools, hpools⟩ := cancelPools_succeed ht
  have hlive : ∃ n, st.status = some n ∧ n ≠ gameCompleted ∧ n ≠ gameCancelled := by
    rcases hstatus with h | h
    · exact ⟨_, h, by decide⟩
    · exact ⟨_, h, by decide⟩
  obtain ⟨n, hn, hover, hcancelled⟩ := hlive
  obtain ⟨game, hgame, rfl⟩ := loadGame_of_status hn
  refine ⟨{ st.setGameStatus gameCancelled with poolDetails := pools }, {}, ?_⟩
  rw [cancelGame, bind_of_eq_ok (adminOnly_of_sender hadmin), bind_of_eq_ok hgame]
  refine refuseGeneric_bind_eq_ok.mpr ⟨hover, refuseGeneric_bind_eq_ok.mpr ⟨hcancelled, ?_⟩⟩
  rw [bind_of_eq_ok hpools]
  rfl

/-- Where the pools are typed the admin locks a game that is open. -/
theorem lockGame_succeeds (ht : Typed st) (hadmin : info.sender = st.config.adminAddress)
    (hopen : st.status = some gamePoolOpen) : ∃ st' r, lockGame info st = .ok (st', r) := by
  obtain ⟨pools, hpools⟩ := lockPools_succeed ht
  obtain ⟨game, hgame, hn⟩ := loadGame_of_status hopen
  refine ⟨{ st.setGameStatus gamePoolClosed with poolDetails := pools }, {}, ?_⟩
  rw [lockGame, bind_of_eq_ok (adminOnly_of_sender hadmin), bind_of_eq_ok hgame]
  refine refuseGeneric_bind_eq_ok.mpr ⟨not_not.mpr hn, ?_⟩
  rw [bind_of_eq_ok hpools]
  rfl

/-- A game that is locked refunds a pool when it has too few teams for its type. -/
theorem refundStatus_of_lockGame {st' : Storage} {r : Response Payload}
    (h : lockGame info st = .ok (st', r)) (hu : Unsettled st) {p : String} {pool : PoolDetails}
    (hpool : st.poolDetails[p]? = some pool) :
    ∃ details, st.poolTypeDetails[pool.poolType]? = some details ∧
      (st'.refundStatus p = true ↔ pool.currentTeamsCount < details.minTeamsForPool) := by
  obtain ⟨pools, hopen, hpools, hst⟩ := lockGame_spec h
  rcases hpools p with ⟨hnone, -⟩ | ⟨old, details, hold, hdetails, hnew⟩
  · rw [hnone] at hpool
    cases hpool
  · rw [hpool] at hold
    obtain rfl := Option.some.inj hold
    refine ⟨details, hdetails, ?_⟩
    have hafter : st'.poolDetails = pools := by rw [hst]
    rw [← hafter] at hnew
    rw [refundStatus_of_get hnew]
    split
    · rename_i hmin
      -- a pool that is left as it was had no flag set while the game was open
      rw [← refundStatus_of_get hpool, (hu hopen p).1]
      simp [hmin]
    · rename_i hmin
      exact ⟨fun _ => Nat.lt_of_not_le hmin, fun _ => rfl⟩

/-- **Where every pool is typed** the admin can close the game. -/
theorem closable_of_typed (api : Api) (ht : Typed st) (hu : Unsettled st) : Closable api st := by
  refine ⟨ht, fun q env info hadmin hopen => ?_, fun q env info hadmin hstatus => ?_⟩
  · obtain ⟨st', r, hlock⟩ := lockGame_succeeds ht hadmin hopen
    exact ⟨st', r, toOption_eq_some.mpr hlock, fun p pool => refundStatus_of_lockGame hlock hu⟩
  · obtain ⟨st', r, hcancel⟩ := cancelGame_succeeds ht hadmin hstatus
    refine ⟨st', r, toOption_eq_some.mpr hcancel, fun p hp => ?_⟩
    obtain ⟨pool, hpool⟩ := Option.isSome_iff_exists.mp hp
    obtain ⟨status, pools, -, -, hpools, hst, -⟩ := cancelGame_spec hcancel
    have hnew : st'.poolDetails[p]? = some pool.refunded := by
      rw [hst]
      refine (hpools p).trans ?_
      rw [hpool, Option.map_some]
    exact refundStatus_of_get hnew

end Loops

/-! ## Runs -/

/-- **The admin can always close the game** in exactly the runs in which no pool is created but
with a type that is set up. -/
theorem closable_iff (api : Api) (st : Storage) (cs : List Call) (hinit : Initial api st) :
    (∀ ls, ls <+: cs → Closable api (run (exec api) st ls)) ↔
      ∀ x ∈ history (exec api) st cs, (exec api x.1 x.2).isSome →
        CreatesTyped x.1 x.2.entry := by
  constructor
  · rintro hclosable ⟨s, c⟩ hx haccepted poolType hcreated
    obtain ⟨info, hentry⟩ := entry_of_createdType hcreated
    obtain ⟨before, after, rfl, rfl⟩ := mem_history hx
    obtain ⟨r, hexec⟩ := exists_commit haccepted
    obtain ⟨address, count, -, -, hst⟩ := (exec_createPool hentry hexec).created
    -- the pool that is created is there after the call, with the type that it names
    have htyped := (hclosable (before ++ [c]) ⟨after, by simp⟩).typed
    rw [run_snoc, hst] at htyped
    exact htyped _ _ (Store.get_insert_self ..)
  · rintro h ls ⟨rest, rfl⟩
    rw [history_append] at h
    -- every pool is created typed, and stays so
    refine closable_of_typed api ?_ (run_unsettled hinit ls)
    refine run_invariant
      (P := fun s c => (exec api s c).isSome → CreatesTyped s c.entry) ?_ ?_
      fun x hx => h x (List.mem_append_left _ hx)
    · intro s c s' r ht hcreates hexec
      exact exec_typed ht (hcreates (by rw [hexec]; rfl)) hexec
    · intro p pool hpool
      rw [hinit.spec.2.1, Store.get_empty] at hpool
      cases hpool

open Sample in
/-- A type is set up, and two pools are created with it. -/
theorem closable_sample : Closable api (run (exec api) storage played) :=
  (closable_iff api storage played initial).mpr (by decide +kernel) played (List.prefix_refl _)

open Sample in
/-- **A game that cannot be locked**: a pool is created with a type that is not set up. -/
theorem not_closable : ¬ ∀ (api : Api) (st : Storage) (cs : List Call), Initial api st →
    ∀ ls, ls <+: cs → Closable api (run (exec api) st ls) := by
  intro h
  obtain ⟨st', r, hexec, -⟩ := (h api storage [create "ghost"] initial _ (List.prefix_refl _)).lock
    querier ⟨⟨1, 1⟩, "gaming"⟩ ⟨"admin", [⟨"uusd", 0⟩]⟩ rfl (by decide +kernel)
  have hrejected : (exec api (run (exec api) storage [create "ghost"]) lock).isSome = false := by
    decide +kernel
  rw [show exec api (run (exec api) storage [create "ghost"]) lock = _ from hexec] at hrejected
  cases hrejected

end Gamingpool
