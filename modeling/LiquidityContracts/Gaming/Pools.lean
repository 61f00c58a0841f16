import LiquidityContracts.Gaming.Effect

/-!
# The pools of a run

Pools are numbered as they are created, so that an id never names two pools, and are never removed.
Teams are stored for pools that exist only.

## Main definitions

* `Storage.poolCount`, `Storage.nextPoolId`: the pools created so far, and the id of the next one
* `Proceeds`: what a call does to a stored pool
* `Housed`: the pools are numbered, and every team has its pool

## Main results

* `Effect.pool`: what every call does to the pools
* `run_housed`: in every run the pools are numbered
-/

namespace Gamingpool

open CosmWasm

namespace Storage

variable (api : Api) (st : Storage)

/-- How many pools were created. -/
def poolCount : ℕ :=
  ((api dummyWallet).toOption.bind fun address => st.contractPoolCount[address]?).getD 0

/-- The id of the pool that is created next. -/
def nextPoolId : String := toString (st.poolCount api + 1)

end Storage

/-- The ids of different pools differ. -/
theorem toString_injective : Function.Injective (toString : ℕ → String) := by
  intro a b h
  have hdigits : Nat.toDigits 10 a = Nat.toDigits 10 b := by
    have hlist := congrArg String.toList h
    simpa only [Nat.toString_eq_ofList_toDigits, String.toList_ofList] using hlist
  rw [← Nat.ofDigitChars_ten_toDigits (n := a), hdigits, Nat.ofDigitChars_ten_toDigits]

/-- What a call does to a stored pool: the type stays, or it is that of a bid on the pool. -/
def Proceeds (entry : Entry) (p : String) (old new : PoolDetails) : Prop :=
  new.poolType = old.poolType ∨ ∃ info gamer teamId amount,
    entry = .execute info (.gamePoolBidSubmitCommand gamer new.poolType p teamId amount)

/-- What a call does to the pools: each proceeds, but for a new one. -/
inductive PoolStep (api : Api) (st st' : Storage) (entry : Entry) (p : String) :
    Option PoolDetails → Option PoolDetails → Prop
  | absent : PoolStep api st st' entry p none none
  | proceeds (old new : PoolDetails) (h : Proceeds entry p old new) :
    PoolStep api st st' entry p (some old) (some new)
  | created (before : Option PoolDetails) (info : MessageInfo) (poolType : String)
      (hentry : entry = .execute info (.createPool poolType)) (hid : p = st.nextPoolId api)
      (hcount : st'.poolCount api = st.poolCount api + 1) :
    PoolStep api st st' entry p before (some (newPool st.config.gameId p poolType))

section Steps

variable {api : Api} {st st' : Storage} {entry : Entry} {p : String}

theorem PoolStep.unchanged :
    PoolStep api st st' entry p (st.poolDetails[p]?) (st.poolDetails[p]?) := by
  cases st.poolDetails[p]? with
  | none => exact .absent
  | some pool => exact .proceeds pool pool (.inl rfl)

theorem PoolStep.same (h : st'.poolDetails = st.poolDetails) :
    PoolStep api st st' entry p (st.poolDetails[p]?) (st'.poolDetails[p]?) := by
  rw [h]
  exact .unchanged

/-- A pool that is stored again proceeds, and the others are as they were. -/
theorem PoolStep.insert {poolId : String} {old new : PoolDetails}
    (hold : st.poolDetails[poolId]? = some old) (hnew : Proceeds entry poolId old new)
    (h : st'.poolDetails = st.poolDetails.insert poolId new) :
    PoolStep api st st' entry p (st.poolDetails[p]?) (st'.poolDetails[p]?) := by
  rw [h, Store.get_insert]
  split
  · rename_i hp
    rw [← hp, hold]
    exact .proceeds old new hnew
  · exact .unchanged

theorem poolCount_eq {address : Addr} (h : api dummyWallet = .ok address) :
    st.poolCount api = (st.contractPoolCount[address]?).getD 0 := by
  simp [Storage.poolCount, h, Except.toOption]

/-- A pool is created under the next number, and counted. -/
theorem Opens.numbered {poolType : String} (hopens : Opens api poolType st st') :
    st'.poolCount api = st.poolCount api + 1 ∧ ∃ counts, st' = { st with
      contractPoolCount := counts
      poolDetails := st.poolDetails.insert (st.nextPoolId api)
        (newPool st.config.gameId (st.nextPoolId api) poolType) } := by
  obtain ⟨address, count, haddress, hcount, hst⟩ := hopens.created
  have hid : toString count = st.nextPoolId api := by
    rw [Storage.nextPoolId, poolCount_eq haddress, hcount]
  rw [hid] at hst
  refine ⟨?_, _, hst⟩
  rw [poolCount_eq haddress, poolCount_eq haddress, ← hcount, hst, Store.get_insert_self]
  rfl

/-- **In every effect** the pools proceed, and at most one is created. -/
theorem Effect.pool (h : Effect api st st' entry) (p : String) :
    PoolStep api st st' entry p (st.poolDetails[p]?) (st'.poolDetails[p]?) := by
  cases h with
  | keeps wallets slots hst => exact .same (by rw [hst])
  | setsType poolType details hnone hst => exact .same (by rw [hst])
  | cancels info status pools hentry hstatus hlive hpools hst =>
    have hp : st'.poolDetails[p]? = (st.poolDetails[p]?).map PoolDetails.refunded := by
      rw [hst]
      exact hpools p
    rw [hp]
    cases st.poolDetails[p]? with
    | none => exact .absent
    | some pool => exact .proceeds pool pool.refunded (.inl rfl)
  | locks info pools hentry hopen hpools hst =>
    have hp : Locked st (st.poolDetails[p]?) (st'.poolDetails[p]?) := by
      rw [hst]
      exact hpools p
    -- a pool that is locked is kept, or kept with its refund flag set
    rcases hp with ⟨hold, hnew⟩ | ⟨pool, details, hold, -, hnew⟩
    · rw [hold, hnew]
      exact .absent
    · rw [hold, hnew]
      refine .proceeds pool _ (.inl ?_)
      split
      · rfl
      · rfl
  | creates info poolType hentry hopens =>
    obtain ⟨hcount, counts, hst⟩ := hopens.numbered
    have hpools : st'.poolDetails = st.poolDetails.insert (st.nextPoolId api)
      (newPool st.config.gameId (st.nextPoolId api) poolType) := by rw [hst]
    -- the next number is that of the new pool, all others are as before
    rw [hpools, Store.get_insert]
    split
    · rename_i hp
      rw [hp]
      exact .created _ info poolType hentry hp.symm hcount
    · exact .unchanged
  | bids info gamer poolType poolId teamId amount hentry hjoins =>
    obtain ⟨details, pool, -, -, hpool, -, hst⟩ := hjoins.joined
    exact .insert hpool (.inr ⟨info, gamer, teamId, amount, hentry⟩) (by rw [hst])
  | claimsRewards info gamer hentry hclaims =>
    obtain ⟨teams, hst⟩ := hclaims.rest
    exact .same (by rw [hst])
  | claimsRefunds info gamer hentry hclaims =>
    obtain ⟨teams, hst⟩ := hclaims.rest
    exact .same (by rw [hst])
  | distributes info poolId gameWinners isFinalBatch ustForRake gameId status pool teams slots
      hentry hstatus hclosed hpool hteams hst =>
    have hpools : st'.poolDetails = st.poolDetails.insert poolId
      (pool.distributedTo st.config.gameId poolId isFinalBatch) := by rw [hst]
    refine .insert hpool ?_ hpools
    exact .inl rfl

/-- The count of the pools never falls. -/
theorem Effect.poolCount_le (h : Effect api st st' entry) :
    st.poolCount api ≤ st'.poolCount api := by
  cases h with
  | keeps _ _ hst => rw [hst]; rfl
  | setsType _ _ _ hst => rw [hst]; rfl
  | cancels _ _ _ _ _ _ _ hst => rw [hst]; rfl
  | locks _ _ _ _ _ hst => rw [hst]; rfl
  | creates info poolType hentry hopens =>
    rw [hopens.numbered.1]
    exact Nat.le_succ _
  | bids _ _ _ _ _ _ _ hjoins =>
    obtain ⟨details, pool, -, -, -, -, hst⟩ := hjoins.joined
    rw [hst]
    rfl
  | claimsRewards _ _ _ hclaims =>
    obtain ⟨teams, hst⟩ := hclaims.rest
    rw [hst]
    rfl
  | claimsRefunds _ _ _ hclaims =>
    obtain ⟨teams, hst⟩ := hclaims.rest
    rw [hst]
    rfl
  | distributes _ _ _ _ _ _ _ _ _ _ _ _ _ _ _ hst => rw [hst]; rfl

end Steps

/-! ## Runs -/

/-- The pools have the numbers up to their count, and every team has its pool. -/
structure Housed (api : Api) (st : Storage) : Prop where
  numbered : ∀ p, (st.poolDetails[p]?).isSome → ∃ n ≤ st.poolCount api, p = toString n
  teams : ∀ p g, st.teams p g ≠ [] → (st.poolDetails[p]?).isSome

section Runs

variable {api : Api} {st st' : Storage} {entry : Entry} {c : Call} {r : Response Payload}

/-- No pool has the id of the next one. -/
theorem Housed.fresh (h : Housed api st) : st.poolDetails[st.nextPoolId api]? = none := by
  by_contra hsome
  obtain ⟨n, hle, hn⟩ := h.numbered _ (Option.isSome_iff_ne_none.mpr hsome)
  have := toString_injective hn
  omega

theorem Housed.fresh_teams (h : Housed api st) (g : String) : st.teams (st.nextPoolId api) g = [] := by
  by_contra hne
  have hsome := h.teams _ g hne
  rw [h.fresh] at hsome
  cases hsome

/-- A pool that is stored is never created again. -/
theorem Housed.proceeds (hh : Housed api st) (h : Effect api st st' entry) {p : String}
    {pool : PoolDetails} (hpool : st.poolDetails[p]? = some pool) :
    ∃ new, st'.poolDetails[p]? = some new ∧ Proceeds entry p pool new := by
  have hstep := h.pool p
  rw [hpool] at hstep
  generalize st'.poolDetails[p]? = after at hstep
  cases hstep with
  | proceeds old new hproceeds => exact ⟨new, rfl, hproceeds⟩
  | created before info poolType hentry hid =>
    rw [hid, hh.fresh] at hpool
    cases hpool

/-- A pool that is stored stays stored. -/
theorem Effect.pool_isSome (h : Effect api st st' entry) {p : String}
    (hp : (st.poolDetails[p]?).isSome) : (st'.poolDetails[p]?).isSome := by
  obtain ⟨pool, hpool⟩ := Option.isSome_iff_exists.mp hp
  have hstep := h.pool p
  rw [hpool] at hstep
  generalize st'.poolDetails[p]? = after at hstep
  cases hstep with
  | proceeds old new hproceeds => rfl
  | created before info poolType hentry hid hcount => rfl

theorem Effect.housed (h : Effect api st st' entry) (hh : Housed api st) : Housed api st' := by
  constructor
  · intro p hp
    have hstep := h.pool p
    generalize hbefore : st.poolDetails[p]? = before at hstep
    generalize st'.poolDetails[p]? = after at hstep hp
    cases hstep with
    | absent => cases hp
    | proceeds old new hproceeds =>
      obtain ⟨n, hn, hid⟩ := hh.numbered p (by rw [hbefore]; rfl)
      exact ⟨n, hn.trans h.poolCount_le, hid⟩
    | created before info poolType hentry hid hcount => exact ⟨_, hcount.ge, hid⟩
  · intro p g hne
    by_cases hold : st.teams p g = []
    · -- the first team of a gamer is that of a bid, on a pool that is stored
      obtain ⟨f, added, -, hnew, hadded⟩ := h.continues p g
      rcases hadded with rfl | ⟨info, poolType, teamId, amount, -, hjoins, -⟩
      · rw [hold] at hnew
        exact absurd hnew hne
      · obtain ⟨details, pool, -, -, hpool, -, -⟩ := hjoins.joined
        exact h.pool_isSome (by rw [hpool]; rfl)
    · exact h.pool_isSome (hh.teams p g hold)

theorem housed_of_initial (h : Initial api st) : Housed api st := by
  refine ⟨fun p hp => ?_, fun p g hne => absurd (h.teams p g) hne⟩
  rw [h.spec.2.1, Store.get_empty] at hp
  cases hp

/-- **In every run** the pools are numbered, and every team has its pool. -/
theorem run_housed (h : Initial api st) (cs : List Call) : Housed api (run (exec api) st cs) :=
  run_preserves (fun _ _ _ _ hh hexec => (exec_effect hexec).housed hh) (housed_of_initial h) cs

end Runs

end Gamingpool
