import LiquidityContracts.CosmWasm.RawKey
import LiquidityContracts.Gaming.Effect

/-!
# Swaps and reward totals

What is known of the swap of a pool and what its batches of rewards add up to are kept in two maps
that have one namespace, so both are stored under the same raw key. A map that finds the value of
the other cannot read it, and then starts anew. So each of the two reads what was written last by
its own calls in the runs in which no pool is both swapped and rewarded, and in no others.

## Main definitions

* `currentRewardForPoolKey`, `swapBalanceInfoKey`: the raw keys of the two maps
* `loadCurrentReward`, `querySwapDataForPool`: what is read from them
* `swapWritten`, `rewardWritten`: what a call writes
* `KeptApart`: the law of a run

## Main results

* `swapBalanceInfoKey_eq`: the two maps share their raw keys
* `exec_slots`: what a call does to the entries
* `keptApart_iff`: the law holds of the runs in which no pool is both swapped and rewarded
* `not_keptApart`: a batch of rewards after which the swap is not known any more
-/

namespace Gamingpool

open CosmWasm

/-! ## The maps -/

/-- The raw keys of `CURRENT_REWARD_FOR_POOL`. -/
def currentRewardForPoolKey (poolId : String) : List UInt8 := rawKey "current_reward_for_pool" poolId

/-- The raw keys of `SWAP_BALANCE_INFO`. -/
def swapBalanceInfoKey (poolId : String) : List UInt8 := rawKey "current_reward_for_pool" poolId

/-- What is stored under a raw key of this namespace. -/
def Storage.rawSlot (st : Storage) (key : List UInt8) : Option PoolSlot :=
  st.currentRewardForPool.raw "current_reward_for_pool" key

/-- `CURRENT_REWARD_FOR_POOL.load`, as a batch of rewards calls it. -/
def loadCurrentReward (st : Storage) (poolId : String) : Option ℕ :=
  (st.rawSlot (currentRewardForPoolKey poolId)).bind PoolSlot.reward?

/-- `query_swap_data_for_pool`, which is `SWAP_BALANCE_INFO.load`, as `reply` calls it. -/
def querySwapDataForPool (st : Storage) (poolId : String) : Option SwapBalanceDetails :=
  (st.rawSlot (swapBalanceInfoKey poolId)).bind PoolSlot.swap?

/-- The pool whose swap an entry is about. -/
def Entry.swapPool : Entry → Option String
  | .execute _ (.swap _ poolId) => some poolId
  | .reply id => some (toString id)
  | _ => none

/-- The pool whose rewards an entry is about. -/
def Entry.rewardPool : Entry → Option String
  | .execute _ (.gamePoolRewardDistribute poolId _ _ _ _) => some poolId
  | _ => none

/-- What an accepted call saves in `SWAP_BALANCE_INFO` for a pool: what it leaves there. -/
def swapWritten (api : Api) (poolId : String) (st : Storage) (c : Call) :
    Option SwapBalanceDetails :=
  if c.entry.swapPool = some poolId ∧ (exec api st c).isSome then
    querySwapDataForPool (commit (exec api) st c) poolId
  else none

/-- What an accepted call saves in `CURRENT_REWARD_FOR_POOL` for a pool: what it leaves there. -/
def rewardWritten (api : Api) (poolId : String) (st : Storage) (c : Call) : Option ℕ :=
  if c.entry.rewardPool = some poolId ∧ (exec api st c).isSome then
    loadCurrentReward (commit (exec api) st c) poolId
  else none

/-- Swaps and reward totals do not interfere in a run: at any time what is read is what was written
last. -/
structure KeptApart (api : Api) (st : Storage) (cs : List Call) : Prop where
  swap : ∀ ls, ls <+: cs → ∀ p, querySwapDataForPool (run (exec api) st ls) p =
    lastSome (exec api) (swapWritten api p) st ls
  reward : ∀ ls, ls <+: cs → ∀ p, loadCurrentReward (run (exec api) st ls) p =
    lastSome (exec api) (rewardWritten api p) st ls

/-- No pool is both swapped and rewarded by the accepted calls of a run. -/
def SwappedOrRewarded (api : Api) (st : Storage) (cs : List Call) : Prop :=
  ∀ x ∈ history (exec api) st cs, ∀ y ∈ history (exec api) st cs,
    (exec api x.1 x.2).isSome → (exec api y.1 y.2).isSome →
      x.2.entry.swapPool.isSome → x.2.entry.swapPool ≠ y.2.entry.rewardPool

instance (api : Api) (st : Storage) (cs : List Call) : Decidable (SwappedOrRewarded api st cs) :=
  inferInstanceAs (Decidable (∀ _ ∈ _, ∀ _ ∈ _, _))

/-- **The two maps share their raw keys.** -/
theorem swapBalanceInfoKey_eq (poolId : String) :
    swapBalanceInfoKey poolId = currentRewardForPoolKey poolId := rfl

section Reads

variable {st : Storage} {p : String}

theorem rawSlot_rawKey : st.rawSlot (rawKey "current_reward_for_pool" p) =
    st.currentRewardForPool[p]? :=
  Store.raw_rawKey (by decide +kernel) _ _

/-- What a batch of rewards reads is read under the raw key. -/
theorem loadCurrentReward_eq :
    loadCurrentReward st p = (st.currentRewardForPool[p]?).bind PoolSlot.reward? :=
  congrArg (Option.bind · PoolSlot.reward?) rawSlot_rawKey

/-- What a swap and its reply read is read under the raw key. -/
theorem querySwapDataForPool_eq :
    querySwapDataForPool st p = (st.currentRewardForPool[p]?).bind PoolSlot.swap? :=
  congrArg (Option.bind · PoolSlot.swap?) rawSlot_rawKey

end Reads

/-! ## One call -/

/-- What an accepted call does to the entries of the two maps. -/
inductive Slots (st st' : Storage) (entry : Entry) : Prop
  | keeps (hswap : entry.swapPool = none) (hreward : entry.rewardPool = none)
      (hst : st'.currentRewardForPool = st.currentRewardForPool)
  | swaps (poolId : String) (details : SwapBalanceDetails) (hswap : entry.swapPool = some poolId)
      (hreward : entry.rewardPool = none)
      (hst : st'.currentRewardForPool = st.currentRewardForPool.insert poolId (.swap details))
  | rewards (poolId : String) (amount : ℕ) (hswap : entry.swapPool = none)
      (hreward : entry.rewardPool = some poolId)
      (hst : st'.currentRewardForPool = st.currentRewardForPool.insert poolId (.reward amount))

section Handlers

variable {api : Api} {q : Querier} {env : Env} {info : MessageInfo} {st st' : Storage}
  {r : Response Payload}

theorem execute_slots {msg : ExecuteMsg} (h : execute api q env info st msg = .ok (st', r)) :
    Slots st st' (.execute info msg) := by
  cases msg with
  | setPlatformFeeWallets walletPercentages =>
    obtain ⟨-, -, h⟩ := bind_eq_ok.mp h
    cases pure_eq_ok.mp h
    exact .keeps rfl rfl rfl
  | setPoolTypeParams poolType fee min max maxGamer rake =>
    obtain ⟨-, -, h⟩ := bind_eq_ok.mp h
    obtain ⟨-, h⟩ := refuseGeneric_bind_eq_ok.mp h
    cases pure_eq_ok.mp h
    exact .keeps rfl rfl rfl
  | cancelGame =>
    obtain ⟨-, -, h⟩ := bind_eq_ok.mp h
    obtain ⟨game, -, h⟩ := bind_eq_ok.mp h
    obtain ⟨-, h⟩ := refuseGeneric_bind_eq_ok.mp h
    obtain ⟨-, h⟩ := refuseGeneric_bind_eq_ok.mp h
    obtain ⟨pools, -, h⟩ := bind_eq_ok.mp h
    cases pure_eq_ok.mp h
    exact .keeps rfl rfl rfl
  | lockGame =>
    obtain ⟨-, -, h⟩ := bind_eq_ok.mp h
    obtain ⟨game, -, h⟩ := bind_eq_ok.mp h
    obtain ⟨-, h⟩ := refuseGeneric_bind_eq_ok.mp h
    obtain ⟨pools, -, h⟩ := bind_eq_ok.mp h
    cases pure_eq_ok.mp h
    exact .keeps rfl rfl rfl
  | createPool poolType =>
    obtain ⟨address, count, -, -, hst⟩ := (createPool_spec h).created
    exact .keeps rfl rfl (by rw [hst])
  | claimReward gamer =>
    obtain ⟨teams, hst⟩ := (claimReward_spec h).1.rest
    exact .keeps rfl rfl (by rw [hst])
  | claimRefund gamer =>
    obtain ⟨teams, hst⟩ := (claimRefund_spec h).1.rest
    exact .keeps rfl rfl (by rw [hst])
  | gamePoolRewardDistribute poolId gameWinners isFinalBatch ustForRake gameId =>
    -- a batch saves the total under the key of the pool
    obtain ⟨pool, teams, total, -, -, hst⟩ := (gamePoolRewardDistribute_spec h).distributed
    exact .rewards poolId total rfl rfl (by rw [hst])
  | gamePoolBidSubmitCommand gamer poolType poolId teamId amount =>
    obtain ⟨details, pool, -, -, -, -, hst⟩ := (gamePoolBidSubmit_spec h).joined
    exact .keeps rfl rfl (by rw [hst])
  | sweep funds =>
    obtain ⟨-, -, h⟩ := bind_eq_ok.mp h
    cases pure_eq_ok.mp h
    exact .keeps rfl rfl rfl
  | swap amount poolId =>
    obtain ⟨details, hst⟩ := swap_spec h
    exact .swaps poolId details rfl rfl (by rw [hst])

/-- **What an accepted call does to the entries**: a swap and its reply save the one kind, a batch
of rewards the other. -/
theorem exec_slots {c : Call} (h : exec api st c = some (st', r)) : Slots st st' c.entry := by
  unfold exec at h
  split at h
  · rename_i info msg hentry
    rw [hentry]
    exact execute_slots (toOption_eq_some.mp h)
  · rename_i id hentry
    rw [hentry]
    obtain ⟨details, hst⟩ := reply_spec (toOption_eq_some.mp h)
    exact .swaps (toString id) details rfl rfl (by rw [hst])

end Handlers

section Written

variable {api : Api} {st : Storage} {c : Call} {p : String}

/-- After an accepted swap or reply the details of a swap are stored for its pool. -/
theorem slot_of_swap (h : c.entry.swapPool = some p ∧ (exec api st c).isSome) :
    ∃ details, (commit (exec api) st c).currentRewardForPool[p]? = some (.swap details) := by
  obtain ⟨hpool, haccepted⟩ := h
  obtain ⟨r, hexec⟩ := exists_commit haccepted
  cases exec_slots hexec with
  | keeps hswap hreward hst =>
    rw [hswap] at hpool
    cases hpool
  | swaps poolId details hswap hreward hst =>
    rw [hswap] at hpool
    obtain rfl := Option.some.inj hpool
    rw [hst, Store.get_insert_self]
    exact ⟨details, rfl⟩
  | rewards poolId amount hswap hreward hst =>
    rw [hswap] at hpool
    cases hpool

/-- After an accepted batch a reward total is stored for its pool. -/
theorem slot_of_reward (h : c.entry.rewardPool = some p ∧ (exec api st c).isSome) :
    ∃ amount, (commit (exec api) st c).currentRewardForPool[p]? = some (.reward amount) := by
  obtain ⟨hpool, haccepted⟩ := h
  obtain ⟨r, hexec⟩ := exists_commit haccepted
  cases exec_slots hexec with
  | keeps hswap hreward hst =>
    rw [hreward] at hpool
    cases hpool
  | swaps poolId details hswap hreward hst =>
    rw [hreward] at hpool
    cases hpool
  | rewards poolId amount hswap hreward hst =>
    rw [hreward] at hpool
    obtain rfl := Option.some.inj hpool
    rw [hst, Store.get_insert_self]
    exact ⟨amount, rfl⟩

/-- Any other call leaves what is stored for a pool as it is. -/
theorem slot_of_neither (hs : ¬ (c.entry.swapPool = some p ∧ (exec api st c).isSome))
    (hr : ¬ (c.entry.rewardPool = some p ∧ (exec api st c).isSome)) :
    (commit (exec api) st c).currentRewardForPool[p]? = st.currentRewardForPool[p]? := by
  rcases commit_cases (exec api) st c with ⟨r, hexec⟩ | ⟨-, hsame⟩
  · have haccepted : (exec api st c).isSome := by
      rw [hexec]
      rfl
    cases exec_slots hexec with
    | keeps hswap hreward hst => rw [hst]
    | swaps poolId details hswap hreward hst =>
      have hne : poolId ≠ p := fun hp => hs ⟨hswap.trans (congrArg some hp), haccepted⟩
      rw [hst, Store.get_insert_of_ne _ _ hne]
    | rewards poolId amount hswap hreward hst =>
      have hne : poolId ≠ p := fun hp => hr ⟨hreward.trans (congrArg some hp), haccepted⟩
      rw [hst, Store.get_insert_of_ne _ _ hne]
  · rw [hsame]

/-- A call writes what is known of a swap when it is an accepted swap or reply. -/
theorem swapWritten_isSome : (swapWritten api p st c).isSome ↔
    c.entry.swapPool = some p ∧ (exec api st c).isSome := by
  unfold swapWritten
  split
  · rename_i h
    obtain ⟨details, hslot⟩ := slot_of_swap h
    rw [querySwapDataForPool_eq, hslot]
    exact iff_of_true rfl h
  · rename_i h
    exact iff_of_false Bool.noConfusion h

/-- A call writes a reward total when it is an accepted batch. -/
theorem rewardWritten_isSome : (rewardWritten api p st c).isSome ↔
    c.entry.rewardPool = some p ∧ (exec api st c).isSome := by
  unfold rewardWritten
  split
  · rename_i h
    obtain ⟨amount, hslot⟩ := slot_of_reward h
    rw [loadCurrentReward_eq, hslot]
    exact iff_of_true rfl h
  · rename_i h
    exact iff_of_false Bool.noConfusion h

/-- **What is read of a swap after a call**: what the call writes, and otherwise what was read
before, unless a batch has taken its place. -/
theorem querySwapDataForPool_commit : querySwapDataForPool (commit (exec api) st c) p =
    (swapWritten api p st c).or
      (if c.entry.rewardPool = some p ∧ (exec api st c).isSome then none
        else querySwapDataForPool st p) := by
  by_cases hs : c.entry.swapPool = some p ∧ (exec api st c).isSome
  · rw [Option.or_of_isSome (swapWritten_isSome.mpr hs), swapWritten, if_pos hs]
  · rw [swapWritten, if_neg hs, Option.none_or]
    by_cases hr : c.entry.rewardPool = some p ∧ (exec api st c).isSome
    · obtain ⟨amount, hslot⟩ := slot_of_reward hr
      rw [if_pos hr, querySwapDataForPool_eq, hslot]
      rfl
    · rw [if_neg hr, querySwapDataForPool_eq, slot_of_neither hs hr, querySwapDataForPool_eq]

/-- **What is read of the rewards after a call**: what the call writes, and otherwise what was read
before, unless a swap has taken its place. -/
theorem loadCurrentReward_commit : loadCurrentReward (commit (exec api) st c) p =
    (rewardWritten api p st c).or
      (if c.entry.swapPool = some p ∧ (exec api st c).isSome then none
        else loadCurrentReward st p) := by
  by_cases hr : c.entry.rewardPool = some p ∧ (exec api st c).isSome
  · rw [Option.or_of_isSome (rewardWritten_isSome.mpr hr), rewardWritten, if_pos hr]
  · rw [rewardWritten, if_neg hr, Option.none_or]
    by_cases hs : c.entry.swapPool = some p ∧ (exec api st c).isSome
    · obtain ⟨details, hslot⟩ := slot_of_swap hs
      rw [if_pos hs, loadCurrentReward_eq, hslot]
      rfl
    · rw [if_neg hs, loadCurrentReward_eq, slot_of_neither hs hr, loadCurrentReward_eq]

/-- What is known of the swap and the reward total of a pool are not both there. -/
theorem not_both (hswap : (querySwapDataForPool st p).isSome)
    (hreward : (loadCurrentReward st p).isSome) : False := by
  rw [querySwapDataForPool_eq] at hswap
  rw [loadCurrentReward_eq] at hreward
  cases hslot : st.currentRewardForPool[p]? with
  | none =>
    rw [hslot] at hswap
    cases hswap
  | some slot =>
    rw [hslot] at hswap hreward
    cases slot with
    | reward amount => cases hswap
    | swap details => cases hreward

end Written

section Runs

variable {api : Api} {st : Storage} {cs cs' : List Call} {c : Call} {p : String}

/-- Where no pool is both swapped and rewarded, none was before. -/
theorem SwappedOrRewarded.earlier (h : SwappedOrRewarded api st cs) (hcs : cs' <+: cs) :
    SwappedOrRewarded api st cs' :=
  fun x hx y hy => h x (history_subset hcs hx) y (history_subset hcs hy)

theorem lastSome_swap_eq_none
    (h : ∀ x ∈ history (exec api) st cs, (exec api x.1 x.2).isSome → x.2.entry.swapPool ≠ some p) :
    lastSome (exec api) (swapWritten api p) st cs = none := by
  rw [← Option.not_isSome_iff_eq_none, lastSome_isSome]
  rintro ⟨x, hx, hwritten⟩
  obtain ⟨hpool, haccepted⟩ := swapWritten_isSome.mp hwritten
  exact h x hx haccepted hpool

theorem lastSome_reward_eq_none
    (h : ∀ x ∈ history (exec api) st cs, (exec api x.1 x.2).isSome →
      x.2.entry.rewardPool ≠ some p) :
    lastSome (exec api) (rewardWritten api p) st cs = none := by
  rw [← Option.not_isSome_iff_eq_none, lastSome_isSome]
  rintro ⟨x, hx, hwritten⟩
  obtain ⟨hpool, haccepted⟩ := rewardWritten_isSome.mp hwritten
  exact h x hx haccepted hpool

/-- **One step**: what is read goes on to be what was written last, if no pool of the run is both
swapped and rewarded. -/
theorem reads_snoc (hapart : SwappedOrRewarded api st (cs ++ [c]))
    (hswap : ∀ p, querySwapDataForPool (run (exec api) st cs) p =
      lastSome (exec api) (swapWritten api p) st cs)
    (hreward : ∀ p, loadCurrentReward (run (exec api) st cs) p =
      lastSome (exec api) (rewardWritten api p) st cs) (p : String) :
    querySwapDataForPool (run (exec api) st (cs ++ [c])) p =
        lastSome (exec api) (swapWritten api p) st (cs ++ [c]) ∧
      loadCurrentReward (run (exec api) st (cs ++ [c])) p =
        lastSome (exec api) (rewardWritten api p) st (cs ++ [c]) := by
  have hlast : (run (exec api) st cs, c) ∈ history (exec api) st (cs ++ [c]) :=
    mem_history_append st cs c []
  have hbefore : history (exec api) st cs ⊆ history (exec api) st (cs ++ [c]) :=
    history_subset (List.prefix_append cs [c])
  rw [lastSome_snoc, lastSome_snoc, ← hswap, ← hreward, run_snoc, querySwapDataForPool_commit,
    loadCurrentReward_commit]
  constructor
  · refine congrArg _ (ite_eq_right_iff.mpr fun hr => ?_)
    -- the pool is rewarded, so that no swap of it has been accepted before
    rw [hswap, lastSome_swap_eq_none]
    intro y hy hyaccepted hypool
    refine hapart y (hbefore hy) _ hlast hyaccepted hr.2 ?_ ?_
    · rw [hypool]
      rfl
    · rw [hypool, hr.1]
  · refine congrArg _ (ite_eq_right_iff.mpr fun hs => ?_)
    -- the pool is swapped, so that no batch for it has been accepted before
    rw [hreward, lastSome_reward_eq_none]
    intro y hy hyaccepted hypool
    refine hapart _ hlast y (hbefore hy) hs.2 hyaccepted ?_ ?_
    · rw [hs.1]
      rfl
    · rw [hs.1, hypool]

/-- **What is read is what was written last** after every run in which no pool is both swapped and
rewarded. -/
theorem run_reads (hinit : Initial api st) (hapart : SwappedOrRewarded api st cs) (p : String) :
    querySwapDataForPool (run (exec api) st cs) p =
        lastSome (exec api) (swapWritten api p) st cs ∧
      loadCurrentReward (run (exec api) st cs) p =
        lastSome (exec api) (rewardWritten api p) st cs := by
  induction cs using List.reverseRecOn generalizing p with
  | nil =>
    rw [querySwapDataForPool_eq, loadCurrentReward_eq, run_nil, hinit.slots]
    exact ⟨rfl, rfl⟩
  | append_singleton cs c ih =>
    have hbefore : SwappedOrRewarded api st cs := hapart.earlier (List.prefix_append _ _)
    exact reads_snoc hapart (fun p => (ih hbefore p).1) (fun p => (ih hbefore p).2) p

end Runs

/-- **Swaps and reward totals do not interfere** in exactly the runs in which no pool is both
swapped and rewarded. -/
theorem keptApart_iff (api : Api) (st : Storage) (cs : List Call) (hinit : Initial api st) :
    KeptApart api st cs ↔ SwappedOrRewarded api st cs := by
  constructor
  · intro hlaw x hx y hy hxaccepted hyaccepted hswapped hboth
    obtain ⟨p, hp⟩ := Option.isSome_iff_exists.mp hswapped
    rw [hp] at hboth
    -- both have been written, and one of them is read no more
    have hswap := hlaw.swap cs (List.prefix_refl cs) p
    have hreward := hlaw.reward cs (List.prefix_refl cs) p
    have hswapRead : (querySwapDataForPool (run (exec api) st cs) p).isSome := by
      rw [hswap, lastSome_isSome]
      exact ⟨x, hx, swapWritten_isSome.mpr ⟨hp, hxaccepted⟩⟩
    have hrewardRead : (loadCurrentReward (run (exec api) st cs) p).isSome := by
      rw [hreward, lastSome_isSome]
      exact ⟨y, hy, rewardWritten_isSome.mpr ⟨hboth.symm, hyaccepted⟩⟩
    exact not_both hswapRead hrewardRead
  · intro hapart
    exact ⟨fun ls hls p => (run_reads hinit (hapart.earlier hls) p).1,
      fun ls hls p => (run_reads hinit (hapart.earlier hls) p).2⟩

namespace Sample

/-- The collection of a pool is swapped. -/
def swapPool (poolId : String) (amount : ℕ) : Call := call "admin" 0 (.swap amount poolId)

/-- The reply to the swap of the first pool. -/
def swapped : Call := ⟨querier, ⟨⟨1, 1⟩, "gaming"⟩, .reply 1⟩

/-- A pool of two teams, in a game that is locked. -/
def lockedPool : List Call :=
  [setType "duel" 10000, create "duel", bid "alice" "duel" "1" "lions" 10000,
    bid "bob" "duel" "1" "bears" 10000, lock]

end Sample

open Sample in
/-- A pool that is swapped, and not rewarded. -/
theorem keptApart_swapped :
    KeptApart api storage (lockedPool ++ [swapPool "1" 20000, swapped, swapPool "1" 5000]) :=
  (keptApart_iff api storage _ initial).mpr (by decide +kernel)

open Sample in
/-- **The swap is not known any more** after a batch of rewards for the pool. -/
theorem not_keptApart :
    ¬ ∀ (api : Api) (st : Storage) (cs : List Call), Initial api st → KeptApart api st cs := by
  intro h
  have hswap := (h api storage (lockedPool ++ [swapPool "1" 20000, swapped,
    batch "1" [⟨"alice", "lions", 5000⟩]]) initial).swap _ (List.prefix_refl _) "1"
  exact absurd hswap (by decide +kernel)

end Gamingpool
