import LiquidityContracts.Accounting.ProRata
import LiquidityContracts.Gaming.Counts

/-!
# The rake

With the final batch of the rewards of a pool the admin names an amount of USDC, which is handed out
to the rake wallets of the pool's type by their percentages. The percentages are stored as they are
given. Every share is rounded down, so the wallets get no more than the amount if the percentages
sum to 100 at most; if they sum to more, they get more than an amount of 100.

## Main definitions

* `FinalBatch`: the final batch of a pool, with the amount for the rake left open
* `sentTo`: the coins of a denom that messages send to some wallets
* `RakeWithin`: the rake wallets are sent no more than the amount

## Main results

* `gamePoolRewardDistribute_rake`: a final batch does the same for any amount, apart from the rake
* `run_rakeList`: the wallets of a type are those that it was set with
* `rakeWithin_iff`: the rake is within the amount if and only if the percentages sum to 100 at most
-/

namespace Gamingpool

open CosmWasm Accounting

/-- The final batch of the rewards of a pool. -/
structure FinalBatch where
  q : Querier
  env : Env
  info : MessageInfo
  poolId : String
  gameWinners : List GameResult
  gameId : String

/-- The call of a final batch with an amount of USDC for the rake. -/
def FinalBatch.call (b : FinalBatch) (ustForRake : ℕ) : Call where
  q := b.q
  env := b.env
  entry := .execute b.info
    (.gamePoolRewardDistribute b.poolId b.gameWinners true ustForRake b.gameId)

/-- The coins of a denom that messages send to some wallets. -/
def sentTo (wallets : List String) (denom : String) (msgs : List (CosmosMsg Payload)) : ℕ :=
  (msgs.map fun
    | .bankSend toAddress coins => if toAddress ∈ wallets then amountOf denom coins else 0
    | _ => 0).sum

/-- Whatever the amount set aside for the rake, a final batch sends no more USDC to the wallets. -/
def RakeWithin (api : Api) (st : Storage) (b : FinalBatch) (rake : List WalletPercentage) : Prop :=
  ∀ ustForRake < Uint128.bound, ∀ st' r, exec api st (b.call ustForRake) = some (st', r) →
    sentTo (rake.map (·.walletAddress)) st.config.usdcIbcSymbol r.messages ≤ ustForRake

/-- What a final batch emits: nothing when there is nothing for the rake. -/
def rakeResponse (st : Storage) (rake : List WalletPercentage) (ustForRake : ℕ) :
    Response Payload :=
  if ustForRake ≠ 0 then transferToMultipleWallets st (rake.map (rakeTransfer ustForRake)) else {}

section Shares

variable {w : WalletPercentage} {rake : List WalletPercentage}

/-- The share of a wallet is at most its percentage of the amount, and less only where the
multiplication overflows. -/
theorem rakeTransfer_le (ustForRake : ℕ) (w : WalletPercentage) :
    (rakeTransfer ustForRake w).amount ≤ share ustForRake w.percentage 100 := by
  rw [rakeTransfer, Uint128.divOrZero_eq]
  apply Nat.div_le_div_right
  exact Uint128.mulOrZero_le ustForRake w.percentage

/-- Of an amount of 100 a wallet gets its percentage. -/
theorem rakeTransfer_hundred (h : w.percentage < Uint32.bound) :
    (rakeTransfer 100 w).amount = w.percentage := by
  have hlt : 100 * w.percentage < Uint128.bound := by
    unfold Uint32.bound at h
    unfold Uint128.bound
    omega
  rw [rakeTransfer, Uint128.divOrZero_eq, Uint128.mulOrZero, if_pos hlt,
    Nat.mul_div_cancel_left _ (by omega)]

/-- Transfers to wallets send them their amounts. -/
theorem sentTo_transfers (st : Storage) (ustForRake : ℕ) (wallets : List String)
    (h : ∀ w ∈ rake, w.walletAddress ∈ wallets) :
    sentTo wallets st.config.usdcIbcSymbol
        (transferToMultipleWallets st (rake.map (rakeTransfer ustForRake))).messages =
      (rake.map fun w => (rakeTransfer ustForRake w).amount).sum := by
  rw [sentTo, transferToMultipleWallets, List.map_map, List.map_map]
  congr 1
  apply List.map_congr_left
  intro w hw
  have hmem : (rakeTransfer ustForRake w).walletAddress ∈ wallets := h w hw
  simp [hmem]

/-- **What the wallets get** in a final batch is the sum of their shares. -/
theorem sentTo_rakeResponse (st : Storage) (rake : List WalletPercentage) (ustForRake : ℕ) :
    sentTo (rake.map (·.walletAddress)) st.config.usdcIbcSymbol
        (rakeResponse st rake ustForRake).messages =
      (rake.map fun w => (rakeTransfer ustForRake w).amount).sum := by
  unfold rakeResponse
  split
  · exact sentTo_transfers st ustForRake _ fun w hw => List.mem_map_of_mem hw
  · -- there is no share of nothing
    rename_i hzero
    obtain rfl := not_not.mp hzero
    have hshare : ∀ w : WalletPercentage, (rakeTransfer 0 w).amount = 0 := by
      intro w
      have hle := rakeTransfer_le 0 w
      rw [share, Nat.zero_mul, Nat.zero_div] at hle
      exact Nat.le_zero.mp hle
    simp [sentTo, hshare]

/-- Percentages that sum to 100 at most leave the shares within the amount. -/
theorem sum_rakeTransfer_le (ustForRake : ℕ) (h : (rake.map (·.percentage)).sum ≤ 100) :
    (rake.map fun w => (rakeTransfer ustForRake w).amount).sum ≤ ustForRake :=
  calc (rake.map fun w => (rakeTransfer ustForRake w).amount).sum
      ≤ (rake.map fun w => share ustForRake w.percentage 100).sum :=
        List.sum_le_sum fun w _ => rakeTransfer_le ustForRake w
    _ ≤ ustForRake := sum_map_share_le h

end Shares

section Batches

variable {api : Api} {info : MessageInfo} {st st' : Storage} {r : Response Payload}

/-- **A final batch** that is accepted with some amount for the rake is accepted with any other. It
leaves the same state then, and emits the shares of that amount. -/
theorem gamePoolRewardDistribute_rake {poolId : String} {gameWinners : List GameResult}
    {ustForRake : ℕ} (h : gamePoolRewardDistribute info st poolId gameWinners true ustForRake =
      .ok (st', r)) :
    ∃ pool details, st.poolDetails[poolId]? = some pool ∧
      st.poolTypeDetails[pool.poolType]? = some details ∧
      ∀ u, gamePoolRewardDistribute info st poolId gameWinners true u =
        .ok (st', rakeResponse st details.rakeList u) := by
  obtain ⟨-, pool, details, -, -, -, -, hpool, hdetails, -, -, hany⟩ :=
    gamePoolRewardDistribute_parts h
  refine ⟨pool, details, hpool, hdetails, fun u => ?_⟩
  rw [hany u, rakeResponse]
  simp

/-- A final batch, as a call. -/
theorem exec_finalBatch {b : FinalBatch} {ustForRake : ℕ}
    (h : exec api st (b.call ustForRake) = some (st', r)) :
    ∃ pool details, st.poolDetails[b.poolId]? = some pool ∧
      st.poolTypeDetails[pool.poolType]? = some details ∧
      ∀ u, exec api st (b.call u) = some (st', rakeResponse st details.rakeList u) := by
  obtain ⟨pool, details, hpool, hdetails, hany⟩ :=
    gamePoolRewardDistribute_rake (toOption_eq_some.mp h)
  exact ⟨pool, details, hpool, hdetails, fun u => toOption_eq_some.mpr (hany u)⟩

/-- A type of pools is stored with the wallets that it is set with. -/
theorem setPoolTypeParams_rakeList {poolType : String} {fee min max maxGamer : ℕ}
    {rake : List WalletPercentage}
    (h : setPoolTypeParams info st poolType fee min max maxGamer rake = .ok (st', r)) :
    ∃ details, st'.poolTypeDetails[poolType]? = some details ∧ details.rakeList = rake := by
  unfold setPoolTypeParams at h
  obtain ⟨-, -, h⟩ := bind_eq_ok.mp h
  obtain ⟨-, h⟩ := refuseGeneric_bind_eq_ok.mp h
  cases pure_eq_ok.mp h
  exact ⟨_, Store.get_insert_self _ _ _, rfl⟩

end Batches

/-- A call sets a type of pools with some rake wallets, and is accepted. -/
structure SetsRake (api : Api) (poolType : String) (rake : List WalletPercentage) (st : Storage)
    (c : Call) : Prop where
  entry : ∃ info fee min max maxGamer,
    c.entry = .execute info (.setPoolTypeParams poolType fee min max maxGamer rake)
  accepted : (exec api st c).isSome

section Runs

variable {api : Api} {st : Storage} {c : Call} {poolType : String} {rake : List WalletPercentage}

/-- **In every run** the rake wallets of a type are those that it was set with. -/
theorem run_rakeList {before : List Call}
    (hset : SetsRake api poolType rake (run (exec api) st before) c) (after : List Call) :
    ∃ details,
      (run (exec api) st (before ++ c :: after)).poolTypeDetails[poolType]? = some details ∧
        details.rakeList = rake := by
  obtain ⟨info, fee, min, max, maxGamer, hentry⟩ := hset.entry
  obtain ⟨r, hexec⟩ := exists_commit hset.accepted
  have hexec' := hexec
  rw [exec, hentry] at hexec'
  obtain ⟨details, hdetails, hrake⟩ := setPoolTypeParams_rakeList (toOption_eq_some.mp hexec')
  refine ⟨details, ?_, hrake⟩
  rw [run_append, run_cons]
  -- a type that is stored is never overwritten
  exact run_preserves (I := fun s : Storage => s.poolTypeDetails[poolType]? = some details)
    (fun s c s' r hs hexec => (exec_effect hexec).poolTypeDetails hs) hdetails after

/-- **The rake is within the amount** set aside for it, whatever that is, if and only if the
percentages that the type of the pool was set with sum to 100 at most. -/
theorem rakeWithin_iff (api : Api) (st : Storage) (before : List Call) (c : Call)
    (poolType : String) (rake : List WalletPercentage)
    (hrange : ∀ w ∈ rake, w.percentage < Uint32.bound)
    (hset : SetsRake api poolType rake (run (exec api) st before) c) (after : List Call)
    (b : FinalBatch)
    (hpool : ((run (exec api) st (before ++ c :: after)).poolDetails[b.poolId]?).map
      (·.poolType) = some poolType)
    (haccepted : ∃ ustForRake,
      (exec api (run (exec api) st (before ++ c :: after)) (b.call ustForRake)).isSome) :
    RakeWithin api (run (exec api) st (before ++ c :: after)) b rake ↔
      (rake.map (·.percentage)).sum ≤ 100 := by
  obtain ⟨details, hdetails, hrake⟩ := run_rakeList hset after
  set s := run (exec api) st (before ++ c :: after)
  obtain ⟨u₀, ⟨s', r₀⟩, hexec₀⟩ := haccepted.imp fun _ => Option.isSome_iff_exists.mp
  obtain ⟨pool, details', hpool', hdetails', hany⟩ := exec_finalBatch hexec₀
  have hlist : details'.rakeList = rake := by
    rw [hpool', Option.map_some, Option.some.injEq] at hpool
    rw [hpool, hdetails, Option.some.injEq] at hdetails'
    rw [← hdetails', hrake]
  rw [hlist] at hany
  constructor
  · intro hwithin
    -- of an amount of 100 the wallets get their percentages
    have hsent := hwithin 100 (by decide) s' _ (hany 100)
    rw [sentTo_rakeResponse, List.map_congr_left fun w hw => rakeTransfer_hundred (hrange w hw)]
      at hsent
    exact hsent
  · intro hsum u hu st' r hexec
    rw [hany u, Option.some.injEq, Prod.mk.injEq] at hexec
    rw [← hexec.2, sentTo_rakeResponse]
    exact sum_rakeTransfer_le u hsum

end Runs

namespace Sample

/-- A type of pools with two rake wallets, of the same percentage. -/
def twoWallets (percentage : ℕ) : List WalletPercentage :=
  [⟨"rake_1", "rake_1", percentage⟩, ⟨"rake_2", "rake_2", percentage⟩]

def setRake (percentage : ℕ) : Call :=
  call "admin" 0 (.setPoolTypeParams "duel" 10000 2 10 5 (twoWallets percentage))

/-- The final batch of the first pool. -/
def lastBatch : FinalBatch :=
  ⟨querier, ⟨⟨1, 1⟩, "gaming"⟩, ⟨"admin", []⟩, "1", [], "game"⟩

theorem setsRake_sample (percentage : ℕ) (h : (exec api storage (setRake percentage)).isSome) :
    SetsRake api "duel" (twoWallets percentage) (run (exec api) storage []) (setRake percentage) :=
  ⟨⟨_, _, _, _, _, rfl⟩, h⟩

end Sample

open Sample in
/-- Two wallets of 50 per cent share the amount. -/
theorem rakeWithin_halves :
    RakeWithin api (run (exec api) storage ([] ++ setRake 50 :: [create "duel", lock])) lastBatch
      (twoWallets 50) :=
  (rakeWithin_iff api storage [] (setRake 50) "duel" (twoWallets 50) (by decide)
    (setsRake_sample 50 (by decide +kernel)) [create "duel", lock] lastBatch (by decide +kernel)
    ⟨100, by decide +kernel⟩).mpr (by decide)

open Sample in
/-- **Two wallets of 60 per cent** are sent 120 of an amount of 100. -/
theorem not_rakeWithin :
    ¬ ∀ (api : Api) (st : Storage), Initial api st → ∀ (before : List Call) (c : Call)
      (poolType : String) (rake : List WalletPercentage),
      (∀ w ∈ rake, w.percentage < Uint32.bound) →
      SetsRake api poolType rake (run (exec api) st before) c → ∀ (after : List Call)
      (b : FinalBatch),
      ((run (exec api) st (before ++ c :: after)).poolDetails[b.poolId]?).map (·.poolType) =
        some poolType →
      RakeWithin api (run (exec api) st (before ++ c :: after)) b rake := by
  intro h
  have hwithin := h api storage initial [] (setRake 60) "duel" (twoWallets 60) (by decide)
    (setsRake_sample 60 (by decide +kernel)) [create "duel", lock] lastBatch (by decide +kernel)
  have hsent : (exec api (run (exec api) storage ([] ++ setRake 60 :: [create "duel", lock]))
      (lastBatch.call 100)).map (fun x => sentTo ["rake_1", "rake_2"] "uusd" x.2.messages) =
        some 120 := by
    decide +kernel
  obtain ⟨⟨st', r⟩, hexec, hr⟩ := Option.map_eq_some_iff.mp hsent
  have hle : sentTo ["rake_1", "rake_2"] "uusd" r.messages ≤ 100 :=
    hwithin 100 (by decide) st' r hexec
  rw [hr] at hle
  exact absurd hle (by decide)

end Gamingpool
