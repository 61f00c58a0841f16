import LiquidityContracts.Accounting.Lots
import LiquidityContracts.Staking.Maturity

/-!
# Immediate withdrawals

An immediate withdrawal is paid by the mature bonds of the staker on the club. The contract lists
the bonds latest first and draws the amount from the mature ones, so that it pays when these hold
the amount, and at most one of them is reduced. The stake, and the total of the club, stay as they
are.

## Main definitions

* `bondLots env`: bonds, of which the mature ones are drawn from
* `Withdrawable`: the withdrawal is of a stake that there is, by its staker, with its fees
* `PaidFrom`: what a payment does to the bonds

## Main results

* `foldlM_unbond_draws`: the loop draws from the mature bonds what they hold, up to the amount
* `withdrawImmediately_iff`: when an immediate withdrawal succeeds, and what it does
-/

namespace Clubstaking

open CosmWasm Accounting

/-- A bond is mature when it was made longer ago than it lasts. -/
def ClubBondingDetails.matured (env : Env) (b : ClubBondingDetails) : Bool :=
  b.bondingStartTimestamp < env.block.time - b.bondingDuration * Timestamp.nanosPerSecond

/-- The bonds of a staker, of which the mature ones are drawn from. -/
def bondLots (env : Env) : Lots ClubBondingDetails where
  amount := (·.bondedAmount)
  isOpen := (·.matured env)
  reduce x b := { b with bondedAmount := b.bondedAmount - x }
  reduce_zero _ := rfl
  amount_reduce _ _ := rfl
  isOpen_reduce _ _ := rfl

/-- What the mature ones among the bonds hold. -/
def maturedAmount (env : Env) (bonds : List ClubBondingDetails) : ℕ :=
  (bondLots env).holding ((bondLots env).opened bonds)

/-- What a payment of `w` does to the bonds: latest first, the mature ones are used up, the last
one of them in part; those that are not mature stay. -/
structure PaidFrom (env : Env) (bonds kept : List ClubBondingDetails) (w : ℕ) : Prop where
  latestFirst : ∃ sorted, sorted.Perm bonds ∧
    sorted.Pairwise (fun a b => b.bondingStartTimestamp.seconds ≤ a.bondingStartTimestamp.seconds) ∧
      (bondLots env).Draws sorted kept w
  unmatured : ((bondLots env).closed kept).Perm ((bondLots env).closed bonds)
  holding : (bondLots env).holding kept + w = (bondLots env).holding bonds

/-- An immediate withdrawal of `w` by the staker, of a stake on a club that there is, with the fees;
the bonds of the staker are all made by the staker, and last no longer than the chain. -/
structure Withdrawable (api : Api) (q : Querier) (env : Env) (info : MessageInfo) (st : Storage)
    (staker clubName : String) (w : ℕ) : Prop where
  time : env.block.time < Uint64.bound
  amount : w < Uint128.bound
  valid : api staker = .ok staker
  sender : info.sender = staker
  fees : checkFees q st info feeFreeStakers (.stakeWithdrawFromAClub staker clubName w true) =
    .ok ()
  club : (st.ownership[clubName]?).isSome = true
  staked : ∃ stakes, st.staking[(clubName, staker)]? = some stakes ∧
    ∃ stake ∈ stakes, stake.stakerAddress = staker
  bonder : ∀ b ∈ st.bonds clubName staker, b.bonderAddress = staker
  duration : ∀ b ∈ st.bonds clubName staker, b.bondingDuration ≤ env.block.time.seconds

/-! ## The loop over the bonds -/

section Loop

variable {env : Env} {s : Addr} {acc : Unbonding} {bond : ClubBondingDetails}
  {bonds : List ClubBondingDetails}

variable (ht : env.block.time < Uint64.bound) (hb : bond.bonderAddress = s)
  (hd : bond.bondingDuration ≤ env.block.time.seconds)

include ht hb hd

/-- A round on a bond of the staker compares the start of the bond. -/
theorem unbond_eq : unbond env s acc bond =
    if bond.matured env = false ∨ acc.amountRemaining = 0 then
      .ok { acc with updatedBonds := acc.updatedBonds ++ [bond] }
    else if acc.amountRemaining < bond.bondedAmount then do
      let unbonded ← Uint128.add acc.unbondedAmount acc.amountRemaining
      let left ← Uint128.sub bond.bondedAmount acc.amountRemaining
      return ⟨unbonded, 0, acc.updatedBonds ++ [{ bond with bondedAmount := left }]⟩
    else do
      let unbonded ← Uint128.add acc.unbondedAmount bond.bondedAmount
      let remaining ← Uint128.sub acc.amountRemaining bond.bondedAmount
      return ⟨unbonded, remaining, acc.updatedBonds⟩ := by
  have hmatured : bond.matured env = false ↔
      env.block.time - bond.bondingDuration * Timestamp.nanosPerSecond ≤
        bond.bondingStartTimestamp := by
    rw [ClubBondingDetails.matured, decide_eq_false_iff_not, not_lt]
  -- the duration is within the block time, so that the difference does not wrap around
  have hlasted : bond.bondingDuration * Timestamp.nanosPerSecond ≤ env.block.time :=
    (Nat.le_div_iff_mul_le Timestamp.nanosPerSecond_pos).mp hd
  unfold unbond
  dsimp only
  rw [if_neg (not_not.mpr hb.symm), Timestamp.minusSeconds_of_le ht hlasted]
  exact if_congr (or_congr_left hmatured.symm) rfl rfl

/-- A bond that is not mature is kept, and so is one after the amount is paid. -/
theorem unbond_keep (h : bond.matured env = false ∨ acc.amountRemaining = 0) :
    unbond env s acc bond = .ok { acc with updatedBonds := acc.updatedBonds ++ [bond] } := by
  rw [unbond_eq ht hb hd, if_pos h]

/-- A mature bond that holds more than what is left to pay is reduced by that. -/
theorem unbond_part (hbound : acc.unbondedAmount + acc.amountRemaining < Uint128.bound)
    (hmatured : bond.matured env = true) (hleft : acc.amountRemaining ≠ 0)
    (h : acc.amountRemaining < bond.bondedAmount) :
    unbond env s acc bond = .ok ⟨acc.unbondedAmount + acc.amountRemaining, 0,
      acc.updatedBonds ++ [(bondLots env).reduce acc.amountRemaining bond]⟩ := by
  rw [unbond_eq ht hb hd, if_neg (by simp [hmatured, hleft]), if_pos h,
    bind_of_eq_ok (Uint128.add_eq_ok.mpr ⟨hbound, rfl⟩),
    bind_of_eq_ok (Uint128.sub_eq_ok.mpr ⟨h.le, rfl⟩)]
  rfl

/-- A mature bond that holds no more than what is left to pay is used up. -/
theorem unbond_whole (hbound : acc.unbondedAmount + acc.amountRemaining < Uint128.bound)
    (hmatured : bond.matured env = true) (hleft : acc.amountRemaining ≠ 0)
    (h : bond.bondedAmount ≤ acc.amountRemaining) :
    unbond env s acc bond = .ok ⟨acc.unbondedAmount + bond.bondedAmount,
      acc.amountRemaining - bond.bondedAmount, acc.updatedBonds⟩ := by
  have hsum : acc.unbondedAmount + bond.bondedAmount < Uint128.bound :=
    (Nat.add_le_add_left h _).trans_lt hbound
  rw [unbond_eq ht hb hd, if_neg (by simp [hmatured, hleft]), if_neg (not_lt.mpr h),
    bind_of_eq_ok (Uint128.add_eq_ok.mpr ⟨hsum, rfl⟩),
    bind_of_eq_ok (Uint128.sub_eq_ok.mpr ⟨h, rfl⟩)]
  rfl

omit hb hd

/-- After the amount is paid all bonds are kept. -/
theorem foldlM_unbond_paid (acc : Unbonding) (hbonds : ∀ b ∈ bonds, b.bonderAddress = s)
    (hdurations : ∀ b ∈ bonds, b.bondingDuration ≤ env.block.time.seconds)
    (hpaid : acc.amountRemaining = 0) :
    bonds.foldlM (unbond env s) acc = .ok { acc with updatedBonds := acc.updatedBonds ++ bonds } := by
  induction bonds generalizing acc with
  | nil =>
    rw [List.append_nil]
    rfl
  | cons bond bonds ih =>
    obtain ⟨hb, hbonds⟩ := List.forall_mem_cons.mp hbonds
    obtain ⟨hd, hdurations⟩ := List.forall_mem_cons.mp hdurations
    rw [List.foldlM_cons, bind_of_eq_ok (unbond_keep ht hb hd (.inr hpaid)),
      ih { acc with updatedBonds := acc.updatedBonds ++ [bond] } hbonds hdurations hpaid,
      List.append_assoc]
    rfl

/-- **The loop** draws from the mature bonds what they hold, up to the amount. -/
theorem foldlM_unbond_draws (acc : Unbonding) (hbonds : ∀ b ∈ bonds, b.bonderAddress = s)
    (hdurations : ∀ b ∈ bonds, b.bondingDuration ≤ env.block.time.seconds)
    (hbound : acc.unbondedAmount + acc.amountRemaining < Uint128.bound) :
    ∃ kept paid, bonds.foldlM (unbond env s) acc = .ok ⟨acc.unbondedAmount + paid,
        acc.amountRemaining - paid, acc.updatedBonds ++ kept⟩ ∧
      (bondLots env).Draws bonds kept paid ∧
        paid = min acc.amountRemaining (maturedAmount env bonds) := by
  induction bonds generalizing acc with
  | nil =>
    refine ⟨[], 0, ?_, .stop [], (Nat.min_zero _).symm⟩
    rw [List.append_nil]
    rfl
  | cons bond bonds ih =>
    have hall := hbonds
    have hpast := hdurations
    obtain ⟨hb, hbonds⟩ := List.forall_mem_cons.mp hbonds
    obtain ⟨hd, hdurations⟩ := List.forall_mem_cons.mp hdurations
    by_cases hleft : acc.amountRemaining = 0
    · refine ⟨bond :: bonds, 0, ?_, .stop _, by rw [hleft, Nat.zero_min]⟩
      rw [foldlM_unbond_paid ht acc hall hpast hleft]
      rfl
    rw [List.foldlM_cons]
    cases hmatured : bond.matured env with
    | false =>
      obtain ⟨kept, paid, hrest, hdraws, hpaid⟩ := ih
        { acc with updatedBonds := acc.updatedBonds ++ [bond] } hbonds hdurations hbound
      refine ⟨bond :: kept, paid, ?_, hdraws.skip hmatured, ?_⟩
      · rw [bind_of_eq_ok (unbond_keep ht hb hd (.inl hmatured)), hrest, List.append_assoc]
        rfl
      · rw [hpaid, maturedAmount, maturedAmount, (bondLots env).opened_cons_of_closed hmatured]
    | true =>
      have hheld : maturedAmount env (bond :: bonds) =
          bond.bondedAmount + maturedAmount env bonds := by
        rw [maturedAmount, (bondLots env).opened_cons_of_open hmatured, Lots.holding_cons]
        rfl
      rcases lt_or_ge acc.amountRemaining bond.bondedAmount with hlt | hle
      -- the bond pays all that is left, and the later ones are kept
      · refine ⟨(bondLots env).reduce acc.amountRemaining bond :: bonds, acc.amountRemaining, ?_,
          .part hmatured hlt bonds, by rw [hheld]; omega⟩
        rw [bind_of_eq_ok (unbond_part ht hb hd hbound hmatured hleft hlt),
          foldlM_unbond_paid ht _ hbonds hdurations rfl, List.append_assoc, Nat.sub_self]
        rfl
      -- the bond is used up, and the later ones pay the rest
      · obtain ⟨kept, paid, hrest, hdraws, hpaid⟩ := ih ⟨acc.unbondedAmount + bond.bondedAmount,
          acc.amountRemaining - bond.bondedAmount, acc.updatedBonds⟩ hbonds hdurations
            (by dsimp only; omega)
        refine ⟨kept, bond.bondedAmount + paid, ?_, hdraws.whole hmatured, ?_⟩
        · rw [bind_of_eq_ok (unbond_whole ht hb hd hbound hmatured hleft hle), hrest,
            Nat.add_assoc, Nat.sub_sub]
        · rw [hpaid, hheld]
          dsimp only
          omega

end Loop

/-! ## The withdrawal -/

section Withdrawal

variable {api : Api} {q : Querier} {env : Env} {info : MessageInfo} {st st' : Storage}
  {r : Response Cw20.ExecuteMsg} {staker clubName : String} {w : ℕ}

/-- A stake that is decreased by nothing is saved as it was. -/
theorem saveStakingDetails_zero {stakes : List ClubStakingDetails} {owner : ClubOwnershipDetails}
    (hstakes : st.staking[(clubName, staker)]? = some stakes)
    (howner : st.ownership[clubName]? = some owner) :
    saveStakingDetails st env staker clubName 0 false false = .ok st := by
  have hupdate : updateStake staker 0 false false = fun stake => .ok stake := by
    funext stake
    unfold updateStake
    split
    · rfl
    · rfl
  have hmap : stakes.mapM (updateStake staker 0 false false) = .ok stakes := by
    rw [hupdate]
    exact (List.mapM_pure (f := id)).trans (congrArg Except.ok (List.map_id _))
  have hsame : st.stakes clubName staker = stakes := stakes_of_get hstakes
  unfold saveStakingDetails
  rw [hsame]
  dsimp only
  rw [bind_of_eq_ok hmap, bind_of_eq_ok (load_eq_ok.mpr howner)]
  have hstaking : (if stakes.any fun stake => stake.stakerAddress = staker then
      st.staking.insert (clubName, staker) stakes else st.staking) = st.staking := by
    rw [Store.insert_eq_self hstakes, ite_self]
  have hownership : st.ownership.insert clubName
      { owner with totalStakedAmount := owner.totalStakedAmount - 0 } = st.ownership :=
    Store.insert_eq_self howner
  show Except.ok { st with
    staking := if stakes.any fun stake => stake.stakerAddress = staker then
      st.staking.insert (clubName, staker) stakes else st.staking
    ownership := st.ownership.insert clubName
      { owner with totalStakedAmount := owner.totalStakedAmount - 0 } } = .ok st
  rw [hstaking, hownership]

/-- The checks of the withdrawal pass. -/
theorem Withdrawable.eq (h : Withdrawable api q env info st staker clubName w) :
    withdrawStakeFromAClub api q env info st staker clubName w true =
      withdrawImmediately env info st staker staker clubName w := by
  obtain ⟨stakes, hstakes, hstaked⟩ := h.staked
  have hsame : st.stakes clubName staker = stakes := stakes_of_get hstakes
  unfold withdrawStakeFromAClub
  rw [bind_of_eq_ok (validate_eq_ok.mpr h.valid),
    refuse_bind_of_not (not_not.mpr h.sender.symm), bind_of_eq_ok h.fees,
    refuseGeneric_bind_of_not (by simp [hstakes]),
    refuseGeneric_bind_of_not (not_not.mpr (hsame ▸ hstaked)),
    refuseGeneric_bind_of_not (Option.isSome_iff_ne_none.mp h.club)]
  rfl

/-- The bonds, latest first, by whole seconds. -/
def newestFirst (bonds : List ClubBondingDetails) : List ClubBondingDetails :=
  bonds.insertionSort fun a b => b.bondingStartTimestamp.seconds ≤ a.bondingStartTimestamp.seconds

theorem newestFirst_perm (bonds : List ClubBondingDetails) : (newestFirst bonds).Perm bonds :=
  List.perm_insertionSort _ _

theorem newestFirst_sorted (bonds : List ClubBondingDetails) : (newestFirst bonds).Pairwise
    fun a b => b.bondingStartTimestamp.seconds ≤ a.bondingStartTimestamp.seconds := by
  have : Std.Total fun a b : ClubBondingDetails =>
      b.bondingStartTimestamp.seconds ≤ a.bondingStartTimestamp.seconds := ⟨fun _ _ => le_total _ _⟩
  have : IsTrans ClubBondingDetails fun a b =>
      b.bondingStartTimestamp.seconds ≤ a.bondingStartTimestamp.seconds :=
    ⟨fun _ _ _ hab hbc => hbc.trans hab⟩
  exact List.pairwise_insertionSort _ _

theorem maturedAmount_newestFirst (bonds : List ClubBondingDetails) :
    maturedAmount env (newestFirst bonds) = maturedAmount env bonds :=
  (bondLots env).holding_perm ((newestFirst_perm bonds).filter _)

/-- What is drawn from the bonds latest first is paid from them. -/
theorem paidFrom_of_draws {bonds kept : List ClubBondingDetails}
    (h : (bondLots env).Draws (newestFirst bonds) kept w) : PaidFrom env bonds kept w where
  latestFirst := ⟨newestFirst bonds, newestFirst_perm bonds, newestFirst_sorted bonds, h⟩
  unmatured := h.closed ▸ (newestFirst_perm bonds).filter _
  holding := h.holding_add.trans ((bondLots env).holding_perm (newestFirst_perm bonds))

/-- A withdrawal that its bonds pay saves what is left of them, and nothing else. -/
theorem withdrawImmediately_eq {acc : Unbonding} (h : Withdrawable api q env info st staker clubName w)
    (hloop : (newestFirst (st.bonds clubName staker)).foldlM (unbond env staker)
      { amountRemaining := w } = .ok acc) (hpaid : acc.unbondedAmount = w) :
    withdrawImmediately env info st staker staker clubName w =
      .ok ({ st with bonding := st.bonding.insert (clubName, staker) acc.updatedBonds },
        { messages := [transferMsg st staker w, feesMsg st info] }) := by
  obtain ⟨stakes, hstakes, -⟩ := h.staked
  obtain ⟨owner, howner⟩ := Option.isSome_iff_exists.mp h.club
  have hsaved : saveStakingDetails
      { st with bonding := st.bonding.insert (clubName, staker) acc.updatedBonds } env staker
        clubName 0 false false =
      .ok { st with bonding := st.bonding.insert (clubName, staker) acc.updatedBonds } :=
    saveStakingDetails_zero hstakes howner
  unfold newestFirst at hloop
  unfold withdrawImmediately
  dsimp only
  rw [bind_of_eq_ok hloop, hpaid, bind_of_eq_ok (Uint128.sub_eq_ok.mpr ⟨le_rfl, rfl⟩), Nat.sub_self,
    bind_of_eq_ok hsaved, refuseGeneric_bind_of_not (lt_irrefl w)]
  rfl

end Withdrawal

/-- **An immediate withdrawal is exact.** It succeeds when the mature bonds hold the amount; then it
transfers the amount, saves the bonds that have paid it, and leaves the stake and the total of the
club as they are. -/
theorem withdrawImmediately_iff (api : Api) (q : Querier) (env : Env) (info : MessageInfo)
    (st : Storage) (staker clubName : String) (w : ℕ)
    (h : Withdrawable api q env info st staker clubName w) :
    ((∃ st' r, withdrawStakeFromAClub api q env info st staker clubName w true = .ok (st', r)) ↔
        w ≤ maturedAmount env (st.bonds clubName staker)) ∧
      ∀ st' r, withdrawStakeFromAClub api q env info st staker clubName w true = .ok (st', r) →
        r.messages = [transferMsg st staker w, feesMsg st info] ∧
          ∃ kept, st' = { st with bonding := st.bonding.insert (clubName, staker) kept } ∧
            PaidFrom env (st.bonds clubName staker) kept w := by
  have hperm := newestFirst_perm (st.bonds clubName staker)
  obtain ⟨kept, paid, hloop, hdraws, hpaid⟩ := foldlM_unbond_draws h.time { amountRemaining := w }
    (fun b hb => h.bonder b (hperm.mem_iff.mp hb)) (fun b hb => h.duration b (hperm.mem_iff.mp hb))
      (by simpa using h.amount)
  rw [maturedAmount_newestFirst] at hpaid
  dsimp only at hloop hpaid
  rw [h.eq]
  -- a withdrawal that succeeds is paid in full
  have hfull : ∀ st' r, withdrawImmediately env info st staker staker clubName w = .ok (st', r) →
      paid = w := by
    intro st' r hok
    obtain ⟨acc, hloop', hunbonded, -, -⟩ := withdrawImmediately_spec hok
    cases hloop.symm.trans hloop'
    rwa [Nat.zero_add] at hunbonded
  have hsucceeds (hw : paid = w) := withdrawImmediately_eq h hloop ((Nat.zero_add paid).trans hw)
  refine ⟨⟨?_, fun hle => ?_⟩, fun st' r hok => ?_⟩
  · rintro ⟨st', r, hok⟩
    exact (hfull st' r hok).symm.trans_le (hpaid.trans_le (min_le_right _ _))
  · exact ⟨_, _, hsucceeds (hpaid.trans (min_eq_left hle))⟩
  · have hw := hfull st' r hok
    cases (hsucceeds hw).symm.trans hok
    exact ⟨rfl, kept, rfl, paidFrom_of_draws (hw ▸ hdraws)⟩

namespace Sample

/-- A staker with three bonds: two are mature in the twentieth second, and one is not. -/
def threeBonds : Storage :=
  { storage with
    ownership := (∅ : Store String ClubOwnershipDetails).insert "ants"
      { clubName := "ants", startTimestamp := second 1, lockingPeriod := 21,
        ownerAddress := "owner", pricePaid := 1000, rewardAmount := 0, ownerReleased := false,
        totalStakedAmount := 500 }
    staking := (∅ : Store (String × String) (List ClubStakingDetails)).insert ("ants", "staker001")
      [newStake ⟨⟨1, second 2⟩, "staking"⟩ "staker001" "ants" 500 false]
    bonding := (∅ : Store (String × String) (List ClubBondingDetails)).insert ("ants", "staker001")
      [⟨"ants", "staker001", second 5, 60, 7⟩, ⟨"ants", "staker001", second 10, 40, 7⟩,
        ⟨"ants", "staker001", second 15, 30, 7⟩] }

end Sample

open Sample in
/-- The mature bonds hold a hundred, which pays seventy. -/
theorem withdrawImmediately_sample : ∃ st' r, withdrawStakeFromAClub api querier
    ⟨⟨1, second 20⟩, "staking"⟩ ⟨"staker001", []⟩ threeBonds "staker001" "ants" 70 true =
      .ok (st', r) :=
  (withdrawImmediately_iff api querier ⟨⟨1, second 20⟩, "staking"⟩ ⟨"staker001", []⟩ threeBonds
    "staker001" "ants" 70
    { time := by decide +kernel
      amount := by decide +kernel
      valid := rfl
      sender := rfl
      fees := by decide +kernel
      club := by decide +kernel
      staked := ⟨_, rfl, _, List.mem_singleton.mpr rfl, rfl⟩
      bonder := by decide +kernel
      duration := by decide +kernel }).1.mpr (by decide +kernel)

end Clubstaking
