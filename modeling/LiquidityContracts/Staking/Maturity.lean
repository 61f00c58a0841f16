import LiquidityContracts.Staking.Claims
import LiquidityContracts.Staking.Items

/-!
# The maturity of the bonds

A stake is withdrawn in two steps: it becomes a bond, and the bond is paid when it is mature. A
payment goes through the bonds of the staker, latest first, uses the mature ones up to its amount
and keeps the rest, so that what a payment takes from the bonds that mature by some time is no less
than what it pays by that time. A bond is mature when it was made before the block less the duration
of the bond, and with a duration that is longer than the chain has lasted that difference wraps
around: then every bond is paid at once.

## Main definitions

* `bondedOf`: what the bonds of some maturity hold
* `paidFromBonds`, `bonded`: what a call pays to a staker, and what it moves into a bond
* `PaysInTime`: a payment is made when the chain has lasted for the duration of the bonds

## Main results

* `foldlM_unbond`: what the loop takes from the bonds is what it pays
* `exec_matureAt`: every accepted message in time keeps the law of the bonds
* `paidFromBonds_le_bonded_iff`: what is paid by some time was bonded long enough before it, in
  exactly the runs that pay in time
* `not_paidFromBonds_le_bonded`: a bond for a hundred years that is paid after a second
-/

namespace Clubstaking

open CosmWasm

/-- The time after which a bond is mature. -/
def ClubBondingDetails.maturity (b : ClubBondingDetails) : Timestamp :=
  b.bondingStartTimestamp + b.bondingDuration * Timestamp.nanosPerSecond

/-- The test of a payment: the bond was made before the block less the duration. -/
def ClubBondingDetails.Past (env : Env) (b : ClubBondingDetails) : Prop :=
  b.bondingStartTimestamp < Timestamp.minusSeconds env.block.time b.bondingDuration

/-- A bond as it is filed, whatever it holds. -/
def ClubBondingDetails.filing (b : ClubBondingDetails) : ClubBondingDetails :=
  { b with bondedAmount := 0 }

/-- What the bonds with a maturity in `p` hold. -/
def bondedOf (p : Timestamp → Bool) (bonds : List ClubBondingDetails) : ℕ :=
  ((bonds.filter fun b => p b.maturity).map (·.bondedAmount)).sum

/-! ## The loop over the bonds -/

section Loop

variable {p : Timestamp → Bool} {env : Env} {stakerAddr : Addr} {acc acc' : Unbonding}
  {bond : ClubBondingDetails} {bonds : List ClubBondingDetails}

/-- Where the chain has lasted for the duration, the bonds that pass the test are mature. -/
theorem ClubBondingDetails.Past.mature (h : bond.Past env)
    (hlasted : bond.bondingDuration * Timestamp.nanosPerSecond ≤ env.block.time) :
    bond.maturity < env.block.time :=
  Nat.add_lt_of_lt_sub (h.trans_le (Timestamp.minusSeconds_le hlasted))

@[simp] theorem bondedOf_nil (p : Timestamp → Bool) : bondedOf p [] = 0 := rfl

@[simp] theorem bondedOf_append (p : Timestamp → Bool) (bonds bonds' : List ClubBondingDetails) :
    bondedOf p (bonds ++ bonds') = bondedOf p bonds + bondedOf p bonds' := by
  simp [bondedOf]

theorem bondedOf_cons (p : Timestamp → Bool) (b : ClubBondingDetails)
    (bonds : List ClubBondingDetails) : bondedOf p (b :: bonds) = bondedOf p [b] + bondedOf p bonds :=
  bondedOf_append p [b] bonds

theorem bondedOf_singleton (p : Timestamp → Bool) (b : ClubBondingDetails) :
    bondedOf p [b] = if p b.maturity then b.bondedAmount else 0 := by
  cases h : p b.maturity with
  | true => simp [bondedOf, h]
  | false => simp [bondedOf, h]

theorem bondedOf_perm {bonds' : List ClubBondingDetails} (h : bonds.Perm bonds') :
    bondedOf p bonds = bondedOf p bonds' :=
  ((h.filter _).map _).sum_eq

/-- What a round of the loop does: it uses a part of the bond, of one that passes the test alone, and
keeps the rest of it. -/
structure Unbonds (env : Env) (acc acc' : Unbonding) (bond : ClubBondingDetails) (used : ℕ) :
    Prop where
  le : used ≤ bond.bondedAmount
  past : 0 < used → bond.Past env
  unbonded : acc'.unbondedAmount = acc.unbondedAmount + used
  kept : acc'.updatedBonds =
      acc.updatedBonds ++ [{ bond with bondedAmount := bond.bondedAmount - used }] ∨
    used = bond.bondedAmount ∧ acc'.updatedBonds = acc.updatedBonds

theorem unbond_spec (h : unbond env stakerAddr acc bond = .ok acc') :
    ∃ used, Unbonds env acc acc' bond used := by
  have hkeep : ∀ acc', acc' = { acc with updatedBonds := acc.updatedBonds ++ [bond] } →
      Unbonds env acc acc' bond 0 := by
    rintro acc' rfl
    exact ⟨Nat.zero_le _, fun h0 => absurd h0 (lt_irrefl 0), rfl, .inl rfl⟩
  unfold unbond at h
  dsimp only at h
  split at h
  · exact ⟨0, hkeep _ (pure_eq_ok.mp h).symm⟩
  · split at h
    · exact ⟨0, hkeep _ (pure_eq_ok.mp h).symm⟩
    -- the bond is past its duration, which the code tests by going back from now
    · rename_i hready
      have hpast : bond.Past env := not_le.mp fun hle => hready (.inl hle)
      split at h
      -- the bond is more than what is left to pay: a part of it is kept
      · rename_i hlt
        obtain ⟨unbonded, hunbonded, h⟩ := bind_eq_ok.mp h
        obtain ⟨left, hleft, h⟩ := bind_eq_ok.mp h
        obtain ⟨-, rfl⟩ := Uint128.add_eq_ok.mp hunbonded
        obtain ⟨hle, rfl⟩ := Uint128.sub_eq_ok.mp hleft
        obtain rfl := pure_eq_ok.mp h
        exact ⟨acc.amountRemaining, hle, fun _ => hpast, rfl, .inl rfl⟩
      · obtain ⟨unbonded, hunbonded, h⟩ := bind_eq_ok.mp h
        obtain ⟨remaining, -, h⟩ := bind_eq_ok.mp h
        obtain ⟨-, rfl⟩ := Uint128.add_eq_ok.mp hunbonded
        obtain rfl := pure_eq_ok.mp h
        exact ⟨bond.bondedAmount, le_rfl, fun _ => hpast, rfl, .inr ⟨rfl, rfl⟩⟩

/-- The bonds that a round keeps hold what they held, and the bond less what is used of it. -/
theorem Unbonds.bondedOf_eq {used : ℕ} (h : Unbonds env acc acc' bond used) :
    bondedOf p acc'.updatedBonds =
      bondedOf p acc.updatedBonds + if p bond.maturity then bond.bondedAmount - used else 0 := by
  rcases h.kept with hkept | ⟨hused, hkept⟩
  · rw [hkept, bondedOf_append, bondedOf_singleton]
    rfl
  · rw [hkept, hused, Nat.sub_self, ite_self, Nat.add_zero]

/-- A round keeps the bond as it is filed, or drops it. -/
theorem Unbonds.filed {used : ℕ} (h : Unbonds env acc acc' bond used)
    (rest : List ClubBondingDetails) :
    ((acc'.updatedBonds ++ rest).map ClubBondingDetails.filing).Sublist
      ((acc.updatedBonds ++ bond :: rest).map ClubBondingDetails.filing) := by
  rcases h.kept with hkept | ⟨-, hkept⟩
  · rw [hkept, List.append_assoc]
    simp [ClubBondingDetails.filing]
  · rw [hkept]
    apply List.Sublist.map
    exact (List.sublist_cons_self bond rest).append_left _

/-- **A payment from bonds** keeps some of them, each filed as it was. -/
theorem foldlM_unbond_filed (h : bonds.foldlM (unbond env stakerAddr) acc = .ok acc') :
    (acc'.updatedBonds.map ClubBondingDetails.filing).Sublist
      ((acc.updatedBonds ++ bonds).map ClubBondingDetails.filing) := by
  induction bonds generalizing acc with
  | nil =>
    cases h
    rw [List.append_nil]
  | cons bond bonds ih =>
    rw [List.foldlM_cons] at h
    obtain ⟨acc₁, hround, h⟩ := bind_eq_ok.mp h
    obtain ⟨used, hunbonds⟩ := unbond_spec hround
    exact (ih h).trans (hunbonds.filed bonds)

/-- **What the loop takes from the bonds** is what it pays, as far as the bonds that pass the test are
among those that are counted. -/
theorem foldlM_unbond (h : bonds.foldlM (unbond env stakerAddr) acc = .ok acc') :
    bondedOf p acc'.updatedBonds ≤ bondedOf p acc.updatedBonds + bondedOf p bonds ∧
      ((∀ b ∈ bonds, b.Past env → p b.maturity = true) →
        acc'.unbondedAmount + bondedOf p acc'.updatedBonds =
          acc.unbondedAmount + bondedOf p acc.updatedBonds + bondedOf p bonds) := by
  induction bonds generalizing acc with
  | nil =>
    cases h
    exact ⟨le_rfl, fun _ => rfl⟩
  | cons bond bonds ih =>
    rw [List.foldlM_cons] at h
    obtain ⟨acc₁, hround, h⟩ := bind_eq_ok.mp h
    obtain ⟨used, hunbonds⟩ := unbond_spec hround
    obtain ⟨hle, heq⟩ := ih h
    have hround := hunbonds.bondedOf_eq (p := p)
    have hused := hunbonds.le
    rw [bondedOf_cons, bondedOf_singleton]
    by_cases hcounted : p bond.maturity = true
    · rw [if_pos hcounted] at hround ⊢
      refine ⟨by omega, fun hp => ?_⟩
      have heq := heq fun b hb => hp b (List.mem_cons_of_mem bond hb)
      rw [hunbonds.unbonded] at heq
      omega
    · rw [if_neg hcounted] at hround ⊢
      refine ⟨by omega, fun hp => ?_⟩
      have heq := heq fun b hb => hp b (List.mem_cons_of_mem bond hb)
      rw [hunbonds.unbonded] at heq
      -- a bond that is not counted does not pass the test, and nothing is used of it
      have hzero : used = 0 := by
        by_contra hne
        exact hcounted (hp bond List.mem_cons_self (hunbonds.past (Nat.pos_of_ne_zero hne)))
      omega

end Loop

/-! ## The withdrawals -/

section Handlers

variable {api : Api} {q : Querier} {env : Env} {info : MessageInfo} {st st' : Storage}
  {r : Response Cw20.ExecuteMsg} {c s : String} {a : ℕ} {immediate : Bool} {stakerAddr : Addr}

/-- What a withdrawal does to the bonds under its key: an immediate one takes its amount from bonds
that pass the test and transfers it, another adds a bond. -/
inductive Withdraws (env : Env) (info : MessageInfo) (st st' : Storage) (c s : String) (a : ℕ)
    (r : Response Cw20.ExecuteMsg) : Bool → Prop
  | pays (kept : List ClubBondingDetails)
      (hst : st'.bonding = st.bonding.insert (c, s) kept)
      (hfiled : (kept.map ClubBondingDetails.filing).Subperm
        ((st.bonds c s).map ClubBondingDetails.filing))
      (hle : ∀ p, bondedOf p kept ≤ bondedOf p (st.bonds c s))
      (hpaid : ∀ p : Timestamp → Bool, (∀ b ∈ st.bonds c s, b.Past env → p b.maturity = true) →
        a + bondedOf p kept = bondedOf p (st.bonds c s))
      (hr : r.messages = [transferMsg st s a, feesMsg st info]) :
    Withdraws env info st st' c s a r true
  | bonds (hst : st'.bonding = st.bonding.insert (c, s) (st.bonds c s ++
        [⟨c, s, env.block.time, a, st.config.bondingDuration⟩]))
      (hr : r.messages = [feesMsg st info]) : Withdraws env info st st' c s a r false

theorem withdrawImmediately_bonds
    (h : withdrawImmediately env info st stakerAddr s c a = .ok (st', r)) :
    Withdraws env info st st' c s a r true := by
  obtain ⟨acc, hloop, hunbonded, hsaved, hresponse⟩ := withdrawImmediately_spec h
  -- the bonds are sorted before they are used
  have hperm : ((st.bonds c s).insertionSort fun a b =>
      b.bondingStartTimestamp.seconds ≤ a.bondingStartTimestamp.seconds).Perm (st.bonds c s) :=
    List.perm_insertionSort _ _
  obtain ⟨staking, owner, total, -, -, rfl⟩ := saveStakingDetails_frame hsaved
  refine .pays acc.updatedBonds rfl ?_ (fun p => ?_) (fun p hp => ?_)
    (congrArg Response.messages hresponse)
  · exact (foldlM_unbond_filed hloop).subperm.trans (hperm.map _).subperm
  · have hkept := (foldlM_unbond (p := p) hloop).1
    rwa [bondedOf_perm hperm, bondedOf_nil, Nat.zero_add] at hkept
  · have hpaid := (foldlM_unbond hloop).2 fun b hb => hp b (hperm.subset hb)
    rwa [bondedOf_perm hperm, bondedOf_nil, hunbonded, Nat.zero_add] at hpaid

theorem withdrawToBond_bonds (h : withdrawToBond env info st s c a = .ok (st', r)) :
    Withdraws env info st st' c s a r false := by
  obtain ⟨saved, hsaved, rfl, hresponse⟩ := withdrawToBond_spec h
  obtain ⟨staking, owner, total, -, -, rfl⟩ := saveStakingDetails_frame hsaved
  exact .bonds rfl (congrArg Response.messages hresponse)

theorem withdrawStakeFromAClub_bonds
    (h : withdrawStakeFromAClub api q env info st s c a immediate = .ok (st', r)) :
    Withdraws env info st st' c s a r immediate := by
  obtain ⟨-, -, ⟨rfl, stakerAddr, hpaid⟩ | ⟨rfl, hbonded⟩⟩ := withdrawStakeFromAClub_cases h
  · exact withdrawImmediately_bonds hpaid
  · exact withdrawToBond_bonds hbonded

end Handlers

/-! ## The law of the bonds -/

/-- What a call transfers by the time `t` to a staker as an immediate withdrawal from a club. -/
def paidFromBonds (api : Api) (k : String × String) (t : Timestamp) (st : Storage) (c : Call) : ℕ :=
  match c.msg with
  | .stakeWithdrawFromAClub staker clubName _ true =>
    if (clubName, staker) = k ∧ c.env.block.time ≤ t then
      ((exec api st c).map fun x => furyTransferred x.2).getD 0
    else 0
  | _ => 0

/-- What a call moves into a bond of a staker on a club, when that is more than the bonding
duration before the time `t`. -/
def bonded (api : Api) (k : String × String) (t : Timestamp) (st : Storage) (c : Call) : ℕ :=
  match c.msg with
  | .stakeWithdrawFromAClub staker clubName amount false =>
    if (clubName, staker) = k ∧ (exec api st c).isSome ∧
        c.env.block.time + st.config.bondingDuration * Timestamp.nanosPerSecond < t then amount
    else 0
  | _ => 0

/-- What the bonds hold that are mature at the time `t`. -/
def Storage.matureAt (st : Storage) (k : String × String) (t : Timestamp) : ℕ :=
  bondedOf (fun m => m < t) (st.bonds k.1 k.2)

/-- The amount that an immediate withdrawal asks for. -/
def Call.withdrawn (c : Call) : ℕ :=
  match c.msg with
  | .stakeWithdrawFromAClub _ _ amount true => amount
  | _ => 0

/-- When the call is accepted and pays from bonds, the chain has lasted for their duration. -/
def PaysInTime (api : Api) (st : Storage) (c : Call) : Prop :=
  (exec api st c).isSome ∧ c.withdrawn ≠ 0 →
    st.config.bondingDuration * Timestamp.nanosPerSecond ≤ c.env.block.time

instance (api : Api) (st : Storage) (c : Call) : Decidable (PaysInTime api st c) :=
  inferInstanceAs (Decidable (_ → _))

/-- Every bond is filed with the duration of the configuration. -/
def Storage.Uniform (st : Storage) : Prop :=
  ∀ c s, ∀ b ∈ st.bonds c s, b.bondingDuration = st.config.bondingDuration

section Runs

variable {api : Api} {c : Call} {st st' : Storage} {r : Response Cw20.ExecuteMsg}

theorem bonds_insert_self (k : String × String) (bonds : List ClubBondingDetails)
    (h : st'.bonding = st.bonding.insert k bonds) : st'.bonds k.1 k.2 = bonds := by
  rw [Storage.bonds, h, Store.get_insert, if_pos rfl]
  rfl

theorem bonds_insert_of_ne {k k' : String × String} {bonds : List ClubBondingDetails}
    (h : st'.bonding = st.bonding.insert k bonds) (hne : k ≠ k') :
    st'.bonds k'.1 k'.2 = st.bonds k'.1 k'.2 := by
  rw [Storage.bonds, h, Store.get_insert, if_neg hne, Storage.bonds]

/-- A withdrawal leaves the bonds under every other key. -/
theorem Withdraws.bonds_of_ne {env : Env} {info : MessageInfo} {clubName staker : String} {a : ℕ}
    {immediate : Bool} (hw : Withdraws env info st st' clubName staker a r immediate)
    {k : String × String} (hne : (clubName, staker) ≠ k) :
    st'.bonds k.1 k.2 = st.bonds k.1 k.2 := by
  cases hw with
  | pays kept hst hfiled hle hpaid hr => exact bonds_insert_of_ne hst hne
  | bonds hst hr => exact bonds_insert_of_ne hst hne

theorem paidFromBonds_of_not_withdraw (k : String × String) (t : Timestamp)
    (h : ∀ staker clubName amount immediate,
      c.msg ≠ .stakeWithdrawFromAClub staker clubName amount immediate) :
    paidFromBonds api k t st c = 0 := by
  unfold paidFromBonds
  split
  · rename_i staker clubName amount hmsg
    exact absurd hmsg (h _ _ _ _)
  · rfl

/-- **What an accepted message does to the bonds**: nothing, unless it is a withdrawal. -/
theorem exec_bonding (h : exec api st c = some (st', r)) :
    (∀ staker clubName amount immediate,
        c.msg ≠ .stakeWithdrawFromAClub staker clubName amount immediate) ∧
      st'.bonding = st.bonding ∨
    ∃ staker clubName amount immediate,
      c.msg = .stakeWithdrawFromAClub staker clubName amount immediate ∧
        Withdraws c.env c.info st st' clubName staker amount r immediate := by
  cases exec_items h with
  | plain hmsg hitems hbonds =>
    refine .inl ⟨fun _ _ _ _ hc => ?_, hbonds⟩
    rw [hc] at hmsg
    cases hmsg
  | withdraws staker clubName amount immediate hmsg hitems =>
    have hw := exec_eq_some.mp h
    rw [hmsg] at hw
    exact .inr ⟨staker, clubName, amount, immediate, hmsg, withdrawStakeFromAClub_bonds hw⟩
  | increases rewardFrom amount hmsg hst =>
    refine .inl ⟨fun _ _ _ _ hc => ?_, by rw [hst]⟩
    rw [hmsg] at hc
    cases hc
  | distributes stakerList clubName isFirstBatch isFinalBatch hmsg hbatch =>
    refine .inl ⟨fun _ _ _ _ hc => ?_, hbatch.frame.2⟩
    rw [hmsg] at hc
    cases hc

/-- An immediate withdrawal that is accepted pays what it asks for. -/
theorem paidFromBonds_withdraws {staker clubName : String} {amount : ℕ}
    (h : exec api st c = some (st', r))
    (hmsg : c.msg = .stakeWithdrawFromAClub staker clubName amount true) (t : Timestamp) :
    paidFromBonds api (clubName, staker) t st c = if c.env.block.time ≤ t then amount else 0 := by
  have hw := h
  rw [exec_eq_some, hmsg] at hw
  cases withdrawStakeFromAClub_bonds hw with
  | pays kept hst hfiled hle hpaid hr =>
    rw [paidFromBonds, hmsg]
    refine if_congr (and_iff_right rfl) ?_ rfl
    rw [h, Option.map_some, Option.getD_some, furyTransferred, hr]
    rfl

/-- A withdrawal files its bonds with the duration of the configuration. -/
theorem Withdraws.uniform {clubName staker : String} {amount : ℕ} {immediate : Bool}
    (hw : Withdraws c.env c.info st st' clubName staker amount r immediate) (hu : st.Uniform) :
    ∀ c s, ∀ b ∈ st'.bonds c s, b.bondingDuration = st.config.bondingDuration := by
  intro c s b hb
  by_cases hk : (clubName, staker) = (c, s)
  · cases hw with
    | pays kept hst hfiled hle hpaid hr =>
      rw [bonds_insert_self (c, s) kept (hk ▸ hst)] at hb
      obtain ⟨b', hb', heq⟩ := List.mem_map.mp
        (hfiled.subset (List.mem_map_of_mem (f := ClubBondingDetails.filing) hb))
      rw [← hu clubName staker b' hb']
      exact (congrArg ClubBondingDetails.bondingDuration heq).symm
    | bonds hst hr =>
      rw [bonds_insert_self (c, s) _ (hk ▸ hst)] at hb
      rcases List.mem_append.mp hb with hb | hb
      · exact hu clubName staker b hb
      · obtain rfl := List.mem_singleton.mp hb
        rfl
  · have hother := hw.bonds_of_ne hk
    rw [hother] at hb
    exact hu c s b hb

theorem exec_uniform (h : exec api st c = some (st', r)) (hu : st.Uniform) : st'.Uniform := by
  intro c' s b hb
  rw [exec_config h]
  rcases exec_bonding h with ⟨-, hbonds⟩ | ⟨staker, clubName, amount, immediate, -, hw⟩
  · rw [Storage.bonds, hbonds] at hb
    exact hu c' s b hb
  · exact hw.uniform hu c' s b hb

/-- Under every duration of its bonds, a withdrawal in time keeps the law under every key. -/
theorem Withdraws.matureAt {clubName staker : String} {amount : ℕ} {immediate : Bool}
    (hw : Withdraws c.env c.info st st' clubName staker amount r immediate)
    (h : exec api st c = some (st', r))
    (hmsg : c.msg = .stakeWithdrawFromAClub staker clubName amount immediate)
    (hu : st.Uniform) (htime : PaysInTime api st c) (k : String × String) (t : Timestamp) :
    paidFromBonds api k t st c + st'.matureAt k t ≤ st.matureAt k t + bonded api k t st c := by
  have haccepted : (exec api st c).isSome = true := by
    rw [h]
    rfl
  unfold Storage.matureAt
  by_cases hk : (clubName, staker) = k
  · subst hk
    cases hw with
    | pays kept hst hfiled hle hpaid hr =>
      rw [paidFromBonds_withdraws h hmsg, bonds_insert_self (clubName, staker) kept hst]
      refine le_trans ?_ (Nat.le_add_right _ _)
      split
      · rename_i ht
        by_cases hzero : amount = 0
        · rw [hzero, Nat.zero_add]
          exact hle _
        -- the chain has lasted for the duration: what is paid is mature now, and so at `t`
        · refine (hpaid _ fun b hb hpast => decide_eq_true ?_).le
          refine (hpast.mature ?_).trans_le ht
          rw [hu clubName staker b hb]
          refine htime ⟨haccepted, ?_⟩
          rwa [Call.withdrawn, hmsg]
      · rw [Nat.zero_add]
        exact hle _
    | bonds hst hr =>
      have hpays : paidFromBonds api (clubName, staker) t st c = 0 := by
        rw [paidFromBonds, hmsg]
      have hbonded : bonded api (clubName, staker) t st c = if c.env.block.time +
          st.config.bondingDuration * Timestamp.nanosPerSecond < t then amount else 0 := by
        rw [bonded, hmsg]
        exact if_congr ((and_iff_right rfl).trans (and_iff_right haccepted)) rfl rfl
      rw [hpays, hbonded, Nat.zero_add, bonds_insert_self (clubName, staker) _ hst,
        bondedOf_append, bondedOf_singleton]
      refine Nat.add_le_add_left (le_of_eq ?_) _
      exact if_congr decide_eq_true_iff rfl rfl
  · have hpays : paidFromBonds api k t st c = 0 := by
      unfold paidFromBonds
      rw [hmsg]
      cases immediate with
      | true => exact if_neg fun hc => hk hc.1
      | false => rfl
    rw [hpays, hw.bonds_of_ne hk, Nat.zero_add]
    exact Nat.le_add_right _ _

/-- **One step** in time takes from the bonds that are mature at a time what it pays by that time,
and adds to them no more than it moves into a bond. -/
theorem exec_matureAt (h : exec api st c = some (st', r)) (hu : st.Uniform)
    (htime : PaysInTime api st c) (k : String × String) (t : Timestamp) :
    paidFromBonds api k t st c + st'.matureAt k t ≤ st.matureAt k t + bonded api k t st c := by
  rcases exec_bonding h with ⟨hmsg, hbonds⟩ | ⟨staker, clubName, amount, immediate, hmsg, hw⟩
  · rw [paidFromBonds_of_not_withdraw k t hmsg, Storage.matureAt, Storage.bonds, hbonds,
      Nat.zero_add]
    exact Nat.le_add_right _ _
  · exact hw.matureAt h hmsg hu htime k t

/-- A call that is reverted pays nothing. -/
theorem commit_matureAt (st : Storage) (c : Call) (hu : st.Uniform) (htime : PaysInTime api st c)
    (k : String × String) (t : Timestamp) :
    paidFromBonds api k t st c + (commit (exec api) st c).matureAt k t ≤
      st.matureAt k t + bonded api k t st c := by
  rcases commit_cases (exec api) st c with ⟨r, h⟩ | ⟨hnone, hs⟩
  · exact exec_matureAt h hu htime k t
  · have hpays : paidFromBonds api k t st c = 0 := by
      unfold paidFromBonds
      rw [hnone]
      split
      · exact ite_self 0
      · rfl
    rw [hs, hpays, Nat.zero_add]
    exact Nat.le_add_right _ _

theorem history_uniform (hinit : Initial api st) (cs : List Call) :
    ∀ x ∈ history (exec api) st cs, x.1.Uniform := by
  have hnone : st.Uniform := by
    obtain ⟨config, next, rfl⟩ := hinit.eq
    intro c s b hb
    cases hb
  exact history_invariant (P := fun _ _ => True) (fun s c s' r hs _ h => exec_uniform h hs) hnone
    fun _ _ => trivial

/-- In a run that pays in time, what was paid by the time `t`, and what the mature bonds hold, was
moved into bonds. -/
theorem run_matureAt (hinit : Initial api st) (cs : List Call)
    (htime : ∀ x ∈ history (exec api) st cs, PaysInTime api x.1 x.2) (k : String × String)
    (t : Timestamp) :
    tally (exec api) (paidFromBonds api k t) st cs + (run (exec api) st cs).matureAt k t ≤
      tally (exec api) (bonded api k t) st cs := by
  have hnone : st.matureAt k t = 0 := by
    obtain ⟨config, next, rfl⟩ := hinit.eq
    rfl
  have hledger : tally (exec api) (paidFromBonds api k t) st cs +
      (run (exec api) st cs).matureAt k t ≤
        st.matureAt k t + tally (exec api) (bonded api k t) st cs :=
    tally_add_le (q := fun st => st.matureAt k t) fun x hx =>
      commit_matureAt x.1 x.2 (history_uniform hinit cs x hx) (htime x hx) k t
  rwa [hnone, Nat.zero_add] at hledger

/-- Before the chain has lasted for the duration no bond has matured. -/
theorem tally_bonded_eq_zero (cs : List Call) (k : String × String) {t : Timestamp}
    (ht : t ≤ st.config.bondingDuration * Timestamp.nanosPerSecond) :
    tally (exec api) (bonded api k t) st cs = 0 := by
  refine tally_eq_zero fun x hx => ?_
  obtain ⟨before, after, rfl, hstate⟩ := mem_history hx
  unfold bonded
  split
  · refine if_neg fun hc => ?_
    have hmature := hc.2.2
    rw [hstate, run_config] at hmature
    exact absurd ((Nat.le_add_left _ _).trans_lt hmature) (not_lt.mpr ht)
  · rfl

end Runs

/-- **No stake leaves before it matures**, in exactly the runs that pay in time: by any time no more
is paid to a staker as immediate withdrawals from a club than the staker has moved into bonds on it
more than the bonding duration before that time. -/
theorem paidFromBonds_le_bonded_iff (api : Api) (st : Storage) (cs : List Call)
    (hinit : Initial api st) :
    (∀ k t, tally (exec api) (paidFromBonds api k t) st cs ≤
      tally (exec api) (bonded api k t) st cs) ↔
      ∀ x ∈ history (exec api) st cs, PaysInTime api x.1 x.2 := by
  constructor
  · rintro hle x hx ⟨haccepted, hwithdrawn⟩
    by_contra hearly
    obtain ⟨before, after, rfl, hstate⟩ := mem_history hx
    rw [hstate, run_config] at hearly
    obtain ⟨⟨st', r⟩, h⟩ := Option.isSome_iff_exists.mp haccepted
    unfold Call.withdrawn at hwithdrawn
    split at hwithdrawn
    · rename_i staker clubName amount hmsg
      -- by the block of such a payment nothing that was bonded has matured
      have hpaid := hle (clubName, staker) x.2.env.block.time
      rw [tally_bonded_eq_zero _ _ (le_of_not_ge hearly)] at hpaid
      have hnone := (le_tally hx).trans hpaid
      rw [paidFromBonds_withdraws h hmsg, if_pos le_rfl] at hnone
      exact hwithdrawn (Nat.le_zero.mp hnone)
    · exact hwithdrawn rfl
  · intro htime k t
    exact le_of_add_le_left (run_matureAt hinit cs htime k t)

namespace Sample

def withdraw (t : ℕ) (staker : Addr) (amount : ℕ) (immediate : Bool) : Call :=
  call t staker (.stakeWithdrawFromAClub staker "club" amount immediate)

/-- A stake becomes two bonds, and the first of them is paid. -/
def bonds : List Call :=
  opened 10000 ++ [stake 2 "alice" 500 false, withdraw 10 "alice" 100 false,
    withdraw 15 "alice" 50 false, withdraw 18 "alice" 80 true]

/-- The contract after it is instantiated with bonds for a hundred years. -/
def century : Storage :=
  (instantiate api ⟨⟨0, 0⟩, "staking"⟩ { instantiateMsg with
    bondingDuration := 3153600000 }).toOption.get (by decide +kernel)

theorem century_initial : Initial api century :=
  ⟨_, _, toOption_eq_some.mp (Option.some_get _).symm⟩

end Sample

open Sample in
/-- Of the first bond eighty are paid in the eighteenth second. -/
theorem paidFromBonds_le_sample :
    tally (exec api) (paidFromBonds api ("club", "alice") (second 18)) storage bonds = 80 ∧
      tally (exec api) (paidFromBonds api ("club", "alice") (second 18)) storage bonds ≤
        tally (exec api) (bonded api ("club", "alice") (second 18)) storage bonds :=
  ⟨by decide +kernel, (paidFromBonds_le_bonded_iff api storage bonds initial).mpr
    (by decide +kernel) ("club", "alice") (second 18)⟩

open Sample in
/-- **A bond for a hundred years is paid after a second**: the block less the duration wraps around
to a time after the bond. -/
theorem not_paidFromBonds_le_bonded :
    ¬ ∀ (api : Api) (st : Storage) (cs : List Call), Initial api st →
      (cs.map fun c => c.env.block.time).Pairwise (· ≤ ·) → ∀ k t,
        tally (exec api) (paidFromBonds api k t) st cs ≤ tally (exec api) (bonded api k t) st cs := by
  intro h
  have hle := h api century (opened 10000 ++ [stake 2 "alice" 500 false,
    withdraw 10 "alice" 100 false, withdraw 11 "alice" 80 true]) century_initial
    (by decide +kernel) ("club", "alice") (second 11)
  revert hle
  decide +kernel

end Clubstaking
