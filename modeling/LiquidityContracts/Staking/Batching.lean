import LiquidityContracts.Staking.Items

/-!
# Batches and their order

Between its first batch and its final one a distribution goes by one ranking and one pot, and a
batch reads nothing that another batch of it writes but the records of its own stakers, the total
of its club and the count of what was given. So a batch is as good as one batch for each of its
stakers, batches of single stakers commute, and the pairs of clubs and stakers may be grouped and
ordered in any way.

## Main definitions

* `distributeBatch`: a batch between the ranking and the settlement of the pot
* `pay`: a batch of a single staker
* `batchMessages`, `Way`: the calls that distribute to some pairs of clubs and stakers

## Main results

* `foldlM_shifts`: a loop that adds up what it gives may start from nothing
* `distributeBatch_cons`: a batch is a batch of its first staker and a batch of the others
* `pay_comm`: batches of single stakers commute
* `exec_distributes`: what an accepted batch of the admin does
* `acceptAll_way`: a distribution ranks the clubs, pays the stakers and settles the pot
* `distribution_perm`: the outcome does not depend on the batches and their order, when they are
  all accepted
* `not_run_perm`: when one of them is rejected, the outcome depends on those before it
-/

namespace Clubstaking

open CosmWasm

/-! ## What is given, added up -/

/-- The sum of what was given before and after. -/
def Given.plus (g h : Given) : Given :=
  ⟨g.rewardGivenSoFar + h.rewardGivenSoFar, g.stakeToAddForClub + h.stakeToAddForClub⟩

/-- Both sums are 128-bit integers. -/
structure Given.Fits (g : Given) : Prop where
  reward : g.rewardGivenSoFar < Uint128.bound
  stake : g.stakeToAddForClub < Uint128.bound

theorem Given.fits_zero : ({} : Given).Fits := ⟨Nat.two_pow_pos 128, Nat.two_pow_pos 128⟩

theorem Given.plus_assoc (g h i : Given) : (g.plus h).plus i = g.plus (h.plus i) := by
  rw [Given.plus, Given.plus, Given.plus, Given.plus, Nat.add_assoc, Nat.add_assoc]

theorem Given.Fits.right {g h : Given} (hf : (g.plus h).Fits) : h.Fits :=
  ⟨(Nat.le_add_left _ _).trans_lt hf.reward, (Nat.le_add_left _ _).trans_lt hf.stake⟩

theorem Given.Fits.left {g h : Given} (hf : (g.plus h).Fits) : g.Fits :=
  ⟨(Nat.le_add_right _ _).trans_lt hf.reward, (Nat.le_add_right _ _).trans_lt hf.stake⟩

section Shifts

variable {ε α β : Type}

/-- A round of a loop adds what it gives to what was given before, and fails when the sum is too
large. -/
def Shifts (f : β × Given → α → Exec ε (β × Given)) : Prop :=
  ∀ b g a b' g', g.Fits → (f (b, g) a = .ok (b', g') ↔
    ∃ h, f (b, {}) a = .ok (b', h) ∧ (g.plus h).Fits ∧ g' = g.plus h)

/-- **A loop that adds up what it gives** may start from nothing. -/
theorem foldlM_shifts {f : β × Given → α → Exec ε (β × Given)} (hf : Shifts f) (l : List α)
    {b b' : β} {g g' : Given} (hg : g.Fits) : l.foldlM f (b, g) = .ok (b', g') ↔
      ∃ h, l.foldlM f (b, {}) = .ok (b', h) ∧ (g.plus h).Fits ∧ g' = g.plus h := by
  induction l generalizing b g g' with
  | nil =>
    simp only [List.foldlM_nil, pure_eq_ok, Prod.mk.injEq]
    constructor
    · rintro ⟨rfl, rfl⟩
      exact ⟨{}, ⟨rfl, rfl⟩, hg, rfl⟩
    · rintro ⟨h, ⟨rfl, rfl⟩, -, rfl⟩
      exact ⟨rfl, rfl⟩
  | cons a l ih =>
    simp only [List.foldlM_cons, bind_eq_ok]
    constructor
    -- the round and the rest are both moved down to start from nothing
    · rintro ⟨⟨b₁, g₁⟩, hround, hrest⟩
      obtain ⟨h₁, hfirst, hfits, rfl⟩ := (hf _ _ _ _ _ hg).mp hround
      obtain ⟨h₂, hloop, hfits', rfl⟩ := (ih hfits).mp hrest
      rw [Given.plus_assoc] at hfits' ⊢
      refine ⟨h₁.plus h₂, ⟨(b₁, h₁), hfirst, ?_⟩, hfits', rfl⟩
      exact (ih hfits.right).mpr ⟨h₂, hloop, hfits'.right, rfl⟩
    -- and moved up again, which the bound on the whole sum allows
    · rintro ⟨h, ⟨⟨b₁, h₁⟩, hround, hrest⟩, hfits, rfl⟩
      have hh₁ : h₁.Fits := by
        obtain ⟨h₀, -, hfits₀, hsum⟩ := (hf _ _ _ _ _ Given.fits_zero).mp hround
        rw [hsum]
        exact hfits₀
      obtain ⟨h₂, hloop, -, rfl⟩ := (ih hh₁).mp hrest
      rw [← Given.plus_assoc] at hfits ⊢
      refine ⟨(b₁, g.plus h₁), (hf _ _ _ _ _ hg).mpr ⟨h₁, hround, hfits.left, rfl⟩, ?_⟩
      exact (ih hfits.left).mpr ⟨h₂, hloop, hfits, rfl⟩

end Shifts

section Loops

variable {terms : RewardTerms} {period : RewardPeriod} {c : String}

theorem creditStake_shifts (terms : RewardTerms) (period : RewardPeriod) :
    Shifts (creditStake terms period) := by
  intro kept g r kept' g' hg
  unfold creditStake
  split
  -- a record that starts in the future gives nothing
  · simp only [pure_eq_ok, Prod.mk.injEq]
    constructor
    · rintro ⟨rfl, rfl⟩
      exact ⟨{}, ⟨rfl, rfl⟩, hg, rfl⟩
    · rintro ⟨h, ⟨rfl, rfl⟩, -, rfl⟩
      exact ⟨rfl, rfl⟩
  · split
    -- the reward is folded into the stake: it counts for the club, too
    · simp only [bind_eq_ok, pure_eq_ok, Uint128.add_eq_ok, Prod.mk.injEq, Nat.zero_add]
      constructor
      · rintro ⟨reward, hreward, _, ⟨hgiven, rfl⟩, _, ⟨htoAdd, rfl⟩, hkept⟩
        obtain ⟨staked, hstaked, folded, hfolded, rfl, rfl⟩ := hkept
        have hfits : (g.plus ⟨reward, reward⟩).Fits := ⟨hgiven, htoAdd⟩
        exact ⟨⟨reward, reward⟩, ⟨reward, hreward, _, ⟨hfits.right.reward, rfl⟩, _,
          ⟨hfits.right.stake, rfl⟩, staked, hstaked, folded, hfolded, rfl, rfl⟩, hfits, rfl⟩
      · rintro ⟨h, ⟨reward, hreward, _, ⟨-, rfl⟩, _, ⟨-, rfl⟩, hkept⟩, hfits, rfl⟩
        obtain ⟨staked, hstaked, folded, hfolded, rfl, rfl⟩ := hkept
        exact ⟨_, hreward, _, ⟨hfits.reward, rfl⟩, _, ⟨hfits.stake, rfl⟩, staked,
          hstaked, folded, hfolded, rfl, rfl⟩
    -- the reward is kept as pending
    · simp only [bind_eq_ok, pure_eq_ok, Uint128.add_eq_ok, Prod.mk.injEq, Nat.zero_add]
      constructor
      · rintro ⟨reward, hreward, _, ⟨hgiven, rfl⟩, pending, hpending, rfl, rfl⟩
        have hfits : (g.plus ⟨reward, 0⟩).Fits := ⟨hgiven, hg.stake⟩
        exact ⟨⟨reward, 0⟩, ⟨reward, hreward, _, ⟨hfits.right.reward, rfl⟩, pending,
          hpending, rfl, rfl⟩, hfits, rfl⟩
      · rintro ⟨h, ⟨reward, hreward, _, ⟨-, rfl⟩, pending, hpending, rfl, rfl⟩, hfits,
          rfl⟩
        exact ⟨_, hreward, _, ⟨hfits.reward, rfl⟩, pending, hpending, rfl, rfl⟩

theorem creditStaker_shifts (terms : RewardTerms) (period : RewardPeriod) (c : String) :
    Shifts (creditStaker terms period c) := by
  intro staking g s staking' g' hg
  unfold creditStaker
  simp only [bind_eq_ok, pure_eq_ok, Prod.mk.injEq]
  constructor
  · rintro ⟨⟨kept, g₁⟩, hloop, rfl, rfl⟩
    obtain ⟨h, hkept, hfits, rfl⟩ := (foldlM_shifts (creditStake_shifts terms period) _ hg).mp hloop
    exact ⟨h, ⟨(kept, h), hkept, rfl, rfl⟩, hfits, rfl⟩
  · rintro ⟨h, ⟨⟨kept, h₁⟩, hloop, rfl, rfl⟩, hfits, rfl⟩
    exact ⟨(kept, g.plus h₁), (foldlM_shifts (creditStake_shifts terms period) _ hg).mpr
      ⟨h₁, hloop, hfits, rfl⟩, rfl, rfl⟩

end Loops

/-! ## A batch of single stakers -/

/-- A club as a batch saves it. -/
def ClubOwnershipDetails.add (club : ClubOwnershipDetails) (amount : ℕ) : ClubOwnershipDetails :=
  { club with totalStakedAmount := club.totalStakedAmount + amount }

/-- The state after a batch, between the ranking and the settlement of the pot. -/
def Storage.pay (st : Storage) (clubName : String) (club : ClubOwnershipDetails)
    (staking : Store (String × String) (List ClubStakingDetails)) (given : Given) : Storage :=
  { st with
    staking
    ownership := st.ownership.insert clubName (club.add given.stakeToAddForClub)
    rewardGivenInCurrentTimestamp := some (st.given + given.rewardGivenSoFar) }

/-- The pairs of a club with its stakers. -/
def pairsOf (b : String × List String) : List (String × String) :=
  b.2.map fun staker => (b.1, staker)

section Batches

variable (winning : WinningClubDetails) (totalReward : ℕ) (period : RewardPeriod)

/-- A batch between the ranking and the settlement of the pot. -/
def distributeBatch (st : Storage) (clubName : String) (stakers : List String) :
    Exec ContractError Storage := do
  let club ← queryClubOwnershipDetails st clubName
  let terms ← rewardTerms winning club clubName totalReward
  let (staking, given) ← stakers.foldlM (creditStaker terms period clubName) (st.staking, {})
  let totalStaked ← Uint128.add club.totalStakedAmount given.stakeToAddForClub
  let givenInPeriod ← Uint128.add (st.rewardGivenInCurrentTimestamp.getD 0) given.rewardGivenSoFar
  return { st with
    staking := staking
    ownership := st.ownership.insert clubName { club with totalStakedAmount := totalStaked }
    rewardGivenInCurrentTimestamp := some givenInPeriod }

/-- A batch of a single staker of a club. -/
def pay (st : Storage) (k : String × String) : Option Storage :=
  (distributeBatch winning totalReward period st k.1 [k.2]).toOption

variable {winning totalReward period} {st st' : Storage} {c s : String} {stakers : List String}

/-- A batch succeeds when its loop does and the sums are 128-bit integers. -/
theorem distributeBatch_eq_ok :
    distributeBatch winning totalReward period st c stakers = .ok st' ↔
      ∃ club terms staking given, st.ownership[c]? = some club ∧
        rewardTerms winning club c totalReward = .ok terms ∧
        stakers.foldlM (creditStaker terms period c) (st.staking, {}) = .ok (staking, given) ∧
        club.totalStakedAmount + given.stakeToAddForClub < Uint128.bound ∧
        st.given + given.rewardGivenSoFar < Uint128.bound ∧
        st' = st.pay c club staking given := by
  unfold distributeBatch
  simp only [bind_eq_ok, pure_eq_ok, Uint128.add_eq_ok, queryClubOwnershipDetails_eq_ok_iff]
  constructor
  · rintro ⟨club, hclub, terms, hterms, ⟨staking, given⟩, hloop, _, ⟨htotal, rfl⟩, _, ⟨hgiven, rfl⟩,
      rfl⟩
    exact ⟨club, terms, staking, given, hclub, hterms, hloop, htotal, hgiven, rfl⟩
  · rintro ⟨club, terms, staking, given, hclub, hterms, hloop, htotal, hgiven, rfl⟩
    exact ⟨club, hclub, terms, hterms, (staking, given), hloop, _, ⟨htotal, rfl⟩, _, ⟨hgiven, rfl⟩,
      rfl⟩

theorem rewardTerms_add (club : ClubOwnershipDetails) (amount : ℕ) :
    rewardTerms winning (club.add amount) c totalReward = rewardTerms winning club c totalReward :=
  rfl

/-- Two batches for a club save what one batch saves. -/
theorem Storage.pay_pay (st : Storage) (c : String) (club : ClubOwnershipDetails)
    (staking staking' : Store (String × String) (List ClubStakingDetails)) (g h : Given) :
    (st.pay c club staking g).pay c (club.add g.stakeToAddForClub) staking' h =
      st.pay c club staking' (g.plus h) := by
  unfold Storage.pay ClubOwnershipDetails.add
  simp only [Store.insert_insert, Storage.given, Option.getD_some, Given.plus, Nat.add_assoc]

/-- **A batch is a batch of its first staker and a batch of the others.** -/
theorem distributeBatch_cons :
    distributeBatch winning totalReward period st c (s :: stakers) = .ok st' ↔
      ∃ st₁, distributeBatch winning totalReward period st c [s] = .ok st₁ ∧
        distributeBatch winning totalReward period st₁ c stakers = .ok st' := by
  simp only [distributeBatch_eq_ok, List.foldlM_cons, List.foldlM_nil, bind_eq_ok, pure_eq_ok,
    exists_eq_right]
  constructor
  -- split: what the first staker gets is saved, and the others start from nothing
  · rintro ⟨club, terms, staking, given, hclub, hterms, ⟨⟨staking₁, g⟩, hfirst, hrest⟩, htotal,
      hgiven, rfl⟩
    have hg : g.Fits := by
      obtain ⟨h₀, -, hfits, hsum⟩ :=
        (creditStaker_shifts terms period c _ _ _ _ _ Given.fits_zero).mp hfirst
      rw [hsum]
      exact hfits
    obtain ⟨h, hloop, hfits, rfl⟩ := (foldlM_shifts (creditStaker_shifts terms period c) _ hg).mp hrest
    refine ⟨st.pay c club staking₁ g, ⟨club, terms, staking₁, g, hclub, hterms, hfirst, ?_, ?_, rfl⟩,
      club.add g.stakeToAddForClub, terms, staking, h, ?_, hterms, hloop, ?_, ?_, ?_⟩
    · exact (Nat.add_le_add_left (Nat.le_add_right _ _) _).trans_lt htotal
    · exact (Nat.add_le_add_left (Nat.le_add_right _ _) _).trans_lt hgiven
    · exact Store.get_insert_self _ _ _
    · exact (Nat.add_assoc _ _ _).trans_lt htotal
    · exact (Nat.add_assoc _ _ _).trans_lt hgiven
    · exact (Storage.pay_pay ..).symm
  -- join: the terms are the same, since paying stakers does not move the ranking
  · rintro ⟨_, ⟨club, terms, staking₁, g, hclub, hterms, hfirst, htotal, hgiven, rfl⟩, club', terms',
      staking, h, hclub', hterms', hloop, htotal', hgiven', rfl⟩
    obtain rfl : club.add g.stakeToAddForClub = club' :=
      Option.some_injective _ ((Store.get_insert_self _ _ _).symm.trans hclub')
    obtain rfl : terms = terms' := by
      rw [rewardTerms_add, hterms] at hterms'
      exact Except.ok.inj hterms'
    have htotal : club.totalStakedAmount + (g.plus h).stakeToAddForClub < Uint128.bound :=
      (Nat.add_assoc _ _ _).symm.trans_lt htotal'
    have hgiven : st.given + (g.plus h).rewardGivenSoFar < Uint128.bound :=
      (Nat.add_assoc _ _ _).symm.trans_lt hgiven'
    have hfits : (g.plus h).Fits :=
      ⟨(Nat.le_add_left _ _).trans_lt hgiven, (Nat.le_add_left _ _).trans_lt htotal⟩
    refine ⟨club, terms, staking, g.plus h, hclub, hterms, ⟨(staking₁, g), hfirst, ?_⟩, htotal, hgiven,
      Storage.pay_pay ..⟩
    exact (foldlM_shifts (creditStaker_shifts terms period c) _ hfits.left).mpr
      ⟨h, hloop, hfits, rfl⟩

/-! ## Stakers in any order -/

variable {k k' : String × String} {st₁ st₂ : Storage}

theorem Given.plus_comm (g h : Given) : g.plus h = h.plus g := by
  rw [Given.plus, Given.plus, Nat.add_comm, Nat.add_comm g.stakeToAddForClub]

/-- Batches for two clubs save the same in either order. -/
theorem Storage.pay_comm (st : Storage) {c c' : String} (hne : c ≠ c')
    (club club' : ClubOwnershipDetails)
    (staking staking' final : Store (String × String) (List ClubStakingDetails)) (g g' : Given) :
    (st.pay c club staking g).pay c' club' final g' =
      (st.pay c' club' staking' g').pay c club final g := by
  unfold Storage.pay
  simp only [Store.insert_comm _ _ _ hne, Storage.given, Option.getD_some,
    Nat.add_right_comm _ g.rewardGivenSoFar]

theorem pay_eq_some : pay winning totalReward period st k = some st' ↔
    ∃ club terms kept given, st.ownership[k.1]? = some club ∧
      rewardTerms winning club k.1 totalReward = .ok terms ∧
      (stakesAt st.staking k).foldlM (creditStake terms period) ([], {}) = .ok (kept, given) ∧
      club.totalStakedAmount + given.stakeToAddForClub < Uint128.bound ∧
      st.given + given.rewardGivenSoFar < Uint128.bound ∧
      st' = st.pay k.1 club (st.staking.insert k kept) given := by
  simp only [pay, toOption_eq_some, distributeBatch_eq_ok, List.foldlM_cons, List.foldlM_nil,
    creditStaker, bind_eq_ok, pure_eq_ok, exists_eq_right, Prod.mk.injEq]
  constructor
  · rintro ⟨club, terms, _, given, hclub, hterms, ⟨⟨kept, _⟩, hloop, rfl, rfl⟩, htotal, hgiven, rfl⟩
    exact ⟨club, terms, kept, _, hclub, hterms, hloop, htotal, hgiven, rfl⟩
  · rintro ⟨club, terms, kept, given, hclub, hterms, hloop, htotal, hgiven, rfl⟩
    exact ⟨club, terms, _, _, hclub, hterms, ⟨(kept, _), hloop, rfl, rfl⟩, htotal, hgiven, rfl⟩

/-- What is paid to one staker after another may be paid before. -/
theorem pay_pay_of_ne (hne : k ≠ k') (h : pay winning totalReward period st k = some st₁)
    (h' : pay winning totalReward period st₁ k' = some st₂) :
    ∃ st₁', pay winning totalReward period st k' = some st₁' ∧
      pay winning totalReward period st₁' k = some st₂ := by
  obtain ⟨club, terms, kept, g, hclub, hterms, hloop, htotal, hgiven, rfl⟩ := pay_eq_some.mp h
  obtain ⟨club', terms', kept', g', hclub', hterms', hloop', htotal', hgiven', rfl⟩ :=
    pay_eq_some.mp h'
  -- neither reads the records that the other writes
  have hstakes : stakesAt (st.staking.insert k kept) k' = stakesAt st.staking k' := by
    rw [stakesAt_insert, if_neg hne]
  have hstakes' : stakesAt (st.staking.insert k' kept') k = stakesAt st.staking k := by
    rw [stakesAt_insert, if_neg hne.symm]
  have hstaking := Store.insert_comm st.staking kept kept' hne
  change (stakesAt (st.staking.insert k kept) k').foldlM _ _ = _ at hloop'
  rw [hstakes] at hloop'
  change st.given + g.rewardGivenSoFar + g'.rewardGivenSoFar < _ at hgiven'
  have hbefore : st.given + g'.rewardGivenSoFar < Uint128.bound := by omega
  have hafter : st.given + g'.rewardGivenSoFar + g.rewardGivenSoFar < Uint128.bound := by omega
  by_cases hc : k.1 = k'.1
  · rw [← hc] at hclub' hterms'
    obtain rfl : club.add g.stakeToAddForClub = club' :=
      Option.some_injective _ ((Store.get_insert_self _ _ _).symm.trans hclub')
    rw [rewardTerms_add, hterms] at hterms'
    obtain rfl := Except.ok.inj hterms'
    change club.totalStakedAmount + g.stakeToAddForClub + g'.stakeToAddForClub < _ at htotal'
    refine ⟨st.pay k.1 club (st.staking.insert k' kept') g', pay_eq_some.mpr ⟨club, terms, kept', g',
      by rw [← hc]; exact hclub, by rw [← hc]; exact hterms, hloop', by omega, hbefore, by rw [hc]⟩, ?_⟩
    refine pay_eq_some.mpr ⟨club.add g'.stakeToAddForClub, terms, kept, g, Store.get_insert_self _ _ _,
      hterms, ?_, ?_, hafter, ?_⟩
    · change (stakesAt (st.staking.insert k' kept') k).foldlM _ _ = _
      rw [hstakes']
      exact hloop
    · change club.totalStakedAmount + g'.stakeToAddForClub + g.stakeToAddForClub < _
      omega
    · rw [← hc, Storage.pay_pay, Storage.pay_pay, Given.plus_comm]
      exact congrArg (fun staking => st.pay k.1 club staking _) hstaking
  · have hclub₀ : st.ownership[k'.1]? = some club' :=
      (Store.get_insert_of_ne _ _ hc).symm.trans hclub'
    refine ⟨st.pay k'.1 club' (st.staking.insert k' kept') g', pay_eq_some.mpr ⟨club', terms', kept', g',
      hclub₀, hterms', hloop', htotal', hbefore, rfl⟩, ?_⟩
    refine pay_eq_some.mpr ⟨club, terms, kept, g,
      (Store.get_insert_of_ne _ _ (Ne.symm hc)).trans hclub, hterms, ?_, htotal, hafter, ?_⟩
    · change (stakesAt (st.staking.insert k' kept') k).foldlM _ _ = _
      rw [hstakes']
      exact hloop
    · refine (Storage.pay_comm st hc _ _ _ (st.staking.insert k' kept') _ _ _).trans ?_
      exact congrArg (fun staking => Storage.pay _ k.1 club staking g) hstaking

/-- **Batches of single stakers commute.** -/
theorem pay_comm (st : Storage) (k k' : String × String) :
    (pay winning totalReward period st k).bind (fun st => pay winning totalReward period st k') =
      (pay winning totalReward period st k').bind fun st => pay winning totalReward period st k := by
  by_cases hk : k = k'
  · rw [hk]
  · ext st₂
    simp only [Option.bind_eq_some_iff]
    constructor
    · rintro ⟨st₁, h, h'⟩
      exact pay_pay_of_ne hk h h'
    · rintro ⟨st₁, h, h'⟩
      exact pay_pay_of_ne (Ne.symm hk) h h'

/-- A batch pays its stakers one after the other. -/
theorem distributeBatch_foldlM (st : Storage) (c : String) (hne : stakers ≠ []) :
    (distributeBatch winning totalReward period st c stakers).toOption =
      (pairsOf (c, stakers)).foldlM (pay winning totalReward period) st := by
  induction stakers generalizing st with
  | nil => exact absurd rfl hne
  | cons s stakers ih =>
    rw [pairsOf, List.map_cons, List.foldlM_cons]
    by_cases hstakers : stakers = []
    · rw [hstakers]
      exact (bind_pure _).symm
    · ext st'
      rw [toOption_eq_some, distributeBatch_cons, Option.bind_eq_bind, Option.bind_eq_some_iff]
      refine exists_congr fun st₁ => and_congr toOption_eq_some.symm ?_
      rw [← toOption_eq_some, ih st₁ hstakers]
      rfl

end Batches

/-! ## The calls -/

/-- The state with another time of the next reward. -/
def Storage.withNext (st : Storage) (next : Option Timestamp) : Storage :=
  { st with clubRewardNextTimestamp := next }

/-- The state after the pot is settled. -/
def Storage.settle (st : Storage) (totalReward : ℕ) (next : Option Timestamp) : Storage :=
  { st with reward := some (totalReward - st.given), clubRewardNextTimestamp := next }

section Calls

variable {api : Api} {c : Call} {st st' : Storage} {stakers : List String} {clubName : String}
  {isFirstBatch isFinalBatch : Bool} {winning : WinningClubDetails} {totalReward : ℕ}
  {period : RewardPeriod} {next : Option Timestamp}

theorem rankingFor_withNext : rankingFor (st.withNext next) isFirstBatch = .ok (st', winning) ↔
    ∃ ranked, rankingFor st isFirstBatch = .ok (ranked, winning) ∧ st' = ranked.withNext next := by
  cases isFirstBatch with
  | false =>
    simp only [rankingFor, Bool.false_eq_true, if_false, pure_eq_ok, Prod.mk.injEq]
    constructor
    · rintro ⟨rfl, rfl⟩
      exact ⟨st, ⟨rfl, rfl⟩, rfl⟩
    · rintro ⟨ranked, ⟨rfl, rfl⟩, rfl⟩
      exact ⟨rfl, rfl⟩
  | true =>
    simp only [rankingFor, getWinningClubsDetails, if_true, bind_eq_ok, pure_eq_ok, Prod.mk.injEq]
    constructor
    · rintro ⟨_, ⟨clubs, hclubs, acc, hacc, rfl⟩, rfl, rfl⟩
      exact ⟨_, ⟨_, ⟨clubs, hclubs, acc, hacc, rfl⟩, rfl, rfl⟩, rfl⟩
    · rintro ⟨ranked, ⟨_, ⟨clubs, hclubs, acc, hacc, rfl⟩, rfl, rfl⟩, rfl⟩
      exact ⟨_, ⟨clubs, hclubs, acc, hacc, rfl⟩, rfl, rfl⟩

theorem distributeBatch_withNext :
    distributeBatch winning totalReward period (st.withNext next) clubName stakers = .ok st' ↔
      ∃ paid, distributeBatch winning totalReward period st clubName stakers = .ok paid ∧
        st' = paid.withNext next := by
  simp only [distributeBatch_eq_ok]
  constructor
  · rintro ⟨club, terms, staking, given, hclub, hterms, hloop, htotal, hgiven, rfl⟩
    exact ⟨_, ⟨club, terms, staking, given, hclub, hterms, hloop, htotal, hgiven, rfl⟩, rfl⟩
  · rintro ⟨_, ⟨club, terms, staking, given, hclub, hterms, hloop, htotal, hgiven, rfl⟩, rfl⟩
    exact ⟨club, terms, staking, given, hclub, hterms, hloop, htotal, hgiven, rfl⟩

/-- A distribution ranks, pays and, at the end, settles the pot. -/
theorem distributeRewardToClubStakers_eq_ok :
    distributeRewardToClubStakers st period stakers clubName totalReward isFirstBatch isFinalBatch =
      .ok st' ↔ ∃ ranked winning paid, rankingFor st isFirstBatch = .ok (ranked, winning) ∧
        distributeBatch winning totalReward period ranked clubName stakers = .ok paid ∧
        st' = if isFinalBatch then paid.settle totalReward paid.clubRewardNextTimestamp else paid := by
  simp only [distributeRewardToClubStakers, openBatch, distributeBatch_eq_ok, bind_eq_ok, pure_eq_ok,
    Uint128.add_eq_ok, queryClubOwnershipDetails_eq_ok_iff]
  constructor
  · rintro ⟨_, ⟨⟨ranked, winning⟩, hranking, club, hclub, terms, hterms, rfl⟩, ⟨staking, given⟩, hloop,
      _, ⟨htotal, rfl⟩, _, ⟨hgiven, rfl⟩, rfl⟩
    refine ⟨ranked, winning, _, hranking, ⟨club, terms, staking, given, hclub, hterms, hloop, htotal,
      hgiven, rfl⟩, ?_⟩
    cases isFinalBatch with
    | false => rfl
    | true => rfl
  · rintro ⟨ranked, winning, _, hranking, ⟨club, terms, staking, given, hclub, hterms, hloop, htotal,
      hgiven, rfl⟩, rfl⟩
    refine ⟨(ranked, club, terms), ⟨(ranked, winning), hranking, club, hclub, terms, hterms, rfl⟩,
      (staking, given), hloop, _, ⟨htotal, rfl⟩, _, ⟨hgiven, rfl⟩, ?_⟩
    cases isFinalBatch with
    | false => rfl
    | true => rfl

/-- **A batch of the admin**, when it is due and the pot is not empty. -/
theorem exec_distributes
    (hmsg : c.msg = .calculateAndDistributeRewards stakers clubName isFirstBatch isFinalBatch)
    (hsender : c.info.sender = st.config.adminAddress) (htime : st.nextReward ≤ c.env.block.time)
    (hpot : st.pot ≠ 0) : (exec api st c).map Prod.fst = some st' ↔
      ∃ ranked winning paid, rankingFor st isFirstBatch = .ok (ranked, winning) ∧
        distributeBatch winning st.pot (rewardPeriod st c.env) ranked clubName stakers = .ok paid ∧
        st' = if isFinalBatch then paid.settle st.pot (some (rewardPeriod st c.env).newStart)
          else paid := by
  -- the checks of the sender, of the time and of the pot pass
  have hcall : (exec api st c).map Prod.fst = some st' ↔
      distributeRewardToClubStakers (saveNextTimestamp st c.env isFinalBatch)
        (rewardPeriod st c.env) stakers clubName st.pot isFirstBatch isFinalBatch = .ok st' := by
    have hreward : st.reward.getD 0 ≠ 0 := hpot
    rw [exec, hmsg, Option.map_eq_some_iff]
    simp only [toOption_eq_some, execute, calculateAndDistributeRewards, refuseGeneric_bind_eq_ok]
    constructor
    · rintro ⟨⟨st₁, r⟩, ⟨-, -, h⟩, rfl⟩
      rw [if_neg hreward] at h
      obtain ⟨distributed, hdistributed, h⟩ := bind_eq_ok.mp h
      cases pure_eq_ok.mp h
      exact hdistributed
    · intro hdistributed
      refine ⟨(st', {}), ⟨fun hne => hne hsender, not_lt.mpr htime, ?_⟩, rfl⟩
      rw [if_neg hreward]
      exact bind_eq_ok.mpr ⟨st', hdistributed, rfl⟩
  rw [hcall]
  -- the final batch saves the next time before the distribution, which does not read it
  cases isFinalBatch with
  | false =>
    simp only [saveNextTimestamp, Bool.false_eq_true, if_false, distributeRewardToClubStakers_eq_ok]
  | true =>
    simp only [saveNextTimestamp, if_true, distributeRewardToClubStakers_eq_ok]
    constructor
    · rintro ⟨ranked, winning, paid, hranking, hpaid, rfl⟩
      obtain ⟨ranked, hranked, rfl⟩ := rankingFor_withNext.mp hranking
      obtain ⟨paid, hbatch, rfl⟩ := distributeBatch_withNext.mp hpaid
      exact ⟨ranked, winning, paid, hranked, hbatch, rfl⟩
    · rintro ⟨ranked, winning, paid, hranked, hbatch, rfl⟩
      let next := some (rewardPeriod st c.env).newStart
      exact ⟨ranked.withNext next, winning, paid.withNext next,
        rankingFor_withNext.mpr ⟨ranked, hranked, rfl⟩,
        distributeBatch_withNext.mpr ⟨paid, hbatch, rfl⟩, rfl⟩

end Calls

section Ways

variable {api : Api} {now : Timestamp} {st st' : Storage} {winning : WinningClubDetails}
  {totalReward : ℕ} {period : RewardPeriod} {calls : List Call}

/-- The messages for some batches: the first of them ranks the clubs, the last settles the pot. -/
def batchMessages : Bool → List (String × List String) → List ExecuteMsg
  | _, [] => []
  | isFirstBatch, b :: batches =>
    .calculateAndDistributeRewards b.2 b.1 isFirstBatch batches.isEmpty ::
      batchMessages false batches

/-- Calls of the admin at one time that distribute to some pairs of clubs and stakers, in batches
of any size and any order. -/
structure Way (st : Storage) (now : Timestamp) (pairs : List (String × String))
    (calls : List Call) : Prop where
  batches : ∃ batches, calls.map (·.msg) = batchMessages true batches ∧
    (∀ b ∈ batches, b.2 ≠ []) ∧ (batches.flatMap pairsOf).Perm pairs
  sender : ∀ c ∈ calls, c.info.sender = st.config.adminAddress
  time : ∀ c ∈ calls, c.env.block.time = now

/-- A batch leaves what the batches after it go by. -/
theorem batch_leaves {isFirstBatch : Bool} {ranked paid : Storage} {b : String × List String}
    (hranking : rankingFor st isFirstBatch = .ok (ranked, winning))
    (hbatch : distributeBatch winning totalReward period ranked b.1 b.2 = .ok paid) :
    paid.config = st.config ∧ paid.pot = st.pot ∧ paid.nextReward = st.nextReward ∧
      rankingFor paid false = (.ok (paid, winning) : Exec ContractError _) := by
  have hwinning := (rankingFor_winning hranking).1
  obtain ⟨snapshot, details, hframe⟩ := rankingFor_frame hranking
  obtain ⟨club, terms, staking, given, -, -, -, -, -, rfl⟩ := distributeBatch_eq_ok.mp hbatch
  refine ⟨?_, ?_, ?_, ?_⟩
  · rw [hframe]
    rfl
  · rw [hframe]
    rfl
  · rw [hframe]
    rfl
  · rw [← hwinning]
    rfl

/-- The period of a distribution at a time. -/
def Storage.periodAt (st : Storage) (now : Timestamp) : RewardPeriod where
  now
  savedNextRewardTimestamp := st.nextReward
  rewardPeriodicity := st.config.rewardPeriodicity

theorem batches_eq_nil {batches : List (String × List String)} (hlisted : ∀ b ∈ batches, b.2 ≠ [])
    (h : batches.flatMap pairsOf = []) : batches = [] := by
  cases batches with
  | nil => rfl
  | cons b batches =>
    rw [List.flatMap_cons, List.append_eq_nil_iff] at h
    exact absurd (List.map_eq_nil_iff.mp h.1) (hlisted b List.mem_cons_self)

/-- **A distribution** ranks the clubs, pays the stakers and settles the pot. -/
theorem acceptAll_way {batches : List (String × List String)} (hbatches : batches ≠ [])
    {isFirstBatch : Bool} (hcalls : calls.map (·.msg) = batchMessages isFirstBatch batches)
    (hlisted : ∀ b ∈ batches, b.2 ≠ []) (hsender : ∀ c ∈ calls, c.info.sender = st.config.adminAddress)
    (htime : ∀ c ∈ calls, c.env.block.time = now) (hnext : st.nextReward ≤ now)
    (hpot : st.pot ≠ 0) : acceptAll (exec api) st calls = some st' ↔
      ∃ ranked winning paid, rankingFor st isFirstBatch = .ok (ranked, winning) ∧
        (batches.flatMap pairsOf).foldlM (pay winning st.pot (st.periodAt now)) ranked = some paid ∧
        st' = paid.settle st.pot (some (st.periodAt now).newStart) := by
  induction batches generalizing st calls isFirstBatch with
  | nil => exact absurd rfl hbatches
  | cons b batches ih =>
    obtain ⟨c, calls, rfl, hmsg, hcalls⟩ := List.map_eq_cons_iff.mp hcalls
    obtain ⟨htime₀, htime⟩ := List.forall_mem_cons.mp htime
    obtain ⟨hsender₀, hsender⟩ := List.forall_mem_cons.mp hsender
    obtain ⟨hlisted₀, hlisted⟩ := List.forall_mem_cons.mp hlisted
    have hperiod : rewardPeriod st c.env = st.periodAt now := by
      rw [rewardPeriod, htime₀]
      rfl
    have hdue : st.nextReward ≤ c.env.block.time := htime₀ ▸ hnext
    have hcall : ∀ st₁, (exec api st c).map Prod.fst = some st₁ ↔ _ :=
      fun st₁ => exec_distributes hmsg hsender₀ hdue hpot
    rw [hperiod] at hcall
    rw [acceptAll, List.foldlM_cons, Option.bind_eq_bind, Option.bind_eq_some_iff, List.flatMap_cons]
    simp only [List.foldlM_append, Option.bind_eq_bind, Option.bind_eq_some_iff,
      ← distributeBatch_foldlM _ _ hlisted₀, toOption_eq_some]
    by_cases hlast : batches = []
    · -- the final batch
      subst hlast
      obtain rfl : calls = [] := List.map_eq_nil_iff.mp hcalls
      simp only [hcall, List.isEmpty_nil, if_true, List.foldlM_nil, List.flatMap_nil,
        Option.pure_def, Option.some.injEq]
      constructor
      · rintro ⟨_, ⟨ranked, winning, paid, hranking, hbatch, rfl⟩, rfl⟩
        exact ⟨ranked, winning, paid, hranking, ⟨paid, hbatch, rfl⟩, rfl⟩
      · rintro ⟨ranked, winning, _, hranking, ⟨paid, hbatch, rfl⟩, rfl⟩
        exact ⟨_, ⟨ranked, winning, paid, hranking, hbatch, rfl⟩, rfl⟩
    · -- a batch that others follow, which go by the same terms
      simp only [hcall, List.isEmpty_eq_false_iff.mpr hlast, Bool.false_eq_true, if_false]
      have hrest : ∀ ranked winning paid, rankingFor st isFirstBatch = .ok (ranked, winning) →
          distributeBatch winning st.pot (st.periodAt now) ranked b.1 b.2 = .ok paid →
          (acceptAll (exec api) paid calls = some st' ↔ ∃ last,
            (batches.flatMap pairsOf).foldlM (pay winning st.pot (st.periodAt now)) paid = some last ∧
            st' = last.settle st.pot (some (st.periodAt now).newStart)) := by
        intro ranked winning paid hranking hbatch
        obtain ⟨hconfig, hreward, htime', hranking'⟩ := batch_leaves hranking hbatch
        have hperiod' : paid.periodAt now = st.periodAt now := by
          rw [Storage.periodAt, htime', hconfig, Storage.periodAt]
        rw [ih hlast hcalls hlisted (hconfig ▸ hsender) htime (htime' ▸ hnext) (hreward ▸ hpot),
          hranking', hperiod', hreward]
        constructor
        · rintro ⟨_, _, last, heq, hpaid, rfl⟩
          cases heq
          exact ⟨last, hpaid, rfl⟩
        · rintro ⟨last, hpaid, rfl⟩
          exact ⟨paid, winning, last, rfl, hpaid, rfl⟩
      constructor
      · rintro ⟨_, ⟨ranked, winning, paid, hranking, hbatch, rfl⟩, hcalls⟩
        obtain ⟨last, hpaid, rfl⟩ := (hrest _ _ _ hranking hbatch).mp hcalls
        exact ⟨ranked, winning, last, hranking, ⟨_, hbatch, hpaid⟩, rfl⟩
      · rintro ⟨ranked, winning, last, hranking, ⟨paid, hbatch, hpaid⟩, rfl⟩
        exact ⟨paid, ⟨ranked, winning, paid, hranking, hbatch, rfl⟩,
          (hrest _ _ _ hranking hbatch).mpr ⟨last, hpaid, rfl⟩⟩

/-- **The outcome of a distribution whose calls are all accepted does not depend on its batches and
their order**, and neither does whether one of its calls is rejected. -/
theorem distribution_perm (api : Api) (st : Storage) (now : Timestamp)
    (pairs : List (String × String)) (way way' : List Call) (hpot : st.pot ≠ 0)
    (hnext : st.nextReward ≤ now) (h : Way st now pairs way) (h' : Way st now pairs way') :
    acceptAll (exec api) st way = acceptAll (exec api) st way' := by
  obtain ⟨batches, hcalls, hlisted, hperm⟩ := h.batches
  obtain ⟨batches', hcalls', hlisted', hperm'⟩ := h'.batches
  have hpairs : (batches.flatMap pairsOf).Perm (batches'.flatMap pairsOf) := hperm.trans hperm'.symm
  by_cases hempty : pairs = []
  -- without pairs there are no batches, since none is empty
  · rw [hempty] at hperm hperm'
    obtain rfl : batches = [] := batches_eq_nil hlisted hperm.eq_nil
    obtain rfl : batches' = [] := batches_eq_nil hlisted' hperm'.eq_nil
    rw [List.map_eq_nil_iff.mp hcalls, List.map_eq_nil_iff.mp hcalls']
  · have hne : batches ≠ [] := by
      rintro rfl
      exact hempty hperm.nil_eq.symm
    have hne' : batches' ≠ [] := by
      rintro rfl
      exact hempty hperm'.nil_eq.symm
    -- both ways pay the same pairs, in two orders
    ext st'
    rw [acceptAll_way hne hcalls hlisted h.sender h.time hnext hpot,
      acceptAll_way hne' hcalls' hlisted' h'.sender h'.time hnext hpot]
    simp only [foldlM_perm pay_comm hpairs]

end Ways

namespace Sample

/-- A batch of the distribution in second 101. -/
def part (stakers : List String) (isFirstBatch isFinalBatch : Bool) : Call :=
  call 101 "admin" (.calculateAndDistributeRewards stakers "club" isFirstBatch isFinalBatch)

/-- Two stakes on the club, which leave no room for the reward of its owner. -/
def crowded : List Call :=
  opened 100 ++ [call 2 "admin" (.assignStakesToAClub [
    ⟨"club", "owner", second 2, 2 ^ 128 - 3, 7, 0, true⟩,
    ⟨"club", "alice", second 2, 1, 7, 0, false⟩] "club")]

end Sample

open Sample in
/-- Three stakers in one batch, or in two; no call is rejected. -/
theorem distribution_perm_sample :
    (acceptAll (exec api) (run (exec api) storage cycleStart)
      [part ["owner", "alice", "bob"] true true]).isSome ∧
    acceptAll (exec api) (run (exec api) storage cycleStart)
        [part ["owner", "alice", "bob"] true true] =
      acceptAll (exec api) (run (exec api) storage cycleStart)
        [part ["bob"] true false, part ["owner", "alice"] false true] :=
  ⟨by decide +kernel,
    distribution_perm api (run (exec api) storage cycleStart) (second 101)
      [("club", "owner"), ("club", "alice"), ("club", "bob")] _ _ (by decide +kernel)
      (by decide +kernel)
      ⟨⟨[("club", ["owner", "alice", "bob"])], rfl, by decide, by decide⟩, by decide +kernel,
        by decide +kernel⟩
      ⟨⟨[("club", ["bob"]), ("club", ["owner", "alice"])], rfl, by decide, by decide⟩,
        by decide +kernel, by decide +kernel⟩⟩

open Sample in
/-- **A rejected batch leaves those before it in force**: the batch of the owner is rejected, as its
stake would leave 128 bits. When it is the first, the batch after it goes by no ranking and is
rejected, too; when it is the final one, the ranking of the first is saved. -/
theorem not_run_perm :
    ¬ ∀ (api : Api) (st : Storage) (cs : List Call) (now : Timestamp) (pairs : List (String × String))
      (way way' : List Call), Initial api st → (run (exec api) st cs).pot ≠ 0 →
      (run (exec api) st cs).nextReward ≤ now → pairs.Nodup →
      (∀ k ∈ pairs, ((run (exec api) st cs).ownership[k.1]?).isSome ∧
        ∀ r ∈ stakesAt (run (exec api) st cs).staking k, r.stakingStartTimestamp ≤ now) →
      Way (run (exec api) st cs) now pairs way → Way (run (exec api) st cs) now pairs way' →
      (run (exec api) (run (exec api) st cs) way).stakingSnapshot =
        (run (exec api) (run (exec api) st cs) way').stakingSnapshot := by
  intro h
  have hsame := h api storage crowded (second 101) [("club", "owner"), ("club", "alice")]
    [part ["owner"] true false, part ["alice"] false true]
    [part ["alice"] true false, part ["owner"] false true] initial (by decide +kernel)
    (by decide +kernel) (by decide) (by decide +kernel)
    ⟨⟨[("club", ["owner"]), ("club", ["alice"])], rfl, by decide, by decide⟩, by decide +kernel,
      by decide +kernel⟩
    ⟨⟨[("club", ["alice"]), ("club", ["owner"])], rfl, by decide, by decide⟩, by decide +kernel,
      by decide +kernel⟩
  have hclub := congrArg (fun snapshot : Store String ℕ => snapshot["club"]?) hsame
  revert hclub
  decide +kernel

end Clubstaking
