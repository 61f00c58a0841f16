import LiquidityContracts.Accounting.ProRata
import LiquidityContracts.Staking.Batch

/-!
# Rankings and rewards

A ranking counts the clubs, adds up their totals, and names winners; no winner has more staked than
the total that the shares of the winners are taken of. The rewards by a ranking are pro rata shares
of 78 per cent of the pot, on the winners of an equal part of 19 more, and premiums of the owners
out of the last three: as long as the stakes are within the totals that were ranked, they are
within the pot together.

## Main definitions

* `Ranks`: what a ranking says about the clubs of a state
* `WinningClubDetails.others`: how many clubs do not win
* `rewardBound`, `ownerPremium`: what a credit is at most

## Main results

* `getWinningClubsDetails_ranks`: the ranking of a state
* `rewardForStake_le`: a reward is within its bound
* `sum_credits_le`: rewards by one ranking are within the pot
-/

namespace Clubstaking

open CosmWasm Accounting

/-- What a ranking says about the clubs of a state. -/
structure Ranks (st : Storage) (winning : WinningClubDetails) : Prop where
  inRange : st.ownership.keys.length < Uint64.bound
  number : winning.totalNumberOfClubs = st.ownership.keys.length
  total : winning.totalStakeAcrossAllClubs = (st.ownership.keys.map st.total).sum
  winners : winning.winnerList.Sublist st.ownership.keys
  largest : ∀ c ∈ winning.winnerList, st.total c ≤ winning.totalStakeInWinningClub

/-! ## The loop over the clubs -/

/-- The variables of the loop after some clubs. -/
structure Ranked (st : Storage) (clubs : List String) (acc : Ranking) : Prop where
  number : acc.totalNumberOfClubs = clubs.length
  total : acc.totalStakeAcrossAllClubs = (clubs.map st.total).sum
  winners : acc.winners.Sublist clubs
  largest : ∀ c ∈ acc.winners, st.total c ≤ acc.totalStakeInWinningClub
  maximum : acc.maxTotalStakeValue = acc.totalStakeInWinningClub

section Loop

variable {st st' : Storage} {clubs : List String} {acc acc' : Ranking} {club : String}
  {winning : WinningClubDetails}

/-- A club that wins has the largest total of the winners, as it is not less than theirs. -/
theorem enter_spec (club : String) (h : Ranked st clubs acc) (difference : ℤ) :
    let acc' := acc.enter club difference (st.total club)
    acc'.totalNumberOfClubs = clubs.length ∧
      acc'.totalStakeAcrossAllClubs = (clubs.map st.total).sum ∧
      acc'.winners.Sublist (clubs ++ [club]) ∧
      (∀ c ∈ acc'.winners, st.total c ≤ acc'.totalStakeInWinningClub) ∧
      acc'.maxTotalStakeValue = acc'.totalStakeInWinningClub := by
  dsimp only
  unfold Ranking.enter
  split
  -- the club is ahead of all before it, and wins alone
  · refine ⟨h.number, h.total, List.sublist_append_right _ _, fun c hc => ?_, rfl⟩
    rw [List.mem_singleton.mp hc]
  · split
    -- the club is level with the winners, and joins them
    · rename_i hjoin
      refine ⟨h.number, h.total, h.winners.append_right _, fun c hc => ?_, rfl⟩
      rcases List.mem_append.mp hc with hc | hc
      · have hle := h.largest c hc
        rw [← h.maximum] at hle
        exact hle.trans hjoin.2
      · rw [List.mem_singleton.mp hc]
    · exact ⟨h.number, h.total, h.winners.trans (List.sublist_append_left _ _), h.largest,
        h.maximum⟩

theorem rankClub_spec (h : Ranked st clubs acc) (hlt : clubs.length + 1 < Uint64.bound)
    (hround : rankClub st acc club = (.ok acc' : Exec ContractError Ranking)) :
    Ranked st (clubs ++ [club]) acc' := by
  unfold rankClub at hround
  obtain ⟨details, hdetails, hround⟩ := bind_eq_ok.mp hround
  obtain ⟨total, htotal, hround⟩ := bind_eq_ok.mp hround
  obtain ⟨-, rfl⟩ := Uint128.add_eq_ok.mp htotal
  obtain rfl := pure_eq_ok.mp hround
  -- what is ranked is the total that is stored for the club
  rw [← total_of_get (queryClubOwnershipDetails_eq_ok hdetails)]
  obtain ⟨hnumber, -, hwinners, hlargest, hmaximum⟩ := enter_spec club h _
  refine ⟨?_, ?_, hwinners, hlargest, hmaximum⟩
  · rw [List.length_append, List.length_singleton, ← Uint64.add_of_lt hlt]
    exact congrArg (Uint64.add · 1) hnumber
  · rw [List.map_append, List.sum_append, ← h.total]
    simp

/-- **The ranking of a state.** -/
theorem getWinningClubsDetails_ranks
    (h : getWinningClubsDetails st = (.ok (st', winning) : Exec ContractError _)) :
    Ranks st winning := by
  unfold getWinningClubsDetails at h
  obtain ⟨keys, hkeys, h⟩ := bind_eq_ok.mp h
  obtain ⟨acc, hloop, h⟩ := bind_eq_ok.mp h
  cases pure_eq_ok.mp h
  obtain ⟨hlt, rfl⟩ := provided_eq_ok.mp hkeys
  have hlt : st.ownership.keys.length < Uint64.bound := hlt.trans (by decide)
  -- the clubs that are done and those that remain are all clubs
  have hrule := foldlM_remaining
    (I := fun rest acc => ∃ clubs, clubs ++ rest = st.ownership.keys ∧ Ranked st clubs acc)
    ?_ ⟨[], rfl, rfl, rfl, List.Sublist.refl [], fun _ hc => absurd hc List.not_mem_nil, rfl⟩ hloop
  · obtain ⟨clubs, hclubs, hranked⟩ := hrule
    rw [List.append_nil] at hclubs
    rw [hclubs] at hranked
    exact ⟨hlt, hranked.number, hranked.total, hranked.winners, hranked.largest⟩
  · rintro club rest acc₁ acc₂ ⟨clubs, hclubs, hranked⟩ hround
    have hlen : clubs.length + (club :: rest).length = st.ownership.keys.length := by
      rw [← hclubs, List.length_append]
    rw [List.length_cons] at hlen
    refine ⟨clubs ++ [club], ?_, rankClub_spec hranked (by omega) hround⟩
    rw [List.append_assoc]
    exact hclubs

end Loop

/-! ## The bound of a reward -/

section Bound

variable (winning : WinningClubDetails) (pot : ℕ)

/-- How many clubs do not win, computed in 64 bits. -/
def WinningClubDetails.others : ℕ :=
  Uint64.sub winning.totalNumberOfClubs winning.winnerList.length

/-- What the owner of a club is given: the winners share one per cent, or three when all clubs
win, and the other clubs share two. -/
def ownerPremium (clubName : String) : ℕ :=
  if clubName ∈ winning.winnerList then
    if 0 < winning.others then pot / 100 / winning.winnerList.length
    else 3 * pot / 100 / winning.winnerList.length
  else 2 * pot / 100 / winning.others

/-- The share of a stake in 19 per cent of the pot, divided over the winners. -/
def winnerShare (x : Credit) : ℕ :=
  share (19 * pot / 100 / winning.winnerList.length) x.stakedAmount winning.totalStakeInWinningClub

/-- What a credit is at most: the shares of the stake and the premium of the owner. -/
def rewardBound (owner : String → String) (x : Credit) : ℕ :=
  share (78 * pot / 100) x.stakedAmount winning.totalStakeAcrossAllClubs +
    (if x.clubName ∈ winning.winnerList then winnerShare winning pot x else 0) +
    (if x.stakerAddress = owner x.clubName then ownerPremium winning pot x.clubName else 0)

end Bound

section Terms

variable {winning : WinningClubDetails} {club : ClubOwnershipDetails} {clubName : String}
  {totalReward pot reward : ℕ} {terms : RewardTerms} {r : ClubStakingDetails}

theorem percentOf_le (percent : ℕ) (h : totalReward ≤ pot) :
    percentOf percent totalReward ≤ percent * pot / 100 := by
  rw [percentOf, Uint128.divOrZero_eq]
  refine Nat.div_le_div_right ((Uint128.mulOrZero_le _ _).trans ?_)
  rw [Nat.mul_comm]
  exact Nat.mul_le_mul_left percent h

theorem shareOf_le (staked total : ℕ) {a b : ℕ} (h : a ≤ b) :
    shareOf a staked total ≤ share b staked total := by
  rw [shareOf, Uint128.divOrZero_eq]
  exact (Nat.div_le_div_right (Uint128.mulOrZero_le _ _)).trans (share_mono h)

/-- The terms of a club are within those of the whole pot. -/
theorem rewardTerms_spec (h : rewardTerms winning club clubName totalReward = .ok terms)
    (hpot : totalReward ≤ pot) :
    terms.allStakersReward ≤ 78 * pot / 100 ∧
      terms.totalStakeAcrossAllClubs = winning.totalStakeAcrossAllClubs ∧
      (terms.isClubAWinner = true ↔ clubName ∈ winning.winnerList) ∧
      terms.rewardForAllStakersInWinningClub ≤ 19 * pot / 100 / winning.winnerList.length ∧
      terms.totalStakeInWinningClub = winning.totalStakeInWinningClub ∧
      terms.clubOwnerAddress = club.ownerAddress ∧
      terms.ownerReward ≤ ownerPremium winning pot clubName := by
  unfold rewardTerms at h
  obtain ⟨-, h⟩ := refuseGeneric_bind_eq_ok.mp h
  obtain rfl := pure_eq_ok.mp h
  refine ⟨percentOf_le 78 hpot, rfl, List.contains_iff_mem, ?_, rfl, rfl, ?_⟩
  · dsimp only
    split
    · rw [Uint128.divOrZero_eq]
      exact Nat.div_le_div_right (percentOf_le 19 hpot)
    · exact Nat.zero_le _
  -- three premiums: the only winner, one of several, and a club that does not win
  · simp only [List.contains_iff_mem, Uint128.divOrZero_eq]
    unfold ownerPremium WinningClubDetails.others
    split
    · split
      · exact Nat.div_le_div_right (Nat.div_le_div_right hpot)
      · exact Nat.div_le_div_right (percentOf_le 3 hpot)
    · exact Nat.div_le_div_right (percentOf_le 2 hpot)

/-- **A reward** is within its bound. -/
theorem rewardForStake_le (h : rewardForStake terms r = .ok reward)
    (hterms : rewardTerms winning club clubName totalReward = .ok terms) (hpot : totalReward ≤ pot)
    {owner : String → String} (howner : owner clubName = club.ownerAddress) :
    reward ≤ rewardBound winning pot owner
      ⟨clubName, r.stakerAddress, r.stakedAmount, r.autoStake, reward⟩ := by
  obtain ⟨hall, htotal, hwins, hwinners, hwinning, hclub, hpremium⟩ := rewardTerms_spec hterms hpot
  unfold rewardForStake at h
  obtain ⟨shares, hshares, h⟩ := bind_eq_ok.mp h
  -- a share of all stakes, and in a winning club one of its stakes
  have hsharesle : shares ≤ share (78 * pot / 100) r.stakedAmount winning.totalStakeAcrossAllClubs +
      (if clubName ∈ winning.winnerList then
        winnerShare winning pot ⟨clubName, r.stakerAddress, r.stakedAmount, r.autoStake, reward⟩
      else 0) := by
    have hfirst := shareOf_le r.stakedAmount terms.totalStakeAcrossAllClubs hall
    rw [htotal] at hfirst
    split at hshares
    · rename_i hw
      obtain ⟨-, rfl⟩ := Uint128.add_eq_ok.mp hshares
      rw [if_pos (hwins.mp hw), winnerShare, htotal, ← hwinning]
      exact Nat.add_le_add hfirst (shareOf_le _ _ hwinners)
    · rw [← pure_eq_ok.mp hshares, htotal]
      exact hfirst.trans (Nat.le_add_right _ _)
  unfold rewardBound
  dsimp only
  rw [howner, ← hclub]
  split at h
  -- the owner of the club gets the premium on top
  · rename_i howns
    obtain ⟨-, rfl⟩ := Uint128.add_eq_ok.mp h
    rw [if_pos howns]
    exact Nat.add_le_add hsharesle hpremium
  · rename_i howns
    rw [if_neg howns, ← pure_eq_ok.mp h]
    exact hsharesle

end Terms

/-! ## The rewards of a ranking -/

section Sum

variable {st : Storage} {winning : WinningClubDetails} {pot : ℕ} {S : Finset Credit}

/-- A ranking leaves the clubs that do not win. -/
theorem Ranks.others_eq (h : Ranks st winning) :
    winning.others = winning.totalNumberOfClubs - winning.winnerList.length := by
  refine Uint64.sub_of_le ?_ ?_
  · rw [h.number]
    exact h.inRange
  · rw [h.number]
    exact h.winners.length_le

/-- The premiums of all owners are within three per cent. -/
theorem sum_ownerPremium_le (h : Ranks st winning) :
    ∑ c ∈ st.ownership.keys.toFinset, ownerPremium winning pot c ≤ 3 * pot / 100 := by
  have hkeys := Store.nodup_keys st.ownership
  have hnodup := h.winners.nodup hkeys
  have hsub : winning.winnerList.toFinset ⊆ st.ownership.keys.toFinset :=
    fun c hc => List.mem_toFinset.mpr (h.winners.subset (List.mem_toFinset.mp hc))
  have hcard : winning.winnerList.toFinset.card = winning.winnerList.length :=
    List.toFinset_card_of_nodup hnodup
  have hrest : (st.ownership.keys.toFinset \ winning.winnerList.toFinset).card =
      winning.others := by
    rw [Finset.card_sdiff_of_subset hsub, hcard, List.toFinset_card_of_nodup hkeys, h.others_eq,
      h.number]
  -- the winners and the other clubs each have an equal part
  rw [← Finset.sum_sdiff hsub]
  have hothers : ∑ c ∈ st.ownership.keys.toFinset \ winning.winnerList.toFinset,
      ownerPremium winning pot c = winning.others * (2 * pot / 100 / winning.others) := by
    rw [← hrest, ← smul_eq_mul]
    refine Finset.sum_eq_card_nsmul fun c hc => ?_
    rw [Finset.mem_sdiff, List.mem_toFinset, List.mem_toFinset] at hc
    rw [ownerPremium, if_neg hc.2, hrest]
  have hwinners : ∑ c ∈ winning.winnerList.toFinset, ownerPremium winning pot c =
      winning.winnerList.length * if 0 < winning.others then
        pot / 100 / winning.winnerList.length else 3 * pot / 100 / winning.winnerList.length := by
    rw [Finset.sum_eq_card_nsmul fun c hc => ?_, hcard, smul_eq_mul]
    rw [ownerPremium, if_pos (List.mem_toFinset.mp hc)]
  rw [hothers, hwinners]
  split
  · have h₁ := Nat.mul_div_le (pot / 100) winning.winnerList.length
    have h₂ := Nat.mul_div_le (2 * pot / 100) winning.others
    omega
  · rename_i hall
    rw [Nat.eq_zero_of_not_pos hall, Nat.zero_mul, Nat.zero_add]
    exact Nat.mul_div_le _ _

/-- **Rewards by one ranking** are within the pot, when no stake is given one twice and the stakes
of each club are within the total that was ranked. -/
theorem sum_credits_le (h : Ranks st winning) {owner : String → String}
    (hclubs : ∀ x ∈ S, x.clubName ∈ st.ownership.keys)
    (honce : ∀ x ∈ S, ∀ y ∈ S, x.clubName = y.clubName → x.stakerAddress = y.stakerAddress → x = y)
    (hbound : ∀ x ∈ S, x.reward ≤ rewardBound winning pot owner x)
    (hstaked : ∀ c ∈ st.ownership.keys,
      ∑ x ∈ S with x.clubName = c, x.stakedAmount ≤ st.total c) :
    ∑ x ∈ S, x.reward ≤ pot := by
  have hgroups : ∀ x ∈ S, x.clubName ∈ st.ownership.keys.toFinset :=
    fun x hx => List.mem_toFinset.mpr (hclubs x hx)
  have hnodup := h.winners.nodup (Store.nodup_keys st.ownership)
  -- 78 per cent, over all stakes
  have hall : ∑ x ∈ S, share (78 * pot / 100) x.stakedAmount winning.totalStakeAcrossAllClubs ≤
      78 * pot / 100 := by
    refine sum_share_le ?_
    rw [h.total, ← List.sum_toFinset _ (Store.nodup_keys st.ownership)]
    exact sum_le_of_groups hgroups fun c hc => hstaked c (List.mem_toFinset.mp hc)
  -- 19 per cent, over the stakes on the winners
  have hwinners : ∑ x ∈ S with x.clubName ∈ winning.winnerList, winnerShare winning pot x ≤
      19 * pot / 100 := by
    have hmul : ∑ x ∈ S with x.clubName ∈ winning.winnerList, winnerShare winning pot x ≤
        winning.winnerList.toFinset.card * (19 * pot / 100 / winning.winnerList.length) := by
      refine sum_share_le_card_mul (g := Credit.clubName)
        (fun x hx => List.mem_toFinset.mpr (Finset.mem_filter.mp hx).2) fun c hc => ?_
      have hwinner := List.mem_toFinset.mp hc
      refine le_trans (Finset.sum_le_sum_of_subset ?_)
        ((hstaked c (h.winners.subset hwinner)).trans (h.largest c hwinner))
      exact Finset.filter_subset_filter _ (Finset.filter_subset _ _)
    rw [List.toFinset_card_of_nodup hnodup] at hmul
    exact hmul.trans (Nat.mul_div_le _ _)
  -- three per cent, for the owners
  have howners : ∑ x ∈ S with x.stakerAddress = owner x.clubName,
      ownerPremium winning pot x.clubName ≤ 3 * pot / 100 := by
    refine le_trans (sum_premium_le hgroups fun x hx y hy hxo hyo hxy => ?_)
      (sum_ownerPremium_le h)
    exact honce x hx y hy hxy (by rw [hxo, hyo, hxy])
  calc ∑ x ∈ S, x.reward ≤ ∑ x ∈ S, rewardBound winning pot owner x := Finset.sum_le_sum hbound
    _ ≤ 78 * pot / 100 + 19 * pot / 100 + 3 * pot / 100 := by
      unfold rewardBound
      rw [Finset.sum_add_distrib, Finset.sum_add_distrib, ← Finset.sum_filter, ← Finset.sum_filter]
      exact Nat.add_le_add (Nat.add_le_add hall hwinners) howners
    _ ≤ pot := by omega

end Sum

end Clubstaking
