import LiquidityContracts.Staking.Effect
import LiquidityContracts.Staking.Ranking

/-!
# The winning clubs

The clubs are ranked by how much their stakes have grown since the last ranking, and by their
stakes where they have grown by the same. The contract finds the winners in one pass over the
clubs. A club that is level with the winners in its increase and has no less staked joins them; as
the maximum is raised before it is compared with, one that has more staked joins them as well, and
those with less stay. So the winners are the clubs of the best standing when the first club of the
largest increase has the largest stake of these, and not otherwise.

## Main definitions

* `Storage.increment`, `Storage.difference`: the increase of a stake, and as it is computed
* `Storage.Wins`: no club has a better standing
* `NamesWinners`: the ranking names the clubs of the best standing
* `Decided`: the sums are in range, and the first club of the largest increase is not overtaken

## Main results

* `Leads.enter`: what the pass knows of the clubs it has seen
* `namesWinners_iff`: the ranking names the winners of the states that are decided
* `not_namesWinners`: a club that is overtaken, and named
-/

namespace Clubstaking

open CosmWasm

namespace Storage

variable (st : Storage) (club : String)

/-- The stake on a club that the last ranking has saved. -/
def snapshot : ℕ := (st.stakingSnapshot[club]?).getD 0

/-- How much the stake on a club has grown since the last ranking. -/
def increment : ℤ := (st.total club : ℤ) - st.snapshot club

/-- The increase as it is computed, in signed integers of 128 bits. -/
def difference : ℤ :=
  Int128.sub (Int128.ofUint128 (st.total club)) (Int128.ofUint128 (st.snapshot club))

/-- The standing of a club: its increase counts first, then its stake. -/
def standing : ℤ ×ₗ ℕ := toLex (st.increment club, st.total club)

/-- A club wins when no club has a better standing. -/
def Wins : Prop :=
  club ∈ st.ownership.keys ∧ ∀ d ∈ st.ownership.keys, st.standing d ≤ st.standing club

end Storage

/-- The clubs fit in a vector, and their stakes in an integer. -/
structure InRange (st : Storage) : Prop where
  number : st.ownership.keys.length < Uint32.bound
  total : (st.ownership.keys.map st.total).sum < Uint128.bound

/-- A ranking names the winners, with their stake, and saves the stakes it went by. -/
structure Names (st st' : Storage) (winning : WinningClubDetails) : Prop where
  winners : ∀ c, c ∈ winning.winnerList ↔ st.Wins c
  once : winning.winnerList.Nodup
  stake : ∀ c, st.Wins c → winning.totalStakeInWinningClub = st.total c
  number : winning.totalNumberOfClubs = st.ownership.keys.length
  total : winning.totalStakeAcrossAllClubs = (st.ownership.keys.map st.total).sum
  snapshot : ∀ c ∈ st.ownership.keys, st'.stakingSnapshot[c]? = some (st.total c)

/-- The ranking of a state succeeds, and names the winners. -/
def NamesWinners (st : Storage) : Prop :=
  ∃ st' winning, getWinningClubsDetails st = (.ok (st', winning) : Exec ContractError _) ∧
    Names st st' winning

/-- The stakes are in the signed range, and some club has not lost more than the pass starts from. -/
structure Rankable (st : Storage) : Prop where
  stakes : ∀ c ∈ st.ownership.keys, st.total c < 2 ^ 127
  gains : ∃ c ∈ st.ownership.keys, -maxUfuryCount < st.increment c

/-- A club stays behind one that is ranked before it: its increase is smaller, or as large with
less staked, or its standing is the same and its increase does not wrap around. -/
def Behind (st : Storage) (c d : String) : Prop :=
  st.difference d < st.difference c ∨ st.difference d = st.difference c ∧
    (st.total d < st.total c ∨ st.total d = st.total c ∧ -2 ^ 127 ≤ st.increment d)

/-- The sums of the ranking are in range, and there is a club that has a larger increase than those
before it, and that no club after it overtakes. -/
structure Decided (st : Storage) : Prop where
  range : InRange st
  leader : ∃ before c after, st.ownership.keys = before ++ c :: after ∧
    -2 ^ 127 ≤ st.increment c ∧ (∀ d ∈ before, st.difference d < st.difference c) ∧
    ∀ d ∈ after, Behind st c d

/-! ## One pass over the clubs -/

/-- What the pass knows of the clubs it has seen. A largest increase above the value it starts from
is that of a first club, which wins. -/
structure Leads (st : Storage) (clubs : List String) (acc : Ranking) : Prop where
  start : -maxUfuryCount ≤ acc.maxIncrementalStakeValue
  largest : ∀ d ∈ clubs, st.difference d ≤ acc.maxIncrementalStakeValue
  winners : ∀ c ∈ acc.winners, c ∈ clubs ∧ st.difference c = acc.maxIncrementalStakeValue
  level : ∀ d ∈ clubs, st.difference d = acc.maxIncrementalStakeValue →
    st.total d ≤ acc.maxTotalStakeValue ∧ (st.total d = acc.maxTotalStakeValue → d ∈ acc.winners)
  first : -maxUfuryCount < acc.maxIncrementalStakeValue → ∃ before c after,
    clubs = before ++ c :: after ∧ (∀ d ∈ before, st.difference d < acc.maxIncrementalStakeValue) ∧
    c ∈ acc.winners ∧ (∀ w ∈ acc.winners, st.total c ≤ st.total w) ∧
    ∃ w ∈ acc.winners, st.total w = acc.maxTotalStakeValue

section Pass

variable {st : Storage} {clubs rest : List String} {acc acc' : Ranking} {club : String}

/-- **One club more.** -/
theorem Leads.enter (h : Leads st clubs acc) (club : String) :
    Leads st (clubs ++ [club]) (acc.enter club (st.difference club) (st.total club)) := by
  have hclubs : ∀ d, d ∈ clubs ++ [club] → d ∈ clubs ∨ d = club := by simp
  unfold Ranking.enter
  split
  -- the club is ahead of all before it, and is the first of its increase
  · rename_i hahead
    refine ⟨h.start.trans hahead.le, fun d hd => ?_, fun c hc => ?_, fun d hd hlevel => ?_,
      fun _ => ⟨clubs, club, [], rfl, fun d hd => (h.largest d hd).trans_lt hahead, ?_⟩⟩
    · rcases hclubs d hd with hd | rfl
      · exact (h.largest d hd).trans hahead.le
      · exact le_rfl
    · obtain rfl := List.mem_singleton.mp hc
      exact ⟨by simp, rfl⟩
    · rcases hclubs d hd with hd | rfl
      · exact absurd hlevel ((h.largest d hd).trans_lt hahead).ne
      · exact ⟨le_rfl, fun _ => List.mem_singleton_self d⟩
    · exact ⟨List.mem_singleton_self club, by simp, club, List.mem_singleton_self club, rfl⟩
  · rename_i hahead
    split
    -- the club is level with the winners and has no less staked: it joins them
    · rename_i hjoins
      obtain ⟨hlevel, hmore⟩ := hjoins
      refine ⟨h.start, fun d hd => ?_, fun c hc => ?_, fun d hd hd' => ?_, fun hpos => ?_⟩
      · rcases hclubs d hd with hd | rfl
        · exact h.largest d hd
        · exact hlevel.le
      · rcases List.mem_append.mp hc with hc | hc
        · exact ⟨List.mem_append_left _ (h.winners c hc).1, (h.winners c hc).2⟩
        · obtain rfl := List.mem_singleton.mp hc
          exact ⟨by simp, hlevel⟩
      · rcases hclubs d hd with hd | rfl
        · obtain ⟨hle, hwins⟩ := h.level d hd hd'
          refine ⟨hle.trans hmore, fun heq => List.mem_append_left _ (hwins ?_)⟩
          exact le_antisymm hle (hmore.trans heq.ge)
        · exact ⟨le_rfl, fun _ => by simp⟩
      · obtain ⟨before, c, after, rfl, hbefore, hc, hleast, -⟩ := h.first hpos
        refine ⟨before, c, after ++ [club], by simp, hbefore, List.mem_append_left _ hc,
          fun w hw => ?_, club, by simp, rfl⟩
        rcases List.mem_append.mp hw with hw | hw
        · exact hleast w hw
        · obtain rfl := List.mem_singleton.mp hw
          exact (h.level c (by simp) (h.winners c hc).2).1.trans hmore
    -- the club is behind
    · rename_i hjoins
      refine ⟨h.start, fun d hd => ?_, fun c hc => ?_, fun d hd hd' => ?_, fun hpos => ?_⟩
      · rcases hclubs d hd with hd | rfl
        · exact h.largest d hd
        · exact not_lt.mp hahead
      · exact ⟨List.mem_append_left _ (h.winners c hc).1, (h.winners c hc).2⟩
      · rcases hclubs d hd with hd | rfl
        · exact h.level d hd hd'
        · have hless : st.total d < acc.maxTotalStakeValue :=
            not_le.mp fun hmore => hjoins ⟨hd', hmore⟩
          exact ⟨hless.le, fun heq => absurd heq hless.ne⟩
      · obtain ⟨before, c, after, rfl, hrest⟩ := h.first hpos
        exact ⟨before, c, after ++ [club], by simp, hrest⟩

/-- The variables of the loop when some clubs are done and some remain. -/
structure Walk (st : Storage) (clubs rest : List String) (acc : Ranking) : Prop where
  number : st.ownership.keys.length < Uint32.bound
  keys : clubs ++ rest = st.ownership.keys
  ranked : Ranked st clubs acc
  leads : Leads st clubs acc
  total : (clubs.map st.total).sum < Uint128.bound
  saved : ∀ c ∈ clubs, acc.stakingSnapshot[c]? = some (st.total c)
  kept : ∀ c ∈ rest, acc.stakingSnapshot[c]? = st.stakingSnapshot[c]?

theorem enter_frame (acc : Ranking) (club : String) (difference : ℤ) (stakeInClub : ℕ) :
    (acc.enter club difference stakeInClub).totalNumberOfClubs = acc.totalNumberOfClubs ∧
      (acc.enter club difference stakeInClub).stakingSnapshot = acc.stakingSnapshot := by
  unfold Ranking.enter
  split
  · exact ⟨rfl, rfl⟩
  · split
    · exact ⟨rfl, rfl⟩
    · exact ⟨rfl, rfl⟩

/-- A round of the loop succeeds when the stakes sum up in range, and saves that of the club. -/
theorem rankClub_eq_ok (h : Walk st clubs (club :: rest) acc) :
    (rankClub st acc club = (.ok acc' : Exec ContractError Ranking)) ↔
      ((clubs ++ [club]).map st.total).sum < Uint128.bound ∧
      acc' = { acc.enter club (st.difference club) (st.total club) with
        totalNumberOfClubs := Uint64.add acc.totalNumberOfClubs 1
        totalStakeAcrossAllClubs := acc.totalStakeAcrossAllClubs + st.total club
        stakingSnapshot := acc.stakingSnapshot.insert club (st.total club) } := by
  have hclub : club ∈ st.ownership.keys := by
    rw [← h.keys]
    simp
  obtain ⟨owner, howner⟩ := (Store.mem_keys_iff st.ownership club).mp hclub
  have hdetails : (queryClubOwnershipDetails st club : Exec ContractError _) = .ok owner := by
    rw [queryClubOwnershipDetails, howner]
    rfl
  obtain ⟨hnumber, hsnapshot⟩ := enter_frame acc club (st.difference club) (st.total club)
  have hprevious : (acc.stakingSnapshot[club]?).getD 0 = st.snapshot club := by
    rw [h.kept club List.mem_cons_self]
    rfl
  rw [List.map_append, List.sum_append, List.map_singleton, List.sum_singleton, ← h.ranked.total,
    ← hnumber, ← hsnapshot]
  unfold rankClub
  rw [bind_of_eq_ok hdetails, hprevious, ← total_of_get howner]
  constructor
  · intro hround
    obtain ⟨total, htotal, hround⟩ := bind_eq_ok.mp hround
    obtain ⟨hsum, rfl⟩ := Uint128.add_eq_ok.mp htotal
    exact ⟨hsum, (pure_eq_ok.mp hround).symm⟩
  · rintro ⟨hsum, rfl⟩
    rw [bind_of_eq_ok (Uint128.add_eq_ok.mpr ⟨hsum, rfl⟩)]
    rfl

theorem Walk.round (h : Walk st clubs (club :: rest) acc)
    (hround : rankClub st acc club = (.ok acc' : Exec ContractError Ranking)) :
    Walk st (clubs ++ [club]) rest acc' := by
  have hkeys : (clubs ++ club :: rest).Nodup := h.keys ▸ Store.nodup_keys _
  -- the clubs are too few for their counter to wrap around
  have hlt : clubs.length + 1 < Uint64.bound := by
    have hnumber : st.ownership.keys.length < Uint64.bound := h.number.trans (by decide)
    rw [← h.keys, List.length_append, List.length_cons] at hnumber
    omega
  have hranked := rankClub_spec h.ranked hlt hround
  obtain ⟨htotal, rfl⟩ := (rankClub_eq_ok h).mp hround
  have hleads := h.leads.enter club
  refine ⟨h.number, ?_, hranked,
    ⟨hleads.start, hleads.largest, hleads.winners, hleads.level, hleads.first⟩, htotal,
    fun c hc => ?_, fun c hc => ?_⟩
  · rw [List.append_assoc]
    exact h.keys
  · rcases List.mem_append.mp hc with hc | hc
    · have hne : club ≠ c := by
        rintro rfl
        exact (List.nodup_append.mp hkeys).2.2 _ hc _ List.mem_cons_self rfl
      exact (Store.get_insert_of_ne _ _ hne).trans (h.saved c hc)
    · obtain rfl := List.mem_singleton.mp hc
      exact Store.get_insert_self ..
  -- the stakes of the clubs that remain are those of the last ranking
  · have hne : club ≠ c := by
      rintro rfl
      exact (List.nodup_cons.mp (List.nodup_append.mp hkeys).2.1).1 hc
    exact (Store.get_insert_of_ne _ _ hne).trans (h.kept c (List.mem_cons_of_mem _ hc))

theorem Walk.start (h : st.ownership.keys.length < Uint32.bound) :
    Walk st [] st.ownership.keys { stakingSnapshot := st.stakingSnapshot } := by
  refine ⟨h, rfl, ⟨rfl, rfl, List.Sublist.refl [], nofun, rfl⟩,
    ⟨le_rfl, nofun, nofun, nofun, fun h => absurd h (lt_irrefl _)⟩, Nat.two_pow_pos 128, nofun,
    fun _ _ => rfl⟩

/-- A pass that succeeds has walked over all clubs. -/
theorem getWinningClubsDetails_walk {st' : Storage} {winning : WinningClubDetails}
    (h : getWinningClubsDetails st = (.ok (st', winning) : Exec ContractError _)) :
    ∃ acc, Walk st st.ownership.keys [] acc ∧
      st' = { st with stakingSnapshot := acc.stakingSnapshot } ∧
      winning = ⟨acc.totalNumberOfClubs, acc.totalStakeAcrossAllClubs,
        acc.totalStakeInWinningClub, acc.winners⟩ := by
  unfold getWinningClubsDetails at h
  obtain ⟨keys, hkeys, h⟩ := bind_eq_ok.mp h
  obtain ⟨acc, hloop, h⟩ := bind_eq_ok.mp h
  cases pure_eq_ok.mp h
  obtain ⟨hnumber, rfl⟩ := provided_eq_ok.mp hkeys
  obtain ⟨clubs, hwalk⟩ := foldlM_remaining (I := fun rest acc => ∃ clubs, Walk st clubs rest acc)
    (fun club rest acc acc' ⟨clubs, hwalk⟩ hround => ⟨_, hwalk.round hround⟩)
    ⟨[], Walk.start hnumber⟩ hloop
  obtain rfl : clubs = st.ownership.keys := (List.append_nil clubs).symm.trans hwalk.keys
  exact ⟨acc, hwalk, rfl, rfl⟩

/-- The stakes on the clubs that a pass has seen, and on one more, are part of all. -/
theorem Walk.sum_le (h : Walk st clubs (club :: rest) acc) :
    ((clubs ++ [club]).map st.total).sum ≤ (st.ownership.keys.map st.total).sum := by
  have hkeys : st.ownership.keys.map st.total = (clubs ++ [club]).map st.total ++ rest.map st.total := by
    rw [← h.keys, List.append_cons, List.map_append]
  rw [hkeys, List.sum_append]
  exact Nat.le_add_right _ _

/-- The pass succeeds when the clubs are in range. -/
theorem getWinningClubsDetails_succeeds (h : InRange st) :
    ∃ st' winning, getWinningClubsDetails st = (.ok (st', winning) : Exec ContractError _) := by
  have hround : ∀ club rest acc, (∃ clubs, Walk st clubs (club :: rest) acc) →
      ∃ acc', rankClub st acc club = (.ok acc' : Exec ContractError Ranking) ∧
        ∃ clubs, Walk st clubs rest acc' := by
    rintro club rest acc ⟨clubs, hwalk⟩
    have hok := (rankClub_eq_ok hwalk).mpr ⟨hwalk.sum_le.trans_lt h.total, rfl⟩
    exact ⟨_, hok, _, hwalk.round hok⟩
  obtain ⟨acc, hloop⟩ := foldlM_succeeds (I := fun rest acc => ∃ clubs, Walk st clubs rest acc)
    hround ⟨[], Walk.start h.number⟩
  unfold getWinningClubsDetails
  rw [allClubs, bind_of_eq_ok (provided_eq_ok.mpr ⟨h.number, rfl⟩), bind_of_eq_ok hloop]
  exact ⟨_, _, rfl⟩

end Pass

/-! ## The winners -/

section Winners

variable {st : Storage} {c d : String}

/-- An increase in the signed range is as it is computed. -/
theorem difference_of_le (htotal : st.total c < 2 ^ 127) (h : -2 ^ 127 ≤ st.increment c) :
    st.difference c = st.increment c := by
  rw [Storage.difference, Int128.sub_ofUint128]
  refine Int.bmod_eq_of_le (by exact h) ?_
  change (st.total c : ℤ) - st.snapshot c < 2 ^ 127
  omega

theorem standing_le_iff : st.standing d ≤ st.standing c ↔
    st.increment d < st.increment c ∨ st.increment d = st.increment c ∧ st.total d ≤ st.total c :=
  Prod.Lex.toLex_le_toLex

/-- No increase is computed too small: one below the signed range wraps around into it. -/
theorem increment_le_difference (htotal : st.total c < 2 ^ 127) :
    st.increment c ≤ st.difference c := by
  by_cases h : -2 ^ 127 ≤ st.increment c
  · exact (difference_of_le htotal h).ge
  · rw [Storage.difference, Int128.sub_ofUint128]
    exact (not_le.mp h).le.trans (Int.le_bmod (by decide))

/-- The increase of a winner is in the signed range: it is no less than that of a club which has not
lost much. -/
theorem Storage.Wins.increment_ge (h : st.Wins c) (hr : Rankable st) :
    -2 ^ 127 ≤ st.increment c := by
  obtain ⟨d, hd, hgain⟩ := hr.gains
  have hmax : maxUfuryCount = 420000000000000 := rfl
  rcases standing_le_iff.mp (h.2 d hd) with hlt | ⟨heq, -⟩
  · omega
  · omega

theorem Storage.Wins.difference_eq (h : st.Wins c) (hr : Rankable st) :
    st.difference c = st.increment c :=
  difference_of_le (hr.stakes c h.1) (h.increment_ge hr)

/-- A club is in one place only. -/
theorem eq_of_first {clubs before after before' after' : List String} {m : ℤ}
    (h : clubs = before ++ c :: after) (hc : st.difference c = m)
    (hbefore : ∀ d ∈ before, st.difference d < m) (h' : clubs = before' ++ d :: after')
    (hd : st.difference d = m) (hbefore' : ∀ d ∈ before', st.difference d < m) : c = d := by
  have hfirst : clubs.find? (fun x => st.difference x = m) = some c :=
    List.find?_eq_some_iff_append.mpr ⟨by simpa using hc, before, after, h,
      fun x hx => by simpa using (hbefore x hx).ne⟩
  have hfirst' : clubs.find? (fun x => st.difference x = m) = some d :=
    List.find?_eq_some_iff_append.mpr ⟨by simpa using hd, before', after', h',
      fun x hx => by simpa using (hbefore' x hx).ne⟩
  exact Option.some.inj (hfirst.symm.trans hfirst')

/-- The pass ends above the value it starts from. -/
theorem Leads.pos {acc : Ranking} (h : Leads st st.ownership.keys acc) (hr : Rankable st) :
    -maxUfuryCount < acc.maxIncrementalStakeValue := by
  obtain ⟨c, hc, hgain⟩ := hr.gains
  exact hgain.trans_le ((increment_le_difference (hr.stakes c hc)).trans (h.largest c hc))

/-- Every club has a smaller increase than the leader, or is the leader, or has as large an increase
and stays behind. -/
theorem cases_of_leader {before after : List String}
    (hkeys : st.ownership.keys = before ++ c :: after)
    (hbefore : ∀ d ∈ before, st.difference d < st.difference c)
    (hafter : ∀ d ∈ after, Behind st c d) (hd : d ∈ st.ownership.keys) :
    st.difference d < st.difference c ∨ d = c ∨ st.difference d = st.difference c ∧
      (st.total d < st.total c ∨ st.total d = st.total c ∧ -2 ^ 127 ≤ st.increment d) := by
  rw [hkeys] at hd
  rcases List.mem_append.mp hd with hd | hd
  · exact .inl (hbefore d hd)
  · rcases List.mem_cons.mp hd with heq | hd
    · exact .inr (.inl heq)
    · rcases hafter d hd with hlt | hbehind
      · exact .inl hlt
      · exact .inr (.inr hbehind)

/-- **The leader wins**, and the other winners are level with it. -/
theorem wins_iff_of_leader {before after : List String} (hr : Rankable st)
    (hkeys : st.ownership.keys = before ++ c :: after) (hsigned : -2 ^ 127 ≤ st.increment c)
    (hbefore : ∀ d ∈ before, st.difference d < st.difference c)
    (hafter : ∀ d ∈ after, Behind st c d) :
    st.Wins d ↔ d ∈ st.ownership.keys ∧ st.increment d = st.increment c ∧
      st.total d = st.total c := by
  have hmem : c ∈ st.ownership.keys := by simp [hkeys]
  have hc := difference_of_le (hr.stakes c hmem) hsigned
  have hwins : st.Wins c := by
    refine ⟨hmem, fun d hd => standing_le_iff.mpr ?_⟩
    have hle := increment_le_difference (hr.stakes d hd)
    rcases cases_of_leader hkeys hbefore hafter hd with hlt | rfl | ⟨heq, hless⟩
    · exact .inl (by linarith)
    · exact .inr ⟨rfl, le_rfl⟩
    · have htotal : st.total d ≤ st.total c := hless.elim le_of_lt fun h => h.1.le
      rcases lt_or_eq_of_le (show st.increment d ≤ st.increment c by linarith) with hlt | heq'
      · exact .inl hlt
      · exact .inr ⟨heq', htotal⟩
  constructor
  · intro hd
    have heq := le_antisymm (hwins.2 d hd.1) (hd.2 c hmem)
    exact ⟨hd.1, congrArg (fun x => (ofLex x).1) heq, congrArg (fun x => (ofLex x).2) heq⟩
  · rintro ⟨hd, hincrement, htotal⟩
    refine ⟨hd, fun x hx => (hwins.2 x hx).trans (standing_le_iff.mpr ?_)⟩
    exact .inr ⟨hincrement.symm, htotal.ge⟩

/-- **The pass names the winners** where a leader is not overtaken. -/
theorem Walk.names {acc : Ranking} (h : Walk st st.ownership.keys [] acc) (hr : Rankable st)
    (hd : Decided st) : Names st { st with stakingSnapshot := acc.stakingSnapshot }
      ⟨acc.totalNumberOfClubs, acc.totalStakeAcrossAllClubs, acc.totalStakeInWinningClub,
        acc.winners⟩ := by
  obtain ⟨before, c, after, hkeys, hsigned, hbefore, hafter⟩ := hd.leader
  have hwins := fun d => wins_iff_of_leader (d := d) hr hkeys hsigned hbefore hafter
  have hmem : c ∈ st.ownership.keys := by simp [hkeys]
  obtain ⟨before', f, after', hkeys', hbefore', hf, hleast, w, hw, hwtotal⟩ :=
    h.leads.first (h.leads.pos hr)
  obtain ⟨hfmem, hfmax⟩ := h.leads.winners f hf
  -- the leader has the largest increase, and is the first club that has it
  have hcmax : st.difference c = acc.maxIncrementalStakeValue := by
    refine le_antisymm (h.leads.largest c hmem) ?_
    rw [← hfmax]
    rcases cases_of_leader hkeys hbefore hafter hfmem with hlt | rfl | ⟨heq, -⟩
    · exact hlt.le
    · exact le_rfl
    · exact heq.le
  obtain rfl : c = f := eq_of_first hkeys hcmax (hcmax ▸ hbefore) hkeys' hfmax hbefore'
  have hwinner : ∀ d ∈ acc.winners, st.Wins d ∧ st.total d = st.total c := by
    intro d hd
    obtain ⟨hdmem, hdmax⟩ := h.leads.winners d hd
    rcases cases_of_leader hkeys hbefore hafter hdmem with
      hlt | rfl | ⟨-, hless | ⟨htotal, hwithin⟩⟩
    · exact absurd (hdmax.trans hcmax.symm) hlt.ne
    · exact ⟨(hwins d).mpr ⟨hdmem, rfl, rfl⟩, rfl⟩
    · exact absurd hless (not_lt.mpr (hleast d hd))
    · refine ⟨(hwins d).mpr ⟨hdmem, ?_, htotal⟩, htotal⟩
      rw [← difference_of_le (hr.stakes d hdmem) hwithin,
        ← difference_of_le (hr.stakes c hmem) hsigned, hdmax, hcmax]
  have hmaximum : acc.maxTotalStakeValue = st.total c := by
    rw [← hwtotal]
    exact (hwinner w hw).2
  refine ⟨fun d => ⟨fun hd => (hwinner d hd).1, fun hd => ?_⟩,
    h.ranked.winners.nodup (Store.nodup_keys _), fun d hd => ?_, h.ranked.number, h.ranked.total,
    h.saved⟩
  · obtain ⟨hdmem, hincrement, htotal⟩ := (hwins d).mp hd
    have hdmax : st.difference d = acc.maxIncrementalStakeValue := by
      rw [hd.difference_eq hr, hincrement, ← hcmax, difference_of_le (hr.stakes c hmem) hsigned]
    exact (h.leads.level d hdmem hdmax).2 (htotal.trans hmaximum.symm)
  · obtain ⟨-, -, htotal⟩ := (hwins d).mp hd
    rw [htotal, ← hmaximum]
    exact h.ranked.maximum.symm

/-- **A leader** is found where the pass names the winners. -/
theorem Walk.leader {acc : Ranking} (h : Walk st st.ownership.keys [] acc) (hr : Rankable st)
    (hwinners : ∀ c, c ∈ acc.winners ↔ st.Wins c) :
    ∃ before c after, st.ownership.keys = before ++ c :: after ∧
      -2 ^ 127 ≤ st.increment c ∧ (∀ d ∈ before, st.difference d < st.difference c) ∧
      ∀ d ∈ after, Behind st c d := by
  obtain ⟨before, c, after, hkeys, hbefore, hc, -, w, hw, hwtotal⟩ := h.leads.first (h.leads.pos hr)
  have hcwins := (hwinners c).mp hc
  have hwwins := (hwinners w).mp hw
  have hmax := (h.leads.winners c hc).2
  -- two winners have one standing, and one of them has the largest total of its increase
  have hmaximum : st.total c = acc.maxTotalStakeValue := by
    have hstanding := le_antisymm (hwwins.2 c hcwins.1) (hcwins.2 w hwwins.1)
    rw [← hwtotal]
    exact congrArg (fun x => (ofLex x).2) hstanding
  refine ⟨before, c, after, hkeys, hcwins.increment_ge hr, ?_, fun d hd => ?_⟩
  · rw [hmax]
    exact hbefore
  · have hmem : d ∈ st.ownership.keys := by
      rw [hkeys]
      simp [hd]
    unfold Behind
    rw [hmax, hmaximum]
    rcases lt_or_eq_of_le (h.leads.largest d hmem) with hlt | heq
    · exact .inl hlt
    · obtain ⟨hle, hjoins⟩ := h.leads.level d hmem heq
      refine .inr ⟨heq, ?_⟩
      rcases lt_or_eq_of_le hle with hlt | heq'
      · exact .inl hlt
      · exact .inr ⟨heq', ((hwinners d).mp (hjoins heq')).increment_ge hr⟩

end Winners

/-- **The ranking names the clubs of the best standing** in exactly the states in which the sums are
in range and the first club of the largest increase is not overtaken by a later one. -/
theorem namesWinners_iff (st : Storage) (hr : Rankable st) : NamesWinners st ↔ Decided st := by
  constructor
  · rintro ⟨st', winning, hok, hnames⟩
    obtain ⟨acc, hwalk, rfl, rfl⟩ := getWinningClubsDetails_walk hok
    exact ⟨⟨hwalk.number, hwalk.total⟩, hwalk.leader hr hnames.winners⟩
  · intro hd
    obtain ⟨st', winning, hok⟩ := getWinningClubsDetails_succeeds hd.range
    obtain ⟨acc, hwalk, rfl, rfl⟩ := getWinningClubsDetails_walk hok
    exact ⟨_, _, hok, hwalk.names hr hd⟩

namespace Sample

/-- A club with a total stake. -/
def clubOf (clubName : String) (totalStakedAmount : ℕ) : ClubOwnershipDetails where
  clubName := clubName
  startTimestamp := second 1
  lockingPeriod := 21
  ownerAddress := clubName
  pricePaid := 1000
  rewardAmount := 0
  ownerReleased := false
  totalStakedAmount := totalStakedAmount

/-- Two clubs that have grown by five since the last ranking, with their stakes then. -/
def level (ants bees : ℕ) : Storage :=
  { storage with
    ownership := ((∅ : Store String ClubOwnershipDetails).insert "ants" (clubOf "ants" (ants + 5))).insert
      "bees" (clubOf "bees" (bees + 5))
    stakingSnapshot := ((∅ : Store String ℕ).insert "ants" ants).insert "bees" bees }

end Sample

open Sample in
/-- The first club has more staked, and wins alone. -/
theorem namesWinners_sample : NamesWinners (level 10 5) :=
  (namesWinners_iff (level 10 5) ⟨by decide +kernel, by decide +kernel⟩).mpr
    ⟨⟨by decide +kernel, by decide +kernel⟩,
      [], "ants", ["bees"], by decide +kernel, by decide +kernel, nofun,
      by unfold Behind; decide +kernel⟩

open Sample in
/-- **A club that is overtaken, and named**: the second club has grown by as much and has more
staked, and both are named. -/
theorem not_namesWinners : ¬ ∀ st : Storage, Rankable st → NamesWinners st := by
  intro h
  obtain ⟨st', winning, hok, hnames⟩ := h (level 5 10) ⟨by decide +kernel, by decide +kernel⟩
  have hlist : (getWinningClubsDetails (level 5 10) : Exec ContractError _).toOption.map
      (fun x => x.2.winnerList) = some ["ants", "bees"] := by decide +kernel
  rw [hok] at hlist
  have hwinners : winning.winnerList = ["ants", "bees"] := Option.some.inj hlist
  have hants := ((hnames.winners "ants").mp (by simp [hwinners])).2 "bees" (by decide +kernel)
  exact absurd (standing_le_iff.mp hants) (by decide +kernel)

end Clubstaking
