import LiquidityContracts.Staking.Effect
import LiquidityContracts.Staking.Ranking

/-!
# A reward cycle

A cycle distributes a pot in batches: the first ranks the clubs by their totals, the others go by
that ranking, and what a batch credits is computed from the stakes as they are when the batch is
received. Stakes may grow between the batches, so a cycle may credit more than its pot. It does not
when the ranking is kept and the stakes that the batches read are within the totals it ranked.

## Main definitions

* `Cycle`: the run fragments from a first batch to a final one
* `rewardCredited`, `stakeRead`: what a call credits, and the stakes of a club that it reads
* `Within`: what the calls of a cycle keep

## Main results

* `rewardGiven_eq`: the contract counts what a batch credits
* `credits_bound`: every credit of a batch is within its bound by the ranking
* `cycle_credits_le`: a cycle credits no more than its pot
* `cycle_overdraws`: a stake that grows after the ranking overdraws the pot
-/

namespace Clubstaking

open CosmWasm

/-- Whether a message is a batch that ranks the clubs. -/
def ExecuteMsg.isFirstBatch : ExecuteMsg → Bool
  | .calculateAndDistributeRewards _ _ isFirstBatch _ => isFirstBatch
  | _ => false

/-- Whether a message is a batch that ends a cycle. -/
def ExecuteMsg.isFinalBatch : ExecuteMsg → Bool
  | .calculateAndDistributeRewards _ _ _ isFinalBatch => isFinalBatch
  | _ => false

/-- Whether a message is one of a cycle: a batch, a stake or a withdrawal. -/
def ExecuteMsg.inCycle : ExecuteMsg → Bool
  | .calculateAndDistributeRewards _ _ _ _ => true
  | .stakeOnAClub _ _ _ _ => true
  | .stakeWithdrawFromAClub _ _ _ _ => true
  | _ => false

/-- The stakers that an accepted batch lists, with its club. -/
def listed (api : Api) (st : Storage) (c : Call) : List (String × String) :=
  match c.msg with
  | .calculateAndDistributeRewards stakerList clubName _ _ =>
    if (exec api st c).isSome then stakerList.map fun staker => (clubName, staker) else []
  | _ => []

/-- The stakes in a club that a call reads: those of the stakers it lists. -/
def stakeRead (api : Api) (clubName : String) (st : Storage) (c : Call) : ℕ :=
  (((listed api st c).filter fun k => k.1 = clubName).map fun k =>
    stakedOf (stakesAt st.staking k)).sum

/-- The rewards that a call credits. -/
def rewardCredited (api : Api) (st : Storage) (c : Call) : ℕ :=
  ((credits api st c).map (·.reward)).sum

/-- A run fragment that starts with a first batch and ends with a final one, with other batches,
stakes and withdrawals in between, and lists no staker of a club twice. -/
structure Cycle (api : Api) (st : Storage) (cs : List Call) : Prop where
  starts : ∃ first rest, cs = first :: rest ∧ (exec api st first).isSome ∧
    first.msg.isFirstBatch = true
  ends : ∃ before last, cs = before ++ [last] ∧
    (exec api (run (exec api) st before) last).isSome ∧ last.msg.isFinalBatch = true
  messages : ∀ c ∈ cs, c.msg.inCycle = true
  listedOnce : ((history (exec api) st cs).flatMap fun x => listed api x.1 x.2).Nodup

/-- The owner of a club. -/
def Storage.ownerOf (st : Storage) (clubName : String) : Option String :=
  (st.ownership[clubName]?).map (·.ownerAddress)

/-- What the calls of a cycle keep: the pot does not grow, the clubs have their owners, and the
ranking is the same. -/
structure Within (st : Storage) (ranking : Option WinningClubDetails) (s : Storage) : Prop where
  tidy : Tidy s.staking
  reward : s.reward.getD 0 ≤ st.reward.getD 0
  owners : ∀ c, s.ownerOf c = st.ownerOf c
  ranking : s.winningClubDetailsSnapshot = ranking

/-! ## The credits of a batch -/

section Loop

variable {terms : RewardTerms} {period : RewardPeriod} {c : String} {stakers : List String}
  {acc acc' : Store (String × String) (List ClubStakingDetails) × Given}

/-- A stake that is credited, as a key. -/
def Credit.key (x : Credit) : String × String := (x.clubName, x.stakerAddress)

/-- The credits are of the listed stakers, in their order. -/
theorem creditsOver_sublist (h : stakers.foldlM (creditStaker terms period c) acc = .ok acc')
    (ht : Tidy acc.1) : ((creditsOver terms period c acc stakers).map Credit.key).Sublist
      (stakers.map fun staker => (c, staker)) := by
  induction stakers generalizing acc with
  | nil => exact List.Sublist.refl []
  | cons staker stakers ih =>
    obtain ⟨acc₁, hround, ht₁, h, hcredits⟩ := foldlM_creditStaker_cons h ht
    rw [hcredits]
    rcases hround.credits_eq with ⟨hnone, -⟩ | ⟨r, reward, -, -, -, hone, -⟩
    · rw [hnone]
      exact (ih h ht₁).cons _
    · rw [hone]
      exact (ih h ht₁).cons_cons _

/-- A credit is the reward of a record of its staker. -/
theorem mem_creditsOver (h : stakers.foldlM (creditStaker terms period c) acc = .ok acc')
    (ht : Tidy acc.1) {x : Credit} (hx : x ∈ creditsOver terms period c acc stakers) :
    ∃ r reward, rewardForStake terms r = .ok reward ∧
      x = ⟨c, r.stakerAddress, r.stakedAmount, r.autoStake, reward⟩ := by
  induction stakers generalizing acc with
  | nil => cases hx
  | cons staker stakers ih =>
    obtain ⟨acc₁, hround, ht₁, h, hcredits⟩ := foldlM_creditStaker_cons h ht
    rw [hcredits] at hx
    rcases List.mem_append.mp hx with hx | hx
    · rcases hround.credits_eq with ⟨hnone, -⟩ | ⟨r, reward, -, hof, hreward, hone, -⟩
      · rw [hnone] at hx
        cases hx
      · rw [hone] at hx
        refine ⟨r, reward, hreward, ?_⟩
        rw [List.mem_singleton.mp hx, hof.staker]
    · exact ih h ht₁ hx

/-- Where no staker is listed twice, a credit goes by the stake before the loop. -/
theorem stakedAmount_of_mem_creditsOver
    (h : stakers.foldlM (creditStaker terms period c) acc = .ok acc') (ht : Tidy acc.1)
    (hnodup : stakers.Nodup) {x : Credit} (hx : x ∈ creditsOver terms period c acc stakers) :
    x.stakedAmount = stakedOf (stakesAt acc.1 x.key) := by
  induction stakers generalizing acc with
  | nil => cases hx
  | cons staker stakers ih =>
    obtain ⟨acc₁, hround, ht₁, h, hcredits⟩ := foldlM_creditStaker_cons h ht
    rw [hcredits] at hx
    rcases List.mem_append.mp hx with hx | hx
    · rcases hround.credits_eq with ⟨hnone, -⟩ | ⟨r, reward, hstakes, -, -, hone, -⟩
      · rw [hnone] at hx
        cases hx
      · rw [hone] at hx
        rw [List.mem_singleton.mp hx, Credit.key, hstakes, stakedOf_singleton]
    · -- the round was of another staker
      rw [ih h ht₁ hnodup.of_cons hx, hround.stakes_of_ne]
      intro hk
      have hmem := (creditsOver_sublist h ht₁).subset (List.mem_map_of_mem hx)
      rw [← hk] at hmem
      obtain ⟨staker', hmem, heq⟩ := List.mem_map.mp hmem
      cases heq
      exact (List.nodup_cons.mp hnodup).1 hmem

end Loop

section Calls

variable {api : Api} {st s s' : Storage} {c : Call} {r : Response Cw20.ExecuteMsg}
  {winning : WinningClubDetails} {ranking : Option WinningClubDetails}

/-- Only an accepted batch credits anything. -/
theorem credits_cases (api : Api) (s : Storage) (c : Call) : credits api s c = [] ∨
    ∃ stakerList clubName isFirstBatch isFinalBatch,
      c.msg = .calculateAndDistributeRewards stakerList clubName isFirstBatch isFinalBatch := by
  unfold credits
  split
  · rename_i stakerList clubName isFirstBatch isFinalBatch hmsg
    exact .inr ⟨stakerList, clubName, isFirstBatch, isFinalBatch, hmsg⟩
  · exact .inl rfl

theorem listed_of_batch {stakerList : List String} {clubName : String}
    {isFirstBatch isFinalBatch : Bool}
    (hmsg : c.msg = .calculateAndDistributeRewards stakerList clubName isFirstBatch isFinalBatch)
    (h : exec api s c = some (s', r)) :
    listed api s c = stakerList.map fun staker => (clubName, staker) := by
  rw [listed, hmsg]
  dsimp only
  rw [h]
  rfl

/-- The credits of a call are of the stakers that it lists. -/
theorem credits_sublist (ht : Tidy s.staking) (h : exec api s c = some (s', r)) :
    ((credits api s c).map Credit.key).Sublist (listed api s c) := by
  rcases credits_cases api s c with hnone | ⟨stakerList, clubName, isFirst, isFinal, hmsg⟩
  · rw [hnone]
    exact List.nil_sublist _
  · rw [listed_of_batch hmsg h]
    cases exec_batch h hmsg with
    | idle next hreward hst =>
      rw [credits_of_idle hreward]
      exact List.nil_sublist _
    | runs next ranked winning owner terms staking given hreward hranking howner hterms hbatch
        hloop hst =>
      rw [credits_of_batch (by rw [h]; rfl) hmsg hreward hbatch]
      exact creditsOver_sublist hloop ht

/-- A call that lists no staker twice credits by the stakes that it receives. -/
theorem stakedAmount_of_mem_credits (ht : Tidy s.staking) (h : exec api s c = some (s', r))
    (hnodup : (listed api s c).Nodup) {x : Credit} (hx : x ∈ credits api s c) :
    x.stakedAmount = stakedOf (stakesAt s.staking x.key) := by
  rcases credits_cases api s c with hnone | ⟨stakerList, clubName, isFirst, isFinal, hmsg⟩
  · rw [hnone] at hx
    cases hx
  · rw [listed_of_batch hmsg h] at hnodup
    cases exec_batch h hmsg with
    | idle next hreward hst =>
      rw [credits_of_idle hreward] at hx
      cases hx
    | runs next ranked winning owner terms staking given hreward hranking howner hterms hbatch
        hloop hst =>
      rw [credits_of_batch (by rw [h]; rfl) hmsg hreward hbatch] at hx
      exact stakedAmount_of_mem_creditsOver hloop ht hnodup.of_map hx

/-- What is credited is what the contract counts as given. -/
theorem rewardGiven_eq {stakerList : List String} {clubName : String}
    {isFirstBatch isFinalBatch : Bool} (ht : Tidy s.staking) (h : exec api s c = some (s', r))
    (hmsg : c.msg = .calculateAndDistributeRewards stakerList clubName isFirstBatch isFinalBatch) :
    s'.rewardGivenInCurrentTimestamp.getD 0 =
      s.rewardGivenInCurrentTimestamp.getD 0 + rewardCredited api s c := by
  unfold rewardCredited
  cases exec_batch h hmsg with
  | idle next hreward hst =>
    rw [credits_of_idle hreward, hst]
    rfl
  | runs next ranked winning owner terms staking given hreward hranking howner hterms hbatch hloop
      hst =>
    have hgiven := foldlM_given hloop ht
    rw [Nat.zero_add] at hgiven
    rw [credits_of_batch (by rw [h]; rfl) hmsg hreward hbatch, hst, Option.getD_some, hgiven]

/-- A batch goes by the ranking that it leaves. -/
theorem rankingFor_winning {isFirstBatch : Bool}
    (h : rankingFor s isFirstBatch = .ok (s', winning)) :
    s'.winningClubDetailsSnapshot.getD {} = winning ∧
      (isFirstBatch = true → Ranks s winning ∧ s'.winningClubDetailsSnapshot = some winning) ∧
      (isFirstBatch = false →
        s'.winningClubDetailsSnapshot = s.winningClubDetailsSnapshot) := by
  unfold rankingFor at h
  split at h
  · rename_i hfirst
    obtain ⟨⟨ranked, winning⟩, hranked, h⟩ := bind_eq_ok.mp h
    cases pure_eq_ok.mp h
    refine ⟨rfl, fun _ => ⟨getWinningClubsDetails_ranks hranked, rfl⟩, fun hnot => ?_⟩
    rw [hfirst] at hnot
    cases hnot
  · rename_i hnot
    cases pure_eq_ok.mp h
    exact ⟨rfl, fun hfirst => absurd hfirst hnot, fun _ => rfl⟩

/-- **Every credit of a batch** is of a club that was ranked, and within its bound. -/
theorem credits_bound (ht : Tidy s.staking) (h : exec api s c = some (s', r)) {pot : ℕ}
    (hpot : s.reward.getD 0 ≤ pot) (howners : ∀ d, s.ownerOf d = st.ownerOf d)
    (hranking : s'.winningClubDetailsSnapshot = some winning) {x : Credit}
    (hx : x ∈ credits api s c) : x.clubName ∈ st.ownership.keys ∧
      x.reward ≤ rewardBound winning pot (fun d => (st.ownerOf d).getD "") x := by
  rcases credits_cases api s c with hnone | ⟨stakerList, clubName, isFirst, isFinal, hmsg⟩
  · rw [hnone] at hx
    cases hx
  · cases exec_batch h hmsg with
    | idle next hreward hst =>
      rw [credits_of_idle hreward] at hx
      cases hx
    | runs next ranked winning' owner terms staking given hreward hrank howner hterms hbatch
        hloop hst =>
      rw [credits_of_batch (by rw [h]; rfl) hmsg hreward hbatch] at hx
      obtain ⟨r, reward, hreward, rfl⟩ := mem_creditsOver hloop ht hx
      -- the batch goes by the ranking that is saved
      have hwinning : winning' = winning := by
        rw [hst] at hranking
        rw [← (rankingFor_winning hrank).1, show ranked.winningClubDetailsSnapshot = some winning
          from hranking, Option.getD_some]
      have hownerOf : st.ownerOf clubName = some owner.ownerAddress := by
        rw [← howners, Storage.ownerOf, howner]
        rfl
      refine ⟨?_, ?_⟩
      · rw [Store.mem_keys_iff]
        obtain ⟨details, hdetails, -⟩ := Option.map_eq_some_iff.mp hownerOf
        exact ⟨details, hdetails⟩
      · rw [hwinning] at hterms
        refine rewardForStake_le hreward hterms hpot ?_
        rw [hownerOf, Option.getD_some]

/-! ## The calls of a cycle -/

/-- A club that is saved with its owner. -/
theorem ownerOf_save {clubName : String} {owner : ClubOwnershipDetails} {t : ℕ}
    (howner : s.ownership[clubName]? = some owner)
    (hst : s'.ownership = s.ownership.insert clubName { owner with totalStakedAmount := t })
    (d : String) : s'.ownerOf d = s.ownerOf d := by
  rw [Storage.ownerOf, Storage.ownerOf, hst, Store.get_insert]
  split
  · rename_i hd
    rw [← hd, howner]
    rfl
  · rfl

theorem Batch.ownerOf {env : Env} {stakerList : List String} {clubName : String}
    {isFirstBatch isFinalBatch : Bool}
    (h : Batch env s s' stakerList clubName isFirstBatch isFinalBatch) (d : String) :
    s'.ownerOf d = s.ownerOf d := by
  cases h with
  | idle next hreward hst =>
    rw [hst]
    rfl
  | runs next ranked winning owner terms staking given hreward hrank howner hterms hbatch hloop
      hst => exact ownerOf_save howner (by rw [hst]) d

theorem Batch.reward_le {env : Env} {stakerList : List String} {clubName : String}
    {isFirstBatch isFinalBatch : Bool}
    (h : Batch env s s' stakerList clubName isFirstBatch isFinalBatch) :
    s'.reward.getD 0 ≤ s.reward.getD 0 := by
  cases h with
  | idle next hreward hst =>
    rw [hst]
  | runs next ranked winning owner terms staking given hreward hrank howner hterms hbatch hloop
      hst =>
    rw [hst]
    dsimp only
    split
    · exact Nat.sub_le _ _
    · exact le_rfl

/-- Only a first batch changes the ranking. -/
theorem Batch.ranking_eq {env : Env} {stakerList : List String} {clubName : String}
    {isFinalBatch : Bool} (h : Batch env s s' stakerList clubName false isFinalBatch) :
    s'.winningClubDetailsSnapshot = s.winningClubDetailsSnapshot := by
  cases h with
  | idle next hreward hst =>
    rw [hst]
  | runs next ranked winning owner terms staking given hreward hrank howner hterms hbatch hloop
      hst =>
    rw [hst]
    exact (rankingFor_winning hrank).2.2 rfl

/-- **One step** of a cycle that does not rank the clubs again. -/
theorem exec_within (hs : Within st ranking s) (hmsg : c.msg.inCycle = true)
    (hfirst : c.msg.isFirstBatch = false) (h : exec api s c = some (s', r)) :
    Within st ranking s' := by
  have htidy := exec_tidy hs.tidy h
  have hexec := exec_eq_some.mp h
  obtain ⟨q, env, info, msg⟩ := c
  cases msg with
  | calculateAndDistributeRewards stakerList clubName isFirstBatch isFinalBatch =>
    obtain rfl : isFirstBatch = false := hfirst
    have hbatch := exec_batch h rfl
    refine ⟨htidy, hbatch.reward_le.trans hs.reward, fun d => ?_, ?_⟩
    · rw [hbatch.ownerOf, hs.owners]
    · rw [hbatch.ranking_eq, hs.ranking]
  -- stakes and withdrawals rewrite the record of the club, with its owner
  | stakeOnAClub staker clubName amount autoStake =>
    obtain ⟨owner, howner, rfl⟩ := saveStakingDetails_increase hs.tidy (stakeOnAClub_spec hexec).2.1
    refine ⟨htidy, hs.reward, fun d => ?_, hs.ranking⟩
    rw [ownerOf_save howner rfl, hs.owners]
  | stakeWithdrawFromAClub staker clubName amount immediateWithdrawal =>
    obtain ⟨-, decrease, bonding, saved, bonding', -, hsaved, rfl⟩ :=
      withdrawStakeFromAClub_spec hexec
    have ht' : Tidy { s with bonding := bonding }.staking := hs.tidy
    obtain ⟨owner, staking, howner, -, -, -, rfl⟩ := saveStakingDetails_decrease ht' hsaved
    have howner' : s.ownership[clubName]? = some owner := howner
    refine ⟨htidy, hs.reward, fun d => ?_, hs.ranking⟩
    rw [ownerOf_save howner' rfl, hs.owners]
  | _ => cases hmsg

end Calls

/-! ## The credits of a cycle -/

/-- The credits of a run. -/
def creditsOf (api : Api) (st : Storage) (cs : List Call) : List Credit :=
  (history (exec api) st cs).flatMap fun x => credits api x.1 x.2

section Runs

variable {api : Api} {st : Storage} {cs : List Call} {x : Credit}

/-- Every credit is made by an accepted call. -/
theorem exists_of_mem_creditsOf (hx : x ∈ creditsOf api st cs) :
    ∃ y ∈ history (exec api) st cs, ∃ r,
      exec api y.1 y.2 = some (commit (exec api) y.1 y.2, r) ∧ x ∈ credits api y.1 y.2 := by
  obtain ⟨y, hy, hx⟩ := List.mem_flatMap.mp hx
  rcases commit_cases (exec api) y.1 y.2 with ⟨r, h⟩ | ⟨h, -⟩
  · exact ⟨y, hy, r, h, hx⟩
  · rw [credits_of_none h] at hx
    cases hx

/-- A stake is credited once where no staker of a club is listed twice. -/
theorem nodup_creditsOf (ht : ∀ x ∈ history (exec api) st cs, Tidy x.1.staking)
    (hlisted : ((history (exec api) st cs).flatMap fun x => listed api x.1 x.2).Nodup) :
    ((creditsOf api st cs).map Credit.key).Nodup := by
  refine List.Sublist.nodup ?_ hlisted
  rw [creditsOf, List.map_flatMap]
  refine List.Sublist.flatMap_right _ fun x hx => ?_
  rcases commit_cases (exec api) x.1 x.2 with ⟨r, h⟩ | ⟨h, -⟩
  · exact credits_sublist (ht x hx) h
  · rw [credits_of_none h]
    exact List.nil_sublist _

/-- The stakes in a club that are credited are among those that are read. -/
theorem sum_stakedAmount_le (ht : ∀ x ∈ history (exec api) st cs, Tidy x.1.staking)
    (hlisted : ((history (exec api) st cs).flatMap fun x => listed api x.1 x.2).Nodup)
    (clubName : String) :
    (((creditsOf api st cs).filter fun x => x.clubName = clubName).map (·.stakedAmount)).sum ≤
      tally (exec api) (stakeRead api clubName) st cs := by
  rw [creditsOf, List.filter_flatMap, ← tally_eq_sum_flatMap fun s c =>
    (credits api s c).filter fun x => x.clubName = clubName]
  refine tally_le_tally fun x hx => ?_
  rcases commit_cases (exec api) x.1 x.2 with ⟨r, h⟩ | ⟨h, -⟩
  · have hnodup := (List.nodup_flatMap.mp hlisted).1 x hx
    -- each staker is listed once, so each credit is of a stake that is read once
    have hstakes : ((credits api x.1 x.2).filter fun y => y.clubName = clubName).map
        (·.stakedAmount) = (((credits api x.1 x.2).map Credit.key).filter fun k =>
          k.1 = clubName).map fun k => stakedOf (stakesAt x.1.staking k) := by
      rw [List.filter_map, List.map_map]
      refine List.map_congr_left fun y hy => ?_
      exact stakedAmount_of_mem_credits (ht x hx) h hnodup (List.mem_of_mem_filter hy)
    rw [hstakes]
    exact (((credits_sublist (ht x hx) h).filter _).map _).sum_le_sum fun _ _ => Nat.zero_le _
  · rw [credits_of_none h]
    exact Nat.zero_le _

/-- **Credits by one ranking** are within the pot. -/
theorem sum_creditsOf_le {winning : WinningClubDetails} {pot : ℕ} {owner : String → String}
    (hranks : Ranks st winning) (ht : ∀ x ∈ history (exec api) st cs, Tidy x.1.staking)
    (hlisted : ((history (exec api) st cs).flatMap fun x => listed api x.1 x.2).Nodup)
    (hbound : ∀ x ∈ creditsOf api st cs, x.clubName ∈ st.ownership.keys ∧
      x.reward ≤ rewardBound winning pot owner x)
    (hstaked : ∀ clubName ∈ st.ownership.keys,
      tally (exec api) (stakeRead api clubName) st cs ≤ st.total clubName) :
    ((creditsOf api st cs).map (·.reward)).sum ≤ pot := by
  have hkeys := nodup_creditsOf ht hlisted
  have hnodup : (creditsOf api st cs).Nodup := hkeys.of_map
  -- no two credits are of one stake, so the list is a set
  rw [← List.sum_toFinset _ hnodup]
  refine sum_credits_le hranks (fun x hx => (hbound x (List.mem_toFinset.mp hx)).1)
    (fun x hx y hy hclub hstaker => ?_) (fun x hx => (hbound x (List.mem_toFinset.mp hx)).2)
    fun c hc => ?_
  · exact List.inj_on_of_nodup_map hkeys (List.mem_toFinset.mp hx) (List.mem_toFinset.mp hy)
      (Prod.ext hclub hstaker)
  · have hfilter : ((creditsOf api st cs).toFinset.filter fun x => x.clubName = c) =
        ((creditsOf api st cs).filter fun x => x.clubName = c).toFinset := by
      rw [List.toFinset_filter]
      simp
    rw [hfilter, List.sum_toFinset _ (hnodup.filter _)]
    exact (sum_stakedAmount_le ht hlisted c).trans (hstaked c hc)

/-- A message that is a first batch. -/
theorem eq_of_isFirstBatch {msg : ExecuteMsg} (h : msg.isFirstBatch = true) :
    ∃ stakerList clubName isFinalBatch,
      msg = .calculateAndDistributeRewards stakerList clubName true isFinalBatch := by
  cases msg with
  | calculateAndDistributeRewards stakerList clubName isFirstBatch isFinalBatch =>
    obtain rfl : isFirstBatch = true := h
    exact ⟨stakerList, clubName, isFinalBatch, rfl⟩
  | _ => cases h

/-- The rest of a cycle keeps to what its first batch leaves. -/
theorem history_within {ranking : Option WinningClubDetails} {s : Storage} {rest : List Call}
    (hs : Within st ranking s) (hmessages : ∀ c ∈ rest, c.msg.inCycle = true)
    (hranking : ∀ x ∈ history (exec api) s rest,
      (exec api x.1 x.2).isSome → x.2.msg.isFirstBatch = false) :
    ∀ x ∈ history (exec api) s rest, Within st ranking x.1 := by
  refine history_invariant (P := fun s c => c.msg.inCycle = true ∧
    ((exec api s c).isSome → c.msg.isFirstBatch = false)) ?_ hs
    fun x hx => ⟨hmessages x.2 (label_mem hx), hranking x hx⟩
  rintro s c s' r hs ⟨hc, hnot⟩ h
  exact exec_within hs hc (hnot (by rw [h]; rfl)) h

/-- What the calls of a cycle find: the pot of its start or less, and its owners. The ranking
after each of them is that of its first batch. -/
theorem history_cycle {first : Call} {rest : List Call} (ht : Tidy st.staking)
    (hs : Within st (commit (exec api) st first).winningClubDetailsSnapshot
      (commit (exec api) st first))
    (hmessages : ∀ c ∈ rest, c.msg.inCycle = true)
    (hranking : ∀ x ∈ history (exec api) (commit (exec api) st first) rest,
      (exec api x.1 x.2).isSome → x.2.msg.isFirstBatch = false) :
    ∀ x ∈ history (exec api) st (first :: rest), Tidy x.1.staking ∧
      x.1.reward.getD 0 ≤ st.reward.getD 0 ∧ (∀ d, x.1.ownerOf d = st.ownerOf d) ∧
      ∀ r, exec api x.1 x.2 = some (commit (exec api) x.1 x.2, r) →
        (commit (exec api) x.1 x.2).winningClubDetailsSnapshot =
          (commit (exec api) st first).winningClubDetailsSnapshot := by
  intro x hx
  rcases List.mem_cons.mp hx with rfl | hx
  · exact ⟨ht, le_rfl, fun _ => rfl, fun _ _ => rfl⟩
  · have hx' := history_within hs hmessages hranking x hx
    refine ⟨hx'.tidy, hx'.reward, hx'.owners, fun r h => ?_⟩
    exact (exec_within hx' (hmessages x.2 (label_mem hx)) (hranking x hx (by rw [h]; rfl)) h).ranking

end Runs

/-- **A cycle credits no more than its pot**, from a state that is reached by any run, when no
accepted batch but the first one ranks the clubs, and the stakes in each club that the batches
read are together within the total that was ranked. -/
theorem cycle_credits_le (api : Api) (st : Storage) (cs cycle : List Call) (hinit : Initial api st)
    (hcycle : Cycle api (run (exec api) st cs) cycle)
    (hranking : ∀ x ∈ (history (exec api) (run (exec api) st cs) cycle).tail,
      (exec api x.1 x.2).isSome → x.2.msg.isFirstBatch = false)
    (hstaked : ∀ clubName ∈ (run (exec api) st cs).ownership.keys,
      tally (exec api) (stakeRead api clubName) (run (exec api) st cs) cycle ≤
        (run (exec api) st cs).total clubName) :
    tally (exec api) (rewardCredited api) (run (exec api) st cs) cycle ≤
      (run (exec api) st cs).reward.getD 0 := by
  have ht := run_tidy hinit cs
  generalize run (exec api) st cs = before at *
  obtain ⟨⟨first, rest, rfl, haccepted, hfirst⟩, -, hmessages, hlisted⟩ := hcycle
  obtain ⟨r, hexec⟩ := exists_commit haccepted
  obtain ⟨stakerList, clubName, isFinalBatch, hmsg⟩ := eq_of_isFirstBatch hfirst
  have hbatch := exec_batch hexec hmsg
  -- the first batch fixes the ranking, and the rest of the cycle keeps it
  have hcases := history_cycle ht ⟨exec_tidy ht hexec, hbatch.reward_le, hbatch.ownerOf, rfl⟩
    (fun c hc => hmessages c (List.mem_cons_of_mem _ hc)) hranking
  unfold rewardCredited
  rw [tally_eq_sum_flatMap]
  cases hbatch with
  | idle next hreward hst =>
    -- there is no pot, so no call credits anything
    have hnone : (history (exec api) before (first :: rest)).flatMap
        (fun x => credits api x.1 x.2) = [] := by
      refine List.flatMap_eq_nil_iff.mpr fun x hx => credits_of_idle ?_
      have hle := (hcases x hx).2.1
      omega
    rw [hnone]
    exact Nat.zero_le _
  | runs next ranked winning owner terms staking given hreward hrank howner hterms hbatch hloop
      hst =>
    obtain ⟨hranks, hwinning⟩ := (rankingFor_winning hrank).2.1 rfl
    have hsnapshot : (commit (exec api) before first).winningClubDetailsSnapshot = some winning := by
      rw [hst]
      exact hwinning
    have hranks' : Ranks before winning :=
      ⟨hranks.inRange, hranks.number, hranks.total, hranks.winners, hranks.largest⟩
    have hbound : ∀ x ∈ creditsOf api before (first :: rest), x.clubName ∈ before.ownership.keys ∧
        x.reward ≤ rewardBound winning (before.reward.getD 0)
          (fun d => (before.ownerOf d).getD "") x := by
      intro x hx
      obtain ⟨y, hy, r, h, hx⟩ := exists_of_mem_creditsOf hx
      obtain ⟨htidy, hpot, howners, hkept⟩ := hcases y hy
      exact credits_bound htidy h hpot howners ((hkept r h).trans hsnapshot) hx
    exact sum_creditsOf_le hranks' (fun x hx => (hcases x hx).1) hlisted hbound hstaked

namespace Sample

/-- The owner opened the club, and two stakers staked on it. -/
def cycleStart : List Call :=
  opened 10000 ++ [stake 2 "alice" 500 false, stake 2 "bob" 500 false]

/-- The final batch of a cycle, for the club. -/
def finalBatch (t : ℕ) (stakers : List String) : Call :=
  call t "admin" (.calculateAndDistributeRewards stakers "club" false true)

/-- One of the two stakes again after the first batch, and the final batch lists `stakers`. -/
def cycle (stakers : List String) : List Call :=
  [batch 101 ["owner"], stake 102 "alice" 5000 false, finalBatch 103 stakers]

theorem cycle_cycle (stakers : List String)
    (haccepted : (exec api (run (exec api) (run (exec api) storage cycleStart)
      [batch 101 ["owner"], stake 102 "alice" 5000 false]) (finalBatch 103 stakers)).isSome)
    (hlisted : ((history (exec api) (run (exec api) storage cycleStart) (cycle stakers)).flatMap
      fun x => listed api x.1 x.2).Nodup) :
    Cycle api (run (exec api) storage cycleStart) (cycle stakers) where
  starts := ⟨_, _, rfl, by decide +kernel, rfl⟩
  ends := ⟨_, _, rfl, haccepted, rfl⟩
  messages := by
    intro c hc
    simp only [cycle, List.mem_cons, List.not_mem_nil, or_false] at hc
    rcases hc with rfl | rfl | rfl
    · rfl
    · rfl
    · rfl
  listedOnce := hlisted

end Sample

open Sample in
/-- The batches list the owner and the staker who has not staked again. -/
theorem cycle_credits_le_sample :
    tally (exec api) (rewardCredited api) (run (exec api) storage cycleStart) (cycle ["bob"]) ≤
      (run (exec api) storage cycleStart).reward.getD 0 :=
  cycle_credits_le api storage cycleStart (cycle ["bob"]) initial
    (cycle_cycle ["bob"] (by decide +kernel) (by decide +kernel)) (by decide +kernel)
    (by decide +kernel)

open Sample in
/-- **A stake that grows after the ranking overdraws the pot**: of 10000, 53650 are credited. -/
theorem cycle_overdraws :
    ¬ ∀ (api : Api) (st : Storage) (cs cycle : List Call), Initial api st →
      Cycle api (run (exec api) st cs) cycle →
      tally (exec api) (rewardCredited api) (run (exec api) st cs) cycle ≤
        (run (exec api) st cs).reward.getD 0 := by
  intro h
  have hle := h api storage cycleStart (cycle ["alice"]) initial
    (cycle_cycle ["alice"] (by decide +kernel) (by decide +kernel))
  exact absurd hle (by decide +kernel)

end Clubstaking
