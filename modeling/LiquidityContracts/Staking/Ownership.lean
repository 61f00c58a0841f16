import LiquidityContracts.Staking.Items

/-!
# Who owns the clubs

A club is acquired when it is new, or when its owner has released it and the time of the release is
not over; nothing else changes its owner. The record of a club is rewritten as a whole by every
message that touches the club, and its start is the time of the purchase until the release, and the
time of the release from then on. What decides about a sale is therefore followed through all the
rewrites.

## Main definitions

* `Control`: the owner of a club, and what decides about its sale
* `Acquired`: what an acquisition finds, and what it leaves
* `Handover`: what an accepted message does to the control of the clubs
* `Consents`: a club was last acquired by an address, and released by it later

## Main results

* `execute_handover`: every accepted message has one of the effects
* `owner_unique`: in every reachable state an address owns at most one club
* `owner_consents`: a club changes hands only after its owner has released it
-/

namespace Clubstaking

open CosmWasm

/-- The owner of a club, and what decides about its sale. -/
structure Control where
  ownerAddress : String
  ownerReleased : Bool
  startTimestamp : Timestamp
  lockingPeriod : ℕ
  deriving DecidableEq, Repr

/-- The control that a record states. -/
def ClubOwnershipDetails.control (club : ClubOwnershipDetails) : Control :=
  ⟨club.ownerAddress, club.ownerReleased, club.startTimestamp, club.lockingPeriod⟩

/-- The control of a club, where there is the club. -/
def Storage.control (st : Storage) (clubName : String) : Option Control :=
  (st.ownership[clubName]?).map (·.control)

/-- The reward kept for a previous owner. -/
def Storage.keptFor (st : Storage) (v : String) : ℕ :=
  ((st.previousOwners[v]?).map (·.rewardAmount)).getD 0

/-- The end of the time in which a released club may be acquired. -/
def Control.saleEnds (control : Control) : Timestamp :=
  control.startTimestamp + control.lockingPeriod * Timestamp.nanosPerSecond

/-- **An acquisition**: the buyer owned no club, the club was new or for sale, and the buyer is its
owner from the block on. -/
structure Acquired (api : Api) (env : Env) (st st' : Storage) (buyer clubName : String) : Prop where
  owned_none : ∀ k control, st.control k = some control → control.ownerAddress ≠ buyer
  released : ∀ control, st.control clubName = some control →
    control.ownerReleased = true ∧ env.block.time ≤ control.saleEnds
  owner : ∃ buyerAddr, api buyer = .ok buyerAddr ∧ st'.control clubName =
    some ⟨buyerAddr, false, env.block.time, st.config.ownerReleaseLockingDuration⟩
  control_other : ∀ k, k ≠ clubName → st'.control k = st.control k
  kept_le : ∀ v, st.keptFor v ≤ st'.keptFor v
  staking_other : ∀ k, k ≠ (clubName, buyer) → st'.staking[k]? = st.staking[k]?

/-- The buyer and the club of a message that is to make the one the owner of the other. -/
def ExecuteMsg.acquisition : ExecuteMsg → Option (String × String)
  | .buyAClub buyer _ clubName _ | .assignAClub buyer _ clubName _ => some (buyer, clubName)
  | _ => none

/-- The club that a message is to release. -/
def ExecuteMsg.releases : ExecuteMsg → Option String
  | .releaseClub _ clubName => some clubName
  | _ => none

/-- What an accepted message does to the control of the clubs. -/
inductive Handover (api : Api) (env : Env) (info : MessageInfo) (st st' : Storage)
    (msg : ExecuteMsg) : Prop
  | keeps (hacquires : msg.acquisition = none) (hreleases : msg.releases = none)
      (h : ∀ k, st'.control k = st.control k)
  | acquires (buyer clubName : String) (hmsg : msg.acquisition = some (buyer, clubName))
      (h : Acquired api env st st' buyer clubName)
  | releases (clubName : String) (control : Control) (hmsg : msg.releases = some clubName)
      (hacquires : msg.acquisition = none) (hold : st.control clubName = some control)
      (hsender : control.ownerAddress = info.sender)
      (h : ∀ k, st'.control k = if clubName = k then
        some { control with startTimestamp := env.block.time, ownerReleased := true }
        else st.control k)

section Handlers

variable {api : Api} {q : Querier} {env : Env} {info : MessageInfo} {st st' : Storage}
  {r : Response Cw20.ExecuteMsg} {c s : String} {a price : ℕ} {autoStake increaseStake : Bool}
  {seller : Option String}

theorem control_of_get {owner : ClubOwnershipDetails} (h : st.ownership[c]? = some owner) :
    st.control c = some owner.control := by
  rw [Storage.control, h]
  rfl

theorem control_insert {owner : ClubOwnershipDetails} {ownership : Store String ClubOwnershipDetails}
    (h : st'.ownership = ownership.insert c owner) (k : String) :
    st'.control k = if c = k then some owner.control else (ownership[k]?).map (·.control) := by
  rw [Storage.control, h, Store.get_insert]
  split
  · rfl
  · rfl

/-- A record rewritten with the control that it has leaves every control as it is. -/
theorem control_of_rewrite {owner owner' : ClubOwnershipDetails}
    (howner : st.ownership[c]? = some owner)
    (h : st'.ownership = st.ownership.insert c owner') (hcontrol : owner'.control = owner.control)
    (k : String) : st'.control k = st.control k := by
  rw [control_insert h]
  split
  · rename_i hk
    rw [hcontrol, ← hk, control_of_get howner]
  · rfl

theorem saveStakingDetails_control
    (h : saveStakingDetails st env s c a autoStake increaseStake = .ok st') (k : String) :
    st'.control k = st.control k := by
  obtain ⟨staking, owner, total, howner, -, hst⟩ := saveStakingDetails_frame h
  exact control_of_rewrite howner (congrArg Storage.ownership hst) rfl k

/-- The new owner is saved, and where there is no stake one of zero. -/
theorem saveOwner_control {club : ClubOwnershipDetails}
    (h : saveOwner env st club s c autoStake = .ok st') :
    (∀ k, st'.control k = if c = k then some club.control else st.control k) ∧
      st'.previousOwners = st.previousOwners ∧
      ∀ k, k ≠ (c, s) → st'.staking[k]? = st.staking[k]? := by
  unfold saveOwner at h
  dsimp only at h
  have hsaved : ∀ k, { st with ownership := st.ownership.insert c club }.control k =
      if c = k then some club.control else st.control k := control_insert rfl
  split at h
  · obtain rfl := pure_eq_ok.mp h
    exact ⟨hsaved, rfl, fun _ _ => rfl⟩
  · have hcontrol := saveStakingDetails_control h
    obtain ⟨staking, owner, total, -, hstaking, rfl⟩ := saveStakingDetails_frame h
    exact ⟨fun k => (hcontrol k).trans (hsaved k), rfl, hstaking⟩

/-- What is kept for the seller is added to what was kept before. -/
theorem keepOwnerReward_kept {sellerName : String} {owner : ClubOwnershipDetails}
    (h : keepOwnerReward st sellerName owner = .ok st') (v : String) :
    st.keptFor v ≤ st'.keptFor v := by
  unfold keepOwnerReward at h
  split at h
  · obtain rfl := pure_eq_ok.mp h
    exact le_rfl
  · obtain ⟨rewardAmount, hadd, h⟩ := bind_eq_ok.mp h
    obtain ⟨-, rfl⟩ := Uint128.add_eq_ok.mp hadd
    obtain rfl := pure_eq_ok.mp h
    unfold Storage.keptFor
    dsimp only
    rw [Store.get_insert]
    split
    · rename_i hv
      rw [← hv]
      exact Nat.le_add_right _ _
    · exact le_rfl

/-- The checks of a sale: the club is released, and the time for it is not over. -/
theorem checkReleased_spec {sellerName : String} {owner : ClubOwnershipDetails} {u : Unit}
    (h : checkReleased env sellerName owner = .ok u) :
    owner.control.ownerReleased = true ∧ env.block.time ≤ owner.control.saleEnds := by
  unfold checkReleased at h
  obtain ⟨hreleased, h⟩ := refuseGeneric_bind_eq_ok.mp h
  dsimp only at h
  obtain ⟨hexpired, -⟩ := refuseGeneric_bind_eq_ok.mp h
  exact ⟨Bool.not_eq_false _ ▸ hreleased, (not_lt.mp hexpired).trans (Timestamp.plusSeconds_le _ _)⟩

/-- **Buying and assigning** are acquisitions. -/
theorem acquireClub_acquired (h : acquireClub api env st s seller c price autoStake = .ok st') :
    Acquired api env st st' s c := by
  obtain ⟨hscan, buyerAddr, acquired, total, hbuyer, hfrom, h⟩ := acquireClub_spec h
  obtain ⟨hcontrol, hprevious, hstaking⟩ := saveOwner_control h
  -- the scan over all clubs finds none that the buyer owns
  have hnone : ∀ k control, st.control k = some control → control.ownerAddress ≠ s := by
    intro k control hk howner
    obtain ⟨owner, hget, rfl⟩ := Option.map_eq_some_iff.mp hk
    exact hscan ⟨owner, (Store.mem_values_iff _ _).mpr ⟨k, hget⟩, howner⟩
  have hkept : (∀ control, st.control c = some control →
      control.ownerReleased = true ∧ env.block.time ≤ control.saleEnds) ∧
      acquired.ownership = st.ownership ∧ acquired.staking = st.staking ∧
      ∀ v, st.keptFor v ≤ acquired.keptFor v := by
    rcases hfrom with ⟨hnew, rfl, -⟩ | ⟨owner, howner, hreleased, hkept, -⟩
    · refine ⟨fun control hc => ?_, rfl, rfl, fun _ => le_rfl⟩
      rw [Storage.control, hnew] at hc
      cases hc
    · obtain ⟨hstakes, hownership⟩ := keepOwnerReward_spec hkept
      refine ⟨fun control hc => ?_, hownership, hstakes, keepOwnerReward_kept hkept⟩
      rw [control_of_get howner] at hc
      cases hc
      exact checkReleased_spec hreleased
  obtain ⟨hreleased, hownership, hstakes, hle⟩ := hkept
  refine ⟨hnone, hreleased, ⟨buyerAddr, hbuyer, ?_⟩, fun k hk => ?_, fun v => ?_,
    fun k hk => ?_⟩
  · rw [hcontrol, if_pos rfl]
    rfl
  · rw [hcontrol, if_neg hk.symm, Storage.control, hownership, Storage.control]
  · rw [Storage.keptFor, Storage.keptFor, hprevious]
    exact hle v
  · rw [hstaking k hk, hstakes]

theorem releaseClub_handover {seller : String}
    (h : releaseClub api env info st seller c = .ok (st', r)) :
    Handover api env info st st' (.releaseClub seller c) := by
  obtain ⟨owner, howner, hsender, -, hst⟩ := releaseClub_spec h
  exact .releases c owner.control rfl rfl (control_of_get howner) hsender
    (control_insert (congrArg Storage.ownership hst))

theorem claimOwnerRewards_control (h : claimOwnerRewards api info st s c = .ok (st', r))
    (k : String) : st'.control k = st.control k := by
  obtain ⟨-, details, hdetails, -, hst, -⟩ := claimOwnerRewards_spec h
  exact control_of_rewrite hdetails (congrArg Storage.ownership hst) rfl k

theorem foldlM_assignStake_control {stakeList : List ClubStakingDetails} {total total' : ℕ}
    (h : stakeList.foldlM (assignStake env c) (st, total) = .ok (st', total')) (k : String) :
    st'.control k = st.control k := by
  refine foldlM_assignStake_keeps (P := fun saved => saved.control k = st.control k) rfl ?_ h
  intro saved saved' s a autoStake hkept hsaved
  exact (saveStakingDetails_control hsaved k).trans hkept

theorem withdrawStakeFromAClub_control {immediate : Bool}
    (h : withdrawStakeFromAClub api q env info st s c a immediate = .ok (st', r)) (k : String) :
    st'.control k = st.control k := by
  obtain ⟨-, decrease, bonding, saved, bonding', -, hsaved, rfl⟩ := withdrawStakeFromAClub_spec h
  exact saveStakingDetails_control hsaved k

/-- A batch rewrites the record of its club with the control that it has. -/
theorem Batch.control {stakerList : List String} {isFirstBatch isFinalBatch : Bool}
    (h : Batch env st st' stakerList c isFirstBatch isFinalBatch) (k : String) :
    st'.control k = st.control k := by
  cases h with
  | idle next hreward hst =>
    rw [hst]
    rfl
  | runs next ranked winning owner terms staking given hreward hranking howner hterms hbatch hloop
      hst =>
    exact control_of_rewrite howner (congrArg Storage.ownership hst) rfl k

/-- **Every accepted message** has one of the effects on the control of the clubs. -/
theorem execute_handover {msg : ExecuteMsg} (h : execute api q env info st msg = .ok (st', r)) :
    Handover api env info st st' msg := by
  cases msg with
  | buyAClub buyer seller clubName autoStake =>
    exact .acquires buyer clubName rfl (acquireClub_acquired (buyAClub_spec h).2.1)
  | assignAClub buyer seller clubName autoStake =>
    exact .acquires buyer clubName rfl (acquireClub_acquired (assignAClub_spec h).1)
  | releaseClub owner clubName => exact releaseClub_handover h
  | stakeOnAClub staker clubName amount autoStake =>
    exact .keeps rfl rfl (saveStakingDetails_control (stakeOnAClub_spec h).2.1)
  | assignStakesToAClub stakeList clubName =>
    obtain ⟨total, hassigned, -⟩ := assignStakesToAClub_spec h
    exact .keeps rfl rfl (foldlM_assignStake_control hassigned)
  | claimOwnerRewards owner clubName => exact .keeps rfl rfl (claimOwnerRewards_control h)
  | claimPreviousOwnerRewards previousOwner =>
    -- the reward of a previous owner is no matter of the club
    obtain ⟨-, details, -, rfl, -⟩ := claimPreviousOwnerRewards_spec h
    exact .keeps rfl rfl fun _ => rfl
  | stakeWithdrawFromAClub staker clubName amount immediateWithdrawal =>
    exact .keeps rfl rfl (withdrawStakeFromAClub_control h)
  | calculateAndDistributeRewards stakerList clubName isFirstBatch isFinalBatch =>
    exact .keeps rfl rfl (calculateAndDistributeRewards_spec h).control
  | claimStakerRewards staker clubName =>
    obtain ⟨-, -, amount, -, -, rfl, -⟩ := claimStakerRewards_spec h
    exact .keeps rfl rfl fun _ => rfl
  | increaseRewardAmount rewardFrom amount =>
    obtain ⟨-, h⟩ := refuse_bind_eq_ok.mp h
    obtain ⟨reward, -, h⟩ := bind_eq_ok.mp h
    cases pure_eq_ok.mp h
    exact .keeps rfl rfl fun _ => rfl

end Handlers

/-! ## Runs -/

/-- No two clubs have the same owner. -/
def Storage.OneClubEach (st : Storage) : Prop :=
  ∀ (k k' : String) (owner owner' : ClubOwnershipDetails), st.ownership[k]? = some owner →
    st.ownership[k']? = some owner' → owner.ownerAddress = owner'.ownerAddress → k = k'

/-- The club that a call acquires. -/
def acquires (api : Api) (st : Storage) (c : Call) : Option String :=
  if (exec api st c).isSome then c.msg.acquisition.map Prod.snd else none

/-- The club that a call releases. -/
def releases (api : Api) (st : Storage) (c : Call) : Option String :=
  if (exec api st c).isSome then c.msg.releases else none

/-- The owner that a call gives to a club. -/
def newOwner (api : Api) (clubName : String) (st : Storage) (c : Call) : Option String :=
  if acquires api st c = some clubName then
    ((commit (exec api) st c).control clubName).map (·.ownerAddress)
  else none

/-- The control that a call gives to a club, by an acquisition or a release. -/
def newControl (api : Api) (clubName : String) (st : Storage) (c : Call) : Option Control :=
  if acquires api st c = some clubName ∨ releases api st c = some clubName then
    (commit (exec api) st c).control clubName
  else none

/-- **Consent**: the club was last acquired for `owner`, and released by `owner` since then, so that
it may be acquired at the time `t`. -/
def Consents (api : Api) (st : Storage) (before : List Call) (clubName owner : String)
    (t : Timestamp) : Prop :=
  ∃ pre acquisition mid release post,
    before = pre ++ acquisition :: (mid ++ release :: post) ∧
    newOwner api clubName (run (exec api) st pre) acquisition = some owner ∧
    (∀ x ∈ history (exec api) (run (exec api) st (pre ++ [acquisition])) (mid ++ release :: post),
      acquires api x.1 x.2 ≠ some clubName) ∧
    releases api (run (exec api) st (pre ++ acquisition :: mid)) release = some clubName ∧
    release.info.sender = owner ∧ release.env.block.time ≤ t ∧
    t ≤ release.env.block.time +
      st.config.ownerReleaseLockingDuration * Timestamp.nanosPerSecond

section Runs

variable {api : Api} {c : Call} {st st' : Storage} {r : Response Cw20.ExecuteMsg} {k : String}

theorem exec_handover (h : exec api st c = some (st', r)) :
    Handover api c.env c.info st st' c.msg :=
  execute_handover (exec_eq_some.mp h)

theorem oneClubEach_iff : st.OneClubEach ↔ ∀ k k' control control', st.control k = some control →
    st.control k' = some control' → control.ownerAddress = control'.ownerAddress → k = k' := by
  constructor
  · intro h k k' control control' hk hk' howner
    obtain ⟨owner, hget, rfl⟩ := Option.map_eq_some_iff.mp hk
    obtain ⟨owner', hget', rfl⟩ := Option.map_eq_some_iff.mp hk'
    exact h k k' owner owner' hget hget' howner
  · intro h k k' owner owner' hk hk' howner
    exact h k k' _ _ (control_of_get hk) (control_of_get hk') howner

/-- **One step** keeps the owners apart: the buyer of a club owns no other. -/
theorem exec_oneClubEach (hapi : ∀ s a, api s = .ok a → a = s) (hone : st.OneClubEach)
    (h : exec api st c = some (st', r)) : st'.OneClubEach := by
  rw [oneClubEach_iff] at hone ⊢
  intro k k' control control' hk hk' howner
  cases exec_handover h with
  | keeps hacquires hreleases hsame =>
    rw [hsame] at hk hk'
    exact hone k k' control control' hk hk' howner
  | acquires buyer clubName hmsg hacquired =>
    obtain ⟨buyerAddr, hbuyer, hnew⟩ := hacquired.owner
    obtain rfl := hapi _ _ hbuyer
    by_cases hclub : k = clubName
    · by_cases hclub' : k' = clubName
      · rw [hclub, hclub']
      · -- the other club is not the buyer's
        rw [hacquired.control_other k' hclub'] at hk'
        rw [hclub, hnew] at hk
        cases hk
        exact absurd howner.symm (hacquired.owned_none k' control' hk')
    · rw [hacquired.control_other k hclub] at hk
      by_cases hclub' : k' = clubName
      · rw [hclub', hnew] at hk'
        cases hk'
        exact absurd howner (hacquired.owned_none k control hk)
      · rw [hacquired.control_other k' hclub'] at hk'
        exact hone k k' control control' hk hk' howner
  | releases clubName old hmsg hacquires hold hsender hsame =>
    -- a release rewrites the control, and keeps the owner
    have hbefore : ∀ k control, st'.control k = some control → ∃ before,
        st.control k = some before ∧ before.ownerAddress = control.ownerAddress := by
      intro k control hk
      rw [hsame] at hk
      split at hk
      · rename_i hclub
        cases hk
        exact ⟨old, hclub ▸ hold, rfl⟩
      · exact ⟨control, hk, rfl⟩
    obtain ⟨before, hk, heq⟩ := hbefore k control hk
    obtain ⟨before', hk', heq'⟩ := hbefore k' control' hk'
    exact hone k k' before before' hk hk' (heq.trans (howner.trans heq'.symm))

theorem Initial.control (hinit : Initial api st) (k : String) : st.control k = none := by
  rw [Storage.control, hinit.spec.2.1]
  simp

theorem acquires_of_exec (h : exec api st c = some (st', r)) :
    acquires api st c = c.msg.acquisition.map Prod.snd :=
  if_pos (by rw [h]; rfl)

theorem releases_of_exec (h : exec api st c = some (st', r)) :
    releases api st c = c.msg.releases :=
  if_pos (by rw [h]; rfl)

theorem acquires_of_revert (h : exec api st c = none) : acquires api st c = none :=
  if_neg (by rw [h]; exact Bool.false_ne_true)

theorem releases_of_revert (h : exec api st c = none) : releases api st c = none :=
  if_neg (by rw [h]; exact Bool.false_ne_true)

/-- Nothing but an acquisition or a release of a club changes its control. -/
theorem control_of_neither (hacquires : acquires api st c ≠ some k)
    (hreleases : releases api st c ≠ some k) :
    (commit (exec api) st c).control k = st.control k := by
  rcases commit_cases (exec api) st c with ⟨r, hr⟩ | ⟨-, hs⟩
  · rw [acquires_of_exec hr] at hacquires
    rw [releases_of_exec hr] at hreleases
    cases exec_handover hr with
    | keeps _ _ hsame => exact hsame k
    | acquires buyer clubName hmsg hacquired =>
      refine hacquired.control_other k fun hk => hacquires ?_
      rw [hmsg, hk]
      rfl
    | releases clubName old hmsg hnone hold hsender hsame =>
      rw [hsame, if_neg]
      rintro rfl
      exact hreleases hmsg
  · rw [hs]

/-- What counts as an acquisition is one. -/
theorem acquired_of_acquires (h : acquires api st c = some k) :
    ∃ buyer, Acquired api c.env st (commit (exec api) st c) buyer k := by
  rcases commit_cases (exec api) st c with ⟨r, hr⟩ | ⟨hnone, -⟩
  · rw [acquires_of_exec hr] at h
    cases exec_handover hr with
    | keeps hnone _ _ => rw [hnone] at h; cases h
    | acquires buyer clubName hmsg hacquired =>
      rw [hmsg] at h
      cases h
      exact ⟨buyer, hacquired⟩
    | releases clubName old hmsg hnone hold hsender hsame => rw [hnone] at h; cases h
  · rw [acquires_of_revert hnone] at h
    cases h

/-- After an acquisition the club has a control, of the buyer. -/
theorem exists_control_of_acquires (h : acquires api st c = some k) :
    ∃ control, (commit (exec api) st c).control k = some control ∧ control.ownerReleased = false := by
  obtain ⟨buyer, hacquired⟩ := acquired_of_acquires h
  obtain ⟨buyerAddr, -, hnew⟩ := hacquired.owner
  exact ⟨_, hnew, rfl⟩

/-- A release is by the owner, and marks the club with its time. -/
theorem control_of_release (h : releases api st c = some k) : ∃ control,
    st.control k = some control ∧ control.ownerAddress = c.info.sender ∧
      (commit (exec api) st c).control k = some { control with
        startTimestamp := c.env.block.time, ownerReleased := true } := by
  rcases commit_cases (exec api) st c with ⟨r, hr⟩ | ⟨hnone, -⟩
  · rw [releases_of_exec hr] at h
    cases exec_handover hr with
    | keeps _ hnone _ => rw [hnone] at h; cases h
    | acquires buyer clubName hmsg hacquired =>
      cases hc : c.msg <;> simp [hc, ExecuteMsg.releases, ExecuteMsg.acquisition] at h hmsg
    | releases clubName old hmsg hnone hold hsender hsame =>
      rw [hmsg] at h
      cases h
      exact ⟨old, hold, hsender, (hsame _).trans (if_pos rfl)⟩
  · rw [releases_of_revert hnone] at h
    cases h

/-- A release is no acquisition. -/
theorem acquires_of_releases (h : releases api st c = some k) : acquires api st c = none := by
  rcases commit_cases (exec api) st c with ⟨r, hr⟩ | ⟨hnone, -⟩
  · rw [releases_of_exec hr] at h
    rw [acquires_of_exec hr]
    cases exec_handover hr with
    | keeps _ hnone _ =>
      rw [hnone] at h
      cases h
    | acquires buyer clubName hmsg hacquired =>
      cases hc : c.msg <;> simp [hc, ExecuteMsg.releases, ExecuteMsg.acquisition] at h hmsg
    | releases clubName old hmsg hnone hold hsender hsame =>
      rw [hnone]
      rfl
  · exact acquires_of_revert hnone

/-- A call that gives no owner to a club does not acquire it. -/
theorem acquires_of_newOwner (h : newOwner api k st c = none) : acquires api st c ≠ some k := by
  intro hacquires
  obtain ⟨control, hcontrol, -⟩ := exists_control_of_acquires hacquires
  rw [newOwner, if_pos hacquires, hcontrol] at h
  cases h

/-- Neither does one that gives no control. -/
theorem acquires_of_newControl (h : newControl api k st c = none) : acquires api st c ≠ some k := by
  intro hacquires
  obtain ⟨control, hcontrol, -⟩ := exists_control_of_acquires hacquires
  rw [newControl, if_pos (.inl hacquires), hcontrol] at h
  cases h

/-- A release leaves the owner as it is. -/
theorem owner_of_release (hacquires : acquires api st c ≠ some k) :
    ((commit (exec api) st c).control k).map (·.ownerAddress) =
      (st.control k).map (·.ownerAddress) := by
  by_cases hreleases : releases api st c = some k
  · obtain ⟨control, hcontrol, -, hnew⟩ := control_of_release hreleases
    rw [hcontrol, hnew]
    rfl
  · rw [control_of_neither hacquires hreleases]

theorem commit_control (st : Storage) (c : Call) (k : String) :
    (commit (exec api) st c).control k = (newControl api k st c).or (st.control k) := by
  unfold newControl
  split
  · rename_i h
    have hsome : ∃ control, (commit (exec api) st c).control k = some control := by
      rcases h with h | h
      · obtain ⟨control, hcontrol, -⟩ := exists_control_of_acquires h
        exact ⟨control, hcontrol⟩
      · obtain ⟨control, -, -, hcontrol⟩ := control_of_release h
        exact ⟨_, hcontrol⟩
    obtain ⟨control, hcontrol⟩ := hsome
    rw [hcontrol]
    rfl
  · rename_i h
    rw [not_or] at h
    rw [control_of_neither h.1 h.2]
    rfl

theorem commit_owner (st : Storage) (c : Call) (k : String) :
    ((commit (exec api) st c).control k).map (·.ownerAddress) =
      (newOwner api k st c).or ((st.control k).map (·.ownerAddress)) := by
  unfold newOwner
  split
  · rename_i h
    obtain ⟨control, hcontrol, -⟩ := exists_control_of_acquires h
    rw [hcontrol]
    rfl
  · rename_i h
    rw [owner_of_release h]
    rfl

/-- The control of a club is the one that an acquisition or a release has given it last. -/
theorem run_control (hinit : Initial api st) (cs : List Call) (k : String) :
    (run (exec api) st cs).control k = lastSome (exec api) (newControl api k) st cs := by
  rw [run_eq_lastSome (g := fun st : Storage => st.control k) fun st c => commit_control st c k]
  rw [hinit.control, Option.or_none]

/-- The owner of a club is the one that has acquired it last. -/
theorem run_owner (hinit : Initial api st) (cs : List Call) (k : String) :
    ((run (exec api) st cs).control k).map (·.ownerAddress) =
      lastSome (exec api) (newOwner api k) st cs := by
  rw [run_eq_lastSome (g := fun st : Storage => (st.control k).map (·.ownerAddress))
    fun st c => commit_owner st c k]
  rw [hinit.control, Option.map_none, Option.or_none]

/-- The time for a sale is the configured one. -/
theorem run_lockingPeriod (hinit : Initial api st) (cs : List Call) {control : Control}
    (h : (run (exec api) st cs).control k = some control) :
    control.lockingPeriod = st.config.ownerReleaseLockingDuration := by
  -- the configuration never changes, so the time of each purchase is that of now
  have hrun : ∀ k control, (run (exec api) st cs).control k = some control →
      control.lockingPeriod = (run (exec api) st cs).config.ownerReleaseLockingDuration := by
    refine run_preserves (I := fun st : Storage => ∀ k control, st.control k = some control →
      control.lockingPeriod = st.config.ownerReleaseLockingDuration) ?_ ?_ cs
    · intro st c st' r hst hexec k control hk
      rw [exec_config hexec]
      cases exec_handover hexec with
      | keeps _ _ hsame => exact hst k control (hsame k ▸ hk)
      | acquires buyer clubName hmsg hacquired =>
        by_cases hclub : k = clubName
        · obtain ⟨buyerAddr, -, hnew⟩ := hacquired.owner
          rw [hclub, hnew] at hk
          cases hk
          rfl
        · exact hst k control (hacquired.control_other k hclub ▸ hk)
      | releases clubName old hmsg hnone hold hsender hsame =>
        rw [hsame] at hk
        split at hk
        · cases hk
          exact hst clubName old hold
        · exact hst k control hk
    · intro k control hk
      rw [hinit.control] at hk
      cases hk
  rw [hrun k control h, run_config]

/-- **A club that is for sale** has last been acquired by its owner, and released since. -/
theorem run_released (hinit : Initial api st) (cs : List Call) {control : Control}
    (h : (run (exec api) st cs).control k = some control) (hreleased : control.ownerReleased = true) :
    ∃ pre acquisition mid release post, cs = pre ++ acquisition :: (mid ++ release :: post) ∧
      newOwner api k (run (exec api) st pre) acquisition = some control.ownerAddress ∧
      (∀ x ∈ history (exec api) (run (exec api) st (pre ++ [acquisition])) (mid ++ release :: post),
        acquires api x.1 x.2 ≠ some k) ∧
      releases api (run (exec api) st (pre ++ acquisition :: mid)) release = some k ∧
      release.info.sender = control.ownerAddress ∧
      release.env.block.time = control.startTimestamp := by
  rw [run_control hinit] at h
  obtain ⟨before, release, post, rfl, hcontrol, hpost⟩ := lastSome_eq_some h
  unfold newControl at hcontrol
  split at hcontrol
  · rename_i hevent
    rcases hevent with hacquires | hreleases
    · -- an acquisition leaves the club not for sale
      obtain ⟨control', hcontrol', hnot⟩ := exists_control_of_acquires hacquires
      rw [hcontrol'] at hcontrol
      cases hcontrol
      rw [hnot] at hreleased
      cases hreleased
    · obtain ⟨old, hold, hsender, hnew⟩ := control_of_release hreleases
      rw [hnew] at hcontrol
      cases hcontrol
      -- who releases the club has acquired it before
      have howner := run_owner hinit before k
      rw [hold] at howner
      obtain ⟨pre, acquisition, mid, rfl, hacquired, hmid⟩ := lastSome_eq_some howner.symm
      refine ⟨pre, acquisition, mid, release, post, by simp, hacquired, fun x hx => ?_, hreleases,
        hsender.symm, rfl⟩
      -- it is acquired neither before the release, nor by it, nor after it
      rw [history_append, history_cons, ← run_append, ← List.append_cons] at hx
      rcases List.mem_append.mp hx with hx | hx
      · exact acquires_of_newOwner (hmid x hx)
      · rcases List.mem_cons.mp hx with rfl | hx
        · rw [acquires_of_releases hreleases]
          exact (Option.some_ne_none k).symm
        · rw [run_snoc] at hpost
          exact acquires_of_newControl (hpost x hx)
  · cases hcontrol

end Runs

/-- **An address owns at most one club**, in every reachable state. -/
theorem owner_unique (api : Api) (hapi : ∀ s a, api s = .ok a → a = s) (st : Storage)
    (hinit : Initial api st) (cs : List Call) : (run (exec api) st cs).OneClubEach := by
  refine run_preserves (I := Storage.OneClubEach)
    (fun _ _ _ _ hone h => exec_oneClubEach hapi hone h) ?_ cs
  intro k k' owner owner' hk
  rw [hinit.spec.2.1] at hk
  simp at hk

namespace Sample

/-- A club is assigned to its owner, who releases it. -/
def forSale : List Call :=
  [call 1 "admin" (.assignAClub "owner" none "club" false),
    call 2 "owner" (.releaseClub "owner" "club")]

def buy : Call := call 3 "buyer" (.buyAClub "buyer" (some "owner") "club" false)

end Sample

open Sample in
/-- The club is sold, and the buyer owns no other. -/
theorem owner_unique_sample :
    (run (exec api) storage (forSale ++ [buy])).OneClubEach :=
  owner_unique api (fun _ _ h => (Except.ok.inj h).symm) storage initial (forSale ++ [buy])

/-- **A club changes hands with its owner's consent**: whoever owns a club when it is bought or
assigned was the last to acquire it and has released it since, no longer ago than the owners are
locked for; and nothing but these messages changes what decides about a sale. -/
theorem owner_consents (api : Api) (st : Storage) (hinit : Initial api st) (cs : List Call)
    (htime : (cs.map fun c => c.env.block.time).Pairwise (· ≤ ·)) :
    (∀ before c after, cs = before ++ c :: after →
      ∀ clubName owner, acquires api (run (exec api) st before) c = some clubName →
        (run (exec api) st before).ownership[clubName]? = some owner →
        Consents api st before clubName owner.ownerAddress c.env.block.time) ∧
      ∀ x ∈ history (exec api) st cs, ∀ clubName, acquires api x.1 x.2 ≠ some clubName →
        releases api x.1 x.2 ≠ some clubName →
        (commit (exec api) x.1 x.2).control clubName = x.1.control clubName := by
  refine ⟨?_, fun x _ clubName => control_of_neither⟩
  rintro before c after rfl clubName owner hacquires howner
  have hcontrol := control_of_get howner
  obtain ⟨buyer, hacquired⟩ := acquired_of_acquires hacquires
  have hsale := hacquired.released _ hcontrol
  have hperiod := run_lockingPeriod hinit before hcontrol
  obtain ⟨pre, acquisition, mid, release, post, rfl, hnew, hlast, hreleases, hsender, hstart⟩ :=
    run_released hinit before hcontrol hsale.1
  refine ⟨pre, acquisition, mid, release, post, rfl, hnew, hlast, hreleases, hsender, ?_, ?_⟩
  · -- the release comes before in the run
    rw [List.map_append, List.pairwise_append] at htime
    refine htime.2.2 _ (List.mem_map_of_mem ?_) _ (by simp)
    simp
  · have hends := hsale.2
    rw [Control.saleEnds, hperiod, ← hstart] at hends
    exact hends

open Sample in
/-- The sale of the third second has the owner's consent. -/
theorem owner_consents_sample : Consents api storage forSale "club" "owner" (second 3) :=
  (owner_consents api storage initial (forSale ++ [buy]) (by decide +kernel)).1 forSale buy [] rfl
    "club" ⟨"club", second 2, 21, "owner", 0, 0, true, 0⟩ (by decide +kernel) (by decide +kernel)

end Clubstaking
