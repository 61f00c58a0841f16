import LiquidityContracts.CosmWasm.Run
import LiquidityContracts.Staking.Contract

/-!
# Stakes and totals

For what is told about stakes the state of the staking contract is read as two things: the records
under each club and staker, of which there is at most one, and the total that each club records.
A message replaces the records under some keys and moves the totals of their clubs.

## Main definitions

* `Call`, `exec`: a message with the block and the answers it meets, and its effect
* `Tidy`: a staker has at most one record in a club, and no pending reward when it is staked
* `Storage.total`, `stakedIn`: the total a club records, and the sum of its stakes
* `Replaces`, `Increases`: the changes of the stakes

## Main results

* `saveStakingDetails_increase`, `saveStakingDetails_decrease`: the writer of the stakes
* `stakedIn_replaces`: how the sum of the stakes moves
-/

namespace Clubstaking

open CosmWasm

/-- A message as the contract receives it: the answers to its queries, the block, the sender and
the funds. -/
structure Call where
  q : Querier
  env : Env
  info : MessageInfo
  msg : ExecuteMsg

/-- The effect of a call; `none` when it is reverted. -/
def exec (api : Api) (st : Storage) (c : Call) : Option (Storage × Response Cw20.ExecuteMsg) :=
  (execute api c.q c.env c.info st c.msg).toOption

/-! ## Records -/

/-- A record of the staker, whose reward is not pending when it is staked. -/
structure ClubStakingDetails.IsOf (staker : String) (r : ClubStakingDetails) : Prop where
  staker : r.stakerAddress = staker
  folded : r.autoStake → r.rewardAmount = 0

/-- A staker has at most one record in a club. -/
def Tidy (staking : Store (String × String) (List ClubStakingDetails)) : Prop :=
  ∀ k, stakesAt staking k = [] ∨ ∃ r, stakesAt staking k = [r] ∧ r.IsOf k.2

/-- The staked amount of some records. -/
def stakedOf (stakes : List ClubStakingDetails) : ℕ := (stakes.map (·.stakedAmount)).sum

/-- The reward that some records leave to be claimed. -/
def pendingOf (stakes : List ClubStakingDetails) : ℕ := (stakes.map (·.rewardAmount)).sum

/-- The total that a club records, zero for no club. -/
def Storage.total (st : Storage) (clubName : String) : ℕ :=
  Store.weigh (fun _ owner => owner.totalStakedAmount) st.ownership clubName

/-- The sum of the stakes stored for a club. -/
def stakedIn (staking : Store (String × String) (List ClubStakingDetails)) (clubName : String) : ℕ :=
  Store.total (fun k stakes => if k.1 = clubName then stakedOf stakes else 0) staking

section Records

variable {staking staking' : Store (String × String) (List ClubStakingDetails)}
  {k : String × String} {c s : String} {l : List ClubStakingDetails} {st : Storage}

@[simp] theorem stakedOf_nil : stakedOf [] = 0 := rfl

@[simp] theorem stakedOf_singleton (r : ClubStakingDetails) : stakedOf [r] = r.stakedAmount := by
  simp [stakedOf]

@[simp] theorem pendingOf_nil : pendingOf [] = 0 := rfl

@[simp] theorem pendingOf_singleton (r : ClubStakingDetails) : pendingOf [r] = r.rewardAmount := by
  simp [pendingOf]

@[simp] theorem stakesAt_empty : stakesAt ∅ k = [] := by
  simp [stakesAt]

theorem stakesAt_insert (a : String × String) :
    stakesAt (staking.insert k l) a = if k = a then l else stakesAt staking a := by
  rw [stakesAt, Store.get_insert]
  by_cases h : k = a
  · simp [h]
  · simp [h, stakesAt]

theorem tidy_empty : Tidy ∅ := fun _ => .inl stakesAt_empty

/-- Tidiness is kept when the records under one key are replaced by none, or by one that is in
order. -/
theorem Tidy.replace (ht : Tidy staking)
    (h : ∀ a, stakesAt staking' a = if k = a then l else stakesAt staking a)
    (hl : l = [] ∨ ∃ r, l = [r] ∧ r.IsOf k.2) : Tidy staking' := by
  intro a
  rw [h]
  by_cases hka : k = a
  · rw [if_pos hka, ← hka]
    exact hl
  · rw [if_neg hka]
    exact ht a

/-- Where no record is the staker's, there is no record. -/
theorem Tidy.eq_nil (ht : Tidy staking)
    (h : (stakesAt staking (c, s)).any (fun stake => stake.stakerAddress = s) = false) :
    stakesAt staking (c, s) = [] := by
  rcases ht (c, s) with hnil | ⟨r, hr, hof⟩
  · exact hnil
  · rw [hr, List.any_cons, decide_eq_true hof.staker] at h
    cases h

theorem stakes_of_get {l : List ClubStakingDetails} (h : st.staking[(c, s)]? = some l) :
    st.stakes c s = l := by
  rw [Storage.stakes, stakesAt, h]
  rfl

theorem total_of_get {owner : ClubOwnershipDetails} (h : st.ownership[c]? = some owner) :
    st.total c = owner.totalStakedAmount :=
  Store.weigh_of_get h

theorem total_insert_ownership (owner : ClubOwnershipDetails) (a : String) :
    { st with ownership := st.ownership.insert c owner }.total a =
      if c = a then owner.totalStakedAmount else st.total a :=
  Store.weigh_insert ..

/-- **A sum over the stakes** moves by the change of the records under the key. -/
theorem total_replaces {w : String × String → List ClubStakingDetails → ℕ} (hw : ∀ k, w k [] = 0)
    (h : ∀ a, stakesAt staking' a = if k = a then l else stakesAt staking a) :
    Store.total w staking' + w k (stakesAt staking k) = Store.total w staking + w k l := by
  have hinsert : Store.total w staking' = Store.total w (staking.insert k l) := by
    refine Store.total_congr fun a => ?_
    rw [Store.weigh_getD hw, Store.weigh_getD hw]
    change w a (stakesAt staking' a) = w a (stakesAt (staking.insert k l) a)
    rw [h, stakesAt_insert]
  rw [hinsert]
  exact Store.total_insert_getD hw staking k l

theorem weigh_stakes (a : String × String) :
    Store.weigh (fun k stakes => if k.1 = c then stakedOf stakes else 0) staking a =
      if a.1 = c then stakedOf (stakesAt staking a) else 0 :=
  Store.weigh_getD (fun _ => ite_self 0) staking a

/-- Stores with the same records have the same sums. -/
theorem stakedIn_congr (h : ∀ a, stakesAt staking' a = stakesAt staking a) :
    stakedIn staking' c = stakedIn staking c := by
  refine Store.total_congr fun a => ?_
  rw [weigh_stakes, weigh_stakes, h a]

theorem stakedIn_insert (staking : Store (String × String) (List ClubStakingDetails))
    (k : String × String) (l : List ClubStakingDetails) (c : String) :
    stakedIn (staking.insert k l) c + (if k.1 = c then stakedOf (stakesAt staking k) else 0) =
      stakedIn staking c + (if k.1 = c then stakedOf l else 0) :=
  Store.total_insert_getD (fun _ => ite_self 0) staking k l

/-- **The sum of the stakes** moves by the change of the records under the key. -/
theorem stakedIn_replaces (h : ∀ a, stakesAt staking' a = if k = a then l else stakesAt staking a) :
    stakedIn staking' c + (if k.1 = c then stakedOf (stakesAt staking k) else 0) =
      stakedIn staking c + (if k.1 = c then stakedOf l else 0) :=
  total_replaces (fun _ => ite_self 0) h

end Records

/-! ## Changes -/

/-- The records and the totals are the same. -/
structure Same (st st' : Storage) : Prop where
  stakes : ∀ a, stakesAt st'.staking a = stakesAt st.staking a
  total : ∀ c, st'.total c = st.total c

/-- The records under `k` are replaced by `l`, and the total of its club becomes `t`. -/
structure Replaces (k : String × String) (l : List ClubStakingDetails) (t : ℕ)
    (st st' : Storage) : Prop where
  stakes : ∀ a, stakesAt st'.staking a = if k = a then l else stakesAt st.staking a
  total : ∀ c, st'.total c = if k.1 = c then t else st.total c

/-- An increase of the stake of a staker. -/
structure Increase where
  staker : String
  amount : ℕ
  autoStake : Bool
  deriving DecidableEq, Repr

/-- The record after an increase; with auto-stake the pending reward is staked as well. -/
def ClubStakingDetails.increase (r : ClubStakingDetails) (i : Increase) : ClubStakingDetails :=
  if i.autoStake then
    { r with
      stakedAmount := r.stakedAmount + i.amount + r.rewardAmount
      rewardAmount := 0
      autoStake := true }
  else { r with stakedAmount := r.stakedAmount + i.amount, autoStake := false }

/-- The record after a withdrawal. -/
def ClubStakingDetails.decrease (r : ClubStakingDetails) (amount : ℕ) : ClubStakingDetails :=
  { r with stakedAmount := r.stakedAmount - amount }

/-- The records after an increase: a first stake has a new record. -/
def increased (env : Env) (clubName : String) (i : Increase) :
    List ClubStakingDetails → List ClubStakingDetails
  | [] => [newStake env i.staker clubName i.amount i.autoStake]
  | stakes => stakes.map (·.increase i)

@[simp] theorem increased_nil (env : Env) (clubName : String) (i : Increase) :
    increased env clubName i [] = [newStake env i.staker clubName i.amount i.autoStake] := rfl

@[simp] theorem increased_singleton (env : Env) (clubName : String) (i : Increase)
    (r : ClubStakingDetails) : increased env clubName i [r] = [r.increase i] := rfl

/-- The stakes in a club are increased one after the other. -/
inductive Increases (env : Env) (clubName : String) : List Increase → Storage → Storage → Prop
  | nil {st st'} (h : Same st st') : Increases env clubName [] st st'
  | cons {i is st st₁ st'}
      (h : Replaces (clubName, i.staker)
        (increased env clubName i (stakesAt st.staking (clubName, i.staker)))
        (st.total clubName + i.amount) st st₁)
      (hrest : Increases env clubName is st₁ st') : Increases env clubName (i :: is) st st'

section Changes

variable {env : Env} {c s : String} {st st₁ st' : Storage} {i : Increase} {is : List Increase}
  {k : String × String} {l : List ClubStakingDetails} {t : ℕ}

theorem Same.refl (st : Storage) : Same st st := ⟨fun _ => rfl, fun _ => rfl⟩

theorem Same.trans (h : Same st st₁) (h' : Same st₁ st') : Same st st' :=
  ⟨fun a => (h'.stakes a).trans (h.stakes a), fun c => (h'.total c).trans (h.total c)⟩

theorem Same.tidy (h : Same st st') (ht : Tidy st.staking) : Tidy st'.staking := by
  intro a
  rw [h.stakes]
  exact ht a

theorem Same.replaces (h : Same st st₁) (h' : Replaces k l t st₁ st') : Replaces k l t st st' := by
  refine ⟨fun a => ?_, fun c => ?_⟩
  · rw [h'.stakes, h.stakes]
  · rw [h'.total, h.total]

/-- An increase leaves a single record that is in order. -/
theorem increased_isOf (ht : Tidy st.staking) :
    ∃ r, increased env c i (stakesAt st.staking (c, i.staker)) = [r] ∧ r.IsOf i.staker := by
  rcases ht (c, i.staker) with hnil | ⟨r, hr, hof⟩
  · rw [hnil]
    exact ⟨_, rfl, rfl, fun _ => rfl⟩
  · rw [hr]
    refine ⟨_, rfl, ?_⟩
    unfold ClubStakingDetails.increase
    split
    · exact ⟨hof.staker, fun _ => rfl⟩
    · exact ⟨hof.staker, by rintro ⟨⟩⟩

theorem Increases.tidy (h : Increases env c is st st') (ht : Tidy st.staking) :
    Tidy st'.staking := by
  induction h with
  | nil h => exact h.tidy ht
  | cons h _ ih => exact ih (ht.replace h.stakes (.inr (increased_isOf ht)))

/-- An increase stakes its amount, and with auto-stake what is pending. -/
theorem stakedOf_increased (ht : Tidy st.staking) :
    stakedOf (increased env c i (stakesAt st.staking (c, i.staker))) =
      stakedOf (stakesAt st.staking (c, i.staker)) + i.amount +
        if i.autoStake then pendingOf (stakesAt st.staking (c, i.staker)) else 0 := by
  rcases ht (c, i.staker) with hnil | ⟨r, hr, -⟩
  · rw [hnil]
    simp [newStake]
  · rw [hr, increased_singleton, stakedOf_singleton, stakedOf_singleton, pendingOf_singleton,
      ClubStakingDetails.increase]
    split
    · rfl
    · rfl

/-- An increase leaves no more pending than there was. -/
theorem pendingOf_increased_le (ht : Tidy st.staking) :
    pendingOf (increased env c i (stakesAt st.staking (c, i.staker))) ≤
      pendingOf (stakesAt st.staking (c, i.staker)) := by
  rcases ht (c, i.staker) with hnil | ⟨r, hr, -⟩
  · rw [hnil]
    exact le_rfl
  · rw [hr, increased_singleton, pendingOf_singleton, pendingOf_singleton,
      ClubStakingDetails.increase]
    split
    · exact Nat.zero_le _
    · exact le_rfl

/-- Increases leave no more pending under any key than there was. -/
theorem Increases.pendingOf_le (h : Increases env c is st st') (ht : Tidy st.staking)
    (k : String × String) :
    pendingOf (stakesAt st'.staking k) ≤ pendingOf (stakesAt st.staking k) := by
  induction h with
  | nil h => rw [h.stakes]
  | cons h _ ih =>
    refine (ih (ht.replace h.stakes (.inr (increased_isOf ht)))).trans ?_
    rw [h.stakes]
    split
    · rename_i hk
      rw [← hk]
      exact pendingOf_increased_le ht
    · exact le_rfl

theorem Increases.of_same (h : Same st st₁) (h' : Increases env c is st₁ st') :
    Increases env c is st st' := by
  cases h' with
  | nil h' => exact .nil (h.trans h')
  | cons hfirst hrest =>
    rw [h.stakes, h.total] at hfirst
    exact .cons (h.replaces hfirst) hrest

/-- A single increase. -/
theorem Increases.single
    (h : Replaces (c, i.staker) (increased env c i (stakesAt st.staking (c, i.staker)))
      (st.total c + i.amount) st st') : Increases env c [i] st st' :=
  .cons h (.nil (.refl st'))

end Changes

/-! ## The writer of the stakes -/

section Writer

variable {env : Env} {c s : String} {st st' : Storage} {a : ℕ} {autoStake : Bool}
  {r r' : ClubStakingDetails}

theorem updateStake_increase (hr : r.stakerAddress = s)
    (h : updateStake s a autoStake true r = .ok r') : r' = r.increase ⟨s, a, autoStake⟩ := by
  rw [updateStake, if_pos hr, if_pos rfl] at h
  obtain ⟨staked, hstaked, h⟩ := bind_eq_ok.mp h
  obtain ⟨-, rfl⟩ := Uint128.add_eq_ok.mp hstaked
  unfold ClubStakingDetails.increase
  split at h
  · rename_i hauto
    obtain ⟨folded, hfolded, h⟩ := bind_eq_ok.mp h
    obtain ⟨-, rfl⟩ := Uint128.add_eq_ok.mp hfolded
    rw [if_pos hauto]
    exact (pure_eq_ok.mp h).symm
  · rename_i hauto
    rw [if_neg hauto]
    exact (pure_eq_ok.mp h).symm

theorem updateStake_decrease (hr : r.stakerAddress = s)
    (h : updateStake s a autoStake false r = .ok r') :
    a ≤ r.stakedAmount ∧ r' = r.decrease a := by
  rw [updateStake, if_pos hr, if_neg Bool.false_ne_true] at h
  obtain ⟨hle, h⟩ := refuseGeneric_bind_eq_ok.mp h
  obtain ⟨staked, hstaked, h⟩ := bind_eq_ok.mp h
  obtain ⟨-, rfl⟩ := Uint128.sub_eq_ok.mp hstaked
  exact ⟨not_lt.mp hle, (pure_eq_ok.mp h).symm⟩

/-- The one record of a staker, updated. -/
theorem mapM_updateStake_singleton {increaseStake : Bool} {updated : List ClubStakingDetails}
    (h : [r].mapM (updateStake s a autoStake increaseStake) = .ok updated) :
    ∃ r', updateStake s a autoStake increaseStake r = .ok r' ∧ updated = [r'] := by
  rw [List.mapM_cons, List.mapM_nil] at h
  obtain ⟨r', hr', h⟩ := bind_eq_ok.mp h
  exact ⟨r', hr', (pure_eq_ok.mp h).symm⟩

/-- What an increase saves: the record and the total of the club. -/
theorem saveStakingDetails_increase (ht : Tidy st.staking)
    (h : saveStakingDetails st env s c a autoStake true = .ok st') :
    ∃ owner, st.ownership[c]? = some owner ∧ st' = { st with
      staking := st.staking.insert (c, s)
        (increased env c ⟨s, a, autoStake⟩ (stakesAt st.staking (c, s)))
      ownership := st.ownership.insert c
        { owner with totalStakedAmount := owner.totalStakedAmount + a } } := by
  unfold saveStakingDetails at h
  obtain ⟨updated, hupdated, h⟩ := bind_eq_ok.mp h
  obtain ⟨owner, howner, h⟩ := bind_eq_ok.mp h
  obtain ⟨total, htotal, h⟩ := bind_eq_ok.mp h
  rw [if_pos rfl] at htotal
  obtain ⟨-, rfl⟩ := Uint128.add_eq_ok.mp htotal
  obtain rfl := pure_eq_ok.mp h
  refine ⟨owner, load_eq_ok.mp howner, ?_⟩
  rw [Storage.stakes] at hupdated ⊢
  -- there is no record, and one is added; or the one there is gets increased
  rcases ht (c, s) with hnil | ⟨r, hr, hof⟩
  · rw [hnil]
    rfl
  · rw [hr] at hupdated ⊢
    obtain ⟨r', hr', rfl⟩ := mapM_updateStake_singleton hupdated
    rw [updateStake_increase hof.staker hr', List.any_cons, decide_eq_true hof.staker]
    rfl

theorem saveStakingDetails_replaces (ht : Tidy st.staking)
    (h : saveStakingDetails st env s c a autoStake true = .ok st') :
    Replaces (c, s) (increased env c ⟨s, a, autoStake⟩ (stakesAt st.staking (c, s)))
      (st.total c + a) st st' := by
  obtain ⟨owner, howner, rfl⟩ := saveStakingDetails_increase ht h
  refine ⟨fun k => stakesAt_insert k, fun d => ?_⟩
  rw [total_of_get howner]
  exact total_insert_ownership _ d

/-- What a withdrawal saves. Where there is no record nothing is decreased but the total. -/
theorem saveStakingDetails_decrease (ht : Tidy st.staking)
    (h : saveStakingDetails st env s c a autoStake false = .ok st') :
    ∃ owner staking, st.ownership[c]? = some owner ∧ a ≤ owner.totalStakedAmount ∧
      (∀ r ∈ stakesAt st.staking (c, s), a ≤ r.stakedAmount) ∧
      (∀ k, stakesAt staking k = if (c, s) = k then
        (stakesAt st.staking (c, s)).map (·.decrease a) else stakesAt st.staking k) ∧
      st' = { st with
        staking := staking
        ownership := st.ownership.insert c
          { owner with totalStakedAmount := owner.totalStakedAmount - a } } := by
  unfold saveStakingDetails at h
  obtain ⟨updated, hupdated, h⟩ := bind_eq_ok.mp h
  obtain ⟨owner, howner, h⟩ := bind_eq_ok.mp h
  obtain ⟨total, htotal, h⟩ := bind_eq_ok.mp h
  rw [if_neg Bool.false_ne_true] at htotal
  obtain ⟨hle, rfl⟩ := Uint128.sub_eq_ok.mp htotal
  obtain rfl := pure_eq_ok.mp h
  refine ⟨owner, _, load_eq_ok.mp howner, hle, ?_, ?_, rfl⟩
  · intro r hmem
    rw [Storage.stakes] at hupdated
    rcases ht (c, s) with hnil | ⟨r₀, hr, hof⟩
    · rw [hnil] at hmem
      cases hmem
    · rw [hr] at hupdated hmem
      obtain rfl := List.mem_singleton.mp hmem
      obtain ⟨r', hr', -⟩ := mapM_updateStake_singleton hupdated
      exact (updateStake_decrease hof.staker hr').1
  · intro k
    rw [Storage.stakes] at hupdated ⊢
    rcases ht (c, s) with hnil | ⟨r, hr, hof⟩
    · rw [hnil, List.map_nil]
      -- without a record nothing is written for the staker
      change stakesAt st.staking k = _
      by_cases hk : (c, s) = k
      · rw [if_pos hk, ← hk]
        exact hnil
      · rw [if_neg hk]
    · rw [hr] at hupdated ⊢
      obtain ⟨r', hr', rfl⟩ := mapM_updateStake_singleton hupdated
      rw [(updateStake_decrease hof.staker hr').2, List.any_cons, decide_eq_true hof.staker]
      exact stakesAt_insert k

end Writer

end Clubstaking
