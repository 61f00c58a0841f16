import LiquidityContracts.Token.Ledger

/-!
# What is lent

An owner lets a spender take from its balance up to an allowance. Every unit that is granted is
spent, taken back or still there, so that spenders take no more than what they are granted, and an
owner loses no more than what it sends itself and what it grants.

## Main definitions

* `Call.pair`: the owner and the spender whose allowance a call is about
* `State.lent p`: what is granted and not spent yet, over the owners and spenders that meet `p`
* `granted`, `revoked`, `spent`: what a call adds to these allowances and takes out of them
* `sent a`: what a holder sends or burns itself

## Main results

* `exec_allowance`: a message changes the one allowance that it is about
* `commit_lent`, `run_lent`: what is granted is spent, taken back or still lent
* `run_balance`: what an owner may lose over a run
* `run_idle`: an owner that makes no call loses nothing
-/

namespace Cw20

open CosmWasm

/-- The owner and the spender whose allowance a call is about. -/
def Call.pair (api : Api) (c : Call) : Option (Addr × Addr) :=
  match c.msg with
  | .increaseAllowance spender _ _ | .decreaseAllowance spender _ _ =>
    (api spender).toOption.map fun spender => (c.info.sender, spender)
  | .transferFrom owner _ _ | .sendFrom owner _ _ _ | .burnFrom owner _ =>
    (api owner).toOption.map fun owner => (owner, c.info.sender)
  | _ => none

/-- What a message adds to an allowance. -/
def ExecuteMsg.grants : ExecuteMsg → ℕ
  | .increaseAllowance _ amount _ => amount
  | _ => 0

/-- What a message takes back of an allowance, as far as it is there. -/
def ExecuteMsg.revokes : ExecuteMsg → ℕ
  | .decreaseAllowance _ amount _ => amount
  | _ => 0

/-- What a message spends of an allowance. -/
def ExecuteMsg.spends : ExecuteMsg → ℕ
  | .transferFrom _ _ amount | .sendFrom _ _ amount _ | .burnFrom _ amount => amount
  | _ => 0

/-- What a message takes from whoever sends it. -/
def ExecuteMsg.sends : ExecuteMsg → ℕ
  | .transfer _ amount | .send _ amount _ | .burn amount => amount
  | _ => 0

/-- What is granted and not spent yet, over the owners and spenders that meet `p`. -/
def State.lent (p : Addr × Addr → Prop) [DecidablePred p] (st : State) : ℕ :=
  Store.total (fun k a => if p k then a.allowance else 0) st.allowances

section Lent

variable (api : Api) (p : Addr × Addr → Prop) [DecidablePred p]

/-- A call is accepted and is about the allowance of an owner and a spender that meet `p`. -/
def Concerns (st : State) (c : Call) : Prop :=
  (exec api st c).isSome ∧ ∃ k ∈ c.pair api, p k

instance (st : State) (c : Call) : Decidable (Concerns api p st c) :=
  inferInstanceAs (Decidable (_ ∧ _))

/-- What a call grants to spenders. -/
def granted (st : State) (c : Call) : ℕ := if Concerns api p st c then c.msg.grants else 0

/-- What a call takes back from spenders. -/
def revoked (st : State) (c : Call) : ℕ :=
  if Concerns api p st c then min c.msg.revokes ((c.pair api).elim 0 st.allowance) else 0

/-- What spenders take by a call. -/
def spent (st : State) (c : Call) : ℕ := if Concerns api p st c then c.msg.spends else 0

/-- What a holder sends or burns itself. -/
def sent (a : Addr) (st : State) (c : Call) : ℕ :=
  if (exec api st c).isSome ∧ c.info.sender = a then c.msg.sends else 0

variable {api p} {st st' : State} {c : Call} {r : Response Cw20ReceiveMsg}

theorem State.weigh_allowances (st : State) (k : Addr × Addr) :
    Store.weigh (fun k a => if p k then a.allowance else 0) st.allowances k =
      if p k then st.allowance k else 0 := by
  unfold Store.weigh State.allowance
  cases st.allowances[k]? with
  | none => simp
  | some lent => rfl

/-- Nothing is lent to anybody when no allowance is left. -/
theorem State.lent_eq_zero (h : ∀ k, p k → st.allowance k = 0) : st.lent p = 0 := by
  rw [State.lent, Store.total_eq_sum (Finset.Subset.refl _)]
  refine Finset.sum_eq_zero fun k _ => ?_
  rw [State.weigh_allowances]
  split
  · exact h k ‹_›
  · rfl

/-- A change of one allowance changes what is lent. -/
theorem State.lent_changed {k : Addr × Addr}
    (h : ∀ a, k ≠ a → st'.allowances[a]? = st.allowances[a]?) :
    st'.lent p + (if p k then st.allowance k else 0) =
      st.lent p + if p k then st'.allowance k else 0 := by
  rw [← st.weigh_allowances, ← st'.weigh_allowances]
  refine Store.total_add_weigh _ _ _ _ fun a ha => ?_
  rw [Store.weigh, h a ha, Store.weigh]

/-- What is spent out of an allowance is no longer there. -/
theorem deductAllowance_allowance {st₁ : State} {owner spender : Addr} {block : BlockInfo}
    {amount : ℕ} (h : st.deductAllowance owner spender block amount = .ok st₁)
    (hallow : st'.allowances = st₁.allowances) :
    (∀ k, (owner, spender) ≠ k → st'.allowances[k]? = st.allowances[k]?) ∧
      amount + st'.allowance (owner, spender) = st.allowance (owner, spender) ∧
      st₁.balances = st.balances := by
  obtain ⟨lent, hlent, -, hle, rfl⟩ := State.deductAllowance_eq_ok.mp h
  rw [State.allowance, State.allowance, hallow]
  refine ⟨fun k hk => Store.get_insert_of_ne _ _ hk, ?_, rfl⟩
  rw [Store.get_insert_self, hlent]
  exact Nat.add_sub_of_le hle

section Handlers

variable {env : Env} {info : MessageInfo} {amount : ℕ}

theorem executeIncreaseAllowance_allowance {spender : String} {expires : Option Expiration}
    (h : executeIncreaseAllowance api info st spender amount expires = .ok (st', r)) :
    ∃ a, api spender = .ok a ∧
      (∀ k, (info.sender, a) ≠ k → st'.allowances[k]? = st.allowances[k]?) ∧
      st'.allowance (info.sender, a) = st.allowance (info.sender, a) + amount := by
  unfold executeIncreaseAllowance at h
  obtain ⟨spenderAddr, hspender, h⟩ := bind_eq_ok.mp h
  obtain ⟨-, h⟩ := refuse_bind_eq_ok.mp h
  obtain ⟨sum, hsum, h⟩ := bind_eq_ok.mp h
  obtain ⟨-, rfl⟩ := Uint128.add_eq_ok.mp hsum
  cases h
  refine ⟨spenderAddr, validate_eq_ok.mp hspender, fun k hk => Store.get_insert_of_ne _ _ hk, ?_⟩
  rw [← st.getD_allowance, State.allowance, Store.get_insert_self]
  rfl

theorem executeDecreaseAllowance_allowance {spender : String} {expires : Option Expiration}
    (h : executeDecreaseAllowance api info st spender amount expires = .ok (st', r)) :
    ∃ a, api spender = .ok a ∧
      (∀ k, (info.sender, a) ≠ k → st'.allowances[k]? = st.allowances[k]?) ∧
      min amount (st.allowance (info.sender, a)) + st'.allowance (info.sender, a) =
        st.allowance (info.sender, a) := by
  unfold executeDecreaseAllowance at h
  obtain ⟨spenderAddr, hspender, h⟩ := bind_eq_ok.mp h
  obtain ⟨-, h⟩ := refuse_bind_eq_ok.mp h
  obtain ⟨lent, hlent, h⟩ := bind_eq_ok.mp h
  have hbefore : st.allowance (info.sender, spenderAddr) = lent.allowance := by
    rw [State.allowance, load_eq_ok.mp hlent]
    rfl
  refine ⟨spenderAddr, validate_eq_ok.mp hspender, ?_⟩
  rw [hbefore]
  split at h
  · rename_i hlt
    obtain ⟨left, hleft, h⟩ := bind_eq_ok.mp h
    obtain ⟨-, rfl⟩ := Uint128.checkedSub_eq_ok.mp hleft
    cases h
    refine ⟨fun k hk => Store.get_insert_of_ne _ _ hk, ?_⟩
    rw [State.allowance, Store.get_insert_self, min_eq_left hlt.le]
    exact Nat.add_sub_of_le hlt.le
  -- all of it is taken back
  · rename_i hle
    cases h
    refine ⟨fun k hk => by rw [Store.get_erase, if_neg hk], ?_⟩
    rw [State.allowance, Store.get_erase, if_pos rfl, min_eq_right (not_lt.mp hle)]
    rfl

/-- An amount is spent by a spender from what an owner has lent to it: no other allowance changes, and
no more than the amount leaves a balance, the owner's. -/
def SpendsFrom (api : Api) (spender : Addr) (owner : String) (amount : ℕ) (st st' : State) : Prop :=
  ∃ a, api owner = .ok a ∧ (∀ k, (a, spender) ≠ k → st'.allowances[k]? = st.allowances[k]?) ∧
    amount + st'.allowance (a, spender) = st.allowance (a, spender) ∧
    ∀ b, st.balance b ≤ st'.balance b + if a = b then amount else 0

/-- An allowance that is deducted from, and moved, is spent. -/
theorem SpendsFrom.of_move {owner : String} {ownerAddr spender rcpt : Addr} {st₁ : State}
    (howner : (validate api owner : Exec ContractError Addr) = .ok ownerAddr)
    (hdeduct : st.deductAllowance ownerAddr spender env.block amount = .ok st₁)
    (hmove : st₁.move ownerAddr rcpt amount = .ok st') :
    SpendsFrom api spender owner amount st st' := by
  obtain ⟨hmoved, hallow, -⟩ := State.move_spec hmove
  obtain ⟨hother, hleft, hbal⟩ := deductAllowance_allowance hdeduct hallow
  refine ⟨ownerAddr, validate_eq_ok.mp howner, hother, hleft, fun b => ?_⟩
  rw [← State.balance_congr hbal b, if_congr (eq_comm (a := ownerAddr)) rfl rfl]
  exact le_of_le_of_eq (Nat.le_add_right _ _) (hmoved b).symm

theorem executeTransferFrom_spends {owner recipient : String}
    (h : executeTransferFrom api env info st owner recipient amount = .ok (st', r)) :
    SpendsFrom api info.sender owner amount st st' := by
  unfold executeTransferFrom at h
  obtain ⟨rcpt, -, h⟩ := bind_eq_ok.mp h
  obtain ⟨ownerAddr, howner, h⟩ := bind_eq_ok.mp h
  obtain ⟨st₁, hdeduct, h⟩ := bind_eq_ok.mp h
  obtain ⟨st₂, hmove, h⟩ := bind_eq_ok.mp h
  cases h
  exact .of_move howner hdeduct hmove

theorem executeSendFrom_spends {owner contract msg : String}
    (h : executeSendFrom api env info st owner contract amount msg = .ok (st', r)) :
    SpendsFrom api info.sender owner amount st st' := by
  unfold executeSendFrom at h
  obtain ⟨rcpt, -, h⟩ := bind_eq_ok.mp h
  obtain ⟨ownerAddr, howner, h⟩ := bind_eq_ok.mp h
  obtain ⟨st₁, hdeduct, h⟩ := bind_eq_ok.mp h
  obtain ⟨st₂, hmove, h⟩ := bind_eq_ok.mp h
  cases h
  exact .of_move howner hdeduct hmove

theorem executeBurnFrom_spends {owner : String}
    (h : executeBurnFrom api env info st owner amount = .ok (st', r)) :
    SpendsFrom api info.sender owner amount st st' := by
  unfold executeBurnFrom at h
  obtain ⟨ownerAddr, howner, h⟩ := bind_eq_ok.mp h
  obtain ⟨st₁, hdeduct, h⟩ := bind_eq_ok.mp h
  obtain ⟨st₂, hdebit, h⟩ := bind_eq_ok.mp h
  obtain ⟨st₃, hshrink, h⟩ := bind_eq_ok.mp h
  cases h
  obtain ⟨hdebited, hallow, -⟩ := State.debit_spec hdebit
  obtain ⟨-, hbal', hallow', -⟩ := State.shrink_spec hshrink
  obtain ⟨hother, hleft, hbal⟩ := deductAllowance_allowance hdeduct (hallow'.trans hallow)
  refine ⟨ownerAddr, validate_eq_ok.mp howner, hother, hleft, fun b => ?_⟩
  rw [← State.balance_congr hbal b, State.balance_congr hbal' b,
    if_congr (eq_comm (a := ownerAddr)) rfl rfl]
  exact (hdebited b).ge

end Handlers

theorem pair_eq {s : String} {a : Addr} (h : api s = .ok a) (f : Addr → Addr × Addr) :
    (api s).toOption.map f = some (f a) := by
  rw [h]
  rfl

/-- **What a message does to the allowances**: it changes the one that it is about. -/
theorem exec_allowance (h : exec api st c = some (st', r)) :
    (c.pair api = none ∧ st'.allowances = st.allowances) ∨
      ∃ k, c.pair api = some k ∧ (∀ a, k ≠ a → st'.allowances[a]? = st.allowances[a]?) ∧
        c.msg.spends + min c.msg.revokes (st.allowance k) + st'.allowance k =
          st.allowance k + c.msg.grants := by
  obtain ⟨env, info, msg⟩ := c
  have hok := toOption_eq_some.mp h
  cases msg with
  | transfer recipient amount =>
    obtain ⟨-, rcpt, -, -, hall, -⟩ := executeTransfer_spec hok
    exact .inl ⟨rfl, hall⟩
  | burn amount =>
    obtain ⟨-, -, hall, -⟩ := executeBurn_spec hok
    exact .inl ⟨rfl, hall⟩
  | send contract amount msg =>
    obtain ⟨rcpt, -, hall, -⟩ := executeSend_spec hok
    exact .inl ⟨rfl, hall⟩
  | mint recipient amount =>
    obtain ⟨-, -, hall, -⟩ := executeMint_spec hok
    exact .inl ⟨rfl, hall⟩
  | updateMinter newMinter =>
    obtain ⟨-, hall, -⟩ := executeUpdateMinter_ledger hok
    exact .inl ⟨rfl, hall⟩
  | increaseAllowance spender amount expires =>
    obtain ⟨a, ha, hother, hsum⟩ := executeIncreaseAllowance_allowance hok
    refine .inr ⟨_, pair_eq ha _, hother, ?_⟩
    simpa [ExecuteMsg.spends, ExecuteMsg.revokes, ExecuteMsg.grants] using hsum
  | decreaseAllowance spender amount expires =>
    obtain ⟨a, ha, hother, hleft⟩ := executeDecreaseAllowance_allowance hok
    refine .inr ⟨_, pair_eq ha _, hother, ?_⟩
    simpa [ExecuteMsg.spends, ExecuteMsg.revokes, ExecuteMsg.grants] using hleft
  | transferFrom owner recipient amount =>
    obtain ⟨a, ha, hother, hleft, -⟩ := executeTransferFrom_spends hok
    refine .inr ⟨_, pair_eq ha _, hother, ?_⟩
    simpa [ExecuteMsg.spends, ExecuteMsg.revokes, ExecuteMsg.grants] using hleft
  | sendFrom owner contract amount msg =>
    obtain ⟨a, ha, hother, hleft, -⟩ := executeSendFrom_spends hok
    refine .inr ⟨_, pair_eq ha _, hother, ?_⟩
    simpa [ExecuteMsg.spends, ExecuteMsg.revokes, ExecuteMsg.grants] using hleft
  | burnFrom owner amount =>
    obtain ⟨a, ha, hother, hleft, -⟩ := executeBurnFrom_spends hok
    refine .inr ⟨_, pair_eq ha _, hother, ?_⟩
    simpa [ExecuteMsg.spends, ExecuteMsg.revokes, ExecuteMsg.grants] using hleft

/-- **The allowances of any owners and spenders**: what a call takes out of them and what is left is
what there was and what it grants. -/
theorem commit_lent (api : Api) (p : Addr × Addr → Prop) [DecidablePred p] (st : State) (c : Call) :
    spent api p st c + revoked api p st c + (commit (exec api) st c).lent p =
      st.lent p + granted api p st c := by
  unfold spent revoked granted
  rcases commit_cases (exec api) st c with ⟨r, hr⟩ | ⟨hnone, hs⟩
  · rcases exec_allowance hr with ⟨hpair, hall⟩ | ⟨k, hpair, hother, hk⟩
    · have hnot : ¬ Concerns api p st c := by simp [Concerns, hpair]
      rw [if_neg hnot, if_neg hnot, if_neg hnot, State.lent, hall, State.lent]
      omega
    · have hchanged := State.lent_changed (p := p) hother
      have hiff : Concerns api p st c ↔ p k := by simp [Concerns, hpair, hr]
      by_cases hp : p k
      · rw [if_pos (hiff.mpr hp), if_pos (hiff.mpr hp), if_pos (hiff.mpr hp), hpair]
        rw [if_pos hp, if_pos hp] at hchanged
        simp only [Option.elim_some]
        omega
      · rw [if_neg fun h => hp (hiff.mp h), if_neg fun h => hp (hiff.mp h),
          if_neg fun h => hp (hiff.mp h)]
        rw [if_neg hp, if_neg hp] at hchanged
        omega
  · have hnot : ¬ Concerns api p st c := by simp [Concerns, hnone]
    rw [if_neg hnot, if_neg hnot, if_neg hnot, hs]
    omega

theorem spent_eq {k : Addr × Addr} (h : (exec api st c).isSome) (hpair : c.pair api = some k) :
    spent api p st c = if p k then c.msg.spends else 0 := by
  rw [spent]
  exact if_congr (by simp [Concerns, hpair, h]) rfl rfl

theorem sent_eq {a : Addr} (h : (exec api st c).isSome) :
    sent api a st c = if c.info.sender = a then c.msg.sends else 0 := by
  rw [sent]
  exact if_congr (and_iff_right h) rfl rfl

/-- An owner loses what it sends itself and what is spent of its allowances. -/
theorem balance_le_commit (api : Api) (a : Addr) (st : State) (c : Call) :
    st.balance a ≤
      (commit (exec api) st c).balance a + (sent api a st c + spent api (·.1 = a) st c) := by
  rcases commit_cases (exec api) st c with ⟨r, hr⟩ | ⟨-, hs⟩
  · obtain ⟨env, info, msg⟩ := c
    have hok : execute api env info st msg = .ok (_, r) := toOption_eq_some.mp hr
    have hsome := Option.isSome_of_eq_some hr
    cases msg with
    | transfer recipient amount =>
      obtain ⟨-, rcpt, -, hmoved, -⟩ := executeTransfer_spec hok
      have hsent : sent api a st _ = if info.sender = a then amount else 0 := sent_eq hsome
      have := hmoved a
      rw [if_congr (eq_comm (a := a)) rfl rfl] at this
      omega
    | burn amount =>
      obtain ⟨-, -, -, hburned⟩ := executeBurn_spec hok
      have hsent : sent api a st _ = if info.sender = a then amount else 0 := sent_eq hsome
      have := hburned a
      rw [if_congr (eq_comm (a := a)) rfl rfl] at this
      omega
    | send contract amount msg =>
      obtain ⟨rcpt, hmoved, -⟩ := executeSend_spec hok
      have hsent : sent api a st _ = if info.sender = a then amount else 0 := sent_eq hsome
      have := hmoved a
      rw [if_congr (eq_comm (a := a)) rfl rfl] at this
      omega
    | increaseAllowance spender amount expires =>
      obtain ⟨hbal, -⟩ := executeIncreaseAllowance_ledger hok
      rw [State.balance_congr hbal]
      exact Nat.le_add_right _ _
    | decreaseAllowance spender amount expires =>
      obtain ⟨hbal, -⟩ := executeDecreaseAllowance_ledger hok
      rw [State.balance_congr hbal]
      exact Nat.le_add_right _ _
    | transferFrom owner recipient amount =>
      obtain ⟨o, ho, -, -, hlost⟩ := executeTransferFrom_spends hok
      rw [spent_eq hsome (pair_eq ho _)]
      exact (hlost a).trans (Nat.add_le_add_left (Nat.le_add_left _ _) _)
    | sendFrom owner contract amount msg =>
      obtain ⟨o, ho, -, -, hlost⟩ := executeSendFrom_spends hok
      rw [spent_eq hsome (pair_eq ho _)]
      exact (hlost a).trans (Nat.add_le_add_left (Nat.le_add_left _ _) _)
    | burnFrom owner amount =>
      obtain ⟨o, ho, -, -, hlost⟩ := executeBurnFrom_spends hok
      rw [spent_eq hsome (pair_eq ho _)]
      exact (hlost a).trans (Nat.add_le_add_left (Nat.le_add_left _ _) _)
    | mint recipient amount =>
      obtain ⟨-, -, -, -, hbal, -⟩ := executeMint_spec hok
      exact (hbal a).trans (Nat.le_add_right _ _)
    | updateMinter newMinter =>
      obtain ⟨hbal, -⟩ := executeUpdateMinter_ledger hok
      rw [State.balance_congr hbal]
      exact Nat.le_add_right _ _
  · rw [hs]
    exact Nat.le_add_right _ _

/-- An allowance is dealt with by its owner or by its spender. -/
theorem Call.sender_of_pair {k : Addr × Addr} (h : c.pair api = some k) :
    c.info.sender = k.1 ∨ c.info.sender = k.2 := by
  obtain ⟨env, info, msg⟩ := c
  cases msg with
  | increaseAllowance | decreaseAllowance =>
    obtain ⟨s, -, rfl⟩ := Option.map_eq_some_iff.mp h
    exact .inl rfl
  | transferFrom | sendFrom | burnFrom =>
    obtain ⟨o, -, rfl⟩ := Option.map_eq_some_iff.mp h
    exact .inr rfl
  | _ => cases h

/-- Only its owner adds to an allowance. -/
theorem grants_eq_zero {k : Addr × Addr} (hpair : c.pair api = some k) (h : k.1 ≠ c.info.sender) :
    c.msg.grants = 0 := by
  obtain ⟨env, info, msg⟩ := c
  cases msg with
  | increaseAllowance spender amount expires =>
    obtain ⟨s, -, rfl⟩ := Option.map_eq_some_iff.mp hpair
    exact absurd rfl h
  | _ => rfl

/-- A call by somebody else, which takes nothing through the spender `q`, leaves an owner that has
lent to nobody but `q` with what it has, and with nothing lent to others. -/
theorem commit_idle {a q : Addr} (hlent : st.lent (fun k => k.1 = a ∧ k.2 ≠ q) = 0)
    (hsender : c.info.sender ≠ a) (hpair : c.pair api ≠ some (a, q)) :
    st.balance a ≤ (commit (exec api) st c).balance a ∧
      (commit (exec api) st c).lent (fun k => k.1 = a ∧ k.2 ≠ q) = 0 := by
  have hkept := commit_lent api (fun k => k.1 = a ∧ k.2 ≠ q) st c
  have hbalance := balance_le_commit api a st c
  -- the owner itself grants and sends nothing
  have hgranted : granted api (fun k => k.1 = a ∧ k.2 ≠ q) st c = 0 := by
    rw [granted]
    split
    · rename_i hc
      obtain ⟨-, k, hk, hka, -⟩ := hc
      exact grants_eq_zero hk (hka ▸ hsender.symm)
    · rfl
  have hsent : sent api a st c = 0 := by
    rw [sent]
    exact if_neg fun h => hsender h.2
  -- what is taken of it is taken through another spender than `q`
  have hspent : spent api (·.1 = a) st c = spent api (fun k => k.1 = a ∧ k.2 ≠ q) st c := by
    rw [spent, spent]
    refine if_congr (and_congr_right fun _ => exists_congr fun k => and_congr_right fun hk => ?_)
      rfl rfl
    refine ⟨fun hka => ⟨hka, fun hkq => hpair ?_⟩, And.left⟩
    rw [Option.mem_def.mp hk, ← hka, ← hkq]
  omega

end Lent

/-! ## Runs -/

section Runs

variable (api : Api) (st : State)

/-- **What spenders take and what owners take back** is what was lent and what is granted, less what
is still lent. -/
theorem run_lent (p : Addr × Addr → Prop) [DecidablePred p] (cs : List Call) :
    tally (exec api) (spent api p) st cs + tally (exec api) (revoked api p) st cs +
      (run (exec api) st cs).lent p = st.lent p + tally (exec api) (granted api p) st cs := by
  rw [← tally_add]
  exact tally_add_eq fun x _ => commit_lent api p x.1 x.2

/-- **An owner loses** no more than what it sends, what it had lent and what it grants. -/
theorem run_balance (a : Addr) (cs : List Call) :
    st.balance a ≤ (run (exec api) st cs).balance a + tally (exec api) (sent api a) st cs +
      (st.lent (·.1 = a) + tally (exec api) (granted api (·.1 = a)) st cs) := by
  have hbalance := le_run_add_tally (q := fun st => st.balance a) (balance_le_commit api a) st cs
  have hlent := run_lent api st (·.1 = a) cs
  rw [tally_add] at hbalance
  omega

variable {api st} in
/-- **An owner that makes no call** loses nothing, where it has lent to nobody but a spender that
takes nothing of it. -/
theorem run_idle {a q : Addr} (hlent : st.lent (fun k => k.1 = a ∧ k.2 ≠ q) = 0) {cs : List Call}
    (hcs : ∀ c ∈ cs, c.info.sender ≠ a ∧ c.pair api ≠ some (a, q)) :
    st.balance a ≤ (run (exec api) st cs).balance a := by
  induction cs generalizing st with
  | nil => exact le_rfl
  | cons c cs ih =>
    obtain ⟨hsender, hpair⟩ := hcs c List.mem_cons_self
    obtain ⟨hbalance, hlent⟩ := commit_idle hlent hsender hpair
    exact hbalance.trans (ih hlent fun c' hc' => hcs c' (List.mem_cons_of_mem _ hc'))

end Runs

end Cw20
