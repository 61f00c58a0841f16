import LiquidityContracts.CosmWasm.Run
import LiquidityContracts.Token.Cw20

/-!
# The ledger over runs

Whatever messages a token receives, its balances sum up to its supply, so that no balance ever
overflows: a transfer succeeds when the sender has the amount, and a mint when the cap allows it.

## Main definitions

* `Call`, `exec`: the ledger as a machine
* `State.held`: the sum of all balances
* `Conserved`: the balances sum up to the supply
* `Permits`: when a message is accepted
* `Capped limit`: the supply is below a limit, and stays there

## Main results

* `execute_conserved`: every message keeps the balances summed up to the supply
* `execute_ok_iff`: a message is accepted exactly when it is permitted
* `execute_capped`: every message keeps the supply below the cap
* `run_conserved`, `run_capped`, `run_unmintable`: the same over runs
-/

namespace Cw20

open CosmWasm

/-- A call as the token receives it. -/
structure Call where
  env : Env
  info : MessageInfo
  msg : ExecuteMsg
  deriving DecidableEq, Repr

/-- A call, which changes nothing when it is reverted. -/
def exec (api : Api) (st : State) (c : Call) : Option (State × Response Cw20ReceiveMsg) :=
  (execute api c.env c.info st c.msg).toOption

/-! ## The balances and the supply -/

/-- The sum of all balances. -/
def State.held (st : State) : ℕ := Store.total (fun _ n => n) st.balances

/-- The balances sum up to the supply, which is in range. -/
structure Conserved (st : State) : Prop where
  held_eq : st.held = st.totalSupply
  supply_lt : st.totalSupply < Uint128.bound

section Held

variable {st st' : State} {a owner recipient : Addr} {out put : ℕ}

theorem State.weigh_balances (st : State) (a : Addr) :
    Store.weigh (fun _ n => n) st.balances a = st.balance a := by
  unfold Store.weigh State.balance
  cases st.balances[a]? with
  | none => rfl
  | some n => rfl

theorem State.balance_le_held (st : State) (a : Addr) : st.balance a ≤ st.held := by
  rw [← st.weigh_balances a]
  exact Store.weigh_le_total _ _ _

theorem State.held_eq_sum {S : Finset Addr} (h : st.balances.keys.toFinset ⊆ S) :
    st.held = ∑ a ∈ S, st.balance a := by
  rw [State.held, Store.total_eq_sum h]
  exact Finset.sum_congr rfl fun a _ => st.weigh_balances a

/-- What is taken out of one balance and put into another moves the sum. -/
theorem State.held_moved (h : ∀ a, st'.balance a + (if a = owner then out else 0) =
    st.balance a + (if a = recipient then put else 0)) : st'.held + out = st.held + put := by
  let S : Finset Addr :=
    insert owner (insert recipient (st.balances.keys.toFinset ∪ st'.balances.keys.toFinset))
  have howner : owner ∈ S := Finset.mem_insert_self _ _
  have hrecipient : recipient ∈ S := Finset.mem_insert_of_mem (Finset.mem_insert_self _ _)
  have hrest : st.balances.keys.toFinset ∪ st'.balances.keys.toFinset ⊆ S :=
    (Finset.subset_insert _ _).trans (Finset.subset_insert _ _)
  have hsum := Finset.sum_congr (rfl : S = S) fun a _ => h a
  rw [Finset.sum_add_distrib, Finset.sum_add_distrib, Finset.sum_ite_eq', Finset.sum_ite_eq',
    if_pos howner, if_pos hrecipient] at hsum
  rw [State.held_eq_sum (Finset.subset_union_right.trans hrest),
    State.held_eq_sum (Finset.subset_union_left.trans hrest)]
  exact hsum

end Held

section Messages

variable {api : Api} {env : Env} {info : MessageInfo} {st st' : State}
  {r : Response Cw20ReceiveMsg}

/-- What the minter mints is added to one balance and to the supply, which stays below the cap. -/
theorem executeMint_exact {recipient : String} {amount : ℕ}
    (h : executeMint api info st recipient amount = .ok (st', r)) :
    (∃ rcpt, ∀ a, st'.balance a = st.balance a + if a = rcpt then amount else 0) ∧
      st'.totalSupply < Uint128.bound ∧
      ∀ m ∈ st.mint, ∀ limit ∈ m.cap, st'.totalSupply ≤ limit := by
  unfold executeMint at h
  obtain ⟨-, h⟩ := refuse_bind_eq_ok.mp h
  split at h
  · exact absurd h (fail_ne_ok _ _)
  · rename_i m hm
    obtain ⟨-, h⟩ := refuse_bind_eq_ok.mp h
    obtain ⟨supply, hsupply, h⟩ := bind_eq_ok.mp h
    obtain ⟨hlt, -⟩ := Uint128.add_eq_ok.mp hsupply
    obtain ⟨hcap, h⟩ := refuse_bind_eq_ok.mp h
    obtain ⟨rcpt, -, h⟩ := bind_eq_ok.mp h
    obtain ⟨st₁, hcredit, h⟩ := bind_eq_ok.mp h
    cases h
    obtain ⟨hbal, -, hsup, -⟩ := State.credit_spec hcredit
    refine ⟨⟨rcpt, hbal⟩, ?_, ?_⟩
    · rw [hsup, (Uint128.add_eq_ok.mp hsupply).2]
      exact hlt
    · intro m' hm' limit hlimit
      rw [hm] at hm'
      cases hm'
      rw [hsup]
      exact not_lt.mp fun hlt => hcap ⟨limit, hlimit, hlt⟩

/-- **What a message does to the balances**: an amount is taken out of one and an amount is put into
one, and the difference is made or burnt. -/
theorem execute_balances {msg : ExecuteMsg} (h : execute api env info st msg = .ok (st', r)) :
    ∃ owner recipient out put,
      (∀ a, st'.balance a + (if a = owner then out else 0) =
        st.balance a + (if a = recipient then put else 0)) ∧
      st'.totalSupply + out = st.totalSupply + put ∧
      (st'.totalSupply ≤ st.totalSupply ∨ st'.totalSupply < Uint128.bound) := by
  -- what touches no balance moves nothing
  have hsame : st'.balances = st.balances → st'.totalSupply = st.totalSupply →
      ∃ owner recipient out put,
        (∀ a, st'.balance a + (if a = owner then out else 0) =
          st.balance a + (if a = recipient then put else 0)) ∧
        st'.totalSupply + out = st.totalSupply + put ∧
        (st'.totalSupply ≤ st.totalSupply ∨ st'.totalSupply < Uint128.bound) := by
    intro hbal hsupply
    refine ⟨info.sender, info.sender, 0, 0, fun a => ?_, by rw [hsupply], .inl hsupply.le⟩
    rw [State.balance_congr hbal]
  cases msg with
  | transfer recipient amount =>
    obtain ⟨-, rcpt, -, hmoved, -, hsupply, -⟩ := executeTransfer_spec h
    exact ⟨_, _, _, _, hmoved, by rw [hsupply], .inl hsupply.le⟩
  | burn amount =>
    obtain ⟨hsupply, -, -, hburned⟩ := executeBurn_spec h
    exact ⟨info.sender, info.sender, amount, 0, fun a => by simpa using hburned a, hsupply,
      .inl (by omega)⟩
  | send contract amount msg =>
    obtain ⟨rcpt, hmoved, -, hsupply, -⟩ := executeSend_spec h
    exact ⟨_, _, _, _, hmoved, by rw [hsupply], .inl hsupply.le⟩
  | increaseAllowance spender amount expires =>
    obtain ⟨hbal, hsupply, -⟩ := executeIncreaseAllowance_ledger h
    exact hsame hbal hsupply
  | decreaseAllowance spender amount expires =>
    obtain ⟨hbal, hsupply, -⟩ := executeDecreaseAllowance_ledger h
    exact hsame hbal hsupply
  | transferFrom owner recipient amount =>
    obtain ⟨ownerAddr, rcpt, -, -, -, hmoved, -, hsupply, -⟩ := executeTransferFrom_spec h
    exact ⟨_, _, _, _, hmoved, by rw [hsupply], .inl hsupply.le⟩
  | sendFrom owner contract amount msg =>
    obtain ⟨ownerAddr, rcpt, -, hmoved, -, hsupply, -⟩ := executeSendFrom_spec h
    exact ⟨_, _, _, _, hmoved, by rw [hsupply], .inl hsupply.le⟩
  | burnFrom owner amount =>
    obtain ⟨hsupply, -, ownerAddr, -, hburned, -⟩ := executeBurnFrom_spec h
    exact ⟨ownerAddr, ownerAddr, amount, 0, fun a => by simpa using hburned a, hsupply,
      .inl (by omega)⟩
  | mint recipient amount =>
    obtain ⟨-, hsupply, -⟩ := executeMint_spec h
    obtain ⟨⟨rcpt, hminted⟩, hlt, -⟩ := executeMint_exact h
    exact ⟨rcpt, rcpt, 0, amount, fun a => by simpa using hminted a, hsupply, .inr hlt⟩
  | updateMinter newMinter =>
    obtain ⟨hbal, -, hsupply, -⟩ := executeUpdateMinter_ledger h
    exact hsame hbal hsupply

/-- **Every message keeps the balances summed up to the supply.** -/
theorem execute_conserved {msg : ExecuteMsg} (hst : Conserved st)
    (h : execute api env info st msg = .ok (st', r)) : Conserved st' := by
  obtain ⟨owner, recipient, out, put, hmoved, hsupply, hlt⟩ := execute_balances h
  have hheld := State.held_moved hmoved
  have hbefore := hst.held_eq
  refine ⟨by omega, ?_⟩
  rcases hlt with hle | hlt
  · exact hle.trans_lt hst.supply_lt
  · exact hlt

end Messages

section Instantiation

variable {api : Api} {msg : InstantiateMsg} {st : State}

/-- The accounts that a token starts with hold its supply. -/
theorem createAccounts_total (hapi : ∀ s a, api s = .ok a → a = s) {accounts : List Cw20Coin}
    {balances : Store Addr ℕ} {supply : ℕ}
    (h : createAccounts api accounts = .ok (balances, supply)) :
    Store.total (fun _ n => n) balances = supply ∧ supply < Uint128.bound := by
  unfold createAccounts at h
  obtain ⟨hnodup, h⟩ := refuse_bind_eq_ok.mp h
  -- the accounts that remain are others than those that have a balance
  have hloop := foldlM_remaining (I := fun rest acc =>
      (rest.map Cw20Coin.address).Nodup ∧ (∀ row ∈ rest, acc.1[row.address]? = none) ∧
        Store.total (fun _ n => n) acc.1 = acc.2 ∧ acc.2 < Uint128.bound)
    (fun row rest acc acc' hacc hround => ?_)
    ⟨not_not.mp hnodup, fun row _ => Store.get_empty _, Store.total_empty _, Nat.two_pow_pos 128⟩ h
  · exact hloop.2.2
  · obtain ⟨hrest, hnone, htotal, -⟩ := hacc
    obtain ⟨address, haddress, hround⟩ := bind_eq_ok.mp hround
    obtain ⟨sum, hsum, hround⟩ := bind_eq_ok.mp hround
    cases hround
    obtain ⟨hlt, rfl⟩ := Uint128.add_eq_ok.mp hsum
    obtain rfl := hapi _ _ (validate_eq_ok.mp haddress)
    rw [List.map_cons, List.nodup_cons] at hrest
    refine ⟨hrest.2, fun row' hrow' => ?_, ?_, hlt⟩
    · have hne : row.address ≠ row'.address := by
        intro heq
        rw [heq] at hrest
        exact hrest.1 (List.mem_map_of_mem hrow')
      rw [Store.get_insert_of_ne _ _ hne]
      exact hnone row' (List.mem_cons_of_mem _ hrow')
    · have hinsert := Store.total_insert (fun _ n => n) acc.1 row.address row.amount
      rw [Store.weigh_of_none (hnone row List.mem_cons_self), htotal] at hinsert
      exact hinsert

/-- What a token starts with. -/
theorem instantiate_eq_ok (h : instantiate api msg = .ok st) :
    createAccounts api msg.initialBalances = .ok (st.balances, st.totalSupply) ∧
      st.allowances = ∅ ∧
      (∀ limit ∈ msg.mint.bind MinterResponse.cap, st.totalSupply ≤ limit) ∧
      st.mint.bind MinterData.cap = msg.mint.bind MinterResponse.cap ∧
      (msg.mint = none → st.mint = none) := by
  unfold instantiate at h
  obtain ⟨-, -, h⟩ := bind_eq_ok.mp h
  obtain ⟨⟨balances, totalSupply⟩, haccounts, h⟩ := bind_eq_ok.mp h
  obtain ⟨hcap, h⟩ := refuseGeneric_bind_eq_ok.mp h
  obtain ⟨mint, hmint, h⟩ := bind_eq_ok.mp h
  cases h
  refine ⟨haccounts, rfl, fun limit hlimit => not_lt.mp fun hlt => hcap ⟨limit, hlimit, hlt⟩, ?_⟩
  cases hasked : msg.mint with
  | none =>
    rw [hasked] at hmint
    cases hmint
    exact ⟨rfl, fun _ => rfl⟩
  | some asked =>
    rw [hasked, Option.mapM_some] at hmint
    obtain ⟨minted, hminted, hmint⟩ := bind_eq_ok.mp hmint
    obtain ⟨minter, -, hminted⟩ := bind_eq_ok.mp hminted
    cases hminted
    cases hmint
    exact ⟨rfl, nofun⟩

/-- A token starts with balances that sum up to its supply. -/
theorem instantiate_conserved (hapi : ∀ s a, api s = .ok a → a = s)
    (h : instantiate api msg = .ok st) : Conserved st := by
  obtain ⟨haccounts, -⟩ := instantiate_eq_ok h
  obtain ⟨htotal, hlt⟩ := createAccounts_total hapi haccounts
  exact ⟨htotal, hlt⟩

end Instantiation

/-! ## The messages that are accepted -/

section Blocks

variable {st st' : State} {owner recipient spender : Addr} {amount : ℕ} {block : BlockInfo}

theorem State.debit_eq_ok : st.debit owner amount = .ok st' ↔ amount ≤ st.balance owner ∧
    st' = { st with balances := st.balances.insert owner (st.balance owner - amount) } := by
  unfold debit
  rw [bind_eq_ok]
  constructor
  · rintro ⟨left, hleft, h⟩
    obtain ⟨hle, rfl⟩ := Uint128.checkedSub_eq_ok.mp hleft
    exact ⟨hle, (pure_eq_ok.mp h).symm⟩
  · rintro ⟨hle, rfl⟩
    exact ⟨_, Uint128.checkedSub_eq_ok.mpr ⟨hle, rfl⟩, rfl⟩

theorem State.deductAllowance_eq_ok :
    st.deductAllowance owner spender block amount = .ok st' ↔
      ∃ lent, st.allowances[(owner, spender)]? = some lent ∧ lent.expires.isExpired block = false ∧
        amount ≤ lent.allowance ∧
        st' = { st with
          allowances :=
            st.allowances.insert (owner, spender) { lent with allowance := lent.allowance - amount } } := by
  unfold deductAllowance
  cases st.allowances[(owner, spender)]? with
  | none =>
    constructor
    · exact fun h => absurd h (fail_ne_ok _ _)
    · rintro ⟨lent, hlent, -⟩
      cases hlent
  | some lent =>
    rw [refuse_bind_eq_ok, bind_eq_ok, Bool.not_eq_true]
    constructor
    · rintro ⟨hexpired, left, hleft, h⟩
      obtain ⟨hle, rfl⟩ := Uint128.checkedSub_eq_ok.mp hleft
      exact ⟨lent, rfl, hexpired, hle, (pure_eq_ok.mp h).symm⟩
    · rintro ⟨lent', hlent', hexpired, hle, rfl⟩
      cases hlent'
      exact ⟨hexpired, _, Uint128.checkedSub_eq_ok.mpr ⟨hle, rfl⟩, rfl⟩

/-- No balance overflows: whoever has the amount can send it. -/
theorem Conserved.move_ok_iff (h : Conserved st) :
    (∃ st', st.move owner recipient amount = .ok st') ↔ amount ≤ st.balance owner := by
  constructor
  · rintro ⟨st', hmove⟩
    obtain ⟨mid, hmid, -⟩ := bind_eq_ok.mp hmove
    exact (State.debit_eq_ok.mp hmid).1
  · intro hle
    have hdebit := State.debit_eq_ok.mpr ⟨hle, rfl⟩
    -- what is left of the balances has room for the amount
    have hdebited : ∀ a, State.balance { st with
          balances := st.balances.insert owner (st.balance owner - amount) } a +
        (if a = owner then amount else 0) = st.balance a + if a = owner then 0 else 0 :=
      fun a => by simpa using (State.debit_spec hdebit).1 a
    have hheld := State.held_moved hdebited
    have hroom := State.balance_le_held
      { st with balances := st.balances.insert owner (st.balance owner - amount) } recipient
    have hheld_eq := h.held_eq
    have hlt := h.supply_lt
    have hsum := Uint128.add_eq_ok (ε := ContractError).mpr
      ⟨(by omega : State.balance { st with
        balances := st.balances.insert owner (st.balance owner - amount) } recipient + amount <
          Uint128.bound), rfl⟩
    exact ⟨_, bind_eq_ok.mpr ⟨_, hdebit, bind_eq_ok.mpr ⟨_, hsum, rfl⟩⟩⟩

/-- Whoever has the amount can burn it. -/
theorem Conserved.burn_ok_iff (h : Conserved st) :
    (∃ st', (st.debit owner amount >>= fun st => st.shrink amount) = .ok st') ↔
      amount ≤ st.balance owner := by
  constructor
  · rintro ⟨st', hburn⟩
    obtain ⟨mid, hmid, -⟩ := bind_eq_ok.mp hburn
    exact (State.debit_eq_ok.mp hmid).1
  · intro hle
    have hheld := st.balance_le_held owner
    have hheld_eq := h.held_eq
    have hsupply := Uint128.checkedSub_eq_ok (ε := ContractError).mpr
      ⟨(by omega : amount ≤ st.totalSupply), rfl⟩
    exact ⟨_, bind_eq_ok.mpr ⟨_, State.debit_eq_ok.mpr ⟨hle, rfl⟩, bind_eq_ok.mpr ⟨_, hsupply, rfl⟩⟩⟩

end Blocks

/-- A text that denotes an address. -/
def Valid (api : Api) (s : String) : Prop := ∃ a, api s = .ok a

/-- What a spender may take of an owner's balance. -/
structure State.Spendable (st : State) (block : BlockInfo) (owner spender : Addr) (amount : ℕ) :
    Prop where
  covered : ∃ lent ∈ st.allowances[(owner, spender)]?,
    lent.expires.isExpired block = false ∧ amount ≤ lent.allowance
  held : amount ≤ st.balance owner

/-- What `spender` may still take from `owner`. -/
def State.allowance (st : State) (k : Addr × Addr) : ℕ :=
  (st.allowances[k]?).elim 0 AllowanceResponse.allowance

theorem State.getD_allowance (st : State) (k : Addr × Addr) :
    ((st.allowances[k]?).getD {}).allowance = st.allowance k := by
  unfold State.allowance
  cases st.allowances[k]? with
  | none => rfl
  | some lent => rfl

/-- When a message is accepted. -/
def Permits (api : Api) (env : Env) (info : MessageInfo) (st : State) : ExecuteMsg → Prop
  | .transfer recipient amount =>
    amount ≠ 0 ∧ Valid api recipient ∧ amount ≤ st.balance info.sender
  | .burn amount => amount ≠ 0 ∧ amount ≤ st.balance info.sender
  | .send contract amount _ => amount ≠ 0 ∧ Valid api contract ∧ amount ≤ st.balance info.sender
  | .increaseAllowance spender amount _ => ∃ a, api spender = .ok a ∧ a ≠ info.sender ∧
    st.allowance (info.sender, a) + amount < Uint128.bound
  | .decreaseAllowance spender _ _ => ∃ a, api spender = .ok a ∧ a ≠ info.sender ∧
    ∃ lent, st.allowances[(info.sender, a)]? = some lent
  | .transferFrom owner recipient amount => Valid api recipient ∧
    ∃ a, api owner = .ok a ∧ st.Spendable env.block a info.sender amount
  | .sendFrom owner contract amount _ => Valid api contract ∧
    ∃ a, api owner = .ok a ∧ st.Spendable env.block a info.sender amount
  | .burnFrom owner amount => ∃ a, api owner = .ok a ∧ st.Spendable env.block a info.sender amount
  | .mint recipient amount => amount ≠ 0 ∧ Valid api recipient ∧
    ∃ m ∈ st.mint, m.minter = info.sender ∧ st.totalSupply + amount < Uint128.bound ∧
      ∀ limit ∈ m.cap, st.totalSupply + amount ≤ limit
  | .updateMinter newMinter => (∃ m ∈ st.mint, m.minter = info.sender) ∧
    ∀ s ∈ newMinter, Valid api s

section Permits

variable {api : Api} {env : Env} {info : MessageInfo} {st : State}

theorem exists_validate_bind {β : Type} {s : String} {f : Addr → Exec ContractError β} :
    (∃ b, (validate api s >>= f) = .ok b) ↔ ∃ a, api s = .ok a ∧ ∃ b, f a = .ok b := by
  simp only [exists_bind_eq_ok, validate_eq_ok]

/-- A spender can take what the allowance covers, as far as the owner has it. -/
theorem Conserved.exists_spend {owner spender : Addr} {amount : ℕ} {block : BlockInfo}
    (h : Conserved st) {f : State → Exec ContractError State}
    (hf : ∀ st₁, Conserved st₁ → ((∃ st', f st₁ = .ok st') ↔ amount ≤ st₁.balance owner)) :
    (∃ st', (st.deductAllowance owner spender block amount >>= f) = .ok st') ↔
      st.Spendable block owner spender amount := by
  have hsame : ∀ allowances, Conserved { st with allowances } :=
    fun _ => ⟨h.held_eq, h.supply_lt⟩
  rw [exists_bind_eq_ok]
  constructor
  · rintro ⟨st₁, hdeduct, hrest⟩
    obtain ⟨lent, hlent, hexpired, hle, rfl⟩ := State.deductAllowance_eq_ok.mp hdeduct
    have hheld := (hf _ (hsame _)).mp hrest
    exact ⟨⟨lent, hlent, hexpired, hle⟩, hheld⟩
  · rintro ⟨⟨lent, hlent, hexpired, hle⟩, hheld⟩
    have hdeduct := State.deductAllowance_eq_ok.mpr ⟨lent, hlent, hexpired, hle, rfl⟩
    exact ⟨_, hdeduct, (hf _ (hsame _)).mpr hheld⟩

/-- **A message is accepted exactly when it is permitted**: nothing else is refused, and nothing
overflows but an allowance or what is minted. -/
theorem execute_ok_iff (h : Conserved st) (msg : ExecuteMsg) :
    (∃ x, execute api env info st msg = .ok x) ↔ Permits api env info st msg := by
  cases msg with
  | transfer recipient amount =>
    simp only [execute, executeTransfer, Permits, exists_refuse_bind_eq_ok, exists_validate_bind,
      exists_bind_pure_eq_ok, h.move_ok_iff, exists_and_right, Valid, ne_eq]
  | burn amount =>
    rw [execute, executeBurn, exists_refuse_bind_eq_ok, ← bind_assoc, exists_bind_pure_eq_ok,
      h.burn_ok_iff]
    rfl
  | send contract amount msg =>
    simp only [execute, executeSend, Permits, exists_refuse_bind_eq_ok, exists_validate_bind,
      exists_bind_pure_eq_ok, h.move_ok_iff, exists_and_right, Valid, ne_eq]
  | increaseAllowance spender amount expires =>
    simp only [execute, executeIncreaseAllowance, Permits, exists_validate_bind,
      exists_refuse_bind_eq_ok, exists_bind_pure_eq_ok, Uint128.add_eq_ok, exists_eq_right,
      st.getD_allowance, ne_eq]
  | decreaseAllowance spender amount expires =>
    rw [execute, executeDecreaseAllowance, exists_validate_bind]
    refine exists_congr fun a => and_congr_right fun _ => ?_
    rw [exists_refuse_bind_eq_ok, exists_bind_eq_ok]
    refine and_congr_right fun _ => exists_congr fun lent => ?_
    rw [load_eq_ok]
    refine and_iff_left ?_
    split
    · rename_i hlt
      exact ⟨_, bind_eq_ok.mpr ⟨_, Uint128.checkedSub_eq_ok.mpr ⟨hlt.le, rfl⟩, rfl⟩⟩
    · exact ⟨_, rfl⟩
  | transferFrom owner recipient amount =>
    simp only [execute, executeTransferFrom, Permits, exists_validate_bind, ← bind_assoc,
      exists_bind_pure_eq_ok, h.exists_spend fun st₁ h₁ => h₁.move_ok_iff, exists_and_right, Valid]
  | sendFrom owner contract amount msg =>
    simp only [execute, executeSendFrom, Permits, exists_validate_bind, ← bind_assoc,
      exists_bind_pure_eq_ok, h.exists_spend fun st₁ h₁ => h₁.move_ok_iff, exists_and_right, Valid]
  | burnFrom owner amount =>
    rw [execute, executeBurnFrom, exists_validate_bind]
    refine exists_congr fun a => and_congr_right fun _ => ?_
    rw [← h.exists_spend fun st₁ h₁ => h₁.burn_ok_iff, ← bind_assoc, ← bind_assoc,
      exists_bind_pure_eq_ok, bind_assoc]
  | mint recipient amount =>
    rw [execute, executeMint, exists_refuse_bind_eq_ok, Permits]
    refine and_congr_right fun _ => ?_
    cases st.mint with
    | none => simp
    | some m =>
      simp only [exists_refuse_bind_eq_ok, not_not, Option.mem_some_iff, exists_eq_left']
      rw [exists_bind_eq_ok]
      constructor
      · rintro ⟨hminter, supply, hsupply, hrest⟩
        obtain ⟨hlt, rfl⟩ := Uint128.add_eq_ok.mp hsupply
        rw [exists_refuse_bind_eq_ok, exists_validate_bind] at hrest
        obtain ⟨hcap, rcpt, hrcpt, -⟩ := hrest
        exact ⟨⟨rcpt, hrcpt⟩, hminter, hlt,
          fun limit hlimit => not_lt.mp fun hlt => hcap ⟨limit, hlimit, hlt⟩⟩
      · rintro ⟨⟨rcpt, hrcpt⟩, hminter, hlt, hcap⟩
        refine ⟨hminter, _, Uint128.add_eq_ok.mpr ⟨hlt, rfl⟩, ?_⟩
        rw [exists_refuse_bind_eq_ok, exists_validate_bind]
        refine ⟨fun ⟨limit, hlimit, hlt⟩ => (hcap limit hlimit).not_gt hlt, rcpt, hrcpt, ?_⟩
        -- no balance is larger than the supply
        have hroom := st.balance_le_held rcpt
        have hheld := h.held_eq
        rw [exists_bind_pure_eq_ok, State.credit, exists_bind_pure_eq_ok]
        exact ⟨_, Uint128.add_eq_ok.mpr
          ⟨(by omega : st.balance rcpt + amount < Uint128.bound), rfl⟩⟩
  | updateMinter newMinter =>
    rw [execute, executeUpdateMinter, Permits]
    cases st.mint with
    | none => simp
    | some m =>
      simp only [exists_refuse_bind_eq_ok, not_not, Option.mem_some_iff, exists_eq_left']
      refine and_congr_right fun _ => ?_
      cases newMinter with
      | none => exact iff_of_true ⟨_, rfl⟩ nofun
      | some s =>
        rw [exists_bind_pure_eq_ok]
        simp only [validate_eq_ok, Option.mem_some_iff, forall_eq', Valid]

end Permits

/-! ## The cap -/

/-- The supply is below a limit, which is the cap of whoever may mint. -/
structure Capped (limit : ℕ) (st : State) : Prop where
  supply_le : st.totalSupply ≤ limit
  cap_eq : ∀ m ∈ st.mint, m.cap = some limit

section Cap

variable {api : Api} {env : Env} {info : MessageInfo} {st st' : State}
  {r : Response Cw20ReceiveMsg}

theorem executeUpdateMinter_cap {newMinter : Option String}
    (h : executeUpdateMinter api info st newMinter = .ok (st', r)) :
    ∀ m' ∈ st'.mint, ∃ m ∈ st.mint, m'.cap = m.cap := by
  unfold executeUpdateMinter at h
  split at h
  · exact absurd h (fail_ne_ok _ _)
  · rename_i m hm
    obtain ⟨-, h⟩ := refuse_bind_eq_ok.mp h
    split at h
    · cases h
      exact nofun
    · obtain ⟨minter, -, h⟩ := bind_eq_ok.mp h
      cases h
      rintro m' ⟨⟩
      exact ⟨m, hm, rfl⟩

/-- What a message does to the supply and to the right to mint. -/
theorem execute_mint {msg : ExecuteMsg} (h : execute api env info st msg = .ok (st', r)) :
    (∀ m' ∈ st'.mint, ∃ m ∈ st.mint, m'.cap = m.cap) ∧
      (st'.totalSupply ≤ st.totalSupply ∨
        ∃ m ∈ st.mint, ∀ limit ∈ m.cap, st'.totalSupply ≤ limit) := by
  have hsame : st'.mint = st.mint → ∀ m' ∈ st'.mint, ∃ m ∈ st.mint, m'.cap = m.cap :=
    fun hmint m' hm' => ⟨m', hmint ▸ hm', rfl⟩
  cases msg with
  | transfer recipient amount =>
    obtain ⟨-, rcpt, -, -, -, hsupply, hmint⟩ := executeTransfer_spec h
    exact ⟨hsame hmint, .inl hsupply.le⟩
  | burn amount =>
    obtain ⟨hsupply, hmint, -⟩ := executeBurn_spec h
    exact ⟨hsame hmint, .inl (by omega)⟩
  | send contract amount msg =>
    obtain ⟨rcpt, -, -, hsupply, hmint⟩ := executeSend_spec h
    exact ⟨hsame hmint, .inl hsupply.le⟩
  | increaseAllowance spender amount expires =>
    obtain ⟨-, hsupply, hmint, -⟩ := executeIncreaseAllowance_ledger h
    exact ⟨hsame hmint, .inl hsupply.le⟩
  | decreaseAllowance spender amount expires =>
    obtain ⟨-, hsupply, hmint, -⟩ := executeDecreaseAllowance_ledger h
    exact ⟨hsame hmint, .inl hsupply.le⟩
  | transferFrom owner recipient amount =>
    obtain ⟨-, -, -, -, -, -, -, hsupply, hmint⟩ := executeTransferFrom_spec h
    exact ⟨hsame hmint, .inl hsupply.le⟩
  | sendFrom owner contract amount msg =>
    obtain ⟨-, -, -, -, -, hsupply, hmint⟩ := executeSendFrom_spec h
    exact ⟨hsame hmint, .inl hsupply.le⟩
  | burnFrom owner amount =>
    obtain ⟨hsupply, hmint, -⟩ := executeBurnFrom_spec h
    exact ⟨hsame hmint, .inl (by omega)⟩
  | mint recipient amount =>
    obtain ⟨-, -, -, hmint, -, m, hm, -⟩ := executeMint_spec h
    obtain ⟨-, -, hcap⟩ := executeMint_exact h
    exact ⟨hsame hmint, .inr ⟨m, hm, hcap m hm⟩⟩
  | updateMinter newMinter =>
    obtain ⟨-, -, hsupply, -⟩ := executeUpdateMinter_ledger h
    exact ⟨executeUpdateMinter_cap h, .inl hsupply.le⟩

/-- **Every message keeps the supply below the cap**, whoever may mint after it. -/
theorem execute_capped {limit : ℕ} {msg : ExecuteMsg} (hst : Capped limit st)
    (h : execute api env info st msg = .ok (st', r)) : Capped limit st' := by
  obtain ⟨hmint, hsupply⟩ := execute_mint h
  constructor
  · rcases hsupply with hle | ⟨m, hm, hcap⟩
    · exact hle.trans hst.supply_le
    · exact hcap limit (hst.cap_eq m hm)
  · intro m' hm'
    obtain ⟨m, hm, hcap⟩ := hmint m' hm'
    rw [hcap]
    exact hst.cap_eq m hm

end Cap

/-! ## Runs -/

section Runs

variable (api : Api) {st : State}

/-- **In every run** the balances sum up to the supply. -/
theorem run_conserved (h : Conserved st) (cs : List Call) : Conserved (run (exec api) st cs) :=
  run_preserves (fun _ _ _ _ hst hexec => execute_conserved hst (toOption_eq_some.mp hexec)) h cs

/-- **In every run** the supply stays below the cap. -/
theorem run_capped {limit : ℕ} (h : Capped limit st) (cs : List Call) :
    Capped limit (run (exec api) st cs) :=
  run_preserves (fun _ _ _ _ hst hexec => execute_capped hst (toOption_eq_some.mp hexec)) h cs

/-- **Once nobody may mint**, the supply does not grow. -/
theorem run_unmintable (h : st.mint = none) (cs : List Call) :
    (run (exec api) st cs).mint = none ∧ (run (exec api) st cs).totalSupply ≤ st.totalSupply := by
  refine run_preserves (I := fun st₁ : State => st₁.mint = none ∧ st₁.totalSupply ≤ st.totalSupply)
    (fun st₁ c st₂ r hst hexec => ?_) ⟨h, le_rfl⟩ cs
  obtain ⟨hsupply, hmint⟩ := execute_supply (toOption_eq_some.mp hexec) (by simp [hst.1])
  exact ⟨hmint.trans hst.1, hsupply.trans hst.2⟩

end Runs

end Cw20
