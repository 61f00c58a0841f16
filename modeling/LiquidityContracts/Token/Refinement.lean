import LiquidityContracts.Token.Base

/-!
# The token contract refines its ledger

The contract writes every allowance under the owner and the spender, and again under the spender and
the owner. As long as the two maps agree, the second one never refuses what the first one has
accepted, so that the contract does what the ledger says: it accepts what the ledger accepts, and
fails as the ledger fails. Every message keeps the two maps in agreement, and a contract that comes
from a version without the second map has it filled in when it is migrated.

## Main definitions

* `Storage.ledger`: the ledger in the contract
* `Mirrored`: the two maps of the allowances agree
* `Beside`: what a message of the ledger does outside of it

## Main results

* `executeLedger_refines`: a message of the ledger does what the ledger says
* `executeLedger_beside`: it changes both maps alike, and nothing of what is told about the token
* `run_ledger`: a run of the contract is a run of its ledger, and the maps agree
* `run_tellsLedger`: the queries answer what the ledger holds
* `migrate_mirrored_iff`: when a migration brings the maps in agreement
-/

namespace Cw20Base

open CosmWasm Cw20

/-- The ledger in the contract. -/
def Storage.ledger (st : Storage) : State where
  balances := st.balances
  allowances := st.allowances
  totalSupply := st.tokenInfo.totalSupply
  mint := st.tokenInfo.mint

/-- The two maps of the allowances agree. -/
def Mirrored (st : Storage) : Prop :=
  ∀ owner spender : Addr,
    st.allowancesSpender[(spender, owner)]? = st.allowances[(owner, spender)]?

/-- The ledger of what a message leaves, with what it emits. -/
def ledgerOf (x : Storage × Response Cw20ReceiveMsg) : State × Response Cw20ReceiveMsg :=
  (x.1.ledger, x.2)

section Blocks

variable {env : Env} {st st' : Storage} {owner recipient spender : Addr} {amount : ℕ}

theorem std_eq (e : StdError) :
    ContractError.ledger (OfStdError.std e) = OfStdError.std e := rfl

/-- Balances are moved in the contract as in its ledger. -/
theorem moveBalance_refines (st : Storage) (owner recipient : Addr) (amount : ℕ) :
    Refines .ledger Storage.ledger (moveBalance st owner recipient amount)
      (st.ledger.move owner recipient amount) := by
  unfold moveBalance State.move State.debit State.credit Store.update
  simp only [bind_assoc, pure_bind]
  refine .bind (.checkedSub std_eq _ _) fun left _ => ?_
  exact .bind (.add _ _) fun sum _ => .ok rfl

theorem burnBalance_refines (st : Storage) (owner : Addr) (amount : ℕ) :
    Refines .ledger Storage.ledger (burnBalance st owner amount)
      (st.ledger.debit owner amount >>= fun ledger => ledger.shrink amount) := by
  unfold burnBalance State.debit State.shrink Store.update
  simp only [bind_assoc, pure_bind]
  refine .bind (.checkedSub std_eq _ _) fun left _ => ?_
  exact .bind (.checkedSub std_eq _ _) fun supply _ => .ok rfl

/-- An allowance is spent from in the contract as in its ledger: the second map holds what the first
one does. -/
theorem deductAllowance_refines (h : Mirrored st) (owner spender : Addr) (amount : ℕ) :
    Refines .ledger Storage.ledger (deductAllowance env st owner spender amount)
      (st.ledger.deductAllowance owner spender env.block amount) := by
  have hlent : st.ledger.allowances[(owner, spender)]? = st.allowances[(owner, spender)]? := rfl
  rw [deductAllowance, Store.update, Store.update, h owner spender, State.deductAllowance, hlent]
  cases st.allowances[(owner, spender)]? with
  | none => exact .fail _
  | some a =>
    simp only [deduct, bind_assoc, pure_bind]
    refine .bind (.refuse _ _) fun _ hrefuse => .bind (.checkedSub std_eq _ _) fun left hleft => ?_
    -- the second map takes the same steps
    rw [bind_of_eq_ok hrefuse, bind_of_eq_ok hleft]
    exact .ok rfl

end Blocks

/-! ## The messages -/

section Messages

variable {api : Api} {env : Env} {info : MessageInfo} {st st' : Storage}

/-- **A message of the ledger** does in the contract what it does in the ledger. -/
theorem executeLedger_refines (h : Mirrored st) (msg : Cw20.ExecuteMsg) :
    Refines .ledger ledgerOf (executeLedger api env info st msg)
      (Cw20.execute api env info st.ledger msg) := by
  cases msg with
  | transfer recipient amount =>
    refine .bind_id (.refuse _ _) fun _ _ => .bind_id (.liftStd std_eq _) fun rcpt _ => ?_
    exact .bind (moveBalance_refines _ _ _ _) fun st₁ _ => .ok rfl
  | burn amount =>
    refine .bind_id (.refuse _ _) fun _ _ => ?_
    change Refines _ _ (burnBalance st info.sender amount >>= _) (_ >>= fun ledger => _ >>= _)
    rw [← bind_assoc]
    exact .bind (burnBalance_refines _ _ _) fun st₁ _ => .ok rfl
  | send contract amount msg =>
    refine .bind_id (.refuse _ _) fun _ _ => .bind_id (.liftStd std_eq _) fun rcpt _ => ?_
    exact .bind (moveBalance_refines _ _ _ _) fun st₁ _ => .ok rfl
  | increaseAllowance spender amount expires =>
    refine .bind_id (.liftStd std_eq _) fun spenderAddr _ => .bind_id (.refuse _ _) fun _ _ => ?_
    simp only [Store.update, h info.sender spenderAddr, raise, bind_assoc, pure_bind]
    refine .bind_id (.add _ _) fun sum hsum => ?_
    -- the second map holds what the first one does
    rw [bind_of_eq_ok hsum]
    exact .ok rfl
  | decreaseAllowance spender amount expires =>
    refine .bind_id (.liftStd std_eq _) fun spenderAddr _ => .bind_id (.refuse _ _) fun _ _ => ?_
    refine .bind_id (.load std_eq _ _) fun allowance _ => .ite _ ?_ (.ok rfl)
    exact .bind_id (.checkedSub std_eq _ _) fun left _ => .ok rfl
  | transferFrom owner recipient amount =>
    refine .bind_id (.liftStd std_eq _) fun rcpt _ => ?_
    refine .bind_id (.liftStd std_eq _) fun ownerAddr _ => ?_
    refine .bind (deductAllowance_refines h _ _ _) fun st₁ _ => ?_
    exact .bind (moveBalance_refines _ _ _ _) fun st₂ _ => .ok rfl
  | sendFrom owner contract amount msg =>
    refine .bind_id (.liftStd std_eq _) fun rcpt _ => ?_
    refine .bind_id (.liftStd std_eq _) fun ownerAddr _ => ?_
    refine .bind (deductAllowance_refines h _ _ _) fun st₁ _ => ?_
    exact .bind (moveBalance_refines _ _ _ _) fun st₂ _ => .ok rfl
  | burnFrom owner amount =>
    refine .bind_id (.liftStd std_eq _) fun ownerAddr _ => ?_
    refine .bind (deductAllowance_refines h _ _ _) fun st₁ _ => ?_
    change Refines _ _ (burnBalance st₁ ownerAddr amount >>= _) (_ >>= fun ledger => _ >>= _)
    rw [← bind_assoc]
    exact .bind (burnBalance_refines _ _ _) fun st₂ _ => .ok rfl
  | mint recipient amount =>
    refine .bind_id (.refuse _ _) fun _ _ => ?_
    dsimp only [Storage.ledger]
    cases st.tokenInfo.mint with
    | none => exact .fail _
    | some mint =>
      refine .bind_id (.refuse _ _) fun _ _ => .bind_id (.add _ _) fun supply _ => ?_
      simp only [TokenInfo.getCap, Option.bind_some]
      refine .bind_id (.refuse _ _) fun _ _ => .bind_id (.liftStd std_eq _) fun rcpt _ => ?_
      simp only [Store.update, putIn, State.credit, bind_assoc, pure_bind]
      refine .bind_id (.add _ _) fun sum _ => .ok ?_
      simp [ledgerOf, Storage.ledger]
  | updateMinter newMinter =>
    dsimp only [executeLedger, executeUpdateMinter, Cw20.execute, Cw20.executeUpdateMinter,
      Storage.ledger]
    cases st.tokenInfo.mint with
    | none => exact .fail _
    | some mint =>
      refine .bind_id (.refuse _ _) fun _ _ => ?_
      cases newMinter with
      | none => exact .ok rfl
      | some s =>
        simp only [Option.mapM_some, map_eq_pure_bind, bind_assoc, pure_bind]
        exact .bind_id (.liftStd std_eq _) fun minter _ => .ok rfl

/-! ### The two maps -/

theorem Mirrored.insert (h : Mirrored st) {owner spender : Addr} {v : AllowanceResponse}
    (hallow : st'.allowances = st.allowances.insert (owner, spender) v)
    (hspender : st'.allowancesSpender = st.allowancesSpender.insert (spender, owner) v) :
    Mirrored st' := by
  intro o s
  rw [hallow, hspender, Store.get_insert, Store.get_insert, h o s]
  simp only [Prod.mk.injEq, and_comm]

theorem Mirrored.erase (h : Mirrored st) {owner spender : Addr}
    (hallow : st'.allowances = st.allowances.erase (owner, spender))
    (hspender : st'.allowancesSpender = st.allowancesSpender.erase (spender, owner)) :
    Mirrored st' := by
  intro o s
  rw [hallow, hspender, Store.get_erase, Store.get_erase, h o s]
  simp only [Prod.mk.injEq, and_comm]

/-- How a message changes the two maps of the allowances: both in the same way. -/
inductive Alike (st st' : Storage) : Prop
  | keeps (hallow : st'.allowances = st.allowances)
      (hspender : st'.allowancesSpender = st.allowancesSpender)
  | updates (owner spender : Addr)
      (f : Option AllowanceResponse → Exec ContractError AllowanceResponse)
      (hallow : st.allowances.update (owner, spender) f = .ok st'.allowances)
      (hspender : st.allowancesSpender.update (spender, owner) f = .ok st'.allowancesSpender)
  | removes (owner spender : Addr) (hallow : st'.allowances = st.allowances.erase (owner, spender))
      (hspender : st'.allowancesSpender = st.allowancesSpender.erase (spender, owner))

/-- What a message of the ledger does outside of it. -/
structure Beside (st st' : Storage) : Prop where
  maps : Alike st st'
  marketingInfo : st'.marketingInfo = st.marketingInfo
  logo : st'.logo = st.logo

theorem Alike.mirrored (ha : Alike st st') (h : Mirrored st) : Mirrored st' := by
  cases ha with
  | keeps hallow hspender =>
    intro owner spender
    rw [hallow, hspender]
    exact h owner spender
  | updates owner spender f hallow hspender =>
    obtain ⟨v, hv, hallow⟩ := Store.update_eq_ok.mp hallow
    obtain ⟨v', hv', hspender⟩ := Store.update_eq_ok.mp hspender
    -- both are made of what the maps hold for the pair
    rw [h owner spender, hv] at hv'
    cases hv'
    exact h.insert hallow hspender
  | removes owner spender hallow hspender => exact h.erase hallow hspender

theorem moveBalance_frame {owner recipient : Addr} {amount : ℕ}
    (h : moveBalance st owner recipient amount = .ok st') :
    ∃ balances, st' = { st with balances } := by
  unfold moveBalance at h
  obtain ⟨_, -, h⟩ := bind_eq_ok.mp h
  obtain ⟨_, -, h⟩ := bind_eq_ok.mp h
  cases h
  exact ⟨_, rfl⟩

theorem burnBalance_frame {owner : Addr} {amount : ℕ}
    (h : burnBalance st owner amount = .ok st') :
    ∃ balances tokenInfo, st' = { st with balances, tokenInfo } := by
  unfold burnBalance at h
  obtain ⟨_, -, h⟩ := bind_eq_ok.mp h
  obtain ⟨_, -, h⟩ := bind_eq_ok.mp h
  cases h
  exact ⟨_, _, rfl⟩

/-- An allowance is spent from in both maps. -/
theorem deductAllowance_beside {owner spender : Addr} {amount : ℕ}
    (h : deductAllowance env st owner spender amount = .ok st') : Beside st st' := by
  unfold deductAllowance at h
  obtain ⟨allowances, hallow, h⟩ := bind_eq_ok.mp h
  obtain ⟨allowancesSpender, hspender, h⟩ := bind_eq_ok.mp h
  cases h
  exact ⟨.updates owner spender _ hallow hspender, rfl, rfl⟩

/-- What moves or burns balances does nothing else. -/
theorem Beside.balances (h : Beside st st') (balances : Store Addr ℕ) (tokenInfo : TokenInfo) :
    Beside st { st' with balances, tokenInfo } := by
  refine ⟨?_, h.marketingInfo, h.logo⟩
  cases h.maps with
  | keeps hallow hspender => exact .keeps hallow hspender
  | updates owner spender f hallow hspender => exact .updates owner spender f hallow hspender
  | removes owner spender hallow hspender => exact .removes owner spender hallow hspender

theorem Beside.refl (st : Storage) : Beside st st := ⟨.keeps rfl rfl, rfl, rfl⟩

/-- **A message of the ledger** changes both maps in the same way, and neither the marketing data nor
the logo. -/
theorem executeLedger_beside {msg : Cw20.ExecuteMsg} {r : Response Cw20ReceiveMsg}
    (h : executeLedger api env info st msg = .ok (st', r)) : Beside st st' := by
  cases msg with
  | transfer recipient amount =>
    obtain ⟨-, h⟩ := refuse_bind_eq_ok.mp h
    obtain ⟨rcpt, -, h⟩ := bind_eq_ok.mp h
    obtain ⟨st₁, hmove, h⟩ := bind_eq_ok.mp h
    cases h
    obtain ⟨balances, rfl⟩ := moveBalance_frame hmove
    exact (Beside.refl st).balances _ _
  | burn amount =>
    obtain ⟨-, h⟩ := refuse_bind_eq_ok.mp h
    obtain ⟨st₁, hburn, h⟩ := bind_eq_ok.mp h
    cases h
    obtain ⟨balances, tokenInfo, rfl⟩ := burnBalance_frame hburn
    exact (Beside.refl st).balances _ _
  | send contract amount msg =>
    obtain ⟨-, h⟩ := refuse_bind_eq_ok.mp h
    obtain ⟨rcpt, -, h⟩ := bind_eq_ok.mp h
    obtain ⟨st₁, hmove, h⟩ := bind_eq_ok.mp h
    cases h
    obtain ⟨balances, rfl⟩ := moveBalance_frame hmove
    exact (Beside.refl st).balances _ _
  | increaseAllowance spender amount expires =>
    obtain ⟨spenderAddr, -, h⟩ := bind_eq_ok.mp h
    obtain ⟨-, h⟩ := refuse_bind_eq_ok.mp h
    obtain ⟨allowances, hallow, h⟩ := bind_eq_ok.mp h
    obtain ⟨allowancesSpender, hspender, h⟩ := bind_eq_ok.mp h
    cases h
    exact ⟨.updates info.sender spenderAddr _ hallow hspender, rfl, rfl⟩
  | decreaseAllowance spender amount expires =>
    obtain ⟨spenderAddr, -, h⟩ := bind_eq_ok.mp h
    obtain ⟨-, h⟩ := refuse_bind_eq_ok.mp h
    obtain ⟨allowance, -, h⟩ := bind_eq_ok.mp h
    split at h
    · obtain ⟨left, -, h⟩ := bind_eq_ok.mp h
      cases h
      exact ⟨.updates info.sender spenderAddr (fun _ => .ok _) rfl rfl, rfl, rfl⟩
    · cases h
      exact ⟨.removes info.sender spenderAddr rfl rfl, rfl, rfl⟩
  | transferFrom owner recipient amount =>
    obtain ⟨rcpt, -, h⟩ := bind_eq_ok.mp h
    obtain ⟨ownerAddr, -, h⟩ := bind_eq_ok.mp h
    obtain ⟨st₁, hdeduct, h⟩ := bind_eq_ok.mp h
    obtain ⟨st₂, hmove, h⟩ := bind_eq_ok.mp h
    cases h
    obtain ⟨balances, rfl⟩ := moveBalance_frame hmove
    exact (deductAllowance_beside hdeduct).balances _ _
  | sendFrom owner contract amount msg =>
    obtain ⟨rcpt, -, h⟩ := bind_eq_ok.mp h
    obtain ⟨ownerAddr, -, h⟩ := bind_eq_ok.mp h
    obtain ⟨st₁, hdeduct, h⟩ := bind_eq_ok.mp h
    obtain ⟨st₂, hmove, h⟩ := bind_eq_ok.mp h
    cases h
    obtain ⟨balances, rfl⟩ := moveBalance_frame hmove
    exact (deductAllowance_beside hdeduct).balances _ _
  | burnFrom owner amount =>
    obtain ⟨ownerAddr, -, h⟩ := bind_eq_ok.mp h
    obtain ⟨st₁, hdeduct, h⟩ := bind_eq_ok.mp h
    obtain ⟨st₂, hburn, h⟩ := bind_eq_ok.mp h
    cases h
    obtain ⟨balances, tokenInfo, rfl⟩ := burnBalance_frame hburn
    exact (deductAllowance_beside hdeduct).balances _ _
  | mint recipient amount =>
    obtain ⟨-, h⟩ := refuse_bind_eq_ok.mp h
    dsimp only at h
    split at h
    · exact absurd h (fail_ne_ok _ _)
    · obtain ⟨-, h⟩ := refuse_bind_eq_ok.mp h
      obtain ⟨supply, -, h⟩ := bind_eq_ok.mp h
      obtain ⟨-, h⟩ := refuse_bind_eq_ok.mp h
      obtain ⟨rcpt, -, h⟩ := bind_eq_ok.mp h
      obtain ⟨balances, -, h⟩ := bind_eq_ok.mp h
      cases h
      exact (Beside.refl st).balances _ _
  | updateMinter newMinter =>
    change executeUpdateMinter api info st newMinter = _ at h
    unfold executeUpdateMinter at h
    dsimp only at h
    split at h
    · exact absurd h (fail_ne_ok _ _)
    · obtain ⟨-, h⟩ := refuse_bind_eq_ok.mp h
      obtain ⟨minter, -, h⟩ := bind_eq_ok.mp h
      cases h
      exact (Beside.refl st).balances _ _

theorem executeUpdateMarketing_frame {project description marketing : Option String}
    {r : Response Cw20ReceiveMsg}
    (h : executeUpdateMarketing api info st project description marketing = .ok (st', r)) :
    ∃ marketingInfo, st' = { st with marketingInfo } := by
  unfold executeUpdateMarketing at h
  split at h
  · exact absurd h (fail_ne_ok _ _)
  · obtain ⟨-, -, h⟩ := bind_eq_ok.mp h
    obtain ⟨account, -, h⟩ := bind_eq_ok.mp h
    cases h
    exact ⟨_, rfl⟩

theorem executeUploadLogo_frame {logo : Logo} {r : Response Cw20ReceiveMsg}
    (h : executeUploadLogo info st logo = .ok (st', r)) :
    ∃ marketingInfo, st' = { st with logo := some logo, marketingInfo } := by
  unfold executeUploadLogo at h
  split at h
  · exact absurd h (fail_ne_ok _ _)
  · obtain ⟨-, -, h⟩ := bind_eq_ok.mp h
    obtain ⟨-, -, h⟩ := bind_eq_ok.mp h
    cases h
    exact ⟨_, rfl⟩

end Messages

/-! ## Runs -/

/-- A call as its ledger receives it; a message about the token is none. -/
def Call.onLedger (c : Call) : List Cw20.Call :=
  match c.msg with
  | .ledger msg => [⟨c.env, c.info, msg⟩]
  | _ => []

section Runs

variable {api : Api} {st st' : Storage} {c : Call} {r : Response Cw20ReceiveMsg}

/-- **A message of the ledger** is accepted by the contract when it is by its ledger, and with the
same effect. -/
theorem exec_refines (api : Api) (h : Mirrored st) (env : Env) (info : MessageInfo) (msg : Cw20.ExecuteMsg) :
    (exec api st ⟨env, info, .ledger msg⟩).map ledgerOf =
      Cw20.exec api st.ledger ⟨env, info, msg⟩ := by
  have hrefines : Refines .ledger ledgerOf (executeLedger api env info st msg)
      (Cw20.execute api env info st.ledger msg) := executeLedger_refines h msg
  rw [exec, Cw20.exec, execute]
  cases hexec : executeLedger api env info st msg with
  | ok x => rw [hrefines.of_ok hexec]; rfl
  | error e =>
    cases hledger : Cw20.execute api env info st.ledger msg with
    | ok y =>
      obtain ⟨x, hx, -⟩ := hrefines.exists_ok hledger
      rw [hexec] at hx
      cases hx
    | error e' => rfl

/-- **Every accepted message** keeps the two maps in agreement. -/
theorem exec_mirrored (h : Mirrored st) (hexec : exec api st c = some (st', r)) :
    Mirrored st' := by
  obtain ⟨env, info, msg⟩ := c
  have hok := toOption_eq_some.mp hexec
  cases msg with
  | ledger msg => exact (executeLedger_beside hok).maps.mirrored h
  | updateMarketing project description marketing =>
    obtain ⟨marketingInfo, rfl⟩ := executeUpdateMarketing_frame hok
    exact h
  | uploadLogo logo =>
    obtain ⟨marketingInfo, rfl⟩ := executeUploadLogo_frame hok
    exact h

/-- One call of the contract is a call of its ledger, or none. -/
theorem commit_ledger (h : Mirrored st) (c : Call) :
    run (Cw20.exec api) st.ledger c.onLedger = (commit (exec api) st c).ledger := by
  obtain ⟨env, info, msg⟩ := c
  cases msg with
  | ledger msg =>
    have hrefines := exec_refines api h env info msg
    change commit (Cw20.exec api) st.ledger ⟨env, info, msg⟩ = _
    rw [commit, ← hrefines, commit]
    cases exec api st ⟨env, info, .ledger msg⟩ with
    | none => rfl
    | some x => rfl
  | updateMarketing project description marketing =>
    rcases commit_cases (exec api) st ⟨env, info, .updateMarketing project description marketing⟩
      with ⟨r, hr⟩ | ⟨-, hs⟩
    · obtain ⟨marketingInfo, hst⟩ := executeUpdateMarketing_frame (toOption_eq_some.mp hr)
      rw [hst]
      rfl
    · rw [hs]
      rfl
  | uploadLogo logo =>
    rcases commit_cases (exec api) st ⟨env, info, .uploadLogo logo⟩ with ⟨r, hr⟩ | ⟨-, hs⟩
    · obtain ⟨marketingInfo, hst⟩ := executeUploadLogo_frame (toOption_eq_some.mp hr)
      rw [hst]
      rfl
    · rw [hs]
      rfl

/-- **In every run** the two maps agree, if they do at its start. -/
theorem run_mirrored (h : Mirrored st) (cs : List Call) : Mirrored (run (exec api) st cs) :=
  run_preserves (fun _ _ _ _ hm hexec => exec_mirrored hm hexec) h cs

/-- **A run of the contract is a run of its ledger**, on the messages that touch the ledger. -/
theorem run_ledger (h : Mirrored st) (cs : List Call) :
    run (Cw20.exec api) st.ledger (cs.flatMap Call.onLedger) = (run (exec api) st cs).ledger := by
  induction cs using List.reverseRecOn with
  | nil => rfl
  | append_singleton cs c ih =>
    rw [List.flatMap_append, run_append, ih, List.flatMap_singleton,
      commit_ledger (run_mirrored h cs), run_snoc]

/-- A token starts with the ledger that it is asked for, and without allowances. -/
theorem Initial.ledger (h : Initial api st) :
    (∃ msg : Cw20.InstantiateMsg, Cw20.instantiate api msg = .ok st.ledger) ∧
      st.allowancesSpender = ∅ := by
  obtain ⟨msg, hmsg⟩ := h
  unfold instantiate at hmsg
  obtain ⟨ledger, hledger, hmsg⟩ := bind_eq_ok.mp hmsg
  have hok := liftError_eq_ok.mp hledger
  have hst : (∃ marketingInfo logo, st =
      { tokenInfo := ⟨msg.name, msg.symbol, msg.decimals, ledger.totalSupply, ledger.mint⟩
        balances := ledger.balances, marketingInfo, logo }) := by
    split at hmsg
    · cases hmsg
      exact ⟨none, none, rfl⟩
    · obtain ⟨⟨marketingInfo, logo⟩, -, hmsg⟩ := bind_eq_ok.mp hmsg
      cases hmsg
      exact ⟨_, _, rfl⟩
  obtain ⟨marketingInfo, logo, rfl⟩ := hst
  obtain ⟨-, hallow, -⟩ := instantiate_eq_ok hok
  refine ⟨⟨msg.toInstantiateMsg, ?_⟩, rfl⟩
  obtain ⟨balances, allowances, totalSupply, mint⟩ := ledger
  cases hallow
  exact hok

theorem Initial.mirrored (h : Initial api st) : Mirrored st := by
  obtain ⟨⟨msg, hledger⟩, hspender⟩ := h.ledger
  obtain ⟨-, hallow, -⟩ := instantiate_eq_ok hledger
  intro owner spender
  have hnone : st.allowances[(owner, spender)]? = none := by
    rw [show st.allowances = ∅ from hallow]
    exact Store.get_empty _
  rw [hspender, hnone]
  exact Store.get_empty _

/-- **The contract refines its ledger.** In every run from its start, its ledger is what a run of the
ledger leaves, and the contract answers every message of the ledger as the ledger does: it accepts
what the ledger accepts, with the same effect, and fails with the same error. -/
theorem run_refines (h : Initial api st) (cs : List Call) (env : Env) (info : MessageInfo)
    (msg : Cw20.ExecuteMsg) :
    (∃ msg, Cw20.instantiate api msg = .ok st.ledger) ∧
      (run (exec api) st cs).ledger = run (Cw20.exec api) st.ledger (cs.flatMap Call.onLedger) ∧
      Refines .ledger ledgerOf (executeLedger api env info (run (exec api) st cs) msg)
        (Cw20.execute api env info (run (exec api) st cs).ledger msg) :=
  ⟨h.ledger.1, (run_ledger h.mirrored cs).symm,
    executeLedger_refines (run_mirrored h.mirrored cs) msg⟩

/-- The queries about the ledger answer what it holds. -/
structure TellsLedger (api : Api) (st : Storage) (ledger : State) : Prop where
  balance : ∀ address addr, api address = .ok addr →
    queryBalance api st address = .ok (ledger.balance addr)
  allowance : ∀ owner ownerAddr spender spenderAddr, api owner = .ok ownerAddr →
    api spender = .ok spenderAddr → queryAllowance api st owner spender =
      .ok ((ledger.allowances[(ownerAddr, spenderAddr)]?).getD {})
  totalSupply : (queryTokenInfo st).totalSupply = ledger.totalSupply
  minter : queryMinter st = ledger.mint.map fun m => ⟨m.minter, m.cap⟩

/-- **In every run** the queries answer what the ledger holds after its messages. -/
theorem run_tellsLedger (h : Initial api st) (cs : List Call) :
    TellsLedger api (run (exec api) st cs)
      (run (Cw20.exec api) st.ledger (cs.flatMap Call.onLedger)) := by
  rw [run_ledger h.mirrored]
  refine ⟨fun address addr haddr => ?_, fun owner ownerAddr spender spenderAddr ho hs => ?_, rfl, rfl⟩
  · rw [queryBalance, bind_of_eq_ok (validate_eq_ok.mpr haddr)]
    rfl
  · rw [queryAllowance, bind_of_eq_ok (validate_eq_ok.mpr ho), bind_of_eq_ok (validate_eq_ok.mpr hs)]
    rfl

open Sample in
/-- The spender may not take more than what is left. -/
theorem run_refines_sample :
    (∃ msg, Cw20.instantiate acceptsAll msg = .ok token.ledger) ∧
      (run (exec acceptsAll) token lending).ledger =
        run (Cw20.exec acceptsAll) token.ledger (lending.flatMap Call.onLedger) ∧
      Refines .ledger ledgerOf
        (executeLedger acceptsAll env ⟨"bob", []⟩ (run (exec acceptsAll) token lending)
          (.transferFrom "alice" "carol" 20))
        (Cw20.execute acceptsAll env ⟨"bob", []⟩ (run (exec acceptsAll) token lending).ledger
          (.transferFrom "alice" "carol" 20)) :=
  run_refines initial lending env ⟨"bob", []⟩ (.transferFrom "alice" "carol" 20)

end Runs

/-! ## Migration -/

section Migration

variable {st st' : Storage} {version : Version}

theorem migrate_old (hold : version.olderThan 0 14 0) (h : migrate (.ok version) st = .ok st') :
    st' = { st with
      allowancesSpender := st.allowances.toList.foldl
        (fun allowances x => allowances.insert x.1.swap x.2) st.allowancesSpender } := by
  unfold migrate at h
  rw [bind_of_eq_ok rfl, if_pos hold] at h
  exact (pure_eq_ok.mp h).symm

/-- What a migration leaves under a spender and an owner. -/
theorem migrate_get (hold : version.olderThan 0 14 0) (h : migrate (.ok version) st = .ok st')
    (owner spender : Addr) : st'.allowancesSpender[(spender, owner)]? =
      (st.allowances[(owner, spender)]?).or st.allowancesSpender[(spender, owner)]? := by
  rw [migrate_old hold h]
  have hnodup : (st.allowances.toList.map fun x => x.1.swap).Nodup := by
    have hkeys := (Store.nodup_keys st.allowances).map Prod.swap_injective
    rwa [← Std.ExtTreeMap.map_fst_toList_eq_keys, List.map_map] at hkeys
  obtain ⟨hin, hout⟩ := Store.get_foldl_insert Prod.snd hnodup st.allowancesSpender (spender, owner)
  cases hget : st.allowances[(owner, spender)]? with
  | none =>
    refine hout fun x hx hkey => ?_
    have hmem := Std.ExtTreeMap.mem_toList_iff_getElem?_eq_some.mp hx
    rw [Prod.swap_eq_iff_eq_swap.mp hkey] at hmem
    rw [Prod.swap_prod_mk, hget] at hmem
    cases hmem
  | some a =>
    exact hin ((owner, spender), a) (Std.ExtTreeMap.mem_toList_iff_getElem?_eq_some.mpr hget) rfl

/-- **A migration from a version without the second map** brings the two maps in agreement, for good,
if and only if the second one holds nothing yet for an owner and a spender without an allowance. It
leaves the ledger as it is. -/
theorem migrate_mirrored_iff (api : Api) (hold : version.olderThan 0 14 0)
    (h : migrate (.ok version) st = .ok st') :
    st'.ledger = st.ledger ∧
      ((∀ cs, Mirrored (run (exec api) st' cs)) ↔ ∀ owner spender : Addr,
        st.allowances[(owner, spender)]? = none →
          st.allowancesSpender[(spender, owner)]? = none) := by
  have hget := migrate_get hold h
  have hst := migrate_old hold h
  refine ⟨by rw [hst]; rfl, ?_, ?_⟩
  · intro hruns owner spender hnone
    have hagree := hruns [] owner spender
    rw [run_nil, hget, hst] at hagree
    rw [hnone] at hagree
    simpa using hagree
  · intro hnone cs
    refine run_mirrored (fun owner spender => ?_) cs
    rw [hget, hst]
    cases hallow : st.allowances[(owner, spender)]? with
    | none => simpa using hnone owner spender hallow
    | some a => rfl

open Sample in
/-- A version without the second map has left nothing in it. -/
theorem migrate_mirrored_iff_sample :
    ∃ st', migrate (.ok ⟨0, 13, 0, none⟩) outdated = .ok st' ∧ st'.ledger = outdated.ledger ∧
      ∀ cs, Mirrored (run (exec acceptsAll) st' cs) := by
  have hmigrate : migrate (.ok ⟨0, 13, 0, none⟩) outdated = .ok _ := rfl
  obtain ⟨hledger, hiff⟩ := migrate_mirrored_iff acceptsAll (by decide) hmigrate
  refine ⟨_, hmigrate, hledger, hiff.mpr fun owner spender _ => ?_⟩
  have hnone : outdated.allowancesSpender = ∅ := initial.ledger.2
  rw [hnone]
  exact Store.get_empty _

end Migration

end Cw20Base
