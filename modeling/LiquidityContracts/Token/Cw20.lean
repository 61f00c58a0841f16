import LiquidityContracts.CosmWasm.Bank

/-!
# The cw20 token

The ledger of `cw20-base`: balances, allowances, the supply and the minter. Transfers by an owner
or by a spender with an allowance move balances, minting and burning also change the supply. The
contract keeps more, which `Base` adds: the allowances by spender, the marketing data and the logo.
Nothing of the ledger depends on them.

## Main definitions

* `State`, `ExecuteMsg`, `execute`: the ledger and its messages
* `State.balance`: what an address holds
* `State.Unlent a`: nobody has an allowance over what `a` holds

## Main results

* `execute_unlent`: an address that lends to nobody and does not call keeps at least its balance,
  and still lends to nobody
* `execute_supply`: nobody but the minter raises the supply
* `executeTransfer_spec`, `executeTransferFrom_spec`, `executeMint_spec`, `executeBurnFrom_spec`:
  what the messages of the other contracts do to balances and supply
-/

namespace Cw20

open CosmWasm

/-- When an allowance or a message expires. -/
inductive Expiration where
  | atHeight (height : ℕ)
  | atTime (time : Timestamp)
  | never
  deriving DecidableEq, Repr

/-- `is_expired`. -/
def Expiration.isExpired : Expiration → BlockInfo → Bool
  | .atHeight height, block => height ≤ block.height
  | .atTime time, block => time ≤ block.time
  | .never, _ => false

/-- A token of either kind: a native denom or a cw20 contract. -/
inductive Denom where
  | native (denom : String)
  | cw20 (address : Addr)
  deriving DecidableEq, Repr

structure AllowanceResponse where
  allowance : ℕ := 0
  expires : Expiration := .never
  deriving DecidableEq, Repr

structure MinterData where
  minter : Addr
  cap : Option ℕ
  deriving DecidableEq, Repr

/-- The ledger of a token. -/
structure State where
  balances : Store Addr ℕ := ∅
  allowances : Store (Addr × Addr) AllowanceResponse := ∅
  totalSupply : ℕ := 0
  mint : Option MinterData := none

inductive ContractError where
  | std (e : StdError)
  | unauthorized
  | cannotSetOwnAccount
  | invalidZeroAmount
  | expired
  | noAllowance
  | cannotExceedCap
  | duplicateInitialBalanceAddresses
  deriving DecidableEq, Repr

instance : OfStdError ContractError := ⟨.std⟩

/-- The messages that touch the ledger. -/
inductive ExecuteMsg where
  | transfer (recipient : String) (amount : ℕ)
  | burn (amount : ℕ)
  | send (contract : String) (amount : ℕ) (msg : String)
  | increaseAllowance (spender : String) (amount : ℕ) (expires : Option Expiration)
  | decreaseAllowance (spender : String) (amount : ℕ) (expires : Option Expiration)
  | transferFrom (owner recipient : String) (amount : ℕ)
  | sendFrom (owner contract : String) (amount : ℕ) (msg : String)
  | burnFrom (owner : String) (amount : ℕ)
  | mint (recipient : String) (amount : ℕ)
  | updateMinter (newMinter : Option String)
  deriving DecidableEq, Repr

structure Cw20Coin where
  address : String
  amount : ℕ
  deriving DecidableEq, Repr

structure MinterResponse where
  minter : String
  cap : Option ℕ
  deriving DecidableEq, Repr

structure InstantiateMsg where
  name : String
  symbol : String
  decimals : ℕ
  initialBalances : List Cw20Coin
  mint : Option MinterResponse
  deriving DecidableEq, Repr

/-- What `Send` and `SendFrom` tell the receiving contract. -/
structure Cw20ReceiveMsg where
  sender : String
  amount : ℕ
  msg : String
  deriving DecidableEq, Repr

namespace State

/-- What `a` holds. -/
def balance (st : State) (a : Addr) : ℕ := (st.balances[a]?).getD 0

/-- Take `amount` from the balance of `a`. -/
def debit (st : State) (a : Addr) (amount : ℕ) : Exec ContractError State := do
  let left ← Uint128.checkedSub (st.balance a) amount
  return { st with balances := st.balances.insert a left }

/-- Add `amount` to the balance of `a`. -/
def credit (st : State) (a : Addr) (amount : ℕ) : Exec ContractError State := do
  let sum ← Uint128.add (st.balance a) amount
  return { st with balances := st.balances.insert a sum }

/-- Debit `owner` and credit `recipient`. -/
def move (st : State) (owner recipient : Addr) (amount : ℕ) : Exec ContractError State := do
  let debited ← st.debit owner amount
  debited.credit recipient amount

/-- Take `amount` out of the supply. -/
def shrink (st : State) (amount : ℕ) : Exec ContractError State := do
  let left ← Uint128.checkedSub st.totalSupply amount
  return { st with totalSupply := left }

/-- `deduct_allowance`. -/
def deductAllowance (st : State) (owner spender : Addr) (block : BlockInfo) (amount : ℕ) :
    Exec ContractError State :=
  match st.allowances[(owner, spender)]? with
  | none => fail .noAllowance
  | some a => do
    refuse (a.expires.isExpired block) .expired
    let left ← Uint128.checkedSub a.allowance amount
    return { st with
      allowances := st.allowances.insert (owner, spender) { a with allowance := left } }

/-- Nobody has an allowance over what `a` holds. -/
def Unlent (st : State) (a : Addr) : Prop := ∀ spender : Addr, st.allowances[(a, spender)]? = none

end State

/-! ## Instantiation -/

/-- `is_valid_name`. -/
def isValidName (name : String) : Bool := 3 ≤ name.utf8ByteSize ∧ name.utf8ByteSize ≤ 50

/-- `is_valid_symbol`: letters and hyphens; a character beyond them has no byte that passes. -/
def isValidSymbol (symbol : String) : Bool :=
  3 ≤ symbol.utf8ByteSize ∧ symbol.utf8ByteSize ≤ 12 ∧
    symbol.toList.all fun c => c = '-' || c.isAlpha

/-- `validate`. -/
def InstantiateMsg.validate (msg : InstantiateMsg) : Exec ContractError Unit := do
  refuseGeneric (isValidName msg.name = false)
    "Name is not in the expected format (3-50 UTF-8 bytes)"
  refuseGeneric (isValidSymbol msg.symbol = false)
    "Ticker symbol is not in expected format [a-zA-Z\\-]\x7b3,12\x7d"
  refuseGeneric (18 < msg.decimals) "Decimals must not exceed 18"

/-- `create_accounts`: the balances, with the supply they sum up to. -/
def createAccounts (api : Api) (accounts : List Cw20Coin) :
    Exec ContractError (Store Addr ℕ × ℕ) := do
  refuse (¬ (accounts.map Cw20Coin.address).Nodup) .duplicateInitialBalanceAddresses
  accounts.foldlM (fun acc row => do
    let address ← CosmWasm.validate api row.address
    let supply ← Uint128.add acc.2 row.amount
    return (acc.1.insert address row.amount, supply)) (∅, 0)

/-- `instantiate`. -/
def instantiate (api : Api) (msg : InstantiateMsg) : Exec ContractError State := do
  msg.validate
  let (balances, totalSupply) ← createAccounts api msg.initialBalances
  refuseGeneric (∃ limit ∈ msg.mint.bind MinterResponse.cap, limit < totalSupply)
    "Initial supply greater than cap"
  let mint ← msg.mint.mapM fun m => do
    let minter ← CosmWasm.validate api m.minter
    return { minter, cap := m.cap : MinterData }
  return { balances, totalSupply, mint }

/-- A token without initial balances has no supply, and the minter that was asked for. -/
theorem instantiate_spec {api : Api} {msg : InstantiateMsg} {st : State}
    (h : instantiate api msg = .ok st) (hnone : msg.initialBalances = []) :
    st.totalSupply = 0 ∧ ∀ m ∈ st.mint, ∃ asked ∈ msg.mint, api asked.minter = .ok m.minter := by
  unfold instantiate at h
  obtain ⟨-, -, h⟩ := bind_eq_ok.mp h
  obtain ⟨⟨balances, totalSupply⟩, haccounts, h⟩ := bind_eq_ok.mp h
  obtain ⟨-, h⟩ := refuseGeneric_bind_eq_ok.mp h
  obtain ⟨mint, hmint, h⟩ := bind_eq_ok.mp h
  cases h
  -- without accounts nothing is credited
  rw [hnone] at haccounts
  cases haccounts
  refine ⟨rfl, fun m hm => ?_⟩
  cases hasked : msg.mint with
  | none =>
    rw [hasked] at hmint
    cases hmint
    cases hm
  | some asked =>
    rw [hasked, Option.mapM_some] at hmint
    obtain ⟨minted, hminted, hmint⟩ := bind_eq_ok.mp hmint
    obtain ⟨minter, hminter, hminted⟩ := bind_eq_ok.mp hminted
    cases hminted
    cases hmint
    cases hm
    exact ⟨asked, rfl, validate_eq_ok.mp hminter⟩

section Handlers

variable (api : Api) (env : Env) (info : MessageInfo) (st : State)

/-- `execute_transfer`, on the ledger. -/
def executeTransfer (recipient : String) (amount : ℕ) :
    Exec ContractError (State × Response Cw20ReceiveMsg) := do
  refuse (amount = 0) .invalidZeroAmount
  let rcpt ← validate api recipient
  let st ← st.move info.sender rcpt amount
  return (st, {})

/-- `execute_burn`, on the ledger. -/
def executeBurn (amount : ℕ) : Exec ContractError (State × Response Cw20ReceiveMsg) := do
  refuse (amount = 0) .invalidZeroAmount
  let st ← st.debit info.sender amount
  let st ← st.shrink amount
  return (st, {})

/-- `execute_mint`, on the ledger. -/
def executeMint (recipient : String) (amount : ℕ) :
    Exec ContractError (State × Response Cw20ReceiveMsg) := do
  refuse (amount = 0) .invalidZeroAmount
  match st.mint with
  | none => fail .unauthorized
  | some m =>
    refuse (m.minter ≠ info.sender) .unauthorized
    let supply ← Uint128.add st.totalSupply amount
    refuse (∃ limit ∈ m.cap, limit < supply) .cannotExceedCap
    let rcpt ← validate api recipient
    let st ← { st with totalSupply := supply }.credit rcpt amount
    return (st, {})

/-- `execute_send`, on the ledger. -/
def executeSend (contract : String) (amount : ℕ) (msg : String) :
    Exec ContractError (State × Response Cw20ReceiveMsg) := do
  refuse (amount = 0) .invalidZeroAmount
  let rcpt ← validate api contract
  let st ← st.move info.sender rcpt amount
  return (st, { messages := [.wasmExecute contract ⟨info.sender, amount, msg⟩ []] })

/-- `execute_update_minter`, on the ledger. -/
def executeUpdateMinter (newMinter : Option String) :
    Exec ContractError (State × Response Cw20ReceiveMsg) := do
  match st.mint with
  | none => fail .unauthorized
  | some m =>
    refuse (m.minter ≠ info.sender) .unauthorized
    match newMinter with
    | none => return ({ st with mint := none }, {})
    | some s =>
      let minter ← validate api s
      return ({ st with mint := some { minter, cap := m.cap } }, {})

/-- `execute_increase_allowance`, on the ledger. -/
def executeIncreaseAllowance (spender : String) (amount : ℕ) (expires : Option Expiration) :
    Exec ContractError (State × Response Cw20ReceiveMsg) := do
  let spenderAddr ← validate api spender
  refuse (spenderAddr = info.sender) .cannotSetOwnAccount
  let val := (st.allowances[(info.sender, spenderAddr)]?).getD {}
  let sum ← Uint128.add val.allowance amount
  let val := { allowance := sum, expires := expires.getD val.expires }
  return ({ st with allowances := st.allowances.insert (info.sender, spenderAddr) val }, {})

/-- `execute_decrease_allowance`, on the ledger. -/
def executeDecreaseAllowance (spender : String) (amount : ℕ) (expires : Option Expiration) :
    Exec ContractError (State × Response Cw20ReceiveMsg) := do
  let spenderAddr ← validate api spender
  refuse (spenderAddr = info.sender) .cannotSetOwnAccount
  let key := (info.sender, spenderAddr)
  let allowance ← load "AllowanceResponse" (st.allowances[key]?)
  if amount < allowance.allowance then
    let left ← Uint128.checkedSub allowance.allowance amount
    let val := { allowance := left, expires := expires.getD allowance.expires }
    return ({ st with allowances := st.allowances.insert key val }, {})
  else
    return ({ st with allowances := st.allowances.erase key }, {})

/-- `execute_transfer_from`, on the ledger. -/
def executeTransferFrom (owner recipient : String) (amount : ℕ) :
    Exec ContractError (State × Response Cw20ReceiveMsg) := do
  let rcpt ← validate api recipient
  let ownerAddr ← validate api owner
  let st ← st.deductAllowance ownerAddr info.sender env.block amount
  let st ← st.move ownerAddr rcpt amount
  return (st, {})

/-- `execute_burn_from`, on the ledger. -/
def executeBurnFrom (owner : String) (amount : ℕ) :
    Exec ContractError (State × Response Cw20ReceiveMsg) := do
  let ownerAddr ← validate api owner
  let st ← st.deductAllowance ownerAddr info.sender env.block amount
  let st ← st.debit ownerAddr amount
  let st ← st.shrink amount
  return (st, {})

/-- `execute_send_from`, on the ledger. -/
def executeSendFrom (owner contract : String) (amount : ℕ) (msg : String) :
    Exec ContractError (State × Response Cw20ReceiveMsg) := do
  let rcpt ← validate api contract
  let ownerAddr ← validate api owner
  let st ← st.deductAllowance ownerAddr info.sender env.block amount
  let st ← st.move ownerAddr rcpt amount
  return (st, { messages := [.wasmExecute contract ⟨info.sender, amount, msg⟩ []] })

/-- `execute`, for the messages of the ledger. -/
def execute : ExecuteMsg → Exec ContractError (State × Response Cw20ReceiveMsg)
  | .transfer recipient amount => executeTransfer api info st recipient amount
  | .burn amount => executeBurn info st amount
  | .send contract amount msg => executeSend api info st contract amount msg
  | .increaseAllowance spender amount expires =>
    executeIncreaseAllowance api info st spender amount expires
  | .decreaseAllowance spender amount expires =>
    executeDecreaseAllowance api info st spender amount expires
  | .transferFrom owner recipient amount =>
    executeTransferFrom api env info st owner recipient amount
  | .sendFrom owner contract amount msg =>
    executeSendFrom api env info st owner contract amount msg
  | .burnFrom owner amount => executeBurnFrom api env info st owner amount
  | .mint recipient amount => executeMint api info st recipient amount
  | .updateMinter newMinter => executeUpdateMinter api info st newMinter

end Handlers

/-! ## What the building blocks do -/

section Blocks

variable {st st' : State} {a owner recipient spender : Addr} {amount : ℕ} {block : BlockInfo}

namespace State

theorem balance_insert (st : State) (k a : Addr) (n : ℕ) :
    { st with balances := st.balances.insert k n }.balance a =
      if k = a then n else st.balance a := by
  unfold balance
  rw [Store.get_insert]
  split <;> rfl

theorem debit_spec (h : st.debit owner amount = .ok st') :
    (∀ a, st'.balance a + (if a = owner then amount else 0) = st.balance a) ∧
      st'.allowances = st.allowances ∧ st'.totalSupply = st.totalSupply ∧ st'.mint = st.mint := by
  unfold debit at h
  obtain ⟨left, hleft, h⟩ := bind_eq_ok.mp h
  obtain ⟨hle, rfl⟩ := Uint128.checkedSub_eq_ok.mp hleft
  cases h
  refine ⟨fun a => ?_, rfl, rfl, rfl⟩
  rw [balance_insert]
  by_cases ha : a = owner
  · subst ha
    simp only [if_true]
    omega
  · simp [ha, Ne.symm ha]

theorem credit_spec (h : st.credit recipient amount = .ok st') :
    (∀ a, st'.balance a = st.balance a + (if a = recipient then amount else 0)) ∧
      st'.allowances = st.allowances ∧ st'.totalSupply = st.totalSupply ∧ st'.mint = st.mint := by
  unfold credit at h
  obtain ⟨sum, hsum, h⟩ := bind_eq_ok.mp h
  obtain ⟨-, rfl⟩ := Uint128.add_eq_ok.mp hsum
  cases h
  refine ⟨fun a => ?_, rfl, rfl, rfl⟩
  rw [balance_insert]
  by_cases ha : a = recipient
  · simp [ha]
  · simp [ha, Ne.symm ha]

/-- A transfer debits the owner and credits the recipient, and changes nothing else. -/
theorem move_spec (h : st.move owner recipient amount = .ok st') :
    (∀ a, st'.balance a + (if a = owner then amount else 0) =
        st.balance a + (if a = recipient then amount else 0)) ∧
      st'.allowances = st.allowances ∧ st'.totalSupply = st.totalSupply ∧ st'.mint = st.mint := by
  unfold move at h
  obtain ⟨mid, hmid, h⟩ := bind_eq_ok.mp h
  obtain ⟨hdebit, ha, hs, hm⟩ := debit_spec hmid
  obtain ⟨hcredit, ha', hs', hm'⟩ := credit_spec h
  refine ⟨fun a => ?_, ha'.trans ha, hs'.trans hs, hm'.trans hm⟩
  have := hdebit a
  have := hcredit a
  omega

theorem shrink_spec (h : st.shrink amount = .ok st') :
    st'.totalSupply + amount = st.totalSupply ∧ st'.balances = st.balances ∧
      st'.allowances = st.allowances ∧ st'.mint = st.mint := by
  unfold shrink at h
  obtain ⟨left, hleft, h⟩ := bind_eq_ok.mp h
  obtain ⟨hle, rfl⟩ := Uint128.checkedSub_eq_ok.mp hleft
  cases h
  exact ⟨Nat.sub_add_cancel hle, rfl, rfl, rfl⟩

/-- Spending an allowance needs one, and touches no other owner's. -/
theorem deductAllowance_spec (h : st.deductAllowance owner spender block amount = .ok st') :
    (∃ lent, st.allowances[(owner, spender)]? = some lent) ∧
      (∀ p q : Addr, p ≠ owner → st'.allowances[(p, q)]? = st.allowances[(p, q)]?) ∧
      st'.balances = st.balances ∧ st'.totalSupply = st.totalSupply ∧ st'.mint = st.mint := by
  unfold deductAllowance at h
  split at h
  · exact absurd h (fail_ne_ok _ _)
  · rename_i lent hlent
    obtain ⟨-, h⟩ := refuse_bind_eq_ok.mp h
    obtain ⟨left, -, h⟩ := bind_eq_ok.mp h
    cases h
    refine ⟨⟨lent, hlent⟩, fun p q hp => ?_, rfl, rfl, rfl⟩
    exact Store.get_insert_of_ne _ _ fun e => hp (congrArg Prod.fst e).symm

theorem Unlent.congr (h : st'.allowances = st.allowances) (hu : st.Unlent a) : st'.Unlent a :=
  fun q => by rw [h]; exact hu q

/-- Who has lent nothing is not the owner of what a spender takes, and lends nothing after. -/
theorem Unlent.of_spent (hu : st.Unlent a)
    (hlent : ∃ lent, st.allowances[(owner, spender)]? = some lent)
    (hother : ∀ p q : Addr, p ≠ owner → st'.allowances[(p, q)]? = st.allowances[(p, q)]?) :
    st'.Unlent a ∧ a ≠ owner := by
  obtain ⟨lent, hlent⟩ := hlent
  have hne : a ≠ owner := by
    rintro rfl
    rw [hu spender] at hlent
    cases hlent
  refine ⟨fun q => ?_, hne⟩
  rw [hother a q hne]
  exact hu q

theorem balance_congr (h : st'.balances = st.balances) (a : Addr) :
    st'.balance a = st.balance a := by
  rw [balance, h, balance]

/-- What a spender moves out of an allowance. -/
theorem moveLent_spec {st₁ : State}
    (hdeduct : st.deductAllowance owner spender block amount = .ok st₁)
    (hmove : st₁.move owner recipient amount = .ok st') :
    (∃ lent, st.allowances[(owner, spender)]? = some lent) ∧
      (∀ a, st'.balance a + (if a = owner then amount else 0) =
        st.balance a + (if a = recipient then amount else 0)) ∧
      (∀ p q : Addr, p ≠ owner → st'.allowances[(p, q)]? = st.allowances[(p, q)]?) ∧
      st'.totalSupply = st.totalSupply ∧ st'.mint = st.mint := by
  obtain ⟨hlent, hother, hbal, hsup, hmint⟩ := deductAllowance_spec hdeduct
  obtain ⟨hmoved, hall, hsup', hmint'⟩ := move_spec hmove
  refine ⟨hlent, fun a => ?_, fun p q hp => ?_, hsup'.trans hsup, hmint'.trans hmint⟩
  · rw [hmoved a, balance_congr hbal]
  · rw [hall, hother p q hp]

end State

end Blocks

/-! ## What the messages do -/

section Messages

variable {api : Api} {env : Env} {info : MessageInfo} {st st' : State} {resp : Response Cw20ReceiveMsg}
  {amount : ℕ}

theorem executeTransfer_spec {recipient : String}
    (h : executeTransfer api info st recipient amount = .ok (st', resp)) :
    0 < amount ∧ ∃ rcpt, api recipient = .ok rcpt ∧
      (∀ a, st'.balance a + (if a = info.sender then amount else 0) =
        st.balance a + (if a = rcpt then amount else 0)) ∧
      st'.allowances = st.allowances ∧ st'.totalSupply = st.totalSupply ∧
      st'.mint = st.mint := by
  unfold executeTransfer at h
  obtain ⟨hpos, h⟩ := refuse_bind_eq_ok.mp h
  obtain ⟨rcpt, hrcpt, h⟩ := bind_eq_ok.mp h
  obtain ⟨st₁, hmove, h⟩ := bind_eq_ok.mp h
  cases h
  exact ⟨Nat.pos_of_ne_zero hpos, rcpt, validate_eq_ok.mp hrcpt, State.move_spec hmove⟩

theorem executeBurn_spec (h : executeBurn info st amount = .ok (st', resp)) :
    st'.totalSupply + amount = st.totalSupply ∧ st'.mint = st.mint ∧
      st'.allowances = st.allowances ∧
      ∀ a, st'.balance a + (if a = info.sender then amount else 0) = st.balance a := by
  unfold executeBurn at h
  obtain ⟨-, h⟩ := refuse_bind_eq_ok.mp h
  obtain ⟨st₁, hdebit, h⟩ := bind_eq_ok.mp h
  obtain ⟨st₂, hshrink, h⟩ := bind_eq_ok.mp h
  cases h
  obtain ⟨hdebited, hall, hsup, hmint⟩ := State.debit_spec hdebit
  obtain ⟨hshrunk, hbal, hall', hmint'⟩ := State.shrink_spec hshrink
  refine ⟨by omega, hmint'.trans hmint, hall'.trans hall, fun a => ?_⟩
  rw [State.balance_congr hbal, hdebited a]

theorem executeSend_spec {contract msg : String}
    (h : executeSend api info st contract amount msg = .ok (st', resp)) :
    ∃ rcpt, (∀ a, st'.balance a + (if a = info.sender then amount else 0) =
        st.balance a + (if a = rcpt then amount else 0)) ∧
      st'.allowances = st.allowances ∧ st'.totalSupply = st.totalSupply ∧
      st'.mint = st.mint := by
  unfold executeSend at h
  obtain ⟨-, h⟩ := refuse_bind_eq_ok.mp h
  obtain ⟨rcpt, -, h⟩ := bind_eq_ok.mp h
  obtain ⟨st₁, hmove, h⟩ := bind_eq_ok.mp h
  cases h
  exact ⟨rcpt, State.move_spec hmove⟩

theorem executeTransferFrom_spec {owner recipient : String}
    (h : executeTransferFrom api env info st owner recipient amount = .ok (st', resp)) :
    ∃ ownerAddr rcpt, api owner = .ok ownerAddr ∧ api recipient = .ok rcpt ∧
      (∃ lent, st.allowances[(ownerAddr, info.sender)]? = some lent) ∧
      (∀ a, st'.balance a + (if a = ownerAddr then amount else 0) =
        st.balance a + (if a = rcpt then amount else 0)) ∧
      (∀ p q : Addr, p ≠ ownerAddr → st'.allowances[(p, q)]? = st.allowances[(p, q)]?) ∧
      st'.totalSupply = st.totalSupply ∧ st'.mint = st.mint := by
  unfold executeTransferFrom at h
  obtain ⟨rcpt, hrcpt, h⟩ := bind_eq_ok.mp h
  obtain ⟨ownerAddr, howner, h⟩ := bind_eq_ok.mp h
  obtain ⟨st₁, hdeduct, h⟩ := bind_eq_ok.mp h
  obtain ⟨st₂, hmove, h⟩ := bind_eq_ok.mp h
  cases h
  exact ⟨ownerAddr, rcpt, validate_eq_ok.mp howner, validate_eq_ok.mp hrcpt,
    State.moveLent_spec hdeduct hmove⟩

theorem executeSendFrom_spec {owner contract msg : String}
    (h : executeSendFrom api env info st owner contract amount msg = .ok (st', resp)) :
    ∃ ownerAddr rcpt, (∃ lent, st.allowances[(ownerAddr, info.sender)]? = some lent) ∧
      (∀ a, st'.balance a + (if a = ownerAddr then amount else 0) =
        st.balance a + (if a = rcpt then amount else 0)) ∧
      (∀ p q : Addr, p ≠ ownerAddr → st'.allowances[(p, q)]? = st.allowances[(p, q)]?) ∧
      st'.totalSupply = st.totalSupply ∧ st'.mint = st.mint := by
  unfold executeSendFrom at h
  obtain ⟨rcpt, -, h⟩ := bind_eq_ok.mp h
  obtain ⟨ownerAddr, -, h⟩ := bind_eq_ok.mp h
  obtain ⟨st₁, hdeduct, h⟩ := bind_eq_ok.mp h
  obtain ⟨st₂, hmove, h⟩ := bind_eq_ok.mp h
  cases h
  exact ⟨ownerAddr, rcpt, State.moveLent_spec hdeduct hmove⟩

theorem executeMint_spec {recipient : String}
    (h : executeMint api info st recipient amount = .ok (st', resp)) :
    0 < amount ∧ st'.totalSupply = st.totalSupply + amount ∧ st'.allowances = st.allowances ∧
      st'.mint = st.mint ∧ (∀ a, st.balance a ≤ st'.balance a) ∧
      ∃ m ∈ st.mint, m.minter = info.sender := by
  unfold executeMint at h
  obtain ⟨hpos, h⟩ := refuse_bind_eq_ok.mp h
  split at h
  · exact absurd h (fail_ne_ok _ _)
  · rename_i m hm
    obtain ⟨hminter, h⟩ := refuse_bind_eq_ok.mp h
    obtain ⟨supply, hsupply, h⟩ := bind_eq_ok.mp h
    obtain ⟨-, rfl⟩ := Uint128.add_eq_ok.mp hsupply
    obtain ⟨-, h⟩ := refuse_bind_eq_ok.mp h
    obtain ⟨rcpt, -, h⟩ := bind_eq_ok.mp h
    obtain ⟨st₁, hcredit, h⟩ := bind_eq_ok.mp h
    cases h
    obtain ⟨hbal, hall, hsup, hmint⟩ := State.credit_spec hcredit
    refine ⟨Nat.pos_of_ne_zero hpos, hsup, hall, hmint, fun a => ?_, m, hm, not_not.mp hminter⟩
    rw [hbal a]
    exact Nat.le_add_right _ _

theorem executeBurnFrom_spec {owner : String}
    (h : executeBurnFrom api env info st owner amount = .ok (st', resp)) :
    st'.totalSupply + amount = st.totalSupply ∧ st'.mint = st.mint ∧
      ∃ ownerAddr, (∃ lent, st.allowances[(ownerAddr, info.sender)]? = some lent) ∧
        (∀ a, st'.balance a + (if a = ownerAddr then amount else 0) = st.balance a) ∧
        ∀ p q : Addr, p ≠ ownerAddr → st'.allowances[(p, q)]? = st.allowances[(p, q)]? := by
  unfold executeBurnFrom at h
  obtain ⟨ownerAddr, -, h⟩ := bind_eq_ok.mp h
  obtain ⟨st₁, hdeduct, h⟩ := bind_eq_ok.mp h
  obtain ⟨st₂, hdebit, h⟩ := bind_eq_ok.mp h
  obtain ⟨st₃, hshrink, h⟩ := bind_eq_ok.mp h
  cases h
  -- the allowance is lowered, then the balance, then the supply
  obtain ⟨hlent, hother, hbal, hsup, hmint⟩ := State.deductAllowance_spec hdeduct
  obtain ⟨hdebited, hall, hsup', hmint'⟩ := State.debit_spec hdebit
  obtain ⟨hshrunk, hbal', hall', hmint''⟩ := State.shrink_spec hshrink
  refine ⟨by omega, hmint''.trans (hmint'.trans hmint), ownerAddr, hlent, fun a => ?_,
    fun p q hp => ?_⟩
  · rw [State.balance_congr hbal', hdebited a, State.balance_congr hbal]
  · rw [hall', hall, hother p q hp]

variable {a : Addr}

theorem executeUpdateMinter_ledger {newMinter : Option String}
    (h : executeUpdateMinter api info st newMinter = .ok (st', resp)) :
    st'.balances = st.balances ∧ st'.allowances = st.allowances ∧
      st'.totalSupply = st.totalSupply ∧ ∃ m ∈ st.mint, m.minter = info.sender := by
  unfold executeUpdateMinter at h
  split at h
  · exact absurd h (fail_ne_ok _ _)
  · rename_i m hm
    obtain ⟨hminter, h⟩ := refuse_bind_eq_ok.mp h
    split at h
    · cases h
      exact ⟨rfl, rfl, rfl, m, hm, not_not.mp hminter⟩
    · obtain ⟨minter, -, h⟩ := bind_eq_ok.mp h
      cases h
      exact ⟨rfl, rfl, rfl, m, hm, not_not.mp hminter⟩

theorem executeIncreaseAllowance_ledger {spender : String} {expires : Option Expiration}
    (h : executeIncreaseAllowance api info st spender amount expires = .ok (st', resp)) :
    st'.balances = st.balances ∧ st'.totalSupply = st.totalSupply ∧ st'.mint = st.mint ∧
      ∀ p q : Addr, p ≠ info.sender → st'.allowances[(p, q)]? = st.allowances[(p, q)]? := by
  unfold executeIncreaseAllowance at h
  obtain ⟨spenderAddr, -, h⟩ := bind_eq_ok.mp h
  obtain ⟨-, h⟩ := refuse_bind_eq_ok.mp h
  obtain ⟨sum, -, h⟩ := bind_eq_ok.mp h
  cases h
  refine ⟨rfl, rfl, rfl, fun p q hp => ?_⟩
  exact Store.get_insert_of_ne _ _ fun e => hp (congrArg Prod.fst e).symm

theorem executeDecreaseAllowance_ledger {spender : String} {expires : Option Expiration}
    (h : executeDecreaseAllowance api info st spender amount expires = .ok (st', resp)) :
    st'.balances = st.balances ∧ st'.totalSupply = st.totalSupply ∧ st'.mint = st.mint ∧
      ∀ p q : Addr, p ≠ info.sender → st'.allowances[(p, q)]? = st.allowances[(p, q)]? := by
  unfold executeDecreaseAllowance at h
  obtain ⟨spenderAddr, -, h⟩ := bind_eq_ok.mp h
  obtain ⟨-, h⟩ := refuse_bind_eq_ok.mp h
  obtain ⟨allowance, -, h⟩ := bind_eq_ok.mp h
  split at h
  · obtain ⟨left, -, h⟩ := bind_eq_ok.mp h
    cases h
    refine ⟨rfl, rfl, rfl, fun p q hp => ?_⟩
    exact Store.get_insert_of_ne _ _ fun e => hp (congrArg Prod.fst e).symm
  · cases h
    refine ⟨rfl, rfl, rfl, fun p q hp => ?_⟩
    rw [Store.get_erase, if_neg fun e => hp (congrArg Prod.fst e).symm]

/-- **An address that lends to nobody and does not call** keeps at least its balance, and still
lends to nobody. -/
theorem execute_unlent {m : ExecuteMsg} (h : execute api env info st m = .ok (st', resp))
    (ha : a ≠ info.sender) (hu : st.Unlent a) : st'.Unlent a ∧ st.balance a ≤ st'.balance a := by
  cases m with
  | transfer recipient amount =>
    obtain ⟨-, rcpt, -, hmoved, hall, -⟩ := executeTransfer_spec h
    have := hmoved a
    rw [if_neg ha] at this
    exact ⟨hu.congr hall, by omega⟩
  | burn amount =>
    obtain ⟨-, -, hall, hburned⟩ := executeBurn_spec h
    have := hburned a
    rw [if_neg ha] at this
    exact ⟨hu.congr hall, by omega⟩
  | send contract amount msg =>
    obtain ⟨rcpt, hmoved, hall, -⟩ := executeSend_spec h
    have := hmoved a
    rw [if_neg ha] at this
    exact ⟨hu.congr hall, by omega⟩
  | increaseAllowance spender amount expires =>
    obtain ⟨hbal, -, -, hother⟩ := executeIncreaseAllowance_ledger h
    exact ⟨fun q => by rw [hother a q ha]; exact hu q, (State.balance_congr hbal a).ge⟩
  | decreaseAllowance spender amount expires =>
    obtain ⟨hbal, -, -, hother⟩ := executeDecreaseAllowance_ledger h
    exact ⟨fun q => by rw [hother a q ha]; exact hu q, (State.balance_congr hbal a).ge⟩
  | transferFrom owner recipient amount =>
    obtain ⟨ownerAddr, rcpt, -, -, hlent, hmoved, hother, -⟩ := executeTransferFrom_spec h
    -- who is spent from has lent, and this address has not
    obtain ⟨hunlent, hne⟩ := hu.of_spent hlent hother
    have := hmoved a
    rw [if_neg hne] at this
    exact ⟨hunlent, by omega⟩
  | sendFrom owner contract amount msg =>
    obtain ⟨ownerAddr, rcpt, hlent, hmoved, hother, -⟩ := executeSendFrom_spec h
    obtain ⟨hunlent, hne⟩ := hu.of_spent hlent hother
    have := hmoved a
    rw [if_neg hne] at this
    exact ⟨hunlent, by omega⟩
  | burnFrom owner amount =>
    obtain ⟨-, -, ownerAddr, hlent, hburned, hother⟩ := executeBurnFrom_spec h
    obtain ⟨hunlent, hne⟩ := hu.of_spent hlent hother
    have := hburned a
    rw [if_neg hne] at this
    exact ⟨hunlent, by omega⟩
  | mint recipient amount =>
    obtain ⟨-, -, hall, -, hbal, -⟩ := executeMint_spec h
    exact ⟨hu.congr hall, hbal a⟩
  | updateMinter newMinter =>
    obtain ⟨hbal, hall, -⟩ := executeUpdateMinter_ledger h
    exact ⟨hu.congr hall, (State.balance_congr hbal a).ge⟩

/-- **Nobody but the minter raises the supply**, or names another minter. -/
theorem execute_supply {m : ExecuteMsg} (h : execute api env info st m = .ok (st', resp))
    (hminter : ∀ x ∈ st.mint, x.minter ≠ info.sender) :
    st'.totalSupply ≤ st.totalSupply ∧ st'.mint = st.mint := by
  cases m with
  | transfer recipient amount =>
    obtain ⟨-, rcpt, -, -, -, hsupply, hmint⟩ := executeTransfer_spec h
    exact ⟨hsupply.le, hmint⟩
  | burn amount =>
    obtain ⟨hsupply, hmint, -⟩ := executeBurn_spec h
    exact ⟨by omega, hmint⟩
  | send contract amount msg =>
    obtain ⟨rcpt, -, -, hsupply, hmint⟩ := executeSend_spec h
    exact ⟨hsupply.le, hmint⟩
  | increaseAllowance spender amount expires =>
    obtain ⟨-, hsupply, hmint, -⟩ := executeIncreaseAllowance_ledger h
    exact ⟨hsupply.le, hmint⟩
  | decreaseAllowance spender amount expires =>
    obtain ⟨-, hsupply, hmint, -⟩ := executeDecreaseAllowance_ledger h
    exact ⟨hsupply.le, hmint⟩
  | transferFrom owner recipient amount =>
    obtain ⟨-, -, -, -, -, -, -, hsupply, hmint⟩ := executeTransferFrom_spec h
    exact ⟨hsupply.le, hmint⟩
  | sendFrom owner contract amount msg =>
    obtain ⟨-, -, -, -, -, hsupply, hmint⟩ := executeSendFrom_spec h
    exact ⟨hsupply.le, hmint⟩
  | burnFrom owner amount =>
    obtain ⟨hsupply, hmint, -⟩ := executeBurnFrom_spec h
    exact ⟨by omega, hmint⟩
  | mint recipient amount =>
    obtain ⟨-, -, -, -, -, x, hx, hsender⟩ := executeMint_spec h
    -- the minter alone gets here
    exact absurd hsender (hminter x hx)
  | updateMinter newMinter =>
    obtain ⟨-, -, -, x, hx, hsender⟩ := executeUpdateMinter_ledger h
    exact absurd hsender (hminter x hx)

end Messages

end Cw20
