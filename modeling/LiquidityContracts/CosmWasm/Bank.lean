import LiquidityContracts.CosmWasm.Exec
import LiquidityContracts.CosmWasm.Store

/-!
# Native coins, messages and blocks

What a handler is told about the call and what it may ask the chain to do afterwards, and the
bank that holds the native coins. The bank refuses a coin of amount zero; a transfer without coins
is none.

## Main definitions

* `Coin`, `MessageInfo`, `BlockInfo`, `Env`: the circumstances of a call
* `CosmosMsg π`, `Response π`: what a handler emits, with contract payloads in `π`
* `Bank`, `Bank.move`, `Bank.send`: balances of native coins and transfers between them

## Main results

* `Bank.send_balance`: a transfer debits the sender and credits the recipient by the amount of
  each denom, and moves nothing else
-/

namespace CosmWasm

/-- An address, in the form the chain prints it. -/
abbrev Addr := String

/-- `addr_validate` of the chain: the address a string denotes, or an error. -/
abbrev Api := String → Except StdError Addr

/-- `deps.api.addr_validate(s)?`. -/
def validate {ε : Type} [OfStdError ε] (api : Api) (s : String) : Exec ε Addr := liftStd (api s)

theorem validate_eq_ok {ε : Type} [OfStdError ε] {api : Api} {s : String} {a : Addr} :
    (validate api s : Exec ε Addr) = .ok a ↔ api s = .ok a :=
  liftStd_eq_ok

/-- An amount of one native denom. -/
structure Coin where
  denom : String
  amount : ℕ
  deriving DecidableEq, Repr

/-- Who calls, and the coins attached to the call. -/
structure MessageInfo where
  sender : Addr
  funds : List Coin
  deriving DecidableEq, Repr

/-- The block a call executes in. -/
structure BlockInfo where
  height : ℕ
  time : Timestamp
  deriving DecidableEq, Repr

/-- The block and the address of the called contract. -/
structure Env where
  block : BlockInfo
  contractAddress : Addr
  deriving DecidableEq, Repr

/-- A message a handler emits: native coins to an address, a call of another contract, or the
creation of one. -/
inductive CosmosMsg (π : Type) where
  | bankSend (toAddress : Addr) (amount : List Coin)
  | wasmExecute (contractAddr : Addr) (msg : π) (funds : List Coin)
  | wasmInstantiate (admin : Option Addr) (codeId : ℕ) (msg : π) (funds : List Coin)
      (label : String)
  deriving DecidableEq, Repr

/-- The messages a handler emits, in order; those the contract wants a reply for carry the
reply's id. -/
structure Response (π : Type) where
  messages : List (CosmosMsg π) := []
  submessages : List (ℕ × CosmosMsg π) := []
  deriving DecidableEq, Repr

/-- The native coins that a message sends or attaches. -/
def CosmosMsg.coins {π : Type} : CosmosMsg π → List Coin
  | .bankSend _ amount => amount
  | .wasmExecute _ _ funds => funds
  | .wasmInstantiate _ _ _ funds _ => funds

/-- All messages of a response. -/
def Response.emitted {π : Type} (r : Response π) : List (CosmosMsg π) :=
  r.messages ++ r.submessages.map Prod.snd

/-- The amount of `denom` in a list of coins. -/
def amountOf (denom : String) (coins : List Coin) : ℕ :=
  ((coins.filter fun c => c.denom = denom).map Coin.amount).sum

@[simp] theorem amountOf_nil (denom : String) : amountOf denom [] = 0 := rfl

theorem amountOf_cons (denom : String) (c : Coin) (coins : List Coin) :
    amountOf denom (c :: coins) =
      (if c.denom = denom then c.amount else 0) + amountOf denom coins := by
  unfold amountOf
  by_cases h : c.denom = denom
  · simp [h]
  · simp [h]

@[simp] theorem amountOf_singleton (denom : String) (c : Coin) :
    amountOf denom [c] = if c.denom = denom then c.amount else 0 := by
  simp [amountOf_cons]

/-- The balances of native coins, by holder and denom. -/
abbrev Bank := Store (Addr × String) ℕ

namespace Bank

/-- What `holder` has of `denom`. -/
def balance (bank : Bank) (holder : Addr) (denom : String) : ℕ :=
  (bank[(holder, denom)]?).getD 0

theorem balance_insert (bank : Bank) (a holder : Addr) (d denom : String) (n : ℕ) :
    balance (bank.insert (a, d) n) holder denom =
      if a = holder ∧ d = denom then n else balance bank holder denom := by
  unfold balance
  rw [Store.get_insert]
  by_cases h : a = holder ∧ d = denom
  · simp [h]
  · rw [if_neg (by simpa [Prod.ext_iff] using h), if_neg h]

/-- Move `n` of `denom`, if it is something and the sender has it. -/
def move (bank : Bank) (sender recipient : Addr) (denom : String) (n : ℕ) : Option Bank :=
  if n ≠ 0 ∧ n ≤ balance bank sender denom then
    let debited := bank.insert (sender, denom) (balance bank sender denom - n)
    some (debited.insert (recipient, denom) (balance debited recipient denom + n))
  else none

/-- Move every coin of a list. -/
def send (bank : Bank) (sender recipient : Addr) (coins : List Coin) : Option Bank :=
  coins.foldlM (fun b c => move b sender recipient c.denom c.amount) bank

theorem move_balance {bank bank' : Bank} {sender recipient : Addr} {d : String} {n : ℕ}
    (h : move bank sender recipient d n = some bank') (a : Addr) (denom : String) :
    balance bank' a denom + (if a = sender ∧ d = denom then n else 0) =
      balance bank a denom + (if a = recipient ∧ d = denom then n else 0) := by
  unfold move at h
  split at h
  · rename_i hn
    obtain ⟨-, hn⟩ := hn
    cases h
    by_cases hd : d = denom
    · subst hd
      by_cases hr : a = recipient <;> by_cases hs : a = sender <;>
        simp_all [balance_insert, eq_comm]
    · simp [balance_insert, hd]
  · cases h

/-- A coin can be sent when it is something, and the sender has it. -/
theorem exists_send_singleton {bank : Bank} {sender recipient : Addr} {c : Coin} :
    (∃ bank', send bank sender recipient [c] = some bank') ↔
      c.amount ≠ 0 ∧ c.amount ≤ balance bank sender c.denom := by
  by_cases h : c.amount ≠ 0 ∧ c.amount ≤ balance bank sender c.denom
  · simp [send, move, h]
  · simp only [send, move, List.foldlM_cons, if_neg h]
    simp [h]

/-- **A transfer debits the sender and credits the recipient**, and moves nothing else. -/
theorem send_balance {bank bank' : Bank} {sender recipient : Addr} {coins : List Coin}
    (h : send bank sender recipient coins = some bank') (a : Addr) (denom : String) :
    balance bank' a denom + (if a = sender then amountOf denom coins else 0) =
      balance bank a denom + (if a = recipient then amountOf denom coins else 0) := by
  unfold send at h
  induction coins generalizing bank with
  | nil =>
    cases h
    simp
  | cons c coins ih =>
    rw [List.foldlM_cons, Option.bind_eq_bind, Option.bind_eq_some_iff] at h
    obtain ⟨mid, hmid, h⟩ := h
    have hmove := move_balance hmid a denom
    have hrest := ih h
    rw [amountOf_cons]
    -- a coin of another denom moves nothing of this one
    by_cases hd : c.denom = denom
    · simp only [hd, and_true, if_true] at hmove ⊢
      split_ifs at hmove hrest ⊢ <;> omega
    · simp only [hd, and_false, if_false, zero_add] at hmove ⊢
      omega

/-- Only the sender of a transfer can lose by it. -/
theorem balance_le_of_send {bank bank' : Bank} {sender recipient : Addr} {coins : List Coin}
    (h : send bank sender recipient coins = some bank') {a : Addr} (hs : a ≠ sender)
    (denom : String) : balance bank a denom ≤ balance bank' a denom := by
  have := send_balance h a denom
  rw [if_neg hs] at this
  omega

end Bank

end CosmWasm
