import LiquidityContracts.CosmWasm.Run
import LiquidityContracts.Swap.Spec

/-!
# The pool on its chain

The pool's messages take effect in the bank, in the FURY token and in the token of the pool. A
call moves the attached coins, runs the handler and applies what it emits in order, all of it or
nothing. Anyone but the pool may also deal with the tokens and the bank directly, so that runs
contain whatever the pool's environment may do to its holdings; what a message does in a contract
other than the two tokens is a call of its own.

## Main definitions

* `Deployment`, `World`: the addresses of the contracts, and the state of the chain
* `applyMessages`, `callPool`: a call of the pool with everything it emits
* `Label`, `exec`: what may happen on the chain
* `deploy`, `Initial`: the chain on which the pool has just been instantiated

## Main results

* `applyMessages_flows`: what the messages of the pool move, read off the messages
* `callPool_eq_some`: a call succeeds exactly when each of its parts does
-/

namespace Fanfuryswap

open CosmWasm Cw20 Util

/-- The addresses of the pool and of the contracts it deals with. A valid address is returned by
`addr_validate` as it is, and the token of the pool, created after FURY, has an address of its
own. -/
structure Deployment where
  api : Api
  pool : Addr
  fury : Addr
  lp : Addr
  bonding : Addr
  validate_eq : ∀ s a, api s = .ok a → a = s
  fury_ne_lp : fury ≠ lp

/-- The state of the pool, of the bank and of the two tokens. -/
structure World where
  pool : Storage
  bank : Bank
  fury : Cw20.State
  lp : Cw20.State

namespace World

/-- The answers of the two tokens to the queries of the pool. -/
def querier (d : Deployment) (w : World) : Querier where
  totalSupply contract :=
    if contract = d.fury then .ok w.fury.totalSupply
    else if contract = d.lp then .ok w.lp.totalSupply
    else .error (.notFound contract)
  tokenBalance contract holder := do
    let holder ← d.api holder
    if contract = d.fury then .ok (w.fury.balance holder)
    else if contract = d.lp then .ok (w.lp.balance holder)
    else .error (.notFound contract)

/-- What the pool holds of its native coin. -/
def usdcHeld (d : Deployment) (w : World) : ℕ := w.bank.balance d.pool w.pool.config.usdcDenom

/-- What the pool holds of FURY. -/
def furyHeld (d : Deployment) (w : World) : ℕ := w.fury.balance d.pool

end World

section Messages

variable (d : Deployment) (block : BlockInfo)

/-- The effect of a message of the pool. -/
def applyMessage (w : World) : CosmosMsg Payload → Option World
  | .bankSend toAddress amount => do
    let bank ← w.bank.send d.pool toAddress amount
    return { w with bank }
  | .wasmExecute contract msg funds => do
    let bank ← w.bank.send d.pool contract funds
    let w := { w with bank }
    if contract = d.fury then do
      let .cw20 m := msg | none
      let (fury, _) ← (Cw20.execute d.api ⟨block, d.fury⟩ ⟨d.pool, funds⟩ w.fury m).toOption
      return { w with fury }
    else if contract = d.lp then do
      let .cw20 m := msg | none
      let (lp, _) ← (Cw20.execute d.api ⟨block, d.lp⟩ ⟨d.pool, funds⟩ w.lp m).toOption
      return { w with lp }
    else if contract = d.pool then none
    else return w
  | .wasmInstantiate _ _ _ _ _ => none

/-- The effect of a list of messages; one that fails reverts them all. -/
def applyMessages (w : World) (msgs : List (CosmosMsg Payload)) : Option World :=
  msgs.foldlM (applyMessage d block) w

/-- A call of the pool: the attached coins are moved, the handler runs, and its messages are
applied. -/
def callPool (w : World) (info : MessageInfo) (msg : ExecuteMsg) :
    Option (World × Response Payload) := do
  let bank ← w.bank.send info.sender d.pool info.funds
  let w := { w with bank }
  let (pool, resp) ← (execute (w.querier d) ⟨block, d.pool⟩ info w.pool msg).toOption
  let w ← applyMessages d block { w with pool } resp.messages
  return (w, resp)

end Messages

/-- What may happen on the chain: a call of the pool, of a token, or a transfer of coins. -/
inductive Label where
  | pool (block : BlockInfo) (info : MessageInfo) (msg : ExecuteMsg)
  | fury (block : BlockInfo) (info : MessageInfo) (msg : Cw20.ExecuteMsg)
  | lp (block : BlockInfo) (info : MessageInfo) (msg : Cw20.ExecuteMsg)
  | bank (sender toAddress : Addr) (amount : List Coin)
  deriving DecidableEq, Repr

/-- Who makes a call. -/
def Label.sender : Label → Addr
  | .pool _ info _ => info.sender
  | .fury _ info _ => info.sender
  | .lp _ info _ => info.sender
  | .bank sender _ _ => sender

/-- One thing that happens on the chain; `none` when it is reverted. The pool acts through the
messages it emits only. -/
def exec (d : Deployment) (w : World) (l : Label) : Option (World × Response Payload) :=
  if l.sender = d.pool then none
  else match l with
    | .pool block info msg => callPool d block w info msg
    | .fury block info msg => do
      let (fury, _) ← (Cw20.execute d.api ⟨block, d.fury⟩ info w.fury msg).toOption
      return ({ w with fury }, {})
    | .lp block info msg => do
      let (lp, _) ← (Cw20.execute d.api ⟨block, d.lp⟩ info w.lp msg).toOption
      return ({ w with lp }, {})
    | .bank sender toAddress amount => do
      let bank ← w.bank.send sender toAddress amount
      return ({ w with bank }, {})

/-! ## Deployment -/

/-- The token that a submessage of `instantiate` creates. -/
def createToken (api : Api) (resp : Response Payload) : Option Cw20.State :=
  match resp.submessages with
  | [(_, .wasmInstantiate _ _ (.newToken msg) _ _)] => (Cw20.instantiate api msg).toOption
  | _ => none

/-- The chain after the pool is instantiated, with the token and the bonding contract that its
submessages create. -/
def deploy (d : Deployment) (block : BlockInfo) (msg : InstantiateMsg) (bank : Bank)
    (fury : Cw20.State) : Option World := do
  let env : Env := ⟨block, d.pool⟩
  let (st, resp) := instantiate env msg
  let lp ← createToken d.api resp
  let (st, _) ← (reply d.api env st ⟨instantiateLpTokenReplyId, some d.lp⟩).toOption
  let (pool, _) ← (reply d.api env st ⟨instantiateBondingId, some d.bonding⟩).toOption
  return { pool, bank, fury, lp }

/-- The pool has just been instantiated for FURY, at an address that has lent FURY to nobody. -/
def Initial (d : Deployment) (w : World) : Prop :=
  ∃ block msg bank fury, msg.furyTokenAddress = d.fury ∧ fury.Unlent d.pool ∧
    deploy d block msg bank fury = some w

/-! ## What the messages of the pool move -/

/-- The messages the pool emits in a call by `caller`. -/
inductive OwnMessage (d : Deployment) (caller : Addr) : CosmosMsg Payload → Prop
  | pay (recipient : Addr) (coins : List Coin) : OwnMessage d caller (.bankSend recipient coins)
  | transfer (recipient : Addr) (n : ℕ) :
    OwnMessage d caller (.wasmExecute d.fury (.cw20 (.transfer recipient n)) [])
  | pull (n : ℕ) :
    OwnMessage d caller (.wasmExecute d.fury (.cw20 (.transferFrom caller d.pool n)) [])
  | mint (recipient : Addr) (n : ℕ) :
    OwnMessage d caller (.wasmExecute d.lp (.cw20 (.mint recipient n)) [])
  | burn (owner : Addr) (n : ℕ) :
    OwnMessage d caller (.wasmExecute d.lp (.cw20 (.burnFrom owner n)) [])
  | bond (contract : Addr) (msg : Fanfurybonding.ExecuteMsg) :
    OwnMessage d caller (.wasmExecute contract (.bonding msg) [])

/-- The coins of a denom that messages send. -/
def coinsOut (denom : String) (msgs : List (CosmosMsg Payload)) : ℕ :=
  (msgs.map fun
    | .bankSend _ coins => amountOf denom coins
    | _ => 0).sum

/-- The FURY that messages transfer. -/
def furyOut (msgs : List (CosmosMsg Payload)) : ℕ :=
  (msgs.map fun
    | .wasmExecute _ (.cw20 (.transfer _ n)) _ => n
    | _ => 0).sum

/-- The FURY that messages pull in. -/
def furyIn (msgs : List (CosmosMsg Payload)) : ℕ :=
  (msgs.map fun
    | .wasmExecute _ (.cw20 (.transferFrom _ _ n)) _ => n
    | _ => 0).sum

/-- The tokens of the pool that messages mint. -/
def minted (msgs : List (CosmosMsg Payload)) : ℕ :=
  (msgs.map fun
    | .wasmExecute _ (.cw20 (.mint _ n)) _ => n
    | _ => 0).sum

/-- The tokens of the pool that messages burn. -/
def burned (msgs : List (CosmosMsg Payload)) : ℕ :=
  (msgs.map fun
    | .wasmExecute _ (.cw20 (.burnFrom _ n)) _ => n
    | _ => 0).sum

section Sums

variable (denom : String) (msgs msgs' : List (CosmosMsg Payload))

theorem coinsOut_append :
    coinsOut denom (msgs ++ msgs') = coinsOut denom msgs + coinsOut denom msgs' := by
  simp [coinsOut]

theorem furyOut_append : furyOut (msgs ++ msgs') = furyOut msgs + furyOut msgs' := by
  simp [furyOut]

theorem furyIn_append : furyIn (msgs ++ msgs') = furyIn msgs + furyIn msgs' := by
  simp [furyIn]

theorem minted_append : minted (msgs ++ msgs') = minted msgs + minted msgs' := by
  simp [minted]

theorem burned_append : burned (msgs ++ msgs') = burned msgs + burned msgs' := by
  simp [burned]

end Sums

/-- What changes from `w` to `w'` when `msgs` are applied: the pool's own state does not, its
holdings and the supply of its token do by the amounts in the messages. Coins may come back to
the pool, as a recipient. -/
structure Flows (d : Deployment) (msgs : List (CosmosMsg Payload)) (w w' : World) : Prop where
  pool : w'.pool = w.pool
  coins : ∀ denom, w.bank.balance d.pool denom ≤ w'.bank.balance d.pool denom + coinsOut denom msgs
  fury : w.furyHeld d + furyIn msgs ≤ w'.furyHeld d + furyOut msgs
  supply : w'.lp.totalSupply + burned msgs = w.lp.totalSupply + minted msgs
  mint : w'.lp.mint = w.lp.mint
  unlent : w.fury.Unlent d.pool → w'.fury.Unlent d.pool

section Flows

variable {d : Deployment} {block : BlockInfo} {caller : Addr} {w w' w'' : World}
  {m : CosmosMsg Payload} {msgs : List (CosmosMsg Payload)}

theorem Flows.nil (d : Deployment) (w : World) : Flows d [] w w :=
  ⟨rfl, fun _ => le_rfl, le_rfl, rfl, rfl, id⟩

theorem Flows.cons (h : Flows d [m] w w') (h' : Flows d msgs w' w'') : Flows d (m :: msgs) w w'' where
  pool := h'.pool.trans h.pool
  coins denom := by
    have := h.coins denom
    have := h'.coins denom
    simp only [coinsOut, List.map_cons, List.map_nil, List.sum_cons, List.sum_nil] at *
    omega
  fury := by
    have := h.fury
    have := h'.fury
    simp only [furyIn, furyOut, List.map_cons, List.map_nil, List.sum_cons, List.sum_nil] at *
    omega
  supply := by
    have := h.supply
    have := h'.supply
    simp only [burned, minted, List.map_cons, List.map_nil, List.sum_cons, List.sum_nil] at *
    omega
  mint := h'.mint.trans h.mint
  unlent := h'.unlent ∘ h.unlent

/-- The effect of a call of FURY. -/
theorem applyMessage_fury {n : Cw20.ExecuteMsg}
    (h : applyMessage d block w (.wasmExecute d.fury (.cw20 n) []) = some w') :
    ∃ r, Cw20.execute d.api ⟨block, d.fury⟩ ⟨d.pool, []⟩ w.fury n = .ok (w'.fury, r) ∧
      w' = { w with fury := w'.fury } := by
  simp only [applyMessage, Bank.send, List.foldlM_nil, if_true, Option.pure_def,
    Option.bind_eq_bind, Option.bind_some, Option.bind_eq_some_iff, toOption_eq_some] at h
  obtain ⟨⟨fury, r⟩, hfury, h⟩ := h
  cases h
  exact ⟨r, hfury, rfl⟩

/-- The effect of a call of the token of the pool. -/
theorem applyMessage_lp {n : Cw20.ExecuteMsg}
    (h : applyMessage d block w (.wasmExecute d.lp (.cw20 n) []) = some w') :
    ∃ r, Cw20.execute d.api ⟨block, d.lp⟩ ⟨d.pool, []⟩ w.lp n = .ok (w'.lp, r) ∧
      w' = { w with lp := w'.lp } := by
  simp only [applyMessage, Bank.send, List.foldlM_nil, d.fury_ne_lp.symm, if_false, if_true,
    Option.pure_def, Option.bind_eq_bind, Option.bind_some, Option.bind_eq_some_iff,
    toOption_eq_some] at h
  obtain ⟨⟨lp, r⟩, hlp, h⟩ := h
  cases h
  exact ⟨r, hlp, rfl⟩

/-- The effect of a transfer of coins. -/
theorem applyMessage_pay {recipient : Addr} {coins : List Coin}
    (h : applyMessage d block w (.bankSend recipient coins) = some w') :
    ∃ bank, w.bank.send d.pool recipient coins = some bank ∧ w' = { w with bank } := by
  simp only [applyMessage, Option.pure_def, Option.bind_eq_bind, Option.bind_eq_some_iff] at h
  obtain ⟨bank, hbank, h⟩ := h
  cases h
  exact ⟨bank, hbank, rfl⟩

theorem applyMessage_bond {contract : Addr} {n : Fanfurybonding.ExecuteMsg}
    (h : applyMessage d block w (.wasmExecute contract (.bonding n) []) = some w') : w' = w := by
  simp only [applyMessage, Bank.send, List.foldlM_nil, Option.pure_def, Option.bind_eq_bind,
    Option.bind_some] at h
  split_ifs at h
  cases h
  rfl

/-- **One message** of the pool moves what it says. -/
theorem applyMessage_flows (hm : OwnMessage d caller m) (hcaller : caller ≠ d.pool)
    (h : applyMessage d block w m = some w') : Flows d [m] w w' := by
  cases hm with
  | pay recipient coins =>
    obtain ⟨bank, hbank, rfl⟩ := applyMessage_pay h
    -- coins that the pool sends to itself come back
    refine ⟨rfl, fun denom => ?_, le_rfl, rfl, rfl, id⟩
    have := Bank.send_balance hbank d.pool denom
    simp only [if_true] at this
    simp only [coinsOut, List.map_cons, List.map_nil, List.sum_cons, List.sum_nil]
    omega
  | transfer recipient n =>
    obtain ⟨r, hexec, hw⟩ := applyMessage_fury h
    obtain ⟨-, rcpt, -, hmoved, hall, -, -⟩ := executeTransfer_spec hexec
    rw [hw]
    refine ⟨rfl, fun denom => le_rfl, ?_, rfl, rfl, fun hu => hu.congr hall⟩
    have := hmoved d.pool
    simp only [if_true] at this
    simp only [World.furyHeld, furyIn, furyOut, List.map_cons, List.map_nil, List.sum_cons,
      List.sum_nil]
    omega
  | pull n =>
    obtain ⟨r, hexec, hw⟩ := applyMessage_fury h
    obtain ⟨owner, rcpt, howner, hrcpt, -, hmoved, hother, -, -⟩ := executeTransferFrom_spec hexec
    -- the addresses in the message are valid ones, so they stay as they are
    obtain rfl := d.validate_eq _ _ howner
    obtain rfl := d.validate_eq _ _ hrcpt
    rw [hw]
    refine ⟨rfl, fun denom => le_rfl, ?_, rfl, rfl, fun hu spender => ?_⟩
    · have := hmoved d.pool
      simp only [hcaller.symm, if_false, if_true] at this
      simp only [World.furyHeld, furyIn, furyOut, List.map_cons, List.map_nil, List.sum_cons,
        List.sum_nil]
      omega
    · rw [hother _ _ hcaller.symm]
      exact hu spender
  | mint recipient n =>
    obtain ⟨r, hexec, hw⟩ := applyMessage_lp h
    obtain ⟨-, hsupply, -, hmint, -, -⟩ := executeMint_spec hexec
    rw [hw]
    refine ⟨rfl, fun denom => le_rfl, le_rfl, ?_, hmint, id⟩
    simpa [burned, minted] using hsupply
  | burn owner n =>
    obtain ⟨r, hexec, hw⟩ := applyMessage_lp h
    obtain ⟨hsupply, hmint, -⟩ := executeBurnFrom_spec hexec
    rw [hw]
    refine ⟨rfl, fun denom => le_rfl, le_rfl, ?_, hmint, id⟩
    simpa [burned, minted] using hsupply
  | bond contract n =>
    -- what the bonding contract does moves neither coins nor FURY of the pool
    rw [applyMessage_bond h]
    exact ⟨rfl, fun denom => le_rfl, le_rfl, rfl, rfl, id⟩

/-- **The messages** of the pool move what they say. -/
theorem applyMessages_flows (hmsgs : ∀ m ∈ msgs, OwnMessage d caller m) (hcaller : caller ≠ d.pool)
    (h : applyMessages d block w msgs = some w') : Flows d msgs w w' := by
  induction msgs generalizing w with
  | nil =>
    cases h
    exact Flows.nil d _
  | cons m msgs ih =>
    rw [applyMessages, List.foldlM_cons, Option.bind_eq_bind, Option.bind_eq_some_iff] at h
    obtain ⟨mid, hmid, h⟩ := h
    exact (applyMessage_flows (hmsgs m (by simp)) hcaller hmid).cons
      (ih (fun n hn => hmsgs n (by simp [hn])) h)

end Flows

section Calls

variable {d : Deployment} {block : BlockInfo} {info : MessageInfo} {w w' : World}
  {resp : Response Payload}

/-- A call of the pool moves the attached coins, changes its state by the handler, and then moves
what the messages say. -/
theorem callPool_eq_some {msg : ExecuteMsg} :
    callPool d block w info msg = some (w', resp) ↔
      ∃ bank pool, w.bank.send info.sender d.pool info.funds = some bank ∧
        execute (World.querier d { w with bank }) ⟨block, d.pool⟩ info w.pool msg =
          .ok (pool, resp) ∧
        applyMessages d block { w with bank, pool } resp.messages = some w' := by
  simp only [callPool, Option.pure_def, Option.bind_eq_bind, Option.bind_eq_some_iff,
    toOption_eq_some]
  constructor
  · rintro ⟨bank, hbank, ⟨pool, r⟩, hpool, w₁, hw₁, h⟩
    cases h
    exact ⟨bank, pool, hbank, hpool, hw₁⟩
  · rintro ⟨bank, pool, hbank, hpool, hw₁⟩
    exact ⟨bank, hbank, (pool, resp), hpool, w', hw₁, rfl⟩

end Calls

/-! ## A pool with a million of each token -/

namespace Sample

/-- Contracts on a chain that accepts every address. -/
def deployment : Deployment where
  api s := .ok s
  pool := "pool"
  fury := "fury"
  lp := "lp"
  bonding := "bonding"
  validate_eq := by
    intro s a h
    cases h
    rfl
  fury_ne_lp := by decide

def block : BlockInfo := ⟨100, 1700000000000000000⟩

def config : InstantiateMsg where
  lpTokenCodeId := 1
  bondingCodeId := 2
  owner := "owner"
  treasuryAddress := "treasury"
  furyTokenAddress := "fury"
  usdcDenom := "uusd"
  lockSeconds := 604800
  discount := 50
  txFee := 1
  platformFee := 2
  dailyVestingAmount := 1000000

/-- The coins of the owner and of a trader. -/
def bank : Bank := ((∅ : Bank).insert ("owner", "uusd") 2000000).insert ("trader", "uusd") 500

/-- FURY of the owner and of the trader, lent to the pool. -/
def fury : Cw20.State where
  balances := ((∅ : Store Addr ℕ).insert "owner" 1000000).insert "trader" 100000
  allowances := ((∅ : Store (Addr × Addr) AllowanceResponse).insert ("owner", "pool")
    { allowance := 1000000 }).insert ("trader", "pool") { allowance := 100000 }
  totalSupply := 1100000

/-- The chain after the pool is instantiated. -/
def world : World := (deploy deployment block config bank fury).get (by decide +kernel)

theorem initial : Initial deployment world := by
  refine ⟨block, config, bank, fury, rfl, fun spender => ?_, (Option.some_get _).symm⟩
  rw [fury, Store.get_insert_of_ne _ _ (by simp [deployment]),
    Store.get_insert_of_ne _ _ (by simp [deployment]), Store.get_empty]

/-- The owner funds the pool. -/
def addLiquidity : Label :=
  .pool block ⟨"owner", [⟨"uusd", 1006000⟩]⟩ (.addLiquidity 1000000 0 1000000 6000 none)

/-- The chain after the deposit of the owner. -/
def funded : World := run (exec deployment) world [addLiquidity]

/-- The trader sells FURY, and names a fee of which `attached` is in the coins attached. -/
def sellFury (fee attached : ℕ) : Label :=
  .pool block ⟨"trader", if attached = 0 then [] else [⟨"uusd", attached⟩]⟩
    (.swap .token2 100000 0 fee none)

end Sample

end Fanfuryswap
