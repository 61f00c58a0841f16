import LiquidityContracts.Gaming.Effect
import LiquidityContracts.Swap.Effect

/-!
# The gaming pool on the chain of the pool

The messages that the gaming pool emits are calls of the pool, of FURY and of the bank in its own
name. So whatever the gaming pool does on the chain is a run of the pool's chain, in which the
gaming pool is one more participant, and what holds of all these runs holds with the gaming pool
as well.

## Main definitions

* `Deployment`, `World`: the addresses of the contracts, and the state of the chain
* `World.querier`: the answers of the pool and of FURY to the gaming pool
* `callGaming`: a call of the gaming pool with everything it emits
* `Label`, `step`: what may happen on the chain
* `Wired`: the gaming pool deals with the pool, which is connected to its tokens
* `Kept`: what stays so on the chain, whatever happens on it

## Main results

* `step_kept`, `run_kept`: the gaming pool keeps what the chain keeps
* `run_wired`: the contracts stay connected in every run
-/

namespace Gamingpool

open CosmWasm

/-- The addresses of the gaming pool and of the contracts around the pool. -/
structure Deployment where
  swap : Fanfuryswap.Deployment
  gaming : Addr
  gaming_ne_pool : gaming ≠ swap.pool

/-- The state of the gaming pool, and of the chain it deals with. -/
structure World where
  gaming : Storage
  chain : Fanfuryswap.World

/-- The answer to a query; one that panics fails. -/
def answer {α : Type} : Exec StdError α → Except StdError α
  | .ok a => .ok a
  | .error (.err e) => .error e
  | .error .panic => .error (.genericErr "panic")

/-- The answers of the pool and of FURY to the queries of the gaming pool. -/
def querier (d : Deployment) (chain : Fanfuryswap.World) : Querier where
  token1ForToken2Price contract amount :=
    if contract = d.swap.pool then
      answer (Fanfuryswap.queryToken1ForToken2Price chain.pool amount)
    else .error (.notFound contract)
  token2ForToken1Price contract amount :=
    if contract = d.swap.pool then
      answer (Fanfuryswap.queryToken2ForToken1Price chain.pool amount)
    else .error (.notFound contract)
  swapConfig contract :=
    if contract = d.swap.pool then .ok ⟨chain.pool.config.txFee, chain.pool.config.platformFee⟩
    else .error (.notFound contract)
  tokenBalance := (chain.querier d.swap).tokenBalance

theorem answer_eq_ok {α : Type} {x : Exec StdError α} {a : α} :
    answer x = .ok a ↔ x = .ok a := by
  cases x with
  | ok b => exact ⟨fun h => by cases h; rfl, fun h => by cases h; rfl⟩
  | error e =>
    cases e with
    | err e => exact ⟨nofun, nofun⟩
    | panic => exact ⟨nofun, nofun⟩

section Messages

variable (d : Deployment) (block : BlockInfo)

/-- A message as what happens on the chain of the pool, when it is to one of its contracts. -/
def asLabel : CosmosMsg Payload → Option Fanfuryswap.Label
  | .bankSend toAddress amount => some (.bank d.gaming toAddress amount)
  | .wasmExecute contract (.cw20 msg) funds =>
    if contract = d.swap.fury ∧ funds = [] then some (.fury block ⟨d.gaming, funds⟩ msg) else none
  | .wasmExecute contract (.fanfuryswap msg) funds =>
    if contract = d.swap.pool then some (.pool block ⟨d.gaming, funds⟩ msg) else none
  | .wasmInstantiate _ _ _ _ _ => none

/-- The effect of a message of the gaming pool. -/
def applyMessage (chain : Fanfuryswap.World) (m : CosmosMsg Payload) :
    Option Fanfuryswap.World := do
  let l ← asLabel d block m
  let (chain, _) ← Fanfuryswap.exec d.swap chain l
  return chain

/-- The effect of a list of messages; one that fails reverts them all. -/
def applyMessages (chain : Fanfuryswap.World) (msgs : List (CosmosMsg Payload)) :
    Option Fanfuryswap.World :=
  msgs.foldlM (applyMessage d block) chain

/-- The effect of a message that is replied to when it succeeds. -/
def applySubmessage (w : World) (m : ℕ × CosmosMsg Payload) : Option World := do
  let chain ← applyMessage d block w.chain m.2
  let (gaming, _) ← (reply (querier d chain) ⟨block, d.gaming⟩ w.gaming m.1).toOption
  return { gaming, chain }

/-- A call of the gaming pool: the attached coins are moved, the handler runs, and its messages
are applied. -/
def callGaming (w : World) (info : MessageInfo) (msg : ExecuteMsg) :
    Option (World × Response Payload) := do
  let bank ← w.chain.bank.send info.sender d.gaming info.funds
  let chain := { w.chain with bank }
  let (gaming, resp) ←
    (execute d.swap.api (querier d chain) ⟨block, d.gaming⟩ info w.gaming msg).toOption
  let chain ← applyMessages d block chain resp.messages
  let w ← resp.submessages.foldlM (applySubmessage d block) { gaming, chain }
  return (w, resp)

end Messages

/-- What may happen on the chain: a call of the gaming pool, or what may happen without it. -/
inductive Label where
  | gaming (block : BlockInfo) (info : MessageInfo) (msg : ExecuteMsg)
  | chain (l : Fanfuryswap.Label)
  deriving DecidableEq, Repr

/-- One thing that happens on the chain; `none` when it is reverted. The two contracts act through
the messages they emit only. -/
def step (d : Deployment) (w : World) : Label → Option (World × Response Payload)
  | .gaming block info msg =>
    if info.sender = d.gaming ∨ info.sender = d.swap.pool then none
    else callGaming d block w info msg
  | .chain l => do
    if l.sender = d.gaming then none
    let (chain, _) ← Fanfuryswap.exec d.swap w.chain l
    return ({ w with chain }, {})

/-- The gaming pool has just been instantiated to deal with the pool, on a chain on which the pool
has. -/
structure Deployed (d : Deployment) (w : World) : Prop where
  gaming : Initial d.swap.api w.gaming
  pool : w.gaming.config.poolAddress = d.swap.pool
  chain : Fanfuryswap.Initial d.swap w.chain

/-- What is said of the chain stays so, whatever happens on it and whoever pays for it. -/
structure Kept (d : Deployment) (I : Fanfuryswap.World → Prop) : Prop where
  bank : ∀ chain bank, I chain → I { chain with bank }
  exec : ∀ chain l chain' r, I chain → Fanfuryswap.exec d.swap chain l = some (chain', r) → I chain'

/-- The gaming pool deals with the pool, which is connected to its tokens. -/
structure Wired (d : Deployment) (w : World) : Prop where
  pool : w.gaming.config.poolAddress = d.swap.pool
  chain : Fanfuryswap.Wired d.swap w.chain

section Steps

variable {d : Deployment} {block : BlockInfo} {info : MessageInfo} {w w' : World} {l : Label}
  {chain chain' : Fanfuryswap.World} {m : CosmosMsg Payload} {msgs : List (CosmosMsg Payload)}
  {msg : ExecuteMsg} {r : Response Payload}

theorem applyMessage_eq_some : applyMessage d block chain m = some chain' ↔
    ∃ l r, asLabel d block m = some l ∧ Fanfuryswap.exec d.swap chain l = some (chain', r) := by
  simp only [applyMessage, Option.pure_def, Option.bind_eq_bind, Option.bind_eq_some_iff]
  constructor
  · rintro ⟨l, hl, ⟨c, r⟩, hexec, h⟩
    cases h
    exact ⟨l, r, hl, hexec⟩
  · rintro ⟨l, r, hl, hexec⟩
    exact ⟨l, hl, (chain', r), hexec, rfl⟩

/-- A call of the gaming pool succeeds exactly when each of its parts does. -/
theorem callGaming_eq_some :
    callGaming d block w info msg = some (w', r) ↔
      ∃ bank gaming chain, w.chain.bank.send info.sender d.gaming info.funds = some bank ∧
        execute d.swap.api (querier d { w.chain with bank }) ⟨block, d.gaming⟩ info w.gaming msg =
          .ok (gaming, r) ∧
        applyMessages d block { w.chain with bank } r.messages = some chain ∧
        r.submessages.foldlM (applySubmessage d block) { gaming, chain } = some w' := by
  simp only [callGaming, Option.pure_def, Option.bind_eq_bind, Option.bind_eq_some_iff,
    toOption_eq_some]
  constructor
  · rintro ⟨bank, hbank, ⟨gaming, r₁⟩, hexec, chain, hmsgs, w₁, hsub, h⟩
    cases h
    exact ⟨bank, gaming, chain, hbank, hexec, hmsgs, hsub⟩
  · rintro ⟨bank, gaming, chain, hbank, hexec, hmsgs, hsub⟩
    exact ⟨bank, hbank, (gaming, r), hexec, chain, hmsgs, w', hsub, rfl⟩

/-! ### What the chain keeps -/

section Kept

variable {I : Fanfuryswap.World → Prop}

theorem applyMessage_kept (hI : Kept d I) (h₀ : I chain)
    (h : applyMessage d block chain m = some chain') : I chain' := by
  obtain ⟨l, r, -, hexec⟩ := applyMessage_eq_some.mp h
  exact hI.exec chain l chain' r h₀ hexec

/-- **The messages of the gaming pool** keep what the chain keeps. -/
theorem applyMessages_kept (hI : Kept d I) (h₀ : I chain)
    (h : applyMessages d block chain msgs = some chain') : I chain' := by
  induction msgs generalizing chain with
  | nil =>
    cases h
    exact h₀
  | cons m msgs ih =>
    rw [applyMessages, List.foldlM_cons, Option.bind_eq_bind, Option.bind_eq_some_iff] at h
    obtain ⟨mid, hmid, h⟩ := h
    exact ih (applyMessage_kept hI h₀ hmid) h

theorem applySubmessage_kept {sub : ℕ × CosmosMsg Payload} (hI : Kept d I) (h₀ : I w.chain)
    (h : applySubmessage d block w sub = some w') :
    I w'.chain ∧ w'.gaming.config = w.gaming.config := by
  simp only [applySubmessage, Option.pure_def, Option.bind_eq_bind, Option.bind_eq_some_iff,
    toOption_eq_some] at h
  obtain ⟨chain, hchain, ⟨gaming, r⟩, hreply, h⟩ := h
  cases h
  refine ⟨applyMessage_kept hI h₀ hchain, ?_⟩
  obtain ⟨details, hgaming⟩ := reply_spec hreply
  show gaming.config = w.gaming.config
  rw [hgaming]

theorem applySubmessages_kept {subs : List (ℕ × CosmosMsg Payload)} (hI : Kept d I)
    (h₀ : I w.chain) (h : subs.foldlM (applySubmessage d block) w = some w') :
    I w'.chain ∧ w'.gaming.config = w.gaming.config := by
  induction subs generalizing w with
  | nil =>
    cases h
    exact ⟨h₀, rfl⟩
  | cons sub subs ih =>
    rw [List.foldlM_cons, Option.bind_eq_bind, Option.bind_eq_some_iff] at h
    obtain ⟨mid, hmid, h⟩ := h
    obtain ⟨hchain, hconfig⟩ := applySubmessage_kept hI h₀ hmid
    obtain ⟨hchain', hconfig'⟩ := ih hchain h
    exact ⟨hchain', hconfig'.trans hconfig⟩

/-- **One step** keeps what the chain keeps, and the configuration of the gaming pool. -/
theorem step_kept (hI : Kept d I) (h₀ : I w.chain) (h : step d w l = some (w', r)) :
    I w'.chain ∧ w'.gaming.config = w.gaming.config := by
  cases l with
  | gaming block info msg =>
    simp only [step] at h
    split at h
    · cases h
    -- the funds are moved, then the messages and the replies take their turns
    · obtain ⟨bank, gaming, chain, -, hexec, hmsgs, hsub⟩ := callGaming_eq_some.mp h
      have hchain := applyMessages_kept hI (hI.bank w.chain bank h₀) hmsgs
      obtain ⟨hchain', hconfig⟩ := applySubmessages_kept hI hchain hsub
      exact ⟨hchain', hconfig.trans (execute_effect hexec).config⟩
  | chain l =>
    simp only [step] at h
    split at h
    · cases h
    · simp only [Option.pure_def, Option.bind_eq_bind, Option.bind_eq_some_iff] at h
      obtain ⟨⟨chain, r₁⟩, hexec, h⟩ := h
      cases h
      exact ⟨hI.exec w.chain l chain r₁ h₀ hexec, rfl⟩

/-- **In every run** what the chain keeps is kept, and so is the configuration. -/
theorem run_kept (hI : Kept d I) (h₀ : I w.chain) (ls : List Label) :
    I (run (step d) w ls).chain ∧ (run (step d) w ls).gaming.config = w.gaming.config := by
  refine run_preserves
    (I := fun w' : World => I w'.chain ∧ w'.gaming.config = w.gaming.config) ?_ ⟨h₀, rfl⟩ ls
  rintro w₁ l w₂ r ⟨hchain, hconfig⟩ hstep
  obtain ⟨hchain', hconfig'⟩ := step_kept hI hchain hstep
  exact ⟨hchain', hconfig'.trans hconfig⟩

end Kept

variable (d) in
/-- The chain keeps the pool connected to its tokens, of which it trades one native coin. -/
theorem kept_wired (denom : String) : Kept d fun chain =>
    Fanfuryswap.Wired d.swap chain ∧ chain.pool.config.usdcDenom = denom where
  bank _ _ h := ⟨⟨h.1.pool, h.1.minter, h.1.unlent⟩, h.2⟩
  exec _ _ _ _ h hexec :=
    ⟨Fanfuryswap.exec_wired h.1 hexec, (Fanfuryswap.exec_usdcDenom h.1 hexec).trans h.2⟩

/-- **The contracts stay connected** in every run. -/
theorem run_wired (h : Deployed d w) (ls : List Label) : Wired d (run (step d) w ls) := by
  obtain ⟨⟨hchain, -⟩, hconfig⟩ := run_kept (kept_wired d _) ⟨h.chain.wired.1, rfl⟩ ls
  refine ⟨?_, hchain⟩
  rw [hconfig]
  exact h.pool

/-- The pool trades one native coin in every run. -/
theorem run_usdcDenom (h : Deployed d w) (ls : List Label) :
    (run (step d) w ls).chain.pool.config.usdcDenom = w.chain.pool.config.usdcDenom :=
  (run_kept (kept_wired d _) ⟨h.chain.wired.1, rfl⟩ ls).1.2

theorem run_config (h : Deployed d w) (ls : List Label) :
    (run (step d) w ls).gaming.config = w.gaming.config :=
  (run_kept (kept_wired d _) ⟨h.chain.wired.1, rfl⟩ ls).2

end Steps

end Gamingpool
