import LiquidityContracts.Bonding.Ledger
import LiquidityContracts.CosmWasm.Refinement
import LiquidityContracts.Gaming.Refund
import LiquidityContracts.Staking.Backing
import LiquidityContracts.Swap.Tokens

/-!
# The contracts on one chain

The pool, its bonding contract, the gaming pool and the staking of clubs live on one chain, with
one bank, FURY and the token of the pool. Whatever one of them emits takes effect in the others: the
pool has bonds recorded, the gaming pool has its coins swapped, and all of them pay in FURY and in
coins. Anyone outside may call any contract at any time.

A step of the chain is, for each contract, some calls that this contract receives. So a run of the
chain is a run of each contract, and what holds of all runs of one holds on the chain.

## Main definitions

* `Deployment`, `World`: the addresses of the contracts, and the state of the chain
* `Label`, `step`: what may happen on the chain
* `Events`: what a step is for each of the contracts
* `Deployed`: the chain on which the contracts have just been instantiated

## Main results

* `run_chain`: a run is a run of the pool with its tokens and the bank
* `run_gaming`, `run_bonding`, `run_staking`: a run is a run of each other contract
-/

namespace Fanfury

open CosmWasm

/-- The addresses of the contracts, which are different ones. -/
structure Deployment extends Gamingpool.Deployment where
  staking : Addr
  nodup : [swap.pool, gaming, swap.bonding, staking, swap.fury, swap.lp].Nodup

/-- The contracts of the chain. -/
def Deployment.contracts (d : Deployment) : List Addr :=
  [d.swap.pool, d.gaming, d.swap.bonding, d.staking, d.swap.fury, d.swap.lp]

/-- The state of the pool with the bank and the tokens, and of the other contracts. -/
structure World where
  chain : Fanfuryswap.World
  gaming : Gamingpool.Storage
  bonding : Fanfurybonding.Storage
  staking : Clubstaking.Storage

/-- The part of the chain that the gaming pool deals with. -/
def World.swapped (w : World) : Gamingpool.World := ⟨w.gaming, w.chain⟩

/-- What happens to each contract, in order. -/
structure Events where
  chain : List Fanfuryswap.Label := []
  gaming : List Gamingpool.Label := []
  bonding : List Fanfurybonding.Call := []
  staking : List Clubstaking.Call := []

/-- What may happen on the chain: a call of one of the contracts from outside, or what may happen
without the last three. -/
inductive Label where
  | chain (l : Fanfuryswap.Label)
  | gaming (block : BlockInfo) (info : MessageInfo) (msg : Gamingpool.ExecuteMsg)
  | bonding (block : BlockInfo) (info : MessageInfo) (msg : Fanfurybonding.ExecuteMsg)
  | staking (block : BlockInfo) (info : MessageInfo) (msg : Clubstaking.ExecuteMsg)
  deriving DecidableEq, Repr

/-- Who makes a call. -/
def Label.sender : Label → Addr
  | .chain l => l.sender
  | .gaming _ info _ => info.sender
  | .bonding _ info _ => info.sender
  | .staking _ info _ => info.sender

/-- Who acts in a call: the contract that is called, or whoever calls. -/
def Label.actor (d : Deployment) : Label → Addr
  | .chain l => l.sender
  | .gaming _ _ _ => d.gaming
  | .bonding _ _ _ => d.swap.bonding
  | .staking _ _ _ => d.staking

section Step

variable (d : Deployment) (block : BlockInfo)

/-- The answers of the pool and of FURY to the bonding contract. -/
def bondingQuerier (chain : Fanfuryswap.World) : Fanfurybonding.Querier where
  token1ForToken2Price := (Gamingpool.querier d.toDeployment chain).token1ForToken2Price
  token2ForToken1Price := (Gamingpool.querier d.toDeployment chain).token2ForToken1Price
  tokenBalance := (Gamingpool.querier d.toDeployment chain).tokenBalance

/-- The answers of the pool to the staking of clubs. -/
def stakingQuerier (chain : Fanfuryswap.World) : Clubstaking.Querier where
  token2ForToken1Price := (Gamingpool.querier d.toDeployment chain).token2ForToken1Price

/-- The bond that a message of the pool has recorded. -/
def asBond (chain : Fanfuryswap.World) :
    CosmosMsg Fanfuryswap.Payload → Option Fanfurybonding.Call
  | .wasmExecute contract (.bonding msg) funds =>
    if contract = d.swap.bonding then
      some ⟨bondingQuerier d chain, ⟨block, contract⟩, ⟨d.swap.pool, funds⟩, msg⟩
    else none
  | _ => none

/-- The bonds that the pool has recorded when something happens. They are the last messages of a
call, so that they find the chain as the call leaves it. -/
def bonds (chain : Fanfuryswap.World) (l : Fanfuryswap.Label)
    (r : Response Fanfuryswap.Payload) : List Fanfurybonding.Call :=
  match l with
  | .pool block _ _ => r.messages.filterMap (asBond d block chain)
  | _ => []

/-- A message of a contract to FURY or to the bank, as what happens on the chain. -/
def asLabel (contract : Addr) : CosmosMsg Cw20.ExecuteMsg → Option Fanfuryswap.Label
  | .bankSend toAddress amount => some (.bank contract toAddress amount)
  | .wasmExecute token msg funds =>
    if token = d.swap.fury ∧ funds = [] then some (.fury block ⟨contract, funds⟩ msg) else none
  | .wasmInstantiate _ _ _ _ _ => none

/-- The coins that come with a call, as what happens on the chain. -/
def attach (contract : Addr) (info : MessageInfo) : Fanfuryswap.Label :=
  .bank info.sender contract info.funds

/-- A call of the bonding contract: the attached coins are moved, the handler runs, and its messages
are applied. -/
def callBonding (w : World) (info : MessageInfo) (msg : Fanfurybonding.ExecuteMsg) :
    Option (World × Events) := do
  let paid := attach d.swap.bonding info
  let chain ← acceptAll (Fanfuryswap.exec d.swap) w.chain [paid]
  let c : Fanfurybonding.Call := ⟨bondingQuerier d chain, ⟨block, d.swap.bonding⟩, info, msg⟩
  let (bonding, r) ← Fanfurybonding.exec w.bonding c
  let labels ← r.messages.mapM (asLabel d block d.swap.bonding)
  let chain ← acceptAll (Fanfuryswap.exec d.swap) chain labels
  return ({ w with chain, bonding },
    { chain := paid :: labels, gaming := (paid :: labels).map .chain, bonding := [c] })

/-- A call of the staking of clubs. -/
def callStaking (w : World) (info : MessageInfo) (msg : Clubstaking.ExecuteMsg) :
    Option (World × Events) := do
  let paid := attach d.staking info
  let chain ← acceptAll (Fanfuryswap.exec d.swap) w.chain [paid]
  let c : Clubstaking.Call := ⟨stakingQuerier d chain, ⟨block, d.staking⟩, info, msg⟩
  let (staking, r) ← Clubstaking.exec d.swap.api w.staking c
  let labels ← r.messages.mapM (asLabel d block d.staking)
  let chain ← acceptAll (Fanfuryswap.exec d.swap) chain labels
  return ({ w with chain, staking },
    { chain := paid :: labels, gaming := (paid :: labels).map .chain, staking := [c] })

end Step

/-- One thing that happens on the chain; `none` when it is reverted. The contracts act through the
messages they emit only. -/
def step (d : Deployment) (w : World) (l : Label) : Option (World × Events) :=
  if l.sender ∈ d.contracts then none
  else match l with
    | .chain l => do
      let (chain, r) ← Fanfuryswap.exec d.swap w.chain l
      let calls := bonds d chain l r
      let bonding ← acceptAll Fanfurybonding.exec w.bonding calls
      return ({ w with chain, bonding }, { chain := [l], gaming := [.chain l], bonding := calls })
    | .gaming block info msg => do
      let (g, r) ← Gamingpool.callGaming d.toDeployment block w.swapped info msg
      return ({ w with chain := g.chain, gaming := g.gaming },
        { chain := attach d.gaming info ::
            r.emitted.filterMap (Gamingpool.asLabel d.toDeployment block)
          gaming := [.gaming block info msg] })
    | .bonding block info msg => callBonding d block w info msg
    | .staking block info msg => callStaking d block w info msg

/-- What happens to each contract when something happens on the chain: nothing when it is
reverted. -/
def events (d : Deployment) (w : World) (l : Label) : Events := ((step d w l).map Prod.snd).getD {}

/-! ## Deployment -/

/-- The contracts have just been instantiated: the gaming pool to deal with the pool, in the coin of
the pool, and the staking of clubs for FURY, of which neither it nor the bonding contract has lent
any. -/
structure Deployed (d : Deployment) (w : World) : Prop where
  gaming : Gamingpool.Deployed d.toDeployment w.swapped
  coin : w.gaming.config.usdcIbcSymbol = w.chain.pool.config.usdcDenom
  bonding : ∃ env, w.bonding =
    Fanfurybonding.instantiate env (Fanfuryswap.newBonding d.swap.pool w.chain.pool.config)
  staking : Clubstaking.Initial d.swap.api w.staking
  token : w.staking.config.furyTokenAddress = d.swap.fury
  unlent : ∀ a ∈ [d.swap.bonding, d.staking], w.chain.fury.Unlent a
  conserved : Cw20.Conserved w.chain.fury

/-! ## What a step is for each contract -/

section Steps

variable {d : Deployment} {block : BlockInfo} {info : MessageInfo} {w w' : World} {l : Label}
  {e : Events}

theorem Deployment.ne (d : Deployment) : d.gaming ≠ d.swap.pool ∧ d.swap.bonding ≠ d.swap.pool ∧
    d.staking ≠ d.swap.pool ∧ d.swap.bonding ≠ d.gaming ∧ d.staking ≠ d.gaming ∧
    d.staking ≠ d.swap.bonding := by
  have hnodup := d.nodup
  simp only [List.nodup_cons, List.mem_cons, not_or] at hnodup
  obtain ⟨⟨h₁, h₂, h₃, -⟩, ⟨h₄, h₅, -⟩, ⟨h₆, -⟩, -⟩ := hnodup
  exact ⟨Ne.symm h₁, Ne.symm h₂, Ne.symm h₃, Ne.symm h₄, Ne.symm h₅, Ne.symm h₆⟩

/-- Coins are attached by whoever has them. -/
theorem exec_attach {chain : Fanfuryswap.World} {bank : Bank} {contract : Addr}
    (hsender : info.sender ≠ d.swap.pool)
    (h : chain.bank.send info.sender contract info.funds = some bank) :
    Fanfuryswap.exec d.swap chain (attach contract info) = some ({ chain with bank }, {}) := by
  have hne : (attach contract info).sender ≠ d.swap.pool := hsender
  unfold Fanfuryswap.exec
  rw [if_neg hne]
  simp only [attach, h, Option.bind_eq_bind, Option.bind_some, Option.pure_def]

/-- Only the bank sees the coins attached. -/
theorem attach_eq_some {chain paid : Fanfuryswap.World} {contract : Addr}
    (h : acceptAll (Fanfuryswap.exec d.swap) chain [attach contract info] = some paid) :
    ∃ bank, chain.bank.send info.sender contract info.funds = some bank ∧
      paid = { chain with bank } := by
  obtain ⟨mid, r, hexec, hpaid⟩ := acceptAll_cons.mp h
  cases hpaid
  unfold Fanfuryswap.exec at hexec
  split at hexec
  · cases hexec
  · simp only [attach, Option.pure_def, Option.bind_eq_bind, Option.bind_eq_some_iff] at hexec
    obtain ⟨bank, hbank, hexec⟩ := hexec
    cases hexec
    exact ⟨bank, hbank, rfl⟩

theorem applyMessages_accepts {chain chain' : Fanfuryswap.World}
    {msgs : List (CosmosMsg Gamingpool.Payload)}
    (h : Gamingpool.applyMessages d.toDeployment block chain msgs = some chain') :
    acceptAll (Fanfuryswap.exec d.swap) chain
      (msgs.filterMap (Gamingpool.asLabel d.toDeployment block)) = some chain' := by
  induction msgs generalizing chain with
  | nil => exact h
  | cons m msgs ih =>
    rw [Gamingpool.applyMessages, List.foldlM_cons, Option.bind_eq_bind,
      Option.bind_eq_some_iff] at h
    obtain ⟨mid, hmid, h⟩ := h
    obtain ⟨l, r, hl, hexec⟩ := Gamingpool.applyMessage_eq_some.mp hmid
    rw [List.filterMap_cons, hl]
    exact acceptAll_cons.mpr ⟨mid, r, hexec, ih h⟩

theorem applySubmessages_accepts {g g' : Gamingpool.World}
    {subs : List (ℕ × CosmosMsg Gamingpool.Payload)}
    (h : subs.foldlM (Gamingpool.applySubmessage d.toDeployment block) g = some g') :
    acceptAll (Fanfuryswap.exec d.swap) g.chain
      ((subs.map Prod.snd).filterMap (Gamingpool.asLabel d.toDeployment block)) =
        some g'.chain := by
  induction subs generalizing g with
  | nil =>
    cases h
    rfl
  | cons m subs ih =>
    rw [List.foldlM_cons, Option.bind_eq_bind, Option.bind_eq_some_iff] at h
    obtain ⟨mid, hmid, h⟩ := h
    simp only [Gamingpool.applySubmessage, Option.pure_def, Option.bind_eq_bind,
      Option.bind_eq_some_iff] at hmid
    obtain ⟨chain, hchain, ⟨gaming, r₁⟩, -, hmid⟩ := hmid
    cases hmid
    obtain ⟨l, r, hl, hexec⟩ := Gamingpool.applyMessage_eq_some.mp hchain
    rw [List.map_cons, List.filterMap_cons, hl]
    exact acceptAll_cons.mpr ⟨chain, r, hexec, ih h⟩

/-- **A call of the gaming pool** is what it emits, after the coins that come with it. -/
theorem callGaming_accepts {g g' : Gamingpool.World} {msg : Gamingpool.ExecuteMsg}
    {r : Response Gamingpool.Payload} (hsender : info.sender ≠ d.swap.pool)
    (h : Gamingpool.callGaming d.toDeployment block g info msg = some (g', r)) :
    acceptAll (Fanfuryswap.exec d.swap) g.chain (attach d.gaming info ::
      r.emitted.filterMap (Gamingpool.asLabel d.toDeployment block)) = some g'.chain := by
  obtain ⟨bank, gaming, chain, hbank, -, hmsgs, hsub⟩ := Gamingpool.callGaming_eq_some.mp h
  rw [acceptAll_cons, Response.emitted, List.filterMap_append]
  refine ⟨_, _, exec_attach hsender hbank, acceptAll_append.mpr ⟨chain, ?_, ?_⟩⟩
  · exact applyMessages_accepts hmsgs
  · exact applySubmessages_accepts hsub

/-- What may happen, by the contract that is called. -/
inductive Step (d : Deployment) (w : World) : Label → World → Events → Prop
  | chain (l : Fanfuryswap.Label) (chain : Fanfuryswap.World) (r : Response Fanfuryswap.Payload)
      (bonding : Fanfurybonding.Storage) (hsender : l.sender ∉ d.contracts)
      (hexec : Fanfuryswap.exec d.swap w.chain l = some (chain, r))
      (hbonds : acceptAll Fanfurybonding.exec w.bonding (bonds d chain l r) = some bonding) :
    Step d w (.chain l) { w with chain, bonding }
      { chain := [l], gaming := [.chain l], bonding := bonds d chain l r }
  | gaming (block : BlockInfo) (info : MessageInfo) (msg : Gamingpool.ExecuteMsg)
      (g : Gamingpool.World) (r : Response Gamingpool.Payload)
      (hsender : info.sender ∉ d.contracts)
      (hcall : Gamingpool.callGaming d.toDeployment block w.swapped info msg = some (g, r)) :
    Step d w (.gaming block info msg) { w with chain := g.chain, gaming := g.gaming }
      { chain := attach d.gaming info ::
          r.emitted.filterMap (Gamingpool.asLabel d.toDeployment block)
        gaming := [.gaming block info msg] }
  | bonding (block : BlockInfo) (info : MessageInfo) (msg : Fanfurybonding.ExecuteMsg)
      (paid chain : Fanfuryswap.World) (bonding : Fanfurybonding.Storage)
      (r : Response Cw20.ExecuteMsg) (labels : List Fanfuryswap.Label)
      (hsender : info.sender ∉ d.contracts)
      (hpaid : acceptAll (Fanfuryswap.exec d.swap) w.chain [attach d.swap.bonding info] = some paid)
      (hexec : Fanfurybonding.exec w.bonding
        ⟨bondingQuerier d paid, ⟨block, d.swap.bonding⟩, info, msg⟩ = some (bonding, r))
      (hlabels : r.messages.mapM (asLabel d block d.swap.bonding) = some labels)
      (hchain : acceptAll (Fanfuryswap.exec d.swap) paid labels = some chain) :
    Step d w (.bonding block info msg) { w with chain, bonding }
      { chain := attach d.swap.bonding info :: labels
        gaming := (attach d.swap.bonding info :: labels).map .chain
        bonding := [⟨bondingQuerier d paid, ⟨block, d.swap.bonding⟩, info, msg⟩] }
  | staking (block : BlockInfo) (info : MessageInfo) (msg : Clubstaking.ExecuteMsg)
      (paid chain : Fanfuryswap.World) (staking : Clubstaking.Storage)
      (r : Response Cw20.ExecuteMsg) (labels : List Fanfuryswap.Label)
      (hsender : info.sender ∉ d.contracts)
      (hpaid : acceptAll (Fanfuryswap.exec d.swap) w.chain [attach d.staking info] = some paid)
      (hexec : Clubstaking.exec d.swap.api w.staking
        ⟨stakingQuerier d paid, ⟨block, d.staking⟩, info, msg⟩ = some (staking, r))
      (hlabels : r.messages.mapM (asLabel d block d.staking) = some labels)
      (hchain : acceptAll (Fanfuryswap.exec d.swap) paid labels = some chain) :
    Step d w (.staking block info msg) { w with chain, staking }
      { chain := attach d.staking info :: labels
        gaming := (attach d.staking info :: labels).map .chain
        staking := [⟨stakingQuerier d paid, ⟨block, d.staking⟩, info, msg⟩] }

/-- **One step** is a call of one of the contracts from outside. -/
theorem step_cases (h : step d w l = some (w', e)) : Step d w l w' e := by
  unfold step at h
  split_ifs at h with hsender
  cases l with
  | chain l =>
    simp only [Option.pure_def, Option.bind_eq_bind, Option.bind_eq_some_iff] at h
    obtain ⟨⟨chain, r⟩, hexec, bonding, hbonds, h⟩ := h
    cases h
    exact .chain l chain r bonding hsender hexec hbonds
  | gaming block info msg =>
    simp only [Option.pure_def, Option.bind_eq_bind, Option.bind_eq_some_iff] at h
    obtain ⟨⟨g, r⟩, hcall, h⟩ := h
    cases h
    exact .gaming block info msg g r hsender hcall
  | bonding block info msg =>
    simp only [callBonding, Option.pure_def, Option.bind_eq_bind, Option.bind_eq_some_iff] at h
    obtain ⟨paid, hpaid, ⟨bonding, r⟩, hexec, labels, hlabels, chain, hchain, h⟩ := h
    cases h
    exact .bonding block info msg paid chain bonding r labels hsender hpaid hexec hlabels hchain
  | staking block info msg =>
    simp only [callStaking, Option.pure_def, Option.bind_eq_bind, Option.bind_eq_some_iff] at h
    obtain ⟨paid, hpaid, ⟨staking, r⟩, hexec, labels, hlabels, chain, hchain, h⟩ := h
    cases h
    exact .staking block info msg paid chain staking r labels hsender hpaid hexec hlabels hchain

theorem Step.sender (h : Step d w l w' e) : l.sender ∉ d.contracts := by
  cases h with
  | chain _ _ _ _ hsender => exact hsender
  | gaming _ _ _ _ _ hsender => exact hsender
  | bonding _ _ _ _ _ _ _ _ hsender => exact hsender
  | staking _ _ _ _ _ _ _ _ hsender => exact hsender

theorem Deployment.ne_of_not_mem {a : Addr} (h : a ∉ d.contracts) :
    a ≠ d.swap.pool ∧ a ≠ d.gaming ∧ a ≠ d.swap.bonding ∧ a ≠ d.staking := by
  simp only [Deployment.contracts, List.mem_cons, not_or] at h
  exact ⟨h.1, h.2.1, h.2.2.1, h.2.2.2.1⟩

/-- What a step is for the pool, its tokens and the bank. -/
theorem Step.accepts_chain (h : Step d w l w' e) :
    acceptAll (Fanfuryswap.exec d.swap) w.chain e.chain = some w'.chain := by
  cases h with
  | chain l chain r bonding hsender hexec hbonds =>
    exact acceptAll_cons.mpr ⟨chain, r, hexec, acceptAll_nil _⟩
  | gaming block info msg g r hsender hcall =>
    exact callGaming_accepts (Deployment.ne_of_not_mem hsender).1 hcall
  | bonding block info msg paid chain bonding r labels hsender hpaid hexec hlabels hchain =>
    exact acceptAll_append.mpr ⟨paid, hpaid, hchain⟩
  | staking block info msg paid chain staking r labels hsender hpaid hexec hlabels hchain =>
    exact acceptAll_append.mpr ⟨paid, hpaid, hchain⟩

/-- What a step is for the bonding contract. -/
theorem Step.accepts_bonding (h : Step d w l w' e) :
    acceptAll Fanfurybonding.exec w.bonding e.bonding = some w'.bonding := by
  cases h with
  | chain l chain r bonding hsender hexec hbonds => exact hbonds
  | gaming => exact acceptAll_nil _
  | bonding block info msg paid chain bonding r labels hsender hpaid hexec hlabels hchain =>
    exact acceptAll_cons.mpr ⟨bonding, r, hexec, acceptAll_nil _⟩
  | staking => exact acceptAll_nil _

/-- What a step is for the staking of clubs. -/
theorem Step.accepts_staking (h : Step d w l w' e) :
    acceptAll (Clubstaking.exec d.swap.api) w.staking e.staking = some w'.staking := by
  cases h with
  | chain => exact acceptAll_nil _
  | gaming => exact acceptAll_nil _
  | bonding => exact acceptAll_nil _
  | staking block info msg paid chain staking r labels hsender hpaid hexec hlabels hchain =>
    exact acceptAll_cons.mpr ⟨staking, r, hexec, acceptAll_nil _⟩

/-- What others do on the pool's chain, the gaming pool sees done. -/
theorem accepts_gaming {gaming : Gamingpool.Storage} {chain chain' : Fanfuryswap.World}
    {labels : List Fanfuryswap.Label}
    (h : acceptAll (Fanfuryswap.exec d.swap) chain labels = some chain')
    (hsender : ∀ l ∈ labels, l.sender ≠ d.gaming) :
    acceptAll (Gamingpool.step d.toDeployment) ⟨gaming, chain⟩ (labels.map .chain) =
      some ⟨gaming, chain'⟩ := by
  induction labels generalizing chain with
  | nil =>
    cases h
    rfl
  | cons l labels ih =>
    obtain ⟨mid, r, hexec, h⟩ := acceptAll_cons.mp h
    have hstep : Gamingpool.step d.toDeployment ⟨gaming, chain⟩ (.chain l) =
        some (⟨gaming, mid⟩, {}) := by
      simp only [Gamingpool.step, if_neg (hsender l List.mem_cons_self), hexec]
      rfl
    exact acceptAll_cons.mpr
      ⟨_, _, hstep, ih h fun l' hl' => hsender l' (List.mem_cons_of_mem _ hl')⟩

theorem asLabel_sender {contract : Addr} {m : CosmosMsg Cw20.ExecuteMsg} {l : Fanfuryswap.Label}
    (h : asLabel d block contract m = some l) : l.sender = contract := by
  unfold asLabel at h
  split at h
  · cases h
    rfl
  · split_ifs at h
    cases h
    rfl
  · cases h

/-- The messages of a contract are sent by it. -/
theorem sender_of_labels {contract : Addr} {msgs : List (CosmosMsg Cw20.ExecuteMsg)}
    {labels : List Fanfuryswap.Label} (h : msgs.mapM (asLabel d block contract) = some labels) :
    ∀ l ∈ labels, l.sender = contract := by
  intro l hl
  obtain ⟨m, -, hm⟩ := exists_of_mapM h hl
  exact asLabel_sender hm

theorem gaming_asLabel_sender {m : CosmosMsg Gamingpool.Payload} {l : Fanfuryswap.Label}
    (h : Gamingpool.asLabel d.toDeployment block m = some l) : l.sender = d.gaming := by
  unfold Gamingpool.asLabel at h
  split at h
  · cases h
    rfl
  · split_ifs at h
    cases h
    rfl
  · split_ifs at h
    cases h
    rfl
  · cases h

/-- What a step is for the pool is done by whoever makes the call or by the contract called. -/
theorem Step.senders (h : Step d w l w' e) :
    ∀ l' ∈ e.chain, l'.sender = l.sender ∨ l'.sender = l.actor d := by
  intro l' hl'
  cases h with
  | chain l chain r bonding hsender hexec hbonds =>
    rw [List.mem_singleton.mp hl']
    exact .inl rfl
  | gaming block info msg g r hsender hcall =>
    rcases List.mem_cons.mp hl' with rfl | hl'
    · exact .inl rfl
    · obtain ⟨m, -, hm⟩ := List.mem_filterMap.mp hl'
      exact .inr (gaming_asLabel_sender hm)
  | bonding block info msg paid chain bonding r labels hsender hpaid hexec hlabels hchain =>
    rcases List.mem_cons.mp hl' with rfl | hl'
    · exact .inl rfl
    · exact .inr (sender_of_labels hlabels l' hl')
  | staking block info msg paid chain staking r labels hsender hpaid hexec hlabels hchain =>
    rcases List.mem_cons.mp hl' with rfl | hl'
    · exact .inl rfl
    · exact .inr (sender_of_labels hlabels l' hl')

/-- **Nobody loses what others do not take**: who has lent nothing of a token and neither makes a
call nor is called loses none of it. -/
theorem Step.unlent (h : Step d w l w' e) (hw : Fanfuryswap.Wired d.swap w.chain)
    {t : Fanfuryswap.Ledger} {a : Addr} (hpool : a ≠ d.swap.pool) (hsender : l.sender ≠ a)
    (hactor : l.actor d ≠ a) (hu : (w.chain.ledger t).Unlent a) :
    (w'.chain.ledger t).Unlent a ∧
      (w.chain.ledger t).balance a ≤ (w'.chain.ledger t).balance a := by
  obtain ⟨hrun, -⟩ := run_of_acceptAll h.accepts_chain
  rw [← hrun]
  refine (run_invariant (I := fun c : Fanfuryswap.World => Fanfuryswap.Wired d.swap c ∧
      (c.ledger t).Unlent a ∧ (w.chain.ledger t).balance a ≤ (c.ledger t).balance a)
    (P := fun _ l' => l'.sender ≠ a) ?_ ⟨hw, hu, le_rfl⟩ fun x hx => ?_).2
  · rintro c l' c' r ⟨hc, hlent, hle⟩ hne hexec
    obtain ⟨hlent', hle'⟩ := Fanfuryswap.exec_unlent hc hpool hne hlent hexec
    exact ⟨Fanfuryswap.exec_wired hc hexec, hlent', hle.trans hle'⟩
  · rcases h.senders x.2 (label_mem hx) with hx | hx
    · rw [hx]
      exact hsender
    · rw [hx]
      exact hactor

/-- What a step is for the gaming pool, with the pool that it deals with. -/
theorem Step.accepts_gaming (h : Step d w l w' e) :
    acceptAll (Gamingpool.step d.toDeployment) w.swapped e.gaming = some w'.swapped := by
  obtain ⟨-, -, -, hbonding, hstaking, -⟩ := d.ne
  obtain ⟨hpool, hgaming, -⟩ := Deployment.ne_of_not_mem h.sender
  have haccepts := h.accepts_chain
  cases h with
  | chain l chain r bonding hsender hexec hbonds =>
    exact Fanfury.accepts_gaming haccepts fun l' hl' => List.mem_singleton.mp hl' ▸ hgaming
  | gaming block info msg g r hsender hcall =>
    have hstep : Gamingpool.step d.toDeployment w.swapped (.gaming block info msg) =
        some (g, r) := by
      have houtside : ¬ (info.sender = d.gaming ∨ info.sender = d.swap.pool) :=
        not_or.mpr ⟨hgaming, hpool⟩
      simp only [Gamingpool.step]
      rw [if_neg houtside]
      exact hcall
    exact acceptAll_cons.mpr ⟨g, r, hstep, acceptAll_nil _⟩
  | bonding block info msg paid chain bonding r labels hsender hpaid hexec hlabels hchain =>
    refine Fanfury.accepts_gaming haccepts fun l hl => ?_
    rcases List.mem_cons.mp hl with rfl | hl
    · exact hgaming
    · rw [sender_of_labels hlabels l hl]
      exact hbonding
  | staking block info msg paid chain staking r labels hsender hpaid hexec hlabels hchain =>
    refine Fanfury.accepts_gaming haccepts fun l hl => ?_
    rcases List.mem_cons.mp hl with rfl | hl
    · exact hgaming
    · rw [sender_of_labels hlabels l hl]
      exact hstaking

end Steps

/-! ## Runs -/

section Runs

variable (d : Deployment) (w : World)

theorem step_events {w w' : World} {l : Label} {e : Events} (h : step d w l = some (w', e)) :
    events d w l = e := by
  rw [events, h]
  rfl

section Parts

variable {τ ℓ' ρ' : Type} {exec' : τ → ℓ' → Option (τ × ρ')} {g : World → τ} {f : Events → List ℓ'}
  (hf : f {} = [])
  (hstep : ∀ w l w' e, Step d w l w' e → acceptAll exec' (g w) (f e) = some (g w'))

include hf hstep

/-- What a step does to a part of the chain is what its events for this part do. -/
theorem commit_events (l : Label) :
    run exec' (g w) (f (events d w l)) = g (commit (step d) w l) := by
  rcases commit_cases (step d) w l with ⟨e, he⟩ | ⟨hnone, hs⟩
  · rw [step_events d he]
    exact (run_of_acceptAll (hstep _ _ _ _ (step_cases he))).1
  · rw [hs, events, hnone]
    exact congrArg (run exec' (g w)) hf

/-- A part of the chain runs through the events of a run for it. -/
theorem run_events (ls : List Label) :
    run exec' (g w) (trace (step d) (fun w l => f (events d w l)) w ls) =
      g (run (step d) w ls) :=
  run_trace fun x _ => commit_events d x.1 hf hstep x.2

/-- What happens to a part of the chain in a run happens in one of its accepted steps. -/
theorem history_events {ls : List Label} {y : τ × ℓ'}
    (h : y ∈ history exec' (g w) (trace (step d) (fun w l => f (events d w l)) w ls)) :
    ∃ x ∈ history (step d) w ls, ∃ w' e, step d x.1 x.2 = some (w', e) ∧
      y ∈ history exec' (g x.1) (f e) := by
  obtain ⟨x, hx, hy⟩ := history_trace (fun x _ => commit_events d x.1 hf hstep x.2) h
  refine ⟨x, hx, ?_⟩
  rcases commit_cases (step d) x.1 x.2 with ⟨e, he⟩ | ⟨hnone, -⟩
  · rw [step_events d he] at hy
    exact ⟨_, e, he, hy⟩
  · rw [events, hnone, Option.map_none, Option.getD_none, hf] at hy
    cases hy

end Parts

/-- **A run of the chain is a run of the pool** with its tokens and the bank. -/
theorem run_chain (ls : List Label) :
    run (Fanfuryswap.exec d.swap) w.chain
        (trace (step d) (fun w l => (events d w l).chain) w ls) = (run (step d) w ls).chain :=
  run_events d w (g := World.chain) (f := Events.chain) rfl (fun _ _ _ _ h => h.accepts_chain) ls

/-- **A run of the chain is a run of the gaming pool**, with the pool that it deals with. -/
theorem run_gaming (ls : List Label) :
    run (Gamingpool.step d.toDeployment) w.swapped
        (trace (step d) (fun w l => (events d w l).gaming) w ls) = (run (step d) w ls).swapped :=
  run_events d w (g := World.swapped) (f := Events.gaming) rfl
    (fun _ _ _ _ h => h.accepts_gaming) ls

/-- **A run of the chain is a run of the bonding contract.** -/
theorem run_bonding (ls : List Label) :
    run Fanfurybonding.exec w.bonding
        (trace (step d) (fun w l => (events d w l).bonding) w ls) = (run (step d) w ls).bonding :=
  run_events d w (g := World.bonding) (f := Events.bonding) rfl
    (fun _ _ _ _ h => h.accepts_bonding) ls

/-- **A run of the chain is a run of the staking of clubs.** -/
theorem run_staking (ls : List Label) :
    run (Clubstaking.exec d.swap.api) w.staking
        (trace (step d) (fun w l => (events d w l).staking) w ls) = (run (step d) w ls).staking :=
  run_events d w (g := World.staking) (f := Events.staking) rfl
    (fun _ _ _ _ h => h.accepts_staking) ls

/-- The pool is connected to its tokens in every run. -/
theorem run_chain_wired {d : Deployment} {w : World} (h : Deployed d w) (ls : List Label) :
    Fanfuryswap.Wired d.swap (run (step d) w ls).chain := by
  rw [← run_chain]
  exact Fanfuryswap.run_wired h.gaming.chain.wired.1 _

end Runs

/-! ## A chain with all contracts -/

namespace Sample

/-- The addresses of the contracts. -/
def deployment : Deployment where
  toDeployment := Gamingpool.Sample.deployment
  staking := "staking"
  nodup := by decide

/-- The staking of clubs takes its fees in the coin of the pool. -/
def stakingMsg : Clubstaking.InstantiateMsg :=
  { Clubstaking.Sample.instantiateMsg with usdcIbcSymbol := "uusd" }

def staking : Clubstaking.Storage :=
  (Clubstaking.instantiate Clubstaking.Sample.api ⟨Fanfuryswap.Sample.block, "staking"⟩
    stakingMsg).toOption.get (by decide +kernel)

/-- The chain after all contracts are instantiated. -/
def world : World where
  chain := Fanfuryswap.Sample.world
  gaming := Gamingpool.Sample.storage
  bonding := Fanfurybonding.instantiate ⟨Fanfuryswap.Sample.block, "bonding"⟩
    (Fanfuryswap.newBonding "pool" Fanfuryswap.Sample.world.pool.config)
  staking := staking

theorem deployed : Deployed deployment world where
  gaming := Gamingpool.Sample.deployed
  coin := by decide +kernel
  bonding := ⟨_, rfl⟩
  staking := by
    have h : (Clubstaking.instantiate Clubstaking.Sample.api ⟨Fanfuryswap.Sample.block, "staking"⟩
        stakingMsg).toOption = some staking := (Option.some_get _).symm
    exact ⟨_, _, toOption_eq_some.mp h⟩
  token := by decide +kernel
  unlent := by
    intro a ha spender
    have hne : a ≠ "owner" ∧ a ≠ "trader" := by
      simp only [List.mem_cons, List.not_mem_nil, or_false] at ha
      rcases ha with rfl | rfl <;> decide
    show Fanfuryswap.Sample.fury.allowances[(a, spender)]? = none
    rw [Fanfuryswap.Sample.fury, Store.get_insert_of_ne _ _ (by simp [Ne.symm hne.2]),
      Store.get_insert_of_ne _ _ (by simp [Ne.symm hne.1]), Store.get_empty]
  conserved := ⟨by decide +kernel, by decide +kernel⟩

end Sample

end Fanfury
