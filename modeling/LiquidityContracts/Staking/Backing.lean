import LiquidityContracts.CosmWasm.Refinement
import LiquidityContracts.Staking.Liabilities
import LiquidityContracts.Staking.Pot
import LiquidityContracts.Token.Cw20

/-!
# What backs the stakes

On the chain the contract holds FURY: what the stakers lend it, what is deposited for the pot, and
what it has not paid. As long as no more is credited than was deposited and no claim of a reward is
accepted, this covers the stakes, the bonds and the rewards that are left to be claimed. A claim is
paid and the reward is left to be claimed again, so that it is paid out of the stakes of others.

## Main definitions

* `Deployment`, `World`: the addresses, and the state of the contract, of FURY and of the bank
* `Label`, `step`: what may happen on the chain; an increase of the pot comes with its deposit
* `Backed`: the FURY that the contract holds covers what it owes
* `Covered`: no claim of a reward, and no more credited than deposited
* `calls`: the calls of the contract that an input stands for

## Main results

* `applyMessages_fury`: the messages of a call move the FURY that they say
* `step_ledger`: what is owed, and what was deposited and not credited, is held
* `run_backed`: the stakes are backed in every covered run
* `covered_of_counted`: a run is covered that has no claims, keeps to its pots and counts its cycles
* `not_backed`: a run with a claim
-/

namespace Clubstaking

open CosmWasm

/-- The addresses of the contract and of FURY. A valid address is returned by `addr_validate` as
it is. -/
structure Deployment where
  api : Api
  staking : Addr
  fury : Addr
  validate_eq : ∀ s a, api s = .ok a → a = s

/-- The state of the contract, of the bank and of FURY. -/
structure World where
  staking : Storage
  bank : Bank
  fury : Cw20.State

/-- What the contract holds of FURY. -/
def World.furyHeld (d : Deployment) (w : World) : ℕ := w.fury.balance d.staking

section Messages

variable (d : Deployment) (block : BlockInfo)

/-- The effect of a message of the contract. -/
def applyMessage (w : World) : CosmosMsg Cw20.ExecuteMsg → Option World
  | .bankSend toAddress amount => do
    let bank ← w.bank.send d.staking toAddress amount
    return { w with bank }
  | .wasmExecute contract msg funds =>
    if contract = d.fury then do
      let bank ← w.bank.send d.staking contract funds
      let (fury, _) ←
        (Cw20.execute d.api ⟨block, d.fury⟩ ⟨d.staking, funds⟩ w.fury msg).toOption
      return { w with bank, fury }
    else none
  | .wasmInstantiate _ _ _ _ _ => none

/-- The effect of a list of messages; one that fails reverts them all. -/
def applyMessages (w : World) (msgs : List (CosmosMsg Cw20.ExecuteMsg)) : Option World :=
  msgs.foldlM (applyMessage d block) w

/-- A call as the contract receives it. -/
def asCall (q : Querier) (info : MessageInfo) (msg : ExecuteMsg) : Call :=
  ⟨q, ⟨block, d.staking⟩, info, msg⟩

/-- A call of the contract: the attached coins are moved, the handler runs, and its messages are
applied. -/
def callStaking (q : Querier) (w : World) (info : MessageInfo) (msg : ExecuteMsg) :
    Option (World × Response Cw20.ExecuteMsg) := do
  let bank ← w.bank.send info.sender d.staking info.funds
  let (staking, resp) ← exec d.api w.staking (asCall d block q info msg)
  let w ← applyMessages d block { w with staking, bank } resp.messages
  return (w, resp)

end Messages

/-- What may happen on the chain: a call of the contract, an increase of the pot with the deposit
of its amount, a call of FURY, or a transfer of coins. -/
inductive Label where
  | call (q : Querier) (block : BlockInfo) (info : MessageInfo) (msg : ExecuteMsg)
  | increase (depositor : Addr) (q : Querier) (block : BlockInfo) (info : MessageInfo)
      (rewardFrom : String) (amount : ℕ)
  | fury (block : BlockInfo) (info : MessageInfo) (msg : Cw20.ExecuteMsg)
  | bank (sender toAddress : Addr) (amount : List Coin)

/-- One thing that happens on the chain; `none` when it is reverted. The contract acts through the
messages it emits only. -/
def step (d : Deployment) (w : World) : Label → Option (World × Response Cw20.ExecuteMsg)
  | .call q block info msg =>
    if info.sender = d.staking ∨ msg.isIncrease = true then none
    else callStaking d block q w info msg
  | .increase depositor q block info rewardFrom amount =>
    if info.sender = d.staking ∨ depositor = d.staking then none
    else do
      let fury ← (w.fury.move depositor d.staking amount).toOption
      callStaking d block q { w with fury } info (.increaseRewardAmount rewardFrom amount)
  | .fury block info msg =>
    if info.sender = d.staking then none
    else do
      let (fury, _) ← (Cw20.execute d.api ⟨block, d.fury⟩ info w.fury msg).toOption
      return ({ w with fury }, {})
  | .bank sender toAddress amount =>
    if sender = d.staking then none
    else do
      let bank ← w.bank.send sender toAddress amount
      return ({ w with bank }, {})

/-- The contract has just been instantiated for FURY, at an address that has lent FURY to
nobody. -/
structure Deployed (d : Deployment) (w : World) : Prop where
  initial : Initial d.api w.staking
  fury : w.staking.config.furyTokenAddress = d.fury
  unlent : w.fury.Unlent d.staking

/-- The FURY that the contract holds covers what it owes. -/
def Backed (d : Deployment) (w : World) : Prop := w.staking.liabilities ≤ w.furyHeld d

/-- Whether an input claims the reward of a staker. -/
def Label.isClaim : Label → Bool
  | .call _ _ _ (.claimStakerRewards _ _) => true
  | _ => false

/-- What an input deposits for the pot. -/
def furyDeposited (d : Deployment) (w : World) (l : Label) : ℕ :=
  match l with
  | .increase _ _ _ _ _ amount => if (step d w l).isSome then amount else 0
  | _ => 0

/-- What an input credits to stakes. -/
def furyCredited (d : Deployment) (w : World) (l : Label) : ℕ :=
  match l with
  | .call q block info msg =>
    if (step d w l).isSome then rewardCredited d.api w.staking (asCall d block q info msg) else 0
  | _ => 0

/-- No accepted input claims a reward, and none credits more than was deposited and has not been
credited yet. -/
def Covered (d : Deployment) (w : World) (ls : List Label) : Prop :=
  Along (fun before l => (step d (run (step d) w before) l).isSome → l.isClaim = false ∧
    tally (step d) (furyCredited d) w (before ++ [l]) ≤
      tally (step d) (furyDeposited d) w (before ++ [l])) ls

instance (d : Deployment) (w : World) : Decidable (Backed d w) :=
  inferInstanceAs (Decidable (_ ≤ _))

instance (d : Deployment) (w : World) (ls : List Label) : Decidable (Covered d w ls) :=
  inferInstanceAs (Decidable (Along _ ls))

/-! ## The messages -/

section Flows

variable {d : Deployment} {block : BlockInfo} {sender : Addr} {w w' : World}
  {m : CosmosMsg Cw20.ExecuteMsg} {msgs : List (CosmosMsg Cw20.ExecuteMsg)}

/-- What the messages of a call change: the contract gains what they take in, and loses no more
than what they pay. -/
structure Moves (d : Deployment) (msgs : List (CosmosMsg Cw20.ExecuteMsg)) (w w' : World) : Prop where
  staking : w'.staking = w.staking
  unlent : w'.fury.Unlent d.staking
  fury : w.furyHeld d + furyIn d.staking msgs ≤ w'.furyHeld d + furyOut msgs

theorem applyMessage_fury (hm : OwnMessage d.fury sender m) (hsender : sender ≠ d.staking)
    (hu : w.fury.Unlent d.staking) (h : applyMessage d block w m = some w') : Moves d [m] w w' := by
  cases hm with
  | fees recipient coins =>
    simp only [applyMessage, Option.pure_def, Option.bind_eq_bind, Option.bind_eq_some_iff] at h
    obtain ⟨bank, -, h⟩ := h
    cases h
    exact ⟨rfl, hu, le_rfl⟩
  | transfer recipient n =>
    simp only [applyMessage, if_true, Option.pure_def, Option.bind_eq_bind,
      Option.bind_eq_some_iff, toOption_eq_some] at h
    obtain ⟨bank, -, ⟨fury, r⟩, hfury, h⟩ := h
    cases h
    obtain ⟨-, rcpt, -, hmoved, hall, -, -⟩ := Cw20.executeTransfer_spec hfury
    have hmoved := hmoved d.staking
    rw [if_pos rfl] at hmoved
    refine ⟨rfl, hu.congr hall, ?_⟩
    simp only [World.furyHeld, furyIn, furyOut, List.map_cons, List.map_nil, List.sum_cons,
      List.sum_nil]
    omega
  | pull recipient n =>
    simp only [applyMessage, if_true, Option.pure_def, Option.bind_eq_bind,
      Option.bind_eq_some_iff, toOption_eq_some] at h
    obtain ⟨bank, -, ⟨fury, r⟩, hfury, h⟩ := h
    cases h
    obtain ⟨owner, rcpt, howner, hrcpt, -, hmoved, hother, -, -⟩ :=
      Cw20.executeTransferFrom_spec hfury
    -- the addresses in the message are valid ones, so they stay as they are
    obtain rfl := d.validate_eq _ _ howner
    obtain rfl := d.validate_eq _ _ hrcpt
    have hmoved := hmoved d.staking
    rw [if_neg hsender.symm, Nat.add_zero] at hmoved
    refine ⟨rfl, fun spender => ?_, ?_⟩
    · rw [hother _ _ hsender.symm]
      exact hu spender
    · simp only [World.furyHeld, furyIn, furyOut, List.map_cons, List.map_nil, List.sum_cons,
        List.sum_nil, Nat.add_zero]
      rw [hmoved]
      exact le_of_eq (congrArg _ (if_congr eq_comm rfl rfl))

/-- **The messages of a call** move the FURY that they say. -/
theorem applyMessages_fury (hm : ∀ m ∈ msgs, OwnMessage d.fury sender m)
    (hsender : sender ≠ d.staking) (hu : w.fury.Unlent d.staking)
    (h : applyMessages d block w msgs = some w') : Moves d msgs w w' := by
  induction msgs generalizing w with
  | nil =>
    cases h
    exact ⟨rfl, hu, le_rfl⟩
  | cons m msgs ih =>
    rw [applyMessages, List.foldlM_cons, Option.bind_eq_bind, Option.bind_eq_some_iff] at h
    obtain ⟨mid, hmid, h⟩ := h
    have hfirst := applyMessage_fury (hm m List.mem_cons_self) hsender hu hmid
    have hrest := ih (fun m hm' => hm m (List.mem_cons_of_mem _ hm')) hfirst.unlent h
    refine ⟨hrest.staking.trans hfirst.staking, hrest.unlent, ?_⟩
    have hin := hfirst.fury
    have hout := hrest.fury
    simp only [furyIn, furyOut, List.map_cons, List.map_nil, List.sum_cons, List.sum_nil]
      at hin hout ⊢
    omega

end Flows

/-! ## The ledger -/

/-- The contract holds what it owes, and what was deposited and has not been credited. -/
structure Ledger (d : Deployment) (deposits credits : ℕ) (w : World) : Prop where
  tidy : Tidy w.staking.staking
  owners : NoOwnerRewards w.staking
  fury : w.staking.config.furyTokenAddress = d.fury
  unlent : w.fury.Unlent d.staking
  balance : w.staking.liabilities + deposits ≤ w.furyHeld d + credits

section Steps

variable {d : Deployment} {block : BlockInfo} {q : Querier} {info : MessageInfo} {w w' : World}
  {l : Label} {deposits credits : ℕ} {msg : ExecuteMsg} {r : Response Cw20.ExecuteMsg}

theorem callStaking_eq_some : callStaking d block q w info msg = some (w', r) ↔
    ∃ bank staking, w.bank.send info.sender d.staking info.funds = some bank ∧
      exec d.api w.staking (asCall d block q info msg) = some (staking, r) ∧
      applyMessages d block { w with staking, bank } r.messages = some w' := by
  simp only [callStaking, Option.pure_def, Option.bind_eq_bind, Option.bind_eq_some_iff]
  constructor
  · rintro ⟨bank, hbank, ⟨staking, r₁⟩, hexec, w₁, hmsgs, h⟩
    cases h
    exact ⟨bank, staking, hbank, hexec, hmsgs⟩
  · rintro ⟨bank, staking, hbank, hexec, hmsgs⟩
    exact ⟨bank, hbank, (staking, r), hexec, w', hmsgs, rfl⟩

/-- **A call** that is no claim of a reward keeps the ledger. -/
theorem callStaking_ledger (hl : Ledger d deposits credits w) (hsender : info.sender ≠ d.staking)
    (hclaim : ∀ staker clubName, msg ≠ .claimStakerRewards staker clubName)
    (h : callStaking d block q w info msg = some (w', r)) :
    Ledger d deposits
      (credits + rewardCredited d.api w.staking (asCall d block q info msg)) w' := by
  obtain ⟨bank, staking, -, hexec, hmsgs⟩ := callStaking_eq_some.mp h
  -- what the call says is owed against what its messages move
  have hsettles := exec_settles hl.tidy hl.owners hexec hclaim
  have hown := hsettles.messages
  rw [hl.fury] at hown
  have hunlent : { w with staking, bank }.fury.Unlent d.staking := hl.unlent
  have hmoves := applyMessages_fury hown hsender hunlent hmsgs
  have hbalance := hsettles.balance
  have hheld := hmoves.fury
  have hledger := hl.balance
  refine ⟨?_, ?_, ?_, hmoves.unlent, ?_⟩
  · rw [hmoves.staking]
    exact exec_tidy hl.tidy hexec
  · rw [hmoves.staking]
    exact execute_noOwnerRewards hl.owners (exec_eq_some.mp hexec)
  · rw [hmoves.staking]
    exact (exec_config hexec ▸ hl.fury :)
  · rw [hmoves.staking]
    simp only [World.furyHeld, asCall] at hheld hbalance hledger ⊢
    omega

/-- **One step** keeps the ledger, if it is no claim of a reward. -/
theorem step_ledger (hl : Ledger d deposits credits w) (hclaim : l.isClaim = false)
    (h : step d w l = some (w', r)) :
    Ledger d (deposits + furyDeposited d w l) (credits + furyCredited d w l) w' := by
  have haccepted : (step d w l).isSome = true := by
    rw [h]
    rfl
  cases l with
  | call q block info msg =>
    simp only [furyDeposited, furyCredited, if_pos haccepted, Nat.add_zero]
    simp only [step] at h
    split at h
    · cases h
    · rename_i hsender
      refine callStaking_ledger hl (fun hs => hsender (.inl hs)) ?_ h
      rintro staker clubName rfl
      cases hclaim
  | increase depositor q block info rewardFrom amount =>
    simp only [furyDeposited, furyCredited, if_pos haccepted, Nat.add_zero]
    simp only [step] at h
    split at h
    · cases h
    · rename_i hsender
      simp only [Option.bind_eq_bind, Option.bind_eq_some_iff, toOption_eq_some] at h
      obtain ⟨fury, hfury, h⟩ := h
      obtain ⟨hmoved, hall, -, -⟩ := Cw20.State.move_spec hfury
      have hheld := hmoved d.staking
      rw [if_neg fun hs => hsender (.inr hs.symm), if_pos rfl, Nat.add_zero] at hheld
      -- the depositor pays first, and the message that reports it moves nothing
      have hdeposited : Ledger d (deposits + amount) credits { w with fury } := by
        refine ⟨hl.tidy, hl.owners, hl.fury, hl.unlent.congr hall, ?_⟩
        have hledger := hl.balance
        simp only [World.furyHeld] at hledger ⊢
        omega
      have hcall := callStaking_ledger hdeposited (fun hs => hsender (.inl hs))
        (fun _ _ hc => by cases hc) h
      have hnone : rewardCredited d.api w.staking
          (asCall d block q info (.increaseRewardAmount rewardFrom amount)) = 0 :=
        rewardCredited_of_not_batch fun _ _ _ _ hc => by cases hc
      rwa [hnone, Nat.add_zero] at hcall
  | fury block info msg =>
    simp only [step] at h
    split at h
    · cases h
    · rename_i hsender
      simp only [Option.pure_def, Option.bind_eq_bind, Option.bind_eq_some_iff,
        toOption_eq_some] at h
      obtain ⟨⟨fury, r₁⟩, hfury, h⟩ := h
      cases h
      -- somebody else cannot take FURY of the contract, which has lent none
      obtain ⟨hunlent, hheld⟩ := Cw20.execute_unlent hfury (Ne.symm hsender) hl.unlent
      exact ⟨hl.tidy, hl.owners, hl.fury, hunlent,
        hl.balance.trans (Nat.add_le_add_right hheld _)⟩
  | bank sender toAddress amount =>
    simp only [step] at h
    split at h
    · cases h
    · simp only [Option.pure_def, Option.bind_eq_bind, Option.bind_eq_some_iff] at h
      obtain ⟨bank, -, h⟩ := h
      cases h
      exact ⟨hl.tidy, hl.owners, hl.fury, hl.unlent, hl.balance⟩

/-- An input that is reverted neither deposits nor credits. -/
theorem fury_of_none (h : step d w l = none) : furyDeposited d w l = 0 ∧ furyCredited d w l = 0 := by
  unfold furyDeposited furyCredited
  rw [h]
  cases l with
  | _ => exact ⟨rfl, rfl⟩

/-- A contract that has just been instantiated owes nothing. -/
theorem Deployed.ledger (hd : Deployed d w) : Ledger d 0 0 w := by
  obtain ⟨config, next, heq⟩ := hd.initial.eq
  refine ⟨?_, ?_, hd.fury, hd.unlent, ?_⟩
  · rw [heq]
    exact tidy_empty
  · rw [heq]
    refine ⟨fun c owner howner => ?_, rfl⟩
    rw [Store.get_empty] at howner
    cases howner
  · rw [heq, Storage.liabilities, owedIn, bondedIn, Store.total_empty, Store.total_empty]
    exact Nat.zero_le _

/-- Along a covered run the ledger is kept, and no more is credited than deposited. -/
theorem run_ledger (hd : Deployed d w) {ls : List Label} (h : Covered d w ls) :
    Ledger d (tally (step d) (furyDeposited d) w ls) (tally (step d) (furyCredited d) w ls)
        (run (step d) w ls) ∧
      tally (step d) (furyCredited d) w ls ≤ tally (step d) (furyDeposited d) w ls := by
  induction ls using List.reverseRecOn with
  | nil => exact ⟨hd.ledger, le_rfl⟩
  | append_singleton ls l ih =>
    obtain ⟨hbefore, hlast⟩ := along_snoc.mp h
    obtain ⟨hledger, hle⟩ := ih hbefore
    rcases commit_cases (step d) (run (step d) w ls) l with ⟨r, hr⟩ | ⟨hnone, hs⟩
    · obtain ⟨hclaim, hcovered⟩ := hlast (by rw [hr]; rfl)
      refine ⟨?_, hcovered⟩
      rw [tally_snoc, tally_snoc, run_snoc]
      exact step_ledger hledger hclaim hr
    · obtain ⟨hdeposited, hcredited⟩ := fury_of_none hnone
      rw [tally_snoc, tally_snoc, run_snoc, hs, hdeposited, hcredited]
      exact ⟨hledger, hle⟩

end Steps

/-- **The stakes are backed** in every run, from instantiation on, in which no claim of a reward is
accepted and no more is credited than was deposited: the FURY of the contract covers all stakes,
bonds and rewards that are left to be claimed. -/
theorem run_backed (d : Deployment) (w : World) (ls : List Label) (hd : Deployed d w)
    (h : Covered d w ls) : Backed d (run (step d) w ls) := by
  obtain ⟨hledger, hle⟩ := run_ledger hd h
  have hbalance := hledger.balance
  unfold Backed
  omega

/-! ## The calls of a run -/

section Calls

variable {d : Deployment} {block : BlockInfo} {w w' : World} {l : Label} {ls : List Label}

/-- The calls of the contract that an input stands for: one, if it is accepted, or none. -/
def calls (d : Deployment) (w : World) (l : Label) : List Call :=
  if (step d w l).isSome then
    match l with
    | .call q block info msg => [asCall d block q info msg]
    | .increase _ q block info rewardFrom amount =>
      [asCall d block q info (.increaseRewardAmount rewardFrom amount)]
    | .fury _ _ _ => []
    | .bank _ _ _ => []
  else []

/-- The calls of the contract in a run of the chain. -/
def callsOf (d : Deployment) (w : World) (ls : List Label) : List Call :=
  trace (step d) (calls d) w ls

theorem applyMessage_staking {m : CosmosMsg Cw20.ExecuteMsg}
    (h : applyMessage d block w m = some w') : w'.staking = w.staking := by
  cases m with
  | bankSend toAddress amount =>
    simp only [applyMessage, Option.pure_def, Option.bind_eq_bind, Option.bind_eq_some_iff] at h
    obtain ⟨bank, -, h⟩ := h
    cases h
    rfl
  | wasmExecute contract msg funds =>
    simp only [applyMessage, Option.pure_def, Option.bind_eq_bind] at h
    split at h
    · simp only [Option.bind_eq_some_iff] at h
      obtain ⟨bank, -, x, -, h⟩ := h
      cases h
      rfl
    · cases h
  | wasmInstantiate _ _ _ _ _ => cases h

/-- The messages of the contract do not call it. -/
theorem applyMessages_staking {msgs : List (CosmosMsg Cw20.ExecuteMsg)}
    (h : applyMessages d block w msgs = some w') : w'.staking = w.staking := by
  induction msgs generalizing w with
  | nil =>
    cases h
    rfl
  | cons m msgs ih =>
    rw [applyMessages, List.foldlM_cons, Option.bind_eq_bind, Option.bind_eq_some_iff] at h
    obtain ⟨mid, hmid, h⟩ := h
    exact (ih h).trans (applyMessage_staking hmid)

/-- A call does to the contract what its handler does. -/
theorem run_asCall {q : Querier} {info : MessageInfo} {msg : ExecuteMsg}
    {r : Response Cw20.ExecuteMsg} (h : callStaking d block q w info msg = some (w', r)) :
    (exec d.api w.staking (asCall d block q info msg)).isSome ∧
      run (exec d.api) w.staking [asCall d block q info msg] = w'.staking := by
  obtain ⟨bank, staking, -, hexec, hmsgs⟩ := callStaking_eq_some.mp h
  refine ⟨Option.isSome_of_eq_some hexec, ?_⟩
  rw [applyMessages_staking hmsgs, run_cons, commit_of_some hexec, run_nil]

/-- What an accepted input does to the contract is done by the call that it stands for, which fills
the pot and credits what the input does. -/
theorem step_calls {r : Response Cw20.ExecuteMsg} (h : step d w l = some (w', r)) :
    run (exec d.api) w.staking (calls d w l) = w'.staking ∧
      tally (exec d.api) (deposited d.api) w.staking (calls d w l) = furyDeposited d w l ∧
      tally (exec d.api) (rewardCredited d.api) w.staking (calls d w l) = furyCredited d w l := by
  have haccepted : (step d w l).isSome = true := Option.isSome_of_eq_some h
  cases l with
  | call q block info msg =>
    simp only [calls, furyDeposited, furyCredited, if_pos haccepted]
    simp only [step] at h
    split at h
    · cases h
    · rename_i hsender
      have hincrease : msg.isIncrease = false := Bool.eq_false_iff.mpr fun hi => hsender (.inr hi)
      rw [tally_singleton, tally_singleton]
      exact ⟨(run_asCall h).2, deposited_of_not_increase hincrease, rfl⟩
  | increase depositor q block info rewardFrom amount =>
    simp only [calls, furyDeposited, furyCredited, if_pos haccepted]
    simp only [step] at h
    split at h
    · cases h
    · simp only [Option.bind_eq_bind, Option.bind_eq_some_iff] at h
      obtain ⟨fury, -, h⟩ := h
      -- the deposit moves FURY, and leaves the contract as it was
      obtain ⟨hexec, hrun⟩ := run_asCall h
      rw [tally_singleton, tally_singleton]
      exact ⟨hrun, if_pos hexec, rewardCredited_of_not_batch fun _ _ _ _ hc => by cases hc⟩
  | fury block info msg =>
    simp only [calls, furyDeposited, furyCredited, if_pos haccepted]
    simp only [step] at h
    split at h
    · cases h
    · simp only [Option.pure_def, Option.bind_eq_bind, Option.bind_eq_some_iff] at h
      obtain ⟨x, -, h⟩ := h
      cases h
      exact ⟨rfl, rfl, rfl⟩
  | bank sender toAddress amount =>
    simp only [calls, furyDeposited, furyCredited, if_pos haccepted]
    simp only [step] at h
    split at h
    · cases h
    · simp only [Option.pure_def, Option.bind_eq_bind, Option.bind_eq_some_iff] at h
      obtain ⟨bank, -, h⟩ := h
      cases h
      exact ⟨rfl, rfl, rfl⟩

/-- What an input does, accepted or not, is done by the calls that it stands for. -/
theorem commit_calls (d : Deployment) (w : World) (l : Label) :
    run (exec d.api) w.staking (calls d w l) = (commit (step d) w l).staking ∧
      tally (exec d.api) (deposited d.api) w.staking (calls d w l) = furyDeposited d w l ∧
      tally (exec d.api) (rewardCredited d.api) w.staking (calls d w l) = furyCredited d w l := by
  rcases commit_cases (step d) w l with ⟨r, h⟩ | ⟨hnone, hs⟩
  · exact step_calls h
  -- an input that is reverted stands for no call
  · obtain ⟨hdeposited, hcredited⟩ := fury_of_none hnone
    have hcalls : calls d w l = [] := by
      unfold calls
      rw [hnone]
      rfl
    rw [hs, hcalls, hdeposited, hcredited]
    exact ⟨rfl, rfl, rfl⟩

/-- The contract goes through the calls of a run of the chain, which credit what the run does. -/
theorem tally_callsOf (d : Deployment) (w : World) (ls : List Label) :
    tally (exec d.api) (deposited d.api) w.staking (callsOf d w ls) =
        tally (step d) (furyDeposited d) w ls ∧
      tally (exec d.api) (rewardCredited d.api) w.staking (callsOf d w ls) =
        tally (step d) (furyCredited d) w ls := by
  have hstep := fun x (_ : x ∈ history (step d) w ls) => (commit_calls d x.1 x.2).1
  exact ⟨tally_trace (g := World.staking) hstep fun x _ => (commit_calls d x.1 x.2).2.1,
    tally_trace (g := World.staking) hstep fun x _ => (commit_calls d x.1 x.2).2.2⟩

/-- **A run is covered** when no claim of a reward is accepted, no call credits more with its cycle
than is in the pot, and every cycle is counted. -/
theorem covered_of_counted (hd : Deployed d w)
    (hclaim : ∀ x ∈ history (step d) w ls, (step d x.1 x.2).isSome → x.2.isClaim = false)
    (hkeeps : KeepsPots d.api w.staking (callsOf d w ls))
    (hcounted : Counted d.api w.staking (callsOf d w ls)) : Covered d w ls := by
  refine along_iff.mpr ?_
  rintro before l after rfl haccepted
  refine ⟨hclaim _ (mem_history_append w before l after) haccepted, ?_⟩
  rw [List.append_cons, callsOf, trace_append] at hkeeps hcounted
  obtain ⟨hdeposited, hcredited⟩ := tally_callsOf d w (before ++ [l])
  rw [← hdeposited, ← hcredited]
  exact credited_le_deposited hd.initial (along_append.mp hkeeps).1 (along_append.mp hcounted).1

end Calls

namespace Sample

/-- The contract on a chain that accepts every address. -/
def deployment : Deployment where
  api := api
  staking := "staking"
  fury := "fury"
  validate_eq := by
    intro s a h
    cases h
    rfl

/-- The chain after the contract is instantiated. Alice has lent it the FURY that she stakes. -/
def world : World where
  staking := storage
  bank := ((∅ : Bank).insert ("admin", "usdc") 10000).insert ("alice", "usdc") 10000
  fury :=
    { balances := ((∅ : Store Addr ℕ).insert "admin" 10000).insert "alice" 500
      allowances := (∅ : Store (Addr × Addr) Cw20.AllowanceResponse).insert ("alice", "staking")
        { allowance := 500 }
      totalSupply := 10500 }

theorem deployed : Deployed deployment world := by
  refine ⟨initial, by decide +kernel, fun spender => ?_⟩
  rw [world, Store.get_insert_of_ne _ _ (by simp [deployment]), Store.get_empty]

/-- A call of the contract, as an input of the chain. -/
def onChain (c : Call) : Label := .call c.q c.env.block c.info c.msg

/-- A club is opened, the pot is filled, Alice stakes, and a cycle credits her. -/
def aliceCredited : List Label := [
  onChain (call 1 "admin" (.assignAClub "owner" none "club" false)),
  .increase "admin" querier ⟨1, second 1⟩ ⟨"admin", []⟩ "admin" 10000,
  onChain (stake 2 "alice" 500 false),
  onChain (call 101 "admin" (.calculateAndDistributeRewards ["alice"] "club" true true))]

end Sample

open Sample in
/-- The reward of Alice is backed, and so is her stake. -/
theorem run_backed_sample :
    (run (step deployment) world aliceCredited).staking.liabilities = 10200 ∧
      Backed deployment (run (step deployment) world aliceCredited) :=
  ⟨by decide +kernel,
    run_backed deployment world aliceCredited deployed (by decide +kernel)⟩

open Sample in
/-- **A claim is paid out of the stakes**: the contract owes Alice her reward again, and holds no
more than it has not credited. -/
theorem not_backed :
    ¬ ∀ (d : Deployment) (w : World) (ls : List Label), Deployed d w →
      Backed d (run (step d) w ls) := by
  intro h
  exact absurd (h deployment world (aliceCredited ++ [onChain (claim 102 "alice")]) deployed)
    (by decide +kernel)

end Clubstaking
