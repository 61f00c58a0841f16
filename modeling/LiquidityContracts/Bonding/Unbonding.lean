import LiquidityContracts.Bonding.Ledger

/-!
# When a holder may unbond

`BondState` tells what of the bonds of a holder is unlocked, and the fee for it. The holder may take
it out by attaching the fee, if the contract has the FURY for it. Something has to be attached in any
case, also where there is no fee: what is attached is sent on, and no coins cannot be sent.

## Main definitions

* `queryBondState`: the query
* `attached`: the amount of a denom that is attached
* `Reports`: what the query and the token answer
* `UnbondsWhen`: an unbonding is accepted under a condition, pays what is told, and keeps the rest

## Main results

* `executeUnbond_eq_ok`: when an unbonding is accepted, and what it does
* `unbondsWhen_told`: it is accepted under the condition that the query and the balance tell
* `not_unbondsWhen`: without a fee and without any coins it is refused
-/

namespace Fanfurybonding

open CosmWasm Cw20 Util

/-- `query_bond_state`: an address without bonds has an empty list. -/
def queryBondState (q : Querier) (env : Env) (st : Storage) (address : Addr) :
    Exec ContractError BondStateResponse := do
  let list := (st.bonding[address]?).getD []
  let price ← getUsdcPrice q st.config
  getBondState st.config list price env.block.time.seconds address

/-- The amount of a denom that is attached: that of its first coin, and zero where there is none. -/
def attached (denom : String) (funds : List Coin) : ℕ :=
  ((funds.find? fun coin => coin.denom = denom).map (·.amount)).getD 0

/-- An unbonding of a holder with bonds, in an enabled contract that has a balance of FURY, where
`BondState` reports a state. -/
structure Reports (c : Call) (st : Storage) (state : BondStateResponse) (balance : ℕ) : Prop where
  message : c.msg = .unbond
  enabled : st.config.enabled = true
  stored : (st.bonding[c.info.sender]?).isSome
  reported : queryBondState c.q c.env st c.info.sender = .ok state
  balance : c.q.tokenBalance st.config.furyTokenAddress c.env.contractAddress = .ok balance

/-- An unbonding succeeds exactly under a condition. Then it transfers an amount of FURY to the
holder and keeps the bonds that are locked, and otherwise it changes nothing. -/
structure UnbondsWhen (condition : Prop) (amount : ℕ) (c : Call) (st : Storage) : Prop where
  accepted : (exec st c).isSome ↔ condition
  done : ∀ st' r, exec st c = some (st', r) →
    transferred st.config.furyTokenAddress c.info.sender r.messages = amount ∧
      st' = { st with
        bonding := st.bonding.insert c.info.sender
          ((st.records c.info.sender).filter fun b => c.env.block.time.seconds < b.timestamp) }
  reverted : exec st c = none → commit exec st c = st

section Unbonding

variable {c : Call} {st st' : Storage} {r : Response Cw20.ExecuteMsg} {state : BondStateResponse}
  {balance : ℕ}

/-- Nothing attached is refused. -/
theorem getAmountOfDenom_native {denom : String} {funds : List Coin} {n : ℕ} :
    (getAmountOfDenom (.native funds) (.native denom) : Exec ContractError ℕ) = .ok n ↔
      0 < attached denom funds ∧ n = attached denom funds := by
  have hcoin : ((funds.find? fun coin => coin.denom = denom).getD
      { denom := "empty", amount := 0 }).amount = attached denom funds := by
    unfold attached
    cases funds.find? fun coin => coin.denom = denom with
    | none => rfl
    | some coin => rfl
  unfold getAmountOfDenom
  dsimp only
  rw [hcoin, refuse_bind_eq_ok, pure_eq_ok, Nat.pos_iff_ne_zero]
  exact and_congr_right fun _ => eq_comm

/-- The query tells of the bonds that an unbonding loads. -/
theorem Reports.parts (h : Reports c st state balance) : ∃ list price,
    st.bonding[c.info.sender]? = some list ∧ st.records c.info.sender = list ∧
      getUsdcPrice c.q st.config = .ok price ∧
      getBondState st.config list price c.env.block.time.seconds c.info.sender = .ok state := by
  obtain ⟨list, hlist⟩ := Option.isSome_iff_exists.mp h.stored
  obtain ⟨price, hprice, hstate⟩ := bind_eq_ok.mp h.reported
  rw [hlist] at hstate
  exact ⟨list, price, hlist, records_of_get hlist, hprice, hstate⟩

/-- **When an unbonding is accepted**, and what it does. -/
theorem executeUnbond_eq_ok (h : Reports c st state balance) :
    executeUnbond c.q c.env c.info st = .ok (st', r) ↔
      (0 < state.unbondAmount ∧ 0 < attached st.config.usdcDenom c.info.funds ∧
        state.feeAmount ≤ attached st.config.usdcDenom c.info.funds ∧
        state.unbondAmount ≤ balance) ∧
      st' = { st with
        bonding := st.bonding.insert c.info.sender
          ((st.records c.info.sender).filter fun b => c.env.block.time.seconds < b.timestamp) } ∧
      r = { messages :=
        [transferTokenMessage id (.cw20 st.config.furyTokenAddress) state.unbondAmount
            c.info.sender,
          transferTokenMessage id (.native st.config.usdcDenom)
            (attached st.config.usdcDenom c.info.funds) st.config.treasuryAddress] } := by
  obtain ⟨list, price, hlist, hrecords, hprice, hstate⟩ := h.parts
  have hload : (load "Vec<BondingRecord>" (st.bonding[c.info.sender]?) :
      Exec ContractError (List BondingRecord)) = .ok list :=
    load_eq_ok.mpr hlist
  unfold executeUnbond
  -- what the query has computed is computed again; what is left are the checks
  rw [bind_of_eq_ok (checkEnabled_eq_ok.mpr h.enabled), bind_of_eq_ok hload,
    bind_of_eq_ok hprice, bind_of_eq_ok hstate, refuse_bind_eq_ok, bind_eq_ok, hrecords]
  constructor
  · rintro ⟨hsome, usdcAmount, husdc, hchecks⟩
    obtain ⟨hattached, rfl⟩ := getAmountOfDenom_native.mp husdc
    obtain ⟨hfee, hchecks⟩ := refuse_bind_eq_ok.mp hchecks
    obtain ⟨furyBalance, hbalance, hchecks⟩ := bind_eq_ok.mp hchecks
    obtain ⟨hfury, hchecks⟩ := refuse_bind_eq_ok.mp hchecks
    cases pure_eq_ok.mp hchecks
    rw [h.balance] at hbalance
    cases liftStd_eq_ok.mp hbalance
    exact ⟨⟨Nat.pos_of_ne_zero hsome, hattached, not_lt.mp hfee, not_lt.mp hfury⟩, rfl, rfl⟩
  · rintro ⟨⟨hsome, hattached, hfee, hfury⟩, rfl, rfl⟩
    refine ⟨hsome.ne', _, getAmountOfDenom_native.mpr ⟨hattached, rfl⟩, ?_⟩
    rw [refuse_bind_of_not (not_lt.mpr hfee), bind_of_eq_ok (liftStd_eq_ok.mpr h.balance),
      refuse_bind_of_not (not_lt.mpr hfury)]
    rfl

end Unbonding

/-- **An unbonding succeeds as `BondState` tells**: if something is unlocked, the fee is attached,
which is one coin at least, and the contract has the FURY. -/
theorem unbondsWhen_told (c : Call) (st : Storage) (state : BondStateResponse) (balance : ℕ)
    (h : Reports c st state balance) :
    UnbondsWhen (0 < state.unbondAmount ∧ 0 < attached st.config.usdcDenom c.info.funds ∧
      state.feeAmount ≤ attached st.config.usdcDenom c.info.funds ∧ state.unbondAmount ≤ balance)
      state.unbondAmount c st := by
  have hexec : ∀ st' r, exec st c = some (st', r) ↔
      executeUnbond c.q c.env c.info st = .ok (st', r) := by
    intro st' r
    rw [exec_eq_some, h.message]
    rfl
  refine ⟨?_, fun st' r haccepted => ?_, commit_of_none⟩
  · rw [Option.isSome_iff_exists, Prod.exists]
    constructor
    · rintro ⟨st', r, haccepted⟩
      exact ((executeUnbond_eq_ok h).mp ((hexec st' r).mp haccepted)).1
    · intro hcondition
      exact ⟨_, _, (hexec _ _).mpr ((executeUnbond_eq_ok h).mpr ⟨hcondition, rfl, rfl⟩)⟩
  · obtain ⟨-, hst, rfl⟩ := (executeUnbond_eq_ok h).mp ((hexec st' r).mp haccepted)
    refine ⟨?_, hst⟩
    simp [transferred, transferTokenMessage]

namespace Sample

/-- A contract without fees, with a bond of alice that is unlocked in the tenth second and one that
is not. -/
def twoBonds : Storage where
  config := (instantiate (noonOf 0) tenADay).config
  bonding := (∅ : Store Addr (List BondingRecord)).insert "alice" [⟨100, 10⟩, ⟨50, 99999⟩]

/-- Alice unbonds in the tenth second. -/
def unbond (funds : List Coin) : Call where
  q := ⟨fun _ _ => .ok 0, fun _ _ => .ok 1000000, fun _ _ => .ok 100⟩
  env := ⟨⟨1, 10 * Timestamp.nanosPerSecond⟩, "bonding"⟩
  info := ⟨"alice", funds⟩
  msg := .unbond

/-- What the query tells: a hundred are unlocked, for nothing. -/
def told : BondStateResponse := ⟨"alice", [⟨100, 10⟩, ⟨50, 99999⟩], 100, 0⟩

end Sample

open Sample in
/-- With one coin attached alice gets what is unlocked. -/
theorem unbondsWhen_told_sample : (exec twoBonds (unbond [⟨"uusd", 1⟩])).isSome :=
  (unbondsWhen_told (unbond [⟨"uusd", 1⟩]) twoBonds told 100
    ⟨rfl, rfl, by decide +kernel, by decide +kernel, rfl⟩).accepted.mpr (by decide +kernel)

open Sample in
/-- **Without any coins** an unbonding is refused, though there is no fee. -/
theorem not_unbondsWhen : ¬ ∀ (c : Call) (st : Storage) (state : BondStateResponse) (balance : ℕ),
    Reports c st state balance →
      UnbondsWhen (0 < state.unbondAmount ∧
        state.feeAmount ≤ attached st.config.usdcDenom c.info.funds ∧ state.unbondAmount ≤ balance)
        state.unbondAmount c st := by
  intro h
  have haccepted := (h (unbond []) twoBonds told 100
    ⟨rfl, rfl, by decide +kernel, by decide +kernel, rfl⟩).accepted.mpr (by decide +kernel)
  exact absurd haccepted (by decide +kernel)

end Fanfurybonding
