import LiquidityContracts.Token.Allowances
import LiquidityContracts.Token.Refinement

/-!
# What a holder of the token relies on

What holds of the ledger in every run holds of the contract, which refines it: the balances sum up to
the supply, which stays below the cap, and messages are accepted exactly when they are permitted;
spenders take no more than what they are granted, and an owner loses no more than what it sends
itself, has lent and grants.

## Main results

* `run_accepts`: the balances sum up to the supply, and what is permitted is accepted
* `run_supply_le`: the supply stays below the cap, and does not grow once nobody may mint
* `run_granted`: what is granted is spent, taken back or still lent
* `run_balance_le`: what an owner may lose
-/

namespace Cw20Base

open CosmWasm Cw20

/-- The messages of the ledger in a run. -/
def onLedger (cs : List Call) : List Cw20.Call := cs.flatMap Call.onLedger

section Runs

variable {api : Api} {st : Storage}

theorem Initial.conserved (hapi : ∀ s a, api s = .ok a → a = s) (h : Initial api st)
    (cs : List Call) : Conserved (run (exec api) st cs).ledger := by
  obtain ⟨msg, hledger⟩ := h.ledger.1
  rw [← run_ledger h.mirrored]
  exact run_conserved api (instantiate_conserved hapi hledger) _

/-- **In every run** from the start of a token the balances sum up to the supply, and a message is
accepted exactly when it is permitted: nothing overflows that is not said to, and the second map of
the allowances refuses nothing. -/
theorem run_accepts (hapi : ∀ s a, api s = .ok a → a = s) (h : Initial api st) (cs : List Call)
    (env : Env) (info : MessageInfo) (msg : Cw20.ExecuteMsg) :
    Conserved (run (exec api) st cs).ledger ∧
      ((exec api (run (exec api) st cs) ⟨env, info, .ledger msg⟩).isSome ↔
        Permits api env info (run (exec api) st cs).ledger msg) := by
  have hconserved := h.conserved hapi cs
  refine ⟨hconserved, ?_⟩
  have hmirrored : Mirrored (run (exec api) st cs) := run_mirrored h.mirrored cs
  have hrefines := exec_refines api hmirrored env info msg
  have hsome : (exec api (run (exec api) st cs) ⟨env, info, .ledger msg⟩).isSome =
      (Cw20.exec api (run (exec api) st cs).ledger ⟨env, info, msg⟩).isSome := by
    rw [← hrefines, Option.isSome_map]
  rw [hsome, ← execute_ok_iff hconserved, Cw20.exec, Option.isSome_iff_exists]
  simp only [toOption_eq_some]

open Sample in
theorem run_accepts_sample :
    Conserved (run (exec acceptsAll) token lending).ledger ∧
      ((exec acceptsAll (run (exec acceptsAll) token lending) ⟨env, ⟨"carol", []⟩,
          .ledger (.transfer "alice" 50)⟩).isSome ↔
        Permits acceptsAll env ⟨"carol", []⟩ (run (exec acceptsAll) token lending).ledger
          (.transfer "alice" 50)) :=
  run_accepts (by rintro s a ⟨⟩; rfl) initial lending env ⟨"carol", []⟩ (.transfer "alice" 50)

/-- **The supply** never exceeds the cap that the token starts with, whoever is named to mint, and
does not grow once nobody may. -/
theorem run_supply_le (h : Initial api st) (cs : List Call) :
    (∀ limit ∈ st.tokenInfo.getCap, (run (exec api) st cs).tokenInfo.totalSupply ≤ limit) ∧
      ∀ cs', (run (exec api) st cs).tokenInfo.mint = none →
        (run (exec api) st (cs ++ cs')).tokenInfo.mint = none ∧
          (run (exec api) st (cs ++ cs')).tokenInfo.totalSupply ≤
            (run (exec api) st cs).tokenInfo.totalSupply := by
  obtain ⟨msg, hledger⟩ := h.ledger.1
  obtain ⟨-, -, hsupply, hcap, -⟩ := instantiate_eq_ok hledger
  constructor
  · intro limit hlimit
    have hstart : Capped limit st.ledger := by
      refine ⟨hsupply limit (hcap ▸ hlimit), fun m hm => ?_⟩
      have hmint : st.tokenInfo.mint = some m := hm
      rwa [TokenInfo.getCap, hmint] at hlimit
    have hend := (run_capped api hstart (cs.flatMap Call.onLedger)).supply_le
    rwa [run_ledger h.mirrored] at hend
  · intro cs' hnone
    have hmint : (run (exec api) st cs).ledger.mint = none := hnone
    have hend := run_unmintable api hmint (cs'.flatMap Call.onLedger)
    rwa [run_ledger (run_mirrored h.mirrored cs), ← run_append] at hend

open Sample in
/-- Of the cap of 150, 100 are there from the start. -/
theorem run_supply_le_sample :
    (∀ limit ∈ token.tokenInfo.getCap,
      (run (exec acceptsAll) token lending).tokenInfo.totalSupply ≤ limit) ∧
      ∀ cs', (run (exec acceptsAll) token lending).tokenInfo.mint = none →
        (run (exec acceptsAll) token (lending ++ cs')).tokenInfo.mint = none ∧
          (run (exec acceptsAll) token (lending ++ cs')).tokenInfo.totalSupply ≤
            (run (exec acceptsAll) token lending).tokenInfo.totalSupply :=
  run_supply_le initial lending

/-- **What is granted** to any spenders by any owners is spent by them, taken back or still lent. -/
theorem run_granted (h : Initial api st) (p : Addr × Addr → Prop) [DecidablePred p]
    (cs : List Call) :
    tally (Cw20.exec api) (spent api p) st.ledger (onLedger cs) +
        tally (Cw20.exec api) (revoked api p) st.ledger (onLedger cs) +
        (run (exec api) st cs).ledger.lent p =
      tally (Cw20.exec api) (granted api p) st.ledger (onLedger cs) := by
  obtain ⟨msg, hledger⟩ := h.ledger.1
  obtain ⟨-, hallow, -⟩ := instantiate_eq_ok hledger
  have hlent := run_lent api st.ledger p (onLedger cs)
  rw [onLedger, run_ledger h.mirrored] at hlent
  rw [onLedger, hlent, State.lent, hallow, Store.total_empty, Nat.zero_add]

open Sample in
/-- Of 60 that are granted, 50 are spent and 10 are taken back. -/
theorem run_granted_sample :
    tally (Cw20.exec acceptsAll) (spent acceptsAll (· = ("alice", "bob"))) token.ledger
          (onLedger lending) +
        tally (Cw20.exec acceptsAll) (revoked acceptsAll (· = ("alice", "bob"))) token.ledger
          (onLedger lending) +
        (run (exec acceptsAll) token lending).ledger.lent (· = ("alice", "bob")) =
      tally (Cw20.exec acceptsAll) (granted acceptsAll (· = ("alice", "bob"))) token.ledger
        (onLedger lending) :=
  run_granted initial (· = ("alice", "bob")) lending

/-- **An owner loses**, from any state on that a token reaches, no more than what it sends itself,
what it had lent and what it grants. -/
theorem run_balance_le (h : Initial api st) (a : Addr) (cs cs' : List Call) :
    (run (exec api) st cs).ledger.balance a ≤ (run (exec api) st (cs ++ cs')).ledger.balance a +
      tally (Cw20.exec api) (sent api a) (run (exec api) st cs).ledger (onLedger cs') +
      ((run (exec api) st cs).ledger.lent (·.1 = a) +
        tally (Cw20.exec api) (granted api (·.1 = a)) (run (exec api) st cs).ledger
          (onLedger cs')) := by
  have hbalance := run_balance api (run (exec api) st cs).ledger a (onLedger cs')
  rwa [onLedger, run_ledger (run_mirrored h.mirrored cs), ← run_append] at hbalance

open Sample in
/-- The owner loses the 50 that the spender takes. -/
theorem run_balance_le_sample :
    (run (exec acceptsAll) token []).ledger.balance "alice" ≤
      (run (exec acceptsAll) token ([] ++ lending)).ledger.balance "alice" +
        tally (Cw20.exec acceptsAll) (sent acceptsAll "alice")
          (run (exec acceptsAll) token []).ledger (onLedger lending) +
        ((run (exec acceptsAll) token []).ledger.lent (·.1 = "alice") +
          tally (Cw20.exec acceptsAll) (granted acceptsAll (·.1 = "alice"))
            (run (exec acceptsAll) token []).ledger (onLedger lending)) :=
  run_balance_le initial "alice" [] lending

end Runs

end Cw20Base
