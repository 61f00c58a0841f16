import LiquidityContracts.Bonding.Ledger

/-!
# Who owns the bonding contract

Four messages are the owner's, and each begins with the check of its sender. No message writes the
owner's address: an accepted `UpdateOwner` names a new owner and saves the configuration as it was,
so that the address it names gains nothing, and the former owner goes on withdrawing FURY.

## Main definitions

* `Storage.HeldBy`: the owner's messages pass the check for one address alone
* `entitled`: whom the last accepted `UpdateOwner` of a run names
* `FollowsTransfers`: all along a run the rights are with the address entitled to them

## Main results

* `heldBy_iff`: the rights are with the address in the configuration
* `run_owner`: a run leaves that address as it is
* `followsTransfers_iff`: the rights follow the transfers exactly when none changes the owner
-/

namespace Fanfurybonding

open CosmWasm

/-- Among the senders of the owner's messages, those whom the check lets pass are `who`. -/
def Storage.HeldBy (st : Storage) (who : Addr) : Prop :=
  ∀ c : Call, c.msg.isOwners →
    (execute c.q c.env c.info st c.msg ≠ .error (.err .disabled) ↔ c.info.sender = who)

/-- The owner that an accepted `UpdateOwner` names. -/
def namedOwner (st : Storage) (c : Call) : Option Addr :=
  match c.msg with
  | .updateOwner owner => if (exec st c).isSome then some owner else none
  | _ => none

/-- The address that is to have the owner's rights after a run. -/
def entitled (env : Env) (msg : InstantiateMsg) (cs : List Call) : Addr :=
  (lastSome exec namedOwner (instantiate env msg) cs).getD msg.owner

/-- At each point of a run the owner's rights are with the address entitled to them. -/
def FollowsTransfers (env : Env) (msg : InstantiateMsg) (cs : List Call) : Prop :=
  ∀ cs', cs' <+: cs → (run exec (instantiate env msg) cs').HeldBy (entitled env msg cs')

/-- An accepted `UpdateOwner` names the owner that there is. -/
def KeepsOwner (st : Storage) (c : Call) : Prop :=
  namedOwner st c = none ∨ namedOwner st c = some st.config.owner

instance (st : Storage) (c : Call) : Decidable (KeepsOwner st c) :=
  inferInstanceAs (Decidable (_ ∨ _))

section Steps

variable {st st' : Storage} {c : Call} {r : Response Cw20.ExecuteMsg}

/-- After the owner's check nothing reports what the check reports. -/
theorem checked_ne_disabled {α : Type} {f : Unit → Exec ContractError α} {sender : Addr}
    (hf : f () ≠ .error (.err .disabled)) :
    (checkOwner st sender >>= f) ≠ .error (.err .disabled) ↔ sender = st.config.owner := by
  by_cases howner : sender = st.config.owner
  · rw [bind_of_eq_ok (checkOwner_eq_ok.mpr howner)]
    exact iff_of_true hf howner
  · refine iff_of_false (fun h => h ?_) howner
    rw [checkOwner, refuse, provided, if_neg (not_not_intro (Ne.symm howner))]
    rfl

/-- **The check** lets an owner's message pass when the owner sends it. -/
theorem passes_iff (howners : c.msg.isOwners) :
    execute c.q c.env c.info st c.msg ≠ .error (.err .disabled) ↔
      c.info.sender = st.config.owner := by
  obtain ⟨q, env, info, msg⟩ := c
  cases msg with
  | updateOwner owner => exact checked_ne_disabled nofun
  | updateEnabled enabled => exact checked_ne_disabled nofun
  | updateConfig treasuryAddress lockSeconds discount txFee platformFee vesting =>
    exact checked_ne_disabled nofun
  | withdraw amount =>
    refine checked_ne_disabled ?_
    dsimp only
    cases q.tokenBalance st.config.furyTokenAddress env.contractAddress with
    | error e => nofun
    | ok furyBalance =>
      show (refuse (furyBalance < amount) ContractError.insufficientFury >>= _) ≠ _
      by_cases hlt : furyBalance < amount
      · simp [refuse, provided, hlt]
      · simp [refuse, provided, hlt]
  | bond | lpBond | unbond => cases howners

/-- **The rights** are with the address that the configuration names. -/
theorem heldBy_iff {who : Addr} : st.HeldBy who ↔ st.config.owner = who := by
  constructor
  · intro h
    let c : Call :=
      { q := ⟨fun _ _ => .ok 0, fun _ _ => .ok 0, fun _ _ => .ok 0⟩, env := ⟨⟨0, 0⟩, ""⟩,
        info := ⟨st.config.owner, []⟩, msg := .updateEnabled true }
    exact (h c rfl).mp ((passes_iff rfl).mpr rfl)
  · rintro rfl c howners
    exact passes_iff howners

/-- **One step** writes everything but the owner. -/
theorem exec_owner (h : exec st c = some (st', r)) : st'.config.owner = st.config.owner := by
  cases exec_effect h with
  | bonds cumulated current last isBond state spends => rw [state]
  | unbonds usdcAmount msg state response => rw [state]
  | owns config isOwners sender owner meter state => rw [state, owner]

end Steps

section Runs

variable {env : Env} {msg : InstantiateMsg} {cs : List Call}

/-- **A run** leaves the owner as it was instantiated. -/
theorem run_owner (env : Env) (msg : InstantiateMsg) (cs : List Call) :
    (run exec (instantiate env msg) cs).config.owner = msg.owner :=
  run_preserves (I := fun st : Storage => st.config.owner = msg.owner)
    (fun _ _ _ _ hst h => (exec_owner h).trans hst) rfl cs

theorem entitled_snoc (c : Call) : entitled env msg (cs ++ [c]) =
    (namedOwner (run exec (instantiate env msg) cs) c).getD (entitled env msg cs) := by
  unfold entitled
  rw [lastSome_snoc]
  cases namedOwner (run exec (instantiate env msg) cs) c with
  | none => rfl
  | some owner => rfl

/-- As long as every transfer names the owner that there is, the instantiated owner is entitled. -/
theorem entitled_eq
    (h : ∀ x ∈ history exec (instantiate env msg) cs, KeepsOwner x.1 x.2) :
    entitled env msg cs = msg.owner := by
  induction cs using List.reverseRecOn with
  | nil => rfl
  | append_singleton cs c ih =>
    rw [history_snoc] at h
    have hbefore := ih fun x hx => h x (List.mem_append_left _ hx)
    rw [entitled_snoc, hbefore]
    rcases h _ (List.mem_append_right _ List.mem_cons_self) with hnone | hsome
    · rw [hnone]
      rfl
    · rw [hsome, run_owner]
      rfl

end Runs

/-- **The rights follow the transfers** of a run exactly when every accepted `UpdateOwner` names
the owner that there is. -/
theorem followsTransfers_iff (env : Env) (msg : InstantiateMsg) (cs : List Call) :
    FollowsTransfers env msg cs ↔
      ∀ x ∈ history exec (instantiate env msg) cs, KeepsOwner x.1 x.2 := by
  constructor
  · intro h x hx
    obtain ⟨before, after, rfl, hst⟩ := mem_history hx
    cases hnamed : namedOwner x.1 x.2 with
    | none => exact .inl hnamed
    | some owner =>
      -- right after the transfer, the address it names is entitled and the old owner has the rights
      have hheld := heldBy_iff.mp (h (before ++ [x.2]) ⟨after, by simp⟩)
      rw [entitled_snoc, ← hst, hnamed, run_owner] at hheld
      refine .inr ?_
      rw [hnamed, hst, run_owner, hheld]
      rfl
  · intro h cs' hcs'
    rw [heldBy_iff, run_owner, entitled_eq fun x hx => h x (history_subset hcs' hx)]

section Transfer

/-- A transfer of the rights by the owner. -/
def transferToAlice : Call :=
  ⟨⟨fun _ _ => .ok 0, fun _ _ => .ok 0, fun _ _ => .ok 50⟩, noonOf 1, ⟨"owner", []⟩,
    .updateOwner "alice"⟩

/-- After the transfer the former owner still passes the check, and `alice` does not. -/
theorem not_followsTransfers :
    ¬ ∀ (env : Env) (msg : InstantiateMsg) (cs : List Call), FollowsTransfers env msg cs := by
  intro h
  have hheld := h (noonOf 0) tenADay [transferToAlice] [transferToAlice] List.prefix_rfl
  have howner : entitled (noonOf 0) tenADay [transferToAlice] = "owner" := by
    rw [← heldBy_iff.mp hheld, run_owner]
    rfl
  exact absurd howner (by decide +kernel)

end Transfer

end Fanfurybonding
