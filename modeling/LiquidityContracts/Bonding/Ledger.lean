import LiquidityContracts.Bonding.Vesting

/-!
# The ledger of the bonds

A bond adds one record under its holder, unlocked after the time that is configured when it is
made. An unbonding pays the records that are unlocked, and a second loop keeps the others: the two
loops split the records, so that whatever is bonded for an address is either paid to it or still
recorded. Nothing is paid before it is unlocked, unless the sum of the time of the block and the time
that is configured is beyond 64 bits: then it wraps around, and the bond is unlocked at once.

## Main definitions

* `bondedFor`, `paidTo`: what a call bonds for an address, and what it pays to it as an unbonding
* `Storage.held`: what is recorded for an address
* `LocksInRange`: the time that a bond is to be unlocked at is within 64 bits

## Main results

* `exec_held`: one step keeps the ledger of the records unlocked in a set of times
* `run_ledger`: what is bonded is paid or held
* `bond_ledger`: with it, where the times are in range, what is paid by a time is unlocked by then
* `not_bond_ledger`: a bond that is paid in the block that it was made in
-/

namespace Fanfurybonding

open CosmWasm Cw20 Util

/-- What an address still has recorded. -/
def Storage.held (st : Storage) (u : Addr) : ℕ := ((st.records u).map (·.amount)).sum

/-- The tokens of a cw20 contract that a list of messages transfers to an address. -/
def transferred (token u : Addr) (messages : List (CosmosMsg Cw20.ExecuteMsg)) : ℕ :=
  (messages.map fun m => match m with
    | .wasmExecute contract (.transfer recipient amount) _ =>
      if contract = token ∧ recipient = u then amount else 0
    | _ => 0).sum

/-- What a call bonds for an address. -/
def bondedFor (u : Addr) (st : Storage) (c : Call) : ℕ := if c.holder = u then bonded st c else 0

/-- The FURY that a call pays to an address as an unbonding. -/
def paidTo (u : Addr) (st : Storage) (c : Call) : ℕ :=
  match c.msg, exec st c with
  | .unbond, some (_, r) => transferred st.config.furyTokenAddress u r.messages
  | _, _ => 0

/-- What a call bonds for an address to be unlocked by the time `t`. -/
def unlockedBy (u : Addr) (t : ℕ) (st : Storage) (c : Call) : ℕ :=
  if c.unlock st ≤ t then bondedFor u st c else 0

/-- When the call is an accepted bond, the time that it is to be unlocked at is within 64 bits. -/
def LocksInRange (st : Storage) (c : Call) : Prop :=
  c.msg.isBond ∧ (exec st c).isSome → c.unlock st < Uint64.bound

instance (st : Storage) (c : Call) : Decidable (LocksInRange st c) :=
  inferInstanceAs (Decidable (_ → _))

/-- What a call pays to an address by the time `t`. -/
def paidBy (u : Addr) (t : ℕ) (st : Storage) (c : Call) : ℕ :=
  if c.env.block.time.seconds ≤ t then paidTo u st c else 0

section Steps

variable {st st' : Storage} {c : Call} {r : Response Cw20.ExecuteMsg} {u address : Addr}

@[simp] theorem amountIn_append (p : ℕ → Bool) (records records' : List BondingRecord) :
    amountIn p (records ++ records') = amountIn p records + amountIn p records' := by
  simp [amountIn]

@[simp] theorem amountIn_singleton (p : ℕ → Bool) (b : BondingRecord) :
    amountIn p [b] = if p b.timestamp then b.amount else 0 := by
  cases h : p b.timestamp with
  | true => simp [amountIn, h]
  | false => simp [amountIn, h]

/-- **The two loops split the records**: what the one pays, the other does not keep. -/
theorem amountIn_split (p : ℕ → Bool) (t : ℕ) (records : List BondingRecord) :
    amountIn (fun s => p s && s ≤ t) records + amountIn p (records.filter fun b => t < b.timestamp) =
      amountIn p records := by
  unfold amountIn
  rw [List.filter_filter,
    ← List.sum_map_filter_add_sum_map_filter_not (fun b : BondingRecord => b.timestamp ≤ t) _
      (records.filter fun b => p b.timestamp), List.filter_filter, List.filter_filter]
  congr 3
  · refine List.filter_congr fun b _ => ?_
    exact Bool.and_comm _ _
  · refine List.filter_congr fun b _ => ?_
    rw [Bool.and_comm]
    simp only [not_le]

theorem held_eq (st : Storage) (u : Addr) : st.held u = amountIn (fun _ => true) (st.records u) := by
  simp [Storage.held, amountIn]

theorem records_insert {records : List BondingRecord}
    (h : st'.bonding = st.bonding.insert address records) (u : Addr) :
    st'.records u = if address = u then records else st.records u := by
  rw [Storage.records, h, Store.get_insert]
  split
  · rfl
  · rfl

theorem paidTo_of_exec (h : exec st c = some (st', r)) :
    paidTo u st c =
      if c.msg = .unbond then transferred st.config.furyTokenAddress u r.messages else 0 := by
  unfold paidTo
  rw [h]
  cases c.msg <;> simp

theorem paidTo_of_revert (h : exec st c = none) : paidTo u st c = 0 := by
  unfold paidTo
  rw [h]
  split
  · rename_i hsome
    cases hsome
  · rfl

/-- An unbonding pays its sender what is unlocked; no other message is an unbonding. -/
theorem Effect.paidTo_eq (heffect : Effect c st st' r) (h : exec st c = some (st', r)) (u : Addr) :
    paidTo u st c = if c.msg = .unbond ∧ c.info.sender = u then
      amountIn (· ≤ c.env.block.time.seconds) (st.records u) else 0 := by
  rw [paidTo_of_exec h]
  cases heffect with
  | bonds cumulated current last isBond state spends =>
    have hmsg := not_unbond_of_isBond isBond
    rw [if_neg hmsg, if_neg fun hc => hmsg hc.1]
  | unbonds usdcAmount msg state response =>
    rw [if_pos msg, response]
    -- the FURY goes to the sender; the coins to the treasury do not count
    by_cases hu : c.info.sender = u
    · subst hu
      simp [transferred, transferTokenMessage, msg]
    · simp [transferred, transferTokenMessage, hu]
  | owns config isOwners sender owner meter state =>
    have hmsg := not_unbond_of_isOwners isOwners
    rw [if_neg hmsg, if_neg fun hc => hmsg hc.1]

theorem bondedFor_of_not_isBond (h : exec st c = some (st', r)) (hbond : ¬ c.msg.isBond)
    (u : Addr) : bondedFor u st c = 0 := by
  rw [bondedFor, bonded_of_exec h, receivingAmount_of_not_isBond hbond, ite_self]

/-- What an unbonding by an address pays of the records unlocked at a time in `p`. -/
def unbondedIn (p : ℕ → Bool) (u : Addr) (st : Storage) (c : Call) : ℕ :=
  if c.msg = .unbond ∧ c.info.sender = u then
    amountIn (fun s => p s && s ≤ c.env.block.time.seconds) (st.records u) else 0

/-- **The ledger of one step**, for the records unlocked at a time in `p`. -/
theorem exec_held (h : exec st c = some (st', r)) (p : ℕ → Bool) (u : Addr) :
    unbondedIn p u st c + amountIn p (st'.records u) =
      amountIn p (st.records u) + if p (c.timestamp st) then bondedFor u st c else 0 := by
  unfold unbondedIn
  cases exec_effect h with
  | bonds cumulated current last isBond state spends =>
    -- the records of the holder grow by one, those of others stay
    rw [if_neg fun hc => not_unbond_of_isBond isBond hc.1, Nat.zero_add,
      records_insert (congrArg Storage.bonding state)]
    by_cases hu : c.holder = u
    · rw [if_pos hu, amountIn_append, amountIn_singleton, bondedFor, if_pos hu, bonded_of_exec h, hu]
    · rw [if_neg hu, bondedFor, if_neg hu, ite_self, Nat.add_zero]
  | unbonds usdcAmount msg state response =>
    -- what an unbonding pays to its sender is what it drops of the records
    have hbond : ¬ c.msg.isBond := by
      rw [msg]
      exact Bool.false_ne_true
    rw [bondedFor_of_not_isBond h hbond, ite_self, Nat.add_zero,
      records_insert (congrArg Storage.bonding state)]
    by_cases hu : c.info.sender = u
    · rw [if_pos ⟨msg, hu⟩, if_pos hu, hu]
      exact amountIn_split p _ _
    · rw [if_neg fun hc => hu hc.2, if_neg hu, Nat.zero_add]
  | owns config isOwners sender owner meter state =>
    rw [if_neg fun hc => not_unbond_of_isOwners isOwners hc.1,
      bondedFor_of_not_isBond h (not_isBond_of_isOwners isOwners), ite_self, Nat.zero_add,
      Nat.add_zero, state]
    rfl

/-- What is recorded and paid moves together, by one accepted message. -/
theorem exec_ledger (h : exec st c = some (st', r)) (u : Addr) :
    paidTo u st c + st'.held u = st.held u + bondedFor u st c := by
  have hstep := exec_held h (fun _ => true) u
  rw [held_eq, held_eq, (exec_effect h).paidTo_eq h]
  simpa [unbondedIn] using hstep

/-- In range, a bond is recorded with the time that it is to be unlocked at. -/
theorem LocksInRange.unlockedBy_eq (hrange : LocksInRange st c) (h : exec st c = some (st', r))
    (u : Addr) (t : ℕ) :
    unlockedBy u t st c = if decide (c.timestamp st ≤ t) then bondedFor u st c else 0 := by
  unfold unlockedBy
  by_cases hbond : c.msg.isBond
  · have hlt := hrange ⟨hbond, Option.isSome_of_eq_some h⟩
    rw [show c.timestamp st = c.unlock st from Uint64.add_of_lt hlt]
    simp
  · -- what is no bond locks nothing
    rw [bondedFor_of_not_isBond h hbond, ite_self, ite_self]

/-- What is paid by a time is unlocked by then. -/
theorem exec_unlocked (hrange : LocksInRange st c) (h : exec st c = some (st', r)) (u : Addr)
    (t : ℕ) :
    paidBy u t st c + amountIn (· ≤ t) (st'.records u) ≤
      amountIn (· ≤ t) (st.records u) + unlockedBy u t st c := by
  have hstep := exec_held h (· ≤ t) u
  have hpaid : paidBy u t st c ≤ unbondedIn (· ≤ t) u st c := by
    rw [paidBy, (exec_effect h).paidTo_eq h, unbondedIn]
    split
    · rename_i ht
      split
      · -- everything that the call pays is unlocked when it is received
        refine le_of_eq (congrArg (fun p => amountIn p _) (funext fun s => ?_))
        rw [← Bool.decide_and]
        exact decide_eq_decide.mpr ⟨fun hs => ⟨hs.trans ht, hs⟩, And.right⟩
      · exact le_rfl
    · exact Nat.zero_le _
  have hbonded := hrange.unlockedBy_eq h u t
  omega

theorem commit_ledger (st : Storage) (c : Call) (u : Addr) :
    paidTo u st c + (commit exec st c).held u = st.held u + bondedFor u st c := by
  rcases commit_cases exec st c with ⟨r, h⟩ | ⟨hnone, hst⟩
  · exact exec_ledger h u
  · -- a call that is reverted neither pays nor bonds
    rw [hst, paidTo_of_revert hnone, bondedFor, bonded_of_revert hnone, ite_self, Nat.zero_add,
      Nat.add_zero]

theorem commit_unlocked (hrange : LocksInRange st c) (u : Addr) (t : ℕ) :
    paidBy u t st c + amountIn (· ≤ t) ((commit exec st c).records u) ≤
      amountIn (· ≤ t) (st.records u) + unlockedBy u t st c := by
  rcases commit_cases exec st c with ⟨r, h⟩ | ⟨hnone, hst⟩
  · exact exec_unlocked hrange h u t
  · rw [hst, paidBy, paidTo_of_revert hnone, ite_self, Nat.zero_add]
    exact Nat.le_add_right _ _

end Steps

section Runs

variable {st : Storage}

/-- What is bonded in a run is paid or still recorded. -/
theorem run_ledger (hinit : st.bonding = ∅) (cs : List Call) (u : Addr) :
    tally exec (bondedFor u) st cs = tally exec (paidTo u) st cs + (run exec st cs).held u := by
  have hnone : st.held u = 0 := by simp [Storage.held, Storage.records, hinit]
  have hledger : tally exec (paidTo u) st cs + (run exec st cs).held u =
      st.held u + tally exec (bondedFor u) st cs :=
    tally_add_eq (q := fun st => st.held u) fun x _ => commit_ledger x.1 x.2 u
  rw [hledger, hnone, Nat.zero_add]

theorem run_unlocked (hinit : st.bonding = ∅) {cs : List Call}
    (hrange : ∀ x ∈ history exec st cs, LocksInRange x.1 x.2) (u : Addr) (t : ℕ) :
    tally exec (paidBy u t) st cs + amountIn (· ≤ t) ((run exec st cs).records u) ≤
      tally exec (unlockedBy u t) st cs := by
  have hnone : amountIn (· ≤ t) (st.records u) = 0 := by simp [amountIn, Storage.records, hinit]
  have hledger : tally exec (paidBy u t) st cs + amountIn (· ≤ t) ((run exec st cs).records u) ≤
      amountIn (· ≤ t) (st.records u) + tally exec (unlockedBy u t) st cs :=
    tally_add_le (q := fun st => amountIn (· ≤ t) (st.records u))
      fun x hx => commit_unlocked (hrange x hx) u t
  rwa [hnone, Nat.zero_add] at hledger

end Runs

/-- **The ledger of the bonds.** In every run what is bonded for an address is what unbondings pay
to it and what is still recorded for it. Where the times that the bonds are to be unlocked at are in
range, by any time no more is paid to it than what is unlocked by then, as locked by the
configuration that each bond met. -/
theorem bond_ledger (env : Env) (msg : InstantiateMsg) (cs : List Call) (u : Addr) :
    tally exec (bondedFor u) (instantiate env msg) cs =
        tally exec (paidTo u) (instantiate env msg) cs +
          (run exec (instantiate env msg) cs).held u ∧
      ((∀ x ∈ history exec (instantiate env msg) cs, LocksInRange x.1 x.2) →
        ∀ t, tally exec (paidBy u t) (instantiate env msg) cs ≤
          tally exec (unlockedBy u t) (instantiate env msg) cs) :=
  ⟨run_ledger rfl cs u, fun hrange t => le_of_add_le_left (run_unlocked rfl hrange u t)⟩

namespace Sample

/-- The contract with an allowance of ten units a day, and a time that bonds are locked for. -/
def lockedFor (lockSeconds : ℕ) : InstantiateMsg := { tenADay with lockSeconds }

/-- An unbonding of alice at noon of a day. -/
def unbondOn (day : ℕ) : Call where
  q := ⟨fun _ _ => .ok 0, fun _ _ => .ok 0, fun _ _ => .ok 100⟩
  env := noonOf day
  info := ⟨"alice", [⟨"uusd", 1⟩]⟩
  msg := .unbond

end Sample

open Sample in
/-- A bond that is locked for a week, and paid after it. -/
theorem bond_ledger_week :
    tally exec (bondedFor "alice") (instantiate (noonOf 0) tenADay) [bondOn 1 10, unbondOn 8] =
        tally exec (paidTo "alice") (instantiate (noonOf 0) tenADay) [bondOn 1 10, unbondOn 8] +
          (run exec (instantiate (noonOf 0) tenADay) [bondOn 1 10, unbondOn 8]).held "alice" ∧
      ∀ t, tally exec (paidBy "alice" t) (instantiate (noonOf 0) tenADay)
          [bondOn 1 10, unbondOn 8] ≤
        tally exec (unlockedBy "alice" t) (instantiate (noonOf 0) tenADay)
          [bondOn 1 10, unbondOn 8] := by
  obtain ⟨hledger, hunlocked⟩ := bond_ledger (noonOf 0) tenADay [bondOn 1 10, unbondOn 8] "alice"
  exact ⟨hledger, hunlocked (by decide +kernel)⟩

open Sample in
/-- **A bond that is locked for longer than 64 bits can tell** is unlocked at once. -/
theorem not_bond_ledger :
    ¬ ∀ (env : Env) (msg : InstantiateMsg) (cs : List Call) (u : Addr),
      (env.block.time :: cs.map fun c => c.env.block.time).Pairwise (· ≤ ·) →
      tally exec (bondedFor u) (instantiate env msg) cs =
          tally exec (paidTo u) (instantiate env msg) cs +
            (run exec (instantiate env msg) cs).held u ∧
        ∀ t, tally exec (paidBy u t) (instantiate env msg) cs ≤
          tally exec (unlockedBy u t) (instantiate env msg) cs := by
  intro h
  have hpaid := (h (noonOf 0) (lockedFor (2 ^ 64 - 100)) [bondOn 1 10, unbondOn 1] "alice"
    (by decide +kernel)).2 129600
  exact absurd hpaid (by decide +kernel)

end Fanfurybonding
