import LiquidityContracts.Bonding.Effect

/-!
# The daily allowance for bonds

The counters of the bonding contract are a meter of FURY bonded. On a day that bonds more than
the daily allowance, out of credit carried over from earlier days, the credit is not reduced: the
next day may spend it again. Over runs in which no such day is closed, the bonds are within the
allowance of the days since the instantiation.

## Main definitions

* `bondedBy`: the FURY bonded over a run until the end of a day
* `ClosesWithinAllowance`: a call closes no day that bonded more than its allowance

## Main results

* `exec_meter`: an accepted bond spends from the meter, other messages leave it alone
* `bondedBy_le`: the bonds of a run are within the allowance of its days
* `bondedBy_overspent`: a run in which the credit of one day is spent twice
-/

namespace Fanfurybonding

open CosmWasm Accounting

/-- The FURY that a call bonds: nothing when it is reverted. -/
def bonded (st : Storage) (c : Call) : ℕ :=
  if (exec st c).isSome then receivingAmount st c else 0

/-- The FURY bonded over a run until the end of the day `d`. -/
def bondedBy (d : ℕ) (st : Storage) (cs : List Call) : ℕ :=
  tally exec (fun st c => if c.day ≤ d then bonded st c else 0) st cs

/-- When the call is a bond, accepted on a new day, the last active day bonded at most the daily
allowance. -/
def ClosesWithinAllowance (st : Storage) (c : Call) : Prop :=
  c.msg.isBond ∧ (exec st c).isSome ∧ c.day ≠ day st.config.lastTimestamp →
    st.config.dailyCurrentBondAmount ≤ st.config.dailyVestingAmount

instance (st : Storage) (c : Call) : Decidable (ClosesWithinAllowance st c) :=
  inferInstanceAs (Decidable (_ → _))

section Steps

variable {st st' : Storage} {c : Call} {r : Response Cw20.ExecuteMsg}

/-- **One step.** An accepted bond spends what it records from the meter, on the day it is
received; an accepted message of another kind leaves the meter alone. -/
theorem exec_meter (h : exec st c = some (st', r)) :
    (c.msg.isBond ∧ st.config.meter.spend st.config.dailyVestingAmount c.day (receivingAmount st c)
        = some st'.config.meter) ∨
      receivingAmount st c = 0 ∧ st'.config.meter = st.config.meter := by
  cases exec_effect h with
  | bonds cumulated current last isBond state spends => exact .inl ⟨isBond, spends⟩
  | unbonds usdcAmount msg state response =>
    refine .inr ⟨?_, by rw [state]⟩
    rw [receivingAmount, msg]
  | owns config isOwners sender owner meter state =>
    exact .inr ⟨receivingAmount_of_not_isBond (not_isBond_of_isOwners isOwners) st, by rw [state, meter]⟩

theorem bonded_of_exec (h : exec st c = some (st', r)) : bonded st c = receivingAmount st c := by
  rw [bonded, h]
  rfl

theorem bonded_of_revert (h : exec st c = none) : bonded st c = 0 := by
  rw [bonded, h]
  rfl

variable {V d₀ n : ℕ}

/-- A call that closes no overspent day keeps what is bonded within the allowance. -/
theorem commit_covers (hcovers : st.config.meter.Covers V d₀ n)
    (hvesting : st.config.dailyVestingAmount = V) (hday : st.config.meter.lastDay ≤ c.day)
    (hclose : ClosesWithinAllowance st c) :
    (commit exec st c).config.meter.Covers V d₀ (n + bonded st c) ∧
      (commit exec st c).config.meter.lastDay ≤ c.day := by
  rcases commit_cases exec st c with ⟨r, h⟩ | ⟨h, hst⟩
  · rw [bonded_of_exec h]
    rcases exec_meter h with ⟨hbond, hspend⟩ | ⟨hzero, hmeter⟩
    · rw [hvesting] at hspend
      -- a day is closed by the first bond of another day, within the allowance by `hclose`
      have hused : c.day ≠ st.config.meter.lastDay → st.config.meter.used ≤ V := by
        intro hne
        rw [← hvesting]
        exact hclose ⟨hbond, by simp [h], hne⟩
      obtain ⟨hcovers', hday'⟩ := hcovers.spend hday hused hspend
      exact ⟨hcovers', hday'.le⟩
    -- what is no bond leaves the meter alone
    · rw [hzero, hmeter]
      exact ⟨hcovers, hday⟩
  · rw [hst, bonded_of_revert h]
    exact ⟨hcovers, hday⟩

end Steps

section Runs

variable {st : Storage} {cs : List Call} {V d₀ d : ℕ}

/-- Along a run that closes no overspent day, what is bonded stays within the allowance. -/
theorem run_covers (hcovers : st.config.meter.Covers V d₀ 0)
    (hvesting : ∀ x ∈ history exec st cs, x.1.config.dailyVestingAmount = V)
    (hdays : (st.config.meter.lastDay :: cs.map Call.day).Pairwise (· ≤ ·))
    (hclose : ∀ x ∈ history exec st cs, ClosesWithinAllowance x.1 x.2) :
    (run exec st cs).config.meter.Covers V d₀ (tally exec bonded st cs) ∧
      ∀ d, (∀ e ∈ st.config.meter.lastDay :: cs.map Call.day, e ≤ d) →
        (run exec st cs).config.meter.lastDay ≤ d := by
  induction cs using List.reverseRecOn with
  | nil => exact ⟨hcovers, fun d hd => hd _ (by simp)⟩
  | append_singleton cs c ih =>
    rw [history_snoc] at hvesting hclose
    rw [List.map_append, ← List.cons_append] at hdays
    obtain ⟨hinit, -, hlast⟩ := List.pairwise_append.mp hdays
    obtain ⟨hcovers', hday⟩ := ih (fun x hx => hvesting x (by simp [hx])) hinit
      fun x hx => hclose x (by simp [hx])
    -- the last call is not before any of the calls before it
    have hle := hday c.day fun e he => hlast e he c.day (by simp)
    have hmem : (run exec st cs, c) ∈ history exec st cs ++ [(run exec st cs, c)] :=
      List.mem_append_right _ (List.mem_singleton_self _)
    obtain ⟨hstep, hstep_day⟩ := commit_covers hcovers' (hvesting _ hmem) hle (hclose _ hmem)
    rw [run_snoc, tally_snoc]
    exact ⟨hstep, fun d hd => hstep_day.trans (hd _ (by simp))⟩

/-- Until a day on or after the last call, everything bonded counts. -/
theorem bondedBy_eq_tally (h : ∀ c ∈ cs, c.day ≤ d) :
    bondedBy d st cs = tally exec bonded st cs :=
  tally_congr fun x hx => if_pos (h x.2 (label_mem hx))

theorem bondedBy_le_of_covers (hcovers : st.config.meter.Covers V d₀ 0)
    (hvesting : ∀ x ∈ history exec st cs, x.1.config.dailyVestingAmount = V)
    (hdays : (st.config.meter.lastDay :: cs.map Call.day).Pairwise (· ≤ ·))
    (hclose : ∀ x ∈ history exec st cs, ClosesWithinAllowance x.1 x.2) :
    bondedBy d st cs ≤ V * (d - d₀ + 1) := by
  induction cs using List.reverseRecOn with
  | nil => exact Nat.zero_le _
  | append_singleton cs c ih =>
    by_cases hc : c.day ≤ d
    · -- the last call is the latest one, so all of them are until `d`
      have hall : ∀ e ∈ st.config.meter.lastDay :: (cs ++ [c]).map Call.day, e ≤ d := by
        rw [List.map_append, ← List.cons_append] at hdays
        have hlast := (List.pairwise_append.mp hdays).2.2
        intro e he
        rw [List.map_append, ← List.cons_append, List.mem_append] at he
        rcases he with he | he
        · exact (hlast e he c.day (by simp)).trans hc
        · rwa [List.mem_singleton.mp he]
      obtain ⟨hcovers', hday⟩ := run_covers hcovers hvesting hdays hclose
      rw [bondedBy_eq_tally fun e he => hall e.day (by
        rw [List.mem_cons]
        exact .inr (List.mem_map_of_mem he))]
      refine hcovers'.le.trans (Nat.mul_le_mul_left V ?_)
      have := hday d hall
      omega
    -- the last call is after `d` and does not count
    · rw [history_snoc] at hvesting hclose
      rw [List.map_append, ← List.cons_append] at hdays
      rw [bondedBy, tally_snoc, if_neg hc]
      exact ih (fun x hx => hvesting x (by simp [hx])) (List.pairwise_append.mp hdays).1
        fun x hx => hclose x (by simp [hx])

/-- **Bonds are within the daily allowance.** In a run with a fixed allowance in which no bond
closes a day that overspent, the FURY bonded until the end of the day `d` is at most the allowance
of each day since the instantiation. -/
theorem bondedBy_le (env : Env) (msg : InstantiateMsg) (cs : List Call) (d : ℕ)
    (hvesting : ∀ x ∈ history exec (instantiate env msg) cs,
      x.1.config.dailyVestingAmount = msg.dailyVestingAmount)
    (htime : (env.block.time :: cs.map fun c => c.env.block.time).Pairwise (· ≤ ·))
    (hclose : ∀ x ∈ history exec (instantiate env msg) cs, ClosesWithinAllowance x.1 x.2) :
    bondedBy d (instantiate env msg) cs ≤
      msg.dailyVestingAmount * (d - day env.block.time.seconds + 1) := by
  refine bondedBy_le_of_covers (Meter.Covers.init _ _) hvesting ?_ hclose
  have hdays := List.Pairwise.map (fun t : Timestamp => day t.seconds)
    (fun _ _ h => Nat.div_le_div_right (Nat.div_le_div_right h)) htime
  rwa [List.map_cons, List.map_map] at hdays

end Runs

section Overspending

/-- A contract with an allowance of ten units a day, instantiated on the day zero. -/
def tenADay : InstantiateMsg where
  owner := "owner"
  poolAddress := "pool"
  treasuryAddress := "treasury"
  furyTokenAddress := "fury"
  usdcDenom := "uusd"
  lockSeconds := 604800
  discount := 0
  txFee := 0
  platformFee := 0
  dailyVestingAmount := 10
  isNativeBonding := false

/-- The block at noon of a day. -/
def noonOf (day : ℕ) : Env := ⟨⟨day, (86400 * day + 43200) * Timestamp.nanosPerSecond⟩, "bonding"⟩

/-- A bond that the pool makes for `alice`. -/
def bondOn (day amount : ℕ) : Call where
  q := ⟨fun _ _ => .ok 0, fun _ _ => .ok 0, fun _ _ => .ok 0⟩
  env := noonOf day
  info := ⟨"pool", []⟩
  msg := .lpBond "alice" amount

/-- A run that meets its condition and uses the allowance up. -/
theorem bondedBy_le_tenADay :
    bondedBy 2 (instantiate (noonOf 0) tenADay) [bondOn 1 10, bondOn 2 20] ≤ 10 * (2 - 0 + 1) :=
  bondedBy_le (noonOf 0) tenADay [bondOn 1 10, bondOn 2 20] 2 (by decide +kernel)
    (by decide +kernel) (by decide +kernel)

/-- The credit of the day zero is spent on the day one and again on the day two. -/
theorem bondedBy_overspent :
    ¬ ∀ (env : Env) (msg : InstantiateMsg) (cs : List Call) (d : ℕ),
      (∀ x ∈ history exec (instantiate env msg) cs,
        x.1.config.dailyVestingAmount = msg.dailyVestingAmount) →
      (env.block.time :: cs.map fun c => c.env.block.time).Pairwise (· ≤ ·) →
      day env.block.time.seconds ≤ d →
      bondedBy d (instantiate env msg) cs ≤
        msg.dailyVestingAmount * (d - day env.block.time.seconds + 1) := by
  intro h
  have hbonded : bondedBy 2 (instantiate (noonOf 0) tenADay) [bondOn 1 20, bondOn 2 20] = 40 := by
    decide +kernel
  have hle := h (noonOf 0) tenADay [bondOn 1 20, bondOn 2 20] 2 (by decide +kernel)
    (by decide +kernel) (by decide +kernel)
  rw [hbonded] at hle
  exact absurd hle (by decide +kernel)

end Overspending

end Fanfurybonding
