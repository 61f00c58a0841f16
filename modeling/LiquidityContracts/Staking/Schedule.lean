import LiquidityContracts.Staking.Items

/-!
# The schedule of the rewards

A final batch closes a reward cycle and moves the time of the next reward by a period. A batch is
admitted at that time already, but the time is moved only after it: a final batch that arrives at
the very time of the next reward closes a cycle and schedules the next one for the same time. In
the runs without such a batch every period is closed once, as long as the times of the rewards are
within 64 bits: a sum beyond them wraps around, and the time moves back.

## Main definitions

* `closed`, `closedBy`: the cycles that a call closes, at all and by a time
* `ClosesOnce`: the law of the schedule in a run

## Main results

* `nextReward_of_closes`: a final batch after the time of the next reward moves it by a period
* `run_paced`: how far the time has moved with the cycles that are closed
* `closesOnce_iff`: within 64 bits, the law holds of the runs without a final batch at the time of
  the next reward
* `not_closesOnce`: a run that closes a period twice
-/

namespace Clubstaking

open CosmWasm

/-- The cycles that a call closes: one or none. -/
def closed (api : Api) (st : Storage) (c : Call) : ℕ := if ClosesCycle api st c then 1 else 0

/-- The cycles that a call closes by the time `t`. -/
def closedBy (api : Api) (t : Timestamp) (st : Storage) (c : Call) : ℕ :=
  if c.env.block.time ≤ t then closed api st c else 0

/-- A period of rewards, in the unit of the timestamps. -/
def Storage.period (st : Storage) : ℕ := st.config.rewardPeriodicity * Timestamp.nanosPerSecond

/-- The time of the reward after the next one is within 64 bits. -/
def MovesInRange (st : Storage) : Prop := st.nextReward + st.period < Uint64.bound

instance (st : Storage) : Decidable (MovesInRange st) := inferInstanceAs (Decidable (_ < _))

/-- Each period is closed once in a run. -/
structure ClosesOnce (api : Api) (st : Storage) (cs : List Call) : Prop where
  /-- Every final batch moves the time of the next reward. -/
  advances : ∀ x ∈ history (exec api) st cs, ClosesCycle api x.1 x.2 →
    x.1.nextReward < (commit (exec api) x.1 x.2).nextReward
  /-- By any time at most one cycle more is closed than periods have passed. -/
  counted : ∀ t, tally (exec api) (closedBy api t) st cs ≤ (t - st.nextReward) / st.period + 1
  /-- Before the first reward is due no cycle is closed. -/
  early : ∀ t, t < st.nextReward → tally (exec api) (closedBy api t) st cs = 0

section Steps

variable {api : Api} {c : Call} {st st' : Storage} {r : Response Cw20.ExecuteMsg}

theorem newStart_rewardPeriod (hrange : MovesInRange st) (env : Env) :
    (rewardPeriod st env).newStart =
      if st.nextReward < env.block.time then st.nextReward + st.period else st.nextReward := by
  rw [← show Timestamp.plusSeconds st.nextReward st.config.rewardPeriodicity =
    st.nextReward + st.period from Timestamp.plusSeconds_of_lt hrange]
  rfl

/-- A final batch at the time of the next reward leaves that time as it is. -/
theorem nextReward_of_closes_at (h : ClosesCycle api st c) (hat : c.env.block.time = st.nextReward) :
    (commit (exec api) st c).nextReward = st.nextReward := by
  obtain ⟨stakerList, clubName, isFirstBatch, hmsg⟩ := h.batch
  obtain ⟨r, hexec⟩ := exists_commit h.1
  rw [(schedule_of_batch hexec hmsg).2, if_pos rfl]
  exact if_neg hat.not_gt

/-- A final batch is not early, and moves the time of the next reward by a period, unless it
arrives at that very time. -/
theorem nextReward_of_closes (hrange : MovesInRange st) (h : ClosesCycle api st c) :
    st.nextReward ≤ c.env.block.time ∧ (commit (exec api) st c).nextReward =
      if st.nextReward < c.env.block.time then st.nextReward + st.period else st.nextReward := by
  obtain ⟨stakerList, clubName, isFirstBatch, hmsg⟩ := h.batch
  obtain ⟨r, hexec⟩ := exists_commit h.1
  obtain ⟨hadmitted, hnext⟩ := schedule_of_batch hexec hmsg
  refine ⟨hadmitted, ?_⟩
  rw [hnext, if_pos rfl, newStart_rewardPeriod hrange]

end Steps

section Runs

variable {api : Api} {st : Storage} {cs : List Call}

/-- **How far the schedule has moved.** When no final batch arrives at the time of the next reward,
each closed cycle has moved it by a period, and the last cycle closed by the time `t` was due
before `t`. -/
theorem run_paced
    (hrange : ∀ x ∈ history (exec api) st cs, ClosesCycle api x.1 x.2 → MovesInRange x.1)
    (h : ∀ x ∈ history (exec api) st cs, ClosesCycle api x.1 x.2 →
      x.2.env.block.time ≠ x.1.nextReward) (t : Timestamp) :
    (run (exec api) st cs).nextReward =
        st.nextReward + tally (exec api) (closed api) st cs * st.period ∧
      tally (exec api) (closedBy api t) st cs ≤ tally (exec api) (closed api) st cs ∧
      (tally (exec api) (closedBy api t) st cs = 0 ∨
        st.nextReward + (tally (exec api) (closedBy api t) st cs - 1) * st.period < t) := by
  induction cs using List.reverseRecOn with
  | nil => exact ⟨by simp, le_rfl, .inl rfl⟩
  | append_singleton cs c ih =>
    rw [history_snoc] at h hrange
    obtain ⟨hnext, hle, hlast⟩ := ih (fun x hx => hrange x (List.mem_append_left _ hx))
      fun x hx => h x (List.mem_append_left _ hx)
    have hmem : (run (exec api) st cs, c) ∈
        history (exec api) st cs ++ [(run (exec api) st cs, c)] :=
      List.mem_append_right _ (List.mem_singleton.mpr rfl)
    have hc := h _ hmem
    have hperiod : (run (exec api) st cs).period = st.period := by
      rw [Storage.period, run_config, Storage.period]
    rw [run_snoc, tally_snoc, tally_snoc, closedBy, closed]
    by_cases hcloses : ClosesCycle api (run (exec api) st cs) c
    · obtain ⟨hadmitted, hmoved⟩ := nextReward_of_closes (hrange _ hmem hcloses) hcloses
      have hlate : (run (exec api) st cs).nextReward < c.env.block.time :=
        lt_of_le_of_ne hadmitted (hc hcloses).symm
      rw [if_pos hlate, hperiod, hnext] at hmoved
      rw [if_pos hcloses, hmoved]
      refine ⟨?_, ?_, ?_⟩
      · rw [Nat.add_mul, Nat.one_mul, Nat.add_assoc]
      · split
        · omega
        · omega
      · split
        · rename_i ht
          -- as many cycles are closed by then as have moved the time that the batch was after
          have hmul := Nat.mul_le_mul_right st.period hle
          rw [hnext] at hlate
          rw [Nat.add_sub_cancel]
          exact .inr ((Nat.add_le_add_left hmul _).trans_lt (hlate.trans_le ht))
        · exact hlast
    · have hsame : (commit (exec api) (run (exec api) st cs) c).nextReward =
          (run (exec api) st cs).nextReward := by
        rcases commit_cases (exec api) (run (exec api) st cs) c with ⟨r, hr⟩ | ⟨-, hs⟩
        · exact nextReward_of_not_closes hr hcloses
        · rw [hs]
      rw [if_neg hcloses, ite_self, hsame]
      exact ⟨hnext, hle, hlast⟩

end Runs

/-- **Each period is closed once**, whatever the block times, in exactly the runs in which no final
batch is accepted at the very time of the next reward: of those in which the final batches move that
time within 64 bits. -/
theorem closesOnce_iff (api : Api) (st : Storage) (cs : List Call)
    (hperiodic : 0 < st.config.rewardPeriodicity)
    (hrange : ∀ x ∈ history (exec api) st cs, ClosesCycle api x.1 x.2 → MovesInRange x.1) :
    ClosesOnce api st cs ↔ ∀ x ∈ history (exec api) st cs, ClosesCycle api x.1 x.2 →
      x.2.env.block.time ≠ x.1.nextReward := by
  have hperiod : 0 < st.period := Nat.mul_pos hperiodic Timestamp.nanosPerSecond_pos
  constructor
  · intro hlaw x hx hcloses hat
    have hadvances := hlaw.advances x hx hcloses
    -- a batch at the very time of the next reward leaves that time as it was
    rw [nextReward_of_closes_at hcloses hat] at hadvances
    exact absurd hadvances (lt_irrefl _)
  · intro h
    refine ⟨fun x hx hcloses => ?_, fun t => ?_, fun t ht => ?_⟩
    · obtain ⟨hadmitted, hmoved⟩ := nextReward_of_closes (hrange x hx hcloses) hcloses
      have hlate := lt_of_le_of_ne hadmitted (h x hx hcloses).symm
      obtain ⟨ls, ls', -, hstate⟩ := mem_history hx
      have hx' : x.1.period = st.period := by
        rw [hstate, Storage.period, run_config, Storage.period]
      rw [hmoved, if_pos hlate, hx']
      exact Nat.lt_add_of_pos_right hperiod
    -- each closing before the last has moved the time by a period
    · obtain ⟨-, -, hlast⟩ := run_paced hrange h t
      rcases hlast with hzero | hlast
      · rw [hzero]
        exact Nat.zero_le _
      · have hle : tally (exec api) (closedBy api t) st cs - 1 ≤ (t - st.nextReward) / st.period := by
          rw [Nat.le_div_iff_mul_le hperiod]
          exact Nat.le_sub_of_add_le (by rw [Nat.add_comm]; exact hlast.le)
        exact Nat.sub_le_iff_le_add.mp hle
    -- before the first time for a reward nothing is closed
    · obtain ⟨-, -, hlast⟩ := run_paced hrange h t
      rcases hlast with hzero | hlast
      · exact hzero
      · exact absurd ((Nat.le_add_right _ _).trans_lt hlast) (lt_asymm ht)

namespace Sample

/-- A batch that opens a cycle and closes it. -/
def closing (t : ℕ) : Call :=
  call t "admin" (.calculateAndDistributeRewards ["owner"] "club" true true)

end Sample

open Sample in
/-- Two periods are closed once each. -/
theorem closesOnce_sample : ClosesOnce api storage (opened 10000 ++ [closing 101, closing 201]) :=
  (closesOnce_iff api storage _ (by decide +kernel) (by decide +kernel)).mpr (by decide +kernel)

open Sample in
/-- **A final batch at the very time of the next reward** leaves that time as it is. -/
theorem not_closesOnce :
    ¬ ∀ (api : Api) (st : Storage) (cs : List Call), Initial api st →
      0 < st.config.rewardPeriodicity → ClosesOnce api st cs := by
  intro h
  have hadvances := (h api storage (opened 10000 ++ [closing 100]) initial
    (by decide +kernel)).advances _ (mem_history_append storage (opened 10000) (closing 100) [])
    (by decide +kernel)
  exact absurd hadvances (by decide +kernel)

end Clubstaking
