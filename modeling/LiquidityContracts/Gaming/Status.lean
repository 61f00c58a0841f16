import LiquidityContracts.Gaming.Effect

/-!
# The status of the game

A game is open, then closed, then completed, and it may be cancelled before it is completed. The
status is one for all pools, and every batch of rewards sets it: the final batch of a pool completes
the game, and any other batch puts it back to closed, from where it may be cancelled. So the status
moves forward in the runs in which a completed game gets no batch but final ones, and in no others.

## Main definitions

* `MovesOn`: the steps that a status may take
* `MovesForward`: the law of a run
* `Reopens`: a batch that is not final, for a completed game

## Main results

* `Effect.movesOn`: one step moves the status on, if it meets the condition
* `movesForward_iff`: the law holds of the runs in which no completed game is reopened
* `not_movesForward`: a completed game that is cancelled
-/

namespace Gamingpool

open CosmWasm

/-- What the status of a game may be after a call. -/
inductive MovesOn : ℕ → ℕ → Prop
  | stays (n : ℕ) : MovesOn n n
  | locks : MovesOn gamePoolOpen gamePoolClosed
  | completes : MovesOn gamePoolClosed gameCompleted
  | cancels {n : ℕ} (h : n = gamePoolOpen ∨ n = gamePoolClosed) : MovesOn n gameCancelled

/-- The status of the game only moves forward in a run. -/
structure MovesForward (api : Api) (st : Storage) (cs : List Call) : Prop where
  /-- Each call leaves the status or moves it on. -/
  step : ∀ x ∈ history (exec api) st cs, ∃ old new, x.1.status = some old ∧
    (commit (exec api) x.1 x.2).status = some new ∧ MovesOn old new
  /-- A game that is completed or cancelled stays so. -/
  final : ∀ ls ls', ls ++ ls' <+: cs → ∀ n, n = gameCompleted ∨ n = gameCancelled →
    (run (exec api) st ls).status = some n → (run (exec api) st (ls ++ ls')).status = some n
  /-- A game that is not open any more stays so. -/
  closed : ∀ ls ls', ls ++ ls' <+: cs → (run (exec api) st ls).status ≠ some gamePoolOpen →
    (run (exec api) st (ls ++ ls')).status ≠ some gamePoolOpen

/-- Whether an entry is a batch of rewards that is not the final one. -/
def Entry.isOpenBatch : Entry → Bool
  | .execute _ (.gamePoolRewardDistribute _ _ isFinalBatch _ _) => !isFinalBatch
  | _ => false

/-- A batch that is not the final one of its pool, for a completed game. -/
def Reopens (st : Storage) (entry : Entry) : Prop :=
  st.status = some gameCompleted ∧ entry.isOpenBatch = true

instance (st : Storage) (entry : Entry) : Decidable (Reopens st entry) :=
  inferInstanceAs (Decidable (_ ∧ _))

/-- The game has one of the four statuses. -/
def Running (st : Storage) : Prop :=
  ∃ n, st.status = some n ∧
    (n = gamePoolOpen ∨ n = gamePoolClosed ∨ n = gameCancelled ∨ n = gameCompleted)

section Steps

variable {api : Api} {st st' : Storage} {entry : Entry} {old new : ℕ}

/-- **One effect** moves the status on, if it does not reopen a completed game. -/
theorem Effect.movesOn (h : Effect api st st' entry) (hr : Running st) (hn : ¬ Reopens st entry) :
    ∃ old new, st.status = some old ∧ st'.status = some new ∧ MovesOn old new := by
  obtain ⟨n, hstatus, hn'⟩ := hr
  have same : st'.status = st.status →
      ∃ old new, st.status = some old ∧ st'.status = some new ∧ MovesOn old new := by
    intro hsame
    exact ⟨n, n, hstatus, hsame.trans hstatus, .stays n⟩
  cases h with
  | keeps wallets slots hst =>
    apply same
    rw [hst]
    rfl
  | setsType poolType details hnone hst =>
    apply same
    rw [hst]
    rfl
  | cancels info status pools hentry hlive hopen hpools hst =>
    rw [hstatus] at hlive
    obtain rfl := Option.some.inj hlive
    have hnew : st'.status = some gameCancelled := by
      rw [hst]
      exact status_setGameStatus gameCancelled
    refine ⟨n, gameCancelled, hstatus, hnew, .cancels ?_⟩
    rcases hn' with hn' | hn' | hn' | hn'
    · exact .inl hn'
    · exact .inr hn'
    · exact absurd hn' hopen.2
    · exact absurd hn' hopen.1
  | locks info pools hentry hopen hpools hst =>
    have hnew : st'.status = some gamePoolClosed := by
      rw [hst]
      exact status_setGameStatus gamePoolClosed
    exact ⟨gamePoolOpen, gamePoolClosed, hopen, hnew, .locks⟩
  | creates info poolType hentry hopens =>
    obtain ⟨address, count, -, -, hst⟩ := hopens.created
    apply same
    rw [hst]
    rfl
  | bids info gamer poolType poolId teamId amount hentry hjoins =>
    obtain ⟨details, pool, -, -, -, -, hst⟩ := hjoins.joined
    apply same
    rw [hst]
    rfl
  | claimsRewards info gamer hentry hclaims =>
    obtain ⟨teams, hst⟩ := hclaims.rest
    apply same
    rw [hst]
    rfl
  | claimsRefunds info gamer hentry hclaims =>
    obtain ⟨teams, hst⟩ := hclaims.rest
    apply same
    rw [hst]
    rfl
  | distributes info poolId gameWinners isFinalBatch ustForRake gameId status pool teams slots
      hentry hlive hclosed hpool hteams hst =>
    rw [hstatus] at hlive
    obtain rfl := Option.some.inj hlive
    have hnew : st'.status = some (if isFinalBatch then gameCompleted else gamePoolClosed) := by
      rw [hst]
      exact status_setGameStatus _
    refine ⟨n, _, hstatus, hnew, ?_⟩
    rcases hn' with rfl | rfl | rfl | rfl
    · exact absurd rfl hclosed.2
    · cases isFinalBatch with
      | false => exact .stays gamePoolClosed
      | true => exact .completes
    · exact absurd rfl hclosed.1
    · cases isFinalBatch with
      | false =>
        -- this batch is the one that the condition excludes
        rw [hentry] at hn
        exact absurd ⟨hstatus, rfl⟩ hn
      | true => exact .stays gameCompleted

/-- What an effect moves on is one of the four statuses again. -/
theorem MovesOn.running (h : MovesOn old new)
    (hold : old = gamePoolOpen ∨ old = gamePoolClosed ∨ old = gameCancelled ∨ old = gameCompleted) :
    new = gamePoolOpen ∨ new = gamePoolClosed ∨ new = gameCancelled ∨ new = gameCompleted := by
  cases h with
  | stays => exact hold
  | locks => exact .inr (.inl rfl)
  | completes => exact .inr (.inr (.inr rfl))
  | cancels => exact .inr (.inr (.inl rfl))

/-- A batch that is not the final one leaves the game closed. -/
theorem status_of_isOpenBatch {c : Call} {r : Response Payload}
    (h : exec api st c = some (st', r)) (hbatch : c.entry.isOpenBatch = true) :
    st'.status = some gamePoolClosed := by
  unfold Entry.isOpenBatch at hbatch
  split at hbatch
  · rename_i info poolId gameWinners isFinalBatch ustForRake gameId hentry
    obtain ⟨pool, teams, total, -, -, hst⟩ := (exec_batch hentry h).distributed
    have hfinal : isFinalBatch = false := by simpa using hbatch
    rw [hst, hfinal]
    exact status_setGameStatus gamePoolClosed
  · cases hbatch

theorem running_of_initial (h : Initial api st) : Running st :=
  ⟨gamePoolOpen, h.spec.1, .inl rfl⟩

/-- A call moves the status on, if it is rejected or does not reopen a completed game. -/
theorem commit_movesOn {c : Call} (hr : Running st)
    (hn : (exec api st c).isSome → ¬ Reopens st c.entry) : ∃ old new, st.status = some old ∧
      (commit (exec api) st c).status = some new ∧ MovesOn old new := by
  rcases commit_cases (exec api) st c with ⟨r, hexec⟩ | ⟨-, hsame⟩
  · exact (exec_effect hexec).movesOn hr (hn (by rw [hexec]; rfl))
  · obtain ⟨n, hstatus, -⟩ := hr
    rw [hsame]
    exact ⟨n, n, hstatus, hstatus, .stays n⟩

/-- What no step of the status ends is there after a run, if it is there before. -/
theorem run_status {Q : ℕ → Prop} (hQ : ∀ old new, MovesOn old new → Q old → Q new)
    {cs : List Call} (hr : Running st) (hst : ∀ n, st.status = some n → Q n)
    (hn : ∀ x ∈ history (exec api) st cs, (exec api x.1 x.2).isSome → ¬ Reopens x.1 x.2.entry) :
    Running (run (exec api) st cs) ∧ ∀ n, (run (exec api) st cs).status = some n → Q n := by
  refine run_invariant (I := fun s => Running s ∧ ∀ n, s.status = some n → Q n)
    (P := fun s c => (exec api s c).isSome → ¬ Reopens s c.entry) ?_ ⟨hr, hst⟩ hn
  rintro s c s' r ⟨hs, hq⟩ hc hexec
  obtain ⟨old, new, hold, hnew, hmoves⟩ := (exec_effect hexec).movesOn hs (hc (by rw [hexec]; rfl))
  obtain ⟨n, hn, hfour⟩ := hs
  rw [hold] at hn
  obtain rfl := Option.some.inj hn
  refine ⟨⟨new, hnew, hmoves.running hfour⟩, fun m hm => ?_⟩
  rw [hnew] at hm
  obtain rfl := Option.some.inj hm
  exact hQ old new hmoves (hq old hold)

end Steps

/-- No step leads out of the statuses that end a game. -/
theorem MovesOn.eq_of_final {old new : ℕ} (h : MovesOn old new)
    (hold : old = gameCompleted ∨ old = gameCancelled) : new = old := by
  cases h with
  | stays => rfl
  | locks => revert hold; decide
  | completes => revert hold; decide
  | cancels h =>
    rcases h with rfl | rfl
    · revert hold; decide
    · revert hold; decide

/-- No step leads back to an open game. -/
theorem MovesOn.ne_open {old new : ℕ} (h : MovesOn old new) (hold : old ≠ gamePoolOpen) :
    new ≠ gamePoolOpen := by
  cases h with
  | stays => exact hold
  | locks => decide
  | completes => decide
  | cancels => decide

/-- **The status of the game only moves forward** in exactly the runs in which no batch but a final
one is accepted for a completed game. -/
theorem movesForward_iff (api : Api) (st : Storage) (cs : List Call) (hinit : Initial api st) :
    MovesForward api st cs ↔ ∀ x ∈ history (exec api) st cs, (exec api x.1 x.2).isSome →
      ¬ Reopens x.1 x.2.entry := by
  constructor
  · rintro hlaw x hx haccepted ⟨hcompleted, hbatch⟩
    obtain ⟨r, hexec⟩ := exists_commit haccepted
    obtain ⟨old, new, hold, hnew, hmoves⟩ := hlaw.step x hx
    rw [hcompleted] at hold
    obtain rfl := Option.some.inj hold
    obtain rfl := hmoves.eq_of_final (.inl rfl)
    -- a batch that is not the final one leaves the game closed
    rw [status_of_isOpenBatch hexec hbatch] at hnew
    exact absurd hnew (by decide)
  · intro h
    have hearlier : ∀ ls ls', ls ++ ls' <+: cs →
        (∀ x ∈ history (exec api) st ls, (exec api x.1 x.2).isSome → ¬ Reopens x.1 x.2.entry) ∧
        ∀ x ∈ history (exec api) (run (exec api) st ls) ls', (exec api x.1 x.2).isSome →
          ¬ Reopens x.1 x.2.entry := by
      rintro ls ls' ⟨rest, rfl⟩
      rw [history_append, history_append] at h
      exact ⟨fun x hx => h x (List.mem_append_left _ (List.mem_append_left _ hx)),
        fun x hx => h x (List.mem_append_left _ (List.mem_append_right _ hx))⟩
    have hrunning : ∀ ls, (∀ x ∈ history (exec api) st ls, (exec api x.1 x.2).isSome →
        ¬ Reopens x.1 x.2.entry) → Running (run (exec api) st ls) := by
      intro ls hls
      exact (run_status (Q := fun _ => True) (fun _ _ _ _ => trivial) (running_of_initial hinit)
        (fun _ _ => trivial) hls).1
    refine ⟨fun x hx => ?_, fun ls ls' hls n hn hstatus => ?_, fun ls ls' hls hstatus => ?_⟩
    · obtain ⟨ls, ls', rfl, hstate⟩ := mem_history hx
      have hbefore := (hearlier ls (x.2 :: ls') (List.prefix_refl _)).1
      refine commit_movesOn ?_ (h x hx)
      rw [hstate]
      exact hrunning ls hbefore
    · obtain ⟨hbefore, hafter⟩ := hearlier ls ls' hls
      obtain ⟨⟨m, hm, -⟩, hkept⟩ := run_status (Q := fun m => m = n)
        (fun old new hmoves hold => (hmoves.eq_of_final (hold ▸ hn)).trans hold)
        (hrunning ls hbefore) (fun m hm => Option.some.inj (hm.symm.trans hstatus)) hafter
      rw [run_append, hm, hkept m hm]
    · obtain ⟨hbefore, hafter⟩ := hearlier ls ls' hls
      have hkept := (run_status (Q := fun m => m ≠ gamePoolOpen)
        (fun old new hmoves hold => hmoves.ne_open hold) (hrunning ls hbefore)
        (fun m hm heq => hstatus (hm.trans (congrArg some heq))) hafter).2
      rw [run_append]
      exact fun hopen => hkept gamePoolOpen hopen rfl

namespace Sample

def cancel : Call := call "admin" 0 .cancelGame

/-- The final batch of a pool. -/
def complete (poolId : String) (winners : List GameResult) : Call :=
  call "admin" 0 (.gamePoolRewardDistribute poolId winners true 0 "game")

/-- Two pools of two teams each, in a game that is locked. -/
def played : List Call :=
  [setType "duel" 10000, create "duel", create "duel", bid "alice" "duel" "1" "lions" 10000,
    bid "bob" "duel" "1" "bears" 10000, bid "alice" "duel" "2" "lions" 10000,
    bid "bob" "duel" "2" "bears" 10000, lock]

end Sample

open Sample in
/-- Each pool gets a batch, and then its final one when no other pool waits for a batch. -/
theorem movesForward_played :
    MovesForward api storage (played ++ [batch "1" [⟨"alice", "lions", 5000⟩],
      batch "2" [⟨"bob", "bears", 5000⟩], complete "1" [], complete "2" [], cancel]) :=
  (movesForward_iff api storage _ initial).mpr (by decide +kernel)

open Sample in
/-- **A completed game is cancelled**: a batch for the second pool reopens it. -/
theorem not_movesForward :
    ¬ ∀ (api : Api) (st : Storage) (cs : List Call), Initial api st → MovesForward api st cs := by
  intro h
  have hfinal := (h api storage ((played ++ [complete "1" [⟨"alice", "lions", 5000⟩]]) ++
    [batch "2" [⟨"bob", "bears", 5000⟩], cancel]) initial).final _ _ (List.prefix_refl _)
    gameCompleted (.inl rfl) (by decide +kernel)
  exact absurd hfinal (by decide +kernel)

end Gamingpool
