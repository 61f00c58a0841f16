import Mathlib

/-!
# Runs of a machine that reverts what it rejects

A machine answers an input in a state with a new state and a response, or rejects it; a rejected
input leaves the state as it was. Every list of inputs is therefore a run. What a run has done so
far is read off its history, the inputs with the states that received them.

## Main definitions

* `commit exec s l`: the state after the input `l`
* `run exec s ls`: the state after the inputs `ls`
* `history exec s ls`: the inputs of a run with the states before them
* `tally exec f s ls`: the sum of `f` over the history
* `since exec p f s ls`: the sum of `f` over the history after the last input that meets `p`
* `lastSome exec f s ls`: the last value that `f` has in the history
* `acceptAll exec s ls`: the state after inputs that are all accepted
* `Along P ls`: every input of the list meets `P` with the inputs before it

## Main results

* `run_invariant`, `run_preserves`: what every accepted input preserves holds after every run
* `run_mark`: what an input sets and none removes is there at the end
* `foldlM_perm`: steps that commute may be taken in any order
* `pairwise_of_mark`: where inputs of some kind find no mark and set one, there is one at most
* `tally_add_le`, `tally_add_eq`: a ledger that every input keeps is kept by a run
* `run_le_tally`, `le_run_add_tally`: a quantity that grows or falls by at most `f` at each input is
  bounded by the tally
-/

namespace CosmWasm

variable {σ ℓ ρ : Type} (exec : σ → ℓ → Option (σ × ρ))

/-- The state after one input: the new state when it is accepted, the old one otherwise. -/
def commit (s : σ) (l : ℓ) : σ := ((exec s l).map Prod.fst).getD s

/-- The state after a list of inputs. -/
def run (s : σ) (ls : List ℓ) : σ := ls.foldl (commit exec) s

/-- The inputs of a run, each with the state that received it. -/
def history : σ → List ℓ → List (σ × ℓ)
  | _, [] => []
  | s, l :: ls => (s, l) :: history (commit exec s l) ls

/-- The sum of `f` over the history of a run. -/
def tally (f : σ → ℓ → ℕ) (s : σ) (ls : List ℓ) : ℕ :=
  ((history exec s ls).map fun x => f x.1 x.2).sum

/-- The sum of `f` over the inputs of a run that come after the last one to meet `p`. -/
def since (p : σ → ℓ → Prop) [∀ s l, Decidable (p s l)] (f : σ → ℓ → ℕ) (s : σ) (ls : List ℓ) : ℕ :=
  (history exec s ls).foldl (fun n x => if p x.1 x.2 then 0 else n + f x.1 x.2) 0

/-- The last value that `f` has in the history of a run. -/
def lastSome {β : Type} (f : σ → ℓ → Option β) (s : σ) (ls : List ℓ) : Option β :=
  (history exec s ls).foldl (fun b x => (f x.1 x.2).or b) none

/-- The state after a list of inputs that are all accepted; `none` when one of them is rejected. -/
def acceptAll (s : σ) (ls : List ℓ) : Option σ :=
  ls.foldlM (fun s l => (exec s l).map Prod.fst) s

/-- Every input of a list meets `P` with the list of the inputs before it. -/
def Along (P : List ℓ → ℓ → Prop) (ls : List ℓ) : Prop :=
  ∀ i : Fin ls.length, P (ls.take i) (ls.get i)

instance (P : List ℓ → ℓ → Prop) [∀ before l, Decidable (P before l)] (ls : List ℓ) :
    Decidable (Along P ls) :=
  inferInstanceAs (Decidable (∀ i : Fin ls.length, P (ls.take i) (ls.get i)))

variable {exec}

theorem commit_of_some {s s' : σ} {l : ℓ} {r : ρ} (h : exec s l = some (s', r)) :
    commit exec s l = s' := by
  simp [commit, h]

theorem commit_of_none {s : σ} {l : ℓ} (h : exec s l = none) : commit exec s l = s := by
  simp [commit, h]

variable (exec) in
/-- An input is accepted, or it leaves the state unchanged. -/
theorem commit_cases (s : σ) (l : ℓ) :
    (∃ r, exec s l = some (commit exec s l, r)) ∨ exec s l = none ∧ commit exec s l = s := by
  cases h : exec s l with
  | none => exact .inr ⟨rfl, commit_of_none h⟩
  | some x => exact .inl ⟨x.2, by rw [commit_of_some h]⟩

/-- An accepted input is committed. -/
theorem exists_commit {s : σ} {l : ℓ} (h : (exec s l).isSome) :
    ∃ r, exec s l = some (commit exec s l, r) := by
  obtain ⟨⟨s', r⟩, h⟩ := Option.isSome_iff_exists.mp h
  exact ⟨r, by rw [commit_of_some h, h]⟩

@[simp] theorem run_nil (s : σ) : run exec s [] = s := rfl

@[simp] theorem run_cons (s : σ) (l : ℓ) (ls : List ℓ) :
    run exec s (l :: ls) = run exec (commit exec s l) ls := rfl

theorem run_append (s : σ) (ls ls' : List ℓ) :
    run exec s (ls ++ ls') = run exec (run exec s ls) ls' :=
  List.foldl_append

@[simp] theorem run_snoc (s : σ) (ls : List ℓ) (l : ℓ) :
    run exec s (ls ++ [l]) = commit exec (run exec s ls) l :=
  run_append s ls [l]

@[simp] theorem history_nil (s : σ) : history exec s [] = [] := rfl

@[simp] theorem history_cons (s : σ) (l : ℓ) (ls : List ℓ) :
    history exec s (l :: ls) = (s, l) :: history exec (commit exec s l) ls := rfl

theorem history_append (s : σ) (ls ls' : List ℓ) :
    history exec s (ls ++ ls') = history exec s ls ++ history exec (run exec s ls) ls' := by
  induction ls generalizing s with
  | nil => rfl
  | cons l ls ih => simp [ih]

@[simp] theorem history_snoc (s : σ) (ls : List ℓ) (l : ℓ) :
    history exec s (ls ++ [l]) = history exec s ls ++ [(run exec s ls, l)] :=
  history_append s ls [l]

/-- What a run has received when it goes on is still there. -/
theorem history_subset {s : σ} {ls ls' : List ℓ} (h : ls <+: ls') :
    history exec s ls ⊆ history exec s ls' := by
  obtain ⟨rest, rfl⟩ := h
  rw [history_append]
  exact List.subset_append_left _ _

@[simp] theorem tally_nil (f : σ → ℓ → ℕ) (s : σ) : tally exec f s [] = 0 := rfl

@[simp] theorem tally_singleton (f : σ → ℓ → ℕ) (s : σ) (l : ℓ) : tally exec f s [l] = f s l :=
  List.sum_singleton

@[simp] theorem tally_snoc (f : σ → ℓ → ℕ) (s : σ) (ls : List ℓ) (l : ℓ) :
    tally exec f s (ls ++ [l]) = tally exec f s ls + f (run exec s ls) l := by
  simp [tally]

theorem tally_append (f : σ → ℓ → ℕ) (s : σ) (ls ls' : List ℓ) :
    tally exec f s (ls ++ ls') = tally exec f s ls + tally exec f (run exec s ls) ls' := by
  simp [tally, history_append]

theorem tally_add (f g : σ → ℓ → ℕ) (s : σ) (ls : List ℓ) :
    tally exec (fun s l => f s l + g s l) s ls = tally exec f s ls + tally exec g s ls :=
  List.sum_map_add

@[simp] theorem since_nil (p : σ → ℓ → Prop) [∀ s l, Decidable (p s l)] (f : σ → ℓ → ℕ) (s : σ) :
    since exec p f s [] = 0 := rfl

@[simp] theorem since_snoc (p : σ → ℓ → Prop) [∀ s l, Decidable (p s l)] (f : σ → ℓ → ℕ) (s : σ)
    (ls : List ℓ) (l : ℓ) : since exec p f s (ls ++ [l]) =
      if p (run exec s ls) l then 0 else since exec p f s ls + f (run exec s ls) l := by
  rw [since, history_snoc, List.foldl_append]
  rfl

/-- Along inputs that do not meet `p` the sum goes on. -/
theorem since_append {p : σ → ℓ → Prop} [∀ s l, Decidable (p s l)] (f : σ → ℓ → ℕ) (s : σ)
    (ls : List ℓ) {ls' : List ℓ} (h : ∀ x ∈ history exec (run exec s ls) ls', ¬ p x.1 x.2) :
    since exec p f s (ls ++ ls') = since exec p f s ls + tally exec f (run exec s ls) ls' := by
  induction ls' using List.reverseRecOn with
  | nil => simp
  | append_singleton ls' l ih =>
    rw [history_snoc] at h
    have hlast : ¬ p (run exec (run exec s ls) ls') l :=
      h (_, l) (List.mem_append_right _ List.mem_cons_self)
    rw [← List.append_assoc, since_snoc, run_append, if_neg hlast, tally_snoc,
      ih fun x hx => h x (List.mem_append_left _ hx), Nat.add_assoc]

@[simp] theorem lastSome_nil {β : Type} (f : σ → ℓ → Option β) (s : σ) :
    lastSome exec f s [] = none := rfl

@[simp] theorem lastSome_snoc {β : Type} (f : σ → ℓ → Option β) (s : σ) (ls : List ℓ) (l : ℓ) :
    lastSome exec f s (ls ++ [l]) = (f (run exec s ls) l).or (lastSome exec f s ls) := by
  rw [lastSome, history_snoc, List.foldl_append]
  rfl

/-- There is a last value when there is any. -/
theorem lastSome_isSome {β : Type} {f : σ → ℓ → Option β} {s : σ} {ls : List ℓ} :
    (lastSome exec f s ls).isSome ↔ ∃ x ∈ history exec s ls, (f x.1 x.2).isSome := by
  induction ls using List.reverseRecOn with
  | nil => simp
  | append_singleton ls l ih =>
    rw [lastSome_snoc, history_snoc, Option.isSome_or, Bool.or_eq_true, ih]
    constructor
    · rintro (h | ⟨x, hx, h⟩)
      · exact ⟨_, List.mem_append_right _ List.mem_cons_self, h⟩
      · exact ⟨x, List.mem_append_left _ hx, h⟩
    · rintro ⟨x, hx, h⟩
      rcases List.mem_append.mp hx with hx | hx
      · exact .inr ⟨x, hx, h⟩
      · obtain rfl := List.mem_singleton.mp hx
        exact .inl h

/-- The last value comes from an input after which there is none. -/
theorem lastSome_eq_some {β : Type} {f : σ → ℓ → Option β} {s : σ} {ls : List ℓ} {b : β}
    (h : lastSome exec f s ls = some b) :
    ∃ before l after, ls = before ++ l :: after ∧ f (run exec s before) l = some b ∧
      ∀ x ∈ history exec (run exec s (before ++ [l])) after, f x.1 x.2 = none := by
  induction ls using List.reverseRecOn with
  | nil => cases h
  | append_singleton ls l ih =>
    rw [lastSome_snoc] at h
    rcases Option.or_eq_some_iff.mp h with hl | ⟨hnone, hls⟩
    · exact ⟨ls, l, [], rfl, hl, nofun⟩
    · obtain ⟨before, l', after, rfl, hl', hafter⟩ := ih hls
      refine ⟨before, l', after ++ [l], by simp, hl', fun x hx => ?_⟩
      rw [history_snoc] at hx
      rcases List.mem_append.mp hx with hx | hx
      · exact hafter x hx
      -- the new input is received by the state after all before it
      · rw [List.append_cons, run_append] at hnone
        rw [List.mem_singleton.mp hx]
        exact hnone

/-- What inputs set, and nothing else changes, is as it was set last. -/
theorem run_eq_lastSome {β : Type} {f : σ → ℓ → Option β} {g : σ → Option β}
    (step : ∀ s l, g (commit exec s l) = (f s l).or (g s)) (s : σ) (ls : List ℓ) :
    g (run exec s ls) = (lastSome exec f s ls).or (g s) := by
  induction ls using List.reverseRecOn with
  | nil => rfl
  | append_singleton ls l ih => rw [run_snoc, step, ih, lastSome_snoc, Option.or_assoc]

theorem along_iff {P : List ℓ → ℓ → Prop} {ls : List ℓ} :
    Along P ls ↔ ∀ before l after, ls = before ++ l :: after → P before l := by
  constructor
  · rintro h before l after rfl
    have hat := h ⟨before.length, by simp⟩
    simpa using hat
  · intro h i
    refine h _ _ (ls.drop (i + 1)) ?_
    rw [List.get_eq_getElem, List.getElem_cons_drop, List.take_append_drop]

@[simp] theorem along_nil (P : List ℓ → ℓ → Prop) : Along P [] := fun i => i.elim0

@[simp] theorem along_snoc {P : List ℓ → ℓ → Prop} {ls : List ℓ} {l : ℓ} :
    Along P (ls ++ [l]) ↔ Along P ls ∧ P ls l := by
  rw [along_iff, along_iff]
  constructor
  · intro h
    refine ⟨fun before l' after hls => h before l' (after ++ [l]) ?_, h ls l [] rfl⟩
    rw [hls, List.append_assoc, List.cons_append]
  · rintro ⟨h, hlast⟩ before l' after hls
    -- the input is the last one, or one of those before it
    rcases List.eq_nil_or_concat after with rfl | ⟨after, l'', rfl⟩
    · obtain ⟨rfl, hl⟩ := List.append_inj' hls rfl
      cases hl
      exact hlast
    · refine h before l' after ?_
      rw [List.concat_eq_append, ← List.cons_append, ← List.append_assoc] at hls
      exact (List.append_inj' hls rfl).1

theorem along_append {P : List ℓ → ℓ → Prop} {ls ls' : List ℓ} :
    Along P (ls ++ ls') ↔ Along P ls ∧ Along (fun before l => P (ls ++ before) l) ls' := by
  induction ls' using List.reverseRecOn with
  | nil => simp
  | append_singleton ls' l ih => rw [← List.append_assoc, along_snoc, along_snoc, ih, and_assoc]

/-- Inputs received along a run are those received by one of its states. -/
theorem mem_history {s : σ} {ls : List ℓ} {x : σ × ℓ} (h : x ∈ history exec s ls) :
    ∃ ls₁ ls₂, ls = ls₁ ++ x.2 :: ls₂ ∧ x.1 = run exec s ls₁ := by
  induction ls generalizing s with
  | nil => cases h
  | cons l ls ih =>
    rcases List.mem_cons.mp h with rfl | h
    · exact ⟨[], ls, rfl, rfl⟩
    · obtain ⟨ls₁, ls₂, rfl, hx⟩ := ih h
      exact ⟨l :: ls₁, ls₂, rfl, hx⟩

theorem mem_history_append (s : σ) (ls : List ℓ) (l : ℓ) (ls' : List ℓ) :
    (run exec s ls, l) ∈ history exec s (ls ++ l :: ls') := by
  rw [history_append]
  exact List.mem_append_right _ List.mem_cons_self

theorem label_mem {s : σ} {ls : List ℓ} {x : σ × ℓ} (h : x ∈ history exec s ls) : x.2 ∈ ls := by
  obtain ⟨ls₁, ls₂, rfl, -⟩ := mem_history h
  simp

theorem tally_congr {f g : σ → ℓ → ℕ} {s : σ} {ls : List ℓ}
    (h : ∀ x ∈ history exec s ls, f x.1 x.2 = g x.1 x.2) :
    tally exec f s ls = tally exec g s ls := by
  rw [tally, List.map_congr_left h, tally]

theorem tally_le_tally {f g : σ → ℓ → ℕ} {s : σ} {ls : List ℓ}
    (h : ∀ x ∈ history exec s ls, f x.1 x.2 ≤ g x.1 x.2) :
    tally exec f s ls ≤ tally exec g s ls :=
  List.sum_le_sum h

theorem tally_eq_zero {f : σ → ℓ → ℕ} {s : σ} {ls : List ℓ}
    (h : ∀ x ∈ history exec s ls, f x.1 x.2 = 0) : tally exec f s ls = 0 := by
  refine List.sum_eq_zero fun n hn => ?_
  obtain ⟨x, hx, rfl⟩ := List.mem_map.mp hn
  exact h x hx

/-- What one input counts is part of the tally. -/
theorem le_tally {f : σ → ℓ → ℕ} {s : σ} {ls : List ℓ} {x : σ × ℓ} (hx : x ∈ history exec s ls) :
    f x.1 x.2 ≤ tally exec f s ls :=
  List.single_le_sum (fun _ _ => Nat.zero_le _) _ (List.mem_map_of_mem hx)

/-- The sum over all entries that the inputs of a run make. -/
theorem tally_eq_sum_flatMap {β : Type} (f : σ → ℓ → List β) (w : β → ℕ) (s : σ) (ls : List ℓ) :
    tally exec (fun s l => ((f s l).map w).sum) s ls =
      (((history exec s ls).flatMap fun x => f x.1 x.2).map w).sum := by
  rw [List.map_flatMap, List.flatMap_def, List.sum_flatten, List.map_map]
  rfl

/-- Steps that may fail and that commute may be taken in any order. -/
theorem foldlM_perm {α : Type} {f : σ → α → Option σ}
    (comm : ∀ s a b, (f s a).bind (fun s => f s b) = (f s b).bind fun s => f s a)
    {l l' : List α} (h : l.Perm l') (s : σ) : l.foldlM f s = l'.foldlM f s := by
  induction h generalizing s with
  | nil => rfl
  | cons a _ ih =>
    rw [List.foldlM_cons, List.foldlM_cons]
    exact congrArg _ (funext ih)
  | swap a b l =>
    simp only [List.foldlM_cons, Option.bind_eq_bind]
    rw [← Option.bind_assoc, ← Option.bind_assoc, comm]
  | trans _ _ ih ih' => exact (ih s).trans (ih' s)

/-- **The invariant rule.** What every accepted input that meets `P` preserves holds after every
run whose inputs all meet `P`. -/
theorem run_invariant {I : σ → Prop} {P : σ → ℓ → Prop}
    (step : ∀ s l s' r, I s → P s l → exec s l = some (s', r) → I s') {s : σ} (init : I s)
    {ls : List ℓ} (hP : ∀ x ∈ history exec s ls, P x.1 x.2) : I (run exec s ls) := by
  induction ls generalizing s with
  | nil => exact init
  | cons l ls ih =>
    have hcommit : I (commit exec s l) := by
      rcases commit_cases exec s l with ⟨r, hr⟩ | ⟨-, hs⟩
      · exact step s l _ r init (hP (s, l) (by simp)) hr
      · rwa [hs]
    exact ih hcommit fun x hx => hP x (by simp [hx])

/-- What every accepted input preserves holds after every run. -/
theorem run_preserves {I : σ → Prop} (step : ∀ s l s' r, I s → exec s l = some (s', r) → I s')
    {s : σ} (init : I s) (ls : List ℓ) : I (run exec s ls) :=
  run_invariant (P := fun _ _ => True) (fun s l s' r hs _ h => step s l s' r hs h) init
    fun _ _ => trivial

/-- The states of such a run have the invariant. -/
theorem history_invariant {I : σ → Prop} {P : σ → ℓ → Prop}
    (step : ∀ s l s' r, I s → P s l → exec s l = some (s', r) → I s') {s : σ} (init : I s)
    {ls : List ℓ} (hP : ∀ x ∈ history exec s ls, P x.1 x.2) :
    ∀ x ∈ history exec s ls, I x.1 := by
  rintro x hx
  obtain ⟨ls₁, ls₂, rfl, hrun⟩ := mem_history hx
  rw [hrun]
  exact run_invariant step init fun y hy => hP y (history_subset (List.prefix_append _ _) hy)

/-- A mark that an input of some kind sets, and that no accepted input removes, is there after
every run with an input of that kind. -/
theorem run_mark {P : σ → ℓ → Prop} {M : σ → Prop} (set : ∀ s l, P s l → M (commit exec s l))
    (keep : ∀ s l s' r, M s → exec s l = some (s', r) → M s') {s : σ} {ls : List ℓ}
    (h : ∃ x ∈ history exec s ls, P x.1 x.2) : M (run exec s ls) := by
  induction ls using List.reverseRecOn with
  | nil =>
    obtain ⟨x, hx, -⟩ := h
    cases hx
  | append_singleton ls l ih =>
    rw [run_snoc]
    obtain ⟨x, hx, hP⟩ := h
    rw [history_snoc] at hx
    -- the mark was there before the last input, or is set by it
    rcases List.mem_append.mp hx with hx | hx
    · rcases commit_cases exec (run exec s ls) l with ⟨r, hr⟩ | ⟨-, hs⟩
      · exact keep _ l _ r (ih ⟨x, hx, hP⟩) hr
      · rw [hs]
        exact ih ⟨x, hx, hP⟩
    · obtain rfl := List.mem_singleton.mp hx
      exact set _ _ hP

/-- **The rule for what happens once.** Where inputs of some kind find no mark and set one, and no
accepted input removes it, no two inputs of a run are of that kind. -/
theorem pairwise_of_mark {P : σ → ℓ → Prop} {M : σ → Prop}
    (set : ∀ s l, P s l → ¬ M s ∧ M (commit exec s l))
    (keep : ∀ s l s' r, M s → exec s l = some (s', r) → M s') (s : σ) (ls : List ℓ) :
    (history exec s ls).Pairwise fun x y => ¬ (P x.1 x.2 ∧ P y.1 y.2) := by
  induction ls using List.reverseRecOn with
  | nil => exact .nil
  | append_singleton ls l ih =>
    rw [history_snoc, List.pairwise_append]
    refine ⟨ih, List.pairwise_singleton _ _, fun x hx y hy => ?_⟩
    obtain rfl := List.mem_singleton.mp hy
    rintro ⟨hbefore, hnow⟩
    exact (set _ _ hnow).1 (run_mark (fun s l h => (set s l h).2) keep ⟨x, hx, hbefore⟩)

/-- **The ledger rule.** What a run gives out and what is left at the end is no more than what there
was and what the run has taken in, where this is so at each input. -/
theorem tally_add_le {q : σ → ℕ} {given taken : σ → ℓ → ℕ} {s : σ} {ls : List ℓ}
    (step : ∀ x ∈ history exec s ls,
      given x.1 x.2 + q (commit exec x.1 x.2) ≤ q x.1 + taken x.1 x.2) :
    tally exec given s ls + q (run exec s ls) ≤ q s + tally exec taken s ls := by
  induction ls using List.reverseRecOn with
  | nil => simp
  | append_singleton ls l ih =>
    rw [history_snoc] at step
    have hbefore := ih fun x hx => step x (List.mem_append_left _ hx)
    have hlast := step (run exec s ls, l) (List.mem_append_right _ List.mem_cons_self)
    dsimp only at hlast
    rw [run_snoc, tally_snoc, tally_snoc]
    omega

/-- The ledger rule, where nothing is lost. -/
theorem tally_add_eq {q : σ → ℕ} {given taken : σ → ℓ → ℕ} {s : σ} {ls : List ℓ}
    (step : ∀ x ∈ history exec s ls,
      given x.1 x.2 + q (commit exec x.1 x.2) = q x.1 + taken x.1 x.2) :
    tally exec given s ls + q (run exec s ls) = q s + tally exec taken s ls := by
  induction ls using List.reverseRecOn with
  | nil => simp
  | append_singleton ls l ih =>
    rw [history_snoc] at step
    have hbefore := ih fun x hx => step x (List.mem_append_left _ hx)
    have hlast := step (run exec s ls, l) (List.mem_append_right _ List.mem_cons_self)
    dsimp only at hlast
    rw [run_snoc, tally_snoc, tally_snoc]
    omega

/-- A quantity that each input lowers by at most `f` is lowered by at most the tally of `f`. -/
theorem le_run_add_tally {q : σ → ℕ} {f : σ → ℓ → ℕ}
    (step : ∀ s l, q s ≤ q (commit exec s l) + f s l) (s : σ) (ls : List ℓ) :
    q s ≤ q (run exec s ls) + tally exec f s ls := by
  induction ls using List.reverseRecOn with
  | nil => exact Nat.le_add_right _ _
  | append_singleton ls l ih =>
    have hlast := step (run exec s ls) l
    rw [run_snoc, tally_snoc]
    omega

/-- A quantity that each accepted input raises by at most `f` is bounded by its first value and
the tally of `f`. -/
theorem run_le_tally {q : σ → ℕ} {f : σ → ℓ → ℕ} {I : σ → Prop}
    (step : ∀ s l s' r, I s → exec s l = some (s', r) → I s' ∧ q s' ≤ q s + f s l)
    {s : σ} (init : I s) (ls : List ℓ) :
    I (run exec s ls) ∧ q (run exec s ls) ≤ q s + tally exec f s ls := by
  induction ls using List.reverseRecOn with
  | nil => exact ⟨init, by simp⟩
  | append_singleton ls l ih =>
    rw [run_snoc, tally_snoc]
    rcases commit_cases exec (run exec s ls) l with ⟨r, hr⟩ | ⟨-, hs⟩
    · obtain ⟨hI, hq⟩ := step _ _ _ _ ih.1 hr
      exact ⟨hI, by omega⟩
    · rw [hs]
      exact ⟨ih.1, by omega⟩

end CosmWasm
