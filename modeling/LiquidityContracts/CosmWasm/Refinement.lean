import LiquidityContracts.CosmWasm.Run
import LiquidityContracts.CosmWasm.Exec

/-!
# Refinement of computations and of machines

A computation refines another when both succeed together, with results that correspond, or fail
together and in the same way. A machine is simulated by another when what an input does to its state
is done to the state that corresponds to it by inputs of the other, one after the other. What holds
of all runs of the other machine then holds of its runs.

## Main definitions

* `liftError f x`: the computation `x` with its errors converted
* `Refines f abs x y`: the computation `x` refines `y`
* `trace labels s ls`: the inputs of another machine that a run goes through

## Main results

* `Refines.bind`: sequences of computations refine each other part by part
* `run_trace`: the other machine runs through the states that correspond
* `run_of_acceptAll`: inputs that are all accepted are a run
* `foldlM_of_acceptAll`: messages take effect as the inputs that they stand for do
* `history_trace`, `tally_trace`: what is said of its inputs, and summed up over them, is said and
  summed up over the run
-/

namespace CosmWasm

/-! ## Computations -/

section Computations

variable {ε ε' α β γ δ : Type} {f : ε → ε'}

/-- A fault with its error converted. -/
def Fault.map (f : ε → ε') : Fault ε → Fault ε'
  | .err e => .err (f e)
  | .panic => .panic

/-- A computation with its errors converted, as `?` does. -/
def liftError (f : ε → ε') : Exec ε α → Exec ε' α
  | .ok a => .ok a
  | .error e => .error (e.map f)

theorem liftError_eq_ok {x : Exec ε α} {a : α} : liftError f x = .ok a ↔ x = .ok a := by
  cases x with
  | ok b => exact ⟨fun h => congrArg Except.ok (Except.ok.inj h), fun h => by rw [h]; rfl⟩
  | error e => exact ⟨nofun, nofun⟩

/-- A computation succeeds when the other does, with a result that corresponds, and fails when the
other does, with the error that corresponds. -/
def Refines (f : ε → ε') (abs : α → β) (x : Exec ε' α) (y : Exec ε β) : Prop :=
  Except.map abs x = liftError f y

namespace Refines

variable {abs : α → β} {abs' : γ → δ} {x : Exec ε' α} {y : Exec ε β}

theorem of_ok (h : Refines f abs x y) {a : α} (hx : x = .ok a) : y = .ok (abs a) := by
  rw [Refines, hx] at h
  cases y with
  | ok b => exact congrArg Except.ok (Except.ok.inj h).symm
  | error e => cases h

theorem exists_ok (h : Refines f abs x y) {b : β} (hy : y = .ok b) :
    ∃ a, x = .ok a ∧ abs a = b := by
  rw [Refines, hy] at h
  cases x with
  | ok a => exact ⟨a, rfl, Except.ok.inj h⟩
  | error e => cases h

theorem ok {a : α} {b : β} (h : abs a = b) : Refines f abs (.ok a) (.ok b) :=
  congrArg Except.ok h

theorem error (e : Fault ε) : Refines f abs (.error (e.map f)) (.error e) := rfl

theorem fail (e : ε) : Refines f abs (fail (f e)) (fail e) := rfl

/-- Two guards with one condition. -/
theorem provided {p : Prop} [Decidable p] (e : Fault ε) (v : α) :
    Refines f id (provided p (e.map f) v) (provided p e v) := by
  unfold CosmWasm.provided
  split
  · rfl
  · rfl

theorem refuse (p : Prop) [Decidable p] (e : ε) :
    Refines f id (refuse p (f e)) (refuse p e) :=
  provided (.err e) ()

/-- **The rule for sequences.** -/
theorem bind {g : α → Exec ε' γ} {g' : β → Exec ε δ} (h : Refines f abs x y)
    (hnext : ∀ a, x = .ok a → Refines f abs' (g a) (g' (abs a))) :
    Refines f abs' (x >>= g) (y >>= g') := by
  cases x with
  | ok a =>
    rw [h.of_ok rfl]
    exact hnext a rfl
  | error e =>
    cases y with
    | ok b => cases h
    | error e' =>
      cases h
      rfl

/-- The rule for sequences whose first parts have one result. -/
theorem bind_id {x : Exec ε' α} {y : Exec ε α} {g : α → Exec ε' γ} {g' : α → Exec ε δ}
    (h : Refines f id x y) (hnext : ∀ a, x = .ok a → Refines f abs' (g a) (g' a)) :
    Refines f abs' (x >>= g) (y >>= g') :=
  bind h hnext

theorem ite (p : Prop) [Decidable p] {x' : Exec ε' α} {y' : Exec ε β} (h : Refines f abs x y)
    (h' : Refines f abs x' y') : Refines f abs (if p then x else x') (if p then y else y') := by
  split
  · exact h
  · exact h'

section Std

variable [OfStdError ε] [OfStdError ε'] (hf : ∀ e : StdError, f (OfStdError.std e) = OfStdError.std e)

include hf

theorem liftStd (z : Except StdError α) : Refines f id (liftStd z) (liftStd z) := by
  cases z with
  | ok a => rfl
  | error e =>
    change Refines f id (CosmWasm.fail (OfStdError.std e)) (CosmWasm.fail (OfStdError.std e))
    rw [← hf]
    exact fail _

theorem load (kind : String) (o : Option α) :
    Refines f id (load kind o) (load kind o) := by
  cases o with
  | some a => rfl
  | none =>
    rw [CosmWasm.load, CosmWasm.load, ← hf]
    exact fail _

theorem checkedSub (a b : ℕ) :
    Refines f id (Uint128.checkedSub a b) (Uint128.checkedSub a b) := by
  rw [Uint128.checkedSub, ← hf]
  exact provided (.err _) _

end Std

theorem add (a b : ℕ) : Refines f id (Uint128.add a b) (Uint128.add a b) :=
  provided .panic _

end Refines

end Computations

/-! ## Machines -/

section Machines

variable {σ ℓ ρ τ ℓ' ρ' : Type} (exec : σ → ℓ → Option (σ × ρ)) {exec' : τ → ℓ' → Option (τ × ρ')}

/-- The inputs of another machine that the inputs of a run stand for. -/
def trace (labels : σ → ℓ → List ℓ') (s : σ) (ls : List ℓ) : List ℓ' :=
  (history exec s ls).flatMap fun x => labels x.1 x.2

variable {exec} {labels : σ → ℓ → List ℓ'} {g : σ → τ} {s : σ} {ls : List ℓ}

theorem trace_append (ls' : List ℓ) : trace exec labels s (ls ++ ls') =
    trace exec labels s ls ++ trace exec labels (run exec s ls) ls' := by
  simp [trace, history_append]

@[simp] theorem trace_snoc (l : ℓ) : trace exec labels s (ls ++ [l]) =
    trace exec labels s ls ++ labels (run exec s ls) l := by
  rw [trace_append]
  simp [trace]

/-- **The simulation rule.** Where what an input does is done by the inputs that it stands for, what
a run does is done by those of the run. -/
theorem run_trace
    (step : ∀ x ∈ history exec s ls, run exec' (g x.1) (labels x.1 x.2) = g (commit exec x.1 x.2)) :
    run exec' (g s) (trace exec labels s ls) = g (run exec s ls) := by
  induction ls using List.reverseRecOn with
  | nil => rfl
  | append_singleton ls l ih =>
    rw [history_snoc] at step
    rw [trace_snoc, run_append, ih fun x hx => step x (List.mem_append_left _ hx), run_snoc]
    exact step (run exec s ls, l) (List.mem_append_right _ List.mem_cons_self)

/-- The other machine receives its inputs in the states that correspond to those of the run. -/
theorem history_trace
    (step : ∀ x ∈ history exec s ls, run exec' (g x.1) (labels x.1 x.2) = g (commit exec x.1 x.2))
    {y : τ × ℓ'} (hy : y ∈ history exec' (g s) (trace exec labels s ls)) :
    ∃ x ∈ history exec s ls, y ∈ history exec' (g x.1) (labels x.1 x.2) := by
  induction ls using List.reverseRecOn with
  | nil => cases hy
  | append_singleton ls l ih =>
    rw [history_snoc] at step ⊢
    have hbefore := fun x hx => step x (List.mem_append_left _ hx)
    rw [trace_snoc, history_append, run_trace hbefore] at hy
    rcases List.mem_append.mp hy with hy | hy
    · obtain ⟨x, hx, hxy⟩ := ih hbefore hy
      exact ⟨x, List.mem_append_left _ hx, hxy⟩
    · exact ⟨_, List.mem_append_right _ List.mem_cons_self, hy⟩

/-- What is summed up over the inputs of the other machine is summed up over the run. -/
theorem tally_trace {f : σ → ℓ → ℕ} {f' : τ → ℓ' → ℕ}
    (step : ∀ x ∈ history exec s ls, run exec' (g x.1) (labels x.1 x.2) = g (commit exec x.1 x.2))
    (hf : ∀ x ∈ history exec s ls, tally exec' f' (g x.1) (labels x.1 x.2) = f x.1 x.2) :
    tally exec' f' (g s) (trace exec labels s ls) = tally exec f s ls := by
  induction ls using List.reverseRecOn with
  | nil => rfl
  | append_singleton ls l ih =>
    rw [history_snoc] at step hf
    have hbefore := fun x hx => step x (List.mem_append_left _ hx)
    have hlast := hf (run exec s ls, l) (List.mem_append_right _ List.mem_cons_self)
    rw [trace_snoc, tally_append, run_trace hbefore, tally_snoc,
      ih hbefore fun x hx => hf x (List.mem_append_left _ hx), hlast]

/-! ### Inputs that are all accepted -/

@[simp] theorem acceptAll_nil (s : σ) : acceptAll exec s [] = some s := rfl

theorem acceptAll_cons {s s' : σ} {l : ℓ} {ls : List ℓ} : acceptAll exec s (l :: ls) = some s' ↔
    ∃ mid r, exec s l = some (mid, r) ∧ acceptAll exec mid ls = some s' := by
  simp only [acceptAll, List.foldlM_cons, Option.bind_eq_bind, Option.bind_eq_some_iff,
    Option.map_eq_some_iff]
  constructor
  · rintro ⟨mid, ⟨⟨x, r⟩, hexec, rfl⟩, h⟩
    exact ⟨x, r, hexec, h⟩
  · rintro ⟨mid, r, hexec, h⟩
    exact ⟨mid, ⟨(mid, r), hexec, rfl⟩, h⟩

theorem acceptAll_append {s s' : σ} {ls ls' : List ℓ} :
    acceptAll exec s (ls ++ ls') = some s' ↔
      ∃ mid, acceptAll exec s ls = some mid ∧ acceptAll exec mid ls' = some s' := by
  rw [acceptAll, List.foldlM_append, Option.bind_eq_bind, Option.bind_eq_some_iff]
  exact Iff.rfl

/-- Inputs that are all accepted are a run, each of whose inputs is accepted. -/
theorem run_of_acceptAll {s s' : σ} {ls : List ℓ} (h : acceptAll exec s ls = some s') :
    run exec s ls = s' ∧ ∀ x ∈ history exec s ls, (exec x.1 x.2).isSome := by
  induction ls generalizing s with
  | nil =>
    cases h
    exact ⟨rfl, nofun⟩
  | cons l ls ih =>
    obtain ⟨mid, r, hexec, h⟩ := acceptAll_cons.mp h
    rw [run_cons, history_cons, commit_of_some hexec]
    obtain ⟨hrun, haccepted⟩ := ih h
    refine ⟨hrun, fun x hx => ?_⟩
    rcases List.mem_cons.mp hx with rfl | hx
    · exact Option.isSome_of_eq_some hexec
    · exact haccepted x hx

section Messages

variable {μ : Type} {label : μ → Option ℓ} {ms : List μ} {ls : List ℓ}

/-- Every input that messages stand for is that of one of them. -/
theorem exists_of_mapM (h : ms.mapM label = some ls) {l : ℓ} (hl : l ∈ ls) :
    ∃ m ∈ ms, label m = some l := by
  induction ms generalizing ls with
  | nil =>
    cases h
    cases hl
  | cons m ms ih =>
    simp only [List.mapM_cons, Option.pure_def, Option.bind_eq_bind, Option.bind_eq_some_iff] at h
    obtain ⟨l', hl', rest, hrest, h⟩ := h
    cases h
    rcases List.mem_cons.mp hl with rfl | hl
    · exact ⟨m, List.mem_cons_self, hl'⟩
    · obtain ⟨m', hm', hlabel⟩ := ih hrest hl
      exact ⟨m', List.mem_cons_of_mem _ hm', hlabel⟩

/-- Messages take effect one after the other when the inputs that they stand for are accepted. -/
theorem foldlM_of_acceptAll {apply : τ → μ → Option τ}
    (step : ∀ s m l s' r, label m = some l → exec s l = some (s', r) → apply (g s) m = some (g s'))
    {s s' : σ} (h : ms.mapM label = some ls) (hs : acceptAll exec s ls = some s') :
    ms.foldlM apply (g s) = some (g s') := by
  induction ms generalizing s ls with
  | nil =>
    cases h
    cases hs
    rfl
  | cons m ms ih =>
    simp only [List.mapM_cons, Option.pure_def, Option.bind_eq_bind, Option.bind_eq_some_iff] at h
    obtain ⟨l, hl, rest, hrest, h⟩ := h
    cases h
    obtain ⟨mid, r, hexec, hs⟩ := acceptAll_cons.mp hs
    rw [List.foldlM_cons, step s m l mid r hl hexec]
    exact ih hrest hs

end Messages

end Machines

end CosmWasm
