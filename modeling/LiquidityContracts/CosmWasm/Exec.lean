import Mathlib

/-!
# Calls that may be reverted

A contract handler returns a value, an error of its own, or panics; the chain answers the last
two alike, by reverting the call. Integers are natural numbers, and every operation whose result
may leave the type's range says what the machine does there: the operators of `Uint128` panic,
its `checked_` methods return an error, and those of the machine integers wrap around.

## Main definitions

* `Exec ε α`: a computation of `α` that fails with an error in `ε` or panics
* `refuse p e`: return the error `e` when `p` holds
* `Uint128`: the checked operations of the library's integers
* `Uint64`, `Uint32`, `Int128`, `Timestamp`: the wrapping operations of the machine integers

## Main results

* `bind_eq_ok`, `refuse_eq_ok` and the `_eq_ok` lemmas of the operations: a computation
  succeeds exactly when each of its steps does
* `Uint64.add_of_lt`, `Timestamp.plusSeconds_of_lt` and their like: where nothing wraps, the
  machine integers compute as the natural numbers do
* `foldlM_remaining`, `foldlM_entries`: the rules for loops
-/

namespace CosmWasm

/-- Why a call is reverted: the error its handler returned, or a panic. -/
inductive Fault (ε : Type) where
  | err (e : ε)
  | panic
  deriving DecidableEq, Repr

/-- A computation that returns an `α`, an error or a panic. -/
abbrev Exec (ε α : Type) := Except (Fault ε) α

/-- The errors of the standard library a handler may pass on. -/
inductive StdError where
  | genericErr (msg : String)
  | notFound (kind : String)
  | overflow
  | divideByZero
  deriving DecidableEq, Repr

/-- The error types into which `?` converts a `StdError`. -/
class OfStdError (ε : Type) where
  std : StdError → ε

instance : OfStdError StdError := ⟨id⟩

section Control

variable {ε α β : Type}

/-- The value `v` when `p` holds, and the fault `f` otherwise. -/
def provided (p : Prop) [Decidable p] (f : Fault ε) (v : α) : Exec ε α :=
  if p then .ok v else .error f

/-- `return Err(e)`. -/
def fail (e : ε) : Exec ε α := .error (.err e)

/-- `return Err(StdError::generic_err(msg))`. -/
def failGeneric [OfStdError ε] (msg : String) : Exec ε α :=
  fail (OfStdError.std (.genericErr msg))

/-- `if p { return Err(e) }`. -/
def refuse (p : Prop) [Decidable p] (e : ε) : Exec ε Unit := provided (¬ p) (.err e) ()

/-- `if p { return Err(StdError::generic_err(msg)) }`. -/
def refuseGeneric [OfStdError ε] (p : Prop) [Decidable p] (msg : String) : Exec ε Unit :=
  refuse p (OfStdError.std (.genericErr msg))

/-- `load` of a stored value, which fails where nothing is stored. -/
def load [OfStdError ε] (kind : String) : Option α → Exec ε α
  | some a => .ok a
  | none => fail (OfStdError.std (.notFound kind))

/-- `?` on a result of the standard library. -/
def liftStd [OfStdError ε] : Except StdError α → Exec ε α
  | .ok a => .ok a
  | .error e => fail (OfStdError.std e)

theorem provided_eq_ok {p : Prop} [Decidable p] {f : Fault ε} {v r : α} :
    provided p f v = .ok r ↔ p ∧ r = v := by
  by_cases hp : p
  · simp [provided, hp, eq_comm]
  · simp [provided, hp]

theorem provided_eq_error {p : Prop} [Decidable p] {f e : Fault ε} {v : α} :
    provided p f v = .error e ↔ ¬ p ∧ e = f := by
  by_cases hp : p
  · simp [provided, hp]
  · simp [provided, hp, eq_comm]

@[simp] theorem fail_ne_ok (e : ε) (a : α) : ¬ fail e = (.ok a : Exec ε α) := by
  intro h
  cases h

@[simp] theorem failGeneric_ne_ok [OfStdError ε] (msg : String) (a : α) :
    ¬ failGeneric msg = (.ok a : Exec ε α) :=
  fail_ne_ok _ _

/-- A sequence succeeds exactly when both its parts do. -/
theorem bind_eq_ok {x : Exec ε α} {f : α → Exec ε β} {b : β} :
    (x >>= f) = .ok b ↔ ∃ a, x = .ok a ∧ f a = .ok b := by
  cases x with
  | error e =>
    constructor
    · intro h
      cases h
    · rintro ⟨a, h, -⟩
      cases h
  | ok a =>
    constructor
    · intro h
      exact ⟨a, rfl, h⟩
    · rintro ⟨a', h, h'⟩
      cases h
      exact h'

/-- A sequence fails as its first part does, or as the second does after it. -/
theorem bind_eq_error {x : Exec ε α} {f : α → Exec ε β} {e : Fault ε} :
    (x >>= f) = .error e ↔ x = .error e ∨ ∃ a, x = .ok a ∧ f a = .error e := by
  cases x with
  | error e' =>
    constructor
    · intro h
      cases h
      exact .inl rfl
    · rintro (h | ⟨a, h, -⟩)
      · cases h
        rfl
      · cases h
  | ok a =>
    constructor
    · intro h
      exact .inr ⟨a, rfl, h⟩
    · rintro (h | ⟨a', h, h'⟩)
      · cases h
      · cases h
        exact h'

theorem bind_of_eq_ok {x : Exec ε α} {f : α → Exec ε β} {a : α} (h : x = .ok a) :
    (x >>= f) = f a := by
  rw [h]
  rfl

theorem pure_eq_ok {a b : α} : (pure a : Exec ε α) = .ok b ↔ a = b :=
  Except.ok.injEq a b ▸ Iff.rfl

theorem refuse_eq_ok {p : Prop} [Decidable p] {e : ε} {u : Unit} :
    refuse p e = .ok u ↔ ¬ p := by
  rw [refuse, provided_eq_ok]
  exact and_iff_left rfl

/-- A guarded sequence succeeds exactly when the guard passes and the rest succeeds. -/
theorem refuse_bind_eq_ok {p : Prop} [Decidable p] {e : ε} {f : Unit → Exec ε β} {b : β} :
    (refuse p e >>= f) = .ok b ↔ ¬ p ∧ f () = .ok b := by
  rw [bind_eq_ok]
  constructor
  · rintro ⟨u, hu, hf⟩
    exact ⟨refuse_eq_ok.mp hu, hf⟩
  · rintro ⟨hp, hf⟩
    exact ⟨(), refuse_eq_ok.mpr hp, hf⟩

theorem refuseGeneric_bind_eq_ok [OfStdError ε] {p : Prop} [Decidable p] {msg : String}
    {f : Unit → Exec ε β} {b : β} :
    (refuseGeneric p msg >>= f) = .ok b ↔ ¬ p ∧ f () = .ok b :=
  refuse_bind_eq_ok

/-- A guard that passes leaves the rest. -/
theorem refuse_bind_of_not {p : Prop} [Decidable p] {e : ε} {f : Unit → Exec ε β} (h : ¬ p) :
    (refuse p e >>= f) = f () :=
  bind_of_eq_ok (refuse_eq_ok.mpr h)

theorem refuseGeneric_bind_of_not [OfStdError ε] {p : Prop} [Decidable p] {msg : String}
    {f : Unit → Exec ε β} (h : ¬ p) : (refuseGeneric p msg >>= f) = f () :=
  refuse_bind_of_not h

/-- A sequence succeeds when its first part does, and the rest after it. -/
theorem exists_bind_eq_ok {x : Exec ε α} {f : α → Exec ε β} :
    (∃ b, (x >>= f) = .ok b) ↔ ∃ a, x = .ok a ∧ ∃ b, f a = .ok b := by
  constructor
  · rintro ⟨b, h⟩
    obtain ⟨a, ha, hb⟩ := bind_eq_ok.mp h
    exact ⟨a, ha, b, hb⟩
  · rintro ⟨a, ha, b, hb⟩
    exact ⟨b, bind_eq_ok.mpr ⟨a, ha, hb⟩⟩

theorem exists_refuse_bind_eq_ok {p : Prop} [Decidable p] {e : ε} {f : Unit → Exec ε β} :
    (∃ b, (refuse p e >>= f) = .ok b) ↔ ¬ p ∧ ∃ b, f () = .ok b := by
  simp only [refuse_bind_eq_ok, exists_and_left]

/-- A sequence whose second part never fails succeeds when its first part does. -/
theorem exists_bind_pure_eq_ok {x : Exec ε α} {f : α → β} :
    (∃ b, (x >>= fun a => pure (f a)) = .ok b) ↔ ∃ a, x = .ok a := by
  rw [exists_bind_eq_ok]
  constructor
  · rintro ⟨a, ha, -⟩
    exact ⟨a, ha⟩
  · rintro ⟨a, ha⟩
    exact ⟨a, ha, _, rfl⟩

theorem load_eq_ok [OfStdError ε] {kind : String} {o : Option α} {a : α} :
    (load kind o : Exec ε α) = .ok a ↔ o = some a := by
  cases o with
  | none => simp [load]
  | some b => simp [load]

theorem liftStd_eq_ok [OfStdError ε] {x : Except StdError α} {a : α} :
    (liftStd x : Exec ε α) = .ok a ↔ x = .ok a := by
  cases x with
  | error e => simp [liftStd]
  | ok b => simp [liftStd]

@[simp] theorem toOption_eq_some {x : Exec ε α} {a : α} : x.toOption = some a ↔ x = .ok a := by
  cases x with
  | error e => simp [Except.toOption]
  | ok b => simp [Except.toOption]

/-- **The rule for loops.** An invariant of the variables and of the rounds that remain, which
every round preserves, holds after a loop that succeeds. -/
theorem foldlM_remaining {I : List α → β → Prop} {f : β → α → Exec ε β} {l : List α} {b b' : β}
    (step : ∀ a l b b', I (a :: l) b → f b a = .ok b' → I l b') (init : I l b)
    (h : l.foldlM f b = .ok b') : I [] b' := by
  induction l generalizing b with
  | nil =>
    cases h
    exact init
  | cons a l ih =>
    rw [List.foldlM_cons] at h
    obtain ⟨b₁, hround, h⟩ := bind_eq_ok.mp h
    exact ih (step a l b b₁ init hround) h

theorem foldlM_invariant {I : β → Prop} {f : β → α → Exec ε β} {l : List α} {b b' : β}
    (step : ∀ a b b', I b → f b a = .ok b' → I b') (init : I b)
    (h : l.foldlM f b = .ok b') : I b' :=
  foldlM_remaining (I := fun _ b => I b) (fun a _ => step a) init h

/-- A loop whose rounds all succeed, under what each keeps, succeeds. -/
theorem foldlM_succeeds {I : List α → β → Prop} {f : β → α → Exec ε β} {l : List α} {b : β}
    (round : ∀ a l b, I (a :: l) b → ∃ b', f b a = .ok b' ∧ I l b') (init : I l b) :
    ∃ b', l.foldlM f b = .ok b' := by
  induction l generalizing b with
  | nil => exact ⟨b, rfl⟩
  | cons a l ih =>
    obtain ⟨b₁, hround, hb₁⟩ := round a l b init
    obtain ⟨b', hrest⟩ := ih hb₁
    refine ⟨b', ?_⟩
    rw [List.foldlM_cons, bind_of_eq_ok hround]
    exact hrest

/-- A loop fails as one of its rounds does. -/
theorem foldlM_error {P : Fault ε → Prop} {f : β → α → Exec ε β} {l : List α} {b : β}
    {e : Fault ε} (round : ∀ b a e, f b a = .error e → P e) (h : l.foldlM f b = .error e) :
    P e := by
  induction l generalizing b with
  | nil => cases h
  | cons a l ih =>
    rw [List.foldlM_cons] at h
    rcases bind_eq_error.mp h with hround | ⟨b₁, -, hrest⟩
    · exact round b a e hround
    · exact ih hrest

/-- A loop whose rounds add amounts adds up their sum, and succeeds when it is in range. -/
theorem foldlM_adds {bound : ℕ} {f : ℕ → α → Exec ε ℕ} {w : α → ℕ} {l : List α} {n m : ℕ}
    (round : ∀ a ∈ l, ∀ n m, n < bound → (f n a = .ok m ↔ m = n + w a ∧ m < bound))
    (hn : n < bound) : l.foldlM f n = .ok m ↔ m = n + (l.map w).sum ∧ m < bound := by
  induction l generalizing n with
  | nil =>
    constructor
    · intro h
      cases h
      exact ⟨rfl, hn⟩
    · rintro ⟨rfl, -⟩
      rfl
  | cons a l ih =>
    obtain ⟨hround, hrounds⟩ := List.forall_mem_cons.mp round
    rw [List.foldlM_cons, bind_eq_ok, List.map_cons, List.sum_cons, ← Nat.add_assoc]
    constructor
    · rintro ⟨b, hb, h⟩
      obtain ⟨rfl, hlt⟩ := (hround n b hn).mp hb
      exact (ih hrounds hlt).mp h
    -- the sum never falls, so it is in range in every round when it is at the end
    · rintro ⟨rfl, hm⟩
      have hlt : n + w a < bound := (Nat.le_add_right _ _).trans_lt hm
      exact ⟨n + w a, (hround n _ hn).mpr ⟨rfl, hlt⟩, (ih hrounds hlt).mpr ⟨rfl, hm⟩⟩

/-- A loop whose rounds check something and add amounts that wrap around succeeds when all checks
hold, and its sum wraps around once. -/
theorem foldlM_wraps {bound : ℕ} {f : ℕ → α → Exec ε ℕ} {G : α → Prop} {w : α → ℕ} {l : List α}
    {n m : ℕ}
    (round : ∀ a ∈ l, ∀ n m, n < bound → (f n a = .ok m ↔ G a ∧ m = (n + w a) % bound))
    (hn : n < bound) :
    l.foldlM f n = .ok m ↔ (∀ a ∈ l, G a) ∧ m = (n + (l.map w).sum) % bound := by
  induction l generalizing n with
  | nil =>
    rw [List.map_nil, List.sum_nil, Nat.add_zero, Nat.mod_eq_of_lt hn]
    constructor
    · intro h
      cases h
      exact ⟨nofun, rfl⟩
    · rintro ⟨-, rfl⟩
      rfl
  | cons a l ih =>
    obtain ⟨hround, hrounds⟩ := List.forall_mem_cons.mp round
    have hlt : (n + w a) % bound < bound := Nat.mod_lt _ ((Nat.zero_le n).trans_lt hn)
    have hrest := ih hrounds hlt
    rw [Nat.mod_add_mod, Nat.add_assoc] at hrest
    rw [List.foldlM_cons, bind_eq_ok, List.map_cons, List.sum_cons, List.forall_mem_cons]
    constructor
    · rintro ⟨b, hb, h⟩
      obtain ⟨ha, rfl⟩ := (hround n b hn).mp hb
      obtain ⟨hl, hm⟩ := hrest.mp h
      exact ⟨⟨ha, hl⟩, hm⟩
    · rintro ⟨⟨ha, hl⟩, hm⟩
      exact ⟨_, (hround n _ hn).mpr ⟨ha, rfl⟩, hrest.mpr ⟨hl, hm⟩⟩

section Entries

variable {κ ν : Type} (get : β → κ → ν) {f : β → κ → Exec ε β} {l : List κ} {b b' : β}

/-- **The rule for loops over distinct keys.** When every round rewrites the entry under its key
and no other, the loop rewrites each entry under its keys once. -/
theorem foldlM_entries {R : κ → ν → ν → Prop}
    (step : ∀ k b b', f b k = .ok b' → R k (get b k) (get b' k) ∧ ∀ a, a ≠ k → get b' a = get b a)
    (hl : l.Nodup) (h : l.foldlM f b = .ok b') (a : κ) :
    (a ∈ l → R a (get b a) (get b' a)) ∧ (a ∉ l → get b' a = get b a) := by
  induction l generalizing b with
  | nil =>
    cases h
    exact ⟨nofun, fun _ => rfl⟩
  | cons k l ih =>
    rw [List.foldlM_cons] at h
    obtain ⟨b₁, hround, h⟩ := bind_eq_ok.mp h
    obtain ⟨hk, hl⟩ := List.nodup_cons.mp hl
    obtain ⟨hR, hother⟩ := step k b b₁ hround
    obtain ⟨hin, hout⟩ := ih hl h
    refine ⟨fun ha => ?_, fun ha => ?_⟩
    · rcases List.mem_cons.mp ha with rfl | ha
      · -- the later rounds do not come back to the first key
        rw [hout hk]
        exact hR
      · rw [← hother a fun hak => hk (hak ▸ ha)]
        exact hin ha
    · rw [hout fun hal => ha (List.mem_cons_of_mem k hal)]
      exact hother a fun hak => ha (hak ▸ List.mem_cons_self)

/-- What such a loop sums up is the sum over the entries before it. -/
theorem foldlM_entries_sum (sum : β → ℕ) {w : κ → ν → ℕ}
    (step : ∀ k b b', f b k = .ok b' →
      sum b' = sum b + w k (get b k) ∧ ∀ a, a ≠ k → get b' a = get b a)
    (hl : l.Nodup) (h : l.foldlM f b = .ok b') :
    sum b' = sum b + (l.map fun k => w k (get b k)).sum := by
  induction l generalizing b with
  | nil =>
    cases h
    rfl
  | cons k l ih =>
    rw [List.foldlM_cons] at h
    obtain ⟨b₁, hround, h⟩ := bind_eq_ok.mp h
    obtain ⟨hk, hl⟩ := List.nodup_cons.mp hl
    obtain ⟨hsum, hother⟩ := step k b b₁ hround
    have hsame : (l.map fun a => w a (get b₁ a)) = l.map fun a => w a (get b a) :=
      List.map_congr_left fun a ha => by rw [hother a fun hak => hk (hak ▸ ha)]
    rw [ih hl h, hsame, hsum, List.map_cons, List.sum_cons, Nat.add_assoc]

end Entries

end Control

/-! ## Integers -/

namespace Uint128

variable {ε : Type}

/-- One more than the largest `Uint128`. -/
def bound : ℕ := 2 ^ 128

/-- `a + b`. -/
def add (a b : ℕ) : Exec ε ℕ := provided (a + b < bound) .panic (a + b)

/-- `a - b`. -/
def sub (a b : ℕ) : Exec ε ℕ := provided (b ≤ a) .panic (a - b)

/-- `a * b`. -/
def mul (a b : ℕ) : Exec ε ℕ := provided (a * b < bound) .panic (a * b)

/-- `a / b`. -/
def div (a b : ℕ) : Exec ε ℕ := provided (b ≠ 0) .panic (a / b)

/-- `a.checked_add(b)?`. -/
def checkedAdd [OfStdError ε] (a b : ℕ) : Exec ε ℕ :=
  provided (a + b < bound) (.err (OfStdError.std .overflow)) (a + b)

/-- `a.checked_sub(b)?`. -/
def checkedSub [OfStdError ε] (a b : ℕ) : Exec ε ℕ :=
  provided (b ≤ a) (.err (OfStdError.std .overflow)) (a - b)

/-- `a.checked_mul(b)?`. -/
def checkedMul [OfStdError ε] (a b : ℕ) : Exec ε ℕ :=
  provided (a * b < bound) (.err (OfStdError.std .overflow)) (a * b)

/-- `a.checked_div(b)?`. -/
def checkedDiv [OfStdError ε] (a b : ℕ) : Exec ε ℕ :=
  provided (b ≠ 0) (.err (OfStdError.std .divideByZero)) (a / b)

/-- `a.checked_mul(b).unwrap_or_default()`. -/
def mulOrZero (a b : ℕ) : ℕ := if a * b < bound then a * b else 0

/-- `a.checked_div(b).unwrap_or_default()`. -/
def divOrZero (a b : ℕ) : ℕ := if b = 0 then 0 else a / b

theorem add_eq_ok {a b c : ℕ} : (add a b : Exec ε ℕ) = .ok c ↔ a + b < bound ∧ c = a + b :=
  provided_eq_ok

theorem sub_eq_ok {a b c : ℕ} : (sub a b : Exec ε ℕ) = .ok c ↔ b ≤ a ∧ c = a - b :=
  provided_eq_ok

theorem mul_eq_ok {a b c : ℕ} : (mul a b : Exec ε ℕ) = .ok c ↔ a * b < bound ∧ c = a * b :=
  provided_eq_ok

theorem div_eq_ok {a b c : ℕ} : (div a b : Exec ε ℕ) = .ok c ↔ b ≠ 0 ∧ c = a / b :=
  provided_eq_ok

theorem checkedAdd_eq_ok [OfStdError ε] {a b c : ℕ} :
    (checkedAdd a b : Exec ε ℕ) = .ok c ↔ a + b < bound ∧ c = a + b :=
  provided_eq_ok

theorem checkedSub_eq_ok [OfStdError ε] {a b c : ℕ} :
    (checkedSub a b : Exec ε ℕ) = .ok c ↔ b ≤ a ∧ c = a - b :=
  provided_eq_ok

theorem checkedMul_eq_ok [OfStdError ε] {a b c : ℕ} :
    (checkedMul a b : Exec ε ℕ) = .ok c ↔ a * b < bound ∧ c = a * b :=
  provided_eq_ok

theorem checkedDiv_eq_ok [OfStdError ε] {a b c : ℕ} :
    (checkedDiv a b : Exec ε ℕ) = .ok c ↔ b ≠ 0 ∧ c = a / b :=
  provided_eq_ok

/-- Summing up a list with `+=`. -/
theorem foldlM_add_eq_ok {α : Type} {f : α → ℕ} {l : List α} {a c : ℕ}
    (h : (l.foldlM (fun sum x => add sum (f x)) a : Exec ε ℕ) = .ok c) :
    c = a + (l.map f).sum := by
  induction l generalizing a with
  | nil =>
    cases h
    rfl
  | cons x l ih =>
    rw [List.foldlM_cons] at h
    obtain ⟨b, hb, h⟩ := bind_eq_ok.mp h
    rw [ih h, (add_eq_ok.mp hb).2, List.map_cons, List.sum_cons, Nat.add_assoc]

theorem mulOrZero_le (a b : ℕ) : mulOrZero a b ≤ a * b := by
  unfold mulOrZero
  split
  · exact le_rfl
  · exact Nat.zero_le _

@[simp] theorem divOrZero_eq (a b : ℕ) : divOrZero a b = a / b := by
  unfold divOrZero
  split
  · rename_i h
    simp [h]
  · rfl

end Uint128

/-! ## Machine integers

The operators of Rust's own integer types wrap around, since the contracts are built without
overflow checks. -/

namespace Uint64

/-- One more than the largest `u64`. -/
def bound : ℕ := 2 ^ 64

theorem bound_pos : 0 < bound := Nat.pow_pos Nat.two_pos

/-- `a + b`, modulo the bound. -/
def add (a b : ℕ) : ℕ := (a + b) % bound

/-- `a - b`, modulo the bound. -/
def sub (a b : ℕ) : ℕ := (a + (bound - b % bound)) % bound

/-- `a * b`, modulo the bound. -/
def mul (a b : ℕ) : ℕ := a * b % bound

theorem add_of_lt {a b : ℕ} (h : a + b < bound) : add a b = a + b := Nat.mod_eq_of_lt h

theorem add_le (a b : ℕ) : add a b ≤ a + b := Nat.mod_le _ _

theorem mul_of_lt {a b : ℕ} (h : a * b < bound) : mul a b = a * b := Nat.mod_eq_of_lt h

theorem mul_le (a b : ℕ) : mul a b ≤ a * b := Nat.mod_le _ _

/-- Where nothing is borrowed, the difference is the natural one. -/
theorem sub_eq_mod {a b : ℕ} (h : b ≤ a) : sub a b = (a - b) % bound := by
  have hb : b % bound ≤ bound := (Nat.mod_lt b bound_pos).le
  -- both differ from the complement of `b` by multiples of the bound
  have hsum : a + (bound - b % bound) = a - b + bound * (b / bound + 1) := by
    have hdiv := Nat.mod_add_div b bound
    rw [Nat.mul_add, Nat.mul_one]
    omega
  unfold sub
  rw [hsum, Nat.add_mul_mod_self_left]

theorem sub_of_le {a b : ℕ} (ha : a < bound) (h : b ≤ a) : sub a b = a - b := by
  rw [sub_eq_mod h]
  exact Nat.mod_eq_of_lt ((Nat.sub_le a b).trans_lt ha)

theorem sub_le {a b : ℕ} (h : b ≤ a) : sub a b ≤ a - b := by
  rw [sub_eq_mod h]
  exact Nat.mod_le _ _

end Uint64

namespace Uint32

/-- One more than the largest `u32`. -/
def bound : ℕ := 2 ^ 32

/-- `a + b`, modulo the bound. -/
def add (a b : ℕ) : ℕ := (a + b) % bound

theorem add_of_lt {a b : ℕ} (h : a + b < bound) : add a b = a + b := Nat.mod_eq_of_lt h

end Uint32

namespace Int128

/-- `n as i128`: the upper half of the unsigned range wraps to the negative numbers. -/
def ofUint128 (n : ℕ) : ℤ := if n < 2 ^ 127 then (n : ℤ) else (n : ℤ) - 2 ^ 128

/-- `a - b`, in two's complement. -/
def sub (a b : ℤ) : ℤ := (a - b).bmod (2 ^ 128)

/-- The difference of two integers of 128 bits, of which either may have wrapped, wraps once. -/
theorem sub_ofUint128 (a b : ℕ) :
    sub (ofUint128 a) (ofUint128 b) = ((a : ℤ) - b).bmod (2 ^ 128) := by
  have hwrap : ∀ n : ℕ, (ofUint128 n).bmod (2 ^ 128) = (n : ℤ).bmod (2 ^ 128) := by
    intro n
    unfold ofUint128
    split
    · rfl
    · exact Int.sub_bmod_right ..
  rw [sub, Int.sub_bmod, hwrap, hwrap, ← Int.sub_bmod]

end Int128

/-- A point in time, in nanoseconds. -/
abbrev Timestamp := ℕ

namespace Timestamp

/-- The nanoseconds of a second. -/
def nanosPerSecond : ℕ := 1000000000

theorem nanosPerSecond_pos : 0 < nanosPerSecond := Nat.succ_pos _

/-- `t.seconds()`. -/
def seconds (t : Timestamp) : ℕ := t / nanosPerSecond

/-- `t.plus_seconds(s)`. -/
def plusSeconds (t : Timestamp) (s : ℕ) : Timestamp := Uint64.add t (Uint64.mul s nanosPerSecond)

/-- `t.minus_seconds(s)`. -/
def minusSeconds (t : Timestamp) (s : ℕ) : Timestamp := Uint64.sub t (Uint64.mul s nanosPerSecond)

theorem plusSeconds_of_lt {t s : ℕ} (h : t + s * nanosPerSecond < Uint64.bound) :
    plusSeconds t s = t + s * nanosPerSecond := by
  unfold plusSeconds
  rw [Uint64.mul_of_lt ((Nat.le_add_left _ t).trans_lt h), Uint64.add_of_lt h]

/-- A sum that wraps around lies before the one that does not. -/
theorem plusSeconds_le (t s : ℕ) : plusSeconds t s ≤ t + s * nanosPerSecond :=
  (Uint64.add_le _ _).trans (Nat.add_le_add_left (Uint64.mul_le _ _) t)

theorem minusSeconds_of_le {t s : ℕ} (ht : t < Uint64.bound) (h : s * nanosPerSecond ≤ t) :
    minusSeconds t s = t - s * nanosPerSecond := by
  unfold minusSeconds
  rw [Uint64.mul_of_lt (h.trans_lt ht), Uint64.sub_of_le ht h]

/-- Going back by no more than the time itself does not wrap around. -/
theorem minusSeconds_le {t s : ℕ} (h : s * nanosPerSecond ≤ t) :
    minusSeconds t s ≤ t - s * nanosPerSecond := by
  have hmul := Nat.mod_add_div (s * nanosPerSecond) Uint64.bound
  have hle : Uint64.mul s nanosPerSecond ≤ t := (Uint64.mul_le _ _).trans h
  -- the product is less by a multiple of the bound, which is what the difference is more by
  have hsub : t - Uint64.mul s nanosPerSecond =
      t - s * nanosPerSecond + Uint64.bound * (s * nanosPerSecond / Uint64.bound) := by
    unfold Uint64.mul at hle ⊢
    omega
  unfold minusSeconds
  rw [Uint64.sub_eq_mod hle, hsub, Nat.add_mul_mod_self_left]
  exact Nat.mod_le _ _

end Timestamp

end CosmWasm
