import LiquidityContracts.CosmWasm.Refinement
import LiquidityContracts.Swap.Effect
import LiquidityContracts.Token.Allowances

/-!
# The tokens of the pool on its chain

The chain of the pool has two tokens, FURY and the pool's own. What happens to one of them is what
happens to a token anywhere: a call that somebody makes directly, or one that the pool makes by the
messages it emits. A run of the chain is therefore a run of each token, and what holds of all runs
of a token holds on the chain.

## Main definitions

* `Ledger`: one of the two tokens
* `tokenCalls`: the calls that a token receives when something happens on the chain
* `Sound`: the balances of both tokens sum up to their supplies

## Main results

* `commit_ledger`, `run_ledger`: a token on the chain runs as a token does
* `run_sound`: the balances of both tokens always sum up
* `run_untouched`: what the pool is lent it takes of nobody but its callers
-/

namespace Fanfuryswap

open CosmWasm Cw20 Util

/-- One of the two tokens of the pool. -/
inductive Ledger where
  | fury
  | lp
  deriving DecidableEq, Repr

/-- The address of a token. -/
def Deployment.address (d : Deployment) : Ledger → Addr
  | .fury => d.fury
  | .lp => d.lp

/-- The state of a token. -/
def World.ledger (w : World) : Ledger → Cw20.State
  | .fury => w.fury
  | .lp => w.lp

section Calls

variable (d : Deployment) (t : Ledger)

/-- The call of a token that a message of the pool makes. -/
def messageCall (block : BlockInfo) : CosmosMsg Payload → Option Cw20.Call
  | .wasmExecute contract (.cw20 m) funds =>
    if contract = d.address t then some ⟨⟨block, contract⟩, ⟨d.pool, funds⟩, m⟩ else none
  | _ => none

/-- The calls that a token receives when something happens on the chain. -/
def tokenCalls (w : World) (l : Label) : List Cw20.Call :=
  match exec d w l with
  | none => []
  | some (_, r) =>
    match l with
    | .pool block _ _ => r.messages.filterMap (messageCall d t block)
    | .fury block info msg => if t = .fury then [⟨⟨block, d.fury⟩, info, msg⟩] else []
    | .lp block info msg => if t = .lp then [⟨⟨block, d.lp⟩, info, msg⟩] else []
    | .bank _ _ _ => []

end Calls

section Steps

variable {d : Deployment} {t : Ledger} {block : BlockInfo} {w w' : World}

/-- A message of the pool does to a token what the call that it makes does. -/
theorem applyMessage_ledger {m : CosmosMsg Payload} (h : applyMessage d block w m = some w') :
    run (Cw20.exec d.api) (w.ledger t) (messageCall d t block m).toList = w'.ledger t := by
  cases m with
  | bankSend toAddress amount =>
    obtain ⟨bank, -, rfl⟩ := applyMessage_pay h
    cases t <;> rfl
  | wasmInstantiate => cases h
  | wasmExecute contract payload funds =>
    simp only [applyMessage, Option.pure_def, Option.bind_eq_bind, Option.bind_eq_some_iff] at h
    obtain ⟨bank, -, h⟩ := h
    -- the message goes to FURY, to the pool's token or elsewhere
    split_ifs at h with hfury hlp hpool
    · cases payload with
      | cw20 m =>
        simp only [Option.bind_eq_some_iff, toOption_eq_some] at h
        obtain ⟨⟨fury, r⟩, hexec, h⟩ := h
        cases h
        cases t with
        | fury =>
          have hcall : messageCall d .fury block (.wasmExecute contract (.cw20 m) funds) =
              some ⟨⟨block, contract⟩, ⟨d.pool, funds⟩, m⟩ := if_pos hfury
          rw [hcall, hfury]
          exact commit_of_some (toOption_eq_some.mpr hexec)
        | lp =>
          have hnone : messageCall d .lp block (.wasmExecute contract (.cw20 m) funds) = none :=
            if_neg (hfury ▸ d.fury_ne_lp)
          rw [hnone]
          rfl
      | _ => cases h
    · cases payload with
      | cw20 m =>
        simp only [Option.bind_eq_some_iff, toOption_eq_some] at h
        obtain ⟨⟨lp, r⟩, hexec, h⟩ := h
        cases h
        cases t with
        | fury =>
          have hnone : messageCall d .fury block (.wasmExecute contract (.cw20 m) funds) = none :=
            if_neg hfury
          rw [hnone]
          rfl
        | lp =>
          have hcall : messageCall d .lp block (.wasmExecute contract (.cw20 m) funds) =
              some ⟨⟨block, contract⟩, ⟨d.pool, funds⟩, m⟩ := if_pos hlp
          rw [hcall, hlp]
          exact commit_of_some (toOption_eq_some.mpr hexec)
      | _ => cases h
    · cases h
      have hne : contract ≠ d.address t := by
        cases t with
        | fury => exact hfury
        | lp => exact hlp
      -- a message to another contract is no call of the token
      have hnone : messageCall d t block (.wasmExecute contract payload funds) = none := by
        cases payload with
        | cw20 m => exact if_neg hne
        | _ => rfl
      rw [hnone]
      cases t <;> rfl

theorem applyMessages_ledger {msgs : List (CosmosMsg Payload)}
    (h : applyMessages d block w msgs = some w') :
    run (Cw20.exec d.api) (w.ledger t) (msgs.filterMap (messageCall d t block)) = w'.ledger t := by
  induction msgs generalizing w with
  | nil =>
    cases h
    rfl
  | cons m msgs ih =>
    rw [applyMessages, List.foldlM_cons, Option.bind_eq_bind, Option.bind_eq_some_iff] at h
    obtain ⟨mid, hmid, h⟩ := h
    have hcalls : (m :: msgs).filterMap (messageCall d t block) =
        (messageCall d t block m).toList ++ msgs.filterMap (messageCall d t block) := by
      rw [List.filterMap_cons]
      cases messageCall d t block m <;> rfl
    rw [hcalls, run_append, applyMessage_ledger hmid]
    exact ih h

/-- **What happens on the chain** does to a token what the calls that it receives do. -/
theorem commit_ledger (d : Deployment) (t : Ledger) (w : World) (l : Label) :
    run (Cw20.exec d.api) (w.ledger t) (tokenCalls d t w l) = (commit (exec d) w l).ledger t := by
  unfold tokenCalls
  cases hexec : exec d w l with
  | none => rw [commit_of_none hexec, run_nil]
  | some x =>
    obtain ⟨w', r⟩ := x
    rw [commit_of_some hexec]
    unfold exec at hexec
    split at hexec
    · cases hexec
    · cases l with
      | pool block info msg =>
        obtain ⟨bank, pool, -, -, hmsgs⟩ := callPool_eq_some.mp hexec
        -- the handler and the coins attached leave the tokens alone
        have hsame : World.ledger { w with bank, pool } t = w.ledger t := by cases t <;> rfl
        rw [← hsame]
        exact applyMessages_ledger hmsgs
      | fury block info msg =>
        simp only [Option.pure_def, Option.bind_eq_bind, Option.bind_eq_some_iff] at hexec
        obtain ⟨⟨fury, r₁⟩, haccepted, hexec⟩ := hexec
        cases hexec
        cases t with
        | fury => exact commit_of_some haccepted
        | lp => rfl
      | lp block info msg =>
        simp only [Option.pure_def, Option.bind_eq_bind, Option.bind_eq_some_iff] at hexec
        obtain ⟨⟨lp, r₁⟩, haccepted, hexec⟩ := hexec
        cases hexec
        cases t with
        | fury => rfl
        | lp => exact commit_of_some haccepted
      | bank sender toAddress amount =>
        simp only [Option.pure_def, Option.bind_eq_bind, Option.bind_eq_some_iff] at hexec
        obtain ⟨bank, -, hexec⟩ := hexec
        cases hexec
        cases t <;> rfl

/-- **A run of the chain is a run of each token.** -/
theorem run_ledger (d : Deployment) (t : Ledger) (w : World) (ls : List Label) :
    run (Cw20.exec d.api) (w.ledger t) (trace (exec d) (tokenCalls d t) w ls) =
      (run (exec d) w ls).ledger t :=
  run_trace (g := fun w : World => w.ledger t) fun x _ => commit_ledger d t x.1 x.2

end Steps

/-! ## Sound tokens -/

/-- The balances of both tokens sum up to their supplies. -/
def Sound (w : World) : Prop := ∀ t, Conserved (w.ledger t)

section Sound

variable {d : Deployment} {w : World}

/-- The token of the pool starts with nothing. -/
theorem Initial.lp_conserved (h : Initial d w) : Conserved w.lp := by
  obtain ⟨block, msg, bank, fury, -, -, hdeploy⟩ := h
  simp only [deploy, instantiate, createToken, Option.pure_def, Option.bind_eq_bind,
    Option.bind_eq_some_iff, toOption_eq_some] at hdeploy
  obtain ⟨lp, hlp, ⟨st₁, r₁⟩, -, ⟨st₂, r₂⟩, -, hdeploy⟩ := hdeploy
  cases hdeploy
  exact instantiate_conserved d.validate_eq hlp

/-- **The balances of both tokens always sum up**, where those of FURY do at first. -/
theorem run_sound (h : Initial d w) (hfury : Conserved w.fury) (ls : List Label) :
    Sound (run (exec d) w ls) := by
  intro t
  rw [← run_ledger]
  refine run_conserved d.api ?_ _
  cases t with
  | fury => exact hfury
  | lp => exact h.lp_conserved

end Sound

/-! ## Owners that make no call -/

section Idle

variable {d : Deployment} {t : Ledger} {block : BlockInfo} {supply : ℕ} {info : MessageInfo}
  {st st' : Storage} {w w' : World} {l : Label} {msg : ExecuteMsg}
  {msgs : List (CosmosMsg Payload)} {a : Addr} {c : Cw20.Call}

/-- The pool burns the tokens of the caller only. -/
theorem Effect.burn_owner (h : Effect d supply info st msg st' msgs) {owner : Addr} {n : ℕ}
    (hm : .wasmExecute d.lp (.cw20 (.burnFrom owner n)) [] ∈ msgs) : owner = info.sender := by
  cases h with
  | removeLiquidity a min1 min2 expiration hsupply h₁ h₂ =>
    simp only [sendCoins, getCw20TransferToMsg, getBurnMsg, List.mem_cons, reduceCtorEq,
      CosmosMsg.wasmExecute.injEq, Payload.cw20.injEq, ExecuteMsg.burnFrom.injEq, and_false,
      false_and, false_or, or_false, List.not_mem_nil] at hm
    exact hm.2.1.1
  | addLiquidity t minLiquidity maxToken2 fee token2Amount shares expiration bonds hfunds hshares
      hbonds =>
    rcases List.mem_append.mp hm with hm | hm
    · simp [sendCoins, getCw20TransferFromMsg, mintLpTokens] at hm
    · obtain ⟨contract, b, hb⟩ := hbonds _ hm
      cases hb
  | configure => cases hm
  | addUsdc => cases hm
  | sellUsdc => simp [sendCoins, getCw20TransferToMsg] at hm
  | sellFury => simp [sendCoins, getCw20TransferFromMsg] at hm
  | addFury => simp [getCw20TransferFromMsg] at hm

theorem mem_messageCall {m : CosmosMsg Payload} (h : messageCall d t block m = some c) :
    c.info.sender = d.pool ∧
      m = .wasmExecute c.env.contractAddress (.cw20 c.msg) c.info.funds := by
  unfold messageCall at h
  split at h
  · split_ifs at h
    cases h
    exact ⟨rfl, rfl⟩
  · cases h

/-- **What the pool takes by an allowance** it takes from the caller. -/
theorem Effect.takes_caller (hw : st.Wired d) (h : Effect d supply info st msg st' msgs)
    (hc : c ∈ msgs.filterMap (messageCall d t block)) :
    c.info.sender = d.pool ∧ ∀ k ∈ c.pair d.api, k = (info.sender, d.pool) := by
  obtain ⟨m, hm, hcall⟩ := List.mem_filterMap.mp hc
  obtain ⟨hsender, rfl⟩ := mem_messageCall hcall
  refine ⟨hsender, fun k hk => ?_⟩
  obtain ⟨⟨block, contract⟩, ⟨sender, funds⟩, n⟩ := c
  obtain rfl : sender = d.pool := hsender
  -- the addresses in the messages are valid ones, so they stay as they are
  have hvalid : ∀ owner, k ∈ (d.api owner).toOption.map (fun owner => (owner, d.pool)) →
      k = (owner, d.pool) := by
    rintro owner hk
    obtain ⟨o, ho, rfl⟩ := Option.map_eq_some_iff.mp hk
    cases hvalid : d.api owner with
    | error e =>
      rw [hvalid] at ho
      cases ho
    | ok o' =>
      rw [hvalid] at ho
      cases ho
      rw [d.validate_eq _ _ hvalid]
  have hown := (h.wired hw).2 _ hm
  cases hown with
  | transfer => cases hk
  | mint => cases hk
  | pull n => exact hvalid _ hk
  | burn owner n =>
    rw [← h.burn_owner hm]
    exact hvalid _ hk

theorem sender_ne_pool {r : Response Payload} (h : exec d w l = some (w', r)) :
    l.sender ≠ d.pool := by
  intro hsender
  unfold exec at h
  rw [if_pos hsender] at h
  cases h

/-- A call that a token receives is made by whoever acts on the chain, or by the pool, which takes
from nobody else. -/
theorem mem_tokenCalls (hw : Wired d w) (hc : c ∈ tokenCalls d t w l) : l.sender ≠ d.pool ∧
    (c.info.sender = l.sender ∨
      c.info.sender = d.pool ∧ ∀ k ∈ c.pair d.api, k = (l.sender, d.pool)) := by
  unfold tokenCalls at hc
  cases hexec : exec d w l with
  | none =>
    rw [hexec] at hc
    cases hc
  | some x =>
    refine ⟨sender_ne_pool hexec, ?_⟩
    rw [hexec] at hc
    cases l with
    | pool block info msg =>
      obtain ⟨-, bank, pool, -, heffect, -⟩ := exec_pool hw hexec
      exact .inr (heffect.takes_caller hw.pool hc)
    | fury block info msg =>
      dsimp only at hc
      split_ifs at hc
      · obtain rfl := List.mem_singleton.mp hc
        exact .inl rfl
      · cases hc
    | lp block info msg =>
      dsimp only at hc
      split_ifs at hc
      · obtain rfl := List.mem_singleton.mp hc
        exact .inl rfl
      · cases hc
    | bank sender toAddress amount => cases hc

theorem applyMessage_coins {m : CosmosMsg Payload} (ha : a ≠ d.pool)
    (h : applyMessage d block w m = some w') (denom : String) :
    w.bank.balance a denom ≤ w'.bank.balance a denom := by
  cases m with
  | bankSend toAddress amount =>
    obtain ⟨bank, hbank, rfl⟩ := applyMessage_pay h
    exact Bank.balance_le_of_send hbank ha denom
  | wasmInstantiate => cases h
  | wasmExecute contract payload funds =>
    simp only [applyMessage, Option.pure_def, Option.bind_eq_bind, Option.bind_eq_some_iff] at h
    obtain ⟨bank, hbank, h⟩ := h
    have hle := Bank.balance_le_of_send hbank ha denom
    split_ifs at h
    · cases payload with
      | cw20 m =>
        obtain ⟨x, -, h⟩ := Option.bind_eq_some_iff.mp h
        cases h
        exact hle
      | _ => cases h
    · cases payload with
      | cw20 m =>
        obtain ⟨x, -, h⟩ := Option.bind_eq_some_iff.mp h
        cases h
        exact hle
      | _ => cases h
    · cases h
      exact hle

/-- Only who acts on the chain and the pool lose coins. -/
theorem exec_coins {r : Response Payload} (ha : a ≠ d.pool) (hsender : l.sender ≠ a)
    (h : exec d w l = some (w', r)) (denom : String) :
    w.bank.balance a denom ≤ w'.bank.balance a denom := by
  unfold exec at h
  split at h
  · cases h
  · cases l with
    | pool block info msg =>
      obtain ⟨bank, pool, hbank, -, hmsgs⟩ := callPool_eq_some.mp h
      refine (Bank.balance_le_of_send hbank (Ne.symm hsender) denom).trans ?_
      generalize r.messages = msgs at hmsgs
      have hloop : ∀ (msgs : List (CosmosMsg Payload)) (w : World),
          applyMessages d block w msgs = some w' →
            w.bank.balance a denom ≤ w'.bank.balance a denom := by
        intro msgs
        induction msgs with
        | nil =>
          rintro w ⟨⟩
          exact le_rfl
        | cons m msgs ih =>
          intro w h
          rw [applyMessages, List.foldlM_cons, Option.bind_eq_bind, Option.bind_eq_some_iff] at h
          obtain ⟨mid, hmid, h⟩ := h
          exact (applyMessage_coins ha hmid denom).trans (ih mid h)
      exact hloop _ _ hmsgs
    | fury block info msg =>
      simp only [Option.pure_def, Option.bind_eq_bind, Option.bind_eq_some_iff] at h
      obtain ⟨x, -, h⟩ := h
      cases h
      exact le_rfl
    | lp block info msg =>
      simp only [Option.pure_def, Option.bind_eq_bind, Option.bind_eq_some_iff] at h
      obtain ⟨x, -, h⟩ := h
      cases h
      exact le_rfl
    | bank sender toAddress amount =>
      simp only [Option.pure_def, Option.bind_eq_bind, Option.bind_eq_some_iff] at h
      obtain ⟨bank, hbank, h⟩ := h
      cases h
      exact Bank.balance_le_of_send hbank (Ne.symm hsender) denom

/-- An owner that has lent nothing of a token, and makes no call, loses none of it. -/
theorem exec_unlent {r : Response Payload} (hw : Wired d w) (ha : a ≠ d.pool)
    (hsender : l.sender ≠ a) (hu : (w.ledger t).Unlent a) (h : exec d w l = some (w', r)) :
    (w'.ledger t).Unlent a ∧ (w.ledger t).balance a ≤ (w'.ledger t).balance a := by
  have hcommit := commit_ledger d t w l
  rw [commit_of_some h] at hcommit
  rw [← hcommit]
  refine run_invariant
    (I := fun s : Cw20.State => s.Unlent a ∧ (w.ledger t).balance a ≤ s.balance a)
    (P := fun _ (c : Cw20.Call) => a ≠ c.info.sender) ?_ ⟨hu, le_rfl⟩ fun x hx => ?_
  · rintro s c s' r ⟨hs, hle⟩ hne hexec
    obtain ⟨hs', hle'⟩ := execute_unlent (toOption_eq_some.mp hexec) hne hs
    exact ⟨hs', hle.trans hle'⟩
  -- the caller is another one, or the pool
  · obtain ⟨-, hby⟩ := mem_tokenCalls hw (label_mem hx)
    rcases hby with hby | ⟨hby, -⟩
    · rw [hby]
      exact Ne.symm hsender
    · rw [hby]
      exact ha

/-- **An owner that makes no call** loses no tokens, where it has lent to nobody but the pool. -/
theorem run_ledger_idle (hw : Wired d w) (ha : a ≠ d.pool)
    (hlent : ∀ s, s ≠ d.pool → (w.ledger t).allowance (a, s) = 0) {ls : List Label}
    (hidle : ∀ l ∈ ls, l.sender ≠ a) :
    (w.ledger t).balance a ≤ ((run (exec d) w ls).ledger t).balance a := by
  have hnone : (w.ledger t).lent (fun k => k.1 = a ∧ k.2 ≠ d.pool) = 0 := by
    refine State.lent_eq_zero fun k hk => ?_
    obtain ⟨rfl, hk⟩ := hk
    exact hlent k.2 hk
  rw [← run_ledger]
  refine run_idle hnone fun c hc => ?_
  obtain ⟨x, hx, hcall⟩ := List.mem_flatMap.mp hc
  obtain ⟨ls₁, ls₂, rfl, hrun⟩ := mem_history hx
  have hwired : Wired d x.1 := hrun ▸ run_wired hw ls₁
  have hsender := hidle x.2 (label_mem hx)
  obtain ⟨hpool, hby⟩ := mem_tokenCalls hwired hcall
  rcases hby with hby | ⟨hby, hpair⟩
  · rw [hby]
    refine ⟨hsender, fun hpair => ?_⟩
    rcases Call.sender_of_pair hpair with h | h
    · exact hsender (hby.symm.trans h)
    · exact hpool (hby.symm.trans h)
  · refine ⟨fun h => ha (h.symm.trans hby), fun h => hsender ?_⟩
    exact (congrArg Prod.fst (hpair _ h)).symm

/-- An owner that makes no call loses no coins. -/
theorem run_coins_idle (ha : a ≠ d.pool) {ls : List Label} (hidle : ∀ l ∈ ls, l.sender ≠ a)
    (denom : String) : w.bank.balance a denom ≤ (run (exec d) w ls).bank.balance a denom :=
  run_invariant (I := fun w₁ => w.bank.balance a denom ≤ w₁.bank.balance a denom)
    (P := fun _ l => l.sender ≠ a)
    (fun _ _ _ _ hle hsender h => hle.trans (exec_coins ha hsender h denom)) le_rfl
    fun _ hx => hidle _ (label_mem hx)

/-- **What the pool is lent it takes of nobody but its callers**: from any state that a run reaches,
whoever has lent tokens to nobody but the pool, and makes no call, loses nothing, whatever the
others do. -/
theorem run_untouched (h : Initial d w) (ha : a ≠ d.pool) (before after : List Label)
    (hidle : ∀ l ∈ after, l.sender ≠ a)
    (hlent : ∀ t s, s ≠ d.pool → ((run (exec d) w before).ledger t).allowance (a, s) = 0) :
    (∀ t, ((run (exec d) w before).ledger t).balance a ≤
        ((run (exec d) w (before ++ after)).ledger t).balance a) ∧
      ∀ denom, (run (exec d) w before).bank.balance a denom ≤
        (run (exec d) w (before ++ after)).bank.balance a denom := by
  obtain ⟨hw, -⟩ := h.wired
  rw [run_append]
  exact ⟨fun t => run_ledger_idle (run_wired hw before) ha (hlent t) hidle,
    run_coins_idle ha hidle⟩

end Idle

open Sample in
/-- The trader has lent all of its FURY to the pool, and the owner funds the pool. -/
theorem run_untouched_sample :
    (∀ t, ((run (exec deployment) world []).ledger t).balance "trader" ≤
        ((run (exec deployment) world ([] ++ [addLiquidity])).ledger t).balance "trader") ∧
      ∀ denom, (run (exec deployment) world []).bank.balance "trader" denom ≤
        (run (exec deployment) world ([] ++ [addLiquidity])).bank.balance "trader" denom := by
  refine run_untouched initial (by decide) [] [addLiquidity] (by decide) fun t s hs => ?_
  cases t with
  | fury =>
    have hnone : fury.allowances[("trader", s)]? = none := by
      rw [fury, Store.get_insert_of_ne _ _ (by simpa [deployment] using Ne.symm hs),
        Store.get_insert_of_ne _ _ (by simp), Store.get_empty]
    exact congrArg (fun o : Option AllowanceResponse => o.elim 0 AllowanceResponse.allowance) hnone
  | lp => rfl

end Fanfuryswap
