import LiquidityContracts.Fanfury.Chain
import LiquidityContracts.Staking.Claims

/-!
# The books of the staking of clubs

On the chain with all contracts the staking of clubs holds FURY, which anyone may send it. What it
owes for stakes, bonds and rewards grows by what it credits, and what it pays for claims it goes on
to owe. All of this is kept in books: what is owed, and what was received from others, is held, up
to what was credited and what was paid for claims. The increases of the pot bring nothing by
themselves.

## Main definitions

* `World.stakingHeld`: the FURY that the staking of clubs holds
* `rewardCredited`, `rewardPaid`, `furyReceived`: what a step enters in the books

## Main results

* `Step.callStaking`: a call of the staking of clubs is one on the chain it knows
* `run_books`: the books balance in every run
-/

namespace Clubstaking

open CosmWasm

/-- What a call pays for the claim of a reward. -/
def rewardPaid (api : Api) (st : Storage) (c : Call) : ℕ :=
  match c.msg with
  | .claimStakerRewards _ _ => ((exec api st c).map fun x => furyOut x.2.messages).getD 0
  | _ => 0

section Settlements

variable {api : Api} {d : Deployment} {block : BlockInfo} {q : Querier} {info : MessageInfo}
  {st st' : Storage} {c : Call} {r : Response Cw20.ExecuteMsg} {w w' : World} {msg : ExecuteMsg}
  {deposits credits : ℕ}

/-- **Every accepted message** settles, where what is paid for a claim is owed as before. -/
theorem exec_settles_paid (ht : Tidy st.staking) (ho : NoOwnerRewards st)
    (h : exec api st c = some (st', r)) :
    Settles c.env c.info (rewardCredited api st c + rewardPaid api st c) st st' r := by
  by_cases hclaim : ∀ staker clubName, c.msg ≠ .claimStakerRewards staker clubName
  · exact (exec_settles ht ho h hclaim).mono (Nat.le_add_right _ _)
  · push Not at hclaim
    obtain ⟨staker, clubName, hmsg⟩ := hclaim
    have hexec := exec_eq_some.mp h
    rw [hmsg] at hexec
    have hpaid : rewardPaid api st c = furyOut r.messages := by
      rw [rewardPaid, hmsg]
      dsimp only
      rw [h]
      rfl
    obtain ⟨-, -, amount, -, -, rfl, rfl⟩ := claimStakerRewards_spec hexec
    have hsame := liabilities_of_same (same_of_claim hexec) rfl
    refine ⟨fun m hm => ?_, ?_⟩
    · rcases List.mem_pair.mp hm with rfl | rfl
      · exact .transfer _ _
      · exact .fees _ _
    · rw [hsame, hpaid]
      omega

/-- **A call** keeps the ledger when what it pays for a claim is counted as credited again. -/
theorem callStaking_ledger_paid (hl : Ledger d deposits credits w)
    (hsender : info.sender ≠ d.staking) (h : callStaking d block q w info msg = some (w', r)) :
    Ledger d deposits
      (credits + (rewardCredited d.api w.staking (asCall d block q info msg) +
        rewardPaid d.api w.staking (asCall d block q info msg))) w' := by
  obtain ⟨bank, staking, -, hexec, hmsgs⟩ := callStaking_eq_some.mp h
  have hsettles := exec_settles_paid hl.tidy hl.owners hexec
  have hown := hsettles.messages
  rw [hl.fury] at hown
  have hunlent : { w with staking, bank }.fury.Unlent d.staking := hl.unlent
  have hmoves := applyMessages_fury hown hsender hunlent hmsgs
  refine ⟨?_, ?_, ?_, hmoves.unlent, ?_⟩
  · rw [hmoves.staking]
    exact exec_tidy hl.tidy hexec
  · rw [hmoves.staking]
    exact execute_noOwnerRewards hl.owners (exec_eq_some.mp hexec)
  · rw [hmoves.staking]
    exact (exec_config hexec ▸ hl.fury :)
  -- what is owed more is credited, taken in, or paid for a claim
  · have hbalance := hsettles.balance
    have hheld := hmoves.fury
    have hledger := hl.balance
    rw [hmoves.staking]
    simp only [World.furyHeld, asCall] at hheld hbalance hledger ⊢
    omega

end Settlements

end Clubstaking

namespace Fanfury

open CosmWasm

/-- The addresses that the staking of clubs knows. -/
def Deployment.known (d : Deployment) : Clubstaking.Deployment where
  api := d.swap.api
  staking := d.staking
  fury := d.swap.fury
  validate_eq := d.swap.validate_eq

/-- The part of the chain that the staking of clubs deals with. -/
def World.staked (w : World) : Clubstaking.World := ⟨w.staking, w.chain.bank, w.chain.fury⟩

/-- The FURY that the staking of clubs holds. -/
def World.stakingHeld (d : Deployment) (w : World) : ℕ := w.chain.fury.balance d.staking

/-- Whether an input is a call of the staking of clubs. -/
def Label.isStaking : Label → Bool
  | .staking _ _ _ => true
  | _ => false

section Entries

variable (d : Deployment) (w : World) (l : Label)

/-- What a step credits to stakes. -/
def rewardCredited : ℕ :=
  ((events d w l).staking.map (Clubstaking.rewardCredited d.swap.api w.staking)).sum

/-- What a step pays for claims of rewards. -/
def rewardPaid : ℕ :=
  ((events d w l).staking.map (Clubstaking.rewardPaid d.swap.api w.staking)).sum

/-- What the staking of clubs receives in a step that is no call of it. -/
def furyReceived : ℕ :=
  if l.isStaking then 0 else (commit (step d) w l).stakingHeld d - w.stakingHeld d

end Entries

section Steps

variable {d : Deployment} {block : BlockInfo} {info : MessageInfo} {w w' : World} {l : Label}
  {e : Events}

/-- A message of the staking of clubs does on the chain what it does on the one that the contract
knows. -/
theorem applyMessage_known {chain chain' : Fanfuryswap.World} {staking : Clubstaking.Storage}
    {m : CosmosMsg Cw20.ExecuteMsg} {l : Fanfuryswap.Label} {r : Response Fanfuryswap.Payload}
    (hl : asLabel d block d.staking m = some l)
    (h : Fanfuryswap.exec d.swap chain l = some (chain', r)) :
    Clubstaking.applyMessage d.known block ⟨staking, chain.bank, chain.fury⟩ m =
      some ⟨staking, chain'.bank, chain'.fury⟩ := by
  unfold Fanfuryswap.exec at h
  split at h
  · cases h
  · cases m with
    | bankSend toAddress amount =>
      cases hl
      simp only [Option.pure_def, Option.bind_eq_bind, Option.bind_eq_some_iff] at h
      obtain ⟨bank, hbank, h⟩ := h
      cases h
      simp [Clubstaking.applyMessage, Deployment.known, hbank]
    | wasmExecute token msg funds =>
      simp only [asLabel] at hl
      split_ifs at hl with htoken
      obtain ⟨rfl, rfl⟩ := htoken
      cases hl
      simp only [Option.pure_def, Option.bind_eq_bind, Option.bind_eq_some_iff] at h
      obtain ⟨⟨fury, r₁⟩, hfury, h⟩ := h
      cases h
      simp [Clubstaking.applyMessage, Deployment.known, Bank.send, hfury]
    | wasmInstantiate => cases hl

/-- **A call of the staking of clubs** is one on the chain that the contract knows. -/
theorem Step.callStaking {msg : Clubstaking.ExecuteMsg}
    (h : Step d w (.staking block info msg) w' e) : ∃ q r,
      Clubstaking.callStaking d.known block q w.staked info msg = some (w'.staked, r) ∧
        e.staking = [Clubstaking.asCall d.known block q info msg] := by
  cases h with
  | staking _ _ _ paid chain staking r labels hsender hpaid hexec hlabels hchain =>
    obtain ⟨bank, hbank, rfl⟩ := attach_eq_some hpaid
    refine ⟨_, r, Clubstaking.callStaking_eq_some.mpr ⟨bank, staking, hbank, hexec, ?_⟩, rfl⟩
    exact foldlM_of_acceptAll (g := fun c : Fanfuryswap.World =>
      (⟨staking, c.bank, c.fury⟩ : Clubstaking.World))
      (fun _ _ _ _ _ hl hexec => applyMessage_known hl hexec) hlabels hchain

/-- A step of others is none of the staking of clubs, and takes no FURY of it. -/
theorem Step.keeps_staking (h : Step d w l w' e) (hl : l.isStaking = false)
    (hw : Fanfuryswap.Wired d.swap w.chain) (hu : w.chain.fury.Unlent d.staking) :
    e.staking = [] ∧ w'.staking = w.staking ∧ w'.chain.fury.Unlent d.staking ∧
      w.stakingHeld d ≤ w'.stakingHeld d := by
  obtain ⟨-, -, hpool, -, hgaming, hbonding⟩ := d.ne
  have hsender := (Deployment.ne_of_not_mem h.sender).2.2.2
  have hactor : l.actor d ≠ d.staking := by
    cases l with
    | chain l => exact hsender
    | gaming => exact Ne.symm hgaming
    | bonding => exact Ne.symm hbonding
    | staking => cases hl
  have hkept := h.unlent hw (t := .fury) hpool hsender hactor hu
  cases h with
  | chain => exact ⟨rfl, rfl, hkept⟩
  | gaming => exact ⟨rfl, rfl, hkept⟩
  | bonding => exact ⟨rfl, rfl, hkept⟩
  | staking => cases hl

/-- **One step** keeps the books. -/
theorem step_books {received credits : ℕ} (h : step d w l = some (w', e))
    (hw : Fanfuryswap.Wired d.swap w.chain)
    (hbooks : Clubstaking.Ledger d.known received credits w.staked) :
    Clubstaking.Ledger d.known (received + furyReceived d w l)
      (credits + (rewardCredited d w l + rewardPaid d w l)) w'.staked := by
  have hstep := step_cases h
  rw [furyReceived, rewardCredited, rewardPaid, step_events d h, commit_of_some h]
  cases hl : l.isStaking with
  | false =>
    obtain ⟨hnil, hsame, hunlent, hheld⟩ := hstep.keeps_staking hl hw hbooks.unlent
    -- what comes in is received
    have hbalance := hbooks.balance
    rw [hnil, if_neg Bool.false_ne_true]
    refine ⟨?_, ?_, ?_, hunlent, ?_⟩
    · rw [World.staked, hsame]
      exact hbooks.tidy
    · rw [World.staked, hsame]
      exact hbooks.owners
    · rw [World.staked, hsame]
      exact hbooks.fury
    · rw [World.staked, hsame]
      simp only [World.stakingHeld, World.staked, Clubstaking.World.furyHeld, Deployment.known,
        List.map_nil, List.sum_nil] at hheld hbalance ⊢
      omega
  | true =>
    cases l with
    | staking block info msg =>
      have hsender := (Deployment.ne_of_not_mem hstep.sender).2.2.2
      obtain ⟨q, r, hcall, hcalls⟩ := hstep.callStaking
      have hledger := Clubstaking.callStaking_ledger_paid hbooks hsender hcall
      rw [hcalls, if_pos rfl, Nat.add_zero, List.map_singleton, List.map_singleton,
        List.sum_singleton, List.sum_singleton]
      exact hledger
    | chain => cases hl
    | gaming => cases hl
    | bonding => cases hl

/-- At first the staking of clubs owes nothing. -/
theorem Deployed.books (h : Deployed d w) : Clubstaking.Ledger d.known 0 0 w.staked :=
  Clubstaking.Deployed.ledger
    ⟨h.staking, h.token, h.unlent d.staking (List.mem_cons_of_mem _ List.mem_cons_self)⟩

/-- What is reverted enters nothing in the books. -/
theorem entries_of_none (h : step d w l = none) :
    furyReceived d w l = 0 ∧ rewardCredited d w l = 0 ∧ rewardPaid d w l = 0 := by
  rw [furyReceived, rewardCredited, rewardPaid, events, h, commit_of_none h, Nat.sub_self, ite_self]
  exact ⟨rfl, rfl, rfl⟩

/-- **The books are kept** in every run. -/
theorem run_ledger (h : Deployed d w) (ls : List Label) :
    Clubstaking.Ledger d.known (tally (step d) (furyReceived d) w ls)
      (tally (step d) (rewardCredited d) w ls + tally (step d) (rewardPaid d) w ls)
      (run (step d) w ls).staked := by
  induction ls using List.reverseRecOn with
  | nil => exact h.books
  | append_singleton ls l ih =>
    rw [tally_snoc, tally_snoc, tally_snoc, run_snoc, Nat.add_add_add_comm]
    rcases commit_cases (step d) (run (step d) w ls) l with ⟨e, he⟩ | ⟨hnone, hs⟩
    · exact step_books he (run_chain_wired h ls) ih
    · obtain ⟨hreceived, hcredited, hpaid⟩ := entries_of_none hnone
      rw [hs, hreceived, hcredited, hpaid]
      exact ih

end Steps

/-- **The books balance** in every run from the deployment on: what the staking of clubs owes, and
what others have sent it, is no more than what it holds, what it has credited and what it has paid
for claims. In a step of others it receives, if anything. -/
theorem run_books {d : Deployment} {w : World} (h : Deployed d w) (ls : List Label) :
    (run (step d) w ls).staking.liabilities + tally (step d) (furyReceived d) w ls ≤
        (run (step d) w ls).stakingHeld d + (tally (step d) (rewardCredited d) w ls +
          tally (step d) (rewardPaid d) w ls) ∧
      ∀ l, l.isStaking = false →
        (run (step d) w ls).stakingHeld d ≤ (run (step d) w (ls ++ [l])).stakingHeld d := by
  have hbooks := run_ledger h ls
  refine ⟨hbooks.balance, fun l hl => ?_⟩
  rw [run_snoc]
  rcases commit_cases (step d) (run (step d) w ls) l with ⟨e, he⟩ | ⟨-, hs⟩
  · exact ((step_cases he).keeps_staking hl (run_chain_wired h ls) hbooks.unlent).2.2.2
  · rw [hs]

namespace Sample

/-- A call of the staking of clubs, with coins for the fees. -/
def onStaking (sender : Addr) (coins : List Coin) (msg : Clubstaking.ExecuteMsg) : Label :=
  .staking Fanfuryswap.Sample.block ⟨sender, coins⟩ msg

/-- A trader stakes on a club, is credited a reward, and claims it twice. -/
def claimedTwice : List Label := [
  .chain Fanfuryswap.Sample.addLiquidity,
  .chain (.fury Fanfuryswap.Sample.block ⟨"trader", []⟩ (.increaseAllowance "staking" 500 none)),
  onStaking "admin" [] (.assignAClub "trader" none "club" false),
  onStaking "admin" [] (.increaseRewardAmount "admin" 1000),
  onStaking "trader" [⟨"uusd", 100⟩] (.stakeOnAClub "trader" "club" 500 false),
  onStaking "admin" [] (.calculateAndDistributeRewards ["trader"] "club" true true),
  .chain (.fury Fanfuryswap.Sample.block ⟨"trader", []⟩ (.transfer "staking" 2000)),
  onStaking "trader" [⟨"uusd", 100⟩] (.claimStakerRewards "trader" "club"),
  onStaking "trader" [⟨"uusd", 100⟩] (.claimStakerRewards "trader" "club")]

end Sample

open Sample in
/-- 500 of FURY are left of the stake and of the 2000 sent, and 1500 are owed. -/
theorem run_books_sample :
    (run (step deployment) world claimedTwice).stakingHeld deployment = 500 ∧
      (run (step deployment) world claimedTwice).staking.liabilities +
          tally (step deployment) (furyReceived deployment) world claimedTwice ≤
        (run (step deployment) world claimedTwice).stakingHeld deployment +
          (tally (step deployment) (rewardCredited deployment) world claimedTwice +
            tally (step deployment) (rewardPaid deployment) world claimedTwice) :=
  ⟨by decide +kernel, (run_books deployed claimedTwice).1⟩

end Fanfury
