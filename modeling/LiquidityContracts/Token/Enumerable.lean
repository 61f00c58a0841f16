import LiquidityContracts.CosmWasm.Paging
import LiquidityContracts.Token.Invariants

/-!
# The listings of the token

The contract lists the allowances of an owner, those of a spender and all accounts, page by page. The
two listings of the allowances are read from the two maps, which agree in every run, so that each of
them lists all allowances, as `Allowance` tells them. The listed accounts hold the supply.

## Main definitions

* `queryOwnerAllowances`, `querySpenderAllowances`, `queryAllAccounts`: the queries

## Main results

* `ownerAllowances_paged`, `spenderAllowances_paged`, `allAccounts_paged`: what the queries page
* `allowances_listed`: both listings are complete, and agree with `Allowance`
* `accounts_listed`: the balances of the listed accounts sum up to the supply
-/

namespace Cw20Base

open CosmWasm Cw20

/-- `MAX_LIMIT`. -/
def maxLimit : ℕ := 30

/-- `DEFAULT_LIMIT`. -/
def defaultLimit : ℕ := 10

structure AllowanceInfo where
  spender : String
  allowance : ℕ
  expires : Expiration
  deriving DecidableEq, Repr

structure SpenderAllowanceInfo where
  owner : String
  allowance : ℕ
  expires : Expiration
  deriving DecidableEq, Repr

section Queries

variable (api : Api) (st : Storage)

/-- `query_owner_allowances`. -/
def queryOwnerAllowances (owner : String) (startAfter : Option String) (limit : Option ℕ) :
    Exec StdError (List AllowanceInfo) := do
  let ownerAddr ← validate api owner
  let limit := min (limit.getD defaultLimit) maxLimit
  return (((st.allowances.under ownerAddr).rangeAfter startAfter).take limit).map
    fun (addr, allow) =>
      { spender := addr, allowance := allow.allowance, expires := allow.expires }

/-- `query_spender_allowances`. -/
def querySpenderAllowances (spender : String) (startAfter : Option String) (limit : Option ℕ) :
    Exec StdError (List SpenderAllowanceInfo) := do
  let spenderAddr ← validate api spender
  let limit := min (limit.getD defaultLimit) maxLimit
  return (((st.allowancesSpender.under spenderAddr).rangeAfter startAfter).take limit).map
    fun (addr, allow) =>
      { owner := addr, allowance := allow.allowance, expires := allow.expires }

/-- `query_all_accounts`. -/
def queryAllAccounts (startAfter : Option String) (limit : Option ℕ) :
    Exec StdError (List String) :=
  let limit := min (limit.getD defaultLimit) maxLimit
  return ((st.balances.rangeAfter startAfter).take limit).map Prod.fst

end Queries

section Pages

variable {api : Api} {st : Storage} {limit : Option ℕ}

theorem limit_pos (h : limit ≠ some 0) : 0 < min (limit.getD defaultLimit) maxLimit := by
  cases limit with
  | none => decide
  | some n =>
    have hn : n ≠ 0 := fun heq => h (congrArg some heq)
    rw [Option.getD_some, maxLimit]
    omega

/-- The allowances of an owner are paged in the order of the spenders. -/
theorem ownerAllowances_paged (st : Storage) {owner : String} {o : Addr} (howner : api owner = .ok o)
    (hlimit : limit ≠ some 0) : Paged (st.allowances.under o)
      (fun x => (.ok ⟨x.1, x.2.allowance, x.2.expires⟩ : Exec StdError AllowanceInfo))
      AllowanceInfo.spender (min (limit.getD defaultLimit) maxLimit)
      (fun start => queryOwnerAllowances api st owner start limit) := by
  refine .of_map (limit_pos hlimit) (fun start => ?_) fun _ => rfl
  rw [queryOwnerAllowances, bind_of_eq_ok (validate_eq_ok.mpr howner)]
  rfl

/-- The allowances of a spender are paged in the order of the owners. -/
theorem spenderAllowances_paged (st : Storage) {spender : String} {s : Addr} (hspender : api spender = .ok s)
    (hlimit : limit ≠ some 0) : Paged (st.allowancesSpender.under s)
      (fun x => (.ok ⟨x.1, x.2.allowance, x.2.expires⟩ : Exec StdError SpenderAllowanceInfo))
      SpenderAllowanceInfo.owner (min (limit.getD defaultLimit) maxLimit)
      (fun start => querySpenderAllowances api st spender start limit) := by
  refine .of_map (limit_pos hlimit) (fun start => ?_) fun _ => rfl
  rw [querySpenderAllowances, bind_of_eq_ok (validate_eq_ok.mpr hspender)]
  rfl

theorem allAccounts_paged (st : Storage) (hlimit : limit ≠ some 0) : Paged st.balances
      (fun x => (.ok x.1 : Exec StdError String)) id (min (limit.getD defaultLimit) maxLimit)
      (fun start => queryAllAccounts st start limit) :=
  .of_map (limit_pos hlimit) (fun _ => rfl) fun _ => rfl

/-- An allowance is listed of an owner when it is stored. -/
theorem mem_ownerAllowances {o s : Addr} {allowance : ℕ} {expires : Expiration} :
    (⟨s, allowance, expires⟩ : AllowanceInfo) ∈
        (st.allowances.under o).toList.map (fun x => ⟨x.1, x.2.allowance, x.2.expires⟩) ↔
      st.allowances[(o, s)]? = some ⟨allowance, expires⟩ := by
  rw [← Store.get_under, ← Std.ExtTreeMap.mem_toList_iff_getElem?_eq_some, List.mem_map]
  constructor
  · rintro ⟨⟨s', allow⟩, hx, heq⟩
    cases heq
    exact hx
  · intro hx
    exact ⟨_, hx, rfl⟩

theorem mem_spenderAllowances {o s : Addr} {allowance : ℕ} {expires : Expiration} :
    (⟨o, allowance, expires⟩ : SpenderAllowanceInfo) ∈
        (st.allowancesSpender.under s).toList.map (fun x => ⟨x.1, x.2.allowance, x.2.expires⟩) ↔
      st.allowancesSpender[(s, o)]? = some ⟨allowance, expires⟩ := by
  rw [← Store.get_under, ← Std.ExtTreeMap.mem_toList_iff_getElem?_eq_some, List.mem_map]
  constructor
  · rintro ⟨⟨o', allow⟩, hx, heq⟩
    cases heq
    exact hx
  · intro hx
    exact ⟨_, hx, rfl⟩

end Pages

/-! ## What a client gets -/

/-- What is listed of an owner and of a spender agrees with what `Allowance` tells of the two. -/
structure Agree (api : Api) (st : Storage) (owner spender : String) (o s : Addr)
    (byOwner : List AllowanceInfo) (bySpender : List SpenderAllowanceInfo) : Prop where
  ascending : (byOwner.map (·.spender)).Pairwise fun a b => compare a b = .lt
  ascending' : (bySpender.map (·.owner)).Pairwise fun a b => compare a b = .lt
  both : ∀ allowance expires,
    ⟨s, allowance, expires⟩ ∈ byOwner ↔ ⟨o, allowance, expires⟩ ∈ bySpender
  told : ∀ allowance expires, ⟨s, allowance, expires⟩ ∈ byOwner →
    queryAllowance api st owner spender = .ok ⟨allowance, expires⟩
  untold : s ∉ byOwner.map (·.spender) → queryAllowance api st owner spender = .ok {}

section Client

variable {api : Api} {st : Storage} {limit : Option ℕ}

/-- **The two listings of the allowances** are complete in every run: a client that asks on comes to
an end, with every allowance listed once, under the owner as under the spender, and as `Allowance`
tells it. -/
theorem allowances_listed (h : Initial api st) (cs : List Call) (hlimit : limit ≠ some 0)
    {owner spender : String} {o s : Addr} (howner : api owner = .ok o)
    (hspender : api spender = .ok s) :
    (∃ pages, Pages (fun start =>
      queryOwnerAllowances api (run (exec api) st cs) owner start limit) (·.spender) none pages) ∧
    (∃ pages, Pages (fun start =>
      querySpenderAllowances api (run (exec api) st cs) spender start limit) (·.owner) none pages) ∧
    ∀ byOwner bySpender,
      Pages (fun start => queryOwnerAllowances api (run (exec api) st cs) owner start limit)
        (·.spender) none byOwner →
      Pages (fun start => querySpenderAllowances api (run (exec api) st cs) spender start limit)
        (·.owner) none bySpender →
      Agree api (run (exec api) st cs) owner spender o s byOwner.flatten bySpender.flatten := by
  have hmirrored : Mirrored (run (exec api) st cs) := run_mirrored h.mirrored cs
  obtain ⟨hend, hlist⟩ := (ownerAllowances_paged (run (exec api) st cs) howner hlimit).lists
  obtain ⟨hend', hlist'⟩ := (spenderAllowances_paged (run (exec api) st cs) hspender hlimit).lists
  refine ⟨hend, hend', fun byOwner bySpender hpages hpages' => ?_⟩
  rw [hlist byOwner hpages, hlist' bySpender hpages']
  have htold : queryAllowance api (run (exec api) st cs) owner spender =
      .ok (((run (exec api) st cs).allowances[(o, s)]?).getD {}) := by
    rw [queryAllowance, bind_of_eq_ok (validate_eq_ok.mpr howner),
      bind_of_eq_ok (validate_eq_ok.mpr hspender)]
    rfl
  constructor
  case ascending =>
    rw [List.map_map, List.pairwise_map]
    exact Std.ExtTreeMap.ordered_keys_toList
  case ascending' =>
    rw [List.map_map, List.pairwise_map]
    exact Std.ExtTreeMap.ordered_keys_toList
  case both =>
    intro allowance expires
    rw [mem_ownerAllowances, mem_spenderAllowances, hmirrored]
  case told =>
    intro allowance expires hmem
    rw [htold, mem_ownerAllowances.mp hmem]
    rfl
  case untold =>
    intro hnot
    have hnone : (run (exec api) st cs).allowances[(o, s)]? = none := by
      rw [Option.eq_none_iff_forall_ne_some]
      intro allow hallow
      exact hnot (List.mem_map_of_mem (f := AllowanceInfo.spender)
        (mem_ownerAllowances.mpr hallow))
    rw [htold, hnone]
    rfl

open Sample in
/-- The 60 that the holder has lent are listed in pages of one. -/
theorem allowances_listed_sample :
    (∃ pages, Pages (fun start => queryOwnerAllowances acceptsAll
      (run (exec acceptsAll) token (lending.take 1)) "alice" start (some 1)) (·.spender) none
      pages) ∧
    (∃ pages, Pages (fun start => querySpenderAllowances acceptsAll
      (run (exec acceptsAll) token (lending.take 1)) "bob" start (some 1)) (·.owner) none pages) ∧
    ∀ byOwner bySpender,
      Pages (fun start => queryOwnerAllowances acceptsAll
        (run (exec acceptsAll) token (lending.take 1)) "alice" start (some 1)) (·.spender) none
        byOwner →
      Pages (fun start => querySpenderAllowances acceptsAll
        (run (exec acceptsAll) token (lending.take 1)) "bob" start (some 1)) (·.owner) none
        bySpender →
      Agree acceptsAll (run (exec acceptsAll) token (lending.take 1)) "alice" "bob" "alice" "bob"
        byOwner.flatten bySpender.flatten :=
  allowances_listed initial (lending.take 1) (by decide) rfl rfl

/-- **The listed accounts hold the supply**: a client that asks on comes to an end, with every
account that holds anything listed once, and their balances sum up to the supply. -/
theorem accounts_listed (hapi : ∀ s a, api s = .ok a → a = s) (h : Initial api st)
    (cs : List Call) (hlimit : limit ≠ some 0) :
    (∃ pages, Pages (fun start => queryAllAccounts (run (exec api) st cs) start limit) id none
      pages) ∧
    ∀ pages, Pages (fun start => queryAllAccounts (run (exec api) st cs) start limit) id none
        pages →
      (pages.flatten.Pairwise fun a b => compare a b = .lt) ∧
      (∀ a, 0 < (run (exec api) st cs).ledger.balance a → a ∈ pages.flatten) ∧
      (pages.flatten.map (run (exec api) st cs).ledger.balance).sum =
        (queryTokenInfo (run (exec api) st cs)).totalSupply := by
  obtain ⟨hend, hlist⟩ := (allAccounts_paged (run (exec api) st cs) hlimit).lists
  refine ⟨hend, fun pages hpages => ?_⟩
  rw [hlist pages hpages, Std.ExtTreeMap.map_fst_toList_eq_keys]
  refine ⟨Std.ExtTreeMap.ordered_keys, fun a ha => ?_, ?_⟩
  · rw [Store.mem_keys_iff]
    by_contra hnone
    have hget : (run (exec api) st cs).balances[a]? = none :=
      Option.eq_none_iff_forall_ne_some.mpr fun n hn => hnone ⟨n, hn⟩
    have hzero : (run (exec api) st cs).ledger.balance a = 0 := by
      rw [State.balance]
      exact congrArg (fun b : Option ℕ => b.getD 0) hget
    exact ha.ne' hzero
  · have hheld := (h.conserved hapi cs).held_eq
    rw [State.held_eq_sum (Finset.Subset.refl _), List.sum_toFinset _ (Store.nodup_keys _)] at hheld
    exact hheld

open Sample in
/-- The owner and the recipient are listed, and hold 100. -/
theorem accounts_listed_sample :
    (∃ pages, Pages (fun start => queryAllAccounts (run (exec acceptsAll) token lending) start none)
      id none pages) ∧
    ∀ pages, Pages (fun start => queryAllAccounts (run (exec acceptsAll) token lending) start none)
        id none pages →
      (pages.flatten.Pairwise fun a b => compare a b = .lt) ∧
      (∀ a, 0 < (run (exec acceptsAll) token lending).ledger.balance a → a ∈ pages.flatten) ∧
      (pages.flatten.map (run (exec acceptsAll) token lending).ledger.balance).sum =
        (queryTokenInfo (run (exec acceptsAll) token lending)).totalSupply :=
  accounts_listed (by rintro s a ⟨⟩; rfl) initial lending nofun

end Client

end Cw20Base
