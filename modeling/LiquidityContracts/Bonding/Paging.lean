import LiquidityContracts.Bonding.Unbonding
import LiquidityContracts.CosmWasm.Paging

/-!
# All bonds, page by page

`AllBondState` lists the holders with what `BondState` tells of each. A page starts after an
address and has ten of them, or as many as the caller asks for, thirty at most. A page with a holder
for whom `BondState` has no answer, because an amount is out of range, has none either.

## Main definitions

* `queryAllBondState`: the query
* `ListsAll`: a list has every holder once and in order, with what `BondState` tells

## Main results

* `allBondState_pages`: asking on after the last address comes to an end, with all holders listed,
  if and only if `BondState` has an answer for each of them
* `not_allBondState_pages`: a holder with bonds of more than 128 bits together stops it
-/

namespace Fanfurybonding

open CosmWasm

/-- `MAX_LIMIT`. -/
def maxLimit : ℕ := 30

/-- `DEFAULT_LIMIT`. -/
def defaultLimit : ℕ := 10

/-- `maybe_addr`. -/
def maybeAddr (api : Api) : Option String → Exec ContractError (Option Addr)
  | none => return none
  | some human => do
    let addr ← validate api human
    return some addr

/-- `map_bonding`. -/
def mapBonding (cfg : Config) (currentTimestamp usdcPrice : ℕ)
    (item : Addr × List BondingRecord) : Exec ContractError BondStateResponse :=
  getBondState cfg item.2 usdcPrice currentTimestamp item.1

/-- What is listed of an item, for which the price is asked anew. -/
def listBonding (q : Querier) (env : Env) (st : Storage) (item : Addr × List BondingRecord) :
    Exec ContractError BondStateResponse := do
  let usdcPrice ← getUsdcPrice q st.config
  mapBonding st.config env.block.time.seconds usdcPrice item

/-- `query_all_bond_state`. -/
def queryAllBondState (api : Api) (q : Querier) (env : Env) (st : Storage)
    (startAfter : Option String) (limit : Option ℕ) :
    Exec ContractError (List BondStateResponse) := do
  let limit := min (limit.getD defaultLimit) maxLimit
  let start ← maybeAddr api startAfter
  ((st.bonding.rangeAfter start).take limit).mapM (listBonding q env st)

/-- A list has every holder once and in ascending order, with what `BondState` tells. -/
structure ListsAll (q : Querier) (env : Env) (st : Storage) (list : List BondStateResponse) :
    Prop where
  holders : ∀ a : Addr, a ∈ list.map (·.address) ↔ (st.bonding[a]?).isSome
  once : (list.map (·.address)).Nodup
  ascending : (list.map (·.address)).Pairwise fun a b => compare a b = .lt
  states : ∀ state ∈ list, queryBondState q env st state.address = .ok state

section Pages

variable {api : Api} {q : Querier} {env : Env} {st : Storage}

/-- The state of a holder is told under the address it is asked for. -/
theorem getBondState_address {cfg : Config} {list : List BondingRecord} {price now : ℕ}
    {address : Addr} {state : BondStateResponse}
    (h : getBondState cfg list price now address = .ok state) : state.address = address := by
  unfold getBondState at h
  obtain ⟨unbondAmount, -, h⟩ := bind_eq_ok.mp h
  obtain ⟨feeAmount, -, h⟩ := bind_eq_ok.mp h
  rw [← pure_eq_ok.mp h]

theorem maybeAddr_eq (hapi : ∀ a ∈ st.bonding.keys, api a = .ok a) {start : Option Addr}
    (hstart : ∀ a, start = some a → a ∈ st.bonding.keys) :
    maybeAddr api start = .ok start := by
  cases start with
  | none => rfl
  | some a =>
    have hvalid : (validate api a : Exec ContractError Addr) = .ok a :=
      validate_eq_ok.mpr (hapi a (hstart a rfl))
    rw [maybeAddr, bind_of_eq_ok hvalid]
    rfl

/-- What is listed of a holder is what is told when the holder is asked for. -/
theorem listBonding_eq {item : Addr × List BondingRecord} (h : item ∈ st.bonding.toList) :
    listBonding q env st item = queryBondState q env st item.1 := by
  have hget : st.bonding[item.1]? = some item.2 :=
    Std.ExtTreeMap.mem_toList_iff_getElem?_eq_some.mp h
  rw [queryBondState, hget]
  rfl

theorem listBonding_address {item : Addr × List BondingRecord} {state : BondStateResponse}
    (h : listBonding q env st item = .ok state) : state.address = item.1 := by
  obtain ⟨usdcPrice, -, h⟩ := bind_eq_ok.mp h
  exact getBondState_address h

/-- **A page** has what is listed of the holders after an address. -/
theorem paged_allBondState (hapi : ∀ a ∈ st.bonding.keys, api a = .ok a) {limit : Option ℕ}
    (hlimit : limit ≠ some 0) :
    Paged st.bonding (listBonding q env st) (·.address) (min (limit.getD defaultLimit) maxLimit)
      (fun start => queryAllBondState api q env st start limit) where
  limit := by
    cases limit with
    | none => decide
    | some n =>
      have hn : n ≠ 0 := fun h => hlimit (congrArg some h)
      rw [Option.getD_some, maxLimit]
      omega
  query_eq start hstart := by
    rw [queryAllBondState, bind_of_eq_ok (maybeAddr_eq hapi hstart)]
  key_eq item state hstate := listBonding_address hstate

/-- What is listed of each entry of the map lists all of it. -/
theorem listsAll_of_forall₂ {list : List BondStateResponse}
    (h : List.Forall₂ (fun item state => listBonding q env st item = .ok state)
      st.bonding.toList list) : ListsAll q env st list := by
  have hkeys : list.map (·.address) = st.bonding.keys := by
    rw [← Std.ExtTreeMap.map_fst_toList_eq_keys, eq_comm, ← List.forall₂_eq_eq_eq,
      List.forall₂_map_left_iff, List.forall₂_map_right_iff]
    exact h.imp fun item state hstate => (listBonding_address hstate).symm
  refine ⟨fun a => ?_, ?_, ?_, fun state hstate => ?_⟩
  · rw [hkeys, Store.mem_keys_iff, Option.isSome_iff_exists]
  · rw [hkeys]
    exact st.bonding.nodup_keys
  · rw [hkeys]
    exact st.bonding.ordered_keys
  · obtain ⟨item, hitem, hlisted⟩ := forall₂_mem h hstate
    rw [listBonding_address hlisted, ← listBonding_eq hitem, hlisted]

/-- **Paging through all bonds** comes to an end if and only if `BondState` has an answer for every
holder. The pages have every holder once and in order then, with that answer. -/
theorem allBondState_pages (api : Api) (q : Querier) (env : Env) (st : Storage)
    (hapi : ∀ a ∈ st.bonding.keys, api a = .ok a) (limit : Option ℕ) (hlimit : limit ≠ some 0) :
    ((∃ pages, Pages (fun start => queryAllBondState api q env st start limit) (·.address) none
        pages) ↔ ∀ a ∈ st.bonding.keys, ∃ state, queryBondState q env st a = .ok state) ∧
      ∀ pages, Pages (fun start => queryAllBondState api q env st start limit) (·.address) none
        pages → ListsAll q env st pages.flatten := by
  have hpaged : Paged st.bonding (listBonding q env st) (·.address) _
      fun start => queryAllBondState api q env st start limit :=
    paged_allBondState hapi hlimit
  constructor
  · rw [pages_iff hpaged, ← Std.ExtTreeMap.map_fst_toList_eq_keys, List.forall_mem_map]
    apply forall₂_congr
    intro item hitem
    rw [listBonding_eq hitem]
  · intro pages hpages
    have hlisted := hpages.listed hpaged fun k hk => by cases hk
    rw [Store.rangeAfter_none] at hlisted
    exact listsAll_of_forall₂ hlisted

end Pages

namespace Sample

/-- A chain that accepts every address. -/
def api : Api := fun s => .ok s

/-- The tenth second. -/
def tenth : Env := (unbond []).env

/-- A contract where alice has two bonds of the same amount, both unlocked in the tenth second, and
bob has another. -/
def threeBonds (amount : ℕ) : Storage where
  config := twoBonds.config
  bonding := ((∅ : Store Addr (List BondingRecord)).insert "alice"
    [⟨amount, 10⟩, ⟨amount, 10⟩]).insert "bob" [⟨7, 10⟩]

theorem api_eq (a : String) : api a = .ok a := rfl

end Sample

open Sample in
/-- Page by page, with one holder on each. -/
theorem allBondState_pages_sample :
    ∃ pages, Pages (fun start => queryAllBondState api (unbond []).q tenth (threeBonds 100) start
      (some 1)) (·.address) none pages := by
  have hanswered : ∀ a ∈ (threeBonds 100).bonding.keys,
      (queryBondState (unbond []).q tenth (threeBonds 100) a).toOption.isSome := by
    decide +kernel
  refine (allBondState_pages api (unbond []).q tenth (threeBonds 100) (fun a _ => api_eq a) (some 1)
    (by decide)).1.mpr fun a ha => ?_
  obtain ⟨state, hstate⟩ := Option.isSome_iff_exists.mp (hanswered a ha)
  exact ⟨state, toOption_eq_some.mp hstate⟩

open Sample in
/-- **A holder with bonds of more than 128 bits together** stops the first page, though there is a
price. -/
theorem not_allBondState_pages :
    ¬ ∀ (api : Api) (q : Querier) (env : Env) (st : Storage),
      (∀ a ∈ st.bonding.keys, api a = .ok a) → (∃ price, getUsdcPrice q st.config = .ok price) →
      ∀ limit : Option ℕ, limit ≠ some 0 →
        ∃ pages, Pages (fun start => queryAllBondState api q env st start limit) (·.address) none
          pages ∧ ListsAll q env st pages.flatten := by
  intro h
  have hprice : getUsdcPrice (unbond []).q (threeBonds (2 ^ 127)).config = .ok 1000000 := by
    decide +kernel
  obtain ⟨pages, hpages, -⟩ := h api (unbond []).q tenth (threeBonds (2 ^ 127))
    (fun a _ => api_eq a) ⟨_, hprice⟩ none (by decide)
  have hpage : ∀ page, queryAllBondState api (unbond []).q tenth (threeBonds (2 ^ 127)) none none ≠
      .ok page := by
    intro page hpage
    have hnone : (queryAllBondState api (unbond []).q tenth (threeBonds (2 ^ 127)) none
        none).toOption = none := by
      decide +kernel
    rw [toOption_eq_some.mpr hpage] at hnone
    cases hnone
  cases hpages with
  | done hempty => exact hpage _ hempty
  | more hmore => exact hpage _ hmore

end Fanfurybonding
