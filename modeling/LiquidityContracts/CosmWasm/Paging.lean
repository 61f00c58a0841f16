import LiquidityContracts.CosmWasm.Exec
import LiquidityContracts.CosmWasm.Store

/-!
# Paging through a map

A query may list the entries of a map page by page: a page starts after a key, which need not be
there, and has the next entries in the order of the keys, up to a limit. A client asks for the first
page, then for the one after the last entry that it got, until a page is empty.

## Main definitions

* `Store.under m k`: the entries of a map of pairs under one first key
* `Store.rangeAfter m start`: the entries of a map after a key
* `Pages query key start pages`: the pages that a client gets

## Main results

* `Pages.listed`: the pages have the entries of the map, each of them once and in order
* `pages_iff`: the client comes to an end if and only if every entry can be listed
* `Paged.lists`: where every entry can be, the client gets all of them
-/

namespace CosmWasm

open Std

section Lists

variable {ε α β : Type}

/-- A list is mapped if each of its elements is. -/
theorem mapM_eq_ok {f : α → Exec ε β} {l : List α} {out : List β} :
    l.mapM f = .ok out ↔ List.Forall₂ (fun x y => f x = .ok y) l out := by
  induction l generalizing out with
  | nil => rw [List.mapM_nil, pure_eq_ok, List.forall₂_nil_left_iff, eq_comm]
  | cons x l ih =>
    rw [List.mapM_cons, bind_eq_ok, List.forall₂_cons_left_iff]
    constructor
    · rintro ⟨y, hy, h⟩
      obtain ⟨ys, hys, h⟩ := bind_eq_ok.mp h
      exact ⟨y, ys, hy, ih.mp hys, (pure_eq_ok.mp h).symm⟩
    · rintro ⟨y, ys, hy, hys, rfl⟩
      exact ⟨y, hy, bind_eq_ok.mpr ⟨ys, ih.mpr hys, rfl⟩⟩

/-- What is related to a list with a last element has a last element itself. -/
theorem forall₂_snoc {R : α → β → Prop} {l : List α} {ys : List β} {y : β}
    (h : List.Forall₂ R l (ys ++ [y])) : ∃ xs x, l = xs ++ [x] ∧ R x y := by
  rw [← List.forall₂_reverse_iff, List.reverse_append, List.reverse_singleton,
    List.singleton_append, List.forall₂_cons_right_iff] at h
  obtain ⟨x, xs, hxy, -, hl⟩ := h
  exact ⟨xs.reverse, x, by rw [← List.reverse_cons, ← hl, List.reverse_reverse], hxy⟩

theorem forall₂_mem {R : α → β → Prop} {l : List α} {ys : List β} (h : List.Forall₂ R l ys) {y : β}
    (hy : y ∈ ys) : ∃ x ∈ l, R x y := by
  induction h with
  | nil => cases hy
  | cons hxy _ ih =>
    rcases List.mem_cons.mp hy with rfl | hy
    · exact ⟨_, List.mem_cons_self, hxy⟩
    · obtain ⟨x, hx, hxy⟩ := ih hy
      exact ⟨x, List.mem_cons_of_mem _ hx, hxy⟩

/-- A list can be mapped if each of its elements can. -/
theorem exists_forall₂ {R : α → β → Prop} {l : List α} :
    (∃ out, List.Forall₂ R l out) ↔ ∀ x ∈ l, ∃ y, R x y := by
  induction l with
  | nil => simp
  | cons x l ih =>
    simp only [List.forall₂_cons_left_iff, List.forall_mem_cons, ← ih]
    constructor
    · rintro ⟨out, y, ys, hy, hys, -⟩
      exact ⟨⟨y, hy⟩, ys, hys⟩
    · rintro ⟨⟨y, hy⟩, ys, hys⟩
      exact ⟨y :: ys, y, ys, hy, hys, rfl⟩

/-- Lists that correspond have the first members that meet a condition at the same place. -/
theorem forall₂_find? {R : α → β → Prop} {P : α → Bool} {Q : β → Bool} {l : List α}
    {l' : List β} (h : List.Forall₂ R l l') (hPQ : ∀ a b, R a b → P a = Q b) :
    Option.Rel R (l.find? P) (l'.find? Q) := by
  induction h with
  | nil => exact .none
  | @cons a b l l' hab _ ih =>
    rw [List.find?_cons, List.find?_cons, ← hPQ a b hab]
    cases P a with
    | false => exact ih
    | true => exact .some hab

/-- Of lists that are strung together, one for each of some labels, those of one label are that label's
list. -/
theorem filter_flatMap_label {γ : Type} [DecidableEq γ] {label : β → γ} {f : γ → List β}
    {l : List γ} (hl : l.Nodup) (hf : ∀ c, ∀ y ∈ f c, label y = c) {a : γ} (ha : a ∉ l → f a = []) :
    (l.flatMap f).filter (fun y => label y = a) = f a := by
  have hself : (f a).filter (fun y => label y = a) = f a :=
    List.filter_eq_self.mpr fun y hy => decide_eq_true (hf a y hy)
  have hother : ∀ c, c ≠ a → (f c).filter (fun y => label y = a) = [] := by
    intro c hc
    refine List.filter_eq_nil_iff.mpr fun y hy hlabel => hc ?_
    rw [← hf c y hy, of_decide_eq_true hlabel]
  induction l with
  | nil => exact (ha List.not_mem_nil).symm
  | cons c l ih =>
    obtain ⟨hc, hl⟩ := List.nodup_cons.mp hl
    rw [List.flatMap_cons, List.filter_append]
    by_cases hca : c = a
    · -- the label does not come again
      subst hca
      have hrest : (l.flatMap f).filter (fun y => label y = c) = [] := by
        refine List.filter_eq_nil_iff.mpr fun y hy hlabel => ?_
        obtain ⟨b, hb, hy⟩ := List.mem_flatMap.mp hy
        rw [← hf b y hy, of_decide_eq_true hlabel] at hb
        exact hc hb
      rw [hself, hrest, List.append_nil]
    · rw [hother c hca, List.nil_append]
      exact ih hl fun hmem => ha fun h => (List.mem_cons.mp h).elim (fun h => hca h.symm) hmem

end Lists

/-! ## All entries -/

section Entries

variable {ε κ ν : Type} [OfStdError ε] [Ord κ] [TransOrd κ] [LawfulEqOrd κ]

/-- Every entry can be loaded, key after key, and these are the values. -/
theorem Store.mapM_load (m : Store κ ν) (kind : String) :
    m.keys.mapM (fun k => load kind m[k]?) = (.ok m.values : Exec ε (List ν)) := by
  rw [mapM_eq_ok, Store.values_eq, ← ExtTreeMap.map_fst_toList_eq_keys, List.forall₂_map_left_iff,
    List.forall₂_map_right_iff, List.forall₂_same]
  rintro ⟨k, v⟩ hmem
  exact load_eq_ok.mpr (ExtTreeMap.mem_toList_iff_getElem?_eq_some.mp hmem)

omit [OfStdError ε] in
/-- What holds of the values is a property of what is under each key. -/
theorem Store.map_values {β : Type} {f : ν → β} {g : κ → β} (m : Store κ ν)
    (h : ∀ (k : κ) (v : ν), m[k]? = some v → f v = g k) : m.values.map f = m.keys.map g := by
  rw [Store.values_eq, ← ExtTreeMap.map_fst_toList_eq_keys, List.map_map, List.map_map]
  refine List.map_congr_left fun x hx => ?_
  exact h x.1 x.2 (ExtTreeMap.mem_toList_iff_getElem?_eq_some.mp hx)

end Entries

/-! ## The entries under one key -/

section Under

variable {κ₁ κ₂ ν : Type} [Ord κ₁] [TransOrd κ₁] [LawfulEqOrd κ₁] [DecidableEq κ₁] [Ord κ₂]
  [TransOrd κ₂] [LawfulEqOrd κ₂] [DecidableEq κ₂]

/-- The entries of a map under one first key, as a map of the second keys. -/
def Store.under (m : Store (κ₁ × κ₂) ν) (k : κ₁) : Store κ₂ ν :=
  ExtTreeMap.ofList ((m.toList.filter fun x => x.1.1 = k).map fun x => (x.1.2, x.2)) compare

/-- What is stored under a pair is stored under its second key there. -/
theorem Store.get_under (m : Store (κ₁ × κ₂) ν) (k : κ₁) (a : κ₂) :
    (m.under k)[a]? = m[(k, a)]? := by
  have hmem : ∀ v, (a, v) ∈ (m.toList.filter fun x => x.1.1 = k).map (fun x => (x.1.2, x.2)) ↔
      m[(k, a)]? = some v := by
    intro v
    rw [← ExtTreeMap.mem_toList_iff_getElem?_eq_some]
    simp only [List.mem_map, List.mem_filter, decide_eq_true_eq, Prod.mk.injEq]
    constructor
    · rintro ⟨⟨⟨k', a'⟩, v'⟩, ⟨hx, rfl⟩, rfl, rfl⟩
      exact hx
    · intro hx
      exact ⟨((k, a), v), ⟨hx, rfl⟩, rfl, rfl⟩
  cases hget : m[(k, a)]? with
  | none =>
    apply ExtTreeMap.getElem?_ofList_of_contains_eq_false
    rw [List.contains_eq_mem, decide_eq_false_iff_not, List.mem_map]
    rintro ⟨⟨a', v⟩, hx, rfl⟩
    rw [(hmem v).mp hx] at hget
    cases hget
  | some v =>
    refine ExtTreeMap.getElem?_ofList_of_mem (k := a) ReflCmp.compare_self ?_ ((hmem v).mpr hget)
    -- keys under one first key differ in the second
    rw [List.pairwise_map]
    refine (ExtTreeMap.distinct_keys_toList.filter _).imp_of_mem ?_
    rintro ⟨⟨k₁, a₁⟩, v₁⟩ ⟨⟨k₂, a₂⟩, v₂⟩ hx hy hne heq
    simp only [List.mem_filter, decide_eq_true_eq] at hx hy
    obtain rfl := LawfulEqCmp.eq_of_compare heq
    rw [hx.2, hy.2] at hne
    exact hne ReflCmp.compare_self

end Under

/-! ## A page -/

section Range

variable {κ ν : Type} [Ord κ] [TransOrd κ]

/-- The entries of a map after a key, or all of them, in ascending order. -/
def Store.rangeAfter (m : Store κ ν) (start : Option κ) : List (κ × ν) :=
  m.toList.filter fun x => start.all fun k => compare k x.1 = .lt

variable {m : Store κ ν} {start : Option κ} {x : κ × ν}

theorem Store.rangeAfter_none : m.rangeAfter none = m.toList := by
  simp [Store.rangeAfter]

theorem Store.mem_rangeAfter :
    x ∈ m.rangeAfter start ↔ x ∈ m.toList ∧ ∀ k, start = some k → compare k x.1 = .lt := by
  cases start with
  | none => simp [Store.rangeAfter]
  | some k => simp [Store.rangeAfter]

theorem Store.ordered_rangeAfter :
    (m.rangeAfter start).Pairwise fun x y => compare x.1 y.1 = .lt :=
  ExtTreeMap.ordered_keys_toList.sublist List.filter_sublist

/-- In an ascending list, what comes after an element is what follows it. -/
theorem filter_after {before rest : List (κ × ν)}
    (h : (before ++ x :: rest).Pairwise fun x y => compare x.1 y.1 = .lt) :
    (before ++ x :: rest).filter (fun y => compare x.1 y.1 = .lt) = rest := by
  rw [List.pairwise_append, List.pairwise_cons] at h
  obtain ⟨-, ⟨hrest, -⟩, hbefore⟩ := h
  have hnone : before.filter (fun y => compare x.1 y.1 = .lt) = [] := by
    apply List.filter_eq_nil_iff.mpr
    intro y hy
    have hlt := hbefore y hy x List.mem_cons_self
    simp [OrientedCmp.gt_of_lt hlt]
  have hall : rest.filter (fun y => compare x.1 y.1 = .lt) = rest := by
    apply List.filter_eq_self.mpr
    intro y hy
    simp [hrest y hy]
  rw [List.filter_append, hnone, List.nil_append, List.filter_cons_of_neg (by simp), hall]

/-- What comes after an entry is what comes after it of a range that the entry is in. -/
theorem Store.rangeAfter_of_mem (hx : x ∈ m.rangeAfter start) :
    m.rangeAfter (some x.1) = (m.rangeAfter start).filter fun y => compare x.1 y.1 = .lt := by
  obtain ⟨-, hstart⟩ := Store.mem_rangeAfter.mp hx
  rw [Store.rangeAfter, Store.rangeAfter, List.filter_filter]
  apply List.filter_congr
  intro y hy
  cases start with
  | none => simp
  | some k =>
    by_cases hlt : compare x.1 y.1 = .lt
    · simp [hlt, TransCmp.lt_trans (hstart k rfl) hlt]
    · simp [hlt]

/-- **After the last entry of a page** come the entries that the page has cut off. -/
theorem Store.rangeAfter_last {n : ℕ} {before : List (κ × ν)}
    (h : (m.rangeAfter start).take n = before ++ [x]) :
    m.rangeAfter (some x.1) = (m.rangeAfter start).drop n := by
  obtain ⟨rest, hrest⟩ : ∃ rest, (m.rangeAfter start).drop n = rest := ⟨_, rfl⟩
  have hsplit : m.rangeAfter start = before ++ x :: rest := by
    rw [← List.take_append_drop n (m.rangeAfter start), h, hrest]
    simp
  have hx : x ∈ m.rangeAfter start := by
    rw [hsplit]
    simp
  have hordered : (before ++ x :: rest).Pairwise fun x y => compare x.1 y.1 = .lt :=
    hsplit ▸ Store.ordered_rangeAfter
  rw [Store.rangeAfter_of_mem hx, hrest, hsplit, filter_after hordered]

end Range

/-! ## The pages -/

section Pages

variable {κ ν α ε : Type}

/-- The pages that a client gets that starts after a key: it goes on after the key of the last entry
of each page, until a page is empty. -/
inductive Pages (query : Option κ → Exec ε (List α)) (key : α → κ) :
    Option κ → List (List α) → Prop
  | done {start : Option κ} (hpage : query start = .ok []) : Pages query key start []
  | more {start : Option κ} {before : List α} {last : α} {pages : List (List α)}
      (hpage : query start = .ok (before ++ [last]))
      (hnext : Pages query key (some (key last)) pages) :
      Pages query key start ((before ++ [last]) :: pages)

variable [Ord κ] [TransOrd κ] {m : Store κ ν} {query : Option κ → Exec ε (List α)} {key : α → κ}
  {entry : κ × ν → Exec ε α} {n : ℕ}

/-- A query returns pages of a map: at most `n` entries after a key of the map, each of them as an
item under its key. -/
structure Paged (m : Store κ ν) (entry : κ × ν → Exec ε α) (key : α → κ) (n : ℕ)
    (query : Option κ → Exec ε (List α)) : Prop where
  limit : 0 < n
  query_eq : ∀ start, (∀ k, start = some k → k ∈ m.keys) →
    query start = ((m.rangeAfter start).take n).mapM entry
  key_eq : ∀ x y, entry x = .ok y → key y = x.1

section Paged

variable (h : Paged m entry key n query) {start : Option κ}
  (hstart : ∀ k, start = some k → k ∈ m.keys)

include h hstart

/-- **The next page** starts at an entry of the map, and is cut from what the page has cut off. -/
theorem Paged.next {before : List α} {last : α} (hpage : query start = .ok (before ++ [last])) :
    key last ∈ m.keys ∧ m.rangeAfter (some (key last)) = (m.rangeAfter start).drop n := by
  rw [h.query_eq start hstart, mapM_eq_ok] at hpage
  obtain ⟨xs, x, hxs, hentry⟩ := forall₂_snoc hpage
  have hx : x ∈ (m.rangeAfter start).take n := by
    rw [hxs]
    simp
  obtain ⟨hmem, -⟩ := Store.mem_rangeAfter.mp (List.mem_of_mem_take hx)
  rw [h.key_eq x last hentry]
  refine ⟨?_, Store.rangeAfter_last hxs⟩
  rw [← ExtTreeMap.map_fst_toList_eq_keys]
  exact List.mem_map_of_mem hmem

/-- **The pages list** the entries after the start, each of them once and in order. -/
theorem Pages.listed {pages : List (List α)} (hpages : Pages query key start pages) :
    List.Forall₂ (fun x y => entry x = .ok y) (m.rangeAfter start) pages.flatten := by
  induction hpages with
  | @done start hpage =>
    rw [h.query_eq start hstart, mapM_eq_ok, List.forall₂_nil_right_iff,
      List.take_eq_nil_iff] at hpage
    rcases hpage with hn | hnil
    · exact absurd hn h.limit.ne'
    · rw [hnil, List.flatten_nil]
      exact .nil
  | @more start before last pages hpage hnext ih =>
    obtain ⟨hkey, hrest⟩ := h.next hstart hpage
    have hlisted := ih (by rintro k ⟨⟩; exact hkey)
    rw [hrest] at hlisted
    rw [h.query_eq start hstart, mapM_eq_ok] at hpage
    rw [List.flatten_cons, ← List.take_append_drop n (m.rangeAfter start)]
    exact List.rel_append hpage hlisted

/-- A client comes to an end where every entry after its start can be listed. -/
theorem Paged.exists_pages (hall : ∀ x ∈ m.rangeAfter start, ∃ y, entry x = .ok y) :
    ∃ pages, Pages query key start pages := by
  -- every page that is not empty leaves fewer entries
  induction hlen : (m.rangeAfter start).length using Nat.strong_induction_on generalizing start with
  | h len ih =>
    have htake : ∀ x ∈ (m.rangeAfter start).take n, ∃ y, entry x = .ok y :=
      fun x hx => hall x (List.mem_of_mem_take hx)
    obtain ⟨page, hpage⟩ := exists_forall₂.mpr htake
    rw [← mapM_eq_ok, ← h.query_eq start hstart] at hpage
    rcases List.eq_nil_or_concat page with rfl | ⟨before, last, rfl⟩
    · exact ⟨[], .done hpage⟩
    · rw [List.concat_eq_append] at hpage
      obtain ⟨hkey, hrest⟩ := h.next hstart hpage
      have hlt : (m.rangeAfter (some (key last))).length < len := by
        have hne : m.rangeAfter start ≠ [] := by
          intro hnil
          rw [h.query_eq start hstart, hnil, List.take_nil, List.mapM_nil, pure_eq_ok] at hpage
          simp at hpage
        have hpos := List.length_pos_iff.mpr hne
        have hn := h.limit
        rw [hrest, List.length_drop]
        omega
      have hdrop : ∀ x ∈ m.rangeAfter (some (key last)), ∃ y, entry x = .ok y := by
        rw [hrest]
        exact fun x hx => hall x (List.mem_of_mem_drop hx)
      obtain ⟨pages, hpages⟩ := ih _ hlt (by rintro k ⟨⟩; exact hkey) hdrop rfl
      exact ⟨_, .more hpage hpages⟩

end Paged

/-- **Paging through a map comes to an end** if and only if every entry can be listed. -/
theorem pages_iff (h : Paged m entry key n query) :
    (∃ pages, Pages query key none pages) ↔ ∀ x ∈ m.toList, ∃ y, entry x = .ok y := by
  have hstart : ∀ k : κ, none = some k → k ∈ m.keys := fun k hk => nomatch hk
  constructor
  · rintro ⟨pages, hpages⟩
    have hlisted := hpages.listed h hstart
    rw [Store.rangeAfter_none] at hlisted
    exact exists_forall₂.mp ⟨_, hlisted⟩
  · intro hall
    rw [← Store.rangeAfter_none] at hall
    exact h.exists_pages hstart hall

/-- Pages with an item for each entry. -/
theorem Paged.of_map {f : κ × ν → α} (hn : 0 < n)
    (hquery : ∀ start, query start = .ok (((m.rangeAfter start).take n).map f))
    (hkey : ∀ x, key (f x) = x.1) : Paged m (fun x => (.ok (f x) : Exec ε α)) key n query where
  limit := hn
  query_eq start _ := by
    rw [hquery start, eq_comm, mapM_eq_ok, List.forall₂_map_right_iff, List.forall₂_same]
    exact fun _ _ => rfl
  key_eq x y hy := by
    cases hy
    exact hkey x

/-- **The pages of entries that can all be listed** are there, and list them in order. -/
theorem Paged.lists {f : κ × ν → α} (h : Paged m (fun x => (.ok (f x) : Exec ε α)) key n query) :
    (∃ pages, Pages query key none pages) ∧
      ∀ pages, Pages query key none pages → pages.flatten = m.toList.map f := by
  constructor
  · exact (pages_iff h).mpr fun x _ => ⟨f x, rfl⟩
  · intro pages hpages
    have hlisted := hpages.listed h fun k hk => by cases hk
    rw [Store.rangeAfter_none] at hlisted
    rw [eq_comm, ← List.forall₂_eq_eq_eq, List.forall₂_map_left_iff]
    exact hlisted.imp fun x y hxy => Except.ok.inj hxy

end Pages

end CosmWasm
