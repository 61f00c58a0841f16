import LiquidityContracts.CosmWasm.Exec

/-!
# Ordered key-value storage

A contract keeps its records in maps from keys to values and walks them in the ascending order
of the keys. Such a map is an extensional search tree; what a contract owes in total is the sum
of a weight over its entries.

## Main definitions

* `Store κ ν`: a finite map, walked in key order
* `Store.update m k f`: what `f` makes of the entry under `k` is saved
* `Store.weigh w m k`: the weight of what `m` holds under `k`
* `Store.total w m`: the sum of the weights of all entries of `m`

## Main results

* `Store.total_insert`: saving an entry moves the total by the change of that entry
* `Store.sum_weigh_le_total`: the entries under any keys weigh at most the total
-/

namespace CosmWasm

attribute [instance] lexOrd

/-- A storage map from `κ` to `ν`, walked in the ascending order of the keys. -/
abbrev Store (κ : Type) [Ord κ] (ν : Type) := Std.ExtTreeMap κ ν compare

namespace Store

open Std

variable {κ ν : Type} [Ord κ] [TransOrd κ]

@[simp] theorem get_empty (a : κ) : (∅ : Store κ ν)[a]? = none := by
  simp

theorem nodup_keys (m : Store κ ν) : m.keys.Nodup := ExtTreeMap.nodup_keys

/-- The weight of what the map holds under `k`, nothing weighing nothing. -/
def weigh (w : κ → ν → ℕ) (m : Store κ ν) (k : κ) : ℕ := (m[k]?).elim 0 (w k)

theorem weigh_of_get {w : κ → ν → ℕ} {m : Store κ ν} {k : κ} {v : ν} (h : m[k]? = some v) :
    weigh w m k = w k v := by
  simp [weigh, h]

theorem weigh_of_none {w : κ → ν → ℕ} {m : Store κ ν} {k : κ} (h : m[k]? = none) :
    weigh w m k = 0 := by
  simp [weigh, h]

variable [LawfulEqOrd κ]

@[simp] theorem get_insert_self (m : Store κ ν) (k : κ) (v : ν) :
    (m.insert k v)[k]? = some v := by
  simp

theorem mem_keys_iff (m : Store κ ν) (k : κ) : k ∈ m.keys ↔ ∃ v, m[k]? = some v := by
  rw [ExtTreeMap.mem_keys, ← ExtTreeMap.isSome_getElem?_iff_mem, Option.isSome_iff_exists]

/-- Maps that hold something under the same keys are walked over the same keys. -/
theorem keys_perm {ν' : Type} {m : Store κ ν} {m' : Store κ ν'}
    (h : ∀ k : κ, (m[k]?).isSome = (m'[k]?).isSome) : m.keys.Perm m'.keys := by
  refine (List.perm_ext_iff_of_nodup (nodup_keys m) (nodup_keys m')).mpr fun k => ?_
  rw [mem_keys_iff, mem_keys_iff, ← Option.isSome_iff_exists, ← Option.isSome_iff_exists, h k]

omit [LawfulEqOrd κ] in
theorem values_eq (m : Store κ ν) : m.values = m.toList.map Prod.snd := by
  obtain ⟨inner⟩ := m
  induction inner using ExtDTreeMap.inductionOn with
  | _ t =>
    refine Eq.trans (b := (DTreeMap.Internal.Impl.Const.toList t.inner).map Prod.snd) ?_ rfl
    rw [DTreeMap.Internal.Impl.Const.toList_eq_toListModel_map, List.map_map]
    exact DTreeMap.Internal.Impl.values_eq_map_snd

/-- The values are those that there are under the keys. -/
theorem mem_values_iff (m : Store κ ν) (v : ν) : v ∈ m.values ↔ ∃ k : κ, m[k]? = some v := by
  rw [values_eq, List.mem_map]
  constructor
  · rintro ⟨⟨k, v'⟩, hmem, rfl⟩
    exact ⟨k, ExtTreeMap.mem_toList_iff_getElem?_eq_some.mp hmem⟩
  · rintro ⟨k, hk⟩
    exact ⟨(k, v), ExtTreeMap.mem_toList_iff_getElem?_eq_some.mpr hk, rfl⟩

variable [DecidableEq κ]

theorem get_insert (m : Store κ ν) (k a : κ) (v : ν) :
    (m.insert k v)[a]? = if k = a then some v else m[a]? := by
  rw [ExtTreeMap.getElem?_insert]
  by_cases h : k = a
  · simp [h]
  · simp [h, Std.LawfulEqCmp.compare_eq_iff_eq]

theorem get_insert_of_ne (m : Store κ ν) {k a : κ} (v : ν) (h : k ≠ a) :
    (m.insert k v)[a]? = m[a]? := by
  simp [get_insert, h]

/-- Entries under different keys may be saved in either order. -/
theorem insert_comm (m : Store κ ν) {k k' : κ} (v v' : ν) (h : k ≠ k') :
    (m.insert k v).insert k' v' = (m.insert k' v').insert k v := by
  apply ExtTreeMap.ext_getElem?
  intro a
  rw [get_insert, get_insert, get_insert, get_insert]
  by_cases hk : k = a
  · have hk' : k' ≠ a := fun hk' => h (hk.trans hk'.symm)
    rw [if_neg hk', if_pos hk, if_pos hk]
  · rw [if_neg hk, if_neg hk]

/-- An entry that is saved again replaces what was saved before. -/
theorem insert_insert (m : Store κ ν) (k : κ) (v v' : ν) :
    (m.insert k v).insert k v' = m.insert k v' := by
  apply ExtTreeMap.ext_getElem?
  intro a
  rw [get_insert, get_insert, get_insert]
  by_cases hk : k = a
  · rw [if_pos hk, if_pos hk]
  · rw [if_neg hk, if_neg hk, if_neg hk]

/-- Saving what was saved before changes nothing. -/
theorem insert_eq_self {m : Store κ ν} {k : κ} {v : ν} (h : m[k]? = some v) : m.insert k v = m := by
  apply ExtTreeMap.ext_getElem?
  intro a
  rw [get_insert]
  split
  · rename_i hk
    rw [← hk, h]
  · rfl

theorem get_erase (m : Store κ ν) (k a : κ) :
    (m.erase k)[a]? = if k = a then none else m[a]? := by
  rw [ExtTreeMap.getElem?_erase]
  by_cases h : k = a
  · simp [h]
  · simp [h, Std.LawfulEqCmp.compare_eq_iff_eq]

/-! ## Entries that are read and saved again -/

section Update

variable {ε : Type}

omit [LawfulEqOrd κ] [DecidableEq κ] in
/-- `update`: what `f` makes of what is stored under a key is saved. -/
def update (m : Store κ ν) (k : κ) (f : Option ν → Exec ε ν) : Exec ε (Store κ ν) := do
  let v ← f m[k]?
  return m.insert k v

omit [LawfulEqOrd κ] [DecidableEq κ] in
theorem update_eq_ok {m m' : Store κ ν} {k : κ} {f : Option ν → Exec ε ν} :
    m.update k f = .ok m' ↔ ∃ v, f m[k]? = .ok v ∧ m' = m.insert k v := by
  rw [update, bind_eq_ok]
  constructor
  · rintro ⟨v, hv, h⟩
    exact ⟨v, hv, (pure_eq_ok.mp h).symm⟩
  · rintro ⟨v, hv, rfl⟩
    exact ⟨v, hv, rfl⟩

end Update

/-- **The rule for entries that are saved one after another.** Under distinct keys, each of them is
there after it, with what was there under the other keys. -/
theorem get_foldl_insert {α : Type} {key : α → κ} (val : α → ν) {l : List α}
    (hl : (l.map key).Nodup) (m : Store κ ν) (a : κ) :
    (∀ x ∈ l, key x = a → (l.foldl (fun m x => m.insert (key x) (val x)) m)[a]? = some (val x)) ∧
      ((∀ x ∈ l, key x ≠ a) → (l.foldl (fun m x => m.insert (key x) (val x)) m)[a]? = m[a]?) := by
  induction l using List.reverseRecOn with
  | nil => exact ⟨nofun, fun _ => rfl⟩
  | append_singleton l y ih =>
    rw [List.map_append, List.nodup_append] at hl
    obtain ⟨hl, -, hy⟩ := hl
    obtain ⟨hin, hout⟩ := ih hl
    rw [List.foldl_append]
    simp only [List.foldl_cons, List.foldl_nil, get_insert]
    constructor
    · intro x hx hkey
      rcases List.mem_append.mp hx with hx | hx
      · -- the last entry is under another key
        have hne := hy _ (List.mem_map_of_mem hx) _ List.mem_cons_self
        rw [if_neg fun h => hne (hkey.trans h.symm)]
        exact hin x hx hkey
      · obtain rfl := List.mem_singleton.mp hx
        rw [if_pos hkey]
    · intro hne
      rw [if_neg (hne y (List.mem_append_right _ List.mem_cons_self))]
      exact hout fun x hx => hne x (List.mem_append_left _ hx)

/-! ## Totals over all entries -/

/-- The sum of the weights of all entries. -/
def total (w : κ → ν → ℕ) (m : Store κ ν) : ℕ := ∑ k ∈ m.keys.toFinset, weigh w m k

theorem weigh_insert (w : κ → ν → ℕ) (m : Store κ ν) (k a : κ) (v : ν) :
    weigh w (m.insert k v) a = if k = a then w k v else weigh w m a := by
  unfold weigh
  rw [get_insert]
  by_cases h : k = a
  · simp [h]
  · simp [h]

/-- Keys that hold nothing may be added to the sum. -/
theorem total_eq_sum {w : κ → ν → ℕ} {m : Store κ ν} {S : Finset κ}
    (h : m.keys.toFinset ⊆ S) : total w m = ∑ k ∈ S, weigh w m k := by
  refine Finset.sum_subset h fun k _ hk => weigh_of_none ?_
  rw [List.mem_toFinset, mem_keys_iff] at hk
  exact Option.eq_none_iff_forall_ne_some.mpr fun v hv => hk ⟨v, hv⟩

/-- The total is the sum over any keys beyond which nothing weighs anything. -/
theorem total_eq_sum_of_support {w : κ → ν → ℕ} {m : Store κ ν} {S : Finset κ}
    (h : ∀ k, k ∉ S → weigh w m k = 0) : total w m = ∑ k ∈ S, weigh w m k := by
  rw [total_eq_sum (S := m.keys.toFinset ∪ S) Finset.subset_union_left]
  exact (Finset.sum_subset Finset.subset_union_right fun k _ hk => h k hk).symm

omit [LawfulEqOrd κ] in
@[simp] theorem total_empty (w : κ → ν → ℕ) : total w (∅ : Store κ ν) = 0 := by
  rw [total, Finset.sum_eq_zero]
  intro k _
  exact weigh_of_none (get_empty k)

/-- The entries under the keys of `S` weigh at most the total. -/
theorem sum_weigh_le_total (w : κ → ν → ℕ) (m : Store κ ν) (S : Finset κ) :
    ∑ k ∈ S, weigh w m k ≤ total w m := by
  rw [total_eq_sum (S := m.keys.toFinset ∪ S) Finset.subset_union_left]
  exact Finset.sum_le_sum_of_subset Finset.subset_union_right

theorem weigh_le_total (w : κ → ν → ℕ) (m : Store κ ν) (k : κ) : weigh w m k ≤ total w m := by
  simpa using sum_weigh_le_total w m {k}

/-- Maps that differ in one entry have totals that differ by what it weighs. -/
theorem total_add_weigh (w : κ → ν → ℕ) (m m' : Store κ ν) (k : κ)
    (h : ∀ a, k ≠ a → weigh w m' a = weigh w m a) :
    total w m' + weigh w m k = total w m + weigh w m' k := by
  -- both totals are taken over one set of keys, of which `k` is split off
  let S : Finset κ := insert k (m.keys.toFinset ∪ m'.keys.toFinset)
  have hm : m.keys.toFinset ⊆ S :=
    Finset.subset_union_left.trans (Finset.subset_insert k _)
  have hm' : m'.keys.toFinset ⊆ S :=
    Finset.subset_union_right.trans (Finset.subset_insert k _)
  have hmem : k ∈ S := Finset.mem_insert_self k _
  have hafter := Finset.add_sum_erase _ (fun a => weigh w m' a) hmem
  have hbefore := Finset.add_sum_erase _ (fun a => weigh w m a) hmem
  have hrest : ∑ a ∈ S.erase k, weigh w m' a = ∑ a ∈ S.erase k, weigh w m a :=
    Finset.sum_congr rfl fun a ha => h a (Finset.ne_of_mem_erase ha).symm
  rw [total_eq_sum hm, total_eq_sum hm']
  omega

/-- Saving `v` under `k` replaces the weight of what was there by that of `v`. -/
theorem total_insert (w : κ → ν → ℕ) (m : Store κ ν) (k : κ) (v : ν) :
    total w (m.insert k v) + weigh w m k = total w m + w k v := by
  have htotal := total_add_weigh w m (m.insert k v) k fun a hka => by
    rw [weigh_insert, if_neg hka]
  rwa [weigh_insert, if_pos rfl] at htotal

/-- Maps whose entries weigh the same have the same total. -/
theorem total_congr {w w' : κ → ν → ℕ} {m m' : Store κ ν}
    (h : ∀ k, weigh w m k = weigh w' m' k) : total w m = total w' m' := by
  rw [total_eq_sum (S := m.keys.toFinset ∪ m'.keys.toFinset) Finset.subset_union_left,
    total_eq_sum (S := m.keys.toFinset ∪ m'.keys.toFinset) Finset.subset_union_right]
  exact Finset.sum_congr rfl fun k _ => h k

/-! ## Lists under the keys -/

section Lists

variable {β : Type} {w : κ → List β → ℕ}

omit [LawfulEqOrd κ] [DecidableEq κ] in
/-- Where an empty list weighs nothing, no list weighs as much as an empty one. -/
theorem weigh_getD (hw : ∀ k, w k [] = 0) (m : Store κ (List β)) (k : κ) :
    weigh w m k = w k ((m[k]?).getD []) := by
  unfold weigh
  cases m[k]? with
  | none => exact (hw k).symm
  | some l => rfl

/-- Saving a list replaces the weight of the list that was there. -/
theorem total_insert_getD (hw : ∀ k, w k [] = 0) (m : Store κ (List β)) (k : κ) (l : List β) :
    total w (m.insert k l) + w k ((m[k]?).getD []) = total w m + w k l := by
  rw [← weigh_getD hw]
  exact total_insert w m k l

end Lists

section Pairs

variable {κ₁ κ₂ β : Type} [Ord κ₁] [TransOrd κ₁] [LawfulEqOrd κ₁] [DecidableEq κ₁] [Ord κ₂]
  [TransOrd κ₂] [LawfulEqOrd κ₂] [DecidableEq κ₂]

/-- What lists under pairs of keys weigh in total is the weight of all that they list, when they are
strung together over keys among which are those of the lists that are not empty. -/
theorem total_pairs (w : β → ℕ) (m : Store (κ₁ × κ₂) (List β)) {as : List κ₁} {bs : List κ₂}
    (has : as.Nodup) (hbs : bs.Nodup)
    (h : ∀ a b, (m[(a, b)]?).getD [] ≠ [] → a ∈ as ∧ b ∈ bs) :
    total (fun _ l => (l.map w).sum) m =
      ((as.flatMap fun a => bs.flatMap fun b => (m[(a, b)]?).getD []).map w).sum := by
  have hsum : ((as.flatMap fun a => bs.flatMap fun b => (m[(a, b)]?).getD []).map w).sum =
      (as.map fun a => (bs.map fun b => (((m[(a, b)]?).getD []).map w).sum).sum).sum := by
    rw [List.flatMap_def, List.map_flatten, List.sum_flatten, List.map_map, List.map_map]
    refine congrArg List.sum (List.map_congr_left fun a _ => ?_)
    show ((bs.flatMap fun b => (m[(a, b)]?).getD []).map w).sum = _
    rw [List.flatMap_def, List.map_flatten, List.sum_flatten, List.map_map, List.map_map]
    rfl
  rw [hsum, ← List.sum_toFinset _ has, total_eq_sum_of_support (S := as.toFinset ×ˢ bs.toFinset)]
  · rw [Finset.sum_product]
    refine Finset.sum_congr rfl fun a _ => ?_
    rw [← List.sum_toFinset _ hbs]
    exact Finset.sum_congr rfl fun b _ => weigh_getD (fun _ => rfl) m (a, b)
  · rintro ⟨a, b⟩ hnot
    rw [weigh_getD fun _ => rfl]
    by_contra hne
    obtain ⟨ha, hb⟩ := h a b fun hnil => hne (by rw [hnil]; rfl)
    exact hnot (Finset.mem_product.mpr ⟨List.mem_toFinset.mpr ha, List.mem_toFinset.mpr hb⟩)

end Pairs

end Store

end CosmWasm
