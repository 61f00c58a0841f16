import LiquidityContracts.Gaming.Pools

/-!
# The type of a pool

A pool is created with a type, which fixes what its teams pay and what they get back. A bid names
the pool and a type independently: it is charged and limited by the type it names, and the pool is
saved with that type. So a pool keeps its type in the runs in which the bids on it name the type,
and in no others.

## Main definitions

* `OfType`: a pool is stored with a type, and so are its teams
* `refundOwed`: what a gamer is to be refunded for a pool
* `KeepsType`: the law of a pool in a run
* `NamesType`: a bid on the pool names its type

## Main results

* `Effect.ofType`: one step keeps the type, if it meets the condition
* `keepsType_iff`: the law holds of the runs whose bids on the pool name its type
* `not_keepsType`: a run in which a bid changes what another gamer is owed
-/

namespace Gamingpool

open CosmWasm

/-- A pool is stored with a type, and so are its teams. -/
structure OfType (poolId poolType : String) (st : Storage) : Prop where
  pool : (st.poolDetails[poolId]?).map (·.poolType) = some poolType
  teams : ∀ g, ∀ team ∈ st.teams poolId g, team.poolType = poolType

/-- What a gamer is to be refunded for a pool: the fee of its stored type for each team that has
not been refunded. -/
def refundOwed (st : Storage) (poolId gamer : String) : ℕ :=
  ((st.teams poolId gamer).countP fun team => team.claimedRefund = false) * st.feeOf poolId

/-- A pool is created. -/
structure Creates (api : Api) (poolId poolType : String) (st : Storage) (c : Call) : Prop where
  entry : ∃ info, c.entry = .execute info (.createPool poolType)
  accepted : (exec api st c).isSome
  id : poolId = st.nextPoolId api

/-- A bid by a gamer is accepted. -/
structure AcceptsBid (api : Api) (gamer poolType poolId : String) (st : Storage) (c : Call) :
    Prop where
  entry : ∃ info teamId amount,
    c.entry = .execute info (.gamePoolBidSubmitCommand gamer poolType poolId teamId amount)
  accepted : (exec api st c).isSome

/-- A pool keeps its type in a run. -/
structure KeepsType (api : Api) (poolId poolType : String) (st : Storage) (cs : List Call) :
    Prop where
  /-- At any time the pool and its teams are stored with the type. -/
  always : ∀ ls, ls <+: cs → OfType poolId poolType (run (exec api) st ls)
  /-- The type that a bid is charged and limited by is that stored for the pool, by which it is
  refunded. -/
  charged : ∀ x ∈ history (exec api) st cs, ∀ gamer named, AcceptsBid api gamer named poolId x.1 x.2 →
    (x.1.poolDetails[poolId]?).map (·.poolType) = some named
  /-- No bid changes the refund owed to another gamer. -/
  owed : ∀ x ∈ history (exec api) st cs, ∀ gamer named p, AcceptsBid api gamer named p x.1 x.2 →
    ∀ g, g ≠ gamer → refundOwed (commit (exec api) x.1 x.2) poolId g = refundOwed x.1 poolId g

/-- A bid on the pool names the type. -/
def NamesType (poolId poolType : String) : Entry → Prop
  | .execute _ (.gamePoolBidSubmitCommand _ named p _ _) => p = poolId → named = poolType
  | _ => True

instance (poolId poolType : String) (entry : Entry) : Decidable (NamesType poolId poolType entry) := by
  unfold NamesType
  split <;> infer_instance

section Steps

variable {api : Api} {st st' : Storage} {entry : Entry} {c : Call} {r : Response Payload}
  {poolId poolType gamer named p g : String}

/-- **One step** keeps the type of a pool, if a bid on it names the type. -/
theorem Effect.ofType (h : Effect api st st' entry) (hh : Housed api st)
    (ht : OfType poolId poolType st) (hn : NamesType poolId poolType entry) :
    OfType poolId poolType st' := by
  obtain ⟨pool, hpool, htype⟩ := Option.map_eq_some_iff.mp ht.pool
  obtain ⟨new, hnew, hproceeds⟩ := hh.proceeds h hpool
  constructor
  · rw [hnew, Option.map_some, Option.some.injEq]
    -- only a bid saves the pool with the type that it names
    rcases hproceeds with hsame | ⟨info, gamer, teamId, amount, hentry⟩
    · exact hsame.trans htype
    · rw [hentry] at hn
      exact hn rfl
  · intro g team hteam
    -- a team keeps its type; a new one gets that of its bid
    rcases (h.continues poolId g).mem hteam with ⟨old, hold, hfollows⟩ | ⟨info, named, teamId,
      amount, hentry, -, rfl⟩
    · rw [hfollows.poolType]
      exact ht.teams g old hold
    · rw [hentry] at hn
      exact hn rfl

/-- A pool that has just been created is of its type. -/
theorem ofType_of_creates (hh : Housed api st) (h : Creates api poolId poolType st c) :
    OfType poolId poolType (commit (exec api) st c) := by
  obtain ⟨info, hentry⟩ := h.entry
  obtain ⟨r, hexec⟩ := exists_commit h.accepted
  obtain ⟨address, count, haddress, hcount, hst⟩ := (exec_createPool hentry hexec).created
  have hid : poolId = toString count := by
    rw [h.id, Storage.nextPoolId, poolCount_eq haddress, hcount]
  constructor
  · rw [hid, hst, Store.get_insert_self]
    rfl
  · -- there are no teams in a pool before it is created
    intro g team hteam
    have hnone : (commit (exec api) st c).teams poolId g = [] := by
      rw [hst, h.id]
      exact hh.fresh_teams g
    rw [hnone] at hteam
    cases hteam

/-- After a bid the pool is stored with the type that the bid names. -/
theorem poolType_of_acceptsBid (h : AcceptsBid api gamer named p st c) :
    ((commit (exec api) st c).poolDetails[p]?).map (·.poolType) = some named := by
  obtain ⟨info, teamId, amount, hentry⟩ := h.entry
  obtain ⟨r, hexec⟩ := exists_commit h.accepted
  obtain ⟨details, pool, -, -, -, -, hst⟩ := (exec_bid hentry hexec).joined
  rw [hst, Store.get_insert_self]
  rfl

/-- While a pool is of a type, the fee it is refunded by is that of the type. -/
theorem OfType.feeOf (h : OfType poolId poolType st) :
    st.feeOf poolId = (st.poolTypeDetails[poolType]?).elim 0 (·.poolFee) := by
  obtain ⟨pool, hpool, htype⟩ := Option.map_eq_some_iff.mp h.pool
  rw [Storage.feeOf, hpool, Option.bind_some, htype]

/-- A bid leaves what other gamers are owed as it is, while the pool is of its type. -/
theorem refundOwed_of_acceptsBid (h : AcceptsBid api gamer named p st c)
    (ht : OfType poolId poolType st) (ht' : OfType poolId poolType (commit (exec api) st c))
    (hg : g ≠ gamer) :
    refundOwed (commit (exec api) st c) poolId g = refundOwed st poolId g := by
  obtain ⟨info, teamId, amount, hentry⟩ := h.entry
  obtain ⟨r, hexec⟩ := exists_commit h.accepted
  have hjoins := exec_bid hentry hexec
  obtain ⟨details, pool, -, -, -, -, hst⟩ := hjoins.joined
  rw [refundOwed, refundOwed, ht.feeOf, ht'.feeOf]
  have hteams : (commit (exec api) st c).teams poolId g = st.teams poolId g := by
    rw [hjoins.teams, if_neg fun hk => hg hk.2.symm]
  rw [hteams, hst]

/-- An accepted call that names another type for the pool is a bid on it. -/
theorem namesType_of_acceptsBid (haccepted : (exec api st c).isSome)
    (h : ∀ gamer named, AcceptsBid api gamer named poolId st c → named = poolType) :
    NamesType poolId poolType c.entry := by
  unfold NamesType
  split
  · rename_i info gamer named p teamId amount hentry
    rintro rfl
    exact h gamer named ⟨⟨info, teamId, amount, hentry⟩, haccepted⟩
  · trivial

end Steps

/-- **A pool keeps its type** in exactly the runs in which every accepted bid on it names the
type. -/
theorem keepsType_iff (api : Api) (st : Storage) (hinit : Initial api st) (before : List Call)
    (c : Call) (poolId poolType : String)
    (hcreates : Creates api poolId poolType (run (exec api) st before) c) (after : List Call) :
    KeepsType api poolId poolType (run (exec api) st (before ++ [c])) after ↔
      ∀ x ∈ history (exec api) (run (exec api) st (before ++ [c])) after,
        (exec api x.1 x.2).isSome → NamesType poolId poolType x.2.entry := by
  have hhoused := run_housed hinit before
  have hcreated := ofType_of_creates hhoused hcreates
  have hhoused' := run_housed hinit (before ++ [c])
  rw [run_snoc] at hhoused' ⊢
  generalize commit (exec api) (run (exec api) st before) c = start at hcreated hhoused' ⊢
  constructor
  · intro hlaw x hx haccepted
    obtain ⟨ls, ls', rfl, hstate⟩ := mem_history hx
    refine namesType_of_acceptsBid haccepted fun gamer named hbid => ?_
    -- right after the bid the pool has the type that the bid names
    have hafter := (hlaw.always (ls ++ [x.2]) ⟨ls', by simp⟩).pool
    rw [run_snoc, ← hstate, poolType_of_acceptsBid hbid] at hafter
    exact Option.some.inj hafter
  · intro hnames
    have hstep : ∀ s l s' r, Housed api s ∧ OfType poolId poolType s →
        ((exec api s l).isSome → NamesType poolId poolType l.entry) →
        exec api s l = some (s', r) → Housed api s' ∧ OfType poolId poolType s' := by
      intro s l s' r hs hn hexec
      have heffect := exec_effect hexec
      exact ⟨heffect.housed hs.1, heffect.ofType hs.1 hs.2 (hn (by rw [hexec]; rfl))⟩
    have halways : ∀ ls, ls <+: after → OfType poolId poolType (run (exec api) start ls) := by
      intro ls hls
      exact (run_invariant hstep ⟨hhoused', hcreated⟩
        fun x hx => hnames x (history_subset hls hx)).2
    refine ⟨halways, fun x hx gamer named hbid => ?_, fun x hx gamer named p hbid g hg => ?_⟩
    · obtain ⟨ls, ls', rfl, hstate⟩ := mem_history hx
      obtain ⟨info, teamId, amount, hentry⟩ := hbid.entry
      have hn := hnames x hx hbid.accepted
      rw [hentry] at hn
      rw [hstate, (halways ls ⟨_, rfl⟩).pool]
      exact congrArg some (hn rfl).symm
    · obtain ⟨ls, ls', rfl, hstate⟩ := mem_history hx
      have htype := halways ls ⟨_, rfl⟩
      have htype' := halways (ls ++ [x.2]) ⟨ls', by simp⟩
      rw [run_snoc, ← hstate] at htype'
      rw [← hstate] at htype
      exact refundOwed_of_acceptsBid hbid htype htype' hg

namespace Sample

/-- Two types of pools, a cheap and an expensive one. -/
def typed : List Call := [setType "duel" 10000, setType "grand" 500000]

theorem creates_duel : Creates api "1" "duel" (run (exec api) storage typed) (create "duel") :=
  ⟨⟨_, rfl⟩, by decide +kernel, by decide +kernel⟩

end Sample

open Sample in
/-- Two bids that name the type of the pool. -/
theorem keepsType_duel :
    KeepsType api "1" "duel" (run (exec api) storage (typed ++ [create "duel"]))
      [bid "alice" "duel" "1" "lions" 10000, bid "bob" "duel" "1" "bears" 10000] :=
  (keepsType_iff api storage initial typed (create "duel") "1" "duel" creates_duel _).mpr
    (by decide +kernel)

open Sample in
/-- **A bid of another type changes what the first gamer is owed**: 500000 for a fee of 10000. -/
theorem not_keepsType :
    ¬ ∀ (api : Api) (st : Storage), Initial api st → ∀ (before : List Call) (c : Call)
      (poolId poolType : String),
      Creates api poolId poolType (run (exec api) st before) c → ∀ after,
        KeepsType api poolId poolType (run (exec api) st (before ++ [c])) after := by
  intro h
  have howed := (h api storage initial typed (create "duel") "1" "duel" creates_duel
    ([bid "alice" "duel" "1" "lions" 10000] ++ [bid "bob" "grand" "1" "bears" 500000])).owed _
    (mem_history_append _ [bid "alice" "duel" "1" "lions" 10000]
      (bid "bob" "grand" "1" "bears" 500000) []) "bob" "grand" "1"
    ⟨⟨_, _, _, rfl⟩, by decide +kernel⟩ "alice" (by decide)
  exact absurd howed (by decide +kernel)

end Gamingpool
