import LiquidityContracts.Token.Refinement

/-!
# The marketing data and the logo

What is told about a token is changed by the account that the data names, and by nobody once it
names none. A logo is checked whenever one is stored, so that what a client downloads is small and
has the form that its type says, and the data says of the stored logo what it is.

## Main definitions

* `Storage.told`: the marketing data and the logo
* `Described`: the stored logo is checked, and the data says what it is

## Main results

* `exec_told`: who changes the data
* `run_described`: the logo in every run, and what is downloaded
* `run_told`: the data is frozen once it names no account
-/

namespace Cw20Base

open CosmWasm Cw20

/-- What is told about a token: the marketing data and the logo. -/
def Storage.told (st : Storage) : Option MarketingInfoResponse × Option Logo :=
  (st.marketingInfo, st.logo)

/-- The stored logo is checked, and the data says what it is. -/
structure Described (st : Storage) : Prop where
  verified : ∀ logo ∈ st.logo, verifyLogo logo = .ok ()
  info_eq : st.marketingInfo.bind MarketingInfoResponse.logo = st.logo.map Logo.info

section Messages

variable {api : Api} {env : Env} {info : MessageInfo} {st st' : Storage}
  {r : Response Cw20ReceiveMsg}

/-- A message of the ledger changes nothing of what is told. -/
theorem executeLedger_told {msg : Cw20.ExecuteMsg}
    (h : executeLedger api env info st msg = .ok (st', r)) : st'.told = st.told := by
  have hbeside := executeLedger_beside h
  rw [Storage.told, hbeside.marketingInfo, hbeside.logo, Storage.told]

theorem checkMarketing_eq_ok {marketingInfo : MarketingInfoResponse} {u : Unit} :
    checkMarketing info marketingInfo = .ok u ↔ marketingInfo.marketing = some info.sender := by
  unfold checkMarketing
  cases marketingInfo.marketing with
  | none => simp
  | some account => simp [refuse_eq_ok]

/-- The account that the data names may change it, and the logo that the data tells of stays. -/
theorem executeUpdateMarketing_spec {project description marketing : Option String}
    (h : executeUpdateMarketing api info st project description marketing = .ok (st', r)) :
    st'.logo = st.logo ∧ ∃ old, st.marketingInfo = some old ∧ old.marketing = some info.sender ∧
      st'.marketingInfo.bind MarketingInfoResponse.logo = old.logo := by
  unfold executeUpdateMarketing at h
  split at h
  · exact absurd h (fail_ne_ok _ _)
  · rename_i old hold
    obtain ⟨u, hcheck, h⟩ := bind_eq_ok.mp h
    obtain ⟨account, -, h⟩ := bind_eq_ok.mp h
    cases h
    refine ⟨rfl, old, hold, checkMarketing_eq_ok.mp hcheck, ?_⟩
    unfold MarketingInfoResponse.stored
    split
    · rename_i hempty
      -- data that is removed tells of no logo
      exact (congrArg MarketingInfoResponse.logo hempty).symm
    · rfl

theorem executeUploadLogo_spec {logo : Logo}
    (h : executeUploadLogo info st logo = .ok (st', r)) :
    verifyLogo logo = .ok () ∧ st'.logo = some logo ∧
      st'.marketingInfo.bind MarketingInfoResponse.logo = some logo.info ∧
      ∃ old, st.marketingInfo = some old ∧ old.marketing = some info.sender := by
  unfold executeUploadLogo at h
  split at h
  · exact absurd h (fail_ne_ok _ _)
  · rename_i old hold
    obtain ⟨⟨⟩, hverify, h⟩ := bind_eq_ok.mp h
    obtain ⟨u, hcheck, h⟩ := bind_eq_ok.mp h
    cases h
    exact ⟨hverify, rfl, rfl, old, hold, checkMarketing_eq_ok.mp hcheck⟩

end Messages

section Calls

variable {api : Api} {st st' : Storage} {c : Call} {r : Response Cw20ReceiveMsg}

/-- **Nobody but the account that the data names** changes what is told. -/
theorem exec_told (h : exec api st c = some (st', r)) :
    st'.told = st.told ∨
      ∃ old, st.marketingInfo = some old ∧ old.marketing = some c.info.sender := by
  obtain ⟨env, info, msg⟩ := c
  have hok := toOption_eq_some.mp h
  cases msg with
  | ledger msg => exact .inl (executeLedger_told hok)
  | updateMarketing project description marketing =>
    obtain ⟨-, old, hold, haccount, -⟩ := executeUpdateMarketing_spec hok
    exact .inr ⟨old, hold, haccount⟩
  | uploadLogo logo =>
    obtain ⟨-, -, -, old, hold, haccount⟩ := executeUploadLogo_spec hok
    exact .inr ⟨old, hold, haccount⟩

theorem Described.congr (hst : Described st) (h : st'.told = st.told) : Described st' := by
  obtain ⟨hinfo, hlogo⟩ := Prod.ext_iff.mp h
  have hinfo' : st'.marketingInfo = st.marketingInfo := hinfo
  have hlogo' : st'.logo = st.logo := hlogo
  constructor
  · rw [hlogo']
    exact hst.verified
  · rw [hlogo', hinfo']
    exact hst.info_eq

/-- **Every message** leaves a logo that is checked, of which the data says what it is. -/
theorem exec_described (hst : Described st) (h : exec api st c = some (st', r)) :
    Described st' := by
  obtain ⟨env, info, msg⟩ := c
  have hok := toOption_eq_some.mp h
  cases msg with
  | ledger msg => exact hst.congr (executeLedger_told hok)
  | updateMarketing project description marketing =>
    obtain ⟨hlogo, old, hold, -, hkept⟩ := executeUpdateMarketing_spec hok
    refine ⟨hlogo ▸ hst.verified, ?_⟩
    have hbefore := hst.info_eq
    rw [hold] at hbefore
    rw [hkept, hlogo]
    exact hbefore
  | uploadLogo logo =>
    obtain ⟨hverify, hlogo, hinfo, -⟩ := executeUploadLogo_spec hok
    refine ⟨?_, by rw [hinfo, hlogo]; rfl⟩
    rw [hlogo]
    rintro l ⟨⟩
    exact hverify

/-- The logo that a token starts with is checked. -/
theorem createMarketing_spec {marketing : InstantiateMarketingInfo}
    {marketingInfo : MarketingInfoResponse} {logo : Option Logo}
    (h : createMarketing api marketing = .ok (marketingInfo, logo)) :
    (∀ l ∈ logo, verifyLogo l = .ok ()) ∧ marketingInfo.logo = logo.map Logo.info := by
  unfold createMarketing at h
  cases hlogo : marketing.logo with
  | none =>
    rw [hlogo] at h
    obtain ⟨account, -, h⟩ := bind_eq_ok.mp h
    cases h
    exact ⟨nofun, rfl⟩
  | some l =>
    rw [hlogo] at h
    obtain ⟨⟨⟩, hverify, h⟩ := bind_eq_ok.mp h
    obtain ⟨account, -, h⟩ := bind_eq_ok.mp h
    cases h
    refine ⟨?_, rfl⟩
    rintro l' ⟨⟩
    exact hverify

theorem Initial.described (h : Initial api st) : Described st := by
  obtain ⟨msg, hmsg⟩ := h
  unfold instantiate at hmsg
  obtain ⟨ledger, -, hmsg⟩ := bind_eq_ok.mp hmsg
  split at hmsg
  · cases hmsg
    exact ⟨nofun, rfl⟩
  · obtain ⟨⟨marketingInfo, logo⟩, hcreate, hmsg⟩ := bind_eq_ok.mp hmsg
    cases hmsg
    obtain ⟨hverified, hinfo⟩ := createMarketing_spec hcreate
    exact ⟨hverified, hinfo⟩

/-- A logo that is downloaded is small, and has the form that its type says. -/
structure Downloadable (download : DownloadLogoResponse) : Prop where
  small : download.data.length ≤ logoSizeCap
  form : download.mimeType = "image/svg+xml" ∧ verifyXmlPreamble download.data = .ok () ∨
    download.mimeType = "image/png" ∧ pngHeader <+: download.data

/-- What is downloaded is the stored logo. -/
theorem queryDownloadLogo_eq_ok {download : DownloadLogoResponse} :
    queryDownloadLogo st = .ok download ↔
      st.logo = some (.embedded (.svg download.data)) ∧ download.mimeType = "image/svg+xml" ∨
        st.logo = some (.embedded (.png download.data)) ∧ download.mimeType = "image/png" := by
  obtain ⟨mimeType, data⟩ := download
  unfold queryDownloadLogo
  rw [bind_eq_ok]
  simp only [load_eq_ok]
  constructor
  · rintro ⟨logo, hlogo, h⟩
    rw [hlogo]
    split at h
    · cases h
      exact .inl ⟨rfl, rfl⟩
    · cases h
      exact .inr ⟨rfl, rfl⟩
    · exact absurd h (fail_ne_ok _ _)
  · rintro (⟨hlogo, rfl⟩ | ⟨hlogo, rfl⟩)
    · exact ⟨_, hlogo, rfl⟩
    · exact ⟨_, hlogo, rfl⟩

/-- A logo can be downloaded when the data says that it is embedded. -/
theorem Described.downloads_iff (h : Described st) : (∃ download, queryDownloadLogo st = .ok download) ↔
    (queryMarketingInfo st).logo = some .embedded := by
  have hinfo : (queryMarketingInfo st).logo = st.logo.map Logo.info := by
    rw [← h.info_eq, queryMarketingInfo]
    cases st.marketingInfo with
    | none => rfl
    | some m => rfl
  rw [hinfo]
  simp only [queryDownloadLogo_eq_ok]
  constructor
  · rintro ⟨download, ⟨hlogo, -⟩ | ⟨hlogo, -⟩⟩
    · rw [hlogo]
      rfl
    · rw [hlogo]
      rfl
  · intro hembedded
    obtain ⟨logo, hlogo, hkind⟩ := Option.map_eq_some_iff.mp hembedded
    cases logo with
    | url s => cases hkind
    | embedded logo =>
      cases logo with
      | svg data => exact ⟨⟨_, data⟩, .inl ⟨hlogo, rfl⟩⟩
      | png data => exact ⟨⟨_, data⟩, .inr ⟨hlogo, rfl⟩⟩

theorem Described.downloadable (h : Described st) {download : DownloadLogoResponse}
    (hdownload : queryDownloadLogo st = .ok download) : Downloadable download := by
  rcases queryDownloadLogo_eq_ok.mp hdownload with ⟨hlogo, htype⟩ | ⟨hlogo, htype⟩
  · obtain ⟨⟨⟩, hxml, hsize⟩ := bind_eq_ok.mp (h.verified _ hlogo)
    exact ⟨not_lt.mp (refuse_eq_ok.mp hsize), .inl ⟨htype, hxml⟩⟩
  · obtain ⟨hsize, hheader⟩ := refuse_bind_eq_ok.mp (h.verified _ hlogo)
    exact ⟨not_lt.mp hsize,
      .inr ⟨htype, List.isPrefixOf_iff_prefix.mp (not_not.mp (refuse_eq_ok.mp hheader))⟩⟩

end Calls

/-! ## Runs -/

namespace Sample

/-- The smallest logo. -/
def svg : List UInt8 := [60, 63, 120, 109, 108, 32, 63, 62]

def brandedMsg : InstantiateMsg :=
  { instantiateMsg with
    marketing := some ⟨none, none, some "alice", some (.embedded (.svg svg))⟩ }

/-- A token with a logo, of which the holder tells. -/
def branded : Storage := (instantiate acceptsAll brandedMsg).toOption.get (by decide +kernel)

theorem branded_initial : Initial acceptsAll branded :=
  ⟨brandedMsg, toOption_eq_some.mp (Option.some_get _).symm⟩

end Sample

section Runs

variable {api : Api} {st : Storage}

/-- **In every run** a logo is stored only after it is checked: a client can download it exactly when
the marketing data says that it is embedded, and what it gets is small and has the form that its type
says. -/
theorem run_described (h : Initial api st) (cs : List Call) :
    ((∃ download, queryDownloadLogo (run (exec api) st cs) = .ok download) ↔
        (queryMarketingInfo (run (exec api) st cs)).logo = some .embedded) ∧
      ∀ download, queryDownloadLogo (run (exec api) st cs) = .ok download →
        Downloadable download := by
  have hdescribed : Described (run (exec api) st cs) :=
    run_preserves (fun _ _ _ _ hst hexec => exec_described hst hexec) h.described cs
  exact ⟨hdescribed.downloads_iff, fun _ hdownload => hdescribed.downloadable hdownload⟩

open Sample in
theorem run_described_sample :
    ((∃ download, queryDownloadLogo (run (exec acceptsAll) branded lending) = .ok download) ↔
        (queryMarketingInfo (run (exec acceptsAll) branded lending)).logo = some .embedded) ∧
      ∀ download, queryDownloadLogo (run (exec acceptsAll) branded lending) = .ok download →
        Downloadable download :=
  run_described branded_initial lending

/-- **What is told** stays as it is in every run without a call of the account that the data names,
and so in every run once it names none. -/
theorem run_told (api : Api) (st : Storage) (cs : List Call)
    (h : ∀ m ∈ st.marketingInfo, ∀ c ∈ cs, m.marketing ≠ some c.info.sender) :
    (run (exec api) st cs).told = st.told := by
  refine run_invariant (I := fun st₁ : Storage => st₁.told = st.told)
    (P := fun _ c => ∀ m ∈ st.marketingInfo, m.marketing ≠ some c.info.sender)
    (fun st₁ c st₂ r hst hother hexec => ?_) rfl fun x hx m hm => h m hm x.2 (label_mem hx)
  rcases exec_told hexec with hsame | ⟨old, hold, haccount⟩
  · exact hsame.trans hst
  · have hinfo : st₁.marketingInfo = st.marketingInfo := (Prod.ext_iff.mp hst).1
    exact absurd haccount (hother old (hinfo ▸ hold))

open Sample in
/-- A stranger uploads another logo. -/
theorem run_told_sample :
    (run (exec acceptsAll) branded [⟨env, ⟨"mallory", []⟩, .uploadLogo (.url "elsewhere")⟩]).told =
      branded.told :=
  run_told acceptsAll branded _ (by decide +kernel)

end Runs

end Cw20Base
