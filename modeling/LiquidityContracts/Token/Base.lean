import LiquidityContracts.CosmWasm.Refinement
import LiquidityContracts.Token.Ledger

/-!
# The token contract

All of `cw20-base`, of which `Cw20` is the ledger. The contract keeps its allowances twice, by owner
and by spender, and writes both maps with every change of either. It also keeps what is told about
the token: the marketing data, which one account may change, and a logo, whose bytes are checked
before they are stored.

## Main definitions

* `Storage`: the stored items
* `verifyLogo`: the check of a logo
* `instantiate`, `execute`, `migrate`: the entry points
* `exec`: a call of the contract
-/

namespace Cw20Base

open CosmWasm Cw20

structure TokenInfo where
  name : String
  symbol : String
  decimals : ℕ
  totalSupply : ℕ
  mint : Option MinterData
  deriving DecidableEq, Repr

/-- A logo that is stored in the contract, as an SVG or a PNG file. -/
inductive EmbeddedLogo where
  | svg (logo : List UInt8)
  | png (logo : List UInt8)
  deriving DecidableEq, Repr

inductive Logo where
  | url (url : String)
  | embedded (logo : EmbeddedLogo)
  deriving DecidableEq, Repr

/-- What is told about a logo. -/
inductive LogoInfo where
  | url (url : String)
  | embedded
  deriving DecidableEq, Repr

structure MarketingInfoResponse where
  project : Option String := none
  description : Option String := none
  logo : Option LogoInfo := none
  /-- The account that may change this data. -/
  marketing : Option Addr := none
  deriving DecidableEq, Repr

/-- The stored items; `TOKEN_INFO` is there once the contract is instantiated. Allowances are stored
by owner and spender, and by spender and owner. -/
structure Storage where
  tokenInfo : TokenInfo
  balances : Store Addr ℕ := ∅
  allowances : Store (Addr × Addr) AllowanceResponse := ∅
  allowancesSpender : Store (Addr × Addr) AllowanceResponse := ∅
  marketingInfo : Option MarketingInfoResponse := none
  logo : Option Logo := none

/-- The errors: those of the ledger, and those of a logo. -/
inductive ContractError where
  | ledger (e : Cw20.ContractError)
  | logoTooBig
  | invalidXmlPreamble
  | invalidPngHeader
  deriving DecidableEq, Repr

instance : OfStdError ContractError := ⟨fun e => .ledger (.std e)⟩

structure InstantiateMarketingInfo where
  project : Option String
  description : Option String
  marketing : Option String
  logo : Option Logo
  deriving DecidableEq, Repr

structure InstantiateMsg extends Cw20.InstantiateMsg where
  marketing : Option InstantiateMarketingInfo
  deriving DecidableEq, Repr

/-- The messages: those that touch the ledger, and those about the token. -/
inductive ExecuteMsg where
  | ledger (msg : Cw20.ExecuteMsg)
  | updateMarketing (project description marketing : Option String)
  | uploadLogo (logo : Logo)
  deriving DecidableEq, Repr

/-- A version of the contract; of two with the same numbers, one with a pre-release part is the
older one. -/
structure Version where
  major : ℕ
  minor : ℕ
  patch : ℕ
  preRelease : Option String
  deriving DecidableEq, Repr

/-! ## Logos -/

/-- `LOGO_SIZE_CAP`. -/
def logoSizeCap : ℕ := 5 * 1024

/-- The byte `>`. -/
def closingBracket : UInt8 := 62

/-- The first part of `split_inclusive(|c| *c == b'>')`. -/
def firstPart (data : List UInt8) : Option (List UInt8) :=
  if data = [] then none
  else
    some (data.takeWhile (· ≠ closingBracket) ++ (data.dropWhile (· ≠ closingBracket)).take 1)

/-- `verify_xml_preamble`: the first part starts with `<?xml ` and ends with `?>`. -/
def verifyXmlPreamble (data : List UInt8) : Exec ContractError Unit :=
  match firstPart data with
  | none => fail .invalidXmlPreamble
  | some preamble =>
    refuse (¬ (List.isPrefixOf [60, 63, 120, 109, 108, 32] preamble ∧
      List.isSuffixOf [63, 62] preamble)) .invalidXmlPreamble

/-- `verify_xml_logo`. -/
def verifyXmlLogo (logo : List UInt8) : Exec ContractError Unit := do
  verifyXmlPreamble logo
  refuse (logoSizeCap < logo.length) .logoTooBig

/-- The header of a PNG file. -/
def pngHeader : List UInt8 := [0x89, 80, 78, 71, 0x0d, 0x0a, 0x1a, 0x0a]

/-- `verify_png_logo`. -/
def verifyPngLogo (logo : List UInt8) : Exec ContractError Unit := do
  refuse (logoSizeCap < logo.length) .logoTooBig
  refuse (¬ pngHeader.isPrefixOf logo) .invalidPngHeader

/-- `verify_logo`. -/
def verifyLogo : Logo → Exec ContractError Unit
  | .embedded (.svg logo) => verifyXmlLogo logo
  | .embedded (.png logo) => verifyPngLogo logo
  | .url _ => return ()

/-- What is told about a logo that is stored. -/
def Logo.info : Logo → LogoInfo
  | .url s => .url s
  | .embedded _ => .embedded

/-! ## Instantiation -/

/-- The marketing data a token starts with, and its logo. -/
def createMarketing (api : Api) (marketing : InstantiateMarketingInfo) :
    Exec ContractError (MarketingInfoResponse × Option Logo) := do
  match marketing.logo with
  | some logo => verifyLogo logo
  | none => pure ()
  let account ← marketing.marketing.mapM (validate api)
  return ({ project := marketing.project
            description := marketing.description
            marketing := account
            logo := marketing.logo.map Logo.info }, marketing.logo)

/-- `instantiate`. -/
def instantiate (api : Api) (msg : InstantiateMsg) : Exec ContractError Storage := do
  let ledger ← liftError ContractError.ledger (Cw20.instantiate api msg.toInstantiateMsg)
  let st : Storage :=
    { tokenInfo :=
        { name := msg.name
          symbol := msg.symbol
          decimals := msg.decimals
          totalSupply := ledger.totalSupply
          mint := ledger.mint }
      balances := ledger.balances }
  match msg.marketing with
  | none => return st
  | some marketing => do
    let (marketingInfo, logo) ← createMarketing api marketing
    return { st with marketingInfo := some marketingInfo, logo }

/-! ## Messages -/

/-- `get_cap`. -/
def TokenInfo.getCap (info : TokenInfo) : Option ℕ := info.mint.bind MinterData.cap

/-- The update of a balance that takes an amount out of it. -/
def takeOut (amount : ℕ) (balance : Option ℕ) : Exec ContractError ℕ :=
  Uint128.checkedSub (balance.getD 0) amount

/-- The update of a balance that adds an amount to it. -/
def putIn (amount : ℕ) (balance : Option ℕ) : Exec ContractError ℕ :=
  Uint128.add (balance.getD 0) amount

/-- The update of an allowance that raises it. -/
def raise (amount : ℕ) (expires : Option Expiration) (allow : Option AllowanceResponse) :
    Exec ContractError AllowanceResponse := do
  let val := allow.getD {}
  let allowance ← Uint128.add val.allowance amount
  return { allowance, expires := expires.getD val.expires }

/-- The update of an allowance that is spent from. -/
def deduct (block : BlockInfo) (amount : ℕ) (current : Option AllowanceResponse) :
    Exec ContractError AllowanceResponse :=
  match current with
  | some a => do
    refuse (a.expires.isExpired block) (.ledger .expired)
    let allowance ← Uint128.checkedSub a.allowance amount
    return { a with allowance }
  | none => fail (.ledger .noAllowance)

/-- White space as Unicode has it. -/
def isWhiteSpace (c : Char) : Bool :=
  let n := c.toNat
  (9 ≤ n ∧ n ≤ 13) ∨ n = 32 ∨ n = 0x85 ∨ n = 0xa0 ∨ n = 0x1680 ∨ (0x2000 ≤ n ∧ n ≤ 0x200a) ∨
    n = 0x2028 ∨ n = 0x2029 ∨ n = 0x202f ∨ n = 0x205f ∨ n = 0x3000

/-- `s.trim().is_empty()`. -/
def isBlank (s : String) : Bool := s.toList.all isWhiteSpace

/-- A text that a message leaves, clears with a blank, or replaces. -/
def updateText (old : Option String) : Option String → Option String
  | none => old
  | some text => if isBlank text then none else some text

section Handlers

variable (api : Api) (env : Env) (info : MessageInfo) (st : Storage)

/-- `deduct_allowance`. -/
def deductAllowance (owner spender : Addr) (amount : ℕ) : Exec ContractError Storage := do
  let allowances ← st.allowances.update (owner, spender) (deduct env.block amount)
  let allowancesSpender ← st.allowancesSpender.update (spender, owner) (deduct env.block amount)
  return { st with allowances, allowancesSpender }

/-- The balances after an amount is moved. -/
def moveBalance (owner recipient : Addr) (amount : ℕ) : Exec ContractError Storage := do
  let balances ← st.balances.update owner (takeOut amount)
  let balances ← balances.update recipient (putIn amount)
  return { st with balances }

/-- The balances and the supply after an amount is burnt. -/
def burnBalance (owner : Addr) (amount : ℕ) : Exec ContractError Storage := do
  let balances ← st.balances.update owner (takeOut amount)
  let totalSupply ← Uint128.checkedSub st.tokenInfo.totalSupply amount
  return { st with balances, tokenInfo := { st.tokenInfo with totalSupply } }

/-- `execute_transfer`. -/
def executeTransfer (recipient : String) (amount : ℕ) :
    Exec ContractError (Storage × Response Cw20ReceiveMsg) := do
  refuse (amount = 0) (.ledger .invalidZeroAmount)
  let rcptAddr ← validate api recipient
  let st ← moveBalance st info.sender rcptAddr amount
  return (st, {})

/-- `execute_burn`. -/
def executeBurn (amount : ℕ) : Exec ContractError (Storage × Response Cw20ReceiveMsg) := do
  refuse (amount = 0) (.ledger .invalidZeroAmount)
  let st ← burnBalance st info.sender amount
  return (st, {})

/-- `execute_mint`. -/
def executeMint (recipient : String) (amount : ℕ) :
    Exec ContractError (Storage × Response Cw20ReceiveMsg) := do
  refuse (amount = 0) (.ledger .invalidZeroAmount)
  let config := st.tokenInfo
  match config.mint with
  | none => fail (.ledger .unauthorized)
  | some mint =>
    refuse (mint.minter ≠ info.sender) (.ledger .unauthorized)
    let totalSupply ← Uint128.add config.totalSupply amount
    let config := { config with totalSupply }
    refuse (∃ limit ∈ config.getCap, limit < config.totalSupply) (.ledger .cannotExceedCap)
    let rcptAddr ← validate api recipient
    let balances ← st.balances.update rcptAddr (putIn amount)
    return ({ st with tokenInfo := config, balances }, {})

/-- `execute_send`. -/
def executeSend (contract : String) (amount : ℕ) (msg : String) :
    Exec ContractError (Storage × Response Cw20ReceiveMsg) := do
  refuse (amount = 0) (.ledger .invalidZeroAmount)
  let rcptAddr ← validate api contract
  let st ← moveBalance st info.sender rcptAddr amount
  return (st, { messages := [.wasmExecute contract ⟨info.sender, amount, msg⟩ []] })

/-- `execute_update_minter`. -/
def executeUpdateMinter (newMinter : Option String) :
    Exec ContractError (Storage × Response Cw20ReceiveMsg) := do
  let config := st.tokenInfo
  match config.mint with
  | none => fail (.ledger .unauthorized)
  | some mint =>
    refuse (mint.minter ≠ info.sender) (.ledger .unauthorized)
    let minter ← newMinter.mapM (validate api)
    let mint := minter.map fun minter => ({ minter, cap := mint.cap } : MinterData)
    return ({ st with tokenInfo := { config with mint } }, {})

/-- `execute_increase_allowance`. -/
def executeIncreaseAllowance (spender : String) (amount : ℕ) (expires : Option Expiration) :
    Exec ContractError (Storage × Response Cw20ReceiveMsg) := do
  let spenderAddr ← validate api spender
  refuse (spenderAddr = info.sender) (.ledger .cannotSetOwnAccount)
  let allowances ← st.allowances.update (info.sender, spenderAddr) (raise amount expires)
  let allowancesSpender ←
    st.allowancesSpender.update (spenderAddr, info.sender) (raise amount expires)
  return ({ st with allowances, allowancesSpender }, {})

/-- `execute_decrease_allowance`. -/
def executeDecreaseAllowance (spender : String) (amount : ℕ) (expires : Option Expiration) :
    Exec ContractError (Storage × Response Cw20ReceiveMsg) := do
  let spenderAddr ← validate api spender
  refuse (spenderAddr = info.sender) (.ledger .cannotSetOwnAccount)
  let key := (info.sender, spenderAddr)
  let allowance ← load "AllowanceResponse" (st.allowances[key]?)
  if amount < allowance.allowance then
    let left ← Uint128.checkedSub allowance.allowance amount
    let allowance := { allowance := left, expires := expires.getD allowance.expires }
    return ({ st with
      allowances := st.allowances.insert key allowance
      allowancesSpender := st.allowancesSpender.insert key.swap allowance }, {})
  else
    return ({ st with
      allowances := st.allowances.erase key
      allowancesSpender := st.allowancesSpender.erase key.swap }, {})

/-- `execute_transfer_from`. -/
def executeTransferFrom (owner recipient : String) (amount : ℕ) :
    Exec ContractError (Storage × Response Cw20ReceiveMsg) := do
  let rcptAddr ← validate api recipient
  let ownerAddr ← validate api owner
  let st ← deductAllowance env st ownerAddr info.sender amount
  let st ← moveBalance st ownerAddr rcptAddr amount
  return (st, {})

/-- `execute_burn_from`. -/
def executeBurnFrom (owner : String) (amount : ℕ) :
    Exec ContractError (Storage × Response Cw20ReceiveMsg) := do
  let ownerAddr ← validate api owner
  let st ← deductAllowance env st ownerAddr info.sender amount
  let st ← burnBalance st ownerAddr amount
  return (st, {})

/-- `execute_send_from`. -/
def executeSendFrom (owner contract : String) (amount : ℕ) (msg : String) :
    Exec ContractError (Storage × Response Cw20ReceiveMsg) := do
  let rcptAddr ← validate api contract
  let ownerAddr ← validate api owner
  let st ← deductAllowance env st ownerAddr info.sender amount
  let st ← moveBalance st ownerAddr rcptAddr amount
  return (st, { messages := [.wasmExecute contract ⟨info.sender, amount, msg⟩ []] })

/-- The messages of the ledger. -/
def executeLedger : Cw20.ExecuteMsg → Exec ContractError (Storage × Response Cw20ReceiveMsg)
  | .transfer recipient amount => executeTransfer api info st recipient amount
  | .burn amount => executeBurn info st amount
  | .send contract amount msg => executeSend api info st contract amount msg
  | .mint recipient amount => executeMint api info st recipient amount
  | .increaseAllowance spender amount expires =>
    executeIncreaseAllowance api info st spender amount expires
  | .decreaseAllowance spender amount expires =>
    executeDecreaseAllowance api info st spender amount expires
  | .transferFrom owner recipient amount =>
    executeTransferFrom api env info st owner recipient amount
  | .burnFrom owner amount => executeBurnFrom api env info st owner amount
  | .sendFrom owner contract amount msg =>
    executeSendFrom api env info st owner contract amount msg
  | .updateMinter newMinter => executeUpdateMinter api info st newMinter

/-- The marketing data, which only the account that it names may change. -/
def checkMarketing (marketingInfo : MarketingInfoResponse) : Exec ContractError Unit :=
  match marketingInfo.marketing with
  | none => fail (.ledger .unauthorized)
  | some account => refuse (account ≠ info.sender) (.ledger .unauthorized)

/-- The account after a message that leaves it, clears it with a blank, or replaces it. -/
def updateAccount (old : Option Addr) : Option String → Exec ContractError (Option Addr)
  | none => return old
  | some account => do
    if isBlank account then return none
    else
      let addr ← validate api account
      return some addr

/-- The data as it is stored: data without anything in it is removed. -/
def MarketingInfoResponse.stored (marketingInfo : MarketingInfoResponse) :
    Option MarketingInfoResponse :=
  if marketingInfo = {} then none else some marketingInfo

/-- `execute_update_marketing`. -/
def executeUpdateMarketing (project description marketing : Option String) :
    Exec ContractError (Storage × Response Cw20ReceiveMsg) := do
  match st.marketingInfo with
  | none => fail (.ledger .unauthorized)
  | some old =>
    checkMarketing info old
    let account ← updateAccount api old.marketing marketing
    let marketingInfo := { old with
      project := updateText old.project project
      description := updateText old.description description
      marketing := account }
    return ({ st with marketingInfo := marketingInfo.stored }, {})

/-- `execute_upload_logo`. -/
def executeUploadLogo (logo : Logo) : Exec ContractError (Storage × Response Cw20ReceiveMsg) := do
  match st.marketingInfo with
  | none => fail (.ledger .unauthorized)
  | some marketingInfo =>
    verifyLogo logo
    checkMarketing info marketingInfo
    return ({ st with
      logo := some logo
      marketingInfo := some { marketingInfo with logo := some logo.info } }, {})

/-- `execute`. -/
def execute : ExecuteMsg → Exec ContractError (Storage × Response Cw20ReceiveMsg)
  | .ledger msg => executeLedger api env info st msg
  | .updateMarketing project description marketing =>
    executeUpdateMarketing api info st project description marketing
  | .uploadLogo logo => executeUploadLogo info st logo

end Handlers

/-! ## Migration -/

/-- A version is older than `major.minor.patch`. -/
def Version.olderThan (v : Version) (major minor patch : ℕ) : Bool :=
  v.major < major ∨ v.major = major ∧ (v.minor < minor ∨ v.minor = minor ∧
    (v.patch < patch ∨ v.patch = patch ∧ v.preRelease.isSome))

/-- `migrate`, from the version that `ensure_from_older_version` returns: the allowances by spender
are there from version 0.14.0 on. -/
def migrate (originalVersion : Exec ContractError Version) (st : Storage) :
    Exec ContractError Storage := do
  let originalVersion ← originalVersion
  if originalVersion.olderThan 0 14 0 then
    return { st with
      allowancesSpender := st.allowances.toList.foldl
        (fun allowances x => allowances.insert x.1.swap x.2) st.allowancesSpender }
  else return st

/-! ## Queries -/

structure TokenInfoResponse where
  name : String
  symbol : String
  decimals : ℕ
  totalSupply : ℕ
  deriving DecidableEq, Repr

structure DownloadLogoResponse where
  mimeType : String
  data : List UInt8
  deriving DecidableEq, Repr

section Queries

variable (api : Api) (st : Storage)

/-- `query_balance`. -/
def queryBalance (address : String) : Exec StdError ℕ := do
  let address ← validate api address
  return (st.balances[address]?).getD 0

/-- `query_token_info`. -/
def queryTokenInfo : TokenInfoResponse where
  name := st.tokenInfo.name
  symbol := st.tokenInfo.symbol
  decimals := st.tokenInfo.decimals
  totalSupply := st.tokenInfo.totalSupply

/-- `query_minter`. -/
def queryMinter : Option MinterResponse := st.tokenInfo.mint.map fun m => ⟨m.minter, m.cap⟩

/-- `query_allowance`. -/
def queryAllowance (owner spender : String) : Exec StdError AllowanceResponse := do
  let ownerAddr ← validate api owner
  let spenderAddr ← validate api spender
  return (st.allowances[(ownerAddr, spenderAddr)]?).getD {}

/-- `query_marketing_info`. -/
def queryMarketingInfo : MarketingInfoResponse := st.marketingInfo.getD {}

/-- `query_download_logo`. -/
def queryDownloadLogo : Exec StdError DownloadLogoResponse := do
  let logo ← load "Logo" st.logo
  match logo with
  | .embedded (.svg logo) => return ⟨"image/svg+xml", logo⟩
  | .embedded (.png logo) => return ⟨"image/png", logo⟩
  | .url _ => fail (.notFound "logo")

end Queries

/-! ## Runs -/

/-- A call as the contract receives it. -/
structure Call where
  env : Env
  info : MessageInfo
  msg : ExecuteMsg
  deriving DecidableEq, Repr

/-- A call, which changes nothing when it is reverted. -/
def exec (api : Api) (st : Storage) (c : Call) : Option (Storage × Response Cw20ReceiveMsg) :=
  (execute api c.env c.info st c.msg).toOption

/-- The contract has just been instantiated. -/
def Initial (api : Api) (st : Storage) : Prop := ∃ msg, instantiate api msg = .ok st

/-! ## A token with one holder -/

namespace Sample

/-- A chain that accepts every address. -/
def acceptsAll : Api := fun s => .ok s

def instantiateMsg : InstantiateMsg where
  name := "Fury"
  symbol := "FURY"
  decimals := 6
  initialBalances := [⟨"alice", 100⟩]
  mint := some ⟨"minter", some 150⟩
  marketing := none

/-- The token after it is instantiated. -/
def token : Storage := (instantiate acceptsAll instantiateMsg).toOption.get (by decide +kernel)

theorem initial : Initial acceptsAll token :=
  ⟨instantiateMsg, toOption_eq_some.mp (Option.some_get _).symm⟩

def env : Env := ⟨⟨100, 1700000000000000000⟩, "token"⟩

def call (sender : Addr) (msg : Cw20.ExecuteMsg) : Call := ⟨env, ⟨sender, []⟩, .ledger msg⟩

/-- A holder lends 60 to a spender, who takes 50 of them, and takes back what is left. -/
def lending : List Call :=
  [call "alice" (.increaseAllowance "bob" 60 none), call "bob" (.transferFrom "alice" "carol" 50),
    call "alice" (.decreaseAllowance "bob" 20 none)]

/-- The token as a version without the second map has left it, with an allowance. -/
def outdated : Storage :=
  { token with
    allowances := (∅ : Store (Addr × Addr) AllowanceResponse).insert ("alice", "bob")
      { allowance := 60 } }

end Sample

end Cw20Base
