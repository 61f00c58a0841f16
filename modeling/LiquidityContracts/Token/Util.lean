import LiquidityContracts.Token.Cw20

/-!
# Helpers shared by the contracts

The parts of `util.rs` the contracts use: the amount of a denom in an attached balance, and the
message that transfers a token of either kind.

## Main definitions

* `getAmountOfDenom`: the attached amount of a denom, refused when there is none
* `transferTokenMessage`: the transfer of native coins or cw20 tokens to a receiver

## Main results

* `perMille_eq_ok`: the fees that the contracts compute in per mille of an amount
-/

namespace Util

open CosmWasm Cw20

/-- `NORMAL_DECIMAL`: one whole token, in its smallest unit. -/
def normalDecimal : ℕ := 1000000

/-- `THOUSAND`: the denominator of the fees. -/
def thousand : ℕ := 1000

/-- What is attached to a call: native coins, or tokens of a cw20 contract. -/
inductive Balance where
  | native (coins : List Coin)
  | cw20 (address : Addr) (amount : ℕ)
  deriving DecidableEq, Repr

/-- The errors of the helpers, in the error type of the contract that uses them. -/
class UtilError (ε : Type) where
  nativeInputZero : ε
  cw20InputZero : ε
  tokenTypeMismatch : ε

variable {ε π : Type}

/-- `get_amount_of_denom`: the first coin of the denom counts. -/
def getAmountOfDenom [UtilError ε] (balance : Balance) (denom : Denom) : Exec ε ℕ :=
  match denom, balance with
  | .native nativeStr, .native coins => do
    let coin := (coins.find? fun c => c.denom = nativeStr).getD { denom := "empty", amount := 0 }
    refuse (coin.amount = 0) UtilError.nativeInputZero
    return coin.amount
  | .native _, .cw20 _ _ => fail UtilError.tokenTypeMismatch
  | .cw20 _, .native _ => fail UtilError.tokenTypeMismatch
  | .cw20 cw20Address, .cw20 address amount => do
    refuse (cw20Address ≠ address) UtilError.tokenTypeMismatch
    refuse (amount = 0) UtilError.cw20InputZero
    return amount

/-- `transfer_token_message`. -/
def transferTokenMessage (wrap : Cw20.ExecuteMsg → π) (denom : Denom) (amount : ℕ)
    (receiver : Addr) : CosmosMsg π :=
  match denom with
  | .native nativeStr => .bankSend receiver [⟨nativeStr, amount⟩]
  | .cw20 cw20Address => .wasmExecute cw20Address (wrap (.transfer receiver amount)) []

/-- An amount scaled by a rate in per mille, in 128 bits. -/
theorem perMille_eq_ok {rate amount n : ℕ} :
    (do
      let scaled ← Uint128.mul amount rate
      Uint128.div scaled thousand : Exec ε ℕ) = .ok n ↔
    amount * rate < Uint128.bound ∧ n = amount * rate / thousand := by
  constructor
  · intro h
    obtain ⟨scaled, hscaled, h⟩ := bind_eq_ok.mp h
    obtain ⟨hscaledLt, rfl⟩ := Uint128.mul_eq_ok.mp hscaled
    exact ⟨hscaledLt, (Uint128.div_eq_ok.mp h).2⟩
  · rintro ⟨hscaled, rfl⟩
    rw [bind_of_eq_ok (Uint128.mul_eq_ok.mpr ⟨hscaled, rfl⟩)]
    exact Uint128.div_eq_ok.mpr ⟨by decide, rfl⟩

end Util
