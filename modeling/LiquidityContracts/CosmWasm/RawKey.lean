import LiquidityContracts.CosmWasm.Store

/-!
# Raw keys

Below its maps the storage of a contract is one map from bytes to values. A map is no more than a
namespace: what it holds under a key is stored under the namespace, with its length before it, and
the key. So two maps are as separate as their namespaces.

## Main definitions

* `rawKey ns key`: the raw key of a map's key
* `Store.raw ns m`: what a map holds, by raw keys

## Main results

* `rawKey_inj`: a raw key has one namespace and one key
* `Store.raw_rawKey`: every map of the namespace reads the entries
-/

namespace CosmWasm

/-- The bytes of a string. -/
def utf8 (s : String) : List UInt8 := s.toByteArray.data.toList

/-- The length of a namespace, in two bytes. -/
def encodeLength (n : ℕ) : List UInt8 := [UInt8.ofNat (n / 256), UInt8.ofNat n]

/-- The key under which a map of a namespace stores what it holds under a key. -/
def rawKey (ns key : String) : List UInt8 := encodeLength (utf8 ns).length ++ utf8 ns ++ utf8 key

theorem utf8_injective : Function.Injective utf8 := by
  intro s t h
  apply String.toByteArray_inj.mp
  apply ByteArray.ext
  exact Array.toList_inj.mp h

theorem encodeLength_inj {n m : ℕ} (hn : n < 65536) (hm : m < 65536)
    (h : encodeLength n = encodeLength m) : n = m := by
  obtain ⟨hhigh, hlow⟩ : UInt8.ofNat (n / 256) = UInt8.ofNat (m / 256) ∧
      UInt8.ofNat n = UInt8.ofNat m := by
    simpa [encodeLength] using h
  have hhigh := congrArg UInt8.toNat hhigh
  have hlow := congrArg UInt8.toNat hlow
  simp only [UInt8.toNat_ofNat'] at hhigh hlow
  omega

/-- **A raw key has one namespace and one key.** -/
theorem rawKey_inj {ns ns' k k' : String} (hns : (utf8 ns).length < 65536)
    (hns' : (utf8 ns').length < 65536) : rawKey ns k = rawKey ns' k' ↔ ns = ns' ∧ k = k' := by
  constructor
  · intro h
    unfold rawKey at h
    rw [List.append_assoc, List.append_assoc] at h
    -- the lengths are as long as each other, and so are then the namespaces
    obtain ⟨hlength, h⟩ := List.append_inj h rfl
    obtain ⟨hnames, hkeys⟩ := List.append_inj h (encodeLength_inj hns hns' hlength)
    exact ⟨utf8_injective hnames, utf8_injective hkeys⟩
  · rintro ⟨rfl, rfl⟩
    rfl

namespace Store

variable {ν : Type} {ns : String}

/-- What a map of a namespace holds, by raw keys. -/
def raw (ns : String) (m : Store String ν) (key : List UInt8) : Option ν :=
  (m.keys.find? fun k => rawKey ns k = key).bind fun k => m[k]?

/-- **Every map of the namespace** reads the entries. -/
theorem raw_rawKey (hns : (utf8 ns).length < 65536) (m : Store String ν) (k : String) :
    m.raw ns (rawKey ns k) = m[k]? := by
  unfold raw
  cases hfind : m.keys.find? fun a => rawKey ns a = rawKey ns k with
  | some a =>
    have ha := List.find?_some hfind
    rw [decide_eq_true_eq, rawKey_inj hns hns] at ha
    rw [Option.bind_some, ha.2]
  | none =>
    have hnone := List.find?_eq_none.mp hfind
    refine (Option.eq_none_iff_forall_ne_some.mpr fun v hv => ?_).symm
    exact hnone k ((mem_keys_iff m k).mpr ⟨v, hv⟩) (decide_eq_true rfl)

end Store

end CosmWasm
