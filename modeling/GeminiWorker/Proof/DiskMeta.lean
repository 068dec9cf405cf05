import GeminiWorker.Lib.JsonLayout
import GeminiWorker.Lib.JsonPointer
import GeminiWorker.Spec.DiskCache

/-!
# The metadata as JSON

What `serde_json` makes of `DiskMeta`, and reads back.

* `DiskMeta.toVec`, `DiskMeta.fromSlice`: an object with the three fields. Other members are passed over.
* `DiskCodec.json`: the codec with these; it reads what it has written.
-/

namespace GeminiWorker

namespace DiskMeta

/-- A number with neither sign, fraction nor exponent. -/
def u64Json (n : UInt64) : Json.Value := .number (String.ofList (Nat.toDigits 10 n.toNat))

def toJson (info : DiskMeta) : Json.Value := .object
  [("mime_type", .string info.mimeType), ("expires_at_unix_ms", u64Json info.expiresAtUnixMs),
    ("size_bytes", u64Json info.sizeBytes)]

def toVec (info : DiskMeta) : List UInt8 := Json.print info.toJson

def asU64 : Json.Value → Option UInt64
  | .number spelling => (Json.parseDigits spelling.toList 0).bind fun n =>
      if n < 2 ^ 64 then some (UInt64.ofNat n) else none
  | _ => none

def fromJson (value : Json.Value) : Option DiskMeta := do
  let mimeType ← (value.get "mime_type").bind Json.Value.asStr
  let expiresAtUnixMs ← (value.get "expires_at_unix_ms").bind asU64
  let sizeBytes ← (value.get "size_bytes").bind asU64
  return ⟨mimeType, expiresAtUnixMs, sizeBytes⟩

def fromSlice (bytes : List UInt8) : Except String DiskMeta :=
  match (Json.parse bytes).bind fromJson with
  | some info => .ok info
  | none => .error "invalid metadata"

theorem isNumber_toDigits (n : ℕ) : Json.isNumber (Nat.toDigits 10 n) = true := by
  have hdigit : ∀ c ∈ Nat.toDigits 10 n, c.isDigit = true :=
    fun c hc => Nat.isDigit_of_mem_toDigits (by decide) (by decide) hc
  have hchars : (Nat.toDigits 10 n).all Json.isNumberChar = true := by
    rw [List.all_eq_true]
    intro c hc
    rw [Json.isNumberChar, hdigit c hc]
    rfl
  have htake : (Nat.toDigits 10 n).takeWhile Char.isDigit = Nat.toDigits 10 n :=
    List.takeWhile_eq_self_iff.mpr hdigit
  have hdrop : (Nat.toDigits 10 n).dropWhile Char.isDigit = [] := List.dropWhile_eq_nil_iff.mpr hdigit
  have hhead : ((Nat.toDigits 10 n).head? != some '0' || (Nat.toDigits 10 n).length == 1) = true := by
    by_cases hzero : n = 0
    · subst hzero
      decide
    · have hne : (Nat.toDigits 10 n).head? ≠ some '0' := fun h => hzero (Json.head?_toDigits h)
      simp [hne]
  have hunsigned : Json.isUnsigned (Nat.toDigits 10 n) = true := by
    rw [Json.isUnsigned, htake, hdrop, hhead]
    simp [Nat.toDigits_ne_nil, Json.isFraction, Json.isExponent]
  rw [Json.isNumber, hchars, Bool.true_and]
  · exact hunsigned
  · intro cs heq
    -- no digit is a minus sign
    exact absurd (hdigit '-' (heq ▸ List.mem_cons_self)) (by decide)

theorem asU64_u64Json (n : UInt64) : asU64 (u64Json n) = some n := by
  have hparse := Json.parseDigits_toDigits n.toNat
  change (Json.parseDigits (String.ofList (Nat.toDigits 10 n.toNat)).toList 0).bind _ = some n
  rw [String.toList_ofList, hparse, Option.bind_some, if_pos n.toNat_lt, UInt64.ofNat_toNat]

theorem fromSlice_toVec (info : DiskMeta) : fromSlice (toVec info) = .ok info := by
  have hdistinct : info.toJson.Distinct := by
    simp [toJson, u64Json, Json.Value.Distinct, Json.Map.keys]
  have hnumeric : info.toJson.Numeric := by
    simp [toJson, u64Json, Json.Value.Numeric, isNumber_toDigits]
  have hmime : info.toJson.get "mime_type" = some (.string info.mimeType) := rfl
  have hexpires : info.toJson.get "expires_at_unix_ms" = some (u64Json info.expiresAtUnixMs) := rfl
  have hsize : info.toJson.get "size_bytes" = some (u64Json info.sizeBytes) := rfl
  have hfields : fromJson info.toJson = some info := by
    rw [fromJson, hmime, hexpires, hsize, Option.bind_some, Option.bind_some, Option.bind_some, asU64_u64Json,
      asU64_u64Json]
    rfl
  rw [fromSlice, toVec, Json.parse_print hdistinct hnumeric, Option.bind_some, hfields]

end DiskMeta

/-- The codec of the repository, with a digest that is given. -/
def DiskCodec.json (sha256 : List UInt8 → List UInt8) : DiskCodec :=
  ⟨sha256, DiskMeta.toVec, DiskMeta.fromSlice, DiskMeta.fromSlice_toVec⟩

/-! ## A URL with its digest -/

def cachedUrl : String := "http://a/i.png"

/-- The digest of the URL. -/
def cachedUrlDigest : List UInt8 :=
  [0x78, 0xd6, 0xbb, 0x36, 0x3d, 0x5c, 0x52, 0xf1, 0x5a, 0x44, 0x3f, 0x10, 0xd3, 0xf4, 0x6b, 0xa8,
    0xff, 0x76, 0x06, 0xa2, 0x7e, 0x2b, 0x91, 0x10, 0xe4, 0x5d, 0x9a, 0x0c, 0x6d, 0x42, 0x52, 0xa9]

/-- The codec, as far as this URL goes. -/
def cachedUrlCodec : DiskCodec := .json fun bytes => if bytes = Text.bytes cachedUrl then cachedUrlDigest else []

end GeminiWorker
