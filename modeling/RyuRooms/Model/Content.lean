import RyuRooms.Foundation.Bytes
import RyuRooms.Model.Seal

/-! # Content keys and the two envelopes

`content.rs` of the crate `ryu-crypto`: how a store derives its keys, what a value is bound to, and the
envelopes of text and of bytes. `Crates` holds the primitives of other crates. Encryption is total here,
since ChaCha20-Poly1305 refuses only messages of 256 GiB and more, and random bytes are arguments.
-/

namespace RyuRooms

open Foundation

/-- `str::as_bytes`. -/
def utf8 (value : String) : Bytes := value.toByteArray.data.toList

/-- `String::from_utf8`. -/
def fromUtf8 (bytes : Bytes) : Option String := String.fromUTF8? bytes.toByteArray

theorem length_utf8 (value : String) : (utf8 value).length = value.utf8ByteSize := by
  rw [utf8, Array.length_toList]
  rfl

theorem utf8_append (first second : String) : utf8 (first ++ second) = utf8 first ++ utf8 second := by
  rw [utf8, String.toByteArray_append]
  exact congrArg Array.toList (ByteArray.data_append ..) |>.trans Array.toList_append

theorem fromUtf8_utf8 (value : String) : fromUtf8 (utf8 value) = some value := by
  have bytes : (utf8 value).toByteArray = value.toByteArray := by
    rw [ByteArray.ext_iff, List.data_toByteArray, utf8, Array.toArray_toList]
  rw [fromUtf8, bytes, String.fromUTF8?, dif_pos value.isValidUTF8]
  exact congrArg some (String.toByteArray_inj.mp rfl)

theorem utf8_of_fromUtf8 {bytes : Bytes} {text : String} (decoded : fromUtf8 bytes = some text) : utf8 text = bytes := by
  rw [fromUtf8, String.fromUTF8?] at decoded
  split at decoded
  · obtain rfl := Option.some.inj decoded
    change bytes.toByteArray.data.toList = bytes
    rw [List.data_toByteArray]
  · cases decoded

namespace Crypto

/-- The primitives of the crates `hkdf`, `chacha20poly1305`, `sha2`, `hmac`, `hex` and `base64`. -/
structure Crates where
  hkdf : (salt ikm info : Bytes) → Bytes
  encrypt : (key nonce message aad : Bytes) → Bytes
  decrypt : (key nonce ciphertext aad : Bytes) → Option Bytes
  sha256 : Bytes → Bytes
  hmac : (key message : Bytes) → Bytes
  hexEncode : Bytes → String
  base64Encode : Bytes → String
  base64Decode : String → Option Bytes

/-- A nonce of twelve bytes. -/
abbrev Nonce := { nonce : Bytes // nonce.length = 12 }

def NONCE_LEN : ℕ := 12
def TAG_LEN : ℕ := 16

/-- `CONTENT_TEXT_FAMILY`. -/
def CONTENT_TEXT_FAMILY : String := "encb:"

/-- `b"RYU-CB01"`. -/
def CONTENT_BYTES_MAGIC : Bytes := [82, 89, 85, 45, 67, 66, 48, 49]

/-- `b"RYU-SF01"`. -/
def SEALED_FILE_MAGIC : Bytes := [82, 89, 85, 45, 83, 70, 48, 49]

/-- `b"RYU-SL01"`. -/
def SEALED_LOG_MAGIC : Bytes := [82, 89, 85, 45, 83, 76, 48, 49]

def RYU_MAGICS : List Bytes := [CONTENT_BYTES_MAGIC, SEALED_FILE_MAGIC, SEALED_LOG_MAGIC]

inductive ContentSealError where
  | unknownVersion
  | doesNotOpen
  | malformed
  | alreadyARyuEnvelope
deriving DecidableEq

/-- `ContentSealError` as text. -/
def ContentSealError.display : ContentSealError → String
  | .unknownVersion =>
    "sealed content uses an envelope version this build cannot read (written by a newer Ryu?)"
  | .doesNotOpen =>
    "sealed content does not open for this store, record and key (it was moved, altered, or sealed under another key)"
  | .malformed => "sealed content has a malformed envelope"
  | .alreadyARyuEnvelope => "refusing to seal bytes that already start with a Ryu envelope magic"

/-- `push_part`. -/
def part (bytes : Bytes) : Bytes := bigEndian 8 bytes.length ++ bytes

end Crypto

/-- `ContentContext::associated_data`. -/
def ContentContext.associatedData (context : ContentContext) (store : String) : Bytes :=
  Crypto.part (utf8 "ryu-content-seal-v1") ++ Crypto.part (utf8 "store") ++ Crypto.part (utf8 store) ++
    Crypto.part (utf8 "purpose") ++ Crypto.part (utf8 context.purpose) ++
      context.fields.flatMap fun field => Crypto.part (utf8 field.1) ++ Crypto.part (utf8 field.2)

namespace Crypto

/-- Where a value bound to a tenant belongs: a purpose and labelled ids. -/
structure SealContext where
  purpose : String
  fields : List (String × String)
deriving DecidableEq

/-- `SealContext::associated_data`. -/
def SealContext.associatedData (context : SealContext) (tenant : String) : Bytes :=
  part (utf8 "ryu-bound-seal-v2") ++ part (utf8 "tenant") ++ part (utf8 tenant) ++ part (utf8 "purpose") ++
    part (utf8 context.purpose) ++ context.fields.flatMap fun field => part (utf8 field.1) ++ part (utf8 field.2)

/-- A BLOB value opened from storage, and whether it should be sealed again. -/
structure OpenedBytes where
  value : Bytes
  needsReseal : Bool
deriving DecidableEq

/-- `ContentKey`. -/
structure ContentKey where
  key : Bytes
  rootKcv : String
deriving DecidableEq

/-- `CipherInner`, which `ContentCipher` shares. -/
structure ContentCipher where
  store : String
  labels : List String
  current : ContentKey
  retired : List ContentKey
deriving DecidableEq

inductive KcvMatch where
  | current
  | retired
  | unknown
deriving DecidableEq

section Keys

variable (crates : Crates)

/-- `hkdf32`. -/
def hkdf32 (ikm salt : Bytes) (infoParts : List Bytes) : Bytes := crates.hkdf salt ikm infoParts.flatten

/-- `derive_content_key`. -/
def deriveContentKey (root : Bytes) (store : String) : Bytes :=
  hkdf32 crates root (utf8 "ryu-content-crypto-v1") [utf8 "ryu-content-crypto-v1:", utf8 store]

/-- `derive_sub_key`. -/
def deriveSubKey (contentKey : Bytes) (label : String) : Bytes :=
  hkdf32 crates contentKey (utf8 "ryu-content-sub-v1") [utf8 "ryu-content-sub-v1:", utf8 label]

/-- `key_check_value`. -/
def keyCheckValue (root : Bytes) : String := crates.hexEncode ((crates.hmac root (utf8 "ryu-kcv-v1")).take 16)

end Keys

namespace ContentCipher

variable (crates : Crates)

/-- `ContentCipher::from_root`, for a store name that `validate_store` lets pass. -/
def fromRoot (root : Bytes) (store : String) : ContentCipher :=
  ⟨store, [], ⟨deriveContentKey crates root store, keyCheckValue crates root⟩, []⟩

/-- The loop of `with_retired_roots`. -/
def retire (cipher : ContentCipher) : List ContentKey → List Bytes → List ContentKey
  | keys, [] => keys
  | keys, root :: roots =>
    let kcv := keyCheckValue crates root
    if kcv = cipher.current.rootKcv ∨ keys.any (·.rootKcv = kcv) then cipher.retire keys roots
    else
      let key := cipher.labels.foldl (deriveSubKey crates) (deriveContentKey crates root cipher.store)
      cipher.retire (keys ++ [⟨key, kcv⟩]) roots

/-- `ContentCipher::with_retired_roots`. -/
def withRetiredRoots (cipher : ContentCipher) (roots : List Bytes) : ContentCipher :=
  { cipher with retired := cipher.retire crates [] roots }

/-- `ContentCipher::subcipher`. -/
def subcipher (cipher : ContentCipher) (label : String) : ContentCipher :=
  let derive (key : ContentKey) : ContentKey := { key with key := deriveSubKey crates key.key label }
  { cipher with
    labels := cipher.labels ++ [label]
    current := derive cipher.current
    retired := cipher.retired.map derive }

variable (cipher : ContentCipher)

/-- `ContentCipher::match_kcv`. -/
def matchKcv (kcv : String) : KcvMatch :=
  if kcv = cipher.current.rootKcv then .current
  else if cipher.retired.any (·.rootKcv = kcv) then .retired
  else .unknown

/-- `ContentCipher::candidate_keys`. -/
def candidateKeys : List (ContentKey × Bool) := (cipher.current, false) :: cipher.retired.map (·, true)

/-- `ContentCipher::seal_text_with_nonce`. -/
def sealText (nonce : Bytes) (plaintext : String) (context : ContentContext) : String :=
  let ciphertext := crates.encrypt cipher.current.key nonce (utf8 plaintext) (context.associatedData cipher.store)
  CONTENT_TEXT_PREFIX ++ crates.base64Encode (nonce ++ ciphertext)

/-- `encb:` followed by `v<digits>:`, for a text that starts with `encb:`. -/
def isVersionedFamily (stored : String) : Bool :=
  match stored.toList.drop CONTENT_TEXT_FAMILY.toList.length with
  | 'v' :: rest =>
    let digits := (rest.takeWhile Char.isDigit).length
    0 < digits && rest[digits]? == some ':'
  | _ => false

/-- `ContentCipher::open_blob`. -/
def openBlob (blob : Bytes) (context : ContentContext) : Except ContentSealError (Bytes × Bool) :=
  let nonce := blob.take NONCE_LEN
  let ciphertext := blob.drop NONCE_LEN
  let aad := context.associatedData cipher.store
  let opened := cipher.candidateKeys.findSome? fun (key, retired) =>
    (crates.decrypt key.key nonce ciphertext aad).map (·, retired)
  opened.elim (.error .doesNotOpen) .ok

/-- `ContentCipher::open_text`. -/
def openText (stored : String) (context : ContentContext) : Except ContentSealError Opened :=
  match stripPrefix stored CONTENT_TEXT_PREFIX with
  | none =>
    if startsWith stored CONTENT_TEXT_FAMILY && isVersionedFamily stored then .error .unknownVersion
    else .ok ⟨stored, stored ≠ ""⟩
  | some encoded =>
    match crates.base64Decode (trim encoded) with
    | none => .error .malformed
    | some blob =>
      if blob.length < NONCE_LEN + TAG_LEN then .error .malformed
      else
        match cipher.openBlob crates blob context with
        | .error error => .error error
        | .ok (plain, retired) =>
          match fromUtf8 plain with
          | none => .error .malformed
          | some value => .ok ⟨value, retired⟩

/-- `ContentCipher::seal_bytes_with_nonce`. -/
def sealBytes (nonce plaintext : Bytes) (context : ContentContext) : Except ContentSealError Bytes :=
  if RYU_MAGICS.any (·.isPrefixOf plaintext) then .error .alreadyARyuEnvelope
  else
    let ciphertext := crates.encrypt cipher.current.key nonce plaintext (context.associatedData cipher.store)
    .ok (CONTENT_BYTES_MAGIC ++ nonce ++ ciphertext)

/-- `RYU-` + two uppercase letters + two digits, from the fifth of eight bytes on. -/
def looksLikeRyuMagic (magic : Bytes) : Bool :=
  let isAsciiUppercase (byte : UInt8) : Bool := 65 ≤ byte && byte ≤ 90
  let isAsciiDigit (byte : UInt8) : Bool := 48 ≤ byte && byte ≤ 57
  magic.length = 8 && isAsciiUppercase (magic.getD 4 0) && isAsciiUppercase (magic.getD 5 0) &&
    isAsciiDigit (magic.getD 6 0) && isAsciiDigit (magic.getD 7 0)

/-- `ContentCipher::is_sealed_bytes`. -/
def isSealedBytes (stored : Bytes) : Bool := CONTENT_BYTES_MAGIC.isPrefixOf stored

/-- `ContentCipher::open_bytes`. -/
def openBytes (stored : Bytes) (context : ContentContext) : Except ContentSealError OpenedBytes :=
  if isSealedBytes stored then
    let blob := stored.drop CONTENT_BYTES_MAGIC.length
    if blob.length < NONCE_LEN + TAG_LEN then .error .malformed
    else
      match cipher.openBlob crates blob context with
      | .error error => .error error
      | .ok (value, retired) => .ok ⟨value, retired⟩
  else if 8 ≤ stored.length && [82, 89, 85, 45].isPrefixOf stored && looksLikeRyuMagic (stored.take 8) then
    .error .unknownVersion
  else .ok ⟨stored, stored ≠ []⟩

/-- The text operations, as a store uses them. -/
def text : RyuRooms.ContentCipher where
  sealText nonce value context := cipher.sealText crates (bigEndian NONCE_LEN nonce.toNat) value context
  openText stored context := (cipher.openText crates stored context).mapError ContentSealError.display

end ContentCipher

/-- `StoreSeal`, with the cipher of the store. -/
inductive StoreSeal where
  | sealing (cipher : ContentCipher)
  | compat
  | unhealthy (reason : String)

namespace StoreSeal

variable (crates : Crates)

/-- How the store seals its texts. -/
def text : StoreSeal → RyuRooms.StoreSeal
  | .sealing cipher => .sealing (cipher.text crates)
  | .compat => .compat
  | .unhealthy reason => .unhealthy reason

/-- `StoreSeal::seal_bytes`. -/
def sealBytes (storeSeal : StoreSeal) (nonce value : Bytes) (context : ContentContext) : Except String Bytes :=
  match storeSeal with
  | .sealing cipher => (cipher.sealBytes crates nonce value context).mapError ContentSealError.display
  | .compat =>
    if ContentCipher.isSealedBytes value then
      .error "a value that starts with a Ryu content envelope header cannot be stored without a key"
    else .ok value
  | .unhealthy reason => .error reason

/-- `StoreSeal::open_bytes`. -/
def openBytes (storeSeal : StoreSeal) (stored : Bytes) (context : ContentContext) : Except String Bytes :=
  match storeSeal with
  | .sealing cipher => ((cipher.openBytes crates stored context).map OpenedBytes.value).mapError ContentSealError.display
  | .compat | .unhealthy _ =>
    if ContentCipher.isSealedBytes stored then
      .error "a sealed value cannot be opened: this process has no key for it"
    else .ok stored

end StoreSeal

end Crypto

end RyuRooms
