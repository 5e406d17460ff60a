import RyuRooms.Model.ProcessKeys

/-! # Secrets in files of their own

`secret_file.rs` of the crate `ryu-crypto`, and the sealers of a process: the master key, a plugin's subkey or a
component's. What is found under a path is the state, and which step of a write fails is an argument. The
temporary file is not part of the state, since it is gone whether it is renamed or dropped.
-/

namespace RyuRooms.Crypto

open Foundation

def ENVELOPE_PREFIX : String := "enc:v1:"
def BOUND_ENVELOPE_PREFIX : String := "enc:v2:"
def PLUGIN_ENVELOPE_PREFIX : String := "encp:v1:"
def COMPONENT_ENVELOPE_PREFIX : String := "encc:v1:"
def CLOUD_CONTENT_ENVELOPE_PREFIX : String := "encm:v1:"

/-- The largest body of a secret file that is read. -/
def MAX_SECRET_FILE_BYTES : ℕ := 16 * 1024

/-- `looks_sealed`. -/
def looksSealed (stored : String) : Bool :=
  [ENVELOPE_PREFIX, BOUND_ENVELOPE_PREFIX, PLUGIN_ENVELOPE_PREFIX, COMPONENT_ENVELOPE_PREFIX, CONTENT_TEXT_PREFIX,
    CLOUD_CONTENT_ENVELOPE_PREFIX].any (startsWith stored)

/-- The bytes that may follow a first byte in UTF-8, by their bounds. -/
def continuations (first : UInt8) : List (UInt8 × UInt8) :=
  if 0xC2 ≤ first && first ≤ 0xDF then [(0x80, 0xBF)]
  else if first = 0xE0 then [(0xA0, 0xBF), (0x80, 0xBF)]
  else if first = 0xED then [(0x80, 0x9F), (0x80, 0xBF)]
  else if 0xE1 ≤ first && first ≤ 0xEF then [(0x80, 0xBF), (0x80, 0xBF)]
  else if first = 0xF0 then [(0x90, 0xBF), (0x80, 0xBF), (0x80, 0xBF)]
  else if 0xF1 ≤ first && first ≤ 0xF3 then [(0x80, 0xBF), (0x80, 0xBF), (0x80, 0xBF)]
  else if first = 0xF4 then [(0x80, 0x8F), (0x80, 0xBF), (0x80, 0xBF)]
  else []

/-- Characters, with a replacement character for each sequence of bytes that breaks off. -/
def replaceInvalid : ℕ → Bytes → String
  | 0, _ => ""
  | _ + 1, [] => ""
  | fuel + 1, first :: rest =>
    let followers := ((rest.zip (continuations first)).takeWhile fun (byte, low, high) => low ≤ byte && byte ≤ high).length
    (fromUtf8 (first :: rest.take followers)).getD "\uFFFD" ++ replaceInvalid fuel (rest.drop followers)

/-- `String::from_utf8_lossy`. -/
def fromUtf8Lossy (bytes : Bytes) : String := (fromUtf8 bytes).getD (replaceInvalid bytes.length bytes)

/-- A cipher for fields, and the keys before its own. -/
structure FieldCipher where
  key : Bytes
  retired : List Bytes
deriving DecidableEq

namespace FieldCipher

variable (crates : Crates) (cipher : FieldCipher)

/-- `FieldCipher::decrypt`. -/
def decrypt (nonce ciphertext : Bytes) : Except String Bytes :=
  ((cipher.key :: cipher.retired).findSome? fun key => crates.decrypt key nonce ciphertext []).elim
    (.error "decryption failed: aead::Error") .ok

/-- `FieldCipher::seal_with_prefix`, with the nonce it draws. -/
def sealWithPrefix (nonce : Nonce) (envelope plaintext : String) : String :=
  envelope ++ crates.base64Encode (nonce ++ crates.encrypt cipher.key nonce (utf8 plaintext) [])

/-- `FieldCipher::open_body`. -/
def openBody (encoded : String) : Except String String :=
  match crates.base64Decode (trim encoded) with
  | none => .error "decoding sealed field"
  | some blob =>
    if blob.length < NONCE_LEN then .error "sealed field shorter than nonce"
    else (cipher.decrypt crates (blob.take NONCE_LEN) (blob.drop NONCE_LEN)).map fromUtf8Lossy

end FieldCipher

/-- A cipher that stores seal their values with. -/
inductive SecretSealer where
  | field (cipher : FieldCipher)
  | plugin (cipher : PluginCipher)
  | component (cipher : ComponentCipher)

namespace SecretSealer

/-- The prefix of a sealer's own envelopes. -/
def envelope : SecretSealer → String
  | field _ => ENVELOPE_PREFIX
  | plugin _ => PLUGIN_ENVELOPE_PREFIX
  | component _ => COMPONENT_ENVELOPE_PREFIX

/-- The `FieldCipher` in a sealer. -/
def inner : SecretSealer → FieldCipher
  | field cipher => cipher
  | plugin cipher => ⟨cipher.subkey, cipher.retired⟩
  | component cipher => ⟨cipher.subkey, cipher.retired⟩

variable (crates : Crates) (sealer : SecretSealer)

/-- `SecretSealer::seal`. -/
def sealText (nonce : Nonce) (plaintext : String) : String :=
  sealer.inner.sealWithPrefix crates nonce sealer.envelope plaintext

/-- `SecretSealer::is_sealed`. -/
def isSealed (stored : String) : Bool := startsWith stored sealer.envelope

/-- `SecretSealer::open`. -/
def openText (stored : String) : Except String String :=
  match sealer with
  | field cipher =>
    if !sealer.isSealed stored && looksSealed stored then .error "value is sealed under a subkey, not the master key"
    else (stripPrefix stored ENVELOPE_PREFIX).elim (.ok stored) (cipher.openBody crates)
  | plugin cipher =>
    if !sealer.isSealed stored && looksSealed stored then
      .error s!"value is sealed under another key scheme, not plugin '{cipher.pluginId}''s subkey"
    else
      match stripPrefix stored PLUGIN_ENVELOPE_PREFIX with
      | some encoded =>
        (sealer.inner.openBody crates encoded).mapError fun _ =>
          s!"opening a value sealed for a different plugin than '{cipher.pluginId}'"
      | none =>
        if startsWith stored ENVELOPE_PREFIX then
          .error s!"value is sealed with the master key, not plugin '{cipher.pluginId}''s subkey"
        else .ok stored
  | component cipher =>
    match stripPrefix stored COMPONENT_ENVELOPE_PREFIX with
    | some encoded =>
      (sealer.inner.openBody crates encoded).mapError fun _ =>
        s!"opening a value sealed for a different key than component '{cipher.component}'"
    | none =>
      if looksSealed stored then
        .error s!"value is sealed under another key scheme, not component '{cipher.component}''s subkey"
      else .ok stored

end SecretSealer

/-- What is found under a path. -/
inductive PathEntry where
  | missing
  | uninspectable
  | symlink
  | notAFile
  | file (bytes : Bytes) (openable : Bool)
deriving DecidableEq

/-- A path as it is shown, and its parent where it has one that is not empty. -/
structure SecretPath where
  display : String
  parent : Option String

/-- The steps of a write that fail. -/
structure SecretFaults where
  createDir : Bool
  createTemporary : Bool
  write : Bool
  sync : Bool
  persist : Bool
  restrict : Bool

abbrev SecretCall := EStateM String PathEntry

section Files

variable (crates : Crates) (path : SecretPath)

/-- `read_body`. -/
def readBody : PathEntry → Except String (Option String)
  | .missing => .ok none
  | .uninspectable => .error s!"inspecting secret {path.display}"
  | .symlink => .error s!"secret file {path.display} must not be a symlink"
  | .notAFile => .error s!"secret file {path.display} is not a regular file"
  | .file bytes openable =>
    if MAX_SECRET_FILE_BYTES < bytes.length then .error s!"secret file {path.display} is too large"
    else if !openable then .error s!"opening secret {path.display}"
    else
      match fromUtf8 (bytes.take (MAX_SECRET_FILE_BYTES + 1)) with
      | none => .error s!"reading secret {path.display}"
      | some body => .ok (if trim body = "" then none else some (trim body))

/-- `read_secret_file`. -/
def readSecretFile (sealer : Option SecretSealer) (entry : PathEntry) : Except String (Option Opened) :=
  match readBody path entry with
  | .error error => .error error
  | .ok none => .ok none
  | .ok (some body) =>
    if !looksSealed body then .ok (some ⟨body, true⟩)
    else
      match sealer with
      | none => .error s!"{path.display} is sealed and no key to open it is available in this process"
      | some sealer =>
        match sealer.openText crates body with
        | .error _ => .error s!"opening sealed secret {path.display}"
        | .ok value => .ok (some ⟨trim value, false⟩)

/-- `write_body`. -/
def writeBody (faults : SecretFaults) (body : String) : SecretCall Unit := do
  let parent ← orFail path.parent s!"secret path {path.display} has no parent"
  failIf faults.createDir s!"creating secret dir {parent}"
  failIf ((← get) = .symlink) s!"secret file {path.display} must not be a symlink"
  failIf faults.createTemporary s!"creating temporary secret in {parent}"
  failIf faults.write s!"writing temporary secret for {path.display}"
  failIf faults.sync s!"syncing temporary secret for {path.display}"
  failIf faults.persist s!"replacing secret {path.display}"
  set (PathEntry.file (utf8 body) true)
  failIf faults.restrict s!"restricting secret {path.display}"

/-- `write_secret_file`. -/
def writeSecretFile (faults : SecretFaults) (sealer : SecretSealer) (nonce : Nonce) (value : String) :
    SecretCall Unit :=
  writeBody path faults (sealer.sealText crates nonce value)

/-- `reseal_secret_file`. -/
def resealSecretFile (faults : SecretFaults) (sealer : SecretSealer) (nonce : Nonce) : SecretCall Bool := do
  match ← returnExcept (readSecretFile crates path (some sealer) (← get)) with
  | some opened =>
    if opened.needsReseal then do
      writeSecretFile crates path faults sealer nonce opened.value
      pure true
    else pure false
  | none => pure false

end Files

end RyuRooms.Crypto
