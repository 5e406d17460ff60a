import RyuRooms.Foundation.Action
import RyuRooms.Foundation.Json
import RyuRooms.Foundation.Machine
import RyuRooms.Model.Content
import RyuRooms.Model.Text

/-! # The keys of a plugin process

`PluginKeys::resolve_with` and the two files of a standalone data directory: the generated root and the
key check value pinned for it. The pin is kept as the JSON value of its text, which `serde_json` parses back
as it wrote it, and the root as bytes, since its file is written in place and a failed write can leave a part
of it. A launch carries what it reads of its environment, the root it would generate and which of its writes
fail.
-/

namespace RyuRooms.Crypto

open Foundation

def STANDALONE_ROOT_FILE : String := "standalone-root.key"
def STANDALONE_KCV_FILE : String := "standalone-root.kcv.json"
def MASTER_KEY_ENV : String := "RYU_MASTER_KEY"

/-- A master key or a subkey. -/
def KEY_LEN : ℕ := 32

section Ciphers

variable (crates : Crates)

/-- `decode_key`. -/
def decodeKey (encoded : String) : Option Bytes :=
  (crates.base64Decode (trim encoded)).filter fun raw => raw.length = KEY_LEN

structure PluginCipher where
  pluginId : String
  subkey : Bytes
  retired : List Bytes
deriving DecidableEq

def PluginCipher.kcv (cipher : PluginCipher) : String := keyCheckValue crates cipher.subkey

/-- `valid_plugin_id`. -/
def validPluginId (id : String) : Except String String :=
  if trim id = "" then .error "a plugin subkey cannot be derived for an empty plugin id" else .ok (trim id)

/-- `PluginCipher::from_subkey_b64`. -/
def PluginCipher.fromSubkeyB64 (pluginId subkeyB64 : String) : Except String PluginCipher :=
  match decodeKey crates subkeyB64 with
  | none => .error "a plugin subkey must be base64 of exactly 32 bytes"
  | some subkey => (validPluginId pluginId).map fun id => ⟨id, subkey, []⟩

end Ciphers

inductive KeySource where
  | delivered
  | master
  | standalone
deriving DecidableEq

structure PluginKeys where
  cipher : Option PluginCipher
  source : Option KeySource
deriving DecidableEq

namespace PluginKeys

def sealing (cipher : PluginCipher) (source : KeySource) : PluginKeys := ⟨some cipher, some source⟩

def compat : PluginKeys := ⟨none, none⟩

end PluginKeys

/-- What the pin file holds, as far as it can be read. -/
inductive PinFile where
  | unreadable
  | notJson
  | json (value : Json)

/-- The files under `secrets/` of a standalone data directory. -/
structure SecretsFiles where
  root : Option Bytes
  pin : Option PinFile

/-- The writes of a launch that fail. -/
structure WriteFaults where
  rootDir : Option String
  /-- Writing the root fails; with a number, after so many bytes. -/
  root : Option (String × Option ℕ)
  pinDir : Option String
  pin : Option String

/-- What a launch reads and draws, and which of its writes fail. -/
structure Launch where
  pluginId : String
  delivered : Bool
  underCore : Bool
  hasMaster : Bool
  processCipher : Except String PluginCipher
  fresh : { root : Bytes // root.length = KEY_LEN }
  faults : WriteFaults

abbrev KeyCall := EStateM String SecretsFiles

/-- `create_private_dir`. -/
def createPrivateDir (fault : Option String) : KeyCall Unit :=
  match fault with
  | some error => throw error
  | none => pure ()

/-- `write_new_private_file`, of the root. -/
def writeNewRoot (path : String) (fault : Option (String × Option ℕ)) (bytes : Bytes) : KeyCall Unit := do
  failIf ((← get).root.isSome) s!"creating {path}"
  match fault with
  | some (error, none) => throw error
  | some (error, some written) => do
    modify fun files => { files with root := some (bytes.take written) }
    throw error
  | none => modify fun files => { files with root := some bytes }

/-- `write_private_file`, of the pin: all or nothing. -/
def writePin (fault : Option String) (value : Json) : KeyCall Unit :=
  match fault with
  | some error => throw error
  | none => modify fun files => { files with pin := some (.json value) }

/-- `value.get("kcv").and_then(Value::as_str)`. -/
def pinnedKcv : Json → Option String
  | .obj fields =>
    match fields.find? fun field => field.1 = "kcv" with
    | some (_, .str kcv) => some kcv
    | _ => none
  | _ => none

/-- The object a pin is written as. -/
def pinBody (kcv source : String) : Json := Json.object [("v", .num 1), ("kcv", .str kcv), ("source", .str source)]

def readStandaloneKcv (path : String) : KeyCall (Option String) := do
  match (← get).pin with
  | none => pure none
  | some .unreadable => throw s!"reading {path}"
  | some .notJson => throw s!"{path} is unreadable; refusing to guess which key sealed this data"
  | some (.json parsed) =>
    match pinnedKcv parsed with
    | some kcv => do
      failIf (kcv = "") s!"{path} is malformed; refusing to guess which key sealed this data"
      pure (some kcv)
    | none => throw s!"{path} is malformed; refusing to guess which key sealed this data"

/-- Record (or check) the standalone root's key check value. -/
def pinStandaloneKcv (secrets : String) (faults : WriteFaults) (kcv source : String) : KeyCall Unit := do
  match ← readStandaloneKcv (secrets ++ "/" ++ STANDALONE_KCV_FILE) with
  | none => do
    createPrivateDir faults.pinDir
    writePin faults.pin (pinBody kcv source)
  | some recorded =>
    failIf (recorded ≠ kcv) (s!"this app's standalone data was sealed under a different key (kcv {recorded}); " ++
      s!"restore that {MASTER_KEY_ENV} or {STANDALONE_ROOT_FILE} instead of starting with another key")

section Resolution

variable (crates : Crates) (secrets : String) (launch : Launch)

/-- The root in its file's bytes. -/
def decodeRoot (path : String) (bytes : Bytes) : KeyCall Bytes := do
  let encoded ← orFail (fromUtf8 bytes) s!"reading {path}"
  let raw ← orFail (crates.base64Decode (trim encoded)) s!"{path} is not base64"
  failIf (raw.length ≠ KEY_LEN) s!"{path} must hold exactly 32 bytes"
  pure raw

def loadOrCreateStandaloneRoot : KeyCall Bytes := do
  let path := secrets ++ "/" ++ STANDALONE_ROOT_FILE
  match (← get).root with
  | some bytes => decodeRoot crates path bytes
  | none => do
    failIf ((← get).pin.isSome) (s!"this app's standalone data was sealed under {MASTER_KEY_ENV}; set it again " ++
      "instead of generating a new key")
    createPrivateDir launch.faults.rootDir
    writeNewRoot path launch.faults.root (utf8 (crates.base64Encode launch.fresh ++ "\n"))
    pure launch.fresh

/-- `PluginKeys::resolve_with`, on the data directory that `secrets` is under. -/
def resolveWith : KeyCall PluginKeys := do
  if launch.delivered then return .sealing (← returnExcept launch.processCipher) .delivered
  else if launch.hasMaster then do
    let cipher ← returnExcept launch.processCipher
    if launch.underCore then return .sealing cipher .master
    else do
      failIf ((← get).root.isSome) (s!"this app's standalone data was sealed under {STANDALONE_ROOT_FILE}; " ++
        s!"unset {MASTER_KEY_ENV} or move that data aside")
      pinStandaloneKcv secrets launch.faults (cipher.kcv crates) "master"
      return .sealing cipher .master
  else if launch.underCore then return .compat
  else do
    let root ← loadOrCreateStandaloneRoot crates secrets launch
    let cipher ← returnExcept (PluginCipher.fromSubkeyB64 crates launch.pluginId (crates.base64Encode root))
    pinStandaloneKcv secrets launch.faults (cipher.kcv crates) "standalone"
    return .sealing cipher .standalone

end Resolution

end RyuRooms.Crypto
