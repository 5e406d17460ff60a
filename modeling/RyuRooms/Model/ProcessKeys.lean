import RyuRooms.Model.PluginKeys

/-! # Subkeys across processes

`process_keys.rs` of the crate `ryu-crypto`: the environment a process gives its child, what the child reads from
it, and how a process finds the subkey of a scope. The environment is a list of names and values, and the
resolution of the master key in a process with an installed host is an argument.
-/

namespace RyuRooms.Crypto

open Foundation

def SEAL_KEY_ENV : String := "RYU_SEAL_KEY"
def SEAL_SCOPE_ENV : String := "RYU_SEAL_SCOPE"
def SEAL_RETIRED_KEYS_ENV : String := "RYU_SEAL_RETIRED_KEYS"

/-- `std::env::var`, of an environment. -/
def envVar (env : List (String × String)) (name : String) : Option String :=
  (env.find? fun entry => entry.1 = name).map (·.2)

/-- `str::split`, at commas. -/
def splitCommas (value : String) : List String := (value.toList.splitOn ',').map String.ofList

/-- `[String]::join(",")`. -/
def joinCommas (items : List String) : String := String.ofList ([','].intercalate (items.map String.toList))

/-- What a delivered subkey is for. -/
inductive KeyScope where
  | plugin (id : String)
  | component (name : String)
deriving DecidableEq

/-- `valid_component`. -/
def validComponent (name : String) : Except String String :=
  let ok := trim name ≠ "" ∧ (utf8 (trim name)).all fun byte =>
    (97 ≤ byte && byte ≤ 122) || (48 ≤ byte && byte ≤ 57) || byte == 45
  if ok then .ok (trim name)
  else .error "component names are non-empty lowercase ASCII letters, digits, and '-'"

namespace KeyScope

/-- `KeyScope::env_value`. -/
def envValue : KeyScope → String
  | .plugin id => "plugin:" ++ id
  | .component name => "component:" ++ name

/-- `KeyScope::parse`. -/
def parse (value : String) : Except String KeyScope :=
  match stripPrefix (trim value) "plugin:" with
  | some id => (validPluginId id).map .plugin
  | none =>
    match stripPrefix (trim value) "component:" with
    | some name => (validComponent name).map .component
    | none => .error (SEAL_SCOPE_ENV ++ " must be `plugin:<id>` or `component:<name>`")

/-- The id of a plugin or the name of a component. -/
def id : KeyScope → String
  | .plugin id => id
  | .component name => name

end KeyScope

/-- A subkey delivered by the parent process. -/
structure Delivered where
  scope : KeyScope
  key : Bytes
  retired : List Bytes
deriving DecidableEq

/-- A key and its retired predecessors. -/
abbrev Keys := Bytes × List Bytes

structure ComponentCipher where
  component : String
  subkey : Bytes
  retired : List Bytes
deriving DecidableEq

section Derivation

variable (crates : Crates)

/-- `derive_plugin_key`. -/
def derivePluginKey (master : Bytes) (pluginId : String) : Bytes :=
  hkdf32 crates master (utf8 "ryu-plugin-crypto-v1") [utf8 "ryu-plugin-crypto-v1:", utf8 pluginId]

/-- `derive_component_key`. -/
def deriveComponentKey (master : Bytes) (component : String) : Bytes :=
  hkdf32 crates master (utf8 "ryu-component-crypto-v1") [utf8 "ryu-component-crypto-v1:", utf8 component]

/-- The derivation that goes with a scope. -/
def KeyScope.derive : KeyScope → Bytes → String → Bytes
  | .plugin _ => derivePluginKey crates
  | .component _ => deriveComponentKey crates

/-- `child_env`. -/
def childEnv (master : Bytes) (retiredMasters : List Bytes) (derive : Bytes → String → Bytes) (scope : KeyScope)
    (id : String) : List (String × String) :=
  [(SEAL_KEY_ENV, crates.base64Encode (derive master id)), (SEAL_SCOPE_ENV, scope.envValue)] ++
    if retiredMasters = [] then []
    else [(SEAL_RETIRED_KEYS_ENV, joinCommas (retiredMasters.map fun key => crates.base64Encode (derive key id)))]

/-- `plugin_child_env`, where the master keys of the process are resolved. -/
def pluginChildEnv (resolved : Except String Keys) (pluginId : String) : Except String (List (String × String)) := do
  let pluginId ← validPluginId pluginId
  let (master, retired) ← resolved
  pure (childEnv crates master retired (derivePluginKey crates) (.plugin pluginId) pluginId)

/-- `component_child_env`. -/
def componentChildEnv (resolved : Except String Keys) (component : String) :
    Except String (List (String × String)) := do
  let component ← validComponent component
  let (master, retired) ← resolved
  pure (childEnv crates master retired (deriveComponentKey crates) (.component component) component)

/-- The retired keys in their variable. -/
def readRetired (value : String) : Except String (List Bytes) :=
  (splitCommas value).mapM fun item =>
    (decodeKey crates item).elim (.error (SEAL_RETIRED_KEYS_ENV ++ " holds a value that is not base64 of 32 bytes")) .ok

/-- `read_delivered`. -/
def readDelivered (key scope retired : Option String) : Except String (Option Delivered) :=
  match key.filter fun value => trim value ≠ "" with
  | none => .ok none
  | some key => do
    let key ← (decodeKey crates key).elim (.error (SEAL_KEY_ENV ++ " is not base64 of 32 bytes")) .ok
    let scope ← scope.elim (.error (SEAL_KEY_ENV ++ " is set without " ++ SEAL_SCOPE_ENV)) .ok
    let scope ← KeyScope.parse scope
    let retired ← ((retired.map trim).filter fun value => value ≠ "").elim (.ok []) (readRetired crates)
    pure (some ⟨scope, key, retired⟩)

/-- `delivered`, at its first call. -/
def deliveredIn (env : List (String × String)) : Except String (Option Delivered) :=
  readDelivered crates (envVar env SEAL_KEY_ENV) (envVar env SEAL_SCOPE_ENV) (envVar env SEAL_RETIRED_KEYS_ENV)

/-- `env_master_key`. -/
def envMasterKey (env : List (String × String)) : Except String (Option Bytes) :=
  match (envVar env MASTER_KEY_ENV).filter fun value => trim value ≠ "" with
  | none => .ok none
  | some value => (decodeKey crates value).elim (.error (MASTER_KEY_ENV ++ " is not a base64 32-byte key")) (.ok ∘ some)

/-- `process_master_key`, where `host` is what an installed host resolves. -/
def processMasterKey (host : Option (Except String Keys)) (env : List (String × String)) :
    Except String (Option Keys) :=
  match host with
  | some resolved => resolved.map some
  | none => (envMasterKey crates env).map fun master => master.map (·, [])

/-- `no_key_error`. -/
def noKeyError (scope : KeyScope) : String :=
  "no sealing key for " ++ scope.envValue ++ ": start this process from Core (which sets " ++ SEAL_KEY_ENV ++ "), set " ++
    MASTER_KEY_ENV ++ ", or install a CryptoHost (see install_standalone_host)"

/-- `subkey_from`. -/
def subkeyFrom (delivered : Option Delivered) (master : Except String (Option Keys)) (scope : KeyScope)
    (derive : Bytes → String → Bytes) (id : String) : Except String Keys :=
  match delivered with
  | some delivered =>
    if delivered.scope ≠ scope then
      .error (SEAL_KEY_ENV ++ " was delivered for " ++ delivered.scope.envValue ++ ", not " ++ scope.envValue)
    else .ok (delivered.key, delivered.retired)
  | none =>
    match master with
    | .error error => .error error
    | .ok (some (master, retired)) => .ok (derive master id, retired.map fun key => derive key id)
    | .ok none => .error (noKeyError scope)

/-- `process_subkey`. -/
def processSubkey (host : Option (Except String Keys)) (env : List (String × String)) (scope : KeyScope)
    (derive : Bytes → String → Bytes) (id : String) : Except String Keys := do
  let delivered ← deliveredIn crates env
  subkeyFrom delivered (processMasterKey crates host env) scope derive id

/-- `plugin_cipher_for_process`. -/
def pluginCipherForProcess (host : Option (Except String Keys)) (env : List (String × String)) (pluginId : String) :
    Except String PluginCipher := do
  let pluginId ← validPluginId pluginId
  let (subkey, retired) ← processSubkey crates host env (.plugin pluginId) (derivePluginKey crates) pluginId
  pure ⟨pluginId, subkey, retired⟩

/-- `component_cipher_for_process`. -/
def componentCipherForProcess (host : Option (Except String Keys)) (env : List (String × String))
    (component : String) : Except String ComponentCipher := do
  let component ← validComponent component
  let (subkey, retired) ← processSubkey crates host env (.component component) (deriveComponentKey crates) component
  pure ⟨component, subkey, retired⟩

end Derivation

end RyuRooms.Crypto
