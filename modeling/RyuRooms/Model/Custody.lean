import Mathlib.Logic.Function.Basic
import RyuRooms.Foundation.Ends
import RyuRooms.Model.ContentSqlite
import RyuRooms.Model.PluginKeys

/-! # Custody of the master key

The ladder of `lib.rs` and `custody.rs` of the crate `ryu-crypto`: where a data folder has its master keys, how one of
them is resolved, and how another is adopted, retired or imported. A key file and an entry of the keychain are known
by what `decode_key` finds in them, and a record by what `serde_json` does. An `Access` is what one operation meets:
each of its calls of the keychain and of the file system may fail on its own, and it may be killed before any of them.
-/

namespace RyuRooms.Custody

open Foundation Crypto

def MAX_RETIRED_KEYS : ℕ := 4

/-- A key of 32 bytes. -/
abbrev MasterKey := { key : Bytes // key.length = KEY_LEN }

/-- What a key file or an entry of the keychain holds. -/
inductive Held where
  | nothing
  | malformed
  | key (key : MasterKey)
deriving DecidableEq

/-- An entry of the keychain. -/
inductive Account where
  | master
  | retired (kcv : String)
  | slot (name : String)
deriving DecidableEq

/-- A key file under `secrets/`. -/
inductive KeyFile where
  | master
  | memory
  | retired (kcv : String)
  | slot (name : String)
deriving DecidableEq

namespace KeyFile

/-- The path of a key file, under the data folder. -/
def path (dir : String) : KeyFile → String
  | master => dir ++ "/secrets/master.key"
  | memory => dir ++ "/secrets/memory.key"
  | retired kcv => dir ++ "/secrets/retired/" ++ kcv ++ ".key"
  | slot name => dir ++ "/secrets/" ++ name ++ ".key"

end KeyFile

/-- What a record under `state/` holds. -/
inductive Document (α : Type) where
  | missing
  | malformed
  | json (value : α)
deriving DecidableEq

namespace Document

/-- The value of a record that has one. -/
def value? {α : Type} : Document α → Option α
  | json value => some value
  | missing | malformed => none

end Document

structure KcvRecord where
  v : ℕ
  kcv : String
  custody : String
  writtenAt : ℤ
deriving DecidableEq

structure RetiredEntry where
  kcv : String
  custody : String
  retiredAt : ℤ
deriving DecidableEq

structure DataFormat where
  format : ℤ
  minReader : ℤ
deriving DecidableEq

/-- `state/<slot>.kcv.json`, of a key that an app owns. -/
structure AppKcvRecord where
  v : ℕ
  kcv : String
  custody : String
deriving DecidableEq

/-- The keychain of a profile, and the keys and records in its data folder. -/
structure Folder where
  keychain : Account → Held
  files : KeyFile → Held
  record : Document KcvRecord
  retired : Document (List RetiredEntry)
  format : Document DataFormat
  slots : String → Document AppKcvRecord

namespace Folder

def withEntry (folder : Folder) (account : Account) (held : Held) : Folder :=
  { folder with keychain := Function.update folder.keychain account held }

def withFile (folder : Folder) (file : KeyFile) (held : Held) : Folder :=
  { folder with files := Function.update folder.files file held }

/-- The entries of the index of retired keys. -/
def entries (folder : Folder) : List RetiredEntry := folder.retired.value?.getD []

section Updates

variable (folder : Folder) (account : Account) (file : KeyFile) (held : Held)

@[simp] theorem withEntry_keychain : (folder.withEntry account held).keychain account = held :=
  Function.update_self ..

@[simp] theorem withEntry_files : (folder.withEntry account held).files = folder.files := rfl

@[simp] theorem withFile_files : (folder.withFile file held).files file = held := Function.update_self ..

@[simp] theorem withFile_keychain : (folder.withFile file held).keychain = folder.keychain := rfl

variable {folder account file held}

theorem withEntry_of_ne {other : Account} (apart : other ≠ account) :
    (folder.withEntry account held).keychain other = folder.keychain other := Function.update_of_ne apart ..

theorem withFile_of_ne {other : KeyFile} (apart : other ≠ file) :
    (folder.withFile file held).files other = folder.files other := Function.update_of_ne apart ..

end Updates

end Folder

/-- What a call of the keychain answers. -/
inductive KeychainState where
  | key (key : MasterKey)
  | empty
  | corrupt
  | unavailable
deriving DecidableEq

/-- The key of an answer that has one. -/
def KeychainState.key? : KeychainState → Option MasterKey
  | key answered => some answered
  | empty | corrupt | unavailable => none

/-- The key that is held. -/
def Held.key? : Held → Option MasterKey
  | key held => some held
  | nothing | malformed => none

/-- The answer of a keychain that is there. -/
def Held.state : Held → KeychainState
  | nothing => .empty
  | malformed => .corrupt
  | key held => .key held

/-- What becomes of a key that a keychain is to store. -/
inductive StoreEffect where
  | keeps
  | refuses
  | drops
  | garbles
deriving DecidableEq

/-- The folder, and what each call of one operation on it meets. -/
structure Access where
  dir : String
  now : ℤ
  reaches : ℕ → Bool
  stores : ℕ → StoreEffect
  readFails : ℕ → Bool
  writeFails : ℕ → Bool
  killed : ℕ → Bool

inductive CustodyError where
  /-- `KeyMismatch`. -/
  | mismatch (text : String)
  | other (text : String)
  | killed
deriving DecidableEq

/-- An operation at work: the folder, how many calls it has made, and what the keychain answered, latest first. -/
structure Work where
  folder : Folder
  calls : ℕ
  answers : List KeychainState

abbrev CustodyM := EStateM CustodyError Work

/-- The result of an action that is let fail; none is left to an operation that was killed. -/
def attempt {α : Type} (action : CustodyM α) : CustodyM (Except CustodyError α) := fun work =>
  match action work with
  | .ok value target => .ok (.ok value) target
  | .error .killed target => .error .killed target
  | .error error target => .ok (.error error) target

/-- `.ok().flatten()`. -/
def orNothing {α : Type} (action : CustodyM (Option α)) : CustodyM (Option α) := do
  match ← attempt action with
  | .ok found => return found
  | .error _ => return none

section Calls

variable (access : Access)

/-- The number of the next call. -/
def call : CustodyM ℕ := do
  let calls := (← get).calls
  modify fun work => { work with calls := calls + 1 }
  failIf (access.killed calls) .killed
  return calls

/-- An answer of the keychain, which is kept. -/
def answer (state : KeychainState) : CustodyM KeychainState := do
  modify fun work => { work with answers := state :: work.answers }
  return state

/-- `Keychain::get`; a keychain that is disabled has no account. -/
def keychainGet : Option Account → CustodyM KeychainState
  | none => answer .unavailable
  | some account => do
    let calls ← call access
    let held := (← get).folder.keychain account
    answer (if access.reaches calls then held.state else .unavailable)

/-- A change of the folder. -/
def change (f : Folder → Folder) : CustodyM Unit := modify fun work => { work with folder := f work.folder }

/-- `Keychain::store`. -/
def keychainStore (port : Option Account) (key : MasterKey) : CustodyM Bool :=
  match port with
  | none => return false
  | some account => do
    match access.stores (← call access) with
    | .keeps => do
      change fun folder => folder.withEntry account (.key key)
      return true
    | .garbles => do
      change fun folder => folder.withEntry account .malformed
      return true
    | .drops => return true
    | .refuses => return false

def readKeyFile (file : KeyFile) : CustodyM (Option MasterKey) := do
  let calls ← call access
  failIf (access.readFails calls) (.other s!"reading master key {file.path access.dir}")
  match (← get).folder.files file with
  | .nothing => return none
  | .malformed => throw (.other (s!"master key {file.path access.dir} is corrupt; refusing to replace key material " ++
      "that may protect existing data"))
  | .key key => return some key

/-- `write_key_file`: a key file that is there is read instead. -/
def writeKeyFile (file : KeyFile) (key : MasterKey) : CustodyM MasterKey := do
  let calls ← call access
  failIf (access.writeFails calls) (.other s!"publishing master key {file.path access.dir}")
  match (← get).folder.files file with
  | .nothing => do
    change fun folder => folder.withFile file (.key key)
    return key
  | _ => do
    let found ← readKeyFile access file
    orFail found (.other s!"master key {file.path access.dir} vanished after another process created it")

/-- `std::fs::remove_file`. -/
def removeFile (file : KeyFile) (error : String) : CustodyM Unit := do
  let calls ← call access
  failIf (access.writeFails calls) (.other error)
  change fun folder => folder.withFile file .nothing

/-- `write_atomic`, of a key. -/
def replaceKeyFile (file : KeyFile) (key : MasterKey) : CustodyM Unit := do
  let calls ← call access
  failIf (access.writeFails calls) (.other s!"writing {file.path access.dir}")
  change fun folder => folder.withFile file (.key key)

/-- `read_json`. -/
def readJson {α : Type} (name : String) (document : Folder → Document α) : CustodyM (Option α) := do
  let calls ← call access
  failIf (access.readFails calls) (.other s!"reading {access.dir}/state/{name}")
  match document (← get).folder with
  | .missing => return none
  | .malformed => throw (.other s!"parsing {access.dir}/state/{name}")
  | .json value => return some value

/-- `write_atomic`, of a record. -/
def writeJson (name : String) (write : Folder → Folder) : CustodyM Unit := do
  let calls ← call access
  failIf (access.writeFails calls) (.other s!"writing {access.dir}/state/{name}")
  change write

def readKcvRecord : CustodyM (Option KcvRecord) := readJson access "master-key.kcv" (·.record)

def writeKcvRecord (kcv custody : String) : CustodyM Unit :=
  writeJson access "master-key.kcv" fun folder => { folder with record := .json ⟨1, kcv, custody, access.now⟩ }

def readRetiredIndex : CustodyM (List RetiredEntry) := do
  return (← readJson access "retired-keys.json" (·.retired)).getD []

def writeRetiredIndex (keys : List RetiredEntry) : CustodyM Unit :=
  writeJson access "retired-keys.json" fun folder => { folder with retired := .json keys }

def checkDataFormat : CustodyM Unit := do
  match ← readJson access "data-format.json" (·.format) with
  | none => return ()
  | some marker =>
    failIf (SUPPORTED_MIN_READER < marker.minReader) (.other (s!"this data folder was used by a newer Ryu (it needs " ++
      s!"reader format {marker.minReader}, this build reads {SUPPORTED_MIN_READER}); update Ryu, or export from the " ++
      "newer version before downgrading"))

end Calls

inductive MasterKeySource where
  | env
  | keychain
  | file
deriving DecidableEq

/-- `MasterKeySource::as_str`. -/
def MasterKeySource.asStr : MasterKeySource → String
  | env => "env"
  | keychain => "keychain"
  | file => "file"

/-- The key files of one key. -/
structure KeyPaths where
  master : KeyFile
  legacyMemory : KeyFile

def defaultKeyPaths : KeyPaths := ⟨.master, .memory⟩

section Ladder

variable (crates : Crates)

/-- `decode_key`. -/
def decodeMaster (encoded : String) : Option MasterKey :=
  (decodeKey crates encoded).bind fun raw => if sized : raw.length = KEY_LEN then some ⟨raw, sized⟩ else none

variable (access : Access)

def retireMatchingLegacyKey (paths : KeyPaths) (keychainKey : MasterKey) : CustodyM Unit := do
  match ← readKeyFile access paths.legacyMemory with
  | none => return ()
  | some legacyKey =>
    if legacyKey ≠ keychainKey then return ()
    else
      removeFile access paths.legacyMemory
        s!"retiring verified legacy memory key {paths.legacyMemory.path access.dir}"

/-- `file_key_refused`. -/
def fileKeyRefused (paths : KeyPaths) : CustodyError :=
  .other (s!"no external master-key custody: set {MASTER_KEY_ENV} or make the OS keychain available (this host does " ++
    s!"not use a key file at {paths.master.path access.dir})")

/-- A key that is there already, or a fresh one, where `may_generate` finds no evidence. -/
def existingOrFresh (existing : Option MasterKey) (evidence : CustodyM (Option String)) (refusal : String → String)
    (fresh : MasterKey) : CustodyM MasterKey :=
  match existing with
  | some key => return key
  | none => do
    match ← evidence with
    | some reason => throw (.other (refusal reason))
    | none => return fresh

/-- The ladder where the keychain has no entry. -/
def seedKeychain (port : Option Account) (paths : KeyPaths) (allowFile : Bool) (legacy : Option MasterKey)
    (evidence : CustodyM (Option String)) (fresh : MasterKey) : CustodyM (MasterKey × MasterKeySource) := do
  let fileKey ← (if allowFile then readKeyFile access paths.master else pure none)
  let key ← existingOrFresh (fileKey.or legacy) evidence
    (fun reason => s!"the key that sealed this data folder is not in the keychain ({reason}); refusing to generate a " ++
      s!"new one. Restore the key (keychain entry or {MASTER_KEY_ENV}) or run `ryu-core keys status`") fresh
  if ← keychainStore access port key then
    match ← keychainGet access port with
    | .key persisted => do
      failIf (persisted ≠ key) (.other "keychain returned different key material after storing the master key")
      retireMatchingLegacyKey access paths key
      return (key, .keychain)
    | .corrupt => throw (.other "keychain master key was corrupt after storing it")
    | .empty | .unavailable => throw (.other "keychain master key could not be verified after storing it")
  else do
    failIf (allowFile = false) (fileKeyRefused access paths)
    match ← readKeyFile access paths.master with
    | some existing => return (existing, .file)
    | none => return (← writeKeyFile access paths.master key, .file)

/-- The ladder where no keychain answers. -/
def fileFallback (paths : KeyPaths) (allowFile : Bool) (legacy : Option MasterKey)
    (evidence : CustodyM (Option String)) (fresh : MasterKey) : CustodyM (MasterKey × MasterKeySource) := do
  failIf (allowFile = false) (fileKeyRefused access paths)
  match ← readKeyFile access paths.master with
  | some key => return (key, .file)
  | none => do
    let generated ← existingOrFresh legacy evidence
      (fun reason => s!"the OS keychain is unavailable and this data folder holds sealed data ({reason}); refusing to " ++
        s!"generate a new key. Unlock the keychain or provide the key ({MASTER_KEY_ENV})") fresh
    return (← writeKeyFile access paths.master generated, .file)

/-- `load_master_key_guarded`. -/
def loadMasterKeyGuarded (envValue : Option String) (port : Option Account) (paths : KeyPaths) (allowFile : Bool)
    (evidence : CustodyM (Option String)) (fresh : MasterKey) : CustodyM (MasterKey × MasterKeySource) :=
  match envValue with
  | some encoded => do
    let key ← orFail (decodeMaster crates encoded) (.other s!"{MASTER_KEY_ENV} is not a base64 32-byte key")
    return (key, .env)
  | none => do
    let legacy ← readKeyFile access paths.legacyMemory
    match ← keychainGet access port with
    | .key key => do
      retireMatchingLegacyKey access paths key
      return (key, .keychain)
    | .empty => seedKeychain access port paths allowFile legacy evidence fresh
    | .corrupt => throw (.other "keychain master key is corrupt; refusing to overwrite it")
    | .unavailable => fileFallback access paths allowFile legacy evidence fresh

end Ladder

inductive KeySourceKind where
  | env
  | keychain
  | file
  | legacyMemory
  | retired (kcv : String)
deriving DecidableEq

namespace KeySourceKind

/-- `KeySourceKind::name`. -/
def name : KeySourceKind → String
  | env => "env"
  | keychain => "keychain"
  | file => "file"
  | legacyMemory => "memory"
  | retired kcv => "retired:" ++ kcv

/-- Every kind but a retired one. -/
def live : KeySourceKind → Bool
  | retired _ => false
  | env | keychain | file | legacyMemory => true

/-- The kinds a current key may be of. -/
def current : KeySourceKind → Bool
  | env | keychain | file => true
  | legacyMemory | retired _ => false

/-- `KeySourceKind::custody`. -/
def custody : KeySourceKind → MasterKeySource
  | env => .env
  | keychain => .keychain
  | file | legacyMemory | retired _ => .file

end KeySourceKind

inductive MasterKeyHealth where
  | ok
  | recoveredFrom (source : String)
deriving DecidableEq

inductive KeyProbe where
  | passed
  | noSealedData
  | failed
deriving DecidableEq

/-- What resolution reads besides the folder, and the key it would generate. -/
structure CustodyInputs where
  envValue : Option String
  keychainEnabled : Bool
  allowFile : Bool
  recordsKcv : Bool
  probe : MasterKey → KeyProbe
  sealedDataEvidence : Option String
  recordedStore : Option String
  fresh : MasterKey

/-- The keychain slot of the master key, unless the keychain is disabled. -/
def CustodyInputs.keychain (inputs : CustodyInputs) : Option Account :=
  if inputs.keychainEnabled then some .master else none

/-- The resolved key, its custody, and the retired keys to open with. -/
structure Resolution where
  key : MasterKey
  source : MasterKeySource
  retired : List MasterKey
  health : MasterKeyHealth

section Operations

variable (crates : Crates) (access : Access) (inputs : CustodyInputs)

/-- `kcv_hex`. -/
def kcvHex (key : MasterKey) : String := keyCheckValue crates key

/-- `RetiredVault::load`, before the check of the key. -/
def retiredKey (entry : RetiredEntry) : CustodyM MasterKey :=
  if entry.custody = "keychain" then do
    failIf (inputs.keychainEnabled = false)
      (.other s!"retired key {entry.kcv} is held in the keychain, which is disabled (RYU_KEYCHAIN=off)")
    match ← keychainGet access (some (.retired entry.kcv)) with
    | .key key => return key
    | _ => throw (.other s!"retired key {entry.kcv} is not readable from the keychain")
  else do
    let found ← readKeyFile access (.retired entry.kcv)
    orFail found (.other s!"retired key file {entry.kcv} is missing")

/-- `RetiredVault::load`. -/
def loadRetired (entry : RetiredEntry) : CustodyM MasterKey := do
  let key ← retiredKey access inputs entry
  failIf (kcvHex crates key ≠ entry.kcv) (.other s!"retired key {entry.kcv} does not match its key check value")
  return key

/-- The keys of some entries of the index, without those that cannot be loaded. -/
def loadEach : List RetiredEntry → CustodyM (List (RetiredEntry × MasterKey))
  | [] => return []
  | entry :: rest => do
    let loaded ← orNothing (some <$> loadRetired crates access inputs entry)
    let others ← loadEach rest
    return loaded.toList.map (entry, ·) ++ others

/-- `RetiredVault::load_all`. -/
def loadAll : CustodyM (List (RetiredEntry × MasterKey)) := do
  match ← attempt (readRetiredIndex access) with
  | .ok entries => loadEach crates access inputs entries
  | .error _ => return []

/-- Whether a keychain takes a key, and reads it back. -/
def storeAndCheck (port : Option Account) (key : MasterKey) : CustodyM Bool := do
  if ← keychainStore access port key then
    let back ← keychainGet access port
    return back = .key key
  else return false

/-- The material of a retired key is stored, and the custody it is in. -/
def storeRetired (kcv : String) (key : MasterKey) (preferKeychain : Bool) : CustodyM String := do
  let taken ← (if preferKeychain && inputs.keychainEnabled then storeAndCheck access (some (.retired kcv)) key
    else pure false)
  if taken then return "keychain"
  else do
    match ← readKeyFile access (.retired kcv) with
    | some _ => return "file"
    | none => do
      let _ ← writeKeyFile access (.retired kcv) key
      return "file"

/-- `RetiredVault::retire`. -/
def retire (key : MasterKey) (preferKeychain : Bool) : CustodyM RetiredEntry := do
  let kcv := kcvHex crates key
  let index ← readRetiredIndex access
  match index.find? (·.kcv = kcv) with
  | some existing => return existing
  | none => do
    failIf (MAX_RETIRED_KEYS ≤ index.length) (.other (s!"the retired-key set is full ({MAX_RETIRED_KEYS} keys); run " ++
      "`ryu-core keys status` and import into a new profile instead"))
    let custody ← storeRetired access inputs kcv key preferKeychain
    writeRetiredIndex access (index ++ [⟨kcv, custody, access.now⟩])
    return ⟨kcv, custody, access.now⟩

/-- `candidates`, in recovery order. -/
def candidates : CustodyM (List (KeySourceKind × MasterKey)) := do
  let env := inputs.envValue.bind (decodeMaster crates)
  let keychain ← keychainGet access inputs.keychain
  let file ← orNothing (readKeyFile access defaultKeyPaths.master)
  let legacy ← orNothing (readKeyFile access defaultKeyPaths.legacyMemory)
  let retired ← loadAll crates access inputs
  return env.toList.map (.env, ·) ++ keychain.key?.toList.map (.keychain, ·) ++
    file.toList.map (.file, ·) ++ legacy.toList.map (.legacyMemory, ·) ++
    retired.map fun found => (.retired found.1.kcv, found.2)

/-- `host_sealed_evidence`. -/
def hostSealedEvidence : CustodyM (Option String) :=
  match inputs.sealedDataEvidence with
  | some reason => return some reason
  | none => do
    let index ← orNothing (some <$> readRetiredIndex access)
    if index.getD [] ≠ [] then return some "retired master keys are recorded"
    else return inputs.recordedStore.map fun store => store ++ " records a sealing key"

/-- `guard_evidence` of `resolve`. -/
def guardEvidence (recorded : Option KcvRecord) : CustodyM (Option String) :=
  match recorded with
  | some record => return some s!"a key check value is recorded ({record.kcv})"
  | none => hostSealedEvidence access inputs

/-- `retired_keys` of `resolve`. -/
def retiredKeys (retiredAll : List (RetiredEntry × MasterKey)) (exclude : MasterKey) : List MasterKey :=
  (retiredAll.map (·.2)).filter (· ≠ exclude)

/-- What is retired besides, where the key of the ladder gave way to another. -/
def withPrimary (retired : List MasterKey) (primary : MasterKey) : List MasterKey :=
  if primary ∈ retired then retired else retired ++ [primary]

/-- `effective_source`, where `key_file_copy` may find a copy in either key file. -/
def effectiveSource (source : MasterKeySource) (key : MasterKey) (paths : KeyPaths) : CustodyM MasterKeySource :=
  if source = .keychain then do
    let file ← orNothing (readKeyFile access paths.master)
    if file = some key then return .file
    else do
      let legacy ← orNothing (readKeyFile access paths.legacyMemory)
      return if legacy = some key then .file else source
  else return source

/-- The candidate that is taken for a key that gave way. -/
def recovered (found : KeySourceKind × MasterKey) (retired : List MasterKey) : Resolution :=
  ⟨found.2, found.1.custody, retired, .recoveredFrom found.1.name⟩

/-- Keep what was sealed under a key that gave way readable. -/
def retirePrimary (primary : MasterKey) (source : MasterKeySource) : CustodyM Unit :=
  if source = .env then return ()
  else do
    let _ ← attempt (retire crates access inputs primary (source = .keychain))
    return ()

/-- `resolve` where the ladder refused. -/
def resolveRefused (recorded : Option KcvRecord) (retiredAll : List (RetiredEntry × MasterKey)) (error : CustodyError) :
    CustodyM Resolution :=
  match recorded with
  | none => throw error
  | some record => do
    let seen ← candidates crates access inputs
    match seen.find? (kcvHex crates ·.2 = record.kcv) with
    | some found => return recovered found (retiredKeys retiredAll found.2)
    | none => throw error

/-- `resolve` where another key is recorded. -/
def resolveMismatch (record : KcvRecord) (retiredAll : List (RetiredEntry × MasterKey)) (primary : MasterKey)
    (source : MasterKeySource) : CustodyM Resolution := do
  let primaryIsRetired := retiredAll.any (·.1.kcv = kcvHex crates primary)
  failIf (source = .env ∧ primaryIsRetired = false) (.mismatch (s!"{MASTER_KEY_ENV} does not match the key that sealed " ++
    s!"this data folder (recorded key check value {record.kcv}); refusing to use it. Unset it or provide the right " ++
    "key; `ryu-core keys status` lists the candidates"))
  let seen ← candidates crates access inputs
  match seen.find? (kcvHex crates ·.2 = record.kcv) with
  | none => throw (.mismatch (s!"the master key from {source.asStr} does not match the key that sealed this data folder " ++
      s!"(recorded key check value {record.kcv}), and no other candidate does; writes are refused to protect the data. " ++
      "Run `ryu-core keys status`"))
  | some found => do
    retirePrimary crates access inputs primary source
    return recovered found (withPrimary (retiredKeys retiredAll found.2) primary)

/-- `resolve` where the key of the ladder opens none of the sealed values. -/
def resolveFailed (retiredAll : List (RetiredEntry × MasterKey)) (primary : MasterKey) (source : MasterKeySource) :
    CustodyM Resolution := do
  let seen ← candidates crates access inputs
  match seen.find? (fun found => found.2 ≠ primary ∧ inputs.probe found.2 = .passed) with
  | none => throw (.mismatch (s!"the master key from {source.asStr} does not open this data folder's sealed messages, " ++
      "and no other candidate does; writes are refused to protect the data. Run `ryu-core keys status`"))
  | some found => do
    retirePrimary crates access inputs primary source
    writeKcvRecord access (kcvHex crates found.2) found.1.name
    return recovered found (withPrimary (retiredKeys retiredAll found.2) primary)

/-- `resolve`. -/
def resolve : CustodyM Resolution := do
  checkDataFormat access
  let recorded ← readKcvRecord access
  let ladder ← attempt (loadMasterKeyGuarded crates access inputs.envValue inputs.keychain defaultKeyPaths
    inputs.allowFile (guardEvidence access inputs recorded) inputs.fresh)
  let retiredAll ← loadAll crates access inputs
  match ladder with
  | .error error => resolveRefused crates access inputs recorded retiredAll error
  | .ok (primary, source) =>
    let found : Resolution := ⟨primary, source, retiredKeys retiredAll primary, .ok⟩
    match recorded with
    | some record =>
      if record.kcv = kcvHex crates primary then return found
      else resolveMismatch crates access inputs record retiredAll primary source
    | none =>
      if inputs.recordsKcv = false then return found
      else if inputs.probe primary = .failed then resolveFailed crates access inputs retiredAll primary source
      else do
        writeKcvRecord access (kcvHex crates primary) (← effectiveSource access source primary defaultKeyPaths).asStr
        return found

inductive AdoptFrom where
  | env
  | keychain
  | file
  | retired (kcv : String)
deriving DecidableEq

/-- The kind of candidate that is adopted. -/
def AdoptFrom.kind : AdoptFrom → KeySourceKind
  | env => .env
  | keychain => .keychain
  | file => .file
  | retired kcv => .retired kcv

/-- `from_name`. -/
def AdoptFrom.name : AdoptFrom → String
  | env => "env"
  | keychain => "keychain"
  | file => "file"
  | retired kcv => "retired " ++ kcv

structure AdoptOutcome where
  kcv : String
  custody : String
  retired : Option String
deriving DecidableEq

/-- `candidate_key`. -/
def candidateKey (source : AdoptFrom) : CustodyM MasterKey := do
  let seen ← candidates crates access inputs
  match seen.find? (·.1 = source.kind) with
  | some found => return found.2
  | none => throw (.other s!"no {source.kind.name} key is available")

/-- `persistent_key`, without its custody, which no caller reads. -/
def persistentKey : CustodyM (Option MasterKey) := do
  match ← keychainGet access inputs.keychain with
  | .key key => return some key
  | _ => orNothing (readKeyFile access defaultKeyPaths.master)

/-- `recorded_current_key`. -/
def recordedCurrentKey : CustodyM (Option MasterKey) := do
  match ← readKcvRecord access with
  | none => return none
  | some record => do
    let seen ← candidates crates access inputs
    return (seen.find? fun found => found.1.live && kcvHex crates found.2 = record.kcv).map (·.2)

/-- Add the keys that are to be retired before another becomes current. -/
def addRetired (key : MasterKey) (toRetire : List MasterKey) : List MasterKey → List MasterKey
  | [] => toRetire
  | old :: rest =>
    if old = key ∨ old ∈ toRetire then addRetired key toRetire rest
    else addRetired key (toRetire ++ [old]) rest

/-- Retire some keys, in order. -/
def retireAll : List MasterKey → CustodyM Unit
  | [] => return ()
  | key :: rest => do
    let _ ← retire crates access inputs key inputs.keychainEnabled
    retireAll rest

/-- The current key is stored, and the custody it is in. -/
def storeCurrent (key : MasterKey) : CustodyM String := do
  let taken ← (if inputs.keychainEnabled then storeAndCheck access inputs.keychain key else pure false)
  if taken then return "keychain"
  else do
    failIf (inputs.allowFile = false) (.other "the keychain is unavailable and this host does not allow a key file")
    replaceKeyFile access defaultKeyPaths.master key
    return "file"

/-- `install_current`. -/
def installCurrent (key : MasterKey) (extraRetired : List MasterKey) : CustodyM AdoptOutcome := do
  let previous ← persistentKey access inputs
  let recordedKey ← recordedCurrentKey crates access inputs
  let existing ← readRetiredIndex access
  let toRetire := addRetired key [] (previous.toList ++ recordedKey.toList ++ extraRetired)
  let newEntries := toRetire.filter fun old => existing.all (·.kcv ≠ kcvHex crates old)
  failIf (MAX_RETIRED_KEYS < existing.length + newEntries.length) (.other (s!"adopting this key would retire more than " ++
    s!"{MAX_RETIRED_KEYS} keys; import into a new profile instead"))
  retireAll crates access inputs toRetire
  let custody ← storeCurrent access inputs key
  writeKcvRecord access (kcvHex crates key) custody
  let retired := (recordedKey.filter (· ≠ key)).or (previous.filter (· ≠ key))
  return ⟨kcvHex crates key, custody, retired.map (kcvHex crates)⟩

/-- `adopt_with`. -/
def adoptWith (source : AdoptFrom) (acceptUnreadable : Bool) : CustodyM AdoptOutcome := do
  let key ← candidateKey crates access inputs source
  let recorded ← readKcvRecord access
  failIf (recorded.map (·.kcv) ≠ some (kcvHex crates key) ∧ inputs.probe key = .failed ∧ acceptUnreadable = false)
    (.other (s!"the {source.name} key does not open this data folder's sealed messages; refusing to adopt it (add " ++
      "--accept-unreadable to adopt it anyway and leave the messages it cannot open unreadable)"))
  installCurrent crates access inputs key []

/-- The key file that a candidate is in. -/
def KeySourceKind.slot : KeySourceKind → Option KeyFile
  | .file => some defaultKeyPaths.master
  | .legacyMemory => some defaultKeyPaths.legacyMemory
  | .env | .keychain | .retired _ => none

/-- `retire_with`. -/
def retireWith (kcv : String) : CustodyM RetiredEntry := do
  let recorded ← readKcvRecord access
  failIf (recorded.any (·.kcv = kcv)) (.other s!"{kcv} is the current key of this data folder; adopt another key first")
  let seen ← candidates crates access inputs
  let (kind, key) ← orFail (seen.find? fun found => kcvHex crates found.2 = kcv && found.1.live)
    (.other s!"no candidate key has key check value {kcv}")
  failIf (kind = .keychain) (.other s!"the keychain slot holds {kcv}; use `keys adopt` to replace it")
  let entry ← retire crates access inputs key inputs.keychainEnabled
  match kind.slot with
  | none => return entry
  | some file => do
    let loaded ← orNothing (some <$> loadRetired crates access inputs entry)
    if loaded = some key then do
      removeFile access file s!"removing the retired key file {file.path access.dir}"
      return entry
    else return entry

/-- Retire the keys of a bundle whose current key is current here too. -/
def retireOthers (current : MasterKey) : List MasterKey → CustodyM Unit
  | [] => return ()
  | key :: rest =>
    if key = current then retireOthers current rest
    else do
      let _ ← retire crates access inputs key inputs.keychainEnabled
      retireOthers current rest

/-- `import_with`. -/
def importWith (current : MasterKey) (retired : List MasterKey) : CustodyM AdoptOutcome := do
  let stranded := (inputs.envValue.bind (decodeMaster crates)).any fun env => env ≠ current ∧ env ∉ retired
  failIf (stranded = true) (.other (s!"{MASTER_KEY_ENV} is set to a different key than the backup's; set it to the backup key " ++
    s!"(key check value {kcvHex crates current}) or import into a new data folder"))
  let recorded ← readKcvRecord access
  match recorded.filter (·.kcv = kcvHex crates current) with
  | none => installCurrent crates access inputs current retired
  | some record => do
    let seen ← candidates crates access inputs
    if seen.all (fun found => !(found.1.current && found.2 = current)) then installCurrent crates access inputs current retired
    else do
      retireOthers crates access inputs current retired
      return ⟨kcvHex crates current, record.custody, none⟩

end Operations

/-- The host that an operation runs for, with what its environment and its build say. -/
structure CryptoHost where
  masterKeyEnv : Option String
  keychainOff : Bool
  osKeychain : Bool
  allowFileKey : Bool
  recordsKcv : Bool
  probeMasterKey : MasterKey → KeyProbe
  sealedDataEvidence : Option String
  recordedStore : Option String
  fresh : MasterKey

/-- `with_host_inputs`. -/
def CryptoHost.inputs (host : CryptoHost) : Except CustodyError CustodyInputs :=
  let envValue := host.masterKeyEnv.filter fun value => trim value ≠ ""
  if host.osKeychain = false ∧ envValue = none ∧ host.keychainOff = false then
    .error (.other (s!"this build has no OS keychain backend (ryu-crypto feature `os-keychain` is off): set " ++
      s!"{MASTER_KEY_ENV}, or set RYU_KEYCHAIN=off to use the file key"))
  else
    .ok { envValue
          keychainEnabled := !host.keychainOff && host.osKeychain
          allowFile := host.allowFileKey
          recordsKcv := host.recordsKcv
          probe := host.probeMasterKey
          sealedDataEvidence := host.sealedDataEvidence
          recordedStore := host.recordedStore
          fresh := host.fresh }

end RyuRooms.Custody
