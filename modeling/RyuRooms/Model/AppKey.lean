import RyuRooms.Model.Custody

/-! # Keys that apps own

`app_key.rs` of the crate `ryu-crypto`: an app with a process of its own has a key in a slot of the keychain, or in a
key file under the name of the slot, and resolves it on the ladder of the master key. The check value of the key that
it is given is recorded for the slot, and the other keys at hand are given along to open with. `secrets/` is known by
the names that `read_dir` lists, and a process is followed up to the first key it is given, which it keeps.
-/

namespace RyuRooms.Custody

open Foundation Crypto

/-- The account of the master key in the keychain. -/
def KEYRING_ACCOUNT : String := "master-key"

/-- What `validate_slot` accepts. -/
def ValidSlot (slot : String) : Prop :=
  slot ≠ "" ∧ slot.utf8ByteSize ≤ 64 ∧
    slot.toList.all (fun char => char.isLower || char.isDigit || char == '-') = true ∧
    slot ≠ KEYRING_ACCOUNT ∧ (KEYRING_ACCOUNT ++ "-").toList.isPrefixOf slot.toList = false

instance : DecidablePred ValidSlot := fun _ => inferInstanceAs (Decidable (_ ∧ _))

abbrev AppSlot := { slot : String // ValidSlot slot }

/-- `app_keys::DESKTOP`. -/
def DESKTOP : AppSlot := ⟨"desktop-seal-key", by decide⟩

namespace AppSlot

def account (slot : AppSlot) : Account := .slot slot

/-- The key file of a slot; under two names it is one of the master key's. -/
def file (slot : AppSlot) : KeyFile :=
  if slot.val = "master" then .master else if slot.val = "memory" then .memory else .slot slot

/-- `app_key_paths`. -/
def paths (slot : AppSlot) : KeyPaths := ⟨slot.file, slot.file⟩

theorem account_ne {slot other : AppSlot} (apart : other ≠ slot) : other.account ≠ slot.account :=
  fun same => apart (Subtype.ext (Account.slot.inj same))

theorem file_ne {slot other : AppSlot} (apart : other ≠ slot) : other.file ≠ slot.file := by
  have names : other.val ≠ slot.val := fun same => apart (Subtype.ext same)
  unfold file
  grind

/-- `sealed_file_prefix`. -/
def sealedFilePrefix (slot : AppSlot) : Option String := if slot = DESKTOP then some "desktop-" else none

end AppSlot

/-- What the resolution of an app's key reads besides the folder, and the key it would generate. -/
structure AppInputs where
  slot : AppSlot
  envValue : Option String
  keychainEnabled : Bool
  allowFile : Bool
  secrets : Option (List String)
  fresh : MasterKey

namespace AppInputs

/-- The keychain slot of the app, unless the keychain is disabled. -/
def keychain (inputs : AppInputs) : Option Account :=
  if inputs.keychainEnabled then some inputs.slot.account else none

def sealedFileEvidence (inputs : AppInputs) : Option String := do
  let start ← inputs.slot.sealedFilePrefix
  let name ← (← inputs.secrets).find? fun name =>
    start.toList.isPrefixOf name.toList && ".sealed".toList.isSuffixOf name.toList
  return s!"{name} holds sealed data"

end AppInputs

/-- The key of an app, and the other keys of its slot. -/
structure AppKey where
  key : MasterKey
  retired : List MasterKey

def CustodyError.text : CustodyError → String
  | mismatch text | other text => text
  | killed => ""

/-- The folder with another record of a slot. -/
def Folder.withSlot (folder : Folder) (slot : AppSlot) (record : AppKcvRecord) : Folder :=
  { folder with slots := Function.update folder.slots slot (.json record) }

/-- `ObservedKeychain::unavailable`. -/
def Work.unavailable (work : Work) : Bool := work.answers.contains .unavailable

/-- `ObservedKeychain::held`, the last key that the keychain answered with. -/
def Work.held (work : Work) : Option MasterKey := (work.answers.filterMap KeychainState.key?).head?

section AppKey

variable (crates : Crates) (access : Access) (inputs : AppInputs)

/-- `read_app_kcv`: the recorded check value, or why it cannot be read. -/
def readAppKcv : CustodyM (Except String (Option String)) := do
  match ← attempt (readJson access s!"{inputs.slot.val}.kcv.json" (·.slots inputs.slot)) with
  | .ok record => return .ok (record.map (·.kcv))
  | .error error => return .error error.text

/-- `write_app_kcv`, which may fail. -/
def writeAppKcv (kcv : String) (source : MasterKeySource) : CustodyM Unit := do
  match ← attempt (writeJson access s!"{inputs.slot.val}.kcv.json" (·.withSlot inputs.slot ⟨1, kcv, source.asStr⟩)) with
  | .ok _ | .error _ => return ()

/-- The evidence that a slot was used, asked for where the keychain cannot be read. -/
def appEvidence (recorded : Except String (Option String)) : CustodyM (Option String) := do
  if (← get).unavailable then
    match recorded with
    | .ok (some kcv) => return some s!"a key check value is recorded ({kcv})"
    | .ok none => return inputs.sealedFileEvidence
    | .error error => return some s!"the key check record is unreadable: {error}"
  else return none

/-- The keys at hand, each once: that of the ladder and those that are found besides. -/
def appCandidates (ladderKey : MasterKey) (others : List MasterKey) : List MasterKey :=
  others.foldl (fun candidates key => if candidates.contains key then candidates else candidates ++ [key]) [ladderKey]

/-- The key of the recorded check value, where it is at hand, and else the key of the ladder. -/
def pinnedKey (recorded : Option String) (candidates : List MasterKey) (ladderKey : MasterKey)
    (source : MasterKeySource) : CustodyM MasterKey :=
  match recorded with
  | none => return ladderKey
  | some kcv =>
    if kcv = kcvHex crates ladderKey ∨ source = .env then return ladderKey
    else
      match candidates.find? (fun candidate => kcvHex crates candidate = kcv) with
      | some pinned => return pinned
      | none => do
        let work ← get
        failIf (source = .file ∧ work.unavailable = true) (.other ("the OS keychain is unavailable and the key file " ++
          s!"in secrets/ is not the key that sealed this slot (recorded key check value {kcv}); refusing to use it. " ++
          s!"Unlock the keychain or provide the key ({MASTER_KEY_ENV})"))
        return ladderKey

/-- `resolve_app_key`. -/
def resolveAppKey : CustodyM AppKey := do
  let recorded ← readAppKcv access inputs
  let ladder ← loadMasterKeyGuarded crates access inputs.envValue inputs.keychain inputs.slot.paths inputs.allowFile
    (appEvidence inputs recorded) inputs.fresh
  let fileKey ← (if inputs.allowFile then orNothing (readKeyFile access inputs.slot.file) else pure none)
  let work ← get
  let candidates := appCandidates ladder.1
    ((inputs.envValue.bind (decodeMaster crates)).toList ++ work.held.toList ++ fileKey.toList)
  let recordedKcv := recorded.toOption.join
  let key ← pinnedKey crates recordedKcv candidates ladder.1 ladder.2
  if recordedKcv ≠ some (kcvHex crates key) then
    writeAppKcv access inputs (kcvHex crates key) ladder.2
  return ⟨key, candidates.filter (· ≠ key)⟩

end AppKey

/-- The host of an app, with what its environment and its build say. -/
structure AppHost where
  masterKeyEnv : Option String
  keychainOff : Bool
  osKeychain : Bool
  allowFileKey : Bool
  secrets : Option (List String)
  fresh : MasterKey

/-- What `resolve_cached` gives to the resolution. -/
def AppHost.inputs (host : AppHost) (slot : AppSlot) : Except CustodyError AppInputs :=
  if host.osKeychain = false ∧ host.masterKeyEnv = none ∧ host.keychainOff = false then
    .error (.other (s!"this build has no OS keychain backend (ryu-crypto feature `os-keychain` is off): set " ++
      s!"{MASTER_KEY_ENV}, or set RYU_KEYCHAIN=off to use the file key"))
  else
    .ok { slot
          envValue := host.masterKeyEnv
          keychainEnabled := !host.keychainOff && host.osKeychain
          allowFile := host.allowFileKey
          secrets := host.secrets
          fresh := host.fresh }

/-- An app asks a host for the key of its slot. -/
structure AppOperation where
  host : AppHost
  access : Access
  slot : AppSlot

/-- `resolve_cached`, of a process that was given no key yet, and the folder that it leaves. -/
def AppOperation.result (crates : Crates) (operation : AppOperation) (folder : Folder) :
    Except CustodyError AppKey × Folder :=
  match operation.host.inputs operation.slot with
  | .error error => (.error error, folder)
  | .ok inputs =>
    match resolveAppKey crates operation.access inputs ⟨folder, 0, []⟩ with
    | .ok app work => (.ok app, work.folder)
    | .error .killed work => (.error .killed, work.folder)
    | .error _ work => (.error (.other s!"loading the {operation.slot.val} key"), work.folder)

end RyuRooms.Custody
