import Mathlib.Logic.Function.Basic
import RyuRooms.Model.PluginKeys

/-! # Standalone launches, one file operation at a time

`PluginKeys::resolve_with` of any number of processes that start on one empty data directory without a key. The root
is created in place and filled by the process that created it, and the pin appears whole, by a rename. Between any
two operations a process may be overtaken, fail or crash, and a crash keeps a part of what was not yet synced.
-/

namespace RyuRooms.Crypto

open Foundation

/-- Where a launch is, with what it holds. -/
inductive Stage where
  | readRoot
  | checkPin
  | createRoot
  | writeRoot (left : Bytes)
  | readKcv (root : Bytes)
  | writeKcv (cipher : PluginCipher)
  | returned (keys : PluginKeys)
  | failed (error : String)
  | crashed
deriving DecidableEq

/-- A launch has not come to an end. -/
def Stage.running : Stage → Bool
  | .returned _ | .failed _ | .crashed => false
  | _ => true

/-- A data directory and the launches on it, by number. -/
structure Launches where
  files : SecretsFiles
  stage : ℕ → Stage

/-- A data directory without a root and without a pin, on which launches start. -/
def Launches.start : Launches := ⟨⟨none, none⟩, fun _ => .readRoot⟩

/-- What a launch does next, with the number of bytes that one `write` takes besides the first. -/
inductive LaunchAction where
  | go (more : ℕ)
  | fail (error : String)
  | crash (kept : ℕ)

section Steps

variable (crates : Crates) (secrets pluginId : String)

/-- What the root file of a key holds. -/
def rootText (root : Bytes) : Bytes := utf8 (crates.base64Encode root ++ "\n")

/-- `from_subkey_b64` and `read_standalone_kcv`, with what follows from them. -/
def readKcvStage (files : SecretsFiles) (root : Bytes) : Stage :=
  match PluginCipher.fromSubkeyB64 crates pluginId (crates.base64Encode root) with
  | .error error => .failed error
  | .ok cipher =>
    match (outcome (readStandaloneKcv (secrets ++ "/" ++ STANDALONE_KCV_FILE)) files).1 with
    | .error error => .failed error
    | .ok none => .writeKcv cipher
    | .ok (some recorded) =>
      if recorded ≠ cipher.kcv crates then
        .failed (s!"this app's standalone data was sealed under a different key (kcv {recorded}); " ++
          s!"restore that {MASTER_KEY_ENV} or {STANDALONE_ROOT_FILE} instead of starting with another key")
      else .returned (.sealing cipher .standalone)

/-- The next file operation of a launch, where it succeeds. -/
def goStage (fresh : Bytes) (files : SecretsFiles) (more : ℕ) : Stage → Stage × SecretsFiles
  | .readRoot =>
    match files.root with
    | none => (.checkPin, files)
    | some bytes =>
      match (outcome (decodeRoot crates (secrets ++ "/" ++ STANDALONE_ROOT_FILE) bytes) files).1 with
      | .error error => (.failed error, files)
      | .ok root => (.readKcv root, files)
  | .checkPin =>
    if files.pin.isSome then
      (.failed (s!"this app's standalone data was sealed under {MASTER_KEY_ENV}; set it again " ++
        "instead of generating a new key"), files)
    else (.createRoot, files)
  | .createRoot =>
    if files.root.isSome then (.failed (s!"creating {secrets}/" ++ STANDALONE_ROOT_FILE), files)
    else (.writeRoot (rootText crates fresh), { files with root := some [] })
  | .writeRoot left =>
    if left = [] then (.readKcv fresh, files)
    else
      (.writeRoot (left.drop (more + 1)), { files with root := files.root.map (· ++ left.take (more + 1)) })
  | .readKcv root => (readKcvStage crates secrets pluginId files root, files)
  | .writeKcv cipher =>
    (.returned (.sealing cipher .standalone), { files with pin := some (.json (pinBody (cipher.kcv crates) "standalone")) })
  | stage => (stage, files)

/-- What is left of the files by a launch that crashes: of a root it was writing, so many bytes. -/
def crashFiles (files : SecretsFiles) (kept : ℕ) : Stage → SecretsFiles
  | .writeRoot _ => { files with root := files.root.map (·.take kept) }
  | _ => files

/-- Launches on an empty data directory, each with the root it would generate. -/
def firstLaunches (fresh : ℕ → { root : Bytes // root.length = KEY_LEN }) : Machine Launches (ℕ × LaunchAction) where
  Initial state := state = .start
  step? state
    | (launch, action) =>
      let stage := state.stage launch
      if stage.running then
        match action with
        | .go more =>
          let (next, files) := goStage crates secrets pluginId (fresh launch) state.files more stage
          some ⟨files, Function.update state.stage launch next⟩
        | .fail error => some ⟨state.files, Function.update state.stage launch (.failed error)⟩
        | .crash kept => some ⟨crashFiles state.files kept stage, Function.update state.stage launch .crashed⟩
      else none

end Steps

end RyuRooms.Crypto
