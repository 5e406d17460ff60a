import RyuRooms.Crypto.Launches

/-! # First launches that are interrupted

A launch on its own is `PluginKeys::resolve_with`, and what it finds after others is decided by their root file. The
root is written in place: a launch that stops inside that write leaves a file that every later launch refuses.
-/

namespace RyuRooms.Crypto

open Foundation

/-- A launch of a plugin outside Core, without a key. -/
structure Launch.Standalone (launch : Launch) (pluginId : String) : Prop where
  pluginId : launch.pluginId = pluginId
  delivered : launch.delivered = false
  underCore : launch.underCore = false
  hasMaster : launch.hasMaster = false

/-- All writes of a launch succeed. -/
def Launch.Fair (launch : Launch) : Prop := launch.faults = ⟨none, none, none, none⟩

section Recovery

variable {crates : Crates} {secrets pluginId : String} {launch : Launch} {source target : SecretsFiles} {keys : PluginKeys}
  {root : Bytes}

theorem resolveWith_standalone_iff (alone : launch.Standalone pluginId) :
    resolveWith crates secrets launch source = .ok keys target ↔ ∃ root middle cipher,
      loadOrCreateStandaloneRoot crates secrets launch source = .ok root middle ∧
      PluginCipher.fromSubkeyB64 crates pluginId (crates.base64Encode root) = .ok cipher ∧
      pinStandaloneKcv secrets launch.faults (cipher.kcv crates) "standalone" middle = .ok () target ∧
      keys = .sealing cipher .standalone := by
  rw [resolveWith, alone.delivered, alone.hasMaster, alone.underCore, alone.pluginId]
  simp only [Bool.false_eq_true, if_false, bind_ok_iff, returnExcept_ok_iff, pure_ok_iff]
  constructor
  · rintro ⟨root, middle, loaded, cipher, _, ⟨decoded, rfl⟩, _, _, pinned, rfl, rfl⟩
    exact ⟨root, middle, cipher, loaded, decoded, pinned, rfl⟩
  · rintro ⟨root, middle, cipher, loaded, decoded, pinned, rfl⟩
    exact ⟨root, middle, loaded, cipher, middle, ⟨decoded, rfl⟩, (), target, pinned, rfl, rfl⟩

/-- A root is read from the bytes that are there. -/
theorem loadOrCreate_of_root {bytes : Bytes} (held : source.root = some bytes) :
    loadOrCreateStandaloneRoot crates secrets launch source =
      decodeRoot crates (secrets ++ "/" ++ STANDALONE_ROOT_FILE) bytes source := by
  have got : (get : KeyCall SecretsFiles) source = .ok source source := rfl
  rw [loadOrCreateStandaloneRoot]
  refine (bind_eq_of_ok got).trans ?_
  rw [held]

/-- A launch without faults creates a root where there is none. -/
theorem loadOrCreate_of_rootless (fair : launch.Fair) (free : source.root = none) (unpinned : source.pin = none) :
    loadOrCreateStandaloneRoot crates secrets launch source =
      .ok launch.fresh { source with root := some (rootText crates launch.fresh) } := by
  obtain ⟨root, pin⟩ := source
  obtain rfl : root = none := free
  obtain rfl : pin = none := unpinned
  rw [loadOrCreateStandaloneRoot, fair]
  rfl

/-- A launch without faults pins its key where no other is pinned. -/
theorem pinStandaloneKcv_of_pinned {kcv : String} (shown : kcv ≠ "")
    (pin : source.pin = none ∨ source.pin = some (.json (pinBody kcv "standalone"))) :
    pinStandaloneKcv secrets ⟨none, none, none, none⟩ kcv "standalone" source =
      .ok () { source with pin := some (.json (pinBody kcv "standalone")) } := by
  rw [pinStandaloneKcv]
  refine (bind_eq_of_ok (readStandaloneKcv_of_pinned shown pin)).trans ?_
  rcases pin with unpinned | pinned
  · rw [unpinned]
    rfl
  · rw [pinned]
    simp only [Option.map_some, failIf, not_true, if_false, ne_eq]
    rw [← pinned]
    rfl

/-- A launch that has its root returns the keys of that root, if it succeeds. -/
theorem keys_of_loaded (base64 : crates.WritesBase64) (alone : launch.Standalone pluginId)
    (whole : ∀ root middle, loadOrCreateStandaloneRoot crates secrets launch source = .ok root middle → root.length = KEY_LEN)
    (resolved : resolveWith crates secrets launch source = .ok keys target) :
    ∃ root middle, loadOrCreateStandaloneRoot crates secrets launch source = .ok root middle ∧ trim pluginId ≠ "" ∧
      keys = .sealing (cipherOf pluginId root) .standalone := by
  obtain ⟨root, middle, cipher, loaded, decoded, -, rfl⟩ := (resolveWith_standalone_iff alone).mp resolved
  rw [fromSubkeyB64_root base64 (whole root middle loaded)] at decoded
  cases checked : validPluginId pluginId with
  | error error => rw [checked] at decoded; cases decoded
  | ok id =>
    rw [checked] at decoded
    obtain ⟨shown, rfl⟩ := validPluginId_ok_iff.mp checked
    obtain rfl := Except.ok.inj decoded
    exact ⟨root, middle, loaded, shown, rfl⟩

/-- A launch that has its root, on a directory where no other key is pinned, succeeds. -/
theorem resolves_of_loaded (base64 : crates.WritesBase64) (checks : ∀ root, keyCheckValue crates root ≠ "")
    (alone : launch.Standalone pluginId) (fair : launch.Fair) (named : trim pluginId ≠ "") {middle : SecretsFiles}
    (loaded : loadOrCreateStandaloneRoot crates secrets launch source = .ok root middle) (whole : root.length = KEY_LEN)
    (pin : middle.pin = none ∨ middle.pin = some (.json (pinBody ((cipherOf pluginId root).kcv crates) "standalone"))) :
    ∃ keys target, resolveWith crates secrets launch source = .ok keys target := by
  have decoded : PluginCipher.fromSubkeyB64 crates pluginId (crates.base64Encode root) = .ok (cipherOf pluginId root) := by
    rw [fromSubkeyB64_root base64 whole, validPluginId_ok_iff.mpr ⟨named, rfl⟩]
    rfl
  have pinned := @pinStandaloneKcv_of_pinned secrets middle _ (checks (cipherOf pluginId root).subkey) pin
  rw [← fair] at pinned
  exact ⟨_, _, (resolveWith_standalone_iff alone).mpr ⟨root, middle, _, loaded, decoded, pinned, rfl⟩⟩

variable {fresh : ℕ → { root : Bytes // root.length = KEY_LEN }} {state : Launches}

/-- What the next launch loads where one launch owns the root. -/
theorem loads_owned_iff (base64 : crates.WritesBase64) (padded : crates.Padded) {owner : ℕ} {bytes : Bytes}
    (root_ : source.root = some bytes) (part : bytes <+: rootText crates (fresh owner)) {middle : SecretsFiles} :
    loadOrCreateStandaloneRoot crates secrets launch source = .ok root middle ↔
      WHOLE_ROOT ≤ bytes.length ∧ root = fresh owner ∧ middle = source := by
  rw [loadOrCreate_of_root root_]
  have reads := @decodeRoot_of_part crates base64 (fresh owner) (fresh owner).2 padded
    (secrets ++ "/" ++ STANDALONE_ROOT_FILE) source bytes root part
  rw [outcome_fst_ok_iff] at reads
  constructor
  · intro loaded
    obtain ⟨long, same⟩ := reads.mp ⟨middle, loaded⟩
    exact ⟨long, same, (decodeRoot_ok_iff.mp loaded).1.symm⟩
  · rintro ⟨long, same, rfl⟩
    obtain ⟨target, loaded⟩ := reads.mpr ⟨long, same⟩
    rw [loaded, (decodeRoot_ok_iff.mp loaded).1]

/-- Where nobody writes a root, the next launch succeeds unless the root is cut. -/
theorem resolves_iff (base64 : crates.WritesBase64) (padded : crates.Padded) (checks : ∀ root, keyCheckValue crates root ≠ "")
    (sound : Sound pluginId crates fresh state) (quiet : ∀ launch, (state.stage launch).isWriting = false)
    (alone : launch.Standalone pluginId) (fair : launch.Fair) :
    (∃ keys target, resolveWith crates secrets launch state.files = .ok keys target) ↔ trim pluginId ≠ "" ∧ ¬ Cut state := by
  cases sound with
  | untouched root pin early =>
    have loaded := @loadOrCreate_of_rootless crates secrets launch state.files fair root pin
    have uncut : ¬ Cut state := by
      rintro ⟨⟨bytes, held, -⟩, -⟩
      rw [root] at held
      cases held
    constructor
    · rintro ⟨keys, target, resolved⟩
      obtain ⟨_, _, _, named, -⟩ := keys_of_loaded base64 alone (fun other middle same => by
        obtain ⟨rfl, -⟩ := EStateM.Result.ok.inj (loaded.symm.trans same)
        exact launch.fresh.2) resolved
      exact ⟨named, uncut⟩
    · rintro ⟨named, -⟩
      exact resolves_of_loaded base64 checks alone fair named loaded launch.fresh.2 (.inl pin)
  | owned owner owned =>
    obtain ⟨bytes, root, part⟩ := owned.root
    have loads := @loads_owned_iff crates secrets launch state.files
    have uncut : ¬ Cut state ↔ WHOLE_ROOT ≤ bytes.length := by
      rw [← not_lt]
      apply not_congr
      constructor
      · rintro ⟨⟨found, same, small⟩, -⟩
        obtain rfl := Option.some.inj (root.symm.trans same)
        exact small
      · exact fun small => ⟨⟨bytes, root, small⟩, quiet⟩
    rw [uncut]
    constructor
    · rintro ⟨keys, target, resolved⟩
      obtain ⟨_, _, loaded, named, -⟩ := keys_of_loaded base64 alone (fun other middle same => by
        obtain ⟨-, rfl, -⟩ := (loads base64 padded root part).mp same
        exact (fresh owner).2) resolved
      exact ⟨named, ((loads base64 padded root part).mp loaded).1⟩
    · rintro ⟨named, long⟩
      have loaded := (loads base64 padded root part).mpr ⟨long, rfl, rfl⟩
      exact resolves_of_loaded base64 checks alone fair named loaded (fresh owner).2 owned.pin

/-- Launches that returned agree, and a launch after them agrees with them if it returns. -/
theorem keys_agree (base64 : crates.WritesBase64) (padded : crates.Padded) (sound : Sound pluginId crates fresh state) {first : ℕ}
    (returned : state.stage first = .returned keys) :
    (∀ second others, state.stage second = .returned others → others = keys) ∧
    ∀ launch others target, launch.Standalone pluginId →
      resolveWith crates secrets launch state.files = .ok others target → others = keys := by
  cases sound with
  | untouched root pin early =>
    have start := early first
    rw [returned] at start
    cases start
  | owned owner owned =>
    have own := owned.held first
    rw [returned] at own
    obtain rfl : keys = .sealing (cipherOf pluginId (fresh owner)) .standalone := own
    constructor
    · intro second others also
      have same := owned.held second
      rw [also] at same
      exact same
    · intro launch others target alone resolved
      obtain ⟨bytes, root, part⟩ := owned.root
      have loads := @loads_owned_iff crates secrets launch state.files
      obtain ⟨_, _, loaded, -, rfl⟩ := keys_of_loaded base64 alone (fun other middle same => by
        obtain ⟨-, rfl, -⟩ := (loads base64 padded root part).mp same
        exact (fresh owner).2) resolved
      obtain ⟨-, rfl, -⟩ := (loads base64 padded root part).mp loaded
      rfl

end Recovery

section Alone

variable {crates : Crates} {secrets pluginId : String} {fresh : ℕ → { root : Bytes // root.length = KEY_LEN }}
  {others : ℕ → Stage} {number : ℕ} {launch : Launch} {source middle target : SecretsFiles} {stage between next : Stage}

/-- How a launch that has come to an end did. -/
def Stage.ended : Except String PluginKeys → Stage
  | .ok keys => .returned keys
  | .error error => .failed error

variable (crates secrets pluginId fresh others number)

/-- One launch, with nothing done by the others, goes from one stage to another. -/
def Leads (source : SecretsFiles) (stage : Stage) (target : SecretsFiles) (next : Stage) : Prop :=
  ∃ events, (∀ event ∈ events, event.1 = number) ∧ (firstLaunches crates secrets pluginId fresh).Path
    ⟨source, Function.update others number stage⟩ events ⟨target, Function.update others number next⟩

variable {crates secrets pluginId fresh others number}

theorem Leads.trans (first : Leads crates secrets pluginId fresh others number source stage middle between)
    (second : Leads crates secrets pluginId fresh others number middle between target next) :
    Leads crates secrets pluginId fresh others number source stage target next := by
  obtain ⟨events, own, path⟩ := first
  obtain ⟨more, also, rest⟩ := second
  refine ⟨events ++ more, fun event member => ?_, Machine.path_append_iff.mpr ⟨_, path, rest⟩⟩
  rcases List.mem_append.mp member with here | later
  · exact own event here
  · exact also event later

/-- The next file operation of a launch is a step of it. -/
theorem Leads.go (running : stage.running) (more : ℕ) :
    Leads crates secrets pluginId fresh others number source stage
      (goStage crates secrets pluginId (fresh number) source more stage).2
      (goStage crates secrets pluginId (fresh number) source more stage).1 := by
  refine ⟨[(number, .go more)], fun event member => ?_, ?_⟩
  · rw [List.mem_singleton.mp member]
  · refine Machine.path_cons_iff.mpr ⟨_, ?_, Machine.path_nil_iff.mpr rfl⟩
    simp only [firstLaunches, Function.update_self, running, if_true, Function.update_idem]

theorem Leads.of_eq {last : Stage} {left : SecretsFiles} (leads : Leads crates secrets pluginId fresh others number source stage target next)
    (files : target = left) (ends : next = last) : Leads crates secrets pluginId fresh others number source stage left last :=
  files ▸ ends ▸ leads

/-- What follows from a root is what `resolve_with` does with it. -/
theorem leads_of_root (root : Bytes) :
    let rest : KeyCall PluginKeys := do
      let cipher ← returnExcept (PluginCipher.fromSubkeyB64 crates pluginId (crates.base64Encode root))
      pinStandaloneKcv secrets ⟨none, none, none, none⟩ (cipher.kcv crates) "standalone"
      return PluginKeys.sealing cipher .standalone
    Leads crates secrets pluginId fresh others number source (.readKcv root) (outcome rest source).2
      (Stage.ended (outcome rest source).1) := by
  intro rest
  have went := @Leads.go crates secrets pluginId fresh others number source (.readKcv root) rfl 0
  change Leads _ _ _ _ _ _ _ _ source (readKcvStage crates secrets pluginId source root) at went
  cases decoded : PluginCipher.fromSubkeyB64 crates pluginId (crates.base64Encode root) with
  | error error =>
    have failed : rest source = .error error source := bind_eq_of_error (by rw [decoded]; rfl)
    rw [outcome_error_iff.mpr failed]
    rw [readKcvStage, decoded] at went
    exact went
  | ok cipher =>
    have goes : rest source = (pinStandaloneKcv secrets ⟨none, none, none, none⟩ (cipher.kcv crates) "standalone" >>= fun _ =>
        pure (PluginKeys.sealing cipher .standalone)) source := bind_eq_of_ok (by rw [decoded]; rfl)
    have reads := @ends_readStandaloneKcv source (secrets ++ "/" ++ STANDALONE_KCV_FILE)
    rw [readKcvStage, decoded] at went
    simp only at went
    cases read : readStandaloneKcv (secrets ++ "/" ++ STANDALONE_KCV_FILE) source with
    | error error middle =>
      obtain rfl : middle = source := reads.of_error read
      rw [outcome_error_iff.mpr read] at went
      have failed : rest middle = .error error middle := goes.trans (bind_eq_of_error (bind_eq_of_error read))
      rw [outcome_error_iff.mpr failed]
      exact went
    | ok found middle =>
      obtain ⟨rfl, -⟩ := reads.of_ok read
      rw [outcome_ok_iff.mpr read] at went
      cases found with
      | none =>
        have pinned : rest middle = .ok (.sealing cipher .standalone)
            { middle with pin := some (.json (pinBody (cipher.kcv crates) "standalone")) } :=
          goes.trans (bind_eq_of_ok (bind_eq_of_ok read))
        rw [outcome_ok_iff.mpr pinned]
        exact went.trans (Leads.go rfl 0)
      | some recorded =>
        simp only at went
        by_cases other : recorded ≠ cipher.kcv crates
        · rw [if_pos other] at went
          have failed := goes.trans (bind_eq_of_error ((bind_eq_of_ok read).trans (failIf_error_iff.mpr ⟨other, rfl, rfl⟩)))
          rw [outcome_error_iff.mpr failed]
          exact went
        · rw [if_neg other] at went
          have checked : pinStandaloneKcv secrets ⟨none, none, none, none⟩ (cipher.kcv crates) "standalone" middle =
              .ok () middle := (bind_eq_of_ok read).trans (failIf_ok_iff.mpr ⟨other, rfl⟩)
          have pinned : rest middle = .ok (.sealing cipher .standalone) middle := goes.trans (bind_eq_of_ok checked)
          rw [outcome_ok_iff.mpr pinned]
          exact went

/-- A launch that finds no root creates one and goes on with it. -/
theorem leads_of_rootless (free : source.root = none) (unpinned : source.pin = none) :
    Leads crates secrets pluginId fresh others number source .readRoot
      { source with root := some (rootText crates (fresh number)) } (.readKcv (fresh number)) := by
  obtain ⟨root, pin⟩ := source
  obtain rfl : root = none := free
  obtain rfl : pin = none := unpinned
  have opened : Leads crates secrets pluginId fresh others number ⟨none, none⟩ .readRoot ⟨some [], none⟩
      (.writeRoot (rootText crates (fresh number))) :=
    ((Leads.go rfl 0).trans (Leads.go rfl 0)).trans (Leads.go rfl 0)
  have written : Leads crates secrets pluginId fresh others number ⟨none, none⟩ .readRoot
      ⟨some (rootText crates (fresh number)), none⟩ (.writeRoot []) := by
    by_cases empty : rootText crates (fresh number) = []
    · rw [empty] at opened ⊢
      exact opened
    · have went := @Leads.go crates secrets pluginId fresh others number ⟨some [], none⟩
        (.writeRoot (rootText crates (fresh number))) rfl (rootText crates (fresh number)).length
      rw [goStage, if_neg empty, List.drop_of_length_le (by omega), List.take_of_length_le (by omega)] at went
      exact opened.trans went
  exact written.trans (Leads.go rfl 0)

/-- A launch on its own is `resolve_with` without faults. -/
theorem leads_of_resolveWith (alone : launch.Standalone pluginId) (fair : launch.Fair) (own : launch.fresh = fresh number) :
    Leads crates secrets pluginId fresh others number source .readRoot (outcome (resolveWith crates secrets launch) source).2
      (Stage.ended (outcome (resolveWith crates secrets launch) source).1) := by
  have unfolded : resolveWith crates secrets launch source = (do
      let root ← loadOrCreateStandaloneRoot crates secrets launch
      let cipher ← returnExcept (PluginCipher.fromSubkeyB64 crates pluginId (crates.base64Encode root))
      pinStandaloneKcv secrets ⟨none, none, none, none⟩ (cipher.kcv crates) "standalone"
      return PluginKeys.sealing cipher .standalone : KeyCall PluginKeys) source := by
    rw [resolveWith, alone.delivered, alone.hasMaster, alone.underCore, alone.pluginId, fair]
    rfl
  have unfolds : outcome (resolveWith crates secrets launch) source = outcome (loadOrCreateStandaloneRoot crates secrets launch >>=
      fun root => (do
        let cipher ← returnExcept (PluginCipher.fromSubkeyB64 crates pluginId (crates.base64Encode root))
        pinStandaloneKcv secrets ⟨none, none, none, none⟩ (cipher.kcv crates) "standalone"
        return PluginKeys.sealing cipher .standalone : KeyCall PluginKeys)) source := by
    rw [outcome, unfolded]
    rfl
  have follows {root : Bytes} {middle : SecretsFiles}
      (loaded : loadOrCreateStandaloneRoot crates secrets launch source = .ok root middle)
      (leads : Leads crates secrets pluginId fresh others number source .readRoot middle (.readKcv root)) :
      Leads crates secrets pluginId fresh others number source .readRoot (outcome (resolveWith crates secrets launch) source).2
        (Stage.ended (outcome (resolveWith crates secrets launch) source).1) := by
    rw [unfolds, outcome, bind_eq_of_ok loaded]
    exact leads.trans (leads_of_root root)
  have refused {error : String} (failed : loadOrCreateStandaloneRoot crates secrets launch source = .error error source)
      (leads : Leads crates secrets pluginId fresh others number source .readRoot source (.failed error)) :
      Leads crates secrets pluginId fresh others number source .readRoot (outcome (resolveWith crates secrets launch) source).2
        (Stage.ended (outcome (resolveWith crates secrets launch) source).1) := by
    rw [unfolds, outcome_error_iff.mpr (bind_eq_of_error failed)]
    exact leads
  have went := @Leads.go crates secrets pluginId fresh others number source .readRoot rfl 0
  cases root : source.root with
  | none =>
    cases pin : source.pin with
    | none =>
      have loaded := @loadOrCreate_of_rootless crates secrets launch source fair root pin
      rw [own] at loaded
      exact follows loaded (leads_of_rootless root pin)
    | some file =>
      have got : (get : KeyCall SecretsFiles) source = .ok source source := rfl
      have failed : loadOrCreateStandaloneRoot crates secrets launch source =
          .error (s!"this app's standalone data was sealed under {MASTER_KEY_ENV}; set it again " ++
            "instead of generating a new key") source := by
        rw [loadOrCreateStandaloneRoot]
        refine (bind_eq_of_ok got).trans ?_
        rw [root]
        exact (bind_eq_of_ok got).trans (bind_eq_of_error (failIf_error_iff.mpr ⟨by rw [pin]; rfl, rfl, rfl⟩))
      have checked := @Leads.go crates secrets pluginId fresh others number source .checkPin rfl 0
      rw [goStage, if_pos (by rw [pin]; rfl)] at checked
      rw [goStage, root] at went
      exact refused failed (went.trans checked)
  | some bytes =>
    have loads := @loadOrCreate_of_root crates secrets launch source bytes root
    rw [goStage, root] at went
    simp only at went
    cases read : decodeRoot crates (secrets ++ "/" ++ STANDALONE_ROOT_FILE) bytes source with
    | ok raw target =>
      obtain ⟨rfl, -⟩ := decodeRoot_ok_iff.mp read
      rw [outcome_ok_iff.mpr read] at went
      exact follows (loads.trans read) went
    | error error target =>
      obtain rfl := (readOnly_decodeRoot _ _).of_error read
      rw [outcome_error_iff.mpr read] at went
      exact refused (loads.trans read) went

end Alone
/-- Launches on an empty data directory, in any order of their file operations, failures and crashes: those that return
agree with each other and with every later launch, and where no launch is at its root file, the next one succeeds exactly
if none was stopped with less than the whole key in that file. -/
theorem first_launches_recover {crates : Crates} (base64 : crates.WritesBase64) (padded : crates.Padded)
    (checks : ∀ root, keyCheckValue crates root ≠ "") (secrets pluginId : String)
    (fresh : ℕ → { root : Bytes // root.length = KEY_LEN }) (events : List (ℕ × LaunchAction)) (state : Launches)
    (path : (firstLaunches crates secrets pluginId fresh).Path .start events state) :
    (∀ first keys, state.stage first = .returned keys →
      (∀ second others, state.stage second = .returned others → others = keys) ∧
      ∀ launch others target, launch.Standalone pluginId →
        resolveWith crates secrets launch state.files = .ok others target → others = keys) ∧
    ((∀ number, (state.stage number).isWriting = false) → ∀ launch, launch.Standalone pluginId → launch.Fair →
      ((∃ keys target, resolveWith crates secrets launch state.files = .ok keys target) ↔ trim pluginId ≠ "" ∧
        ((firstLaunches crates secrets pluginId fresh).guard fun state label => cutsShort state label = false).Path
          .start events state)) := by
  obtain ⟨sound, cut⟩ := sound_of_path base64 padded path
  constructor
  · intro first keys returned
    exact keys_agree base64 padded sound returned
  · intro quiet launch alone fair
    rw [resolves_iff base64 padded checks sound quiet alone fair, cut, not_not]

namespace Sample

def fresh (_ : ℕ) : { root : Bytes // root.length = KEY_LEN } :=
  ⟨List.replicate KEY_LEN 7, List.length_replicate⟩

/-- The first launch creates the root, writes four bytes of it and crashes. -/
def crashing : List (ℕ × LaunchAction) := [(0, .go 0), (0, .go 0), (0, .go 0), (0, .go 3), (0, .crash 4)]

/-- The first launch crashes between the root and the pin, after another one has overtaken it and failed. -/
def overtaken : List (ℕ × LaunchAction) :=
  [(0, .go 0), (0, .go 0), (1, .go 0), (0, .go 0), (0, .go 20), (1, .go 0), (1, .go 0), (0, .go 44), (0, .go 0), (0, .crash 0)]

theorem standard_padded : standard.Padded := by
  intro text raw decoded
  obtain ⟨length, known⟩ := Base64.encoded_of_decode decoded
  rw [← length, ← utf8ByteSize_of_ascii fun c member => (of_mem_alphabet (known c member)).2.2, String.ofList_toList]

theorem standard_checks (root : Bytes) : keyCheckValue standard root ≠ "" := by
  intro empty
  have chars := congrArg String.toList empty
  rw [keyCheckValue] at chars
  change (String.ofList _).toList = [] at chars
  rw [String.toList_ofList] at chars
  cases chars

end Sample

/-- A first launch that crashes inside the write of its root leaves a directory that every later launch refuses. -/
theorem not_first_launches_recover_prefix :
    ∃ state, (firstLaunches Sample.standard "secrets" "mail" Sample.fresh).Path .start Sample.crashing state ∧
      (∀ number, (state.stage number).isWriting = false) ∧ ∀ launch, launch.Standalone "mail" → launch.Fair →
        ¬ ∃ keys target, resolveWith Sample.standard "secrets" launch state.files = .ok keys target := by
  obtain ⟨state, path, crashed, root⟩ : ∃ state,
      (firstLaunches Sample.standard "secrets" "mail" Sample.fresh).Path .start Sample.crashing state ∧
        state.stage 0 = .crashed ∧ state.files.root = some (utf8 "BwcH") :=
    ⟨_, rfl, rfl, by decide +kernel⟩
  have quiet (number : ℕ) : (state.stage number).isWriting = false := by
    by_cases first : number = 0
    · rw [first, crashed]
      rfl
    · rw [stage_of_absent path fun event member => ?_]
      · rfl
      · simp only [Sample.crashing, List.mem_cons, List.not_mem_nil, or_false] at member
        rcases member with rfl | rfl | rfl | rfl | rfl <;> exact Ne.symm first
  refine ⟨state, path, quiet, fun launch alone fair resolved => ?_⟩
  have sound := (sound_of_path Sample.writesBase64 Sample.standard_padded path).1
  have fine := (resolves_iff Sample.writesBase64 Sample.standard_padded Sample.standard_checks sound quiet alone fair).mp resolved
  exact fine.2 ⟨⟨_, root, by decide⟩, quiet⟩

/-- A launch after one that crashed between the root and the pin. -/
theorem first_launches_recover_overtaken : ∃ state,
    (firstLaunches Sample.standard "secrets" "mail" Sample.fresh).Path .start Sample.overtaken state ∧
      ∃ keys target, resolveWith Sample.standard "secrets" Sample.standalone state.files = .ok keys target := by
  obtain ⟨state, path, crashed, failed, guarded⟩ : ∃ state,
      (firstLaunches Sample.standard "secrets" "mail" Sample.fresh).Path .start Sample.overtaken state ∧
        state.stage 0 = .crashed ∧ (state.stage 1).isWriting = false ∧
        ((firstLaunches Sample.standard "secrets" "mail" Sample.fresh).guard fun state label =>
          cutsShort state label = false).Path .start Sample.overtaken state :=
    ⟨_, rfl, rfl, rfl, rfl⟩
  have quiet (number : ℕ) : (state.stage number).isWriting = false := by
    by_cases first : number = 0
    · rw [first, crashed]
      rfl
    · by_cases second : number = 1
      · rw [second, failed]
      · rw [stage_of_absent path fun event member => ?_]
        · rfl
        · simp only [Sample.overtaken, List.mem_cons, List.not_mem_nil, or_false] at member
          rcases member with rfl | rfl | rfl | rfl | rfl | rfl | rfl | rfl | rfl | rfl
          all_goals first | exact Ne.symm first | exact Ne.symm second
  obtain ⟨-, recovers⟩ := first_launches_recover Sample.writesBase64 Sample.standard_padded Sample.standard_checks "secrets" "mail"
    Sample.fresh Sample.overtaken state path
  exact ⟨state, path, (recovers quiet Sample.standalone ⟨rfl, rfl, rfl, rfl⟩ rfl).mpr ⟨by decide, guarded⟩⟩

end RyuRooms.Crypto
