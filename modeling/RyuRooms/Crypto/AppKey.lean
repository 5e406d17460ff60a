import RyuRooms.Crypto.Custody
import RyuRooms.Crypto.CustodyObserved
import RyuRooms.Model.AppKey

/-! # The keys of an app over the life of a data folder

Apps ask for the keys of their slots, each under a host of its own; any call of the keychain or of a file may fail, and
a process may be killed at any of them. A key that a slot has is never lost to it, and an app that meets no failure is
given every key that its slot ever gave, to open what was sealed with it. While the keychain cannot be read, no key is
made for a slot that was used.
-/

namespace RyuRooms.Custody

open Foundation Crypto

/-- What an app leaves of a folder: the keys of its slot, with one that it may have made, and all that others use. -/
structure Serves (mint : MasterKey → Prop) (slot : AppSlot) (source target : Folder) : Prop where
  has : ∀ key, source.Has slot.account slot.paths key → target.Has slot.account slot.paths key
  minted : ∀ key, target.Has slot.account slot.paths key → source.Has slot.account slot.paths key ∨ mint key
  keychain : ∀ account, account ≠ slot.account → target.keychain account = source.keychain account
  files : ∀ file, file ≠ slot.file → target.files file = source.files file
  used : ∀ name, source.slots name ≠ .missing → target.slots name ≠ .missing

/-- The keychain cannot be read. -/
def Away (access : Access) (inputs : AppInputs) : Prop :=
  inputs.keychainEnabled = false ∨ ∀ n, access.reaches n = false

/-- The key that an app may make, of a slot that is not known to be used or where the keychain can be read. -/
def AppMints (access : Access) (inputs : AppInputs) (folder : Folder) (key : MasterKey) : Prop :=
  key = inputs.fresh ∧ ¬ (folder.slots inputs.slot ≠ .missing ∧ Away access inputs)

/-- No read fails, and the keychain is enabled, answers and keeps what it is to store. -/
structure Flawless (access : Access) (inputs : AppInputs) : Prop where
  reads : access.Reads
  enabled : inputs.keychainEnabled = true
  reaches : ∀ n, access.reaches n = true
  keeps : ∀ n, access.stores n = .keeps

/-- What a resolution that succeeds gives. -/
structure Given (access : Access) (inputs : AppInputs) (source target : Folder) (app : AppKey) : Prop where
  own : inputs.envValue = none → ∀ key ∈ app.key :: app.retired, target.Has inputs.slot.account inputs.slot.paths key
  opens : inputs.envValue = none → inputs.allowFile = true → Flawless access inputs →
    ∀ key, source.Has inputs.slot.account inputs.slot.paths key → key ∈ app.key :: app.retired

/-- The slot of an app, as the ladder is given it. -/
def AppInputs.ladderSlot (access : Access) (inputs : AppInputs) (folder : Folder) : Slot :=
  ⟨inputs.slot.account, inputs.keychainEnabled, inputs.slot.paths, inputs.fresh,
    ¬ (folder.slots inputs.slot ≠ .missing ∧ Away access inputs)⟩

section Serves

variable {mint : MasterKey → Prop} {slot other : AppSlot} {access : Access} {inputs : AppInputs}
  {folder source middle target : Folder} {key : MasterKey}

theorem Serves.refl (slot : AppSlot) (source : Folder) : Serves mint slot source source :=
  ⟨fun _ => id, fun _ => Or.inl, fun _ _ => rfl, fun _ _ => rfl, fun _ => id⟩

theorem Serves.trans (left : Serves mint slot source middle) (right : Serves mint slot middle target) :
    Serves mint slot source target where
  has key held := right.has key (left.has key held)
  minted key held := (right.minted key held).elim (left.minted key) Or.inr
  keychain account apart := (right.keychain account apart).trans (left.keychain account apart)
  files file apart := (right.files file apart).trans (left.files file apart)
  used name used := right.used name (left.used name used)

theorem Climbs.serves (climbs : Climbs (inputs.ladderSlot access folder) source target) :
    Serves (AppMints access inputs folder) inputs.slot source target where
  has := climbs.has
  minted := climbs.minted
  keychain account apart := climbs.keychain account (Or.inl apart)
  files file apart := climbs.files file apart apart
  used name := by rw [climbs.slots]; exact id

theorem Serves.withSlot (serves : Serves mint slot source target) (record : AppKcvRecord) :
    Serves mint slot source (target.withSlot slot record) where
  has := serves.has
  minted := serves.minted
  keychain := serves.keychain
  files := serves.files
  used name used := by
    by_cases same : name = slot.val
    · simp [Folder.withSlot, same]
    · simpa [Folder.withSlot, same] using serves.used name used

/-- The keys of other slots are as they were. -/
theorem Serves.has_iff (serves : Serves mint slot source target) (apart : other ≠ slot) :
    target.Has other.account other.paths key ↔ source.Has other.account other.paths key := by
  have file : target.files other.file = source.files other.file := serves.files _ (AppSlot.file_ne apart)
  rw [Folder.Has, serves.keychain _ (AppSlot.account_ne apart), AppSlot.paths, file, Folder.Has]

/-- No slot loses a key to an app. -/
theorem Serves.stays (serves : Serves mint slot source target) (has : source.Has other.account other.paths key) :
    target.Has other.account other.paths key := by
  by_cases same : other = slot
  · subst same
    exact serves.has key has
  · exact (serves.has_iff same).mpr has

end Serves

section Resolution

variable {mint : MasterKey → Prop} {crates : Crates} {access : Access} {inputs : AppInputs} {folder : Folder}
  {recorded : Except String (Option String)} {ladderKey key : MasterKey} {source : MasterKeySource}

theorem mem_appCandidates {others : List MasterKey} :
    key ∈ appCandidates ladderKey others ↔ key = ladderKey ∨ key ∈ others := by
  have added (candidates : List MasterKey) :
      key ∈ others.foldl (fun candidates key => if candidates.contains key then candidates else candidates ++ [key])
        candidates ↔ key ∈ candidates ∨ key ∈ others := by
    induction others generalizing candidates with
    | nil => simp
    | cons other others ih =>
      rw [List.foldl_cons, ih]
      split
      · next before =>
        have known (same : key = other) : key ∈ candidates := same ▸ List.contains_iff_mem.mp before
        rw [List.mem_cons]
        exact ⟨Or.imp_right Or.inr, fun held => held.elim Or.inl fun more => more.imp_left known⟩
      · simp [or_assoc]
  rw [appCandidates, added, List.mem_singleton]

theorem Work.answered_of_held {work : Work} (held : work.held = some key) : .key key ∈ work.answers := by
  obtain ⟨state, member, answered⟩ := List.mem_filterMap.mp (List.mem_of_mem_head? held)
  cases state with
  | key found => exact Option.some.inj answered ▸ member
  | empty | corrupt | unavailable => cases answered

/-- A record that is there is told of, or why it cannot be read. -/
theorem on_readAppKcv :
    On folder (fun recorded target => target = folder ∧ (folder.slots inputs.slot ≠ .missing → recorded ≠ .ok none))
      (fun _ target => target = folder) (readAppKcv access inputs) := by
  have read : On folder (fun result target => target = folder ∧
        (folder.slots inputs.slot ≠ .missing → result ≠ .ok none))
      (fun _ target => target = folder)
      (attempt (readJson access s!"{inputs.slot.val}.kcv.json" (·.slots inputs.slot))) := by
    refine (on_readJson _ _).attempt ?_ (fun _ _ _ held => ⟨held.1, fun _ => by simp⟩) fun _ held => held.1
    rintro _ folder ⟨rfl, legible, rfl⟩
    refine ⟨rfl, fun used => ?_⟩
    cases held : folder.slots inputs.slot with
    | missing => exact absurd held used
    | malformed => exact absurd held legible
    | json record => simp [Document.value?]
  refine read.bind ?_
  rintro result _ ⟨rfl, told⟩
  cases result with
  | ok record => exact On.pure ⟨rfl, fun used => by simpa using told used⟩
  | error error => exact On.pure ⟨rfl, fun _ => by simp⟩

theorem on_writeAppKcv (kcv : String) :
    On folder (fun _ target => Serves mint inputs.slot folder target)
      (fun _ target => Serves mint inputs.slot folder target)
      (writeAppKcv access inputs kcv source) := by
  have refl : Serves mint inputs.slot folder folder := Serves.refl inputs.slot folder
  have write : On folder (fun _ target => Serves mint inputs.slot folder target)
      (fun _ target => Serves mint inputs.slot folder target)
      (attempt (writeJson access s!"{inputs.slot.val}.kcv.json" (·.withSlot inputs.slot ⟨1, kcv, source.asStr⟩))) :=
    (on_writeJson _ _).attempt (fun _ _ same => same ▸ refl.withSlot _)
      (fun _ target _ (same : target = folder) => same ▸ refl)
      fun target (same : target = folder) => same ▸ refl
  refine write.bind fun result target serves => ?_
  cases result with
  | ok _ => exact On.pure serves
  | error error => exact On.pure serves

/-- A keychain that cannot be read does not answer. -/
theorem Answers.of_away {state : KeychainState} (answered : Answers access folder state inputs.keychain)
    (away : Away access inputs) : state = .unavailable := by
  rw [AppInputs.keychain] at answered
  split at answered
  · next enabled => exact answered.of_silent (away.resolve_left (by simp [enabled]))
  · exact answered

theorem silent_readAppKcv : Silent (readAppKcv access inputs) := by
  refine silent_readJson.attempt.bind fun result => ?_
  cases result with
  | ok record => exact Silent.pure _
  | error error => exact Silent.pure _

theorem silent_appEvidence : Silent (appEvidence inputs recorded) := by
  refine Silent.get fun work => Silent.ite ?_ (Silent.pure _)
  rcases recorded with error | _ | kcv <;> exact Silent.pure _

/-- The key is one at hand. -/
theorem on_pinnedKey {recordedKcv : Option String} {candidates : List MasterKey} (first : ladderKey ∈ candidates) :
    On folder (fun key target => target = folder ∧ key ∈ candidates) (fun _ target => target = folder)
      (pinnedKey crates recordedKcv candidates ladderKey source) := by
  cases recordedKcv with
  | none => exact On.pure ⟨rfl, first⟩
  | some kcv =>
    refine On.ite (fun _ => On.pure ⟨rfl, first⟩) fun _ => ?_
    cases found : candidates.find? fun candidate => kcvHex crates candidate = kcv with
    | some pinned => exact On.pure ⟨rfl, List.mem_of_find?_eq_some found⟩
    | none => exact on_folder fun work _ => On.failIf_bind (fun _ => rfl) fun _ => On.pure ⟨rfl, first⟩

theorem on_trivial {α : Type} {action : CustodyM α} : On folder (fun _ _ => True) (fun _ _ => True) action := by
  intro work _
  rw [Ends]
  split <;> trivial

/-- Where nothing fails, the ladder gives a key of the keychain. -/
theorem on_ladder_flawless {evidence : CustodyM (Option String)} :
    On folder (fun result _ => inputs.envValue = none → Flawless access inputs → result.2 = .keychain) (fun _ _ => True)
      (loadMasterKeyGuarded crates access inputs.envValue inputs.keychain inputs.slot.paths inputs.allowFile evidence
        inputs.fresh) := by
  by_cases well : inputs.envValue = none ∧ Flawless access inputs
  swap
  · exact on_trivial.imp fun _ _ _ unset flawless => absurd ⟨unset, flawless⟩ well
  obtain ⟨unset, flawless⟩ := well
  have port : inputs.keychain = some inputs.slot.account := if_pos flawless.enabled
  rw [unset, port]
  refine on_trivial.bind fun legacy middle _ => ?_
  refine (on_keychainGet _).andThen (fun _ _ _ => trivial) ?_
  rintro state folder ⟨rfl, answered⟩
  have answer := answered.of_reaches flawless.reaches
  cases state with
  | corrupt => exact On.throw trivial
  | unavailable => cases held : folder.keychain inputs.slot.account <;> simp [held, Held.state] at answer
  | key key => exact on_trivial.bind fun _ _ _ => On.pure fun _ _ => rfl
  | empty =>
    refine on_trivial.bind fun fileKey middle _ => on_trivial.bind fun key middle _ => ?_
    refine (on_keychainStore _ key).andThen (fun _ _ _ => trivial) fun said target stored => ?_
    obtain ⟨rfl, -⟩ := stored.of_keeps flawless.keeps
    refine on_trivial.bind fun state middle _ => ?_
    cases state with
    | corrupt | empty | unavailable => exact On.throw trivial
    | key persisted =>
      refine On.failIf_bind (fun _ => trivial) fun _ => ?_
      exact on_trivial.bind fun _ _ _ => On.pure fun _ _ => rfl

/-- A key at hand is given and recorded, and the others are given along. -/
theorem on_pinned {recordedKcv : Option String} {candidates : List MasterKey} (first : ladderKey ∈ candidates) :
    On folder (fun app target => Serves mint inputs.slot folder target ∧
        ∀ key, key ∈ app.key :: app.retired ↔ key ∈ candidates)
      (fun _ target => Serves mint inputs.slot folder target) (do
        let key ← pinnedKey crates recordedKcv candidates ladderKey source
        if recordedKcv ≠ some (kcvHex crates key) then
          writeAppKcv access inputs (kcvHex crates key) source
        return (⟨key, candidates.filter (· ≠ key)⟩ : AppKey)) := by
  have refl : Serves mint inputs.slot folder folder := Serves.refl inputs.slot folder
  refine (on_pinnedKey first).andThen (fun _ _ same => same ▸ refl) ?_
  rintro key folder ⟨rfl, member⟩
  have all (other : MasterKey) : other ∈ key :: candidates.filter (· ≠ key) ↔ other ∈ candidates := by
    by_cases same : other = key
    · simp [same, member]
    · simp [same]
  refine On.ite (fun _ => ?_) fun _ => On.pure ⟨refl, all⟩
  exact (on_writeAppKcv _).bind fun _ target serves => On.pure ⟨serves, all⟩

/-- What is read of the key file besides. -/
theorem on_fileKey :
    On folder (fun found target => target = folder ∧ (∀ key ∈ found, folder.files inputs.slot.file = .key key) ∧
        (inputs.allowFile = true → access.Reads → found = (folder.files inputs.slot.file).key?))
      (fun _ target => target = folder)
      (if inputs.allowFile = true then orNothing (readKeyFile access inputs.slot.file) else pure none) := by
  refine On.ite (fun _ => ?_) fun off => On.pure ⟨rfl, by simp, fun on => absurd on off⟩
  exact (on_orNothing_readKeyFile _).mono (fun _ _ held => ⟨held.1, held.2.1, fun _ => held.2.2⟩) fun _ _ held => held.1

/-- The fallback makes no key where its evidence is that there was one. -/
theorem ends_fileFallback {slot : Slot} {evidence : CustodyM (Option String)} {legacy : Option MasterKey}
    {allowFile : Bool} {work : Work} (has : ∀ key ∈ legacy, work.folder.files slot.paths.legacyMemory = .key key)
    (refuses : ∀ last : Work, last.answers = work.answers →
      Ends (fun found target => target = last ∧ found ≠ none) (fun _ target => target = last) evidence last) :
    Ends (fun result target => Climbs slot work.folder target.folder ∧ Placed slot target.folder result.1 result.2)
      (fun _ target => Climbs slot work.folder target.folder)
      (fileFallback access slot.paths allowFile legacy evidence slot.fresh) work := by
  refine Ends.failIf_bind (fun _ => Climbs.refl slot _) fun _ => ?_
  have read : Ends _ _ (readKeyFile access slot.paths.master) work :=
    (on_readKeyFile _ work rfl).and (silent_readKeyFile work)
  refine (read.mono (fun _ _ held => held) fun _ _ held => held.1.1 ▸ Climbs.refl slot _).bind ?_
  rintro found middle ⟨⟨kept, isFound⟩, quiet⟩
  rw [← kept] at has isFound ⊢
  cases held : middle.folder.files slot.paths.master with
  | key key =>
    rw [held] at isFound
    subst isFound
    exact ⟨Climbs.refl slot _, held⟩
  | nothing | malformed =>
    rw [held] at isFound
    subst isFound
    cases legacy with
    | some key =>
      have own : slot.Own middle.folder key := Or.inl (Or.inr (Or.inr (has key rfl)))
      exact on_writeMaster own middle rfl
    | none =>
      have refused (refusal : String → String) : Ends (fun _ _ => False) (fun _ target => target = middle)
          (existingOrFresh none evidence refusal slot.fresh) middle := by
        refine (refuses middle quiet).bind ?_
        rintro found last ⟨rfl, some⟩
        cases found with
        | none => exact absurd rfl some
        | some reason => exact Eq.refl last
      refine ((refused _).mono (fun _ _ held => held) fun _ _ same => same ▸ Climbs.refl slot _).bind ?_
      exact fun _ _ => False.elim

/-- A record of the slot is evidence where the keychain was not there. -/
theorem ends_appEvidence {work : Work} (unavailable : work.unavailable = true) (told : recorded ≠ .ok none) :
    Ends (fun found target => target = work ∧ found ≠ none) (fun _ target => target = work)
      (appEvidence inputs recorded) work := by
  refine Ends.get_bind ?_
  rw [if_pos unavailable]
  rcases recorded with error | _ | kcv
  · exact ⟨rfl, by simp⟩
  · exact absurd rfl told
  · exact ⟨rfl, by simp⟩

/-- Where the keychain cannot be read, no key is made for a slot that is known to be used. -/
theorem ends_ladder {work : Work} (unasked : work.answers = [])
    (informed : work.folder.slots inputs.slot ≠ .missing → recorded ≠ .ok none) :
    Ends (fun result target => Climbs (inputs.ladderSlot access work.folder) work.folder target.folder ∧
        (result.2 = .env ∧ inputs.envValue.bind (decodeMaster crates) = some result.1 ∨ inputs.envValue = none ∧
          Placed (inputs.ladderSlot access work.folder) target.folder result.1 result.2))
      (fun _ target => Climbs (inputs.ladderSlot access work.folder) work.folder target.folder)
      (loadMasterKeyGuarded crates access inputs.envValue inputs.keychain inputs.slot.paths inputs.allowFile
        (appEvidence inputs recorded) inputs.fresh) work := by
  have own (account : Account) (member : account ∈ inputs.keychain) :
      account = (inputs.ladderSlot access work.folder).account ∧
        (inputs.ladderSlot access work.folder).enabled = true := by
    rw [AppInputs.keychain] at member
    split at member
    · next enabled => exact ⟨(Option.some.inj member).symm, enabled⟩
    · cases member
  by_cases free : work.folder.slots inputs.slot ≠ .missing ∧ Away access inputs
  swap
  · have examines : Examines (inputs.ladderSlot access work.folder) work.folder (appEvidence inputs recorded) := by
      refine on_folder fun work same => On.ite (fun _ => ?_) fun _ => On.pure ⟨rfl, fun _ => free⟩
      rcases recorded with error | _ | kcv <;> exact On.pure ⟨rfl, fun _ => free⟩
    exact on_loadMasterKeyGuarded own examines work rfl
  obtain ⟨used, away⟩ := free
  cases env : inputs.envValue with
  | some encoded =>
    have examines : Examines (inputs.ladderSlot access work.folder) work.folder (throw .killed) := On.throw rfl
    -- A key of the environment is taken without a look at the evidence.
    have ladder : On work.folder _ _ (loadMasterKeyGuarded crates access (some encoded) inputs.keychain
        (inputs.ladderSlot access work.folder).paths inputs.allowFile (throw .killed)
        (inputs.ladderSlot access work.folder).fresh) := on_loadMasterKeyGuarded own examines
    exact ladder work rfl
  | none =>
    have read : Ends _ _ (readKeyFile access inputs.slot.file) work :=
      (on_readKeyFile _ work rfl).and (silent_readKeyFile work)
    refine (read.mono (fun _ _ held => held) fun _ _ held => held.1.1 ▸ Climbs.refl _ _).bind ?_
    rintro legacy middle ⟨⟨kept, isLegacy⟩, quiet⟩
    have get : Ends _ _ (keychainGet access inputs.keychain) middle :=
      (on_keychainGet _ middle rfl).and (ends_keychainGet middle)
    refine (get.mono (fun _ _ held => held) fun _ _ held => (held.1.1.trans kept) ▸ Climbs.refl _ _).bind ?_
    rintro state last ⟨⟨stays, answered⟩, seen⟩
    obtain rfl := answered.of_away away
    rw [quiet, unasked] at seen
    have same : last.folder = work.folder := stays.trans kept
    have has (key : MasterKey) (member : key ∈ legacy) :
        last.folder.files (inputs.ladderSlot access work.folder).paths.legacyMemory = .key key := by
      rw [same]
      exact Held.of_key? (isLegacy ▸ member)
    have fallback : Ends _ _ (fileFallback access (inputs.ladderSlot access work.folder).paths inputs.allowFile legacy
        (appEvidence inputs recorded) (inputs.ladderSlot access work.folder).fresh) last :=
      ends_fileFallback has fun work asked =>
        ends_appEvidence (by simp [Work.unavailable, asked, seen]) (informed used)
    rw [same] at fallback
    exact fallback.imp fun _ _ held => ⟨held.1, Or.inr ⟨rfl, held.2⟩⟩

/-- The keys that are given are of the environment or in the slot, and all of the slot's where nothing fails. -/
theorem ends_resolveAppKey :
    Ends (fun app target => Serves (AppMints access inputs folder) inputs.slot folder target.folder ∧
        Given access inputs folder target.folder app)
      (fun _ target => Serves (AppMints access inputs folder) inputs.slot folder target.folder)
      (resolveAppKey crates access inputs) ⟨folder, 0, []⟩ := by
  have read : Ends _ _ (readAppKcv access inputs) ⟨folder, 0, []⟩ := (on_readAppKcv _ rfl).and (silent_readAppKcv _)
  refine (read.mono (fun _ _ held => held) fun _ _ held => held.1 ▸ Serves.refl ..).bind ?_
  rintro recorded work ⟨⟨rfl, informed⟩, unasked⟩
  have ladder : Ends _ _ (loadMasterKeyGuarded crates access inputs.envValue inputs.keychain inputs.slot.paths
      inputs.allowFile (appEvidence inputs recorded) inputs.fresh) work :=
    (ends_ladder unasked informed).and
      ((gives_loadMasterKeyGuarded silent_appEvidence work unasked).and (on_ladder_flawless work rfl))
  refine (ladder.mono (fun _ _ held => held) fun _ _ held => held.1.serves).bind ?_
  rintro ⟨ladderKey, source⟩ middle ⟨⟨climbs, placed⟩, only, keychain⟩
  have file : Ends _ _ (if inputs.allowFile = true then orNothing (readKeyFile access inputs.slot.file) else pure none)
      middle := (on_fileKey middle rfl).and (Silent.ite silent_readKeyFile.orNothing (Silent.pure none) middle)
  refine (file.mono (fun _ _ held => held) fun _ _ held => held.1 ▸ climbs.serves).bind ?_
  rintro fileKey last ⟨⟨same, isFile, whole⟩, quiet⟩
  refine Ends.get_bind ?_
  have first : ladderKey ∈ appCandidates ladderKey
      ((inputs.envValue.bind (decodeMaster crates)).toList ++ last.held.toList ++ fileKey.toList) :=
    mem_appCandidates.mpr (Or.inl rfl)
  refine (on_pinned first last rfl).mono ?_ fun _ target serves => climbs.serves.trans (same ▸ serves)
  rintro app target ⟨serves, all⟩
  rw [same] at serves
  have inSlot (unset : inputs.envValue = none) : middle.folder.Has inputs.slot.account inputs.slot.paths ladderKey := by
    rcases placed with ⟨-, decoded⟩ | ⟨-, there⟩
    · rw [unset] at decoded
      cases decoded
    · cases source with
      | env => exact there.elim
      | keychain => exact Or.inl there
      | file => exact Or.inr (Or.inl there)
  refine ⟨climbs.serves.trans serves, fun unset key given => serves.has key ?_,
    fun unset allowed flawless key has => (all key).mpr ?_⟩
  · rcases mem_appCandidates.mp ((all key).mp given) with equal | member
    · exact equal ▸ inSlot unset
    · simp only [unset, Option.bind_none, Option.toList_none, List.nil_append, List.mem_append,
        Option.mem_toList] at member
      rcases member with answered | read
      · exact only _ (quiet ▸ Work.answered_of_held answered) ▸ inSlot unset
      · exact Or.inr (Or.inl (isFile _ read))
  · obtain rfl : source = .keychain := keychain unset flawless
    have there : middle.folder.keychain inputs.slot.account = .key ladderKey :=
      (placed.resolve_left (by simp)).2
    rcases climbs.has key has with entry | copy | copy
    · exact mem_appCandidates.mpr (Or.inl (Held.key.inj (entry.symm.trans there)))
    all_goals
      have read : fileKey = some key := (whole allowed flawless.reads).trans (congrArg Held.key? copy)
      exact mem_appCandidates.mpr (Or.inr (by simp [read]))

end Resolution

/-- A data folder and the apps that ask for the keys of their slots. -/
def appMachine (crates : Crates) : Machine Folder AppOperation where
  Initial _ := True
  step? folder operation := some (operation.result crates folder).2

section Runs

variable {crates : Crates} {operation launch : AppOperation} {later : List AppOperation}
  {folder middle target next : Folder} {app given : AppKey} {slot : AppSlot} {key : MasterKey}

/-- What a resolution reads of its host. -/
theorem AppHost.inputs_ok {host : AppHost} {inputs : AppInputs} (ready : host.inputs slot = .ok inputs) :
    inputs.slot = slot ∧ inputs.envValue = host.masterKeyEnv ∧ inputs.allowFile = host.allowFileKey := by
  rw [AppHost.inputs] at ready
  split at ready
  · cases ready
  · cases ready
    exact ⟨rfl, rfl, rfl⟩

/-- An operation leaves the folder as it was, or does what a resolution does. -/
theorem app_step_cases (step : (appMachine crates).step? folder operation = some target) :
    target = folder ∨ ∃ inputs, operation.host.inputs operation.slot = .ok inputs ∧
      Serves (AppMints operation.access inputs folder) operation.slot folder target := by
  obtain rfl := Option.some.inj step
  rw [AppOperation.result]
  cases ready : operation.host.inputs operation.slot with
  | error error => exact Or.inl rfl
  | ok inputs =>
    refine Or.inr ⟨inputs, rfl, ?_⟩
    have ends : Ends _ _ (resolveAppKey crates operation.access inputs) ⟨folder, 0, []⟩ := ends_resolveAppKey
    rw [(AppHost.inputs_ok ready).1] at ends
    cases acted : resolveAppKey crates operation.access inputs ⟨folder, 0, []⟩ with
    | ok app work =>
      simp only [acted]
      exact (ends.of_ok acted).1
    | error error work => cases error <;> simp only [acted] <;> exact ends.of_error acted

theorem given_of_result (ended : operation.result crates folder = (.ok app, target)) :
    ∃ inputs, operation.host.inputs operation.slot = .ok inputs ∧ Given operation.access inputs folder target app := by
  rw [AppOperation.result] at ended
  cases ready : operation.host.inputs operation.slot with
  | error error => simp [ready] at ended
  | ok inputs =>
    rw [ready] at ended
    have ends : Ends _ _ (resolveAppKey crates operation.access inputs) ⟨folder, 0, []⟩ := ends_resolveAppKey
    cases acted : resolveAppKey crates operation.access inputs ⟨folder, 0, []⟩ with
    | ok found work =>
      simp only [acted, Prod.mk.injEq, Except.ok.injEq] at ended
      obtain ⟨rfl, rfl⟩ := ended
      exact ⟨inputs, rfl, (ends.of_ok acted).2⟩
    | error error work => cases error <;> simp [acted] at ended

/-- Whatever apps ask for, and however it ends, a slot keeps the keys that it has. -/
theorem slot_stays (path : (appMachine crates).Path folder later target)
    (has : folder.Has slot.account slot.paths key) : target.Has slot.account slot.paths key := by
  refine path.invariant (fun folder => folder.Has slot.account slot.paths key) has ?_
  intro source operation next before step
  rcases app_step_cases step with rfl | ⟨inputs, -, serves⟩
  · exact before
  · exact serves.stays before

namespace Sample

def appHost : AppHost := ⟨none, false, true, true, some [], Sample.key 7⟩

def asking : AppOperation := ⟨appHost, access, DESKTOP⟩

/-- An app that asks while the keychain is away. -/
def refused : AppOperation := ⟨appHost, { access with reaches := fun _ => false }, DESKTOP⟩

/-- The folder after some apps asked. -/
def asked (operations : List AppOperation) : Folder :=
  operations.foldl (fun folder operation => (operation.result Crypto.Sample.standard folder).2) blank

end Sample

/-- A key that a slot gave to an app is given to every app since that is given one and meets no failure. -/
theorem app_key_opens (ended : operation.result crates folder = (.ok given, middle))
    (unset : operation.host.masterKeyEnv = none) (path : (appMachine crates).Path middle later target)
    (launched : launch.result crates target = (.ok app, next)) (same : launch.slot = operation.slot)
    (plain : launch.host.masterKeyEnv = none) (allowed : launch.host.allowFileKey = true)
    (flawless : ∀ inputs, launch.host.inputs launch.slot = .ok inputs → Flawless launch.access inputs) :
    ∀ key ∈ given.key :: given.retired, key ∈ app.key :: app.retired := by
  intro key member
  obtain ⟨inputs, ready, own, -⟩ := given_of_result ended
  obtain ⟨isSlot, isEnv, -⟩ := AppHost.inputs_ok ready
  have has := slot_stays path (isSlot ▸ own (isEnv.trans unset) key member)
  obtain ⟨launchInputs, launchReady, -, opens⟩ := given_of_result launched
  obtain ⟨launchSlot, launchEnv, launchFile⟩ := AppHost.inputs_ok launchReady
  refine opens (launchEnv.trans plain) (launchFile.trans allowed) (flawless _ launchReady) key ?_
  rwa [launchSlot, same]

set_option maxRecDepth 4096 in
theorem app_key_opens_refused :
    ∃ app next, Sample.asking.result Crypto.Sample.standard (Sample.asked [Sample.asking, Sample.refused]) =
      (.ok app, next) ∧ Sample.key 7 ∈ app.key :: app.retired := by
  have ended : Sample.asking.result Crypto.Sample.standard Sample.blank =
      (.ok ⟨Sample.key 7, []⟩, Sample.asked [Sample.asking]) := rfl
  have path : (appMachine Crypto.Sample.standard).Path (Sample.asked [Sample.asking]) [Sample.refused]
      (Sample.asked [Sample.asking, Sample.refused]) := rfl
  have launched : Sample.asking.result Crypto.Sample.standard (Sample.asked [Sample.asking, Sample.refused]) =
      (.ok ⟨Sample.key 7, []⟩, (Sample.asking.result Crypto.Sample.standard
        (Sample.asked [Sample.asking, Sample.refused])).2) := Prod.ext rfl rfl
  have flawless (inputs : AppInputs) (ready : Sample.asking.host.inputs Sample.asking.slot = .ok inputs) :
      Flawless Sample.asking.access inputs := by
    cases ready
    exact ⟨fun _ => rfl, rfl, fun _ => rfl, fun _ => rfl⟩
  exact ⟨_, _, launched, app_key_opens ended rfl path launched rfl rfl rfl flawless _ List.mem_cons_self⟩

/-- The keychain of an operation is disabled, or cannot be read. -/
def AppOperation.Locked (operation : AppOperation) : Prop :=
  ∀ inputs, operation.host.inputs operation.slot = .ok inputs → Away operation.access inputs

/-- While the keychain cannot be read, no key is made for a slot that has a record, whatever the record says. -/
theorem app_key_unforked (path : (appMachine crates).Path folder later target) (used : folder.slots slot ≠ .missing)
    (locked : ∀ operation ∈ later, operation.slot = slot → operation.Locked)
    (has : target.Has slot.account slot.paths key) : folder.Has slot.account slot.paths key := by
  have meets : (appMachine crates).Meets (fun _ operation => operation.slot = slot → operation.Locked) folder later :=
    Machine.Meets.of_forall fun operation member _ => locked operation member
  have stays : target.slots slot ≠ .missing ∧
      (target.Has slot.account slot.paths key → folder.Has slot.account slot.paths key) := by
    refine path.invariant_of_meets (fun middle => middle.slots slot ≠ .missing ∧
      (middle.Has slot.account slot.paths key → folder.Has slot.account slot.paths key)) meets ⟨used, id⟩ ?_
    rintro source operation next ⟨used, old⟩ locked step
    rcases app_step_cases step with rfl | ⟨inputs, ready, serves⟩
    · exact ⟨used, old⟩
    · refine ⟨serves.used slot used, fun has => old ?_⟩
      by_cases own : operation.slot = slot
      · subst own
        refine (serves.minted key has).resolve_right fun made => made.2 ⟨?_, locked rfl inputs ready⟩
        rwa [(AppHost.inputs_ok ready).1]
      · exact (serves.has_iff (Ne.symm own)).mp has
  exact stays.2 has

set_option maxRecDepth 4096 in
theorem app_key_unforked_refused :
    (Sample.asked [Sample.asking]).Has DESKTOP.account DESKTOP.paths (Sample.key 7) := by
  have path : (appMachine Crypto.Sample.standard).Path (Sample.asked [Sample.asking]) [Sample.refused]
      (Sample.asked [Sample.asking, Sample.refused]) := rfl
  have used : (Sample.asked [Sample.asking]).slots DESKTOP ≠ .missing := by
    have record : (Sample.asked [Sample.asking]).slots DESKTOP =
        .json ⟨1, kcvHex Crypto.Sample.standard (Sample.key 7), "keychain"⟩ := rfl
    simp [record]
  have locked (operation : AppOperation) (member : operation ∈ [Sample.refused]) (_ : operation.slot = DESKTOP) :
      operation.Locked := by
    rw [List.mem_singleton.mp member]
    exact fun _ _ => Or.inr fun _ => rfl
  exact app_key_unforked path used locked (Or.inl rfl)

end Runs

end RyuRooms.Custody
