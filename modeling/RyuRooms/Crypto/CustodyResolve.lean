import RyuRooms.Crypto.CustodyLadder

/-! # What resolution does to a folder

Resolution never changes a key that is recorded: it gives a key with the recorded check value or fails. Where none is
recorded it records the key that it gives. It loses no key, a key that is new is a fresh one of an unsealed folder,
and where the keychain answers it gives every retired key along.
-/

namespace RyuRooms.Custody

open Foundation Crypto

/-- Nothing is recorded and no evidence is found that something is sealed. -/
def Unsealed (access : Access) (inputs : CustodyInputs) (folder : Folder) : Prop :=
  folder.record = .missing ∧ inputs.sealedDataEvidence = none ∧ inputs.recordedStore = none ∧
    (folder.entries = [] ∨ ∃ n, access.readFails n = true)

/-- The slot of the master key. -/
def masterSlot (access : Access) (inputs : CustodyInputs) (folder : Folder) : Slot :=
  ⟨.master, inputs.keychainEnabled, defaultKeyPaths, inputs.fresh, Unsealed access inputs folder⟩

/-- The key that resolution may generate. -/
def Mints (access : Access) (inputs : CustodyInputs) (folder : Folder) (key : MasterKey) : Prop :=
  key = inputs.fresh ∧ Unsealed access inputs folder

/-- A key of the environment, or one that the folder holds. -/
def Kept (crates : Crates) (inputs : CustodyInputs) (folder : Folder) (key : MasterKey) : Prop :=
  inputs.envValue.bind (decodeMaster crates) = some key ∨ folder.Holds crates (kcvHex crates key)

/-- No other build has marked the folder as its own, and the mark is legible. -/
def Folder.Readable (folder : Folder) : Prop :=
  folder.format ≠ .malformed ∧ ∀ marker, folder.format = .json marker → marker.minReader ≤ SUPPORTED_MIN_READER

/-- The key that is recorded can be recovered, and the environment has no other. -/
structure Launchable (crates : Crates) (access : Access) (inputs : CustodyInputs) (folder : Folder) (kcv : String) : Prop
    extends Recoverable crates access inputs folder kcv where
  readable : folder.Readable
  env : ∀ key, inputs.envValue.bind (decodeMaster crates) = some key → kcvHex crates key = kcv

/-- What a resolution that succeeds gives. -/
structure Resolved (crates : Crates) (access : Access) (inputs : CustodyInputs) (source target : Folder)
    (resolution : Resolution) : Prop where
  legible : source.record ≠ .malformed
  recorded : ∀ record, source.record = .json record → kcvHex crates resolution.key = record.kcv
  record : target.record = source.record ∧ (source.record = .missing → inputs.recordsKcv = false) ∨
    source.record = .missing ∧ ∃ record, target.record = .json record ∧ record.kcv = kcvHex crates resolution.key
  kept : source.Sound crates → Kept crates inputs target resolution.key
  opens : Answering access inputs source → source.Sound crates → ∀ entry ∈ source.entries,
    ∃ key ∈ resolution.key :: resolution.retired, kcvHex crates key = entry.kcv

variable {crates : Crates} {access : Access} {inputs : CustodyInputs} {folder : Folder} {mint : MasterKey → Prop}
  {source target : Folder} {retiredAll : List (RetiredEntry × MasterKey)} {primary : MasterKey}
  {origin : MasterKeySource}

theorem Climbs.keeps (climbs : Climbs (masterSlot access inputs folder) source target) :
    Keeps crates (Mints access inputs folder) source target where
  index entry member := by rwa [Folder.entries, climbs.retired]
  record := climbs.record
  minted := climbs.minted
  holds _ kcv held := by
    rcases held with ⟨key, has, same⟩ | lists
    · exact Or.inl ⟨key, climbs.has key has, same⟩
    · exact Or.inr (lists.mono fun entry member => by rwa [Folder.entries, climbs.retired])
  sound sound := by
    have files (kcv : String) : target.files (.retired kcv) = source.files (.retired kcv) :=
      climbs.files _ (by simp [masterSlot, defaultKeyPaths]) (by simp [masterSlot, defaultKeyPaths])
    refine ⟨climbs.retired ▸ sound.legible, fun entry member => ?_, fun kcv key held => ?_⟩
    · rw [Folder.entries, climbs.retired] at member
      obtain ⟨key, material, same⟩ := sound.loads entry member
      refine ⟨key, ?_, same⟩
      have apart : Account.retired entry.kcv ≠ (masterSlot access inputs folder).account := by simp [masterSlot]
      rw [← material, Folder.material, Folder.material, climbs.keychain _ (Or.inl apart), files]
    · exact sound.named kcv key (files kcv ▸ held)

/-- What else is written does not matter to the keys. -/
theorem Grows.recording (grows : Grows crates mint source target) (record : KcvRecord) :
    Grows crates mint source { target with record := .json record } where
  index := grows.index
  minted := grows.minted
  holds := grows.holds
  sound sound := ⟨(grows.sound sound).legible, (grows.sound sound).loads, (grows.sound sound).named⟩

theorem Climbs.answering (climbs : Climbs (masterSlot access inputs folder) source target)
    (answers : Answering access inputs source) : Answering access inputs target := by
  refine ⟨answers.reads, answers.keychain.imp_right fun ⟨off, empty⟩ => ⟨off, fun account key => ?_⟩⟩
  rw [climbs.keychain account (Or.inr off)]
  exact empty account key

theorem Grows.kept (grows : Grows crates mint source target) (sound : source.Sound crates) {key : MasterKey}
    (kept : Kept crates inputs source key) : Kept crates inputs target key :=
  kept.imp_right (grows.holds sound _)

theorem on_hostSealedEvidence :
    On folder (fun found target => target = folder ∧ (found = none → inputs.sealedDataEvidence = none ∧
        inputs.recordedStore = none ∧ (folder.entries = [] ∨ ∃ n, access.readFails n = true)))
      (fun _ target => target = folder) (hostSealedEvidence access inputs) := by
  unfold hostSealedEvidence
  cases evidence : inputs.sealedDataEvidence with
  | some reason => exact On.pure ⟨rfl, by simp⟩
  | none =>
    have index : On folder (fun found target => target = folder ∧
          (found.getD [] = [] → folder.entries = [] ∨ ∃ n, access.readFails n = true))
        (fun _ target => target = folder) (orNothing (some <$> readRetiredIndex access)) := by
      have read : On folder (fun found target => target = folder ∧ found = some folder.entries)
          (fun error target => target = folder ∧ Unread access (folder.retired = .malformed) error)
          (some <$> readRetiredIndex access) :=
        On.map (on_readRetiredIndex.imp fun _ _ held => ⟨held.1, congrArg some held.2.2⟩)
      refine read.orNothing ?_ ?_ fun _ held => held.1
      · rintro _ _ ⟨rfl, rfl⟩
        exact ⟨rfl, Or.inl⟩
      · rintro error _ alive ⟨rfl, killed | fails | malformed⟩
        · exact absurd killed alive
        · exact ⟨rfl, fun _ => Or.inr fails⟩
        · exact ⟨rfl, fun _ => Or.inl (by rw [Folder.entries, malformed]; rfl)⟩
    refine index.bind ?_
    rintro found folder ⟨rfl, empty⟩
    refine On.ite (fun _ => On.pure ⟨rfl, by simp⟩) fun none => On.pure ⟨rfl, fun missing => ⟨rfl, ?_, ?_⟩⟩
    · exact Option.map_eq_none_iff.mp missing
    · exact empty (not_not.mp none)

theorem examines_guardEvidence (legible : folder.record ≠ .malformed) :
    Examines (masterSlot access inputs folder) folder (guardEvidence access inputs folder.record.value?) := by
  cases held : folder.record with
  | malformed => exact absurd held legible
  | json record => exact On.pure ⟨rfl, nofun⟩
  | missing => exact on_hostSealedEvidence.imp fun found target known => ⟨known.1, fun none => ⟨held, known.2 none⟩⟩

theorem on_effectiveSource (key : MasterKey) (paths : KeyPaths) :
    On folder (fun _ target => target = folder) (fun error target => target = folder ∧ error = .killed)
      (effectiveSource access origin key paths) := by
  refine On.ite (fun _ => ?_) fun _ => On.pure rfl
  refine (on_orNothing_readKeyFile _).bind ?_
  rintro file folder ⟨rfl, -⟩
  refine On.ite (fun _ => On.pure rfl) fun _ => ?_
  refine (on_orNothing_readKeyFile _).bind ?_
  rintro legacy folder ⟨rfl, -⟩
  exact On.pure rfl

theorem on_retirePrimary :
    On folder (fun _ target => Keeps crates mint folder target)
      (fun error target => Keeps crates mint folder target ∧ error = .killed)
      (retirePrimary crates access inputs primary origin) := by
  have keeps {target : Folder} (retires : Retires crates folder target) : Keeps crates mint folder target :=
    retires.keeps.mono fun _ => False.elim
  have attempted : On folder (fun _ target => Keeps crates mint folder target)
      (fun error target => Keeps crates mint folder target ∧ error = .killed)
      (attempt (retire crates access inputs primary (origin = .keychain))) :=
    (on_retire primary _).attempt (fun _ _ held => keeps held.1) (fun _ _ _ => keeps) fun _ held => ⟨keeps held, rfl⟩
  exact On.ite (fun _ => On.pure (Keeps.refl folder)) fun _ => attempted.bind fun _ _ held => On.pure held

theorem mem_withPrimary {retired : List MasterKey} {key : MasterKey} (member : key ∈ retired) :
    key ∈ withPrimary retired primary := by
  unfold withPrimary
  split
  · exact member
  · exact List.mem_append_left _ member

/-- What was loaded of the retired keys is given along. -/
def GivesAll (retiredAll : List (RetiredEntry × MasterKey)) (resolution : Resolution) : Prop :=
  ∀ key ∈ retiredKeys retiredAll resolution.key, key ∈ resolution.retired

theorem on_resolveRefused {recorded : Option KcvRecord} {error : CustodyError} :
    On folder (fun resolution target => target = folder ∧ GivesAll retiredAll resolution ∧
        Kept crates inputs folder resolution.key ∧
        ∃ record, recorded = some record ∧ kcvHex crates resolution.key = record.kcv)
      (fun error target => target = folder ∧
        ∀ record, recorded = some record → Recoverable crates access inputs folder record.kcv → error = .killed)
      (resolveRefused crates access inputs recorded retiredAll error) := by
  cases recorded with
  | none => exact On.throw ⟨rfl, nofun⟩
  | some record =>
    refine on_candidates.andThen (fun _ _ held => ⟨held.1, fun _ _ _ => held.2⟩) ?_
    rintro seen folder ⟨rfl, surveyed⟩
    cases found : seen.find? (fun candidate => decide (kcvHex crates candidate.2 = record.kcv)) with
    | none =>
      refine On.throw ⟨rfl, ?_⟩
      rintro _ ⟨⟩ recoverable
      obtain ⟨candidate, member, same⟩ := surveyed.finds recoverable
      simpa [same] using List.find?_eq_none.mp found candidate member
    | some candidate =>
      have same : kcvHex crates candidate.2 = record.kcv := by simpa using List.find?_some found
      exact On.pure ⟨rfl, fun _ member => member, surveyed.held _ (List.mem_of_find?_eq_some found), record, rfl, same⟩

theorem on_resolveMismatch (mint : MasterKey → Prop) {record : KcvRecord} :
    On folder (fun resolution target => Keeps crates mint folder target ∧ GivesAll retiredAll resolution ∧
        (folder.Sound crates → Kept crates inputs target resolution.key) ∧ kcvHex crates resolution.key = record.kcv)
      (fun error target => Keeps crates mint folder target ∧
        (Recoverable crates access inputs folder record.kcv → origin ≠ .env → error = .killed))
      (resolveMismatch crates access inputs record retiredAll primary origin) := by
  refine On.failIf_bind (fun env => ⟨Keeps.refl folder, fun _ other => absurd env.1 other⟩) fun _ => ?_
  refine on_candidates.andThen (fun _ _ held => ⟨held.1 ▸ Keeps.refl _, fun _ _ => held.2⟩) ?_
  rintro seen folder ⟨rfl, surveyed⟩
  cases found : seen.find? (fun candidate => decide (kcvHex crates candidate.2 = record.kcv)) with
  | none =>
    refine On.throw ⟨Keeps.refl folder, fun recoverable => ?_⟩
    obtain ⟨candidate, member, same⟩ := surveyed.finds recoverable
    simpa [same] using List.find?_eq_none.mp found candidate member
  | some candidate =>
    have same : kcvHex crates candidate.2 = record.kcv := by simpa using List.find?_some found
    refine on_retirePrimary.andThen (fun _ _ held => ⟨held.1, fun _ _ => held.2⟩) fun _ target keeps => ?_
    refine On.pure ⟨keeps, fun _ => mem_withPrimary, fun sound => ?_, same⟩
    exact keeps.kept sound (surveyed.held _ (List.mem_of_find?_eq_some found))

theorem on_resolveFailed (mint : MasterKey → Prop) :
    On folder (fun resolution target => Grows crates mint folder target ∧ GivesAll retiredAll resolution ∧
        (folder.Sound crates → Kept crates inputs target resolution.key) ∧
        ∃ record, target.record = .json record ∧ record.kcv = kcvHex crates resolution.key)
      (fun _ target => Keeps crates mint folder target)
      (resolveFailed crates access inputs retiredAll primary origin) := by
  refine on_candidates.andThen (fun _ _ held => held.1 ▸ Keeps.refl _) ?_
  rintro seen folder ⟨rfl, surveyed⟩
  cases found : seen.find? (fun candidate =>
      decide (candidate.2 ≠ primary ∧ inputs.probe candidate.2 = .passed)) with
  | none =>
    exact On.throw (Keeps.refl folder)
  | some candidate =>
    refine on_retirePrimary.andThen (fun _ _ held => held.1) fun _ middle keeps => ?_
    refine (on_writeJson _ _).andThen (fun _ _ kept => kept ▸ keeps) ?_
    rintro _ target rfl
    refine On.pure ⟨keeps.recording _, fun _ => mem_withPrimary, fun sound => ?_, _, rfl, rfl⟩
    exact keeps.kept sound (surveyed.held _ (List.mem_of_find?_eq_some found))

theorem opens_of_givesAll {resolution : Resolution} (gives : GivesAll retiredAll resolution) {entry : RetiredEntry}
    {key : MasterKey} (loaded : (entry, key) ∈ retiredAll) (own : kcvHex crates key = entry.kcv) :
    ∃ key ∈ resolution.key :: resolution.retired, kcvHex crates key = entry.kcv := by
  refine ⟨key, ?_, own⟩
  by_cases same : key = resolution.key
  · exact same ▸ List.mem_cons_self
  · refine List.mem_cons_of_mem _ (gives key ?_)
    exact List.mem_filter.mpr ⟨List.mem_map.mpr ⟨_, loaded, rfl⟩, decide_eq_true same⟩

theorem on_checkDataFormat :
    On folder (fun _ target => target = folder)
      (fun error target => target = folder ∧ (access.Reads → folder.Readable → error = .killed))
      (checkDataFormat access) := by
  refine (on_readJson _ _).andThen (fun _ _ held => ⟨held.1, fun reads readable => ?_⟩) ?_
  · exact held.2.killed reads readable.1
  rintro _ folder ⟨rfl, -, rfl⟩
  cases held : folder.format with
  | missing | malformed => exact On.pure rfl
  | json marker =>
    rintro work rfl
    refine Ends.failIf (fun newer => ⟨rfl, fun _ readable => ?_⟩) fun _ => rfl
    exact absurd newer (not_lt.mpr (readable.2 marker held))

/-- What the ladder has done, where it is let fail, and that a key that it gave is kept. -/
def Laddered (crates : Crates) (access : Access) (inputs : CustodyInputs) (source target : Folder) :
    Except CustodyError (MasterKey × MasterKeySource) → Prop
  | .ok (key, origin) => Climbs (masterSlot access inputs source) source target ∧ Kept crates inputs target key ∧
      (origin = .env → inputs.envValue.bind (decodeMaster crates) = some key)
  | .error _ => Climbs (masterSlot access inputs source) source target

theorem on_ladder (legible : folder.record ≠ .malformed) :
    On folder (fun result target => Laddered crates access inputs folder target result)
      (fun error target => Climbs (masterSlot access inputs folder) folder target ∧ error = .killed)
      (attempt (loadMasterKeyGuarded crates access inputs.envValue inputs.keychain defaultKeyPaths inputs.allowFile
        (guardEvidence access inputs folder.record.value?) inputs.fresh)) := by
  have own (account : Account) (member : account ∈ inputs.keychain) :
      account = (masterSlot access inputs folder).account ∧ (masterSlot access inputs folder).enabled = true := by
    obtain ⟨enabled, same⟩ := Option.ite_none_right_eq_some.mp member
    exact ⟨(Option.some.inj same).symm, enabled⟩
  refine (on_loadMasterKeyGuarded own (examines_guardEvidence legible)).attempt ?_ (fun _ _ _ held => held)
    fun _ held => ⟨held, rfl⟩
  rintro ⟨key, origin⟩ target ⟨climbs, ⟨rfl, env⟩ | ⟨-, placed⟩⟩
  · exact ⟨climbs, Or.inl env, fun _ => env⟩
  · cases origin with
    | env => cases placed
    | keychain => exact ⟨climbs, Or.inr (Or.inl ⟨key, Or.inl placed, rfl⟩), nofun⟩
    | file => exact ⟨climbs, Or.inr (Or.inl ⟨key, Or.inr (Or.inl placed), rfl⟩), nofun⟩

/-- The ladder has left a folder in place of an earlier one, and the retired keys are climbed from it. -/
structure Climbed (crates : Crates) (access : Access) (inputs : CustodyInputs) (folder middle : Folder)
    (retiredAll : List (RetiredEntry × MasterKey)) : Prop where
  legible : folder.record ≠ .malformed
  climbs : Climbs (masterSlot access inputs folder) folder middle
  listed : ∀ pair ∈ retiredAll, pair.1 ∈ middle.entries ∧ kcvHex crates pair.2 = pair.1.kcv
  every : Answering access inputs middle → middle.Sound crates → ∀ entry ∈ middle.entries, ∃ key, (entry, key) ∈ retiredAll

/-- A call that takes resolution to its end from a folder that stands in place of an earlier one. -/
def Resolves (crates : Crates) (access : Access) (inputs : CustodyInputs) (folder middle : Folder)
    (call : CustodyM Resolution) : Prop :=
  On middle (fun resolution target => Grows crates (Mints access inputs folder) folder target ∧
      Resolved crates access inputs folder target resolution)
    (fun error target => Keeps crates (Mints access inputs folder) folder target ∧
      ∀ record, folder.record = .json record → Launchable crates access inputs folder record.kcv → error = .killed) call

namespace Climbed

variable {middle : Folder}

theorem keeps (climbed : Climbed crates access inputs folder middle retiredAll) :
    Keeps crates (Mints access inputs folder) folder middle :=
  climbed.climbs.keeps

theorem recoverable (climbed : Climbed crates access inputs folder middle retiredAll) {kcv : String}
    (before : Recoverable crates access inputs folder kcv) : Recoverable crates access inputs middle kcv :=
  ⟨climbed.climbs.answering before.answers, climbed.keeps.sound before.sound, climbed.keeps.holds before.sound kcv before.held⟩

/-- What is climbed is of the folder after the ladder, which has the entries of the folder before. -/
theorem opens (climbed : Climbed crates access inputs folder middle retiredAll) {resolution : Resolution}
    (gives : GivesAll retiredAll resolution) (answers : Answering access inputs folder) (sound : folder.Sound crates)
    (entry : RetiredEntry) (member : entry ∈ folder.entries) :
    ∃ key ∈ resolution.key :: resolution.retired, kcvHex crates key = entry.kcv := by
  obtain ⟨key, held⟩ := climbed.every (climbed.climbs.answering answers) (climbed.keeps.sound sound) entry
    (climbed.keeps.index entry member)
  exact opens_of_givesAll gives held (climbed.listed _ held).2

/-- The ladder gave no key. -/
theorem refused (climbed : Climbed crates access inputs folder middle retiredAll) (error : CustodyError) :
    Resolves crates access inputs folder middle
      (resolveRefused crates access inputs folder.record.value? retiredAll error) := by
  refine on_resolveRefused.mono ?_ ?_
  · rintro resolution _ ⟨rfl, gives, kept, record, held, same⟩
    refine ⟨climbed.keeps.toGrows, climbed.legible, fun other there => ?_, Or.inl ⟨climbed.keeps.record, fun missing => ?_⟩,
      fun _ => kept, climbed.opens gives⟩
    · rw [there] at held
      cases held
      exact same
    · rw [missing] at held
      cases held
  · rintro error _ ⟨rfl, only⟩
    refine ⟨climbed.keeps, fun record there launchable => only record ?_ (climbed.recoverable launchable.toRecoverable)⟩
    rw [there]
    rfl

/-- The ladder gave a key, and another one is recorded or the same. -/
theorem recorded (climbed : Climbed crates access inputs folder middle retiredAll) {record : KcvRecord}
    (recorded : folder.record = .json record) (kept : Kept crates inputs middle primary)
    (env : origin = .env → inputs.envValue.bind (decodeMaster crates) = some primary) :
    Resolves crates access inputs folder middle
      (if record.kcv = kcvHex crates primary then pure ⟨primary, origin, retiredKeys retiredAll primary, .ok⟩
      else resolveMismatch crates access inputs record retiredAll primary origin) := by
  have unchanged {target : Folder} (same : target.record = folder.record) :
      target.record = folder.record ∧ (folder.record = .missing → inputs.recordsKcv = false) := by
    refine ⟨same, ?_⟩
    rw [recorded]
    nofun
  refine On.ite (fun agrees => On.pure ⟨climbed.keeps.toGrows, recorded ▸ nofun, ?_,
    Or.inl (unchanged climbed.keeps.record), fun _ => kept, climbed.opens fun _ => id⟩) fun differs => ?_
  · intro other there
    cases recorded.symm.trans there
    exact agrees.symm
  · refine (on_resolveMismatch (Mints access inputs folder)).mono ?_ ?_
    · rintro resolution target ⟨rest, gives, kept, same⟩
      refine ⟨(climbed.keeps.trans rest).toGrows, recorded ▸ nofun, ?_, Or.inl (unchanged (climbed.keeps.trans rest).record),
        fun sound => kept (climbed.keeps.sound sound), climbed.opens gives⟩
      intro other there
      cases recorded.symm.trans there
      exact same
    · rintro error target ⟨rest, only⟩
      refine ⟨climbed.keeps.trans rest, fun other there launchable => ?_⟩
      cases recorded.symm.trans there
      refine only (climbed.recoverable launchable.toRecoverable) fun fromEnv => ?_
      exact differs (launchable.env primary (env fromEnv)).symm

/-- The ladder gave a key, and none is recorded. -/
theorem unrecorded (climbed : Climbed crates access inputs folder middle retiredAll) (missing : folder.record = .missing)
    (kept : Kept crates inputs middle primary) :
    Resolves crates access inputs folder middle
      (if inputs.recordsKcv = false then pure ⟨primary, origin, retiredKeys retiredAll primary, .ok⟩
      else if inputs.probe primary = .failed then resolveFailed crates access inputs retiredAll primary origin
      else do
        writeKcvRecord access (kcvHex crates primary) (← effectiveSource access origin primary defaultKeyPaths).asStr
        return ⟨primary, origin, retiredKeys retiredAll primary, .ok⟩) := by
  have none {held : Prop} (record : KcvRecord) (there : folder.record = .json record) : held := by
    rw [missing] at there
    cases there
  refine On.ite (fun off => On.pure ⟨climbed.keeps.toGrows, climbed.legible, fun _ => none _,
    Or.inl ⟨climbed.keeps.record, fun _ => off⟩, fun _ => kept, climbed.opens fun _ => id⟩) fun _ =>
      On.ite (fun _ => ?_) fun _ => ?_
  · refine (on_resolveFailed (Mints access inputs folder)).mono ?_ fun _ _ rest =>
      ⟨climbed.keeps.trans rest, fun _ => none _⟩
    rintro resolution target ⟨rest, gives, kept, records⟩
    exact ⟨climbed.keeps.toGrows.trans rest, climbed.legible, fun _ => none _, Or.inr ⟨missing, records⟩,
      fun sound => kept (climbed.keeps.sound sound), climbed.opens gives⟩
  · refine (on_effectiveSource primary _).andThen (fun _ _ held => ⟨held.1 ▸ climbed.keeps, fun _ => none _⟩) ?_
    rintro custody middle rfl
    refine (on_writeJson _ _).andThen (fun _ _ same => ⟨same ▸ climbed.keeps, fun _ => none _⟩) ?_
    rintro _ target rfl
    exact On.pure ⟨climbed.keeps.toGrows.recording _, climbed.legible, fun _ => none _, Or.inr ⟨missing, _, rfl, rfl⟩,
      fun _ => kept, climbed.opens fun _ => id⟩

end Climbed

/-- Resolution keeps all keys and a record, gives what is recorded, and fails of no such key that it can recover. -/
theorem on_resolve :
    On folder (fun resolution target => Grows crates (Mints access inputs folder) folder target ∧
        Resolved crates access inputs folder target resolution)
      (fun error target => Keeps crates (Mints access inputs folder) folder target ∧
        ∀ record, folder.record = .json record → Launchable crates access inputs folder record.kcv → error = .killed)
      (resolve crates access inputs) := by
  refine on_checkDataFormat.andThen (fun _ _ held => ⟨held.1 ▸ Keeps.refl _, fun record _ launchable => ?_⟩) ?_
  · exact held.2 launchable.answers.reads launchable.readable
  rintro _ folder rfl
  refine (on_readJson _ _).andThen (fun _ _ held => ⟨held.1 ▸ Keeps.refl _, fun record there launchable => ?_⟩) ?_
  · exact held.2.killed launchable.answers.reads (there ▸ nofun)
  rintro _ folder ⟨rfl, legible, rfl⟩
  refine (on_ladder legible).andThen (fun _ _ held => ⟨held.1.keeps, fun _ _ _ => held.2⟩)
    fun ladder middle laddered => ?_
  have climbs : Climbs (masterSlot access inputs folder) folder middle := by
    cases ladder with
    | error error => exact laddered
    | ok result => exact laddered.1
  refine on_loadAll.andThen (fun _ _ held => ⟨held.1 ▸ climbs.keeps, fun _ _ _ => held.2⟩) ?_
  rintro retiredAll middle ⟨rfl, listed, every⟩
  have climbed : Climbed crates access inputs folder middle retiredAll := ⟨legible, climbs, listed, every⟩
  cases ladder with
  | error error => exact climbed.refused error
  | ok result =>
    obtain ⟨primary, origin⟩ := result
    obtain ⟨-, kept, env⟩ := laddered
    cases recorded : folder.record with
    | malformed => exact absurd recorded legible
    | json record =>
      have ends := climbed.recorded recorded kept env
      rwa [Resolves, recorded] at ends
    | missing =>
      have ends := @Climbed.unrecorded _ _ _ _ _ _ origin _ climbed recorded kept
      rwa [Resolves, recorded] at ends

end RyuRooms.Custody
