import RyuRooms.Crypto.CustodyVault

/-! # The custody ladder

The ladder gives a key that its slot holds, in the keychain or in a key file, or one of the environment. It takes no
key out of its slot: the entry of the keychain is written only where there is none, a key file only where there is
none, and the legacy file is removed only where the keychain has the same key. A key that was in the slot nowhere is
a fresh one, for which no evidence was found that something is sealed.
-/

namespace RyuRooms.Custody

open Foundation Crypto

/-- A slot: its entry of the keychain, its key files, and the key that would be generated for it. -/
structure Slot where
  account : Account
  enabled : Bool
  paths : KeyPaths
  fresh : MasterKey
  unsealed : Prop

/-- What the ladder does to the folder. -/
structure Climbs (slot : Slot) (source target : Folder) : Prop where
  has : ∀ key, source.Has slot.account slot.paths key → target.Has slot.account slot.paths key
  minted : ∀ key, target.Has slot.account slot.paths key →
    source.Has slot.account slot.paths key ∨ key = slot.fresh ∧ slot.unsealed
  keychain : ∀ account, account ≠ slot.account ∨ slot.enabled = false →
    target.keychain account = source.keychain account
  files : ∀ file, file ≠ slot.paths.master → file ≠ slot.paths.legacyMemory → target.files file = source.files file
  record : target.record = source.record
  retired : target.retired = source.retired
  slots : target.slots = source.slots

/-- A key that the ladder may store: one that the slot has, or a fresh one. -/
def Slot.Own (slot : Slot) (folder : Folder) (key : MasterKey) : Prop :=
  folder.Has slot.account slot.paths key ∨ key = slot.fresh ∧ slot.unsealed

section Climbs

variable {slot : Slot} {source middle target : Folder} {key : MasterKey}

theorem Climbs.refl (slot : Slot) (folder : Folder) : Climbs slot folder folder :=
  ⟨fun _ => id, fun _ => Or.inl, fun _ _ => rfl, fun _ _ _ => rfl, rfl, rfl, rfl⟩

theorem Climbs.trans (left : Climbs slot source middle) (right : Climbs slot middle target) :
    Climbs slot source target where
  has key held := right.has key (left.has key held)
  minted key held := by
    rcases right.minted key held with before | fresh
    · exact left.minted key before
    · exact Or.inr fresh
  keychain account apart := (right.keychain account apart).trans (left.keychain account apart)
  files file first second := (right.files file first second).trans (left.files file first second)
  record := right.record.trans left.record
  retired := right.retired.trans left.retired
  slots := right.slots.trans left.slots

/-- An entry that is written where there is none. -/
theorem Climbs.seed (enabled : slot.enabled = true) (empty : source.keychain slot.account = .nothing) (own : slot.Own source key)
    (touched : Touched key (some slot.account) source target) : Climbs slot source target := by
  rcases touched with rfl | ⟨account, held, same, kind, rfl⟩
  · exact Climbs.refl slot target
  cases same
  refine ⟨fun other has => ?_, fun other has => ?_, fun other apart => ?_, fun _ _ _ => rfl, rfl, rfl, rfl⟩
  · rcases has with entry | files
    · rw [empty] at entry
      cases entry
    · exact Or.inr files
  · rcases has with entry | files
    · rw [Folder.withEntry_keychain] at entry
      rcases kind with rfl | rfl
      · cases entry
        exact own
      · cases entry
    · exact Or.inl (Or.inr files)
  · exact Folder.withEntry_of_ne (apart.resolve_right (by simp [enabled]))

/-- A key file that is written where there is none. -/
theorem Climbs.write (absent : source.files slot.paths.master = .nothing) (own : slot.Own source key) :
    Climbs slot source (source.withFile slot.paths.master (.key key)) := by
  have kept {file : KeyFile} {other : MasterKey} (held : source.files file = .key other) :
      (source.withFile slot.paths.master (.key key)).files file = .key other := by
    have apart : file ≠ slot.paths.master := by
      rintro rfl
      rw [absent] at held
      cases held
    rw [Folder.withFile_of_ne apart, held]
  have old {file : KeyFile} {other : MasterKey}
      (held : (source.withFile slot.paths.master (.key key)).files file = .key other) :
      other = key ∨ source.files file = .key other := by
    by_cases same : file = slot.paths.master
    · subst same
      rw [Folder.withFile_files] at held
      cases held
      exact Or.inl rfl
    · rw [Folder.withFile_of_ne same] at held
      exact Or.inr held
  refine ⟨fun other has => ?_, fun other has => ?_, fun _ _ => rfl, fun file apart _ => ?_, rfl, rfl, rfl⟩
  · rcases has with entry | master | legacy
    · exact Or.inl entry
    · exact Or.inr (Or.inl (kept master))
    · exact Or.inr (Or.inr (kept legacy))
  · rcases has with entry | master | legacy
    · exact Or.inl (Or.inl entry)
    · rcases old master with rfl | before
      · exact own
      · exact Or.inl (Or.inr (Or.inl before))
    · rcases old legacy with rfl | before
      · exact own
      · exact Or.inl (Or.inr (Or.inr before))
  · exact Folder.withFile_of_ne apart

/-- A legacy file that is removed where the keychain has its key. -/
theorem Climbs.drop (entry : source.keychain slot.account = .key key)
    (legacy : source.files slot.paths.legacyMemory = .key key) :
    Climbs slot source (source.withFile slot.paths.legacyMemory .nothing) := by
  have old {file : KeyFile} {other : MasterKey}
      (held : (source.withFile slot.paths.legacyMemory .nothing).files file = .key other) :
      source.files file = .key other := by
    by_cases same : file = slot.paths.legacyMemory
    · subst same
      rw [Folder.withFile_files] at held
      cases held
    · rwa [Folder.withFile_of_ne same] at held
  have kept {file : KeyFile} {other : MasterKey} (held : source.files file = .key other) :
      other = key ∨ (source.withFile slot.paths.legacyMemory .nothing).files file = .key other := by
    by_cases same : file = slot.paths.legacyMemory
    · subst same
      rw [legacy] at held
      cases held
      exact Or.inl rfl
    · exact Or.inr ((Folder.withFile_of_ne same).trans held)
  refine ⟨fun other has => ?_, fun other has => Or.inl ?_, fun _ _ => rfl, fun file _ apart => ?_, rfl, rfl, rfl⟩
  · rcases has with held | master | held
    · exact Or.inl held
    · exact (kept master).elim (fun same => Or.inl (same ▸ entry)) fun there => Or.inr (Or.inl there)
    · exact (kept held).elim (fun same => Or.inl (same ▸ entry)) fun there => Or.inr (Or.inr there)
  · rcases has with held | master | held
    · exact Or.inl held
    · exact Or.inr (Or.inl (old master))
    · exact Or.inr (Or.inr (old held))
  · exact Folder.withFile_of_ne apart

end Climbs

section Ladder

variable {crates : Crates} {access : Access} {slot : Slot} {folder : Folder} {evidence : CustodyM (Option String)}
  {key : MasterKey} {legacy : Option MasterKey} {allowFile : Bool}

/-- Where a key that the ladder gives is in the slot. -/
def Placed (slot : Slot) (folder : Folder) (key : MasterKey) : MasterKeySource → Prop
  | .env => False
  | .keychain => folder.keychain slot.account = .key key
  | .file => folder.files slot.paths.master = .key key

theorem on_retireMatchingLegacyKey (entry : folder.keychain slot.account = .key key) :
    On folder (fun _ target => Climbs slot folder target ∧ target.keychain slot.account = .key key)
      (fun _ target => Climbs slot folder target) (retireMatchingLegacyKey access slot.paths key) := by
  refine (on_readKeyFile _).andThen (fun _ _ read => read.1 ▸ Climbs.refl slot _) ?_
  rintro _ folder ⟨rfl, rfl⟩
  cases legacy : folder.files slot.paths.legacyMemory with
  | nothing | malformed => exact On.pure ⟨Climbs.refl slot folder, entry⟩
  | key other =>
    refine On.ite (fun _ => On.pure ⟨Climbs.refl slot folder, entry⟩) fun agrees => ?_
    obtain rfl := not_not.mp agrees
    refine (on_removeFile _ _).mono ?_ fun _ _ kept => kept ▸ Climbs.refl slot _
    rintro _ _ rfl
    exact ⟨Climbs.drop entry legacy, entry⟩

/-- The evidence is looked for without a change, and where there is none nothing is sealed. -/
def Examines (slot : Slot) (folder : Folder) (evidence : CustodyM (Option String)) : Prop :=
  On folder (fun found target => target = folder ∧ (found = none → slot.unsealed)) (fun _ target => target = folder)
    evidence

theorem on_existingOrFresh {existing : Option MasterKey} {refusal : String → String}
    (has : ∀ key ∈ existing, folder.Has slot.account slot.paths key) (examines : Examines slot folder evidence) :
    On folder (fun key target => target = folder ∧ slot.Own folder key) (fun _ target => target = folder)
      (existingOrFresh existing evidence refusal slot.fresh) := by
  cases existing with
  | some key => exact On.pure ⟨rfl, Or.inl (has key rfl)⟩
  | none =>
    refine examines.bind ?_
    rintro found folder ⟨rfl, unsealed⟩
    cases found with
    | some reason => exact On.throw rfl
    | none => exact On.pure ⟨rfl, Or.inr ⟨rfl, unsealed rfl⟩⟩

/-- A key file is written where it was found missing. -/
theorem on_writeMaster (own : slot.Own folder key) :
    On folder (fun result target => Climbs slot folder target ∧ Placed slot target result.1 result.2)
      (fun _ target => Climbs slot folder target) (do
        let written ← writeKeyFile access slot.paths.master key
        return (written, MasterKeySource.file)) := by
  refine (on_writeKeyFile _ key).andThen (fun _ _ kept => kept ▸ Climbs.refl slot _) ?_
  rintro found target (⟨absent, rfl, rfl⟩ | ⟨there, rfl⟩)
  · exact On.pure ⟨Climbs.write absent own, Folder.withFile_files ..⟩
  · exact On.pure ⟨Climbs.refl slot target, there⟩

/-- The key file is read, or written where there is none. -/
theorem on_fileOrWrite {write : CustodyM (MasterKey × MasterKeySource)}
    (writes : On folder (fun result target => Climbs slot folder target ∧ Placed slot target result.1 result.2)
      (fun _ target => Climbs slot folder target) write) :
    On folder (fun result target => Climbs slot folder target ∧ Placed slot target result.1 result.2)
      (fun _ target => Climbs slot folder target) (do
        match ← readKeyFile access slot.paths.master with
        | some key => return (key, MasterKeySource.file)
        | none => write) := by
  refine (on_readKeyFile _).andThen (fun _ _ read => read.1 ▸ Climbs.refl slot _) ?_
  rintro _ folder ⟨rfl, rfl⟩
  cases held : folder.files slot.paths.master with
  | key key => exact On.pure ⟨Climbs.refl slot folder, held⟩
  | nothing | malformed => exact writes

theorem on_seedKeychain (enabled : slot.enabled = true) (empty : folder.keychain slot.account = .nothing)
    (has : ∀ key ∈ legacy, folder.files slot.paths.legacyMemory = .key key) (examines : Examines slot folder evidence) :
    On folder (fun result target => Climbs slot folder target ∧ Placed slot target result.1 result.2)
      (fun _ target => Climbs slot folder target)
      (seedKeychain access (some slot.account) slot.paths allowFile legacy evidence slot.fresh) := by
  have read : On folder (fun found target => target = folder ∧
        ∀ key ∈ found, folder.files slot.paths.master = .key key)
      (fun _ target => Climbs slot folder target)
      (if allowFile = true then readKeyFile access slot.paths.master else pure none) := by
    refine On.ite (fun _ => ?_) fun _ => On.pure ⟨rfl, nofun⟩
    refine (on_readKeyFile _).mono ?_ fun _ _ read => read.1 ▸ Climbs.refl slot _
    rintro _ folder ⟨rfl, rfl⟩
    exact ⟨rfl, fun key found => Held.of_key? found⟩
  refine read.bind ?_
  rintro fileKey folder ⟨rfl, isFile⟩
  have existing (key : MasterKey) (member : key ∈ fileKey.or legacy) : folder.Has slot.account slot.paths key := by
    rcases Option.or_eq_some_iff.mp member with file | ⟨-, old⟩
    · exact Or.inr (Or.inl (isFile key file))
    · exact Or.inr (Or.inr (has key old))
  refine (on_existingOrFresh existing examines).andThen (fun _ _ kept => kept ▸ Climbs.refl slot _) ?_
  rintro key folder ⟨rfl, own⟩
  refine (on_keychainStore _ key).andThen (fun _ _ held => held.1 ▸ Climbs.refl slot _) fun said middle stored => ?_
  have climbs := Climbs.seed enabled empty own stored.touched
  refine On.ite (fun _ => ?_) fun _ => ?_
  · refine (on_keychainGet _).andThen (fun _ _ held => held.1 ▸ climbs) ?_
    rintro state middle ⟨rfl, answered⟩
    cases state with
    | corrupt | empty | unavailable => exact On.throw climbs
    | key persisted =>
      refine On.failIf_bind (fun _ => climbs) fun agrees => ?_
      obtain rfl := not_not.mp agrees
      refine (on_retireMatchingLegacyKey answered.held).andThen (fun _ _ dropped => climbs.trans dropped) ?_
      rintro _ target ⟨dropped, stays⟩
      exact On.pure ⟨climbs.trans dropped, stays⟩
  · refine On.failIf_bind (fun _ => climbs) fun _ => ?_
    refine (on_fileOrWrite (on_writeMaster (own.imp_left (climbs.has key)))).mono ?_ fun _ _ held => climbs.trans held
    exact fun _ _ held => ⟨climbs.trans held.1, held.2⟩

theorem on_fileFallback (has : ∀ key ∈ legacy, folder.files slot.paths.legacyMemory = .key key)
    (examines : Examines slot folder evidence) :
    On folder (fun result target => Climbs slot folder target ∧ Placed slot target result.1 result.2)
      (fun _ target => Climbs slot folder target)
      (fileFallback access slot.paths allowFile legacy evidence slot.fresh) := by
  refine On.failIf_bind (fun _ => Climbs.refl slot folder) fun _ => ?_
  refine on_fileOrWrite ?_
  have existing (key : MasterKey) (member : key ∈ legacy) : folder.Has slot.account slot.paths key :=
    Or.inr (Or.inr (has key member))
  refine (on_existingOrFresh existing examines).andThen (fun _ _ kept => kept ▸ Climbs.refl slot _) ?_
  rintro key folder ⟨rfl, own⟩
  exact on_writeMaster own

/-- What the ladder gives is the environment's, or in its slot, and it takes nothing out of the slot. -/
theorem on_loadMasterKeyGuarded {envValue : Option String} {port : Option Account}
    (own : ∀ account ∈ port, account = slot.account ∧ slot.enabled = true) (examines : Examines slot folder evidence) :
    On folder (fun result target => Climbs slot folder target ∧
        (result.2 = .env ∧ envValue.bind (decodeMaster crates) = some result.1 ∨
          envValue = none ∧ Placed slot target result.1 result.2))
      (fun _ target => Climbs slot folder target)
      (loadMasterKeyGuarded crates access envValue port slot.paths allowFile evidence slot.fresh) := by
  cases envValue with
  | some encoded =>
    have decodes : On folder (fun key target => target = folder ∧ decodeMaster crates encoded = some key)
        (fun _ target => Climbs slot folder target)
        (orFail (decodeMaster crates encoded) (.other s!"{MASTER_KEY_ENV} is not a base64 32-byte key")) :=
      On.orFail (fun _ => Climbs.refl slot folder) fun key decoded => ⟨rfl, decoded⟩
    refine decodes.bind ?_
    rintro key folder ⟨rfl, decoded⟩
    exact On.pure ⟨Climbs.refl slot folder, Or.inl ⟨rfl, decoded⟩⟩
  | none =>
    refine (on_readKeyFile _).andThen (fun _ _ read => read.1 ▸ Climbs.refl slot _) ?_
    rintro _ folder ⟨rfl, rfl⟩
    have has (key : MasterKey) (member : key ∈ (folder.files slot.paths.legacyMemory).key?) :
        folder.files slot.paths.legacyMemory = .key key := Held.of_key? member
    refine (on_keychainGet _).andThen (fun _ _ held => held.1 ▸ Climbs.refl slot _) ?_
    rintro state folder ⟨rfl, answered⟩
    have held (there : state ≠ .unavailable) :
        (port = some slot.account ∧ slot.enabled = true) ∧ state = (folder.keychain slot.account).state := by
      cases port with
      | none => exact absurd answered there
      | some account =>
        obtain ⟨rfl, enabled⟩ := own account rfl
        exact ⟨⟨rfl, enabled⟩, (answered.resolve_right fun silent => there silent.1).1⟩
    cases state with
    | corrupt => exact On.throw (Climbs.refl slot folder)
    | unavailable => exact (on_fileFallback has examines).imp fun _ _ held => ⟨held.1, Or.inr ⟨rfl, held.2⟩⟩
    | empty =>
      obtain ⟨⟨rfl, enabled⟩, answer⟩ := held nofun
      have empty : folder.keychain slot.account = .nothing := by
        cases there : folder.keychain slot.account with
        | nothing => rfl
        | malformed | key =>
          rw [there] at answer
          cases answer
      exact (on_seedKeychain enabled empty has examines).imp fun _ _ held => ⟨held.1, Or.inr ⟨rfl, held.2⟩⟩
    | key key =>
      obtain ⟨-, answer⟩ := held nofun
      refine (on_retireMatchingLegacyKey (Held.of_state answer)).bind ?_
      rintro _ target ⟨climbs, stays⟩
      exact On.pure ⟨climbs, Or.inr ⟨rfl, stays⟩⟩

end Ladder

end RyuRooms.Custody
