import RyuRooms.Crypto.CustodyCalls

/-! # The vault of retired keys

The index names each retired key by its check value and says which custody its material is in. Material is only ever
added under a check value that the index does not list yet, and checked before the index lists it, so that every
entry that was listed loads for good.
-/

namespace RyuRooms.Custody

open Foundation Crypto

namespace Folder

/-- Where the material of an entry is. -/
def material (folder : Folder) (entry : RetiredEntry) : Held :=
  if entry.custody = "keychain" then folder.keychain (.retired entry.kcv) else folder.files (.retired entry.kcv)

/-- The material of an entry is a key with its check value. -/
def Loads (crates : Crates) (folder : Folder) (entry : RetiredEntry) : Prop :=
  ∃ key, folder.material entry = .key key ∧ kcvHex crates key = entry.kcv

/-- The index is readable, its entries load, and a retired key file has the key it is named after. -/
structure Sound (crates : Crates) (folder : Folder) : Prop where
  legible : folder.retired ≠ .malformed
  loads : ∀ entry ∈ folder.entries, folder.Loads crates entry
  named : ∀ kcv key, folder.files (.retired kcv) = .key key → kcvHex crates key = kcv

/-- A key is in the keychain slot or in a key file. -/
def Has (folder : Folder) (account : Account) (paths : KeyPaths) (key : MasterKey) : Prop :=
  folder.keychain account = .key key ∨ folder.files paths.master = .key key ∨
    folder.files paths.legacyMemory = .key key

/-- The index lists a check value. -/
def Lists (folder : Folder) (kcv : String) : Prop := ∃ entry ∈ folder.entries, entry.kcv = kcv

/-- A master key with this check value is there, current, stray or retired. -/
def Holds (crates : Crates) (folder : Folder) (kcv : String) : Prop :=
  (∃ key, folder.Has .master defaultKeyPaths key ∧ kcvHex crates key = kcv) ∨ folder.Lists kcv

/-- The folder with one more entry in its index. -/
def listing (folder : Folder) (entry : RetiredEntry) : Folder :=
  { folder with retired := .json (folder.entries ++ [entry]) }

/-- This check value is recorded as current, or the index lists it. -/
def Knows (folder : Folder) (kcv : String) : Prop :=
  (∃ record, folder.record = .json record ∧ record.kcv = kcv) ∨ folder.Lists kcv

end Folder

/-- What an operation that installs no other key does to the keys of a folder, and which may be new in its slots. -/
structure Grows (crates : Crates) (mint : MasterKey → Prop) (source target : Folder) : Prop where
  index : ∀ entry ∈ source.entries, entry ∈ target.entries
  sound : source.Sound crates → target.Sound crates
  holds : source.Sound crates → ∀ kcv, source.Holds crates kcv → target.Holds crates kcv
  minted : ∀ key, target.Has .master defaultKeyPaths key → source.Has .master defaultKeyPaths key ∨ mint key

/-- What an operation leaves that records no key besides. -/
structure Keeps (crates : Crates) (mint : MasterKey → Prop) (source target : Folder) : Prop
    extends Grows crates mint source target where
  record : target.record = source.record

/-- Only what is under one check value in the vault differs, and a key file there is named rightly. -/
structure Stashed (crates : Crates) (kcv : String) (source target : Folder) : Prop where
  keychain : ∀ account, account ≠ .retired kcv → target.keychain account = source.keychain account
  files : ∀ file, file ≠ .retired kcv → target.files file = source.files file
  named : ∀ key, target.files (.retired kcv) = .key key →
    source.files (.retired kcv) = .key key ∨ kcvHex crates key = kcv
  record : target.record = source.record
  retired : target.retired = source.retired

/-- What retiring a key leaves of a folder: the slots are as they were. -/
structure Retires (crates : Crates) (source target : Folder) : Prop where
  keeps : Keeps crates (fun _ => False) source target
  keychain : target.keychain .master = source.keychain .master
  files : ∀ file, (∀ kcv, file ≠ .retired kcv) → target.files file = source.files file

section Relations

variable {crates : Crates} {mint : MasterKey → Prop} {source middle target : Folder} {kcv : String}

theorem Folder.Lists.mono (lists : source.Lists kcv) (index : ∀ entry ∈ source.entries, entry ∈ target.entries) :
    target.Lists kcv := by
  obtain ⟨entry, member, same⟩ := lists
  exact ⟨entry, index entry member, same⟩

theorem Grows.trans (left : Grows crates mint source middle) (right : Grows crates mint middle target) :
    Grows crates mint source target where
  index entry member := right.index entry (left.index entry member)
  sound sound := right.sound (left.sound sound)
  holds sound kcv held := right.holds (left.sound sound) kcv (left.holds sound kcv held)
  minted key has := by
    rcases right.minted key has with before | minted
    · exact left.minted key before
    · exact Or.inr minted

theorem Keeps.refl (source : Folder) : Keeps crates mint source source :=
  ⟨⟨fun _ member => member, id, fun _ _ => id, fun _ => Or.inl⟩, rfl⟩

theorem Keeps.trans (left : Keeps crates mint source middle) (right : Keeps crates mint middle target) :
    Keeps crates mint source target :=
  ⟨left.toGrows.trans right.toGrows, right.record.trans left.record⟩

theorem Keeps.mono {other : MasterKey → Prop} (keeps : Keeps crates mint source target)
    (mints : ∀ key, mint key → other key) : Keeps crates other source target :=
  { keeps with minted := fun key has => (keeps.minted key has).imp_right (mints key) }

theorem Retires.refl (source : Folder) : Retires crates source source := ⟨Keeps.refl source, rfl, fun _ _ => rfl⟩

theorem Retires.trans (left : Retires crates source middle) (right : Retires crates middle target) :
    Retires crates source target where
  keeps := left.keeps.trans right.keeps
  keychain := right.keychain.trans left.keychain
  files file outside := (right.files file outside).trans (left.files file outside)

theorem Stashed.refl (source : Folder) : Stashed crates kcv source source :=
  ⟨fun _ _ => rfl, fun _ _ => rfl, fun _ => Or.inl, rfl, rfl⟩

theorem Stashed.has (stashed : Stashed crates kcv source target) (key : MasterKey) :
    target.Has .master defaultKeyPaths key ↔ source.Has .master defaultKeyPaths key := by
  rw [Folder.Has, stashed.keychain .master nofun, stashed.files _ (by simp [defaultKeyPaths]),
    stashed.files _ (by simp [defaultKeyPaths]), Folder.Has]

/-- Material under a check value that the index does not list is of no consequence to the rest. -/
theorem Stashed.keeps (stashed : Stashed crates kcv source target) (unlisted : ¬ source.Lists kcv) :
    Keeps crates mint source target where
  index entry member := by
    rw [Folder.entries, stashed.retired]
    exact member
  record := stashed.record
  minted key has := Or.inl ((stashed.has key).mp has)
  sound sound := by
    refine ⟨stashed.retired ▸ sound.legible, fun entry member => ?_, fun other key held => ?_⟩
    · rw [Folder.entries, stashed.retired] at member
      obtain ⟨key, material, same⟩ := sound.loads entry member
      have apart : entry.kcv ≠ kcv := fun same => unlisted ⟨entry, member, same⟩
      refine ⟨key, ?_, same⟩
      rw [← material, Folder.material, Folder.material, stashed.keychain _ (by simp [apart]),
        stashed.files _ (by simp [apart])]
    · by_cases same : other = kcv
      · subst same
        rcases stashed.named key held with before | named
        · exact sound.named _ key before
        · exact named
      · rw [stashed.files (.retired other) (by simp [same])] at held
        exact sound.named other key held
  holds sound other held := by
    rcases held with ⟨key, has, same⟩ | lists
    · exact Or.inl ⟨key, (stashed.has key).mpr has, same⟩
    · exact Or.inr (lists.mono fun entry member => by rwa [Folder.entries, stashed.retired])

theorem Stashed.retires (stashed : Stashed crates kcv source target) (unlisted : ¬ source.Lists kcv) :
    Retires crates source target :=
  ⟨stashed.keeps unlisted, stashed.keychain _ nofun, fun file outside => stashed.files file (outside kcv)⟩

end Relations

section Vault

variable {crates : Crates} {access : Access} {inputs : CustodyInputs} {folder : Folder} {mint : MasterKey → Prop}

/-- No read fails, and the keychain is enabled and answers, or is disabled and has no key. -/
structure Answering (access : Access) (inputs : CustodyInputs) (folder : Folder) : Prop where
  reads : access.Reads
  keychain : inputs.keychainEnabled = true ∧ (∀ n, access.reaches n = true) ∨
    inputs.keychainEnabled = false ∧ ∀ account key, folder.keychain account ≠ .key key

/-- The keychain answers where it has a key. -/
theorem Answering.reaches (answers : Answering access inputs folder) {account : Account} {key : MasterKey}
    (held : folder.keychain account = .key key) :
    inputs.keychainEnabled = true ∧ ∀ n, access.reaches n = true :=
  answers.keychain.resolve_right fun off => off.2 account key held

theorem on_retiredKey (entry : RetiredEntry) :
    On folder (fun key target => target = folder ∧ folder.material entry = .key key)
      (fun error target => target = folder ∧
        (Answering access inputs folder → ∀ key, folder.material entry = .key key → error = .killed))
      (retiredKey access inputs entry) := by
  unfold retiredKey Folder.material
  refine On.ite (fun keychain => ?_) fun file => ?_
  · rw [if_pos keychain]
    refine On.failIf_bind (fun off => ⟨rfl, fun answers key there => ?_⟩) fun _ => ?_
    · rw [(answers.reaches there).1] at off
      cases off
    refine (on_keychainGet _).andThen (fun _ _ held => ⟨held.1, fun _ _ _ => held.2⟩) ?_
    rintro state folder ⟨rfl, ⟨rfl, -⟩ | ⟨rfl, n, silent⟩⟩
    · cases held : folder.keychain (.retired entry.kcv) with
      | nothing | malformed => exact On.throw ⟨rfl, nofun⟩
      | key key => exact On.pure ⟨rfl, rfl⟩
    · exact On.throw ⟨rfl, fun answers key there => by simp [(answers.reaches there).2 n] at silent⟩
  · rw [if_neg file]
    refine (on_readKeyFile _).andThen (fun error target held => ⟨held.1, fun answers key there => ?_⟩) ?_
    · exact held.2.killed answers.reads (there ▸ nofun)
    rintro _ folder ⟨rfl, rfl⟩
    refine On.orFail (fun missing => ⟨rfl, fun _ key there => ?_⟩) fun found isFound => ⟨rfl, Held.of_key? isFound⟩
    rw [there] at missing
    cases missing

theorem on_loadRetired (entry : RetiredEntry) :
    On folder (fun key target => target = folder ∧ folder.material entry = .key key ∧ kcvHex crates key = entry.kcv)
      (fun error target => target = folder ∧
        (Answering access inputs folder → folder.Loads crates entry → error = .killed))
      (loadRetired crates access inputs entry) := by
  refine (on_retiredKey entry).andThen (fun _ _ held => ⟨held.1, fun answers loads => ?_⟩) ?_
  · obtain ⟨key, material, -⟩ := loads
    exact held.2 answers key material
  rintro key folder ⟨rfl, material⟩
  refine On.failIf_bind (fun differs => ⟨rfl, fun _ loads => ?_⟩) fun agrees => On.pure ⟨rfl, material, not_not.mp agrees⟩
  obtain ⟨other, held, own⟩ := loads
  rw [material] at held
  cases held
  exact absurd own differs

theorem on_orNothing_loadRetired (entry : RetiredEntry) :
    On folder (fun found target => target = folder ∧
        (∀ key ∈ found, folder.material entry = .key key ∧ kcvHex crates key = entry.kcv) ∧
        (Answering access inputs folder → folder.Loads crates entry → found.isSome))
      (fun error target => target = folder ∧ error = .killed)
      (orNothing (some <$> loadRetired crates access inputs entry)) := by
  have mapped : On folder (fun found target => target = folder ∧ ∃ key, found = some key ∧
        folder.material entry = .key key ∧ kcvHex crates key = entry.kcv)
      (fun error target => target = folder ∧
        (Answering access inputs folder → folder.Loads crates entry → error = .killed))
      (some <$> loadRetired crates access inputs entry) :=
    On.map ((on_loadRetired entry).imp fun key target held => ⟨held.1, key, rfl, held.2⟩)
  refine mapped.orNothing ?_ ?_ fun _ held => ⟨held.1, rfl⟩
  · rintro _ _ ⟨rfl, key, rfl, material, own⟩
    refine ⟨rfl, fun other member => ?_, fun _ _ => rfl⟩
    obtain rfl := Option.some.inj member
    exact ⟨material, own⟩
  · rintro error _ alive ⟨rfl, only⟩
    exact ⟨rfl, nofun, fun answers loads => absurd (only answers loads) alive⟩

/-- What is loaded of some entries has their check values, and nothing is missing where all answers. -/
structure Loaded (crates : Crates) (access : Access) (inputs : CustodyInputs) (folder : Folder)
    (entries : List RetiredEntry) (found : List (RetiredEntry × MasterKey)) : Prop where
  own : ∀ pair ∈ found, pair.1 ∈ entries ∧ kcvHex crates pair.2 = pair.1.kcv
  every : Answering access inputs folder → ∀ entry ∈ entries, folder.Loads crates entry → ∃ key, (entry, key) ∈ found

theorem on_loadEach (entries : List RetiredEntry) :
    On folder (fun found target => target = folder ∧ Loaded crates access inputs folder entries found)
      (fun error target => target = folder ∧ error = .killed) (loadEach crates access inputs entries) := by
  induction entries with
  | nil => exact On.pure ⟨rfl, nofun, nofun⟩
  | cons entry rest ih =>
    refine (on_orNothing_loadRetired entry).bind ?_
    rintro loaded folder ⟨rfl, own, some⟩
    refine ih.bind ?_
    rintro others folder ⟨rfl, listed, every⟩
    refine On.pure ⟨rfl, fun pair member => ?_, fun answers other member loads => ?_⟩
    · rcases List.mem_append.mp member with first | last
      · obtain ⟨key, isLoaded, rfl⟩ := List.mem_map.mp first
        exact ⟨List.mem_cons_self, (own key (Option.mem_toList.mp isLoaded)).2⟩
      · exact ⟨List.mem_cons_of_mem _ (listed pair last).1, (listed pair last).2⟩
    · rcases List.mem_cons.mp member with rfl | member
      · obtain ⟨key, isLoaded⟩ := Option.isSome_iff_exists.mp (some answers loads)
        exact ⟨key, List.mem_append_left _ (by simp [isLoaded])⟩
      · obtain ⟨key, there⟩ := every answers other member loads
        exact ⟨key, List.mem_append_right _ there⟩

/-- What the index is read as by an operation that goes on without it. -/
def IndexRead (crates : Crates) (access : Access) (inputs : CustodyInputs) (folder : Folder) :
    Except CustodyError (List RetiredEntry) → Prop
  | .ok entries => entries = folder.entries
  | .error _ => Answering access inputs folder → ¬ folder.Sound crates

theorem on_loadAll :
    On folder (fun found target => target = folder ∧
        (∀ pair ∈ found, pair.1 ∈ folder.entries ∧ kcvHex crates pair.2 = pair.1.kcv) ∧
        (Answering access inputs folder → folder.Sound crates → ∀ entry ∈ folder.entries, ∃ key, (entry, key) ∈ found))
      (fun error target => target = folder ∧ error = .killed) (loadAll crates access inputs) := by
  have index : On folder (fun result target => target = folder ∧ IndexRead crates access inputs folder result)
      (fun error target => target = folder ∧ error = .killed) (attempt (readRetiredIndex access)) := by
    refine on_readRetiredIndex.attempt (fun _ _ held => ⟨held.1, held.2.2⟩) ?_ fun _ held => ⟨held.1, rfl⟩
    rintro error _ alive ⟨rfl, unread⟩
    exact ⟨rfl, fun answers sound => alive (unread.killed answers.reads sound.legible)⟩
  refine index.bind ?_
  rintro (error | entries) folder ⟨rfl, read⟩
  · exact On.pure ⟨rfl, nofun, fun answers sound => absurd sound (read answers)⟩
  · cases read
    refine (on_loadEach folder.entries).imp ?_
    rintro found _ ⟨rfl, loaded⟩
    exact ⟨rfl, loaded.own, fun answers sound entry member => loaded.every answers entry member (sound.loads entry member)⟩

/-- What a keychain that is to take a key, and is asked for it, leaves and says. -/
structure Checked (access : Access) (key : MasterKey) (folder : Folder) (port : Option Account) (taken : Bool)
    (target : Folder) : Prop where
  stored : ∃ said, Stored access key folder port said target ∧ (taken = true → said = true)
  held : taken = true → ∃ account, port = some account ∧ target.keychain account = .key key
  keeps : (∀ n, access.reaches n = true) → (∀ n, access.stores n = .keeps) → ∀ account, port = some account →
    taken = true

theorem on_storeAndCheck (port : Option Account) (key : MasterKey) :
    On folder (fun taken target => Checked access key folder port taken target)
      (fun _ target => target = folder ∨ ∃ said, Stored access key folder port said target)
      (storeAndCheck access port key) := by
  refine (on_keychainStore port key).andThen (fun _ _ held => Or.inl held.1) fun said middle stored => ?_
  refine On.ite (fun holds => ?_) fun refused => On.pure ⟨⟨said, stored, nofun⟩, nofun, ?_⟩
  · refine (on_keychainGet port).andThen (fun _ _ held => Or.inr ⟨said, held.1 ▸ stored⟩) ?_
    rintro back middle ⟨rfl, answered⟩
    refine On.pure ⟨⟨said, stored, fun _ => holds⟩, fun taken => ?_, fun reaches keeps account same => ?_⟩
    · obtain rfl := of_decide_eq_true taken
      cases port with
      | none => cases answered
      | some account => exact ⟨account, rfl, answered.held⟩
    · subst same
      rw [answered.of_reaches reaches, (stored.of_keeps keeps).2, Folder.withEntry_keychain]
      exact decide_eq_true rfl
  · rintro reaches keeps account rfl
    exact absurd (stored.of_keeps keeps).1 refused

theorem Stashed.withEntry (kcv : String) (held : Held) : Stashed crates kcv folder (folder.withEntry (.retired kcv) held) :=
  ⟨fun _ apart => Folder.withEntry_of_ne apart, fun _ _ => rfl, fun _ => Or.inl, rfl, rfl⟩

theorem Stored.stashed {key : MasterKey} {kcv : String} {said : Bool} {target : Folder}
    (stored : Stored access key folder (some (.retired kcv)) said target) : Stashed crates kcv folder target := by
  cases stored with
  | kept | garbled => exact Stashed.withEntry kcv _
  | dropped | refused => exact Stashed.refl folder

/-- A key file that is written under the check value of its key. -/
theorem Stashed.withFile {key : MasterKey} {target : Folder} (stashed : Stashed crates (kcvHex crates key) folder target) :
    Stashed crates (kcvHex crates key) folder (target.withFile (.retired (kcvHex crates key)) (.key key)) where
  keychain := stashed.keychain
  files file apart := (Folder.withFile_of_ne apart).trans (stashed.files file apart)
  named other held := by
    rw [Folder.withFile_files] at held
    cases held
    exact Or.inr rfl
  record := stashed.record
  retired := stashed.retired

/-- A retired key file loads for an entry that says so. -/
theorem Folder.Sound.loads_file {kcv custody : String} {key : MasterKey} (sound : folder.Sound crates)
    (held : folder.files (.retired kcv) = .key key) (isFile : custody ≠ "keychain") (retiredAt : ℤ) :
    folder.Loads crates ⟨kcv, custody, retiredAt⟩ :=
  ⟨key, by rw [Folder.material, if_neg isFile]; exact held, sound.named kcv key held⟩

/-- The material of a retired key is where its entry will say. -/
theorem on_storeRetired (key : MasterKey) (preferKeychain : Bool) :
    On folder (fun custody target => Stashed crates (kcvHex crates key) folder target ∧
        (target.Sound crates → ∀ retiredAt, target.Loads crates ⟨kcvHex crates key, custody, retiredAt⟩))
      (fun _ target => Stashed crates (kcvHex crates key) folder target)
      (storeRetired access inputs (kcvHex crates key) key preferKeychain) := by
  have stored : On folder (fun taken target => Stashed crates (kcvHex crates key) folder target ∧
        (taken = true → target.keychain (.retired (kcvHex crates key)) = .key key))
      (fun _ target => Stashed crates (kcvHex crates key) folder target)
      (if preferKeychain && inputs.keychainEnabled then storeAndCheck access (some (.retired (kcvHex crates key))) key
        else pure false) := by
    refine On.ite (fun _ => ?_) fun _ => On.pure ⟨Stashed.refl folder, nofun⟩
    refine (on_storeAndCheck _ key).mono (fun taken target checked => ?_) ?_
    · obtain ⟨said, stored, -⟩ := checked.stored
      refine ⟨stored.stashed, fun yes => ?_⟩
      obtain ⟨account, same, held⟩ := checked.held yes
      cases same
      exact held
    · rintro _ _ (rfl | ⟨said, stored⟩)
      · exact Stashed.refl _
      · exact stored.stashed
  refine stored.bind fun taken middle ⟨stashed, held⟩ => ?_
  refine On.ite (fun yes => On.pure ⟨stashed, fun _ retiredAt => ⟨key, held yes, rfl⟩⟩) fun _ => ?_
  refine (on_readKeyFile _).andThen (fun _ _ read => read.1 ▸ stashed) ?_
  rintro found middle ⟨rfl, rfl⟩
  cases there : middle.files (.retired (kcvHex crates key)) with
  | key other => exact On.pure ⟨stashed, fun sound => sound.loads_file there (by decide)⟩
  | nothing | malformed =>
    refine (on_writeKeyFile _ key).andThen (fun _ _ kept => kept ▸ stashed) ?_
    rintro written target (⟨-, rfl, rfl⟩ | ⟨already, rfl⟩)
    · exact On.pure ⟨stashed.withFile, fun sound => sound.loads_file (Folder.withFile_files ..) (by decide)⟩
    · exact On.pure ⟨stashed, fun sound => sound.loads_file already (by decide)⟩

/-- An entry that loads is listed. -/
theorem Keeps.listing {source target : Folder} (keeps : Keeps crates mint source target) {entry : RetiredEntry}
    (loads : target.Sound crates → target.Loads crates entry) : Keeps crates mint source (target.listing entry) where
  index other member := List.mem_append_left _ (keeps.index other member)
  record := keeps.record
  minted := keeps.minted
  sound sound := by
    have kept := keeps.sound sound
    refine ⟨nofun, fun other member => ?_, kept.named⟩
    rcases List.mem_append.mp member with before | last
    · exact kept.loads other before
    · obtain rfl := List.mem_singleton.mp last
      exact loads kept
  holds sound kcv held := by
    rcases keeps.holds sound kcv held with has | lists
    · exact Or.inl has
    · exact Or.inr (lists.mono fun other member => List.mem_append_left _ member)

/-- A key that is retired is listed, and its entry loads. -/
theorem on_retire (key : MasterKey) (preferKeychain : Bool) :
    On folder (fun entry target => Retires crates folder target ∧ entry ∈ target.entries ∧
        entry.kcv = kcvHex crates key)
      (fun _ target => Retires crates folder target) (retire crates access inputs key preferKeychain) := by
  refine on_readRetiredIndex.andThen (fun _ _ read => read.1 ▸ Retires.refl _) ?_
  rintro index folder ⟨rfl, -, rfl⟩
  cases found : folder.entries.find? (fun entry => decide (entry.kcv = kcvHex crates key)) with
  | some existing =>
    have same : existing.kcv = kcvHex crates key := by simpa using List.find?_some found
    exact On.pure ⟨Retires.refl folder, List.mem_of_find?_eq_some found, same⟩
  | none =>
    have unlisted : ¬ folder.Lists (kcvHex crates key) := by
      rintro ⟨entry, member, same⟩
      simpa [same] using List.find?_eq_none.mp found entry member
    refine On.failIf_bind (fun _ => Retires.refl folder) fun _ => ?_
    refine (on_storeRetired key preferKeychain).andThen (fun _ _ stashed => stashed.retires unlisted) ?_
    rintro custody middle ⟨stashed, loads⟩
    have retires : Retires crates folder middle := stashed.retires unlisted
    refine (on_writeJson _ _).andThen (fun _ _ kept => kept ▸ retires) ?_
    rintro _ target rfl
    have same : middle.entries = folder.entries := by rw [Folder.entries, stashed.retired, Folder.entries]
    have listed : Keeps crates (fun _ => False) folder (middle.listing ⟨kcvHex crates key, custody, access.now⟩) :=
      retires.keeps.listing fun sound => loads sound _
    rw [Folder.listing, same] at listed
    exact On.pure ⟨⟨listed, retires.keychain, retires.files⟩, List.mem_append_right _ (List.mem_singleton_self _), rfl⟩

/-- What is seen of the keys: those of key files are there, and no live one is missing where its place answers. -/
structure Surveyed (crates : Crates) (access : Access) (inputs : CustodyInputs) (folder : Folder)
    (seen : List (KeySourceKind × MasterKey)) : Prop where
  slot : ∀ found ∈ seen, ∀ file, found.1.slot = some file → folder.files file = .key found.2
  held : ∀ found ∈ seen, inputs.envValue.bind (decodeMaster crates) = some found.2 ∨
    folder.Holds crates (kcvHex crates found.2)
  env : ∀ key, inputs.envValue.bind (decodeMaster crates) = some key → (.env, key) ∈ seen
  keychain : inputs.keychainEnabled = true ∧ (∀ n, access.reaches n = true) →
    ∀ key, folder.keychain .master = .key key → (.keychain, key) ∈ seen
  file : access.Reads → ∀ key, folder.files .master = .key key → (.file, key) ∈ seen
  legacy : access.Reads → ∀ key, folder.files .memory = .key key → (.legacyMemory, key) ∈ seen
  retired : Answering access inputs folder → folder.Sound crates → ∀ entry ∈ folder.entries,
    ∃ key, (.retired entry.kcv, key) ∈ seen ∧ kcvHex crates key = entry.kcv

/-- The key that the keychain answers with is in the slot of the master key. -/
theorem Answers.held_master {state : KeychainState} {key : MasterKey}
    (answered : Answers access folder state inputs.keychain) (found : state.key? = some key) :
    folder.keychain .master = .key key := by
  cases state with
  | empty | corrupt | unavailable => cases found
  | key other =>
    cases found
    unfold CustodyInputs.keychain at answered
    split at answered
    · exact answered.held
    · cases answered

theorem on_candidates :
    On folder (fun seen target => target = folder ∧ Surveyed crates access inputs folder seen)
      (fun error target => target = folder ∧ error = .killed) (candidates crates access inputs) := by
  refine (on_keychainGet inputs.keychain).bind ?_
  rintro state folder ⟨rfl, answered⟩
  refine (on_orNothing_readKeyFile _).bind ?_
  rintro file folder ⟨rfl, isFile, file_all⟩
  refine (on_orNothing_readKeyFile _).bind ?_
  rintro legacy folder ⟨rfl, isLegacy, legacy_all⟩
  refine on_loadAll.bind ?_
  rintro retired folder ⟨rfl, own, every⟩
  refine On.pure ⟨rfl, fun found member => ?_, fun found member => ?_, ?_, ?_, ?_, ?_, ?_⟩
  · intro place isPlace
    simp only [List.mem_append, List.mem_map, Option.mem_toList] at member
    rcases member with (((⟨key, -, rfl⟩ | ⟨key, -, rfl⟩) | ⟨key, there, rfl⟩) | ⟨key, there, rfl⟩) | ⟨pair, -, rfl⟩
    · cases isPlace
    · cases isPlace
    · cases isPlace
      exact isFile key there
    · cases isPlace
      exact isLegacy key there
    · cases isPlace
  · simp only [List.mem_append, List.mem_map, Option.mem_toList] at member
    rcases member with (((⟨key, env, rfl⟩ | ⟨key, there, rfl⟩) | ⟨key, there, rfl⟩) | ⟨key, there, rfl⟩) | ⟨pair, there, rfl⟩
    · exact Or.inl env
    · exact Or.inr (Or.inl ⟨key, Or.inl (answered.held_master there), rfl⟩)
    · exact Or.inr (Or.inl ⟨key, Or.inr (Or.inl (isFile key there)), rfl⟩)
    · exact Or.inr (Or.inl ⟨key, Or.inr (Or.inr (isLegacy key there)), rfl⟩)
    · exact Or.inr (Or.inr ⟨pair.1, (own pair there).1, (own pair there).2.symm⟩)
  · intro key isEnv
    simp [isEnv]
  · rintro ⟨enabled, reaches⟩ key there
    rw [CustodyInputs.keychain, if_pos enabled] at answered
    obtain rfl := answered.of_reaches reaches
    simp [there, Held.state, KeychainState.key?]
  · intro reads key there
    have found : file = some key := (file_all reads).trans (congrArg Held.key? there)
    simp [found]
  · intro reads key there
    have found : legacy = some key := (legacy_all reads).trans (congrArg Held.key? there)
    simp [found]
  · intro answers sound entry member
    obtain ⟨key, there⟩ := every answers sound entry member
    exact ⟨key, List.mem_append_right _ (List.mem_map.mpr ⟨_, there, rfl⟩), (own _ there).2⟩

/-- Every place answers, and a key of this check value is held. -/
structure Recoverable (crates : Crates) (access : Access) (inputs : CustodyInputs) (folder : Folder) (kcv : String) :
    Prop where
  answers : Answering access inputs folder
  sound : folder.Sound crates
  held : folder.Holds crates kcv

/-- A key that the slots have is seen, as a live one. -/
theorem Surveyed.live {seen : List (KeySourceKind × MasterKey)} (surveyed : Surveyed crates access inputs folder seen)
    (answers : Answering access inputs folder) {key : MasterKey} (has : folder.Has .master defaultKeyPaths key) :
    ∃ kind, (kind, key) ∈ seen ∧ kind.live = true := by
  rcases has with entry | file | legacy
  · exact ⟨.keychain, surveyed.keychain (answers.reaches entry) key entry, rfl⟩
  · exact ⟨.file, surveyed.file answers.reads key file, rfl⟩
  · exact ⟨.legacyMemory, surveyed.legacy answers.reads key legacy, rfl⟩

/-- A key that is held is seen. -/
theorem Surveyed.finds {seen : List (KeySourceKind × MasterKey)} {kcv : String}
    (surveyed : Surveyed crates access inputs folder seen) (recoverable : Recoverable crates access inputs folder kcv) :
    ∃ found ∈ seen, kcvHex crates found.2 = kcv := by
  obtain ⟨answers, sound, ⟨key, has, same⟩ | ⟨entry, member, same⟩⟩ := recoverable
  · obtain ⟨kind, member, -⟩ := surveyed.live answers has
    exact ⟨_, member, same⟩
  · obtain ⟨key, there, own⟩ := surveyed.retired answers sound entry member
    exact ⟨_, there, own.trans same⟩

end Vault

end RyuRooms.Custody
