import RyuRooms.Crypto.CustodyResolve

/-! # Installing another current key

An adoption or an import retires the key that it will displace, and the key that is recorded, before it stores the
other one. The entry of the keychain or the key file that is overwritten is the one that was read before, as long as
the keychain does not come and go in between.
-/

namespace RyuRooms.Custody

open Foundation Crypto

/-- No read fails, and the keychain answers and keeps what it is to store. -/
structure Stocked (access : Access) (inputs : CustodyInputs) : Prop where
  reads : access.Reads
  enabled : inputs.keychainEnabled = true
  reaches : ∀ n, access.reaches n = true
  keeps : ∀ n, access.stores n = .keeps

/-- No read fails, and there is no keychain all along. -/
structure Absent (access : Access) (inputs : CustodyInputs) : Prop where
  reads : access.Reads
  away : inputs.keychainEnabled = false ∨ (∀ n, access.reaches n = false) ∧ ∀ n, access.stores n = .refuses

/-- No read fails, and the keychain does not come and go. -/
def Steady (access : Access) (inputs : CustodyInputs) : Prop := Stocked access inputs ∨ Absent access inputs

/-- The key is where the current key is to be stored. -/
def Displaces (access : Access) (inputs : CustodyInputs) (folder : Folder) (old : MasterKey) : Prop :=
  Stocked access inputs ∧ folder.keychain .master = .key old ∨ Absent access inputs ∧ folder.files .master = .key old

/-- A key of this check value is in the environment, or where it is read. -/
def AtHand (crates : Crates) (access : Access) (inputs : CustodyInputs) (folder : Folder) (kcv : String) : Prop :=
  (∃ key, inputs.envValue.bind (decodeMaster crates) = some key ∧ kcvHex crates key = kcv) ∨
    Answering access inputs folder ∧ ∃ key, folder.Has .master defaultKeyPaths key ∧ kcvHex crates key = kcv

/-- The key that is recorded is retired or at hand. -/
def Prepared (crates : Crates) (access : Access) (inputs : CustodyInputs) (folder : Folder) : Prop :=
  ∀ record, folder.record = .json record → folder.Lists record.kcv ∨ AtHand crates access inputs folder record.kcv

/-- What an adoption or an import leaves of a folder, however it ends. -/
structure Installs (crates : Crates) (access : Access) (inputs : CustodyInputs) (source target : Folder) : Prop where
  index : ∀ entry ∈ source.entries, entry ∈ target.entries
  sound : source.Sound crates → target.Sound crates
  holds : Steady access inputs → source.Sound crates → ∀ kcv, source.Holds crates kcv → target.Holds crates kcv
  knows : Prepared crates access inputs source → ∀ kcv, source.Knows kcv → target.Knows kcv

/-- What storing the current key leaves: only its own places differ, and what goes is what it displaces. -/
structure Places (access : Access) (inputs : CustodyInputs) (key : MasterKey) (source target : Folder) : Prop where
  keychain : ∀ account, account ≠ .master → target.keychain account = source.keychain account
  files : ∀ file, file ≠ .master → target.files file = source.files file
  record : target.record = source.record
  retired : target.retired = source.retired
  has : Steady access inputs → ∀ old, source.Has .master defaultKeyPaths old →
    target.Has .master defaultKeyPaths old ∨ old ≠ key ∧ Displaces access inputs source old

section Relations

variable {crates : Crates} {access : Access} {inputs : CustodyInputs} {source middle target folder : Folder}
  {key : MasterKey} {kcv : String}

theorem Keeps.knows {mint : MasterKey → Prop} (keeps : Keeps crates mint source target) (knows : source.Knows kcv) :
    target.Knows kcv := by
  rcases knows with ⟨record, held, same⟩ | lists
  · exact Or.inl ⟨record, keeps.record.trans held, same⟩
  · exact Or.inr (lists.mono keeps.index)

theorem Keeps.installs {mint : MasterKey → Prop} (keeps : Keeps crates mint source target) :
    Installs crates access inputs source target :=
  ⟨keeps.index, keeps.sound, fun _ => keeps.holds, fun _ _ => keeps.knows⟩

theorem Installs.refl (folder : Folder) : Installs crates access inputs folder folder :=
  ⟨fun _ => id, id, fun _ _ _ => id, fun _ _ => id⟩

theorem Places.refl (folder : Folder) : Places access inputs key folder folder :=
  ⟨fun _ _ => rfl, fun _ _ => rfl, rfl, rfl, fun _ _ => Or.inl⟩

/-- An entry of the keychain that is written displaces what was in it. -/
theorem Places.withEntry {held : Held} (stocked : Steady access inputs → Stocked access inputs ∧ held = .key key) :
    Places access inputs key folder (folder.withEntry .master held) := by
  refine ⟨fun _ apart => Folder.withEntry_of_ne apart, fun _ _ => rfl, rfl, rfl, fun steady old has => ?_⟩
  obtain ⟨there, rfl⟩ := stocked steady
  rcases has with entry | files
  · by_cases same : old = key
    · exact Or.inl (Or.inl (same ▸ Folder.withEntry_keychain ..))
    · exact Or.inr ⟨same, Or.inl ⟨there, entry⟩⟩
  · exact Or.inl (Or.inr files)

/-- A key file that is written displaces what was in it. -/
theorem Places.withFile (places : Places access inputs key folder middle) (absent : Steady access inputs → Absent access inputs)
    (same : Absent access inputs → middle = folder) :
    Places access inputs key folder (middle.withFile .master (.key key)) := by
  refine ⟨places.keychain, fun file apart => (Folder.withFile_of_ne apart).trans (places.files file apart), places.record,
    places.retired, fun steady old has => ?_⟩
  have absent := absent steady
  obtain rfl := same absent
  rcases has with entry | file | legacy
  · exact Or.inl (Or.inl entry)
  · by_cases isKey : old = key
    · exact Or.inl (Or.inr (Or.inl (isKey ▸ Folder.withFile_files ..)))
    · exact Or.inr ⟨isKey, Or.inr ⟨absent, file⟩⟩
  · exact Or.inl (Or.inr (Or.inr ((Folder.withFile_of_ne (by decide)).trans legacy)))

theorem Absent.port (absent : Absent access inputs) :
    inputs.keychain = none ∨ inputs.keychain = some .master ∧ (∀ n, access.reaches n = false) ∧
      ∀ n, access.stores n = .refuses := by
  unfold CustodyInputs.keychain
  rcases absent.away with disabled | silent
  · exact Or.inl (by simp [disabled])
  · by_cases enabled : inputs.keychainEnabled = true
    · exact Or.inr ⟨if_pos enabled, silent⟩
    · exact Or.inl (if_neg enabled)

/-- A keychain that is not there takes no key. -/
theorem Absent.not_taken (absent : Absent access inputs) {account : Account} {n : ℕ}
    (port : inputs.keychain = some account) (taken : access.stores n ≠ .refuses) : False := by
  rcases absent.port with none | ⟨-, -, refuses⟩
  · rw [none] at port
    cases port
  · exact taken (refuses n)

/-- What a keychain makes of the current key. -/
theorem Stored.places {port : Option Account} {said : Bool} (stored : Stored access key folder port said target)
    (own : inputs.keychain = port) : Places access inputs key folder target := by
  have master {account : Account} (port : inputs.keychain = some account) : account = .master := by
    simpa [CustodyInputs.keychain, eq_comm] using (Option.ite_none_right_eq_some.mp port).2
  cases stored with
  | disabled | dropped | refused => exact Places.refl _
  | kept keeps =>
    obtain rfl := master own
    refine Places.withEntry fun steady => ⟨steady.resolve_right fun absent => ?_, rfl⟩
    exact absent.not_taken own fun refuses => by cases keeps.symm.trans refuses
  | garbled garbles =>
    obtain rfl := master own
    refine Places.withEntry fun steady => ?_
    rcases steady with stocked | absent
    · rw [stocked.keeps] at garbles
      cases garbles
    · exact (absent.not_taken own fun refuses => by cases garbles.symm.trans refuses).elim

end Relations

section Steps

variable {crates : Crates} {access : Access} {inputs : CustodyInputs} {folder : Folder} {key : MasterKey}
  {mint : MasterKey → Prop}

/-- The key that the next one displaces is found first. -/
theorem on_persistentKey :
    On folder (fun found target => target = folder ∧ ∀ old, Displaces access inputs folder old → found = some old)
      (fun _ target => target = folder) (persistentKey access inputs) := by
  refine (on_keychainGet inputs.keychain).andThen (fun _ _ held => held.1) ?_
  rintro state folder ⟨rfl, answered⟩
  have stocked (there : Stocked access inputs) : state = (folder.keychain .master).state := by
    rw [CustodyInputs.keychain, if_pos there.enabled] at answered
    exact answered.of_reaches there.reaches
  have absent (there : Absent access inputs) : state = .unavailable := by
    rcases there.port with port | ⟨port, silent, -⟩
    · rw [port] at answered
      exact answered
    · rw [port] at answered
      exact answered.of_silent silent
  have file : On folder (fun found target => target = folder ∧ ∀ old, Absent access inputs →
        folder.files .master = .key old → found = some old)
      (fun _ target => target = folder) (orNothing (readKeyFile access defaultKeyPaths.master)) := by
    refine (on_orNothing_readKeyFile _).mono ?_ fun _ _ held => held.1
    rintro found _ ⟨rfl, -, reads⟩
    exact ⟨rfl, fun old there held => (reads there.reads).trans (congrArg Held.key? held)⟩
  cases state with
  | key found =>
    refine On.pure ⟨rfl, fun old displaces => ?_⟩
    rcases displaces with ⟨there, held⟩ | ⟨there, -⟩
    · cases held.symm.trans (Held.of_state (stocked there))
      rfl
    · cases absent there
  | empty | corrupt | unavailable =>
    refine file.imp ?_
    rintro found _ ⟨rfl, isFile⟩
    refine ⟨rfl, fun old displaces => ?_⟩
    rcases displaces with ⟨there, held⟩ | ⟨there, held⟩
    · have := stocked there
      rw [held] at this
      cases this
    · exact isFile old there held

/-- A key at hand is seen, as a live one. -/
theorem AtHand.seen {kcv : String} (atHand : AtHand crates access inputs folder kcv)
    {seen : List (KeySourceKind × MasterKey)} (surveyed : Surveyed crates access inputs folder seen) :
    ∃ found ∈ seen, found.1.live = true ∧ kcvHex crates found.2 = kcv := by
  rcases atHand with ⟨key, env, same⟩ | ⟨answers, key, has, same⟩
  · exact ⟨_, surveyed.env key env, rfl, same⟩
  · obtain ⟨kind, member, live⟩ := surveyed.live answers has
    exact ⟨_, member, live, same⟩

/-- The key that is recorded is found where it is at hand. -/
theorem on_recordedCurrentKey :
    On folder (fun found target => target = folder ∧ ∀ record, folder.record = .json record →
        AtHand crates access inputs folder record.kcv → ∃ key, found = some key ∧ kcvHex crates key = record.kcv)
      (fun _ target => target = folder) (recordedCurrentKey crates access inputs) := by
  refine (on_readJson _ _).andThen (fun _ _ held => held.1) ?_
  rintro _ folder ⟨rfl, -, rfl⟩
  cases recorded : folder.record with
  | missing | malformed => exact On.pure ⟨rfl, nofun⟩
  | json record =>
    refine on_candidates.andThen (fun _ _ held => held.1) ?_
    rintro seen folder ⟨rfl, surveyed⟩
    refine On.pure ⟨rfl, ?_⟩
    rintro _ ⟨⟩ atHand
    obtain ⟨found, member, live, same⟩ := atHand.seen surveyed
    have some : (seen.find? fun found => found.1.live && kcvHex crates found.2 = record.kcv).isSome :=
      List.find?_isSome.mpr ⟨found, member, by simp [live, same]⟩
    obtain ⟨first, isFirst⟩ := Option.isSome_iff_exists.mp some
    have own := List.find?_some isFirst
    simp only [Bool.and_eq_true, decide_eq_true_eq] at own
    exact ⟨first.2, congrArg (Option.map (·.2)) isFirst, own.2⟩

/-- Each key is retired, unless it is the one that becomes current. -/
theorem mem_addRetired (key old : MasterKey) (olds : List MasterKey) (toRetire : List MasterKey)
    (member : old ∈ toRetire ∨ old ∈ olds) : old = key ∨ old ∈ addRetired key toRetire olds := by
  induction olds generalizing toRetire with
  | nil => exact Or.inr (member.resolve_right List.not_mem_nil)
  | cons first rest ih =>
    rw [addRetired]
    split
    · next skipped =>
      rcases member with before | member
      · exact ih toRetire (Or.inl before)
      rcases List.mem_cons.mp member with rfl | later
      · exact skipped.elim Or.inl fun already => ih toRetire (Or.inl already)
      · exact ih toRetire (Or.inr later)
    · next added =>
      refine ih (toRetire ++ [first]) ?_
      rcases member with before | member
      · exact Or.inl (List.mem_append_left _ before)
      rcases List.mem_cons.mp member with rfl | later
      · exact Or.inl (List.mem_append_right _ (List.mem_singleton_self _))
      · exact Or.inr later

theorem on_retireAll (keys : List MasterKey) :
    On folder (fun _ target => Retires crates folder target ∧ ∀ key ∈ keys, target.Lists (kcvHex crates key))
      (fun _ target => Retires crates folder target) (retireAll crates access inputs keys) := by
  induction keys generalizing folder with
  | nil => exact On.pure ⟨Retires.refl folder, nofun⟩
  | cons key rest ih =>
    refine (on_retire key _).bind ?_
    rintro entry middle ⟨retires, member, own⟩
    refine ih.mono ?_ fun _ _ more => retires.trans more
    rintro _ target ⟨more, listed⟩
    refine ⟨retires.trans more, fun other isOne => ?_⟩
    rcases List.mem_cons.mp isOne with rfl | later
    · exact ⟨entry, more.keeps.index entry member, own⟩
    · exact listed other later

/-- A keychain that is not there leaves the folder as it was. -/
theorem Absent.untouched (absent : Absent access inputs) {target : Folder} {said : Bool}
    (stored : Stored access key folder inputs.keychain said target) : target = folder := by
  rcases absent.port with port | ⟨-, -, refuses⟩
  · rw [port] at stored
    cases stored
    rfl
  · exact (stored.of_refuses refuses).2

theorem on_storeCurrent :
    On folder (fun _ target => Places access inputs key folder target ∧ target.Has .master defaultKeyPaths key)
      (fun _ target => Places access inputs key folder target) (storeCurrent access inputs key) := by
  have stores : On folder (fun taken middle => Places access inputs key folder middle ∧
        (taken = true → middle.Has .master defaultKeyPaths key) ∧
        (taken = false → Steady access inputs → Absent access inputs) ∧ (Absent access inputs → middle = folder))
      (fun _ target => Places access inputs key folder target)
      (if inputs.keychainEnabled then storeAndCheck access inputs.keychain key else pure false) := by
    refine On.ite (fun enabled => ?_) fun off => ?_
    · have port : inputs.keychain = some .master := if_pos enabled
      refine (on_storeAndCheck _ key).mono (fun taken middle checked => ?_) ?_
      · obtain ⟨said, stored, -⟩ := checked.stored
        refine ⟨stored.places rfl, fun yes => ?_, fun no steady => ?_, fun absent => absent.untouched stored⟩
        · obtain ⟨account, same, held⟩ := checked.held yes
          cases port.symm.trans same
          exact Or.inl held
        · refine steady.resolve_left fun stocked => ?_
          rw [checked.keeps stocked.reaches stocked.keeps _ port] at no
          cases no
      · rintro _ _ (rfl | ⟨said, stored⟩)
        · exact Places.refl _
        · exact stored.places rfl
    · refine On.pure ⟨Places.refl folder, nofun, fun _ steady => ?_, fun _ => rfl⟩
      exact steady.resolve_left fun stocked => off stocked.enabled
  refine stores.bind fun taken middle ⟨places, has, absent, same⟩ => ?_
  refine On.ite (fun yes => On.pure ⟨places, has yes⟩) fun no => ?_
  refine On.failIf_bind (fun _ => places) fun _ => ?_
  refine (on_replaceKeyFile _ _).andThen (fun _ _ kept => kept ▸ places) ?_
  rintro _ _ rfl
  exact On.pure ⟨places.withFile (absent (eq_false_of_ne_true no)) same, Or.inr (Or.inl (Folder.withFile_files ..))⟩

/-- What is stored after what it displaces was retired loses nothing. -/
theorem Places.installs {middle target : Folder} (places : Places access inputs key middle target)
    (retires : Retires crates folder middle)
    (displaced : ∀ old, Displaces access inputs folder old → old = key ∨ middle.Lists (kcvHex crates old)) :
    Installs crates access inputs folder target where
  index entry member := by
    rw [Folder.entries, places.retired]
    exact retires.keeps.index entry member
  sound sound := by
    have kept := retires.keeps.sound sound
    have files (kcv : String) : target.files (.retired kcv) = middle.files (.retired kcv) := places.files _ (by simp)
    refine ⟨places.retired ▸ kept.legible, fun entry member => ?_, fun kcv other held => kept.named kcv other (files kcv ▸ held)⟩
    rw [Folder.entries, places.retired] at member
    obtain ⟨other, material, same⟩ := kept.loads entry member
    refine ⟨other, ?_, same⟩
    rw [← material, Folder.material, Folder.material, places.keychain (.retired entry.kcv) (by simp), files]
  holds steady sound kcv held := by
    have lists {kcv : String} (lists : middle.Lists kcv) : target.Lists kcv :=
      lists.mono fun entry member => by rwa [Folder.entries, places.retired]
    rcases retires.keeps.holds sound kcv held with ⟨old, has, same⟩ | listed
    · rcases places.has steady old has with there | ⟨other, displaces⟩
      · exact Or.inl ⟨old, there, same⟩
      · rw [Displaces, retires.keychain, retires.files .master (by simp)] at displaces
        exact Or.inr (lists (same ▸ (displaced old displaces).resolve_left other))
    · exact Or.inr (lists listed)
  knows _ kcv knows := by
    rcases retires.keeps.knows knows with ⟨record, held, same⟩ | listed
    · exact Or.inl ⟨record, places.record.trans held, same⟩
    · exact Or.inr (listed.mono fun entry member => by rwa [Folder.entries, places.retired])

/-- A record may replace one whose key was retired. -/
theorem Installs.recording {target : Folder} (installs : Installs crates access inputs folder target) {record : KcvRecord}
    (known : Prepared crates access inputs folder → ∀ old, folder.record = .json old →
      old.kcv = record.kcv ∨ target.Lists old.kcv) :
    Installs crates access inputs folder { target with record := .json record } where
  index := installs.index
  sound sound := ⟨(installs.sound sound).legible, (installs.sound sound).loads, (installs.sound sound).named⟩
  holds := installs.holds
  knows prepared kcv knows := by
    rcases knows with ⟨old, held, rfl⟩ | lists
    · exact (known prepared old held).imp (fun same => ⟨record, rfl, same.symm⟩) id
    · exact Or.inr (lists.mono installs.index)

/-- What an adoption or an import that succeeds leaves. -/
structure Installed (crates : Crates) (inputs : CustodyInputs) (target : Folder) (outcome : AdoptOutcome) : Prop where
  recorded : ∃ record, target.record = .json record ∧ record.kcv = outcome.kcv
  kept : ∃ key, Kept crates inputs target key ∧ kcvHex crates key = outcome.kcv

theorem on_installCurrent (extraRetired : List MasterKey) :
    On folder (fun outcome target => Installs crates access inputs folder target ∧ Installed crates inputs target outcome)
      (fun _ target => Installs crates access inputs folder target ∧ target.record = folder.record)
      (installCurrent crates access inputs key extraRetired) := by
  have refl (folder : Folder) : Installs crates access inputs folder folder ∧ folder.record = folder.record :=
    ⟨Installs.refl folder, rfl⟩
  refine on_persistentKey.andThen (fun _ _ same => same ▸ refl _) ?_
  rintro previous folder ⟨rfl, displaced⟩
  refine on_recordedCurrentKey.andThen (fun _ _ same => same ▸ refl _) ?_
  rintro recordedKey folder ⟨rfl, found⟩
  refine on_readRetiredIndex.andThen (fun _ _ held => held.1 ▸ refl _) ?_
  rintro existing folder ⟨rfl, -, rfl⟩
  refine On.failIf_bind (fun _ => refl folder) fun _ => ?_
  refine (on_retireAll _).andThen (fun _ _ retires => ⟨retires.keeps.installs, retires.keeps.record⟩) ?_
  rintro _ middle ⟨retires, listed⟩
  have retired (old : MasterKey) (member : old ∈ previous.toList ++ recordedKey.toList ++ extraRetired) :
      old = key ∨ middle.Lists (kcvHex crates old) :=
    (mem_addRetired key old _ [] (Or.inr member)).imp_right (listed old)
  have displaced (old : MasterKey) (displaces : Displaces access inputs folder old) :
      old = key ∨ middle.Lists (kcvHex crates old) :=
    retired old (by simp [displaced old displaces])
  refine on_storeCurrent.andThen
    (fun _ _ places => ⟨places.installs retires displaced, places.record.trans retires.keeps.record⟩) ?_
  rintro custody target ⟨places, has⟩
  have installs := places.installs retires displaced
  refine (on_writeJson _ _).andThen
    (fun _ _ same => same ▸ ⟨installs, places.record.trans retires.keeps.record⟩) ?_
  rintro _ _ rfl
  refine On.pure ⟨installs.recording fun prepared old held => ?_, ⟨_, rfl, rfl⟩, key, Or.inr (Or.inl ⟨key, has, rfl⟩), rfl⟩
  have lists {kcv : String} (lists : middle.Lists kcv) : target.Lists kcv :=
    lists.mono fun entry member => by rwa [Folder.entries, places.retired]
  rcases prepared old held with before | atHand
  · exact Or.inr (before.mono installs.index)
  · obtain ⟨recorded, rfl, same⟩ := found old held atHand
    rcases retired recorded (by simp) with rfl | listed
    · exact Or.inl same.symm
    · exact Or.inr (lists (same ▸ listed))

theorem on_adoptWith (source : AdoptFrom) (acceptUnreadable : Bool) :
    On folder (fun outcome target => Installs crates access inputs folder target ∧ Installed crates inputs target outcome)
      (fun _ target => Installs crates access inputs folder target ∧ target.record = folder.record)
      (adoptWith crates access inputs source acceptUnreadable) := by
  have candidate : On folder (fun _ target => target = folder) (fun _ target => target = folder)
      (candidateKey crates access inputs source) := by
    refine on_candidates.andThen (fun _ _ held => held.1) ?_
    rintro seen folder ⟨rfl, -⟩
    cases found : seen.find? (fun candidate => decide (candidate.1 = source.kind)) with
    | none => exact On.throw rfl
    | some candidate => exact On.pure rfl
  refine candidate.andThen (fun _ _ same => same ▸ ⟨Installs.refl _, rfl⟩) ?_
  rintro key folder rfl
  refine (on_readJson _ _).andThen (fun _ _ held => held.1 ▸ ⟨Installs.refl _, rfl⟩) ?_
  rintro _ folder ⟨rfl, -, rfl⟩
  exact On.failIf_bind (fun _ => ⟨Installs.refl folder, rfl⟩) fun _ => on_installCurrent []

/-- A key file that is removed while its key is listed. -/
theorem Keeps.dropping {source target : Folder} (keeps : Keeps crates mint source target) {file : KeyFile}
    (slot : file = .master ∨ file = .memory) (held : target.files file = .key key)
    (lists : target.Lists (kcvHex crates key)) : Keeps crates mint source (target.withFile file .nothing) := by
  have vault (kcv : String) : (target.withFile file .nothing).files (.retired kcv) = target.files (.retired kcv) :=
    Folder.withFile_of_ne (by rcases slot with rfl | rfl <;> nofun)
  have old {place : KeyFile} {other : MasterKey} (there : (target.withFile file .nothing).files place = .key other) :
      target.files place = .key other := by
    by_cases same : place = file
    · subst same
      rw [Folder.withFile_files] at there
      cases there
    · rwa [Folder.withFile_of_ne same] at there
  have kept {place : KeyFile} {other : MasterKey} (there : target.files place = .key other) :
      other = key ∨ (target.withFile file .nothing).files place = .key other := by
    by_cases same : place = file
    · subst same
      cases there.symm.trans held
      exact Or.inl rfl
    · exact Or.inr ((Folder.withFile_of_ne same).trans there)
  refine ⟨⟨keeps.index, fun sound => ?_, fun sound kcv before => ?_, fun other has => ?_⟩, keeps.record⟩
  · have there := keeps.sound sound
    refine ⟨there.legible, fun entry member => ?_, fun kcv other held => there.named kcv other (vault kcv ▸ held)⟩
    obtain ⟨other, material, same⟩ := there.loads entry member
    refine ⟨other, ?_, same⟩
    rw [← material, Folder.material, Folder.material, vault]
    rfl
  · rcases keeps.holds sound kcv before with ⟨other, entry | master | legacy, same⟩ | listed
    · exact Or.inl ⟨other, Or.inl entry, same⟩
    · rcases kept master with rfl | there
      · exact Or.inr (same ▸ lists)
      · exact Or.inl ⟨other, Or.inr (Or.inl there), same⟩
    · rcases kept legacy with rfl | there
      · exact Or.inr (same ▸ lists)
      · exact Or.inl ⟨other, Or.inr (Or.inr there), same⟩
    · exact Or.inr listed
  · refine keeps.minted other ?_
    exact has.imp_right fun files => files.imp old old

theorem on_retireWith (mint : MasterKey → Prop) (kcv : String) :
    On folder (fun _ target => Keeps crates mint folder target) (fun _ target => Keeps crates mint folder target)
      (retireWith crates access inputs kcv) := by
  refine (on_readJson _ _).andThen (fun _ _ held => held.1 ▸ Keeps.refl _) ?_
  rintro _ folder ⟨rfl, -, rfl⟩
  refine On.failIf_bind (fun _ => Keeps.refl folder) fun _ => ?_
  refine on_candidates.andThen (fun _ _ held => held.1 ▸ Keeps.refl _) ?_
  rintro seen folder ⟨rfl, surveyed⟩
  have found : On folder (fun found target => target = folder ∧ found ∈ seen)
      (fun _ target => Keeps crates mint folder target)
      (orFail (seen.find? fun found => kcvHex crates found.2 = kcv && found.1.live)
        (.other s!"no candidate key has key check value {kcv}")) :=
    On.orFail (fun _ => Keeps.refl folder) fun found isFound => ⟨rfl, List.mem_of_find?_eq_some isFound⟩
  refine found.bind ?_
  rintro ⟨kind, key⟩ folder ⟨rfl, member⟩
  refine On.failIf_bind (fun _ => Keeps.refl folder) fun _ => ?_
  refine (on_retire key _).andThen (fun _ _ retires => retires.keeps.mono fun _ => False.elim) ?_
  rintro entry middle ⟨retires, listed, own⟩
  have keeps : Keeps crates mint folder middle := retires.keeps.mono fun _ => False.elim
  cases isSlot : kind.slot with
  | none => exact On.pure keeps
  | some file =>
    have slot : file = .master ∨ file = .memory := by
      cases kind with
      | env | keychain | retired => cases isSlot
      | file => exact Or.inl (Option.some.inj isSlot).symm
      | legacyMemory => exact Or.inr (Option.some.inj isSlot).symm
    have held : middle.files file = .key key := by
      rw [retires.files file (by rcases slot with rfl | rfl <;> nofun)]
      exact surveyed.slot _ member file isSlot
    refine (on_orNothing_loadRetired entry).andThen (fun _ _ same => same.1 ▸ keeps) ?_
    rintro loaded middle ⟨rfl, -⟩
    refine On.ite (fun _ => ?_) fun _ => On.pure keeps
    refine (on_removeFile _ _).andThen (fun _ _ same => same ▸ keeps) ?_
    rintro _ _ rfl
    exact On.pure (keeps.dropping slot held ⟨entry, listed, own⟩)

theorem on_retireOthers (current : MasterKey) (keys : List MasterKey) :
    On folder (fun _ target => Retires crates folder target) (fun _ target => Retires crates folder target)
      (retireOthers crates access inputs current keys) := by
  induction keys generalizing folder with
  | nil => exact On.pure (Retires.refl folder)
  | cons key rest ih =>
    refine On.ite (fun _ => ih) fun _ => (on_retire key _).bind ?_
    rintro entry middle ⟨retires, -⟩
    exact ih.mono (fun _ _ more => retires.trans more) fun _ _ more => retires.trans more

theorem on_importWith (current : MasterKey) (retired : List MasterKey) :
    On folder (fun outcome target => Installs crates access inputs folder target ∧
        (folder.Sound crates → Installed crates inputs target outcome))
      (fun _ target => Installs crates access inputs folder target ∧ target.record = folder.record)
      (importWith crates access inputs current retired) := by
  have installs (folder : Folder) : On folder
      (fun outcome target => Installs crates access inputs folder target ∧
        (folder.Sound crates → Installed crates inputs target outcome))
      (fun _ target => Installs crates access inputs folder target ∧ target.record = folder.record)
      (installCurrent crates access inputs current retired) :=
    (on_installCurrent retired).imp fun _ _ held => ⟨held.1, fun _ => held.2⟩
  refine On.failIf_bind (fun _ => ⟨Installs.refl folder, rfl⟩) fun _ => ?_
  refine (on_readJson _ _).andThen (fun _ _ held => held.1 ▸ ⟨Installs.refl _, rfl⟩) ?_
  rintro _ folder ⟨rfl, -, rfl⟩
  cases same : folder.record.value?.filter (fun record => decide (record.kcv = kcvHex crates current)) with
  | none => exact installs folder
  | some record =>
    refine on_candidates.andThen (fun _ _ held => held.1 ▸ ⟨Installs.refl _, rfl⟩) ?_
    rintro seen folder ⟨rfl, surveyed⟩
    refine On.ite (fun _ => installs folder) fun already => ?_
    refine (on_retireOthers current retired).andThen
      (fun _ _ retires => ⟨retires.keeps.installs, retires.keeps.record⟩) ?_
    rintro _ target retires
    obtain ⟨recorded, agrees⟩ := Option.filter_eq_some_iff.mp same
    have isRecord : folder.record = .json record := by
      cases held : folder.record with
      | missing | malformed =>
        rw [held] at recorded
        cases recorded
      | json other =>
        rw [held] at recorded
        cases recorded
        rfl
    obtain ⟨found, member, isCurrent⟩ : ∃ found ∈ seen, found.2 = current := by
      simp only [List.all_eq_true, not_forall] at already
      obtain ⟨found, member, refused⟩ := already
      have both : found.1.current = true ∧ found.2 = current := by simpa using refused
      exact ⟨found, member, both.2⟩
    refine On.pure ⟨retires.keeps.installs, fun sound => ⟨⟨record, retires.keeps.record.trans isRecord, ?_⟩, current, ?_, rfl⟩⟩
    · exact of_decide_eq_true agrees
    · exact retires.keeps.kept sound (isCurrent ▸ surveyed.held found member)

end Steps

end RyuRooms.Custody
