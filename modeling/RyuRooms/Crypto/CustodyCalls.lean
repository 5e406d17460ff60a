import RyuRooms.Model.Custody

/-! # What the calls of an operation on keys do

`On` is `Ends` for an operation at any count of its calls, with the folder as all that matters. Each call is described
by what it finds and what it leaves: reading changes nothing, a store takes a key or spoils its entry, and a key file
appears where there was none.
-/

namespace RyuRooms.Custody

open Foundation Crypto

/-- On this folder an action succeeds with `ok` or fails with `bad`. -/
def On {α : Type} (folder : Folder) (ok : α → Folder → Prop) (bad : CustodyError → Folder → Prop)
    (action : CustodyM α) : Prop :=
  ∀ work : Work, work.folder = folder →
    Ends (fun value target => ok value target.folder) (fun error target => bad error target.folder) action work

namespace On

variable {α β : Type} {folder : Folder} {ok other : α → Folder → Prop} {last : β → Folder → Prop}
  {bad worse : CustodyError → Folder → Prop} {action : CustodyM α}

theorem mono (on : On folder ok bad action) (okMono : ∀ value target, ok value target → other value target)
    (badMono : ∀ error target, bad error target → worse error target) : On folder other worse action :=
  fun work same => (on work same).mono (fun value target => okMono value target.folder)
    fun error target => badMono error target.folder

theorem imp (on : On folder ok bad action) (okMono : ∀ value target, ok value target → other value target) :
    On folder other bad action :=
  on.mono okMono fun _ _ held => held

/-- The rest of a sequence starts on the folder that its first action left. -/
theorem bind {next : α → CustodyM β} (on : On folder ok bad action)
    (rest : ∀ value target, ok value target → On target last bad (next value)) : On folder last bad (action >>= next) :=
  fun work same => (on work same).bind fun value middle held => rest value middle.folder held middle rfl

/-- The rest of a sequence, where what holds of a failure of its first action is more than is asked for. -/
theorem andThen {next : α → CustodyM β} (on : On folder ok bad action)
    (failed : ∀ error target, bad error target → worse error target)
    (rest : ∀ value target, ok value target → On target last worse (next value)) :
    On folder last worse (action >>= next) :=
  (on.mono (fun _ _ held => held) failed).bind rest

theorem map {f : α → β} (on : On folder (fun value target => last (f value) target) bad action) :
    On folder last bad (f <$> action) :=
  fun work same => Ends.map (on work same)

theorem pure {value : α} (held : ok value folder) : On folder ok bad (pure value) := by
  rintro work rfl
  exact held

theorem throw {error : CustodyError} (held : bad error folder) : On folder ok bad (throw error) := by
  rintro work rfl
  exact held

theorem orFail {value : Option α} {error : CustodyError} (none : value = none → bad error folder)
    (some : ∀ found, value = some found → ok found folder) : On folder ok bad (orFail value error) := by
  rintro work rfl
  exact Ends.orFail none some

/-- What is checked first fails, or goes on from the same folder. -/
theorem failIf_bind {condition : Prop} [Decidable condition] {error : CustodyError} {next : Unit → CustodyM β}
    (yes : condition → bad error folder) (no : ¬ condition → On folder last bad (next ())) :
    On folder last bad (failIf condition error >>= next) := by
  rintro work rfl
  exact Ends.failIf_bind yes fun refused => no refused work rfl

theorem ite {condition : Prop} [Decidable condition] {first second : CustodyM α}
    (yes : condition → On folder ok bad first) (no : ¬ condition → On folder ok bad second) :
    On folder ok bad (if condition then first else second) := by
  split
  · next taken => exact yes taken
  · next refused => exact no refused

/-- An action that is let fail ends in its result, unless it is killed. -/
theorem attempt {done : Except CustodyError α → Folder → Prop} (on : On folder ok bad action)
    (succeeded : ∀ value target, ok value target → done (.ok value) target)
    (failed : ∀ error target, error ≠ .killed → bad error target → done (.error error) target)
    (killed : ∀ target, bad .killed target → worse .killed target) : On folder done worse (attempt action) := by
  intro work same
  have ends := on work same
  rw [Ends] at ends ⊢
  cases acted : action work with
  | ok value target =>
    simp only [Custody.attempt, acted] at ends ⊢
    exact succeeded value _ ends
  | error error target =>
    cases error with
    | killed =>
      simp only [Custody.attempt, acted] at ends ⊢
      exact killed _ ends
    | mismatch text | other text =>
      simp only [Custody.attempt, acted] at ends ⊢
      exact failed _ _ (by simp) ends

theorem orNothing {action : CustodyM (Option α)} {ok : Option α → Folder → Prop} {done : Option α → Folder → Prop}
    (on : On folder ok bad action) (succeeded : ∀ value target, ok value target → done value target)
    (failed : ∀ error target, error ≠ .killed → bad error target → done none target)
    (killed : ∀ target, bad .killed target → worse .killed target) : On folder done worse (orNothing action) := by
  have attempted : On folder (fun result target => done (result.toOption.getD none) target) worse (Custody.attempt action) :=
    on.attempt succeeded failed killed
  refine attempted.bind fun result target held => ?_
  cases result with
  | ok value => exact On.pure held
  | error error => exact On.pure held

end On

theorem Held.of_key? {held : Held} {key : MasterKey} (found : held.key? = some key) : held = .key key := by
  cases held with
  | nothing | malformed => cases found
  | key other => exact congrArg Held.key (Option.some.inj found)

theorem Held.of_state {held : Held} {key : MasterKey} (answer : .key key = held.state) : held = .key key := by
  cases held with
  | nothing | malformed => cases answer
  | key other =>
    cases answer
    rfl

/-- What a call of the keychain may answer. -/
def Answers (access : Access) (folder : Folder) (state : KeychainState) : Option Account → Prop
  | none => state = .unavailable
  | some account => (state = (folder.keychain account).state ∧ ∃ n, access.reaches n = true) ∨
      state = .unavailable ∧ ∃ n, access.reaches n = false

/-- What may become of a key that is to be stored, and what the keychain says. -/
inductive Stored (access : Access) (key : MasterKey) (folder : Folder) : Option Account → Bool → Folder → Prop
  | disabled : Stored access key folder none false folder
  | kept {account : Account} {n : ℕ} (keeps : access.stores n = .keeps) :
      Stored access key folder (some account) true (folder.withEntry account (.key key))
  | garbled {account : Account} {n : ℕ} (garbles : access.stores n = .garbles) :
      Stored access key folder (some account) true (folder.withEntry account .malformed)
  | dropped {account : Account} {n : ℕ} (drops : access.stores n = .drops) :
      Stored access key folder (some account) true folder
  | refused {account : Account} {n : ℕ} (refuses : access.stores n = .refuses) :
      Stored access key folder (some account) false folder

/-- A folder whose keychain was to store a key: as it was, or with the key or nothing legible in the entry. -/
def Touched (key : MasterKey) (port : Option Account) (source target : Folder) : Prop :=
  target = source ∨ ∃ account held, port = some account ∧ (held = .key key ∨ held = .malformed) ∧
    target = source.withEntry account held

/-- No read of the file system fails. -/
def Access.Reads (access : Access) : Prop := ∀ n, access.readFails n = false

/-- Why a read fails. -/
def Unread (access : Access) (malformed : Prop) (error : CustodyError) : Prop :=
  error = .killed ∨ (∃ n, access.readFails n = true) ∨ malformed

section Answers

variable {access : Access} {folder : Folder} {state : KeychainState} {account : Account} {key : MasterKey}

/-- The key that a keychain answers with is in its entry. -/
theorem Answers.held (answered : Answers access folder (.key key) (some account)) : folder.keychain account = .key key := by
  rcases answered with ⟨answer, -⟩ | ⟨answer, -⟩
  · exact Held.of_state answer
  · cases answer

/-- A keychain that is always there answers with its entry. -/
theorem Answers.of_reaches (answered : Answers access folder state (some account))
    (reaches : ∀ n, access.reaches n = true) : state = (folder.keychain account).state := by
  rcases answered with ⟨answer, -⟩ | ⟨-, n, silent⟩
  · exact answer
  · simp [reaches n] at silent

/-- A keychain that is never there does not answer. -/
theorem Answers.of_silent (answered : Answers access folder state (some account))
    (silent : ∀ n, access.reaches n = false) : state = .unavailable := by
  rcases answered with ⟨-, n, reaches⟩ | ⟨answer, -⟩
  · simp [silent n] at reaches
  · exact answer

end Answers

section Stored

variable {access : Access} {folder target : Folder} {port : Option Account} {account : Account} {key : MasterKey}
  {said : Bool}

theorem Unread.killed {malformed : Prop} {error : CustodyError} (unread : Unread access malformed error)
    (reads : access.Reads) (legible : ¬ malformed) : error = .killed := by
  rcases unread with killed | ⟨n, fails⟩ | held
  · exact killed
  · simp [reads n] at fails
  · exact absurd held legible

theorem Stored.touched (stored : Stored access key folder port said target) : Touched key port folder target := by
  cases stored with
  | kept => exact Or.inr ⟨_, _, rfl, Or.inl rfl, rfl⟩
  | garbled => exact Or.inr ⟨_, _, rfl, Or.inr rfl, rfl⟩
  | disabled | dropped | refused => exact Or.inl rfl

theorem Stored.of_keeps (stored : Stored access key folder (some account) said target)
    (keeps : ∀ n, access.stores n = .keeps) : said = true ∧ target = folder.withEntry account (.key key) := by
  cases stored with
  | kept => exact ⟨rfl, rfl⟩
  | garbled other | dropped other | refused other => simp [keeps] at other

theorem Stored.of_refuses (stored : Stored access key folder port said target)
    (refuses : ∀ n, access.stores n = .refuses) : said = false ∧ target = folder := by
  cases stored with
  | kept other | garbled other | dropped other => simp [refuses] at other
  | disabled | refused => exact ⟨rfl, rfl⟩

theorem Touched.refl : Touched key port folder folder := Or.inl rfl

end Stored

section Calls

variable {access : Access} {folder : Folder} {α : Type}

theorem on_call : On folder (fun _ target => target = folder) (fun error target => target = folder ∧ error = .killed)
    (call access) := by
  intro work same
  refine Ends.get_bind ?_
  exact Ends.failIf_bind (fun _ => ⟨same, rfl⟩) fun _ => same

theorem on_folder {next : Work → CustodyM α} {ok : α → Folder → Prop} {bad : CustodyError → Folder → Prop}
    (rest : ∀ work : Work, work.folder = folder → On folder ok bad (next work)) : On folder ok bad (get >>= next) :=
  fun work same => Ends.get_bind (rest work same work same)

theorem on_change (f : Folder → Folder) {bad : CustodyError → Folder → Prop} :
    On folder (fun _ target => target = f folder) bad (change f) := by
  rintro work rfl
  exact Eq.refl (f work.folder)

theorem on_answer (state : KeychainState) {bad : CustodyError → Folder → Prop} :
    On folder (fun value target => target = folder ∧ value = state) bad (answer state) :=
  fun _ same => ⟨same, rfl⟩

theorem on_keychainGet (port : Option Account) :
    On folder (fun state target => target = folder ∧ Answers access folder state port)
      (fun error target => target = folder ∧ error = .killed) (keychainGet access port) := by
  cases port with
  | none => exact (on_answer _).imp fun _ _ held => held
  | some account =>
    refine on_call.bind ?_
    rintro calls folder rfl
    refine on_folder fun work same => ?_
    refine (on_answer _).imp ?_
    rintro _ _ ⟨rfl, rfl⟩
    cases reaches : access.reaches calls with
    | true => exact ⟨rfl, Or.inl ⟨by rw [same]; rfl, calls, reaches⟩⟩
    | false => exact ⟨rfl, Or.inr ⟨rfl, calls, reaches⟩⟩

theorem on_keychainStore (port : Option Account) (key : MasterKey) :
    On folder (fun said target => Stored access key folder port said target)
      (fun error target => target = folder ∧ error = .killed) (keychainStore access port key) := by
  cases port with
  | none => exact On.pure .disabled
  | some account =>
    refine on_call.bind ?_
    rintro calls folder rfl
    cases effect : access.stores calls with
    | keeps =>
      refine (on_change _).bind ?_
      rintro _ _ rfl
      exact On.pure (.kept effect)
    | garbles =>
      refine (on_change _).bind ?_
      rintro _ _ rfl
      exact On.pure (.garbled effect)
    | drops => exact On.pure (.dropped effect)
    | refuses => exact On.pure (.refused effect)

theorem on_readKeyFile (file : KeyFile) :
    On folder (fun found target => target = folder ∧ found = (folder.files file).key?)
      (fun error target => target = folder ∧ Unread access (folder.files file = .malformed) error)
      (readKeyFile access file) := by
  refine on_call.andThen (fun _ _ held => ⟨held.1, Or.inl held.2⟩) ?_
  rintro calls folder rfl
  refine On.failIf_bind (fun fails => ⟨rfl, Or.inr (Or.inl ⟨calls, fails⟩)⟩) fun _ => ?_
  refine on_folder fun work same => ?_
  rw [same]
  cases held : folder.files file with
  | nothing => exact On.pure ⟨rfl, rfl⟩
  | malformed => exact On.throw ⟨rfl, Or.inr (Or.inr rfl)⟩
  | key key => exact On.pure ⟨rfl, rfl⟩

/-- What is read of a key file by an operation that goes on without it. -/
theorem on_orNothing_readKeyFile (file : KeyFile) :
    On folder (fun found target => target = folder ∧ (∀ key ∈ found, folder.files file = .key key) ∧
        (access.Reads → found = (folder.files file).key?))
      (fun error target => target = folder ∧ error = .killed) (orNothing (readKeyFile access file)) := by
  refine (on_readKeyFile file).orNothing ?_ ?_ fun _ held => ⟨held.1, rfl⟩
  · rintro _ _ ⟨rfl, rfl⟩
    exact ⟨rfl, fun key member => Held.of_key? member, fun _ => rfl⟩
  · rintro error _ alive ⟨rfl, unread⟩
    refine ⟨rfl, nofun, fun reads => ?_⟩
    have malformed := not_not.mp fun legible => alive (unread.killed reads legible)
    rw [malformed]
    rfl

theorem on_writeKeyFile (file : KeyFile) (key : MasterKey) :
    On folder (fun found target =>
        folder.files file = .nothing ∧ found = key ∧ target = folder.withFile file (.key key) ∨
          folder.files file = .key found ∧ target = folder)
      (fun _ target => target = folder) (writeKeyFile access file key) := by
  have again (error : CustodyError) : On folder (fun found target =>
        folder.files file = .nothing ∧ found = key ∧ target = folder.withFile file (.key key) ∨
          folder.files file = .key found ∧ target = folder)
      (fun _ target => target = folder) (do
        let found ← readKeyFile access file
        orFail found error) := by
    refine (on_readKeyFile file).andThen (fun _ _ held => held.1) ?_
    rintro _ _ ⟨rfl, rfl⟩
    exact On.orFail (fun _ => rfl) fun found isFound => Or.inr ⟨Held.of_key? isFound, rfl⟩
  refine on_call.andThen (fun _ _ held => held.1) ?_
  rintro calls folder rfl
  refine On.failIf_bind (fun _ => rfl) fun _ => ?_
  refine on_folder fun work same => ?_
  rw [same]
  cases held : folder.files file with
  | nothing =>
    refine (on_change _).bind ?_
    rintro _ _ rfl
    exact On.pure (Or.inl ⟨rfl, rfl, rfl⟩)
  | malformed | key =>
    have reads := again (.other s!"master key {file.path access.dir} vanished after another process created it")
    rwa [held] at reads

/-- What is written at the next call, unless that fails. -/
theorem on_write {error : CustodyError} (f : Folder → Folder) :
    On folder (fun _ target => target = f folder) (fun _ target => target = folder) (do
      let calls ← call access
      failIf (access.writeFails calls) error
      change f) := by
  refine on_call.andThen (fun _ _ held => held.1) ?_
  rintro calls folder rfl
  exact On.failIf_bind (fun _ => rfl) fun _ => on_change f

theorem on_removeFile (file : KeyFile) (error : String) :
    On folder (fun _ target => target = folder.withFile file .nothing) (fun _ target => target = folder)
      (removeFile access file error) := on_write fun folder => folder.withFile file .nothing

theorem on_replaceKeyFile (file : KeyFile) (key : MasterKey) :
    On folder (fun _ target => target = folder.withFile file (.key key)) (fun _ target => target = folder)
      (replaceKeyFile access file key) := on_write fun folder => folder.withFile file (.key key)

theorem on_writeJson (name : String) (write : Folder → Folder) :
    On folder (fun _ target => target = write folder) (fun _ target => target = folder)
      (writeJson access name write) := on_write write

theorem on_readJson (name : String) (document : Folder → Document α) :
    On folder (fun found target => target = folder ∧ document folder ≠ .malformed ∧ found = (document folder).value?)
      (fun error target => target = folder ∧ Unread access (document folder = .malformed) error)
      (readJson access name document) := by
  refine on_call.andThen (fun _ _ held => ⟨held.1, Or.inl held.2⟩) ?_
  rintro calls folder rfl
  refine On.failIf_bind (fun fails => ⟨rfl, Or.inr (Or.inl ⟨calls, fails⟩)⟩) fun _ => ?_
  refine on_folder fun work same => ?_
  rw [same]
  cases held : document folder with
  | missing => exact On.pure ⟨rfl, nofun, rfl⟩
  | malformed => exact On.throw ⟨rfl, Or.inr (Or.inr rfl)⟩
  | json value => exact On.pure ⟨rfl, nofun, rfl⟩

theorem on_readRetiredIndex :
    On folder (fun index target => target = folder ∧ folder.retired ≠ .malformed ∧ index = folder.entries)
      (fun error target => target = folder ∧ Unread access (folder.retired = .malformed) error)
      (readRetiredIndex access) := by
  refine (on_readJson _ _).bind ?_
  rintro _ _ ⟨rfl, legible, rfl⟩
  exact On.pure ⟨rfl, legible, rfl⟩

end Calls

end RyuRooms.Custody
