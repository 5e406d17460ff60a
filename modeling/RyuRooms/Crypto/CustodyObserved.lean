import RyuRooms.Crypto.CustodyLadder

/-! # What the keychain answers on the ladder

An app watches what its keychain answers while the ladder asks it. Only `keychainGet` asks the keychain for a key, and
the keychain answers with no other key than the one that the ladder gives.
-/

namespace RyuRooms.Custody

open Foundation Crypto

/-- An action that asks the keychain for no key. -/
def Silent {α : Type} (action : CustodyM α) : Prop :=
  ∀ work, Ends (fun _ target => target.answers = work.answers) (fun _ target => target.answers = work.answers)
    action work

namespace Silent

variable {α β : Type} {action : CustodyM α}

theorem pure (value : α) : Silent (pure value : CustodyM α) := fun _ => rfl

theorem throw (error : CustodyError) : Silent (throw error : CustodyM α) := fun _ => rfl

theorem bind {next : α → CustodyM β} (first : Silent action) (rest : ∀ value, Silent (next value)) :
    Silent (action >>= next) :=
  fun work => (first work).bind fun value middle same =>
    (rest value middle).mono (fun _ _ held => held.trans same) fun _ _ held => held.trans same

theorem get {next : Work → CustodyM α} (rest : ∀ work, Silent (next work)) : Silent (MonadState.get >>= next) :=
  fun work => rest work work

theorem ite {condition : Prop} [Decidable condition] {first second : CustodyM α} (yes : Silent first)
    (no : Silent second) : Silent (if condition then first else second) := by
  split
  · exact yes
  · exact no

theorem failIf {condition : Prop} [Decidable condition] {error : CustodyError} :
    Silent (failIf condition error : CustodyM Unit) := ite (throw error) (pure ())

theorem orFail {value : Option α} {error : CustodyError} : Silent (orFail value error : CustodyM α) := by
  cases value with
  | none => exact throw error
  | some found => exact pure found

theorem attempt (silent : Silent action) : Silent (Custody.attempt action) := by
  intro work
  have ends := silent work
  rw [Ends] at ends ⊢
  cases acted : action work with
  | ok value target =>
    simp only [Custody.attempt, acted] at ends ⊢
    exact ends
  | error error target =>
    cases error <;> simp only [Custody.attempt, acted] at ends ⊢ <;> exact ends

theorem orNothing {action : CustodyM (Option α)} (silent : Silent action) : Silent (orNothing action) := by
  refine silent.attempt.bind fun result => ?_
  cases result with
  | ok value => exact pure value
  | error error => exact pure none

end Silent

section Observed

variable {α : Type} {access : Access} {slot : Slot} {port : Option Account} {paths : KeyPaths} {file : KeyFile}
  {key : MasterKey} {evidence : CustodyM (Option String)} {legacy : Option MasterKey} {allowFile : Bool}

theorem silent_call : Silent (call access) :=
  Silent.get fun _ => Silent.bind (fun _ => rfl) fun _ => Silent.failIf.bind fun _ => Silent.pure _

theorem silent_change (f : Folder → Folder) : Silent (change f) := fun _ => rfl

theorem silent_readKeyFile : Silent (readKeyFile access file) := by
  refine silent_call.bind fun calls => Silent.failIf.bind fun _ => Silent.get fun work => ?_
  cases work.folder.files file with
  | nothing => exact Silent.pure _
  | malformed => exact Silent.throw _
  | key key => exact Silent.pure _

theorem silent_readJson {name : String} {document : Folder → Document α} : Silent (readJson access name document) := by
  refine silent_call.bind fun calls => Silent.failIf.bind fun _ => Silent.get fun work => ?_
  cases document work.folder with
  | missing | json => exact Silent.pure _
  | malformed => exact Silent.throw _

theorem silent_keychainStore : Silent (keychainStore access port key) := by
  cases port with
  | none => exact Silent.pure _
  | some account =>
    refine silent_call.bind fun calls => ?_
    cases access.stores calls with
    | keeps | garbles => exact (silent_change _).bind fun _ => Silent.pure _
    | drops | refuses => exact Silent.pure _

theorem silent_removeFile (error : String) : Silent (removeFile access file error) :=
  silent_call.bind fun _ => Silent.failIf.bind fun _ => silent_change _

theorem silent_writeKeyFile : Silent (writeKeyFile access file key) := by
  refine silent_call.bind fun calls => Silent.failIf.bind fun _ => Silent.get fun work => ?_
  cases work.folder.files file with
  | nothing => exact (silent_change _).bind fun _ => Silent.pure _
  | malformed | key => exact silent_readKeyFile.bind fun _ => Silent.orFail

theorem silent_retireMatchingLegacyKey : Silent (retireMatchingLegacyKey access paths key) := by
  refine silent_readKeyFile.bind fun found => ?_
  cases found with
  | none => exact Silent.pure _
  | some found => exact Silent.ite (Silent.pure _) (silent_removeFile _)

theorem silent_existingOrFresh {existing : Option MasterKey} {refusal : String → String} (silent : Silent evidence) :
    Silent (existingOrFresh existing evidence refusal key) := by
  cases existing with
  | some key => exact Silent.pure _
  | none =>
    refine silent.bind fun found => ?_
    cases found with
    | some reason => exact Silent.throw _
    | none => exact Silent.pure _

theorem silent_fileFallback (silent : Silent evidence) :
    Silent (fileFallback access paths allowFile legacy evidence key) := by
  refine Silent.failIf.bind fun _ => silent_readKeyFile.bind fun found => ?_
  cases found with
  | some key => exact Silent.pure _
  | none => exact (silent_existingOrFresh silent).bind fun _ => silent_writeKeyFile.bind fun _ => Silent.pure _

theorem ends_keychainGet (work : Work) :
    Ends (fun state target => target.answers = state :: work.answers) (fun _ _ => True)
      (keychainGet access port) work := by
  cases port with
  | none => exact Eq.refl (KeychainState.unavailable :: work.answers)
  | some account =>
    refine ((silent_call work).mono (fun _ _ same => same) fun _ _ _ => trivial).bind fun calls middle same => ?_
    exact congrArg (_ :: ·) same

/-- Where the keychain answered so much, an action gives a key beside which the keychain answered with no other. -/
def Gives (seen : List KeychainState) (action : CustodyM (MasterKey × MasterKeySource)) : Prop :=
  ∀ work, work.answers = seen →
    Ends (fun result target => ∀ key, .key key ∈ target.answers → key = result.1) (fun _ _ => True) action work

variable {seen : List KeychainState} {action : CustodyM (MasterKey × MasterKeySource)} {first : CustodyM α}

theorem Silent.gives (silent : Silent action) (unseen : ∀ key, .key key ∉ seen) : Gives seen action := by
  intro work same
  refine (silent work).mono (fun result target kept key member => ?_) fun _ _ _ => trivial
  rw [kept, same] at member
  exact absurd member (unseen key)

theorem Silent.bind_gives {next : α → CustodyM (MasterKey × MasterKeySource)} (silent : Silent first)
    (rest : ∀ value, Gives seen (next value)) : Gives seen (first >>= next) :=
  fun work same => ((silent work).mono (fun _ _ held => held) fun _ _ _ => trivial).bind fun value middle kept =>
    rest value middle (kept.trans same)

theorem Gives.get {next : KeychainState → CustodyM (MasterKey × MasterKeySource)}
    (rest : ∀ state, Gives (state :: seen) (next state)) : Gives seen (keychainGet access port >>= next) := by
  rintro work rfl
  exact (ends_keychainGet work).bind fun state middle kept => rest state middle kept

theorem Gives.pure {result : MasterKey × MasterKeySource} (only : ∀ key, .key key ∈ seen → key = result.1) :
    Gives seen (pure result) := by
  rintro work rfl
  exact only

theorem gives_seedKeychain (silent : Silent evidence) :
    Gives [.empty] (seedKeychain access port paths allowFile legacy evidence key) := by
  refine Silent.bind_gives (Silent.ite silent_readKeyFile (Silent.pure _)) fun fileKey => ?_
  refine (silent_existingOrFresh silent).bind_gives fun key => silent_keychainStore.bind_gives fun said => ?_
  cases said with
  | true =>
    refine Gives.get fun state => ?_
    cases state with
    | corrupt | empty | unavailable => exact (Silent.throw _).gives (by simp)
    | key persisted =>
      by_cases agrees : persisted = key
      · subst agrees
        refine Silent.failIf.bind_gives fun _ => silent_retireMatchingLegacyKey.bind_gives fun _ => Gives.pure ?_
        simp
      · rintro work -
        exact Ends.failIf_bind (fun _ => trivial) fun equal => absurd (not_not.mp equal) agrees
  | false =>
    refine Silent.gives (Silent.failIf.bind fun _ => silent_readKeyFile.bind fun found => ?_) (by simp)
    cases found with
    | some existing => exact Silent.pure _
    | none => exact silent_writeKeyFile.bind fun _ => Silent.pure _

/-- The keychain answered the ladder with no key but the one that it gives. -/
theorem gives_loadMasterKeyGuarded {crates : Crates} {envValue : Option String} (silent : Silent evidence) :
    Gives [] (loadMasterKeyGuarded crates access envValue port paths allowFile evidence key) := by
  cases envValue with
  | some encoded => exact Silent.gives (Silent.orFail.bind fun _ => Silent.pure _) (by simp)
  | none =>
    refine silent_readKeyFile.bind_gives fun legacy => Gives.get fun state => ?_
    cases state with
    | corrupt => exact (Silent.throw _).gives (by simp)
    | unavailable => exact (silent_fileFallback silent).gives (by simp)
    | empty => exact gives_seedKeychain silent
    | key key =>
      refine silent_retireMatchingLegacyKey.bind_gives fun _ => Gives.pure ?_
      simp

end Observed

end RyuRooms.Custody
