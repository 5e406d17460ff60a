import RyuRooms.Foundation.Ends
import RyuRooms.Model.CryptoSample
import RyuRooms.Model.PluginKeys

/-! # One key for a standalone data directory

Once a pin exists no launch changes it, and a launch outside Core returns only the key that the pin names.
A root is generated only into a directory without a root and without a pin, so a lost root is an error as
long as its pin is there.
-/

namespace RyuRooms.Crypto

open Foundation

variable {crates : Crates} {secrets : String} {launch : Launch} {source : SecretsFiles}

/-- The pin names this key check value. -/
def SecretsFiles.Pins (files : SecretsFiles) (kcv : String) : Prop :=
  ∃ value, files.pin = some (.json value) ∧ pinnedKcv value = some kcv

/-- What a launch may do to the files: a pin stays, and a root appears only where there is neither. -/
structure Advances (source target : SecretsFiles) : Prop where
  pin : source.pin.isSome → target.pin = source.pin
  root : target.root ≠ source.root → source.root = none ∧ source.pin = none

theorem Advances.refl (files : SecretsFiles) : Advances files files := ⟨fun _ => rfl, fun moved => absurd rfl moved⟩

theorem Advances.trans {first middle last : SecretsFiles} (left : Advances first middle)
    (right : Advances middle last) : Advances first last := by
  constructor
  · intro pinned
    have same := left.pin pinned
    exact (right.pin (same ▸ pinned)).trans same
  · intro moved
    by_cases same : middle.root = first.root
    · obtain ⟨rootless, unpinned⟩ := right.root (same ▸ moved)
      refine ⟨same ▸ rootless, ?_⟩
      by_contra pinned
      have kept := left.pin (Option.isSome_iff_ne_none.mpr pinned)
      exact pinned (kept ▸ unpinned)
    · exact left.root same

/-- What a pin is written as names the key check value. -/
@[simp] theorem pinnedKcv_pinBody (kcv source : String) : pinnedKcv (pinBody kcv source) = some kcv := by
  have first : "kcv" ≤ "source" := by decide +kernel
  have second : ¬ "v" ≤ "kcv" := by decide +kernel
  simp [pinBody, Json.object, pinnedKcv, first, second]

theorem ends_readStandaloneKcv (path : String) :
    Ends (fun found target => target = source ∧ (∀ kcv, found = some kcv → source.Pins kcv) ∧
        (found = none → source.pin = none)) (fun _ target => target = source) (readStandaloneKcv path) source := by
  unfold readStandaloneKcv
  apply Ends.get_bind
  cases held : source.pin with
  | none => exact ⟨rfl, fun kcv found => (by cases found), fun _ => rfl⟩
  | some file =>
    cases file with
    | unreadable => rfl
    | notJson => rfl
    | json parsed =>
      simp only
      cases pinned : pinnedKcv parsed with
      | none => rfl
      | some kcv =>
        refine (Ends.of_readOnly (ReadOnly.failIf _ _)).bind ?_
        rintro _ target (rfl : target = source)
        refine ⟨rfl, fun other found => ?_, fun missing => by cases missing⟩
        cases found
        exact ⟨parsed, held, pinned⟩

theorem ends_createPrivateDir (fault : Option String) :
    Ends (fun _ target => target = source) (fun _ target => target = source) (createPrivateDir fault) source := by
  unfold createPrivateDir
  split <;> rfl

/-- A pin is recorded where there is none, and checked where there is one. -/
theorem ends_pinStandaloneKcv (faults : WriteFaults) (kcv from_ : String) :
    Ends (fun _ target => Advances source target ∧ target.Pins kcv) (fun _ target => target = source)
      (pinStandaloneKcv secrets faults kcv from_) source := by
  unfold pinStandaloneKcv
  refine (ends_readStandaloneKcv _).bind ?_
  rintro found target ⟨rfl, names, missing⟩
  cases found with
  | some recorded =>
    apply Ends.failIf
    · intro _
      rfl
    · intro same
      rw [not_not] at same
      exact ⟨Advances.refl target, same ▸ names recorded rfl⟩
  | none =>
    have free := missing rfl
    refine (ends_createPrivateDir _).bind ?_
    rintro _ middle (rfl : middle = target)
    unfold writePin
    split
    · rfl
    · refine ⟨⟨fun pinned => ?_, fun moved => absurd rfl moved⟩, _, rfl, pinnedKcv_pinBody kcv from_⟩
      rw [free] at pinned
      cases pinned

theorem ends_writeNewRoot (path : String) (fault : Option (String × Option ℕ)) (bytes : Bytes)
    (free : source.root = none) (unpinned : source.pin = none) :
    Ends (fun _ target => target = { source with root := some bytes }) (fun _ target => Advances source target)
      (writeNewRoot path fault bytes) source := by
  have moved (files : SecretsFiles) (pin : files.pin = source.pin) : Advances source files :=
    ⟨fun _ => pin, fun _ => ⟨free, unpinned⟩⟩
  unfold writeNewRoot
  apply Ends.get_bind
  have opened : Ends (fun _ target => target = source) (fun _ target => Advances source target)
      (failIf (source.root.isSome) s!"creating {path}") source :=
    Ends.failIf (fun _ => Advances.refl source) fun _ => rfl
  refine opened.bind ?_
  rintro _ target (rfl : target = source)
  split
  · exact Advances.refl target
  · exact moved _ rfl
  · rfl

theorem readOnly_decodeRoot (path : String) (bytes : Bytes) : ReadOnly (decodeRoot crates path bytes) :=
  (ReadOnly.orFail _ _).bind fun _ => (ReadOnly.orFail _ _).bind fun _ =>
    (ReadOnly.failIf _ _).bind fun _ => ReadOnly.pure _

/-- A root is read where there is one, and generated only where there is neither a root nor a pin. -/
theorem ends_loadOrCreateStandaloneRoot :
    Ends (fun _ target => Advances source target) (fun _ target => Advances source target)
      (loadOrCreateStandaloneRoot crates secrets launch) source := by
  unfold loadOrCreateStandaloneRoot
  apply Ends.get_bind
  cases held : source.root with
  | some bytes =>
    apply (Ends.of_readOnly (readOnly_decodeRoot _ bytes)).mono
    · rintro _ target rfl
      exact Advances.refl target
    · rintro _ target rfl
      exact Advances.refl target
  | none =>
    apply Ends.get_bind
    have checked (error : String) : Ends (fun _ target => target = source ∧ source.pin = none)
        (fun _ target => Advances source target) (failIf (source.pin.isSome) error) source :=
      Ends.failIf (fun _ => Advances.refl source) fun unpinned => ⟨rfl, by simpa using unpinned⟩
    refine (checked _).bind ?_
    rintro _ target ⟨rfl, unpinned⟩
    refine ((ends_createPrivateDir _).mono (fun _ _ same => same) fun _ _ same => ?_).bind ?_
    · exact same ▸ Advances.refl target
    · rintro _ middle (rfl : middle = target)
      refine (ends_writeNewRoot _ _ _ held unpinned).bind ?_
      rintro _ written rfl
      exact ⟨fun _ => rfl, fun _ => ⟨held, unpinned⟩⟩

/-- A launch outside Core without a delivered key. -/
def Launch.Outside (launch : Launch) : Prop := launch.delivered = false ∧ launch.underCore = false

/-- A launch outside Core that succeeds leaves its own key pinned. -/
theorem ends_resolveWith :
    Ends (fun keys target => Advances source target ∧
        (launch.Outside → ∃ cipher, keys.cipher = some cipher ∧ target.Pins (cipher.kcv crates)))
      (fun _ target => Advances source target) (resolveWith crates secrets launch) source := by
  have quiet : ReadOnly (returnExcept launch.processCipher : KeyCall PluginCipher) := ReadOnly.returnExcept _
  have pinned (middle : SecretsFiles) (advanced : Advances source middle) (cipher : PluginCipher) (from_ : String)
      (keySource : KeySource) :
      Ends (fun (keys : PluginKeys) target => Advances source target ∧
          (launch.Outside → ∃ cipher, keys.cipher = some cipher ∧ target.Pins (cipher.kcv crates)))
        (fun _ target => Advances source target)
        (do
          pinStandaloneKcv secrets launch.faults (cipher.kcv crates) from_
          return PluginKeys.sealing cipher keySource) middle := by
    refine ((ends_pinStandaloneKcv _ _ _).mono (fun _ _ held => held) fun _ _ same => same ▸ advanced).bind ?_
    rintro _ target ⟨further, names⟩
    exact ⟨advanced.trans further, fun _ => ⟨cipher, rfl, names⟩⟩
  unfold resolveWith
  apply Ends.ite
  · intro delivered
    refine ((Ends.of_readOnly quiet).mono (fun _ _ same => same) fun _ _ same => same ▸ Advances.refl source).bind ?_
    rintro cipher _ rfl
    refine ⟨Advances.refl _, fun outside => ?_⟩
    rw [outside.1] at delivered
    cases delivered
  · intro _
    apply Ends.ite
    · intro _
      refine ((Ends.of_readOnly quiet).mono (fun _ _ same => same) fun _ _ same => same ▸ Advances.refl source).bind ?_
      rintro cipher _ rfl
      apply Ends.ite
      · intro underCore
        refine ⟨Advances.refl _, fun outside => ?_⟩
        rw [outside.2] at underCore
        cases underCore
      · intro _
        apply Ends.get_bind
        refine ((Ends.of_readOnly (ReadOnly.failIf _ _)).mono (fun _ _ same => same)
          fun _ _ same => same ▸ Advances.refl _).bind ?_
        rintro _ _ rfl
        exact pinned _ (Advances.refl _) cipher _ _
    · intro _
      apply Ends.ite
      · intro underCore
        refine ⟨Advances.refl _, fun outside => ?_⟩
        rw [outside.2] at underCore
        cases underCore
      · intro _
        refine ends_loadOrCreateStandaloneRoot.bind ?_
        intro root middle advanced
        refine ((Ends.of_readOnly (ReadOnly.returnExcept _)).mono (fun _ _ same => same)
          fun _ _ same => same ▸ advanced).bind ?_
        rintro cipher _ rfl
        exact pinned _ advanced cipher _ _

/-- However a launch ends, it changes the files only as `Advances` allows. -/
theorem advances_resolveWith : Advances source (outcome (resolveWith crates secrets launch) source).2 := by
  have ends : Ends (fun _ target => Advances source target) (fun _ target => Advances source target)
      (resolveWith crates secrets launch) source := ends_resolveWith.imp fun _ _ held => held.1
  cases acted : resolveWith crates secrets launch source with
  | ok keys target =>
    rw [outcome_ok_iff.mpr acted]
    exact ends.of_ok acted
  | error error target =>
    rw [outcome_error_iff.mpr acted]
    exact ends.of_error acted

/-- A standalone launch that finds a pin without a root fails and changes nothing. -/
theorem refused_of_rootless (outside : launch.Outside) (hasMaster : launch.hasMaster = false)
    (rootless : source.root = none) (pinned : source.pin ≠ none) :
    ∃ error, resolveWith crates secrets launch source = .error error source := by
  have missing : Ends (fun _ _ => False) (fun _ target => target = source)
      (loadOrCreateStandaloneRoot crates secrets launch) source := by
    unfold loadOrCreateStandaloneRoot
    apply Ends.get_bind
    rw [rootless]
    apply Ends.get_bind
    have refused (error : String) : Ends (fun _ _ => False) (fun _ target => target = source)
        (failIf (source.pin.isSome) error) source :=
      Ends.failIf (fun _ => rfl) fun unpinned => unpinned (Option.isSome_iff_ne_none.mpr pinned)
    exact (refused _).bind fun _ _ impossible => impossible.elim
  have ends : Ends (fun _ _ => False) (fun _ target => target = source) (resolveWith crates secrets launch) source := by
    unfold resolveWith
    rw [outside.1, outside.2, hasMaster]
    exact missing.bind fun _ _ impossible => impossible.elim
  cases acted : resolveWith crates secrets launch source with
  | ok keys target => exact (ends.of_ok acted).elim
  | error error target =>
    obtain rfl := ends.of_error acted
    exact ⟨error, rfl⟩

/-- What happens to a standalone data directory: a launch, or the root file deleted from outside. -/
inductive DirectoryEvent where
  | launch (launch : Launch)
  | loseRoot

variable (crates secrets)

/-- A data directory, whatever it holds at first. -/
def dataDirectory : Machine SecretsFiles DirectoryEvent where
  Initial _ := True
  step? files
    | .launch launch => some (outcome (resolveWith crates secrets launch) files).2
    | .loseRoot => some { files with root := none }

/-- A pin stays through launches and through the loss of the root. -/
theorem pin_of_path {source target : SecretsFiles} {events : List DirectoryEvent}
    (path : (dataDirectory crates secrets).Path source events target) {pin : PinFile}
    (pinned : source.pin = some pin) : target.pin = some pin := by
  apply path.invariant fun files => files.pin = some pin
  · exact pinned
  · intro files event next held step
    cases event with
    | loseRoot =>
      cases step
      exact held
    | launch launch =>
      have advanced : Advances files next := by
        rw [← Option.some.inj step]
        exact advances_resolveWith
      rw [advanced.pin (by rw [held]; rfl), held]

/-- Two launches outside Core that succeed on one data directory, with anything between them, return keys
with one check value; a root appears only where there was neither a root nor a pin; and a standalone launch that
finds a pin without a root fails and changes nothing. -/
theorem resolveWith_one_key :
    (∀ (first second : Launch) (events : List DirectoryEvent) (keys others : PluginKeys)
      (source middle later target : SecretsFiles), first.Outside → second.Outside →
      resolveWith crates secrets first source = .ok keys middle →
      (dataDirectory crates secrets).Path middle events later →
      resolveWith crates secrets second later = .ok others target →
      ∃ cipher other, keys.cipher = some cipher ∧ others.cipher = some other ∧
        cipher.kcv crates = other.kcv crates) ∧
    (∀ (launch : Launch) (source : SecretsFiles),
      (outcome (resolveWith crates secrets launch) source).2.root ≠ source.root →
      source.root = none ∧ source.pin = none) ∧
    (∀ (launch : Launch) (source : SecretsFiles), launch.Outside → launch.hasMaster = false →
      source.root = none → source.pin ≠ none →
      ∃ error, resolveWith crates secrets launch source = .error error source) := by
  refine ⟨?_, fun launch source => advances_resolveWith.root, ?_⟩
  · intro first second events keys others source middle later target outside also resolved path again
    obtain ⟨-, pins⟩ := ends_resolveWith.of_ok resolved
    obtain ⟨cipher, held, value, pinned, named⟩ := pins outside
    obtain ⟨advanced, pinsAgain⟩ := ends_resolveWith.of_ok again
    obtain ⟨other, heldOther, valueOther, pinnedOther, namedOther⟩ := pinsAgain also
    have kept := pin_of_path crates secrets path pinned
    have same := advanced.pin (by rw [kept]; rfl)
    rw [kept, pinnedOther] at same
    cases same
    exact ⟨cipher, other, held, heldOther, Option.some.inj (named.symm.trans namedOther)⟩
  · intro launch source outside hasMaster rootless pinned
    exact refused_of_rootless outside hasMaster rootless pinned

/-- A standalone launch of a plugin, whose writes all succeed. -/
def Sample.standalone : Launch :=
  ⟨"mail", false, false, false, .error "no key", ⟨List.replicate 32 7, rfl⟩, ⟨none, none, none, none⟩⟩

/-- The same plugin, with a master key from which its subkey is the lost root. -/
def Sample.mastered : Launch := { Sample.standalone with
  hasMaster := true
  processCipher := .ok ⟨"mail", List.replicate 32 7, []⟩ }

/-- A first launch makes a root and pins it; the root is lost, a standalone launch refuses to make another, and a
master key for the same subkey is accepted. -/
theorem resolveWith_one_key_sample : ∃ keys others middle target error,
    resolveWith Sample.crates "secrets" Sample.standalone ⟨none, none⟩ = .ok keys middle ∧
      resolveWith Sample.crates "secrets" Sample.standalone { middle with root := none } =
        .error error { middle with root := none } ∧
      resolveWith Sample.crates "secrets" Sample.mastered { middle with root := none } = .ok others target ∧
      ∃ cipher other, keys.cipher = some cipher ∧ others.cipher = some other ∧
        cipher.kcv Sample.crates = other.kcv Sample.crates := by
  obtain ⟨keys, middle, resolved, pinned, again⟩ : ∃ keys middle,
      resolveWith Sample.crates "secrets" Sample.standalone ⟨none, none⟩ = .ok keys middle ∧ middle.pin.isSome ∧
        (outcome (resolveWith Sample.crates "secrets" Sample.mastered) { middle with root := none }).1.isOk := by
    have succeeds : (outcome (resolveWith Sample.crates "secrets" Sample.standalone) ⟨none, none⟩).1.isOk := by
      decide +kernel
    obtain ⟨keys, resolved⟩ := exists_ok_of_isOk succeeds
    exact ⟨keys, _, resolved, by decide +kernel, by decide +kernel⟩
  obtain ⟨others, resolvedAgain⟩ := exists_ok_of_isOk again
  have path : (dataDirectory Sample.crates "secrets").Path middle [.loseRoot] { middle with root := none } := rfl
  obtain ⟨agree, -, lost⟩ := resolveWith_one_key Sample.crates "secrets"
  obtain ⟨error, refused⟩ := lost Sample.standalone { middle with root := none } ⟨rfl, rfl⟩ rfl rfl
    (Option.isSome_iff_ne_none.mp pinned)
  exact ⟨keys, others, middle, _, error, resolved, refused, resolvedAgain,
    agree _ _ _ _ _ _ _ _ _ ⟨rfl, rfl⟩ ⟨rfl, rfl⟩ resolved path resolvedAgain⟩

end RyuRooms.Crypto
