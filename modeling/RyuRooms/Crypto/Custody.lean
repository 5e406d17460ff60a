import RyuRooms.Crypto.CustodyInstall
import RyuRooms.Foundation.Machine
import RyuRooms.Model.CryptoSample

/-! # The custody of a data folder over its life

Hosts come and go, each with its environment and its keychain, and resolve, adopt, retire or import keys; any call of
an operation may fail, and an operation may be killed at any of them. Whatever they do, the current key of a folder is
what was recorded, every key that was current can still be opened with, and a launch finds the recorded key again.
-/

namespace RyuRooms.Custody

open Foundation Crypto

/-- What is done to the keys of a folder. -/
inductive CustodyCall where
  | resolve
  | adopt (source : AdoptFrom) (acceptUnreadable : Bool)
  | retire (kcv : String)
  | import_ (current : MasterKey) (retired : List MasterKey)

inductive CustodyAnswer where
  | resolved (resolution : Resolution)
  | installed (outcome : AdoptOutcome)
  | retired (entry : RetiredEntry)

namespace CustodyCall

/-- Whether another key may become current. -/
def installs : CustodyCall → Bool
  | resolve | retire _ => false
  | adopt .. | import_ .. => true

def perform (crates : Crates) (access : Access) (inputs : CustodyInputs) : CustodyCall → CustodyM CustodyAnswer
  | resolve => .resolved <$> Custody.resolve crates access inputs
  | adopt source acceptUnreadable => .installed <$> adoptWith crates access inputs source acceptUnreadable
  | retire kcv => .retired <$> retireWith crates access inputs kcv
  | import_ current retired => .installed <$> importWith crates access inputs current retired

end CustodyCall

/-- The check value of the key that an answer makes current. -/
def CustodyAnswer.current (crates : Crates) : CustodyAnswer → Option String
  | resolved resolution => some (kcvHex crates resolution.key)
  | installed outcome => some outcome.kcv
  | retired _ => none

/-- One operation of a host on the folder. -/
structure CustodyOperation where
  host : CryptoHost
  access : Access
  call : CustodyCall

/-- What an operation answers, and the folder that it leaves. -/
def CustodyOperation.result (crates : Crates) (operation : CustodyOperation) (folder : Folder) :
    Except CustodyError CustodyAnswer × Folder :=
  match operation.host.inputs with
  | .error error => (.error error, folder)
  | .ok inputs =>
    match operation.call.perform crates operation.access inputs ⟨folder, 0, []⟩ with
    | .ok answer work => (.ok answer, work.folder)
    | .error error work => (.error error, work.folder)

/-- A data folder from its first launch on: nothing is recorded, and nothing retired. -/
def custodyMachine (crates : Crates) : Machine Folder CustodyOperation where
  Initial folder := folder.record = .missing ∧ folder.retired = .missing ∧ ∀ kcv, folder.files (.retired kcv) = .nothing
  step? folder operation := some (operation.result crates folder).2

/-- What a step does to a folder. -/
structure Stepped (crates : Crates) (access : Access) (inputs : CustodyInputs) (call : CustodyCall)
    (source target : Folder) : Prop where
  index : ∀ entry ∈ source.entries, entry ∈ target.entries
  sound : source.Sound crates → target.Sound crates
  holds : (call.installs = true → Steady access inputs) → source.Sound crates →
    ∀ kcv, source.Holds crates kcv → target.Holds crates kcv
  knows : (call.installs = true → Prepared crates access inputs source) → ∀ kcv, source.Knows kcv → target.Knows kcv
  record : call.installs = false → ∀ record, source.record = .json record → target.record = .json record
  minted : call.installs = false → ∀ key, target.Has .master defaultKeyPaths key →
    source.Has .master defaultKeyPaths key ∨ Mints access inputs source key
  named : source.Sound crates → ∀ record, target.record = .json record →
    source.record = .json record ∨ ∃ key, Kept crates inputs target key ∧ kcvHex crates key = record.kcv

/-- What an answer says of a folder. -/
structure Told (crates : Crates) (access : Access) (inputs : CustodyInputs) (call : CustodyCall) (source target : Folder)
    (answer : CustodyAnswer) : Prop where
  kept : source.Sound crates → ∀ kcv, answer.current crates = some kcv →
    ∃ key, Kept crates inputs target key ∧ kcvHex crates key = kcv
  recorded : source.Sound crates → call.installs = true ∨ inputs.recordsKcv = true →
    ∀ kcv, answer.current crates = some kcv → ∃ record, target.record = .json record ∧ record.kcv = kcv
  resolved : ∀ resolution, answer = .resolved resolution → Resolved crates access inputs source target resolution
  launched : call = .resolve → ∃ resolution, answer = .resolved resolution

section Steps

variable {crates : Crates} {access : Access} {inputs : CustodyInputs} {call : CustodyCall} {source target folder : Folder}

theorem Keeps.stepped (keeps : Keeps crates (Mints access inputs source) source target) :
    Stepped crates access inputs call source target where
  index := keeps.index
  sound := keeps.sound
  holds _ := keeps.holds
  knows _ _ := keeps.knows
  record _ _ held := keeps.record.trans held
  minted _ := keeps.minted
  named _ _ held := Or.inl (keeps.record ▸ held)

theorem Installs.stepped (installs : Installs crates access inputs source target) (installing : call.installs = true)
    (named : source.Sound crates → ∀ record, target.record = .json record →
      source.record = .json record ∨ ∃ key, Kept crates inputs target key ∧ kcvHex crates key = record.kcv) :
    Stepped crates access inputs call source target where
  index := installs.index
  sound := installs.sound
  holds steady := installs.holds (steady installing)
  knows prepared := installs.knows (prepared installing)
  record quiet := by simp [installing] at quiet
  minted quiet := by simp [installing] at quiet
  named := named

theorem Resolved.stepped {resolution : Resolution} (resolved : Resolved crates access inputs source target resolution)
    (grows : Grows crates (Mints access inputs source) source target) :
    Stepped crates access inputs .resolve source target where
  index := grows.index
  sound := grows.sound
  holds _ := grows.holds
  minted _ := grows.minted
  record _ record held := by
    rcases resolved.record with ⟨same, -⟩ | ⟨missing, -⟩
    · exact same.trans held
    · rw [missing] at held
      cases held
  knows _ kcv knows := by
    rcases knows with ⟨record, held, own⟩ | lists
    · rcases resolved.record with ⟨same, -⟩ | ⟨missing, -⟩
      · exact Or.inl ⟨record, same.trans held, own⟩
      · rw [missing] at held
        cases held
    · exact Or.inr (lists.mono grows.index)
  named sound record held := by
    rcases resolved.record with ⟨same, -⟩ | ⟨-, other, there, own⟩
    · exact Or.inl (same ▸ held)
    · cases held.symm.trans there
      exact Or.inr ⟨_, resolved.kept sound, own.symm⟩

theorem Resolved.told {resolution : Resolution} (resolved : Resolved crates access inputs source target resolution) :
    Told crates access inputs .resolve source target (.resolved resolution) where
  kept sound _ same := ⟨_, resolved.kept sound, Option.some.inj same⟩
  resolved := by
    rintro _ ⟨⟩
    exact resolved
  launched _ := ⟨resolution, rfl⟩
  recorded := by
    rintro - (installing | records) _ ⟨⟩
    · cases installing
    rcases resolved.record with ⟨same, missing⟩ | ⟨-, record, there, own⟩
    · cases held : source.record with
      | malformed => exact absurd held resolved.legible
      | missing =>
        rw [missing held] at records
        cases records
      | json record => exact ⟨record, same.trans held, (resolved.recorded record held).symm⟩
    · exact ⟨record, there, own⟩

/-- What an adoption or an import answers is recorded and kept. -/
theorem Installed.told {outcome : AdoptOutcome} (installing : call.installs = true)
    (installed : source.Sound crates → Installed crates inputs target outcome) :
    Told crates access inputs call source target (.installed outcome) where
  kept := by
    rintro sound _ ⟨⟩
    exact (installed sound).kept
  recorded := by
    rintro sound - _ ⟨⟩
    exact (installed sound).recorded
  resolved := nofun
  launched launch := by
    subst launch
    cases installing

theorem Installed.named {outcome : AdoptOutcome} (installed : source.Sound crates → Installed crates inputs target outcome)
    (sound : source.Sound crates) (record : KcvRecord) (held : target.record = .json record) :
    source.record = .json record ∨ ∃ key, Kept crates inputs target key ∧ kcvHex crates key = record.kcv := by
  obtain ⟨other, there, own⟩ := (installed sound).recorded
  obtain ⟨key, kept, same⟩ := (installed sound).kept
  cases held.symm.trans there
  exact Or.inr ⟨key, kept, same.trans own.symm⟩

/-- What each operation does, and how a launch fails. -/
theorem on_perform (call : CustodyCall) :
    On folder (fun answer target => Stepped crates access inputs call folder target ∧
        Told crates access inputs call folder target answer)
      (fun error target => Stepped crates access inputs call folder target ∧ (call = .resolve →
        ∀ record, folder.record = .json record → Launchable crates access inputs folder record.kcv → error = .killed))
      (call.perform crates access inputs) := by
  have unchanged {target : Folder} (same : target.record = folder.record) (_ : folder.Sound crates) (record : KcvRecord)
      (held : target.record = .json record) :
      folder.record = .json record ∨ ∃ key, Kept crates inputs target key ∧ kcvHex crates key = record.kcv :=
    Or.inl (same ▸ held)
  cases call with
  | resolve =>
    refine On.map (on_resolve.mono ?_ ?_)
    · rintro resolution target ⟨grows, resolved⟩
      exact ⟨resolved.stepped grows, resolved.told⟩
    · rintro error target ⟨keeps, only⟩
      exact ⟨keeps.stepped, fun _ => only⟩
  | adopt source acceptUnreadable =>
    refine On.map ((on_adoptWith source acceptUnreadable).mono ?_ ?_)
    · rintro outcome target ⟨installs, installed⟩
      exact ⟨installs.stepped rfl (Installed.named fun _ => installed), Installed.told rfl fun _ => installed⟩
    · rintro error target ⟨installs, same⟩
      exact ⟨installs.stepped rfl (unchanged same), by simp⟩
  | import_ current retired =>
    refine On.map ((on_importWith current retired).mono ?_ ?_)
    · rintro outcome target ⟨installs, installed⟩
      exact ⟨installs.stepped rfl (Installed.named installed), Installed.told rfl installed⟩
    · rintro error target ⟨installs, same⟩
      exact ⟨installs.stepped rfl (unchanged same), by simp⟩
  | retire kcv =>
    refine On.map ((on_retireWith (Mints access inputs folder) kcv).mono ?_ ?_)
    · exact fun entry target keeps => ⟨keeps.stepped, fun _ => nofun, fun _ _ => nofun, nofun, nofun⟩
    · exact fun error target keeps => ⟨keeps.stepped, nofun⟩

end Steps

section Runs

variable {crates : Crates} {operation launch : CustodyOperation} {past later : List CustodyOperation}
  {folder middle target next : Folder} {answer : CustodyAnswer} {error : CustodyError} {kcv : String}

theorem result_ok (ended : operation.result crates folder = (.ok answer, target)) :
    ∃ inputs, operation.host.inputs = .ok inputs ∧
      Stepped crates operation.access inputs operation.call folder target ∧
      Told crates operation.access inputs operation.call folder target answer := by
  unfold CustodyOperation.result at ended
  cases ready : operation.host.inputs with
  | error error => simp [ready] at ended
  | ok inputs =>
    rw [ready] at ended
    have on : On folder _ _ (operation.call.perform crates operation.access inputs) := on_perform operation.call
    have ends := on ⟨folder, 0, []⟩ rfl
    cases acted : operation.call.perform crates operation.access inputs ⟨folder, 0, []⟩ with
    | error error work => simp [acted] at ended
    | ok found work =>
      simp only [acted, Prod.mk.injEq, Except.ok.injEq] at ended
      obtain ⟨rfl, rfl⟩ := ended
      exact ⟨inputs, rfl, ends.of_ok acted⟩

theorem result_error (ended : operation.result crates folder = (.error error, target)) :
    (∃ refused, operation.host.inputs = .error refused ∧ target = folder) ∨
      ∃ inputs, operation.host.inputs = .ok inputs ∧
        Stepped crates operation.access inputs operation.call folder target ∧
        (operation.call = .resolve → ∀ record, folder.record = .json record →
          Launchable crates operation.access inputs folder record.kcv → error = .killed) := by
  unfold CustodyOperation.result at ended
  cases ready : operation.host.inputs with
  | error refused =>
    rw [ready] at ended
    exact Or.inl ⟨refused, rfl, (congrArg Prod.snd ended).symm⟩
  | ok inputs =>
    rw [ready] at ended
    have on : On folder _ _ (operation.call.perform crates operation.access inputs) := on_perform operation.call
    have ends := on ⟨folder, 0, []⟩ rfl
    cases acted : operation.call.perform crates operation.access inputs ⟨folder, 0, []⟩ with
    | ok found work => simp [acted] at ended
    | error found work =>
      simp only [acted, Prod.mk.injEq, Except.error.injEq] at ended
      obtain ⟨rfl, rfl⟩ := ended
      exact Or.inr ⟨inputs, rfl, ends.of_error acted⟩

/-- A step leaves the folder as it was, or does what its operation does. -/
theorem step_cases (step : (custodyMachine crates).step? folder operation = some target) :
    target = folder ∨ ∃ inputs, operation.host.inputs = .ok inputs ∧
      Stepped crates operation.access inputs operation.call folder target := by
  obtain rfl := Option.some.inj step
  cases ended : operation.result crates folder with
  | mk result target =>
    cases result with
    | ok answer =>
      obtain ⟨inputs, ready, stepped, -⟩ := result_ok ended
      exact Or.inr ⟨inputs, ready, stepped⟩
    | error error =>
      rcases result_error ended with ⟨-, -, same⟩ | ⟨inputs, ready, stepped, -⟩
      · exact Or.inl same
      · exact Or.inr ⟨inputs, ready, stepped⟩

/-- Every entry of the index loads, in every folder that is reached. -/
theorem sound_of_run (run : (custodyMachine crates).Run past folder) : folder.Sound crates := by
  refine run.invariant ?_ fun source operation target sound step => ?_
  · rintro source ⟨-, empty, files⟩
    refine ⟨empty ▸ nofun, fun entry member => ?_, fun kcv key held => ?_⟩
    · rw [Folder.entries, empty] at member
      cases member
    · rw [files] at held
      cases held
  · rcases step_cases step with rfl | ⟨inputs, -, stepped⟩
    · exact sound
    · exact stepped.sound sound

/-- What an operation reads of its host. -/
theorem CryptoHost.inputs_ok {host : CryptoHost} {inputs : CustodyInputs} (ready : host.inputs = .ok inputs) :
    inputs.recordsKcv = host.recordsKcv ∧ inputs.fresh = host.fresh ∧
      inputs.sealedDataEvidence = host.sealedDataEvidence ∧ inputs.recordedStore = host.recordedStore ∧
      (host.masterKeyEnv = none → inputs.envValue = none) := by
  simp only [CryptoHost.inputs] at ready
  split at ready
  · cases ready
  · cases ready
    exact ⟨rfl, rfl, rfl, rfl, fun unset => by simp [unset]⟩

/-- A host without a key in its environment gives keys that the folder holds. -/
theorem Kept.holds {inputs : CustodyInputs} {key : MasterKey} (kept : Kept crates inputs folder key)
    (unset : inputs.envValue = none) : folder.Holds crates (kcvHex crates key) := by
  refine kept.resolve_left fun env => ?_
  rw [unset] at env
  cases env

/-- A key that is held can be read in its place. -/
theorem Folder.Sound.stored (sound : folder.Sound crates) (held : folder.Holds crates kcv) :
    ∃ key, kcvHex crates key = kcv ∧
      (folder.Has .master defaultKeyPaths key ∨ ∃ entry ∈ folder.entries, folder.material entry = .key key) := by
  rcases held with ⟨key, has, same⟩ | ⟨entry, member, same⟩
  · exact ⟨key, same, Or.inl has⟩
  · obtain ⟨key, material, own⟩ := sound.loads entry member
    exact ⟨key, own.trans same, Or.inr ⟨entry, member, material⟩⟩

/-- An operation that may make another key current meets no failing read, and a keychain that does not come and go. -/
def InstallsSteadily (operation : CustodyOperation) : Prop :=
  operation.call.installs = true → ∀ inputs, operation.host.inputs = .ok inputs → Steady operation.access inputs

/-- An operation that may make another key current finds the recorded one retired or at hand. -/
def InstallsPrepared (crates : Crates) (folder : Folder) (operation : CustodyOperation) : Prop :=
  operation.call.installs = true → ∀ inputs, operation.host.inputs = .ok inputs →
    Prepared crates operation.access inputs folder

/-- A record stays until another key is installed. -/
theorem record_stays {record : KcvRecord} (path : (custodyMachine crates).Path middle later target)
    (quiet : ∀ operation ∈ later, operation.call.installs = false) (held : middle.record = .json record) :
    target.record = .json record := by
  have meets : (custodyMachine crates).Meets (fun _ operation => operation.call.installs = false) middle later :=
    Machine.Meets.of_forall fun operation member _ => quiet operation member
  refine path.invariant_of_meets (fun folder => folder.record = .json record) meets held ?_
  intro source operation next before quiet step
  rcases step_cases step with rfl | ⟨inputs, -, stepped⟩
  · exact before
  · exact stepped.record quiet record before

namespace Sample

/-- A key of 32 equal bytes. -/
def key (byte : UInt8) : MasterKey := ⟨List.replicate KEY_LEN byte, List.length_replicate⟩

/-- A host with a keychain, which would generate the key of sevens. -/
def host : CryptoHost := ⟨none, false, true, true, true, fun _ => .noSealedData, none, none, key 7⟩

def inputs : CustodyInputs := ⟨none, true, true, true, fun _ => .noSealedData, none, none, key 7⟩

/-- All calls of an operation succeed. -/
def access : Access := ⟨"/data", 0, fun _ => true, fun _ => .keeps, fun _ => false, fun _ => false, fun _ => false⟩

def blank : Folder := ⟨fun _ => .nothing, fun _ => .nothing, .missing, .missing, .missing, fun _ => .missing⟩

def opening : CustodyOperation := ⟨host, access, .resolve⟩

/-- A launch that is killed at its fourth call. -/
def killed : CustodyOperation := ⟨host, { access with killed := fun n => n == 3 }, .resolve⟩

def importing : CustodyOperation := ⟨host, access, .import_ (key 9) []⟩

/-- The folder after some operations. -/
def after (operations : List CustodyOperation) : Folder :=
  operations.foldl (fun folder operation => (operation.result Crypto.Sample.standard folder).2) blank

theorem run_opening : (custodyMachine Crypto.Sample.standard).Run [opening] (after [opening]) :=
  ⟨blank, ⟨rfl, rfl, fun _ => rfl⟩, rfl⟩

theorem path_importing : (custodyMachine Crypto.Sample.standard).Path (after [opening]) [importing]
    (after [opening, importing]) := rfl

theorem path_killed : (custodyMachine Crypto.Sample.standard).Path (after [opening, importing]) [killed]
    (after [opening, importing, killed]) := rfl

theorem answering (folder : Folder) : Answering access inputs folder := ⟨fun _ => rfl, Or.inl ⟨rfl, fun _ => rfl⟩⟩

theorem steady_importing : InstallsSteadily importing := by
  rintro - _ ⟨⟩
  exact Or.inl ⟨fun _ => rfl, rfl, fun _ => rfl, fun _ => rfl⟩

end Sample

/-- The key that an operation made current is the key that every launch is given, until another one is installed. -/
theorem current_settled {resolution : Resolution} (run : (custodyMachine crates).Run past folder)
    (ended : operation.result crates folder = (.ok answer, middle)) (current : answer.current crates = some kcv)
    (records : operation.call.installs = true ∨ operation.host.recordsKcv = true)
    (path : (custodyMachine crates).Path middle later target)
    (quiet : ∀ operation ∈ later, operation.call.installs = false)
    (launched : launch.result crates target = (.ok (.resolved resolution), next)) :
    kcvHex crates resolution.key = kcv := by
  obtain ⟨inputs, ready, -, told⟩ := result_ok ended
  have recording := records.imp_right fun yes => (CryptoHost.inputs_ok ready).1.trans yes
  obtain ⟨record, held, rfl⟩ := told.recorded (sound_of_run run) recording kcv current
  obtain ⟨_, -, -, gives⟩ := result_ok launched
  exact (gives.resolved resolution rfl).recorded record (record_stays path quiet held)

set_option maxRecDepth 4096 in
theorem current_settled_importing :
    ∃ resolution target, Sample.opening.result Crypto.Sample.standard
        (Sample.after [Sample.opening, Sample.importing, Sample.killed]) = (.ok (.resolved resolution), target) ∧
      kcvHex Crypto.Sample.standard resolution.key = kcvHex Crypto.Sample.standard (Sample.key 9) := by
  have quiet (operation : CustodyOperation) (member : operation ∈ [Sample.killed]) :
      operation.call.installs = false := by
    rw [List.mem_singleton.mp member]
    rfl
  have launched : Sample.opening.result Crypto.Sample.standard
      (Sample.after [Sample.opening, Sample.importing, Sample.killed]) =
        (.ok (.resolved ⟨Sample.key 9, .keychain, [Sample.key 7], .ok⟩), (Sample.opening.result Crypto.Sample.standard
          (Sample.after [Sample.opening, Sample.importing, Sample.killed])).2) := Prod.ext rfl rfl
  have ended : Sample.importing.result Crypto.Sample.standard (Sample.after [Sample.opening]) =
      (.ok (.installed ⟨kcvHex Crypto.Sample.standard (Sample.key 9), "keychain",
        some (kcvHex Crypto.Sample.standard (Sample.key 7))⟩), Sample.after [Sample.opening, Sample.importing]) := rfl
  exact ⟨_, _, launched, current_settled Sample.run_opening ended rfl (Or.inl rfl) Sample.path_killed quiet launched⟩

/-- A key that a host without an environment key was given is never lost, whatever is done to the folder since, when
nothing that makes another key current meets a failing read or a keychain that comes and goes. -/
theorem key_stays (run : (custodyMachine crates).Run past folder)
    (ended : operation.result crates folder = (.ok answer, middle)) (current : answer.current crates = some kcv)
    (unset : operation.host.masterKeyEnv = none) (path : (custodyMachine crates).Path middle later target)
    (steady : ∀ operation ∈ later, InstallsSteadily operation) :
    ∃ key, kcvHex crates key = kcv ∧
      (target.Has .master defaultKeyPaths key ∨ ∃ entry ∈ target.entries, target.material entry = .key key) := by
  obtain ⟨inputs, ready, stepped, told⟩ := result_ok ended
  have sound := sound_of_run run
  obtain ⟨key, kept, rfl⟩ := told.kept sound kcv current
  have held := kept.holds ((CryptoHost.inputs_ok ready).2.2.2.2 unset)
  have meets : (custodyMachine crates).Meets (fun _ operation => InstallsSteadily operation) middle later :=
    Machine.Meets.of_forall fun operation member _ => steady operation member
  have stays : target.Sound crates ∧ target.Holds crates (kcvHex crates key) := by
    refine path.invariant_of_meets (fun folder => folder.Sound crates ∧ folder.Holds crates (kcvHex crates key)) meets
      ⟨stepped.sound sound, held⟩ ?_
    rintro source operation next ⟨sound, before⟩ steady step
    rcases step_cases step with rfl | ⟨inputs, ready, stepped⟩
    · exact ⟨sound, before⟩
    · exact ⟨stepped.sound sound, stepped.holds (fun installing => steady installing inputs ready) sound _ before⟩
  exact stays.1.stored stays.2

theorem key_stays_importing :
    ∃ key, kcvHex Crypto.Sample.standard key = kcvHex Crypto.Sample.standard (Sample.key 7) ∧
      ((Sample.after [Sample.opening, Sample.importing]).Has .master defaultKeyPaths key ∨
        ∃ entry ∈ (Sample.after [Sample.opening, Sample.importing]).entries,
          (Sample.after [Sample.opening, Sample.importing]).material entry = .key key) := by
  have ended : Sample.opening.result Crypto.Sample.standard Sample.blank =
      (.ok (.resolved ⟨Sample.key 7, .keychain, [], .ok⟩), Sample.after [Sample.opening]) := rfl
  have steady (operation : CustodyOperation) (member : operation ∈ [Sample.importing]) : InstallsSteadily operation := by
    rw [List.mem_singleton.mp member]
    exact Sample.steady_importing
  exact key_stays (Machine.Run.nil ⟨rfl, rfl, fun _ => rfl⟩) ended rfl rfl Sample.path_importing steady

/-- What an operation made current can be opened with by every launch since that reads all there is. -/
theorem current_opens {resolution : Resolution} (run : (custodyMachine crates).Run past folder)
    (ended : operation.result crates folder = (.ok answer, middle)) (current : answer.current crates = some kcv)
    (records : operation.call.installs = true ∨ operation.host.recordsKcv = true)
    (path : (custodyMachine crates).Path middle later target)
    (prepared : (custodyMachine crates).Meets (InstallsPrepared crates) middle later)
    (launched : launch.result crates target = (.ok (.resolved resolution), next))
    (answers : ∀ inputs, launch.host.inputs = .ok inputs → Answering launch.access inputs target) :
    ∃ key ∈ resolution.key :: resolution.retired, kcvHex crates key = kcv := by
  obtain ⟨inputs, ready, stepped, told⟩ := result_ok ended
  have sound := sound_of_run run
  have recording := records.imp_right fun yes => (CryptoHost.inputs_ok ready).1.trans yes
  have known : middle.Knows kcv := Or.inl (told.recorded sound recording kcv current)
  have stays : target.Sound crates ∧ target.Knows kcv := by
    refine path.invariant_of_meets (fun folder => folder.Sound crates ∧ folder.Knows kcv) prepared
      ⟨stepped.sound sound, known⟩ ?_
    rintro source operation next ⟨sound, before⟩ prepared step
    rcases step_cases step with rfl | ⟨inputs, ready, stepped⟩
    · exact ⟨sound, before⟩
    · exact ⟨stepped.sound sound, stepped.knows (fun installing => prepared installing inputs ready) kcv before⟩
  obtain ⟨reads, isReady, -, gives⟩ := result_ok launched
  have resolved := gives.resolved resolution rfl
  rcases stays.2 with ⟨record, held, rfl⟩ | ⟨entry, member, rfl⟩
  · exact ⟨resolution.key, List.mem_cons_self, resolved.recorded record held⟩
  · exact resolved.opens (answers reads isReady) stays.1 entry member

theorem current_opens_importing :
    ∃ resolution target, Sample.opening.result Crypto.Sample.standard
        (Sample.after [Sample.opening, Sample.importing]) = (.ok (.resolved resolution), target) ∧
      ∃ key ∈ resolution.key :: resolution.retired,
        kcvHex Crypto.Sample.standard key = kcvHex Crypto.Sample.standard (Sample.key 7) := by
  have ended : Sample.opening.result Crypto.Sample.standard Sample.blank =
      (.ok (.resolved ⟨Sample.key 7, .keychain, [], .ok⟩), Sample.after [Sample.opening]) := rfl
  have launched : Sample.opening.result Crypto.Sample.standard (Sample.after [Sample.opening, Sample.importing]) =
      (.ok (.resolved ⟨Sample.key 9, .keychain, [Sample.key 7], .ok⟩),
        Sample.after [Sample.opening, Sample.importing]) := rfl
  have prepared : InstallsPrepared Crypto.Sample.standard (Sample.after [Sample.opening]) Sample.importing := by
    rintro - _ ⟨⟩ record held
    have recorded : Document.json ⟨1, kcvHex Crypto.Sample.standard (Sample.key 7), "keychain", 0⟩ = .json record := held
    cases recorded
    exact Or.inr (Or.inr ⟨Sample.answering _, Sample.key 7, Or.inl rfl, rfl⟩)
  have answers (inputs : CustodyInputs) (ready : Sample.opening.host.inputs = .ok inputs) :
      Answering Sample.opening.access inputs (Sample.after [Sample.opening, Sample.importing]) := by
    cases ready
    exact Sample.answering _
  exact ⟨_, _, launched, current_opens (Machine.Run.nil ⟨rfl, rfl, fun _ => rfl⟩) ended rfl (Or.inr rfl)
    Sample.path_importing ⟨prepared, fun _ _ => trivial⟩ launched answers⟩

/-- A key that no install put into the slots was generated where nothing was recorded and nothing known to be sealed. -/
theorem generated_unsealed {key : MasterKey} (path : (custodyMachine crates).Path folder later target)
    (quiet : ∀ operation ∈ later, operation.call.installs = false) (has : target.Has .master defaultKeyPaths key)
    (isNew : ¬ folder.Has .master defaultKeyPaths key) :
    (∀ record, folder.record ≠ .json record) ∧ ∃ operation ∈ later, key = operation.host.fresh ∧
      operation.host.sealedDataEvidence = none ∧ operation.host.recordedStore = none := by
  induction later generalizing folder with
  | nil =>
    obtain rfl := Machine.path_nil_iff.mp path
    exact absurd has isNew
  | cons operation rest ih =>
    obtain ⟨middle, step, path⟩ := Machine.path_cons_iff.mp path
    have calm := quiet operation List.mem_cons_self
    by_cases before : middle.Has .master defaultKeyPaths key
    · rcases step_cases step with rfl | ⟨inputs, ready, stepped⟩
      · exact absurd before isNew
      · obtain ⟨rfl, missing, evidence, store, -⟩ := (stepped.minted calm key before).resolve_left isNew
        obtain ⟨-, fresh, sealed, recorded, -⟩ := CryptoHost.inputs_ok ready
        refine ⟨fun record held => ?_, operation, List.mem_cons_self, fresh, sealed ▸ evidence, recorded ▸ store⟩
        rw [missing] at held
        cases held
    · obtain ⟨unrecorded, other, member, generated⟩ :=
        ih path (fun other member => quiet other (List.mem_cons_of_mem _ member)) before
      refine ⟨fun record held => unrecorded record ?_, other, List.mem_cons_of_mem _ member, generated⟩
      rcases step_cases step with rfl | ⟨inputs, -, stepped⟩
      · exact held
      · exact stepped.record calm record held

theorem generated_unsealed_opening :
    (∀ record, Sample.blank.record ≠ .json record) ∧ ∃ operation ∈ [Sample.opening],
      Sample.key 7 = operation.host.fresh ∧ operation.host.sealedDataEvidence = none ∧
      operation.host.recordedStore = none := by
  have quiet (operation : CustodyOperation) (member : operation ∈ [Sample.opening]) :
      operation.call.installs = false := by
    rw [List.mem_singleton.mp member]
    rfl
  have path : (custodyMachine Crypto.Sample.standard).Path Sample.blank [Sample.opening] (Sample.after [Sample.opening]) :=
    rfl
  refine generated_unsealed path quiet (Or.inl rfl) ?_
  rintro (entry | file | legacy)
  · cases entry
  · cases file
  · cases legacy

/-- A folder whose hosts have no environment key holds the key that it records. -/
theorem recorded_held (run : (custodyMachine crates).Run past folder)
    (unset : ∀ operation ∈ past, operation.host.masterKeyEnv = none)
    (steady : ∀ operation ∈ past, InstallsSteadily operation) {record : KcvRecord}
    (recorded : folder.record = .json record) : folder.Holds crates record.kcv := by
  obtain ⟨source, initial, path⟩ := run
  have start : source.Sound crates ∧ ∀ record, source.record = .json record → source.Holds crates record.kcv := by
    refine ⟨sound_of_run ⟨source, initial, Machine.path_nil_iff.mpr rfl⟩, fun record held => ?_⟩
    rw [initial.1] at held
    cases held
  have meets : (custodyMachine crates).Meets (fun _ operation => operation.host.masterKeyEnv = none ∧
      InstallsSteadily operation) source past :=
    Machine.Meets.of_forall fun operation member _ => ⟨unset operation member, steady operation member⟩
  refine (path.invariant_of_meets (fun folder => folder.Sound crates ∧
    ∀ record, folder.record = .json record → folder.Holds crates record.kcv) meets start ?_).2 record recorded
  rintro source operation next ⟨sound, holds⟩ ⟨unset, steady⟩ step
  rcases step_cases step with rfl | ⟨inputs, ready, stepped⟩
  · exact ⟨sound, holds⟩
  · refine ⟨stepped.sound sound, fun record held => ?_⟩
    rcases stepped.named sound record held with before | ⟨key, kept, same⟩
    · exact stepped.holds (fun installing => steady installing inputs ready) sound _ (holds record before)
    · exact same ▸ kept.holds ((CryptoHost.inputs_ok ready).2.2.2.2 unset)

/-- A launch is never locked out: whatever was done to the folder, it finds the key that is recorded, or is killed, when
nothing that made another key current met a failing read or a keychain that came and went. -/
theorem launch_finds (run : (custodyMachine crates).Run past folder)
    (unset : ∀ operation ∈ past, operation.host.masterKeyEnv = none)
    (steady : ∀ operation ∈ past, InstallsSteadily operation) {record : KcvRecord}
    (recorded : folder.record = .json record) {inputs : CustodyInputs} (ready : launch.host.inputs = .ok inputs)
    (resolves : launch.call = .resolve) (own : launch.host.masterKeyEnv = none)
    (answers : Answering launch.access inputs folder) (readable : folder.Readable) :
    (∃ resolution target, launch.result crates folder = (.ok (.resolved resolution), target) ∧
      kcvHex crates resolution.key = record.kcv) ∨ ∃ target, launch.result crates folder = (.error .killed, target) := by
  cases ended : launch.result crates folder with
  | mk result target =>
    cases result with
    | ok answer =>
      obtain ⟨inputs, -, -, told⟩ := result_ok ended
      obtain ⟨resolution, rfl⟩ := told.launched resolves
      exact Or.inl ⟨resolution, target, rfl, (told.resolved resolution rfl).recorded record recorded⟩
    | error error =>
      rcases result_error ended with ⟨refused, failed, -⟩ | ⟨found, isFound, -, only⟩
      · rw [ready] at failed
        cases failed
      · rw [ready] at isFound
        cases isFound
        have launchable : Launchable crates launch.access inputs folder record.kcv := by
          refine ⟨⟨answers, sound_of_run run, recorded_held run unset steady recorded⟩, readable, fun key env => ?_⟩
          rw [(CryptoHost.inputs_ok ready).2.2.2.2 own] at env
          cases env
        obtain rfl := only resolves record recorded launchable
        exact Or.inr ⟨target, rfl⟩

theorem launch_finds_importing :
    (∃ resolution target, Sample.opening.result Crypto.Sample.standard
        (Sample.after [Sample.opening, Sample.importing, Sample.killed]) = (.ok (.resolved resolution), target) ∧
      kcvHex Crypto.Sample.standard resolution.key = kcvHex Crypto.Sample.standard (Sample.key 9)) ∨
    ∃ target, Sample.opening.result Crypto.Sample.standard
      (Sample.after [Sample.opening, Sample.importing, Sample.killed]) = (.error .killed, target) := by
  have run : (custodyMachine Crypto.Sample.standard).Run [Sample.opening, Sample.importing, Sample.killed]
      (Sample.after [Sample.opening, Sample.importing, Sample.killed]) := ⟨Sample.blank, ⟨rfl, rfl, fun _ => rfl⟩, rfl⟩
  have unset (operation : CustodyOperation)
      (member : operation ∈ [Sample.opening, Sample.importing, Sample.killed]) :
      operation.host.masterKeyEnv = none := by
    simp only [List.mem_cons, List.not_mem_nil, or_false] at member
    rcases member with rfl | rfl | rfl <;> rfl
  have steady (operation : CustodyOperation)
      (member : operation ∈ [Sample.opening, Sample.importing, Sample.killed]) : InstallsSteadily operation := by
    simp only [List.mem_cons, List.not_mem_nil, or_false] at member
    rcases member with rfl | rfl | rfl
    · rintro ⟨⟩
    · exact Sample.steady_importing
    · rintro ⟨⟩
  have recorded : (Sample.after [Sample.opening, Sample.importing, Sample.killed]).record =
      .json ⟨1, kcvHex Crypto.Sample.standard (Sample.key 9), "keychain", 0⟩ := rfl
  have missing : (Sample.after [Sample.opening, Sample.importing, Sample.killed]).format = .missing := rfl
  have readable : (Sample.after [Sample.opening, Sample.importing, Sample.killed]).Readable := by
    rw [Folder.Readable, missing]
    exact ⟨by simp, by simp⟩
  exact launch_finds run unset steady recorded rfl rfl rfl (Sample.answering _) readable

end Runs

end RyuRooms.Custody
