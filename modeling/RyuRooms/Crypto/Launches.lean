import RyuRooms.Crypto.ProcessKeys
import RyuRooms.Crypto.Standalone
import RyuRooms.Model.LaunchSteps

/-! # Launches that overtake each other

Only one launch ever creates the root, and what another one reads of it is either the whole key or refused, so all
keys that are held, pinned or returned are of one root. A root that a launch stopped writing stays as it was left.
-/

namespace RyuRooms.Crypto

open Foundation

/-- Base64 with padding: a text of so many bytes for every key. -/
def Crates.Padded (crates : Crates) : Prop :=
  ∀ text raw, crates.base64Decode text = some raw → text.utf8ByteSize = 4 * ((raw.length + 2) / 3)

/-- The bytes of a root file that are read, without the end of the line. -/
def WHOLE_ROOT : ℕ := 44

theorem decodeRoot_ok_iff {crates : Crates} {path : String} {bytes raw : Bytes} {source target : SecretsFiles} :
    decodeRoot crates path bytes source = .ok raw target ↔ source = target ∧
      ∃ encoded, fromUtf8 bytes = some encoded ∧ crates.base64Decode (trim encoded) = some raw ∧ raw.length = KEY_LEN := by
  simp only [decodeRoot, bind_ok_iff, orFail_ok_iff, failIf_ok_iff, pure_ok_iff, not_not]
  constructor
  · rintro ⟨encoded, _, ⟨read, rfl⟩, _, _, ⟨decoded, rfl⟩, _, _, ⟨length, rfl⟩, rfl, rfl⟩
    exact ⟨rfl, encoded, read, decoded, length⟩
  · rintro ⟨rfl, encoded, read, decoded, length⟩
    exact ⟨encoded, _, ⟨read, rfl⟩, raw, _, ⟨decoded, rfl⟩, (), _, ⟨length, rfl⟩, rfl, rfl⟩

section Roots

variable {crates : Crates} (base64 : crates.WritesBase64) {root : Bytes} (whole : root.length = KEY_LEN)
include base64

theorem visible_base64Encode (bytes : Bytes) : ∀ c ∈ (crates.base64Encode bytes).toList, isWhitespace c = false :=
  fun c member => (base64.letters bytes c member).1

include whole

theorem size_base64Encode : (crates.base64Encode root).utf8ByteSize = WHOLE_ROOT := by
  rw [base64.size, whole]
  rfl

theorem length_rootText : (rootText crates root).length = WHOLE_ROOT + 1 := by
  rw [rootText, length_utf8, String.utf8ByteSize_append, size_base64Encode base64 whole]
  rfl

/-- A long part of a root file is the key's text, with or without the end of the line. -/
theorem trim_of_prefix {bytes : Bytes} (part : bytes <+: rootText crates root) (long : WHOLE_ROOT ≤ bytes.length) :
    ∃ encoded, fromUtf8 bytes = some encoded ∧ trim encoded = crates.base64Encode root := by
  have length := length_rootText base64 whole
  have visible := visible_base64Encode base64 root
  have short : (utf8 (crates.base64Encode root)).length = WHOLE_ROOT := by
    rw [length_utf8, size_base64Encode base64 whole]
  by_cases all : bytes.length = WHOLE_ROOT + 1
  · have same := part.eq_of_length (all.trans length.symm)
    rw [same, rootText, fromUtf8_utf8]
    exact ⟨_, rfl, trim_newline visible⟩
  · have start : utf8 (crates.base64Encode root) <+: rootText crates root := by
      rw [rootText, utf8_append]
      exact List.prefix_append _ _
    have bound := part.length_le
    have same := (List.prefix_of_prefix_length_le part start (by omega)).eq_of_length (by omega)
    rw [same, fromUtf8_utf8]
    exact ⟨_, rfl, trim_of_no_whitespace visible⟩

/-- A part of a root file is read as the key where it is long enough, and refused where it is not. -/
theorem decodeRoot_of_part (padded : crates.Padded) {path : String} {files : SecretsFiles} {bytes raw : Bytes}
    (part : bytes <+: rootText crates root) :
    (outcome (decodeRoot crates path bytes) files).1 = .ok raw ↔ WHOLE_ROOT ≤ bytes.length ∧ raw = root := by
  simp only [outcome_fst_ok_iff, decodeRoot_ok_iff]
  constructor
  · rintro ⟨_, -, encoded, read, decoded, length⟩
    have size := padded _ _ decoded
    have longer := utf8ByteSize_trim_le encoded
    rw [← length_utf8 encoded, utf8_of_fromUtf8 read] at longer
    have long : WHOLE_ROOT ≤ bytes.length := by
      rw [size, length] at longer
      exact longer
    obtain ⟨again, readAgain, trimmed⟩ := trim_of_prefix base64 whole part long
    obtain rfl := Option.some.inj (read.symm.trans readAgain)
    rw [trimmed, ← trim_base64Encode base64, base64.decodes] at decoded
    exact ⟨long, (Option.some.inj decoded).symm⟩
  · rintro ⟨long, rfl⟩
    obtain ⟨encoded, read, trimmed⟩ := trim_of_prefix base64 whole part long
    refine ⟨files, rfl, encoded, read, ?_, whole⟩
    rw [trimmed, ← trim_base64Encode base64, base64.decodes]

/-- The cipher of a root. -/
theorem fromSubkeyB64_root (pluginId : String) :
    PluginCipher.fromSubkeyB64 crates pluginId (crates.base64Encode root) =
      (validPluginId pluginId).map fun id => ⟨id, root, []⟩ := by
  rw [PluginCipher.fromSubkeyB64, decodeKey_base64Encode base64 whole]

end Roots

/-- What the pin file of a directory gives, where it holds nothing or one key's check value. -/
theorem readStandaloneKcv_of_pinned {path kcv : String} {files : SecretsFiles} (shown : kcv ≠ "")
    (pin : files.pin = none ∨ files.pin = some (.json (pinBody kcv "standalone"))) :
    readStandaloneKcv path files = .ok (files.pin.map fun _ => kcv) files := by
  have got : (get : KeyCall SecretsFiles) files = .ok files files := rfl
  rw [readStandaloneKcv]
  refine (bind_eq_of_ok got).trans ?_
  rcases pin with none | pinned
  · rw [none]
    rfl
  · rw [pinned]
    simp only [pinnedKcv_pinBody]
    rw [failIf, if_neg shown]
    rfl

section Invariant

variable (pluginId : String)

/-- The cipher that a root gives. -/
def cipherOf (root : Bytes) : PluginCipher := ⟨trim pluginId, root, []⟩

/-- A launch holds no key yet, and no root to write. -/
def Stage.early : Stage → Bool
  | .readRoot | .checkPin | .createRoot | .failed _ | .crashed => true
  | _ => false

/-- What a launch holds is of this root. -/
def Stage.Of (root : Bytes) : Stage → Prop
  | .readKcv held => held = root
  | .writeKcv cipher => cipher = cipherOf pluginId root
  | .returned keys => keys = .sealing (cipherOf pluginId root) .standalone
  | _ => True

def Stage.isWriting : Stage → Bool
  | .writeRoot _ => true
  | _ => false

variable (crates : Crates) (fresh : ℕ → { root : Bytes // root.length = KEY_LEN })

/-- One launch has created the root: it alone writes to the file, and all keys and the pin are of its root. -/
structure Owned (owner : ℕ) (state : Launches) : Prop where
  root : ∃ bytes, state.files.root = some bytes ∧ bytes <+: rootText crates (fresh owner)
  writing : ∀ launch left, state.stage launch = .writeRoot left →
    launch = owner ∧ ∃ bytes, state.files.root = some bytes ∧ bytes ++ left = rootText crates (fresh owner)
  held : ∀ launch, (state.stage launch).Of pluginId (fresh owner)
  pin : state.files.pin = none ∨
    state.files.pin = some (.json (pinBody ((cipherOf pluginId (fresh owner)).kcv crates) "standalone"))

/-- Nothing was written yet, or there is one owner of the root. -/
inductive Sound (state : Launches) : Prop
  | untouched (root : state.files.root = none) (pin : state.files.pin = none) (early : ∀ launch, (state.stage launch).early)
  | owned (owner : ℕ) (owned : Owned pluginId crates fresh owner state)

variable {pluginId crates fresh} {owner launch : ℕ} {state : Launches} {next : Stage}

theorem Stage.Of.of_early {root : Bytes} (early : next.early) : next.Of pluginId root := by
  cases next <;> trivial

/-- A launch that goes on without touching the root. -/
theorem Owned.moved (owned : Owned pluginId crates fresh owner state) {pin : Option PinFile}
    (quiet : next.isWriting = false) (of : next.Of pluginId (fresh owner))
    (pinned : pin = none ∨ pin = some (.json (pinBody ((cipherOf pluginId (fresh owner)).kcv crates) "standalone"))) :
    Owned pluginId crates fresh owner ⟨{ state.files with pin := pin }, Function.update state.stage launch next⟩ := by
  refine ⟨owned.root, fun other left writes => ?_, fun other => ?_, pinned⟩
  · change Function.update state.stage launch next other = _ at writes
    rw [Function.update_apply] at writes
    split at writes
    · rw [writes] at quiet
      cases quiet
    · exact owned.writing other left writes
  · change Stage.Of pluginId _ (Function.update state.stage launch next other)
    rw [Function.update_apply]
    split
    · exact of
    · exact owned.held other

/-- The owner goes on writing, or stops. -/
theorem Owned.wrote (owned : Owned pluginId crates fresh owner state) {bytes : Bytes}
    (part : bytes <+: rootText crates (fresh owner)) (of : next.Of pluginId (fresh owner))
    (rest : ∀ left, next = .writeRoot left → bytes ++ left = rootText crates (fresh owner)) :
    Owned pluginId crates fresh owner ⟨{ state.files with root := some bytes }, Function.update state.stage owner next⟩ := by
  refine ⟨⟨bytes, rfl, part⟩, fun other left writing => ?_, fun other => ?_, owned.pin⟩
  · change Function.update state.stage owner next other = _ at writing
    rw [Function.update_apply] at writing
    split at writing
    · next same => exact ⟨same, bytes, rfl, rest left writing⟩
    · next apart => exact absurd (owned.writing other left writing).1 apart
  · change Stage.Of pluginId _ (Function.update state.stage owner next other)
    rw [Function.update_apply]
    split
    · exact of
    · exact owned.held other

/-- What follows from reading the pin is no write of a root. -/
theorem readKcvStage_quiet (crates : Crates) (secrets pluginId : String) (files : SecretsFiles) (root : Bytes) :
    (readKcvStage crates secrets pluginId files root).isWriting = false := by
  rw [readKcvStage]
  split
  · rfl
  · split
    · rfl
    · rfl
    · split
      · rfl
      · rfl

/-- What follows from reading the pin is of the root that was read. -/
theorem readKcvStage_of (base64 : crates.WritesBase64) {secrets : String} {files : SecretsFiles} {root : Bytes}
    (whole : root.length = KEY_LEN) : (readKcvStage crates secrets pluginId files root).Of pluginId root := by
  rw [readKcvStage, fromSubkeyB64_root base64 whole]
  cases checked : validPluginId pluginId with
  | error error => trivial
  | ok id =>
    obtain ⟨-, rfl⟩ := validPluginId_ok_iff.mp checked
    simp only [Except.map]
    split
    · trivial
    · rfl
    · split
      · trivial
      · rfl

theorem untouched_moved (root : state.files.root = none) (pin : state.files.pin = none)
    (early : ∀ launch, (state.stage launch).early) (still : next.early) :
    Sound pluginId crates fresh ⟨state.files, Function.update state.stage launch next⟩ := by
  refine .untouched root pin fun other => ?_
  change (Function.update state.stage launch next other).early
  rw [Function.update_apply]
  split
  · exact still
  · exact early other

/-- The three ways a launch takes a step. -/
theorem firstLaunches_step {secrets : String} {label : ℕ × LaunchAction} {target : Launches}
    (step : (firstLaunches crates secrets pluginId fresh).step? state label = some target) :
    (state.stage label.1).running ∧
      ((∃ more, label.2 = .go more ∧
          target = ⟨(goStage crates secrets pluginId (fresh label.1) state.files more (state.stage label.1)).2,
            Function.update state.stage label.1
              (goStage crates secrets pluginId (fresh label.1) state.files more (state.stage label.1)).1⟩) ∨
        (∃ error, label.2 = .fail error ∧ target = ⟨state.files, Function.update state.stage label.1 (.failed error)⟩) ∨
        ∃ kept, label.2 = .crash kept ∧
          target = ⟨crashFiles state.files kept (state.stage label.1), Function.update state.stage label.1 .crashed⟩) := by
  obtain ⟨launch, action⟩ := label
  simp only [firstLaunches] at step
  split at step
  · next running =>
    refine ⟨running, ?_⟩
    cases action with
    | go more => exact .inl ⟨more, rfl, (Option.some.inj step).symm⟩
    | fail error => exact .inr (.inl ⟨error, rfl, (Option.some.inj step).symm⟩)
    | crash kept => exact .inr (.inr ⟨kept, rfl, (Option.some.inj step).symm⟩)
  · cases step

/-- A launch takes its own steps only. -/
theorem stage_of_absent {secrets : String} {number : ℕ} {events : List (ℕ × LaunchAction)} {source : Launches}
    (path : (firstLaunches crates secrets pluginId fresh).Path source events state)
    (absent : ∀ event ∈ events, event.1 ≠ number) : state.stage number = source.stage number := by
  induction events generalizing source with
  | nil => rw [Machine.path_nil_iff.mp path]
  | cons label events ih =>
    obtain ⟨middle, step, rest⟩ := Machine.path_cons_iff.mp path
    rw [ih rest fun event member => absent event (List.mem_cons_of_mem _ member)]
    have apart := absent label List.mem_cons_self
    obtain ⟨-, ⟨more, -, rfl⟩ | ⟨error, -, rfl⟩ | ⟨kept, -, rfl⟩⟩ := firstLaunches_step step
    · exact Function.update_of_ne apart.symm _ _
    · exact Function.update_of_ne apart.symm _ _
    · exact Function.update_of_ne apart.symm _ _

/-- What the next file operation of a launch leads to, where nothing was written yet. -/
theorem sound_go_untouched {secrets : String} (root : state.files.root = none) (pin : state.files.pin = none)
    (early : ∀ launch, (state.stage launch).early) (running : (state.stage launch).running) (more : ℕ) :
    Sound pluginId crates fresh ⟨(goStage crates secrets pluginId (fresh launch) state.files more (state.stage launch)).2,
      Function.update state.stage launch
        (goStage crates secrets pluginId (fresh launch) state.files more (state.stage launch)).1⟩ := by
  have start := early launch
  cases at_ : state.stage launch with
  | readRoot =>
    rw [goStage, root]
    exact untouched_moved root pin early rfl
  | checkPin =>
    rw [goStage, pin]
    exact untouched_moved root pin early rfl
  | createRoot =>
    rw [goStage, root]
    refine .owned launch ⟨⟨[], rfl, List.nil_prefix⟩, fun other left writes => ?_, fun other => ?_, .inl pin⟩
    · change Function.update state.stage launch (.writeRoot (rootText crates (fresh launch))) other = _ at writes
      rw [Function.update_apply] at writes
      split at writes
      · next same =>
        obtain rfl := Stage.writeRoot.inj writes
        exact ⟨same, [], rfl, rfl⟩
      · have quiet := early other
        rw [writes] at quiet
        cases quiet
    · change Stage.Of pluginId _ (Function.update state.stage launch (.writeRoot (rootText crates (fresh launch))) other)
      rw [Function.update_apply]
      split
      · trivial
      · exact Stage.Of.of_early (early other)
  | writeRoot left => rw [at_] at start; cases start
  | readKcv root => rw [at_] at start; cases start
  | writeKcv cipher => rw [at_] at start; cases start
  | returned keys => rw [at_] at start; cases start
  | failed error => rw [at_] at running; cases running
  | crashed => rw [at_] at running; cases running

/-- What the next file operation of a launch leads to, where one launch owns the root. -/
theorem owned_go (base64 : crates.WritesBase64) (padded : crates.Padded) {secrets : String}
    (owned : Owned pluginId crates fresh owner state) (running : (state.stage launch).running) (more : ℕ) :
    Owned pluginId crates fresh owner
      ⟨(goStage crates secrets pluginId (fresh launch) state.files more (state.stage launch)).2,
        Function.update state.stage launch
          (goStage crates secrets pluginId (fresh launch) state.files more (state.stage launch)).1⟩ := by
  obtain ⟨bytes, root, part⟩ := owned.root
  have held := owned.held launch
  cases at_ : state.stage launch with
  | readRoot =>
    rw [goStage, root]
    simp only
    cases read : (outcome (decodeRoot crates (secrets ++ "/" ++ STANDALONE_ROOT_FILE) bytes) state.files).1 with
    | error error => exact owned.moved rfl trivial owned.pin
    | ok raw =>
      have same := ((decodeRoot_of_part base64 (fresh owner).2 padded part).mp read).2
      exact owned.moved rfl same owned.pin
  | checkPin =>
    rw [goStage]
    split
    · exact owned.moved rfl trivial owned.pin
    · exact owned.moved rfl trivial owned.pin
  | createRoot =>
    rw [goStage, root]
    exact owned.moved rfl trivial owned.pin
  | writeRoot left =>
    obtain ⟨rfl, written, found, all⟩ := owned.writing launch left at_
    rw [goStage]
    split
    · exact owned.moved rfl rfl owned.pin
    · rw [found]
      have cut : written ++ left.take (more + 1) ++ left.drop (more + 1) = rootText crates (fresh launch) := by
        rw [List.append_assoc, List.take_append_drop, all]
      refine owned.wrote ⟨_, cut⟩ trivial fun rest same => ?_
      rw [← Stage.writeRoot.inj same]
      exact cut
  | readKcv root =>
    rw [at_] at held
    obtain rfl : root = fresh owner := held
    exact owned.moved (readKcvStage_quiet _ _ _ _ _) (readKcvStage_of base64 (fresh owner).2) owned.pin
  | writeKcv cipher =>
    rw [at_] at held
    obtain rfl : cipher = cipherOf pluginId (fresh owner) := held
    exact owned.moved rfl rfl (.inr rfl)
  | returned keys => rw [at_] at running; cases running
  | failed error => rw [at_] at running; cases running
  | crashed => rw [at_] at running; cases running

/-- Every step of a launch keeps one owner of the root. -/
theorem sound_step (base64 : crates.WritesBase64) (padded : crates.Padded) {secrets : String}
    (sound : Sound pluginId crates fresh state) {label : ℕ × LaunchAction} {target : Launches}
    (step : (firstLaunches crates secrets pluginId fresh).step? state label = some target) :
    Sound pluginId crates fresh target := by
  obtain ⟨running, ⟨more, -, rfl⟩ | ⟨error, -, rfl⟩ | ⟨kept, -, rfl⟩⟩ := firstLaunches_step step
  · cases sound with
    | untouched root pin early => exact sound_go_untouched root pin early running more
    | owned owner owned => exact .owned owner (owned_go base64 padded owned running more)
  · cases sound with
    | untouched root pin early => exact untouched_moved root pin early rfl
    | owned owner owned => exact .owned owner (owned.moved rfl trivial owned.pin)
  · cases sound with
    | untouched root pin early =>
      have start := early label.1
      have same : crashFiles state.files kept (state.stage label.1) = state.files := by
        cases at_ : state.stage label.1 with
        | writeRoot left => rw [at_] at start; cases start
        | _ => rfl
      rw [same]
      exact untouched_moved root pin early rfl
    | owned owner owned =>
      refine .owned owner ?_
      cases at_ : state.stage label.1 with
      | writeRoot left =>
        obtain ⟨same, written, found, all⟩ := owned.writing label.1 left at_
        rw [crashFiles, found, same]
        refine owned.wrote ((List.take_prefix kept written).trans ⟨left, all⟩) trivial nofun
      | _ => exact owned.moved rfl trivial owned.pin

/-- A launch stops inside the write of its root, and less than the whole key is left of it. -/
def cutsShort (state : Launches) : ℕ × LaunchAction → Bool
  | (launch, action) => (state.stage launch).isWriting && state.files.root.any fun bytes =>
    match action with
    | .go _ => false
    | .fail _ => bytes.length < WHOLE_ROOT
    | .crash kept => min kept bytes.length < WHOLE_ROOT

/-- A part of a root that nobody writes to any more. -/
def Cut (state : Launches) : Prop :=
  (∃ bytes, state.files.root = some bytes ∧ bytes.length < WHOLE_ROOT) ∧ ∀ launch, (state.stage launch).isWriting = false

/-- A launch that was not writing and does not start to leaves the root as cut as it was. -/
theorem cut_moved_iff {files : SecretsFiles} (root : files.root = state.files.root)
    (before : (state.stage launch).isWriting = false) (after : next.isWriting = false) :
    Cut ⟨files, Function.update state.stage launch next⟩ ↔ Cut state := by
  have stages : (∀ other, (Function.update state.stage launch next other).isWriting = false) ↔
      ∀ other, (state.stage other).isWriting = false := by
    apply forall_congr'
    intro other
    rw [Function.update_apply]
    split
    · next same => exact iff_of_true after (same ▸ before)
    · rfl
  rw [Cut, Cut, stages, root]

/-- A root is not cut while somebody writes to it. -/
theorem not_cut_of_writing (writing : (state.stage launch).isWriting) : ¬ Cut state := by
  intro cut
  rw [cut.2 launch] at writing
  cases writing

theorem not_cut_of_writes {files : SecretsFiles} (writing : next.isWriting) :
    ¬ Cut ⟨files, Function.update state.stage launch next⟩ := by
  apply @not_cut_of_writing launch
  change (Function.update state.stage launch next launch).isWriting
  rw [Function.update_self]
  exact writing

/-- A launch that is not writing starts to only where there is no root. -/
theorem goStage_quiet {secrets : String} {root : Bytes} {files : SecretsFiles} {more : ℕ} {stage : Stage}
    (quiet : stage.isWriting = false) :
    (goStage crates secrets pluginId root files more stage).2.root = files.root ∧
        (goStage crates secrets pluginId root files more stage).1.isWriting = false ∨
      files.root = none ∧ (goStage crates secrets pluginId root files more stage).1.isWriting := by
  cases stage with
  | readRoot =>
    rw [goStage]
    split
    · exact .inl ⟨rfl, rfl⟩
    · split
      · exact .inl ⟨rfl, rfl⟩
      · exact .inl ⟨rfl, rfl⟩
  | checkPin =>
    rw [goStage]
    split
    · exact .inl ⟨rfl, rfl⟩
    · exact .inl ⟨rfl, rfl⟩
  | createRoot =>
    rw [goStage]
    split
    · exact .inl ⟨rfl, rfl⟩
    · next free => exact .inr ⟨by simpa using free, rfl⟩
  | writeRoot left => cases quiet
  | readKcv held => exact .inl ⟨rfl, readKcvStage_quiet _ _ _ _ _⟩
  | writeKcv cipher => exact .inl ⟨rfl, rfl⟩
  | returned keys => exact .inl ⟨rfl, rfl⟩
  | failed error => exact .inl ⟨rfl, rfl⟩
  | crashed => exact .inl ⟨rfl, rfl⟩

/-- A launch that writes its root owns it, and nobody else writes. -/
theorem owned_of_writing (sound : Sound pluginId crates fresh state) (writing : (state.stage launch).isWriting) :
    Owned pluginId crates fresh launch state ∧
      ∃ left bytes, state.stage launch = .writeRoot left ∧ state.files.root = some bytes ∧
        bytes ++ left = rootText crates (fresh launch) := by
  cases at_ : state.stage launch with
  | writeRoot left =>
    cases sound with
    | untouched root pin early =>
      have start := early launch
      rw [at_] at start
      cases start
    | owned owner owned =>
      obtain ⟨rfl, bytes, root, all⟩ := owned.writing launch left at_
      exact ⟨owned, left, bytes, rfl, root, all⟩
  | _ => rw [at_] at writing; cases writing

/-- Where the writer of the root stops, nobody writes. -/
theorem Owned.stopped (owned : Owned pluginId crates fresh owner state) (quiet : next.isWriting = false) (other : ℕ) :
    (Function.update state.stage owner next other).isWriting = false := by
  rw [Function.update_apply]
  split
  · exact quiet
  · next apart =>
    by_contra still
    cases stays : state.stage other with
    | writeRoot left => exact apart (owned.writing other left stays).1
    | _ => rw [stays] at still; exact still rfl

/-- What becomes of a root when the launch that writes it takes a step. -/
theorem cut_step_writing_iff (base64 : crates.WritesBase64) {secrets : String} (sound : Sound pluginId crates fresh state)
    {label : ℕ × LaunchAction} {target : Launches} (writing : (state.stage label.1).isWriting)
    (step : (firstLaunches crates secrets pluginId fresh).step? state label = some target) :
    Cut target ↔ cutsShort state label := by
  obtain ⟨launch, action⟩ := label
  obtain ⟨owned, left, bytes, at_, root, all⟩ := owned_of_writing sound writing
  simp only at at_ root all
  obtain ⟨-, ⟨more, rfl, rfl⟩ | ⟨error, rfl, rfl⟩ | ⟨kept, rfl, rfl⟩⟩ := firstLaunches_step step
  · have short : ¬ cutsShort state (launch, .go more) := by simp [cutsShort]
    refine iff_of_false (fun cut => ?_) short
    simp only [at_, goStage] at cut
    split at cut
    · next done =>
      obtain ⟨⟨found, same, small⟩, -⟩ := cut
      obtain rfl := Option.some.inj (root.symm.trans same)
      have length := length_rootText base64 (fresh launch).2
      rw [← all, done, List.append_nil] at length
      omega
    · exact not_cut_of_writes rfl cut
  · rw [cutsShort, writing, root]
    simp only [Bool.true_and, Option.any_some, decide_eq_true_eq]
    constructor
    · rintro ⟨⟨found, same, small⟩, -⟩
      obtain rfl := Option.some.inj (root.symm.trans same)
      exact small
    · exact fun small => ⟨⟨bytes, root, small⟩, owned.stopped rfl⟩
  · rw [cutsShort, writing, root]
    simp only [at_, crashFiles, root, Bool.true_and, Option.any_some, decide_eq_true_eq, ← List.length_take]
    constructor
    · rintro ⟨⟨found, same, small⟩, -⟩
      obtain rfl := Option.some.inj same
      exact small
    · exact fun small => ⟨⟨_, rfl, small⟩, owned.stopped rfl⟩

/-- What becomes of a root when another launch takes a step. -/
theorem cut_step_quiet_iff {secrets : String} {label : ℕ × LaunchAction} {target : Launches}
    (quiet : (state.stage label.1).isWriting = false)
    (step : (firstLaunches crates secrets pluginId fresh).step? state label = some target) :
    Cut target ↔ Cut state := by
  obtain ⟨launch, action⟩ := label
  obtain ⟨-, ⟨more, rfl, rfl⟩ | ⟨error, rfl, rfl⟩ | ⟨kept, rfl, rfl⟩⟩ := firstLaunches_step step
  · rcases @goStage_quiet pluginId crates secrets (fresh launch) state.files more _ quiet with ⟨same, still⟩ | ⟨free, starts⟩
    · exact cut_moved_iff same quiet still
    · refine iff_of_false (not_cut_of_writes starts) ?_
      rintro ⟨⟨bytes, root, -⟩, -⟩
      rw [free] at root
      cases root
  · exact cut_moved_iff rfl quiet rfl
  · have same : (crashFiles state.files kept (state.stage launch)).root = state.files.root := by
      cases at_ : state.stage launch with
      | writeRoot left => simp only [at_] at quiet; cases quiet
      | _ => rfl
    exact cut_moved_iff same quiet rfl

/-- A root is cut by the steps that cut it short, and stays cut. -/
theorem cut_step_iff (base64 : crates.WritesBase64) {secrets : String} (sound : Sound pluginId crates fresh state)
    {label : ℕ × LaunchAction} {target : Launches}
    (step : (firstLaunches crates secrets pluginId fresh).step? state label = some target) :
    Cut target ↔ Cut state ∨ cutsShort state label := by
  by_cases writing : (state.stage label.1).isWriting
  · rw [cut_step_writing_iff base64 sound writing step, or_iff_right (not_cut_of_writing writing)]
  · have quiet := eq_false_of_ne_true writing
    have short : cutsShort state label = false := by
      change ((state.stage label.1).isWriting && _) = false
      rw [quiet, Bool.false_and]
    rw [cut_step_quiet_iff quiet step, short, or_iff_left Bool.false_ne_true]

/-- In every run the launches are sound, and a root is cut exactly if one of the steps cut it short. -/
theorem sound_of_path (base64 : crates.WritesBase64) (padded : crates.Padded) {secrets : String}
    {events : List (ℕ × LaunchAction)}
    (path : (firstLaunches crates secrets pluginId fresh).Path .start events state) :
    Sound pluginId crates fresh state ∧
      (Cut state ↔ ¬ ((firstLaunches crates secrets pluginId fresh).guard fun state label => cutsShort state label = false).Path
        .start events state) := by
  induction events using List.reverseRecOn generalizing state with
  | nil =>
    obtain rfl := Machine.path_nil_iff.mp path
    refine ⟨.untouched rfl rfl fun _ => rfl, iff_of_false ?_ ?_⟩
    · rintro ⟨⟨bytes, root, -⟩, -⟩
      cases root
    · exact not_not.mpr (Machine.path_nil_iff.mpr rfl)
  | append_singleton past label ih =>
    obtain ⟨middle, before, step⟩ := Machine.path_snoc_iff.mp path
    obtain ⟨sound, cut⟩ := ih before
    refine ⟨sound_step base64 padded sound step, ?_⟩
    rw [cut_step_iff base64 sound step, Machine.Path.guard_snoc_iff before step, cut, not_and_or, Bool.not_eq_false]

end Invariant

end RyuRooms.Crypto
