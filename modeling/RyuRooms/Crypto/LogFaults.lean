import RyuRooms.Crypto.LogRuns

/-! # A log through failed writes

A write that fails in the middle of a frame leaves the part it wrote, and neither cuts it off nor moves the
writer back. A log is sound as long as nothing is written after such a part.
-/

namespace RyuRooms.Crypto

open Foundation

/-- A call of `append`, and where its write fails if it does. -/
structure Attempt where
  record : Bytes
  nonce : Nonce
  fault : Option ℕ

/-- Appends records one after the other, whether or not one of them fails: the writer, and what was appended. -/
def appendAll (crates : Crates) (writer : SealedLogWriter) : List Attempt → SealedLogWriter × List Bytes
  | [] => (writer, [])
  | attempt :: attempts =>
    match writer.append crates attempt.record attempt.nonce attempt.fault with
    | .ok _ next =>
      let (last, appended) := appendAll crates next attempts
      (last, attempt.record :: appended)
    | .error _ next => appendAll crates next attempts

namespace Attempt

variable (attempt : Attempt)

/-- The attempt puts bytes into the file. -/
def Writes : Prop := Accepted attempt.record ∧ attempt.fault ≠ some 0

/-- The attempt fails and leaves bytes in the file. -/
def LeavesPart : Prop := attempt.Writes ∧ attempt.fault ≠ none

/-- Nothing is written after a part of a frame. -/
def Settled (attempts : List Attempt) : Prop :=
  attempts.Pairwise fun earlier later => earlier.LeavesPart → ¬ later.Writes

end Attempt

/-- A plaintext is its ciphertext without the tag. -/
def Crates.Untagged (crates : Crates) : Prop :=
  ∀ key nonce ciphertext aad message, crates.decrypt key nonce ciphertext aad = some message →
    ciphertext.length = message.length + TAG_LEN

section Settled

variable {crates : Crates} {cipher : ContentCipher} {context : ContentContext} {salt : Salt}
  {written : List (Bytes × Nonce)} {part : Bytes} {writer : SealedLogWriter} {record : Bytes} {nonce : Nonce}

namespace SealedLogWriter

/-- A write that fails before its first byte changes nothing. -/
theorem append_failed_zero (position : writer.file.position = writer.file.bytes.length) (accepted : Accepted record) :
    writer.append crates record nonce (some 0) = .error "appending a sealed log record" writer := by
  have unchanged : writer.file.write [] = writer.file := by
    rw [write_end _ _ position, List.append_nil, List.length_nil, Nat.add_zero, ← position]
  rw [append_failed accepted, Nat.zero_min, List.take_zero, unchanged]

/-- A write that fails leaves a part of the frame after the last one. -/
theorem At.fail (tagged : crates.Tagged) (there : writer.At crates cipher context salt written [])
    (accepted : Accepted record) (done : ℕ) : ∃ error next, writer.append crates record nonce (some done) = .error error next ∧
      ∃ part, next.At crates cipher context salt written part := by
  have bytes_eq := there.stored.bytes_eq
  rw [List.append_nil] at bytes_eq
  let frame_ := frame crates (logHeader salt) (logKeyFor crates cipher context salt) written.length record nonce
  have size : frame_.length = record.length + 32 := length_frame tagged _ _ _
  have torn : Torn (IsFrame crates (logHeader salt) (logKeyFor crates cipher context salt))
      (frame_.take (min done (frame_.length - 1))) :=
    ⟨frame_, ⟨written.length, record, nonce, accepted, rfl⟩, min done (frame_.length - 1), by omega, rfl⟩
  rw [append_failed accepted, nextFrame, there.header, there.key, there.nextIndex, write_end _ _ there.position]
  refine ⟨_, _, rfl, frame_.take (min done (frame_.length - 1)), ⟨?_, there.stored.accepted, torn⟩, ?_, rfl, rfl, rfl⟩
  · rw [bytes_eq, List.append_assoc]
  · simp only [List.length_append]

end SealedLogWriter

/-- As long as nothing is written after a part of a frame, the log holds what was appended. -/
theorem appendAll_at (tagged : crates.Tagged) (attempts : List Attempt)
    (there : writer.At crates cipher context salt written part)
    (spent : part ≠ [] → ∀ attempt ∈ attempts, ¬ attempt.Writes) (settled : Attempt.Settled attempts) :
    ∃ written_ part_, (appendAll crates writer attempts).1.At crates cipher context salt written_ part_ ∧
      written_.map Prod.fst = written.map Prod.fst ++ (appendAll crates writer attempts).2 ∧
      (part = [] → (∀ attempt ∈ attempts, ¬ attempt.LeavesPart) → part_ = []) := by
  induction attempts generalizing writer written part with
  | nil => exact ⟨written, part, there, (List.append_nil _).symm, fun whole _ => whole⟩
  | cons attempt attempts ih =>
    obtain ⟨later, onward⟩ := List.pairwise_cons.mp settled
    obtain ⟨record, nonce, fault⟩ := attempt
    have rest (still : part ≠ []) (other : Attempt) (member : other ∈ attempts) : ¬ other.Writes :=
      spent still other (List.mem_cons_of_mem _ member)
    have unchanged (error : String)
        (refused : writer.append crates record nonce fault = .error error writer) :
        ∃ written_ part_, (appendAll crates writer (⟨record, nonce, fault⟩ :: attempts)).1.At crates cipher context
            salt written_ part_ ∧
          written_.map Prod.fst = written.map Prod.fst ++ (appendAll crates writer (⟨record, nonce, fault⟩ :: attempts)).2 ∧
          (part = [] → (∀ attempt ∈ Attempt.mk record nonce fault :: attempts, ¬ attempt.LeavesPart) → part_ = []) := by
      rw [appendAll, refused]
      obtain ⟨written_, part_, at_, same, whole⟩ := ih there rest onward
      exact ⟨written_, part_, at_, same, fun empty none =>
        whole empty fun other member => none other (List.mem_cons_of_mem _ member)⟩
    by_cases accepted : Accepted record
    · cases fault with
      | none =>
        have empty : part = [] := by
          by_contra still
          exact spent still _ List.mem_cons_self ⟨accepted, by simp⟩
        subst empty
        obtain ⟨next, appended, moved⟩ := @there.append _ _ _ _ _ _ _ nonce tagged accepted
        rw [appendAll, appended]
        obtain ⟨written_, part_, at_, same, whole⟩ := ih moved (fun still => absurd rfl still) onward
        refine ⟨written_, part_, at_, ?_, fun empty none =>
          whole empty fun other member => none other (List.mem_cons_of_mem _ member)⟩
        rw [same, List.map_append, List.append_assoc]
        rfl
      | some done =>
        cases done with
        | zero => exact unchanged _ (SealedLogWriter.append_failed_zero there.position accepted)
        | succ done =>
          have leaves : Attempt.LeavesPart ⟨record, nonce, some (done + 1)⟩ := ⟨⟨accepted, by simp⟩, by simp⟩
          have empty : part = [] := by
            by_contra still
            exact spent still _ List.mem_cons_self leaves.1
          subst empty
          obtain ⟨error, next, failed, more, moved⟩ := @there.fail _ _ _ _ _ _ _ nonce tagged accepted (done + 1)
          rw [appendAll, failed]
          obtain ⟨written_, part_, at_, same, -⟩ := ih moved (fun _ other member => later other member leaves) onward
          exact ⟨written_, part_, at_, same, fun _ none => absurd leaves (none _ List.mem_cons_self)⟩
    · exact unchanged _ (SealedLogWriter.append_refused accepted fault)

end Settled

section Sizes

variable {crates : Crates} {writer : SealedLogWriter} {header key bytes rest plain : Bytes} {index frameLen : ℕ}

/-- The size of the frames of some records. -/
def framesLen (records : List Bytes) : ℕ := records.flatten.length + 32 * records.length

@[simp] theorem framesLen_nil : framesLen [] = 0 := rfl

theorem framesLen_append (records more : List Bytes) : framesLen (records ++ more) = framesLen records + framesLen more := by
  simp only [framesLen, List.flatten_append, List.length_append]
  omega

theorem framesLen_cons (record : Bytes) (records : List Bytes) :
    framesLen (record :: records) = record.length + 32 + framesLen records := by
  simp only [framesLen, List.flatten_cons, List.length_append, List.length_cons]
  omega

theorem length_framesFrom (tagged : crates.Tagged) (index : ℕ) (written : List (Bytes × Nonce)) :
    (framesFrom crates header key index written).flatten.length = framesLen (written.map Prod.fst) := by
  induction written generalizing index with
  | nil => rfl
  | cons entry written ih =>
    rw [framesFrom, List.flatten_cons, List.length_append, ih, length_frame tagged, List.map_cons, framesLen_cons]

/-- A record that a scan finds is as long as its frame tells. -/
theorem findRecord_eq_record (untagged : crates.Untagged)
    (found : findRecord crates header key index rest = .ok (.record plain frameLen)) :
    frameLen = plain.length + 32 ∧ frameLen ≤ rest.length := by
  rw [findRecord] at found
  split at found
  · cases found
  · split at found
    · cases found
    · next long =>
      simp only at found
      split at found
      · split at found <;> cases found
      · split at found
        · cases found
        · next size inside =>
          split at found
          · next opened =>
            obtain ⟨rfl, rfl⟩ := Found.record.inj (Except.ok.inj found)
            have length := untagged _ _ _ _ _ opened
            rw [List.length_drop, List.length_take, List.length_drop] at length
            rw [List.length_drop] at inside
            rw [NONCE_LEN, TAG_LEN] at *
            omega
          · split at found <;> cases found

theorem findRecord_eq_clean (found : findRecord crates header key index rest = .ok (.ended .clean)) : rest = [] := by
  rw [findRecord] at found
  split at found
  · assumption
  · split at found
    · cases found
    · simp only at found
      split at found
      · split at found <;> cases found
      · split at found
        · cases found
        · split at found
          · cases found
          · split at found <;> cases found

/-- A scan that ends clean has found records whose frames fill the log. -/
theorem scanFrom_clean (untagged : crates.Untagged) {fuel position : ℕ} {records : List Bytes} {scan : Scan}
    (inside : position ≤ bytes.length)
    (scanned : scanFrom crates header key bytes true fuel position index records = .ok scan) (clean : scan.tail = .clean) :
    bytes.length + framesLen records = position + framesLen scan.records := by
  induction fuel generalizing position index records with
  | zero => cases scanned
  | succ fuel ih =>
    obtain ⟨found, there, scanned⟩ := bind_eq_ok_iff.mp scanned
    cases found with
    | ended tail =>
      obtain rfl := Except.ok.inj scanned
      change tail = .clean at clean
      subst clean
      have empty := congrArg List.length (findRecord_eq_clean there)
      rw [List.length_drop, List.length_nil] at empty
      simp only
      omega
    | record plain frameLen =>
      obtain ⟨size, room⟩ := findRecord_eq_record untagged there
      rw [List.length_drop] at room
      have onward := ih (by omega) scanned
      rw [if_pos rfl, framesLen_append, framesLen_cons, framesLen_nil] at onward
      omega

theorem tryKeys_eq_ok {aad : Bytes} {keepRecords : Bool} {firstError : Option String} {candidates : List (ContentKey × Bool)}
    {opened : OpenedLog} (tried : tryKeys crates bytes header aad keepRecords firstError candidates = .ok opened) :
    scanWith crates header opened.key bytes keepRecords = .ok opened.scan := by
  induction candidates generalizing firstError with
  | nil => cases tried
  | cons candidate candidates ih =>
    rw [tryKeys] at tried
    split at tried
    · next scan scanned =>
      split at tried
      · exact ih tried
      · obtain rfl := Except.ok.inj tried
        exact scanned
    · exact ih tried

/-- A log that a strict reader reads is as long as the frames of its records. -/
theorem length_of_readLogBytes (untagged : crates.Untagged) {cipher : ContentCipher} {context : ContentContext}
    {records : List Bytes} (read : readLogBytes crates bytes cipher context = .ok records) :
    bytes.length = SEALED_LOG_HEADER_LEN + framesLen records := by
  obtain ⟨opened, found, read⟩ := bind_eq_ok_iff.mp read
  obtain ⟨_, whole, read⟩ := bind_eq_ok_iff.mp read
  obtain rfl := Except.ok.inj read
  obtain ⟨_, long, found⟩ := bind_eq_ok_iff.mp found
  obtain ⟨_, _, found⟩ := bind_eq_ok_iff.mp found
  have clean : opened.scan.tail = .clean := by
    have whole := bailIf_eq_ok_iff.mp whole
    rw [Scan.tornTail, decide_eq_true_eq] at whole
    exact Decidable.not_not.mp whole
  exact scanFrom_clean untagged (Nat.le_of_not_lt (bailIf_eq_ok_iff.mp long)) (tryKeys_eq_ok found) clean

/-- Appending makes a log longer by the frames of what was appended and by the parts that were left. -/
theorem length_appendAll (tagged : crates.Tagged) (attempts : List Attempt)
    (position : writer.file.position = writer.file.bytes.length) : ∃ left,
      (appendAll crates writer attempts).1.file.bytes.length =
        writer.file.bytes.length + framesLen (appendAll crates writer attempts).2 + left ∧
      (left = 0 → ∀ attempt ∈ attempts, ¬ attempt.LeavesPart) := by
  induction attempts generalizing writer with
  | nil => exact ⟨0, rfl, fun _ attempt member => by cases member⟩
  | cons attempt attempts ih =>
    obtain ⟨record, nonce, fault⟩ := attempt
    by_cases accepted : Accepted record
    · have size : (writer.nextFrame crates record nonce).length = record.length + 32 := length_frame tagged _ _ _
      cases fault with
      | none =>
        rw [appendAll, SealedLogWriter.append_written accepted, SealedLogWriter.write_end _ _ position]
        obtain ⟨left, length, none_⟩ := @ih { writer with
          file := ⟨writer.file.bytes ++ writer.nextFrame crates record nonce,
            writer.file.bytes.length + (writer.nextFrame crates record nonce).length⟩
          nextIndex := writer.nextIndex + 1 } (List.length_append).symm
        refine ⟨left, ?_, fun nothing => List.forall_mem_cons.mpr ⟨fun leaves => leaves.2 rfl, none_ nothing⟩⟩
        simp only [List.length_append] at length ⊢
        rw [framesLen_cons]
        omega
      | some done =>
        rw [appendAll, SealedLogWriter.append_failed accepted, SealedLogWriter.write_end _ _ position]
        have partial_ : ((writer.nextFrame crates record nonce).take
            (min done ((writer.nextFrame crates record nonce).length - 1))).length = min done (record.length + 31) := by
          rw [List.length_take, size]
          omega
        generalize (writer.nextFrame crates record nonce).take
          (min done ((writer.nextFrame crates record nonce).length - 1)) = part at partial_ ⊢
        obtain ⟨left, length, none_⟩ := @ih { writer with
          file := ⟨writer.file.bytes ++ part, writer.file.bytes.length + part.length⟩ } (List.length_append).symm
        refine ⟨part.length + left, ?_, fun nothing => List.forall_mem_cons.mpr ⟨fun leaves => ?_, none_ (by omega)⟩⟩
        · simp only [List.length_append] at length ⊢
          omega
        · have never : done = 0 := by omega
          exact leaves.1.2 (congrArg some never)
    · obtain ⟨left, length, none_⟩ := ih position
      rw [appendAll, SealedLogWriter.append_refused accepted]
      exact ⟨left, length, fun nothing => List.forall_mem_cons.mpr ⟨fun leaves => accepted leaves.1.1, none_ nothing⟩⟩

end Sizes

namespace Sample

def logWriter : SealedLogWriter := .create crates cipher context salt

theorem untagged : crates.Untagged := by
  intro key nonce ciphertext aad message opened
  obtain ⟨same, taken⟩ := Option.ite_none_right_eq_some.mp opened
  have length := congrArg List.length same
  rw [Option.some.inj taken] at length
  exact length.symm.trans (opens.length key nonce message aad)

end Sample

section Results

variable {crates : Crates} {cipher : ContentCipher} {context : ContentContext} {events : List LogEvent}
  {writer : SealedLogWriter}

/-- A log reads as what was appended if and only if no failed write left bytes, and recovers until more are written. -/
theorem appendAll_reads_iff (opens : crates.Opens) (untagged : crates.Untagged)
    (run : (Log.machine crates cipher context).Run events (.writing writer)) (attempts : List Attempt) :
    let file := (appendAll crates writer attempts).1.file.bytes
    let records := events.foldl Log.committed [] ++ (appendAll crates writer attempts).2
    (readLogBytes crates file cipher context = .ok records ↔ ∀ attempt ∈ attempts, ¬ attempt.LeavesPart) ∧
      (Attempt.Settled attempts → ∃ torn, openRecovering crates file cipher context = .ok ⟨records, torn, false⟩) := by
  intro file records
  obtain ⟨salt, written, same, there⟩ := (Log.Run.holds opens run).writer
  have start : writer.file.bytes.length = SEALED_LOG_HEADER_LEN + framesLen (events.foldl Log.committed []) := by
    rw [there.stored.length_bytes, List.length_nil, Nat.add_zero, Stored.committedEnd, length_framesFrom opens.length, same]
  constructor
  · constructor
    · intro read
      obtain ⟨left, length, nothing⟩ := @length_appendAll crates writer opens.length attempts there.position
      have filled := length_of_readLogBytes untagged read
      rw [framesLen_append] at filled
      change (appendAll crates writer attempts).1.file.bytes.length = _ at filled
      apply nothing
      omega
    · intro none_
      have settled : Attempt.Settled attempts :=
        List.pairwise_of_forall_mem_list fun earlier member _ _ leaves => absurd leaves (none_ earlier member)
      obtain ⟨written_, part_, at_, appended, whole⟩ :=
        appendAll_at opens.length attempts there (fun still => absurd rfl still) settled
      have read := at_.stored.readLogBytes opens (whole rfl none_)
      rw [appended, same] at read
      exact read
  · intro settled
    obtain ⟨written_, part_, at_, appended, -⟩ :=
      appendAll_at opens.length attempts there (fun still => absurd rfl still) settled
    have recovered := at_.stored.openRecovering opens
    rw [appended, same] at recovered
    exact ⟨_, recovered⟩

end Results

/-- A record, and a write that fails after three bytes. -/
theorem appendAll_reads_iff_part :
    let last := appendAll Sample.crates Sample.logWriter [⟨[7], Sample.nonce, none⟩, ⟨[1], Sample.nonce, some 3⟩]
    readLogBytes Sample.crates last.1.file.bytes Sample.cipher Sample.context ≠ .ok [[7]] ∧
      ∃ torn, openRecovering Sample.crates last.1.file.bytes Sample.cipher Sample.context = .ok ⟨[[7]], torn, false⟩ := by
  have run : (Log.machine Sample.crates Sample.cipher Sample.context).Run [] (.writing Sample.logWriter) :=
    .nil ⟨Sample.salt, rfl⟩
  obtain ⟨strict, recovers⟩ := appendAll_reads_iff Sample.opens Sample.untagged run
    [⟨[7], Sample.nonce, none⟩, ⟨[1], Sample.nonce, some 3⟩]
  have accepted : Accepted [1] := by decide
  have part : Attempt.LeavesPart ⟨[1], Sample.nonce, some 3⟩ := ⟨⟨accepted, by decide⟩, by decide⟩
  refine ⟨fun read => strict.mp read _ (List.mem_cons_of_mem _ (List.mem_singleton_self _)) part, recovers ?_⟩
  refine List.pairwise_pair.mpr fun leaves _ => leaves.2 rfl

/-- The record that follows a write that failed takes every record with it. -/
theorem appendAll_loses :
    let last := appendAll Sample.crates Sample.logWriter
      [⟨[7], Sample.nonce, none⟩, ⟨[1], Sample.nonce, some 3⟩, ⟨[2], Sample.nonce, none⟩]
    last.2 = [[7], [2]] ∧ (readLogBytes Sample.crates last.1.file.bytes Sample.cipher Sample.context).isOk = false ∧
      (openRecovering Sample.crates last.1.file.bytes Sample.cipher Sample.context).isOk = false ∧
      (SealedLogWriter.openAppend Sample.crates last.1.file.bytes Sample.cipher Sample.context).isOk = false := by
  decide +kernel

end RyuRooms.Crypto
