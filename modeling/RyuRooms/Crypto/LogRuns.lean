import RyuRooms.Crypto.SealedLog

/-! # A log through crashes

However often a log is appended to, cut by a crash and opened again, it holds the records whose frames every
crash left whole, and each reader returns them.
-/

namespace RyuRooms.Crypto

open Foundation

instance (record : Bytes) : Decidable (Accepted record) := inferInstanceAs (Decidable (_ ≤ _))

namespace Log

/-- The records of a log after an event: a crash keeps those whose frames lie whole before the cut. -/
def committed (records : List Bytes) : LogEvent → List Bytes
  | .append record _ => if Accepted record then records ++ [record] else records
  | .crash room => records.take (wholeWithin (records.map (·.length + 32)) room)
  | .reopen => records

variable {crates : Crates} {cipher : ContentCipher} {context : ContentContext} {records : List Bytes} {log next : Log}

/-- A log holds these records, and nothing else if it has a writer. -/
inductive Holds (crates : Crates) (cipher : ContentCipher) (context : ContentContext) : List Bytes → Log → Prop where
  | writing {salt : Salt} {written : List (Bytes × Nonce)} {writer : SealedLogWriter}
      (at_ : writer.At crates cipher context salt written []) :
      Holds crates cipher context (written.map Prod.fst) (.writing writer)
  | closed {salt : Salt} {written : List (Bytes × Nonce)} {part bytes : Bytes}
      (stored : Stored crates cipher context salt written part bytes) :
      Holds crates cipher context (written.map Prod.fst) (.closed bytes)

theorem Holds.stored (holds : Holds crates cipher context records log) : ∃ salt written part,
    written.map Prod.fst = records ∧ Stored crates cipher context salt written part log.bytes := by
  cases holds with
  | writing at_ => exact ⟨_, _, _, rfl, at_.stored⟩
  | closed stored => exact ⟨_, _, _, rfl, stored⟩

theorem Holds.writer {writer : SealedLogWriter} (holds : Holds crates cipher context records (.writing writer)) :
    ∃ salt written, written.map Prod.fst = records ∧ writer.At crates cipher context salt written [] := by
  cases holds with
  | writing at_ => exact ⟨_, _, rfl, at_⟩

theorem Holds.reopen (opens : crates.Opens) (holds : Holds crates cipher context records log) :
    ∃ writer, step? crates cipher context log .reopen = some (.writing writer) ∧
      Holds crates cipher context records (.writing writer) := by
  obtain ⟨salt, written, part, rfl, stored⟩ := holds.stored
  obtain ⟨writer, opened, at_⟩ := SealedLogWriter.openAppend_stored opens stored
  refine ⟨writer, ?_, .writing at_⟩
  cases log <;> rw [step?, opened]

/-- An event makes of a log what it makes of its records. -/
theorem Holds.step (opens : crates.Opens) (holds : Holds crates cipher context records log) {event : LogEvent}
    (stepped : step? crates cipher context log event = some next) :
    Holds crates cipher context (committed records event) next := by
  cases event with
  | append record nonce =>
    cases holds with
    | closed => cases stepped
    | @writing salt written writer at_ =>
      rw [committed]
      split
      · next accepted =>
        obtain ⟨target, appended, moved⟩ := @at_.append _ _ _ _ _ _ _ nonce opens.length accepted
        rw [step?, appended] at stepped
        obtain rfl := Option.some.inj stepped
        have holds := Holds.writing moved
        rw [List.map_append] at holds
        exact holds
      · next refused =>
        rw [step?, SealedLogWriter.append_refused refused] at stepped
        obtain rfl := Option.some.inj stepped
        exact .writing at_
  | crash room =>
    obtain ⟨salt, written, part, rfl, stored⟩ := holds.stored
    obtain ⟨rest, cut⟩ := stored.crash opens.length room
    obtain rfl : Log.closed (log.bytes.take (SEALED_LOG_HEADER_LEN + room)) = next := by
      cases log <;> exact Option.some.inj stepped
    rw [committed, List.map_map, ← List.map_take]
    exact .closed cut
  | reopen =>
    obtain ⟨writer, opened, moved⟩ := holds.reopen opens
    obtain rfl := Option.some.inj (opened.symm.trans stepped)
    exact moved

/-- A run of a log holds the records of its events. -/
theorem Run.holds (opens : crates.Opens) {events : List LogEvent} (run : (machine crates cipher context).Run events log) :
    Holds crates cipher context (events.foldl committed []) log := by
  refine run.history (fun past log => Holds crates cipher context (past.foldl committed []) log) ?_ ?_
  · rintro _ ⟨salt, rfl⟩
    exact .writing (SealedLogWriter.create_at opens.length)
  · intro past state event target _ holds stepped
    rw [List.foldl_append]
    exact holds.step opens stepped

end Log

section Results

variable {crates : Crates} {cipher : ContentCipher} {context : ContentContext} {events : List LogEvent} {log : Log}

/-- A log compacts to a sealed file that reads back as its records, one after the other. -/
theorem compactToSealedFile_reads (opens : crates.Opens) {bytes : Bytes} {records : List Bytes}
    (read : readLogBytes crates bytes cipher context = .ok records) (fileContext : ContentContext) (salt : Salt) :
    ∃ finished, compactToSealedFile crates bytes cipher context fileContext salt = .ok finished ∧
      finished.plaintextLen = records.flatten.length ∧ (finished.sink.length < 2 ^ 64 →
        ∃ reader, SealedFileReader.openFile crates finished.sink cipher fileContext = .ok reader ∧
          reader.plaintextLen = records.flatten.length ∧ ∀ ranges, reader.answers crates ranges =
            ranges.map fun range => .ok ((records.flatten.drop range.1).take range.2)) := by
  obtain ⟨chunks, -, -, plaintextLen, -⟩ := @finish_writePieces crates cipher fileContext DEFAULT_CHUNK_LOG2 salt records
  have wrote : writeFile crates cipher fileContext DEFAULT_CHUNK_LOG2 salt records = .ok _ :=
    writeFile_eq_ok_iff.mpr ⟨by decide, rfl⟩
  exact ⟨_, bind_eq_ok_iff.mpr ⟨records, read, wrote⟩, plaintextLen, fun fits => (sealedFile_reads opens wrote fits).2.2.2⟩

/-- After appends, crashes and reopenings every reader finds the records that are whole, and so does a new writer. -/
theorem sealedLog_keeps (opens : crates.Opens) (run : (Log.machine crates cipher context).Run events log) :
    let records := events.foldl Log.committed []
    (∃ torn, openRecovering crates log.bytes cipher context = .ok ⟨records, torn, false⟩) ∧
      (∃ writer, (Log.machine crates cipher context).step? log .reopen = some (.writing writer)) ∧
      ∀ writer, log = .writing writer → writer.nextIndex = records.length ∧
        readLogBytes crates log.bytes cipher context = .ok records ∧
        openRecovering crates log.bytes cipher context = .ok ⟨records, false, false⟩ ∧
        ∀ fileContext salt, ∃ finished,
          compactToSealedFile crates log.bytes cipher context fileContext salt = .ok finished ∧
          finished.plaintextLen = records.flatten.length ∧ (finished.sink.length < 2 ^ 64 →
            ∃ reader, SealedFileReader.openFile crates finished.sink cipher fileContext = .ok reader ∧
              reader.plaintextLen = records.flatten.length ∧ ∀ ranges, reader.answers crates ranges =
                ranges.map fun range => .ok ((records.flatten.drop range.1).take range.2)) := by
  intro records
  have holds := Log.Run.holds opens run
  refine ⟨?_, ?_, ?_⟩
  · obtain ⟨salt, written, part, same, stored⟩ := holds.stored
    exact ⟨_, same ▸ stored.openRecovering opens⟩
  · obtain ⟨writer, opened, -⟩ := holds.reopen opens
    exact ⟨writer, opened⟩
  · rintro writer rfl
    obtain ⟨salt, written, same, at_⟩ := holds.writer
    have read := at_.stored.readLogBytes opens rfl
    rw [same] at read
    refine ⟨?_, read, ?_, compactToSealedFile_reads opens read⟩
    · exact at_.nextIndex.trans ((List.length_map _).symm.trans (congrArg List.length same))
    · have recovered := at_.stored.openRecovering opens
      rw [same] at recovered
      exact recovered

/-- A crash cuts the second of two records, and a third one follows the first. -/
theorem sealedLog_keeps_cut :
    ∃ log, (Log.machine Sample.crates Sample.cipher Sample.context).Run [.append [1] Sample.nonce,
      .append [2, 2] Sample.nonce, .crash 50, .reopen, .append [3] Sample.nonce] log ∧
      ∃ torn, openRecovering Sample.crates log.bytes Sample.cipher Sample.context = .ok ⟨[[1], [3]], torn, false⟩ := by
  obtain ⟨log, run⟩ := @Machine.Run.of_isSome _ _ (Log.machine Sample.crates Sample.cipher Sample.context)
    (.writing (.create Sample.crates Sample.cipher Sample.context Sample.salt)) [.append [1] Sample.nonce,
      .append [2, 2] Sample.nonce, .crash 50, .reopen, .append [3] Sample.nonce] ⟨Sample.salt, rfl⟩ (by decide +kernel)
  exact ⟨log, run, (sealedLog_keeps Sample.opens run).1⟩

end Results

end RyuRooms.Crypto
