import RyuRooms.Crypto.Splice
import RyuRooms.Model.SealedCursor

/-! # A sealed file reader as a cursor

A reader of a sealed file answers reads and seeks as a cursor over the plaintext does, as long as no seek asks
for an offset past the largest `u64`: such an offset is reduced instead of refused.
-/

namespace RyuRooms.Crypto

open Foundation

/-- A call on a cursor over a plaintext, with its answer. -/
inductive CursorStep (plaintext : Bytes) (position : ℕ) : IoCall × IoAnswer → ℕ → Prop
  | read {bufLen : ℕ} {bytes : Bytes} (starts : bytes <+: plaintext.drop position) (fits : bytes.length ≤ bufLen)
      (some : bytes = [] → bufLen = 0 ∨ plaintext.length ≤ position) :
      CursorStep plaintext position (.read bufLen, .bytes bytes) (position + bytes.length)
  | moved {pos : SeekFrom} {reached : ℕ} (exactly : pos.target plaintext.length position = reached)
      (fits : reached < 2 ^ 64) : CursorStep plaintext position (.seek pos, .position reached) reached
  | refused {pos : SeekFrom} {message : String}
      (outside : pos.target plaintext.length position < 0 ∨ 2 ^ 64 ≤ pos.target plaintext.length position) :
      CursorStep plaintext position (.seek pos, .error message) position

/-- Calls on a cursor one after the other. -/
def CursorPath (plaintext : Bytes) : ℕ → List (IoCall × IoAnswer) → ℕ → Prop
  | first, [], last => first = last
  | first, label :: labels, last =>
    ∃ middle, CursorStep plaintext first label middle ∧ CursorPath plaintext middle labels last

theorem CursorPath.snoc {plaintext : Bytes} {first middle last : ℕ} {labels : List (IoCall × IoAnswer)}
    {label : IoCall × IoAnswer} (path : CursorPath plaintext first labels middle)
    (step : CursorStep plaintext middle label last) : CursorPath plaintext first (labels ++ [label]) last := by
  induction labels generalizing first with
  | nil =>
    obtain rfl := path
    exact ⟨last, step, rfl⟩
  | cons head labels ih =>
    obtain ⟨next, begins, rest⟩ := path
    exact ⟨next, begins, ih rest⟩

/-- No seek asks for an offset past the largest `u64`. -/
def PositionedReader.Representable (state : PositionedReader) : IoCall → Prop
  | .read _ => True
  | .seek pos => pos.target state.reader.plaintextLen state.position < 2 ^ 64

instance (state : PositionedReader) (call : IoCall) : Decidable (state.Representable call) := by
  cases call <;> unfold PositionedReader.Representable <;> infer_instance

theorem asU64_of_fits {target : ℤ} (positive : 0 ≤ target) (fits : target < 2 ^ 64) : (asU64 target : ℤ) = target := by
  rw [asU64, Int.emod_eq_of_lt positive fits, Int.toNat_of_nonneg positive]

theorem asU64_lt (target : ℤ) : asU64 target < 2 ^ 64 := by
  rw [asU64]
  have := Int.emod_lt_of_pos target (show (0 : ℤ) < 2 ^ 64 by decide)
  have := Int.emod_nonneg target (show (2 ^ 64 : ℤ) ≠ 0 by decide)
  omega

namespace PositionedReader

variable {crates : Crates} {size : ℕ} {chunks : Chunks size} {state : PositionedReader}

/-- The reader under a position reads the plaintext of some chunks. -/
structure Reads (crates : Crates) (state : PositionedReader) (chunks : Chunks size) : Prop where
  faithful : state.reader.Faithful crates chunks
  complete : state.reader.Complete crates chunks

/-- A read gives the next bytes, and moves past them. -/
theorem Reads.read (reads : state.Reads crates chunks) (positive : 0 < size) (bufLen : ℕ) :
    CursorStep chunks.plaintext state.position (.read bufLen, (state.read crates bufLen).1)
        (state.read crates bufLen).2.position ∧
      (state.read crates bufLen).2.Reads crates chunks := by
  have len := reads.faithful.plaintextLen
  rw [PositionedReader.read]
  split
  · next nothing =>
    rw [len] at nothing
    exact ⟨.read List.nil_prefix (Nat.zero_le _) fun _ => nothing.symm, reads⟩
  · next more =>
    simp only [not_or, not_le, len] at more
    obtain ⟨index, offset, rest, there⟩ := chunks.drop_position more.1 positive
    have loaded := reads.faithful.loadChunk index
    simp only [reads.faithful.chunkSize]
    cases result : SealedFileReader.loadChunk crates (state.position / size) state.reader with
    | error message reader =>
      rw [result] at loaded
      exact absurd reads.complete loaded.2
    | ok chunk reader =>
      rw [result] at loaded
      obtain ⟨rfl, faithful, keeps⟩ := loaded
      simp only [faithful.chunkSize]
      set within := state.position - state.position / size * size with isWithin
      set take := min bufLen ((chunks.chunk (state.position / size)).length - within) with isTake
      have length : (((chunks.chunk (state.position / size)).drop within).take take).length = take := by
        rw [List.length_take, List.length_drop]
        omega
      have step : CursorStep chunks.plaintext state.position
          (.read bufLen, .bytes (((chunks.chunk (state.position / size)).drop within).take take))
          (state.position + (((chunks.chunk (state.position / size)).drop within).take take).length) := by
        refine .read ?_ (by omega) fun empty => ?_
        · rw [there]
          exact (List.take_prefix _ _).trans (List.prefix_append _ _)
        · rw [empty, List.length_nil] at length
          omega
      rw [length] at step
      exact ⟨step, faithful, keeps reads.complete⟩

/-- A seek does what it does on a cursor exactly if its target fits. -/
theorem Reads.seek_iff (reads : state.Reads crates chunks) (pos : SeekFrom) :
    CursorStep chunks.plaintext state.position (.seek pos, (state.seek pos).1) (state.seek pos).2.position ↔
      pos.target chunks.plaintext.length state.position < 2 ^ 64 := by
  rw [PositionedReader.seek, reads.faithful.plaintextLen]
  split
  · next before => exact iff_of_true (.refused (Or.inl before)) (before.trans (by decide))
  · next after =>
    constructor
    · intro step
      cases step with
      | moved exactly fits =>
        rw [exactly]
        exact_mod_cast fits
    · intro fits
      have exactly := asU64_of_fits (Int.not_lt.mp after) fits
      exact .moved exactly.symm (asU64_lt _)

theorem Reads.seek (reads : state.Reads crates chunks) (pos : SeekFrom) : (state.seek pos).2.Reads crates chunks := by
  rw [PositionedReader.seek]
  split
  · exact reads
  · exact ⟨reads.faithful, reads.complete⟩

/-- A call does what it does on a cursor exactly if no seek asks for an offset past the largest `u64`. -/
theorem Reads.exec_iff (reads : state.Reads crates chunks) (positive : 0 < size) (call : IoCall) :
    (CursorStep chunks.plaintext state.position (call, (state.exec crates call).1) (state.exec crates call).2.position ↔
      state.Representable call) ∧ (state.exec crates call).2.Reads crates chunks := by
  cases call with
  | read bufLen =>
    obtain ⟨step, after⟩ := reads.read positive bufLen
    exact ⟨iff_of_true step trivial, after⟩
  | seek pos =>
    refine ⟨?_, reads.seek pos⟩
    rw [Representable, reads.faithful.plaintextLen]
    exact reads.seek_iff pos

/-- In a run whose seeks all fit, a reader is a cursor over the plaintext. -/
theorem Reads.path {reader : SealedFileReader} (reads : (⟨reader, 0⟩ : PositionedReader).Reads crates chunks)
    (positive : 0 < size) {labels : List (IoCall × IoAnswer)}
    (run : ((machine crates reader).guard fun state label => state.Representable label.1).Run labels state) :
    state.Reads crates chunks ∧ CursorPath chunks.plaintext 0 labels state.position := by
  refine run.history (fun labels state => state.Reads crates chunks ∧ CursorPath chunks.plaintext 0 labels state.position)
    ?_ ?_
  · rintro _ rfl
    exact ⟨reads, rfl⟩
  · rintro labels source ⟨call, answer⟩ target - ⟨sound, path⟩ step
    obtain ⟨fits, step⟩ := Machine.guard_step_iff.mp step
    obtain ⟨right, after⟩ := sound.exec_iff positive call
    simp only [machine] at step
    split at step
    · next same =>
      obtain rfl := Option.some.inj step
      exact ⟨after, path.snoc (same ▸ right.mpr fits)⟩
    · cases step

end PositionedReader

section Opened

variable {crates : Crates} {cipher opener : ContentCipher} {context openContext : ContentContext} {chunkLog2 : ℕ}
  {salt : Salt} {pieces : List Bytes} {finished : FinishedFile}

/-- A reader that was opened on a finished file with its key reads the chunks of its plaintext. -/
theorem exists_reads_of_openFile (opens : crates.Opens)
    (wrote : writeFile crates cipher context chunkLog2 salt pieces = .ok finished) {reader : SealedFileReader}
    (opened : SealedFileReader.openFile crates finished.sink opener openContext = .ok reader)
    (key : reader.key = keyFor crates cipher context salt cipher.current) :
    ∃ chunks : Chunks (2 ^ chunkLog2), chunks.plaintext = pieces.flatten ∧
      (⟨reader, 0⟩ : PositionedReader).Reads crates chunks := by
  obtain ⟨accepted, rfl⟩ := writeFile_eq_ok_iff.mp wrote
  obtain ⟨chunks, plaintext, sink, -⟩ := @finish_writePieces crates cipher context chunkLog2 salt pieces
  obtain ⟨shape, read, candidate, -, plain, decrypted, rfl⟩ := SealedFileReader.openFile_eq_ok opened
  have shaped := @SealedFileReader.readShape_fileBytes crates chunkLog2 salt opens accepted
    (keyFor crates cipher context salt cipher.current) chunks
  rw [sink] at read
  obtain rfl := Except.ok.inj (shaped.symm.trans read)
  set tried := SealedFileReader.withKey _ _ _ _ with isTried
  have reads : tried.Reads crates chunks :=
    ⟨by rw [show tried.key = _ from key]; exact sink, SealedFileReader.length_buildHeader, rfl, rfl, rfl, rfl⟩
  have faithful := reads.faithful opens
  have complete := reads.complete opens
  refine ⟨chunks, plaintext, ⟨{ faithful with cached := fun index text found => ?_ }, complete⟩⟩
  obtain ⟨rfl, rfl⟩ := Prod.mk.inj (Option.some.inj found)
  exact faithful.decrypts _ _ decrypted

/-- A sealed file opens with its key, and a reader of it is a cursor over its plaintext in every run whose seeks ask
for no offset past the largest `u64`; at the end of such a run, it answers a call as a cursor does exactly if the
call asks for none. -/
theorem positionedReader_follows (opens : crates.Opens)
    (wrote : writeFile crates cipher context chunkLog2 salt pieces = .ok finished) :
    (∃ reader, SealedFileReader.openFile crates finished.sink cipher context = .ok reader ∧
      reader.key = keyFor crates cipher context salt cipher.current) ∧
    ∀ opener openContext reader, SealedFileReader.openFile crates finished.sink opener openContext = .ok reader →
      reader.key = keyFor crates cipher context salt cipher.current → ∀ labels state,
        ((PositionedReader.machine crates reader).guard fun state label => state.Representable label.1).Run labels state →
          CursorPath pieces.flatten 0 labels state.position ∧
            ∀ call, CursorStep pieces.flatten state.position (call, (state.exec crates call).1)
                (state.exec crates call).2.position ↔ state.Representable call := by
  constructor
  · obtain ⟨accepted, rfl⟩ := writeFile_eq_ok_iff.mp wrote
    obtain ⟨chunks, -, sink, -⟩ := @finish_writePieces crates cipher context chunkLog2 salt pieces
    obtain ⟨reader, opened, key, -⟩ := @SealedFileReader.openFile_fileBytes crates cipher context chunkLog2 salt opens
      accepted chunks
    exact ⟨reader, sink ▸ opened, key⟩
  · intro opener openContext reader opened key labels state run
    obtain ⟨chunks, plaintext, reads⟩ := exists_reads_of_openFile opens wrote opened key
    obtain ⟨after, path⟩ := reads.path (Nat.two_pow_pos _) run
    rw [← plaintext]
    exact ⟨path, fun call => (after.exec_iff (Nat.two_pow_pos _) call).1⟩

end Opened

theorem PositionedReader.step_seek {crates : Crates} {reader : SealedFileReader} {state : PositionedReader} {pos : SeekFrom}
    {target : ℤ} (asks : pos.target state.reader.plaintextLen state.position = target) (after : 0 ≤ target) :
    (machine crates reader).step? state (.seek pos, .position (asU64 target)) =
      some { state with position := asU64 target } := by
  simp only [machine, exec, seek, asks, if_neg (Int.not_lt.mpr after), if_true]

theorem Sample.path_seeks (reader : SealedFileReader) :
    (PositionedReader.machine Sample.crates reader).Path ⟨reader, 0⟩
        [(.seek (.start 0xffffffffffffffff), .position 0xffffffffffffffff), (.seek (.current 1), .position 0)] ⟨reader, 0⟩ ∧
      ((PositionedReader.machine Sample.crates reader).guard fun state label => state.Representable label.1).Path
        ⟨reader, 0⟩ [(.seek (.start 1), .position 1), (.seek (.current 1), .position 2)] ⟨reader, 2⟩ := by
  have seeks (state : PositionedReader) (pos : SeekFrom) (target : ℤ) (reached : ℕ)
      (asks : pos.target state.reader.plaintextLen state.position = target) (after : 0 ≤ target)
      (lands : asU64 target = reached) : (PositionedReader.machine Sample.crates reader).step? state
        (.seek pos, .position reached) = some { state with position := reached } := by
    rw [← lands]
    exact PositionedReader.step_seek asks after
  constructor
  · refine Machine.path_cons_iff.mpr ⟨⟨reader, 0xffffffffffffffff⟩, seeks _ _ 0xffffffffffffffff _ rfl ?_ ?_,
      Machine.path_cons_iff.mpr ⟨⟨reader, 0⟩, seeks _ _ 0x10000000000000000 _ rfl ?_ ?_, Machine.path_nil_iff.mpr rfl⟩⟩
    all_goals decide
  · refine Machine.path_cons_iff.mpr ⟨⟨reader, 1⟩, Machine.guard_step_iff.mpr ⟨?_, seeks _ _ 1 _ rfl ?_ ?_⟩,
      Machine.path_cons_iff.mpr ⟨⟨reader, 2⟩, Machine.guard_step_iff.mpr ⟨?_, seeks _ _ 2 _ rfl ?_ ?_⟩,
        Machine.path_nil_iff.mpr rfl⟩⟩
    · exact (show (1 : ℤ) < 2 ^ 64 by decide)
    · decide
    · decide
    · exact (show (2 : ℤ) < 2 ^ 64 by decide)
    · decide
    · decide

/-- From the largest offset, a seek by one more returns to the start of a file of three bytes. -/
theorem not_positionedReader_follows_wrapped :
    let labels := [(IoCall.seek (.start 0xffffffffffffffff), IoAnswer.position 0xffffffffffffffff),
      (IoCall.seek (.current 1), IoAnswer.position 0)]
    ∃ finished reader, writeFile Sample.crates Sample.cipher Sample.context 10 Sample.salt [[1, 2], [3]] = .ok finished ∧
      SealedFileReader.openFile Sample.crates finished.sink Sample.cipher Sample.context = .ok reader ∧
      (PositionedReader.machine Sample.crates reader).Run labels ⟨reader, 0⟩ ∧
      ¬ CursorPath [1, 2, 3] 0 labels 0 := by
  intro labels
  have accepted : 10 ≤ 10 ∧ 10 ≤ 20 := by omega
  have wrote : writeFile Sample.crates Sample.cipher Sample.context 10 Sample.salt [[1, 2], [3]] = .ok _ :=
    writeFile_eq_ok_iff.mpr ⟨accepted, rfl⟩
  obtain ⟨chunks, -, sink, -⟩ := @finish_writePieces Sample.crates Sample.cipher Sample.context 10 Sample.salt [[1, 2], [3]]
  obtain ⟨reader, opened, -⟩ := @SealedFileReader.openFile_fileBytes Sample.crates Sample.cipher Sample.context 10
    Sample.salt Sample.opens accepted chunks
  refine ⟨_, reader, wrote, sink ▸ opened, ⟨⟨reader, 0⟩, rfl, (Sample.path_seeks reader).1⟩, ?_⟩
  rintro ⟨middle, first, last, second, -⟩
  cases first with
  | moved exactly fits =>
    cases second with
    | moved exactly _ => exact absurd exactly (by decide)

/-- Two seeks in a file of three bytes, and a read of what is left. -/
theorem positionedReader_follows_seeks :
    ∃ finished reader, writeFile Sample.crates Sample.cipher Sample.context 10 Sample.salt [[1, 2], [3]] = .ok finished ∧
      SealedFileReader.openFile Sample.crates finished.sink Sample.cipher Sample.context = .ok reader ∧
      CursorPath [1, 2, 3] 0 [(.seek (.start 1), .position 1), (.seek (.current 1), .position 2)] 2 ∧
      CursorStep [1, 2, 3] 2 (.read 5, ((⟨reader, 2⟩ : PositionedReader).exec Sample.crates (.read 5)).1)
        ((⟨reader, 2⟩ : PositionedReader).exec Sample.crates (.read 5)).2.position := by
  have accepted : 10 ≤ 10 ∧ 10 ≤ 20 := by omega
  have wrote : writeFile Sample.crates Sample.cipher Sample.context 10 Sample.salt [[1, 2], [3]] = .ok _ :=
    writeFile_eq_ok_iff.mpr ⟨accepted, rfl⟩
  obtain ⟨⟨reader, opened, key⟩, follows⟩ := positionedReader_follows Sample.opens wrote
  obtain ⟨path, calls⟩ := follows _ _ reader opened key _ ⟨reader, 2⟩ ⟨⟨reader, 0⟩, rfl, (Sample.path_seeks reader).2⟩
  exact ⟨_, reader, wrote, opened, path, (calls (.read 5)).mpr trivial⟩

end RyuRooms.Crypto
