import RyuRooms.Crypto.SealedFile

/-! # A reader finds the chunks of a file

A reader is faithful to some chunks when whatever it decrypts is the chunk it asked for, and complete
when it can decrypt every one of them. Reads of a faithful reader return the plaintext or fail, and reads
of a complete one do not fail; a reader of a file that was written and finished is both.
-/

namespace RyuRooms.Crypto

open Foundation

namespace SealedFileReader

variable {crates : Crates} {size : ℕ} {chunks : Chunks size} {reader : SealedFileReader}

/-- Whatever the reader decrypts or has cached is a chunk. -/
structure Faithful (crates : Crates) (reader : SealedFileReader) (chunks : Chunks size) : Prop where
  chunkSize : reader.chunkSize = size
  plaintextLen : reader.plaintextLen = chunks.plaintext.length
  decrypts : ∀ index plain, reader.decryptChunk crates index = .ok plain → plain = chunks.chunk index
  cached : ∀ index plain, reader.cached = some (index, plain) → plain = chunks.chunk index

/-- The reader can decrypt every chunk. -/
def Complete (crates : Crates) (reader : SealedFileReader) (chunks : Chunks size) : Prop :=
  ∀ index ≤ chunks.full.length, reader.decryptChunk crates index = .ok (chunks.chunk index)

/-- A read returned these bytes, or failed as a complete reader does not, and the reader is as good as before. -/
def Answered (crates : Crates) (reader : SealedFileReader) (chunks : Chunks size) (expected : Bytes) :
    EStateM.Result String SealedFileReader Bytes → Prop
  | .ok bytes next => bytes = expected ∧ next.Faithful crates chunks ∧ (reader.Complete crates chunks → next.Complete crates chunks)
  | .error _ next => next.Faithful crates chunks ∧ ¬ reader.Complete crates chunks

section Reads

theorem Answered.bind {first : EStateM String SealedFileReader Bytes}
    {onward : Bytes → EStateM String SealedFileReader Bytes} {found expected : Bytes}
    (answered : reader.Answered crates chunks found (first reader))
    (next : ∀ next : SealedFileReader, next.Faithful crates chunks →
      (reader.Complete crates chunks → next.Complete crates chunks) →
        reader.Answered crates chunks expected (onward found next)) :
    reader.Answered crates chunks expected ((first >>= onward) reader) := by
  change reader.Answered crates chunks expected (EStateM.bind first onward reader)
  rw [EStateM.bind]
  cases result : first reader with
  | ok bytes target =>
    rw [result] at answered
    obtain ⟨rfl, faithful, keeps⟩ := answered
    exact next target faithful keeps
  | error error target =>
    rw [result] at answered
    exact answered

/-- What a later reader answers, an earlier one does that is complete no more often. -/
theorem Answered.of_complete {later : SealedFileReader} {expected : Bytes}
    {result : EStateM.Result String SealedFileReader Bytes} (answered : later.Answered crates chunks expected result)
    (keeps : reader.Complete crates chunks → later.Complete crates chunks) :
    reader.Answered crates chunks expected result := by
  cases result with
  | ok bytes next => exact ⟨answered.1, answered.2.1, fun complete => answered.2.2 (keeps complete)⟩
  | error error next => exact ⟨answered.1, fun complete => answered.2 (keeps complete)⟩

theorem Faithful.fetchChunk (faithful : reader.Faithful crates chunks) {index : ℕ} (within : index ≤ chunks.full.length) :
    reader.Answered crates chunks (chunks.chunk index) (reader.fetchChunk crates index) := by
  rw [SealedFileReader.fetchChunk]
  split
  · next plain decrypted =>
    refine ⟨faithful.decrypts index plain decrypted, { faithful with cached := fun other text found => ?_ }, id⟩
    obtain ⟨rfl, rfl⟩ := Prod.mk.inj (Option.some.inj found)
    exact faithful.decrypts index plain decrypted
  · next error failed => exact ⟨faithful, fun complete => by cases failed.symm.trans (complete index within)⟩

theorem Faithful.loadChunk (faithful : reader.Faithful crates chunks) {index : ℕ} (within : index ≤ chunks.full.length) :
    reader.Answered crates chunks (chunks.chunk index) (loadChunk crates index reader) := by
  rw [SealedFileReader.loadChunk]
  split
  · next other plain found =>
    split
    · next same => exact ⟨same ▸ faithful.cached other plain found, faithful, id⟩
    · exact faithful.fetchChunk within
  · exact faithful.fetchChunk within

theorem Faithful.readChunks {stop : ℕ} (inside : stop ≤ chunks.plaintext.length) (positive : 0 < size) (fuel : ℕ)
    (faithful : reader.Faithful crates chunks) {position : ℕ} (before : position ≤ stop)
    (enough : stop - position ≤ fuel) (out : Bytes) :
    reader.Answered crates chunks (out ++ (chunks.plaintext.drop position).take (stop - position))
      (readChunks crates stop fuel position out reader) := by
  induction fuel generalizing reader position out with
  | zero =>
    have done : stop = position := by omega
    rw [SealedFileReader.readChunks, if_neg (by omega), done, Nat.sub_self, List.take_zero, List.append_nil]
    exact ⟨rfl, faithful, id⟩
  | succ fuel ih =>
    rw [SealedFileReader.readChunks]
    split
    · next more =>
      obtain ⟨index, offset, rest, there⟩ := chunks.drop_position (more.trans_le inside) positive
      have loaded := faithful.loadChunk index
      have chunkSize := faithful.chunkSize
      change reader.Answered crates chunks _
        ((SealedFileReader.loadChunk crates (position / reader.chunkSize) >>= _) reader)
      rw [chunkSize]
      refine loaded.bind fun next onward keeps => ?_
      let within := position - position / size * size
      let taken := min (stop - position) ((chunks.chunk (position / size)).length - within)
      have inside_ : taken ≤ ((chunks.chunk (position / size)).drop within).length := by
        rw [List.length_drop]
        exact Nat.min_le_right _ _
      have stretch := take_append_stretch there inside_ (stop - (position + taken))
      rw [show taken + (stop - (position + taken)) = stop - position by omega] at stretch
      have read := @ih next onward (position + taken) (by omega) (by omega)
        (out ++ ((chunks.chunk (position / size)).drop within).take taken)
      rw [List.append_assoc, stretch] at read
      exact read.of_complete keeps
    · next done =>
      have done : stop = position := by omega
      rw [done, Nat.sub_self, List.take_zero, List.append_nil]
      exact ⟨rfl, faithful, id⟩

/-- A range reads as the bytes of the plaintext it covers, if it reads. -/
theorem Faithful.readRange (fits : chunks.plaintext.length < 2 ^ 64) (positive : 0 < size)
    (faithful : reader.Faithful crates chunks) (start len : ℕ) :
    reader.Answered crates chunks ((chunks.plaintext.drop start).take len) (readRange crates start len reader) := by
  have stop : min (saturatingAddU64 start len) reader.plaintextLen = min (start + len) chunks.plaintext.length := by
    rw [faithful.plaintextLen, saturatingAddU64]
    omega
  have covered : (chunks.plaintext.drop start).take (min (start + len) chunks.plaintext.length - start) =
      (chunks.plaintext.drop start).take len := by
    rw [List.take_eq_take_iff, List.length_drop]
    omega
  change reader.Answered crates chunks _ ((if min (saturatingAddU64 start len) reader.plaintextLen ≤ start then _ else
    SealedFileReader.readChunks crates (min (saturatingAddU64 start len) reader.plaintextLen)
      (min (saturatingAddU64 start len) reader.plaintextLen - start) start []) reader)
  rw [stop]
  split
  · next outside =>
    rw [← covered, Nat.sub_eq_zero_of_le outside, List.take_zero]
    exact ⟨rfl, faithful, id⟩
  · next inside =>
    have before : start ≤ min (start + len) chunks.plaintext.length := by omega
    have read := faithful.readChunks (Nat.min_le_right _ _) positive _ before le_rfl []
    rwa [covered, List.nil_append] at read

/-- An answer that is the bytes of a range, or a failure of an incomplete reader. -/
def Right (crates : Crates) (reader : SealedFileReader) (chunks : Chunks size) (range : ℕ × ℕ) :
    Except String Bytes → Prop
  | .ok bytes => bytes = (chunks.plaintext.drop range.1).take range.2
  | .error _ => ¬ reader.Complete crates chunks

theorem Faithful.answers (fits : chunks.plaintext.length < 2 ^ 64) (positive : 0 < size)
    (faithful : reader.Faithful crates chunks) (ranges : List (ℕ × ℕ)) :
    List.Forall₂ (reader.Right crates chunks) ranges (answers crates reader ranges) := by
  induction ranges generalizing reader with
  | nil => exact .nil
  | cons range ranges ih =>
    have first := faithful.readRange fits positive range.1 range.2
    have onward (next : SealedFileReader) (good : next.Faithful crates chunks)
        (keeps : reader.Complete crates chunks → next.Complete crates chunks) :
        List.Forall₂ (reader.Right crates chunks) ranges (SealedFileReader.answers crates next ranges) := by
      refine (ih good).imp fun later answer right => ?_
      cases answer with
      | ok bytes => exact right
      | error error => exact fun complete => right (keeps complete)
    rw [SealedFileReader.answers]
    cases result : SealedFileReader.readRange crates range.1 range.2 reader with
    | ok bytes next =>
      rw [result] at first
      exact .cons first.1 (onward next first.2.1 first.2.2)
    | error error next =>
      rw [result] at first
      exact .cons first.2 (onward next first.1 fun complete => absurd complete first.2)

/-- A complete reader fails no read. -/
theorem Complete.eq_map {ranges : List (ℕ × ℕ)} {answers : List (Except String Bytes)}
    (complete : reader.Complete crates chunks) (right : List.Forall₂ (reader.Right crates chunks) ranges answers) :
    answers = ranges.map fun range => .ok ((chunks.plaintext.drop range.1).take range.2) := by
  induction right with
  | nil => rfl
  | @cons range answer ranges answers first rest ih =>
    cases answer with
    | ok bytes => rw [List.map_cons, ← ih, show bytes = _ from first]
    | error error => exact absurd complete first

end Reads

section Bytes

variable {key header : Bytes}

theorem length_sealedChunks (tagged : crates.Tagged) :
    ∀ sealed ∈ sealedChunks crates key header chunks.full, sealed.length = size + TAG_LEN := by
  intro sealed member
  obtain ⟨index, before, rfl⟩ := List.mem_iff_getElem.mp member
  simp only [sealedChunks, List.getElem_mapIdx, tagged _ _ _ _]
  rw [chunks.uniform _ (List.getElem_mem _)]

theorem length_fileBytes (tagged : crates.Tagged) : (fileBytes crates key header chunks).length =
    header.length + chunks.full.length * (size + TAG_LEN) + (chunks.final.length + TAG_LEN) := by
  rw [fileBytes, List.length_append, List.length_append, length_flatten_uniform (length_sealedChunks tagged),
    tagged, sealedChunks, List.length_mapIdx]

/-- A file holds each sealed chunk where a reader looks for it. -/
theorem drop_fileBytes (tagged : crates.Tagged) {index : ℕ} (within : index ≤ chunks.full.length) :
    ∃ rest, (fileBytes crates key header chunks).drop (header.length + index * (size + TAG_LEN)) =
      crates.encrypt key (chunkNonce index (index = chunks.full.length)) (chunks.chunk index) header ++ rest := by
  let sealed : Chunks (size + TAG_LEN) :=
    { full := sealedChunks crates key header chunks.full
      final := crates.encrypt key (chunkNonce chunks.full.length true) chunks.final header
      uniform := length_sealedChunks tagged
      short := by rw [tagged]; exact Nat.add_le_add_right chunks.short TAG_LEN }
  have count : sealed.full.length = chunks.full.length := List.length_mapIdx
  obtain ⟨rest, found⟩ := sealed.drop_plaintext (within.trans_eq count.symm)
  refine ⟨rest, ?_⟩
  have body : fileBytes crates key header chunks = header ++ sealed.plaintext := by
    rw [Chunks.plaintext_eq, fileBytes, List.append_assoc]
  rw [body, ← List.drop_drop, List.drop_left, found]
  congr 1
  rcases within.lt_or_eq with before | last
  · rw [sealed.chunk_full (before.trans_eq count.symm), chunks.chunk_full before]
    simp [sealed, sealedChunks, before.ne]
  · rw [last, ← count, sealed.chunk_final, count, chunks.chunk_final]
    simp [sealed]

end Bytes

theorem readExact_of_drop {bytes found rest : Bytes} {offset : ℕ} (there : bytes.drop offset = found ++ rest)
    (positive : 0 < found.length) : readExact bytes offset found.length = .ok found := by
  have room := congrArg List.length there
  rw [List.length_drop, List.length_append] at room
  rw [readExact, if_pos (by omega), there, List.take_left]

section Open

variable {cipher : ContentCipher} {context : ContentContext} {chunkLog2 : ℕ} {salt : Salt}

@[simp] theorem length_buildHeader : (buildHeader chunkLog2 salt).length = SEALED_FILE_HEADER_LEN := by
  simp [buildHeader, SEALED_FILE_MAGIC, SEALED_FILE_HEADER_LEN, salt.2]

/-- The size of a file tells its chunks. -/
theorem layout_chunks (chunks : Chunks size) (positive : 0 < size) :
    layout (chunks.full.length * (size + TAG_LEN) + (chunks.final.length + TAG_LEN)) size =
      .ok (chunks.full.length + 1, chunks.plaintext.length) := by
  have short := chunks.short
  have sealed : 0 < size + TAG_LEN := by omega
  rw [layout, chunks.length_plaintext]
  rcases short.lt_or_eq with partial_ | complete
  · have last : chunks.final.length + TAG_LEN < size + TAG_LEN := by omega
    have full : (chunks.full.length * (size + TAG_LEN) + (chunks.final.length + TAG_LEN)) / (size + TAG_LEN) =
        chunks.full.length := by
      rw [Nat.mul_comm, Nat.mul_add_div sealed, Nat.div_eq_of_lt last, Nat.add_zero]
    have rem : (chunks.full.length * (size + TAG_LEN) + (chunks.final.length + TAG_LEN)) % (size + TAG_LEN) =
        chunks.final.length + TAG_LEN := by
      rw [Nat.mul_comm, Nat.mul_add_mod, Nat.mod_eq_of_lt last]
    simp only [full, rem]
    rw [if_neg (by simp [TAG_LEN]), if_neg (by omega), Nat.add_sub_cancel]
  · have whole : chunks.full.length * (size + TAG_LEN) + (chunks.final.length + TAG_LEN) =
        (chunks.full.length + 1) * (size + TAG_LEN) := by
      rw [complete, Nat.succ_mul]
    simp only [whole, Nat.mul_mod_left, Nat.mul_div_cancel _ sealed, if_true]
    rw [complete, Nat.succ_mul]

theorem readShape_fileBytes (opens : crates.Opens) (accepted : 10 ≤ chunkLog2 ∧ chunkLog2 ≤ 20) {key : Bytes}
    (chunks : Chunks (2 ^ chunkLog2)) : readShape (fileBytes crates key (buildHeader chunkLog2 salt) chunks) =
      .ok ⟨buildHeader chunkLog2 salt, 2 ^ chunkLog2, chunks.full.length + 1, chunks.plaintext.length⟩ := by
  have header : (fileBytes crates key (buildHeader chunkLog2 salt) chunks).take SEALED_FILE_HEADER_LEN =
      buildHeader chunkLog2 salt := by
    rw [fileBytes, List.append_assoc, List.take_left' length_buildHeader]
  have length := @length_fileBytes crates _ chunks key (buildHeader chunkLog2 salt) opens.length
  rw [length_buildHeader] at length
  have log : ((buildHeader chunkLog2 salt).getD 8 0).toNat = chunkLog2 := by
    change chunkLog2 % 256 = chunkLog2
    omega
  refine bind_eq_ok_iff.mpr ⟨(), bailIf_eq_ok_iff.mpr (by omega), ?_⟩
  rw [header]
  refine bind_eq_ok_iff.mpr ⟨(), bailIf_eq_ok_iff.mpr (not_not_intro rfl), ?_⟩
  rw [log]
  refine bind_eq_ok_iff.mpr ⟨(), bailIf_eq_ok_iff.mpr ?_, ?_⟩
  · rintro (low | high | flags)
    · omega
    · omega
    · exact flags rfl
  · rw [length, Nat.add_assoc, Nat.add_sub_cancel_left]
    exact bind_eq_ok_iff.mpr ⟨_, layout_chunks chunks (Nat.two_pow_pos _),
      bind_eq_ok_iff.mpr ⟨(), bailIf_eq_ok_iff.mpr (Nat.succ_ne_zero _), rfl⟩⟩

/-- A chunk that an empty cache loads was decrypted. -/
theorem loadChunk_eq_ok {next : SealedFileReader} (empty : reader.cached = none)
    {index : ℕ} {plain : Bytes}
    (loaded : loadChunk crates index reader = .ok plain next) :
    reader.decryptChunk crates index = .ok plain ∧ next = { reader with cached := some (index, plain) } := by
  rw [loadChunk, empty] at loaded
  simp only [fetchChunk] at loaded
  split at loaded
  · next text decrypted =>
    obtain ⟨rfl, rfl⟩ := EStateM.Result.ok.inj loaded
    exact ⟨decrypted, rfl⟩
  · cases loaded

/-- A reader of a file that was written with these chunks. -/
structure Reads (crates : Crates) (reader : SealedFileReader) (chunks : Chunks size) : Prop where
  inner : reader.inner = fileBytes crates reader.key reader.header chunks
  header : reader.header.length = SEALED_FILE_HEADER_LEN
  chunkSize : reader.chunkSize = size
  chunkCount : reader.chunkCount = chunks.full.length + 1
  plaintextLen : reader.plaintextLen = chunks.plaintext.length
  cached : reader.cached = none

/-- Every chunk is where the reader looks for it. -/
theorem Reads.complete (opens : crates.Opens) (reads : reader.Reads crates chunks) : reader.Complete crates chunks := by
  intro index within
  have known : ¬ reader.chunkCount ≤ index := by
    rw [reads.chunkCount]
    omega
  have last : index + 1 = reader.chunkCount ↔ index = chunks.full.length := by
    rw [reads.chunkCount, Nat.add_right_cancel_iff]
  have len : (if index = chunks.full.length then reader.plaintextLen - index * reader.chunkSize + TAG_LEN
      else reader.chunkSize + TAG_LEN) = (chunks.chunk index).length + TAG_LEN := by
    rw [chunks.length_chunk within, reads.plaintextLen, reads.chunkSize, chunks.length_plaintext]
    split
    · next final =>
      rw [final]
      omega
    · rfl
  obtain ⟨rest, there⟩ := @drop_fileBytes crates size chunks reader.key reader.header opens.length index within
  have found : readExact reader.inner (SEALED_FILE_HEADER_LEN + index * (reader.chunkSize + TAG_LEN))
      ((chunks.chunk index).length + TAG_LEN) = .ok (crates.encrypt reader.key
        (chunkNonce index (index = chunks.full.length)) (chunks.chunk index) reader.header) := by
    rw [reads.header, ← reads.inner] at there
    rw [reads.chunkSize, ← opens.length]
    exact readExact_of_drop there (by rw [opens.length]; exact Nat.succ_pos _)
  simp only [decryptChunk, last, len]
  refine bind_eq_ok_iff.mpr ⟨(), bailIf_eq_ok_iff.mpr known, bind_eq_ok_iff.mpr ⟨_, found, ?_⟩⟩
  rw [opens.opens]
  rfl

/-- A reader decrypts only chunks it knows of. -/
theorem lt_chunkCount_of_decryptChunk {index : ℕ} {plain : Bytes}
    (decrypted : reader.decryptChunk crates index = .ok plain) : index < reader.chunkCount := by
  obtain ⟨_, known, -⟩ := bind_eq_ok_iff.mp decrypted
  exact Nat.lt_of_not_le (bailIf_eq_ok_iff.mp known)

theorem Reads.faithful (opens : crates.Opens) (reads : reader.Reads crates chunks) : reader.Faithful crates chunks where
  chunkSize := reads.chunkSize
  plaintextLen := reads.plaintextLen
  decrypts index plain decrypted := by
    have known := lt_chunkCount_of_decryptChunk decrypted
    rw [reads.chunkCount] at known
    exact Except.ok.inj (decrypted.symm.trans (reads.complete opens index (by omega)))
  cached index plain found := by
    rw [reads.cached] at found
    cases found

/-- A file opens with the key it was written under. -/
theorem openFile_fileBytes (opens : crates.Opens) (accepted : 10 ≤ chunkLog2 ∧ chunkLog2 ≤ 20)
    (chunks : Chunks (2 ^ chunkLog2)) :
    ∃ reader, openFile crates (fileBytes crates (keyFor crates cipher context salt cipher.current)
        (buildHeader chunkLog2 salt) chunks) cipher context = .ok reader ∧
      reader.key = keyFor crates cipher context salt cipher.current ∧ reader.Faithful crates chunks ∧
      reader.Complete crates chunks := by
  let shape : Shape := ⟨buildHeader chunkLog2 salt, 2 ^ chunkLog2, chunks.full.length + 1, chunks.plaintext.length⟩
  let key := keyFor crates cipher context salt cipher.current
  let tried := withKey (fileBytes crates key (buildHeader chunkLog2 salt) chunks) shape key false
  have reads : tried.Reads crates chunks := ⟨rfl, length_buildHeader, rfl, rfl, rfl, rfl⟩
  have complete := reads.complete opens
  have loaded := (reads.faithful opens).loadChunk le_rfl
  have shaped := @readShape_fileBytes crates chunkLog2 salt opens accepted key chunks
  cases result : SealedFileReader.loadChunk crates chunks.full.length tried with
  | error error reader =>
    rw [result] at loaded
    exact absurd complete loaded.2
  | ok plain reader =>
    rw [result] at loaded
    have first : tryKey crates (fileBytes crates key (buildHeader chunkLog2 salt) chunks) cipher context shape
        (cipher.current, false) = some reader := by
      change (match SealedFileReader.loadChunk crates chunks.full.length tried with
        | .ok _ reader => some reader
        | .error _ _ => none) = some reader
      rw [result]
    refine ⟨reader, bind_eq_ok_iff.mpr ⟨shape, shaped, ?_⟩, ?_, loaded.2.1, loaded.2.2 complete⟩
    swap
    · rw [(loadChunk_eq_ok rfl result).2]
      rfl
    rw [ContentCipher.candidateKeys, List.findSome?_cons, first]
    rfl

end Open

end SealedFileReader

section RoundTrip

variable {crates : Crates} {cipher : ContentCipher} {context : ContentContext} {chunkLog2 : ℕ} {salt : Salt}
  {pieces : List Bytes} {finished : FinishedFile}

/-- A finished file tells its plaintext, reads back every range of it, and never used a nonce twice. -/
theorem sealedFile_reads (opens : crates.Opens)
    (wrote : writeFile crates cipher context chunkLog2 salt pieces = .ok finished) (fits : finished.sink.length < 2 ^ 64) :
    (finished.seals.map Seal.nonce).Nodup ∧ finished.plaintextLen = pieces.flatten.length ∧
      finished.plaintextSha256 = crates.sha256 pieces.flatten ∧
      ∃ reader, SealedFileReader.openFile crates finished.sink cipher context = .ok reader ∧
        reader.plaintextLen = pieces.flatten.length ∧
        ∀ ranges, reader.answers crates ranges =
          ranges.map fun range => .ok ((pieces.flatten.drop range.1).take range.2) := by
  obtain ⟨accepted, rfl⟩ := writeFile_eq_ok_iff.mp wrote
  obtain ⟨chunks, plaintext, sink, len, hash, seals⟩ :=
    @finish_writePieces crates cipher context chunkLog2 salt pieces
  rw [sink, SealedFileReader.length_fileBytes opens.length] at fits
  have positive : 0 < 2 ^ chunkLog2 := Nat.two_pow_pos _
  have sizes := chunks.length_plaintext
  have spread : chunks.full.length * (2 ^ chunkLog2 + TAG_LEN) =
      chunks.full.length * 2 ^ chunkLog2 + chunks.full.length * TAG_LEN := Nat.mul_add _ _ _
  have many : chunks.full.length ≤ chunks.full.length * TAG_LEN := Nat.le_mul_of_pos_right _ (Nat.succ_pos _)
  obtain ⟨reader, opened, -, faithful, complete⟩ := @SealedFileReader.openFile_fileBytes crates cipher context chunkLog2
    salt opens accepted chunks
  refine ⟨?_, len, hash, reader, ?_, ?_, fun ranges => ?_⟩
  · rw [seals]
    exact nodup_fileSeals (by omega)
  · rw [sink, opened]
  · rw [faithful.plaintextLen, plaintext]
  · rw [← plaintext]
    exact complete.eq_map (faithful.answers (by omega) positive ranges)

/-- A full chunk and one byte, in two pieces, and a range across the chunks. -/
theorem sealedFile_reads_chunks :
    let pieces : List Bytes := [List.replicate 1023 1, [2, 3]]
    ∃ finished reader, writeFile Sample.crates Sample.cipher Sample.context 10 Sample.salt pieces = .ok finished ∧
      (finished.seals.map Seal.nonce).Nodup ∧ finished.seals.length = 2 ∧
      SealedFileReader.openFile Sample.crates finished.sink Sample.cipher Sample.context = .ok reader ∧
      reader.answers Sample.crates [(1022, 3), (1024, 5), (1025, 1), (2 ^ 64 - 1, 5)] =
        [.ok [1, 2, 3], .ok [3], .ok [], .ok []] := by
  intro pieces
  have accepted : 10 ≤ 10 ∧ 10 ≤ 20 := by omega
  obtain ⟨chunks, plaintext, sink, -, -, seals⟩ :=
    @finish_writePieces Sample.crates Sample.cipher Sample.context 10 Sample.salt pieces
  have total : pieces.flatten.length = 1025 := by
    rw [List.flatten_cons, List.length_append, List.length_replicate]
    rfl
  have sizes := chunks.length_plaintext
  rw [plaintext, total] at sizes
  have short := chunks.short
  have count : chunks.full.length = 1 := by omega
  have wrote : writeFile Sample.crates Sample.cipher Sample.context 10 Sample.salt pieces = .ok _ :=
    writeFile_eq_ok_iff.mpr ⟨accepted, rfl⟩
  obtain ⟨fresh, -, -, reader, opened, -, reads⟩ := sealedFile_reads Sample.opens wrote (by
    rw [sink, SealedFileReader.length_fileBytes Sample.opens.length, SealedFileReader.length_buildHeader]
    rw [SEALED_FILE_HEADER_LEN, TAG_LEN]
    omega)
  have two : (fileSeals (keyFor Sample.crates Sample.cipher Sample.context Sample.salt Sample.cipher.current)
      (buildHeader 10 Sample.salt) chunks).length = 2 := by
    rw [length_fileSeals, count]
  have parts : [(1022, 3), (1024, 5), (1025, 1), (2 ^ 64 - 1, 5)].map (fun range : ℕ × ℕ =>
      (.ok ((pieces.flatten.drop range.1).take range.2) : Except String Bytes)) =
        [.ok [1, 2, 3], .ok [3], .ok [], .ok []] := by
    simp [pieces, List.drop_append, -List.reduceReplicate]
  exact ⟨_, reader, wrote, fresh, seals ▸ two, opened, (reads _).trans parts⟩

end RoundTrip

end RyuRooms.Crypto
