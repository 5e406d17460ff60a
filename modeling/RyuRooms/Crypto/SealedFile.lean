import Mathlib.Data.List.Nodup
import RyuRooms.Foundation.Action
import RyuRooms.Model.CryptoSample
import RyuRooms.Model.SealedFile

/-! # A sealed file reads back as what was written

A plaintext is cut into full chunks and a final one, whatever its length and however it was written.
`Layout` is the file such a cut gives; the writer produces one, and a reader finds in it every chunk
where it looks for it.
-/

namespace RyuRooms.Crypto

open Foundation

/-- A ciphertext is its message and a tag long. -/
def Crates.Tagged (crates : Crates) : Prop :=
  ∀ key nonce message aad, (crates.encrypt key nonce message aad).length = message.length + TAG_LEN

/-- What ChaCha20-Poly1305 promises of its own ciphertexts. -/
structure Crates.Opens (crates : Crates) : Prop where
  length : crates.Tagged
  opens : ∀ key nonce message aad, crates.decrypt key nonce (crates.encrypt key nonce message aad) aad = some message

/-- The toy cipher keeps the promise. -/
theorem Sample.opens : Sample.crates.Opens where
  length key nonce message aad := by simp [Sample.crates, Sample.encrypt, Sample.tag]
  opens key nonce message aad := by
    have message_ : (Sample.encrypt key nonce message aad).take
        ((Sample.encrypt key nonce message aad).length - TAG_LEN) = message := by
      simp [Sample.encrypt, Sample.tag]
    simp only [Sample.crates, Sample.decrypt, message_, if_true]

/-- A plaintext in chunks of one size, the final one of that size at most. -/
structure Chunks (size : ℕ) where
  full : List Bytes
  final : Bytes
  uniform : ∀ chunk ∈ full, chunk.length = size
  short : final.length ≤ size

namespace Chunks

variable {size : ℕ} (chunks : Chunks size)

def all : List Bytes := chunks.full ++ [chunks.final]

def plaintext : Bytes := chunks.all.flatten

def chunk (index : ℕ) : Bytes := chunks.all.getD index []

theorem plaintext_eq : chunks.plaintext = chunks.full.flatten ++ chunks.final := by
  simp [plaintext, all]

theorem length_plaintext : chunks.plaintext.length = chunks.full.length * size + chunks.final.length := by
  rw [plaintext_eq, List.length_append, length_flatten_uniform chunks.uniform]

theorem chunk_final : chunks.chunk chunks.full.length = chunks.final := by
  simp [chunk, all]

theorem chunk_full {index : ℕ} (before : index < chunks.full.length) : chunks.chunk index = chunks.full[index] := by
  simp [chunk, all, List.getElem?_append_left before, before]

theorem length_chunk {index : ℕ} (within : index ≤ chunks.full.length) :
    (chunks.chunk index).length = if index = chunks.full.length then chunks.final.length else size := by
  split
  · next last => rw [last, chunk_final]
  · next other =>
    have before : index < chunks.full.length := by omega
    rw [chunk_full chunks before]
    exact chunks.uniform _ (List.getElem_mem before)

theorem drop_plaintext {index : ℕ} (within : index ≤ chunks.full.length) :
    ∃ rest, chunks.plaintext.drop (index * size) = chunks.chunk index ++ rest := by
  have inside : index * size ≤ chunks.full.flatten.length := by
    rw [length_flatten_uniform chunks.uniform]
    exact Nat.mul_le_mul_right size within
  have before : index < chunks.all.length := by
    rw [all, List.length_append, List.length_singleton]
    omega
  have found : chunks.chunk index = chunks.all[index] := by simp [chunk, before]
  refine ⟨(chunks.all.drop (index + 1)).flatten, ?_⟩
  calc chunks.plaintext.drop (index * size)
    _ = (chunks.full.drop index).flatten ++ chunks.final := by
      rw [plaintext_eq, List.drop_append_of_le_length inside, drop_flatten_uniform chunks.uniform within]
    _ = (chunks.all.drop index).flatten := by
      rw [all, List.drop_append_of_le_length within, List.flatten_append, List.flatten_singleton]
    _ = _ := by
      rw [List.drop_eq_getElem_cons before, List.flatten_cons, found]

/-- As many chunks of one plaintext are the same chunks. -/
theorem eq_of_plaintext {other : Chunks size} (same : chunks.plaintext = other.plaintext)
    (count : chunks.full.length = other.full.length) : chunks = other := by
  have left := chunks.length_plaintext
  have right := other.length_plaintext
  rw [same, right, count] at left
  have lengths : chunks.all.map List.length = other.all.map List.length := by
    have full (some : Chunks size) : some.full.map List.length = List.replicate some.full.length size :=
      List.eq_replicate_iff.mpr ⟨List.length_map _, by simpa using some.uniform⟩
    rw [all, all, List.map_append, List.map_append, full, full, count, List.map_singleton, List.map_singleton]
    rw [Nat.add_left_cancel left]
  have whole := List.eq_iff_flatten_eq.mpr ⟨same, lengths⟩
  obtain ⟨full, final⟩ := List.append_inj whole count
  obtain ⟨chunksFull, chunksFinal, _, _⟩ := chunks
  obtain ⟨otherFull, otherFinal, _, _⟩ := other
  obtain rfl : chunksFull = otherFull := full
  obtain rfl : chunksFinal = otherFinal := List.singleton_inj.mp final
  rfl

/-- A position in the plaintext lies in the chunk its quotient tells, at its remainder. -/
theorem drop_position {position : ℕ} (within : position < chunks.plaintext.length) (positive : 0 < size) :
    position / size ≤ chunks.full.length ∧ position - position / size * size < (chunks.chunk (position / size)).length ∧
      ∃ rest, chunks.plaintext.drop position =
        (chunks.chunk (position / size)).drop (position - position / size * size) ++ rest := by
  rw [length_plaintext] at within
  have short := chunks.short
  have start : position / size * size ≤ position := Nat.div_mul_le_self position size
  have offset : position - position / size * size < size := by
    have := Nat.mod_lt position positive
    have := Nat.div_add_mod' position size
    omega
  have index : position / size ≤ chunks.full.length := by
    rw [← Nat.lt_succ_iff, Nat.div_lt_iff_lt_mul positive, Nat.succ_mul]
    omega
  have inside : position - position / size * size < (chunks.chunk (position / size)).length := by
    rw [length_chunk chunks index]
    split
    · next last => rw [last] at start ⊢; omega
    · exact offset
  obtain ⟨rest, starts⟩ := chunks.drop_plaintext index
  refine ⟨index, inside, rest, ?_⟩
  calc chunks.plaintext.drop position
    _ = (chunks.plaintext.drop (position / size * size)).drop (position - position / size * size) := by
      rw [List.drop_drop, Nat.add_sub_cancel' start]
    _ = _ := by
      rw [starts, List.drop_append_of_le_length inside.le]

end Chunks

section Writer

variable {crates : Crates} {writer : SealedFileWriter}

/-- The sealed forms of the full chunks of a file, in order. -/
def sealedChunks (crates : Crates) (key header : Bytes) (full : List Bytes) : List Bytes :=
  full.mapIdx fun index chunk => crates.encrypt key (chunkNonce index false) chunk header

/-- The seals of the full chunks of a file, in order. -/
def fullSeals (key header : Bytes) (full : List Bytes) : List Seal :=
  full.mapIdx fun index chunk => ⟨key, chunkNonce index false, chunk, header⟩

/-- What a writer has put into its sink and its buffer. -/
structure SealedFileWriter.Holds (crates : Crates) (writer : SealedFileWriter) (full : List Bytes) : Prop where
  uniform : ∀ chunk ∈ full, chunk.length = writer.chunkSize
  nextIndex : writer.nextIndex = full.length
  sink : writer.sink = writer.header ++ (sealedChunks crates writer.key writer.header full).flatten
  seals : writer.seals = fullSeals writer.key writer.header full

namespace SealedFileWriter

/-- Writers of one file: they differ in what was written to them. -/
structure Same (writer other : SealedFileWriter) : Prop where
  key : writer.key = other.key
  header : writer.header = other.header
  chunkLog2 : writer.chunkLog2 = other.chunkLog2
  hashed : writer.hashed = other.hashed
  plaintextLen : writer.plaintextLen = other.plaintextLen

theorem Same.trans {next last : SealedFileWriter} (first : Same next writer) (second : Same last next) :
    Same last writer :=
  ⟨second.key.trans first.key, second.header.trans first.header, second.chunkLog2.trans first.chunkLog2,
    second.hashed.trans first.hashed, second.plaintextLen.trans first.plaintextLen⟩

theorem Holds.makeRoom {full : List Bytes} (holds : writer.Holds crates full) :
    ∃ more, (writer.makeRoom crates).Holds crates more ∧ Same (writer.makeRoom crates) writer ∧
      more.flatten ++ (writer.makeRoom crates).buffer = full.flatten ++ writer.buffer := by
  rw [SealedFileWriter.makeRoom]
  split
  · next complete =>
    refine ⟨full ++ [writer.buffer], ⟨?_, ?_, ?_, ?_⟩, ⟨rfl, rfl, rfl, rfl, rfl⟩, ?_⟩
    · intro chunk member
      rcases List.mem_append.mp member with old | new
      · exact holds.uniform chunk old
      · rw [List.mem_singleton.mp new]
        exact complete
    · simp [sealChunk, holds.nextIndex]
    · simp [sealChunk, holds.sink, holds.nextIndex, sealedChunks, List.mapIdx_append, Seal.ciphertext]
    · simp [sealChunk, holds.seals, holds.nextIndex, fullSeals, List.mapIdx_append]
    · simp [sealChunk]
  · exact ⟨full, holds, ⟨rfl, rfl, rfl, rfl, rfl⟩, rfl⟩

theorem fill_of_ne_nil {data : Bytes} (nonempty : data ≠ []) :
    writer.fill crates data = ((writer.makeRoom crates).take data).fill crates
      (data.drop ((writer.makeRoom crates).chunkSize - (writer.makeRoom crates).buffer.length)) := by
  rw [fill, dif_neg nonempty]

theorem Holds.fill {full : List Bytes} (holds : writer.Holds crates full) (data : Bytes) :
    ∃ more, (writer.fill crates data).Holds crates more ∧ Same (writer.fill crates data) writer ∧
      more.flatten ++ (writer.fill crates data).buffer = full.flatten ++ writer.buffer ++ data := by
  induction size : data.length using Nat.strongRecOn generalizing writer data full with
  | _ n ih =>
    by_cases empty : data = []
    · rw [empty, SealedFileWriter.fill, dif_pos rfl]
      exact ⟨full, holds, ⟨rfl, rfl, rfl, rfl, rfl⟩, by simp⟩
    · obtain ⟨sealed, ready, sameReady, plainReady⟩ := holds.makeRoom
      have room := writer.makeRoom_room crates
      have shorter : (data.drop ((writer.makeRoom crates).chunkSize -
          (writer.makeRoom crates).buffer.length)).length < n := by
        have := List.length_pos_iff.mpr empty
        rw [List.length_drop]
        omega
      have taken : ((writer.makeRoom crates).take data).Holds crates sealed :=
        ⟨ready.uniform, ready.nextIndex, ready.sink, ready.seals⟩
      have sameTaken : Same ((writer.makeRoom crates).take data) (writer.makeRoom crates) := ⟨rfl, rfl, rfl, rfl, rfl⟩
      obtain ⟨more, filled, same, plain⟩ := ih _ shorter taken _ rfl
      rw [fill_of_ne_nil empty]
      refine ⟨more, filled, sameReady.trans (sameTaken.trans same), ?_⟩
      rw [plain, SealedFileWriter.take, ← List.append_assoc, plainReady, List.append_assoc, List.take_append_drop]

/-- Pieces written one after the other are written as their concatenation. -/
theorem Holds.writePieces {full : List Bytes} (holds : writer.Holds crates full) (pieces : List Bytes) :
    ∃ more, (pieces.foldl (writePlain crates) writer).Holds crates more ∧
      Same (pieces.foldl (writePlain crates) writer)
        { writer with
          hashed := writer.hashed ++ pieces.flatten
          plaintextLen := writer.plaintextLen + pieces.flatten.length } ∧
      more.flatten ++ (pieces.foldl (writePlain crates) writer).buffer =
        full.flatten ++ writer.buffer ++ pieces.flatten := by
  induction pieces generalizing writer full with
  | nil => exact ⟨full, holds, ⟨rfl, rfl, rfl, by simp, rfl⟩, by simp⟩
  | cons piece pieces ih =>
    have counted : { writer with
        hashed := writer.hashed ++ piece
        plaintextLen := writer.plaintextLen + piece.length }.Holds crates full :=
      ⟨holds.uniform, holds.nextIndex, holds.sink, holds.seals⟩
    obtain ⟨some, written, sameWritten, plainWritten⟩ := counted.fill piece
    obtain ⟨more, rest, same, plain⟩ := ih written
    refine ⟨more, rest, ⟨same.key.trans sameWritten.key, same.header.trans sameWritten.header,
      same.chunkLog2.trans sameWritten.chunkLog2, ?_, ?_⟩, ?_⟩
    · have hashed := same.hashed
      simp only [sameWritten.hashed] at hashed
      rw [List.foldl_cons, writePlain, hashed, List.flatten_cons, List.append_assoc]
    · have len := same.plaintextLen
      simp only [sameWritten.plaintextLen] at len
      rw [List.foldl_cons, writePlain, len, List.flatten_cons, List.length_append, Nat.add_assoc]
    · rw [List.foldl_cons, writePlain, plain, plainWritten, List.flatten_cons, List.append_assoc _ piece]

end SealedFileWriter

end Writer

section Layout

/-- The bytes of a file with these chunks. -/
def fileBytes {size : ℕ} (crates : Crates) (key header : Bytes) (chunks : Chunks size) : Bytes :=
  header ++ (sealedChunks crates key header chunks.full).flatten ++
    crates.encrypt key (chunkNonce chunks.full.length true) chunks.final header

/-- The seals of a file with these chunks. -/
def fileSeals {size : ℕ} (key header : Bytes) (chunks : Chunks size) : List Seal :=
  fullSeals key header chunks.full ++ [⟨key, chunkNonce chunks.full.length true, chunks.final, header⟩]

theorem length_fileSeals {size : ℕ} {key header : Bytes} {chunks : Chunks size} :
    (fileSeals key header chunks).length = chunks.full.length + 1 := by
  simp [fileSeals, fullSeals]

theorem mem_fileSeals {size : ℕ} {key header : Bytes} {chunks : Chunks size} {made : Seal} :
    made ∈ fileSeals key header chunks ↔ ∃ index ≤ chunks.full.length,
      made = ⟨key, chunkNonce index (index = chunks.full.length), chunks.chunk index, header⟩ := by
  rw [fileSeals, List.mem_append, List.mem_singleton, fullSeals, List.mem_iff_getElem]
  constructor
  · rintro (⟨index, before, rfl⟩ | rfl)
    · rw [List.length_mapIdx] at before
      refine ⟨index, before.le, ?_⟩
      simp [before.ne, chunks.chunk_full before]
    · exact ⟨_, le_rfl, by simp [chunks.chunk_final]⟩
  · rintro ⟨index, within, rfl⟩
    rcases within.lt_or_eq with before | rfl
    · refine .inl ⟨index, by rwa [List.length_mapIdx], ?_⟩
      simp [before.ne, chunks.chunk_full before]
    · exact .inr (by simp [chunks.chunk_final])

theorem chunkNonce_inj {left right : ℕ} {last other : Bool} (fitsLeft : left < 2 ^ 64) (fitsRight : right < 2 ^ 64) :
    chunkNonce left last = chunkNonce right other ↔ left = right ∧ last = other := by
  have flags : (if last then (1 : UInt8) else 0) = (if other then 1 else 0) ↔ last = other := by
    cases last <;> cases other <;> decide
  rw [chunkNonce, chunkNonce, List.append_assoc, List.append_assoc, List.append_cancel_left_eq]
  constructor
  · intro same
    obtain ⟨indices, lasts⟩ := List.append_inj same (by simp)
    exact ⟨(bigEndian_inj (by omega) (by omega)).mp indices, flags.mp (List.singleton_inj.mp lasts)⟩
  · rintro ⟨rfl, rfl⟩
    rfl

theorem nodup_fileSeals {size : ℕ} {key header : Bytes} {chunks : Chunks size} (fits : chunks.full.length < 2 ^ 64) :
    ((fileSeals key header chunks).map Seal.nonce).Nodup := by
  have nonces : (fullSeals key header chunks.full).map Seal.nonce =
      (List.range chunks.full.length).map (chunkNonce · false) := by
    refine List.ext_getElem (by simp [fullSeals]) fun index _ _ => ?_
    simp [fullSeals]
  rw [fileSeals, List.map_append, nonces, List.map_singleton, List.nodup_append]
  refine ⟨?_, List.nodup_singleton _, ?_⟩
  · refine List.Nodup.map_on ?_ List.nodup_range
    intro left memLeft right memRight same
    rw [List.mem_range] at memLeft memRight
    exact ((chunkNonce_inj (by omega) (by omega)).mp same).1
  · intro nonce member last isLast same
    obtain ⟨index, before, rfl⟩ := List.mem_map.mp member
    rw [List.mem_singleton.mp isLast, chunkNonce_inj (by have := List.mem_range.mp before; omega) fits] at same
    cases same.2

variable {crates : Crates} {cipher : ContentCipher} {context : ContentContext} {chunkLog2 : ℕ} {salt : Salt}

/-- The key of a file under one of the keys of a cipher. -/
def keyFor (crates : Crates) (cipher : ContentCipher) (context : ContentContext) (salt : Salt) (key : ContentKey) :
    Bytes :=
  fileKey crates key.key salt (context.associatedData cipher.store)

theorem withParams_eq_ok_iff {writer : SealedFileWriter} :
    SealedFileWriter.withParams crates cipher context chunkLog2 salt = .ok writer ↔
      (10 ≤ chunkLog2 ∧ chunkLog2 ≤ 20) ∧ writer = .fresh crates cipher context chunkLog2 salt := by
  rw [SealedFileWriter.withParams]
  split
  · next refused => exact iff_of_false (fun taken => by cases taken) fun taken => by omega
  · next taken => rw [Except.ok.injEq, eq_comm, and_iff_right (by omega)]

theorem writeFile_eq_ok_iff {pieces : List Bytes} {finished : FinishedFile} :
    writeFile crates cipher context chunkLog2 salt pieces = .ok finished ↔ (10 ≤ chunkLog2 ∧ chunkLog2 ≤ 20) ∧
      finished = (pieces.foldl (SealedFileWriter.writePlain crates)
        (.fresh crates cipher context chunkLog2 salt)).finish crates := by
  rw [writeFile]
  cases created : SealedFileWriter.withParams crates cipher context chunkLog2 salt with
  | error error =>
    refine iff_of_false (fun taken => by cases taken) fun taken => ?_
    cases created.symm.trans (withParams_eq_ok_iff.mpr ⟨taken.1, rfl⟩)
  | ok writer =>
    obtain ⟨accepted, rfl⟩ := withParams_eq_ok_iff.mp created
    rw [Except.map, Except.ok.injEq, eq_comm, and_iff_right accepted]

/-- A finished file holds the plaintext in some chunks. -/
theorem finish_writePieces (pieces : List Bytes) :
    let finished := (pieces.foldl (SealedFileWriter.writePlain crates)
      (.fresh crates cipher context chunkLog2 salt)).finish crates
    ∃ chunks : Chunks (2 ^ chunkLog2), chunks.plaintext = pieces.flatten ∧
      finished.sink = fileBytes crates (keyFor crates cipher context salt cipher.current)
        (buildHeader chunkLog2 salt) chunks ∧
      finished.plaintextLen = pieces.flatten.length ∧ finished.plaintextSha256 = crates.sha256 pieces.flatten ∧
      finished.seals = fileSeals (keyFor crates cipher context salt cipher.current) (buildHeader chunkLog2 salt) chunks := by
  intro finished
  have start : (SealedFileWriter.fresh crates cipher context chunkLog2 salt).Holds crates [] :=
    ⟨by simp, rfl, by simp [sealedChunks, SealedFileWriter.fresh], rfl⟩
  obtain ⟨full, holds, same, plain⟩ := start.writePieces pieces
  let writer := pieces.foldl (SealedFileWriter.writePlain crates) (.fresh crates cipher context chunkLog2 salt)
  have size : writer.chunkSize = 2 ^ chunkLog2 := congrArg (2 ^ ·) same.chunkLog2
  have key : writer.key = keyFor crates cipher context salt cipher.current := same.key
  have header : writer.header = buildHeader chunkLog2 salt := same.header
  refine ⟨⟨full, writer.buffer, fun chunk member => (holds.uniform chunk member).trans size,
    writer.fits.trans_eq size⟩, ?_, ?_, same.plaintextLen.trans (Nat.zero_add _), ?_, ?_⟩
  · rw [Chunks.plaintext_eq]
    exact plain
  · change writer.sink ++ crates.encrypt writer.key (chunkNonce writer.nextIndex true) writer.buffer writer.header = _
    rw [holds.sink, holds.nextIndex, fileBytes]
    change writer.header ++ (sealedChunks crates writer.key writer.header full).flatten ++ _ = _
    rw [key, header]
  · exact congrArg crates.sha256 same.hashed
  · change writer.seals ++ [⟨writer.key, chunkNonce writer.nextIndex true, writer.buffer, writer.header⟩] = _
    rw [holds.seals, holds.nextIndex]
    change fullSeals writer.key writer.header full ++ _ = _
    rw [key, header]
    rfl

end Layout

end RyuRooms.Crypto
