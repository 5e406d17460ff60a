import RyuRooms.Crypto.Binding
import RyuRooms.Crypto.ChunkReader

/-! # What an adversary makes of sealed files

Under an ideal cipher a chunk opens only if a writer sealed it under the same key, nonce and header. Since
the key binds the salt and the context, the header is bound to every chunk, and the nonce tells the index
and the end, whatever opens is one of the files that were written, and reads as that file or not at all.
-/

namespace RyuRooms.Crypto

open Foundation

/-- A file that was written and finished; its size and what it is bound to are lengths the code can count. -/
structure SealedFile (crates : Crates) where
  cipher : ContentCipher
  context : ContentContext
  chunkLog2 : ℕ
  salt : Salt
  pieces : List Bytes
  finished : FinishedFile
  wrote : writeFile crates cipher context chunkLog2 salt pieces = .ok finished
  fits : finished.sink.length < 2 ^ 64
  boundFits : (context.associatedData cipher.store).length < 2 ^ 64

namespace SealedFile

variable {crates : Crates} (file : SealedFile crates)

def plaintext : Bytes := file.pieces.flatten

def header : Bytes := buildHeader file.chunkLog2 file.salt

def key : Bytes := keyFor crates file.cipher file.context file.salt file.cipher.current

end SealedFile

/-- What an ideal AEAD and an ideal KDF promise when these files were written. -/
structure Crates.Ideal (crates : Crates) (files : List (SealedFile crates)) : Prop where
  length : crates.Tagged
  authentic : ∀ cipherKey salt bound nonce ciphertext aad message,
    crates.decrypt (fileKey crates cipherKey salt bound) nonce ciphertext aad = some message →
      ∃ file ∈ files, ∃ made ∈ file.finished.seals,
        made = ⟨fileKey crates cipherKey salt bound, nonce, message, aad⟩ ∧ made.ciphertext crates = ciphertext
  keys : ∀ file ∈ files, ∀ cipherKey salt bound, fileKey crates cipherKey salt bound = file.key →
    cipherKey = file.cipher.current.key ∧ salt = file.salt ∧ bound = file.context.associatedData file.cipher.store

namespace SealedFile

variable {crates : Crates} {files : List (SealedFile crates)}

/-- The chunks of a file that was written. -/
theorem exists_chunks (tagged : crates.Tagged) (file : SealedFile crates) :
    (10 ≤ file.chunkLog2 ∧ file.chunkLog2 ≤ 20) ∧ ∃ chunks : Chunks (2 ^ file.chunkLog2),
      chunks.plaintext = file.plaintext ∧ file.finished.seals = fileSeals file.key file.header chunks ∧
        chunks.full.length < 2 ^ 64 ∧ file.finished.sink = fileBytes crates file.key file.header chunks := by
  obtain ⟨accepted, finished⟩ := writeFile_eq_ok_iff.mp file.wrote
  obtain ⟨chunks, plaintext, sink, -, -, seals⟩ :=
    @finish_writePieces crates file.cipher file.context file.chunkLog2 file.salt file.pieces
  rw [← finished] at sink seals
  refine ⟨accepted, chunks, plaintext, seals, ?_, sink⟩
  have fits := file.fits
  rw [sink, SealedFileReader.length_fileBytes tagged] at fits
  have many : chunks.full.length ≤ chunks.full.length * (2 ^ file.chunkLog2 + TAG_LEN) :=
    Nat.le_mul_of_pos_right _ (Nat.add_pos_left (Nat.two_pow_pos _) _)
  omega

theorem length_plaintext_lt (tagged : crates.Tagged) (file : SealedFile crates) : file.plaintext.length < 2 ^ 64 := by
  obtain ⟨-, chunks, plaintext, -, -, sink⟩ := file.exists_chunks tagged
  have fits := file.fits
  have spread := Nat.mul_add chunks.full.length (2 ^ file.chunkLog2) TAG_LEN
  rw [sink, SealedFileReader.length_fileBytes tagged, spread] at fits
  rw [← plaintext, chunks.length_plaintext]
  omega

theorem take_sink (tagged : crates.Tagged) (file : SealedFile crates) :
    file.finished.sink.take SEALED_FILE_HEADER_LEN = file.header := by
  obtain ⟨-, chunks, -, -, -, sink⟩ := file.exists_chunks tagged
  rw [sink, fileBytes, List.append_assoc]
  exact List.take_left' SealedFileReader.length_buildHeader

end SealedFile

namespace SealedFileReader

variable {crates : Crates} {inner : Bytes} {cipher : ContentCipher} {context : ContentContext}

section Inversion

variable {reader : SealedFileReader} {index : ℕ} {plain : Bytes}

theorem length_of_readExact {bytes found : Bytes} {offset len : ℕ} (read : readExact bytes offset len = .ok found) :
    found.length = len := by
  rw [readExact] at read
  split at read
  · next room =>
    obtain rfl := Except.ok.inj read
    rw [List.length_take, List.length_drop]
    omega
  · cases read

theorem decryptChunk_eq_ok (decrypted : reader.decryptChunk crates index = .ok plain) :
    index < reader.chunkCount ∧ ∃ ciphertext : Bytes, ciphertext.length =
      (if index + 1 = reader.chunkCount then reader.plaintextLen - index * reader.chunkSize + TAG_LEN
        else reader.chunkSize + TAG_LEN) ∧
      crates.decrypt reader.key (chunkNonce index (index + 1 = reader.chunkCount)) ciphertext reader.header = some plain := by
  refine ⟨lt_chunkCount_of_decryptChunk decrypted, ?_⟩
  obtain ⟨-, -, decrypted⟩ := bind_eq_ok_iff.mp decrypted
  obtain ⟨ciphertext, found, decrypted⟩ := bind_eq_ok_iff.mp decrypted
  refine ⟨ciphertext, length_of_readExact found, ?_⟩
  cases opened : crates.decrypt reader.key (chunkNonce index (index + 1 = reader.chunkCount)) ciphertext reader.header with
  | none =>
    rw [opened] at decrypted
    cases decrypted
  | some text =>
    rw [opened] at decrypted
    rw [Except.ok.inj decrypted]

/-- A size that has a layout is that of the layout. -/
theorem layout_eq_ok {body chunkSize chunkCount plaintextLen : ℕ}
    (fits : layout body chunkSize = .ok (chunkCount, plaintextLen)) (some : chunkCount ≠ 0) (positive : 0 < chunkSize) :
    (chunkCount - 1) * chunkSize ≤ plaintextLen ∧
      body = (chunkCount - 1) * (chunkSize + TAG_LEN) + (plaintextLen - (chunkCount - 1) * chunkSize + TAG_LEN) := by
  have parts := Nat.div_add_mod' body (chunkSize + TAG_LEN)
  rw [layout] at fits
  split at fits
  · next whole =>
    obtain ⟨rfl, rfl⟩ := Prod.mk.inj (Except.ok.inj fits)
    rw [whole, Nat.add_zero] at parts
    obtain ⟨full, more⟩ := Nat.exists_eq_succ_of_ne_zero some
    rw [more] at parts ⊢
    rw [Nat.succ_mul] at parts ⊢
    rw [Nat.succ_sub_one]
    omega
  · split at fits
    · cases fits
    · next whole long =>
      obtain ⟨rfl, rfl⟩ := Prod.mk.inj (Except.ok.inj fits)
      rw [Nat.add_sub_cancel]
      omega

theorem readShape_eq_ok {shape : Shape} (read : readShape inner = .ok shape) :
    SEALED_FILE_HEADER_LEN + TAG_LEN ≤ inner.length ∧ shape.header = inner.take SEALED_FILE_HEADER_LEN ∧
      shape.chunkSize = 2 ^ (shape.header.getD 8 0).toNat ∧ shape.chunkCount ≠ 0 ∧
      (shape.chunkCount - 1) * shape.chunkSize ≤ shape.plaintextLen ∧
      inner.length = SEALED_FILE_HEADER_LEN + ((shape.chunkCount - 1) * (shape.chunkSize + TAG_LEN) +
        (shape.plaintextLen - (shape.chunkCount - 1) * shape.chunkSize + TAG_LEN)) := by
  obtain ⟨_, long, read⟩ := bind_eq_ok_iff.mp read
  obtain ⟨_, _, read⟩ := bind_eq_ok_iff.mp read
  obtain ⟨_, _, read⟩ := bind_eq_ok_iff.mp read
  obtain ⟨⟨chunkCount, plaintextLen⟩, sized, read⟩ := bind_eq_ok_iff.mp read
  obtain ⟨_, some, read⟩ := bind_eq_ok_iff.mp read
  obtain rfl := Except.ok.inj read
  have long := Nat.le_of_not_lt (bailIf_eq_ok_iff.mp long)
  obtain ⟨inside, body⟩ := layout_eq_ok sized (bailIf_eq_ok_iff.mp some) (Nat.two_pow_pos _)
  refine ⟨long, rfl, rfl, bailIf_eq_ok_iff.mp some, inside, ?_⟩
  simp only
  omega

/-- A reader was opened with one of the keys, and its final chunk was decrypted. -/
theorem openFile_eq_ok (opened : openFile crates inner cipher context = .ok reader) :
    ∃ shape, readShape inner = .ok shape ∧ ∃ candidate ∈ cipher.candidateKeys, ∃ plain,
      let tried := withKey inner shape
        (fileKey crates candidate.1.key (shape.header.drop 12) (context.associatedData cipher.store)) candidate.2
      tried.decryptChunk crates (shape.chunkCount - 1) = .ok plain ∧
        reader = { tried with cached := some (shape.chunkCount - 1, plain) } := by
  obtain ⟨shape, read, opened⟩ := bind_eq_ok_iff.mp opened
  refine ⟨shape, read, ?_⟩
  cases tried : cipher.candidateKeys.findSome? (tryKey crates inner cipher context shape) with
  | none =>
    rw [tried] at opened
    cases opened
  | some first =>
    rw [tried] at opened
    obtain rfl := Except.ok.inj opened
    obtain ⟨candidate, member, found⟩ := List.exists_of_findSome?_eq_some tried
    refine ⟨candidate, member, ?_⟩
    rw [tryKey] at found
    split at found
    · next plain next loaded =>
      obtain rfl := Option.some.inj found
      exact ⟨plain, loadChunk_eq_ok rfl loaded⟩
    · cases found

theorem length_of_openFile (opened : openFile crates inner cipher context = .ok reader) :
    SEALED_FILE_HEADER_LEN + TAG_LEN ≤ inner.length := by
  obtain ⟨shape, read, -⟩ := openFile_eq_ok opened
  exact (readShape_eq_ok read).1

end Inversion

end SealedFileReader

namespace Crates.Ideal

variable {crates : Crates} {files : List (SealedFile crates)}

/-- What opens under a file key was sealed in a file with that key. -/
theorem sealed (ideal : crates.Ideal files) {cipherKey salt bound nonce ciphertext aad message : Bytes}
    (decrypted : crates.decrypt (fileKey crates cipherKey salt bound) nonce ciphertext aad = some message) :
    ∃ file ∈ files, cipherKey = file.cipher.current.key ∧ salt = file.salt ∧
      bound = file.context.associatedData file.cipher.store ∧
      (⟨file.key, nonce, message, aad⟩ : Seal) ∈ file.finished.seals ∧ ciphertext.length = message.length + TAG_LEN := by
  obtain ⟨file, member, made, sealed, rfl, rfl⟩ := ideal.authentic _ _ _ _ _ _ _ decrypted
  obtain ⟨-, chunks, -, seals, -⟩ := file.exists_chunks ideal.length
  have key : fileKey crates cipherKey salt bound = file.key := by
    rw [seals] at sealed
    obtain ⟨index, -, same⟩ := mem_fileSeals.mp sealed
    exact congrArg Seal.key same
  obtain ⟨sameKey, sameSalt, sameBound⟩ := ideal.keys file member _ _ _ key
  exact ⟨file, member, sameKey, sameSalt, sameBound, key ▸ sealed, ideal.length _ _ _ _⟩

/-- A reader with the key of a file and its layout returns chunks of that file. -/
theorem faithful (ideal : crates.Ideal files) (fresh : (files.map SealedFile.salt).Nodup) {file : SealedFile crates}
    (member : file ∈ files) {chunks : Chunks (2 ^ file.chunkLog2)}
    (seals : file.finished.seals = fileSeals file.key file.header chunks) (fits : chunks.full.length < 2 ^ 64)
    {reader : SealedFileReader} (key : reader.key = file.key) (chunkSize : reader.chunkSize = 2 ^ file.chunkLog2)
    (chunkCount : reader.chunkCount = chunks.full.length + 1)
    (plaintextLen : reader.plaintextLen = chunks.plaintext.length)
    (cached : ∀ index plain, reader.cached = some (index, plain) → plain = chunks.chunk index) :
    reader.Faithful crates chunks := by
  refine ⟨chunkSize, plaintextLen, fun index plain decrypted => ?_, cached⟩
  obtain ⟨known, ciphertext, -, opened⟩ := SealedFileReader.decryptChunk_eq_ok decrypted
  rw [key] at opened
  obtain ⟨other, otherMember, -, salt, -, made, -⟩ := ideal.sealed opened
  obtain rfl := List.inj_on_of_nodup_map fresh member otherMember (Subtype.ext salt)
  rw [seals] at made
  obtain ⟨found, within, same⟩ := mem_fileSeals.mp made
  obtain ⟨-, nonce, plain, -⟩ := Seal.mk.injEq .. ▸ same
  rw [chunkCount] at known
  rw [plain, ((chunkNonce_inj (by omega) (by omega)).mp nonce).1]

end Crates.Ideal

section Forgery

variable {crates : Crates} {files : List (SealedFile crates)} {cipher : ContentCipher} {context : ContentContext}
  {forged : Bytes} {reader : SealedFileReader}

/-- Whatever opens is one of the files in size, header and plaintext. -/
theorem openFile_authentic (ideal : crates.Ideal files) (fresh : (files.map SealedFile.salt).Nodup)
    (fits : forged.length < 2 ^ 64) (opened : SealedFileReader.openFile crates forged cipher context = .ok reader) :
    ∃ file ∈ files, (file.context = context ∧ file.cipher.store = cipher.store) ∧
      (∃ candidate ∈ cipher.candidateKeys, candidate.1.key = file.cipher.current.key) ∧
      forged.take SEALED_FILE_HEADER_LEN = file.header ∧ forged.length = file.finished.sink.length ∧
      ∃ chunks : Chunks (2 ^ file.chunkLog2), chunks.plaintext = file.plaintext ∧ reader.Faithful crates chunks := by
  obtain ⟨shape, read, candidate, candidateMember, plain, decrypted, rfl⟩ := SealedFileReader.openFile_eq_ok opened
  obtain ⟨long, header, chunkSize, some, inside, size⟩ := SealedFileReader.readShape_eq_ok read
  obtain ⟨-, ciphertext, length, opens⟩ := SealedFileReader.decryptChunk_eq_ok decrypted
  have last : shape.chunkCount - 1 + 1 = shape.chunkCount := Nat.sub_add_cancel (Nat.pos_of_ne_zero some)
  have before : shape.chunkCount - 1 < 2 ^ 64 := by
    have many := Nat.le_mul_of_pos_right (shape.chunkCount - 1)
      (Nat.add_pos_right shape.chunkSize (show 0 < TAG_LEN by decide))
    omega
  obtain ⟨file, member, key, salt, bound, made, tagged⟩ := ideal.sealed opens
  obtain ⟨context_, store⟩ := associatedData_inj file.boundFits bound.symm
  obtain ⟨accepted, chunks, plaintext, seals, count, sink⟩ := file.exists_chunks ideal.length
  rw [seals] at made
  obtain ⟨found, within, same⟩ := mem_fileSeals.mp made
  obtain ⟨-, nonce, text, aad⟩ := Seal.mk.injEq .. ▸ same
  change shape.header = file.header at aad
  -- The nonce of the final chunk is that of the final chunk of the file.
  obtain ⟨index, final⟩ := (chunkNonce_inj before (by omega)).mp nonce
  have isLast : found = chunks.full.length := by
    rw [eq_comm] at final
    exact decide_eq_true_eq.mp (final.trans (decide_eq_true last))
  have chunkSize_ : shape.chunkSize = 2 ^ file.chunkLog2 := by
    have log : ((buildHeader file.chunkLog2 file.salt).getD 8 0).toNat = file.chunkLog2 := by
      change file.chunkLog2 % 256 = file.chunkLog2
      omega
    rw [chunkSize, aad, SealedFile.header, log]
  have chunkCount_ : shape.chunkCount = chunks.full.length + 1 := by omega
  have length_ : shape.plaintextLen - (shape.chunkCount - 1) * shape.chunkSize = chunks.final.length := by
    rw [text, isLast, chunks.chunk_final] at tagged
    change ciphertext.length = (if shape.chunkCount - 1 + 1 = shape.chunkCount then
      shape.plaintextLen - (shape.chunkCount - 1) * shape.chunkSize + TAG_LEN else _) at length
    rw [if_pos last] at length
    omega
  have plaintextLen_ : shape.plaintextLen = chunks.plaintext.length := by
    have sizes := chunks.length_plaintext
    rw [← length_, chunkSize_, index, isLast] at sizes
    rw [chunkSize_, index, isLast] at inside
    omega
  refine ⟨file, member, ⟨context_, store⟩, ⟨candidate, candidateMember, key⟩, header ▸ aad, ?_, chunks, plaintext, ?_⟩
  · rw [sink, SealedFileReader.length_fileBytes ideal.length, size, length_, index, isLast, chunkSize_]
    rw [SealedFile.header, SealedFileReader.length_buildHeader, Nat.add_assoc]
  · refine ideal.faithful fresh member seals count ?_ chunkSize_ chunkCount_ plaintextLen_ fun other cached stored => ?_
    · change fileKey crates candidate.1.key (shape.header.drop 12) (context.associatedData cipher.store) = _
      rw [key, salt, bound]
      rfl
    · obtain ⟨rfl, rfl⟩ := Prod.mk.inj (Option.some.inj stored)
      rw [text, index]

/-- What an adversary assembles opens as a file that was written, and reads as that file or not at all. -/
theorem sealedFile_authentic (ideal : crates.Ideal files) (fresh : (files.map SealedFile.salt).Nodup)
    (cipher : ContentCipher) (context : ContentContext) :
    (∀ forged : Bytes, forged.length < 2 ^ 64 → ∀ reader,
      SealedFileReader.openFile crates forged cipher context = .ok reader → ∃ file ∈ files,
        (file.context = context ∧ file.cipher.store = cipher.store) ∧
        (∃ candidate ∈ cipher.candidateKeys, candidate.1.key = file.cipher.current.key) ∧
        forged.take SEALED_FILE_HEADER_LEN = file.header ∧ reader.plaintextLen = file.plaintext.length ∧
        ∀ ranges, List.Forall₂ (fun range answer => ∀ bytes, answer = .ok bytes →
          bytes = (file.plaintext.drop range.1).take range.2) ranges (reader.answers crates ranges)) ∧
      ∀ file ∈ files, ∀ size < file.finished.sink.length, ∀ reader,
        SealedFileReader.openFile crates (file.finished.sink.take size) cipher context ≠ .ok reader := by
  constructor
  · intro forged fits reader opened
    obtain ⟨file, member, bound, key, header, size, chunks, plaintext, faithful⟩ :=
      openFile_authentic ideal fresh fits opened
    refine ⟨file, member, bound, key, header, faithful.plaintextLen.trans (congrArg _ plaintext), fun ranges => ?_⟩
    refine (faithful.answers ?_ (Nat.two_pow_pos _) ranges).imp fun range answer right bytes answered => ?_
    · rw [plaintext]
      exact file.length_plaintext_lt ideal.length
    · rw [answered] at right
      rw [← plaintext]
      exact right
  · intro file member size shorter reader opened
    have length := List.length_take_of_le shorter.le
    obtain ⟨other, otherMember, -, -, header, size_, -⟩ :=
      openFile_authentic ideal fresh (length.trans_lt (shorter.trans file.fits)) opened
    have long := SealedFileReader.length_of_openFile opened
    rw [length] at long size_
    rw [List.take_take, Nat.min_eq_left (Nat.le_of_add_right_le long), file.take_sink ideal.length] at header
    have salt : file.salt = other.salt := Subtype.ext (congrArg (List.drop 12) header)
    obtain rfl := List.inj_on_of_nodup_map fresh member otherMember salt
    exact absurd size_ shorter.ne

end Forgery

namespace Sample

def otherSalt : Salt := ⟨List.replicate 20 6, rfl⟩

/-- A full chunk and a byte. -/
def twoChunks : Chunks (2 ^ 10) where
  full := [List.replicate 1024 1]
  final := [2]
  uniform chunk member := by
    rw [List.mem_singleton.mp member, List.length_replicate]
    rfl
  short := by decide

/-- Three bytes. -/
def oneChunk : Chunks (2 ^ 10) where
  full := []
  final := [1, 2, 3]
  uniform chunk member := by cases member
  short := by decide

/-- What was sealed in a world of two files, each under its own key. -/
def sealed : List Seal :=
  fileSeals [1] (buildHeader 10 salt) twoChunks ++ fileSeals [2] (buildHeader 10 otherSalt) oneChunk

/-- The toy cipher of a world in which nothing else was sealed. -/
def strict : Crates :=
  { crates with
    hkdf := fun salt_ ikm info =>
      if ikm = cipher.current.key ∧ info = utf8 "ryu-sealed-file-v1" ++ context.associatedData cipher.store then
        if salt_ = salt then [1] else if salt_ = otherSalt then [2] else []
      else []
    decrypt := fun key nonce ciphertext aad =>
      (sealed.find? fun made => made.key = key ∧ made.nonce = nonce ∧ made.aad = aad ∧
        encrypt made.key made.nonce made.message made.aad = ciphertext).map Seal.message }

theorem fileKey_strict (cipherKey salt_ bound : Bytes) : fileKey strict cipherKey salt_ bound =
    if cipherKey = cipher.current.key ∧ bound = context.associatedData cipher.store then
      if salt_ = salt then [1] else if salt_ = otherSalt then [2] else []
    else [] := by
  simp [fileKey, hkdf32, strict]

theorem key_long : keyFor strict cipher context salt cipher.current = [1] := by
  rw [keyFor, fileKey_strict, if_pos ⟨rfl, rfl⟩, if_pos rfl]

theorem key_short : keyFor strict cipher context otherSalt cipher.current = [2] := by
  have other : otherSalt.val ≠ salt := by decide
  rw [keyFor, fileKey_strict, if_pos ⟨rfl, rfl⟩, if_neg other, if_pos rfl]

theorem tagged_strict : strict.Tagged :=
  opens.length

theorem boundFits : (context.associatedData cipher.store).length < 2 ^ 64 := by
  decide +kernel

/-- What the writer makes of some chunks in one piece. -/
def finishOf (salt_ : Salt) (chunks : Chunks (2 ^ 10)) : FinishedFile :=
  ([chunks.plaintext].foldl (SealedFileWriter.writePlain strict) (.fresh strict cipher context 10 salt_)).finish strict

theorem writeFile_strict (salt_ : Salt) (chunks : Chunks (2 ^ 10)) :
    writeFile strict cipher context 10 salt_ [chunks.plaintext] = .ok (finishOf salt_ chunks) := by
  have accepted : 10 ≤ 10 ∧ 10 ≤ 20 := by omega
  exact writeFile_eq_ok_iff.mpr ⟨accepted, rfl⟩

theorem fits_strict (salt_ : Salt) {chunks : Chunks (2 ^ 10)} (small : chunks.plaintext.length < 2 ^ 20) :
    (finishOf salt_ chunks).sink.length < 2 ^ 64 := by
  obtain ⟨cut, plaintext, sink, -⟩ := @finish_writePieces strict cipher context 10 salt_ [chunks.plaintext]
  have sizes := cut.length_plaintext
  rw [plaintext, List.flatten_singleton] at sizes
  rw [finishOf, sink, SealedFileReader.length_fileBytes tagged_strict, SealedFileReader.length_buildHeader]
  rw [SEALED_FILE_HEADER_LEN, TAG_LEN]
  omega

/-- A file of some chunks. -/
def written (salt_ : Salt) (chunks : Chunks (2 ^ 10)) (small : chunks.plaintext.length < 2 ^ 20) : SealedFile strict where
  cipher := cipher
  context := context
  chunkLog2 := 10
  salt := salt_
  pieces := [chunks.plaintext]
  finished := finishOf salt_ chunks
  wrote := writeFile_strict salt_ chunks
  fits := fits_strict salt_ small
  boundFits := boundFits

variable {salt_ : Salt} {chunks : Chunks (2 ^ 10)} {small : chunks.plaintext.length < 2 ^ 20}

/-- A file whose final chunk is neither empty nor full has the chunks it was made of. -/
theorem chunks_written (some : chunks.final ≠ []) (room : chunks.final.length < 2 ^ 10) :
    (written salt_ chunks small).finished.seals =
        fileSeals (keyFor strict cipher context salt_ cipher.current) (buildHeader 10 salt_) chunks ∧
      (written salt_ chunks small).finished.sink =
        fileBytes strict (keyFor strict cipher context salt_ cipher.current) (buildHeader 10 salt_) chunks := by
  obtain ⟨-, (cut : Chunks (2 ^ 10)), plaintext, seals, -, sink⟩ := (written salt_ chunks small).exists_chunks tagged_strict
  have same : cut.plaintext = chunks.plaintext := plaintext.trans List.flatten_singleton
  have sizes := cut.length_plaintext
  rw [same, chunks.length_plaintext] at sizes
  have positive := List.length_pos_iff.mpr some
  have short : cut.final.length ≤ 2 ^ 10 := cut.short
  obtain rfl : cut = chunks := cut.eq_of_plaintext same (by omega)
  exact ⟨seals, sink⟩

/-- A file of two chunks. -/
def long : SealedFile strict :=
  written salt twoChunks (by rw [twoChunks.length_plaintext]; decide)

/-- A file of one chunk. -/
def short : SealedFile strict :=
  written otherSalt oneChunk (by decide)

theorem chunks_long : long.finished.seals = fileSeals [1] (buildHeader 10 salt) twoChunks ∧
    long.finished.sink = fileBytes strict [1] (buildHeader 10 salt) twoChunks := by
  rw [← key_long]
  exact chunks_written (by decide) (by decide)

theorem chunks_short : short.finished.seals = fileSeals [2] (buildHeader 10 otherSalt) oneChunk ∧
    short.finished.sink = fileBytes strict [2] (buildHeader 10 otherSalt) oneChunk := by
  rw [← key_short]
  exact chunks_written (by decide) (by decide)

theorem strict_ideal : strict.Ideal [long, short] where
  length := tagged_strict
  authentic cipherKey salt_ bound nonce ciphertext aad message decrypted := by
    obtain ⟨made, found, rfl⟩ := Option.map_eq_some_iff.mp decrypted
    have asked := List.find?_some found
    obtain ⟨key, rfl, rfl, same⟩ := of_decide_eq_true asked
    obtain first | second := List.mem_append.mp (List.mem_of_find?_eq_some found)
    · exact ⟨long, List.mem_cons_self, made, chunks_long.1 ▸ first, key ▸ rfl, same⟩
    · exact ⟨short, List.mem_cons_of_mem _ List.mem_cons_self, made, chunks_short.1 ▸ second, key ▸ rfl, same⟩
  keys file member cipherKey salt_ bound same := by
    rw [fileKey_strict] at same
    have either : file.key = [1] ∧ file = long ∨ file.key = [2] ∧ file = short := by
      obtain rfl | rfl := List.mem_pair.mp member
      · exact .inl ⟨key_long, rfl⟩
      · exact .inr ⟨key_short, rfl⟩
    obtain ⟨key, rfl⟩ | ⟨key, rfl⟩ := either <;> rw [key] at same <;> split_ifs at same with bound own other
    · exact ⟨bound.1, own, bound.2⟩
    · exact absurd same (by decide)
    · exact absurd same (by decide)
    · exact ⟨bound.1, other, bound.2⟩

/-- Both files open and no proper prefix of either does; the two chunks of one with the end of the other do not, and
whatever opens has the header and the length of one of the two. -/
theorem sealedFile_authentic_spliced :
    (∀ file ∈ [long, short], (SealedFileReader.openFile strict file.finished.sink cipher context).isOk = true ∧
      ∀ size < file.finished.sink.length, ∀ reader,
        SealedFileReader.openFile strict (file.finished.sink.take size) cipher context ≠ .ok reader) ∧
      (SealedFileReader.openFile strict (long.finished.sink.take 1072 ++ short.finished.sink.drop 32) cipher context).isOk =
        false ∧
      ∀ forged : Bytes, forged.length < 2 ^ 64 → ∀ reader,
        SealedFileReader.openFile strict forged cipher context = .ok reader →
          (forged.take SEALED_FILE_HEADER_LEN = buildHeader 10 salt ∧ reader.plaintextLen = 1025) ∨
            (forged.take SEALED_FILE_HEADER_LEN = buildHeader 10 otherSalt ∧ reader.plaintextLen = 3) := by
  obtain ⟨forgery, prefixes⟩ := sealedFile_authentic strict_ideal (by decide) cipher context
  refine ⟨fun file member => ⟨?_, prefixes file member⟩, ?_, ?_⟩
  · obtain rfl | rfl := List.mem_pair.mp member
    · rw [chunks_long.2]
      decide +kernel
    · rw [chunks_short.2]
      decide +kernel
  · rw [chunks_long.2, chunks_short.2]
    decide +kernel
  · intro forged fits reader opened
    obtain ⟨file, member, -, -, header, length, -⟩ := forgery forged fits reader opened
    obtain rfl | rfl := List.mem_pair.mp member
    · refine .inl ⟨header, length.trans ?_⟩
      rw [SealedFile.plaintext, long, written, List.flatten_singleton, twoChunks.length_plaintext]
      rfl
    · exact .inr ⟨header, length⟩

end Sample

end RyuRooms.Crypto
