import RyuRooms.Model.Content

/-! # Sealed files

The writer and the reader of `sealed_file.rs`. The sink of a writer and the source of a reader are byte
strings in memory, and a reader keeps its state when a read fails. `seals` is bookkeeping: what a writer
has sealed, in order.
-/

namespace RyuRooms.Crypto

open Foundation

def SEALED_FILE_HEADER_LEN : ℕ := 32
def DEFAULT_CHUNK_LOG2 : ℕ := 16

/-- `file_key`. -/
def fileKey (crates : Crates) (cipherKey salt aad : Bytes) : Bytes :=
  hkdf32 crates cipherKey salt [utf8 "ryu-sealed-file-v1", aad]

/-- `chunk_nonce`. -/
def chunkNonce (index : ℕ) (last : Bool) : Bytes := [0, 0, 0] ++ bigEndian 8 index ++ [if last then 1 else 0]

/-- `build_header`. -/
def buildHeader (chunkLog2 : ℕ) (salt : Bytes) : Bytes :=
  SEALED_FILE_MAGIC ++ [UInt8.ofNat chunkLog2, 0, 0, 0] ++ salt

/-- One use of the cipher. -/
structure Seal where
  key : Bytes
  nonce : Bytes
  message : Bytes
  aad : Bytes

def Seal.ciphertext (crates : Crates) (made : Seal) : Bytes :=
  crates.encrypt made.key made.nonce made.message made.aad

/-- A salt of twenty bytes. -/
abbrev Salt := { salt : Bytes // salt.length = 20 }

/-- `SealedFileWriter`, whose buffer never holds more than a chunk. -/
structure SealedFileWriter where
  sink : Bytes
  key : Bytes
  header : Bytes
  chunkLog2 : ℕ
  buffer : Bytes
  nextIndex : ℕ
  plaintextLen : ℕ
  hashed : Bytes
  seals : List Seal
  fits : buffer.length ≤ 2 ^ chunkLog2

/-- `FinishedFile`. -/
structure FinishedFile where
  sink : Bytes
  plaintextLen : ℕ
  plaintextSha256 : Bytes
  seals : List Seal

namespace SealedFileWriter

/-- The writer that `with_params` returns. -/
def fresh (crates : Crates) (cipher : ContentCipher) (context : ContentContext) (chunkLog2 : ℕ) (salt : Salt) :
    SealedFileWriter where
  sink := buildHeader chunkLog2 salt
  key := fileKey crates cipher.current.key salt (context.associatedData cipher.store)
  header := buildHeader chunkLog2 salt
  chunkLog2 := chunkLog2
  buffer := []
  nextIndex := 0
  plaintextLen := 0
  hashed := []
  seals := []
  fits := Nat.zero_le _

/-- `SealedFileWriter::with_params`. -/
def withParams (crates : Crates) (cipher : ContentCipher) (context : ContentContext) (chunkLog2 : ℕ) (salt : Salt) :
    Except String SealedFileWriter :=
  if chunkLog2 < 10 ∨ 20 < chunkLog2 then
    .error ("sealed file chunk_log2 must be 10..=20, got " ++ toString chunkLog2)
  else .ok (fresh crates cipher context chunkLog2 salt)

variable (crates : Crates) (writer : SealedFileWriter)

/-- The size of a chunk. -/
def chunkSize : ℕ := 2 ^ writer.chunkLog2

/-- `SealedFileWriter::seal_chunk`. -/
def sealChunk (last : Bool) : SealedFileWriter :=
  let made : Seal := ⟨writer.key, chunkNonce writer.nextIndex last, writer.buffer, writer.header⟩
  { writer with
    sink := writer.sink ++ made.ciphertext crates
    nextIndex := writer.nextIndex + 1
    buffer := []
    seals := writer.seals ++ [made]
    fits := Nat.zero_le _ }

/-- A writer with room in its buffer: when more data follows, a full chunk is not the last one. -/
def makeRoom : SealedFileWriter :=
  if writer.buffer.length = writer.chunkSize then writer.sealChunk crates false else writer

/-- Takes as much of the data as fits. -/
def take (data : Bytes) : SealedFileWriter :=
  { writer with
    buffer := writer.buffer ++ data.take (writer.chunkSize - writer.buffer.length)
    fits := by
      have fits := writer.fits
      rw [List.length_append, List.length_take, chunkSize]
      omega }

theorem makeRoom_room : 0 < (writer.makeRoom crates).chunkSize - (writer.makeRoom crates).buffer.length := by
  have fits := writer.fits
  rw [makeRoom]
  split
  · exact Nat.two_pow_pos _
  · next partial_ => exact Nat.sub_pos_of_lt (lt_of_le_of_ne fits partial_)

/-- The loop of `write_plain`. -/
def fill (writer : SealedFileWriter) (data : Bytes) : SealedFileWriter :=
  if empty : data = [] then writer
  else
    let ready := writer.makeRoom crates
    have := writer.makeRoom_room crates
    have := List.length_pos_iff.mpr empty
    fill (ready.take data) (data.drop (ready.chunkSize - ready.buffer.length))
termination_by data.length
decreasing_by simp only [List.length_drop]; omega

/-- `SealedFileWriter::write_plain`. -/
def writePlain (data : Bytes) : SealedFileWriter :=
  fill crates { writer with
    hashed := writer.hashed ++ data
    plaintextLen := writer.plaintextLen + data.length } data

/-- `SealedFileWriter::finish`. -/
def finish : FinishedFile :=
  let written := writer.sealChunk crates true
  ⟨written.sink, written.plaintextLen, crates.sha256 written.hashed, written.seals⟩

end SealedFileWriter

/-- Opens a file, writes the pieces of its plaintext one after the other, and finishes it. -/
def writeFile (crates : Crates) (cipher : ContentCipher) (context : ContentContext) (chunkLog2 : ℕ) (salt : Salt)
    (pieces : List Bytes) : Except String FinishedFile :=
  (SealedFileWriter.withParams crates cipher context chunkLog2 salt).map fun writer =>
    (pieces.foldl (SealedFileWriter.writePlain crates) writer).finish crates

/-- `SealedFileReader`, apart from the position of its `Read` and `Seek`. -/
structure SealedFileReader where
  inner : Bytes
  key : Bytes
  header : Bytes
  chunkSize : ℕ
  chunkCount : ℕ
  plaintextLen : ℕ
  cached : Option (ℕ × Bytes)
  retiredKey : Bool

/-- `bail!` under a condition. -/
def bailIf (condition : Prop) [Decidable condition] (message : String) : Except String Unit :=
  if condition then .error message else .ok ()

theorem bailIf_eq_ok_iff {condition : Prop} [Decidable condition] {message : String} {result : Unit} :
    bailIf condition message = .ok result ↔ ¬ condition := by
  rw [bailIf]
  split
  · next refused => exact iff_of_false (fun taken => by cases taken) (not_not_intro refused)
  · next passed => exact iff_of_true rfl passed

/-- `seek` and `read_exact`. -/
def readExact (bytes : Bytes) (offset len : ℕ) : Except String Bytes :=
  if offset + len ≤ bytes.length then .ok ((bytes.drop offset).take len) else .error "failed to fill whole buffer"

/-- `u64::saturating_add`. -/
def saturatingAddU64 (left right : ℕ) : ℕ := min (left + right) (2 ^ 64 - 1)

namespace SealedFileReader

/-- What the size of a file says of its chunks: how many there are, and the length of the plaintext. -/
def layout (body chunkSize : ℕ) : Except String (ℕ × ℕ) :=
  let sealedChunk := chunkSize + TAG_LEN
  let full := body / sealedChunk
  let rem := body % sealedChunk
  if rem = 0 then .ok (full, full * chunkSize)
  else if rem < TAG_LEN then .error "sealed file is truncated or malformed"
  else .ok (full + 1, full * chunkSize + (rem - TAG_LEN))

variable (crates : Crates)

section Reads

variable (reader : SealedFileReader)

/-- What `load_chunk` decrypts when its chunk is not cached. -/
def decryptChunk (index : ℕ) : Except String Bytes := do
  bailIf (reader.chunkCount ≤ index) ("chunk " ++ toString index ++ " out of range")
  let last := index + 1 = reader.chunkCount
  let sealedChunk := reader.chunkSize + TAG_LEN
  let offset := SEALED_FILE_HEADER_LEN + index * sealedChunk
  let len := if last then reader.plaintextLen - index * reader.chunkSize + TAG_LEN else sealedChunk
  let ciphertext ← readExact reader.inner offset len
  let opened := crates.decrypt reader.key (chunkNonce index last) ciphertext reader.header
  opened.elim (.error ("sealed file chunk " ++ toString index ++ " does not open")) .ok

/-- The branch of `load_chunk` for a chunk that is not cached. -/
def fetchChunk (index : ℕ) : EStateM.Result String SealedFileReader Bytes :=
  match reader.decryptChunk crates index with
  | .ok plain => .ok plain { reader with cached := some (index, plain) }
  | .error error => .error error reader

/-- `SealedFileReader::load_chunk`. -/
def loadChunk (index : ℕ) : EStateM String SealedFileReader Bytes := fun reader =>
  match reader.cached with
  | some (cached, plain) => if cached = index then .ok plain reader else reader.fetchChunk crates index
  | none => reader.fetchChunk crates index

end Reads

/-- The loop of `read_range`, which a chunk without a byte to take would never leave. -/
def readChunks (stop : ℕ) : ℕ → ℕ → Bytes → EStateM String SealedFileReader Bytes
  | 0, position, out => if position < stop then throw "no progress" else pure out
  | fuel + 1, position, out =>
    if position < stop then do
      let chunkSize := (← get).chunkSize
      let index := position / chunkSize
      let chunk ← loadChunk crates index
      let within := position - index * chunkSize
      let taken := min (stop - position) (chunk.length - within)
      readChunks stop fuel (position + taken) (out ++ (chunk.drop within).take taken)
    else pure out

/-- `SealedFileReader::read_range`. -/
def readRange (start len : ℕ) : EStateM String SealedFileReader Bytes := do
  let stop := min (saturatingAddU64 start len) (← get).plaintextLen
  if stop ≤ start then return [] else readChunks crates stop (stop - start) start []

/-- Reads ranges one after the other, whether or not one of them fails. -/
def answers (reader : SealedFileReader) : List (ℕ × ℕ) → List (Except String Bytes)
  | [] => []
  | (start, len) :: ranges =>
    match readRange crates start len reader with
    | .ok bytes reader => .ok bytes :: answers reader ranges
    | .error error reader => .error error :: answers reader ranges

/-- What `open` reads off a file before it tries a key. -/
structure Shape where
  header : Bytes
  chunkSize : ℕ
  chunkCount : ℕ
  plaintextLen : ℕ

/-- The first half of `SealedFileReader::open`. -/
def readShape (inner : Bytes) : Except String Shape := do
  let size := inner.length
  bailIf (size < SEALED_FILE_HEADER_LEN + TAG_LEN) ("sealed file is truncated (" ++ toString size ++ " bytes)")
  let header := inner.take SEALED_FILE_HEADER_LEN
  bailIf (header.take 8 ≠ SEALED_FILE_MAGIC) "not an RYU-SF01 sealed file"
  let chunkLog2 := (header.getD 8 0).toNat
  bailIf (chunkLog2 < 10 ∨ 20 < chunkLog2 ∨ (header.drop 9).take 3 ≠ [0, 0, 0]) "unsupported RYU-SF01 header"
  let chunkSize := 2 ^ chunkLog2
  let (chunkCount, plaintextLen) ← layout (size - SEALED_FILE_HEADER_LEN) chunkSize
  bailIf (chunkCount = 0) "sealed file has no chunks"
  return ⟨header, chunkSize, chunkCount, plaintextLen⟩

/-- The reader that `open` tries with a key. -/
def withKey (inner : Bytes) (shape : Shape) (key : Bytes) (retiredKey : Bool) : SealedFileReader :=
  { inner, key
    header := shape.header
    chunkSize := shape.chunkSize
    chunkCount := shape.chunkCount
    plaintextLen := shape.plaintextLen
    cached := none
    retiredKey }

/-- Tries one key of a cipher, by the final chunk. -/
def tryKey (inner : Bytes) (cipher : ContentCipher) (context : ContentContext) (shape : Shape)
    (candidate : ContentKey × Bool) : Option SealedFileReader :=
  let key := fileKey crates candidate.1.key (shape.header.drop 12) (context.associatedData cipher.store)
  match loadChunk crates (shape.chunkCount - 1) (withKey inner shape key candidate.2) with
  | .ok _ reader => some reader
  | .error _ _ => none

/-- `SealedFileReader::open`. -/
def openFile (inner : Bytes) (cipher : ContentCipher) (context : ContentContext) : Except String SealedFileReader := do
  let shape ← readShape inner
  (cipher.candidateKeys.findSome? (tryKey crates inner cipher context shape)).elim
    (.error "sealed file does not open (truncated, altered, or another key)") .ok

end SealedFileReader

end RyuRooms.Crypto
