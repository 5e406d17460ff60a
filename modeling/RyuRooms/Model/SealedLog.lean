import RyuRooms.Foundation.Machine
import RyuRooms.Model.SealedFile

/-! # Sealed logs

The append-only logs of `sealed_log.rs`: how a log is scanned and opened, and the writer that appends to it.
A log that exists is one byte string, and a write that fails has put any part of its data there but the
whole. Offsets are natural numbers, since a log is read into memory before it is scanned.
-/

namespace RyuRooms.Crypto

open Foundation

def SEALED_LOG_HEADER_LEN : ℕ := 32
def MAX_RECORD_BODY : ℕ := 16 * 1024 * 1024
def LOG_VERSION : UInt8 := 1

/-- `log_key`. -/
def logKey (crates : Crates) (cipherKey salt aad : Bytes) : Bytes :=
  hkdf32 crates cipherKey salt [utf8 "ryu-sealed-log-v1", aad]

/-- `record_aad`. -/
def recordAad (header : Bytes) (index : ℕ) : Bytes := header ++ bigEndian 8 index

/-- `parse_header`. -/
def parseHeader (header : Bytes) : Except String Unit := do
  bailIf (header.take 8 ≠ SEALED_LOG_MAGIC) "not an RYU-SL01 sealed log"
  bailIf (header.getD 8 0 ≠ LOG_VERSION ∨ header.getD 9 0 ≠ 0 ∨ (header.drop 10).take 2 ≠ [0, 0])
    "unsupported RYU-SL01 header (written by a newer Ryu?)"

/-- How a log scan ended. -/
inductive Tail where
  | clean
  | short
  | finalFailed
deriving DecidableEq

/-- `Scan`. -/
structure Scan where
  records : List Bytes
  committedEnd : ℕ
  tail : Tail
deriving DecidableEq

def Scan.tornTail (scan : Scan) : Bool := scan.tail ≠ .clean

/-- `OpenedLog`. -/
structure OpenedLog where
  header : Bytes
  key : Bytes
  retired : Bool
  scan : Scan

/-- What a scan finds at a position: its end, or a record in a frame of some length. -/
inductive Found where
  | ended (tail : Tail)
  | record (plain : Bytes) (frameLen : ℕ)

section Scanning

variable (crates : Crates) (header key : Bytes)

/-- One round of the loop of `scan_with`, on the bytes from its position on. -/
def findRecord (index : ℕ) (rest : Bytes) : Except String Found :=
  if rest = [] then .ok (.ended .clean)
  else if rest.length < 4 then .ok (.ended .short)
  else
    let bodyLen := ofBigEndian (rest.take 4)
    let after := rest.drop 4
    if bodyLen < NONCE_LEN + TAG_LEN ∨ MAX_RECORD_BODY < bodyLen then
      -- A crash while the file was being extended leaves zeros.
      if rest.all (· = 0) then .ok (.ended .short)
      else .error ("sealed log record " ++ toString index ++ " has an invalid length")
    else if after.length < bodyLen then .ok (.ended .short)
    else
      let body := after.take bodyLen
      match crates.decrypt key (body.take NONCE_LEN) (body.drop NONCE_LEN) (recordAad header index) with
      | some plain => .ok (.record plain (4 + bodyLen))
      | none =>
        if after.length = bodyLen then .ok (.ended .finalFailed)
        else .error ("sealed log record " ++ toString index ++ " does not open and is followed by more data")

/-- The loop of `scan_with`, which every record moves on. -/
def scanFrom (bytes : Bytes) (keepRecords : Bool) : ℕ → ℕ → ℕ → List Bytes → Except String Scan
  | 0, _, _, _ => .error "no progress"
  | fuel + 1, position, index, records => do
    match ← findRecord crates header key index (bytes.drop position) with
    | .ended tail => return ⟨records, position, tail⟩
    | .record plain frameLen =>
      scanFrom bytes keepRecords fuel (position + frameLen) (index + 1)
        (if keepRecords then records ++ [plain] else records)

/-- `scan_with`. -/
def scanWith (bytes : Bytes) (keepRecords : Bool) : Except String Scan :=
  scanFrom crates header key bytes keepRecords (bytes.length + 1) SEALED_LOG_HEADER_LEN 0 []

end Scanning

/-- The loop of `open_log`. -/
def tryKeys (crates : Crates) (bytes header aad : Bytes) (keepRecords : Bool) :
    Option String → List (ContentKey × Bool) → Except String OpenedLog
  | firstError, [] => .error (firstError.getD "sealed log does not open (another key, store or record)")
  | firstError, (candidate, retired) :: candidates =>
    let key := logKey crates candidate.key (header.drop 12) aad
    match scanWith crates header key bytes keepRecords with
    | .ok scan =>
      -- A first record that does not open says that the key is wrong, not that the log is torn.
      if scan.tail = .finalFailed ∧ scan.committedEnd = SEALED_LOG_HEADER_LEN then
        tryKeys crates bytes header aad keepRecords firstError candidates
      else .ok ⟨header, key, retired, scan⟩
    | .error error => tryKeys crates bytes header aad keepRecords (firstError.or (some error)) candidates

/-- `RecoveredLog`. -/
structure RecoveredLog where
  records : List Bytes
  tornTail : Bool
  needsReseal : Bool
deriving DecidableEq

section Reading

variable (crates : Crates) (bytes : Bytes) (cipher : ContentCipher) (context : ContentContext)

/-- `open_log`. -/
def openLog (keepRecords : Bool) : Except String OpenedLog := do
  bailIf (bytes.length < SEALED_LOG_HEADER_LEN) "sealed log is shorter than its header"
  let header := bytes.take SEALED_LOG_HEADER_LEN
  parseHeader header
  tryKeys crates bytes header (context.associatedData cipher.store) keepRecords none cipher.candidateKeys

/-- `read_log_bytes`. -/
def readLogBytes : Except String (List Bytes) := do
  let opened ← openLog crates bytes cipher context true
  bailIf opened.scan.tornTail "sealed log ends in an incomplete record"
  return opened.scan.records

/-- `open_recovering`. -/
def openRecovering : Except String RecoveredLog := do
  let opened ← openLog crates bytes cipher context true
  return ⟨opened.scan.records, opened.scan.tornTail, opened.retired⟩

/-- `compact_to_sealed_file`, with the file it publishes in the place of its length. -/
def compactToSealedFile (fileContext : ContentContext) (salt : Salt) : Except String FinishedFile := do
  let records ← readLogBytes crates bytes cipher context
  writeFile crates cipher fileContext DEFAULT_CHUNK_LOG2 salt records

end Reading

/-- An open file: its content, and where the next write goes. -/
structure LogFile where
  bytes : Bytes
  position : ℕ

/-- A write at the position, past the end of the file over a gap of zeros. -/
def LogFile.write (file : LogFile) (data : Bytes) : LogFile where
  bytes := file.bytes.take file.position ++ List.replicate (file.position - file.bytes.length) 0 ++ data ++
    file.bytes.drop (file.position + data.length)
  position := file.position + data.length

/-- `SealedLogWriter`. -/
structure SealedLogWriter where
  file : LogFile
  header : Bytes
  key : Bytes
  nextIndex : ℕ

/-- The header that `create_with_salt` writes. -/
def logHeader (salt : Salt) : Bytes := SEALED_LOG_MAGIC ++ [LOG_VERSION, 0, 0, 0] ++ salt

/-- The loop of `count_records`, which every frame moves on. -/
def countFrom (bytes : Bytes) : ℕ → ℕ → ℕ → ℕ
  | 0, _, count => count
  | fuel + 1, position, count =>
    if position + 4 ≤ bytes.length then
      countFrom bytes fuel (position + (4 + ofBigEndian ((bytes.drop position).take 4))) (count + 1)
    else count

/-- `count_records`. -/
def countRecords (bytes : Bytes) : ℕ := countFrom bytes bytes.length SEALED_LOG_HEADER_LEN 0

/-- The frame of a record: its length, its nonce and its ciphertext. -/
def frame (crates : Crates) (header key : Bytes) (index : ℕ) (record : Bytes) (nonce : Nonce) : Bytes :=
  let ciphertext := crates.encrypt key nonce record (recordAad header index)
  bigEndian 4 (NONCE_LEN + ciphertext.length) ++ nonce ++ ciphertext

namespace SealedLogWriter

/-- `SealedLogWriter::create_with_salt`. -/
def create (crates : Crates) (cipher : ContentCipher) (context : ContentContext) (salt : Salt) : SealedLogWriter where
  file := ⟨logHeader salt, (logHeader salt).length⟩
  header := logHeader salt
  key := logKey crates cipher.current.key salt (context.associatedData cipher.store)
  nextIndex := 0

/-- `SealedLogWriter::open_append`, of a log that exists. -/
def openAppend (crates : Crates) (bytes : Bytes) (cipher : ContentCipher) (context : ContentContext) :
    Except String SealedLogWriter := do
  let opened ← openLog crates bytes cipher context false
  bailIf opened.retired "sealed log was written under a retired key; compact it before appending"
  let committed := bytes.take opened.scan.committedEnd
  return {
    file := ⟨if opened.scan.tornTail then committed else bytes, opened.scan.committedEnd⟩
    header := opened.header
    key := opened.key
    nextIndex := countRecords committed }

/-- `SealedLogWriter::append_with_nonce`, whose write fails after some bytes, but not all, if there is a fault. -/
def append (crates : Crates) (record : Bytes) (nonce : Nonce) (fault : Option ℕ) : EStateM String SealedLogWriter ℕ :=
  fun writer =>
    if MAX_RECORD_BODY < record.length + NONCE_LEN + TAG_LEN then
      .error "sealed log records are limited to 16 MiB" writer
    else
      let frame := frame crates writer.header writer.key writer.nextIndex record nonce
      match fault with
      | none => .ok writer.nextIndex { writer with file := writer.file.write frame, nextIndex := writer.nextIndex + 1 }
      | some written =>
        let partial_ := frame.take (min written (frame.length - 1))
        .error "appending a sealed log record" { writer with file := writer.file.write partial_ }

end SealedLogWriter

/-- A log on its way: it has a writer, or it is only a file. -/
inductive Log where
  | writing (writer : SealedLogWriter)
  | closed (bytes : Bytes)

def Log.bytes : Log → Bytes
  | .writing writer => writer.file.bytes
  | .closed bytes => bytes

/-- A crash leaves the header and any number of the bytes after it. -/
inductive LogEvent where
  | append (record : Bytes) (nonce : Nonce)
  | crash (room : ℕ)
  | reopen

namespace Log

variable (crates : Crates) (cipher : ContentCipher) (context : ContentContext)

/-- What an event makes of a log. -/
def step? : Log → LogEvent → Option Log
  | .writing writer, .append record nonce =>
    match SealedLogWriter.append crates record nonce none writer with
    | .ok _ next => some (.writing next)
    | .error _ next => some (.writing next)
  | .closed _, .append _ _ => none
  | log, .crash room => some (.closed (log.bytes.take (SEALED_LOG_HEADER_LEN + room)))
  | log, .reopen =>
    match SealedLogWriter.openAppend crates log.bytes cipher context with
    | .ok writer => some (.writing writer)
    | .error _ => some (.closed log.bytes)

/-- The runs of a log from its creation on. -/
def machine : Machine Log LogEvent where
  Initial log := ∃ salt, log = .writing (.create crates cipher context salt)
  step? := step? crates cipher context

end Log

end RyuRooms.Crypto
