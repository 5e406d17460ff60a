import RyuRooms.Crypto.ChunkReader
import RyuRooms.Model.SealedLog

/-! # A sealed log keeps the records whose frames are whole

Whatever a crash cuts off, a log is its header, the frames of some records and a torn frame. A scan finds
those records and stops at the torn frame, so every reader and the next writer agree on where the log ends.
-/

namespace RyuRooms.Crypto

open Foundation

/-- A record that a writer accepts. -/
def Accepted (record : Bytes) : Prop := record.length + NONCE_LEN + TAG_LEN ≤ MAX_RECORD_BODY

instance : DecidablePred Accepted := fun _ => Nat.decLe _ _

/-- The frames of records from an index on. -/
def framesFrom (crates : Crates) (header key : Bytes) : ℕ → List (Bytes × Nonce) → List Bytes
  | _, [] => []
  | index, (record, nonce) :: written =>
    frame crates header key index record nonce :: framesFrom crates header key (index + 1) written

/-- A frame of a record that a writer accepts. -/
def IsFrame (crates : Crates) (header key block : Bytes) : Prop :=
  ∃ index record nonce, Accepted record ∧ block = frame crates header key index record nonce

section Frames

variable {crates : Crates} {header key : Bytes}

theorem framesFrom_append (index : ℕ) (written more : List (Bytes × Nonce)) :
    framesFrom crates header key index (written ++ more) =
      framesFrom crates header key index written ++ framesFrom crates header key (index + written.length) more := by
  induction written generalizing index with
  | nil => rfl
  | cons entry written ih =>
    rw [List.cons_append, framesFrom, framesFrom, ih, List.length_cons, List.cons_append]
    congr 3
    omega

theorem take_framesFrom (index count : ℕ) (written : List (Bytes × Nonce)) :
    (framesFrom crates header key index written).take count = framesFrom crates header key index (written.take count) := by
  induction written generalizing index count with
  | nil => simp [framesFrom]
  | cons entry written ih =>
    cases count with
    | zero => rfl
    | succ count => rw [framesFrom, List.take_succ_cons, List.take_succ_cons, framesFrom, ih]

theorem length_frame (tagged : crates.Tagged) (index : ℕ) (record : Bytes) (nonce : Nonce) :
    (frame crates header key index record nonce).length = record.length + 32 := by
  rw [frame, List.length_append, List.length_append, length_bigEndian, nonce.2, tagged, TAG_LEN]
  omega

theorem lengths_framesFrom (tagged : crates.Tagged) (index : ℕ) (written : List (Bytes × Nonce)) :
    (framesFrom crates header key index written).map List.length = written.map (·.1.length + 32) := by
  induction written generalizing index with
  | nil => rfl
  | cons entry written ih => rw [framesFrom, List.map_cons, List.map_cons, ih, length_frame tagged]

theorem isFrame_of_mem {index : ℕ} {written : List (Bytes × Nonce)} (accepted : ∀ entry ∈ written, Accepted entry.1) :
    ∀ block ∈ framesFrom crates header key index written, IsFrame crates header key block := by
  induction written generalizing index with
  | nil => intro block member; cases member
  | cons entry written ih =>
    intro block member
    rcases List.mem_cons.mp member with rfl | member
    · exact ⟨index, entry.1, entry.2, accepted _ List.mem_cons_self, rfl⟩
    · exact ih (fun other known => accepted other (List.mem_cons_of_mem _ known)) block member

/-- The length that a frame starts with. -/
theorem length_of_frame (tagged : crates.Tagged) {record : Bytes} (accepted : Accepted record) (index : ℕ) (nonce : Nonce) :
    ofBigEndian ((frame crates header key index record nonce).take 4) = record.length + NONCE_LEN + TAG_LEN := by
  have fits : NONCE_LEN + (record.length + TAG_LEN) < 256 ^ 4 := by
    rw [Accepted, MAX_RECORD_BODY] at accepted
    omega
  rw [frame, tagged, List.append_assoc, List.take_left' (length_bigEndian _ _), ofBigEndian_bigEndian,
    Nat.mod_eq_of_lt fits]
  omega

/-- What a scan with any key finds in the frame of a record. -/
theorem findRecord_frame_under (tagged : crates.Tagged) {sealedUnder record : Bytes} (accepted : Accepted record)
    (index : ℕ) (nonce : Nonce) (rest : Bytes) :
    findRecord crates header key index (frame crates header sealedUnder index record nonce ++ rest) =
      (crates.decrypt key nonce (crates.encrypt sealedUnder nonce record (recordAad header index))
          (recordAad header index)).elim
        (if rest = [] then .ok (.ended .finalFailed)
          else .error ("sealed log record " ++ toString index ++ " does not open and is followed by more data"))
        fun plain => .ok (.record plain (frame crates header sealedUnder index record nonce).length) := by
  have size := @length_frame crates header sealedUnder tagged index record nonce
  have bodyLen := @length_of_frame crates header sealedUnder tagged record accepted index nonce
  have parts : (frame crates header sealedUnder index record nonce).drop 4 =
      nonce ++ crates.encrypt sealedUnder nonce record (recordAad header index) := by
    rw [frame, List.append_assoc, List.drop_left' (length_bigEndian _ _)]
  have body : (nonce.1 ++ crates.encrypt sealedUnder nonce record (recordAad header index)).length =
      record.length + NONCE_LEN + TAG_LEN := by
    rw [List.length_append, nonce.2, tagged, NONCE_LEN]
    omega
  have head : (frame crates header sealedUnder index record nonce ++ rest).take 4 =
      (frame crates header sealedUnder index record nonce).take 4 := List.take_append_of_le_length (by omega)
  have after : (frame crates header sealedUnder index record nonce ++ rest).drop 4 =
      (nonce ++ crates.encrypt sealedUnder nonce record (recordAad header index)) ++ rest := by
    rw [List.drop_append_of_le_length (by omega), parts]
  have long : ¬ (frame crates header sealedUnder index record nonce ++ rest).length < 4 := by
    rw [List.length_append]
    omega
  have first : (nonce.1 ++ crates.encrypt sealedUnder nonce record (recordAad header index)).take NONCE_LEN = nonce :=
    List.take_left' nonce.2
  have second : (nonce.1 ++ crates.encrypt sealedUnder nonce record (recordAad header index)).drop NONCE_LEN =
      crates.encrypt sealedUnder nonce record (recordAad header index) := List.drop_left' nonce.2
  have last : ((nonce.1 ++ crates.encrypt sealedUnder nonce record (recordAad header index)) ++ rest).length =
      record.length + NONCE_LEN + TAG_LEN ↔ rest = [] := by
    rw [List.length_append, body, ← List.length_eq_zero_iff]
    omega
  rw [findRecord, if_neg (fun empty => long (by rw [empty]; decide)), if_neg long, head, after, bodyLen]
  simp only
  rw [if_neg (by rw [Accepted] at accepted; omega), if_neg (by rw [List.length_append, body]; omega),
    ← body, List.take_left, first, second, body, size]
  cases crates.decrypt key nonce (crates.encrypt sealedUnder nonce record (recordAad header index))
      (recordAad header index) with
  | none => simp only [last, Option.elim_none]
  | some plain =>
    rw [NONCE_LEN, TAG_LEN]
    exact congrArg (fun frameLen => Except.ok (Found.record plain frameLen)) (by omega)

/-- How a scan ends at a torn frame. -/
def tailOf (part : Bytes) : Tail := if part = [] then .clean else .short

theorem findRecord_torn (tagged : crates.Tagged) {part : Bytes} (torn : Torn (IsFrame crates header key) part)
    (index : ℕ) : findRecord crates header key index part = .ok (.ended (tailOf part)) := by
  obtain ⟨block, ⟨at_, record, nonce, accepted, rfl⟩, kept, shorter, rfl⟩ := torn
  have size := @length_frame crates header key tagged at_ record nonce
  have bodyLen := @length_of_frame crates header key tagged record accepted at_ nonce
  have short : ((frame crates header key at_ record nonce).take kept).length = kept := List.length_take_of_le shorter.le
  rw [findRecord, tailOf]
  split
  · rfl
  · next more =>
    split
    · rfl
    · next long =>
      rw [short] at long
      have inside : ((frame crates header key at_ record nonce).take kept |>.drop 4).length <
          record.length + NONCE_LEN + TAG_LEN := by
        rw [List.length_drop, short, NONCE_LEN, TAG_LEN]
        omega
      rw [List.take_take, Nat.min_eq_left (Nat.le_of_not_lt long), bodyLen]
      simp only
      rw [if_neg (by rw [Accepted] at accepted; omega), if_pos inside]

end Frames

section Scanning

variable {crates : Crates} {header key bytes part : Bytes}

/-- A scan passes the frames of records that open. -/
theorem scanFrom_skip (tagged : crates.Tagged) {rest : Bytes} (keepRecords : Bool) {written : List (Bytes × Nonce)}
    (accepted : ∀ entry ∈ written, Accepted entry.1) {position index : ℕ}
    (opened : ∀ offset entry, written[offset]? = some entry → crates.decrypt key entry.2
      (crates.encrypt key entry.2 entry.1 (recordAad header (index + offset))) (recordAad header (index + offset)) =
        some entry.1)
    (there : bytes.drop position = (framesFrom crates header key index written).flatten ++ rest) (fuel : ℕ)
    (records : List Bytes) :
    scanFrom crates header key bytes keepRecords (written.length + fuel) position index records =
      scanFrom crates header key bytes keepRecords fuel
        (position + (framesFrom crates header key index written).flatten.length) (index + written.length)
        (if keepRecords then records ++ written.map Prod.fst else records) := by
  induction written generalizing position index records with
  | nil =>
    have same : (if keepRecords then records ++ [] else records) = records := by simp
    rw [List.map_nil, same, List.length_nil, Nat.zero_add]
    rfl
  | cons entry written ih =>
    obtain ⟨record, nonce⟩ := entry
    rw [framesFrom, List.flatten_cons, List.append_assoc] at there
    have next : bytes.drop (position + (frame crates header key index record nonce).length) =
        (framesFrom crates header key (index + 1) written).flatten ++ rest := by
      rw [← List.drop_drop, there, List.drop_left]
    have onward := ih (fun other known => accepted other (List.mem_cons_of_mem _ known))
      (fun offset other known => by
        have later := opened (offset + 1) other known
        rwa [← Nat.add_assoc, Nat.add_right_comm] at later) next
      (if keepRecords then records ++ [record] else records)
    have first : crates.decrypt key nonce (crates.encrypt key nonce record (recordAad header index))
        (recordAad header index) = some record := opened 0 (record, nonce) rfl
    have fits : Accepted record := accepted _ List.mem_cons_self
    rw [List.length_cons, Nat.add_right_comm, scanFrom, there, findRecord_frame_under tagged fits, first]
    refine onward.trans ?_
    rw [framesFrom, List.flatten_cons, List.length_append, ← Nat.add_assoc, Nat.add_assoc index, Nat.add_comm 1]
    congr 1
    cases keepRecords <;> simp

/-- A scan finds the records in order and ends at the torn frame. -/
theorem scanFrom_frames (opens : crates.Opens) (torn : Torn (IsFrame crates header key) part) (keepRecords : Bool)
    {written : List (Bytes × Nonce)} (accepted : ∀ entry ∈ written, Accepted entry.1) {fuel position index : ℕ}
    (there : bytes.drop position = (framesFrom crates header key index written).flatten ++ part)
    (enough : written.length < fuel) (records : List Bytes) :
    scanFrom crates header key bytes keepRecords fuel position index records =
      .ok ⟨if keepRecords then records ++ written.map Prod.fst else records,
        position + (framesFrom crates header key index written).flatten.length, tailOf part⟩ := by
  obtain ⟨fuel, rfl⟩ := Nat.exists_eq_add_of_lt enough
  rw [Nat.add_assoc, scanFrom_skip opens.length keepRecords accepted (fun _ _ _ => opens.opens _ _ _ _) there, scanFrom,
    ← List.drop_drop, there, List.drop_left, findRecord_torn opens.length torn]
  rfl

theorem countFrom_frames (tagged : crates.Tagged) {written : List (Bytes × Nonce)}
    (accepted : ∀ entry ∈ written, Accepted entry.1) {fuel position index : ℕ}
    (there : bytes.drop position = (framesFrom crates header key index written).flatten)
    (enough : written.length ≤ fuel) (count : ℕ) : countFrom bytes fuel position count = count + written.length := by
  induction written generalizing fuel position index count with
  | nil =>
    have done : ¬ position + 4 ≤ bytes.length := by
      have nothing := congrArg List.length there
      rw [List.length_drop, framesFrom, List.flatten_nil, List.length_nil] at nothing
      omega
    cases fuel with
    | zero => rfl
    | succ fuel => rw [countFrom, if_neg done, List.length_nil, Nat.add_zero]
  | cons entry written ih =>
    obtain ⟨fuel, rfl⟩ := Nat.exists_eq_succ_of_ne_zero (Nat.ne_of_gt ((Nat.succ_pos _).trans_le enough))
    obtain ⟨record, nonce⟩ := entry
    have size := @length_frame crates header key tagged index record nonce
    rw [framesFrom, List.flatten_cons] at there
    have room := congrArg List.length there
    rw [List.length_drop, List.length_append, size] at room
    have next : bytes.drop (position + (frame crates header key index record nonce).length) =
        (framesFrom crates header key (index + 1) written).flatten := by
      rw [← List.drop_drop, there, List.drop_left]
    have fits : Accepted record := accepted _ List.mem_cons_self
    have bodyLen : 4 + ofBigEndian ((bytes.drop position).take 4) = (frame crates header key index record nonce).length := by
      rw [there, List.take_append_of_le_length (by omega), length_of_frame tagged fits index nonce, size, NONCE_LEN,
        TAG_LEN]
      omega
    rw [countFrom, if_pos (by omega), bodyLen,
      @ih (fun other known => accepted other (List.mem_cons_of_mem _ known)) fuel _ _ next (Nat.le_of_succ_le_succ enough),
      List.length_cons]
    omega

end Scanning

section Stored

variable {crates : Crates} {cipher : ContentCipher} {context : ContentContext} {salt : Salt}
  {written : List (Bytes × Nonce)} {part bytes : Bytes}

/-- The key of a log under the current key of a cipher. -/
def logKeyFor (crates : Crates) (cipher : ContentCipher) (context : ContentContext) (salt : Salt) : Bytes :=
  logKey crates cipher.current.key salt (context.associatedData cipher.store)

/-- The file of a log that holds these records and ends in a torn frame. -/
structure Stored (crates : Crates) (cipher : ContentCipher) (context : ContentContext) (salt : Salt)
    (written : List (Bytes × Nonce)) (part bytes : Bytes) : Prop where
  bytes_eq : bytes =
    logHeader salt ++ ((framesFrom crates (logHeader salt) (logKeyFor crates cipher context salt) 0 written).flatten ++ part)
  accepted : ∀ entry ∈ written, Accepted entry.1
  torn : Torn (IsFrame crates (logHeader salt) (logKeyFor crates cipher context salt)) part

@[simp] theorem length_logHeader (salt : Salt) : (logHeader salt).length = SEALED_LOG_HEADER_LEN := by
  simp [logHeader, SEALED_LOG_MAGIC, SEALED_LOG_HEADER_LEN, salt.2]

theorem parseHeader_logHeader (salt : Salt) : parseHeader (logHeader salt) = .ok () := by
  refine bind_eq_ok_iff.mpr ⟨(), bailIf_eq_ok_iff.mpr (not_not_intro rfl), bailIf_eq_ok_iff.mpr ?_⟩
  rintro (version | flags | reserved)
  · exact version rfl
  · exact flags rfl
  · exact reserved rfl

/-- Nothing is torn in a log that ends with its last frame. -/
theorem torn_nil (tagged : crates.Tagged) (header key : Bytes) : Torn (IsFrame crates header key) [] := by
  have nonempty := @length_frame crates header key tagged 0 [] ⟨List.replicate 12 0, rfl⟩
  exact .nil ⟨0, [], _, by rw [Accepted]; decide, rfl⟩ fun empty => by rw [empty] at nonempty; cases nonempty

theorem length_le_framesFrom (tagged : crates.Tagged) {header key : Bytes} (index : ℕ) (written : List (Bytes × Nonce)) :
    written.length ≤ (framesFrom crates header key index written).flatten.length := by
  induction written generalizing index with
  | nil => exact Nat.zero_le _
  | cons entry written ih =>
    have rest := ih (index + 1)
    rw [framesFrom, List.flatten_cons, List.length_append, length_frame tagged, List.length_cons]
    omega

namespace Stored

/-- The offset past the last frame. -/
def committedEnd (crates : Crates) (cipher : ContentCipher) (context : ContentContext) (salt : Salt)
    (written : List (Bytes × Nonce)) : ℕ :=
  SEALED_LOG_HEADER_LEN + (framesFrom crates (logHeader salt) (logKeyFor crates cipher context salt) 0 written).flatten.length

section

variable (stored : Stored crates cipher context salt written part bytes)

include stored

theorem take_header : bytes.take SEALED_LOG_HEADER_LEN = logHeader salt := by
  rw [stored.bytes_eq, List.take_left' (length_logHeader salt)]

theorem drop_header : bytes.drop SEALED_LOG_HEADER_LEN =
    (framesFrom crates (logHeader salt) (logKeyFor crates cipher context salt) 0 written).flatten ++ part := by
  rw [stored.bytes_eq, List.drop_left' (length_logHeader salt)]

theorem length_bytes : bytes.length = committedEnd crates cipher context salt written + part.length := by
  rw [stored.bytes_eq, List.length_append, List.length_append, length_logHeader, committedEnd, Nat.add_assoc]

theorem take_committedEnd : bytes.take (committedEnd crates cipher context salt written) =
    logHeader salt ++ (framesFrom crates (logHeader salt) (logKeyFor crates cipher context salt) 0 written).flatten := by
  rw [stored.bytes_eq, ← List.append_assoc, List.take_left' (by rw [List.length_append, length_logHeader, committedEnd])]

/-- A log opens under the key it was written with, and its scan finds its records. -/
theorem openLog (opens : crates.Opens) (keepRecords : Bool) : openLog crates bytes cipher context keepRecords =
    .ok ⟨logHeader salt, logKeyFor crates cipher context salt, false,
      ⟨if keepRecords then written.map Prod.fst else [], committedEnd crates cipher context salt written, tailOf part⟩⟩ := by
  have length := stored.length_bytes
  have many := @length_le_framesFrom crates opens.length (logHeader salt) (logKeyFor crates cipher context salt) 0 written
  rw [committedEnd] at length
  have scanned := scanFrom_frames opens stored.torn keepRecords stored.accepted stored.drop_header
    (show written.length < bytes.length + 1 by omega) []
  rw [List.nil_append] at scanned
  have ended : tailOf part ≠ .finalFailed := by
    rw [tailOf]
    split <;> decide
  refine bind_eq_ok_iff.mpr ⟨(), bailIf_eq_ok_iff.mpr (by omega), ?_⟩
  rw [stored.take_header]
  refine bind_eq_ok_iff.mpr ⟨(), parseHeader_logHeader salt, ?_⟩
  have dropped : (logHeader salt).drop 12 = salt.1 := rfl
  have first : scanWith crates (logHeader salt) (logKey crates cipher.current.key salt.1 (context.associatedData cipher.store))
      bytes keepRecords = _ := scanned
  rw [ContentCipher.candidateKeys, tryKeys, dropped, first]
  exact if_neg fun wrong => ended wrong.1

theorem openRecovering (opens : crates.Opens) : openRecovering crates bytes cipher context =
    .ok ⟨written.map Prod.fst, part ≠ [], false⟩ := by
  refine bind_eq_ok_iff.mpr ⟨_, stored.openLog opens true, ?_⟩
  have torn : decide (tailOf part ≠ .clean) = decide (part ≠ []) := by
    by_cases empty : part = [] <;> simp [tailOf, empty]
  simp only [Scan.tornTail, torn, if_true]
  rfl

/-- A strict reader reads a log that ends with its last frame. -/
theorem readLogBytes (opens : crates.Opens) (whole : part = []) :
    readLogBytes crates bytes cipher context = .ok (written.map Prod.fst) := by
  refine bind_eq_ok_iff.mpr ⟨_, stored.openLog opens true, bind_eq_ok_iff.mpr ⟨(), bailIf_eq_ok_iff.mpr ?_, rfl⟩⟩
  simp [Scan.tornTail, tailOf, whole]

/-- What a crash leaves of a log. -/
theorem crash (tagged : crates.Tagged) (room : ℕ) : ∃ rest, Stored crates cipher context salt
    (written.take (wholeWithin (written.map (·.1.length + 32)) room)) rest (bytes.take (SEALED_LOG_HEADER_LEN + room)) := by
  obtain ⟨rest, torn, cut⟩ := take_flatten_append (isFrame_of_mem stored.accepted) stored.torn room
  rw [lengths_framesFrom tagged, take_framesFrom] at cut
  refine ⟨rest, ?_, fun entry member => stored.accepted entry (List.mem_of_mem_take member), torn⟩
  rw [stored.bytes_eq, List.take_append, List.take_of_length_le (by rw [length_logHeader]; omega), length_logHeader,
    Nat.add_sub_cancel_left, cut]

end

end Stored

/-- A writer at the end of a log that holds these records and ends in a torn frame. -/
structure SealedLogWriter.At (crates : Crates) (cipher : ContentCipher) (context : ContentContext) (salt : Salt)
    (written : List (Bytes × Nonce)) (part : Bytes) (writer : SealedLogWriter) : Prop where
  stored : Stored crates cipher context salt written part writer.file.bytes
  position : writer.file.position = writer.file.bytes.length
  header : writer.header = logHeader salt
  key : writer.key = logKeyFor crates cipher context salt
  nextIndex : writer.nextIndex = written.length

namespace SealedLogWriter

theorem create_at (tagged : crates.Tagged) : At crates cipher context salt [] [] (create crates cipher context salt) where
  stored :=
    { bytes_eq := by rw [framesFrom, List.flatten_nil, List.append_nil, List.append_nil]; rfl
      accepted := fun entry member => by cases member
      torn := torn_nil tagged _ _ }
  position := rfl
  header := rfl
  key := rfl
  nextIndex := rfl

/-- A writer opened on a log continues after its last record. -/
theorem openAppend_stored (opens : crates.Opens) (stored : Stored crates cipher context salt written part bytes) :
    ∃ writer, openAppend crates bytes cipher context = .ok writer ∧ At crates cipher context salt written [] writer := by
  have committed := stored.take_committedEnd
  have length := stored.length_bytes
  have kept : (if tailOf part ≠ .clean then bytes.take (Stored.committedEnd crates cipher context salt written) else bytes) =
      bytes.take (Stored.committedEnd crates cipher context salt written) := by
    split
    · rfl
    · next clean =>
      have whole : part = [] := by
        by_contra more
        exact clean (by rw [tailOf, if_neg more]; decide)
      rw [whole, List.length_nil, Nat.add_zero] at length
      rw [← length, List.take_length]
  have whole : Stored crates cipher context salt written []
      (bytes.take (Stored.committedEnd crates cipher context salt written)) :=
    ⟨by rw [committed, List.append_nil], stored.accepted, torn_nil opens.length _ _⟩
  have sized := whole.length_bytes
  have many := @length_le_framesFrom crates opens.length (logHeader salt) (logKeyFor crates cipher context salt) 0 written
  have enough : written.length ≤ (bytes.take (Stored.committedEnd crates cipher context salt written)).length := by
    rw [sized, Stored.committedEnd]
    omega
  have count := countFrom_frames opens.length stored.accepted (whole.drop_header.trans (List.append_nil _)) enough 0
  refine ⟨_, bind_eq_ok_iff.mpr ⟨_, stored.openLog opens false,
    bind_eq_ok_iff.mpr ⟨(), bailIf_eq_ok_iff.mpr (fun retired => by cases retired), rfl⟩⟩, ?_⟩
  simp only [Scan.tornTail, decide_eq_true_eq, kept]
  exact ⟨whole, sized.symm, rfl, rfl, count.trans (Nat.zero_add _)⟩

theorem write_end (file : LogFile) (data : Bytes) (position : file.position = file.bytes.length) :
    file.write data = ⟨file.bytes ++ data, file.bytes.length + data.length⟩ := by
  rw [LogFile.write, position, List.take_length, Nat.sub_self, List.replicate_zero, List.append_nil,
    List.drop_eq_nil_of_le (Nat.le_add_right _ _), List.append_nil]

variable {writer : SealedLogWriter} {record : Bytes} {nonce : Nonce}

/-- A record that is too long changes nothing. -/
theorem append_refused (refused : ¬ Accepted record) (fault : Option ℕ) :
    writer.append crates record nonce fault = .error "sealed log records are limited to 16 MiB" writer := by
  rw [append, if_pos (Nat.lt_of_not_le refused)]

/-- The frame that a writer writes next. -/
def nextFrame (crates : Crates) (writer : SealedLogWriter) (record : Bytes) (nonce : Nonce) : Bytes :=
  frame crates writer.header writer.key writer.nextIndex record nonce

theorem append_written (accepted : Accepted record) : writer.append crates record nonce none =
    .ok writer.nextIndex { writer with
      file := writer.file.write (writer.nextFrame crates record nonce)
      nextIndex := writer.nextIndex + 1 } := by
  rw [append, if_neg (Nat.not_lt_of_le accepted)]
  rfl

theorem append_failed (accepted : Accepted record) (done : ℕ) : writer.append crates record nonce (some done) =
    .error "appending a sealed log record" { writer with
      file := writer.file.write ((writer.nextFrame crates record nonce).take
        (min done ((writer.nextFrame crates record nonce).length - 1))) } := by
  rw [append, if_neg (Nat.not_lt_of_le accepted)]
  rfl

/-- A record that is written is the last record of the log. -/
theorem At.append (tagged : crates.Tagged) (there : At crates cipher context salt written [] writer)
    (accepted : Accepted record) : ∃ next, writer.append crates record nonce none = .ok written.length next ∧
      At crates cipher context salt (written ++ [(record, nonce)]) [] next := by
  have bytes_eq := there.stored.bytes_eq
  rw [List.append_nil] at bytes_eq
  rw [append_written accepted, nextFrame, there.header, there.key, there.nextIndex, write_end _ _ there.position]
  refine ⟨_, rfl, ⟨?_, fun entry member => ?_, torn_nil tagged _ _⟩, ?_, rfl, rfl, ?_⟩
  · simp only [bytes_eq, framesFrom_append, framesFrom, List.flatten_append, List.flatten_singleton, List.append_nil,
      List.append_assoc, Nat.zero_add]
  · rcases List.mem_append.mp member with old | new
    · exact there.stored.accepted entry old
    · rw [List.mem_singleton.mp new]
      exact accepted
  · simp only [List.length_append]
  · rw [List.length_append, List.length_singleton]

end SealedLogWriter

end Stored

end RyuRooms.Crypto
