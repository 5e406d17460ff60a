import RyuRooms.Crypto.LogKeys

/-! # Damage in the middle of a log

A record that was altered does not open, and a scan that stops there reports corruption unless the frame reaches
the end of the file. Where the frame ends is told by a length field that nothing authenticates: when the altered
field names an end at or past that of the file, the intact records that follow are dropped as a torn tail.
-/

namespace RyuRooms.Crypto

open Foundation

/-- A file of the same length, altered between two offsets. -/
structure Damages (start stop : ℕ) (original damaged : Bytes) : Prop where
  length : damaged.length = original.length
  before : damaged.take start = original.take start
  after : damaged.drop stop = original.drop stop
  differs : damaged ≠ original

/-- The record at an offset of a file looks like the torn end of a log: its length field is one that a writer
writes, and its frame reaches past the end of the file or, after another record, exactly to it. -/
def LooksTorn (index start : ℕ) (bytes : Bytes) : Prop :=
  let bodyLen := ofBigEndian ((bytes.drop start).take 4)
  let left := ((bytes.drop start).drop 4).length
  (NONCE_LEN + TAG_LEN ≤ bodyLen ∧ bodyLen ≤ MAX_RECORD_BODY) ∧ (left < bodyLen ∨ left = bodyLen ∧ 0 < index)

section Scanning

variable {crates : Crates} {header key rest : Bytes} {index : ℕ}

/-- What a scan finds in bytes that no record opens in. -/
theorem findRecord_unopened (long : 4 ≤ rest.length) (nonzero : ¬ rest.all (· = 0))
    (unopened : ofBigEndian (rest.take 4) ≤ (rest.drop 4).length →
      crates.decrypt key (((rest.drop 4).take (ofBigEndian (rest.take 4))).take NONCE_LEN)
        (((rest.drop 4).take (ofBigEndian (rest.take 4))).drop NONCE_LEN) (recordAad header index) = none) :
    findRecord crates header key index rest =
      if ofBigEndian (rest.take 4) < NONCE_LEN + TAG_LEN ∨ MAX_RECORD_BODY < ofBigEndian (rest.take 4) then
        .error ("sealed log record " ++ toString index ++ " has an invalid length")
      else if (rest.drop 4).length < ofBigEndian (rest.take 4) then .ok (.ended .short)
      else if (rest.drop 4).length = ofBigEndian (rest.take 4) then .ok (.ended .finalFailed)
      else .error ("sealed log record " ++ toString index ++ " does not open and is followed by more data") := by
  have some : rest ≠ [] := by
    rintro rfl
    cases long
  rw [findRecord, if_neg some, if_neg (Nat.not_lt_of_le long)]
  simp only [if_neg nonzero]
  split
  · rfl
  · split
    · rfl
    · next inside => rw [unopened (Nat.le_of_not_lt inside)]

theorem ofBigEndian_of_zero {bytes : Bytes} (zero : bytes.all (· = 0)) : ofBigEndian bytes = 0 := by
  have same : bytes = List.replicate bytes.length 0 :=
    List.eq_replicate_of_mem fun byte member => of_decide_eq_true (List.all_eq_true.mp zero byte member)
  rw [same, ofBigEndian]
  generalize bytes.length = length
  induction length with
  | zero => rfl
  | succ length ih => exact ih

end Scanning

section Damage

variable {crates : Crates} {cipher : ContentCipher} {context : ContentContext} {salt : Salt}
  {written : List (Bytes × Nonce)} {original damaged : Bytes} {index : ℕ}

/-- What an ideal AEAD promises of a log: its records open, and nothing else opens under its key. -/
structure SealsOnly (crates : Crates) (cipher : ContentCipher) (context : ContentContext) (salt : Salt)
    (written : List (Bytes × Nonce)) : Prop where
  length : crates.Tagged
  opens : ∀ index entry, written[index]? = some entry → crates.decrypt (logKeyFor crates cipher context salt) entry.2
    (crates.encrypt (logKeyFor crates cipher context salt) entry.2 entry.1 (recordAad (logHeader salt) index))
    (recordAad (logHeader salt) index) = some entry.1
  authentic : ∀ nonce ciphertext aad message,
    crates.decrypt (logKeyFor crates cipher context salt) nonce ciphertext aad = some message →
      ∃ index entry, written[index]? = some entry ∧ nonce = entry.2.1 ∧ aad = recordAad (logHeader salt) index ∧
        ciphertext = crates.encrypt (logKeyFor crates cipher context salt) nonce entry.1 aad

/-- The offset at which the record with an index starts. -/
def recordStart (crates : Crates) (cipher : ContentCipher) (context : ContentContext) (salt : Salt)
    (written : List (Bytes × Nonce)) (index : ℕ) : ℕ :=
  Stored.committedEnd crates cipher context salt (written.take index)

/-- A log around one of its records. -/
theorem Stored.split (stored : Stored crates cipher context salt written [] original) {entry : Bytes × Nonce}
    (found : written[index]? = some entry) :
    let key := logKeyFor crates cipher context salt
    let start := recordStart crates cipher context salt written index
    let block := frame crates (logHeader salt) key index entry.1 entry.2
    original.take start = logHeader salt ++ (framesFrom crates (logHeader salt) key 0 (written.take index)).flatten ∧
      original.drop start = block ++ (framesFrom crates (logHeader salt) key (index + 1) (written.drop (index + 1))).flatten ∧
      recordStart crates cipher context salt written (index + 1) = start + block.length := by
  intro key start block
  obtain ⟨inside, same⟩ := List.getElem?_eq_some_iff.mp found
  have parts : written = written.take index ++ entry :: written.drop (index + 1) := by
    rw [← same, ← List.drop_eq_getElem_cons inside, List.take_append_drop]
  have framed : (framesFrom crates (logHeader salt) key 0 written).flatten =
      (framesFrom crates (logHeader salt) key 0 (written.take index)).flatten ++
        (block ++ (framesFrom crates (logHeader salt) key (index + 1) (written.drop (index + 1))).flatten) := by
    conv_lhs => rw [parts]
    rw [framesFrom_append, Nat.zero_add, List.length_take_of_le inside.le, framesFrom, List.flatten_append,
      List.flatten_cons]
  have size : (logHeader salt ++ (framesFrom crates (logHeader salt) key 0 (written.take index)).flatten).length = start := by
    rw [List.length_append, length_logHeader]
    rfl
  rw [stored.bytes_eq, List.append_nil, framed, ← List.append_assoc]
  refine ⟨List.take_left' size, List.drop_left' size, ?_⟩
  have next : written.take (index + 1) = written.take index ++ [entry] := by
    rw [List.take_add_one, found, Option.toList_some]
  rw [recordStart, committedEnd, next, framesFrom_append, Nat.zero_add, List.length_take_of_le inside.le,
    List.flatten_append, List.length_append, framesFrom, framesFrom, List.flatten_singleton, ← Nat.add_assoc]
  rfl

theorem recordAad_inj {header : Bytes} {left right : ℕ} (fitsLeft : left < 2 ^ 64) (fitsRight : right < 2 ^ 64)
    (same : recordAad header left = recordAad header right) : left = right := by
  rw [recordAad, recordAad, List.append_cancel_left_eq] at same
  exact (bigEndian_inj (by omega) (by omega)).mp same

section

variable (sealsOnly : SealsOnly crates cipher context salt written)
  (stored : Stored crates cipher context salt written [] original) (fits : original.length < 2 ^ 64)
  (inside : index + 1 < written.length)
  (damages : Damages (recordStart crates cipher context salt written index)
    (recordStart crates cipher context salt written (index + 1)) original damaged)

include sealsOnly stored inside damages

/-- The record that was altered is followed by bytes other than zeros. -/
theorem damaged_nonzero : ¬ (damaged.drop (recordStart crates cipher context salt written index)).all (· = 0) := by
  intro zero
  obtain ⟨entry, found⟩ : ∃ entry, written[index]? = some entry :=
    ⟨_, List.getElem?_eq_getElem (Nat.lt_of_succ_lt inside)⟩
  obtain ⟨next, after⟩ : ∃ next, written[index + 1]? = some next := ⟨_, List.getElem?_eq_getElem inside⟩
  obtain ⟨-, -, stop⟩ := stored.split found
  obtain ⟨-, follows, -⟩ := stored.split after
  have announced := @length_of_frame crates (logHeader salt) (logKeyFor crates cipher context salt) sealsOnly.length next.1
    (stored.accepted next (List.mem_of_getElem? after)) (index + 1) next.2
  have long := @length_frame crates (logHeader salt) (logKeyFor crates cipher context salt) sealsOnly.length (index + 1)
    next.1 next.2
  rw [← damages.after, stop, ← List.drop_drop] at follows
  have first : (((damaged.drop (recordStart crates cipher context salt written index)).drop
      (frame crates (logHeader salt) (logKeyFor crates cipher context salt) index entry.1 entry.2).length).take 4) =
      (frame crates (logHeader salt) (logKeyFor crates cipher context salt) (index + 1) next.1 next.2).take 4 := by
    rw [follows, List.take_append_of_le_length (by omega)]
  have none : ofBigEndian ((frame crates (logHeader salt) (logKeyFor crates cipher context salt) (index + 1)
      next.1 next.2).take 4) = 0 := by
    rw [← first]
    apply ofBigEndian_of_zero
    rw [List.all_eq_true] at zero ⊢
    exact fun byte member => zero byte (List.mem_of_mem_drop (List.mem_of_mem_take member))
  rw [announced, NONCE_LEN] at none
  omega

/-- The scan of an altered log comes to the record that was altered. -/
theorem scanWith_damaged : damaged.take SEALED_LOG_HEADER_LEN = logHeader salt ∧ ∃ fuel,
    scanWith crates (logHeader salt) (logKeyFor crates cipher context salt) damaged false =
      scanFrom crates (logHeader salt) (logKeyFor crates cipher context salt) damaged false (fuel + 1)
        (recordStart crates cipher context salt written index) index [] := by
  obtain ⟨entry, found⟩ : ∃ entry, written[index]? = some entry :=
    ⟨_, List.getElem?_eq_getElem (Nat.lt_of_succ_lt inside)⟩
  obtain ⟨before, after, -⟩ := stored.split found
  have parts : damaged = logHeader salt ++ ((framesFrom crates (logHeader salt) (logKeyFor crates cipher context salt) 0
      (written.take index)).flatten ++ damaged.drop (recordStart crates cipher context salt written index)) := by
    rw [← List.append_assoc, ← before, ← damages.before, List.take_append_drop]
  have there : damaged.drop SEALED_LOG_HEADER_LEN = (framesFrom crates (logHeader salt)
      (logKeyFor crates cipher context salt) 0 (written.take index)).flatten ++
        damaged.drop (recordStart crates cipher context salt written index) := by
    conv_lhs => rw [parts]
    rw [List.drop_left' (length_logHeader salt)]
  have many := @length_le_framesFrom crates sealsOnly.length (logHeader salt) (logKeyFor crates cipher context salt) 0
    (written.take index)
  have enough : (written.take index).length ≤ damaged.length := by
    rw [parts, List.length_append, List.length_append]
    omega
  refine ⟨by rw [parts, List.take_left' (length_logHeader salt)], damaged.length - (written.take index).length, ?_⟩
  have skipped := scanFrom_skip sealsOnly.length false
    (fun entry member => stored.accepted entry (List.mem_of_mem_take member))
    (fun offset entry known => by
      rw [Nat.zero_add]
      rw [List.getElem?_take] at known
      exact sealsOnly.opens offset entry (Option.ite_none_right_eq_some.mp known).2) there
    (damaged.length - (written.take index).length + 1) []
  rw [← Nat.add_assoc, Nat.add_sub_cancel' enough, Nat.zero_add, List.length_take_of_le (by omega)] at skipped
  rw [scanWith, List.length_take_of_le (by omega), skipped]
  rfl

include fits

/-- The record that was altered does not open. -/
theorem damaged_unopened :
    let rest := damaged.drop (recordStart crates cipher context salt written index)
    ofBigEndian (rest.take 4) ≤ (rest.drop 4).length →
      crates.decrypt (logKeyFor crates cipher context salt) (((rest.drop 4).take (ofBigEndian (rest.take 4))).take NONCE_LEN)
        (((rest.drop 4).take (ofBigEndian (rest.take 4))).drop NONCE_LEN) (recordAad (logHeader salt) index) = none := by
  intro rest announced
  obtain ⟨entry, found⟩ : ∃ entry, written[index]? = some entry :=
    ⟨_, List.getElem?_eq_getElem (Nat.lt_of_succ_lt inside)⟩
  obtain ⟨before, after, stop⟩ := stored.split found
  have many := @length_le_framesFrom crates sealsOnly.length (logHeader salt) (logKeyFor crates cipher context salt) 0 written
  have size := stored.length_bytes
  rw [Stored.committedEnd, List.length_nil] at size
  have room : (frame crates (logHeader salt) (logKeyFor crates cipher context salt) index entry.1 entry.2).length ≤
      rest.length := by
    have length := congrArg List.length after
    rw [List.length_drop, List.length_append] at length
    rw [List.length_drop, damages.length]
    omega
  rw [length_frame sealsOnly.length] at room
  rw [Option.eq_none_iff_forall_ne_some]
  intro message decrypted
  obtain ⟨other, otherEntry, otherFound, nonce, aad, ciphertext⟩ := sealsOnly.authentic _ _ _ _ decrypted
  have otherInside := (List.getElem?_eq_some_iff.mp otherFound).1
  obtain rfl := recordAad_inj (by omega) (by omega) aad
  obtain rfl := Option.some.inj (found.symm.trans otherFound)
  -- what opens is the whole frame of the record, so nothing was altered
  set bodyLen := ofBigEndian (rest.take 4) with isLen
  have body : (rest.drop 4).take bodyLen = entry.2.1 ++
      crates.encrypt (logKeyFor crates cipher context salt) entry.2.1 entry.1 (recordAad (logHeader salt) index) := by
    rw [← List.take_append_drop NONCE_LEN ((rest.drop 4).take bodyLen), ciphertext, nonce]
  have length := congrArg List.length body
  rw [List.length_take_of_le announced, List.length_append, entry.2.2] at length
  have field : bigEndian 4 bodyLen = rest.take 4 := by
    have four : (rest.take 4).length = 4 := List.length_take_of_le (by omega)
    have spelled := bigEndian_ofBigEndian (rest.take 4)
    rwa [four, ← isLen] at spelled
  have whole : frame crates (logHeader salt) (logKeyFor crates cipher context salt) index entry.1 entry.2 =
      rest.take (4 + bodyLen) := by
    rw [List.take_add, body, ← field, length, frame, NONCE_LEN, List.append_assoc]
  have within : 4 + bodyLen ≤ rest.length := by
    rw [List.length_drop] at announced
    omega
  have tail : rest.drop (4 + bodyLen) = damaged.drop (recordStart crates cipher context salt written (index + 1)) := by
    rw [stop, whole, List.length_take_of_le within]
    exact List.drop_drop
  apply damages.differs
  rw [← List.take_append_drop (recordStart crates cipher context salt written index) damaged, damages.before,
    ← List.take_append_drop (4 + bodyLen) (damaged.drop _), ← whole, tail, damages.after, stop, ← List.drop_drop]
  conv_rhs => rw [← List.take_append_drop (recordStart crates cipher context salt written index) original]
  rw [after, List.drop_left]

/-- A log with an altered record, other than the last, is refused and kept exactly if the record does not look like
its torn end. -/
theorem openAppend_refuses_iff : Refuses crates cipher context damaged ↔
    ¬ LooksTorn index (recordStart crates cipher context salt written index) damaged := by
  obtain ⟨header, fuel, scanned⟩ := scanWith_damaged sealsOnly stored inside damages
  have nonzero := damaged_nonzero sealsOnly stored inside damages
  have unopened := damaged_unopened sealsOnly stored fits inside damages
  have start : recordStart crates cipher context salt written index = SEALED_LOG_HEADER_LEN ↔ index = 0 := by
    have many := @length_le_framesFrom crates sealsOnly.length (logHeader salt) (logKeyFor crates cipher context salt) 0
      (written.take index)
    rw [List.length_take_of_le (by omega)] at many
    rw [recordStart, Stored.committedEnd]
    refine ⟨fun none => by omega, ?_⟩
    rintro rfl
    rfl
  have long : 4 ≤ (damaged.drop (recordStart crates cipher context salt written index)).length := by
    obtain ⟨entry, found⟩ : ∃ entry, written[index]? = some entry :=
      ⟨_, List.getElem?_eq_getElem (Nat.lt_of_succ_lt inside)⟩
    obtain ⟨-, after, -⟩ := stored.split found
    have length := congrArg List.length after
    rw [List.length_drop, List.length_append, length_frame sealsOnly.length] at length
    rw [List.length_drop, damages.length]
    omega
  rw [refuses_iff, openAppend_ok_iff header, scanned, scanFrom, findRecord_unopened long nonzero unopened]
  refine not_congr ?_
  simp only [LooksTorn]
  split
  · next invalid =>
    refine iff_of_false ?_ (fun torn => by omega)
    rintro ⟨scan, failed, -⟩
    cases failed
  · next valid =>
    split
    · next short =>
      refine iff_of_true ⟨_, rfl, ?_⟩ ⟨by omega, Or.inl short⟩
      rintro ⟨tail, -⟩
      cases tail
    · next complete =>
      split
      · next exactly =>
        constructor
        · rintro ⟨scan, ended, past⟩
          obtain rfl := Except.ok.inj ended
          refine ⟨by omega, Or.inr ⟨exactly, Nat.pos_of_ne_zero fun first => past ⟨rfl, start.mpr first⟩⟩⟩
        · rintro ⟨-, short | ⟨-, later⟩⟩
          · omega
          · exact ⟨_, rfl, fun failed => later.ne' (start.mp failed.2)⟩
      · next more =>
        refine iff_of_false ?_ (fun torn => by omega)
        rintro ⟨scan, failed, -⟩
        cases failed

end

end Damage

namespace Sample

/-- The record of the log that a ciphertext seals. -/
def sealedRecord (key nonce ciphertext aad : Bytes) : Option ((Bytes × Nonce) × ℕ) :=
  twoRecords.zipIdx.find? fun entry => key = logKeyFor crates cipher context salt ∧ nonce = entry.1.2.1 ∧
    aad = recordAad (logHeader salt) entry.2 ∧ ciphertext = encrypt key nonce entry.1.1 aad

/-- The toy cipher of a world in which one log of two records was sealed. -/
def logCrates : Crates :=
  { crates with decrypt := fun key nonce ciphertext aad => (sealedRecord key nonce ciphertext aad).map (·.1.1) }

theorem decrypt_logCrates (key nonce ciphertext aad : Bytes) :
    logCrates.decrypt key nonce ciphertext aad = (sealedRecord key nonce ciphertext aad).map (·.1.1) := rfl

theorem logCrates_sealsOnly : SealsOnly logCrates cipher context salt twoRecords where
  length := opens.length
  opens index entry found := by
    match index, found with
    | 0, found =>
      obtain rfl := Option.some.inj found
      decide +kernel
    | 1, found =>
      obtain rfl := Option.some.inj found
      decide +kernel
  authentic nonce ciphertext aad message decrypted := by
    rw [decrypt_logCrates] at decrypted
    obtain ⟨⟨entry, index⟩, found, -⟩ := Option.map_eq_some_iff.mp decrypted
    rw [sealedRecord] at found
    have member := List.mem_of_find?_eq_some found
    have held := List.find?_some found
    simp only [decide_eq_true_eq] at held
    obtain ⟨-, nonce_, aad_, ciphertext_⟩ := held
    exact ⟨index, entry, List.mem_zipIdx_iff_getElem?.mp member, nonce_, aad_, ciphertext_⟩

def wholeLog : Bytes :=
  logHeader salt ++
    ((framesFrom logCrates (logHeader salt) (logKeyFor logCrates cipher context salt) 0 twoRecords).flatten ++ [])

theorem stored_wholeLog : Stored logCrates cipher context salt twoRecords [] wholeLog where
  bytes_eq := rfl
  accepted := by decide +kernel
  torn := torn_nil opens.length _ _

/-- An alteration of the first record. -/
theorem damages_first {damaged : Bytes} (altered : damaged.length = wholeLog.length ∧ damaged.take 32 = wholeLog.take 32 ∧
    damaged.drop 65 = wholeLog.drop 65 ∧ damaged ≠ wholeLog) :
    Damages (recordStart logCrates cipher context salt twoRecords 0) (recordStart logCrates cipher context salt twoRecords 1)
      wholeLog damaged := by
  have start : recordStart logCrates cipher context salt twoRecords 0 = 32 := by decide +kernel
  have stop : recordStart logCrates cipher context salt twoRecords 1 = 65 := by decide +kernel
  rw [start, stop]
  exact ⟨altered.1, altered.2.1, altered.2.2.1, altered.2.2.2⟩

end Sample

/-- With one bit of the first length field set, both records of a log are cut off. -/
theorem not_openAppend_refuses_damaged :
    let damaged := Sample.wholeLog.set 34 1
    Stored Sample.logCrates Sample.cipher Sample.context Sample.salt Sample.twoRecords [] Sample.wholeLog ∧
      Damages (recordStart Sample.logCrates Sample.cipher Sample.context Sample.salt Sample.twoRecords 0)
        (recordStart Sample.logCrates Sample.cipher Sample.context Sample.salt Sample.twoRecords 1) Sample.wholeLog damaged ∧
      ¬ Refuses Sample.logCrates Sample.cipher Sample.context damaged ∧
      (SealedLogWriter.openAppend Sample.logCrates damaged Sample.cipher Sample.context).toOption.map
        (fun writer => (writer.file.bytes, writer.nextIndex)) = some (logHeader Sample.salt, 0) := by
  intro damaged
  have cut : (SealedLogWriter.openAppend Sample.logCrates damaged Sample.cipher Sample.context).toOption.map
      (fun writer => (writer.file.bytes, writer.nextIndex)) = some (logHeader Sample.salt, 0) := by
    decide +kernel
  refine ⟨Sample.stored_wholeLog, Sample.damages_first (by decide +kernel), fun refused => ?_, cut⟩
  obtain ⟨⟨error, failed⟩, -⟩ := refused
  rw [failed] at cut
  cases cut

/-- With one byte of the first ciphertext altered, the log is refused and kept. -/
theorem openAppend_refuses_iff_altered : Refuses Sample.logCrates Sample.cipher Sample.context (Sample.wholeLog.set 48 9) := by
  refine (openAppend_refuses_iff Sample.logCrates_sealsOnly Sample.stored_wholeLog ?_ ?_
    (Sample.damages_first (by decide +kernel))).mpr ?_
  · decide +kernel
  · decide
  · unfold LooksTorn
    decide +kernel

end RyuRooms.Crypto
