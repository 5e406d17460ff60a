import RyuRooms.Crypto.SealedLog

/-! # Opening a log for append with the wrong key

Only the current key of a cipher lets a log be opened for append. A complete first record that does not open
under it is either followed by more data, an error, or the only record, where the key is passed over; so a log
of which no record opens under that key is refused and kept, whatever its retired keys open and whatever follows
its records.
-/

namespace RyuRooms.Crypto

open Foundation

section Refusal

variable (crates : Crates) (cipher : ContentCipher) (context : ContentContext) (bytes : Bytes)

/-- `open_append` returns an error and leaves the file of the log as it is. -/
def Refuses : Prop :=
  (∃ error, SealedLogWriter.openAppend crates bytes cipher context = .error error) ∧
    Log.step? crates cipher context (.closed bytes) .reopen = some (.closed bytes)

variable {crates cipher context bytes}

theorem refuses_iff : Refuses crates cipher context bytes ↔
    ¬ ∃ writer, SealedLogWriter.openAppend crates bytes cipher context = .ok writer := by
  rw [Refuses, Log.step?, Log.bytes]
  cases SealedLogWriter.openAppend crates bytes cipher context with
  | ok writer => exact iff_of_false (fun ⟨⟨_, failed⟩, _⟩ => by cases failed) (not_not_intro ⟨writer, rfl⟩)
  | error error => exact iff_of_true ⟨⟨error, rfl⟩, rfl⟩ (fun ⟨_, opened⟩ => by cases opened)

end Refusal

/-- A scan that ends at a first record that does not open. -/
def Scan.FirstFailed (scan : Scan) : Prop := scan.tail = .finalFailed ∧ scan.committedEnd = SEALED_LOG_HEADER_LEN

section Opening

variable {crates : Crates} {cipher : ContentCipher} {context : ContentContext} {salt : Salt} {bytes header aad : Bytes}

/-- A log that opens was scanned with one of the keys, past its first record. -/
theorem mem_of_tryKeys {keepRecords : Bool} {firstError : Option String} {candidates : List (ContentKey × Bool)}
    {opened : OpenedLog} (tried : tryKeys crates bytes header aad keepRecords firstError candidates = .ok opened) :
    ∃ candidate ∈ candidates, opened.retired = candidate.2 ∧ ¬ opened.scan.FirstFailed ∧
      scanWith crates header (logKey crates candidate.1.key (header.drop 12) aad) bytes keepRecords = .ok opened.scan := by
  induction candidates generalizing firstError with
  | nil => cases tried
  | cons candidate candidates ih =>
    rw [tryKeys] at tried
    split at tried
    · next scan scanned =>
      split at tried
      · obtain ⟨other, member, rest⟩ := ih tried
        exact ⟨other, List.mem_cons_of_mem _ member, rest⟩
      · next past =>
        obtain rfl := Except.ok.inj tried
        exact ⟨candidate, List.mem_cons_self, rfl, past, scanned⟩
    · obtain ⟨other, member, rest⟩ := ih tried
      exact ⟨other, List.mem_cons_of_mem _ member, rest⟩

/-- The candidate that is not retired is the current key. -/
theorem current_of_mem_candidateKeys {candidate : ContentKey × Bool} (member : candidate ∈ cipher.candidateKeys)
    (active : candidate.2 = false) : candidate.1 = cipher.current := by
  rcases List.mem_cons.mp member with rfl | retired
  · rfl
  · obtain ⟨_, -, rfl⟩ := List.mem_map.mp retired
    cases active

/-- A log is opened for append exactly if its scan with the current key passes the first record. -/
theorem openAppend_ok_iff (written : bytes.take SEALED_LOG_HEADER_LEN = logHeader salt) :
    (∃ writer, SealedLogWriter.openAppend crates bytes cipher context = .ok writer) ↔
      ∃ scan, scanWith crates (logHeader salt) (logKeyFor crates cipher context salt) bytes false = .ok scan ∧
        ¬ scan.FirstFailed := by
  have dropped : (logHeader salt).drop 12 = salt.1 := rfl
  have long : ¬ bytes.length < SEALED_LOG_HEADER_LEN := by
    have size := congrArg List.length written
    rw [List.length_take, length_logHeader] at size
    omega
  have opens : openLog crates bytes cipher context false = tryKeys crates bytes (logHeader salt)
      (context.associatedData cipher.store) false none cipher.candidateKeys := by
    rw [openLog, bailIf, if_neg long, written]
    exact congrArg (· >>= fun _ => _) (parseHeader_logHeader salt)
  constructor
  · rintro ⟨writer, appended⟩
    obtain ⟨opened, tried, rest⟩ := bind_eq_ok_iff.mp appended
    obtain ⟨_, active, -⟩ := bind_eq_ok_iff.mp rest
    rw [opens] at tried
    obtain ⟨candidate, member, retired, past, scanned⟩ := mem_of_tryKeys tried
    have current := current_of_mem_candidateKeys member (by
      rw [← retired]
      exact Bool.eq_false_iff.mpr (bailIf_eq_ok_iff.mp active))
    rw [current, dropped] at scanned
    exact ⟨opened.scan, scanned, past⟩
  · rintro ⟨scan, scanned, past⟩
    have tried : openLog crates bytes cipher context false =
        .ok ⟨logHeader salt, logKeyFor crates cipher context salt, false, scan⟩ := by
      rw [opens, ContentCipher.candidateKeys, tryKeys, dropped]
      simp only [logKeyFor] at scanned
      rw [scanned]
      exact if_neg past
    exact ⟨_, bind_eq_ok_iff.mpr ⟨_, tried, bind_eq_ok_iff.mpr ⟨(), bailIf_eq_ok_iff.mpr (by simp), rfl⟩⟩⟩

end Opening

section WrongKey

variable {crates : Crates} {cipher : ContentCipher} {context : ContentContext} {salt : Salt}
  {sealedUnder rest bytes : Bytes} {written : List (Bytes × Nonce)}

/-- The file of a log that was written under some key, with anything after its records. -/
structure HoldsRecords (crates : Crates) (salt : Salt) (sealedUnder : Bytes) (written : List (Bytes × Nonce))
    (rest bytes : Bytes) : Prop where
  bytes_eq : bytes = logHeader salt ++ ((framesFrom crates (logHeader salt) sealedUnder 0 written).flatten ++ rest)
  accepted : ∀ entry ∈ written, Accepted entry.1

/-- No record of a log opens under a key. -/
def OpensNone (crates : Crates) (salt : Salt) (sealedUnder : Bytes) (written : List (Bytes × Nonce)) (key : Bytes) : Prop :=
  ∀ index entry, written[index]? = some entry →
    crates.decrypt key entry.2 (crates.encrypt sealedUnder entry.2 entry.1 (recordAad (logHeader salt) index))
      (recordAad (logHeader salt) index) = none

/-- A scan with a key that opens no record fails, or ends at the first one. -/
theorem firstFailed_of_opensNone (tagged : crates.Tagged) (held : HoldsRecords crates salt sealedUnder written rest bytes)
    (some : written ≠ []) {key : Bytes} (none : OpensNone crates salt sealedUnder written key) {scan : Scan}
    (scanned : scanWith crates (logHeader salt) key bytes false = .ok scan) : scan.FirstFailed := by
  cases written with
  | nil => exact absurd rfl some
  | cons entry more =>
    have first := none 0 entry rfl
    have there : bytes.drop SEALED_LOG_HEADER_LEN = frame crates (logHeader salt) sealedUnder 0 entry.1 entry.2 ++
        ((framesFrom crates (logHeader salt) sealedUnder 1 more).flatten ++ rest) := by
      rw [held.bytes_eq, List.drop_left' (length_logHeader salt), framesFrom, List.flatten_cons, List.append_assoc]
    rw [scanWith, scanFrom, there, findRecord_frame_under tagged (held.accepted _ List.mem_cons_self), first] at scanned
    obtain ⟨found, ended, scanned⟩ := bind_eq_ok_iff.mp scanned
    rw [Option.elim_none] at ended
    split at ended
    · obtain rfl := Except.ok.inj ended
      obtain rfl := Except.ok.inj scanned
      exact ⟨rfl, rfl⟩
    · cases ended

/-- A log with a complete record, none of which opens under the current key of a cipher, is refused and kept, whether
or not its retired keys open it. -/
theorem openAppend_refuses (tagged : crates.Tagged) (held : HoldsRecords crates salt sealedUnder written rest bytes)
    (some : written ≠ []) (none : OpensNone crates salt sealedUnder written (logKeyFor crates cipher context salt)) :
    Refuses crates cipher context bytes := by
  have header : bytes.take SEALED_LOG_HEADER_LEN = logHeader salt := by
    rw [held.bytes_eq, List.take_left' (length_logHeader salt)]
  rw [refuses_iff, openAppend_ok_iff header]
  rintro ⟨scan, scanned, past⟩
  exact past (firstFailed_of_opensNone tagged held some none scanned)

end WrongKey

namespace Sample

/-- The cipher after a rotation, which retired the key of the log. -/
def rotated : ContentCipher := ⟨"rooms.db", [], ⟨[9], "k9"⟩, [⟨[7], "k7"⟩]⟩

def twoRecords : List (Bytes × Nonce) := [([1], nonce), ([2], nonce)]

/-- A log of two records, and two bytes of a third. -/
def tornLog : Bytes :=
  logHeader salt ++ ((framesFrom crates (logHeader salt) (logKeyFor crates cipher context salt) 0 twoRecords).flatten ++ [0, 0])

end Sample

/-- The log still opens under the key that was retired, and is refused and kept. -/
theorem openAppend_refuses_rotated :
    openRecovering Sample.crates Sample.tornLog Sample.rotated Sample.context = .ok ⟨[[1], [2]], true, true⟩ ∧
      Refuses Sample.crates Sample.rotated Sample.context Sample.tornLog := by
  constructor
  · decide +kernel
  · refine openAppend_refuses Sample.opens.length ⟨rfl, ?_⟩ (List.cons_ne_nil _ _) fun index entry found => ?_
    · decide +kernel
    · match index, found with
      | 0, found =>
        obtain rfl := Option.some.inj found
        decide +kernel
      | 1, found =>
        obtain rfl := Option.some.inj found
        decide +kernel

end RyuRooms.Crypto
