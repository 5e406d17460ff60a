import RyuRooms.Crypto.ProcessKeys
import RyuRooms.Foundation.Ends
import RyuRooms.Model.SecretFile

/-! # A secret file reads as what was written

A sealer opens what it seals, so a file that was written reads as the trimmed value, as long as its envelope is no
larger than a reader takes. The largest envelope holds `LARGEST_VALUE` bytes, and neither `write_secret_file` nor
`reseal_secret_file` looks at the size: a longer value is replaced by a file that nothing reads any more.
-/

namespace RyuRooms.Crypto

open Foundation

/-- The bytes of the largest value whose envelope is read. -/
def LARGEST_VALUE : ℕ := 12254

/-- A readable file whose body no sealer wrote. -/
structure PathEntry.Legacy (entry : PathEntry) (body : String) : Prop where
  file : ∃ bytes text, entry = .file bytes true ∧ bytes.length ≤ MAX_SECRET_FILE_BYTES ∧ fromUtf8 bytes = some text ∧
    trim text = body
  some : body ≠ ""
  plain : looksSealed body = false

/-- A write gets to replace what is found under its path. -/
structure Replaces (path : SecretPath) (faults : SecretFaults) (entry : PathEntry) : Prop where
  parent : path.parent.isSome
  followed : entry ≠ .symlink
  createDir : faults.createDir = false
  createTemporary : faults.createTemporary = false
  write : faults.write = false
  sync : faults.sync = false
  persist : faults.persist = false

section Sealers

variable {crates : Crates} (sealer : SecretSealer) (nonce : Nonce) (value : String)

theorem envelope_mem : sealer.envelope ∈ [ENVELOPE_PREFIX, PLUGIN_ENVELOPE_PREFIX, COMPONENT_ENVELOPE_PREFIX] := by
  cases sealer <;> simp [SecretSealer.envelope]

theorem envelope_visible {c : Char} (member : c ∈ sealer.envelope.toList) : isWhitespace c = false := by
  have known : [ENVELOPE_PREFIX, PLUGIN_ENVELOPE_PREFIX, COMPONENT_ENVELOPE_PREFIX].all
      fun envelope : String => envelope.toList.all fun c => !isWhitespace c := by decide +kernel
  simpa using List.all_eq_true.mp (List.all_eq_true.mp known _ (envelope_mem sealer)) c member

/-- How large a sealed value is. -/
theorem utf8ByteSize_sealText (opens : crates.Opens) (base64 : crates.WritesBase64) :
    (sealer.sealText crates nonce value).utf8ByteSize =
      sealer.envelope.utf8ByteSize + 4 * ((value.utf8ByteSize + 30) / 3) := by
  rw [SecretSealer.sealText, FieldCipher.sealWithPrefix, String.utf8ByteSize_append, base64.size, List.length_append,
    nonce.2, opens.length, length_utf8]
  congr 3
  rw [TAG_LEN]
  omega

/-- The prefixes of seven and of eight bytes leave room for the same values. -/
theorem sealText_fits_iff (opens : crates.Opens) (base64 : crates.WritesBase64) :
    (sealer.sealText crates nonce value).utf8ByteSize ≤ MAX_SECRET_FILE_BYTES ↔ value.utf8ByteSize ≤ LARGEST_VALUE := by
  have prefixed : sealer.envelope.utf8ByteSize = 7 ∨ sealer.envelope.utf8ByteSize = 8 := by
    cases sealer
    · exact .inl rfl
    · exact .inr rfl
    · exact .inr rfl
  rw [utf8ByteSize_sealText sealer nonce value opens base64, MAX_SECRET_FILE_BYTES, LARGEST_VALUE]
  omega

theorem trim_sealText (base64 : crates.WritesBase64) :
    trim (sealer.sealText crates nonce value) = sealer.sealText crates nonce value := by
  apply trim_of_no_whitespace
  intro c member
  rw [SecretSealer.sealText, FieldCipher.sealWithPrefix, String.toList_append, List.mem_append] at member
  rcases member with first | last
  · exact envelope_visible sealer first
  · exact (base64.letters _ c last).1

theorem isSealed_sealText : sealer.isSealed (sealer.sealText crates nonce value) := StoreSeal.startsWith_iff.mpr ⟨_, rfl⟩

theorem looksSealed_of_isSealed {stored : String} (sealed : sealer.isSealed stored) : looksSealed stored := by
  rw [looksSealed, List.any_eq_true]
  refine ⟨sealer.envelope, ?_, sealed⟩
  have known := envelope_mem sealer
  simp only [List.mem_cons, List.not_mem_nil, or_false] at known ⊢
  tauto

/-- The body of an envelope opens under the key that sealed it. -/
theorem openBody_sealed (opens : crates.Opens) (decodes : crates.Decodes) (cipher : FieldCipher) :
    cipher.openBody crates (crates.base64Encode (nonce ++ crates.encrypt cipher.key nonce (utf8 value) [])) = .ok value := by
  have nonce_ : (nonce.1 ++ crates.encrypt cipher.key nonce (utf8 value) []).take NONCE_LEN = nonce := List.take_left' nonce.2
  have ciphertext : (nonce.1 ++ crates.encrypt cipher.key nonce (utf8 value) []).drop NONCE_LEN =
      crates.encrypt cipher.key nonce (utf8 value) [] := List.drop_left' nonce.2
  rw [FieldCipher.openBody]
  simp only [decodes _]
  rw [if_neg (by rw [List.length_append, nonce.2, NONCE_LEN]; omega), nonce_, ciphertext, FieldCipher.decrypt,
    List.findSome?_cons]
  simp only [opens.opens, Option.elim_some]
  change Except.ok (fromUtf8Lossy (utf8 value)) = _
  rw [fromUtf8Lossy, fromUtf8_utf8, Option.getD_some]

/-- A sealer opens what it sealed. -/
theorem openText_sealer_sealText (opens : crates.Opens) (decodes : crates.Decodes) :
    sealer.openText crates (sealer.sealText crates nonce value) = .ok value := by
  have sealed := @isSealed_sealText crates sealer nonce value
  have opened := openBody_sealed nonce value opens decodes sealer.inner
  cases sealer with
  | field cipher =>
    rw [SecretSealer.openText, sealed, SecretSealer.sealText, FieldCipher.sealWithPrefix, SecretSealer.envelope,
      StoreSeal.stripPrefix_append]
    exact opened
  | plugin cipher =>
    rw [SecretSealer.openText, sealed, SecretSealer.sealText, FieldCipher.sealWithPrefix, SecretSealer.envelope,
      StoreSeal.stripPrefix_append]
    simp only [opened]
    rfl
  | component cipher =>
    rw [SecretSealer.openText, SecretSealer.sealText, FieldCipher.sealWithPrefix, SecretSealer.envelope,
      StoreSeal.stripPrefix_append]
    simp only [opened]
    rfl

end Sealers

section Files

variable {crates : Crates} {path : SecretPath} {faults : SecretFaults} {entry : PathEntry} {body : String}

/-- A write that gets to replace what is found under its path does, also when a later step fails. -/
theorem ends_writeBody_of_replaces (replaces : Replaces path faults entry) :
    Ends (fun _ target => target = .file (utf8 body) true) (fun _ target => target = .file (utf8 body) true)
      (writeBody path faults body) entry := by
  obtain ⟨parent, found⟩ := Option.isSome_iff_exists.mp replaces.parent
  unfold writeBody
  rw [found]
  change Ends _ _ (failIf _ _ >>= _) entry
  refine Ends.failIf_bind (fun fault => (Bool.false_ne_true (replaces.createDir.symm.trans fault)).elim) fun _ => ?_
  apply Ends.get_bind
  refine Ends.failIf_bind (fun fault => (replaces.followed fault).elim) fun _ => ?_
  refine Ends.failIf_bind (fun fault => (Bool.false_ne_true (replaces.createTemporary.symm.trans fault)).elim) fun _ => ?_
  refine Ends.failIf_bind (fun fault => (Bool.false_ne_true (replaces.write.symm.trans fault)).elim) fun _ => ?_
  refine Ends.failIf_bind (fun fault => (Bool.false_ne_true (replaces.sync.symm.trans fault)).elim) fun _ => ?_
  refine Ends.failIf_bind (fun fault => (Bool.false_ne_true (replaces.persist.symm.trans fault)).elim) fun _ => ?_
  change Ends _ _ (failIf _ _) (PathEntry.file (utf8 body) true)
  exact Ends.failIf (fun _ => rfl) fun _ => rfl

/-- A write that stops before fails and leaves what is there. -/
theorem ends_writeBody_of_not_replaces (stopped : ¬ Replaces path faults entry) :
    Ends (fun _ _ => False) (fun _ target => target = entry) (writeBody path faults body) entry := by
  unfold writeBody
  cases found : path.parent with
  | none => rfl
  | some parent =>
    change Ends _ _ (failIf _ _ >>= _) entry
    refine Ends.failIf_bind (fun _ => rfl) fun createDir => ?_
    apply Ends.get_bind
    refine Ends.failIf_bind (fun _ => rfl) fun followed => ?_
    refine Ends.failIf_bind (fun _ => rfl) fun createTemporary => ?_
    refine Ends.failIf_bind (fun _ => rfl) fun write => ?_
    refine Ends.failIf_bind (fun _ => rfl) fun sync => ?_
    refine Ends.failIf_bind (fun _ => rfl) fun persist => ?_
    refine absurd ⟨?_, followed, ?_, ?_, ?_, ?_, ?_⟩ stopped
    · rw [found]
      rfl
    · exact eq_false_of_ne_true createDir
    · exact eq_false_of_ne_true createTemporary
    · exact eq_false_of_ne_true write
    · exact eq_false_of_ne_true sync
    · exact eq_false_of_ne_true persist

/-- The body of a file that a sealer wrote. -/
theorem readBody_sealText (opens : crates.Opens) (base64 : crates.WritesBase64) (sealer : SecretSealer) (nonce : Nonce)
    {value : String} (fits : value.utf8ByteSize ≤ LARGEST_VALUE) :
    readBody path (.file (utf8 (sealer.sealText crates nonce value)) true) =
      .ok (some (sealer.sealText crates nonce value)) := by
  have small := (sealText_fits_iff sealer nonce value opens base64).mpr fits
  have some : sealer.sealText crates nonce value ≠ "" := by
    intro empty
    have size := utf8ByteSize_sealText sealer nonce value opens base64
    rw [empty, String.utf8ByteSize_empty] at size
    omega
  rw [readBody, length_utf8, if_neg (by omega), List.take_of_length_le (by rw [length_utf8]; omega), fromUtf8_utf8]
  simp only [Bool.not_true, Bool.false_eq_true, if_false, trim_sealText sealer nonce value base64, if_neg some]

/-- A file that a sealer wrote reads as the trimmed value, if it is read at all. -/
theorem readSecretFile_sealText (opens : crates.Opens) (base64 : crates.WritesBase64) (sealer : SecretSealer)
    (nonce : Nonce) (value : String) :
    readSecretFile crates path (some sealer) (.file (utf8 (sealer.sealText crates nonce value)) true) =
      if value.utf8ByteSize ≤ LARGEST_VALUE then .ok (some ⟨trim value, false⟩)
      else .error s!"secret file {path.display} is too large" := by
  split
  · next fits =>
    rw [readSecretFile, readBody_sealText opens base64 sealer nonce fits]
    simp only [looksSealed_of_isSealed sealer (isSealed_sealText sealer nonce value), Bool.not_true, Bool.false_eq_true,
      if_false, openText_sealer_sealText sealer nonce value opens base64.decodes]
  · next large =>
    have long := (sealText_fits_iff sealer nonce value opens base64).not.mpr large
    rw [readSecretFile, readBody, length_utf8, if_pos (by omega)]

/-- A legacy body is read as it is. -/
theorem readSecretFile_legacy (legacy : entry.Legacy body) (sealer : Option SecretSealer) :
    readSecretFile crates path sealer entry = .ok (some ⟨body, true⟩) := by
  obtain ⟨bytes, text, rfl, small, decoded, rfl⟩ := legacy.file
  rw [readSecretFile, readBody, if_neg (by omega), List.take_of_length_le (by omega), decoded]
  simp only [Bool.not_true, Bool.false_eq_true, if_false, if_neg legacy.some, legacy.plain, Bool.not_false, if_true]

/-- A body that was read is the trimmed text of a file. -/
theorem file_of_readBody (read : readBody path entry = .ok (some body)) :
    (∃ bytes text, entry = .file bytes true ∧ bytes.length ≤ MAX_SECRET_FILE_BYTES ∧ fromUtf8 bytes = some text ∧
      trim text = body) ∧ body ≠ "" := by
  rw [readBody.eq_def] at read
  split at read
  · cases read
  · cases read
  · cases read
  · cases read
  · next bytes openable =>
    split at read
    · cases read
    · next small =>
      cases openable with
      | false => cases read
      | true =>
        rw [List.take_of_length_le (by omega)] at read
        simp only [Bool.not_true, Bool.false_eq_true, if_false] at read
        split at read
        · cases read
        · next text decoded =>
          have shown := Except.ok.inj read
          split at shown
          · cases shown
          · next visible =>
            obtain rfl := Option.some.inj shown
            exact ⟨⟨bytes, text, rfl, by omega, decoded, rfl⟩, visible⟩

/-- Only legacy bodies are to be sealed. -/
theorem legacy_of_needsReseal {sealer : Option SecretSealer} {opened : Opened}
    (read : readSecretFile crates path sealer entry = .ok (some opened)) (needs : opened.needsReseal) :
    entry.Legacy opened.value := by
  rw [readSecretFile] at read
  split at read
  · cases read
  · cases read
  · next body shown =>
    obtain ⟨file, some⟩ := file_of_readBody shown
    split at read
    · next plain =>
      obtain rfl := Option.some.inj (Except.ok.inj read)
      exact ⟨file, some, by simpa using plain⟩
    · split at read
      · cases read
      · split at read
        · cases read
        · obtain rfl := Option.some.inj (Except.ok.inj read)
          cases needs

/-- What `reseal_secret_file` leaves where there is nothing to seal. -/
theorem resealSecretFile_idle {sealer : SecretSealer} {found : Option Opened}
    (read : readSecretFile crates path (some sealer) entry = .ok found) (idle : found.all fun opened => !opened.needsReseal)
    (nonce : Nonce) : (outcome (resealSecretFile crates path faults sealer nonce) entry).2 = entry := by
  have acted : resealSecretFile crates path faults sealer nonce entry = .ok false entry := by
    change (returnExcept (readSecretFile crates path (some sealer) entry) >>= _) entry = _
    rw [read]
    cases found with
    | none => rfl
    | some opened =>
      change (if opened.needsReseal then _ else _ : SecretCall Bool) entry = _
      rw [if_neg (by simpa using idle)]
      rfl
  rw [outcome_ok_iff.mpr acted]

/-- A legacy file is written again. -/
theorem resealSecretFile_eq {sealer : SecretSealer} {nonce : Nonce} (legacy : entry.Legacy body) :
    resealSecretFile crates path faults sealer nonce entry =
      (writeSecretFile crates path faults sealer nonce body >>= fun _ => pure true) entry := by
  change (returnExcept (readSecretFile crates path (some sealer) entry) >>= _) entry = _
  rw [readSecretFile_legacy legacy]
  rfl

/-- What `reseal_secret_file` leaves of a legacy file. -/
theorem resealSecretFile_legacy {sealer : SecretSealer} {nonce : Nonce} (legacy : entry.Legacy body) :
    (outcome (resealSecretFile crates path faults sealer nonce) entry).2 =
      (outcome (writeSecretFile crates path faults sealer nonce body) entry).2 := by
  have same : outcome (resealSecretFile crates path faults sealer nonce) entry =
      outcome (writeSecretFile crates path faults sealer nonce body >>= fun _ => pure true) entry := by
    rw [outcome, resealSecretFile_eq legacy]
    rfl
  rw [same, ReadOnly.outcome_bind fun _ => ReadOnly.pure _]

/-- What a write leaves, whether or not it fails. -/
theorem outcome_writeSecretFile (sealer : SecretSealer) (nonce : Nonce) (value : String) :
    (Replaces path faults entry → (outcome (writeSecretFile crates path faults sealer nonce value) entry).2 =
      .file (utf8 (sealer.sealText crates nonce value)) true) ∧
    (¬ Replaces path faults entry → (outcome (writeSecretFile crates path faults sealer nonce value) entry).2 = entry) := by
  constructor
  · intro replaces
    exact (ends_writeBody_of_replaces replaces).outcome
  · intro stopped
    have ends := @ends_writeBody_of_not_replaces path faults entry (sealer.sealText crates nonce value) stopped
    exact (ends.imp fun _ _ never => never.elim).outcome

end Files

/-- A secret file reads as the value written to it exactly when the value is no larger than `LARGEST_VALUE`, and reads
as before once it was sealed exactly when no larger legacy body was replaced. -/
theorem secretFile_reads_iff {crates : Crates} (opens : crates.Opens) (base64 : crates.WritesBase64) (path : SecretPath)
    (faults : SecretFaults) (sealer : SecretSealer) (nonce : Nonce) (entry : PathEntry) :
    (∀ value written, writeSecretFile crates path faults sealer nonce value entry = .ok () written →
      ((readSecretFile crates path (some sealer) written).map (Option.map Opened.value) = .ok (some (trim value)) ↔
        value.utf8ByteSize ≤ LARGEST_VALUE)) ∧
    ∀ found, readSecretFile crates path (some sealer) entry = .ok found →
      ((readSecretFile crates path (some sealer) (outcome (resealSecretFile crates path faults sealer nonce) entry).2).map
          (Option.map Opened.value) = .ok (found.map Opened.value) ↔
        ∀ body, entry.Legacy body → Replaces path faults entry → body.utf8ByteSize ≤ LARGEST_VALUE) := by
  constructor
  · intro value written wrote
    have replaces : Replaces path faults entry := by
      by_contra stopped
      exact (ends_writeBody_of_not_replaces stopped).of_ok wrote
    have left := (ends_writeBody_of_replaces replaces).of_ok wrote
    rw [left, readSecretFile_sealText opens base64]
    split
    · next fits => exact iff_of_true rfl fits
    · next large => exact iff_of_false nofun large
  · intro found read
    by_cases idle : found.all fun opened => !opened.needsReseal
    · rw [resealSecretFile_idle read idle, read]
      refine iff_of_true rfl fun body legacy _ => ?_
      rw [readSecretFile_legacy legacy] at read
      obtain rfl := Except.ok.inj read
      cases idle
    · cases found with
      | none => exact absurd rfl idle
      | some opened =>
        have legacy := legacy_of_needsReseal read (by simpa using idle)
        have trimmed : trim opened.value = opened.value := by
          obtain ⟨_, text, _, _, _, same⟩ := legacy.file
          rw [← same, trim_trim]
        have only {body : String} (other : entry.Legacy body) : body = opened.value := by
          rw [readSecretFile_legacy other] at read
          obtain rfl := Option.some.inj (Except.ok.inj read)
          rfl
        rw [resealSecretFile_legacy legacy]
        by_cases replaces : Replaces path faults entry
        · rw [(outcome_writeSecretFile sealer nonce opened.value).1 replaces, readSecretFile_sealText opens base64, trimmed]
          split
          · next fits => exact iff_of_true rfl fun body other _ => only other ▸ fits
          · next large => exact iff_of_false nofun fun all => large (all _ legacy replaces)
        · rw [(outcome_writeSecretFile sealer nonce opened.value).2 replaces, read]
          exact iff_of_true rfl fun body _ replaced => absurd replaced replaces

namespace Sample

def secretPath : SecretPath := ⟨"secrets/node-control.token", some "secrets"⟩

/-- A write without faults. -/
def fairWrite : SecretFaults := ⟨false, false, false, false, false, false⟩

def masterSealer : SecretSealer := .field ⟨List.replicate 32 7, []⟩

theorem standard_opens : standard.Opens := ⟨Sample.opens.length, Sample.opens.opens⟩

/-- One character more than a reader takes. -/
def longSecret : String := String.ofList ('a' :: List.replicate LARGEST_VALUE 'a')

theorem longSecret_spec : longSecret.utf8ByteSize = 12255 ∧ trim longSecret = longSecret ∧ looksSealed longSecret = false := by
  have same : ∀ c ∈ 'a' :: List.replicate LARGEST_VALUE 'a', c = 'a' := by
    intro c member
    rcases List.mem_cons.mp member with rfl | member
    · rfl
    · exact List.eq_of_mem_replicate member
  refine ⟨?_, ?_, ?_⟩
  · rw [longSecret, utf8ByteSize_of_ascii, List.length_cons, List.length_replicate, LARGEST_VALUE]
    intro c member
    rw [same c member]
    rfl
  · apply trim_of_no_whitespace
    intro c member
    rw [longSecret, String.toList_ofList] at member
    rw [same c member]
    rfl
  · have unlike (start : List Char) : startsWith longSecret (String.ofList ('e' :: start)) = false := by
      rw [startsWith, longSecret, String.toList_ofList, String.toList_ofList]
      rfl
    have starts : ∀ envelope ∈ [ENVELOPE_PREFIX, BOUND_ENVELOPE_PREFIX, PLUGIN_ENVELOPE_PREFIX, COMPONENT_ENVELOPE_PREFIX,
        CONTENT_TEXT_PREFIX, CLOUD_CONTENT_ENVELOPE_PREFIX],
        envelope = String.ofList ('e' :: envelope.toList.drop 1) := by decide +kernel
    rw [looksSealed, List.any_eq_false]
    intro envelope member
    rw [starts envelope member, unlike]
    exact Bool.false_ne_true

theorem fairWrite_eq (nonce : Nonce) (value : String) {entry : PathEntry} (followed : entry ≠ .symlink) :
    writeSecretFile standard secretPath fairWrite masterSealer nonce value entry =
      .ok () (.file (utf8 (masterSealer.sealText standard nonce value)) true) := by
  cases entry with
  | symlink => exact absurd rfl followed
  | missing => rfl
  | uninspectable => rfl
  | notAFile => rfl
  | file bytes openable => rfl

end Sample

/-- A legacy body that reads, and a value that is written without an error, after which nothing is read. -/
theorem not_secretFile_reads_long :
    let legacy : PathEntry := .file (utf8 Sample.longSecret) true
    let written : PathEntry := .file (utf8 (Sample.masterSealer.sealText Sample.standard Sample.nonce Sample.longSecret)) true
    writeSecretFile Sample.standard Sample.secretPath Sample.fairWrite Sample.masterSealer Sample.nonce Sample.longSecret
        .missing = .ok () written ∧
      readSecretFile Sample.standard Sample.secretPath (some Sample.masterSealer) legacy =
        .ok (some ⟨Sample.longSecret, true⟩) ∧
      resealSecretFile Sample.standard Sample.secretPath Sample.fairWrite Sample.masterSealer Sample.nonce legacy =
        .ok true written ∧
      readSecretFile Sample.standard Sample.secretPath (some Sample.masterSealer) written =
        .error "secret file secrets/node-control.token is too large" := by
  intro legacy written
  obtain ⟨size, trimmed, plain⟩ := Sample.longSecret_spec
  have held : legacy.Legacy Sample.longSecret := by
    refine ⟨⟨_, Sample.longSecret, rfl, ?_, fromUtf8_utf8 _, trimmed⟩, ?_, plain⟩
    · rw [length_utf8, size, MAX_SECRET_FILE_BYTES]
      omega
    · intro empty
      rw [empty] at size
      cases size
  have read := @readSecretFile_legacy Sample.standard Sample.secretPath legacy _ held (some Sample.masterSealer)
  refine ⟨Sample.fairWrite_eq _ _ nofun, read, ?_, ?_⟩
  · have followed : legacy ≠ .symlink := nofun
    rw [resealSecretFile_eq held, bind_eq_of_ok (Sample.fairWrite_eq Sample.nonce Sample.longSecret followed)]
    rfl
  · rw [readSecretFile_sealText Sample.standard_opens Sample.writesBase64, if_neg (by rw [size, LARGEST_VALUE]; omega)]
    rfl

/-- A token that is written, and one that is sealed again. -/
theorem secretFile_reads_iff_token :
    (∃ written, writeSecretFile Sample.standard Sample.secretPath Sample.fairWrite Sample.masterSealer Sample.nonce " sk-1\n"
        .missing = .ok () written ∧
      (readSecretFile Sample.standard Sample.secretPath (some Sample.masterSealer) written).map (Option.map Opened.value) =
        .ok (some "sk-1")) ∧
    (readSecretFile Sample.standard Sample.secretPath (some Sample.masterSealer)
        (outcome (resealSecretFile Sample.standard Sample.secretPath Sample.fairWrite Sample.masterSealer Sample.nonce)
          (.file (utf8 "sk-1\n") true)).2).map (Option.map Opened.value) = .ok (some "sk-1") := by
  have reads := secretFile_reads_iff Sample.standard_opens Sample.writesBase64 Sample.secretPath Sample.fairWrite
    Sample.masterSealer Sample.nonce
  constructor
  · refine ⟨_, rfl, ?_⟩
    have small : (" sk-1\n" : String).utf8ByteSize ≤ LARGEST_VALUE := by decide +kernel
    rw [((reads .missing).1 " sk-1\n" _ rfl).mpr small]
    decide +kernel
  · have read : readSecretFile Sample.standard Sample.secretPath (some Sample.masterSealer) (.file (utf8 "sk-1\n") true) =
        .ok (some ⟨"sk-1", true⟩) := by decide +kernel
    rw [((reads (.file (utf8 "sk-1\n") true)).2 _ read).mpr]
    · rfl
    · intro body legacy _
      rw [readSecretFile_legacy legacy] at read
      obtain rfl : body = "sk-1" := by simpa using read
      decide +kernel

end RyuRooms.Crypto
