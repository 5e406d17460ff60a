import RyuRooms.Crypto.SealedFile
import RyuRooms.Model.ContentSqlite
import RyuRooms.Store.Seals

/-! # What the migration does with one value

A value of a planned column is sealed, left alone, or not readable. `Reads` is what a store with the key reads
from a value and `Opened` that it opens under the current key: a value that reads is sealed at most once, and
reads as before afterwards.
-/

namespace RyuRooms.Crypto

open Foundation

/-- What base64 promises of its own texts, with the trim that precedes the decoding. -/
def Crates.Decodes (crates : Crates) : Prop :=
  ∀ bytes, crates.base64Decode (trim (crates.base64Encode bytes)) = some bytes

theorem Sample.toNat_letter (byte : UInt8) : (Char.ofNat (0x4e00 + byte.toNat)).toNat = 0x4e00 + byte.toNat := by
  rw [Char.ofNat, dif_pos (.inl (by have := byte.toNat_lt; omega))]
  rfl

/-- The characters of the toy texts. -/
theorem Sample.letter_of_mem {bytes : Bytes} {c : Char} (member : c ∈ (Sample.encode bytes).toList) :
    0x4e00 ≤ c.toNat ∧ c.toNat < 0x4f00 := by
  rw [Sample.encode, String.toList_ofList] at member
  obtain ⟨byte, -, rfl⟩ := List.mem_map.mp member
  have small := byte.toNat_lt
  rw [Sample.toNat_letter]
  omega

theorem Sample.decodes : Sample.crates.Decodes := by
  intro bytes
  have visible : ∀ c ∈ (Sample.encode bytes).toList, isWhitespace c = false := by
    intro c member
    have letter := Sample.letter_of_mem member
    simp only [isWhitespace, Bool.or_eq_false_iff, decide_eq_false_iff_not, beq_eq_false_iff_ne]
    omega
  change Sample.decode (trim (Sample.encode bytes)) = some bytes
  rw [trim_of_no_whitespace visible, Sample.decode, Sample.encode, String.toList_ofList, List.map_map]
  refine congrArg some ((List.map_congr_left fun byte _ => ?_).trans bytes.map_id)
  simp only [Function.comp_apply, Sample.toNat_letter, Nat.add_sub_cancel_left, id_eq]
  exact UInt8.ofNat_toNat

section Text

variable {crates : Crates} {cipher : ContentCipher} {nonce : Nonce} {context : ContentContext} {value stored : String}

/-- A ciphertext of the current key opens under it. -/
theorem openBlob_encrypt (opens : crates.Opens) (message : Bytes) :
    cipher.openBlob crates (nonce ++ crates.encrypt cipher.current.key nonce message (context.associatedData cipher.store))
      context = .ok (message, false) := by
  have nonce_ : (nonce.1 ++ crates.encrypt cipher.current.key nonce message (context.associatedData cipher.store)).take
      NONCE_LEN = nonce := List.take_left' nonce.2
  have ciphertext : (nonce.1 ++ crates.encrypt cipher.current.key nonce message (context.associatedData cipher.store)).drop
      NONCE_LEN = crates.encrypt cipher.current.key nonce message (context.associatedData cipher.store) :=
    List.drop_left' nonce.2
  rw [ContentCipher.openBlob, nonce_, ciphertext, ContentCipher.candidateKeys, List.findSome?_cons]
  simp only [opens.opens, Option.map_some, Option.elim_some]

theorem length_blob (tagged : crates.Tagged) (key message aad : Bytes) :
    ¬ (nonce ++ crates.encrypt key nonce message aad).length < NONCE_LEN + TAG_LEN := by
  rw [List.length_append, nonce.2, tagged, NONCE_LEN]
  omega

/-- A text that some cipher sealed opens where its blob does. -/
theorem openText_of_openBlob (tagged : crates.Tagged) (decodes : crates.Decodes) {sealer : ContentCipher} {retired : Bool}
    (opened : cipher.openBlob crates (nonce ++ crates.encrypt sealer.current.key nonce (utf8 value)
      (context.associatedData sealer.store)) context = .ok (utf8 value, retired)) :
    cipher.openText crates (sealer.sealText crates nonce value context) context = .ok ⟨value, retired⟩ := by
  rw [ContentCipher.openText, ContentCipher.sealText, StoreSeal.stripPrefix_append]
  simp only [decodes _]
  rw [if_neg (length_blob tagged _ _ _), opened]
  simp only [fromUtf8_utf8]

theorem openText_sealText (opens : crates.Opens) (decodes : crates.Decodes) :
    cipher.openText crates (cipher.sealText crates nonce value context) context = .ok ⟨value, false⟩ :=
  openText_of_openBlob opens.length decodes (openBlob_encrypt opens _)

/-- The cipher of a store keeps the promise that its cells rely on. -/
theorem lawful_text (opens : crates.Opens) (decodes : crates.Decodes) : (cipher.text crates).Lawful where
  sealed nonce value context := StoreSeal.startsWith_iff.mpr ⟨_, rfl⟩
  opens nonce value context := by
    have opened := @openText_sealText crates cipher ⟨bigEndian NONCE_LEN nonce.toNat, length_bigEndian _ _⟩ context value
      opens decodes
    change (cipher.openText crates (cipher.sealText crates _ value context) context).mapError _ = _
    rw [opened]
    rfl

/-- The escape of a keyless store is no envelope. -/
theorem openText_escaped (rest : String) :
    cipher.openText crates (COMPAT_ESCAPE ++ rest) context = .ok ⟨COMPAT_ESCAPE ++ rest, true⟩ := by
  have unsealed : stripPrefix (COMPAT_ESCAPE ++ rest) CONTENT_TEXT_PREFIX = none := by
    simp [stripPrefix, startsWith, CONTENT_TEXT_PREFIX, COMPAT_ESCAPE, String.toList_append]
  have unversioned : ContentCipher.isVersionedFamily (COMPAT_ESCAPE ++ rest) = false := by
    simp [ContentCipher.isVersionedFamily, COMPAT_ESCAPE, CONTENT_TEXT_FAMILY, String.toList_append]
  have nonempty : COMPAT_ESCAPE ++ rest ≠ "" := by
    rw [ne_eq, ← String.toList_inj, String.toList_append]
    simp [COMPAT_ESCAPE]
  simp only [ContentCipher.openText, unsealed, unversioned, Bool.and_false, Bool.false_eq_true, if_false, decide_true,
    nonempty, ne_eq, not_false_eq_true]

/-- A text that is no envelope is read as it is, if it is read. -/
theorem openText_legacy {opened : Opened} (unsealed : ¬ startsWith stored CONTENT_TEXT_PREFIX)
    (read : cipher.openText crates stored context = .ok opened) : opened = ⟨stored, stored ≠ ""⟩ := by
  rw [ContentCipher.openText, stripPrefix, if_neg unsealed] at read
  simp only at read
  split at read
  · cases read
  · exact (Except.ok.inj read).symm

/-- What a store with the key reads from a text. -/
theorem openText_sealing (stored : String) : ((RyuRooms.StoreSeal.sealing (cipher.text crates)).openText stored context).toOption =
    (stripPrefix stored COMPAT_ESCAPE).or ((cipher.openText crates stored context).toOption.map Opened.value) := by
  rw [StoreSeal.openText, StoreSeal.openTextDetailed]
  cases stripPrefix stored COMPAT_ESCAPE with
  | some inner => rfl
  | none =>
    change ((((cipher.openText crates stored context).mapError ContentSealError.display).map
      fun opened => (opened.value, opened.needsReseal)).map Prod.fst).toOption = _
    cases cipher.openText crates stored context <;> rfl

end Text

section Values

variable {crates : Crates} {cipher : ContentCipher} {kind : ColumnKind} {stored after : Value} {context : ContentContext}
  {nonce : Nonce} {plain : Bytes}

/-- What a store with the key reads from a value. -/
def Value.reads (crates : Crates) (cipher : ContentCipher) (kind : ColumnKind) (context : ContentContext) (stored : Value) :
    Option Bytes :=
  match kind with
  | .text => stored.asText.bind fun text =>
    ((RyuRooms.StoreSeal.sealing (cipher.text crates)).openText text context).toOption.map utf8
  | .blob => stored.asBytes.bind fun bytes => (cipher.openBytes crates bytes context).toOption.map OpenedBytes.value

/-- A value that the migration writes to a column of this kind. -/
def Value.IsOf (kind : ColumnKind) (stored : Value) : Prop :=
  match kind with
  | .text => ∃ text, stored = .text text
  | .blob => ∃ bytes, stored = .blob bytes

/-- A value opens under the current key. -/
def Value.OpensTo (crates : Crates) (cipher : ContentCipher) (kind : ColumnKind) (context : ContentContext) (plain : Bytes)
    (stored : Value) : Prop :=
  match kind with
  | .text => ∃ text, stored.asText = some text ∧ ∃ value, utf8 value = plain ∧
    cipher.openText crates text context = .ok ⟨value, false⟩
  | .blob => ∃ bytes, stored.asBytes = some bytes ∧ cipher.openBytes crates bytes context = .ok ⟨plain, false⟩

/-- A value that opens under the current key is left alone. -/
theorem resealValue_of_opensTo (opened : stored.OpensTo crates cipher kind context plain) :
    resealValue crates cipher kind stored context nonce = .already := by
  rw [resealValue.eq_def]
  split
  · rfl
  · cases kind with
    | text =>
      obtain ⟨text, shown, value, -, opened⟩ := opened
      simp only [shown, opened, Bool.false_eq_true, if_false]
    | blob =>
      obtain ⟨bytes, shown, opened⟩ := opened
      simp only [shown, opened, Bool.false_eq_true, if_false]

theorem reads_null : Value.null.reads crates cipher kind context = none := by cases kind <;> rfl

theorem OpensTo.reads (opened : stored.OpensTo crates cipher kind context plain) :
    stored.reads crates cipher kind context = some plain := by
  cases kind with
  | text =>
    obtain ⟨text, shown, value, rfl, opened⟩ := opened
    have plain : stripPrefix text COMPAT_ESCAPE = none := by
      cases stripped : stripPrefix text COMPAT_ESCAPE with
      | none => rfl
      | some rest =>
        rw [StoreSeal.eq_append_of_stripPrefix stripped] at opened
        cases (openText_escaped rest).symm.trans opened
    rw [Value.reads]
    simp only [shown, Option.bind_some, openText_sealing, plain, opened]
    rfl
  | blob =>
    obtain ⟨bytes, shown, opened⟩ := opened
    rw [Value.reads]
    simp only [shown, Option.bind_some, opened]
    rfl

/-- Bytes that some cipher sealed open where their blob does. -/
theorem openBytes_of_openBlob (tagged : crates.Tagged) {sealer : ContentCipher} {value sealed : Bytes} {retired : Bool}
    (wrote : sealer.sealBytes crates nonce value context = .ok sealed)
    (opened : cipher.openBlob crates (nonce ++ crates.encrypt sealer.current.key nonce value
      (context.associatedData sealer.store)) context = .ok (value, retired)) :
    cipher.openBytes crates sealed context = .ok ⟨value, retired⟩ := by
  rw [ContentCipher.sealBytes] at wrote
  split at wrote
  · cases wrote
  · obtain rfl := Except.ok.inj wrote
    have magic : ContentCipher.isSealedBytes (CONTENT_BYTES_MAGIC ++ nonce.1 ++
        crates.encrypt sealer.current.key nonce value (context.associatedData sealer.store)) = true := by
      rw [ContentCipher.isSealedBytes, List.isPrefixOf_iff_prefix, List.append_assoc]
      exact List.prefix_append _ _
    rw [ContentCipher.openBytes, if_pos magic, List.append_assoc, List.drop_left]
    simp only
    rw [if_neg (length_blob tagged _ _ _), opened]

theorem openBytes_sealBytes (opens : crates.Opens) {value sealed : Bytes}
    (wrote : cipher.sealBytes crates nonce value context = .ok sealed) :
    cipher.openBytes crates sealed context = .ok ⟨value, false⟩ :=
  openBytes_of_openBlob opens.length wrote (openBlob_encrypt opens _)

/-- A value that is sealed read as something before, and opens as that under the current key. -/
theorem resealValue_eq_sealed (opens : crates.Opens) (decodes : crates.Decodes)
    (sealed : resealValue crates cipher kind stored context nonce = .sealed after) :
    after.IsOf kind ∧
      ∃ plain, stored.reads crates cipher kind context = some plain ∧ after.OpensTo crates cipher kind context plain := by
  rw [resealValue.eq_def] at sealed
  split at sealed
  · cases sealed
  · cases kind with
    | text =>
      simp only at sealed
      split at sealed
      · cases sealed
      · next text shown =>
        split at sealed
        · cases sealed
        · next opened read =>
          split at sealed
          · obtain rfl := Outcome.sealed.inj sealed
            refine ⟨⟨_, rfl⟩, _, ?_, _, rfl, _, rfl, openText_sealText opens decodes⟩
            rw [Value.reads]
            simp only [shown, Option.bind_some, openText_sealing, read]
            split
            · next envelope =>
              rw [StoreSeal.stripPrefix_of_isSealedText envelope]
              rfl
            · next legacy =>
              rw [openText_legacy legacy read]
              cases stripPrefix text COMPAT_ESCAPE <;> rfl
          · cases sealed
    | blob =>
      simp only at sealed
      split at sealed
      · cases sealed
      · next bytes shown =>
        split at sealed
        · cases sealed
        · next opened read =>
          split at sealed
          · split at sealed
            · next wrote =>
              obtain rfl := Outcome.sealed.inj sealed
              refine ⟨⟨_, rfl⟩, opened.value, ?_, _, rfl, openBytes_sealBytes opens wrote⟩
              rw [Value.reads]
              simp only [shown, Option.bind_some, read]
              rfl
            · cases sealed
          · cases sealed

/-- A value that is left alone is NULL or opens under the current key. -/
theorem resealValue_eq_already (kept : resealValue crates cipher kind stored context nonce = .already) :
    stored = .null ∨ ∃ plain, stored.OpensTo crates cipher kind context plain := by
  rw [resealValue.eq_def] at kept
  split at kept
  · next null => exact .inl null
  · refine .inr ?_
    cases kind with
    | text =>
      simp only at kept
      split at kept
      · cases kept
      · next text shown =>
        split at kept
        · cases kept
        · next opened read =>
          split at kept
          · cases kept
          · next current =>
            obtain ⟨value, needsReseal⟩ := opened
            obtain rfl : needsReseal = false := Bool.eq_false_iff.mpr current
            exact ⟨_, text, shown, value, rfl, read⟩
    | blob =>
      simp only at kept
      split at kept
      · cases kept
      · next bytes shown =>
        split at kept
        · cases kept
        · next opened read =>
          split at kept
          · split at kept <;> cases kept
          · next current =>
            obtain ⟨value, needsReseal⟩ := opened
            obtain rfl : needsReseal = false := Bool.eq_false_iff.mpr current
            exact ⟨value, bytes, shown, read⟩

/-- A BLOB opens to no envelope, as every BLOB does that was sealed by `seal_bytes`. -/
def Value.Genuine (crates : Crates) (cipher : ContentCipher) (context : ContentContext) (stored : Value) : Prop :=
  ∀ bytes opened, stored.asBytes = some bytes → ContentCipher.isSealedBytes bytes →
    cipher.openBytes crates bytes context = .ok opened → RYU_MAGICS.any (·.isPrefixOf opened.value) = false

/-- Bytes that start as the magic of some Ryu envelope does: `RYU-`, two capitals, two digits. -/
def ryuLike (bytes : Bytes) : Bool :=
  8 ≤ bytes.length && [82, 89, 85, 45].isPrefixOf bytes && ContentCipher.looksLikeRyuMagic (bytes.take 8)

theorem ryuLike_of_magic {bytes : Bytes} (starts : RYU_MAGICS.any (·.isPrefixOf bytes) = true) : ryuLike bytes = true := by
  obtain ⟨magic, member, starts⟩ := List.any_eq_true.mp starts
  obtain ⟨rest, rfl⟩ := List.isPrefixOf_iff_prefix.mp starts
  rcases List.mem_cons.mp member with rfl | member
  · rfl
  · rcases List.mem_cons.mp member with rfl | member
    · rfl
    · obtain rfl := List.mem_singleton.mp member
      rfl

/-- Bytes that are not taken for an envelope start with no magic. -/
theorem magics_of_openBytes_legacy {bytes : Bytes} {opened : OpenedBytes} (unsealed : ContentCipher.isSealedBytes bytes = false)
    (read : cipher.openBytes crates bytes context = .ok opened) :
    opened = ⟨bytes, bytes ≠ []⟩ ∧ RYU_MAGICS.any (·.isPrefixOf opened.value) = false := by
  rw [ContentCipher.openBytes, unsealed] at read
  simp only [Bool.false_eq_true, if_false] at read
  split at read
  · cases read
  · next unlike =>
    obtain rfl := Except.ok.inj read
    refine ⟨rfl, Bool.eq_false_iff.mpr fun starts => unlike ?_⟩
    exact ryuLike_of_magic starts

/-- A value that is not readable to the migration is none to a store with the key. -/
theorem resealValue_eq_unreadable (genuine : kind = .blob → stored.Genuine crates cipher context)
    (refused : resealValue crates cipher kind stored context nonce = .unreadable) :
    stored.reads crates cipher kind context = none := by
  rw [resealValue.eq_def] at refused
  split at refused
  · cases refused
  · cases kind with
    | text =>
      simp only at refused
      split at refused
      · next shown =>
        rw [Value.reads]
        simp only [shown, Option.bind_none]
      · next text shown =>
        split at refused
        · next error failed =>
          have plain : stripPrefix text COMPAT_ESCAPE = none := by
            cases stripped : stripPrefix text COMPAT_ESCAPE with
            | none => rfl
            | some rest =>
              rw [StoreSeal.eq_append_of_stripPrefix stripped] at failed
              cases (openText_escaped rest).symm.trans failed
          rw [Value.reads]
          simp only [shown, Option.bind_some, openText_sealing, plain, failed]
          rfl
        · split at refused <;> cases refused
    | blob =>
      simp only at refused
      split at refused
      · next shown =>
        rw [Value.reads]
        simp only [shown, Option.bind_none]
      · next bytes shown =>
        split at refused
        · next error failed =>
          rw [Value.reads]
          simp only [shown, Option.bind_some, failed]
          rfl
        · next opened read =>
          split at refused
          · split at refused
            · cases refused
            · next error failed =>
              have plain : RYU_MAGICS.any (·.isPrefixOf opened.value) = false := by
                cases sealed : ContentCipher.isSealedBytes bytes with
                | true => exact genuine rfl bytes opened shown sealed read
                | false => exact (magics_of_openBytes_legacy sealed read).2
              rw [ContentCipher.sealBytes, plain] at failed
              cases failed
          · cases refused

end Values

end RyuRooms.Crypto
