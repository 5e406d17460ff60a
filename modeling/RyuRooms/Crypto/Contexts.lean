import RyuRooms.Crypto.Binding
import RyuRooms.Crypto.Reseal

/-! # What opens belongs where it is opened

Everything that was sealed is a list of seals. Under an ideal AEAD nothing else opens and no two of them gave the
same blob, so a value opens only with the store and the context it was sealed for, whatever keys a cipher holds.
-/

namespace RyuRooms.Crypto

open Foundation

/-- What an ideal AEAD promises of everything that was sealed: nothing else opens, and no two seals gave one blob. -/
structure Crates.Authentic (crates : Crates) (made : List Seal) : Prop where
  opensOnly : ∀ key nonce ciphertext aad message, crates.decrypt key nonce ciphertext aad = some message →
    (⟨key, nonce, message, aad⟩ : Seal) ∈ made ∧ (⟨key, nonce, message, aad⟩ : Seal).ciphertext crates = ciphertext
  distinct : (made.map fun entry => (entry.nonce, entry.ciphertext crates)).Nodup

section Opening

variable {crates : Crates} {made : List Seal} {sealer opener : ContentCipher} {context other : ContentContext} {nonce : Nonce}

/-- A blob that opens was decrypted with one of the keys. -/
theorem openBlob_eq_ok {blob plain : Bytes} {retired : Bool} (opened : opener.openBlob crates blob other = .ok (plain, retired)) :
    ∃ candidate ∈ opener.candidateKeys, crates.decrypt candidate.1.key (blob.take NONCE_LEN) (blob.drop NONCE_LEN)
      (other.associatedData opener.store) = some plain := by
  obtain ⟨candidate, member, tried⟩ := List.exists_of_findSome?_eq_some (elim_eq_ok_iff.mp opened)
  obtain ⟨message, decrypted, same⟩ := Option.map_eq_some_iff.mp tried
  obtain ⟨rfl, -⟩ := Prod.mk.inj same
  exact ⟨candidate, member, decrypted⟩

/-- The blob of a seal opens only as that seal. -/
theorem openBlob_only (authentic : crates.Authentic made) {message plain : Bytes} {retired : Bool}
    (fits : (context.associatedData sealer.store).length < 2 ^ 64)
    (sealed : (⟨sealer.current.key, nonce, message, context.associatedData sealer.store⟩ : Seal) ∈ made)
    (opened : opener.openBlob crates (nonce ++ crates.encrypt sealer.current.key nonce message
      (context.associatedData sealer.store)) other = .ok (plain, retired)) :
    (other = context ∧ opener.store = sealer.store) ∧ plain = message := by
  obtain ⟨candidate, -, decrypted⟩ := openBlob_eq_ok opened
  rw [List.take_left' (show nonce.1.length = NONCE_LEN from nonce.2),
    List.drop_left' (show nonce.1.length = NONCE_LEN from nonce.2)] at decrypted
  obtain ⟨known, ciphertext⟩ := authentic.opensOnly _ _ _ _ _ decrypted
  have same := List.inj_on_of_nodup_map authentic.distinct known sealed (Prod.ext rfl ciphertext)
  obtain ⟨-, -, messages, aads⟩ := Seal.mk.injEq .. ▸ same
  obtain ⟨contexts, stores⟩ := associatedData_inj fits aads.symm
  exact ⟨⟨contexts.symm, stores.symm⟩, messages⟩

/-- A text opens only with the store and the context it was sealed for. -/
theorem openText_only (decodes : crates.Decodes) (authentic : crates.Authentic made) {value : String} {plain : Opened}
    (fits : (context.associatedData sealer.store).length < 2 ^ 64)
    (sealed : (⟨sealer.current.key, nonce, utf8 value, context.associatedData sealer.store⟩ : Seal) ∈ made)
    (opened : opener.openText crates (sealer.sealText crates nonce value context) other = .ok plain) :
    (other = context ∧ opener.store = sealer.store) ∧ plain.value = value := by
  rw [ContentCipher.openText, ContentCipher.sealText, StoreSeal.stripPrefix_append] at opened
  simp only [decodes _] at opened
  split at opened
  · cases opened
  · split at opened
    · cases opened
    · next bytes retired decrypted =>
      obtain ⟨bound, rfl⟩ := openBlob_only authentic fits sealed decrypted
      rw [fromUtf8_utf8] at opened
      exact ⟨bound, (Opened.mk.inj (Except.ok.inj opened)).1.symm⟩

/-- Bytes open only with the store and the context they were sealed for. -/
theorem openBytes_only (authentic : crates.Authentic made) {value stored : Bytes} {plain : OpenedBytes}
    (fits : (context.associatedData sealer.store).length < 2 ^ 64)
    (sealed : (⟨sealer.current.key, nonce, value, context.associatedData sealer.store⟩ : Seal) ∈ made)
    (wrote : sealer.sealBytes crates nonce value context = .ok stored)
    (opened : opener.openBytes crates stored other = .ok plain) :
    (other = context ∧ opener.store = sealer.store) ∧ plain.value = value := by
  rw [ContentCipher.sealBytes] at wrote
  split at wrote
  · cases wrote
  · obtain rfl := Except.ok.inj wrote
    have magic : ContentCipher.isSealedBytes (CONTENT_BYTES_MAGIC ++ nonce.1 ++
        crates.encrypt sealer.current.key nonce value (context.associatedData sealer.store)) = true := by
      rw [ContentCipher.isSealedBytes, List.isPrefixOf_iff_prefix, List.append_assoc]
      exact List.prefix_append _ _
    rw [ContentCipher.openBytes, if_pos magic, List.append_assoc, List.drop_left] at opened
    simp only at opened
    split at opened
    · cases opened
    · split at opened
      · cases opened
      · next bytes retired decrypted =>
        obtain ⟨bound, rfl⟩ := openBlob_only authentic fits sealed decrypted
        exact ⟨bound, (OpenedBytes.mk.inj (Except.ok.inj opened)).1.symm⟩

end Opening

/-- Contexts of stores and of tenants are told apart by their associated data, and a value opens only with the store
and the context it was sealed for. -/
theorem contexts_bind :
    (∀ (left right : ContentContext) (leftStore rightStore : String), (left.associatedData leftStore).length < 2 ^ 64 →
      left.associatedData leftStore = right.associatedData rightStore → left = right ∧ leftStore = rightStore) ∧
    (∀ (left right : SealContext) (leftTenant rightTenant : String), (left.associatedData leftTenant).length < 2 ^ 64 →
      left.associatedData leftTenant = right.associatedData rightTenant → left = right ∧ leftTenant = rightTenant) ∧
    ∀ (crates : Crates) (made : List Seal), crates.Decodes → crates.Authentic made →
      ∀ (sealer opener : ContentCipher) (context other : ContentContext) (nonce : Nonce),
        (context.associatedData sealer.store).length < 2 ^ 64 →
        (∀ value plain, (⟨sealer.current.key, nonce, utf8 value, context.associatedData sealer.store⟩ : Seal) ∈ made →
          opener.openText crates (sealer.sealText crates nonce value context) other = .ok plain →
            (other = context ∧ opener.store = sealer.store) ∧ plain.value = value) ∧
        ∀ value stored plain, (⟨sealer.current.key, nonce, value, context.associatedData sealer.store⟩ : Seal) ∈ made →
          sealer.sealBytes crates nonce value context = .ok stored →
            opener.openBytes crates stored other = .ok plain →
              (other = context ∧ opener.store = sealer.store) ∧ plain.value = value :=
  ⟨fun _ _ _ _ fits same => associatedData_inj fits same,
    fun _ _ _ _ fits same => SealContext.associatedData_inj fits same,
    fun _ _ decodes authentic _ _ _ _ _ fits =>
      ⟨fun _ _ sealed opened => openText_only decodes authentic fits sealed opened,
        fun _ _ _ sealed wrote opened => openBytes_only authentic fits sealed wrote opened⟩⟩

namespace Sample

/-- The seal of a text in a cell. -/
def cellSeal : Seal := ⟨cipher.current.key, nonce, utf8 "x", (ContentContext.forId "a.b" "1").associatedData "rooms.db"⟩

/-- The toy cipher of a world in which one text was sealed. -/
def cellCrates : Crates :=
  { crates with
    decrypt := fun key nonce ciphertext aad =>
      if key = cellSeal.key ∧ nonce = cellSeal.nonce ∧ aad = cellSeal.aad ∧
        ciphertext = encrypt cellSeal.key cellSeal.nonce cellSeal.message cellSeal.aad then some cellSeal.message else none }

theorem cellCrates_authentic : cellCrates.Authentic [cellSeal] where
  opensOnly key nonce_ ciphertext aad message decrypted := by
    obtain ⟨⟨rfl, rfl, rfl, rfl⟩, same⟩ := Option.ite_none_right_eq_some.mp decrypted
    obtain rfl := Option.some.inj same
    exact ⟨List.mem_singleton_self _, rfl⟩
  distinct := List.nodup_singleton _

end Sample

/-- A text of the cell `1` of the column `a.b` opens there, and its parts told another way do not open it. -/
theorem contexts_bind_cell :
    let stored := Sample.cipher.sealText Sample.cellCrates Sample.nonce "x" (.forId "a.b" "1")
    Sample.cipher.openText Sample.cellCrates stored (.forId "a.b" "1") = .ok ⟨"x", false⟩ ∧
      (∀ plain, Sample.cipher.openText Sample.cellCrates stored (.forId "a" "b1") ≠ .ok plain) ∧
      (ContentContext.forId "a.b" "1").associatedData "rooms.db" ≠ (ContentContext.forId "a" "b1").associatedData "rooms.db" := by
  obtain ⟨stores, -, values⟩ := contexts_bind
  have fits : ((ContentContext.forId "a.b" "1").associatedData "rooms.db").length < 2 ^ 64 := by decide +kernel
  have apart : ContentContext.forId "a" "b1" ≠ ContentContext.forId "a.b" "1" := by decide
  refine ⟨by decide +kernel, fun plain opened => ?_, fun same => ?_⟩
  · obtain ⟨texts, -⟩ := values Sample.cellCrates [Sample.cellSeal] Sample.decodes Sample.cellCrates_authentic Sample.cipher
      Sample.cipher (.forId "a.b" "1") (.forId "a" "b1") Sample.nonce fits
    exact apart (texts "x" plain (List.mem_singleton_self _) opened).1.1
  · exact apart (stores _ _ _ _ fits same).1.symm

end RyuRooms.Crypto
