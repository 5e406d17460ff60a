import RyuRooms.Crypto.Binding
import RyuRooms.Crypto.Migration

/-! # Values that were written before a key was there

A keyless store stores its values as they are, or escaped, and a store with the key reads them before the
migration and after it. Texts survive this whatever they look like; a BLOB that a keyless store accepts does
unless it starts as the magic of some Ryu envelope, of which the keyless store looks only for one.
-/

namespace RyuRooms.Crypto

open Foundation

/-- A migration of a planned column that was complete, after any calls on the store. -/
def Completed (crates : Crates) (cipher : ContentCipher) (plan : ColumnPlan) (before after : Disk) : Prop :=
  ∃ (plans chosen : List ColumnPlan) (calls : List (Environment × StoreCall)) (env : Environment) (point : ℕ)
    (report : MigrationReport) (world : World),
    Unmigrated crates cipher plans before ∧ (∀ call ∈ calls, call.2.plans ⊆ plans) ∧ chosen ⊆ plans ∧ plan ∈ chosen ∧
      migrateColumns crates env cipher chosen ⟨runCalls crates cipher calls before, point⟩ = .ok report world ∧
      world.disk = after

section Rows

variable {crates : Crates} {cipher : ContentCipher} {plan : ColumnPlan} {before after : Disk} {row : Row} {plain : Bytes}

theorem exists_right_of_forall₂ {α β : Type} {related : α → β → Prop} {olds : List α} {news : List β}
    (all : List.Forall₂ related olds news) : ∀ old ∈ olds, ∃ new ∈ news, related old new :=
  fun old member => exists_of_forall₂ all.flip old member

/-- A row that was readable opens to the same after the migration, as a value of the kind of its column. -/
theorem Completed.opens (opens : crates.Opens) (decodes : crates.Decodes) (completed : Completed crates cipher plan before after)
    (member : row ∈ (before.columns plan.item).rows) (kind : row.value.IsOf plan.kind)
    (reads : row.reads crates cipher plan = some plain) : ∃ new ∈ (after.columns plan.item).rows, new.key = row.key ∧
      new.value.IsOf plan.kind ∧ new.value.OpensTo crates cipher plan.kind (plan.contextFor row) plain := by
  obtain ⟨plans, chosen, calls, env, point, report, world, unmigrated, among, chosenAmong, planMember, returned, rfl⟩ := completed
  have rows := migrated_of_returned opens decodes unmigrated among chosenAmong returned plan planMember
  obtain ⟨new, newMember, migrated⟩ := exists_right_of_forall₂ rows row member
  refine ⟨new, newMember, migrated.key, migrated.kind.elim (fun same => same ▸ kind) id, ?_⟩
  have context : plan.contextFor new = plan.contextFor row := by
    rw [ColumnPlan.contextFor, ColumnPlan.contextFor, migrated.key, migrated.extras]
  exact context ▸ migrated.opens plain reads

end Rows

section Texts

variable {crates : Crates} {cipher : ContentCipher} {plan : ColumnPlan} {before after : Disk} {row : Row} {value cell : String}
  {context : ContentContext} {nonce : RyuRooms.Nonce}

/-- A store with the key reads what a keyless store wrote. -/
theorem openText_of_compat (wrote : RyuRooms.StoreSeal.compat.sealText nonce value context = .ok cell) :
    (RyuRooms.StoreSeal.sealing (cipher.text crates)).openText cell context = .ok value := by
  rw [RyuRooms.StoreSeal.openText, RyuRooms.StoreSeal.openTextDetailed]
  simp only [RyuRooms.StoreSeal.sealText, Except.ok.injEq] at wrote
  split at wrote
  · subst wrote
    rw [StoreSeal.stripPrefix_append]
    rfl
  · next plain =>
    subst wrote
    have plain := Bool.eq_false_iff.mpr plain
    have unescaped : stripPrefix value COMPAT_ESCAPE = none :=
      if_neg (ne_true_of_eq_false (StoreSeal.not_startsWith_of_family "raw:" plain rfl))
    have unsealed : stripPrefix value CONTENT_TEXT_PREFIX = none :=
      if_neg (ne_true_of_eq_false (StoreSeal.not_startsWith_of_family "v1:" plain rfl))
    have opened : cipher.openText crates value context = .ok ⟨value, value ≠ ""⟩ := by
      rw [ContentCipher.openText, unsealed]
      simp only [CONTENT_TEXT_FAMILY, plain, Bool.false_and, Bool.false_eq_true, if_false]
    rw [unescaped]
    change ((((cipher.openText crates value context).mapError ContentSealError.display).map
      fun opened => (opened.value, opened.needsReseal)).map Prod.fst) = _
    rw [opened]
    rfl

/-- A store without the key reads what it wrote, healthy or not. -/
theorem openText_unhealthy (reason : String) (wrote : RyuRooms.StoreSeal.compat.sealText nonce value context = .ok cell) :
    (RyuRooms.StoreSeal.unhealthy reason).openText cell context = .ok value :=
  @StoreSeal.openText_of_sealText .compat nonce value cell context trivial wrote

/-- A store with the key reads what the migration made of a text that it read before. -/
theorem Completed.openText (opens : crates.Opens) (decodes : crates.Decodes) (completed : Completed crates cipher plan before after)
    (kind : plan.kind = .text) (member : row ∈ (before.columns plan.item).rows) (held : row.value = .text cell)
    (here : plan.contextFor row = context)
    (read : (RyuRooms.StoreSeal.sealing (cipher.text crates)).openText cell context = .ok value) :
    ∃ new ∈ (after.columns plan.item).rows, new.key = row.key ∧ ∃ stored, new.value = .text stored ∧
      (RyuRooms.StoreSeal.sealing (cipher.text crates)).openText stored context = .ok value := by
  have reads : row.reads crates cipher plan = some (utf8 value) := by
    rw [Row.reads, held, kind, here, Value.reads]
    simp only [Value.asText, Option.bind_some, read]
    rfl
  have text : row.value.IsOf plan.kind := by
    rw [held, kind]
    exact ⟨cell, rfl⟩
  obtain ⟨new, newMember, key, isText, opened⟩ := completed.opens opens decodes member text reads
  rw [kind] at isText
  obtain ⟨stored, shown⟩ := isText
  refine ⟨new, newMember, key, stored, shown, ?_⟩
  have again := OpensTo.reads opened
  rw [kind, here, shown, Value.reads] at again
  simp only [Value.asText, Option.bind_some] at again
  cases opened : (RyuRooms.StoreSeal.sealing (cipher.text crates)).openText stored context with
  | error message =>
    rw [opened] at again
    cases again
  | ok other =>
    rw [opened] at again
    rw [utf8_inj.mp (Option.some.inj again)]

/-- Every text is read back as it was written: by the store that wrote it, sealing or keyless, and what a keyless
store wrote also by a store with the key, before the migration and after it, and by an unhealthy store. -/
theorem text_readsBack (opens : crates.Opens) (decodes : crates.Decodes) (cipher : ContentCipher) (reason value : String)
    (context : ContentContext) :
    (∀ storeSeal : StoreSeal, storeSeal = .sealing cipher ∨ storeSeal = .compat → ∀ nonce, ∃ cell,
      (storeSeal.text crates).sealText nonce value context = .ok cell ∧
        (storeSeal.text crates).openText cell context = .ok value) ∧
    ∀ nonce cell, (StoreSeal.compat.text crates).sealText nonce value context = .ok cell →
      ((StoreSeal.sealing cipher).text crates).openText cell context = .ok value ∧
      ((StoreSeal.unhealthy reason).text crates).openText cell context = .ok value ∧
      ∀ plan before after, plan.kind = .text → Completed crates cipher plan before after →
        ∀ row ∈ (before.columns plan.item).rows, row.value = .text cell → plan.contextFor row = context →
          ∃ new ∈ (after.columns plan.item).rows, new.key = row.key ∧ ∃ stored, new.value = .text stored ∧
            ((StoreSeal.sealing cipher).text crates).openText stored context = .ok value := by
  refine ⟨fun storeSeal mode nonce => ?_, fun nonce cell wrote => ⟨openText_of_compat wrote, openText_unhealthy reason wrote, ?_⟩⟩
  · rcases mode with rfl | rfl
    · exact ⟨_, rfl, @StoreSeal.openText_of_sealText (.sealing (cipher.text crates)) nonce value _ context
        (lawful_text opens decodes) rfl⟩
    · exact ⟨_, rfl, @StoreSeal.openText_of_sealText .compat nonce value _ context trivial rfl⟩
  · intro plan before after kind completed row member held here
    exact completed.openText opens decodes kind member held here (openText_of_compat wrote)

end Texts

section Blobs

variable {crates : Crates} {cipher : ContentCipher} {plan : ColumnPlan} {before after : Disk} {row : Row} {value cell : Bytes}
  {context : ContentContext} {nonce : Nonce}

theorem sealing_openBytes_iff : (StoreSeal.sealing cipher).openBytes crates cell context = .ok value ↔
    ∃ needsReseal, cipher.openBytes crates cell context = .ok ⟨value, needsReseal⟩ := by
  rw [StoreSeal.openBytes, mapError_eq_ok_iff]
  cases cipher.openBytes crates cell context with
  | error error => exact iff_of_false (fun read => by cases read) fun ⟨_, read⟩ => by cases read
  | ok opened =>
    obtain ⟨other, needsReseal⟩ := opened
    constructor
    · intro read
      obtain rfl : other = value := Except.ok.inj read
      exact ⟨needsReseal, rfl⟩
    · rintro ⟨again, read⟩
      exact congrArg Except.ok (OpenedBytes.mk.inj (Except.ok.inj read)).1

/-- The store that wrote a BLOB reads it back. -/
theorem openBytes_of_sealBytes (opens : crates.Opens) {storeSeal : StoreSeal}
    (wrote : storeSeal.sealBytes crates nonce value context = .ok cell) :
    storeSeal.openBytes crates cell context = .ok value := by
  cases storeSeal with
  | unhealthy reason => cases wrote
  | compat =>
    rw [StoreSeal.sealBytes] at wrote
    split at wrote
    · cases wrote
    · next unsealed =>
      obtain rfl := Except.ok.inj wrote
      exact if_neg unsealed
  | sealing cipher =>
    exact sealing_openBytes_iff.mpr ⟨false, openBytes_sealBytes opens (mapError_eq_ok_iff.mp wrote)⟩

/-- A BLOB that starts as no envelope is read as it is. -/
theorem openBytes_of_unlike (unsealed : ContentCipher.isSealedBytes value = false) (unlike : ryuLike value = false) :
    cipher.openBytes crates value context = .ok ⟨value, value ≠ []⟩ := by
  rw [ContentCipher.openBytes, unsealed, ← ryuLike, unlike]
  rfl

/-- A store with the key reads what the migration made of a BLOB that it read before. -/
theorem Completed.openBytes (opens : crates.Opens) (decodes : crates.Decodes) (completed : Completed crates cipher plan before after)
    (kind : plan.kind = .blob) (member : row ∈ (before.columns plan.item).rows) (held : row.value = .blob cell)
    (here : plan.contextFor row = context) (read : (StoreSeal.sealing cipher).openBytes crates cell context = .ok value) :
    ∃ new ∈ (after.columns plan.item).rows, new.key = row.key ∧ ∃ stored, new.value = .blob stored ∧
      (StoreSeal.sealing cipher).openBytes crates stored context = .ok value := by
  have reads : row.reads crates cipher plan = some value := by
    rw [Row.reads, held, kind, here, Value.reads]
    obtain ⟨needsReseal, opened⟩ := sealing_openBytes_iff.mp read
    simp only [Value.asBytes, Option.bind_some, opened]
    rfl
  have blob : row.value.IsOf plan.kind := by
    rw [held, kind]
    exact ⟨cell, rfl⟩
  obtain ⟨new, newMember, key, isBlob, opened⟩ := completed.opens opens decodes member blob reads
  rw [kind] at isBlob opened
  obtain ⟨stored, shown⟩ := isBlob
  obtain ⟨bytes, same, opened⟩ := opened
  rw [shown] at same
  obtain rfl := Option.some.inj same
  rw [here] at opened
  exact ⟨new, newMember, key, stored, shown, sealing_openBytes_iff.mpr ⟨false, opened⟩⟩

variable (crates cipher value context) in
/-- A BLOB is read back by the store that wrote it, and if a keyless store wrote it also by a store with the key,
before the migration and after it. -/
def BlobReadsBack : Prop :=
  (∀ (storeSeal : StoreSeal) (nonce : Nonce) cell, storeSeal.sealBytes crates nonce value context = .ok cell →
    storeSeal.openBytes crates cell context = .ok value) ∧
  ∀ (nonce : Nonce) cell, StoreSeal.compat.sealBytes crates nonce value context = .ok cell →
    (StoreSeal.sealing cipher).openBytes crates cell context = .ok value ∧
    ∀ plan before after, plan.kind = .blob → Completed crates cipher plan before after →
      ∀ row ∈ (before.columns plan.item).rows, row.value = .blob cell → plan.contextFor row = context →
        ∃ new ∈ (after.columns plan.item).rows, new.key = row.key ∧ ∃ stored, new.value = .blob stored ∧
          (StoreSeal.sealing cipher).openBytes crates stored context = .ok value

theorem compat_sealBytes (unsealed : ContentCipher.isSealedBytes value = false) :
    StoreSeal.compat.sealBytes crates nonce value context = .ok value := by
  rw [StoreSeal.sealBytes, unsealed]
  rfl

/-- A store with the key refuses a BLOB that starts as another envelope. -/
theorem openBytes_of_ryuLike (unsealed : ContentCipher.isSealedBytes value = false) (like : ryuLike value) :
    cipher.openBytes crates value context = .error .unknownVersion := by
  rw [ContentCipher.openBytes, unsealed, ← ryuLike, like]
  rfl

/-- A BLOB is read back exactly when a keyless store refuses it or it starts as no envelope. -/
theorem blobReadsBack_iff (opens : crates.Opens) (decodes : crates.Decodes) :
    BlobReadsBack crates cipher value context ↔ (ContentCipher.isSealedBytes value ∨ ryuLike value = false) := by
  constructor
  · intro back
    by_contra neither
    obtain ⟨unsealed, like⟩ := not_or.mp neither
    have unsealed := Bool.eq_false_iff.mpr unsealed
    have read := (back.2 ⟨List.replicate 12 0, rfl⟩ value (compat_sealBytes unsealed)).1
    rw [StoreSeal.openBytes, openBytes_of_ryuLike unsealed (Bool.not_eq_false _ ▸ like)] at read
    cases read
  · intro fits
    refine ⟨fun storeSeal nonce cell wrote => openBytes_of_sealBytes opens wrote, fun nonce cell wrote => ?_⟩
    rw [StoreSeal.sealBytes] at wrote
    split at wrote
    · cases wrote
    · next unsealed =>
      obtain rfl := Except.ok.inj wrote
      have opened := @openBytes_of_unlike crates cipher value context (Bool.eq_false_iff.mpr unsealed)
        (fits.resolve_left unsealed)
      have read : (StoreSeal.sealing cipher).openBytes crates value context = .ok value := by
        rw [StoreSeal.openBytes, opened]
        rfl
      refine ⟨read, fun plan before after kind completed row member held here => ?_⟩
      exact completed.openBytes opens decodes kind member held here read

/-- A keyless store accepts what looks as the start of a sealed file, which no store with a key reads. -/
theorem not_blobReadsBack_sealedFile :
    ¬ BlobReadsBack Sample.crates Sample.cipher (SEALED_FILE_MAGIC ++ [1, 2, 3]) Sample.context := by
  intro back
  have read := (back.2 Sample.nonce _ rfl).1
  cases read

/-- A magic that misses its last digit is read back, and one that the keyless store knows it refuses. -/
theorem blobReadsBack_iff_magics :
    BlobReadsBack Sample.crates Sample.cipher (SEALED_FILE_MAGIC.take 7 ++ [120, 1, 2, 3]) Sample.context ∧
      BlobReadsBack Sample.crates Sample.cipher (CONTENT_BYTES_MAGIC ++ [1, 2, 3]) Sample.context :=
  ⟨(blobReadsBack_iff Sample.opens Sample.decodes).mpr (.inr rfl),
    (blobReadsBack_iff Sample.opens Sample.decodes).mpr (.inl rfl)⟩

end Blobs

section Samples

/-- The store whose messages hold the text `encb:raw:encb:v1:` only, as a keyless store wrote it. -/
def Sample.escaped : Disk :=
  { Sample.disk none with
    columns := fun item =>
      if item = Sample.messages.item then
        ⟨[⟨.integer 2, .text "encb:raw:encb:raw:encb:v1:", []⟩], List.pairwise_singleton _ _⟩
      else (Sample.disk none).columns item }

theorem Sample.unmigrated_escaped : Unmigrated Sample.crates Sample.cipher [Sample.messages] Sample.escaped where
  distinct := List.nodup_singleton _
  keyed plan member row rowMember := by
    obtain rfl := List.mem_singleton.mp member
    obtain rfl := List.mem_singleton.mp rowMember
    exact ⟨2, rfl, by decide⟩
  genuine plan member blob := by
    obtain rfl := List.mem_singleton.mp member
    cases blob
  items _ _ := rfl
  traces := rfl

/-- The store is migrated in one run. -/
theorem Sample.completed_escaped : ∃ after, Completed Sample.crates Sample.cipher Sample.messages Sample.escaped after := by
  have among : ∀ call ∈ ([] : List (Environment × StoreCall)), call.2.plans ⊆ [messages] := fun call member => by
    cases member
  have free : ¬ Blocked fair cipher (runCalls crates cipher [] escaped) := by
    rintro (⟨point, stop, stops⟩ | ⟨point, off⟩ | ⟨row, recorded, -⟩ | ⟨row, kcv, recorded, -⟩)
    · cases stops
    · exact off rfl
    · cases recorded
    · cases recorded
  obtain ⟨report, world, returned⟩ := @migrateColumns_returns _ _ _ _ [] _ _ 0 opens decodes unmigrated_escaped among
    (List.Subset.refl _) free
  exact ⟨world.disk, _, _, _, _, _, _, _, unmigrated_escaped, among, List.Subset.refl _, List.mem_cons_self, returned, rfl⟩

/-- What a keyless store made of a text that looks as an escaped envelope is read by an unhealthy store, and once it
is migrated by a store with the key. -/
theorem text_readsBack_escape :
    let value := "encb:raw:encb:v1:"
    let context : ContentContext := .forId "messages.body" "2"
    ((StoreSeal.unhealthy "locked").text Sample.crates).openText "encb:raw:encb:raw:encb:v1:" context = .ok value ∧
      ∃ after, Completed Sample.crates Sample.cipher Sample.messages Sample.escaped after ∧
        ∃ new ∈ (after.columns Sample.messages.item).rows, new.key = .integer 2 ∧ ∃ stored, new.value = .text stored ∧
          ((StoreSeal.sealing Sample.cipher).text Sample.crates).openText stored context = .ok value := by
  intro value context
  have family : startsWith value "encb:" = true := by decide +kernel
  have wrote : (StoreSeal.compat.text Sample.crates).sealText 0 value context = .ok "encb:raw:encb:raw:encb:v1:" :=
    congrArg Except.ok (if_pos family)
  obtain ⟨-, unhealthy, migrated⟩ := (text_readsBack Sample.opens Sample.decodes Sample.cipher "locked" value context).2 0 _ wrote
  obtain ⟨after, completed⟩ := Sample.completed_escaped
  exact ⟨unhealthy, after, completed, migrated Sample.messages _ after rfl completed _ List.mem_cons_self rfl rfl⟩

end Samples

end RyuRooms.Crypto
