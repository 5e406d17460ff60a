import RyuRooms.Model.Seal

/-! # Sealed cells open to what was sealed

A cipher is lawful when its seals carry the envelope prefix and open, under the same context, to the
text that was sealed. A store whose cipher is lawful then reads back every cell it writes, in each of
its writable states; the escape of a keyless store is what makes that true of text that looks sealed.
-/

namespace RyuRooms

/-- What a cipher promises of its own seals. -/
structure ContentCipher.Lawful (cipher : ContentCipher) : Prop where
  sealed : ∀ nonce value context, isSealedText (cipher.sealText nonce value context)
  opens : ∀ nonce value context,
    cipher.openText (cipher.sealText nonce value context) context = .ok ⟨value, false⟩

namespace StoreSeal

/-- The cipher of a sealing store is lawful. -/
def Lawful : StoreSeal → Prop
  | .sealing cipher => cipher.Lawful
  | .compat | .unhealthy _ => True

variable {storeSeal : StoreSeal} {nonce : Nonce} {value cell : String} {context : ContentContext}

theorem stripPrefix_append (start rest : String) : stripPrefix (start ++ rest) start = some rest := by
  simp [stripPrefix, startsWith, String.toList_append]

theorem eq_append_of_stripPrefix {stored start rest : String} (stripped : stripPrefix stored start = some rest) :
    stored = start ++ rest := by
  simp only [stripPrefix, startsWith, Option.ite_none_right_eq_some, List.isPrefixOf_iff_prefix,
    Option.some.injEq] at stripped
  obtain ⟨⟨tail, starts⟩, rfl⟩ := stripped
  rw [← String.toList_inj, String.toList_append, String.toList_ofList, ← starts, List.drop_left]

theorem startsWith_iff {stored start : String} : startsWith stored start ↔ ∃ rest, stored = start ++ rest := by
  constructor
  · intro starts
    exact ⟨_, eq_append_of_stripPrefix (if_pos starts)⟩
  · rintro ⟨rest, rfl⟩
    simp [startsWith, String.toList_append]

/-- Neither the escape nor an envelope starts a text that does not start their common way. -/
theorem not_startsWith_of_family {start : String} (rest : String) (plain : startsWith value "encb:" = false)
    (family : start = "encb:" ++ rest) : startsWith value start = false := by
  rw [Bool.eq_false_iff] at plain ⊢
  intro starts
  obtain ⟨tail, rfl⟩ := startsWith_iff.mp starts
  exact plain (startsWith_iff.mpr ⟨rest ++ tail, by rw [family, String.append_assoc]⟩)

/-- An envelope is not an escaped text. -/
theorem stripPrefix_of_isSealedText (sealed : isSealedText cell) : stripPrefix cell COMPAT_ESCAPE = none := by
  obtain ⟨rest, rfl⟩ := startsWith_iff.mp sealed
  simp [stripPrefix, startsWith, CONTENT_TEXT_PREFIX, COMPAT_ESCAPE, String.toList_append]

theorem sealText_isOk_iff : (∃ cell, storeSeal.sealText nonce value context = .ok cell) ↔
    storeSeal.ensureWritable = .ok () := by
  cases storeSeal <;> simp [sealText, ensureWritable]

/-- What a lawful store seals it opens. -/
theorem openText_of_sealText (lawful : storeSeal.Lawful)
    (sealed : storeSeal.sealText nonce value context = .ok cell) : storeSeal.openText cell context = .ok value := by
  cases storeSeal with
  | unhealthy reason => cases sealed
  | sealing cipher =>
    obtain rfl := Except.ok.inj sealed
    rw [openText, openTextDetailed, stripPrefix_of_isSealedText (lawful.sealed nonce value context),
      lawful.opens]
    rfl
  | compat =>
    simp only [sealText, Except.ok.injEq] at sealed
    split at sealed
    · subst sealed
      rw [openText, openTextDetailed, stripPrefix_append]
      rfl
    · next plain =>
      subst sealed
      have unescaped : startsWith value COMPAT_ESCAPE = false :=
        not_startsWith_of_family "raw:" (Bool.eq_false_iff.mpr plain) rfl
      have unsealed : isSealedText value = false :=
        not_startsWith_of_family "v1:" (Bool.eq_false_iff.mpr plain) rfl
      simp [openText, openTextDetailed, stripPrefix, unescaped, unsealed, Except.map]

/-- How a cell holds a text under a context. -/
abbrev Form := String → String → ContentContext → Prop

/-- A store writes cells of a form, and reads no other text out of one. -/
structure Faithful (form : Form) (storeSeal : StoreSeal) : Prop where
  writes : ∀ nonce value context cell, storeSeal.sealText nonce value context = .ok cell → form cell value context
  reads : ∀ cell value context read, form cell value context → storeSeal.openText cell context = .ok read → read = value

/-- A lawful store is faithful to its own cells. -/
theorem Lawful.faithful (lawful : storeSeal.Lawful) :
    storeSeal.Faithful fun cell value context => ∃ nonce, storeSeal.sealText nonce value context = .ok cell where
  writes nonce _ _ _ sealed := ⟨nonce, sealed⟩
  reads _ _ _ _ := by
    rintro ⟨nonce, sealed⟩ opened
    exact Except.ok.inj (opened.symm.trans (openText_of_sealText lawful sealed))

end StoreSeal

end RyuRooms
