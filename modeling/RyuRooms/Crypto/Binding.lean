import RyuRooms.Model.Content

/-! # What a value is bound to

`associated_data` writes the length of every part before the part, so no two contexts of any two stores
encode to the same bytes.
-/

namespace RyuRooms.Crypto

open Foundation

theorem utf8_inj {left right : String} : utf8 left = utf8 right ↔ left = right := by
  rw [utf8, utf8, Array.toList_inj, ← ByteArray.ext_iff, String.toByteArray_inj]

theorem length_part (bytes : Bytes) : (part bytes).length = 8 + bytes.length := by
  rw [part, List.length_append, length_bigEndian]

/-- A part is told apart from what follows it. -/
theorem part_append_inj {left right restLeft restRight : Bytes} (fits : (part left ++ restLeft).length < 2 ^ 64)
    (same : part left ++ restLeft = part right ++ restRight) : left = right ∧ restLeft = restRight := by
  have total := congrArg List.length same
  rw [List.length_append, length_part, List.length_append, length_part] at total
  rw [List.length_append, length_part] at fits
  rw [part, part, List.append_assoc, List.append_assoc] at same
  obtain ⟨lengths, rest⟩ := List.append_inj same (by rw [length_bigEndian, length_bigEndian])
  rw [bigEndian_inj (by omega) (by omega)] at lengths
  exact List.append_inj rest lengths

/-- The bytes of labelled ids. -/
def fieldsBytes (fields : List (String × String)) : Bytes :=
  fields.flatMap fun field => part (utf8 field.1) ++ part (utf8 field.2)

theorem fieldsBytes_cons_ne_nil (field : String × String) (fields : List (String × String)) :
    fieldsBytes (field :: fields) ≠ [] := by
  intro empty
  have total := congrArg List.length empty
  rw [fieldsBytes, List.flatMap_cons, List.length_append, List.length_append, length_part, List.length_nil] at total
  omega

theorem fieldsBytes_inj {left right : List (String × String)} (fits : (fieldsBytes left).length < 2 ^ 64)
    (same : fieldsBytes left = fieldsBytes right) : left = right := by
  induction left generalizing right with
  | nil =>
    cases right with
    | nil => rfl
    | cons field fields => exact absurd same.symm (fieldsBytes_cons_ne_nil field fields)
  | cons field fields ih =>
    cases right with
    | nil => exact absurd same (fieldsBytes_cons_ne_nil field fields)
    | cons other others =>
      simp only [fieldsBytes, List.flatMap_cons, List.append_assoc] at same fits
      obtain ⟨labels, same⟩ := part_append_inj fits same
      rw [List.length_append] at fits
      obtain ⟨values, same⟩ := part_append_inj (by omega) same
      rw [List.length_append] at fits
      rw [ih (by rw [fieldsBytes]; omega) same, Prod.ext (utf8_inj.mp labels) (utf8_inj.mp values)]

/-- An owner, a purpose and labelled ids are told apart by their parts. -/
theorem bound_inj {label kind word : Bytes} {owner otherOwner purpose otherPurpose : String}
    {fields otherFields : List (String × String)}
    (fits : (part label ++ part kind ++ part (utf8 owner) ++ part word ++ part (utf8 purpose) ++
      fieldsBytes fields).length < 2 ^ 64)
    (same : part label ++ part kind ++ part (utf8 owner) ++ part word ++ part (utf8 purpose) ++ fieldsBytes fields =
      part label ++ part kind ++ part (utf8 otherOwner) ++ part word ++ part (utf8 otherPurpose) ++
        fieldsBytes otherFields) : owner = otherOwner ∧ purpose = otherPurpose ∧ fields = otherFields := by
  simp only [List.append_assoc] at same fits
  obtain ⟨-, same⟩ := part_append_inj fits same
  rw [List.length_append] at fits
  obtain ⟨-, same⟩ := part_append_inj (by omega) same
  rw [List.length_append] at fits
  obtain ⟨owners, same⟩ := part_append_inj (by omega) same
  rw [List.length_append] at fits
  obtain ⟨-, same⟩ := part_append_inj (by omega) same
  rw [List.length_append] at fits
  obtain ⟨purposes, same⟩ := part_append_inj (by omega) same
  rw [List.length_append] at fits
  exact ⟨utf8_inj.mp owners, utf8_inj.mp purposes, fieldsBytes_inj (by omega) same⟩

/-- A context and a store are known by their associated data. -/
theorem associatedData_inj {left right : ContentContext} {leftStore rightStore : String}
    (fits : (left.associatedData leftStore).length < 2 ^ 64)
    (same : left.associatedData leftStore = right.associatedData rightStore) :
    left = right ∧ leftStore = rightStore := by
  obtain ⟨stores, purposes, fields⟩ := bound_inj fits same
  cases left
  cases right
  rw [ContentContext.mk.injEq]
  exact ⟨⟨purposes, fields⟩, stores⟩

/-- A context and a tenant are known by their associated data. -/
theorem SealContext.associatedData_inj {left right : SealContext} {leftTenant rightTenant : String}
    (fits : (left.associatedData leftTenant).length < 2 ^ 64)
    (same : left.associatedData leftTenant = right.associatedData rightTenant) :
    left = right ∧ leftTenant = rightTenant := by
  obtain ⟨tenants, purposes, fields⟩ := bound_inj fits same
  cases left
  cases right
  rw [SealContext.mk.injEq]
  exact ⟨⟨purposes, fields⟩, tenants⟩

end RyuRooms.Crypto
