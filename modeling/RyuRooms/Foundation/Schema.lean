import RyuRooms.Foundation.Json

/-! # Schemas of JSON values

A schema takes the value under a key, or none where the key is missing, and makes something of it or
refuses it. Each combinator has the lemma that reads back what was written.
-/

namespace RyuRooms.Foundation

namespace Json

/-- The value under a key; of equal keys the last one counts. -/
def get? (key : String) : Json → Option Json
  | obj fields => (fields.reverse.find? (·.1 == key)).map Prod.snd
  | null | bool _ | num _ | str _ | arr _ => none

section Lookup

variable {fields : List (String × Json)} {key : String} {value : Json}

theorem get?_obj (distinct : (fields.map Prod.fst).Nodup) (member : (key, value) ∈ fields) :
    (obj fields).get? key = some value := by
  have named : fields.reverse.find? (·.1 == key) = some (key, value) := by
    cases found : fields.reverse.find? (·.1 == key) with
    | none => simpa using List.find?_eq_none.mp found (key, value) (List.mem_reverse.mpr member)
    | some other =>
      have there : other ∈ fields := List.mem_reverse.mp (List.mem_of_find?_eq_some found)
      have same : other.1 = key := by simpa using List.find?_some found
      rw [List.inj_on_of_nodup_map distinct there member same]
  rw [get?, named, Option.map_some]

theorem get?_obj_eq_none (absent : key ∉ fields.map Prod.fst) : (obj fields).get? key = none := by
  rw [get?, Option.map_eq_none_iff, List.find?_eq_none]
  intro field member same
  exact absent (List.mem_map.mpr ⟨field, List.mem_reverse.mp member, by simpa using same⟩)

/-- The order in which the keys are written does not matter. -/
theorem get?_object (distinct : (fields.map Prod.fst).Nodup) : (object fields).get? key = fields.lookup key := by
  have sorted := List.perm_insertionSort (fun left right : String × Json => left.1 ≤ right.1) fields
  cases found : fields.lookup key with
  | none =>
    refine get?_obj_eq_none fun member => ?_
    obtain ⟨field, listed, same⟩ := List.mem_map.mp ((sorted.map Prod.fst).mem_iff.mp member)
    exact absurd same.symm (by simpa using List.lookup_eq_none_iff.mp found field listed)
  | some value =>
    obtain ⟨before, after, rfl, -⟩ := List.lookup_eq_some_iff.mp found
    exact get?_obj ((sorted.map Prod.fst).nodup_iff.mpr distinct) (sorted.mem_iff.mpr (by simp))

end Lookup

end Json

/-- What a schema makes of a value, if it takes it. -/
abbrev Schema (α : Type) := Option Json → Option α

namespace Schema

section Combinators

variable {α : Type}

def string : Schema String
  | some (.str value) => some value
  | _ => none

def number : Schema ℕ
  | some (.num value) => some value
  | _ => none

def boolean : Schema Bool
  | some (.bool value) => some value
  | _ => none

/-- A check of what was made. -/
def refine (schema : Schema α) (keep : α → Bool) : Schema α := fun value => (schema value).filter keep

/-- `z.string().min(1)`. -/
def nonEmpty : Schema String := string.refine (· != "")

/-- `z.enum`, with what each text stands for. -/
def enumeration (values : List (String × α)) : Schema α := fun value => (string value).bind fun text => List.lookup text values

/-- `z.nullable`. -/
def nullable (schema : Schema α) : Schema (Option α)
  | some .null => some none
  | value => (schema value).map some

/-- `z.optional`. -/
def optional (schema : Schema α) : Schema (Option α)
  | none => some none
  | value => (schema value).map some

/-- `z.catch`, which takes everything. -/
def orDefault (schema : Schema α) (default : α) : Schema α := fun value => some ((schema value).getD default)

/-- `z.array`. -/
def array (schema : Schema α) : Schema (List α)
  | some (.arr items) => items.mapM fun item => schema (some item)
  | _ => none

/-- A field of `z.object`. -/
def field (key : String) (schema : Schema α) : Schema α
  | some (.obj fields) => schema ((Json.obj fields).get? key)
  | _ => none

end Combinators

section Reads

variable {α β : Type} {schema : Schema α} {json : β → Json}

theorem nonEmpty_str {value : String} (filled : value ≠ "") : nonEmpty (some (.str value)) = some value := by
  simp [nonEmpty, refine, string, Option.filter, filled]

theorem nullable_optional {view : β → α} {value : Option β} (present : ∀ known ∈ value, json known ≠ .null)
    (reads : ∀ known ∈ value, schema (some (json known)) = some (view known)) :
    nullable schema (some (.optional json value)) = some (value.map view) := by
  cases value with
  | none => rfl
  | some known =>
    have shown := reads known rfl
    unfold nullable Json.optional
    split
    · next same => exact absurd (Option.some.inj same) (present known rfl)
    · simp [shown]

theorem nullable_str {value : Option String} :
    nullable string (some (.optional .str value)) = some value := by
  cases value <;> rfl

theorem array_arr {view : β → α} {values : List β}
    (reads : ∀ value ∈ values, schema (some (json value)) = some (view value)) :
    array schema (some (.arr (values.map json))) = some (values.map view) := by
  change (values.map json).mapM (fun item => schema (some item)) = _
  induction values with
  | nil => rfl
  | cons value rest ih =>
    rw [List.map_cons, List.mapM_cons, reads value List.mem_cons_self,
      ih fun other member => reads other (List.mem_cons_of_mem _ member)]
    rfl

/-- What a field reads is what the list of the object's fields holds. -/
theorem field_object {fields : List (String × Json)} {key : String} (distinct : (fields.map Prod.fst).Nodup) :
    field key schema (some (.object fields)) = schema (fields.lookup key) :=
  congrArg schema (Json.get?_object distinct)

end Reads

end Schema

end RyuRooms.Foundation
