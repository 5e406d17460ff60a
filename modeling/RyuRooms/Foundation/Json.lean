import Mathlib.Algebra.GroupWithZero.Nat
import Mathlib.Algebra.BigOperators.Group.List.Basic
import Mathlib.Data.List.Sort

/-! # JSON texts and their length

A JSON value and its compact text as `serde_json` writes it. The length of a text in bytes is a sum over
its parts, where a character counts as long as its escape, so bounds on texts give bounds on values.
-/

namespace RyuRooms.Foundation

/-- A JSON value; the only numbers here are natural. -/
inductive Json where
  | null
  | bool (value : Bool)
  | num (value : ℕ)
  | str (value : String)
  | arr (items : List Json)
  | obj (fields : List (String × Json))

namespace Json

/-- Two lower-case hexadecimal digits. -/
def hexByte (code : ℕ) : String := String.ofList [Nat.digitChar (code / 16), Nat.digitChar (code % 16)]

/-- A character inside a JSON string. -/
def escapeChar (c : Char) : String :=
  match c.toNat with
  | 0x22 => "\\\""
  | 0x5C => "\\\\"
  | 0x08 => "\\b"
  | 0x09 => "\\t"
  | 0x0A => "\\n"
  | 0x0C => "\\f"
  | 0x0D => "\\r"
  | code => if code < 0x20 then "\\u00" ++ hexByte code else String.singleton c

def escape : List Char → String
  | [] => ""
  | c :: rest => escapeChar c ++ escape rest

def quote (value : String) : String := "\"" ++ escape value.toList ++ "\""

mutual

/-- `serde_json::to_string`. -/
def render : Json → String
  | null => "null"
  | bool value => if value then "true" else "false"
  | num value => Nat.repr value
  | str value => quote value
  | arr items => "[" ++ renderItems items ++ "]"
  | obj fields => "\x7b" ++ renderFields fields ++ "\x7d"

def renderItems : List Json → String
  | [] => ""
  | [item] => render item
  | item :: rest => render item ++ "," ++ renderItems rest

def renderFields : List (String × Json) → String
  | [] => ""
  | [field] => quote field.1 ++ ":" ++ render field.2
  | field :: rest => quote field.1 ++ ":" ++ render field.2 ++ "," ++ renderFields rest

end

/-- A `serde_json::Map`, which keeps its entries in the order of their keys. -/
def object (fields : List (String × Json)) : Json := .obj (fields.insertionSort fun left right => left.1 ≤ right.1)

/-- An `Option`. -/
def optional {α : Type} (json : α → Json) : Option α → Json
  | none => .null
  | some value => json value

/-- `serde_json::to_vec(…).len()`. -/
def bytes (json : Json) : ℕ := json.render.utf8ByteSize

/-- The bytes of a character inside a JSON string. -/
def escapedBytes (c : Char) : ℕ := (escapeChar c).utf8ByteSize

/-- The bytes of a JSON string. -/
def quotedBytes (value : String) : ℕ := 2 + (value.toList.map escapedBytes).sum

theorem utf8ByteSize_quote (value : String) : (quote value).utf8ByteSize = quotedBytes value := by
  have escaped (chars : List Char) : (escape chars).utf8ByteSize = (chars.map escapedBytes).sum := by
    induction chars with
    | nil => rfl
    | cons c rest ih => rw [escape, String.utf8ByteSize_append, ih, List.map_cons, List.sum_cons, escapedBytes]
  rw [quote, String.utf8ByteSize_append, String.utf8ByteSize_append, escaped, quotedBytes]
  have mark : "\"".utf8ByteSize = 1 := by decide
  omega

@[simp] theorem bytes_null : bytes .null = 4 := rfl

@[simp] theorem bytes_str (value : String) : bytes (.str value) = quotedBytes value := by
  rw [bytes, render, utf8ByteSize_quote]

@[simp] theorem bytes_num (value : ℕ) : bytes (.num value) = (Nat.repr value).utf8ByteSize := by
  rw [bytes, render]

@[simp] theorem bytes_bool (value : Bool) : bytes (.bool value) = if value then 4 else 5 := by
  cases value <;> rfl

theorem bytes_optional {α : Type} (json : α → Json) (value : Option α) :
    bytes (optional json value) = value.elim 4 fun value => bytes (json value) := by
  cases value with
  | none => exact bytes_null
  | some value => rfl

/-- An array counts its brackets, its items and the commas between them. -/
@[simp] theorem bytes_arr (items : List Json) :
    bytes (.arr items) = 2 + (items.map bytes).sum + (items.length - 1) := by
  have each : (renderItems items).utf8ByteSize = (items.map bytes).sum + (items.length - 1) := by
    induction items with
    | nil => rfl
    | cons item rest ih =>
      cases rest with
      | nil => simp [renderItems, bytes]
      | cons second rest =>
        have comma : ",".utf8ByteSize = 1 := by decide
        rw [renderItems]
        · simp only [String.utf8ByteSize_append, comma, ih, List.map_cons, List.sum_cons, List.length_cons, bytes]
          omega
        · simp
  have left : "[".utf8ByteSize = 1 := by decide
  have right : "]".utf8ByteSize = 1 := by decide
  rw [bytes, render, String.utf8ByteSize_append, String.utf8ByteSize_append, each]
  omega

/-- What an object with these keys counts apart from its values: braces, keys, colons and commas. -/
def frame (keys : List String) : ℕ := 2 + (keys.map fun key => quotedBytes key + 1).sum + (keys.length - 1)

@[simp] theorem bytes_obj (fields : List (String × Json)) :
    bytes (.obj fields) = frame (fields.map Prod.fst) + (fields.map fun field => bytes field.2).sum := by
  have colon : ":".utf8ByteSize = 1 := by decide
  have each : (renderFields fields).utf8ByteSize =
      ((fields.map Prod.fst).map fun key => quotedBytes key + 1).sum + (fields.map fun field => bytes field.2).sum +
        (fields.length - 1) := by
    induction fields with
    | nil => rfl
    | cons field rest ih =>
      cases rest with
      | nil => simp [renderFields, utf8ByteSize_quote, colon, bytes]
      | cons second rest =>
        have comma : ",".utf8ByteSize = 1 := by decide
        rw [renderFields]
        · simp only [String.utf8ByteSize_append, utf8ByteSize_quote, colon, comma, ih, List.map_cons, List.sum_cons,
            List.length_cons, bytes]
          omega
        · simp
  have left : "\x7b".utf8ByteSize = 1 := by decide
  have right : "\x7d".utf8ByteSize = 1 := by decide
  rw [bytes, render, String.utf8ByteSize_append, String.utf8ByteSize_append, each, frame, List.length_map]
  omega

/-- The order of the keys does not matter to the length. -/
@[simp] theorem bytes_object (fields : List (String × Json)) :
    bytes (object fields) = frame (fields.map Prod.fst) + (fields.map fun field => bytes field.2).sum := by
  have sorted := List.perm_insertionSort (fun left right : String × Json => left.1 ≤ right.1) fields
  have keys := ((sorted.map Prod.fst).map fun key => quotedBytes key + 1).sum_nat
  rw [object, bytes_obj, (sorted.map fun field => bytes field.2).sum_nat, frame, frame, keys, List.length_map,
    List.length_map, sorted.length_eq]

end Json

end RyuRooms.Foundation
