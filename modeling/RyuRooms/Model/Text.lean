import Mathlib.Data.List.DropRight
import Mathlib.Data.String.Basic

/-! # The string functions the rooms backend uses

Rust's `str` functions on Lean strings: `trim` and `char::is_control` read the Unicode properties
Rust reads, `len` counts UTF-8 bytes and `chars().count()` scalar values. A `Uuid` is its `simple`
text, thirty-two lowercase hexadecimal digits, which is all the backend ever takes from one.
-/

namespace RyuRooms

/-- `char::is_whitespace`: the Unicode property `White_Space`. -/
def isWhitespace (c : Char) : Bool :=
  decide (9 ≤ c.toNat ∧ c.toNat ≤ 13) || c.toNat == 0x20 || c.toNat == 0x85 || c.toNat == 0xa0 ||
    c.toNat == 0x1680 || decide (0x2000 ≤ c.toNat ∧ c.toNat ≤ 0x200a) || c.toNat == 0x2028 ||
    c.toNat == 0x2029 || c.toNat == 0x202f || c.toNat == 0x205f || c.toNat == 0x3000

/-- `char::is_control`: the general category `Cc`. -/
def isControl (c : Char) : Bool := decide (c.toNat < 0x20) || decide (0x7f ≤ c.toNat ∧ c.toNat < 0xa0)

/-- `str::trim`. -/
def trim (value : String) : String :=
  String.ofList ((value.toList.dropWhile isWhitespace).reverse.dropWhile isWhitespace).reverse

/-- `str::chars().count()`. -/
def charCount (value : String) : ℕ := value.toList.length

/-- `str::chars().any`. -/
def anyChar (test : Char → Bool) (value : String) : Bool := value.toList.any test

/-- `str::starts_with`. -/
def startsWith (value start : String) : Bool := start.toList.isPrefixOf value.toList

/-- `str::strip_prefix`. -/
def stripPrefix (value start : String) : Option String :=
  if startsWith value start then some (String.ofList (value.toList.drop start.toList.length)) else none

/-- The sign of a decimal number and its digits. -/
def signed : List Char → ℤ × List Char
  | '-' :: digits => (-1, digits)
  | '+' :: digits => (1, digits)
  | digits => (1, digits)

/-- What an `i64` holds. -/
abbrev InI64 (n : ℤ) : Prop := -9223372036854775808 ≤ n ∧ n ≤ 9223372036854775807

/-- `str::parse`, to an `i64`. -/
def parseI64 (value : String) : Option ℤ :=
  let digits := (signed value.toList).2
  if digits ≠ [] ∧ digits.all Char.isDigit then
    let n := (signed value.toList).1 * Nat.ofDigitChars 10 digits 0
    if InI64 n then some n else none
  else none

theorem isDigit_of_toDigits (n : ℕ) : ∀ c ∈ Nat.toDigits 10 n, c.isDigit := fun _ member =>
  Nat.isDigit_of_mem_toDigits (by omega) (by omega) member

/-- A natural number is shown without a sign. -/
theorem signed_toDigits (n : ℕ) : signed (Nat.toDigits 10 n) = (1, Nat.toDigits 10 n) := by
  obtain ⟨c, rest, shown⟩ := List.exists_cons_of_ne_nil (@Nat.toDigits_ne_nil n 10)
  have digit := isDigit_of_toDigits n c (shown ▸ List.mem_cons_self)
  rw [shown, signed.eq_def]
  split
  · next same =>
    obtain ⟨rfl, -⟩ := List.cons.inj same
    cases digit
  · next same =>
    obtain ⟨rfl, -⟩ := List.cons.inj same
    cases digit
  · rfl

/-- An integer is shown by the digits of its size, after a minus where it is negative. -/
theorem toList_toString_int (n : ℤ) : (toString n).toList =
    if 0 ≤ n then Nat.toDigits 10 n.toNat else '-' :: Nat.toDigits 10 (-n).toNat := by
  rw [Int.toString_eq_repr, Int.repr_eq_if]
  split
  · exact Nat.toList_repr
  · rw [String.toList_append, Nat.toList_repr]
    rfl

/-- An `i64` is read from its own text. -/
theorem parseI64_toString {n : ℤ} (bounded : InI64 n) : parseI64 (toString n) = some n := by
  have digits (m : ℕ) : Nat.toDigits 10 m ≠ [] ∧ (Nat.toDigits 10 m).all Char.isDigit :=
    ⟨Nat.toDigits_ne_nil, List.all_eq_true.mpr (isDigit_of_toDigits m)⟩
  rw [parseI64, toList_toString_int]
  by_cases natural : 0 ≤ n
  · rw [if_pos natural, signed_toDigits]
    simp only [digits, ne_eq, not_false_eq_true, and_self, if_true, Nat.ofDigitChars_ten_toDigits]
    rw [Int.toNat_of_nonneg natural, Int.one_mul, if_pos bounded]
  · rw [if_neg natural, signed]
    simp only [digits, ne_eq, not_false_eq_true, and_self, if_true, Nat.ofDigitChars_ten_toDigits]
    rw [Int.toNat_of_nonneg (by omega), Int.neg_mul, Int.one_mul, Int.neg_neg, if_pos bounded]

/-- The text of an integer starts with a digit or a minus. -/
theorem startsWith_toString_int (n : ℤ) {c : Char} (rest : List Char) (signless : c ≠ '-') (letter : c.isDigit = false) :
    startsWith (toString n) (String.ofList (c :: rest)) = false := by
  have first : ∃ head tail, (toString n).toList = head :: tail ∧ (head = '-' ∨ head.isDigit) := by
    rw [toList_toString_int]
    split
    · obtain ⟨head, tail, shown⟩ := List.exists_cons_of_ne_nil (@Nat.toDigits_ne_nil n.toNat 10)
      exact ⟨head, tail, shown, .inr (isDigit_of_toDigits _ head (shown ▸ List.mem_cons_self))⟩
    · exact ⟨'-', _, rfl, .inl rfl⟩
  obtain ⟨head, tail, shown, other⟩ := first
  have unlike : (c == head) = false := by
    rw [beq_eq_false_iff_ne]
    rintro rfl
    rcases other with minus | digit
    · exact signless minus
    · exact Bool.false_ne_true (letter.symm.trans digit)
  rw [startsWith, shown, String.toList_ofList, List.isPrefixOf, unlike, Bool.false_and]

/-- A lowercase hexadecimal digit, as `Uuid::simple` prints it. -/
def isHexDigit (c : Char) : Bool :=
  decide (0x30 ≤ c.toNat ∧ c.toNat ≤ 0x39) || decide (0x61 ≤ c.toNat ∧ c.toNat ≤ 0x66)

/-- `Uuid::new_v4().simple()`. -/
structure Uuid where
  simple : String
  length : simple.toList.length = 32
  hex : simple.toList.all isHexDigit
deriving DecidableEq

/-- A text that neither starts nor ends with whitespace is its own trim. -/
theorem trim_of_no_whitespace {value : String} (plain : ∀ c ∈ value.toList, isWhitespace c = false) :
    trim value = value := by
  have kept (chars : List Char) (clean : ∀ c ∈ chars, isWhitespace c = false) :
      chars.dropWhile isWhitespace = chars := by
    cases chars with
    | nil => rfl
    | cons c rest => simp [clean c List.mem_cons_self]
  rw [trim, kept _ plain, kept _ (by simpa using plain), List.reverse_reverse, String.ofList_toList]

/-- A text is its own trim where neither end of it is whitespace. -/
theorem trim_eq_self_iff {value : String} : trim value = value ↔
    value.toList.dropWhile isWhitespace = value.toList ∧ value.toList.rdropWhile isWhitespace = value.toList := by
  change String.ofList ((value.toList.dropWhile isWhitespace).rdropWhile isWhitespace) = value ↔ _
  constructor
  · intro same
    have chars := congrArg String.toList same
    rw [String.toList_ofList] at chars
    have front : value.toList.dropWhile isWhitespace = value.toList := by
      apply (List.dropWhile_suffix _).eq_of_length_le
      rw [← congrArg List.length chars]
      exact (List.rdropWhile_prefix _ _).length_le
    rw [front] at chars
    exact ⟨front, chars⟩
  · rintro ⟨front, back⟩
    rw [front, back, String.ofList_toList]

/-- A trim leaves what is trimmed as it is. -/
theorem trim_trim (value : String) : trim (trim value) = trim value := by
  have chars : (trim value).toList = (value.toList.dropWhile isWhitespace).rdropWhile isWhitespace := String.toList_ofList
  rw [trim_eq_self_iff, chars]
  constructor
  · rw [List.dropWhile_eq_self_iff]
    intro visible dark
    have cut := List.rdropWhile_prefix isWhitespace (value.toList.dropWhile isWhitespace)
    have longer := visible.trans_le cut.length_le
    rw [cut.getElem visible] at dark
    exact List.dropWhile_get_zero_not isWhitespace value.toList longer dark
  · exact List.rdropWhile_idempotent _ _

/-- A trimmed text stays one after a text in front of it that starts with a visible character. -/
theorem trim_append {start value : String} (shown : start.toList.dropWhile isWhitespace = start.toList)
    (first : start ≠ "") (trimmed : trim value = value) (last : value ≠ "") : trim (start ++ value) = start ++ value := by
  rw [trim_eq_self_iff, String.toList_append]
  obtain ⟨-, back⟩ := trim_eq_self_iff.mp trimmed
  rw [List.dropWhile_eq_self_iff] at shown ⊢
  rw [List.rdropWhile_eq_self_iff] at back ⊢
  constructor
  · intro _
    have some : 0 < start.toList.length := List.length_pos_of_ne_nil (by simpa using first)
    rw [List.getElem_append_left some]
    exact shown some
  · intro _
    rw [List.getLast_append_of_ne_nil _ (by simpa using last)]
    exact back _

/-- A text without whitespace is read without the whitespace after it. -/
theorem trim_padded {value padding : String} (plain : ∀ c ∈ value.toList, isWhitespace c = false)
    (blank : ∀ c ∈ padding.toList, isWhitespace c) : trim (value ++ padding) = value := by
  have back : value.toList.rdropWhile isWhitespace = value.toList := by
    rw [List.rdropWhile_eq_self_iff]
    intro some
    rw [plain _ (List.getLast_mem some)]
    exact Bool.false_ne_true
  have cut : (value.toList ++ padding.toList).rdropWhile isWhitespace = value.toList := by
    rw [List.rdropWhile, List.reverse_append, List.dropWhile_append_of_pos (by simpa using blank)]
    exact back
  change String.ofList (((value ++ padding).toList.dropWhile isWhitespace).rdropWhile isWhitespace) = value
  rw [String.toList_append]
  cases chars : value.toList with
  | nil =>
    rw [List.nil_append, List.dropWhile_eq_nil_iff.mpr blank, ← @String.ofList_toList value, chars]
    rfl
  | cons c rest =>
    have visible : ¬ isWhitespace c := by simp [plain c (chars ▸ List.mem_cons_self)]
    rw [List.cons_append, List.dropWhile_cons_of_neg visible, ← List.cons_append, ← chars, cut, String.ofList_toList]

/-- A line is read without its end. -/
theorem trim_newline {value : String} (plain : ∀ c ∈ value.toList, isWhitespace c = false) :
    trim (value ++ "\n") = value :=
  trim_padded plain (by simp [isWhitespace])

/-- A trim takes bytes off at both ends. -/
theorem utf8ByteSize_trim_le (value : String) : (trim value).utf8ByteSize ≤ value.utf8ByteSize := by
  have parts : value = String.ofList (value.toList.takeWhile isWhitespace) ++ (trim value ++
      String.ofList ((value.toList.dropWhile isWhitespace).rtakeWhile isWhitespace)) := by
    change value = _ ++ (String.ofList ((value.toList.dropWhile isWhitespace).rdropWhile isWhitespace) ++ _)
    rw [← String.ofList_append, ← String.ofList_append, List.rdropWhile_append_rtakeWhile, List.takeWhile_append_dropWhile,
      String.ofList_toList]
  have sizes := congrArg String.utf8ByteSize parts
  rw [String.utf8ByteSize_append, String.utf8ByteSize_append] at sizes
  omega

/-- A text that is not empty after a trim is not empty after another. -/
theorem trim_trim_ne_empty {value : String} (visible : trim value ≠ "") : trim (trim value) ≠ "" := by
  rwa [trim_trim]

/-- A hexadecimal digit is an ASCII letter or digit, and neither whitespace nor a control character. -/
theorem isHexDigit_spec {c : Char} (digit : isHexDigit c) :
    isWhitespace c = false ∧ isControl c = false ∧ c.isAlphanum := by
  simp only [isHexDigit, Bool.or_eq_true, decide_eq_true_eq] at digit
  refine ⟨?_, ?_, ?_⟩
  · simp only [isWhitespace, Bool.or_eq_false_iff, decide_eq_false_iff_not, beq_eq_false_iff_ne]
    omega
  · simp only [isControl, Bool.or_eq_false_iff, decide_eq_false_iff_not]
    omega
  · have letter : c.isAlphanum ↔ (65 ≤ c.toNat ∧ c.toNat ≤ 90 ∨ 97 ≤ c.toNat ∧ c.toNat ≤ 122) ∨
        48 ≤ c.toNat ∧ c.toNat ≤ 57 := by
      delta Char.isAlphanum Char.isAlpha Char.isUpper Char.isLower Char.isDigit
      simp [UInt32.le_iff_toNat_le]
    rw [letter]
    omega

/-- A text of characters that take one byte each. -/
theorem utf8ByteSize_of_ascii {chars : List Char} (ascii : ∀ c ∈ chars, c.utf8Size = 1) :
    (String.ofList chars).utf8ByteSize = chars.length := by
  induction chars with
  | nil => rfl
  | cons c rest ih =>
    rw [← List.singleton_append, String.ofList_append, String.utf8ByteSize_append,
      ih fun later member => ascii later (List.mem_cons_of_mem _ member), List.length_append, ← String.singleton_eq_ofList,
      String.utf8ByteSize_singleton, ascii c List.mem_cons_self]
    rfl

/-- Every character of a hexadecimal text takes one byte. -/
theorem utf8ByteSize_of_hex {chars : List Char} (hex : chars.all isHexDigit) :
    (String.ofList chars).utf8ByteSize = chars.length := by
  apply utf8ByteSize_of_ascii
  intro c member
  rw [Char.utf8Size_eq_one_iff, UInt32.le_iff_toNat_le]
  have digit := List.all_eq_true.mp hex c member
  simp only [isHexDigit, Bool.or_eq_true, decide_eq_true_eq] at digit
  change c.toNat ≤ 127
  omega

namespace Uuid

theorem digit (uuid : Uuid) {c : Char} (member : c ∈ uuid.simple.toList) : isHexDigit c :=
  List.all_eq_true.mp uuid.hex c member

/-- A bare uuid is untouched by `trim`. -/
theorem trim_simple (uuid : Uuid) : trim uuid.simple = uuid.simple :=
  trim_of_no_whitespace fun _ member => (isHexDigit_spec (uuid.digit member)).1

theorem utf8ByteSize_simple (uuid : Uuid) : uuid.simple.utf8ByteSize = 32 := by
  rw [← @String.ofList_toList uuid.simple, utf8ByteSize_of_hex uuid.hex, uuid.length]

end Uuid

end RyuRooms
