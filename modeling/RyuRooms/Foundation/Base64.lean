import RyuRooms.Foundation.Bytes

/-! # Base64

The standard alphabet with padding. Three bytes are a number of four digits; a decoder refuses what an encoder
does not write, and reads back every text that it does.
-/

namespace RyuRooms.Foundation.Base64

def alphabet : List Char := "ABCDEFGHIJKLMNOPQRSTUVWXYZabcdefghijklmnopqrstuvwxyz0123456789+/".toList

def digit (n : ℕ) : Char := alphabet.getD n '='

def value (c : Char) : Option ℕ := alphabet.findIdx? (· == c)

/-- The digits of three bytes. -/
def digits (a b c : UInt8) : List Char :=
  let n := a.toNat * 65536 + b.toNat * 256 + c.toNat
  [digit (n / 262144), digit (n / 4096 % 64), digit (n / 64 % 64), digit (n % 64)]

def encode : Bytes → List Char
  | a :: b :: c :: rest => digits a b c ++ encode rest
  | [a, b] => (digits a b 0).take 3 ++ ['=']
  | [a] => (digits a 0 0).take 2 ++ ['=', '=']
  | [] => []

/-- The bytes of a number of four digits. -/
def bytes (n : ℕ) : Bytes := [UInt8.ofNat (n / 65536), UInt8.ofNat (n / 256 % 256), UInt8.ofNat (n % 256)]

/-- The last four characters, of which one or two are padding. -/
def decodeLast (w x y : Char) : Option Bytes :=
  (value w).bind fun w => (value x).bind fun x =>
    if y = '=' then if x % 16 = 0 then some ((bytes ((w * 64 + x) * 4096)).take 1) else none
    else (value y).bind fun y => if y % 4 = 0 then some ((bytes (((w * 64 + x) * 64 + y) * 64)).take 2) else none

def decode : List Char → Option Bytes
  | [] => some []
  | w :: x :: y :: z :: rest =>
    if z = '=' then if rest = [] then decodeLast w x y else none
    else (value w).bind fun w => (value x).bind fun x => (value y).bind fun y => (value z).bind fun z =>
      (decode rest).map (bytes (((w * 64 + x) * 64 + y) * 64 + z) ++ ·)
  | _ => none

theorem value_digit {n : ℕ} (small : n < 64) : value (digit n) = some n := by
  revert n
  decide +kernel

theorem digit_ne_padding {n : ℕ} (small : n < 64) : digit n ≠ '=' := by
  revert n
  decide +kernel

/-- Three bytes are read back from their number. -/
theorem bytes_of_bytes (a b c : UInt8) : bytes (a.toNat * 65536 + b.toNat * 256 + c.toNat) = [a, b, c] := by
  have first := a.toNat_lt
  have second := b.toNat_lt
  have third := c.toNat_lt
  have parts : (a.toNat * 65536 + b.toNat * 256 + c.toNat) / 65536 = a.toNat ∧
      (a.toNat * 65536 + b.toNat * 256 + c.toNat) / 256 % 256 = b.toNat ∧
        (a.toNat * 65536 + b.toNat * 256 + c.toNat) % 256 = c.toNat := by
    omega
  rw [bytes, parts.1, parts.2.1, parts.2.2]
  simp only [UInt8.ofNat_toNat]

/-- The digits of three bytes are below the base, and spell their number. -/
theorem digits_spell (a b c : UInt8) :
    let n := a.toNat * 65536 + b.toNat * 256 + c.toNat
    n / 262144 < 64 ∧ ((n / 262144 * 64 + n / 4096 % 64) * 64 + n / 64 % 64) * 64 + n % 64 = n := by
  have first := a.toNat_lt
  have second := b.toNat_lt
  have third := c.toNat_lt
  intro n
  omega

/-- What was encoded is decoded. -/
theorem decode_encode (message : Bytes) : decode (encode message) = some message := by
  have zero : (0 : UInt8).toNat = 0 := rfl
  induction message using encode.induct with
  | case1 a b c rest ih =>
    obtain ⟨top, spelt⟩ := digits_spell a b c
    rw [encode, digits, List.cons_append, List.cons_append, List.cons_append, List.cons_append, List.nil_append, decode,
      if_neg (digit_ne_padding (by omega)), value_digit top, value_digit (by omega), value_digit (by omega),
      value_digit (by omega), ih]
    simp only [Option.bind_some, Option.map_some]
    rw [spelt, bytes_of_bytes]
    rfl
  | case2 a b =>
    obtain ⟨top, spelt⟩ := digits_spell a b 0
    change decodeLast _ _ _ = _
    rw [decodeLast, value_digit top, value_digit (by omega), Option.bind_some, Option.bind_some,
      if_neg (digit_ne_padding (by omega)), value_digit (by omega), Option.bind_some, if_pos (by omega)]
    have whole := bytes_of_bytes a b 0
    rw [← spelt, show (a.toNat * 65536 + b.toNat * 256 + (0 : UInt8).toNat) % 64 = 0 by omega, Nat.add_zero] at whole
    rw [whole]
    rfl
  | case3 a =>
    obtain ⟨top, spelt⟩ := digits_spell a 0 0
    change decodeLast _ _ _ = _
    rw [decodeLast, value_digit top, value_digit (by omega), Option.bind_some, Option.bind_some, if_pos rfl,
      if_pos (by omega)]
    have whole := bytes_of_bytes a 0 0
    have same (n : ℕ) (low : n % 4096 = 0) : (n / 262144 * 64 + n / 4096 % 64) * 4096 = n := by omega
    rw [same _ (by omega), whole]
    rfl
  | case4 => rfl

/-- Four characters for every three bytes, the last ones padded. -/
theorem length_encode (message : Bytes) : (encode message).length = 4 * ((message.length + 2) / 3) := by
  induction message using encode.induct with
  | case1 a b c rest ih =>
    simp only [encode, digits, List.length_append, List.length_cons, List.length_nil, ih]
    omega
  | case2 a b => simp [encode, digits]
  | case3 a => simp [encode, digits]
  | case4 => rfl

/-- What an encoder writes is in the alphabet, or padding. -/
theorem mem_encode {message : Bytes} {c : Char} (member : c ∈ encode message) : c ∈ '=' :: alphabet := by
  have known (n : ℕ) : digit n ∈ '=' :: alphabet := by
    rw [digit, List.getD_eq_getElem?_getD]
    cases found : alphabet[n]? with
    | none => exact List.mem_cons_self
    | some d => exact List.mem_cons_of_mem _ (List.mem_of_getElem? found)
  induction message using encode.induct with
  | case1 a b c rest ih =>
    simp only [encode, digits, List.mem_append, List.mem_cons, List.not_mem_nil, or_false] at member
    rcases member with (rfl | rfl | rfl | rfl) | later
    · exact known _
    · exact known _
    · exact known _
    · exact known _
    · exact ih later
  | case2 a b =>
    simp only [encode, digits, List.take, List.mem_append, List.mem_cons, List.not_mem_nil, or_false] at member
    rcases member with (rfl | rfl | rfl) | rfl
    · exact known _
    · exact known _
    · exact known _
    · exact List.mem_cons_self
  | case3 a =>
    simp only [encode, digits, List.take, List.mem_append, List.mem_cons, List.not_mem_nil, or_false] at member
    rcases member with (rfl | rfl) | rfl | rfl
    · exact known _
    · exact known _
    · exact List.mem_cons_self
    · exact List.mem_cons_self
  | case4 => cases member

theorem mem_of_value {c : Char} {n : ℕ} (found : value c = some n) : c ∈ '=' :: alphabet := by
  obtain ⟨held, same, -⟩ := List.findIdx?_eq_some_iff_getElem.mp found
  rw [← eq_of_beq same]
  exact List.mem_cons_of_mem _ (List.getElem_mem held)

theorem encoded_of_decodeLast {w x y : Char} {message : Bytes} (decoded : decodeLast w x y = some message) :
    (message.length = 1 ∨ message.length = 2) ∧ ∀ c ∈ [w, x, y], c ∈ '=' :: alphabet := by
  simp only [decodeLast, Option.bind_eq_some_iff] at decoded
  obtain ⟨first, atFirst, second, atSecond, decoded⟩ := decoded
  have known (last : y ∈ '=' :: alphabet) : ∀ c ∈ [w, x, y], c ∈ '=' :: alphabet := by
    intro c member
    simp only [List.mem_cons, List.not_mem_nil, or_false] at member
    rcases member with rfl | rfl | rfl
    · exact mem_of_value atFirst
    · exact mem_of_value atSecond
    · exact last
  split at decoded
  · next padding =>
    split at decoded
    · rw [← Option.some.inj decoded]
      exact ⟨.inl rfl, known (padding ▸ List.mem_cons_self)⟩
    · cases decoded
  · obtain ⟨third, atThird, decoded⟩ := Option.bind_eq_some_iff.mp decoded
    split at decoded
    · rw [← Option.some.inj decoded]
      exact ⟨.inr rfl, known (mem_of_value atThird)⟩
    · cases decoded

/-- What a decoder takes has four characters of the alphabet for every three bytes. -/
theorem encoded_of_decode {chars : List Char} {message : Bytes} (decoded : decode chars = some message) :
    chars.length = 4 * ((message.length + 2) / 3) ∧ ∀ c ∈ chars, c ∈ '=' :: alphabet := by
  induction chars using decode.induct generalizing message with
  | case1 =>
    obtain rfl := Option.some.inj decoded
    exact ⟨rfl, nofun⟩
  | case2 w x y =>
    rw [decode, if_pos rfl, if_pos rfl] at decoded
    obtain ⟨length, known⟩ := encoded_of_decodeLast decoded
    constructor
    · simp only [List.length_cons, List.length_nil]
      omega
    · intro c member
      rcases List.mem_append.mp (show c ∈ [w, x, y] ++ ['='] from member) with first | last
      · exact known c first
      · exact List.mem_singleton.mp last ▸ List.mem_cons_self
  | case3 w x y rest other =>
    rw [decode, if_pos rfl, if_neg other] at decoded
    cases decoded
  | case4 w x y z rest other ih =>
    rw [decode, if_neg other] at decoded
    simp only [Option.bind_eq_some_iff, Option.map_eq_some_iff] at decoded
    obtain ⟨first, atFirst, second, atSecond, third, atThird, fourth, atFourth, later, read, rfl⟩ := decoded
    obtain ⟨length, known⟩ := ih read
    constructor
    · simp only [List.length_cons, List.length_append, length, bytes, List.length_nil]
      omega
    · intro c member
      simp only [List.mem_cons] at member
      rcases member with rfl | rfl | rfl | rfl | member
      · exact mem_of_value atFirst
      · exact mem_of_value atSecond
      · exact mem_of_value atThird
      · exact mem_of_value atFourth
      · exact known c member
  | case5 chars short other =>
    rw [decode.eq_def] at decoded
    split at decoded
    · exact absurd rfl short
    · exact absurd rfl (other _ _ _ _ _)
    · cases decoded

end RyuRooms.Foundation.Base64
