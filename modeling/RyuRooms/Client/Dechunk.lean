import RyuRooms.Model.Handoff

/-! # Decoding a chunked body

Where the size of a chunk is added to without a check, the decoder panics: it returns for every input
in which no line that it reaches names one of the two largest sizes. A chunked body is decoded to its
payload however it was cut and whatever its lines carry besides the sizes, as long as they are UTF-8.
-/

namespace RyuRooms.SidecarRuntime

open Foundation

section Lines

variable {line rest input : Bytes}

/-- A line ending is found at the end of a line that holds none. -/
theorem windowPosition_line (single : windowPosition CRLF line = none) :
    windowPosition CRLF (line ++ CRLF ++ rest) = some line.length := by
  induction line with
  | nil => rfl
  | cons byte line ih =>
    rw [windowPosition] at single
    split at single
    · cases single
    · next apart =>
      have later := ih (Option.map_eq_none_iff.mp single)
      rw [List.append_assoc] at later
      rw [List.append_assoc, List.cons_append, windowPosition, later, if_neg, Option.map_some, List.length_cons]
      cases line with
      | nil => simp [CRLF]
      | cons next line => simpa [CRLF] using apart

/-- Where a line ending is found, the line before it holds none. -/
theorem exists_line {position : ℕ} (found : windowPosition CRLF input = some position) :
    ∃ line rest, input = line ++ CRLF ++ rest ∧ windowPosition CRLF line = none ∧ line.length = position := by
  induction input generalizing position with
  | nil => cases found
  | cons byte input ih =>
    rw [windowPosition] at found
    split at found
    · next here =>
      obtain rfl := Option.some.inj found
      obtain ⟨rest, split⟩ := List.isPrefixOf_iff_prefix.mp here
      exact ⟨[], rest, split.symm, rfl, rfl⟩
    · next apart =>
      obtain ⟨later, there, rfl⟩ := Option.map_eq_some_iff.mp found
      obtain ⟨line, rest, rfl, single, rfl⟩ := ih there
      refine ⟨byte :: line, rest, by simp, ?_, rfl⟩
      rw [windowPosition, single, if_neg]
      · rfl
      · cases line with
        | nil => simp [CRLF]
        | cons next line => simpa [CRLF] using apart

/-- A line names a size: before its first semicolon stand the size and whitespace. -/
def NamesSize (line : Bytes) (size : ℕ) : Prop :=
  ∃ text, fromUtf8 line = some text ∧
    fromStrRadix16 (trim (String.ofList (text.toList.takeWhile (· ≠ ';')))) = some size

theorem chunkSize_eq_ok_iff {size : ℕ} : chunkSize line = .ok size ↔ NamesSize line size := by
  unfold chunkSize NamesSize
  cases fromUtf8 line with
  | none => simp [bind, Except.bind]
  | some text =>
    simp only [Option.elim_some, bind, Except.bind, Option.some.injEq, exists_eq_left']
    cases fromStrRadix16 (trim (String.ofList (text.toList.takeWhile (· ≠ ';')))) with
    | none => simp
    | some other => simp

/-- What a round does with the data of a chunk. -/
def takeData (checks : Bool) (out rest : Bytes) (size : ℕ) : Option ChunkRound :=
  if size = 0 then some (.returns out)
  else (usizeAdd checks size 2).bind fun needed =>
    if rest.length < needed then some (.fails (.message "truncated chunked body"))
    else (sliceTo rest size).bind fun data => (sliceFrom rest needed).map fun rest => .continues (out ++ data) rest

theorem sliceTo_line : sliceTo (line ++ CRLF ++ rest) line.length = some line := by
  rw [sliceTo, if_pos (by simp), List.append_assoc, List.take_left]

theorem sliceFrom_line : sliceFrom (line ++ CRLF ++ rest) (line.length + 2) = some rest := by
  rw [sliceFrom, if_pos (by simp [CRLF])]
  exact congrArg some (List.drop_left' (by simp [CRLF]))

/-- A line that names no size ends the loop. -/
theorem readChunk_error (single : windowPosition CRLF line = none) {error : ResponseError}
    (named : chunkSize line = .error error) (checks : Bool) (out rest : Bytes) :
    readChunk checks out (line ++ CRLF ++ rest) = some (.fails error) := by
  simp only [readChunk, windowPosition_line single, sliceTo_line, named, Option.bind_eq_bind, Option.bind_some]

/-- After a line that names a size comes the data. -/
theorem readChunk_line (single : windowPosition CRLF line = none) {size : ℕ} (named : NamesSize line size)
    (checks : Bool) (out : Bytes) :
    readChunk checks out (line ++ CRLF ++ rest) = takeData checks out rest size := by
  simp only [readChunk, windowPosition_line single, sliceTo_line, chunkSize_eq_ok_iff.mpr named, sliceFrom_line,
    Option.bind_eq_bind, Option.bind_some, takeData, Option.map_eq_bind]
  rfl

end Lines

section Rounds

variable {checks : Bool} {out input rest : Bytes} {size : ℕ}

theorem dechunkFrom_of_panics (round : readChunk checks out input = none) : dechunkFrom checks out input = none := by
  rw [dechunkFrom]
  split <;> simp_all

theorem dechunkFrom_of_fails {error : ResponseError} (round : readChunk checks out input = some (.fails error)) :
    dechunkFrom checks out input = some (.error error) := by
  rw [dechunkFrom]
  split <;> simp_all

theorem dechunkFrom_of_returns {result : Bytes} (round : readChunk checks out input = some (.returns result)) :
    dechunkFrom checks out input = some (.ok result) := by
  rw [dechunkFrom]
  split <;> simp_all

theorem dechunkFrom_of_continues {outAfter : Bytes} (round : readChunk checks out input = some (.continues outAfter rest)) :
    dechunkFrom checks out input = dechunkFrom checks outAfter rest := by
  rw [dechunkFrom]
  split <;> simp_all

/-- A chunk as the loop takes it: a line, the data it names and whatever two bytes stand after them. -/
structure Chunk where
  line : Bytes
  data : Bytes
  ending : Bytes
  single : windowPosition CRLF line = none
  named : NamesSize line data.length
  nonempty : data ≠ []
  ended : ending.length = 2

def Chunk.bytes (chunk : Chunk) : Bytes := chunk.line ++ CRLF ++ chunk.data ++ chunk.ending

/-- The data of a size with room for two bytes more is taken out, or it is not all there. -/
theorem takeData_of_lt (checks : Bool) (out rest : Bytes) (small : size + 2 < USIZE_RANGE) (positive : size ≠ 0) :
    takeData checks out rest size = some (.fails (.message "truncated chunked body")) ∨
      ∃ data ending after, data.length = size ∧ ending.length = 2 ∧ rest = data ++ ending ++ after ∧
        takeData checks out rest size = some (.continues (out ++ data) after) := by
  rw [takeData, if_neg positive, usizeAdd, if_pos small, Option.bind_some]
  split
  · exact Or.inl rfl
  · next enough =>
    have cut : size ≤ rest.length := by omega
    refine Or.inr ⟨rest.take size, (rest.drop size).take 2, rest.drop (size + 2), ?_, ?_, ?_, ?_⟩
    · rw [List.length_take]
      omega
    · rw [List.length_take, List.length_drop]
      omega
    · rw [List.append_assoc, ← List.drop_drop, List.take_append_drop, List.take_append_drop]
    · rw [sliceTo, if_pos cut, Option.bind_some, sliceFrom, if_pos (Nat.le_of_not_lt enough), Option.map_some]

/-- A chunk that is all there is taken out, where its size leaves room for two bytes more. -/
theorem readChunk_chunk (chunk : Chunk) (small : chunk.data.length + 2 < USIZE_RANGE) (checks : Bool)
    (out rest : Bytes) :
    readChunk checks out (chunk.bytes ++ rest) = some (.continues (out ++ chunk.data) rest) := by
  have data : sliceTo (chunk.data ++ (chunk.ending ++ rest)) chunk.data.length = some chunk.data := by
    rw [sliceTo, if_pos (by simp), List.take_left]
  have left : sliceFrom (chunk.data ++ (chunk.ending ++ rest)) (chunk.data.length + 2) = some rest := by
    rw [sliceFrom, if_pos (by simp [chunk.ended]), ← List.append_assoc]
    exact congrArg some (List.drop_left' (by rw [List.length_append, chunk.ended]))
  have nonempty : chunk.data.length ≠ 0 := fun empty => chunk.nonempty (List.length_eq_zero_iff.mp empty)
  rw [Chunk.bytes, List.append_assoc, List.append_assoc, readChunk_line chunk.single chunk.named, takeData,
    if_neg nonempty, usizeAdd, if_pos small, Option.bind_some, if_neg, data, Option.bind_some, left, Option.map_some]
  rw [List.length_append, List.length_append, chunk.ended]
  omega

/-- A size that leaves no room for two bytes more makes a build that checks for overflow panic. -/
theorem takeData_of_le (huge : USIZE_RANGE ≤ size + 2) : takeData true out rest size = none := by
  have positive : size ≠ 0 := by
    rintro rfl
    exact absurd huge (by decide)
  rw [takeData, if_neg positive, usizeAdd, if_neg (Nat.not_lt.mpr huge), if_pos rfl, Option.bind_none]

/-- Decoding reaches a line that names one of the two largest sizes. -/
def ReachesHugeSize (input : Bytes) : Prop :=
  ∃ (chunks : List Chunk) (line rest : Bytes) (size : ℕ), input = chunks.flatMap Chunk.bytes ++ (line ++ CRLF ++ rest) ∧
    windowPosition CRLF line = none ∧ NamesSize line size ∧ USIZE_RANGE ≤ size + 2

theorem ReachesHugeSize.after (chunk : Chunk) (reaches : ReachesHugeSize rest) :
    ReachesHugeSize (chunk.bytes ++ rest) := by
  obtain ⟨chunks, line, rest, size, rfl, huge⟩ := reaches
  exact ⟨chunk :: chunks, line, rest, size, by simp only [List.flatMap_cons, List.append_assoc], huge⟩

/-- A round that panics has come upon a huge size, and one that continues has taken out a chunk. -/
theorem readChunk_cases (checks : Bool) (out input : Bytes) (small : ¬ ReachesHugeSize input) :
    (∃ error, readChunk checks out input = some (.fails error)) ∨
      readChunk checks out input = some (.returns out) ∨
      ∃ (chunk : Chunk) (rest : Bytes), input = chunk.bytes ++ rest ∧
        readChunk checks out input = some (.continues (out ++ chunk.data) rest) := by
  cases found : windowPosition CRLF input with
  | none =>
    refine Or.inl ⟨.message "malformed chunked body", ?_⟩
    rw [readChunk, found]
  | some position =>
    obtain ⟨line, rest, rfl, single, -⟩ := exists_line found
    cases named : chunkSize line with
    | error error => exact Or.inl ⟨error, readChunk_error single named checks out rest⟩
    | ok size =>
      have names := chunkSize_eq_ok_iff.mp named
      rw [readChunk_line single names]
      by_cases last : size = 0
      · refine Or.inr (Or.inl ?_)
        rw [takeData, if_pos last]
      have room : size + 2 < USIZE_RANGE := by
        by_contra huge
        exact small ⟨[], line, rest, size, rfl, single, names, Nat.le_of_not_lt huge⟩
      rcases takeData_of_lt checks out rest room last with
        fails | ⟨data, ending, after, sized, ended, rfl, continues⟩
      · exact Or.inl ⟨_, fails⟩
      · have nonempty : data ≠ [] := by
          rintro rfl
          exact last sized.symm
        refine Or.inr (Or.inr ⟨⟨line, data, ending, single, sized ▸ names, nonempty, ended⟩, after, ?_, continues⟩)
        simp [Chunk.bytes]

/-- Where no huge size is reached, decoding returns in every build. -/
theorem isSome_dechunkFrom (checks : Bool) (out : Bytes) (small : ¬ ReachesHugeSize input) :
    (dechunkFrom checks out input).isSome := by
  induction length : input.length using Nat.strong_induction_on generalizing input out with
  | _ bound ih =>
    rcases readChunk_cases checks out input small with ⟨error, fails⟩ | returns | ⟨chunk, rest, rfl, continues⟩
    · rw [dechunkFrom_of_fails fails, Option.isSome_some]
    · rw [dechunkFrom_of_returns returns, Option.isSome_some]
    · rw [dechunkFrom_of_continues continues]
      have shorter := readChunk_shorter continues
      exact ih rest.length (length ▸ shorter) _ (fun reaches => small (reaches.after chunk)) rfl

/-- Where a huge size is reached, a build that checks for overflow panics. -/
theorem dechunkFrom_eq_none (reaches : ReachesHugeSize input) (out : Bytes) : dechunkFrom true out input = none := by
  obtain ⟨chunks, line, rest, size, rfl, single, named, huge⟩ := reaches
  induction chunks generalizing out with
  | nil =>
    apply dechunkFrom_of_panics
    rw [List.flatMap_nil, List.nil_append, readChunk_line single named, takeData_of_le huge]
  | cons chunk chunks ih =>
    rw [List.flatMap_cons, List.append_assoc]
    by_cases small : chunk.data.length + 2 < USIZE_RANGE
    · rw [dechunkFrom_of_continues (readChunk_chunk chunk small true out _)]
      exact ih _
    · apply dechunkFrom_of_panics
      rw [Chunk.bytes, List.append_assoc, List.append_assoc, readChunk_line chunk.single chunk.named,
        takeData_of_le (Nat.le_of_not_lt small)]

/-- Decoding returns in every build exactly where no huge size is reached. -/
theorem dechunk_isSome_iff : (∀ checks, (dechunk checks input).isSome) ↔ ¬ ReachesHugeSize input := by
  constructor
  · intro returns reaches
    have panics := returns true
    rw [dechunk, dechunkFrom_eq_none reaches] at panics
    cases panics
  · exact fun small checks => isSome_dechunkFrom checks [] small

end Rounds

section Responses

variable {checks : Bool} {raw head : Bytes} {json : ResponseJson}

/-- A head that is in order and has a line that announces chunks. -/
def AnnouncesChunks (head : Bytes) : Prop :=
  ∃ text line code status, fromUtf8 head = some text ∧ (splitCrlfFrom [] text.toList).head? = some line ∧
    (splitWhitespace line)[1]? = some code ∧ parseU16 code = some status ∧
    ∃ header ∈ (splitCrlfFrom [] text.toList).tail, announcesChunks header

theorem readHead_eq_chunked_iff : (∃ status, readHead head = .ok (status, true)) ↔ AnnouncesChunks head := by
  unfold readHead AnnouncesChunks
  cases fromUtf8 head with
  | none => simp [bind, Except.bind]
  | some text =>
    simp only [Option.elim_some, bind, Except.bind, Option.some.injEq, exists_eq_left', exists_and_left]
    cases (splitCrlfFrom [] text.toList).head? with
    | none => simp
    | some line =>
      cases coded : (splitWhitespace line)[1]? with
      | none => simp [coded]
      | some code =>
        cases parsed : parseU16 code with
        | none => simp [coded, parsed]
        | some status => simp [coded, parsed, pure, Except.pure, List.any_eq_true]

/-- A response that announces chunks, and whose body reaches a huge size. -/
def HugeResponse (raw : Bytes) : Prop :=
  ∃ split, windowPosition (CRLF ++ CRLF) raw = some split ∧ AnnouncesChunks (raw.take split) ∧
    ReachesHugeSize (raw.drop (split + 4))

/-- A response is parsed in every build exactly where its body is not chunked or reaches no huge size. -/
theorem parseResponse_isSome_iff :
    (∀ checks, (parseResponse checks json raw).isSome) ↔ ¬ HugeResponse raw := by
  unfold HugeResponse
  cases found : windowPosition (CRLF ++ CRLF) raw with
  | none =>
    simp only [parseResponse, found]
    simp
  | some split =>
    have inside := windowPosition_add_length_le found
    have before : sliceTo raw split = some (raw.take split) := by
      rw [sliceTo, if_pos (by omega)]
    have after : sliceFrom raw (split + 4) = some (raw.drop (split + 4)) := by
      rw [sliceFrom, if_pos (by simpa [CRLF] using inside)]
    simp only [Option.some.injEq, exists_eq_left', ← readHead_eq_chunked_iff]
    simp only [parseResponse, found, before, after, Option.bind_eq_bind, Option.bind_some]
    cases read : readHead (raw.take split) with
    | error error => simp
    | ok head =>
      obtain ⟨status, chunked⟩ := head
      cases chunked with
      | false => simp
      | true =>
        have chunks : (∀ checks, (dechunk checks (raw.drop (split + 4))).isSome) ↔
            ¬ ReachesHugeSize (raw.drop (split + 4)) := dechunk_isSome_iff
        have answered (checks : Bool) : ((dechunk checks (raw.drop (split + 4))).bind fun body =>
            some (body.map fun body => (⟨status, readBody json body⟩ : SidecarResponse json))).isSome =
              (dechunk checks (raw.drop (split + 4))).isSome := by
          cases dechunk checks (raw.drop (split + 4)) <;> rfl
        simpa [answered] using chunks

end Responses

section RoundTrips

/-- What follows a text is UTF-8 exactly when it is UTF-8 together with the text. -/
theorem fromUtf8_append (text : String) (bytes : Bytes) :
    fromUtf8 (utf8 text ++ bytes) = (fromUtf8 bytes).map (text ++ ·) := by
  have valid (chars : List Char) (rest : ByteArray) :
      (chars.utf8Encode ++ rest).IsValidUTF8 ↔ rest.IsValidUTF8 := by
    induction chars with
    | nil => simp
    | cons c chars ih =>
      rw [List.utf8Encode_cons, ByteArray.append_assoc, ByteArray.isValidUTF8_utf8Encode_singleton_append_iff, ih]
  have together : (utf8 text ++ bytes).toByteArray = text.toList.utf8Encode ++ bytes.toByteArray := by
    rw [String.utf8Encode_toList, ByteArray.ext_iff, ByteArray.data_append, List.data_toByteArray, List.data_toByteArray,
      utf8]
    simp
  cases decoded : fromUtf8 bytes with
  | none =>
    rw [Option.map_none]
    have broken : ¬ bytes.toByteArray.IsValidUTF8 := by
      intro fine
      rw [fromUtf8, String.fromUTF8?, dif_pos fine] at decoded
      cases decoded
    rw [fromUtf8, String.fromUTF8?, dif_neg]
    rwa [together, valid]
  | some rest =>
    rw [← utf8_of_fromUtf8 decoded, ← utf8_append, fromUtf8_utf8, Option.map_some]

/-- A line of a chunked encoding: hexadecimal digits of a size, spaces and tabs, and extensions. -/
structure ChunkLine where
  digits : List Char
  padding : List Char
  extensions : Bytes
  nonempty : digits ≠ []
  hex : ∀ c ∈ digits, (hexDigit? c).isSome
  blank : ∀ c ∈ padding, c = ' ' ∨ c = '\t'
  separated : ∀ byte ∈ extensions.head?, byte = 59
  single : windowPosition CRLF extensions = none

/-- The digits of a size are ASCII, and none of them is a space, a separator or a sign. -/
theorem hexDigit_bounds {c : Char} (digit : (hexDigit? c).isSome) :
    48 ≤ c.toNat ∧ c.toNat ≤ 57 ∨ 97 ≤ c.toNat ∧ c.toNat ≤ 102 ∨ 65 ≤ c.toNat ∧ c.toNat ≤ 70 := by
  unfold hexDigit? at digit
  split at digit
  · next range => exact Or.inl range
  · split at digit
    · next range => exact Or.inr (Or.inl range)
    · split at digit
      · next range => exact Or.inr (Or.inr range)
      · cases digit

theorem utf8_ofList (chars : List Char) : utf8 (String.ofList chars) = chars.flatMap String.utf8EncodeChar := by
  rw [utf8, String.toByteArray_ofList, List.utf8Encode, List.data_toByteArray]

/-- No line ending starts in bytes that hold no carriage return. -/
theorem windowPosition_append {start rest : Bytes} (plain : 13 ∉ start) (single : windowPosition CRLF rest = none) :
    windowPosition CRLF (start ++ rest) = none := by
  induction start with
  | nil => exact single
  | cons byte start ih =>
    rw [List.mem_cons, not_or] at plain
    obtain ⟨other, plain⟩ := plain
    rw [List.cons_append, windowPosition, ih plain, if_neg]
    · rfl
    · simp [CRLF, other]

namespace ChunkLine

variable {line : ChunkLine}

/-- The size that the digits of a line spell. -/
def size (line : ChunkLine) : ℕ := (hexNumber 0 line.digits).getD 0

def bytes (line : ChunkLine) : Bytes := utf8 (String.ofList (line.digits ++ line.padding)) ++ line.extensions

theorem not_mem_text (line : ChunkLine) : 13 ∉ utf8 (String.ofList (line.digits ++ line.padding)) := by
  rw [utf8_ofList, List.mem_flatMap]
  rintro ⟨c, member, encoded⟩
  have ascii : c.toNat < 128 ∧ c.toNat ≠ 13 := by
    obtain digit | blank := List.mem_append.mp member
    · have bounds := hexDigit_bounds (line.hex c digit)
      omega
    · rcases line.blank c blank with rfl | rfl <;> decide
  have short : c.utf8Size = 1 := Char.utf8Size_eq_one_iff.mpr (by
    rw [UInt32.le_iff_toNat_le]
    exact Nat.le_of_lt_succ ascii.1)
  rw [String.utf8EncodeChar_eq_singleton short, List.mem_singleton] at encoded
  have value := congrArg UInt8.toNat encoded
  rw [UInt32.toNat_toUInt8] at value
  change 13 = c.toNat % 256 at value
  omega

/-- A line is a single one. -/
theorem single_bytes (line : ChunkLine) : windowPosition CRLF line.bytes = none :=
  windowPosition_append line.not_mem_text line.single

/-- Digits spell a number. -/
theorem hexNumber_size (line : ChunkLine) : hexNumber 0 line.digits = some line.size := by
  have spelled (digits : List Char) (hex : ∀ c ∈ digits, (hexDigit? c).isSome) (value : ℕ) :
      (hexNumber value digits).isSome := by
    induction digits generalizing value with
    | nil => rfl
    | cons c rest ih =>
      obtain ⟨digit, valued⟩ := Option.isSome_iff_exists.mp (hex c List.mem_cons_self)
      rw [hexNumber, valued, Option.bind_some]
      exact ih (fun other member => hex other (List.mem_cons_of_mem _ member)) _
  obtain ⟨value, read⟩ := Option.isSome_iff_exists.mp (spelled line.digits line.hex 0)
  rw [size, read, Option.getD_some]

/-- The digits of a line are read as its size. -/
theorem fromStrRadix16_digits (fits : line.size < USIZE_RANGE) :
    fromStrRadix16 (String.ofList line.digits) = some line.size := by
  have unsigned : line.digits.head? ≠ some '+' := by
    intro plus
    have bounds := hexDigit_bounds (line.hex '+' (List.mem_of_head? plus))
    revert bounds
    decide
  rw [fromStrRadix16, String.toList_ofList, if_neg unsigned, if_neg line.nonempty, hexNumber_size]
  simp [fits]

/-- Extensions that are UTF-8 hold nothing before their first semicolon. -/
theorem takeWhile_extensions {rest : String} (decoded : fromUtf8 line.extensions = some rest) :
    rest.toList.takeWhile (· ≠ ';') = [] := by
  cases extended : line.extensions with
  | nil =>
    rw [extended] at decoded
    obtain rfl : "" = rest := Option.some.inj decoded
    rfl
  | cons byte more =>
    obtain rfl : byte = 59 := line.separated byte (by rw [extended]; rfl)
    have split : (59 :: more : Bytes) = utf8 ";" ++ more := rfl
    rw [extended, split, fromUtf8_append] at decoded
    obtain ⟨after, -, rfl⟩ := Option.map_eq_some_iff.mp decoded
    rw [String.toList_append]
    rfl

/-- A line whose extensions are UTF-8 names its size. -/
theorem namesSize {rest : String} (decoded : fromUtf8 line.extensions = some rest) (fits : line.size < USIZE_RANGE) :
    NamesSize line.bytes line.size := by
  refine ⟨String.ofList (line.digits ++ line.padding) ++ rest, ?_, ?_⟩
  · rw [bytes, fromUtf8_append, decoded, Option.map_some]
  have plain : ∀ c ∈ line.digits ++ line.padding, decide (c ≠ ';') := by
    intro c member
    obtain digit | blank := List.mem_append.mp member
    · have bounds := hexDigit_bounds (line.hex c digit)
      refine decide_eq_true ?_
      rintro rfl
      revert bounds
      decide
    · rcases line.blank c blank with rfl | rfl <;> rfl
  rw [String.toList_append, String.toList_ofList, List.takeWhile_append_of_pos plain, takeWhile_extensions decoded,
    List.append_nil, String.ofList_append, trim_padded]
  · exact fromStrRadix16_digits fits
  · intro c digit
    have bounds := hexDigit_bounds (line.hex c (by simpa using digit))
    simp only [isWhitespace, Bool.or_eq_false_iff, decide_eq_false_iff_not, beq_eq_false_iff_ne]
    omega
  · intro c blank
    rcases line.blank c (by simpa using blank) with rfl | rfl <;> rfl

/-- A line whose extensions are not UTF-8 is refused. -/
theorem chunkSize_of_broken (broken : fromUtf8 line.extensions = none) : chunkSize line.bytes = .error .utf8 := by
  rw [chunkSize, bytes, fromUtf8_append, broken]
  rfl

end ChunkLine

/-- A chunk of an encoding. -/
structure EncodedChunk where
  line : ChunkLine
  data : Bytes
  nonempty : data ≠ []
  sized : line.size = data.length

def EncodedChunk.bytes (chunk : EncodedChunk) : Bytes := chunk.line.bytes ++ CRLF ++ chunk.data ++ CRLF

/-- A chunked encoding: chunks, a last line of the size zero, and whatever follows it. -/
structure ChunkedBody where
  chunks : List EncodedChunk
  last : ChunkLine
  ended : last.size = 0
  trailer : Bytes

namespace ChunkedBody

def bytes (body : ChunkedBody) : Bytes :=
  body.chunks.flatMap EncodedChunk.bytes ++ (body.last.bytes ++ CRLF ++ body.trailer)

def payload (body : ChunkedBody) : Bytes := body.chunks.flatMap EncodedChunk.data

def lines (body : ChunkedBody) : List ChunkLine := body.chunks.map EncodedChunk.line ++ [body.last]

end ChunkedBody

/-- The longest slice: `isize::MAX`. -/
def ISIZE_MAX : ℕ := 2 ^ 63 - 1

/-- A chunk of an encoding whose line is UTF-8, as the loop takes it. -/
def EncodedChunk.taken (chunk : EncodedChunk) {rest : String} (decoded : fromUtf8 chunk.line.extensions = some rest)
    (fits : chunk.data.length < USIZE_RANGE) : Chunk where
  line := chunk.line.bytes
  data := chunk.data
  ending := CRLF
  single := chunk.line.single_bytes
  named := chunk.sized ▸ ChunkLine.namesSize decoded (chunk.sized ▸ fits)
  nonempty := chunk.nonempty
  ended := rfl

/-- The loop puts out the data of the chunks, up to a line that is not UTF-8. -/
theorem dechunkFrom_chunks (checks : Bool) (chunks : List EncodedChunk) {last : ChunkLine} (ended : last.size = 0)
    (trailer out : Bytes) (fits : ∀ chunk ∈ chunks, chunk.data.length + 2 < USIZE_RANGE) :
    dechunkFrom checks out (chunks.flatMap EncodedChunk.bytes ++ (last.bytes ++ CRLF ++ trailer)) =
      if ∀ line ∈ chunks.map EncodedChunk.line ++ [last], (fromUtf8 line.extensions).isSome then
        some (.ok (out ++ chunks.flatMap EncodedChunk.data))
      else some (.error .utf8) := by
  induction chunks generalizing out with
  | nil =>
    cases decoded : fromUtf8 last.extensions with
    | none =>
      have refused := readChunk_error last.single_bytes (ChunkLine.chunkSize_of_broken decoded) checks out trailer
      rw [List.flatMap_nil, List.nil_append, dechunkFrom_of_fails refused, if_neg]
      simp [decoded]
    | some rest =>
      have named : NamesSize last.bytes 0 := ended ▸ ChunkLine.namesSize decoded (ended ▸ by decide)
      have returned : readChunk checks out (last.bytes ++ CRLF ++ trailer) = some (.returns out) := by
        rw [readChunk_line last.single_bytes named, takeData, if_pos rfl]
      rw [List.flatMap_nil, List.nil_append, dechunkFrom_of_returns returned, if_pos]
      · simp
      · simp [decoded]
  | cons chunk chunks ih =>
    have small := fits chunk List.mem_cons_self
    cases decoded : fromUtf8 chunk.line.extensions with
    | none =>
      have refused := readChunk_error chunk.line.single_bytes (ChunkLine.chunkSize_of_broken decoded) checks out
        (chunk.data ++ (CRLF ++ (chunks.flatMap EncodedChunk.bytes ++ (last.bytes ++ CRLF ++ trailer))))
      rw [if_neg (by simp [decoded])]
      rw [← dechunkFrom_of_fails refused]
      simp [EncodedChunk.bytes]
    | some rest =>
      let taken := chunk.taken decoded (by omega)
      have continued := readChunk_chunk taken small checks out
        (chunks.flatMap EncodedChunk.bytes ++ (last.bytes ++ CRLF ++ trailer))
      have same : chunk.bytes = taken.bytes := rfl
      rw [List.flatMap_cons, List.append_assoc, same, dechunkFrom_of_continues continued,
        ih _ fun other member => fits other (List.mem_cons_of_mem _ member)]
      have others : (∀ line ∈ (chunk :: chunks).map EncodedChunk.line ++ [last], (fromUtf8 line.extensions).isSome) ↔
          ∀ line ∈ chunks.map EncodedChunk.line ++ [last], (fromUtf8 line.extensions).isSome := by
        simp [decoded]
      rw [if_congr others rfl rfl, List.flatMap_cons, ← List.append_assoc]
      rfl

/-- A chunked body is decoded to its payload exactly where its extensions are UTF-8. -/
theorem dechunk_eq_payload_iff (body : ChunkedBody) (short : body.bytes.length ≤ ISIZE_MAX) (checks : Bool) :
    dechunk checks body.bytes = some (.ok body.payload) ↔
      ∀ line ∈ body.lines, (fromUtf8 line.extensions).isSome := by
  have fits : ∀ chunk ∈ body.chunks, chunk.data.length + 2 < USIZE_RANGE := by
    intro chunk member
    have inside : chunk.bytes.length ≤ (body.chunks.flatMap EncodedChunk.bytes).length := by
      rw [List.flatMap_def]
      exact (List.sublist_flatten_of_mem (List.mem_map_of_mem member)).length_le
    have parts : chunk.data.length + 2 ≤ chunk.bytes.length := by
      simp only [EncodedChunk.bytes, List.length_append, CRLF, List.length_cons, List.length_nil]
      omega
    have whole : (body.chunks.flatMap EncodedChunk.bytes).length ≤ body.bytes.length := by
      rw [ChunkedBody.bytes, List.length_append]
      omega
    have bound : ISIZE_MAX < USIZE_RANGE := by decide
    omega
  rw [dechunk, ChunkedBody.bytes, dechunkFrom_chunks checks body.chunks body.ended body.trailer [] fits,
    ChunkedBody.lines, ChunkedBody.payload, List.nil_append]
  split
  · next fine => simpa using fine
  · next broken => simpa using broken

end RoundTrips

/-- Parsing and decoding return exactly where no huge size is reached, in every build; and a chunked body comes
out as its payload exactly where its extensions are UTF-8. -/
theorem response_decodes_iff (json : ResponseJson) :
    (∀ input, (∀ checks, (dechunk checks input).isSome) ↔ ¬ ReachesHugeSize input) ∧
      (∀ raw, (∀ checks, (parseResponse checks json raw).isSome) ↔ ¬ HugeResponse raw) ∧
      ∀ body : ChunkedBody, body.bytes.length ≤ ISIZE_MAX → ∀ checks,
        (dechunk checks body.bytes = some (.ok body.payload) ↔
          ∀ line ∈ body.lines, (fromUtf8 line.extensions).isSome) :=
  ⟨fun _ => dechunk_isSome_iff, fun _ => parseResponse_isSome_iff, dechunk_eq_payload_iff⟩

section Samples

/-- A `serde_json` that reads every text as itself. -/
def plainJson : ResponseJson := ⟨String, "null", id, fromUtf8, fun _ => "\ufffd"⟩

theorem hex_ten : ∀ c ∈ ['0', 'A'], (hexDigit? c).isSome := by
  intro c member
  have all : ['0', 'A'].all fun c => (hexDigit? c).isSome := by decide
  exact List.all_eq_true.mp all c member

theorem hex_zero : ∀ c ∈ ['0'], (hexDigit? c).isSome := by
  intro c member
  exact hex_ten c (List.mem_cons.mpr (Or.inl (List.mem_singleton.mp member)))

/-- The line of a chunk of ten bytes, with a leading zero and an extension. -/
def tenLine : ChunkLine where
  digits := ['0', 'A']
  padding := [' ']
  extensions := utf8 ";n=1"
  nonempty := List.cons_ne_nil _ _
  hex := hex_ten
  blank _ member := Or.inl (List.mem_singleton.mp member)
  separated _ first := (Option.some.inj first).symm
  single := by decide

def lastLine : ChunkLine where
  digits := ['0']
  padding := []
  extensions := []
  nonempty := List.cons_ne_nil _ _
  hex := hex_zero
  blank _ member := absurd member List.not_mem_nil
  separated _ first := absurd first (Option.not_mem_none _)
  single := by decide

/-- Ten bytes in one chunk. -/
def tenBytes : ChunkedBody where
  chunks := [⟨tenLine, utf8 "0123456789", by decide, by decide⟩]
  last := lastLine
  ended := by decide
  trailer := CRLF

/-- A response whose first chunk claims the largest size. -/
def hugeChunk : Bytes :=
  utf8 "HTTP/1.1 200 OK\r\ntransfer-encoding: chunked\r\n\r\nffffffffffffffff\r\nab"

end Samples

/-- Ten bytes are decoded from one chunk, in every build. -/
theorem response_decodes_ten : ∀ checks, dechunk checks tenBytes.bytes = some (.ok (utf8 "0123456789")) := by
  have short : tenBytes.bytes.length ≤ ISIZE_MAX := by decide +kernel
  have fine : ∀ line ∈ tenBytes.lines, (fromUtf8 line.extensions).isSome := by
    have all : tenBytes.lines.all fun line => (fromUtf8 line.extensions).isSome := by decide +kernel
    exact List.all_eq_true.mp all
  exact fun checks => ((response_decodes_iff plainJson).2.2 tenBytes short checks).mpr fine

/-- It makes every build panic: the sum overflows, or it wraps and the slice is out of range. -/
theorem not_parseResponse_hugeChunk :
    (parseResponse true plainJson hugeChunk).isNone ∧ (parseResponse false plainJson hugeChunk).isNone := by
  have found : windowPosition (CRLF ++ CRLF) hugeChunk = some 43 := by decide +kernel
  have head : sliceTo hugeChunk 43 = some (hugeChunk.take 43) := by decide +kernel
  have body : sliceFrom hugeChunk (43 + 4) = some (hugeChunk.drop 47) := by decide +kernel
  have read : readHead (hugeChunk.take 43) = .ok (200, true) := by decide +kernel
  have checked : readChunk true [] (hugeChunk.drop 47) = none := by
    rw [← Option.isNone_iff_eq_none]
    decide +kernel
  have wrapping : readChunk false [] (hugeChunk.drop 47) = none := by
    rw [← Option.isNone_iff_eq_none]
    decide +kernel
  simp only [parseResponse, found, head, body, read, dechunk, Option.bind_eq_bind, Option.bind_some, if_true,
    dechunkFrom_of_panics checked, dechunkFrom_of_panics wrapping, Option.bind_none, Option.isNone_none, and_self]

end RyuRooms.SidecarRuntime
