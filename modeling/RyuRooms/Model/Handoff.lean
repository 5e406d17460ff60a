import RyuRooms.Model.Content

/-! # The answer of an app sidecar

`handoff.rs` of the crate `sidecar-runtime`, from the bytes of the response on. A panic is `none`: a slice
out of range, and where the build checks for overflow also an addition beyond what a `usize` of 64 bits
holds; where it does not, the sum wraps. Only the size of a chunk is added to as a machine number: what the
rest of the code adds up are positions within a slice. `serde_json` is a parameter, with the lossy decoder.
-/

namespace RyuRooms.SidecarRuntime

open Foundation

/-- What `anyhow` carries: a message or context of this module, or the error of `str::from_utf8`. -/
inductive ResponseError where
  | message (text : String)
  | utf8
deriving DecidableEq

/-- `usize::MAX + 1`. -/
def USIZE_RANGE : ℕ := 2 ^ 64

/-- An addition of two `usize` in a build with or without overflow checks. -/
def usizeAdd (checks : Bool) (left right : ℕ) : Option ℕ :=
  if left + right < USIZE_RANGE then some (left + right)
  else if checks then none else some ((left + right) % USIZE_RANGE)

/-- `&input[..stop]`. -/
def sliceTo (input : Bytes) (stop : ℕ) : Option Bytes := if stop ≤ input.length then some (input.take stop) else none

/-- `&input[start..]`. -/
def sliceFrom (input : Bytes) (start : ℕ) : Option Bytes :=
  if start ≤ input.length then some (input.drop start) else none

/-- The first position of a pattern: `windows` and `position`. -/
def windowPosition (pattern : Bytes) : Bytes → Option ℕ
  | [] => none
  | byte :: rest => if pattern.isPrefixOf (byte :: rest) then some 0 else (windowPosition pattern rest).map (· + 1)

/-- The line ending `\r\n`. -/
def CRLF : Bytes := [13, 10]

/-- The value of a hexadecimal digit of either case. -/
def hexDigit? (c : Char) : Option ℕ :=
  if '0' ≤ c ∧ c ≤ '9' then some (c.toNat - '0'.toNat)
  else if 'a' ≤ c ∧ c ≤ 'f' then some (c.toNat - 'a'.toNat + 10)
  else if 'A' ≤ c ∧ c ≤ 'F' then some (c.toNat - 'A'.toNat + 10)
  else none

/-- The number that hexadecimal digits spell after a beginning of them. -/
def hexNumber (value : ℕ) : List Char → Option ℕ
  | [] => some value
  | c :: rest => (hexDigit? c).bind fun digit => hexNumber (value * 16 + digit) rest

/-- `usize::from_str_radix(text, 16)`, which takes a leading plus. -/
def fromStrRadix16 (text : String) : Option ℕ :=
  let digits := if text.toList.head? = some '+' then text.toList.tail else text.toList
  if digits = [] then none else (hexNumber 0 digits).filter fun value => decide (value < USIZE_RANGE)

/-- The size that the line of a chunk names before its extensions. -/
def chunkSize (line : Bytes) : Except ResponseError ℕ := do
  let sizeText ← (fromUtf8 line).elim (.error .utf8) .ok
  let named := String.ofList (sizeText.toList.takeWhile (· ≠ ';'))
  (fromStrRadix16 (trim named)).elim (.error (.message "malformed chunk size")) .ok

/-- What one round of the loop of `dechunk` comes to. -/
inductive ChunkRound where
  | fails (error : ResponseError)
  | returns (out : Bytes)
  | continues (out input : Bytes)

def readChunk (checks : Bool) (out input : Bytes) : Option ChunkRound :=
  match windowPosition CRLF input with
  | none => some (.fails (.message "malformed chunked body"))
  | some lineEnd => do
    let line ← sliceTo input lineEnd
    match chunkSize line with
    | .error error => some (.fails error)
    | .ok size =>
      let input ← sliceFrom input (lineEnd + 2)
      if size = 0 then some (.returns out)
      else
        let needed ← usizeAdd checks size 2
        if input.length < needed then some (.fails (.message "truncated chunked body"))
        else
          let data ← sliceTo input size
          let input ← sliceFrom input needed
          some (.continues (out ++ data) input)

theorem windowPosition_add_length_le {pattern input : Bytes} {position : ℕ}
    (found : windowPosition pattern input = some position) : position + pattern.length ≤ input.length := by
  induction input generalizing position with
  | nil => cases found
  | cons byte rest ih =>
    rw [windowPosition] at found
    split at found
    · next here =>
      obtain rfl := Option.some.inj found
      simpa using (List.isPrefixOf_iff_prefix.mp here).length_le
    · obtain ⟨later, there, rfl⟩ := Option.map_eq_some_iff.mp found
      have bound := ih there
      rw [List.length_cons]
      omega

theorem length_of_sliceFrom {input rest : Bytes} {start : ℕ} (sliced : sliceFrom input start = some rest) :
    rest.length + start = input.length := by
  unfold sliceFrom at sliced
  split at sliced
  · obtain rfl := Option.some.inj sliced
    rw [List.length_drop]
    omega
  · cases sliced

/-- A round that continues has read at least the end of a line. -/
theorem readChunk_shorter {checks : Bool} {out input outAfter rest : Bytes}
    (round : readChunk checks out input = some (.continues outAfter rest)) : rest.length < input.length := by
  unfold readChunk at round
  cases found : windowPosition CRLF input with
  | none =>
    rw [found] at round
    cases round
  | some lineEnd =>
    simp only [found, Option.bind_eq_bind, Option.bind_eq_some_iff] at round
    obtain ⟨line, -, round⟩ := round
    cases named : chunkSize line with
    | error error =>
      simp only [named] at round
      cases round
    | ok size =>
      simp only [named, Option.bind_eq_some_iff] at round
      obtain ⟨after, sliced, round⟩ := round
      have shorter := length_of_sliceFrom sliced
      split at round
      · cases round
      · obtain ⟨needed, -, round⟩ := Option.bind_eq_some_iff.mp round
        split at round
        · cases round
        · obtain ⟨data, -, round⟩ := Option.bind_eq_some_iff.mp round
          obtain ⟨left, slicedAgain, round⟩ := Option.bind_eq_some_iff.mp round
          have shorterAgain := length_of_sliceFrom slicedAgain
          cases round
          omega

/-- The loop of `dechunk`. -/
def dechunkFrom (checks : Bool) (out input : Bytes) : Option (Except ResponseError Bytes) :=
  match _round : readChunk checks out input with
  | none => none
  | some (.fails error) => some (.error error)
  | some (.returns out) => some (.ok out)
  | some (.continues out rest) => dechunkFrom checks out rest
termination_by input.length
decreasing_by exact readChunk_shorter _round

def dechunk (checks : Bool) (input : Bytes) : Option (Except ResponseError Bytes) := dechunkFrom checks [] input

/-- `str::split("\r\n")` after the start of a line, which is read backwards. -/
def splitCrlfFrom (reversed : List Char) : List Char → List String
  | '\r' :: '\n' :: rest => String.ofList reversed.reverse :: splitCrlfFrom [] rest
  | c :: rest => splitCrlfFrom (c :: reversed) rest
  | [] => [String.ofList reversed.reverse]

/-- `str::split_whitespace`. -/
def splitWhitespace (value : String) : List String :=
  ((value.toList.splitOnP isWhitespace).filter (· ≠ [])).map String.ofList

/-- `str::parse`, to a `u16`. -/
def parseU16 (value : String) : Option ℕ :=
  let digits := if value.toList.head? = some '+' then value.toList.tail else value.toList
  if digits ≠ [] ∧ digits.all Char.isDigit then
    (some (Nat.ofDigitChars 10 digits 0)).filter fun code => decide (code < 2 ^ 16)
  else none

/-- `str::contains`. -/
def containsText (value part : String) : Bool := value.toList.tails.any fun rest => part.toList.isPrefixOf rest

/-- Whether a header line announces a chunked body. -/
def announcesChunks (line : String) : Bool :=
  let lower := String.ofList (line.toList.map Char.toLower)
  startsWith lower "transfer-encoding:" && containsText lower "chunked"

/-- The status of a response, and whether its body is chunked. -/
def readHead (head : Bytes) : Except ResponseError (ℕ × Bool) := do
  let text ← (fromUtf8 head).elim (.error (.message "malformed sidecar response")) .ok
  let lines := splitCrlfFrom [] text.toList
  let status ← ((lines.head?.bind fun line => (splitWhitespace line)[1]?).bind parseU16).elim
    (.error (.message "malformed sidecar status line")) .ok
  return (status, lines.tail.any announcesChunks)

/-- `serde_json`, as far as a response needs it, and `String::from_utf8_lossy`. -/
structure ResponseJson where
  Value : Type
  null : Value
  string : String → Value
  fromSlice : Bytes → Option Value
  fromUtf8Lossy : Bytes → String

structure SidecarResponse (json : ResponseJson) where
  status : ℕ
  body : json.Value

/-- The body of a response as a value. -/
def readBody (json : ResponseJson) (body : Bytes) : json.Value :=
  if body = [] then json.null else (json.fromSlice body).getD (json.string (json.fromUtf8Lossy body))

def parseResponse (checks : Bool) (json : ResponseJson) (raw : Bytes) :
    Option (Except ResponseError (SidecarResponse json)) :=
  match windowPosition (CRLF ++ CRLF) raw with
  | none => some (.error (.message "malformed sidecar response"))
  | some split => do
    let head ← sliceTo raw split
    match readHead head with
    | .error error => some (.error error)
    | .ok (status, chunked) =>
      let body ← sliceFrom raw (split + 4)
      let body ← if chunked then dechunk checks body else some (.ok body)
      some (body.map fun body => ⟨status, readBody json body⟩)

end RyuRooms.SidecarRuntime
