import RyuRooms.Model.Text

/-! # Input limits

The bounds and validators of `limits.rs`, with their messages. `Url::parse` belongs to the `url`
crate and is a parameter; a validated value is returned trimmed.
-/

namespace RyuRooms.Limits

def INVITE_TTL_SECS : ℕ := 10 * 60
def SESSION_TTL_SECS : ℕ := 12 * 60 * 60
def MAX_PARTICIPANTS : ℕ := 8
def MAX_HISTORY_MESSAGES : ℕ := 40
def MAX_RETAINED_RUNS : ℕ := 100
def MAX_MODEL_ID_CHARS : ℕ := 256
def MAX_PROMPT_CHARS : ℕ := 16000
def MAX_MESSAGE_CHARS : ℕ := 32000
def MAX_DELTA_CHARS : ℕ := 4096
def MAX_DISPLAY_NAME_CHARS : ℕ := 80
def MAX_IDEMPOTENCY_KEY_CHARS : ℕ := 128
def MAX_SHARE_ORIGIN_CHARS : ℕ := 2048

/-- `validate_non_empty`: the trimmed value, bounded and without control characters. -/
def validateNonEmpty (value : String) (maxChars : ℕ) (field : String) : Except String String :=
  let value := trim value
  if value = "" then .error s!"{field} is required"
  else if maxChars < charCount value then .error s!"{field} is too long"
  else if anyChar isControl value then .error s!"{field} contains control characters"
  else .ok value

/-- What `validate_non_empty` returns is visible, without control characters. -/
theorem validateNonEmpty_ok {value field result : String} {maxChars : ℕ}
    (valid : validateNonEmpty value maxChars field = .ok result) :
    result = trim value ∧ result ≠ "" ∧ charCount result ≤ maxChars ∧ anyChar isControl result = false := by
  simp only [validateNonEmpty] at valid
  split at valid
  · cases valid
  · next filled =>
    split at valid
    · cases valid
    · next short =>
      split at valid
      · cases valid
      · next plain =>
        obtain rfl := Except.ok.inj valid
        exact ⟨rfl, filled, not_lt.mp short, Bool.not_eq_true _ ▸ plain⟩

def validateModelId (value : String) : Except String String :=
  validateNonEmpty value MAX_MODEL_ID_CHARS "modelId"

def validatePrompt (value : String) : Except String String :=
  validateNonEmpty value MAX_PROMPT_CHARS "text"

def validateIdempotencyKey (value : String) : Except String String :=
  validateNonEmpty value MAX_IDEMPOTENCY_KEY_CHARS "idempotencyKey"

def validateDisplayName (value : String) : Except String String :=
  validateNonEmpty value MAX_DISPLAY_NAME_CHARS "displayName"

/-- `validate_delta`: a model's text may contain line breaks and tabs, and is not trimmed. -/
def validateDelta (value : String) : Except String String :=
  if value = "" then .error "delta is required"
  else if MAX_DELTA_CHARS < charCount value then .error "delta is too long"
  else if anyChar (fun c => isControl c && !List.contains ['\n', '\r', '\t'] c) value then
    .error "delta contains unsupported control characters"
  else .ok value

/-- The parts of a parsed `Url` that `validate_share_origin` reads. -/
structure Url where
  scheme : String
  hostStr : Option String
  username : String
  password : Option String
  query : Option String
  fragment : Option String
  path : String
deriving DecidableEq, Repr

/-- `validate_share_origin`: an HTTP origin that is not one of four local spellings. -/
def validateShareOrigin (parseUrl : String → Option Url) (value : String) : Except String String := do
  let origin ← validateNonEmpty value MAX_SHARE_ORIGIN_CHARS "shareOrigin"
  let some parsed := parseUrl origin | .error "shareOrigin must be a valid URL"
  if ¬ (parsed.scheme = "http" ∨ parsed.scheme = "https") ∨ parsed.hostStr = none ∨ parsed.username ≠ "" ∨
      parsed.password ≠ none ∨ parsed.query ≠ none ∨ parsed.fragment ≠ none ∨
      ¬ (parsed.path = "" ∨ parsed.path = "/") then
    .error "shareOrigin must be an HTTP(S) origin without credentials or a path"
  let host := parsed.hostStr.getD ""
  if host.toList.map Char.toLower = "localhost".toList ∨ host = "127.0.0.1" ∨ host = "::1" ∨
      host = "0.0.0.0" then
    .error "shareOrigin must be reachable by another device"
  return String.ofList (origin.toList.reverse.dropWhile (· == '/')).reverse

end RyuRooms.Limits
