import Mathlib.Data.Rat.Init
import RyuRooms.Model.RoomRuntime

/-! # What the client checks before it sends

`ModelStreamRequest::validate` of the crate `app-events`, which counts bytes where the rooms backend
counts characters. A request carries two more fields than the runtime decides about: both hold
constants, and a temperature is known by its value, a finite `f32` here.
-/

namespace RyuRooms.AppEvents

def MAX_MODEL_ID_BYTES : ℕ := 256
def MAX_MODEL_PROVIDER_BYTES : ℕ := 64
def MAX_MODEL_REQUEST_ID_BYTES : ℕ := 128
def MAX_MODEL_MESSAGES : ℕ := 40
def MAX_MODEL_MESSAGE_BYTES : ℕ := 32 * 1024
def MAX_MODEL_CONTEXT_BYTES : ℕ := 128 * 1024
def MAX_MODEL_OUTPUT_TOKENS : ℕ := 4096

/-- `usize::saturating_add`. -/
def saturatingAdd (left right : ℕ) : ℕ := min (left + right) (2 ^ 64 - 1)

/-- `str::contains`. -/
def contains (value pattern : String) : Bool := value.toList.tails.any pattern.toList.isPrefixOf

/-- A `return Err(ModelStreamError::Invalid(…))` under a condition. -/
def refuse (condition : Prop) [Decidable condition] (message : String) : Except ModelStreamError Unit :=
  if condition then .error (.invalid message) else .ok ()

/-- `validate_text`. -/
def validateText (value : String) (maxBytes : ℕ) (field : String) : Except ModelStreamError Unit :=
  refuse (trim value = "" ∨ maxBytes < value.utf8ByteSize ∨ anyChar isControl value)
    s!"{field} is empty, too long, or invalid"

/-- `ModelStreamRequest` with all its fields. -/
structure StreamRequest extends ModelStreamRequest where
  maxTokens : Option ℕ
  temperature : Option ℚ

/-- The control characters a message may not contain. -/
def isUnsupported (c : Char) : Bool := isControl c && !List.contains ['\n', '\r', '\t'] c

/-- The loop over the messages, which returns their total length. -/
def validateMessages : List ModelStreamMessage → ℕ → Except ModelStreamError ℕ
  | [], total => .ok total
  | message :: rest, total => do
    refuse (message.role ∉ ["system", "user", "assistant"]) "message role is not supported"
    refuse (message.content = "" ∨ MAX_MODEL_MESSAGE_BYTES < message.content.utf8ByteSize)
      "message content is empty or too long"
    refuse (anyChar isUnsupported message.content) "message content contains unsupported control characters"
    validateMessages rest (saturatingAdd total message.content.utf8ByteSize)

/-- The check of a provider, where there is one. -/
def validateProvider : Option String → Except ModelStreamError Unit
  | none => .ok ()
  | some provider => do
    validateText provider MAX_MODEL_PROVIDER_BYTES "provider"
    refuse (contains provider "://" ∨ contains provider "/") "provider must be a provider slot, not a URL"

/-- `ModelStreamRequest::validate`. -/
def StreamRequest.validate (request : StreamRequest) : Except ModelStreamError Unit := do
  validateText request.model MAX_MODEL_ID_BYTES "model"
  validateText request.requestId MAX_MODEL_REQUEST_ID_BYTES "requestId"
  refuse (request.messages = [] ∨ MAX_MODEL_MESSAGES < request.messages.length) "messages must contain 1..40 items"
  let total ← validateMessages request.messages 0
  refuse (MAX_MODEL_CONTEXT_BYTES < total) "message context is too large"
  validateProvider request.provider
  refuse (∃ value ∈ request.maxTokens, value = 0 ∨ MAX_MODEL_OUTPUT_TOKENS < value)
    "maxTokens must be between 1 and 4096"
  refuse (∃ value ∈ request.temperature, ¬ (0 ≤ value ∧ value ≤ 2)) "temperature must be between 0 and 2"

def MODEL_MAX_TOKENS : ℕ := 2048

/-- The `f32` nearest to 0.2. -/
def MODEL_TEMPERATURE : ℚ := 13421773 / 67108864

/-- The request `run_generation` builds, with its constants. -/
def generationRequest (accepted : AcceptedRun) : StreamRequest where
  toModelStreamRequest := modelStreamRequest accepted
  maxTokens := some MODEL_MAX_TOKENS
  temperature := some MODEL_TEMPERATURE

end RyuRooms.AppEvents
