import RyuRooms.Model.Text

/-! # How the store seals its text cells

`StoreSeal` (`plugin_keys/store_seal.rs`) with its three states. A `ContentCipher` is known here by
its two operations on text, which draw a nonce and read stored text back under a context; sealing
under a held key does not fail, and every other failure carries its message.
-/

namespace RyuRooms

/-- The twelve random bytes of one seal. -/
abbrev Nonce := BitVec 96

/-- Where a sealed value lives: a purpose and labelled ids. -/
structure ContentContext where
  purpose : String
  fields : List (String × String)
deriving DecidableEq, Repr

/-- `ContentContext::for_id`. -/
def ContentContext.forId (purpose id : String) : ContentContext := ⟨purpose, [("id", id)]⟩

/-- `ctx` of `store.rs`: the context of one cell. -/
def ctx (table column id : String) : ContentContext := .forId (table ++ "." ++ column) id

/-- A TEXT value opened from storage, and whether it should be sealed again. -/
structure Opened where
  value : String
  needsReseal : Bool
deriving DecidableEq, Repr

/-- The text operations of a `ContentCipher`. -/
structure ContentCipher where
  sealText : Nonce → String → ContentContext → String
  openText : String → ContentContext → Except String Opened

/-- `CONTENT_TEXT_PREFIX`. -/
def CONTENT_TEXT_PREFIX : String := "encb:v1:"

/-- `COMPAT_ESCAPE`. -/
def COMPAT_ESCAPE : String := "encb:raw:"

/-- `ContentCipher::is_sealed_text`. -/
def isSealedText (stored : String) : Bool := startsWith stored CONTENT_TEXT_PREFIX

/-- How one store seals, decided when it opens. -/
inductive StoreSeal where
  | sealing (cipher : ContentCipher)
  | compat
  | unhealthy (reason : String)

namespace StoreSeal

/-- `StoreSeal::ensure_writable`. -/
def ensureWritable : StoreSeal → Except String Unit
  | .unhealthy reason => .error reason
  | .sealing _ | .compat => .ok ()

/-- `StoreSeal::seal_text`. -/
def sealText (storeSeal : StoreSeal) (nonce : Nonce) (value : String) (context : ContentContext) :
    Except String String :=
  match storeSeal with
  | .sealing cipher => .ok (cipher.sealText nonce value context)
  | .compat => .ok (if startsWith value "encb:" then COMPAT_ESCAPE ++ value else value)
  | .unhealthy reason => .error reason

/-- `StoreSeal::is_sealing`. -/
def isSealing : StoreSeal → Bool
  | .sealing _ => true
  | .compat | .unhealthy _ => false

/-- `StoreSeal::open_text_detailed`. -/
def openTextDetailed (storeSeal : StoreSeal) (stored : String) (context : ContentContext) :
    Except String (String × Bool) :=
  match stripPrefix stored COMPAT_ESCAPE with
  | some inner => .ok (inner, storeSeal.isSealing)
  | none =>
    match storeSeal with
    | .sealing cipher => (cipher.openText stored context).map fun opened => (opened.value, opened.needsReseal)
    | .compat | .unhealthy _ =>
      if isSealedText stored then
        .error "a sealed value cannot be opened: this process has no key for it"
      else .ok (stored, false)

/-- `StoreSeal::open_text`. -/
def openText (storeSeal : StoreSeal) (stored : String) (context : ContentContext) : Except String String :=
  (storeSeal.openTextDetailed stored context).map Prod.fst

/-- `StoreSeal::open_opt`. -/
def openOpt (storeSeal : StoreSeal) (stored : Option String) (context : ContentContext) :
    Except String (Option String) :=
  match stored with
  | none => .ok none
  | some stored => (storeSeal.openText stored context).map some

end StoreSeal

end RyuRooms
