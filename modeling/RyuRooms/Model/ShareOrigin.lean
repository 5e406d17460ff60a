import RyuRooms.Model.RoomStore

/-! # Share origins as URLs

A share origin is checked once, stored without its trailing slashes, and put in front of the guest path
in every invite link. The crate `url` is a parameter that follows the URL standard as far as the texts
checked here go: an HTTP URL is cut into its scheme, its authority and the rest, of which the authority
alone decides the host and the port. A numeric host is printed in dotted decimal or in brackets.
-/

namespace RyuRooms

/-- The host of a URL. -/
inductive Host where
  | domain (name : String)
  | ipv4 (first second third fourth : UInt8)
  | ipv6 (address : BitVec 128)
deriving DecidableEq

/-- `Url::host_str`, with how `std` prints an IPv6 address. -/
def Host.text (ipv6Text : BitVec 128 → String) : Host → String
  | .domain name => name
  | .ipv4 first second third fourth => toString first.toNat ++ "." ++ toString second.toNat ++ "." ++
      toString third.toNat ++ "." ++ toString fourth.toNat
  | .ipv6 address => "[" ++ ipv6Text address ++ "]"

/-- A parsed URL: what `validate_share_origin` reads of it, its host and its port. -/
structure ParsedUrl extends Limits.Url where
  host : Option Host
  port : Option ℕ
deriving DecidableEq

/-- What the authority of an HTTP URL holds. -/
structure Authority where
  username : String
  password : Option String
  host : Host
  port : Option ℕ

/-- The parts of the text of an HTTP URL. -/
structure HttpParts where
  scheme : String
  authority : String
  path : String
  query : Option String
  fragment : Option String

/-- In an HTTP URL a backslash is as good as a slash. -/
def isSlash (c : Char) : Bool := c == '/' || c == '\\'

/-- What stands behind the authority. -/
def endsAuthority (c : Char) : Bool := isSlash c || c == '?' || c == '#'

/-- What stands behind the path. -/
def endsPath (c : Char) : Bool := c == '?' || c == '#'

/-- The text of an HTTP URL in its parts: after the scheme any number of slashes, then the authority. -/
def cutHttp (text : String) : Option HttpParts :=
  let scheme := String.ofList ((text.toList.takeWhile (· ≠ ':')).map Char.toLower)
  if (scheme = "http" ∨ scheme = "https") ∧ ':' ∈ text.toList then
    let rest := ((text.toList.dropWhile (· ≠ ':')).drop 1).dropWhile isSlash
    let tail := rest.dropWhile fun c => !endsAuthority c
    let search := tail.dropWhile fun c => !endsPath c
    some {
      scheme
      authority := String.ofList (rest.takeWhile fun c => !endsAuthority c)
      path := String.ofList (tail.takeWhile fun c => !endsPath c)
      query := if search.head? = some '?' then some (String.ofList ((search.drop 1).takeWhile (· ≠ '#'))) else none
      fragment := if '#' ∈ search then some (String.ofList ((search.dropWhile (· ≠ '#')).drop 1)) else none }
  else none

/-- A text of which the parser takes nothing off: trimmed, and without control characters. -/
def CleanText (text : String) : Prop := anyChar isControl text = false ∧ trim text = text

instance (text : String) : Decidable (CleanText text) := inferInstanceAs (Decidable (_ ∧ _))

/-- The crate `url`, as the URL standard has it for the texts checked here. -/
structure UrlCrate where
  parse : String → Option ParsedUrl
  /-- What an authority behind a scheme means. -/
  authority : String → String → Option Authority
  /-- How a path, a query and a fragment are printed. -/
  path : String → String
  query : String → String
  fragment : String → String
  ipv6Text : BitVec 128 → String
  parse_http : ∀ text parts, CleanText text → cutHttp text = some parts →
    parse text = (authority parts.scheme parts.authority).map fun known => {
      scheme := parts.scheme
      hostStr := some (known.host.text ipv6Text)
      username := known.username
      password := known.password
      query := parts.query.map query
      fragment := parts.fragment.map fragment
      path := path parts.path
      host := some known.host
      port := known.port }
  cut_of_http : ∀ text parsed, CleanText text → parse text = some parsed →
    parsed.scheme = "http" ∨ parsed.scheme = "https" → (cutHttp text).isSome
  authority_empty : ∀ scheme, authority scheme "" = none

/-- `Url::parse`, as far as `validate_share_origin` reads its result. -/
def UrlCrate.parseUrl (crate : UrlCrate) (text : String) : Option Limits.Url :=
  (crate.parse text).map ParsedUrl.toUrl

/-- The link of an invite, as `issue_invite` of the API writes it. -/
def joinUrl (shareOrigin invite : String) : String := shareOrigin ++ "/api/rooms/guest#invite=" ++ invite

end RyuRooms
