import RyuRooms.Model.ShareOrigin
import RyuRooms.Store.Committed

/-! # Invite links that another device can open

The guest path behind a stored origin leaves the scheme and the authority of its URL as they are, so an
invite link has the same scheme, host and port. Of the hosts that no other device can reach, four are
refused by their text; those with another text are overlooked: the two local addresses of IPv6, which are
printed in brackets, the rest of the loopback network, and `localhost` with a trailing dot.
-/

namespace RyuRooms

open Foundation

section Hosts

/-- A host that means the device itself. -/
def Host.IsLocal : Host → Prop
  | .domain name => name.toList.map Char.toLower = "localhost".toList ∨ name.toList.map Char.toLower = "localhost.".toList
  | .ipv4 first second third fourth => first = 127 ∨ first = 0 ∧ second = 0 ∧ third = 0 ∧ fourth = 0
  | .ipv6 address => address = 0 ∨ address = 1

/-- A local host whose text is none of the four that are refused. -/
def Host.Overlooked : Host → Prop
  | .domain name => name.toList.map Char.toLower = "localhost.".toList
  | .ipv4 first second third fourth => first = 127 ∧ (second, third, fourth) ≠ (0, 0, 1)
  | .ipv6 address => address = 0 ∨ address = 1

instance (host : Host) : Decidable host.IsLocal := by
  cases host <;> unfold Host.IsLocal <;> infer_instance

instance (host : Host) : Decidable host.Overlooked := by
  cases host <;> unfold Host.Overlooked <;> infer_instance

/-- The hosts that `validate_share_origin` refuses by their text. -/
def RefusedText (text : String) : Prop :=
  text.toList.map Char.toLower = "localhost".toList ∨ text = "127.0.0.1" ∨ text = "::1" ∨ text = "0.0.0.0"

variable {ipv6Text : BitVec 128 → String}

/-- A byte in decimal has no dot. -/
theorem undotted (byte : UInt8) : '.' ∉ (toString byte.toNat).toList := by
  intro dot
  rw [show toString byte.toNat = byte.toNat.repr from rfl, Nat.toList_repr] at dot
  exact absurd (isDigit_of_toDigits _ _ dot) (by decide)

/-- A byte is known by its decimal digits. -/
theorem toString_byte_inj {first second : UInt8}
    (same : (toString first.toNat).toList = (toString second.toNat).toList) : first = second := by
  change first.toNat.repr.toList = second.toNat.repr.toList at same
  rw [Nat.toList_repr, Nat.toList_repr] at same
  have values := congrArg (fun digits => Nat.ofDigitChars 10 digits 0) same
  simp only [Nat.ofDigitChars_ten_toDigits] at values
  exact UInt8.toNat_inj.mp values

/-- Bytes that a dot ends are told apart. -/
theorem dotted_inj {first second : UInt8} {rest other : List Char}
    (same : (toString first.toNat).toList ++ '.' :: rest = (toString second.toNat).toList ++ '.' :: other) :
    first = second ∧ rest = other := by
  have before := congrArg (List.takeWhile (· ≠ '.')) same
  have after := congrArg (List.dropWhile (· ≠ '.')) same
  have clear (byte : UInt8) : ∀ c ∈ (toString byte.toNat).toList, decide (c ≠ '.') := by
    intro c member
    exact decide_eq_true fun dot => undotted byte (dot ▸ member)
  rw [List.takeWhile_append_of_pos (clear first), List.takeWhile_append_of_pos (clear second)] at before
  rw [List.dropWhile_append_of_pos (clear first), List.dropWhile_append_of_pos (clear second)] at after
  exact ⟨toString_byte_inj (by simpa using before), by simpa using after⟩

/-- An IPv4 address is known by its text. -/
theorem ipv4_text_inj {first second third fourth first' second' third' fourth' : UInt8}
    (same : (Host.ipv4 first second third fourth).text ipv6Text =
      (Host.ipv4 first' second' third' fourth').text ipv6Text) :
    first = first' ∧ second = second' ∧ third = third' ∧ fourth = fourth' := by
  have chars := congrArg String.toList same
  simp only [Host.text, String.toList_append, List.append_assoc] at chars
  obtain ⟨one, chars⟩ := dotted_inj chars
  obtain ⟨two, chars⟩ := dotted_inj chars
  obtain ⟨three, chars⟩ := dotted_inj chars
  exact ⟨one, two, three, toString_byte_inj chars⟩

theorem text_loopback : (Host.ipv4 127 0 0 1).text ipv6Text = "127.0.0.1" := by rfl

theorem text_unspecified : (Host.ipv4 0 0 0 0).text ipv6Text = "0.0.0.0" := by rfl

/-- A local host is refused by its text or overlooked. -/
theorem Host.IsLocal.refused_or_overlooked {host : Host} (isLocal : host.IsLocal) :
    RefusedText (host.text ipv6Text) ∨ host.Overlooked := by
  cases host with
  | domain name => exact isLocal.imp_left Or.inl
  | ipv4 first second third fourth =>
    rcases isLocal with rfl | ⟨rfl, rfl, rfl, rfl⟩
    · by_cases loopback : (second, third, fourth) = (0, 0, 1)
      · obtain ⟨rfl, rfl, rfl⟩ : second = 0 ∧ third = 0 ∧ fourth = 1 := by simpa using loopback
        exact Or.inl (Or.inr (Or.inl text_loopback))
      · exact Or.inr ⟨rfl, loopback⟩
    · exact Or.inl (Or.inr (Or.inr (Or.inr text_unspecified)))
  | ipv6 address => exact Or.inr isLocal

theorem Host.Overlooked.isLocal {host : Host} (overlooked : host.Overlooked) : host.IsLocal := by
  cases host with
  | domain name => exact Or.inr overlooked
  | ipv4 first second third fourth => exact Or.inl overlooked.1
  | ipv6 address => exact overlooked

/-- The text of a refused host is one of four, up to the case of its letters. -/
theorem RefusedText.lower {text : String} (refused : RefusedText text) : text.toList.map Char.toLower ∈
    ["localhost".toList, "127.0.0.1".toList, "::1".toList, "0.0.0.0".toList] := by
  rcases refused with same | rfl | rfl | rfl
  · simp [same]
  · decide
  · decide
  · decide

/-- An overlooked host has another text than those refused. -/
theorem Host.Overlooked.not_refused {host : Host} (overlooked : host.Overlooked) :
    ¬ RefusedText (host.text ipv6Text) := by
  intro refused
  have lower := refused.lower
  cases host with
  | domain name =>
    have same : (name.toList.map Char.toLower) = "localhost.".toList := overlooked
    rw [Host.text, same] at lower
    revert lower
    decide
  | ipv4 first second third fourth =>
    have dotted : '.' ∈ ((Host.ipv4 first second third fourth).text ipv6Text).toList.map Char.toLower := by
      refine List.mem_map.mpr ⟨'.', ?_, by decide⟩
      simp [Host.text, String.toList_append]
    rcases refused with same | same | same | same
    · rw [same] at dotted
      revert dotted
      decide
    · obtain ⟨-, rfl, rfl, rfl⟩ := ipv4_text_inj (same.trans text_loopback.symm)
      exact overlooked.2 rfl
    · rw [same] at dotted
      revert dotted
      decide
    · obtain ⟨zero, -⟩ := ipv4_text_inj (same.trans text_unspecified.symm)
      rw [zero] at overlooked
      exact absurd overlooked.1 (by decide)
  | ipv6 address =>
    have bracket : (((Host.ipv6 address).text ipv6Text).toList.map Char.toLower).head? = some '[' := by
      simp only [Host.text, String.toList_append, List.append_assoc]
      rfl
    simp only [List.mem_cons, List.not_mem_nil, or_false] at lower
    rcases lower with same | same | same | same <;>
      · rw [same] at bracket
        revert bracket
        decide

end Hosts

section Origins

/-- What is asked of a share origin before the text of its host is looked at. -/
structure PlainOrigin (parseUrl : String → Option Limits.Url) (value : String) (parsed : Limits.Url) : Prop where
  text : Limits.validateNonEmpty value Limits.MAX_SHARE_ORIGIN_CHARS "shareOrigin" = .ok (trim value)
  parses : parseUrl (trim value) = some parsed
  scheme : parsed.scheme = "http" ∨ parsed.scheme = "https"
  host : parsed.hostStr ≠ none
  username : parsed.username = ""
  password : parsed.password = none
  query : parsed.query = none
  fragment : parsed.fragment = none
  path : parsed.path = "" ∨ parsed.path = "/"

/-- `str::trim_end_matches('/')`. -/
def trimSlashes (text : String) : String := String.ofList (text.toList.rdropWhile (· == '/'))

/-- A plain origin is accepted unless the text of its host is refused, and stored without its last slashes. -/
theorem validateShareOrigin_ok_iff {parseUrl : String → Option Limits.Url} {value origin : String} :
    Limits.validateShareOrigin parseUrl value = .ok origin ↔ ∃ parsed, PlainOrigin parseUrl value parsed ∧
      ¬ RefusedText (parsed.hostStr.getD "") ∧ origin = trimSlashes (trim value) := by
  unfold Limits.validateShareOrigin
  cases text : Limits.validateNonEmpty value Limits.MAX_SHARE_ORIGIN_CHARS "shareOrigin" with
  | error message =>
    constructor
    · intro accepted
      cases accepted
    · rintro ⟨parsed, plain, -⟩
      cases text.symm.trans plain.text
  | ok origin' =>
    obtain ⟨rfl, -⟩ := Limits.validateNonEmpty_ok text
    simp only [bind, Except.bind]
    cases parses : parseUrl (trim value) with
    | none =>
      constructor
      · intro accepted
        cases accepted
      · rintro ⟨parsed, plain, -⟩
        cases parses.symm.trans plain.parses
    | some parsed =>
      simp only
      split
      · next odd =>
        constructor
        · intro accepted
          cases accepted
        · rintro ⟨other, plain, -⟩
          obtain rfl := Option.some.inj (parses.symm.trans plain.parses)
          rcases odd with odd | odd | odd | odd | odd | odd | odd
          · exact absurd plain.scheme odd
          · exact absurd odd plain.host
          · exact absurd plain.username odd
          · exact absurd plain.password odd
          · exact absurd plain.query odd
          · exact absurd plain.fragment odd
          · exact absurd plain.path odd
      · next even =>
        rw [not_or, not_not, not_or, not_or, not_not, not_or, not_not, not_or, not_not, not_or, not_not, not_not] at even
        obtain ⟨scheme, host, username, password, query, fragment, path⟩ := even
        have plain : PlainOrigin parseUrl value parsed :=
          ⟨text, parses, scheme, host, username, password, query, fragment, path⟩
        split
        · next refused =>
          constructor
          · intro accepted
            cases accepted
          · rintro ⟨other, also, reachable, -⟩
            obtain rfl := Option.some.inj (parses.symm.trans also.parses)
            exact absurd refused reachable
        · next reachable =>
          constructor
          · intro accepted
            exact ⟨parsed, plain, reachable, (Except.ok.inj accepted).symm⟩
          · rintro ⟨-, -, -, rfl⟩
            rfl

end Origins

section Links

/-- Slashes at the end of a text are not part of what another character ends. -/
theorem rdropWhile_append {start tail : List Char} {test : Char → Bool} {last : Char} (ends : start.getLast? = some last)
    (kept : test last = false) : (start ++ tail).rdropWhile test = start ++ tail.rdropWhile test := by
  induction tail using List.reverseRecOn with
  | nil =>
    rw [List.append_nil, List.rdropWhile_nil, List.append_nil, List.rdropWhile_eq_self_iff]
    intro nonempty
    rw [List.getLast?_eq_some_getLast nonempty] at ends
    rw [Option.some.inj ends, kept]
    exact Bool.false_ne_true
  | append_singleton tail c ih =>
    rw [← List.append_assoc]
    by_cases dropped : test c
    · rw [List.rdropWhile_concat_pos _ _ _ dropped, List.rdropWhile_concat_pos _ _ _ dropped, ih]
    · rw [List.rdropWhile_concat_neg _ _ _ dropped, List.rdropWhile_concat_neg _ _ _ dropped, List.append_assoc]

/-- The text of an HTTP URL: scheme, colon, slashes, authority and a rest that something else begins. -/
theorem cutHttp_eq {scheme slashes authority tail : List Char} (plain : ':' ∉ scheme)
    (http : String.ofList (scheme.map Char.toLower) = "http" ∨ String.ofList (scheme.map Char.toLower) = "https")
    (slashed : ∀ c ∈ slashes, isSlash c) (known : ∀ c ∈ authority, endsAuthority c = false) (filled : authority ≠ [])
    (ended : ∀ c ∈ tail.head?, endsAuthority c) :
    ∃ parts, cutHttp (String.ofList (scheme ++ ':' :: (slashes ++ (authority ++ tail)))) = some parts ∧
      parts.scheme = String.ofList (scheme.map Char.toLower) ∧ parts.authority = String.ofList authority := by
  have uncolon : ∀ c ∈ scheme, decide (c ≠ ':') := by
    intro c member
    exact decide_eq_true fun colon => plain (colon ▸ member)
  have before : (scheme ++ ':' :: (slashes ++ (authority ++ tail))).takeWhile (· ≠ ':') = scheme := by
    rw [List.takeWhile_append_of_pos uncolon]
    simp
  have after : ((scheme ++ ':' :: (slashes ++ (authority ++ tail))).dropWhile (· ≠ ':')).drop 1 =
      slashes ++ (authority ++ tail) := by
    rw [List.dropWhile_append_of_pos uncolon]
    simp
  have unslashed : (slashes ++ (authority ++ tail)).dropWhile isSlash = authority ++ tail := by
    rw [List.dropWhile_append_of_pos slashed]
    cases authority with
    | nil => exact absurd rfl filled
    | cons c rest =>
      have other := known c List.mem_cons_self
      simp only [endsAuthority, Bool.or_eq_false_iff] at other
      rw [List.cons_append, List.dropWhile_cons_of_neg (by simp [other.1.1])]
  have cut : (authority ++ tail).takeWhile (fun c => !endsAuthority c) = authority := by
    rw [List.takeWhile_append_of_pos (by simpa using known)]
    cases tail with
    | nil => simp
    | cons c rest => simp [ended c rfl]
  have colon : ':' ∈ scheme ++ ':' :: (slashes ++ (authority ++ tail)) := by simp
  simp only [cutHttp, String.toList_ofList, before, after, unslashed, cut]
  rw [if_pos ⟨http, colon⟩]
  exact ⟨_, rfl, rfl, rfl⟩

/-- What is left of a list starts where the test fails. -/
theorem test_head_dropWhile {test : Char → Bool} {chars : List Char} {first : Char}
    (starts : (chars.dropWhile test).head? = some first) : test first = false := by
  induction chars with
  | nil => cases starts
  | cons c rest ih =>
    rw [List.dropWhile_cons] at starts
    split at starts
    · exact ih starts
    · next stops =>
      obtain rfl : c = first := by simpa using starts
      exact Bool.not_eq_true _ ▸ stops

/-- The text of an HTTP URL is put together from its parts. -/
theorem exists_parts {text : String} {parts : HttpParts} (cut : cutHttp text = some parts) :
    ∃ scheme slashes tail, text.toList = scheme ++ ':' :: (slashes ++ (parts.authority.toList ++ tail)) ∧
      ':' ∉ scheme ∧ parts.scheme = String.ofList (scheme.map Char.toLower) ∧
      (parts.scheme = "http" ∨ parts.scheme = "https") ∧ (∀ c ∈ slashes, isSlash c) ∧
      (∀ c ∈ parts.authority.toList, endsAuthority c = false) ∧ ∀ c ∈ tail.head?, endsAuthority c := by
  unfold cutHttp at cut
  simp only at cut
  split at cut
  · next accepted =>
    obtain rfl := Option.some.inj cut
    obtain ⟨http, colon⟩ := accepted
    refine ⟨text.toList.takeWhile (· ≠ ':'), ((text.toList.dropWhile (· ≠ ':')).drop 1).takeWhile isSlash,
      (((text.toList.dropWhile (· ≠ ':')).drop 1).dropWhile isSlash).dropWhile fun c => !endsAuthority c, ?_, ?_, rfl,
      http, ?_, ?_, ?_⟩
    · have first : text.toList.dropWhile (· ≠ ':') = ':' :: (text.toList.dropWhile (· ≠ ':')).drop 1 := by
        cases rest : text.toList.dropWhile (· ≠ ':') with
        | nil => simpa using List.dropWhile_eq_nil_iff.mp rest ':' colon
        | cons c after =>
          have stops : decide (c ≠ ':') = false := test_head_dropWhile (by rw [rest, List.head?_cons])
          obtain rfl : c = ':' := by simpa using stops
          rfl
      rw [String.toList_ofList, List.takeWhile_append_dropWhile, List.takeWhile_append_dropWhile, ← first,
        List.takeWhile_append_dropWhile]
    · intro member
      simpa using List.mem_takeWhile_imp member
    · exact fun c member => List.mem_takeWhile_imp member
    · intro c member
      rw [String.toList_ofList] at member
      simpa using List.mem_takeWhile_imp member
    · intro c member
      simpa using test_head_dropWhile member
  · cases cut

/-- What is put behind an origin and starts with a slash leaves its scheme and its authority. -/
theorem cutHttp_join {origin : String} {parts : HttpParts} (cut : cutHttp origin = some parts)
    (filled : parts.authority ≠ "") {path : String} (starts : path.toList.head? = some '/') :
    trimSlashes origin ≠ "" ∧ ∃ joined, cutHttp (trimSlashes origin ++ path) = some joined ∧ joined.scheme = parts.scheme ∧
      joined.authority = parts.authority := by
  obtain ⟨scheme, slashes, tail, whole, plain, lower, http, slashed, known, ended⟩ := exists_parts cut
  have nonempty : parts.authority.toList ≠ [] := by simpa using filled
  obtain ⟨last, ends⟩ : ∃ last, parts.authority.toList.getLast? = some last :=
    ⟨_, List.getLast?_eq_some_getLast nonempty⟩
  have kept : (last == '/') = false := by
    have other := known last (List.mem_of_getLast? ends)
    simp only [endsAuthority, isSlash, Bool.or_eq_false_iff] at other
    exact other.1.1.1
  have stored : trimSlashes origin = String.ofList (scheme ++ ':' :: (slashes ++ (parts.authority.toList ++
      tail.rdropWhile (· == '/')))) := by
    have split : scheme ++ ':' :: (slashes ++ (parts.authority.toList ++ tail)) =
        (scheme ++ ':' :: (slashes ++ parts.authority.toList)) ++ tail := by simp
    have lastOf : (scheme ++ ':' :: (slashes ++ parts.authority.toList)).getLast? = some last := by
      simp [List.getLast?_append, List.getLast?_cons, ends]
    rw [trimSlashes, whole, split, rdropWhile_append lastOf kept]
    simp
  have endedAfter : ∀ c ∈ (tail.rdropWhile (· == '/') ++ path.toList).head?, endsAuthority c := by
    intro c member
    obtain ⟨trimmed, split⟩ := List.rdropWhile_prefix (· == '/') tail
    cases left : tail.rdropWhile (· == '/') with
    | nil =>
      rw [left, List.nil_append, starts] at member
      obtain rfl := Option.some.inj member
      rfl
    | cons first rest =>
      rw [left, List.cons_append, List.head?_cons] at member
      obtain rfl := Option.some.inj member
      refine ended first ?_
      rw [← split, left]
      rfl
  rw [lower] at http
  obtain ⟨joined, again, sameScheme, sameAuthority⟩ := cutHttp_eq plain http slashed known nonempty endedAfter
  have link : trimSlashes origin ++ path = String.ofList (scheme ++ ':' :: (slashes ++ (parts.authority.toList ++
      (tail.rdropWhile (· == '/') ++ path.toList)))) := by
    apply String.toList_inj.mp
    rw [String.toList_append, stored, String.toList_ofList, String.toList_ofList]
    simp
  refine ⟨?_, joined, link ▸ again, sameScheme.trans lower.symm, by rw [sameAuthority, String.ofList_toList]⟩
  rw [stored]
  simp

theorem anyChar_append (test : Char → Bool) (left right : String) :
    anyChar test (left ++ right) = (anyChar test left || anyChar test right) := by
  rw [anyChar, String.toList_append, List.any_append, anyChar, anyChar]

/-- A link put together from a clean origin is clean. -/
theorem cleanText_joinUrl {origin : String} (clean : CleanText origin) (filled : trimSlashes origin ≠ "") (uuid : Uuid) :
    CleanText (joinUrl (trimSlashes origin) (opaqueSecret uuid)) := by
  obtain ⟨plain, trimmed⟩ := clean
  have stored : (trimSlashes origin).toList <+: origin.toList := by
    rw [trimSlashes, String.toList_ofList]
    exact List.rdropWhile_prefix _ _
  constructor
  · have plainStored : anyChar isControl (trimSlashes origin) = false := by
      simp only [anyChar, List.any_eq_false] at plain ⊢
      exact fun c member => plain c (stored.subset member)
    have plainSecret : anyChar isControl (opaqueSecret uuid) = false := by
      simp only [anyChar, List.any_eq_false]
      intro c member
      simp [(isHexDigit_spec (uuid.digit member)).2.1]
    rw [joinUrl, anyChar_append, anyChar_append, plainStored, plainSecret]
    decide
  · have front : (trimSlashes origin).toList.dropWhile isWhitespace = (trimSlashes origin).toList := by
      obtain ⟨front, -⟩ := trim_eq_self_iff.mp trimmed
      rw [List.dropWhile_eq_self_iff] at front ⊢
      intro nonempty
      rw [stored.getElem nonempty]
      exact front (nonempty.trans_le stored.length_le)
    have path : "/api/rooms/guest#invite=".toList.dropWhile isWhitespace = "/api/rooms/guest#invite=".toList := by decide
    have secret : opaqueSecret uuid ≠ "" := by
      intro empty
      have length := uuid.length
      rw [show uuid.simple = "" from empty] at length
      cases length
    rw [joinUrl, String.append_assoc]
    exact trim_append front filled (trim_append path (by decide) uuid.trim_simple secret) (by simp)

end Links

section Reachable

variable {crate : UrlCrate} {value : String}

/-- An accepted origin leads to invite links of its own scheme, host and port. -/
theorem PlainOrigin.join {parsed : Limits.Url} (plain : PlainOrigin crate.parseUrl value parsed) :
    ∃ whole, crate.parse (trim value) = some whole ∧ whole.toUrl = parsed ∧
      (∃ host, whole.host = some host ∧ parsed.hostStr = some (host.text crate.ipv6Text)) ∧
      ∀ uuid, ∃ joined, crate.parse (joinUrl (trimSlashes (trim value)) (opaqueSecret uuid)) = some joined ∧
        joined.scheme = whole.scheme ∧ joined.host = whole.host ∧ joined.port = whole.port := by
  obtain ⟨whole, parses, rfl⟩ := Option.map_eq_some_iff.mp plain.parses
  obtain ⟨-, -, -, visible⟩ := Limits.validateNonEmpty_ok plain.text
  have clean : CleanText (trim value) := ⟨visible, trim_trim value⟩
  obtain ⟨parts, cut⟩ := Option.isSome_iff_exists.mp (crate.cut_of_http _ whole clean parses plain.scheme)
  have built := crate.parse_http _ parts clean cut
  obtain ⟨known, authority, rfl⟩ := Option.map_eq_some_iff.mp (built.symm.trans parses)
  have filled : parts.authority ≠ "" := by
    intro empty
    rw [empty, crate.authority_empty] at authority
    cases authority
  refine ⟨_, parses, rfl, ⟨known.host, rfl, rfl⟩, fun uuid => ?_⟩
  have starts : ("/api/rooms/guest#invite=" ++ opaqueSecret uuid).toList.head? = some '/' := by
    rw [String.toList_append]
    rfl
  obtain ⟨nonempty, joined, again, sameScheme, sameAuthority⟩ := cutHttp_join cut filled starts
  have link : CleanText (joinUrl (trimSlashes (trim value)) (opaqueSecret uuid)) :=
    cleanText_joinUrl clean nonempty uuid
  have text : joinUrl (trimSlashes (trim value)) (opaqueSecret uuid) =
      trimSlashes (trim value) ++ ("/api/rooms/guest#invite=" ++ opaqueSecret uuid) := by
    rw [joinUrl, String.append_assoc]
  have rebuilt := crate.parse_http _ joined link (text ▸ again)
  rw [sameScheme, sameAuthority, authority, Option.map_some] at rebuilt
  exact ⟨_, rebuilt, rfl, rfl, rfl⟩

/-- What an accepted share origin is for: its host is another device's, and invite links keep its scheme, host
and port. -/
def Reachable (crate : UrlCrate) (value origin : String) : Prop :=
  ∃ parsed, crate.parse (trim value) = some parsed ∧ (∀ host ∈ parsed.host, ¬ host.IsLocal) ∧
    ∀ uuid, ∃ joined, crate.parse (joinUrl origin (opaqueSecret uuid)) = some joined ∧
      joined.scheme = parsed.scheme ∧ joined.host = parsed.host ∧ joined.port = parsed.port

/-- A share origin that is in order but for a local host whose text is not refused. -/
def OverlookedOrigin (crate : UrlCrate) (value : String) : Prop :=
  ∃ parsed host, PlainOrigin crate.parseUrl value parsed ∧
    ((crate.parse (trim value)).bind ParsedUrl.host) = some host ∧ host.Overlooked

/-- Accepting a share origin means that it is reachable, exactly where its host is not overlooked. -/
theorem reachable_iff : (∀ origin, Limits.validateShareOrigin crate.parseUrl value = .ok origin →
    Reachable crate value origin) ↔ ¬ OverlookedOrigin crate value := by
  constructor
  · rintro reachable ⟨parsed, host, plain, here, overlooked⟩
    obtain ⟨whole, parses, rfl, ⟨other, isHost, shown⟩, -⟩ := plain.join
    rw [parses, Option.bind_some, isHost] at here
    obtain rfl := Option.some.inj here
    have accepted := validateShareOrigin_ok_iff.mpr ⟨_, plain, by
      rw [shown, Option.getD_some]
      exact overlooked.not_refused, rfl⟩
    obtain ⟨again, parsesAgain, remote, -⟩ := reachable _ accepted
    obtain rfl := Option.some.inj (parses.symm.trans parsesAgain)
    exact remote other isHost overlooked.isLocal
  · intro seen origin accepted
    obtain ⟨parsed, plain, reachable, rfl⟩ := validateShareOrigin_ok_iff.mp accepted
    obtain ⟨whole, parses, rfl, ⟨host, isHost, shown⟩, joins⟩ := plain.join
    refine ⟨whole, parses, fun other isOther isLocal => ?_, joins⟩
    obtain rfl := Option.some.inj (isHost.symm.trans isOther)
    rw [shown, Option.getD_some] at reachable
    rcases isLocal.refused_or_overlooked with refused | overlooked
    · exact reachable refused
    · exact seen ⟨_, host, plain, by rw [parses, Option.bind_some, isHost], overlooked⟩

end Reachable

namespace RoomStore

/-- A new room stores the share origin that was validated. -/
theorem createRoom_shareOrigin {store : RoomStore} {env : Env} {input : CreateRoomInput} {created : CreatedRoom}
    {source target : Db} (success : store.createRoom env input source = .ok created target) :
    Limits.validateShareOrigin store.crates.parseUrl input.shareOrigin = .ok created.shareOrigin ∧
      ∃ room ∈ target.rooms, room.id = created.room.id ∧ room.shareOrigin = created.shareOrigin := by
  simp only [createRoom, orInvalid, bind_ok_iff, returnExcept_ok_iff, mapError_eq_ok_iff, sealCell_eq_ok_iff,
    insertCreatedRoom_ok_iff, pure_ok_iff] at success
  obtain ⟨modelId, _, ⟨-, rfl⟩, shareOrigin, _, ⟨valid, rfl⟩, cell, _, ⟨-, -, rfl⟩, _, _,
    ⟨-, roomed, invited, inserted, second, third⟩, room, _, read, rfl, rfl⟩ := success
  have named := validateRoomId_opaqueId (env.uuid 0)
  have known := (created_spec inserted second third).2
  obtain ⟨-, found, rfl⟩ := (snapshotOrNotFound_eq_ok_iff named known).mp read
  obtain ⟨_, -, rfl⟩ := Option.map_eq_some_iff.mp found
  obtain ⟨rooms, added, rfl⟩ := Db.insertRoom_eq_some_iff.mp inserted
  obtain ⟨-, invites, -, rfl⟩ := Db.insertInvite_eq_some_iff.mp second
  obtain ⟨-, participants, -, rfl⟩ := Db.insertParticipant_eq_some_iff.mp third
  exact ⟨valid, _, (Table.mem_of_insert? added).mpr (Or.inr rfl), rfl, rfl⟩

end RoomStore

/-- Every room stores a share origin that was accepted, and an accepted share origin is reachable exactly where
its host is not one of the overlooked local hosts. -/
theorem shareOrigin_reachable_iff (crate : UrlCrate) :
    (∀ value, (∀ origin, Limits.validateShareOrigin crate.parseUrl value = .ok origin →
      Reachable crate value origin) ↔ ¬ OverlookedOrigin crate value) ∧
    ∀ (store : RoomStore) (env : Env) (input : CreateRoomInput) (created : CreatedRoom) (source target : Db),
      store.crates.parseUrl = crate.parseUrl → store.createRoom env input source = .ok created target →
        Limits.validateShareOrigin crate.parseUrl input.shareOrigin = .ok created.shareOrigin ∧
          ∃ room ∈ target.rooms, room.id = created.room.id ∧ room.shareOrigin = created.shareOrigin := by
  refine ⟨fun _ => reachable_iff, fun store env input created source target same success => ?_⟩
  rw [← same]
  exact RoomStore.createRoom_shareOrigin success

section Samples

/-- An `url` that reads HTTP URLs by what their authorities mean. -/
def UrlCrate.ofAuthority (authority : String → String → Option Authority)
    (refuses : ∀ scheme, authority scheme "" = none) : UrlCrate where
  parse text :=
    if CleanText text then
      (cutHttp text).bind fun parts => (authority parts.scheme parts.authority).map fun known => {
        scheme := parts.scheme
        hostStr := some (known.host.text fun address => if address = 1 then "::1" else "::")
        username := known.username
        password := known.password
        query := parts.query
        fragment := parts.fragment
        path := if parts.path = "" then "/" else parts.path
        host := some known.host
        port := known.port }
    else none
  authority := authority
  path path := if path = "" then "/" else path
  query := id
  fragment := id
  ipv6Text address := if address = 1 then "::1" else "::"
  parse_http text parts clean cut := by
    simp only [if_pos clean, cut, Option.bind_some, Option.map_id_fun, id_eq]
  cut_of_http text parsed clean parses _ := by
    rw [if_pos clean] at parses
    obtain ⟨parts, cut, -⟩ := Option.bind_eq_some_iff.mp parses
    rw [cut, Option.isSome_some]
  authority_empty := refuses

/-- An address of the local network and the loopback address of IPv6, with their ports. -/
def homeAuthority (_ authority : String) : Option Authority :=
  if authority = "192.168.1.20:7980" then some ⟨"", none, .ipv4 192 168 1 20, some 7980⟩
  else if authority = "[::1]:7980" then some ⟨"", none, .ipv6 1, some 7980⟩
  else none

def homeUrls : UrlCrate := .ofAuthority homeAuthority fun _ => rfl

end Samples

/-- An origin of the local network is accepted and reachable. -/
theorem shareOrigin_reachable_home :
    Limits.validateShareOrigin homeUrls.parseUrl "http://192.168.1.20:7980/" = .ok "http://192.168.1.20:7980" ∧
      Reachable homeUrls "http://192.168.1.20:7980/" "http://192.168.1.20:7980" := by
  have accepted : Limits.validateShareOrigin homeUrls.parseUrl "http://192.168.1.20:7980/" =
      .ok "http://192.168.1.20:7980" := by decide +kernel
  have seen : ¬ OverlookedOrigin homeUrls "http://192.168.1.20:7980/" := by
    rintro ⟨parsed, host, -, here, overlooked⟩
    have read : (homeUrls.parse (trim "http://192.168.1.20:7980/")).bind ParsedUrl.host = some (.ipv4 192 168 1 20) := by
      decide +kernel
    obtain rfl := Option.some.inj (read.symm.trans here)
    exact absurd overlooked (by decide)
  exact ⟨accepted, ((shareOrigin_reachable_iff homeUrls).1 _).mpr seen _ accepted⟩

/-- The loopback address of IPv6 is accepted, since it is compared without its brackets. -/
theorem not_shareOrigin_reachable_loopback : ¬ ∀ (crate : UrlCrate) (value origin : String),
    Limits.validateShareOrigin crate.parseUrl value = .ok origin → Reachable crate value origin := by
  intro reachable
  have accepted : Limits.validateShareOrigin homeUrls.parseUrl "http://[::1]:7980" = .ok "http://[::1]:7980" := by
    decide +kernel
  obtain ⟨parsed, parses, remote, -⟩ := reachable homeUrls _ _ accepted
  have read : (homeUrls.parse (trim "http://[::1]:7980")).bind ParsedUrl.host = some (.ipv6 1) := by decide +kernel
  rw [parses, Option.bind_some] at read
  exact remote _ read (Or.inr rfl)

end RyuRooms
