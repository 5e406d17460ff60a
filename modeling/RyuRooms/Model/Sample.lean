import RyuRooms.Model.RoomStore

/-! # A sample node

One concrete surrounding for the store, used wherever a general result is instantiated: uuids spelled
by small numbers, a clock that stands still during a call, a share origin with the parts `Url::parse`
gives it, and the true SHA-256 values of the secrets that the samples hash.
-/

namespace RyuRooms

/-- A hexadecimal digit, in lower case. -/
def hexDigit (n : Fin 16) : Char := "0123456789abcdef".toList.get (n.cast (by decide))

/-- The uuid whose digits spell a number. -/
def Uuid.ofNat (n : ℕ) : Uuid where
  simple := String.ofList ((List.range 32).map fun i => hexDigit (Fin.ofNat 16 (n / 16 ^ (31 - i))))
  length := by simp
  hex := by
    have digit : ∀ n, isHexDigit (hexDigit n) := by decide
    simp [digit]

/-- The bytes of a 256-bit number, most significant first. -/
def bytes256 (n : ℕ) : List UInt8 := (List.range 32).map fun i => UInt8.ofNat (n / 256 ^ (31 - i))

namespace Sample

/-- SHA-256 values of the secrets spelled 3, 4, 7 and 8. -/
def digests : List (String × List UInt8) :=
  [((Uuid.ofNat 3).simple,
    bytes256 0x19d8d35c06ab2cb2ae937b5b8dd4c8570a15280b813e6f0c534b258c9954c7c6),
   ((Uuid.ofNat 4).simple,
    bytes256 0xa20248c7f641bea3ab7e1640ea5ac3a6b69d2d209ccc6df16e9677f0069b35dc),
   ((Uuid.ofNat 7).simple,
    bytes256 0xe5090df26d24944b1e29254e5540e676eda0788f76a6a85a387344c4e0f70c64),
   ((Uuid.ofNat 8).simple,
    bytes256 0xda0914b6c61043617d03e8cccc966d0377d0e8afa75fd9b9ddce991f11424c7a)]

/-- SHA-256 on those secrets; other texts stand for themselves. -/
def sha256 (value : String) : List UInt8 :=
  (digests.lookup value).getD (value.toList.map fun c => UInt8.ofNat c.toNat)

/-- An origin in the local network. -/
def origin : String := "http://192.168.1.10:8080"

/-- `Url::parse` on that origin; other texts do not parse. -/
def parseUrl (value : String) : Option Limits.Url :=
  if value = origin then some ⟨"http", some "192.168.1.10", "", none, none, none, "/"⟩ else none

def crates : Crates := ⟨parseUrl, sha256⟩

/-- A store without a key. -/
def store : RoomStore := ⟨crates, .compat⟩

/-- What one call draws at a given time: the uuids from `first` on. -/
def draws (first : ℕ) (now : Instant) : Draws where
  now := fun _ => now
  uuid := fun i => .ofNat (first + i)
  nonce := fun i => i

/-- The host of the sample room. -/
def host : RoomSession :=
  ⟨opaqueId "room_" (.ofNat 1), opaqueId "member_" (.ofNat 2), .host, "Host", ""⟩

end Sample

end RyuRooms
