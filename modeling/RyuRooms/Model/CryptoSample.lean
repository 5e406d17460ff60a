import RyuRooms.Foundation.Base64
import RyuRooms.Model.Content

/-! # A toy cipher

One concrete choice of the primitives, for the instances of general results: a ciphertext is the message
and a tag that sums up the key, the nonce, the associated data and the message.
-/

namespace RyuRooms.Crypto.Sample

open Foundation

/-- Sixteen times the sum of some bytes. -/
def tag (bytes : Bytes) : Bytes := List.replicate TAG_LEN (bytes.foldl (· + ·) 0)

def encrypt (key nonce message aad : Bytes) : Bytes := message ++ tag (key ++ nonce ++ aad ++ message)

def decrypt (key nonce ciphertext aad : Bytes) : Option Bytes :=
  let message := ciphertext.take (ciphertext.length - TAG_LEN)
  if encrypt key nonce message aad = ciphertext then some message else none

/-- One character for each byte, none of them whitespace. -/
def encode (bytes : Bytes) : String := String.ofList (bytes.map fun byte => Char.ofNat (0x4e00 + byte.toNat))

def decode (text : String) : Option Bytes := some (text.toList.map fun c => UInt8.ofNat (c.toNat - 0x4e00))

def crates : Crates where
  hkdf salt ikm info := [(salt ++ ikm ++ info).foldl (· + ·) 0]
  encrypt := encrypt
  decrypt := decrypt
  sha256 bytes := [bytes.foldl (· + ·) 0]
  hmac key message := [(key ++ message).foldl (· + ·) 0]
  hexEncode := encode
  base64Encode := encode
  base64Decode := decode

/-- The toy primitives with real base64 and keys of the full length. -/
def standard : Crates :=
  { crates with
    hkdf := fun salt ikm info => List.replicate 32 ((salt ++ ikm ++ info).foldl (· + ·) 0)
    base64Encode := fun bytes => String.ofList (Base64.encode bytes)
    base64Decode := fun text => Base64.decode text.toList }

def cipher : ContentCipher := ⟨"rooms.db", [], ⟨[7], "k7"⟩, [⟨[5], "k5"⟩]⟩

def context : ContentContext := .forId "log" "meeting-1"

def salt : { salt : Bytes // salt.length = 20 } := ⟨List.replicate 20 3, rfl⟩

def nonce : { nonce : Bytes // nonce.length = 12 } := ⟨List.replicate 12 4, rfl⟩

end RyuRooms.Crypto.Sample
