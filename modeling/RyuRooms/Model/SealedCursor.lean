import RyuRooms.Foundation.Machine
import RyuRooms.Model.SealedFile

/-! # The position of a sealed file reader

`Read` and `Seek` of `sealed_file.rs`. Offsets and deltas are the fixed-width integers of the source, a target
is an `i128` there and an integer here, and only the cast back to `u64` can change it.
-/

namespace RyuRooms.Crypto

open Foundation

/-- `std::io::SeekFrom`. -/
inductive SeekFrom where
  | start (offset : UInt64)
  | fromEnd (delta : Int64)
  | current (delta : Int64)
deriving DecidableEq

/-- `SealedFileReader`, with its position. -/
structure PositionedReader where
  reader : SealedFileReader
  position : ℕ

/-- A call on a reader: a read into a buffer of some length, or a seek. -/
inductive IoCall where
  | read (bufLen : ℕ)
  | seek (pos : SeekFrom)
deriving DecidableEq

/-- What a call returns: the bytes that were read, or the position after a seek. -/
inductive IoAnswer where
  | bytes (read : Bytes)
  | position (reached : ℕ)
  | error (message : String)
deriving DecidableEq

/-- The offset that a seek asks for. -/
def SeekFrom.target (plaintextLen position : ℕ) : SeekFrom → ℤ
  | .start offset => offset.toNat
  | .fromEnd delta => plaintextLen + delta.toInt
  | .current delta => position + delta.toInt

/-- `as u64`, of an `i128`. -/
def asU64 (value : ℤ) : ℕ := (value % 2 ^ 64).toNat

namespace PositionedReader

variable (crates : Crates)

/-- `Read::read`, with the bytes it puts into the buffer. -/
def read (bufLen : ℕ) (state : PositionedReader) : IoAnswer × PositionedReader :=
  if state.reader.plaintextLen ≤ state.position ∨ bufLen = 0 then (.bytes [], state)
  else
    let index := state.position / state.reader.chunkSize
    match SealedFileReader.loadChunk crates index state.reader with
    | .error message reader => (.error message, { state with reader })
    | .ok chunk reader =>
      let within := state.position - index * reader.chunkSize
      let take := min bufLen (chunk.length - within)
      (.bytes ((chunk.drop within).take take), ⟨reader, state.position + take⟩)

/-- `Seek::seek`. -/
def seek (pos : SeekFrom) (state : PositionedReader) : IoAnswer × PositionedReader :=
  let target := pos.target state.reader.plaintextLen state.position
  if target < 0 then (.error "seek before the start of a sealed file", state)
  else (.position (asU64 target), { state with position := asU64 target })

/-- What a call does. -/
def exec (state : PositionedReader) : IoCall → IoAnswer × PositionedReader
  | .read bufLen => state.read crates bufLen
  | .seek pos => state.seek pos

/-- The calls on a reader that was just opened, each with its answer. -/
def machine (reader : SealedFileReader) : Machine PositionedReader (IoCall × IoAnswer) where
  Initial state := state = ⟨reader, 0⟩
  step? state label :=
    let (answer, next) := state.exec crates label.1
    if answer = label.2 then some next else none

end PositionedReader

end RyuRooms.Crypto
