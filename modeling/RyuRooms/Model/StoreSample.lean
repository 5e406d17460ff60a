import RyuRooms.Model.ContentSqlite
import RyuRooms.Model.CryptoSample

/-! # A small store

A file with two planned columns and an environment without faults, for the instances of general results
about the migration.
-/

namespace RyuRooms.Crypto.Sample

open Foundation

def messages : ColumnPlan where
  table := "messages"
  column := "body"
  key := "id"
  keyKind := .integer
  kind := .text
  contextColumns := []
  context row := .forId "messages.body" row.key

def files : ColumnPlan where
  table := "files"
  column := "content"
  key := "name"
  keyKind := .text
  kind := .blob
  contextColumns := []
  context row := .forId "files.content" row.key

/-- A column of three texts: one that is none, a plain one, and one that no key opens. -/
def bodies : Column := ⟨[⟨.integer 1, .null, []⟩, ⟨.integer 2, .text "hello", []⟩, ⟨.integer 10, .text "encb:v1:", []⟩], by decide⟩

/-- A column of two values: one that is empty and a plain one. -/
def contents : Column := ⟨[⟨.text "a", .blob [], []⟩, ⟨.text "b", .blob [1, 2], []⟩], by decide⟩

/-- Everything goes well. -/
def fair : Environment where
  stops _ := none
  nonces _ _ := nonce
  now := 0
  secureDelete _ := 1
  checkpoint _ := (0, 0, 0)
  freelistCount _ := 0
  pageSize _ := 4096
  freeSpace _ := some (2 ^ 40)
  storeSize _ := 4096

/-- The process dies at a point. -/
def dying (last : ℕ) : Environment := { fair with stops := fun point => if last ≤ point then some .crashed else none }

/-- A file whose values no migration has seen, recorded under a key. -/
def disk (kcv : Option String) : Disk where
  columns item := if item = messages.item then bodies else if item = files.item then contents else ⟨[], .nil⟩
  items := ∅
  record := kcv.map fun kcv => ⟨.ok, none, some kcv, SUPPORTED_MIN_READER⟩
  traces := {}

end RyuRooms.Crypto.Sample
