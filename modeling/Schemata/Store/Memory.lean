import Schemata.Store.Basic

/-!
# The store in memory

The entries are kept as a list of keys with their bytes.  A read-only store rejects every `put`,
while `insert` fills it regardless.
-/

namespace Schemata

/-- Entries, one for each key, and whether `put` is refused. -/
structure MemoryStore where
  entries : List (String × ByteArray)
  readOnly : Bool

namespace MemoryStore

/-- No entries, and `put` is accepted. -/
def empty : MemoryStore := ⟨[], false⟩

/-- No entries, and every `put` is refused. -/
def emptyReadOnly : MemoryStore := ⟨[], true⟩

/-- The bytes under a key. -/
def find? (m : MemoryStore) (key : String) : Option ByteArray :=
  m.entries.lookup key

/-- The bytes are put in place of the key's old ones, or behind all entries. -/
def replaceEntry (key : String) (bytes : ByteArray) :
    List (String × ByteArray) → List (String × ByteArray)
  | [] => [(key, bytes)]
  | (k, b) :: rest =>
    if k = key then (k, bytes) :: rest else (k, b) :: replaceEntry key bytes rest

/-- Keeps the bytes under the key, whether or not the store is read-only. -/
def insert (m : MemoryStore) (key : String) (bytes : ByteArray) : MemoryStore :=
  { m with entries := replaceEntry key bytes m.entries }

/-- Some bytes are kept under the key. -/
def contains (m : MemoryStore) (key : String) : Bool :=
  (m.find? key).isSome

/-- The number of entries. -/
def size (m : MemoryStore) : Nat :=
  m.entries.length

/-- The operations of the store. -/
def store : Store MemoryStore where
  get := fun m key => .ok (m.find? key)
  put := fun m key bytes =>
    if m.readOnly then (.error (.writeRejected key "store is read-only"), m)
    else (.ok (), m.insert key bytes)

end MemoryStore
end Schemata
