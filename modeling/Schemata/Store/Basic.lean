import Schemata.Failure

/-!
# Stores

A store answers keys with bytes and may be told to keep new ones.  It is given by its two
operations on a state of any type, so that several stores can live in one state.
-/

namespace Schemata

/-- The bytes under a key, `none` if there are none, or a failure to read them. -/
abbrev Lookup := Except StoreError (Option ByteArray)

/-- Reading and writing keys in a state. -/
structure Store (σ : Type) where
  get : σ → String → Lookup
  put : σ → String → ByteArray → Except StoreError Unit × σ

namespace Store

/-- The store on the first part of a pair. -/
def onFirst (s : Store σ) : Store (σ × τ) where
  get := fun state => s.get state.1
  put := fun state key bytes =>
    let (answer, first) := s.put state.1 key bytes
    (answer, first, state.2)

/-- The store on the second part of a pair. -/
def onSecond (s : Store τ) : Store (σ × τ) where
  get := fun state => s.get state.2
  put := fun state key bytes =>
    let (answer, second) := s.put state.2 key bytes
    (answer, state.1, second)

/-- Reading one of the keys fails for the given reason. -/
def failingOn (keys : List String) (reason : String) (s : Store σ) : Store σ where
  get := fun state key =>
    if keys.contains key then .error (.unreadable key reason) else s.get state key
  put := s.put

end Store
end Schemata
