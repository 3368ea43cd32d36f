import Schemata.FileSystem.Basic
import Schemata.Store.Basic

/-!
# The store in a directory

Every key is the path of a file below a root directory.  A missing file is an absent key, and a
file is always replaced as a whole.
-/

namespace Schemata.DirectoryStore

/-- The path of the file for a key, whose leading slashes do not count. -/
def keyPath (root : Path) (key : String) : Path :=
  root.join (String.ofList (key.toList.dropWhile (· = '/')))

/-- The operations of the store below a root. -/
def store (root : Path) : Store FileSystem where
  get := fun fs key =>
    match fs.read (keyPath root key) with
    | .ok content => .ok (some content)
    | .error .notFound => .ok none
    | .error e => .error (.unreadable key e.message)
  put := fun fs key bytes =>
    let p := keyPath root key
    match fs.storeFile (p.parent?.getD root) p bytes with
    | (.ok (), stored) => (.ok (), stored)
    | (.error e, made) => (.error (.writeRejected key e.message), made)

end Schemata.DirectoryStore
