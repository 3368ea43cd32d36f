import Schemata.Digest.Sha256

/-!
# Keys of the cache

A built schema is cached under a key that depends on its name alone, so that it can be looked up
before anything is built.
-/

namespace Schemata

/-- The SHA-256 digest of the name, in hexadecimal digits. -/
def cacheKey (name : String) : String :=
  Sha256.hexDigest name.toUTF8

end Schemata
