/-
  What the server takes from libraries that are not part of the repository.

  `argon2Hash` and `argon2Verify` are `Argon2::hash_password` and `PasswordHash::new` followed
  by `verify_password`; `base64Decode` is the STANDARD engine's `decode`. `readXml` is the
  `quick_xml` reader with `trim_text(true)`: the events it yields for a document, in order, up
  to `Eof` (the end of the list) or its first error. An element's name and attributes are the
  reader's bytes decoded lossily, as every caller decodes them at once; a text event is the
  unescaped text, empty when unescaping fails (`unwrap_or_default`).

  Nothing is assumed about them here.
-/
import Mathlib

namespace CaldavMcp

/-- An event of the XML reader. -/
inductive XmlEvent where
  | start (name : String) (attributes : List (String × String))
  | empty (name : String) (attributes : List (String × String))
  | stop (name : String)
  | text (unescaped : String)
  | other
  | error
  deriving DecidableEq, Repr

/-- The library functions the server calls. -/
structure Lib where
  argon2Hash : (password salt : String) → Except String String
  argon2Verify : (password hash : String) → Except String Bool
  base64Decode : String → Option ByteArray
  readXml : ByteArray → List XmlEvent

end CaldavMcp
