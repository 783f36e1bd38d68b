/-
# Outcomes

Key definitions: `Outcome`.
-/
import Raop.Error
import Raop.Message.Response

namespace Raop

/-- What comes of an act, beside what is seen of it. -/
inductive Outcome where
  | done
  | noChannel
  | noConnection
  /-- It takes a network, and there is none. -/
  | noRoute
  | failed (cause : Error)
  /-- The answer to a request, if there is one. -/
  | answer (result : Option (Except Error Reply))
  /-- So many peers have not answered. -/
  | pending (peers : Nat)
  | flag (holds : Bool)

end Raop
