/-!
# The session token

A token is made for each run of the portal and written into the form. Only a form that brings it
back is accepted.
-/

namespace FieldCamera.Setup

structure Token where
  text : String
  deriving DecidableEq, Repr

/-- Exact comparison; an empty candidate is never accepted, not even for an empty token. -/
def Token.admits (token : Token) (candidate : String) : Bool :=
  candidate ≠ "" && candidate == token.text

end FieldCamera.Setup
