import FieldCamera.Settings.SocketAddress
import FieldCamera.SystemFault
import FieldCamera.Text.Quoted
/-!
# Where the portal listens
-/

namespace FieldCamera.Setup.Listener

inductive Fault where
  | badAddress (address : String)
  | unavailable (address : SocketAddress) (cause : SystemFault)
  deriving DecidableEq, Repr

def Fault.message : Fault → String
  | badAddress address => "portal address " ++ Text.quoted address ++ " is not a socket address"
  | unavailable address cause => "cannot listen on " ++ address.text ++ ": " ++ cause.text

/-- Takes an address for the portal; `refusal` tells what the system has against one. -/
def bind (refusal : SocketAddress → Option SystemFault) (address : String) :
    Except Fault SocketAddress :=
  match SocketAddress.ofText? address with
  | none => .error (.badAddress address)
  | some a =>
    match refusal a with
    | some cause => .error (.unavailable a cause)
    | none => .ok a

end FieldCamera.Setup.Listener
