import FieldCamera.Device.Store
import FieldCamera.Request
import FieldCamera.Setup.Page
import FieldCamera.Setup.Submission
/-!
# Answering a request

Every request is answered with the setup page. Only a form that is sent to the save path and brings
back the session token changes anything: it is stored, and then takes the place of the
configuration.
-/

namespace FieldCamera.Setup

/-- How a request was handled. -/
inductive Route where
  | form
  | saved
  | rejected
  | saveFailed
  /-- The request could not be read. -/
  | invalid
  deriving DecidableEq, Repr

def Route.label : Route → String
  | form => "form"
  | saved => "saved"
  | rejected => "rejected"
  | saveFailed => "save_failed"
  | invalid => "invalid"

structure Answer where
  page : String
  route : Route
  /-- Whether the portal has done its work. -/
  stop : Bool
  deriving DecidableEq, Repr

/-- The state of the portal: the configuration shown, its store, and the token of this run. -/
structure Portal (σ : Type) where
  device : Device
  store : σ
  token : Token

def savePath : String := "/save"

/-- The form that a request submits: the body of a POST, or what follows the save path and a
question mark in a GET. -/
def submission (r : Request) : String :=
  match r.method with
  | .post => r.body
  | .get =>
    String.ofList ((Text.dropStart? (savePath.toList ++ ['?']) r.target.toList).getD [])
  | .other _ => ""

/-- Whether a request is for the save path, or for any path that begins like it. -/
def asksToSave (r : Request) : Bool :=
  savePath.toList.isPrefixOf r.path.toList

namespace Portal

variable {σ : Type}

/-- The page as it stands. -/
def present (p : Portal σ) (route : Route) : Answer :=
  ⟨page p.device p.token false, route, false⟩

/-- Stores a form that was accepted, first the record and then the marker. -/
def accept [Store σ] (p : Portal σ) (form : String) : Answer × Portal σ :=
  let device := deviceOfForm form
  match Store.save p.store device with
  | .error _ => (p.present .saveFailed, p)
  | .ok store =>
    let p := { p with device := device, store := store }
    match Store.setConfigured store true with
    | .error _ => (p.present .saveFailed, p)
    | .ok store => (⟨page device p.token true, .saved, true⟩, { p with store := store })

/-- Answers one request. -/
def answer [Store σ] (p : Portal σ) (r : Request) : Answer × Portal σ :=
  let form := submission r
  if !asksToSave r || form == "" then (p.present .form, p)
  else if p.token.admits (field form "session") then p.accept form
  else (p.present .rejected, p)

/-- A portal for what the store holds. -/
def ofStore [Store σ] (store : σ) (token : Token) : Except Store.Fault (Portal σ) :=
  (Store.loadDevice store).map fun device => ⟨device, store, token⟩

end Portal

end FieldCamera.Setup
