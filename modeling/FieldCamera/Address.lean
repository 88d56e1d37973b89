import FieldCamera.Number.Leading
import FieldCamera.Text.Cut
import FieldCamera.Text.Quoted
/-!
# Collector addresses

Host, port and path of the place an upload goes to, read from a URL with or without a scheme.
-/

namespace FieldCamera

structure Address where
  host : String
  port : UInt16
  path : String
  deriving DecidableEq, Repr

namespace Address

inductive Fault where
  | emptyHost (url : String)
  deriving DecidableEq, Repr

def Fault.message : Fault → String
  | emptyHost url => "URL has an empty host: " ++ Text.quoted url

/-- The port of a scheme when the URL gives none: 80 for plain HTTP, else the secure one. -/
def defaultPort (scheme : List Char) : UInt16 :=
  if Text.sameLetters scheme "http".toList then 80 else 443

/-- Scheme and rest of a URL; the scheme is empty where none is given. -/
def splitScheme (url : List Char) : List Char × List Char :=
  (Text.cutText "://".toList url).getD ([], url)

/-- Authority and path; the path begins with the first slash and is `/` without one. -/
def splitPath (rest : List Char) : List Char × List Char :=
  match Text.cut '/' rest with
  | some (authority, path) => (authority, '/' :: path)
  | none => (rest, ['/'])

/-- Host and port; a port text that is no port counts as absent. -/
def splitPort (otherwise : UInt16) (authority : List Char) : List Char × UInt16 :=
  match Text.cut ':' authority with
  | some (host, port) => (host, (Number.port? port).getD otherwise)
  | none => (authority, otherwise)

/-- Reads a URL. Only an empty host is refused. -/
def ofUrl (url : String) : Except Fault Address :=
  let (scheme, rest) := splitScheme url.toList
  let (authority, path) := splitPath rest
  let (host, port) := splitPort (defaultPort scheme) authority
  if host = [] then .error (.emptyHost url)
  else .ok ⟨String.ofList host, port, String.ofList path⟩

/-- Host and port, as a connection is opened to. -/
def authority (a : Address) : String :=
  a.host ++ ":" ++ toString a.port.toNat

/-- The whole address as text. -/
def text (a : Address) : String :=
  a.authority ++ a.path

end Address

end FieldCamera
