import FieldCamera.Text.Blank
import FieldCamera.Text.Cut
import FieldCamera.Text.Utf8
/-!
# The two halves of a URL

The form shows each URL as a server and an endpoint. `joinHalves` makes the URL that is stored and
`splitHalves` the halves that are shown for it.
-/

namespace FieldCamera.Setup

/-- The text without its first character where that is a slash. -/
def dropSlash : List Char → List Char
  | '/' :: cs => cs
  | cs => cs

/-- The text without its last character where that is a slash. -/
def dropLastSlash (cs : List Char) : List Char :=
  (dropSlash cs.reverse).reverse

/-- Joins two trimmed halves by one slash, dropping one slash from each side of the seam. An empty
half leaves the other out: without an endpoint the server stands alone, without a server nothing
of the endpoint is kept. -/
def joinHalves (server endpoint : List Char) : List Char :=
  let server := dropLastSlash (Text.trim server)
  let endpoint := dropSlash (Text.trim endpoint)
  if server ≠ [] ∧ endpoint ≠ [] then server ++ '/' :: endpoint else server

/-- Cuts at the last slash that has more than seven bytes before it, past the longest scheme. -/
def splitHalves (url : List Char) : List Char × List Char :=
  match Text.cutLast '/' url with
  | some (server, endpoint) =>
    if 7 < Utf8.size server then (server, endpoint) else (url, [])
  | none => (url, [])

def joinUrl (server endpoint : String) : String :=
  String.ofList (joinHalves server.toList endpoint.toList)

def splitUrl (url : String) : String × String :=
  let halves := splitHalves url.toList
  (String.ofList halves.1, String.ofList halves.2)

end FieldCamera.Setup
