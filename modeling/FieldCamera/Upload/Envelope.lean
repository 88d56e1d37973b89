import FieldCamera.Address
import FieldCamera.Number.Places
import FieldCamera.Text.Utf8
/-!
# The upload request

One frame travels as a form of three parts: the identity of the node, its battery level and the
image. The image bytes are sent as they are, between a head and a tail, so that the length of the
whole is known before the first byte.
-/

namespace FieldCamera.Upload

/-- What one upload reports. -/
structure Payload where
  deviceId : UInt64
  battery : Float32
  filename : String
  image : List UInt8

/-- The battery level between zero and one. -/
def clampBattery (level : Float32) : Float32 :=
  if level < 0 then 0 else if level > 1 then 1 else level

def Payload.batteryText (p : Payload) : String :=
  (Number.Binary.ofFloat32 (clampBattery p.battery)).toPlaces 2

def lineEnd : String := "\r\n"

/-- The three pieces of a body, and the boundary between its parts. -/
structure Envelope where
  boundary : String
  head : List UInt8
  image : List UInt8
  tail : List UInt8
  deriving DecidableEq, Repr

/-- The line that opens a part. -/
def opening (boundary : String) : String :=
  "--" ++ boundary ++ lineEnd

/-- A part that holds a short text. -/
def textPart (boundary name value : String) : String :=
  opening boundary ++ "Content-Disposition: form-data; name=\"" ++ name ++ "\"" ++ lineEnd ++
    lineEnd ++ value ++ lineEnd

/-- The headers of the part that holds the image. -/
def imageHead (boundary filename : String) : String :=
  opening boundary ++ "Content-Disposition: form-data; name=\"image\"; filename=\"" ++ filename ++
    "\"" ++ lineEnd ++ "Content-Type: image/jpeg" ++ lineEnd ++ lineEnd

def Payload.seal (p : Payload) (boundary : String) : Envelope where
  boundary := boundary
  head := Utf8.encode (textPart boundary "mac" (toString p.deviceId.toNat) ++
    textPart boundary "battery" p.batteryText ++ imageHead boundary p.filename)
  image := p.image
  tail := Utf8.encode (lineEnd ++ "--" ++ boundary ++ "--" ++ lineEnd)

namespace Envelope

def contentType (e : Envelope) : String :=
  "multipart/form-data; boundary=" ++ e.boundary

/-- The exact length of the body. -/
def contentLength (e : Envelope) : Nat :=
  e.head.length + e.image.length + e.tail.length

/-- First line and headers of the request, up to the empty line that ends them. -/
def requestHead (e : Envelope) (target : Address) : String :=
  "POST " ++ target.path ++ " HTTP/1.1" ++ lineEnd ++
    "Host: " ++ target.host ++ lineEnd ++
    "Connection: keep-alive" ++ lineEnd ++
    "Content-Type: " ++ e.contentType ++ lineEnd ++
    "Content-Length: " ++ toString e.contentLength ++ lineEnd ++ lineEnd

/-- All bytes of the request, in the order in which they are sent. -/
def wire (e : Envelope) (target : Address) : List UInt8 :=
  Utf8.encode (e.requestHead target) ++ e.head ++ e.image ++ e.tail

end Envelope

/-- The beginning that all generated boundaries share. -/
def boundaryStem : String := "------------------------camnode"

/-- The boundary made from the time in milliseconds and sixty-four random bits. -/
def generatedBoundary (millis : Nat) (salt : UInt64) : String :=
  boundaryStem ++ Text.hex millis ++ Text.hexPadded 16 salt.toNat

end FieldCamera.Upload
