import FieldCamera.Settings
import FieldCamera.Settings.SocketAddress
/-!
# Checking settings

Settings can be well written and still make no sense. All that is wrong with them is told at once,
in the order of the settings.
-/

namespace FieldCamera.Settings

inductive Violation where
  | zero (field : String)
  | badAddress (field value : String)
  | batteryOutOfRange (percent : UInt8)
  deriving DecidableEq, Repr

def Violation.message : Violation → String
  | zero field => field ++ " must be greater than zero"
  | badAddress field value => field ++ " is not a valid socket address: " ++ value
  | batteryOutOfRange percent =>
    "battery_percent must be at most 100, got " ++ toString percent.toNat

/-- The settings that zero would disable. -/
def mustBePositive (s : Settings) : List (String × Nat) :=
  [("portal.max_line_bytes", s.portal.maxLineBytes),
    ("portal.max_header_bytes", s.portal.maxHeaderBytes),
    ("portal.max_body_bytes", s.portal.maxBodyBytes),
    ("portal.read_idle_ms", s.portal.readIdleMs),
    ("portal.request_timeout_ms", s.portal.requestTimeoutMs),
    ("upload.chunk_size", s.upload.chunkSize),
    ("upload.connect_timeout_ms", s.upload.connectTimeoutMs),
    ("upload.write_timeout_ms", s.upload.writeTimeoutMs),
    ("upload.response_idle_ms", s.upload.responseIdleMs),
    ("upload.max_response_bytes", s.upload.maxResponseBytes),
    ("upload.max_line_bytes", s.upload.maxLineBytes)]

def zeros (s : Settings) : List Violation :=
  ((mustBePositive s).filter fun f => f.2 == 0).map fun f => .zero f.1

def badAddresses (s : Settings) : List Violation :=
  (if SocketAddress.isAddress s.portal.bindAddress then []
    else [.badAddress "portal.bind_address" s.portal.bindAddress]) ++
  (if s.observability.metricsEnabled ∧ ¬ SocketAddress.isAddress s.observability.metricsAddress
    then [.badAddress "observability.metrics_address" s.observability.metricsAddress]
    else [])

def badBattery (s : Settings) : List Violation :=
  if 100 < s.device.batteryPercent then [.batteryOutOfRange s.device.batteryPercent] else []

/-- Everything that is wrong; the metrics address counts only where metrics are served. -/
def violations (s : Settings) : List Violation :=
  zeros s ++ badAddresses s ++ badBattery s

end FieldCamera.Settings
