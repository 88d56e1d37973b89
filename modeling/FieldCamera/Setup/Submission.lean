import FieldCamera.Device
import FieldCamera.Setup.Encoding
import FieldCamera.Setup.Halves
/-!
# A submitted form
-/

namespace FieldCamera.Setup

/-- The configuration that a form describes: an absent text is empty and an absent number zero. -/
def deviceOfForm (form : String) : Device where
  moduleName := field form "module_name"
  ssid := field form "ssid"
  password := field form "password"
  uploadUrl := joinUrl (field form "upload_base") (field form "upload_endpoint")
  initUrl := joinUrl (field form "init_base") (field form "init_endpoint")
  captureIntervalMs := intField form "interval"
  resolution := field form "res"
  verticalFlip := intField form "vflip"
  brightness := intField form "bright"
  saturation := intField form "sat"

end FieldCamera.Setup
