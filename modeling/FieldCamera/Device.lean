import FieldCamera.Device.Resolution
/-!
# The device configuration

What the setup form edits and the device record keeps.
-/

namespace FieldCamera

structure Device where
  moduleName : String := ""
  ssid : String := ""
  password : String := ""
  uploadUrl : String := ""
  initUrl : String := ""
  captureIntervalMs : Int32 := 300
  /-- The resolution as submitted, which need not be one that the camera knows. -/
  resolution : String := "VGA"
  verticalFlip : Int32 := 0
  brightness : Int32 := 0
  saturation : Int32 := 0
  deriving DecidableEq, Repr, Inhabited

namespace Device

/-- The resolution the camera uses. -/
def frameSize (d : Device) : Resolution :=
  Resolution.inForce d.resolution

end Device

end FieldCamera
