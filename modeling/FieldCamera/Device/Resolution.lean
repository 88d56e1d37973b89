import FieldCamera.Text.Blank
/-!
# Frame sizes

The frame sizes that the camera knows, by name.
-/

namespace FieldCamera

inductive Resolution where
  | qvga
  | vga
  | svga
  | sxga
  | uxga
  deriving DecidableEq, Repr

namespace Resolution

/-- Every frame size, from small to large. -/
def all : List Resolution :=
  [qvga, vga, svga, sxga, uxga]

def name : Resolution → String
  | qvga => "qvga"
  | vga => "vga"
  | svga => "svga"
  | sxga => "sxga"
  | uxga => "uxga"

/-- Width and height in pixels. -/
def dimensions : Resolution → Nat × Nat
  | qvga => (320, 240)
  | vga => (640, 480)
  | svga => (800, 600)
  | sxga => (1280, 1024)
  | uxga => (1600, 1200)

/-- The frame size a text names, in any letter case and between any blanks. -/
def named? (text : String) : Option Resolution :=
  let wanted := Text.lower (Text.trim text.toList)
  all.find? fun r => r.name.toList == wanted

/-- The frame size that is used for a text: the one it names, VGA when it names none. -/
def inForce (text : String) : Resolution :=
  (named? text).getD vga

end Resolution

end FieldCamera
