import FieldCamera.Device
import FieldCamera.Setup.Halves
import FieldCamera.Setup.Token
import FieldCamera.Text.Utf8
/-!
# The setup page

One page with one form. Every value stands in an attribute between double quotes and is escaped,
so that no value can end its attribute or open a tag.
-/

namespace FieldCamera.Setup

def escapeChar (c : Char) : List Char :=
  if c = '&' then "&amp;".toList
  else if c = '<' then "&lt;".toList
  else if c = '>' then "&gt;".toList
  else if c = '"' then "&quot;".toList
  else if c = '\'' then "&#39;".toList
  else [c]

/-- Text as the value of an attribute. -/
def escape (s : String) : String :=
  String.ofList (s.toList.flatMap escapeChar)

/-- An input of the form with the label in front of it. -/
structure Input where
  label : String
  name : String
  kind : String
  value : String
  deriving DecidableEq, Repr

def Input.html (i : Input) : String :=
  "<div class=\"field\"><label>" ++ i.label ++ "</label><input type=\"" ++ i.kind ++
    "\" name=\"" ++ i.name ++ "\" value=\"" ++ escape i.value ++ "\"></div>\n"

def number (n : Int32) : String :=
  toString n.toInt

def generalInputs (d : Device) : List Input :=
  [⟨"Module Name", "module_name", "text", d.moduleName⟩]

def networkInputs (d : Device) : List Input :=
  let upload := splitUrl d.uploadUrl
  let init := splitUrl d.initUrl
  [⟨"WiFi SSID", "ssid", "text", d.ssid⟩,
    ⟨"WiFi Password", "password", "password", d.password⟩,
    ⟨"Initialization Base URL", "init_base", "text", init.1⟩,
    ⟨"Initialization Endpoint", "init_endpoint", "text", init.2⟩,
    ⟨"Upload Base URL", "upload_base", "text", upload.1⟩,
    ⟨"Upload Endpoint", "upload_endpoint", "text", upload.2⟩]

def intervalInputs (d : Device) : List Input :=
  [⟨"Capture Interval (ms)", "interval", "number", number d.captureIntervalMs⟩]

def pictureInputs (d : Device) : List Input :=
  [⟨"Vertical Flip (0 or 1)", "vflip", "number", number d.verticalFlip⟩,
    ⟨"Brightness", "bright", "number", number d.brightness⟩,
    ⟨"Saturation", "sat", "number", number d.saturation⟩]

def inputsHtml (inputs : List Input) : String :=
  String.join (inputs.map Input.html)

/-- One choice of the resolution, marked when it is the one that the configuration names. -/
def optionHtml (named : Option Resolution) (r : Resolution) : String :=
  "<option value=\"" ++ r.name ++ "\"" ++ (if named = some r then " selected" else "") ++ ">" ++
    r.name.toUpper ++ " - " ++ toString r.dimensions.1 ++ "x" ++ toString r.dimensions.2 ++
    "</option>\n"

def resolutionHtml (d : Device) : String :=
  "<div class=\"field\"><label>Resolution</label><select name=\"res\">\n" ++
    String.join (Resolution.all.map (optionHtml (Resolution.named? d.resolution))) ++
    "</select></div>\n"

/-- Everything before the form. -/
def pageHead : String :=
  "<!DOCTYPE html><html><head>\n" ++
  "<meta name=\"viewport\" content=\"width=device-width, initial-scale=1\">\n" ++
  "<title>Camera Node Configuration</title>\n" ++
  "<style>body\x7bfont-family:sans-serif;max-width:720px;margin:40px auto;padding:0 20px\x7d" ++
  ".field\x7bmargin-bottom:14px\x7dlabel\x7bdisplay:block;font-weight:600\x7d" ++
  "input,select\x7bwidth:100%;padding:8px\x7d.message\x7bbackground:#e6f4ea;padding:12px\x7d" ++
  "</style>\n" ++
  "</head><body>\n<h1>Camera Node Configuration</h1>\n"

def savedNote : String :=
  "<div class=\"message\"><strong>Configuration saved successfully.</strong></div>\n"

def tokenHtml (token : Token) : String :=
  "<input type=\"hidden\" name=\"session\" value=\"" ++ escape token.text ++ "\">\n"

/-- The page for a configuration, with a note on top where it has just been saved. -/
def page (d : Device) (token : Token) (saved : Bool) : String :=
  pageHead ++ (if saved then savedNote else "") ++
    "<form action=\"/save\" method=\"POST\" autocomplete=\"off\">\n" ++ tokenHtml token ++
    "<h2>General</h2>\n" ++ inputsHtml (generalInputs d) ++
    "<h2>Network</h2>\n" ++ inputsHtml (networkInputs d) ++
    "<h2>Camera</h2>\n" ++ inputsHtml (intervalInputs d) ++ resolutionHtml d ++
    inputsHtml (pictureInputs d) ++
    "<button type=\"submit\">Save Configuration</button>\n</form></body></html>\n"

/-- The whole answer that carries a page. -/
def response (page : String) : List UInt8 :=
  let content := Utf8.encode page
  Utf8.encode ("HTTP/1.1 200 OK\r\nContent-Type: text/html\r\nConnection: close\r\n" ++
    "Content-Length: " ++ toString content.length ++ "\r\n\r\n") ++ content

end FieldCamera.Setup
