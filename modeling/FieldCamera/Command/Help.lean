import FieldCamera.Command.Topic
/-!
# What the program tells about itself
-/

namespace FieldCamera.Topic

/-- Lines of two columns, the left one as wide as its widest entry. -/
def columns (rows : List (String × String)) : String :=
  let width := rows.foldl (fun w r => max w r.1.length) 0
  String.join (rows.map fun r =>
    "  " ++ r.1 ++ String.ofList (List.replicate (width - r.1.length) ' ') ++ "  " ++ r.2 ++ "\n")

/-- What a topic is for. -/
def purpose : Topic → String
  | program => "Camera node: capture and upload frames, first-time setup portal"
  | portal => "Serve the setup portal until a configuration is saved"
  | upload => "Capture and upload a single frame"
  | register => "Announce this module to the collector"
  | run => "Portal if unconfigured, then register and upload on the interval (default)"
  | help => "Print this message or the help of the given subcommand(s)"

/-- What a topic's switches are for. -/
def switchRows : Topic → List (Switch × String)
  | program => [(settingsSwitch, "Node settings (TOML). Defaults are used when omitted")]
  | upload =>
    [(imageSwitch, "JPEG to send instead of the configured capture source"),
      (urlSwitch, "Upload URL instead of the stored one")]
  | portal | register | run | help => []

/-- What is told about the options of a topic. -/
def optionRows (t : Topic) : List (String × String) :=
  (t.switchRows.map fun (s, purpose) => ("-" ++ s.letter.toString ++ ", " ++ s.text, purpose)) ++
    [("-h, --help", "Print help")]

/-- What is told about the commands. -/
def commandRows : List (String × String) :=
  commands.filterMap fun t => t.name?.map fun name => (name, t.purpose)

/-- What is told about a topic. -/
def helpText (t : Topic) : String :=
  t.purpose ++ "\n\nUsage: " ++ t.usage ++ "\n\n" ++
    match t with
    | program => "Commands:\n" ++ columns commandRows ++ "\nOptions:\n" ++ columns t.optionRows
    | help => "Arguments:\n" ++ columns [("[COMMAND]...", "Print help for the subcommand(s)")]
    | portal | upload | register | run => "Options:\n" ++ columns t.optionRows

end FieldCamera.Topic
