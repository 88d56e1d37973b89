/-!
# Topics

The program and each of its commands is a topic: it has options of its own, and something to tell
about itself.
-/

namespace FieldCamera

/-- An option that takes a value: behind its name or letter as the next word, or in the same word,
after an equals sign or, behind the letter, at once. -/
structure Switch where
  name : String
  letter : Char
  /-- Whether the value may be empty. -/
  takesEmpty : Bool
  deriving DecidableEq, Repr

/-- A switch as it is shown, with a word for its value. -/
def Switch.text (s : Switch) : String :=
  "--" ++ s.name ++ " <" ++ s.name.toUpper ++ ">"

inductive Topic where
  /-- The program as a whole. -/
  | program
  | portal
  | upload
  | register
  | run
  /-- The command that tells about the others. -/
  | help
  deriving DecidableEq, Repr

namespace Topic

/-- The name under which the program is called. -/
def programName : String := "camera-node"

/-- The commands in the order in which they are told. -/
def commands : List Topic := [portal, upload, register, run, help]

/-- The word for a command. -/
def name? : Topic → Option String
  | program => none
  | portal => some "portal"
  | upload => some "upload"
  | register => some "register"
  | run => some "run"
  | help => some "help"

def named? (name : String) : Option Topic :=
  commands.find? fun t => t.name? == some name

def settingsSwitch : Switch := ⟨"config", 'c', false⟩
def imageSwitch : Switch := ⟨"image", 'i', false⟩
def urlSwitch : Switch := ⟨"url", 'u', true⟩

def switches : Topic → List Switch
  | program => [settingsSwitch]
  | upload => [imageSwitch, urlSwitch]
  | portal | register | run | help => []

/-- The names of a topic's options. -/
def optionNames (t : Topic) : List String :=
  t.switches.map (·.name) ++ ["help"]

/-- The words that lead to a topic. -/
def call (t : Topic) : String :=
  programName ++ ((t.name?.map (" " ++ ·)).getD "")

/-- How a topic is used. -/
def usage (t : Topic) : String :=
  t.call ++ match t with
    | program => " [OPTIONS] [COMMAND]"
    | upload => " [OPTIONS]"
    | help => " [COMMAND]..."
    | portal | register | run => ""

/-- How a topic is used with what has been given already: help, or any of its switches. -/
def usageWith (t : Topic) (help switch : Bool) : String :=
  if help || switch then
    t.call ++ (if help then " --help" else "") ++
      (if switch then " <" ++ "|".intercalate (t.switches.map Switch.text) ++ ">" else "")
  else t.usage

end Topic

end FieldCamera
