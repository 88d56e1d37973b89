import FieldCamera.Command.Misuse
/-!
# The command line

A command may follow the option that names the settings file; without one the node runs. The words
of a command line are read from left to right. What a switch was given is judged when the next
option is read or when the words of the whole line are, so a line that asks for help in time is
helped even if the switch before has no use for its value.
-/

namespace FieldCamera

inductive Command where
  /-- Serves the portal until a configuration is saved. -/
  | portal
  /-- Posts a single frame. -/
  | upload (image url : Option String)
  /-- Enrols with the collector. -/
  | register
  /-- Does whatever the node's state calls for. -/
  | run
  deriving DecidableEq, Repr

structure Invocation where
  settingsPath : Option String
  command : Command
  deriving DecidableEq, Repr

namespace Invocation

/-- The kinds of words. -/
inductive Word where
  /-- Two dashes, behind which no word is an option or a command. -/
  | dashes
  /-- An option by its name, with the value behind an equals sign. -/
  | name (name : String) (value : Option String)
  /-- An option by its letter, with what follows the letter. -/
  | letter (letter : Char) (rest : List Char)
  | plain
  deriving DecidableEq, Repr

def Word.ofText (word : String) : Word :=
  match word.toList with
  | ['-', '-'] => .dashes
  | '-' :: '-' :: cs =>
    let name := cs.takeWhile (· ≠ '=')
    .name (.ofList name)
      (if '=' ∈ cs then some (.ofList (cs.drop (name.length + 1))) else none)
  | '-' :: c :: cs => .letter c cs
  | _ => .plain

/-- The value behind an option's letter. An equals sign in front is not part of it. -/
def valueBehind : List Char → Option String
  | [] => none
  | '=' :: cs => some (.ofList cs)
  | cs => some (.ofList cs)

/-- The switches that a topic has been given. -/
structure Given where
  /-- The values that hold, the last one first. -/
  values : List (Switch × String) := []
  /-- The switch that is not judged yet, with its value unless that is the next word. -/
  latest : Option (Switch × Option String) := none
  deriving DecidableEq, Repr

namespace Given

/-- Whether the next word can be a switch's value. -/
def awaitsValue (g : Given) : Bool :=
  match g.latest with
  | some (_, none) => true
  | _ => false

/-- Whether there is a switch with a value. -/
def hasSwitch (g : Given) : Bool :=
  g.values ≠ [] || (g.latest.bind (·.2)).isSome

def fill (g : Given) (value : String) : Given :=
  { g with latest := g.latest.map fun (s, _) => (s, some value) }

/-- Judges the latest switch. -/
def settle (topic : Topic) (g : Given) : Except Misuse Given :=
  match g.latest with
  | none => .ok g
  | some (s, none) => .error (.valueMissing s)
  | some (s, some value) =>
    if g.values.any (·.1 == s) then .error (.repeated topic s)
    else if value = "" ∧ ¬ s.takesEmpty then .error (.valueMissing s)
    else .ok ⟨(s, value) :: g.values, none⟩

/-- Takes a switch. An attached value is judged at once. -/
def take (topic : Topic) (g : Given) (s : Switch) (value : Option String) :
    Except Misuse Given := do
  let given : Given := ⟨(← g.settle topic).values, some (s, value)⟩
  if value.isSome then given.settle topic else return given

end Given

/-- Where the options of a topic end. -/
inductive Stop where
  | atEnd
  | atHelp
  /-- At a word that is no option, or is forced to be none, and the words behind it. -/
  | atWord (isForced : Bool) (word : String) (rest : List String)
  deriving DecidableEq, Repr

/-- Reads the options of a topic. A word that begins with the letter for help asks for it, whatever
follows the letter. -/
def options (topic : Topic) (g : Given) : List String → Except Misuse (Given × Stop)
  | [] => .ok (g, .atEnd)
  | word :: words =>
    match Word.ofText word with
    | .dashes =>
      match words with
      | [] => .ok (g, .atEnd)
      | next :: rest => .ok (g, .atWord true next rest)
    | .plain =>
      if g.awaitsValue then options topic (g.fill word) words
      else .ok (g, .atWord false word words)
    | .letter letter rest =>
      if letter = 'h' then return (← g.settle topic, .atHelp)
      else
        match topic.switches.find? (·.letter == letter) with
        | none => .error (.strayLetter topic letter)
        | some s => do options topic (← g.take topic s (valueBehind rest)) words
    | .name "help" none => return (← g.settle topic, .atHelp)
    | .name "help" (some value) => .error (.helpWithValue topic (g.values ≠ []) value)
    | .name name value =>
      match topic.switches.find? (·.name == name) with
      | none => .error (.strayName topic g.hasSwitch name words)
      | some s => do options topic (← g.take topic s value) words

/-- The command of a topic with its switches. The node runs where none is named. -/
def commandOf (topic : Topic) (g : Given) : Command :=
  match topic with
  | .portal => .portal
  | .upload => .upload (g.values.lookup Topic.imageSwitch) (g.values.lookup Topic.urlSwitch)
  | .register => .register
  | .program | .run | .help => .run

/-- What a command line asks for: to be told about something, or to be carried out. -/
inductive Wish where
  | help (topic : Topic)
  | invocation (i : Invocation)
  deriving DecidableEq, Repr

/-- Reads what follows the word `help`. -/
def helpWish : List String → Except Misuse Wish
  | [] => .ok (.help .program)
  | word :: words =>
    match Topic.named? word, words with
    | none, _ => .error (.noTopic .program word)
    | some topic, [] => .ok (.help topic)
    | some topic, next :: _ => .error (.noTopic topic next)

/-- The invocation of a topic, once the words are read. -/
def ofGiven (topic : Topic) (program command : Given) : Except Misuse Wish := do
  let command ← command.settle topic
  let program ← program.settle .program
  return .invocation ⟨program.values.lookup Topic.settingsSwitch, commandOf topic command⟩

/-- Reads what follows a command's name. -/
def commandWish (topic : Topic) (program : Given) (words : List String) : Except Misuse Wish := do
  match ← options topic {} words with
  | (command, .atEnd) => ofGiven topic program command
  | (_, .atHelp) => return .help topic
  | (_, .atWord isForced word _) => throw (.strayWord topic isForced word)

/-- Reads the words behind the program's name. -/
def ofWords (words : List String) : Except Misuse Wish := do
  match ← options .program {} words with
  | (program, .atEnd) => ofGiven .program program {}
  | (_, .atHelp) => return .help .program
  | (program, .atWord isForced word rest) =>
    match if isForced then none else Topic.named? word with
    | none => throw (.strayWord .program isForced word)
    | some .help => helpWish rest
    | some topic => commandWish topic program rest

end Invocation

end FieldCamera
