import FieldCamera.Command.Topic
import FieldCamera.Text.Likeness
/-!
# Command lines that make no sense

What is said of a word that has no place where it stands: a complaint, sometimes a tip, and how the
topic that it was said to is used.
-/

namespace FieldCamera

inductive Misuse where
  /-- A switch stands without a value, or with an empty one that it does not take. -/
  | valueMissing (s : Switch)
  | repeated (topic : Topic) (s : Switch)
  /-- A value is attached to the option that asks for help. -/
  | helpWithValue (topic : Topic) (hasSwitch : Bool) (value : String)
  /-- An option's name that the topic does not have, and the words behind it. -/
  | strayName (topic : Topic) (hasSwitch : Bool) (name : String) (behind : List String)
  | strayLetter (topic : Topic) (letter : Char)
  | strayWord (topic : Topic) (isForced : Bool) (word : String)
  /-- Help is asked about something that the topic does not have. -/
  | noTopic (topic : Topic) (word : String)
  deriving DecidableEq, Repr

namespace Misuse

/-- The option of a topic that could have been meant by a name. -/
def meant? (name : String) (topic : Topic) : Option String :=
  (Text.similar name topic.optionNames).getLast?

/-- A command among some words, and its option that could have been meant by a name. -/
def meantBehind? (name : String) (words : List String) : Option (String × String) :=
  words.findSome? fun word => do
    let topic ← Topic.named? word
    return (word, ← meant? name topic)

def complaint : Misuse → String
  | valueMissing s => "a value is required for '" ++ s.text ++ "' but none was supplied"
  | repeated _ s => "the argument '" ++ s.text ++ "' cannot be used multiple times"
  | helpWithValue _ _ value =>
    "unexpected value '" ++ value ++ "' for '--help' found; no more were expected"
  | strayName _ _ name _ => "unexpected argument '--" ++ name ++ "' found"
  | strayLetter _ letter => "unexpected argument '-" ++ letter.toString ++ "' found"
  | strayWord topic _ word =>
    if topic = .program ∧ (Topic.named? word).isNone then "unrecognized subcommand '" ++ word ++ "'"
    else "unexpected argument '" ++ word ++ "' found"
  | noTopic _ word => "unrecognized subcommand '" ++ word ++ "'"

/-- What might help. A command's name stands as a stray word only where words are forced to be no
commands. -/
def tip? : Misuse → Option String
  | strayName topic _ name behind =>
    match meant? name topic with
    | some option => some ("a similar argument exists: '--" ++ option ++ "'")
    | none =>
      if topic = .program then (meantBehind? name behind).map fun (command, option) =>
        "'" ++ command ++ " --" ++ option ++ "' exists"
      else none
  | strayWord .program _ word =>
    if (Topic.named? word).isSome then
      some ("subcommand '" ++ word ++ "' exists; to use it, remove the '--' before it")
    else
      match Text.similar word (Topic.commands.filterMap Topic.name?) with
      | [] => none
      | [command] => some ("a similar subcommand exists: '" ++ command ++ "'")
      | commands => some ("some similar subcommands exist: " ++
          ", ".intercalate (commands.map fun command => "'" ++ command ++ "'"))
  | _ => none

/-- How to use the topic. An option that could have been meant counts as given. -/
def usage? : Misuse → Option String
  | valueMissing _ => none
  | helpWithValue topic hasSwitch _ => some (topic.usageWith true hasSwitch)
  | strayName topic hasSwitch name _ =>
    let option? := meant? name topic
    let isHelp := option? == some "help"
    some (topic.usageWith isHelp (hasSwitch || option?.isSome && !isHelp))
  | repeated topic _ | strayLetter topic _ | strayWord topic _ _ | noTopic topic _ =>
    some topic.usage

def text (m : Misuse) : String :=
  "error: " ++ m.complaint ++ ((m.tip?.map ("\n\n  tip: " ++ ·)).getD "") ++
    ((m.usage?.map ("\n\nUsage: " ++ ·)).getD "") ++
    "\n\nFor more information, try '--help'.\n"

end Misuse

end FieldCamera
