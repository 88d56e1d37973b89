/-!
# Faults of the operating system

What the system says when it refuses a file or an address.
-/

namespace FieldCamera

inductive SystemFault where
  | notFound
  | notDirectory
  | isDirectory
  | nameTooLong
  | permissionDenied
  | addressInUse
  | addressNotAvailable
  /-- A file was read as text and is none. -/
  | notText
  /-- A path holds the character that ends a path for the system. -/
  | nulInPath
  deriving DecidableEq, Repr

namespace SystemFault

/-- The number that the system gives, if the fault is the system's own. -/
def number? : SystemFault → Option Nat
  | notFound => some 2
  | notDirectory => some 20
  | isDirectory => some 21
  | nameTooLong => some 36
  | permissionDenied => some 13
  | addressInUse => some 98
  | addressNotAvailable => some 99
  | notText | nulInPath => none

def word : SystemFault → String
  | notFound => "No such file or directory"
  | notDirectory => "Not a directory"
  | isDirectory => "Is a directory"
  | nameTooLong => "File name too long"
  | permissionDenied => "Permission denied"
  | addressInUse => "Address already in use"
  | addressNotAvailable => "Cannot assign requested address"
  | notText => "stream did not contain valid UTF-8"
  | nulInPath => "file name contained an unexpected NUL byte"

def text (f : SystemFault) : String :=
  match f.number? with
  | some n => s!"{f.word} (os error {n})"
  | none => f.word

/-- The name of the class that a fault belongs to. -/
def className : SystemFault → String
  | notFound => "NotFound"
  | notDirectory => "NotADirectory"
  | isDirectory => "IsADirectory"
  | nameTooLong => "InvalidFilename"
  | permissionDenied => "PermissionDenied"
  | addressInUse => "AddrInUse"
  | addressNotAvailable => "AddrNotAvailable"
  | notText => "InvalidData"
  | nulInPath => "InvalidInput"

end SystemFault

end FieldCamera
