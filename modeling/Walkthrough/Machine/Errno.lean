/-
# Errors of the operating system

The errors that file and process operations answer, each with its number and its text.
A report shows both.  No operation of the machine answers `other`: it is for the failures
that are given from outside, such as a full disk or a table of open files without room.
-/

namespace Walkthrough

/-- An error of the operating system. -/
inductive Errno where
  | notFound
  | argumentsTooLong
  | notExecutable
  | denied
  | busy
  | alreadyThere
  | otherDevice
  | notDirectory
  | isDirectory
  | invalid
  | nameTooLong
  | notEmpty
  | tooManyLinks
  | other (number : Nat) (text : String)
deriving DecidableEq, Repr

namespace Errno

/-- The number of an error. -/
def number : Errno → Nat
  | notFound => 2
  | argumentsTooLong => 7
  | notExecutable => 8
  | denied => 13
  | busy => 16
  | alreadyThere => 17
  | otherDevice => 18
  | notDirectory => 20
  | isDirectory => 21
  | invalid => 22
  | nameTooLong => 36
  | notEmpty => 39
  | tooManyLinks => 40
  | other number _ => number

/-- The text of an error. -/
def text : Errno → String
  | notFound => "No such file or directory"
  | argumentsTooLong => "Argument list too long"
  | notExecutable => "Exec format error"
  | denied => "Permission denied"
  | busy => "Device or resource busy"
  | alreadyThere => "File exists"
  | otherDevice => "Invalid cross-device link"
  | notDirectory => "Not a directory"
  | isDirectory => "Is a directory"
  | invalid => "Invalid argument"
  | nameTooLong => "File name too long"
  | notEmpty => "Directory not empty"
  | tooManyLinks => "Too many levels of symbolic links"
  | other _ text => text

/-- The error as a cause in reports. -/
def report (e : Errno) : String :=
  e.text ++ " (os error " ++ toString e.number ++ ")"

end Errno
end Walkthrough
