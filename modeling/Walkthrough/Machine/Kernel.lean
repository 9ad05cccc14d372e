/-
# Running processes

A kernel says what a launched program does: it is refused, or it runs to an end, or it is
still running when its time is over.  Whatever it does to the files is done when the
kernel answers.  Nothing else in the library depends on which kernel it is.

A kernel is a function of the launch and the files: two launches that agree in both do the
same.  What a program is to remember from one launch to the next, as a clock, a counter or a
line it was once given, has to lie in the files, where any place can hold it.
-/

import Walkthrough.Machine.FileSystem

namespace Walkthrough

/-- A program to start: where its name is looked up, where it runs and for how long. -/
structure Launch where
  program : String
  args : List String
  /-- The directory it is started in, relative to the current one. -/
  directory : Option String := none
  /-- The current directory of the one who starts it. -/
  cwd : Place
  /-- The directories in which a program without a slash in its name is looked up. -/
  searchPath : String
  /-- The milliseconds after which it is stopped. -/
  limit : Option Nat := none
deriving Repr

/-- How a process ended. -/
inductive Status where
  | exited (code : Nat)
  | signalled (signal : Nat)
deriving DecidableEq, Repr

/-- What became of a launch. -/
inductive Ending where
  | refused (error : Errno)
  /-- It ended after some milliseconds; the bytes are what it printed. -/
  | ended (time : Nat) (status : Status) (printed : List UInt8)
  /-- It was still running when its time was over. -/
  | stopped (printed : List UInt8)
deriving Repr

/-- What launched programs do. -/
abbrev Kernel := Launch → FileSystem → Ending × FileSystem

/-- The commands of a machine run against its files; `clock` counts milliseconds.  Names that
are needed for temporary files come from a generator: `drawn` of them have been used, and the
next one is `names drawn`. -/
structure Machine where
  files : FileSystem
  cwd : Place
  searchPath : String
  tempDir : String
  clock : Nat := 0
  names : Nat → String
  drawn : Nat := 0

end Walkthrough
