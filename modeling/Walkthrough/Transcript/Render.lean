/-
# The markdown form of a session

| record | text |
| --- | --- |
| documentation | the text without newlines and returns at its end, and an empty line |
| command | a block marked `shell` with the command as it is displayed |
| its output, unless left out | a plain block with the output, or with a marker when it is empty |
| its exit code, unless zero | a line that names it, and an empty line |

A block is a fence line, its body, a fence line, and an empty line.  The footer names the
build of the program.
-/

import Walkthrough.Session.Basic
import Walkthrough.Text.Blank

namespace Walkthrough
namespace Transcript

/-- The body of an output block when nothing was printed. -/
def emptyMarker : String := "(no output)"

/-- The line that ends a block, and opens a plain one. -/
def fence : List Char := ['\x60', '\x60', '\x60']

/-- The line that opens a command block. -/
def shellFence : List Char := fence ++ "shell".toList

/-- A block. -/
def block (opening body : List Char) : List Char :=
  opening ++ '\n' :: body ++ '\n' :: fence ++ ['\n', '\n']

/-- Whether the character ends a line. -/
def isLineEnd (c : Char) : Bool :=
  c == '\n' || c == '\r'

/-- Documentation without the line ends behind it. -/
def docBody (text : String) : List Char :=
  Text.dropEndWhile isLineEnd text.toList

/-- The body of an output block. -/
def outputBody (output : String) : List Char :=
  if output.isEmpty then emptyMarker.toList else output.toList

/-- The line that names an exit code. -/
def exitLine (code : UInt8) : List Char :=
  "Exit code: ".toList ++ Nat.toDigits 10 code.toNat ++ ['\n', '\n']

/-- The text of a command. -/
def renderCommand (r : CommandRecord) : List Char :=
  block shellFence r.command.display.toList
    ++ (if r.noOutput then [] else block fence (outputBody r.output))
    ++ (if r.exitCode = 0 then [] else exitLine r.exitCode)

/-- The text of a record. -/
def renderRecord : Record → List Char
  | .doc text => docBody text ++ ['\n', '\n']
  | .command r => renderCommand r

/-- The text of a session. -/
def render (rs : List Record) : String :=
  String.ofList (rs.flatMap renderRecord)

/-- The line at the end of a transcript. -/
def footer (identity : String) : String :=
  "Generated using build \x60" ++ identity ++ "\x60.\n"

/-- A transcript with its footer. -/
def withFooter (doc identity : String) : String :=
  doc ++ footer identity

end Transcript
end Walkthrough
