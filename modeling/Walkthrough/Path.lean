/-
# Paths as texts

A path is a text of names with slashes between them.  Its components leave out empty
names, and single dots except at the start of a relative path; the name of a path is its
last component if that is a name, and its parent is the text in front of the last
component.  Nothing here looks at a file system.

| path | components | parent | name |
| --- | --- | --- | --- |
| `/a/b/` | root, `a`, `b` | `/a` | `b` |
| `./a` | dot, `a` | `.` | `a` |
| `a/.` | `a` | the empty path | `a` |
| `a/..` | `a`, dots | `a` | none |
| `/` | root | none | none |
-/

import Walkthrough.Text.Line

namespace Walkthrough
namespace Path

/-- A component of a path. -/
inductive Component where
  | root
  | dot
  | dots
  | name (text : List Char)
deriving DecidableEq, Repr

/-- The texts between slashes, at least one. -/
def splitSlash (p : List Char) : List (List Char) :=
  Text.splitAt '/' p

/-- The component that a text between slashes is, if it is one. -/
def componentOf? (first : Bool) (w : List Char) : Option Component :=
  if w.isEmpty then none
  else if w = ['.'] then (if first then some .dot else none)
  else if w = ['.', '.'] then some .dots
  else some (.name w)

/-- Whether the path starts at the root. -/
def isAbsolute (p : List Char) : Bool :=
  p.head? == some '/'

/-- The components of a path. -/
def components (p : List Char) : List Component :=
  if isAbsolute p then .root :: (splitSlash p).filterMap (componentOf? false)
  else match splitSlash p with
    | [] => []
    | w :: ws => (componentOf? true w).toList ++ ws.filterMap (componentOf? false)

/-- The text of a component. -/
def Component.text : Component → List Char
  | .root => ['/']
  | .dot => ['.']
  | .dots => ['.', '.']
  | .name w => w

/-- A reversed path without the slashes and dots at its end that are no components: a dot
behind a slash is none, a dot at the start of the path is one. -/
def trimReversed : List Char → List Char
  | [] => []
  | ['/'] => ['/']
  | '/' :: r => trimReversed r
  | ['.'] => ['.']
  | ['.', '/'] => ['/']
  | '.' :: '/' :: r => trimReversed r
  | r => r

/-- A path without the slashes and dots at its end that are no components. -/
def trimRight (p : List Char) : List Char :=
  (trimReversed p.reverse).reverse

/-- The text in front of the last component; the root and the empty path have none. -/
def parent? (p : List Char) : Option (List Char) :=
  match (components p).getLast? with
  | none => none
  | some .root => none
  | some c => some (trimRight ((trimRight p).take ((trimRight p).length - c.text.length)))

/-- The last component, if it is a name. -/
def fileName? (p : List Char) : Option (List Char) :=
  match (components p).getLast? with
  | some (.name w) => some w
  | _ => none

/-- A name cut at its last dot, if there is one with something in front of it. -/
def cutDot? (w : List Char) : Option (List Char × List Char) :=
  let tail := (w.reverse.takeWhile (· != '.')).reverse
  let head := w.take (w.length - tail.length - 1)
  if w.contains '.' && !head.isEmpty then some (head, tail) else none

/-- The name of a path without its extension. -/
def fileStem? (p : List Char) : Option (List Char) :=
  (fileName? p).map fun w => ((cutDot? w).map Prod.fst).getD w

/-- The extension of a path. -/
def extension? (p : List Char) : Option (List Char) :=
  ((fileName? p).bind cutDot?).map Prod.snd

/-- A path behind another, with one slash between them. -/
def join (base p : List Char) : List Char :=
  if isAbsolute p then p
  else if base.isEmpty then p
  else if base.getLast? = some '/' then base ++ p
  else base ++ '/' :: p

/-- A path from the root, through the current directory if it is relative.  Dots and
repeated slashes go, pairs of dots and a slash at the end stay, and two slashes at the
start stay two. -/
def absolute (cwd p : List Char) : List Char :=
  let names := ((splitSlash p).filterMap (componentOf? false)).map Component.text
  let twoSlashes := p.take 2 == ['/', '/'] && p.take 3 != ['/', '/', '/']
  let start := if twoSlashes then ['/', '/'] else if isAbsolute p then ['/'] else cwd
  let joined := names.foldl join start
  if p.getLast? = some '/' then join joined [] else joined

/-- Whether a path names more than one component or a place by its slash. -/
def hasSlash (p : List Char) : Bool :=
  p.contains '/'

end Path
end Walkthrough
