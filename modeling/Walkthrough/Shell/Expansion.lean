/-
# Expansion

How the words of a command become fields: parameters, the output of commands and sums are
put in, what was not quoted is split at separators, and a field with an active pattern is
replaced by the paths it fits.  Running a command is left to the caller.

Part of the kernel that the executable runs with (`Shell.kernel`).  The theorems of the library
are about every kernel, and none is about this one alone.
-/

import Walkthrough.Shell.Arithmetic
import Walkthrough.Shell.Fields
import Walkthrough.Shell.Worker

namespace Walkthrough
namespace Shell
namespace Expansion

open Text (Octets)
open Fields (Piece)

/-- How the output of a command is captured. -/
abbrev Capture := Command → Act Octets

/-- A mistake in an expansion ends the shell. -/
def fail {α : Type} (message : Octets) : Act α := do
  grumble message
  quit 2

/-! ## Parameters -/

/-- The arguments as one text, with the first separator between them. -/
def joinedArguments (w : Worker) : Octets :=
  (w.separators.take 1).intercalate w.args

/-- The letters of the options that are on. -/
def flagLetters (f : Flags) : Octets :=
  (if f.strict then ['e'] else []) ++ (if f.literal then ['f'] else [])
    ++ (if f.known then ['u'] else []) ++ (if f.shown then ['x'] else [])

/-- The number by which a worker is known outside. -/
def processNumber (worker : Nat) : Nat :=
  4000 + worker

/-- The value of a parameter. -/
def parameter? (w : Worker) (name : Octets) : Option Octets :=
  match name with
  | ['#'] => some (Text.Octets.ofNat w.args.length)
  | ['?'] => some (Text.Octets.ofNat w.status)
  | ['$'] => some (Text.Octets.ofNat (processNumber w.shellNumber))
  | ['!'] => w.latestJob.map fun n => Text.Octets.ofNat (processNumber n)
  | ['-'] => some (flagLetters w.flags)
  | ['@'] => if w.args.isEmpty then none else some (joinedArguments w)
  | ['*'] => if w.args.isEmpty then none else some (joinedArguments w)
  | _ =>
    if name.all Char.isDigit then
      match (String.ofList name).toNat? with
      | some 0 => some w.name
      | some n => w.args[n - 1]?
      | none => none
    else w.value? name

/-- Whether a parameter may be missing without a mistake. -/
def mayBeMissing (name : Octets) : Bool :=
  name == ['@'] || name == ['*']

/-- The value of a parameter; a missing one is empty, or a mistake when it must be known. -/
def valueOf (name : Octets) : Act Octets := do
  let w ← get
  match parameter? w name with
  | some t => return t
  | none =>
    if w.flags.known && !mayBeMissing name then
      fail (name ++ ": parameter not set".toList)
    else return []

/-- Text with or without quotes around it. -/
def piece (quoted : Bool) (t : Octets) : Piece :=
  if quoted then .quoted t else .expanded t

/-- What makes a field between quotes even when nothing else does. -/
def anchor (quoted : Bool) : List Piece :=
  if quoted then [.quoted []] else []

/-- The arguments, each a piece of its own. -/
def argumentPieces (quoted : Bool) : List Octets → List Piece
  | [] => []
  | [a] => [piece quoted a]
  | a :: rest => piece quoted a :: .border :: argumentPieces quoted rest

/-- The pieces of a parameter. -/
def parameterPieces (quoted : Bool) (name : Octets) : Act (List Piece) := do
  let w ← get
  if name = ['@'] || (name = ['*'] && !quoted) then return argumentPieces quoted w.args
  return [piece quoted (← valueOf name)]

/-! ## Words -/

/-- Sets a variable; one that is fixed ends the shell. -/
def assign (name value : Octets) : Act Unit := do
  let w ← get
  match w.bindings.lookup name with
  | some { fixed := true, .. } => fail (name ++ ": is read only".toList)
  | _ => set (w.assign name value)

/-- The value of an expression; the variables it sets are set. -/
def sum (expression : Octets) : Act Octets := do
  let w ← get
  let troubled (what : String) : Act Octets :=
    fail ("arithmetic expression: ".toList ++ what.toList ++ ": \"".toList ++ expression
      ++ ['\x22'])
  match Arithmetic.evaluate (fun name => (w.value? name).getD []) expression with
  | .ok (n, settings) => do
    settings.reverse.forM fun s => assign s.1 (Text.Octets.ofInt s.2)
    return Text.Octets.ofInt n
  | .error .zeroDivision => troubled "division by zero"
  | .error (.notNumber t) => fail ("Illegal number: ".toList ++ t)
  | .error .malformed => troubled "expecting primary"

mutual

/-- The pieces of a part of a word. -/
def partPieces (capture : Capture) (quoted : Bool) : Part → Act (List Piece)
  | .plain t => return [if quoted then .quoted t else .plain t]
  | .kept t => return [.quoted t]
  | .double [] => return [.quoted []]
  | .double (p :: ps) => do
    return (← partPieces capture true p) ++ (← wordPieces capture true ps)
  | .parameter name => parameterPieces quoted name
  | .length name => do
    let w ← get
    let n ← if mayBeMissing name then pure w.args.length
      else return [piece quoted (Text.Octets.ofNat (← valueOf name).length)]
    return [piece quoted (Text.Octets.ofNat n)]
  | .fallback name what blankToo word => do
    let value := (parameter? (← get) name).filter fun t => !(blankToo && t.isEmpty)
    match what, value with
    | .use, some _ => parameterPieces quoted name
    | .use, none => return anchor quoted ++ (← wordPieces capture quoted word)
    | .assign, some _ => parameterPieces quoted name
    | .assign, none => do
      let t := (Fields.joined (← wordPieces capture quoted word)).map Prod.fst
      assign name t
      return [piece quoted t]
    | .alternative, some _ => return anchor quoted ++ (← wordPieces capture quoted word)
    | .alternative, none => return anchor quoted
    | .complain, some _ => parameterPieces quoted name
    | .complain, none => do
      let t := (Fields.joined (← wordPieces capture quoted word)).map Prod.fst
      let missing := if blankToo then "parameter not set or null" else "parameter not set"
      let reason := if t.isEmpty then missing.toList else t
      fail (name ++ ": ".toList ++ reason)
  | .cut name side longest pattern => do
    let value ← valueOf name
    let items := Pattern.ofMarked (Fields.joined (← wordPieces capture false pattern))
    return [piece quoted <| match side with
      | .front => Pattern.cutFront items longest value
      | .back => Pattern.cutBack items longest value]
  | .printed c => do return [piece quoted (← capture c)]
  | .arithmetic expression => do
    let t := (Fields.joined (← wordPieces capture true expression)).map Prod.fst
    return [piece quoted (← sum t)]

/-- The pieces of a word. -/
def wordPieces (capture : Capture) (quoted : Bool) : List Part → Act (List Piece)
  | [] => return []
  | p :: ps => do
    return (← partPieces capture quoted p) ++ (← wordPieces capture quoted ps)

end

/-- The text of a word that is not split, with marks. -/
def markedText (capture : Capture) (quoted : Bool) (word : List Part) : Act Marked := do
  return Fields.joined (← wordPieces capture quoted word)

/-- The text of a word that is not split. -/
def text (capture : Capture) (quoted : Bool) (word : List Part) : Act Octets := do
  return (← markedText capture quoted word).text

/-! ## Paths -/

/-- The texts between the slashes. -/
def components : Marked → List Marked
  | [] => [[]]
  | (c, quoted) :: m =>
    if c = '/' then [] :: components m
    else match components m with
      | [] => [[(c, quoted)]]
      | first :: rest => ((c, quoted) :: first) :: rest

/-- The names in a directory that a pattern fits, in the order of their bytes. -/
def fittingNames (fs : FileSystem) (cwd : Place) (directory : Octets) (m : Marked) :
    List Octets :=
  let path := if directory.isEmpty then "." else Text.Octets.toText directory
  match fs.walk cwd path true with
  | .ok (.found place _) =>
    let items := Pattern.ofMarked m
    ((fs.names place).map Text.Octets.ofText).filter fun name =>
      Pattern.fits items name && (name.head? != some '.' || items.head? == some (.exactly '.'))
  | _ => []

/-- Whether a path names something. -/
def isNamed (fs : FileSystem) (cwd : Place) (path : Octets) : Bool :=
  match fs.walk cwd (Text.Octets.toText path) false with
  | .ok (.found ..) => true
  | _ => false

/-- The paths that components fit, behind a beginning. -/
def pathsFrom (fs : FileSystem) (cwd : Place) : (base : Octets) → List Marked → List Octets
  | base, [] => [base]
  | base, [m] =>
    if Pattern.isActive m then (fittingNames fs cwd base m).map fun name => base ++ name
    else if m.isEmpty || isNamed fs cwd (base ++ m.text) then [base ++ m.text] else []
  | base, m :: rest =>
    if Pattern.isActive m then
      (fittingNames fs cwd base m).flatMap fun name =>
        if fs.isDirectory cwd (Text.Octets.toText (base ++ name)) then
          pathsFrom fs cwd (base ++ name ++ ['/']) rest
        else []
    else pathsFrom fs cwd (base ++ m.text ++ ['/']) rest

/-- The paths that a field fits, or its text when there are none. -/
def paths (w : Worker) (field : Marked) : List Octets :=
  if w.flags.literal || !Pattern.isActive field then [field.text]
  else
    let found := pathsFrom w.world.files w.cwd [] (components field)
    if found.isEmpty then [field.text] else found

/-- The fields of a word. -/
def fields (capture : Capture) (word : List Part) : Act (List Octets) := do
  let pieces ← wordPieces capture false word
  let w ← get
  return (Fields.split w.separators pieces).flatMap (paths w)

end Expansion
end Shell
end Walkthrough
