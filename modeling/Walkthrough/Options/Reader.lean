/-
# Reading arguments

Arguments are read from left to right.  An option that takes a value is held until the
next argument that is no option, and so is its value: the value is checked when the next
option or positional argument is read, or at the end.  An argument that is not known is
refused before anything that is held is checked.  Help and version end the reading.
-/

import Walkthrough.Options.Basic

namespace Walkthrough
namespace Options

/-- What arguments ask for. -/
inductive Request where
  | help
  | version
  | run (values : List (String × String))
deriving DecidableEq, Repr

/-- What ends the reading early. -/
inductive Stop where
  | misuse (e : Misuse)
  | answer (r : Request)
deriving DecidableEq, Repr

/-- An argument whose value is not checked yet: its key, its label, its kind, and the value
unless it is still to come. -/
structure Held where
  key : String
  label : String
  kind : ValueKind
  value : Option String
deriving DecidableEq, Repr

/-- How far the reading has come. -/
structure Progress where
  accepted : List (String × String) := []
  held : Option Held := none
  position : Nat := 0
  optionsEnded : Bool := false
deriving DecidableEq, Repr

/-- Why digits are no natural number below `2 ^ 64`: the first place at which the value has
no room or a character is no digit, a digit being looked at before the room it takes. -/
def naturalFault? : (value : Nat) → List Char → Option String
  | _, [] => none
  | value, c :: s =>
    if !c.isDigit then some "invalid digit found in string"
    else if Nat.pow 2 64 ≤ value * 10 + (c.toNat - '0'.toNat) then
      some "number too large to fit in target type"
    else naturalFault? (value * 10 + (c.toNat - '0'.toNat)) s

/-- The characters of a number behind a plus sign, which may stand in front of digits. -/
def unsigned : List Char → List Char
  | '+' :: c :: s => c :: s
  | s => s

/-- What is wrong with a value. -/
def check (label value : String) : ValueKind → Option Misuse
  | .text => none
  | .path => if value.isEmpty then some (.valueRequired label) else none
  | .natural =>
    if value.isEmpty then
      some (.invalidValue value label (some "cannot parse integer from empty string"))
    else (naturalFault? 0 (unsigned value.toList)).map fun r => .invalidValue value label (some r)
  | .choice words =>
    if words.contains value then none
    else if value.isEmpty then some (.valueRequired label)
    else some (.invalidValue value label none)

/-- Checks and accepts what is held. -/
def settle (g : Progress) : Except Stop Progress :=
  match g.held with
  | none => .ok g
  | some h =>
    match h.value with
    | none => .error (.misuse (.valueRequired h.label))
    | some v =>
      if (g.accepted.lookup h.key).isSome then .error (.misuse (.repeated h.label))
      else match check h.label v h.kind with
        | some e => .error (.misuse e)
        | none => .ok { g with accepted := g.accepted ++ [(h.key, v)], held := none }

/-- The part of an option in front of its first equals sign, and the part behind it. -/
def cutEquals (s : List Char) : List Char × Option (List Char) :=
  match s.dropWhile (· != '=') with
  | [] => (s, none)
  | _ :: rest => (s.takeWhile (· != '='), some rest)

/-- Accepts a flag. -/
def takeFlag (o : Spec) (g : Progress) : Except Stop Progress := do
  let g ← settle g
  if (g.accepted.lookup o.long).isSome then .error (.misuse (.repeated o.label))
  else .ok { g with accepted := g.accepted ++ [(o.long, "")] }

/-- Reads an option that takes a value, which may be attached. -/
def takeOption (o : Spec) (name : String) (kind : ValueKind) (attached : Option (List Char))
    (g : Progress) : Except Stop Progress := do
  let g ← settle g
  let held : Held :=
    ⟨o.long, "--" ++ o.long ++ " <" ++ name ++ ">", kind, attached.map String.ofList⟩
  let g := { g with held := some held }
  if attached.isSome then settle g else .ok g

/-- Reads a flag that ends the reading. -/
def takeRequest (flag : String) (r : Request) (attached : Option (List Char)) (g : Progress) :
    Except Stop Progress :=
  match attached with
  | some v => .error (.misuse (.unexpectedValue (String.ofList v) flag))
  | none => do
    let _ ← settle g
    .error (.answer r)

/-- Reads an argument behind two hyphens. -/
def takeLong (p : Program) (s : List Char) (g : Progress) : Except Stop Progress :=
  let cut := cutEquals s
  let name := String.ofList cut.1
  if name = "help" then takeRequest "--help" .help cut.2 g
  else if name = "version" then takeRequest "--version" .version cut.2 g
  else match p.options.find? fun o => o.long = name with
    | none => .error (.misuse (.unexpectedArgument ("--" ++ name)))
    | some o =>
      match o.value, cut.2 with
      | some (valueName, kind), attached => takeOption o valueName kind attached g
      | none, some v => .error (.misuse (.unexpectedValue (String.ofList v) o.label))
      | none, none => takeFlag o g

/-- Reads an argument behind one hyphen, at its first letter. -/
def takeShort (letter : Char) (g : Progress) : Except Stop Progress :=
  if letter = 'h' then takeRequest "--help" .help none g
  else if letter = 'V' then takeRequest "--version" .version none g
  else .error (.misuse (.unexpectedArgument (String.ofList ['-', letter])))

/-- Reads a positional argument. -/
def takePositional (p : Program) (arg : String) (g : Progress) : Except Stop Progress :=
  match p.positionals[g.position]? with
  | none => .error (.misuse (.unexpectedArgument arg))
  | some a => do
    let g ← settle g
    .ok { g with held := some ⟨a.name, a.label, .path, some arg⟩, position := g.position + 1 }

/-- Reads an argument that is no option. -/
def takePlain (p : Program) (arg : String) (g : Progress) : Except Stop Progress :=
  match g.held with
  | some h =>
    if h.value.isNone && !g.optionsEnded then
      .ok { g with held := some { h with value := some arg } }
    else takePositional p arg g
  | none => takePositional p arg g

/-- Reads one argument. -/
def takeArg (p : Program) (arg : String) (g : Progress) : Except Stop Progress :=
  if g.optionsEnded then takePlain p arg g
  else match arg.toList with
    | ['-', '-'] => .ok { g with optionsEnded := true }
    | '-' :: '-' :: s => takeLong p s g
    | '-' :: c :: _ => takeShort c g
    | _ => takePlain p arg g

/-- Whether everything that is required was given. -/
def isComplete (p : Program) (g : Progress) : Bool :=
  (p.positionals.all fun a => !a.required || (g.accepted.lookup a.name).isSome)
    && p.options.all fun o => !o.required || (g.accepted.lookup o.long).isSome

/-- Reads the remaining arguments. -/
def takeArgs (p : Program) : List String → Progress → Except Stop Progress
  | [], g => settle g
  | arg :: rest, g => do
    let g ← takeArg p arg g
    takeArgs p rest g

/-- What the arguments of a program ask for. -/
def read (p : Program) (args : List String) : Except Misuse Request :=
  match takeArgs p args {} with
  | .error (.misuse e) => .error e
  | .error (.answer r) => .ok r
  | .ok g => if isComplete p g then .ok (.run g.accepted) else .error .missingArguments

end Options
end Walkthrough
