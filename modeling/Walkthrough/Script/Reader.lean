/-
# Reading step scripts

The text of a script is JSON of one of two shapes:

| what | object | array |
| --- | --- | --- |
| script | keys `script_version`, `steps`, both of them, no other | version, steps |
| documentation step | key `doc`, no other | text |
| run step | key `run`, perhaps `allow_fail`, `no_output`, no other | run, perhaps two flags |

No key is repeated.  A run is a string or an array of strings, a flag is a boolean, and
the version is a number from `0` to `2 ^ 64 - 1`.  The outer shape is checked while the
text is read, so the first fault of the text is the one that is reported; a step is read
as a whole before its shape is looked at.  Every version but `0` is refused in the end.
-/

import Walkthrough.Fault
import Walkthrough.Json.Reader
import Walkthrough.Script.Basic
import Walkthrough.Text.Quoted

namespace Walkthrough
namespace Script

open Json (Cursor Failure Value Numeral Cause)

/-! ## Faults of the shape -/

/-- What a script has at a place, and what the place needs. -/
inductive Mismatch where
  | type (found expected : String)
  | value (found expected : String)
  | length (found : Nat) (expected : String)
  | unknownField (key : String)
  | duplicateField (key : String)
  | missingField (key : String)
  | noStep
deriving DecidableEq, Repr

/-- The wording of a mismatch. -/
def Mismatch.message : Mismatch → String
  | .type found expected => "invalid type: " ++ found ++ ", expected " ++ expected
  | .value found expected => "invalid value: " ++ found ++ ", expected " ++ expected
  | .length found expected => "invalid length " ++ toString found ++ ", expected " ++ expected
  | .unknownField key => "unknown field `" ++ key ++ "`, expected `script_version` or `steps`"
  | .duplicateField key => "duplicate field `" ++ key ++ "`"
  | .missingField key => "missing field `" ++ key ++ "`"
  | .noStep => "data did not match any variant of untagged enum ScriptStep"

/-- Why a text is not a script. -/
inductive Problem where
  | malformed (cause : Cause)
  | mismatch (m : Mismatch)
deriving DecidableEq, Repr

/-- The wording of a problem. -/
def Problem.message : Problem → String
  | .malformed cause => cause.message
  | .mismatch m => m.message

/-- A problem and the byte at which it was found. -/
structure Refusal where
  problem : Problem
  offset : Nat
deriving DecidableEq, Repr

/-- A reader of script text. -/
abbrev Reader (α : Type) := Cursor → Except Refusal (α × Cursor)

/-- A failure of the text as a refusal. -/
def Refusal.ofFailure (f : Failure) : Refusal := ⟨.malformed f.cause, f.offset⟩

/-- A reader of values as a reader of scripts. -/
def lift {α : Type} (r : Except Failure α) : Except Refusal α :=
  r.mapError Refusal.ofFailure

/-- A mismatch at the cursor. -/
def refuse {α : Type} (c : Cursor) (m : Mismatch) : Except Refusal α :=
  .error ⟨.mismatch m, c.offset⟩

/-- How a diagnostic names a number. -/
def describeNumeral : Numeral → String
  | .natural n => "integer `" ++ toString n ++ "`"
  | .negative n => "integer `-" ++ toString n ++ "`"
  | n@(.real ..) => "floating point `" ++ String.ofList n.write ++ "`"

/-- How a diagnostic names a value. -/
def describe : Value → String
  | .null => "null"
  | .bool b => "boolean `" ++ (if b then "true" else "false") ++ "`"
  | .number n => describeNumeral n
  | .string s => "string " ++ Text.quotedString s
  | .array _ => "sequence"
  | .object _ => "map"

/-- Refuses the value at the cursor: behind a scalar, in front of an array or an object. -/
def refuseValue {α : Type} (expected : String) (c : Cursor) : Except Refusal α :=
  match c.rest with
  | [] => .error ⟨.malformed .endInValue, c.aheadOffset⟩
  | x :: _ =>
    if x = '[' then refuse c (.type "sequence" expected)
    else if x = '\x7b' then refuse c (.type "map" expected)
    else match Json.readScalar c with
      | .ok (v, c') => refuse c' (.type (describe v) expected)
      | .error f => .error (Refusal.ofFailure f)

/-! ## Steps -/

/-- The strings of an array of strings. -/
def strings? : List Value → Option (List String)
  | [] => some []
  | .string s :: rest => (strings? rest).map (s :: ·)
  | _ :: _ => none

/-- The command that a value writes. -/
def runSpec? : Value → Option RunSpec
  | .string s => some (.line s)
  | .array vs => (strings? vs).map .argv
  | _ => none

/-- The flag that a value writes. -/
def flag? : Value → Option Bool
  | .bool b => some b
  | _ => none

/-- The members of a run step read so far. -/
structure RunFields where
  spec : Option RunSpec := none
  allowFail : Option Bool := none
  noOutput : Option Bool := none

/-- One more member of a run step; a key that repeats or is not known is refused. -/
def RunFields.add? (f : RunFields) (m : String × Value) : Option RunFields :=
  if m.1 = "run" then
    if f.spec.isSome then none
    else (runSpec? m.2).map fun s => ⟨some s, f.allowFail, f.noOutput⟩
  else if m.1 = "allow_fail" then
    if f.allowFail.isSome then none
    else (flag? m.2).map fun b => ⟨f.spec, some b, f.noOutput⟩
  else if m.1 = "no_output" then
    if f.noOutput.isSome then none
    else (flag? m.2).map fun b => ⟨f.spec, f.allowFail, some b⟩
  else none

/-- The run step of complete members: a flag that is left out is false. -/
def RunFields.run? (f : RunFields) : Option Run :=
  f.spec.map fun s => ⟨s, f.allowFail.getD false, f.noOutput.getD false⟩

/-- The run step that a value writes. -/
def runOf? : Value → Option Run
  | .object ms => (ms.foldlM RunFields.add? {}) >>= RunFields.run?
  | .array [v] => (runSpec? v).map fun s => ⟨s, false, false⟩
  | .array [v, a] => do return ⟨← runSpec? v, ← flag? a, false⟩
  | .array [v, a, n] => do return ⟨← runSpec? v, ← flag? a, ← flag? n⟩
  | _ => none

/-- The prose that a value writes as a documentation step. -/
def docOf? : Value → Option String
  | .object [("doc", .string s)] => some s
  | .array [.string s] => some s
  | _ => none

/-- The step that a value writes; prose is tried first. -/
def Step.ofValue? (v : Value) : Option Step :=
  match docOf? v with
  | some s => some (.doc s)
  | none => (runOf? v).map .run

/-- Where a step that is none is reported: behind the punctuation that follows it. -/
def behindStep (c : Cursor) : Cursor :=
  let c := Json.skipSpace c
  match c.rest with
  | ']' :: rest => c.past ']' rest
  | ',' :: rest => Json.skipSpace (c.past ',' rest)
  | _ => c

/-- How many arrays and objects may be open inside a step. -/
def stepDepth : Nat := Json.maxDepth - 2

/-- Reads a step. -/
def readStep : Reader Step := fun c => do
  let (v, c) ← lift (Json.readValue stepDepth c)
  match Step.ofValue? v with
  | some s => .ok (s, c)
  | none => refuse (behindStep c) .noStep

/-- Reads the remaining steps and the closing bracket. -/
def readSteps : (turns : Nat) → (first : Bool) → Reader (List Step)
  | 0, _, c => .error ⟨.malformed .endInList, c.aheadOffset⟩
  | turns + 1, first, c => do
    let (more, c) ← lift (Json.nextItem first c)
    if more then do
      let (s, c) ← readStep c
      let (ss, c) ← readSteps turns false c
      .ok (s :: ss, c)
    else .ok ([], c.past ']' (c.rest.drop 1))

/-- Reads the list of steps. -/
def readStepList : Reader (List Step) := fun c =>
  let c := Json.skipSpace c
  match c.rest with
  | '[' :: rest => readSteps (rest.length + 1) true (c.past '[' rest)
  | _ => refuseValue "a sequence" c

/-! ## The script -/

/-- Reads the version. -/
def readVersion : Reader Nat := fun c =>
  let c := Json.skipSpace c
  match c.rest with
  | [] => refuseValue "u64" c
  | x :: _ =>
    if x = '-' ∨ Json.isDigit x = true then do
      let (n, c) ← lift (Json.readNumber c)
      match n with
      | .natural n => .ok (n, c)
      | .negative _ => refuse c (.value (describeNumeral n) "u64")
      | .real .. => refuse c (.type (describeNumeral n) "u64")
    else refuseValue "u64" c

/-- The name of the record in diagnostics. -/
def recordName : String := "struct Script"

/-- The members of a script read so far. -/
structure Fields where
  version : Option Nat := none
  steps : Option (List Step) := none

/-- The script of complete members, the version being asked for first. -/
def Fields.script (f : Fields) (c : Cursor) : Except Refusal (Script × Cursor) :=
  match f.version, f.steps with
  | none, _ => refuse c (.missingField "script_version")
  | some _, none => refuse c (.missingField "steps")
  | some v, some ss => .ok (⟨v, ss⟩, c)

/-- Reads the remaining members of a script and its closing brace. -/
def readFields : (turns : Nat) → (first : Bool) → Fields → Reader Script
  | 0, _, _, c => .error ⟨.malformed .endInObject, c.aheadOffset⟩
  | turns + 1, first, f, c => do
    let (key, c) ← lift (Json.nextKey first c)
    match key with
    | none => f.script (c.past '\x7d' (c.rest.drop 1))
    | some k =>
      if k = "script_version" then
        if f.version.isSome then refuse (Json.skipSpace c) (.duplicateField k)
        else do
          let ((), c) ← lift (Json.readColon c)
          let (v, c) ← readVersion c
          readFields turns false ⟨some v, f.steps⟩ c
      else if k = "steps" then
        if f.steps.isSome then refuse (Json.skipSpace c) (.duplicateField k)
        else do
          let ((), c) ← lift (Json.readColon c)
          let (ss, c) ← readStepList c
          readFields turns false ⟨f.version, some ss⟩ c
      else refuse c (.unknownField k)

/-- Reads the closing bracket of a script written as an array. -/
def closeArray (c : Cursor) : Except Refusal Cursor :=
  let c := Json.skipSpace c
  match c.rest with
  | [] => lift (.error (c.ahead .endInList))
  | x :: rest =>
    if x = ']' then .ok (c.past x rest)
    else if x = ',' then
      let c := Json.skipSpace (c.past x rest)
      match c.rest with
      | ']' :: _ => lift (.error (c.ahead .trailingComma))
      | _ => lift (.error (c.ahead .trailingCharacters))
    else lift (.error (c.ahead .trailingCharacters))

/-- A script with too few elements is refused behind its bracket. -/
def tooShort {α : Type} (found : Nat) (c : Cursor) : Except Refusal α :=
  refuse (c.past ']' (c.rest.drop 1)) (.length found (recordName ++ " with 2 elements"))

/-- Reads a script written as an array, behind its bracket. -/
def readArray : Reader Script := fun c => do
  let (more, c) ← lift (Json.nextItem true c)
  if more then do
    let (v, c) ← readVersion c
    let (more, c) ← lift (Json.nextItem false c)
    if more then do
      let (ss, c) ← readStepList c
      let c ← closeArray c
      .ok (⟨v, ss⟩, c)
    else tooShort 1 c
  else tooShort 0 c

/-- Reads a script of either shape. -/
def readRecord : Reader Script := fun c =>
  let c := Json.skipSpace c
  match c.rest with
  | '[' :: rest => readArray (c.past '[' rest)
  | '\x7b' :: rest => readFields (rest.length + 1) true {} (c.past '\x7b' rest)
  | _ => refuseValue recordName c

/-- The script that a whole text writes, whatever its version. -/
def readText (text : List Char) : Except Refusal Script := do
  let (s, c) ← readRecord (Cursor.ofText text)
  lift (Json.expectEnd c)
  .ok s

/-- What a diagnostic advises about the shape of steps. -/
def shapeHint : String :=
  "Each step is \x7b\x22doc\x22: ...\x7d or " ++
    "\x7b\x22run\x22: ..., \x22allow_fail\x22?, \x22no_output\x22?\x7d."

/-- The fault of a text that is no script. -/
def Refusal.fault (text : List Char) (r : Refusal) : Fault :=
  let p := Json.Position.at text r.offset
  { kind := .usage
    message := some ("invalid step script: " ++ r.problem.message ++ " at line "
      ++ toString p.line ++ " column " ++ toString p.column)
    hint := some shapeHint }

/-- The fault of a script whose version is not supported. -/
def versionFault (version : Nat) : Fault :=
  { kind := .usage, message := some ("unsupported script_version: " ++ toString version) }

/-- The script that a text writes, in the supported version. -/
def parse (text : String) : Except Fault Script :=
  match readText text.toList with
  | .error r => .error (r.fault text.toList)
  | .ok s => if s.version = supportedVersion then .ok s else .error (versionFault s.version)

end Script
end Walkthrough
