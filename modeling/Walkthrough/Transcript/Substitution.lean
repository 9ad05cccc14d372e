/-
# Writing machine paths out of a transcript

A rule replaces every cut of the text at its source, if its source occurs in the text; the
rules of a table apply in order, each to the text that the one before it left, and a rule
with an empty source is skipped.
The table of a target has three rules:

| source | replacement |
| --- | --- |
| the invocation of the target | its alias |
| the path of the target | its file name |
| the working directory and a slash | nothing |
-/

import Walkthrough.Path
import Walkthrough.Text.Replace

namespace Walkthrough

/-- A replacement of one text by another. -/
structure Rule where
  source : String
  replacement : String
deriving DecidableEq, Repr

/-- Rules in the order in which they apply. -/
abbrev SubstitutionTable := List Rule

namespace SubstitutionTable

/-- The text after one rule. -/
def applyRule (text : String) (r : Rule) : String :=
  if Text.isWithin r.source text then Text.replaceIn r.source r.replacement text else text

/-- The text after all rules. -/
def apply (t : SubstitutionTable) (text : String) : String :=
  (t.filter fun r => !r.source.isEmpty).foldl applyRule text

/-- A directory with a slash behind it. -/
def withSlash (dir : String) : String :=
  if dir.toList.getLast? = some '/' then dir else dir.push '/'

/-- The table of a target. -/
def forTarget (invocation shortName target workdir : String) : SubstitutionTable :=
  [⟨invocation, shortName⟩,
   ⟨target, String.ofList ((Path.fileName? target.toList).getD target.toList)⟩,
   ⟨withSlash workdir, ""⟩]

end SubstitutionTable
end Walkthrough
