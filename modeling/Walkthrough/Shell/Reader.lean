/-
# Reading shell commands

A reader takes commands from the front of a text.  What may be nested — substitutions in
words, lists in compound commands — is read by a deeper reader; the number of readers below
bounds the nesting, so reading ends for every text.

`nextLine` reads one complete command at a time.  A later line is read only after the
earlier ones have been run, so a mistake in it does not keep them from running.

Part of the kernel that the executable runs with (`Shell.kernel`).  The theorems of the library
are about every kernel, and none is about this one alone.
-/

import Walkthrough.Shell.Grammar

namespace Walkthrough
namespace Shell
namespace Reader

open Text (Octets)

/-- What is left to read, and the line it starts in. -/
structure Scan where
  rest : Octets
  line : Nat
deriving DecidableEq, Repr

/-- Why a text is not a command. -/
structure Complaint where
  line : Nat
  message : String
deriving DecidableEq, Repr

/-- A reader that answers something or complains. -/
abbrev Reading := StateT Scan (Except Complaint)

/-- What the parts of a word stand in. -/
inductive Mode where
  | word
  /-- Between double quotes. -/
  | quotes
  /-- In braces, which stand between double quotes or not. -/
  | braces (quoted : Bool)
  | document
  | sum
deriving DecidableEq, Repr

/-- The readers of one depth. -/
structure Depth where
  parts : Mode → Reading (List Part)
  /-- One command. -/
  command : Reading Command
  /-- The commands up to a closing word. -/
  commands : Reading Command

/-! ## Characters and tokens -/

/-- Complains about the current line. -/
def complain {α : Type} (message : String) : Reading α := do
  throw ⟨(← get).line, "Syntax error: " ++ message⟩

/-- What is left to read. -/
def ahead : Reading Octets := do
  return (← get).rest

/-- Takes some characters. -/
def take (n : Nat) : Reading Unit :=
  modify fun s => ⟨s.rest.drop n, s.line + (s.rest.take n).count '\n'⟩

/-- How many characters of blanks and comment stand in front. -/
def blankLength : Octets → Nat
  | ' ' :: t => blankLength t + 1
  | '\t' :: t => blankLength t + 1
  | '\\' :: '\n' :: t => blankLength t + 2
  | '#' :: t => (t.takeWhile (· != '\n')).length + 1
  | _ => 0

/-- Passes over blanks and a comment. -/
def blanks : Reading Unit := do
  take (blankLength (← ahead))

/-- Passes over blank lines; `steps` bounds their number. -/
def blankLinesFrom : (steps : Nat) → Reading Unit
  | 0 => pure ()
  | steps + 1 => do
    blanks
    match ← ahead with
    | '\n' :: _ => do take 1; blankLinesFrom steps
    | _ => pure ()

/-- Passes over blank lines. -/
def blankLines : Reading Unit := do
  blankLinesFrom ((← ahead).length + 1)

/-- Whether a character ends a word. -/
def endsWord (c : Char) : Bool :=
  c == ' ' || c == '\t' || c == '\n' || c == ';' || c == '&' || c == '|' || c == '<' || c == '>'
    || c == '(' || c == ')'

/-- Whether a character quotes or expands. -/
def isSpecial (c : Char) : Bool :=
  c == '\'' || c == '\x22' || c == '\\' || c == '$' || c == '\x60'

/-- The words that mean something at the start of a command. -/
def reservedWords : List String :=
  ["!", "\x7b", "\x7d", "case", "do", "done", "elif", "else", "esac", "fi", "for", "if", "in",
   "then", "until", "while"]

/-- The plain word in front. -/
def plainWord (t : Octets) : Option String :=
  let run := t.takeWhile fun c => !endsWord c && !isSpecial c
  match t.drop run.length with
  | [] => some (String.ofList run)
  | c :: _ => if isSpecial c then none else some (String.ofList run)

/-- The reserved word in front. -/
def reservedWord (t : Octets) : Option String :=
  (plainWord t).filter fun w => reservedWords.contains w

/-- The words before which a list of commands stops. -/
def closingWords : List String :=
  ["\x7d", "do", "done", "elif", "else", "esac", "fi", "then"]

/-- Whether a list of commands stops here. -/
def stopsList (t : Octets) : Bool :=
  match t with
  | [] => true
  | ')' :: _ => true
  | ';' :: ';' :: _ => true
  | _ => (plainWord t).any fun w => closingWords.contains w

/-- The name of what stands in front. -/
def tokenName (t : Octets) : String :=
  match t with
  | [] => "end of file"
  | '\n' :: _ => "newline"
  | '&' :: '&' :: _ => "\"&&\""
  | '|' :: '|' :: _ => "\"||\""
  | ';' :: ';' :: _ => "\";;\""
  | '<' :: _ => "redirection"
  | '>' :: _ => "redirection"
  | c :: _ =>
    if endsWord c then "\"" ++ String.singleton c ++ "\""
    else match reservedWord t with
      | some w => "\"" ++ w ++ "\""
      | none => "word"

/-- Complains about what stands in front. -/
def unexpected {α : Type} (expecting : Option String) : Reading α := do
  let token := tokenName (← ahead)
  match expecting with
  | none => complain (token ++ " unexpected")
  | some w => complain (token ++ " unexpected (expecting \"" ++ w ++ "\")")

/-- Takes a reserved word, after blank lines. -/
def expectWord (w : String) : Reading Unit := do
  blankLines
  if reservedWord (← ahead) = some w then take w.length else unexpected (some w)

/-- Takes a character, after blank lines. -/
def expectChar (c : Char) : Reading Unit := do
  blankLines
  match ← ahead with
  | d :: _ => if d = c then take 1 else unexpected (some (String.singleton c))
  | [] => unexpected (some (String.singleton c))

/-! ## Parts of words -/

/-- Whether quotes around the text already keep its blanks and single quotes. -/
def Mode.isQuoted : Mode → Bool
  | .word => false
  | .braces quoted => quoted
  | _ => true

/-- Whether a character stands for itself. -/
def Mode.isOrdinary (m : Mode) (c : Char) : Bool :=
  c != '\\' && c != '$' && c != '\x60' &&
    match m with
    | .word => !endsWord c && c != '\'' && c != '\x22'
    | .quotes => c != '\x22'
    | .braces quoted => c != '\x7d' && c != '\x22' && (quoted || c != '\'')
    | .document => true
    | .sum => c != '(' && c != ')' && c != '\x22'

/-- Whether the parts end before a character. -/
def Mode.endsBefore (m : Mode) (depth : Nat) (c : Char) : Bool :=
  match m with
  | .word => endsWord c
  | .quotes => c == '\x22'
  | .braces _ => c == '\x7d'
  | .document => false
  | .sum => c == ')' && depth == 0

/-- Whether a backslash keeps a character between quotes. -/
def Mode.keeps (m : Mode) (c : Char) : Bool :=
  c == '$' || c == '\x60' || c == '\\' ||
    match m with
    | .document => false
    | .braces _ => c == '\x22' || c == '\x7d'
    | _ => c == '\x22'

/-- The text up to the closing back quote, and how many characters it takes. -/
def backQuoted (quoted : Bool) : Octets → Option (Octets × Nat)
  | [] => none
  | '\x60' :: _ => some ([], 1)
  | '\\' :: c :: t =>
    (backQuoted quoted t).map fun r =>
      if c == '$' || c == '\x60' || c == '\\' || (quoted && c == '\x22') then (c :: r.1, r.2 + 2)
      else ('\\' :: c :: r.1, r.2 + 2)
  | c :: t => (backQuoted quoted t).map fun r => (c :: r.1, r.2 + 1)

/-- Reads a whole text with a reader. -/
def readAll {α : Type} (text : Octets) (reader : Reading α) : Reading α := do
  let line := (← get).line
  match reader.run ⟨text, line⟩ with
  | .error e => throw e
  | .ok (a, s) => if s.rest.isEmpty then return a else complain (tokenName s.rest ++ " unexpected")

/-- The name of a parameter in front. -/
def parameterName (t : Octets) : Octets :=
  match t with
  | c :: _ =>
    if isNameStart c then t.takeWhile isNamePart
    else if c.isDigit then t.takeWhile Char.isDigit
    else if "@*#?$!-".toList.contains c then [c]
    else []
  | [] => []

/-- The operator after a name in braces: what it does, whether empty counts, its length. -/
def fallbackIn? (t : Octets) : Option (Fallback × Bool × Nat) :=
  let one (blankToo : Bool) (n : Nat) : Octets → Option (Fallback × Bool × Nat)
    | '-' :: _ => some (.use, blankToo, n)
    | '=' :: _ => some (.assign, blankToo, n)
    | '+' :: _ => some (.alternative, blankToo, n)
    | '?' :: _ => some (.complain, blankToo, n)
    | _ => none
  match t with
  | ':' :: rest => one true 2 rest
  | _ => one false 1 t

/-- The cutting operator after a name in braces: the side, whether the longest is cut, and
its length. -/
def cutIn? : Octets → Option (Side × Bool × Nat)
  | '%' :: '%' :: _ => some (.back, true, 2)
  | '%' :: _ => some (.back, false, 1)
  | '#' :: '#' :: _ => some (.front, true, 2)
  | '#' :: _ => some (.front, false, 1)
  | _ => none

/-- Takes the closing brace of a parameter. -/
def closeBrace : Reading Unit := do
  match ← ahead with
  | '\x7d' :: _ => take 1
  | [] => complain "Missing '\x7d'"
  | _ => complain "Bad substitution"

/-- What stands after the opening brace of a parameter. -/
def readBraces (deeper : Depth) (quoted : Bool) : Reading Part := do
  let t ← ahead
  let measured := match t with
    | '#' :: rest =>
      let name := parameterName rest
      if !name.isEmpty && (rest.drop name.length).head? == some '\x7d' then some name else none
    | _ => none
  match measured with
  | some name => do
    take (name.length + 2)
    return .length name
  | none => do
    let name := parameterName t
    if name.isEmpty then complain "Bad substitution"
    take name.length
    let rest ← ahead
    match fallbackIn? rest, cutIn? rest with
    | some (what, blankToo, n), _ => do
      take n
      let word ← deeper.parts (.braces quoted)
      closeBrace
      return .fallback name what blankToo word
    | none, some (side, longest, n) => do
      take n
      let pattern ← deeper.parts (.braces false)
      closeBrace
      return .cut name side longest pattern
    | none, none => do
      closeBrace
      return .parameter name

/-- A command between parentheses behind a dollar. -/
def readPrinted (deeper : Depth) : Reading Part := do
  take 2
  let c ← deeper.commands
  expectChar ')'
  return .printed c

/-- An expression between double parentheses behind a dollar. -/
def readSum (deeper : Depth) : Reading Part := do
  take 3
  let e ← deeper.parts .sum
  match ← ahead with
  | ')' :: ')' :: _ => do take 2; return .arithmetic e
  | _ => complain "Missing '))'"

/-- What a dollar starts. -/
def readDollar (deeper : Depth) (quoted : Bool) : Reading Part := do
  match ← ahead with
  | '$' :: '(' :: '(' :: _ => tryCatch (readSum deeper) fun _ => readPrinted deeper
  | '$' :: '(' :: _ => readPrinted deeper
  | '$' :: '\x7b' :: _ => do take 2; readBraces deeper quoted
  | _ :: rest => do
    let name := match rest with
      | c :: _ => if c.isDigit then [c] else parameterName rest
      | [] => []
    take (name.length + 1)
    return if name.isEmpty then .kept ['$'] else .parameter name
  | [] => return .kept []

/-- The parts up to the end of a mode; `steps` bounds their number, `depth` counts open
parentheses. -/
def partsFrom (deeper : Depth) (m : Mode) : (steps depth : Nat) → Reading (List Part)
  | 0, _ => complain "word too long"
  | steps + 1, depth => do
    let t ← ahead
    match t with
    | [] =>
      match m with
      | .word => return []
      | .document => return []
      | .quotes => complain "Unterminated quoted string"
      | .braces _ => complain "Missing '\x7d'"
      | .sum => complain "Missing '))'"
    | c :: rest =>
      if m.endsBefore depth c then return []
      if m.isOrdinary c then
        let run := t.takeWhile m.isOrdinary
        take run.length
        return .plain run :: (← partsFrom deeper m steps depth)
      match c, rest with
      | '\\', '\n' :: _ => do
        take 2
        partsFrom deeper m steps depth
      | '\\', d :: _ =>
        if m.isQuoted && !m.keeps d then do
          take 1
          return .kept ['\\'] :: (← partsFrom deeper m steps depth)
        else do
          take 2
          return .kept [d] :: (← partsFrom deeper m steps depth)
      | '\\', [] => do
        take 1
        return [.kept ['\\']]
      | '\'', _ => do
        let text := rest.takeWhile (· != '\'')
        if text.length = rest.length then complain "Unterminated quoted string"
        take (text.length + 2)
        return .kept text :: (← partsFrom deeper m steps depth)
      | '\x22', _ => do
        take 1
        let inner ← deeper.parts .quotes
        take 1
        return .double inner :: (← partsFrom deeper m steps depth)
      | '\x60', _ => do
        match backQuoted m.isQuoted rest with
        | none => complain "EOF in backquote substitution"
        | some (text, n) => do
          let c ← readAll text deeper.commands
          take (n + 1)
          return .printed c :: (← partsFrom deeper m steps depth)
      | '(', _ => do
        take 1
        return .plain ['('] :: (← partsFrom deeper m steps (depth + 1))
      | ')', _ => do
        take 1
        return .plain [')'] :: (← partsFrom deeper m steps (depth - 1))
      | _, _ => do
        let part ← readDollar deeper m.isQuoted
        return part :: (← partsFrom deeper m steps depth)

/-- The parts up to the end of a mode. -/
def readParts (deeper : Depth) (m : Mode) : Reading (List Part) := do
  partsFrom deeper m ((← ahead).length + 1) 0

/-- A word, after blanks. -/
def readWord (deeper : Depth) : Reading (List Part) := do
  blanks
  match ← ahead with
  | [] => unexpected none
  | c :: _ => if endsWord c then unexpected none else readParts deeper .word

/-! ## Redirections -/

/-- The operators of redirections: what they do, whether the text is in the lines below,
whether tabs are stripped from it; a longer one stands before its beginnings. -/
def redirectionOperators : List (Octets × Direction × Bool) :=
  [("<<-".toList, .document, true), ("<<".toList, .document, false), ("<&".toList, .copy, false),
   ("<>".toList, .inputOutput, false), ("<".toList, .input, false),
   (">>".toList, .appending, false), (">&".toList, .copy, true), (">|".toList, .output, false),
   (">".toList, .output, false)]

/-- The descriptor a redirection changes when none is named. -/
def defaultDescriptor (operator : Octets) : Nat :=
  if operator.head? = some '<' then 0 else 1

/-- Whether a redirection stands in front. -/
def isRedirection (t : Octets) : Bool :=
  match t.dropWhile Char.isDigit with
  | '<' :: _ => true
  | '>' :: _ => true
  | _ => false

/-- The text of quoted and plain parts, and whether any of them was quoted. -/
def delimiterOf : List Part → Octets × Bool
  | [] => ([], false)
  | .plain t :: ps => (t ++ (delimiterOf ps).1, (delimiterOf ps).2)
  | .kept t :: ps => (t ++ (delimiterOf ps).1, true)
  | .double [.plain t] :: ps => (t ++ (delimiterOf ps).1, true)
  | _ :: ps => ((delimiterOf ps).1, true)

/-- The lines up to a delimiter, and what follows it. -/
def documentLines (tabs : Bool) (delimiter : Octets) : (steps : Nat) → Octets → Octets × Octets
  | 0, t => ([], t)
  | _, [] => ([], [])
  | steps + 1, t =>
    let whole := t.takeWhile (· != '\n')
    let line := if tabs then whole.dropWhile (· == '\t') else whole
    let rest := t.drop (whole.length + 1)
    if line = delimiter then ([], rest)
    else
      let below := documentLines tabs delimiter steps rest
      (line ++ '\n' :: below.1, below.2)

/-- The text below the current line, taken out of what is left to read. -/
def readDocument (deeper : Depth) (tabs : Bool) : Reading (List Part) := do
  let (delimiter, quoted) := delimiterOf (← readWord deeper)
  let t ← ahead
  let line := t.takeWhile (· != '\n')
  let below := t.drop (line.length + 1)
  let (text, rest) := documentLines tabs delimiter (below.length + 1) below
  modify fun s => ⟨if line.length < t.length then line ++ '\n' :: rest else line, s.line⟩
  if quoted then return [.kept text] else readAll text (deeper.parts .document)

/-- A redirection. -/
def readRedirection (deeper : Depth) : Reading Redirection := do
  let t ← ahead
  let named := t.takeWhile Char.isDigit
  let rest := t.drop named.length
  match redirectionOperators.find? fun o => o.1.isPrefixOf rest with
  | none => unexpected none
  | some (operator, direction, tabs) => do
    take (named.length + operator.length)
    let descriptor :=
      if named.isEmpty then defaultDescriptor operator else (String.ofList named).toNat?.getD 0
    let word ← if direction = .document then readDocument deeper tabs else readWord deeper
    return .mk descriptor direction word

/-- The redirections in front; `steps` bounds their number. -/
def redirectionsFrom (deeper : Depth) : (steps : Nat) → Reading (List Redirection)
  | 0 => pure []
  | steps + 1 => do
    blanks
    if isRedirection (← ahead) then
      let r ← readRedirection deeper
      return r :: (← redirectionsFrom deeper steps)
    else return []

/-! ## Commands -/

/-- The name and the first part of the value, when a part starts an assignment. -/
def assignmentIn? : List Part → Option (Octets × List Part)
  | .plain t :: ps =>
    let name := t.takeWhile (· != '=')
    if isName name && name.length < t.length then
      let value := t.drop (name.length + 1)
      some (name, if value.isEmpty then ps else .plain value :: ps)
    else none
  | _ => none

/-- The pieces of a simple command. -/
structure Pieces where
  assignments : List (Octets × List Part) := []
  words : List (List Part) := []
  redirections : List Redirection := []

/-- The assignments, words and redirections in front; `steps` bounds their number. -/
def piecesFrom (deeper : Depth) : (steps : Nat) → Pieces → Reading Pieces
  | 0, p => pure p
  | steps + 1, p => do
    blanks
    let t ← ahead
    if isRedirection t then
      let r ← readRedirection deeper
      piecesFrom deeper steps { p with redirections := p.redirections ++ [r] }
    else match t with
      | [] => return p
      | c :: _ =>
        if endsWord c then return p
        let w ← readParts deeper .word
        match p.words, assignmentIn? w with
        | [], some a => piecesFrom deeper steps { p with assignments := p.assignments ++ [a] }
        | _, _ => piecesFrom deeper steps { p with words := p.words ++ [w] }

/-- A simple command, or the definition of a function. -/
def readSimple (deeper : Depth) : Reading Command := do
  let s ← get
  let p ← piecesFrom deeper (s.rest.length + 1) {}
  match p.words, ← ahead with
  | [[.plain name]], '(' :: _ => do
    take 1
    expectChar ')'
    blankLines
    return .function name (← deeper.command)
  | _, '(' :: _ => unexpected none
  | words, _ =>
    if words.isEmpty && p.assignments.isEmpty && p.redirections.isEmpty then unexpected none
    else return .simple s.line p.assignments words p.redirections

/-- Commands up to a closing word; there must be some, unless the text ends. -/
def readBody (deeper : Depth) : Reading Command := do
  let c ← deeper.commands
  if c.isNothing && !(← ahead).isEmpty then unexpected none else return c

/-- The rest of a conditional behind its first word; `steps` bounds the branches. -/
def readConditional (deeper : Depth) : (steps : Nat) → Reading Command
  | 0 => complain "too many branches"
  | steps + 1 => do
    let condition ← readBody deeper
    expectWord "then"
    let body ← readBody deeper
    blankLines
    match reservedWord (← ahead) with
    | some "elif" => do
      take 4
      return .conditional condition body (← readConditional deeper steps)
    | some "else" => do
      take 4
      let otherwise ← readBody deeper
      expectWord "fi"
      return .conditional condition body otherwise
    | _ => do
      expectWord "fi"
      return .conditional condition body .nothing

/-- The words up to the end of a command; `steps` bounds their number. -/
def wordsFrom (deeper : Depth) : (steps : Nat) → Reading (List (List Part))
  | 0 => pure []
  | steps + 1 => do
    blanks
    match ← ahead with
    | [] => return []
    | c :: _ =>
      if endsWord c then return []
      let w ← readParts deeper .word
      return w :: (← wordsFrom deeper steps)

/-- A loop over words, behind its first word. -/
def readEach (deeper : Depth) : Reading Command := do
  blanks
  let name := (← ahead).takeWhile fun c => !endsWord c
  unless isName name do complain "Bad for loop variable"
  take name.length
  blankLines
  let words ←
    if reservedWord (← ahead) = some "in" then do
      take 2
      let t ← ahead
      pure (some (← wordsFrom deeper (t.length + 1)))
    else pure none
  blanks
  match ← ahead with
  | ';' :: _ => take 1
  | '\n' :: _ => take 1
  | _ => if words.isSome then unexpected none else pure ()
  expectWord "do"
  let body ← readBody deeper
  expectWord "done"
  return .each name words body

/-- The patterns of an arm, up to the closing parenthesis; `steps` bounds their number. -/
def patternsFrom (deeper : Depth) : (steps : Nat) → Reading (List (List Part))
  | 0 => pure []
  | steps + 1 => do
    let w ← readWord deeper
    blanks
    match ← ahead with
    | '|' :: _ => do
      take 1
      return w :: (← patternsFrom deeper steps)
    | _ => do
      expectChar ')'
      return [w]

/-- The arms of a choice; `steps` bounds their number. -/
def armsFrom (deeper : Depth) : (steps : Nat) → Reading (List (List (List Part) × Command))
  | 0 => pure []
  | steps + 1 => do
    blankLines
    let t ← ahead
    if reservedWord t = some "esac" then return []
    if t.head? = some '(' then take 1
    let patterns ← patternsFrom deeper (t.length + 1)
    let body ← deeper.commands
    blankLines
    match ← ahead with
    | ';' :: ';' :: _ => do
      take 2
      return (patterns, body) :: (← armsFrom deeper steps)
    | _ => return [(patterns, body)]

/-- A choice between patterns, behind its first word. -/
def readChoice (deeper : Depth) : Reading Command := do
  let word ← readWord deeper
  expectWord "in"
  let arms ← armsFrom deeper ((← ahead).length + 1)
  expectWord "esac"
  return .choice word arms

/-- A loop with a condition, behind its first word. -/
def readLoop (deeper : Depth) (fails : Bool) : Reading Command := do
  let condition ← readBody deeper
  expectWord "do"
  let body ← readBody deeper
  expectWord "done"
  return .loop fails condition body

/-- The compound command in front, when there is one. -/
def readCompound (deeper : Depth) : Reading (Option Command) := do
  let t ← ahead
  if t.head? = some '(' then
    take 1
    let body ← readBody deeper
    expectChar ')'
    return some (.subshell body)
  match reservedWord t with
  | some "\x7b" => do
    take 1
    let body ← readBody deeper
    expectWord "\x7d"
    return some (.group body)
  | some "if" => do take 2; return some (← readConditional deeper (t.length + 1))
  | some "while" => do take 5; return some (← readLoop deeper false)
  | some "until" => do take 5; return some (← readLoop deeper true)
  | some "for" => do take 3; return some (← readEach deeper)
  | some "case" => do take 4; return some (← readChoice deeper)
  | some "in" => return none
  | some _ => unexpected none
  | none => return none

/-- A command with its redirections. -/
def readCommand (deeper : Depth) : Reading Command := do
  blanks
  match ← readCompound deeper with
  | none => readSimple deeper
  | some c => do
    let rs ← redirectionsFrom deeper ((← ahead).length + 1)
    return if rs.isEmpty then c else .redirected c rs

/-- The commands behind the first one of a pipeline; `steps` bounds their number. -/
def pipelineFrom (deeper : Depth) : (steps : Nat) → Reading (List Command)
  | 0 => pure []
  | steps + 1 => do
    blanks
    match ← ahead with
    | '|' :: '|' :: _ => return []
    | '|' :: _ => do
      take 1
      blankLines
      let c ← readCommand deeper
      return c :: (← pipelineFrom deeper steps)
    | _ => return []

/-- A pipeline. -/
def readPipeline (deeper : Depth) : Reading Command := do
  blanks
  let t ← ahead
  let negated := reservedWord t = some "!"
  if negated then take 1
  let first ← readCommand deeper
  let rest ← pipelineFrom deeper (t.length + 1)
  return if rest.isEmpty && !negated then first else .pipeline negated (first :: rest)

/-- The pipelines behind a first one, joined by their success; `steps` bounds their number. -/
def joinedFrom (deeper : Depth) : (steps : Nat) → Command → Reading Command
  | 0, c => pure c
  | steps + 1, c => do
    blanks
    match ← ahead with
    | '&' :: '&' :: _ => do
      take 2
      blankLines
      joinedFrom deeper steps (.both c (← readPipeline deeper))
    | '|' :: '|' :: _ => do
      take 2
      blankLines
      joinedFrom deeper steps (.either c (← readPipeline deeper))
    | _ => return c

/-- Pipelines joined by their success, in the background or not, and whether something
closes them. -/
def readItem (deeper : Depth) : Reading (Command × Bool) := do
  let c ← readPipeline deeper
  let c ← joinedFrom deeper ((← ahead).length + 1) c
  blanks
  match ← ahead with
  | '&' :: _ => do take 1; return (.background c, true)
  | ';' :: ';' :: _ => return (c, false)
  | ';' :: _ => do take 1; return (c, true)
  | '\n' :: _ => return (c, true)
  | _ => return (c, false)

/-- The items up to a closing word, or up to the end of the line; `steps` bounds their
number. -/
def itemsFrom (deeper : Depth) (oneLine : Bool) : (steps : Nat) → Reading (List Command)
  | 0 => pure []
  | steps + 1 => do
    if oneLine then blanks else blankLines
    let t ← ahead
    if stopsList t || (oneLine && t.head? = some '\n') then return []
    let (c, closed) ← readItem deeper
    unless closed || stopsList (← ahead) do unexpected none
    return c :: (← itemsFrom deeper oneLine steps)

/-- One command for a list of them. -/
def listed : List Command → Command
  | [c] => c
  | cs => .sequence cs

/-- The commands up to a closing word. -/
def readCommands (deeper : Depth) : Reading Command := do
  return listed (← itemsFrom deeper false ((← ahead).length + 1))

/-- The readers above others. -/
def above (deeper : Depth) : Depth where
  parts := readParts deeper
  command := readCommand deeper
  commands := readCommands deeper

/-- The readers that have some others below them. -/
def depth : Nat → Depth
  | 0 => ⟨fun _ => complain "nested too deeply", complain "nested too deeply",
      complain "nested too deeply"⟩
  | n + 1 => above (depth n)

/-- How deep commands may be nested. -/
def maxNesting : Nat := 300

/-- The readers of whole commands. -/
def whole : Depth := depth maxNesting

/-- The next complete command and what is left after it; nothing at the end. -/
def nextLine (s : Scan) : Except Complaint (Option (Command × Scan)) :=
  let reading : Reading (Option Command) := do
    blankLines
    let t ← ahead
    if t.isEmpty then return none
    let cs ← itemsFrom whole true (t.length + 1)
    blanks
    match ← ahead with
    | [] => return some (listed cs)
    | '\n' :: _ => do take 1; return some (listed cs)
    | _ => unexpected none
  match reading.run s with
  | .error e => .error e
  | .ok (none, _) => .ok none
  | .ok (some c, rest) => .ok (some (c, rest))

end Reader
end Shell
end Walkthrough
