/-
# Utilities

The programs of the system other than the shell.  Each answers its exit code; what it
prints goes to its descriptors.  Most of them are known to the shell itself as well.

Part of the kernel that the executable runs with (`Shell.kernel`).  The theorems of the library
are about every kernel, and none is about this one alone.
-/

import Walkthrough.Shell.Condition
import Walkthrough.Shell.Expansion
import Walkthrough.Shell.Format
import Walkthrough.Shell.Md5

namespace Walkthrough
namespace Shell
namespace Utility

open Text (Octets)

/-- A line on standard output; the code tells whether it could be written. -/
def print (program : String) (t : Octets) : Act Nat := do
  if t.isEmpty then return 0
  if ← send 1 t then return 0
  complainAs program "write error: Bad file descriptor".toList
  return 1

/-- A text between quotes. -/
def quoted (t : Octets) : Octets :=
  '\'' :: t ++ ['\'']

/-- Whether a character makes a name stand between quotes in messages. -/
def wantsQuotes (c : Char) : Bool :=
  " \t\n!\"$&()*;<=>?[\\^\x60|'".toList.contains c

/-- A name in a message, between quotes when it needs them. -/
def quotedName (t : Octets) : Octets :=
  if t.isEmpty || t.any wantsQuotes then quoted t else t

/-- A message about a file. -/
def about (program what : String) (path : Octets) (e : Errno) : Act Unit :=
  complainAs program (what.toList ++ quoted path ++ ": ".toList ++ e.text.toList)

/-- Does something for every argument; the code is one when it failed for any of them. -/
def forAll (args : List Octets) (act : Octets → Act Bool) : Act Nat := do
  let done ← args.mapM act
  return if done.all id then 0 else 1

/-- The option letters in front of the arguments, and the arguments. -/
def splitOptions : List Octets → Octets × List Octets
  | [] => ([], [])
  | ['-', '-'] :: rest => ([], rest)
  | ('-' :: c :: cs) :: rest =>
    let (letters, operands) := splitOptions rest
    (c :: cs ++ letters, operands)
  | args => ([], args)

/-! ## Reading files -/

/-- Prints one file. -/
def catOne (path : Octets) : Act Bool := do
  if path = ['-'] then
    match ← receiveAll 0 with
    | some t => return (← print "cat" t) == 0
    | none => do
      complainAs "cat" "-: Bad file descriptor".toList
      return false
  match ← openInput path with
  | .error e => do
    complainAs "cat" (quotedName path ++ ": ".toList ++ e.text.toList)
    return false
  | .ok o =>
    if o.stream == .directory then do
      complainAs "cat" (quotedName path ++ ": Is a directory".toList)
      return false
    else return (← print "cat" (pending (← get).world o)) == 0

/-- Prints files one after another. -/
def cat (args : List Octets) : Act Nat := do
  let (_, operands) := splitOptions args
  forAll (if operands.isEmpty then [['-']] else operands) catOne

/-- What is shown of the names of a directory. -/
def shownNames (w : Worker) (letters : Octets) (place : Place) : List Octets :=
  let names := (w.world.files.names place).map Text.Octets.ofText
  if letters.contains 'a' then ['.'] :: ['.', '.'] :: names
  else if letters.contains 'A' then names
  else names.filter fun n => n.head? != some '.'

/-- The size of a node in bytes. -/
def byteCount : Node → Nat
  | .file bytes _ => bytes.length
  | .link path => path.utf8ByteSize
  | .directory _ => 4096
  | _ => 0

/-- The letters of the kind and the permissions of a node. -/
def modeLetters (n : Node) : Octets :=
  let kind :=
    match n with
    | .directory _ => 'd'
    | .fixedDirectory => 'd'
    | .link _ => 'l'
    | .device => 'c'
    | _ => '-'
  let bits := (List.range 9).map fun i =>
    if n.mode / Nat.pow 2 (8 - i) % 2 = 1 then "rwx".toList.getD (i % 3) '-' else '-'
  kind :: bits

/-- Names, each on its line; a long listing has a line for the blocks and tells more. -/
def listing (long total : Bool) (entries : List (Octets × Node)) : Octets :=
  let sizes := entries.map fun e => Text.Octets.ofNat (byteCount e.2)
  let width := (sizes.map List.length).foldl max 1
  let line (e : Octets × Node) : Octets :=
    let size := Text.Octets.ofNat (byteCount e.2)
    let target :=
      match e.2 with
      | .link path => " -> ".toList ++ Text.Octets.ofText path
      | _ => []
    modeLetters e.2 ++ " 1 root root ".toList ++ List.replicate (width - size.length) ' '
      ++ size ++ " Jan  1  1970 ".toList ++ e.1 ++ target ++ ['\n']
  if long then
    let blocks := entries.foldl (fun n e => n + (byteCount e.2 + 4095) / 4096 * 4) 0
    (if total then "total ".toList ++ Text.Octets.ofNat blocks ++ ['\n'] else [])
      ++ entries.flatMap line
  else entries.flatMap fun e => e.1 ++ ['\n']

/-- The order of octet texts. -/
def octetsLE (a b : Octets) : Bool :=
  !List.lex b a (fun c d => c < d)

/-- The node that a name in a directory stands for. -/
def entryOf (w : Worker) (place : Place) (name : Octets) : Octets × Node :=
  let below :=
    if name = ['.'] then place
    else if name = ['.', '.'] then place.dropLast
    else place ++ [Text.Octets.toText name]
  (name, (w.world.files.node? below).getD FileSystem.root)

/-- Lists files and the names in directories. -/
def ls (args : List Octets) : Act Nat := do
  let (letters, operands) := splitOptions args
  let long := letters.contains 'l'
  let several := 1 < operands.length
  let operands := (if operands.isEmpty then [['.']] else operands).mergeSort octetsLE
  let w ← get
  let spots ← operands.mapM fun path => do return (path, ← spotOf path)
  let missing ← spots.filterMapM fun s => do
    let complain (e : Errno) : Act (Option Unit) := do
      about "ls" "cannot access " s.1 e
      return some ()
    match s.2 with
    | .error e => complain e
    | .ok (.free ..) => complain .notFound
    | .ok (.found ..) => return none
  let isListed (n : Node) : Bool := n.isDirectory && !letters.contains 'd'
  let files := spots.filterMap fun s =>
    match s.2 with
    | .ok (.found _ n) => if isListed n then none else some (s.1, n)
    | _ => none
  let directories := spots.filterMap fun s =>
    match s.2 with
    | .ok (.found place n) =>
      if isListed n then some (s.1, (shownNames w letters place).map (entryOf w place)) else none
    | _ => none
  let blocks := directories.map fun d =>
    (if several then d.1 ++ [':', '\n'] else []) ++ listing long true d.2
  let all := (if files.isEmpty then [] else [listing long false files]) ++ blocks
  let code ← print "ls" (['\n'].intercalate all)
  return if missing.isEmpty then code else 2

/-- The first octets of files, or their first lines. -/
def head (args : List Octets) : Act Nat := do
  let countOf (t : Octets) : Nat := (String.ofList t).toNat?.getD 0
  let (byOctets, count, paths) : Bool × Nat × List Octets :=
    match args with
    | ['-', 'c'] :: n :: rest => (true, countOf n, rest)
    | ['-', 'n'] :: n :: rest => (false, countOf n, rest)
    | ('-' :: 'c' :: n) :: rest => (true, countOf n, rest)
    | ('-' :: 'n' :: n) :: rest => (false, countOf n, rest)
    | ('-' :: d :: ds) :: rest =>
      if d.isDigit then (false, countOf (d :: ds), rest) else (false, 10, rest)
    | rest => (false, 10, rest)
  let cut (t : Octets) : Octets :=
    if byOctets then t.take count
    else
      let ended := (Text.splitAt '\n' t).take count
      let text := ['\n'].intercalate ended
      if text.length < t.length && 0 < count then text ++ ['\n'] else text
  forAll (if paths.isEmpty then [['-']] else paths) fun path => do
    if path = ['-'] then return (← print "head" (cut ((← receiveAll 0).getD []))) == 0
    match ← openInput path with
    | .error e => do
      about "head" "cannot open " path e
      return false
    | .ok o => return (← print "head" (cut (pending (← get).world o))) == 0

/-- Prints the digests of files. -/
def md5sum (args : List Octets) : Act Nat :=
  let line (path t : Octets) : Act Bool := do
    let digest := Md5.hexDigest (Text.Octets.toBytes t)
    return (← print "md5sum" (digest ++ ' ' :: ' ' :: path ++ ['\n'])) == 0
  let paths := (splitOptions args).2
  forAll (if paths.isEmpty then [['-']] else paths) fun path => do
    if path = ['-'] then line path ((← receiveAll 0).getD [])
    else match ← openInput path with
    | .error e => do
      complainAs "md5sum" (path ++ ": ".toList ++ e.text.toList)
      return false
    | .ok o =>
      if o.stream == .directory then do
        complainAs "md5sum" (path ++ ": Is a directory".toList)
        return false
      else line path (pending (← get).world o)

/-- Prints the numbers of a range. -/
def seq (args : List Octets) : Act Nat := do
  let numbers := args.filterMap fun a => (Condition.number a).toOption
  let bounds : Option (Int × Int × Int) :=
    match numbers with
    | [last] => some (1, 1, last)
    | [first, last] => some (first, 1, last)
    | [first, step, last] => if step = 0 then none else some (first, step, last)
    | _ => none
  match bounds with
  | none => do
    complainAs "seq" "invalid operand".toList
    return 1
  | some (first, step, last) =>
    let count := ((last - first) / step + 1).toNat
    let numbers := (List.range count).map fun (i : Nat) => first + step * i
    print "seq" (numbers.flatMap fun n => Text.Octets.ofInt n ++ ['\n'])

/-! ## Time -/

/-- The milliseconds of a decimal number of seconds. -/
def milliseconds? (t : Octets) : Option Nat :=
  let (digits, unit) := match t.getLast? with
    | some 's' => (t.dropLast, 1)
    | some 'm' => (t.dropLast, 60)
    | some 'h' => (t.dropLast, 3600)
    | some 'd' => (t.dropLast, 86400)
    | _ => (t, 1)
  let whole := digits.takeWhile Char.isDigit
  let fraction? := match digits.drop whole.length with
    | [] => some []
    | '.' :: ds => if ds.all Char.isDigit then some ds else none
    | _ => none
  match fraction? with
  | none => none
  | some ds =>
    if whole.isEmpty && ds.isEmpty then none
    else
      let scale := Nat.pow 10 ds.length
      let n := (String.ofList (whole ++ ds)).toNat?.getD 0
      some ((n * unit * 1000 + (scale - 1)) / scale)

/-- Lets time pass. -/
def sleep (args : List Octets) : Act Nat := do
  if args.isEmpty then
    complainAs "sleep" "missing operand".toList
    return 1
  match args.find? fun a => (milliseconds? a).isNone with
  | some a => do
    complainAs "sleep" ("invalid time interval ".toList ++ quoted a)
    return 1
  | none => do
    passUntil ((← get).clock + (args.filterMap milliseconds?).foldl (· + ·) 0)
    return 0

/-! ## Changing files -/

/-- Makes files that are not there. -/
def touch (args : List Octets) : Act Nat :=
  forAll (splitOptions args).2 fun path => do
    match ← spotOf path with
    | .ok (.found ..) => return true
    | .ok (.free ..) =>
      match ← openOutput path true false with
      | .ok _ => return true
      | .error e => do
        about "touch" "cannot touch " path (if e = .isDirectory then .notFound else e)
        return false
    | .error e => do
      about "touch" "cannot touch " path e
      return false

/-- Removes one file, or a directory with everything in it. -/
def rmOne (letters path : Octets) : Act Bool := do
  let force := letters.contains 'f'
  let whole := letters.contains 'r' || letters.contains 'R'
  let w ← get
  match w.world.files.walk w.cwd (Text.Octets.toText path) false with
  | .ok (.found place n) =>
    if n.isDirectory && !whole then
      about "rm" "cannot remove " path .isDirectory
      return false
    else
      setFiles (w.world.files.eraseTree place)
      return true
  | .ok (.free ..) => do
    unless force do about "rm" "cannot remove " path .notFound
    return force
  | .error e => do
    unless force do about "rm" "cannot remove " path e
    return force

/-- Removes files. -/
def rm (args : List Octets) : Act Nat := do
  let (letters, operands) := splitOptions args
  forAll operands (rmOne letters)

/-- Makes one directory. -/
def mkdirOne (path : Octets) (mayExist : Bool) : Act Bool := do
  let w ← get
  match w.world.files.walk w.cwd (Text.Octets.toText path) true with
  | .ok (.found _ n) =>
    if mayExist && n.isDirectory then return true
    about "mkdir" "cannot create directory " path .alreadyThere
    return false
  | .ok (.free dir name _) => do
    setFiles (w.world.files.put (dir ++ [name]) (.directory 0o755))
    return true
  | .error e => do
    about "mkdir" "cannot create directory " path e
    return false

/-- The beginnings of a path that end before a slash, and the path. -/
def parents (path : Octets) : List Octets :=
  let ends := (List.range path.length).filter fun i => i ≠ 0 && path[i]? == some '/'
  ends.map path.take ++ [path]

/-- Makes directories. -/
def mkdir (args : List Octets) : Act Nat := do
  let (letters, operands) := splitOptions args
  forAll operands fun path => do
    if letters.contains 'p' then
      let made ← (parents path).mapM fun p => mkdirOne p true
      return made.all id
    else mkdirOne path false

/-- The permission bits of letters, for one class. -/
def permissionBits (letters : Octets) : Nat :=
  (if letters.contains 'r' then 4 else 0) + (if letters.contains 'w' then 2 else 0)
    + (if letters.contains 'x' then 1 else 0)

/-- The permission bits of the classes that letters name. -/
def classBits (letters : Octets) (bits : Nat) : Nat :=
  let everyone := letters.isEmpty || letters.contains 'a'
  (if everyone || letters.contains 'u' then bits * 64 else 0)
    + (if everyone || letters.contains 'g' then bits * 8 else 0)
    + (if everyone || letters.contains 'o' then bits else 0)

/-- A mode changed as a clause says: classes, a sign and letters. -/
def clauseMode? (mode : Nat) (t : Octets) : Option Nat :=
  let classes := t.takeWhile fun c => "ugoa".toList.contains c
  match t.drop classes.length with
  | sign :: letters =>
    if !letters.all fun c => "rwxX".toList.contains c then none
    else
      let bits := classBits classes (permissionBits letters)
      match sign with
      | '+' => some (mode ||| bits)
      | '-' => some (mode - (mode &&& bits))
      | '=' => some (mode - (mode &&& classBits classes 7) + bits)
      | _ => none
  | [] => none

/-- A mode changed as an argument says: octal digits, or clauses with commas between them. -/
def changedMode? (t : Octets) (mode : Nat) : Option Nat :=
  if !t.isEmpty && t.all Format.isOctal then
    (Arithmetic.digits 8 t).map Int.toNat
  else (Text.splitAt ',' t).foldlM clauseMode? mode

/-- A node with other permission bits. -/
def withMode (n : Node) (mode : Nat) : Node :=
  match n with
  | .file bytes _ => .file bytes mode
  | .directory _ => .directory mode
  | _ => n

/-- Changes the permission bits of files. -/
def chmod (args : List Octets) : Act Nat :=
  match args with
  | [] => do
    complainAs "chmod" "missing operand".toList
    return 1
  | mode :: paths => forAll paths fun path => do
    match ← spotOf path with
    | .ok (.found place n) =>
      match changedMode? mode n.mode with
      | none => do
        complainAs "chmod" ("invalid mode: ".toList ++ quoted mode)
        return false
      | some m => do
        setFiles ((← get).world.files.put place (withMode n m))
        return true
    | .ok (.free ..) => do
      about "chmod" "cannot access " path .notFound
      return false
    | .error e => do
      about "chmod" "cannot access " path e
      return false

/-- Removes empty directories. -/
def rmdir (args : List Octets) : Act Nat :=
  forAll (splitOptions args).2 fun path => do
    let w ← get
    let failed (e : Errno) : Act Bool := do
      about "rmdir" "failed to remove " path e
      return false
    match w.world.files.walk w.cwd (Text.Octets.toText path) false with
    | .error e => failed e
    | .ok (.free ..) => failed .notFound
    | .ok (.found place n) =>
      if !n.isDirectory then failed .notDirectory
      else if !(w.world.files.names place).isEmpty then failed .notEmpty
      else do
        setFiles (w.world.files.erase place)
        return true

/-- Where a file goes that is brought to a path: the path, or its name in a directory. -/
def targetPath (w : Worker) (source target : Octets) : Octets :=
  if w.world.files.isDirectory w.cwd (Text.Octets.toText target) then
    target ++ '/' :: (source.reverse.takeWhile (· != '/')).reverse
  else target

/-- Copies one file. -/
def cpOne (target source : Octets) : Act Bool := do
  let path := targetPath (← get) source target
  match ← nodeOf source with
  | .error e => do
    about "cp" "cannot stat " source e
    return false
  | .ok n =>
    if n.isDirectory then do
      complainAs "cp" ("-r not specified; omitting directory ".toList ++ quoted source)
      return false
    else match ← openInput source, ← openOutput path false false with
    | .ok input, .ok { stream := .file place, .. } => do
      let bytes := Text.Octets.toBytes (pending (← get).world input)
      let mode := (((← get).world.files.node? place).map Node.mode).getD 0o644
      let mode := if n.isExecutable then mode ||| 0o111 else mode
      setFiles ((← get).world.files.put place (.file bytes mode))
      return true
    | .ok _, .ok _ => return true
    | .error e, _ => do
      about "cp" "cannot open " source e
      return false
    | _, .error e => do
      about "cp" "cannot create regular file " path e
      return false

/-- Moves one file or directory. -/
def mvOne (target source : Octets) : Act Bool := do
  let w ← get
  let path := targetPath w source target
  let failed (e : Errno) : Act Bool := do
    about "mv" "cannot stat " source e
    return false
  match w.world.files.walk w.cwd (Text.Octets.toText source) false with
  | .error e => failed e
  | .ok (.free ..) => failed .notFound
  | .ok (.found place _) =>
    match w.world.files.walk w.cwd (Text.Octets.toText path) false with
    | .ok (.free dir name _) => do
      setFiles (w.world.files.moveTree place (dir ++ [name]))
      return true
    | .ok (.found old _) => do
      unless old = place do setFiles ((w.world.files.eraseTree old).moveTree place old)
      return true
    | .error e => do
      about "mv" "cannot move to " path e
      return false

/-- Brings files to the last argument. -/
def bring (program : String) (one : (target source : Octets) → Act Bool) (args : List Octets) :
    Act Nat := do
  let operands := (splitOptions args).2
  match operands.getLast?, operands.dropLast with
  | some target, source :: sources => forAll (source :: sources) (one target)
  | _, _ => do
    complainAs program "missing file operand".toList
    return 1

/-! ## Conditions and paths -/

/-- Asks a condition under a name of the program. -/
def ask (name : String) (args : List Octets) : Act Nat := do
  let w ← get
  let find (follow : Bool) (path : Octets) : Option Node :=
    match w.world.files.walk w.cwd (Text.Octets.toText path) follow with
    | .ok (.found _ n) => some n
    | _ => none
  match Condition.answer ⟨find true, find false⟩ args with
  | .ok b => return if b then 0 else 1
  | .error message => do
    grumble (name.toList ++ ": ".toList ++ message)
    return 2

/-- Asks a condition in brackets. -/
def bracket (args : List Octets) : Act Nat := do
  if args.getLast? = some [']'] then ask "[" args.dropLast
  else
    grumble "[: missing ]".toList
    return 2

/-- Prints the directory. -/
def pwd : Act Nat := do
  let w ← get
  print "pwd" (Text.Octets.ofText w.cwd.path ++ ['\n'])

/-- Prints the last name of a path. -/
def basename (args : List Octets) : Act Nat :=
  match args with
  | path :: rest =>
    let trimmed := (path.reverse.dropWhile (· == '/')).reverse
    let name := (trimmed.reverse.takeWhile (· != '/')).reverse
    let ending := rest.headD []
    let name :=
      if ending.isSuffixOf name && ending.length < name.length then
        name.take (name.length - ending.length)
      else name
    print "basename" ((if path.isEmpty then [] else if name.isEmpty then ['/'] else name) ++ ['\n'])
  | [] => do
    complainAs "basename" "missing operand".toList
    return 1

/-- Prints a path without its last name. -/
def dirname (args : List Octets) : Act Nat :=
  match args with
  | path :: _ =>
    let trimmed := path.reverse.dropWhile (· == '/')
    let above := (trimmed.dropWhile (· != '/')).dropWhile (· == '/')
    let answer :=
      if !above.isEmpty then above.reverse
      else if path.head? = some '/' then ['/']
      else ['.']
    print "dirname" (answer ++ ['\n'])
  | [] => do
    complainAs "dirname" "missing operand".toList
    return 1

/-! ## Printing -/

/-- Prints words. -/
def echo (args : List Octets) : Act Nat := do
  let t := Format.echoed args
  if t.isEmpty then return 0
  if ← send 1 t then return 0
  grumble "echo: echo: I/O error".toList
  return 1

/-- Prints a format. -/
def printf (args : List Octets) : Act Nat := do
  let args := if args.head? = some ['-', '-'] then args.tail else args
  match args with
  | [] => do
    grumble "printf: usage: printf format [arg ...]".toList
    return 2
  | format :: rest => do
    let p := Format.printed format rest
    p.mistakes.forM fun m => grumble ("printf: ".toList ++ m)
    let code ← print "printf" p.text
    return if p.broken then 2 else if p.mistakes.isEmpty then code else 1

/-! ## Signals -/

/-- The names of signals. -/
def signalNames : List (String × Nat) :=
  [("HUP", 1), ("INT", 2), ("QUIT", 3), ("ILL", 4), ("TRAP", 5), ("ABRT", 6), ("BUS", 7),
   ("FPE", 8), ("KILL", 9), ("USR1", 10), ("SEGV", 11), ("USR2", 12), ("PIPE", 13),
   ("ALRM", 14), ("TERM", 15), ("STKFLT", 16), ("CHLD", 17), ("CONT", 18), ("STOP", 19),
   ("TSTP", 20), ("TTIN", 21), ("TTOU", 22), ("URG", 23), ("XCPU", 24), ("XFSZ", 25),
   ("VTALRM", 26), ("PROF", 27), ("WINCH", 28), ("POLL", 29), ("PWR", 30), ("SYS", 31)]

/-- The signal that a number or a name stands for. -/
def signal? (t : Octets) : Option Nat :=
  if !t.isEmpty && t.all Char.isDigit then
    (String.ofList t).toNat?.filter (· ≤ 64)
  else
    let name := String.ofList (t.map Char.toUpper)
    let name := if name.startsWith "SIG" then String.ofList (name.toList.drop 3) else name
    signalNames.lookup name

/-- Whether a signal does nothing when nobody asks for it. -/
def isHarmless (signal : Nat) : Bool :=
  [0, 17, 18, 23, 28].contains signal

/-- Whether a signal halts a worker without ending it. -/
def isHalting (signal : Nat) : Bool :=
  [19, 20, 21, 22].contains signal

/-- Ends a job with a signal, unless it has already ended. -/
def endJob (job : Job) (signal : Nat) : Act Unit := do
  let w ← get
  if job.ends.all fun time => w.clock < time then
    let ended : Job := { job with ends := some w.clock, status := .signalled signal }
    let isLater (p : Printed) : Bool :=
      w.clock < p.time && job.number ≤ p.writer && p.writer ≤ job.lastNumber
    set { w with
      jobs := w.jobs.map fun (j : Job) => if j.number = job.number then ended else j
      world := { w.world with printed := w.world.printed.filter fun p => !isLater p } }

/-- Sends a signal to a worker; answers whether there is one.  `trapped` runs what the
worker itself has set for a signal, and tells whether it has. -/
def deliver (trapped : Nat → Act Bool) (worker signal : Nat) : Act Bool := do
  let w ← get
  let strike : Act Bool :=
    if isHalting signal then throw .unfinished else throw (.killed worker signal)
  if worker = w.number then
    if isHarmless signal then return true
    if ← trapped signal then return true
    strike
  else if w.ancestors.contains worker then
    if isHarmless signal then return true
    strike
  else
    match w.jobs.find? fun j => j.number == worker with
    | none => return false
    | some job => do
      unless isHarmless signal do endJob job signal
      return true

/-- Sends a signal to one of the workers that are named by an argument. -/
def killOne (trapped : Nat → Act Bool) (signal : Nat) (t : Octets) : Act Bool := do
  let failed (message : String) : Act Bool := do
    grumble ("kill: ".toList ++ message.toList)
    return false
  match Condition.number t with
  | .error _ => failed ("Illegal number: " ++ String.ofList t)
  | .ok n =>
    -- The numbers up to zero name the whole group.
    let group := n ≤ 0
    let worker := if group then 1 else (n - Expansion.processNumber 0).toNat
    if ← deliver trapped worker signal then return true else failed "No such process\n"

/-- Sends a signal. -/
def kill (trapped : Nat → Act Bool) (args : List Octets) : Act Nat := do
  let usage : Act Nat := do
    grumble ("kill: Usage: kill [-s sigspec | -signum | -sigspec] [pid | job]... or\n"
      ++ "kill -l [exitstatus]").toList
    return 2
  let send (name : Octets) (targets : List Octets) : Act Nat := do
    match signal? name with
    | none => do
      grumble ("kill: invalid signal number or name: ".toList ++ name)
      return 2
    | some signal =>
      if targets.isEmpty then usage else forAll targets (killOne trapped signal)
  match args with
  | [] => usage
  | ['-', 's'] :: name :: targets => send name targets
  | ['-', '-'] :: targets => send "TERM".toList targets
  | ('-' :: c :: cs) :: targets => send (c :: cs) targets
  | targets => send "TERM".toList targets

/-! ## All of them -/

/-- What a utility does, when there is one of this name. -/
def find? (name : Octets) (args : List Octets) : Option (Act Nat) :=
  match String.ofList name with
  | "true" => some (return 0)
  | "false" => some (return 1)
  | "echo" => some (echo args)
  | "printf" => some (printf args)
  | "test" => some (ask "test" args)
  | "[" => some (bracket args)
  | "pwd" => some pwd
  | "cat" => some (cat args)
  | "ls" => some (ls args)
  | "sleep" => some (sleep args)
  | "touch" => some (touch args)
  | "rm" => some (rm args)
  | "mkdir" => some (mkdir args)
  | "rmdir" => some (rmdir args)
  | "basename" => some (basename args)
  | "dirname" => some (dirname args)
  | "cp" => some (bring "cp" cpOne args)
  | "mv" => some (bring "mv" mvOne args)
  | "chmod" => some (chmod args)
  | "head" => some (head args)
  | "seq" => some (seq args)
  | "md5sum" => some (md5sum args)
  | "kill" => some (kill (fun _ => return false) args)
  | _ => none

/-- The names of all utilities. -/
def names : List String :=
  ["true", "false", "echo", "printf", "test", "[", "pwd", "cat", "ls", "sleep", "touch", "rm",
   "mkdir", "rmdir", "basename", "dirname", "cp", "mv", "chmod", "head", "seq", "md5sum", "kill"]

end Utility
end Shell
end Walkthrough
