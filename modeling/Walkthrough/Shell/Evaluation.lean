/-
# Evaluation

What commands do.  Everything here is written for a given way to run the commands inside a
command; `run` then builds one such way on another, as deep as commands may be nested.  A
command that is nested deeper does not end.

A shell has a status, the exit code of the last command.  Lists, loops and conditions look
at it; a strict shell ends at a failure that nothing looks at.

Part of the kernel that the executable runs with (`Shell.kernel`).  The theorems of the library
are about every kernel, and none is about this one alone.
-/

import Walkthrough.Shell.Image
import Walkthrough.Shell.Reader
import Walkthrough.Shell.Utility

namespace Walkthrough
namespace Shell
namespace Evaluation

open Text (Octets)

/-- A way to run commands. -/
abbrev Run := Command → Act Unit

/-! ## Texts as commands -/

/-- Whether nothing but blanks is left. -/
def isSpent (t : Octets) : Bool :=
  t.all fun c => c == ' ' || c == '\t' || c == '\n'

/-- Runs the commands of a text one after another; `steps` bounds their number.  In a text
that is all its shell runs, the last one is the last thing the shell does. -/
def runLines (run : Run) (whole : Bool) : (steps : Nat) → Reader.Scan → Act Unit
  | 0, _ => pure ()
  | steps + 1, s =>
    match Reader.nextLine s with
    | .error e => do
      modify fun w => { w with line := e.line }
      grumble e.message.toList
      quit 2
    | .ok none => pure ()
    | .ok (some (c, rest)) => do
      modify fun w => { w with final := whole && isSpent rest.rest }
      run c
      runLines run whole steps rest

/-- Runs the commands of a text. -/
def runText (run : Run) (whole : Bool) (t : Octets) : Act Unit :=
  runLines run whole (t.length + 1) ⟨t, 1⟩

/-! ## Traps and ends -/

/-- The key of a trap: the number of its signal, zero for the end of the shell. -/
def trapKey? (t : Octets) : Option Octets :=
  if t = "EXIT".toList then some ['0'] else (Utility.signal? t).map Text.Octets.ofNat

/-- Runs what was set for a signal, and tells whether anything was. -/
def trapped (run : Run) (signal : Nat) : Act Bool := do
  let w ← get
  if signal = 9 || signal = 19 then return false
  match w.traps.lookup (Text.Octets.ofNat signal) with
  | none => return false
  | some action => do
    runText run false action
    setStatus w.status
    return true

/-- Runs a shell to its end: what it does, and then what was set for its end. -/
def asShell (run : Run) (body : Act Unit) : Act Unit := do
  let interruption ← tryCatch (do body; return none) fun i => return some i
  let finish (code : Nat) : Act Unit := do
    setStatus code
    let w ← get
    match w.traps.lookup ['0'] with
    | none => quit code
    | some action => do
      set { w with traps := w.traps.filter fun e => e.1 != ['0'] }
      runText run false action
      quit code
  match interruption with
  | some (.quit code) => finish code
  | some (.killed worker signal) => throw (.killed worker signal)
  | some .unfinished => throw .unfinished
  | _ => finish (← get).status

/-- Runs an action in a child shell and waits for it. -/
def inSubshell (run : Run) (body : Act Unit) : Act Status :=
  inChild (asShell run body)

/-- Takes over the status of a child. -/
def takeStatus (s : Status) : Act Unit := do
  setStatus (codeOf s)
  match s with
  | .signalled signal => (signalNotice signal).forM fun t => say 2 (t.toList ++ ['\n'])
  | .exited _ => return ()

/-- What a command prints, without the newlines at its end. -/
def capture (run : Run) : Expansion.Capture := fun c => do
  let k ← newPipe
  let status ← inSubshell run do
    point 1 (← openStream { stream := .pipe k, readable := false })
    run c
  modify fun w => { w with status := codeOf status, captured := some (codeOf status) }
  let t := (← pipeText k).filter (· != '\x00')
  return (t.reverse.dropWhile (· == '\n')).reverse

/-! ## Failures -/

/-- Runs something whose failure is being asked for. -/
def asTest (body : Act Unit) : Act Unit := do
  let before := (← get).tested
  modify fun w => { w with tested := true }
  tryFinally body (modify fun w => { w with tested := before })

/-- Ends a strict shell whose last command failed, unless that is being asked for. -/
def strictly : Act Unit := do
  let w ← get
  if w.flags.strict && !w.tested && w.status != 0 then quit w.status

/-! ## Redirections -/

/-- The text of an error about a file that is opened. -/
def openingError (path : Octets) (creating : Bool) (e : Errno) : Octets :=
  let action := if creating then "cannot create " else "cannot open "
  let reason :=
    match e with
    | .notFound => if creating then "Directory nonexistent" else "No such file"
    | _ => e.text
  action.toList ++ path ++ ": ".toList ++ reason.toList

/-- Points a descriptor at what could be opened. -/
def pointAt (descriptor : Nat) (path : Octets) (creating : Bool) (o : Except Errno Opened) :
    Act Bool := do
  match o with
  | .ok o => do
    point descriptor (← openStream o)
    return true
  | .error e => do
    grumble (openingError path creating e)
    return false

/-- Makes a descriptor a copy of another one. -/
def copyDescriptor (descriptor : Nat) (t : Octets) : Act Bool := do
  if t = ['-'] then
    close descriptor
    return true
  if t.isEmpty || !t.all Char.isDigit then
    grumble "Bad fd number".toList
    return false
  match ← opened? ((String.ofList t).toNat?.getD 0) with
  | some (n, _) => do
    point descriptor n
    return true
  | none => do
    grumble (t ++ ": Bad file descriptor".toList)
    return false

/-- Redirects one descriptor; answers whether it could. -/
def redirect (run : Run) : Redirection → Act Bool
  | .mk descriptor direction word => do
    let t ← Expansion.text (capture run) (direction = .document) word
    match direction with
    | .document => do
      let k ← newPipe
      modify fun w => { w with
        world := { w.world with pipes := w.world.pipes.modify k fun _ => [t] } }
      point descriptor (← openStream { stream := .pipe k, writable := false })
      return true
    | .copy => copyDescriptor descriptor t
    | .input => pointAt descriptor t false (← openInput t)
    | .output => pointAt descriptor t true (← openOutput t false true)
    | .appending => pointAt descriptor t true (← openOutput t true false)
    | .inputOutput => pointAt descriptor t true (← openOutput t false false)

/-- Redirects descriptors until one fails; answers whether none did. -/
def redirectAll (run : Run) : List Redirection → Act Bool
  | [] => return true
  | r :: rs => do
    if ← redirect run r then redirectAll run rs else return false

/-- Runs something with redirected descriptors. -/
def withRedirections (run : Run) (rs : List Redirection) (body : Act Unit) : Act Unit := do
  let before := (← get).descriptors
  let redirected : Act Unit := do
    if ← redirectAll run rs then body else setStatus 2
  tryFinally redirected (modify fun w => { w with descriptors := before })

/-! ## Programs -/

/-- A worker that starts a program: it keeps what is handed to programs. -/
def fresh (w : Worker) (name : Octets) : Worker :=
  { w with
    name
    args := []
    bindings := w.exported
    functions := []
    flags := {}
    status := 0
    jobs := []
    latestJob := none
    traps := []
    line := 1
    tested := false
    final := false
    loops := 0
    lettersRead := 0
    shellNumber := w.number
    locals := [] }

/-- The flags after an option letter. -/
def withFlag (f : Flags) (on : Bool) (letter : Char) : Flags :=
  match letter with
  | 'e' => { f with strict := on }
  | 'u' => { f with known := on }
  | 'f' => { f with literal := on }
  | 'x' => { f with shown := on }
  | _ => f

/-- The letter of an option that has a name. -/
def letterOf (name : Octets) : Char :=
  match String.ofList name with
  | "errexit" => 'e'
  | "nounset" => 'u'
  | "noglob" => 'f'
  | "xtrace" => 'x'
  | _ => ' '

/-- Reads options: the flags, all letters, and the operands, unless there are none. -/
def readFlags : (f : Flags) → List Octets → Flags × Octets × Option (List Octets)
  | f, [] => (f, [], none)
  | f, ['-', '-'] :: rest => (f, [], some rest)
  | f, ['-', 'o'] :: name :: rest => readFlags (withFlag f true (letterOf name)) rest
  | f, ['+', 'o'] :: name :: rest => readFlags (withFlag f false (letterOf name)) rest
  | f, ('-' :: c :: cs) :: rest =>
    let r := readFlags ((c :: cs).foldl (fun f d => withFlag f true d) f) rest
    (r.1, c :: cs ++ r.2.1, r.2.2)
  | f, ('+' :: c :: cs) :: rest =>
    readFlags ((c :: cs).foldl (fun f d => withFlag f false d) f) rest
  | f, operands => (f, [], some operands)

/-- What a shell does that is started with arguments: it runs the text behind `-c`, a file,
or what it reads. -/
def shellProgram (run : Run) (args : List Octets) : Act Unit := do
  let (flags, letters, operands) := readFlags {} args
  let operands := operands.getD []
  modify fun w => { w with flags }
  asShell run do
    if letters.contains 'c' then
      match operands with
      | [] => do
        say 2 ((← get).name ++ ": 0: -c requires an argument\n".toList)
        quit 2
      | text :: names => do
        modify fun w => { w with name := names.headD w.name, args := names.tail }
        runText run true text
    else match operands with
      | [] => runText run false ((← receiveAll 0).getD [])
      | path :: rest => do
        match ← openInput path with
        | .error _ => do
          say 2 ((← get).name ++ ": 0: cannot open ".toList ++ path
            ++ ": No such file\n".toList)
          quit 2
        | .ok o => do
          modify fun w => { w with name := path, args := rest }
          runText run false (pending (← get).world o)

/-- The name of the shell among the programs of the system. -/
def shellName : String := "sh"

/-- Runs an image to its end. -/
def start (run : Run) : Image → Act Unit
  | .script path args => do
    modify fun w => fresh w path
    shellProgram run (['-', '-'] :: path :: args)
  | .system program name args => do
    modify fun w => fresh w name
    if program = shellName then shellProgram run args
    else match Utility.find? program.toList args with
      | some act => do quit (← act)
      | none => quit 127

/-- What runs for a name in the shell. -/
def imageOf (name : Octets) (args : List Octets) : Act (Except Errno Image) := do
  let w ← get
  return Image.find w.world.files w.cwd ((w.value? searchPathName).getD []) name args

/-- The code of a program that could not be started, with a message; `label` stands before
its name. -/
def notStarted (label : String) (name : Octets) (e : Errno) : Act Nat := do
  let missing := e = .notFound || e = .notDirectory
  let reason :=
    if name.isEmpty then Errno.denied.text else if missing then "not found" else e.text
  grumble (label.toList ++ name ++ ": ".toList ++ reason.toList)
  return if missing then 127 else 126

/-- Sets variables for a program. -/
def exportAll (values : List (Octets × Octets)) : Act Unit :=
  modify fun w => values.foldl
    (fun w v => w.putVariable v.1 { value := some v.2, exported := true }) w

/-- Starts a program in this worker. -/
def become (run : Run) (label : String) (name : Octets) (args : List Octets) : Act Unit := do
  match ← imageOf name args with
  | .ok image => start run image
  | .error e => quit (← notStarted label name e)

/-- Runs a program: in a child, or in this worker when it has nothing else to do. -/
def runProgram (run : Run) (final : Bool) (values : List (Octets × Octets))
    (name : Octets) (args : List Octets) (rs : List Redirection) : Act Unit := do
  let program : Act Unit := do
    exportAll values
    withRedirections run rs (become run "" name args)
  if final && (← get).traps.isEmpty then program
  else takeStatus (← inChild program)

/-! ## Builtin commands -/

/-- The number of an argument, or an end with a mistake. -/
def numberArgument (command : String) (t : Octets) : Act Nat := do
  if !t.isEmpty && t.all Char.isDigit then return (String.ofList t).toNat?.getD 0
  grumble (command.toList ++ ": Illegal number: ".toList ++ t)
  quit 2

/-- Ends the shell. -/
def exitWith (args : List Octets) : Act Unit := do
  match args with
  | [] => quit (← get).status
  | t :: _ => quit (← numberArgument "exit" t)

/-- Goes back from a function. -/
def returnWith (args : List Octets) : Act Unit := do
  match args with
  | [] => throw .back
  | t :: _ => do
    setStatus ((← numberArgument "return" t) % 256)
    throw .back

/-- The count of an argument, one when there is none. -/
def countArgument (command : String) (args : List Octets) : Act Nat :=
  match args with
  | [] => return 1
  | t :: _ => numberArgument command t

/-- Changes the directory. -/
def cd (args : List Octets) : Act Unit := do
  let w ← get
  let back := args.head? = some ['-']
  let target :=
    match args with
    | [] => w.value? "HOME".toList
    | ['-'] :: _ => w.value? "OLDPWD".toList
    | t :: _ => some t
  match target with
  | none => do
    grumble "cd: HOME not set".toList
    setStatus 2
  | some t =>
    match w.world.files.walk w.cwd (Text.Octets.toText t) true with
    | .ok (.found place node) =>
      if node.isDirectory then
        let here := Text.Octets.ofText w.cwd.path
        let there := Text.Octets.ofText place.path
        set { (w.assign "OLDPWD".toList here).assign "PWD".toList there with cwd := place }
        if back then say 1 (there ++ ['\n'])
        setStatus 0
      else
        grumble ("cd: can't cd to ".toList ++ t)
        setStatus 2
    | _ => do
      grumble ("cd: can't cd to ".toList ++ t)
      setStatus 2

/-- The name and the value of an argument with an equals sign. -/
def splitAssignment (t : Octets) : Octets × Option Octets :=
  let name := t.takeWhile (· != '=')
  (name, if name.length < t.length then some (t.drop (name.length + 1)) else none)

/-- Sets variables and marks them. -/
def declare (command : String) (mark : Variable → Variable) (args : List Octets) : Act Unit := do
  setStatus 0
  args.forM fun t => do
    let (name, value) := splitAssignment t
    if !isName name then
      grumble (command.toList ++ ": ".toList ++ name ++ ": bad variable name".toList)
      quit 2
    value.forM (Expansion.assign name)
    let w ← get
    set (w.putVariable name (mark ((w.bindings.lookup name).getD { value := none })))

/-- Makes variables that are restored after the function. -/
def declareLocal (args : List Octets) : Act Unit := do
  setStatus 0
  args.forM fun t => do
    let (name, value) := splitAssignment t
    modify fun w => { w with locals := (name, w.bindings.lookup name) :: w.locals }
    value.forM (Expansion.assign name)

/-- Forgets variables or functions. -/
def unset (args : List Octets) : Act Unit := do
  let (letters, names) := Utility.splitOptions args
  setStatus 0
  names.forM fun name => do
    if letters.contains 'f' then
      modify fun w => { w with functions := w.functions.filter (·.1 != name) }
    else if ((← get).bindings.lookup name).any Variable.fixed then
      grumble ("unset: ".toList ++ name ++ ": is read only".toList)
      quit 2
    else modify fun w => w.restoreVariable name none

/-- A text between quotes that a shell reads as the same text. -/
def shellQuoted (t : Octets) : Octets :=
  '\'' :: t.flatMap (fun c => if c == '\'' then "'\\''".toList else [c]) ++ ['\'']

/-- Sets options and arguments, or shows the variables. -/
def setBuiltin (args : List Octets) : Act Unit := do
  setStatus 0
  if args.isEmpty then
    (← get).bindings.forM fun e =>
      e.2.value.forM fun t => say 1 (e.1 ++ '=' :: shellQuoted t ++ ['\n'])
  else
    let (flags, _, operands) := readFlags (← get).flags args
    modify fun w => { w with flags, args := operands.getD w.args }

/-- Drops arguments. -/
def shift (args : List Octets) : Act Unit := do
  let n ← countArgument "shift" args
  let w ← get
  if w.args.length < n then
    grumble "shift: can't shift that many".toList
    quit 2
  set { w with args := w.args.drop n, status := 0 }

/-- Runs the commands of a file. -/
def source (run : Run) (args : List Octets) : Act Unit := do
  match args with
  | [] => setStatus 2
  | path :: _ => do
    let w ← get
    let paths :=
      if path.contains '/' then [path]
      else Image.candidates ((w.value? searchPathName).getD []) path
    let isFile (p : Octets) : Bool := w.world.files.isFile w.cwd (Text.Octets.toText p)
    match paths.find? isFile with
    | none => do
      let message :=
        if path.contains '/' then openingError path false .notFound
        else path ++ ": not found".toList
      grumble (".: ".toList ++ message)
      quit 2
    | some p =>
      match ← openInput p with
      | .error _ => quit 2
      | .ok o => do
        setStatus 0
        tryCatch (runText run false (pending (← get).world o)) fun
          | .back => return ()
          | i => throw i

/-- A line with marks at what backslashes quote, and whether the line goes on. -/
def unescapedLine : Octets → Marked × Bool
  | [] => ([], false)
  | ['\\', '\n'] => ([], true)
  | '\\' :: c :: t => ((c, true) :: (unescapedLine t).1, (unescapedLine t).2)
  | '\n' :: _ => ([], false)
  | c :: t => ((c, false) :: (unescapedLine t).1, (unescapedLine t).2)

/-- Reads a line, and whether it has an end; `steps` bounds the lines it goes on in. -/
def readLine (raw : Bool) : (steps : Nat) → Act (Option (Marked × Bool))
  | 0 => return none
  | steps + 1 => do
    match ← receive 0 lineSize with
    | none => return none
    | some t =>
      let ended := t.getLast? == some '\n'
      if raw then return some (.of false (if ended then t.dropLast else t), ended)
      let (m, more) := unescapedLine t
      if more then
        match ← readLine raw steps with
        | some (rest, ended) => return some (m ++ rest, ended)
        | none => return some (m, false)
      else return some (m, ended)

/-- Sets names to the fields of a line. -/
def assignFields : List Octets → List Octets → Act Unit
  | [], _ => pure ()
  | name :: names, fields => do
    Expansion.assign name (fields.headD [])
    assignFields names fields.tail

/-- Reads a line into variables. -/
def readBuiltin (args : List Octets) : Act Unit := do
  let (letters, names) := Utility.splitOptions args
  if names.isEmpty then
    grumble "read: arg count".toList
    quit 2
  match ← readLine (letters.contains 'r') 1000 with
  | none => setStatus 1
  | some (line, ended) => do
    assignFields names (Fields.lineFields (← get).separators names.length line)
    setStatus (if ended then 0 else 1)

/-- Sets what is run for signals. -/
def trap (args : List Octets) : Act Unit := do
  let args := if args.head? = some ['-', '-'] then args.tail else args
  let put (action : Option Octets) (signals : List Octets) : Act Unit := do
    setStatus 0
    signals.forM fun t => do
      match trapKey? t with
      | none => do
        say 2 ("trap: ".toList ++ t ++ ": bad trap\n".toList)
        setStatus 1
      | some key =>
        modify fun w => { w with
          traps := (action.map fun a => (key, a)).toList ++ w.traps.filter fun e => e.1 != key }
  match args with
  | [] => do
    setStatus 0
    (← get).traps.reverse.forM fun e => do
      let name := if e.1 = ['0'] then "EXIT".toList else
        match Utility.signalNames.find? fun s => Text.Octets.ofNat s.2 == e.1 with
        | some s => s.1.toList
        | none => e.1
      say 1 ("trap -- ".toList ++ shellQuoted e.2 ++ ' ' :: name ++ ['\n'])
  | [t] => put none [t]
  | action :: signals =>
    if action = ['-'] then put none signals
    else if !action.isEmpty && action.all Char.isDigit then put none args
    else put (some action) signals

/-- Waits for one job. -/
def waitForJob (job : Job) : Act Unit := do
  match job.ends with
  | none => throw .unfinished
  | some time => do
    passUntil time
    modify fun w => { w with jobs := w.jobs.filter fun j => j.number != job.number }

/-- Waits for jobs. -/
def wait (args : List Octets) : Act Unit := do
  setStatus 0
  if args.isEmpty then (← get).jobs.forM waitForJob
  else args.forM fun t => do
    let number := (String.ofList t).toNat?.getD 0 - Expansion.processNumber 0
    match (← get).jobs.find? fun j => j.number == number with
    | none => setStatus 127
    | some job => do
      waitForJob job
      takeStatus job.status

/-- The names of the builtin commands whose assignments stay. -/
def specialNames : List String :=
  [":", ".", "break", "continue", "eval", "exec", "exit", "export", "readonly", "return", "set",
   "shift", "times", "trap", "unset"]

/-- The names of the other builtin commands of the shell. -/
def regularNames : List String :=
  ["cd", "command", "getopts", "hash", "local", "read", "type", "umask", "wait", "true", "false",
   "echo", "printf", "test", "[", "pwd", "kill"]

/-- Whether a name is one of a builtin command. -/
def isBuiltin (name : Octets) : Bool :=
  (specialNames ++ regularNames).contains (String.ofList name)

/-- Tells what a name stands for. -/
def describe (brief : Bool) (name : Octets) : Act Bool := do
  let w ← get
  let tell (what : String) (short : Octets) : Act Bool := do
    say 1 ((if brief then short else name ++ what.toList) ++ ['\n'])
    return true
  if (w.functions.lookup name).isSome then tell " is a shell function" name
  else if isBuiltin name then tell " is a shell builtin" name
  else
    let paths :=
      if name.contains '/' then [name]
      else Image.candidates ((w.value? searchPathName).getD []) name
    let runs (p : Octets) : Bool :=
      (w.world.files.nodeAt w.cwd (Text.Octets.toText p)).toOption.any fun n =>
        n.isFile && n.isExecutable
    match paths.find? runs with
    | some p => tell (" is " ++ String.ofList p) p
    | none => do
      unless brief do say 1 (name ++ ": not found\n".toList)
      return false

/-- Tells what names stand for. -/
def describeAll (brief : Bool) (names : List Octets) : Act Unit := do
  let known ← names.mapM (describe brief)
  setStatus (if known.all id then 0 else 127)

/-- Leaves loops or their turns; outside of loops nothing happens. -/
def jump (command : String) (interruption : Nat → Interruption) (args : List Octets) :
    Act Unit := do
  let n ← countArgument command args
  setStatus 0
  if 0 < (← get).loops then throw (interruption n)

/-- Ends the reading of options. -/
def noMoreOptions (name : Octets) (index : Nat) : Act Unit := do
  Expansion.assign name ['?']
  Expansion.assign "OPTIND".toList (Text.Octets.ofNat index)
  modify fun w => { w with lettersRead := 0, status := 1 }

/-- Reads the next option letter of arguments into a variable.  A letter before a colon takes
the rest of its argument, or the next argument. -/
def getopts (args : List Octets) : Act Unit := do
  match args with
  | letters :: name :: operands => do
    let w ← get
    let operands := if operands.isEmpty then w.args else operands
    let index := ((w.value? "OPTIND".toList).bind fun t => (String.ofList t).toNat?).getD 1
    let arg := operands.getD (index - 1) []
    let quiet := letters.head? == some ':'
    match arg.drop (w.lettersRead + 1) with
    | [] => noMoreOptions name index
    | c :: more =>
      if arg.head? ≠ some '-' then noMoreOptions name index
      else if arg = ['-', '-'] then noMoreOptions name (index + 1)
      else
        let settle (found : Octets) (value : Option Octets) (index read : Nat) : Act Unit := do
          Expansion.assign name found
          match value with
          | some t => Expansion.assign "OPTARG".toList t
          | none => modify fun w => w.restoreVariable "OPTARG".toList none
          Expansion.assign "OPTIND".toList (Text.Octets.ofNat index)
          modify fun w => { w with lettersRead := read, status := 0 }
        let (nextIndex, read) :=
          if more.isEmpty then (index + 1, 0) else (index, w.lettersRead + 1)
        match letters.dropWhile (· != c) with
        | _ :: after =>
          if c = ':' then settle ['?'] none nextIndex read
          else if after.head? ≠ some ':' then settle [c] (some []) nextIndex read
          else if !more.isEmpty then settle [c] (some more) (index + 1) 0
          else match operands[index]? with
            | some value => settle [c] (some value) (index + 2) 0
            | none => do
              unless quiet do say 2 ("No arg for -".toList ++ c :: " option\n".toList)
              settle [if quiet then ':' else '?'] (if quiet then some [c] else none) (index + 1) 0
        | [] => do
          unless quiet do say 2 ("Illegal option -".toList ++ [c, '\n'])
          settle ['?'] (if quiet then some [c] else none) nextIndex read
  | _ => do
    grumble "getopts: Usage: getopts optstring var [arg]".toList
    quit 2

/-- Does what a builtin command does. -/
def builtin (run : Run) (name : Octets) (args : List Octets) : Act Unit := do
  match String.ofList name with
  | ":" => setStatus 0
  | "." => source run args
  | "break" => jump "break" .leaveLoops args
  | "continue" => jump "continue" .nextTurn args
  | "eval" => do
    setStatus 0
    runText run false (Format.spaced args)
  | "exit" => exitWith args
  | "export" =>
    declare "export" (fun v => { v with exported := true }) (Utility.splitOptions args).2
  | "readonly" =>
    declare "readonly" (fun v => { v with fixed := true }) (Utility.splitOptions args).2
  | "return" => returnWith args
  | "set" => setBuiltin args
  | "shift" => shift args
  | "trap" => trap args
  | "unset" => unset args
  | "cd" => cd args
  | "getopts" => getopts args
  | "hash" => setStatus 0
  | "local" => declareLocal args
  | "read" => readBuiltin args
  | "type" => describeAll false args
  | "umask" => do
    if args.isEmpty then say 1 "0022\n".toList
    setStatus 0
  | "wait" => wait args
  | "kill" => do setStatus (← Utility.kill (trapped run) args)
  | _ =>
    match Utility.find? name args with
    | some act => do setStatus (← act)
    | none => setStatus 0

/-! ## Simple commands -/

/-- Runs the body of a function with arguments. -/
def call (run : Run) (body : Command) (args : List Octets) : Act Unit := do
  let before ← get
  set { before with args, locals := [], loops := 0 }
  let restore : Act Unit := modify fun w =>
    let w := w.locals.foldl (fun w l => w.restoreVariable l.1 l.2) w
    { w with args := before.args, locals := before.locals, loops := before.loops }
  let body : Act Unit := tryCatch (run body) fun
    | .back => return ()
    | i => throw i
  tryFinally body restore

/-- Sets variables only while something runs. -/
def withValues (values : List (Octets × Octets)) (body : Act Unit) : Act Unit := do
  let before := (← get).bindings
  values.forM fun v => Expansion.assign v.1 v.2
  tryFinally body <| modify fun w =>
    values.foldl (fun w v => w.restoreVariable v.1 (before.lookup v.1)) w

/-- Shows a command before it runs. -/
def trace (values : List (Octets × Octets)) (fields : List Octets) : Act Unit := do
  if (← get).flags.shown then
    let items := values.map (fun v => v.1 ++ '=' :: v.2) ++ fields
    say 2 ("+ ".toList ++ Format.spaced items ++ ['\n'])

/-- Starts a program in place of the shell, or keeps redirections. -/
def exec (run : Run) (args : List Octets) (rs : List Redirection) : Act Unit := do
  if ← redirectAll run rs then
    match args with
    | [] => setStatus 0
    | name :: rest => become run "exec: " name rest
  else quit 2

/-- Runs a command that has a name. -/
def named (run : Run) (final : Bool) (values : List (Octets × Octets)) (name : Octets)
    (args : List Octets) (rs : List Redirection) : Act Unit := do
  let w ← get
  if name = "exec".toList then
    exportAll values
    exec run args rs
  else if specialNames.contains (String.ofList name) then
    values.forM fun v => Expansion.assign v.1 v.2
    withRedirections run rs (builtin run name args)
  else
    match w.functions.lookup name with
    | some body => withValues values (withRedirections run rs (call run body args))
    | none =>
      if isBuiltin name then withValues values (withRedirections run rs (builtin run name args))
      else runProgram run final values name args rs

/-- Runs a command that has a name, or one whose name is behind `command`. -/
def simple (run : Run) (final : Bool) (line : Nat) (assignments : List (Octets × List Part))
    (words : List (List Part)) (rs : List Redirection) : Act Unit := do
  modify fun w => { w with line, captured := none }
  let fields := (← words.mapM (Expansion.fields (capture run))).flatten
  match fields with
  | [] => do
    assignments.forM fun a => do
      let t ← Expansion.text (capture run) false a.2
      Expansion.assign a.1 t
      trace [(a.1, t)] []
    modify fun w => { w with status := w.captured.getD 0 }
    withRedirections run rs (pure ())
  | name :: args => do
    let values ← assignments.mapM fun a => do
      return (a.1, ← Expansion.text (capture run) false a.2)
    trace values fields
    match name == "command".toList, args with
    | true, [] => setStatus 0
    | true, option :: rest =>
      if option = ['-', 'v'] then withRedirections run rs (describeAll true rest)
      else if option = ['-', 'V'] then withRedirections run rs (describeAll false rest)
      else
        let functions := (← get).functions
        modify fun w => { w with functions := [] }
        tryFinally (named run final values option rest rs) (modify fun w => { w with functions })
    | false, _ => named run final values name args rs
  strictly

/-! ## Compound commands -/

/-- One turn of a loop; answers whether the loop goes on. -/
def turn (body : Act Bool) : Act Bool := do
  let loops := (← get).loops
  modify fun w => { w with loops := loops + 1 }
  let counted := tryFinally body (modify fun w => { w with loops })
  tryCatch counted fun
    | .leaveLoops n => if n ≤ 1 then return false else throw (.leaveLoops (n - 1))
    | .nextTurn n => if n ≤ 1 then return true else throw (.nextTurn (n - 1))
    | i => throw i

/-- Runs a body while its condition succeeds, or while it fails; `turns` bounds how often,
`status` is the one of the last turn. -/
def loop (fails : Bool) (condition body : Act Unit) : (turns status : Nat) → Act Unit
  | 0, _ => throw .unfinished
  | turns + 1, status => do
    let goesOn ← turn do
      asTest condition
      let failed := (← get).status != 0
      if failed == fails then
        body
        return true
      else
        setStatus status
        return false
    if goesOn then loop fails condition body turns (← get).status

/-- Runs a body once for each word. -/
def each (name : Octets) (body : Act Unit) : List Octets → Act Unit
  | [] => pure ()
  | t :: ts => do
    Expansion.assign name t
    let goesOn ← turn do
      body
      return true
    if goesOn then each name body ts

/-- Whether a text fits one of several patterns. -/
def fitsAny (run : Run) (t : Octets) : List (List Part) → Act Bool
  | [] => return false
  | p :: ps => do
    let m ← Expansion.markedText (capture run) false p
    if Pattern.fits (Pattern.ofMarked m) t then return true else fitsAny run t ps

/-- Runs the first arm with a pattern that a text fits. -/
def choose (run last : Run) (t : Octets) : List (List (List Part) × Command) → Act Unit
  | [] => setStatus 0
  | (patterns, body) :: arms => do
    if ← fitsAny run t patterns then
      if body.isNothing then setStatus 0 else last body
    else choose run last t arms

/-- Starts the commands of a pipeline, each reading what the one before prints, and tells
how and when they end. -/
def startAll (run : Run) : (input : Option Nat) → List Command →
    Act (List (Option (Status × Nat)))
  | _, [] => return []
  | input, c :: cs => do
    let output ← if cs.isEmpty then pure none else some <$> newPipe
    let ending ← spawn <| asShell run do
      input.forM fun k => do
        point 0 (← openStream { stream := .pipe k, writable := false })
      output.forM fun k => do
        point 1 (← openStream { stream := .pipe k, readable := false })
      run c
    return ending :: (← startAll run output cs)

/-- Runs a pipeline and waits for all its commands. -/
def pipeline (run : Run) (cs : List Command) : Act Unit := do
  let endings ← startAll run none cs
  endings.forM fun e => do
    match e with
    | none => throw .unfinished
    | some (_, time) => passUntil time
  (endings.getLast?.join).forM fun e => takeStatus e.1

/-- Starts a command in the background. -/
def inBackground (run : Run) (c : Command) : Act Unit := do
  let number := (← get).world.workers + 1
  let ending ← spawn <| asShell run do
    point 0 (← openStream { stream := .device })
    run c
  modify fun w =>
    let job : Job :=
      { number
        lastNumber := w.world.workers
        ends := ending.map Prod.snd
        status := (ending.map Prod.fst).getD (.exited 0) }
    { w with jobs := w.jobs ++ [job], latestJob := some number, status := 0 }

/-- The status turned round. -/
def negate : Act Unit :=
  modify fun w => { w with status := if w.status = 0 then 1 else 0 }

/-- Runs commands one after another; `last` runs the last one. -/
def sequence (run last : Run) : List Command → Act Unit
  | [] => pure ()
  | [c] => last c
  | c :: cs => do
    run c
    sequence run last cs

/-- Runs a command, given a way to run the commands inside it. -/
def evaluate (run : Run) (c : Command) : Act Unit := do
  let final := (← get).final
  modify fun w => { w with final := false }
  let last : Run := fun c => do
    modify fun w => { w with final }
    run c
  match c with
  | .simple line assignments words rs => simple run final line assignments words rs
  | .pipeline negated cs => do
    let all : Act Unit :=
      match cs with
      | [c] => run c
      | _ => pipeline run cs
    if negated then
      asTest all
      negate
    else
      all
      strictly
  | .both a b => do
    asTest (run a)
    if (← get).status = 0 then last b
  | .either a b => do
    asTest (run a)
    if (← get).status ≠ 0 then last b
  | .sequence cs => sequence run last cs
  | .background c => inBackground run c
  | .subshell body => do
    takeStatus (← inSubshell run (run body))
    strictly
  | .group body => last body
  | .redirected body rs => withRedirections run rs (run body)
  | .conditional condition body otherwise => do
    asTest (run condition)
    if (← get).status = 0 then last body
    else
      setStatus 0
      last otherwise
  | .loop fails condition body => loop fails (run condition) (run body) maxTurns 0
  | .each name words body => do
    let values ← match words with
      | some ws => do pure (← ws.mapM (Expansion.fields (capture run))).flatten
      | none => do pure (← get).args
    if values.isEmpty then setStatus 0
    each name (run body) values
  | .choice word arms => do
    let t ← Expansion.text (capture run) false word
    choose run last t arms
  | .function name body =>
    modify fun w => { w with
      functions := (name, body) :: w.functions.filter (·.1 != name)
      status := 0 }

/-- Runs a command; `depth` bounds how deep the commands inside it are nested. -/
def run : (depth : Nat) → Command → Act Unit
  | 0, _ => throw .unfinished
  | depth + 1, c => evaluate (run depth) c

/-- How deep commands may be nested. -/
def maxDepth : Nat := 1200

/-- Runs a command. -/
def runCommand : Command → Act Unit :=
  run maxDepth

end Evaluation
end Shell
end Walkthrough
