/-
# File systems

A file system is a finite map from places to nodes.  A place is the list of names that
leads to it from the root; the root itself is always a directory.  A node is a file with
its bytes and permission bits, a directory, a symbolic link with the path it holds, a
device that swallows what is written to it, or a program of the system.

`walk` follows a path: empty names and single dots stay, two dots go up, a link is
replaced by the path it holds.  It ends at a node, or at a place that is free in an
existing directory.  At most forty links are followed.

The files are seen as a privileged process sees them.  No operation here looks at an owner, a
permission bit or a sticky bit: a directory is searched whoever may search it, and a file is
made, moved or removed in it whoever may write to it.  The bits of a node are kept and shown,
and only `Node.isExecutable` reads them.
-/

import Walkthrough.Machine.Errno
import Walkthrough.Path
import Walkthrough.Text.Utf8

namespace Walkthrough

/-- The names that lead to a place from the root. -/
abbrev Place := List String

/-- What a place holds. -/
inductive Node where
  | file (bytes : List UInt8) (mode : Nat)
  | directory (mode : Nat)
  /-- A directory of the system in which nothing can be created. -/
  | fixedDirectory
  | link (path : String)
  | device
  | program (name : String)
deriving DecidableEq, Repr

/-- Whether a node is a directory. -/
def Node.isDirectory : Node → Bool
  | .directory _ => true
  | .fixedDirectory => true
  | _ => false

/-- Whether a tree can be removed at a node: a directory with what is in it, or a link. -/
def Node.isTree : Node → Bool
  | .directory _ => true
  | .fixedDirectory => true
  | .link _ => true
  | _ => false

/-- Whether a node is a regular file. -/
def Node.isFile : Node → Bool
  | .file .. => true
  | .program _ => true
  | _ => false

/-- The permission bits of a node. -/
def Node.mode : Node → Nat
  | .file _ mode => mode
  | .directory mode => mode
  | .fixedDirectory => 0o555
  | .link _ => 0o777
  | .device => 0o666
  | .program _ => 0o755

/-- Whether a node may be executed by somebody. -/
def Node.isExecutable (n : Node) : Bool :=
  (n.mode / 64) % 2 == 1 || (n.mode / 8) % 2 == 1 || n.mode % 2 == 1

/-- A finite map from places to nodes. -/
structure FileSystem where
  nodes : List (Place × Node)
deriving Repr

/-- Where a path leads: to a node, or to a free place in a directory.  `slash` tells
whether a slash follows the free name. -/
inductive Spot where
  | found (place : Place) (node : Node)
  | free (directory : Place) (name : String) (slash : Bool)
deriving Repr

namespace FileSystem

/-- A file system with nothing but the root. -/
def empty : FileSystem := ⟨[]⟩

/-- The node of the root. -/
def root : Node := .directory 0o755

/-- The node at a place. -/
def node? (fs : FileSystem) (p : Place) : Option Node :=
  if p.isEmpty then some root else fs.nodes.lookup p

/-- The node at a place replaced, or a new one. -/
def put (fs : FileSystem) (p : Place) (n : Node) : FileSystem :=
  if (fs.nodes.lookup p).isSome then
    ⟨fs.nodes.map fun e => if e.1 = p then (p, n) else e⟩
  else ⟨fs.nodes ++ [(p, n)]⟩

/-- Nothing at a place. -/
def erase (fs : FileSystem) (p : Place) : FileSystem :=
  ⟨fs.nodes.filter fun e => !decide (e.1 = p)⟩

/-- Nothing at a place or below it. -/
def eraseTree (fs : FileSystem) (p : Place) : FileSystem :=
  ⟨fs.nodes.filter fun e => !p.isPrefixOf e.1⟩

/-- Nothing below a place but what is marked and what leads there; the place itself stays. -/
def pruneTree (fs : FileSystem) (p : Place) (marked : Place → Bool) : FileSystem :=
  let stays (q : Place) : Bool := fs.nodes.any fun e => q.isPrefixOf e.1 && marked e.1
  ⟨fs.nodes.filter fun e => !p.isPrefixOf e.1 || e.1 == p || stays e.1⟩

/-- The permission bits of a file replaced. -/
def setMode (fs : FileSystem) (p : Place) (mode : Nat) : FileSystem :=
  match fs.node? p with
  | some (.file bytes _) => fs.put p (.file bytes mode)
  | _ => fs

/-- Everything at a place and below it, moved to another place. -/
def moveTree (fs : FileSystem) (source target : Place) : FileSystem :=
  ⟨fs.nodes.map fun e =>
    if source.isPrefixOf e.1 then (target ++ e.1.drop source.length, e.2) else e⟩

/-- The order of names by their bytes. -/
def nameLE (a b : String) : Bool :=
  !List.lex (Text.Utf8.encode b.toList) (Text.Utf8.encode a.toList) (fun x y => x < y)

/-- The names in a directory, sorted. -/
def names (fs : FileSystem) (p : Place) : List String :=
  (fs.nodes.filterMap fun e =>
    match e.1.getLast? with
    | some name => if e.1.dropLast = p then some name else none
    | none => none).mergeSort nameLE

/-! ## Following paths -/

/-- The longest name in bytes. -/
def maxNameBytes : Nat := 255

/-- The longest path in bytes. -/
def maxPathBytes : Nat := 4095

/-- How many links are followed in one path. -/
def maxLinks : Nat := 40

/-- The names between the slashes of a path. -/
def splitPath (path : String) : List String :=
  (Path.splitSlash path.toList).map String.ofList

/-- Follows names from a directory; `steps` bounds their number, links included. -/
def walkFrom (fs : FileSystem) (follow : Bool) :
    (steps links : Nat) → Place → List String → Except Errno Spot
  | 0, _, _, _ => .error .tooManyLinks
  | steps + 1, links, dir, names =>
    match names with
    | [] => .ok (.found dir ((fs.node? dir).getD root))
    | w :: rest =>
      if w = "" ∨ w = "." then walkFrom fs follow steps links dir rest
      else if w = ".." then walkFrom fs follow steps links dir.dropLast rest
      else if maxNameBytes < w.utf8ByteSize then .error .nameTooLong
      else
        let place := dir ++ [w]
        match fs.node? place with
        | none =>
          if rest.all (· = "") then .ok (.free dir w (!rest.isEmpty)) else .error .notFound
        | some (.link path) =>
          if rest.isEmpty && !follow then .ok (.found place (.link path))
          else match links with
            | 0 => .error .tooManyLinks
            | links + 1 =>
              if path.isEmpty then .error .notFound
              else walkFrom fs follow steps links
                (if Path.isAbsolute path.toList then [] else dir) (splitPath path ++ rest)
        | some n =>
          if n.isDirectory then walkFrom fs follow steps links place rest
          else if rest.isEmpty then .ok (.found place n)
          else .error .notDirectory

/-- Where a path leads from a directory; a link at its end is followed or not. -/
def walk (fs : FileSystem) (cwd : Place) (path : String) (follow : Bool) : Except Errno Spot :=
  if path.toList.contains '\x00' then .error .invalid
  else if path.isEmpty then .error .notFound
  else if maxPathBytes < path.utf8ByteSize then .error .nameTooLong
  else
    let names := splitPath path
    walkFrom fs follow (names.length + maxLinks * (maxPathBytes + 2) + 1) maxLinks
      (if Path.isAbsolute path.toList then [] else cwd) names

/-- The node that a path leads to, links followed. -/
def nodeAt (fs : FileSystem) (cwd : Place) (path : String) : Except Errno Node :=
  match fs.walk cwd path true with
  | .ok (.found _ n) => .ok n
  | .ok (.free ..) => .error .notFound
  | .error e => .error e

/-- Whether a path leads to something. -/
def isThere (fs : FileSystem) (cwd : Place) (path : String) : Bool :=
  (fs.nodeAt cwd path).toOption.isSome

/-- Whether a path leads to a directory. -/
def isDirectory (fs : FileSystem) (cwd : Place) (path : String) : Bool :=
  (fs.nodeAt cwd path).toOption.any Node.isDirectory

/-- Whether a path leads to a regular file. -/
def isFile (fs : FileSystem) (cwd : Place) (path : String) : Bool :=
  (fs.nodeAt cwd path).toOption.any Node.isFile

/-- The last name between the slashes of a path that is not empty. -/
def lastName? (path : String) : Option String :=
  ((splitPath path).filter fun w => !w.isEmpty).getLast?

/-- Whether a path ends in a name of its own, and not in dots or at the root. -/
def endsInName (path : String) : Bool :=
  match lastName? path with
  | none => false
  | some w => w != "." && w != ".."

/-! ## Operations -/

/-- The bytes of the file that a path leads to. -/
def read (fs : FileSystem) (cwd : Place) (path : String) : Except Errno (List UInt8) :=
  match fs.nodeAt cwd path with
  | .error e => .error e
  | .ok (.file bytes _) => .ok bytes
  | .ok (.directory _) => .error .isDirectory
  | .ok .fixedDirectory => .error .isDirectory
  | .ok _ => .ok []

/-- A new node at a path that is free. -/
def create (fs : FileSystem) (cwd : Place) (path : String) (n : Node) :
    Except Errno (Place × FileSystem) :=
  match fs.walk cwd path false with
  | .error e => .error e
  | .ok (.found ..) => .error .alreadyThere
  | .ok (.free dir name slash) =>
    if slash && !n.isDirectory then .error .isDirectory
    else if fs.node? dir = some .fixedDirectory then .error .notFound
    else .ok (dir ++ [name], fs.put (dir ++ [name]) n)

/-- Whether a path names a link if the slashes at its end are left out. -/
def namesLink (fs : FileSystem) (cwd : Place) (path : String) : Bool :=
  let name := String.ofList (path.toList.reverse.dropWhile (· == '/')).reverse
  match fs.walk cwd name false with
  | .ok (.found _ (.link _)) => true
  | _ => false

/-- Removes the file or link that a path names.  A slash behind a link leads to its directory,
but the link is what is refused. -/
def remove (fs : FileSystem) (cwd : Place) (path : String) : Except Errno FileSystem :=
  match fs.walk cwd path false with
  | .error e => .error e
  | .ok (.free ..) => .error .notFound
  | .ok (.found place n) =>
    if n.isDirectory then
      .error (if fs.namesLink cwd path then .notDirectory else .isDirectory)
    else .ok (fs.erase place)

/-- Removes the tree that a path names: a directory with everything in it, or a link.  What is
neither is left alone.  If the removal breaks off, what it has not reached is still there, and
so are the directories that lead to it. -/
def removeTree (fs : FileSystem) (cwd : Place) (path : String)
    (unreached : Option (Place → Bool)) : FileSystem :=
  match fs.walk cwd path false with
  | .ok (.found place _) =>
    if !(fs.node? place).any Node.isTree then fs
    else match unreached with
      | none => fs.eraseTree place
      | some unreached => fs.pruneTree place unreached
  | _ => fs

/-- Moves the file at a place to a path, in place of a file or link that is there. -/
def moveFile (fs : FileSystem) (source cwd : Place) (path : String) : Except Errno FileSystem :=
  match fs.node? source with
  | none => .error .notFound
  | some n =>
    match fs.walk cwd path false with
    | .error e => .error e
    | .ok spot =>
      if !endsInName path then .error .busy
      else match spot with
        | .free dir name slash =>
          if slash then .error .notDirectory
          else .ok ((fs.erase source).put (dir ++ [name]) n)
        | .found place old =>
          if old.isDirectory then
            .error (if path.toList.getLast? = some '/' then .notDirectory else .isDirectory)
          else .ok ((fs.erase source).put place n)

end FileSystem

/-- The path of a place. -/
def Place.path (p : Place) : String :=
  "/" ++ Text.joinWith "/" p

end Walkthrough
