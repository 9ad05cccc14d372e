/-
# Where paths lead

`Leads` says by rules where names lead from a directory, `walkFrom` finds it
(`walkFrom_eq_ok_iff`).  What holds of walks is shown by induction on the rules: a walk ends
at what its place holds (`Leads.getD_found`) or at a free place (`Leads.node?_free`), which in
a tree lies in a directory (`Leads.holdsDirectory_free`); a walk that does not end at a link
ends there too if links at its end are followed (`Leads.followed`); and a new file does not
change the place that a walk ends at (`Leads.place_of_new_file`).  Removing a tree by its path
takes away what lies there and nothing else (`removal_removeTree`).
-/

import Walkthrough.Proofs.Machine.FileSystem

namespace Walkthrough

deriving instance DecidableEq for Spot

/-- The place of a spot. -/
def Spot.place : Spot → Place
  | .found place _ => place
  | .free directory name _ => directory ++ [name]

namespace FileSystem

/-- A text between slashes that names an entry of a directory. -/
structure IsName (w : String) : Prop where
  noDot : ¬ (w = "" ∨ w = ".")
  noDots : w ≠ ".."
  short : w.utf8ByteSize ≤ maxNameBytes

/-- Names lead from a directory to a spot, in so many steps and with so many links. -/
inductive Leads (fs : FileSystem) (follow : Bool) :
    (steps links : Nat) → Place → List String → Spot → Prop where
  | here {steps links : Nat} (dir : Place) :
      Leads fs follow (steps + 1) links dir [] (.found dir ((fs.node? dir).getD root))
  | stay {steps links : Nat} {dir : Place} {w : String} {rest : List String} {spot : Spot} :
      w = "" ∨ w = "." → Leads fs follow steps links dir rest spot →
      Leads fs follow (steps + 1) links dir (w :: rest) spot
  | up {steps links : Nat} {dir : Place} {rest : List String} {spot : Spot} :
      Leads fs follow steps links dir.dropLast rest spot →
      Leads fs follow (steps + 1) links dir (".." :: rest) spot
  | free {steps links : Nat} {dir : Place} {w : String} {rest : List String} :
      IsName w → fs.node? (dir ++ [w]) = none → rest.all (· = "") = true →
      Leads fs follow (steps + 1) links dir (w :: rest) (.free dir w (!rest.isEmpty))
  | enter {steps links : Nat} {dir : Place} {w : String} {rest : List String} {spot : Spot}
      {n : Node} :
      IsName w → fs.node? (dir ++ [w]) = some n → n.isDirectory = true →
      Leads fs follow steps links (dir ++ [w]) rest spot →
      Leads fs follow (steps + 1) links dir (w :: rest) spot
  | link {steps links : Nat} {dir : Place} {w path : String} {rest : List String} {spot : Spot} :
      IsName w → fs.node? (dir ++ [w]) = some (.link path) → (rest.isEmpty && !follow) = false →
      path.isEmpty = false →
      Leads fs follow steps links (if Path.isAbsolute path.toList then [] else dir)
        (splitPath path ++ rest) spot →
      Leads fs follow (steps + 1) (links + 1) dir (w :: rest) spot
  | ends {steps links : Nat} {dir : Place} {w : String} {n : Node} :
      IsName w → fs.node? (dir ++ [w]) = some n → n.isDirectory = false →
      (∀ path, n = .link path → follow = false) →
      Leads fs follow (steps + 1) links dir [w] (.found (dir ++ [w]) n)

variable {fs : FileSystem} {follow : Bool} {steps links : Nat} {dir : Place}
  {names : List String} {spot : Spot}

theorem walkFrom_of_leads (h : Leads fs follow steps links dir names spot) :
    fs.walkFrom follow steps links dir names = .ok spot := by
  induction h with
  | here dir => rfl
  | stay hw _ ih => rw [walkFrom, if_pos hw, ih]
  | up _ ih => simpa [walkFrom] using ih
  | free hw hnode hrest =>
    simp [walkFrom, hw.noDot, hw.noDots, Nat.not_lt.2 hw.short, hnode, hrest]
  | @enter _ _ _ _ _ _ n hw hnode hn _ ih =>
    cases n <;>
      simp_all [walkFrom, hw.noDot, hw.noDots, Nat.not_lt.2 hw.short, Node.isDirectory]
  | link hw hnode hmore hpath _ ih =>
    simp [walkFrom, hw.noDot, hw.noDots, Nat.not_lt.2 hw.short, hnode, hmore, hpath, ih]
  | @ends _ _ _ _ n hw hnode hn hlink =>
    cases n <;>
      simp_all [walkFrom, hw.noDot, hw.noDots, Nat.not_lt.2 hw.short, Node.isDirectory]

theorem leads_of_walkFrom (h : fs.walkFrom follow steps links dir names = .ok spot) :
    Leads fs follow steps links dir names spot := by
  fun_induction walkFrom fs follow steps links dir names
  case case2 dir =>
    obtain rfl := Except.ok.inj h
    exact .here dir
  case case3 hw ih => exact .stay hw (ih h)
  case case4 ih => exact .up (ih h)
  case case6 hdot hdots hlong place hnode hrest =>
    obtain rfl := Except.ok.inj h
    exact .free ⟨hdot, hdots, Nat.not_lt.1 hlong⟩ hnode hrest
  case case8 rest hdot hdots hlong place path hnode hend =>
    obtain rfl := Except.ok.inj h
    obtain ⟨hrest, hfollow⟩ : rest = [] ∧ follow = false := by simpa using hend
    rw [hrest]
    exact .ends ⟨hdot, hdots, Nat.not_lt.1 hlong⟩ hnode rfl fun _ _ => hfollow
  case case11 hdot hdots hlong place path hnode hmore links hpath ih =>
    exact .link ⟨hdot, hdots, Nat.not_lt.1 hlong⟩ hnode (by simpa using hmore)
      (by simpa using hpath) (ih h)
  case case12 hdot hdots hlong place n hlink hnode hn ih =>
    exact .enter ⟨hdot, hdots, Nat.not_lt.1 hlong⟩ hnode hn (ih h)
  case case13 hdot hdots hlong place n hlink hnode hn hrest =>
    obtain rfl := Except.ok.inj h
    rw [List.isEmpty_iff.1 hrest]
    exact .ends ⟨hdot, hdots, Nat.not_lt.1 hlong⟩ hnode (by simpa using hn)
      fun path hpath => (hlink path hpath).elim
  all_goals cases h

/-- **The walk finds where names lead.** -/
theorem walkFrom_eq_ok_iff :
    fs.walkFrom follow steps links dir names = .ok spot ↔
      Leads fs follow steps links dir names spot :=
  ⟨leads_of_walkFrom, walkFrom_of_leads⟩

/-- What is not a new file was there before. -/
theorem node?_without_file {fs' : FileSystem} {x q : Place} {o : Option Node}
    {bytes : List UInt8} {mode : Nat}
    (hfs' : ∀ q, fs'.node? q = if q = x then some (.file bytes mode) else fs.node? q)
    (hq : fs'.node? q = o) (ho : o ≠ some (.file bytes mode)) : fs.node? q = o := by
  rw [hfs'] at hq
  split at hq
  · exact absurd hq.symm ho
  · exact hq

namespace Leads

/-- A walk that ends at a node ends at what the place holds; a lost directory is taken for
the root. -/
theorem getD_found (h : Leads fs follow steps links dir names spot) {p : Place} {n : Node}
    (hspot : spot = .found p n) : (fs.node? p).getD root = n := by
  induction h with
  | here dir =>
    obtain ⟨rfl, rfl⟩ := Spot.found.inj hspot
    rfl
  | stay _ _ ih => exact ih hspot
  | up _ ih => exact ih hspot
  | free _ _ _ => cases hspot
  | enter _ _ _ _ ih => exact ih hspot
  | link _ _ _ _ _ ih => exact ih hspot
  | ends _ hnode _ _ =>
    obtain ⟨rfl, rfl⟩ := Spot.found.inj hspot
    rw [hnode]
    rfl

/-- A free place holds nothing. -/
theorem node?_free (h : Leads fs follow steps links dir names spot) {d : Place} {w : String}
    {slash : Bool} (hspot : spot = .free d w slash) : fs.node? (d ++ [w]) = none := by
  induction h with
  | here dir => cases hspot
  | stay _ _ ih => exact ih hspot
  | up _ ih => exact ih hspot
  | free _ hnode _ =>
    obtain ⟨rfl, rfl, -⟩ := Spot.free.inj hspot
    exact hnode
  | enter _ _ _ _ ih => exact ih hspot
  | link _ _ _ _ _ ih => exact ih hspot
  | ends _ _ _ _ => cases hspot

/-- In a tree a free place lies in a directory. -/
theorem holdsDirectory_free (h : Leads fs follow steps links dir names spot) (hfs : fs.Rooted)
    (hdir : fs.HoldsDirectory dir) {d : Place} {w : String} {slash : Bool}
    (hspot : spot = .free d w slash) : fs.HoldsDirectory d := by
  induction h with
  | here dir => cases hspot
  | stay _ _ ih => exact ih hdir hspot
  | up _ ih => exact ih (hfs.dropLast hdir) hspot
  | free _ _ _ =>
    obtain ⟨rfl, -, -⟩ := Spot.free.inj hspot
    exact hdir
  | enter _ hnode hn _ ih => exact ih ⟨_, hnode, hn⟩ hspot
  | link _ _ _ _ _ ih =>
    refine ih ?_ hspot
    split
    · exact holdsDirectory_nil fs
    · exact hdir
  | ends _ _ _ _ => cases hspot

/-- A walk that does not end at a link ends there too if a link at its end is followed. -/
theorem followed (h : Leads fs false steps links dir names spot)
    (hspot : ∀ p path, spot ≠ .found p (.link path)) :
    Leads fs true steps links dir names spot := by
  induction h with
  | here dir => exact .here dir
  | stay hw _ ih => exact .stay hw (ih hspot)
  | up _ ih => exact .up (ih hspot)
  | free hw hnode hrest => exact .free hw hnode hrest
  | enter hw hnode hn _ ih => exact .enter hw hnode hn (ih hspot)
  | link hw hnode _ hpath _ ih => exact .link hw hnode (by simp) hpath (ih hspot)
  | @ends _ _ dir w n hw hnode hn _ =>
    exact .ends hw hnode hn fun path hlink => absurd (hlink ▸ rfl) (hspot (dir ++ [w]) path)

/-- **A new file does not change the place that a walk ends at.**  The file systems differ at
one place, which was free and holds a file. -/
theorem place_of_new_file {fs' : FileSystem} (h : Leads fs' follow steps links dir names spot)
    {x : Place} {bytes : List UInt8} {mode : Nat} (hx : fs.node? x = none)
    (hfs' : ∀ q, fs'.node? q = if q = x then some (.file bytes mode) else fs.node? q) :
    ∃ spot', Leads fs follow steps links dir names spot' ∧ spot'.place = spot.place := by
  induction h with
  | here dir => exact ⟨_, .here dir, rfl⟩
  | stay hw _ ih =>
    obtain ⟨spot', hspot', hplace⟩ := ih
    exact ⟨spot', .stay hw hspot', hplace⟩
  | up _ ih =>
    obtain ⟨spot', hspot', hplace⟩ := ih
    exact ⟨spot', .up hspot', hplace⟩
  | free hw hnode hrest => exact ⟨_, .free hw (node?_without_file hfs' hnode nofun) hrest, rfl⟩
  | enter hw hnode hn _ ih =>
    obtain ⟨spot', hspot', hplace⟩ := ih
    refine ⟨spot', .enter hw (node?_without_file hfs' hnode ?_) hn hspot', hplace⟩
    rintro ⟨⟩
    cases hn
  | link hw hnode hmore hpath _ ih =>
    obtain ⟨spot', hspot', hplace⟩ := ih
    exact ⟨spot', .link hw (node?_without_file hfs' hnode nofun) hmore hpath hspot', hplace⟩
  | @ends _ _ dir w n hw hnode hn hlink =>
    by_cases hqx : dir ++ [w] = x
    · exact ⟨_, .free hw (hqx ▸ hx) rfl, rfl⟩
    · rw [hfs', if_neg hqx] at hnode
      exact ⟨_, .ends hw hnode hn hlink, rfl⟩

/-- A walk that ends elsewhere than at a file does not need the file. -/
theorem found_without_file {fs' : FileSystem} (h : Leads fs' follow steps links dir names spot)
    {x p : Place} {n : Node} {bytes : List UInt8} {mode : Nat}
    (hfs' : ∀ q, fs'.node? q = if q = x then some (.file bytes mode) else fs.node? q)
    (hspot : spot = .found p n) (hp : p ≠ x) : Leads fs follow steps links dir names spot := by
  induction h with
  | here dir =>
    obtain ⟨rfl, -⟩ := Spot.found.inj hspot
    rw [hfs', if_neg hp]
    exact .here dir
  | stay hw _ ih => exact .stay hw (ih hspot)
  | up _ ih => exact .up (ih hspot)
  | free _ _ _ => cases hspot
  | enter hw hnode hn _ ih =>
    refine .enter hw (node?_without_file hfs' hnode ?_) hn (ih hspot)
    rintro ⟨⟩
    cases hn
  | link hw hnode hmore hpath _ ih =>
    exact .link hw (node?_without_file hfs' hnode nofun) hmore hpath (ih hspot)
  | ends hw hnode hn hlink =>
    obtain ⟨rfl, -⟩ := Spot.found.inj hspot
    rw [hfs', if_neg hp] at hnode
    exact .ends hw hnode hn hlink

end Leads

/-! ## Paths -/

/-- A path that can be followed at all. -/
structure IsPath (path : String) : Prop where
  noNul : path.toList.contains '\x00' = false
  nonempty : path.isEmpty = false
  short : path.utf8ByteSize ≤ maxPathBytes

/-- The directory that a path starts in. -/
def startOf (cwd : Place) (path : String) : Place :=
  if Path.isAbsolute path.toList then [] else cwd

/-- How many steps a path takes at most. -/
def stepsOf (path : String) : Nat :=
  (splitPath path).length + maxLinks * (maxPathBytes + 2) + 1

variable {cwd : Place} {path : String}

theorem walk_eq_ok_iff : fs.walk cwd path follow = .ok spot ↔
    IsPath path ∧
      Leads fs follow (stepsOf path) maxLinks (startOf cwd path) (splitPath path) spot := by
  unfold walk
  constructor
  · intro h
    split at h
    · cases h
    split at h
    · cases h
    split at h
    · cases h
    rename_i hnul hempty hlong
    exact ⟨⟨by simpa using hnul, by simpa using hempty, Nat.not_lt.1 hlong⟩, leads_of_walkFrom h⟩
  · rintro ⟨hpath, hleads⟩
    rw [if_neg (Bool.eq_false_iff.1 hpath.noNul), if_neg (Bool.eq_false_iff.1 hpath.nonempty),
      if_neg (Nat.not_lt.2 hpath.short)]
    exact walkFrom_of_leads hleads

theorem holdsDirectory_startOf (hcwd : fs.HoldsDirectory cwd) (path : String) :
    fs.HoldsDirectory (startOf cwd path) := by
  unfold startOf
  split
  · exact holdsDirectory_nil fs
  · exact hcwd

/-- A place where no directory is found holds what is found there, and is not the root. -/
theorem walk_found {p : Place} {n : Node} (hn : n.isDirectory = false)
    (h : fs.walk cwd path follow = .ok (.found p n)) : p ≠ [] ∧ fs.node? p = some n := by
  have hheld := (walk_eq_ok_iff.1 h).2.getD_found rfl
  constructor
  · rintro rfl
    rw [← hheld] at hn
    cases hn
  · cases hp : fs.node? p with
    | none =>
      rw [hp] at hheld
      rw [← hheld] at hn
      cases hn
    | some n' =>
      rw [hp] at hheld
      exact congrArg some hheld

theorem walk_free {d : Place} {w : String} {slash : Bool}
    (h : fs.walk cwd path follow = .ok (.free d w slash)) : fs.node? (d ++ [w]) = none :=
  (walk_eq_ok_iff.1 h).2.node?_free rfl

theorem walk_free_holdsDirectory {d : Place} {w : String} {slash : Bool} (hfs : fs.Rooted)
    (hcwd : fs.HoldsDirectory cwd) (h : fs.walk cwd path follow = .ok (.free d w slash)) :
    fs.HoldsDirectory d :=
  (walk_eq_ok_iff.1 h).2.holdsDirectory_free hfs (holdsDirectory_startOf hcwd path) rfl

/-- A path that names a directory, and no link, leads to one. -/
theorem isDirectory_of_walk {p : Place} {n : Node} (hn : n.isDirectory = true)
    (h : fs.walk cwd path false = .ok (.found p n)) : fs.isDirectory cwd path = true := by
  obtain ⟨hpath, hleads⟩ := walk_eq_ok_iff.1 h
  have hfollowed : fs.walk cwd path true = .ok (.found p n) := by
    refine walk_eq_ok_iff.2 ⟨hpath, hleads.followed ?_⟩
    rintro p' path' ⟨⟩
    cases hn
  rw [isDirectory, nodeAt, hfollowed]
  exact hn

/-- The entry that a path names holds the same wherever the path leads to the same spot. -/
theorem node?_place_of_walk {fs' : FileSystem} (hfile : fs.isDirectory cwd path = false)
    (h : fs.walk cwd path false = .ok spot) (h' : fs'.walk cwd path false = .ok spot) :
    fs'.node? spot.place = fs.node? spot.place := by
  cases spot with
  | found p n =>
    have hn : n.isDirectory = false :=
      Bool.eq_false_iff.2 fun hn => Bool.eq_false_iff.1 hfile (isDirectory_of_walk hn h)
    exact (walk_found hn h').2.trans (walk_found hn h).2.symm
  | free d w slash => exact (walk_free h').trans (walk_free h).symm

/-- In a tree the entry that a path names is not below a place that is free. -/
theorem not_prefix_place_of_walk {x : Place} (hfs : fs.Rooted) (hcwd : fs.HoldsDirectory cwd)
    (hfile : fs.isDirectory cwd path = false) (h : fs.walk cwd path false = .ok spot)
    (hx : fs.node? x = none) (hne : spot.place ≠ x) : ¬ x <+: spot.place := by
  intro hprefix
  cases spot with
  | found p n =>
    have hn : n.isDirectory = false :=
      Bool.eq_false_iff.2 fun hn => Bool.eq_false_iff.1 hfile (isDirectory_of_walk hn h)
    have hheld := hfs.isSome_of_prefix hprefix (by rw [Spot.place, (walk_found hn h).2]; rfl)
    rw [hx] at hheld
    cases hheld
  | free d w slash =>
    rcases List.prefix_concat_iff.1 hprefix with heq | hprefix
    · exact hne heq.symm
    · obtain ⟨n, hn, -⟩ := walk_free_holdsDirectory hfs hcwd h
      have hheld := hfs.isSome_of_prefix hprefix (by rw [hn]; rfl)
      rw [hx] at hheld
      cases hheld

/-- A path names the same entry with a new file somewhere. -/
theorem walk_place_of_new_file {fs' : FileSystem} {x : Place} {bytes : List UInt8} {mode : Nat}
    (h : fs'.walk cwd path follow = .ok spot) (hx : fs.node? x = none)
    (hfs' : ∀ q, fs'.node? q = if q = x then some (.file bytes mode) else fs.node? q) :
    ∃ spot', fs.walk cwd path follow = .ok spot' ∧ spot'.place = spot.place := by
  obtain ⟨hpath, hleads⟩ := walk_eq_ok_iff.1 h
  obtain ⟨spot', hspot', hplace⟩ := hleads.place_of_new_file hx hfs'
  exact ⟨spot', walk_eq_ok_iff.2 ⟨hpath, hspot'⟩, hplace⟩

/-- A path that leads elsewhere than to a file leads there without the file. -/
theorem walk_found_without_file {fs' : FileSystem} {x p : Place} {n : Node} {bytes : List UInt8}
    {mode : Nat} (h : fs'.walk cwd path follow = .ok (.found p n))
    (hfs' : ∀ q, fs'.node? q = if q = x then some (.file bytes mode) else fs.node? q)
    (hp : p ≠ x) : fs.walk cwd path follow = .ok (.found p n) := by
  obtain ⟨hpath, hleads⟩ := walk_eq_ok_iff.1 h
  exact walk_eq_ok_iff.2 ⟨hpath, hleads.found_without_file hfs' rfl hp⟩

/-! ## Removing a tree -/

/-- A tree that a path leads to, and that is not a new file, was there before. -/
theorem tree_without_file {fs' : FileSystem} {x p : Place} {n held : Node} {bytes : List UInt8}
    {mode : Nat} (hfs' : ∀ q, fs'.node? q = if q = x then some (.file bytes mode) else fs.node? q)
    (h : fs'.walk cwd path false = .ok (.found p n)) (hheld : fs'.node? p = some held)
    (htree : held.isTree = true) :
    fs.walk cwd path false = .ok (.found p n) ∧ fs.node? p = some held := by
  have hne : p ≠ x := by
    rintro rfl
    rw [hfs', if_pos rfl] at hheld
    obtain rfl := Option.some.inj hheld
    cases htree
  rw [hfs', if_neg hne] at hheld
  exact ⟨walk_found_without_file h hfs' hne, hheld⟩

/-- What the removal of a tree that a path names does: `held` is what is at the place, and
`unreached` is there if the removal breaks off.  It only takes away, and nothing outside the tree.
The tree is gone exactly if there is one, a directory or a link, and the removal is complete. -/
structure Removal (before : FileSystem) (p : Place) (held : Node)
    (unreached : Option (Place → Bool)) (after : FileSystem) : Prop where
  takes (q : Place) : after.node? q = none ∨ after.node? q = before.node? q
  outside {q : Place} : ¬ p <+: q → after.node? q = before.node? q
  gone_iff : after.node? p = none ↔ held.isTree = true ∧ unreached = none
  inside {q : Place} : held.isTree = true → unreached = none → p <+: q → after.node? q = none

theorem removal_self {p : Place} {held : Node} {unreached : Option (Place → Bool)}
    (hheld : fs.node? p = some held) (htree : held.isTree = false) :
    Removal fs p held unreached fs where
  takes _ := .inr rfl
  outside _ := rfl
  gone_iff := by simp [hheld, htree]
  inside h := by simp [htree] at h

theorem removal_eraseTree {p : Place} {held : Node} (hp : p ≠ []) (htree : held.isTree = true) :
    Removal fs p held none (fs.eraseTree p) where
  takes q := by
    rw [node?_eraseTree fs hp]
    split
    · exact .inl rfl
    · exact .inr rfl
  outside hq := by rw [node?_eraseTree fs hp, if_neg hq]
  gone_iff := by simp [node?_eraseTree fs hp, htree]
  inside _ _ hq := by rw [node?_eraseTree fs hp, if_pos hq]

theorem removal_pruneTree {p : Place} {held : Node} (hp : p ≠ []) (hheld : fs.node? p = some held)
    (marked : Place → Bool) : Removal fs p held (some marked) (fs.pruneTree p marked) where
  takes q := by
    by_cases hgone : p <+: q ∧ q ≠ p ∧ ¬ fs.Stays marked q
    · exact .inl ((node?_pruneTree fs hp marked q).1 hgone.1 hgone.2.1 hgone.2.2)
    · exact .inr ((node?_pruneTree fs hp marked q).2 hgone)
  outside hq := (node?_pruneTree fs hp marked _).2 fun hgone => hq hgone.1
  gone_iff := by
    rw [(node?_pruneTree fs hp marked p).2 fun hgone => hgone.2.1 rfl, hheld]
    simp
  inside _ h := by cases h

/-- **What the removal of a tree leaves**, where its path leads somewhere but to the root. -/
theorem removal_removeTree {p : Place} {n held : Node} (unreached : Option (Place → Bool))
    (h : fs.walk cwd path false = .ok (.found p n)) (hp : p ≠ []) (hheld : fs.node? p = some held) :
    Removal fs p held unreached (fs.removeTree cwd path unreached) := by
  unfold removeTree
  rw [h]
  dsimp only
  rw [hheld, Option.any_some]
  cases htree : held.isTree with
  | false => exact removal_self hheld htree
  | true =>
    cases unreached with
    | none => exact removal_eraseTree hp htree
    | some marked => exact removal_pruneTree hp hheld marked

/-- Where a path leads to neither a directory nor a link, nothing is removed. -/
theorem removeTree_of_not_isTree {p : Place} {n : Node} (unreached : Option (Place → Bool))
    (h : fs.walk cwd path false = .ok (.found p n)) (hp : (fs.node? p).any Node.isTree = false) :
    fs.removeTree cwd path unreached = fs := by
  simp [removeTree, h, hp]

/-- Where a path leads to nothing, nothing is removed. -/
theorem removeTree_of_not_found (unreached : Option (Place → Bool))
    (h : ∀ p n, fs.walk cwd path false ≠ .ok (.found p n)) :
    fs.removeTree cwd path unreached = fs := by
  unfold removeTree
  split
  · rename_i hfound
    exact absurd hfound (h _ _)
  · rfl

end FileSystem
end Walkthrough
