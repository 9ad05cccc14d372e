/-
# Walks to an entry

A walk goes on where another one ended: what leads to a directory, and from there to a spot,
leads to the spot (`Leads.append`).  An entry is a spot at which a file can be put: what
stands there, if anything, is no directory, and no slash follows the name.  A path to an
entry ends in a name (`Leads.exists_isName`); a new file at the entry, or elsewhere, does not
stop the walk (`Leads.with_new_file`).

The entry may be a link that the walk itself follows on its way.  Then the walk cannot be
repeated with a file in its place, and else it does not need the entry
(`Leads.free_of_erased`).  Nothing new is found without the entry (`Leads.found_of_erased`),
so a path names nothing behind its removal (`not_found_of_remove`).
-/

import Walkthrough.Proofs.Machine.Walk

namespace Walkthrough

/-- No directory stands at the spot, and no slash follows it. -/
def Spot.IsEntry : Spot → Prop
  | .found _ n => n.isDirectory = false
  | .free _ _ slash => slash = false

namespace FileSystem
namespace Leads

variable {fs fs' : FileSystem} {follow : Bool} {steps links : Nat} {dir : Place}
  {names : List String} {spot : Spot}

theorem mono {steps' : Nat} (h : Leads fs follow steps links dir names spot)
    (hle : steps ≤ steps') : Leads fs follow steps' links dir names spot := by
  induction h generalizing steps' with
  | here dir =>
    obtain ⟨n, rfl⟩ := Nat.exists_eq_add_of_le' hle
    exact .here dir
  | stay hw _ ih =>
    obtain ⟨n, rfl⟩ := Nat.exists_eq_add_of_le' hle
    exact .stay hw (ih (Nat.le_add_left _ _))
  | up _ ih =>
    obtain ⟨n, rfl⟩ := Nat.exists_eq_add_of_le' hle
    exact .up (ih (Nat.le_add_left _ _))
  | free hw hnode hrest =>
    obtain ⟨n, rfl⟩ := Nat.exists_eq_add_of_le' hle
    exact .free hw hnode hrest
  | enter hw hnode hn _ ih =>
    obtain ⟨n, rfl⟩ := Nat.exists_eq_add_of_le' hle
    exact .enter hw hnode hn (ih (Nat.le_add_left _ _))
  | link hw hnode hmore hpath _ ih =>
    obtain ⟨n, rfl⟩ := Nat.exists_eq_add_of_le' hle
    exact .link hw hnode hmore hpath (ih (Nat.le_add_left _ _))
  | ends hw hnode hn hlink =>
    obtain ⟨n, rfl⟩ := Nat.exists_eq_add_of_le' hle
    exact .ends hw hnode hn hlink

/-- **A walk goes on where another one ended.**  Links on the way to the directory are
followed in any case, since something follows them. -/
theorem append {d : Place} {n : Node} {rest : List String} {more : Nat}
    (h : Leads fs true steps links dir names (.found d n)) (hn : n.isDirectory = true)
    (hrest : (rest.isEmpty && !follow) = false)
    (hgo : ∀ links, Leads fs follow (more + 1) links d rest spot) :
    Leads fs follow (steps + more) links dir (names ++ rest) spot := by
  generalize hfound : Spot.found d n = there at h
  induction h with
  | here dir =>
    obtain ⟨rfl, -⟩ := Spot.found.inj hfound
    exact (hgo _).mono (by omega)
  | stay hw _ ih =>
    rw [Nat.succ_add]
    exact .stay hw (ih hfound)
  | up _ ih =>
    rw [Nat.succ_add]
    exact .up (ih hfound)
  | free _ _ _ => cases hfound
  | enter hw hnode hdir _ ih =>
    rw [Nat.succ_add]
    exact .enter hw hnode hdir (ih hfound)
  | @link _ _ _ _ _ more' _ hw hnode _ hpath _ ih =>
    rw [Nat.succ_add]
    have hon := ih hfound
    rw [List.append_assoc] at hon
    refine .link hw hnode ?_ hpath hon
    cases more' with
    | nil => exact hrest
    | cons _ _ => rfl
  | ends _ _ hfile _ =>
    obtain ⟨-, rfl⟩ := Spot.found.inj hfound
    rw [hn] at hfile
    cases hfile

/-- Names that stay lead nowhere else. -/
theorem stays {names : List String} (h : ∀ w ∈ names, w = "" ∨ w = ".") (fs : FileSystem)
    (follow : Bool) (links : Nat) (dir : Place) :
    Leads fs follow (names.length + 1) links dir names (.found dir ((fs.node? dir).getD root)) := by
  induction names with
  | nil => exact .here dir
  | cons w names ih =>
    obtain ⟨hw, hrest⟩ := List.forall_mem_cons.1 h
    exact .stay hw (ih hrest)

/-- A name leads to what the directory has for it. -/
theorem exists_of_isName {w : String} (hw : IsName w) (fs : FileSystem) (dir : Place) :
    ∃ spot, spot.place = dir ++ [w] ∧
      (spot.IsEntry ∨ ∃ p n, spot = .found p n ∧ n.isDirectory = true) ∧
      ∀ links, Leads fs false 2 links dir [w] spot := by
  cases hnode : fs.node? (dir ++ [w]) with
  | none =>
    exact ⟨.free dir w false, rfl, .inl rfl, fun _ => .free hw hnode rfl⟩
  | some n =>
    refine ⟨.found (dir ++ [w]) n, rfl, ?_⟩
    by_cases hn : n.isDirectory = true
    · refine ⟨.inr ⟨_, n, rfl, hn⟩, fun _ => .enter hw hnode hn ?_⟩
      have hheld : (fs.node? (dir ++ [w])).getD root = n := by rw [hnode, Option.getD_some]
      exact hheld ▸ .here (dir ++ [w])
    · have hfile : n.isDirectory = false := Bool.eq_false_iff.2 hn
      exact ⟨.inl hfile, fun _ => .ends hw hnode hfile fun _ _ => rfl⟩

/-- **A path to an entry ends in a name.** -/
theorem exists_isName (h : Leads fs follow steps links dir names spot) (hfs : fs.Rooted)
    (hdir : fs.HoldsDirectory dir) (hspot : spot.IsEntry) :
    ∃ w, names.getLast? = some w ∧ IsName w := by
  have hcons {v : String} {rest : List String} :
      (∃ w, rest.getLast? = some w ∧ IsName w) → ∃ w, (v :: rest).getLast? = some w ∧ IsName w := by
    rintro ⟨w, hlast, hw⟩
    exact ⟨w, by rw [List.getLast?_cons, hlast, Option.getD_some], hw⟩
  induction h with
  | here dir =>
    obtain ⟨n, hn, hdirectory⟩ := hdir
    rw [Spot.IsEntry, hn, Option.getD_some, hdirectory] at hspot
    cases hspot
  | stay _ _ ih => exact hcons (ih hdir hspot)
  | up _ ih => exact hcons (ih (hfs.dropLast hdir) hspot)
  | @free _ _ _ w rest hw _ _ =>
    obtain rfl : rest = [] := by simpa [Spot.IsEntry] using hspot
    exact ⟨w, rfl, hw⟩
  | enter _ hnode hn _ ih => exact hcons (ih ⟨_, hnode, hn⟩ hspot)
  | @link _ _ _ w path rest _ hw _ _ _ _ ih =>
    cases rest with
    | nil => exact ⟨w, rfl, hw⟩
    | cons v rest =>
      have hstart : fs.HoldsDirectory (if Path.isAbsolute path.toList then [] else _) :=
        holdsDirectory_startOf hdir path
      obtain ⟨w', hlast, hw'⟩ := ih hstart hspot
      rw [List.getLast?_append, List.getLast?_cons, Option.some_or] at hlast
      exact hcons ⟨w', by rw [List.getLast?_cons, hlast], hw'⟩
  | ends hw _ _ _ => exact ⟨_, rfl, hw⟩

/-- **A new file does not stop a walk.**  The file systems differ at one place, which was free
and holds a file; a walk that ended there ends at the file. -/
theorem with_new_file {x : Place} {bytes : List UInt8} {mode : Nat}
    (h : Leads fs follow steps links dir names spot)
    (hslash : ∀ d w, spot ≠ .free d w true) (hx : fs.node? x = none)
    (hfs' : ∀ q, fs'.node? q = if q = x then some (.file bytes mode) else fs.node? q) :
    Leads fs' follow steps links dir names
      (if spot.place = x then .found x (.file bytes mode) else spot) := by
  -- what was there before is not where the new file is
  have hother {q : Place} {n : Node} (hq : fs.node? q = some n) : q ≠ x := by
    rintro rfl
    rw [hx] at hq
    cases hq
  have hsame {q : Place} {n : Node} (hq : fs.node? q = some n) : fs'.node? q = some n := by
    rw [hfs', if_neg (hother hq), hq]
  have hnew : fs'.node? x = some (.file bytes mode) := by rw [hfs', if_pos rfl]
  induction h with
  | @here steps links dir =>
    have hthere : Leads fs' follow (steps + 1) links dir [] _ := .here dir
    rw [Spot.place]
    split
    · rename_i hdir
      subst hdir
      rwa [hnew, Option.getD_some] at hthere
    · rename_i hdir
      rwa [hfs', if_neg hdir] at hthere
  | stay hw _ ih => exact .stay hw (ih hslash)
  | up _ ih => exact .up (ih hslash)
  | @free _ _ dir w rest hw hnode _ =>
    obtain rfl : rest = [] := by
      cases rest with
      | nil => rfl
      | cons v rest => exact absurd rfl (hslash dir w)
    rw [Spot.place]
    split
    · rename_i hthere
      have hheld : fs'.node? (dir ++ [w]) = some (.file bytes mode) := hthere ▸ hnew
      refine hthere ▸ .ends hw hheld rfl ?_
      rintro _ ⟨⟩
    · rename_i hthere
      exact .free hw (by rw [hfs', if_neg hthere, hnode]) rfl
  | enter hw hnode hn _ ih => exact .enter hw (hsame hnode) hn (ih hslash)
  | link hw hnode hmore hpath _ ih => exact .link hw (hsame hnode) hmore hpath (ih hslash)
  | ends hw hnode hn hlink =>
    rw [Spot.place, if_neg (hother hnode)]
    exact .ends hw (hsame hnode) hn hlink

/-! ## Walks without the entry -/

/-- No directory is held at an entry. -/
theorem not_holdsDirectory_place (h : Leads fs follow steps links dir names spot)
    (hspot : spot.IsEntry) : ¬ fs.HoldsDirectory spot.place := by
  rintro ⟨m, hm, hdirectory⟩
  cases spot with
  | found p n =>
    have hheld := h.getD_found rfl
    rw [show fs.node? p = some m from hm, Option.getD_some] at hheld
    rw [Spot.IsEntry, ← hheld, hdirectory] at hspot
    cases hspot
  | free d w slash =>
    have hnone := h.node?_free rfl
    rw [show fs.node? (d ++ [w]) = some m from hm] at hnone
    cases hnone

theorem stay_iff {w : String} {rest : List String} (hw : w = "" ∨ w = ".") :
    Leads fs follow (steps + 1) links dir (w :: rest) spot ↔
      Leads fs follow steps links dir rest spot := by
  rw [← walkFrom_eq_ok_iff, ← walkFrom_eq_ok_iff, walkFrom, if_pos hw]

theorem up_iff {rest : List String} :
    Leads fs follow (steps + 1) links dir (".." :: rest) spot ↔
      Leads fs follow steps links dir.dropLast rest spot := by
  rw [← walkFrom_eq_ok_iff, ← walkFrom_eq_ok_iff, walkFrom, if_neg (by decide), if_pos rfl]

variable {w : String} {rest : List String}

theorem enter_iff {n : Node} (hw : IsName w) (hnode : fs.node? (dir ++ [w]) = some n)
    (hn : n.isDirectory = true) :
    Leads fs follow (steps + 1) links dir (w :: rest) spot ↔
      Leads fs follow steps links (dir ++ [w]) rest spot := by
  rw [← walkFrom_eq_ok_iff, ← walkFrom_eq_ok_iff, walkFrom, if_neg hw.noDot, if_neg hw.noDots,
    if_neg (Nat.not_lt.2 hw.short)]
  cases n <;> simp_all [Node.isDirectory]

theorem link_iff {path : String} (hw : IsName w)
    (hnode : fs.node? (dir ++ [w]) = some (.link path)) (hpath : path.isEmpty = false) :
    Leads fs true (steps + 1) (links + 1) dir (w :: rest) spot ↔
      Leads fs true steps links (if Path.isAbsolute path.toList then [] else dir)
        (splitPath path ++ rest) spot := by
  rw [← walkFrom_eq_ok_iff, ← walkFrom_eq_ok_iff, walkFrom, if_neg hw.noDot, if_neg hw.noDots,
    if_neg (Nat.not_lt.2 hw.short)]
  simp [hnode, hpath]

/-- No walk goes on behind a file. -/
theorem not_behind_file {bytes : List UInt8} {mode : Nat} (hw : IsName w)
    (hnode : fs.node? (dir ++ [w]) = some (.file bytes mode)) (hrest : rest ≠ []) :
    ¬ Leads fs follow (steps + 1) links dir (w :: rest) spot := by
  rw [← walkFrom_eq_ok_iff, walkFrom, if_neg hw.noDot, if_neg hw.noDots,
    if_neg (Nat.not_lt.2 hw.short)]
  simp [hnode, Node.isDirectory, hrest]

/-- **A walk to an entry does not need the entry**, or the entry is a link that it follows on
its way, and no walk goes through a file in its place. -/
theorem free_of_erased {x : Place} (h : Leads fs false steps links dir names spot)
    (hfs : fs.Rooted) (hdir : fs.HoldsDirectory dir) (hspot : spot.IsEntry)
    (hplace : spot.place = x) {erased : FileSystem}
    (herased : ∀ q, erased.node? q = if q = x then none else fs.node? q) :
    (∃ d w, d ++ [w] = x ∧ Leads erased false steps links dir names (.free d w false)) ∨
      (∃ path, fs.node? x = some (.link path)) ∧ ∀ {fs' : FileSystem} {bytes mode spot'},
        (∀ q, fs'.node? q = if q = x then some (.file bytes mode) else fs.node? q) →
          ¬ Leads fs' true steps links dir names spot' := by
  have hentry : ¬ fs.HoldsDirectory x := hplace ▸ h.not_holdsDirectory_place hspot
  induction h with
  | here dir => exact absurd (hplace ▸ hdir) hentry
  | stay hw _ ih =>
    rcases ih hdir hspot hplace with ⟨d, w, hx, hfree⟩ | ⟨hlink, hno⟩
    · exact .inl ⟨d, w, hx, .stay hw hfree⟩
    · exact .inr ⟨hlink, fun hfs' h' => hno hfs' ((stay_iff hw).1 h')⟩
  | up _ ih =>
    rcases ih (hfs.dropLast hdir) hspot hplace with ⟨d, w, hx, hfree⟩ | ⟨hlink, hno⟩
    · exact .inl ⟨d, w, hx, .up hfree⟩
    · exact .inr ⟨hlink, fun hfs' h' => hno hfs' (up_iff.1 h')⟩
  | @free _ _ dir w rest hw _ _ =>
    obtain rfl : rest = [] := by simpa [Spot.IsEntry] using hspot
    have hthere : dir ++ [w] = x := hplace
    exact .inl ⟨dir, w, hthere, .free hw (by rw [herased, if_pos hthere]) rfl⟩
  | @enter _ _ _ _ _ _ n hw hnode hn _ ih =>
    have hne : _ ++ [_] ≠ x := fun heq => hentry (heq ▸ ⟨n, hnode, hn⟩)
    rcases ih ⟨n, hnode, hn⟩ hspot hplace with ⟨d, w, hx, hfree⟩ | ⟨hlink, hno⟩
    · exact .inl ⟨d, w, hx, .enter hw (by rw [herased, if_neg hne, hnode]) hn hfree⟩
    · refine .inr ⟨hlink, fun hfs' h' => hno hfs' ((enter_iff hw ?_ hn).1 h')⟩
      rw [hfs', if_neg hne, hnode]
  | @link _ _ dir w path rest _ hw hnode hmore hpath _ ih =>
    by_cases heq : dir ++ [w] = x
    · refine .inr ⟨⟨path, heq ▸ hnode⟩, fun hfs' => ?_⟩
      have hfile := (hfs' (dir ++ [w])).trans (if_pos heq)
      refine not_behind_file hw hfile ?_
      rintro rfl
      cases hmore
    · rcases ih (holdsDirectory_startOf hdir path) hspot hplace with
        ⟨d, w, hx, hfree⟩ | ⟨hlink, hno⟩
      · exact .inl ⟨d, w, hx, .link hw (by rw [herased, if_neg heq, hnode]) hmore hpath hfree⟩
      · refine .inr ⟨hlink, fun hfs' h' => hno hfs' ((link_iff hw ?_ hpath).1 h')⟩
        rw [hfs', if_neg heq, hnode]
  | @ends _ _ dir w _ hw _ _ _ =>
    have hthere : dir ++ [w] = x := hplace
    exact .inl ⟨dir, w, hthere, .free hw (by rw [herased, if_pos hthere]) rfl⟩

/-- **What a walk finds without an entry it finds with it**, and at another place. -/
theorem found_of_erased {erased : FileSystem} {x p : Place} {n : Node}
    (h : Leads erased follow steps links dir names spot) (hspot : spot = .found p n) (hx : x ≠ [])
    (hdir : ¬ x <+: dir) (herased : ∀ q, erased.node? q = if q = x then none else fs.node? q) :
    p ≠ x ∧ Leads fs follow steps links dir names spot := by
  -- what is held is not what was erased, and was held before
  have hheld {q : Place} {m : Node} (hq : erased.node? q = some m) :
      q ≠ x ∧ fs.node? q = some m := by
    rw [herased] at hq
    split at hq
    · cases hq
    · exact ⟨‹q ≠ x›, hq⟩
  induction h with
  | @here _ _ dir =>
    have hne : dir ≠ x := fun heq => hdir (heq ▸ List.prefix_rfl)
    rw [herased, if_neg hne] at hspot ⊢
    obtain ⟨rfl, -⟩ := Spot.found.inj hspot
    exact ⟨hne, .here dir⟩
  | stay hw _ ih =>
    obtain ⟨hne, hleads⟩ := ih hspot hdir
    exact ⟨hne, .stay hw hleads⟩
  | up _ ih =>
    obtain ⟨hne, hleads⟩ := ih hspot fun habove =>
      hdir (habove.trans (List.dropLast_prefix _))
    exact ⟨hne, .up hleads⟩
  | free _ _ _ => cases hspot
  | enter hw hnode hn _ ih =>
    obtain ⟨hother, hnode⟩ := hheld hnode
    have hbelow : ¬ x <+: _ ++ [_] := fun hprefix =>
      (List.prefix_concat_iff.1 hprefix).elim (fun heq => hother heq.symm) hdir
    obtain ⟨hne, hleads⟩ := ih hspot hbelow
    exact ⟨hne, .enter hw hnode hn hleads⟩
  | @link _ _ dir _ path _ _ hw hnode hmore hpath _ ih =>
    have hstart : ¬ x <+: if Path.isAbsolute path.toList then [] else dir := by
      split
      · exact fun hprefix => hx (List.prefix_nil.1 hprefix)
      · exact hdir
    obtain ⟨hne, hleads⟩ := ih hspot hstart
    exact ⟨hne, .link hw (hheld hnode).2 hmore hpath hleads⟩
  | ends hw hnode hn hlink =>
    obtain ⟨hother, hnode⟩ := hheld hnode
    obtain ⟨rfl, -⟩ := Spot.found.inj hspot
    exact ⟨hother, .ends hw hnode hn hlink⟩

end Leads

/-- **A path names nothing behind its removal.** -/
theorem not_found_of_remove {fs fs' : FileSystem} {cwd : Place} {path : String}
    (hfs : fs.Rooted) (hcwd : fs.HoldsDirectory cwd) (h : fs.remove cwd path = .ok fs')
    (p : Place) (n : Node) : fs'.walk cwd path false ≠ .ok (.found p n) := by
  unfold remove at h
  split at h
  · cases h
  · cases h
  rename_i x old hwalk
  split at h
  · cases h
  rename_i hold
  obtain rfl := Except.ok.inj h
  have hfile : old.isDirectory = false := Bool.eq_false_iff.2 hold
  obtain ⟨hx, hnode⟩ := walk_found hfile hwalk
  intro hfound
  -- no directory of the walk is below what was removed
  have hstart : ¬ x <+: startOf cwd path := fun hprefix => by
    obtain ⟨m, hm, hdirectory⟩ :=
      hfs.holdsDirectory_of_prefix hprefix (holdsDirectory_startOf hcwd path)
    obtain rfl : old = m := Option.some.inj (hnode.symm.trans hm)
    rw [hfile] at hdirectory
    cases hdirectory
  obtain ⟨hpath, hleads⟩ := walk_eq_ok_iff.1 hfound
  obtain ⟨hne, hleads⟩ := hleads.found_of_erased rfl hx hstart (node?_erase fs hx)
  have hsame := hwalk.symm.trans (walk_eq_ok_iff.2 ⟨hpath, hleads⟩)
  exact hne (Spot.found.inj (Except.ok.inj hsame)).1.symm

end FileSystem
end Walkthrough
