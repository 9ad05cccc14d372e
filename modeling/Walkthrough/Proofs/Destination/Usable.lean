/-
# Which accepted destinations are usable

`check` looks at the directory of a destination, by its text, and at what the destination
leads to; `write` moves a file to the destination itself.  The two agree where the text behind
the last slash is the name of an entry (`Named`):

| destination | parent | `check` | `write` |
| --- | --- | --- | --- |
| `a/b` | `a` | accepts it in a directory | succeeds |
| `missing/` | the current directory | accepts it | fails: no directory |
| `file/.` | the current directory | accepts it | fails: no directory |
| a name of 256 bytes | the current directory | accepts it | fails: too long |

A destination that is written leads to the document afterwards, unless its path goes through
the entry itself (`Direct`): a link in its own way, so long that it is not followed twice, is
replaced by the document, and the way is gone.
-/

import Walkthrough.Proofs.Destination.Write
import Walkthrough.Proofs.Machine.Entry
import Walkthrough.Proofs.Path

namespace Walkthrough

open FileSystem (IsName IsPath Leads splitPath startOf stepsOf)

namespace Destination

/-- A destination that ends in the name of an entry, and can be followed at all. -/
structure Named (dest : String) : Prop where
  path : IsPath dest
  last : ∃ w, (splitPath dest).getLast? = some w ∧ IsName w

/-- The entry that a destination names is found without going through it. -/
def Direct (m : Machine) (dest : String) : Prop :=
  ∃ spot d w, m.files.walk m.cwd dest false = .ok spot ∧ spot.place = d ++ [w] ∧
    (m.files.erase (d ++ [w])).walk m.cwd dest false = .ok (.free d w false)

end Destination

/-! ## The way to the parent -/

namespace FileSystem

variable {fs : FileSystem} {cwd : Place} {path : String}

/-- A path to a directory, as a walk. -/
theorem exists_of_isDirectory (h : fs.isDirectory cwd path = true) :
    ∃ d n, n.isDirectory = true ∧
      Leads fs true (stepsOf path) maxLinks (startOf cwd path) (splitPath path) (.found d n) := by
  unfold isDirectory nodeAt at h
  cases hwalk : fs.walk cwd path true with
  | error e =>
    rw [hwalk] at h
    cases h
  | ok spot =>
    rw [hwalk] at h
    cases spot with
    | found d n => exact ⟨d, n, h, (walk_eq_ok_iff.1 hwalk).2⟩
    | free d w slash => cases h

theorem IsName.toList {w : String} (h : IsName w) (hslash : '/' ∉ w.toList) :
    Path.IsName w.toList := by
  obtain ⟨hdot, hdots, -⟩ := h
  rw [not_or] at hdot
  have hne {v : String} (hv : w ≠ v) : w.toList ≠ v.toList :=
    fun heq => hv (String.toList_inj.1 heq)
  exact ⟨hslash, hne hdot.1, hne hdot.2, hne hdots⟩

theorem splitSlash_eq {ls : List String} (h : splitPath path = ls) :
    Path.splitSlash path.toList = ls.map String.toList := by
  rw [← h, splitPath, List.map_map]
  simp [Function.comp_def]

theorem eq_splitPath_append {ls : List String} {p : List Char} {rest : List (List Char)}
    (h : ls.map String.toList = Path.splitSlash p ++ rest) :
    ls = splitPath (String.ofList p) ++ rest.map String.ofList := by
  have hback := congrArg (List.map String.ofList) h
  rw [List.map_append, List.map_map] at hback
  simpa [Function.comp_def, splitPath] using hback

theorem stays_of_toList {w : String} (h : Path.Stays w.toList) : w = "" ∨ w = "." := by
  rcases h with h | h
  · exact .inl (String.toList_inj.1 h)
  · exact .inr (String.toList_inj.1 h)

end FileSystem

namespace Destination

variable {m : Machine} {dest : String}

/-- **What stands in front of the name leads to a directory** if the parent does. -/
theorem exists_front {w : String} {front : List String} (hm : m.Sound) (hw : IsName w)
    (hdest : splitPath dest = front ++ [w])
    (hparent : m.files.isDirectory m.cwd (parentOf dest) = true) :
    ∃ d n steps, n.isDirectory = true ∧ steps + 1 ≤ stepsOf dest ∧
      Leads m.files true steps FileSystem.maxLinks (startOf m.cwd dest) front (.found d n) := by
  have hsplit := FileSystem.splitSlash_eq hdest
  rw [List.map_append, List.map_singleton] at hsplit
  have hslash : '/' ∉ w.toList :=
    Path.slash_not_mem_of_mem_splitSlash (hsplit ▸ List.mem_concat_self)
  have hlength : stepsOf dest = front.length + 1 + FileSystem.maxLinks *
      (FileSystem.maxPathBytes + 2) + 1 := by
    rw [stepsOf, hdest, List.length_append, List.length_singleton]
  rcases Path.parent?_cases (hw.toList hslash) hsplit with
    ⟨hfront, -, hrelative⟩ | ⟨-, habsolute, hall⟩ | ⟨p, rest, hp, hne, hsame, hall, hfront⟩
  · -- the name alone: the way is empty and ends in the current directory
    obtain rfl := List.map_eq_nil_iff.1 hfront
    obtain ⟨n, hn, hdirectory⟩ := hm.cwd
    have hhere : Leads m.files true 1 FileSystem.maxLinks m.cwd [] (.found m.cwd n) := by
      have hthere : (m.files.node? m.cwd).getD FileSystem.root = n := by rw [hn, Option.getD_some]
      exact hthere ▸ .here m.cwd
    rw [startOf, if_neg (by simp [hrelative])]
    exact ⟨m.cwd, n, 1, hdirectory, by omega, hhere⟩
  · -- nothing but slashes and dots in front of the name: the way stays at the root
    have hstays : ∀ v ∈ front, v = "" ∨ v = "." := fun v hv =>
      FileSystem.stays_of_toList (hall _ (List.mem_map_of_mem hv))
    rw [startOf, if_pos habsolute]
    exact ⟨[], FileSystem.root, front.length + 1, rfl, by omega,
      Leads.stays hstays m.files true FileSystem.maxLinks []⟩
  · -- the parent, and slashes and dots that stay there
    have hparentOf : parentOf dest = String.ofList p := by
      rw [parentOf, hp]
      exact if_neg (by simpa using hne)
    rw [hparentOf] at hparent
    obtain ⟨d, n, hn, hleads⟩ := FileSystem.exists_of_isDirectory hparent
    have hnames := FileSystem.eq_splitPath_append hfront
    have hstays : ∀ v ∈ rest.map String.ofList, v = "" ∨ v = "." := by
      refine List.forall_mem_map.2 fun v hv => FileSystem.stays_of_toList ?_
      rw [String.toList_ofList]
      exact hall v hv
    have hstart : startOf m.cwd (String.ofList p) = startOf m.cwd dest := by
      rw [startOf, startOf, String.toList_ofList, hsame]
    have hgo (links : Nat) : Leads m.files true ((rest.map String.ofList).length + 1) links d
        (rest.map String.ofList) (.found d n) :=
      hleads.getD_found rfl ▸ Leads.stays hstays m.files true links d
    rw [hnames, ← hstart]
    refine ⟨d, n, _, hn, ?_, hleads.append hn (by simp) hgo⟩
    rw [hlength, hnames, stepsOf, List.length_append]
    omega

/-- **A destination that is accepted and named leads to an entry.** -/
theorem walk_of_named (hm : m.Sound) (hdest : Named dest)
    (hfile : m.files.isDirectory m.cwd dest = false)
    (hparent : m.files.isDirectory m.cwd (parentOf dest) = true) :
    ∃ spot, m.files.walk m.cwd dest false = .ok spot ∧ spot.IsEntry := by
  obtain ⟨w, hlast, hw⟩ := hdest.last
  obtain ⟨front, hfront⟩ := List.getLast?_eq_some_iff.1 hlast
  obtain ⟨d, n, steps, hn, hsteps, hleads⟩ := exists_front hm hw hfront hparent
  obtain ⟨spot, -, hspot, hgo⟩ := Leads.exists_of_isName hw m.files d
  have hwhole : Leads m.files false (stepsOf dest) FileSystem.maxLinks (startOf m.cwd dest)
      (splitPath dest) spot := by
    rw [hfront]
    exact (hleads.append hn rfl hgo).mono hsteps
  have hwalk : m.files.walk m.cwd dest false = .ok spot :=
    FileSystem.walk_eq_ok_iff.2 ⟨hdest.path, hwhole⟩
  rcases hspot with hentry | ⟨p, n, rfl, hdirectory⟩
  · exact ⟨spot, hwalk, hentry⟩
  · rw [FileSystem.isDirectory_of_walk hdirectory hwalk] at hfile
    cases hfile

end Destination

/-! ## Moving to an entry -/

/-- A file that is held can be moved to an entry, and to nothing else. -/
theorem FileSystem.exists_moveFile_iff {fs : FileSystem} {source cwd : Place} {path : String}
    {n : Node} (hn : fs.node? source = some n) :
    (∃ fs', fs.moveFile source cwd path = .ok fs') ↔
      endsInName path = true ∧ ∃ spot, fs.walk cwd path false = .ok spot ∧ spot.IsEntry := by
  unfold moveFile
  rw [hn]
  dsimp only
  cases fs.walk cwd path false with
  | error e => simp
  | ok spot =>
    cases endsInName path with
    | false => simp
    | true =>
      cases spot with
      | free d w slash => cases slash <;> simp [Spot.IsEntry]
      | found p old => cases hold : old.isDirectory <;> simp [Spot.IsEntry, hold]

/-- What is created lies in a directory. -/
theorem FileSystem.holdsDirectory_of_create {fs fs' : FileSystem} {cwd : Place} {path : String}
    {n : Node} {place : Place} (hfs : fs.Rooted) (hcwd : fs.HoldsDirectory cwd)
    (h : fs.create cwd path n = .ok (place, fs')) : fs.HoldsDirectory place.dropLast := by
  obtain ⟨-, dir, name, slash, rfl, hwalk⟩ := create_eq_put h
  rw [List.dropLast_concat]
  exact walk_free_holdsDirectory hfs hcwd hwalk

theorem Temporary.holdsDirectory_of_make {m : Machine} {dir opening path : String} {n : Node}
    {place : Place} {files : FileSystem} (hm : m.Sound)
    (h : make m dir opening n = .ok (path, place, files)) :
    m.files.HoldsDirectory place.dropLast :=
  let ⟨_, _, hcreate⟩ := create_of_make h
  FileSystem.holdsDirectory_of_create hm.rooted hm.cwd hcreate

/-! ## Replacing an entry -/

namespace FileSystem

variable {fs fs' : FileSystem} {cwd : Place} {path : String} {spot : Spot}
  {bytes : List UInt8} {mode : Nat}

/-- A path to an entry leads to a free place without the entry, or the entry is a link, and no
path goes through a file in its place. -/
theorem free_or_link (hfs : fs.Rooted) (hcwd : fs.HoldsDirectory cwd)
    (hwalk : fs.walk cwd path false = .ok spot) (hentry : spot.IsEntry) :
    (∃ d w, spot.place = d ++ [w] ∧
        (fs.erase (d ++ [w])).walk cwd path false = .ok (.free d w false)) ∨
      (∃ target, fs.node? spot.place = some (.link target)) ∧
        ∀ {fs' : FileSystem} {bytes mode},
          (∀ q, fs'.node? q = if q = spot.place then some (.file bytes mode) else fs.node? q) →
            ∀ there, fs'.walk cwd path true ≠ .ok there := by
  obtain ⟨hpath, hleads⟩ := walk_eq_ok_iff.1 hwalk
  have hne : spot.place ≠ [] := by
    intro hnil
    refine hleads.not_holdsDirectory_place hentry ?_
    rw [hnil]
    exact holdsDirectory_nil _
  rcases hleads.free_of_erased hfs (holdsDirectory_startOf hcwd path) hentry rfl
    (node?_erase fs hne) with ⟨d, w, hplace, hfree⟩ | ⟨hlink, hno⟩
  · refine .inl ⟨d, w, hplace.symm, ?_⟩
    rw [hplace]
    exact walk_eq_ok_iff.2 ⟨hpath, hfree⟩
  · refine .inr ⟨hlink, fun hfs' there hthere => ?_⟩
    exact hno hfs' (walk_eq_ok_iff.1 hthere).2

/-- Where a path goes on once a file stands at its entry, it does not need the entry. -/
theorem free_of_replaced {there : Spot} (hfs : fs.Rooted) (hcwd : fs.HoldsDirectory cwd)
    (hwalk : fs.walk cwd path false = .ok spot) (hentry : spot.IsEntry)
    (hfs' : ∀ q, fs'.node? q = if q = spot.place then some (.file bytes mode) else fs.node? q)
    (hthere : fs'.walk cwd path true = .ok there) :
    ∃ d w, spot.place = d ++ [w] ∧
      (fs.erase (d ++ [w])).walk cwd path false = .ok (.free d w false) := by
  rcases free_or_link hfs hcwd hwalk hentry with hfree | ⟨-, hno⟩
  · exact hfree
  · exact absurd hthere (hno hfs' there)

/-- A path that does not need its entry leads to the file that is put there. -/
theorem nodeAt_of_free {d : Place} {w : String}
    (hfree : (fs.erase (d ++ [w])).walk cwd path false = .ok (.free d w false))
    (hfs' : ∀ q, fs'.node? q = if q = d ++ [w] then some (.file bytes mode) else fs.node? q) :
    fs'.nodeAt cwd path = .ok (.file bytes mode) := by
  obtain ⟨hpath, hleads⟩ := walk_eq_ok_iff.1 hfree
  have herased := node?_erase fs (List.concat_ne_nil w d)
  have hgone : (fs.erase (d ++ [w])).node? (d ++ [w]) = none := by rw [herased, if_pos rfl]
  have hnew : ∀ q, fs'.node? q =
      if q = d ++ [w] then some (.file bytes mode) else (fs.erase (d ++ [w])).node? q := by
    intro q
    rw [hfs', herased]
    split <;> rfl
  have hfound := hleads.with_new_file (by simp) hgone hnew
  rw [Spot.place, if_pos rfl] at hfound
  have hwalk : fs'.walk cwd path true = .ok (.found (d ++ [w]) (.file bytes mode)) :=
    walk_eq_ok_iff.2 ⟨hpath, hfound.followed (by simp)⟩
  rw [nodeAt, hwalk]

theorem exists_walk_of_nodeAt {n : Node} (h : fs.nodeAt cwd path = .ok n) :
    ∃ there, fs.walk cwd path true = .ok there := by
  unfold nodeAt at h
  split at h
  · exact ⟨_, ‹_›⟩
  · cases h
  · cases h

end FileSystem

/-! ## Accepting and writing -/

namespace Destination

variable {m : Machine} {dest text : String}

/-- The parent of an accepted destination is a directory that takes a temporary file. -/
theorem parentOf_of_check (h : (check m dest).1 = .ok ()) :
    m.files.isDirectory m.cwd (parentOf dest) = true ∧
      ∃ path temp files, Temporary.make m (parentOf dest) tempOpening (.file [] tempMode) =
        .ok (path, temp, files) := by
  unfold check at h
  dsimp only at h
  split at h
  · cases h
  split at h
  · cases h
  split at h
  · cases h
  rename_i hparent
  split at h
  · cases h
  · rename_i path temp files hmade
    exact ⟨by simpa using hparent, path, temp, files, hmade⟩

/-- A path that ends in a name of its own ends in a name for moving, too. -/
theorem Named.endsInName (h : Named dest) : FileSystem.endsInName dest = true := by
  obtain ⟨w, hlast, hw⟩ := h.last
  obtain ⟨front, hfront⟩ := List.getLast?_eq_some_iff.1 hlast
  obtain ⟨hdot, hdots, -⟩ := hw
  rw [not_or] at hdot
  have hname : FileSystem.lastName? dest = some w := by
    rw [FileSystem.lastName?, hfront, List.filter_append]
    simp [hdot.1]
  rw [FileSystem.endsInName, hname]
  simp [hdot.2, hdots]

/-- Without faults a write is the move of the document, made ready beside its destination. -/
theorem write_eq_ok_iff {temp : Place} (h : Created {} m dest temp) :
    (write {} m dest text).1 = .ok () ↔
      ∃ files', (m.files.put temp (.file (Text.Utf8.encode text.toList) documentMode)).moveFile temp
        m.cwd dest = .ok files' := by
  rw [write_of_created h, complete_put h.free.1]
  dsimp only [moveIn]
  cases (m.files.put temp (.file (Text.Utf8.encode text.toList) documentMode)).moveFile temp m.cwd
    dest <;> simp

/-- **An accepted destination is written** exactly if it ends in the name of an entry. -/
theorem write_eq_ok_iff_named (hm : m.Sound) (h : (check m dest).1 = .ok ()) :
    (write {} m dest text).1 = .ok () ↔ Named dest := by
  obtain ⟨hparent, path, temp, files, hmake⟩ := parentOf_of_check h
  obtain ⟨hne, hfree, -⟩ := Temporary.make_eq_ok hmake
  have hcreated : Created {} m dest temp := ⟨files, by rw [createTemp, hmake]⟩
  let document : Node := .file (Text.Utf8.encode text.toList) documentMode
  let ready := m.files.put temp document
  -- the files that the document is moved in: those before, and the temporary file
  have hready : ∀ q, ready.node? q = if q = temp then some document else m.files.node? q :=
    FileSystem.node?_put m.files hne document
  have htemp : ready.node? temp = some document := by rw [hready, if_pos rfl]
  rw [write_eq_ok_iff hcreated, FileSystem.exists_moveFile_iff htemp]
  constructor
  · rintro ⟨-, spot, hwalk, hentry⟩
    obtain ⟨hpath, hleads⟩ := FileSystem.walk_eq_ok_iff.1 hwalk
    have hrooted : ready.Rooted :=
      hm.rooted.of_new hfree hready (Temporary.holdsDirectory_of_make hm hmake)
    have hcwd : ready.HoldsDirectory m.cwd := hm.cwd.of_new hfree hready
    exact ⟨hpath, hleads.exists_isName hrooted (FileSystem.holdsDirectory_startOf hcwd dest) hentry⟩
  · intro hdest
    obtain ⟨spot, hwalk, hentry⟩ := walk_of_named hm hdest (isDirectory_of_check h) hparent
    obtain ⟨hpath, hleads⟩ := FileSystem.walk_eq_ok_iff.1 hwalk
    have hslash : ∀ d w, spot ≠ .free d w true := by
      rintro d w rfl
      cases hentry
    refine ⟨hdest.endsInName, _, FileSystem.walk_eq_ok_iff.2
      ⟨hpath, hleads.with_new_file hslash hfree hready⟩, ?_⟩
    split
    · rfl
    · exact hentry

/-- The document is what its destination leads to exactly if the entry is not in its own way. -/
theorem nodeAt_write_iff (hm : m.Sound) (h : (check m dest).1 = .ok ())
    (hwrite : (write {} m dest text).1 = .ok ()) :
    (write {} m dest text).2.nodeAt m.cwd dest =
        .ok (.file (Text.Utf8.encode text.toList) documentMode) ↔ Direct m dest := by
  obtain ⟨spot, hwalk, hentry⟩ := walk_of_named hm ((write_eq_ok_iff_named hm h).1 hwrite)
    (isDirectory_of_check h) (parentOf_of_check h).1
  obtain ⟨spot', hwalk', hwritten⟩ := write_eq_ok hwrite
  obtain rfl : spot' = spot := Except.ok.inj (hwalk'.symm.trans hwalk)
  constructor
  · intro hnode
    obtain ⟨there, hthere⟩ := FileSystem.exists_walk_of_nodeAt hnode
    obtain ⟨d, w, hplace, hfree⟩ :=
      FileSystem.free_of_replaced hm.rooted hm.cwd hwalk hentry hwritten hthere
    exact ⟨spot', d, w, hwalk, hplace, hfree⟩
  · rintro ⟨spot'', d, w, hwalk'', hplace, hfree⟩
    obtain rfl : spot'' = spot' := Except.ok.inj (hwalk''.symm.trans hwalk)
    exact FileSystem.nodeAt_of_free hfree (hplace ▸ hwritten)

/-- An entry that is no link is not in its own way. -/
theorem direct_of_not_link (hm : m.Sound) {spot : Spot}
    (hwalk : m.files.walk m.cwd dest false = .ok spot) (hentry : spot.IsEntry)
    (hlink : ∀ p path, spot ≠ .found p (.link path)) : Direct m dest := by
  rcases FileSystem.free_or_link hm.rooted hm.cwd hwalk hentry with
    ⟨d, w, hplace, hfree⟩ | ⟨⟨path, hheld⟩, -⟩
  · exact ⟨spot, d, w, hwalk, hplace, hfree⟩
  · cases spot with
    | found p n =>
      have hn := (FileSystem.walk_found hentry hwalk).2
      obtain rfl := Option.some.inj (hn.symm.trans hheld)
      exact absurd rfl (hlink p path)
    | free d w slash =>
      have hnone := (FileSystem.walk_free hwalk).symm.trans hheld
      cases hnone

/-- **Which accepted destinations are usable.**  A destination that is accepted is written,
without faults, exactly if it ends in the name of an entry; it leads to the document then
exactly if moreover the entry is not in its own way, which only a link can be.  Any other
accepted destination is an i/o fault of the write.

The files are those of a privileged process: no permission, owner or sticky bit keeps it from the
directory of the destination.  Where one does, the write has a fault (`Faults`), and this says
nothing. -/
theorem usable_iff (hm : m.Sound) (h : (check m dest).1 = .ok ()) (text : String) :
    ((write {} m dest text).1 = .ok () ↔ Named dest) ∧
      ((write {} m dest text).1 = .ok () ∧ (write {} m dest text).2.nodeAt m.cwd dest =
          .ok (.file (Text.Utf8.encode text.toList) documentMode) ↔
        Named dest ∧ Direct m dest) ∧
      ((∀ p path, m.files.walk m.cwd dest false ≠ .ok (.found p (.link path))) →
        Named dest → Direct m dest) ∧
      (¬ Named dest → ∃ f, (write {} m dest text).1 = .error f ∧ f.kind = .io) := by
  have hnamed : (write {} m dest text).1 = .ok () ↔ Named dest := write_eq_ok_iff_named hm h
  refine ⟨hnamed, ?_, ?_, ?_⟩
  · constructor
    · rintro ⟨hwrite, hnode⟩
      exact ⟨hnamed.1 hwrite, (nodeAt_write_iff hm h hwrite).1 hnode⟩
    · rintro ⟨hdest, hdirect⟩
      exact ⟨hnamed.2 hdest, (nodeAt_write_iff hm h (hnamed.2 hdest)).2 hdirect⟩
  · intro hlink hdest
    obtain ⟨spot, hwalk, hentry⟩ := walk_of_named hm hdest (isDirectory_of_check h)
      (parentOf_of_check h).1
    refine direct_of_not_link hm hwalk hentry ?_
    rintro p path rfl
    exact hlink p path hwalk
  · intro hdest
    cases hwrite : (write {} m dest text).1 with
    | ok _ => exact absurd (hnamed.1 hwrite) hdest
    | error f => exact ⟨f, rfl, kind_of_write_eq_error hwrite⟩

/-- A machine with a directory and a file in it. -/
def plainMachine : Machine where
  files := ⟨[(["d"], .directory 0o755), (["d", "doc"], .file [] 0o600)]⟩
  cwd := ["d"]
  searchPath := ""
  tempDir := "/"
  names := fun _ => "a1B2c3"

/-- A file that is replaced, by a path with dots and slashes in it. -/
theorem usable_plain :
    plainMachine.Sound ∧ (check plainMachine "..//d/./doc").1 = .ok () ∧
      (write {} plainMachine "..//d/./doc" "text").1 = .ok () ∧
      (write {} plainMachine "..//d/./doc" "text").2.nodeAt plainMachine.cwd "..//d/./doc" =
        .ok (.file (Text.Utf8.encode "text".toList) documentMode) := by
  have hsound : plainMachine.Sound :=
    ⟨FileSystem.rooted_of_nodes (by decide +kernel), by decide +kernel⟩
  have hcheck : (check plainMachine "..//d/./doc").1 = .ok () := by decide +kernel
  have hnamed : Named "..//d/./doc" :=
    ⟨⟨by decide, by decide, by decide⟩, "doc", by decide, by decide, by decide, by decide⟩
  have hwalk : plainMachine.files.walk plainMachine.cwd "..//d/./doc" false =
      .ok (.found ["d", "doc"] (.file [] 0o600)) := by decide +kernel
  obtain ⟨-, husable, hdirect, -⟩ := usable_iff hsound hcheck "text"
  have hlink : ∀ p path, plainMachine.files.walk plainMachine.cwd "..//d/./doc" false ≠
      .ok (.found p (.link path)) := by
    intro p path
    rw [hwalk]
    simp
  exact ⟨hsound, hcheck, husable.2 ⟨hnamed, hdirect hlink hnamed⟩⟩

/-- Destinations that cannot be moved to, each with the error: a slash or a dot behind a name
that is missing or that of a file. -/
def misnamed : List (String × Errno) :=
  [("missing/", .notDirectory), ("missing/.", .notFound), ("doc/", .notDirectory),
    ("doc/.", .notDirectory)]

/-- The name of a link, by its number. -/
def linkName (n : Nat) : String :=
  String.singleton (Char.ofNat (97 + n))

/-- A machine with a chain of 21 links, the last one to a directory. -/
def chainMachine : Machine where
  files := ⟨(["dir"], .directory 0o755) :: ([linkName 20], .link "dir") ::
    (List.range 20).map fun n => ([linkName n], .link (linkName (n + 1)))⟩
  cwd := []
  searchPath := ""
  tempDir := "/"
  names := fun _ => "a1B2c3"

/-- **Accepted destinations that are not usable**: those that cannot be moved to, and a link
that takes more than half of the links of a walk and stands in its own way. -/
theorem accepted_not_usable :
    (∀ e ∈ misnamed, (check plainMachine e.1).1 = .ok () ∧
      (write {} plainMachine e.1 "text").1 =
        .error (writeFault "failed to move document into place" e.1 e.2.report)) ∧
      ((check chainMachine "a/../a").1 = .ok () ∧
        (write {} chainMachine "a/../a" "text").1 = .ok () ∧
        (write {} chainMachine "a/../a" "text").2.nodeAt chainMachine.cwd "a/../a" =
          .error .notDirectory) ∧
      ¬ ∀ (m : Machine) (dest text : String), m.Sound → (check m dest).1 = .ok () →
        (write {} m dest text).1 = .ok () := by
  have hmisnamed : ∀ e ∈ misnamed, (check plainMachine e.1).1 = .ok () ∧
      (write {} plainMachine e.1 "text").1 =
        .error (writeFault "failed to move document into place" e.1 e.2.report) := by
    decide +kernel
  refine ⟨hmisnamed, by decide +kernel, fun hclaim => ?_⟩
  have hsound : plainMachine.Sound :=
    ⟨FileSystem.rooted_of_nodes (by decide +kernel), by decide +kernel⟩
  obtain ⟨hcheck, hwrite⟩ := hmisnamed ("missing/", .notDirectory) List.mem_cons_self
  rw [hclaim plainMachine "missing/" "text" hsound hcheck] at hwrite
  cases hwrite

end Destination
end Walkthrough
