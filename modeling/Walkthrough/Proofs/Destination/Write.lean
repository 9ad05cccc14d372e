/-
# Writing a document

A write is all or nothing.  If it fails the files are as they were (`files_write_of_error`);
if it succeeds the entry that the destination names holds the whole document, and every other
place holds what it held (`write_eq_ok`).  In between there is a temporary file at a place that
was free (`Created`), so taking it away restores the files, and moving it leaves nothing behind.
-/

import Walkthrough.Destination
import Walkthrough.Proofs.Machine.Temporary

namespace Walkthrough

/-- A node that is created is at a place that was free, and nothing else changes. -/
theorem FileSystem.create_eq_ok {fs fs' : FileSystem} {cwd : Place} {path : String} {n : Node}
    {place : Place} (h : fs.create cwd path n = .ok (place, fs')) :
    place ≠ [] ∧ fs.node? place = none ∧
      ∀ q, fs'.node? q = if q = place then some n else fs.node? q := by
  obtain ⟨rfl, dir, name, slash, rfl, hwalk⟩ := create_eq_put h
  have hne : dir ++ [name] ≠ [] := by simp
  exact ⟨hne, walk_free hwalk, node?_put fs hne n⟩

/-- What is made under a made-up name is at a place that was free. -/
theorem Temporary.make_eq_ok {m : Machine} {dir opening path : String} {n : Node} {place : Place}
    {files : FileSystem} (h : make m dir opening n = .ok (path, place, files)) :
    place ≠ [] ∧ m.files.node? place = none ∧
      ∀ q, files.node? q = if q = place then some n else m.files.node? q :=
  let ⟨_, _, hcreate⟩ := create_of_make h
  FileSystem.create_eq_ok hcreate

/-- A file that is moved is at the entry that the path names, and no longer where it was. -/
theorem FileSystem.moveFile_eq_ok {fs fs' : FileSystem} {source cwd : Place} {path : String}
    {n : Node} (hsource : source ≠ []) (hn : fs.node? source = some n)
    (h : fs.moveFile source cwd path = .ok fs') :
    ∃ spot, fs.walk cwd path false = .ok spot ∧ ∀ q, fs'.node? q =
      if q = spot.place then some n else if q = source then none else fs.node? q := by
  unfold moveFile at h
  rw [hn] at h
  dsimp only at h
  split at h
  · cases h
  rename_i spot hwalk
  refine ⟨spot, hwalk, ?_⟩
  split at h
  · cases h
  split at h
  · split at h
    · cases h
    obtain rfl := Except.ok.inj h
    intro q
    rw [node?_put _ (by simp), node?_erase _ hsource]
    rfl
  · rename_i place old
    split at h
    · cases h
    rename_i hfile
    obtain rfl := Except.ok.inj h
    intro q
    have hplace : place ≠ [] := (walk_found (by simpa using hfile) hwalk).1
    rw [node?_put _ hplace, node?_erase _ hsource]
    rfl

namespace Destination

variable {faults : Faults} {m : Machine} {dest text : String} {bytes : List UInt8}
  {temp : Place}

/-- A destination that is not refused is no directory. -/
theorem isDirectory_of_check {fault : Option Errno} (h : (check m dest fault).1 = .ok ()) :
    m.files.isDirectory m.cwd dest = false := by
  unfold check at h
  dsimp only at h
  split at h
  · cases h
  split at h
  · cases h
  · rename_i hfile
    exact Bool.eq_false_iff.2 hfile

/-! ## The temporary file -/

/-- No name that is made up for a temporary file leads to the place. -/
def Avoided (m : Machine) (dest : String) (x : Place) : Prop :=
  Temporary.Avoids m (parentOf dest) tempOpening x

/-- The temporary file is made at a free place, and at none that made-up names avoid. -/
theorem createTemp_eq_put {files : FileSystem}
    (h : createTemp faults m dest = .ok (temp, files)) :
    files = m.files.put temp (.file [] tempMode) ∧ m.files.node? temp = none ∧
      ∀ x, Avoided m dest x → temp ≠ x := by
  unfold createTemp at h
  dsimp only at h
  split at h
  · cases h
  split at h
  · cases h
  rename_i hmake
  obtain ⟨rfl, rfl⟩ := Prod.mk.inj (Except.ok.inj h)
  exact Temporary.make_eq_put hmake

/-- The place of the temporary file is the one that it was created at. -/
def Created (faults : Faults) (m : Machine) (dest : String) (temp : Place) : Prop :=
  ∃ files, createTemp faults m dest = .ok (temp, files)

theorem Created.free (h : Created faults m dest temp) :
    temp ≠ [] ∧ m.files.node? temp = none ∧ ∀ x, Avoided m dest x → temp ≠ x := by
  obtain ⟨files, hfiles⟩ := h
  obtain ⟨-, hfree, hother⟩ := createTemp_eq_put hfiles
  refine ⟨?_, hfree, hother⟩
  rintro rfl
  rw [FileSystem.node?_nil] at hfree
  cases hfree

/-- Without the temporary file the files are as before. -/
theorem Created.erase_put (h : Created faults m dest temp) (n : Node) :
    (m.files.put temp n).erase temp = m.files := by
  rw [FileSystem.erase_put, FileSystem.erase_of_free m.files h.free.1 h.free.2.1]

/-- The steps behind the creation, whatever the temporary file holds. -/
theorem complete_put (htemp : temp ≠ []) (n : Node) :
    complete faults m dest bytes temp (m.files.put temp n) =
      match faults.write, faults.permissions with
      | some (_, e), _ => .error (writeFault "failed to write document" dest e.report)
      | none, some e => .error (writeFault "failed to set document permissions" dest e.report)
      | none, none => moveIn faults m dest temp (m.files.put temp (.file bytes documentMode)) := by
  unfold complete fill share
  cases faults.write with
  | some fault => rfl
  | none =>
    cases faults.permissions with
    | some e => rfl
    | none => simp [bind, Except.bind, FileSystem.put_put, FileSystem.setMode_put _ htemp]

/-- A write is what becomes of its temporary file. -/
theorem write_of_created (h : Created faults m dest temp) :
    write faults m dest text =
      match complete faults m dest (Text.Utf8.encode text.toList) temp
        (m.files.put temp (.file [] tempMode)) with
      | .ok files => (.ok (), files)
      | .error f => (.error f, m.files) := by
  have hclean := h.erase_put (.file [] tempMode)
  obtain ⟨files, hfiles⟩ := h
  obtain ⟨rfl, -⟩ := createTemp_eq_put hfiles
  rw [write, hfiles]
  dsimp only
  split <;> simp [*]

/-! ## The check -/

/-- **The check leaves no file**: whatever it answers, the files are as they were. -/
theorem files_check (m : Machine) (dest : String) (fault : Option Errno) :
    (check m dest fault).2 = m.files := by
  unfold check
  dsimp only
  split
  · rfl
  split
  · rfl
  split
  · rfl
  split
  · rfl
  split
  · rfl
  · rename_i temp files hmake
    have hcreated : Created {} m dest temp := ⟨files, by rw [createTemp, hmake]⟩
    rw [(Temporary.make_eq_put hmake).1]
    exact hcreated.erase_put _

/-! ## Results -/

theorem kind_of_createTemp_eq_error {f : Fault} (h : createTemp faults m dest = .error f) :
    f.kind = .io := by
  unfold createTemp at h
  dsimp only at h
  split at h
  · exact Except.error.inj h ▸ rfl
  · split at h
    · exact Except.error.inj h ▸ rfl
    · cases h

theorem kind_of_complete_eq_error {f : Fault} {files : FileSystem}
    (h : complete faults m dest bytes temp files = .error f) :
    f.kind = .io := by
  unfold complete at h
  cases hfill : fill faults dest bytes temp files with
  | error f' =>
    obtain rfl : f' = f := by simpa [hfill, bind, Except.bind] using h
    unfold fill at hfill
    split at hfill
    · exact Except.error.inj hfill ▸ rfl
    · cases hfill
  | ok filled =>
    cases hshare : share faults dest temp filled with
    | error f' =>
      obtain rfl : f' = f := by simpa [hfill, hshare, bind, Except.bind] using h
      unfold share at hshare
      split at hshare
      · exact Except.error.inj hshare ▸ rfl
      · cases hshare
    | ok shared =>
      have hmove : moveIn faults m dest temp shared = .error f := by
        simpa [hfill, hshare, bind, Except.bind] using h
      unfold moveIn at hmove
      dsimp only at hmove
      split at hmove
      · exact Except.error.inj hmove ▸ rfl
      · split at hmove
        · exact Except.error.inj hmove ▸ rfl
        · cases hmove

/-- **Writing fails in one way only**: every fault of a write is an i/o fault. -/
theorem kind_of_write_eq_error {f : Fault}
    (h : (write faults m dest text).1 = .error f) : f.kind = .io := by
  unfold write at h
  cases htemp : createTemp faults m dest with
  | error f' =>
    obtain rfl : f' = f := by simpa [htemp] using h
    exact kind_of_createTemp_eq_error htemp
  | ok made =>
    obtain ⟨temp, files⟩ := made
    cases hcomplete : complete faults m dest (Text.Utf8.encode text.toList) temp files with
    | error f' =>
      obtain rfl : f' = f := by simpa [htemp, hcomplete] using h
      exact kind_of_complete_eq_error hcomplete
    | ok files' => simp [htemp, hcomplete] at h

/-- **A write that fails leaves the files as they were.** -/
theorem files_write_of_error {f : Fault} (h : (write faults m dest text).1 = .error f) :
    (write faults m dest text).2 = m.files := by
  cases htemp : createTemp faults m dest with
  | error f' => rw [write, htemp]
  | ok made =>
    rw [write_of_created ⟨made.2, htemp⟩] at h ⊢
    split at h
    · cases h
    · simp [*]

/-- A write that succeeds moves the document from beside the destination onto it. -/
theorem exists_moved_of_write (h : (write faults m dest text).1 = .ok ()) :
    ∃ temp, Created faults m dest temp ∧
      (m.files.put temp (.file (Text.Utf8.encode text.toList) documentMode)).moveFile temp m.cwd
        dest = .ok (write faults m dest text).2 := by
  cases htemp : createTemp faults m dest with
  | error f =>
    rw [write, htemp] at h
    cases h
  | ok made =>
    have hcreated : Created faults m dest made.1 := ⟨made.2, htemp⟩
    refine ⟨made.1, hcreated, ?_⟩
    rw [write_of_created hcreated, complete_put hcreated.free.1] at h ⊢
    cases hwrite : faults.write with
    | some fault => simp [hwrite] at h
    | none =>
      cases hpermissions : faults.permissions with
      | some e => simp [hwrite, hpermissions] at h
      | none =>
        simp only [hwrite, hpermissions] at h ⊢
        unfold moveIn at h ⊢
        cases hrename : faults.rename with
        | some e => simp [hrename] at h
        | none =>
          cases hmove : (m.files.put made.1
              (.file (Text.Utf8.encode text.toList) documentMode)).moveFile made.1 m.cwd dest with
          | error e => simp [hrename, hmove] at h
          | ok files => simp

/-- **A write that succeeds** puts the document at the entry that the destination names, and
leaves every other place as it was. -/
theorem write_eq_ok (h : (write faults m dest text).1 = .ok ()) :
    ∃ spot, m.files.walk m.cwd dest false = .ok spot ∧
      ∀ q, (write faults m dest text).2.node? q =
        if q = spot.place then some (.file (Text.Utf8.encode text.toList) documentMode)
        else m.files.node? q := by
  obtain ⟨temp, hcreated, hmove⟩ := exists_moved_of_write h
  obtain ⟨hne, hfree, -⟩ := hcreated.free
  -- the files that the document is moved in: those before, and the temporary file
  have hready := FileSystem.node?_put m.files hne
    (.file (Text.Utf8.encode text.toList) documentMode)
  obtain ⟨spot', hwalk', hmoved⟩ :=
    FileSystem.moveFile_eq_ok hne (by rw [hready, if_pos rfl]) hmove
  obtain ⟨spot, hwalk, hplace⟩ := FileSystem.walk_place_of_new_file hwalk' hfree hready
  refine ⟨spot, hwalk, fun q => ?_⟩
  rw [hmoved, hready, hplace]
  split
  · rfl
  split
  · rename_i hq
    rw [hq, hfree]
  · rfl

end Destination
end Walkthrough
