/-
# A write from moment to moment

`write` says what a write leaves; here it is taken apart into what can be seen in between
(`Step`).  The temporary file is created, takes the bytes in as many pieces as it likes, gets its
permission bits and is moved; a step that fails is followed by the removal of the file:

```
begun --> filling 0 --> filling n --> filled --> shared --> ended ok
  |           |             |            |         |
  |           +-------------+------------+---------+------> failed --> ended error
  +-----------------------------------------------------------------> ended error
```

What is known at a moment is `Held`; a step keeps it (`Step.held`), and every step brings the end
nearer (`Step.left_lt`).  So a write ends however its steps fall, with the result and the files of
`write`, and until then no place is touched but that of the temporary file (`write_atomic`).

The temporary file gets a made-up name that is free.  No file that is there is ever taken for it;
a destination that is free and is what the generator makes up may be the very one.  And a
destination that holds the document already does not tell a write that succeeded from one that
failed (`not_atomic_without_conditions`).
-/

import Mathlib.Logic.Relation
import Walkthrough.Proofs.Destination.Write

namespace Walkthrough
namespace Destination

/-! ## Moments -/

/-- What comes next in a write. -/
inductive Phase where
  | begun
  /-- So many bytes are in the temporary file. -/
  | filling (temp : Place) (count : Nat)
  /-- All bytes are in the temporary file. -/
  | filled (temp : Place)
  /-- The permission bits are set. -/
  | shared (temp : Place)
  /-- A step has failed, and the temporary file is still there. -/
  | failed (temp : Place) (f : Fault)
  | ended (result : Except Fault Unit)

/-- A write between two steps. -/
structure Moment where
  phase : Phase
  files : FileSystem

/-- How many bytes go into the temporary file: those before writing fails, or all. -/
def Faults.room (faults : Faults) (bytes : List UInt8) : Nat :=
  match faults.write with
  | some (n, _) => min n bytes.length
  | none => bytes.length

/-- The steps of a write. -/
inductive Step (faults : Faults) (m : Machine) (dest : String) (bytes : List UInt8) :
    Moment → Moment → Prop where
  | creates {temp : Place} {files : FileSystem} :
      createTemp faults m dest = .ok (temp, files) →
      Step faults m dest bytes ⟨.begun, m.files⟩ ⟨.filling temp 0, files⟩
  | createFails {f : Fault} :
      createTemp faults m dest = .error f →
      Step faults m dest bytes ⟨.begun, m.files⟩ ⟨.ended (.error f), m.files⟩
  /-- Some more bytes are written. -/
  | grows {temp : Place} {files : FileSystem} {count more : Nat} :
      count < more → more ≤ faults.room bytes →
      Step faults m dest bytes ⟨.filling temp count, files⟩
        ⟨.filling temp more, files.put temp (.file (bytes.take more) tempMode)⟩
  | fills {temp : Place} {files files' : FileSystem} :
      fill faults dest bytes temp files = .ok files' →
      Step faults m dest bytes ⟨.filling temp (faults.room bytes), files⟩ ⟨.filled temp, files'⟩
  | fillFails {temp : Place} {files : FileSystem} {f : Fault} :
      fill faults dest bytes temp files = .error f →
      Step faults m dest bytes ⟨.filling temp (faults.room bytes), files⟩ ⟨.failed temp f, files⟩
  | shares {temp : Place} {files files' : FileSystem} :
      share faults dest temp files = .ok files' →
      Step faults m dest bytes ⟨.filled temp, files⟩ ⟨.shared temp, files'⟩
  | shareFails {temp : Place} {files : FileSystem} {f : Fault} :
      share faults dest temp files = .error f →
      Step faults m dest bytes ⟨.filled temp, files⟩ ⟨.failed temp f, files⟩
  | moves {temp : Place} {files files' : FileSystem} :
      moveIn faults m dest temp files = .ok files' →
      Step faults m dest bytes ⟨.shared temp, files⟩ ⟨.ended (.ok ()), files'⟩
  | moveFails {temp : Place} {files : FileSystem} {f : Fault} :
      moveIn faults m dest temp files = .error f →
      Step faults m dest bytes ⟨.shared temp, files⟩ ⟨.failed temp f, files⟩
  /-- The temporary file is removed. -/
  | cleans {temp : Place} {files : FileSystem} {f : Fault} :
      Step faults m dest bytes ⟨.failed temp f, files⟩ ⟨.ended (.error f), files.erase temp⟩

/-- How far a moment is from the end. -/
def Phase.left (room : Nat) : Phase → Nat
  | .begun => room + 5
  | .filling _ count => room - count + 4
  | .filled _ => 3
  | .shared _ => 2
  | .failed _ _ => 1
  | .ended _ => 0

variable {faults : Faults} {m : Machine} {dest text : String} {bytes : List UInt8}
  {now next : Moment}

/-- **A write ends**: every step brings the end nearer. -/
theorem Step.left_lt (h : Step faults m dest bytes now next) :
    next.phase.left (faults.room bytes) < now.phase.left (faults.room bytes) := by
  cases h with
  | grows hmore hroom =>
    simp only [Phase.left]
    omega
  | creates _ | createFails _ | fills _ | fillFails _ | shares _ | shareFails _ | moves _
  | moveFails _ | cleans => simp [Phase.left]

/-! ## What is held at a moment -/

/-- What is known at a moment: which files there are, and what is certain of the result. -/
def Held (faults : Faults) (m : Machine) (dest text : String) (now : Moment) : Prop :=
  let bytes := Text.Utf8.encode text.toList
  match now.phase with
  | .begun => now.files = m.files
  | .filling temp count => Created faults m dest temp ∧ count ≤ faults.room bytes ∧
      now.files = m.files.put temp (.file (bytes.take count) tempMode)
  | .filled temp => Created faults m dest temp ∧ faults.write = none ∧
      now.files = m.files.put temp (.file bytes tempMode)
  | .shared temp => Created faults m dest temp ∧ faults.write = none ∧ faults.permissions = none ∧
      now.files = m.files.put temp (.file bytes documentMode)
  | .failed temp f => Created faults m dest temp ∧ (write faults m dest text).1 = .error f ∧
      ∃ part mode, part <+: bytes ∧ now.files = m.files.put temp (.file part mode)
  | .ended result => (result, now.files) = write faults m dest text

/-- **A step keeps what is held.** -/
theorem Step.held (h : Step faults m dest (Text.Utf8.encode text.toList) now next)
    (hnow : Held faults m dest text now) : Held faults m dest text next := by
  cases h with
  | creates hcreate =>
    exact ⟨⟨_, hcreate⟩, Nat.zero_le _, (createTemp_eq_put hcreate).1⟩
  | createFails hfails =>
    rw [Held, write, hfails]
  | grows hmore hroom =>
    obtain ⟨hcreated, -, rfl⟩ := hnow
    exact ⟨hcreated, hroom, FileSystem.put_put _ _ _ _⟩
  | fills hfill =>
    obtain ⟨hcreated, -, rfl⟩ := hnow
    unfold fill at hfill
    split at hfill
    · cases hfill
    rename_i hwrite
    obtain rfl := Except.ok.inj hfill
    exact ⟨hcreated, hwrite, FileSystem.put_put _ _ _ _⟩
  | fillFails hfails =>
    obtain ⟨hcreated, -, rfl⟩ := hnow
    unfold fill at hfails
    split at hfails
    · rename_i hwrite
      obtain rfl := Except.error.inj hfails
      refine ⟨hcreated, ?_, _, _, List.take_prefix _ _, rfl⟩
      rw [write_of_created hcreated, complete_put hcreated.free.1, hwrite]
    · cases hfails
  | shares hshare =>
    obtain ⟨hcreated, hwrite, rfl⟩ := hnow
    unfold share at hshare
    split at hshare
    · cases hshare
    rename_i hpermissions
    obtain rfl := Except.ok.inj hshare
    exact ⟨hcreated, hwrite, hpermissions, FileSystem.setMode_put _ hcreated.free.1 _ _ _⟩
  | shareFails hfails =>
    obtain ⟨hcreated, hwrite, rfl⟩ := hnow
    unfold share at hfails
    split at hfails
    · rename_i hpermissions
      obtain rfl := Except.error.inj hfails
      refine ⟨hcreated, ?_, _, _, List.prefix_rfl, rfl⟩
      rw [write_of_created hcreated, complete_put hcreated.free.1, hwrite, hpermissions]
    · cases hfails
  | moves hmove =>
    obtain ⟨hcreated, hwrite, hpermissions, rfl⟩ := hnow
    rw [Held, write_of_created hcreated, complete_put hcreated.free.1, hwrite, hpermissions]
    dsimp only
    rw [hmove]
  | moveFails hfails =>
    obtain ⟨hcreated, hwrite, hpermissions, rfl⟩ := hnow
    refine ⟨hcreated, ?_, _, _, List.prefix_rfl, rfl⟩
    rw [write_of_created hcreated, complete_put hcreated.free.1, hwrite, hpermissions]
    dsimp only
    rw [hfails]
  | cleans =>
    obtain ⟨hcreated, hresult, part, mode, -, rfl⟩ := hnow
    rw [Held, hcreated.erase_put, ← hresult, ← files_write_of_error hresult]

/-- **A write goes on** until it has ended. -/
theorem Held.exists_step (h : Held faults m dest text now) :
    (∃ result, now.phase = .ended result) ∨
      ∃ next, Step faults m dest (Text.Utf8.encode text.toList) now next := by
  obtain ⟨phase, files⟩ := now
  cases phase with
  | begun =>
    obtain rfl : files = m.files := h
    cases hcreate : createTemp faults m dest with
    | error f => exact .inr ⟨_, .createFails hcreate⟩
    | ok made => exact .inr ⟨_, .creates hcreate⟩
  | filling temp count =>
    obtain ⟨-, hroom, -⟩ := h
    rcases Nat.lt_or_eq_of_le hroom with hless | rfl
    · exact .inr ⟨_, .grows hless (Nat.le_refl _)⟩
    · cases hfill : fill faults dest (Text.Utf8.encode text.toList) temp files with
      | error f => exact .inr ⟨_, .fillFails hfill⟩
      | ok files' => exact .inr ⟨_, .fills hfill⟩
  | filled temp =>
    cases hshare : share faults dest temp files with
    | error f => exact .inr ⟨_, .shareFails hshare⟩
    | ok files' => exact .inr ⟨_, .shares hshare⟩
  | shared temp =>
    cases hmove : moveIn faults m dest temp files with
    | error f => exact .inr ⟨_, .moveFails hmove⟩
    | ok files' => exact .inr ⟨_, .moves hmove⟩
  | failed temp f => exact .inr ⟨_, .cleans⟩
  | ended result => exact .inl ⟨result, rfl⟩

/-! ## Runs -/

/-- Steps of a write, one after the other. -/
abbrev Run (faults : Faults) (m : Machine) (dest text : String) : Moment → Moment → Prop :=
  Relation.ReflTransGen (Step faults m dest (Text.Utf8.encode text.toList))

/-- A write that has not begun. -/
def before (m : Machine) : Moment := ⟨.begun, m.files⟩

/-- A write that has ended as `write` does. -/
def after (faults : Faults) (m : Machine) (dest text : String) : Moment :=
  ⟨.ended (write faults m dest text).1, (write faults m dest text).2⟩

/-- What is held is held along a run. -/
theorem Run.held (h : Run faults m dest text now next) (hnow : Held faults m dest text now) :
    Held faults m dest text next := by
  induction h with
  | refl => exact hnow
  | tail _ hstep ih => exact hstep.held ih

theorem held_of_run (h : Run faults m dest text (before m) now) :
    Held faults m dest text now :=
  Run.held h rfl

/-- **A write ends as `write` does**, from whatever moment. -/
theorem Held.run_after (h : Held faults m dest text now) :
    Run faults m dest text now (after faults m dest text) := by
  induction hleft : now.phase.left (faults.room (Text.Utf8.encode text.toList))
    using Nat.strongRecOn generalizing now with
  | _ left ih =>
    rcases h.exists_step with ⟨result, hend⟩ | ⟨next, hstep⟩
    · obtain ⟨phase, files⟩ := now
      obtain rfl : phase = .ended result := hend
      have hresult : (result, files) = write faults m dest text := h
      rw [after, ← hresult]
    · exact .head hstep (ih _ (hleft ▸ hstep.left_lt) (hstep.held h) rfl)

/-! ## Places -/

/-- The place is that of the entry which a destination names. -/
def IsEntryOf (m : Machine) (dest : String) (x : Place) : Prop :=
  ∃ spot, m.files.walk m.cwd dest false = .ok spot ∧ spot.place = x

/-- The place is that of the temporary file, which holds the first bytes. -/
def HasTemporary (faults : Faults) (m : Machine) (dest : String) (bytes : List UInt8)
    (files : FileSystem) (x : Place) : Prop :=
  Created faults m dest x ∧ ∃ part mode, part <+: bytes ∧ files.node? x = some (.file part mode)

/-- **At every moment a place holds what it held**, or it is the one of the destination and holds
the document, or it is the one of the temporary file. -/
theorem Held.node?_cases (h : Held faults m dest text now) (x : Place) :
    let bytes := Text.Utf8.encode text.toList
    now.files.node? x = m.files.node? x ∨
      IsEntryOf m dest x ∧ now.files.node? x = some (.file bytes documentMode) ∨
      HasTemporary faults m dest bytes now.files x := by
  intro bytes
  have hbeside {temp : Place} {part : List UInt8} {mode : Nat}
      (hcreated : Created faults m dest temp) (hpart : part <+: bytes)
      (hfiles : now.files = m.files.put temp (.file part mode)) :
      now.files.node? x = m.files.node? x ∨ HasTemporary faults m dest bytes now.files x := by
    have hput := FileSystem.node?_put m.files hcreated.free.1 (.file part mode) x
    rw [hfiles]
    by_cases hx : x = temp
    · exact .inr ⟨hx ▸ hcreated, part, mode, hpart, hput.trans (if_pos hx)⟩
    · exact .inl (hput.trans (if_neg hx))
  obtain ⟨phase, files⟩ := now
  cases phase with
  | begun =>
    obtain rfl : files = m.files := h
    exact .inl rfl
  | filling temp count =>
    exact (hbeside h.1 (List.take_prefix count bytes) h.2.2).imp_right .inr
  | filled temp => exact (hbeside h.1 List.prefix_rfl h.2.2).imp_right .inr
  | shared temp => exact (hbeside h.1 List.prefix_rfl h.2.2.2).imp_right .inr
  | failed temp f =>
    obtain ⟨hcreated, -, part, mode, hpart, hfiles⟩ := h
    exact (hbeside hcreated hpart hfiles).imp_right .inr
  | ended result =>
    have hend : (result, files) = write faults m dest text := h
    have hfiles : files = (write faults m dest text).2 := congrArg Prod.snd hend
    cases hresult : (write faults m dest text).1 with
    | error f =>
      rw [files_write_of_error hresult] at hfiles
      exact .inl (by rw [hfiles])
    | ok u =>
      obtain ⟨spot, hwalk, hwritten⟩ := write_eq_ok hresult
      rw [← hfiles] at hwritten
      by_cases hx : x = spot.place
      · exact .inr (.inl ⟨⟨spot, hwalk, hx.symm⟩, (hwritten x).trans (if_pos hx)⟩)
      · exact .inl ((hwritten x).trans (if_neg hx))

/-! ## Old or new -/

/-- **A write is atomic**, wherever it fails, if anywhere.

From every moment it goes on to the result and the files of `write`, and it ends in no other way.
At every moment the destination holds what it held or the whole document, unless it was free and
is what the generator makes up for the temporary file; any place holds what it held, or is the
one of the destination and holds the document, or was free and is the one of the temporary file.

Behind a write that succeeds the destination holds the document, and every other place what it
held; behind one that fails the files are as they were.  So a destination that did not hold the
document tells the one from the other.  The check leaves the files as they were in any case. -/
theorem write_atomic (faults : Faults) (m : Machine) (dest text : String) :
    let bytes := Text.Utf8.encode text.toList
    let document : Node := .file bytes documentMode
    let written := write faults m dest text
    (∀ now, Run faults m dest text (before m) now →
      Run faults m dest text now (after faults m dest text) ∧
      (∀ result, now.phase = .ended result → now = after faults m dest text) ∧
      (∀ x, IsEntryOf m dest x → m.files.node? x ≠ none ∨ Avoided m dest x →
        now.files.node? x = m.files.node? x ∨ now.files.node? x = some document) ∧
      ∀ x, now.files.node? x = m.files.node? x ∨
        IsEntryOf m dest x ∧ now.files.node? x = some document ∨
        m.files.node? x = none ∧ HasTemporary faults m dest bytes now.files x) ∧
    (written.1 = .ok () → ∃ x, IsEntryOf m dest x ∧
      ∀ q, written.2.node? q = if q = x then some document else m.files.node? q) ∧
    (∀ f, written.1 = .error f → written.2 = m.files) ∧
    (∀ x, IsEntryOf m dest x → m.files.node? x ≠ some document →
      (written.2.node? x = some document ↔ written.1 = .ok ()) ∧
      (written.2.node? x = m.files.node? x ↔ ∃ f, written.1 = .error f)) ∧
    ∀ fault, (check m dest fault).2 = m.files := by
  intro bytes document written
  refine ⟨fun now hrun => ?_, fun hok => ?_, fun f => files_write_of_error, fun x hx hnew => ?_,
    files_check m dest⟩
  · have hheld := held_of_run hrun
    refine ⟨hheld.run_after, fun result hend => ?_, fun x _ hother => ?_, fun x => ?_⟩
    · obtain ⟨phase, files⟩ := now
      obtain rfl : phase = .ended result := hend
      have hresult : (result, files) = write faults m dest text := hheld
      rw [after, ← hresult]
    · rcases hheld.node?_cases x with hold | ⟨-, hdocument⟩ | ⟨hcreated, -⟩
      · exact .inl hold
      · exact .inr hdocument
      · obtain ⟨-, hfree, havoids⟩ := hcreated.free
        exact hother.elim (absurd hfree) fun hx => absurd rfl (havoids x hx)
    · exact (hheld.node?_cases x).imp_right (.imp_right fun htemp => ⟨htemp.1.free.2.1, htemp⟩)
  · obtain ⟨spot, hwalk, hwritten⟩ := write_eq_ok hok
    exact ⟨spot.place, ⟨spot, hwalk, rfl⟩, hwritten⟩
  · cases hresult : written.1 with
    | error f =>
      rw [files_write_of_error hresult]
      simp [hnew]
    | ok u =>
      obtain ⟨spot, hwalk, hwritten⟩ := write_eq_ok hresult
      obtain ⟨spot', hwalk', rfl⟩ := hx
      obtain rfl : spot' = spot := Except.ok.inj (hwalk'.symm.trans hwalk)
      have hdocument : written.2.node? spot'.place = some document :=
        (hwritten _).trans (if_pos rfl)
      rw [hdocument]
      simp [hnew.symm]

/-- A machine with an old document. -/
def oldMachine : Machine where
  files := ⟨[(["doc"], .file [111] 0o600)]⟩
  cwd := []
  searchPath := ""
  tempDir := "/"
  names := fun _ => "a1B2c3"

/-- A write that fails behind two bytes, seen behind the first one: the byte is in the temporary
file, the old document is in its place, and at the end there is nothing else. -/
theorem write_atomic_cut :
    let faults : Faults := { write := some (2, .denied) }
    ∃ now, Run faults oldMachine "doc" "text" (before oldMachine) now ∧
      now.files.node? [".tmpa1B2c3"] = some (.file [116] tempMode) ∧
      now.files.node? ["doc"] = some (.file [111] 0o600) ∧
      Run faults oldMachine "doc" "text" now (after faults oldMachine "doc" "text") ∧
      (write faults oldMachine "doc" "text").2 = oldMachine.files := by
  intro faults
  let made := oldMachine.files.put [".tmpa1B2c3"] (.file [] tempMode)
  have hcreate : createTemp faults oldMachine "doc" = .ok ([".tmpa1B2c3"], made) := rfl
  have hrun : Run faults oldMachine "doc" "text" (before oldMachine)
      ⟨.filling [".tmpa1B2c3"] 1, made.put [".tmpa1B2c3"] (.file [116] tempMode)⟩ :=
    .tail (.single (.creates hcreate)) (.grows Nat.zero_lt_one (by decide))
  obtain ⟨hruns, -, hfails, -⟩ := write_atomic faults oldMachine "doc" "text"
  obtain ⟨hafter, -, hentry, -⟩ := hruns _ hrun
  have hdoc : IsEntryOf oldMachine "doc" ["doc"] := ⟨.found ["doc"] (.file [111] 0o600), rfl, rfl⟩
  refine ⟨_, hrun, rfl, ?_, hafter, hfails _ rfl⟩
  rcases hentry ["doc"] hdoc (.inl nofun) with hold | hdocument
  · exact hold
  · cases hdocument

/-- **The conditions are needed.**  A write of the document that is there already leaves the
destination as it was and succeeds; one that fails leaves it with the whole document; and a free
destination that the generator makes up is the temporary file itself, which at first is empty. -/
theorem not_atomic_without_conditions :
    (¬ ∀ (faults : Faults) (m : Machine) (dest text : String) (x : Place), IsEntryOf m dest x →
      ((write faults m dest text).2.node? x = m.files.node? x ↔
        ∃ f, (write faults m dest text).1 = .error f)) ∧
    (¬ ∀ (faults : Faults) (m : Machine) (dest text : String) (x : Place), IsEntryOf m dest x →
      ((write faults m dest text).2.node? x =
          some (.file (Text.Utf8.encode text.toList) documentMode) ↔
        (write faults m dest text).1 = .ok ())) ∧
    ¬ ∀ (faults : Faults) (m : Machine) (dest text : String) (now : Moment) (x : Place),
      Run faults m dest text (before m) now → IsEntryOf m dest x →
      now.files.node? x = m.files.node? x ∨
        now.files.node? x = some (.file (Text.Utf8.encode text.toList) documentMode) := by
  -- the document of one letter is in its place
  let written : Machine := { oldMachine with files := ⟨[(["doc"], .file [111] documentMode)]⟩ }
  have hentry : IsEntryOf written "doc" ["doc"] :=
    ⟨.found ["doc"] (.file [111] documentMode), rfl, rfl⟩
  refine ⟨fun hclaim => ?_, fun hclaim => ?_, fun hclaim => ?_⟩
  · obtain ⟨f, hf⟩ := (hclaim {} written "doc" "o" ["doc"] hentry).1 (by decide +kernel)
    have hok : (write {} written "doc" "o").1 = .ok () := by decide +kernel
    cases hok.symm.trans hf
  · have hok := (hclaim { rename := some .denied } written "doc" "o" ["doc"] hentry).1
      (by decide +kernel)
    exact absurd hok (by decide +kernel)
  · have hcreate : createTemp {} oldMachine ".tmpa1B2c3" =
        .ok ([".tmpa1B2c3"], oldMachine.files.put [".tmpa1B2c3"] (.file [] tempMode)) := rfl
    have hfree : IsEntryOf oldMachine ".tmpa1B2c3" [".tmpa1B2c3"] :=
      ⟨.free [] ".tmpa1B2c3" false, rfl, rfl⟩
    rcases hclaim {} oldMachine ".tmpa1B2c3" "text" _ _ (.single (.creates hcreate)) hfree with
      hold | hdocument
    · exact absurd hold (by decide +kernel)
    · exact absurd hdocument (by decide +kernel)

end Destination
end Walkthrough
