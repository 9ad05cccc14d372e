/-
# Made-up names

What is made under a made-up name is put at a place that was free, and nothing else is done to
the files (`make_eq_put`).  That place is the one a name of the generator leads to; so a place
that the names avoid is never the one, although it may be free (`Avoids`).
-/

import Walkthrough.Machine.Temporary
import Walkthrough.Proofs.Machine.Walk

namespace Walkthrough

/-- What is created is put at a free place, and the path leads there. -/
theorem FileSystem.create_eq_put {fs fs' : FileSystem} {cwd : Place} {path : String} {n : Node}
    {place : Place} (h : fs.create cwd path n = .ok (place, fs')) :
    fs' = fs.put place n ∧ ∃ dir name slash, place = dir ++ [name] ∧
      fs.walk cwd path false = .ok (.free dir name slash) := by
  unfold create at h
  split at h
  · cases h
  · cases h
  · rename_i dir name slash hwalk
    split at h
    · cases h
    split at h
    · cases h
    obtain ⟨rfl, rfl⟩ := Prod.mk.inj (Except.ok.inj h)
    exact ⟨rfl, dir, name, slash, rfl, hwalk⟩

namespace Temporary

variable {m : Machine} {dir opening path : String} {n : Node} {place : Place}
  {files : FileSystem}

/-- No name that is made up in a directory leads to the place. -/
def Avoids (m : Machine) (dir opening : String) (x : Place) : Prop :=
  ∀ number spot, m.files.walk m.cwd (pathIn m dir opening number) false = .ok spot →
    spot.place ≠ x

theorem create_of_makeFrom {tries number : Nat}
    (h : makeFrom m dir opening n tries number = .ok (path, place, files)) :
    ∃ k, path = pathIn m dir opening k ∧ m.files.create m.cwd path n = .ok (place, files) := by
  induction tries generalizing number with
  | zero => cases h
  | succ tries ih =>
    unfold makeFrom at h
    dsimp only at h
    split at h
    · rename_i hcreate
      obtain ⟨rfl, hrest⟩ := Prod.mk.inj (Except.ok.inj h)
      obtain ⟨rfl, rfl⟩ := Prod.mk.inj hrest
      exact ⟨number, rfl, hcreate⟩
    · exact ih h
    · cases h

/-- What is made is created at the path of a made-up name. -/
theorem create_of_make (h : make m dir opening n = .ok (path, place, files)) :
    ∃ k, path = pathIn m dir opening k ∧ m.files.create m.cwd path n = .ok (place, files) :=
  create_of_makeFrom h

/-- **What is made is put at a place that was free**, and at none that the names avoid. -/
theorem make_eq_put (h : make m dir opening n = .ok (path, place, files)) :
    files = m.files.put place n ∧ m.files.node? place = none ∧
      ∀ x, Avoids m dir opening x → place ≠ x := by
  obtain ⟨k, rfl, hcreate⟩ := create_of_make h
  obtain ⟨hput, d, w, slash, rfl, hwalk⟩ := FileSystem.create_eq_put hcreate
  exact ⟨hput, FileSystem.walk_free hwalk, fun x hx => hx k _ hwalk⟩

end Temporary
end Walkthrough
