/-
# The old archive at the first command

Before the first command of a script is executed, what lies at the path of the archive is
removed.  Whether something lies there is asked with links followed, and the removal does not
follow them.  So what the first command finds at the path depends on what was there:

| at the path | the first command finds |
| --- | --- |
| nothing | nothing |
| a file, or a link to a file or a directory | nothing |
| a directory | there is no first command |
| a link that leads to nothing | the link |

A link that leads nowhere stays, and a command that writes to the path writes to what the link
points at (`first_command_finds_iff`).

What a command finds is seen through an executor that notes it (`noting`) and else does what the
noted one does: everything else is the same for the two (`populate_map`).
-/

import Walkthrough.Proofs.Archive.Start
import Walkthrough.Proofs.Machine.Entry

namespace Walkthrough

/-- The path names an entry of a directory, links at its end not followed. -/
def Machine.Names (m : Machine) (path : String) : Prop :=
  ∃ place n, m.files.walk m.cwd path false = .ok (.found place n)

/-- The path names a link that leads to nothing. -/
def Machine.NamesDeadLink (m : Machine) (path : String) : Prop :=
  (∃ place target, m.files.walk m.cwd path false = .ok (.found place (.link target))) ∧
    m.files.isThere m.cwd path = false

namespace FileSystem

/-- What a path names it leads to, unless it is a link. -/
theorem exists_link_of_not_there {fs : FileSystem} {cwd : Place} {path : String} {place : Place}
    {n : Node} (h : fs.walk cwd path false = .ok (.found place n))
    (hthere : fs.isThere cwd path = false) : ∃ target, n = .link target := by
  by_contra hlink
  obtain ⟨hpath, hleads⟩ := walk_eq_ok_iff.1 h
  have hfollowed : fs.walk cwd path true = .ok (.found place n) := by
    refine walk_eq_ok_iff.2 ⟨hpath, hleads.followed ?_⟩
    rintro place' target ⟨⟩
    exact hlink ⟨target, rfl⟩
  rw [isThere, nodeAt, hfollowed] at hthere
  cases hthere

end FileSystem

/-! ## Executors that keep more -/

section

variable {σ σ' : Type}

/-- A desk with its state seen through a function. -/
def Desk.map (f : σ → σ') (d : Desk σ) : Desk σ' :=
  ⟨f d.state, d.calls, d.log⟩

/-- Seen through the function, the first executor does what the second does. -/
def Executor.Shows (f : σ → σ') (ex : Executor σ) (ex' : Executor σ') : Prop :=
  ∀ c st, ex' c (f st) = ((ex c st).1, f (ex c st).2)

variable {f : σ → σ'} {ex : Executor σ} {ex' : Executor σ'}

theorem Desk.execute_map (h : Executor.Shows f ex ex') (c : CommandLine) (d : Desk σ) :
    (d.map f).execute ex' c = ((d.execute ex c).1, (d.execute ex c).2.map f) := by
  have hanswer := h c d.state
  rw [Desk.execute, Desk.execute, Desk.map, hanswer]
  dsimp only
  split <;> rfl

theorem runChecked_map (h : Executor.Shows f ex ex') (c : CommandLine) (allowFail : Bool)
    (d : Desk σ) :
    runChecked ex' c allowFail (d.map f) =
      ((runChecked ex c allowFail d).1, (runChecked ex c allowFail d).2.map f) := by
  have hexecute : ((d.map f).note (.executing c.display)).execute ex' c = _ :=
    Desk.execute_map h c (d.note (.executing c.display))
  rw [runChecked, runChecked, hexecute]
  cases (d.note (.executing c.display)).execute ex c with
  | mk answer d' =>
    cases answer with
    | error f => rfl
    | ok o => cases hs : o.success <;> cases allowFail <;> simp [hs, Desk.map, Desk.note]

end

namespace Archive

section

variable {σ σ' τ τ' : Type}

theorem runTasks_map {f : σ → σ'} {ex : Executor σ} {ex' : Executor σ'}
    (h : Executor.Shows f ex ex') (tasks : List Task) (n : Counts) (d : Desk σ) :
    runTasks ex' tasks n (d.map f) =
      ((runTasks ex tasks n d).1, (runTasks ex tasks n d).2.map f) := by
  induction tasks generalizing n d with
  | nil => rfl
  | cons t rest ih =>
    rw [runTasks, runTasks, runChecked_map h]
    cases runChecked ex t.command t.allowFail d with
    | mk answer d' =>
      cases answer with
      | error f => rfl
      | ok o => exact ih (n.add o) d'

variable {g : τ → τ'}

theorem removeStale_map (path : String) (d : Desk (Machine × τ)) :
    removeStale path (d.map (Prod.map id g)) =
      ((removeStale path d).1, (removeStale path d).2.map (Prod.map id g)) := by
  rw [removeStale, removeStale, Desk.map]
  dsimp only [Prod.map_fst, id_eq]
  split
  · rfl
  · split <;> rfl

/-- **What is kept besides changes nothing.** -/
theorem populate_map {ex : Executor (Machine × τ)} {ex' : Executor (Machine × τ')}
    (h : Executor.Shows (Prod.map id g) ex ex') (path : String) (script : Script)
    (p : Placeholders) (d : Desk (Machine × τ)) :
    populate ex' path script p (d.map (Prod.map id g)) =
      ((populate ex path script p d).1, (populate ex path script p d).2.map (Prod.map id g)) := by
  rw [populate, populate]
  cases script.tasks p with
  | error f => rfl
  | ok tasks =>
    dsimp only
    rw [removeStale_map]
    cases removeStale path d with
    | mk answer d' =>
      cases answer with
      | error f => rfl
      | ok u => exact runTasks_map h tasks {} d'

end

/-! ## Noting what commands find -/

section

variable {τ : Type}

/-- An executor that notes the machine that each command finds. -/
def noting (ex : Executor (Machine × τ)) : Executor (Machine × τ × List Machine) :=
  fun c st =>
    let answer := ex c (st.1, st.2.1)
    (answer.1, answer.2.1, answer.2.2, st.2.2 ++ [st.1])

/-- A desk at which nothing is noted. -/
def blank (d : Desk (Machine × τ)) : Desk (Machine × τ × List Machine) :=
  ⟨(d.state.1, d.state.2, []), d.calls, d.log⟩

/-- A desk without what is noted. -/
def forget (d : Desk (Machine × τ × List Machine)) : Desk (Machine × τ) :=
  d.map (Prod.map id Prod.fst)

/-- What is noted at a desk. -/
def noted (d : Desk (Machine × τ × List Machine)) : List Machine :=
  d.state.2.2

variable (ex : Executor (Machine × τ))

theorem shows_noting : Executor.Shows (Prod.map id Prod.fst) (noting ex) ex :=
  fun _ _ => rfl

theorem noted_runChecked (c : CommandLine) (allowFail : Bool)
    (d : Desk (Machine × τ × List Machine)) :
    noted (runChecked (noting ex) c allowFail d).2 = noted d ++ [d.state.1] := by
  rw [noted, state_runChecked]
  rfl

/-- **One machine is noted for each command**, and for the first one that of the desk. -/
theorem exists_noted_runTasks (tasks : List Task) (n : Counts)
    (d : Desk (Machine × τ × List Machine)) :
    let run := runTasks (noting ex) tasks n d
    ∃ found, noted run.2 = noted d ++ found ∧
      run.2.calls.length = d.calls.length + found.length ∧
      ∀ first, found.head? = some first → first = d.state.1 := by
  intro run
  induction tasks generalizing n d with
  | nil => exact ⟨[], (List.append_nil _).symm, rfl, nofun⟩
  | cons t rest ih =>
    have hnoted := noted_runChecked ex t.command t.allowFail d
    have hcalls := calls_runChecked (noting ex) t.command t.allowFail d
    have hhead (found : List Machine) (first : Machine)
        (h : (d.state.1 :: found).head? = some first) : first = d.state.1 :=
      (Option.some.inj h).symm
    cases hrun : (runChecked (noting ex) t.command t.allowFail d).1 with
    | error f =>
      have hend : run = _ := runTasks_cons_of_error rest n hrun
      exact ⟨[d.state.1], by rw [hend, hnoted], by rw [hend, hcalls, List.length_append]; rfl,
        hhead []⟩
    | ok o =>
      have hgo : run = _ := runTasks_cons_of_ok rest n hrun
      obtain ⟨found, hmore, hlength, -⟩ :=
        ih (n.add o) (runChecked (noting ex) t.command t.allowFail d).2
      refine ⟨d.state.1 :: found, ?_, ?_, hhead found⟩
      · rw [hgo, hmore, hnoted, List.append_assoc, List.singleton_append]
      · rw [hgo, hlength, hcalls, List.length_append, List.length_cons]
        exact Nat.add_right_comm _ 1 _

end

/-- **What the removal leaves at the path of the archive.**  Nothing, unless the path named a
link that leads to nothing: then nothing is removed. -/
theorem names_removeStale_iff {τ : Type} {path : String} {d d' : Desk (Machine × τ)}
    (hm : d.state.1.Sound) (h : removeStale path d = (.ok (), d')) :
    (d'.state.1.Names path ↔ d.state.1.NamesDeadLink path) ∧
      (d.state.1.NamesDeadLink path → d'.state.1 = d.state.1) := by
  cases hthere : d.state.1.files.isThere d.state.1.cwd path with
  | false =>
    rw [removeStale_of_not_there hthere] at h
    obtain rfl : d = d' := congrArg Prod.snd h
    refine ⟨⟨?_, ?_⟩, fun _ => rfl⟩
    · rintro ⟨place, n, hnames⟩
      obtain ⟨target, rfl⟩ := FileSystem.exists_link_of_not_there hnames hthere
      exact ⟨⟨place, target, hnames⟩, hthere⟩
    · rintro ⟨⟨place, target, hlink⟩, -⟩
      exact ⟨place, .link target, hlink⟩
  | true =>
    have hlive : ¬ d.state.1.NamesDeadLink path := fun hdead => by
      rw [hdead.2] at hthere
      cases hthere
    cases hremove : d.state.1.files.remove d.state.1.cwd path with
    | error e =>
      rw [removeStale_of_error hthere hremove] at h
      cases congrArg Prod.fst h
    | ok files =>
      rw [removeStale_of_removed hthere hremove] at h
      obtain rfl := congrArg Prod.snd h
      have hgone : ¬ Machine.Names { d.state.1 with files } path := fun ⟨place, n, hnames⟩ =>
        FileSystem.not_found_of_remove hm.rooted hm.cwd hremove place n hnames
      exact ⟨iff_of_false hgone hlive, fun hdead => absurd hdead hlive⟩

/-- **What the first command finds at the path of the archive.**  Nothing, unless the path named
a link that leads to nothing: that link is still there, on the machine as it was.

The files are those of a privileged process, which searches every directory and removes from it;
an old archive behind a directory that may not be searched is not among the states. -/
theorem first_command_finds_iff {τ : Type} (ex : Executor (Machine × τ)) (path : String)
    (script : Script) (p : Placeholders) {d : Desk (Machine × τ)} (hm : d.state.1.Sound) :
    let m := d.state.1
    let run := populate (noting ex) path script p (blank d)
    populate ex path script p d = (run.1, forget run.2) ∧
      run.2.calls.length = d.calls.length + (noted run.2).length ∧
      ∀ first, (noted run.2).head? = some first →
        (first.Names path ↔ m.NamesDeadLink path) ∧ (m.NamesDeadLink path → first = m) := by
  intro m run
  refine ⟨populate_map (shows_noting ex) path script p (blank d), ?_⟩
  cases htasks : script.tasks p with
  | error f =>
    have hrun : run = (.error f, blank d) := populate_of_unfilled htasks
    rw [hrun]
    exact ⟨rfl, nofun⟩
  | ok tasks =>
    obtain ⟨hcalls, hkept⟩ := removeStale_frame path (blank d)
    cases hstale : removeStale path (blank d) with
    | mk answer d' =>
      rw [hstale] at hcalls hkept
      have hblank : noted d' = [] := congrArg Prod.snd hkept
      cases answer with
      | error f =>
        have hrun : run = (.error f, d') := populate_of_kept htasks hstale
        rw [hrun, hblank, hcalls]
        exact ⟨rfl, nofun⟩
      | ok u =>
        have hrun : run = runTasks (noting ex) tasks {} d' := populate_of_cleared htasks hstale
        obtain ⟨found, hfound, hlength, hfirst⟩ := exists_noted_runTasks ex tasks {} d'
        rw [hrun, hfound, hblank, List.nil_append, hlength, hcalls]
        refine ⟨rfl, fun first hhead => ?_⟩
        obtain rfl := hfirst first hhead
        exact names_removeStale_iff (d := blank d) hm hstale

/-- A machine with a file, a link to it, and a link to nothing. -/
def linkMachine : Machine where
  files := ⟨[(["f"], .file [] 0o644), (["a"], .link "f"), (["b"], .link "c")]⟩
  cwd := []
  searchPath := ""
  tempDir := "/"
  names := fun _ => "a1B2c3"

theorem sound_linkMachine : linkMachine.Sound :=
  ⟨FileSystem.rooted_of_nodes (by decide +kernel), by decide +kernel⟩

/-- A script of one command, which is answered from a queue. -/
def listing (path : String) :
    Except Fault Counts × Desk (Machine × List Rehearsal.Cue × List Machine) :=
  populate (noting (offMachine Rehearsal.executor)) path
    ⟨0, [.run ⟨.line "ls", false, false⟩]⟩ ⟨["t"], "/", none⟩ (blank ⟨(linkMachine, []), [], []⟩)

/-- A link to a file is gone at the first command, and the file is not. -/
theorem first_command_finds_iff_link :
    linkMachine.Sound ∧ ∃ first, (noted (listing "a").2).head? = some first ∧
      ¬ first.Names "a" ∧ first.Names "f" := by
  obtain ⟨-, -, hfinds⟩ := first_command_finds_iff (offMachine Rehearsal.executor) "a"
    ⟨0, [.run ⟨.line "ls", false, false⟩]⟩ ⟨["t"], "/", none⟩
    (d := ⟨(linkMachine, []), [], []⟩) sound_linkMachine
  let swept : Machine :=
    { linkMachine with files := ⟨[(["f"], .file [] 0o644), (["b"], .link "c")]⟩ }
  have hfirst : (noted (listing "a").2).head? = some swept := rfl
  have hlive : ¬ linkMachine.NamesDeadLink "a" := fun hdead =>
    absurd hdead.2 (by decide +kernel)
  exact ⟨sound_linkMachine, swept, hfirst, fun hnames => hlive ((hfinds swept hfirst).1.1 hnames),
    ["f"], .file [] 0o644, by decide +kernel⟩

/-- A link to nothing is still there at the first command. -/
theorem first_command_finds_dead_link :
    linkMachine.Sound ∧ (listing "b").1 = .ok ⟨1, 0⟩ ∧
      ¬ ∀ first, (noted (listing "b").2).head? = some first → ¬ first.Names "b" := by
  refine ⟨sound_linkMachine, rfl, fun hclaim => ?_⟩
  exact hclaim linkMachine rfl ⟨["b"], .link "c", by decide +kernel⟩

end Archive
end Walkthrough
