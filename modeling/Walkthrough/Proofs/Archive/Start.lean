/-
# Starting to fill an archive

Filling an archive has three stages: all commands are expanded, what lies at the path of the
archive is removed, and the commands are executed.  Only the last one gives anything to the
executor, and only the last two touch the machine.  A fault of the first two stages comes before
everything that could change something (`populate_starts_or_changes_nothing`):

| what cannot be done | the fault | commands | the machine |
| --- | --- | --- | --- |
| a text of the script cannot be filled | `usage`, of the first such text | none | as before |
| the old archive cannot be removed | `io`, with the path of the archive | none | as before |

In every other case the first command of the script is executed.
-/

import Walkthrough.Proofs.Archive.Agreement

namespace Walkthrough

/-! ## Expanding all commands -/

/-- The texts of the run steps that are filled, in order. -/
def Script.texts (s : Script) : List String :=
  s.runs.flatMap fun r => r.spec.texts

/-- The text is the first of a script that cannot be filled. -/
def Script.FirstUnfilled (p : Placeholders) (s : Script) (text : String) : Prop :=
  ∃ before after, s.texts = before ++ text :: after ∧
    (∀ t ∈ before, ∃ filled, p.expandText t = .ok filled) ∧
    ∀ filled, p.expandText text ≠ .ok filled

/-- Every command of a script can be expanded. -/
def Script.Expands (p : Placeholders) (s : Script) : Prop :=
  ∀ run ∈ s.runs, ∃ c, p.expand run.spec = .ok c

namespace Script

variable {p : Placeholders} {s : Script}

/-- Run steps have tasks exactly if each of them can be expanded. -/
theorem exists_tasksOf_iff {runs : List Run} :
    (∃ tasks, tasksOf p runs = .ok tasks) ↔ ∀ run ∈ runs, ∃ c, p.expand run.spec = .ok c := by
  induction runs with
  | nil => simp [tasksOf]
  | cons run rest ih =>
    rw [List.forall_mem_cons, ← ih]
    constructor
    · rintro ⟨tasks, htasks⟩
      obtain ⟨t, ts, ht, hts, -⟩ := tasksOf_cons_eq_ok_iff.1 htasks
      obtain ⟨c, hc, -⟩ := Run.task_eq_ok_iff.1 ht
      exact ⟨⟨c, hc⟩, ts, hts⟩
    · rintro ⟨⟨c, hc⟩, ts, hts⟩
      exact ⟨_, tasksOf_cons_eq_ok_iff.2 ⟨_, ts, Run.task_eq_ok_iff.2 ⟨c, hc, rfl⟩, hts, rfl⟩⟩

/-- The fault of a script is that of the first text that cannot be filled. -/
theorem firstUnfilled_of_tasks_eq_error {f : Fault} (h : s.tasks p = .error f) :
    ∃ text, s.FirstUnfilled p text ∧ f = Placeholders.noOutputFault text := by
  obtain ⟨before, text, after, htexts, htext, hbefore⟩ :=
    List.findSome?_eq_some_iff.1 (tasksOf_eq_error_iff.1 h)
  have herror := Placeholders.textFault?_eq_some_iff.1 htext
  refine ⟨text, ⟨before, after, htexts, fun t ht => ?_, fun filled hfilled => ?_⟩, ?_⟩
  · exact Placeholders.textFault?_eq_none_iff.1 (hbefore t ht)
  · rw [herror] at hfilled
    cases hfilled
  · exact (Placeholders.expandText_eq_error herror).2

end Script

namespace Archive

variable {σ τ : Type}

/-! ## Removing the old archive -/

section

variable {path : String} {d : Desk (Machine × τ)}

theorem removeStale_of_not_there (h : d.state.1.files.isThere d.state.1.cwd path = false) :
    removeStale path d = (.ok (), d) := by
  simp [removeStale, h]

theorem removeStale_of_error {e : Errno} (h : d.state.1.files.isThere d.state.1.cwd path = true)
    (hremove : d.state.1.files.remove d.state.1.cwd path = .error e) :
    removeStale path d = (.error (staleFault path e), d.note (.removingArchive path)) := by
  simp [removeStale, h, hremove, Desk.note]

theorem removeStale_of_removed {files : FileSystem}
    (h : d.state.1.files.isThere d.state.1.cwd path = true)
    (hremove : d.state.1.files.remove d.state.1.cwd path = .ok files) :
    removeStale path d = (.ok (), { d.note (.removingArchive path) with
      state := ({ d.state.1 with files }, d.state.2) }) := by
  simp [removeStale, h, hremove, Desk.note]

/-- What is not there, or can be removed, is cleared away without a command. -/
theorem exists_removeStale_eq_ok (h : d.state.1.files.isThere d.state.1.cwd path = true →
    ∃ files, d.state.1.files.remove d.state.1.cwd path = .ok files) :
    ∃ d', removeStale path d = (.ok (), d') ∧ d'.calls = d.calls := by
  cases hthere : d.state.1.files.isThere d.state.1.cwd path with
  | false => exact ⟨d, removeStale_of_not_there hthere, rfl⟩
  | true =>
    obtain ⟨files, hfiles⟩ := h hthere
    exact ⟨_, removeStale_of_removed hthere hfiles, rfl⟩

end

/-! ## The three stages -/

section

variable {ex : Executor (Machine × τ)} {path : String} {script : Script} {p : Placeholders}
  {d d' : Desk (Machine × τ)} {tasks : List Task} {f : Fault}

theorem populate_of_unfilled (h : script.tasks p = .error f) :
    populate ex path script p d = (.error f, d) := by
  rw [populate, h]

theorem populate_of_kept (h : script.tasks p = .ok tasks)
    (hstale : removeStale path d = (.error f, d')) :
    populate ex path script p d = (.error f, d') := by
  rw [populate, h, hstale]

theorem populate_of_cleared (h : script.tasks p = .ok tasks)
    (hstale : removeStale path d = (.ok (), d')) :
    populate ex path script p d = runTasks ex tasks {} d' := by
  rw [populate, h, hstale]

end

/-- The commands given to the executor are those of the first tasks, of one at least if there
is one. -/
theorem exists_executed_runTasks (ex : Executor σ) (tasks : List Task) (n : Counts) (d : Desk σ) :
    ∃ executed, executed <+: tasks ∧ (tasks ≠ [] → executed ≠ []) ∧
      (runTasks ex tasks n d).2.calls = d.calls ++ executed.map Task.command := by
  induction tasks generalizing n d with
  | nil => exact ⟨[], List.nil_prefix, absurd rfl, (List.append_nil _).symm⟩
  | cons t rest ih =>
    have hcalls := calls_runChecked ex t.command t.allowFail d
    cases hrun : (runChecked ex t.command t.allowFail d).1 with
    | error f =>
      rw [runTasks_cons_of_error rest n hrun]
      exact ⟨[t], ⟨rest, rfl⟩, fun _ => List.cons_ne_nil t [], hcalls⟩
    | ok o =>
      obtain ⟨executed, hprefix, -, hexecuted⟩ :=
        ih (n.add o) (runChecked ex t.command t.allowFail d).2
      rw [runTasks_cons_of_ok rest n hrun]
      refine ⟨t :: executed, List.cons_prefix_cons.2 ⟨rfl, hprefix⟩,
        fun _ => List.cons_ne_nil t executed, ?_⟩
      rw [hexecuted, hcalls, List.append_assoc]
      rfl

/-- **What cannot start changes nothing.**  If a command of the script cannot be expanded, the
fault is the one of the first text that cannot be filled, and the desk is as before.  If the old
archive is there and cannot be removed, the fault names its path, nothing is given to the
executor, and the machine is as before.  In every other case the first command of the script is
given to the executor. -/
theorem populate_starts_or_changes_nothing (ex : Executor (Machine × τ)) (path : String)
    (script : Script) (p : Placeholders) (d : Desk (Machine × τ)) :
    let filled := populate ex path script p d
    let m := d.state.1
    (¬ script.Expands p → ∃ text f, script.FirstUnfilled p text ∧
      f.kind = .usage ∧ f.command = some text ∧ filled = (.error f, d)) ∧
    (script.Expands p → ∀ e, m.files.isThere m.cwd path = true →
      m.files.remove m.cwd path = .error e → ∃ f, f.kind = .io ∧ f.path = some path ∧
        filled.1 = .error f ∧ filled.2.calls = d.calls ∧ filled.2.state = d.state) ∧
    (script.Expands p → (m.files.isThere m.cwd path = true →
      ∃ files, m.files.remove m.cwd path = .ok files) →
      ∀ run rest, script.runs = run :: rest →
        ∃ c more, p.expand run.spec = .ok c ∧ filled.2.calls = d.calls ++ c :: more) := by
  intro filled m
  refine ⟨fun hnot => ?_, fun hexpands e hthere hremove => ?_,
    fun hexpands hremove run rest hruns => ?_⟩
  · cases htasks : script.tasks p with
    | ok tasks => exact absurd (Script.exists_tasksOf_iff.1 ⟨tasks, htasks⟩) hnot
    | error f =>
      obtain ⟨text, hfirst, rfl⟩ := Script.firstUnfilled_of_tasks_eq_error htasks
      exact ⟨text, _, hfirst, rfl, rfl, populate_of_unfilled htasks⟩
  · obtain ⟨tasks, htasks⟩ := Script.exists_tasksOf_iff.2 hexpands
    have hfilled : filled = _ := populate_of_kept htasks (removeStale_of_error hthere hremove)
    exact ⟨staleFault path e, rfl, rfl, by rw [hfilled], by rw [hfilled]; rfl,
      by rw [hfilled]; rfl⟩
  · obtain ⟨tasks, htasks⟩ := Script.exists_tasksOf_iff.2 hexpands
    obtain ⟨d', hstale, hcalls⟩ := exists_removeStale_eq_ok hremove
    have hfilled : filled = _ := populate_of_cleared htasks hstale
    rw [hruns] at htasks
    obtain ⟨t, ts, ht, -, rfl⟩ := Script.tasksOf_cons_eq_ok_iff.1 htasks
    obtain ⟨c, hc, rfl⟩ := Script.Run.task_eq_ok_iff.1 ht
    obtain ⟨executed, hprefix, hne, hexecuted⟩ :=
      exists_executed_runTasks ex (⟨c, run.allowFail, run.noOutput⟩ :: ts) {} d'
    cases executed with
    | nil => exact absurd rfl (hne (List.cons_ne_nil _ _))
    | cons t more =>
      obtain ⟨rfl, -⟩ := List.cons_prefix_cons.1 hprefix
      exact ⟨c, more.map Task.command, hc, by rw [hfilled, hexecuted, hcalls]; rfl⟩

/-- A script that names the archive in its last argument where there is none, an archive that is
a directory, and one that is not there. -/
theorem populate_starts_or_changes_nothing_rehearsed :
    let d : Desk (Machine × List Rehearsal.Cue) :=
      ⟨(⟨⟨[(["a"], .directory 0o755)]⟩, [], "", "/", 0, fun _ => "a1B2c3", 0⟩, []), [], []⟩
    let named : Script :=
      ⟨0, [.run ⟨.line "ls", false, false⟩, .run ⟨.argv ["ls", "-\x7boutput\x7d"], true, false⟩]⟩
    let listed : Script := ⟨0, [.doc "text", .run ⟨.line "ls", false, false⟩]⟩
    let fill := populate (offMachine Rehearsal.executor)
    (∃ f, f.kind = .usage ∧ fill "/b" named ⟨["t"], "/", none⟩ d = (.error f, d)) ∧
      (∃ f, f.kind = .io ∧ (fill "/a" listed ⟨["t"], "/", none⟩ d).1 = .error f) ∧
      ∃ c more, (fill "/b" listed ⟨["t"], "/", none⟩ d).2.calls = d.calls ++ c :: more := by
  intro d named listed fill
  have hlisted : listed.Expands ⟨["t"], "/", none⟩ :=
    Script.exists_tasksOf_iff.1 ⟨_, rfl⟩
  have hnamed : ¬ named.Expands ⟨["t"], "/", none⟩ := by
    intro hexpands
    obtain ⟨tasks, htasks⟩ := Script.exists_tasksOf_iff.2 hexpands
    cases htasks
  obtain ⟨hunfilled, -, -⟩ := populate_starts_or_changes_nothing
    (offMachine Rehearsal.executor) "/b" named ⟨["t"], "/", none⟩ d
  obtain ⟨-, hkept, -⟩ := populate_starts_or_changes_nothing
    (offMachine Rehearsal.executor) "/a" listed ⟨["t"], "/", none⟩ d
  obtain ⟨-, -, hstarted⟩ := populate_starts_or_changes_nothing
    (offMachine Rehearsal.executor) "/b" listed ⟨["t"], "/", none⟩ d
  obtain ⟨-, f, -, hf, -, hfilled⟩ := hunfilled hnamed
  obtain ⟨g, hg, -, hkeeps, -⟩ := hkept hlisted .isDirectory rfl rfl
  obtain ⟨c, more, -, hcalls⟩ := hstarted hlisted nofun _ [] rfl
  exact ⟨⟨f, hf, hfilled⟩, ⟨g, hg, hkeeps⟩, c, more, hcalls⟩

end Archive
end Walkthrough
