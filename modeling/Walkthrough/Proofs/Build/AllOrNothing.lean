/-
# Builds that are all or nothing

A build goes through a dozen operations, and each can be the last.  It leaves its
destination alone until the document is complete, and then puts it there in one move.  So a
build that fails leaves the destination as it was and no file of its own beside it, and one
that succeeds leaves the whole document there (`generate_all_or_nothing`).  Its one working
directory is kept on both ways out, or its removal is tried on both; only an overflow ends the
program before anything can be kept (`goesOn`).

The removal is tried once and nobody asks how it went.  So the working directory is not always
gone: nothing of it is left exactly if its path still leads to a directory or a link and the
removal does not break off (`FileSystem.Removal`), and a command that puts a file in its place
makes a build leave that file (`not_removed_of_replaced`).

The files of a build are followed from operation to operation: the working directory is made
at a free place, the commands do what they do, the write changes one entry or none
(`perform_cases`), and the removal takes away one subtree or nothing.
-/

import Walkthrough.Proofs.Build.Refusal
import Walkthrough.Proofs.Destination.Write

namespace Walkthrough

/-! ## The machine behind commands -/

theorem Runner.cwd_awaitEnding (faults : Faults) (c : CommandLine) (s : Settings) (m : Machine)
    (ending : Ending) : (awaitEnding faults c s m ending).2.cwd = m.cwd := by
  unfold awaitEnding
  split
  · rfl
  · split
    · rfl
    · split <;> rfl
  · dsimp only
    split <;> rfl

/-- A command does not change the current directory. -/
theorem Runner.cwd_executor (k : Kernel) (mishaps : Mishaps) (s : Settings) (c : CommandLine)
    (m : Machine) : (executor k mishaps s c m).2.cwd = m.cwd := by
  unfold executor
  dsimp only
  split
  · rfl
  · rfl
  · unfold launch
    split
    · rfl
    split
    · rfl
    · exact cwd_awaitEnding _ c s _ _

theorem Runner.cwd_stateAfter (k : Kernel) (mishaps : Mishaps) (s : Settings)
    (cs : List CommandLine) (m : Machine) :
    (Executor.stateAfter (executor k mishaps s) cs m).cwd = m.cwd := by
  induction cs generalizing m with
  | nil => rfl
  | cons c cs ih => exact (ih _).trans (cwd_executor k mishaps s c m)

/-- A text has as many bytes as it says. -/
theorem Text.Utf8.length_encode (text : String) :
    (encode text.toList).length = text.utf8ByteSize := by
  rw [String.utf8ByteSize, ← String.utf8Encode_toList, List.utf8Encode, encode,
    List.size_toByteArray]

namespace Build

variable {k : Kernel} {faults : Faults} {c : Config} {d : Desk Machine}

/-- The desk `d'` is `d` behind commands that were given one after the other. -/
structure Behind (ex : Executor Machine) (d : Desk Machine) (cs : List CommandLine)
    (d' : Desk Machine) : Prop where
  calls : d'.calls = d.calls ++ cs
  state : d'.state = Executor.stateAfter ex cs d.state

theorem Behind.trans {ex : Executor Machine} {d d' d'' : Desk Machine} {cs cs' : List CommandLine}
    (h : Behind ex d cs d') (h' : Behind ex d' cs' d'') : Behind ex d (cs ++ cs') d'' where
  calls := by rw [h'.calls, h.calls, List.append_assoc]
  state := by rw [h'.state, h.state, Executor.stateAfter_append]

theorem Behind.of_grows {ex : Executor Machine} {g g' : Stage Machine} {rs : List Record}
    {aborted : Bool} {cs : List CommandLine} (h : Stage.Grows ex g rs aborted cs g') :
    Behind ex g.desk cs g'.desk where
  calls := h.calls
  state := h.state

/-- Playing gives commands, and leaves one record for each step if it gets to the end. -/
theorem exists_behind_record (ex : Executor Machine) (s : Script) (p : Placeholders)
    (d : Desk Machine) :
    (∃ cs, Behind ex d cs (record ex s p d).2) ∧
      ∀ rs, (record ex s p d).1 = .ok rs → rs.length = s.steps.length := by
  have live : (⟨{}, d⟩ : Stage Machine).session.aborted = false := rfl
  unfold record
  rcases Stage.play_cases ex s p live with
    ⟨pre, run, post, rs, stop, g', -, -, -, hgrows, hplay⟩ | ⟨rs, g', hrs, hgrows, hplay⟩
  · rw [hplay]
    refine ⟨⟨_, .of_grows hgrows⟩, fun rs' hrs' => ?_⟩
    cases hrs'
  · rw [hplay]
    refine ⟨⟨_, .of_grows hgrows⟩, fun rs' hrs' => ?_⟩
    have hfinish : g'.session.finish = .ok rs := by
      rw [Session.finish, hgrows.session]
      rfl
    obtain rfl := Except.ok.inj (hfinish.symm.trans hrs')
    have hlength := Script.length_fates ex p s.steps d.state
    rwa [hrs, List.length_map] at hlength

/-- Asking for the identity gives one command. -/
theorem behind_fetchIdentity (ex : Executor Machine) (command : CommandLine) (d : Desk Machine) :
    Behind ex d [command] (Transcript.fetchIdentity ex command d).2 := by
  have hdesk : (Transcript.fetchIdentity ex command d).2 = (runChecked ex command false d).2 := by
    unfold Transcript.fetchIdentity
    split
    · rename_i hrun
      rw [hrun]
    · rename_i hrun
      rw [hrun]
      dsimp only
      split <;> rfl
  rw [hdesk]
  exact ⟨calls_runChecked ex command false d, state_runChecked ex command false d⟩

/-! ## What a build does in its working directory -/

/-- **The operations in the working directory**: behind some commands the build is given up,
or it has its records and its identity and writes the document. -/
theorem perform_cases (k : Kernel) (faults : Faults) (c : Config) (t : Target)
    (s : Script) (workdir : String) (d : Desk Machine) :
    ∃ cs d', Behind (executorOf k faults c) d cs d' ∧
      (perform k faults c t s workdir d).2.calls = d'.calls ∧
      ((∃ f, (perform k faults c t s workdir d).1 = .error f) ∧
          (perform k faults c t s workdir d).2.state = d'.state ∨
        ∃ rs identity d₁,
          record (executorOf k faults c) s ⟨t.invocationArgs, workdir, none⟩ d = (.ok rs, d₁) ∧
          Transcript.fetchIdentity (executorOf k faults c) t.versionCommand d₁ =
            (.ok identity, d') ∧
          let text := document t workdir identity rs
          let written := Destination.write faults.write d'.state c.output text
          (perform k faults c t s workdir d).2.state = { d'.state with files := written.2 } ∧
            (perform k faults c t s workdir d).1 =
              written.1.map fun _ => ⟨identity, rs.length, text.utf8ByteSize, none⟩) := by
  obtain ⟨⟨cs, hplayed⟩, -⟩ :=
    exists_behind_record (executorOf k faults c) s ⟨t.invocationArgs, workdir, none⟩ d
  unfold perform
  dsimp only
  cases hrecord : record (executorOf k faults c) s ⟨t.invocationArgs, workdir, none⟩ d with
  | mk answer d₁ =>
    rw [hrecord] at hplayed
    cases answer with
    | error f => exact ⟨cs, d₁, hplayed, rfl, .inl ⟨⟨f, rfl⟩, rfl⟩⟩
    | ok rs =>
      have hasked :=
        hplayed.trans (behind_fetchIdentity (executorOf k faults c) t.versionCommand d₁)
      dsimp only
      cases hidentity : Transcript.fetchIdentity (executorOf k faults c) t.versionCommand d₁ with
      | mk answer d₂ =>
        rw [hidentity] at hasked
        cases answer with
        | error f => exact ⟨_, d₂, hasked, rfl, .inl ⟨⟨f, rfl⟩, rfl⟩⟩
        | ok identity =>
          refine ⟨_, d₂, hasked, ?_⟩
          unfold publish
          dsimp only
          cases hwrite : Destination.write faults.write d₂.state c.output
              (document t workdir identity rs) with
          | mk result files =>
            cases result with
            | error f =>
              exact ⟨rfl, .inr ⟨rs, identity, d₁, rfl, hidentity, by simp [hwrite, Except.map]⟩⟩
            | ok _ =>
              exact ⟨rfl, .inr ⟨rs, identity, d₁, rfl, hidentity,
                by simp [hwrite, Except.map, Desk.note]⟩⟩

/-- **What is done to the files**: behind the commands nothing if the build fails, and one
entry holds the document if it succeeds. -/
theorem perform_files (k : Kernel) (faults : Faults) (c : Config) (t : Target)
    (s : Script) (workdir : String) (d : Desk Machine) :
    ∃ cs d', Behind (executorOf k faults c) d cs d' ∧
      (perform k faults c t s workdir d).2.calls = d'.calls ∧
      (perform k faults c t s workdir d).2.state.cwd = d.state.cwd ∧
      (∀ f, (perform k faults c t s workdir d).1 = .error f →
        (perform k faults c t s workdir d).2.state.files = d'.state.files) ∧
      ∀ summary, (perform k faults c t s workdir d).1 = .ok summary → ∃ rs d₁ identity spot,
        record (executorOf k faults c) s ⟨t.invocationArgs, workdir, none⟩ d = (.ok rs, d₁) ∧
        Transcript.fetchIdentity (executorOf k faults c) t.versionCommand d₁ = (.ok identity, d') ∧
        d'.state.files.walk d.state.cwd c.output false = .ok spot ∧
        (∀ q, (perform k faults c t s workdir d).2.state.files.node? q =
          if q = spot.place then
            some (.file (Text.Utf8.encode (document t workdir identity rs).toList)
              Destination.documentMode)
          else d'.state.files.node? q) ∧
        summary =
          ⟨identity, s.steps.length, (document t workdir identity rs).utf8ByteSize, none⟩ := by
  obtain ⟨cs, d', hbehind, hcalls, hcases⟩ := perform_cases k faults c t s workdir d
  refine ⟨cs, d', hbehind, hcalls, ?_⟩
  have hcwd : d'.state.cwd = d.state.cwd := by
    rw [hbehind.state]
    exact Runner.cwd_stateAfter k _ _ cs d.state
  rcases hcases with ⟨⟨f, hf⟩, hstate⟩ | ⟨rs, identity, d₁, hrecord, hidentity, hstate, hanswer⟩
  · refine ⟨by rw [hstate, hcwd], fun _ _ => by rw [hstate], fun summary hok => ?_⟩
    cases hf.symm.trans hok
  · rw [hstate, hanswer]
    cases hwrite : (Destination.write faults.write d'.state c.output
        (document t workdir identity rs)).1 with
    | error f =>
      refine ⟨hcwd, fun _ _ => Destination.files_write_of_error hwrite, fun summary hok => ?_⟩
      cases hok
    | ok _ =>
      refine ⟨hcwd, fun f hf => ?_, fun summary hok => ?_⟩
      · cases hf
      · obtain ⟨spot, hwalk, hfiles⟩ := Destination.write_eq_ok hwrite
        have hlength := (exists_behind_record (executorOf k faults c) s
          ⟨t.invocationArgs, workdir, none⟩ d).2 rs (by rw [hrecord])
        obtain rfl := Except.ok.inj hok
        exact ⟨rs, d₁, identity, spot, hrecord, hidentity, hcwd ▸ hwalk, hfiles, by rw [hlength]⟩

/-- A build that passes its checks has a destination that is not refused. -/
theorem check_of_prepare {m : Machine} {t : Target} {s : Script}
    (h : (prepare faults c m).1 = .ok (t, s)) :
    (Destination.check m c.output faults.check).1 = .ok () := by
  unfold prepare at h
  split at h
  · cases h
  · dsimp only at h
    split at h
    · cases h
    · assumption

/-! ## The working directory -/

/-- A build passes its checks and makes its working directory. -/
def Started (faults : Faults) (c : Config) (m : Machine) (t : Target) (s : Script)
    (workdir : String) (place : Place) (made : Machine) : Prop :=
  (prepare faults c m).1 = .ok (t, s) ∧
    makeWorkdir faults.workdir workdirOpening m = .ok (workdir, place, made)

/-- The working directory is made at a free place, and nothing else changes. -/
theorem makeWorkdir_eq_ok {fault : Option Errno} {opening workdir : String} {m made : Machine}
    {place : Place} (h : makeWorkdir fault opening m = .ok (workdir, place, made)) :
    place ≠ [] ∧ m.files.node? place = none ∧
      (∀ q, made.files.node? q = if q = place then some (.directory 0o700) else m.files.node? q) ∧
      made.cwd = m.cwd := by
  unfold makeWorkdir at h
  split at h
  · cases h
  dsimp only at h
  split at h
  · cases h
  · rename_i hmake
    obtain ⟨rfl, hrest⟩ := Prod.mk.inj (Except.ok.inj h)
    obtain ⟨rfl, rfl⟩ := Prod.mk.inj hrest
    obtain ⟨hne, hfree, hfiles⟩ := Temporary.make_eq_ok hmake
    exact ⟨hne, hfree, hfiles, rfl⟩

theorem files_leave_of_not_keep (unreached : Option (Place → Bool)) (workdir : String)
    (d : Desk Machine) : (leave unreached false workdir d).state.files =
      d.state.files.removeTree d.state.cwd workdir unreached :=
  rfl

theorem goesOn_map {α β : Type} (f : α → β) (r : Except Fault α) :
    goesOn (r.map f) = goesOn r := by
  cases r <;> rfl

/-- A started build performs in its working directory and leaves it. -/
theorem generate_of_started {t : Target} {s : Script} {workdir : String} {place : Place}
    {made : Machine} (k : Kernel) (faults : Faults)
    (h : Started faults c d.state t s workdir place made) :
    let performed :=
      perform k faults c t s workdir ({ d with state := made }.note (.workdirCreated workdir))
    let keep := c.keepWorkdir && goesOn performed.1
    generate k faults c d =
      (performed.1.map (keeping keep workdir),
        leave faults.unreached keep workdir performed.2) := by
  obtain ⟨hprepare, hmake⟩ := h
  simp only [generate, prepare_snd, hprepare, hmake]

/-- The machine as the commands of a build leave it, before it writes anything. -/
def behindCommands (k : Kernel) (faults : Faults) (c : Config) (d : Desk Machine)
    (made : Machine) : Machine :=
  Executor.stateAfter (executorOf k faults c)
    ((generate k faults c d).2.calls.drop d.calls.length) made

/-- The commands of a build leave its destination alone: behind them the output leads where it
led. -/
def Spared (k : Kernel) (faults : Faults) (c : Config) (d : Desk Machine) : Prop :=
  ∀ t s workdir place made, Started faults c d.state t s workdir place made →
    (behindCommands k faults c d made).files.walk d.state.cwd c.output false =
      d.state.files.walk d.state.cwd c.output false

/-- A build that is not started fails, and everything is as it was. -/
theorem generate_of_not_started
    (h : ¬ ∃ t s workdir place made, Started faults c d.state t s workdir place made) :
    (∃ f, (generate k faults c d).1 = .error f) ∧ (generate k faults c d).2 = d := by
  refine ⟨?_, generate_of_not_prepared faults h⟩
  simp only [generate, prepare_snd]
  cases hprepare : (prepare faults c d.state).1 with
  | error f => exact ⟨f, rfl⟩
  | ok found =>
    obtain ⟨t, s⟩ := found
    dsimp only
    cases hmake : makeWorkdir faults.workdir workdirOpening d.state with
    | error f => exact ⟨f, rfl⟩
    | ok made =>
      obtain ⟨workdir, place, m⟩ := made
      exact absurd ⟨t, s, workdir, place, m, hprepare, hmake⟩ h

/-- **A started build, file by file**: what the commands and the write leave, and then the
working directory as it is if it is kept, and its removal otherwise. -/
theorem generate_files {t : Target} {s : Script} {workdir : String} {place : Place}
    {made : Machine} (k : Kernel) (faults : Faults)
    (h : Started faults c d.state t s workdir place made) :
    let begun : Desk Machine := { d with state := made }.note (.workdirCreated workdir)
    let left := (behindCommands k faults c d made).files
    let performed := (perform k faults c t s workdir begun).2.state.files
    let result := (generate k faults c d).1
    ((generate k faults c d).2.state.files =
      if c.keepWorkdir && goesOn result then performed
      else performed.removeTree d.state.cwd workdir faults.unreached) ∧
      (∀ f, result = .error f → performed = left) ∧
      ∀ summary, result = .ok summary → ∃ rs d₁ identity d₂ spot,
        record (executorOf k faults c) s ⟨t.invocationArgs, workdir, none⟩ begun = (.ok rs, d₁) ∧
        Transcript.fetchIdentity (executorOf k faults c) t.versionCommand d₁ = (.ok identity, d₂) ∧
        left.walk d.state.cwd c.output false = .ok spot ∧
        (∀ q, performed.node? q =
          if q = spot.place then
            some (.file (Text.Utf8.encode (document t workdir identity rs).toList)
              Destination.documentMode)
          else left.node? q) ∧
        summary = ⟨identity, s.steps.length, (document t workdir identity rs).utf8ByteSize,
          if c.keepWorkdir then some workdir else none⟩ := by
  intro begun left performed result
  obtain ⟨-, -, -, hcwd⟩ := makeWorkdir_eq_ok h.2
  have hgenerate := generate_of_started k faults h
  obtain ⟨cs, d', hbehind, hcalls, hstatecwd, herror, hok⟩ :=
    perform_files k faults c t s workdir begun
  have hleft : left = d'.state.files := by
    have hdrop : (generate k faults c d).2.calls.drop d.calls.length = cs := by
      rw [hgenerate, calls_leave, hcalls, hbehind.calls]
      exact List.drop_left
    simp only [left, behindCommands, hdrop, hbehind.state]
    rfl
  have hresult : result = (perform k faults c t s workdir begun).1.map
      (keeping (c.keepWorkdir && goesOn (perform k faults c t s workdir begun).1) workdir) := by
    simp only [result, hgenerate]
    rfl
  refine ⟨?_, fun f hf => ?_, fun summary hs => ?_⟩
  · rw [hresult, goesOn_map, hgenerate]
    cases hkeep : c.keepWorkdir && goesOn (perform k faults c t s workdir begun).1 with
    | true => rfl
    | false =>
      rw [files_leave_of_not_keep, if_neg (by simp), ← hcwd]
      exact congrArg (performed.removeTree · workdir faults.unreached) hstatecwd
  · rw [hleft]
    cases hanswer : (perform k faults c t s workdir begun).1 with
    | error f' => exact herror f' hanswer
    | ok summary =>
      rw [hresult, hanswer] at hf
      cases hf
  · cases hanswer : (perform k faults c t s workdir begun).1 with
    | error f =>
      rw [hresult, hanswer] at hs
      cases hs
    | ok summary' =>
      obtain ⟨rs, d₁, identity, spot, hrecord, hidentity, hwalk, hfiles, rfl⟩ :=
        hok summary' hanswer
      rw [hresult, hanswer] at hs
      obtain rfl := Except.ok.inj hs
      refine ⟨rs, d₁, identity, d', spot, hrecord, hidentity, ?_, hleft ▸ hfiles, ?_⟩
      · rw [hleft, ← hcwd]
        exact hwalk
      · cases hkeep : c.keepWorkdir <;> simp [keeping, goesOn]

/-- The entry of the destination is not in what is removed: it is not below the place of the
working directory, which was free, and the path of that directory leads to no other place above
it. -/
theorem node?_removeTree_entry {before left performed : FileSystem} {cwd place : Place}
    {output workdir : String} {spot : Spot} (unreached : Option (Place → Bool))
    (hrooted : before.Rooted) (hcwd : before.HoldsDirectory cwd)
    (hfile : before.isDirectory cwd output = false)
    (hspot : before.walk cwd output false = .ok spot) (hfree : before.node? place = none)
    (hleft : left.node? spot.place = before.node? spot.place)
    (hperformed : performed = left ∨ ∃ bytes mode, ∀ q, performed.node? q =
      if q = spot.place then some (.file bytes mode) else left.node? q)
    (hapart : ∀ there n, left.walk cwd workdir false = .ok (.found there n) → there ≠ place →
      ¬ there <+: spot.place) :
    (performed.removeTree cwd workdir unreached).node? spot.place =
      performed.node? spot.place := by
  by_cases hfound : ∃ there n, performed.walk cwd workdir false = .ok (.found there n)
  swap
  · rw [FileSystem.removeTree_of_not_found unreached fun there n h => hfound ⟨there, n, h⟩]
  obtain ⟨there, n, hwalk⟩ := hfound
  cases hheld : (performed.node? there).any Node.isTree with
  | false => rw [FileSystem.removeTree_of_not_isTree unreached hwalk hheld]
  | true =>
    obtain ⟨held, hthere, htree⟩ := (Option.any_eq_true _ _).1 hheld
    -- a tree is not the document, so it was there before the document was written
    obtain ⟨hwalk', hthere'⟩ : left.walk cwd workdir false = .ok (.found there n) ∧
        left.node? there = some held := by
      rcases hperformed with rfl | ⟨bytes, mode, hfiles⟩
      · exact ⟨hwalk, hthere⟩
      · exact FileSystem.tree_without_file hfiles hwalk hthere htree
    have houtside : ¬ there <+: spot.place := by
      by_cases hplace : there = place
      · subst hplace
        refine FileSystem.not_prefix_place_of_walk hrooted hcwd hfile hspot hfree fun heq => ?_
        rw [heq, hfree, hthere'] at hleft
        cases hleft
      · exact hapart there n hwalk' hplace
    have hne : there ≠ [] := fun h => houtside (h ▸ List.nil_prefix)
    exact (FileSystem.removal_removeTree unreached hwalk hne hthere).outside houtside

/-- **A build is all or nothing.**  The files of the machine are a tree, and the commands leave
the destination alone.

A build that does not get to its working directory fails and leaves everything as it was.
Otherwise the working directory is made at a place that was free.  If the build fails, the files
are then as the commands left them, so no temporary file is there, and the entry of the
destination is what it was before.  If it succeeds, the script was played to the end and the
target named its identity; the entry of the destination is a regular file with the sanitized
transcript of all steps; every other file is as the commands left it; and the summary counts the
steps of the script and the bytes of the file.

On both ways out the working directory is kept if it is to be kept and the program goes on.
Otherwise its removal is tried: it leaves the entry of the destination alone, unless the commands
made the path of the working directory lead to another place above it; it does nothing if that
path leads nowhere; and else it is a `FileSystem.Removal`, so what the path leads to is gone
exactly if it was a directory or a link and the removal did not break off. -/
theorem generate_all_or_nothing (k : Kernel) (faults : Faults) (c : Config)
    (d : Desk Machine) (hsound : d.state.Sound) (hspared : Spared k faults c d) :
    let result := (generate k faults c d).1
    let final := (generate k faults c d).2.state.files
    let entry := d.state.files.walk d.state.cwd c.output false
    ((¬ ∃ t s workdir place made, Started faults c d.state t s workdir place made) →
      (∃ f, result = .error f) ∧ (generate k faults c d).2 = d) ∧
    ∀ t s workdir place made, Started faults c d.state t s workdir place made →
      let begun : Desk Machine := { d with state := made }.note (.workdirCreated workdir)
      let left := (behindCommands k faults c d made).files
      let performed := (perform k faults c t s workdir begun).2.state.files
      (d.state.files.node? place = none ∧ made.files.node? place = some (.directory 0o700)) ∧
      (∀ f, result = .error f → performed = left ∧
        ∀ spot, entry = .ok spot →
          performed.node? spot.place = d.state.files.node? spot.place) ∧
      (∀ summary, result = .ok summary → ∃ rs d₁ identity d₂ spot,
        record (executorOf k faults c) s ⟨t.invocationArgs, workdir, none⟩ begun = (.ok rs, d₁) ∧
        Transcript.fetchIdentity (executorOf k faults c) t.versionCommand d₁ = (.ok identity, d₂) ∧
        entry = .ok spot ∧
        let text := (SubstitutionTable.forTarget t.invocation t.shortName t.path workdir).apply
          (Transcript.withFooter (Transcript.render rs) identity)
        performed.node? spot.place = some (.file (Text.Utf8.encode text.toList) 0o644) ∧
        (∀ q, q ≠ spot.place → performed.node? q = left.node? q) ∧
        summary = ⟨identity, s.steps.length, (Text.Utf8.encode text.toList).length,
          if c.keepWorkdir then some workdir else none⟩) ∧
      (∀ spot, entry = .ok spot →
        (∀ there n, left.walk d.state.cwd workdir false = .ok (.found there n) →
          there ≠ place → ¬ there <+: spot.place) →
        final.node? spot.place = performed.node? spot.place) ∧
      if c.keepWorkdir && goesOn result then final = performed
      else
        ((∀ there n, performed.walk d.state.cwd workdir false ≠ .ok (.found there n)) →
          final = performed) ∧
        ∀ there n held, performed.walk d.state.cwd workdir false = .ok (.found there n) →
          there ≠ [] → performed.node? there = some held →
          performed.Removal there held faults.unreached final := by
  intro result final entry
  refine ⟨generate_of_not_started, fun t s workdir place made hstarted => ?_⟩
  intro begun left performed
  obtain ⟨-, hfree, hmade, -⟩ := makeWorkdir_eq_ok hstarted.2
  obtain ⟨hfinal, hfailed, hsucceeded⟩ := generate_files k faults hstarted
  have huntouched : left.walk d.state.cwd c.output false = entry :=
    hspared t s workdir place made hstarted
  have hfile := Destination.isDirectory_of_check (check_of_prepare hstarted.1)
  have hentry : ∀ spot, entry = .ok spot →
      left.node? spot.place = d.state.files.node? spot.place := fun spot hspot =>
    FileSystem.node?_place_of_walk hfile hspot (huntouched.trans hspot)
  refine ⟨⟨hfree, by rw [hmade, if_pos rfl]⟩, fun f hf => ?_, fun summary hs => ?_,
    fun spot hspot hapart => ?_, ?_⟩
  · exact ⟨hfailed f hf, fun spot hspot =>
      (congrArg (·.node? spot.place) (hfailed f hf)).trans (hentry spot hspot)⟩
  · obtain ⟨rs, d₁, identity, d₂, spot, hrecord, hidentity, hwalk, hfiles, rfl⟩ :=
      hsucceeded summary hs
    refine ⟨rs, d₁, identity, d₂, spot, hrecord, hidentity, huntouched.symm.trans hwalk, ?_,
      fun q hne => ?_, ?_⟩
    · rw [hfiles, if_pos rfl]
      rfl
    · rw [hfiles, if_neg hne]
    · rw [Text.Utf8.length_encode]
      rfl
  · have hperformed : performed = left ∨ ∃ bytes mode, ∀ q, performed.node? q =
        if q = spot.place then some (.file bytes mode) else left.node? q := by
      cases hanswer : result with
      | error f => exact .inl (hfailed f hanswer)
      | ok summary =>
        obtain ⟨rs, d₁, identity, d₂, spot', -, -, hwalk, hfiles, -⟩ := hsucceeded summary hanswer
        obtain rfl : spot' = spot :=
          Except.ok.inj (hwalk.symm.trans (huntouched.trans hspot))
        exact .inr ⟨_, _, hfiles⟩
    show (generate k faults c d).2.state.files.node? spot.place = _
    rw [hfinal]
    split
    · rfl
    · exact node?_removeTree_entry faults.unreached hsound.rooted hsound.cwd hfile hspot hfree
        (hentry spot hspot) hperformed hapart
  · split
    · rename_i hkeep
      exact hfinal.trans (if_pos hkeep)
    · rename_i hkeep
      obtain hremoved : final = performed.removeTree d.state.cwd workdir faults.unreached :=
        hfinal.trans (if_neg hkeep)
      rw [hremoved]
      exact ⟨FileSystem.removeTree_of_not_found faults.unreached,
        fun there n held hwalk hne hheld =>
          FileSystem.removal_removeTree faults.unreached hwalk hne hheld⟩

/-! ## A build that succeeds -/

/-- A script with documentation and a command. -/
def wholeText : String :=
  "\x7b\"script_version\": 0, \"steps\": " ++
    "[\x7b\"doc\": \"A tool.\"\x7d, \x7b\"run\": \"make\"\x7d]\x7d"

/-- A machine with a program, which is the target and the shell, and the script. -/
def wholeMachine : Machine where
  files := ⟨[(["tool"], .file [] 0o755),
    (["whole"], .file (Text.Utf8.encode wholeText.toList) 0o644)]⟩
  cwd := []
  searchPath := ""
  tempDir := "/"
  names := fun _ => "a1B2c3"

/-- The build of that script. -/
def wholeConfig : Config where
  target := "/tool"
  output := "/doc"
  script := some "/whole"
  shell := "/tool"

/-- Processes that print one digit and leave the files alone. -/
def wholeKernel : Kernel := fun _ files => (.ended 0 (.exited 0) [0x31], files)

/-- The path and the place of the working directory of that build, and the machine with it. -/
def wholeWorkdir : String × Place × Machine :=
  (makeWorkdir none workdirOpening wholeMachine).toOption.getD ("", [], wholeMachine)

theorem sound_wholeMachine : wholeMachine.Sound where
  rooted := FileSystem.rooted_of_nodes (by decide +kernel)
  cwd := FileSystem.holdsDirectory_nil _

theorem eq_ok_of_toOption_eq_some {α : Type} {r : Except Fault α} {a : α}
    (h : r.toOption = some a) : r = .ok a := by
  cases r with
  | error f => cases h
  | ok b => rw [Option.some.inj h]

theorem makeWorkdir_whole :
    makeWorkdir none workdirOpening wholeMachine = .ok wholeWorkdir := by
  have hmade : (makeWorkdir none workdirOpening wholeMachine).toOption.isSome = true := by
    decide +kernel
  obtain ⟨made, hmake⟩ := Option.isSome_iff_exists.1 hmade
  rw [wholeWorkdir, hmake]
  exact eq_ok_of_toOption_eq_some hmake

theorem place_walk_whole :
    (wholeMachine.files.walk wholeMachine.cwd wholeConfig.output false).toOption.map Spot.place =
      some ["doc"] := by
  decide +kernel

theorem workdir_of_started_whole {t : Target} {s : Script} {workdir : String} {place : Place}
    {made : Machine} (h : Started {} wholeConfig wholeMachine t s workdir place made) :
    (workdir, place, made) = wholeWorkdir :=
  (Except.ok.inj (makeWorkdir_whole.symm.trans h.2)).symm

theorem spared_whole : Spared wholeKernel {} wholeConfig { state := wholeMachine } := by
  intro t s workdir place made hstarted
  obtain rfl : made = wholeWorkdir.2.2 := congrArg (·.2.2) (workdir_of_started_whole hstarted)
  decide +kernel

theorem exists_started_whole :
    ∃ t s, Started {} wholeConfig wholeMachine t s wholeWorkdir.1 wholeWorkdir.2.1
      wholeWorkdir.2.2 ∧ s.steps.length = 2 := by
  have hsteps :
      (prepare {} wholeConfig wholeMachine).1.toOption.map (·.2.steps.length) = some 2 := by
    decide +kernel
  obtain ⟨⟨t, s⟩, hprepare, hlength⟩ := Option.map_eq_some_iff.1 hsteps
  exact ⟨t, s, ⟨eq_ok_of_toOption_eq_some hprepare, makeWorkdir_whole⟩, hlength⟩

/-- That build succeeds: its destination has the whole document, and nothing is left of its
working directory. -/
theorem generate_all_or_nothing_whole :
    wholeMachine.Sound ∧ Spared wholeKernel {} wholeConfig { state := wholeMachine } ∧
      ∃ t s summary bytes,
        Started {} wholeConfig wholeMachine t s wholeWorkdir.1 wholeWorkdir.2.1 wholeWorkdir.2.2 ∧
        let answer := generate wholeKernel {} wholeConfig { state := wholeMachine }
        answer.1 = .ok summary ∧
        answer.2.state.files.node? ["doc"] = some (.file bytes 0o644) ∧
        answer.2.state.files.node? wholeWorkdir.2.1 = none ∧
        summary.bytes = bytes.length ∧ summary.steps = 2 := by
  refine ⟨sound_wholeMachine, spared_whole, ?_⟩
  obtain ⟨t, s, hstarted, hlength⟩ := exists_started_whole
  have hok : (generate wholeKernel {} wholeConfig
      { state := wholeMachine }).1.toOption.isSome = true := by decide +kernel
  obtain ⟨summary, hsummary⟩ := Option.isSome_iff_exists.1 hok
  replace hsummary := eq_ok_of_toOption_eq_some hsummary
  obtain ⟨-, -, hwhole, hspared, -⟩ := (generate_all_or_nothing wholeKernel {} wholeConfig
    { state := wholeMachine } sound_wholeMachine spared_whole).2 t s _ _ _ hstarted
  obtain ⟨rs, d₁, identity, d₂, spot, -, -, hspot, hfile, -, rfl⟩ := hwhole summary hsummary
  have hplace : spot.place = ["doc"] := by
    have hentry := place_walk_whole
    rw [hspot] at hentry
    exact Option.some.inj hentry
  have hapart := hspared spot hspot fun there n hwalk hne => by
    have hthere : ((behindCommands wholeKernel {} wholeConfig { state := wholeMachine }
        wholeWorkdir.2.2).files.walk wholeMachine.cwd wholeWorkdir.1 false).toOption.map
          Spot.place = some wholeWorkdir.2.1 := by decide +kernel
    rw [hwalk] at hthere
    exact absurd (Option.some.inj hthere) hne
  rw [hplace] at hfile hapart
  exact ⟨t, s, _, _, hstarted, hsummary, hapart.trans hfile, by decide +kernel, rfl, hlength⟩

/-! ## A working directory that is not removed -/

/-- The processes of a command that puts a file in the place of that working directory. -/
def replacingKernel : Kernel := fun _ files =>
  (.ended 0 (.exited 0) [0x31],
    (files.eraseTree wholeWorkdir.2.1).put wholeWorkdir.2.1 (.file [] 0o644))

theorem spared_replaced : Spared replacingKernel {} wholeConfig { state := wholeMachine } := by
  intro t s workdir place made hstarted
  obtain rfl : made = wholeWorkdir.2.2 := congrArg (·.2.2) (workdir_of_started_whole hstarted)
  decide +kernel

/-- **Not every build removes its working directory.**  Behind a command that puts a file in its
place a build that is to keep nothing succeeds, and the file stays. -/
theorem not_removed_of_replaced :
    ¬ ∀ k c d t s workdir place made, d.state.Sound → Spared k {} c d →
      Started {} c d.state t s workdir place made → c.keepWorkdir = false →
      (generate k {} c d).2.state.files.node? place = none := by
  intro h
  obtain ⟨t, s, hstarted, -⟩ := exists_started_whole
  have hgone := h replacingKernel wholeConfig { state := wholeMachine } t s _ _ _
    sound_wholeMachine spared_replaced hstarted rfl
  have hleft : (generate replacingKernel {} wholeConfig
      { state := wholeMachine }).2.state.files.node? wholeWorkdir.2.1 =
        some (.file [] 0o644) := by decide +kernel
  rw [hleft] at hgone
  cases hgone

end Build
end Walkthrough
