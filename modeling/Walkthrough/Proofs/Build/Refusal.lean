/-
# Refusals of a build

A build is meant to report usage and setup problems before a command runs.  For setup
faults it does: they come from the checks and from the making of the working directory, and
leave everything as it was.  A usage fault can also come from playing the script, which
expands a command when it gets to it.

| phase | usage | setup | commands before |
| --- | --- | --- | --- |
| the checks | yes | yes | none |
| the working directory | no | yes | none |
| playing the script | yes | no | those of the steps before |
| the identity, the document | no | no | those of the script |

So the exceptions are exactly the late refusals of playing (`refusals_first_iff`).
-/

import Walkthrough.Build
import Walkthrough.Proofs.Destination.Write
import Walkthrough.Proofs.Session.Refusal

namespace Walkthrough

/-! ## The faults of each phase -/

/-- A fault that is neither a usage nor a setup fault. -/
def Fault.Incidental (f : Fault) : Prop :=
  f.kind ≠ .usage ∧ f.kind ≠ .setup

theorem Fault.incidental_of_kind_eq {f : Fault} (kind : Fault.Kind) (h : f.kind = kind)
    (hkind : kind ≠ .usage ∧ kind ≠ .setup) : f.Incidental := by
  rwa [← h] at hkind

namespace Runner

theorem incidental_timeoutFault (c : CommandLine) (limit : Nat) (output : String) :
    (timeoutFault c limit output).Incidental :=
  Fault.incidental_of_kind_eq .timeout rfl (by decide)

theorem incidental_ioFault (c : CommandLine) (message cause : String) :
    (ioFault c message cause).Incidental :=
  Fault.incidental_of_kind_eq .io rfl (by decide)

theorem incidental_overflowFault : overflowFault.Incidental :=
  Fault.incidental_of_kind_eq .overflow rfl (by decide)

/-- The reply for a process that was waited for has no refusal. -/
theorem incidental_of_replyFor {c : CommandLine} {limit : Nat} {printed : List UInt8}
    {v : Deadline.Verdict Status} {f : Fault} (h : (replyFor c limit printed v).result = .error f) :
    f.Incidental := by
  cases v with
  | exited status => cases h
  | killed clock => exact Except.error.inj h ▸ incidental_timeoutFault c limit _
  | waiting => exact Except.error.inj h ▸ incidental_timeoutFault c limit _

theorem incidental_of_replyUnless {faults : Faults} {c : CommandLine} {limit : Nat}
    {printed : List UInt8} {v : Deadline.Verdict Status} {f : Fault}
    (h : (replyUnless faults c (replyFor c limit printed v)).result = .error f) :
    f.Incidental := by
  unfold replyUnless at h
  split at h
  · exact Except.error.inj h ▸ incidental_ioFault c _ _
  · exact Except.error.inj h ▸ incidental_ioFault c _ _
  · exact incidental_of_replyFor h

theorem incidental_of_awaitEnding {faults : Faults} {c : CommandLine} {s : Settings} {m : Machine}
    {ending : Ending} {f : Fault} (h : (awaitEnding faults c s m ending).1.result = .error f) :
    f.Incidental := by
  unfold awaitEnding at h
  cases ending with
  | refused e => exact Except.error.inj h ▸ incidental_ioFault c _ _
  | ended time status printed =>
    dsimp only at h
    split at h
    · exact incidental_of_replyUnless h
    · split at h
      · exact Except.error.inj h ▸ incidental_overflowFault
      · exact incidental_of_replyUnless h
  | stopped printed =>
    dsimp only at h
    split at h
    · exact Except.error.inj h ▸ incidental_overflowFault
    · exact incidental_of_replyUnless h

/-- Only an empty argument list starts no program. -/
theorem programOf_eq_none_iff {s : Settings} {c : CommandLine} :
    programOf s c = none ↔ c = .argv [] := by
  cases c with
  | shell line => simp [programOf]
  | argv args => cases args <;> simp [programOf]

variable {k : Kernel} {mishaps : Mishaps} {s : Settings} {c : CommandLine} {m : Machine}
  {f : Fault}

/-- A command with a program is not refused, whatever becomes of it. -/
theorem incidental_of_launch {faults : Faults} (hc : c ≠ .argv [])
    (h : (launch k faults s c m).1.result = .error f) : f.Incidental := by
  unfold launch at h
  cases hprogram : programOf s c with
  | none => exact absurd (programOf_eq_none_iff.1 hprogram) hc
  | some launched =>
    rw [hprogram] at h
    dsimp only at h
    split at h
    · exact Except.error.inj h ▸ incidental_ioFault c _ _
    · exact incidental_of_awaitEnding h

/-- **The faults of the executor on a machine**: that of an empty argument list, where there is
a file for the output, and otherwise none that is a refusal. -/
theorem executor_eq_error (h : (executor k mishaps s c m).1.result = .error f) :
    (c = .argv [] ∧ (mishaps c m).capture = none ∧ (mishaps c m).clone = none ∧ f = emptyFault) ∨
      f.Incidental := by
  unfold executor at h
  dsimp only at h
  split at h
  · exact .inr (Except.error.inj h ▸ incidental_ioFault c _ _)
  · exact .inr (Except.error.inj h ▸ incidental_ioFault c _ _)
  · rename_i hcapture hclone
    by_cases hc : c = .argv []
    · subst hc
      exact .inl ⟨rfl, hcapture, hclone, (Except.error.inj h).symm⟩
    · exact .inr (incidental_of_launch hc h)

/-- **The executor on a machine is candid**, whatever the kernel does and whatever fails. -/
theorem executor_candid (k : Kernel) (mishaps : Mishaps) (s : Settings) :
    Candid (executor k mishaps s) where
  empty m := by
    unfold executor
    dsimp only
    split <;> exact ⟨_, rfl⟩
  usage c m f h hkind := by
    rcases executor_eq_error h with ⟨hc, -⟩ | hincidental
    · exact hc
    · exact absurd hkind hincidental.1
  setup c m f h := by
    rcases executor_eq_error h with ⟨-, -, -, rfl⟩ | hincidental
    · decide
    · exact hincidental.2

/-- It refuses an empty argument list exactly where there is a file for the output. -/
theorem refusesEmpty_executor_iff :
    RefusesEmpty (executor k mishaps s) m ↔
      (mishaps (.argv []) m).capture = none ∧ (mishaps (.argv []) m).clone = none := by
  constructor
  · rintro ⟨f, hf, hkind⟩
    rcases executor_eq_error hf with ⟨-, hcapture, hclone, -⟩ | hincidental
    · exact ⟨hcapture, hclone⟩
    · exact absurd hkind hincidental.1
  · rintro ⟨hcapture, hclone⟩
    refine ⟨emptyFault, ?_, rfl⟩
    simp only [executor, hcapture, hclone]
    rfl

end Runner

/-- Asking a program for its identity is not refused by a candid executor. -/
theorem Transcript.incidental_of_fetchIdentity {σ : Type} {ex : Executor σ} (hex : Candid ex)
    {c : CommandLine} (hc : c ≠ .argv []) {d : Desk σ} {f : Fault}
    (h : (fetchIdentity ex c d).1 = .error f) : f.Incidental := by
  have hanswer := runChecked_fst ex c false d
  unfold fetchIdentity at h
  cases hrun : runChecked ex c false d with
  | mk answer d' =>
    rw [hrun] at h hanswer
    cases answer with
    | error f' =>
      obtain rfl : f' = f := Except.error.inj h
      obtain ⟨hsetup, husage⟩ := hex.kind_of_judged_eq_error hanswer.symm
      exact ⟨fun hkind => hc (husage.1 hkind).1, hsetup⟩
    | ok o =>
      dsimp only at h
      split at h
      · obtain rfl := Except.error.inj h
        exact Fault.incidental_of_kind_eq .stepFailed rfl (by decide)
      · cases h

namespace Build

theorem executorOf_candid (k : Kernel) (faults : Faults) (c : Config) :
    Candid (executorOf k faults c) :=
  Runner.executor_candid k faults.mishaps _

variable {k : Kernel} {faults : Faults} {c : Config} {d : Desk Machine}

theorem incidental_of_publish {faults : Destination.Faults} {text : String} {f : Fault}
    (h : (publish faults c text d).1 = .error f) : f.Incidental := by
  unfold publish at h
  dsimp only at h
  split at h
  · rename_i f' hwrite
    obtain rfl : f' = f := Except.error.inj h
    exact Fault.incidental_of_kind_eq .io (Destination.kind_of_write_eq_error hwrite) (by decide)
  · cases h

/-! ## The phases together -/

section

variable {t : Target} {s : Script} {workdir : String}

/-- Where playing fails, what happens in the working directory is that. -/
theorem perform_of_play_eq_error {f : Fault}
    (h : (Stage.play (executorOf k faults c) s ⟨t.invocationArgs, workdir, none⟩ ⟨{}, d⟩).1 =
      .error f) :
    perform k faults c t s workdir d = (.error f,
      (Stage.play (executorOf k faults c) s ⟨t.invocationArgs, workdir, none⟩ ⟨{}, d⟩).2.desk) := by
  cases hplay : Stage.play (executorOf k faults c) s ⟨t.invocationArgs, workdir, none⟩ ⟨{}, d⟩ with
  | mk answer g =>
    obtain rfl : answer = .error f := by rw [← h, hplay]
    simp only [perform, record, hplay]

/-- A session that was played has no end only if it is aborted. -/
theorem record_eq_error {ex : Executor Machine} {p : Placeholders} {f : Fault}
    (h : (record ex s p d).1 = .error f) :
    (Stage.play ex s p ⟨{}, d⟩).1 = .error f ∨ f = Session.abortedFault := by
  unfold record at h
  cases hplay : Stage.play ex s p ⟨{}, d⟩ with
  | mk answer g =>
    rw [hplay] at h
    cases answer with
    | error f' => exact .inl (congrArg Except.error (Except.error.inj h))
    | ok _ =>
      change g.session.finish = .error f at h
      unfold Session.finish at h
      split at h
      · exact .inr (Except.error.inj h).symm
      · cases h

/-- **The phases in the working directory**: a fault there is one of playing, of asking for
the identity or of publishing. -/
theorem perform_eq_error {f : Fault} (h : (perform k faults c t s workdir d).1 = .error f) :
    (record (executorOf k faults c) s ⟨t.invocationArgs, workdir, none⟩ d).1 = .error f ∨
      (∃ d', (Transcript.fetchIdentity (executorOf k faults c) t.versionCommand d').1 = .error f) ∨
      ∃ text d', (publish faults.write c text d').1 = .error f := by
  unfold perform at h
  dsimp only at h
  cases hrecord : record (executorOf k faults c) s ⟨t.invocationArgs, workdir, none⟩ d with
  | mk answer d' =>
    rw [hrecord] at h
    cases answer with
    | error f' => exact .inl (congrArg Except.error (Except.error.inj h))
    | ok rs =>
      dsimp only at h
      cases hidentity : Transcript.fetchIdentity (executorOf k faults c) t.versionCommand d' with
      | mk answer d'' =>
        rw [hidentity] at h
        cases answer with
        | error f' =>
          obtain rfl : f' = f := Except.error.inj h
          exact .inr (.inl ⟨d', by rw [hidentity]⟩)
        | ok identity =>
          refine .inr (.inr ⟨document t workdir identity rs, d'', ?_⟩)
          dsimp only at h
          split at h
          · rename_i hpublish
            rw [hpublish]
            exact congrArg Except.error (Except.error.inj h)
          · cases h

/-- Where playing does not fail, nothing else in the working directory is refused. -/
theorem incidental_of_perform
    (h : (Stage.play (executorOf k faults c) s ⟨t.invocationArgs, workdir, none⟩ ⟨{}, d⟩).1 =
      .ok ())
    {f : Fault} (hf : (perform k faults c t s workdir d).1 = .error f) : f.Incidental := by
  rcases perform_eq_error hf with hrecord | ⟨d', hidentity⟩ | ⟨text, d', hpublish⟩
  · rcases record_eq_error hrecord with hplay | rfl
    · cases h.symm.trans hplay
    · exact Fault.incidental_of_kind_eq .aborted rfl (by decide)
  · have hversion : t.versionCommand ≠ .argv [] := by simp [Target.versionCommand]
    exact Transcript.incidental_of_fetchIdentity (executorOf_candid k faults c) hversion hidentity
  · exact incidental_of_publish hpublish

/-- What happens in the working directory has no setup faults. -/
theorem kind_ne_setup_of_perform {f : Fault}
    (hf : (perform k faults c t s workdir d).1 = .error f) : f.kind ≠ .setup := by
  cases hplay :
      (Stage.play (executorOf k faults c) s ⟨t.invocationArgs, workdir, none⟩ ⟨{}, d⟩).1 with
  | error f' =>
    rw [perform_of_play_eq_error hplay] at hf
    obtain rfl : f' = f := Except.error.inj hf
    exact Stage.kind_ne_setup_of_play_eq_error (executorOf_candid k faults c) rfl hplay
  | ok _ => exact (incidental_of_perform hplay hf).2

/-- Only a late refusal of playing comes behind a command in the working directory. -/
theorem perform_refusesFirst_iff :
    RefusesFirst d (perform k faults c t s workdir d).1 (perform k faults c t s workdir d).2 ↔
      ¬ LateRefusal (executorOf k faults c) ⟨t.invocationArgs, workdir, none⟩ s.steps d.state := by
  have hiff := Stage.play_refusesFirst_iff (g := ⟨{}, d⟩) (executorOf_candid k faults c) s
    ⟨t.invocationArgs, workdir, none⟩ rfl
  cases hplay :
      (Stage.play (executorOf k faults c) s ⟨t.invocationArgs, workdir, none⟩ ⟨{}, d⟩).1 with
  | error f =>
    rw [perform_of_play_eq_error hplay, ← hiff, hplay]
    exact RefusesFirst.congr rfl rfl fun f' => by simp
  | ok _ =>
    constructor
    · intro _
      refine hiff.1 fun f hf => ?_
      cases hplay.symm.trans hf
    · intro _ f hf hrefusal
      obtain ⟨husage, hsetup⟩ := incidental_of_perform hplay hf
      exact (hrefusal.elim husage hsetup).elim

end

theorem calls_leave (unreached : Option (Place → Bool)) (keep : Bool) (workdir : String)
    (d : Desk Machine) : (leave unreached keep workdir d).calls = d.calls := by
  cases keep <;> rfl

/-- The checks leave the machine as it was. -/
theorem prepare_snd (faults : Faults) (c : Config) (m : Machine) :
    (prepare faults c m).2 = m := by
  unfold prepare
  split
  · rfl
  · dsimp only
    rw [Destination.files_check]
    split <;> rfl

/-- A build that gets to its working directory fails as what happens there, with its calls. -/
theorem generate_of_prepare_eq_ok {t : Target} {s : Script} {workdir : String} {place : Place}
    {m : Machine} (faults : Faults)
    (hprepare : (prepare faults c d.state).1 = .ok (t, s))
    (hmake : makeWorkdir faults.workdir workdirOpening d.state = .ok (workdir, place, m)) :
    let d' : Desk Machine := { d with state := m }.note (.workdirCreated workdir)
    (∀ f, (generate k faults c d).1 = .error f ↔
        (perform k faults c t s workdir d').1 = .error f) ∧
      (generate k faults c d).2.calls = (perform k faults c t s workdir d').2.calls := by
  intro d'
  simp only [generate, prepare_snd, hprepare, hmake]
  refine ⟨fun f => ?_, calls_leave _ _ _ _⟩
  show ((perform k faults c t s workdir d').1.map _ = .error f) ↔ _
  cases (perform k faults c t s workdir d').1 with
  | error f' => exact Iff.rfl
  | ok summary => simp [Except.map]

/-- A build that does not get to its working directory leaves everything as it was. -/
theorem generate_of_not_prepared (faults : Faults)
    (h : ¬ ∃ t s workdir place m, (prepare faults c d.state).1 = .ok (t, s) ∧
      makeWorkdir faults.workdir workdirOpening d.state = .ok (workdir, place, m)) :
    (generate k faults c d).2 = d := by
  simp only [generate, prepare_snd]
  cases hprepare : (prepare faults c d.state).1 with
  | error f => rfl
  | ok found =>
    obtain ⟨t, s⟩ := found
    dsimp only
    cases hmake : makeWorkdir faults.workdir workdirOpening d.state with
    | error f => rfl
    | ok made =>
      obtain ⟨workdir, place, m⟩ := made
      exact absurd ⟨t, s, workdir, place, m, hprepare, hmake⟩ h

/-- Only a late refusal of playing comes behind a command of a build. -/
theorem generate_refusesFirst_iff :
    RefusesFirst d (generate k faults c d).1 (generate k faults c d).2 ↔
      ¬ ∃ t s workdir place m, (prepare faults c d.state).1 = .ok (t, s) ∧
        makeWorkdir faults.workdir workdirOpening d.state = .ok (workdir, place, m) ∧
        LateRefusal (executorOf k faults c) ⟨t.invocationArgs, workdir, none⟩ s.steps m := by
  by_cases hready : ∃ t s workdir place m, (prepare faults c d.state).1 = .ok (t, s) ∧
      makeWorkdir faults.workdir workdirOpening d.state = .ok (workdir, place, m)
  · obtain ⟨t, s, workdir, place, m, hprepare, hmake⟩ := hready
    obtain ⟨herror, hcalls⟩ := generate_of_prepare_eq_ok (k := k) faults hprepare hmake
    rw [RefusesFirst.congr rfl hcalls herror]
    refine perform_refusesFirst_iff.trans (not_congr ⟨fun hlate => ?_, ?_⟩)
    · exact ⟨t, s, workdir, place, m, hprepare, hmake, hlate⟩
    · rintro ⟨t', s', workdir', place', m', hprepare', hmake', hlate⟩
      obtain ⟨rfl, rfl⟩ := Prod.mk.inj (Except.ok.inj (hprepare.symm.trans hprepare'))
      obtain ⟨rfl, hrest⟩ := Prod.mk.inj (Except.ok.inj (hmake.symm.trans hmake'))
      obtain ⟨-, rfl⟩ := Prod.mk.inj hrest
      exact hlate
  · constructor
    · rintro - ⟨t, s, workdir, place, m, hprepare, hmake, -⟩
      exact hready ⟨t, s, workdir, place, m, hprepare, hmake⟩
    · intro _ f _ _
      rw [generate_of_not_prepared faults hready, List.drop_length]
      rfl

/-- A setup fault of a build leaves everything as it was. -/
theorem generate_of_setup {f : Fault} (hf : (generate k faults c d).1 = .error f)
    (hkind : f.kind = .setup) : (generate k faults c d).2 = d := by
  by_cases hready : ∃ t s workdir place m, (prepare faults c d.state).1 = .ok (t, s) ∧
      makeWorkdir faults.workdir workdirOpening d.state = .ok (workdir, place, m)
  · obtain ⟨t, s, workdir, place, m, hprepare, hmake⟩ := hready
    obtain ⟨herror, -⟩ := generate_of_prepare_eq_ok (k := k) faults hprepare hmake
    exact absurd hkind (kind_ne_setup_of_perform ((herror f).1 hf))
  · exact generate_of_not_prepared faults hready

/-- **Which refusals come first.**  A usage or setup fault of a build comes before any
command of the script is executed, except exactly where the checks are passed, the working
directory is made and playing is refused late: at a run step that cannot be expanded, or
has no arguments, behind another run step.  Setup faults are no exceptions: behind one of
them everything is as it was.  And so it is for any candid executor in a new session:
the exceptions are the late refusals. -/
theorem refusals_first_iff (k : Kernel) (faults : Faults) (c : Config)
    (d : Desk Machine) :
    (RefusesFirst d (generate k faults c d).1 (generate k faults c d).2 ↔
      ¬ ∃ t s workdir place m, (prepare faults c d.state).1 = .ok (t, s) ∧
        makeWorkdir faults.workdir workdirOpening d.state = .ok (workdir, place, m) ∧
        LateRefusal (executorOf k faults c) ⟨t.invocationArgs, workdir, none⟩ s.steps m) ∧
    (∀ f, (generate k faults c d).1 = .error f → f.kind = .setup →
      (generate k faults c d).2 = d) ∧
    ∀ {σ : Type} (ex : Executor σ) (script : Script) (p : Placeholders) (st : σ), Candid ex →
      let played := (Stage.start st).play ex script p
      (RefusesFirst (Stage.start st).desk played.1 played.2.desk ↔
        ¬ LateRefusal ex p script.steps st) :=
  ⟨generate_refusesFirst_iff, fun _ => generate_of_setup,
    fun _ script p _ hex => Stage.play_refusesFirst_iff hex script p rfl⟩

/-! ## A late refusal -/

/-- A script whose second step names an archive. -/
def lateText : String :=
  "\x7b\"script_version\": 0, \"steps\": " ++
    "[\x7b\"run\": \"make\"\x7d, \x7b\"run\": \"rm \x7boutput\x7d\"\x7d]\x7d"

/-- A machine with a program, which is the target and the shell, and the script. -/
def lateMachine : Machine where
  files := ⟨[(["tool"], .file [] 0o755),
    (["late"], .file (Text.Utf8.encode lateText.toList) 0o644)]⟩
  cwd := []
  searchPath := ""
  tempDir := "/"
  names := fun _ => "a1B2c3"

/-- The build of that script. -/
def lateConfig : Config where
  target := "/tool"
  output := "/doc"
  script := some "/late"
  shell := "/tool"

/-- The end of that build on a machine whose processes all succeed. -/
def lateEnd : Except Fault Summary × Desk Machine :=
  generate (fun _ files => (.ended 0 (.exited 0) [], files)) {} lateConfig { state := lateMachine }

/-- The command of the first step has been executed when the second is refused. -/
theorem not_refusesFirst_lateEnd :
    ¬ RefusesFirst { state := lateMachine } lateEnd.1 lateEnd.2 := by
  have hend : lateEnd.1 = .error (Placeholders.noOutputFault "rm \x7boutput\x7d") ∧
      lateEnd.2.calls = [.shell "make"] := by decide +kernel
  intro h
  have hnone := h _ hend.1 (.inl rfl)
  rw [hend.2] at hnone
  exact absurd hnone (by decide)

end Build
end Walkthrough
