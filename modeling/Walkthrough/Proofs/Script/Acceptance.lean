/-
# What is accepted as a script

`parse_eq_ok_iff` says which texts are accepted: those of the supported version in a shape
that is read, and nothing else.  The shapes are wider than what is documented: where a record
is documented as an object, the array of its parts is read, too
(`accepted_not_documented`).

What is documented is accepted in every spelling (`parse_of_documented`): the keys in any
order, a false flag written or left out, white space and escapes as one likes.  Every script
has such a text, the compact one (`parse_compact`).
-/

import Walkthrough.Proofs.Json.Writing
import Walkthrough.Proofs.Script.Reading

namespace Walkthrough
namespace Script

open Json

/-! ## What is accepted -/

/-- A text that is not accepted is a usage fault. -/
theorem kind_of_parse_eq_error {text : String} {f : Fault} (h : parse text = .error f) :
    f.kind = .usage := by
  rw [parse] at h
  split at h
  case h_1 => exact Except.error.inj h ▸ rfl
  case h_2 =>
    split at h
    case isTrue => cases h
    case isFalse => exact Except.error.inj h ▸ rfl

/-- **Exactly the texts of the supported version in a shape that is read are accepted**, and
every other text is a usage fault. -/
theorem parse_eq_ok_iff (text : String) :
    (∀ s, parse text = .ok s ↔
      s.version = supportedVersion ∧ ∃ v, s.Shaped v ∧ TextOf v text.toList) ∧
    ∀ f, parse text = .error f → f.kind = .usage := by
  refine ⟨fun s => ?_, fun f => kind_of_parse_eq_error⟩
  constructor
  · intro h
    rw [parse] at h
    split at h
    case h_1 => cases h
    case h_2 s₁ hread =>
      split at h
      case isFalse => cases h
      case isTrue hversion =>
        obtain rfl := Except.ok.inj h
        exact ⟨hversion, (readText_eq_ok_iff.1 hread).2⟩
  · rintro ⟨hversion, hv⟩
    have hread := readText_eq_ok_iff.2 ⟨by rw [hversion]; exact Nat.zero_le _, hv⟩
    rw [parse, hread]
    exact if_pos hversion

/-- A script that is written by positions is accepted, though no object stands in it. -/
theorem accepted_not_documented :
    ∃ text s, parse text = .ok s ∧ ¬ ∃ v, s.Documented v ∧ TextOf v text.toList := by
  refine ⟨"[0, [[\x22ls\x22, true]]]", ⟨0, [.run ⟨.line "ls", true, false⟩]⟩, by decide +kernel, ?_⟩
  rintro ⟨v, hv, t, w, hled, -, hspan⟩
  have hspells := (spans_led_iff (c := Cursor.ofText _) fun _ => Spells.starts).1 ⟨t, hled, hspan⟩
  obtain ⟨vs, rfl, -⟩ := spans_bracket_iff.1 hspells
  cases hv

/-- **Every text of a documented script is read as that script**; with another version it is
a usage fault. -/
theorem parse_of_documented {s : Script} {v : Value} {text : String}
    (hroom : s.version < Nat.pow 2 64) (hv : s.Documented v) (htext : TextOf v text.toList) :
    (s.version = supportedVersion → parse text = .ok s) ∧
      (s.version ≠ supportedVersion →
        ∃ f, parse text = .error f ∧ f.kind = .usage ∧ f = versionFault s.version) := by
  have hread : readText text.toList = .ok s :=
    readText_eq_ok_iff.2 ⟨Nat.le_of_lt_succ hroom, v, hv.shaped, htext⟩
  constructor
  · intro hversion
    rw [parse, hread]
    exact if_pos hversion
  · intro hversion
    refine ⟨versionFault s.version, ?_, rfl, rfl⟩
    rw [parse, hread]
    exact if_neg hversion

/-- Characters that need no escape write themselves. -/
theorem stringText_raw {s : String}
    (h : s.toList.all fun c => decide (c ≠ '\x22' ∧ c ≠ '\\' ∧ 0x20 ≤ c.toNat)) :
    StringText s ('\x22' :: (s.toList ++ ['\x22'])) := by
  refine ⟨_, ?_, rfl⟩
  generalize s.toList = cs at h
  induction cs with
  | nil => exact .nil
  | cons c cs ih =>
    obtain ⟨hc, hcs⟩ := Bool.and_eq_true_iff.1 h
    obtain ⟨hquote, hslash, hcontrol⟩ := of_decide_eq_true hc
    exact .cons (t := [c]) (.raw hquote hslash hcontrol) (ih hcs)

/-- The keys in another order, one flag left out, an escaped key, a pair of surrogates. -/
theorem parse_of_documented_respelled :
    let s : Script := ⟨0, [.doc "😀", .run ⟨.argv ["ls", "\t"], false, true⟩]⟩
    let v : Value := .object
      [("steps", .array [.object [("doc", .string "😀")],
        .object [("no_output", .bool true), ("run", .array [.string "ls", .string "\t"])]]),
        ("script_version", .number (.natural 0))]
    let text := "\x7b\x22steps\x22:[\x7b\x22\\u0064oc\x22:\x22\\uD83D\\ude00\x22\x7d,\n\x7b\x22no_output\x22:true,\x22run\x22:[\x22ls\x22,\x22\\t\x22]\x7d] ,\x22script_version\x22: 0\x7d\n"
    s.version < Nat.pow 2 64 ∧ s.Documented v ∧ TextOf v text.toList ∧ parse text = .ok s := by
  intro s v text
  have hdocumented : s.Documented v := by
    refine .intro (s := s) (.cons .doc (.cons (.run .omitted .written ?_) .nil)) (.swap _ _ _)
    exact .swap _ _ _
  have hd : CodeUnit 'd'.toNat ['0', '0', '6', '4'] :=
    .intro 0 0 6 4 (by decide) (by decide) (by decide) (by decide) rfl
  have hhigh : CodeUnit 0xD83D ['D', '8', '3', 'D'] :=
    .intro 13 8 3 13 (by decide) (by decide) (by decide) (by decide) rfl
  have hlow : CodeUnit 0xDE00 ['d', 'e', '0', '0'] :=
    .intro 13 14 0 0 (by decide) (by decide) (by decide) (by decide) rfl
  have hdoc : StringText "doc" "\x22\\u0064oc\x22".toList :=
    ⟨_, .cons (.unit hd) (.cons (.raw (by decide) (by decide) (by decide))
      (.cons (.raw (by decide) (by decide) (by decide)) .nil)), rfl⟩
  have hface : StringText "😀" "\x22\\uD83D\\ude00\x22".toList :=
    ⟨_, .cons (.pair (by decide) hhigh hlow) .nil, rfl⟩
  have htab : StringText "\t" "\x22\\t\x22".toList := ⟨_, .cons (.letter (by decide)) .nil, rfl⟩
  have hsteps : StringText "steps" _ := stringText_raw (by decide)
  have hversion : StringText "script_version" _ := stringText_raw (by decide)
  have hrun : StringText "run" _ := stringText_raw (by decide)
  have hno : StringText "no_output" _ := stringText_raw (by decide)
  have hls : StringText "ls" _ := stringText_raw (by decide)
  have hnone : Blank [] := List.forall_mem_nil _
  have hline : Blank ['\n'] := by simp [Blank]
  have hspace : Blank [' '] := by simp [Blank]
  have hprose : Spells (.object [("doc", .string "😀")]) _ :=
    .object (.cons (.first hnone) (MemberText.intro hdoc hnone hnone (.string hface)) (.nil hnone))
  have hargs : Spells (.array [.string "ls", .string "\t"]) _ :=
    .array (.cons (.first hnone) (.string hls)
      (.cons (.next hnone hnone) (.string htab) (.nil hnone)))
  have hcommand : Spells (.object
      [("no_output", .bool true), ("run", .array [.string "ls", .string "\t"])]) _ :=
    .object (.cons (.first hnone) (MemberText.intro hno hnone hnone .yes)
      (.cons (.next hnone hnone) (MemberText.intro hrun hnone hnone hargs) (.nil hnone)))
  have hlist : Spells (.array [.object [("doc", .string "😀")], .object
      [("no_output", .bool true), ("run", .array [.string "ls", .string "\t"])]]) _ :=
    .array (.cons (.first hnone) hprose (.cons (.next hnone hline) hcommand (.nil hnone)))
  have hzero : NaturalText 0 ['0'] := naturalText_decimalDigits 0
  have hspells : Spells v _ :=
    .object (.cons (.first hnone) (MemberText.intro hsteps hnone hnone hlist)
      (.cons (.next hspace hnone) (MemberText.intro hversion hnone hspace (.natural hzero))
        (.nil hnone)))
  have htext : TextOf v text.toList := ⟨_, ['\n'], ⟨[], _, hnone, hspells, rfl⟩, hline, by decide⟩
  exact ⟨by decide, hdocumented, htext, (parse_of_documented (by decide) hdocumented htext).1 rfl⟩

/-! ## The compact text -/

/-- The value that writes a step, with both flags. -/
def Step.value : Step → Value
  | .doc text => .object [("doc", .string text)]
  | .run r => .object [("run", r.spec.value), ("allow_fail", .bool r.allowFail),
      ("no_output", .bool r.noOutput)]

/-- The value that writes a script. -/
def value (s : Script) : Value :=
  .object [("script_version", .number (.natural s.version)),
    ("steps", .array (s.steps.map Step.value))]

theorem Step.documented_value (s : Step) : s.Documented s.value := by
  cases s with
  | doc text => exact .doc
  | run r => exact .run .written .written (.refl _)

theorem documented_value (s : Script) : s.Documented s.value := by
  refine .intro ?_ (.refl _)
  rw [List.forall₂_map_right_iff]
  exact List.forall₂_same.2 fun step _ => step.documented_value

theorem textOf_compact (s : Script) : TextOf s.value s.value.compact.toList := by
  have hsteps : Spells (.array (s.steps.map Step.value)) _ := spells_writeItems fun v hv => by
    obtain ⟨step, -, rfl⟩ := List.mem_map.1 hv
    exact spells_write (Step.Shaped.wordy (.inl step.documented_value) 0).readable
  have hspells : Spells s.value s.value.write := spells_writeMembers fun m hm => by
    simp only [List.mem_cons, List.not_mem_nil, or_false] at hm
    rcases hm with rfl | rfl
    · exact .natural (naturalText_decimalDigits s.version)
    · exact hsteps
  refine ⟨s.value.write, [], ⟨[], _, blank_nil, hspells, rfl⟩, blank_nil, ?_⟩
  rw [Value.compact, String.toList_ofList, List.append_nil]

/-- **A script is read back from its compact text.** -/
theorem parse_compact {s : Script} (h : s.version = supportedVersion) :
    parse s.value.compact = .ok s := by
  have hread : readText s.value.compact.toList = .ok s := readText_eq_ok_iff.2
    ⟨by rw [h]; exact Nat.zero_le _, s.value, s.documented_value.shaped, s.textOf_compact⟩
  rw [parse, hread]
  exact if_pos h

end Script
end Walkthrough
