/-
# Nothing is lost in the report on one line

Programs read the one-line form of a report, each line by itself.  Its fields may hold any
text: a message with line breaks, the output of a command with its escape sequences.

| key | shown | with |
| --- | --- | --- |
| `kind` | always | the name of the kind |
| `message` | always | the message, or what the kind says without one |
| `hint`, `path`, `command`, `output` | when set | the text |
| `exit_code` | when set | the number |
| `causes` | when there are errors below | the list of their texts, outermost first |

The table is `shown`, a partial map from keys to values, and the members of a report are its
graph (`mem_members_iff`), each key once (`nodup_members`).  The line is the compact text of
these members, so it has no control character and the members are read back from it; two
faults with one line have one table, hence the same fields (`shown_eq_iff`).  The chain of errors
below a fault is told by their texts alone (`causes_inj`).
-/

import Walkthrough.Proofs.Json.Writing
import Walkthrough.Report

namespace Walkthrough

/-- Kinds are told apart by their names. -/
theorem Fault.Kind.name_injective : Function.Injective Fault.Kind.name := by
  intro k l h
  cases k <;> cases l <;> first | rfl | exact absurd h (by decide)

/-! ## The chain of errors -/

namespace Fault

theorem Cause.texts_ne_nil (c : Cause) : c.texts ≠ [] := by
  cases c <;> simp [texts]

/-- A chain is told by its texts. -/
theorem Cause.texts_injective : Function.Injective Cause.texts := by
  intro c d h
  induction c generalizing d with
  | root text =>
    cases d with
    | root text' => rw [(List.cons.inj h).1]
    | above text' source' => exact absurd (List.cons.inj h).2.symm source'.texts_ne_nil
  | above text source ih =>
    cases d with
    | root text' => exact absurd (List.cons.inj h).2 source.texts_ne_nil
    | above text' source' =>
      obtain ⟨htext, hsource⟩ := List.cons.inj h
      rw [htext, ih hsource]

/-- The texts of the errors below a fault tell all that is below it. -/
theorem causes_inj {f g : Fault} : f.causes = g.causes ↔ f.source = g.source := by
  refine ⟨fun h => ?_, fun h => by rw [causes, causes, h]⟩
  unfold causes at h
  cases hf : f.source with
  | none =>
    cases hg : g.source with
    | none => rfl
    | some d =>
      rw [hf, hg] at h
      exact absurd h.symm d.texts_ne_nil
  | some c =>
    cases hg : g.source with
    | none =>
      rw [hf, hg] at h
      exact absurd h c.texts_ne_nil
    | some d =>
      rw [hf, hg] at h
      rw [Cause.texts_injective h]

end Fault

namespace Report

open Json (Value NoControl)

/-- What the report of a fault shows under a key. -/
def shown (f : Fault) : String → Option Value
  | "kind" => some (.string f.kind.name)
  | "message" => some (.string (f.message.getD f.kind.defaultMessage))
  | "hint" => f.hint.map .string
  | "path" => f.path.map .string
  | "command" => f.command.map .string
  | "exit_code" => f.exitCode.map fun n => .number (.natural n.toNat)
  | "output" => f.output.map .string
  | "causes" => if f.causes = [] then none else some (.array (f.causes.map .string))
  | _ => none

/-- Two faults agree in all that a report shows, the whole chain of errors included: a message may
stand for the missing one. -/
structure Alike (f g : Fault) : Prop where
  kind : f.kind = g.kind
  message : f.message.getD f.kind.defaultMessage = g.message.getD g.kind.defaultMessage
  hint : f.hint = g.hint
  path : f.path = g.path
  command : f.command = g.command
  exitCode : f.exitCode = g.exitCode
  output : f.output = g.output
  source : f.source = g.source

/-! ## The members -/

theorem mem_textMember {key k : String} {field : Option String} {v : Value} :
    (k, v) ∈ textMember key field ↔ k = key ∧ field.map .string = some v := by
  cases field <;> simp [textMember, eq_comm]

theorem mem_exitCodeMember {code : Option UInt8} {k : String} {v : Value} :
    (k, v) ∈ exitCodeMember code ↔
      k = "exit_code" ∧ (code.map fun n => Value.number (.natural n.toNat)) = some v := by
  cases code <;> simp [exitCodeMember, eq_comm]

theorem mem_causesMember {causes : List String} {k : String} {v : Value} :
    (k, v) ∈ causesMember causes ↔
      k = "causes" ∧
        (if causes = [] then none else some (.array (causes.map .string))) = some v := by
  cases causes <;> simp [causesMember, eq_comm]

/-- **The members are the table**: each key with what is shown under it, and no other. -/
theorem mem_members_iff {f : Fault} {key : String} {v : Value} :
    (key, v) ∈ members f ↔ shown f key = some v := by
  simp only [members, List.mem_append, mem_textMember, mem_exitCodeMember, mem_causesMember,
    List.mem_cons, Prod.mk.injEq, List.not_mem_nil, or_false]
  fun_cases shown f key <;> generalize f.causes = causes at * <;>
    simp_all [Fault.summary, eq_comm]

/-- A field has its key once at most. -/
theorem map_fst_textMember_sublist (key : String) (field : Option String) :
    ((textMember key field).map Prod.fst).Sublist [key] := by
  cases field with
  | none => exact List.nil_sublist _
  | some text => exact List.Sublist.refl _

theorem map_fst_exitCodeMember_sublist (code : Option UInt8) :
    ((exitCodeMember code).map Prod.fst).Sublist ["exit_code"] := by
  cases code with
  | none => exact List.nil_sublist _
  | some n => exact List.Sublist.refl _

theorem map_fst_causesMember_sublist (causes : List String) :
    ((causesMember causes).map Prod.fst).Sublist ["causes"] := by
  cases causes with
  | nil => exact List.nil_sublist _
  | cons c cs => exact List.Sublist.refl _

/-- No key stands twice among the members. -/
theorem nodup_members (f : Fault) : ((members f).map Prod.fst).Nodup := by
  have hsub : ((members f).map Prod.fst).Sublist
      (["causes"] ++ ["command"] ++ ["exit_code"] ++ ["hint"] ++ ["kind", "message"]
        ++ ["output"] ++ ["path"]) := by
    simp only [members, List.map_append]
    refine .append (.append (.append (.append (.append (.append ?_ ?_) ?_) ?_) (.refl _)) ?_) ?_
    · exact map_fst_causesMember_sublist _
    · exact map_fst_textMember_sublist _ _
    · exact map_fst_exitCodeMember_sublist _
    · exact map_fst_textMember_sublist _ _
    · exact map_fst_textMember_sublist _ _
    · exact map_fst_textMember_sublist _ _
  exact hsub.nodup (by decide)

/-- Every value of a report can be read: texts, one list of texts, a number of one byte. -/
theorem readable_of_shown {f : Fault} {key : String} {v : Value} {depth : Nat}
    (h : shown f key = some v) : v.Readable (depth + 1) := by
  have htext : ∀ {field : Option String}, field.map Value.string = some v →
      v.Readable (depth + 1) := by
    intro field hfield
    obtain ⟨t, -, rfl⟩ := Option.map_eq_some_iff.1 hfield
    exact trivial
  revert h
  fun_cases shown f key with
  | case1 => rintro ⟨⟩; exact trivial
  | case2 => rintro ⟨⟩; exact trivial
  | case3 => exact htext
  | case4 => exact htext
  | case5 => exact htext
  | case6 =>
    intro h
    obtain ⟨n, -, rfl⟩ := Option.map_eq_some_iff.1 h
    exact Nat.le_trans (Nat.le_of_lt n.toNat_lt) (by decide)
  | case7 => exact htext
  | case8 => rintro ⟨⟩
  | case9 =>
    rintro ⟨⟩
    exact List.forall_mem_map.2 fun _ _ => by cases depth <;> exact trivial
  | case10 => rintro ⟨⟩

theorem readable_value (f : Fault) : (value f).Readable Json.maxDepth := by
  refine List.forall_mem_singleton.2 fun m hm => ?_
  exact readable_of_shown (mem_members_iff.1 hm)

/-! ## The table -/

theorem exitCode_eq_of_shown {c d : Option UInt8}
    (h : (c.map fun n => Value.number (.natural n.toNat)) =
      d.map fun n => Value.number (.natural n.toNat)) : c = d := by
  refine Option.map_injective (fun m n heq => ?_) h
  exact UInt8.toNat_inj.1 (Json.Numeral.natural.inj (Value.number.inj heq))

theorem causes_eq_of_shown {cs ds : List String}
    (h : (if cs = [] then none else some (Value.array (cs.map .string))) =
      if ds = [] then none else some (Value.array (ds.map .string))) : cs = ds := by
  have hstring : Function.Injective Value.string := fun _ _ => Value.string.inj
  cases cs with
  | nil => cases ds with
    | nil => rfl
    | cons d ds => exact absurd h (by simp)
  | cons c cs => cases ds with
    | nil => exact absurd h (by simp)
    | cons d ds =>
      exact (List.map_inj_right hstring).1 (Value.array.inj (Option.some.inj h))

/-- The table tells the fields, a message up to what the kind says without one. -/
theorem shown_eq_iff {f g : Fault} : shown f = shown g ↔ Alike f g := by
  constructor
  · intro h
    have hstring : Function.Injective Value.string := fun _ _ => Value.string.inj
    exact
      { kind := Fault.Kind.name_injective (hstring (Option.some.inj (congrFun h "kind")))
        message := hstring (Option.some.inj (congrFun h "message"))
        hint := Option.map_injective hstring (congrFun h "hint")
        path := Option.map_injective hstring (congrFun h "path")
        command := Option.map_injective hstring (congrFun h "command")
        exitCode := exitCode_eq_of_shown (congrFun h "exit_code")
        output := Option.map_injective hstring (congrFun h "output")
        source := Fault.causes_inj.1 (causes_eq_of_shown (congrFun h "causes")) }
  · intro h
    funext key
    unfold shown
    rw [h.message, h.kind, h.hint, h.path, h.command, h.exitCode, h.output,
      Fault.causes_inj.2 h.source]

/-! ## The line -/

theorem parse_line (f : Fault) : Json.parse (line f).toList = .ok (value f) :=
  Json.parse_compact (readable_value f)

theorem noControl_line (f : Fault) : NoControl (line f).toList := by
  rw [line, Value.compact, String.toList_ofList]
  exact Json.noControl_write (readable_value f)

/-- The members are written behind the one key. -/
theorem toList_line (f : Fault) :
    (line f).toList = '\x7b' :: Json.writeString "error" ++
      ':' :: (Value.object (members f)).write ++ ['\x7d'] := by
  rw [line, Value.compact, String.toList_ofList, value, Value.write, Json.writeMembers]
  simp

theorem line_starts (f : Fault) : "\x7b\x22error\x22:".toList <+: (line f).toList := by
  have hkey : "\x7b\x22error\x22:".toList = '\x7b' :: Json.writeString "error" ++ [':'] := by
    decide
  rw [hkey, toList_line]
  exact ⟨(Value.object (members f)).write ++ ['\x7d'], by simp⟩

/-- The line tells the fields, a message up to what the kind says without one. -/
theorem line_eq_iff {f g : Fault} : line f = line g ↔ Alike f g := by
  constructor
  · intro h
    have hvalue : value f = value g := by
      have hg := parse_line g
      rw [← h, parse_line f] at hg
      exact Except.ok.inj hg
    have hmembers : members f = members g := by simpa [value] using hvalue
    refine shown_eq_iff.1 (funext fun key => Option.ext fun v => ?_)
    rw [← mem_members_iff, ← mem_members_iff, hmembers]
  · intro h
    unfold line value members Fault.summary
    rw [h.message, h.kind, h.hint, h.path, h.command, h.exitCode, h.output,
      Fault.causes_inj.2 h.source]

/-- **The report on one line is one line and lossless.**  Whatever texts a fault holds, the
line has no control character and starts with the key `error`; read as JSON it is an object
with this key alone, whose value has exactly the keys and values that are shown, each key
once.  Two faults have the same line exactly if they agree in all that is shown. -/
theorem written_lossless (f : Fault) (mode : ColorMode) :
    NoControl (written f mode false).toList ∧
      "\x7b\x22error\x22:".toList <+: (written f mode false).toList ∧
      (∃ ms, Json.parse (written f mode false).toList = .ok (.object [("error", .object ms)]) ∧
        (ms.map Prod.fst).Nodup ∧ ∀ key v, (key, v) ∈ ms ↔ shown f key = some v) ∧
      ∀ g mode', written f mode false = written g mode' false ↔ Alike f g := by
  refine ⟨noControl_line f, line_starts f, ?_, fun g mode' => line_eq_iff⟩
  exact ⟨members f, parse_line f, nodup_members f, fun key v => mem_members_iff⟩

end Report
end Walkthrough
