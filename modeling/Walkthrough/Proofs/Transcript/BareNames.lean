/-
# Files in the working directory by their bare names

The third rule of a target strips the working directory and the slash behind it, so a file
there is shown by its name, if the first two rules leave its path to the third.  They do
unless the path of the target occurs in it, and then they do not:

| target | directory | file | shown as |
| --- | --- | --- | --- |
| `/opt/t` | `/opt/tmp` | `f` | the alias and `mp/f` |
| `/f` | `/w` | `f` | `/w` and the alias |
| `/x.jar` | `/x.jars` | `f` | `x.jars/f` |

Where the invocation occurs, a long alias makes the text longer than any name
(`exists_length_lt_rewrite`).  A jar whose invocation does not occur is shown by its file
name, which leaves more of the path than the name of the file, as long as the jar is not in
the directory (`not_bareName_of_infix`).
-/

import Walkthrough.Proofs.Path
import Walkthrough.Proofs.Transcript.Sanitizing

namespace Walkthrough
namespace SubstitutionTable

open Text (replaceAll)

/-- What the path of a target is written as. -/
def bareName (path : List Char) : List Char :=
  (Path.fileName? path).getD path

/-- The three rules of a target on characters. -/
theorem toList_apply_forTarget {w : String} (hw : w.toList.getLast? ≠ some '/')
    (invocation shortName path text : String) :
    (apply (forTarget invocation shortName path w) text).toList =
      replaceAll (w.toList ++ ['/']) [] (replaceAll path.toList (bareName path.toList)
        (replaceAll invocation.toList shortName.toList text.toList)) := by
  have hslash : (withSlash w).toList = w.toList ++ ['/'] := by
    rw [Transcript.toList_withSlash, if_neg hw]
  rw [toList_apply]
  simp [forTarget, rewriteRule, hslash, bareName]

variable {path w f : List Char}

/-! ## Where the path of the target does not occur -/

/-- The directory and its slash are stripped from the path of a file. -/
theorem replaceAll_directory (hf : '/' ∉ f) : replaceAll (w ++ ['/']) [] (w ++ '/' :: f) = f := by
  have hsplit : w ++ '/' :: f = (w ++ ['/']) ++ f := by simp
  have hnone : ¬ w ++ ['/'] <:+: f := fun hin => hf (hin.subset (by simp))
  rw [hsplit, Text.replaceAll_append_self (by simp), Text.replaceAll_eq_self _ hnone,
    List.nil_append]

/-! ## Where the invocation occurs -/

/-- A long alias cannot be taken away by the rules behind it. -/
theorem exists_length_lt_rewrite {invocation text : List Char} (hinvocation : invocation ≠ [])
    (hin : invocation <:+: text) (hpath : '/' ∈ path) (r w f : List Char) :
    ∃ shortName : List Char, f.length < (replaceAll (w ++ ['/']) [] (replaceAll path r
      (replaceAll invocation shortName text))).length := by
  -- the slashes bound how often the rules behind it apply
  let n := text.count '/'
  let room := n * path.length + (n + n * r.count '/') * (w ++ ['/']).length
  let shortName := List.replicate (f.length + 1 + room) 'a'
  refine ⟨shortName, ?_⟩
  have hlong := Text.length_le_replaceAll hinvocation hin shortName
  have halias : '/' ∉ shortName := fun hmem =>
    absurd (List.eq_of_mem_replicate hmem) (by decide)
  have hslashes : (replaceAll invocation shortName text).count '/' ≤ n :=
    Text.count_replaceAll_le hinvocation halias text
  obtain ⟨hsecond, hslashes'⟩ := Text.length_le_of_count_le hpath hslashes r
  obtain ⟨hthird, -⟩ :=
    Text.length_le_of_count_le (p := w ++ ['/']) (by simp) hslashes' []
  have hroom : shortName.length = f.length + 1 + (n * path.length +
      (n + n * r.count '/') * (w ++ ['/']).length) := List.length_replicate
  omega

/-! ## Where only the path of a jar occurs -/

/-- The name of a jar cannot stand for the path of a jar outside the directory. -/
theorem not_bareName_of_infix {name : List Char} (hpath : Path.isAbsolute path = true)
    (hname : Path.fileName? path = some name) (hout : ¬ w ++ ['/'] <+: path) (hf : '/' ∉ f)
    (hin : path <:+: w ++ '/' :: f) :
    replaceAll (w ++ ['/']) [] (replaceAll path name (w ++ '/' :: f)) ≠ f := by
  intro hsame
  have hslash := Path.slash_mem_of_isAbsolute hpath
  have hpathNe : path ≠ [] := List.ne_nil_of_mem hslash
  have hnameNe := (Path.mem_splitSlash_of_fileName? hpath hname).1
  -- the second rule makes the text too short for the third one to apply
  have hsecond : replaceAll path name (w ++ '/' :: f) = f := by
    have hname' := Path.length_lt_of_fileName? hpath hname
    have hshorter := Text.length_replaceAll_add_le (Nat.le_of_lt hname') hpathNe hin
    by_cases hthird : w ++ ['/'] <:+: replaceAll path name (w ++ '/' :: f)
    · have hstripped := Text.length_replaceAll_add_le (r := []) (by simp) (by simp) hthird
      rw [hsame] at hstripped
      simp only [List.length_append, List.length_cons, List.length_nil] at hshorter hstripped
      omega
    · rwa [Text.replaceAll_eq_self _ hthird] at hsame
  -- the last cut ends in the name of the file, and so does the path in it
  obtain ⟨a, b, hab, hfilled⟩ := Text.exists_last_cut hpathNe hin
  rw [hfilled name] at hsecond
  obtain ⟨q, l, hq, hl⟩ := Path.exists_last_slash hslash
  have hb : '/' ∉ b := fun hmem => hf (hsecond ▸ List.mem_append_right _ hmem)
  have hlast : w ++ '/' :: f = (a ++ q) ++ '/' :: (l ++ b) := by
    rw [hab, hq]
    simp
  obtain ⟨hwq, hfl⟩ := Path.append_slash_inj hf (by simp [hl, hb]) hlast
  have hends : replaceAll path name a ++ name = l :=
    List.append_cancel_right (hsecond.trans hfl)
  -- there is no room for the name and anything in front of it
  have hroom : l.length ≤ name.length :=
    Path.length_le_of_fileName? (hq ▸ hpath) hl (hq ▸ hname)
  have hnone : replaceAll path name a = [] := by
    have hlength := congrArg List.length hends
    rw [List.length_append] at hlength
    exact List.eq_nil_of_length_eq_zero (by omega)
  obtain rfl := (Text.replaceAll_eq_nil_iff hnameNe).1 hnone
  exact hout ⟨l, by rw [hq, hwq]; simp⟩

/-! ## Every file of the directory -/

/-- A path that runs as a jar has a name. -/
theorem exists_fileName?_of_jar {path : String} (h : Target.kindOf path = .jar) :
    ∃ name, Path.fileName? path.toList = some name := by
  unfold Target.kindOf at h
  cases hname : Path.fileName? path.toList with
  | some name => exact ⟨name, rfl⟩
  | none =>
    rw [Path.extension?, hname] at h
    cases h

/-- **A file in the working directory is shown by its bare name**, whatever the alias is,
exactly if the path of the target does not occur in the path of the file. -/
theorem shown_by_bareName_iff {path w f : String} (hpath : Path.isAbsolute path.toList = true)
    (hw : w.toList.getLast? ≠ some '/') (hout : ¬ (w ++ "/").toList <+: path.toList)
    (hf : '/' ∉ f.toList) :
    (∀ shortName : String, (forTarget (Target.invocation ⟨path, Target.kindOf path, shortName⟩)
        shortName path w).apply (w ++ "/" ++ f) = f) ↔
      ¬ path.toList <:+: (w ++ "/" ++ f).toList := by
  have htext : (w ++ "/" ++ f).toList = w.toList ++ '/' :: f.toList := by simp
  have hslash := Path.slash_mem_of_isAbsolute hpath
  -- the invocation is the same under every alias
  let invocation := Target.invocation ⟨path, Target.kindOf path, ""⟩
  have hinvocation : invocation.toList = _ ++ path.toList :=
    Transcript.toList_invocation ⟨path, Target.kindOf path, ""⟩
  have hrules (shortName : String) : ((forTarget (Target.invocation
      ⟨path, Target.kindOf path, shortName⟩) shortName path w).apply (w ++ "/" ++ f)).toList =
        replaceAll (w.toList ++ ['/']) [] (replaceAll path.toList (bareName path.toList)
          (replaceAll invocation.toList shortName.toList (w ++ "/" ++ f).toList)) :=
    toList_apply_forTarget hw invocation shortName path _
  constructor
  · intro h hin
    have hshown (shortName : String) := congrArg String.toList (h shortName)
    simp only [hrules] at hshown
    by_cases hwhole : invocation.toList <:+: (w ++ "/" ++ f).toList
    · have hne : invocation.toList ≠ [] :=
        List.ne_nil_of_mem (hinvocation ▸ List.mem_append_right _ hslash)
      obtain ⟨shortName, hlong⟩ := exists_length_lt_rewrite hne hwhole hslash
        (bareName path.toList) w.toList f.toList
      have hsame := congrArg List.length (hshown (String.ofList shortName))
      rw [String.toList_ofList] at hsame
      exact absurd hsame (Nat.ne_of_gt hlong)
    · cases hkind : Target.kindOf path with
      | executable =>
        rw [hinvocation, hkind] at hwhole
        exact hwhole hin
      | jar =>
        obtain ⟨name, hname⟩ := exists_fileName?_of_jar hkind
        have hsame := hshown ""
        rw [Text.replaceAll_eq_self _ hwhole, bareName, hname, Option.getD_some, htext] at hsame
        exact not_bareName_of_infix hpath hname (by simpa using hout) hf (htext ▸ hin) hsame
  · intro hnone shortName
    have hnone' : ¬ invocation.toList <:+: (w ++ "/" ++ f).toList := by
      rw [hinvocation]
      exact fun hin => hnone ((List.suffix_append _ _).isInfix.trans hin)
    rw [← String.toList_inj, hrules, Text.replaceAll_eq_self _ hnone',
      Text.replaceAll_eq_self _ hnone, htext, replaceAll_directory hf]

/-- A file in a directory beside a jar. -/
theorem shown_by_bareName_of_jar :
    Path.isAbsolute "/opt/t-1.jar".toList = true ∧ "/opt/tmp".toList.getLast? ≠ some '/' ∧
      ¬ ("/opt/tmp" ++ "/").toList <+: "/opt/t-1.jar".toList ∧ '/' ∉ "f".toList ∧
      ∀ shortName, (forTarget (Target.invocation
        ⟨"/opt/t-1.jar", Target.kindOf "/opt/t-1.jar", shortName⟩) shortName
          "/opt/t-1.jar" "/opt/tmp").apply ("/opt/tmp" ++ "/" ++ "f") = "f" := by
  have hpath : Path.isAbsolute "/opt/t-1.jar".toList = true := by decide
  have hw : "/opt/tmp".toList.getLast? ≠ some '/' := by decide
  have hout : ¬ ("/opt/tmp" ++ "/").toList <+: "/opt/t-1.jar".toList := by decide
  have hf : '/' ∉ "f".toList := by decide
  have hnone : ¬ "/opt/t-1.jar".toList <:+: ("/opt/tmp" ++ "/" ++ "f").toList := by
    rw [← Text.occursIn_iff_isInfix]
    decide
  exact ⟨hpath, hw, hout, hf, (shown_by_bareName_iff hpath hw hout hf).2 hnone⟩

/-- **A target whose path occurs in the path of a file pre-empts the directory**: at the start,
at the end, and where only the path of a jar occurs. -/
theorem not_bareName_of_overlap :
    (forTarget "/opt/t" "t" "/opt/t" "/opt/tmp").apply "/opt/tmp/f" = "tmp/f" ∧
      (forTarget "/f" "t" "/f" "/w").apply "/w/f" = "/wt" ∧
      (forTarget "java -jar /x.jar" "x" "/x.jar" "/x.jars").apply "/x.jars/f" = "x.jars/f" ∧
      ¬ ∀ path shortName w f : String, Path.isAbsolute path.toList = true →
        Path.isAbsolute w.toList = true → w.toList.getLast? ≠ some '/' →
        ¬ (w ++ "/").toList <+: path.toList → f ≠ "" → '/' ∉ f.toList →
        (forTarget (Target.invocation ⟨path, Target.kindOf path, shortName⟩) shortName path w).apply
          (w ++ "/" ++ f) = f := by
  refine ⟨by decide +kernel, by decide +kernel, by decide +kernel, fun hclaim => ?_⟩
  have hbare := hclaim "/opt/t" "t" "/opt/tmp" "f" (by decide) (by decide) (by decide) (by decide)
    (by decide) (by decide)
  exact absurd hbare (by decide +kernel)

end SubstitutionTable
end Walkthrough
