/-
# The rules of a table, one after another

A rule is applied only where its source occurs, and a rule without a source not at all.
Neither changes a text: a rule that is applied cuts the text at its source, and where there
is no cut there is nothing to fill (`applyRule_eq_replaceIn`).

So a table rewrites a text as its rules with a source do in their order, each filling all cuts
of the text that the one before it left (`Rewrites`).  What a rule writes may hold its source
again, or make it together with what stands around it; it does not if it is not empty and has
no character of the source (`not_infix_replaceAll`).
-/

import Walkthrough.Proofs.Text.Cuts
import Walkthrough.Proofs.Text.Substitution
import Walkthrough.Transcript.Substitution

namespace Walkthrough

namespace Text

variable {p r : List Char}

/-- **No occurrence is left** behind a filling that is not empty and has no character of the
word. -/
theorem not_infix_replaceAll (hp : p ≠ []) (hr : r ≠ []) (hpr : ∀ c ∈ r, c ∉ p) (s : List Char) :
    ¬ p <:+: replaceAll p r s := by
  have hself : ¬ p <:+: r := by
    intro hin
    obtain ⟨c, hc⟩ := List.exists_mem_of_ne_nil p hp
    exact hpr c (hin.subset hc) hc
  induction s using cut_induction hp with
  | nil =>
    rw [replaceAll_nil]
    exact fun hin => hp (List.infix_nil.1 hin)
  | cut s ih =>
    have hapart : Apart p r (replaceAll p r s) := by
      obtain ⟨k, q, rfl⟩ := List.exists_cons_of_ne_nil hp
      exact apart_of_head_not_mem (fun hk => hpr k hk List.mem_cons_self) _
    rw [replaceAll_append_self hp, infix_append_iff hapart, not_or]
    exact ⟨hself, ih⟩
  | keep c s hstart ih =>
    rw [replaceAll_cons r hstart, List.infix_cons_iff, not_or]
    refine ⟨fun hword => hstart ?_, ih⟩
    -- what the word has behind its first character was there before the filling
    obtain ⟨k, q, rfl⟩ := List.exists_cons_of_ne_nil hp
    obtain ⟨d, t, rfl⟩ := List.exists_cons_of_ne_nil hr
    obtain ⟨rfl, hrest⟩ := List.cons_prefix_cons.1 hword
    have hd : d ∉ q := fun hmem => hpr d List.mem_cons_self (List.mem_cons_of_mem k hmem)
    exact List.cons_prefix_cons.2 ⟨rfl, prefix_of_prefix_replaceAll hd hrest⟩

end Text

namespace SubstitutionTable

/-- A rule whose source does not occur would change nothing. -/
theorem applyRule_eq_replaceIn (text : String) (r : Rule) :
    applyRule text r = Text.replaceIn r.source r.replacement text := by
  unfold applyRule
  split
  · rfl
  · rename_i hnone
    rw [Text.isWithin, Text.occursIn_iff_isInfix] at hnone
    rw [Text.replaceIn, Text.replaceAll_eq_self _ hnone, String.ofList_toList]

theorem toList_applyRule (text : String) (r : Rule) :
    (applyRule text r).toList =
      Text.replaceAll r.source.toList r.replacement.toList text.toList := by
  rw [applyRule_eq_replaceIn, Text.replaceIn, String.toList_ofList]

/-- Rules rewrite a text one after another: each fills all cuts of the text that the one before
it left. -/
inductive Rewrites : SubstitutionTable → List Char → List Char → Prop where
  | done (s : List Char) : Rewrites [] s s
  | rule {r : Rule} {t : SubstitutionTable} {s out : List Char} {ps : List (List Char)} :
      Text.Cuts r.source.toList s ps → Rewrites t (r.replacement.toList.intercalate ps) out →
        Rewrites (r :: t) s out

theorem rewrites_nil_iff {s out : List Char} : Rewrites [] s out ↔ out = s :=
  ⟨fun h => by cases h; rfl, fun h => h ▸ .done s⟩

/-- A rule with a source has one way to rewrite a text. -/
theorem rewrites_cons_iff {r : Rule} (hr : r.source.toList ≠ []) {t : SubstitutionTable}
    {text : String} {out : List Char} :
    Rewrites (r :: t) text.toList out ↔ Rewrites t (applyRule text r).toList out := by
  rw [toList_applyRule, Text.replaceAll]
  constructor
  · intro h
    cases h with
    | rule hcuts hrest =>
      obtain rfl := (Text.cuts_iff_eq_pieces hr).1 hcuts
      exact hrest
  · exact .rule (Text.cuts_pieces hr text.toList)

theorem source_ne_nil_iff {r : Rule} : r.source.toList ≠ [] ↔ r.source ≠ "" := by
  rw [ne_eq, ne_eq, String.toList_eq_nil_iff]

/-- Rules that all have a source rewrite a text to what applying them gives. -/
theorem rewrites_iff_foldl {t : SubstitutionTable} (ht : ∀ r ∈ t, r.source ≠ "") {text : String}
    {out : List Char} : Rewrites t text.toList out ↔ out = (t.foldl applyRule text).toList := by
  induction t generalizing text with
  | nil => exact rewrites_nil_iff
  | cons r t ih =>
    obtain ⟨hr, ht⟩ := List.forall_mem_cons.1 ht
    rw [rewrites_cons_iff (source_ne_nil_iff.2 hr), ih ht, List.foldl_cons]

/-- **A table is its rules with a source in their order, each a replacement of all cuts.**  A
text rewritten by the rules is what applying the table gives; every text has exactly one list
of cuts at a source, which joined with the source is the text and holds no occurrence of it
between cuts; and a rule whose replacement is not empty and has no character of its source
leaves no occurrence of it. -/
theorem apply_iff_rewrites (t : SubstitutionTable) (text : String) :
    (∀ out : String, t.apply text = out ↔
        Rewrites (t.filter fun r => r.source ≠ "") text.toList out.toList) ∧
      (∀ r : Rule, r.source ≠ "" → ∀ s, ∃ ps, (∀ ps', Text.Cuts r.source.toList s ps' ↔ ps' = ps) ∧
        r.source.toList.intercalate ps = s ∧ ∀ q ∈ ps, ¬ r.source.toList <:+: q) ∧
      (∀ r : Rule, r.source ≠ "" → r.replacement ≠ "" →
        (∀ c ∈ r.replacement.toList, c ∉ r.source.toList) →
          ¬ r.source.toList <:+: (apply [r] text).toList) := by
  refine ⟨fun out => ?_, fun r hr s => ?_, fun r hsource hreplacement hdisjoint => ?_⟩
  · have hfilter : (t.filter fun r => !r.source.isEmpty) = t.filter fun r => r.source ≠ "" :=
      List.filter_congr fun r _ => by rw [Bool.eq_iff_iff]; simp
    rw [apply, hfilter, rewrites_iff_foldl (fun r hr => by simpa using (List.mem_filter.1 hr).2),
      String.toList_inj]
    exact eq_comm
  · have hp := source_ne_nil_iff.2 hr
    have hcuts := Text.cuts_pieces hp s
    exact ⟨Text.pieces r.source.toList s, fun ps' => Text.cuts_iff_eq_pieces hp,
      hcuts.intercalate_eq, hcuts.absent hp⟩
  · have hsingle : apply [r] text = applyRule text r := by simp [apply, hsource]
    rw [hsingle, toList_applyRule]
    refine Text.not_infix_replaceAll (source_ne_nil_iff.2 hsource) ?_ hdisjoint text.toList
    rwa [ne_eq, String.toList_eq_nil_iff]

/-- A source that overlaps itself, behind a rule without a source. -/
theorem apply_iff_rewrites_overlapping :
    let r : Rule := ⟨"aba", "x"⟩
    r.source ≠ "" ∧ r.replacement ≠ "" ∧ (∀ c ∈ r.replacement.toList, c ∉ r.source.toList) ∧
      Rewrites [r] "ababa".toList "xba".toList ∧
      (∀ ps, Text.Cuts r.source.toList "ababa".toList ps ↔ ps = [[], ['b', 'a']]) ∧
      ¬ r.source.toList <:+: (apply [r] "ababa").toList := by
  intro r
  have hsource : r.source ≠ "" := by decide
  have hreplacement : r.replacement ≠ "" := by decide
  have hdisjoint : ∀ c ∈ r.replacement.toList, c ∉ r.source.toList := by simp [r]
  obtain ⟨happly, hcuts, hgone⟩ := apply_iff_rewrites [⟨"", "y"⟩, r] "ababa"
  have hpieces : Text.Cuts r.source.toList "ababa".toList [[], ['b', 'a']] :=
    (Text.cuts_iff_eq_pieces (source_ne_nil_iff.2 hsource)).2 (by decide +kernel)
  obtain ⟨ps, hunique, -, -⟩ := hcuts r hsource "ababa".toList
  obtain rfl := (hunique _).1 hpieces
  refine ⟨hsource, hreplacement, hdisjoint, (happly "xba").1 (by decide +kernel), hunique,
    hgone r hsource hreplacement hdisjoint⟩

/-- A replacement that makes its source again with what stands around it. -/
example : apply [⟨"ab", "a"⟩] "aabb" = "aab" := by decide +kernel

end SubstitutionTable
end Walkthrough
