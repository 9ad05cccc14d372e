/-
# Laws of paths

A path is read in two ways: by its texts between slashes (`splitSlash`), as a walk takes it,
and by its components, as its name and its parent are found.  Empty texts and dots are no
components, so the two differ where a path has slashes in a row or dots (`Stays`).

Where the last text is a name, the components end in it, and the parent is the path in front
of it with the slashes and dots at its end trimmed (`parent?_eq`).  What was trimmed stays
where it is, so the parent leads where the texts in front of the name do (`parent?_cases`).
-/

import Walkthrough.Path
import Walkthrough.Proofs.Text.Line

namespace Walkthrough
namespace Path

theorem isAbsolute_iff {p : List Char} : isAbsolute p = true ↔ p.head? = some '/' := by
  rw [isAbsolute, beq_iff_eq]

/-- A text between slashes has none. -/
theorem slash_not_mem_of_mem_splitSlash {p w : List Char} (h : w ∈ splitSlash p) : '/' ∉ w :=
  Text.mark_not_mem_of_mem_splitAt h

/-- The text of a component between slashes is what stands there. -/
theorem text_of_componentOf? {first : Bool} {w : List Char} {c : Component}
    (h : componentOf? first w = some c) : c.text = w := by
  unfold componentOf? at h
  split at h
  · cases h
  split at h
  · rename_i hdot
    split at h
    · obtain rfl := Option.some.inj h
      exact hdot.symm
    · cases h
  split at h
  · rename_i hdots
    obtain rfl := Option.some.inj h
    exact hdots.symm
  · obtain rfl := Option.some.inj h
    rfl

/-- Going on from an absolute path with a relative one stays absolute. -/
theorem isAbsolute_join {base p : List Char} (hbase : isAbsolute base = true)
    (hp : isAbsolute p = false) : isAbsolute (join base p) = true := by
  obtain ⟨t, rfl⟩ := List.head?_eq_some_iff.1 (isAbsolute_iff.1 hbase)
  rw [join, if_neg (by simp [hp]), if_neg (by simp)]
  split <;> exact hbase

theorem isAbsolute_foldl_join {names : List (List Char)} {start : List Char}
    (hstart : isAbsolute start = true) (h : ∀ w ∈ names, isAbsolute w = false) :
    isAbsolute (names.foldl join start) = true := by
  induction names generalizing start with
  | nil => exact hstart
  | cons w names ih =>
    obtain ⟨hw, hrest⟩ := List.forall_mem_cons.1 h
    exact ih (isAbsolute_join hstart hw) hrest

/-- A path from the root is absolute. -/
theorem isAbsolute_absolute {cwd : List Char} (hcwd : isAbsolute cwd = true) (p : List Char) :
    isAbsolute (absolute cwd p) = true := by
  have hnames : ∀ w ∈ ((splitSlash p).filterMap (componentOf? false)).map Component.text,
      isAbsolute w = false := by
    intro w hw
    obtain ⟨c, hc, rfl⟩ := List.mem_map.1 hw
    obtain ⟨v, hv, hvc⟩ := List.mem_filterMap.1 hc
    rw [text_of_componentOf? hvc, Bool.eq_false_iff, ne_eq, isAbsolute_iff]
    exact fun hhead => slash_not_mem_of_mem_splitSlash hv (List.mem_of_mem_head? hhead)
  have hjoined : isAbsolute ((((splitSlash p).filterMap (componentOf? false)).map
      Component.text).foldl join (if (p.take 2 == ['/', '/'] && p.take 3 != ['/', '/', '/']) = true
        then ['/', '/'] else if isAbsolute p = true then ['/'] else cwd)) = true := by
    refine isAbsolute_foldl_join ?_ hnames
    split
    · rfl
    split
    · rfl
    · exact hcwd
  unfold absolute
  dsimp only
  split
  · exact isAbsolute_join hjoined rfl
  · exact hjoined

/-! ## The last slash -/

theorem splitSlash_append {l : List Char} (hl : '/' ∉ l) (p : List Char) :
    splitSlash (p ++ '/' :: l) = splitSlash p ++ [l] := by
  rw [splitSlash, Text.splitAt_append, Text.splitAt_of_not_mem hl]
  rfl

/-- A path is cut at its last slash in one way. -/
theorem append_slash_inj {p q l k : List Char} (hl : '/' ∉ l) (hk : '/' ∉ k)
    (h : p ++ '/' :: l = q ++ '/' :: k) : p = q ∧ l = k := by
  have hparts := congrArg splitSlash h
  rw [splitSlash_append hl, splitSlash_append hk] at hparts
  obtain rfl := List.singleton_inj.1 (List.append_inj_right' hparts rfl)
  exact ⟨List.append_cancel_right h, rfl⟩

theorem exists_last_slash {p : List Char} (h : '/' ∈ p) : ∃ q l, p = q ++ '/' :: l ∧ '/' ∉ l := by
  obtain ⟨l, q, hreverse, hl⟩ := List.eq_append_cons_of_mem (List.mem_reverse.2 h)
  refine ⟨q.reverse, l.reverse, ?_, by simpa using hl⟩
  rw [← List.reverse_reverse p, hreverse]
  simp

/-! ## The name of a path -/

theorem fileName?_eq_some_iff {p w : List Char} :
    fileName? p = some w ↔ (components p).getLast? = some (.name w) := by
  unfold fileName?
  split
  · rename_i v hv
    simp [hv]
  · rename_i hnone
    refine ⟨nofun, fun h => absurd h (hnone w)⟩

/-- The name of an absolute path is not empty and stands between its slashes. -/
theorem mem_splitSlash_of_fileName? {p w : List Char} (h : isAbsolute p = true)
    (hw : fileName? p = some w) : w ≠ [] ∧ w ∈ splitSlash p := by
  have hlast := List.mem_of_getLast? (fileName?_eq_some_iff.1 hw)
  rw [components, if_pos h] at hlast
  rcases List.mem_cons.1 hlast with hroot | hmem
  · cases hroot
  obtain ⟨v, hv, hvw⟩ := List.mem_filterMap.1 hmem
  obtain rfl : w = v := text_of_componentOf? hvw
  refine ⟨?_, hv⟩
  rintro rfl
  cases hvw

theorem slash_mem_of_isAbsolute {p : List Char} (h : isAbsolute p = true) : '/' ∈ p :=
  List.mem_of_mem_head? (isAbsolute_iff.1 h)

/-- An absolute path is longer than its name. -/
theorem length_lt_of_fileName? {p w : List Char} (h : isAbsolute p = true)
    (hw : fileName? p = some w) : w.length < p.length := by
  have hmem := (mem_splitSlash_of_fileName? h hw).2
  have hin : w <:+: p := Text.infix_of_mem_splitAt hmem
  refine Nat.lt_of_le_of_ne hin.length_le fun heq => ?_
  exact slash_not_mem_of_mem_splitSlash hmem (hin.eq_of_length heq ▸ slash_mem_of_isAbsolute h)

/-- Behind its last slash an absolute path has its name or less. -/
theorem length_le_of_fileName? {p l w : List Char} (h : isAbsolute (p ++ '/' :: l) = true)
    (hl : '/' ∉ l) (hw : fileName? (p ++ '/' :: l) = some w) : l.length ≤ w.length := by
  have hne := (mem_splitSlash_of_fileName? h hw).1
  rw [fileName?_eq_some_iff, components, if_pos h, splitSlash_append hl,
    List.filterMap_append] at hw
  cases hc : componentOf? false l with
  | some c =>
    -- it is the last component, so it is the name
    rw [List.filterMap_cons_some hc, List.filterMap_nil, ← List.cons_append,
      List.getLast?_concat] at hw
    obtain rfl := Option.some.inj hw
    exact Nat.le_of_eq (congrArg List.length (text_of_componentOf? hc).symm)
  | none =>
    -- it is empty or a dot, and a name has at least one character
    have hshort : l.length ≤ 1 := by
      unfold componentOf? at hc
      split at hc
      · rename_i hempty
        simp [List.isEmpty_iff.1 hempty]
      split at hc
      · rename_i hdot
        simp [hdot]
      split at hc <;> cases hc
    exact Nat.le_trans hshort (List.length_pos_of_ne_nil hne)

/-! ## The parent of a path -/

/-- A text between slashes that stays where it is. -/
def Stays (w : List Char) : Prop :=
  w = [] ∨ w = ['.']

instance (w : List Char) : Decidable (Stays w) :=
  inferInstanceAs (Decidable (w = [] ∨ w = ['.']))

/-- A path keeps its start when slashes and dots at its end go. -/
theorem getLast?_trimReversed (r : List Char) : (trimReversed r).getLast? = r.getLast? := by
  fun_induction trimReversed r with
  | case1 => rfl
  | case2 => rfl
  | case3 r hne ih =>
    have hr : r ≠ [] := fun h => hne (h ▸ rfl)
    rw [ih, List.getLast?_cons_of_ne_nil hr]
  | case4 => rfl
  | case5 => rfl
  | case6 r hne ih =>
    have hr : r ≠ [] := fun h => hne (h ▸ rfl)
    rw [ih, List.getLast?_cons_of_ne_nil (List.cons_ne_nil _ _), List.getLast?_cons_of_ne_nil hr]
  | case7 => rfl

theorem head?_trimRight (p : List Char) : (trimRight p).head? = p.head? := by
  rw [trimRight, List.head?_reverse, getLast?_trimReversed, List.getLast?_reverse]

/-- What goes at the end of a path stays where it is; nothing but the root is left of a path
where everything stays. -/
theorem splitSlash_trimReversed (r : List Char) :
    (trimReversed r = ['/'] ∧ ∀ w ∈ splitSlash r.reverse, Stays w) ∨
      ∃ rest, (∀ w ∈ rest, Stays w) ∧
        splitSlash r.reverse = splitSlash (trimReversed r).reverse ++ rest := by
  have hmore {r l s : List Char} (hl : '/' ∉ l) (hstays : Stays l)
      (ih : (s = ['/'] ∧ ∀ w ∈ splitSlash r.reverse, Stays w) ∨
        ∃ rest, (∀ w ∈ rest, Stays w) ∧ splitSlash r.reverse = splitSlash s.reverse ++ rest) :
      (s = ['/'] ∧ ∀ w ∈ splitSlash (r.reverse ++ '/' :: l), Stays w) ∨
        ∃ rest, (∀ w ∈ rest, Stays w) ∧
          splitSlash (r.reverse ++ '/' :: l) = splitSlash s.reverse ++ rest := by
    rw [splitSlash_append hl]
    rcases ih with ⟨hroot, hall⟩ | ⟨rest, hall, heq⟩
    · exact .inl ⟨hroot, List.forall_mem_append.2 ⟨hall, List.forall_mem_singleton.2 hstays⟩⟩
    · refine .inr ⟨rest ++ [l], ?_, by rw [heq, List.append_assoc]⟩
      exact List.forall_mem_append.2 ⟨hall, List.forall_mem_singleton.2 hstays⟩
  fun_induction trimReversed r with
  | case1 => exact .inr ⟨[], List.forall_mem_nil _, by simp⟩
  | case2 => exact .inl ⟨rfl, by decide⟩
  | case3 r _ ih =>
    rw [List.reverse_cons]
    exact hmore List.not_mem_nil (.inl rfl) ih
  | case4 => exact .inr ⟨[], List.forall_mem_nil _, by simp⟩
  | case5 => exact .inl ⟨rfl, by decide⟩
  | case6 r _ ih =>
    rw [List.reverse_cons, List.reverse_cons, List.append_assoc, List.singleton_append]
    exact hmore (by decide) (.inr rfl) ih
  | case7 => exact .inr ⟨[], List.forall_mem_nil _, by simp⟩

/-- A text between slashes that is a name. -/
structure IsName (w : List Char) : Prop where
  noSlash : '/' ∉ w
  nonempty : w ≠ []
  noDot : w ≠ ['.']
  noDots : w ≠ ['.', '.']

theorem IsName.componentOf? {w : List Char} (h : IsName w) (first : Bool) :
    componentOf? first w = some (.name w) := by
  rw [Path.componentOf?, if_neg (by simpa using h.nonempty), if_neg h.noDot, if_neg h.noDots]

theorem trimReversed_eq_self {c : Char} {r : List Char} (hslash : c ≠ '/')
    (hdot : c = '.' → r.head? ≠ some '/') : trimReversed (c :: r) = c :: r := by
  unfold trimReversed
  split <;> simp_all

/-- A path that ends in a name has nothing to trim. -/
theorem trimRight_of_isName {w : List Char} (h : IsName w) (p : List Char) :
    trimRight (p ++ w) = p ++ w := by
  obtain ⟨c, r, hcr⟩ := List.exists_cons_of_ne_nil (mt List.reverse_eq_nil_iff.1 h.nonempty)
  have hmem {x : Char} (hx : x ∈ c :: r) : x ∈ w := List.mem_reverse.1 (hcr ▸ hx)
  have hslash : c ≠ '/' := fun heq => h.noSlash (heq ▸ hmem List.mem_cons_self)
  have hdot : c = '.' → (r ++ p.reverse).head? ≠ some '/' := by
    intro hc hhead
    cases r with
    | nil =>
      have hw : w = ['.'] := by rw [← List.reverse_reverse w, hcr, hc]; rfl
      exact h.noDot hw
    | cons d r =>
      obtain rfl : d = '/' := by simpa using hhead
      exact h.noSlash (hmem (by simp))
  rw [trimRight, List.reverse_append, hcr, List.cons_append, trimReversed_eq_self hslash hdot,
    ← List.cons_append, ← hcr, ← List.reverse_append, List.reverse_reverse]

/-- The last component of a path that ends in a name is the name. -/
theorem getLast?_components {w : List Char} (h : IsName w) {p : List Char}
    {front : List (List Char)} (hp : splitSlash p = front ++ [w]) :
    (components p).getLast? = some (.name w) := by
  unfold components
  split
  · rw [hp, List.filterMap_append, List.filterMap_cons_some (h.componentOf? false),
      List.filterMap_nil, ← List.cons_append, List.getLast?_concat]
  · rw [hp]
    cases front with
    | nil => simp [h.componentOf? true]
    | cons v front =>
      rw [List.cons_append]
      dsimp only
      rw [List.filterMap_append, List.filterMap_cons_some (h.componentOf? false),
        List.filterMap_nil, ← List.append_assoc, List.getLast?_concat]

/-- The parent of a path that ends in a name is what stands in front of it. -/
theorem parent?_eq {w : List Char} (h : IsName w) {p : List Char} {front : List (List Char)}
    (hp : splitSlash (p ++ w) = front ++ [w]) : parent? (p ++ w) = some (trimRight p) := by
  have hlast := getLast?_components h hp
  have htrim := trimRight_of_isName h p
  rw [parent?, hlast, htrim]
  simp [Component.text]

theorem trimRight_append_slash {p : List Char} (hp : p ≠ []) :
    trimRight (p ++ ['/']) = trimRight p := by
  obtain ⟨c, r, hcr⟩ := List.exists_cons_of_ne_nil (mt List.reverse_eq_nil_iff.1 hp)
  rw [trimRight, trimRight, List.reverse_append, hcr]
  rfl

/-- **The parent of a path that ends in a name** leads where the texts in front of the name
lead: it is empty if there are none, the root if all of them stay there, and else lacks some
at the end that stay. -/
theorem parent?_cases {dest w : List Char} (h : IsName w) {front : List (List Char)}
    (hdest : splitSlash dest = front ++ [w]) :
    (front = [] ∧ parent? dest = some [] ∧ isAbsolute dest = false) ∨
      (parent? dest = some ['/'] ∧ isAbsolute dest = true ∧ ∀ v ∈ front, Stays v) ∨
      ∃ p rest, parent? dest = some p ∧ p ≠ [] ∧ isAbsolute p = isAbsolute dest ∧
        (∀ v ∈ rest, Stays v) ∧ front = splitSlash p ++ rest := by
  by_cases hslash : '/' ∈ dest
  · obtain ⟨p, l, rfl, hl⟩ := exists_last_slash hslash
    rw [splitSlash_append hl] at hdest
    obtain ⟨rfl, hlw⟩ := List.append_inj' hdest rfl
    obtain rfl := List.singleton_inj.1 hlw
    have hparent : parent? (p ++ '/' :: l) = some (trimRight (p ++ ['/'])) := by
      have hcut : p ++ '/' :: l = (p ++ ['/']) ++ l := by simp
      have hparts : splitSlash ((p ++ ['/']) ++ l) = splitSlash p ++ [l] := by
        rw [← hcut, splitSlash_append hl]
      rw [hcut, parent?_eq h hparts]
    by_cases hp : p = []
    · subst hp
      exact .inr (.inl ⟨hparent, rfl, by decide⟩)
    have habsolute (q : List Char) : isAbsolute (p ++ q) = isAbsolute (trimRight p) := by
      rw [isAbsolute, isAbsolute, head?_trimRight, List.head?_append_of_ne_nil _ hp]
    rw [trimRight_append_slash hp] at hparent
    have hcases := splitSlash_trimReversed p.reverse
    rw [List.reverse_reverse] at hcases
    rcases hcases with ⟨hroot, hall⟩ | ⟨rest, hall, hrest⟩
    · have htrim : trimRight p = ['/'] := by rw [trimRight, hroot]; rfl
      rw [htrim] at hparent habsolute
      exact .inr (.inl ⟨hparent, habsolute _, hall⟩)
    · have hne : trimRight p ≠ [] := by
        intro hnil
        have hhead := head?_trimRight p
        rw [hnil, List.head?_nil, eq_comm, List.head?_eq_none_iff] at hhead
        exact hp hhead
      exact .inr (.inr ⟨trimRight p, rest, hparent, hne, (habsolute _).symm, hall, hrest⟩)
  · rw [splitSlash, Text.splitAt_of_not_mem hslash] at hdest
    have hfront : front = [] := by
      have hlength := congrArg List.length hdest
      simp only [List.length_append, List.length_cons, List.length_nil] at hlength
      exact List.eq_nil_of_length_eq_zero (by omega)
    subst hfront
    obtain rfl := List.singleton_inj.1 hdest
    have hparts : splitSlash ([] ++ dest) = [] ++ [dest] := Text.splitAt_of_not_mem hslash
    refine .inl ⟨rfl, parent?_eq h hparts, ?_⟩
    rw [Bool.eq_false_iff, ne_eq, isAbsolute_iff]
    exact fun hhead => hslash (List.mem_of_mem_head? hhead)

end Path
end Walkthrough
