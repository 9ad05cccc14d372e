/-
# File systems by what their places hold

A file system is used through `node?`, what a place holds.  What the operations do to it is
said once for each (`node?_put`, `node?_erase`, `node?_eraseTree`, `node?_pruneTree`); behind
this module nobody looks at the list of nodes.

In a file system that is `Rooted` everything that is held lies in directories, up to the
root.  A new node in a directory keeps it so (`Rooted.of_new`).  A machine is `Sound` if its
files are rooted, and its current directory is one of them.
-/

import Mathlib.Data.List.Basic
import Mathlib.Data.List.Induction
import Walkthrough.Machine.Kernel

namespace Walkthrough
namespace FileSystem

variable {fs : FileSystem} {p q : Place}

/-! ## Operations -/

@[simp] theorem node?_nil (fs : FileSystem) : fs.node? [] = some root := rfl

theorem node?_of_ne_nil (fs : FileSystem) (hq : q ≠ []) : fs.node? q = fs.nodes.lookup q := by
  rw [node?, if_neg (by simpa using hq)]

theorem lookup_filter_key (f : Place → Bool) (q : Place) (l : List (Place × Node)) :
    (l.filter fun e => f e.1).lookup q = if f q then l.lookup q else none := by
  induction l with
  | nil => simp
  | cons e l ih =>
    obtain ⟨k, n⟩ := e
    by_cases hk : q = k
    · subst hk
      cases hf : f q <;> simp [hf, ih]
    · have hne : (q == k) = false := beq_eq_false_iff_ne.2 hk
      cases hf : f k <;> simp [hf, hne, List.lookup_cons, ih]

theorem lookup_map_replace (p q : Place) (n : Node) (l : List (Place × Node)) :
    (l.map fun e => if e.1 = p then (p, n) else e).lookup q =
      if q = p then (l.lookup p).map fun _ => n else l.lookup q := by
  induction l with
  | nil => simp
  | cons e l ih =>
    obtain ⟨k, m⟩ := e
    rw [List.map_cons]
    by_cases hk : k = p
    · subst hk
      by_cases hq : q = k
      · simp [hq]
      · have hne : (q == k) = false := beq_eq_false_iff_ne.2 hq
        simp [hq, hne, List.lookup_cons, ih]
    · have hne : (p == k) = false := beq_eq_false_iff_ne.2 fun h => hk h.symm
      by_cases hq : q = k
      · subst hq
        simp [hk]
      · have hne' : (q == k) = false := beq_eq_false_iff_ne.2 hq
        simp [hk, hne, hne', List.lookup_cons, ih]

/-- A node that is put at a place is what the place holds, and nothing else changes. -/
theorem node?_put (fs : FileSystem) (hp : p ≠ []) (n : Node) (q : Place) :
    (fs.put p n).node? q = if q = p then some n else fs.node? q := by
  by_cases hq : q = []
  · subst hq
    rw [if_neg fun h => hp h.symm]
    rfl
  rw [node?_of_ne_nil _ hq, node?_of_ne_nil _ hq, put]
  split
  · rename_i hheld
    obtain ⟨m, hm⟩ := Option.isSome_iff_exists.1 hheld
    rw [lookup_map_replace, hm]
    rfl
  · rename_i hfree
    have hnone : fs.nodes.lookup p = none := Option.not_isSome_iff_eq_none.1 hfree
    rw [List.lookup_append]
    by_cases hqp : q = p
    · simp [hqp, hnone]
    · have hne : (q == p) = false := beq_eq_false_iff_ne.2 hqp
      simp [hqp, hne, List.lookup_cons]

/-- An erased place holds nothing, and nothing else changes. -/
theorem node?_erase (fs : FileSystem) (hp : p ≠ []) (q : Place) :
    (fs.erase p).node? q = if q = p then none else fs.node? q := by
  by_cases hq : q = []
  · subst hq
    rw [if_neg fun h => hp h.symm]
    rfl
  rw [node?_of_ne_nil _ hq, node?_of_ne_nil _ hq, erase, lookup_filter_key fun k => !decide (k = p)]
  by_cases hqp : q = p <;> simp [hqp]

/-- Of two nodes that are put at a place the last one stays. -/
theorem put_put (fs : FileSystem) (p : Place) (n n' : Node) :
    (fs.put p n).put p n' = fs.put p n' := by
  by_cases hheld : (fs.nodes.lookup p).isSome
  · have hput (k : Node) :
        fs.put p k = ⟨fs.nodes.map fun e => if e.1 = p then (p, k) else e⟩ := if_pos hheld
    have hagain : ((fs.put p n).nodes.lookup p).isSome := by
      rw [hput, lookup_map_replace, if_pos rfl, Option.isSome_map]
      exact hheld
    rw [put, if_pos hagain, hput, hput, List.map_map]
    refine congrArg _ (List.map_congr_left fun e _ => ?_)
    by_cases he : e.1 = p <;> simp [he]
  · have hput (k : Node) : fs.put p k = ⟨fs.nodes ++ [(p, k)]⟩ := if_neg hheld
    have hnone : fs.nodes.lookup p = none := Option.not_isSome_iff_eq_none.1 hheld
    have hagain : ((fs.put p n).nodes.lookup p).isSome := by
      rw [hput, List.lookup_append, hnone]
      simp
    have hothers : ∀ e ∈ fs.nodes, (if e.1 = p then (p, n') else e) = e := fun e he =>
      if_neg (bne_iff_ne.1 (List.lookup_eq_none_iff.1 hnone e he)).symm
    rw [put, if_pos hagain, hput, hput, List.map_append, List.map_congr_left hothers,
      List.map_id'', List.map_singleton, if_pos rfl]
    exact fun _ => rfl

/-- A node that is put and erased leaves nothing. -/
theorem erase_put (fs : FileSystem) (p : Place) (n : Node) : (fs.put p n).erase p = fs.erase p := by
  unfold put erase
  split
  · have hkeys : ((fun e : Place × Node => !decide (e.1 = p)) ∘
        fun e => if e.1 = p then (p, n) else e) = fun e => !decide (e.1 = p) := by
      funext e
      by_cases he : e.1 = p <;> simp [he]
    rw [List.filter_map, hkeys]
    refine congrArg _ ((List.map_congr_left fun e he => ?_).trans (List.map_id _))
    exact if_neg (by simpa using (List.mem_filter.1 he).2)
  · simp

/-- Where nothing is held nothing is erased. -/
theorem erase_of_free (fs : FileSystem) (hp : p ≠ []) (h : fs.node? p = none) :
    fs.erase p = fs := by
  rw [node?_of_ne_nil fs hp, List.lookup_eq_none_iff] at h
  have hkept : fs.nodes.filter (fun e => !decide (e.1 = p)) = fs.nodes :=
    List.filter_eq_self.2 fun e he => by simpa using (bne_iff_ne.1 (h e he)).symm
  rw [erase, hkept]

/-- An erased tree holds nothing, and nothing else changes. -/
theorem node?_eraseTree (fs : FileSystem) (hp : p ≠ []) (q : Place) :
    (fs.eraseTree p).node? q = if p <+: q then none else fs.node? q := by
  by_cases hq : q = []
  · subst hq
    rw [if_neg fun h => hp (List.prefix_nil.1 h)]
    rfl
  rw [node?_of_ne_nil _ hq, node?_of_ne_nil _ hq, eraseTree,
    lookup_filter_key fun k => !p.isPrefixOf k]
  by_cases hpq : p <+: q
  · have hin : p.isPrefixOf q = true := List.isPrefixOf_iff_prefix.2 hpq
    rw [hin, if_pos hpq]
    rfl
  · have hout : p.isPrefixOf q = false :=
      Bool.eq_false_iff.2 fun h => hpq (List.isPrefixOf_iff_prefix.1 h)
    rw [hout, if_neg hpq]
    rfl

/-- A place is marked, or leads to a marked place that holds something. -/
def Stays (fs : FileSystem) (marked : Place → Bool) (q : Place) : Prop :=
  ∃ r, q <+: r ∧ (fs.node? r).isSome ∧ marked r = true

/-- Of a pruned tree the root stays, and what is marked or leads there. -/
theorem node?_pruneTree (fs : FileSystem) (hp : p ≠ []) (marked : Place → Bool) (q : Place) :
    (p <+: q → q ≠ p → ¬ fs.Stays marked q → (fs.pruneTree p marked).node? q = none) ∧
      (¬ (p <+: q ∧ q ≠ p ∧ ¬ fs.Stays marked q) →
        (fs.pruneTree p marked).node? q = fs.node? q) := by
  by_cases hq : q = []
  · subst hq
    exact ⟨fun h => absurd (List.prefix_nil.1 h) hp, fun _ => rfl⟩
  have hstays : (fs.nodes.any fun e => q.isPrefixOf e.1 && marked e.1) = true ↔
      fs.Stays marked q := by
    simp only [List.any_eq_true, Bool.and_eq_true, List.isPrefixOf_iff_prefix]
    constructor
    · rintro ⟨e, he, hprefix, hmarked⟩
      have hne : e.1 ≠ [] := fun h => hq (List.prefix_nil.1 (h ▸ hprefix))
      refine ⟨e.1, hprefix, ?_, hmarked⟩
      rw [node?_of_ne_nil fs hne]
      by_contra hnone
      have hall := List.lookup_eq_none_iff.1 (Option.not_isSome_iff_eq_none.1 hnone) e he
      simp at hall
    · rintro ⟨r, hprefix, hheld, hmarked⟩
      have hne : r ≠ [] := fun h => hq (List.prefix_nil.1 (h ▸ hprefix))
      rw [node?_of_ne_nil fs hne] at hheld
      obtain ⟨n, hn⟩ := Option.isSome_iff_exists.1 hheld
      obtain ⟨l₁, l₂, hnodes, -⟩ := List.lookup_eq_some_iff.1 hn
      exact ⟨(r, n), by simp [hnodes], hprefix, hmarked⟩
  rw [node?_of_ne_nil _ hq, node?_of_ne_nil _ hq, pruneTree,
    lookup_filter_key fun k => !p.isPrefixOf k || k == p ||
      fs.nodes.any fun e => k.isPrefixOf e.1 && marked e.1]
  constructor
  · intro hin hne hgone
    rw [if_neg]
    simp only [Bool.or_eq_true, hstays, Bool.not_eq_true', beq_iff_eq, not_or]
    exact ⟨⟨by simpa using List.isPrefixOf_iff_prefix.2 hin, hne⟩, hgone⟩
  · intro hkept
    rw [if_pos]
    simp only [Bool.or_eq_true, hstays, Bool.not_eq_true', beq_iff_eq]
    by_contra hgone
    simp only [not_or, Bool.not_eq_false, List.isPrefixOf_iff_prefix] at hgone
    exact hkept ⟨hgone.1.1, hgone.1.2, hgone.2⟩

/-- New permission bits of a file that was put at a place. -/
theorem setMode_put (fs : FileSystem) (hp : p ≠ []) (bytes : List UInt8) (mode mode' : Nat) :
    (fs.put p (.file bytes mode)).setMode p mode' = fs.put p (.file bytes mode') := by
  rw [setMode, node?_put fs hp, if_pos rfl]
  exact put_put fs p _ _

/-! ## Trees -/

/-- The place holds a directory. -/
def HoldsDirectory (fs : FileSystem) (p : Place) : Prop :=
  ∃ n, fs.node? p = some n ∧ n.isDirectory = true

/-- Everything that is held lies in a directory. -/
def Rooted (fs : FileSystem) : Prop :=
  ∀ p name, (fs.node? (p ++ [name])).isSome → fs.HoldsDirectory p

theorem holdsDirectory_iff : fs.HoldsDirectory p ↔ (fs.node? p).any Node.isDirectory = true := by
  rw [Option.any_eq_true]
  rfl

instance (fs : FileSystem) (p : Place) : Decidable (fs.HoldsDirectory p) :=
  decidable_of_iff _ holdsDirectory_iff.symm

/-- A file system is a tree if every node that it lists lies in a directory. -/
theorem rooted_of_nodes (h : ∀ e ∈ fs.nodes, fs.HoldsDirectory e.1.dropLast) : fs.Rooted := by
  intro p name hheld
  rw [node?_of_ne_nil fs (by simp)] at hheld
  obtain ⟨n, hn⟩ := Option.isSome_iff_exists.1 hheld
  obtain ⟨l₁, l₂, hnodes, -⟩ := List.lookup_eq_some_iff.1 hn
  have hlies := h (p ++ [name], n) (by simp [hnodes])
  rwa [List.dropLast_concat] at hlies

theorem holdsDirectory_nil (fs : FileSystem) : fs.HoldsDirectory [] :=
  ⟨root, rfl, rfl⟩

/-- In a tree every place above one that is held is held. -/
theorem Rooted.isSome_of_prefix (h : fs.Rooted) (hpq : p <+: q) (hq : (fs.node? q).isSome) :
    (fs.node? p).isSome := by
  obtain ⟨names, rfl⟩ := hpq
  induction names using List.reverseRecOn with
  | nil => rwa [List.append_nil] at hq
  | append_singleton names name ih =>
    rw [← List.append_assoc] at hq
    obtain ⟨n, hn, -⟩ := h _ _ hq
    exact ih (by rw [hn]; rfl)

/-- In a tree the place above a directory is a directory. -/
theorem Rooted.dropLast (h : fs.Rooted) (hp : fs.HoldsDirectory p) :
    fs.HoldsDirectory p.dropLast := by
  rcases List.eq_nil_or_concat p with rfl | ⟨q, name, rfl⟩
  · exact hp
  · rw [List.concat_eq_append, List.dropLast_concat]
    obtain ⟨n, hn, -⟩ := hp
    rw [List.concat_eq_append] at hn
    exact h q name (by rw [hn]; rfl)

/-- In a tree every place above a directory is a directory. -/
theorem Rooted.holdsDirectory_of_prefix (h : fs.Rooted) (hpq : p <+: q)
    (hq : fs.HoldsDirectory q) : fs.HoldsDirectory p := by
  obtain ⟨names, rfl⟩ := hpq
  induction names using List.reverseRecOn with
  | nil => rwa [List.append_nil] at hq
  | append_singleton names name ih =>
    have habove := h.dropLast hq
    rw [← List.append_assoc, List.dropLast_concat] at habove
    exact ih habove

section

variable {fs' : FileSystem} {x : Place} {n : Node} (hx : fs.node? x = none)
  (hfs' : ∀ q, fs'.node? q = if q = x then some n else fs.node? q)
include hx hfs'

/-- A new node takes no directory away. -/
theorem HoldsDirectory.of_new (hp : fs.HoldsDirectory p) : fs'.HoldsDirectory p := by
  obtain ⟨m, hm, hdirectory⟩ := hp
  refine ⟨m, ?_, hdirectory⟩
  rw [hfs', if_neg, hm]
  rintro rfl
  rw [hx] at hm
  cases hm

/-- A tree with a new node in a directory is a tree. -/
theorem Rooted.of_new (h : fs.Rooted) (hdir : fs.HoldsDirectory x.dropLast) : fs'.Rooted := by
  intro p name hheld
  rw [hfs'] at hheld
  split at hheld
  · rename_i heq
    rw [← heq, List.dropLast_concat] at hdir
    exact hdir.of_new hx hfs'
  · exact (h p name hheld).of_new hx hfs'

end

end FileSystem

/-- The files of the machine are a tree, and its current directory is one. -/
structure Machine.Sound (m : Machine) : Prop where
  rooted : m.files.Rooted
  cwd : m.files.HoldsDirectory m.cwd

end Walkthrough
