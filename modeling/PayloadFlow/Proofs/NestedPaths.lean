import Mathlib.Data.List.Nodup
import PayloadFlow.Proofs.Requirements

/-!
# The tree of nested properties

The nested properties of a handler stand for the steps of its accesses, each step
once.  What they say is told from the accesses alone, whatever their order: the
line is the first one at which the step is made, and the step is required if some
access makes it with no way out before.
-/

namespace PayloadFlow
namespace Consumer

/-!
# Steps

An access steps from an object to a property in it at every depth of its path.
-/

/-- The object and the name of a nested property. -/
def keyOf (p : NestedProperty) : NestedKey :=
  (p.parentPath, p.name)

/-- At some depth an access reads a property of the object at a path. -/
structure Access.StepsTo (a : Access) (depth : Nat) (key : NestedKey) : Prop where
  pos : 0 < depth
  name : a.path[depth]? = some key.2
  parent : dotted (a.path.take depth) = key.1

/-- None of the steps of an access down to a depth allows for absence. -/
def Access.IsPlainTo (a : Access) (depth : Nat) : Prop :=
  forall o, o ∈ a.optional.take (depth + 1) -> o = false

theorem Access.StepsTo.depth_lt {a : Access} {depth : Nat} {key : NestedKey}
    (h : a.StepsTo depth key) : depth < a.path.length :=
  (List.getElem?_eq_some_iff.mp h.name).1

theorem Access.IsPlainTo.of_succ {a : Access} {depth : Nat} (h : a.IsPlainTo (depth + 1)) :
    a.IsPlainTo depth := by
  intro o ho
  exact h o ((List.take_prefix_take_left (Nat.le_succ (depth + 1))).subset ho)

theorem exists_mem_nestedUses_iff (a : Access) (key : NestedKey) (P : NestedUse -> Prop) :
    (exists e, e ∈ nestedUses a ∧ e.1 = key ∧ P e.2) <->
      exists depth, a.StepsTo depth key ∧
        P ⟨!(a.optional.take (depth + 1)).any fun o => o, a.line⟩ := by
  constructor
  · rintro ⟨e, he, hkey, hP⟩
    rcases (mem_nestedUses_iff a e).mp he with ⟨depth, name, hpos, hname, rfl⟩
    subst hkey
    exact ⟨depth, ⟨hpos, hname, rfl⟩, hP⟩
  · rintro ⟨depth, hsteps, hP⟩
    refine ⟨_, (mem_nestedUses_iff a _).mpr ⟨depth, key.2, hsteps.pos, hsteps.name, rfl⟩, ?_, hP⟩
    rw [hsteps.parent]

theorem isPlainTo_iff (a : Access) (depth : Nat) :
    (!(a.optional.take (depth + 1)).any fun o => o) = true <-> a.IsPlainTo depth := by
  simp [Access.IsPlainTo]

/-!
# The table of nested properties
-/

instance : Std.TransCmp nestedOrder :=
  inferInstanceAs (Std.TransCmp (compareLex (compareOn Prod.fst) (compareOn Prod.snd)))

theorem pairwise_keys_nestedTable (accesses : List Access) :
    (Listing.keys (nestedTable accesses)).Pairwise fun a b => nestedOrder a b = .lt := by
  have hfrom : forall (uses table : List (NestedKey × NestedUse)),
      ((Listing.keys table).Pairwise fun a b => nestedOrder a b = .lt) ->
        (Listing.keys (uses.foldl
          (fun table entry => Listing.alterBy nestedOrder entry.1 entry.2.merge table)
          table)).Pairwise fun a b => nestedOrder a b = .lt := by
    intro uses
    induction uses with
    | nil =>
        intro table htable
        exact htable
    | cons entry rest ih =>
        intro table htable
        exact ih _
          (Listing.pairwise_alterBy (fun _ _ => nestedOrder_eq) entry.1 entry.2.merge htable)
  exact hfrom _ [] List.Pairwise.nil

theorem nodup_keys_nestedTable (accesses : List Access) :
    (Listing.keys (nestedTable accesses)).Nodup :=
  Listing.nodup_of_pairwise_lt (pairwise_keys_nestedTable accesses)

theorem exists_entry_iff {P : NestedUse -> Prop}
    (hmerge : forall (u old : NestedUse), P (u.merge (some old)) <-> P old ∨ P u)
    (accesses : List Access) (key : NestedKey) :
    (exists e, e ∈ nestedTable accesses ∧ e.1 = key ∧ P e.2) <->
      exists a, a ∈ accesses ∧ exists depth, a.StepsTo depth key ∧
        P ⟨!(a.optional.take (depth + 1)).any fun o => o, a.line⟩ := by
  rw [exists_mem_nestedTable hmerge]
  simp only [exists_mem_nestedUses_iff]

/-- What holds of an entry of the table holds of a step to its property, and the
other way round. -/
theorem nestedUse_iff {P : NestedUse -> Prop}
    (hmerge : forall (u old : NestedUse), P (u.merge (some old)) <-> P old ∨ P u)
    {accesses : List Access} {e : NestedKey × NestedUse} (he : e ∈ nestedTable accesses) :
    P e.2 <-> exists a, a ∈ accesses ∧ exists depth, a.StepsTo depth e.1 ∧
      P ⟨!(a.optional.take (depth + 1)).any fun o => o, a.line⟩ := by
  rw [← exists_entry_iff hmerge]
  constructor
  · intro hP
    exact ⟨e, he, rfl, hP⟩
  · rintro ⟨other, hother, hkey, hP⟩
    have hsame : other = e :=
      List.inj_on_of_nodup_map (nodup_keys_nestedTable accesses) hother he hkey
    rwa [← hsame]

/-!
# The list of nested properties
-/

theorem map_keyOf_nested_perm (accesses : List Access) :
    ((Requirements.ofAccesses accesses).nested.map keyOf).Perm
      (Listing.keys (nestedTable accesses)) := by
  have hsort := List.mergeSort_perm
    ((nestedTable accesses).map (nestedProperty (summaries accesses))) Requirements.nestedLe
  have hkeys := hsort.map keyOf
  rwa [List.map_map] at hkeys

theorem nodup_map_keyOf_nested (accesses : List Access) :
    ((Requirements.ofAccesses accesses).nested.map keyOf).Nodup :=
  (map_keyOf_nested_perm accesses).nodup_iff.mpr (nodup_keys_nestedTable accesses)

theorem mem_map_keyOf_nested_iff (accesses : List Access) (key : NestedKey) :
    key ∈ (Requirements.ofAccesses accesses).nested.map keyOf <->
      exists a, a ∈ accesses ∧ exists depth, a.StepsTo depth key := by
  rw [(map_keyOf_nested_perm accesses).mem_iff, Listing.keys, List.mem_map]
  have hentries := exists_entry_iff (P := fun _ => True) (by simp) accesses key
  simpa only [and_true] using hentries

theorem line_le_iff {accesses : List Access} {p : NestedProperty}
    (hp : p ∈ (Requirements.ofAccesses accesses).nested) (line : Nat) :
    p.line ≤ line <->
      exists a, a ∈ accesses ∧ exists depth, a.StepsTo depth (keyOf p) ∧ a.line ≤ line := by
  rcases (mem_nested_iff accesses p).mp hp with ⟨e, he, rfl⟩
  exact nestedUse_iff (P := fun u => u.line ≤ line)
    (fun u old => by simp [NestedUse.merge]) he

theorem isRequired_iff {accesses : List Access} {p : NestedProperty}
    (hp : p ∈ (Requirements.ofAccesses accesses).nested) :
    p.isRequired = true <->
      (exists a, a ∈ accesses ∧
        exists depth, a.StepsTo depth (keyOf p) ∧ a.IsPlainTo depth) ∧
      ¬ Waived accesses p.root := by
  rcases (mem_nested_iff accesses p).mp hp with ⟨e, he, rfl⟩
  have huse := nestedUse_iff (P := fun u => u.isRequired = true)
    (fun u old => by simp [NestedUse.merge]) he
  simp only [isPlainTo_iff] at huse
  rw [nestedProperty_isRequired_iff, huse]
  rfl

/-- A nested property as the accesses tell it, in whatever order they stand. -/
theorem mem_nested_iff_steps (accesses : List Access) (p : NestedProperty) :
    p ∈ (Requirements.ofAccesses accesses).nested <->
      (exists a, a ∈ accesses ∧ exists depth, a.StepsTo depth (keyOf p)) ∧
      (forall line, p.line ≤ line <->
        exists a, a ∈ accesses ∧ exists depth, a.StepsTo depth (keyOf p) ∧ a.line ≤ line) ∧
      (p.isRequired = true <->
        (exists a, a ∈ accesses ∧
          exists depth, a.StepsTo depth (keyOf p) ∧ a.IsPlainTo depth) ∧
        ¬ Waived accesses p.root) := by
  have hkeys := mem_map_keyOf_nested_iff accesses (keyOf p)
  constructor
  · intro hp
    exact ⟨hkeys.mp (List.mem_map_of_mem hp), line_le_iff hp, isRequired_iff hp⟩
  · rintro ⟨hsteps, hline, hrequired⟩
    rcases List.mem_map.mp (hkeys.mpr hsteps) with ⟨q, hq, hkey⟩
    have hqline := line_le_iff hq
    have hqrequired := isRequired_iff hq
    have hroot : q.root = p.root := congrArg (fun key : NestedKey => rootOf key.1) hkey
    rw [hkey] at hqline hqrequired
    rw [hroot] at hqrequired
    have hsameLine : q.line = p.line := by
      apply Nat.le_antisymm
      · exact (hqline p.line).mpr ((hline p.line).mp (Nat.le_refl _))
      · exact (hline q.line).mpr ((hqline q.line).mp (Nat.le_refl _))
    have hsameFlag : q.isRequired = p.isRequired :=
      Bool.eq_iff_iff.mpr (hqrequired.trans hrequired.symm)
    have hsame : q = p := by
      cases p
      cases q
      cases hkey
      cases hsameLine
      cases hsameFlag
      rfl
    rwa [← hsame]

/-!
# Prefixes of paths

If no name has a dot in it, the parent path of a nested property tells the names
before it, and every access that makes the step has made the one before.
-/

def NamesDotFree (accesses : List Access) : Prop :=
  forall a, a ∈ accesses -> forall name, name ∈ a.path -> DotFree name

theorem take_ne_nil {path : List String} {depth : Nat} (hpos : 0 < depth)
    (hlength : depth < path.length) : path.take depth ≠ [] := by
  intro hnil
  have hzero := congrArg List.length hnil
  rw [List.length_take, List.length_nil] at hzero
  omega

theorem Access.StepsTo.exists_head {a : Access} {depth : Nat} {key : NestedKey}
    (h : a.StepsTo depth key) : exists first, a.path.head? = some first := by
  cases hpath : a.path with
  | nil =>
      have hlength := h.depth_lt
      rw [hpath] at hlength
      exact absurd hlength (Nat.not_lt_zero depth)
  | cons first rest =>
      exact ⟨first, List.head?_cons⟩

/-- The root of a nested property is the first name of an access that steps to it,
up to the first dot. -/
theorem Access.StepsTo.root_eq {a : Access} {depth : Nat} {p : NestedProperty} {first : String}
    (h : a.StepsTo depth (keyOf p)) (hfirst : a.path.head? = some first) :
    p.root = rootOf first := by
  cases hpath : a.path with
  | nil =>
      rw [hpath] at hfirst
      cases hfirst
  | cons name rest =>
      rw [hpath, List.head?_cons, Option.some_inj] at hfirst
      subst hfirst
      have hparent := h.parent
      cases depth with
      | zero =>
          exact absurd h.pos (Nat.lt_irrefl 0)
      | succ depth =>
          rw [hpath, List.take_succ_cons] at hparent
          show rootOf (keyOf p).1 = _
          rw [← hparent]
          exact rootOf_dotted_cons name (rest.take depth)

theorem Access.StepsTo.before {a : Access} {depth : Nat} {key : NestedKey}
    (h : a.StepsTo (depth + 1) key) (hpos : 0 < depth) :
    exists name, a.StepsTo depth (dotted (a.path.take depth), name) ∧
      key.1 = dotted (a.path.take depth) ++ "." ++ name := by
  have hlength : depth < a.path.length := Nat.lt_of_succ_lt h.depth_lt
  have hname : a.path[depth]? = some a.path[depth] := List.getElem?_eq_getElem hlength
  refine ⟨a.path[depth], ⟨hpos, hname, rfl⟩, ?_⟩
  rw [← h.parent, dotted_take_succ hpos hname]

theorem Access.StepsTo.to_parent {a b : Access} {i j : Nat} {p q : NestedProperty}
    {accesses : List Access} (hdots : NamesDotFree accesses) (ha : a ∈ accesses)
    (hb : b ∈ accesses) (hap : a.StepsTo i (keyOf p)) (hbq : b.StepsTo j (keyOf q))
    (hpath : q.fullPath = p.parentPath) : i = j + 1 ∧ a.StepsTo j (keyOf q) := by
  have hfull : dotted (b.path.take (j + 1)) = dotted (a.path.take i) := by
    rw [dotted_take_succ hbq.pos hbq.name, hbq.parent, hap.parent]
    exact hpath
  have hlonger : j + 1 ≤ b.path.length := hbq.depth_lt
  have htake : b.path.take (j + 1) = a.path.take i := by
    apply dotted_inj _ (take_ne_nil hap.pos hap.depth_lt) _ _ hfull
    · intro hnil
      have hzero := congrArg List.length hnil
      rw [List.length_take, List.length_nil] at hzero
      omega
    · intro name hname
      exact hdots b hb name (List.mem_of_mem_take hname)
    · intro name hname
      exact hdots a ha name (List.mem_of_mem_take hname)
  have hdepth : i = j + 1 := by
    have hlengths := congrArg List.length htake
    have hlt := hap.depth_lt
    rw [List.length_take, List.length_take] at hlengths
    omega
  subst hdepth
  refine ⟨rfl, hbq.pos, ?_, ?_⟩
  · have hget := congrArg (fun path => path[j]?) htake
    simp only [List.getElem?_take, Nat.lt_succ_self, ↓reduceIte] at hget
    rw [← hget, hbq.name]
  · have hshort := congrArg (List.take j) htake
    rw [List.take_take, List.take_take, Nat.min_eq_left (Nat.le_succ j)] at hshort
    rw [← hshort, hbq.parent]

theorem exists_parent {accesses : List Access} (hdots : NamesDotFree accesses)
    {p : NestedProperty} (hp : p ∈ (Requirements.ofAccesses accesses).nested)
    (hparent : ¬ DotFree p.parentPath) :
    exists q, q ∈ (Requirements.ofAccesses accesses).nested ∧ q.fullPath = p.parentPath := by
  rcases (mem_map_keyOf_nested_iff accesses (keyOf p)).mp (List.mem_map_of_mem hp) with
    ⟨a, ha, depth, hsteps⟩
  cases depth with
  | zero =>
      exact absurd hsteps.pos (Nat.lt_irrefl 0)
  | succ depth =>
      -- A parent path of a single name has no dot.
      have hpos : 0 < depth := by
        rcases Nat.eq_zero_or_pos depth with rfl | hpos
        · rcases hsteps.exists_head with ⟨first, hfirst⟩
          have hone : dotted (a.path.take (0 + 1)) = first := by
            rw [List.take_one, hfirst]
            simp [dotted, Text.joinWith]
          have hpath : first = p.parentPath := hone.symm.trans hsteps.parent
          exact absurd (hpath ▸ hdots a ha first (List.mem_of_head? hfirst)) hparent
        · exact hpos
      rcases hsteps.before hpos with ⟨name, hbefore, hkey⟩
      rcases List.mem_map.mp ((mem_map_keyOf_nested_iff accesses _).mpr ⟨a, ha, depth, hbefore⟩)
        with ⟨q, hq, hqkey⟩
      refine ⟨q, hq, ?_⟩
      show (keyOf q).1 ++ "." ++ (keyOf q).2 = (keyOf p).1
      rw [hqkey, hkey]

/-- The nested properties of accesses without dots in their names are a tree: they
are the steps of the accesses, each once, each below a property that the handler
reads, and the step before is there as well, at no later line and required if the
step is. -/
theorem nested_prefix_tree (accesses : List Access) (hdots : NamesDotFree accesses) :
    ((Requirements.ofAccesses accesses).nested.map keyOf).Nodup ∧
    (forall key, key ∈ (Requirements.ofAccesses accesses).nested.map keyOf <->
      exists a, a ∈ accesses ∧ exists depth, 1 ≤ depth ∧ a.path[depth]? = some key.2 ∧
        key.1 = dotted (a.path.take depth)) ∧
    forall p, p ∈ (Requirements.ofAccesses accesses).nested ->
      p.root ∈ (Requirements.ofAccesses accesses).names ∧
      (¬ DotFree p.parentPath ->
        (exists q, q ∈ (Requirements.ofAccesses accesses).nested ∧
          q.fullPath = p.parentPath) ∧
        forall q, q ∈ (Requirements.ofAccesses accesses).nested -> q.fullPath = p.parentPath ->
          q.line ≤ p.line ∧ (p.isRequired = true -> q.isRequired = true)) := by
  have hkeys := mem_map_keyOf_nested_iff accesses
  refine ⟨nodup_map_keyOf_nested accesses, ?_, ?_⟩
  · intro key
    rw [hkeys]
    constructor
    · rintro ⟨a, ha, depth, hsteps⟩
      exact ⟨a, ha, depth, hsteps.pos, hsteps.name, hsteps.parent.symm⟩
    · rintro ⟨a, ha, depth, hpos, hname, hparent⟩
      exact ⟨a, ha, depth, hpos, hname, hparent.symm⟩
  intro p hp
  rcases (hkeys (keyOf p)).mp (List.mem_map_of_mem hp) with ⟨a, ha, depth, hsteps⟩
  constructor
  · rcases hsteps.exists_head with ⟨first, hfirst⟩
    have hroot : p.root = first := by
      rw [hsteps.root_eq hfirst, rootOf_of_dotFree (hdots a ha first (List.mem_of_head? hfirst))]
    exact (mem_names_iff accesses p.root).mpr ⟨a, ha, hroot ▸ hfirst⟩
  intro hparent
  refine ⟨exists_parent hdots hp hparent, ?_⟩
  intro q hq hpath
  rcases (hkeys (keyOf q)).mp (List.mem_map_of_mem hq) with ⟨b, hb, j, hbq⟩
  constructor
  · rcases (line_le_iff hp p.line).mp (Nat.le_refl p.line) with ⟨c, hc, i, hcp, hline⟩
    exact (line_le_iff hq p.line).mpr
      ⟨c, hc, j, (hcp.to_parent hdots hc hb hbq hpath).2, hline⟩
  · intro hrequired
    rcases (isRequired_iff hp).mp hrequired with ⟨⟨c, hc, i, hcp, hplain⟩, hwaived⟩
    rcases hcp.to_parent hdots hc hb hbq hpath with ⟨hdepth, hcq⟩
    rw [hdepth] at hplain
    rw [root_of_parentPath_eq hpath.symm] at hwaived
    exact (isRequired_iff hq).mpr ⟨⟨c, hc, j, hcq, hplain.of_succ⟩, hwaived⟩

/-- Reads `size.inner.width` as it is, and before that `size.inner` with a way out. -/
def layoutReads : List Access :=
  [⟨["size", "inner", "width"], [false, false, false], .plain, false, false, 3⟩,
    ⟨["size", "inner"], [false, true], .test false, false, false, 2⟩]

theorem layoutReads_tree :
    NamesDotFree layoutReads ∧
      exists p q, p ∈ (Requirements.ofAccesses layoutReads).nested ∧
        q ∈ (Requirements.ofAccesses layoutReads).nested ∧
        keyOf p = ("size.inner", "width") ∧ q.fullPath = "size.inner" ∧ q.line ≤ p.line := by
  have hdots : NamesDotFree layoutReads := by
    simp [NamesDotFree, layoutReads, DotFree]
  rcases nested_prefix_tree layoutReads hdots with ⟨_, hkeys, htree⟩
  have hkey : ("size.inner", "width") ∈
      (Requirements.ofAccesses layoutReads).nested.map keyOf := by
    refine (hkeys _).mpr ⟨_, List.mem_cons_self, 2, ?_, ?_, ?_⟩
    · exact Nat.le_succ 1
    · rfl
    · rfl
  rcases List.mem_map.mp hkey with ⟨p, hp, hpkey⟩
  have hparent : ¬ DotFree p.parentPath := by
    have hpath : p.parentPath = "size.inner" := congrArg Prod.fst hpkey
    rw [hpath]
    simp [DotFree]
  rcases (htree p hp).2 hparent with ⟨⟨q, hq, hpath⟩, hflags⟩
  exact ⟨hdots, p, q, hp, hq, hpkey, hpath.trans (congrArg Prod.fst hpkey),
    (hflags q hq hpath).1⟩

end Consumer
end PayloadFlow
