import Mathlib.Data.List.MinMax
import Mathlib.Order.Bounds.Basic
import PayloadFlow.Proofs.NestedPaths

/-!
# Which properties are required

Every name that a handler reads is sorted into one of two classes by all its
accesses together, and neither the classes nor the nested properties depend on the
order of the accesses.  Only the path that stands for a name read through deeper
paths does: it is the first one of the longest.
-/

namespace PayloadFlow
namespace Consumer

/-!
# Uses of a name
-/

namespace Summary

def shows (s : Summary) : Use -> Bool
  | .defaulted => s.defaulted
  | .destructured => s.destructured
  | .safe => s.safe
  | .fallback => s.fallback
  | .guarded => s.guarded
  | .tested => s.tested
  | .unconditional => s.unconditional

theorem mark_shows (s : Summary) (u v : Use) :
    (s.mark v).shows u = (s.shows u || decide (v = u)) := by
  cases v <;> cases u <;> simp [mark, shows]

theorem notePath_shows (s : Summary) (a : Access) (u : Use) :
    (s.notePath a).shows u = s.shows u := by
  unfold notePath
  split
  · cases u <;> rfl
  · split
    · cases u <;> rfl
    · rfl

theorem note_shows (s : Summary) (a : Access) (u : Use) :
    (s.note a).shows u = (s.shows u || decide (a.use = u)) := by
  unfold note
  rw [notePath_shows, noteUse_eq, mark_shows]
  cases u <;> rfl

theorem mark_line (s : Summary) (u : Use) : (s.mark u).line = s.line := by
  cases u <;> rfl

theorem notePath_line (s : Summary) (a : Access) : (s.notePath a).line = s.line := by
  unfold notePath
  split
  · rfl
  · split <;> rfl

theorem note_line (s : Summary) (a : Access) : (s.note a).line = min s.line a.line := by
  unfold note
  rw [notePath_line, noteUse_eq, mark_line]

theorem mark_deepest (s : Summary) (u : Use) : (s.mark u).deepest = s.deepest := by
  cases u <;> rfl

theorem note_deepest (s : Summary) (a : Access) :
    (s.note a).deepest =
      if a.path.length = 1 then s.deepest
      else if s.deepest.all fun d => d.length < a.path.length then some a.path
      else s.deepest := by
  unfold note notePath
  rw [noteUse_eq, mark_deepest]
  by_cases htop : a.path.length = 1
  · simp [htop]
  · simp only [beq_iff_eq, htop, ↓reduceIte]
    split
    · rfl
    · exact mark_deepest _ _

end Summary

section

variable {accesses : List Access} {name : String} {s : Summary}

theorem shows_iff (hs : summaryFrom name none accesses = some s) (u : Use) :
    s.shows u = true <-> exists a, a ∈ accesses ∧ a.path.head? = some name ∧ a.use = u := by
  have hany := any_summaryFrom (·.shows u) (fun a => decide (a.use = u))
    (fun _ => by cases u <;> rfl) (fun s a => Summary.note_shows s a u) name none accesses
  rw [hs] at hany
  simpa using hany

theorem summary_line_le_iff (hs : summaryFrom name none accesses = some s) (line : Nat) :
    s.line ≤ line <->
      exists a, a ∈ accesses ∧ a.path.head? = some name ∧ a.line ≤ line := by
  have hany := any_summaryFrom_of_first (fun s => decide (s.line ≤ line))
    (fun a => decide (a.line ≤ line)) (fun a => by simp [Summary.note_line])
    (fun s a => by simp [Summary.note_line]) name none accesses
  rw [hs] at hany
  simpa using hany

end

/-!
# Ways of reading

What an access says of the property it starts with, from its parts.
-/

namespace Access

/-- Reads the property by name and goes no deeper. -/
def IsTop (a : Access) : Prop :=
  a.path.length = 1

def HasSafeRoot (a : Access) : Prop :=
  a.optional.head? = some true

/-- Makes sure of the property by a pattern without a way out, or by bailing out if
it is absent. -/
def Demands (a : Access) : Prop :=
  a.destructured = true ∧ ¬ a.HasSafeRoot ∧ ¬ (a.IsTop ∧ a.hasDefault = true) ∨
    a.destructured = false ∧ a.isSafe = false ∧ a.context = .test true

def ReliesOn (a : Access) : Prop :=
  a.destructured = false ∧ a.isSafe = false ∧
    ¬ (a.IsTop ∧ (a.context = .fallback ∨ a.context = .test false))

def Allows (a : Access) : Prop :=
  a.IsTop ∧ (a.context = .fallback ∨ a.context = .test false) ∨
    a.IsTop ∧ a.destructured = true ∧ a.hasDefault = true ∨
    a.isSafe = true ∨
    a.destructured = true ∧ a.HasSafeRoot

end Access

def Use.covers : Use -> Bool
  | .fallback | .safe | .tested | .defaulted => true
  | .destructured | .guarded | .unconditional => false

/-- The ways of reading in terms of the use.  A pattern can both demand a property
and show that it may be absent, and then counts as demanding it. -/
theorem Access.use_iff (a : Access) :
    (a.Demands <-> a.use = .destructured ∨ a.use = .guarded) ∧
      (a.ReliesOn <-> a.use = .guarded ∨ a.use = .unconditional) ∧
      (a.Allows ∧ ¬ a.Demands <-> a.use.covers = true) := by
  unfold Demands ReliesOn Allows IsTop HasSafeRoot use
  cases a.destructured with
  | true =>
      rcases a.optional.head? with _ | _ | _ <;> cases a.hasDefault <;>
        by_cases htop : a.path.length = 1 <;> simp [htop, Use.covers]
  | false =>
      cases a.isSafe <;> rcases a.context with _ | _ | _ | _ <;>
        by_cases htop : a.path.length = 1 <;> simp [htop, Use.covers]

/-!
# Required names
-/

/-- The accesses show that the handler cannot do without a property. -/
def Needed (accesses : List Access) (name : String) : Prop :=
  (exists a, a ∈ accesses ∧ a.path.head? = some name ∧ a.Demands) ∨
    (exists a, a ∈ accesses ∧ a.path.head? = some name ∧ a.ReliesOn) ∧
      forall a, a ∈ accesses -> a.path.head? = some name -> ¬ a.Allows

theorem Summary.note_covered (s : Summary) (a : Access) :
    (s.note a).covered = (s.covered || a.use.covers) := by
  have hcovered : forall s : Summary, s.covered =
      (s.shows .fallback || s.shows .safe || s.shows .tested || s.shows .defaulted) :=
    fun _ => rfl
  simp only [hcovered, Summary.note_shows]
  cases a.use <;> simp [Use.covers]

theorem covered_iff {accesses : List Access} {name : String} {s : Summary}
    (hs : summaryFrom name none accesses = some s) :
    s.covered = true <->
      exists a, a ∈ accesses ∧ a.path.head? = some name ∧ a.use.covers = true := by
  have hany := any_summaryFrom (·.covered) (·.use.covers) (fun _ => rfl) Summary.note_covered
    name none accesses
  rw [hs] at hany
  simpa using hany

theorem required_iff_needed {accesses : List Access} {name : String} {s : Summary}
    (hs : summaryFrom name none accesses = some s) :
    s.required = true <-> Needed accesses name := by
  have hrequired : s.required = (s.shows .destructured || s.shows .guarded ||
      (s.shows .unconditional && !s.covered)) := rfl
  rw [hrequired, Bool.or_eq_true, Bool.or_eq_true, Bool.and_eq_true, Bool.not_eq_true',
    ← Bool.not_eq_true, covered_iff hs, shows_iff hs, shows_iff hs, shows_iff hs]
  constructor
  · rintro ((⟨a, ha, hhead, huse⟩ | ⟨a, ha, hhead, huse⟩) | ⟨⟨a, ha, hhead, huse⟩, hcovered⟩)
    · exact Or.inl ⟨a, ha, hhead, a.use_iff.1.mpr (Or.inl huse)⟩
    · exact Or.inl ⟨a, ha, hhead, a.use_iff.1.mpr (Or.inr huse)⟩
    · by_cases hdemands : exists b, b ∈ accesses ∧ b.path.head? = some name ∧ b.Demands
      · exact Or.inl hdemands
      · refine Or.inr ⟨⟨a, ha, hhead, a.use_iff.2.1.mpr (Or.inr huse)⟩, ?_⟩
        intro b hb hbhead hallows
        apply hcovered
        refine ⟨b, hb, hbhead, b.use_iff.2.2.mp ⟨hallows, ?_⟩⟩
        intro hb'
        exact hdemands ⟨b, hb, hbhead, hb'⟩
  · rintro (⟨a, ha, hhead, hdemands⟩ | ⟨⟨a, ha, hhead, hrelies⟩, hnone⟩)
    · rcases a.use_iff.1.mp hdemands with huse | huse
      · exact Or.inl (Or.inl ⟨a, ha, hhead, huse⟩)
      · exact Or.inl (Or.inr ⟨a, ha, hhead, huse⟩)
    · rcases a.use_iff.2.1.mp hrelies with huse | huse
      · exact Or.inl (Or.inr ⟨a, ha, hhead, huse⟩)
      · refine Or.inr ⟨⟨a, ha, hhead, huse⟩, ?_⟩
        rintro ⟨b, hb, hbhead, hcovers⟩
        exact hnone b hb hbhead (b.use_iff.2.2.mpr hcovers).1

/-!
# The two classes

What the lists of required and of optional properties say, without regard to the
order of the accesses.
-/

def linesOf (accesses : List Access) (name : String) : Set Nat :=
  { line | exists a, a ∈ accesses ∧ a.path.head? = some name ∧ a.line = line }

theorem isLeast_line {accesses : List Access} {name : String} {s : Summary}
    (hs : summaryFrom name none accesses = some s) : IsLeast (linesOf accesses name) s.line := by
  constructor
  · rcases (summary_line_le_iff hs s.line).mp (Nat.le_refl _) with ⟨a, ha, hhead, hline⟩
    refine ⟨a, ha, hhead, Nat.le_antisymm hline ?_⟩
    exact (summary_line_le_iff hs a.line).mpr ⟨a, ha, hhead, Nat.le_refl _⟩
  · rintro line ⟨a, ha, hhead, rfl⟩
    exact (summary_line_le_iff hs a.line).mpr ⟨a, ha, hhead, Nat.le_refl _⟩

theorem mem_optional_iff (accesses : List Access) (p : OptionalProperty) :
    p ∈ (Requirements.ofAccesses accesses).optional <->
      exists s, summaryFrom p.name none accesses = some s ∧ s.required = false ∧
        p = Requirements.optionalProperty (p.name, s) := by
  simp only [Requirements.ofAccesses, List.mem_mergeSort, List.mem_map, List.mem_filter,
    Bool.not_eq_true']
  constructor
  · rintro ⟨⟨name, s⟩, ⟨hentry, hrequired⟩, rfl⟩
    exact ⟨s, (mem_summaries_iff name s accesses).mp hentry, hrequired, rfl⟩
  · rintro ⟨s, hsummary, hrequired, hp⟩
    exact ⟨(p.name, s), ⟨(mem_summaries_iff p.name s accesses).mpr hsummary, hrequired⟩,
      hp.symm⟩

theorem exists_summary_iff (accesses : List Access) (name : String) :
    (exists s, summaryFrom name none accesses = some s) <->
      exists a, a ∈ accesses ∧ a.path.head? = some name := by
  have hsome := isSome_summaryFrom name none accesses
  rw [Option.isSome_iff_exists] at hsome
  simpa using hsome

theorem mem_required_brief_iff (accesses : List Access) (name : String) (isNested : Bool)
    (line : Nat) :
    (name, isNested, line) ∈ (Requirements.ofAccesses accesses).required.map
        (fun p => (p.name, p.isNested, p.line)) <->
      Needed accesses name ∧
      (isNested = false <-> exists a, a ∈ accesses ∧ a.path = [name]) ∧
      IsLeast (linesOf accesses name) line := by
  constructor
  · intro hbrief
    rcases List.mem_map.mp hbrief with ⟨p, hp, hparts⟩
    cases hparts
    rcases (mem_required_iff accesses p).mp hp with ⟨s, hs, hrequired, hproperty⟩
    have hline : p.line = s.line := congrArg RequiredProperty.line hproperty
    refine ⟨(required_iff_needed hs).mp hrequired, isNested_eq_false_iff hp, ?_⟩
    rw [hline]
    exact isLeast_line hs
  · rintro ⟨hneeded, hnested, hline⟩
    rcases hline.1 with ⟨a, ha, hhead, _⟩
    rcases (exists_summary_iff accesses name).mpr ⟨a, ha, hhead⟩ with ⟨s, hs⟩
    have hp := (mem_required_iff accesses (Requirements.requiredProperty (name, s))).mpr
      ⟨s, hs, (required_iff_needed hs).mpr hneeded, rfl⟩
    refine List.mem_map.mpr ⟨_, hp, ?_⟩
    have hsameLine : s.line = line := (isLeast_line hs).unique hline
    have hsameFlag : (!s.direct) = isNested := by
      have hflag := (isNested_eq_false_iff hp).trans hnested.symm
      rwa [Bool.eq_false_iff, Bool.eq_false_iff, not_iff_not, ← Bool.eq_iff_iff] at hflag
    exact Prod.ext rfl (Prod.ext hsameFlag hsameLine)

theorem hasFallback_iff {accesses : List Access} {name : String} {s : Summary}
    (hs : summaryFrom name none accesses = some s) :
    (s.fallback || s.defaulted) = true <->
      exists a, a ∈ accesses ∧ a.path.head? = some name ∧
        (a.use = .fallback ∨ a.use = .defaulted) := by
  have hfallback := shows_iff hs .fallback
  have hdefaulted := shows_iff hs .defaulted
  simp only [and_or_left, exists_or, ← hfallback, ← hdefaulted]
  exact Bool.or_eq_true_iff

theorem mem_optional_brief_iff (accesses : List Access) (name : String) (hasFallback : Bool)
    (line : Nat) :
    (name, hasFallback, line) ∈ (Requirements.ofAccesses accesses).optional.map
        (fun p => (p.name, p.hasFallback, p.line)) <->
      ¬ Needed accesses name ∧
      (hasFallback = true <-> exists a, a ∈ accesses ∧ a.path.head? = some name ∧
        (a.use = .fallback ∨ a.use = .defaulted)) ∧
      IsLeast (linesOf accesses name) line := by
  constructor
  · intro hbrief
    rcases List.mem_map.mp hbrief with ⟨p, hp, hparts⟩
    cases hparts
    rcases (mem_optional_iff accesses p).mp hp with ⟨s, hs, hrequired, hproperty⟩
    have hline : p.line = s.line := congrArg OptionalProperty.line hproperty
    have hflag : p.hasFallback = (s.fallback || s.defaulted) :=
      congrArg OptionalProperty.hasFallback hproperty
    rw [hline, hflag, ← required_iff_needed hs, Bool.not_eq_true]
    exact ⟨hrequired, hasFallback_iff hs, isLeast_line hs⟩
  · rintro ⟨hneeded, hfallback, hline⟩
    rcases hline.1 with ⟨a, ha, hhead, _⟩
    rcases (exists_summary_iff accesses name).mpr ⟨a, ha, hhead⟩ with ⟨s, hs⟩
    rw [← required_iff_needed hs, Bool.not_eq_true] at hneeded
    have hp := (mem_optional_iff accesses (Requirements.optionalProperty (name, s))).mpr
      ⟨s, hs, hneeded, rfl⟩
    refine List.mem_map.mpr ⟨_, hp, ?_⟩
    have hsameLine : s.line = line := (isLeast_line hs).unique hline
    have hsameFlag : (s.fallback || s.defaulted) = hasFallback :=
      Bool.eq_iff_iff.mpr ((hasFallback_iff hs).trans hfallback.symm)
    exact Prod.ext rfl (Prod.ext hsameFlag hsameLine)

theorem pairwise_line {α : Type} (line : α -> Nat) (properties : List α) :
    (properties.mergeSort fun p q => line p ≤ line q).Pairwise fun p q => line p ≤ line q := by
  have hsorted : (properties.mergeSort fun p q => line p ≤ line q).Pairwise
      fun p q => decide (line p ≤ line q) = true := by
    apply List.pairwise_mergeSort
    · intro p q r hpq hqr
      rw [decide_eq_true_eq] at hpq hqr ⊢
      exact Nat.le_trans hpq hqr
    · intro p q
      rw [Bool.or_eq_true, decide_eq_true_eq, decide_eq_true_eq]
      exact Nat.le_total _ _
  simpa only [decide_eq_true_eq] using hsorted

/-!
# Permutations
-/

def listingOrder : NestedProperty -> NestedProperty -> Ordering :=
  compareLex (compareOn (·.line)) (compareLex (compareOn (·.parentPath)) (compareOn (·.name)))

instance : Std.TransCmp listingOrder :=
  inferInstanceAs (Std.TransCmp (compareLex _ _))

theorem nestedLe_eq (p q : NestedProperty) :
    Requirements.nestedLe p q = (listingOrder p q).isLE := rfl

theorem keyOf_eq_of_listingOrder {p q : NestedProperty} (h : listingOrder p q = .eq) :
    keyOf p = keyOf q := by
  unfold listingOrder at h
  rw [compareLex_eq_eq, compareLex_eq_eq] at h
  exact Prod.ext (Std.LawfulEqOrd.eq_of_compare h.2.1) (Std.LawfulEqOrd.eq_of_compare h.2.2)

theorem pairwise_nested (accesses : List Access) :
    (Requirements.ofAccesses accesses).nested.Pairwise fun p q =>
      Requirements.nestedLe p q = true := by
  apply List.pairwise_mergeSort
  · intro p q r hpq hqr
    rw [nestedLe_eq] at hpq hqr ⊢
    exact Std.TransCmp.isLE_trans hpq hqr
  · intro p q
    rw [nestedLe_eq, nestedLe_eq, Bool.or_eq_true, ← Std.OrientedCmp.isGE_iff_isLE (a := p)]
    cases listingOrder p q <;> simp

section

variable {accesses other : List Access}

theorem needed_of_perm (hperm : accesses.Perm other) (name : String) :
    Needed accesses name <-> Needed other name := by
  unfold Needed
  simp only [hperm.mem_iff]

theorem linesOf_of_perm (hperm : accesses.Perm other) (name : String) :
    linesOf accesses name = linesOf other name := by
  unfold linesOf
  simp only [hperm.mem_iff]

theorem mem_nested_of_perm (hperm : accesses.Perm other) (p : NestedProperty) :
    p ∈ (Requirements.ofAccesses accesses).nested <->
      p ∈ (Requirements.ofAccesses other).nested := by
  simp only [mem_nested_iff_steps, Waived, hperm.mem_iff]

theorem nested_of_perm (hperm : accesses.Perm other) :
    (Requirements.ofAccesses accesses).nested = (Requirements.ofAccesses other).nested := by
  have hkeys := nodup_map_keyOf_nested accesses
  have hnested : (Requirements.ofAccesses accesses).nested.Perm
      (Requirements.ofAccesses other).nested :=
    (List.perm_ext_iff_of_nodup hkeys.of_map (nodup_map_keyOf_nested other).of_map).mpr
      (mem_nested_of_perm hperm)
  apply List.Perm.eq_of_pairwise _ (pairwise_nested accesses) (pairwise_nested other) hnested
  intro p q hp hq hpq hqp
  -- Two entries that stand in both orders have the same key, and keys do not repeat.
  apply List.inj_on_of_nodup_map hkeys hp (hnested.mem_iff.mpr hq)
  rw [nestedLe_eq] at hpq hqp
  exact keyOf_eq_of_listingOrder (Std.OrientedCmp.isLE_antisymm hpq hqp)

end

/-- Two readings agree in all but the paths that stand for names read through deeper
paths, and in the order of properties at one line. -/
structure SameClasses (r t : Requirements) : Prop where
  required : forall brief, brief ∈ r.required.map (fun p => (p.name, p.isNested, p.line)) <->
    brief ∈ t.required.map fun p => (p.name, p.isNested, p.line)
  optional : forall brief, brief ∈ r.optional.map (fun p => (p.name, p.hasFallback, p.line)) <->
    brief ∈ t.optional.map fun p => (p.name, p.hasFallback, p.line)
  nested : r.nested = t.nested

theorem sameClasses_of_perm {accesses other : List Access} (hperm : accesses.Perm other) :
    SameClasses (Requirements.ofAccesses accesses) (Requirements.ofAccesses other) := by
  constructor
  · rintro ⟨name, isNested, line⟩
    rw [mem_required_brief_iff, mem_required_brief_iff, needed_of_perm hperm,
      linesOf_of_perm hperm]
    simp only [hperm.mem_iff]
  · rintro ⟨name, hasFallback, line⟩
    rw [mem_optional_brief_iff, mem_optional_brief_iff, needed_of_perm hperm,
      linesOf_of_perm hperm]
    simp only [hperm.mem_iff]
  · exact nested_of_perm hperm

/-!
# The deepest path of a name

A name that is read only through deeper paths is shown with the first one of its
longest paths.
-/

/-- One of the longest paths by which a name is read. -/
structure Deepest (accesses : List Access) (name : String) (path : List String) : Prop where
  read : exists a, a ∈ accesses ∧ a.path = path
  head : path.head? = some name
  longest : forall b, b ∈ accesses -> b.path.head? = some name -> b.path.length ≤ path.length

theorem Deepest.of_perm {accesses other : List Access} {name : String} {path : List String}
    (h : Deepest accesses name path) (hperm : accesses.Perm other) : Deepest other name path := by
  constructor
  · rcases h.read with ⟨a, ha, hpath⟩
    exact ⟨a, hperm.mem_iff.mp ha, hpath⟩
  · exact h.head
  · intro b hb hhead
    exact h.longest b (hperm.mem_iff.mpr hb) hhead

def deeperPaths (name : String) (accesses : List Access) : List (List String) :=
  (accesses.map (·.path)).filter fun path => path.head? = some name ∧ path.length ≠ 1

theorem summaryFrom_append_singleton (name : String) (found : Option Summary)
    (accesses : List Access) (a : Access) :
    summaryFrom name found (accesses ++ [a]) =
      if a.path.head? = some name then
        some (((summaryFrom name found accesses).getD { line := a.line }).note a)
      else summaryFrom name found accesses := by
  induction accesses generalizing found with
  | nil =>
      rfl
  | cons b rest ih =>
      rw [List.cons_append, summaryFrom_cons, summaryFrom_cons]
      by_cases hhead : b.path.head? = some name
      · rw [if_pos hhead, if_pos hhead, ih]
      · rw [if_neg hhead, if_neg hhead, ih]

theorem deepest_eq_argmax (name : String) (accesses : List Access) :
    (summaryFrom name none accesses).bind (·.deepest) =
      (deeperPaths name accesses).argmax List.length := by
  induction accesses using List.reverseRecOn with
  | nil =>
      rfl
  | append_singleton accesses a ih =>
      have hstart : ((summaryFrom name none accesses).getD { line := a.line }).deepest =
          (summaryFrom name none accesses).bind (·.deepest) := by
        cases summaryFrom name none accesses <;> rfl
      unfold deeperPaths at ih ⊢
      rw [summaryFrom_append_singleton, List.map_append, List.filter_append, List.map_singleton,
        List.filter_singleton]
      by_cases hhead : a.path.head? = some name
      · by_cases htop : a.path.length = 1
        · simp [hhead, htop, Summary.note_deepest, hstart, ih]
        · simp only [hhead, htop, ↓reduceIte, Option.bind_some, Summary.note_deepest, hstart, ih]
          simp only [ne_eq, htop, not_false_eq_true, and_self, decide_true, cond_true,
            List.argmax_concat]
          cases List.argmax List.length _ with
          | none =>
              rfl
          | some d =>
              simp
      · simp [hhead, ih]

theorem nestedPath_eq {accesses : List Access} {r : RequiredProperty}
    (hr : r ∈ (Requirements.ofAccesses accesses).required) :
    r.nestedPath =
      if r.isNested then ((deeperPaths r.name accesses).argmax List.length).map dotted
      else none := by
  rcases (mem_required_iff accesses r).mp hr with ⟨s, hs, _, hproperty⟩
  have hdeepest := deepest_eq_argmax r.name accesses
  rw [hs, Option.bind_some] at hdeepest
  have hflag : r.isNested = !s.direct := congrArg RequiredProperty.isNested hproperty
  have hpath : r.nestedPath = if s.direct then none else s.deepest.map dotted :=
    congrArg RequiredProperty.nestedPath hproperty
  rw [hpath, hflag, ← hdeepest]
  cases s.direct <;> rfl

theorem mem_deeperPaths_iff {accesses : List Access} {r : RequiredProperty}
    (hr : r ∈ (Requirements.ofAccesses accesses).required) (hnested : r.isNested = true)
    (path : List String) :
    path ∈ deeperPaths r.name accesses <->
      (exists a, a ∈ accesses ∧ a.path = path) ∧ path.head? = some r.name := by
  unfold deeperPaths
  rw [List.mem_filter, List.mem_map, decide_eq_true_eq, and_congr_right_iff, and_iff_left_iff_imp]
  rintro ⟨a, ha, rfl⟩ hhead hlength
  have hdirect := (isNested_eq_false_iff hr).mpr
    ⟨a, ha, (path_eq_singleton_iff a r.name).mp ⟨hhead, hlength⟩⟩
  rw [hnested] at hdirect
  cases hdirect

theorem exists_deepest {accesses : List Access} {r : RequiredProperty}
    (hr : r ∈ (Requirements.ofAccesses accesses).required) (hnested : r.isNested = true) :
    exists path, Deepest accesses r.name path ∧ r.nestedPath = some (dotted path) := by
  have hpaths := mem_deeperPaths_iff hr hnested
  have hpath := nestedPath_eq hr
  rw [if_pos hnested] at hpath
  rcases exists_access_of_mem_required hr with ⟨a, ha, hhead⟩
  cases hargmax : (deeperPaths r.name accesses).argmax List.length with
  | none =>
      rw [List.argmax_eq_none] at hargmax
      have hmem := (hpaths a.path).mpr ⟨⟨a, ha, rfl⟩, hhead⟩
      rw [hargmax] at hmem
      cases hmem
  | some path =>
      rw [hargmax] at hpath
      rcases (hpaths path).mp (List.argmax_mem hargmax) with ⟨hread, hname⟩
      refine ⟨path, ⟨hread, hname, ?_⟩, hpath⟩
      intro b hb hbhead
      exact List.le_of_mem_argmax ((hpaths b.path).mpr ⟨⟨b, hb, rfl⟩, hbhead⟩) hargmax

/-- Each of the longest paths can come to stand for the name. -/
theorem exists_perm_of_deepest {accesses : List Access} {r : RequiredProperty}
    (hr : r ∈ (Requirements.ofAccesses accesses).required) (hnested : r.isNested = true)
    {path : List String} (hpath : Deepest accesses r.name path) :
    exists other, accesses.Perm other ∧
      exists q, q ∈ (Requirements.ofAccesses other).required ∧ q.name = r.name ∧
        q.nestedPath = some (dotted path) := by
  rcases hpath.read with ⟨a, ha, rfl⟩
  -- The access goes to the front, so that no other path comes first.
  have hperm := List.perm_cons_erase ha
  have hbrief := ((sameClasses_of_perm hperm).required (r.name, r.isNested, r.line)).mp
    (List.mem_map.mpr ⟨r, hr, rfl⟩)
  rcases List.mem_map.mp hbrief with ⟨q, hq, hparts⟩
  have hname : q.name = r.name := congrArg Prod.fst hparts
  have hqnested : q.isNested = true := (congrArg (fun brief => brief.2.1) hparts).trans hnested
  refine ⟨a :: accesses.erase a, hperm, q, hq, hname, ?_⟩
  rw [nestedPath_eq hq, if_pos hqnested, hname]
  have hargmax : (deeperPaths r.name (a :: accesses.erase a)).argmax List.length =
      some a.path := by
    have hfront : deeperPaths r.name (a :: accesses.erase a) =
        a.path :: deeperPaths r.name (accesses.erase a) := by
      have hdeeper := (mem_deeperPaths_iff hr hnested a.path).mpr ⟨hpath.read, hpath.head⟩
      exact List.filter_cons_of_pos (List.mem_filter.mp hdeeper).2
    rw [hfront, List.argmax_cons]
    cases hrest : (deeperPaths r.name (accesses.erase a)).argmax List.length with
    | none =>
        rfl
    | some c =>
        rcases List.mem_filter.mp (List.argmax_mem hrest) with ⟨hread, hhead⟩
        rcases List.mem_map.mp hread with ⟨b, hb, rfl⟩
        rw [decide_eq_true_eq] at hhead
        have hshorter := hpath.longest b (List.mem_of_mem_erase hb) hhead.1
        simp [Nat.not_lt.mpr hshorter]
  rw [hargmax, Option.map_some]

/-!
# The whole reading
-/

/-- The names that are read, each in one of two classes, with the first line at which
it is read. -/
structure Classified (accesses : List Access) (r : Requirements) : Prop where
  once : r.names.Nodup
  names_iff : forall name, name ∈ r.names <-> exists a, a ∈ accesses ∧ a.path.head? = some name
  required_iff : forall name, name ∈ r.required.map (·.name) <-> Needed accesses name
  required_line : forall p, p ∈ r.required -> IsLeast (linesOf accesses p.name) p.line
  optional_line : forall p, p ∈ r.optional -> IsLeast (linesOf accesses p.name) p.line
  required_sorted : r.required.Pairwise fun p q => p.line ≤ q.line
  optional_sorted : r.optional.Pairwise fun p q => p.line ≤ q.line

theorem exists_summary_of_needed {accesses : List Access} {name : String}
    (hneeded : Needed accesses name) :
    exists s, summaryFrom name none accesses = some s := by
  rw [exists_summary_iff]
  rcases hneeded with ⟨a, ha, hhead, _⟩ | ⟨⟨a, ha, hhead, _⟩, _⟩
  · exact ⟨a, ha, hhead⟩
  · exact ⟨a, ha, hhead⟩

theorem mem_required_names_iff (accesses : List Access) (name : String) :
    name ∈ (Requirements.ofAccesses accesses).required.map (·.name) <->
      Needed accesses name := by
  constructor
  · intro hname
    rcases List.mem_map.mp hname with ⟨p, hp, rfl⟩
    rcases (mem_required_iff accesses p).mp hp with ⟨s, hs, hrequired, _⟩
    exact (required_iff_needed hs).mp hrequired
  · intro hneeded
    rcases exists_summary_of_needed hneeded with ⟨s, hs⟩
    have hp := (mem_required_iff accesses (Requirements.requiredProperty (name, s))).mpr
      ⟨s, hs, (required_iff_needed hs).mpr hneeded, rfl⟩
    exact List.mem_map.mpr ⟨_, hp, rfl⟩

theorem classified_ofAccesses (accesses : List Access) :
    Classified accesses (Requirements.ofAccesses accesses) := by
  constructor
  · exact (names_perm accesses).nodup_iff.mpr (nodup_keys_summaries accesses)
  · exact mem_names_iff accesses
  · exact mem_required_names_iff accesses
  · intro p hp
    exact ((mem_required_brief_iff accesses p.name p.isNested p.line).mp
      (List.mem_map.mpr ⟨p, hp, rfl⟩)).2.2
  · intro p hp
    exact ((mem_optional_brief_iff accesses p.name p.hasFallback p.line).mp
      (List.mem_map.mpr ⟨p, hp, rfl⟩)).2.2
  · exact pairwise_line RequiredProperty.line _
  · exact pairwise_line OptionalProperty.line _

/-- Every name that is read is sorted into one class.  The order of the accesses
matters only for the path shown with a name that is read through deeper paths: over
all orders, this is any of the longest. -/
theorem classes_of_accesses (accesses : List Access) :
    Classified accesses (Requirements.ofAccesses accesses) ∧
    (forall other, accesses.Perm other ->
      SameClasses (Requirements.ofAccesses accesses) (Requirements.ofAccesses other)) ∧
    forall p, p ∈ (Requirements.ofAccesses accesses).required ->
      (p.isNested = false -> p.nestedPath = none) ∧
      (p.isNested = true ->
        (forall other, accesses.Perm other ->
          forall q, q ∈ (Requirements.ofAccesses other).required -> q.name = p.name ->
            exists path, Deepest accesses p.name path ∧ q.nestedPath = some (dotted path)) ∧
        forall path, Deepest accesses p.name path ->
          exists other, accesses.Perm other ∧
            exists q, q ∈ (Requirements.ofAccesses other).required ∧ q.name = p.name ∧
              q.nestedPath = some (dotted path)) := by
  refine ⟨classified_ofAccesses accesses, fun other hperm => sameClasses_of_perm hperm, ?_⟩
  intro p hp
  constructor
  · intro hdirect
    rw [nestedPath_eq hp, hdirect]
    rfl
  · intro hnested
    refine ⟨?_, fun path hpath => exists_perm_of_deepest hp hnested hpath⟩
    intro other hperm q hq hname
    have hqnested : q.isNested = true := by
      rw [← Bool.not_eq_false, isNested_eq_false_iff hq, hname]
      rw [← Bool.not_eq_false, isNested_eq_false_iff hp] at hnested
      simpa only [hperm.mem_iff] using hnested
    rcases exists_deepest hq hqnested with ⟨path, hpath, hshown⟩
    exact ⟨path, hname ▸ hpath.of_perm hperm.symm, hshown⟩

def twoWays : List Access :=
  [⟨["a", "b", "c"], [false, false, false], .plain, false, false, 2⟩,
    ⟨["a", "d", "e"], [false, false, false], .fallback, false, false, 1⟩]

theorem twoWays_either :
    ⟨"a", true, some "a.b.c", 1⟩ ∈ (Requirements.ofAccesses twoWays).required ∧
      exists other, twoWays.Perm other ∧
        exists q, q ∈ (Requirements.ofAccesses other).required ∧ q.name = "a" ∧
          q.nestedPath = some "a.d.e" := by
  have hp : (⟨"a", true, some "a.b.c", 1⟩ : RequiredProperty) ∈
      (Requirements.ofAccesses twoWays).required := by
    decide +kernel
  have hdeepest : Deepest twoWays "a" ["a", "d", "e"] := by
    constructor
    · exact ⟨_, List.mem_cons_of_mem _ List.mem_cons_self, rfl⟩
    · rfl
    · simp [twoWays]
  exact ⟨hp, (((classes_of_accesses twoWays).2.2 _ hp).2 rfl).2 _ hdeepest⟩

end Consumer
end PayloadFlow
