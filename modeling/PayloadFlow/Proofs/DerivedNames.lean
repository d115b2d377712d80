import Mathlib.Order.Bounds.Basic
import PayloadFlow.Extract.Broker.Transformation
import PayloadFlow.Proofs.PatternNames

/-!
# Derived names

The names that derive from the inputs of a routine are the least set that has the inputs
and, with a name that a declared value mentions, all names that are found in the declared
pattern.  They are found by scans through the declarations until a scan finds nothing new.
If all patterns are plain, then the names that are found are the ones that are bound.
-/

namespace PayloadFlow
namespace Broker

open Script

namespace Derivation

/-!
# Scans

A scan only ever adds names at the end, so that whatever it meets on the way is among the
names it ends with.
-/

theorem prefix_foldl {α : Type} {f : List String -> α -> List String}
    (hf : forall names a, names <+: f names a) (as : List α) (names : List String) :
    names <+: as.foldl f names := by
  induction as generalizing names with
  | nil =>
      exact List.prefix_refl names
  | cons a rest ih =>
      exact (hf names a).trans (ih (f names a))

theorem prefix_addName (names : List String) (name : String) : names <+: addName names name := by
  unfold addName
  split
  · exact List.prefix_refl names
  · exact List.prefix_append names [name]

theorem prefix_step (known : List String) (d : Derivation) : known <+: step known d := by
  unfold step
  split
  · exact prefix_foldl prefix_addName d.binds known
  · exact List.prefix_refl known

theorem prefix_scan (ds : List Derivation) (known : List String) : known <+: scan ds known :=
  prefix_foldl prefix_step ds known

theorem any_contains_iff (reads known : List String) :
    reads.any known.contains = true <-> exists name, name ∈ reads ∧ name ∈ known := by
  simp only [List.any_eq_true, List.contains_iff_mem]

theorem mem_addName (names : List String) (name n : String) :
    n ∈ addName names name <-> n ∈ names ∨ n = name := by
  unfold addName
  split
  · rename_i hcontains
    have hname : name ∈ names := List.contains_iff_mem.mp hcontains
    constructor
    · exact Or.inl
    · intro hn
      rcases hn with hn | hn
      · exact hn
      · exact hn ▸ hname
  · rw [List.mem_append, List.mem_singleton]

theorem mem_foldl_addName (binds known : List String) (n : String) :
    n ∈ binds.foldl addName known <-> n ∈ known ∨ n ∈ binds := by
  induction binds generalizing known with
  | nil =>
      simp
  | cons name rest ih =>
      rw [List.foldl_cons, ih, mem_addName, List.mem_cons, or_assoc]

theorem mem_step_iff (known : List String) (d : Derivation) (n : String) :
    n ∈ step known d <->
      n ∈ known ∨ (exists name, name ∈ d.reads ∧ name ∈ known) ∧ n ∈ d.binds := by
  unfold step
  split
  · rename_i hreads
    rw [mem_foldl_addName, and_iff_right ((any_contains_iff _ _).mp hreads)]
  · rename_i hreads
    rw [any_contains_iff] at hreads
    rw [or_iff_left (fun h => hreads h.1)]

theorem nodup_addName {names : List String} (hnames : names.Nodup) (name : String) :
    (addName names name).Nodup := by
  unfold addName
  split
  · exact hnames
  · rename_i hcontains
    rw [List.contains_iff_mem] at hcontains
    rw [List.nodup_append]
    refine ⟨hnames, List.pairwise_singleton _ name, ?_⟩
    intro n hn other hother heq
    exact hcontains (List.mem_singleton.mp hother ▸ heq ▸ hn)

theorem nodup_foldl_addName {known : List String} (hknown : known.Nodup) (binds : List String) :
    (binds.foldl addName known).Nodup := by
  induction binds generalizing known with
  | nil =>
      exact hknown
  | cons name rest ih =>
      exact ih (nodup_addName hknown name)

theorem nodup_step {known : List String} (hknown : known.Nodup) (d : Derivation) :
    (step known d).Nodup := by
  unfold step
  split
  · exact nodup_foldl_addName hknown d.binds
  · exact hknown

theorem nodup_scan {known : List String} (hknown : known.Nodup) (ds : List Derivation) :
    (scan ds known).Nodup := by
  unfold scan
  induction ds generalizing known with
  | nil =>
      exact hknown
  | cons d rest ih =>
      exact ih (nodup_step hknown d)

/-- What a derivation binds is found if it reads a known name. -/
theorem mem_scan_of_reads {ds : List Derivation} {d : Derivation} (hd : d ∈ ds)
    {known : List String} (hreads : exists name, name ∈ d.reads ∧ name ∈ known) {n : String}
    (hn : n ∈ d.binds) : n ∈ scan ds known := by
  induction ds generalizing known with
  | nil =>
      cases hd
  | cons first rest ih =>
      rcases List.mem_cons.mp hd with heq | hrest
      · subst heq
        have hstep : n ∈ step known d := (mem_step_iff known d n).mpr (Or.inr ⟨hreads, hn⟩)
        exact (prefix_scan rest (step known d)).subset hstep
      · rcases hreads with ⟨name, hread, hname⟩
        exact ih hrest ⟨name, hread, (prefix_step known first).subset hname⟩

/-- A name that a scan finds is bound by a derivation all of whose names are found. -/
theorem origin_of_mem_scan {ds : List Derivation} {known : List String} {n : String}
    (hn : n ∈ scan ds known) :
    n ∈ known ∨ exists d, d ∈ ds ∧ n ∈ d.binds ∧ forall b, b ∈ d.binds -> b ∈ scan ds known := by
  induction ds generalizing known with
  | nil =>
      exact Or.inl hn
  | cons first rest ih =>
      have hrest : n ∈ scan rest (step known first) := hn
      rcases ih hrest with hstep | ⟨d, hd, hbound, hfound⟩
      · rcases (mem_step_iff known first n).mp hstep with hold | ⟨hreads, hbound⟩
        · exact Or.inl hold
        · refine Or.inr ⟨first, List.mem_cons_self, hbound, ?_⟩
          intro b hb
          exact mem_scan_of_reads List.mem_cons_self hreads hb
      · exact Or.inr ⟨d, List.mem_cons_of_mem first hd, hbound, hfound⟩

/-!
# Closed sets of names
-/

/-- With a name that a derivation reads, the set has all names that it binds. -/
def Closed (ds : List Derivation) (names : Set String) : Prop :=
  forall d, d ∈ ds -> (exists name, name ∈ d.reads ∧ name ∈ names) ->
    forall n, n ∈ d.binds -> n ∈ names

theorem Closed.perm {ds others : List Derivation} {names : Set String}
    (hclosed : Closed ds names) (hperm : others.Perm ds) : Closed others names := by
  intro d hd
  exact hclosed d (hperm.mem_iff.mp hd)

theorem Closed.step_subset {ds : List Derivation} {names : Set String}
    (hclosed : Closed ds names) {d : Derivation} (hd : d ∈ ds) {known : List String}
    (hknown : forall n, n ∈ known -> n ∈ names) :
    forall n, n ∈ step known d -> n ∈ names := by
  intro n hn
  rcases (mem_step_iff known d n).mp hn with hold | ⟨⟨name, hread, hname⟩, hbound⟩
  · exact hknown n hold
  · exact hclosed d hd ⟨name, hread, hknown name hname⟩ n hbound

theorem Closed.scan_subset {ds : List Derivation} {names : Set String}
    (hclosed : Closed ds names) {known : List String}
    (hknown : forall n, n ∈ known -> n ∈ names) :
    forall n, n ∈ scan ds known -> n ∈ names := by
  unfold scan
  induction ds generalizing known with
  | nil =>
      exact hknown
  | cons d rest ih =>
      have hrest : Closed rest names := fun e he => hclosed e (List.mem_cons_of_mem d he)
      exact ih hrest (hclosed.step_subset List.mem_cons_self hknown)

/-- Where a scan finds nothing new, nothing is missing. -/
theorem closed_of_scan_eq {ds : List Derivation} {known : List String}
    (hscan : scan ds known = known) : Closed ds {n | n ∈ known} := by
  intro d hd hread n hn
  have hfound := mem_scan_of_reads hd hread hn
  rw [hscan] at hfound
  exact hfound

/-!
# Scans until nothing is new
-/

/-- Scans go on as long as they find a name. -/
inductive Settles (ds : List Derivation) : List String -> List String -> Prop where
  | rest {known : List String} :
      (scan ds known).length = known.length -> Settles ds known (scan ds known)
  | again {known result : List String} :
      (scan ds known).length ≠ known.length -> Settles ds (scan ds known) result ->
      Settles ds known result

theorem scan_eq_of_length {ds : List Derivation} {known : List String}
    (hlength : (scan ds known).length = known.length) : scan ds known = known :=
  ((prefix_scan ds known).eq_of_length hlength.symm).symm

theorem Settles.nodup {ds : List Derivation} {known result : List String}
    (h : Settles ds known result) (hknown : known.Nodup) : result.Nodup := by
  induction h with
  | rest _ =>
      exact nodup_scan hknown ds
  | again _ _ ih =>
      exact ih (nodup_scan hknown ds)

/-- Once the scans come to an end, they have found the least closed set. -/
theorem Settles.isLeast {ds : List Derivation} {known result : List String}
    (h : Settles ds known result) :
    IsLeast {names : Set String | (forall n, n ∈ known -> n ∈ names) ∧ Closed ds names}
      {n | n ∈ result} := by
  induction h with
  | @rest known hlength =>
      rw [scan_eq_of_length hlength]
      constructor
      · exact ⟨fun _ hn => hn, closed_of_scan_eq (scan_eq_of_length hlength)⟩
      · intro names hnames
        exact hnames.1
  | @again known result _ _ ih =>
      rcases ih with ⟨⟨hfound, hclosed⟩, hleast⟩
      constructor
      · exact ⟨fun n hn => hfound n ((prefix_scan ds known).subset hn), hclosed⟩
      · intro names hnames
        exact hleast ⟨hnames.2.scan_subset hnames.1, hnames.2⟩

/-!
# The number of scans

A derivation that adds a name has all its names found from then on, so that it does so
only once.
-/

/-- A derivation that binds a name which is not known. -/
def isFresh (known : List String) (d : Derivation) : Bool :=
  d.binds.any fun n => !known.contains n

theorem isFresh_iff (known : List String) (d : Derivation) :
    d.isFresh known = true <-> exists n, n ∈ d.binds ∧ n ∉ known := by
  simp [isFresh]

theorem isFresh_of_prefix {known later : List String} (hgrown : known <+: later)
    {d : Derivation} (hfresh : d.isFresh later = true) : d.isFresh known = true := by
  rw [isFresh_iff] at hfresh ⊢
  rcases hfresh with ⟨n, hn, hnew⟩
  exact ⟨n, hn, fun hknown => hnew (hgrown.subset hknown)⟩

theorem exists_used_up {ds : List Derivation} {known : List String} (hknown : known.Nodup)
    (hlength : (scan ds known).length ≠ known.length) :
    exists d, d ∈ ds ∧ d.isFresh known = true ∧ d.isFresh (scan ds known) = false := by
  have hnew : exists n, n ∈ scan ds known ∧ n ∉ known := by
    by_contra hnone
    have hsubset : scan ds known ⊆ known := by
      intro n hn
      by_contra hnot
      exact hnone ⟨n, hn, hnot⟩
    have hle := (nodup_scan hknown ds).length_le_of_subset hsubset
    exact hlength (Nat.le_antisymm hle (prefix_scan ds known).length_le)
  rcases hnew with ⟨n, hn, hnot⟩
  rcases origin_of_mem_scan hn with hold | ⟨d, hd, hbound, hfound⟩
  · exact absurd hold hnot
  · refine ⟨d, hd, (isFresh_iff known d).mpr ⟨n, hbound, hnot⟩, ?_⟩
    rw [Bool.eq_false_iff, Ne, isFresh_iff]
    intro hfresh
    rcases hfresh with ⟨b, hb, hmissing⟩
    exact hmissing (hfound b hb)

theorem countP_isFresh_scan_lt {ds : List Derivation} {known : List String}
    (hknown : known.Nodup) (hlength : (scan ds known).length ≠ known.length) :
    ds.countP (isFresh (scan ds known)) < ds.countP (isFresh known) := by
  rcases exists_used_up hknown hlength with ⟨d, hd, hbefore, hafter⟩
  rcases List.append_of_mem hd with ⟨left, right, hds⟩
  have hmono : forall others : List Derivation,
      others.countP (isFresh (scan ds known)) ≤ others.countP (isFresh known) := by
    intro others
    apply List.countP_mono_left
    intro e _ hfresh
    exact isFresh_of_prefix (prefix_scan ds known) hfresh
  have hleft := hmono left
  have hright := hmono right
  generalize hlater : scan ds known = later at hafter hleft hright ⊢
  rw [hds, List.countP_append, List.countP_append, List.countP_cons_of_pos hbefore,
    List.countP_cons_of_neg (by simp [hafter])]
  omega

theorem settles_closure {ds : List Derivation} {rounds : Nat} {known : List String}
    (hknown : known.Nodup) (hrounds : ds.countP (isFresh known) < rounds) :
    Settles ds known (closure ds rounds known) := by
  induction rounds generalizing known with
  | zero =>
      cases hrounds
  | succ rounds ih =>
      unfold closure
      dsimp only
      split
      · rename_i hlength
        have hrest := Settles.rest (beq_iff_eq.mp hlength)
        rw [scan_eq_of_length (beq_iff_eq.mp hlength)] at hrest
        exact hrest
      · rename_i hlength
        have hgrown : (scan ds known).length ≠ known.length := fun h => hlength (beq_iff_eq.mpr h)
        have hless := countP_isFresh_scan_lt hknown hgrown
        exact Settles.again hgrown (ih (nodup_scan hknown ds) (by omega))

/-- The scans come to an end within the number of derivations. -/
theorem settles_derived (ds : List Derivation) {start : List String} (hstart : start.Nodup) :
    Settles ds start (derived ds start) :=
  settles_closure hstart (Nat.lt_succ_of_le List.countP_le_length)

theorem mem_derived_of_perm {ds others : List Derivation} (hperm : others.Perm ds)
    {start : List String} (hstart : start.Nodup) (n : String) :
    n ∈ derived others start <-> n ∈ derived ds start := by
  have hsets : {names : Set String | (forall n, n ∈ start -> n ∈ names) ∧ Closed others names} =
      {names : Set String | (forall n, n ∈ start -> n ∈ names) ∧ Closed ds names} := by
    ext names
    exact and_congr_right' ⟨fun h => h.perm hperm.symm, fun h => h.perm hperm⟩
  have hleast := (settles_derived others hstart).isLeast
  rw [hsets] at hleast
  exact Set.ext_iff.mp (hleast.unique (settles_derived ds hstart).isLeast) n

/-!
# Declarations of a body
-/

theorem ofBody_eq (body : Node) : ofBody body = body.nodes.filterMap ofDeclarator? := by
  have hfold : forall (nodes : List Node) (found : List Derivation),
      (nodes.foldl (fun found n => (ofDeclarator? n).toList ++ found) found).reverse =
        found.reverse ++ nodes.filterMap ofDeclarator? := by
    intro nodes
    induction nodes with
    | nil =>
        intro found
        simp
    | cons n rest ih =>
        intro found
        rw [List.foldl_cons, ih, List.filterMap_cons]
        cases ofDeclarator? n with
        | none =>
            rfl
        | some d =>
            simp
  unfold ofBody
  rw [walk_gather (fun found n => (ofDeclarator? n).toList ++ found), hfold]
  rfl

theorem ofDeclarator?_eq_some_iff (n : Node) (d : Derivation) :
    ofDeclarator? n = some d <->
      n.kind = .variableDeclarator ∧ exists pattern, n.child? .name = some pattern ∧
        exists value, n.child? .value = some value ∧
          ⟨Expression.references value.text, pattern.boundNames⟩ = d := by
  unfold ofDeclarator?
  split
  · rename_i hkind
    rw [and_iff_right (beq_iff_eq.mp hkind)]
    cases n.child? .name with
    | none =>
        simp
    | some pattern =>
        cases n.child? .value with
        | none =>
            simp
        | some value =>
            simp
  · rename_i hkind
    rw [beq_iff_eq] at hkind
    simp [hkind]

end Derivation

/-!
# Names of a routine
-/

namespace Routine

/-- The names of the event and of the payload. -/
def inputs (r : Routine) : List String :=
  r.payloadParam.toList.foldl Derivation.addName
    (r.eventParam.toList.foldl Derivation.addName [])

theorem mem_inputs_iff (r : Routine) (n : String) :
    n ∈ r.inputs <-> r.eventParam = some n ∨ r.payloadParam = some n := by
  unfold inputs
  rw [Derivation.mem_foldl_addName, Derivation.mem_foldl_addName, Option.mem_toList,
    Option.mem_toList, or_iff_right List.not_mem_nil]

theorem nodup_inputs (r : Routine) : r.inputs.Nodup :=
  Derivation.nodup_foldl_addName (Derivation.nodup_foldl_addName List.nodup_nil _) _

def Declares (r : Routine) (pattern value : Node) : Prop :=
  exists d, d ∈ r.body.nodes ∧ d.kind = .variableDeclarator ∧
    d.child? .name = some pattern ∧ d.child? .value = some value

/-- A set of names that has the inputs of a routine, and all names that a declaration in its
body binds if the value mentions a name of the set. -/
structure Traces (r : Routine) (bound : Node -> String -> Prop) (names : Set String) : Prop where
  event : forall n, r.eventParam = some n -> n ∈ names
  payload : forall n, r.payloadParam = some n -> n ∈ names
  declared : forall pattern value, r.Declares pattern value ->
    (exists name, name ∈ Expression.references value.text ∧ name ∈ names) ->
      forall n, bound pattern n -> n ∈ names

section

variable {r : Routine} {bound other : Node -> String -> Prop} {names : Set String}

theorem Traces.mono (h : r.Traces bound names)
    (hother : forall pattern value, r.Declares pattern value ->
      forall n, other pattern n -> bound pattern n) :
    r.Traces other names := by
  refine ⟨h.event, h.payload, ?_⟩
  intro pattern value hdeclared hmentioned n hn
  exact h.declared pattern value hdeclared hmentioned n (hother pattern value hdeclared n hn)

theorem closed_iff (r : Routine) (names : Set String) :
    Derivation.Closed (Derivation.ofBody r.body) names <->
      forall pattern value, r.Declares pattern value ->
        (exists name, name ∈ Expression.references value.text ∧ name ∈ names) ->
          forall n, n ∈ pattern.boundNames -> n ∈ names := by
  rw [Derivation.ofBody_eq]
  constructor
  · intro h pattern value hdeclared
    rcases hdeclared with ⟨d, hd, hkind, hpattern, hvalue⟩
    apply h ⟨Expression.references value.text, pattern.boundNames⟩
    refine List.mem_filterMap.mpr ⟨d, hd, ?_⟩
    exact (Derivation.ofDeclarator?_eq_some_iff d _).mpr
      ⟨hkind, pattern, hpattern, value, hvalue, rfl⟩
  · intro h d hd
    rcases List.mem_filterMap.mp hd with ⟨node, hnode, hof⟩
    rcases (Derivation.ofDeclarator?_eq_some_iff node d).mp hof with
      ⟨hkind, pattern, hpattern, value, hvalue, rfl⟩
    exact h pattern value ⟨node, hnode, hkind, hpattern, hvalue⟩

theorem traces_iff (r : Routine) (names : Set String) :
    r.Traces (fun pattern n => n ∈ pattern.boundNames) names <->
      (forall n, n ∈ r.inputs -> n ∈ names) ∧
        Derivation.Closed (Derivation.ofBody r.body) names := by
  rw [closed_iff]
  constructor
  · intro h
    refine ⟨?_, h.declared⟩
    intro n hn
    rcases (r.mem_inputs_iff n).mp hn with hevent | hpayload
    · exact h.event n hevent
    · exact h.payload n hpayload
  · intro h
    refine ⟨?_, ?_, h.2⟩
    · intro n hn
      exact h.1 n ((r.mem_inputs_iff n).mpr (Or.inl hn))
    · intro n hn
      exact h.1 n ((r.mem_inputs_iff n).mpr (Or.inr hn))

/-- All patterns that a routine declares with a value are plain. -/
def HasPlainPatterns (r : Routine) : Prop :=
  forall pattern value, r.Declares pattern value -> pattern.IsPlainPattern

theorem traces_of_plain (hplain : r.HasPlainPatterns) (names : Set String) :
    r.Traces (Binds fun _ => True) names <->
      r.Traces (fun pattern n => n ∈ pattern.boundNames) names := by
  constructor
  · intro h
    refine h.mono ?_
    intro pattern value hdeclared n hn
    exact (mem_boundNames_iff (hplain pattern value hdeclared)).mp hn
  · intro h
    refine h.mono ?_
    intro pattern value hdeclared n hn
    exact (mem_boundNames_iff (hplain pattern value hdeclared)).mpr hn

end

/-- The traceable names are what the scans through the declarations end with, whatever their
order.  They are the least set for the names that are found in patterns, and a set for those
that are bound by way of parts that are followed. -/
structure TracesLeast (r : Routine) : Prop where
  nodup : r.traceable.Nodup
  settles : Derivation.Settles (Derivation.ofBody r.body) r.inputs r.traceable
  least : IsLeast {names | r.Traces (fun pattern n => n ∈ pattern.boundNames) names}
    {n | n ∈ r.traceable}
  followed : r.Traces (Binds IsFollowed) {n | n ∈ r.traceable}
  any_order : forall ds, ds.Perm (Derivation.ofBody r.body) ->
    Derivation.Settles ds r.inputs (Derivation.derived ds r.inputs) ∧
      forall n, n ∈ Derivation.derived ds r.inputs <-> n ∈ r.traceable

theorem tracesLeast_ofFunction (f : FunctionNode) (path : String) (generators : List String) :
    (ofFunction f path generators).TracesLeast := by
  have hinputs := (ofFunction f path generators).nodup_inputs
  have hsettles := Derivation.settles_derived
    (Derivation.ofBody (ofFunction f path generators).body) hinputs
  have hleast : IsLeast
      {names | (ofFunction f path generators).Traces (fun pattern n => n ∈ pattern.boundNames)
        names}
      {n | n ∈ (ofFunction f path generators).traceable} := by
    simp only [traces_iff]
    exact hsettles.isLeast
  constructor
  · exact hsettles.nodup hinputs
  · exact hsettles
  · exact hleast
  · exact hleast.1.mono fun _ _ _ _ hbinds => hbinds.mem_boundNames
  · intro ds hperm
    constructor
    · exact Derivation.settles_derived ds hinputs
    · exact Derivation.mem_derived_of_perm hperm hinputs

/-- The names that derive from the inputs of a function are the least set that has them and,
with a name that a declared value mentions, all names that the declaration binds, if its
patterns are plain. -/
theorem traceable_isLeast (f : FunctionNode) (path : String) (generators : List String) :
    (ofFunction f path generators).TracesLeast ∧
    ((ofFunction f path generators).HasPlainPatterns ->
      IsLeast {names | (ofFunction f path generators).Traces (Binds fun _ => True) names}
        {n | n ∈ (ofFunction f path generators).traceable}) := by
  have htraces := tracesLeast_ofFunction f path generators
  refine ⟨htraces, ?_⟩
  intro hplain
  simp only [traces_of_plain hplain]
  exact htraces.least

/-- A routine whose declarations read each other in the wrong order. -/
def unpackingSource : String :=
  "function preparePayload(event, payload) {
  for (;;) { const [z, ...rest] = x; const { a: { x }, b = 1 } = payload; }
  return { z, rest }; }"

theorem unpacking_traced :
    exists program f, parseSource "broker.js" unpackingSource = .ok program ∧
      f ∈ program.functions ∧ (ofFunction f "broker.js" []).HasPlainPatterns ∧
      (ofFunction f "broker.js" []).traceable = ["event", "payload", "x", "b", "z", "rest"] ∧
      IsLeast {names | (ofFunction f "broker.js" []).Traces (Binds fun _ => True) names}
        {n | n ∈ (ofFunction f "broker.js" []).traceable} := by
  have hread : parsesTo "broker.js" unpackingSource (fun program => decide (
      exists f, f ∈ program.functions ∧
        (forall d, d ∈ (ofFunction f "broker.js" []).body.nodes ->
          forall pattern, pattern ∈ d.child? .name -> pattern.IsPlainPattern) ∧
        (ofFunction f "broker.js" []).traceable =
          ["event", "payload", "x", "b", "z", "rest"])) = true := by
    decide +kernel
  rcases exists_of_parsesTo hread with ⟨program, hparse, hprogram⟩
  rcases of_decide_eq_true hprogram with ⟨f, hf, hpatterns, htraceable⟩
  have hplain : (ofFunction f "broker.js" []).HasPlainPatterns := by
    rintro pattern value ⟨d, hd, _, hpattern, _⟩
    exact hpatterns d hd pattern hpattern
  exact ⟨program, f, hparse, hf, hplain, htraceable,
    (traceable_isLeast f "broker.js" []).2 hplain⟩

/-- A routine that takes a name out of an array in the payload. -/
def pairedValueSource : String :=
  "function preparePayload(event, payload) {
  const { a: [x] } = payload; return { y: x }; }"

/-- The name is bound and not found, and what the routine returns of it is taken for something
that it adds. -/
theorem pairedValue_not_traced :
    exists program f, parseSource "broker.js" pairedValueSource = .ok program ∧
      f ∈ program.functions ∧
      (ofFunction f "broker.js" []).traceable = ["event", "payload"] ∧
      (ofFunction f "broker.js" []).transformations.map (·.addedProperties) = [["y"]] ∧
      ¬ (ofFunction f "broker.js" []).Traces (Binds fun _ => True)
        {n | n ∈ (ofFunction f "broker.js" []).traceable} := by
  have hread : parsesTo "broker.js" pairedValueSource (fun program => decide (
      exists f, f ∈ program.functions ∧
        (ofFunction f "broker.js" []).traceable = ["event", "payload"] ∧
        (ofFunction f "broker.js" []).transformations.map (·.addedProperties) = [["y"]] ∧
        exists d, d ∈ (ofFunction f "broker.js" []).body.nodes ∧ d.kind = .variableDeclarator ∧
          exists pattern, pattern ∈ d.child? .name ∧ PairsArrayOf "x" pattern ∧
            exists value, value ∈ d.child? .value ∧
              "payload" ∈ Expression.references value.text)) = true := by
    decide +kernel
  rcases exists_of_parsesTo hread with ⟨program, hparse, hprogram⟩
  rcases of_decide_eq_true hprogram with
    ⟨f, hf, htraceable, hadded, d, hd, hkind, pattern, hpattern, hpairs, value, hvalue, hpayload⟩
  refine ⟨program, f, hparse, hf, htraceable, hadded, ?_⟩
  intro htraces
  have hx := htraces.declared pattern value ⟨d, hd, hkind, hpattern, hvalue⟩
    ⟨"payload", hpayload, by simp [htraceable]⟩ "x" hpairs.binds
  simp [htraceable] at hx

end Routine
end Broker
end PayloadFlow
