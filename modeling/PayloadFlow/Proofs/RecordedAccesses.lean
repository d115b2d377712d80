import PayloadFlow.Proofs.Comments.Handler

/-!
# Recorded accesses

The names on the path of an access come from the source of the handler: from the
members that it names and from the keys of its patterns.  A string can only give the
last name, as the key that a test asks for.
-/

namespace PayloadFlow
namespace Script

/-!
# Names that lead into objects
-/

namespace Node

/-- The names by which a node on its own leads into an object. -/
def stepNames (n : Node) : List String :=
  match n.kind with
  | .propertyIdentifier | .privatePropertyIdentifier => [n.text]
  | _ => (n.patternPart?.toList.filter fun e => !e.isRest).map (·.key)

def NamesIn (allowed : String -> Prop) (n : Node) : Prop :=
  forall m, m ∈ n.family -> forall name, name ∈ m.stepNames -> allowed name

variable {allowed : String -> Prop} {n m : Node}

theorem NamesIn.of_mem_family (h : n.NamesIn allowed) (hm : m ∈ n.family) :
    m.NamesIn allowed := by
  intro k hk
  exact h k (family_subset_of_mem_family n hm hk)

theorem NamesIn.child (h : n.NamesIn allowed) {l : Label} (hm : n.child? l = some m) :
    m.NamesIn allowed :=
  h.of_mem_family (mem_family_child (mem_family_self n) hm)

theorem NamesIn.of_segment? (h : n.NamesIn allowed) {object property : Node}
    (hproperty : n.child? .property = some property) {s : Segment}
    (hs : n.segment? object property = some s) : allowed s.name := by
  have hstep : property.stepNames = [s.name] := by
    unfold segment? at hs
    split at hs
    · rename_i hkind
      cases hs
      unfold stepNames
      rw [hkind]
    · rename_i hkind
      cases hs
      unfold stepNames
      rw [hkind]
    · cases hs
  apply h property (mem_family_child (mem_family_self n) hproperty)
  rw [hstep]
  exact List.mem_singleton_self s.name

theorem NamesIn.of_memberChain? {n : Node} (h : n.NamesIn allowed) {chain : MemberChain}
    (hchain : n.memberChain? = some chain) : forall name, name ∈ chain.names -> allowed name := by
  rw [memberChain?_eq] at hchain
  split at hchain
  · cases hchain
    exact fun _ hname => absurd hname List.not_mem_nil
  · cases hchain
    exact fun _ hname => absurd hname List.not_mem_nil
  · rcases Option.bind_eq_some_iff.mp hchain with ⟨inner, hinner, hchain⟩
    exact (h.of_mem_family (mem_family_firstNamed (mem_family_self n) hinner)).of_memberChain?
      hchain
  · rcases Option.bind_eq_some_iff.mp hchain with ⟨inner, hinner, hchain⟩
    exact (h.of_mem_family (mem_family_firstNamed (mem_family_self n) hinner)).of_memberChain?
      hchain
  · rcases Option.bind_eq_some_iff.mp hchain with ⟨object, hobject, hchain⟩
    rcases Option.bind_eq_some_iff.mp hchain with ⟨property, hproperty, hchain⟩
    rcases Option.bind_eq_some_iff.mp hchain with ⟨s, hs, hchain⟩
    rcases Option.map_eq_some_iff.mp hchain with ⟨before, hbefore, rfl⟩
    intro name hname
    unfold MemberChain.names MemberChain.push at hname
    rw [List.map_append, List.mem_append] at hname
    rcases hname with hname | hname
    · exact (h.child hobject).of_memberChain? hbefore name hname
    · cases List.mem_singleton.mp hname
      exact h.of_segment? hproperty hs
  · cases hchain
termination_by sizeOf n
decreasing_by
  · exact sizeOf_lt_of_firstNamed? hinner
  · exact sizeOf_lt_of_firstNamed? hinner
  · exact sizeOf_lt_of_child? hobject

theorem NamesIn.key (h : n.NamesIn allowed) {e : PatternEntry} (he : e ∈ n.patternEntries)
    (hrest : e.isRest = false) : allowed e.key := by
  rcases List.mem_filterMap.mp he with ⟨part, hpart, hentry⟩
  apply h part (mem_family_part (mem_family_self n) hpart)
  have hkey : e.key ∈ (part.patternPart?.toList.filter fun e => !e.isRest).map (·.key) := by
    apply List.mem_map_of_mem
    rw [hentry, List.mem_filter, hrest]
    exact ⟨List.mem_singleton_self e, rfl⟩
  unfold stepNames
  split
  · rename_i hkind
    unfold patternPart? at hentry
    rw [hkind] at hentry
    cases hentry
  · rename_i hkind
    unfold patternPart? at hentry
    rw [hkind] at hentry
    cases hentry
  · exact hkey

end Node

end Script

namespace Consumer

open Script Node

variable {allowed : String -> Prop}

/-!
# Names in force
-/

namespace Sources

def PathsIn (allowed : String -> Prop) (sources : Sources) : Prop :=
  forall entry, entry ∈ sources -> forall name, name ∈ entry.2.path -> allowed name

variable {sources hidden : Sources}

theorem mem_of_find? {name : String} {source : SourceRef}
    (hfind : sources.find? name = some source) : (name, source) ∈ sources := by
  rcases List.lookup_eq_some_iff.mp hfind with ⟨before, after, hsplit, _⟩
  rw [hsplit]
  exact List.mem_append_right before List.mem_cons_self

theorem PathsIn.erase (h : sources.PathsIn allowed) (name : String) :
    (sources.erase name).PathsIn allowed := by
  intro entry hentry
  exact h entry (List.mem_filter.mp hentry).1

theorem PathsIn.set (h : sources.PathsIn allowed) (name : String) {source : SourceRef}
    (hsource : forall x, x ∈ source.path -> allowed x) :
    (sources.set name source).PathsIn allowed := by
  intro entry hentry
  rcases List.mem_cons.mp hentry with rfl | hentry
  · exact hsource
  · exact h.erase name entry hentry

theorem PathsIn.shadow (h : sources.PathsIn allowed) (names : List String) :
    (shadow names sources).1.PathsIn allowed ∧ (shadow names sources).2.PathsIn allowed := by
  induction names generalizing sources with
  | nil =>
      exact ⟨h, fun _ hentry => absurd hentry List.not_mem_nil⟩
  | cons name names ih =>
      unfold Sources.shadow
      split
      · rename_i source hfind
        rcases ih (h.erase name) with ⟨hleft, hhidden⟩
        refine ⟨hleft, ?_⟩
        intro entry hentry
        rcases List.mem_cons.mp hentry with rfl | hentry
        · exact h (name, source) (mem_of_find? hfind)
        · exact hhidden entry hentry
      · exact ih h

theorem PathsIn.restore (h : sources.PathsIn allowed) (hhidden : hidden.PathsIn allowed) :
    (sources.restore hidden).PathsIn allowed := by
  unfold Sources.restore
  apply List.foldlRecOn hidden _ h
  intro s hs entry hentry
  exact hs.set entry.1 (hhidden entry hentry)

end Sources

/-!
# Paths into the payload
-/

structure Reach.PathIn (allowed : String -> Prop) (r : Reach) : Prop where
  names : forall name, name ∈ r.path -> allowed name
  marks : r.optional.length = r.path.length

/-- An access to some property, with a mark on each step, by a path of allowed names up to
its last one. -/
structure Access.PathIn (allowed : String -> Prop) (a : Access) : Prop where
  path : a.path ≠ []
  marks : a.optional.length = a.path.length
  names : forall name, name ∈ a.path.dropLast -> allowed name

theorem Reach.PathIn.pop {r : Reach} (h : r.PathIn allowed) : r.pop.PathIn allowed := by
  constructor
  · intro name hname
    exact h.names name (List.dropLast_subset _ hname)
  · unfold Reach.pop
    dsimp only
    rw [List.length_dropLast, List.length_dropLast, h.marks]

theorem pathIn_reachOf {source : SourceRef} (h : forall name, name ∈ source.path -> allowed name) :
    (Collector.reachOf source).PathIn allowed := by
  constructor
  · exact h
  · exact List.length_map _

namespace Collector

/-- The names in force lead to allowed paths, and so do the accesses found so far. -/
structure PathsIn (allowed : String -> Prop) (c : Collector) : Prop where
  sources : c.sources.PathsIn allowed
  accesses : forall a, a ∈ c.accesses -> a.PathIn allowed

variable {c : Collector} {n : Node}

theorem PathsIn.empty : PathsIn allowed {} := by
  constructor
  · exact fun _ hentry => absurd hentry List.not_mem_nil
  · exact fun _ ha => absurd ha List.not_mem_nil

theorem PathsIn.push (h : c.PathsIn allowed) {a : Access} (ha : a.PathIn allowed) :
    (c.push a).PathsIn allowed := by
  constructor
  · exact h.sources
  · intro b hb
    rcases List.mem_append.mp hb with hb | hb
    · exact h.accesses b hb
    · cases List.mem_singleton.mp hb
      exact ha

theorem PathsIn.addSource (h : c.PathsIn allowed) (name : String) {path : List String}
    (hpath : forall x, x ∈ path -> allowed x) (isSafe : Bool) :
    (c.addSource name path isSafe).PathsIn allowed := by
  constructor
  · exact h.sources.set name hpath
  · exact h.accesses

theorem PathsIn.read (h : c.PathsIn allowed) {r : Reach} (hr : r.PathIn allowed)
    (hpath : r.path ≠ []) (context : Context) (line : Nat) :
    (c.read r context line).PathsIn allowed := by
  apply h.push
  constructor
  · exact hpath
  · exact hr.marks
  · intro name hname
    exact hr.names name (List.dropLast_subset _ hname)

theorem PathsIn.readTest (h : c.PathsIn allowed) {r : Reach} (hr : r.PathIn allowed)
    (key : String) (context : Context) (line : Nat) :
    (c.read (r.push key) context line).PathsIn allowed := by
  apply h.push
  unfold Reach.push
  constructor
  · exact List.append_ne_nil_of_right_ne_nil _ (List.cons_ne_nil key [])
  · dsimp only
    rw [List.length_append, List.length_append, hr.marks]
    rfl
  · dsimp only
    rw [List.dropLast_concat]
    exact hr.names

theorem PathsIn.find? (h : c.PathsIn allowed) {name : String} {source : SourceRef}
    (hfind : c.sources.find? name = some source) : (reachOf source).PathIn allowed :=
  pathIn_reachOf (h.sources _ (Sources.mem_of_find? hfind))

theorem PathsIn.resolve? (h : c.PathsIn allowed) {chain : MemberChain}
    (hchain : forall name, name ∈ chain.names -> allowed name) {r : Reach}
    (hr : c.resolve? chain = some r) : r.PathIn allowed := by
  rcases Option.map_eq_some_iff.mp hr with ⟨source, hfind, rfl⟩
  have hsource := h.find? hfind
  constructor
  · intro name hname
    rcases List.mem_append.mp hname with hname | hname
    · exact hsource.names name hname
    · exact hchain name hname
  · simp only [MemberChain.names, List.length_append, List.length_map, hsource.marks]

theorem PathsIn.resolveNode? (h : c.PathsIn allowed) (hn : n.NamesIn allowed) {r : Reach}
    (hr : c.resolveNode? n = some r) : r.PathIn allowed := by
  rcases Option.bind_eq_some_iff.mp hr with ⟨chain, hchain, hr⟩
  have hinner := hn.of_mem_family (mem_family_unwrap (mem_family_self n))
  exact h.resolve? (hinner.of_memberChain? hchain) hr

/-!
# Patterns
-/

theorem PathsIn.readEntry (h : c.PathsIn allowed) (e : PatternEntry) {path : List String}
    (hpath : forall x, x ∈ path -> allowed x) (isSafe : Bool) :
    (c.readEntry e (path ++ [e.key]) isSafe).PathsIn allowed := by
  unfold Collector.readEntry
  split
  · apply h.push
    constructor
    · exact List.append_ne_nil_of_right_ne_nil _ (List.cons_ne_nil e.key [])
    · exact List.length_map _
    · dsimp only
      rw [List.dropLast_concat]
      exact hpath
  · exact h

theorem PathsIn.readPattern (pattern : Node) (hpattern : pattern.NamesIn allowed)
    {path : List String} (hpath : forall x, x ∈ path -> allowed x) (isSafe : Bool)
    {c : Collector} (h : c.PathsIn allowed) :
    (readPattern pattern path isSafe c).PathsIn allowed := by
  rw [readPattern_eq]
  apply List.foldlRecOn _ _ h
  intro c hc e he
  unfold takeEntry
  cases hrest : e.isRest with
  | true =>
      exact hc
  | false =>
      have hlonger : forall x, x ∈ path ++ [e.key] -> allowed x := by
        intro x hx
        rcases List.mem_append.mp hx with hx | hx
        · exact hpath x hx
        · cases List.mem_singleton.mp hx
          exact hpattern.key he hrest
      have hread := hc.readEntry e hpath isSafe
      simp only [Bool.false_eq_true, if_false]
      cases hnested : e.nested with
      | some inner =>
          have hinner := hpattern.of_mem_family
            (mem_family_nested (mem_family_self pattern) he hnested)
          exact PathsIn.readPattern inner hinner hlonger _ hread
      | none =>
          cases e.localName with
          | none =>
              exact hread
          | some name =>
              exact hread.addSource name hlonger _
termination_by sizeOf pattern
decreasing_by exact sizeOf_lt_of_mem_patternEntries he hnested

/-!
# One node
-/

/-- The collector that a node leaves, and the names that its body hides, lead to allowed
paths. -/
def Next.PathsIn (allowed : String -> Prop) : Next -> Prop
  | .skip c => c.PathsIn allowed
  | .descend c => c.PathsIn allowed
  | .body c hidden => c.PathsIn allowed ∧ hidden.PathsIn allowed

theorem PathsIn.atDeclarator (h : c.PathsIn allowed) (hn : n.NamesIn allowed) :
    (c.atDeclarator n).PathsIn allowed := by
  unfold Collector.atDeclarator
  dsimp only
  split
  · exact h
  · rename_i name base hasFallback r hfound
    rcases Option.bind_eq_some_iff.mp hfound with ⟨left, hleft, hfound⟩
    rcases Option.bind_eq_some_iff.mp hfound with ⟨value, hvalue, hfound⟩
    rcases Option.bind_eq_some_iff.mp hfound with ⟨found, hbase, hfound⟩
    rcases Option.bind_eq_some_iff.mp hfound with ⟨reach, hreach, hfound⟩
    cases hfound
    have hinner := mem_family_of_withoutFallback?
      (mem_family_unwrap (mem_family_child (mem_family_self n) hvalue)) hbase
    have hr := h.resolveNode? (hn.of_mem_family hinner) hreach
    split
    · exact PathsIn.readPattern name (hn.child hleft) hr.names _ h
    · apply PathsIn.addSource _ name.text hr.names
      split
      · rename_i hfallback
        apply h.read hr
        intro hnil
        rw [hnil] at hfallback
        simp at hfallback
      · split
        · rename_i hdeep
          apply h.read hr
          intro hnil
          rw [hnil] at hdeep
          exact absurd hdeep (Nat.not_lt_zero 1)
        · exact h
    · exact h

theorem PathsIn.atCall (h : c.PathsIn allowed) (hn : n.NamesIn allowed) :
    (c.atCall n).PathsIn allowed := by
  unfold Collector.atCall
  dsimp only
  split
  · rename_i r hfound
    rcases Option.bind_eq_some_iff.mp hfound with ⟨⟨object, key⟩, htest, hfound⟩
    rcases Option.bind_eq_some_iff.mp hfound with ⟨reach, hreach, hfound⟩
    rcases Option.bind_eq_some_iff.mp hfound with ⟨text, _, hfound⟩
    cases hfound
    have hobject := (mem_family_of_ownPropertyTest? (mem_family_self n) htest).1
    exact h.readTest (h.resolveNode? (hn.of_mem_family hobject) hreach) text _ _
  · exact h

theorem PathsIn.atIn (h : c.PathsIn allowed) {place : Cursor} (hn : place.node.NamesIn allowed) :
    (c.atIn place).PathsIn allowed := by
  unfold Collector.atIn
  dsimp only
  split
  · rename_i r hfound
    rcases Option.bind_eq_some_iff.mp hfound with ⟨left, _, hfound⟩
    rcases Option.bind_eq_some_iff.mp hfound with ⟨text, _, hfound⟩
    rcases Option.bind_eq_some_iff.mp hfound with ⟨right, hright, hfound⟩
    rcases Option.bind_eq_some_iff.mp hfound with ⟨reach, hreach, hfound⟩
    cases hfound
    exact h.readTest (h.resolveNode? (hn.child hright) hreach) text _ _
  · exact h

theorem PathsIn.atMember (h : c.PathsIn allowed) {place : Cursor}
    (hn : place.node.NamesIn allowed) : (c.atMember place).PathsIn allowed := by
  unfold Collector.atMember
  split
  · exact h
  · rename_i r hfound
    rcases Option.bind_eq_some_iff.mp hfound with ⟨chain, hchain, hr⟩
    have hreach := h.resolve? (hn.of_memberChain? hchain) hr
    have hread : Reach.PathIn allowed (if isCalled place then r.pop else r) := by
      split
      · exact hreach.pop
      · exact hreach
    split
    · exact h
    · dsimp only
      generalize (if isCalled place then r.pop else r) = reach at hread
      split
      · exact h
      · rename_i hpath
        apply h.read hread
        intro hnil
        exact hpath (List.isEmpty_iff.mpr hnil)

theorem PathsIn.atIdentifier (h : c.PathsIn allowed) (place : Cursor) :
    (c.atIdentifier place).PathsIn allowed := by
  unfold Collector.atIdentifier
  split
  · exact h
  · rename_i source hfind
    split
    · exact h
    · rename_i hpath
      apply h.read (h.find? hfind)
      intro hnil
      apply hpath
      rw [Bool.or_eq_true]
      exact Or.inl (List.isEmpty_iff.mpr hnil)

theorem PathsIn.atFunction (h : c.PathsIn allowed) (n : Node) :
    (c.atFunction n).PathsIn allowed := by
  unfold Collector.atFunction
  split
  · exact h
  · rename_i f _
    have hshadow := h.sources.shadow (f.params.flatMap fun p => p.parameterPattern.1.boundNames)
    dsimp only
    split
    · exact h
    · rename_i left hidden _ hsplit
      rw [hsplit] at hshadow
      exact ⟨⟨hshadow.1, h.accesses⟩, hshadow.2⟩

theorem PathsIn.visit (h : c.PathsIn allowed) {place : Cursor} (hn : place.node.NamesIn allowed) :
    (c.visit place).PathsIn allowed := by
  unfold Collector.visit
  dsimp only
  split
  · exact h.atFunction place.node
  · split
    · exact h.atDeclarator hn
    · exact h.atCall hn
    · split
      · exact h.atIn hn
      · exact h
    · exact h.atMember hn
    · exact h.atIdentifier place
    · exact h

/-!
# Whole bodies
-/

theorem PathsIn.collect (n : Node) (hn : n.NamesIn allowed) (above : List Node) {c : Collector}
    (h : c.PathsIn allowed) : (collect n above c).PathsIn allowed := by
  have hvisit : (c.visit ⟨n, above⟩).PathsIn allowed := h.visit hn
  rw [collect_eq]
  cases hnext : c.visit ⟨n, above⟩ with
  | skip c =>
      rw [hnext] at hvisit
      exact hvisit
  | descend c =>
      rw [hnext] at hvisit
      have hc : c.PathsIn allowed := hvisit
      dsimp only
      apply List.foldlRecOn _ _ hc
      intro c hc part hpart
      exact PathsIn.collect part (hn.of_mem_family (mem_family_part (mem_family_self n) hpart)) _ hc
  | body c hidden =>
      rw [hnext] at hvisit
      rcases hvisit with ⟨hc, hhidden⟩
      cases hbody : n.child? .body with
      | none =>
          exact ⟨hc.sources.restore hhidden, hc.accesses⟩
      | some body =>
          have hafter := PathsIn.collect body (hn.child hbody) (n :: above) hc
          exact ⟨hafter.sources.restore hhidden, hafter.accesses⟩
termination_by sizeOf n
decreasing_by
  · exact sizeOf_lt_of_mem_parts hpart
  · exact sizeOf_lt_of_child? hbody

end Collector

/-- The names by which the parameters and the body of a function lead into objects. -/
def stepNames (f : FunctionNode) : List String :=
  (f.params ++ [f.body]).flatMap fun n => n.family.flatMap Node.stepNames

theorem namesIn_stepNames {f : FunctionNode} {n : Node} (hn : n ∈ f.params ++ [f.body]) :
    n.NamesIn fun name => name ∈ stepNames f := by
  intro m hm name hname
  exact List.mem_flatMap.mpr ⟨n, hn, List.mem_flatMap.mpr ⟨m, hm, hname⟩⟩

theorem pathsIn_start (f : FunctionNode) : (start f).PathsIn fun name => name ∈ stepNames f := by
  unfold start
  split
  · exact Collector.PathsIn.empty
  · rename_i param hparam
    have hnames := namesIn_stepNames
      (List.mem_append_left [f.body] (mem_params_of_dataParameter? hparam))
    have hpattern := hnames.of_mem_family (mem_family_parameterPattern (mem_family_self param))
    dsimp only
    split
    · exact Collector.PathsIn.empty.addSource _ (fun _ hx => absurd hx List.not_mem_nil) _
    · exact Collector.PathsIn.readPattern _ hpattern (fun _ hx => absurd hx List.not_mem_nil) _
        Collector.PathsIn.empty
    · exact Collector.PathsIn.empty

/-- Every access of a handler leads to some property, and only the last name of its path may
be one that the handler does not lead into an object by. -/
theorem pathIn_of_mem_accesses {f : FunctionNode} {a : Access} (ha : a ∈ accesses f) :
    a.PathIn fun name => name ∈ stepNames f := by
  have hbody := namesIn_stepNames (f := f)
    (List.mem_append_right f.params (List.mem_singleton_self f.body))
  exact (Collector.PathsIn.collect f.body hbody [] (pathsIn_start f)).accesses a ha

end Consumer
end PayloadFlow
