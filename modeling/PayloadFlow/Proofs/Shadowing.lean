import PayloadFlow.Proofs.PatternNames
import PayloadFlow.Proofs.RecordedAccesses

/-!
# Hidden names

The parameters of a function inside a handler hide names that stand for the payload.  After
the function each of them stands for what it stood for before, whatever the body has done with
it, and a function that hides all of them has no part of the payload.  This goes for the
names that are found in the parameters: those in an array pattern that is the value of a
property are not.
-/

namespace PayloadFlow
namespace Consumer

open Script

/-!
# Names in force
-/

namespace Sources

theorem find?_erase (sources : Sources) (name other : String) :
    (sources.erase name).find? other = if other = name then none else sources.find? other := by
  unfold find? erase
  induction sources with
  | nil =>
      rw [List.filter_nil, List.lookup_nil, ite_self]
  | cons entry rest ih =>
      rw [List.filter_cons]
      by_cases hentry : entry.1 = name
      · rw [if_neg (by simpa using hentry), ih, List.lookup_cons]
        by_cases hother : other = name
        · rw [if_pos hother, if_pos hother]
        · have hdiffer : (other == entry.1) = false := by simpa [hentry] using hother
          rw [if_neg hother, if_neg hother, hdiffer]
      · rw [if_pos (by simpa using hentry), List.lookup_cons, List.lookup_cons, ih]
        by_cases hother : other = entry.1
        · have hne : ¬ other = name := fun h => hentry (hother.symm.trans h)
          rw [beq_iff_eq.mpr hother, if_neg hne, if_neg hne]
        · rw [beq_eq_false_iff_ne.mpr hother]

theorem find?_set (sources : Sources) (name other : String) (source : SourceRef) :
    (sources.set name source).find? other =
      if other = name then some source else sources.find? other := by
  have hcons : (sources.set name source).find? other =
      if other = name then some source else (sources.erase name).find? other := by
    unfold set find?
    rw [List.lookup_cons]
    by_cases hother : other = name
    · rw [beq_iff_eq.mpr hother, if_pos hother]
    · rw [beq_eq_false_iff_ne.mpr hother, if_neg hother]
  rw [hcons, find?_erase]
  split
  · rfl
  · rfl

/-!
# Hiding and restoring
-/

theorem find?_shadow (names : List String) (sources : Sources) (name : String) :
    (shadow names sources).1.find? name = if name ∈ names then none else sources.find? name := by
  induction names generalizing sources with
  | nil =>
      rfl
  | cons first names ih =>
      unfold shadow
      split
      · dsimp only
        rw [ih, find?_erase]
        grind
      · rename_i hfirst
        rw [ih]
        grind

theorem mem_shadow_iff (names : List String) (sources : Sources) (entry : String × SourceRef) :
    entry ∈ (shadow names sources).2 <->
      entry.1 ∈ names ∧ sources.find? entry.1 = some entry.2 := by
  induction names generalizing sources with
  | nil =>
      simp [shadow]
  | cons first names ih =>
      unfold shadow
      split
      · dsimp only
        rw [List.mem_cons, ih, find?_erase]
        grind
      · rw [ih]
        grind

/-- Restored names stand for what they stood for, and the others for what they stand for. -/
theorem find?_restore {sources hidden : Sources}
    (hhidden : forall entry, entry ∈ hidden -> sources.find? entry.1 = some entry.2)
    (later : Sources) (name : String) :
    (later.restore hidden).find? name =
      if name ∈ hidden.map Prod.fst then sources.find? name else later.find? name := by
  unfold restore
  induction hidden generalizing later with
  | nil =>
      rfl
  | cons entry rest ih =>
      have hentry := hhidden entry List.mem_cons_self
      rw [List.foldl_cons, ih (fun e he => hhidden e (List.mem_cons_of_mem entry he)), find?_set,
        List.map_cons]
      by_cases hname : name = entry.1
      · have hmem : name ∈ entry.1 :: rest.map Prod.fst := hname ▸ List.mem_cons_self
        rw [if_pos hname, if_pos hmem, hname, hentry, ite_self]
      · rw [if_neg hname]
        simp only [List.mem_cons, hname, false_or]

theorem find?_restore_shadow (names : List String) (sources later : Sources) (name : String) :
    (later.restore (shadow names sources).2).find? name =
      if name ∈ names ∧ (sources.find? name).isSome then sources.find? name
      else later.find? name := by
  have hmem : name ∈ (shadow names sources).2.map Prod.fst <->
      name ∈ names ∧ (sources.find? name).isSome := by
    rw [List.mem_map, Option.isSome_iff_exists]
    constructor
    · rintro ⟨entry, hentry, rfl⟩
      rcases (mem_shadow_iff names sources entry).mp hentry with ⟨hname, hfind⟩
      exact ⟨hname, entry.2, hfind⟩
    · rintro ⟨hname, source, hfind⟩
      exact ⟨(name, source), (mem_shadow_iff names sources _).mpr ⟨hname, hfind⟩, rfl⟩
  rw [find?_restore fun entry hentry => ((mem_shadow_iff names sources entry).mp hentry).2]
  simp only [hmem]

theorem exists_mem_of_isSome {sources : Sources} {name : String}
    (hsome : (sources.find? name).isSome = true) : exists source, (name, source) ∈ sources := by
  rcases Option.isSome_iff_exists.mp hsome with ⟨source, hfind⟩
  exact ⟨source, mem_of_find? hfind⟩

theorem eq_nil_of_find? {sources : Sources} (hnone : forall name, sources.find? name = none) :
    sources = [] := by
  cases sources with
  | nil =>
      rfl
  | cons entry rest =>
      have hfirst := hnone entry.1
      unfold find? at hfirst
      rw [List.lookup_cons_self] at hfirst
      cases hfirst

end Sources

/-!
# Without names
-/

namespace Collector

variable {c : Collector}

theorem resolve?_of_no_sources (hnone : c.sources = []) (chain : MemberChain) :
    c.resolve? chain = none := by
  unfold resolve?
  rw [hnone]
  rfl

theorem resolveNode?_of_no_sources (hnone : c.sources = []) (n : Node) :
    c.resolveNode? n = none := by
  unfold resolveNode?
  rw [funext (resolve?_of_no_sources hnone)]
  exact Option.bind_fun_none _

theorem shadow_nil (names : List String) : Sources.shadow names [] = ([], []) := by
  induction names with
  | nil =>
      rfl
  | cons name names ih =>
      exact ih

/-- With no name in force a node leads nowhere. -/
theorem visit_of_no_sources (hnone : c.sources = []) (place : Cursor) :
    c.visit place = .skip c ∨ c.visit place = .descend c := by
  have hnode := resolveNode?_of_no_sources hnone
  unfold visit
  dsimp only
  split
  · right
    unfold atFunction
    rw [hnone]
    split
    · rfl
    · simp only [shadow_nil]
  · split
    · right
      unfold atDeclarator
      simp [hnode]
    · right
      unfold atCall
      simp [hnode]
    · right
      split
      · unfold atIn
        simp [hnode]
      · rfl
    · right
      unfold atMember
      rw [funext (resolve?_of_no_sources hnone), Option.bind_fun_none]
    · left
      unfold atIdentifier
      rw [hnone]
      rfl
    · right
      rfl

/-- With no name in force there is nothing to collect. -/
theorem collect_of_no_sources (n : Node) (above : List Node)
    (hnone : c.sources = []) : collect n above c = c := by
  rw [collect_eq]
  rcases visit_of_no_sources hnone ⟨n, above⟩ with hvisit | hvisit
  · rw [hvisit]
  · rw [hvisit]
    refine List.foldlRecOn (motive := fun d => d = c) _ _ rfl ?_
    intro d hd part hpart
    rw [hd]
    exact collect_of_no_sources part (n :: above) hnone
termination_by sizeOf n
decreasing_by exact Node.sizeOf_lt_of_mem_parts hpart

/-!
# Inner functions
-/

/-- The names that are found in the parameters of the function at a node. -/
def foundAt (n : Node) : List String :=
  (n.function? "" false).toList.flatMap fun f =>
    f.params.flatMap fun p => p.parameterPattern.1.boundNames

/-- A parameter of the function at a node binds a name. -/
def BoundAt (along : Node -> Prop) (n : Node) (name : String) : Prop :=
  exists f, n.function? "" false = some f ∧
    exists p, p ∈ f.params ∧ Binds along p.parameterPattern.1 name

section

variable {n : Node} {name : String}

theorem BoundAt.mem_foundAt (h : BoundAt IsFollowed n name) : name ∈ foundAt n := by
  rcases h with ⟨f, hf, p, hp, hbinds⟩
  unfold foundAt
  rw [hf]
  exact List.mem_flatMap.mpr
    ⟨f, List.mem_singleton_self f, List.mem_flatMap.mpr ⟨p, hp, hbinds.mem_boundNames⟩⟩

theorem exists_function_of_mem_foundAt (hname : name ∈ foundAt n) :
    exists f, n.function? "" false = some f ∧
      foundAt n = f.params.flatMap fun p => p.parameterPattern.1.boundNames := by
  unfold foundAt at hname ⊢
  cases hf : n.function? "" false with
  | none =>
      rw [hf] at hname
      cases hname
  | some f =>
      exact ⟨f, rfl, List.flatMap_singleton _ _⟩

theorem visit_function (hkind : n.kind.isFunctionLike = true) (above : List Node)
    (hname : name ∈ foundAt n) {source : SourceRef} (hfind : c.sources.find? name = some source) :
    c.visit ⟨n, above⟩ =
      .body { c with sources := (Sources.shadow (foundAt n) c.sources).1 }
        (Sources.shadow (foundAt n) c.sources).2 := by
  rcases exists_function_of_mem_foundAt hname with ⟨f, hf, hfound⟩
  have hhidden := (Sources.mem_shadow_iff (foundAt n) c.sources (name, source)).mpr ⟨hname, hfind⟩
  unfold visit atFunction
  dsimp only
  rw [if_pos hkind, hf]
  dsimp only
  rw [← hfound]
  split
  · rename_i hnone
    rw [hnone] at hhidden
    cases hhidden
  · rename_i left hidden _ hshadow
    rw [hshadow]

/-- A function that hides a name is gone through with the names that are left, and then the
hidden ones are back in force. -/
theorem collect_function (hkind : n.kind.isFunctionLike = true) (above : List Node)
    (hname : name ∈ foundAt n) {source : SourceRef} (hfind : c.sources.find? name = some source) :
    exists body after,
      collect body (n :: above) { c with sources := (Sources.shadow (foundAt n) c.sources).1 } =
        after ∧
      collect n above c =
        { after with
          sources := after.sources.restore (Sources.shadow (foundAt n) c.sources).2 } := by
  rcases exists_function_of_mem_foundAt hname with ⟨f, hf, _⟩
  rcases Option.map_eq_some_iff.mp hf with ⟨body, hbody, _⟩
  refine ⟨body, _, rfl, ?_⟩
  rw [collect_eq, visit_function hkind above hname hfind, hbody]

end

/-- Some names are hidden between two collectors: those that stood for a part of the payload
stand for it again, and if these were all, nothing has been collected and no name has changed. -/
structure Hides (hidden : String -> Prop) (before after : Collector) : Prop where
  restored : forall name source, hidden name -> before.sources.find? name = some source ->
    after.sources.find? name = some source
  unseen : (exists name, (before.sources.find? name).isSome = true) ->
    (forall name, (before.sources.find? name).isSome = true -> hidden name) ->
    after.accesses = before.accesses ∧
      forall name, after.sources.find? name = before.sources.find? name

theorem Hides.mono {hidden fewer : String -> Prop} {before after : Collector}
    (h : Hides hidden before after) (hfewer : forall name, fewer name -> hidden name) :
    Hides fewer before after := by
  constructor
  · intro name source hname
    exact h.restored name source (hfewer name hname)
  · intro hsome hall
    exact h.unseen hsome fun name hname => hfewer name (hall name hname)

theorem hides_foundAt (c : Collector) {n : Node} (hkind : n.kind.isFunctionLike = true)
    (above : List Node) : Hides (fun name => name ∈ foundAt n) c (collect n above c) := by
  constructor
  · intro name source hname hfind
    rcases collect_function hkind above hname hfind with ⟨body, after, _, hcollect⟩
    rw [hcollect, Sources.find?_restore_shadow, hfind, if_pos ⟨hname, rfl⟩]
  · rintro ⟨name, hsome⟩ hall
    rcases Option.isSome_iff_exists.mp hsome with ⟨source, hfind⟩
    rcases collect_function hkind above (hall name hsome) hfind with ⟨body, after, hafter, hcollect⟩
    -- all names are hidden, so that the body is gone through without any
    have hleft : (Sources.shadow (foundAt n) c.sources).1 = [] := by
      apply Sources.eq_nil_of_find?
      intro other
      rw [Sources.find?_shadow]
      split
      · rfl
      · rename_i hfree
        rw [← Option.not_isSome_iff_eq_none]
        exact fun hother => hfree (hall other hother)
    rw [collect_of_no_sources body (n :: above) hleft] at hafter
    subst hafter
    rw [hcollect]
    refine ⟨rfl, ?_⟩
    intro other
    rw [Sources.find?_restore_shadow, hleft]
    split
    · rfl
    · rename_i hfree
      cases hother : c.sources.find? other with
      | none =>
          rfl
      | some found =>
          have hname := hall other (by rw [hother]; rfl)
          exact absurd ⟨hname, by rw [hother]; rfl⟩ hfree

/-- A function inside a handler hides the names that are found in its parameters.  These are all
that the parameters bind, except for those that are only bound in an array pattern that is the
value of a property, or by a rest that begins with a comment. -/
theorem parameters_hide_names (c : Collector) (n : Node) (above : List Node)
    (hkind : n.kind.isFunctionLike = true) :
    Hides (fun name => name ∈ foundAt n) c (collect n above c) ∧
    Hides (BoundAt IsFollowed n) c (collect n above c) ∧
    ((forall name, BoundAt (fun _ => True) n name -> BoundAt IsFollowed n name) ->
      Hides (BoundAt (fun _ => True) n) c (collect n above c)) := by
  have hfound := hides_foundAt c hkind above
  have hfollowed : Hides (BoundAt IsFollowed n) c (collect n above c) :=
    hfound.mono fun _ hname => hname.mem_foundAt
  exact ⟨hfound, hfollowed, hfollowed.mono⟩

/-- A handler with a function whose parameters hide all names of the payload. -/
def rebindingSource : String :=
  "export function handleDrop(\x7b zone, items \x7d) \x7b
  items.forEach((items, [zone = 1]) => \x7b use(items.id, zone.x); \x7d); \x7d"

theorem rebinding_hides :
    exists program f n, parseSource "h.js" rebindingSource = .ok program ∧
      f ∈ program.functions ∧ n ∈ f.body.nodes ∧ n.kind.isFunctionLike = true ∧
      (forall name, ((start f).sources.find? name).isSome = true -> BoundAt IsFollowed n name) ∧
      (start f).sources.find? "zone" = some ⟨["zone"], false⟩ ∧
      (collect n [] (start f)).sources.find? "zone" = some ⟨["zone"], false⟩ ∧
      (collect n [] (start f)).accesses = (start f).accesses := by
  have hread : parsesTo "h.js" rebindingSource (fun program => decide (
      exists f, f ∈ program.functions ∧
        (start f).sources = [("items", ⟨["items"], false⟩), ("zone", ⟨["zone"], false⟩)] ∧
        exists n, n ∈ f.body.nodes ∧ n.kind.isFunctionLike = true ∧
          exists g, g ∈ n.function? "" false ∧
            (exists p, p ∈ g.params ∧ p.parameterPattern.1.kind = .identifier ∧
              p.parameterPattern.1.text = "items") ∧
            exists p, p ∈ g.params ∧ p.parameterPattern.1.kind = .arrayPattern ∧
              exists e, e ∈ p.parameterPattern.1.parts ∧
                e.withoutDefault.1.kind = .identifier ∧ e.withoutDefault.1.text = "zone")) =
      true := by
    decide +kernel
  rcases exists_of_parsesTo hread with ⟨program, hparse, hprogram⟩
  rcases of_decide_eq_true hprogram with ⟨f, hf, hsources, n, hn, hkind, g, hg,
    ⟨p, hp, hname, hitems⟩, q, hq, harray, e, he, helement, hzone⟩
  have hbound : forall name, ((start f).sources.find? name).isSome = true ->
      BoundAt IsFollowed n name := by
    intro name hsome
    rcases Sources.exists_mem_of_isSome hsome with ⟨source, hmem⟩
    rw [hsources] at hmem
    rcases List.mem_cons.mp hmem with hmem | hmem
    · cases hmem
      exact ⟨g, hg, p, hp, hitems ▸ .name hname⟩
    · cases List.mem_singleton.mp hmem
      exact ⟨g, hg, q, hq, .element harray he (hzone ▸ .name helement)⟩
  have hfind : (start f).sources.find? "zone" = some ⟨["zone"], false⟩ := by
    rw [hsources]
    rfl
  have hsome : ((start f).sources.find? "zone").isSome = true := by
    rw [hfind]
    rfl
  rcases parameters_hide_names (start f) n [] hkind with ⟨_, hhides, _⟩
  exact ⟨program, f, n, hparse, hf, hn, hkind, hbound, hfind,
    hhides.restored "zone" _ (hbound "zone" hsome) hfind, (hhides.unseen ⟨"zone", hsome⟩ hbound).1⟩

/-- A handler with a function that binds the name of the payload in an array pattern. -/
def pairedArraySource : String :=
  "export function handleDrop(data) \x7b run((\x7b a: [data] \x7d) => \x7b use(data.id); \x7d); \x7d"

/-- The name is not hidden, and what the function reads of its own argument is taken for a
property of the payload. -/
theorem pairedArray_not_hidden :
    exists program f n, parseSource "h.js" pairedArraySource = .ok program ∧
      f ∈ program.functions ∧ n ∈ f.body.nodes ∧ n.kind.isFunctionLike = true ∧
      BoundAt (fun _ => True) n "data" ∧
      (start f).sources = [("data", ⟨[], false⟩)] ∧ (start f).accesses = [] ∧
      (collect n [] (start f)).accesses.map (·.path) = [["id"]] ∧
      ¬ Hides (BoundAt (fun _ => True) n) (start f) (collect n [] (start f)) := by
  have hread : parsesTo "h.js" pairedArraySource (fun program => decide (
      exists f, f ∈ program.functions ∧ (start f).sources = [("data", ⟨[], false⟩)] ∧
        (start f).accesses = [] ∧
        exists n, n ∈ f.body.nodes ∧ n.kind.isFunctionLike = true ∧
          (collect n [] (start f)).accesses.map (·.path) = [["id"]] ∧
          exists g, g ∈ n.function? "" false ∧
            exists p, p ∈ g.params ∧ PairsArrayOf "data" p.parameterPattern.1)) = true := by
    decide +kernel
  rcases exists_of_parsesTo hread with ⟨program, hparse, hprogram⟩
  rcases of_decide_eq_true hprogram with ⟨f, hf, hsources, hempty, n, hn, hkind, haccesses, g, hg,
    p, hp, hpattern⟩
  have hbound : BoundAt (fun _ => True) n "data" := ⟨g, hg, p, hp, hpattern.binds⟩
  refine ⟨program, f, n, hparse, hf, hn, hkind, hbound, hsources, hempty, haccesses, ?_⟩
  intro hhides
  have hall : forall name, ((start f).sources.find? name).isSome = true ->
      BoundAt (fun _ => True) n name := by
    intro name hsome
    rcases Sources.exists_mem_of_isSome hsome with ⟨source, hmem⟩
    rw [hsources] at hmem
    cases List.mem_singleton.mp hmem
    exact hbound
  have hsome : ((start f).sources.find? "data").isSome = true := by
    rw [hsources]
    rfl
  rw [(hhides.unseen ⟨"data", hsome⟩ hall).1, hempty] at haccesses
  cases haccesses

end Collector

end Consumer
end PayloadFlow
