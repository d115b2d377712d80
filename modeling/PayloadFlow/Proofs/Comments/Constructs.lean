import Mathlib.Data.List.Basic
import Mathlib.Data.Option.Basic
import PayloadFlow.Proofs.Comments.Tree
import PayloadFlow.Proofs.Walk
import PayloadFlow.Script.Function
import PayloadFlow.Script.ObjectLiteral

/-!
# Constructs without comments

Calls, patterns, object literals, functions and walks in a tree without comments are
those of the tree, with the comments taken out of the nodes that they hold.
-/

namespace PayloadFlow
namespace Script
namespace Node

variable {n c : Node}

/-!
# Calls
-/

/-- Callees with one name whose receivers are the same as far as words go. -/
structure Callee.Alike (callee other : Callee) : Prop where
  name : other.name = callee.name
  isSome : other.receiver.isSome = callee.receiver.isSome
  receiver : forall word, IsWord word ->
    (other.receiver = some word <-> callee.receiver = some word)

theorem Callee.Alike.refl (callee : Callee) : callee.Alike callee :=
  ⟨rfl, rfl, fun _ _ => Iff.rfl⟩

theorem Callee.Alike.eq_iff {callee other : Callee} (h : callee.Alike other) {word : String}
    (hword : IsWord word) (name : String) :
    other = ⟨some word, name⟩ <-> callee = ⟨some word, name⟩ := by
  rcases callee with ⟨receiver, method⟩
  rcases other with ⟨receiver', method'⟩
  have hreceiver := h.receiver word hword
  have hname : method' = method := h.name
  simp only [Callee.mk.injEq, hname]
  exact and_congr_left' hreceiver

theorem callee?_uncommented (h : n.Tidied) :
    Option.Rel Callee.Alike n.callee? n.uncommented.callee? := by
  unfold callee?
  rw [child?_uncommented h]
  cases hfunction : n.child? .function with
  | none =>
      exact Option.Rel.none
  | some function =>
      have hf := (h.child hfunction).unwrap
      simp only [Option.map_some, Option.bind_eq_bind, Option.bind_some,
        unwrap_uncommented (h.child hfunction), kind_uncommented]
      generalize function.unwrap = f at hf
      cases hkind : f.kind with
      | identifier =>
          rw [uncommented_of_isLeaf hf (by rw [isLeaf, hkind])]
          exact Option.Rel.some (Callee.Alike.refl _)
      | memberExpression =>
          simp only [child?_uncommented hf]
          cases hobject : f.child? .object with
          | none =>
              exact Option.Rel.none
          | some object =>
              cases hproperty : f.child? .property with
              | none =>
                  exact Option.Rel.none
              | some property =>
                  have hname := uncommented_of_mem_namingParts hf (c := property)
                    (by simp [namingParts, hproperty])
                  refine Option.Rel.some ⟨congrArg text hname, rfl, ?_⟩
                  intro word hword
                  rw [Option.some_inj, Option.some_inj]
                  exact text_uncommented_eq_iff (hf.child hobject) hword
      | _ =>
          exact Option.Rel.none

theorem callArguments_uncommented (h : n.Tidied) :
    n.uncommented.callArguments = n.callArguments.map uncommented := by
  unfold callArguments
  rw [child?_uncommented h]
  cases n.child? .arguments with
  | none =>
      rfl
  | some list =>
      exact parts_uncommented list

theorem mem_family_argument {tree : Node} (hn : n ∈ tree.family) (hc : c ∈ n.callArguments) :
    c ∈ tree.family := by
  unfold callArguments at hc
  cases hlist : n.child? .arguments with
  | none =>
      rw [hlist] at hc
      cases hc
  | some list =>
      rw [hlist] at hc
      exact mem_family_part (mem_family_child hn hlist) hc

theorem Tidied.argument (h : n.Tidied) (hc : c ∈ n.callArguments) : c.Tidied :=
  h.of_mem_family (mem_family_argument (mem_family_self n) hc)

/-!
# Patterns
-/

theorem mem_family_withoutDefault {tree : Node} (hn : n ∈ tree.family) :
    n.withoutDefault.1 ∈ tree.family := by
  unfold Node.withoutDefault
  split
  · split
    · rename_i left hleft
      exact mem_family_child hn hleft
    · exact hn
  · exact hn

theorem Tidied.withoutDefault (h : n.Tidied) : n.withoutDefault.1.Tidied :=
  h.of_mem_family (mem_family_withoutDefault (mem_family_self n))

theorem withoutDefault_uncommented (h : n.Tidied) :
    n.uncommented.withoutDefault = (n.withoutDefault.1.uncommented, n.withoutDefault.2) := by
  unfold withoutDefault
  rw [kind_uncommented, child?_uncommented h]
  split
  · cases n.child? .left with
    | none =>
        rfl
    | some left =>
        rfl
  · rfl

theorem mem_family_pattern {tree : Node} (hn : n ∈ tree.family) :
    (n.child? .pattern).getD n ∈ tree.family := by
  cases hpattern : n.child? .pattern with
  | none =>
      exact hn
  | some pattern =>
      exact mem_family_child hn hpattern

theorem mem_family_parameterPattern {tree : Node} (hn : n ∈ tree.family) :
    n.parameterPattern.1 ∈ tree.family := by
  unfold Node.parameterPattern
  split
  · exact mem_family_withoutDefault (mem_family_pattern hn)
  · exact mem_family_withoutDefault (mem_family_pattern hn)
  · exact mem_family_withoutDefault hn

theorem Tidied.pattern (h : n.Tidied) : ((n.child? .pattern).getD n).Tidied :=
  h.of_mem_family (mem_family_pattern (mem_family_self n))

theorem Tidied.parameterPattern (h : n.Tidied) : n.parameterPattern.1.Tidied :=
  h.of_mem_family (mem_family_parameterPattern (mem_family_self n))

theorem parameterPattern_uncommented (h : n.Tidied) :
    n.uncommented.parameterPattern = (n.parameterPattern.1.uncommented, n.parameterPattern.2) := by
  have hpattern : (n.uncommented.child? .pattern).getD n.uncommented =
      ((n.child? .pattern).getD n).uncommented := by
    rw [child?_uncommented h]
    cases n.child? .pattern with
    | none =>
        rfl
    | some pattern =>
        rfl
  unfold parameterPattern
  rw [kind_uncommented, hpattern, withoutDefault_uncommented h.pattern, child?_uncommented h,
    Option.isSome_map, withoutDefault_uncommented h]
  split
  · rfl
  · rfl
  · rfl

theorem parameterName?_uncommented (h : n.Tidied) :
    n.uncommented.parameterName? = n.parameterName? := by
  have hpattern := h.parameterPattern
  unfold parameterName?
  rw [parameterPattern_uncommented h]
  dsimp only
  rw [kind_uncommented]
  generalize n.parameterPattern.1 = pattern at hpattern
  split
  · rename_i hkind
    rw [uncommented_of_isLeaf hpattern (by rw [isLeaf, beq_iff_eq.mp hkind])]
  · rfl

end Node

/-- The entry of a pattern in the tree without comments. -/
def PatternEntry.uncommented (e : PatternEntry) : PatternEntry :=
  { e with nested := e.nested.map Node.uncommented }

namespace Node

variable {n c : Node}

theorem pairEntry_uncommented {key value : Node} (hkey : key.comments = [])
    (hvalue : value.Tidied) :
    n.uncommented.pairEntry key.uncommented value.uncommented =
      (n.pairEntry key value).uncommented := by
  have hbound := hvalue.withoutDefault
  unfold pairEntry PatternEntry.uncommented
  rw [propertyKey_uncommented hkey, withoutDefault_uncommented hvalue, line_uncommented]
  dsimp only
  rw [kind_uncommented]
  generalize value.withoutDefault = bound at hbound
  have hname : (if bound.1.kind == .identifier then some bound.1.uncommented.text else none) =
      if bound.1.kind == .identifier then some bound.1.text else none := by
    split
    · rename_i hkind
      rw [uncommented_of_isLeaf hbound (by rw [isLeaf, beq_iff_eq.mp hkind])]
    · rfl
  rw [hname]
  cases bound.1.kind == .objectPattern with
  | true =>
      rfl
  | false =>
      rfl

theorem patternPart?_uncommented (h : n.Tidied) :
    n.uncommented.patternPart? = n.patternPart?.map PatternEntry.uncommented := by
  unfold patternPart?
  rw [kind_uncommented]
  cases hkind : n.kind with
  | shorthandPropertyPattern =>
      rw [uncommented_of_isLeaf h (by rw [isLeaf, hkind])]
      rfl
  | objectAssignmentPattern =>
      simp only [child?_uncommented h]
      cases hleft : n.child? .left with
      | none =>
          rfl
      | some left =>
          have hname := uncommented_of_mem_namingParts h (c := left)
            (by simp [namingParts, hkind, hleft])
          simp only [Option.map_some, hname, line_uncommented]
          rfl
  | pairPattern =>
      simp only [child?_uncommented h]
      cases hkey : n.child? .key with
      | none =>
          rfl
      | some key =>
          cases hvalue : n.child? .value with
          | none =>
              rfl
          | some value =>
              have hplain := h.self.naming key (by simp [namingParts, hkey])
              exact congrArg some (pairEntry_uncommented hplain (h.child hvalue))
  | restPattern =>
      simp only [firstNamed?_uncommented h (by rw [isAboutFirst, hkind]; rfl), line_uncommented]
      cases hfirst : n.firstNamed? with
      | none =>
          rfl
      | some inner =>
          have hname := uncommented_of_mem_namingParts h (c := inner)
            (by simp [namingParts, hkind, hfirst])
          simp only [Option.map_some, hname]
          rfl
  | _ =>
      rfl

theorem patternEntries_uncommented (h : n.Tidied) :
    n.uncommented.patternEntries = n.patternEntries.map PatternEntry.uncommented := by
  unfold patternEntries
  rw [parts_uncommented, List.filterMap_map, List.map_filterMap]
  apply List.filterMap_congr
  intro c hc
  exact patternPart?_uncommented (h.part hc)

theorem mem_family_nested {tree : Node} {e : PatternEntry} (hn : n ∈ tree.family)
    (he : e ∈ n.patternEntries) {m : Node} (hm : e.nested = some m) : m ∈ tree.family := by
  rcases List.mem_filterMap.mp he with ⟨part, hpart, hentry⟩
  have hpartMem := mem_family_part hn hpart
  unfold patternPart? at hentry
  split at hentry
  · cases hentry
    cases hm
  · rcases Option.map_eq_some_iff.mp hentry with ⟨left, _, rfl⟩
    cases hm
  · split at hentry
    · rename_i key value hkey hvalue
      cases hentry
      unfold pairEntry at hm
      dsimp only at hm
      split at hm
      · cases hm
        exact mem_family_withoutDefault (mem_family_child hpartMem hvalue)
      · cases hm
    · cases hentry
  · cases hentry
    cases hm
  · cases hentry

theorem Tidied.nested {e : PatternEntry} (h : n.Tidied) (he : e ∈ n.patternEntries) {m : Node}
    (hm : e.nested = some m) : m.Tidied :=
  h.of_mem_family (mem_family_nested (mem_family_self n) he hm)

def entryNames (e : PatternEntry) : List String :=
  match e.localName, e.nested with
  | some name, _ => [name]
  | none, some inner => inner.boundNames
  | none, none => []

theorem boundNames_eq (n : Node) :
    n.boundNames =
      match n.kind with
      | .identifier => [n.text]
      | .objectPattern => n.patternEntries.flatMap entryNames
      | .arrayPattern => n.parts.flatMap fun c => c.withoutDefault.1.boundNames
      | .restPattern => (n.firstNamed?.map boundNames).getD []
      | _ => [] := by
  rw [boundNames]
  cases hkind : n.kind with
  | objectPattern =>
      dsimp only
      rw [List.flatMap_subtype (g := entryNames), List.unattach_attach]
      intro e he
      unfold entryNames
      cases e.localName with
      | some name =>
          rfl
      | none =>
          dsimp only
          split
          · rename_i hname
            cases hname
          · rename_i inner _ hinner
            rw [hinner]
          · rename_i _ hinner
            rw [hinner]
  | arrayPattern =>
      dsimp only
      rw [List.flatMap_subtype (g := fun c => c.withoutDefault.1.boundNames) (fun _ _ => rfl),
        List.unattach_attach]
  | restPattern =>
      dsimp only
      split
      · rename_i inner hinner
        simp [hinner]
      · rename_i hinner
        simp [hinner]
  | _ =>
      rfl

theorem boundNames_uncommented (n : Node) (h : n.Tidied) :
    n.uncommented.boundNames = n.boundNames := by
  rw [boundNames_eq n.uncommented, boundNames_eq n, kind_uncommented]
  cases hkind : n.kind with
  | identifier =>
      rw [uncommented_of_isLeaf h (by rw [isLeaf, hkind])]
  | objectPattern =>
      dsimp only
      rw [patternEntries_uncommented h, List.flatMap_map]
      apply List.flatMap_congr
      intro e he
      unfold entryNames PatternEntry.uncommented
      cases e.localName with
      | some name =>
          rfl
      | none =>
          cases hnested : e.nested with
          | none =>
              rfl
          | some inner =>
              exact boundNames_uncommented inner (h.nested he hnested)
  | arrayPattern =>
      dsimp only
      rw [parts_uncommented, List.flatMap_map]
      apply List.flatMap_congr
      intro c hc
      rw [withoutDefault_uncommented (h.part hc)]
      exact boundNames_uncommented _ (h.part hc).withoutDefault
  | restPattern =>
      dsimp only
      rw [firstNamed?_uncommented h (by rw [isAboutFirst, hkind]; rfl)]
      cases hfirst : n.firstNamed? with
      | none =>
          rfl
      | some inner =>
          exact boundNames_uncommented inner (h.firstNamed hfirst)
  | _ =>
      rfl
termination_by sizeOf n
decreasing_by
  · exact sizeOf_lt_of_mem_patternEntries he hnested
  · exact Nat.lt_of_le_of_lt (sizeOf_withoutDefault_le c) (sizeOf_lt_of_mem_parts hc)
  · exact sizeOf_lt_of_firstNamed? hfirst

end Node

/-!
# Object literals
-/

namespace ObjectEntry

/-- The entry of a literal in the tree without comments. -/
def uncommented : ObjectEntry -> ObjectEntry
  | pair key value line => pair key value.uncommented line
  | shorthand name line => shorthand name line
  | spread argument line => spread argument.uncommented line
  | method name line => method name line

def node? : ObjectEntry -> Option Node
  | pair _ value _ => some value
  | spread argument _ => some argument
  | shorthand _ _ => none
  | method _ _ => none

end ObjectEntry

namespace Node

variable {n c : Node}

theorem objectPart?_uncommented (h : n.Tidied) :
    n.uncommented.objectPart? = n.objectPart?.map ObjectEntry.uncommented := by
  unfold objectPart?
  rw [kind_uncommented]
  cases hkind : n.kind with
  | pair =>
      simp only [child?_uncommented h, line_uncommented]
      cases hkey : n.child? .key with
      | none =>
          rfl
      | some key =>
          cases hvalue : n.child? .value with
          | none =>
              rfl
          | some value =>
              have hplain := h.self.naming key (by simp [namingParts, hkey])
              simp only [Option.map_some, propertyKey_uncommented hplain]
              rfl
  | shorthandProperty =>
      rw [uncommented_of_isLeaf h (by rw [isLeaf, hkind])]
      rfl
  | spreadElement =>
      simp only [firstNamed?_uncommented h (by rw [isAboutFirst, hkind]; rfl), line_uncommented]
      cases n.firstNamed? with
      | none =>
          rfl
      | some argument =>
          rfl
  | methodDefinition =>
      simp only [child?_uncommented h, line_uncommented]
      cases hname : n.child? .name with
      | none =>
          rfl
      | some name =>
          have hplain := uncommented_of_mem_namingParts h (c := name)
            (by simp [namingParts, hkind, hname])
          simp only [Option.map_some, hplain]
          rfl
  | _ =>
      rfl

theorem objectEntries_uncommented (h : n.Tidied) :
    n.uncommented.objectEntries = n.objectEntries.map ObjectEntry.uncommented := by
  unfold objectEntries
  rw [parts_uncommented, List.filterMap_map, List.map_filterMap]
  apply List.filterMap_congr
  intro c hc
  exact objectPart?_uncommented (h.part hc)

theorem exists_part_of_entry {e : ObjectEntry} (he : e ∈ n.objectEntries) {m : Node}
    (hm : e.node? = some m) : exists part, part ∈ n.parts ∧ m ∈ part.children := by
  rcases List.mem_filterMap.mp he with ⟨part, hpart, hentry⟩
  refine ⟨part, hpart, ?_⟩
  unfold objectPart? at hentry
  split at hentry
  · split at hentry
    · rename_i key value hkey hvalue
      cases hentry
      cases hm
      exact List.mem_of_find?_eq_some hvalue
    · cases hentry
  · cases hentry
    cases hm
  · rcases Option.map_eq_some_iff.mp hentry with ⟨argument, hargument, rfl⟩
    cases hm
    exact List.mem_of_find?_eq_some hargument
  · rcases Option.map_eq_some_iff.mp hentry with ⟨name, _, rfl⟩
    cases hm
  · cases hentry

theorem Tidied.entry (h : n.Tidied) {e : ObjectEntry} (he : e ∈ n.objectEntries) {m : Node}
    (hm : e.node? = some m) : m.Tidied := by
  rcases exists_part_of_entry he hm with ⟨part, hpart, hchild⟩
  exact (h.part hpart).of_mem_children hchild

end Node

/-!
# Functions
-/

namespace FunctionNode

/-- The function in the tree without comments. -/
def uncommented (f : FunctionNode) : FunctionNode :=
  { f with
    params := f.params.map Node.uncommented
    body := f.body.uncommented }

structure Tidied (f : FunctionNode) : Prop where
  params : forall p, p ∈ f.params -> p.Tidied
  body : f.body.Tidied

end FunctionNode

namespace Node

variable {n c : Node}

theorem function?_uncommented (h : n.Tidied) (name : String) (exported : Bool) :
    n.uncommented.function? name exported =
      (n.function? name exported).map FunctionNode.uncommented := by
  unfold function?
  simp only [child?_uncommented h, line_uncommented]
  cases n.child? .body with
  | none =>
      rfl
  | some body =>
      cases n.child? .parameters with
      | none =>
          cases n.child? .parameter with
          | none =>
              rfl
          | some parameter =>
              rfl
      | some list =>
          simp only [Option.map_some, parts_uncommented]
          rfl

theorem tidied_of_function? (h : n.Tidied) {name : String} {exported : Bool} {f : FunctionNode}
    (hf : n.function? name exported = some f) : f.Tidied := by
  unfold function? at hf
  rcases Option.map_eq_some_iff.mp hf with ⟨body, hbody, rfl⟩
  constructor
  · intro p hp
    dsimp only at hp
    split at hp
    · rename_i list hlist
      exact (h.child hlist).part hp
    · exact h.child (Option.mem_toList.mp hp)
  · exact h.child hbody

theorem namedFunction?_uncommented (h : n.Tidied)
    (hname : forall c, n.child? .name = some c -> c ∈ n.namingParts) (exported : Bool) :
    n.uncommented.namedFunction? exported =
      (n.namedFunction? exported).map FunctionNode.uncommented := by
  unfold namedFunction?
  rw [child?_uncommented h]
  cases hchild : n.child? .name with
  | none =>
      rfl
  | some name =>
      have hplain := uncommented_of_mem_namingParts h (hname name hchild)
      simp only [Option.map_some, Option.bind_eq_bind, Option.bind_some, hplain]
      exact function?_uncommented h name.text exported

theorem tidied_of_namedFunction? (h : n.Tidied) {exported : Bool} {f : FunctionNode}
    (hf : n.namedFunction? exported = some f) : f.Tidied := by
  rcases Option.bind_eq_some_iff.mp hf with ⟨name, _, hf⟩
  exact tidied_of_function? h hf

theorem declaratorFunction?_uncommented (h : n.Tidied) (exported : Bool) :
    n.uncommented.declaratorFunction? exported =
      (n.declaratorFunction? exported).map FunctionNode.uncommented := by
  unfold declaratorFunction?
  simp only [kind_uncommented, child?_uncommented h]
  cases n.kind == .variableDeclarator with
  | false =>
      rfl
  | true =>
      cases hname : n.child? .name with
      | none =>
          rfl
      | some name =>
          cases hvalue : n.child? .value with
          | none =>
              rfl
          | some value =>
              have hinner := (h.child hvalue).unwrap
              simp only [Option.map_some, Option.bind_eq_bind, Option.bind_some, kind_uncommented,
                unwrap_uncommented (h.child hvalue), function?_uncommented hinner]
              cases hkind : name.kind == .identifier with
              | false =>
                  rfl
              | true =>
                  rw [uncommented_of_isLeaf (h.child hname)
                    (by rw [isLeaf, beq_iff_eq.mp hkind])]
                  cases value.unwrap.kind.isFunctionValue with
                  | false =>
                      rfl
                  | true =>
                      rfl

theorem tidied_of_declaratorFunction? (h : n.Tidied) {exported : Bool} {f : FunctionNode}
    (hf : n.declaratorFunction? exported = some f) : f.Tidied := by
  unfold declaratorFunction? at hf
  rcases Option.bind_eq_some_iff.mp hf with ⟨_, _, hf⟩
  rcases Option.bind_eq_some_iff.mp hf with ⟨name, _, hf⟩
  rcases Option.bind_eq_some_iff.mp hf with ⟨value, hvalue, hf⟩
  rcases Option.bind_eq_some_iff.mp hf with ⟨_, _, hf⟩
  exact tidied_of_function? (h.child hvalue).unwrap hf

theorem methods_uncommented (h : n.Tidied) (exported : Bool) :
    n.uncommented.methods exported = (n.methods exported).map FunctionNode.uncommented := by
  unfold methods
  rw [child?_uncommented h]
  cases hbody : n.child? .body with
  | none =>
      rfl
  | some body =>
      simp only [Option.map_some, parts_uncommented]
      rw [List.filterMap_map, List.map_filterMap]
      apply List.filterMap_congr
      intro m hm
      simp only [Function.comp_apply, kind_uncommented]
      cases hkind : m.kind == .methodDefinition with
      | false =>
          rfl
      | true =>
          simp only [if_true]
          apply namedFunction?_uncommented ((h.child hbody).part hm)
          intro c hc
          simp [namingParts, beq_iff_eq.mp hkind, hc]

theorem tidied_of_mem_methods (h : n.Tidied) {exported : Bool} {f : FunctionNode}
    (hf : f ∈ n.methods exported) : f.Tidied := by
  unfold methods at hf
  split at hf
  · rename_i body hbody
    rcases List.mem_filterMap.mp hf with ⟨m, hm, hf⟩
    split at hf
    · exact tidied_of_namedFunction? ((h.child hbody).part hm) hf
    · cases hf
  · cases hf

theorem toList_map {α β : Type} (f : α -> β) (o : Option α) :
    (o.map f).toList = o.toList.map f := by
  cases o with
  | none =>
      rfl
  | some a =>
      rfl

theorem declaredFunctions_uncommented (h : n.Tidied) (exported : Bool) :
    n.uncommented.declaredFunctions exported =
      (n.declaredFunctions exported).map FunctionNode.uncommented := by
  have hnamed : n.kind = .functionDeclaration ∨ n.kind = .generatorFunctionDeclaration ->
      n.uncommented.namedFunction? exported =
        (n.namedFunction? exported).map FunctionNode.uncommented := by
    intro hkind
    apply namedFunction?_uncommented h
    intro c hc
    rcases hkind with hkind | hkind
    · simp [namingParts, hkind, hc]
    · simp [namingParts, hkind, hc]
  have hdeclarators : (n.uncommented.parts.filterMap fun d => d.declaratorFunction? exported) =
      (n.parts.filterMap fun d => d.declaratorFunction? exported).map FunctionNode.uncommented := by
    rw [parts_uncommented, List.filterMap_map, List.map_filterMap]
    apply List.filterMap_congr
    intro d hd
    exact declaratorFunction?_uncommented (h.part hd) exported
  unfold declaredFunctions
  rw [kind_uncommented]
  cases hkind : n.kind with
  | functionDeclaration =>
      simp only [hnamed (Or.inl hkind), toList_map]
  | generatorFunctionDeclaration =>
      simp only [hnamed (Or.inr hkind), toList_map]
  | lexicalDeclaration =>
      exact hdeclarators
  | variableDeclaration =>
      exact hdeclarators
  | classDeclaration =>
      exact methods_uncommented h exported
  | abstractClassDeclaration =>
      exact methods_uncommented h exported
  | _ =>
      rfl

theorem tidied_of_mem_declaredFunctions (h : n.Tidied) {exported : Bool} {f : FunctionNode}
    (hf : f ∈ n.declaredFunctions exported) : f.Tidied := by
  unfold declaredFunctions at hf
  split at hf
  · exact tidied_of_namedFunction? h (Option.mem_toList.mp hf)
  · exact tidied_of_namedFunction? h (Option.mem_toList.mp hf)
  · rcases List.mem_filterMap.mp hf with ⟨d, hd, hf⟩
    exact tidied_of_declaratorFunction? (h.part hd) hf
  · rcases List.mem_filterMap.mp hf with ⟨d, hd, hf⟩
    exact tidied_of_declaratorFunction? (h.part hd) hf
  · exact tidied_of_mem_methods h hf
  · exact tidied_of_mem_methods h hf
  · cases hf

theorem mem_namingParts_of_isFunctionValue (hkind : n.kind.isFunctionValue = true)
    (hc : n.child? .name = some c) : c ∈ n.namingParts := by
  cases hn : n.kind with
  | arrowFunction =>
      simp [namingParts, hn, hc]
  | functionExpression =>
      simp [namingParts, hn, hc]
  | generatorFunction =>
      simp [namingParts, hn, hc]
  | _ =>
      rw [hn] at hkind
      cases hkind

theorem defaultFunction?_uncommented (h : n.Tidied) :
    n.uncommented.defaultFunction? = n.defaultFunction?.map FunctionNode.uncommented := by
  unfold defaultFunction?
  rw [child?_uncommented h]
  cases hvalue : n.child? .value with
  | none =>
      rfl
  | some value =>
      have hinner := (h.child hvalue).unwrap
      simp only [Option.map_some, Option.bind_eq_bind, Option.bind_some, kind_uncommented,
        unwrap_uncommented (h.child hvalue)]
      generalize value.unwrap = inner at hinner
      cases hkind : inner.kind.isFunctionValue with
      | false =>
          rfl
      | true =>
          have hname : ((inner.uncommented.child? .name).map (·.text)).getD "default" =
              ((inner.child? .name).map (·.text)).getD "default" := by
            rw [child?_uncommented hinner]
            cases hchild : inner.child? .name with
            | none =>
                rfl
            | some name =>
                have hplain := uncommented_of_mem_namingParts hinner
                  (mem_namingParts_of_isFunctionValue hkind hchild)
                simp only [Option.map_some, hplain]
          rw [hname, function?_uncommented hinner]
          rfl

theorem tidied_of_defaultFunction? (h : n.Tidied) {f : FunctionNode}
    (hf : n.defaultFunction? = some f) : f.Tidied := by
  unfold defaultFunction? at hf
  rcases Option.bind_eq_some_iff.mp hf with ⟨value, hvalue, hf⟩
  rcases Option.bind_eq_some_iff.mp hf with ⟨_, _, hf⟩
  exact tidied_of_function? (h.child hvalue).unwrap hf

theorem statementFunctions_uncommented (h : n.Tidied) :
    n.uncommented.statementFunctions = n.statementFunctions.map FunctionNode.uncommented := by
  unfold statementFunctions
  rw [kind_uncommented, child?_uncommented h]
  split
  · cases hinner : n.child? .declaration with
    | none =>
        simp only [Option.map_none, defaultFunction?_uncommented h, toList_map]
    | some inner =>
        exact declaredFunctions_uncommented (h.child hinner) true
  · exact declaredFunctions_uncommented h false

theorem tidied_of_mem_statementFunctions (h : n.Tidied) {f : FunctionNode}
    (hf : f ∈ n.statementFunctions) : f.Tidied := by
  unfold statementFunctions at hf
  split at hf
  · split at hf
    · rename_i inner hinner
      exact tidied_of_mem_declaredFunctions (h.child hinner) hf
    · exact tidied_of_defaultFunction? h (Option.mem_toList.mp hf)
  · exact tidied_of_mem_declaredFunctions h hf

theorem defaultExport?_uncommented (h : n.Tidied) :
    n.uncommented.defaultExport? = n.defaultExport? := by
  unfold defaultExport?
  simp only [child?_uncommented h, Option.isNone_map]
  cases (n.child? .declaration).isNone with
  | false =>
      rfl
  | true =>
      cases hvalue : n.child? .value with
      | none =>
          rfl
      | some value =>
          have hinner := (h.child hvalue).unwrap
          simp only [Option.map_some, Option.bind_eq_bind, Option.bind_some, kind_uncommented,
            unwrap_uncommented (h.child hvalue)]
          cases hkind : value.unwrap.kind == .identifier with
          | false =>
              rfl
          | true =>
              rw [uncommented_of_isLeaf hinner (by rw [isLeaf, beq_iff_eq.mp hkind])]

theorem exportedNames_uncommented (h : n.Tidied) :
    n.uncommented.exportedNames = n.exportedNames := by
  unfold exportedNames
  rw [kind_uncommented, defaultExport?_uncommented h]
  have hclauses : (n.uncommented.parts.filter fun c => c.kind == .exportClause) =
      (n.parts.filter fun c => c.kind == .exportClause).map uncommented := by
    rw [parts_uncommented, List.filter_map]
    simp only [Function.comp_def, kind_uncommented]
  split
  · simp only [hclauses]
    rw [List.flatMap_map, List.filterMap_flatMap, List.filterMap_flatMap]
    congr 1
    apply List.flatMap_congr
    intro clause hclause
    rcases List.mem_filter.mp hclause with ⟨hpart, hkind⟩
    have hclauseTidied := h.part hpart
    rw [parts_uncommented, List.filterMap_map]
    apply List.filterMap_congr
    intro specifier hspecifier
    rw [Function.comp_apply, child?_uncommented (hclauseTidied.part hspecifier)]
    cases hname : specifier.child? .name with
    | none =>
        rfl
    | some name =>
        have hnaming : name ∈ clause.namingParts := by
          simp only [namingParts, beq_iff_eq.mp hkind, List.mem_append]
          exact Or.inr (List.mem_flatMap.mpr ⟨specifier, hspecifier, by simp [hname]⟩)
        simp only [Option.map_some, uncommented_of_mem_namingParts hclauseTidied hnaming]
  · rfl

/-- The functions of a tree without comments. -/
theorem functions_uncommented (h : n.Tidied) :
    n.uncommented.functions = n.functions.map FunctionNode.uncommented := by
  have hexports : n.uncommented.parts.flatMap exportedNames = n.parts.flatMap exportedNames := by
    rw [parts_uncommented, List.flatMap_map]
    apply List.flatMap_congr
    intro statement hstatement
    exact exportedNames_uncommented (h.part hstatement)
  have hstatements : n.uncommented.parts.flatMap statementFunctions =
      (n.parts.flatMap statementFunctions).map FunctionNode.uncommented := by
    rw [parts_uncommented, List.flatMap_map, List.map_flatMap]
    apply List.flatMap_congr
    intro statement hstatement
    exact statementFunctions_uncommented (h.part hstatement)
  unfold functions
  simp only [hexports, hstatements, List.map_map]
  apply List.map_congr_left
  intro f hf
  have hname : f.uncommented.name = f.name := rfl
  simp only [Function.comp_apply, hname]
  split
  · rfl
  · rfl

theorem tidied_of_mem_functions (h : n.Tidied) {f : FunctionNode} (hf : f ∈ n.functions) :
    f.Tidied := by
  unfold functions at hf
  rcases List.mem_map.mp hf with ⟨g, hg, rfl⟩
  rcases List.mem_flatMap.mp hg with ⟨statement, hstatement, hg⟩
  have hgTidied := tidied_of_mem_statementFunctions (h.part hstatement) hg
  split
  · exact ⟨hgTidied.params, hgTidied.body⟩
  · exact hgTidied

end Node
end Script
end PayloadFlow
