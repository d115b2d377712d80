import PayloadFlow.Proofs.Comments.Constructs

/-!
# Names of patterns

A pattern binds the names in it, by way of properties, elements and rests.  The names that are
found in a pattern are the ones that it binds, unless an array pattern is the value of a
property or a rest does not begin with its name.
-/

namespace PayloadFlow
namespace Script

/-!
# Names that are bound
-/

/-- A pattern binds a name, by way of properties and rests of some kind. -/
inductive Binds (along : Node -> Prop) : Node -> String -> Prop where
  | name {n : Node} (hkind : n.kind = .identifier) : Binds along n n.text
  | shorthand {n p : Node} (hkind : n.kind = .objectPattern) (hp : p ∈ n.parts)
      (hshorthand : p.kind = .shorthandPropertyPattern) : Binds along n p.text
  | defaulted {n p left : Node} (hkind : n.kind = .objectPattern) (hp : p ∈ n.parts)
      (hdefaulted : p.kind = .objectAssignmentPattern) (hleft : p.child? .left = some left)
      (hshorthand : left.kind = .shorthandPropertyPattern) : Binds along n left.text
  | property {n p key value : Node} {name : String} (hkind : n.kind = .objectPattern)
      (hp : p ∈ n.parts) (hpair : p.kind = .pairPattern) (hkey : p.child? .key = some key)
      (hvalue : p.child? .value = some value) (halong : along p)
      (hbinds : Binds along value.withoutDefault.1 name) : Binds along n name
  | remainder {n p inner : Node} (hkind : n.kind = .objectPattern) (hp : p ∈ n.parts)
      (hrest : p.kind = .restPattern) (hinner : p.parts.head? = some inner)
      (hname : inner.kind = .identifier) (halong : along p) : Binds along n inner.text
  | element {n p : Node} {name : String} (hkind : n.kind = .arrayPattern) (hp : p ∈ n.parts)
      (hbinds : Binds along p.withoutDefault.1 name) : Binds along n name
  | rest {n inner : Node} {name : String} (hkind : n.kind = .restPattern)
      (hinner : n.parts.head? = some inner) (halong : along n)
      (hbinds : Binds along inner name) : Binds along n name

/-- A property whose value is neither an array pattern nor a rest, or a rest that does not begin
with a comment. -/
structure IsFollowed (p : Node) : Prop where
  property : p.kind = .pairPattern -> forall value, p.child? .value = some value ->
    value.withoutDefault.1.kind ≠ .arrayPattern ∧ value.withoutDefault.1.kind ≠ .restPattern
  rest : p.kind = .restPattern -> forall m, p.firstNamed? = some m -> m.kind ≠ .comment

section

variable {n p : Node} {name : String}

theorem IsFollowed.firstNamed?_eq (h : IsFollowed p) (hkind : p.kind = .restPattern) :
    p.firstNamed? = p.parts.head? := by
  have hrest := h.rest hkind
  unfold Node.firstNamed? at hrest ⊢
  unfold Node.parts
  rw [List.head?_filter]
  cases hfirst : p.children.find? fun m => m.kind.isNamed with
  | none =>
      symm
      rw [List.find?_eq_none] at hfirst ⊢
      intro m hm hpart
      exact hfirst m hm (Bool.and_eq_true_iff.mp hpart).1
  | some first =>
      have hcomment := bne_iff_ne.mpr (hrest first hfirst)
      rcases List.find?_eq_some_iff_append.mp hfirst with ⟨hnamed, before, after, hsplit, hbefore⟩
      symm
      refine List.find?_eq_some_iff_append.mpr ⟨?_, before, after, hsplit, ?_⟩
      · rw [Node.isPart, hnamed, hcomment, Bool.and_self]
      · intro m hm
        rw [Node.isPart, Bool.not_and, hbefore m hm, Bool.true_or]

theorem mem_boundNames_of_part (hkind : n.kind = .objectPattern) (hp : p ∈ n.parts)
    {e : PatternEntry} (he : p.patternPart? = some e) (hname : name ∈ Node.entryNames e) :
    name ∈ n.boundNames := by
  rw [Node.boundNames_eq, hkind]
  exact List.mem_flatMap.mpr ⟨e, List.mem_filterMap.mpr ⟨p, hp, he⟩, hname⟩

/-- The entry of a property finds the names of its value, if that is no array pattern. -/
theorem mem_entryNames_pairEntry {key value : Node}
    (harray : value.withoutDefault.1.kind ≠ .arrayPattern)
    (hrest : value.withoutDefault.1.kind ≠ .restPattern)
    (hname : name ∈ value.withoutDefault.1.boundNames) :
    name ∈ Node.entryNames (p.pairEntry key value) := by
  unfold Node.entryNames Node.pairEntry
  dsimp only
  cases hkind : value.withoutDefault.1.kind with
  | identifier =>
      rw [Node.boundNames_eq, hkind] at hname
      exact hname
  | objectPattern =>
      exact hname
  | arrayPattern =>
      exact absurd hkind harray
  | restPattern =>
      exact absurd hkind hrest
  | _ =>
      rw [Node.boundNames_eq, hkind] at hname
      cases hname

/-- Names that a pattern binds by way of parts that are followed are found. -/
theorem Binds.mem_boundNames (h : Binds IsFollowed n name) : name ∈ n.boundNames := by
  induction h with
  | name hkind =>
      rw [Node.boundNames_eq, hkind]
      exact List.mem_singleton_self _
  | @shorthand n p hkind hp hshorthand =>
      have hentry : p.patternPart? = some ⟨p.text, some p.text, false, none, false, p.line⟩ := by
        unfold Node.patternPart?
        rw [hshorthand]
      exact mem_boundNames_of_part hkind hp hentry (List.mem_singleton_self _)
  | @defaulted n p left hkind hp hdefaulted hleft _ =>
      have hentry : p.patternPart? =
          some ⟨left.text, some left.text, true, none, false, p.line⟩ := by
        unfold Node.patternPart?
        rw [hdefaulted, hleft]
        rfl
      exact mem_boundNames_of_part hkind hp hentry (List.mem_singleton_self _)
  | @property n p key value name hkind hp hpair hkey hvalue hfollowed _ ih =>
      have hentry : p.patternPart? = some (p.pairEntry key value) := by
        unfold Node.patternPart?
        rw [hpair, hkey, hvalue]
      rcases hfollowed.property hpair value hvalue with ⟨harray, hrest⟩
      exact mem_boundNames_of_part hkind hp hentry (mem_entryNames_pairEntry harray hrest ih)
  | @remainder n p inner hkind hp hrest hinner _ hfollowed =>
      have hentry : p.patternPart? =
          some ⟨inner.text, some inner.text, false, none, true, p.line⟩ := by
        unfold Node.patternPart?
        rw [hrest, hfollowed.firstNamed?_eq hrest, hinner]
        rfl
      exact mem_boundNames_of_part hkind hp hentry (List.mem_singleton_self _)
  | element hkind hp _ ih =>
      rw [Node.boundNames_eq, hkind]
      exact List.mem_flatMap.mpr ⟨_, hp, ih⟩
  | rest hkind hinner hfollowed _ ih =>
      rw [Node.boundNames_eq, hkind]
      dsimp only
      rw [hfollowed.firstNamed?_eq hkind, hinner]
      exact ih

end

/-- A property of an object pattern binds a name as an element of an array pattern. -/
def PairsArrayOf (name : String) (n : Node) : Prop :=
  n.kind = .objectPattern ∧
    exists p, p ∈ n.parts ∧ p.kind = .pairPattern ∧ (p.child? .key).isSome = true ∧
      exists value, value ∈ p.child? .value ∧ value.withoutDefault.1.kind = .arrayPattern ∧
        exists d, d ∈ value.withoutDefault.1.parts ∧
          d.withoutDefault.1.kind = .identifier ∧ d.withoutDefault.1.text = name

instance (name : String) (n : Node) : Decidable (PairsArrayOf name n) :=
  inferInstanceAs (Decidable (_ ∧ _))

theorem PairsArrayOf.binds {name : String} {n : Node} (h : PairsArrayOf name n) :
    Binds (fun _ => True) n name := by
  rcases h with ⟨hobject, p, hp, hpair, hsome, value, hvalue, harray, d, hd, hname, rfl⟩
  rcases Option.isSome_iff_exists.mp hsome with ⟨key, hkey⟩
  exact .property hobject hp hpair hkey hvalue trivial (.element harray hd (.name hname))

/-!
# Plain patterns
-/

namespace Node

/-- Neither a property whose value is an array pattern or a rest, nor a rest or a default that
does not begin with its name. -/
def isPlain (n : Node) : Bool :=
  match n.kind with
  | .pairPattern =>
      (n.child? .value).all fun value =>
        value.withoutDefault.1.kind != .arrayPattern && value.withoutDefault.1.kind != .restPattern
  | .restPattern => n.firstNamed?.any fun name => name.kind == .identifier
  | .objectAssignmentPattern =>
      (n.child? .left).all fun left => left.kind == .shorthandPropertyPattern
  | _ => true

def IsPlainPattern (n : Node) : Prop :=
  forall m, m ∈ n.family -> m.isPlain = true

instance (n : Node) : Decidable n.IsPlainPattern :=
  inferInstanceAs (Decidable (forall m, m ∈ n.family -> m.isPlain = true))

end Node

section

variable {n p value left : Node} {name : String}

theorem Node.IsPlainPattern.of_mem (hplain : n.IsPlainPattern) (hp : p ∈ n.family) :
    p.IsPlainPattern := by
  intro m hm
  exact hplain m (Node.family_subset_of_mem_family n hp hm)

theorem value_of_isPlain (hplain : p.isPlain = true) (hkind : p.kind = .pairPattern)
    (hvalue : p.child? .value = some value) :
    value.withoutDefault.1.kind ≠ .arrayPattern ∧ value.withoutDefault.1.kind ≠ .restPattern := by
  unfold Node.isPlain at hplain
  rw [hkind, hvalue] at hplain
  simpa using hplain

theorem name_of_isPlain (hplain : p.isPlain = true) (hkind : p.kind = .restPattern) :
    exists inner, p.firstNamed? = some inner ∧ inner.kind = .identifier := by
  unfold Node.isPlain at hplain
  rw [hkind] at hplain
  cases hinner : p.firstNamed? with
  | none =>
      rw [hinner] at hplain
      cases hplain
  | some inner =>
      rw [hinner] at hplain
      exact ⟨inner, rfl, by simpa using hplain⟩

theorem left_of_isPlain (hplain : p.isPlain = true) (hkind : p.kind = .objectAssignmentPattern)
    (hleft : p.child? .left = some left) : left.kind = .shorthandPropertyPattern := by
  unfold Node.isPlain at hplain
  rw [hkind, hleft] at hplain
  simpa using hplain

theorem isFollowed_of_isPlain (hplain : p.isPlain = true) : IsFollowed p := by
  constructor
  · intro hkind value hvalue
    exact value_of_isPlain hplain hkind hvalue
  · intro hkind m hm hcomment
    rcases name_of_isPlain hplain hkind with ⟨inner, hinner, hname⟩
    rw [hm] at hinner
    cases hinner
    rw [hcomment] at hname
    cases hname

/-- Whatever a plain pattern binds, it binds by way of parts that are followed. -/
theorem Binds.followed {along : Node -> Prop} (h : Binds along n name)
    (hplain : n.IsPlainPattern) : Binds IsFollowed n name := by
  induction h with
  | name hkind =>
      exact .name hkind
  | shorthand hkind hp hshorthand =>
      exact .shorthand hkind hp hshorthand
  | defaulted hkind hp hdefaulted hleft hshorthand =>
      exact .defaulted hkind hp hdefaulted hleft hshorthand
  | @property n p key value name hkind hp hpair hkey hvalue _ _ ih =>
      have hpart := Node.mem_family_part (Node.mem_family_self n) hp
      have hbound := Node.mem_family_withoutDefault (Node.mem_family_child hpart hvalue)
      exact .property hkind hp hpair hkey hvalue (isFollowed_of_isPlain (hplain p hpart))
        (ih (hplain.of_mem hbound))
  | @remainder n p inner hkind hp hrest hinner hname _ =>
      have hpart := Node.mem_family_part (Node.mem_family_self n) hp
      exact .remainder hkind hp hrest hinner hname (isFollowed_of_isPlain (hplain p hpart))
  | @element n p name hkind hp _ ih =>
      have hpart := Node.mem_family_part (Node.mem_family_self n) hp
      exact .element hkind hp (ih (hplain.of_mem (Node.mem_family_withoutDefault hpart)))
  | @rest n inner name hkind hinner _ _ ih =>
      have hself := Node.mem_family_self n
      have hpart := Node.mem_family_part hself (List.mem_of_head? hinner)
      exact .rest hkind hinner (isFollowed_of_isPlain (hplain n hself)) (ih (hplain.of_mem hpart))

/-- The entry of a plain part finds names that the pattern binds, if the pattern inside it
does. -/
theorem binds_of_mem_entryNames {e : PatternEntry} (hkind : n.kind = .objectPattern)
    (hp : p ∈ n.parts) (hentry : p.patternPart? = some e) (hplain : p.isPlain = true)
    (hnested : forall m, e.nested = some m -> name ∈ m.boundNames -> Binds (fun _ => True) m name)
    (hname : name ∈ Node.entryNames e) : Binds (fun _ => True) n name := by
  unfold Node.patternPart? at hentry
  split at hentry
  · rename_i hshorthand
    cases hentry
    rw [List.mem_singleton.mp hname]
    exact .shorthand hkind hp hshorthand
  · rename_i hdefaulted
    rcases Option.map_eq_some_iff.mp hentry with ⟨left, hleft, rfl⟩
    rw [List.mem_singleton.mp hname]
    exact .defaulted hkind hp hdefaulted hleft (left_of_isPlain hplain hdefaulted hleft)
  · rename_i hpair
    split at hentry
    · rename_i key value hkey hvalue
      cases hentry
      refine .property hkind hp hpair hkey hvalue trivial ?_
      unfold Node.entryNames Node.pairEntry at hname
      dsimp only [Node.pairEntry] at hname hnested
      by_cases hid : (value.withoutDefault.1.kind == .identifier) = true
      · simp only [hid, if_true, List.mem_singleton] at hname
        rw [hname]
        exact .name (beq_iff_eq.mp hid)
      · by_cases hobject : (value.withoutDefault.1.kind == .objectPattern) = true
        · simp only [hid, hobject, if_true] at hname hnested
          exact hnested _ rfl hname
        · simp [hid, hobject] at hname
    · cases hentry
  · rename_i hrest
    cases hentry
    rcases name_of_isPlain hplain hrest with ⟨inner, hinner, hid⟩
    rw [hinner] at hname
    rw [List.mem_singleton.mp hname]
    have hhead := (isFollowed_of_isPlain hplain).firstNamed?_eq hrest
    exact .remainder hkind hp hrest (hhead.symm.trans hinner) hid trivial
  · cases hentry

theorem binds_of_mem_boundNames (n : Node) (hplain : n.IsPlainPattern)
    (hname : name ∈ n.boundNames) : Binds (fun _ => True) n name := by
  have hself := Node.mem_family_self n
  rw [Node.boundNames_eq] at hname
  cases hkind : n.kind with
  | identifier =>
      rw [hkind] at hname
      rw [List.mem_singleton.mp hname]
      exact .name hkind
  | objectPattern =>
      rw [hkind] at hname
      rcases List.mem_flatMap.mp hname with ⟨e, he, hname⟩
      rcases List.mem_filterMap.mp he with ⟨p, hp, hentry⟩
      refine binds_of_mem_entryNames hkind hp hentry (hplain p (Node.mem_family_part hself hp)) ?_
        hname
      intro m hm hname
      have hsize := Node.sizeOf_lt_of_mem_patternEntries he hm
      exact binds_of_mem_boundNames m (hplain.of_mem (Node.mem_family_nested hself he hm)) hname
  | arrayPattern =>
      rw [hkind] at hname
      rcases List.mem_flatMap.mp hname with ⟨p, hp, hname⟩
      have hsize := Nat.lt_of_le_of_lt (Node.sizeOf_withoutDefault_le p)
        (Node.sizeOf_lt_of_mem_parts hp)
      have hbound := Node.mem_family_withoutDefault (Node.mem_family_part hself hp)
      exact .element hkind hp (binds_of_mem_boundNames _ (hplain.of_mem hbound) hname)
  | restPattern =>
      rcases name_of_isPlain (hplain n hself) hkind with ⟨inner, hinner, hid⟩
      rw [hkind, hinner] at hname
      have hhead := (isFollowed_of_isPlain (hplain n hself)).firstNamed?_eq hkind
      have hsize := Node.sizeOf_lt_of_firstNamed? hinner
      have hbound := Node.mem_family_firstNamed hself hinner
      exact .rest hkind (hhead.symm.trans hinner) trivial
        (binds_of_mem_boundNames inner (hplain.of_mem hbound) hname)
  | _ =>
      rw [hkind] at hname
      cases hname
termination_by sizeOf n

/-- The names that are found in a plain pattern are the ones that it binds. -/
theorem mem_boundNames_iff (hplain : n.IsPlainPattern) :
    name ∈ n.boundNames <-> Binds (fun _ => True) n name := by
  constructor
  · exact binds_of_mem_boundNames n hplain
  · intro hbinds
    exact (hbinds.followed hplain).mem_boundNames

end

end Script
end PayloadFlow
