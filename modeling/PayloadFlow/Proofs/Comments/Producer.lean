import PayloadFlow.Extract.Producer
import PayloadFlow.Proofs.Comments.Walks

/-!
# Producers and comments

What a producer sends is read from the calls in its body.  Comments in the tree make no
difference to it; comments inside the values of the payload do not as long as the text of
the value is read the same.
-/

namespace PayloadFlow

open Script

namespace ParamType

/-!
# Types of parameters
-/

open Node

theorem blankChar_not_alpha (c : Char) : (blankChar c).isAlpha = false := by
  unfold blankChar
  split
  · rename_i hbreak
    simp only [Bool.or_eq_true, beq_iff_eq] at hbreak
    rcases hbreak with ((rfl | rfl) | rfl) | rfl
    · decide
    · decide
    · decide
    · decide
  · decide

/-- Letters at the start of a blanked text stand at the start of the text. -/
theorem prefix_of_prefix_uncommented {n : Node} {word : List Char}
    (hword : word.all Char.isAlpha = true) (h : word <+: n.uncommented.text.toList) :
    word <+: n.text.toList := by
  rw [List.prefix_iff_getElem?] at h ⊢
  intro i hi
  have hblank := h i hi
  rw [text_uncommented, getElem?_blank] at hblank
  rcases Option.map_eq_some_iff.mp hblank with ⟨c, hc, hletter⟩
  rw [hc]
  split at hletter
  · have halpha := List.all_eq_true.mp hword word[i] (List.getElem_mem hi)
    rw [← hletter, blankChar_not_alpha] at halpha
    cases halpha
  · rw [hletter]

theorem ofComparison_uncommented {c : Cursor} (h : c.Tidied) :
    ofComparison c.uncommented = ofComparison c := by
  unfold ofComparison Cursor.parent?
  rcases c with ⟨node, above⟩
  cases above with
  | nil =>
      rfl
  | cons parent rest =>
      have hparent := h.above parent List.mem_cons_self
      simp only [Cursor.uncommented, List.map_cons, List.head?_cons, Option.bind_eq_bind,
        Option.bind_some, kind_uncommented, label_uncommented, child?_uncommented hparent]
      cases parent.kind == .binaryExpression with
      | false =>
          rfl
      | true =>
          cases hother : parent.child? (if node.label == some .left then .right else .left) with
          | none =>
              rfl
          | some other =>
              simp only [Option.map_some, Option.bind_some,
                stringValue?_uncommented (hparent.child hother)]

theorem ofUse_uncommented (name : String) {c : Cursor} (h : c.Tidied) :
    ofUse name c.uncommented = ofUse name c := by
  have hn := h.node
  unfold ofUse
  rw [ofComparison_uncommented h]
  simp only [Cursor.uncommented, kind_uncommented, memberChain?_uncommented c.node hn,
    child?_uncommented hn]
  cases hkind : c.node.kind with
  | callExpression =>
      cases hf : c.node.child? .function with
      | none =>
          rfl
      | some f =>
          simp only [Option.map_some, kind_uncommented]
          cases hidentifier : f.kind == .identifier with
          | false =>
              rfl
          | true =>
              rw [uncommented_of_isLeaf (hn.child hf)
                (by rw [isLeaf, beq_iff_eq.mp hidentifier])]
  | unaryExpression =>
      dsimp only
      cases htypeof : c.node.isTypeof with
      | true =>
          rw [uncommented_of_comments_eq_nil c.node (hn.self.typeof htypeof)]
      | false =>
          rw [isTypeof, hkind, beq_self_eq_true, Bool.true_and] at htypeof
          have hnot : ¬ "typeof".toList <+: c.node.text.toList := by
            rw [← List.isPrefixOf_iff_prefix, htypeof]
            exact Bool.false_ne_true
          have hnone : "typeof".toList.isPrefixOf? c.node.text.toList = none := by
            cases hrest : "typeof".toList.isPrefixOf? c.node.text.toList with
            | none =>
                rfl
            | some rest =>
                exact absurd ⟨rest, List.isPrefixOf?_eq_some_iff_append_eq.mp hrest⟩ hnot
          have hblank : "typeof".toList.isPrefixOf? c.node.uncommented.text.toList = none := by
            cases hrest : "typeof".toList.isPrefixOf? c.node.uncommented.text.toList with
            | none =>
                rfl
            | some rest =>
                refine absurd (prefix_of_prefix_uncommented (by decide) ?_) hnot
                exact ⟨rest, List.isPrefixOf?_eq_some_iff_append_eq.mp hrest⟩
          rw [hnone, hblank]
  | _ =>
      rfl

theorem ofUses_uncommented (name : String) {body : Node} (h : body.Tidied) :
    ofUses name body.uncommented = ofUses name body := by
  unfold ofUses
  apply walk_uncommented_eq
  · intro found c hc
    rw [ofUse_uncommented name hc]
  · exact h

end ParamType

namespace Producer

open Node

/-!
# Events
-/

theorem brokerCall?_uncommented (entryPoints : List String) {body : Node} (h : body.Tidied) :
    brokerCall? entryPoints body.uncommented =
      (brokerCall? entryPoints body).map uncommented := by
  unfold brokerCall?
  apply findFirst_uncommented
  intro n hn
  have hnTidied := h.of_mem_family (mem_family_of_mem_nodes body hn)
  have hcall : isBrokerCall entryPoints n.uncommented = isBrokerCall entryPoints n := by
    unfold isBrokerCall
    rw [kind_uncommented, any_callee?_uncommented hnTidied entryPoints.contains]
  rw [hcall]
  split
  · rfl
  · rfl

theorem mem_family_of_brokerCall? {entryPoints : List String} {body call : Node}
    (hcall : brokerCall? entryPoints body = some call) : call ∈ body.family := by
  unfold brokerCall? at hcall
  rw [findFirst_eq] at hcall
  rcases List.exists_of_findSome?_eq_some hcall with ⟨n, hn, hfound⟩
  split at hfound
  · cases hfound
    exact mem_family_of_mem_nodes body hn
  · cases hfound

/-- Constants with one value whose names are the same as far as words go. -/
structure ConstantAlike (entry other : String × String) : Prop where
  value : other.2 = entry.2
  name : forall word, IsWord word -> (other.1 = word <-> entry.1 = word)

theorem declaredConstants_uncommented {n : Node} (h : n.Tidied) :
    List.Forall₂ ConstantAlike (declaredConstants n) (declaredConstants n.uncommented) := by
  have hparts := forall₂_map_uncommented (P := Tidied) n.parts fun d hd => h.part hd
  rw [← parts_uncommented] at hparts
  have hdeclared : List.Forall₂ ConstantAlike
      (n.parts.filterMap fun d => do
        let name ← d.child? .name
        let value ← d.child? .value
        some (name.text, ← value.stringValue?))
      (n.uncommented.parts.filterMap fun d => do
        let name ← d.child? .name
        let value ← d.child? .value
        some (name.text, ← value.stringValue?)) := by
    refine List.rel_filterMap ?_ hparts
    rintro d _ ⟨rfl, hd⟩
    dsimp only
    rw [child?_uncommented hd, child?_uncommented hd]
    cases hname : d.child? .name with
    | none =>
        exact Option.Rel.none
    | some name =>
        cases hvalue : d.child? .value with
        | none =>
            exact Option.Rel.none
        | some value =>
            simp only [Option.map_some, Option.bind_eq_bind, Option.bind_some,
              stringValue?_uncommented (hd.child hvalue)]
            cases value.stringValue? with
            | none =>
                exact Option.Rel.none
            | some text =>
                refine Option.Rel.some ⟨rfl, ?_⟩
                intro word hword
                exact text_uncommented_eq_iff (hd.child hname) hword
  unfold declaredConstants
  rw [kind_uncommented]
  split
  · exact hdeclared
  · exact hdeclared
  · exact List.Forall₂.nil

theorem constants_uncommented {program : Node} (h : program.Tidied) :
    List.Forall₂ ConstantAlike (constants program) (constants program.uncommented) := by
  have hparts := forall₂_map_uncommented (P := Tidied) program.parts fun d hd => h.part hd
  rw [← parts_uncommented] at hparts
  refine List.rel_flatMap hparts ?_
  rintro statement _ ⟨rfl, hstatement⟩
  dsimp only
  rw [kind_uncommented, child?_uncommented hstatement]
  split
  · cases hdeclaration : statement.child? .declaration with
    | none =>
        exact List.Forall₂.nil
    | some declaration =>
        exact declaredConstants_uncommented (hstatement.child hdeclaration)
  · exact declaredConstants_uncommented hstatement

theorem constant?_of_alike {table other : List (String × String)}
    (h : List.Forall₂ ConstantAlike table other) {word : String} (hword : IsWord word) :
    constant? other word = constant? table word := by
  unfold constant?
  have hreverse := List.rel_reverse h
  generalize table.reverse = entries at hreverse
  generalize other.reverse = others at hreverse
  induction hreverse with
  | nil =>
      rfl
  | @cons entry entry' rest rest' halike _ ih =>
      have hname : (entry'.1 == word) = (entry.1 == word) := by
        rw [Bool.eq_iff_iff, beq_iff_eq, beq_iff_eq]
        exact halike.name word hword
      rw [List.find?_cons, List.find?_cons, hname]
      cases entry.1 == word with
      | true =>
          exact congrArg some halike.value
      | false =>
          exact ih

theorem event?_uncommented {table other : List (String × String)}
    (htable : List.Forall₂ ConstantAlike table other) {scope argument : Node}
    (hscope : scope.Tidied) (h : argument.Tidied) :
    event? other scope.uncommented argument.uncommented = event? table scope argument := by
  unfold event?
  rw [stringValue?_uncommented h, unwrap_uncommented h]
  cases argument.stringValue? with
  | some text =>
      rfl
  | none =>
      simp only [kind_uncommented]
      cases hkind : argument.unwrap.kind == .identifier with
      | false =>
          rfl
      | true =>
          have hidentifier := beq_iff_eq.mp hkind
          have hlocal : (scope.uncommented.localValue? argument.unwrap.text).bind
              (fun value => value.stringValue?) =
              (scope.localValue? argument.unwrap.text).bind fun value => value.stringValue? := by
            rw [localValue?_uncommented hscope]
            cases hvalue : scope.localValue? argument.unwrap.text with
            | none =>
                rfl
            | some value =>
                exact stringValue?_uncommented
                  (hscope.of_mem_family (mem_family_of_localValue? hvalue))
          rw [uncommented_of_isLeaf h.unwrap (by rw [isLeaf, hidentifier]), hlocal,
            constant?_of_alike htable (isWord_of_identifier h.unwrap hidentifier)]

/-!
# Payloads
-/

/-- The text of a value is read the same with its comments blanked. -/
structure ReadsAlike (value : Node) : Prop where
  kind : Expression.classify value.uncommented.text = Expression.classify value.text
  leading : Expression.leading value.uncommented.text = Expression.leading value.text

/-- The values in the object literals of a body are read the same without comments. -/
def ValuesAlike (body : Node) : Prop :=
  forall n, n ∈ body.family -> n.kind = .pair -> forall value, value ∈ n.child? .value ->
    ReadsAlike value

instance (value : Node) : Decidable (ReadsAlike value) :=
  decidable_of_iff
    (Expression.classify value.uncommented.text = Expression.classify value.text ∧
      Expression.leading value.uncommented.text = Expression.leading value.text)
    ⟨fun ⟨kind, leading⟩ => ⟨kind, leading⟩, fun h => ⟨h.kind, h.leading⟩⟩

instance (body : Node) : Decidable (ValuesAlike body) :=
  inferInstanceAs (Decidable (forall n, n ∈ body.family -> n.kind = .pair ->
    forall value, value ∈ n.child? .value -> ReadsAlike value))

def withoutText (b : PropertyBinding) : PropertyBinding :=
  { b with expression := "" }

theorem binding_withoutText {value : Node} (h : ReadsAlike value) (params : List String)
    (name : String) (line : Nat) :
    withoutText (binding params name value.uncommented.text line) =
      withoutText (binding params name value.text line) := by
  have hsource : forall kind, sourceParameter? params kind value.uncommented.text =
      sourceParameter? params kind value.text := by
    intro kind
    unfold sourceParameter?
    rw [h.leading]
  unfold withoutText binding
  simp only [h.kind, hsource]

theorem map_withoutText_record (b : PropertyBinding) (bindings : List PropertyBinding) :
    (record b bindings).map withoutText = record (withoutText b) (bindings.map withoutText) := by
  induction bindings with
  | nil =>
      rfl
  | cons other rest ih =>
      have hname : ((withoutText other).name == (withoutText b).name) = (other.name == b.name) :=
        rfl
      unfold record
      rw [List.map_cons]
      dsimp only
      rw [hname]
      split
      · rfl
      · rw [List.map_cons, ih]

theorem objectLiteral?_uncommented {scope expression : Node} (hscope : scope.Tidied)
    (h : expression.Tidied) :
    objectLiteral? scope.uncommented expression.uncommented =
      (objectLiteral? scope expression).map uncommented := by
  have hinner := h.unwrap
  unfold objectLiteral?
  rw [unwrap_uncommented h]
  generalize expression.unwrap = n at hinner
  simp only [kind_uncommented]
  cases hkind : n.kind with
  | object =>
      rfl
  | identifier =>
      dsimp only
      rw [uncommented_of_isLeaf hinner (by rw [isLeaf, hkind]),
        localValue?_uncommented hscope]
      cases hvalue : scope.localValue? n.text with
      | none =>
          rfl
      | some value =>
          have hvalueTidied := hscope.of_mem_family (mem_family_of_localValue? hvalue)
          simp only [Option.map_some, unwrap_uncommented hvalueTidied, kind_uncommented]
          split
          · rfl
          · rfl
  | _ =>
      rfl

theorem mem_family_of_objectLiteral? {scope expression object : Node}
    (hmem : expression ∈ scope.family) (hobject : objectLiteral? scope expression = some object) :
    object ∈ scope.family := by
  unfold objectLiteral? at hobject
  dsimp only at hobject
  split at hobject
  · cases hobject
    exact mem_family_unwrap hmem
  · split at hobject
    · rename_i value hvalue
      split at hobject
      · cases hobject
        exact mem_family_unwrap (mem_family_of_localValue? hvalue)
      · cases hobject
    · cases hobject
  · cases hobject

theorem recordEntry_uncommented {scope : Node} {params : List String}
    {spread other : Node -> List PropertyBinding -> List PropertyBinding}
    (hspread : forall argument bs bs', argument ∈ scope.family ->
      bs'.map withoutText = bs.map withoutText ->
      (other argument.uncommented bs').map withoutText = (spread argument bs).map withoutText)
    {e : ObjectEntry} (he : e.Within scope ReadsAlike) {bs bs' : List PropertyBinding}
    (hbs : bs'.map withoutText = bs.map withoutText) :
    (recordEntry params other bs' e.uncommented).map withoutText =
      (recordEntry params spread bs e).map withoutText := by
  cases e with
  | pair key value line =>
      unfold recordEntry ObjectEntry.uncommented
      rw [map_withoutText_record, map_withoutText_record, binding_withoutText he, hbs]
  | shorthand name line =>
      unfold recordEntry ObjectEntry.uncommented
      rw [map_withoutText_record, map_withoutText_record, hbs]
  | method name line =>
      unfold recordEntry ObjectEntry.uncommented
      rw [map_withoutText_record, map_withoutText_record, hbs]
  | spread argument line =>
      exact hspread argument bs bs' he hbs

theorem recordObject_uncommented {scope : Node} (hscope : scope.Tidied)
    (hvalues : ValuesAlike scope) (params : List String) (depth : Nat) {object : Node}
    (hobject : object ∈ scope.family) {bs bs' : List PropertyBinding}
    (hbs : bs'.map withoutText = bs.map withoutText) :
    (recordObject scope.uncommented params depth object.uncommented bs').map withoutText =
      (recordObject scope params depth object bs).map withoutText := by
  induction depth generalizing object bs bs' with
  | zero =>
      unfold recordObject
      refine List.rel_foldl
        (P := fun bs bs' : List PropertyBinding => bs'.map withoutText = bs.map withoutText) ?_ hbs
        (forall₂_objectEntries hscope hvalues hobject)
      rintro bs bs' hbs e _ ⟨rfl, he⟩
      apply recordEntry_uncommented _ he hbs
      intro argument bs bs' _ hbs
      exact hbs
  | succ depth ih =>
      unfold recordObject
      refine List.rel_foldl
        (P := fun bs bs' : List PropertyBinding => bs'.map withoutText = bs.map withoutText) ?_ hbs
        (forall₂_objectEntries hscope hvalues hobject)
      rintro bs bs' hbs e _ ⟨rfl, he⟩
      apply recordEntry_uncommented _ he hbs
      intro argument bs bs' hargument hbs
      rw [objectLiteral?_uncommented hscope (hscope.of_mem_family hargument)]
      cases hinner : objectLiteral? scope argument with
      | none =>
          exact hbs
      | some inner =>
          exact ih (mem_family_of_objectLiteral? hargument hinner) hbs

theorem payloadBindings_uncommented {scope payload : Node} (hscope : scope.Tidied)
    (hvalues : ValuesAlike scope) (params : List String) (hpayload : payload ∈ scope.family) :
    (payloadBindings scope.uncommented params payload.uncommented).map withoutText =
      (payloadBindings scope params payload).map withoutText := by
  unfold payloadBindings
  rw [objectLiteral?_uncommented hscope (hscope.of_mem_family hpayload)]
  cases hobject : objectLiteral? scope payload with
  | none =>
      rfl
  | some object =>
      exact recordObject_uncommented hscope hvalues params spreadDepth
        (mem_family_of_objectLiteral? hpayload hobject) rfl

/-!
# Contracts
-/

theorem parameters_uncommented {f : FunctionNode} (h : f.Tidied) :
    parameters f.uncommented = parameters f := by
  unfold parameters FunctionNode.uncommented
  dsimp only
  rw [List.flatMap_map]
  apply List.flatMap_congr
  intro p hp
  have hpattern := (h.params p hp).parameterPattern
  rw [parameterPattern_uncommented (h.params p hp)]
  simp only [boundNames_uncommented _ hpattern, ParamType.ofUses_uncommented _ h.body]

/-- A contract without the texts of its values. -/
def withoutTexts (c : ProducerContract) : ProducerContract :=
  { c with producedProperties := c.producedProperties.map withoutText }

theorem contract?_uncommented {entryPoints : List String} {table other : List (String × String)}
    (htable : List.Forall₂ ConstantAlike table other) (path : String) {f : FunctionNode}
    (h : f.Tidied) (hvalues : ValuesAlike f.body) :
    (contract? entryPoints other path f.uncommented).map withoutTexts =
      (contract? entryPoints table path f).map withoutTexts := by
  have hexported : f.uncommented.exported = f.exported := rfl
  have hbody : f.uncommented.body = f.body.uncommented := rfl
  have hname : f.uncommented.name = f.name := rfl
  unfold contract?
  rw [hexported, hbody, hname, brokerCall?_uncommented entryPoints h.body,
    parameters_uncommented h]
  cases f.exported with
  | false =>
      simp only [guard, Bool.false_eq_true, if_false, Option.bind_eq_bind, Option.failure_eq_none,
        Option.bind_none]
  | true =>
      simp only [guard, if_true, Option.pure_def, Option.bind_eq_bind, Option.bind_some]
      cases hcall : brokerCall? entryPoints f.body with
      | none =>
          simp only [Option.map_none, Option.bind_none]
      | some call =>
          have hmem := mem_family_of_brokerCall? hcall
          have hcallTidied := h.body.of_mem_family hmem
          simp only [Option.map_some, Option.bind_some, callArguments_uncommented hcallTidied,
            line_uncommented, List.head?_map, List.getElem?_map]
          cases hfirst : call.callArguments.head? with
          | none =>
              simp only [Option.map_none, Option.bind_none]
          | some first =>
              simp only [Option.map_some, Option.bind_some, event?_uncommented htable h.body
                (hcallTidied.argument (List.mem_of_head? hfirst))]
              cases event? table f.body first with
              | none =>
                  simp only [Option.bind_none]
              | some event =>
                  cases hsecond : call.callArguments[1]? with
                  | none =>
                      simp only [Option.map_none]
                  | some second =>
                      have hpayload := payloadBindings_uncommented h.body hvalues
                        ((parameters f).map (·.name))
                        (mem_family_argument hmem (List.mem_of_getElem? hsecond))
                      simp only [Option.map_some, Option.bind_some, Option.getD_some, withoutTexts,
                        hpayload]

/-- Comments leave the contracts of the producers as they are, texts of values apart. -/
theorem contracts_uncommented (entryPoints : List String) (path : String) {program : Node}
    (h : program.Tidied) (hvalues : forall f, f ∈ program.functions -> ValuesAlike f.body) :
    (contracts entryPoints path program.uncommented).map withoutTexts =
      (contracts entryPoints path program).map withoutTexts := by
  unfold contracts
  rw [functions_uncommented h, List.filterMap_map, List.map_filterMap, List.map_filterMap]
  apply List.filterMap_congr
  intro f hf
  exact contract?_uncommented (constants_uncommented h) path (tidied_of_mem_functions h hf)
    (hvalues f hf)

end Producer
end PayloadFlow
