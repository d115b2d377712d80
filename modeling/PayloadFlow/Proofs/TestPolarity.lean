import PayloadFlow.Extract.Consumer.Handler
import PayloadFlow.Proofs.Preparation.Reading

/-!
# Which way a test goes

A handler tests a property by a condition around the place where it reads it.  Run on a value
that is absent and on one that is present, the condition says which way the test goes.  The
context that is found by going up from the place is that of the condition, unless a negation
stands where going up has already ended.
-/

namespace PayloadFlow
namespace Consumer

open Script

/-!
# Values
-/

/-- A value, as far as conditions can tell.  Of numbers only whether they count as true. -/
inductive Value where
  | undefined
  | null
  | boolean (b : Bool)
  | number (b : Bool)
  | bigint (b : Bool)
  | string (text : String)
  | symbol
  | function
  | object
  deriving DecidableEq, Repr

namespace Value

def isTruthy : Value -> Bool
  | undefined | null => false
  | boolean b | number b | bigint b => b
  | string text => text != ""
  | symbol | function | object => true

def typeName : Value -> String
  | undefined => "undefined"
  | null | object => "object"
  | boolean _ => "boolean"
  | number _ => "number"
  | bigint _ => "bigint"
  | string _ => "string"
  | symbol => "symbol"
  | function => "function"

def IsPresent (v : Value) : Prop :=
  v ≠ undefined ∧ v ≠ null

theorem typeName_ne_empty (v : Value) : v.typeName ≠ "" := by
  cases v with
  | _ =>
      simp [typeName]

end Value

/-!
# Conditions around a value
-/

inductive Absent where
  | undefined
  | null
  deriving DecidableEq, Repr

namespace Absent

def word : Absent -> String
  | undefined => "undefined"
  | null => "null"

/-- Whether a value equals an absent one; loosely, the two absent ones are equal. -/
def equals (isStrict : Bool) (a : Absent) (v : Value) : Bool :=
  if isStrict then
    match a with
    | undefined => v == .undefined
    | null => v == .null
  else v == .undefined || v == .null

end Absent

structure Comparison where
  isStrict : Bool
  equality : Bool
  deriving DecidableEq, Repr

namespace Comparison

def operator : Comparison -> String
  | ⟨true, true⟩ => "==="
  | ⟨false, true⟩ => "=="
  | ⟨true, false⟩ => "!=="
  | ⟨false, false⟩ => "!="

end Comparison

inductive Layer where
  | paren
  | not
  | typeof
  | absence (c : Comparison) (a : Absent)
  /-- a comparison with a literal, which may be written with escapes -/
  | type (c : Comparison) (name : String) (isPlain : Bool)
  deriving DecidableEq, Repr

namespace Layer

def apply (v : Value) : Layer -> Value
  | paren => v
  | not => .boolean (!v.isTruthy)
  | typeof => .string v.typeName
  | absence c a => .boolean (a.equals c.isStrict v == c.equality)
  | type c name _ => .boolean ((v == .string name) == c.equality)

def isComparison : Layer -> Bool
  | absence _ _ | type _ _ _ => true
  | _ => false

end Layer

/-- Whether a condition, given by the constructs around a value from the inside out, is true. -/
def truth (layers : List Layer) (v : Value) : Bool :=
  (layers.foldl Layer.apply v).isTruthy

/-- Literals are only compared with what `typeof` gives. -/
def WellFormed : Bool -> List Layer -> Prop
  | _, [] => True
  | isName, .paren :: layers => WellFormed isName layers
  | _, .typeof :: layers => WellFormed true layers
  | isName, .type _ _ _ :: layers => isName = true ∧ WellFormed false layers
  | _, _ :: layers => WellFormed false layers

/-- Nothing but parentheses stands around the value. -/
def Bare (layers : List Layer) : Prop :=
  forall layer, layer ∈ layers -> layer = .paren

inductive Site where
  | condition
  | conjunction
  | disjunction
  deriving DecidableEq, Repr

/-- A context is the one that a condition gives to the value in its middle. -/
structure Fits (site : Site) (layers : List Layer) (context : Context) : Prop where
  negated : forall v : Value, v.IsPresent -> truth layers .undefined = true ->
    truth layers v = false -> context = .test true
  positive : forall v : Value, v.IsPresent -> truth layers .undefined = false ->
    truth layers v = true -> context = .test false ∨
      (context = .fallback ∧ site = .disjunction ∧ Bare layers)
  fallback : context = .fallback -> Bare layers

/-!
# How conditions are written
-/

def beside? (operand parent : Node) : Option Node :=
  match operand.label with
  | some .left => parent.child? .right
  | some .right => parent.child? .left
  | _ => none

def IsTypeLiteral (name : String) (isPlain : Bool) (n : Node) : Prop :=
  n.text ≠ "undefined" ∧ n.text ≠ "null" ∧
    if isPlain then Broker.IsText name n
    else exists text, text ∈ n.stringValue? ∧ '\\' ∈ text.toList

namespace Layer

def IsWritten (inner outer : Node) : Layer -> Prop
  | paren => outer.kind = .parenthesizedExpression
  | not => outer.kind = .unaryExpression ∧ outer.operator? = some "!"
  | typeof => outer.kind = .unaryExpression ∧ outer.operator? = some "typeof"
  | absence c a =>
      outer.kind = .binaryExpression ∧ outer.operator? = some c.operator ∧
        exists other, other ∈ beside? inner outer ∧ other.text = a.word
  | type c name isPlain =>
      outer.kind = .binaryExpression ∧ outer.operator? = some c.operator ∧
        exists other, other ∈ beside? inner outer ∧ IsTypeLiteral name isPlain other

end Layer

namespace Site

def IsWritten (inner outer : Node) : Site -> Prop
  | condition =>
      outer.kind ∈ [.ifStatement, .whileStatement, .doStatement, .ternaryExpression] ∧
        inner.label = some .condition
  | conjunction =>
      outer.kind = .binaryExpression ∧ outer.operator? = some "&&" ∧ inner.label = some .left
  | disjunction =>
      outer.kind = .binaryExpression ∧ outer.operator? = some "||" ∧ inner.label = some .left

end Site

/-- A node stands in the middle of a condition. -/
def Occurs (site : Site) : List Layer -> Node -> List Node -> Prop
  | [], current, above => exists outer, outer ∈ above.head? ∧ site.IsWritten current outer
  | layer :: layers, current, above =>
      exists outer, outer ∈ above.head? ∧ layer.IsWritten current outer ∧
        Occurs site layers outer above.tail

instance (name : String) (isPlain : Bool) (n : Node) : Decidable (IsTypeLiteral name isPlain n) :=
  inferInstanceAs (Decidable (_ ∧ _ ∧ _))

instance (inner outer : Node) : (layer : Layer) -> Decidable (layer.IsWritten inner outer)
  | .paren => inferInstanceAs (Decidable (_ = _))
  | .not | .typeof => inferInstanceAs (Decidable (_ ∧ _))
  | .absence _ _ | .type _ _ _ => inferInstanceAs (Decidable (_ ∧ _ ∧ _))

instance (inner outer : Node) : (site : Site) -> Decidable (site.IsWritten inner outer)
  | .condition | .conjunction | .disjunction => inferInstanceAs (Decidable (_ ∧ _))

def decideOccurs (site : Site) : (layers : List Layer) -> (current : Node) -> (above : List Node) ->
    Decidable (Occurs site layers current above)
  | [], _, above => inferInstanceAs (Decidable (exists outer, outer ∈ above.head? ∧ _))
  | _ :: layers, _, above =>
      have := decideOccurs site layers
      inferInstanceAs (Decidable (exists outer, outer ∈ above.head? ∧ _ ∧ _))

instance (site : Site) (layers : List Layer) (current : Node) (above : List Node) :
    Decidable (Occurs site layers current above) :=
  decideOccurs site layers current above

/-!
# What going up finds

Going up ends at the innermost comparison, if there is one.
-/

def Site.context (negated : Bool) : Site -> Context
  | condition | conjunction => .test negated
  | disjunction => .fallback

/-- The context that is found around a value, by the negations passed so far. -/
def contextWithin (site : Site) (negated : Bool) : List Layer -> Context
  | [] => site.context negated
  | .paren :: layers | .typeof :: layers => contextWithin site negated layers
  | .not :: layers => contextWithin site (!negated) layers
  | .absence c _ :: _ => .test (negated != c.equality)
  | .type c name isPlain :: _ =>
      .test (negated != ((isPlain && name == "undefined") == c.equality))

theorem otherOperand?_of_beside? {operand parent other : Node}
    (hbeside : beside? operand parent = some other) :
    otherOperand? parent operand = some other := by
  unfold beside? at hbeside
  unfold otherOperand?
  split at hbeside
  · rename_i hlabel
    rw [hlabel]
    exact hbeside
  · rename_i hlabel
    rw [hlabel]
    exact hbeside
  · cases hbeside

theorem operandContext_comparison {parent current other : Node} {c : Comparison}
    (hoperator : parent.operator? = some c.operator)
    (hbeside : beside? current parent = some other) (negated isTypeof : Bool) :
    operandContext negated isTypeof parent current =
      comparisonContext c.equality negated isTypeof other := by
  have hother := otherOperand?_of_beside? hbeside
  rcases c with ⟨isStrict, equality⟩
  unfold operandContext
  cases isStrict with
  | true =>
      cases equality with
      | true =>
          simp only [hoperator, hother, Comparison.operator]
      | false =>
          simp only [hoperator, hother, Comparison.operator]
  | false =>
      cases equality with
      | true =>
          simp only [hoperator, hother, Comparison.operator]
      | false =>
          simp only [hoperator, hother, Comparison.operator]

theorem comparisonContext_absence {other : Node} {a : Absent} (htext : other.text = a.word)
    (equality negated isTypeof : Bool) :
    comparisonContext equality negated isTypeof other = .test (negated != equality) := by
  unfold comparisonContext
  cases a with
  | undefined =>
      simp [htext, Absent.word]
  | null =>
      simp [htext, Absent.word]

theorem stringValue?_of_isTypeLiteral {name : String} {isPlain : Bool} {n : Node}
    (hliteral : IsTypeLiteral name isPlain n) :
    (n.stringValue? == some "undefined") = (isPlain && name == "undefined") := by
  rcases hliteral with ⟨_, _, hliteral⟩
  cases isPlain with
  | true =>
      rw [Broker.stringValue?_of_isText hliteral]
      rfl
  | false =>
      rcases hliteral with ⟨text, htext, hescape⟩
      rw [Option.mem_def] at htext
      rw [htext, Bool.false_and, beq_eq_false_iff_ne]
      intro hundefined
      rw [Option.some.inj hundefined] at hescape
      revert hescape
      decide

theorem comparisonContext_type {other : Node} {name : String} {isPlain : Bool}
    (hliteral : IsTypeLiteral name isPlain other) (equality negated : Bool) :
    comparisonContext equality negated true other =
      .test (negated != ((isPlain && name == "undefined") == equality)) := by
  have hvalue := stringValue?_of_isTypeLiteral hliteral
  rcases hliteral with ⟨hundefined, hnull, _⟩
  unfold comparisonContext
  rw [hvalue, beq_false_of_ne hundefined, beq_false_of_ne hnull]
  cases (isPlain && name == "undefined") with
  | true =>
      cases equality with
      | _ =>
          rfl
  | false =>
      cases equality with
      | _ =>
          rfl

theorem contextFrom_site {site : Site} {current outer : Node} (hsite : site.IsWritten current outer)
    (negated isTypeof : Bool) (above : List Node) :
    contextFrom negated isTypeof current (outer :: above) = site.context negated := by
  unfold contextFrom
  cases site with
  | condition =>
      rcases hsite with ⟨hkind, hlabel⟩
      simp only [List.mem_cons, List.not_mem_nil, or_false] at hkind
      rcases hkind with hkind | hkind | hkind | hkind
      · simp [hkind, hlabel, Site.context]
      · simp [hkind, hlabel, Site.context]
      · simp [hkind, hlabel, Site.context]
      · simp [hkind, hlabel, Site.context]
  | conjunction =>
      rcases hsite with ⟨hkind, hoperator, hlabel⟩
      simp [hkind, operandContext, hoperator, hlabel, Site.context]
  | disjunction =>
      rcases hsite with ⟨hkind, hoperator, hlabel⟩
      simp [hkind, operandContext, hoperator, hlabel, Site.context]

theorem contextFrom_of_occurs {site : Site} {layers : List Layer} {current : Node}
    {above : List Node} (hoccurs : Occurs site layers current above) {isName isTypeof : Bool}
    (hformed : WellFormed isName layers) (hname : isName = true -> isTypeof = true)
    (negated : Bool) :
    contextFrom negated isTypeof current above = contextWithin site negated layers := by
  induction layers generalizing current above isName isTypeof negated with
  | nil =>
      rcases hoccurs with ⟨outer, houter, hsite⟩
      rcases List.head?_eq_some_iff.mp houter with ⟨rest, rfl⟩
      exact contextFrom_site hsite negated isTypeof rest
  | cons layer layers ih =>
      rcases hoccurs with ⟨outer, houter, hlayer, hrest⟩
      rcases List.head?_eq_some_iff.mp houter with ⟨rest, rfl⟩
      rw [List.tail_cons] at hrest
      unfold contextFrom
      cases layer with
      | paren =>
          simp only [show outer.kind = _ from hlayer]
          exact ih hrest hformed hname negated
      | not =>
          simp only [hlayer.1, hlayer.2]
          exact ih hrest hformed (fun h => nomatch h : false = true -> isTypeof = true) (!negated)
      | typeof =>
          simp only [hlayer.1, hlayer.2]
          exact ih hrest hformed (fun _ => rfl) negated
      | absence c a =>
          rcases hlayer with ⟨hkind, hoperator, other, hother, htext⟩
          simp only [hkind]
          rw [operandContext_comparison hoperator hother, comparisonContext_absence htext]
          rfl
      | type c name isPlain =>
          rcases hlayer with ⟨hkind, hoperator, other, hother, hliteral⟩
          simp only [hkind]
          rw [operandContext_comparison hoperator hother, hname hformed.1,
            comparisonContext_type hliteral]
          rfl

/-!
# What conditions tell
-/

def OnlyNegates (layers : List Layer) : Prop :=
  forall layer, layer ∈ layers -> layer = .paren ∨ layer = .not

/-- Whether the number of negations is odd. -/
def turns : List Layer -> Bool
  | [] => false
  | .not :: layers => !turns layers
  | _ :: layers => turns layers

/-- Whether going up ends too early: at a comparison around which the condition is turned
over, or which asks for `undefined` by a literal that does not show it. -/
def flips : List Layer -> Bool
  | [] => false
  | .absence _ _ :: layers => turns layers
  | .type _ name isPlain :: layers => turns layers != (!isPlain && name == "undefined")
  | _ :: layers => flips layers

theorem Absent.equals_boolean (a : Absent) (isStrict b : Bool) :
    a.equals isStrict (.boolean b) = false := by
  cases a with
  | _ =>
      cases isStrict with
      | _ =>
          rfl

theorem Absent.equals_string (a : Absent) (isStrict : Bool) (text : String) :
    a.equals isStrict (.string text) = false := by
  cases a with
  | _ =>
      cases isStrict with
      | _ =>
          rfl

theorem Absent.equals_of_isPresent (a : Absent) (isStrict : Bool) {v : Value}
    (hv : v.IsPresent) : a.equals isStrict v = false := by
  unfold Absent.equals
  cases isStrict with
  | true =>
      cases a with
      | undefined =>
          exact beq_false_of_ne hv.1
      | null =>
          exact beq_false_of_ne hv.2
  | false =>
      simp [hv.1, hv.2]

theorem OnlyNegates.cons {layers : List Layer} (hlayers : OnlyNegates layers) {layer : Layer}
    (hlayer : layer = .paren ∨ layer = .not) : OnlyNegates (layer :: layers) := by
  intro l hl
  rcases List.mem_cons.mp hl with rfl | hl
  · exact hlayer
  · exact hlayers l hl

theorem truth_boolean {layers : List Layer} (honly : OnlyNegates layers) (b : Bool) :
    truth layers (.boolean b) = (b != turns layers) := by
  induction layers generalizing b with
  | nil =>
      cases b with
      | _ =>
          rfl
  | cons layer layers ih =>
      have hrest : OnlyNegates layers := fun l hl => honly l (List.mem_cons_of_mem _ hl)
      rcases honly layer List.mem_cons_self with rfl | rfl
      · exact ih hrest b
      · show truth layers (.boolean (!b)) = (b != !turns layers)
        rw [ih hrest]
        cases b with
        | _ =>
            cases turns layers with
            | _ =>
                rfl

/-- Only negations keep two truth values apart. -/
theorem onlyNegates_of_boolean {layers : List Layer} (hformed : WellFormed false layers)
    {b b' : Bool} (htells : truth layers (.boolean b) ≠ truth layers (.boolean b')) :
    OnlyNegates layers := by
  induction layers generalizing b b' with
  | nil =>
      intro layer hlayer
      cases hlayer
  | cons layer layers ih =>
      cases layer with
      | paren =>
          exact (ih hformed htells).cons (Or.inl rfl)
      | not =>
          exact (ih hformed htells).cons (Or.inr rfl)
      | typeof =>
          exact absurd rfl htells
      | absence c a =>
          refine absurd ?_ htells
          show truth layers (.boolean (a.equals c.isStrict (.boolean b) == c.equality)) =
            truth layers (.boolean (a.equals c.isStrict (.boolean b') == c.equality))
          rw [Absent.equals_boolean, Absent.equals_boolean]
      | type c name isPlain =>
          exact nomatch hformed.1

/-- A condition that tells an absent value from a present one by its type compares the
type, and what follows only negates. -/
theorem contextWithin_of_names {layers : List Layer} (hformed : WellFormed true layers)
    {name : String} (hname : name ≠ "")
    (htells : truth layers (.string "undefined") ≠ truth layers (.string name)) (site : Site) :
    layers.any Layer.isComparison = true ∧
      contextWithin site false layers =
        .test (truth layers (.string "undefined") != flips layers) := by
  induction layers with
  | nil =>
      refine absurd ?_ htells
      show true = (name != "")
      simp [hname]
  | cons layer layers ih =>
      cases layer with
      | paren =>
          exact ih hformed htells
      | not =>
          refine absurd ?_ htells
          show truth layers (.boolean false) = truth layers (.boolean (!(name != "")))
          rw [bne_iff_ne.mpr hname]
          rfl
      | typeof =>
          exact absurd rfl htells
      | absence c a =>
          refine absurd ?_ htells
          show truth layers (.boolean (a.equals c.isStrict (.string "undefined") == c.equality)) =
            truth layers (.boolean (a.equals c.isStrict (.string name) == c.equality))
          rw [Absent.equals_string, Absent.equals_string]
      | type c asked isPlain =>
          have honly := onlyNegates_of_boolean hformed.2 htells
          have htruth : truth (.type c asked isPlain :: layers) (.string "undefined") =
              (((asked == "undefined") == c.equality) != turns layers) := by
            have hsame : (Value.string "undefined" == .string asked) = (asked == "undefined") := by
              rw [Bool.eq_iff_iff, beq_iff_eq, beq_iff_eq, Value.string.injEq, eq_comm]
            rw [← truth_boolean honly, ← hsame]
            rfl
          refine ⟨rfl, ?_⟩
          rw [htruth]
          show Context.test (false != ((isPlain && asked == "undefined") == c.equality)) = .test
            ((((asked == "undefined") == c.equality) != turns layers) !=
              (turns layers != (!isPlain && asked == "undefined")))
          congr 1
          generalize (asked == "undefined") = isAsked
          cases isPlain <;> cases isAsked <;> cases c.equality <;> cases turns layers <;> rfl

/-- A condition that tells an absent value from a present one either only negates, or goes
by the innermost comparison. -/
theorem contextWithin_of_tells {layers : List Layer} (hformed : WellFormed false layers)
    {v : Value} (hv : v.IsPresent) (htells : truth layers .undefined ≠ truth layers v)
    (site : Site) :
    (OnlyNegates layers ∧ truth layers .undefined = turns layers) ∨
      (layers.any Layer.isComparison = true ∧
        contextWithin site false layers = .test (truth layers .undefined != flips layers)) := by
  induction layers with
  | nil =>
      left
      refine ⟨?_, rfl⟩
      intro layer hlayer
      cases hlayer
  | cons layer layers ih =>
      cases layer with
      | paren =>
          rcases ih hformed htells with ⟨honly, htruth⟩ | hcompared
          · exact Or.inl ⟨honly.cons (Or.inl rfl), htruth⟩
          · exact Or.inr hcompared
      | not =>
          left
          have hrest : WellFormed false layers := hformed
          have honly := onlyNegates_of_boolean hrest htells
          refine ⟨honly.cons (Or.inr rfl), ?_⟩
          show truth layers (.boolean true) = !turns layers
          rw [truth_boolean honly, Bool.true_bne]
      | typeof =>
          right
          exact contextWithin_of_names hformed v.typeName_ne_empty htells site
      | absence c a =>
          right
          have hrest : WellFormed false layers := hformed
          have honly := onlyNegates_of_boolean hrest htells
          have hequal : a.equals c.isStrict .undefined = true := by
            by_contra hnot
            refine htells ?_
            show truth layers (.boolean (a.equals c.isStrict .undefined == c.equality)) =
              truth layers (.boolean (a.equals c.isStrict v == c.equality))
            rw [Absent.equals_of_isPresent a _ hv, Bool.eq_false_iff.mpr hnot]
          have htruth : truth (.absence c a :: layers) .undefined =
              (c.equality != turns layers) := by
            show truth layers (.boolean (a.equals c.isStrict .undefined == c.equality)) = _
            rw [truth_boolean honly, hequal, Bool.true_beq]
          refine ⟨rfl, ?_⟩
          rw [htruth]
          show Context.test (false != c.equality) =
            .test ((c.equality != turns layers) != turns layers)
          cases c.equality <;> cases turns layers <;> rfl
      | type c name isPlain =>
          exact nomatch hformed.1

theorem contextWithin_of_comparison {layers : List Layer}
    (hcompares : layers.any Layer.isComparison = true) (site : Site) (negated : Bool) :
    exists b, contextWithin site negated layers = .test b := by
  induction layers generalizing negated with
  | nil =>
      cases hcompares
  | cons layer layers ih =>
      cases layer with
      | paren =>
          exact ih hcompares negated
      | not =>
          exact ih hcompares (!negated)
      | typeof =>
          exact ih hcompares negated
      | absence c a =>
          exact ⟨_, rfl⟩
      | type c name isPlain =>
          exact ⟨_, rfl⟩

theorem contextWithin_of_no_comparison {layers : List Layer}
    (hcompares : layers.any Layer.isComparison = false) (site : Site) (negated : Bool) :
    contextWithin site negated layers = site.context (negated != turns layers) := by
  induction layers generalizing negated with
  | nil =>
      show site.context negated = site.context (negated != false)
      rw [Bool.bne_false]
  | cons layer layers ih =>
      cases layer with
      | paren =>
          exact ih hcompares negated
      | not =>
          have hturned : ((!negated) != turns layers) = (negated != !turns layers) := by
            cases negated <;> cases turns layers <;> rfl
          show contextWithin site (!negated) layers = site.context (negated != !turns layers)
          rw [ih hcompares, hturned]
      | typeof =>
          exact ih hcompares negated
      | absence c a =>
          cases hcompares
      | type c name isPlain =>
          cases hcompares

theorem turns_of_bare {layers : List Layer} (hbare : Bare layers) : turns layers = false := by
  induction layers with
  | nil =>
      rfl
  | cons layer layers ih =>
      rw [hbare layer List.mem_cons_self]
      exact ih fun l hl => hbare l (List.mem_cons_of_mem _ hl)

theorem no_comparison_of_onlyNegates {layers : List Layer} (honly : OnlyNegates layers) :
    layers.any Layer.isComparison = false := by
  rw [List.any_eq_false]
  intro layer hlayer
  rcases honly layer hlayer with rfl | rfl
  · exact Bool.false_ne_true
  · exact Bool.false_ne_true

theorem Site.context_eq_fallback_iff (site : Site) (negated : Bool) :
    site.context negated = .fallback <-> site = .disjunction := by
  cases site with
  | _ =>
      simp [Site.context]

theorem flips_of_onlyNegates {layers : List Layer} (honly : OnlyNegates layers) :
    flips layers = false := by
  induction layers with
  | nil =>
      rfl
  | cons layer layers ih =>
      have hrest := ih fun l hl => honly l (List.mem_cons_of_mem _ hl)
      rcases honly layer List.mem_cons_self with rfl | rfl
      · exact hrest
      · exact hrest

theorem Fits.context_eq {site : Site} {layers : List Layer} {context : Context}
    (hfits : Fits site layers context) {v : Value} (hv : v.IsPresent)
    (htells : truth layers .undefined ≠ truth layers v) :
    context = .test (truth layers .undefined) ∨
      (context = .fallback ∧ site = .disjunction ∧ Bare layers) := by
  cases habsent : truth layers .undefined with
  | true =>
      rw [habsent] at htells
      exact Or.inl (hfits.negated v hv habsent (Bool.eq_false_of_not_eq_true htells.symm))
  | false =>
      rw [habsent] at htells
      exact hfits.positive v hv habsent (Bool.eq_true_of_not_eq_false htells.symm)

/-- What going up finds is right unless a condition without a comparison, other than the value
itself, is the left side of a disjunction, or a comparison that tells absent values from
present ones is turned over. -/
theorem fits_contextWithin_iff {layers : List Layer} (hformed : WellFormed false layers)
    (site : Site) :
    Fits site layers (contextWithin site false layers) <->
      (site = .disjunction -> layers.any Layer.isComparison = true ∨ Bare layers) ∧
        ((exists v : Value, v.IsPresent ∧ truth layers .undefined ≠ truth layers v) ->
          flips layers = false) := by
  constructor
  · intro hfits
    constructor
    · intro hsite
      cases hcompares : layers.any Layer.isComparison with
      | true =>
          exact Or.inl rfl
      | false =>
          right
          apply hfits.fallback
          rw [contextWithin_of_no_comparison hcompares, Site.context_eq_fallback_iff]
          exact hsite
    · rintro ⟨v, hv, htells⟩
      rcases contextWithin_of_tells hformed hv htells site with ⟨honly, _⟩ | ⟨_, hcontext⟩
      · exact flips_of_onlyNegates honly
      · rw [hcontext] at hfits
        rcases hfits.context_eq hv htells with htest | ⟨hfallback, _⟩
        · rw [Context.test.injEq] at htest
          revert htest
          cases truth layers .undefined <;> cases flips layers <;> simp
        · cases hfallback
  · rintro ⟨hdisjunction, hflips⟩
    -- the context by the way in which the condition tells absent values
    have htold : forall v : Value, v.IsPresent -> truth layers .undefined ≠ truth layers v ->
        contextWithin site false layers = .test (truth layers .undefined) ∨
          (contextWithin site false layers = .fallback ∧ site = .disjunction ∧ Bare layers ∧
            truth layers .undefined = false) := by
      intro v hv htells
      rcases contextWithin_of_tells hformed hv htells site with ⟨honly, htruth⟩ | ⟨_, hcontext⟩
      · have hcompares := no_comparison_of_onlyNegates honly
        have hcontext := contextWithin_of_no_comparison hcompares site false
        rw [Bool.false_bne, ← htruth] at hcontext
        cases site with
        | disjunction =>
            rcases hdisjunction rfl with hcompared | hbare
            · rw [hcompares] at hcompared
              cases hcompared
            · exact Or.inr ⟨hcontext, rfl, hbare, htruth.trans (turns_of_bare hbare)⟩
        | condition =>
            exact Or.inl hcontext
        | conjunction =>
            exact Or.inl hcontext
      · rw [hflips ⟨v, hv, htells⟩, Bool.bne_false] at hcontext
        exact Or.inl hcontext
    constructor
    · intro v hv habsent hpresent
      rcases htold v hv (by rw [habsent, hpresent]; decide) with htest | ⟨_, _, _, hfalse⟩
      · rw [htest, habsent]
      · rw [habsent] at hfalse
        cases hfalse
    · intro v hv habsent hpresent
      rcases htold v hv (by rw [habsent, hpresent]; decide) with
        htest | ⟨hfallback, hsite, hbare, _⟩
      · rw [htest, habsent]
        exact Or.inl rfl
      · exact Or.inr ⟨hfallback, hsite, hbare⟩
    · intro hfallback
      cases hcompares : layers.any Layer.isComparison with
      | true =>
          rcases contextWithin_of_comparison hcompares site false with ⟨b, htest⟩
          rw [htest] at hfallback
          cases hfallback
      | false =>
          rw [contextWithin_of_no_comparison hcompares, Site.context_eq_fallback_iff] at hfallback
          rcases hdisjunction hfallback with hcompared | hbare
          · rw [hcompares] at hcompared
            cases hcompared
          · exact hbare

/-- The context of a place is that of the condition around it exactly if the condition
compares the value, or is the value itself, where it is the left side of a disjunction, and is
not turned over after a comparison that tells absent values from present ones. -/
theorem contextOf_fits_iff {place : Cursor} {site : Site} {layers : List Layer}
    (hoccurs : Occurs site layers place.node place.above) (hformed : WellFormed false layers) :
    Fits site layers (contextOf place) <->
      (site = .disjunction -> layers.any Layer.isComparison = true ∨ Bare layers) ∧
        ((exists v : Value, v.IsPresent ∧ truth layers .undefined ≠ truth layers v) ->
          flips layers = false) := by
  have hcontext : contextOf place = contextWithin site false layers :=
    contextFrom_of_occurs hoccurs hformed (fun h => nomatch h) false
  rw [hcontext]
  exact fits_contextWithin_iff hformed site

def placeOf? (program : Node) (text : String) : Option Cursor :=
  program.functions.head?.bind fun f =>
    (walk (fun found c => (found ++ [c], true)) [] f.body).find? fun c => c.node.text == text

def typedGuard : String :=
  "function f(d) \x7b if (!!(typeof d.a !== 'function') || d.b) return; \x7d"

def typedLayers : List Layer :=
  [.typeof, .type ⟨true, false⟩ "function" true, .paren, .not, .not]

theorem typedGuard_fits :
    exists program place, parseSource "h.js" typedGuard = .ok program ∧
      placeOf? program "d.a" = some place ∧
      Occurs .disjunction typedLayers place.node place.above ∧ WellFormed false typedLayers ∧
      Fits .disjunction typedLayers (contextOf place) ∧ contextOf place = .test true := by
  have hread : parsesTo "h.js" typedGuard (fun program => (placeOf? program "d.a").any
      fun place => decide (Occurs .disjunction typedLayers place.node place.above)) = true := by
    decide +kernel
  rcases exists_of_parsesTo hread with ⟨program, hparse, hprogram⟩
  rcases (Option.any_eq_true ..).mp hprogram with ⟨place, hplace, hdecide⟩
  have hoccurs := of_decide_eq_true hdecide
  have hformed : WellFormed false typedLayers := ⟨rfl, trivial⟩
  have hfits := (contextOf_fits_iff hoccurs hformed).mpr ⟨fun _ => Or.inl rfl, fun _ => rfl⟩
  refine ⟨program, place, hparse, hplace, hoccurs, hformed, hfits, ?_⟩
  apply hfits.negated .function
  · exact ⟨by simp, by simp⟩
  · rfl
  · rfl

def negatedGuard : String :=
  "export function onDrop(d) \x7b if (!d.a || d.b) return; \x7d"

/-- A negation on the left side of a disjunction is taken for a fallback: the property that
it guards is listed as one that the handler can do without. -/
theorem negatedGuard_fallback :
    exists program place, parseSource "h.js" negatedGuard = .ok program ∧
      placeOf? program "d.a" = some place ∧ Occurs .disjunction [.not] place.node place.above ∧
      truth [.not] .undefined = true ∧ truth [.not] .object = false ∧
      contextOf place = .fallback ∧ ¬ Fits .disjunction [.not] (contextOf place) ∧
      (contracts ["on"] [] "h.js" program).map (fun c =>
        (c.requiredProperties.map (·.name), c.optionalProperties.map (·.name))) =
        [(["b"], ["a"])] := by
  have hread : parsesTo "h.js" negatedGuard (fun program => (placeOf? program "d.a").any
      fun place => decide (Occurs .disjunction [.not] place.node place.above ∧
        contextOf place = .fallback ∧
        (contracts ["on"] [] "h.js" program).map (fun c =>
          (c.requiredProperties.map (·.name), c.optionalProperties.map (·.name))) =
          [(["b"], ["a"])])) = true := by
    decide +kernel
  rcases exists_of_parsesTo hread with ⟨program, hparse, hprogram⟩
  rcases (Option.any_eq_true ..).mp hprogram with ⟨place, hplace, hdecide⟩
  rcases of_decide_eq_true hdecide with ⟨hoccurs, hfallback, hcontract⟩
  refine ⟨program, place, hparse, hplace, hoccurs, rfl, rfl, hfallback, ?_, hcontract⟩
  intro hfits
  cases hfits.fallback hfallback .not List.mem_cons_self

end Consumer
end PayloadFlow
