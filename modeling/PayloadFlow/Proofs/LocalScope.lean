import PayloadFlow.Extract.Producer
import PayloadFlow.Proofs.Preparation.Branches

/-!
# Variables of a block

A name that the statements of a block declare is looked up among all declarations below the
block, in source order.  The variable of the block itself is found, unless an inner block or
function before it declares the name as well.
-/

namespace PayloadFlow
namespace Script
namespace Node

def isDeclaration (n : Node) : Bool :=
  n.kind == .lexicalDeclaration || n.kind == .variableDeclaration

/-- The value that a block itself gives to a name, by a declaration among its statements. -/
def ownValue? (block : Node) (name : String) : Option Node :=
  ((block.parts.filter isDeclaration).flatMap parts).findSome? (declaredValue? name)

def declares (name : String) (statement : Node) : Bool :=
  statement.isDeclaration && statement.parts.any fun v => (v.declaredValue? name).isSome

/-- What comes before a variable of a block: all below the statements before its declaration,
and below the variables before it in the declaration. -/
def ahead (block : Node) (name : String) : List Node :=
  (block.parts.takeWhile fun s => !s.declares name).flatMap nodes ++
    ((block.parts.find? fun s => s.declares name).map fun declaration =>
      (declaration.parts.takeWhile fun v => (v.declaredValue? name).isNone).flatMap nodes).getD []

/-- The first value that anything before a variable of a block gives to its name. -/
def valueAhead? (block : Node) (name : String) : Option Node :=
  (block.ahead name).findSome? (declaredValue? name)

/-!
# Where a variable is found
-/

theorem declaredValue?_eq_none {n : Node} (hkind : n.kind ≠ .variableDeclarator) (name : String) :
    n.declaredValue? name = none := by
  unfold declaredValue?
  rw [if_neg (by simpa using hkind)]

theorem kind_ne_of_isDeclaration {n : Node} (h : n.isDeclaration = true) :
    n.kind ≠ .variableDeclarator := by
  intro hkind
  unfold isDeclaration at h
  rw [hkind] at h
  cases h

theorem declares_of_mem {name : String} {declaration v value : Node}
    (hdeclaration : declaration.isDeclaration = true) (hv : v ∈ declaration.parts)
    (hvalue : v.declaredValue? name = some value) : declaration.declares name = true := by
  unfold declares
  rw [hdeclaration, Bool.true_and, List.any_eq_true]
  exact ⟨v, hv, by rw [hvalue]; rfl⟩

theorem findSome?_declarations {name : String} {statements : List Node}
    (hnone : forall s, s ∈ statements -> s.declares name = false) :
    ((statements.filter isDeclaration).flatMap parts).findSome? (declaredValue? name) = none := by
  rw [List.findSome?_eq_none_iff]
  intro v hv
  rcases List.mem_flatMap.mp hv with ⟨s, hs, hvs⟩
  rcases List.mem_filter.mp hs with ⟨hmem, hdeclaration⟩
  cases hvalue : v.declaredValue? name with
  | none =>
      rfl
  | some value =>
      have hdeclares := declares_of_mem hdeclaration hvs hvalue
      rw [hnone s hmem] at hdeclares
      cases hdeclares

/-- The place of the first variable of a name among the statements of a block. -/
inductive Declared (block : Node) (name : String) (value : Node) : Prop where
  | mk {before after earlier later : List Node} {declaration v : Node}
      (hparts : block.parts = before ++ declaration :: after)
      (hbefore : forall s, s ∈ before -> s.declares name = false)
      (hdeclaration : declaration.isDeclaration = true)
      (hvariables : declaration.parts = earlier ++ v :: later)
      (hearlier : forall u, u ∈ earlier -> u.declaredValue? name = none)
      (hvalue : v.declaredValue? name = some value)

theorem declared_of_ownValue? {block value : Node} {name : String}
    (hown : block.ownValue? name = some value) : Declared block name value := by
  unfold ownValue? at hown
  cases hfound : block.parts.find? fun s => s.declares name with
  | none =>
      have hnone : forall s, s ∈ block.parts -> s.declares name = false :=
        fun s hs => by simpa using List.find?_eq_none.mp hfound s hs
      rw [findSome?_declarations hnone] at hown
      cases hown
  | some declaration =>
      rcases List.find?_eq_some_iff_append.mp hfound with
        ⟨hdeclares, before, after, hparts, hbefore⟩
      have hnone : forall s, s ∈ before -> s.declares name = false :=
        fun s hs => by simpa using hbefore s hs
      rcases Bool.and_eq_true_iff.mp hdeclares with ⟨hdeclaration, hany⟩
      rcases List.any_eq_true.mp hany with ⟨u, hu, hsome⟩
      cases hfirst : declaration.parts.find? fun v => (v.declaredValue? name).isSome with
      | none =>
          exact absurd hsome (List.find?_eq_none.mp hfirst u hu)
      | some v =>
          rcases List.find?_eq_some_iff_append.mp hfirst with
            ⟨hv, earlier, later, hvariables, hearlier⟩
          have hempty : forall u, u ∈ earlier -> u.declaredValue? name = none :=
            fun u hu => by simpa using hearlier u hu
          refine .mk hparts hnone hdeclaration hvariables hempty ?_
          rcases Option.isSome_iff_exists.mp hv with ⟨found, hfound⟩
          rw [hparts, List.filter_append, List.filter_cons_of_pos hdeclaration,
            List.flatMap_append, List.flatMap_cons, List.findSome?_append, List.findSome?_append,
            findSome?_declarations hnone, Option.none_or, hvariables, List.findSome?_append,
            List.findSome?_eq_none_iff.mpr hempty, Option.none_or, List.findSome?_cons,
            hfound] at hown
          rw [hfound]
          exact hown

section

variable {block value declaration v : Node} {name : String} {before after earlier later : List Node}

theorem ahead_eq (hparts : block.parts = before ++ declaration :: after)
    (hbefore : forall s, s ∈ before -> s.declares name = false)
    (hdeclares : declaration.declares name = true)
    (hvariables : declaration.parts = earlier ++ v :: later)
    (hearlier : forall u, u ∈ earlier -> u.declaredValue? name = none)
    (hvalue : v.declaredValue? name = some value) :
    block.ahead name = before.flatMap nodes ++ earlier.flatMap nodes := by
  have hfound : block.parts.find? (fun s => s.declares name) = some declaration := by
    rw [hparts, List.find?_append, List.find?_eq_none.mpr (fun s hs => by simp [hbefore s hs]),
      Option.none_or, List.find?_cons_of_pos hdeclares]
  unfold ahead
  rw [hfound, hparts, List.takeWhile_append_of_pos (fun s hs => by simp [hbefore s hs]),
    List.takeWhile_cons_of_neg (by simp [hdeclares]), List.append_nil, Option.map_some,
    Option.getD_some, hvariables,
    List.takeWhile_append_of_pos (fun u hu => by simp [hearlier u hu]),
    List.takeWhile_cons_of_neg (by simp [hvalue]), List.append_nil]

/-- A name of a block is found at its first declaration in source order. -/
theorem localValue?_of_ownValue? (hblock : block.kind = .statementBlock)
    (hown : block.ownValue? name = some value) :
    block.localValue? name = some ((block.valueAhead? name).getD value) := by
  rcases declared_of_ownValue? hown with
    @⟨before, after, earlier, later, declaration, v, hparts, hbefore, hdeclaration, hvariables,
      hearlier, hvalue⟩
  have hdeclares : declaration.declares name = true :=
    declares_of_mem hdeclaration (hvariables ▸ List.mem_append_right _ List.mem_cons_self) hvalue
  -- neither the block nor the declaration is a variable itself
  have hblock' : block.declaredValue? name = none :=
    declaredValue?_eq_none (by rw [hblock]; decide) name
  have hdeclaration' : declaration.declaredValue? name = none :=
    declaredValue?_eq_none (kind_ne_of_isDeclaration hdeclaration) name
  rw [localValue?_eq, valueAhead?, ahead_eq hparts hbefore hdeclares hvariables hearlier hvalue,
    nodes_eq, hparts, List.findSome?_cons, hblock', List.flatMap_append, List.flatMap_cons,
    nodes_eq declaration, hvariables, List.cons_append, List.flatMap_append, List.flatMap_cons,
    nodes_eq v]
  simp only [List.findSome?_append, List.findSome?_cons, List.append_assoc, List.cons_append,
    hdeclaration', hvalue]
  cases (before.flatMap nodes).findSome? (declaredValue? name) with
  | some first =>
      rfl
  | none =>
      cases (earlier.flatMap nodes).findSome? (declaredValue? name) with
      | some first =>
          rfl
      | none =>
          rfl

end

end Node
end Script

open Script

/-!
# Variables that a routine returns
-/

namespace Broker
namespace Routine

def ownReturn? (r : Routine) : Option Node :=
  (r.body.parts.filter fun s => s.kind == .returnStatement).getLast?

/-- A routine ends with the return of a variable that is one of its own and has an object
literal as its value. -/
structure ReturnsOwn (r : Routine) (name : String) (value ret : Node) : Prop where
  block : r.body.kind = .statementBlock
  last : r.ownReturn? = some ret
  returned : exists expression, expression ∈ ret.firstNamed? ∧ IsName name expression
  notPayload : r.payloadParam ≠ some name
  own : r.body.ownValue? name = some value
  object : value.unwrap.kind = .object

/-- The shape of a variable that is returned: that of its value, with what is assigned to it
for every event. -/
def shapeWith? (r : Routine) (name : String) (value : Node) : Option Shape :=
  (r.shapeOf? r.defaultScope innerDepth value).map (addAssignments r.defaultScope.statements name)

def fallThroughOf (r : Routine) (line : Nat) (shape : Shape) : BrokerTransformation :=
  r.transformation defaultEvent none shape (r.removedIn r.defaultScope) line

variable {r : Routine} {name : String} {value ret : Node}

theorem shapeWith?_of_object (hobject : value.unwrap.kind = .object) :
    r.shapeWith? name value = some (addAssignments r.defaultScope.statements name
      (Shape.addObject (r.mergeSource r.defaultScope (innerDepth - 1)) value.unwrap {})) := by
  show (r.shapeOf? r.defaultScope (innerDepth - 1 + 1) value).map _ = _
  rw [shapeOf?]
  simp only [hobject]
  rfl

theorem ReturnsOwn.finalReturn?_eq (h : r.ReturnsOwn name value ret) :
    r.finalReturn? = (r.shapeWith? name ((r.body.valueAhead? name).getD value)).map
      (r.fallThroughOf ret.line) := by
  rcases h.returned with ⟨expression, hexpression, hkind, htext⟩
  rw [Option.mem_def] at hexpression
  have hlocal : r.localValue? r.defaultScope name =
      some ((r.body.valueAhead? name).getD value) := by
    show (r.body.localValue? name).or _ = _
    rw [Node.localValue?_of_ownValue? h.block h.own]
    rfl
  have hparam : (r.payloadParam == some name) = false := by simpa using h.notPayload
  have hshape : r.returnShape? r.defaultScope ret =
      r.shapeWith? name ((r.body.valueAhead? name).getD value) := by
    unfold returnShape? shapeWith?
    rw [hexpression, Option.bind_eq_bind, Option.bind_some, resolveDepth_eq, shapeOf?]
    simp only [hkind, htext, hparam, hlocal, Bool.false_eq_true, if_false, Option.bind_eq_bind,
      Option.bind_some]
    cases r.shapeOf? r.defaultScope innerDepth ((r.body.valueAhead? name).getD value) with
    | none =>
        rfl
    | some shape =>
        rfl
  show r.ownReturn?.bind _ = _
  rw [h.last, Option.bind_some, hshape]
  cases r.shapeWith? name ((r.body.valueAhead? name).getD value) with
  | none =>
      rfl
  | some shape =>
      rfl

end Routine
end Broker

/-!
# Variables that a producer sends
-/

namespace Producer

/-- A producer passes a variable to the broker that is one of its own and has an object
literal as its value. -/
structure SendsOwn (entryPoints : List String) (f : FunctionNode) (name : String) (value : Node) :
    Prop where
  block : f.body.kind = .statementBlock
  sent : exists call, call ∈ brokerCall? entryPoints f.body ∧
    exists argument, argument ∈ call.callArguments[1]? ∧ Broker.IsName name argument
  own : f.body.ownValue? name = some value
  object : value.unwrap.kind = .object

def valueBindings (f : FunctionNode) (value : Node) : List PropertyBinding :=
  if value.unwrap.kind == .object then
    recordObject f.body ((parameters f).map (·.name)) spreadDepth value.unwrap []
  else []

theorem objectLiteral?_of_isName {scope value argument : Node} {name : String}
    (hname : Broker.IsName name argument) (hlocal : scope.localValue? name = some value) :
    objectLiteral? scope argument =
      if value.unwrap.kind == .object then some value.unwrap else none := by
  unfold objectLiteral?
  simp only [hname.1, hname.2, hlocal]

theorem SendsOwn.producedProperties_eq {entryPoints : List String}
    {table : List (String × String)} {path : String} {f : FunctionNode} {name : String}
    {value : Node} {c : ProducerContract} (h : SendsOwn entryPoints f name value)
    (hcontract : contract? entryPoints table path f = some c) :
    c.producedProperties = valueBindings f ((f.body.valueAhead? name).getD value) := by
  rcases h.sent with ⟨call, hcall, argument, hargument, hname⟩
  rw [Option.mem_def] at hcall hargument
  simp only [contract?, Option.bind_eq_bind, Option.bind_eq_some_iff, Option.some.injEq]
    at hcontract
  rcases hcontract with ⟨_, _, other, hother, _, _, _, _, rfl⟩
  cases hcall.symm.trans hother
  have hlocal := Node.localValue?_of_ownValue? h.block h.own
  show ((call.callArguments[1]?).map (payloadBindings f.body _)).getD [] = _
  rw [hargument, Option.map_some, Option.getD_some]
  unfold payloadBindings valueBindings
  rw [objectLiteral?_of_isName hname hlocal]
  by_cases hobject :
      (((f.body.valueAhead? name).getD value).unwrap.kind == .object) = true
  · rw [if_pos hobject, if_pos hobject]
  · rw [if_neg hobject, if_neg hobject]

end Producer

/-- The fall-through of a routine that returns a variable of its own, and the bindings of a
producer that sends one, come from the first declaration of the name in source order.  That is
the one of the block itself if no inner block or function before it declares the name. -/
theorem own_variables_resolved (prepareFunctions generators entryPoints : List String)
    (path : String) (program : Node) :
    (forall {r : Broker.Routine} {name : String} {value ret : Node},
      Broker.routine? prepareFunctions generators path program = some r ->
      r.ReturnsOwn name value ret ->
      (Broker.contracts prepareFunctions generators path program).find? (fun t => t.isDefault) =
          ((r.shapeWith? name ((r.body.valueAhead? name).getD value)).map
            (r.fallThroughOf ret.line)).or r.branches.fallback ∧
        (r.body.valueAhead? name = none ->
          (Broker.contracts prepareFunctions generators path program).find? (fun t => t.isDefault) =
            some (r.fallThroughOf ret.line
              (Broker.Routine.addAssignments r.defaultScope.statements name
                (Broker.Shape.addObject
                  (r.mergeSource r.defaultScope (Broker.Routine.innerDepth - 1))
                  value.unwrap {}))))) ∧
    (forall {f : FunctionNode} {name : String} {value : Node} {c : ProducerContract},
      f ∈ program.functions -> Producer.SendsOwn entryPoints f name value ->
      Producer.contract? entryPoints (Producer.constants program) path f = some c ->
      c ∈ Producer.contracts entryPoints path program ∧
        c.producedProperties =
          Producer.valueBindings f ((f.body.valueAhead? name).getD value) ∧
        (f.body.valueAhead? name = none -> c.producedProperties =
          Producer.recordObject f.body ((Producer.parameters f).map (·.name))
            Producer.spreadDepth value.unwrap [])) := by
  constructor
  · intro r name value ret hroutine h
    have hcontracts : Broker.contracts prepareFunctions generators path program =
        r.transformations := by
      unfold Broker.contracts
      rw [hroutine]
      rfl
    have hdefault := Broker.Routine.find?_isDefault_transformations h.block
    rw [Broker.Routine.fallThrough?, h.finalReturn?_eq, ← hcontracts] at hdefault
    refine ⟨hdefault, fun hahead => ?_⟩
    rw [hdefault, hahead, Option.getD_none, Broker.Routine.shapeWith?_of_object h.object]
    rfl
  · intro f name value c hf h hcontract
    have hproduced := h.producedProperties_eq hcontract
    refine ⟨List.mem_filterMap.mpr ⟨f, hf, hcontract⟩, hproduced, fun hahead => ?_⟩
    rw [hproduced, hahead, Option.getD_none, Producer.valueBindings, h.object]
    rfl

def shadowSource : String :=
  "function f(e, d) \x7b if (e === 'a') \x7b const o = \x7b x \x7d; return o; \x7d
  const o = \x7b ...d \x7d; return o; \x7d
export function g(x) \x7b const o = \x7b x \x7d; send('a', o); \x7d"

theorem shadow_read :
    exists program r value ret t f sent c, parseSource "f.js" shadowSource = .ok program ∧
      Broker.routine? ["f"] [] "f.js" program = some r ∧ r.ReturnsOwn "o" value ret ∧
      value.text = "\x7b ...d \x7d" ∧
      (Broker.contracts ["f"] [] "f.js" program).find? (fun t => t.isDefault) = some t ∧
      t.isSpecialCased = true ∧ t.mappedNames = ["x"] ∧
      f ∈ program.functions ∧ Producer.SendsOwn ["send"] f "o" sent ∧
      f.body.valueAhead? "o" = none ∧
      Producer.contract? ["send"] (Producer.constants program) "f.js" f = some c ∧
      c.propertyNames = ["x"] := by
  have hread : parsesTo "f.js" shadowSource (fun program =>
      ((Broker.routine? ["f"] [] "f.js" program).any fun r =>
        (r.body.ownValue? "o").any fun value => r.ownReturn?.any fun ret =>
          decide (r.body.kind = .statementBlock ∧
            (exists expression, expression ∈ ret.firstNamed? ∧ Broker.IsName "o" expression) ∧
            r.payloadParam ≠ some "o" ∧ value.unwrap.kind = .object ∧
            value.text = "\x7b ...d \x7d")) &&
      (((Broker.contracts ["f"] [] "f.js" program).find? fun t => t.isDefault).any fun t =>
        decide (t.isSpecialCased = true ∧ t.mappedNames = ["x"])) &&
      (program.functions.find? fun f => f.name == "g").any fun f =>
        (f.body.ownValue? "o").any fun sent =>
          (Producer.contract? ["send"] (Producer.constants program) "f.js" f).any fun c =>
            decide (f.body.kind = .statementBlock ∧
              (exists call, call ∈ Producer.brokerCall? ["send"] f.body ∧
                exists argument, argument ∈ call.callArguments[1]? ∧ Broker.IsName "o" argument) ∧
              sent.unwrap.kind = .object ∧ f.body.valueAhead? "o" = none ∧
              c.propertyNames = ["x"])) = true := by
    decide +kernel
  rcases exists_of_parsesTo hread with ⟨program, hparse, hprogram⟩
  rw [Bool.and_eq_true, Bool.and_eq_true] at hprogram
  rcases hprogram with ⟨⟨hbroker, hdefault⟩, hproducer⟩
  rcases (Option.any_eq_true ..).mp hbroker with ⟨r, hroutine, hr⟩
  rcases (Option.any_eq_true ..).mp hr with ⟨value, hvalue, hr⟩
  rcases (Option.any_eq_true ..).mp hr with ⟨ret, hret, hr⟩
  rcases of_decide_eq_true hr with ⟨hblock, hreturned, hparam, hobject, htext⟩
  rcases (Option.any_eq_true ..).mp hdefault with ⟨t, ht, hnames⟩
  rcases of_decide_eq_true hnames with ⟨hspecial, hmapped⟩
  rcases (Option.any_eq_true ..).mp hproducer with ⟨f, hfound, hf⟩
  rcases (Option.any_eq_true ..).mp hf with ⟨sent, hsent, hf⟩
  rcases (Option.any_eq_true ..).mp hf with ⟨c, hc, hf⟩
  rcases of_decide_eq_true hf with ⟨hbody, hcall, hliteral, hahead, hproperties⟩
  exact ⟨program, r, value, ret, t, f, sent, c, hparse, hroutine,
    ⟨hblock, hret, hreturned, hparam, hvalue, hobject⟩, htext, ht, hspecial, hmapped,
    List.mem_of_find?_eq_some hfound, ⟨hbody, hcall, hsent, hliteral⟩, hahead, hc, hproperties⟩

theorem shadow_resolved :
    exists program r value ret f sent c, parseSource "f.js" shadowSource = .ok program ∧
      Broker.routine? ["f"] [] "f.js" program = some r ∧ r.ReturnsOwn "o" value ret ∧
      (Broker.contracts ["f"] [] "f.js" program).find? (fun t => t.isDefault) =
        ((r.shapeWith? "o" ((r.body.valueAhead? "o").getD value)).map
          (r.fallThroughOf ret.line)).or r.branches.fallback ∧
      f ∈ program.functions ∧ Producer.SendsOwn ["send"] f "o" sent ∧
      c ∈ Producer.contracts ["send"] "f.js" program ∧ c.propertyNames = ["x"] ∧
      c.producedProperties = Producer.recordObject f.body
        ((Producer.parameters f).map (·.name)) Producer.spreadDepth sent.unwrap [] := by
  rcases shadow_read with ⟨program, r, value, ret, t, f, sent, c, hparse, hroutine, hreturns, _, _,
    _, _, hf, hsends, hahead, hcontract, hnames⟩
  rcases own_variables_resolved ["f"] [] ["send"] "f.js" program with ⟨hbroker, hproducer⟩
  rcases hproducer hf hsends hcontract with ⟨hmem, _, hproduced⟩
  exact ⟨program, r, value, ret, f, sent, c, hparse, hroutine, hreturns,
    (hbroker hroutine hreturns).1, hf, hsends, hmem, hnames, hproduced hahead⟩

/-- The variable of a branch takes the place of the one that is returned: the payload, spread
into the latter, gets lost for all events. -/
theorem shadow_misread :
    exists program r value ret t, parseSource "f.js" shadowSource = .ok program ∧
      Broker.routine? ["f"] [] "f.js" program = some r ∧ r.ReturnsOwn "o" value ret ∧
      value.text = "\x7b ...d \x7d" ∧
      (Broker.contracts ["f"] [] "f.js" program).find? (fun t => t.isDefault) = some t ∧
      t.isSpecialCased = true ∧ t.mappedNames = ["x"] := by
  rcases shadow_read with ⟨program, r, value, ret, t, _, _, _, hparse, hroutine, hreturns, htext,
    hdefault, hspecial, hmapped, _⟩
  exact ⟨program, r, value, ret, t, hparse, hroutine, hreturns, htext, hdefault, hspecial, hmapped⟩

end PayloadFlow
