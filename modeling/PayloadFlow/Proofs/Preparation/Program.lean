import Mathlib.Data.List.Forall2
import PayloadFlow.EventName
import PayloadFlow.Extract.Broker.Routine
import PayloadFlow.Proofs.Walk
import PayloadFlow.Script.Chain

/-!
# Prepare routines as programs

A prepare routine that asks for the event in chains of `if` and returns object literals
is a small program: run on an event and a payload, it gives an object.
-/

namespace PayloadFlow
namespace Broker

open Script

/-!
# Programs and their runs
-/

inductive Guard where
  | is (text : String)
  | oneOf (texts : List String)
  | either (left right : Guard)
  deriving DecidableEq, Repr

namespace Guard

/-- Whether a condition holds; events are compared in their common spelling. -/
def accepts (event : String) : Guard -> Bool
  | is text => EventName.normalize text == EventName.normalize event
  | oneOf texts => texts.any fun text => EventName.normalize text == EventName.normalize event
  | either left right => left.accepts event || right.accepts event

end Guard

/-- An entry of an object literal: a key with some value, or the payload spread. -/
inductive Item where
  | key (name : String)
  | payload
  deriving DecidableEq, Repr

namespace Item

def keys (payload : List String) : Item -> List String
  | key name => [name]
  | .payload => payload

end Item

structure Branch where
  guard : Guard
  reply : List Item
  deriving DecidableEq, Repr

def chainReply? (event : String) : List Branch -> Option (List Item)
  | [] => none
  | branch :: rest =>
      if branch.guard.accepts event then some branch.reply else chainReply? event rest

/-- Chains of branches, one after the other, and a reply at the end. -/
structure Preparation where
  chains : List (List Branch)
  last : List Item
  deriving DecidableEq, Repr

namespace Preparation

def reply (prep : Preparation) (event : String) : List Item :=
  (prep.chains.findSome? (chainReply? event)).getD prep.last

/-- The keys of the object that a run gives, for the keys of a payload. -/
def run (prep : Preparation) (event : String) (payload : List String) : List String :=
  (prep.reply event).flatMap (Item.keys payload)

def replies (prep : Preparation) : List (List Item) :=
  prep.chains.flatten.map Branch.reply ++ [prep.last]

end Preparation

/-!
# How programs are written
-/

/-- A string literal that holds a text, without escapes. -/
def IsText (text : String) (n : Node) : Prop :=
  n.unwrap.kind = .string ∧ '\\' ∉ text.toList ∧
    exists quote, quote ∈ ['"', '\x27'] ∧
      n.unwrap.text = String.ofList (quote :: (text.toList ++ [quote]))

def IsName (name : String) (n : Node) : Prop :=
  n.unwrap.kind = .identifier ∧ n.unwrap.text = name

namespace Guard

def IsEquality (event text : String) (left right : Node) : Prop :=
  (IsName event left ∧ IsText text right) ∨ (IsText text left ∧ IsName event right)

def IsWritten (event : String) : Guard -> Node -> Prop
  | is text, n =>
      n.unwrap.kind = .binaryExpression ∧
        n.unwrap.operator? ∈ [some "===", some "=="] ∧
        exists left, left ∈ n.unwrap.child? .left ∧
          exists right, right ∈ n.unwrap.child? .right ∧ IsEquality event text left right
  | oneOf texts, n =>
      n.unwrap.kind = .callExpression ∧ texts ≠ [] ∧
        (exists function, function ∈ n.unwrap.child? .function ∧
          function.unwrap.kind = .memberExpression ∧
          (exists list, list ∈ function.unwrap.child? .object ∧
            list.unwrap.kind = .array ∧ List.Forall₂ IsText texts list.unwrap.parts) ∧
          exists property, property ∈ function.unwrap.child? .property ∧
            property.text = "includes") ∧
        List.Forall₂ IsName [event] n.unwrap.callArguments
  | either left right, n =>
      n.unwrap.kind = .binaryExpression ∧ n.unwrap.operator? = some "||" ∧
        (exists l, l ∈ n.unwrap.child? .left ∧ IsWritten event left l) ∧
        exists r, r ∈ n.unwrap.child? .right ∧ IsWritten event right r

end Guard

namespace Item

def IsNumeral (text : String) : Prop :=
  text.length ≤ 15 ∧ text ≠ "" ∧ (text.toList.all Char.isDigit) = true ∧
    (text.toList.head? = some '0' -> text = "0")

def IsKey (name : String) (n : Node) : Prop :=
  (n.kind = .propertyIdentifier ∧ n.text = name) ∨ IsText name n ∨
    (n.kind = .number ∧ n.text = name ∧ IsNumeral name)

def IsWritten (payload : String) : Item -> Node -> Prop
  | key name, n =>
      '\\' ∉ name.toList ∧
        ((n.kind = .pair ∧ (exists k, k ∈ n.child? .key ∧ IsKey name k) ∧
            (n.child? .value).isSome = true) ∨
          (n.kind = .shorthandProperty ∧ n.text = name) ∨
          (n.kind = .methodDefinition ∧
            exists k, k ∈ n.child? .name ∧ k.kind = .propertyIdentifier ∧ k.text = name))
  | .payload, n =>
      n.kind = .spreadElement ∧ exists argument, argument ∈ n.firstNamed? ∧ IsName payload argument

end Item

def soleReturn? (n : Node) : Option Node :=
  match n.kind with
  | .returnStatement => some n
  | .statementBlock =>
      match _ : n.parts with
      | [statement] => soleReturn? statement
      | _ => none
  | _ => none
termination_by sizeOf n
decreasing_by exact Node.sizeOf_lt_of_mem_parts (by simp [*])

def Returns (payload : String) (reply : List Item) (ret : Node) : Prop :=
  exists value, value ∈ ret.firstNamed? ∧ value.unwrap.kind = .object ∧
    List.Forall₂ (Item.IsWritten payload) reply value.unwrap.parts

def IsChain (event payload : String) : List Branch -> Node -> Prop
  | [], _ => False
  | branch :: rest, n =>
      n.kind = .ifStatement ∧
        (exists condition, condition ∈ n.child? .condition ∧
          branch.guard.IsWritten event condition) ∧
        (exists consequence, consequence ∈ n.child? .consequence ∧
          exists ret, ret ∈ soleReturn? consequence ∧ Returns payload branch.reply ret) ∧
        match rest with
        | [] => n.child? .alternative = none
        | next :: others =>
            exists alternative, alternative ∈ n.child? .alternative ∧
              alternative.kind = .elseClause ∧
              exists inner, inner ∈ alternative.parts.head? ∧
                IsChain event payload (next :: others) inner

/-- A routine is a program for an event and a payload of given names. -/
structure Routine.IsProgram (r : Routine) (event payload : String) (prep : Preparation) : Prop where
  eventParam : r.eventParam = some event
  payloadParam : r.payloadParam = some payload
  /-- the event has a name, not a quoted text -/
  unquoted : '"' ∉ event.toList ∧ '\x27' ∉ event.toList
  block : r.body.kind = .statementBlock
  chains : List.Forall₂ (IsChain event payload) prep.chains r.body.parts.dropLast
  last : exists ret, ret ∈ r.body.parts.getLast? ∧ ret.kind = .returnStatement ∧
    Returns payload prep.last ret

/-- No object literal is declared under a name in a construct. -/
def Unhidden (name : String) (n : Node) : Prop :=
  forall m, m ∈ n.nodes ->
    forall value, value ∈ m.declaredValue? name -> value.unwrap.kind ≠ .object

/-!
# Whether a tree is a program can be decided
-/

instance (text : String) (n : Node) : Decidable (IsText text n) :=
  -- the two quotes are tried, not all characters
  have : Decidable (exists quote, quote ∈ ['"', '\x27'] ∧
      n.unwrap.text = String.ofList (quote :: (text.toList ++ [quote]))) := List.decidableBEx _ _
  inferInstanceAs (Decidable (_ ∧ _ ∧ _))

instance (name : String) (n : Node) : Decidable (IsName name n) :=
  inferInstanceAs (Decidable (_ ∧ _))

instance (event text : String) (left right : Node) :
    Decidable (Guard.IsEquality event text left right) :=
  inferInstanceAs (Decidable (_ ∨ _))

namespace Guard

def decideWritten (event : String) : (guard : Guard) -> (n : Node) ->
    Decidable (guard.IsWritten event n)
  | is _, _ => inferInstanceAs (Decidable (_ ∧ _ ∧ _))
  | oneOf _, _ => inferInstanceAs (Decidable (_ ∧ _ ∧ _ ∧ _))
  | either left right, _ =>
      have := decideWritten event left
      have := decideWritten event right
      inferInstanceAs (Decidable (_ ∧ _ ∧ _ ∧ _))

instance (event : String) (guard : Guard) (n : Node) : Decidable (guard.IsWritten event n) :=
  decideWritten event guard n

end Guard

namespace Item

instance (text : String) : Decidable (IsNumeral text) :=
  inferInstanceAs (Decidable (_ ∧ _))

instance (name : String) (n : Node) : Decidable (IsKey name n) :=
  inferInstanceAs (Decidable (_ ∨ _))

instance (payload : String) : (item : Item) -> (n : Node) -> Decidable (item.IsWritten payload n)
  | key _, _ => inferInstanceAs (Decidable (_ ∧ _))
  | .payload, _ => inferInstanceAs (Decidable (_ ∧ _))

end Item

instance (payload : String) (reply : List Item) (ret : Node) :
    Decidable (Returns payload reply ret) :=
  inferInstanceAs (Decidable (exists value, value ∈ ret.firstNamed? ∧ _))

def decideChain (event payload : String) : (chain : List Branch) -> (n : Node) ->
    Decidable (IsChain event payload chain n)
  | [], _ => inferInstanceAs (Decidable False)
  | [_], _ => inferInstanceAs (Decidable (_ ∧ _ ∧ _ ∧ _))
  | _ :: next :: others, _ =>
      have := decideChain event payload (next :: others)
      inferInstanceAs (Decidable (_ ∧ _ ∧ _ ∧ _))

instance (event payload : String) (chain : List Branch) (n : Node) :
    Decidable (IsChain event payload chain n) :=
  decideChain event payload chain n

instance (name : String) (n : Node) : Decidable (Unhidden name n) :=
  inferInstanceAs (Decidable (forall m, m ∈ n.nodes -> _))

namespace Routine

theorem isProgram_iff (r : Routine) (event payload : String) (prep : Preparation) :
    r.IsProgram event payload prep <->
      r.eventParam = some event ∧ r.payloadParam = some payload ∧
        ('"' ∉ event.toList ∧ '\x27' ∉ event.toList) ∧ r.body.kind = .statementBlock ∧
        List.Forall₂ (IsChain event payload) prep.chains r.body.parts.dropLast ∧
        exists ret, ret ∈ r.body.parts.getLast? ∧ ret.kind = .returnStatement ∧
          Returns payload prep.last ret := by
  constructor
  · rintro ⟨hevent, hpayload, hunquoted, hblock, hchains, hlast⟩
    exact ⟨hevent, hpayload, hunquoted, hblock, hchains, hlast⟩
  · rintro ⟨hevent, hpayload, hunquoted, hblock, hchains, hlast⟩
    exact ⟨hevent, hpayload, hunquoted, hblock, hchains, hlast⟩

instance (r : Routine) (event payload : String) (prep : Preparation) :
    Decidable (r.IsProgram event payload prep) :=
  decidable_of_iff _ (isProgram_iff r event payload prep).symm

end Routine

end Broker
end PayloadFlow
