import Mathlib.Data.Option.Basic
import PayloadFlow.Extract.Broker.Transformation
import PayloadFlow.Proofs.Preparation.Program
import PayloadFlow.Proofs.Simulation

/-!
# What is read from guards and replies

The events that are read from a guard are those that it accepts, and a transformation
with the shape of a returned literal lets through what the literal gives.
-/

namespace PayloadFlow
namespace Broker

open Script

/-!
# Guards

The events that are read from a guard are those that it accepts.
-/

namespace Routine

/-- How deep expressions inside a returned one are followed. -/
def innerDepth : Nat := resolveDepth - 1

theorem resolveDepth_eq : resolveDepth = innerDepth + 1 := rfl

/-- The events of a binary condition, by those of its operands. -/
def operandEvents (r : Routine) (operator : Option String) (left right : Node)
    (events others : Option (List String)) : Option (List String) :=
  match operator with
  | some "===" | some "==" => r.equalityEvents left right
  | some "||" =>
      match events, others with
      | some events, some others => some (unite events others)
      | _, _ => none
  | some "&&" => meet events others
  | _ => none

theorem guardEvents_eq (r : Routine) (condition : Node) :
    r.guardEvents condition =
      match condition.unwrap.kind with
      | .binaryExpression =>
          (condition.unwrap.child? .left).bind fun left =>
            (condition.unwrap.child? .right).bind fun right =>
              r.operandEvents condition.unwrap.operator? left right (r.guardEvents left)
                (r.guardEvents right)
      | .callExpression => r.inclusionEvents condition.unwrap
      | _ => none := by
  rw [guardEvents]
  cases condition.unwrap.kind with
  | binaryExpression =>
      dsimp only
      split
      · rename_i left right hleft hright
        rw [hleft, hright]
        rfl
      · rename_i hnone
        cases hleft : condition.unwrap.child? .left with
        | none =>
            rfl
        | some left =>
            cases hright : condition.unwrap.child? .right with
            | none =>
                rfl
            | some right =>
                cases hnone left right hleft hright
  | _ =>
      rfl

end Routine

theorem Guard.IsWritten.unwrap {event : String} {guard : Guard} {n : Node}
    (hguard : guard.IsWritten event n) : guard.IsWritten event n.unwrap := by
  cases guard with
  | is text =>
      simpa only [Guard.IsWritten, Node.unwrap_unwrap] using hguard
  | oneOf texts =>
      simpa only [Guard.IsWritten, Node.unwrap_unwrap] using hguard
  | either left right =>
      simpa only [Guard.IsWritten, Node.unwrap_unwrap] using hguard

theorem stringValue?_of_isText {text : String} {n : Node} (htext : IsText text n) :
    n.stringValue? = some text := by
  rcases htext with ⟨hkind, _, quote, _, hwritten⟩
  have hlength : ¬ n.unwrap.text.length < 2 := by
    rw [hwritten, String.length_ofList, List.length_cons, List.length_append, List.length_singleton]
    omega
  have hinside : n.unwrap.inside = text := by
    unfold Node.inside
    rw [hwritten]
    simp
  unfold Node.stringValue?
  simp only [hkind]
  rw [if_neg hlength, hinside]

def plainText? (n : Node) : Option String :=
  n.stringValue?.filter fun text => !text.toList.contains '\\' && !text.toList.contains '\r'

theorem stringValue?_of_plainText? {n : Node} {text : String} (hplain : plainText? n = some text) :
    n.stringValue? = some text :=
  (Option.filter_eq_some_iff.mp hplain).1

theorem filterMap_stringValue? {texts : List String} {ns : List Node}
    (htexts : List.Forall₂ IsText texts ns) :
    ns.filterMap (fun n => n.stringValue?) = texts := by
  induction htexts with
  | nil =>
      rfl
  | cons htext _ ih =>
      rw [List.filterMap_cons_some (stringValue?_of_isText htext), ih]

section

variable {r : Routine} {event : String}

theorem isEventRef_of_isName (hevent : r.eventParam = some event) {n : Node}
    (hname : IsName event n) : r.isEventRef n = true := by
  unfold Routine.isEventRef
  simp [hevent, hname.2]

theorem not_isEventRef_of_isText (hevent : r.eventParam = some event)
    (hunquoted : '"' ∉ event.toList ∧ '\x27' ∉ event.toList) {text : String} {n : Node}
    (htext : IsText text n) : r.isEventRef n = false := by
  rcases htext with ⟨hkind, _, quote, hquote, hwritten⟩
  have hne : event ≠ n.unwrap.text := by
    rintro rfl
    rw [hwritten, String.toList_ofList] at hunquoted
    simp only [List.mem_cons, List.not_mem_nil, or_false] at hquote
    rcases hquote with rfl | rfl
    · exact hunquoted.1 List.mem_cons_self
    · exact hunquoted.2 List.mem_cons_self
  have hchain : n.unwrap.memberChain? = none := by
    rw [Node.memberChain?, hkind]
  unfold Routine.isEventRef
  simp [hevent, hne, hchain]

theorem equalityEvents_of_isEquality (hevent : r.eventParam = some event)
    (hunquoted : '"' ∉ event.toList ∧ '\x27' ∉ event.toList) {text : String} {left right : Node}
    (hsides : Guard.IsEquality event text left right) :
    r.equalityEvents left right = some [text] := by
  unfold Routine.equalityEvents
  rcases hsides with ⟨hname, htext⟩ | ⟨htext, hname⟩
  · rw [if_pos (isEventRef_of_isName hevent hname), stringValue?_of_isText htext]
    rfl
  · rw [not_isEventRef_of_isText hevent hunquoted htext, if_neg Bool.false_ne_true,
      if_pos (isEventRef_of_isName hevent hname), stringValue?_of_isText htext]
    rfl

theorem inclusionEvents_of_isWritten (hevent : r.eventParam = some event) {texts : List String}
    {n : Node} (hguard : (Guard.oneOf texts).IsWritten event n) :
    r.inclusionEvents n.unwrap = some texts := by
  rcases hguard with ⟨_, hnonempty, ⟨function, hfunction, hmember, ⟨list, hlist, harray, htexts⟩,
    property, hproperty, hincludes⟩, harguments⟩
  rw [Option.mem_def] at hfunction hlist hproperty
  rcases List.forall₂_cons_left_iff.mp harguments with ⟨argument, rest, hname, _, harguments⟩
  have hcallee : n.unwrap.callee? = some ⟨some list.text, property.text⟩ := by
    unfold Node.callee?
    rw [hfunction, Option.bind_eq_bind, Option.bind_some]
    simp only [hmember]
    rw [hlist, hproperty]
    rfl
  have href := isEventRef_of_isName hevent hname
  have hevents : texts.isEmpty = false := by simpa using hnonempty
  unfold Routine.inclusionEvents
  simp only [hcallee, hfunction, hlist, harguments, List.head?_cons, Option.bind_eq_bind,
    Option.bind_some, hincludes, harray, href, filterMap_stringValue? htexts, hevents]
  rfl

theorem mem_unite (left right : List String) (e : String) :
    e ∈ Routine.unite left right <-> e ∈ left ∨ e ∈ right := by
  unfold Routine.unite
  induction right generalizing left with
  | nil =>
      simp
  | cons first rest ih =>
      rw [List.foldl_cons, ih, List.mem_cons, ← or_assoc]
      split
      · rename_i hcontains
        have hfirst : first ∈ left := by simpa using hcontains
        constructor
        · rintro (he | he)
          · exact Or.inl (Or.inl he)
          · exact Or.inr he
        · rintro ((he | rfl) | he)
          · exact Or.inl he
          · exact Or.inl hfirst
          · exact Or.inr he
      · rw [List.mem_append, List.mem_singleton]

theorem guardEvents_equality {n left right : Node} (hkind : n.unwrap.kind = .binaryExpression)
    (hoperator : n.unwrap.operator? ∈ [some "===", some "=="])
    (hleft : n.unwrap.child? .left = some left) (hright : n.unwrap.child? .right = some right) :
    r.guardEvents n = r.equalityEvents left right := by
  simp only [List.mem_cons, List.not_mem_nil, or_false] at hoperator
  rw [Routine.guardEvents_eq]
  simp only [hkind, hleft, hright, Option.bind_some]
  rcases hoperator with hoperator | hoperator
  · rw [hoperator]
    rfl
  · rw [hoperator]
    rfl

theorem guardEvents_either {n left right : Node} (hkind : n.unwrap.kind = .binaryExpression)
    (hoperator : n.unwrap.operator? = some "||")
    (hleft : n.unwrap.child? .left = some left) (hright : n.unwrap.child? .right = some right)
    {events events' : List String} (hevents : r.guardEvents left = some events)
    (hevents' : r.guardEvents right = some events') :
    r.guardEvents n = some (Routine.unite events events') := by
  rw [Routine.guardEvents_eq]
  simp only [hkind, hleft, hright, Option.bind_some, hoperator, hevents, hevents']
  rfl

/-- A guard gives events, and it accepts an event if one of them is spelled alike. -/
theorem guardEvents_of_isWritten (hevent : r.eventParam = some event)
    (hunquoted : '"' ∉ event.toList ∧ '\x27' ∉ event.toList) {guard : Guard} {n : Node}
    (hguard : guard.IsWritten event n) :
    exists events, r.guardEvents n = some events ∧ forall e, guard.accepts e = true <->
      exists text, text ∈ events ∧ EventName.normalize text = EventName.normalize e := by
  induction guard generalizing n with
  | is text =>
      rcases hguard with ⟨hkind, hoperator, left, hleft, right, hright, hsides⟩
      refine ⟨[text], ?_, ?_⟩
      · rw [guardEvents_equality hkind hoperator hleft hright]
        exact equalityEvents_of_isEquality hevent hunquoted hsides
      · intro e
        simp [Guard.accepts]
  | oneOf texts =>
      refine ⟨texts, ?_, ?_⟩
      · rw [Routine.guardEvents]
        simp only [hguard.1]
        exact inclusionEvents_of_isWritten hevent hguard
      · intro e
        simp [Guard.accepts]
  | either left right ihleft ihright =>
      rcases hguard with ⟨hkind, hoperator, ⟨l, hl, hleft⟩, l', hl', hright⟩
      rcases ihleft hleft with ⟨events, hevents, haccepts⟩
      rcases ihright hright with ⟨events', hevents', haccepts'⟩
      refine ⟨_, guardEvents_either hkind hoperator hl hl' hevents hevents', ?_⟩
      intro e
      simp only [Guard.accepts, Bool.or_eq_true, haccepts, haccepts', mem_unite, or_and_right,
        exists_or]

end

/-!
# Replies

The shape of a returned literal has the keys of its entries, and the payload comes along
if an entry spreads it.
-/

structure Shape.IsOf (reply : List Item) (shape : Shape) : Prop where
  keys : forall k, k ∈ Listing.keys shape.entries <-> Item.key k ∈ reply
  spread : shape.hasSpread = true <-> Item.payload ∈ reply

theorem mem_keys_setEntry (name value : String) (entries : List (String × String)) (k : String) :
    k ∈ Listing.keys (Shape.setEntry name value entries) <->
      k = name ∨ k ∈ Listing.keys entries := by
  induction entries with
  | nil =>
      simp [Shape.setEntry]
  | cons entry rest ih =>
      unfold Shape.setEntry
      split
      · rename_i hname
        have hname' : entry.1 = name := by simpa using hname
        simp [Listing.keys_cons, hname']
      · rw [Listing.keys_cons, Listing.keys_cons, List.mem_cons, List.mem_cons, ih]
        exact or_left_comm

theorem propertyKey_of_isKey {name : String} {n : Node} (hkey : Item.IsKey name n) :
    n.propertyKey = name := by
  have hplain : n.kind = .propertyIdentifier ∨ n.kind = .number -> n.stringValue? = none := by
    intro hkind
    have hunwrap : n.unwrap = n := by
      apply Node.unwrap_of_not_isWrapper
      rcases hkind with hkind | hkind
      · rw [hkind]
        rfl
      · rw [hkind]
        rfl
    unfold Node.stringValue?
    rw [hunwrap]
    rcases hkind with hkind | hkind
    · simp [hkind]
    · simp [hkind]
  unfold Node.propertyKey
  rcases hkey with ⟨hkind, htext⟩ | htext | ⟨hkind, htext, _⟩
  · rw [hplain (Or.inl hkind)]
    exact htext
  · rw [stringValue?_of_isText htext]
    rfl
  · rw [hplain (Or.inr hkind)]
    exact htext

theorem objectPart?_of_key {payload name : String} {n : Node}
    (hitem : (Item.key name).IsWritten payload n) :
    exists entry, n.objectPart? = some entry ∧
      forall onSpread shape,
        exists value, Shape.addEntry onSpread shape entry = shape.set name value := by
  unfold Node.objectPart?
  rcases hitem.2 with ⟨hkind, ⟨k, hk, hkey⟩, hvalue⟩ | ⟨hkind, htext⟩ | ⟨hkind, k, hk, _, htext⟩
  · rcases Option.isSome_iff_exists.mp hvalue with ⟨value, hvalue⟩
    rw [Option.mem_def] at hk
    simp only [hkind, hk, hvalue]
    refine ⟨_, rfl, ?_⟩
    intro onSpread shape
    rw [propertyKey_of_isKey hkey]
    exact ⟨_, rfl⟩
  · simp only [hkind]
    refine ⟨_, rfl, ?_⟩
    intro onSpread shape
    rw [htext]
    exact ⟨_, rfl⟩
  · rw [Option.mem_def] at hk
    simp only [hkind, hk, Option.map_some]
    refine ⟨_, rfl, ?_⟩
    intro onSpread shape
    rw [htext]
    exact ⟨_, rfl⟩

theorem objectPart?_of_payload {payload : String} {n : Node}
    (hitem : Item.payload.IsWritten payload n) :
    exists argument, IsName payload argument ∧ n.objectPart? = some (.spread argument n.line) := by
  rcases hitem with ⟨hkind, argument, hargument, hname⟩
  rw [Option.mem_def] at hargument
  refine ⟨argument, hname, ?_⟩
  unfold Node.objectPart?
  simp only [hkind, hargument]
  rfl

section

variable {payload : String} (onSpread : Node -> Shape -> Shape)

theorem isOf_addEntry {item : Item} {n : Node} {before : List Item} {shape : Shape}
    (hspread : item = .payload -> forall argument s, IsName payload argument ->
      onSpread argument s = s.spread)
    (hitem : item.IsWritten payload n) (hshape : shape.IsOf before) :
    ((n.objectPart?).toList.foldl (Shape.addEntry onSpread) shape).IsOf (before ++ [item]) := by
  cases item with
  | key name =>
      rcases objectPart?_of_key hitem with ⟨entry, hentry, hset⟩
      rcases hset onSpread shape with ⟨value, hvalue⟩
      rw [hentry, Option.toList_some, List.foldl_cons, List.foldl_nil, hvalue]
      constructor
      · intro k
        rw [Shape.set, mem_keys_setEntry, hshape.keys, List.mem_append, List.mem_singleton,
          Item.key.injEq, or_comm]
      · rw [Shape.set, hshape.spread, List.mem_append, List.mem_singleton]
        simp
  | payload =>
      rcases objectPart?_of_payload hitem with ⟨argument, hname, hentry⟩
      rw [hentry, Option.toList_some, List.foldl_cons, List.foldl_nil, Shape.addEntry,
        hspread rfl argument shape hname]
      constructor
      · intro k
        rw [Shape.spread, hshape.keys, List.mem_append, List.mem_singleton]
        simp
      · simp [Shape.spread]

theorem isOf_addEntries {reply : List Item} {ns : List Node} {before : List Item} {shape : Shape}
    (hspread : Item.payload ∈ reply -> forall argument s, IsName payload argument ->
      onSpread argument s = s.spread)
    (hreply : List.Forall₂ (Item.IsWritten payload) reply ns) (hshape : shape.IsOf before) :
    ((ns.filterMap Node.objectPart?).foldl (Shape.addEntry onSpread) shape).IsOf
      (before ++ reply) := by
  induction hreply generalizing before shape with
  | nil =>
      rw [List.append_nil]
      exact hshape
  | @cons item n items rest hitem _ ih =>
      have hfirst := isOf_addEntry onSpread
        (fun hpayload => hspread (hpayload ▸ List.mem_cons_self)) hitem hshape
      have hrest := ih (fun hpayload => hspread (List.mem_cons_of_mem _ hpayload)) hfirst
      rw [List.append_assoc] at hrest
      have hsplit : (n :: rest).filterMap Node.objectPart? =
          (n.objectPart?).toList ++ rest.filterMap Node.objectPart? := by
        rw [List.filterMap_cons]
        cases n.objectPart? with
        | none =>
            rfl
        | some entry =>
            rfl
      rw [hsplit, List.foldl_append]
      exact hrest

end

section

variable {r : Routine} {payload : String} {scope : Scope}

theorem localObject?_eq_none (hscope : Unhidden payload scope.node)
    (hbody : Unhidden payload r.body) : r.localObject? scope payload = none := by
  unfold Routine.localObject? Routine.localValue?
  rw [Node.localValue?_eq, Node.localValue?_eq, Option.filter_eq_none_iff]
  intro value hvalue
  rcases Option.map_eq_some_iff.mp hvalue with ⟨declared, hdeclared, rfl⟩
  have hkind : declared.unwrap.kind ≠ .object := by
    rcases Option.or_eq_some_iff.mp hdeclared with hfound | ⟨_, hfound⟩
    · rcases List.exists_of_findSome?_eq_some hfound with ⟨m, hm, hvalue⟩
      exact hscope m hm declared hvalue
    · rcases List.exists_of_findSome?_eq_some hfound with ⟨m, hm, hvalue⟩
      exact hbody m hm declared hvalue
  simpa using hkind

theorem mergeSource_of_isName (hscope : Unhidden payload scope.node)
    (hbody : Unhidden payload r.body) (depth : Nat) {argument : Node}
    (hname : IsName payload argument) (shape : Shape) :
    r.mergeSource scope (depth + 1) argument shape = shape.spread := by
  rw [Routine.mergeSource]
  simp only [hname.1, hname.2, localObject?_eq_none hscope hbody]

theorem returnShape?_of_object (r : Routine) (scope : Scope) {ret value : Node}
    (hvalue : ret.firstNamed? = some value) (hkind : value.unwrap.kind = .object) :
    r.returnShape? scope ret =
      some (Shape.addObject (r.mergeSource scope Routine.innerDepth) value.unwrap {}) := by
  unfold Routine.returnShape?
  rw [hvalue, Option.bind_eq_bind, Option.bind_some, Routine.resolveDepth_eq, Routine.shapeOf?]
  simp only [hkind]

theorem returnShape?_of_returns {reply : List Item} {ret : Node}
    (hreturns : Returns payload reply ret)
    (hunhidden : Item.payload ∈ reply -> Unhidden payload scope.node ∧ Unhidden payload r.body) :
    exists shape, r.returnShape? scope ret = some shape ∧ shape.IsOf reply := by
  rcases hreturns with ⟨value, hvalue, hkind, hentries⟩
  rw [Option.mem_def] at hvalue
  have hempty : Shape.IsOf [] {} := ⟨fun k => by simp, by simp⟩
  have hshape := isOf_addEntries (r.mergeSource scope Routine.innerDepth)
    (fun hpayload argument s hname =>
      mergeSource_of_isName (hunhidden hpayload).1 (hunhidden hpayload).2 _ hname s)
    hentries hempty
  exact ⟨_, returnShape?_of_object r scope hvalue hkind, hshape⟩

end

theorem lastReturn?_of_block {n : Node} (hkind : n.kind = .statementBlock) :
    lastReturn? n = terminalReturn? n.parts := by
  have hvals : n.parts.attach.reverse.map Subtype.val = n.parts.reverse := by
    rw [List.map_reverse, List.attach_map_subtype_val]
  rw [lastReturn?, terminalReturn?, ← hvals, List.findSome?_map]
  simp only [hkind]
  rfl

theorem lastReturn?_of_soleReturn? {n ret : Node} (hret : soleReturn? n = some ret) :
    lastReturn? n = some ret := by
  fun_induction soleReturn? n with
  | case1 n hkind =>
      rw [lastReturn?]
      simp only [hkind]
      exact hret
  | case2 n hkind statement hparts ih =>
      rw [lastReturn?_of_block hkind, hparts, terminalReturn?, List.reverse_singleton,
        List.findSome?_singleton]
      exact ih hret
  | case3 n hkind hparts =>
      cases hret
  | case4 n hreturn hblock =>
      cases hret

theorem terminalReturn?_ofBranch {n ret : Node} (hret : soleReturn? n = some ret) :
    terminalReturn? (Scope.ofBranch n).statements = some ret := by
  have hlast := lastReturn?_of_soleReturn? hret
  unfold Scope.ofBranch
  by_cases hkind : n.kind = .statementBlock
  · simp only [hkind, beq_self_eq_true, if_true]
    rw [← lastReturn?_of_block hkind]
    exact hlast
  · have hother : (n.kind == .statementBlock) = false := by simpa using hkind
    simp only [hother]
    exact (List.findSome?_singleton ..).trans hlast

theorem isPart_of_soleReturn? {n ret : Node} (hret : soleReturn? n = some ret) :
    n.isPart = true := by
  unfold soleReturn? at hret
  unfold Node.isPart
  split at hret
  · rename_i hkind
    rw [hkind]
    rfl
  · rename_i hkind
    rw [hkind]
    rfl
  · cases hret

/-!
# Conditional statements and switches
-/

namespace Routine

def guardedBranches (r : Routine) (n condition consequence : Node) (branches : Branches) :
    Branches :=
  match r.guardEvents condition.unwrap with
  | some events =>
      branches.pushAll
        (r.guardedBranch events condition.unwrap.text (.ofBranch consequence) n.line)
  | none => branches

theorem ifChain_eq (r : Routine) (guarded : Bool) (n : Node) (branches : Branches) :
    r.ifChain guarded n branches =
      match n.child? .condition, n.child? .consequence with
      | some condition, some consequence =>
          let guarded := guarded || (r.guardEvents condition.unwrap).isSome
          let branches := r.guardedBranches n condition consequence branches
          match (n.child? .alternative).bind fun alternative => alternative.parts.head? with
          | some next =>
              if next.kind == .ifStatement then r.ifChain guarded next branches
              else if guarded then branches.orFallback (r.fallbackOf? (.ofBranch next) next.line)
              else branches
          | none => branches
      | _, _ => branches := by
  rw [ifChain]
  cases n.child? .condition with
  | none =>
      rfl
  | some condition =>
      cases n.child? .consequence with
      | none =>
          rfl
      | some consequence =>
          dsimp only
          split
          · rename_i alternative halternative
            rw [halternative, Option.bind_some]
            split
            · rename_i next hnext
              rw [hnext]
              rfl
            · rename_i hnone
              rw [hnone]
              rfl
          · rename_i hnone
            rw [hnone]
            rfl

def clauseScope (clause : Node) : Scope :=
  ⟨clause, clause.parts.filter fun c => c.label != some .value⟩

theorem switchClause_eq (r : Routine) (state : Branches × List CaseLabel) (clause : Node) :
    r.switchClause state clause =
      match clause.kind with
      | .switchCase =>
          if (clauseScope clause).statements.isEmpty then
            (state.1, state.2 ++ (caseLabel? clause).toList)
          else
            match r.scopeShape? (clauseScope clause) with
            | some shape =>
                (state.1.pushAll ((state.2 ++ (caseLabel? clause).toList).map fun label =>
                  r.transformation (EventName.normalize label.event) (some label.condition) shape
                    (r.removedIn (clauseScope clause)) label.line), [])
            | none => (state.1, [])
      | .switchDefault =>
          (state.1.orFallback (r.fallbackOf? (clauseScope clause) clause.line), state.2)
      | _ => state :=
  rfl

end Routine

/-!
# Transformations

What a transformation with the shape of a reply lets through are the keys of the reply.
-/

def Prepares (t : BrokerTransformation) (reply : List Item) : Prop :=
  forall p k, k ∈ Simulation.arriving p (some t) <-> k ∈ reply.flatMap (Item.keys p.propertyNames)

theorem mem_flatMap_keys (reply : List Item) (payload : List String) (k : String) :
    k ∈ reply.flatMap (Item.keys payload) <->
      Item.key k ∈ reply ∨ (Item.payload ∈ reply ∧ k ∈ payload) := by
  rw [List.mem_flatMap]
  constructor
  · rintro ⟨item, hitem, hk⟩
    cases item with
    | key name =>
        have hname : k = name := List.mem_singleton.mp hk
        exact Or.inl (hname ▸ hitem)
    | payload =>
        exact Or.inr ⟨hitem, hk⟩
  · rintro (hkey | ⟨hspread, hk⟩)
    · exact ⟨_, hkey, List.mem_singleton.mpr rfl⟩
    · exact ⟨_, hspread, hk⟩

theorem mem_keys_foldl_insert (entries table : List (String × String)) (k : String) :
    k ∈ Listing.keys (entries.foldl (fun t entry => Listing.insert entry.1 entry.2 t) table) <->
      k ∈ Listing.keys entries ∨ k ∈ Listing.keys table := by
  induction entries generalizing table with
  | nil =>
      simp
  | cons entry rest ih =>
      rw [List.foldl_cons, ih, Listing.mem_keys_insert, Listing.keys_cons, List.mem_cons, or_assoc,
        or_left_comm]

theorem prepares_transformation (r : Routine) (event : String) (condition : Option String)
    {shape : Shape} {reply : List Item} (hshape : shape.IsOf reply) (removed : List String)
    (line : Nat) : Prepares (r.transformation event condition shape removed line) reply := by
  intro p k
  rw [mem_flatMap_keys, ← hshape.keys, ← hshape.spread]
  unfold Simulation.arriving BrokerTransformation.mappedNames Routine.transformation
  cases hspread : shape.hasSpread with
  | true =>
      simp [Listing.keys, or_comm]
  | false =>
      have hmapped := mem_keys_foldl_insert shape.entries [] k
      simp only [Listing.keys_nil, List.not_mem_nil, or_false] at hmapped
      simp only [Bool.not_false, if_true, List.mem_append, Bool.false_eq_true, false_and, or_false]
      rw [show k ∈ List.map _ _ <-> _ from hmapped, or_iff_left_iff_imp]
      intro hadded
      rcases List.mem_map.mp hadded with ⟨entry, hentry, rfl⟩
      exact List.mem_map_of_mem (List.mem_filter.mp hentry).1

end Broker
end PayloadFlow
