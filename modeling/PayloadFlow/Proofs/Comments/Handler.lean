import PayloadFlow.Extract.Consumer.Handler
import PayloadFlow.Proofs.Comments.Collector

/-!
# Handlers and comments

The handlers of a source are bound to the same events without comments, and have the same
contracts.  A handler written in place is named after the text of the call around it: there
no comment may stand in the name of what is called.
-/

namespace PayloadFlow
namespace Consumer

open Script Node

/-!
# Contracts of functions
-/

section

variable {f : FunctionNode}

theorem dataParameter?_uncommented (h : f.Tidied) :
    dataParameter? f.uncommented = (dataParameter? f).map Node.uncommented := by
  have hparams := h.params
  unfold dataParameter? FunctionNode.uncommented
  dsimp only
  generalize f.params = params at hparams
  cases params with
  | nil =>
      rfl
  | cons first rest =>
      cases rest with
      | nil =>
          rfl
      | cons second rest =>
          have hnames : namesEvent first.uncommented = namesEvent first := by
            unfold namesEvent
            rw [parameterName?_uncommented (hparams first List.mem_cons_self)]
          simp only [List.map_cons, hnames]
          split
          · rfl
          · rfl

theorem mem_params_of_dataParameter? {p : Node} (hp : dataParameter? f = some p) :
    p ∈ f.params := by
  unfold dataParameter? at hp
  split at hp
  · cases hp
  · rename_i first hparams
    cases hp
    rw [hparams]
    exact List.mem_cons_self
  · rename_i first second rest hparams
    rw [hparams]
    split at hp
    · cases hp
      exact List.mem_cons_of_mem first List.mem_cons_self
    · cases hp
      exact List.mem_cons_self

theorem start_uncommented (h : f.Tidied) : start f.uncommented = start f := by
  unfold start
  rw [dataParameter?_uncommented h]
  cases hp : dataParameter? f with
  | none =>
      rfl
  | some p =>
      have hptidied := h.params p (mem_params_of_dataParameter? hp)
      have hpattern := hptidied.parameterPattern
      simp only [Option.map_some, parameterPattern_uncommented hptidied, kind_uncommented]
      cases hkind : p.parameterPattern.1.kind with
      | identifier =>
          dsimp only
          rw [uncommented_of_isLeaf hpattern (by rw [isLeaf, hkind])]
      | objectPattern =>
          exact Collector.readPattern_uncommented _ hpattern [] _ _
      | _ =>
          rfl

theorem contract_uncommented (h : f.Tidied) (path eventSource event : String) :
    contract path f.uncommented eventSource event = contract path f eventSource event := by
  have haccesses : accesses f.uncommented = accesses f := by
    unfold accesses
    rw [start_uncommented h]
    exact congrArg Collector.accesses
      (Collector.collect_uncommented f.body [] (Cursor.tidied_root h.body) (start f))
  unfold contract
  rw [haccesses]
  rfl

end

/-!
# Bindings
-/

namespace EventBinding

/-- A binding whose handler stands in the tree without comments. -/
def uncommented (b : EventBinding) : EventBinding :=
  match b.handler with
  | .named name => ⟨b.rawEvent, .named name⟩
  | .inline f => ⟨b.rawEvent, .inline f.uncommented⟩

def Tidied (b : EventBinding) : Prop :=
  forall f, b.handler = .inline f -> f.Tidied

end EventBinding

section

variable {n : Node}

theorem tableBindings_uncommented (known : String -> Bool) (h : n.Tidied) :
    tableBindings known n.uncommented =
      (tableBindings known n).map EventBinding.uncommented := by
  unfold tableBindings
  rw [objectEntries_uncommented h, List.filterMap_map, List.map_filterMap]
  apply List.filterMap_congr
  intro e he
  rw [Function.comp_apply]
  cases e with
  | pair key value line =>
      have hvalue := h.entry he (m := value) rfl
      simp only [ObjectEntry.uncommented, unwrap_uncommented hvalue, kind_uncommented]
      cases hkind : value.unwrap.kind == .identifier with
      | false =>
          rfl
      | true =>
          rw [uncommented_of_isLeaf hvalue.unwrap (by rw [isLeaf, beq_iff_eq.mp hkind])]
          cases known value.unwrap.text with
          | false =>
              rfl
          | true =>
              rfl
  | shorthand name line =>
      rfl
  | spread argument line =>
      rfl
  | method name line =>
      rfl

theorem tidied_of_mem_tableBindings {known : String -> Bool} {b : EventBinding}
    (hb : b ∈ tableBindings known n) : b.Tidied := by
  rcases List.mem_filterMap.mp hb with ⟨e, _, hb⟩
  intro f hf
  split at hb
  · dsimp only at hb
    split at hb
    · cases hb
      cases hf
    · cases hb
  · cases hb

theorem registration?_uncommented (registrationCalls : List String) (h : n.Tidied) :
    registration? registrationCalls n.uncommented =
      (registration? registrationCalls n).map fun found => (found.1, found.2.uncommented) := by
  have hcallee := callee?_uncommented h
  unfold registration?
  simp only [callArguments_uncommented h, List.getElem?_map]
  generalize n.callee? = callee at hcallee
  generalize n.uncommented.callee? = other at hcallee
  cases hcallee with
  | none =>
      rfl
  | @some callee other halike =>
      simp only [Option.bind_eq_bind, Option.bind_some, halike.name]
      cases registrationCalls.contains callee.name with
      | false =>
          rfl
      | true =>
          cases hevent : n.callArguments[0]? with
          | none =>
              rfl
          | some event =>
              cases hhandler : n.callArguments[1]? with
              | none =>
                  rfl
              | some handler =>
                  simp only [Option.map_some, Option.bind_some,
                    stringValue?_uncommented (h.argument (List.mem_of_getElem? hevent)),
                    unwrap_uncommented (h.argument (List.mem_of_getElem? hhandler))]
                  cases event.stringValue? with
                  | none =>
                      rfl
                  | some raw =>
                      rfl

theorem tidied_of_registration? {registrationCalls : List String} (h : n.Tidied)
    {rawEvent : String} {handler : Node}
    (hfound : registration? registrationCalls n = some (rawEvent, handler)) : handler.Tidied := by
  unfold registration? at hfound
  rcases Option.bind_eq_some_iff.mp hfound with ⟨callee, _, hfound⟩
  rcases Option.bind_eq_some_iff.mp hfound with ⟨_, _, hfound⟩
  rcases Option.bind_eq_some_iff.mp hfound with ⟨event, _, hfound⟩
  rcases Option.bind_eq_some_iff.mp hfound with ⟨argument, hargument, hfound⟩
  rcases Option.bind_eq_some_iff.mp hfound with ⟨raw, _, hfound⟩
  cases hfound
  exact (h.argument (List.mem_of_getElem? hargument)).unwrap

/-- What a registration call with a handler in place calls is written the same without
comments. -/
def NamesAlike (registrationCalls : List String) (program : Node) : Prop :=
  forall n, n ∈ program.family -> n.kind = .callExpression ->
    forall found, found ∈ registration? registrationCalls n ->
      found.2.kind = .arrowFunction ∨ found.2.kind = .functionExpression ->
        forall function, function ∈ n.child? .function -> function.uncommented.text = function.text

instance (registrationCalls : List String) (program : Node) :
    Decidable (NamesAlike registrationCalls program) :=
  inferInstanceAs (Decidable (forall n, n ∈ program.family -> n.kind = .callExpression ->
    forall found, found ∈ registration? registrationCalls n ->
      found.2.kind = .arrowFunction ∨ found.2.kind = .functionExpression ->
        forall function, function ∈ n.child? .function ->
          function.uncommented.text = function.text))

theorem inlineName_uncommented {registrationCalls : List String} (h : n.Tidied)
    {found : String × Node} (hfound : registration? registrationCalls n = some found)
    (hname : forall function, function ∈ n.child? .function ->
      function.uncommented.text = function.text) :
    inlineName n.uncommented found.1 = inlineName n found.1 := by
  unfold inlineName
  rw [child?_uncommented h]
  cases hfunction : n.child? .function with
  | none =>
      unfold registration? callee? at hfound
      rw [hfunction] at hfound
      cases hfound
  | some function =>
      simp only [Option.map_some, Option.getD_some, hname function hfunction]

/-- Bindings of a tree and of the tree without comments. -/
structure BindingsAlike (found other : List EventBinding) : Prop where
  eq_map : other = found.map EventBinding.uncommented
  tidied : forall b, b ∈ found -> b.Tidied

theorem BindingsAlike.append {found other bindings : List EventBinding}
    (h : BindingsAlike found other) (hbindings : forall b, b ∈ bindings -> b.Tidied) :
    BindingsAlike (found ++ bindings) (other ++ bindings.map EventBinding.uncommented) := by
  constructor
  · rw [h.eq_map, List.map_append]
  · intro b hb
    rcases List.mem_append.mp hb with hb | hb
    · exact h.tidied b hb
    · exact hbindings b hb

theorem inlineBinding_uncommented {registrationCalls : List String} {program : Node}
    (hnames : NamesAlike registrationCalls program) (hn : n ∈ program.family) (h : n.Tidied)
    (hcall : n.kind = .callExpression) {rawEvent : String} {handler : Node}
    (hfound : registration? registrationCalls n = some (rawEvent, handler))
    (hkind : handler.kind = .arrowFunction ∨ handler.kind = .functionExpression) :
    handler.uncommented.function? (inlineName n.uncommented rawEvent) false =
      (handler.function? (inlineName n rawEvent) false).map FunctionNode.uncommented := by
  have hname := inlineName_uncommented h hfound (hnames n hn hcall _ hfound hkind)
  rw [hname]
  exact function?_uncommented (tidied_of_registration? h hfound) _ false

theorem visitBindings_uncommented {registrationCalls : List String} (known : String -> Bool)
    {program : Node} (hprogram : program.Tidied) (hnames : NamesAlike registrationCalls program)
    {found other : List EventBinding} (hfound : BindingsAlike found other) {c : Cursor}
    (hc : c.node ∈ program.family) :
    BindingsAlike (visitBindings registrationCalls known found c).1
        (visitBindings registrationCalls known other c.uncommented).1 ∧
      (visitBindings registrationCalls known other c.uncommented).2 =
        (visitBindings registrationCalls known found c).2 := by
  have h := hprogram.of_mem_family hc
  have hnode : c.uncommented.node = c.node.uncommented := rfl
  unfold visitBindings
  simp only [hnode, kind_uncommented]
  cases hkind : c.node.kind with
  | object =>
      refine ⟨?_, rfl⟩
      dsimp only
      rw [tableBindings_uncommented known h]
      exact hfound.append fun b hb => tidied_of_mem_tableBindings hb
  | callExpression =>
      dsimp only
      rw [registration?_uncommented registrationCalls h]
      cases hregistration : registration? registrationCalls c.node with
      | none =>
          exact ⟨hfound, rfl⟩
      | some registered =>
          rcases registered with ⟨rawEvent, handler⟩
          have hhandler := tidied_of_registration? h hregistration
          have hinline := fun hfunction => inlineBinding_uncommented hnames hc h hkind
            hregistration hfunction
          have hfunctions : forall f, handler.function? (inlineName c.node rawEvent) false =
              some f -> forall b, b ∈ [EventBinding.mk rawEvent (.inline f)] -> b.Tidied := by
            intro f hf b hb g hg
            rw [List.mem_singleton.mp hb] at hg
            cases hg
            exact tidied_of_function? hhandler hf
          simp only [Option.map_some, kind_uncommented]
          cases hvalue : handler.kind with
          | identifier =>
              dsimp only
              rw [uncommented_of_isLeaf hhandler (by rw [isLeaf, hvalue])]
              split
              · have hnamed : forall b, b ∈ [EventBinding.mk rawEvent (.named handler.text)] ->
                    b.Tidied := by
                  intro b hb f hf
                  rw [List.mem_singleton.mp hb] at hf
                  cases hf
                exact ⟨hfound.append hnamed, rfl⟩
              · exact ⟨hfound, rfl⟩
          | arrowFunction =>
              dsimp only
              rw [hinline (Or.inl hvalue)]
              cases hf : handler.function? (inlineName c.node rawEvent) false with
              | none =>
                  exact ⟨hfound, rfl⟩
              | some f =>
                  exact ⟨hfound.append (hfunctions f hf), rfl⟩
          | functionExpression =>
              dsimp only
              rw [hinline (Or.inr hvalue)]
              cases hf : handler.function? (inlineName c.node rawEvent) false with
              | none =>
                  exact ⟨hfound, rfl⟩
              | some f =>
                  exact ⟨hfound.append (hfunctions f hf), rfl⟩
          | _ =>
              exact ⟨hfound, rfl⟩
  | _ =>
      exact ⟨hfound, rfl⟩

theorem eventBindings_uncommented {registrationCalls : List String} {program : Node}
    (known : String -> Bool) (h : program.Tidied) (hnames : NamesAlike registrationCalls program) :
    BindingsAlike (eventBindings registrationCalls known program)
      (eventBindings registrationCalls known program.uncommented) := by
  have hstart : BindingsAlike [] [] := by
    constructor
    · rfl
    · intro b hb
      cases hb
  refine walk_uncommented_within ?_ (mem_family_self program) hstart
  intro found other c hc hfound
  exact visitBindings_uncommented known h hnames hfound hc

end

/-!
# Contracts of sources
-/

theorem functionContracts_uncommented (handlerPrefixes : List String)
    {bindings others : List EventBinding} (hbindings : BindingsAlike bindings others)
    (path : String) {f : FunctionNode} (h : f.Tidied) :
    functionContracts handlerPrefixes others path f.uncommented =
      functionContracts handlerPrefixes bindings path f := by
  have hname : f.uncommented.name = f.name := rfl
  have hexported : f.uncommented.exported = f.exported := rfl
  have hevents : forall event? : EventBinding -> Option String,
      (forall b, event? b.uncommented = event? b) ->
        others.filterMap event? = bindings.filterMap event? := by
    intro event? hevent
    rw [hbindings.eq_map, List.filterMap_map]
    apply List.filterMap_congr
    intro b _
    exact hevent b
  have hcontract : contract path f.uncommented = contract path f := by
    funext eventSource event
    exact contract_uncommented h path eventSource event
  unfold functionContracts
  rw [hname, hexported, hcontract, hevents]
  rintro ⟨rawEvent, handler⟩
  cases handler with
  | named name =>
      rfl
  | inline f =>
      rfl

theorem inlineContract?_uncommented (path : String) {b : EventBinding} (h : b.Tidied) :
    inlineContract? path b.uncommented = inlineContract? path b := by
  rcases b with ⟨rawEvent, handler⟩
  cases handler with
  | named name =>
      rfl
  | inline f =>
      exact congrArg some (contract_uncommented (h f rfl) path _ _)

theorem contracts_uncommented (handlerPrefixes registrationCalls : List String) (path : String)
    {program : Node} (h : program.Tidied) (hnames : NamesAlike registrationCalls program) :
    contracts handlerPrefixes registrationCalls path program.uncommented =
      contracts handlerPrefixes registrationCalls path program := by
  have hknown : (fun name => (program.functions.map FunctionNode.uncommented).any fun f =>
      f.name == name) = fun name => program.functions.any fun f => f.name == name := by
    funext name
    rw [List.any_map]
    rfl
  have hbindings := eventBindings_uncommented
    (fun name => program.functions.any fun f => f.name == name) h hnames
  unfold contracts
  dsimp only
  rw [functions_uncommented h, hknown, List.flatMap_map]
  congr 2
  · apply List.flatMap_congr
    intro f hf
    exact functionContracts_uncommented handlerPrefixes hbindings path
      (tidied_of_mem_functions h hf)
  · rw [hbindings.eq_map, List.filterMap_map]
    apply List.filterMap_congr
    intro b hb
    exact inlineContract?_uncommented path (hbindings.tidied b hb)

end Consumer
end PayloadFlow
