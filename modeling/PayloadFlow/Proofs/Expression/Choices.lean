import PayloadFlow.Proofs.Expression.Balanced

/-!
# Choices between values

A value may be a choice: `a || b`, `a ?? b`, or `a ? b : c`.  Between balanced
operands the operator stands at bracket depth 0, where it is always found.  Two
questions are asked before the one for operators, and both look at the ends of the
text only: whether a pair of parentheses encloses the text, and whether it is a
template.  A choice that starts and ends with a backtick passes for a template as
soon as there is a substitution anywhere in it.
-/

namespace PayloadFlow

namespace Text

theorem trimStart_append_of_nonblank {front : List Char}
    (hfront : exists c, c ∈ front ∧ isBlank c = false) (rest : List Char) :
    trimStart (front ++ rest) = trimStart front ++ rest := by
  rcases hfront with ⟨c, hmem, hc⟩
  rcases List.append_of_mem hmem with ⟨initial, more, rfl⟩
  rw [List.append_assoc, List.cons_append, trimStart_append_cons _ hc, trimStart_append_cons _ hc,
    List.append_assoc, List.cons_append]

theorem trim_append_of_nonblank {front : List Char}
    (hfront : exists c, c ∈ front ∧ isBlank c = false) (middle : List Char) {c : Char}
    (hc : isBlank c = false) (rest : List Char) :
    trim (front ++ (middle ++ c :: rest)) = trimStart front ++ (middle ++ c :: trimEnd rest) := by
  rw [trim, trimStart_append_of_nonblank hfront, ← List.append_assoc, trimEnd_append_cons _ hc,
    List.append_assoc]

end Text

namespace Expression

open Text

/-!
# Finding an operator
-/

/-- Reading a spot finds an operator, whatever follows, or goes on; a question
mark that has been read is not forgotten. -/
theorem hasAlternative_step (asked : Bool) (s : Spot) :
    (forall rest, hasAlternative asked (s :: rest) = true) ∨
      exists later, (asked = true -> later = true) ∧
        forall rest, hasAlternative asked (s :: rest) = hasAlternative later rest := by
  by_cases hdepth : (s.depth != 0) = true
  · exact Or.inr ⟨asked, id, fun rest => by rw [hasAlternative, if_pos hdepth]⟩
  · simp only [hasAlternative, hdepth, Bool.false_eq_true, if_false]
    split
    · -- a bar is an operator together with a second one
      cases s.rest.head? == some '|' with
      | true => exact Or.inl fun rest => rfl
      | false => exact Or.inr ⟨asked, id, fun rest => rfl⟩
    · -- a question mark: `??`, the second mark of one, `?.`, or the mark of a ternary
      split
      · exact Or.inl fun rest => rfl
      · split
        · exact Or.inr ⟨asked, id, fun rest => rfl⟩
        · split
          · exact Or.inr ⟨_, fun hasked => by simp [hasked], fun rest => rfl⟩
          · exact Or.inr ⟨true, fun _ => rfl, fun rest => rfl⟩
    · -- a colon counts only after the mark of a ternary
      cases asked with
      | true => exact Or.inl fun rest => rfl
      | false => exact Or.inr ⟨false, id, fun rest => rfl⟩
    · exact Or.inr ⟨asked, id, fun rest => rfl⟩

theorem hasAlternative_append {asked : Bool} (front : List Spot) {rest : List Spot}
    (hrest : forall later, (asked = true -> later = true) -> hasAlternative later rest = true) :
    hasAlternative asked (front ++ rest) = true := by
  induction front generalizing asked with
  | nil =>
      exact hrest asked id
  | cons s front ih =>
      rw [List.cons_append]
      rcases hasAlternative_step asked s with hfound | ⟨later, hlater, hgoes⟩
      · exact hfound _
      · rw [hgoes]
        exact ih fun latest hlatest => hrest latest fun hasked => hlatest (hlater hasked)

/-!
# Texts that pass for a template
-/

/-- A text between backticks with a substitution somewhere in it. -/
structure IsFramed (text : List Char) : Prop where
  first : text.head? = some '\x60'
  last : text.getLast? = some '\x60'
  substitution : ['$', '\x7b'] <:+: text

theorem afterBacktick_cons {c : Char} (hc : c ≠ '\\') (rest : List Char) :
    afterBacktick (c :: rest) = if c == '\x60' then some rest else afterBacktick rest := by
  rw [afterBacktick]
  intro d more hslash
  exact absurd hslash hc

/-- The search for the closing backtick ends within the literal that the reader
has entered. -/
theorem afterBacktick_append {depth : Int} {text : List Char}
    (htext : (Reader.run ⟨.quoted '\x60', depth⟩ text).reading = .plain) (rest : List Char) :
    exists tail, afterBacktick (text ++ rest) = some (tail ++ rest) := by
  induction text using afterBacktick.induct with
  | case1 =>
      cases htext
  | case2 c text ih =>
      exact ih htext
  | case3 c text _ hc =>
      rw [beq_iff_eq.mp hc]
      exact ⟨text, rfl⟩
  | case4 c text hpair hc ih =>
      by_cases hslash : c = '\\'
      · -- a backslash at the end leaves the literal open
        cases text with
        | nil =>
            subst hslash
            cases htext
        | cons d more =>
            exact absurd rfl (hpair d more hslash)
      · have hstep : Reader.step ⟨.quoted '\x60', depth⟩ c = ⟨.quoted '\x60', depth⟩ := by
          simp [Reader.step, hslash, beq_eq_false_iff_ne.mp (Bool.eq_false_iff.mpr hc)]
        rw [Reader.run_cons, hstep] at htext
        rw [List.cons_append, afterBacktick_cons hslash, if_neg hc]
        exact ih htext

/-- Behind a balanced text a template is told by its ends, and by a substitution
anywhere. -/
theorem isTemplate_append_iff {text : List Char} (htext : Balanced text) (c : Char)
    (hc : c ≠ '\x60') (rest : List Char) :
    isTemplate (text ++ c :: rest) = true <-> IsFramed (text ++ c :: rest) := by
  cases text with
  | nil =>
      constructor
      · intro h
        simp [isTemplate, hc] at h
      · intro h
        exact absurd (Option.some.inj h.first) hc
  | cons d text =>
      rw [List.cons_append]
      by_cases hd : d = '\x60'
      · subst hd
        have hclosed : (Reader.run ⟨.quoted '\x60', 0⟩ text).reading = .plain :=
          congrArg Reader.reading htext.closed
        rcases afterBacktick_append hclosed (c :: rest) with ⟨tail, htail⟩
        have hlast : ('\x60' :: (text ++ c :: rest)).getLast? = (text ++ c :: rest).getLast? :=
          List.getLast?_cons_of_ne_nil (by simp)
        have hmore : (tail ++ c :: rest).isEmpty = false := by simp
        rw [isTemplate, htail]
        simp only [hmore, Bool.false_or, beq_self_eq_true, Bool.true_and, Bool.and_eq_true,
          beq_iff_eq, occursIn_iff]
        constructor
        · rintro ⟨hends, hsubstitution⟩
          exact ⟨rfl, hlast.trans hends, hsubstitution⟩
        · intro h
          exact ⟨hlast.symm.trans h.last, h.substitution⟩
      · constructor
        · intro h
          simp [isTemplate, hd] at h
        · intro h
          exact absurd (Option.some.inj h.first) hd

/-!
# The kind of a choice
-/

inductive Choice where
  | either (left right : String)
  | coalesce (left right : String)
  | ternary (test yes no : String)
  deriving DecidableEq, Repr

namespace Choice

def first : Choice -> String
  | either left _ => left
  | coalesce left _ => left
  | ternary test _ _ => test

def operands : Choice -> List String
  | either left right => [left, right]
  | coalesce left right => [left, right]
  | ternary test yes no => [test, yes, no]

def text : Choice -> String
  | either left right => left ++ " || " ++ right
  | coalesce left right => left ++ " ?? " ++ right
  | ternary test yes no => test ++ " ? " ++ yes ++ " : " ++ no

end Choice

/-- A text that can stand beside an operator. -/
structure IsOperand (text : String) : Prop where
  balanced : Balanced text.toList
  nonblank : exists c, c ∈ text.toList ∧ isBlank c = false

instance (text : String) : Decidable (IsOperand text) :=
  decidable_of_iff
    (Balanced text.toList ∧ (text.toList.any fun c => isBlank c == false) = true)
    ⟨fun h => ⟨h.1, by simpa using h.2⟩, fun h => ⟨h.balanced, by simpa using h.nonblank⟩⟩

theorem Choice.isOperand_first {choice : Choice}
    (hoperands : forall x, x ∈ choice.operands -> IsOperand x) : IsOperand choice.first := by
  cases choice <;> exact hoperands _ List.mem_cons_self

/-- Without the blanks around it, a choice is its first operand, a blank, and a text
in which the operator is found. -/
theorem Choice.trim_text {choice : Choice}
    (hoperands : forall x, x ∈ choice.operands -> IsOperand x) :
    exists rest, trim choice.text.toList = trimStart choice.first.toList ++ ' ' :: rest ∧
      forall asked, hasAlternative asked (spotsFrom .plain 0 (some ' ') rest) = true := by
  have hfirst := (isOperand_first hoperands).nonblank
  cases choice with
  | either left right =>
      refine ⟨'|' :: '|' :: trimEnd (' ' :: right.toList), ?_, ?_⟩
      · have htrim := trim_append_of_nonblank hfirst [' ', '|'] (c := '|') (by decide)
          (' ' :: right.toList)
        simpa [text, first] using htrim
      · intro asked
        simp [spotsFrom, hasAlternative, isQuote, depthAfter]
  | coalesce left right =>
      refine ⟨'?' :: '?' :: trimEnd (' ' :: right.toList), ?_, ?_⟩
      · have htrim := trim_append_of_nonblank hfirst [' ', '?'] (c := '?') (by decide)
          (' ' :: right.toList)
        simpa [text, first] using htrim
      · intro asked
        simp [spotsFrom, hasAlternative, isQuote, depthAfter]
  | ternary test yes no =>
      have hyes : Balanced (' ' :: yes.toList ++ [' ']) := by
        have hspace : Balanced [' '] := by decide
        have hoperand := hoperands yes (List.mem_cons_of_mem _ List.mem_cons_self)
        exact (hspace.append hoperand.balanced).append hspace
      refine ⟨'?' :: (' ' :: yes.toList ++ [' '] ++ ':' :: trimEnd (' ' :: no.toList)), ?_, ?_⟩
      · have htrim := trim_append_of_nonblank hfirst (' ' :: '?' :: ' ' :: yes.toList ++ [' '])
          (c := ':') (by decide) (' ' :: no.toList)
        simpa [text, first] using htrim
      · -- the mark is remembered through the balanced operand up to the colon
        intro asked
        have hquestion : hasAlternative asked (spotsFrom .plain 0 (some ' ')
            ('?' :: (' ' :: yes.toList ++ [' '] ++ ':' :: trimEnd (' ' :: no.toList)))) =
            hasAlternative true (spotsFrom .plain 0 (some '?')
              (' ' :: yes.toList ++ [' '] ++ ':' :: trimEnd (' ' :: no.toList))) := by
          simp [spotsFrom, hasAlternative, isQuote, depthAfter]
        rw [hquestion, hyes.spotsFrom_append]
        apply hasAlternative_append
        intro later hlater
        rw [hlater rfl]
        simp [spotsFrom, hasAlternative, isQuote, depthAfter]

/-- The parenthesis that opens a text, if one does, is closed in it by a
parenthesis, and not by a bracket of another kind. -/
def ClosesOpening (text : List Char) : Prop :=
  text.head? = some '(' -> exists s, s ∈ spots text ∧ s.char = ')' ∧ s.depth = 0

/-- A parenthesis that is closed in the first part of a text is not closed at its
end. -/
theorem not_isEnclosed_append {text : List Char} (htext : ClosesOpening text) {c : Char}
    (hc : c ≠ '(') (rest : List Char) : ¬ IsEnclosed (text ++ c :: rest) := by
  rintro ⟨hhead, hcloses⟩
  have hopen : text.head? = some '(' := by
    cases text with
    | nil => exact absurd (Option.some.inj hhead) hc
    | cons d more => exact hhead
  rcases htext hopen with ⟨s, hs, hchar, hdepth⟩
  have hfound : ((spots text).find? fun s => s.char == ')' && s.depth == 0).isSome := by
    rw [List.find?_isSome]
    exact ⟨s, hs, by simp [hchar, hdepth]⟩
  rcases Option.isSome_iff_exists.mp hfound with ⟨closing, hclosing⟩
  have hmap : ((spots text).map (·.followedBy (c :: rest))).find?
      (fun s => s.char == ')' && s.depth == 0) = some (closing.followedBy (c :: rest)) := by
    rw [List.find?_map]
    exact congrArg (Option.map _) hclosing
  unfold closesAtEnd at hcloses
  rw [spots, spotsFrom_append, List.find?_append] at hcloses
  unfold spots at hmap
  rw [hmap] at hcloses
  simp [Spot.followedBy] at hcloses

/-- A choice between balanced operands is a conditional, with two exceptions.  If
the text starts and ends with a backtick and holds a substitution, it is a
template.  If its first parenthesis seems to be closed at the end of the text,
both are taken off, and what is between them decides; this needs a first operand
in which a bracket of another kind closes the parenthesis. -/
theorem choice_kind (choice : Choice)
    (hoperands : forall x, x ∈ choice.operands -> IsOperand x) :
    (¬ IsEnclosed (trim choice.text.toList) -> ¬ IsFramed (trim choice.text.toList) ->
      classify choice.text = .conditional) ∧
    (¬ IsEnclosed (trim choice.text.toList) -> IsFramed (trim choice.text.toList) ->
      classify choice.text = .template) ∧
    (IsEnclosed (trim choice.text.toList) ->
      ¬ ClosesOpening (trimStart choice.first.toList) ∧
        classify choice.text =
          classify (String.ofList (trim choice.text.toList).tail.dropLast)) := by
  have hfirst := choice.isOperand_first hoperands
  have hbalanced := hfirst.balanced.trimmed
  rcases choice.trim_text hoperands with ⟨rest, htrim, hfound⟩
  have htemplate := isTemplate_append_iff hbalanced ' ' (by decide) rest
  have hoperator : hasAlternative false
      (spots (trimStart choice.first.toList ++ ' ' :: rest)) = true := by
    rw [spots, hbalanced.spotsFrom_append]
    apply hasAlternative_append
    intro later _
    have hblank : hasAlternative later (spotsFrom .plain 0
        ((trimStart choice.first.toList).getLast?.or none) (' ' :: rest)) =
        hasAlternative later (spotsFrom .plain 0 (some ' ') rest) := by
      simp [spotsFrom, hasAlternative, isQuote, depthAfter]
    rw [hblank, hfound]
  have hnonempty : (trimStart choice.first.toList ++ ' ' :: rest).isEmpty = false := by simp
  refine ⟨?_, ?_, ?_⟩
  · intro henclosed hframed
    rw [htrim] at henclosed hframed
    rw [classify, htrim, stripParens_of_not_isEnclosed henclosed, classifyBare, hnonempty,
      Bool.eq_false_iff.mpr (mt htemplate.mp hframed), hoperator]
    rfl
  · intro henclosed hframed
    rw [htrim] at henclosed hframed
    rw [classify, htrim, stripParens_of_not_isEnclosed henclosed, classifyBare, hnonempty,
      htemplate.mpr hframed]
    rfl
  · intro henclosed
    constructor
    · intro hcloses
      rw [htrim] at henclosed
      exact not_isEnclosed_append hcloses (by decide) rest henclosed
    · rw [classify, classify, stripParens_of_isEnclosed henclosed, String.toList_ofList]

theorem openZone_conditional :
    (forall x, x ∈ (Choice.ternary "(zone?.open)" "\x60on-$\x7bx\x7d\x60" "[')', x]").operands ->
      IsOperand x) ∧
      classify "(zone?.open) ? \x60on-$\x7bx\x7d\x60 : [')', x]" = .conditional := by
  have hoperands : forall x,
      x ∈ (Choice.ternary "(zone?.open)" "\x60on-$\x7bx\x7d\x60" "[')', x]").operands ->
      IsOperand x := by
    decide
  have hkind := (choice_kind _ hoperands).1 (by decide) fun hframed =>
    absurd hframed.first (by decide)
  exact ⟨hoperands, hkind⟩

/-- The operator between two templates is not seen. -/
theorem templateChoice_misread :
    (forall x, x ∈ (Choice.either "\x60$\x7bzone\x7d\x60" "\x60none\x60").operands ->
      IsOperand x) ∧
      classify (Choice.either "\x60$\x7bzone\x7d\x60" "\x60none\x60").text = .template := by
  decide +kernel

end Expression
end PayloadFlow
