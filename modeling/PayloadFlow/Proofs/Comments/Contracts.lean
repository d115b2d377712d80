import PayloadFlow.Extract.Contracts
import PayloadFlow.Proofs.Comments.Handler
import PayloadFlow.Proofs.Comments.Producer
import PayloadFlow.Proofs.Comments.Transformation

/-!
# Contracts and comments

A source and the source with blanks in place of its comments give the same contracts in
every role, up to the texts that contracts keep as they are written.  Three things are asked
of the comments.  None stands first in a construct that is about its first child, such as a
returned value.  None stands in a name or makes a step look optional.  None changes how the
text of a value is read.
-/

namespace PayloadFlow

open Script

/-!
# Contracts up to texts
-/

/-- A contract without the texts of values and guards. -/
def Contract.withoutTexts : Contract -> Contract
  | .producer c => .producer (Producer.withoutTexts c)
  | .broker t => .broker t.withoutTexts
  | .consumer c => .consumer c

/-- The texts that the contracts of a role are read from are read the same with their
comments blanked. -/
def TextsAlike (config : Config) (role : Role) (path : String) (program : Node) : Prop :=
  match role with
  | .producer => forall f, f ∈ program.functions -> Producer.ValuesAlike f.body
  | .broker =>
      forall r, r ∈ Broker.routine? config.broker.prepareFunctions config.broker.generators path
        program -> r.ValuesAlike
  | .consumer => Consumer.NamesAlike config.consumer.registrationCalls program

instance (config : Config) (role : Role) (path : String) (program : Node) :
    Decidable (TextsAlike config role path program) :=
  match role with
  | .producer =>
      inferInstanceAs (Decidable (forall f, f ∈ program.functions -> Producer.ValuesAlike f.body))
  | .broker =>
      inferInstanceAs (Decidable (forall r, r ∈ Broker.routine? config.broker.prepareFunctions
        config.broker.generators path program -> r.ValuesAlike))
  | .consumer =>
      inferInstanceAs (Decidable (Consumer.NamesAlike config.consumer.registrationCalls program))

theorem contractsOf_uncommented {config : Config} {role : Role} {path : String} {program : Node}
    (h : program.Tidied) (htexts : TextsAlike config role path program) :
    (contractsOf config role path program.uncommented).map Contract.withoutTexts =
      (contractsOf config role path program).map Contract.withoutTexts := by
  unfold contractsOf
  cases role with
  | producer =>
      have hcontracts := Producer.contracts_uncommented config.broker.entryPoints path h htexts
      dsimp only
      rw [List.map_map, List.map_map]
      calc
        _ = ((Producer.contracts config.broker.entryPoints path program.uncommented).map
              Producer.withoutTexts).map Contract.producer := (List.map_map ..).symm
        _ = ((Producer.contracts config.broker.entryPoints path program).map
              Producer.withoutTexts).map Contract.producer := by rw [hcontracts]
        _ = _ := List.map_map ..
  | broker =>
      have hcontracts := Broker.contracts_uncommented h htexts
      dsimp only
      rw [List.map_map, List.map_map]
      calc
        _ = ((Broker.contracts config.broker.prepareFunctions config.broker.generators path
              program.uncommented).map BrokerTransformation.withoutTexts).map Contract.broker :=
            (List.map_map ..).symm
        _ = ((Broker.contracts config.broker.prepareFunctions config.broker.generators path
              program).map BrokerTransformation.withoutTexts).map Contract.broker := by
            rw [hcontracts]
        _ = _ := List.map_map ..
  | consumer =>
      dsimp only
      rw [Consumer.contracts_uncommented _ _ path h htexts]

theorem extract_of_parseSource {config : Config} {role : Role} {path source : String}
    {program : Node} (hparse : parseSource path source = .ok program) :
    extract config role path source = .ok (contractsOf config role path program) := by
  unfold extract
  rw [hparse]

/-- Comments leave the contracts of a source as they are, texts as written apart. -/
theorem extract_blankedSource {config : Config} {role : Role} {path source : String}
    {program : Node} (hparse : parseSource path source = .ok program)
    (hblanked : parseSource path (program.blankedSource source) = .ok program.uncommented)
    (hread : program.IsReadFrom source) (hunread : program.CommentsUnread)
    (htexts : TextsAlike config role path program) :
    exists contracts others, extract config role path source = .ok contracts ∧
      extract config role path (program.blankedSource source) = .ok others ∧
      others.map Contract.withoutTexts = contracts.map Contract.withoutTexts := by
  refine ⟨_, _, extract_of_parseSource hparse, extract_of_parseSource hblanked, ?_⟩
  exact contractsOf_uncommented (Node.tidied_of_isReadFrom hread hunread) htexts

/-!
# Two routines
-/

theorem eq_of_parsesTo {path source : String} {program : Node}
    (h : parsesTo path source (fun other => (other.decEq program).decide) = true) :
    parseSource path source = .ok program := by
  rcases exists_of_parsesTo h with ⟨other, hparse, hother⟩
  rw [hparse, @of_decide_eq_true _ (other.decEq program) hother]

def commentedRoutine : String :=
  "function prepare(e,p)\x7b/*s\n*/return\x7ba:p.a/*v*/\x7d\x7d"

theorem commentedRoutine_blanked :
    exists program contracts others, parseSource "b.js" commentedRoutine = .ok program ∧
      parseSource "b.js" (program.blankedSource commentedRoutine) = .ok program.uncommented ∧
      program.IsReadFrom commentedRoutine ∧ program.CommentsUnread ∧
      TextsAlike {} .broker "b.js" program ∧ program.comments.length = 2 ∧
      extract {} .broker "b.js" commentedRoutine = .ok contracts ∧
      extract {} .broker "b.js" (program.blankedSource commentedRoutine) = .ok others ∧
      others.map Contract.withoutTexts = contracts.map Contract.withoutTexts ∧
      contracts.length = 1 := by
  have hcheck : parsesTo "b.js" commentedRoutine (fun program =>
      decide (program.IsReadFrom commentedRoutine ∧ program.CommentsUnread ∧
          TextsAlike {} .broker "b.js" program ∧ program.comments.length = 2 ∧
          (contractsOf {} .broker "b.js" program).length = 1) &&
        parsesTo "b.js" (program.blankedSource commentedRoutine)
          fun other => (other.decEq program.uncommented).decide) = true := by
    decide +kernel
  rcases exists_of_parsesTo hcheck with ⟨program, hparse, hprogram⟩
  rcases (Bool.and_eq_true ..).mp hprogram with ⟨hconditions, hother⟩
  rcases of_decide_eq_true hconditions with ⟨hread, hunread, htexts, hcomments, hlength⟩
  have hblanked := eq_of_parsesTo hother
  rcases extract_blankedSource hparse hblanked hread hunread htexts with
    ⟨contracts, others, hcontracts, hothers, halike⟩
  have hsame := (extract_of_parseSource hparse).symm.trans hcontracts
  refine ⟨program, contracts, others, hparse, hblanked, hread, hunread, htexts, hcomments,
    hcontracts, hothers, halike, ?_⟩
  rw [← Except.ok.inj hsame]
  exact hlength

def commentedReturn : String :=
  "function prepare(e,p)\x7breturn /* c */ \x7ba:p.a\x7d\x7d"

/-- The comment is taken for the value that is returned: with it the routine has no
transformation, with blanks in its place it has one. -/
theorem commentedReturn_lost :
    exists program, parseSource "b.js" commentedReturn = .ok program ∧
      parseSource "b.js" (program.blankedSource commentedReturn) = .ok program.uncommented ∧
      extract {} .broker "b.js" commentedReturn = .ok [] ∧
      exists t, extract {} .broker "b.js" (program.blankedSource commentedReturn) = .ok [t] := by
  have hcheck : parsesTo "b.js" commentedReturn (fun program =>
      decide (contractsOf {} .broker "b.js" program = [] ∧
          (contractsOf {} .broker "b.js" program.uncommented).length = 1) &&
        parsesTo "b.js" (program.blankedSource commentedReturn)
          fun other => (other.decEq program.uncommented).decide) = true := by
    decide +kernel
  rcases exists_of_parsesTo hcheck with ⟨program, hparse, hprogram⟩
  rcases (Bool.and_eq_true ..).mp hprogram with ⟨hcounts, hother⟩
  rcases of_decide_eq_true hcounts with ⟨hnone, hone⟩
  rcases List.length_eq_one_iff.mp hone with ⟨t, ht⟩
  have hblanked := eq_of_parsesTo hother
  refine ⟨program, hparse, hblanked, ?_, t, ?_⟩
  · rw [extract_of_parseSource hparse, hnone]
  · rw [extract_of_parseSource hblanked, ht]

end PayloadFlow
