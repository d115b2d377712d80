import Mathlib.Data.List.Nodup
import Mathlib.Data.List.TakeWhile
import PayloadFlow.Proofs.EventOverlap

/-!
# Switches and what falls through

A switch runs its clauses from the label of the event on, or from the default on, up to the
first one with a body.  Reading the clauses one by one, with the labels that wait for a body,
finds the body of a run for every event exactly if the default stands in an orderly place.
-/

namespace PayloadFlow
namespace Broker

/-- A clause of a switch; one without a label is the default. -/
structure Clause (α : Type) where
  label : Option String
  body : Option α

variable {α : Type}

namespace Clause

def isCase (c : Clause α) : Bool :=
  c.label.isSome

def isLabelled (event : String) (c : Clause α) : Bool :=
  c.label == some event

/-- Whether the label is the event in some spelling. -/
def isFor (event : String) (c : Clause α) : Bool :=
  c.label.any fun text => EventName.normalize text == EventName.normalize event

end Clause

def firstBody? (clauses : List (Clause α)) : Option α :=
  clauses.findSome? Clause.body

structure Switch (α : Type) where
  clauses : List (Clause α)
  last : Option α

namespace Switch

/-- The clauses that are run through for an event. -/
def entered (s : Switch α) (event : String) : List (Clause α) :=
  match s.clauses.dropWhile fun c => !c.isLabelled event with
  | [] => s.clauses.dropWhile Clause.isCase
  | run => run

/-- What a run gives back for an event. -/
def returned (s : Switch α) (event : String) : Option α :=
  (firstBody? (s.entered event)).or s.last

/-- What is read for an event.  A label takes the next body of a case, past a default between
them; for all other events, what follows the switch comes before the body of the default. -/
def answered (s : Switch α) (event : String) : Option α :=
  (firstBody? ((s.clauses.filter Clause.isCase).dropWhile fun c => !c.isFor event)).or
    (s.last.or (firstBody? (s.clauses.filter fun c => !c.isCase)))

def answers (s : Switch α) : List α :=
  s.clauses.filterMap Clause.body ++ s.last.toList

/-- Only the event itself is a label, no other spelling of it. -/
def Spells (s : Switch α) (event : String) : Prop :=
  forall c, c ∈ s.clauses -> c.isFor event = true -> c.isLabelled event = true

/-- A default between cases is in its place.  Either no body comes after it, and it has none
itself or nothing follows the switch; or it has a body, nothing follows the switch, and no
label falls into it. -/
def Placed (last : Option α) (before : List (Clause α)) (default : Clause α)
    (after : List (Clause α)) : Prop :=
  (firstBody? after = none ∧ (default.body = none ∨ last = none)) ∨
    (default.body ≠ none ∧ last = none ∧ forall c, c ∈ before.getLast? -> c.body ≠ none)

/-- The first default, if there is one, is in its place. -/
def Orderly (s : Switch α) : Prop :=
  forall default, default ∈ (s.clauses.dropWhile Clause.isCase).head? ->
    Placed s.last (s.clauses.takeWhile Clause.isCase) default
      (s.clauses.dropWhile Clause.isCase).tail

instance (last : Option α) (before : List (Clause α)) (default : Clause α)
    (after : List (Clause α)) : Decidable (Placed last before default after) :=
  inferInstanceAs (Decidable (_ ∨ _))

instance (s : Switch α) : Decidable s.Orderly :=
  inferInstanceAs (Decidable (forall default, default ∈ List.head? _ -> _))

end Switch

/-!
# Bodies of clauses
-/

section

variable {clauses before after : List (Clause α)}

theorem firstBody?_append (before after : List (Clause α)) :
    firstBody? (before ++ after) = (firstBody? before).or (firstBody? after) :=
  List.findSome?_append

theorem firstBody?_cons (c : Clause α) (after : List (Clause α)) :
    firstBody? (c :: after) = c.body.or (firstBody? after) := by
  unfold firstBody?
  rw [List.findSome?_cons]
  cases c.body with
  | none =>
      rfl
  | some a =>
      rfl

theorem mem_bodies_of_firstBody? {a : α} (ha : firstBody? clauses = some a) :
    a ∈ clauses.filterMap Clause.body := by
  rcases List.exists_of_findSome?_eq_some ha with ⟨c, hc, hbody⟩
  exact List.mem_filterMap.mpr ⟨c, hc, hbody⟩

theorem filter_default_of_forall (hcases : forall c, c ∈ clauses -> c.isCase = true) :
    (clauses.filter fun c => !c.isCase) = [] := by
  rw [List.filter_eq_nil_iff]
  intro c hc
  rw [hcases c hc]
  exact Bool.false_ne_true

end

/-!
# Where the default stands
-/

namespace Switch

section

variable {s : Switch α} {before after : List (Clause α)} {default : Clause α} {event : String}

structure Around (s : Switch α) (before : List (Clause α)) (default : Clause α)
    (after : List (Clause α)) : Prop where
  clauses : s.clauses = before ++ default :: after
  before : forall c, c ∈ before -> c.isCase = true
  default : default.isCase = false
  after : forall c, c ∈ after -> c.isCase = true

theorem cases_or_around (hlabels : (s.clauses.map Clause.label).Nodup) :
    (forall c, c ∈ s.clauses -> c.isCase = true) ∨
      exists before default after, s.Around before default after := by
  cases hfound : s.clauses.find? fun c => !c.isCase with
  | none =>
      left
      intro c hc
      simpa using List.find?_eq_none.mp hfound c hc
  | some default =>
      right
      rcases List.find?_eq_some_iff_append.mp hfound with
        ⟨hdefault, before, after, hclauses, hbefore⟩
      have hlabel : default.label = none := by simpa [Clause.isCase] using hdefault
      refine ⟨before, default, after, hclauses, fun c hc => by simpa using hbefore c hc,
        by simpa using hdefault, ?_⟩
      -- a second default would have the label of the first one
      intro c hc
      rw [hclauses, List.map_append, List.map_cons, List.nodup_append'] at hlabels
      have hother := (List.nodup_cons.mp hlabels.2.1).1
      rw [Clause.isCase, Option.isSome_iff_ne_none]
      intro hnone
      exact hother (hlabel.trans hnone.symm ▸ List.mem_map_of_mem hc)

theorem orderly_of_cases (hcases : forall c, c ∈ s.clauses -> c.isCase = true) : s.Orderly := by
  intro default hdefault
  rw [List.dropWhile_eq_nil_iff.mpr hcases] at hdefault
  cases hdefault

theorem Around.dropWhile_eq (h : s.Around before default after) :
    s.clauses.dropWhile Clause.isCase = default :: after := by
  rw [h.clauses, List.dropWhile_append_of_pos h.before,
    List.dropWhile_cons_of_neg (by simp [h.default])]

theorem Around.takeWhile_eq (h : s.Around before default after) :
    s.clauses.takeWhile Clause.isCase = before := by
  rw [h.clauses, List.takeWhile_append_of_pos h.before,
    List.takeWhile_cons_of_neg (by simp [h.default]), List.append_nil]

theorem Around.orderly_iff (h : s.Around before default after) :
    s.Orderly <-> Placed s.last before default after := by
  unfold Orderly
  rw [h.dropWhile_eq, h.takeWhile_eq]
  simp

theorem Around.firstDefault_eq (h : s.Around before default after) :
    firstBody? (s.clauses.filter fun c => !c.isCase) = default.body := by
  rw [h.clauses, List.filter_append, filter_default_of_forall h.before,
    List.filter_cons_of_pos (by simp [h.default]), filter_default_of_forall h.after,
    List.nil_append, firstBody?_cons]
  exact Option.or_none

/-!
# Where a run enters
-/

theorem isFor_of_isLabelled {c : Clause α} (hlabel : c.isLabelled event = true) :
    c.isFor event = true := by
  rw [Clause.isLabelled, beq_iff_eq] at hlabel
  rw [Clause.isFor, hlabel]
  exact beq_self_eq_true _

theorem isCase_of_isLabelled {c : Clause α} (hlabel : c.isLabelled event = true) :
    c.isCase = true := by
  rw [Clause.isLabelled, beq_iff_eq] at hlabel
  rw [Clause.isCase, hlabel]
  rfl

structure EntersAt (s : Switch α) (event : String) (passed : List (Clause α)) (entry : Clause α)
    (rest : List (Clause α)) : Prop where
  clauses : s.clauses = passed ++ entry :: rest
  entry : entry.isLabelled event = true
  passed : forall c, c ∈ passed -> c.isLabelled event = false

variable {passed rest : List (Clause α)} {entry : Clause α}

theorem EntersAt.returned_eq (h : s.EntersAt event passed entry rest) :
    s.returned event = (firstBody? (entry :: rest)).or s.last := by
  have hentered : s.entered event = entry :: rest := by
    unfold entered
    rw [h.clauses, List.dropWhile_append_of_pos (fun c hc => by simp [h.passed c hc]),
      List.dropWhile_cons_of_neg (by simp [h.entry])]
  rw [returned, hentered]

theorem EntersAt.answered_eq (h : s.EntersAt event passed entry rest)
    (hspells : s.Spells event) :
    s.answered event = (firstBody? ((entry :: rest).filter Clause.isCase)).or
      (s.last.or (firstBody? (s.clauses.filter fun c => !c.isCase))) := by
  have hpassed : forall c, c ∈ passed -> (!c.isCase || !c.isFor event) = true := by
    intro c hc
    have hfor : c.isFor event = false := by
      rw [← Bool.not_eq_true]
      intro hfor
      have hlabel := hspells c (h.clauses ▸ List.mem_append_left _ hc) hfor
      rw [h.passed c hc] at hlabel
      cases hlabel
    rw [hfor, Bool.not_false, Bool.or_true]
  have hread : (s.clauses.filter Clause.isCase).dropWhile (fun c => !c.isFor event) =
      (entry :: rest).filter Clause.isCase := by
    rw [List.dropWhile_filter, h.clauses, List.dropWhile_append_of_pos hpassed,
      List.dropWhile_cons_of_neg
        (by simp [isCase_of_isLabelled h.entry, isFor_of_isLabelled h.entry])]
  rw [answered, hread]

/-- No clause has the event as its label. -/
def Misses (s : Switch α) (event : String) : Prop :=
  forall c, c ∈ s.clauses -> c.isLabelled event = false

theorem Misses.returned_eq (h : s.Misses event) :
    s.returned event = (firstBody? (s.clauses.dropWhile Clause.isCase)).or s.last := by
  have hentered : s.entered event = s.clauses.dropWhile Clause.isCase := by
    unfold entered
    rw [List.dropWhile_eq_nil_iff.mpr (fun c hc => by simp [h c hc])]
  rw [returned, hentered]

theorem Misses.answered_eq (h : s.Misses event) (hspells : s.Spells event) :
    s.answered event = s.last.or (firstBody? (s.clauses.filter fun c => !c.isCase)) := by
  have hread : (s.clauses.filter Clause.isCase).dropWhile (fun c => !c.isFor event) = [] := by
    rw [List.dropWhile_eq_nil_iff]
    intro c hc
    have hmem := (List.mem_filter.mp hc).1
    have hfor : c.isFor event ≠ true := by
      intro hfor
      have hlabel := hspells c hmem hfor
      rw [h c hmem] at hlabel
      cases hlabel
    simpa using hfor
  rw [answered, hread]
  rfl

theorem enters_or_misses (s : Switch α) (event : String) :
    (exists passed entry rest, s.EntersAt event passed entry rest) ∨ s.Misses event := by
  cases hfound : s.clauses.find? fun c => c.isLabelled event with
  | some entry =>
      left
      rcases List.find?_eq_some_iff_append.mp hfound with ⟨hentry, passed, rest, hclauses, hpassed⟩
      exact ⟨passed, entry, rest, hclauses, hentry, fun c hc => by simpa using hpassed c hc⟩
  | none =>
      right
      intro c hc
      simpa using List.find?_eq_none.mp hfound c hc

/-!
# An orderly switch is read as it runs
-/

theorem firstBody?_ne_none_of_getLast? {clauses : List (Clause α)} (hne : clauses ≠ [])
    (hlast : forall c, c ∈ clauses.getLast? -> c.body ≠ none) : firstBody? clauses ≠ none := by
  intro hnone
  have hmem := List.getLast_mem hne
  exact hlast _ (List.getLast?_eq_some_getLast hne)
    (List.findSome?_eq_none_iff.mp hnone _ hmem)

theorem EntersAt.before_or_after (h : s.EntersAt event passed entry rest)
    (haround : s.Around before default after) :
    (exists between, before = passed ++ entry :: between ∧ rest = between ++ default :: after) ∨
      exists between, after = between ++ entry :: rest := by
  have hother : entry ≠ default := by
    intro heq
    have hcase := isCase_of_isLabelled h.entry
    rw [heq, haround.default] at hcase
    cases hcase
  rcases List.append_eq_append_iff.mp (h.clauses.symm.trans haround.clauses) with
    ⟨between, hbefore, hrest⟩ | ⟨between, hpassed, hafter⟩
  · cases between with
    | nil =>
        cases hrest
        exact absurd rfl hother
    | cons c between =>
        cases hrest
        exact Or.inl ⟨between, hbefore, rfl⟩
  · cases between with
    | nil =>
        cases hafter
        exact absurd rfl hother
    | cons c between =>
        cases hafter
        exact Or.inr ⟨between, rfl⟩

theorem EntersAt.answered_of_placed (h : s.EntersAt event passed entry rest)
    (hspells : s.Spells event) (haround : s.Around before default after)
    (hplaced : Placed s.last before default after) {a : α} (ha : s.returned event = some a) :
    s.answered event = some a := by
  rw [h.returned_eq] at ha
  rw [h.answered_eq hspells, haround.firstDefault_eq]
  rcases h.before_or_after haround with ⟨between, rfl, rfl⟩ | ⟨between, rfl⟩
  · -- the default is met on the way, unless a body comes before it
    have hcases : forall c, c ∈ entry :: between -> c.isCase = true :=
      fun c hc => haround.before c (List.mem_append_right passed hc)
    rw [← List.cons_append, firstBody?_append, firstBody?_cons default] at ha
    rw [← List.cons_append, List.filter_append, List.filter_eq_self.mpr hcases,
      List.filter_cons_of_neg (by simp [haround.default]), List.filter_eq_self.mpr haround.after,
      firstBody?_append]
    rcases hplaced with ⟨hnone, hbody | hlast⟩ | ⟨_, _, hlabel⟩
    · simpa [hnone, hbody] using ha
    · simpa [hnone, hlast] using ha
    · have hfirst : firstBody? (entry :: between) ≠ none := by
        apply firstBody?_ne_none_of_getLast? (List.cons_ne_nil _ _)
        rwa [List.getLast?_append_of_ne_nil _ (List.cons_ne_nil _ _)] at hlabel
      rcases Option.ne_none_iff_exists'.mp hfirst with ⟨b, hb⟩
      simpa [hb] using ha
  · -- the default has been passed
    have hcases : forall c, c ∈ entry :: rest -> c.isCase = true :=
      fun c hc => haround.after c (List.mem_append_right between hc)
    rw [List.filter_eq_self.mpr hcases, ← Option.or_assoc, ha]
    rfl

theorem Misses.answered_of_placed (h : s.Misses event) (hspells : s.Spells event)
    (haround : s.Around before default after) (hplaced : Placed s.last before default after)
    {a : α} (ha : s.returned event = some a) : s.answered event = some a := by
  rw [h.returned_eq, haround.dropWhile_eq, firstBody?_cons] at ha
  rw [h.answered_eq hspells, haround.firstDefault_eq]
  rcases hplaced with ⟨hnone, hbody | hlast⟩ | ⟨hbody, hlast, _⟩
  · simpa [hnone, hbody] using ha
  · simpa [hnone, hlast] using ha
  · rcases Option.ne_none_iff_exists'.mp hbody with ⟨b, hb⟩
    simpa [hb, hlast] using ha

/-- Without a default, a switch is read as it runs. -/
theorem answered_eq_returned_of_cases (hspells : s.Spells event)
    (hcases : forall c, c ∈ s.clauses -> c.isCase = true) :
    s.answered event = s.returned event := by
  rcases s.enters_or_misses event with ⟨passed, entry, rest, h⟩ | h
  · have hrest : forall c, c ∈ entry :: rest -> c.isCase = true :=
      fun c hc => hcases c (h.clauses ▸ List.mem_append_right passed hc)
    rw [h.answered_eq hspells, h.returned_eq, filter_default_of_forall hcases,
      List.filter_eq_self.mpr hrest]
    exact congrArg _ Option.or_none
  · rw [h.answered_eq hspells, h.returned_eq, filter_default_of_forall hcases,
      List.dropWhile_eq_nil_iff.mpr hcases]
    exact Option.or_none

theorem answered_of_orderly (hlabels : (s.clauses.map Clause.label).Nodup) (horderly : s.Orderly)
    (hspells : s.Spells event) {a : α} (ha : s.returned event = some a) :
    s.answered event = some a := by
  rcases cases_or_around hlabels with hcases | ⟨before, default, after, haround⟩
  · rw [answered_eq_returned_of_cases hspells hcases, ha]
  · have hplaced := haround.orderly_iff.mp horderly
    rcases s.enters_or_misses event with ⟨passed, entry, rest, h⟩ | h
    · exact h.answered_of_placed hspells haround hplaced ha
    · exact h.answered_of_placed hspells haround hplaced ha

/-!
# Only an orderly switch is read as it runs

The events that tell are one without a label, and the label before the default.
-/

/-- Some event is spelled unlike any of finitely many texts. -/
theorem exists_unlike (texts : List String) :
    exists event, forall text, text ∈ texts ->
      EventName.normalize text ≠ EventName.normalize event := by
  -- the letters of all texts, and one more, are more than any of them has
  have hlong : exists event, forall text, text ∈ texts ->
      (EventName.squash text).toList.length < (EventName.squash event).toList.length := by
    induction texts with
    | nil =>
        exact ⟨"", fun text htext => nomatch htext⟩
    | cons first texts ih =>
        rcases ih with ⟨event, hevent⟩
        refine ⟨"a" ++ (first ++ event), ?_⟩
        have hone : (EventName.squash "a").toList.length = 1 := by decide +kernel
        intro text htext
        rw [EventName.toList_squash_append, EventName.toList_squash_append, List.length_append,
          List.length_append, hone]
        rcases List.mem_cons.mp htext with rfl | htext
        · omega
        · have hshorter := hevent text htext
          omega
  rcases hlong with ⟨event, hevent⟩
  refine ⟨event, fun text htext hsame => ?_⟩
  have hless := hevent text htext
  rw [EventName.squash_eq_of_normalize_eq hsame] at hless
  exact Nat.lt_irrefl _ hless

def spellings (s : Switch α) : List (Option String) :=
  s.clauses.map fun c => c.label.map EventName.normalize

theorem nodup_labels_of_spellings (hspellings : s.spellings.Nodup) :
    (s.clauses.map Clause.label).Nodup := by
  apply List.Nodup.of_map (Option.map EventName.normalize)
  rw [List.map_map]
  exact hspellings

theorem spells_of_isLabelled (hspellings : s.spellings.Nodup) {c : Clause α}
    (hc : c ∈ s.clauses) (hlabel : c.isLabelled event = true) : s.Spells event := by
  intro d hd hfor
  rw [Clause.isLabelled, beq_iff_eq] at hlabel
  rcases (Option.any_eq_true ..).mp hfor with ⟨text, htext, hsame⟩
  have heq : d.label.map EventName.normalize = c.label.map EventName.normalize := by
    rw [htext, hlabel, Option.map_some, Option.map_some, beq_iff_eq.mp hsame]
  rw [List.inj_on_of_nodup_map hspellings hd hc heq, Clause.isLabelled, hlabel]
  exact beq_self_eq_true _

theorem exists_misses (s : Switch α) : exists event, s.Misses event ∧ s.Spells event := by
  rcases exists_unlike (s.clauses.filterMap Clause.label) with ⟨event, hevent⟩
  have hfor : forall c, c ∈ s.clauses -> c.isFor event ≠ true := by
    intro c hc hfor
    rcases (Option.any_eq_true ..).mp hfor with ⟨text, htext, hsame⟩
    exact hevent text (List.mem_filterMap.mpr ⟨c, hc, htext⟩) (beq_iff_eq.mp hsame)
  refine ⟨event, ?_, fun c hc h => absurd h (hfor c hc)⟩
  intro c hc
  rw [← Bool.not_eq_true]
  exact fun hlabel => hfor c hc (isFor_of_isLabelled hlabel)

/-- What the default, the clauses after it and the end give back are three answers. -/
theorem Around.answers_apart (h : s.Around before default after) (hanswers : s.answers.Nodup)
    {a : α} :
    (default.body = some a -> firstBody? after ≠ some a) ∧
      (default.body = some a -> s.last ≠ some a) ∧
        (firstBody? after = some a -> s.last ≠ some a) := by
  have hsplit : s.answers = before.filterMap Clause.body ++
      (default.body.toList ++ (after.filterMap Clause.body ++ s.last.toList)) := by
    rw [answers, h.clauses, List.filterMap_append, List.filterMap_cons]
    cases default.body with
    | none =>
        simp
    | some b =>
        simp
  rw [hsplit] at hanswers
  rcases List.nodup_append'.mp (List.nodup_append'.mp hanswers).2.1 with ⟨_, hrest, hdefault⟩
  have hafter := (List.nodup_append'.mp hrest).2.2
  refine ⟨?_, ?_, ?_⟩
  · intro hbody hfirst
    exact hdefault (Option.mem_toList.mpr hbody)
      (List.mem_append_left _ (mem_bodies_of_firstBody? hfirst))
  · intro hbody hlast
    exact hdefault (Option.mem_toList.mpr hbody)
      (List.mem_append_right _ (Option.mem_toList.mpr hlast))
  · intro hfirst hlast
    exact hafter (mem_bodies_of_firstBody? hfirst) (Option.mem_toList.mpr hlast)

theorem entersAt_of_mem (hlabels : (s.clauses.map Clause.label).Nodup)
    (hclauses : s.clauses = passed ++ entry :: rest) (hentry : entry.isLabelled event = true) :
    s.EntersAt event passed entry rest := by
  refine ⟨hclauses, hentry, fun c hc => ?_⟩
  rw [hclauses, List.map_append] at hlabels
  have happart := (List.nodup_append'.mp hlabels).2.2
  rw [← Bool.not_eq_true]
  intro hlabel
  rw [Clause.isLabelled, beq_iff_eq] at hlabel hentry
  have hsame : c.label = entry.label := hlabel.trans hentry.symm
  exact happart (List.mem_map_of_mem hc) (hsame ▸ List.mem_map_of_mem List.mem_cons_self)

/-- What is read is what a run gives back, wherever that is something. -/
def ReadAsRun (s : Switch α) : Prop :=
  forall event, s.Spells event -> forall a, s.returned event = some a -> s.answered event = some a

/-- A label that falls into the default tells if a body comes after it. -/
theorem Around.getLast?_body_ne_none (h : s.Around before default after)
    (hspellings : s.spellings.Nodup) (hanswers : s.answers.Nodup) (hread : s.ReadAsRun) {a b : α}
    (ha : default.body = some a) (hb : firstBody? after = some b) {c : Clause α}
    (hc : c ∈ before.getLast?) : c.body ≠ none := by
  intro hnone
  rcases Option.isSome_iff_exists.mp (h.before c (List.mem_of_getLast? hc)) with ⟨event, hevent⟩
  have hlabel : c.isLabelled event = true := by
    rw [Clause.isLabelled, hevent]
    exact beq_self_eq_true _
  have hsplit : s.clauses = before.dropLast ++ c :: (default :: after) := by
    rw [h.clauses, ← List.dropLast_append_getLast? c hc, List.append_assoc, List.dropLast_concat]
    rfl
  have henters := entersAt_of_mem (nodup_labels_of_spellings hspellings) hsplit hlabel
  have hspells : s.Spells event :=
    spells_of_isLabelled hspellings (hsplit ▸ List.mem_append_right _ List.mem_cons_self) hlabel
  have hreturned : s.returned event = some a := by
    rw [henters.returned_eq, firstBody?_cons, firstBody?_cons, hnone, ha]
    rfl
  have hanswered := hread event hspells a hreturned
  rw [henters.answered_eq hspells, List.filter_cons_of_pos (isCase_of_isLabelled hlabel),
    List.filter_cons_of_neg (by simp [h.default]), List.filter_eq_self.mpr h.after,
    firstBody?_cons, hnone, hb] at hanswered
  exact (h.answers_apart hanswers).1 ha (hb.trans hanswered)

/-- What an event without a label shows of the default. -/
theorem Around.read_default (h : s.Around before default after) (hread : s.ReadAsRun) {a : α}
    (ha : (default.body.or (firstBody? after)).or s.last = some a) :
    s.last.or default.body = some a := by
  rcases s.exists_misses with ⟨other, hmisses, hspells⟩
  have hreadOther := hread other hspells a
  rw [hmisses.returned_eq, hmisses.answered_eq hspells, h.firstDefault_eq, h.dropWhile_eq,
    firstBody?_cons] at hreadOther
  exact hreadOther ha

theorem orderly_of_readAsRun (hspellings : s.spellings.Nodup) (hanswers : s.answers.Nodup)
    (hread : s.ReadAsRun) : s.Orderly := by
  rcases cases_or_around (nodup_labels_of_spellings hspellings) with
    hcases | ⟨before, default, after, h⟩
  · exact orderly_of_cases hcases
  · rw [h.orderly_iff]
    cases hbody : default.body with
    | none =>
        cases hfirst : firstBody? after with
        | none =>
            exact Or.inl ⟨hfirst, Or.inl hbody⟩
        | some b =>
            -- an event without a label is run into a case and read from the end
            have hlast := h.read_default hread (a := b) (by rw [hbody, hfirst]; rfl)
            rw [hbody, Option.or_none] at hlast
            exact absurd hlast ((h.answers_apart hanswers).2.2 hfirst)
    | some a =>
        have hlast : s.last = none := by
          rw [Option.eq_none_iff_forall_ne_some]
          intro b hb
          have hsame := h.read_default hread (a := a) (by rw [hbody]; rfl)
          rw [hb] at hsame
          cases hsame
          exact (h.answers_apart hanswers).2.1 hbody hb
        cases hfirst : firstBody? after with
        | none =>
            exact Or.inl ⟨hfirst, Or.inr hlast⟩
        | some b =>
            refine Or.inr ⟨by rw [hbody]; exact Option.some_ne_none a, hlast, fun c hc => ?_⟩
            exact h.getLast?_body_ne_none hspellings hanswers hread hbody hfirst hc

end

end Switch

/-!
# Clause by clause

Of the labels before, the answer to an event needs to know only whether one of them is for
the event and waits for a body.
-/

namespace Clause

def answer? (event : String) (waiting : Bool) (c : Clause α) : Option α :=
  if c.isCase && (waiting || c.isFor event) then c.body else none

/-- Whether the event waits for a body after the clause. -/
def waitsAfter (event : String) (waiting : Bool) (c : Clause α) : Bool :=
  if c.isCase then c.body.isNone && (waiting || c.isFor event) else waiting

end Clause

def readOn (event : String) : Bool -> List (Clause α) -> Option α
  | _, [] => none
  | waiting, c :: rest =>
      (c.answer? event waiting).or (readOn event (c.waitsAfter event waiting) rest)

theorem readOn_eq (event : String) (waiting : Bool) (clauses : List (Clause α)) :
    readOn event waiting clauses = firstBody?
      (if waiting then clauses.filter Clause.isCase
        else (clauses.filter Clause.isCase).dropWhile fun c => !c.isFor event) := by
  induction clauses generalizing waiting with
  | nil =>
      cases waiting <;> rfl
  | cons c rest ih =>
      rw [readOn, ih, Clause.answer?, Clause.waitsAfter]
      cases hcase : c.isCase with
      | false =>
          simp [hcase]
      | true =>
          cases hheard : waiting || c.isFor event with
          | false =>
              rcases Bool.or_eq_false_iff.mp hheard with ⟨rfl, hfor⟩
              simp [hcase, hfor]
          | true =>
              have hread : (if waiting then (c :: rest).filter Clause.isCase
                  else ((c :: rest).filter Clause.isCase).dropWhile fun c => !c.isFor event) =
                  c :: rest.filter Clause.isCase := by
                rw [List.filter_cons_of_pos hcase]
                cases waiting with
                | true =>
                    rfl
                | false =>
                    rw [Bool.false_or] at hheard
                    rw [if_neg Bool.false_ne_true, List.dropWhile_cons_of_neg (by simp [hheard])]
              rw [hread, firstBody?_cons]
              cases hbody : c.body with
              | none =>
                  simp
              | some a =>
                  simp

theorem Switch.answered_eq_readOn (s : Switch α) (event : String) :
    s.answered event = (readOn event false s.clauses).or
      (s.last.or (firstBody? (s.clauses.filter fun c => !c.isCase))) := by
  rw [readOn_eq]
  rfl

end Broker
end PayloadFlow
