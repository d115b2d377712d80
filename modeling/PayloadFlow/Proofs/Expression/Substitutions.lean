import Mathlib.Data.List.Flatten
import PayloadFlow.Proofs.Expression.Literals

/-!
# Substitutions of templates

A substitution is read as an expression, but the brace that opens it counts like
any other brace.  So an expression between `${` and `}` is read as it would
be between braces alone: a name in front of a colon passes for the key of an
object.  Outside braces the same name is a reference, the second operand of a
choice, and these names are all that a substitution loses.
-/

namespace PayloadFlow
namespace Expression

open Text

/-!
# Well nested texts
-/

/-- What a text is part of: an expression, or a template between its backticks. -/
inductive Region where
  | expression
  | template
  deriving DecidableEq, Repr

/-- Texts in which quotes, backticks, braces and substitutions are closed in the
reverse order in which they are opened. -/
inductive WellNested : Region -> List Char -> Prop
  | nil {region : Region} : WellNested region []
  | char {c : Char} {rest : List Char} : isQuote c = false -> c ≠ '\x7b' -> c ≠ '\x7d' ->
      WellNested .expression rest -> WellNested .expression (c :: rest)
  | braces {inner rest : List Char} : WellNested .expression inner ->
      WellNested .expression rest -> WellNested .expression ('\x7b' :: (inner ++ '\x7d' :: rest))
  | literal {quote : Char} {contents rest : List Char} : quote = '\x27' ∨ quote = '"' ->
      isContents quote contents = true -> WellNested .expression rest ->
      WellNested .expression (quote :: (contents ++ quote :: rest))
  | template {inner rest : List Char} : WellNested .template inner ->
      WellNested .expression rest -> WellNested .expression ('\x60' :: (inner ++ '\x60' :: rest))
  | text {c : Char} {rest : List Char} : c ≠ '\x60' -> c ≠ '\\' ->
      (c = '$' -> rest.head? ≠ some '\x7b') -> WellNested .template rest ->
      WellNested .template (c :: rest)
  | escape (c : Char) {rest : List Char} : WellNested .template rest ->
      WellNested .template ('\\' :: c :: rest)
  | substitution {inner rest : List Char} : WellNested .expression inner ->
      WellNested .template rest ->
      WellNested .template ('$' :: '\x7b' :: (inner ++ '\x7d' :: rest))

def Region.Holds : Region -> Scanning -> Prop
  | .expression, scanning => scanning.isOutside = true
  | .template, scanning => scanning = .quoted '\x60'

namespace Scanner

/-- The substitution that is open has been opened inside fewer braces. -/
def Nests (s : Scanner) : Prop :=
  forall k, s.substitutions.head? = some k -> k < s.braces

def Keeps (s : Scanner) : List Char -> Prop
  | [] => True
  | c :: rest =>
      (s.scanning.isOutside = true -> c = '\x7d' -> 0 < s.braces) ∧ (s.step c rest.head?).Keeps rest

/-- A text leads from one state to another and keeps the braces that are open. -/
structure Reads (s : Scanner) (text : List Char) (t : Scanner) : Prop where
  run : s.run text = t
  keeps : s.Keeps text

theorem Reads.nil (s : Scanner) : s.Reads [] s :=
  ⟨rfl, trivial⟩

theorem Reads.cons {s t u : Scanner} {c : Char} {rest : List Char}
    (hstep : s.step c rest.head? = t)
    (hbrace : s.scanning.isOutside = true -> c = '\x7d' -> 0 < s.braces)
    (hrest : t.Reads rest u) : s.Reads (c :: rest) u := by
  subst hstep
  exact ⟨hrest.run, hbrace, hrest.keeps⟩

theorem keeps_append_cons {s : Scanner} {front : List Char} {mark : Char} (hmark : mark ≠ '\x7b')
    {rest : List Char} (hfront : s.Keeps front) (hrest : (s.run front).Keeps (mark :: rest)) :
    s.Keeps (front ++ mark :: rest) := by
  induction front generalizing s with
  | nil =>
      exact hrest
  | cons c front ih =>
      rw [List.cons_append, Keeps, step_head_append_cons s c front hmark]
      exact ⟨hfront.1, ih hfront.2 hrest⟩

theorem Reads.append_cons {s t u : Scanner} {front : List Char} {mark : Char}
    (hmark : mark ≠ '\x7b') {rest : List Char} (hfront : s.Reads front t)
    (hrest : t.Reads (mark :: rest) u) : s.Reads (front ++ mark :: rest) u := by
  have hrun := hfront.run
  subst hrun
  refine ⟨?_, keeps_append_cons hmark hfront.keeps hrest.keeps⟩
  rw [run_append_cons s front hmark]
  exact hrest.run

/-!
# One character
-/

theorem exists_plainStep_char {c : Char} (hquote : isQuote c = false) (hopen : c ≠ '\x7b')
    (hclose : c ≠ '\x7d') (s : Scanner) :
    exists scanning, scanning.isOutside = true ∧
      s.plainStep c = ⟨scanning, s.braces, s.substitutions⟩ := by
  simp only [plainStep, hquote, hopen, hclose, beq_iff_eq, Bool.false_eq_true, if_false]
  split
  · exact ⟨.word, rfl, rfl⟩
  · split
    · exact ⟨.number, rfl, rfl⟩
    · exact ⟨.plain, rfl, rfl⟩

theorem exists_step_char {c : Char} (hquote : isQuote c = false) (hopen : c ≠ '\x7b')
    (hclose : c ≠ '\x7d') {s : Scanner} (hs : s.scanning.isOutside = true) (next : Option Char) :
    exists scanning, scanning.isOutside = true ∧
      s.step c next = ⟨scanning, s.braces, s.substitutions⟩ := by
  have hplain := exists_plainStep_char hquote hopen hclose s
  rcases s with ⟨scanning, braces, substitutions⟩
  cases scanning with
  | plain =>
      exact hplain
  | word =>
      simp only [step]
      split
      · exact ⟨.word, rfl, rfl⟩
      · exact hplain
  | number =>
      simp only [step]
      split
      · exact ⟨.number, rfl, rfl⟩
      · exact hplain
  | quoted q => cases hs
  | escaped q => cases hs
  | opening => cases hs

theorem step_quote {quote : Char} (hquote : isQuote quote = true) {s : Scanner}
    (hs : s.scanning.isOutside = true) (next : Option Char) :
    s.step quote next = ⟨.quoted quote, s.braces, s.substitutions⟩ := by
  have hmarks : isWordChar quote = false ∧ quote ≠ '.' := by
    simp only [isQuote, Bool.or_eq_true, beq_iff_eq] at hquote
    rcases hquote with (rfl | rfl) | rfl
    · decide
    · decide
    · decide
  rw [step_of_isOutside hs hmarks.1 hmarks.2, plainStep, if_pos hquote]

theorem step_openBrace {s : Scanner} (hs : s.scanning.isOutside = true) (next : Option Char) :
    s.step '\x7b' next = ⟨.plain, s.braces + 1, s.substitutions⟩ := by
  rw [step_of_isOutside hs (by decide) (by decide)]
  rfl

theorem step_closeBrace {s : Scanner} (hs : s.scanning.isOutside = true) (next : Option Char) :
    s.step '\x7d' next =
      if s.substitutions.head? = some (s.braces - 1) then
        ⟨.quoted '\x60', s.braces - 1, s.substitutions.tail⟩
      else ⟨.plain, s.braces - 1, s.substitutions⟩ := by
  rw [step_of_isOutside hs (by decide) (by decide)]
  simp [plainStep, isQuote]

theorem step_template_text {c : Char} (hquote : c ≠ '\x60') (hslash : c ≠ '\\')
    (next : Option Char) (hnext : c = '$' -> next ≠ some '\x7b') (braces : Nat)
    (substitutions : List Nat) :
    step ⟨.quoted '\x60', braces, substitutions⟩ c next =
      ⟨.quoted '\x60', braces, substitutions⟩ := by
  by_cases hdollar : c = '$'
  · simp [step, hdollar, hnext hdollar]
  · simp [step, hquote, hslash, hdollar]

theorem reads_contents {quote : Char} (hquote : IsStringQuote quote) {contents : List Char}
    (hcontents : isContents quote contents = true) (braces : Nat) (substitutions : List Nat) :
    Reads ⟨.quoted quote, braces, substitutions⟩ contents
      ⟨.quoted quote, braces, substitutions⟩ := by
  fun_induction isContents quote contents with
  | case1 =>
      exact .nil _
  | case2 c rest ih =>
      refine .cons (t := ⟨.escaped quote, braces, substitutions⟩) rfl
        (by simp [Scanning.isOutside]) ?_
      exact .cons rfl (by simp [Scanning.isOutside]) (ih hcontents)
  | case3 c rest hnext ih =>
      simp only [Bool.and_eq_true, bne_iff_ne] at hcontents
      rcases hcontents with ⟨⟨hslash, hc⟩, hcontents⟩
      exact .cons (step_quoted_char hquote hslash hc braces substitutions _)
        (by simp [Scanning.isOutside]) (ih hcontents)

end Scanner

/-!
# Reading well nested texts
-/

/-- A well nested text leaves the reader in its region, with the braces and
substitutions that were open before. -/
theorem WellNested.exists_reads {region : Region} {text : List Char}
    (htext : WellNested region text) {s : Scanner} (hs : region.Holds s.scanning)
    (hnests : s.Nests) :
    exists scanning, region.Holds scanning ∧
      s.Reads text ⟨scanning, s.braces, s.substitutions⟩ := by
  induction htext generalizing s with
  | nil =>
      exact ⟨s.scanning, hs, .nil s⟩
  | char hquote hopen hclose _ ih =>
      rcases Scanner.exists_step_char hquote hopen hclose hs _ with ⟨scanning, houtside, hstep⟩
      rcases ih (s := ⟨scanning, s.braces, s.substitutions⟩) houtside hnests
        with ⟨last, hlast, hrest⟩
      exact ⟨last, hlast, .cons hstep (fun _ heq => absurd heq hclose) hrest⟩
  | braces _ _ ihInner ihRest =>
      rcases ihInner (s := ⟨.plain, s.braces + 1, s.substitutions⟩) rfl
        (fun k hk => Nat.lt_succ_of_lt (hnests k hk)) with ⟨inside, hinside, hinner⟩
      rcases ihRest (s := ⟨.plain, s.braces, s.substitutions⟩) rfl hnests with ⟨last, hlast, hrest⟩
      -- the brace that closes is not the one of a substitution, which lies further out
      have hfurther : s.substitutions.head? ≠ some s.braces :=
        fun hk => Nat.lt_irrefl _ (hnests _ hk)
      refine ⟨last, hlast, .cons (Scanner.step_openBrace hs _) (by simp) ?_⟩
      refine .append_cons (by decide) hinner (.cons ?_ (fun _ _ => Nat.succ_pos _) hrest)
      exact (Scanner.step_closeBrace (s := ⟨inside, s.braces + 1, s.substitutions⟩) hinside _).trans
        (if_neg hfurther)
  | literal hquote hcontents _ ih =>
      have hmark := isStringQuote_of_eq hquote
      rcases ih (s := ⟨.plain, s.braces, s.substitutions⟩) rfl hnests with ⟨last, hlast, hrest⟩
      refine ⟨last, hlast, .cons (Scanner.step_quote hmark.quoted hs _) ?_ ?_⟩
      · rintro _ rfl
        exact absurd hmark.quoted (by decide)
      · refine .append_cons hmark.brace (Scanner.reads_contents hmark hcontents _ _) ?_
        exact .cons (by simp [Scanner.step, hmark.slash, hmark.template])
          (fun h => by cases h) hrest
  | template _ _ ihInner ihRest =>
      rcases ihInner (s := ⟨.quoted '\x60', s.braces, s.substitutions⟩) rfl hnests
        with ⟨inside, rfl, hinner⟩
      rcases ihRest (s := ⟨.plain, s.braces, s.substitutions⟩) rfl hnests with ⟨last, hlast, hrest⟩
      refine ⟨last, hlast, .cons (Scanner.step_quote rfl hs _) (by simp) ?_⟩
      exact .append_cons (by decide) hinner (.cons rfl (fun h => by cases h) hrest)
  | text hquote hslash hdollar _ ih =>
      rcases s with ⟨_, braces, substitutions⟩
      cases hs
      rcases ih (s := ⟨.quoted '\x60', braces, substitutions⟩) rfl hnests with ⟨last, hlast, hrest⟩
      have hstep := Scanner.step_template_text hquote hslash _ hdollar braces substitutions
      exact ⟨last, hlast, .cons hstep (fun h => by cases h) hrest⟩
  | escape c _ ih =>
      rcases s with ⟨_, braces, substitutions⟩
      cases hs
      rcases ih (s := ⟨.quoted '\x60', braces, substitutions⟩) rfl hnests with ⟨last, hlast, hrest⟩
      refine ⟨last, hlast, .cons (t := ⟨.escaped '\x60', braces, substitutions⟩) rfl
        (fun h => by cases h) ?_⟩
      exact .cons rfl (fun h => by cases h) hrest
  | substitution _ _ ihInner ihRest =>
      rcases s with ⟨_, braces, substitutions⟩
      cases hs
      rcases ihInner (s := ⟨.plain, braces + 1, braces :: substitutions⟩) rfl
        (fun k hk => Nat.lt_succ_of_le (Nat.le_of_eq (Option.some.inj hk).symm))
        with ⟨inside, hinside, hinner⟩
      rcases ihRest (s := ⟨.quoted '\x60', braces, substitutions⟩) rfl hnests
        with ⟨last, hlast, hrest⟩
      refine ⟨last, hlast, .cons (t := ⟨.opening, braces + 1, braces :: substitutions⟩) rfl
        (fun h => by cases h) (.cons rfl (fun h => by cases h) ?_)⟩
      refine .append_cons (by decide) hinner (.cons ?_ (fun _ _ => Nat.succ_pos _) hrest)
      exact (Scanner.step_closeBrace (s := ⟨inside, braces + 1, braces :: substitutions⟩) hinside
        _).trans (if_pos rfl)

/-!
# Inside more braces
-/

namespace Scanner

/-- The same reader inside more braces, and inside substitutions further out. -/
def raised (s : Scanner) (more : Nat) (outer : List Nat) : Scanner :=
  ⟨s.scanning, s.braces + more, s.substitutions.map (· + more) ++ outer⟩

variable {more : Nat} {outer : List Nat}

theorem plainStep_raised (houter : forall k, outer.head? = some k -> k < more) {s : Scanner}
    {c : Char} (hbrace : c = '\x7d' -> 0 < s.braces) :
    (s.raised more outer).plainStep c = (s.plainStep c).raised more outer := by
  by_cases hclose : c = '\x7d'
  · subst hclose
    have hlevel : s.braces + more - 1 = s.braces - 1 + more := by
      have hpos := hbrace rfl
      omega
    rcases s with ⟨scanning, braces, _ | ⟨k, substitutions⟩⟩
    · have hfurther : outer.head? ≠ some (braces - 1 + more) := by
        intro hk
        have hlt := houter _ hk
        omega
      simp [plainStep, raised, isQuote, hlevel, hfurther]
    · by_cases hk : k = braces - 1
      · simp [plainStep, raised, isQuote, hlevel, hk]
      · simp [plainStep, raised, isQuote, hlevel, hk]
  · have hcount : s.braces + more + 1 = s.braces + 1 + more := by omega
    simp only [plainStep, raised, beq_iff_eq, hclose, if_false, hcount]
    split
    · rfl
    · split
      · rfl
      · split
        · rfl
        · split <;> rfl

theorem step_raised (houter : forall k, outer.head? = some k -> k < more) {s : Scanner} {c : Char}
    (hbrace : s.scanning.isOutside = true -> c = '\x7d' -> 0 < s.braces) (next : Option Char) :
    (s.raised more outer).step c next = (s.step c next).raised more outer := by
  have hcount : s.braces + more + 1 = s.braces + 1 + more := by omega
  rcases s with ⟨scanning, braces, substitutions⟩
  cases scanning with
  | plain =>
      exact plainStep_raised houter (hbrace rfl)
  | word =>
      have hplain := plainStep_raised houter (hbrace rfl)
      simp only [step, raised] at hplain ⊢
      split
      · rfl
      · exact hplain
  | number =>
      have hplain := plainStep_raised houter (hbrace rfl)
      simp only [step, raised] at hplain ⊢
      split
      · rfl
      · exact hplain
  | quoted q =>
      simp only [step, raised]
      split
      · rfl
      · split
        · simp [hcount]
        · split <;> rfl
  | escaped q =>
      rfl
  | opening =>
      rfl

end Scanner

def NameBeforeColon (s : Scanner) (before text : List Char) : Prop :=
  s.braces = 0 ∧ (referenceAt s before text).isSome = true ∧
    isBeforeColon (text.dropWhile isWordChar) = true

instance (s : Scanner) (before text : List Char) : Decidable (NameBeforeColon s before text) :=
  inferInstanceAs (Decidable (_ ∧ _ ∧ _))

/-- Inside a brace more, a word before a colon is no reference. -/
theorem referenceAt_raised {more : Nat} (hmore : 0 < more) (outer : List Nat) (s : Scanner)
    (before text : List Char) :
    referenceAt (s.raised more outer) before text =
      if NameBeforeColon s before text then none else referenceAt s before text := by
  have hinside : (s.raised more outer).braces > 0 := Nat.add_pos_right s.braces hmore
  by_cases hcolon : isBeforeColon (text.dropWhile isWordChar) = true
  · have hkey : referenceAt (s.raised more outer) before text = none := by
      simp [referenceAt, hinside, hcolon]
    rw [hkey]
    split
    · rfl
    · rename_i hname
      by_cases hbraces : s.braces = 0
      · have hnone : ¬ (referenceAt s before text).isSome = true :=
          fun hsome => hname ⟨hbraces, hsome, hcolon⟩
        exact (Option.not_isSome_iff_eq_none.mp hnone).symm
      · simp [referenceAt, Nat.pos_of_ne_zero hbraces, hcolon]
  · rw [if_neg (fun hname => hcolon hname.2.2)]
    simp [referenceAt, hcolon]

/-- A name of a text stands outside all braces before a colon. -/
def LosesName (s : Scanner) (before text : List Char) : Prop :=
  exists front c rest, text = front ++ c :: rest ∧ (s.run front).startsWord c = true ∧
    NameBeforeColon (s.run front) (front.reverse ++ before) (c :: rest)

theorem losesName_cons {s : Scanner} {before : List Char} {c : Char} {rest : List Char} :
    LosesName s before (c :: rest) <->
      (s.startsWord c = true ∧ NameBeforeColon s before (c :: rest)) ∨
        LosesName (s.step c rest.head?) (c :: before) rest := by
  -- before the start of a word the next character is no brace
  have hstep : forall {front : List Char} {d : Char} {after : List Char},
      rest = front ++ d :: after -> forall t : Scanner, t.startsWord d = true ->
      s.step c rest.head? = s.step c front.head? := by
    intro front d after hrest t hstart
    rw [hrest]
    apply s.step_head_append_cons
    rintro rfl
    rw [Scanner.startsWord_eq_false (by decide)] at hstart
    cases hstart
  constructor
  · rintro ⟨_ | ⟨e, front⟩, d, after, htext, hstart, hname⟩
    · cases htext
      exact Or.inl ⟨hstart, hname⟩
    · rw [List.cons_append, List.cons.injEq] at htext
      rcases htext with ⟨rfl, hrest⟩
      refine Or.inr ⟨front, d, after, hrest, ?_⟩
      rw [hstep hrest _ hstart]
      refine ⟨hstart, ?_⟩
      simpa [Scanner.run] using hname
  · rintro (⟨hstart, hname⟩ | ⟨front, d, after, hrest, hstart, hname⟩)
    · exact ⟨[], c, rest, rfl, hstart, hname⟩
    · rw [hstep hrest _ hstart] at hstart hname
      refine ⟨c :: front, d, after, by rw [hrest]; rfl, hstart, ?_⟩
      simpa [Scanner.run] using hname

section Raised

variable {more : Nat} {outer : List Nat}

theorem found_raised (hmore : 0 < more) (outer : List Nat) (s : Scanner) (before : List Char)
    (c : Char) (rest : List Char) :
    (if (s.raised more outer).startsWord c then
        (referenceAt (s.raised more outer) before (c :: rest)).toList else []) =
      if s.startsWord c = true ∧ NameBeforeColon s before (c :: rest) then []
      else if s.startsWord c then (referenceAt s before (c :: rest)).toList else [] := by
  have hstart : (s.raised more outer).startsWord c = s.startsWord c := rfl
  rw [hstart, referenceAt_raised hmore]
  by_cases hword : s.startsWord c = true
  · by_cases hname : NameBeforeColon s before (c :: rest)
    · simp [hword, hname]
    · simp [hword, hname]
  · simp [hword]

/-- How many braces a text is inside, and in which substitutions, makes no
difference to its references. -/
theorem referencesFrom_raised_congr (hmore : 0 < more)
    (houter : forall k, outer.head? = some k -> k < more) {s : Scanner} {text : List Char}
    (hkeeps : s.Keeps text) (before : List Char) :
    referencesFrom (s.raised more outer) before text =
      referencesFrom (s.raised 1 []) before text := by
  induction text generalizing s before with
  | nil =>
      rfl
  | cons c rest ih =>
      rw [referencesFrom, referencesFrom, found_raised hmore, found_raised Nat.one_pos,
        Scanner.step_raised houter hkeeps.1, Scanner.step_raised (by simp) hkeeps.1, ih hkeeps.2]

theorem referencesFrom_raised_sublist {s : Scanner} {text : List Char} (hkeeps : s.Keeps text)
    (before : List Char) :
    (referencesFrom (s.raised 1 []) before text).Sublist (referencesFrom s before text) := by
  induction text generalizing s before with
  | nil =>
      exact .slnil
  | cons c rest ih =>
      rw [referencesFrom, referencesFrom, found_raised Nat.one_pos,
        Scanner.step_raised (by simp) hkeeps.1]
      refine List.Sublist.append ?_ (ih hkeeps.2 (c :: before))
      split
      · exact List.nil_sublist _
      · exact List.Sublist.refl _

/-- Inside a brace the references of a text are the same exactly if no name is
lost. -/
theorem referencesFrom_raised_eq_iff {s : Scanner} {text : List Char} (hkeeps : s.Keeps text)
    (before : List Char) :
    referencesFrom (s.raised 1 []) before text = referencesFrom s before text <->
      ¬ LosesName s before text := by
  induction text generalizing s before with
  | nil =>
      refine iff_of_true rfl ?_
      rintro ⟨front, c, rest, htext, _⟩
      cases front <;> cases htext
  | cons c rest ih =>
      have hlater := ih hkeeps.2 (c :: before)
      have hfewer := (referencesFrom_raised_sublist hkeeps.2 (c :: before)).length_le
      rw [referencesFrom, referencesFrom, found_raised Nat.one_pos,
        Scanner.step_raised (by simp) hkeeps.1, losesName_cons, not_or, ← hlater]
      by_cases hlost : s.startsWord c = true ∧ NameBeforeColon s before (c :: rest)
      · -- the lost name is missing on the left, and nothing makes up for it
        rcases Option.isSome_iff_exists.mp hlost.2.2.1 with ⟨name, hname⟩
        rw [if_pos hlost, if_pos hlost.1, hname]
        refine iff_of_false ?_ (fun h => h.1 hlost)
        intro heq
        have hlength := congrArg List.length heq
        simp at hlength
        omega
      · rw [if_neg hlost, List.append_cancel_left_eq]
        exact ⟨fun h => ⟨hlost, h⟩, fun h => h.2⟩

end Raised

/-!
# Expressions in braces
-/

theorem isStop_closeBrace : IsStop '\x7d' :=
  ⟨by decide, by decide, by decide, by decide⟩

theorem keeps_of_wellNested {text : List Char} (htext : WellNested .expression text) :
    Scanner.start.Keeps text := by
  rcases htext.exists_reads (s := .start) rfl (by simp [Scanner.Nests, Scanner.start])
    with ⟨_, _, hreads⟩
  exact hreads.keeps

/-- The references of an expression where a brace has been opened before it, and
those after the brace that closes it. -/
theorem referencesFrom_in_brace {expression : List Char}
    (hnested : WellNested .expression expression) (outer : List Nat)
    (houter : forall k, outer.head? = some k -> k = 0) (before rest : List Char) :
    exists scanning : Scanning, scanning.isOutside = true ∧
      referencesFrom ⟨.plain, 1, outer⟩ ('\x7b' :: before) (expression ++ '\x7d' :: rest) =
        referencesFrom (Scanner.start.raised 1 []) [] expression ++
          referencesFrom ⟨scanning, 1, outer⟩ (expression.reverse ++ '\x7b' :: before)
            ('\x7d' :: rest) := by
  have hlevel : forall k, outer.head? = some k -> k < 1 := by
    intro k hk
    rw [houter k hk]
    exact Nat.one_pos
  rcases hnested.exists_reads (s := ⟨.plain, 1, outer⟩) rfl hlevel with ⟨scanning, houtside, hreads⟩
  refine ⟨scanning, houtside, ?_⟩
  rw [referencesFrom_append_cons _ _ _ isStop_closeBrace, hreads.run,
    ← List.nil_append ('\x7b' :: before), referencesFrom_behind _ [] (by decide) (by decide)]
  refine congrArg (· ++ _) ?_
  exact referencesFrom_raised_congr Nat.one_pos hlevel (keeps_of_wellNested hnested) []

theorem references_braces {expression : String}
    (hnested : WellNested .expression expression.toList) :
    references ("\x7b" ++ expression ++ "\x7d") =
      referencesFrom (Scanner.start.raised 1 []) [] expression.toList := by
  rcases referencesFrom_in_brace hnested [] (by simp) [] []
    with ⟨scanning, houtside, hreferences⟩
  have hchars : ("\x7b" ++ expression ++ "\x7d").toList =
      '\x7b' :: (expression.toList ++ '\x7d' :: []) := by simp
  have hlast : referencesFrom ⟨scanning, 1, []⟩ (expression.toList.reverse ++ ['\x7b']) ['\x7d'] =
      [] := by
    rw [referencesFrom, Scanner.startsWord_eq_false (by decide)]
    rfl
  rw [hlast, List.append_nil] at hreferences
  rw [references, hchars, ← hreferences]
  rfl

/-!
# Templates
-/

structure TemplatePiece where
  text : String
  plain : (text.toList.all fun c => c != '\x60' && c != '\\' && c != '$') = true

structure Substitution where
  expression : String
  nested : WellNested .expression expression.toList
  after : TemplatePiece

def Substitution.chars (u : Substitution) : List Char :=
  '$' :: '\x7b' :: (u.expression.toList ++ '\x7d' :: u.after.text.toList)

structure Template where
  first : TemplatePiece
  substitutions : List Substitution

def Template.text (t : Template) : String :=
  String.ofList
    ('\x60' :: (t.first.text.toList ++ (t.substitutions.flatMap Substitution.chars ++ ['\x60'])))

/-- In the text of a template nothing is found. -/
theorem referencesFrom_piece (piece : TemplatePiece) (braces : Nat) (substitutions : List Nat)
    (before rest : List Char) :
    referencesFrom ⟨.quoted '\x60', braces, substitutions⟩ before (piece.text.toList ++ rest) =
      referencesFrom ⟨.quoted '\x60', braces, substitutions⟩ (piece.text.toList.reverse ++ before)
        rest := by
  have hplain := piece.plain
  generalize piece.text.toList = text at hplain
  induction text generalizing before with
  | nil =>
      rfl
  | cons c text ih =>
      simp only [List.all_cons, Bool.and_eq_true, bne_iff_ne] at hplain
      rcases hplain with ⟨⟨⟨hquote, hslash⟩, hdollar⟩, hplain⟩
      have hstep := ih (c :: before) hplain
      have hsame := Scanner.step_template_text hquote hslash (text ++ rest).head?
        (fun h => absurd h hdollar) braces substitutions
      rw [List.cons_append, referencesFrom, hsame, List.reverse_cons, List.append_assoc,
        List.singleton_append, ← hstep]
      rfl

/-- Each substitution is read inside its brace, and the reader is back in the text of
the template after it. -/
theorem referencesFrom_substitutions (substitutions : List Substitution) (before : List Char) :
    referencesFrom ⟨.quoted '\x60', 0, []⟩ before
        (substitutions.flatMap Substitution.chars ++ ['\x60']) =
      substitutions.flatMap fun u =>
        referencesFrom (Scanner.start.raised 1 []) [] u.expression.toList := by
  induction substitutions generalizing before with
  | nil =>
      rfl
  | cons u substitutions ih =>
      generalize hrest : substitutions.flatMap Substitution.chars ++ ['\x60'] = rest at ih
      have hchars : (u :: substitutions).flatMap Substitution.chars ++ ['\x60'] =
          '$' :: '\x7b' :: (u.expression.toList ++ '\x7d' :: (u.after.text.toList ++ rest)) := by
        simp [← hrest, Substitution.chars]
      have hopen : referencesFrom ⟨.quoted '\x60', 0, []⟩ before
          ('$' :: '\x7b' :: (u.expression.toList ++ '\x7d' :: (u.after.text.toList ++ rest))) =
          referencesFrom ⟨.plain, 1, [0]⟩ ('\x7b' :: '$' :: before)
            (u.expression.toList ++ '\x7d' :: (u.after.text.toList ++ rest)) := rfl
      rcases referencesFrom_in_brace u.nested [0] (by simp) ('$' :: before)
        (u.after.text.toList ++ rest) with ⟨scanning, houtside, hinner⟩
      have hclose : forall next, Scanner.step ⟨scanning, 1, [0]⟩ '\x7d' next =
          ⟨.quoted '\x60', 0, []⟩ :=
        fun next => Scanner.step_closeBrace (s := ⟨scanning, 1, [0]⟩) houtside next
      rw [hchars, hopen, hinner, referencesFrom, Scanner.startsWord_eq_false (by decide), hclose,
        referencesFrom_piece, ih, List.flatMap_cons]
      rfl

theorem references_template (t : Template) :
    references t.text = t.substitutions.flatMap fun u =>
      references ("\x7b" ++ u.expression ++ "\x7d") := by
  have hopen : references t.text =
      referencesFrom ⟨.quoted '\x60', 0, []⟩ ['\x60']
        (t.first.text.toList ++ (t.substitutions.flatMap Substitution.chars ++ ['\x60'])) := by
    rw [references, Template.text, String.toList_ofList]
    rfl
  rw [hopen, referencesFrom_piece, referencesFrom_substitutions]
  apply List.flatMap_congr
  intro u _
  exact (references_braces u.nested).symm

theorem references_braces_sublist {expression : String}
    (hnested : WellNested .expression expression.toList) :
    (references ("\x7b" ++ expression ++ "\x7d")).Sublist (references expression) := by
  rw [references_braces hnested]
  exact referencesFrom_raised_sublist (keeps_of_wellNested hnested) []

theorem references_braces_eq_iff {expression : String}
    (hnested : WellNested .expression expression.toList) :
    references ("\x7b" ++ expression ++ "\x7d") = references expression <->
      ¬ LosesName .start [] expression.toList := by
  rw [references_braces hnested]
  exact referencesFrom_raised_eq_iff (keeps_of_wellNested hnested) []

/-- Lists that are put together from parts agree exactly if the parts do, where one
side has nothing that the other has not. -/
theorem flatMap_eq_iff_of_sublist {α β : Type} {first second : α -> List β} {items : List α}
    (hparts : forall a, a ∈ items -> (first a).Sublist (second a)) :
    items.flatMap first = items.flatMap second <-> forall a, a ∈ items -> first a = second a := by
  induction items with
  | nil =>
      simp
  | cons a items ih =>
      have hhere := hparts a List.mem_cons_self
      have hlater : forall b, b ∈ items -> (first b).Sublist (second b) :=
        fun b hb => hparts b (List.mem_cons_of_mem a hb)
      rw [List.flatMap_cons, List.flatMap_cons, List.forall_mem_cons, ← ih hlater]
      constructor
      · intro heq
        have hlength := congrArg List.length heq
        rw [List.length_append, List.length_append] at hlength
        have hrest : (items.flatMap first).length <= (items.flatMap second).length :=
          (List.Sublist.flatMap_right items hlater).length_le
        have hle := hhere.length_le
        exact List.append_inj heq (by omega)
      · rintro ⟨hfirst, hrest⟩
        rw [hfirst, hrest]

/-- An expression in a template is read as between braces, and nothing else of the
template counts.  This is what the expression alone gives, except that names
before a colon are lost, so that the two agree exactly if there are none outside
the braces of the expression. -/
theorem substitutions_read_in_braces (expression : String)
    (hnested : WellNested .expression expression.toList) (t : Template) :
    (references ("`$\x7b" ++ expression ++ "\x7d`") = references ("\x7b" ++ expression ++ "\x7d") ∧
      (references ("`$\x7b" ++ expression ++ "\x7d`")).Sublist (references expression) ∧
      (references ("`$\x7b" ++ expression ++ "\x7d`") = references expression <->
        ¬ LosesName .start [] expression.toList)) ∧
    (references t.text = t.substitutions.flatMap fun u =>
        references ("\x7b" ++ u.expression ++ "\x7d")) ∧
      (references t.text = (t.substitutions.flatMap fun u => references u.expression) <->
        forall u, u ∈ t.substitutions -> ¬ LosesName .start [] u.expression.toList) := by
  have halone := references_template
    ⟨⟨"", rfl⟩, [⟨expression, hnested, ⟨"", rfl⟩⟩]⟩
  have htext : Template.text ⟨⟨"", rfl⟩, [⟨expression, hnested, ⟨"", rfl⟩⟩]⟩ =
      "`$\x7b" ++ expression ++ "\x7d`" := by
    apply String.toList_inj.mp
    simp [Template.text, Substitution.chars]
  rw [htext, List.flatMap_cons, List.flatMap_nil, List.append_nil] at halone
  rw [halone, references_template t]
  refine ⟨⟨rfl, references_braces_sublist hnested, references_braces_eq_iff hnested⟩, rfl, ?_⟩
  rw [flatMap_eq_iff_of_sublist fun u _ => references_braces_sublist u.nested]
  constructor
  · intro hsame u hu
    exact (references_braces_eq_iff u.nested).mp (hsame u hu)
  · intro hnone u hu
    exact (references_braces_eq_iff u.nested).mpr (hnone u hu)

theorem wellNested_of_inert {text : List Char}
    (htext : (text.all fun c => !isQuote c && c != '\x7b' && c != '\x7d') = true) :
    WellNested .expression text := by
  induction text with
  | nil =>
      exact .nil
  | cons c text ih =>
      simp only [List.all_cons, Bool.and_eq_true, bne_iff_ne, Bool.not_eq_true'] at htext
      rcases htext with ⟨⟨⟨hquote, hopen⟩, hclose⟩, hrest⟩
      exact .char hquote hopen hclose (ih hrest)

theorem wellNested_keyedTemplate : WellNested .expression "\x7bk: `x$\x7by\x7d`\x7d".toList := by
  have hinner : WellNested .template ('x' :: '$' :: '\x7b' :: (['y'] ++ '\x7d' :: [])) :=
    .text (by decide) (by decide) (by decide)
      (.substitution (wellNested_of_inert (by decide)) .nil)
  have hkey : WellNested .expression ('k' :: ':' :: ' ' :: '\x60' ::
      ('x' :: '$' :: '\x7b' :: (['y'] ++ '\x7d' :: []) ++ '\x60' :: [])) :=
    .char (by decide) (by decide) (by decide) (.char (by decide) (by decide) (by decide)
      (.char (by decide) (by decide) (by decide) (.template hinner .nil)))
  exact .braces hkey .nil

def dragTemplate : Template where
  first := ⟨"drag \x7b", by decide⟩
  substitutions := [⟨"user.id", wellNested_of_inert (by decide), ⟨": ", by decide⟩⟩,
    ⟨"\x7bk: `x$\x7by\x7d`\x7d", wellNested_keyedTemplate, ⟨"", by decide⟩⟩]

theorem dragTemplate_read :
    WellNested .expression "\x7bk: `x$\x7by\x7d`\x7d".toList ∧
      references "`$\x7b\x7bk: `x$\x7by\x7d`\x7d\x7d`" = ["y"] ∧
      references "`drag \x7b$\x7buser.id\x7d: $\x7b\x7bk: `x$\x7by\x7d`\x7d\x7d`" =
        ["user", "y"] := by
  rcases substitutions_read_in_braces _ wellNested_keyedTemplate dragTemplate
    with ⟨⟨halone, _⟩, hall, _⟩
  exact ⟨wellNested_keyedTemplate, halone.trans (by decide), hall.trans (by decide)⟩

/-- The second operand of a choice is lost inside a substitution. -/
theorem choiceInTemplate_misread :
    WellNested .expression "a ? b : c".toList ∧ references "a ? b : c" = ["a", "b", "c"] ∧
      references "`$\x7ba ? b : c\x7d`" = ["a", "c"] :=
  ⟨wellNested_of_inert (by decide), by decide, by decide⟩

end Expression
end PayloadFlow
