import PayloadFlow.Proofs.Expression.Names

/-!
# String literals

The reader of references looks back over blanks to the nearest mark, and ahead
over blanks to the next one.  A quote is such a mark on both sides.  So nothing
before a literal tells one text between its quotes from another, nothing after it
does, and the reader leaves the literal as it has entered it.  Whatever it reads,
it only gives names.
-/

namespace PayloadFlow
namespace Expression

open Text

/-!
# The reader after a text
-/

/-- Outside string literals and the texts of templates. -/
def Scanning.isOutside : Scanning -> Bool
  | .plain | .word | .number => true
  | .quoted _ | .escaped _ | .opening => false

namespace Scanner

def run (s : Scanner) : List Char -> Scanner
  | [] => s
  | c :: rest => run (s.step c rest.head?) rest

/-- The next character counts only if it is a brace. -/
theorem step_next (s : Scanner) (c : Char) {next : Char} (hnext : next ≠ '\x7b') :
    s.step c (some next) = s.step c none := by
  simp [step, hnext]

theorem step_head_append_cons (s : Scanner) (c : Char) (front : List Char) {mark : Char}
    (hmark : mark ≠ '\x7b') (rest : List Char) :
    s.step c (front ++ mark :: rest).head? = s.step c front.head? := by
  cases front with
  | nil => exact s.step_next c hmark
  | cons d front => rfl

theorem run_append_cons (s : Scanner) (front : List Char) {mark : Char} (hmark : mark ≠ '\x7b')
    (rest : List Char) : s.run (front ++ mark :: rest) = (s.run front).run (mark :: rest) := by
  induction front generalizing s with
  | nil =>
      rfl
  | cons c front ih =>
      rw [List.cons_append, run, step_head_append_cons s c front hmark]
      exact ih (s.step c front.head?)

/-- Outside literals a quote, a brace or another mark that is part of no word and no
number is read in the same way wherever it stands. -/
theorem step_of_isOutside {s : Scanner} (hs : s.scanning.isOutside = true) {c : Char}
    (hword : isWordChar c = false) (hdot : c ≠ '.') (next : Option Char) :
    s.step c next = s.plainStep c := by
  have halphanum : c.isAlphanum = false := by
    simp only [isWordChar, Bool.or_eq_false_iff] at hword
    exact hword.1.1
  rcases s with ⟨scanning, braces, substitutions⟩
  cases scanning with
  | plain => rfl
  | word => simp [step, hword]
  | number => simp [step, halphanum, hdot]
  | quoted q => cases hs
  | escaped q => cases hs
  | opening => cases hs

theorem startsWord_eq_false {c : Char} (hword : isWordChar c = false) (s : Scanner) :
    s.startsWord c = false := by
  have hstart : isWordStart c = false := by
    rw [Bool.eq_false_iff]
    intro hstart
    rw [isWordChar_of_isWordStart hstart] at hword
    cases hword
  unfold startsWord
  split
  · exact hstart
  · rw [hstart, Bool.false_and]
  · rfl

end Scanner

/-!
# What a reader sees around a word
-/

/-- A character that no word, and nothing that is looked for after a word, goes
past. -/
structure IsStop (c : Char) : Prop where
  word : isWordChar c = false
  blank : isBlank c = false
  colon : c ≠ ':'
  brace : c ≠ '\x7b'

theorem isBeforeColon_append_cons (text : List Char) {mark : Char} (hmark : IsStop mark)
    (rest : List Char) : isBeforeColon (text ++ mark :: rest) = isBeforeColon text := by
  have hcolon := hmark.colon
  rw [isBeforeColon, isBeforeColon, trimStart_append_cons text hmark.blank]
  rcases trimStart text with _ | ⟨c, _ | ⟨d, after⟩⟩
  · simp [hcolon]
  · simp [List.isPrefixOf, hcolon.symm]
  · simp [List.isPrefixOf]

theorem takeWhile_append_cons {text : List Char} {mark : Char} (hmark : isWordChar mark = false)
    (rest : List Char) :
    (text ++ mark :: rest).takeWhile isWordChar = text.takeWhile isWordChar := by
  induction text with
  | nil => simp [hmark]
  | cons c text ih => simp [List.takeWhile_cons, ih]

theorem dropWhile_append_cons {text : List Char} {mark : Char} (hmark : isWordChar mark = false)
    (rest : List Char) :
    (text ++ mark :: rest).dropWhile isWordChar = text.dropWhile isWordChar ++ mark :: rest := by
  induction text with
  | nil => simp [hmark]
  | cons c text ih =>
      rw [List.cons_append, List.dropWhile_cons, List.dropWhile_cons, ih]
      split <;> rfl

/-- Nothing past a stop counts for a word before it. -/
theorem referenceAt_append_cons (s : Scanner) (before text : List Char) {mark : Char}
    (hmark : IsStop mark) (rest : List Char) :
    referenceAt s before (text ++ mark :: rest) = referenceAt s before text := by
  rw [referenceAt, referenceAt, takeWhile_append_cons hmark.word, dropWhile_append_cons hmark.word,
    isBeforeColon_append_cons _ hmark]

theorem isAfterDot_append_cons (near : List Char) {mark : Char} (hblank : isBlank mark = false)
    (hdot : mark ≠ '.') (far : List Char) : isAfterDot (near ++ mark :: far) = isAfterDot near := by
  rw [isAfterDot, isAfterDot, trimStart_append_cons near hblank]
  rcases trimStart near with _ | ⟨a, _ | ⟨b, _ | ⟨c, before⟩⟩⟩
  · simp [hdot]
  · simp [List.isPrefixOf, hdot.symm]
  · simp [List.isPrefixOf, hdot.symm]
  · simp [List.isPrefixOf]

/-- What stands before a mark other than a dot does not count for what comes after
it. -/
theorem referencesFrom_behind (s : Scanner) (near : List Char) {mark : Char}
    (hblank : isBlank mark = false) (hdot : mark ≠ '.') (far text : List Char) :
    referencesFrom s (near ++ mark :: far) text = referencesFrom s near text := by
  induction text generalizing s near with
  | nil =>
      rfl
  | cons c rest ih =>
      rw [referencesFrom, referencesFrom, ← List.cons_append, ih]
      simp only [referenceAt, isAfterDot_append_cons near hblank hdot]

theorem referencesFrom_append_cons (s : Scanner) (before front : List Char) {mark : Char}
    (hmark : IsStop mark) (rest : List Char) :
    referencesFrom s before (front ++ mark :: rest) =
      referencesFrom s before front ++
        referencesFrom (s.run front) (front.reverse ++ before) (mark :: rest) := by
  induction front generalizing s before with
  | nil =>
      rfl
  | cons c front ih =>
      have hbefore : (c :: front).reverse ++ before = front.reverse ++ c :: before := by simp
      have hhere := referenceAt_append_cons s before (c :: front) hmark rest
      rw [List.cons_append] at hhere ⊢
      rw [referencesFrom, referencesFrom, hhere, s.step_head_append_cons c front hmark.brace, ih,
        hbefore, Scanner.run, List.append_assoc]

/-!
# Between two quotes
-/

/-- Whether a text may stand between two quotes: the quote occurs only behind a
backslash, and no backslash is left alone at the end. -/
def isContents (quote : Char) : List Char -> Bool
  | [] => true
  | '\\' :: _ :: rest => isContents quote rest
  | c :: rest => c != '\\' && c != quote && isContents quote rest

def literalText (quote : Char) (contents : String) : String :=
  String.ofList (quote :: (contents.toList ++ [quote]))

structure IsStringQuote (quote : Char) : Prop extends IsStop quote where
  quoted : isQuote quote = true
  dot : quote ≠ '.'
  slash : quote ≠ '\\'
  template : quote ≠ '\x60'

theorem isStringQuote_of_eq {quote : Char} (hquote : quote = '\x27' ∨ quote = '"') :
    IsStringQuote quote := by
  rcases hquote with rfl | rfl
  · exact ⟨⟨rfl, by decide, by decide, by decide⟩, rfl, by decide, by decide, by decide⟩
  · exact ⟨⟨rfl, by decide, by decide, by decide⟩, rfl, by decide, by decide, by decide⟩

theorem step_quoted_char {quote c : Char} (hquote : IsStringQuote quote) (hslash : c ≠ '\\')
    (hc : c ≠ quote) (braces : Nat) (substitutions : List Nat) (next : Option Char) :
    Scanner.step ⟨.quoted quote, braces, substitutions⟩ c next =
      ⟨.quoted quote, braces, substitutions⟩ := by
  simp [Scanner.step, hquote.template, hslash, hc]

/-- Between its quotes a literal leaves the reader where it is, and nothing is
found. -/
theorem contents_unread {quote : Char} (hquote : IsStringQuote quote) {contents : List Char}
    (hcontents : isContents quote contents = true) (braces : Nat) (substitutions : List Nat)
    (before : List Char) :
    Scanner.run ⟨.quoted quote, braces, substitutions⟩ contents =
        ⟨.quoted quote, braces, substitutions⟩ ∧
      referencesFrom ⟨.quoted quote, braces, substitutions⟩ before contents = [] := by
  fun_induction isContents quote contents generalizing before with
  | case1 =>
      exact ⟨rfl, rfl⟩
  | case2 c rest ih =>
      exact ih hcontents (c :: '\\' :: before)
  | case3 c rest hnext ih =>
      simp only [Bool.and_eq_true, bne_iff_ne] at hcontents
      rcases hcontents with ⟨⟨hslash, hc⟩, hcontents⟩
      rw [Scanner.run, referencesFrom, step_quoted_char hquote hslash hc]
      exact ih hcontents (c :: before)

/-- The references of a text with a literal in it: those before the literal, and
those after it, read as if the text started there. -/
theorem referencesFrom_literal {quote : Char} (hquote : IsStringQuote quote)
    {front contents : List Char} (hfront : (Scanner.start.run front).scanning.isOutside = true)
    (hcontents : isContents quote contents = true) (rest : List Char) :
    referencesFrom .start [] (front ++ quote :: (contents ++ quote :: rest)) =
      referencesFrom .start [] front ++
        referencesFrom { Scanner.start.run front with scanning := .plain } [] rest := by
  have hstop := hquote.toIsStop
  generalize hs : Scanner.start.run front = s at hfront
  rcases s with ⟨scanning, braces, substitutions⟩
  rcases contents_unread hquote hcontents braces substitutions (quote :: (front.reverse ++ []))
    with ⟨hrun, hfound⟩
  -- the quotes change where the reader stands and nothing else
  have hopen : forall next, Scanner.step ⟨scanning, braces, substitutions⟩ quote next =
      ⟨.quoted quote, braces, substitutions⟩ := by
    intro next
    rw [Scanner.step_of_isOutside hfront hstop.word hquote.dot, Scanner.plainStep,
      if_pos hquote.quoted]
  have hclose : forall next, Scanner.step ⟨.quoted quote, braces, substitutions⟩ quote next =
      ⟨.plain, braces, substitutions⟩ := by
    intro next
    simp [Scanner.step, hquote.slash, hquote.template]
  rw [referencesFrom_append_cons _ _ _ hstop, hs, referencesFrom,
    Scanner.startsWord_eq_false hstop.word, hopen, referencesFrom_append_cons _ _ _ hstop, hfound,
    hrun, referencesFrom, Scanner.startsWord_eq_false hstop.word, hclose]
  simp only [Bool.false_eq_true, if_false, List.nil_append]
  exact congrArg _ (referencesFrom_behind _ [] hstop.blank hquote.dot _ rest)

/-!
# What is found
-/

/-- Whatever is found has been looked at where a word starts. -/
theorem exists_referenceAt_of_mem {s : Scanner} {before text : List Char} {name : String}
    (hname : name ∈ referencesFrom s before text) :
    exists there around c rest, Scanner.startsWord there c = true ∧
      referenceAt there around (c :: rest) = some name := by
  induction text generalizing s before with
  | nil =>
      cases hname
  | cons c rest ih =>
      rw [referencesFrom, List.mem_append] at hname
      rcases hname with hhere | hlater
      · split at hhere
        · rename_i hstart
          exact ⟨s, before, c, rest, hstart, Option.mem_toList.mp hhere⟩
        · cases hhere
      · exact ih hlater

theorem isWordStart_of_startsWord {s : Scanner} {c : Char} (hc : s.startsWord c = true) :
    isWordStart c = true := by
  unfold Scanner.startsWord at hc
  split at hc
  · exact hc
  · exact (Bool.and_eq_true_iff.mp hc).1
  · cases hc

structure IsReferenceName (name : String) : Prop where
  nonempty : name ≠ ""
  identifier : isIdentifier name.toList = true
  ascii : forall c, c ∈ name.toList -> c.toNat < 0x80
  keywordLiteral : name ∉ keywordLiterals
  keyword : name ∉ keywords

theorem isIdentifier_word {c : Char} {word : List Char} (hc : isWordStart c = true)
    (hword : forall d, d ∈ word -> isWordChar d = true) : isIdentifier (c :: word) = true := by
  rw [isIdentifier_cons, ← isWordStart_eq (ascii_of_isWordChar (isWordChar_of_isWordStart hc))]
  exact ⟨hc, fun d hd => isNameChar_of_isWordChar (hword d hd)⟩

theorem isReferenceName_of_mem {text name : String} (hname : name ∈ references text) :
    IsReferenceName name := by
  have hchars := isWordChar_of_mem_referencesFrom hname
  rcases exists_referenceAt_of_mem hname with ⟨there, around, c, rest, hstart, hfound⟩
  have hc := isWordStart_of_startsWord hstart
  rw [referenceAt] at hfound
  split at hfound
  · cases hfound
  · rename_i hkept
    have hword : name.toList = c :: rest.takeWhile isWordChar := by
      rw [← Option.some.inj hfound, String.toList_ofList,
        List.takeWhile_cons_of_pos (isWordChar_of_isWordStart hc)]
    rw [Option.some.inj hfound] at hkept
    simp only [Bool.or_eq_true, not_or, List.contains_iff_mem] at hkept
    refine ⟨?_, ?_, fun d hd => ascii_of_isWordChar (hchars d hd), hkept.1.2, hkept.2⟩
    · rintro rfl
      cases hword
    · rw [hword]
      exact isIdentifier_word hc fun d hd =>
        hchars d (by rw [hword]; exact List.mem_cons_of_mem c hd)

/-- What stands between the quotes of a string literal does not change the
references of a text, wherever the literal stands outside other ones.  And what is
found in any text is an ASCII identifier and no keyword. -/
theorem literal_contents_unseen (before after first second : String) (quote : Char)
    (hquote : quote = '\x27' ∨ quote = '"')
    (hbefore : (Scanner.start.run before.toList).scanning.isOutside = true)
    (hfirst : isContents quote first.toList = true)
    (hsecond : isContents quote second.toList = true) :
    references (before ++ literalText quote first ++ after) =
        references (before ++ literalText quote second ++ after) ∧
      forall text name, name ∈ references text -> IsReferenceName name := by
  have hreferences : forall {contents : String}, isContents quote contents.toList = true ->
      references (before ++ literalText quote contents ++ after) =
        references before ++
          referencesFrom { Scanner.start.run before.toList with scanning := .plain } []
            after.toList := by
    intro contents hcontents
    have hchars : (before ++ literalText quote contents ++ after).toList =
        before.toList ++ quote :: (contents.toList ++ quote :: after.toList) := by
      simp [literalText]
    rw [references, hchars, referencesFrom_literal (isStringQuote_of_eq hquote) hbefore hcontents]
    rfl
  refine ⟨?_, fun text name hname => isReferenceName_of_mem hname⟩
  rw [hreferences hfirst, hreferences hsecond]

theorem quotedBraces_unseen :
    (Scanner.start.run "`$\x7bname\x7d` + \x7ba: ".toList).scanning.isOutside = true ∧
      isContents '"' "it's $\x7bb\x7d\\\"".toList = true ∧ isContents '"' "".toList = true ∧
      references "`$\x7bname\x7d` + \x7ba: \"it's $\x7bb\x7d\\\"\", c: d\x7d" = ["name", "d"] := by
  have hbefore :
      (Scanner.start.run "`$\x7bname\x7d` + \x7ba: ".toList).scanning.isOutside = true := by decide
  have hfirst : isContents '"' "it's $\x7bb\x7d\\\"".toList = true := by decide
  have hsecond : isContents '"' "".toList = true := by decide
  rcases literal_contents_unseen _ ", c: d\x7d" _ _ '"' (Or.inr rfl) hbefore hfirst hsecond
    with ⟨hsame, _⟩
  have hempty : references "`$\x7bname\x7d` + \x7ba: \"\", c: d\x7d" = ["name", "d"] := by decide
  exact ⟨hbefore, hfirst, hsecond, hsame.trans hempty⟩

end Expression
end PayloadFlow
