import PayloadFlow.Expression.References
import PayloadFlow.Proofs.Expression.Balanced
import PayloadFlow.Proofs.Spelling

/-!
# Names

Identifiers may use the letters of all alphabets.  The classifier takes such a
name for a parameter if its first character is an ASCII character, whatever the
others are.  The reader of references knows ASCII names only: it never gives a
name back that has any other character.
-/

namespace PayloadFlow
namespace Expression

open Text

/-!
# Characters of names
-/

def isNameChar (c : Char) : Bool :=
  isAlphanumeric c || c == '_' || c == '$'

theorem ascii_of_isAlphanum {c : Char} (hc : c.isAlphanum = true) : c.toNat < 0x80 := by
  rcases (Bool.or_eq_true ..).mp hc with halpha | hdigit
  · rcases (Bool.or_eq_true ..).mp halpha with hupper | hlower
    · have hlast := (of_decide_eq_true hupper).2
      exact Nat.lt_of_le_of_lt (UInt32.le_iff_toNat_le.mp hlast) (by decide)
    · exact EventName.ascii_of_isLower hlower
  · exact EventName.ascii_of_isDigit hdigit

theorem ascii_of_isWordChar {c : Char} (hc : isWordChar c = true) : c.toNat < 0x80 := by
  simp only [isWordChar, Bool.or_eq_true, beq_iff_eq] at hc
  rcases hc with (hc | rfl) | rfl
  · exact ascii_of_isAlphanum hc
  · decide
  · decide

theorem isWordChar_of_isWordStart {c : Char} (hc : isWordStart c = true) : isWordChar c = true := by
  simp only [isWordStart, isWordChar, Bool.or_eq_true] at hc ⊢
  rcases hc with (hc | hc) | hc
  · exact Or.inl (Or.inl ((Bool.or_eq_true ..).mpr (Or.inl hc)))
  · exact Or.inl (Or.inr hc)
  · exact Or.inr hc

theorem isWordChar_eq {c : Char} (hascii : c.toNat < 0x80) : isWordChar c = isNameChar c := by
  rw [isNameChar, isAlphanumeric, isAlphabetic, isNumeric, if_pos hascii, if_pos hascii]
  rfl

theorem isWordStart_eq {c : Char} (hascii : c.toNat < 0x80) :
    isWordStart c = (isAlphabetic c || c == '_' || c == '$') := by
  rw [isAlphabetic, if_pos hascii]
  rfl

theorem isNameChar_of_isWordChar {c : Char} (hc : isWordChar c = true) : isNameChar c = true := by
  rwa [← isWordChar_eq (ascii_of_isWordChar hc)]

theorem isInert_of_isNameChar {c : Char} (hc : isNameChar c = true) : IsInert c :=
  isInert_of_class (p := isNameChar) (by decide) hc

theorem ne_of_isNameChar {c m : Char} (hc : isNameChar c = true) (hm : isNameChar m = false) :
    c ≠ m := by
  rintro rfl
  rw [hc] at hm
  cases hm

theorem not_isBlank_of_isNameChar {c : Char} (hc : isNameChar c = true) : isBlank c = false := by
  by_cases hblank : isBlank c = true
  · have halphanumeric := (not_alphanumeric_of_isBlank hblank).1
    simp only [isNameChar, halphanumeric, Bool.false_or, Bool.or_eq_true, beq_iff_eq] at hc
    rcases hc with rfl | rfl
    · decide
    · decide
  · exact Bool.eq_false_iff.mpr hblank

theorem isIdentifier_cons {c : Char} {rest : List Char} :
    isIdentifier (c :: rest) = true <->
      (isAlphabetic c || c == '_' || c == '$') = true ∧
        forall d, d ∈ rest -> isNameChar d = true := by
  rw [isIdentifier, Bool.and_eq_true, List.all_eq_true]
  exact Iff.rfl

theorem isNameChar_of_isIdentifier {text : List Char} (htext : isIdentifier text = true)
    {c : Char} (hc : c ∈ text) : isNameChar c = true := by
  cases text with
  | nil =>
      cases hc
  | cons d rest =>
      rcases isIdentifier_cons.mp htext with ⟨hd, hrest⟩
      rcases List.mem_cons.mp hc with rfl | hc
      · simp only [Bool.or_eq_true] at hd
        simp only [isNameChar, isAlphanumeric, Bool.or_eq_true]
        rcases hd with (hd | hd) | hd
        · exact Or.inl (Or.inl (Or.inl hd))
        · exact Or.inl (Or.inr hd)
        · exact Or.inr hd
      · exact hrest c hc

/-!
# Spots of a chain
-/

/-- A spot that is no part of an operator and nothing foreign to a chain. -/
inductive Spot.InChain (s : Spot) : Prop where
  | inside : 0 < s.depth -> InChain s
  | name : s.depth = 0 -> isNameChar s.char = true -> InChain s
  | dot : s.depth = 0 -> s.char = '.' -> InChain s
  | mark : s.depth = 0 -> s.char = '?' ->
      (exists c rest, s.rest = '.' :: c :: rest ∧ c.isDigit = false) -> InChain s
  | closing : s.depth = 0 -> s.char = ')' -> InChain s

theorem linkOf_name {s : Spot} (hdepth : s.depth = 0) (hc : isNameChar s.char = true) :
    linkOf s = .neutral := by
  have hdot := ne_of_isNameChar hc (m := '.') (by decide)
  simp only [isNameChar, Bool.or_eq_true, beq_iff_eq] at hc
  simp [linkOf, hdepth, hdot, hc]

theorem Spot.InChain.linkOf_ne_foreign {s : Spot} (hs : s.InChain) : linkOf s ≠ .foreign := by
  cases hs with
  | inside hdepth =>
      simp only [linkOf, if_pos hdepth]
      split
      · decide
      · split
        · decide
        · split <;> decide
  | name hdepth hc =>
      rw [linkOf_name hdepth hc]
      decide
  | dot hdepth hc =>
      simp [linkOf, hdepth, hc]
  | mark hdepth hc hrest =>
      rcases hrest with ⟨c, rest, hrest, _⟩
      simp [linkOf, hdepth, hc, hrest]
  | closing hdepth hc =>
      simp [linkOf, hdepth, hc]

theorem contains_links_iff {spots : List Spot} {link : Link} :
    (spots.map linkOf).contains link = true <-> exists s, s ∈ spots ∧ linkOf s = link := by
  rw [List.contains_iff_mem, List.mem_map]

theorem hasAlternative_inChain {spots : List Spot} (hspots : forall s, s ∈ spots -> s.InChain) :
    hasAlternative false spots = false := by
  induction spots with
  | nil =>
      rfl
  | cons s rest ih =>
      have hrest := ih fun other hother => hspots other (List.mem_cons_of_mem s hother)
      cases hspots s List.mem_cons_self with
      | inside hdepth =>
          have hne : s.depth ≠ 0 := by omega
          simp [hasAlternative, hne, hrest]
      | name hdepth hc =>
          have hbar := ne_of_isNameChar hc (m := '|') (by decide)
          have hmark := ne_of_isNameChar hc (m := '?') (by decide)
          have hcolon := ne_of_isNameChar hc (m := ':') (by decide)
          simp [hasAlternative, hdepth, hrest]
      | dot hdepth hc =>
          simp [hasAlternative, hdepth, hc, hrest]
      | mark hdepth hc hmore =>
          rcases hmore with ⟨c, more, hmore, hdigit⟩
          simp [hasAlternative, hdepth, hc, hmore, hdigit, hrest]
      | closing hdepth hc =>
          simp [hasAlternative, hdepth, hc, hrest]

theorem mem_spotsFrom_names {word : List Char}
    (hword : forall c, c ∈ word -> isNameChar c = true) {previous : Option Char}
    {rest : List Char} {s : Spot} (hs : s ∈ spotsFrom .plain 0 previous (word ++ rest)) :
    (s.depth = 0 ∧ s.char ∈ word) ∨ exists p, s ∈ spotsFrom .plain 0 p rest := by
  have hinert : forall c, c ∈ word -> IsInert c := fun c hc => isInert_of_isNameChar (hword c hc)
  rw [(balanced_of_inert hinert).spotsFrom_append, List.mem_append] at hs
  rcases hs with hs | hs
  · rcases List.mem_map.mp hs with ⟨t, ht, rfl⟩
    have hdepth : t.depth = 0 := depth_of_mem_spotsFrom_inert hinert ht
    rcases run_of_mem_spotsFrom ht with ⟨front, rfl, _⟩
    exact Or.inl ⟨hdepth, by simp [Spot.followedBy]⟩
  · exact Or.inr ⟨_, hs⟩

/-!
# The kind of a chain
-/

structure ReadsAsChain (text : List Char) : Prop where
  start : exists c rest, text = c :: rest ∧ isNameChar c = true
  spots : forall s, s ∈ spots text -> s.InChain

namespace ReadsAsChain

theorem bare {text initial : List Char} {last : Char} (h : ReadsAsChain text)
    (hend : text = initial ++ [last]) (hlast : isBlank last = false) :
    stripParens (trim text) = text := by
  rcases h.start with ⟨first, rest, hstart, hfirst⟩
  have hbefore : trimStart text = text := by
    rw [hstart]
    exact trimStart_append_cons [] (not_isBlank_of_isNameChar hfirst) rest
  have htrim : trim text = text := by
    rw [trim, hbefore, hend]
    exact trimEnd_append_cons initial hlast []
  have hopen : ¬ IsEnclosed text := by
    rintro ⟨hhead, _⟩
    rw [hstart] at hhead
    exact ne_of_isNameChar hfirst (by decide) (Option.some.inj hhead)
  rw [htrim, stripParens_of_not_isEnclosed hopen]

theorem isTemplate_eq_false {text : List Char} (h : ReadsAsChain text) :
    isTemplate text = false := by
  rcases h.start with ⟨c, rest, rfl, hc⟩
  have hne := ne_of_isNameChar hc (m := '\x60') (by decide)
  simp [isTemplate, hne]

theorem chainLinks?_eq {text : List Char} (h : ReadsAsChain text)
    (hdot : text.getLast? ≠ some '.') :
    chainLinks? text =
      if text.head?.any isWordStart then some ((Expression.spots text).map linkOf) else none := by
  have hforeign : ((Expression.spots text).map linkOf).contains .foreign = false := by
    rw [Bool.eq_false_iff, ne_eq, contains_links_iff]
    rintro ⟨s, hs, hlink⟩
    exact (h.spots s hs).linkOf_ne_foreign hlink
  have hends : (text.getLast? != some '.') = true := by simpa using hdot
  rw [chainLinks?, hforeign, hends, Bool.not_false, Bool.and_true, Bool.and_true]

/-- What is left to ask of a chain is how it starts, and which links it has. -/
theorem classify_eq {text : String} {initial : List Char} {last : Char}
    (h : ReadsAsChain text.toList) (hend : text.toList = initial ++ [last])
    (hlast : isBlank last = false) (hdot : last ≠ '.') :
    classify text =
      if "new ".toList.isPrefixOf text.toList || "await ".toList.isPrefixOf text.toList then
        .generated
      else if text.toList.head?.any isWordStart then
        if ((Expression.spots text.toList).map linkOf).contains .call then .generated
        else if ((Expression.spots text.toList).map linkOf).contains .access then .propertyAccess
        else if isIdentifier text.toList && !keywordLiterals.contains text then .parameter
        else .literal
      else .literal := by
  have hnonempty : text.toList.isEmpty = false := by simp [hend]
  have hends : text.toList.getLast? ≠ some '.' := by
    rw [hend, List.getLast?_concat]
    exact fun hsome => hdot (Option.some.inj hsome)
  rw [classify, h.bare hend hlast, classifyBare, hnonempty, h.isTemplate_eq_false,
    hasAlternative_inChain h.spots, h.chainLinks?_eq hends, String.ofList_toList]
  by_cases hword : text.toList.head?.any isWordStart = true
  · rw [if_pos hword, if_pos hword]
    rfl
  · rw [if_neg hword, if_neg hword]
    rfl

end ReadsAsChain

/-- Neither `new` nor `await` starts a text without blanks. -/
theorem not_startsWith_operator {text : List Char} (hspace : ' ' ∉ text) :
    ("new ".toList.isPrefixOf text || "await ".toList.isPrefixOf text) = false := by
  rw [Bool.or_eq_false_iff, Bool.eq_false_iff, Bool.eq_false_iff]
  constructor
  · intro hprefix
    exact hspace ((List.isPrefixOf_iff_prefix.mp hprefix).subset (by decide))
  · intro hprefix
    exact hspace ((List.isPrefixOf_iff_prefix.mp hprefix).subset (by decide))

/-!
# The kind of a name
-/

theorem exists_ends_of_isIdentifier {text : List Char} (htext : isIdentifier text = true) :
    exists initial last, text = initial ++ [last] ∧ isNameChar last = true := by
  rcases List.eq_nil_or_concat' text with rfl | ⟨initial, last, rfl⟩
  · cases htext
  · exact ⟨initial, last, rfl, isNameChar_of_isIdentifier htext (by simp)⟩

theorem mem_spots_of_isIdentifier {text : List Char} (htext : isIdentifier text = true) {s : Spot}
    (hs : s ∈ spots text) : s.depth = 0 ∧ isNameChar s.char = true := by
  have hnames : forall c, c ∈ text -> isNameChar c = true :=
    fun c hc => isNameChar_of_isIdentifier htext hc
  rw [← List.append_nil text] at hs
  rcases mem_spotsFrom_names hnames hs with ⟨hdepth, hchar⟩ | ⟨p, hnothing⟩
  · exact ⟨hdepth, hnames s.char hchar⟩
  · cases hnothing

theorem readsAsChain_of_isIdentifier {text : List Char} (htext : isIdentifier text = true) :
    ReadsAsChain text where
  start := by
    cases text with
    | nil => cases htext
    | cons c rest => exact ⟨c, rest, rfl, isNameChar_of_isIdentifier htext List.mem_cons_self⟩
  spots := by
    intro s hs
    rcases mem_spots_of_isIdentifier htext hs with ⟨hdepth, hchar⟩
    exact .name hdepth hchar

/-- The first character of a name decides its kind. -/
theorem classify_of_isIdentifier {text : String} (htext : isIdentifier text.toList = true)
    (hliteral : text ∉ keywordLiterals) :
    classify text = if text.toList.head?.any isWordStart then .parameter else .literal := by
  rcases exists_ends_of_isIdentifier htext with ⟨initial, last, hend, hlast⟩
  have hdot := ne_of_isNameChar hlast (m := '.') (by decide)
  have hspace : ' ' ∉ text.toList := by
    intro hmem
    exact absurd (isNameChar_of_isIdentifier htext hmem) (by decide)
  have hneutral : forall link, link ≠ .neutral ->
      ((spots text.toList).map linkOf).contains link = false := by
    intro link hlink
    rw [Bool.eq_false_iff, ne_eq, contains_links_iff]
    rintro ⟨s, hs, rfl⟩
    rcases mem_spots_of_isIdentifier htext hs with ⟨hdepth, hchar⟩
    exact hlink (linkOf_name hdepth hchar)
  have hkeyword : keywordLiterals.contains text = false := by
    rw [Bool.eq_false_iff, ne_eq, List.contains_iff_mem]
    exact hliteral
  rw [(readsAsChain_of_isIdentifier htext).classify_eq hend (not_isBlank_of_isNameChar hlast) hdot,
    not_startsWith_operator hspace, hneutral .call (by decide), hneutral .access (by decide), htext,
    hkeyword]
  rfl

/-!
# References to names
-/

/-- Inside a word nothing is found. -/
theorem referencesFrom_word {word : List Char}
    (hword : forall c, c ∈ word -> isWordChar c = true) (braces : Nat) (substitutions : List Nat)
    (before rest : List Char) :
    referencesFrom ⟨.word, braces, substitutions⟩ before (word ++ rest) =
      referencesFrom ⟨.word, braces, substitutions⟩ (word.reverse ++ before) rest := by
  induction word generalizing before with
  | nil =>
      rfl
  | cons c word ih =>
      have hc := hword c List.mem_cons_self
      have hstep := ih (fun d hd => hword d (List.mem_cons_of_mem c hd)) (c :: before)
      rw [List.cons_append, referencesFrom, List.reverse_cons, List.append_assoc,
        List.singleton_append, ← hstep]
      simp [Scanner.startsWord, Scanner.step, hc]

theorem plainStep_wordStart {c : Char} (hc : isWordStart c = true) (s : Scanner) :
    s.plainStep c = { s with scanning := .word } := by
  have hname := isNameChar_of_isWordChar (isWordChar_of_isWordStart hc)
  have hquote := (isInert_of_isNameChar hname).quote
  have hopen := ne_of_isNameChar hname (m := '\x7b') (by decide)
  have hclose := ne_of_isNameChar hname (m := '\x7d') (by decide)
  simp [Scanner.plainStep, hquote, hopen, hclose, hc]

theorem referencesFrom_start_word {c : Char} {word : List Char} (hc : isWordStart c = true)
    (hword : forall d, d ∈ word -> isWordChar d = true) (braces : Nat) (substitutions : List Nat)
    (before rest : List Char) :
    referencesFrom ⟨.plain, braces, substitutions⟩ before (c :: word ++ rest) =
      (referenceAt ⟨.plain, braces, substitutions⟩ before (c :: word ++ rest)).toList ++
        referencesFrom ⟨.word, braces, substitutions⟩ ((c :: word).reverse ++ before) rest := by
  have hrest := referencesFrom_word hword braces substitutions (c :: before) rest
  have hbefore : (c :: word).reverse ++ before = word.reverse ++ c :: before := by simp
  rw [List.cons_append, referencesFrom, hbefore, ← hrest]
  simp [Scanner.startsWord, Scanner.step, plainStep_wordStart hc, hc]

theorem takeWhile_word {word rest : List Char} (hword : forall c, c ∈ word -> isWordChar c = true)
    (hrest : forall c, rest.head? = some c -> isWordChar c = false) :
    (word ++ rest).takeWhile isWordChar = word := by
  rw [List.takeWhile_append_of_pos hword]
  cases rest with
  | nil => simp
  | cons c rest => simp [hrest c rfl]

theorem referenceAt_first_word {word rest : List Char}
    (hword : forall c, c ∈ word -> isWordChar c = true)
    (hrest : forall c, rest.head? = some c -> isWordChar c = false) :
    (referenceAt .start [] (word ++ rest)).toList =
      if String.ofList word ∈ keywordLiterals ++ keywords then [] else [String.ofList word] := by
  have hdot : isAfterDot [] = false := rfl
  rw [referenceAt, takeWhile_word hword hrest, hdot]
  by_cases hkeyword : String.ofList word ∈ keywordLiterals ++ keywords
  · rw [if_pos hkeyword]
    rw [List.mem_append] at hkeyword
    simp [Scanner.start, hkeyword]
  · rw [if_neg hkeyword]
    rw [List.mem_append, not_or] at hkeyword
    simp [Scanner.start, hkeyword]

theorem references_first_word {c : Char} {word : List Char} (hc : isWordStart c = true)
    (hword : forall d, d ∈ word -> isWordChar d = true) (rest : List Char)
    (hrest : forall d, rest.head? = some d -> isWordChar d = false) :
    referencesFrom .start [] (c :: word ++ rest) =
      (if String.ofList (c :: word) ∈ keywordLiterals ++ keywords then []
        else [String.ofList (c :: word)]) ++
        referencesFrom ⟨.word, 0, []⟩ (c :: word).reverse rest := by
  have hwhole : forall d, d ∈ c :: word -> isWordChar d = true :=
    List.forall_mem_cons.mpr ⟨isWordChar_of_isWordStart hc, hword⟩
  rw [← referenceAt_first_word hwhole hrest, Scanner.start,
    referencesFrom_start_word hc hword, List.append_nil]

theorem isWordChar_of_mem_referencesFrom {s : Scanner} {before text : List Char} {name : String}
    (hname : name ∈ referencesFrom s before text) :
    forall c, c ∈ name.toList -> isWordChar c = true := by
  induction text generalizing s before with
  | nil =>
      cases hname
  | cons c rest ih =>
      rw [referencesFrom, List.mem_append] at hname
      rcases hname with hhere | hlater
      · split at hhere
        · rw [Option.mem_toList, referenceAt] at hhere
          split at hhere
          · cases hhere
          · intro d hd
            rw [← Option.some.inj hhere, String.toList_ofList] at hd
            exact List.all_eq_true.mp List.all_takeWhile d hd
        · cases hhere
      · exact ih hlater

theorem exists_word_of_ascii {text : List Char} (htext : isIdentifier text = true)
    (hascii : forall c, c ∈ text -> c.toNat < 0x80) :
    exists c word, text = c :: word ∧ isWordStart c = true ∧
      forall d, d ∈ word -> isWordChar d = true := by
  cases text with
  | nil =>
      cases htext
  | cons c word =>
      rcases isIdentifier_cons.mp htext with ⟨hc, hword⟩
      refine ⟨c, word, rfl, ?_, ?_⟩
      · rw [isWordStart_eq (hascii c List.mem_cons_self), hc]
      · intro d hd
        rw [isWordChar_eq (hascii d (List.mem_cons_of_mem c hd)), hword d hd]

theorem references_of_ascii {text : String} (htext : isIdentifier text.toList = true)
    (hascii : forall c, c ∈ text.toList -> c.toNat < 0x80) :
    references text = if text ∈ keywordLiterals ++ keywords then [] else [text] := by
  rcases exists_word_of_ascii htext hascii with ⟨c, word, hchars, hc, hword⟩
  have hfound := references_first_word hc hword [] (by simp)
  rw [List.append_nil, ← hchars, String.ofList_toList, referencesFrom, List.append_nil] at hfound
  exact hfound

theorem isWordStart_iff_ascii {c : Char}
    (hc : (isAlphabetic c || c == '_' || c == '$') = true) :
    isWordStart c = true <-> c.toNat < 0x80 := by
  constructor
  · intro hstart
    exact ascii_of_isWordChar (isWordChar_of_isWordStart hstart)
  · intro hascii
    rw [isWordStart_eq hascii, hc]

theorem head_isWordStart_iff {text : List Char} (htext : isIdentifier text = true) :
    text.head?.any isWordStart = true <-> forall c, text.head? = some c -> c.toNat < 0x80 := by
  cases text with
  | nil =>
      cases htext
  | cons c rest =>
      rw [List.head?_cons, Option.any_some, isWordStart_iff_ascii (isIdentifier_cons.mp htext).1]
      constructor
      · intro hascii d hd
        rwa [← Option.some.inj hd]
      · intro hascii
        exact hascii c rfl

/-- A name over all alphabets that is no keyword is taken for a parameter exactly
if its first character is ASCII, and for a literal otherwise.  It is found as a
reference exactly if all of it is ASCII. -/
theorem identifier_readings (text : String) (htext : isIdentifier text.toList = true)
    (hliteral : text ∉ keywordLiterals) (hkeyword : text ∉ keywords) :
    (classify text = .parameter <-> forall c, text.toList.head? = some c -> c.toNat < 0x80) ∧
      (classify text = .parameter ∨ classify text = .literal) ∧
      (references text = [text] <-> forall c, c ∈ text.toList -> c.toNat < 0x80) ∧
      (text ∈ references text <-> forall c, c ∈ text.toList -> c.toNat < 0x80) := by
  have hfound : (forall c, c ∈ text.toList -> c.toNat < 0x80) -> references text = [text] := by
    intro hascii
    rw [references_of_ascii htext hascii, if_neg]
    rw [List.mem_append, not_or]
    exact ⟨hliteral, hkeyword⟩
  have honly : text ∈ references text -> forall c, c ∈ text.toList -> c.toNat < 0x80 := by
    intro hmem c hc
    exact ascii_of_isWordChar (isWordChar_of_mem_referencesFrom hmem c hc)
  refine ⟨?_, ?_, ?_, ?_⟩
  · rw [classify_of_isIdentifier htext hliteral, ← head_isWordStart_iff htext]
    split
    · rename_i hstart
      exact iff_of_true rfl hstart
    · rename_i hstart
      exact iff_of_false (by decide) hstart
  · rw [classify_of_isIdentifier htext hliteral]
    split
    · exact Or.inl rfl
    · exact Or.inr rfl
  · constructor
    · intro hself
      exact honly (by rw [hself]; exact List.mem_singleton_self text)
    · exact hfound
  · constructor
    · exact honly
    · intro hascii
      rw [hfound hascii]
      exact List.mem_singleton_self text

theorem accented_half_read :
    isIdentifier "naïve".toList = true ∧ "naïve" ∉ keywordLiterals ∧ "naïve" ∉ keywords ∧
      classify "naïve" = .parameter ∧ "naïve" ∉ references "naïve" := by
  have htext : isIdentifier "naïve".toList = true := by decide
  have hliteral : "naïve" ∉ keywordLiterals := by decide
  have hkeyword : "naïve" ∉ keywords := by decide
  rcases identifier_readings "naïve" htext hliteral hkeyword with ⟨hkind, _, _, hfound⟩
  refine ⟨htext, hliteral, hkeyword, hkind.mpr ?_, ?_⟩
  · intro c hc
    rw [← Option.some.inj hc]
    decide
  · intro hmem
    exact absurd (hfound.mp hmem 'ï' (by decide)) (by decide)

/-- Of a name that starts with another letter only the ASCII part is found, and
the name passes for a literal. -/
theorem accented_misread :
    isIdentifier "été".toList = true ∧ "été" ∉ keywordLiterals ∧ "été" ∉ keywords ∧
      classify "été" = .literal ∧ references "été" = ["t"] := by
  decide +kernel

end Expression
end PayloadFlow
