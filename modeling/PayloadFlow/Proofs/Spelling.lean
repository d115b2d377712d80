import Mathlib.Data.List.Infix
import PayloadFlow.Proofs.EventName

/-!
# Spellings of one event

Producers and handlers write the words of an event in many ways: in camel case, in
Pascal case, or in one case with any marks between them.  All of these spellings
have the same words, and so the same common spelling.  A name of a handler adds a
prefix, which does not change the event.
-/

namespace PayloadFlow
namespace EventName

open Text

/-!
# Letters, digits and marks
-/

theorem ascii_of_isLower {c : Char} (hc : c.isLower = true) : c.toNat < 0x80 := by
  have hlast := of_decide_eq_true ((Bool.and_eq_true ..).mp hc).2
  exact Nat.lt_of_le_of_lt (UInt32.le_iff_toNat_le.mp hlast) (by decide)

theorem ascii_of_isDigit {c : Char} (hc : c.isDigit = true) : c.toNat < 0x80 := by
  have hlast := of_decide_eq_true ((Bool.and_eq_true ..).mp hc).2
  exact Nat.lt_of_le_of_lt (UInt32.le_iff_toNat_le.mp hlast) (by decide)

/-- A character that stays as it is and starts no word: a small letter or a digit. -/
structure IsPlain (c : Char) : Prop where
  alphanumeric : isAlphanumeric c = true
  notUppercase : isUppercase c = false
  lower : lowerChars c = [c]
  ends : (isLowercase c || c.isDigit) = true

theorem isPlain_of_small {c : Char} (hc : c.isLower = true ∨ c.isDigit = true) : IsPlain c := by
  have hascii : c.toNat < 0x80 := hc.elim ascii_of_isLower ascii_of_isDigit
  have htable := forall_ascii (P := fun c => c.isLower = true ∨ c.isDigit = true ->
    isAlphanumeric c = true ∧ isUppercase c = false ∧ lowerChars c = [c] ∧
      (isLowercase c || c.isDigit) = true) (by decide) hascii hc
  exact ⟨htable.1, htable.2.1, htable.2.2.1, htable.2.2.2⟩

/-- A capital letter and the small letter it stands for. -/
structure IsCapital (c small : Char) : Prop where
  alphanumeric : isAlphanumeric c = true
  uppercase : isUppercase c = true
  lower : lowerChars c = [small]
  notEnds : (isLowercase c || c.isDigit) = false

theorem isCapital_toUpper {c : Char} (hc : c.isLower = true) : IsCapital c.toUpper c := by
  have htable := forall_ascii (P := fun c => c.isLower = true -> isAlphanumeric c.toUpper = true ∧
    isUppercase c.toUpper = true ∧ lowerChars c.toUpper = [c] ∧
    (isLowercase c.toUpper || c.toUpper.isDigit) = false)
    (by decide) (ascii_of_isLower hc) hc
  exact ⟨htable.1, htable.2.1, htable.2.2.1, htable.2.2.2⟩

/-- An ASCII character that is neither a letter nor a digit. -/
def IsMark (c : Char) : Prop :=
  c.toNat < 0x80 ∧ c.isAlphanum = false

instance (c : Char) : Decidable (IsMark c) :=
  inferInstanceAs (Decidable (_ ∧ _))

theorem not_alphanumeric_of_isMark {c : Char} (hc : IsMark c) :
    isAlphanumeric c = false ∧ isLowercase c = false :=
  forall_ascii (P := fun c => c.isAlphanum = false ->
    isAlphanumeric c = false ∧ isLowercase c = false) (by decide) hc.1 hc.2

/-!
# Words
-/

/-- A word of an event: small letters and then digits, at least two characters. -/
structure Word where
  first : Char
  letters : List Char
  digits : List Char
  first_small : first.isLower = true
  letters_small : letters.all Char.isLower = true
  digits_numeric : digits.all Char.isDigit = true
  long : letters ++ digits ≠ []

namespace Word

def lower (w : Word) : List Char :=
  w.first :: (w.letters ++ w.digits)

def upper (w : Word) : List Char :=
  w.lower.map Char.toUpper

def capital (w : Word) : List Char :=
  w.first.toUpper :: (w.letters ++ w.digits)

theorem lower_ne_nil (w : Word) : w.lower ≠ [] :=
  List.cons_ne_nil _ _

theorem isLower_of_mem_letters (w : Word) {c : Char} (hc : c ∈ w.letters) : c.isLower = true :=
  List.all_eq_true.mp w.letters_small c hc

theorem isDigit_of_mem_digits (w : Word) {c : Char} (hc : c ∈ w.digits) : c.isDigit = true :=
  List.all_eq_true.mp w.digits_numeric c hc

theorem isPlain_rest (w : Word) {c : Char} (hc : c ∈ w.letters ++ w.digits) : IsPlain c := by
  apply isPlain_of_small
  rcases List.mem_append.mp hc with hc | hc
  · exact Or.inl (w.isLower_of_mem_letters hc)
  · exact Or.inr (w.isDigit_of_mem_digits hc)

theorem isPlain_lower (w : Word) {c : Char} (hc : c ∈ w.lower) : IsPlain c := by
  rcases List.mem_cons.mp hc with rfl | hc
  · exact isPlain_of_small (Or.inl w.first_small)
  · exact w.isPlain_rest hc

theorem upper_eq (w : Word) :
    w.upper = w.first.toUpper :: (w.letters.map Char.toUpper ++ w.digits) := by
  have hdigits : w.digits.map Char.toUpper = w.digits := by
    rw [List.map_congr_left (g := id), List.map_id]
    intro c hc
    have hdigit := w.isDigit_of_mem_digits hc
    exact forall_ascii (P := fun c => c.isDigit = true -> c.toUpper = c) (by decide)
      (ascii_of_isDigit hdigit) hdigit
  rw [upper, lower, List.map_cons, List.map_append, hdigits]

end Word

def camelCase : List Word -> List Char
  | [] => []
  | w :: rest => w.lower ++ rest.flatMap Word.capital

def pascalCase (words : List Word) : List Char :=
  words.flatMap Word.capital

/-- The common spelling of the event with some words. -/
def common (words : List Word) : String :=
  String.ofList (joinWith ['-'] (words.map Word.lower))

/-- Texts of words in one case each, with marks between them and perhaps after the
last one. -/
inductive Spaced : List Word -> List Char -> Prop where
  | last {w : Word} {spelled after : List Char} (hspelled : spelled = w.lower ∨ spelled = w.upper)
      (hafter : forall c, c ∈ after -> IsMark c) : Spaced [w] (spelled ++ after)
  | next {w : Word} {spelled gap : List Char} {words : List Word} {text : List Char}
      (hspelled : spelled = w.lower ∨ spelled = w.upper) (hne : gap ≠ [])
      (hgap : forall c, c ∈ gap -> IsMark c) (hrest : Spaced words text) :
      Spaced (w :: words) (spelled ++ (gap ++ text))

/-!
# How words are read
-/

/-- Small letters and digits go to the current word. -/
theorem wordsFrom_plain {cs : List Char} (hcs : forall c, c ∈ cs -> IsPlain c) (p : Char)
    (word rest : List Char) :
    wordsFrom p word (cs ++ rest) = wordsFrom (cs.getLastD p) (word ++ cs) rest := by
  induction cs generalizing p word with
  | nil =>
      rw [List.nil_append, List.append_nil, List.getLastD_nil]
  | cons c cs ih =>
      have hc := hcs c List.mem_cons_self
      have hrest := ih (fun d hd => hcs d (List.mem_cons_of_mem c hd)) c (word ++ [c])
      rw [List.cons_append, wordsFrom, hc.lower, hrest, List.append_assoc, List.singleton_append,
        List.getLastD_cons]
      simp [hc.alphanumeric, startsWord, hc.notUppercase]

/-- Capital letters after a capital letter go to its word, unless a small letter
follows the last one. -/
theorem wordsFrom_capitals {letters : List Char}
    (hletters : forall c, c ∈ letters -> c.isLower = true)
    {p small : Char} (hp : IsCapital p small) (word : List Char) {rest : List Char}
    (hrest : rest.head?.any isLowercase = false) :
    wordsFrom p word (letters.map Char.toUpper ++ rest) =
      wordsFrom ((letters.map Char.toUpper).getLastD p) (word ++ letters) rest := by
  induction letters generalizing p small word with
  | nil =>
      rw [List.map_nil, List.nil_append, List.append_nil, List.getLastD_nil]
  | cons c letters ih =>
      have hc := isCapital_toUpper (hletters c List.mem_cons_self)
      have hmore := ih (fun d hd => hletters d (List.mem_cons_of_mem c hd)) hc (word ++ [c])
      have hnext : (letters.map Char.toUpper ++ rest).head?.any isLowercase = false := by
        cases letters with
        | nil =>
            exact hrest
        | cons d letters =>
            have hd := isCapital_toUpper
              (hletters d (List.mem_cons_of_mem c List.mem_cons_self))
            exact (Bool.or_eq_false_iff.mp hd.notEnds).1
      have hstays : startsWord p c.toUpper (letters.map Char.toUpper ++ rest).head? = false := by
        rw [startsWord, hp.notEnds, hnext, Bool.and_false, Bool.or_false, Bool.and_false]
      rw [List.map_cons, List.cons_append, wordsFrom, hc.lower, hmore, hstays, hc.alphanumeric,
        List.append_assoc, List.singleton_append, List.getLastD_cons]
      simp

theorem getLastD_mem {cs : List Char} (hne : cs ≠ []) (p : Char) : cs.getLastD p ∈ cs := by
  rw [List.getLastD_eq_getLast?, List.getLast?_eq_some_getLast hne]
  exact List.getLast_mem hne

/-- A word in one case is read as a whole where it does not run into a small
letter. -/
theorem wordsFrom_spelled {w : Word} {spelled : List Char}
    (hspelled : spelled = w.lower ∨ spelled = w.upper) (p : Char) {rest : List Char}
    (hrest : rest.head?.any isLowercase = false) :
    exists q, wordsFrom p [] (spelled ++ rest) = wordsFrom q w.lower rest := by
  rcases hspelled with rfl | rfl
  · exact ⟨_, wordsFrom_plain (fun c hc => w.isPlain_lower hc) p [] rest⟩
  · have hfirst := isCapital_toUpper w.first_small
    have hdigits : forall c, c ∈ w.digits -> IsPlain c := fun c hc =>
      w.isPlain_rest (List.mem_append_right w.letters hc)
    have hnext : (w.digits ++ rest).head?.any isLowercase = false := by
      cases hcases : w.digits with
      | nil =>
          exact hrest
      | cons d digits =>
          have hdigit := w.isDigit_of_mem_digits (hcases ▸ List.mem_cons_self)
          exact forall_ascii (P := fun c => c.isDigit = true -> isLowercase c = false)
            (by decide) (ascii_of_isDigit hdigit) hdigit
    have hletters := wordsFrom_capitals (fun c hc => w.isLower_of_mem_letters hc) hfirst [w.first]
      hnext
    rw [wordsFrom_plain hdigits] at hletters
    refine ⟨_, Eq.trans ?_ hletters⟩
    rw [w.upper_eq, List.cons_append, List.append_assoc, wordsFrom, hfirst.lower]
    simp [hfirst.alphanumeric]

/-- A word with a capital letter first is read as a whole, and it ends a word that
does not end in a capital letter itself. -/
theorem wordsFrom_capital (w : Word) (rest : List Char) :
    exists q, (isLowercase q || q.isDigit) = true ∧
      (forall p, wordsFrom p [] (w.capital ++ rest) = wordsFrom q w.lower rest) ∧
      forall p word, (isLowercase p || p.isDigit) = true -> word ≠ [] ->
        wordsFrom p word (w.capital ++ rest) = word :: wordsFrom q w.lower rest := by
  have hfirst := isCapital_toUpper w.first_small
  have hplain := wordsFrom_plain (fun c hc => w.isPlain_rest hc) w.first.toUpper [w.first] rest
  rw [List.singleton_append] at hplain
  refine ⟨_, (w.isPlain_rest (getLastD_mem w.long w.first.toUpper)).ends, ?_, ?_⟩
  · intro p
    rw [Word.lower, ← hplain, Word.capital, List.cons_append, wordsFrom, hfirst.lower]
    simp [hfirst.alphanumeric]
  · intro p word hp hword
    rw [Word.lower, ← hplain, Word.capital, List.cons_append, wordsFrom, hfirst.lower]
    simp [hfirst.alphanumeric, hword, startsWord, hfirst.uppercase, hp]

/-- Words with capital letters first, after a word that does not end in one. -/
theorem wordsFrom_capitalised (words : List Word) {p : Char} {word : List Char}
    (hp : (isLowercase p || p.isDigit) = true) (hword : word ≠ []) :
    wordsFrom p word (words.flatMap Word.capital) = word :: words.map Word.lower := by
  induction words generalizing p word with
  | nil =>
      simp [wordsFrom, hword]
  | cons w words ih =>
      rcases wordsFrom_capital w (words.flatMap Word.capital) with ⟨q, hq, _, hread⟩
      rw [List.flatMap_cons, hread p word hp hword, ih hq w.lower_ne_nil, List.map_cons]

theorem wordsFrom_pascalCase {words : List Word} (hwords : words ≠ []) (p : Char) :
    wordsFrom p [] (pascalCase words) = words.map Word.lower := by
  cases words with
  | nil =>
      exact absurd rfl hwords
  | cons w words =>
      rcases wordsFrom_capital w (words.flatMap Word.capital) with ⟨q, hq, hread, _⟩
      rw [pascalCase, List.flatMap_cons, hread, wordsFrom_capitalised words hq w.lower_ne_nil,
        List.map_cons]

theorem wordsFrom_camelCase {words : List Word} (hwords : words ≠ []) (p : Char) :
    wordsFrom p [] (camelCase words) = words.map Word.lower := by
  cases words with
  | nil =>
      exact absurd rfl hwords
  | cons w words =>
      have hlast := (w.isPlain_lower (getLastD_mem w.lower_ne_nil p)).ends
      rw [camelCase, wordsFrom_plain (fun c hc => w.isPlain_lower hc), List.nil_append,
        wordsFrom_capitalised words hlast w.lower_ne_nil, List.map_cons]

theorem wordsFrom_spaced {words : List Word} {text : List Char} (htext : Spaced words text)
    (p : Char) : wordsFrom p [] text = words.map Word.lower := by
  have hhead : forall marks rest : List Char, marks ≠ [] -> (forall c, c ∈ marks -> IsMark c) ->
      (marks ++ rest).head?.any isLowercase = false := by
    intro marks rest hne hmarks
    cases marks with
    | nil =>
        exact absurd rfl hne
    | cons c marks =>
        exact (not_alphanumeric_of_isMark (hmarks c List.mem_cons_self)).2
  induction htext generalizing p with
  | @last w spelled after hspelled hafter =>
      have htrail := wordsFrom_trailing (fun c hc => not_alphanumeric_of_isMark (hafter c hc))
        p [] spelled
      have hend : ([] : List Char).head?.any isLowercase = false := rfl
      rcases wordsFrom_spelled hspelled p hend with ⟨q, hread⟩
      rw [htrail, ← List.append_nil spelled, hread]
      rfl
  | @next w spelled gap words text hspelled hne hgap hrest ih =>
      rcases wordsFrom_spelled hspelled p (hhead gap text hne hgap) with ⟨q, hread⟩
      have hplain : forall c, c ∈ gap -> isAlphanumeric c = false := fun c hc =>
        (not_alphanumeric_of_isMark (hgap c hc)).1
      rw [hread, wordsFrom_gap hne hplain q w.lower_ne_nil, ih]
      rfl

theorem normalize_eq_common {words : List Word} {text : List Char}
    (hread : wordsFrom ' ' [] text = words.map Word.lower) :
    normalize (String.ofList text) = common words := by
  rw [normalize, String.toList_ofList, words_eq, hread, common]

/-!
# Names of handlers
-/

theorem afterPrefix_append {first : Char} {rest : List Char}
    (hfirst : (isUppercase first || first == '_') = true)
    (hevent : normalize (String.ofList (first :: rest)) ≠ "") (handlerPrefix : String) :
    afterPrefix (handlerPrefix ++ String.ofList (first :: rest)) handlerPrefix =
      some (normalize (String.ofList (first :: rest))) := by
  have hnonempty : (normalize (String.ofList (first :: rest))).isEmpty = false := by
    rw [Bool.eq_false_iff, Ne, String.isEmpty_iff]
    exact hevent
  rw [afterPrefix, String.toList_append, String.toList_ofList,
    List.isPrefixOf?_eq_some_iff_append_eq.mpr rfl]
  simp only [hfirst, hnonempty, if_true, Bool.false_eq_true, if_false]

theorem common_ne_empty {words : List Word} (hwords : words ≠ []) : common words ≠ "" := by
  cases words with
  | nil =>
      exact absurd rfl hwords
  | cons w words =>
      cases words with
      | nil => simp [common, joinWith, Word.lower]
      | cons v words => simp [common, joinWith, Word.lower]

theorem isMark_underscore : forall c, c ∈ ['_'] -> IsMark c :=
  List.forall_mem_singleton.mpr (by decide)

theorem spaced_joinWith {spell : Word -> List Char}
    (hspell : forall w, spell w = w.lower ∨ spell w = w.upper) {words : List Word}
    (hwords : words ≠ []) : Spaced words (joinWith ['_'] (words.map spell)) := by
  induction words with
  | nil =>
      exact absurd rfl hwords
  | cons w words ih =>
      cases words with
      | nil =>
          have hlast : Spaced [w] (spell w ++ []) :=
            .last (hspell w) fun c hc => absurd hc List.not_mem_nil
          rw [List.append_nil] at hlast
          exact hlast
      | cons v words =>
          have hnext := Spaced.next (hspell w) (List.cons_ne_nil '_' []) isMark_underscore
            (ih (List.cons_ne_nil v words))
          rw [← List.append_assoc] at hnext
          exact hnext

/-- With a prefix of a handler before it, a spelling that begins with a capital
letter or an underscore stands for the same event. -/
theorem ofHandler_append {words : List Word} (hwords : words ≠ []) {first : Char}
    {rest : List Char} (hfirst : (isUppercase first || first == '_') = true)
    (hread : wordsFrom ' ' [] (first :: rest) = words.map Word.lower) {handlerPrefix : String}
    (hmember : handlerPrefix ∈ ["handle", "on"]) :
    ofHandler ["handle", "on"] (handlerPrefix ++ String.ofList (first :: rest)) =
      some (common words) := by
  have hevent : normalize (String.ofList (first :: rest)) = common words :=
    normalize_eq_common hread
  have hafter := afterPrefix_append hfirst (hevent ▸ common_ne_empty hwords) handlerPrefix
  rw [hevent] at hafter
  rw [List.mem_cons, List.mem_singleton] at hmember
  rcases hmember with rfl | rfl
  · rw [ofHandler, List.findSome?_cons, hafter]
  · -- a name that begins with an o does not begin with the other prefix
    have hother : afterPrefix ("on" ++ String.ofList (first :: rest)) "handle" = none := by
      simp [afterPrefix, List.isPrefixOf?]
    rw [ofHandler, List.findSome?_cons, hother, List.findSome?_cons, hafter]

/-- All spellings of an event have its common spelling, and so do the names of its
handlers. -/
theorem spellings_meet (words : List Word) (hwords : words ≠ []) :
    normalize (String.ofList (camelCase words)) = common words ∧
    normalize (String.ofList (pascalCase words)) = common words ∧
    (forall before text, (forall c, c ∈ before -> IsMark c) -> Spaced words text ->
      normalize (String.ofList (before ++ text)) = common words) ∧
    forall handlerPrefix, handlerPrefix ∈ ["handle", "on"] -> forall ending,
      ending ∈ [pascalCase words, '_' :: joinWith ['_'] (words.map Word.lower),
        '_' :: joinWith ['_'] (words.map Word.upper)] ->
      ofHandler ["handle", "on"] (handlerPrefix ++ String.ofList ending) =
        some (common words) := by
  have hspaced : forall before text, (forall c, c ∈ before -> IsMark c) -> Spaced words text ->
      wordsFrom ' ' [] (before ++ text) = words.map Word.lower := by
    intro before text hbefore htext
    have hmarks : forall c, c ∈ before -> isAlphanumeric c = false := fun c hc =>
      (not_alphanumeric_of_isMark (hbefore c hc)).1
    rw [wordsFrom_marks hmarks, wordsFrom_spaced htext]
  refine ⟨normalize_eq_common (wordsFrom_camelCase hwords ' '),
    normalize_eq_common (wordsFrom_pascalCase hwords ' '), ?_, ?_⟩
  · intro before text hbefore htext
    exact normalize_eq_common (hspaced before text hbefore htext)
  · intro handlerPrefix hmember ending hending
    simp only [List.mem_cons, List.not_mem_nil, or_false] at hending
    rcases hending with rfl | rfl | rfl
    · have hread := wordsFrom_pascalCase hwords ' '
      cases words with
      | nil =>
          exact absurd rfl hwords
      | cons w words =>
          have hfirst := (isCapital_toUpper w.first_small).uppercase
          exact ofHandler_append hwords (by rw [hfirst, Bool.true_or]) hread hmember
    · have htext := spaced_joinWith (fun w => Or.inl rfl) hwords
      exact ofHandler_append hwords rfl (hspaced ['_'] _ isMark_underscore htext) hmember
    · have htext := spaced_joinWith (fun w => Or.inr rfl) hwords
      exact ofHandler_append hwords rfl (hspaced ['_'] _ isMark_underscore htext) hmember

def dragWord : Word where
  first := 'd'
  letters := ['r', 'a', 'g']
  digits := []
  first_small := by decide
  letters_small := by decide
  digits_numeric := by decide
  long := by decide

def stepWord : Word where
  first := 's'
  letters := []
  digits := ['2']
  first_small := by decide
  letters_small := by decide
  digits_numeric := by decide
  long := by decide

theorem dragStep_meet :
    Spaced [dragWord, stepWord] "DRAG: s2".toList ∧
      normalize "dragS2" = "drag-s2" ∧ normalize " DRAG: s2" = "drag-s2" ∧
      ofHandler ["handle", "on"] "on_DRAG_S2" = some "drag-s2" := by
  have hgap : forall c, c ∈ [':', ' '] -> IsMark c :=
    List.forall_mem_cons.mpr ⟨by decide, List.forall_mem_singleton.mpr (by decide)⟩
  have hstep : Spaced [stepWord] ("s2".toList ++ []) :=
    .last (Or.inl rfl) fun c hc => absurd hc List.not_mem_nil
  have hspaced : Spaced [dragWord, stepWord] ("DRAG".toList ++ ([':', ' '] ++ "s2".toList)) :=
    .next (Or.inr rfl) (List.cons_ne_nil _ _) hgap hstep
  have hmeet := spellings_meet [dragWord, stepWord] (List.cons_ne_nil _ _)
  refine ⟨hspaced, hmeet.1, hmeet.2.2.1 [' '] _ ?_ hspaced, ?_⟩
  · exact List.forall_mem_singleton.mpr (by decide)
  · exact hmeet.2.2.2 "on" (by decide) "_DRAG_S2".toList (by decide)

end EventName
end PayloadFlow
