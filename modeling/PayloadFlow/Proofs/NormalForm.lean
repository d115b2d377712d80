import Mathlib.Data.List.Chain
import PayloadFlow.Proofs.EventOverlap
import PayloadFlow.Proofs.Joining
import PayloadFlow.Proofs.Spelling

/-!
# Normal forms of event names

The common spelling of an ASCII text is made of words of small letters and
digits, with a single dash between one word and the next.  Nothing in such a
text starts a word but a dash, so that reading it gives these words back, and it
is its own common spelling.  No other ASCII text is.
-/

namespace PayloadFlow

namespace Text

/-!
# Marks between words
-/

/-- A mark stands neither first nor last, and never twice in a row. -/
structure MarksBetween (mark : Char) (text : List Char) : Prop where
  leading : text.head? ≠ some mark
  trailing : text.getLast? ≠ some mark
  doubled : ¬ [mark, mark] <:+: text

theorem joinWith_ne_nil {first : List Char} (hfirst : first ≠ []) (mark : Char)
    (rest : List (List Char)) : joinWith [mark] (first :: rest) ≠ [] := by
  cases rest with
  | nil =>
      exact hfirst
  | cons second rest =>
      rw [joinWith_cons_cons]
      exact List.append_ne_nil_of_left_ne_nil hfirst _

theorem isChain_of_not_mem {mark : Char} {word : List Char} (hword : mark ∉ word) :
    word.IsChain fun a b => a = mark -> b ≠ mark := by
  apply List.Pairwise.isChain
  apply List.pairwise_of_forall_mem_list
  intro a ha b _ hmark
  exact absurd (hmark ▸ ha) hword

theorem isChain_joinWith {mark : Char} {words : List (List Char)}
    (hne : forall w, w ∈ words -> w ≠ []) (hmark : forall w, w ∈ words -> mark ∉ w) :
    (joinWith [mark] words).head? ≠ some mark ∧ (joinWith [mark] words).getLast? ≠ some mark ∧
      (joinWith [mark] words).IsChain fun a b => a = mark -> b ≠ mark := by
  induction words with
  | nil =>
      simp [joinWith]
  | cons first rest ih =>
      have hfirst : mark ∉ first := hmark first List.mem_cons_self
      have hhead : first.head? ≠ some mark := fun h => hfirst (List.mem_of_head? h)
      cases rest with
      | nil =>
          exact ⟨hhead, fun h => hfirst (List.mem_of_getLast? h), isChain_of_not_mem hfirst⟩
      | cons second rest =>
          have hfirst_ne : first ≠ [] := hne first List.mem_cons_self
          rcases ih (fun w hw => hne w (List.mem_cons_of_mem first hw))
              (fun w hw => hmark w (List.mem_cons_of_mem first hw)) with
            ⟨hnext, hlast, hchain⟩
          have htail : joinWith [mark] (second :: rest) ≠ [] :=
            joinWith_ne_nil (hne second (List.mem_cons_of_mem first List.mem_cons_self)) mark rest
          rw [joinWith_cons_cons]
          refine ⟨?_, ?_, ?_⟩
          · rw [List.head?_append_of_ne_nil _ hfirst_ne]
            exact hhead
          · rw [List.getLast?_append_cons, List.getLast?_cons_of_ne_nil htail]
            exact hlast
          · refine (isChain_of_not_mem hfirst).append (hchain.cons ?_) ?_
            · intro y hy _ hy_mark
              exact hnext (hy_mark ▸ hy)
            · intro x hx _ _ hx_mark
              exact absurd (hx_mark ▸ List.mem_of_getLast? hx) hfirst

theorem marksBetween_joinWith {mark : Char} {words : List (List Char)}
    (hne : forall w, w ∈ words -> w ≠ []) (hmark : forall w, w ∈ words -> mark ∉ w) :
    MarksBetween mark (joinWith [mark] words) := by
  rcases isChain_joinWith hne hmark with ⟨hleading, htrailing, hchain⟩
  refine ⟨hleading, htrailing, ?_⟩
  intro hinfix
  have hpair := hchain.infix hinfix
  exact (List.isChain_cons_cons.mp hpair).1 rfl rfl

end Text

namespace EventName

open Text

/-!
# Words of small letters and digits
-/

structure IsSmallWord (word : List Char) : Prop where
  nonempty : word ≠ []
  small : forall c, c ∈ word -> c.isLower = true ∨ c.isDigit = true

/-- Words of small letters and digits with single dashes between them, or nothing. -/
def IsNormal (text : String) : Prop :=
  exists words, (forall w, w ∈ words -> IsSmallWord w) ∧ text.toList = joinWith ['-'] words

theorem IsSmallWord.isPlain {word : List Char} (hword : IsSmallWord word) {c : Char}
    (hc : c ∈ word) : IsPlain c :=
  isPlain_of_small (hword.small c hc)

theorem IsSmallWord.dash_not_mem {word : List Char} (hword : IsSmallWord word) :
    '-' ∉ word := by
  intro hdash
  rcases hword.small '-' hdash with hlower | hdigit
  · exact absurd hlower (by decide)
  · exact absurd hdigit (by decide)

theorem small_of_mem_lowerChars {d c : Char} (hascii : d.toNat < 0x80)
    (hd : isAlphanumeric d = true) (hc : c ∈ lowerChars d) :
    c.isLower = true ∨ c.isDigit = true := by
  have htable := forall_ascii (P := fun d => isAlphanumeric d = true ->
    (lowerChars d).all (fun c => c.isLower || c.isDigit) = true) (by decide) hascii hd
  exact (Bool.or_eq_true ..).mp (List.all_eq_true.mp htable c hc)

theorem isSmallWord_of_mem_words {text : List Char}
    (hascii : forall c, c ∈ text -> c.toNat < 0x80) {w : List Char} (hw : w ∈ words text) :
    IsSmallWord w := by
  rw [words_eq] at hw
  refine ⟨ne_nil_of_mem_wordsFrom hw, ?_⟩
  intro c hc
  have hletters := List.mem_flatten_of_mem hw hc
  rw [flatten_wordsFrom, List.nil_append, lowerEach, List.mem_flatMap] at hletters
  rcases hletters with ⟨d, hd, hc⟩
  rcases List.mem_filter.mp hd with ⟨hd, halphanumeric⟩
  exact small_of_mem_lowerChars (hascii d hd) halphanumeric hc

/-!
# Normal forms
-/

theorem isNormal_normalize {text : String} (hascii : forall c, c ∈ text.toList -> c.toNat < 0x80) :
    IsNormal (normalize text) := by
  refine ⟨words text.toList, ?_, ?_⟩
  · intro w hw
    exact isSmallWord_of_mem_words hascii hw
  · rw [normalize, String.toList_ofList]

/-- Only the dashes start words. -/
theorem wordsFrom_joinWith {words : List (List Char)}
    (hwords : forall w, w ∈ words -> IsSmallWord w) (p : Char) :
    wordsFrom p [] (joinWith ['-'] words) = words := by
  induction words generalizing p with
  | nil =>
      rfl
  | cons first rest ih =>
      have hfirst := hwords first List.mem_cons_self
      have hplain := wordsFrom_plain (fun c hc => hfirst.isPlain hc) p []
      cases rest with
      | nil =>
          have hread := hplain []
          rw [List.append_nil, List.nil_append] at hread
          rw [joinWith, hread]
          simp [wordsFrom, hfirst.nonempty]
      | cons second rest =>
          have hdash : forall c, c ∈ ['-'] -> isAlphanumeric c = false :=
            List.forall_mem_singleton.mpr (by decide)
          have hrest := ih fun w hw => hwords w (List.mem_cons_of_mem first hw)
          rw [joinWith, List.append_assoc, hplain, List.nil_append,
            wordsFrom_gap (List.cons_ne_nil _ _) hdash _ hfirst.nonempty, hrest]

theorem normalize_of_isNormal {text : String} (htext : IsNormal text) : normalize text = text := by
  rcases htext with ⟨words, hwords, hjoined⟩
  rw [normalize, words_eq, hjoined, wordsFrom_joinWith hwords, ← hjoined, String.ofList_toList]

theorem marksBetween_of_isNormal {text : String} (htext : IsNormal text) :
    MarksBetween '-' text.toList := by
  rcases htext with ⟨words, hwords, hjoined⟩
  rw [hjoined]
  exact marksBetween_joinWith (fun w hw => (hwords w hw).nonempty)
    fun w hw => (hwords w hw).dash_not_mem

/-- The common spelling of an ASCII text is in normal form: nothing, or words of
small letters and digits with single dashes between them.  It is its own common
spelling, as no other ASCII text is, and has the letters and digits of the text. -/
theorem normalize_normal_form (text : String)
    (hascii : forall c, c ∈ text.toList -> c.toNat < 0x80) :
    IsNormal (normalize text) ∧ MarksBetween '-' (normalize text).toList ∧
      normalize text ≠ "*" ∧ normalize (normalize text) = normalize text ∧
      squash (normalize text) = squash text ∧ (normalize text = text <-> IsNormal text) := by
  have hnormal := isNormal_normalize hascii
  have hagain := normalize_of_isNormal hnormal
  refine ⟨hnormal, marksBetween_of_isNormal hnormal, normalize_ne_star text, hagain,
    squash_eq_of_normalize_eq hagain, ?_, normalize_of_isNormal⟩
  intro hself
  rw [← hself]
  exact hnormal

theorem httpRequest_normal_form :
    (forall c, c ∈ "HTTPRequest2Go: *x--".toList -> c.toNat < 0x80) ∧
      normalize "HTTPRequest2Go: *x--" = "http-request2-go-x" ∧
      IsNormal "http-request2-go-x" ∧ normalize "http-request2-go-x" = "http-request2-go-x" ∧
      squash "http-request2-go-x" = squash "HTTPRequest2Go: *x--" := by
  have hall : ("HTTPRequest2Go: *x--".toList.all fun c => c.toNat < 0x80) = true := by decide
  have hascii : forall c, c ∈ "HTTPRequest2Go: *x--".toList -> c.toNat < 0x80 := by
    intro c hc
    exact of_decide_eq_true (List.all_eq_true.mp hall c hc)
  have hspelled : normalize "HTTPRequest2Go: *x--" = "http-request2-go-x" := by decide
  rcases normalize_normal_form "HTTPRequest2Go: *x--" hascii with
    ⟨hnormal, _, _, hagain, hsquash, _⟩
  rw [hspelled] at hnormal hagain hsquash
  exact ⟨hascii, hspelled, hnormal, hagain, hsquash⟩

end EventName
end PayloadFlow
