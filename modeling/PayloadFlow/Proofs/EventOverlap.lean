import Mathlib.Data.List.Infix
import PayloadFlow.Proofs.EventName

/-!
# Texts that name one event

A text is reduced in two ways: to the common spelling, which puts dashes between its
words, and to its letters and digits alone.  The second is the first without the
dashes.  So two texts with one common spelling have the same letters and digits, and
the name of a handler ends with those of its event.
-/

namespace PayloadFlow

namespace Text

/-- Words without the mark are what is left of their join without the mark. -/
theorem filter_joinWith {mark : Char} {words : List (List Char)}
    (hwords : forall w, w ∈ words -> mark ∉ w) :
    (joinWith [mark] words).filter (· != mark) = words.flatten := by
  have hword : forall w, w ∈ words -> w.filter (· != mark) = w := by
    intro w hw
    rw [List.filter_eq_self]
    intro c hc
    rw [bne_iff_ne]
    rintro rfl
    exact hwords w hw hc
  induction words with
  | nil =>
      rfl
  | cons first rest ih =>
      have hrest := ih (fun w hw => hwords w (List.mem_cons_of_mem first hw))
        fun w hw => hword w (List.mem_cons_of_mem first hw)
      have hfirst := hword first List.mem_cons_self
      cases rest with
      | nil =>
          simpa [joinWith] using hfirst
      | cons second rest =>
          rw [joinWith, List.filter_append, List.filter_append, hfirst, hrest, List.flatten_cons]
          simp

end Text

namespace EventName

open Text

/-!
# The two reductions of a text
-/

theorem ne_nil_of_mem_wordsFrom {p : Char} {word text w : List Char}
    (hw : w ∈ wordsFrom p word text) : w ≠ [] := by
  induction text generalizing p word with
  | nil =>
      by_cases hword : word = []
      · simp [wordsFrom, hword] at hw
      · simp only [wordsFrom, List.isEmpty_iff, if_neg hword, List.mem_singleton] at hw
        exact hw ▸ hword
  | cons c rest ih =>
      unfold wordsFrom at hw
      split at hw
      · rcases List.mem_append.mp hw with hw | hw
        · by_cases hword : word = []
          · simp [hword] at hw
          · simp only [List.isEmpty_iff, if_neg hword, List.mem_singleton] at hw
            exact hw ▸ hword
        · exact ih hw
      · split at hw
        · rename_i hstarts
          rcases List.mem_cons.mp hw with rfl | hw
          · intro hnil
            simp [hnil] at hstarts
          · exact ih hw
        · exact ih hw

theorem dash_not_mem_word {text w : List Char} (hw : w ∈ words text) : '-' ∉ w := by
  intro hdash
  rcases mem_wordsFrom hw hdash with hnil | ⟨d, hd, hlower⟩
  · cases hnil
  · exact not_mem_lowerChars hd (by decide) (by decide) (by decide) hlower

theorem toList_squash (text : String) : (squash text).toList = (words text.toList).flatten := by
  rw [words_eq, flatten_wordsFrom, squash, String.toList_ofList, List.nil_append]

/-- Squashing forgets exactly what the common spelling adds. -/
theorem toList_squash_eq_filter (text : String) :
    (squash text).toList = (normalize text).toList.filter (· != '-') := by
  rw [toList_squash, normalize, String.toList_ofList]
  exact (filter_joinWith fun w hw => dash_not_mem_word hw).symm

theorem squash_eq_of_normalize_eq {a b : String} (h : normalize a = normalize b) :
    squash a = squash b := by
  rw [← String.toList_inj, toList_squash_eq_filter, toList_squash_eq_filter, h]

theorem toList_squash_eq_nil_iff (text : String) :
    (squash text).toList = [] <-> normalize text = "" := by
  constructor
  · intro hsquash
    rw [toList_squash, List.flatten_eq_nil_iff] at hsquash
    have hwords : words text.toList = [] := by
      rw [List.eq_nil_iff_forall_not_mem]
      intro w hw
      exact ne_nil_of_mem_wordsFrom hw (hsquash w hw)
    rw [normalize, hwords]
    rfl
  · intro hnormal
    rw [toList_squash_eq_filter, hnormal]
    rfl

theorem toList_squash_append (a b : String) :
    (squash (a ++ b)).toList = (squash a).toList ++ (squash b).toList := by
  simp [squash, lowerEach]

/-!
# Names of events
-/

/-- What a handler is bound by: a text for its event, or a name that says it. -/
inductive Names (source event : String) : Prop where
  | text (htext : normalize source = event)
  | handler {prefixes : List String} (hname : ofHandler prefixes source = some event)

/-- A handler is named by a start and a text for its event. -/
theorem eq_append_of_ofHandler {prefixes : List String} {name event : String}
    (h : ofHandler prefixes name = some event) :
    exists start rest, name = start ++ rest ∧ normalize rest = event := by
  rcases List.exists_of_findSome?_eq_some h with ⟨start, _, hstart⟩
  unfold afterPrefix at hstart
  split at hstart
  · rename_i first rest hrest
    have hname := List.isPrefixOf?_eq_some_iff_append_eq.mp hrest
    refine ⟨start, String.ofList (first :: rest), ?_, ?_⟩
    · rw [← String.toList_inj, String.toList_append, String.toList_ofList, hname]
    · split at hstart
      · dsimp only at hstart
        split at hstart
        · cases hstart
        · exact Option.some.inj hstart
      · cases hstart
  · cases hstart

theorem squash_suffix_of_names {raw source event : String} (hraw : normalize raw = event)
    (hsource : Names source event) : (squash raw).toList <:+ (squash source).toList := by
  cases hsource with
  | text htext =>
      rw [squash_eq_of_normalize_eq (hraw.trans htext.symm)]
  | handler hname =>
      rcases eq_append_of_ofHandler hname with ⟨start, rest, rfl, hrest⟩
      rw [squash_eq_of_normalize_eq (hraw.trans hrest.symm), toList_squash_append]
      exact List.suffix_append _ _

/-- Texts that name one event overlap, unless they hold no letter and no digit. -/
theorem overlap_iff_of_names {raw source event : String} (hraw : normalize raw = event)
    (hsource : Names source event) : overlap raw source = true <-> event ≠ "" := by
  have hsuffix := squash_suffix_of_names hraw hsource
  have hnil := toList_squash_eq_nil_iff raw
  rw [hraw] at hnil
  simp only [overlap, Bool.and_eq_true, Bool.not_eq_true', Bool.or_eq_true, occursIn_iff,
    List.isEmpty_eq_false_iff]
  constructor
  · rintro ⟨⟨hne, _⟩, _⟩ hempty
    exact hne (hnil.mpr hempty)
  · intro hne
    have hraw' : (squash raw).toList ≠ [] := fun h => hne (hnil.mp h)
    exact ⟨⟨hraw', fun h => hraw' (List.suffix_nil.mp (h ▸ hsuffix))⟩, Or.inr hsuffix.isInfix⟩

end EventName
end PayloadFlow
