import PayloadFlow.EventName

/-!
# The words and the characters of event names

How the words of a text are read, run by run, and what they hold: its letters and
digits in lower case.  The common spelling of an event is made of these and of
dashes, so that no event is spelled like the mark of the fall-through.
-/

namespace PayloadFlow

namespace Text

theorem forall_ascii {P : Char -> Prop} (h : forall n, n < 0x80 -> P (Char.ofNat n)) {c : Char}
    (hc : c.toNat < 0x80) : P c := by
  have hofNat := h c.toNat hc
  rw [Char.ofNat_toNat] at hofNat
  exact hofNat

theorem isAlphanumeric_toLower {c : Char} (hascii : c.toNat < 0x80) :
    isAlphanumeric c.toLower = isAlphanumeric c :=
  forall_ascii (P := fun c => isAlphanumeric c.toLower = isAlphanumeric c) (by decide)
    hascii

set_option maxRecDepth 1000 in
theorem first_shift_large :
    forall s, s ∈ lowercaseShifts -> (0x60 : Int) < (s.1.first : Int) + s.2 := by
  decide

theorem ofNat_ne {m : Char} (hm : 0 < m.toNat) {n : Nat} (hn : m.toNat < n) :
    Char.ofNat n ≠ m := by
  intro h
  have hval := congrArg Char.toNat h
  by_cases hvalid : n.isValidChar
  · rw [Char.ofNat, dif_pos hvalid] at hval
    have hn' : n = m.toNat := hval
    omega
  · rw [Char.ofNat, dif_neg hvalid] at hval
    have hzero : 0 = m.toNat := hval
    omega

/-- The lower case of letters and digits holds no other ASCII character before the
small letters. -/
theorem not_mem_lowerChars {c m : Char} (hc : isAlphanumeric c = true)
    (hm : isAlphanumeric m = false) (hpos : 0 < m.toNat) (hsmall : m.toNat <= 0x60) :
    m ∉ lowerChars c := by
  have hne : c ≠ m := by
    rintro rfl
    rw [hc] at hm
    cases hm
  unfold lowerChars
  split
  · rename_i hascii
    intro hmem
    rw [List.mem_singleton.mp hmem, isAlphanumeric_toLower hascii, hc] at hm
    cases hm
  · split
    · intro hmem
      rcases List.mem_cons.mp hmem with rfl | hmem
      · exact absurd hsmall (by decide)
      · rw [List.mem_singleton.mp hmem] at hsmall
        exact absurd hsmall (by decide)
    · split
      · rename_i span shift hfound
        intro hmem
        have hspan := List.mem_of_find?_eq_some hfound
        have hcontains := List.find?_some hfound
        have hlarge := first_shift_large _ hspan
        simp only [CodeSpan.contains, Bool.and_eq_true, decide_eq_true_eq] at hcontains
        refine ofNat_ne hpos ?_ (List.mem_singleton.mp hmem).symm
        dsimp only at hlarge
        omega
      · intro hmem
        exact hne (List.mem_singleton.mp hmem).symm

set_option maxRecDepth 4000 in
theorem blankSpans_apart :
    (blankSpans.all fun s => (alphabeticSpans ++ numericSpans ++ lowercaseSpans).all fun t =>
      s.last.blt t.first || t.last.blt s.first) = true := by
  decide

theorem not_inSpans_of_isBlank {c : Char} (hc : isBlank c = true) {spans : List CodeSpan}
    (hspans : spans ⊆ alphabeticSpans ++ numericSpans ++ lowercaseSpans) :
    inSpans spans c = false := by
  rcases List.any_eq_true.mp hc with ⟨s, hs, hcontains⟩
  rw [inSpans, List.any_eq_false]
  intro t ht
  have hapart := List.all_eq_true.mp (List.all_eq_true.mp blankSpans_apart s hs) t (hspans ht)
  simp only [Bool.or_eq_true, Nat.blt_eq, CodeSpan.contains, Bool.and_eq_true,
    decide_eq_true_eq] at hapart hcontains ⊢
  omega

theorem not_alphanumeric_of_isBlank {c : Char} (hc : isBlank c = true) :
    isAlphanumeric c = false ∧ isLowercase c = false := by
  by_cases hascii : c.toNat < 0x80
  · exact forall_ascii
      (P := fun c => isBlank c = true -> isAlphanumeric c = false ∧ isLowercase c = false)
      (by decide) hascii hc
  · have halphabetic : inSpans alphabeticSpans c = false := not_inSpans_of_isBlank hc (by simp)
    have hnumeric : inSpans numericSpans c = false := not_inSpans_of_isBlank hc (by simp)
    have hlowercase : inSpans lowercaseSpans c = false := not_inSpans_of_isBlank hc (by simp)
    simp [isAlphanumeric, isAlphabetic, isNumeric, isLowercase, hascii, halphabetic, hnumeric,
      hlowercase]

theorem mem_joinWith {separator : List Char} {words : List (List Char)} {c : Char}
    (hc : c ∈ joinWith separator words) :
    c ∈ separator ∨ exists word, word ∈ words ∧ c ∈ word := by
  induction words with
  | nil =>
      cases hc
  | cons first rest ih =>
      cases rest with
      | nil =>
          exact Or.inr ⟨first, List.mem_cons_self, hc⟩
      | cons second rest =>
          simp only [joinWith, List.mem_append] at hc
          rcases hc with (hc | hc) | hc
          · exact Or.inr ⟨first, List.mem_cons_self, hc⟩
          · exact Or.inl hc
          · rcases ih hc with hc | ⟨word, hword, hc⟩
            · exact Or.inl hc
            · exact Or.inr ⟨word, List.mem_cons_of_mem _ hword, hc⟩

end Text

namespace EventName

open Text

/-!
# Runs of characters
-/

theorem wordsFrom_previous (p q : Char) (text : List Char) :
    wordsFrom p [] text = wordsFrom q [] text := by
  cases text with
  | nil => rfl
  | cons c rest => simp [wordsFrom]

/-- Characters that are neither letters nor digits before the first word. -/
theorem wordsFrom_marks {marks : List Char}
    (hmarks : forall c, c ∈ marks -> isAlphanumeric c = false) (p : Char) (rest : List Char) :
    wordsFrom p [] (marks ++ rest) = wordsFrom p [] rest := by
  induction marks with
  | nil =>
      rfl
  | cons c marks ih =>
      have hc := hmarks c List.mem_cons_self
      have hrest := ih fun d hd => hmarks d (List.mem_cons_of_mem c hd)
      rw [List.cons_append, wordsFrom, wordsFrom_previous c p, hrest]
      simp [hc]

/-- A word ends at the first character that is neither letter nor digit. -/
theorem wordsFrom_gap {gap : List Char} (hne : gap ≠ [])
    (hgap : forall c, c ∈ gap -> isAlphanumeric c = false) (p : Char) {word : List Char}
    (hword : word ≠ []) (rest : List Char) :
    wordsFrom p word (gap ++ rest) = word :: wordsFrom p [] rest := by
  cases gap with
  | nil =>
      exact absurd rfl hne
  | cons c gap =>
      have hc := hgap c List.mem_cons_self
      have hmarks := wordsFrom_marks (fun d hd => hgap d (List.mem_cons_of_mem c hd)) c rest
      rw [List.cons_append, wordsFrom, hmarks, wordsFrom_previous c p]
      simp [hc, hword]

theorem startsWord_trailing {marks : List Char}
    (hmarks : forall c, c ∈ marks -> isLowercase c = false) (p c : Char) (text : List Char) :
    startsWord p c (text ++ marks).head? = startsWord p c text.head? := by
  cases text with
  | nil =>
      cases marks with
      | nil => rfl
      | cons d marks => simp [startsWord, hmarks d List.mem_cons_self]
  | cons d text =>
      rfl

theorem wordsFrom_trailing {marks : List Char}
    (hmarks : forall c, c ∈ marks -> isAlphanumeric c = false ∧ isLowercase c = false)
    (p : Char) (word text : List Char) :
    wordsFrom p word (text ++ marks) = wordsFrom p word text := by
  have hplain : forall c, c ∈ marks -> isAlphanumeric c = false := fun c hc => (hmarks c hc).1
  induction text generalizing p word with
  | nil =>
      rw [List.nil_append, ← List.append_nil marks]
      by_cases hword : word = []
      · rw [hword, wordsFrom_marks hplain]
      · by_cases hne : marks = []
        · rw [hne, List.nil_append]
        · rw [wordsFrom_gap hne hplain p hword]
          simp [wordsFrom, hword]
  | cons c text ih =>
      rw [List.cons_append, wordsFrom, wordsFrom,
        startsWord_trailing (fun c hc => (hmarks c hc).2), ih, ih, ih]

/-- The blanks around a text do not matter to its words. -/
theorem words_eq (text : List Char) : words text = wordsFrom ' ' [] text := by
  have hstart : text = text.takeWhile isBlank ++ trimStart text :=
    List.takeWhile_append_dropWhile.symm
  have hend : trimStart text =
      trim text ++ ((trimStart text).reverse.takeWhile isBlank).reverse := by
    have hsplit := congrArg List.reverse
      (List.takeWhile_append_dropWhile (p := isBlank) (l := (trimStart text).reverse))
    rw [List.reverse_append, List.reverse_reverse] at hsplit
    exact hsplit.symm
  have hleft : wordsFrom ' ' [] (text.takeWhile isBlank ++ trimStart text) =
      wordsFrom ' ' [] (trimStart text) := by
    apply wordsFrom_marks
    intro c hc
    exact (not_alphanumeric_of_isBlank (List.all_eq_true.mp List.all_takeWhile c hc)).1
  have hright : wordsFrom ' ' [] (trim text ++
      ((trimStart text).reverse.takeWhile isBlank).reverse) = wordsFrom ' ' [] (trim text) := by
    apply wordsFrom_trailing
    intro c hc
    rw [List.mem_reverse] at hc
    exact not_alphanumeric_of_isBlank (List.all_eq_true.mp List.all_takeWhile c hc)
  rw [← hstart] at hleft
  rw [← hend] at hright
  rw [words, hleft, hright]

/-- The words of a text hold its letters and digits in lower case, and nothing
else. -/
theorem flatten_wordsFrom (p : Char) (word text : List Char) :
    (wordsFrom p word text).flatten = word ++ lowerEach (text.filter isAlphanumeric) := by
  induction text generalizing p word with
  | nil =>
      by_cases hword : word = []
      · simp [wordsFrom, hword, lowerEach]
      · simp [wordsFrom, hword, lowerEach]
  | cons c rest ih =>
      unfold wordsFrom
      by_cases hc : isAlphanumeric c = true
      · rw [List.filter_cons_of_pos hc]
        simp only [hc, lowerEach, List.flatMap_cons]
        split
        · simp_all
        · split
          · rw [List.flatten_cons, ih]
            rfl
          · rw [ih, List.append_assoc]
            rfl
      · rw [List.filter_cons_of_neg hc]
        by_cases hword : word = []
        · simp [hc, hword, ih]
        · simp [hc, hword, ih]

/-!
# The characters of the common spelling
-/

theorem mem_wordsFrom {previous : Char} {word text : List Char} {w : List Char} {c : Char}
    (hw : w ∈ wordsFrom previous word text) (hc : c ∈ w) :
    c ∈ word ∨ exists d, isAlphanumeric d = true ∧ c ∈ lowerChars d := by
  induction text generalizing previous word with
  | nil =>
      unfold wordsFrom at hw
      split at hw
      · cases hw
      · exact Or.inl (List.mem_singleton.mp hw ▸ hc)
  | cons d rest ih =>
      unfold wordsFrom at hw
      split at hw
      · rcases List.mem_append.mp hw with hw | hw
        · split at hw
          · cases hw
          · exact Or.inl (List.mem_singleton.mp hw ▸ hc)
        · rcases ih hw with hnil | hlower
          · cases hnil
          · exact Or.inr hlower
      · rename_i hd
        have hd' : isAlphanumeric d = true := by simpa using hd
        split at hw
        · rcases List.mem_cons.mp hw with rfl | hw
          · exact Or.inl hc
          · rcases ih hw with hlower | hlower
            · exact Or.inr ⟨d, hd', hlower⟩
            · exact Or.inr hlower
        · rcases ih hw with hword | hlower
          · rcases List.mem_append.mp hword with hword | hlower
            · exact Or.inl hword
            · exact Or.inr ⟨d, hd', hlower⟩
          · exact Or.inr hlower

/-- A common spelling holds dashes and the lower case of letters and digits. -/
theorem mem_normalize {raw : String} {c : Char} (hc : c ∈ (normalize raw).toList) :
    c = '-' ∨ exists d, isAlphanumeric d = true ∧ c ∈ lowerChars d := by
  rw [normalize, String.toList_ofList] at hc
  rcases mem_joinWith hc with hdash | ⟨word, hword, hc⟩
  · exact Or.inl (List.mem_singleton.mp hdash)
  · rcases mem_wordsFrom hword hc with hnil | hlower
    · cases hnil
    · exact Or.inr hlower

theorem normalize_ne_star (raw : String) : normalize raw ≠ "*" := by
  intro hstar
  have hmem : '*' ∈ (normalize raw).toList := by
    rw [hstar]
    decide
  rcases mem_normalize hmem with hdash | ⟨d, hd, hlower⟩
  · cases hdash
  · exact not_mem_lowerChars hd (by decide) (by decide) (by decide) hlower

end EventName
end PayloadFlow
