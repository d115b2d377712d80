import PayloadFlow.Workspace.Extraction

/-!
# Files read through a cache

What the extraction of one file finds in a cache, what it gives, and what it
leaves behind for later look-ups.
-/

namespace PayloadFlow
namespace Workspace

/-!
# Look-ups
-/

namespace Cache

theorem find?_put (c : Cache) (key other : CacheKey) (contracts : List Contract) :
    (c.put key contracts).find? other = if key = other then some contracts else c.find? other := by
  by_cases hkey : key = other
  · simp [find?, put, hkey]
  · have hkept : (fun e : CacheKey × List Contract =>
        decide ((e.1 != key) = true ∧ (e.1 == other) = true)) = fun e => e.1 == other := by
      funext e
      by_cases he : e.1 = other
      · simp [he, Ne.symm hkey]
      · simp [he]
    rw [find?, put, List.find?_cons_of_neg (by simpa using hkey), List.find?_filter, hkept,
      if_neg hkey, find?]

theorem get_of_find? {c : Cache} {key : CacheKey} {contracts : List Contract}
    (h : c.find? key = some contracts) :
    c.get key = (some contracts, { c with hits := c.hits + 1 }) := by
  simp [get, h]

theorem get_of_find?_none {c : Cache} {key : CacheKey} (h : c.find? key = none) :
    c.get key = (none, c) := by
  simp [get, h]

end Cache

/-!
# One file
-/

/-- The text of the file at a path, however large it is. -/
def textAt? (tree : Tree) (path : RawText) : Option String :=
  match tree.content? path with
  | .ok content => String.fromUTF8? content
  | .error _ => none

theorem textAt?_of_readSource {tree : Tree} {path : RawText} {displayPath text : String}
    {maxBytes : Nat} (h : readSource tree path displayPath maxBytes = .ok text) :
    textAt? tree path = some text := by
  unfold readSource at h
  unfold textAt?
  cases hcontent : tree.content? path with
  | error reason =>
      simp [hcontent] at h
  | ok content =>
      simp only [hcontent] at h
      by_cases hsize : (maxBytes > 0 && content.size > maxBytes) = true
      · simp [hsize] at h
      · cases htext : String.fromUTF8? content with
        | none =>
            simp [hsize, htext] at h
        | some found =>
            simp only [htext] at h
            simp only [if_neg hsize, Except.ok.injEq] at h
            simp [htext, h]

def sourceText (tree : Tree) (config : Config) (file : SourceFile) :
    Except ExtractionError String :=
  readSource tree file.path file.displayPath config.limits.maxFileBytes.toNat

/-- The contracts of a file, read without a cache. -/
def readAlone (tree : Tree) (config : Config) (file : SourceFile) :
    Except ExtractionError (List Contract) :=
  match sourceText tree config file with
  | .error e => .error e
  | .ok text => extract config file.role file.displayPath text

theorem readAlone_of_text {tree : Tree} {config : Config} {file : SourceFile} {text : String}
    (htext : sourceText tree config file = .ok text) :
    readAlone tree config file = extract config file.role file.displayPath text := by
  rw [readAlone, htext]

inductive FileStep (tree : Tree) (config : Config) (cache : Cache) (file : SourceFile) :
    FileExtraction × Cache -> Prop where
  | unread {e : ExtractionError} (htext : sourceText tree config file = .error e) :
      FileStep tree config cache file (⟨file, .error e, false⟩, cache)
  | found {text : String} {contracts : List Contract}
      (htext : sourceText tree config file = .ok text)
      (hfound : cache.find? (cacheKey file.path file.role text) = some contracts) :
      FileStep tree config cache file
        (⟨file, .ok contracts, true⟩, { cache with hits := cache.hits + 1 })
  | extracted {text : String} {contracts : List Contract}
      (htext : sourceText tree config file = .ok text)
      (habsent : cache.find? (cacheKey file.path file.role text) = none)
      (hextract : extract config file.role file.displayPath text = .ok contracts) :
      FileStep tree config cache file
        (⟨file, .ok contracts, false⟩, cache.put (cacheKey file.path file.role text) contracts)
  | failed {text : String} {e : ExtractionError}
      (htext : sourceText tree config file = .ok text)
      (habsent : cache.find? (cacheKey file.path file.role text) = none)
      (hextract : extract config file.role file.displayPath text = .error e) :
      FileStep tree config cache file (⟨file, .error e, false⟩, cache)

section

variable {tree : Tree} {config : Config} {cache : Cache} {file : SourceFile}

theorem FileStep.eq {outcome : FileExtraction × Cache}
    (hstep : FileStep tree config cache file outcome) :
    extractFile tree config cache file = outcome := by
  unfold extractFile
  cases hstep with
  | unread htext =>
      rw [show readSource _ _ _ _ = _ from htext]
  | found htext hfound =>
      rw [show readSource _ _ _ _ = _ from htext]
      simp only [extractText, Cache.get_of_find? hfound]
  | extracted htext habsent hextract =>
      rw [show readSource _ _ _ _ = _ from htext]
      simp only [extractText, Cache.get_of_find?_none habsent, hextract]
  | failed htext habsent hextract =>
      rw [show readSource _ _ _ _ = _ from htext]
      simp only [extractText, Cache.get_of_find?_none habsent, hextract]

theorem extractFile_step (tree : Tree) (config : Config) (cache : Cache) (file : SourceFile) :
    FileStep tree config cache file (extractFile tree config cache file) := by
  have hexists : exists outcome, FileStep tree config cache file outcome := by
    cases htext : sourceText tree config file with
    | error e =>
        exact ⟨_, .unread htext⟩
    | ok text =>
        cases hfind : cache.find? (cacheKey file.path file.role text) with
        | some contracts =>
            exact ⟨_, .found htext hfind⟩
        | none =>
            cases hextract : extract config file.role file.displayPath text with
            | ok contracts => exact ⟨_, .extracted htext hfind hextract⟩
            | error e => exact ⟨_, .failed htext hfind hextract⟩
  rcases hexists with ⟨outcome, hstep⟩
  rw [hstep.eq]
  exact hstep

theorem extractFiles_cons (tree : Tree) (config : Config) (cache : Cache) (file : SourceFile)
    (rest : List SourceFile) :
    extractFiles tree config cache (file :: rest) =
      ((extractFile tree config cache file).1 ::
          (extractFiles tree config (extractFile tree config cache file).2 rest).1,
        (extractFiles tree config (extractFile tree config cache file).2 rest).2) := rfl

theorem file_extractFile (tree : Tree) (config : Config) (cache : Cache) (file : SourceFile) :
    (extractFile tree config cache file).1.file = file := by
  have hstep := extractFile_step tree config cache file
  generalize extractFile tree config cache file = outcome at hstep
  cases hstep <;> rfl

theorem extractFile_hits (tree : Tree) (config : Config) (cache : Cache) (file : SourceFile) :
    (extractFile tree config cache file).2.hits =
      cache.hits + (extractFile tree config cache file).1.cacheHit.toNat := by
  have hstep := extractFile_step tree config cache file
  generalize extractFile tree config cache file = outcome at hstep
  cases hstep <;> rfl

/-!
# What a file leaves in the cache
-/

/-- The contracts that a file leaves under a key, unless there are some. -/
def leaves? (tree : Tree) (config : Config) (file : SourceFile) (key : CacheKey) :
    Option (List Contract) :=
  match sourceText tree config file with
  | .ok text =>
      if cacheKey file.path file.role text = key then
        (extract config file.role file.displayPath text).toOption
      else none
  | .error _ => none

variable {text : String} {key : CacheKey} {contracts : List Contract}

theorem leaves?_of_error {e : ExtractionError} (htext : sourceText tree config file = .error e)
    (key : CacheKey) : leaves? tree config file key = none := by
  rw [leaves?, htext]

theorem leaves?_self (htext : sourceText tree config file = .ok text) :
    leaves? tree config file (cacheKey file.path file.role text) =
      (extract config file.role file.displayPath text).toOption := by
  simp only [leaves?, htext, if_pos]

theorem leaves?_of_ne (htext : sourceText tree config file = .ok text)
    (hkey : cacheKey file.path file.role text ≠ key) : leaves? tree config file key = none := by
  simp only [leaves?, htext, if_neg hkey]

theorem leaves?_eq_some (h : leaves? tree config file key = some contracts) :
    exists text, sourceText tree config file = .ok text ∧
      cacheKey file.path file.role text = key ∧
        extract config file.role file.displayPath text = .ok contracts := by
  cases htext : sourceText tree config file with
  | error e =>
      rw [leaves?_of_error htext] at h
      cases h
  | ok text =>
      by_cases hkey : cacheKey file.path file.role text = key
      · subst hkey
        rw [leaves?_self htext] at h
        refine ⟨text, rfl, rfl, ?_⟩
        cases hextract : extract config file.role file.displayPath text with
        | error e =>
            rw [hextract] at h
            cases h
        | ok found =>
            rw [hextract] at h
            exact congrArg Except.ok (Option.some.inj h)
      · rw [leaves?_of_ne htext hkey] at h
        cases h

/-- An extraction adds what the file leaves to what the cache held before. -/
theorem find?_extractFile (tree : Tree) (config : Config) (cache : Cache) (file : SourceFile)
    (key : CacheKey) :
    (extractFile tree config cache file).2.find? key =
      (cache.find? key).or (leaves? tree config file key) := by
  have hstep := extractFile_step tree config cache file
  generalize extractFile tree config cache file = outcome at hstep
  cases hstep with
  | unread htext =>
      rw [leaves?_of_error htext, Option.or_none]
  | @found text contracts htext hfound =>
      show cache.find? key = _
      by_cases hkey : cacheKey file.path file.role text = key
      · rw [← hkey, hfound, Option.some_or]
      · rw [leaves?_of_ne htext hkey, Option.or_none]
  | @extracted text contracts htext habsent hextract =>
      rw [Cache.find?_put]
      by_cases hkey : cacheKey file.path file.role text = key
      · rw [if_pos hkey, ← hkey, habsent, leaves?_self htext, hextract]
        rfl
      · rw [if_neg hkey, leaves?_of_ne htext hkey, Option.or_none]
  | @failed text e htext habsent hextract =>
      by_cases hkey : cacheKey file.path file.role text = key
      · rw [← hkey, habsent, leaves?_self htext, hextract]
        rfl
      · rw [leaves?_of_ne htext hkey, Option.or_none]

end

end Workspace
end PayloadFlow
