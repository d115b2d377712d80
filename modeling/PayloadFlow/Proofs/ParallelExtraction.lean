import Mathlib.Algebra.Ring.Nat
import Mathlib.Data.List.Basic
import Mathlib.Data.List.Find
import Mathlib.Data.List.Pairwise
import PayloadFlow.Proofs.Cache
import PayloadFlow.Proofs.RawText

/-!
# Files extracted side by side

Several workers extract files with one cache.  A file takes at most two steps on the
cache, a look-up and, if that finds nothing, an entry; the steps of different files may
come in any order.  The order makes no difference exactly if no two files contend for a
key, and files that differ in path or role, as the keys show them, never do.
-/

namespace PayloadFlow
namespace Workspace

/-!
# Jobs and pools
-/

inductive Progress where
  | waiting
  /-- the file was read and is not in the cache -/
  | missed (text : String)
  | finished (extraction : FileExtraction)

structure Job where
  file : SourceFile
  progress : Progress := .waiting

namespace Job

def extraction? (job : Job) : Option FileExtraction :=
  match job.progress with
  | .finished x => some x
  | _ => none

def remaining (job : Job) : Nat :=
  match job.progress with
  | .waiting => 2
  | .missed _ => 1
  | .finished _ => 0

def advance (tree : Tree) (config : Config) (cache : Cache) (job : Job) : Job × Cache :=
  match job.progress with
  | .waiting =>
      match sourceText tree config job.file with
      | .error e => (⟨job.file, .finished ⟨job.file, .error e, false⟩⟩, cache)
      | .ok text =>
          match cache.get (cacheKey job.file.path job.file.role text) with
          | (some contracts, cache) =>
              (⟨job.file, .finished ⟨job.file, .ok contracts, true⟩⟩, cache)
          | (none, cache) => (⟨job.file, .missed text⟩, cache)
  | .missed text =>
      match extract config job.file.role job.file.displayPath text with
      | .ok contracts =>
          (⟨job.file, .finished ⟨job.file, .ok contracts, false⟩⟩,
            cache.put (cacheKey job.file.path job.file.role text) contracts)
      | .error e => (⟨job.file, .finished ⟨job.file, .error e, false⟩⟩, cache)
  | .finished _ => (job, cache)

end Job

structure Pool where
  cache : Cache
  jobs : List Job

namespace Pool

def start (cache : Cache) (files : List SourceFile) : Pool :=
  ⟨cache, files.map fun file => { file }⟩

def advance (tree : Tree) (config : Config) (p : Pool) (i : Nat) : Pool :=
  match p.jobs[i]? with
  | some job =>
      let (job, cache) := job.advance tree config p.cache
      ⟨cache, p.jobs.set i job⟩
  | none => p

/-- The pool after steps of the jobs at some places, in this order. -/
def run (tree : Tree) (config : Config) (p : Pool) (schedule : List Nat) : Pool :=
  schedule.foldl (advance tree config) p

def IsComplete (p : Pool) : Prop :=
  forall job, job ∈ p.jobs -> job.remaining = 0

/-- What the jobs that have come to their end gave, in the order of the jobs. -/
def extractions (p : Pool) : List FileExtraction :=
  p.jobs.filterMap Job.extraction?

end Pool

/-!
# Entries
-/

theorem Cache.entries_put {c : Cache} {key : CacheKey} (habsent : c.find? key = none)
    (contracts : List Contract) :
    (c.put key contracts).entries = (key, contracts) :: c.entries := by
  have hkept : (c.entries.filter fun e => e.1 != key) = c.entries := by
    rw [List.filter_eq_self]
    intro e he
    rw [bne_iff_ne]
    intro hkey
    have hnone := List.find?_eq_none.mp (Option.map_eq_none_iff.mp habsent) e he
    exact hnone (by simpa using hkey)
  rw [put, hkept]

/-- If a key has one entry at most, its place does not matter to a look-up. -/
theorem Cache.find?_of_perm {c d base : Cache} {log log' : List (CacheKey × List Contract)}
    (hc : c.entries = log ++ base.entries) (hd : d.entries = log' ++ base.entries)
    (hlogs : log.Perm log')
    (hunique : forall a, a ∈ log -> forall b, b ∈ log -> a.1 = b.1 -> a = b) (key : CacheKey) :
    c.find? key = d.find? key := by
  have hfind : (log.find? fun e => e.1 == key) = log'.find? fun e => e.1 == key := by
    apply List.find?_eq_find?_of_perm hlogs
    intro a ha b hb
    have hakey : a.1 = key := by simpa using ha.2
    have hbkey : b.1 = key := by simpa using hb.2
    exact hunique a ha.1 b hb.1 (hakey.trans hbkey.symm)
  rw [find?, find?, hc, hd, List.find?_append, List.find?_append, hfind]

theorem Cache.find?_of_entries {c base : Cache} {log : List (CacheKey × List Contract)}
    (hentries : c.entries = log ++ base.entries) {key : CacheKey}
    (hlog : forall e, e ∈ log -> e.1 ≠ key) : c.find? key = base.find? key := by
  have hnone : (log.find? fun e => e.1 == key) = none := by
    rw [List.find?_eq_none]
    intro e he
    simpa using hlog e he
  rw [find?, hentries, List.find?_append, hnone, Option.none_or, find?]

def key? (tree : Tree) (config : Config) (file : SourceFile) : Option CacheKey :=
  match sourceText tree config file with
  | .ok text => some (cacheKey file.path file.role text)
  | .error _ => none

/-- The entries that a file adds to a cache. -/
def added (tree : Tree) (config : Config) (cache : Cache) (file : SourceFile) :
    List (CacheKey × List Contract) :=
  match key? tree config file with
  | none => []
  | some key =>
      if (cache.find? key).isNone then ((leaves? tree config file key).map (key, ·)).toList else []

section

variable {tree : Tree} {config : Config} {cache : Cache} {file : SourceFile}

theorem key?_of_text {text : String} (htext : sourceText tree config file = .ok text) :
    key? tree config file = some (cacheKey file.path file.role text) := by
  rw [key?, htext]

theorem exists_text_of_key? {key : CacheKey} (hkey : key? tree config file = some key) :
    exists text, sourceText tree config file = .ok text ∧
      cacheKey file.path file.role text = key := by
  unfold key? at hkey
  split at hkey
  · rename_i text htext
    exact ⟨text, htext, Option.some.inj hkey⟩
  · cases hkey

theorem mem_added_iff {e : CacheKey × List Contract} :
    e ∈ added tree config cache file <-> key? tree config file = some e.1 ∧
      cache.find? e.1 = none ∧ leaves? tree config file e.1 = some e.2 := by
  rcases e with ⟨other, contracts⟩
  unfold added
  cases key? tree config file with
  | none =>
      simp
  | some key =>
      dsimp only
      by_cases habsent : cache.find? key = none
      · rw [if_pos (Option.isNone_iff_eq_none.mpr habsent), Option.mem_toList,
          Option.map_eq_some_iff, Option.some.injEq]
        constructor
        · rintro ⟨left, hleft, hsame⟩
          cases hsame
          exact ⟨rfl, habsent, hleft⟩
        · rintro ⟨rfl, _, hleft⟩
          exact ⟨contracts, hleft, rfl⟩
      · rw [if_neg (by simpa using habsent)]
        constructor
        · intro hmem
          cases hmem
        · rintro ⟨hsame, hnone, _⟩
          cases hsame
          exact absurd hnone habsent

theorem eq_of_mem_added {a b : CacheKey × List Contract} (ha : a ∈ added tree config cache file)
    (hb : b ∈ added tree config cache file) : a = b := by
  rw [mem_added_iff] at ha hb
  rcases ha with ⟨hakey, _, haleft⟩
  rcases hb with ⟨hbkey, _, hbleft⟩
  have hkey : a.1 = b.1 := Option.some.inj (hakey.symm.trans hbkey)
  rw [hkey, hbleft] at haleft
  exact Prod.ext hkey (Option.some.inj haleft).symm

theorem added_of_error {e : ExtractionError} (htext : sourceText tree config file = .error e) :
    added tree config cache file = [] := by
  simp only [added, key?, htext]

theorem added_of_text {text : String} (htext : sourceText tree config file = .ok text) :
    added tree config cache file =
      if (cache.find? (cacheKey file.path file.role text)).isNone then
        ((extract config file.role file.displayPath text).toOption.map
          (cacheKey file.path file.role text, ·)).toList
      else [] := by
  simp only [added, key?_of_text htext, leaves?_self htext]

end

/-!
# Steps of a job
-/

namespace Job

def entries (tree : Tree) (config : Config) (base : Cache) (job : Job) :
    List (CacheKey × List Contract) :=
  match job.progress with
  | .finished _ => added tree config base job.file
  | _ => []

def hits (job : Job) : Nat :=
  match job.progress with
  | .finished x => x.cacheHit.toNat
  | _ => 0

/-- A job has come to what the file alone would come to with the cache at the start. -/
def OnTrack (tree : Tree) (config : Config) (base : Cache) (job : Job) : Prop :=
  match job.progress with
  | .waiting => True
  | .missed text =>
      sourceText tree config job.file = .ok text ∧
        base.find? (cacheKey job.file.path job.file.role text) = none
  | .finished x => x = (extractFile tree config base job.file).1

/-- What one step of a job can do: look the file up, or extract it and enter what it gives. -/
inductive JobStep (tree : Tree) (config : Config) (cache : Cache) : Job -> Job × Cache -> Prop where
  | unread {file : SourceFile} {e : ExtractionError}
      (htext : sourceText tree config file = .error e) :
      JobStep tree config cache ⟨file, .waiting⟩
        (⟨file, .finished ⟨file, .error e, false⟩⟩, cache)
  | found {file : SourceFile} {text : String} {contracts : List Contract}
      (htext : sourceText tree config file = .ok text)
      (hfound : cache.find? (cacheKey file.path file.role text) = some contracts) :
      JobStep tree config cache ⟨file, .waiting⟩
        (⟨file, .finished ⟨file, .ok contracts, true⟩⟩, { cache with hits := cache.hits + 1 })
  | missed {file : SourceFile} {text : String}
      (htext : sourceText tree config file = .ok text)
      (habsent : cache.find? (cacheKey file.path file.role text) = none) :
      JobStep tree config cache ⟨file, .waiting⟩ (⟨file, .missed text⟩, cache)
  | extracted {file : SourceFile} {text : String} {contracts : List Contract}
      (hextract : extract config file.role file.displayPath text = .ok contracts) :
      JobStep tree config cache ⟨file, .missed text⟩
        (⟨file, .finished ⟨file, .ok contracts, false⟩⟩,
          cache.put (cacheKey file.path file.role text) contracts)
  | failed {file : SourceFile} {text : String} {e : ExtractionError}
      (hextract : extract config file.role file.displayPath text = .error e) :
      JobStep tree config cache ⟨file, .missed text⟩
        (⟨file, .finished ⟨file, .error e, false⟩⟩, cache)
  | atEnd {file : SourceFile} {x : FileExtraction} :
      JobStep tree config cache ⟨file, .finished x⟩ (⟨file, .finished x⟩, cache)

theorem advance_step (tree : Tree) (config : Config) (cache : Cache) (job : Job) :
    JobStep tree config cache job (job.advance tree config cache) := by
  rcases job with ⟨file, progress⟩
  cases progress with
  | waiting =>
      cases htext : sourceText tree config file with
      | error e =>
          simp only [advance, htext]
          exact .unread htext
      | ok text =>
          cases hfind : cache.find? (cacheKey file.path file.role text) with
          | some contracts =>
              simp only [advance, htext, Cache.get_of_find? hfind]
              exact .found htext hfind
          | none =>
              simp only [advance, htext, Cache.get_of_find?_none hfind]
              exact .missed htext hfind
  | missed text =>
      cases hextract : extract config file.role file.displayPath text with
      | ok contracts =>
          simp only [advance, hextract]
          exact .extracted hextract
      | error e =>
          simp only [advance, hextract]
          exact .failed hextract
  | finished x =>
      exact .atEnd

/-- A step of a job, seen by the job itself and by the cache. -/
structure StepsTo (tree : Tree) (config : Config) (base : Cache) (job : Job) (cache : Cache)
    (next : Job × Cache) : Prop where
  file : next.1.file = job.file
  onTrack : next.1.OnTrack tree config base
  hits : next.2.hits + job.hits = cache.hits + next.1.hits
  entries : exists new, next.2.entries = new ++ cache.entries ∧
    next.1.entries tree config base = new ++ job.entries tree config base

/-- A job that finds the cache as it was at the start stays on track. -/
theorem advance_stepsTo {tree : Tree} {config : Config} {base cache : Cache} {job : Job}
    (hjob : job.OnTrack tree config base)
    (hsame : forall key, key? tree config job.file = some key ->
      cache.find? key = base.find? key) :
    StepsTo tree config base job cache (job.advance tree config cache) := by
  have hstep := advance_step tree config cache job
  generalize job.advance tree config cache = next at hstep
  cases hstep with
  | unread htext =>
      refine ⟨rfl, ?_, rfl, [], rfl, ?_⟩
      · simp only [OnTrack, (FileStep.unread htext).eq]
      · simp only [entries, added_of_error htext, List.nil_append]
  | found htext hfound =>
      have hfind := (hsame _ (key?_of_text htext)).symm.trans hfound
      refine ⟨rfl, ?_, rfl, [], rfl, ?_⟩
      · simp only [OnTrack, (FileStep.found htext hfind).eq]
      · simp [entries, added_of_text htext, hfind]
  | missed htext habsent =>
      have hfind := (hsame _ (key?_of_text htext)).symm.trans habsent
      exact ⟨rfl, ⟨htext, hfind⟩, rfl, [], rfl, rfl⟩
  | @extracted file text contracts hextract =>
      rcases hjob with ⟨htext, hfind⟩
      have habsent := (hsame _ (key?_of_text htext)).trans hfind
      refine ⟨rfl, ?_, rfl, [(cacheKey file.path file.role text, contracts)], ?_, ?_⟩
      · simp only [OnTrack, (FileStep.extracted htext hfind hextract).eq]
      · exact Cache.entries_put habsent contracts
      · simp [entries, added_of_text htext, hfind, hextract, Except.toOption]
  | failed hextract =>
      rcases hjob with ⟨htext, hfind⟩
      refine ⟨rfl, ?_, rfl, [], rfl, ?_⟩
      · simp only [OnTrack, (FileStep.failed htext hfind hextract).eq]
      · simp [entries, added_of_text htext, hfind, hextract, Except.toOption]
  | atEnd =>
      exact ⟨rfl, hjob, rfl, [], rfl, rfl⟩

theorem entries_of_remaining {tree : Tree} {config : Config} {base : Cache} {job : Job}
    (hopen : job.remaining ≠ 0) : job.entries tree config base = [] := by
  rcases job with ⟨file, progress⟩
  cases progress with
  | waiting => rfl
  | missed text => rfl
  | finished x => exact absurd rfl hopen

theorem advance_of_finished {tree : Tree} {config : Config} {cache : Cache} {job : Job}
    (hdone : job.remaining = 0) : job.advance tree config cache = (job, cache) := by
  rcases job with ⟨file, progress⟩
  cases progress with
  | waiting => cases hdone
  | missed text => cases hdone
  | finished x => rfl

theorem remaining_advance (tree : Tree) (config : Config) (cache : Cache) (job : Job) :
    (job.advance tree config cache).1.remaining ≤ job.remaining - 1 := by
  have hstep := advance_step tree config cache job
  generalize job.advance tree config cache = next at hstep
  cases hstep with
  | missed _ _ =>
      exact Nat.le_refl _
  | _ =>
      exact Nat.zero_le _

/-- The look-up and the entry of a file, one right after the other, are its
extraction. -/
theorem advance_advance (tree : Tree) (config : Config) (cache : Cache) (file : SourceFile) :
    ((Job.mk file .waiting).advance tree config cache).1.advance tree config
        ((Job.mk file .waiting).advance tree config cache).2 =
      (⟨file, .finished (extractFile tree config cache file).1⟩,
        (extractFile tree config cache file).2) := by
  have hstep := extractFile_step tree config cache file
  generalize extractFile tree config cache file = outcome at hstep
  cases hstep with
  | unread htext =>
      simp only [advance, htext]
  | found htext hfound =>
      simp only [advance, htext, Cache.get_of_find? hfound]
  | extracted htext habsent hextract =>
      simp only [advance, htext, Cache.get_of_find?_none habsent, hextract]
  | failed htext habsent hextract =>
      simp only [advance, htext, Cache.get_of_find?_none habsent, hextract]

end Job

/-!
# Runs of a pool
-/

/-- Two files are looked up under one key, the cache does not hold it, and one of them at least
leaves something there. -/
def Contend (tree : Tree) (config : Config) (cache : Cache) (f g : SourceFile) : Prop :=
  exists key, key? tree config f = some key ∧ key? tree config g = some key ∧
    cache.find? key = none ∧
      ((leaves? tree config f key).isSome ∨ (leaves? tree config g key).isSome)

theorem Contend.symm {tree : Tree} {config : Config} {cache : Cache} {f g : SourceFile}
    (h : Contend tree config cache f g) : Contend tree config cache g f := by
  rcases h with ⟨key, hf, hg, habsent, hleaves⟩
  exact ⟨key, hg, hf, habsent, hleaves.symm⟩

def NoContention (tree : Tree) (config : Config) (cache : Cache) (files : List SourceFile) :
    Prop :=
  files.Pairwise fun f g => ¬ Contend tree config cache f g

/-- No two files have the same path, as the keys show it, and the same role. -/
def KeysDiffer (files : List SourceFile) : Prop :=
  files.Pairwise fun f g => ¬ (f.path.text = g.path.text ∧ f.role = g.role)

instance (files : List SourceFile) : Decidable (KeysDiffer files) :=
  inferInstanceAs (Decidable (files.Pairwise _))

theorem noContention_of_keysDiffer {files : List SourceFile} (hkeys : KeysDiffer files)
    (tree : Tree) (config : Config) (cache : Cache) : NoContention tree config cache files := by
  refine hkeys.imp ?_
  rintro f g hdiffer ⟨key, hf, hg, _⟩
  rcases exists_text_of_key? hf with ⟨text, _, hfkey⟩
  rcases exists_text_of_key? hg with ⟨text', _, hgkey⟩
  have hkey := hfkey.trans hgkey.symm
  exact hdiffer ⟨congrArg CacheKey.path hkey, congrArg CacheKey.role hkey⟩

theorem keysDiffer_iff_of_texts {files : List SourceFile}
    (htexts : forall f, f ∈ files -> f.path.IsText) :
    KeysDiffer files <-> files.Pairwise fun f g => ¬ (f.path = g.path ∧ f.role = g.role) := by
  apply List.Pairwise.iff_of_mem
  intro f g hf hg
  have hpath : f.path.text = g.path.text <-> f.path = g.path :=
    ⟨RawText.eq_of_text_eq (htexts f hf) (htexts g hg), congrArg RawText.text⟩
  rw [hpath]

namespace Pool

/-- The pool has come, from a cache at the start, to a part of what the files come to
one by one. -/
structure OnTrack (tree : Tree) (config : Config) (base : Cache) (files : List SourceFile)
    (p : Pool) : Prop where
  files : p.jobs.map Job.file = files
  jobs : forall job, job ∈ p.jobs -> job.OnTrack tree config base
  hits : p.cache.hits = base.hits + (p.jobs.map Job.hits).sum
  entries : exists log, p.cache.entries = log ++ base.entries ∧
    log.Perm (p.jobs.flatMap (Job.entries tree config base))

section

variable {tree : Tree} {config : Config} {base : Cache} {files : List SourceFile} {p : Pool}

theorem onTrack_start (tree : Tree) (config : Config) (base : Cache) (files : List SourceFile) :
    OnTrack tree config base files (start base files) := by
  constructor
  · simp [start, Function.comp_def]
  · intro job hjob
    rcases List.mem_map.mp hjob with ⟨file, _, rfl⟩
    trivial
  · have hhits : ((start base files).jobs.map Job.hits).sum = 0 := by
      induction files with
      | nil => rfl
      | cons file rest ih => simpa [start, Job.hits] using ih
    rw [hhits]
    rfl
  · refine ⟨[], rfl, ?_⟩
    have hentries : (start base files).jobs.flatMap (Job.entries tree config base) = [] := by
      simp [start, List.flatMap_map, Job.entries]
    rw [hentries]

/-- The other jobs of a pool have added nothing under the key of a file. -/
theorem key_ne_of_mem_entries {before after : List Job} {job : Job}
    (hfree : NoContention tree config base ((before ++ job :: after).map Job.file))
    {key : CacheKey} (hkey : key? tree config job.file = some key)
    {e : CacheKey × List Contract}
    (he : e ∈ before.flatMap (Job.entries tree config base) ++
      after.flatMap (Job.entries tree config base)) :
    e.1 ≠ key := by
  have hothers : forall other, other ∈ before ++ after ->
      ¬ Contend tree config base other.file job.file := by
    intro other hother
    rw [NoContention, List.map_append, List.map_cons, List.pairwise_append,
      List.pairwise_cons] at hfree
    rcases hfree with ⟨_, ⟨hafter, _⟩, hbefore⟩
    rcases List.mem_append.mp hother with hother | hother
    · exact hbefore _ (List.mem_map_of_mem hother) _ List.mem_cons_self
    · intro hcontend
      exact hafter _ (List.mem_map_of_mem hother) hcontend.symm
  rw [← List.flatMap_append] at he
  rcases List.mem_flatMap.mp he with ⟨other, hother, he⟩
  unfold Job.entries at he
  split at he
  · rcases mem_added_iff.mp he with ⟨hother', habsent, hleaves⟩
    rintro rfl
    exact hothers other hother ⟨e.1, hother', hkey, habsent, Or.inl (by rw [hleaves]; rfl)⟩
  · cases he

/-- A step of a job that has not come to its end keeps the pool on track. -/
theorem onTrack_split {before after : List Job} {job : Job} {cache : Cache}
    (hp : OnTrack tree config base files ⟨cache, before ++ job :: after⟩)
    (hfree : NoContention tree config base files) (hopen : job.remaining ≠ 0) :
    OnTrack tree config base files
      ⟨(job.advance tree config cache).2,
        before ++ (job.advance tree config cache).1 :: after⟩ := by
  rcases hp with ⟨hfiles, hjobs, hhits, log, hentries, hlog⟩
  dsimp only at hfiles hjobs hhits hentries hlog
  have hsame : forall key, key? tree config job.file = some key ->
      cache.find? key = base.find? key := by
    intro key hkey
    refine Cache.find?_of_entries hentries ?_
    intro e he
    have hmem := hlog.mem_iff.mp he
    rw [List.flatMap_append, List.flatMap_cons, Job.entries_of_remaining hopen,
      List.nil_append] at hmem
    exact key_ne_of_mem_entries (hfiles ▸ hfree) hkey hmem
  have hstep := Job.advance_stepsTo (hjobs job (by simp)) hsame
  generalize job.advance tree config cache = next at hstep
  rcases hstep with ⟨hfile, honTrack, hnext, new, hnew, hadded⟩
  constructor
  · rw [← hfiles]
    simp [hfile]
  · intro other hother
    rcases List.mem_append.mp hother with hother | hother
    · exact hjobs other (List.mem_append_left _ hother)
    · rcases List.mem_cons.mp hother with rfl | hother
      · exact honTrack
      · exact hjobs other (List.mem_append_right _ (List.mem_cons_of_mem _ hother))
  · simp only [List.map_append, List.map_cons, List.sum_append, List.sum_cons] at hhits ⊢
    omega
  · refine ⟨new ++ log, ?_, ?_⟩
    · rw [hnew, hentries, List.append_assoc]
    · rw [List.flatMap_append, List.flatMap_cons] at hlog ⊢
      rw [hadded, List.append_assoc]
      exact (hlog.append_left new).trans (List.perm_append_comm_assoc _ _ _)

theorem advance_split (tree : Tree) (config : Config) (cache : Cache) (before after : List Job)
    (job : Job) :
    advance tree config ⟨cache, before ++ job :: after⟩ before.length =
      ⟨(job.advance tree config cache).2,
        before ++ (job.advance tree config cache).1 :: after⟩ := by
  simp [advance]

/-- The pool after a step: a job in its midst has taken one, or nothing has changed. -/
theorem advance_cases (tree : Tree) (config : Config) (p : Pool) (i : Nat) :
    (p.jobs.length ≤ i ∧ p.advance tree config i = p) ∨
      exists before job after, i = before.length ∧ p.jobs = before ++ job :: after ∧
        p.advance tree config i =
          ⟨(job.advance tree config p.cache).2,
            before ++ (job.advance tree config p.cache).1 :: after⟩ := by
  by_cases hi : i < p.jobs.length
  · refine Or.inr ⟨p.jobs.take i, p.jobs[i], p.jobs.drop (i + 1), ?_, ?_, ?_⟩
    · rw [List.length_take, Nat.min_eq_left (Nat.le_of_lt hi)]
    · rw [← List.drop_eq_getElem_cons hi, List.take_append_drop]
    · rw [advance, List.getElem?_eq_getElem hi]
      dsimp only
      rw [List.set_eq_take_append_cons_drop, if_pos hi]
  · have hle := Nat.le_of_not_lt hi
    refine Or.inl ⟨hle, ?_⟩
    rw [advance, List.getElem?_eq_none hle]

theorem onTrack_advance (hp : OnTrack tree config base files p)
    (hfree : NoContention tree config base files) (i : Nat) :
    OnTrack tree config base files (p.advance tree config i) := by
  rcases advance_cases tree config p i with ⟨_, hsame⟩ | ⟨before, job, after, _, hjobs, hnext⟩
  · rw [hsame]
    exact hp
  · rcases p with ⟨cache, jobs⟩
    dsimp only at hjobs hnext
    subst hjobs
    rw [hnext]
    by_cases hdone : job.remaining = 0
    · rw [Job.advance_of_finished hdone]
      exact hp
    · exact onTrack_split hp hfree hdone

/-- Whatever the order of the steps, the pool stays on track. -/
theorem onTrack_run (hp : OnTrack tree config base files p)
    (hfree : NoContention tree config base files) (schedule : List Nat) :
    OnTrack tree config base files (p.run tree config schedule) := by
  induction schedule generalizing p with
  | nil =>
      exact hp
  | cons i rest ih =>
      exact ih (onTrack_advance hp hfree i)

/-!
# Pools at their end
-/

theorem extraction?_of_onTrack {job : Job} (hjob : job.OnTrack tree config base)
    (hdone : job.remaining = 0) :
    job.extraction? = some (extractFile tree config base job.file).1 ∧
      job.hits = (extractFile tree config base job.file).1.cacheHit.toNat ∧
      job.entries tree config base = added tree config base job.file := by
  rcases job with ⟨file, progress⟩
  cases progress with
  | waiting => cases hdone
  | missed text => cases hdone
  | finished x =>
      have hx : x = (extractFile tree config base file).1 := hjob
      rw [hx]
      exact ⟨rfl, rfl, rfl⟩

/-- What a pool on track has come to at its end depends on the files and the cache at
the start only. -/
theorem complete_of_onTrack (hp : OnTrack tree config base files p) (hdone : p.IsComplete) :
    p.extractions = files.map (fun file => (extractFile tree config base file).1) ∧
      p.cache.hits = base.hits +
        (files.map fun file => (extractFile tree config base file).1.cacheHit.toNat).sum ∧
      exists log, p.cache.entries = log ++ base.entries ∧
        log.Perm (files.flatMap (added tree config base)) := by
  have hjobs : forall job, job ∈ p.jobs -> _ :=
    fun job hjob => extraction?_of_onTrack (hp.jobs job hjob) (hdone job hjob)
  rw [← hp.files]
  refine ⟨?_, ?_, ?_⟩
  · rw [List.map_map]
    exact List.filterMap_eq_map_iff_forall_eq_some.mpr fun job hjob => (hjobs job hjob).1
  · rw [hp.hits, List.map_map, List.map_congr_left fun job hjob => (hjobs job hjob).2.1]
    rfl
  · rcases hp.entries with ⟨log, hentries, hlog⟩
    refine ⟨log, hentries, hlog.trans ?_⟩
    rw [List.flatMap_map, List.flatMap_congr fun job hjob => (hjobs job hjob).2.2]

/-- Files that do not contend add one entry at most under each key. -/
theorem unique_of_noContention (hfree : NoContention tree config base files)
    {a b : CacheKey × List Contract} (ha : a ∈ files.flatMap (added tree config base))
    (hb : b ∈ files.flatMap (added tree config base)) (hkey : a.1 = b.1) : a = b := by
  rcases List.mem_flatMap.mp ha with ⟨f, hf, ha⟩
  rcases List.mem_flatMap.mp hb with ⟨g, hg, hb⟩
  by_cases hfg : f = g
  · subst hfg
    exact eq_of_mem_added ha hb
  · have hsymm : Std.Symm fun f g : SourceFile => ¬ Contend tree config base f g :=
      ⟨fun f g hne hcontend => hne hcontend.symm⟩
    rcases mem_added_iff.mp ha with ⟨hakey, habsent, haleft⟩
    rcases mem_added_iff.mp hb with ⟨hbkey, _, _⟩
    refine absurd ?_ (List.Pairwise.forall hfree hf hg hfg)
    exact ⟨a.1, hakey, hkey ▸ hbkey, habsent, Or.inl (by rw [haleft]; rfl)⟩

/-- The pool has come to given extractions and a given cache, up to the order of its entries. -/
structure Agrees (p : Pool) (outcome : List FileExtraction × Cache) : Prop where
  extractions : p.extractions = outcome.1
  hits : p.cache.hits = outcome.2.hits
  entries : p.cache.entries.Perm outcome.2.entries
  lookUps : forall key, p.cache.find? key = outcome.2.find? key

/-- Pools that have come from the same files and the same cache to their end agree. -/
theorem agrees_of_complete {q : Pool} (hfree : NoContention tree config base files)
    (hp : OnTrack tree config base files p) (hpdone : p.IsComplete)
    (hq : OnTrack tree config base files q) (hqdone : q.IsComplete) :
    p.Agrees (q.extractions, q.cache) := by
  rcases complete_of_onTrack hp hpdone with ⟨hpx, hphits, log, hpentries, hplog⟩
  rcases complete_of_onTrack hq hqdone with ⟨hqx, hqhits, log', hqentries, hqlog⟩
  have hlogs : log.Perm log' := hplog.trans hqlog.symm
  refine ⟨hpx.trans hqx.symm, hphits.trans hqhits.symm, ?_, ?_⟩
  · rw [hpentries, hqentries]
    exact hlogs.append_right base.entries
  · have hunique : forall a, a ∈ log -> forall b, b ∈ log -> a.1 = b.1 -> a = b := by
      intro a ha b hb hkey
      exact unique_of_noContention hfree (hplog.mem_iff.mp ha) (hplog.mem_iff.mp hb) hkey
    exact Cache.find?_of_perm hpentries hqentries hlogs hunique

end

/-!
# One file after the other
-/

/-- The schedule in which the jobs from a place on take both their steps in turn. -/
def inTurn (i : Nat) : List SourceFile -> List Nat
  | [] => []
  | _ :: rest => i :: i :: inTurn (i + 1) rest

def finishedJobs (extractions : List FileExtraction) : List Job :=
  extractions.map fun x => ⟨x.file, .finished x⟩

theorem run_inTurn (tree : Tree) (config : Config) (cache : Cache) (done : List Job)
    (files : List SourceFile) :
    run tree config ⟨cache, done ++ (start cache files).jobs⟩ (inTurn done.length files) =
      ⟨(extractFiles tree config cache files).2,
        done ++ finishedJobs (extractFiles tree config cache files).1⟩ := by
  induction files generalizing cache done with
  | nil =>
      simp [run, inTurn, start, extractFiles, finishedJobs]
  | cons file rest ih =>
      have hboth : advance tree config
          (advance tree config ⟨cache, done ++ ⟨file, .waiting⟩ :: (start cache rest).jobs⟩
            done.length) done.length =
          ⟨(extractFile tree config cache file).2,
            done ++ ⟨file, .finished (extractFile tree config cache file).1⟩ ::
              (start cache rest).jobs⟩ := by
        rw [advance_split, advance_split, Job.advance_advance]
      have hrest := ih (extractFile tree config cache file).2
        (done ++ [⟨file, .finished (extractFile tree config cache file).1⟩])
      rw [List.length_append, List.length_singleton, List.append_assoc,
        List.singleton_append] at hrest
      calc
        run tree config ⟨cache, done ++ (start cache (file :: rest)).jobs⟩
              (inTurn done.length (file :: rest)) =
            run tree config
              ⟨(extractFile tree config cache file).2,
                done ++ ⟨file, .finished (extractFile tree config cache file).1⟩ ::
                  (start cache rest).jobs⟩
              (inTurn (done.length + 1) rest) :=
          congrArg (fun p => run tree config p (inTurn (done.length + 1) rest)) hboth
        _ = _ := by
          rw [start] at hrest ⊢
          rw [hrest, extractFiles_cons, finishedJobs, finishedJobs, List.map_cons,
            file_extractFile]
          simp

/-!
# Every schedule comes to its end
-/

theorem getElem?_advance (tree : Tree) (config : Config) (p : Pool) (i j : Nat) :
    (p.advance tree config j).jobs[i]? =
      if j = i then (p.jobs[i]?).map fun job => (job.advance tree config p.cache).1
      else p.jobs[i]? := by
  unfold advance
  cases hjob : p.jobs[j]? with
  | none =>
      by_cases hij : j = i
      · subst hij
        simp [hjob]
      · rw [if_neg hij]
  | some job =>
      dsimp only
      rw [List.getElem?_set]
      by_cases hij : j = i
      · subst hij
        rcases List.getElem?_eq_some_iff.mp hjob with ⟨hlt, hget⟩
        simp [hlt, hget]
      · rw [if_neg hij, if_neg hij]

/-- A job has fewer steps left with each turn that it gets. -/
theorem remaining_run (tree : Tree) (config : Config) {p : Pool} {i : Nat} {job : Job}
    (hjob : p.jobs[i]? = some job) (schedule : List Nat) :
    exists last, (p.run tree config schedule).jobs[i]? = some last ∧
      last.remaining ≤ job.remaining - schedule.count i := by
  induction schedule generalizing p job with
  | nil =>
      exact ⟨job, hjob, Nat.le_refl _⟩
  | cons j rest ih =>
      have hnext := getElem?_advance tree config p i j
      rw [hjob] at hnext
      by_cases hij : j = i
      · subst hij
        rw [if_pos rfl, Option.map_some] at hnext
        rcases ih hnext with ⟨last, hlast, hle⟩
        refine ⟨last, hlast, ?_⟩
        have hstep := Job.remaining_advance tree config p.cache job
        rw [List.count_cons_self]
        omega
      · rw [if_neg hij] at hnext
        rcases ih hnext with ⟨last, hlast, hle⟩
        refine ⟨last, hlast, ?_⟩
        rw [List.count_cons_of_ne hij]
        exact hle

theorem length_jobs_advance (tree : Tree) (config : Config) (p : Pool) (i : Nat) :
    (p.advance tree config i).jobs.length = p.jobs.length := by
  unfold advance
  split
  · exact List.length_set
  · rfl

theorem length_jobs_run (tree : Tree) (config : Config) (p : Pool) (schedule : List Nat) :
    (p.run tree config schedule).jobs.length = p.jobs.length := by
  induction schedule generalizing p with
  | nil =>
      rfl
  | cons i rest ih =>
      exact (ih (p.advance tree config i)).trans (length_jobs_advance tree config p i)

theorem isComplete_run (tree : Tree) (config : Config) (cache : Cache) (files : List SourceFile)
    {schedule : List Nat} (hturns : forall i, i < files.length -> 2 ≤ schedule.count i) :
    ((start cache files).run tree config schedule).IsComplete := by
  intro job hjob
  rcases List.mem_iff_getElem?.mp hjob with ⟨i, hi⟩
  have hlt : i < files.length := by
    have hlength := (List.getElem?_eq_some_iff.mp hi).1
    rw [length_jobs_run] at hlength
    simpa [start] using hlength
  have hfirst : (start cache files).jobs[i]? = some ⟨files[i], .waiting⟩ := by
    simp [start, hlt]
  rcases remaining_run tree config hfirst schedule with ⟨last, hlast, hle⟩
  rw [hi] at hlast
  cases hlast
  have htwo := hturns i hlt
  have hwaiting : Job.remaining ⟨files[i], .waiting⟩ = 2 := rfl
  omega

/-- Whatever the order of the steps, the pool comes to what the files come to one after the
other. -/
def InAnyOrder (tree : Tree) (config : Config) (cache : Cache) (files : List SourceFile) : Prop :=
  forall schedule, ((start cache files).run tree config schedule).IsComplete ->
    ((start cache files).run tree config schedule).Agrees (extractFiles tree config cache files)

theorem inAnyOrder_of_noContention {tree : Tree} {config : Config} {cache : Cache}
    {files : List SourceFile} (hfree : NoContention tree config cache files) :
    InAnyOrder tree config cache files := by
  intro schedule hdone
  have hstart := onTrack_start tree config cache files
  have hturn := run_inTurn tree config cache [] files
  have hsequential := onTrack_run hstart hfree (inTurn 0 files)
  rw [show run tree config (start cache files) (inTurn 0 files) = _ from hturn] at hsequential
  have hfinished : IsComplete ⟨(extractFiles tree config cache files).2,
      [] ++ finishedJobs (extractFiles tree config cache files).1⟩ := by
    intro job hjob
    rcases List.mem_map.mp hjob with ⟨x, _, rfl⟩
    rfl
  have hagrees := agrees_of_complete hfree (onTrack_run hstart hfree schedule) hdone hsequential
    hfinished
  have hextractions : extractions ⟨(extractFiles tree config cache files).2,
      [] ++ finishedJobs (extractFiles tree config cache files).1⟩ =
        (extractFiles tree config cache files).1 := by
    simp [extractions, finishedJobs, Job.extraction?, Function.comp_def]
  rw [hextractions] at hagrees
  exact hagrees

/-!
# Files that contend
-/

section

variable {tree : Tree} {config : Config} {p : Pool} {i : Nat} {job : Job} {file : SourceFile}
  {key : CacheKey}

theorem advance_of_job (tree : Tree) (config : Config) (hjob : p.jobs[i]? = some job) :
    p.advance tree config i = ⟨(job.advance tree config p.cache).2,
      p.jobs.set i (job.advance tree config p.cache).1⟩ := by
  rw [advance, hjob]

theorem advance_twice (tree : Tree) (config : Config) (hjob : p.jobs[i]? = some ⟨file, .waiting⟩) :
    (p.advance tree config i).advance tree config i =
      ⟨(extractFile tree config p.cache file).2,
        p.jobs.set i ⟨file, .finished (extractFile tree config p.cache file).1⟩⟩ := by
  have hlt := (List.getElem?_eq_some_iff.mp hjob).1
  rw [advance_of_job tree config hjob]
  rw [advance_of_job tree config (List.getElem?_set_self hlt), List.set_set, Job.advance_advance]

theorem getElem?_run_of_finished (tree : Tree) (config : Config) (hjob : p.jobs[i]? = some job)
    (hdone : job.remaining = 0) (schedule : List Nat) :
    (p.run tree config schedule).jobs[i]? = some job := by
  induction schedule generalizing p with
  | nil =>
      exact hjob
  | cons j rest ih =>
      apply ih
      rw [getElem?_advance, hjob]
      split
      · rw [Option.map_some, Job.advance_of_finished hdone]
      · rfl

theorem find?_advance (tree : Tree) (config : Config) (job : Job) {cache : Cache}
    (hfound : cache.find? key ≠ none) : (job.advance tree config cache).2.find? key ≠ none := by
  have hstep := Job.advance_step tree config cache job
  generalize job.advance tree config cache = next at hstep
  cases hstep with
  | extracted hextract =>
      rw [Cache.find?_put]
      split
      · exact Option.some_ne_none _
      · exact hfound
  | _ =>
      exact hfound

theorem advance_of_hit {cache : Cache} (hkey : key? tree config file = some key)
    (hfound : cache.find? key ≠ none) :
    exists contracts, ((Job.mk file .waiting).advance tree config cache).1 =
      ⟨file, .finished ⟨file, .ok contracts, true⟩⟩ := by
  rcases exists_text_of_key? hkey with ⟨text, htext, rfl⟩
  rcases Option.ne_none_iff_exists'.mp hfound with ⟨contracts, hfind⟩
  refine ⟨contracts, ?_⟩
  simp only [Job.advance, htext, Cache.get_of_find? hfind]

/-- A file whose key the cache holds before its first turn is a hit. -/
theorem hit_of_run (hkey : key? tree config file = some key) (hfound : p.cache.find? key ≠ none)
    (hjob : p.jobs[i]? = some ⟨file, .waiting⟩) {schedule : List Nat} (hturn : i ∈ schedule) :
    exists contracts, (p.run tree config schedule).jobs[i]? =
      some ⟨file, .finished ⟨file, .ok contracts, true⟩⟩ := by
  induction schedule generalizing p with
  | nil =>
      cases hturn
  | cons j rest ih =>
      have hnext := getElem?_advance tree config p i j
      rw [hjob] at hnext
      by_cases hij : j = i
      · subst hij
        rcases advance_of_hit hkey hfound with ⟨contracts, hadvance⟩
        rw [if_pos rfl, Option.map_some, hadvance] at hnext
        exact ⟨contracts, getElem?_run_of_finished tree config hnext rfl rest⟩
      · rw [if_neg hij] at hnext
        refine ih ?_ hnext ((List.mem_cons.mp hturn).resolve_left (Ne.symm hij))
        rcases advance_cases tree config p j with ⟨_, hsame⟩ | ⟨_, other, _, _, _, hother⟩
        · rw [hsame]
          exact hfound
        · rw [hother]
          exact find?_advance tree config other hfound

theorem getElem?_extractions (hdone : p.IsComplete) {x : FileExtraction}
    (hjob : p.jobs[i]? = some ⟨file, .finished x⟩) : p.extractions[i]? = some x := by
  have hmap : p.extractions = p.jobs.map fun job => job.extraction?.getD x := by
    apply List.filterMap_eq_map_iff_forall_eq_some.mpr
    intro job hmem
    have hfinished := hdone job hmem
    rcases job with ⟨other, progress⟩
    cases progress with
    | waiting => cases hfinished
    | missed text => cases hfinished
    | finished y => rfl
  rw [hmap, List.getElem?_map, hjob]
  rfl

theorem two_le_count_inTurn {files : List SourceFile} {first : Nat} (hfirst : first ≤ i)
    (hlast : i < first + files.length) : 2 ≤ (inTurn first files).count i := by
  induction files generalizing first with
  | nil =>
      simp at hlast
      omega
  | cons file rest ih =>
      by_cases hi : first = i
      · subst hi
        rw [inTurn, List.count_cons_self, List.count_cons_self]
        omega
      · rw [List.length_cons] at hlast
        have hrest : 2 ≤ (inTurn (first + 1) rest).count i := ih (by omega) (by omega)
        rwa [inTurn, List.count_cons_of_ne hi, List.count_cons_of_ne hi]

end

section

variable {tree : Tree} {config : Config} {cache : Cache} {files : List SourceFile}

theorem cacheHit_extractFile {file : SourceFile} {key : CacheKey}
    (hkey : key? tree config file = some key) (cache : Cache) :
    (extractFile tree config cache file).1.cacheHit = (cache.find? key).isSome := by
  rcases exists_text_of_key? hkey with ⟨text, htext, rfl⟩
  have hstep := extractFile_step tree config cache file
  generalize extractFile tree config cache file = outcome at hstep
  cases hstep with
  | unread hunread =>
      rw [htext] at hunread
      cases hunread
  | found hread hfound =>
      cases htext.symm.trans hread
      rw [hfound]
      rfl
  | extracted hread habsent _ =>
      cases htext.symm.trans hread
      rw [habsent]
      rfl
  | failed hread habsent _ =>
      cases htext.symm.trans hread
      rw [habsent]
      rfl

theorem getElem?_extractFiles (tree : Tree) (config : Config) (cache : Cache)
    (files : List SourceFile) (i : Nat) :
    (extractFiles tree config cache files).1[i]? = (files[i]?).map fun file =>
      (extractFile tree config (extractFiles tree config cache (files.take i)).2 file).1 := by
  induction files generalizing cache i with
  | nil =>
      rfl
  | cons file rest ih =>
      cases i with
      | zero => rfl
      | succ i => exact ih (extractFile tree config cache file).2 i

theorem find?_extractFiles (tree : Tree) (config : Config) (cache : Cache)
    (files : List SourceFile) (key : CacheKey) :
    (extractFiles tree config cache files).2.find? key =
      (cache.find? key).or (files.findSome? fun file => leaves? tree config file key) := by
  induction files generalizing cache with
  | nil =>
      simp [extractFiles]
  | cons file rest ih =>
      rw [extractFiles_cons]
      dsimp only
      rw [ih, find?_extractFile, Option.or_assoc, List.findSome?_cons]
      cases leaves? tree config file key with
      | none => simp
      | some contracts => simp

/-- A file that agrees with the extraction in turn is a hit if what comes before it leaves its
key. -/
theorem cacheHit_of_extractions {p : Pool} (hdone : p.IsComplete)
    (hagrees : p.extractions = (extractFiles tree config cache files).1) {k : Nat}
    (hk : k < files.length) {key : CacheKey} (hkey : key? tree config files[k] = some key)
    {x : FileExtraction} (hjob : p.jobs[k]? = some ⟨files[k], .finished x⟩) :
    x.cacheHit = ((extractFiles tree config cache (files.take k)).2.find? key).isSome := by
  have hsame := getElem?_extractions hdone hjob
  rw [hagrees, getElem?_extractFiles, List.getElem?_eq_getElem hk, Option.map_some,
    Option.some.injEq] at hsame
  rw [← hsame, cacheHit_extractFile hkey]

/-- The pool in which the file at a place has been extracted before all others. -/
def extractedFirst (tree : Tree) (config : Config) (cache : Cache) (files : List SourceFile)
    (j : Nat) (hj : j < files.length) : Pool :=
  ⟨(extractFile tree config cache files[j]).2, (start cache files).jobs.set j
    ⟨files[j], .finished (extractFile tree config cache files[j]).1⟩⟩

theorem getElem?_start {k : Nat} (hk : k < files.length) :
    (start cache files).jobs[k]? = some ⟨files[k], .waiting⟩ := by
  simp [start, hk]

theorem run_start_twice (tree : Tree) (config : Config) {j : Nat} (hj : j < files.length)
    (schedule : List Nat) :
    (start cache files).run tree config (j :: j :: schedule) =
      (extractedFirst tree config cache files j hj).run tree config schedule :=
  congrArg (fun p => run tree config p schedule) (advance_twice tree config (getElem?_start hj))

theorem getElem?_extractedFirst_self (tree : Tree) (config : Config) (cache : Cache) {j : Nat}
    (hj : j < files.length) :
    (extractedFirst tree config cache files j hj).jobs[j]? =
      some ⟨files[j], .finished (extractFile tree config cache files[j]).1⟩ :=
  List.getElem?_set_self (List.getElem?_eq_some_iff.mp (getElem?_start hj)).1

theorem getElem?_extractedFirst_ne {i j : Nat} (hi : i < files.length) (hj : j < files.length)
    (hij : j ≠ i) :
    (extractedFirst tree config cache files j hj).jobs[i]? = some ⟨files[i], .waiting⟩ := by
  unfold extractedFirst
  dsimp only
  rw [List.getElem?_set_ne hij]
  exact getElem?_start hi

/-- If the order makes no difference, no two files contend: of two that did, the later one
could be extracted first. -/
theorem noContention_of_inAnyOrder (horder : InAnyOrder tree config cache files) :
    NoContention tree config cache files := by
  rw [NoContention, List.pairwise_iff_getElem]
  rintro i j hi hj hij ⟨key, hikey, hjkey, habsent, hleaves⟩
  have hcount : forall k, k < files.length -> 2 ≤ (inTurn 0 files).count k := by
    intro k hk
    exact two_le_count_inTurn (Nat.zero_le k) (by omega)
  have hdone : ((start cache files).run tree config (j :: j :: inTurn 0 files)).IsComplete := by
    apply isComplete_run
    intro k hk
    exact (hcount k hk).trans (List.count_le_count_cons.trans List.count_le_count_cons)
  have hagrees := (horder _ hdone).extractions
  rw [run_start_twice tree config hj] at hdone hagrees
  -- the later file, extracted first, is no hit, so nothing before it leaves something
  have hlater : ((extractFiles tree config cache (files.take j)).2.find? key) = none := by
    have hfinished := getElem?_run_of_finished tree config
      (getElem?_extractedFirst_self tree config cache hj) rfl (inTurn 0 files)
    have hhits := cacheHit_of_extractions hdone hagrees hj hjkey hfinished
    rw [cacheHit_extractFile hjkey, habsent] at hhits
    simpa using hhits.symm
  rw [find?_extractFiles, habsent, Option.none_or, List.findSome?_eq_none_iff] at hlater
  have hnothing : leaves? tree config files[i] key = none :=
    hlater _ (List.mem_take_iff_getElem.mpr ⟨i, by omega, rfl⟩)
  -- the earlier file then is a hit, which it is not when its turn comes first
  have hfound : (extractedFirst tree config cache files j hj).cache.find? key ≠ none := by
    rw [hnothing] at hleaves
    rw [extractedFirst, find?_extractFile, habsent, Option.none_or]
    simpa [Option.isSome_iff_ne_none] using hleaves
  have hturn : i ∈ inTurn 0 files :=
    List.count_pos_iff.mp (Nat.lt_of_lt_of_le Nat.zero_lt_two (hcount i hi))
  rcases hit_of_run hikey hfound (getElem?_extractedFirst_ne hi hj (by omega)) hturn with
    ⟨contracts, hhit⟩
  have hhits := cacheHit_of_extractions hdone hagrees hi hikey hhit
  have hearlier : ((files.take i).findSome? fun file => leaves? tree config file key) = none := by
    rw [List.findSome?_eq_none_iff]
    intro file hfile
    exact hlater file ((List.take_sublist_take_left (by omega)).subset hfile)
  rw [find?_extractFiles, habsent, hearlier] at hhits
  cases hhits

end

def sharedText : String :=
  "export const drop = x => emit('drop', \x7b x \x7d)"

def sharedFiles : List SourceFile :=
  [⟨"drop.js", "drop.js", .producer⟩, ⟨"drop.js", "drop.js", .consumer⟩]

def sharedTree : Tree :=
  Tree.empty.write ["drop.js"] sharedText.toUTF8

def sharedCache : Cache :=
  Cache.put {} (cacheKey "drop.js" .producer sharedText) []

end Pool

end Workspace
end PayloadFlow
