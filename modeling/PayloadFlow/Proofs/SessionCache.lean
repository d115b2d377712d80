import PayloadFlow.Proofs.SharedReading
import PayloadFlow.Workspace.Session

/-!
# One cache over a session

Files come, change and go while a session extracts them.  With fixed settings, and
with files that are always shown under the same path, the cache is not seen: every
extraction gives what the file holds at that time.  A file is known to the cache by its
path as a text, so two paths that are no texts and are shown alike count as one.
-/

namespace PayloadFlow
namespace Workspace

/-!
# Extractions of a session
-/

/-- A request to extract a file, with the session in which it is made. -/
structure Call where
  session : Session
  file : SourceFile
  config : Config

namespace Call

def extraction (c : Call) : FileExtraction :=
  (extractFile c.session.tree c.config c.session.cache c.file).1

def text (c : Call) : Except ExtractionError String :=
  sourceText c.session.tree c.config c.file

def reading (c : Call) : Reading :=
  ⟨c.session.tree, c.config, c.file⟩

def Succeeds (c : Call) : Prop :=
  exists contracts, c.extraction.result = .ok contracts

/-- Both requests are about the same path, as it is shown, and the same role and content. -/
def SameSource (b c : Call) : Prop :=
  b.file.path.text = c.file.path.text ∧ b.file.role = c.file.role ∧
    b.session.tree.content? b.file.path = c.session.tree.content? c.file.path

end Call

namespace Request

def call? (s : Session) : Request -> Option Call
  | .extractFile file config => some ⟨s, file, config⟩
  | _ => none

/-- A request that writes, removes or extracts a file, where extractions have given
settings and show each file under a path that depends on the text of the path to it only. -/
inductive Steady (settings : Config) (shown : String -> String) : Request -> Prop where
  | write (path : RawText) (content : ByteArray) : Steady settings shown (.write path content)
  | remove (path : RawText) : Steady settings shown (.remove path)
  | extract (file : SourceFile) (config : Config)
      (hshown : file.displayPath = shown file.path.text)
      (hsettings : forall role, SameSettings role config settings) :
      Steady settings shown (.extractFile file config)

end Request

namespace Answer

def extraction? : Answer -> Option FileExtraction
  | .extracted x _ => some x
  | _ => none

end Answer

namespace Session

def after (s : Session) (requests : List Request) : Session :=
  requests.foldl (fun s r => (s.handle r).1) s

/-- The extractions that some requests ask for, in order. -/
def calls (s : Session) : List Request -> List Call
  | [] => []
  | r :: rest => (r.call? s).toList ++ calls (s.handle r).1 rest

theorem after_cons (s : Session) (r : Request) (rest : List Request) :
    s.after (r :: rest) = (s.handle r).1.after rest := rfl

theorem calls_cons (s : Session) (r : Request) (rest : List Request) :
    s.calls (r :: rest) = (r.call? s).toList ++ (s.handle r).1.calls rest := rfl

theorem calls_extractFile (s : Session) (file : SourceFile) (config : Config)
    (rest : List Request) :
    s.calls (.extractFile file config :: rest) =
      ⟨s, file, config⟩ ::
        (Session.mk s.tree (extractFile s.tree config s.cache file).2).calls rest := rfl

theorem answers_calls (s : Session) (requests : List Request) :
    (s.answers requests).filterMap Answer.extraction? =
      (s.calls requests).map Call.extraction := by
  induction requests generalizing s with
  | nil =>
      rfl
  | cons r rest ih =>
      have hanswer : Answer.extraction? (s.handle r).2 = (r.call? s).map Call.extraction := by
        cases r with
        | remove path =>
            simp only [handle]
            split <;> rfl
        | _ => rfl
      rw [calls_cons, List.map_append, ← ih, answers, List.filterMap_cons, hanswer]
      cases r.call? s <;> rfl

end Session

/-!
# What one extraction comes to
-/

theorem content?_eq_of_textAt? {tree tree' : Tree} {path path' : RawText} {text : String}
    (h : textAt? tree path = some text) (h' : textAt? tree' path' = some text) :
    tree.content? path = tree'.content? path' := by
  have hbytes : forall {t : Tree} {p : RawText}, textAt? t p = some text ->
      t.content? p = .ok text.toByteArray := by
    intro t p ht
    unfold textAt? at ht
    cases hcontent : t.content? p with
    | error reason =>
        simp [hcontent] at ht
    | ok content =>
        simp only [hcontent, String.fromUTF8?, Option.dite_none_right_eq_some] at ht
        rcases ht with ⟨hvalid, htext⟩
        rw [← Option.some.inj htext]
        rfl
  rw [hbytes h, hbytes h']

theorem textAt?_of_content?_eq {tree tree' : Tree} {path path' : RawText}
    (h : tree.content? path = tree'.content? path') : textAt? tree path = textAt? tree' path' := by
  unfold textAt?
  rw [h]

namespace Call

variable {b c : Call} {text text' : String}

/-- If the digest tells the texts apart, extractions with one key are about one source. -/
theorem sameSource_of_key (hb : b.text = .ok text) (hc : c.text = .ok text')
    (hapart : Digest.Xxh64.hashText text = Digest.Xxh64.hashText text' -> text = text')
    (hkey : cacheKey b.file.path b.file.role text = cacheKey c.file.path c.file.role text') :
    b.SameSource c ∧ text = text' := by
  have htext : text = text' := hapart (congrArg CacheKey.digest hkey)
  subst htext
  refine ⟨⟨congrArg CacheKey.path hkey, congrArg CacheKey.role hkey, ?_⟩, rfl⟩
  exact content?_eq_of_textAt? (textAt?_of_readSource hb) (textAt?_of_readSource hc)

theorem text_eq_of_sameSource (hsame : b.SameSource c) (hb : b.text = .ok text)
    (hc : c.text = .ok text') : text = text' := by
  have htexts := textAt?_of_content?_eq hsame.2.2
  rw [textAt?_of_readSource hb, textAt?_of_readSource hc] at htexts
  exact Option.some.inj htexts

/-- The settings and the display path of an extraction. -/
structure Steady (settings : Config) (shown : String -> String) (c : Call) : Prop where
  shown : c.file.displayPath = shown c.file.path.text
  settings : forall role, SameSettings role c.config settings

/-- Extractions of one source with the same settings give the same contracts. -/
theorem extract_eq_of_steady {settings : Config} {shown : String -> String}
    (hb : b.Steady settings shown) (hc : c.Steady settings shown) (hsame : b.SameSource c)
    (text : String) :
    extract b.config b.file.role b.file.displayPath text =
      extract c.config c.file.role c.file.displayPath text := by
  rw [hb.shown, hc.shown, hsame.1, hsame.2.1, extract_of_sameSettings (hb.settings _),
    extract_of_sameSettings (hc.settings _)]

end Call

/-!
# The cache in step with the extractions
-/

def InStep (past : List Call) (cache : Cache) : Prop :=
  Holds cache (past.map Call.reading)

def textsOf (calls : List Call) : List String :=
  calls.filterMap fun c => c.text.toOption

/-- The digest tells the texts of some extractions apart. -/
def TextsApart (calls : List Call) : Prop :=
  forall text, text ∈ textsOf calls -> forall text', text' ∈ textsOf calls ->
    Digest.Xxh64.hashText text = Digest.Xxh64.hashText text' -> text = text'

instance (calls : List Call) : Decidable (TextsApart calls) :=
  inferInstanceAs (Decidable (forall text, text ∈ _ -> forall text', text' ∈ _ -> _ -> _))

theorem mem_textsOf {calls : List Call} {c : Call} {text : String} (hc : c ∈ calls)
    (htext : c.text = .ok text) : text ∈ textsOf calls := by
  refine List.mem_filterMap.mpr ⟨c, hc, ?_⟩
  rw [htext]
  rfl

theorem TextsApart.of_subset {calls some : List Call} (hapart : TextsApart calls)
    (hsome : forall c, c ∈ some -> c ∈ calls) : TextsApart some := by
  have hmem : forall text, text ∈ textsOf some -> text ∈ textsOf calls := by
    intro text htext
    rcases List.mem_filterMap.mp htext with ⟨c, hc, hread⟩
    exact List.mem_filterMap.mpr ⟨c, hsome c hc, hread⟩
  intro text htext text' htext'
  exact hapart text (hmem text htext) text' (hmem text' htext')

section

variable {settings : Config} {shown : String -> String} {past : List Call} {c : Call}

theorem inStep_extractFile (hstep : InStep past c.session.cache) :
    InStep (past ++ [c]) (extractFile c.session.tree c.config c.session.cache c.file).2 := by
  rw [InStep, List.map_append]
  exact holds_extractFile hstep c.session.tree c.config c.file

/-- What a cache in step holds for a source was left by an extraction of that source,
and is what the source gives. -/
theorem extract_of_find? (hstep : InStep past c.session.cache)
    (hsteady : forall b, b ∈ past ++ [c] -> b.Steady settings shown)
    (hapart : TextsApart (past ++ [c]))
    {text : String} {contracts : List Contract} (htext : c.text = .ok text)
    (hfound : c.session.cache.find? (cacheKey c.file.path c.file.role text) = some contracts) :
    extract c.config c.file.role c.file.displayPath text = .ok contracts ∧
      exists b, b ∈ past ∧ b.SameSource c ∧
        readAlone b.session.tree b.config b.file = .ok contracts := by
  rw [hstep] at hfound
  rcases exists_of_firstLeft hfound with ⟨r, text', hr, htext', hkey, hextract⟩
  rcases List.mem_map.mp hr with ⟨b, hb, rfl⟩
  have hmem : b ∈ past ++ [c] := List.mem_append_left _ hb
  have hself : c ∈ past ++ [c] := List.mem_append_right _ (List.mem_singleton_self c)
  rcases Call.sameSource_of_key htext' htext
    (hapart _ (mem_textsOf hmem htext') _ (mem_textsOf hself htext)) hkey with ⟨hsame, rfl⟩
  refine ⟨?_, b, hb, hsame, (readAlone_of_text htext').trans hextract⟩
  rw [← Call.extract_eq_of_steady (hsteady b hmem) (hsteady c hself) hsame]
  exact hextract

theorem find?_of_readAlone (hstep : InStep past c.session.cache) {b : Call} (hb : b ∈ past)
    (hsame : b.SameSource c) {contracts : List Contract}
    (hread : readAlone b.session.tree b.config b.file = .ok contracts)
    {text : String} (htext : c.text = .ok text) :
    c.session.cache.find? (cacheKey c.file.path c.file.role text) ≠ none := by
  cases htext' : b.text with
  | error e =>
      rw [readAlone, show sourceText _ _ _ = _ from htext'] at hread
      cases hread
  | ok text' =>
      rw [readAlone_of_text htext'] at hread
      have htexts : text' = text := Call.text_eq_of_sameSource hsame htext' htext
      subst htexts
      have hkey :
          cacheKey b.file.path b.file.role text' = cacheKey c.file.path c.file.role text' := by
        simp only [cacheKey, hsame.1, hsame.2.1]
      have hleaves := leaves?_self htext'
      rw [hread, hkey] at hleaves
      rw [hstep, Ne, firstLeft, List.findSome?_eq_none_iff]
      intro hnone
      have hsome : Reading.leaves? _ b.reading = some contracts := hleaves
      rw [hnone b.reading (List.mem_map_of_mem hb)] at hsome
      cases hsome

/-- An extraction against a cache in step gives what the file holds. -/
theorem result_of_inStep (hstep : InStep past c.session.cache)
    (hsteady : forall b, b ∈ past ++ [c] -> b.Steady settings shown)
    (hapart : TextsApart (past ++ [c])) :
    c.extraction.result = readAlone c.session.tree c.config c.file := by
  have hcall := extractFile_step c.session.tree c.config c.session.cache c.file
  unfold Call.extraction
  generalize extractFile c.session.tree c.config c.session.cache c.file = outcome at hcall
  cases hcall with
  | unread htext =>
      rw [readAlone, htext]
  | found htext hfound =>
      rw [readAlone_of_text htext, (extract_of_find? hstep hsteady hapart htext hfound).1]
  | extracted htext _ hextract =>
      rw [readAlone_of_text htext, hextract]
  | failed htext _ hextract =>
      rw [readAlone_of_text htext, hextract]

/-- An extraction hits a cache in step exactly if its file can be read and was extracted
before with the same content. -/
theorem cacheHit_iff_of_inStep (hstep : InStep past c.session.cache)
    (hsteady : forall b, b ∈ past ++ [c] -> b.Steady settings shown)
    (hapart : TextsApart (past ++ [c])) :
    c.extraction.cacheHit = true <->
      (exists text, c.text = .ok text) ∧ exists b, b ∈ past ∧ b.SameSource c ∧
        exists contracts, readAlone b.session.tree b.config b.file = .ok contracts := by
  have hcall := extractFile_step c.session.tree c.config c.session.cache c.file
  unfold Call.extraction
  generalize extractFile c.session.tree c.config c.session.cache c.file = outcome at hcall
  cases hcall with
  | unread htext =>
      simp [Call.text, htext]
  | @found text contracts htext hfound =>
      rcases extract_of_find? hstep hsteady hapart htext hfound with ⟨_, b, hb, hsame, hread⟩
      exact ⟨fun _ => ⟨⟨text, htext⟩, b, hb, hsame, contracts, hread⟩, fun _ => rfl⟩
  | extracted htext habsent _ =>
      constructor
      · intro hhit
        cases hhit
      · rintro ⟨_, b, hb, hsame, contracts, hread⟩
        exact absurd habsent (find?_of_readAlone hstep hb hsame hread htext)
  | failed htext habsent _ =>
      constructor
      · intro hhit
        cases hhit
      · rintro ⟨_, b, hb, hsame, contracts, hread⟩
        exact absurd habsent (find?_of_readAlone hstep hb hsame hread htext)

end

/-!
# Sessions
-/

namespace Session

variable {settings : Config} {shown : String -> String} {s : Session} {past : List Call}

/-- A steady request leaves the cache alone, or it is an extraction. -/
theorem handle_steady {r : Request} (hr : r.Steady settings shown) (s : Session) :
    (r.call? s = none ∧ (s.handle r).1.cache = s.cache) ∨
      exists c : Call, r.call? s = some c ∧ c.session = s ∧ c.Steady settings shown ∧
        (s.handle r).1.cache =
          (extractFile c.session.tree c.config c.session.cache c.file).2 := by
  cases hr with
  | write path content =>
      exact Or.inl ⟨rfl, rfl⟩
  | remove path =>
      refine Or.inl ⟨rfl, ?_⟩
      simp only [handle]
      split <;> rfl
  | extract file config hshown hsettings =>
      exact Or.inr ⟨⟨s, file, config⟩, rfl, rfl, ⟨hshown, hsettings⟩, rfl⟩

theorem steady_of_mem_calls {requests : List Request}
    (hsteady : forall r, r ∈ requests -> r.Steady settings shown) {c : Call}
    (hc : c ∈ s.calls requests) : c.Steady settings shown := by
  induction requests generalizing s with
  | nil =>
      cases hc
  | cons r rest ih =>
      have hrest := fun r' hr' => hsteady r' (List.mem_cons_of_mem r hr')
      rw [calls_cons] at hc
      rcases List.mem_append.mp hc with hc | hc
      · rcases handle_steady (hsteady r List.mem_cons_self) s with
          ⟨hnone, _⟩ | ⟨d, hsome, _, hd, _⟩
        · simp [hnone] at hc
        · simp only [hsome, Option.toList_some, List.mem_singleton] at hc
          exact hc ▸ hd
      · exact ih hrest hc

/-- Every extraction of a session meets a cache in step with the extractions before
it. -/
theorem inStep_of_calls (hstep : InStep past s.cache) {requests : List Request}
    (hsteady : forall r, r ∈ requests -> r.Steady settings shown)
    {before after : List Call} {c : Call} (hcalls : s.calls requests = before ++ c :: after) :
    InStep (past ++ before) c.session.cache := by
  induction requests generalizing s past before with
  | nil =>
      cases before <;> cases hcalls
  | cons r rest ih =>
      have hrest := fun r' hr' => hsteady r' (List.mem_cons_of_mem r hr')
      rw [calls_cons] at hcalls
      rcases handle_steady (hsteady r List.mem_cons_self) s with
        ⟨hnone, hcache⟩ | ⟨d, hsome, rfl, _, hcache⟩
      · rw [hnone] at hcalls
        exact ih (hcache ▸ hstep) hrest hcalls
      · rw [hsome] at hcalls
        have hnext : InStep (past ++ [d]) (d.session.handle r).1.cache :=
          hcache ▸ inStep_extractFile hstep
        cases before with
        | nil =>
            cases hcalls
            simpa using hstep
        | cons first before =>
            rcases List.cons.inj hcalls with ⟨hfirst, htail⟩
            rw [← hfirst]
            simpa using ih hnext hrest htail

/-- The counter of the cache counts the hits. -/
theorem hits_after {requests : List Request}
    (hsteady : forall r, r ∈ requests -> r.Steady settings shown) :
    (s.after requests).cache.hits =
      s.cache.hits + (s.calls requests).countP fun c => c.extraction.cacheHit := by
  induction requests generalizing s with
  | nil =>
      rfl
  | cons r rest ih =>
      have hrest := fun r' hr' => hsteady r' (List.mem_cons_of_mem r hr')
      rw [after_cons, ih hrest, calls_cons, List.countP_append]
      rcases handle_steady (hsteady r List.mem_cons_self) s with
        ⟨hnone, hcache⟩ | ⟨d, hsome, rfl, _, hcache⟩
      · rw [hnone, hcache]
        simp
      · rw [hsome, hcache, extractFile_hits]
        have hcount :
            [d].countP (fun c => c.extraction.cacheHit) = d.extraction.cacheHit.toNat := by
          cases hhit : d.extraction.cacheHit <;> simp [hhit]
        rw [Option.toList_some, hcount, Nat.add_assoc]
        rfl

/-- The extractions of a run from an empty cache, each with what came before it. -/
theorem calls_split {tree : Tree} {requests : List Request}
    (hsteady : forall r, r ∈ requests -> r.Steady settings shown)
    (hapart : TextsApart ((Session.mk tree {}).calls requests))
    {before after : List Call} {c : Call}
    (hcalls : (Session.mk tree {}).calls requests = before ++ c :: after) :
    InStep before c.session.cache ∧
      (forall b, b ∈ before ++ [c] -> b.Steady settings shown) ∧ TextsApart (before ++ [c]) := by
  have hempty : InStep [] (Session.mk tree {}).cache := holds_empty
  have hmem : forall b, b ∈ before ++ [c] -> b ∈ (Session.mk tree {}).calls requests := by
    intro b hb
    rw [hcalls, List.append_cons]
    exact List.mem_append_left after hb
  refine ⟨inStep_of_calls hempty hsteady hcalls, ?_, hapart.of_subset hmem⟩
  intro b hb
  exact steady_of_mem_calls hsteady (hmem b hb)

/-- Every extraction of a run from an empty cache gives what its file holds. -/
theorem result_of_calls {tree : Tree} {requests : List Request}
    (hsteady : forall r, r ∈ requests -> r.Steady settings shown)
    (hapart : TextsApart ((Session.mk tree {}).calls requests))
    {c : Call} (hc : c ∈ (Session.mk tree {}).calls requests) :
    c.extraction.result = readAlone c.session.tree c.config c.file := by
  rcases List.append_of_mem hc with ⟨before, after, hcalls⟩
  rcases calls_split hsteady hapart hcalls with ⟨hstep, hsteadies, htexts⟩
  exact result_of_inStep hstep hsteadies htexts

/-- Over any run of writes, removals and extractions with one set of settings, every
extraction gives what its file holds at the time.  It is a hit exactly if it can read the
file and the same path as it is shown, role and content were extracted with success before,
and the counter of the cache counts the hits.  Paths that are texts are shown alike only if
they are the same. -/
theorem extractions_unseen_cache (tree : Tree) (settings : Config) (shown : String -> String)
    (requests : List Request) (hsteady : forall r, r ∈ requests -> r.Steady settings shown)
    (hapart : TextsApart ((Session.mk tree {}).calls requests)) :
    ((Session.mk tree {}).answers requests).filterMap Answer.extraction? =
        ((Session.mk tree {}).calls requests).map Call.extraction ∧
      (forall before c after, (Session.mk tree {}).calls requests = before ++ c :: after ->
        c.extraction.result = readAlone c.session.tree c.config c.file ∧
        (c.extraction.cacheHit = true <->
          (exists text, c.text = .ok text) ∧
            exists b, b ∈ before ∧ b.SameSource c ∧ b.Succeeds)) ∧
      ((Session.mk tree {}).after requests).cache.hits =
        (((Session.mk tree {}).calls requests).countP fun c => c.extraction.cacheHit) ∧
      forall b c : Call, b.file.path.IsText -> c.file.path.IsText ->
        (b.SameSource c <-> b.file.path = c.file.path ∧ b.file.role = c.file.role ∧
          b.session.tree.content? b.file.path = c.session.tree.content? c.file.path) := by
  refine ⟨answers_calls _ requests, ?_, ?_, ?_⟩
  · intro before c after hcalls
    rcases calls_split hsteady hapart hcalls with ⟨hstep, hsteadies, htexts⟩
    refine ⟨result_of_inStep hstep hsteadies htexts, ?_⟩
    rw [cacheHit_iff_of_inStep hstep hsteadies htexts]
    have hsucceeds : forall b, b ∈ before -> (b.Succeeds <->
        exists contracts, readAlone b.session.tree b.config b.file = .ok contracts) := by
      intro b hb
      have hmem : b ∈ (Session.mk tree {}).calls requests := by
        rw [hcalls]
        exact List.mem_append_left _ hb
      rw [Call.Succeeds, result_of_calls hsteady hapart hmem]
    apply and_congr_right
    intro _
    apply exists_congr
    intro b
    apply and_congr_right
    intro hb
    rw [hsucceeds b hb]
  · rw [hits_after hsteady]
    simp
  · intro b c hb hc
    exact and_congr_left' ⟨RawText.eq_of_text_eq hb hc, congrArg RawText.text⟩

def dropFlow : SourceFile :=
  ⟨"drop.js", "drop.js", .producer⟩

def dropSource : ByteArray :=
  "export const drop = x => emit('drop', \x7b x \x7d)".toUTF8

def dragSource : ByteArray :=
  "export const drag = y => emit('drag', \x7b y \x7d)".toUTF8

def dropTree : Tree :=
  Tree.empty.write ["drop.js"] dropSource

def changedBack : List Request :=
  [.extractFile dropFlow {}, .write "drop.js" dragSource, .extractFile dropFlow {},
    .write "drop.js" dropSource, .extractFile dropFlow {}]

theorem changedBack_extractions :
    (forall r, r ∈ changedBack -> r.Steady {} id) ∧
      TextsApart ((Session.mk dropTree {}).calls changedBack) ∧
      (((Session.mk dropTree {}).calls changedBack).map fun c => c.extraction.cacheHit) =
        [false, false, true] ∧
      (forall before c after, (Session.mk dropTree {}).calls changedBack = before ++ c :: after ->
        c.extraction.result = readAlone c.session.tree c.config c.file) ∧
      ((Session.mk dropTree {}).after changedBack).cache.hits = 1 := by
  have hsteady : forall r, r ∈ changedBack -> r.Steady {} id := by
    have hextract : Request.Steady {} id (.extractFile dropFlow {}) :=
      .extract dropFlow {} rfl fun role => by cases role <;> decide
    intro r hr
    simp only [changedBack, List.mem_cons, List.not_mem_nil, or_false] at hr
    rcases hr with rfl | rfl | rfl | rfl | rfl
    · exact hextract
    · exact .write _ _
    · exact hextract
    · exact .write _ _
    · exact hextract
  have hapart : TextsApart ((Session.mk dropTree {}).calls changedBack) := by decide +kernel
  have hhits : (((Session.mk dropTree {}).calls changedBack).map fun c =>
      c.extraction.cacheHit) = [false, false, true] := by
    decide +kernel
  rcases extractions_unseen_cache dropTree {} id changedBack hsteady hapart with
    ⟨_, hcalls, hcount, _⟩
  refine ⟨hsteady, hapart, hhits, fun before c after h => (hcalls before c after h).1, ?_⟩
  rw [hcount]
  calc
    _ = (((Session.mk dropTree {}).calls changedBack).map fun c =>
          c.extraction.cacheHit).countP id := List.countP_map.symm
    _ = 1 := by
      rw [hhits]
      rfl

def narrow : Config :=
  { limits := { maxFileBytes := 1 } }

def thenNarrow : List Request :=
  [.extractFile dropFlow {}, .extractFile dropFlow narrow]

def wideCall : Call :=
  ⟨⟨dropTree, {}⟩, dropFlow, {}⟩

def narrowCall : Call :=
  ⟨⟨dropTree, (extractFile dropTree {} {} dropFlow).2⟩, dropFlow, narrow⟩

/-- A file over the limit is no hit, although its content was extracted before. -/
theorem thenNarrow_no_hit :
    (forall r, r ∈ thenNarrow -> r.Steady {} id) ∧
      TextsApart ((Session.mk dropTree {}).calls thenNarrow) ∧
      (Session.mk dropTree {}).calls thenNarrow = [wideCall, narrowCall] ∧
      wideCall.SameSource narrowCall ∧ wideCall.Succeeds ∧
      narrowCall.extraction.cacheHit = false := by
  have hsteady : forall r, r ∈ thenNarrow -> r.Steady {} id := by
    intro r hr
    simp only [thenNarrow, List.mem_cons, List.not_mem_nil, or_false] at hr
    rcases hr with rfl | rfl
    · exact .extract dropFlow {} rfl fun role => by cases role <;> decide
    · exact .extract dropFlow narrow rfl fun role => by cases role <;> decide
  have hcalls : (Session.mk dropTree {}).calls thenNarrow = [wideCall, narrowCall] := by
    rw [thenNarrow, calls_extractFile, calls_extractFile]
    rfl
  have hsucceeds : wideCall.extraction.result.toOption.isSome = true := by decide +kernel
  refine ⟨hsteady, by decide +kernel, hcalls, ⟨rfl, rfl, rfl⟩, ?_, by decide +kernel⟩
  unfold Call.Succeeds
  cases hresult : wideCall.extraction.result with
  | ok contracts =>
      exact ⟨contracts, rfl⟩
  | error e =>
      rw [hresult] at hsucceeds
      cases hsucceeds

end Session

end Workspace
end PayloadFlow
