import PathOptions.Config.Cache
import PathOptions.FileSystem.Change
import PathOptions.Yaml.Document
/-!
The cache is transparent, however documents are read. In a run of loads, changes of the file system
and clearings of the cache, every load answers what it would answer with an empty cache, provided
that stamps tell contents apart: no location that a path leads to has two different items under one
stamp. The invariant is that every configuration in the cache is what reading an item gave that some
path led to during the run, under the stamp that the cache knows; whatever happens to the files
later, such a configuration stays the right one for that location and that stamp.
-/

namespace PathOptions

/-- Some path leads to an item. -/
def FileSystem.LeadsTo (fs : FileSystem) (location : Location) (item : Item) : Prop :=
  (∃ path, fs.locate path = .ok location) ∧ fs.item? location = some item

namespace Config

/-! ## Runs -/

inductive Step where
  | change (change : FileSystem.Change)
  | clear
  | load (path : Text)
  deriving DecidableEq, Repr

/-- A file system, and the cache of what was read from it. -/
structure Session where
  files : FileSystem
  cache : Cache

def Cache.answer (cache : Cache) (reader : Reader) (fs : FileSystem) (path : Text) :
    Except Failure Configuration :=
  (cache.load reader fs path).1.map Loaded.configuration

namespace Session

def next (session : Session) (reader : Reader) : Step → Session
  | .change change => { session with files := session.files.apply change }
  | .clear => { session with cache := .empty }
  | .load path => { session with cache := (session.cache.load reader session.files path).2 }

def answers (session : Session) (reader : Reader) :
    List Step → List (Except Failure Configuration)
  | [] => []
  | .load path :: rest =>
    session.cache.answer reader session.files path ::
      answers (session.next reader (.load path)) reader rest
  | step :: rest => answers (session.next reader step) reader rest

end Session

/-- The answers to the loads of a run if each of them begins with an empty cache. -/
def freshAnswers (reader : Reader) (fs : FileSystem) :
    List Step → List (Except Failure Configuration)
  | [] => []
  | .load path :: rest => Cache.empty.answer reader fs path :: freshAnswers reader fs rest
  | .change change :: rest => freshAnswers reader (fs.apply change) rest
  | .clear :: rest => freshAnswers reader fs rest

def fileSystems (fs : FileSystem) : List Step → List FileSystem
  | [] => [fs]
  | .change change :: rest => fs :: fileSystems (fs.apply change) rest
  | _ :: rest => fs :: fileSystems fs rest

/-- No location that a path leads to has two different items under one stamp. -/
def StampsTell (seen : List FileSystem) : Prop :=
  ∀ fs ∈ seen, ∀ other ∈ seen, ∀ location item found,
    fs.LeadsTo location item → other.LeadsTo location found → stampOf item = stampOf found →
    item = found

theorem mem_items_of_item? {fs : FileSystem} {location : Location} {item : Item}
    (h : fs.item? location = some item) (hroot : location ≠ []) : (location, item) ∈ fs.items := by
  simp only [FileSystem.item?, if_neg hroot, Option.map_eq_some_iff] at h
  obtain ⟨entry, hfind, rfl⟩ := h
  obtain rfl : entry.1 = location := by simpa using List.find?_some hfind
  exact List.mem_of_find?_eq_some hfind

/-- Stamps tell contents apart if they do so for all the items of the file systems. -/
theorem stampsTell_of_items {seen : List FileSystem}
    (h : ∀ entry ∈ seen.flatMap (·.items), ∀ other ∈ seen.flatMap (·.items),
      entry.1 = other.1 → stampOf entry.2 = stampOf other.2 → entry.2 = other.2) :
    StampsTell seen := by
  intro fs hfs other hother location item found hitem hfound hstamp
  by_cases hroot : location = []
  · subst hroot
    cases hitem.2
    cases hfound.2
    rfl
  · exact h (location, item) (List.mem_flatMap.2 ⟨fs, hfs, mem_items_of_item? hitem.2 hroot⟩)
      (location, found) (List.mem_flatMap.2 ⟨other, hother, mem_items_of_item? hfound.2 hroot⟩)
      rfl hstamp

/-! ## The cache -/

@[simp] theorem find?_empty (location : Location) (stamp : Int) :
    Cache.empty.find? location stamp = none := rfl

theorem find?_put_self (cache : Cache) (location : Location) (known stamp : Int)
    (configuration : Configuration) :
    (cache.put location known configuration).find? location stamp =
      if known = stamp then some configuration else none := by
  simp [Cache.put, Cache.find?]

theorem find?_put_other (cache : Cache) {location other : Location} (known stamp : Int)
    (configuration : Configuration) (h : other ≠ location) :
    (cache.put location known configuration).find? other stamp = cache.find? other stamp := by
  have hfilter : ((cache.entries.filter (·.1 != location)).find? (·.1 == other)) =
      cache.entries.find? (·.1 == other) := by
    induction cache.entries with
    | nil => rfl
    | cons entry rest ih =>
      by_cases hentry : entry.1 = location
      · have hother : (location == other) = false := by simpa using Ne.symm h
        simp [hentry, hother, ih]
      · simp [hentry, List.find?_cons, ih]
  simp [Cache.put, Cache.find?, Ne.symm h, hfilter]

variable {reader : Reader}

/-- What can be read does not depend on the path that it is read by. -/
theorem readItem_of_ok {path other : Text} {item : Item} {configuration : Configuration}
    (h : readItem reader path item = .ok configuration) :
    readItem reader other item = .ok configuration := by
  cases item with
  | directory stamp => cases h
  | link target => cases h
  | sealed refusal stamp => cases h
  | closed refusal stamp => cases h
  | file bytes stamp =>
    simp only [readItem, readBytes] at h ⊢
    split at h
    · cases h
    · split at h
      · exact h
      · exact h
      · cases h

/-- All that a load can do. Either the path leads nowhere, whatever is in the cache, or it leads to
an item; then the cache answers if it knows the location under the stamp of the item, and the item
is read otherwise. -/
theorem load_cases (reader : Reader) (fs : FileSystem) (path : Text) :
    (∃ failure, ∀ cache : Cache, cache.load reader fs path = (.error failure, cache)) ∨
    ∃ location item, fs.LeadsTo location item ∧ ∀ cache : Cache,
      (∃ configuration, cache.find? location (stampOf item) = some configuration ∧
        cache.load reader fs path = (.ok ⟨configuration, location, false⟩, cache)) ∨
      cache.find? location (stampOf item) = none ∧
        ((∃ failure, readItem reader (FileSystem.normalForm path) item = .error failure ∧
          cache.load reader fs path = (.error failure, cache)) ∨
        ∃ configuration, readItem reader (FileSystem.normalForm path) item = .ok configuration ∧
          cache.load reader fs path = (.ok ⟨configuration, location, true⟩,
            cache.put location (stampOf item) configuration)) := by
  cases hlocate : fs.locate (FileSystem.normalForm path) with
  | error e => exact .inl ⟨_, fun cache => by simp only [Cache.load, hlocate]; rfl⟩
  | ok location =>
    cases hitem : fs.item? location with
    | none => exact .inl ⟨_, fun cache => by simp only [Cache.load, hlocate, hitem]; rfl⟩
    | some item =>
      refine .inr ⟨location, item, ⟨⟨_, hlocate⟩, hitem⟩, fun cache => ?_⟩
      cases hfind : cache.find? location (stampOf item) with
      | some configuration =>
        exact .inl ⟨configuration, rfl, by simp only [Cache.load, hlocate, hitem, hfind]⟩
      | none =>
        refine .inr ⟨rfl, ?_⟩
        cases hread : readItem reader (FileSystem.normalForm path) item with
        | error failure =>
          exact .inl ⟨failure, rfl, by simp only [Cache.load, hlocate, hitem, hfind, hread]⟩
        | ok configuration =>
          exact .inr ⟨configuration, rfl, by simp only [Cache.load, hlocate, hitem, hfind, hread]⟩

/-- The answer of a load is the configuration that the cache knows, or else what reading gives. -/
theorem answer_cases (reader : Reader) (fs : FileSystem) (path : Text) :
    (∃ failure, ∀ cache : Cache, cache.answer reader fs path = .error failure) ∨
    ∃ location item, fs.LeadsTo location item ∧ ∀ cache : Cache,
      cache.answer reader fs path =
        (cache.find? location (stampOf item)).elim
          (readItem reader (FileSystem.normalForm path) item) .ok := by
  rcases load_cases reader fs path with ⟨failure, hload⟩ | ⟨location, item, hitem, hload⟩
  · exact .inl ⟨failure, fun cache => by rw [Cache.answer, hload]; rfl⟩
  · refine .inr ⟨location, item, hitem, fun cache => ?_⟩
    unfold Cache.answer
    rcases hload cache with ⟨_, hfind, hhit⟩ | ⟨hfind, ⟨_, hread, hmiss⟩ | ⟨_, hread, hmiss⟩⟩
    · rw [hfind, hhit]
      rfl
    · rw [hfind, hmiss]
      exact hread.symm
    · rw [hfind, hmiss]
      exact hread.symm

/-- A load that fails leaves the cache as it was. -/
theorem load_error_keeps_cache {cache : Cache} {fs : FileSystem} {path : Text} {failure : Failure}
    (h : (cache.load reader fs path).1 = .error failure) :
    (cache.load reader fs path).2 = cache := by
  rcases load_cases reader fs path with ⟨_, hload⟩ | ⟨location, item, _, hload⟩
  · rw [hload]
  · rcases hload cache with ⟨_, _, hhit⟩ | ⟨_, ⟨_, _, hmiss⟩ | ⟨_, _, hmiss⟩⟩
    · rw [hhit]
    · rw [hmiss]
    · rw [hmiss] at h
      cases h

/-! ## The invariant -/

/-- Every configuration in a cache was read from an item that a path led to in one of the file
systems, under the stamp that the cache knows. -/
def Justified (reader : Reader) (seen : List FileSystem) (cache : Cache) : Prop :=
  ∀ location stamp configuration, cache.find? location stamp = some configuration →
    ∃ fs ∈ seen, ∃ item, fs.LeadsTo location item ∧ stampOf item = stamp ∧
      ∀ path, readItem reader path item = .ok configuration

theorem justified_empty (seen : List FileSystem) : Justified reader seen .empty := by
  intro location stamp configuration h
  cases h

theorem justified_put {seen : List FileSystem} {cache : Cache} {fs : FileSystem}
    {location : Location} {item : Item} {path : Text} {configuration : Configuration}
    (h : Justified reader seen cache) (hfs : fs ∈ seen) (hitem : fs.LeadsTo location item)
    (hread : readItem reader path item = .ok configuration) :
    Justified reader seen (cache.put location (stampOf item) configuration) := by
  intro other stamp found hfind
  by_cases hother : other = location
  · subst hother
    rw [find?_put_self] at hfind
    split at hfind
    · cases hfind
      exact ⟨fs, hfs, item, hitem, ‹_›, fun _ => readItem_of_ok hread⟩
    · cases hfind
  · rw [find?_put_other cache _ _ _ hother] at hfind
    exact h other stamp found hfind

theorem justified_load {seen : List FileSystem} {cache : Cache} {fs : FileSystem}
    (h : Justified reader seen cache) (hfs : fs ∈ seen) (path : Text) :
    Justified reader seen (cache.load reader fs path).2 := by
  rcases load_cases reader fs path with ⟨_, hload⟩ | ⟨location, item, hitem, hload⟩
  · rwa [hload]
  · rcases hload cache with ⟨_, _, hhit⟩ | ⟨_, ⟨_, _, hmiss⟩ | ⟨_, hread, hmiss⟩⟩
    · rwa [hhit]
    · rwa [hmiss]
    · rw [hmiss]
      exact justified_put h hfs hitem hread

/-- A step keeps the cache justified. -/
theorem justified_next {seen : List FileSystem} {session : Session}
    (h : Justified reader seen session.cache) (hfiles : session.files ∈ seen) (step : Step) :
    Justified reader seen (session.next reader step).cache := by
  cases step with
  | change change => exact h
  | clear => exact justified_empty seen
  | load path => exact justified_load h hfiles path

/-- A justified cache answers what an empty one would answer. -/
theorem answer_eq_of_justified {seen : List FileSystem} {cache : Cache} {fs : FileSystem}
    (htell : StampsTell seen) (h : Justified reader seen cache) (hfs : fs ∈ seen) (path : Text) :
    cache.answer reader fs path = Cache.empty.answer reader fs path := by
  rcases answer_cases reader fs path with ⟨failure, hfailed⟩ | ⟨location, item, hitem, hanswer⟩
  · rw [hfailed, hfailed]
  · rw [hanswer cache, hanswer .empty, find?_empty]
    cases hfind : cache.find? location (stampOf item) with
    | none => rfl
    | some configuration =>
      -- the cache knows it from an item with the same stamp, which is the item that is there now
      obtain ⟨before, hbefore, found, hfound, hstamp, hread⟩ := h _ _ _ hfind
      obtain rfl := htell before hbefore fs hfs location found item hfound hitem hstamp
      exact (hread _).symm

/-! ## Runs keep it -/

theorem mem_fileSystems (fs : FileSystem) (steps : List Step) : fs ∈ fileSystems fs steps := by
  cases steps with
  | nil => exact .head _
  | cons step rest => cases step <;> exact .head _

/-- The file systems of a run after its first step are among those of the run. -/
theorem fileSystems_next (session : Session) (step : Step) (rest : List Step) :
    ∀ fs ∈ fileSystems (session.next reader step).files rest,
      fs ∈ fileSystems session.files (step :: rest) := by
  intro fs hfs
  cases step <;> exact .tail _ hfs

/-- From a justified cache, a run answers as if every load began with an empty cache. -/
theorem answers_of_justified {seen : List FileSystem} (htell : StampsTell seen)
    (steps : List Step) (session : Session) (h : Justified reader seen session.cache)
    (hseen : ∀ fs ∈ fileSystems session.files steps, fs ∈ seen) :
    session.answers reader steps = freshAnswers reader session.files steps := by
  induction steps generalizing session with
  | nil => rfl
  | cons step rest ih =>
    have hfiles := hseen _ (mem_fileSystems session.files (step :: rest))
    have hrest := ih (session.next reader step) (justified_next h hfiles step) fun fs hfs =>
      hseen fs (fileSystems_next session step rest fs hfs)
    cases step with
    | change change => exact hrest
    | clear => exact hrest
    | load path =>
      rw [Session.answers, freshAnswers, answer_eq_of_justified htell h hfiles path, hrest]
      rfl

/-- In a run that begins with an empty cache, every load answers what it would answer with an empty
cache, if stamps tell contents apart; and a load that fails leaves the cache as it was. -/
theorem cached_answers_eq_fresh (reader : Reader) (fs : FileSystem) (steps : List Step)
    (h : StampsTell (fileSystems fs steps)) :
    Session.answers ⟨fs, .empty⟩ reader steps = freshAnswers reader fs steps ∧
      ∀ (cache : Cache) (files : FileSystem) (path : Text) (failure : Failure),
        (cache.load reader files path).1 = .error failure →
          (cache.load reader files path).2 = cache :=
  ⟨answers_of_justified h steps ⟨fs, .empty⟩ (justified_empty _) fun _ hfs => hfs,
    fun _ _ _ _ hfailed => load_error_keeps_cache hfailed⟩

/-- A file is read by two paths, changes into what is no mapping and comes back with its stamp. -/
theorem cached_answers_of_a_reverted_file :
    let files : FileSystem := ⟨[], [], 1⟩
    let steps : List Step :=
      [.change (.write "a".toList "x: 1".toUTF8.toList (some 7)), .load "a".toList,
        .change (.link "b".toList "a".toList), .load "b".toList,
        .change (.write "a".toList "x".toUTF8.toList (some 8)), .load "b".toList,
        .change (.write "a".toList "x: 1".toUTF8.toList (some 7)), .clear, .load "a".toList]
    StampsTell (fileSystems files steps) ∧
      Session.answers ⟨files, .empty⟩ Yaml.read steps = freshAnswers Yaml.read files steps :=
  have htell := stampsTell_of_items (by decide +kernel)
  ⟨htell, (cached_answers_eq_fresh Yaml.read _ _ htell).1⟩

end Config

end PathOptions
