import Mathlib.Data.Finset.Card
import Scriptlet.Proofs.Except
import Scriptlet.Proofs.Source.Parsed

/-! What loading a file means. A walk goes through the items of a file in order and, at the
first directive for another file, through the items of that file. Walks are given by rules
that set no bound on them; loading takes the one walk there is, whatever the files include. -/
namespace Scriptlet.Source

open Scriptlet.Grammar

/-- A directive that was processed: the file in which it stands, the path that it stands for,
and the file behind that path. -/
structure Directive where
  origin : String
  path : String
  canonical : String

/-- The warning about a directive, if it includes the file in which it stands. -/
def Directive.warning? (directive : Directive) : Option Warning :=
  if directive.canonical = directive.origin then some (.selfInclusion directive.path) else none

/-- How far a walk has come: the files that it has visited, the files that it has opened, one
after the other, and the directives that it has processed. -/
structure Journey where
  visited : Finset String
  opened : List String
  directives : List Directive

namespace Journey

def start (root : String) : Journey := ⟨{root}, [root], []⟩

def process (directive : Directive) (journey : Journey) : Journey :=
  { journey with directives := journey.directives ++ [directive] }

/-- Visit a file and open it. -/
def enter (canonical : String) (journey : Journey) : Journey :=
  { journey with
    visited := insert canonical journey.visited
    opened := journey.opened ++ [canonical] }

end Journey

/-- A place in an open file: what has not been read yet. -/
structure Place where
  source : NamedSource
  canonical : String
  stream : Stream

namespace Place

/-- The start of a file, or why it cannot be opened. -/
def ofFile (files : FileSystem) (reference : Reference) : Except CompileError Place :=
  match files.read reference.canonical with
  | .error fault => .error (.unreadable reference.path reference.includedFrom fault)
  | .ok text =>
    (NamedSource.tokens ⟨reference.path, text⟩).map fun tokens =>
      ⟨⟨reference.path, text⟩, reference.canonical, Stream.ofTokens tokens⟩

/-- The next item and the place behind it; nothing at the end of the file. -/
def item? (place : Place) : Option (Except Grammar.Error (Item × Place)) :=
  if place.stream.ahead.isEmpty then none
  else some ((item.run place.stream).map fun read => (read.1, { place with stream := read.2 }))

/-- The path that a target stands for in this file. -/
def target (place : Place) (text : String) : String := targetPath place.canonical text

/-- The file at a path that this file includes. -/
def reference (place : Place) (path canonical : String) : Reference :=
  ⟨path, canonical, some place.canonical⟩

def directive (place : Place) (path canonical : String) : Directive :=
  ⟨place.canonical, path, canonical⟩

end Place

/-- Walks from a place to the end of its file, with the declarations that they collect or the
failure that they meet first. A declaration contributes itself. An include of a file that was
visited contributes nothing, any other one the walk through the file. -/
inductive Walk (files : FileSystem) :
    Except CompileError Place → Journey → Except CompileError (List Stmt) → Journey → Prop where
  | unopened {error : CompileError} {journey : Journey} :
      Walk files (.error error) journey (.error error) journey
  | finished {place : Place} {journey : Journey} (read : place.item? = none) :
      Walk files (.ok place) journey (.ok []) journey
  | stopped {place : Place} {journey : Journey} {error : Grammar.Error}
      (read : place.item? = some (.error error)) :
      Walk files (.ok place) journey (.error (.grammar error place.source)) journey
  | declaration {place behind : Place} {journey after : Journey} {tree : Stmt}
      {result : Except CompileError (List Stmt)}
      (read : place.item? = some (.ok (.declaration tree, behind)))
      (rest : Walk files (.ok behind) journey result after) :
      Walk files (.ok place) journey (result.map (tree :: ·)) after
  | missing {place behind : Place} {journey : Journey} {keyword : Token} {target : String}
      {fault : FileFault} (read : place.item? = some (.ok (.inclusion keyword target, behind)))
      (absent : files.canonical (place.target target) = .error fault) :
      Walk files (.ok place) journey
        (.error (.unreadable (place.target target) (some place.canonical) fault)) journey
  | again {place behind : Place} {journey after : Journey} {keyword : Token}
      {target canonical : String} {result : Except CompileError (List Stmt)}
      (read : place.item? = some (.ok (.inclusion keyword target, behind)))
      (found : files.canonical (place.target target) = .ok canonical)
      (known : canonical ∈ journey.visited)
      (rest : Walk files (.ok behind)
        (journey.process (place.directive (place.target target) canonical)) result after) :
      Walk files (.ok place) journey result after
  | broken {place behind : Place} {journey after : Journey} {keyword : Token}
      {target canonical : String} {error : CompileError}
      (read : place.item? = some (.ok (.inclusion keyword target, behind)))
      (found : files.canonical (place.target target) = .ok canonical)
      (fresh : canonical ∉ journey.visited)
      (inside : Walk files (Place.ofFile files (place.reference (place.target target) canonical))
        ((journey.process (place.directive (place.target target) canonical)).enter canonical)
        (.error error) after) :
      Walk files (.ok place) journey (.error error) after
  | included {place behind : Place} {journey middle after : Journey} {keyword : Token}
      {target canonical : String} {trees : List Stmt} {result : Except CompileError (List Stmt)}
      (read : place.item? = some (.ok (.inclusion keyword target, behind)))
      (found : files.canonical (place.target target) = .ok canonical)
      (fresh : canonical ∉ journey.visited)
      (inside : Walk files (Place.ofFile files (place.reference (place.target target) canonical))
        ((journey.process (place.directive (place.target target) canonical)).enter canonical)
        (.ok trees) middle)
      (rest : Walk files (.ok behind) middle result after) :
      Walk files (.ok place) journey (result.map (trees ++ ·)) after

/-- Loading a file by a walk through it, with the files that are opened on the way. There is a
warning for every directive that includes the file in which it stands. -/
inductive Loads (files : FileSystem) (path : String) :
    Except CompileError Loaded → List String → Prop where
  | missing {fault : FileFault} (absent : files.canonical path = .error fault) :
      Loads files path (.error (.unreadable path none fault)) []
  | walked {canonical : String} {result : Except CompileError (List Stmt)} {after : Journey}
      (found : files.canonical path = .ok canonical)
      (walk : Walk files (Place.ofFile files ⟨path, canonical, none⟩) (.start canonical) result
        after) :
      Loads files path
        (result.map fun trees => ⟨⟨trees⟩, after.directives.filterMap Directive.warning?⟩)
        after.opened

namespace Walk

variable {files : FileSystem} {start : Except CompileError Place} {journey after other : Journey}
  {result another : Except CompileError (List Stmt)}

/-- There is at most one walk from a place. -/
theorem unique (walk : Walk files start journey result after)
    (second : Walk files start journey another other) : result = another ∧ after = other := by
  -- The item at the place and what is known of the file behind it leave one rule for the second
  -- walk; the premises of the others contradict those of the first.
  induction walk generalizing another other with
  | unopened =>
    cases second with
    | unopened => exact ⟨rfl, rfl⟩
  | finished read =>
    cases second with
    | finished => exact ⟨rfl, rfl⟩
    | _ => simp_all
  | stopped read =>
    cases second with
    | stopped next =>
      cases read.symm.trans next
      exact ⟨rfl, rfl⟩
    | _ => simp_all
  | declaration read rest ih =>
    cases second with
    | declaration next following =>
      cases read.symm.trans next
      obtain ⟨rfl, rfl⟩ := ih following
      exact ⟨rfl, rfl⟩
    | _ => simp_all
  | missing read absent =>
    cases second with
    | missing next gone =>
      cases read.symm.trans next
      cases absent.symm.trans gone
      exact ⟨rfl, rfl⟩
    | _ => simp_all
  | again read found known rest ih =>
    cases second with
    | again next same _ following =>
      cases read.symm.trans next
      cases found.symm.trans same
      exact ih following
    | _ => simp_all
  | broken read found fresh inside ih =>
    cases second with
    | broken next same _ within =>
      cases read.symm.trans next
      cases found.symm.trans same
      exact ih within
    | included next same _ within following =>
      cases read.symm.trans next
      cases found.symm.trans same
      cases (ih within).1
    | _ => simp_all
  | included read found fresh inside rest ih behind =>
    cases second with
    | broken next same _ within =>
      cases read.symm.trans next
      cases found.symm.trans same
      cases (ih within).1
    | included next same _ within following =>
      cases read.symm.trans next
      cases found.symm.trans same
      obtain ⟨⟨⟩, rfl⟩ := ih within
      obtain ⟨rfl, rfl⟩ := behind following
      exact ⟨rfl, rfl⟩
    | _ => simp_all

theorem visited_subset (walk : Walk files start journey result after) :
    journey.visited ⊆ after.visited := by
  induction walk with
  | unopened => rfl
  | finished => rfl
  | stopped => rfl
  | missing => rfl
  | declaration _ _ ih => exact ih
  | again _ _ _ _ ih => exact ih
  | broken _ _ _ _ ih => exact (Finset.subset_insert ..).trans ih
  | included _ _ _ _ _ ih following => exact ((Finset.subset_insert ..).trans ih).trans following

end Walk

/-- No file has been opened twice, and all that were opened have been visited. -/
structure Journey.OpensOnce (journey : Journey) : Prop where
  nodup : journey.opened.Nodup
  visited : ∀ canonical ∈ journey.opened, canonical ∈ journey.visited

theorem Journey.OpensOnce.start (root : String) : (Journey.start root).OpensOnce :=
  ⟨List.nodup_singleton root, by simp [Journey.start]⟩

theorem Journey.OpensOnce.enter {journey : Journey} {canonical : String} (once : journey.OpensOnce)
    (fresh : canonical ∉ journey.visited) : (journey.enter canonical).OpensOnce := by
  constructor
  · refine List.nodup_append.mpr ⟨once.nodup, List.nodup_singleton canonical, ?_⟩
    rintro path opened _ (_ | ⟨_, ⟨⟩⟩) rfl
    exact fresh (once.visited path opened)
  · intro path member
    rcases List.mem_append.mp member with earlier | new
    · exact Finset.mem_insert_of_mem (once.visited path earlier)
    · rw [List.mem_singleton.mp new]
      exact Finset.mem_insert_self ..

theorem Walk.opensOnce {files : FileSystem} {start : Except CompileError Place}
    {journey after : Journey} {result : Except CompileError (List Stmt)}
    (walk : Walk files start journey result after) (once : journey.OpensOnce) :
    after.OpensOnce := by
  induction walk with
  | unopened => exact once
  | finished => exact once
  | stopped => exact once
  | missing => exact once
  | declaration _ _ ih => exact ih once
  | again _ _ _ _ ih => exact ih ⟨once.nodup, once.visited⟩
  | broken _ _ fresh _ ih => exact ih (.enter ⟨once.nodup, once.visited⟩ fresh)
  | included _ _ fresh _ _ ih following =>
    exact following (ih (.enter ⟨once.nodup, once.visited⟩ fresh))

/-- How many of the files have not been visited. -/
def FileSystem.unvisited (files : FileSystem) (visited : Finset String) : Nat :=
  ((files.contents.map Prod.fst).toFinset \ visited).card

namespace FileSystem

variable (files : FileSystem)

private theorem unvisited_le_length (visited : Finset String) :
    files.unvisited visited ≤ files.contents.length :=
  calc files.unvisited visited
      ≤ (files.contents.map Prod.fst).toFinset.card := Finset.card_le_card Finset.sdiff_subset
    _ ≤ (files.contents.map Prod.fst).length := List.toFinset_card_le _
    _ = files.contents.length := List.length_map ..

private theorem unvisited_anti {visited more : Finset String} (subset : visited ⊆ more) :
    files.unvisited more ≤ files.unvisited visited :=
  Finset.card_le_card (Finset.sdiff_subset_sdiff (Finset.Subset.refl _) subset)

private theorem mem_contents_of_read {canonical text : String}
    (read : files.read canonical = .ok text) : canonical ∈ files.contents.map Prod.fst := by
  rw [FileSystem.read] at read
  cases found : files.contents.lookup canonical with
  | none =>
    rw [found] at read
    cases read
  | some content =>
    obtain ⟨front, back, same, _⟩ := List.lookup_eq_some_iff.mp found
    simp [same]

private theorem unvisited_insert_lt {visited : Finset String} {canonical text : String}
    (read : files.read canonical = .ok text) (fresh : canonical ∉ visited) :
    files.unvisited (insert canonical visited) < files.unvisited visited := by
  rw [unvisited, Finset.sdiff_insert]
  apply Finset.card_erase_lt_of_mem
  rw [Finset.mem_sdiff, List.mem_toFinset]
  exact ⟨files.mem_contents_of_read read, fresh⟩

end FileSystem

/-- The visits that a loader keeps record of on a journey. -/
structure Journey.Tracks (journey : Journey) (visits : Visits) : Prop where
  paths : ∀ canonical, canonical ∈ visits.paths ↔ canonical ∈ journey.visited
  warnings : visits.warnings = journey.directives.filterMap Directive.warning?

/-- What a loader notes about a directive. -/
def Visits.noting (directive : Directive) (visits : Visits) : Visits :=
  if directive.canonical = directive.origin then visits.selfInclusion directive.path else visits

@[simp] theorem Visits.paths_noting (directive : Directive) (visits : Visits) :
    (visits.noting directive).paths = visits.paths := by
  unfold Visits.noting
  split <;> rfl

theorem Journey.Tracks.process {journey : Journey} {visits : Visits}
    (tracks : journey.Tracks visits) (directive : Directive) :
    (journey.process directive).Tracks (visits.noting directive) := by
  constructor
  · rw [Visits.paths_noting]
    exact tracks.paths
  · rw [Journey.process, List.filterMap_append, ← tracks.warnings]
    unfold Visits.noting Directive.warning?
    split
    · rename_i same
      simp [Visits.selfInclusion, same]
    · rename_i other
      simp [other]

theorem Journey.Tracks.enter {journey : Journey} {visits : Visits} (tracks : journey.Tracks visits)
    (canonical : String) : (journey.enter canonical).Tracks (visits.enter canonical) := by
  refine ⟨fun path => ?_, tracks.warnings⟩
  rw [Visits.enter, Journey.enter, List.mem_cons, Finset.mem_insert, tracks.paths]

/-- A loader has the result of a walk and keeps track of it. -/
def Loader.Gives (loader : Loader (List Stmt)) (visits : Visits)
    (result : Except CompileError (List Stmt)) (after : Journey) : Prop :=
  match loader visits with
  | .ok (trees, final) => result = .ok trees ∧ after.Tracks final
  | .error error => result = .error error

/-- From all visits that are kept on the journey, a loader gives what a walk from the start
gives. -/
def Loader.Walks (files : FileSystem) (loader : Loader (List Stmt))
    (start : Except CompileError Place) (journey : Journey) : Prop :=
  ∀ visits, journey.Tracks visits →
    ∃ result after, Walk files start journey result after ∧ loader.Gives visits result after

open Scriptlet.Grammar.Parser (bind_apply)

private theorem visit_known {file : Reference → Loader (List Stmt)} {reference : Reference}
    {visits : Visits} (known : reference.canonical ∈ visits.paths) :
    visit file reference visits = .ok ([], visits) := by
  have reached : (get : Loader Visits) visits = .ok (visits, visits) := rfl
  rw [visit, bind_apply, reached]
  simp [known]
  rfl

private theorem visit_fresh {file : Reference → Loader (List Stmt)} {reference : Reference}
    {visits : Visits} (fresh : reference.canonical ∉ visits.paths) :
    visit file reference visits = file reference (visits.enter reference.canonical) := by
  have reached : (get : Loader Visits) visits = .ok (visits, visits) := rfl
  rw [visit, bind_apply, reached]
  simp [fresh]
  rfl

private theorem inclusion_found {files : FileSystem} (file : Reference → Loader (List Stmt))
    {place : Place} {target canonical : String}
    (found : files.canonical (place.target target) = .ok canonical) (visits : Visits) :
    inclusion files file place.canonical target visits =
      visit file (place.reference (place.target target) canonical)
        (visits.noting (place.directive (place.target target) canonical)) := by
  rw [Place.target] at found
  simp only [inclusion, found]
  rfl

namespace Loader.Gives

variable {loader action : Loader (List Stmt)} {visits later : Visits}
  {result : Except CompileError (List Stmt)} {after : Journey}

theorem map (gives : loader.Gives visits result after) (change : List Stmt → List Stmt) :
    Loader.Gives (do return change (← loader)) visits (result.map change) after := by
  unfold Loader.Gives at gives ⊢
  rw [bind_apply]
  cases found : loader visits with
  | error error =>
    rw [found] at gives
    rw [gives]
    rfl
  | ok reached =>
    rw [found] at gives
    rw [gives.1]
    exact ⟨rfl, gives.2⟩

/-- Behind an action that succeeds, a loader goes on from where the action has come. -/
theorem behind {trees : List Stmt} (done : action visits = .ok (trees, later))
    (gives : loader.Gives later result after) :
    Loader.Gives (do return (← action) ++ (← loader)) visits (result.map (trees ++ ·)) after := by
  have rest := gives.map (trees ++ ·)
  unfold Loader.Gives at rest ⊢
  rw [bind_apply, done]
  exact rest

theorem failed {error : CompileError} {next : List Stmt → Loader (List Stmt)}
    (failure : action visits = .error error) :
    Loader.Gives (action >>= next) visits (.error error) after := by
  unfold Loader.Gives
  rw [bind_apply, failure]

end Loader.Gives

namespace Loader.Walks

variable {files : FileSystem} {place behind : Place} {journey : Journey}
  {loader : Loader (List Stmt)}

theorem finished {inclusion : String → Loader (List Stmt)} {source : NamedSource}
    (ended : place.stream.ahead = []) :
    Loader.Walks files (splice inclusion source [] none) (.ok place) journey :=
  fun _ tracks => ⟨.ok [], journey, .finished (by simp [Place.item?, ended]), rfl, tracks⟩

theorem declaration {tree : Stmt} (read : place.item? = some (.ok (.declaration tree, behind)))
    (rest : Loader.Walks files loader (.ok behind) journey) :
    Loader.Walks files (do return tree :: (← loader)) (.ok place) journey := by
  intro visits tracks
  obtain ⟨result, after, walk, gives⟩ := rest visits tracks
  exact ⟨_, after, .declaration read walk, gives.map _⟩

/-- A directive, where a file that was not visited can be opened, and what stands behind it,
wherever the walk through that file has led. -/
theorem inclusion {file : Reference → Loader (List Stmt)} {keyword : Token} {target : String}
    (read : place.item? = some (.ok (.inclusion keyword target, behind)))
    (opened : ∀ canonical, canonical ∉ journey.visited →
      Loader.Walks files (file (place.reference (place.target target) canonical))
        (Place.ofFile files (place.reference (place.target target) canonical))
        ((journey.process (place.directive (place.target target) canonical)).enter canonical))
    (rest : ∀ middle : Journey, journey.visited ⊆ middle.visited →
      Loader.Walks files loader (.ok behind) middle) :
    Loader.Walks files
      (do return (← Source.inclusion files file place.canonical target) ++ (← loader))
      (.ok place) journey := by
  intro visits tracks
  cases found : files.canonical (place.target target) with
  | error fault =>
    refine ⟨_, journey, .missing read found, .failed ?_⟩
    rw [Place.target] at found
    simp only [Source.inclusion, found]
    rfl
  | ok canonical =>
    have noted := tracks.process (place.directive (place.target target) canonical)
    have processed := inclusion_found file found visits
    by_cases known : canonical ∈ journey.visited
    · rw [visit_known ((noted.paths canonical).mpr known)] at processed
      obtain ⟨result, after, walk, gives⟩ := rest (journey.process _) (Finset.Subset.refl _) _ noted
      have skipped := gives.behind processed
      refine ⟨result, after, .again read found known walk, ?_⟩
      cases result <;> exact skipped
    · rw [visit_fresh fun member => known ((noted.paths canonical).mp member)] at processed
      obtain ⟨result, middle, walk, gives⟩ := opened canonical known _ (noted.enter canonical)
      unfold Gives at gives
      split at gives
      · rename_i trees later entered
        obtain ⟨rfl, tracked⟩ := gives
        have further := (Finset.subset_insert canonical _).trans walk.visited_subset
        obtain ⟨result, after, following, gives⟩ := rest middle further later tracked
        exact ⟨_, after, .included read found known walk following,
          gives.behind (processed.trans entered)⟩
      · rename_i error entered
        subst gives
        exact ⟨_, middle, .broken read found known walk, .failed (processed.trans entered)⟩

end Loader.Walks

/-- What is known of a file that was opened. -/
theorem Place.of_ofFile {files : FileSystem} {reference : Reference} {place : Place}
    (opened : ofFile files reference = .ok place) :
    place.stream.WellFormed ∧ ∃ text, files.read reference.canonical = .ok text := by
  unfold ofFile at opened
  split at opened
  · cases opened
  · rename_i text read
    obtain ⟨tokens, scanned, rfl⟩ := Except.ok_of_map opened
    exact ⟨wellFormed_of_scan (NamedSource.scan_of_tokens scanned), text, read⟩

/-- Loading a file opens it and puts its items together. -/
theorem fileUpTo_succ (files : FileSystem) (depth : Nat) (reference : Reference)
    (visits : Visits) :
    fileUpTo files (depth + 1) reference visits =
      match Place.ofFile files reference with
      | .error error => .error error
      | .ok place =>
        splice (inclusion files (fileUpTo files depth) place.canonical) place.source
          (Outline.read place.stream.ahead.length place.stream).items
          (Outline.read place.stream.ahead.length place.stream).error visits := by
  cases read : files.read reference.canonical with
  | error fault =>
    simp only [fileUpTo, Place.ofFile, read]
    rfl
  | ok text =>
    simp only [fileUpTo, Place.ofFile, read]
    cases NamedSource.tokens ⟨reference.path, text⟩ <;> rfl

/-- Putting the items of a file together walks through the file, if the files it includes can
be walked through as long as some have not been visited. -/
theorem splice_walks {files : FileSystem} {file : Reference → Loader (List Stmt)} {room : Nat}
    (opened : ∀ (reference : Reference) (journey : Journey) (before : Finset String),
      reference.canonical ∉ before → journey.visited = insert reference.canonical before →
        files.unvisited before < room →
          Loader.Walks files (file reference) (Place.ofFile files reference) journey)
    (count : Nat) (place : Place) (journey : Journey) (proper : place.stream.WellFormed)
    (enough : place.stream.ahead.length ≤ count) (some : files.unvisited journey.visited < room) :
    Loader.Walks files
      (splice (inclusion files file place.canonical) place.source
        (Outline.read count place.stream).items (Outline.read count place.stream).error)
      (.ok place) journey := by
  induction count generalizing place journey with
  | zero => exact .finished (List.length_eq_zero_iff.mp (Nat.le_zero.mp enough))
  | succ count ih =>
    rw [Outline.read]
    cases ahead : place.stream.ahead.isEmpty with
    | true => exact .finished (List.isEmpty_iff.mp ahead)
    | false =>
      simp only [Bool.false_eq_true, ↓reduceIte]
      cases read : item.run place.stream with
      | error error =>
        exact fun visits tracks =>
          ⟨_, journey, .stopped (by simp [Place.item?, ahead, read, Except.map]), rfl⟩
      | ok result =>
        obtain ⟨first, rest⟩ := result
        have next : place.item? = Option.some (.ok (first, { place with stream := rest })) := by
          simp [Place.item?, ahead, read, Except.map]
        obtain ⟨behind, shorter, _⟩ := item_shaped proper read
        have following (middle : Journey) (further : journey.visited ⊆ middle.visited) :=
          ih { place with stream := rest } middle behind (by simp only; omega)
            ((files.unvisited_anti further).trans_lt some)
        cases first with
        | declaration tree => exact .declaration next (following journey (Finset.Subset.refl _))
        | inclusion keyword target =>
          refine .inclusion next (fun canonical fresh => ?_) following
          exact opened _ _ journey.visited fresh rfl some

/-- A file can be walked through with as many files open at a time as were not visited before
it, and one more. -/
theorem fileUpTo_walks {files : FileSystem} (depth : Nat) (reference : Reference)
    (journey : Journey) (before : Finset String) (fresh : reference.canonical ∉ before)
    (entered : journey.visited = insert reference.canonical before)
    (some : files.unvisited before < depth) :
    Loader.Walks files (fileUpTo files depth reference) (Place.ofFile files reference) journey := by
  induction depth generalizing reference journey before with
  | zero => cases some
  | succ depth ih =>
    intro visits tracks
    unfold Loader.Gives
    rw [fileUpTo_succ]
    cases opened : Place.ofFile files reference with
    | error error => exact ⟨_, journey, .unopened, rfl⟩
    | ok place =>
      obtain ⟨proper, text, read⟩ := Place.of_ofFile opened
      -- The file that was opened is one of those that were not visited before it.
      have fewer : files.unvisited journey.visited < depth := by
        rw [entered]
        exact (files.unvisited_insert_lt read fresh).trans_le (Nat.le_of_lt_succ some)
      exact splice_walks ih _ place journey proper (Nat.le_refl _) fewer visits tracks

theorem Journey.Tracks.start (root : String) : (Journey.start root).Tracks ⟨[root], []⟩ :=
  ⟨fun path => by simp [Journey.start], rfl⟩

/-- Loading has the result of a walk. -/
theorem loads_load (files : FileSystem) (path : String) :
    ∃ opened, Loads files path (load files path) opened := by
  rw [load]
  cases found : files.canonical path with
  | error fault => exact ⟨[], .missing found⟩
  | ok canonical =>
    have room : files.unvisited ∅ < files.contents.length + 1 :=
      Nat.lt_succ_of_le (files.unvisited_le_length ∅)
    obtain ⟨result, after, walk, gives⟩ := fileUpTo_walks (files.contents.length + 1)
      ⟨path, canonical, none⟩ (.start canonical) ∅ (Finset.notMem_empty canonical) rfl room
      _ (.start canonical)
    refine ⟨after.opened, ?_⟩
    have loads := Loads.walked found walk
    unfold Loader.Gives at gives
    simp only [StateT.run]
    split at gives
    · rename_i trees visits loaded
      obtain ⟨rfl, tracks⟩ := gives
      rw [← tracks.warnings] at loads
      rw [loaded]
      exact loads
    · rename_i error failed
      subst gives
      rw [failed]
      exact loads

theorem Loads.unique {files : FileSystem} {path : String}
    {first second : Except CompileError Loaded} {opened others : List String}
    (loads : Loads files path first opened) (again : Loads files path second others) :
    first = second ∧ opened = others := by
  cases loads with
  | missing absent =>
    cases again with
    | missing missing =>
      cases absent.symm.trans missing
      exact ⟨rfl, rfl⟩
    | walked found walk => cases absent.symm.trans found
  | walked found walk =>
    cases again with
    | missing absent => cases found.symm.trans absent
    | walked other another =>
      cases found.symm.trans other
      obtain ⟨rfl, rfl⟩ := walk.unique another
      exact ⟨rfl, rfl⟩

theorem Loads.nodup {files : FileSystem} {path : String} {result : Except CompileError Loaded}
    {opened : List String} (loads : Loads files path result opened) : opened.Nodup := by
  cases loads with
  | missing => exact List.nodup_nil
  | walked found walk => exact (walk.opensOnce (.start _)).nodup

/-- Loading a file is the walk through it: whatever the files include, there is exactly one
walk, loading gives its declarations and warnings or the failure that it meets, and no file is
opened twice. -/
theorem load_walks (files : FileSystem) (path : String) :
    ∃ opened, Loads files path (load files path) opened ∧ opened.Nodup ∧
      ∀ result others, Loads files path result others →
        result = load files path ∧ others = opened := by
  obtain ⟨opened, loads⟩ := loads_load files path
  exact ⟨opened, loads, loads.nodup, fun _ _ other => other.unique loads⟩

end Scriptlet.Source
