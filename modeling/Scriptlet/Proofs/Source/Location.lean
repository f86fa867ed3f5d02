import Scriptlet.Proofs.Except
import Scriptlet.Proofs.Grammar.Pointing
import Scriptlet.Proofs.Source.Walk
import Scriptlet.Proofs.Token.Account

/-! Where errors in sources point. An error is reported with the source in which it is, under the
path by which that source was reached, and it points at a place of that source: at a character
with which no lexeme begins, or at a token. An error in a file that is included stays the error of
that file, however deep the file is included. -/
namespace Scriptlet

open Scriptlet.Text (Position)

private theorem ScanFault.extent_prefix (fault : ScanFault) (remaining : List Char) :
    ∃ behind, remaining = fault.extent remaining ++ behind := by
  cases fault with
  | unterminatedString => exact ⟨[], (List.append_nil remaining).symm⟩
  | integerOutOfRange => exact ⟨_, List.takeWhile_append_dropWhile.symm⟩
  | unexpectedCharacter character => exact ⟨_, (List.take_append_drop 1 remaining).symm⟩
  | unexpectedEnd => exact ⟨remaining, rfl⟩

namespace Token

/-- A place of a text, which begins at another place, where no lexeme begins; the error has the
line of that place and the stretch from there on that the fault asks for. -/
def StuckBehind (place : Position) (source before : List Char) (error : ScanError) : Prop :=
  ∃ first rest, source = before ++ first :: rest ∧ Lexeme.read first rest = .error error.fault ∧
    error.line = (place.advance before).line ∧
      error.span = (place.advance before).span (error.fault.extent (first :: rest))

private theorem stuck_of_step {place : Position} {source : List Char} {error : ScanError}
    (stepped : step place source = .stuck error) :
    ∃ gap, StuckBehind place source gap error := by
  rcases divides source with final | ⟨gap, first, behind, rfl, layout, other⟩
  · rw [step_final place final] at stepped
    cases stepped
  · rw [step_layout place layout other] at stepped
    cases failed : Lexeme.read first behind with
    | error fault =>
      simp only [failed] at stepped
      cases stepped
      exact ⟨gap, first, behind, rfl, failed, rfl, rfl⟩
    | ok lexeme =>
      simp only [failed] at stepped
      cases stepped

private theorem stuck_of_scanFrom {place : Position} {source : List Char} {error : ScanError}
    (failed : scanFrom place source = .error error) :
    ∃ before, StuckBehind place source before error := by
  fun_induction scanFrom place source with
  | case1 place source last stepped => cases failed
  | case2 place source found stepped =>
    cases failed
    exact stuck_of_step stepped
  | case3 place source token next rest stepped shorter ih =>
    cases following : scanFrom next rest with
    | ok others =>
      rw [following] at failed
      cases failed
    | error later =>
      rw [following] at failed
      cases failed
      obtain ⟨before, first, behind, rfl, unread, line, span⟩ := ih following
      obtain ⟨piece, rfl, _, _, _, _, rfl⟩ := piece_of_step stepped
      refine ⟨piece.gap ++ (piece.text ++ before), first, behind, by simp, unread, ?_, ?_⟩
      · rw [line, Position.advance_append, Position.advance_append]
      · rw [span, Position.advance_append, Position.advance_append]

theorem StuckBehind.placed {source : String} {before : List Char} {error : ScanError}
    (stuck : StuckBehind .start source.toList before error) :
    Text.Placed source error.line error.span := by
  obtain ⟨first, rest, split, _, line, span⟩ := stuck
  obtain ⟨behind, same⟩ := error.fault.extent_prefix (first :: rest)
  have placed := Text.placed_append before (error.fault.extent (first :: rest)) behind
  rw [← same, ← split, String.ofList_toList, ← line, ← span] at placed
  exact placed

end Token

/-- An error that is given with a source and is an error in that source. It is placed in the text
of the source, at a character with which no lexeme begins or at a token of the text. -/
inductive CompileError.InSource (source : NamedSource) : CompileError → Prop where
  | scan {error : ScanError} {before : List Char}
      (failed : Token.scan source.text = .error error)
      (stuck : Token.StuckBehind .start source.text.toList before error)
      (placed : Text.Placed source.text error.line error.span) :
      InSource source (.scan error source)
  | grammar {error : Grammar.Error} {tokens : List Token}
      (scanned : Token.scan source.text = .ok tokens) (member : error.token ∈ tokens)
      (placed : Text.Placed source.text error.token.line error.token.span) :
      InSource source (.grammar error source)

namespace CompileError.InSource

variable {source : NamedSource}

theorem of_scan {error : ScanError} (failed : Token.scan source.text = .error error) :
    InSource source (.scan error source) := by
  obtain ⟨before, stuck⟩ := Token.stuck_of_scanFrom failed
  exact .scan failed stuck stuck.placed

theorem of_token {error : Grammar.Error} {tokens : List Token}
    (scanned : Token.scan source.text = .ok tokens) (member : error.token ∈ tokens) :
    InSource source (.grammar error source) :=
  .grammar scanned member (Token.placed_of_scan scanned error.token member)

end CompileError.InSource

private theorem Token.exists_end {text : String} {tokens : List Token}
    (scanned : Token.scan text = .ok tokens) : ∃ token ∈ tokens, token.kind = .endOfFile := by
  obtain ⟨front, last, rfl, _, ends, _⟩ := Token.scan_wellFormed scanned
  exact ⟨last, by simp, ends⟩

namespace NamedSource

variable {source : NamedSource} {error : CompileError}

private theorem inSource_of_tokens (failed : source.tokens = .error error) :
    error.InSource source := by
  rw [NamedSource.tokens] at failed
  cases scanned : Token.scan source.text with
  | ok tokens =>
    rw [scanned] at failed
    cases failed
  | error first =>
    rw [scanned] at failed
    cases failed
    exact .of_scan scanned

/-- The error of a source by itself, without anything that it includes. -/
def ownError? (source : NamedSource) : Option CompileError :=
  match source.tokens with
  | .error error => some error
  | .ok tokens => (Grammar.Outline.ofTokens tokens).error.map (.grammar · source)

private theorem inSource_of_ownError (fails : source.ownError? = some error) :
    error.InSource source := by
  rw [ownError?] at fails
  cases found : source.tokens with
  | error first =>
    rw [found] at fails
    cases fails
    exact inSource_of_tokens found
  | ok tokens =>
    rw [found] at fails
    have scanned := scan_of_tokens found
    obtain ⟨stopped, outline, rfl⟩ := Option.map_eq_some_iff.mp fails
    exact .of_token scanned (Grammar.outline_error_mem (Token.exists_end scanned) outline)

private theorem inSource_of_program (failed : source.program = .error error) :
    error.InSource source := by
  rw [NamedSource.program] at failed
  cases found : source.tokens with
  | error first =>
    rw [found] at failed
    cases failed
    exact inSource_of_tokens found
  | ok tokens =>
    have scanned := scan_of_tokens found
    rw [found] at failed
    change (Grammar.parse tokens).mapError _ = _ at failed
    cases parsed : Grammar.parse tokens with
    | ok program =>
      rw [parsed] at failed
      cases failed
    | error first =>
      rw [parsed] at failed
      cases failed
      exact .of_token scanned (Grammar.parse_error_mem (Token.exists_end scanned) parsed)

end NamedSource

namespace Source

open Scriptlet.Grammar

variable {files : FileSystem} {journey : Journey} {place behind : Place} {reference : Reference}

/-- With room for all items, more room changes nothing. -/
theorem outline_enough {stream : Stream} (count room : Nat) (proper : stream.WellFormed)
    (enough : stream.ahead.length ≤ count) (also : stream.ahead.length ≤ room) :
    Outline.read count stream = Outline.read room stream := by
  induction count generalizing room stream with
  | zero =>
    have ended : stream.ahead = [] := List.length_eq_zero_iff.mp (Nat.le_zero.mp enough)
    cases room with
    | zero => rfl
    | succ room => simp [Outline.read, ended]
  | succ count ih =>
    cases room with
    | zero =>
      have ended : stream.ahead = [] := List.length_eq_zero_iff.mp (Nat.le_zero.mp also)
      simp [Outline.read, ended]
    | succ room =>
      rw [Outline.read, Outline.read]
      cases read : item.run stream with
      | error error => rfl
      | ok result =>
        obtain ⟨first, rest⟩ := result
        obtain ⟨behind, shorter, _⟩ := item_shaped proper read
        simp only [ih room behind (by omega) (by omega)]

/-- The error at which reading the items of a file stops, from a place on. -/
def Place.ownError? (place : Place) : Option CompileError :=
  (Outline.read place.stream.ahead.length place.stream).error.map (.grammar · place.source)

/-- The error of a file by itself: it cannot be read, or there is an error in its text. -/
def Reference.FailsWith (files : FileSystem) (reference : Reference) (error : CompileError) :
    Prop :=
  match files.read reference.canonical with
  | .error fault => error = .unreadable reference.path reference.includedFrom fault
  | .ok text => NamedSource.ownError? ⟨reference.path, text⟩ = some error

private theorem Reference.failsWith_of_unopened {error : CompileError}
    (unopened : Place.ofFile files reference = .error error) :
    reference.FailsWith files error := by
  unfold Reference.FailsWith
  unfold Place.ofFile at unopened
  cases read : files.read reference.canonical with
  | error fault =>
    rw [read] at unopened
    exact (Except.error.inj unopened).symm
  | ok text =>
    simp only [read] at unopened
    cases found : NamedSource.tokens ⟨reference.path, text⟩ with
    | error first =>
      rw [found] at unopened
      cases unopened
      simp only [NamedSource.ownError?, found]
    | ok tokens =>
      rw [found] at unopened
      cases unopened

private theorem Reference.failsWith_of_ownError {error : CompileError}
    (opened : Place.ofFile files reference = .ok place) (fails : place.ownError? = some error) :
    reference.FailsWith files error := by
  unfold Reference.FailsWith
  unfold Place.ofFile at opened
  cases read : files.read reference.canonical with
  | error fault =>
    rw [read] at opened
    cases opened
  | ok text =>
    simp only [read] at opened
    obtain ⟨tokens, found, rfl⟩ := Except.ok_of_map opened
    simp only [NamedSource.ownError?, found]
    exact fails

private theorem Place.item?_eq_some {next : Except Grammar.Error (Item × Place)}
    (read : place.item? = some next) : place.stream.ahead ≠ [] ∧
      next = (item place.stream).map fun read => (read.1, { place with stream := read.2 }) := by
  rw [Place.item?] at read
  split at read
  · cases read
  · rename_i some
    exact ⟨by simpa using some, (Option.some.inj read).symm⟩

private theorem Place.ownError?_of_error {error : Grammar.Error}
    (read : place.item? = some (.error error)) :
    place.ownError? = some (.grammar error place.source) := by
  obtain ⟨some, next⟩ := Place.item?_eq_some read
  obtain ⟨token, others, same⟩ := List.exists_cons_of_ne_nil some
  cases tried : item place.stream with
  | ok result =>
    rw [tried] at next
    cases next
  | error first =>
    rw [tried] at next
    cases next
    have run : item.run place.stream = .error error := tried
    simp [Place.ownError?, same, Outline.read, run]

/-- An item that can be read is left behind. -/
theorem Place.ownError?_of_item {first : Item} (proper : place.stream.WellFormed)
    (read : place.item? = some (.ok (first, behind))) :
    behind.stream.WellFormed ∧ place.ownError? = behind.ownError? := by
  obtain ⟨some, next⟩ := Place.item?_eq_some read
  obtain ⟨token, others, same⟩ := List.exists_cons_of_ne_nil some
  cases tried : item place.stream with
  | error error =>
    rw [tried] at next
    cases next
  | ok result =>
    rw [tried] at next
    cases next
    have run : item.run place.stream = .ok result := tried
    obtain ⟨wellFormed, shorter, _⟩ := item_shaped proper tried
    rw [same, List.length_cons] at shorter
    have room := outline_enough others.length result.2.ahead.length wellFormed (by omega)
      (Nat.le_refl _)
    refine ⟨wellFormed, ?_⟩
    simp [Place.ownError?, same, Outline.read, run, room]

/-- The next item of a place is a directive for a file. -/
def Place.Directs (files : FileSystem) (place behind : Place) (reference : Reference) : Prop :=
  ∃ keyword target, place.item? = some (.ok (.inclusion keyword target, behind)) ∧
    files.canonical (place.target target) = .ok reference.canonical ∧
      reference = place.reference (place.target target) reference.canonical

private theorem Place.directs {keyword : Token} {target canonical : String}
    (read : place.item? = some (.ok (.inclusion keyword target, behind)))
    (found : files.canonical (place.target target) = .ok canonical) :
    place.Directs files behind (place.reference (place.target target) canonical) :=
  ⟨keyword, target, read, found, rfl⟩

/-- What a walk has come by when it opens a file. -/
def Journey.into (journey : Journey) (place : Place) (reference : Reference) : Journey :=
  (journey.process (place.directive reference.path reference.canonical)).enter reference.canonical

/-- The files that the walk from a place opens, each under the path by which it is reached. -/
inductive Opens (files : FileSystem) : Place → Journey → Reference → Prop where
  | declaration {place behind : Place} {journey : Journey} {tree : Stmt} {other : Reference}
      (read : place.item? = some (.ok (.declaration tree, behind)))
      (rest : Opens files behind journey other) : Opens files place journey other
  | again {place behind : Place} {journey : Journey} {reference other : Reference}
      (directs : place.Directs files behind reference)
      (known : reference.canonical ∈ journey.visited)
      (rest : Opens files behind
        (journey.process (place.directive reference.path reference.canonical)) other) :
      Opens files place journey other
  | here {place behind : Place} {journey : Journey} {reference : Reference}
      (directs : place.Directs files behind reference)
      (fresh : reference.canonical ∉ journey.visited) : Opens files place journey reference
  | inside {place behind inner : Place} {journey : Journey} {reference other : Reference}
      (directs : place.Directs files behind reference)
      (fresh : reference.canonical ∉ journey.visited)
      (opened : Place.ofFile files reference = .ok inner)
      (rest : Opens files inner (journey.into place reference) other) :
      Opens files place journey other
  | behind {place behind : Place} {journey middle : Journey} {reference other : Reference}
      {trees : List Stmt} (directs : place.Directs files behind reference)
      (fresh : reference.canonical ∉ journey.visited)
      (walk : Walk files (Place.ofFile files reference) (journey.into place reference) (.ok trees)
        middle)
      (rest : Opens files behind middle other) : Opens files place journey other

/-- The files that are opened to load a file, the file itself first. -/
inductive Opened (files : FileSystem) (path : String) : Reference → Prop where
  | root {canonical : String} (found : files.canonical path = .ok canonical) :
      Opened files path ⟨path, canonical, none⟩
  | included {canonical : String} {place : Place} {reference : Reference}
      (found : files.canonical path = .ok canonical)
      (opened : Place.ofFile files ⟨path, canonical, none⟩ = .ok place)
      (opens : Opens files place (.start canonical) reference) : Opened files path reference

/-- An error of a walk: a directive for a file that cannot be found, or the error of a file by
itself, which is the one from which the walk starts or one that it opens. -/
def Origin (files : FileSystem) (journey : Journey) :
    Except CompileError Place → CompileError → Prop
  | .error first, error => error = first
  | .ok place, error => place.ownError? = some error ∨
    (∃ path origin fault, error = .unreadable path origin fault) ∨
      ∃ reference, Opens files place journey reference ∧ reference.FailsWith files error

/-- What is left behind has the errors of the whole, if the whole opens what it opens. -/
theorem Origin.of_behind {later : Journey} {error : CompileError}
    (own : place.ownError? = behind.ownError?)
    (opens : ∀ other, Opens files behind later other → Opens files place journey other)
    (origin : Origin files later (.ok behind) error) : Origin files journey (.ok place) error := by
  rcases origin with stopped | missing | ⟨other, opened, fails⟩
  · exact .inl (own.trans stopped)
  · exact .inr (.inl missing)
  · exact .inr (.inr ⟨other, opens other opened, fails⟩)

/-- The errors of a file that is included are errors of the file that includes it. -/
theorem Origin.of_inside {error : CompileError} (directs : place.Directs files behind reference)
    (fresh : reference.canonical ∉ journey.visited)
    (origin : Origin files (journey.into place reference) (Place.ofFile files reference) error) :
    Origin files journey (.ok place) error := by
  cases opened : Place.ofFile files reference with
  | error first =>
    rw [opened] at origin
    subst origin
    exact .inr (.inr ⟨reference, .here directs fresh, Reference.failsWith_of_unopened opened⟩)
  | ok inner =>
    rw [opened] at origin
    rcases origin with stopped | missing | ⟨other, opens, fails⟩
    · have fails := Reference.failsWith_of_ownError opened stopped
      exact .inr (.inr ⟨reference, .here directs fresh, fails⟩)
    · exact .inr (.inl missing)
    · exact .inr (.inr ⟨other, .inside directs fresh opened opens, fails⟩)

private theorem wellFormed_ofFile (place : Place)
    (opened : Place.ofFile files reference = .ok place) : place.stream.WellFormed :=
  (Place.of_ofFile opened).1

/-- A walk fails with the error of the file in which it is, whatever has been included before and
wherever the file is included. -/
theorem Walk.origin {start : Except CompileError Place} {after : Journey}
    {result : Except CompileError (List Stmt)} {error : CompileError}
    (walk : Walk files start journey result after) (failed : result = .error error)
    (proper : ∀ place, start = .ok place → place.stream.WellFormed) :
    Origin files journey start error := by
  induction walk with
  | unopened =>
    cases failed
    exact rfl
  | finished => cases failed
  | stopped read =>
    cases failed
    exact .inl (Place.ownError?_of_error read)
  | declaration read rest ih =>
    obtain ⟨wellFormed, own⟩ := Place.ownError?_of_item (proper _ rfl) read
    refine .of_behind own (fun other opens => .declaration read opens) ?_
    exact ih (Except.error_of_map failed) fun _ same => by cases same; exact wellFormed
  | missing read absent =>
    cases failed
    exact .inr (.inl ⟨_, _, _, rfl⟩)
  | again read found known rest ih =>
    obtain ⟨wellFormed, own⟩ := Place.ownError?_of_item (proper _ rfl) read
    refine .of_behind own (fun other opens => .again (Place.directs read found) known opens) ?_
    exact ih failed fun _ same => by cases same; exact wellFormed
  | broken read found fresh inside ih =>
    refine .of_inside (Place.directs read found) fresh ?_
    exact ih failed wellFormed_ofFile
  | included read found fresh inside rest ih following =>
    obtain ⟨wellFormed, own⟩ := Place.ownError?_of_item (proper _ rfl) read
    refine .of_behind own (fun other => .behind (Place.directs read found) fresh inside) ?_
    exact following (Except.error_of_map failed) fun _ same => by cases same; exact wellFormed

/-- An error in loading a file is the error of a file that was opened, by itself, or a file
cannot be found. -/
theorem exists_opened {path : String} {error : CompileError}
    (failed : load files path = .error error) :
    (∃ file origin fault, error = .unreadable file origin fault) ∨
      ∃ reference, Opened files path reference ∧ reference.FailsWith files error := by
  obtain ⟨opened, loads⟩ := loads_load files path
  generalize load files path = result at loads failed
  cases loads with
  | missing absent =>
    cases failed
    exact .inl ⟨_, _, _, rfl⟩
  | @walked canonical result after found walk =>
    have origin := walk.origin (Except.error_of_map failed) wellFormed_ofFile
    cases opened : Place.ofFile files ⟨path, canonical, none⟩ with
    | error first =>
      rw [opened] at origin
      subst origin
      exact .inr ⟨_, .root found, Reference.failsWith_of_unopened opened⟩
    | ok place =>
      rw [opened] at origin
      rcases origin with stopped | missing | ⟨other, opens, fails⟩
      · exact .inr ⟨_, .root found, Reference.failsWith_of_ownError opened stopped⟩
      · exact .inl missing
      · exact .inr ⟨other, .included found opened opens, fails⟩

end Source

/-- An error in a source is reported with that source and points at a place in it. So does an
error in loading a file, unless a file cannot be read: of all files that are opened, it is the
error of one by itself, reported with the text of this file and the path by which the file was
reached. -/
theorem compileError_inSource :
    (∀ (source : NamedSource) (error : CompileError), source.program = .error error →
      error.InSource source) ∧
    ∀ (files : Source.FileSystem) (path : String) (error : CompileError),
      Source.load files path = .error error →
        (∃ file origin fault, error = .unreadable file origin fault) ∨
        ∃ reference text, Source.Opened files path reference ∧
          files.read reference.canonical = .ok text ∧
          NamedSource.ownError? ⟨reference.path, text⟩ = some error ∧
          error.InSource ⟨reference.path, text⟩ := by
  refine ⟨fun source error => NamedSource.inSource_of_program, ?_⟩
  intro files path error failed
  rcases Source.exists_opened failed with missing | ⟨reference, opened, fails⟩
  · exact .inl missing
  · unfold Source.Reference.FailsWith at fails
    cases read : files.read reference.canonical with
    | error fault =>
      simp only [read] at fails
      exact .inl ⟨_, _, _, fails⟩
    | ok text =>
      simp only [read] at fails
      exact .inr ⟨reference, text, opened, read, fails, NamedSource.inSource_of_ownError fails⟩

/-- A function with a character that begins no lexeme, on its second line. -/
def brokenFunction : String := "func two(): int \x7b // ü\n  return @; \x7d"

/-- A file that includes another one, which includes the broken function. -/
def brokenFiles : Source.FileSystem :=
  .ofTables
    [("main", .ok "/main"), ("/lib/one", .ok "/lib/one"), ("/lib/two", .ok "/lib/two")]
    [("/main", .ok "include \"lib/one\";"), ("/lib/one", .ok "// é\ninclude \"two\";"),
      ("/lib/two", .ok brokenFunction)]

def brokenSum : NamedSource := ⟨"sum", "1 + // é\n;"⟩

theorem brokenFiles_inSource :
    (∃ error, brokenSum.program = .error error ∧ error.InSource brokenSum) ∧
    ∃ error, error = .scan ⟨.unexpectedCharacter '@', 2, ⟨33, 1⟩⟩ ⟨"/lib/two", brokenFunction⟩ ∧
      Source.load brokenFiles "main" = .error error ∧
      ∃ reference text, Source.Opened brokenFiles "main" reference ∧
        brokenFiles.read reference.canonical = .ok text ∧
        NamedSource.ownError? ⟨reference.path, text⟩ = some error ∧
        error.InSource ⟨reference.path, text⟩ := by
  constructor
  · have unread : brokenSum.program.isOk = false := by decide +kernel
    cases failed : brokenSum.program with
    | ok program =>
      rw [failed] at unread
      cases unread
    | error error => exact ⟨error, rfl, compileError_inSource.1 brokenSum error failed⟩
  · have broken : (match Source.load brokenFiles "main" with
        | .error error => some error
        | .ok _ => none) =
          some (.scan ⟨.unexpectedCharacter '@', 2, ⟨33, 1⟩⟩ ⟨"/lib/two", brokenFunction⟩) := by
      decide +kernel
    cases failed : Source.load brokenFiles "main" with
    | ok loaded =>
      rw [failed] at broken
      cases broken
    | error error =>
      rw [failed] at broken
      obtain rfl := Option.some.inj broken
      refine ⟨_, rfl, rfl, ?_⟩
      rcases compileError_inSource.2 brokenFiles "main" _ failed with ⟨_, _, _, same⟩ | opened
      · cases same
      · exact opened

end Scriptlet
