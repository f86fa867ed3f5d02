import Scriptlet.Proofs.Except
import Scriptlet.Proofs.Source.Walk
import Scriptlet.Proofs.Surface.Renumber
import Scriptlet.Proofs.Token.Joined

/-! Sources one behind the other. With a line end between them, two sources that can be read
make one source that can be read, with the declarations of both. So it is the same, up to line
numbers, to include a file at the top level of another and to paste its text there. -/
namespace Scriptlet

open Scriptlet.Text (newlines)

private theorem Stmt.allWithoutLines_append (front back : List Stmt) :
    Stmt.allWithoutLines (front ++ back) =
      Stmt.allWithoutLines front ++ Stmt.allWithoutLines back := by
  induction front with
  | nil => rfl
  | cons first rest ih => simp [Stmt.allWithoutLines, ih]

namespace Surface

private theorem Stmt.spellings_append (front back : List Stmt) :
    Stmt.spellings (front ++ back) = Stmt.spellings front ++ Stmt.spellings back := by
  induction front with
  | nil => rfl
  | cons first rest ih => simp [Stmt.spellings, ih]

private theorem Stmt.desugarAll_append (front back : List Stmt) (lines : List Nat) :
    Stmt.desugarAll (front ++ back) lines =
      Stmt.desugarAll front lines ++
        Stmt.desugarAll back (lines.drop (Stmt.spellings front).length) := by
  induction front generalizing lines with
  | nil => rfl
  | cons first rest ih =>
    simp only [List.cons_append, Stmt.desugarAll, ih, Stmt.spellings, List.length_append,
      List.drop_drop]

namespace Program

variable {change : Nat → Nat} {lines others : List Nat}

def append (front back : Program) : Program :=
  ⟨front.statements ++ back.statements,
    List.forall_mem_append.mpr ⟨front.wellFormed, back.wellFormed⟩⟩

private theorem spelling_append (front back : Program) :
    (front.append back).spelling = front.spelling ++ back.spelling :=
  Stmt.spellings_append ..

private theorem desugar_append (front back : Program) (lines : List Nat) :
    (front.append back).desugar lines =
      ⟨(front.desugar lines).declarations ++
        (back.desugar (lines.drop front.spelling.length)).declarations⟩ :=
  congrArg Scriptlet.Program.mk (Stmt.desugarAll_append ..)

private theorem allWithoutLines_desugar (program : Program) (lines : List Nat) :
    Stmt.allWithoutLines (program.desugar lines).declarations =
      (program.desugar []).declarations :=
  congrArg Scriptlet.Program.declarations (program.withoutLines_desugar lines)

private theorem desugar_renumbered (program : Program)
    (same : Renumbered change program.spelling.length lines others) :
    (program.desugar others).declarations =
      (program.desugar lines).declarations.map (Stmt.mapLines change) := by
  rw [← Stmt.mapAllLines_eq_map]
  apply renumbered_desugarAll _ same
  intro statement held lines others same
  exact (program.wellFormed statement held).desugar_renumbered same

/-- The tree of a program depends on the lines of its own symbols only. -/
theorem desugar_upTo (program : Program)
    (same : Renumbered id program.spelling.length lines others) :
    (program.desugar others).declarations = (program.desugar lines).declarations := by
  have alone : Renumbered id program.spelling.length lines lines := by
    intro index below
    obtain ⟨line, here, _⟩ := same index below
    exact ⟨line, here, here⟩
  rw [program.desugar_renumbered same, ← program.desugar_renumbered alone]

end Program

end Surface

/-- A text has the given tokens, and behind them the one that ends the source. -/
structure Token.ScansAs (text : String) (tokens : List Token) (last : Token) : Prop where
  scanned : Token.scan text = .ok (tokens ++ [last])
  inside : ∀ token ∈ tokens, token.WellFormed ∧ token.kind ≠ .endOfFile
  fits : last.WellFormed
  ends : last.kind = .endOfFile

namespace Token.ScansAs

variable {text other : String} {tokens others all : List Token} {last final : Token}

theorem of_scan (scanned : Token.scan text = .ok all) :
    ∃ tokens last, all = tokens ++ [last] ∧ ScansAs text tokens last := by
  obtain ⟨tokens, last, rfl, fits, ends, inside⟩ := Token.scan_wellFormed scanned
  exact ⟨tokens, last, rfl, scanned, inside, fits, ends⟩

theorem stream (scans : ScansAs text tokens last) :
    Grammar.Stream.ofTokens (tokens ++ [last]) = ⟨tokens, last⟩ :=
  Grammar.ofTokens_append scans.ends fun token member => (scans.inside token member).2

/-- How far the second of two texts is moved by the first one and a line end. -/
def behind (text : String) : Token → Token :=
  Token.moved (text.utf8ByteSize + 1) (1 + newlines text.toList)

theorem joined (scans : ScansAs text tokens last) (also : ScansAs other others final) :
    ScansAs (text ++ "\n" ++ other) (tokens ++ others.map (behind text)) (behind text final) where
  scanned := by
    rw [Token.scan_joined scans.scanned, also.scanned, List.dropLast_concat]
    simp [behind]
  inside := by
    refine List.forall_mem_append.mpr ⟨scans.inside, ?_⟩
    exact List.forall_mem_map.mpr also.inside
  fits := also.fits
  ends := also.ends

theorem map_symbol_behind :
    (others.map (behind text)).map Token.symbol = others.map Token.symbol := by
  rw [List.map_map]
  rfl

end Token.ScansAs

/-- A text with its tokens and the program that they spell. -/
structure Reading (text : String) where
  tokens : List Token
  last : Token
  scans : Token.ScansAs text tokens last
  written : Surface.Program
  spelled : tokens.map Token.symbol = written.spelling

namespace Reading

open Scriptlet.Token (ScansAs)
open Scriptlet.Surface (Renumbered)

variable {text other : String}

def lines (reading : Reading text) : List Nat :=
  (reading.tokens ++ [reading.last]).map Token.line

/-- The tree of the program, with the lines of the text. -/
def program (reading : Reading text) : Program :=
  reading.written.desugar reading.lines

theorem length_spelling (reading : Reading text) :
    reading.written.spelling.length = reading.tokens.length := by
  rw [← reading.spelled, List.length_map]

/-- The reading of two texts with a line end between them. -/
def join (first : Reading text) (second : Reading other) :
    Reading (text ++ "\n" ++ other) where
  tokens := first.tokens ++ second.tokens.map (ScansAs.behind text)
  last := ScansAs.behind text second.last
  scans := first.scans.joined second.scans
  written := first.written.append second.written
  spelled := by
    rw [List.map_append, ScansAs.map_symbol_behind, first.spelled, second.spelled,
      Surface.Program.spelling_append]

theorem lines_join (first : Reading text) (second : Reading other) :
    (first.join second).lines = first.tokens.map Token.line ++
      second.lines.map (· + (1 + newlines text.toList)) := by
  simp [lines, join, ScansAs.behind, Token.moved]

/-- The declarations of two texts stand one behind the other, those of the second one further
down. -/
theorem program_join (first : Reading text) (second : Reading other) :
    (first.join second).program = ⟨first.program.declarations ++
      second.program.declarations.map (Stmt.mapLines (· + (1 + newlines text.toList)))⟩ := by
  have length : (first.tokens.map Token.line).length = first.written.spelling.length := by
    rw [List.length_map, first.length_spelling]
  have fits : second.written.spelling.length ≤ second.lines.length := by
    simp [lines, second.length_spelling]
  have front := first.written.desugar_upTo
    (length ▸ Renumbered.append (first.tokens.map Token.line) [first.last.line]
      (second.lines.map (· + (1 + newlines text.toList))))
  have back := second.written.desugar_renumbered
    ((Renumbered.map (· + (1 + newlines text.toList)) second.lines).upTo fits)
  have own : first.lines = first.tokens.map Token.line ++ [first.last.line] := by simp [lines]
  rw [program, lines_join, join, Surface.Program.desugar_append, ← length, List.drop_left, front,
    back, program, own, program]

end Reading

namespace NamedSource

variable {source : NamedSource}

private theorem program_eq_ok {program : Program} : source.program = .ok program ↔
    ∃ tokens, Token.scan source.text = .ok tokens ∧ Grammar.parse tokens = .ok program := by
  rw [NamedSource.program, NamedSource.tokens]
  cases Token.scan source.text with
  | error error =>
    constructor
    · intro read
      cases read
    · intro given
      obtain ⟨tokens, scanned, _⟩ := given
      cases scanned
  | ok tokens =>
    constructor
    · exact fun read => ⟨tokens, rfl, Except.ok_of_mapError read⟩
    · intro given
      obtain ⟨others, scanned, parsed⟩ := given
      cases scanned
      change (Grammar.parse tokens).mapError _ = _
      rw [parsed]
      rfl

/-- The sources that can be read are those with a reading. -/
theorem exists_reading {program : Program} (read : source.program = .ok program) :
    ∃ reading : Reading source.text, reading.program = program := by
  obtain ⟨all, scanned, parsed⟩ := program_eq_ok.mp read
  obtain ⟨tokens, last, rfl, scans⟩ := Token.ScansAs.of_scan scanned
  obtain ⟨written, spelled, same⟩ := Grammar.parse_reads scans.inside scans.fits scans.ends parsed
  exact ⟨⟨tokens, last, scans, written, spelled⟩, same.symm⟩

private theorem program_of_reading {text : String} (reading : Reading text) (name : String) :
    NamedSource.program ⟨name, text⟩ = .ok reading.program := by
  apply program_eq_ok.mpr
  refine ⟨reading.tokens ++ [reading.last], reading.scans.scanned, ?_⟩
  exact Grammar.parse_accepts reading.written reading.spelled reading.scans.ends

end NamedSource

/-- All tokens in front of the end of a source. -/
theorem Grammar.Stream.Reads.all {tokens : List Token} {last : Token} {symbols : List Symbol}
    (spelled : tokens.map Token.symbol = symbols) :
    Grammar.Stream.Reads ⟨tokens, last⟩ symbols ⟨[], last⟩ :=
  ⟨tokens, (List.append_nil tokens).symm, spelled, rfl⟩

namespace Source

open Scriptlet.Grammar (Stream)
open Scriptlet.Grammar.Parser
open Scriptlet.Token (ScansAs)

variable {files : FileSystem} {place : Place} {rest : Stream} {journey after : Journey}
  {result : Except CompileError (List Stmt)}

/-- The place in the same file from which the rest is left. -/
def Place.at (place : Place) (rest : Stream) : Place := { place with stream := rest }

private theorem Place.item?_of_item {first : Grammar.Item} (some : place.stream.ahead ≠ [])
    (read : Grammar.item place.stream = .ok (first, rest)) :
    place.item? = Option.some (.ok (first, place.at rest)) := by
  have ahead : place.stream.ahead.isEmpty = false := by simpa using some
  have run : Grammar.item.run place.stream = .ok (first, rest) := read
  rw [Place.item?, ahead, run]
  rfl

private theorem noElse_of_reads {statements : List Surface.Stmt} {stream : Stream}
    (proper : ∀ statement ∈ statements, statement.WellFormed false)
    (reads : stream.Reads (Surface.Stmt.spellings statements) rest)
    (ends : rest.current.kind ≠ .elseWord) : stream.current.kind ≠ .elseWord := by
  cases statements with
  | nil =>
    cases Stream.reads_nil.mp reads
    exact ends
  | cons first others =>
    obtain ⟨symbol, symbols, same, starts⟩ := (proper first (List.mem_cons_self ..)).head
    rw [Surface.Stmt.spellings, same] at reads
    rw [Grammar.current_of_reads reads]
    intro other
    rw [other] at starts
    cases starts

/-- A walk comes by all declarations of a program that stand in front of a place. -/
theorem Walk.declarations {statements : List Surface.Stmt}
    (proper : ∀ statement ∈ statements, statement.WellFormed false)
    (reads : place.stream.Reads (Surface.Stmt.spellings statements) rest)
    (ends : rest.current.kind ≠ .elseWord)
    (walk : Walk files (.ok (place.at rest)) journey result after) :
    Walk files (.ok place) journey
      (result.map (Surface.Stmt.desugarAll statements place.stream.lines ++ ·)) after := by
  induction statements generalizing place with
  | nil =>
    cases Stream.reads_nil.mp reads
    cases result <;> exact walk
  | cons first others ih =>
    obtain ⟨head, tail⟩ := List.forall_mem_cons.mp proper
    obtain ⟨middle, start, behind⟩ := reads.split first.spelling
    have read := Grammar.item_accepts head start (noElse_of_reads tail behind ends)
    have some : place.stream.ahead ≠ [] := by
      obtain ⟨symbol, symbols, same, _⟩ := head.head
      rw [same] at start
      exact (Stream.reads_cons.mp start).1
    have following : Walk files (.ok (place.at middle)) journey _ after := ih tail behind walk
    have whole := Walk.declaration (place.item?_of_item some read) following
    simp only [Place.at, start.lines] at whole
    cases result <;> exact whole

/-- The symbols of a directive. -/
def directiveSpelling (target : String) : List Symbol :=
  [.mark .includeWord, .value (.string target), .mark .semicolon]

private theorem item_inclusion {stream : Stream} {target : String}
    (reads : stream.Reads (directiveSpelling target) rest) :
    Grammar.item stream = .ok (.inclusion stream.current target, rest) := by
  obtain ⟨behind, word, following⟩ := reads.split [.mark .includeWord]
  obtain ⟨_, symbol, closed⟩ := Stream.reads_cons.mp following
  have kind : behind.current.kind = .stringLiteral := Grammar.kind_of_symbol symbol
  have literal : behind.current.literal = some (.value (.string target)) :=
    Grammar.literal_of_symbol symbol
  have read : Grammar.includeTarget behind = .ok (target, rest) := by
    simp only [Grammar.includeTarget, bind_apply, peek_apply, kind, literal, advance_apply,
      expect_mark closed, pure_apply]
  simp only [Grammar.item, bind_apply, take?_mark word, read, pure_apply]

/-- The walk through what is left of a file collects the trees of the program that is left. -/
theorem Walk.program (written : Surface.Program) {last : Token}
    (reads : place.stream.Reads written.spelling ⟨[], last⟩) (ends : last.kind = .endOfFile) :
    Walk files (.ok place) journey (.ok (written.desugar place.stream.lines).declarations)
      journey := by
  have noElse : (Stream.mk [] last).current.kind ≠ .elseWord := by
    simp [Stream.current, ends]
  have ended : Walk files (.ok (place.at ⟨[], last⟩)) journey (.ok []) journey := .finished rfl
  have whole := Walk.declarations written.wellFormed reads noElse ended
  simp only [Except.map, List.append_nil] at whole
  exact whole

private theorem Place.ofFile_of_scansAs {reference : Reference} {text : String}
    {tokens : List Token} {last : Token} (read : files.read reference.canonical = .ok text)
    (scans : ScansAs text tokens last) :
    Place.ofFile files reference =
      .ok ⟨⟨reference.path, text⟩, reference.canonical, ⟨tokens, last⟩⟩ := by
  simp only [Place.ofFile, read, NamedSource.tokens, scans.scanned, Except.mapError, Except.map,
    scans.stream]

/-- The walk through a file whose text has a reading. -/
theorem Walk.reading {text : String} (reading : Reading text) {reference : Reference}
    (read : files.read reference.canonical = .ok text) :
    Walk files (Place.ofFile files reference) journey (.ok reading.program.declarations)
      journey := by
  rw [Place.ofFile_of_scansAs read reading.scans]
  exact Walk.program reading.written (.all reading.spelled) reading.scans.ends

/-- A file with a directive on a line of its own, between two texts, and another file with its
text, which the directive includes. -/
structure Inclusion (files : FileSystem) (path front text back : String) where
  canonical : String
  found : files.canonical path = .ok canonical
  directive : String
  read : files.read canonical = .ok (front ++ "\n" ++ directive ++ "\n" ++ back)
  target : String
  spelled : (Token.scan directive).map (List.map Token.symbol) =
    .ok (directiveSpelling target ++ [.mark .endOfFile])
  included : String
  reached : files.canonical (targetPath canonical target) = .ok included
  another : included ≠ canonical
  content : files.read included = .ok text

namespace Inclusion

variable {path front text back : String}

/-- The text of the file. -/
def source (inclusion : Inclusion files path front text back) : String :=
  front ++ "\n" ++ inclusion.directive ++ "\n" ++ back

/-- The tokens of a directive. -/
theorem scansAs (inclusion : Inclusion files path front text back) :
    ∃ tokens last, ScansAs inclusion.directive tokens last ∧ tokens.map Token.symbol =
      directiveSpelling inclusion.target := by
  obtain ⟨all, scanned, spelled⟩ := Except.ok_of_map inclusion.spelled
  obtain ⟨tokens, last, rfl, scans⟩ := ScansAs.of_scan scanned
  refine ⟨tokens, last, scans, ?_⟩
  have front := congrArg List.dropLast spelled
  rw [List.map_append, List.map_singleton, List.dropLast_concat] at front
  exact front

/-- The walk through a file with a directive collects the declarations of the included file
between those in front of the directive and those behind it. -/
theorem walk (inclusion : Inclusion files path front text back) (first third : Surface.Program)
    (second : Reading text) {tokens : List Token} {last : Token}
    (scans : ScansAs inclusion.source tokens last)
    (spelled : tokens.map Token.symbol =
      first.spelling ++ (directiveSpelling inclusion.target ++ third.spelling)) :
    ∃ lines others after,
      Walk files (Place.ofFile files ⟨path, inclusion.canonical, none⟩) (.start inclusion.canonical)
        (.ok ((first.desugar lines).declarations ++
          (second.program.declarations ++ (third.desugar others).declarations))) after := by
  obtain ⟨middle, start, following⟩ := (Stream.Reads.all spelled).split first.spelling
  obtain ⟨tail, directed, behind⟩ := following.split (directiveSpelling inclusion.target)
  rw [Place.ofFile_of_scansAs inclusion.read scans]
  let root : Place := ⟨⟨path, inclusion.source⟩, inclusion.canonical, ⟨tokens, last⟩⟩
  let place : Place := root.at middle
  have noElse : middle.current.kind ≠ .elseWord := by
    rw [Grammar.current_of_reads directed]
    simp
  have read := place.item?_of_item (Stream.reads_cons.mp directed).1 (item_inclusion directed)
  have fresh : inclusion.included ∉ (Journey.start inclusion.canonical).visited := by
    simpa [Journey.start] using inclusion.another
  have rest (journey : Journey) : Walk files (.ok (place.at tail)) journey _ journey :=
    Walk.program third behind scans.ends
  have there : Walk files (.ok (root.at middle)) _ _ _ :=
    .included read inclusion.reached fresh (.reading second inclusion.content) (rest _)
  have whole : Walk files (.ok root) _ _ _ :=
    .declarations first.wellFormed start noElse there
  exact ⟨_, _, _, whole⟩

/-- Loading a file with a directive gives, up to line numbers, what its text would be read as
with the text of the included file in place of the directive. -/
theorem load_pasted (inclusion : Inclusion files path front text back) (first : Reading front)
    (second : Reading text) (third : Reading back) :
    ∃ loaded, load files path = .ok loaded ∧
      loaded.program.withoutLines = ((first.join second).join third).program.withoutLines := by
  obtain ⟨words, stop, scans, spelled⟩ := inclusion.scansAs
  have whole := (first.scans.joined scans).joined third.scans
  obtain ⟨lines, others, after, walk⟩ := inclusion.walk first.written third.written second whole
    (by simp only [List.map_append, ScansAs.map_symbol_behind, first.spelled, spelled,
      third.spelled, List.append_assoc])
  obtain ⟨_, loads⟩ := loads_load files path
  obtain ⟨same, _⟩ := loads.unique (.walked inclusion.found walk)
  refine ⟨_, same, ?_⟩
  have pasted : ((first.join second).join third).program.withoutLines =
      ((first.written.append second.written).append third.written).desugar [] :=
    Surface.Program.withoutLines_desugar ..
  rw [pasted, Surface.Program.desugar_append, Surface.Program.desugar_append]
  simp only [Program.withoutLines, Stmt.allWithoutLines_append, Reading.program,
    Surface.Program.allWithoutLines_desugar, List.drop_nil, List.append_assoc]

end Inclusion

end Source

/-- A line end between two sources that can be read makes one source that can be read. Its
declarations are those of the first source and then those of the second one, in which all lines
are further down by the lines of the first. So to include a file between two texts and to paste
its text there gives the same program, up to line numbers. -/
theorem NamedSource.program_joined {first second : NamedSource} {program other : Program}
    (read : first.program = .ok program) (also : second.program = .ok other) (name : String) :
    NamedSource.program ⟨name, first.text ++ "\n" ++ second.text⟩ =
        .ok ⟨program.declarations ++
          other.declarations.map (Stmt.mapLines (· + (1 + newlines first.text.toList)))⟩ ∧
      ∀ (files : Source.FileSystem) (path : String) (third : NamedSource) (last : Program),
        third.program = .ok last →
        Source.Inclusion files path first.text second.text third.text →
          ∃ loaded pasted, Source.load files path = .ok loaded ∧
            NamedSource.program
              ⟨name, first.text ++ "\n" ++ second.text ++ "\n" ++ third.text⟩ = .ok pasted ∧
            loaded.program.withoutLines = pasted.withoutLines := by
  obtain ⟨one, rfl⟩ := exists_reading read
  obtain ⟨two, rfl⟩ := exists_reading also
  refine ⟨?_, ?_⟩
  · rw [program_of_reading (one.join two), one.program_join]
  · intro files path third last more inclusion
    obtain ⟨three, rfl⟩ := exists_reading more
    obtain ⟨loaded, success, same⟩ := inclusion.load_pasted one two three
    exact ⟨loaded, _, success, program_of_reading ((one.join two).join three) name, same⟩

/-- A source that ends with an `if` without an `else` and a comment without a line end. -/
def openBranch : NamedSource :=
  ⟨"branch", "func one(): int \x7b return 1; \x7d\nif (true) one(); // end"⟩

/-- A source that could go on with an expression in front of it. -/
def negation : NamedSource := ⟨"negation", "-1;\nfunc two(): int \x7b return 2; \x7d"⟩

def addition : NamedSource := ⟨"addition", "one() + two();"⟩

/-- A file that includes the negation between the other two sources. -/
def negationFiles : Source.FileSystem :=
  .ofTables [("main", .ok "/main"), ("/negation", .ok "/negation")]
    [("/main", .ok (openBranch.text ++ "\n" ++ "include \"negation\";" ++ "\n" ++ addition.text)),
      ("/negation", .ok negation.text)]

def negationIncluded :
    Source.Inclusion negationFiles "main" openBranch.text negation.text addition.text where
  canonical := "/main"
  found := rfl
  directive := "include \"negation\";"
  read := rfl
  target := "negation"
  spelled := by decide +kernel
  included := "/negation"
  reached := by decide +kernel
  another := by decide
  content := rfl

theorem openBranch_joined : ∃ program other loaded pasted,
    openBranch.program = .ok program ∧ negation.program = .ok other ∧
      NamedSource.program ⟨"both", openBranch.text ++ "\n" ++ negation.text⟩ =
        .ok ⟨program.declarations ++ other.declarations.map (Stmt.mapLines (· + 2))⟩ ∧
      Source.load negationFiles "main" = .ok loaded ∧
      NamedSource.program
        ⟨"both", openBranch.text ++ "\n" ++ negation.text ++ "\n" ++ addition.text⟩ = .ok pasted ∧
      loaded.program.withoutLines = pasted.withoutLines := by
  have exists_program (source : NamedSource) (ok : source.program.isOk = true) :
      ∃ program, source.program = .ok program := by
    cases read : source.program with
    | error error =>
      rw [read] at ok
      cases ok
    | ok program => exact ⟨program, rfl⟩
  obtain ⟨program, read⟩ := exists_program openBranch (by decide +kernel)
  obtain ⟨other, also⟩ := exists_program negation (by decide +kernel)
  obtain ⟨last, more⟩ := exists_program addition (by decide +kernel)
  obtain ⟨joined, included⟩ := NamedSource.program_joined read also "both"
  obtain ⟨loaded, pasted, same⟩ := included _ _ addition last more negationIncluded
  exact ⟨program, other, loaded, pasted, read, also, joined, same⟩

end Scriptlet
