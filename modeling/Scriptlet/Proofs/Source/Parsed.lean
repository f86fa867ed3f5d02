import Scriptlet.Proofs.Except
import Scriptlet.Proofs.Grammar.StatementSound
import Scriptlet.Source.Include

/-! Programs that were read from sources, alone or with the files they include. All their
declarations have the shape of the grammar, wherever they come from. -/
namespace Scriptlet

namespace Grammar

open Scriptlet.Grammar.Parser

variable {stream rest : Stream}

private theorem Stream.WellFormed.advance (proper : stream.WellFormed) :
    stream.advance.WellFormed :=
  ⟨fun token member => proper.each token (List.mem_of_mem_tail member), proper.last, proper.ends⟩

theorem SpellsStatement.shaped {declarations inLoop : Bool} {tree : Stmt}
    (spells : SpellsStatement declarations inLoop stream rest tree) : tree.Shaped inLoop := by
  obtain ⟨written, wellFormed, _, _, _, rfl⟩ := spells
  exact wellFormed.shaped _

/-- Behind the target of an include stands the semicolon that ends it. -/
theorem includeTarget_reads {target : String} (proper : stream.WellFormed)
    (success : includeTarget stream = .ok (target, rest)) :
    stream.advance.Reads [.mark .semicolon] rest := by
  rw [includeTarget, bind_apply] at success
  simp only [peek_apply] at success
  generalize stream.current.kind = kind at success
  generalize stream.current.literal = literal at success
  cases kind
  case stringLiteral =>
    rcases literal with _ | name | value
    · cases success
    · cases success
    · cases value
      case string text =>
        simp only [bind_eq_ok, advance_apply] at success
        obtain ⟨_, _, advanced, _, _, closed, success⟩ := success
        cases advanced
        cases success
        exact expect_reads proper.advance rfl closed
      all_goals cases success
  all_goals cases success

/-- What is left behind an item is well-formed again and shorter, and a declaration has its
shape. -/
theorem item_shaped {first : Item} (proper : stream.WellFormed)
    (success : item stream = .ok (first, rest)) :
    rest.WellFormed ∧ rest.ahead.length < stream.ahead.length ∧
      ∀ tree, first = .declaration tree → tree.Shaped false := by
  cases first with
  | declaration tree =>
    have spells := item_reads proper success
    have shaped := spells.shaped
    obtain ⟨_, wellFormed, _, spelled, _, _⟩ := spells
    obtain ⟨symbol, symbols, same, _⟩ := wellFormed.head
    have length := spelled.length
    rw [same, List.length_cons] at length
    refine ⟨spelled.wellFormed proper, by omega, ?_⟩
    rintro _ ⟨⟩
    exact shaped
  | inclusion keyword target =>
    simp only [item, bind_eq_ok] at success
    obtain ⟨found, middle, taken, success⟩ := success
    rcases take?_reads proper rfl taken with ⟨rfl, rfl, _⟩ | ⟨⟨token, rfl⟩, word⟩
    · simp only [bind_eq_ok, pure_apply] at success
      obtain ⟨_, _, _, success⟩ := success
      cases success
    · simp only [bind_eq_ok, pure_apply] at success
      obtain ⟨_, _, read, success⟩ := success
      cases success
      have behind := word.wellFormed proper
      have closed := includeTarget_reads behind read
      have front := word.length
      have back := closed.length
      simp only [Stream.advance, List.length_tail, List.length_singleton] at front back
      exact ⟨closed.wellFormed behind.advance, by omega, by rintro _ ⟨⟩⟩

private theorem outline_shaped (count : Nat) {tree : Stmt} (proper : stream.WellFormed)
    (member : .declaration tree ∈ (Outline.read count stream).items) : tree.Shaped false := by
  induction count generalizing stream with
  | zero => cases member
  | succ count ih =>
    rw [Outline.read] at member
    split at member
    · cases member
    · split at member
      · cases member
      · rename_i first rest read
        obtain ⟨behind, _, shaped⟩ := item_shaped proper read
        rcases List.mem_cons.mp member with same | member
        · exact shaped tree same.symm
        · exact ih behind member

theorem wellFormed_of_scan {text : String} {tokens : List Token}
    (scanned : Token.scan text = .ok tokens) : (Stream.ofTokens tokens).WellFormed := by
  obtain ⟨front, last, rfl, fits, ends, each⟩ := Token.scan_wellFormed scanned
  rw [ofTokens_append ends fun token inside => (each token inside).2]
  exact ⟨each, fits, ends⟩

/-- The declarations in the outline of scanned tokens have the shape of the grammar. -/
theorem shaped_of_scan {text : String} {tokens : List Token} {tree : Stmt}
    (scanned : Token.scan text = .ok tokens)
    (member : .declaration tree ∈ (Outline.ofTokens tokens).items) : tree.Shaped false :=
  outline_shaped _ (wellFormed_of_scan scanned) member

end Grammar

namespace NamedSource

variable {source : NamedSource}

theorem scan_of_tokens {tokens : List Token} (success : source.tokens = .ok tokens) :
    Token.scan source.text = .ok tokens :=
  Except.ok_of_mapError success

private theorem program_shaped {program : Program} (success : source.program = .ok program) :
    ∀ declaration ∈ program.declarations, declaration.Shaped false := by
  rw [NamedSource.program] at success
  cases scanned : source.tokens with
  | error error =>
    rw [scanned] at success
    cases success
  | ok tokens =>
    rw [scanned] at success
    have parsed : Grammar.parse tokens = .ok program := Except.ok_of_mapError success
    obtain ⟨trees, found, rfl⟩ := Except.ok_of_map parsed
    intro declaration member
    refine Grammar.shaped_of_scan (scan_of_tokens scanned) ?_
    rw [(Grammar.declarations_eq_ok found).1]
    exact List.mem_map_of_mem member

end NamedSource

namespace Source

open Scriptlet.Grammar.Parser (bind_apply bind_eq_ok)

variable {files : FileSystem} {source : NamedSource}

/-- All results of a loader have the shape of the grammar. -/
def Loader.Shaped (loader : Loader (List Stmt)) : Prop :=
  ∀ visits after declarations, loader visits = .ok (declarations, after) →
    ∀ declaration ∈ declarations, declaration.Shaped false

private theorem splice_shaped {inclusion : String → Loader (List Stmt)}
    (included : ∀ target, (inclusion target).Shaped) (items : List Grammar.Item)
    (error : Option Grammar.Error) (each : ∀ tree, .declaration tree ∈ items → tree.Shaped false) :
    (splice inclusion source items error).Shaped := by
  induction items with
  | nil =>
    intro visits after declarations success
    cases error with
    | none =>
      cases success
      simp
    | some error => cases success
  | cons first rest ih =>
    have behind := ih fun tree member => each tree (List.mem_cons_of_mem _ member)
    intro visits after declarations success
    cases first with
    | inclusion keyword target =>
      simp only [splice, bind_eq_ok] at success
      obtain ⟨others, middle, found, following, final, spliced, success⟩ := success
      cases success
      exact List.forall_mem_append.mpr ⟨included target _ _ _ found, behind _ _ _ spliced⟩
    | declaration statement =>
      simp only [splice, bind_eq_ok] at success
      obtain ⟨following, final, spliced, success⟩ := success
      cases success
      exact List.forall_mem_cons.mpr
        ⟨each statement (List.mem_cons_self ..), behind _ _ _ spliced⟩

private theorem visit_shaped {file : Reference → Loader (List Stmt)} {reference : Reference}
    (opened : (file reference).Shaped) : (visit file reference).Shaped := by
  intro visits after declarations success
  rw [visit, bind_eq_ok] at success
  obtain ⟨_, _, got, success⟩ := success
  cases got
  split at success
  · cases success
    simp
  · rw [bind_eq_ok] at success
    obtain ⟨_, middle, _, read⟩ := success
    exact opened _ _ _ read

private theorem inclusion_shaped {file : Reference → Loader (List Stmt)}
    (opened : ∀ reference, (file reference).Shaped) (origin target : String) :
    (inclusion files file origin target).Shaped := by
  intro visits after declarations success
  rw [inclusion] at success
  cases found : files.canonical (targetPath origin target) with
  | error fault =>
    simp only [found] at success
    cases success
  | ok canonical =>
    simp only [found, bind_eq_ok] at success
    obtain ⟨_, middle, _, visited⟩ := success
    exact visit_shaped (opened _) _ _ _ visited

private theorem fileUpTo_shaped (depth : Nat) (reference : Reference) :
    (fileUpTo files depth reference).Shaped := by
  induction depth generalizing reference with
  | zero =>
    intro visits after declarations success
    cases success
  | succ depth ih =>
    intro visits after declarations success
    rw [fileUpTo] at success
    cases found : files.read reference.canonical with
    | error fault =>
      simp only [found] at success
      cases success
    | ok text =>
      simp only [found, bind_eq_ok] at success
      obtain ⟨tokens, middle, lifted, spliced⟩ := success
      have scanned : NamedSource.tokens ⟨reference.path, text⟩ = .ok tokens := by
        generalize NamedSource.tokens ⟨reference.path, text⟩ = result at lifted
        cases result with
        | error error => cases lifted
        | ok found =>
          cases lifted
          rfl
      exact splice_shaped (inclusion_shaped (ih ·) _) _ _
        (fun tree => Grammar.shaped_of_scan (NamedSource.scan_of_tokens scanned)) _ _ _ spliced

private theorem load_shaped {path : String} {loaded : Loaded}
    (success : load files path = .ok loaded) :
    ∀ declaration ∈ loaded.program.declarations, declaration.Shaped false := by
  rw [load] at success
  cases found : files.canonical path with
  | error fault =>
    simp only [found] at success
    cases success
  | ok canonical =>
    simp only [found] at success
    cases read : fileUpTo files (files.contents.length + 1) ⟨path, canonical, none⟩
        ⟨[canonical], []⟩ with
    | error error =>
      simp only [StateT.run, read] at success
      cases success
    | ok result =>
      obtain ⟨declarations, visits⟩ := result
      simp only [StateT.run, read] at success
      cases success
      exact fileUpTo_shaped _ _ _ _ _ read

end Source

/-- Programs that were read from one source, or from a file with all it includes. -/
inductive Program.Parsed : Program → Prop where
  | source {source : NamedSource} {program : Program} (read : source.program = .ok program) :
      Parsed program
  | file {files : Source.FileSystem} {path : String} {loaded : Source.Loaded}
      (read : Source.load files path = .ok loaded) : Parsed loaded.program

theorem Program.Parsed.shaped {program : Program} (parsed : program.Parsed) :
    ∀ declaration ∈ program.declarations, declaration.Shaped false := by
  cases parsed with
  | source read => exact NamedSource.program_shaped read
  | file read => exact Source.load_shaped read

end Scriptlet
