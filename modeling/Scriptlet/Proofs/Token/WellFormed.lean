import Scriptlet.Proofs.Surface.Spelling
import Scriptlet.Token.Scan

/-! Tokens whose literal fits their kind. Scanning produces no others. -/
namespace Scriptlet

/-- Kinds whose tokens carry a literal. -/
def Kind.carriesLiteral : Kind → Bool
  | identifier => true
  | stringLiteral => true
  | intLiteral => true
  | doubleLiteral => true
  | boolLiteral => true
  | _ => false

/-- Kinds of symbols and keywords. -/
def Kind.isMark (kind : Kind) : Bool := !kind.carriesLiteral && kind != endOfFile

def Symbol.WellFormed (symbol : Symbol) : Prop :=
  match symbol.literal with
  | some literal => symbol.kind = literal.kind
  | none => symbol.kind.carriesLiteral = false

def Token.WellFormed (token : Token) : Prop := token.symbol.WellFormed

instance : DecidablePred Symbol.WellFormed
  | ⟨kind, some literal⟩ => inferInstanceAs (Decidable (kind = literal.kind))
  | ⟨kind, none⟩ => inferInstanceAs (Decidable (kind.carriesLiteral = false))

instance : DecidablePred Token.WellFormed :=
  fun token => inferInstanceAs (Decidable token.symbol.WellFormed)

theorem Symbol.WellFormed.eq_mark {symbol : Symbol} (fits : symbol.WellFormed)
    (mark : symbol.kind.isMark = true) : symbol = .mark symbol.kind := by
  obtain ⟨kind, literal⟩ := symbol
  cases literal with
  | none => rfl
  | some literal =>
    have same : kind = literal.kind := fits
    subst same
    cases literal with
    | identifier name => cases mark
    | value value => cases value <;> cases mark

theorem Symbol.WellFormed.eq_name {symbol : Symbol} {text : String} (fits : symbol.WellFormed)
    (found : symbol.literal = some (.identifier text)) : symbol = .name text := by
  obtain ⟨kind, literal⟩ := symbol
  subst found
  have same : kind = .identifier := fits
  subst same
  rfl

private theorem Kind.isMark_of_keyword {text : String} {kind : Kind}
    (found : Kind.ofKeyword? text = some kind) (other : kind ≠ .boolLiteral) :
    kind.isMark = true := by
  unfold Kind.ofKeyword? at found
  split at found <;> simp_all <;> subst found <;> rfl

private theorem Kind.isMark_of_symbol {character : Char} {kind : Kind}
    (found : Kind.ofSymbol? character = some kind) : kind.isMark = true := by
  unfold Kind.ofSymbol? at found
  split at found <;> simp_all <;> subst found <;> rfl

private theorem Kind.isMark_of_symbolPair {first second : Char} {kind : Kind}
    (found : Kind.ofSymbolPair? first second = some kind) : kind.isMark = true := by
  unfold Kind.ofSymbolPair? at found
  split at found <;> simp_all <;> subst found <;> rfl

namespace Lexeme

/-- A lexeme that becomes a well-formed token in front of the end of the source. -/
def Proper (lexeme : Lexeme) : Prop :=
  Symbol.WellFormed ⟨lexeme.kind, lexeme.literal⟩ ∧ lexeme.kind ≠ .endOfFile

private theorem proper_of_mark {kind : Kind} {extent : Nat} (mark : kind.isMark = true) :
    Proper ⟨kind, none, extent⟩ := by
  have parts : kind.carriesLiteral = false ∧ kind ≠ .endOfFile := by
    simpa [Kind.isMark] using mark
  exact parts

private theorem proper_int {digits : List Char} {lexeme : Lexeme}
    (success : int digits = .ok lexeme) : lexeme.Proper := by
  unfold int at success
  split at success
  · cases success
    exact ⟨rfl, by simp⟩
  · cases success

private theorem proper_number {first : Char} {rest : List Char} {lexeme : Lexeme}
    (success : number first rest = .ok lexeme) : lexeme.Proper := by
  unfold number at success
  simp only at success
  split at success
  · split at success
    · exact proper_int success
    · cases success
      exact ⟨rfl, by simp [double]⟩
  · exact proper_int success

private theorem proper_word (first : Char) (rest : List Char) : (word first rest).Proper := by
  unfold word
  simp only
  split
  · exact ⟨rfl, by simp⟩
  · rename_i kind other found
    exact proper_of_mark (Kind.isMark_of_keyword found (by rintro rfl; exact other rfl))
  · exact ⟨rfl, by simp⟩

private theorem proper_symbol {first : Char} {rest : List Char} {lexeme : Lexeme}
    (success : symbol first rest = .ok lexeme) : lexeme.Proper := by
  unfold symbol at success
  split at success
  · rename_i kind found
    cases success
    obtain ⟨second, _, pair⟩ := Option.bind_eq_some_iff.mp found
    exact proper_of_mark (Kind.isMark_of_symbolPair pair)
  · split at success
    · rename_i kind found
      cases success
      exact proper_of_mark (Kind.isMark_of_symbol found)
    · cases success

theorem proper_read {first : Char} {rest : List Char} {lexeme : Lexeme}
    (success : read first rest = .ok lexeme) : lexeme.Proper := by
  unfold read at success
  split at success
  · unfold string at success
    simp only at success
    split at success
    · cases success
      exact ⟨rfl, by simp⟩
    · cases success
  · split at success
    · exact proper_number success
    · split at success
      · cases success
        exact proper_word first rest
      · exact proper_symbol success

end Lexeme

namespace Token

open Scriptlet.Text (Position)

private theorem wellFormed_of_step {place next : Position} {source rest : List Char} {token : Token}
    (stepped : step place source = .found token next rest) :
    token.WellFormed ∧ token.kind ≠ .endOfFile := by
  simp only [step] at stepped
  split at stepped
  · contradiction
  · split at stepped
    · contradiction
    · rename_i lexeme success
      injection stepped with same
      subst same
      exact Lexeme.proper_read success

private theorem finished_of_step {place : Position} {source : List Char} {last : Token}
    (stepped : step place source = .finished last) :
    last.WellFormed ∧ last.kind = .endOfFile := by
  simp only [step] at stepped
  split at stepped
  · injection stepped with same
    subst same
    exact ⟨rfl, rfl⟩
  · split at stepped <;> contradiction

/-- Scanned tokens are well-formed, and the last of them is the only one that ends a source. -/
theorem scanFrom_wellFormed (place : Position) (source : List Char) :
    ∀ tokens, scanFrom place source = .ok tokens →
      ∃ front last, tokens = front ++ [last] ∧ last.WellFormed ∧ last.kind = .endOfFile ∧
        ∀ token ∈ front, token.WellFormed ∧ token.kind ≠ .endOfFile := by
  fun_induction scanFrom place source with
  | case1 place source last stepped =>
    intro tokens success
    cases success
    obtain ⟨fits, ends⟩ := finished_of_step stepped
    exact ⟨[], last, rfl, fits, ends, by simp⟩
  | case2 place source error stepped =>
    intro tokens success
    cases success
  | case3 place source token next rest stepped shorter ih =>
    intro tokens success
    cases following : scanFrom next rest with
    | error error => simp [following, Except.map] at success
    | ok others =>
      obtain ⟨front, last, same, fits, ends, each⟩ := ih others following
      have joined : token :: others = tokens := by simpa [following, Except.map] using success
      refine ⟨token :: front, last, by rw [← joined, same]; rfl, fits, ends, ?_⟩
      intro other member
      rcases List.mem_cons.mp member with rfl | member
      · exact wellFormed_of_step stepped
      · exact each other member

theorem scan_wellFormed {source : String} {tokens : List Token}
    (success : scan source = .ok tokens) :
    ∃ front last, tokens = front ++ [last] ∧ last.WellFormed ∧ last.kind = .endOfFile ∧
      ∀ token ∈ front, token.WellFormed ∧ token.kind ≠ .endOfFile :=
  scanFrom_wellFormed _ _ tokens success

end Token

end Scriptlet
