import Scriptlet.Proofs.Token.Arrangement

/-! What scanned literals stand for: names that are no keywords, texts without a quote, integers
that are not negative, and numbers nearest to a decimal fraction. -/
namespace Scriptlet

open Scriptlet.Lexeme (isWordStart isWordPart)

/-- A word that is not a keyword. -/
structure IsName (name : String) : Prop where
  spelled : ∃ first tail, name.toList = first :: tail ∧ isWordStart first = true ∧
    ∀ part ∈ tail, isWordPart part = true
  free : Kind.ofKeyword? name = none

/-- What literals of a source can stand for. -/
def Literal.Scanned : Literal → Prop
  | identifier name => IsName name
  | value (.string text) => '"' ∉ text.toList
  | value (.int number) => 0 ≤ number.toInt
  | value (.double number) => ∃ digits places, number = Number.ofDecimal digits places
  | value (.bool _) => True

namespace Lexeme

private theorem not_mem_unescape {body : List Char} (inside : '"' ∉ body) :
    '"' ∉ unescape body := by
  fun_induction unescape body with
  | case1 => exact inside
  | case2 rest ih => simp_all
  | case3 rest ih => simp_all
  | case4 character rest _ _ ih => simp_all

theorem toInt_ofNat {number : Nat} (fits : number ≤ largestInt) :
    (Int64.ofNat number).toInt = number := by
  rw [Int64.toInt_ofNat_of_lt]
  exact Nat.lt_succ_of_le fits

private theorem word_scanned {first : Char} {tail : List Char} (leading : isWordStart first = true)
    (each : ∀ part ∈ tail, isWordPart part = true) :
    ∀ literal ∈ (word first tail).literal, literal.Scanned := by
  intro literal present
  simp only [word, takeWhile_all each] at present
  split at present
  · cases present
    trivial
  · cases present
  · rename_i free
    cases present
    exact ⟨⟨first, tail, String.toList_ofList, leading, each⟩, free⟩

theorem Spelled.scanned {text : List Char} {lexeme : Lexeme} (spelled : Spelled text lexeme) :
    ∀ literal ∈ lexeme.literal, literal.Scanned := by
  cases spelled with
  | string inside =>
    rintro _ ⟨⟩
    simpa [Literal.Scanned] using not_mem_unescape inside
  | int leading each fits =>
    rintro _ ⟨⟩
    rw [Literal.Scanned, toInt_ofNat fits]
    exact Int.natCast_nonneg _
  | double leading each behind some =>
    rintro _ ⟨⟩
    exact ⟨_, _, rfl⟩
  | word leading each => exact word_scanned leading each
  | pair known => rintro _ ⟨⟩
  | symbol known => rintro _ ⟨⟩

end Lexeme

namespace Token

open Scriptlet.Piece (Arranged)

private theorem arranged_scanned {pieces : List Piece} {final : List Char}
    (arranged : Arranged pieces final) (place : Text.Position) :
    ∀ token ∈ Piece.tokens place pieces final, ∀ literal ∈ token.literal, literal.Scanned := by
  induction arranged generalizing place with
  | final layout =>
    intro token member literal present
    obtain rfl := List.mem_singleton.mp member
    cases present
  | piece layout spelled ends behind ih => exact List.forall_mem_cons.mpr ⟨spelled.scanned, ih _⟩

/-- Literals of scanned tokens stand for what can be written. -/
theorem scan_scanned {source : String} {tokens : List Token} (success : scan source = .ok tokens) :
    ∀ token ∈ tokens, ∀ literal ∈ token.literal, literal.Scanned := by
  obtain ⟨pieces, final, arranged, _, rfl⟩ := exists_arranged success
  exact arranged_scanned arranged _

end Token

end Scriptlet
