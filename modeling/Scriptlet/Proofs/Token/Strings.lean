import Scriptlet.Proofs.Token.Account
import Scriptlet.Proofs.Token.Literals

/-! What strings stand for. Unescaping leaves no quote and no escape behind, and it changes no
text that has none: such a text can be written between quotes as it is. -/
namespace Scriptlet

namespace Lexeme

/-- Texts without a quote and without a backslash right in front of an `n` or a `t`. -/
structure IsRaw (text : List Char) : Prop where
  noQuote : '"' ∉ text
  noNewline : ¬ ['\\', 'n'] <:+: text
  noTab : ¬ ['\\', 't'] <:+: text

private theorem pair_infix_cons {first second character : Char} {rest : List Char} :
    [first, second] <:+: character :: rest ↔
      (first = character ∧ rest.head? = some second) ∨ [first, second] <:+: rest := by
  rw [List.infix_cons_iff, List.cons_prefix_cons]
  cases rest with
  | nil => simp
  | cons next rest => simp [List.cons_prefix_cons, @eq_comm _ next]

/-- Whether a text is raw shows at each character and the one behind it. -/
theorem isRaw_cons {character : Char} {rest : List Char} :
    IsRaw (character :: rest) ↔ character ≠ '"' ∧
      (character = '\\' → rest.head? ≠ some 'n' ∧ rest.head? ≠ some 't') ∧ IsRaw rest := by
  constructor
  · rintro ⟨noQuote, noNewline, noTab⟩
    rw [List.mem_cons, not_or] at noQuote
    rw [pair_infix_cons, not_or] at noNewline noTab
    refine ⟨Ne.symm noQuote.1, ?_, noQuote.2, noNewline.2, noTab.2⟩
    rintro rfl
    exact ⟨fun next => noNewline.1 ⟨rfl, next⟩, fun next => noTab.1 ⟨rfl, next⟩⟩
  · rintro ⟨other, unescaped, raw⟩
    refine ⟨?_, ?_, ?_⟩
    · rw [List.mem_cons, not_or]
      exact ⟨Ne.symm other, raw.noQuote⟩
    · rw [pair_infix_cons]
      rintro (⟨rfl, next⟩ | inside)
      · exact (unescaped rfl).1 next
      · exact raw.noNewline inside
    · rw [pair_infix_cons]
      rintro (⟨rfl, next⟩ | inside)
      · exact (unescaped rfl).2 next
      · exact raw.noTab inside

private theorem unescape_of_raw {body : List Char} (raw : IsRaw body) : unescape body = body := by
  fun_induction unescape body with
  | case1 => rfl
  | case2 rest ih => exact absurd rfl ((isRaw_cons.mp raw).2.1 rfl).1
  | case3 rest ih => exact absurd rfl ((isRaw_cons.mp raw).2.1 rfl).2
  | case4 character rest noNewline noTab ih => rw [ih (isRaw_cons.mp raw).2.2]

/-- An escape becomes a character that is no letter, so a letter in front has stood there. -/
theorem head?_of_unescape {body : List Char} {letter : Char} (alphabetic : letter.isAlpha = true)
    (leads : (unescape body).head? = some letter) : body.head? = some letter := by
  unfold unescape at leads
  split at leads
  · cases leads
  · cases leads
    cases alphabetic
  · cases leads
    cases alphabetic
  · exact leads

private theorem raw_unescape {body : List Char} (inside : '"' ∉ body) : IsRaw (unescape body) := by
  fun_induction unescape body with
  | case1 => exact ⟨inside, by simp, by simp⟩
  | case2 rest ih =>
    rw [List.mem_cons, List.mem_cons, not_or, not_or] at inside
    exact isRaw_cons.mpr ⟨by decide, fun same => absurd same (by decide), ih inside.2.2⟩
  | case3 rest ih =>
    rw [List.mem_cons, List.mem_cons, not_or, not_or] at inside
    exact isRaw_cons.mpr ⟨by decide, fun same => absurd same (by decide), ih inside.2.2⟩
  | case4 character rest noNewline noTab ih =>
    rw [List.mem_cons, not_or] at inside
    refine isRaw_cons.mpr ⟨Ne.symm inside.1, ?_, ih inside.2⟩
    -- A backslash that is kept has no `n` or `t` behind it, and unescaping puts none there.
    intro backslash
    constructor
    · intro next
      obtain ⟨tail, same⟩ := List.head?_eq_some_iff.mp (head?_of_unescape (by decide) next)
      exact noNewline tail backslash same
    · intro next
      obtain ⟨tail, same⟩ := List.head?_eq_some_iff.mp (head?_of_unescape (by decide) next)
      exact noTab tail backslash same

/-- A raw text between quotes spells a string that stands for it. -/
theorem spelled_raw {text : List Char} (raw : IsRaw text) :
    Spelled ('"' :: (text ++ ['"']))
      ⟨.stringLiteral, some (.value (.string (String.ofList text))), text.length + 1⟩ := by
  have spelled := Spelled.string raw.noQuote
  rwa [unescape_of_raw raw] at spelled

/-- A lexeme that stands for a text stands for a raw one. -/
theorem Spelled.raw {spelling : List Char} {lexeme : Lexeme} {text : String}
    (spelled : Spelled spelling lexeme)
    (stands : lexeme.literal = some (.value (.string text))) : IsRaw text.toList := by
  cases spelled with
  | string inside =>
    cases stands
    rw [String.toList_ofList]
    exact raw_unescape inside
  | int leading each fits => cases stands
  | double leading each behind some => cases stands
  | word leading each =>
    simp only [Lexeme.word] at stands
    split at stands <;> cases stands
  | pair known => cases stands
  | symbol known => cases stands

end Lexeme

namespace Token

open Scriptlet.Lexeme (IsRaw)
open Scriptlet.Text (Position newlines)

private theorem raw_of_scan {source text : String} {tokens : List Token} {token : Token}
    (scanned : scan source = .ok tokens) (member : token ∈ tokens)
    (stands : token.literal = some (.value (.string text))) : IsRaw text.toList := by
  obtain ⟨pieces, final, arranged, rfl, rfl⟩ := arranged_of_scan scanned
  rcases exists_lexeme arranged member with ⟨_, _, _, lexeme, _, spelled, rfl⟩ | rfl
  · exact spelled.raw stands
  · cases stands

private theorem scan_quoted {text : String} (raw : IsRaw text.toList) :
    scan (quoted text) =
      .ok [⟨.stringLiteral, some (.value (.string text)), 1, ⟨0, text.utf8ByteSize + 2⟩⟩,
        ⟨.endOfFile, none, 1 + newlines text.toList, ⟨text.utf8ByteSize + 2, 0⟩⟩] := by
  have written : quoted text = String.ofList ('"' :: (text.toList ++ ['"'])) := by
    apply String.toList_injective
    simp [quoted]
  have bytes : Text.byteLength ('"' :: (text.toList ++ ['"'])) = text.utf8ByteSize + 2 := by
    have inside := Text.utf8ByteSize_ofList text.toList
    have quote : '"'.utf8Size = 1 := rfl
    rw [String.ofList_toList] at inside
    simp only [Text.byteLength_cons, Text.byteLength_append, Text.byteLength_nil, quote, inside]
    omega
  have lines : newlines ('"' :: (text.toList ++ ['"'])) = newlines text.toList := by
    simp [newlines]
  rw [written, scan_spelled (Lexeme.spelled_raw raw)]
  simp [Lexeme.token, endOfFile, Position.start, Position.span, Position.advance, bytes, lines]

/-- Strings stand for raw texts, and for all of them. A raw text between quotes scans to one
string that stands for it, and so does every text that a string of some source stands for. -/
theorem strings_stable :
    (∀ payload : Option Literal,
      (∃ source tokens, scan source = .ok tokens ∧
        ∃ token ∈ tokens, token.kind = .stringLiteral ∧ token.literal = payload) ↔
      ∃ text : String, payload = some (.value (.string text)) ∧ IsRaw text.toList) ∧
    (∀ text : String, IsRaw text.toList → scan (quoted text) =
      .ok [⟨.stringLiteral, some (.value (.string text)), 1, ⟨0, text.utf8ByteSize + 2⟩⟩,
        ⟨.endOfFile, none, 1 + newlines text.toList, ⟨text.utf8ByteSize + 2, 0⟩⟩]) ∧
    ∀ source tokens, scan source = .ok tokens → ∀ token ∈ tokens, ∀ text,
      token.literal = some (.value (.string text)) → ∃ again last,
        scan (quoted text) = .ok [again, last] ∧ again.kind = .stringLiteral ∧
          again.literal = token.literal ∧ last.kind = .endOfFile := by
  refine ⟨fun payload => ⟨?_, ?_⟩, fun text => scan_quoted, ?_⟩
  · rintro ⟨source, tokens, scanned, token, member, kind, rfl⟩
    obtain ⟨carries, kinds⟩ := (wellFormed_of_scan scanned token member).carriesLiteral
    rw [kind] at carries
    obtain ⟨literal, present⟩ := Option.isSome_iff_exists.mp carries
    have same := (kinds literal present).trans kind
    match literal, same with
    | .value (.string text), _ => exact ⟨text, present, raw_of_scan scanned member present⟩
  · rintro ⟨text, rfl, raw⟩
    exact ⟨_, _, scan_quoted raw, _, List.mem_cons_self, rfl, rfl⟩
  · intro source tokens scanned token member text stands
    exact ⟨_, _, scan_quoted (raw_of_scan scanned member stands), rfl, stands.symm, rfl⟩

/-- Backslashes in front of another letter, of a backslash and of the closing quote, and the
characters for which escapes stand. -/
def backslashes : String := "\\q\\\\\n\t\\"

theorem backslashes_stable : IsRaw backslashes.toList ∧ scan (quoted backslashes) =
    .ok [⟨.stringLiteral, some (.value (.string backslashes)), 1, ⟨0, 9⟩⟩,
      ⟨.endOfFile, none, 2, ⟨9, 0⟩⟩] := by
  have raw : IsRaw backslashes.toList := ⟨by decide +kernel, by decide +kernel, by decide +kernel⟩
  exact ⟨raw, strings_stable.2.1 backslashes raw⟩

end Token

end Scriptlet
