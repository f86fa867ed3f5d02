import Mathlib.Data.List.Basic
import Scriptlet.Token.Lines

/-! Texts as bytes. A byte that stands for an ASCII character is no part of any other character,
so texts can be taken apart at such bytes. -/
namespace Scriptlet.Text

open Scriptlet.Transcript (decode?)

/-- The bytes of a text. -/
def bytes (text : String) : List UInt8 := text.toUTF8.data.toList

def encode (text : List Char) : List UInt8 := text.flatMap String.utf8EncodeChar

@[simp] theorem encode_nil : encode [] = [] := rfl

@[simp] theorem encode_cons (character : Char) (rest : List Char) :
    encode (character :: rest) = String.utf8EncodeChar character ++ encode rest := by
  simp [encode]

@[simp] theorem encode_append (first second : List Char) :
    encode (first ++ second) = encode first ++ encode second := by
  simp [encode]

theorem bytes_eq_encode (text : String) : bytes text = encode text.toList := by
  rw [bytes, String.toUTF8_eq_toByteArray, ← String.utf8Encode_toList, List.utf8Encode]
  simp [encode]

private theorem utf8EncodeChar_ascii {character : Char} (ascii : character.toNat < 128) :
    String.utf8EncodeChar character = [UInt8.ofNat character.toNat] :=
  if_pos (Nat.le_of_lt_succ ascii)

/-- All bytes of another character are from 128 on. -/
theorem high_of_mem_utf8EncodeChar {character : Char} (other : ¬ character.toNat < 128)
    {byte : UInt8} (member : byte ∈ String.utf8EncodeChar character) : 128 ≤ byte.toNat := by
  have large : ¬ character.val.toNat ≤ 127 := fun small => other (Nat.lt_succ_of_le small)
  have high (number : Nat) (range : 128 ≤ number ∧ number < 256) :
      128 ≤ (UInt8.ofNat number).toNat := by
    rw [UInt8.toNat_ofNat', Nat.mod_eq_of_lt range.2]
    exact range.1
  rw [String.utf8EncodeChar.eq_1, if_neg large] at member
  split at member
  · simp only [List.mem_cons, List.not_mem_nil, or_false] at member
    rcases member with rfl | rfl <;> exact high _ (by omega)
  · split at member
    · simp only [List.mem_cons, List.not_mem_nil, or_false] at member
      rcases member with rfl | rfl | rfl <;> exact high _ (by omega)
    · simp only [List.mem_cons, List.not_mem_nil, or_false] at member
      rcases member with rfl | rfl | rfl | rfl <;> exact high _ (by omega)

/-- A byte below 128 is the whole of a character. -/
theorem eq_of_mem_utf8EncodeChar {character ascii : Char} (small : ascii.toNat < 128)
    (member : UInt8.ofNat ascii.toNat ∈ String.utf8EncodeChar character) : character = ascii := by
  have number : (UInt8.ofNat ascii.toNat).toNat = ascii.toNat := by
    rw [UInt8.toNat_ofNat']
    omega
  by_cases single : character.toNat < 128
  · rw [utf8EncodeChar_ascii single, List.mem_singleton] at member
    have same := congrArg UInt8.toNat member
    rw [number, UInt8.toNat_ofNat', Nat.mod_eq_of_lt (by omega)] at same
    exact Char.toNat_inj.mp same.symm
  · have high := high_of_mem_utf8EncodeChar single member
    omega

private theorem mem_encode {text : List Char} {ascii : Char} (small : ascii.toNat < 128) :
    UInt8.ofNat ascii.toNat ∈ encode text ↔ ascii ∈ text := by
  simp only [encode, List.mem_flatMap]
  constructor
  · rintro ⟨character, present, member⟩
    rwa [← eq_of_mem_utf8EncodeChar small member]
  · intro present
    exact ⟨ascii, present, by simp [utf8EncodeChar_ascii small]⟩

theorem decode?_eq_some {stream : List UInt8} {text : String} :
    decode? stream = some text ↔ stream = encode text.toList := by
  rw [← bytes_eq_encode, bytes, decode?, String.fromUTF8?]
  constructor
  · intro decoded
    split at decoded
    · cases decoded
      rfl
    · cases decoded
  · rintro rfl
    have valid : text.toUTF8.IsValidUTF8 := text.isValidUTF8
    exact dif_pos valid

/-- Whether bytes are a text does not depend on a carriage return behind them. -/
theorem decode?_return (stream : List UInt8) :
    decode? (stream ++ [13]) = (decode? stream).map (·.push '\r') := by
  ext text
  rw [decode?_eq_some, Option.map_eq_some_iff]
  constructor
  · intro encoded
    rcases List.eq_nil_or_concat text.toList with nothing | ⟨front, last, parts⟩
    · simp [nothing] at encoded
    rw [List.concat_eq_append] at parts
    have final : 13 ∈ String.utf8EncodeChar last := by
      rw [parts, encode_append, encode_cons, encode_nil, List.append_nil] at encoded
      apply List.mem_of_getLast?
      rw [← List.getLast?_append_of_ne_nil (encode front) String.utf8EncodeChar_ne_nil, ← encoded,
        List.getLast?_concat]
    obtain rfl : last = '\r' := eq_of_mem_utf8EncodeChar (by decide) final
    rw [parts, encode_append] at encoded
    refine ⟨String.ofList front, ?_, ?_⟩
    · rw [decode?_eq_some, String.toList_ofList]
      exact List.append_cancel_right encoded
    · apply String.toList_injective
      simp [parts]
  · rintro ⟨front, decoded, rfl⟩
    rw [decode?_eq_some.mp decoded]
    simp [utf8EncodeChar_ascii]

/-- The lines of a text are where the lines of its bytes are. -/
theorem splitOn_encode (text : List Char) :
    (encode text).splitOn 10 = (text.splitOn '\n').map encode := by
  have newline (line : List Char) : 10 ∈ encode line ↔ '\n' ∈ line :=
    @mem_encode line '\n' (by decide)
  by_cases present : '\n' ∈ text
  · obtain ⟨line, rest, rfl, inside⟩ := List.eq_append_cons_of_mem present
    have parts : encode (line ++ '\n' :: rest) = encode line ++ 10 :: encode rest := by
      simp [utf8EncodeChar_ascii]
    have shorter : rest.length < (line ++ '\n' :: rest).length := by
      simp
      omega
    rw [parts, List.splitOn_append_cons_self_of_not_mem (mt (newline line).mp inside),
      List.splitOn_append_cons_self_of_not_mem inside, splitOn_encode rest, List.map_cons]
  · rw [List.splitOn_eq_singleton (mt (newline text).mp present),
      List.splitOn_eq_singleton present, List.map_singleton]
termination_by text.length

theorem bytes_line (first second : String) :
    bytes (first ++ "\n" ++ second) = bytes first ++ 10 :: bytes second := by
  simp [bytes_eq_encode, utf8EncodeChar_ascii]

/-- The pieces between line ends, as bytes. -/
theorem splitOn_bytes (text : String) :
    (bytes text).splitOn 10 = ((text.toList.splitOn '\n').map String.ofList).map bytes := by
  rw [bytes_eq_encode, splitOn_encode, List.map_map]
  apply List.map_congr_left
  intro line _
  rw [Function.comp, bytes_eq_encode, String.toList_ofList]

end Scriptlet.Text
