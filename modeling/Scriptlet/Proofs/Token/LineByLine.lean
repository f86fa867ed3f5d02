import Scriptlet.Proofs.Text.Encoding
import Scriptlet.Proofs.Token.Failure

/-! Listing line by line. A carriage return behind a line changes nothing about what is listed, so
it does not matter whether it belongs to the line. The listing of a stream is therefore that of
its lines one after the other, with any of the two line ends between them, up to the first line
that is no text. -/
namespace Scriptlet

open Scriptlet.Text (bytes encode)

private theorem FinalLayout.behindReturn {text : List Char} (final : FinalLayout text) :
    FinalLayout (text ++ ['\r']) := by
  cases final with
  | closed layout => exact .closed (layout.append (.blank rfl .nil))
  | comment layout inside =>
    rw [List.append_assoc]
    exact .comment layout (by simpa using inside)

private theorem Piece.Arranged.behindReturn {pieces : List Piece} {final : List Char}
    (arranged : Arranged pieces final) : Arranged pieces (final ++ ['\r']) := by
  induction arranged with
  | final layout => exact .final layout.behindReturn
  | @piece first rest text layout spelled ends behind ih =>
    refine .piece layout spelled ?_ ih
    rw [Piece.source_final]
    exact Lexeme.goesOn_resembles (@Lexeme.Resembles.closed '\r' rfl _ []) ends

/-- What no lexeme begins with still is such a text. Only a string without an end grows. -/
theorem Lexeme.Unreadable.behindReturn {text extent : List Char} {fault : ScanFault}
    {message : String} (unreadable : Lexeme.Unreadable text fault message extent) :
    ∃ stretch, Lexeme.Unreadable (text ++ ['\r']) fault message stretch := by
  by_cases unterminated : fault = .unterminatedString
  · cases unreadable with
    | string unclosed => exact ⟨_, .string (by simpa using unclosed)⟩
    | integer some each ends whole large => cases unterminated
    | character foreign => cases unterminated
  · exact ⟨extent, @Lexeme.Unreadable.closed _ _ _ _ '\r' unreadable unterminated rfl []⟩

namespace Token

/-- How tokens are listed depends on their kinds and literals only. -/
theorem map_display_of_symbols {tokens others : List Token}
    (same : tokens.map symbol = others.map symbol) : tokens.map display = others.map display := by
  have each : display =
      (fun symbol : Symbol => display ⟨symbol.kind, symbol.literal, 0, ⟨0, 0⟩⟩) ∘ symbol := rfl
  rw [each, ← List.map_map, same, List.map_map]

private theorem scan_behindReturn {line : String} {tokens : List Token}
    (scanned : scan line = .ok tokens) : ∃ others, scan (line.push '\r') = .ok others ∧
      others.map display = tokens.map display := by
  obtain ⟨pieces, final, arranged, rfl, rfl⟩ := arranged_of_scan scanned
  refine ⟨Piece.tokens .start pieces (final ++ ['\r']), ?_, ?_⟩
  · have parts : ((String.ofList (Piece.source pieces final)).push '\r').toList =
        Piece.source pieces (final ++ ['\r']) := by
      simp [Piece.source_final]
    rw [scan, parts]
    exact scanFrom_arranged .start arranged.behindReturn
  · apply map_display_of_symbols
    rw [Piece.symbols_tokens, Piece.symbols_tokens]

private theorem scan_fails_behindReturn {line : String} {error : ScanError}
    (failed : scan line = .error error) : ∃ other, scan (line.push '\r') = .error other := by
  obtain ⟨pieces, gap, remaining, _, fails⟩ := exists_failsBehind failed
  obtain ⟨stretch, unreadable⟩ := fails.unreadable.behindReturn
  have leads : Piece.Leads pieces (gap ++ (remaining ++ ['\r'])) := by
    rw [← List.append_assoc]
    exact @Piece.Leads.closed _ _ '\r' fails.leads rfl []
  have parts : (line.push '\r').toList = Piece.source pieces (gap ++ (remaining ++ ['\r'])) := by
    simp [fails.parts, Piece.source_final]
  rw [scan, parts]
  exact ⟨_, scanFrom_leads .start leads (scanFrom_unreadable _ fails.layout unreadable)⟩

end Token

namespace Transcript

/-- Transcripts that list the same and go as far. -/
structure Alike (first second : Transcript) : Prop where
  output : first.output = second.output
  complete : first.complete = second.complete

namespace Alike

variable {first second third fourth : Transcript}

theorem refl (transcript : Transcript) : transcript.Alike transcript := ⟨rfl, rfl⟩

theorem symm (alike : first.Alike second) : second.Alike first :=
  ⟨alike.output.symm, alike.complete.symm⟩

theorem trans (alike : first.Alike second) (others : second.Alike third) : first.Alike third :=
  ⟨alike.output.trans others.output, alike.complete.trans others.complete⟩

theorem append (fronts : first.Alike second) (backs : third.Alike fourth) :
    (first.append third).Alike (second.append fourth) := by
  rw [Transcript.append, Transcript.append, fronts.complete]
  split
  · exact ⟨congrArg₂ (· ++ ·) fronts.output backs.output, backs.complete⟩
  · exact fronts

end Alike

private theorem empty_append (transcript : Transcript) : empty.append transcript = transcript := by
  simp [append, empty]

private theorem append_assoc (first second third : Transcript) :
    (first.append second).append third = first.append (second.append third) := by
  unfold append
  by_cases ends : first.complete = true <;> by_cases also : second.complete = true <;>
    simp [ends, also, String.append_assoc]

private theorem listing_eq (tokens : List Token) :
    listing tokens = String.join ((tokens.map Token.display).map (· ++ "\n")) := by
  rw [listing, List.map_map]
  rfl

private theorem ofLine_return (line : String) : (ofLine (line.push '\r')).Alike (ofLine line) := by
  have blank : Text.isBlankLine (line.push '\r') = Text.isBlankLine line := by
    have also : Text.isBlank '\r' = true := by decide
    simp [Text.isBlankLine, also]
  rw [ofLine, ofLine, blank]
  by_cases nothing : Text.isBlankLine line = true
  · rw [if_pos nothing, if_pos nothing]
    exact .refl _
  · rw [if_neg nothing, if_neg nothing]
    cases scanned : Token.scan line with
    | ok tokens =>
      obtain ⟨others, again, same⟩ := Token.scan_behindReturn scanned
      rw [again]
      refine ⟨?_, rfl⟩
      simp only [listing_eq, same]
    | error error =>
      obtain ⟨other, again⟩ := Token.scan_fails_behindReturn scanned
      rw [again]
      exact ⟨rfl, rfl⟩

private theorem ofBytes_return (line : List UInt8) :
    (ofBytes (line ++ [13])).Alike (ofBytes line) := by
  rw [ofBytes, ofBytes, Text.decode?_return]
  cases decode? line with
  | none => exact .refl _
  | some text => exact ofLine_return text

private theorem ofBytes_lineBefore (line : List UInt8) :
    (ofBytes (lineBefore line)).Alike (ofBytes line) := by
  rw [lineBefore]
  split
  · rename_i last
    obtain ⟨front, rfl⟩ := List.getLast?_eq_some_iff.mp last
    rw [List.dropLast_concat]
    exact (ofBytes_return front).symm
  · exact .refl _

/-- The listing of lines. -/
def ofLines (lines : List (List UInt8)) : Transcript :=
  lines.foldr (fun line rest => (ofBytes line).append rest) empty

@[simp] theorem ofLines_nil : ofLines [] = empty := rfl

@[simp] theorem ofLines_cons (line : List UInt8) (rest : List (List UInt8)) :
    ofLines (line :: rest) = (ofBytes line).append (ofLines rest) := rfl

private theorem ofLines_append (first second : List (List UInt8)) :
    ofLines (first ++ second) = (ofLines first).append (ofLines second) := by
  induction first with
  | nil => rw [List.nil_append, ofLines_nil, empty_append]
  | cons line rest ih => rw [List.cons_append, ofLines_cons, ofLines_cons, ih, append_assoc]

private theorem ofLines_map_lineBefore (lines : List (List UInt8)) :
    (ofLines (lines.map lineBefore)).Alike (ofLines lines) := by
  induction lines with
  | nil => exact .refl _
  | cons line rest ih => exact (ofBytes_lineBefore line).append ih

/-- Carriage returns in front of line ends need not be taken away. -/
theorem ofStream_alike (stream : List UInt8) :
    (ofStream stream).Alike (ofLines (stream.splitOn 10)) := by
  change (ofLines (lines stream)).Alike _
  rw [lines]
  generalize parts : stream.splitOn 10 = pieces
  rcases List.eq_nil_or_concat pieces with rfl | ⟨front, last, rfl⟩
  · exact absurd parts (List.splitOn_ne_nil 10 stream)
  · simp only [List.concat_eq_append, List.dropLast_concat, List.getLastD_concat, ofLines_append]
    exact (ofLines_map_lineBefore front).append (.refl _)

/-- Behind a line end, the listing begins anew. -/
theorem ofStream_joined (first second : List UInt8) :
    (ofStream (first ++ 10 :: second)).Alike ((ofStream first).append (ofStream second)) := by
  have whole := ofStream_alike (first ++ 10 :: second)
  rw [List.splitOn_append_cons_self, ofLines_append] at whole
  exact whole.trans ((ofStream_alike first).append (ofStream_alike second)).symm

/-- A stream with a carriage return in front of every line end. -/
def withReturns (stream : List UInt8) : List UInt8 :=
  stream.flatMap fun byte => if byte = 10 then [13, 10] else [byte]

private theorem withReturns_of_not_mem {stream : List UInt8} (none : 10 ∉ stream) :
    withReturns stream = stream := by
  induction stream with
  | nil => rfl
  | cons byte rest ih =>
    rw [List.mem_cons, not_or] at none
    rw [withReturns, List.flatMap_cons, if_neg (Ne.symm none.1)]
    exact congrArg (byte :: ·) (ih none.2)

private theorem ofLines_withReturns (stream : List UInt8) :
    (ofLines ((withReturns stream).splitOn 10)).Alike (ofLines (stream.splitOn 10)) := by
  by_cases present : 10 ∈ stream
  · obtain ⟨line, rest, rfl, inside⟩ := List.eq_append_cons_of_mem present
    have parts : withReturns (line ++ 10 :: rest) = (line ++ [13]) ++ 10 :: withReturns rest := by
      have first := withReturns_of_not_mem inside
      rw [withReturns] at first ⊢
      rw [List.flatMap_append, first]
      simp [withReturns]
    have shorter : rest.length < (line ++ 10 :: rest).length := by
      simp
      omega
    rw [parts, List.splitOn_append_cons_self_of_not_mem inside,
      List.splitOn_append_cons_self_of_not_mem (by simpa using inside)]
    exact (ofBytes_return line).append (ofLines_withReturns rest)
  · rw [withReturns_of_not_mem present]
    exact .refl _
termination_by stream.length

private theorem ofBytes_bytes (line : String) : ofBytes (bytes line) = ofLine line := by
  rw [ofBytes, Text.decode?_eq_some.mpr (Text.bytes_eq_encode line)]

private theorem complete_ofLine (line : String) : (ofLine line).complete = true := by
  rw [ofLine]
  split
  · rfl
  · split <;> rfl

private theorem ofLines_bytes (lines : List String) :
    (ofLines (lines.map bytes)).complete = true ∧
      (ofLines (lines.map bytes)).output =
        String.join (lines.map fun line => (ofLine line).output) := by
  induction lines with
  | nil => exact ⟨rfl, rfl⟩
  | cons line rest ih =>
    rw [List.map_cons, List.map_cons, ofLines_cons, ofBytes_bytes, append,
      if_pos (complete_ofLine line), String.join_cons, ← ih.2]
    exact ⟨ih.1, rfl⟩

/-- A line that is no text ends the listing. -/
theorem ofStream_broken {bad rest : List UInt8} (inside : 10 ∉ bad) (broken : decode? bad = none)
    (ends : rest = [] ∨ ∃ more, rest = 10 :: more) :
    (ofStream (bad ++ rest)).Alike ⟨"", [], false⟩ := by
  obtain ⟨others, parts⟩ : ∃ others, (bad ++ rest).splitOn 10 = bad :: others := by
    rcases ends with rfl | ⟨more, rfl⟩
    · exact ⟨[], by rw [List.append_nil, List.splitOn_eq_singleton inside]⟩
    · exact ⟨_, List.splitOn_append_cons_self_of_not_mem inside more⟩
  refine (ofStream_alike _).trans ?_
  rw [parts, ofLines_cons, ofBytes, broken]
  exact .refl _

end Transcript

namespace Text

/-- A line without the carriage return at its end, if there is one. -/
def withoutReturn (line : String) : String :=
  if line.toList.getLast? = some '\r' then String.ofList line.toList.dropLast else line

/-- The lines of a text: each line end closes one, together with a carriage return in front of
it, and what follows the last line end is a line as well. -/
def lines (text : String) : List String :=
  let pieces := (text.toList.splitOn '\n').map String.ofList
  pieces.dropLast.map withoutReturn ++ [pieces.getLastD ""]

end Text

namespace Transcript

private theorem ofLine_withoutReturn (line : String) :
    (ofLine (Text.withoutReturn line)).Alike (ofLine line) := by
  rw [Text.withoutReturn]
  split
  · rename_i last
    obtain ⟨front, parts⟩ := List.getLast?_eq_some_iff.mp last
    have whole : line = (String.ofList front).push '\r' := by
      apply String.toList_injective
      simp [parts]
    rw [parts, List.dropLast_concat, whole]
    exact (ofLine_return _).symm
  · exact .refl _

/-- A text is listed to its end, and each of its lines contributes what it would alone. -/
theorem ofStream_bytes (text : String) :
    (ofStream (bytes text)).complete = true ∧
      (ofStream (bytes text)).output =
        String.join ((Text.lines text).map fun line => (ofLine line).output) := by
  have alike := ofStream_alike (bytes text)
  rw [Text.splitOn_bytes] at alike
  rw [Text.lines]
  generalize parts : (text.toList.splitOn '\n').map String.ofList = pieces at alike ⊢
  obtain ⟨complete, output⟩ := ofLines_bytes pieces
  refine ⟨alike.complete.trans complete, alike.output.trans (output.trans ?_)⟩
  rcases List.eq_nil_or_concat pieces with rfl | ⟨front, last, rfl⟩
  · exact absurd (List.map_eq_nil_iff.mp parts) (List.splitOn_ne_nil '\n' text.toList)
  · simp only [List.concat_eq_append, List.dropLast_concat, List.getLastD_concat, List.map_append,
      List.map_map, Function.comp_def, (ofLine_withoutReturn _).output]

/-- Behind whole lines of text, a listing that stops at once adds nothing. -/
theorem ofStream_stops {valid : String} {stream : List UInt8}
    (whole : valid = "" ∨ ∃ front, valid = front ++ "\n")
    (stops : (ofStream stream).Alike ⟨"", [], false⟩) :
    (ofStream (bytes valid ++ stream)).complete = false ∧
      (ofStream (bytes valid ++ stream)).output = (ofStream (bytes valid)).output := by
  rcases whole with rfl | ⟨front, rfl⟩
  · exact ⟨stops.complete, stops.output⟩
  · have closed : bytes (front ++ "\n") = bytes front ++ [10] := by
      have split := Text.bytes_line front ""
      rwa [String.append_empty] at split
    have joined := ofStream_joined (bytes front) stream
    have alone := ofStream_joined (bytes front) []
    rw [append, if_pos (ofStream_bytes front).1] at joined alone
    rw [closed, List.append_assoc, List.singleton_append]
    refine ⟨joined.complete.trans stops.complete, ?_⟩
    calc (ofStream (bytes front ++ 10 :: stream)).output
        = (ofStream (bytes front)).output ++ (ofStream stream).output := joined.output
      _ = (ofStream (bytes front)).output ++ "" := by rw [stops.output]
      _ = (ofStream (bytes front ++ [10])).output := alone.output.symm

private theorem displays_of_scan {line : String} {tokens : List Token}
    (scanned : Token.scan line = .ok tokens) :
    ∃ front, tokens.map Token.display = front ++ ["Eof"] := by
  obtain ⟨front, last, rfl, fits, ends, _⟩ := Token.scan_wellFormed scanned
  refine ⟨front.map Token.display, ?_⟩
  have without : last.literal = none := by
    have carries := fits.carriesLiteral.1
    rw [ends] at carries
    exact Option.isSome_eq_false_iff.mp carries |> Option.isNone_iff_eq_none.mp
  rw [List.map_append, List.map_singleton, Token.display, without, ends]
  rfl

/-- Lines are listed independently. What stands in front of a line end is listed as it would be
alone, and so is what stands behind it; carriage returns in front of line ends make no difference;
every line of a text contributes the displays of its own tokens, each on a line of its own and the
last one `Eof`, or nothing, if it is blank or does not scan; and the listing ends in front of the
first line that is no text. -/
theorem lines_independent :
    (∀ first second : String,
      (ofStream (bytes (first ++ "\n" ++ second))).output =
        (ofStream (bytes first)).output ++ (ofStream (bytes second)).output) ∧
    (∀ stream : List UInt8, (ofStream (withReturns stream)).Alike (ofStream stream)) ∧
    (∀ text : String, (ofStream (bytes text)).complete = true ∧
      (ofStream (bytes text)).output =
        String.join ((Text.lines text).map fun line => (ofLine line).output)) ∧
    (∀ line : String, (Text.isBlankLine line = true → (ofLine line).output = "") ∧
      (∀ error, Token.scan line = .error error → (ofLine line).output = "") ∧
      ∀ tokens, Text.isBlankLine line = false → Token.scan line = .ok tokens →
        ∃ front, tokens.map Token.display = front ++ ["Eof"] ∧
          (ofLine line).output = String.join ((front ++ ["Eof"]).map (· ++ "\n"))) ∧
    ∀ (valid : String) (bad rest : List UInt8), (valid = "" ∨ ∃ front, valid = front ++ "\n") →
      10 ∉ bad → decode? bad = none → (rest = [] ∨ ∃ more, rest = 10 :: more) →
        (ofStream (bytes valid ++ (bad ++ rest))).complete = false ∧
          (ofStream (bytes valid ++ (bad ++ rest))).output = (ofStream (bytes valid)).output := by
  refine ⟨?_, ?_, ofStream_bytes, ?_, ?_⟩
  · intro first second
    have joined := ofStream_joined (bytes first) (bytes second)
    rw [append, if_pos (ofStream_bytes first).1] at joined
    rw [Text.bytes_line]
    exact joined.output
  · intro stream
    exact (ofStream_alike _).trans ((ofLines_withReturns stream).trans (ofStream_alike stream).symm)
  · intro line
    refine ⟨?_, ?_, ?_⟩
    · intro blank
      rw [ofLine, if_pos blank]
      rfl
    · intro error failed
      rw [ofLine, failed]
      split <;> rfl
    · intro tokens other scanned
      obtain ⟨front, displays⟩ := displays_of_scan scanned
      refine ⟨front, displays, ?_⟩
      rw [ofLine, if_neg (by simp [other]), scanned, ← displays]
      exact listing_eq tokens
  · intro valid bad rest whole inside broken ends
    exact ofStream_stops whole (ofStream_broken inside broken ends)

/-- A string without an end does not reach into the next line, and a byte that begins no character
ends the listing behind the lines in front of it. -/
theorem brokenLines_independent :
    (ofStream (bytes "\"open\r\n1.5")).output = "DoubleLit: 1.5\nEof\n" ∧
    decode? [255] = none ∧
    (ofStream (bytes "1.5\n" ++ ([255] ++ [10, 55]))).complete = false ∧
    (ofStream (bytes "1.5\n" ++ ([255] ++ [10, 55]))).output = "DoubleLit: 1.5\nEof\n" := by
  obtain ⟨joined, _, _, _, stops⟩ := lines_independent
  have first : (ofStream (bytes "\"open\r")).output = "" := by decide +kernel
  have second : (ofStream (bytes "1.5")).output = "DoubleLit: 1.5\nEof\n" := by decide +kernel
  have alone : (ofStream (bytes "1.5\n")).output = "DoubleLit: 1.5\nEof\n" := by decide +kernel
  have broken : decode? [255] = none := by decide +kernel
  obtain ⟨complete, output⟩ := stops "1.5\n" [255] [10, 55] (.inr ⟨"1.5", rfl⟩) (by decide) broken
    (.inr ⟨[55], rfl⟩)
  refine ⟨?_, broken, complete, output.trans alone⟩
  have parts := joined "\"open\r" "1.5"
  rwa [first, second] at parts

end Transcript

end Scriptlet
