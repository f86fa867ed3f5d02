import Scriptlet.Proofs.Except
import Scriptlet.Proofs.Grammar.Lines
import Scriptlet.Proofs.Grammar.Pointing
import Scriptlet.Proofs.Grammar.StatementProgress

/-! Reading comes to an end on every token list, however malformed, with a program or an error.
All loops of the grammar end because each of their rounds reads a token; nested expressions and
statements need no bound because what they are nested in has read one. The place at which a list
is read is an index into it that never goes beyond the first token that ends a source. -/
namespace Scriptlet.Grammar

open Scriptlet.Grammar.Parser

/-- What is made of an item where nothing can be included. -/
def afterItem (read : List Stmt) : Item → Parser (ForInStep (List Stmt))
  | .inclusion keyword _ => throw ⟨.includeUnavailable, keyword⟩
  | .declaration statement => return .yield (read ++ [statement])

/-- One more declaration at the top level of a source in which nothing can be included. -/
def itemRound (read : List Stmt) : Parser (ForInStep (List Stmt)) := do
  if (← remaining) = 0 then return .done read else afterItem read (← item)

/-- All declarations of a source in which nothing can be included. -/
def allDeclarations : Parser (List Stmt) := fun stream =>
  (Outline.read stream.ahead.length stream).toProgram.map fun program =>
    (program.declarations, stream.drop stream.ahead.length)

section Sources

variable {stream : Stream}

private theorem includeTarget_agree (stream : Stream) :
    Agree 1 includeTarget includeTarget stream := by
  apply Agree.peek
  split
  · rename_i string _
    refine .bind (.advance (by simp [string])) fun _ rest _ => ?_
    refine .bind ((Agree.expect (by simp) _ rest).any) fun _ rest _ => ?_
    exact .pure _ rest
  · exact .fail _ stream

private theorem item_agree (stream : Stream) : Agree 1 item item stream := by
  refine .take? (by simp) ?_ (fun rest _ => ?_) (Nat.le_refl 1)
  · exact .bind (declarationIn_agree false stream) fun _ rest _ => .pure _ rest
  · refine .bind ((includeTarget_agree rest).any) fun _ rest _ => ?_
    exact .pure _ rest

theorem itemRound_done (read : List Stmt) (empty : stream.ahead = []) :
    itemRound read stream = .ok (.done read, stream) := by
  rw [itemRound, bind_apply]
  simp only [remaining_apply, empty, List.length_nil, ↓reduceIte, pure_apply]

theorem itemRound_apply (read : List Stmt) (some : stream.ahead ≠ []) :
    itemRound read stream = (item >>= afterItem read) stream := by
  have more : stream.ahead.length ≠ 0 := by simpa using some
  rw [itemRound, bind_apply]
  simp only [remaining_apply, more, ↓reduceIte]

private theorem itemRound_turns (read : List Stmt) (stream : Stream) :
    Turns read (itemRound read) (itemRound read) stream := by
  by_cases empty : stream.ahead = []
  · exact .inr ⟨itemRound_done read empty, itemRound_done read empty⟩
  · left
    have same := itemRound_apply read empty
    refine Agree.congr (.bind (item_agree stream) fun element rest _ => ?_) (fun _ => same)
      (fun _ => same)
    cases element with
    | inclusion keyword target => exact .throw _ rest
    | declaration statement => exact .pure _ rest

private theorem outline_rounds {count : Nat} (read : List Stmt) (ended : stream.Ended)
    (enough : stream.ahead.length ≤ count) : Rounds itemRound read stream
      ((Outline.declarations (Outline.read count stream).items
        (Outline.read count stream).error).map fun list =>
          (read ++ list, stream.drop stream.ahead.length)) := by
  induction count generalizing read stream with
  | zero =>
    have empty : stream.ahead = [] := List.length_eq_zero_iff.mp (Nat.le_zero.mp enough)
    apply Rounds.last
    simp [itemRound_done read empty, empty]
  | succ count ih =>
    by_cases empty : stream.ahead = []
    · simp only [Outline.read, empty, List.isEmpty_nil, ↓reduceIte, Outline.declarations]
      apply Rounds.last
      simp [itemRound_done read empty]
    · have more : stream.ahead.isEmpty = false := by simpa using empty
      rw [rounds_iff, itemRound_apply read empty, bind_apply]
      simp only [Outline.read, more, Bool.false_eq_true, ↓reduceIte, StateT.run]
      cases first : item stream with
      | error error => simp [Outline.declarations, Except.map]
      | ok result =>
        obtain ⟨element, rest⟩ := result
        cases element with
        | inclusion keyword target => rfl
        | declaration statement =>
          have further := (item_agree stream).further ended first
          have shorter := further.length
          have following := ih (read ++ [statement]) (further.ended ended) (by omega)
          have sameEnd : rest.drop rest.ahead.length = stream.drop stream.ahead.length := by
            obtain ⟨skipped, _, inside, rfl⟩ := further
            rw [Stream.drop_drop, Stream.ahead_drop, List.length_drop]
            congr 1
            omega
          rw [sameEnd] at following
          simp only [Outline.declarations, afterItem, pure_apply]
          cases behind : Outline.declarations (Outline.read count rest).items
              (Outline.read count rest).error <;> simpa [behind, Except.map] using following

private theorem allDeclarations_rounds (ended : stream.Ended) :
    Rounds itemRound [] stream (allDeclarations stream) := by
  have rounds := outline_rounds [] ended (Nat.le_refl _)
  rw [allDeclarations, Outline.toProgram]
  cases found : Outline.declarations (Outline.read stream.ahead.length stream).items
      (Outline.read stream.ahead.length stream).error <;>
    simpa [found, Except.map] using rounds

theorem parse_eq_allDeclarations (tokens : List Token) :
    parse tokens =
      (allDeclarations (Stream.ofTokens tokens)).map fun read => ⟨read.1⟩ := by
  rw [parse, Outline.ofTokens, allDeclarations]
  cases (Outline.read (Stream.ofTokens tokens).ahead.length (Stream.ofTokens tokens)).toProgram <;>
    rfl

end Sources

/-- What a parser reads is a token at least, and none behind the end of the stream. -/
def Parser.Consumes {α : Type} (parser : Parser α) : Prop :=
  ∀ stream value rest, stream.Ended → parser stream = .ok (value, rest) → stream.Further 1 rest

private theorem Parser.Agree.consumes {α : Type} {parser : Parser α}
    (agree : ∀ stream, Agree 1 parser parser stream) : parser.Consumes :=
  fun stream _ _ ended read => (agree stream).further ended read

/-- Every expression, statement and declaration, and every item of a source, is a token at
least. -/
structure PartsConsume : Prop where
  expression : expression.Consumes
  statement (inLoop : Bool) : (statementIn inLoop).Consumes
  declaration (inLoop : Bool) : (declarationIn inLoop).Consumes
  item : item.Consumes

private theorem parts_consume : PartsConsume where
  expression := Agree.consumes expression_agree
  statement inLoop := Agree.consumes (statementIn_agree inLoop)
  declaration inLoop := Agree.consumes (declarationIn_agree inLoop)
  item := Agree.consumes item_agree

/-- No nesting is too deep: the parser of nested expressions, statements and declarations is the
one of all of them. -/
structure NestingUnbounded : Prop where
  operand (stream : Stream) : stream.Ended →
    unary expression stream = unaryOver expression (unary expression) stream
  expression (stream : Stream) :
    stream.Ended → expression stream = assignment expression stream
  statement (inLoop : Bool) (stream : Stream) : stream.Ended →
    statementIn inLoop stream = statementOver declarationIn statementIn inLoop stream
  declaration (inLoop : Bool) (stream : Stream) : stream.Ended →
    declarationIn inLoop stream = declarationOver declarationIn statementIn inLoop stream

theorem nesting_unbounded : NestingUnbounded where
  operand _ ended := unary_eq (fun rest _ => expression_agree rest) ended (Nat.le_refl _)
  expression _ ended := expression_eq ended
  statement inLoop _ ended := statementIn_eq ended inLoop
  declaration inLoop _ ended := declarationIn_eq ended inLoop

/-- All loops of the grammar: stars, parameters, arguments, calls and member accesses, the
operators of each level, the declarations of a block and those of a source. -/
structure LoopsEnd : Prop where
  stars : Parser.Loops starRound 0 (do stars (← remaining))
  parameters : Parser.Loops parameterRound [] (parameterList maxArguments)
  arguments : Parser.Loops (argumentRound expression) [] (argumentList expression maxArguments)
  suffixes (first : Expr) :
    Parser.Loops (suffixRound expression) first (do suffixes expression (← remaining) first)
  operations {looser tighter : List (List (Kind × BinaryOperator))}
    {operators : List (Kind × BinaryOperator)}
    (level : binaryLevels = looser ++ operators :: tighter) (first : Expr) :
    Parser.Loops (operationRound operators (tighter.foldr binaryLevel (unary expression))) first
      (do binaryTail operators (tighter.foldr binaryLevel (unary expression)) (← remaining) first)
  block (inLoop : Bool) : Parser.Loops (blockRound (declarationIn inLoop)) []
    (do blockItems (declarationIn inLoop) (← remaining))
  items : Parser.Loops itemRound [] allDeclarations

theorem loops_end : LoopsEnd where
  stars := by
    refine ⟨fun count stream _ _ ended read => ?_, fun _ ended => stars_rounds ended⟩
    exact (starRound_turns count stream).progress ended read
  parameters := by
    refine ⟨fun list stream _ _ ended read => ?_, fun stream _ => parameterList_loops stream⟩
    exact .inl ((parameterRound_agree list stream).further ended read)
  arguments := by
    refine ⟨fun list stream _ _ ended read => ?_, fun stream _ => argumentList_loops _ stream⟩
    exact .inl ((argumentRound_agree (expression_agree stream) list).further ended read)
  suffixes first := by
    have inner (bound : Nat) (rest : Stream) (_ : rest.ahead.length < bound) :=
      expression_agree rest
    refine ⟨fun state stream _ _ ended read => ?_, fun stream ended => ?_⟩
    · exact (suffixRound_turns (inner _) (Nat.le_refl _) state).progress ended read
    · exact suffixes_rounds (inner _) first ended (Nat.le_refl _) (Nat.le_refl _)
  operations {looser tighter operators} level first := by
    have own : operators.lookup .endOfFile = none := binaryLevels_noEnd operators (by simp [level])
    have operands (bound : Nat) (rest : Stream) (_ : rest.ahead.length < bound) :
        Agree 1 (tighter.foldr binaryLevel (unary expression))
          (tighter.foldr binaryLevel (unary expression)) rest := by
      refine levels_agree (fun rest _ => expression_agree rest) ?_ (Nat.le_refl _)
      exact fun others member => binaryLevels_noEnd others (by simp [level, member])
    refine ⟨fun state stream _ _ ended read => ?_, fun stream ended => ?_⟩
    · exact (operationRound_turns own (operands _) state).progress ended read
    · exact binaryTail_rounds own (operands _) first ended (Nat.le_refl _) (Nat.le_refl _)
  block inLoop := by
    refine ⟨fun list stream _ _ ended read => ?_, fun stream ended => ?_⟩
    · exact (blockRound_turns (declarationIn_agree inLoop stream) list).progress ended read
    · exact blockItems_rounds (fun rest _ => declarationIn_agree inLoop rest) ended
        (Nat.lt_succ_self _)
  items := by
    refine ⟨fun list stream _ _ ended read => ?_, fun _ => allDeclarations_rounds⟩
    exact (itemRound_turns list stream).progress ended read

/-- The place of a token list at an index. -/
def placeAt (tokens : List Token) (index : Nat) : Stream := (Stream.ofTokens tokens).drop index

/-- Up to an index of a token list, every place is one at an index: the token to be read next is
the one there; to go on is to add one to the index, except at the last one, which is the first at
which a source ends; looking two tokens ahead is looking at the next two indices; and what stands
further on in the stream is at a higher index that is not behind the last one. -/
structure PlacesWithin (tokens : List Token) (last : Nat) : Prop where
  current (index : Nat) : index ≤ last → tokens[index]? = some (placeAt tokens index).current
  ends (index : Nat) : index ≤ last →
    ((placeAt tokens index).current.kind = .endOfFile ↔ index = last)
  advance (index : Nat) : index ≤ last →
    (placeAt tokens index).advance = placeAt tokens (if index = last then index else index + 1)
  form (index : Nat) : index ≤ last → atDeclaration (placeAt tokens index) =
    .ok (decide (tokens[index]?.map Token.kind = some .identifier ∧
      tokens[index + 1]?.map Token.kind = some .colon), placeAt tokens index)
  further (index least : Nat) (rest : Stream) : index ≤ last →
    (placeAt tokens index).Further least rest →
      ∃ later ≤ last, index + least ≤ later ∧ rest = placeAt tokens later

section Places

variable {front behind : List Token} {first : Token}

private theorem placeAt_append (ends : first.kind = .endOfFile)
    (inside : ∀ token ∈ front, token.kind ≠ .endOfFile) (index : Nat) :
    placeAt (front ++ first :: behind) index = ⟨front.drop index, first⟩ := by
  rw [placeAt, ofTokens_append ends inside, Stream.drop]

private theorem getElem?_place (front : List Token) (first : Token) (behind : List Token)
    {index : Nat} (within : index ≤ front.length) (offset : Nat) :
    (front ++ first :: behind)[index + offset]? =
      (front.drop index ++ first :: behind)[offset]? := by
  rw [← List.getElem?_drop, List.drop_append_of_le_length within]

theorem places_within (ends : first.kind = .endOfFile)
    (inside : ∀ token ∈ front, token.kind ≠ .endOfFile) :
    PlacesWithin (front ++ first :: behind) front.length where
  current index within := by
    rw [placeAt_append ends inside, ← Nat.add_zero index, getElem?_place front first behind within]
    cases front.drop index <;> rfl
  ends index within := by
    rw [placeAt_append ends inside, Stream.current]
    cases ahead : front.drop index with
    | nil =>
      have reached : front.length ≤ index := List.drop_eq_nil_iff.mp ahead
      simpa [ends] using Nat.le_antisymm within reached
    | cons token others =>
      have member : token ∈ front := List.mem_of_mem_drop (ahead ▸ List.mem_cons_self ..)
      have less : index ≠ front.length := by
        rintro rfl
        simp at ahead
      simpa [less] using inside token member
  advance index within := by
    rw [placeAt_append ends inside, placeAt_append ends inside, Stream.advance]
    split
    · rename_i reached
      simp [reached]
    · simp
  form index within := by
    have here := getElem?_place front first behind within 0
    have next := getElem?_place front first behind within 1
    rw [Nat.add_zero] at here
    simp only [placeAt_append ends inside, atDeclaration_apply, here, next]
    rcases front.drop index with _ | ⟨token, _ | ⟨mark, others⟩⟩
    · simp [ends]
    · simp [ends]
    · simp
  further index least rest within := by
    rintro ⟨count, enough, inside', rfl⟩
    rw [placeAt_append ends inside, List.length_drop] at inside'
    refine ⟨index + count, by omega, by omega, ?_⟩
    rw [placeAt, placeAt, Stream.drop_drop]

end Places

/-- A list whose last token ends a source has a first such token. -/
theorem exists_first_end {tokens : List Token} {final : Token}
    (isLast : tokens.getLast? = some final) (ends : final.kind = .endOfFile) :
    ∃ front first behind, tokens = front ++ first :: behind ∧ first.kind = .endOfFile ∧
      ∀ token ∈ front, token.kind ≠ .endOfFile := by
  have found : (tokens.find? fun token => token.kind = .endOfFile).isSome := by
    refine List.find?_isSome.mpr ⟨final, List.mem_of_getLast? isLast, ?_⟩
    simpa using ends
  obtain ⟨first, found⟩ := Option.isSome_iff_exists.mp found
  obtain ⟨isEnd, front, behind, rfl, before⟩ := List.find?_eq_some_iff_append.mp found
  exact ⟨front, first, behind, rfl, by simpa using isEnd, by simpa using before⟩

/-- Every token list that is ended, whatever its tokens are, is read up to the first token that
ends a source as a program or as an error at one of the tokens up to there, and what stands behind
that token makes no difference. -/
theorem parse_total {tokens : List Token} {final : Token} (isLast : tokens.getLast? = some final)
    (finalEnds : final.kind = .endOfFile) :
    PartsConsume ∧ NestingUnbounded ∧ LoopsEnd ∧
      ∃ front first behind, tokens = front ++ first :: behind ∧ first.kind = .endOfFile ∧
        (∀ token ∈ front, token.kind ≠ .endOfFile) ∧ PlacesWithin tokens front.length ∧
          ((∃ declarations, parse tokens = .ok ⟨declarations⟩ ∧ Rounds itemRound []
              (placeAt tokens 0) (.ok (declarations, placeAt tokens front.length))) ∨
            ∃ error, parse tokens = .error error ∧ error.token ∈ front ++ [first] ∧
              Rounds itemRound [] (placeAt tokens 0) (.error error)) ∧
          ∀ others, parse (front ++ first :: others) = parse tokens := by
  refine ⟨parts_consume, nesting_unbounded, loops_end, ?_⟩
  obtain ⟨front, first, behind, rfl, isEnd, inside⟩ := exists_first_end isLast finalEnds
  have same (others : List Token) :
      parse (front ++ first :: others) = parse (front ++ first :: behind) :=
    (parse_append isEnd inside).trans (parse_append isEnd inside).symm
  refine ⟨front, first, behind, rfl, isEnd, inside, places_within isEnd inside, ?_, same⟩
  have rounds : Rounds itemRound [] ⟨front, first⟩ (allDeclarations ⟨front, first⟩) :=
    allDeclarations_rounds isEnd
  have result := parse_eq_allDeclarations (front ++ first :: behind)
  rw [ofTokens_append isEnd inside] at result
  rw [placeAt_append isEnd inside, placeAt_append isEnd inside, List.drop_zero]
  cases read : allDeclarations ⟨front, first⟩ with
  | ok found =>
    left
    obtain ⟨program, _, rfl⟩ := Except.ok_of_map read
    rw [read] at rounds result
    exact ⟨program.declarations, result, rounds⟩
  | error error =>
    right
    rw [read] at rounds result
    have failed : parse (front ++ first :: []) = .error error := (same []).trans result
    exact ⟨error, result, parse_error_mem ⟨first, by simp, isEnd⟩ failed, rounds⟩

/-- An end of a source that carries a name. It is taken for the name of a function and stays the
next token. -/
def namedEnd : Token := ⟨.endOfFile, some (.identifier "f"), 1, ⟨5, 0⟩⟩

def namedEndTokens : List Token :=
  [⟨.funcWord, none, 1, ⟨0, 4⟩⟩, namedEnd, ⟨.leftParen, none, 1, ⟨5, 1⟩⟩,
    ⟨.endOfFile, none, 1, ⟨6, 0⟩⟩]

theorem namedEnd_total :
    parse namedEndTokens = .error ⟨.expectedToken .leftParen .afterFunctionName, namedEnd⟩ ∧
      ∃ front first behind, namedEndTokens = front ++ first :: behind ∧
        first.kind = .endOfFile ∧ (∀ token ∈ front, token.kind ≠ .endOfFile) ∧
          PlacesWithin namedEndTokens front.length ∧
            ∀ others, parse (front ++ first :: others) = parse namedEndTokens := by
  refine ⟨by rfl, ?_⟩
  have isLast : namedEndTokens.getLast? = some ⟨.endOfFile, none, 1, ⟨6, 0⟩⟩ := rfl
  obtain ⟨_, _, _, front, first, behind, split, ends, inside, places, _, same⟩ :=
    parse_total isLast rfl
  exact ⟨front, first, behind, split, ends, inside, places, same⟩

end Scriptlet.Grammar
