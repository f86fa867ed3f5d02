import Scriptlet.Grammar.Stream
import Scriptlet.Proofs.Token.WellFormed

/-! Reading symbols off a stream, and what each of the basic parsers does to a stream. Both
directions of the correspondence between spellings and parsers are stated by `Reads`: what
is read is named by its symbols, and what is left is a stream again. -/
namespace Scriptlet.Grammar

namespace Stream

/-- The lines of the tokens ahead, with that of the end of the source. -/
def lines (stream : Stream) : List Nat := (stream.ahead ++ [stream.last]).map Token.line

/-- Tokens with the given symbols stand between two places of a stream. -/
def Reads (stream : Stream) (symbols : List Symbol) (rest : Stream) : Prop :=
  ∃ tokens, stream.ahead = tokens ++ rest.ahead ∧ tokens.map Token.symbol = symbols ∧
    rest.last = stream.last

/-- All tokens are well-formed, and only the last one ends the source. -/
structure WellFormed (stream : Stream) : Prop where
  each : ∀ token ∈ stream.ahead, token.WellFormed ∧ token.kind ≠ .endOfFile
  last : stream.last.WellFormed
  ends : stream.last.kind = .endOfFile

variable {stream middle rest : Stream} {symbol : Symbol} {first second symbols : List Symbol}

@[simp] theorem reads_nil : stream.Reads [] rest ↔ stream = rest := by
  constructor
  · rintro ⟨tokens, ahead, spelled, last⟩
    obtain rfl := List.map_eq_nil_iff.mp spelled
    cases stream
    cases rest
    simp_all
  · rintro rfl
    exact ⟨[], rfl, rfl, rfl⟩

theorem reads_cons : stream.Reads (symbol :: symbols) rest ↔
    stream.ahead ≠ [] ∧ stream.current.symbol = symbol ∧ stream.advance.Reads symbols rest := by
  constructor
  · rintro ⟨tokens, ahead, spelled, last⟩
    obtain ⟨token, others, rfl, rfl, following⟩ := List.map_eq_cons_iff.mp spelled
    refine ⟨by simp [ahead], by simp [current, ahead], others, ?_, following, last⟩
    simp [advance, ahead]
  · rintro ⟨some, rfl, tokens, ahead, rfl, last⟩
    obtain ⟨token, others, same⟩ := List.exists_cons_of_ne_nil some
    refine ⟨token :: tokens, ?_, by simp [current, same], last⟩
    simpa [advance, same] using ahead

private theorem reads_append : stream.Reads (first ++ second) rest ↔
    ∃ middle, stream.Reads first middle ∧ middle.Reads second rest := by
  constructor
  · rintro ⟨tokens, ahead, spelled, last⟩
    obtain ⟨front, back, rfl, rfl, rfl⟩ := List.map_eq_append_iff.mp spelled
    refine ⟨⟨back ++ rest.ahead, stream.last⟩, ⟨front, ?_, rfl, rfl⟩, ⟨back, rfl, rfl, last⟩⟩
    simpa using ahead
  · rintro ⟨middle, ⟨front, ahead, rfl, last⟩, ⟨back, following, rfl, ends⟩⟩
    refine ⟨front ++ back, ?_, by simp, ends.trans last⟩
    rw [ahead, following, List.append_assoc]

/-- Reading a spelling in two parts, of which the first is known. -/
theorem Reads.split (first : List Symbol) (reads : stream.Reads (first ++ second) rest) :
    ∃ middle, stream.Reads first middle ∧ middle.Reads second rest :=
  reads_append.mp reads

theorem Reads.append (start : stream.Reads first middle) (finish : middle.Reads second rest) :
    stream.Reads (first ++ second) rest :=
  reads_append.mpr ⟨middle, start, finish⟩

theorem Reads.lines (reads : stream.Reads symbols rest) :
    rest.lines = stream.lines.drop symbols.length := by
  obtain ⟨tokens, ahead, rfl, last⟩ := reads
  simp [Stream.lines, ahead, last]

theorem Reads.length (reads : stream.Reads symbols rest) :
    stream.ahead.length = symbols.length + rest.ahead.length := by
  obtain ⟨tokens, ahead, rfl, last⟩ := reads
  simp [ahead]

theorem Reads.wellFormed (reads : stream.Reads symbols rest) (proper : stream.WellFormed) :
    rest.WellFormed := by
  obtain ⟨tokens, ahead, rfl, last⟩ := reads
  refine ⟨fun token member => proper.each token ?_, last ▸ proper.last, last ▸ proper.ends⟩
  rw [ahead]
  exact List.mem_append_right _ member

theorem Reads.ends (reads : stream.Reads symbols rest) (ends : stream.last.kind = .endOfFile) :
    rest.last.kind = .endOfFile := by
  obtain ⟨tokens, ahead, spelled, last⟩ := reads
  rw [last, ends]

theorem current_line (stream : Stream) : stream.current.line = stream.lines.headD 0 := by
  obtain ⟨ahead, last⟩ := stream
  cases ahead <;> rfl

theorem lines_advance (some : stream.ahead ≠ []) : stream.advance.lines = stream.lines.drop 1 := by
  obtain ⟨token, others, same⟩ := List.exists_cons_of_ne_nil some
  simp [Stream.lines, advance, same]

/-- Behind a symbol or a keyword that is read, the next place reads the others. -/
theorem Reads.mark {kind : Kind} (reads : stream.Reads (.mark kind :: symbols) rest) :
    stream.current.kind = kind ∧ stream.advance.Reads symbols rest ∧
      stream.advance.lines = stream.lines.drop 1 := by
  obtain ⟨some, symbol, behind⟩ := reads_cons.mp reads
  exact ⟨congrArg Symbol.kind symbol, behind, lines_advance some⟩

theorem WellFormed.current (proper : stream.WellFormed) : stream.current.WellFormed := by
  obtain ⟨ahead, last⟩ := stream
  cases ahead with
  | nil => exact proper.last
  | cons token others => exact (proper.each token (List.mem_cons_self ..)).1

theorem WellFormed.ahead_ne_nil (proper : stream.WellFormed)
    (other : stream.current.kind ≠ .endOfFile) : stream.ahead ≠ [] := by
  obtain ⟨ahead, last⟩ := stream
  rintro rfl
  exact other proper.ends

/-- A symbol or a keyword at a place of a stream is a token to be read there. -/
theorem WellFormed.reads_mark {kind : Kind} (proper : stream.WellFormed)
    (found : stream.current.kind = kind) (mark : kind.isMark = true) :
    stream.Reads [.mark kind] stream.advance := by
  have other : stream.current.kind ≠ .endOfFile := by
    rw [found]
    rintro rfl
    cases mark
  refine reads_cons.mpr ⟨proper.ahead_ne_nil other, ?_, reads_nil.mpr rfl⟩
  subst found
  exact proper.current.eq_mark mark

theorem WellFormed.reads_name {text : String} (proper : stream.WellFormed)
    (found : stream.current.identifier? = some text) :
    stream.Reads [.name text] stream.advance := by
  have literal : stream.current.symbol.literal = some (.identifier text) := by
    unfold Token.identifier? at found
    split at found
    · rename_i name same
      cases found
      exact same
    · cases found
  have named : stream.current.symbol = .name text := proper.current.eq_name literal
  refine reads_cons.mpr ⟨proper.ahead_ne_nil ?_, named, reads_nil.mpr rfl⟩
  have kind : stream.current.kind = .identifier := congrArg Symbol.kind named
  simp [kind]

end Stream

theorem kind_of_symbol {token : Token} {symbol : Symbol} (same : token.symbol = symbol) :
    token.kind = symbol.kind := congrArg Symbol.kind same

theorem literal_of_symbol {token : Token} {symbol : Symbol} (same : token.symbol = symbol) :
    token.literal = symbol.literal := congrArg Symbol.literal same

theorem current_of_reads {stream rest : Stream} {symbol : Symbol} {symbols : List Symbol}
    (reads : stream.Reads (symbol :: symbols) rest) : stream.current.kind = symbol.kind :=
  kind_of_symbol (Stream.reads_cons.mp reads).2.1

namespace Parser

variable {α β state failure : Type}

/-- What stands behind an action takes up its result and its state, whatever the state is. -/
theorem bind_apply (action : StateT state (Except failure) α)
    (next : α → StateT state (Except failure) β) (before : state) :
    (action >>= next) before =
      match action before with
      | .ok (result, after) => next result after
      | .error error => .error error := by
  change (action before >>= fun read => next read.1 read.2) = _
  cases action before <;> rfl

theorem bind_eq_ok {action : StateT state (Except failure) α}
    {next : α → StateT state (Except failure) β} {before after : state} {result : β} :
    (action >>= next) before = .ok (result, after) ↔
      ∃ first middle, action before = .ok (first, middle) ∧
        next first middle = .ok (result, after) := by
  rw [bind_apply]
  constructor
  · intro success
    cases found : action before with
    | error error => simp [found] at success
    | ok read => exact ⟨read.1, read.2, rfl, by simpa [found] using success⟩
  · rintro ⟨first, middle, found, success⟩
    rw [found]
    exact success

variable {stream rest : Stream}

@[simp] theorem pure_apply (result : α) (stream : Stream) :
    (pure result : Parser α) stream = .ok (result, stream) := rfl

@[simp] theorem peek_apply (stream : Stream) : peek stream = .ok (stream.current, stream) := rfl

@[simp] theorem remaining_apply (stream : Stream) :
    remaining stream = .ok (stream.ahead.length, stream) := rfl

@[simp] theorem advance_apply (stream : Stream) : advance stream = .ok ((), stream.advance) := rfl

@[simp] theorem fail_apply (fault : Fault) (stream : Stream) :
    (fail fault : Parser α) stream = .error ⟨fault, stream.current⟩ := rfl

@[simp] theorem check_apply (kind : Kind) (stream : Stream) :
    check kind stream = .ok (decide (stream.current.kind = kind), stream) := rfl

theorem take?_apply (kind : Kind) (stream : Stream) :
    take? kind stream =
      if stream.current.kind = kind then .ok (some stream.current, stream.advance)
      else .ok (none, stream) := by
  rw [take?, bind_apply]
  simp only [peek_apply]
  split <;> rfl

private theorem expect_apply (kind : Kind) (place : Place) (stream : Stream) :
    expect kind place stream =
      if stream.current.kind = kind then .ok ((), stream.advance)
      else .error ⟨.expectedToken kind place, stream.current⟩ := by
  rw [expect, bind_apply, take?_apply]
  by_cases same : stream.current.kind = kind <;> simp [same]

theorem name_apply (use : NameUse) (stream : Stream) :
    name use stream =
      match stream.current.identifier? with
      | some text => .ok (text, stream.advance)
      | none => .error ⟨.expectedName use, stream.current⟩ := by
  rw [name, bind_apply]
  simp only [peek_apply]
  split <;> simp_all [bind_apply]

theorem atDeclaration_apply (stream : Stream) :
    atDeclaration stream =
      .ok (match stream.ahead with
        | first :: second :: _ => decide (first.kind = .identifier ∧ second.kind = .colon)
        | _ => false, stream) := by
  obtain ⟨ahead, last⟩ := stream
  rcases ahead with _ | ⟨first, _ | ⟨second, others⟩⟩ <;> rfl

theorem expect_mark {kind : Kind} {place : Place} (reads : stream.Reads [.mark kind] rest) :
    expect kind place stream = .ok ((), rest) := by
  obtain ⟨_, symbol, same⟩ := Stream.reads_cons.mp reads
  rw [expect_apply, kind_of_symbol symbol, ← Stream.reads_nil.mp same]
  simp [Symbol.mark]

theorem name_name {use : NameUse} {text : String} (reads : stream.Reads [.name text] rest) :
    name use stream = .ok (text, rest) := by
  obtain ⟨_, symbol, same⟩ := Stream.reads_cons.mp reads
  rw [name_apply, Token.identifier?, literal_of_symbol symbol, ← Stream.reads_nil.mp same]
  rfl

theorem take?_mark {kind : Kind} (reads : stream.Reads [.mark kind] rest) :
    take? kind stream = .ok (some stream.current, rest) := by
  obtain ⟨_, symbol, same⟩ := Stream.reads_cons.mp reads
  rw [take?_apply, kind_of_symbol symbol, ← Stream.reads_nil.mp same]
  simp [Symbol.mark]

theorem take?_other {kind : Kind} (other : stream.current.kind ≠ kind) :
    take? kind stream = .ok (none, stream) := by
  rw [take?_apply]
  simp [other]

variable {kind : Kind}

theorem expect_reads {place : Place} {result : Unit} (proper : stream.WellFormed)
    (mark : kind.isMark = true) (success : expect kind place stream = .ok (result, rest)) :
    stream.Reads [.mark kind] rest := by
  rw [expect_apply] at success
  split at success
  · rename_i found
    cases success
    exact proper.reads_mark found mark
  · cases success

theorem name_reads {use : NameUse} {text : String} (proper : stream.WellFormed)
    (success : name use stream = .ok (text, rest)) : stream.Reads [.name text] rest := by
  rw [name_apply] at success
  split at success
  · rename_i found
    cases success
    exact proper.reads_name found
  · cases success

theorem take?_reads {found : Option Token} (proper : stream.WellFormed) (mark : kind.isMark = true)
    (success : take? kind stream = .ok (found, rest)) :
    (found = none ∧ stream = rest ∧ rest.current.kind ≠ kind) ∨
      ((∃ token, found = some token) ∧ stream.Reads [.mark kind] rest) := by
  rw [take?_apply] at success
  split at success
  · rename_i same
    cases success
    exact .inr ⟨⟨_, rfl⟩, proper.reads_mark same mark⟩
  · rename_i other
    cases success
    exact .inl ⟨rfl, rfl, other⟩

end Parser

end Scriptlet.Grammar
