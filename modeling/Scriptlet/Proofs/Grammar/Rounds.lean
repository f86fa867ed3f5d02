import Scriptlet.Grammar.Outline
import Scriptlet.Proofs.Grammar.Reading

/-! Parsers that move on. A loop of the grammar goes round until one of its rounds ends it, and
nested expressions and statements begin behind a token of the outer one. The parsers are written
with bounds on both; two parsers agree at a place of a stream if they do the same there, so that
a bound is shown not to matter by comparing parsers with different bounds. What a parser leaves
is found so many tokens further on in the stream, which also counts the rounds. -/
namespace Scriptlet.Grammar

variable {α β : Type}

namespace Stream

/-- The token behind all others is one that ends a source. -/
def Ended (stream : Stream) : Prop := stream.last.kind = .endOfFile

/-- The stream so many tokens further on. -/
def drop (stream : Stream) (count : Nat) : Stream := ⟨stream.ahead.drop count, stream.last⟩

/-- The rest of a stream from at least so many tokens further on, and not behind its end. -/
def Further (least : Nat) (stream rest : Stream) : Prop :=
  ∃ count, least ≤ count ∧ count ≤ stream.ahead.length ∧ rest = stream.drop count

variable {least more : Nat} {stream middle rest : Stream}

@[simp] theorem drop_zero (stream : Stream) : stream.drop 0 = stream := rfl

theorem drop_one (stream : Stream) : stream.drop 1 = stream.advance := by
  simp [drop, advance]

@[simp] theorem drop_drop (stream : Stream) (first second : Nat) :
    (stream.drop first).drop second = stream.drop (first + second) := by
  simp [drop]

@[simp] theorem ahead_drop (stream : Stream) (count : Nat) :
    (stream.drop count).ahead = stream.ahead.drop count := rfl

theorem current_ended (ended : stream.Ended) (empty : stream.ahead = []) :
    stream.current.kind = .endOfFile := by
  rw [current, empty]
  exact ended

private theorem ahead_ne_nil (ended : stream.Ended) (other : stream.current.kind ≠ .endOfFile) :
    stream.ahead ≠ [] := by
  intro empty
  exact other (current_ended ended empty)

/-- What holds at the end of a stream, and inside of it for two bounds if it holds further on for
bounds smaller by one, holds for all bounds that are not below the number of tokens ahead. -/
theorem within_bounds {motive : Nat → Nat → Stream → Prop}
    (ends : ∀ first second stream, stream.ahead = [] → motive first second stream)
    (step : ∀ first second stream, (∀ rest, rest.ahead.length < stream.ahead.length →
      motive first second rest) → motive (first + 1) (second + 1) stream)
    {first second : Nat} {stream : Stream} (enough : stream.ahead.length ≤ first)
    (also : stream.ahead.length ≤ second) : motive first second stream := by
  induction first generalizing second stream with
  | zero => exact ends 0 second stream (List.length_eq_zero_iff.mp (Nat.le_zero.mp enough))
  | succ first ih =>
    cases second with
    | zero =>
      exact ends (first + 1) 0 stream (List.length_eq_zero_iff.mp (Nat.le_zero.mp also))
    | succ second => exact step first second stream fun rest shorter => ih (by omega) (by omega)

namespace Further

theorem refl (stream : Stream) : stream.Further 0 stream := ⟨0, Nat.le_refl 0, Nat.zero_le _, rfl⟩

theorem trans (first : stream.Further least middle) (second : middle.Further more rest) :
    stream.Further (least + more) rest := by
  obtain ⟨count, enough, inside, rfl⟩ := first
  obtain ⟨others, also, within, rfl⟩ := second
  rw [ahead_drop, List.length_drop] at within
  exact ⟨count + others, by omega, by omega, drop_drop ..⟩

theorem weaken (further : stream.Further more rest) (fewer : least ≤ more) :
    stream.Further least rest := by
  obtain ⟨count, enough, inside, same⟩ := further
  exact ⟨count, Nat.le_trans fewer enough, inside, same⟩

theorem length (further : stream.Further least rest) :
    rest.ahead.length + least ≤ stream.ahead.length := by
  obtain ⟨count, enough, inside, rfl⟩ := further
  rw [ahead_drop, List.length_drop]
  omega

theorem ended (further : stream.Further least rest) (ended : stream.Ended) : rest.Ended := by
  obtain ⟨_, _, _, rfl⟩ := further
  exact ended

theorem advance (some : stream.ahead ≠ []) : stream.Further 1 stream.advance :=
  ⟨1, Nat.le_refl 1, List.length_pos_iff.mpr some, (drop_one stream).symm⟩

end Further

end Stream

/-- What a loop comes to that starts in a state at a place of a stream, if it does come to an end:
a round fails, is the last one, or goes over into the next one. -/
inductive Rounds (round : α → Parser (ForInStep α)) :
    α → Stream → Except Error (α × Stream) → Prop where
  | failed {state : α} {stream : Stream} {error : Error}
      (here : round state stream = .error error) :
      Rounds round state stream (.error error)
  | last {state result : α} {stream rest : Stream}
      (here : round state stream = .ok (.done result, rest)) :
      Rounds round state stream (.ok (result, rest))
  | next {state following : α} {stream rest : Stream} {outcome : Except Error (α × Stream)}
      (here : round state stream = .ok (.yield following, rest))
      (behind : Rounds round following rest outcome) : Rounds round state stream outcome

variable {round other : α → Parser (ForInStep α)}

/-- A loop is its first round and what that round leads to. -/
theorem rounds_iff {state : α} {stream : Stream} {outcome : Except Error (α × Stream)} :
    Rounds round state stream outcome ↔
      match round state stream with
      | .error error => outcome = .error error
      | .ok (.done result, rest) => outcome = .ok (result, rest)
      | .ok (.yield following, rest) => Rounds round following rest outcome := by
  constructor
  · intro rounds
    cases rounds with
    | failed here => rw [here]
    | last here => rw [here]
    | next here behind =>
      rw [here]
      exact behind
  · intro given
    split at given
    · rename_i here
      exact given ▸ .failed here
    · rename_i here
      exact given ▸ .last here
    · rename_i here
      exact .next here given

/-- There is one way only for a loop to end. -/
theorem Rounds.unique {state : α} {stream : Stream} {outcome another : Except Error (α × Stream)}
    (first : Rounds round state stream outcome) (second : Rounds round state stream another) :
    outcome = another := by
  induction first with
  | failed here =>
    rw [rounds_iff, here] at second
    exact second.symm
  | last here =>
    rw [rounds_iff, here] at second
    exact second.symm
  | next here _ ih =>
    rw [rounds_iff, here] at second
    exact ih second

/-- A parser that is a loop: every round reads a token, unless it finds that the loop is at its end
and changes nothing; and so the loop comes to an end, with what the parser gives. -/
structure Parser.Loops (round : α → Parser (ForInStep α)) (start : α) (parser : Parser α) :
    Prop where
  progress : ∀ state stream turn rest, stream.Ended → round state stream = .ok (turn, rest) →
    stream.Further 1 rest ∨ turn = .done state ∧ rest = stream
  finishes : ∀ stream, stream.Ended → Rounds round start stream (parser stream)

/-- At a place of a stream, two parsers do the same, and what they leave is at least so many
tokens further on. -/
def Parser.Agree (least : Nat) (first second : Parser α) (stream : Stream) : Prop :=
  stream.Ended → first stream = second stream ∧
    ∀ value rest, first stream = .ok (value, rest) → stream.Further least rest

namespace Parser.Agree

variable {least : Nat} {stream : Stream} {first second : Parser α} {next also : α → Parser β}

theorem same (agree : Agree least first second stream) (ended : stream.Ended) :
    first stream = second stream :=
  (agree ended).1

theorem further {value : α} {rest : Stream} (agree : Agree least first second stream)
    (ended : stream.Ended) (read : first stream = .ok (value, rest)) : stream.Further least rest :=
  (agree ended).2 value rest read

theorem weaken {more : Nat} (agree : Agree more first second stream) (fewer : least ≤ more) :
    Agree least first second stream :=
  fun ended => ⟨agree.same ended, fun _ _ read => (agree.further ended read).weaken fewer⟩

theorem any (agree : Agree least first second stream) : Agree 0 first second stream :=
  agree.weaken (Nat.zero_le least)

theorem symm (agree : Agree least first second stream) : Agree least second first stream := by
  intro ended
  have same := agree.same ended
  exact ⟨same.symm, fun _ _ read => agree.further ended (same.trans read)⟩

theorem left (agree : Agree least first second stream) : Agree least first first stream :=
  fun ended => ⟨rfl, fun _ _ => agree.further ended⟩

theorem congr {third fourth : Parser α} (agree : Agree least third fourth stream)
    (one : stream.Ended → first stream = third stream)
    (two : stream.Ended → second stream = fourth stream) : Agree least first second stream := by
  intro ended
  rw [one ended, two ended]
  exact agree ended

/-- What stands behind a parser begins further on. -/
theorem sequence {most more : Nat} (start : Agree least first second stream)
    (behind : ∀ value rest, rest.ahead.length + least ≤ stream.ahead.length →
      Agree more (next value) (also value) rest) (enough : most ≤ least + more) :
    Agree most (first >>= next) (second >>= also) stream := by
  intro ended
  have same := start.same ended
  rw [bind_apply, bind_apply, ← same]
  cases read : first stream with
  | error error =>
    refine ⟨rfl, ?_⟩
    intro value rest impossible
    cases impossible
  | ok result =>
    obtain ⟨value, middle⟩ := result
    have further := start.further ended read
    obtain ⟨alike, later⟩ := behind value middle further.length (further.ended ended)
    refine ⟨alike, fun _ _ read => ?_⟩
    exact (further.trans (later _ _ read)).weaken enough

/-- A parser that reads enough, whatever stands behind it. -/
theorem bind (start : Agree least first second stream)
    (behind : ∀ value rest, rest.ahead.length + least ≤ stream.ahead.length →
      Agree 0 (next value) (also value) rest) :
    Agree least (first >>= next) (second >>= also) stream :=
  start.sequence behind (Nat.le_refl least)

/-- A parser behind which enough is read. -/
theorem before (start : Agree 0 first second stream)
    (behind : ∀ value rest, rest.ahead.length ≤ stream.ahead.length →
      Agree least (next value) (also value) rest) :
    Agree least (first >>= next) (second >>= also) stream :=
  start.sequence behind (Nat.le_of_eq (Nat.zero_add least).symm)

theorem pure (value : α) (stream : Stream) :
    Agree 0 (Pure.pure value) (Pure.pure value : Parser α) stream := by
  refine fun _ => ⟨rfl, fun _ _ read => ?_⟩
  cases read
  exact .refl stream

theorem fail (fault : Fault) (stream : Stream) :
    Agree least (Parser.fail fault) (Parser.fail fault : Parser α) stream := by
  refine fun _ => ⟨rfl, fun _ _ read => ?_⟩
  cases read

theorem throw (error : Error) (stream : Stream) :
    Agree least (throwThe Error error) (throwThe Error error : Parser α) stream := by
  refine fun _ => ⟨rfl, fun _ _ read => ?_⟩
  cases read

theorem advance (other : stream.current.kind ≠ .endOfFile) :
    Agree 1 Parser.advance Parser.advance stream := by
  refine fun ended => ⟨rfl, fun _ _ read => ?_⟩
  cases read
  exact .advance (Stream.ahead_ne_nil ended other)

theorem peek {next also : Token → Parser β}
    (behind : Agree least (next stream.current) (also stream.current) stream) :
    Agree least (Parser.peek >>= next) (Parser.peek >>= also) stream :=
  behind

theorem remaining {next also : Nat → Parser β}
    (behind : Agree least (next stream.ahead.length) (also stream.ahead.length) stream) :
    Agree least (Parser.remaining >>= next) (Parser.remaining >>= also) stream :=
  behind

theorem check {kind : Kind} {next also : Bool → Parser β}
    (behind : ∀ found, Agree least (next found) (also found) stream) :
    Agree least (Parser.check kind >>= next) (Parser.check kind >>= also) stream :=
  behind (decide (stream.current.kind = kind))

theorem atDeclaration {next also : Bool → Parser β}
    (behind : ∀ found, Agree least (next found) (also found) stream) :
    Agree least (Parser.atDeclaration >>= next) (Parser.atDeclaration >>= also) stream := by
  intro ended
  rw [bind_apply, bind_apply, atDeclaration_apply]
  exact behind _ ended

theorem take? {kind : Kind} {next also : Option Token → Parser β} (other : kind ≠ .endOfFile)
    (absent : Agree least (next none) (also none) stream)
    (present : ∀ rest, rest.ahead.length < stream.ahead.length →
      Agree 0 (next (some stream.current)) (also (some stream.current)) rest) (few : least ≤ 1) :
    Agree least (Parser.take? kind >>= next) (Parser.take? kind >>= also) stream := by
  intro ended
  rw [bind_apply, bind_apply, take?_apply]
  by_cases found : stream.current.kind = kind
  · rw [if_pos found]
    have further := Stream.Further.advance (Stream.ahead_ne_nil ended (found ▸ other))
    obtain ⟨alike, later⟩ := present stream.advance further.length (further.ended ended)
    exact ⟨alike, fun _ _ read => (further.trans (later _ _ read)).weaken few⟩
  · rw [if_neg found]
    exact absent ended

theorem expect {kind : Kind} (other : kind ≠ .endOfFile) (place : Place) (stream : Stream) :
    Agree 1 (Parser.expect kind place) (Parser.expect kind place) stream :=
  .take? other (.fail _ _) (fun rest _ => .pure () rest) (Nat.le_refl 1)

/-- A part that is closed by a mark. -/
theorem closed {kind : Kind} (other : kind ≠ .endOfFile) (place : Place) (value : α)
    (stream : Stream) : Agree 1 (do Parser.expect kind place; return value)
      (do Parser.expect kind place; return value) stream :=
  bind (expect other place stream) fun _ rest _ => pure value rest

theorem name (use : NameUse) (stream : Stream) :
    Agree 0 (Parser.name use) (Parser.name use) stream := by
  refine fun ended => ⟨rfl, fun _ _ read => ?_⟩
  rw [name_apply] at read
  split at read
  · cases read
    by_cases empty : stream.ahead = []
    · have stays : stream.advance = stream := by
        rw [Stream.advance, empty, List.tail_nil, ← empty]
      rw [stays]
      exact .refl stream
    · exact (Stream.Further.advance empty).weaken (Nat.zero_le 1)
  · cases read

end Parser.Agree

/-- A round of a loop ends it in the state in which it is, or reads a token. -/
def Parser.Turns (state : α) (first second : Parser (ForInStep α)) (stream : Stream) : Prop :=
  Agree 1 first second stream ∨
    first stream = .ok (.done state, stream) ∧ second stream = .ok (.done state, stream)

/-- What a round leads to. -/
def goOn (next : α → Parser α) : ForInStep α → Parser α
  | .done result => pure result
  | .yield following => next following

namespace Parser

theorem Turns.progress {state : α} {turn : ForInStep α} {first second : Parser (ForInStep α)}
    {stream rest : Stream} (turns : Turns state first second stream) (ended : stream.Ended)
    (read : first stream = .ok (turn, rest)) :
    stream.Further 1 rest ∨ turn = .done state ∧ rest = stream := by
  rcases turns with agree | stops
  · exact .inl (agree.further ended read)
  · rw [stops.1] at read
    cases read
    exact .inr ⟨rfl, rfl⟩

theorem Turns.agree {state : α} {first second : Parser (ForInStep α)}
    {stream : Stream} (turns : Turns state first second stream) :
    Agree 0 first second stream := by
  rcases turns with agree | stops
  · exact agree.any
  · refine fun ended => ⟨stops.1.trans stops.2.symm, fun _ _ read => ?_⟩
    rw [stops.1] at read
    cases read
    exact .refl stream

/-- A loop with a bound on its rounds is the loop, if the bound is not below the number of tokens
ahead. -/
theorem rounds_of_bounded (bounded : Nat → α → Parser α) {bound : Nat}
    (turns : ∀ state stream, stream.ahead.length ≤ bound →
      Turns state (round state) (round state) stream)
    (first : ∀ state stream, stream.Ended → stream.ahead = [] →
      Rounds round state stream (bounded 0 state stream))
    (step : ∀ count state, bounded (count + 1) state = round state >>= goOn (bounded count))
    {count : Nat} {state : α} {stream : Stream} (ended : stream.Ended)
    (inside : stream.ahead.length ≤ bound) (enough : stream.ahead.length ≤ count) :
    Rounds round state stream (bounded count state stream) := by
  induction count generalizing state stream with
  | zero => exact first state stream ended (List.length_eq_zero_iff.mp (Nat.le_zero.mp enough))
  | succ count ih =>
    rw [rounds_iff, step, bind_apply]
    cases read : round state stream with
    | error error => rfl
    | ok result =>
      obtain ⟨turn, rest⟩ := result
      cases turn with
      | done value => rfl
      | yield following =>
        obtain further | ⟨stops, _⟩ := (turns state stream inside).progress ended read
        case inr => cases stops
        have shorter := further.length
        exact ih (further.ended ended) (by omega) (by omega)

/-- Where all rounds of two loops agree, the one ends as the other does, further on. -/
theorem rounds_of_turns {bound : Nat} {state : α} {stream : Stream}
    {outcome : Except Error (α × Stream)}
    (turns : ∀ state rest, rest.ahead.length ≤ bound →
      Turns state (round state) (other state) rest)
    (rounds : Rounds round state stream outcome) (ended : stream.Ended)
    (inside : stream.ahead.length ≤ bound) :
    Rounds other state stream outcome ∧
      ∀ value rest, outcome = .ok (value, rest) → stream.Further 0 rest := by
  induction rounds with
  | @failed state stream error here =>
    have same := (turns state stream inside).agree.same ended
    refine ⟨.failed (same.symm.trans here), ?_⟩
    intro value rest impossible
    cases impossible
  | @last state result stream rest here =>
    have agree := (turns state stream inside).agree
    refine ⟨.last ((agree.same ended).symm.trans here), ?_⟩
    intro value rest same
    cases same
    exact agree.further ended here
  | @next state following stream rest outcome here _ ih =>
    have agree := (turns state stream inside).agree
    have further := agree.further ended here
    obtain ⟨rounds, later⟩ := ih (further.ended ended) (Nat.le_trans further.length inside)
    refine ⟨.next ((agree.same ended).symm.trans here) rounds, ?_⟩
    intro value last same
    exact further.trans (later value last same)

/-- Loops agree if their rounds do. -/
theorem agree_of_rounds {first second : Parser α} {start : α} {stream : Stream}
    (turns : ∀ state rest, rest.ahead.length ≤ stream.ahead.length →
      Turns state (round state) (other state) rest)
    (one : stream.Ended → Rounds round start stream (first stream))
    (two : stream.Ended → Rounds other start stream (second stream)) :
    Agree 0 first second stream := by
  intro ended
  obtain ⟨rounds, further⟩ := rounds_of_turns turns (one ended) ended (Nat.le_refl _)
  exact ⟨rounds.unique (two ended), further⟩

end Parser

end Scriptlet.Grammar
