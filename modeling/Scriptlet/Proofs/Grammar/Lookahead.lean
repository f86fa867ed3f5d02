import Scriptlet.Proofs.Grammar.Rounds

/-! How far parsers look ahead. What a parser does at a place of a stream is settled by the tokens
that it reads and the next one behind them: on every other stream that begins in the same way, it
does the same. If it fails, the tokens up to the one at which the error shows are enough, except
for faults that show at a token that has been read before. -/
namespace Scriptlet.Grammar

variable {α β : Type}

namespace Stream

/-- Two streams begin with the same tokens, so many of them, or end together before that. -/
inductive Shares : Nat → Stream → Stream → Prop where
  | nothing {stream other : Stream} : Shares 0 stream other
  | token {count : Nat} {first last final : Token} {ahead others : List Token}
      (behind : Shares count ⟨ahead, last⟩ ⟨others, final⟩) :
      Shares (count + 1) ⟨first :: ahead, last⟩ ⟨first :: others, final⟩
  | ended {count : Nat} {last : Token} : Shares (count + 1) ⟨[], last⟩ ⟨[], last⟩

variable {stream other : Stream} {count : Nat}

namespace Shares

theorem refl (count : Nat) (stream : Stream) : stream.Shares count stream := by
  obtain ⟨ahead, last⟩ := stream
  induction count generalizing ahead with
  | zero => exact .nothing
  | succ count ih =>
    cases ahead with
    | nil => exact .ended
    | cons first ahead => exact .token (ih ahead)

theorem current (shares : stream.Shares (count + 1) other) : other.current = stream.current := by
  cases shares <;> rfl

theorem advance (shares : stream.Shares (count + 1) other) :
    stream.advance.Shares count other.advance := by
  cases shares with
  | token behind => exact behind
  | ended => exact .refl count _

theorem drop {skipped : Nat} (shares : stream.Shares (skipped + count) other) :
    (stream.drop skipped).Shares count (other.drop skipped) := by
  induction skipped generalizing stream other with
  | zero => simpa using shares
  | succ skipped ih =>
    rw [Nat.succ_add] at shares
    have behind := ih shares.advance
    rw [← drop_one, ← drop_one, drop_drop, drop_drop, Nat.add_comm 1] at behind
    exact behind

theorem fewer {more : Nat} (shares : stream.Shares more other) (less : count ≤ more) :
    stream.Shares count other := by
  induction shares generalizing count with
  | nothing =>
    obtain rfl := Nat.le_zero.mp less
    exact .nothing
  | token _ ih =>
    cases count with
    | zero => exact .nothing
    | succ count => exact .token (ih (Nat.le_of_succ_le_succ less))
  | ended =>
    cases count with
    | zero => exact .nothing
    | succ count => exact .ended

theorem ahead_eq_nil (shares : stream.Shares (count + 1) other) :
    other.ahead = [] ↔ stream.ahead = [] := by
  cases shares with
  | token behind => simp
  | ended => exact Iff.rfl

end Shares

/-- Lists that agree on so many tokens make streams that do. -/
theorem shares_ofTokens {tokens others : List Token}
    (ends : ∃ token ∈ tokens, token.kind = .endOfFile)
    (also : ∃ token ∈ others, token.kind = .endOfFile)
    (agree : others.take count = tokens.take count) :
    (ofTokens tokens).Shares count (ofTokens others) := by
  induction count generalizing tokens others with
  | zero => exact .nothing
  | succ count ih =>
    cases tokens with
    | nil => simp at ends
    | cons first tokens =>
      cases others with
      | nil => simp at also
      | cons second others =>
        rw [List.take_succ_cons, List.take_succ_cons] at agree
        obtain ⟨rfl, behind⟩ := List.cons_eq_cons.mp agree
        by_cases isEnd : second.kind = .endOfFile
        · have here (behind : List Token) : ofTokens (second :: behind) = ⟨[], second⟩ := by
            simp [ofTokens, isEnd]
          rw [here, here]
          exact .ended
        · have here (behind : List Token) : ofTokens (second :: behind) =
              ⟨second :: (ofTokens behind).ahead, (ofTokens behind).last⟩ := by
            simp [ofTokens, isEnd]
          rw [here, here]
          exact .token (ih (by simpa [isEnd] using ends) (by simpa [isEnd] using also) behind)

theorem WellFormed.ended (proper : stream.WellFormed) : stream.Ended := proper.ends

private theorem WellFormed.drop (proper : stream.WellFormed) (count : Nat) :
    (stream.drop count).WellFormed :=
  ⟨fun token member => proper.each token (List.mem_of_mem_drop member), proper.last, proper.ends⟩

/-- How many tokens stand in front of the one with which an expression or a declaration can first
turn out to be none: a name begins both. -/
def lead (stream : Stream) : Nat := if stream.current.kind = .identifier then 1 else 0

theorem lead_le_one (stream : Stream) : stream.lead ≤ 1 := by
  unfold lead
  split <;> simp

theorem lead_other (other : stream.current.kind ≠ .identifier) : stream.lead = 0 := if_neg other

/-- Well-formed tokens carry a name if they are identifiers, and only then. -/
theorem WellFormed.identifier? (proper : stream.WellFormed) :
    stream.current.identifier?.isSome = true ↔ stream.current.kind = .identifier := by
  have fits := proper.current
  generalize stream.current = token at fits
  obtain ⟨kind, literal, line, span⟩ := token
  cases literal with
  | none =>
    have plain : kind.carriesLiteral = false := fits
    have other : kind ≠ .identifier := by
      rintro rfl
      cases plain
    simpa [Token.identifier?] using other
  | some literal =>
    have same : kind = literal.kind := fits
    subst same
    cases literal with
    | identifier name => exact iff_of_true rfl rfl
    | value value => cases value <;> simp [Token.identifier?, Literal.kind, Value.kind]

/-- Whether a name and a colon stand ahead is settled by the next token, or else by the one behind
it. -/
theorem atDeclaration_shared (stream : Stream) : ∃ found, ∀ other : Stream,
    stream.Shares (stream.lead + 1) other → Parser.atDeclaration other = .ok (found, other) := by
  by_cases isName : stream.current.kind = .identifier
  · have lead : stream.lead = 1 := if_pos isName
    rw [lead]
    refine ⟨decide (stream.advance.current.kind = .colon ∧ stream.advance.ahead ≠ []), ?_⟩
    intro other shares
    rw [Parser.atDeclaration_apply]
    cases shares with
    | ended => simp [advance]
    | @token _ first _ _ _ _ behind =>
      have named : first.kind = .identifier := isName
      cases behind with
      | ended => simp [advance]
      | token _ => simp [named, advance, current]
  · rw [lead_other isName]
    refine ⟨false, fun other shares => ?_⟩
    rw [Parser.atDeclaration_apply]
    have noName : other.current.kind ≠ .identifier := shares.current ▸ isName
    obtain ⟨ahead, last⟩ := other
    rcases ahead with _ | ⟨first, _ | ⟨second, others⟩⟩
    · rfl
    · rfl
    · have noName : first.kind ≠ .identifier := noName
      simp [noName]

end Stream

/-- Faults that are told only when what stands behind the token at which they show has been
read. -/
def Fault.IsLate (fault : Fault) : Prop := fault = .invalidTarget ∨ fault = .includeUnavailable

/-- What happens at a place of a stream is the same on all streams that share the tokens that are
read there, at least so many, and the next one; or those up to the one at which an error shows. -/
inductive Settles (least : Nat) (runs : Stream → Except Error (α × Stream) → Prop)
    (stream : Stream) : Prop where
  | reads (value : α) (count : Nat) (enough : least ≤ count)
      (inside : count ≤ stream.ahead.length)
      (same : ∀ other, other.WellFormed → stream.Shares (count + 1) other →
        runs other (.ok (value, other.drop count)))
  | fails (error : Error) (count : Nat) (enough : least ≤ count)
      (inside : count ≤ stream.ahead.length)
      (here : (stream.drop count).current = error.token)
      (same : ∀ other, other.WellFormed → stream.Shares (count + 1) other →
        runs other (.error error))
  | late (error : Error) (failed : runs stream (.error error)) (isLate : error.fault.IsLate)

/-- Something that goes on as something else does, so many tokens further on. -/
theorem Settles.goingOn {least count more : Nat} {stream : Stream}
    {runs : Stream → Except Error (α × Stream) → Prop}
    {others : Stream → Except Error (α × Stream) → Prop}
    (settles : Settles more others (stream.drop count)) (proper : stream.WellFormed)
    (inside : count ≤ stream.ahead.length) (enough : least ≤ count + more)
    (equal : ∀ other outcome, other.WellFormed → stream.Shares (count + more + 1) other →
      others (other.drop count) outcome → runs other outcome) : Settles least runs stream := by
  have length : (stream.drop count).ahead.length = stream.ahead.length - count := List.length_drop
  have behind {further : Nat} {other : Stream}
      (shares : stream.Shares (count + further + 1) other) :
      (stream.drop count).Shares (further + 1) (other.drop count) :=
    (Nat.add_assoc count further 1 ▸ shares).drop
  cases settles with
  | late error failed isLate => exact .late error (equal stream _ proper (.refl _ _) failed) isLate
  | fails error further beyond within here same =>
    refine .fails error (count + further) (by omega) (by omega) ?_ fun other fits shares => ?_
    · rw [← here, Stream.drop_drop]
    · apply equal other _ fits (shares.fewer (by omega))
      exact same _ (fits.drop count) (behind shares)
  | reads value further beyond within same =>
    refine .reads value (count + further) (by omega) (by omega) fun other fits shares => ?_
    apply equal other _ fits (shares.fewer (by omega))
    rw [← Stream.drop_drop]
    exact same _ (fits.drop count) (behind shares)

/-- What a parser does at a place of a stream is settled. -/
abbrev Parser.Settled (least : Nat) (parser : Parser α) (stream : Stream) : Prop :=
  Settles least (fun other outcome => parser other = outcome) stream

namespace Parser.Settled

variable {least : Nat} {stream : Stream} {parser another : Parser α} {next : α → Parser β}

theorem congr (settled : Settled least another stream) (proper : stream.WellFormed)
    (equal : ∀ other, other.WellFormed → stream.Shares (least + 1) other →
      parser other = another other) : Settled least parser stream := by
  refine Settles.goingOn settled proper (Nat.zero_le _) (Nat.le_of_eq (Nat.zero_add least).symm) ?_
  intro other outcome fits shares same
  rw [Nat.zero_add] at shares
  exact (equal other fits shares).trans same

theorem weaken {more : Nat} (settled : Settled more parser stream) (fewer : least ≤ more) :
    Settled least parser stream := by
  cases settled with
  | reads value count enough inside same =>
    exact .reads value count (Nat.le_trans fewer enough) inside same
  | fails error count enough inside here same =>
    exact .fails error count (Nat.le_trans fewer enough) inside here same
  | late error failed isLate => exact .late error failed isLate

theorem any (settled : Settled least parser stream) : Settled 0 parser stream :=
  settled.weaken (Nat.zero_le least)

/-- What stands behind a parser is settled by further tokens. -/
theorem bind (start : Settled least parser stream) (proper : stream.WellFormed)
    (behind : ∀ value rest, rest.WellFormed → rest.ahead.length + least ≤ stream.ahead.length →
      Settled 0 (next value) rest) : Settled least (parser >>= next) stream := by
  cases start with
  | late error failed isLate =>
    refine .late error ?_ isLate
    rw [bind_apply, failed]
  | fails error count enough inside here same =>
    refine .fails error count enough inside here fun other fits shares => ?_
    rw [bind_apply, same other fits shares]
  | reads value count enough inside same =>
    have shorter : (stream.drop count).ahead.length + least ≤ stream.ahead.length := by
      rw [Stream.ahead_drop, List.length_drop]
      omega
    refine Settles.goingOn (behind value _ (proper.drop count) shorter) proper inside enough ?_
    intro other outcome fits shares behind
    rw [bind_apply, same other fits shares]
    exact behind

theorem pure (value : α) (stream : Stream) : Settled 0 (Pure.pure value) stream :=
  .reads value 0 (Nat.le_refl 0) (Nat.zero_le _) fun _ _ _ => rfl

theorem fail (fault : Fault) (stream : Stream) :
    Settled 0 (Parser.fail fault : Parser α) stream := by
  refine .fails ⟨fault, stream.current⟩ 0 (Nat.le_refl 0) (Nat.zero_le _) rfl ?_
  intro other _ shares
  rw [fail_apply, shares.current]

theorem throw {error : Error} (isLate : error.fault.IsLate) (stream : Stream) :
    Settled least (throwThe Error error : Parser α) stream :=
  .late error rfl isLate

theorem advance (proper : stream.WellFormed) (other : stream.current.kind ≠ .endOfFile) :
    Settled 1 Parser.advance stream := by
  refine .reads () 1 (Nat.le_refl 1) (List.length_pos_iff.mpr (proper.ahead_ne_nil other)) ?_
  intro other _ _
  rw [advance_apply, Stream.drop_one]

/-- What stands behind a token that is read whatever it is. -/
theorem advancing {next : Parser β} (proper : stream.WellFormed)
    (other : stream.current.kind ≠ .endOfFile) (few : least ≤ 1)
    (behind : ∀ rest : Stream, rest.WellFormed → rest.ahead.length < stream.ahead.length →
      Settled 0 next rest) : Settled least (Parser.advance >>= fun _ => next) stream :=
  ((advance proper other).bind proper
    fun _ rest fits shorter => behind rest fits shorter).weaken few

theorem peek {next : Token → Parser β} (proper : stream.WellFormed)
    (behind : Settled least (next stream.current) stream) :
    Settled least (Parser.peek >>= next) stream := by
  refine behind.congr proper fun other _ shares => ?_
  rw [bind_apply, peek_apply, shares.current]

theorem check {kind : Kind} {next : Bool → Parser β} (proper : stream.WellFormed)
    (behind : ∀ found, Settled least (next found) stream) :
    Settled least (Parser.check kind >>= next) stream := by
  refine (behind (decide (stream.current.kind = kind))).congr proper fun other _ shares => ?_
  rw [bind_apply, check_apply, shares.current]

theorem take? {kind : Kind} {next : Option Token → Parser β} (proper : stream.WellFormed)
    (noEnd : kind ≠ .endOfFile) (absent : Settled least (next none) stream)
    (present : ∀ rest, rest.WellFormed → rest.ahead.length < stream.ahead.length →
      Settled 0 (next (some stream.current)) rest) (few : least ≤ 1) :
    Settled least (Parser.take? kind >>= next) stream := by
  by_cases found : stream.current.kind = kind
  · refine (advancing proper (found ▸ noEnd) few present).congr proper fun other _ shares => ?_
    rw [bind_apply, take?_apply, if_pos (shares.current ▸ found), shares.current]
    rfl
  · refine absent.congr proper fun other _ shares => ?_
    rw [bind_apply, take?_apply, if_neg (shares.current ▸ found)]

theorem expect {kind : Kind} (noEnd : kind ≠ .endOfFile) (place : Place)
    (proper : stream.WellFormed) : Settled 0 (Parser.expect kind place) stream :=
  take? proper noEnd (fail _ stream) (fun rest _ _ => pure () rest) (Nat.zero_le 1)

/-- A part that is closed by a mark. -/
theorem closed {kind : Kind} (noEnd : kind ≠ .endOfFile) (place : Place) (value : α)
    (proper : stream.WellFormed) :
    Settled 0 (do Parser.expect kind place; return value) stream :=
  bind (expect noEnd place proper) proper fun _ rest _ _ => pure value rest

/-- An identifier is a name; whether it is one is settled by the token itself. -/
theorem name (use : NameUse) (proper : stream.WellFormed) :
    Settled stream.lead (Parser.name use) stream := by
  apply peek proper
  cases found : stream.current.identifier? with
  | some text =>
    have isName := proper.identifier?.mp (by rw [found]; rfl)
    refine advancing proper ?_ stream.lead_le_one fun rest _ _ => pure text rest
    simp [isName]
  | none =>
    have noName : stream.current.kind ≠ .identifier := by
      intro isName
      have some := proper.identifier?.mpr isName
      rw [found] at some
      cases some
    rw [Stream.lead_other noName]
    exact fail _ stream

theorem atDeclaration {next : Bool → Parser β} (proper : stream.WellFormed)
    (behind : ∀ found, Settled stream.lead (next found) stream) :
    Settled stream.lead (Parser.atDeclaration >>= next) stream := by
  obtain ⟨found, here⟩ : ∃ found, ∀ other : Stream, stream.Shares (stream.lead + 1) other →
      Parser.atDeclaration other = .ok (found, other) := stream.atDeclaration_shared
  refine (behind found).congr proper fun other _ shares => ?_
  rw [bind_apply, here other shares]

end Parser.Settled

section Loops

variable {round : α → Parser (ForInStep α)} {state start : α} {stream : Stream}

private theorem settles_of_round (turn : (round state).Settled 0 stream)
    (proper : stream.WellFormed)
    (next : ∀ following count, round state stream = .ok (.yield following, stream.drop count) →
      Settles 0 (Rounds round following) (stream.drop count)) :
    Settles 0 (Rounds round state) stream := by
  cases turn with
  | late error failed isLate => exact .late error (.failed failed) isLate
  | fails error count enough inside here same =>
    exact .fails error count enough inside here fun other fits shares =>
      .failed (same other fits shares)
  | reads turn count enough inside same =>
    cases turn with
    | done result =>
      exact .reads result count enough inside fun other fits shares =>
        .last (same other fits shares)
    | yield following =>
      refine Settles.goingOn (next following count (same stream proper (.refl _ _))) proper inside
        (Nat.zero_le _) ?_
      intro other outcome fits shares behind
      exact .next (same other fits shares) behind

/-- A loop is settled if its rounds are. -/
theorem Rounds.settles {outcome : Except Error (α × Stream)} {bound : Nat}
    (turns : ∀ state rest, rest.WellFormed → rest.ahead.length ≤ bound →
      (round state).Settled 0 rest)
    (rounds : Rounds round state stream outcome) (proper : stream.WellFormed)
    (inside : stream.ahead.length ≤ bound) : Settles 0 (Rounds round state) stream := by
  induction rounds with
  | failed here =>
    refine settles_of_round (turns _ _ proper inside) proper fun following count yields => ?_
    rw [here] at yields
    cases yields
  | last here =>
    refine settles_of_round (turns _ _ proper inside) proper fun following count yields => ?_
    rw [here] at yields
    cases yields
  | next here _ ih =>
    refine settles_of_round (turns _ _ proper inside) proper fun following count yields => ?_
    rw [here] at yields
    cases yields
    refine ih (proper.drop count) (Nat.le_trans ?_ inside)
    rw [Stream.ahead_drop, List.length_drop]
    exact Nat.sub_le ..

theorem Parser.Settled.loop {parser : Parser α}
    (finishes : ∀ other : Stream, other.Ended → Rounds round start other (parser other))
    (proper : stream.WellFormed)
    (turns : ∀ state rest, rest.WellFormed → rest.ahead.length ≤ stream.ahead.length →
      (round state).Settled 0 rest) : parser.Settled 0 stream := by
  have settles : Settles 0 (Rounds round start) (stream.drop 0) :=
    (finishes stream proper.ended).settles turns proper (Nat.le_refl _)
  refine settles.goingOn proper (Nat.zero_le _) (Nat.le_refl 0) ?_
  intro other outcome fits _ rounds
  exact (finishes other fits.ended).unique rounds

end Loops

end Scriptlet.Grammar
