import Scriptlet.Token.Lexeme

/-! Where lexemes end. A text is a lexeme by itself if it is spelled by the rules below; in
front of other text it is read as the same lexeme as long as that text does not go on with
it. Reading takes up no less and no more. -/
namespace Scriptlet.Lexeme

/-- Texts that are one lexeme by themselves. -/
inductive Spelled : List Char → Lexeme → Prop where
  | string {body : List Char} (inside : '"' ∉ body) :
      Spelled ('"' :: (body ++ ['"']))
        ⟨.stringLiteral, some (.value (.string (String.ofList (unescape body)))), body.length + 1⟩
  | int {first : Char} {digits : List Char} (leading : first.isDigit = true)
      (each : ∀ digit ∈ digits, digit.isDigit = true)
      (fits : digitsValue (first :: digits) ≤ largestInt) :
      Spelled (first :: digits)
        ⟨.intLiteral, some (.value (.int (Int64.ofNat (digitsValue (first :: digits))))),
          digits.length⟩
  | double {first : Char} {whole fraction : List Char} (leading : first.isDigit = true)
      (each : ∀ digit ∈ whole, digit.isDigit = true)
      (behind : ∀ digit ∈ fraction, digit.isDigit = true) (some : fraction ≠ []) :
      Spelled (first :: (whole ++ '.' :: fraction)) (double (first :: whole) fraction)
  | word {first : Char} {tail : List Char} (leading : isWordStart first = true)
      (each : ∀ part ∈ tail, isWordPart part = true) : Spelled (first :: tail) (word first tail)
  | pair {first second : Char} {kind : Kind}
      (known : Kind.ofSymbolPair? first second = some kind) :
      Spelled [first, second] ⟨kind, none, 1⟩
  | symbol {first : Char} {kind : Kind} (known : Kind.ofSymbol? first = some kind) :
      Spelled [first] ⟨kind, none, 0⟩

/-- Whether a text begins with a character of the given class. -/
def begins (accepted : Char → Bool) (text : List Char) : Bool := text.head?.any accepted

/-- Whether a text begins with a point and a digit, which make a fraction behind digits. -/
def beginsFraction : List Char → Bool
  | '.' :: rest => begins Char.isDigit rest
  | _ => false

/-- Whether a text goes on with the lexeme in front of it, so that the lexeme alone would not
have been read: more digits or a fraction behind a number, more characters of a word, a second
character of a symbol. A second slash makes a comment. -/
def goesOn : List Char → List Char → Bool
  | [], _ => false
  | first :: tail, follow =>
    if first = '"' then false
    else if first.isDigit then
      begins Char.isDigit follow || (!tail.contains '.' && beginsFraction follow)
    else if isWordStart first then begins isWordPart follow
    else
      tail.isEmpty && begins (fun second =>
        (Kind.ofSymbolPair? first second).isSome || (first == '/' && second == '/')) follow

@[simp] theorem begins_nil (accepted : Char → Bool) : begins accepted [] = false := rfl

@[simp] theorem begins_cons (accepted : Char → Bool) (first : Char) (rest : List Char) :
    begins accepted (first :: rest) = accepted first := rfl

/-- Nothing goes on behind the end of a text. -/
@[simp] theorem goesOn_nil (text : List Char) : goesOn text [] = false := by
  cases text with
  | nil => rfl
  | cons first tail => simp [goesOn, beginsFraction]

theorem takeWhile_run {accepted : Char → Bool} {run : List Char}
    (each : ∀ character ∈ run, accepted character = true) (follow : List Char)
    (ends : begins accepted follow = false) :
    (run ++ follow).takeWhile accepted = run ∧ (run ++ follow).dropWhile accepted = follow := by
  rw [List.takeWhile_append_of_pos each, List.dropWhile_append_of_pos each]
  cases follow with
  | nil => simp
  | cons first rest =>
    rw [begins_cons] at ends
    simp [ends]

theorem takeWhile_all {accepted : Char → Bool} {run : List Char}
    (each : ∀ character ∈ run, accepted character = true) : run.takeWhile accepted = run := by
  simpa using (takeWhile_run each [] rfl).1

/-- Every text is a run of a class and a rest that does not begin with it. -/
theorem exists_run (accepted : Char → Bool) (text : List Char) :
    ∃ run follow, text = run ++ follow ∧ (∀ character ∈ run, accepted character = true) ∧
      begins accepted follow = false := by
  refine ⟨text.takeWhile accepted, text.dropWhile accepted, ?_, ?_, ?_⟩
  · exact List.takeWhile_append_dropWhile.symm
  · intro character member
    exact List.all_eq_true.mp List.all_takeWhile character member
  · have stopped := List.head?_dropWhile_not accepted text
    unfold begins
    cases head : (text.dropWhile accepted).head? with
    | none => rfl
    | some first => simpa [head] using stopped

theorem ne_quote_of_isDigit {first : Char} (digit : first.isDigit = true) : first ≠ '"' := by
  rintro rfl
  cases digit

theorem word_class {first : Char} (leading : isWordStart first = true) :
    first ≠ '"' ∧ first.isDigit = false := by
  constructor
  · rintro rfl
    cases leading
  · -- Every letter and the underscore stand behind the last digit.
    have behind : '9'.val < first.val := by
      have classes : ((first.isUpper || first.isLower) || first == '_') = true := leading
      rw [Bool.or_eq_true, Bool.or_eq_true, beq_iff_eq] at classes
      rcases classes with (upper | lower) | rfl
      · have letter : 'A'.val ≤ first.val := (of_decide_eq_true upper).1
        exact UInt32.lt_of_lt_of_le (by decide) letter
      · have letter : 'a'.val ≤ first.val := of_decide_eq_true (Bool.and_eq_true_iff.mp lower).1
        exact UInt32.lt_of_lt_of_le (by decide) letter
      · decide
    simp only [Char.isDigit, Bool.and_eq_false_iff, decide_eq_false_iff_not]
    exact .inr (UInt32.not_le.mpr behind)

/-- First characters of symbols. -/
structure IsSymbolic (first : Char) : Prop where
  noQuote : first ≠ '"'
  noDigit : first.isDigit = false
  noWord : isWordStart first = false

theorem symbol_class {first : Char} {kind : Kind} (known : Kind.ofSymbol? first = some kind) :
    IsSymbolic first := by
  unfold Kind.ofSymbol? at known
  split at known <;> first | exact ⟨by decide, by decide, by decide⟩ | cases known

private theorem pair_class {first second : Char} {kind : Kind}
    (known : Kind.ofSymbolPair? first second = some kind) : IsSymbolic first := by
  unfold Kind.ofSymbolPair? at known
  split at known <;> first | exact ⟨by decide, by decide, by decide⟩ | cases known

theorem read_number {first : Char} (digit : first.isDigit = true) (rest : List Char) :
    read first rest = number first rest := by
  simp [read, ne_quote_of_isDigit digit, digit]

private theorem read_word {first : Char} (leading : isWordStart first = true) (rest : List Char) :
    read first rest = .ok (word first rest) := by
  obtain ⟨noQuote, noDigit⟩ := word_class leading
  simp [read, noQuote, noDigit, leading]

theorem read_symbol {first : Char} (symbolic : IsSymbolic first) (rest : List Char) :
    read first rest = symbol first rest := by
  simp [read, symbolic.noQuote, symbolic.noDigit, symbolic.noWord]

private theorem fault_of_string {rest : List Char} {fault : ScanFault}
    (failed : string rest = .error fault) : fault = .unterminatedString := by
  unfold string at failed
  simp only at failed
  split at failed <;> cases failed
  rfl

private theorem fault_of_number {first : Char} {rest : List Char} {fault : ScanFault}
    (failed : number first rest = .error fault) : fault = .integerOutOfRange := by
  have out_of_range {digits : List Char} (failed : int digits = .error fault) :
      fault = .integerOutOfRange := by
    unfold int at failed
    split at failed <;> cases failed
    rfl
  unfold number at failed
  simp only at failed
  split at failed
  · split at failed
    · exact out_of_range failed
    · cases failed
  · exact out_of_range failed

private theorem fault_of_symbol {first : Char} {rest : List Char} {fault : ScanFault}
    (failed : symbol first rest = .error fault) : fault = .unexpectedCharacter first := by
  unfold symbol at failed
  split at failed
  · cases failed
  · split at failed <;> cases failed
    rfl

/-- The reader that fails is the one that the first character stands for. -/
theorem ofText_of_read {first : Char} {rest : List Char} {fault : ScanFault}
    (failed : read first rest = .error fault) : ScanFault.ofText (first :: rest) = fault := by
  unfold read at failed
  rw [ScanFault.ofText]
  split at failed
  · rename_i quote
    rw [if_pos quote]
    exact (fault_of_string failed).symm
  · rename_i noQuote
    rw [if_neg noQuote]
    split at failed
    · rename_i digit
      rw [if_pos digit]
      exact (fault_of_number failed).symm
    · rename_i noDigit
      rw [if_neg noDigit]
      split at failed
      · cases failed
      · exact (fault_of_symbol failed).symm

theorem goesOn_number {first : Char} (digit : first.isDigit = true) (tail follow : List Char) :
    goesOn (first :: tail) follow =
      (begins Char.isDigit follow || (!tail.contains '.' && beginsFraction follow)) := by
  simp [goesOn, ne_quote_of_isDigit digit, digit]

theorem goesOn_word {first : Char} (leading : isWordStart first = true)
    (tail follow : List Char) : goesOn (first :: tail) follow = begins isWordPart follow := by
  obtain ⟨noQuote, noDigit⟩ := word_class leading
  simp [goesOn, noQuote, noDigit, leading]

theorem goesOn_symbol {first : Char} (symbolic : IsSymbolic first) (tail follow : List Char) :
    goesOn (first :: tail) follow = (tail.isEmpty && begins (fun second =>
      (Kind.ofSymbolPair? first second).isSome || (first == '/' && second == '/')) follow) := by
  simp [goesOn, symbolic.noQuote, symbolic.noDigit, symbolic.noWord]

theorem all_ne_quote {body : List Char} (inside : '"' ∉ body) :
    ∀ character ∈ body, decide (character ≠ '"') = true := by
  intro character member
  exact decide_eq_true (fun same => inside (same ▸ member))

theorem string_spelled {body : List Char} (inside : '"' ∉ body) (follow : List Char) :
    string (body ++ '"' :: follow) =
      .ok ⟨.stringLiteral, some (.value (.string (String.ofList (unescape body)))),
        body.length + 1⟩ := by
  have run : (body ++ '"' :: follow).takeWhile (fun character => decide (character ≠ '"')) = body :=
    (takeWhile_run (all_ne_quote inside) _ (by simp)).1
  simp only [string, run]
  rw [if_pos (by simp)]

private theorem not_contains_point {digits : List Char}
    (each : ∀ digit ∈ digits, digit.isDigit = true) : digits.contains '.' = false := by
  rw [List.contains_eq_any_beq, List.any_eq_false]
  intro digit member same
  obtain rfl := eq_of_beq same
  exact absurd (each '.' member) (by decide)

theorem number_int {first : Char} {digits follow : List Char}
    (each : ∀ digit ∈ digits, digit.isDigit = true) (ends : begins Char.isDigit follow = false)
    (noFraction : beginsFraction follow = false) :
    number first (digits ++ follow) = int (first :: digits) := by
  obtain ⟨taken, dropped⟩ := takeWhile_run each follow ends
  simp only [number, taken, dropped]
  split
  · rename_i after
    have none : after.takeWhile Char.isDigit = [] := by
      cases after with
      | nil => rfl
      | cons digit rest =>
        have other : digit.isDigit = false := noFraction
        simp [other]
    simp [none]
  · rfl

theorem number_double {first : Char} {whole fraction follow : List Char}
    (each : ∀ digit ∈ whole, digit.isDigit = true)
    (behind : ∀ digit ∈ fraction, digit.isDigit = true) (some : fraction ≠ [])
    (ends : begins Char.isDigit follow = false) :
    number first (whole ++ '.' :: (fraction ++ follow)) =
      .ok (double (first :: whole) fraction) := by
  obtain ⟨taken, dropped⟩ := takeWhile_run each ('.' :: (fraction ++ follow)) rfl
  obtain ⟨inside, _⟩ := takeWhile_run behind follow ends
  simp [number, taken, dropped, inside, some]

private theorem word_spelled {first : Char} {tail follow : List Char}
    (each : ∀ part ∈ tail, isWordPart part = true) (ends : begins isWordPart follow = false) :
    word first (tail ++ follow) = word first tail := by
  obtain ⟨taken, _⟩ := takeWhile_run each follow ends
  simp only [word, taken, takeWhile_all each]

/-- A lexeme is read where the text behind it does not go on with it. -/
theorem read_of_spelled {first : Char} {tail follow : List Char} {lexeme : Lexeme}
    (spelled : Spelled (first :: tail) lexeme) (ends : goesOn (first :: tail) follow = false) :
    read first (tail ++ follow) = .ok lexeme := by
  cases spelled with
  | string inside =>
    have shape := string_spelled inside follow
    simpa [read] using shape
  | int leading each fits =>
    simp only [goesOn_number leading, not_contains_point each, Bool.or_eq_false_iff,
      Bool.not_false, Bool.true_and] at ends
    rw [read_number leading, number_int each ends.1 ends.2]
    simp [int, fits]
  | double leading each behind some =>
    simp only [goesOn_number leading, Bool.or_eq_false_iff] at ends
    rw [read_number leading, List.append_assoc, List.cons_append,
      number_double each behind some ends.1]
  | word leading each =>
    rw [goesOn_word leading] at ends
    rw [read_word leading, word_spelled each ends]
  | pair known =>
    rw [read_symbol (pair_class known)]
    simp [symbol, known]
  | symbol known =>
    have symbolic := symbol_class known
    rw [goesOn_symbol symbolic] at ends
    rw [read_symbol symbolic]
    have single : follow.head?.bind (Kind.ofSymbolPair? first) = none := by
      cases follow with
      | nil => rfl
      | cons second rest =>
        have other : (Kind.ofSymbolPair? first second).isSome = false := by
          simp only [List.isEmpty_nil, begins_cons, Bool.true_and, Bool.or_eq_false_iff] at ends
          exact ends.1
        simpa using other
    simp [symbol, single, known]

/-- The lexeme at the beginning of a text takes up a spelling of its own. -/
def Heads (first : Char) (rest : List Char) (lexeme : Lexeme) : Prop :=
  ∃ tail follow, rest = tail ++ follow ∧ Spelled (first :: tail) lexeme ∧
    goesOn (first :: tail) follow = false

private theorem heads_string {rest : List Char} {lexeme : Lexeme}
    (success : string rest = .ok lexeme) : Heads '"' rest lexeme := by
  by_cases closed : '"' ∈ rest
  · obtain ⟨body, follow, rfl, inside⟩ := List.eq_append_cons_of_mem closed
    rw [string_spelled inside] at success
    cases success
    exact ⟨body ++ ['"'], follow, by simp, .string inside, rfl⟩
  · have all := takeWhile_all (all_ne_quote closed)
    simp only [string, all, Nat.lt_irrefl, ↓reduceIte] at success
    cases success

private theorem heads_number {first : Char} {rest : List Char} {lexeme : Lexeme}
    (digit : first.isDigit = true) (success : number first rest = .ok lexeme) :
    Heads first rest lexeme := by
  obtain ⟨digits, follow, rfl, each, ends⟩ := exists_run Char.isDigit rest
  cases fractional : beginsFraction follow with
  | false =>
    rw [number_int each ends fractional] at success
    unfold int at success
    split at success
    · rename_i fits
      cases success
      refine ⟨digits, follow, rfl, .int digit each fits, ?_⟩
      simp [goesOn_number digit, ends, fractional]
    · cases success
  | true =>
    unfold beginsFraction at fractional
    split at fractional
    · rename_i after
      obtain ⟨fraction, behind, rfl, inside, stops⟩ := exists_run Char.isDigit after
      have some : fraction ≠ [] := by
        rintro rfl
        rw [List.nil_append, stops] at fractional
        cases fractional
      rw [number_double each inside some stops] at success
      cases success
      refine ⟨digits ++ '.' :: fraction, behind, by simp, .double digit each inside some, ?_⟩
      simp [goesOn_number digit, stops]
    · cases fractional

private theorem heads_word {first : Char} (leading : isWordStart first = true) (rest : List Char) :
    Heads first rest (word first rest) := by
  obtain ⟨tail, follow, rfl, each, ends⟩ := exists_run isWordPart rest
  rw [word_spelled each ends]
  exact ⟨tail, follow, rfl, .word leading each, by rw [goesOn_word leading, ends]⟩

private theorem heads_symbol {first : Char} {rest : List Char} {lexeme : Lexeme}
    (success : symbol first rest = .ok lexeme)
    (noComment : ¬ (first = '/' ∧ rest.head? = some '/')) : Heads first rest lexeme := by
  unfold symbol at success
  split at success
  · rename_i kind found
    cases success
    obtain ⟨second, head, known⟩ := Option.bind_eq_some_iff.mp found
    obtain ⟨follow, rfl⟩ := List.head?_eq_some_iff.mp head
    refine ⟨[second], follow, rfl, .pair known, ?_⟩
    simp [goesOn_symbol (pair_class known)]
  · rename_i single
    split at success
    · rename_i kind known
      cases success
      refine ⟨[], rest, rfl, .symbol known, ?_⟩
      rw [goesOn_symbol (symbol_class known)]
      cases rest with
      | nil => simp
      | cons second rest =>
        have none : Kind.ofSymbolPair? first second = none := single
        simpa [none] using noComment
    · cases success

/-- What is read at the beginning of a text, where no comment begins. -/
theorem heads_of_read {first : Char} {rest : List Char} {lexeme : Lexeme}
    (success : read first rest = .ok lexeme)
    (noComment : ¬ (first = '/' ∧ rest.head? = some '/')) : Heads first rest lexeme := by
  unfold read at success
  split at success
  · rename_i quote
    subst quote
    exact heads_string success
  · split at success
    · rename_i digit
      exact heads_number digit success
    · split at success
      · rename_i leading
        cases success
        exact heads_word leading rest
      · exact heads_symbol success noComment

theorem Spelled.ne_nil {text : List Char} {lexeme : Lexeme} (spelled : Spelled text lexeme) :
    text ≠ [] := by
  rintro rfl
  cases spelled

/-- A spelling is as long as its lexeme says. -/
theorem Spelled.extent {first : Char} {tail : List Char} {lexeme : Lexeme}
    (spelled : Spelled (first :: tail) lexeme) : lexeme.extent = tail.length := by
  cases spelled with
  | string inside => simp
  | int leading each fits => rfl
  | double leading each behind some =>
    simp only [Lexeme.double, List.length_cons, List.length_append]
    omega
  | word leading each =>
    simp only [Lexeme.word, takeWhile_all each]
    split <;> rfl
  | pair known => rfl
  | symbol known => rfl

end Scriptlet.Lexeme
