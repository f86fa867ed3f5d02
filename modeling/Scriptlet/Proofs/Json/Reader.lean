import Scriptlet.Proofs.Json.Text

/-! Reading JSON texts. Each part is written over the reader of the values nested in it; the length
of the text bounds how deep they can nest. Every text of a value is read as that value, so that no
text has two values. -/
namespace Scriptlet.Json

/-- A reader takes something off the front of a text. -/
abbrev Reader (α : Type) := List Char → Option (α × List Char)

def skipBlanks (text : List Char) : List Char := text.dropWhile isBlank

def digits? : Reader (List Char) := fun text =>
  let digits := text.takeWhile Char.isDigit
  if digits = [] then none else some (digits, text.dropWhile Char.isDigit)

def signedDigits? : Reader (List Char)
  | '+' :: text => (digits? text).map fun (digits, rest) => ('+' :: digits, rest)
  | '-' :: text => (digits? text).map fun (digits, rest) => ('-' :: digits, rest)
  | text => digits? text

/-- The digits behind a point, if there is one. -/
def fraction? : Reader (Option (List Char))
  | '.' :: text => (digits? text).map fun (digits, rest) => (some digits, rest)
  | text => some (none, text)

/-- An exponent with its mark, if there is one. -/
def exponent? : Reader (Option (Char × List Char))
  | 'e' :: text => (signedDigits? text).map fun (digits, rest) => (some ('e', digits), rest)
  | 'E' :: text => (signedDigits? text).map fun (digits, rest) => (some ('E', digits), rest)
  | text => some (none, text)

def numeral? : Reader Numeral := fun text => do
  let negative := text.head? = some '-'
  let (whole, rest) ← digits? (if negative then text.tail else text)
  if whole.head? = some '0' ∧ whole ≠ ['0'] then none
  let (fraction, rest) ← fraction? rest
  let (exponent, rest) ← exponent? rest
  return (⟨negative, whole, fraction, exponent⟩, rest)

/-- The character that stands behind a backslash. The first half of a split code has to have the
second one behind it. -/
def escape? : Reader Char
  | 'u' :: a :: b :: c :: d :: text => do
    let code ← code? a b c d
    if code < 0xd800 ∨ 0xe000 ≤ code then return (Char.ofNat code, text)
    match text with
    | '\\' :: 'u' :: e :: f :: g :: h :: text =>
      let low ← code? e f g h
      if code < 0xdc00 ∧ 0xdc00 ≤ low ∧ low < 0xe000 then
        return (Char.ofNat (0x10000 + (code - 0xd800) * 0x400 + (low - 0xdc00)), text)
      else none
    | _ => none
  | mark :: text => (escapes.lookup mark).map fun character => (character, text)
  | [] => none

/-- Characters up to a quote, at most `count` of them. -/
def charactersUpTo : Nat → Reader (List Char)
  | 0, _ => none
  | _ + 1, [] => none
  | count + 1, first :: text =>
    if first = '"' then some ([], text)
    else do
      let (character, text) ←
        if first = '\\' then escape? text
        else if isPlain first then some (first, text)
        else none
      let (characters, text) ← charactersUpTo count text
      return (character :: characters, text)

def string? : Reader String
  | '"' :: text => (charactersUpTo text.length text).map fun (characters, rest) =>
      (String.ofList characters, rest)
  | _ => none

def word? : Reader Json := fun text =>
  words.findSome? fun (word, value) =>
    if word.isPrefixOf text then some (value, text.drop word.length) else none

section Items

variable {α : Type} (item : Reader α) (closing : Char)

/-- Items with commas between them, at most `count` of them, and the closing mark. -/
def itemsUpTo : Nat → Reader (List α)
  | 0, _ => none
  | count + 1, text => do
    let (content, rest) ← item text
    match rest with
    | ',' :: rest =>
      let (contents, rest) ← itemsUpTo count rest
      return (content :: contents, rest)
    | mark :: rest => if mark = closing then some ([content], rest) else none
    | [] => none

/-- What stands behind an opening mark. -/
def enclosed : Reader (List α) := fun text =>
  match skipBlanks text with
  | mark :: rest =>
    if mark = closing then some ([], rest) else itemsUpTo item closing text.length text
  | [] => none

end Items

/-- Strings, words and numbers. -/
def leaf : Reader Json := fun text =>
  ((string? text).map fun (content, rest) => (string content, rest)) <|> word? text <|>
    (numeral? text).map fun (numeral, rest) => (numeral.value, rest)

section Values

variable (element : Reader Json)

def member : Reader (String × Json) := fun text => do
  let (key, rest) ← string? (skipBlanks text)
  match skipBlanks rest with
  | ':' :: rest =>
    let (value, rest) ← element rest
    return ((key, value), rest)
  | _ => none

/-- A value, over the reader of the elements in it. -/
def value : Reader Json
  | '[' :: text => (enclosed element ']' text).map fun (items, rest) => (.array items, rest)
  | '\x7b' :: text =>
    (enclosed (member element) '\x7d' text).map fun (fields, rest) => (.object fields, rest)
  | text => leaf text

end Values

/-- Values with blanks around them, nested at most `depth` deep. -/
def elementUpTo : Nat → Reader Json
  | 0, _ => none
  | depth + 1, text => do
    let (content, rest) ← value (elementUpTo depth) (skipBlanks text)
    return (content, skipBlanks rest)

/-- The value of a text. Every nested value follows a mark of the outer one, so the length of the
text is depth enough. -/
def read? (text : List Char) : Option Json :=
  match elementUpTo text.length text with
  | some (content, []) => some content
  | _ => none

/-- Texts that do not go on with a character of this kind. -/
abbrev Stops (kind : Char → Bool) (text : List Char) : Prop :=
  ∀ next ∈ text.head?, kind next = false

private theorem stops_cons {kind : Char → Bool} {next : Char} {text : List Char}
    (other : kind next = false) : Stops kind (next :: text) := by
  rintro _ ⟨⟩
  exact other

section Runs

variable {kind : Char → Bool} {run rest : List Char}
  (each : ∀ character ∈ run, kind character = true) (stops : Stops kind rest)

include each stops in
private theorem takeWhile_append : (run ++ rest).takeWhile kind = run := by
  rw [List.takeWhile_append_of_pos each]
  cases rest with
  | nil => simp
  | cons next rest => simp [stops next rfl]

include each stops in
private theorem dropWhile_append : (run ++ rest).dropWhile kind = rest := by
  rw [List.dropWhile_append_of_pos each]
  cases rest with
  | nil => rfl
  | cons next rest => simp [stops next rfl]

end Runs

private theorem skipBlanks_append {gap rest : List Char} (blank : Blank gap)
    (stops : Stops isBlank rest) : skipBlanks (gap ++ rest) = rest :=
  dropWhile_append blank stops

/-- What may stand behind a value: blanks and marks that no value goes on with. -/
def ends : List Char := [' ', '\t', '\n', '\r', ',', ']', '\x7d']

abbrev Ended (text : List Char) : Prop := ∀ next ∈ text.head?, next ∈ ends

/-- What may stand behind a value and the blanks behind it. -/
abbrev Closed (text : List Char) : Prop := Ended text ∧ Stops isBlank text

private theorem closed_cons {mark : Char} {rest : List Char}
    (closes : (ends.contains mark && !isBlank mark) = true) : Closed (mark :: rest) := by
  rw [Bool.and_eq_true, List.contains_iff_mem, Bool.not_eq_true'] at closes
  refine ⟨?_, stops_cons closes.2⟩
  rintro _ ⟨⟩
  exact closes.1

theorem Closed.behind {gap rest : List Char} (closed : Closed rest) (blank : Blank gap) :
    Ended (gap ++ rest) := by
  cases gap with
  | nil => exact closed.1
  | cons first others =>
    rintro _ ⟨⟩
    have space := blank first List.mem_cons_self
    simp only [isBlank, List.contains_iff_mem] at space
    exact List.mem_append_left [',', ']', '\x7d'] space

/-- No kind of characters that excludes all ends goes on there. -/
theorem stops_of_ended {rest : List Char} (ended : Ended rest) {kind : Char → Bool}
    (unlike : ends.all (fun character => !kind character) = true) : Stops kind rest := by
  intro next head
  simpa using List.all_eq_true.mp unlike next (ended next head)

section Numbers

variable {rest : List Char}

private theorem digits?_append {digits : List Char} (proper : Digits digits)
    (stops : Stops Char.isDigit rest) : digits? (digits ++ rest) = some (digits, rest) := by
  simp only [digits?, takeWhile_append proper.each stops, dropWhile_append proper.each stops]
  rw [if_neg proper.some]

private theorem signedDigits?_append {digits : List Char} (proper : SignedDigits digits)
    (stops : Stops Char.isDigit rest) : signedDigits? (digits ++ rest) = some (digits, rest) := by
  cases proper with
  | @plain digits proper =>
    obtain ⟨first, others, rfl⟩ := List.exists_cons_of_ne_nil proper.some
    have digit := proper.each first List.mem_cons_self
    have read := digits?_append proper stops
    rw [List.cons_append] at read ⊢
    rw [signedDigits?]
    · exact read
    · rintro text ⟨rfl, rfl⟩
      cases digit
    · rintro text ⟨rfl, rfl⟩
      cases digit
  | signed isSign proper =>
    rcases isSign with rfl | rfl
    · simp [signedDigits?, digits?_append proper stops]
    · simp [signedDigits?, digits?_append proper stops]

private theorem fraction?_append {numeral : Numeral} (proper : numeral.WellFormed)
    (stops : Stops Char.isDigit rest) (noPoint : Stops (· = '.') rest) :
    fraction? (numeral.fractionText ++ rest) = some (numeral.fraction, rest) := by
  rw [Numeral.fractionText]
  cases present : numeral.fraction with
  | some digits => simp [fraction?, digits?_append (proper.fraction digits present) stops]
  | none =>
    rw [List.nil_append, fraction?]
    rintro text rfl
    cases noPoint '.' rfl

private theorem exponent?_append {numeral : Numeral} (proper : numeral.WellFormed)
    (ended : Ended rest) :
    exponent? (numeral.exponentText ++ rest) = some (numeral.exponent, rest) := by
  have stops : Stops Char.isDigit rest := stops_of_ended ended rfl
  rw [Numeral.exponentText]
  cases present : numeral.exponent with
  | some entry =>
    obtain ⟨mark, digits⟩ := entry
    obtain ⟨rfl | rfl, signed⟩ := proper.exponent _ present
    · simp [exponent?, signedDigits?_append signed stops]
    · simp [exponent?, signedDigits?_append signed stops]
  | none =>
    rw [List.nil_append, exponent?]
    · rintro text rfl
      exact absurd (ended 'e' rfl) (by decide)
    · rintro text rfl
      exact absurd (ended 'E' rfl) (by decide)

private theorem stops_exponentText {numeral : Numeral} (proper : numeral.WellFormed)
    (ended : Ended rest) {kind : Char → Bool} (marks : kind 'e' = false ∧ kind 'E' = false)
    (unlike : ends.all (fun character => !kind character) = true) :
    Stops kind (numeral.exponentText ++ rest) := by
  rw [Numeral.exponentText]
  cases present : numeral.exponent with
  | some entry =>
    obtain ⟨mark, digits⟩ := entry
    obtain ⟨rfl | rfl, _⟩ := proper.exponent _ present
    · exact stops_cons marks.1
    · exact stops_cons marks.2
  | none => exact stops_of_ended ended unlike

private theorem stops_fractionText {numeral : Numeral} (proper : numeral.WellFormed)
    (ended : Ended rest) :
    Stops Char.isDigit (numeral.fractionText ++ (numeral.exponentText ++ rest)) := by
  rw [Numeral.fractionText]
  cases numeral.fraction with
  | some digits => exact stops_cons rfl
  | none => exact stops_exponentText proper ended ⟨rfl, rfl⟩ rfl

private theorem numeral?_append {numeral : Numeral} (proper : numeral.WellFormed)
    (ended : Ended rest) : numeral? (numeral.text ++ rest) = some (numeral, rest) := by
  have whole := digits?_append proper.whole (stops_fractionText proper ended)
  have fraction := fraction?_append proper (stops_exponentText proper ended ⟨rfl, rfl⟩ rfl)
    (stops_exponentText proper ended ⟨rfl, rfl⟩ rfl)
  have exponent := exponent?_append proper ended
  have parts : numeral.unsigned ++ rest =
      numeral.whole ++ (numeral.fractionText ++ (numeral.exponentText ++ rest)) := by
    simp [Numeral.unsigned]
  rw [← parts] at whole
  have sign : (numeral.text ++ rest).head? = some '-' ↔ numeral.negative = true := by
    cases negative : numeral.negative with
    | true => simp [Numeral.text, Numeral.signText, negative]
    | false =>
      obtain ⟨first, others, digits⟩ := List.exists_cons_of_ne_nil proper.whole.some
      have digit := proper.whole.each first (by simp [digits])
      have unlike : first ≠ '-' := by
        rintro rfl
        cases digit
      simp [Numeral.text, Numeral.signText, Numeral.unsigned, negative, digits, unlike]
  have unsigned : (if numeral.negative = true then (numeral.text ++ rest).tail
      else numeral.text ++ rest) = numeral.unsigned ++ rest := by
    cases negative : numeral.negative with
    | false => simp [Numeral.text, Numeral.signText, negative]
    | true => simp [Numeral.text, Numeral.signText, negative]
  simp only [numeral?, sign, unsigned, whole]
  simpa [fraction, exponent] using proper.leading

end Numbers

section Strings

variable {rest : List Char}

private theorem escape?_escaped {mark character : Char} (entry : (mark, character) ∈ escapes) :
    escape? (mark :: rest) = some (character, rest) := by
  simp only [escapes, List.mem_cons, List.not_mem_nil, or_false, Prod.mk.injEq] at entry
  rcases entry with ⟨rfl, rfl⟩ | ⟨rfl, rfl⟩ | ⟨rfl, rfl⟩ | ⟨rfl, rfl⟩ | ⟨rfl, rfl⟩ | ⟨rfl, rfl⟩ |
    ⟨rfl, rfl⟩ | ⟨rfl, rfl⟩
  all_goals rfl

private theorem escape?_coded {character a b c d : Char}
    (code : code? a b c d = some character.toNat) :
    escape? ('u' :: a :: b :: c :: d :: rest) = some (character, rest) := by
  have whole : character.toNat < 0xd800 ∨ 0xe000 ≤ character.toNat := by
    rcases character.valid with below | ⟨above, _⟩
    · exact .inl below
    · exact .inr above
  simp [escape?, code, whole]

/-- The two halves of a code are told apart from all other codes, and from each other. -/
theorem escape?_split {character a b c d e f g h : Char} {offset : Nat}
    (place : character.toNat = 0x10000 + offset)
    (high : code? a b c d = some (0xd800 + offset / 0x400))
    (low : code? e f g h = some (0xdc00 + offset % 0x400)) :
    escape? ('u' :: a :: b :: c :: d :: '\\' :: 'u' :: e :: f :: g :: h :: rest) =
      some (character, rest) := by
  have small : offset < 0x100000 := by
    have bound : character.toNat < 0x110000 := by
      rcases character.valid with below | ⟨_, above⟩
      · exact Nat.lt_trans below (by decide)
      · exact above
    omega
  have half : ¬ (0xd800 + offset / 0x400 < 0xd800 ∨ 0xe000 ≤ 0xd800 + offset / 0x400) := by omega
  have both : 0xd800 + offset / 0x400 < 0xdc00 ∧ 0xdc00 ≤ 0xdc00 + offset % 0x400 ∧
      0xdc00 + offset % 0x400 < 0xe000 := by omega
  have whole : 0x10000 + (0xd800 + offset / 0x400 - 0xd800) * 0x400 +
      (0xdc00 + offset % 0x400 - 0xdc00) = character.toNat := by omega
  simp only [escape?, high, low, Option.bind_eq_bind, Option.bind_some, if_neg half, if_pos both,
    whole, Char.ofNat_toNat]
  rfl

private theorem charactersUpTo_append {characters body : List Char}
    (spelled : Spelled characters body) {count : Nat} (enough : body.length < count) :
    charactersUpTo count (body ++ '"' :: rest) = some (characters, rest) := by
  induction spelled generalizing count with
  | nil =>
    cases count with
    | zero => cases enough
    | succ count => rfl
  | plain plain _ ih =>
    obtain ⟨count, rfl⟩ := Nat.exists_eq_add_one.mpr (Nat.zero_lt_of_lt enough)
    have others := ih (Nat.lt_of_succ_lt_succ enough)
    have marks := plain
    simp only [isPlain, Bool.and_eq_true, decide_eq_true_eq] at marks
    simp [charactersUpTo, plain, marks, others]
  | escaped entry _ ih =>
    obtain ⟨count, rfl⟩ := Nat.exists_eq_add_one.mpr (Nat.zero_lt_of_lt enough)
    simp only [List.length_cons] at enough
    simp [charactersUpTo, escape?_escaped entry, @ih count (by omega)]
  | coded code _ ih =>
    obtain ⟨count, rfl⟩ := Nat.exists_eq_add_one.mpr (Nat.zero_lt_of_lt enough)
    simp only [List.length_cons] at enough
    simp [charactersUpTo, escape?_coded code, @ih count (by omega)]
  | split place high low _ ih =>
    obtain ⟨count, rfl⟩ := Nat.exists_eq_add_one.mpr (Nat.zero_lt_of_lt enough)
    simp only [List.length_cons] at enough
    simp [charactersUpTo, escape?_split place high low, @ih count (by omega)]

private theorem string?_append {text : String} {written : List Char}
    (quoted : Quoted text written) : string? (written ++ rest) = some (text, rest) := by
  cases quoted with
  | @of body spelled =>
    have enough : body.length < (body ++ '"' :: rest).length := by simp
    have read := @charactersUpTo_append rest _ _ spelled _ enough
    have parts : '"' :: (body ++ ['"']) ++ rest = '"' :: (body ++ '"' :: rest) := by simp
    rw [parts, string?, read]
    simp

end Strings

section Lists

variable {α : Type} {item : α → List Char → Prop} {reader : Reader α} {closing : Char}

/-- A reader that reads the items of a text if a comma or the closing mark stands behind them. -/
abbrev ReadsWithin (item : α → List Char → Prop) (reader : Reader α) (closing : Char)
    (bound : Nat) : Prop :=
  ∀ content text, item content text → text.length ≤ bound → ∀ mark rest,
    mark = ',' ∨ mark = closing → reader (text ++ mark :: rest) = some (content, mark :: rest)

private theorem itemsUpTo_append (noComma : closing ≠ ',') {contents : List α} {body : List Char}
    (listed : Listed item contents body) {bound : Nat} (short : body.length ≤ bound)
    (reads : ReadsWithin item reader closing bound) {count : Nat} (enough : body.length < count)
    (rest : List Char) :
    itemsUpTo reader closing count (body ++ closing :: rest) = some (contents, rest) := by
  induction listed generalizing count with
  | last only =>
    obtain ⟨count, rfl⟩ := Nat.exists_eq_add_one.mpr (Nat.zero_lt_of_lt enough)
    simp [itemsUpTo, reads _ _ only short closing rest (.inr rfl)]
  | @more content contents text others first _ ih =>
    obtain ⟨count, rfl⟩ := Nat.exists_eq_add_one.mpr (Nat.zero_lt_of_lt enough)
    simp only [List.length_append, List.length_cons] at enough short
    have head := reads _ _ first (by omega) ',' (others ++ closing :: rest) (.inl rfl)
    have tail := @ih (by omega) count (by omega)
    simp [itemsUpTo, head, tail]

/-- Items do not begin with the closing mark. -/
abbrev Opens (item : α → List Char → Prop) (closing : Char) : Prop :=
  ∀ content text, item content text →
    ∃ first rest, skipBlanks text = first :: rest ∧ first ≠ closing

private theorem skipBlanks_of_cons {text rest : List Char} {first : Char}
    (found : skipBlanks text = first :: rest) (more : List Char) :
    skipBlanks (text ++ more) = first :: (rest ++ more) := by
  rw [skipBlanks] at found
  simp [skipBlanks, List.dropWhile_append, found]

theorem Opens.listed (opens : Opens item closing) : Opens (Listed item) closing := by
  intro contents body listed
  cases listed with
  | last only => exact opens _ _ only
  | more first others =>
    obtain ⟨mark, rest, found, unlike⟩ := opens _ _ first
    exact ⟨mark, _, skipBlanks_of_cons found _, unlike⟩

private theorem enclosed_append {opening : Char} (noComma : closing ≠ ',')
    (noBlank : isBlank closing = false) {contents : List α} {text : List Char}
    (each : Enclosed item opening closing contents text) {bound : Nat}
    (short : text.length ≤ bound + 1) (reads : ReadsWithin item reader closing bound)
    (opens : Opens item closing) (rest : List Char) : ∃ tail, text = opening :: tail ∧
      enclosed reader closing (tail ++ rest) = some (contents, rest) := by
  cases each with
  | @empty gap blank =>
    refine ⟨_, rfl, ?_⟩
    rw [List.append_assoc, List.singleton_append, enclosed,
      skipBlanks_append blank (stops_cons noBlank)]
    simp
  | @filled _ body listed =>
    obtain ⟨mark, others, found, unlike⟩ := opens.listed _ _ listed
    refine ⟨_, rfl, ?_⟩
    have bounded : body.length ≤ bound := by
      simp only [List.length_cons, List.length_append] at short
      omega
    have read := itemsUpTo_append noComma listed bounded reads
      (show body.length < (body ++ closing :: rest).length by simp) rest
    rw [List.append_assoc, List.singleton_append, enclosed, skipBlanks_of_cons found]
    simp only [if_neg unlike, read]

end Lists

/-- How a value may begin. -/
def isOpening (character : Char) : Bool :=
  character.isDigit || ['n', 't', 'f', '"', '-', '[', '\x7b'].contains character

private theorem Numeral.WellFormed.opening {numeral : Numeral} (proper : numeral.WellFormed) :
    ∃ first rest, numeral.text = first :: rest ∧ (first.isDigit = true ∨ first = '-') := by
  obtain ⟨first, others, digits⟩ := List.exists_cons_of_ne_nil proper.whole.some
  have digit := proper.whole.each first (by simp [digits])
  cases negative : numeral.negative with
  | true => exact ⟨'-', numeral.unsigned, by simp [text, signText, negative], .inr rfl⟩
  | false => exact ⟨first, _, by simp [text, signText, unsigned, negative, digits]; rfl, .inl digit⟩

private theorem Text.opening {value : Json} {text : List Char} (written : Text value text) :
    ∃ first rest, text = first :: rest ∧ isOpening first = true := by
  cases written with
  | word entry =>
    simp only [words, List.mem_cons, List.not_mem_nil, or_false, Prod.mk.injEq] at entry
    rcases entry with ⟨rfl, rfl⟩ | ⟨rfl, rfl⟩ | ⟨rfl, rfl⟩ <;> exact ⟨_, _, rfl, rfl⟩
  | number proper =>
    obtain ⟨first, rest, text, digit | rfl⟩ := proper.opening
    · exact ⟨first, rest, text, by simp [isOpening, digit]⟩
    · exact ⟨_, rest, text, rfl⟩
  | string quoted =>
    cases quoted
    exact ⟨_, _, rfl, rfl⟩
  | array each => cases each <;> exact ⟨_, _, rfl, rfl⟩
  | object each => cases each <;> exact ⟨_, _, rfl, rfl⟩

private theorem isBlank_of_isOpening {character : Char} (opening : isOpening character = true) :
    isBlank character = false := by
  by_contra blank
  simp only [isBlank, Bool.not_eq_false, List.contains_iff_mem, List.mem_cons, List.not_mem_nil,
    or_false] at blank
  rcases blank with rfl | rfl | rfl | rfl <;> cases opening

private theorem Element.opening {value : Json} {text : List Char} (element : Element value text) :
    ∃ first rest, skipBlanks text = first :: rest ∧ isOpening first = true := by
  cases element with
  | of front written back =>
    obtain ⟨first, rest, rfl, opening⟩ := written.opening
    rw [List.append_assoc, List.cons_append]
    exact ⟨first, _, skipBlanks_append front (stops_cons (isBlank_of_isOpening opening)), opening⟩

private theorem Element.opens : Opens Element ']' := by
  intro value text element
  obtain ⟨first, rest, found, opening⟩ := element.opening
  refine ⟨first, rest, found, ?_⟩
  rintro rfl
  cases opening

private theorem Member.opens : Opens Member '\x7d' := by
  intro field text written
  cases written with
  | of front named back given =>
    cases named
    simp only [List.append_assoc, List.cons_append]
    exact ⟨'"', _, skipBlanks_append front (stops_cons rfl), by decide⟩

/-- Elements that are read if what may follow a value stands behind them. -/
abbrev ReadsElements (element : Reader Json) (bound : Nat) : Prop :=
  ∀ value text, Element value text → text.length ≤ bound → ∀ rest, Closed rest →
    element (text ++ rest) = some (value, rest)

section Values

variable {element : Reader Json} {bound : Nat} (reads : ReadsElements element bound)

include reads in
private theorem member_append : ReadsWithin Member (member element) '\x7d' bound := by
  intro field text written short mark rest follows
  cases written with
  | @of key content before name after text front named back given =>
    have bounded : text.length ≤ bound := by
      simp only [List.length_append, List.length_cons] at short
      omega
    have closed : Closed (mark :: rest) := by
      rcases follows with rfl | rfl <;> exact closed_cons rfl
    have key := @string?_append (after ++ ':' :: (text ++ mark :: rest)) _ _ named
    have quote : Stops isBlank (name ++ (after ++ ':' :: (text ++ mark :: rest))) := by
      cases named
      exact stops_cons rfl
    have colon : Stops isBlank (':' :: (text ++ mark :: rest)) := stops_cons rfl
    have parts : before ++ name ++ after ++ ':' :: text ++ mark :: rest =
        before ++ (name ++ (after ++ ':' :: (text ++ mark :: rest))) := by simp
    rw [parts, member, skipBlanks_append front quote, key]
    simp [skipBlanks_append back colon, reads _ _ given bounded _ closed]

private theorem string?_eq_none {first : Char} {text : List Char} (unlike : first ≠ '"') :
    string? (first :: text) = none := by
  rw [string?]
  rintro _ ⟨⟩
  exact unlike rfl

private theorem word?_eq_none {first : Char} {text : List Char}
    (unlike : first ≠ 'n' ∧ first ≠ 't' ∧ first ≠ 'f') : word? (first :: text) = none := by
  obtain ⟨null, yes, no⟩ := unlike
  simp [word?, words, null.symm, yes.symm, no.symm]

private theorem value_eq_leaf {first : Char} {text : List Char} (noArray : first ≠ '[')
    (noObject : first ≠ '\x7b') : value element (first :: text) = leaf (first :: text) := by
  rw [value]
  · rintro _ ⟨⟩
    exact noArray rfl
  · rintro _ ⟨⟩
    exact noObject rfl

private theorem leaf_number {numeral : Numeral} (proper : numeral.WellFormed) {rest : List Char}
    (ended : Ended rest) : value element (numeral.text ++ rest) = some (numeral.value, rest) := by
  have number := numeral?_append proper ended
  obtain ⟨first, others, text, digit⟩ := proper.opening
  have unlike (other : Char) (noDigit : other.isDigit = false) (noSign : other ≠ '-') :
      first ≠ other := by
    rintro rfl
    rcases digit with digit | sign
    · rw [digit] at noDigit
      cases noDigit
    · exact noSign sign
  rw [text, List.cons_append] at number ⊢
  rw [value_eq_leaf (unlike _ rfl (by decide)) (unlike _ rfl (by decide)), leaf,
    string?_eq_none (unlike _ rfl (by decide)), number, word?_eq_none]
  · rfl
  · exact ⟨unlike _ rfl (by decide), unlike _ rfl (by decide), unlike _ rfl (by decide)⟩

include reads in
private theorem value_append {content : Json} {text rest : List Char} (written : Text content text)
    (short : text.length ≤ bound + 1) (ended : Ended rest) :
    value element (text ++ rest) = some (content, rest) := by
  cases written with
  | word entry =>
    simp only [words, List.mem_cons, List.not_mem_nil, or_false, Prod.mk.injEq] at entry
    rcases entry with ⟨rfl, rfl⟩ | ⟨rfl, rfl⟩ | ⟨rfl, rfl⟩ <;> rfl
  | number proper => exact leaf_number proper ended
  | string quoted =>
    have string := @string?_append rest _ _ quoted
    cases quoted
    rw [List.cons_append] at string ⊢
    rw [value_eq_leaf (by decide) (by decide), leaf, string]
    rfl
  | array each =>
    have within : ReadsWithin Element element ']' bound := by
      intro content text given bounded mark rest follows
      apply reads _ _ given bounded
      rcases follows with rfl | rfl <;> exact closed_cons rfl
    obtain ⟨tail, rfl, read⟩ := enclosed_append (by decide) rfl each short within Element.opens rest
    simp [value, read]
  | object each distinct =>
    obtain ⟨tail, rfl, read⟩ := enclosed_append (by decide) rfl each short (member_append reads)
      Member.opens rest
    simp [value, read]

end Values

/-- Enough depth reads every element. -/
theorem elementUpTo_append (depth : Nat) : ReadsElements (elementUpTo depth) depth := by
  induction depth with
  | zero =>
    intro content text element short
    obtain ⟨first, rest, found, _⟩ := element.opening
    rw [List.length_eq_zero_iff.mp (Nat.le_zero.mp short)] at found
    cases found
  | succ depth ih =>
    intro content text element short rest closed
    cases element with
    | @of _ before text after front written back =>
      have opening : Stops isBlank (text ++ (after ++ rest)) := by
        obtain ⟨first, others, rfl, opening⟩ := written.opening
        exact stops_cons (isBlank_of_isOpening opening)
      have bounded : text.length ≤ depth + 1 := by
        simp only [List.length_append] at short
        omega
      have read := value_append ih written bounded (closed.behind back)
      rw [List.append_assoc, List.append_assoc, elementUpTo, skipBlanks_append front opening, read]
      simp [skipBlanks_append back closed.2]

/-- Every text of a value is read as that value. -/
theorem read?_element {content : Json} {text : List Char} (element : Element content text) :
    read? text = some content := by
  have read := elementUpTo_append text.length _ _ element (Nat.le_refl _) [] ⟨nofun, nofun⟩
  rw [List.append_nil] at read
  rw [read?, read]

end Scriptlet.Json
