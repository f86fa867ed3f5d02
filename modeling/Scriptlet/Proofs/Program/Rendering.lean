import Scriptlet.Program.SExpr

/-! The text of an S-expression tells where each part of it ends. Words hold no blank, bracket or
quote, and a quoted text ends at the next quote; so of two texts that begin with an item and go on
with a separator, the items are the same and so is what follows. -/
namespace Scriptlet.SExpr

/-- Characters that do not stand in a word. -/
def separators : List Char := [' ', '(', ')', '\n', '"']

/-- Items whose atoms are words or quoted texts. -/
inductive Legible : SExpr → Prop where
  | word {text : String} (some : text.toList ≠ [])
      (each : ∀ character ∈ text.toList, character ∉ separators) : Legible (atom text)
  | quoted {text : String} (closed : '"' ∉ text.toList) : Legible (atom (quoted text))
  | list {items : List SExpr} (each : ∀ item ∈ items, Legible item) : Legible (list items)

/-- Words that are given can be checked. -/
theorem Legible.ofWord {text : String}
    (checked : (!text.toList.isEmpty && text.toList.all fun part => !separators.contains part) =
      true) : (atom text).Legible := by
  simp only [Bool.and_eq_true, Bool.not_eq_true', List.isEmpty_eq_false_iff, List.all_eq_true,
    List.contains_eq_mem, decide_eq_false_iff_not] at checked
  exact .word checked.1 checked.2

/-- What can stand behind an item. -/
def Stops (text : List Char) : Prop := ∀ character ∈ text.head?, character ∈ [' ', ')', '\n']

theorem Stops.separates {text : List Char} (stops : Stops text) :
    ∀ character ∈ text.head?, character ∈ separators := by
  intro character member
  have ending := stops character member
  simp only [separators, List.mem_cons, List.not_mem_nil, or_false] at ending ⊢
  grind

variable {front other back rest : List Char}

/-- A text up to the first character of some kind. -/
theorem append_inj_of_stop {stop : Char → Prop}
    (fronts : ∀ character ∈ front, ¬ stop character)
    (others : ∀ character ∈ other, ¬ stop character)
    (ends : ∀ character ∈ back.head?, stop character)
    (alsoEnds : ∀ character ∈ rest.head?, stop character)
    (same : front ++ back = other ++ rest) : front = other ∧ back = rest := by
  induction front generalizing other with
  | nil =>
    cases other with
    | nil => exact ⟨rfl, same⟩
    | cons first other =>
      rw [List.nil_append] at same
      exact absurd (ends first (by rw [same]; rfl)) (others first List.mem_cons_self)
  | cons first front ih =>
    cases other with
    | nil =>
      rw [List.nil_append] at same
      exact absurd (alsoEnds first (by rw [← same]; rfl)) (fronts first List.mem_cons_self)
    | cons second other =>
      rw [List.cons_append, List.cons_append, List.cons.injEq] at same
      obtain ⟨rfl, same⟩ := same
      have tails := ih (List.forall_mem_cons.mp fronts).2 (List.forall_mem_cons.mp others).2 same
      exact ⟨by rw [tails.1], tails.2⟩

private theorem other_of_not_mem {mark : Char} (absent : mark ∉ front) :
    ∀ character ∈ front, ¬ character = mark :=
  fun _ member same => absent (same ▸ member)

/-- Items with blanks between them. -/
def contents : List SExpr → List Char
  | [] => []
  | first :: rest => first.render.toList ++ (renderRest rest).toList

private theorem toList_render_list (items : List SExpr) :
    (list items).render.toList = '(' :: (contents items ++ [')']) := by
  cases items <;> simp [render, contents]

private theorem toList_render_quoted (text : String) :
    (atom (quoted text)).render.toList = '"' :: (text.toList ++ ['"']) := by
  simp [render, Scriptlet.quoted]

private theorem word_head {text : String} (some : text.toList ≠ [])
    (each : ∀ character ∈ text.toList, character ∉ separators) :
    ∃ first others, text.toList = first :: others ∧ first ∉ separators := by
  obtain ⟨first, others, same⟩ := List.exists_cons_of_ne_nil some
  rw [same] at each
  exact ⟨first, others, same, each first List.mem_cons_self⟩

theorem Legible.head {item : SExpr} (legible : item.Legible) :
    ∃ first others, item.render.toList = first :: others ∧ first ∉ [' ', ')', '\n'] := by
  cases legible with
  | word some each =>
    obtain ⟨first, others, same, apart⟩ := word_head some each
    refine ⟨first, others, same, ?_⟩
    simp_all [separators]
  | quoted closed => exact ⟨_, _, toList_render_quoted _, by simp⟩
  | list each => exact ⟨_, _, toList_render_list _, by simp⟩

/-- The text of an item, and what stands behind it, tell which item it is. -/
def Decodable (item : SExpr) : Prop :=
  ∀ (other : SExpr) (back rest : List Char), other.Legible → Stops back → Stops rest →
    item.render.toList ++ back = other.render.toList ++ rest → item = other ∧ back = rest

private theorem stops_renderRest (items : List SExpr) (back : List Char) :
    Stops ((renderRest items).toList ++ ')' :: back) := by
  cases items <;> simp [Stops, renderRest]

private theorem renderRest_inj {items others : List SExpr} (each : ∀ item ∈ items, item.Decodable)
    (legible : ∀ other ∈ others, other.Legible)
    (same : (renderRest items).toList ++ ')' :: back = (renderRest others).toList ++ ')' :: rest) :
    items = others ∧ back = rest := by
  induction items generalizing others with
  | nil =>
    cases others with
    | nil => simpa [renderRest] using same
    | cons => simp [renderRest] at same
  | cons first items ih =>
    cases others with
    | nil => simp [renderRest] at same
    | cons second others =>
      obtain ⟨decodable, tails⟩ := List.forall_mem_cons.mp each
      obtain ⟨proper, properTails⟩ := List.forall_mem_cons.mp legible
      simp only [renderRest, String.toList_append, List.append_assoc] at same
      obtain ⟨rfl, following⟩ := decodable second _ _ proper (stops_renderRest _ _)
        (stops_renderRest _ _) (List.append_cancel_left same)
      obtain ⟨rfl, behind⟩ := ih tails properTails following
      exact ⟨rfl, behind⟩

private theorem contents_inj {items others : List SExpr} (each : ∀ item ∈ items, item.Decodable)
    (proper : ∀ item ∈ items, item.Legible) (legible : ∀ other ∈ others, other.Legible)
    (same : contents items ++ ')' :: back = contents others ++ ')' :: rest) :
    items = others ∧ back = rest := by
  -- An item does not begin with the bracket that closes an empty list.
  have opened {item : SExpr} (legible : item.Legible) {after back tail : List Char}
      (same : ')' :: back = item.render.toList ++ after ++ tail) : False := by
    obtain ⟨first, others, text, apart⟩ := legible.head
    rw [text] at same
    simp only [List.cons_append, List.cons.injEq] at same
    exact apart (by simp [← same.1])
  cases items with
  | nil =>
    cases others with
    | nil => simpa [contents] using same
    | cons second others => exact (opened (legible second List.mem_cons_self) same).elim
  | cons first items =>
    cases others with
    | nil => exact (opened (proper first List.mem_cons_self) same.symm).elim
    | cons second others =>
      obtain ⟨decodable, tails⟩ := List.forall_mem_cons.mp each
      obtain ⟨also, properTails⟩ := List.forall_mem_cons.mp legible
      simp only [contents, List.append_assoc] at same
      obtain ⟨rfl, following⟩ := decodable second _ _ also (stops_renderRest _ _)
        (stops_renderRest _ _) same
      obtain ⟨rfl, behind⟩ := renderRest_inj tails properTails following
      exact ⟨rfl, behind⟩

theorem Legible.decodable {item : SExpr} (legible : item.Legible) : item.Decodable := by
  induction legible with
  | @word text some each =>
    intro other back rest proper stops alsoStops same
    obtain ⟨first, others, begins, apart⟩ := word_head some each
    cases proper with
    | @word second _ also =>
      obtain ⟨texts, behind⟩ :=
        append_inj_of_stop each also stops.separates alsoStops.separates same
      exact ⟨congrArg atom (String.toList_inj.mp texts), behind⟩
    | quoted =>
      rw [toList_render_quoted, render, begins] at same
      exact absurd (by rw [(List.cons.inj same).1]; decide) apart
    | list =>
      rw [toList_render_list, render, begins] at same
      exact absurd (by rw [(List.cons.inj same).1]; decide) apart
  | @quoted text closed =>
    intro other back rest proper stops alsoStops same
    rw [toList_render_quoted] at same
    cases proper with
    | @word second some also =>
      obtain ⟨first, others, begins, apart⟩ := word_head some also
      rw [render, begins] at same
      exact absurd (by rw [← (List.cons.inj same).1]; decide) apart
    | @quoted second alsoClosed =>
      rw [toList_render_quoted] at same
      simp only [List.cons_append, List.append_assoc, List.cons.injEq, true_and] at same
      obtain ⟨texts, behind⟩ := append_inj_of_stop (other_of_not_mem closed)
        (other_of_not_mem alsoClosed) (by simp) (by simp) same
      obtain rfl := String.toList_inj.mp texts
      exact ⟨rfl, (List.cons.inj behind).2⟩
    | list =>
      rw [toList_render_list] at same
      cases (List.cons.inj same).1
  | @list items each ih =>
    intro other back rest proper stops alsoStops same
    rw [toList_render_list] at same
    cases proper with
    | @word second some also =>
      obtain ⟨first, others, begins, apart⟩ := word_head some also
      rw [render, begins] at same
      exact absurd (by rw [← (List.cons.inj same).1]; decide) apart
    | quoted =>
      rw [toList_render_quoted] at same
      cases (List.cons.inj same).1
    | list others =>
      rw [toList_render_list] at same
      simp only [List.cons_append, List.append_assoc, List.cons.injEq, true_and] at same
      obtain ⟨rfl, behind⟩ := contents_inj ih each others same
      exact ⟨rfl, behind⟩

/-- Lines of items are the same only for the same items. -/
theorem lines_inj {items others : List SExpr} (proper : ∀ item ∈ items, item.Legible)
    (legible : ∀ other ∈ others, other.Legible)
    (same : items.flatMap (fun item => item.render.toList ++ ['\n']) =
      others.flatMap (fun item => item.render.toList ++ ['\n'])) : items = others := by
  induction items generalizing others with
  | nil =>
    cases others with
    | nil => rfl
    | cons => simp at same
  | cons first items ih =>
    cases others with
    | nil => simp at same
    | cons second others =>
      obtain ⟨head, tails⟩ := List.forall_mem_cons.mp proper
      obtain ⟨also, properTails⟩ := List.forall_mem_cons.mp legible
      simp only [List.flatMap_cons, List.append_assoc] at same
      obtain ⟨rfl, behind⟩ :=
        head.decodable second _ _ also (by simp [Stops]) (by simp [Stops]) same
      rw [ih tails properTails (List.append_cancel_left behind)]

end Scriptlet.SExpr
