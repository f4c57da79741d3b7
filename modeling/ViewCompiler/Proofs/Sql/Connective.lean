import ViewCompiler.Text.Basic
import Mathlib.Data.List.Basic

/-!
# Conditions joined by AND and OR

A condition is read as a word over atoms, the condition that always holds, parentheses and the two
connectives. Where the atoms stand in its text and what their truth values are is given; `AND` binds
more tightly than `OR`.

* `Sql.Part`: a letter of such a word.
* `Sql.Operand`, `Sql.Conjunction`, `Sql.Disjunction`: the grammar, with the truth value of what is
  read.
* `Sql.Means`: the text of a condition, with these atoms in this order, has a truth value.
* `Sql.eq_of_disjunction`: **the grammar gives a word one value at most**.
* `Sql.eq_of_spelled`: a text whose atoms can be told from the other letters is spelled by one word
  only.
-/

namespace ViewCompiler

namespace Sql

/-- A part of a condition that is read as a whole. -/
inductive Part where
  /-- A condition that is not taken apart, with its truth value. -/
  | atom (text : List Char) (value : Bool)
  /-- The condition that always holds. -/
  | always
  | opening
  | closing
  | and
  | or

namespace Part

/-- How a part is written. -/
def text : Part → List Char
  | atom text _ => text
  | always => ['1', ' ', '=', ' ', '1']
  | opening => ['(']
  | closing => [')']
  | and => [' ', 'A', 'N', 'D', ' ']
  | or => [' ', 'O', 'R', ' ']

/-- The text and the value of an atom. -/
def atom? : Part → Option (List Char × Bool)
  | atom text value => some (text, value)
  | _ => none

end Part

/-- The text of a word. -/
def spelled (word : List Part) : List Char := word.flatMap Part.text

/-- The atoms of a word, from the left to the right. -/
def atoms (word : List Part) : List (List Char × Bool) := word.filterMap Part.atom?

mutual

/-- A word that is read as an operand of `AND`, and its value. -/
inductive Operand : List Part → Bool → Prop
  | atom (text : List Char) (value : Bool) : Operand [.atom text value] value
  | always : Operand [.always] true
  | group {word : List Part} {value : Bool} (inside : Disjunction word value) :
    Operand (.opening :: (word ++ [.closing])) value

/-- A word that is read as operands joined by `AND`, and its value. -/
inductive Conjunction : List Part → Bool → Prop
  | operand {word : List Part} {value : Bool} (only : Operand word value) : Conjunction word value
  | and {first rest : List Part} {a b : Bool} (left : Operand first a)
    (right : Conjunction rest b) : Conjunction (first ++ .and :: rest) (a && b)

/-- A word that is read as conjunctions joined by `OR`, and its value. -/
inductive Disjunction : List Part → Bool → Prop
  | conjunction {word : List Part} {value : Bool} (only : Conjunction word value) :
    Disjunction word value
  | or {first rest : List Part} {a b : Bool} (left : Conjunction first a)
    (right : Disjunction rest b) : Disjunction (first ++ .or :: rest) (a || b)

end

/-- The text can be read as a condition with these atoms, from the left to the right, and this
value. -/
def Means (found : List (List Char × Bool)) (text : List Char) (value : Bool) : Prop :=
  ∃ word, spelled word = text ∧ atoms word = found ∧ Disjunction word value

/-! ### One value for a word -/

/-- What is known of the condition within a pair of parentheses when it has been read in part. -/
structure Progress where
  /-- Does one of the conjunctions that are finished hold? -/
  holds : Bool
  /-- Do the operands of the last conjunction hold so far? -/
  last : Bool

/-- Go on through a word with the progress within the innermost parentheses and around them. -/
def evaluate : Progress → List Progress → List Part → Option Bool
  | now, [], [] => some (now.holds || now.last)
  | _, _ :: _, [] => none
  | now, outer, .atom _ value :: rest => evaluate ⟨now.holds, now.last && value⟩ outer rest
  | now, outer, .always :: rest => evaluate now outer rest
  | now, outer, .opening :: rest => evaluate ⟨false, true⟩ (now :: outer) rest
  | _, [], .closing :: _ => none
  | now, before :: outer, .closing :: rest =>
    evaluate ⟨before.holds, before.last && (now.holds || now.last)⟩ outer rest
  | now, outer, .and :: rest => evaluate now outer rest
  | now, outer, .or :: rest => evaluate ⟨now.holds || now.last, true⟩ outer rest

mutual

theorem evaluate_operand {word : List Part} {value : Bool} (h : Operand word value)
    (now : Progress) (outer : List Progress) (rest : List Part) :
    evaluate now outer (word ++ rest) = evaluate ⟨now.holds, now.last && value⟩ outer rest := by
  match word, value, h with
  | _, _, .atom text value => simp [evaluate]
  | _, _, .always => simp [evaluate]
  | _, _, .group inside =>
    obtain ⟨after, hvalue, hafter⟩ :=
      evaluate_disjunction inside false (now :: outer) (.closing :: rest)
    simp only [List.cons_append, List.append_assoc, List.nil_append, evaluate, hafter, hvalue,
      Bool.false_or]

theorem evaluate_conjunction {word : List Part} {value : Bool} (h : Conjunction word value)
    (now : Progress) (outer : List Progress) (rest : List Part) :
    evaluate now outer (word ++ rest) = evaluate ⟨now.holds, now.last && value⟩ outer rest := by
  match word, value, h with
  | _, _, .operand only => exact evaluate_operand only now outer rest
  | _, _, .and left right =>
    rw [List.append_assoc, evaluate_operand left, List.cons_append, evaluate,
      evaluate_conjunction right, Bool.and_assoc]

/-- A disjunction is one of those that hold, from the start of a conjunction on. -/
theorem evaluate_disjunction {word : List Part} {value : Bool} (h : Disjunction word value)
    (holds : Bool) (outer : List Progress) (rest : List Part) :
    ∃ after : Progress, (after.holds || after.last) = (holds || value) ∧
      evaluate ⟨holds, true⟩ outer (word ++ rest) = evaluate after outer rest := by
  match word, value, h with
  | _, _, .conjunction only =>
    exact ⟨_, rfl, evaluate_conjunction only ⟨holds, true⟩ outer rest⟩
  | _, _, .or (a := a) left right =>
    obtain ⟨after, hvalue, hafter⟩ := evaluate_disjunction right (holds || a) outer rest
    refine ⟨after, hvalue.trans (Bool.or_assoc ..), ?_⟩
    rw [List.append_assoc, evaluate_conjunction left, List.cons_append, evaluate, Bool.true_and,
      hafter]

end

variable {word : List Part} {value : Bool}

/-- **A word has one value at most.** -/
theorem eq_of_disjunction {other : Bool} (h : Disjunction word value)
    (hother : Disjunction word other) : value = other := by
  obtain ⟨after, hvalue, hafter⟩ := evaluate_disjunction h false [] []
  obtain ⟨after', hvalue', hafter'⟩ := evaluate_disjunction hother false [] []
  have hsame : evaluate after [] [] = evaluate after' [] [] := hafter.symm.trans hafter'
  simpa [evaluate, hvalue, hvalue'] using hsame

/-! ### One word for a text -/

/-- The text of an atom that can be told from the other parts where it starts: with a quoted name,
with one behind a parenthesis, or with the name of a function. -/
inductive Recognizable : List Char → Prop
  | name (rest : List Char) : Recognizable ('"' :: rest)
  | group (rest : List Char) : Recognizable ('(' :: '"' :: rest)
  | call (rest : List Char) : Recognizable ('r' :: rest)

theorem atoms_cons (part : Part) (word : List Part) :
    atoms (part :: word) = part.atom?.toList ++ atoms word := by
  rw [atoms, List.filterMap_cons]
  cases part.atom? <;> rfl

theorem spelled_cons (part : Part) (word : List Part) :
    spelled (part :: word) = part.text ++ spelled word := List.flatMap_cons

/-- An atom and another part start in different ways, if a parenthesis is not followed by a quoted
name without being part of an atom. -/
theorem ne_of_recognizable {text : List Char} (h : Recognizable text) {part : Part}
    (hpart : part.atom? = none) (before : List Char) {after : List Char}
    (hafter : ∀ rest, text = '(' :: '"' :: rest → ∀ more, after ≠ '"' :: more) :
    text ++ before ≠ part.text ++ after := by
  cases h with
  | name rest => cases part <;> simp_all [Part.text, Part.atom?]
  | call rest => cases part <;> simp_all [Part.text, Part.atom?]
  | group rest =>
    have hquote := hafter rest rfl
    cases part with
    | opening =>
      intro heq
      exact hquote (rest ++ before) (List.cons.inj heq).2.symm
    | _ => simp_all [Part.text, Part.atom?]

/-- A word does not start with a quoted name, if its first atom starts with a parenthesis. -/
theorem spelled_ne_quote {text rest : List Char} {truth : Bool}
    {others : List (List Char × Bool)} (hatoms : atoms word = (text, truth) :: others)
    (htext : text = '(' :: '"' :: rest) (more : List Char) : spelled word ≠ '"' :: more := by
  cases word with
  | nil => simp [spelled]
  | cons part word =>
    rw [spelled_cons]
    rw [atoms_cons] at hatoms
    cases part <;> simp_all [Part.text, Part.atom?]

theorem eq_of_text_append {part other : Part} (hpart : part.atom? = none)
    (hother : other.atom? = none) {after behind : List Char}
    (h : part.text ++ after = other.text ++ behind) : part = other := by
  cases part <;> cases other <;> simp_all [Part.text, Part.atom?]

theorem eq_nil_of_spelled (hspelled : spelled word = []) (hatoms : atoms word = []) :
    word = [] := by
  cases word with
  | nil => rfl
  | cons part word =>
    rw [spelled_cons] at hspelled
    rw [atoms_cons] at hatoms
    cases part <;> simp_all [Part.text, Part.atom?]

theorem eq_atom_of_atom? {part : Part} {text : List Char} {truth : Bool}
    (h : part.atom? = some (text, truth)) : part = .atom text truth := by
  cases part <;> simp_all [Part.atom?]

/-- **A text is spelled by one word**, if its atoms are known and can be recognized. -/
theorem eq_of_spelled {other : List Part} (hspelled : spelled word = spelled other)
    (hatoms : atoms word = atoms other) (h : ∀ found ∈ atoms word, Recognizable found.1) :
    word = other := by
  induction word generalizing other with
  | nil => exact (eq_nil_of_spelled hspelled.symm hatoms.symm).symm
  | cons part word ih =>
    cases other with
    | nil => exact eq_nil_of_spelled hspelled hatoms
    | cons next other =>
      rw [atoms_cons] at hatoms h
      rw [atoms_cons] at hatoms
      rw [spelled_cons, spelled_cons] at hspelled
      cases hpart : part.atom? with
      | none =>
        cases hnext : next.atom? with
        | none =>
          obtain rfl := eq_of_text_append hpart hnext hspelled
          rw [hpart] at hatoms h
          rw [ih (List.append_cancel_left hspelled) hatoms h]
        | some found =>
          -- an atom cannot start where the other word has a part that is none
          obtain ⟨text, truth⟩ := found
          rw [hpart, hnext] at hatoms
          have hrec : Recognizable text := h (text, truth) (by rw [hpart, hatoms]; simp)
          rw [eq_atom_of_atom? hnext] at hspelled
          exact absurd hspelled.symm (ne_of_recognizable hrec hpart _
            fun rest htext more => spelled_ne_quote hatoms htext more)
      | some found =>
        obtain ⟨text, truth⟩ := found
        have hrec : Recognizable text := h (text, truth) (by rw [hpart]; simp)
        cases hnext : next.atom? with
        | none =>
          rw [hpart, hnext] at hatoms
          rw [eq_atom_of_atom? hpart] at hspelled
          exact absurd hspelled (ne_of_recognizable hrec hnext _
            fun rest htext more => spelled_ne_quote hatoms.symm htext more)
        | some other =>
          rw [hpart, hnext] at hatoms
          obtain ⟨rfl, hrest⟩ := List.cons.inj hatoms
          obtain rfl := (eq_atom_of_atom? hpart).trans (eq_atom_of_atom? hnext).symm
          rw [ih (List.append_cancel_left hspelled) hrest fun other hother =>
            h other (List.mem_append_right _ hother)]

theorem means_iff (hword : Disjunction word value)
    (h : ∀ found ∈ atoms word, Recognizable found.1) (other : Bool) :
    Means (atoms word) (spelled word) other ↔ other = value := by
  constructor
  · rintro ⟨found, hspelled, hatoms, hfound⟩
    obtain rfl := eq_of_spelled hspelled.symm hatoms.symm h
    exact eq_of_disjunction hfound hword
  · rintro rfl
    exact ⟨word, rfl, rfl, hword⟩

/-! ### Joined words -/

/-- The words with a connective between each two of them. -/
def joined (connective : Part) : List (List Part) → List Part
  | [] => []
  | [word] => word
  | word :: rest => word ++ connective :: joined connective rest

theorem spelled_append (word rest : List Part) :
    spelled (word ++ rest) = spelled word ++ spelled rest := List.flatMap_append

theorem atoms_append (word rest : List Part) :
    atoms (word ++ rest) = atoms word ++ atoms rest := List.filterMap_append

theorem spelled_joined {connective : Part} {separator : String}
    (hseparator : connective.text = separator.toList) {words : List (List Part)}
    {texts : List String} (h : words.map spelled = texts.map String.toList) :
    spelled (joined connective words) = (Text.join separator texts).toList := by
  induction words generalizing texts with
  | nil =>
    obtain rfl : texts = [] := List.map_eq_nil_iff.1 h.symm
    rfl
  | cons word rest ih =>
    obtain ⟨text, others, rfl, htext, hothers⟩ := List.map_eq_cons_iff.1 h.symm
    cases rest with
    | nil =>
      obtain rfl : others = [] := List.map_eq_nil_iff.1 hothers
      simp [joined, Text.join, htext]
    | cons second rest =>
      obtain ⟨next, others, rfl, -, -⟩ := List.map_eq_cons_iff.1 hothers
      rw [joined, Text.join, spelled_append, spelled_cons, ih hothers.symm, hseparator, ← htext,
        String.toList_append, String.toList_append, List.append_assoc]
      all_goals simp

theorem atoms_joined {connective : Part} (hconnective : connective.atom? = none)
    (words : List (List Part)) : atoms (joined connective words) = words.flatMap atoms := by
  induction words with
  | nil => rfl
  | cons word rest ih =>
    cases rest with
    | nil => simp [joined]
    | cons second rest =>
      rw [joined, atoms_append, atoms_cons, ih, hconnective]
      · simp
      · simp

theorem conjunction_joined {words : List (List Part)} {values : List Bool}
    (h : List.Forall₂ Operand words values) (hne : words ≠ []) :
    Conjunction (joined .and words) (values.all id) := by
  induction h with
  | nil => exact absurd rfl hne
  | @cons word value rest values hword hrest ih =>
    cases hrest with
    | nil => simpa [joined] using Conjunction.operand hword
    | cons hsecond hmore =>
      rw [joined, List.all_cons]
      · exact .and hword (ih (by simp))
      · simp

theorem disjunction_joined {words : List (List Part)} {values : List Bool}
    (h : List.Forall₂ Operand words values) (hne : words ≠ []) :
    Disjunction (joined .or words) (values.any id) := by
  induction h with
  | nil => exact absurd rfl hne
  | @cons word value rest values hword hrest ih =>
    cases hrest with
    | nil => simpa [joined] using Disjunction.conjunction (.operand hword)
    | cons hsecond hmore =>
      rw [joined, List.any_cons]
      · exact .or (.operand hword) (ih (by simp))
      · simp

end Sql

end ViewCompiler
