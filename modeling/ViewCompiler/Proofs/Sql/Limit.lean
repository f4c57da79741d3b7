import ViewCompiler.Proofs.Sql.Keyword
import ViewCompiler.Sql.Page
import Mathlib.Data.List.Forall2

/-!
# Limits at the end of statements

A statement ends with a limit if a clause of one of three forms stands at the end of its masked
text, with nothing but blanks and one semicolon behind it.

* `Sql.LimitClause`: the forms of the clause.
* `Sql.isTrailingLimit_iff`, `Sql.endsWithLimit_iff`: **the search finds such a clause, and only
  such a clause.**
* `Sql.isTrailing`: may the character stand behind a statement?
* `Sql.endsWithLimit_append`: what stands behind a statement hides its limit exactly if there are
  two semicolons in it.
-/

namespace ViewCompiler

namespace Text

theorem inRanges_eq_false {ranges others : List (Nat × Nat)} {code : Nat}
    (hapart : (ranges.all fun range => others.all fun other =>
      range.2 < other.1 || other.2 < range.1) = true)
    (h : inRanges ranges code = true) : inRanges others code = false := by
  obtain ⟨range, hrange, hin⟩ := List.any_eq_true.1 h
  refine List.any_eq_false.2 fun other hother hin' => ?_
  have hpair := List.all_eq_true.1 (List.all_eq_true.1 hapart range hrange) other hother
  simp only [Bool.and_eq_true, Bool.or_eq_true, decide_eq_true_eq] at hin hin' hpair
  omega

theorem isBlank_of_isDecimalDigit {c : Char} (h : isDecimalDigit c = true) :
    isBlank c = false := by
  rw [isDecimalDigit] at h
  split at h
  · have hascii : inRanges [(48, 57)] c.toNat = true := by
      simpa [isAsciiDigit, inRanges, Char.le_def, UInt32.le_iff_toNat_le] using h
    exact inRanges_eq_false (by decide) hascii
  · exact inRanges_eq_false (by decide) h

end Text

namespace Sql

/-! ### Words, blanks and digits -/

/-- One or more characters of a class. -/
structure Run (p : Char → Bool) (cs : List Char) : Prop where
  ne_nil : cs ≠ []
  all : ∀ c ∈ cs, p c = true

/-- The text does not start with a character of a class. -/
def Stops (p : Char → Bool) (cs : List Char) : Prop := ∀ c, cs.head? = some c → p c = false

/-- The characters are forms of the letters. -/
def Spells (letters cs : List Char) : Prop :=
  List.Forall₂ (fun letter c => isLetter letter c = true) letters cs

section

variable {p : Char → Bool} {cs rest : List Char}

theorem stops_dropWhile (p : Char → Bool) (cs : List Char) : Stops p (cs.dropWhile p) :=
  fun c hc => by
    have hne : cs.dropWhile p ≠ [] := fun hnil => by simp [hnil] at hc
    have hhead := List.head_dropWhile_not p hne
    rw [List.head?_eq_some_head hne] at hc
    rwa [Option.some.inj hc] at hhead

theorem Stops.dropWhile_eq (h : Stops p cs) : cs.dropWhile p = cs := by
  cases cs with
  | nil => rfl
  | cons c rest => simp [h c rfl]

theorem dropWhile_append_of_all {run : List Char} (hrun : ∀ c ∈ run, p c = true)
    (hrest : Stops p rest) : (run ++ rest).dropWhile p = rest := by
  rw [List.dropWhile_append_of_pos hrun, hrest.dropWhile_eq]

theorem Run.stops_append {q : Char → Bool} (h : Run p cs) (hq : ∀ c, p c = true → q c = false)
    (rest : List Char) : Stops q (cs ++ rest) := by
  intro c hc
  rw [List.head?_append_of_ne_nil _ h.ne_nil] at hc
  exact hq c (h.all c (List.mem_of_head? hc))

/-- The characters of a class at the start of a text, of which there must be one. -/
def afterRun (p : Char → Bool) : Matcher
  | [] => none
  | c :: rest => if p c then some (rest.dropWhile p) else none

theorem afterRun_eq_some_iff :
    afterRun p cs = some rest ↔ ∃ run, cs = run ++ rest ∧ Run p run ∧ Stops p rest := by
  constructor
  · intro h
    rcases cs with - | ⟨c, more⟩
    · cases h
    rw [afterRun] at h
    split at h
    · next hc =>
      obtain rfl := Option.some.inj h
      refine ⟨c :: more.takeWhile p, by simp, ⟨by simp, ?_⟩, stops_dropWhile p more⟩
      rw [List.forall_mem_cons]
      exact ⟨hc, fun d hd => List.mem_takeWhile_imp hd⟩
    · cases h
  · rintro ⟨run, rfl, ⟨hne, hall⟩, hrest⟩
    obtain ⟨c, more, rfl⟩ := List.exists_cons_of_ne_nil hne
    rw [List.forall_mem_cons] at hall
    rw [List.cons_append, afterRun, if_pos hall.1, dropWhile_append_of_all hall.2 hrest]

theorem blanks_eq : blanks = afterRun Text.isBlank := by
  funext cs
  cases cs <;> rfl

theorem digits_eq : digits = afterRun Text.isDecimalDigit := by
  funext cs
  cases cs <;> rfl

theorem blanks_eq_some_iff :
    blanks cs = some rest ↔
      ∃ gap, cs = gap ++ rest ∧ Run Text.isBlank gap ∧ Stops Text.isBlank rest := by
  rw [blanks_eq, afterRun_eq_some_iff]

theorem digits_eq_some_iff :
    digits cs = some rest ↔ ∃ number, cs = number ++ rest ∧ Run Text.isDecimalDigit number ∧
      Stops Text.isDecimalDigit rest := by
  rw [digits_eq, afterRun_eq_some_iff]

theorem word_eq_some_iff {letters : List Char} :
    word letters cs = some rest ↔ ∃ taken, cs = taken ++ rest ∧ Spells letters taken := by
  induction letters generalizing cs with
  | nil =>
    constructor
    · intro h
      exact ⟨[], Option.some.inj h, .nil⟩
    · rintro ⟨taken, rfl, hspells⟩
      obtain rfl := List.forall₂_nil_left_iff.1 hspells
      rfl
  | cons letter more ih =>
    constructor
    · intro h
      rcases cs with - | ⟨c, cs⟩
      · cases h
      rw [word] at h
      split at h
      · next hc =>
        obtain ⟨taken, rfl, hspells⟩ := ih.1 h
        exact ⟨c :: taken, rfl, .cons hc hspells⟩
      · cases h
    · rintro ⟨taken, rfl, hspells⟩
      obtain ⟨c, others, hc, hothers, rfl⟩ := List.forall₂_cons_left_iff.1 hspells
      rw [List.cons_append, word, if_pos hc]
      exact ih.2 ⟨others, rfl, hothers⟩

theorem isBlank_of_isLetter {letter c : Char} (hletter : Text.isBlank letter = false)
    (h : isLetter letter c = true) : Text.isBlank c = false := by
  rw [isLetter, Bool.or_eq_true, Bool.and_eq_true, decide_eq_true_eq, decide_eq_true_eq,
    decide_eq_true_eq, Text.asciiLower] at h
  rcases h with h | ⟨-, rfl⟩
  · split at h
    · next hcapital =>
      have hrange : Text.inRanges [(65, 90)] c.toNat = true := by
        simpa [Text.inRanges, Char.le_def, UInt32.le_iff_toNat_le] using hcapital
      exact Text.inRanges_eq_false (by decide) hrange
    · rw [h, hletter]
  · decide

theorem Spells.stops_append {letter : Char} {letters taken : List Char}
    (h : Spells (letter :: letters) taken) (hletter : Text.isBlank letter = false)
    (rest : List Char) : Stops Text.isBlank (taken ++ rest) := by
  obtain ⟨c, others, hc, -, rfl⟩ := List.forall₂_cons_left_iff.1 h
  intro d hd
  obtain rfl : c = d := by simpa using hd
  exact isBlank_of_isLetter hletter hc

end

/-! ### What stands behind a statement -/

/-- Is the character a blank or a semicolon? -/
def isTrailing (c : Char) : Bool := Text.isBlank c || c = ';'

theorem isTrailing_of_isDecimalDigit {c : Char} (h : Text.isDecimalDigit c = true) :
    isTrailing c = false := by
  have hne : c ≠ ';' := fun hc => absurd (hc ▸ h) (by decide)
  simp [isTrailing, Text.isBlank_of_isDecimalDigit h, hne]

theorem isBlank_of_isTrailing {c : Char} (h : isTrailing c = true) (hne : c ≠ ';') :
    Text.isBlank c = true := by
  simpa [isTrailing, hne] using h

theorem count_semicolon_of_blank {cs : List Char} (h : ∀ c ∈ cs, Text.isBlank c = true) :
    cs.count ';' = 0 :=
  List.count_eq_zero.2 fun hmem => absurd (h ';' hmem) (by decide)

theorem trimStart_eq_nil_iff {cs : List Char} :
    Text.trimStart cs = [] ↔ ∀ c ∈ cs, Text.isBlank c = true :=
  List.dropWhile_eq_nil_iff

theorem isClauseEnd_iff {cs : List Char} :
    isClauseEnd cs = true ↔ (∀ c ∈ cs, isTrailing c = true) ∧ cs.count ';' ≤ 1 := by
  have hsplit : cs.takeWhile Text.isBlank ++ Text.trimStart cs = cs :=
    List.takeWhile_append_dropWhile
  have hblank : ∀ c ∈ cs.takeWhile Text.isBlank, Text.isBlank c = true :=
    fun c hc => List.mem_takeWhile_imp hc
  have hstops : Stops Text.isBlank (Text.trimStart cs) := stops_dropWhile _ _
  have hall : (∀ c ∈ cs, isTrailing c = true) ↔ ∀ c ∈ Text.trimStart cs, isTrailing c = true := by
    conv_lhs => rw [← hsplit]
    rw [List.forall_mem_append]
    exact and_iff_right fun c hc => by simp [isTrailing, hblank c hc]
  have hcount : cs.count ';' = (Text.trimStart cs).count ';' := by
    conv_lhs => rw [← hsplit]
    rw [List.count_append, count_semicolon_of_blank hblank, Nat.zero_add]
  rw [isClauseEnd, hall, hcount]
  generalize Text.trimStart cs = trimmed at hstops ⊢
  rcases trimmed with - | ⟨c, rest⟩
  · simp
  by_cases hc : c = ';'
  · subst hc
    simp only [List.isEmpty_iff, trimStart_eq_nil_iff, List.forall_mem_cons, List.count_cons_self]
    constructor
    · intro h
      exact ⟨⟨rfl, fun d hd => by simp [isTrailing, h d hd]⟩, by rw [count_semicolon_of_blank h]⟩
    · rintro ⟨⟨-, htrailing⟩, hone⟩ d hd
      refine isBlank_of_isTrailing (htrailing d hd) fun heq => ?_
      have hpos := List.count_pos_iff.2 (heq ▸ hd)
      omega
  · have hnot : isTrailing c = false := by simp [isTrailing, hstops c rfl, hc]
    simp [hnot, hc]

/-! ### Clauses -/

/-- What may follow the first number of a limit: nothing, a comma or `OFFSET` with another one. -/
inductive SecondNumber : List Char → Prop
  | none : SecondNumber []
  | comma {gap behind number : List Char} (hgap : ∀ c ∈ gap, Text.isBlank c = true)
    (hbehind : ∀ c ∈ behind, Text.isBlank c = true) (hnumber : Run Text.isDecimalDigit number) :
    SecondNumber (gap ++ ',' :: (behind ++ number))
  | offset {gap word behind number : List Char} (hgap : Run Text.isBlank gap)
    (hword : Spells ['o', 'f', 'f', 's', 'e', 't'] word) (hbehind : Run Text.isBlank behind)
    (hnumber : Run Text.isDecimalDigit number) :
    SecondNumber (gap ++ (word ++ (behind ++ number)))

/-- A limit: the word, a number and perhaps a second one. -/
inductive LimitClause : List Char → Prop
  | mk {word gap number second : List Char} (hword : Spells ['l', 'i', 'm', 'i', 't'] word)
    (hgap : Run Text.isBlank gap) (hnumber : Run Text.isDecimalDigit number)
    (hsecond : SecondNumber second) : LimitClause (word ++ (gap ++ (number ++ second)))

section

variable {cs rest : List Char}

theorem commaCount_eq_some_iff :
    commaCount cs = some rest ↔ ∃ gap behind number,
      cs = gap ++ ',' :: (behind ++ (number ++ rest)) ∧
      (∀ c ∈ gap, Text.isBlank c = true) ∧ (∀ c ∈ behind, Text.isBlank c = true) ∧
      Run Text.isDecimalDigit number ∧ Stops Text.isDecimalDigit rest := by
  rw [commaCount]
  constructor
  · intro h
    split at h
    · next more hcomma =>
      obtain ⟨number, hnumber, hrun, hstops⟩ := digits_eq_some_iff.1 h
      refine ⟨cs.takeWhile Text.isBlank, more.takeWhile Text.isBlank, number, ?_,
        fun c hc => List.mem_takeWhile_imp hc, fun c hc => List.mem_takeWhile_imp hc, hrun, hstops⟩
      rw [← hnumber, Text.trimStart, List.takeWhile_append_dropWhile, ← hcomma, Text.trimStart,
        List.takeWhile_append_dropWhile]
    · cases h
  · rintro ⟨gap, behind, number, rfl, hgap, hbehind, hrun, hstops⟩
    have hfirst : Text.trimStart (gap ++ ',' :: (behind ++ (number ++ rest))) =
        ',' :: (behind ++ (number ++ rest)) :=
      dropWhile_append_of_all hgap fun c hc => Option.some.inj hc ▸ rfl
    have hsecond : Text.trimStart (behind ++ (number ++ rest)) = number ++ rest :=
      dropWhile_append_of_all hbehind
        (hrun.stops_append (fun c hc => Text.isBlank_of_isDecimalDigit hc) rest)
    simp only [hfirst, hsecond]
    exact digits_eq_some_iff.2 ⟨number, rfl, hrun, hstops⟩

theorem bind_blanks_digits_eq_some_iff {letters : List Char} :
    ((word letters cs).bind blanks).bind digits = some rest ↔
      ∃ taken gap number, cs = taken ++ (gap ++ (number ++ rest)) ∧ Spells letters taken ∧
        Run Text.isBlank gap ∧ Run Text.isDecimalDigit number ∧
        Stops Text.isDecimalDigit rest := by
  simp only [Option.bind_eq_some_iff, word_eq_some_iff, blanks_eq_some_iff, digits_eq_some_iff]
  constructor
  · rintro ⟨-, ⟨-, ⟨taken, rfl, hspells⟩, gap, rfl, hgap, -⟩, number, rfl, hnumber, hstops⟩
    exact ⟨taken, gap, number, rfl, hspells, hgap, hnumber, hstops⟩
  · rintro ⟨taken, gap, number, rfl, hspells, hgap, hnumber, hstops⟩
    exact ⟨_, ⟨_, ⟨taken, rfl, hspells⟩, gap, rfl, hgap,
      hnumber.stops_append (fun c hc => Text.isBlank_of_isDecimalDigit hc) rest⟩,
      number, rfl, hnumber, hstops⟩

theorem offsetCount_eq_some_iff :
    offsetCount cs = some rest ↔ ∃ gap taken behind number,
      cs = gap ++ (taken ++ (behind ++ (number ++ rest))) ∧ Run Text.isBlank gap ∧
      Spells ['o', 'f', 'f', 's', 'e', 't'] taken ∧ Run Text.isBlank behind ∧
      Run Text.isDecimalDigit number ∧ Stops Text.isDecimalDigit rest := by
  have hword : offsetCount cs = (blanks cs).bind fun more =>
      ((word ['o', 'f', 'f', 's', 'e', 't'] more).bind blanks).bind digits := by
    simp only [offsetCount, Option.bind_assoc]
  rw [hword]
  simp only [Option.bind_eq_some_iff (x := blanks cs), blanks_eq_some_iff,
    bind_blanks_digits_eq_some_iff]
  constructor
  · rintro ⟨-, ⟨gap, rfl, hgap, -⟩, taken, behind, number, rfl, hrest⟩
    exact ⟨gap, taken, behind, number, rfl, hgap, hrest⟩
  · rintro ⟨gap, taken, behind, number, rfl, hgap, hspells, hrest⟩
    exact ⟨_, ⟨gap, rfl, hgap, hspells.stops_append (by decide) _⟩, taken, behind, number, rfl,
      hspells, hrest⟩

theorem stops_of_isClauseEnd (h : isClauseEnd cs = true) : Stops Text.isDecimalDigit cs := by
  intro c hc
  have htrailing := (isClauseEnd_iff.1 h).1 c (List.mem_of_head? hc)
  cases hdigit : Text.isDecimalDigit c with
  | false => rfl
  | true => simp [isTrailing_of_isDecimalDigit hdigit] at htrailing

theorem SecondNumber.stops_append {second : List Char} (h : SecondNumber second)
    (hrest : isClauseEnd rest = true) : Stops Text.isDecimalDigit (second ++ rest) := by
  have hblank : ∀ c, Text.isBlank c = true → Text.isDecimalDigit c = false := fun c hc => by
    cases hdigit : Text.isDecimalDigit c with
    | false => rfl
    | true => simp [Text.isBlank_of_isDecimalDigit hdigit] at hc
  cases h with
  | none => exact stops_of_isClauseEnd hrest
  | @comma gap behind number hgap =>
    intro c hc
    rcases gap with - | ⟨d, gap⟩
    · obtain rfl : ',' = c := by simpa using hc
      decide
    · obtain rfl : d = c := by simpa using hc
      exact hblank d (hgap d List.mem_cons_self)
  | offset hgap =>
    rw [List.append_assoc]
    exact hgap.stops_append hblank _

/-- **A limit stands at a place exactly if** one of its forms is there and ends the text, but for
blanks and a semicolon. -/
theorem isTrailingLimit_iff :
    isTrailingLimit cs = true ↔
      ∃ clause gap, cs = clause ++ gap ∧ LimitClause clause ∧ isClauseEnd gap = true := by
  rw [isTrailingLimit]
  constructor
  · intro h
    split at h
    · cases h
    next rest hrest =>
    obtain ⟨taken, gap, number, rfl, hspells, hgap, hnumber, -⟩ :=
      bind_blanks_digits_eq_some_iff.1 hrest
    obtain ⟨second, behind, rfl, hsecond, hend⟩ : ∃ second behind, rest = second ++ behind ∧
        SecondNumber second ∧ isClauseEnd behind = true := by
      rw [Bool.or_eq_true, Bool.or_eq_true, Option.any_eq_true, Option.any_eq_true] at h
      rcases h with (hend | ⟨behind, hcomma, hend⟩) | ⟨behind, hoffset, hend⟩
      · exact ⟨[], rest, rfl, .none, hend⟩
      · obtain ⟨gap, middle, number, rfl, hgap, hmiddle, hnumber, -⟩ :=
          commaCount_eq_some_iff.1 hcomma
        exact ⟨_, behind, by simp, .comma hgap hmiddle hnumber, hend⟩
      · obtain ⟨gap, taken, middle, number, rfl, hgap, hspells, hmiddle, hnumber, -⟩ :=
          offsetCount_eq_some_iff.1 hoffset
        exact ⟨_, behind, by simp, .offset hgap hspells hmiddle hnumber, hend⟩
    exact ⟨_, behind, by simp, ⟨hspells, hgap, hnumber, hsecond⟩, hend⟩
  · rintro ⟨clause, behind, rfl, ⟨hspells, hgap, hnumber, hsecond⟩, hend⟩
    rw [bind_blanks_digits_eq_some_iff.2 ⟨_, _, _, by simp only [List.append_assoc], hspells, hgap,
      hnumber, hsecond.stops_append hend⟩]
    have hstops := stops_of_isClauseEnd hend
    simp only [Bool.or_eq_true, Option.any_eq_true]
    cases hsecond with
    | none => exact .inl (.inl hend)
    | comma hgap hmiddle hnumber =>
      exact .inl (.inr ⟨behind, commaCount_eq_some_iff.2
        ⟨_, _, _, by simp, hgap, hmiddle, hnumber, hstops⟩, hend⟩)
    | offset hgap hspells hmiddle hnumber =>
      exact .inr ⟨behind, offsetCount_eq_some_iff.2
        ⟨_, _, _, _, by simp, hgap, hspells, hmiddle, hnumber, hstops⟩, hend⟩

theorem LimitClause.exists_last {clause : List Char} (h : LimitClause clause) :
    ∃ c, clause.getLast? = some c ∧ isTrailing c = false := by
  have hlast : ∀ {number : List Char} (before : List Char), Run Text.isDecimalDigit number →
      ∃ c, (before ++ number).getLast? = some c ∧ isTrailing c = false := by
    intro number before hnumber
    refine ⟨number.getLast hnumber.ne_nil, ?_, ?_⟩
    · rw [List.getLast?_append_of_ne_nil _ hnumber.ne_nil, List.getLast?_eq_some_getLast]
    · exact isTrailing_of_isDecimalDigit (hnumber.all _ (List.getLast_mem hnumber.ne_nil))
  obtain ⟨hword, hgap, hnumber, hsecond⟩ := h
  rename_i word gap number second
  cases hsecond with
  | none => simpa using hlast (word ++ gap) hnumber
  | @comma before behind number' _ _ hnumber' =>
    simpa using hlast (word ++ gap ++ number ++ before ++ ',' :: behind) hnumber'
  | @offset before offset behind number' _ _ _ hnumber' =>
    simpa using hlast (word ++ gap ++ number ++ before ++ offset ++ behind) hnumber'

/-! ### Limits at the end of a text -/

/-- A word may start behind the text. -/
def EndsWord (inWord : Bool) (before : List Char) : Prop :=
  (before = [] → inWord = false) ∧ ∀ c, before.getLast? = some c → Text.isWordChar c = false

theorem endsWord_cons {inWord : Bool} {c : Char} {before : List Char} :
    EndsWord inWord (c :: before) ↔ EndsWord (Text.isWordChar c) before := by
  cases before <;> simp [EndsWord]

/-- **A text ends with a limit exactly if** a clause stands at its end where a word may start. -/
theorem endsWithLimit_iff {inWord : Bool} :
    endsWithLimit inWord cs = true ↔
      ∃ before clause gap, cs = before ++ (clause ++ gap) ∧ EndsWord inWord before ∧
        LimitClause clause ∧ isClauseEnd gap = true := by
  induction cs generalizing inWord with
  | nil =>
    simp only [endsWithLimit, Bool.false_eq_true, false_iff]
    rintro ⟨before, clause, gap, hnil, -, hclause, -⟩
    obtain ⟨c, hc, -⟩ := hclause.exists_last
    obtain ⟨-, rfl, -⟩ : before = [] ∧ clause = [] ∧ gap = [] := by simpa using hnil
    cases hc
  | cons c rest ih =>
    rw [endsWithLimit, Bool.or_eq_true, Bool.and_eq_true, isTrailingLimit_iff, ih]
    constructor
    · rintro (⟨hin, clause, gap, heq, hclause, hend⟩ | ⟨before, clause, gap, rfl, hword, hlimit⟩)
      · exact ⟨[], clause, gap, heq, ⟨fun _ => by simpa using hin, by simp⟩, hclause, hend⟩
      · exact ⟨c :: before, clause, gap, rfl, endsWord_cons.2 hword, hlimit⟩
    · rintro ⟨before, clause, gap, heq, hword, hclause, hend⟩
      rcases before with - | ⟨d, before⟩
      · exact .inl ⟨by simpa using hword.1 rfl, clause, gap, heq, hclause, hend⟩
      · obtain ⟨rfl, rfl⟩ := List.cons.inj heq
        exact .inr ⟨before, clause, gap, rfl, endsWord_cons.1 hword, hclause, hend⟩

section

variable {α : Type} {p : α → Bool} {front back : List α} {x : α}

theorem rdropWhile_append_of_all (hback : ∀ y ∈ back, p y = true) :
    (front ++ back).rdropWhile p = front.rdropWhile p := by
  rw [List.rdropWhile, List.reverse_append,
    List.dropWhile_append_of_pos fun y hy => hback y (List.mem_reverse.1 hy)]
  rfl

/-- What is taken off an end stays behind an element that is kept. -/
theorem rdropWhile_append_of_getLast? (hfront : front.getLast? = some x) (hx : p x = false) :
    (front ++ back).rdropWhile p = front ++ back.rdropWhile p := by
  obtain ⟨start, rfl⟩ := List.getLast?_eq_some_iff.1 hfront
  have hkept : ¬p x = true := by simp [hx]
  induction back using List.reverseRecOn with
  | nil => simp [hkept]
  | append_singleton rest y ih =>
    by_cases hy : p y = true
    · rw [← List.append_assoc, List.rdropWhile_concat_pos p _ _ hy, ih,
        List.rdropWhile_concat_pos p _ _ hy]
    · rw [← List.append_assoc, List.rdropWhile_concat_neg p _ _ hy,
        List.rdropWhile_concat_neg p _ _ hy, List.append_assoc]

end

/-- Two ways to take off what stands behind a statement are the same. -/
theorem append_trailing_inj {p : Char → Bool} {front back other more : List Char} {c d : Char}
    (h : front ++ back = other ++ more) (hfront : front.getLast? = some c) (hc : p c = false)
    (hother : other.getLast? = some d) (hd : p d = false) (hback : ∀ x ∈ back, p x = true)
    (hmore : ∀ x ∈ more, p x = true) : front = other ∧ back = more := by
  have hdrop := congrArg (List.rdropWhile p) h
  rw [rdropWhile_append_of_getLast? hfront hc, rdropWhile_append_of_getLast? hother hd,
    List.rdropWhile_eq_nil_iff.2 hback, List.rdropWhile_eq_nil_iff.2 hmore, List.append_nil,
    List.append_nil] at hdrop
  subst hdrop
  exact ⟨rfl, List.append_cancel_left h⟩

/-- **Behind a text that does not end with a blank or a semicolon**, blanks and semicolons leave
its limit at the end exactly if there is at most one semicolon. -/
theorem endsWithLimit_append {inWord : Bool} {c : Char} (hlast : cs.getLast? = some c)
    (hc : isTrailing c = false) (hrest : ∀ d ∈ rest, isTrailing d = true) :
    endsWithLimit inWord (cs ++ rest) = true ↔
      endsWithLimit inWord cs = true ∧ rest.count ';' ≤ 1 := by
  rw [endsWithLimit_iff, endsWithLimit_iff]
  constructor
  · rintro ⟨before, clause, gap, heq, hword, hclause, hend⟩
    obtain ⟨d, hd, hdigit⟩ := hclause.exists_last
    obtain ⟨htrailing, hcount⟩ := isClauseEnd_iff.1 hend
    have hne : clause ≠ [] := fun hnil => by simp [hnil] at hd
    rw [← List.append_assoc] at heq
    obtain ⟨rfl, rfl⟩ := append_trailing_inj heq hlast hc
      (by rw [List.getLast?_append_of_ne_nil _ hne, hd]) hdigit hrest htrailing
    exact ⟨⟨before, clause, [], by simp, hword, hclause, rfl⟩, hcount⟩
  · rintro ⟨⟨before, clause, gap, rfl, hword, hclause, hend⟩, hcount⟩
    obtain ⟨d, hd, hdigit⟩ := hclause.exists_last
    -- the last character of the text is no blank, so that nothing follows the clause there
    obtain rfl : gap = [] := by
      by_contra hne
      rw [← List.append_assoc, List.getLast?_append_of_ne_nil _ hne] at hlast
      have htrailing := (isClauseEnd_iff.1 hend).1 c (List.mem_of_getLast? hlast)
      simp [hc] at htrailing
    exact ⟨before, clause, rest, by simp, hword, hclause, isClauseEnd_iff.2 ⟨hrest, hcount⟩⟩

end

end Sql

end ViewCompiler
