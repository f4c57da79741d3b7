import ViewCompiler.Proofs.Result
import ViewCompiler.Proofs.Sql.Page
import ViewCompiler.Proofs.Sql.TopLevel
import ViewCompiler.Request.Statement
import Mathlib.Tactic.IntervalCases

/-!
# Orders behind statements

A statement in an order is the statement, or a subquery of it, with an `ORDER BY` behind it.

* `Sql.orderKeyword`: the keyword, with any blanks between its words.
* `Sql.occurs_append_of_lt`: where a keyword cannot reach into the second part of a text, the first
  part is searched for itself.
* `Sql.TakesEffect`: the order that is added is code and the only one outside of parentheses.
* `Sql.takesEffect_iff`: **it takes effect exactly if** it follows code in which there is no order.
* `Sql.sortedSubquery`: a statement as a subquery, in which its own orders are within parentheses.
* `SqlRequest.orderedBy_takesEffect_iff`: **what this says about a statement**, where one that seems
  to be sorted or limited already becomes a subquery.
-/

namespace ViewCompiler

namespace Text

theorem isWordChar_of_isLetter {letter c : Char} (hletter : isWordChar letter = true)
    (h : Sql.isLetter letter c = true) : isWordChar c = true := by
  rw [Sql.isLetter, Bool.or_eq_true, Bool.and_eq_true, decide_eq_true_eq, decide_eq_true_eq,
    decide_eq_true_eq, asciiLower] at h
  rcases h with h | ⟨-, rfl⟩
  · split at h
    · next hcapital =>
      have hascii : c.toNat < 128 := by
        simp only [Bool.and_eq_true, decide_eq_true_eq, Char.le_def, UInt32.le_iff_toNat_le]
          at hcapital
        exact Nat.lt_of_le_of_lt hcapital.2 (by decide)
      rw [isWordChar, isAlphabetic, if_pos hascii, isAsciiLetter, hcapital, Bool.or_true]
      rfl
    · rw [h, hletter]
  · decide

theorem isWordChar_of_isBlank {c : Char} (h : isBlank c = true) : isWordChar c = false := by
  have halphabetic : isAlphabetic c = false := by
    unfold isAlphabetic
    split
    · have hletters : inRanges [(97, 122), (65, 90)] c.toNat = false :=
        inRanges_eq_false (by decide) h
      simpa [isAsciiLetter, inRanges, Char.le_def, UInt32.le_iff_toNat_le] using hletters
    · exact inRanges_eq_false (by decide +kernel) h
  have hdigit : isDecimalDigit c = false := by
    by_contra hdigit
    rw [isBlank_of_isDecimalDigit (Bool.not_eq_false _ ▸ hdigit)] at h
    cases h
  have hjoiner : inRanges joinerRanges c.toNat = false := inRanges_eq_false (by decide) h
  rw [isWordChar, halphabetic, hdigit, hjoiner]
  rfl

end Text

namespace Sql

/-! ### The keyword -/

/-- The keyword `ORDER BY`, with any blanks between its words. -/
def orderKeyword : Matcher := whole (wordPair ['o', 'r', 'd', 'e', 'r'] ['b', 'y'])

/-- The text goes on neither with a word nor, behind its blanks, with the second word of the
keyword. -/
structure Separates (back : List Char) : Prop where
  first : Stops Text.isWordChar back
  second : Stops (isLetter 'b') (Text.trimStart back)

section

variable {matcher : Matcher} {inWord : Bool} {front back cs rest : List Char} {span : Span}

theorem word_append {letters : List Char}
    (hletters : letters.all Text.isWordChar = true) (hback : Stops Text.isWordChar back)
    (cs : List Char) : word letters (cs ++ back) = (word letters cs).map (· ++ back) := by
  induction letters generalizing cs with
  | nil => rfl
  | cons letter more ih =>
    rw [List.all_cons, Bool.and_eq_true] at hletters
    cases cs with
    | nil =>
      cases back with
      | nil => rfl
      | cons c back =>
        have hnot : ¬isLetter letter c = true := fun hc => by
          have hword := Text.isWordChar_of_isLetter hletters.1 hc
          rw [hback c rfl] at hword
          cases hword
        exact if_neg hnot
    | cons c cs =>
      rw [List.cons_append, word, word]
      split
      · exact ih hletters.2 cs
      · rfl

theorem word_eq_none {letter : Char} {letters : List Char} (h : Stops (isLetter letter) cs) :
    word (letter :: letters) cs = none := by
  cases cs with
  | nil => rfl
  | cons c cs => rw [word, h c rfl]; rfl

/-- The second word of the keyword does not lie behind the end of a text. -/
theorem bind_blanks_append (hback : Separates back) (cs : List Char) :
    (blanks (cs ++ back)).bind (word ['b', 'y']) =
      ((blanks cs).bind (word ['b', 'y'])).map (· ++ back) := by
  have hnone : word ['b', 'y'] (Text.trimStart back) = none := word_eq_none hback.second
  cases cs with
  | nil =>
    cases back with
    | nil => rfl
    | cons c back =>
      rw [List.nil_append, blanks]
      by_cases hc : Text.isBlank c = true
      · rw [Text.trimStart, List.dropWhile_cons_of_pos hc] at hnone
        rw [blanks, if_pos hc]
        exact hnone
      · rw [blanks, if_neg hc]
        rfl
  | cons c cs =>
    rw [List.cons_append, blanks, blanks]
    split
    · rw [Option.bind_some, Option.bind_some, Text.trimStart, List.dropWhile_append]
      split
      · next hempty =>
        rw [Text.trimStart, List.isEmpty_iff.1 hempty]
        exact hnone
      · exact word_append (by decide) hback.first _
    · rfl

/-- **The keyword does not reach over the end of a text** that is separated from what follows. -/
theorem orderKeyword_append (hback : Separates back) (cs : List Char) :
    orderKeyword (cs ++ back) = (orderKeyword cs).map (· ++ back) := by
  have hstarts (rest : List Char) : startsInWord (rest ++ back) = startsInWord rest := by
    cases rest with
    | nil =>
      cases back with
      | nil => rfl
      | cons c back => exact hback.first c rfl
    | cons => rfl
  unfold orderKeyword whole wordPair
  rw [word_append (by decide) hback.first]
  cases word ['o', 'r', 'd', 'e', 'r'] cs with
  | none => rfl
  | some rest =>
    rw [Option.map_some, Option.bind_some, Option.bind_some, bind_blanks_append hback]
    cases (blanks rest).bind (word ['b', 'y']) with
    | none => rfl
    | some rest =>
      rw [Option.map_some, Option.bind_some, Option.bind_some, hstarts]
      split <;> rfl

/-- Where a keyword does not reach into the second part of a text, the first part is searched for
itself. -/
theorem occurs_append_of_lt (hmatch : ∀ cs, matcher (cs ++ back) = (matcher cs).map (· ++ back))
    (hlt : span.start < front.length) :
    Occurs matcher inWord (front ++ back) span ↔ Occurs matcher inWord front span := by
  have hletter : (front ++ back)[span.start]? = front[span.start]? :=
    List.getElem?_append_left hlt
  have htake : (front ++ back).take span.start = front.take span.start :=
    List.take_append_of_le_length hlt.le
  have hdrop : (front ++ back).drop span.start = front.drop span.start ++ back :=
    List.drop_append_of_le_length hlt.le
  constructor
  · rintro ⟨hstarts, hends, rest, hrest, hstop⟩
    rw [hdrop, hmatch] at hrest
    obtain ⟨more, hmore, rfl⟩ := Option.map_eq_some_iff.1 hrest
    rw [hdrop, List.length_append, List.length_append, Nat.add_sub_add_right] at hstop
    exact ⟨hletter ▸ hstarts, htake ▸ hends, more, hmore, hstop⟩
  · rintro ⟨hstarts, hends, rest, hrest, hstop⟩
    refine ⟨hletter ▸ hstarts, htake ▸ hends, rest ++ back, ?_, ?_⟩
    · rw [hdrop, hmatch, hrest]
      rfl
    · rw [hdrop, List.length_append, List.length_append, Nat.add_sub_add_right, hstop]

theorem Occurs.exists_first (h : Occurs orderKeyword inWord cs span) :
    ∃ c, cs[span.start]? = some c ∧ isLetter 'o' c = true := by
  obtain ⟨rest, hrest, -⟩ := h.taken
  obtain ⟨second, hsecond, -⟩ := Option.bind_eq_some_iff.1 (whole_eq_some hrest)
  obtain ⟨first, hfirst, -⟩ := Option.bind_eq_some_iff.1 hsecond
  obtain ⟨taken, htaken, hspells⟩ := word_eq_some_iff.1 hfirst
  obtain ⟨c, more, hc, -, rfl⟩ := List.forall₂_cons_left_iff.1 hspells
  have hhead := congrArg (·[0]?) htaken
  simp only [List.getElem?_drop, Nat.add_zero] at hhead
  exact ⟨c, hhead, hc⟩

end

/-! ### Orders that take effect -/

/-- What stands between a statement and its order. -/
def orderWord : List Char := " ORDER BY ".toList

theorem orderWord_eq : orderWord = [' ', 'O', 'R', 'D', 'E', 'R', ' ', 'B', 'Y', ' '] := by decide

theorem isWord_orderWord : Weave.IsWord orderWord := by decide

/-- The order that follows a text is code, and outside of all parentheses there is no other one. -/
structure TakesEffect (front order : List Char) : Prop where
  cells_eq : cells .code (front ++ (orderWord ++ order)) =
    cells .code front ++ (orderWord.map shown ++ cells .code order)
  only (span : Span) :
    (Occurs orderKeyword false (faces (front ++ (orderWord ++ order))) span ∧
      TopLevel (faces (front ++ (orderWord ++ order))) span.start) ↔
    span = Span.shift front.length ⟨1, 9⟩

/-- The text ends in code, and the first letter of the keyword does not show itself. -/
structure Orderless (text : List Char) : Prop where
  scanEnd_eq : scanEnd .code text = .code
  letters : ∀ c ∈ faces text, isLetter 'o' c = false

section

variable {front order : List Char}

theorem separates_orderWord (back : List Char) : Separates (orderWord ++ back) := by
  rw [orderWord_eq]
  constructor
  · intro c hc
    obtain rfl : ' ' = c := Option.some.inj hc
    decide
  · intro c hc
    obtain rfl : 'O' = c := Option.some.inj hc
    decide

/-- The keyword stands behind the blank of the added word, and nowhere else. -/
theorem occurs_orderWord_iff {inWord : Bool} {back : List Char}
    (hback : ∀ c ∈ back, isLetter 'o' c = false) {span : Span} :
    Occurs orderKeyword inWord (orderWord ++ back) span ↔ span = ⟨1, 9⟩ := by
  rw [orderWord_eq]
  have hthere : Occurs orderKeyword inWord
      ([' ', 'O', 'R', 'D', 'E', 'R', ' ', 'B', 'Y', ' '] ++ back) ⟨1, 9⟩ := by
    refine ⟨⟨'O', rfl, by decide⟩, ⟨by simp, fun c hc => ?_⟩, ' ' :: back, rfl, ?_⟩
    · obtain rfl : ' ' = c := Option.some.inj hc
      decide
    · simp
  constructor
  · intro h
    refine h.eq_of_start_eq hthere ?_
    obtain ⟨c, hc, hletter⟩ := h.exists_first
    generalize span.start = start at hc
    rcases Nat.lt_or_ge start 10 with hlt | hge
    · -- of the letters of the word only one is a form of the first one
      interval_cases start
      all_goals
        obtain rfl := Option.some.inj hc
        first | rfl | exact absurd hletter (by decide)
    · rw [List.getElem?_append_right hge] at hc
      rw [hback c (List.mem_of_getElem? hc)] at hletter
      cases hletter
  · rintro rfl
    exact hthere

/-- **An order takes effect exactly if** it follows code in which no order stands outside of all
parentheses. -/
theorem takesEffect_iff (hbalanced : scanEnd .code front = .code → Balanced (faces front))
    (horder : ∀ c ∈ faces order, isLetter 'o' c = false) :
    TakesEffect front order ↔
      scanEnd .code front = .code ∧
        NoneAt orderKeyword (faces front) 0 (TopLevel (faces front)) := by
  have hlength : (faces front).length = front.length := by
    rw [faces, List.length_map, length_cells]
  -- a keyword in the whole text stands in the first part or is the one that is added
  have hsplit (hcode : scanEnd .code front = .code) (span : Span) :
      Occurs orderKeyword false (faces (front ++ (orderWord ++ order))) span ↔
        (span.start < front.length ∧ Occurs orderKeyword false (faces front) span) ∨
          span = Span.shift front.length ⟨1, 9⟩ := by
    rw [Weave.faces_append_word isWord_orderWord hcode, ← hlength]
    rcases Nat.lt_or_ge span.start (faces front).length with hlt | hge
    · rw [occurs_append_of_lt (orderKeyword_append (separates_orderWord _)) hlt, or_iff_left]
      · exact (and_iff_right hlt).symm
      · rintro rfl
        exact absurd hlt (by simp [Span.shift])
    · rw [or_iff_right fun h => absurd h.1 (Nat.not_lt.2 hge)]
      constructor
      · intro h
        obtain ⟨later, rfl⟩ := exists_shift_of_le h hge
        rw [(occurs_orderWord_iff horder).1 (occurs_append_shift.1 h)]
      · rintro rfl
        exact occurs_append_shift.2 ((occurs_orderWord_iff horder).2 rfl)
  have htop (hcode : scanEnd .code front = .code) {i : Nat} (hi : i < front.length) :
      TopLevel (faces (front ++ (orderWord ++ order))) i ↔ TopLevel (faces front) i := by
    rw [Weave.faces_append_word isWord_orderWord hcode, TopLevel, TopLevel,
      List.take_append_of_le_length (hlength ▸ hi.le)]
  constructor
  · rintro ⟨hcells, honly⟩
    have hcode := Weave.scanEnd_of_word_shown isWord_orderWord hcells
    refine ⟨hcode, fun span hoccurs _ hlevel => ?_⟩
    have hlt : span.start < front.length := hlength ▸ hoccurs.start_lt
    have hthere := (hsplit hcode span).2 (.inl ⟨hlt, hoccurs⟩)
    have heq := (honly span).1 ⟨hthere, (htop hcode hlt).2 hlevel⟩
    rw [heq, Span.shift] at hlt
    exact absurd hlt (by simp)
  · rintro ⟨hcode, hnone⟩
    refine ⟨(Weave.scan_append_word isWord_orderWord hcode order).1, fun span => ?_⟩
    rw [hsplit hcode]
    constructor
    · rintro ⟨⟨hlt, hoccurs⟩ | heq, hlevel⟩
      · exact absurd ((htop hcode hlt).1 hlevel) (hnone span hoccurs (Nat.zero_le _))
      · exact heq
    · rintro rfl
      refine ⟨.inr rfl, ?_⟩
      have hprefix : (faces (front ++ (orderWord ++ order))).take (front.length + 1) =
          faces front ++ [' '] := by
        rw [Weave.faces_append_word isWord_orderWord hcode, ← hlength, List.take_length_add_append]
        rfl
      rw [TopLevel, Span.shift, hprefix, List.count_append, List.count_append,
        (hbalanced hcode).count]
      rfl

end

/-! ### Subqueries -/

theorem scanEnd_of_unmarked {state : Scan} (hproper : state.Proper) {cs : List Char}
    (hmarks : unmarked cs = true) (hline : '\n' ∉ cs) : scanEnd state cs = state := by
  by_cases hcomment : state = .lineComment
  · subst hcomment
    induction cs with
    | nil => rfl
    | cons c rest ih =>
      rw [List.mem_cons, not_or] at hline
      rw [unmarked, List.all_cons, Bool.and_eq_true] at hmarks
      rw [scanEnd, if_neg (Ne.symm hline.1)]
      exact ih hmarks.2 hline.2
  · exact scanEnd_of_notMark hproper hcomment (isMark_of_unmarked hmarks)

/-- What opens the subquery of a statement that is sorted. -/
def sortedOpening : List Char := "SELECT * FROM (".toList

/-- What closes it. -/
def sortedClosing : List Char := ") AS sorted".toList

theorem sortedOpening_eq : sortedOpening =
    ['S', 'E', 'L', 'E', 'C', 'T', ' ', '*', ' ', 'F', 'R', 'O', 'M', ' ', '('] := by decide

theorem isWord_sortedOpening : Weave.IsWord sortedOpening := by decide

theorem isWord_sortedClosing : Weave.IsWord sortedClosing := by decide

/-- A statement as a subquery. -/
def sortedSubquery (cs : List Char) : List Char := sortedOpening ++ (cs ++ sortedClosing)

section

variable {cs : List Char}

theorem scanEnd_sortedSubquery (cs : List Char) :
    scanEnd .code (sortedSubquery cs) = scanEnd .code cs := by
  have hcut : Cut .code cs sortedClosing := cut_of_notMark proper_code fun _ y _ hy =>
    .inr (Option.some.inj hy ▸ by decide)
  have hfront : scanEnd .code ([] ++ (sortedOpening ++ (cs ++ sortedClosing))) =
      scanEnd .code (cs ++ sortedClosing) :=
    (Weave.scan_append_word isWord_sortedOpening rfl _).2
  rw [sortedSubquery, ← List.nil_append (sortedOpening ++ _), hfront, hcut.scanEnd_append]
  exact scanEnd_of_unmarked (proper_scanEnd proper_code cs) (by decide) (by decide)

theorem faces_sortedSubquery (hcode : scanEnd .code cs = .code) :
    faces (sortedSubquery cs) = sortedOpening ++ (faces cs ++ sortedClosing) := by
  have hclosing : faces (cs ++ (sortedClosing ++ [])) = faces cs ++ (sortedClosing ++ []) :=
    Weave.faces_append_word isWord_sortedClosing hcode []
  have hopening : faces ([] ++ (sortedOpening ++ (cs ++ sortedClosing))) =
      [] ++ (sortedOpening ++ faces (cs ++ sortedClosing)) :=
    Weave.faces_append_word isWord_sortedOpening rfl _
  rw [List.append_nil] at hclosing
  rw [List.nil_append, List.nil_append, hclosing] at hopening
  exact hopening

theorem balanced_sortedSubquery (hcode : scanEnd .code cs = .code) (h : Balanced (faces cs)) :
    Balanced (faces (sortedSubquery cs)) := by
  have hopening : Balanced "SELECT * FROM ".toList := .of_notMem (by decide) (by decide)
  have hclosing : Balanced " AS sorted".toList := .of_notMem (by decide) (by decide)
  have hopens : sortedOpening = "SELECT * FROM ".toList ++ ['('] := by decide
  have hcloses : sortedClosing = [')'] ++ " AS sorted".toList := by decide
  have hall := hopening.append (h.group.append hclosing)
  rw [faces_sortedSubquery hcode, hopens, hcloses, List.append_assoc,
    ← List.append_assoc (faces cs)]
  exact hall

/-- No order of a subquery stands outside of all parentheses. -/
theorem noneAt_sortedSubquery (hcode : scanEnd .code cs = .code) (h : Balanced (faces cs)) :
    NoneAt orderKeyword (faces (sortedSubquery cs)) 0 (TopLevel (faces (sortedSubquery cs))) := by
  rw [faces_sortedSubquery hcode]
  generalize faces cs = inside at h
  intro span hoccurs _ hlevel
  obtain ⟨rest, hrest, -⟩ := hoccurs.taken
  have hlt := hoccurs.start_lt
  generalize span.start = start at hlevel hrest hlt
  have hopening : sortedOpening.length = 15 := by decide
  have hclosing : sortedClosing.length = 11 := by decide
  rw [List.length_append, List.length_append, hopening, hclosing] at hlt
  rcases Nat.lt_or_ge start 15 with hbefore | hge
  · -- the opening holds no keyword, whatever follows it
    have hnone : orderKeyword (sortedOpening.drop start ++ (inside ++ sortedClosing)) = none := by
      rw [sortedOpening_eq]
      interval_cases start <;> rfl
    rw [List.drop_append_of_le_length (hopening ▸ hbefore.le), hnone] at hrest
    cases hrest
  obtain ⟨inner, rfl⟩ := Nat.exists_eq_add_of_le hge
  rcases Nat.lt_or_ge inside.length inner with hbehind | hle
  · obtain ⟨last, rfl⟩ := Nat.exists_eq_add_of_le hbehind.le
    have hnone : ∀ last < 11, orderKeyword (sortedClosing.drop last) = none := by decide
    rw [← hopening, List.drop_length_add_append, List.drop_length_add_append,
      hnone last (by omega)] at hrest
    cases hrest
  · -- one parenthesis is open there
    have hsplit : inside = inside.take inner ++ inside.drop inner :=
      (List.take_append_drop inner inside).symm
    have hcount := h.count_le _ _ hsplit
    have htake : (sortedOpening ++ (inside ++ sortedClosing)).take (15 + inner) =
        sortedOpening ++ inside.take inner := by
      rw [← hopening, List.take_length_add_append, List.take_append_of_le_length hle]
    rw [TopLevel, htake, List.count_append, List.count_append] at hlevel
    have hopens : sortedOpening.count '(' = 1 ∧ sortedOpening.count ')' = 0 := by decide
    omega

end

/-! ### The items of an order -/

section

variable {before behind : List Char}

theorem Orderless.append_word {word : List Char} (hbefore : Orderless before)
    (hword : Weave.IsWord word) (hletters : (word.all fun c => !isLetter 'o' c) = true)
    (hbehind : Orderless behind) : Orderless (before ++ (word ++ behind)) := by
  have hletters : ∀ c ∈ word, isLetter 'o' c = false := by simpa using hletters
  refine ⟨(Weave.scan_append_word hword hbefore.scanEnd_eq behind).2.trans hbehind.scanEnd_eq, ?_⟩
  rw [Weave.faces_append_word hword hbefore.scanEnd_eq]
  simp only [List.forall_mem_append]
  exact ⟨hbefore.letters, hletters, hbehind.letters⟩

theorem orderless_nil : Orderless [] := ⟨rfl, by simp [faces, cells]⟩

theorem orderless_quoteIdent (name : String) : Orderless (quoteIdent name).toList := by
  rw [quoteIdent, String.toList_ofList]
  refine ⟨(closed_enclosed (.inr rfl) _).scanEnd_eq, fun c hc => ?_⟩
  rcases mem_faces_enclosed (.inr rfl) hc with rfl | rfl <;> decide

end

end Sql

namespace SqlRequest

open Sql

theorem orderless_item (name : String) (direction : Direction) :
    Orderless (quoteIdent name ++ " " ++ direction.keyword).toList := by
  have hkeyword : ∃ word, Weave.IsWord word ∧ (word.all fun c => !isLetter 'o' c) = true ∧
      " ".toList ++ direction.keyword.toList = word ++ [] := by
    cases direction with
    | asc => exact ⟨" ASC".toList, by decide, by decide, by decide⟩
    | desc => exact ⟨" DESC".toList, by decide, by decide, by decide⟩
  obtain ⟨word, hword, hletters, heq⟩ := hkeyword
  rw [String.toList_append, String.toList_append, List.append_assoc, heq]
  exact (orderless_quoteIdent name).append_word hword hletters orderless_nil

theorem orderless_sortItems {fields : FieldSet} {seen items : List String} {sort : List SortKey}
    (h : sortItems fields seen sort = .ok items) : ∀ item ∈ items, Orderless item.toList := by
  induction sort generalizing seen items with
  | nil =>
    obtain rfl := Except.ok.inj h
    simp
  | cons key rest ih =>
    unfold sortItems at h
    split at h
    · cases h
    split at h
    · cases h
    next direction _ =>
    split at h
    · exact ih h
    split at h
    · exact ih h
    split at h
    · cases h
    obtain ⟨others, hothers, rfl⟩ := Result.map_eq_ok.1 h
    rw [List.forall_mem_cons]
    exact ⟨orderless_item _ direction, ih hothers⟩

theorem orderless_join {items : List String} (h : ∀ item ∈ items, Orderless item.toList) :
    Orderless (Text.join ", " items).toList := by
  induction items with
  | nil => exact orderless_nil
  | cons item rest ih =>
    rw [List.forall_mem_cons] at h
    cases rest with
    | nil => exact h.1
    | cons second more =>
      rw [toList_join_cons (List.cons_ne_nil _ _), List.append_assoc]
      exact h.1.append_word (by decide) (by decide) (ih h.2)

/-! ### Statements in an order -/

/-- What the order is put behind: a subquery, if the statement is sorted or limited already. -/
def orderFront (sql : String) : List Char :=
  if hasOrder sql || hasLimit sql then sortedSubquery sql.toList else (withoutEnd sql).toList

section

variable {sql : String}

theorem toList_orderedBy (sql : String) {items : List String} (h : items ≠ []) :
    (orderedBy sql items).toList =
      orderFront sql ++ (orderWord ++ (Text.join ", " items).toList) := by
  have hwords : ") AS sorted ORDER BY ".toList = sortedClosing ++ orderWord := by decide
  unfold orderedBy ordered orderFront
  rw [if_neg (by simp [h])]
  split
  · rw [String.toList_append, String.toList_append, String.toList_append, hwords, sortedSubquery]
    simp only [List.append_assoc]
    exact congrArg (· ++ _) rfl
  · rw [String.toList_append, String.toList_append, List.append_assoc]
    exact congrArg _ rfl

theorem exists_withoutEnd (sql : String) :
    ∃ rest, sql.toList = (withoutEnd sql).toList ++ rest ∧ ∀ c ∈ rest, isTrailing c = true := by
  let semicolon (c : Char) : Bool := c = ';'
  let trimmed := sql.toList.rdropWhile Text.isBlank
  have hend : (withoutEnd sql).toList = trimmed.rdropWhile semicolon := String.toList_ofList
  refine ⟨trimmed.rtakeWhile semicolon ++ sql.toList.rtakeWhile Text.isBlank, ?_, ?_⟩
  · rw [hend, ← List.append_assoc, List.rdropWhile_append_rtakeWhile,
      List.rdropWhile_append_rtakeWhile]
  · intro c hc
    rw [isTrailing, Bool.or_eq_true]
    rcases List.mem_append.1 hc with hc | hc
    · have hsemicolon : semicolon c = true := List.mem_rtakeWhile_imp hc
      exact .inr hsemicolon
    · exact .inl (List.mem_rtakeWhile_imp hc)

theorem faces_append_trailing {front rest : List Char} (hcode : scanEnd .code front = .code)
    (hrest : ∀ c ∈ rest, isTrailing c = true) : faces (front ++ rest) = faces front ++ rest := by
  have hcut : Cut .code front rest := cut_of_notMark proper_code fun _ y _ hy =>
    .inr (isMark_of_isTrailing (hrest y (List.mem_of_head? hy)))
  have hmarks : unmarked rest = true :=
    List.all_eq_true.2 fun c hc => by rw [isMark_of_isTrailing (hrest c hc)]; rfl
  rw [faces, hcut.cells_append, hcode, List.map_append]
  exact congrArg (faces front ++ ·) (faces_of_unmarked hmarks)

theorem isWordChar_of_isTrailing {c : Char} (h : isTrailing c = true) :
    Text.isWordChar c = false := by
  by_cases hsemicolon : c = ';'
  · subst hsemicolon
    decide
  · exact Text.isWordChar_of_isBlank (isBlank_of_isTrailing h hsemicolon)

theorem separates_trailing {rest : List Char} (hrest : ∀ c ∈ rest, isTrailing c = true) :
    Separates rest := by
  refine ⟨fun c hc => isWordChar_of_isTrailing (hrest c (List.mem_of_head? hc)), fun c hc => ?_⟩
  have hmem : c ∈ rest := (List.dropWhile_suffix _).subset (List.mem_of_head? hc)
  by_contra hletter
  rw [Bool.not_eq_false] at hletter
  have hnot := isWordChar_of_isTrailing (hrest c hmem)
  rw [Text.isWordChar_of_isLetter (by decide) hletter] at hnot
  cases hnot

theorem noneAt_append_trailing {shown rest : List Char} (hrest : ∀ c ∈ rest, isTrailing c = true) :
    NoneAt orderKeyword (shown ++ rest) 0 (TopLevel (shown ++ rest)) ↔
      NoneAt orderKeyword shown 0 (TopLevel shown) := by
  have hmatch := orderKeyword_append (separates_trailing hrest)
  have htop {i : Nat} (hi : i < shown.length) : TopLevel (shown ++ rest) i ↔ TopLevel shown i := by
    rw [TopLevel, TopLevel, List.take_append_of_le_length hi.le]
  constructor
  · intro h span hoccurs hle hlevel
    have hlt := hoccurs.start_lt
    exact h span ((occurs_append_of_lt hmatch hlt).2 hoccurs) hle ((htop hlt).2 hlevel)
  · intro h span hoccurs hle hlevel
    rcases Nat.lt_or_ge span.start shown.length with hlt | hge
    · exact h span ((occurs_append_of_lt hmatch hlt).1 hoccurs) hle ((htop hlt).1 hlevel)
    · obtain ⟨c, hc, hword⟩ := hoccurs.letter
      rw [List.getElem?_append_right hge] at hc
      rw [isWordChar_of_isTrailing (hrest c (List.mem_of_getElem? hc))] at hword
      cases hword

/-- **An order takes effect exactly if** the statement that it follows ends in code and has no order
of its own there. A statement that is sorted or limited already becomes a subquery, so that its own
order is within parentheses; of any other statement the end is taken off, and an order with other
blanks in its keyword stays beside the new one. -/
theorem orderedBy_takesEffect_iff (hbalanced : Balanced (faces sql.toList)) {fields : FieldSet}
    {sort : List SortKey} {items : List String} (hitems : sortItems fields [] sort = .ok items)
    (hne : items ≠ []) :
    let order := (Text.join ", " items).toList
    (orderedBy sql items).toList = orderFront sql ++ (orderWord ++ order) ∧
      scanEnd .code order = .code ∧
      (hasOrder sql = true ∨ hasLimit sql = true →
        (TakesEffect (orderFront sql) order ↔ scanEnd .code sql.toList = .code)) ∧
      (hasOrder sql = false ∧ hasLimit sql = false →
        (TakesEffect (orderFront sql) order ↔ scanEnd .code (withoutEnd sql).toList = .code ∧
          NoneAt orderKeyword (faces sql.toList) 0 (TopLevel (faces sql.toList)))) := by
  intro order
  have horder : Orderless order := orderless_join (orderless_sortItems hitems)
  refine ⟨toList_orderedBy sql hne, horder.scanEnd_eq, fun hwrapped => ?_, fun hplain => ?_⟩
  · have hfront : orderFront sql = sortedSubquery sql.toList := by
      unfold orderFront
      rw [if_pos (by simpa using hwrapped)]
    rw [hfront, takesEffect_iff _ horder.letters, scanEnd_sortedSubquery]
    · exact and_iff_left_of_imp fun hcode => noneAt_sortedSubquery hcode hbalanced
    · intro hcode
      rw [scanEnd_sortedSubquery] at hcode
      exact balanced_sortedSubquery hcode hbalanced
  · have hfront : orderFront sql = (withoutEnd sql).toList := by
      unfold orderFront
      rw [if_neg (by simp [hplain])]
    obtain ⟨rest, hsql, hrest⟩ := exists_withoutEnd sql
    rw [hfront, takesEffect_iff _ horder.letters]
    · refine and_congr_right fun hcode => ?_
      rw [hsql, faces_append_trailing hcode hrest, noneAt_append_trailing hrest]
    · intro hcode
      rw [hsql, faces_append_trailing hcode hrest] at hbalanced
      exact hbalanced.of_append_trailing hrest

/-- The search for an order knows one blank between the words. -/
theorem orderedBy_takesEffect_iff_twoBlanks :
    Balanced (faces "SELECT * FROM t ORDER  BY a".toList) ∧
      sortItems (.ofList [.ofName "b" .long]) [] [⟨"b", some .asc⟩] = .ok ["\"b\" ASC"] ∧
      ["\"b\" ASC"] ≠ [] ∧
      ¬TakesEffect (orderFront "SELECT * FROM t ORDER  BY a")
        (Text.join ", " ["\"b\" ASC"]).toList := by
  have hbalanced : Balanced (faces "SELECT * FROM t ORDER  BY a".toList) := by decide
  have hitems : sortItems (.ofList [.ofName "b" .long]) [] [⟨"b", some .asc⟩] =
      .ok ["\"b\" ASC"] := by decide
  have hne : ["\"b\" ASC"] ≠ [] := List.cons_ne_nil _ _
  refine ⟨hbalanced, hitems, hne, fun heffect => ?_⟩
  obtain ⟨-, -, -, hplain⟩ := orderedBy_takesEffect_iff hbalanced hitems hne
  have hnone := ((hplain (by decide)).1 heffect).2
  have hfind : find? orderKeyword (faces "SELECT * FROM t ORDER  BY a".toList) = some ⟨16, 25⟩ := by
    decide
  have hfirst := firstAt_of_find?_eq_some hfind
  exact hnone _ hfirst.occurs (Nat.zero_le _) (by unfold TopLevel; decide)

example : orderedBy "SELECT * FROM t ORDER  BY a" ["\"b\" ASC"] =
    "SELECT * FROM t ORDER  BY a ORDER BY \"b\" ASC" := by decide

end

end SqlRequest

end ViewCompiler
