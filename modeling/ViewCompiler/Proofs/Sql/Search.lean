import ViewCompiler.Proofs.Sql.Limit
import ViewCompiler.Proofs.Sql.Masked
import ViewCompiler.Sql.Where

/-!
# Searches of masked texts

A search runs over the looks of a statement, with one blank for each hidden character. In the masked
text a hidden character has as many blanks as it has bytes. The keywords do not tell the two apart.

* `Sql.Steady`: a matcher takes the same cells in both texts.
* `Sql.Steady.findFrom`, `Sql.Steady.findAfter`: **a search finds the same cells in both texts.**
* `Sql.isNested_maskedText`, `Sql.hasLimit_eq`: so the statement is nested, or has a limit, exactly
  if its masked text says so.
-/

namespace ViewCompiler

namespace Sql

/-! ### Cells in masked texts -/

/-- A cell is masked by copies of its look, and by more than one only if it looks like a blank. -/
theorem exists_masked_eq (cell : Cell) :
    ∃ n, cell.masked = List.replicate (n + 1) cell.face ∧ (n = 0 ∨ cell.face = ' ') := by
  obtain ⟨c, visible⟩ := cell
  cases visible with
  | true => exact ⟨0, rfl, .inl rfl⟩
  | false =>
    obtain ⟨n, hn⟩ := Nat.exists_eq_succ_of_ne_zero c.utf8Size_pos.ne'
    exact ⟨n, by simp [Cell.masked, Cell.face, hn], .inr rfl⟩

theorem masked_of_face_ne {cell : Cell} (h : cell.face ≠ ' ') : cell.masked = [cell.face] := by
  obtain ⟨n, hmasked, rfl | hblank⟩ := exists_masked_eq cell
  · exact hmasked
  · exact absurd hblank h

section

variable (p : Char → Bool) (cs : List Cell)

theorem dropWhile_map_face :
    (cs.map Cell.face).dropWhile p =
      (cs.dropWhile fun cell : Cell => p cell.face).map Cell.face := List.dropWhile_map ..

theorem dropWhile_maskedText :
    (maskedText cs).dropWhile p = maskedText (cs.dropWhile fun cell => p cell.face) := by
  induction cs with
  | nil => rfl
  | cons cell rest ih =>
    obtain ⟨n, hmasked, -⟩ := exists_masked_eq cell
    cases hp : p cell.face with
    | false => simp [hp, hmasked, List.replicate_succ]
    | true =>
      have hall : ∀ c ∈ cell.masked, p c = true := fun c hc => by
        rw [hmasked] at hc
        rwa [List.eq_of_mem_replicate hc]
      rw [maskedText_cons, List.dropWhile_append_of_pos hall, ih,
        List.dropWhile_cons_of_pos (by exact hp)]

theorem reverse_maskedText : (maskedText cs).reverse = maskedText cs.reverse := by
  induction cs with
  | nil => rfl
  | cons cell rest ih =>
    obtain ⟨n, hmasked, -⟩ := exists_masked_eq cell
    simp [ih, hmasked]

theorem dropEndWhile_maskedText :
    Text.dropEndWhile p (maskedText cs) =
      maskedText (cs.reverse.dropWhile fun cell => p cell.face).reverse := by
  rw [Text.dropEndWhile, reverse_maskedText, dropWhile_maskedText, reverse_maskedText]

end

/-! ### Matchers -/

theorem startsInWord_eq (cs : List Char) : startsInWord cs = cs.head?.any Text.isWordChar := by
  cases cs <;> rfl

/-- A matcher takes the same cells by their looks and in the masked text. -/
def Steady (matcher : Matcher) : Prop :=
  ∀ cs : List Cell, (matcher (cs.map Cell.face) = none ∧ matcher (maskedText cs) = none) ∨
    ∃ taken rest, cs = taken ++ rest ∧ matcher (cs.map Cell.face) = some (rest.map Cell.face) ∧
      matcher (maskedText cs) = some (maskedText rest)

namespace Steady

variable {first second matcher : Matcher}

theorem bind (hfirst : Steady first) (hsecond : Steady second) :
    Steady fun cs => (first cs).bind second := by
  intro cs
  rcases hfirst cs with ⟨hlooks, hmasked⟩ | ⟨taken, rest, rfl, hlooks, hmasked⟩
  · exact .inl ⟨by simp [hlooks], by simp [hmasked]⟩
  simp only [hlooks, hmasked, Option.bind_some]
  rcases hsecond rest with hnone | ⟨more, rest, rfl, hlooks, hmasked⟩
  · exact .inl hnone
  · exact .inr ⟨taken ++ more, rest, by rw [List.append_assoc], hlooks, hmasked⟩

theorem orElse (hfirst : Steady first) (hsecond : Steady second) :
    Steady fun cs => first cs <|> second cs := by
  intro cs
  rcases hfirst cs with ⟨hlooks, hmasked⟩ | ⟨taken, rest, hcs, hlooks, hmasked⟩
  · simpa [hlooks, hmasked] using hsecond cs
  · exact .inr ⟨taken, rest, hcs, by simp [hlooks], by simp [hmasked]⟩

theorem whole (h : Steady matcher) : Steady (Sql.whole matcher) := by
  refine h.bind fun cs => ?_
  have hstart : startsInWord (maskedText cs) = startsInWord (cs.map Cell.face) := by
    rw [startsInWord_eq, startsInWord_eq, head?_maskedText]
  rw [hstart]
  split
  · exact .inl ⟨rfl, rfl⟩
  · exact .inr ⟨[], cs, rfl, rfl, rfl⟩

theorem word {letters : List Char} (h : (letters.all fun letter => !isLetter letter ' ') = true) :
    Steady (Sql.word letters) := by
  induction letters with
  | nil => exact fun cs => .inr ⟨[], cs, rfl, rfl, rfl⟩
  | cons letter more ih =>
    rw [List.all_cons, Bool.and_eq_true, Bool.not_eq_true'] at h
    rintro (- | ⟨cell, rest⟩)
    · exact .inl ⟨rfl, rfl⟩
    obtain ⟨n, hmasked, hn⟩ := exists_masked_eq cell
    by_cases hletter : isLetter letter cell.face = true
    · -- a blank is no letter, so the cell shows itself
      have hne : cell.face ≠ ' ' := fun hblank => by simp [hblank, h.1] at hletter
      rw [List.map_cons, maskedText_cons, masked_of_face_ne hne, List.singleton_append, Sql.word,
        if_pos hletter, Sql.word, if_pos hletter]
      rcases ih h.2 rest with hnone | ⟨taken, rest, rfl, hlooks, hmasked⟩
      · exact .inl hnone
      · exact .inr ⟨cell :: taken, rest, rfl, hlooks, hmasked⟩
    · rw [List.map_cons, maskedText_cons, hmasked, List.replicate_succ, List.cons_append, Sql.word,
        if_neg hletter, Sql.word, if_neg hletter]
      exact .inl ⟨rfl, rfl⟩

theorem afterRun (p : Char → Bool) : Steady (Sql.afterRun p) := by
  rintro (- | ⟨cell, rest⟩)
  · exact .inl ⟨rfl, rfl⟩
  obtain ⟨n, hmasked, -⟩ := exists_masked_eq cell
  rw [List.map_cons, maskedText_cons, hmasked, List.replicate_succ, List.cons_append, Sql.afterRun,
    Sql.afterRun]
  split
  · next hp =>
    have hall : ∀ c ∈ List.replicate n cell.face, p c = true := fun c hc => by
      rwa [List.eq_of_mem_replicate hc]
    rw [List.dropWhile_append_of_pos hall, dropWhile_map_face, dropWhile_maskedText]
    refine .inr ⟨cell :: rest.takeWhile fun cell => p cell.face, _, ?_, rfl, rfl⟩
    rw [List.cons_append, List.takeWhile_append_dropWhile]
  · exact .inl ⟨rfl, rfl⟩

theorem blanks : Steady Sql.blanks := blanks_eq ▸ afterRun _

theorem digits : Steady Sql.digits := digits_eq ▸ afterRun _

theorem selectKeyword : Steady Sql.selectKeyword := (word (by decide)).whole

theorem whereKeyword : Steady Sql.whereKeyword := (word (by decide)).whole

theorem wordPair {letters others : List Char}
    (hletters : (letters.all fun letter => !isLetter letter ' ') = true)
    (hothers : (others.all fun letter => !isLetter letter ' ') = true) :
    Steady (Sql.wordPair letters others) := ((word hletters).bind blanks).bind (word hothers)

theorem boundaryKeyword : Steady Sql.boundaryKeyword :=
  ((wordPair (by decide) (by decide)).orElse <| (wordPair (by decide) (by decide)).orElse <|
    (word (by decide)).orElse (word (by decide))).whole

end Steady

/-! ### Searches -/

section

variable {matcher : Matcher} {inWord : Bool}

theorem findFrom_cons_of_none {c : Char} {rest : List Char}
    (h : (if inWord || !Text.isWordChar c then none else matcher (c :: rest)) = none)
    (position : Nat) :
    findFrom matcher position inWord (c :: rest) =
      findFrom matcher (position + 1) (Text.isWordChar c) rest := by
  rw [findFrom]
  simp only [h]

theorem findFrom_cons_of_some {c : Char} {rest after : List Char} (hin : inWord = false)
    (hc : Text.isWordChar c = true) (h : matcher (c :: rest) = some after) (position : Nat) :
    findFrom matcher position inWord (c :: rest) =
      some ⟨position, position + (rest.length + 1 - after.length)⟩ := by
  rw [findFrom]
  simp only [hin, hc, h, Bool.not_true, Bool.or_self, Bool.false_eq_true, ↓reduceIte]

theorem isWordChar_blank : Text.isWordChar ' ' = false := by decide

theorem findFrom_blank_cons (offset : Nat) (more : List Char) :
    findFrom matcher offset inWord (' ' :: more) = findFrom matcher (offset + 1) false more := by
  rw [findFrom_cons_of_none, isWordChar_blank]
  rw [isWordChar_blank, Bool.not_false, Bool.or_true, if_pos rfl]

theorem findFrom_blanks (n offset : Nat) (more : List Char) :
    findFrom matcher offset false (List.replicate n ' ' ++ more) =
      findFrom matcher (offset + n) false more := by
  induction n generalizing offset with
  | zero => rw [List.replicate_zero, List.nil_append, Nat.add_zero]
  | succ n ih =>
    rw [List.replicate_succ, List.cons_append, findFrom_blank_cons, ih, Nat.add_right_comm,
      Nat.add_assoc]

/-- A search passes over a cell at which nothing is found. -/
theorem findFrom_masked_append {cell : Cell} {more : List Char}
    (h : (if inWord || !Text.isWordChar cell.face then none
      else matcher (cell.masked ++ more)) = none) (offset : Nat) :
    findFrom matcher offset inWord (cell.masked ++ more) =
      findFrom matcher (offset + cell.masked.length) (Text.isWordChar cell.face) more := by
  obtain ⟨n, hmasked, rfl | hblank⟩ := exists_masked_eq cell
  · rw [Nat.zero_add, List.replicate_one] at hmasked
    rw [hmasked, List.singleton_append] at h ⊢
    exact findFrom_cons_of_none h offset
  · rw [hmasked, hblank, List.replicate_succ, List.cons_append, findFrom_blank_cons,
      findFrom_blanks, isWordChar_blank, List.length_cons, List.length_replicate,
      Nat.add_right_comm, Nat.add_assoc]

end

/-- A search by the looks of cells, which are counted from `position` on, and one in their masked
text, which starts at `offset`, find nothing or the same cells. -/
def SameCells (position offset : Nat) (cs : List Cell) (byLooks inMasked : Option Span) : Prop :=
  (byLooks = none ∧ inMasked = none) ∨
    ∃ before taken rest, cs = before ++ (taken ++ rest) ∧
      byLooks = some ⟨position + before.length, position + before.length + taken.length⟩ ∧
      inMasked = some ⟨offset + (maskedText before).length,
        offset + (maskedText before).length + (maskedText taken).length⟩

theorem SameCells.cons {position offset : Nat} {cell : Cell} {cs : List Cell}
    {byLooks inMasked : Option Span}
    (h : SameCells (position + 1) (offset + cell.masked.length) cs byLooks inMasked) :
    SameCells position offset (cell :: cs) byLooks inMasked := by
  rcases h with hnone | ⟨before, taken, rest, rfl, rfl, rfl⟩
  · exact .inl hnone
  · refine .inr ⟨cell :: before, taken, rest, rfl, ?_, ?_⟩
    · rw [List.length_cons, Nat.add_assoc position, Nat.add_comm 1]
    · rw [maskedText_cons, List.length_append, Nat.add_assoc offset]

namespace Steady

variable {matcher : Matcher}

/-- **A search finds the same cells** by their looks and in the masked text. -/
theorem findFrom (h : Steady matcher) (position offset : Nat) (inWord : Bool) (cs : List Cell) :
    SameCells position offset cs (Sql.findFrom matcher position inWord (cs.map Cell.face))
      (Sql.findFrom matcher offset inWord (maskedText cs)) := by
  induction cs generalizing position offset inWord with
  | nil => exact .inl ⟨rfl, rfl⟩
  | cons cell rest ih =>
    rw [List.map_cons, maskedText_cons]
    -- where nothing is found at this cell, the search goes on in both texts
    have hskip (hlooks : (if inWord || !Text.isWordChar cell.face then none
          else matcher (cell.face :: rest.map Cell.face)) = none)
        (hmasked : (if inWord || !Text.isWordChar cell.face then none
          else matcher (cell.masked ++ maskedText rest)) = none) :
        SameCells position offset (cell :: rest)
          (Sql.findFrom matcher position inWord (cell.face :: rest.map Cell.face))
          (Sql.findFrom matcher offset inWord (cell.masked ++ maskedText rest)) := by
      rw [findFrom_cons_of_none hlooks, findFrom_masked_append hmasked]
      exact (ih ..).cons
    by_cases hstart : inWord = false ∧ Text.isWordChar cell.face = true
    · obtain ⟨rfl, hword⟩ := hstart
      have hne : cell.face ≠ ' ' := fun hblank => by simp [hblank, isWordChar_blank] at hword
      have hmasked := masked_of_face_ne hne
      rcases h (cell :: rest) with ⟨hlooks, htext⟩ | ⟨taken, more, hcs, hlooks, htext⟩
      · rw [maskedText_cons] at htext
        exact hskip (by rw [← List.map_cons, hlooks, ite_self]) (by rw [htext, ite_self])
      · rw [maskedText_cons, hmasked, List.singleton_append] at htext
        have hlength : rest.length + 1 = taken.length + more.length := by
          rw [← List.length_append, ← hcs, List.length_cons]
        have hbytes : (maskedText rest).length + 1 =
            (maskedText taken).length + (maskedText more).length := by
          rw [← List.length_append, ← maskedText_append, ← hcs, maskedText_cons, hmasked,
            List.singleton_append, List.length_cons]
        rw [hmasked, List.singleton_append, findFrom_cons_of_some rfl hword hlooks,
          findFrom_cons_of_some rfl hword htext, List.length_map, List.length_map, hlength, hbytes,
          Nat.add_sub_cancel, Nat.add_sub_cancel]
        exact .inr ⟨[], taken, more, hcs, rfl, rfl⟩
    · have hno : (inWord || !Text.isWordChar cell.face) = true := by
        cases inWord <;> simp_all
      exact hskip (if_pos hno) (if_pos hno)

theorem find (h : Steady matcher) (cs : List Cell) :
    SameCells 0 0 cs (find? matcher (cs.map Cell.face)) (find? matcher (maskedText cs)) :=
  h.findFrom 0 0 false cs

theorem findAfter (h : Steady matcher) (front cs : List Cell) :
    SameCells front.length (maskedText front).length cs
      (findAfter? matcher ((front ++ cs).map Cell.face) front.length)
      (findAfter? matcher (maskedText (front ++ cs)) (maskedText front).length) := by
  -- both searches see the same character before their place
  have hin : ((front ++ cs).map Cell.face)[front.length - 1]? =
      (maskedText (front ++ cs))[(maskedText front).length - 1]? := by
    rcases List.eq_nil_or_concat' front with rfl | ⟨start, cell, rfl⟩
    · simpa [List.head?_eq_getElem?] using (head?_maskedText cs).symm
    · obtain ⟨n, hmasked, -⟩ := exists_masked_eq cell
      simp [hmasked, List.getElem?_append]
  have hlooks : ((front ++ cs).map Cell.face).drop front.length = cs.map Cell.face := by
    rw [List.map_append, List.drop_left' (List.length_map _)]
  rw [findAfter?, findAfter?, hin, hlooks, maskedText_append, List.drop_left]
  exact h.findFrom _ _ _ cs

end Steady

theorem countUpTo_maskedText {matcher : Matcher} (h : Steady matcher) (cs : List Cell) (max : Nat) :
    countUpTo matcher (maskedText cs) max = countUpTo matcher (cs.map Cell.face) max := by
  induction max generalizing cs with
  | zero => rfl
  | succ max ih =>
    rw [countUpTo, countUpTo]
    rcases h.find cs with ⟨hlooks, hmasked⟩ | ⟨before, taken, rest, rfl, hlooks, hmasked⟩
    · rw [hlooks, hmasked]
    · have hbehind : ((before ++ (taken ++ rest)).map Cell.face).drop
          (0 + before.length + taken.length) = rest.map Cell.face := by
        rw [← List.append_assoc, List.map_append, List.drop_left' (by simp)]
      have hmaskedBehind : (maskedText (before ++ (taken ++ rest))).drop
          (0 + (maskedText before).length + (maskedText taken).length) = maskedText rest := by
        rw [← List.append_assoc, maskedText_append, List.drop_left' (by simp)]
      simp only [hlooks, hmasked, hbehind, hmaskedBehind, ih rest]

/-- **A statement is nested** exactly if its masked text says so. -/
theorem isNested_maskedText (cs : List Cell) :
    Restriction.isNested (maskedText cs) = Restriction.isNested (cs.map Cell.face) := by
  rw [Restriction.isNested, Restriction.isNested, countUpTo_maskedText Steady.selectKeyword,
    Text.trimStart, Text.trimStart, dropWhile_maskedText, dropWhile_map_face, head?_maskedText]

/-! ### Limits -/

theorem mem_masked_iff {cell : Cell} {c : Char} : c ∈ cell.masked ↔ c = cell.face := by
  obtain ⟨n, hmasked, -⟩ := exists_masked_eq cell
  simp [hmasked]

theorem mem_maskedText_iff {cs : List Cell} {c : Char} :
    c ∈ maskedText cs ↔ c ∈ cs.map Cell.face := by
  simp [maskedText, mem_masked_iff, eq_comm]

theorem count_semicolon_maskedText (cs : List Cell) :
    (maskedText cs).count ';' = (cs.map Cell.face).count ';' := by
  induction cs with
  | nil => rfl
  | cons cell rest ih =>
    have hcell : cell.masked.count ';' = [cell.face].count ';' := by
      obtain ⟨n, hmasked, rfl | hblank⟩ := exists_masked_eq cell
      · exact congrArg _ hmasked
      · rw [hmasked, hblank, List.count_replicate]
        rfl
    rw [maskedText_cons, List.count_append, hcell, ih, ← List.count_append]
    rfl

theorem isClauseEnd_maskedText (cs : List Cell) :
    isClauseEnd (maskedText cs) = isClauseEnd (cs.map Cell.face) := by
  rw [Bool.eq_iff_iff, isClauseEnd_iff, isClauseEnd_iff, count_semicolon_maskedText]
  simp only [mem_maskedText_iff]

namespace Steady

theorem trimStart : Steady fun cs => some (Text.trimStart cs) := fun cs =>
  .inr ⟨cs.takeWhile fun cell => Text.isBlank cell.face,
    cs.dropWhile fun cell => Text.isBlank cell.face, List.takeWhile_append_dropWhile.symm,
    congrArg some (dropWhile_map_face ..), congrArg some (dropWhile_maskedText ..)⟩

theorem comma : Steady fun cs => if cs.head? = some ',' then some cs.tail else none := by
  intro cs
  dsimp only
  rw [← head?_maskedText]
  split
  · next hhead =>
    rcases cs with - | ⟨cell, rest⟩
    · cases hhead
    rw [head?_maskedText] at hhead
    have hface : cell.face = ',' := Option.some.inj hhead
    have hmasked : cell.masked = [cell.face] := masked_of_face_ne (by rw [hface]; decide)
    exact .inr ⟨[cell], rest, rfl, rfl, by rw [maskedText_cons, hmasked]; rfl⟩
  · exact .inl ⟨rfl, rfl⟩

theorem commaCount : Steady Sql.commaCount := by
  have heq : Sql.commaCount = fun cs => (((some (Text.trimStart cs)).bind fun cs =>
      if cs.head? = some ',' then some cs.tail else none).bind fun cs =>
      some (Text.trimStart cs)).bind Sql.digits := by
    funext cs
    rw [Sql.commaCount]
    rcases Text.trimStart cs with - | ⟨c, rest⟩
    · rfl
    · by_cases hc : c = ','
      · simp [hc]
      · simp [hc]
  exact heq ▸ ((trimStart.bind comma).bind trimStart).bind digits

theorem offsetCount : Steady Sql.offsetCount :=
  ((blanks.bind (word (by decide))).bind blanks).bind digits

theorem limitCount : Steady fun cs =>
    ((Sql.word ['l', 'i', 'm', 'i', 't'] cs).bind Sql.blanks).bind Sql.digits :=
  ((word (by decide)).bind blanks).bind digits

/-- A clause ends in both texts behind what a steady matcher takes. -/
theorem any_isClauseEnd {matcher : Matcher} (h : Steady matcher) (cs : List Cell) :
    (matcher (maskedText cs)).any isClauseEnd = (matcher (cs.map Cell.face)).any isClauseEnd := by
  rcases h cs with ⟨hlooks, hmasked⟩ | ⟨taken, rest, rfl, hlooks, hmasked⟩
  · rw [hlooks, hmasked]
  · rw [hlooks, hmasked, Option.any_some, Option.any_some, isClauseEnd_maskedText]

end Steady

theorem isTrailingLimit_maskedText (cs : List Cell) :
    isTrailingLimit (maskedText cs) = isTrailingLimit (cs.map Cell.face) := by
  rw [isTrailingLimit, isTrailingLimit]
  rcases Steady.limitCount cs with ⟨hlooks, hmasked⟩ | ⟨taken, rest, rfl, hlooks, hmasked⟩
  · simp only [hlooks, hmasked]
  · simp only [hlooks, hmasked, isClauseEnd_maskedText, Steady.commaCount.any_isClauseEnd,
      Steady.offsetCount.any_isClauseEnd]

theorem endsWithLimit_blank_cons (inWord : Bool) (more : List Char) :
    endsWithLimit inWord (' ' :: more) = endsWithLimit false more := by
  have hword : word ['l', 'i', 'm', 'i', 't'] (' ' :: more) = none :=
    if_neg (show ¬isLetter 'l' ' ' = true by decide)
  have hblank : isTrailingLimit (' ' :: more) = false := by
    simp only [isTrailingLimit, hword, Option.bind_none]
  rw [endsWithLimit, hblank, isWordChar_blank, Bool.and_false, Bool.false_or]

theorem endsWithLimit_blanks (n : Nat) (more : List Char) :
    endsWithLimit false (List.replicate n ' ' ++ more) = endsWithLimit false more := by
  induction n with
  | zero => rfl
  | succ n ih => rw [List.replicate_succ, List.cons_append, endsWithLimit_blank_cons, ih]

/-- **A text ends with a limit** exactly if its masked text says so. -/
theorem endsWithLimit_maskedText (inWord : Bool) (cs : List Cell) :
    endsWithLimit inWord (maskedText cs) = endsWithLimit inWord (cs.map Cell.face) := by
  induction cs generalizing inWord with
  | nil => rfl
  | cons cell rest ih =>
    obtain ⟨n, hmasked, rfl | hblank⟩ := exists_masked_eq cell
    · have hlimit := isTrailingLimit_maskedText (cell :: rest)
      rw [maskedText_cons, hmasked, Nat.zero_add, List.replicate_one, List.singleton_append,
        List.map_cons] at hlimit ⊢
      rw [endsWithLimit, endsWithLimit, hlimit, ih]
    · rw [maskedText_cons, hmasked, List.map_cons, hblank, List.replicate_succ, List.cons_append,
        endsWithLimit_blank_cons, endsWithLimit_blanks, endsWithLimit_blank_cons, ih]

/-- **A statement has a limit** exactly if its masked text says so. -/
theorem hasLimit_eq (sql : String) : hasLimit sql = endsWithLimit false (mask sql).toList := by
  rw [toList_mask, endsWithLimit_maskedText]
  rfl

end Sql

end ViewCompiler
