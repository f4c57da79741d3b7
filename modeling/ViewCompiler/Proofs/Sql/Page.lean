import ViewCompiler.Proofs.Sql.Limit
import ViewCompiler.Proofs.Sql.Literal

/-!
# Paged statements

`Sql.addPage` puts a limit behind the body of a statement and takes off the semicolons that show
themselves after it. What stays behind the limit is scanned again, now without these semicolons.

* `Sql.Trails`: cells that show only blanks and semicolons.
* `Sql.cells_withoutSemicolons`: without its semicolons such a text is scanned as before.
* `Sql.SplitsAt`, `Sql.addPage_eq`: a paged statement is its body, the limit and what stays behind.
* `Sql.solid_behindPage`: nothing is taken off but semicolons and blanks.
* `Sql.addPage_effective`: **a statement that has been paged has a limit and is not paged again**.
* `Sql.Trailer`: a statement and the blanks, semicolons and comments behind it.
* `Sql.addPage_append_iff`: **where semicolons behind a statement make its limit a second one, and
  where the limit comes to stand behind one of them.**
-/

namespace ViewCompiler

namespace Sql

@[simp] theorem char_hidden (c : Char) : (hidden c).char = c := rfl

@[simp] theorem char_shown (c : Char) : (shown c).char = c := rfl

@[simp] theorem chars_cons (cell : Cell) (cs : List Cell) :
    chars (cell :: cs) = cell.char :: chars cs := rfl

/-! ### What stands behind a statement -/

/-- Only blanks and semicolons show themselves. -/
def Trails (cs : List Cell) : Prop := ∀ cell ∈ cs, isTrailing cell.face = true

instance (cs : List Cell) : Decidable (Trails cs) :=
  inferInstanceAs (Decidable (∀ cell ∈ cs, isTrailing cell.face = true))

@[simp] theorem trails_cons {cell : Cell} {cs : List Cell} :
    Trails (cell :: cs) ↔ isTrailing cell.face = true ∧ Trails cs :=
  List.forall_mem_cons

/-- The cells that are no semicolons of the code. -/
def withoutSemicolons (cs : List Cell) : List Cell := cs.filter fun cell => cell.face ≠ ';'

@[simp] theorem withoutSemicolons_hidden (c : Char) (cs : List Cell) :
    withoutSemicolons (hidden c :: cs) = hidden c :: withoutSemicolons cs := rfl

theorem withoutSemicolons_semicolon (cs : List Cell) :
    withoutSemicolons (shown ';' :: cs) = withoutSemicolons cs := rfl

theorem withoutSemicolons_shown {c : Char} (hc : c ≠ ';') (cs : List Cell) :
    withoutSemicolons (shown c :: cs) = shown c :: withoutSemicolons cs :=
  List.filter_cons_of_pos (by simpa [shown, Cell.face] using hc)

theorem isBlank_of_mem_withoutSemicolons {cs : List Cell} (h : Trails cs) {cell : Cell}
    (hcell : cell ∈ withoutSemicolons cs) : Text.isBlank cell.face = true := by
  obtain ⟨hmem, hface⟩ := List.mem_filter.1 hcell
  exact isBlank_of_isTrailing (h cell hmem) (by simpa using hface)

/-- Within a comment the first character is hidden, and so it stays. -/
theorem head?_withoutSemicolons (cs : List Char) :
    (chars (withoutSemicolons (cells .blockComment cs))).head? = cs.head? := by
  rcases cs with - | ⟨c, rest⟩
  · rfl
  rw [(scan_cons .blockComment c rest).1, token]
  split
  · next h => rw [h.1]; rfl
  · rfl

theorem cells_code_cons {c : Char} (hc : isMark c = false) (cs : List Char) :
    cells .code (c :: cs) = shown c :: cells .code cs := by
  have hne (mark : Char) (hmark : isMark mark = true) := ne_of_isMark_eq_false hc hmark
  rw [(scan_cons .code c cs).1]
  simp [token, hne '-' rfl, hne '/' rfl, hne '\'' rfl, hne '"' rfl]

theorem isTrailing_of_quote {c : Char} (h : (c = '\'' || c = '"') = true) :
    isTrailing c = false := by
  rw [Bool.or_eq_true, decide_eq_true_eq, decide_eq_true_eq] at h
  rcases h with rfl | rfl <;> decide

theorem unquoted_of_trails {state : Scan} {cs : List Char} (hstate : state.Unquoted)
    (h : Trails (cells state cs)) : (scanEnd state cs).Unquoted := by
  fun_induction cells state cs with
  | case1 => simpa [scanEnd] using hstate
  | case2 rest ih =>
    rw [scanEnd]
    exact ih unquoted_lineComment (trails_cons.1 (trails_cons.1 h).2).2
  | case3 rest ih =>
    rw [scanEnd]
    exact ih unquoted_blockComment (trails_cons.1 (trails_cons.1 h).2).2
  | case4 c rest hline hblock hquote =>
    have hface : isTrailing c = true := (trails_cons.1 h).1
    rw [isTrailing_of_quote hquote] at hface
    cases hface
  | case5 c rest hline hblock hquote ih =>
    rw [scanEnd, if_neg hquote]
    · exact ih unquoted_code (trails_cons.1 h).2
    · exact hline
    · exact hblock
  | case6 rest ih =>
    rw [scanEnd, if_pos rfl]
    exact ih unquoted_code (trails_cons.1 h).2
  | case7 c rest hc ih =>
    rw [scanEnd, if_neg hc]
    exact ih unquoted_lineComment (trails_cons.1 h).2
  | case8 rest ih =>
    rw [scanEnd]
    exact ih unquoted_code (trails_cons.1 (trails_cons.1 h).2).2
  | case9 c rest hclose ih =>
    rw [scanEnd]
    · exact ih unquoted_blockComment (trails_cons.1 h).2
    · exact hclose
  | case10 => exact absurd rfl (hstate _)
  | case11 => exact absurd rfl (hstate _)
  | case12 => exact absurd rfl (hstate _)
  | case13 => exact absurd rfl (hstate _)

/-- **Without its semicolons a text is scanned as before.**  No token of it holds a semicolon that
shows itself together with another character, and a comment keeps all its characters. -/
theorem cells_withoutSemicolons {state : Scan} {cs : List Char} (hstate : state.Unquoted)
    (h : Trails (cells state cs)) :
    cells state (chars (withoutSemicolons (cells state cs))) =
      withoutSemicolons (cells state cs) := by
  fun_induction cells state cs with
  | case1 => rfl
  | case2 rest ih =>
    have hrest := ih unquoted_lineComment (trails_cons.1 (trails_cons.1 h).2).2
    simp only [withoutSemicolons_hidden, chars_cons, char_hidden, cells, hrest]
  | case3 rest ih =>
    have hrest := ih unquoted_blockComment (trails_cons.1 (trails_cons.1 h).2).2
    simp only [withoutSemicolons_hidden, chars_cons, char_hidden, cells, hrest]
  | case4 c rest hline hblock hquote =>
    have hface : isTrailing c = true := (trails_cons.1 h).1
    rw [isTrailing_of_quote hquote] at hface
    cases hface
  | case5 c rest hline hblock hquote ih =>
    have hface : isTrailing c = true := (trails_cons.1 h).1
    have hrest := ih unquoted_code (trails_cons.1 h).2
    by_cases hc : c = ';'
    · subst hc
      rw [withoutSemicolons_semicolon]
      exact hrest
    · have hmark : isMark c = false := isMark_of_isBlank (isBlank_of_isTrailing hface hc)
      rw [withoutSemicolons_shown hc, chars_cons, char_shown, cells_code_cons hmark, hrest]
  | case6 rest ih =>
    have hrest := ih unquoted_code (trails_cons.1 h).2
    simp only [withoutSemicolons_shown (show '\n' ≠ ';' by decide), chars_cons, char_shown, cells,
      if_pos, hrest]
  | case7 c rest hc ih =>
    have hrest := ih unquoted_lineComment (trails_cons.1 h).2
    simp only [withoutSemicolons_hidden, chars_cons, char_hidden, cells, if_neg hc, hrest]
  | case8 rest ih =>
    have hrest := ih unquoted_code (trails_cons.1 (trails_cons.1 h).2).2
    simp only [withoutSemicolons_hidden, chars_cons, char_hidden, cells, hrest]
  | case9 c rest hclose ih =>
    have hrest := ih unquoted_blockComment (trails_cons.1 h).2
    rw [withoutSemicolons_hidden, chars_cons, char_hidden, cells, hrest]
    -- the comment does not end here, as the character behind this one is the same as before
    intro more hc hmore
    have hhead := head?_withoutSemicolons rest
    rw [hmore, List.head?_cons] at hhead
    obtain ⟨behind, rfl⟩ := List.head?_eq_some_iff.1 hhead.symm
    exact hclose behind hc rfl
  | case10 => exact absurd rfl (hstate _)
  | case11 => exact absurd rfl (hstate _)
  | case12 => exact absurd rfl (hstate _)
  | case13 => exact absurd rfl (hstate _)

theorem exists_trim (cs : List Char) : ∃ before after, cs = before ++ (Text.trim cs ++ after) ∧
    (∀ c ∈ before, Text.isBlank c = true) ∧ ∀ c ∈ after, Text.isBlank c = true := by
  refine ⟨cs.takeWhile Text.isBlank, (Text.trimStart cs).rtakeWhile Text.isBlank, ?_,
    fun _ hc => List.mem_takeWhile_imp hc, fun _ hc => List.mem_rtakeWhile_imp hc⟩
  rw [show Text.trim cs = (Text.trimStart cs).rdropWhile Text.isBlank from rfl,
    List.rdropWhile_append_rtakeWhile, Text.trimStart, List.takeWhile_append_dropWhile]

/-- The blanks at the ends of a text are no part of its tokens, so that without them it shows
nothing new. -/
theorem mem_cells_of_mem_cells_trim {cs : List Char} {cell : Cell}
    (h : cell ∈ cells .code (Text.trim cs)) : cell ∈ cells .code cs := by
  obtain ⟨before, after, hcs, hbefore, hafter⟩ := exists_trim cs
  have hcut : Cut .code (Text.trim cs) after :=
    cut_of_notMark proper_code fun _ y _ hy =>
      .inr (isMark_of_isBlank (hafter y (List.mem_of_head? hy)))
  rw [hcs, (scan_code_append (fun c hc => isMark_of_isBlank (hbefore c hc)) _).1, hcut.cells_append]
  exact List.mem_append_right _ (List.mem_append_left _ h)

/-- The characters of a text that are neither blanks nor semicolons. -/
def solid (cs : List Char) : List Char := cs.filter fun c => !isTrailing c

theorem solid_cons (c : Char) (cs : List Char) :
    solid (c :: cs) = if isTrailing c then solid cs else c :: solid cs := by
  cases hc : isTrailing c <;> simp [solid, hc]

theorem solid_append (cs more : List Char) : solid (cs ++ more) = solid cs ++ solid more :=
  List.filter_append ..

theorem solid_of_blank {cs : List Char} (h : ∀ c ∈ cs, Text.isBlank c = true) : solid cs = [] :=
  List.filter_eq_nil_iff.2 fun c hc => by simp [isTrailing, h c hc]

theorem solid_trim (cs : List Char) : solid (Text.trim cs) = solid cs := by
  obtain ⟨before, after, hcs, hbefore, hafter⟩ := exists_trim cs
  conv_rhs => rw [hcs, solid_append, solid_append, solid_of_blank hbefore, solid_of_blank hafter,
    List.append_nil, List.nil_append]

theorem solid_withoutSemicolons (cs : List Cell) :
    solid (chars (withoutSemicolons cs)) = solid (chars cs) := by
  induction cs with
  | nil => rfl
  | cons cell rest ih =>
    by_cases hface : cell.face = ';'
    · obtain rfl : cell = shown ';' := by
        rw [← hface]
        exact shown_of_face_ne (by rw [hface]; decide)
      exact ih
    · have hkept : withoutSemicolons (cell :: rest) = cell :: withoutSemicolons rest :=
        List.filter_cons_of_pos (by simpa using hface)
      rw [hkept, chars_cons, chars_cons, solid_cons, solid_cons, ih]

/-- What follows the limit of a statement: what stood behind its body, without its semicolons. -/
def behindPage (rest : List Char) : List Char :=
  match Text.trim (chars (withoutSemicolons (cells .code rest))) with
  | [] => []
  | tail => ' ' :: tail

theorem solid_behindPage (rest : List Char) : solid (behindPage rest) = solid rest := by
  have hsolid : solid (Text.trim (chars (withoutSemicolons (cells .code rest)))) = solid rest := by
    rw [solid_trim, solid_withoutSemicolons]
    exact congrArg solid (chars_cells .code rest)
  rw [behindPage, ← hsolid]
  cases Text.trim (chars (withoutSemicolons (cells .code rest))) with
  | nil => rfl
  | cons => exact List.filter_cons_of_neg (by decide)

theorem isBlank_of_mem_behindPage {rest : List Char} (h : Trails (cells .code rest)) {cell : Cell}
    (hcell : cell ∈ cells .code (behindPage rest)) : Text.isBlank cell.face = true := by
  rw [behindPage] at hcell
  split at hcell
  · simp [cells] at hcell
  · rw [cells_code_cons (by decide), List.mem_cons] at hcell
    rcases hcell with rfl | hcell
    · decide
    · have hmem := mem_cells_of_mem_cells_trim hcell
      rw [cells_withoutSemicolons unquoted_code h] at hmem
      exact isBlank_of_mem_withoutSemicolons h hmem

/-! ### Limits for pages -/

theorem isDecimalDigit_of_isDigit {c : Char} (h : c.isDigit = true) :
    Text.isDecimalDigit c = true := by
  have hrange : 48 ≤ c.toNat ∧ c.toNat ≤ 57 := by
    simpa [Char.isDigit, UInt32.le_iff_toNat_le] using h
  rw [Text.isDecimalDigit, if_pos (by omega)]
  simpa [Text.isAsciiDigit, Char.le_def, UInt32.le_iff_toNat_le] using hrange

theorem run_natDigits (n : Nat) : Run Text.isDecimalDigit (Nat.toDigits 10 n) :=
  ⟨Nat.toDigits_ne_nil, fun _ hc =>
    isDecimalDigit_of_isDigit (Nat.isDigit_of_mem_toDigits (by decide) (by decide) hc)⟩

theorem run_space : Run Text.isBlank [' '] :=
  ⟨List.cons_ne_nil _ _, List.forall_mem_singleton.2 (by decide)⟩

theorem toList_pageClause (limit offset : Nat) :
    (pageClause limit offset).toList = "LIMIT".toList ++ ([' '] ++ (Nat.toDigits 10 limit ++
      if offset > 0 then [' '] ++ ("OFFSET".toList ++ ([' '] ++ Nat.toDigits 10 offset))
      else [])) := by
  rw [pageClause]
  split <;> simp [toString]

theorem limitClause_pageClause (limit offset : Nat) :
    LimitClause (pageClause limit offset).toList := by
  have hlimit : Spells ['l', 'i', 'm', 'i', 't'] "LIMIT".toList := by
    simp [Spells]
    decide
  have hoffset : Spells ['o', 'f', 'f', 's', 'e', 't'] "OFFSET".toList := by
    simp [Spells]
    decide
  rw [toList_pageClause]
  refine ⟨hlimit, run_space, run_natDigits limit, ?_⟩
  split
  · exact .offset run_space hoffset run_space (run_natDigits offset)
  · exact .none

theorem all_isPlain_pageClause (limit offset : Nat) :
    (pageClause limit offset).toList.all isPlain = true := by
  have hdigits (n : Nat) : (Nat.toDigits 10 n).all isPlain = true :=
    Decimal.all_isPlain_natDigits n
  rw [toList_pageClause]
  split <;> simp only [List.all_append, hdigits] <;> decide

/-! ### Paged statements -/

/-- A statement is cut behind the last character of its code that is no blank, but for semicolons:
both parts are scanned as within the statement. -/
structure SplitsAt (cs head rest : List Char) : Prop where
  append_eq : cs = head ++ rest
  scanEnd_head : scanEnd .code head = .code
  cells_eq : cells .code cs = cells .code head ++ cells .code rest
  trails : Trails (cells .code rest)

theorem splitsAt_body {cs : List Char} (h : (scanEnd .code cs).Unquoted) :
    ∃ rest, SplitsAt cs (chars (body (cells .code cs))) rest := by
  obtain ⟨rest, hcs, hcells, hkept, hend, hrest⟩ := scan_body h
  refine ⟨rest, hcs, hend, by rw [hkept, ← hcells], fun cell hcell => ?_⟩
  simpa [isTrailing] using hrest cell hcell

variable {sql : String}

/-- **A paged statement** is its body, the limit and what stays behind it. -/
theorem addPage_eq (hlimit : hasLimit sql = false) {rest : List Char}
    (h : SplitsAt sql.toList (chars (body (cells .code sql.toList))) rest) (limit offset : Nat) :
    (addPage sql limit offset).toList = chars (body (cells .code sql.toList)) ++
      (' ' :: (pageClause limit offset).toList ++ behindPage rest) := by
  have hdrop : (cells .code sql.toList).drop (body (cells .code sql.toList)).length =
      cells .code rest :=
    (congrArg (List.drop _) h.cells_eq).trans
      (List.drop_left' (by rw [length_cells, chars, List.length_map]))
  have hend : Text.trimEnd (chars (body (cells .code sql.toList))) =
      chars (body (cells .code sql.toList)) := trimEnd_eq_self fun _ => not_isBlank_last_body
  simp only [addPage, hlimit, Bool.false_eq_true, if_false, hdrop, hend, behindPage,
    withoutSemicolons]
  cases htail : Text.trim (chars ((cells .code rest).filter fun cell => cell.face ≠ ';')) with
  | nil => simp
  | cons c tail => simp

/-- Behind code a limit shows itself, and what follows it is scanned for itself. -/
theorem faces_append_clause {head clause : List Char} (hend : scanEnd .code head = .code)
    (hclause : clause.all isPlain = true) (rest : List Char) :
    faces (head ++ (' ' :: clause ++ rest)) = faces head ++ (' ' :: clause ++ faces rest) := by
  have hplain : unmarked (' ' :: clause) = true :=
    unmarked_of_isPlain (by rw [List.all_cons, hclause]; decide)
  have hcut : Cut .code head (' ' :: clause ++ rest) :=
    cut_of_notMark proper_code fun _ y _ hy => .inr (by
      obtain rfl : ' ' = y := by simpa using hy
      decide)
  rw [faces, hcut.cells_append, hend, (scan_code_append (isMark_of_unmarked hplain) rest).1,
    List.map_append, List.map_append]
  congr 2
  exact faces_of_unmarked hplain

/-- **A statement with a limit behind its body ends with a limit.** -/
theorem hasLimit_of_toList {paged : String} {head clause rest : List Char}
    (htext : paged.toList = head ++ (' ' :: clause ++ rest)) (hend : scanEnd .code head = .code)
    (hplain : clause.all isPlain = true) (hclause : LimitClause clause)
    (hrest : ∀ cell ∈ cells .code rest, Text.isBlank cell.face = true) : hasLimit paged = true := by
  have hblank : ∀ c ∈ faces rest, Text.isBlank c = true := by
    intro c hc
    obtain ⟨cell, hcell, rfl⟩ := List.mem_map.1 hc
    exact hrest cell hcell
  rw [hasLimit, htext, faces_append_clause hend hplain, endsWithLimit_iff]
  refine ⟨faces head ++ [' '], clause, faces rest, by simp, ⟨by simp, fun c hc => ?_⟩, hclause,
    isClauseEnd_iff.2 ⟨fun c hc => by simp [isTrailing, hblank c hc], ?_⟩⟩
  · obtain rfl : ' ' = c := by simpa using hc
    decide
  · rw [count_semicolon_of_blank hblank]
    exact Nat.zero_le 1

theorem addPage_of_hasLimit (h : hasLimit sql = true) (limit offset : Nat) :
    addPage sql limit offset = sql := by
  rw [addPage, if_pos h]

theorem hasLimit_addPage (h : (scanEnd .code sql.toList).Unquoted) (limit offset : Nat) :
    hasLimit (addPage sql limit offset) = true := by
  cases hlimit : hasLimit sql with
  | true => rw [addPage_of_hasLimit hlimit, hlimit]
  | false =>
    obtain ⟨rest, hsplit⟩ := splitsAt_body h
    exact hasLimit_of_toList (addPage_eq hlimit hsplit limit offset) hsplit.scanEnd_head
      (all_isPlain_pageClause limit offset) (limitClause_pageClause limit offset)
      fun _ hcell => isBlank_of_mem_behindPage hsplit.trails hcell

/-- **A statement that has been paged has a limit, and is not paged again.** A statement with a
limit stays as it is. Another one keeps all its characters, in their order and around the limit,
but for the semicolons and the blanks at the ends of what follows its body: the other characters
there are the same as before. -/
theorem addPage_effective (sql : String) (h : (scanEnd .code sql.toList).Unquoted)
    (limit offset : Nat) :
    hasLimit (addPage sql limit offset) = true ∧
      (∀ limit' offset', addPage (addPage sql limit offset) limit' offset' =
        addPage sql limit offset) ∧
      (hasLimit sql = true → addPage sql limit offset = sql) ∧
      (hasLimit sql = false → ∃ head rest, SplitsAt sql.toList head rest ∧
        (addPage sql limit offset).toList =
          head ++ (' ' :: (pageClause limit offset).toList ++ behindPage rest) ∧
        solid (behindPage rest) = solid rest) := by
  have hlimit := hasLimit_addPage h limit offset
  refine ⟨hlimit, addPage_of_hasLimit hlimit, fun hown => addPage_of_hasLimit hown limit offset,
    fun hnone => ?_⟩
  obtain ⟨rest, hsplit⟩ := splitsAt_body h
  exact ⟨_, rest, hsplit, addPage_eq hnone hsplit limit offset, solid_behindPage rest⟩

/-- A statement with a comment and a second semicolon behind it. -/
theorem addPage_effective_commented :
    (scanEnd .code "SELECT 1; -- all\n;".toList).Unquoted ∧
      hasLimit (addPage "SELECT 1; -- all\n;" 10 5) = true ∧
      addPage (addPage "SELECT 1; -- all\n;" 10 5) 7 0 = addPage "SELECT 1; -- all\n;" 10 5 := by
  have hunquoted : (scanEnd .code "SELECT 1; -- all\n;".toList).Unquoted := by
    rw [show scanEnd .code "SELECT 1; -- all\n;".toList = .code by decide]
    exact unquoted_code
  obtain ⟨hlimit, hagain, -⟩ := addPage_effective _ hunquoted 10 5
  exact ⟨hunquoted, hlimit, hagain 7 0⟩

example : addPage "SELECT 1; -- all\n;" 10 5 = "SELECT 1; LIMIT 10 OFFSET 5 -- all" := by decide

/-! ### Trailers -/

theorem isMark_of_isTrailing {c : Char} (h : isTrailing c = true) : isMark c = false :=
  isMark_of_property (by decide) h

/-- The semicolons of a text stand next to each other, and all else are blanks. -/
def OneRun (cs : List Char) : Prop :=
  ∃ before semicolons after, cs = before ++ (semicolons ++ after) ∧
    (∀ c ∈ before, Text.isBlank c = true) ∧ (∀ c ∈ semicolons, c = ';') ∧
    ∀ c ∈ after, Text.isBlank c = true

theorem body_append {front : List Cell} {cell : Cell} (hlast : front.getLast? = some cell)
    (hcell : isTrailing cell.face = false) (rest : List Cell) :
    body (front ++ rest) = front ++ body rest := by
  have hnot : Text.isBlank cell.face = false ∧ cell.face ≠ ';' := by
    simpa [isTrailing] using hcell
  let blank (cell : Cell) : Bool := Text.isBlank cell.face
  let semicolon (cell : Cell) : Bool := cell.face = ';'
  have hblank : ∀ cs : List Cell, (front ++ cs).rdropWhile blank = front ++ cs.rdropWhile blank :=
    fun cs => rdropWhile_append_of_getLast? hlast hnot.1
  have hsemicolon : ∀ cs : List Cell,
      (front ++ cs).rdropWhile semicolon = front ++ cs.rdropWhile semicolon :=
    fun cs => rdropWhile_append_of_getLast? hlast (by simpa [semicolon] using hnot.2)
  calc body (front ++ rest)
      = (((front ++ rest).rdropWhile blank).rdropWhile semicolon).rdropWhile blank := rfl
    _ = front ++ body rest := by rw [hblank, hsemicolon, hblank]; rfl

theorem body_eq_nil_of_run {before semicolons after : List Cell}
    (hbefore : ∀ cell ∈ before, Text.isBlank cell.face = true)
    (hsemicolons : ∀ cell ∈ semicolons, cell.face = ';')
    (hafter : ∀ cell ∈ after, Text.isBlank cell.face = true) :
    body (before ++ (semicolons ++ after)) = [] := by
  let blank (cell : Cell) : Bool := Text.isBlank cell.face
  let semicolon (cell : Cell) : Bool := cell.face = ';'
  have hbody : body (before ++ (semicolons ++ after)) =
      (((before ++ semicolons).rdropWhile blank).rdropWhile semicolon).rdropWhile blank := by
    rw [← List.append_assoc]
    exact congrArg (fun cs => (cs.rdropWhile semicolon).rdropWhile blank)
      (rdropWhile_append_of_all hafter)
  rw [hbody, List.rdropWhile_eq_nil_iff]
  intro cell hcell
  rcases List.eq_nil_or_concat' semicolons with rfl | ⟨more, last, rfl⟩
  · -- there is no semicolon, and so all is a blank
    rw [List.append_nil] at hcell
    have hmem := (List.rdropWhile_prefix _ _).subset hcell
    exact hbefore cell ((List.rdropWhile_prefix _ _).subset hmem)
  · have hnot : blank last = false := by
      simp only [blank, hsemicolons last (by simp)]
      decide
    have hkeep : (before ++ (more ++ [last])).rdropWhile blank = before ++ (more ++ [last]) := by
      rw [← List.append_assoc, List.rdropWhile_concat_neg _ _ _ (by simp [hnot])]
    have hall : ∀ cell ∈ more ++ [last], semicolon cell = true := fun cell hcell => by
      simpa [semicolon] using hsemicolons cell hcell
    rw [hkeep, rdropWhile_append_of_all hall] at hcell
    exact hbefore cell ((List.rdropWhile_prefix _ _).subset hcell)

/-- Nothing is left of cells exactly if their semicolons stand next to each other. -/
theorem body_eq_nil_iff {cs : List Cell} : body cs = [] ↔ OneRun (cs.map Cell.face) := by
  let blank (cell : Cell) : Bool := Text.isBlank cell.face
  let semicolon (cell : Cell) : Bool := cell.face = ';'
  constructor
  · intro h
    refine ⟨((cs.rdropWhile blank).rdropWhile semicolon).map Cell.face,
      ((cs.rdropWhile blank).rtakeWhile semicolon).map Cell.face,
      (cs.rtakeWhile blank).map Cell.face, ?_, ?_, ?_, ?_⟩
    · rw [← List.map_append, ← List.map_append, ← List.append_assoc,
        List.rdropWhile_append_rtakeWhile, List.rdropWhile_append_rtakeWhile]
    · exact List.forall_mem_map.2 (List.rdropWhile_eq_nil_iff.1 h)
    · exact List.forall_mem_map.2 fun cell hcell => by
        simpa [semicolon] using List.mem_rtakeWhile_imp hcell
    · exact List.forall_mem_map.2 fun cell hcell => by
        simpa [blank] using List.mem_rtakeWhile_imp hcell
  · rintro ⟨before, semicolons, after, hcs, hbefore, hsemicolons, hafter⟩
    obtain ⟨before, more, rfl, rfl, hmore⟩ := List.map_eq_append_iff.1 hcs
    obtain ⟨semicolons, after, rfl, rfl, rfl⟩ := List.map_eq_append_iff.1 hmore
    exact body_eq_nil_of_run (List.forall_mem_map.1 hbefore) (List.forall_mem_map.1 hsemicolons)
      (List.forall_mem_map.1 hafter)

/-- A statement and what may stand behind it: blanks, semicolons and comments. The statement ends in
code, and neither with a blank nor with a semicolon; a comment does not follow it directly. -/
structure Trailer (text trailer : List Char) : Prop where
  scanEnd_text : scanEnd .code text = .code
  last : ∃ c, (faces text).getLast? = some c ∧ isTrailing c = false
  trails : Trails (cells .code trailer)
  first (c : Char) (h : trailer.head? = some c) : isTrailing c = true

namespace Trailer

variable {text trailer : List Char}

theorem cells_append (h : Trailer text trailer) :
    cells .code (text ++ trailer) = cells .code text ++ cells .code trailer ∧
      scanEnd .code (text ++ trailer) = scanEnd .code trailer := by
  have hcut : Cut .code text trailer := cut_of_notMark proper_code fun _ y _ hy =>
    .inr (isMark_of_isTrailing (h.first y hy))
  rw [hcut.cells_append, hcut.scanEnd_append, h.scanEnd_text]
  exact ⟨rfl, rfl⟩

theorem faces_append (h : Trailer text trailer) :
    faces (text ++ trailer) = faces text ++ faces trailer := by
  rw [faces, h.cells_append.1, List.map_append]
  rfl

theorem unquoted (h : Trailer text trailer) : (scanEnd .code (text ++ trailer)).Unquoted := by
  rw [h.cells_append.2]
  exact unquoted_of_trails unquoted_code h.trails

/-- A limit at the end of the text is hidden by two semicolons in the trailer. -/
theorem hasLimit_iff (h : Trailer text trailer) :
    hasLimit (String.ofList (text ++ trailer)) = true ↔
      hasLimit (String.ofList text) = true ∧ (faces trailer).count ';' ≤ 1 := by
  obtain ⟨c, hlast, hc⟩ := h.last
  have htrails : ∀ d ∈ faces trailer, isTrailing d = true := List.forall_mem_map.2 h.trails
  rw [hasLimit, hasLimit, String.toList_ofList, String.toList_ofList, h.faces_append,
    endsWithLimit_append hlast hc htrails]

theorem body_eq (h : Trailer text trailer) :
    chars (body (cells .code (text ++ trailer))) =
      text ++ chars (body (cells .code trailer)) := by
  obtain ⟨c, hlast, hc⟩ := h.last
  rw [faces, List.getLast?_map] at hlast
  obtain ⟨cell, hcell, rfl⟩ := Option.map_eq_some_iff.1 hlast
  rw [h.cells_append.1, body_append hcell hc, chars, List.map_append]
  exact congrArg (· ++ _) (chars_cells .code text)

theorem semicolon_mem_faces_body (h : Trailer text trailer)
    (hne : body (cells .code trailer) ≠ []) :
    scanEnd .code (chars (body (cells .code trailer))) = .code ∧
      ';' ∈ faces (chars (body (cells .code trailer))) := by
  obtain ⟨-, -, -, hcells, hend, -⟩ := scan_body (unquoted_of_trails unquoted_code h.trails)
  obtain ⟨rest, hsplit, hlast, -⟩ := body_spec (cells .code trailer)
  obtain ⟨cell, hcell⟩ := Option.ne_none_iff_exists'.1 (mt List.getLast?_eq_none_iff.1 hne)
  have hmem : cell ∈ body (cells .code trailer) := List.mem_of_getLast? hcell
  have htrailing := h.trails cell (hsplit ▸ List.mem_append_left _ hmem)
  have hface : cell.face = ';' := by simpa [isTrailing, hlast cell hcell] using htrailing
  refine ⟨hend, ?_⟩
  rw [faces, hcells, ← hface]
  exact List.mem_map_of_mem hmem

end Trailer

/-- A semicolon in front of one limit shows itself behind another one that starts the text. -/
theorem semicolon_mem_faces_behind {front clause rest other : List Char}
    (hend : scanEnd .code front = .code) (hplain : clause.all isPlain = true)
    (heq : front ++ (' ' :: clause ++ rest) = ' ' :: clause ++ other) (hmem : ';' ∈ faces front) :
    ';' ∈ faces other := by
  have hfaces := congrArg faces heq
  have hright : faces (' ' :: clause ++ other) = faces [] ++ (' ' :: clause ++ faces other) :=
    @faces_append_clause [] _ rfl hplain other
  rw [faces_append_clause hend hplain, hright] at hfaces
  have hnot : ';' ∉ clause := fun hclause => by
    have hsemicolon := List.all_eq_true.1 hplain ';' hclause
    exact absurd hsemicolon (by decide)
  have hall : ';' ∈ faces [] ++ (' ' :: clause ++ faces other) :=
    hfaces ▸ List.mem_append_left _ hmem
  simpa [faces, cells, hnot] using hall

theorem semicolon_notMem_behindPage {rest : List Char} (h : Trails (cells .code rest)) :
    ';' ∉ faces (behindPage rest) := by
  intro hmem
  obtain ⟨cell, hcell, hface⟩ := List.mem_map.1 hmem
  have hblank := isBlank_of_mem_behindPage h hcell
  rw [hface] at hblank
  exact absurd hblank (by decide)

/-- **What stands behind a statement.** A statement with a limit stays as it is exactly if at most
one semicolon follows it; two of them hide the limit from the search. In a statement without limit
the new limit follows the text, with no semicolon behind it, exactly if all semicolons stand next to
each other: only one run of them is taken off. -/
theorem addPage_append_iff {text trailer : List Char} (h : Trailer text trailer)
    (limit offset : Nat) :
    (hasLimit (String.ofList text) = true →
      (addPage (String.ofList (text ++ trailer)) limit offset = String.ofList (text ++ trailer) ↔
        (faces trailer).count ';' ≤ 1)) ∧
    (hasLimit (String.ofList text) = false →
      ((∃ rest, (addPage (String.ofList (text ++ trailer)) limit offset).toList =
          text ++ (' ' :: (pageClause limit offset).toList ++ rest) ∧ ';' ∉ faces rest) ↔
        OneRun (faces trailer))) := by
  have hiff := h.hasLimit_iff
  have hunquoted : (scanEnd .code (String.ofList (text ++ trailer)).toList).Unquoted := by
    rw [String.toList_ofList]
    exact h.unquoted
  constructor
  · intro hown
    -- the statement stays as it is if its limit is found; otherwise it gets one that is found
    rw [hown, eq_self_iff_true, true_and] at hiff
    rw [← hiff]
    constructor
    · intro hsame
      rw [← hsame]
      exact hasLimit_addPage hunquoted limit offset
    · intro hlimit
      exact addPage_of_hasLimit hlimit limit offset
  · intro hnone
    -- the new limit follows the body, which is the text and what is left of the trailer
    have hlimit : hasLimit (String.ofList (text ++ trailer)) = false := by
      rw [← Bool.not_eq_true, hiff, hnone]
      simp
    obtain ⟨rest, hsplit⟩ := splitsAt_body hunquoted
    have hpaged := addPage_eq hlimit hsplit limit offset
    rw [String.toList_ofList, h.body_eq, List.append_assoc] at hpaged
    rw [hpaged, faces, ← body_eq_nil_iff]
    constructor
    · rintro ⟨other, heq, hother⟩
      by_contra hne
      obtain ⟨hend, hmem⟩ := h.semicolon_mem_faces_body hne
      exact hother (semicolon_mem_faces_behind hend (all_isPlain_pageClause limit offset)
        (List.append_cancel_left heq) hmem)
    · intro hnil
      rw [hnil]
      exact ⟨behindPage rest, rfl, semicolon_notMem_behindPage hsplit.trails⟩

/-- Two semicolons hide the limit of a statement, and two of them apart are not both taken off. -/
theorem addPage_append_iff_doubled :
    Trailer "SELECT 1 LIMIT 5".toList ";;".toList ∧ Trailer "SELECT 1".toList "; ;".toList ∧
      hasLimit "SELECT 1 LIMIT 5" = true ∧ hasLimit "SELECT 1" = false ∧
      addPage "SELECT 1 LIMIT 5;;" 10 0 ≠ "SELECT 1 LIMIT 5;;" ∧
      ¬∃ rest, (addPage "SELECT 1; ;" 10 0).toList =
        "SELECT 1".toList ++ (' ' :: (pageClause 10 0).toList ++ rest) ∧ ';' ∉ faces rest := by
  have hlimited : Trailer "SELECT 1 LIMIT 5".toList ";;".toList :=
    ⟨by decide, ⟨'5', by decide, by decide⟩, by decide, by simp [isTrailing]⟩
  have hplain : Trailer "SELECT 1".toList "; ;".toList :=
    ⟨by decide, ⟨'1', by decide, by decide⟩, by decide, by simp [isTrailing]⟩
  have hown : hasLimit "SELECT 1 LIMIT 5" = true := by decide
  have hnone : hasLimit "SELECT 1" = false := by decide
  refine ⟨hlimited, hplain, hown, hnone, fun hsame => ?_, fun hafter => ?_⟩
  · have hcount := ((addPage_append_iff hlimited 10 0).1 hown).1 hsame
    exact absurd hcount (by decide)
  · have hrun := ((addPage_append_iff hplain 10 0).2 hnone).1 hafter
    exact absurd (body_eq_nil_iff.2 hrun) (by decide)

end Sql

end ViewCompiler
