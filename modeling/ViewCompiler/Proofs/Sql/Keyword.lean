import ViewCompiler.Proofs.Sql.Scan

/-!
# Where keywords are found

* `Sql.findFrom_eq_some`: a match starts with a character of a word.
* `Sql.whereKeyword_eq_some`: the keyword `WHERE` takes letters only.
* `Sql.codeAt_of_findFrom`: **the scan stands in code where a keyword is found** in the masked
  statement.
-/

namespace ViewCompiler

namespace Sql

/-- A search finds a place where the matcher succeeds on a character of a word. -/
theorem findFrom_eq_some {matcher : Matcher} {position : Nat} {inWord : Bool} {cs : List Char}
    {span : Span} (h : findFrom matcher position inWord cs = some span) :
    ∃ skipped c rest after, cs = skipped ++ c :: rest ∧ Text.isWordChar c = true ∧
      matcher (c :: rest) = some after ∧ span.start = position + skipped.length ∧
      span.stop = span.start + (rest.length + 1 - after.length) := by
  induction cs generalizing position inWord with
  | nil => simp [findFrom] at h
  | cons c rest ih =>
    rw [findFrom] at h
    cases hhere : if inWord || !Text.isWordChar c then none else matcher (c :: rest) with
    | some after =>
      simp only [hhere, Option.some.injEq] at h
      subst h
      split at hhere
      · cases hhere
      · next hword =>
        simp only [Bool.or_eq_true, Bool.not_eq_true', not_or, Bool.not_eq_false] at hword
        exact ⟨[], c, rest, after, rfl, hword.2, hhere, rfl, rfl⟩
    | none =>
      simp only [hhere] at h
      obtain ⟨skipped, d, more, after, rfl, hword, hmatch, hstart, hstop⟩ := ih h
      refine ⟨c :: skipped, d, more, after, rfl, hword, hmatch, ?_, hstop⟩
      rw [hstart, List.length_cons]
      omega

theorem word_eq_some {letters cs after : List Char} (h : word letters cs = some after) :
    ∃ taken, cs = taken ++ after ∧ ∀ c ∈ taken, ∃ letter ∈ letters, isLetter letter c = true := by
  induction letters generalizing cs with
  | nil =>
    obtain rfl : cs = after := Option.some.inj h
    exact ⟨[], rfl, by simp⟩
  | cons letter rest ih =>
    rcases cs with - | ⟨c, more⟩
    · cases h
    · rw [word] at h
      split at h
      · next hc =>
        obtain ⟨taken, rfl, htaken⟩ := ih h
        refine ⟨c :: taken, rfl, List.forall_mem_cons.2 ⟨⟨letter, List.mem_cons_self, hc⟩, ?_⟩⟩
        intro d hd
        obtain ⟨other, hother, hd⟩ := htaken d hd
        exact ⟨other, List.mem_cons_of_mem _ hother, hd⟩
      · cases h

theorem whole_eq_some {matcher : Matcher} {cs after : List Char}
    (h : whole matcher cs = some after) : matcher cs = some after := by
  obtain ⟨rest, hrest, hafter⟩ := Option.bind_eq_some_iff.1 h
  split at hafter
  · cases hafter
  · exact hrest.trans hafter

theorem whereKeyword_eq_some {cs after : List Char} (h : whereKeyword cs = some after) :
    ∃ taken, cs = taken ++ after ∧ ∀ c ∈ taken, isMark c = false ∧ c ≠ ' ' := by
  obtain ⟨taken, hcs, htaken⟩ := word_eq_some (whole_eq_some h)
  refine ⟨taken, hcs, fun c hc => ?_⟩
  obtain ⟨letter, hletter, hc⟩ := htaken c hc
  -- a letter may match other characters than itself, but no mark and no blank
  have hmarks : (['w', 'h', 'e', 'r', 'e'].all fun letter =>
      (marks.all fun mark => !isLetter letter mark) && !isLetter letter ' ') = true := by decide
  obtain ⟨hmark, hspace⟩ := Bool.and_eq_true_iff.1 (List.all_eq_true.1 hmarks letter hletter)
  refine ⟨isMark_of_property hmark hc, fun heq => ?_⟩
  rw [← heq, hc] at hspace
  cases hspace

/-! ### Keywords in masked statements -/

variable {cs : List Char}

/-- A word that shows itself stands in the statement as it does in the masked form. -/
theorem chars_eq_faces {kept : List Cell} (h : ∀ c ∈ kept.map Cell.face, c ≠ ' ') :
    chars kept = kept.map Cell.face :=
  List.map_congr_left fun cell hcell => by
    rw [shown_of_face_ne (h _ (List.mem_map_of_mem hcell))]
    rfl

theorem codeAt_of_findFrom {matcher : Matcher} {position : Nat} {inWord : Bool} {span : Span}
    (h : findFrom matcher position inWord ((cells .code cs).map Cell.face) = some span) :
    position ≤ span.start ∧ CodeAt cs (span.start - position) := by
  obtain ⟨skipped, c, rest, after, hfaces, hword, -, hstart, -⟩ := findFrom_eq_some h
  refine ⟨by omega, codeAt_of_isWordChar (c := c) ?_ hword⟩
  rw [hstart, Nat.add_sub_cancel_left, hfaces, List.getElem?_append_right (Nat.le_refl _),
    Nat.sub_self]
  rfl

theorem codeAt_behind_where {span : Span}
    (h : find? whereKeyword ((cells .code cs).map Cell.face) = some span) :
    CodeAt cs span.start ∧ cells .code (cs.drop span.stop) = (cells .code cs).drop span.stop ∧
      scanEnd .code (cs.drop span.stop) = scanEnd .code cs := by
  obtain ⟨-, hcode⟩ := codeAt_of_findFrom h
  obtain ⟨skipped, c, rest, after, hfaces, -, hmatch, hstart, hstop⟩ := findFrom_eq_some h
  obtain ⟨taken, htaken, hletters⟩ := whereKeyword_eq_some hmatch
  have hlength : rest.length + 1 - after.length = taken.length := by
    have := congrArg List.length htaken
    simp only [List.length_cons, List.length_append] at this
    omega
  rw [hlength] at hstop
  -- the keyword is matched in the masked form; as it shows itself, the text has it as well
  have htext : (cs.drop span.start).take taken.length = taken := by
    have hmap : (((cells .code cs).drop span.start).take taken.length).map Cell.face = taken := by
      rw [List.map_take, List.map_drop, hfaces, hstart, Nat.zero_add, List.drop_left, htaken,
        List.take_left]
    have hchars := chars_eq_faces fun d hd => (hletters d (hmap ▸ hd)).2
    rwa [hmap, chars, List.map_take, List.map_drop, ← chars, chars_cells] at hchars
  have hsplit : cs.drop span.start = taken ++ cs.drop span.stop := by
    conv_lhs => rw [← List.take_append_drop taken.length (cs.drop span.start), htext]
    rw [List.drop_drop, hstop]
  obtain ⟨hcells, hend⟩ := scan_code_append (fun d hd => (hletters d hd).1) (cs.drop span.stop)
  refine ⟨hcode, ?_, ?_⟩
  · have hdrop := hcode.cells_drop
    rw [Nat.sub_zero, hsplit, hcells] at hdrop
    calc cells .code (cs.drop span.stop)
        = ((cells .code cs).drop span.start).drop taken.length := by
          rw [← hdrop, List.drop_left' (length_cells _ _)]
      _ = (cells .code cs).drop span.stop := by rw [List.drop_drop, hstop]
  · rw [← hend, ← hsplit]
    exact hcode.scanEnd_drop

end Sql

end ViewCompiler
