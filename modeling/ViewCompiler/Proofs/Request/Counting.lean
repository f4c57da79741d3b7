import ViewCompiler.Proofs.Result
import ViewCompiler.Proofs.Sql.Page
import ViewCompiler.Proofs.Sql.TopLevel
import ViewCompiler.Readers.Standard
import ViewCompiler.Request.Statement

/-!
# Statements that count rows

The rows of a statement are counted by a statement around it.

* `SqlRequest.WellNested`: what closes the outer statement is code, and the inner one has no
  semicolon in its code.
* `SqlRequest.wellNested_iff`: it depends on where the inner statement ends, and on its code alone.
* `Sql.Weave.notMem_faces_iff`: what a weave shows is what its words and its texts show.
* `Sql.Weave.scan_parts`: words in which no state begins or ends leave the texts as if they stood
  one behind another.
* `Sql.Restriction.notMem_texts_iff`: **the texts of a statement show what its body shows**, but for
  blanks and keywords.
* `View.fragments`: the conditions that narrow the statement of a query.
* `View.countSql_wellNested_iff`: **when the count of a query is well nested.** A statement that
  takes no condition is counted as it is, with the comments and semicolons at its end.
-/

namespace ViewCompiler

namespace Sql

/-! ### What blanks show -/

section

variable {c : Char} {cs blank : List Char}

theorem isBlank_face {state : Scan} (h : ∀ c ∈ cs, Text.isBlank c = true) {cell : Cell}
    (hcell : cell ∈ cells state cs) : Text.isBlank cell.face = true := by
  have hchar : cell.char ∈ chars (cells state cs) := List.mem_map_of_mem hcell
  rw [chars_cells] at hchar
  unfold Cell.face
  split
  · exact h _ hchar
  · decide

theorem mem_faces_trimStart (hc : Text.isBlank c = false) :
    c ∈ faces (Text.trimStart cs) ↔ c ∈ faces cs := by
  have hblank : ∀ d ∈ cs.takeWhile Text.isBlank, Text.isBlank d = true :=
    fun d hd => List.mem_takeWhile_imp hd
  have hsplit : cells .code cs =
      cells .code (cs.takeWhile Text.isBlank) ++ cells .code (Text.trimStart cs) := by
    conv_lhs => rw [← List.takeWhile_append_dropWhile (p := Text.isBlank) (l := cs)]
    exact (scan_code_append (fun d hd => isMark_of_isBlank (hblank d hd)) _).1
  unfold faces
  rw [hsplit, List.map_append, List.mem_append, or_iff_right]
  intro hmem
  obtain ⟨cell, hcell, rfl⟩ := List.mem_map.1 hmem
  rw [isBlank_face hblank hcell] at hc
  cases hc

theorem mem_faces_trimEnd (hc : Text.isBlank c = false) :
    c ∈ faces (Text.trimEnd cs) ↔ c ∈ faces cs := by
  have hblank : ∀ d ∈ cs.rtakeWhile Text.isBlank, Text.isBlank d = true :=
    fun d hd => List.mem_rtakeWhile_imp hd
  have hcut : Cut .code (Text.trimEnd cs) (cs.rtakeWhile Text.isBlank) :=
    cut_of_notMark proper_code fun _ y _ hy =>
      .inr (isMark_of_isBlank (hblank y (List.mem_of_head? hy)))
  have hsplit := hcut.cells_append
  rw [show Text.trimEnd cs = cs.rdropWhile Text.isBlank from rfl,
    List.rdropWhile_append_rtakeWhile] at hsplit
  unfold faces
  rw [hsplit, List.map_append, List.mem_append]
  refine (or_iff_left fun hmem => ?_).symm
  obtain ⟨cell, hcell, rfl⟩ := List.mem_map.1 hmem
  rw [isBlank_face hblank hcell] at hc
  cases hc

theorem mem_faces_trim (hc : Text.isBlank c = false) :
    c ∈ faces (Text.trim cs) ↔ c ∈ faces cs := by
  rw [Text.trim, mem_faces_trimEnd hc, mem_faces_trimStart hc]

end

/-! ### What weaves show -/

/-- The cells of texts that are scanned one after another. -/
def cellsInTurn (state : Scan) : List (List Char) → List Cell
  | [] => []
  | text :: rest => cells state text ++ cellsInTurn (scanEnd state text) rest

/-- Does no state begin in the word and none end there? -/
def inert (word : List Char) : Bool :=
  word.all fun c => !List.contains ['-', '/', '\'', '"', '\n'] c

theorem scanEnd_of_inert {state : Scan} {word : List Char} (hproper : state.Proper)
    (h : inert word = true) : scanEnd state word = state := by
  induction word with
  | nil => simp [scanEnd]
  | cons c rest ih =>
    rw [inert, List.all_cons, Bool.and_eq_true] at h
    obtain ⟨hc, hrest⟩ := h
    simp only [List.contains_cons, List.contains_nil, Bool.or_false, Bool.not_or, Bool.and_eq_true,
      Bool.not_eq_true', beq_eq_false_iff_ne] at hc
    obtain ⟨hdash, hslash, hsingle, hdouble, hline⟩ := hc
    have hslash' : rest.head? ≠ some '/' := fun hhead =>
      absurd (List.all_eq_true.1 hrest _ (List.mem_of_head? hhead)) (by decide)
    have htoken : (token state c rest).state = state ∧ (token state c rest).rest = rest := by
      cases state with
      | code => simp [token, hdash, hslash, hsingle, hdouble]
      | lineComment => simp [token, hline]
      | blockComment => simp [token, hslash']
      | quoted quote =>
        have hquote : c ≠ quote := by rcases hproper quote rfl with rfl | rfl <;> assumption
        simp [token, hquote]
    rw [(scan_cons state c rest).2, htoken.1, htoken.2, ih hrest]

theorem mem_of_mem_faces {state : Scan} {cs : List Char} {c : Char} (hc : c ≠ ' ')
    (h : c ∈ (cells state cs).map Cell.face) : c ∈ cs := by
  obtain ⟨cell, hcell, rfl⟩ := List.mem_map.1 h
  have hchar : cell.char ∈ chars (cells state cs) := List.mem_map_of_mem hcell
  rw [chars_cells] at hchar
  unfold Cell.face at hc ⊢
  split at hc
  · rwa [if_pos ‹_›]
  · exact absurd rfl hc

namespace Weave

/-- The texts of a weave, in their order. -/
def texts (weave : Weave) : List (List Char) := weave.first :: weave.parts.map Prod.snd

/-- A weave that shows its words shows nothing but what its words and its texts show. -/
theorem notMem_faces_iff {weave : Weave} (h : weave.Shows) {c : Char}
    (hwords : ∀ part ∈ weave.parts, c ∉ part.1) :
    c ∉ faces weave.text ↔ ∀ text ∈ weave.texts, c ∉ faces text := by
  have hpart : ∀ part ∈ weave.parts,
      (c ∉ (part.1.map shown ++ Sql.cells .code part.2).map Cell.face ↔ c ∉ faces part.2) := by
    intro part hpart
    have hword : (part.1.map shown).map Cell.face = part.1 := by
      rw [List.map_map]
      exact List.map_id _
    rw [List.map_append, List.mem_append, hword]
    exact not_congr (or_iff_right (hwords part hpart))
  rw [faces, h.1, cells, List.map_append, List.mem_append, not_or, texts, List.forall_mem_cons,
    List.forall_mem_map, List.map_flatMap]
  refine and_congr_right fun _ => ?_
  simp only [List.mem_flatMap, not_exists, not_and]
  exact forall₂_congr hpart

/-- Words that keep the state make no difference to the texts: these are scanned as if they stood
one behind another. -/
theorem scan_parts {state : Scan} {parts : List (List Char × List Char)} {c : Char}
    (first : List Char) (hproper : state.Proper)
    (hinert : ∀ part ∈ parts, IsWord part.1 ∧ inert part.1 = true)
    (hwords : ∀ part ∈ parts, c ∉ part.1) (hc : c ≠ ' ') :
    let whole := first ++ parts.flatMap fun part => part.1 ++ part.2
    let texts := first :: parts.map Prod.snd
    scanEnd state whole = texts.foldl scanEnd state ∧
      (c ∈ (Sql.cells state whole).map Cell.face ↔
        c ∈ (cellsInTurn state texts).map Cell.face) := by
  induction parts generalizing state first with
  | nil => simp [cellsInTurn]
  | cons part rest ih =>
    obtain ⟨word, behind⟩ := part
    obtain ⟨⟨hword, hkeeps⟩, hinert⟩ := List.forall_mem_cons.1 hinert
    obtain ⟨hnot, hwords⟩ := List.forall_mem_cons.1 hwords
    have hnext := proper_scanEnd hproper first
    obtain ⟨hend, hmem⟩ := ih behind hnext hinert hwords
    obtain ⟨hcells, hscan⟩ := scan_word hproper hword first
      (behind ++ rest.flatMap fun part => part.1 ++ part.2)
    rw [scanEnd_of_inert hnext hkeeps] at hcells hscan
    have hhidden : c ∉ (Sql.cells (scanEnd state first) word).map Cell.face :=
      fun h => hnot (mem_of_mem_faces hc h)
    simp only [List.flatMap_cons, List.append_assoc, List.map_cons, List.foldl_cons, cellsInTurn,
      hcells, hscan, List.map_append, List.mem_append, hhidden, false_or]
    simp only [List.foldl_cons, cellsInTurn, List.map_append, List.mem_append] at hend hmem
    exact ⟨hend, or_congr_right hmem⟩

end Weave

namespace Shape

/-- The texts of the statement between which the words of the weave stand. -/
def texts : Shape → List (List Char)
  | nested base => [base]
  | narrowed before existing rest => [before, Text.trim existing, Text.trim rest]
  | divided before rest => [Text.trimEnd before, rest]
  | plain base => [Text.trimEnd base]

theorem semicolon_notMem_words (shape : Shape) (conditions : List (List Char)) :
    ∀ part ∈ (shape.weave conditions).parts, ';' ∉ part.1 := by
  have hadded : ∀ word ∈ addedWords, ';' ∉ word := by decide
  exact fun part hpart => hadded _ (mem_addedWords shape conditions part hpart)

theorem inert_words (shape : Shape) (conditions : List (List Char)) :
    ∀ part ∈ (shape.weave conditions).parts, Weave.IsWord part.1 ∧ inert part.1 = true := by
  have hinert : ∀ word ∈ addedWords, inert word = true := by decide
  intro part hpart
  have hmem := mem_addedWords shape conditions part hpart
  exact ⟨isWord_of_mem_addedWords _ hmem, hinert _ hmem⟩

theorem forall_texts_weave {P : List Char → Prop} (hnil : P []) (shape : Shape)
    {conditions : List (List Char)} (hne : conditions ≠ []) :
    (∀ text ∈ (shape.weave conditions).texts, P text) ↔
      (∀ text ∈ shape.texts, P text) ∧ ∀ condition ∈ conditions, P condition := by
  cases shape with
  | nested base =>
    rw [weave, Weave.texts, List.map_cons, List.forall_mem_cons, List.forall_mem_cons,
      List.forall_mem_map, texts_conditionParts fun _ => hnil]
    simp [texts, hnil]
  | narrowed before existing rest =>
    rw [weave, Weave.texts, List.map_cons, List.forall_mem_cons, List.forall_mem_cons,
      List.forall_mem_map, texts_conditionParts]
    · simp only [texts, List.forall_mem_cons, List.not_mem_nil, false_imp_iff, implies_true,
        and_true, hne, ne_eq, not_false_eq_true, true_imp_iff]
      tauto
    · intro hclosing
      split at hclosing
      · next hempty => rwa [List.isEmpty_iff.1 hempty]
      · cases hclosing
  | divided before rest =>
    rw [weave, Weave.texts, List.forall_mem_cons, List.forall_mem_map,
      texts_conditionParts (by simp)]
    simp only [texts, List.forall_mem_cons, List.not_mem_nil, false_imp_iff, implies_true,
      and_true, hne, ne_eq, not_false_eq_true, true_imp_iff]
    tauto
  | plain base =>
    rw [weave, Weave.texts, List.forall_mem_cons, List.forall_mem_map,
      texts_conditionParts fun _ => hnil]
    simp [texts, hnil]

end Shape

namespace Restriction

section

variable {code : List Char} {span : Span}

theorem faces_at_keyword {matcher : Matcher} {inWord : Bool}
    (h : Occurs matcher inWord (faces code) span) :
    faces (code.take span.start) = (faces code).take span.start ∧
      faces (code.drop span.start) = (faces code).drop span.start := by
  obtain ⟨first, hfirst, hword⟩ := h.letter
  have hat : CodeAt code span.start := codeAt_of_isWordChar hfirst hword
  unfold faces
  rw [hat.cells_take, hat.cells_drop, List.map_take, List.map_drop]
  exact ⟨rfl, rfl⟩

/-- Behind a condition the rest of a statement is scanned for itself. -/
theorem faces_behind_condition {position stop : Nat} {level : Nat → Prop}
    (h : ConditionEnds (faces code) level position stop) :
    faces (code.drop stop) = (faces code).drop stop := by
  cases h with
  | boundary hfirst => exact (faces_at_keyword hfirst.occurs).2
  | atEnd =>
    have hlength : (faces code).length = code.length := by
      rw [faces, List.length_map, length_cells]
    rw [List.drop_length, hlength, List.drop_length]
    rfl

theorem semicolon_notMem_around {stop : Nat}
    (hwhere : Occurs whereKeyword false (faces code) span) (hle : span.stop ≤ stop) :
    ';' ∉ faces code ↔ ';' ∉ (faces code).take span.start ∧
      ';' ∉ ((faces code).take stop).drop span.stop ∧ ';' ∉ (faces code).drop stop := by
  obtain ⟨taken, hspells, htake, -⟩ := exists_spelled hwhere
  have hkeyword : ';' ∉ taken := hspells.notMem (by decide)
  have hsplit : faces code = (faces code).take span.start ++ (taken ++
      (((faces code).take stop).drop span.stop ++ (faces code).drop stop)) := by
    conv_lhs => rw [← List.take_append_drop stop (faces code),
      ← List.take_append_drop span.stop ((faces code).take stop), List.take_take,
      Nat.min_eq_left hle, htake]
    simp only [List.append_assoc]
  conv_lhs => rw [hsplit]
  simp only [List.mem_append, not_or, hkeyword, not_false_eq_true, true_and]

/-- **No text of a statement shows a semicolon exactly if** its body shows none: what the texts
leave out of the body are blanks and a keyword. -/
theorem semicolon_notMem_texts_iff {base : String}
    (hbase : (scanEnd .code base.toList).Unquoted) :
    (∀ text ∈ (shape base).texts, ';' ∉ faces text) ↔
      ';' ∉ faces (chars (body (cells .code base.toList))) := by
  have hblank : Text.isBlank ';' = false := by decide
  obtain ⟨-, -, -, hcells, -, -⟩ := scan_body hbase
  have hfaces : (body (cells .code base.toList)).map Cell.face =
      faces (chars (body (cells .code base.toList))) := by rw [faces, hcells]
  by_cases hnested : isNested ((body (cells .code base.toList)).map Cell.face) = true
  · rw [shape, if_pos hnested]
    exact List.forall_mem_singleton
  rw [Bool.not_eq_true] at hnested
  have hplaced := placed_anyLevel hnested
  rw [hfaces] at hplaced
  have hend : Text.trimEnd (chars (body (cells .code base.toList))) =
      chars (body (cells .code base.toList)) := trimEnd_eq_self fun _ => not_isBlank_last_body
  generalize chars (body (cells .code base.toList)) = code at hplaced hend ⊢
  generalize shape base = shape at hplaced ⊢
  cases hplaced with
  | plain => rw [Shape.texts, List.forall_mem_singleton, hend]
  | divided hwhere hboundary =>
    obtain ⟨htake, hdrop⟩ := faces_at_keyword hboundary.occurs
    rw [Shape.texts, List.forall_mem_cons, List.forall_mem_singleton, mem_faces_trimEnd hblank,
      htake, hdrop, ← not_or, ← List.mem_append, List.take_append_drop]
  | @narrowed keyword stop hwhere hstop =>
    have hle : keyword.stop ≤ stop := hstop.le hwhere.occurs.stop_le.2
    have hfind : find? whereKeyword (faces code) = some keyword := by
      rcases find?_spec whereKeyword (faces code) with ⟨-, hnone⟩ | ⟨first, hfind, hfirst⟩
      · exact absurd trivial (hnone keyword hwhere.occurs (Nat.zero_le _))
      · rw [hfind, hfirst.eq hwhere]
    rw [Shape.texts, List.forall_mem_cons, List.forall_mem_cons, List.forall_mem_singleton,
      mem_faces_trim hblank, mem_faces_trim hblank, (faces_at_keyword hwhere.occurs).1,
      faces_condition hfind hle hstop, faces_behind_condition hstop,
      semicolon_notMem_around hwhere.occurs hle]

end

end Restriction

end Sql

namespace SqlRequest

open Sql Weave

/-! ### Counts -/

/-- What closes the statement that counts the rows of another one. -/
def countClosing : List Char := ") AS t".toList

/-- What opens it. -/
def countOpening : List Char := "SELECT count(*) FROM (".toList

/-- The count of a statement is well nested: what closes it is code, and no statement ends in the
code within. -/
structure WellNested (sql : String) : Prop where
  closing : countClosing.map shown <:+ cells .code (counting sql).toList
  semicolon : ';' ∉ faces sql.toList

theorem isWord_countClosing : IsWord countClosing := by decide

theorem isWord_countOpening : IsWord countOpening := by decide

theorem toList_counting (sql : String) :
    (counting sql).toList = countOpening ++ (sql.toList ++ countClosing) := by
  have hopening : "SELECT count(*) FROM (".toList = countOpening := rfl
  have hclosing : ") AS t".toList = countClosing := rfl
  unfold counting
  simp only [String.toList_append]
  rw [hopening, hclosing, List.append_assoc]

/-- The cells of a count are those of its words and, where the statement within ends, of what closes
it. -/
theorem cells_counting (sql : String) :
    cells .code (counting sql).toList = countOpening.map shown ++
      (cells .code sql.toList ++ cells (scanEnd .code sql.toList) countClosing) := by
  have hcut : Cut .code sql.toList countClosing := cut_of_notMark proper_code fun _ y _ hy =>
    .inr (Option.some.inj hy ▸ by decide)
  have hnil : scanEnd .code [] = .code := rfl
  have hopening := (scan_append_word isWord_countOpening hnil (sql.toList ++ countClosing)).1
  rw [List.nil_append] at hopening
  rw [toList_counting, hopening, hcut.cells_append]
  rfl

/-- **A count is well nested exactly if** the statement within ends in code and has no semicolon in
its code. -/
theorem wellNested_iff {sql : String} :
    WellNested sql ↔ scanEnd .code sql.toList = .code ∧ ';' ∉ faces sql.toList := by
  constructor
  · rintro ⟨hclosing, hsemicolon⟩
    refine ⟨?_, hsemicolon⟩
    rw [cells_counting, ← List.append_assoc] at hclosing
    have hlength : (countClosing.map shown).length =
        (cells (scanEnd .code sql.toList) countClosing).length := by
      rw [List.length_map, length_cells]
    have hsame : countClosing.map shown = cells (scanEnd .code sql.toList) countClosing :=
      (List.suffix_of_suffix_length_le hclosing (List.suffix_append _ _)
        hlength.le).eq_of_length hlength
    have hhead : (cells (scanEnd .code sql.toList) countClosing).head? = some (shown ')') := by
      rw [← hsame]
      decide
    exact eq_code_of_shown (proper_scanEnd proper_code _) hhead (by decide) (by decide)
  · rintro ⟨hcode, hsemicolon⟩
    refine ⟨?_, hsemicolon⟩
    rw [cells_counting, hcode, isWord_countClosing.cells, ← List.append_assoc]
    exact List.suffix_append _ _

/-- **The count of a narrowed statement.** Given a statement in which no quote is left open, the
words that are added show themselves and the count is well nested exactly if no text that has been
trimmed ends with a comment, and neither the body of the statement nor a condition has a semicolon
in its code. -/
theorem wellNested_build_iff {base : String} {predicates : List String}
    (hbase : (scanEnd .code base.toList).Unquoted)
    (hadded : Restriction.added predicates ≠ []) :
    ((Restriction.shape base).weave (Restriction.added predicates)).Shows ∧
        WellNested (predicates.foldl Restriction.add { base }).build ↔
      (∀ text ∈ (Restriction.shape base).trimmed ++ Restriction.added predicates,
          scanEnd .code text = .code) ∧
        ';' ∉ faces (chars (body (cells .code base.toList))) ∧
        ∀ condition ∈ Restriction.added predicates, ';' ∉ faces condition := by
  have hnil : ';' ∉ faces [] := by decide
  rw [wellNested_iff, Restriction.toList_build_foldl hadded, List.forall_mem_append,
    ← (Restriction.inCode_shape_of_unquoted hbase).shows_weave_iff,
    ← Restriction.semicolon_notMem_texts_iff hbase,
    ← Shape.forall_texts_weave (P := (';' ∉ faces ·)) hnil _ hadded]
  refine and_congr_right fun hshows => ?_
  rw [← notMem_faces_iff hshows (Shape.semicolon_notMem_words _ _)]
  exact and_iff_right hshows.2

/-- **The count of a narrowed statement is well nested exactly if** the texts between the added
words, scanned one after another, end in code and show no semicolon. The words may be hidden then:
a comment at the end of a text goes on into the texts behind it until one of them ends it. -/
theorem wellNested_build_iff_inTurn {base : String} {predicates : List String}
    (hadded : Restriction.added predicates ≠ []) :
    let texts := ((Restriction.shape base).weave (Restriction.added predicates)).texts
    WellNested (predicates.foldl Restriction.add { base }).build ↔
      texts.foldl scanEnd .code = .code ∧ ';' ∉ (cellsInTurn .code texts).map Cell.face := by
  intro texts
  obtain ⟨hend, hsemicolon⟩ := scan_parts _ proper_code
    (Shape.inert_words (Restriction.shape base) (Restriction.added predicates))
    (Shape.semicolon_notMem_words _ _) (show ';' ≠ ' ' by decide)
  rw [wellNested_iff, Restriction.toList_build_foldl hadded]
  exact and_congr (iff_of_eq (congrArg (· = Scan.code) hend)) (not_congr hsemicolon)

end SqlRequest

namespace View

open Sql

/-- The conditions that narrow the statement of a query: those of the time window and of the filter,
and what the access rules demand. -/
def fragments [Readers] (view : View) (settings : QuerySettings) (query : Query) :
    Except QueryError (List String × Grant) := do
  let filter ← view.condition query.filter
  let grant ← query.grant settings view.fields
  let rules ← view.condition grant.filter
  return ([SqlRequest.timeFilter query, filter, rules].reduceOption, grant)

theorem foldl_reduceOption (restriction : Restriction) (conditions : List (Option String)) :
    conditions.reduceOption.foldl Restriction.add restriction =
      conditions.foldl Restriction.add? restriction := by
  induction conditions generalizing restriction with
  | nil => rfl
  | cons condition rest ih => cases condition <;> exact ih _

theorem narrowed_eq [Readers] (view : View) (settings : QuerySettings) (query : Query)
    (base : String) :
    view.narrowed settings query base = (view.fragments settings query).map fun found =>
      ((found.1.foldl Restriction.add { base }).build, found.2) := by
  unfold narrowed fragments
  cases view.condition query.filter with
  | error => rfl
  | ok filter =>
    cases query.grant settings view.fields with
    | error => rfl
    | ok grant =>
      simp only [bind, Except.bind]
      cases view.condition grant.filter with
      | error => rfl
      | ok rules =>
        simp only [pure, Except.pure, Except.map, foldl_reduceOption]
        rfl

/-- **When the count of a query is well nested.** The statement that is counted is the one that the
fragments of the query narrow, before it is sorted and paged. If there is no condition it is counted
as it is, so that a comment or a semicolon at its end spoils the count. Else these have been taken
off, and only what is trimmed or what stands within can spoil it: the count is well nested exactly
if the texts between the added words, one after another, end in code and show no semicolon. -/
theorem countSql_wellNested_iff [Readers] {view compiled : View} {settings : QuerySettings}
    {query : Query} {pagination : Pagination} {request : SqlRequest}
    (h : view.sqlRequest settings query pagination = .ok (request, compiled)) :
    ∃ base fragments grant, view.baseSql query = .ok (base, compiled) ∧
      view.fragments settings query = .ok (fragments, grant) ∧
      let filtered := (fragments.foldl Restriction.add { base }).build
      let conditions := Restriction.added fragments
      request.countSql = (if query.needTotal then some (SqlRequest.counting filtered) else none) ∧
        (conditions = [] → (SqlRequest.WellNested filtered ↔
          scanEnd .code base.toList = .code ∧ ';' ∉ faces base.toList)) ∧
        (conditions ≠ [] →
          let texts := ((Restriction.shape base).weave conditions).texts
          (SqlRequest.WellNested filtered ↔ texts.foldl scanEnd .code = .code ∧
            ';' ∉ (cellsInTurn .code texts).map Cell.face)) ∧
        ((scanEnd .code base.toList).Unquoted → conditions ≠ [] →
          (((Restriction.shape base).weave conditions).Shows ∧ SqlRequest.WellNested filtered ↔
            (∀ text ∈ (Restriction.shape base).trimmed ++ conditions,
                scanEnd .code text = .code) ∧
              ';' ∉ faces (chars (body (cells .code base.toList))) ∧
              ∀ condition ∈ conditions, ';' ∉ faces condition)) := by
  obtain ⟨⟨base, compiled⟩, hbase, h⟩ := Result.bind_eq_ok.1 h
  obtain ⟨⟨filtered, grant⟩, hnarrowed, h⟩ := Result.bind_eq_ok.1 h
  obtain ⟨items, -, h⟩ := Result.bind_eq_ok.1 h
  cases h
  rw [narrowed_eq, Result.map_eq_ok] at hnarrowed
  obtain ⟨⟨fragments, grant⟩, hfragments, heq⟩ := hnarrowed
  obtain ⟨rfl, rfl⟩ := Prod.mk.inj heq
  refine ⟨base, fragments, grant, hbase, hfragments, rfl, fun hnone => ?_,
    SqlRequest.wellNested_build_iff_inTurn, SqlRequest.wellNested_build_iff⟩
  have hbuild : (fragments.foldl Restriction.add { base }).build = base := by
    rw [Restriction.conditions_foldl_add, hnone]
    rfl
  rw [hbuild]
  exact SqlRequest.wellNested_iff

/-- A statement of the caller that ends with a semicolon: its count has the semicolon in it, unless
a time window narrows the statement. -/
theorem countSql_wellNested_iff_semicolon :
    let view : View := { id := "orders", metaTableName := "orders", engine := .sql }
    let query : Query := { sql := some "SELECT * FROM orders;", needTotal := true }
    let windowed : Query := { query with dateField := some "at", start := 1000 }
    (∃ request, view.sqlRequest {} query (.offset 0) = .ok (request, view) ∧
      ∃ filtered, request.countSql = some (SqlRequest.counting filtered) ∧
        ¬SqlRequest.WellNested filtered) ∧
    ∃ request, view.sqlRequest {} windowed (.offset 0) = .ok (request, view) ∧
      ∃ filtered, request.countSql = some (SqlRequest.counting filtered) ∧
        SqlRequest.WellNested filtered := by
  intro view query windowed
  have hrequest : view.sqlRequest {} query (.offset 0) = .ok (_, view) := rfl
  have hwindowed : view.sqlRequest {} windowed (.offset 0) = .ok (_, view) := rfl
  refine ⟨⟨_, hrequest, ?_⟩, ⟨_, hwindowed, ?_⟩⟩
  · obtain ⟨base, fragments, grant, hbase, hfragments, hcount, hplain, -⟩ :=
      countSql_wellNested_iff hrequest
    obtain ⟨rfl, -⟩ : "SELECT * FROM orders;" = base ∧ view = view :=
      Prod.mk.inj (Except.ok.inj hbase)
    obtain ⟨rfl, -⟩ : [] = fragments ∧ _ = grant := Prod.mk.inj (Except.ok.inj hfragments)
    refine ⟨_, hcount, fun hnested => ?_⟩
    have hsemicolon := ((hplain rfl).1 hnested).2
    exact absurd hsemicolon (by decide)
  · obtain ⟨base, fragments, grant, hbase, hfragments, hcount, -, hturn, -⟩ :=
      countSql_wellNested_iff hwindowed
    obtain ⟨rfl, -⟩ : "SELECT * FROM orders;" = base ∧ view = view :=
      Prod.mk.inj (Except.ok.inj hbase)
    obtain ⟨rfl, -⟩ : ["\"at\" >= from_unixtime(1)"] = fragments ∧ _ = grant :=
      Prod.mk.inj (Except.ok.inj hfragments)
    exact ⟨_, hcount, (hturn (by decide)).2 ⟨by decide +kernel, by decide +kernel⟩⟩

end View

end ViewCompiler
