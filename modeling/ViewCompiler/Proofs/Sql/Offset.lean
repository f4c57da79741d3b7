import ViewCompiler.Proofs.Sql.Page
import ViewCompiler.Proofs.Sql.Search
import ViewCompiler.Proofs.Sql.Where

/-!
# Statements cut at byte offsets

A search of a masked statement gives byte offsets, and the statement itself is cut there. A cut
fails if no character of the statement starts at its offset.

* `Sql.addPageByOffset`, `Sql.Restriction.buildByOffset`: the rewritings of a statement with every
  place given as an offset into its masked text.
* `Sql.addPageByOffset_eq`, `Sql.Restriction.buildByOffset_eq`: **no cut fails, and the statements
  are those that are found character by character.**
* `Sql.mask_faithful`: **a masked statement has the offsets of the statement**, and masking goes
  part by part.
-/

namespace ViewCompiler

namespace Sql

/-! ### Cuts of cells -/

@[simp] theorem chars_nil : chars [] = [] := rfl

@[simp] theorem chars_append (cs ds : List Cell) : chars (cs ++ ds) = chars cs ++ chars ds :=
  List.map_append

@[simp] theorem length_chars (cs : List Cell) : (chars cs).length = cs.length := List.length_map _

section

variable (before part after : List Cell)

theorem take_chars : (chars (before ++ after)).take before.length = chars before := by
  rw [chars_append, List.take_left' (length_chars before)]

theorem drop_chars : (chars (before ++ after)).drop before.length = chars after := by
  rw [chars_append, List.drop_left' (length_chars before)]

/-- The offset of a place between cells is the same in both texts. -/
theorem offsetAt_maskedText :
    Text.offsetAt (maskedText (before ++ after)) (maskedText before).length =
      (Text.bytes (chars before)).length := by
  rw [Text.offsetAt, maskedText_append, List.take_left, length_bytes_maskedText]

theorem slice?_chars :
    Text.slice? (Text.bytes (chars before)).length (Text.bytes (chars (before ++ part))).length
      (chars (before ++ (part ++ after))) = some (chars part) := by
  rw [← List.append_assoc, chars_append (before ++ part), chars_append before]
  exact Text.slice?_append ..

theorem slice?_chars_start :
    Text.slice? 0 (Text.bytes (chars part)).length (chars (part ++ after)) = some (chars part) :=
  slice?_chars [] part after

theorem slice?_chars_end :
    Text.slice? (Text.bytes (chars before)).length (Text.bytes (chars (before ++ part))).length
      (chars (before ++ part)) = some (chars part) := by
  simpa using slice?_chars before part []

end

/-! ### The body of a statement -/

/-- The byte offset behind the body of a masked statement. -/
def cutOffset (masked : List Char) : Nat :=
  (Text.bytes (Text.trimEnd (Text.dropEndWhile (· = ';') (Text.trimEnd masked)))).length

theorem cutOffset_mask (sql : String) :
    cutOffset (mask sql).toList = (Text.bytes (chars (body (cells .code sql.toList)))).length := by
  have hbody (cs : List Cell) : Text.trimEnd (Text.dropEndWhile (· = ';')
      (Text.trimEnd (maskedText cs))) = maskedText (body cs) := by
    simp only [Text.trimEnd, dropEndWhile_maskedText]
    rfl
  rw [cutOffset, toList_mask, hbody, length_bytes_maskedText]

/-! ### Limits by offsets -/

/-- The characters of a text, the first of which is at `offset`, without those at whose offset the
masked statement has a semicolon. -/
def withoutSemicolonsAt (masked : List UInt8) (offset : Nat) : List Char → List Char
  | [] => []
  | c :: rest =>
    let kept := withoutSemicolonsAt masked (offset + c.utf8Size) rest
    if masked[offset]? = some 59 then kept else c :: kept

/-- The statement with a limit, unless it has one; nothing if a cut fails. -/
def addPageByOffset (sql : String) (limit offset : Nat) : Option String :=
  let masked := (mask sql).toList
  if endsWithLimit false masked then some sql
  else do
    let cut := cutOffset masked
    let (front, back) ← Text.splitAt? cut sql.toList
    let tail := Text.trim (withoutSemicolonsAt (Text.bytes masked) cut back)
    let paged := String.ofList (Text.trimEnd front) ++ " " ++ pageClause limit offset
    return if tail.isEmpty then paged else paged ++ " " ++ String.ofList tail

/-- A masked cell starts with the byte of a semicolon exactly if it looks like one. -/
theorem head?_bytes_masked_eq_semicolon_iff {cell : Cell} :
    (Text.bytes cell.masked).head? = some 59 ↔ cell.face = ';' := by
  obtain ⟨n, hmasked, -⟩ := exists_masked_eq cell
  have hne : String.utf8EncodeChar cell.face ≠ [] := by
    rw [← List.length_pos_iff, String.length_utf8EncodeChar]
    exact cell.face.utf8Size_pos
  rw [hmasked, List.replicate_succ, Text.bytes_cons, List.head?_append_of_ne_nil _ hne,
    Text.head?_utf8EncodeChar_eq_semicolon_iff]

theorem withoutSemicolonsAt_maskedText (front cs : List Cell) :
    withoutSemicolonsAt (Text.bytes (maskedText (front ++ cs)))
      (Text.bytes (chars front)).length (chars cs) = chars (withoutSemicolons cs) := by
  induction cs generalizing front with
  | nil => rfl
  | cons cell rest ih =>
    have hbyte :
        (Text.bytes (maskedText (front ++ cell :: rest)))[(Text.bytes (chars front)).length]? =
          (Text.bytes cell.masked).head? := by
      rw [maskedText_append, Text.bytes_append, ← length_bytes_maskedText,
        List.getElem?_append_right (Nat.le_refl _), Nat.sub_self, maskedText_cons,
        Text.bytes_append, ← List.head?_eq_getElem?, List.head?_append_of_ne_nil]
      rw [← List.length_pos_iff, length_bytes_masked]
      exact cell.char.utf8Size_pos
    have hnext : (Text.bytes (chars front)).length + cell.char.utf8Size =
        (Text.bytes (chars (front ++ [cell]))).length := by simp
    have hrest := ih (front ++ [cell])
    rw [List.append_assoc, List.singleton_append] at hrest
    rw [chars_cons, withoutSemicolonsAt, hbyte, hnext, hrest]
    simp only [head?_bytes_masked_eq_semicolon_iff]
    by_cases hface : cell.face = ';'
    · simp [hface, withoutSemicolons]
    · simp [hface, withoutSemicolons]

/-- **No cut of a statement that takes a limit fails.** -/
theorem addPageByOffset_eq (sql : String) (limit offset : Nat) :
    addPageByOffset sql limit offset = some (addPage sql limit offset) := by
  obtain ⟨dropped, hcells, -⟩ := body_spec (cells .code sql.toList)
  have hdrop : (cells .code sql.toList).drop (body (cells .code sql.toList)).length = dropped :=
    (congrArg (List.drop _) hcells).trans List.drop_left
  have hsplit : Text.splitAt? (cutOffset (mask sql).toList) sql.toList =
      some (chars (body (cells .code sql.toList)), chars dropped) := by
    rw [cutOffset_mask, ← Text.splitAt?_append, ← chars_append, ← hcells, chars_cells]
  have htail : withoutSemicolonsAt (Text.bytes (mask sql).toList) (cutOffset (mask sql).toList)
      (chars dropped) = chars (withoutSemicolons dropped) := by
    have h := withoutSemicolonsAt_maskedText (body (cells .code sql.toList)) dropped
    rwa [← hcells, ← toList_mask, ← cutOffset_mask] at h
  rw [addPageByOffset, addPage, hasLimit_eq]
  split
  · rfl
  · simp only [hsplit, htail, hdrop, Option.bind_eq_bind, Option.bind_some, Option.pure_def]
    rfl

/-! ### Conditions by offsets -/

namespace Restriction

/-- How the body of a statement takes conditions, cut where its masked text says; nothing if a cut
fails. -/
def cutShape (masked code : List Char) : Option Shape :=
  let stop := (Text.bytes code).length
  if isNested masked then some (.nested code)
  else match find? whereKeyword masked with
    | some keyword => do
      let boundary := match findAfter? boundaryKeyword masked keyword.stop with
        | some span => Text.offsetAt masked span.start
        | none => stop
      let before ← Text.slice? 0 (Text.offsetAt masked keyword.start) code
      let existing ← Text.slice? (Text.offsetAt masked keyword.stop) boundary code
      let rest ← Text.slice? boundary stop code
      return .narrowed before existing rest
    | none => match find? boundaryKeyword masked with
      | some span => do
        let before ← Text.slice? 0 (Text.offsetAt masked span.start) code
        let rest ← Text.slice? (Text.offsetAt masked span.start) stop code
        return .divided before rest
      | none => some (.plain code)

/-- How a statement takes conditions; nothing if a cut fails. -/
def shapeByOffset (base : String) : Option Shape := do
  let masked ← Text.slice? 0 (cutOffset (mask base).toList) (mask base).toList
  let code ← Text.slice? 0 (cutOffset (mask base).toList) base.toList
  cutShape masked code

/-- The narrowed statement; nothing if a cut fails. -/
def buildByOffset (restriction : Restriction) : Option String :=
  if restriction.conditions.isEmpty then some restriction.base
  else (shapeByOffset restriction.base).map fun shape =>
    String.ofList (shape.weave (restriction.conditions.map String.toList)).text

/-- **No cut of the body of a statement fails.** -/
theorem cutShape_eq (base : String) :
    cutShape (maskedText (body (cells .code base.toList)))
      (chars (body (cells .code base.toList))) = some (shape base) := by
  rw [cutShape, shape, isNested_maskedText]
  generalize body (cells .code base.toList) = kept
  split
  · rfl
  rcases Steady.whereKeyword.find kept with
    ⟨hlooks, hmasked⟩ | ⟨before, taken, behind, rfl, hlooks, hmasked⟩
  · -- without a condition the first clause is looked for
    simp only [hlooks, hmasked]
    rcases Steady.boundaryKeyword.find kept with
      ⟨hlooks, hmasked⟩ | ⟨before, taken, behind, rfl, hlooks, hmasked⟩
    · simp only [hlooks, hmasked]
    · simp only [hlooks, hmasked, Nat.zero_add, offsetAt_maskedText, take_chars, drop_chars,
        slice?_chars_start, slice?_chars_end]
      rfl
  · rw [Nat.zero_add, ← List.length_append] at hlooks
    rw [Nat.zero_add, ← List.length_append, ← maskedText_append] at hmasked
    have hstart : Text.offsetAt (maskedText (before ++ (taken ++ behind)))
        (maskedText before).length = (Text.bytes (chars before)).length := offsetAt_maskedText ..
    have hbefore : Text.slice? 0 (Text.bytes (chars before)).length
        (chars (before ++ (taken ++ behind))) = some (chars before) := slice?_chars_start ..
    have htake := take_chars before (taken ++ behind)
    rw [← List.append_assoc] at hlooks hmasked hstart hbefore htake ⊢
    simp only [hlooks, hmasked, hstart, hbefore, htake]
    generalize before ++ taken = front
    rcases Steady.boundaryKeyword.findAfter front behind with
      ⟨hlooks, hmasked⟩ | ⟨existing, word, rest, rfl, hlooks, hmasked⟩
    · -- the condition goes on to the end of the statement
      have hrest : Text.slice? (Text.bytes (chars (front ++ behind))).length
          (Text.bytes (chars (front ++ behind))).length (chars (front ++ behind)) = some [] := by
        simpa using slice?_chars_end (front ++ behind) []
      simp only [hlooks, hmasked, hrest, offsetAt_maskedText, slice?_chars_end, List.take_length,
        List.drop_length, drop_chars]
      rfl
    · -- the condition ends where the next clause starts
      rw [← List.length_append] at hlooks
      rw [← List.length_append, ← maskedText_append] at hmasked
      have hexisting := slice?_chars front existing (word ++ rest)
      have hstop := offsetAt_maskedText front (existing ++ (word ++ rest))
      rw [← List.append_assoc front] at hlooks hmasked hexisting hstop ⊢
      simp only [hlooks, hmasked, hexisting, hstop, offsetAt_maskedText, slice?_chars_end,
        take_chars, drop_chars]
      rfl

theorem shapeByOffset_eq (base : String) : shapeByOffset base = some (shape base) := by
  obtain ⟨dropped, hcells, -⟩ := body_spec (cells .code base.toList)
  have hmasked : Text.slice? 0 (cutOffset (mask base).toList) (mask base).toList =
      some (maskedText (body (cells .code base.toList))) := by
    have h := Text.slice?_zero (maskedText (body (cells .code base.toList))) (maskedText dropped)
    rwa [← maskedText_append, ← hcells, length_bytes_maskedText, ← cutOffset_mask,
      ← toList_mask] at h
  have hcode : Text.slice? 0 (cutOffset (mask base).toList) base.toList =
      some (chars (body (cells .code base.toList))) := by
    have h := slice?_chars_start (body (cells .code base.toList)) dropped
    rwa [← hcells, chars_cells, ← cutOffset_mask] at h
  simp only [shapeByOffset, hmasked, hcode, Option.bind_eq_bind, Option.bind_some, cutShape_eq]

/-- **No cut of a statement that takes conditions fails.** -/
theorem buildByOffset_eq (restriction : Restriction) :
    buildByOffset restriction = some restriction.build := by
  rw [buildByOffset]
  split
  · next hempty => rw [build, if_pos hempty]
  · next hempty =>
    have hconditions : restriction.conditions ≠ [] := by simpa using hempty
    rw [shapeByOffset_eq, Option.map_some, ← weave, ← toList_build hconditions,
      String.ofList_toList]

end Restriction

/-! ### The offsets of masked statements -/

/-- At the byte offset of every character of `cs` the other text has this character, or a blank for
each of its bytes. -/
def KeepsOffsets (cs masked : List Char) : Prop :=
  ∀ before c after, cs = before ++ c :: after → ∃ front here back, masked = front ++ here ++ back ∧
    (Text.bytes front).length = (Text.bytes before).length ∧
    (here = [c] ∨ here = List.replicate c.utf8Size ' ')

theorem keepsOffsets_maskedText (cs : List Cell) : KeepsOffsets (chars cs) (maskedText cs) := by
  intro before c after h
  obtain ⟨front, cellsBehind, rfl, rfl, hbehind⟩ := List.map_eq_append_iff.1 h
  obtain ⟨cell, rest, rfl, rfl, rfl⟩ := List.map_eq_cons_iff.1 hbehind
  refine ⟨maskedText front, cell.masked, maskedText rest, ?_, length_bytes_maskedText front, ?_⟩
  · rw [maskedText_append, maskedText_cons, List.append_assoc]
  · rw [Cell.masked]
    split
    · exact .inl rfl
    · exact .inr rfl

/-- **A masked statement has the offsets of the statement**: no cut at an offset of the masked
statement fails, masking twice is masking once, and texts that meet behind code with no pair of
marks are masked one after the other. -/
theorem mask_faithful (sql : String) :
    (mask sql).utf8ByteSize = sql.utf8ByteSize ∧
      KeepsOffsets sql.toList (mask sql).toList ∧
      (∀ limit offset, addPageByOffset sql limit offset = some (addPage sql limit offset)) ∧
      (∀ conditions, Restriction.buildByOffset ⟨sql, conditions⟩ =
        some (Restriction.build ⟨sql, conditions⟩)) ∧
      mask (mask sql) = mask sql ∧
      ∀ other : String, scanEnd .code sql.toList = .code →
        (∀ x y, sql.toList.getLast? = some x → other.toList.head? = some y → ¬Pair x y) →
        mask (sql ++ other) = mask sql ++ mask other := by
  refine ⟨?_, ?_, addPageByOffset_eq sql, fun conditions => Restriction.buildByOffset_eq _,
    mask_mask sql, fun other => mask_append⟩
  · rw [Text.utf8ByteSize_eq, Text.utf8ByteSize_eq, toList_mask, length_bytes_maskedText,
      chars_cells]
  · have h := keepsOffsets_maskedText (cells .code sql.toList)
    rwa [chars_cells, ← toList_mask] at h

theorem mask_faithful_accented :
    mask "SELECT 'é'" = "SELECT '  '" ∧
      scanEnd .code "SELECT 'é'".toList = .code ∧ ¬Pair '\'' ' ' ∧
      mask ("SELECT 'é'" ++ " FROM t") = mask "SELECT 'é'" ++ mask " FROM t" ∧
      addPageByOffset "SELECT 'é'" 5 0 = some "SELECT 'é' LIMIT 5" := by
  have hcode : scanEnd .code "SELECT 'é'".toList = .code := by decide
  have hpair : ¬Pair '\'' ' ' := by simp [Pair]
  obtain ⟨-, -, hpage, -, -, happend⟩ := mask_faithful "SELECT 'é'"
  refine ⟨by decide, hcode, hpair, happend " FROM t" hcode ?_, (hpage 5 0).trans ?_⟩
  · rintro x y hx hy
    obtain rfl : '\'' = x := Option.some.inj hx
    obtain rfl : ' ' = y := Option.some.inj hy
    exact hpair
  · decide

end Sql

end ViewCompiler
