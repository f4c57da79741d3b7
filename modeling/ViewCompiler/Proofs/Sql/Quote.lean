import ViewCompiler.Proofs.Sql.Closed
import ViewCompiler.Proofs.Sql.Keyword
import ViewCompiler.Proofs.Sql.Limit
import ViewCompiler.Proofs.Sql.Masked

/-!
# Quoted texts in statements

* `Sql.undoubled`: the text that stands between two quotes with its quotes doubled;
  `Sql.undoubled_doubled`: **quoting can be undone.**
* `Sql.cells_append_enclosed`: within a statement a quoted text shows its two quotes, and all else
  of the statement is scanned as without it.
* `Sql.TakesCode`: what a keyword takes has no marks in it, so that no keyword reaches into a quoted
  text.
* `Sql.quoted_sealed`: **no content of a quoted text ends it or is seen by a search.**
-/

namespace ViewCompiler

namespace Sql

/-! ### Doubled quotes -/

/-- The text with every pair of quotes made one. -/
def undoubled (quote : Char) : List Char → List Char
  | [] => []
  | [c] => [c]
  | c :: d :: rest =>
    if c = quote ∧ d = quote then c :: undoubled quote rest else c :: undoubled quote (d :: rest)

theorem undoubled_cons_of_ne {quote c : Char} (h : c ≠ quote) (cs : List Char) :
    undoubled quote (c :: cs) = c :: undoubled quote cs := by
  cases cs with
  | nil => rfl
  | cons d rest => rw [undoubled, if_neg fun hboth => h hboth.1]

/-- **Quoting can be undone.** -/
theorem undoubled_doubled (quote : Char) (cs : List Char) :
    undoubled quote (doubled quote cs) = cs := by
  induction cs with
  | nil => rfl
  | cons c rest ih =>
    rw [doubled]
    split
    · next hc => rw [undoubled, if_pos ⟨hc, hc⟩, ih]
    · next hc => rw [undoubled_cons_of_ne hc, ih]

/-! ### Quoted texts within statements -/

section

variable {quote : Char} {before after : List Char}

theorem maskedText_map_hidden (cs : List Char) :
    maskedText (cs.map hidden) = List.replicate (Text.bytes cs).length ' ' := by
  induction cs with
  | nil => rfl
  | cons c rest ih =>
    rw [List.map_cons, maskedText_cons, masked_hidden, ih, Text.length_bytes_cons,
      List.replicate_add]

theorem map_face_hidden (cs : List Char) :
    (cs.map hidden).map Cell.face = List.replicate cs.length ' ' := by
  rw [List.map_map, List.eq_replicate_iff]
  refine ⟨List.length_map _, fun c hc => ?_⟩
  obtain ⟨d, -, rfl⟩ := List.mem_map.1 hc
  rfl

theorem not_pair_quote (hquote : quote = '\'' ∨ quote = '"') {c : Char} (hc : c ≠ quote) :
    ¬Pair quote c ∧ ¬Pair c quote := by
  have hminus : quote ≠ '-' := by rcases hquote with rfl | rfl <;> decide
  have hslash : quote ≠ '/' := by rcases hquote with rfl | rfl <;> decide
  have hstar : quote ≠ '*' := by rcases hquote with rfl | rfl <;> decide
  constructor
  · rintro (⟨h, -⟩ | ⟨h, -⟩ | ⟨h, -⟩)
    · exact hminus h
    · exact hslash h
    · exact hc h.symm
  · rintro (⟨-, h⟩ | ⟨-, h⟩ | ⟨h, -⟩)
    · exact hminus h
    · exact hstar h
    · exact hc h

/-- **A quoted text shows its two quotes**, and all else of the statement is scanned without it. -/
theorem cells_append_enclosed (hquote : quote = '\'' ∨ quote = '"')
    (hcode : scanEnd .code before = .code) (hlast : before.getLast? ≠ some quote)
    (hfirst : after.head? ≠ some quote) (cs : List Char) :
    cells .code (before ++ (enclosed quote cs ++ after)) =
      cells .code before ++
        (shown quote :: ((doubled quote cs).map hidden ++ shown quote :: cells .code after)) := by
  have hends := (closed_enclosed hquote cs).scanEnd_eq
  have hbefore : Cut .code before (enclosed quote cs ++ after) :=
    cut_of_not_pair opened_code hcode fun x y hx hy => by
      obtain rfl : quote = y := Option.some.inj hy
      exact (not_pair_quote hquote fun heq => hlast (heq ▸ hx)).2
  have hafter : Cut .code (enclosed quote cs) after :=
    cut_of_not_pair opened_code hends fun x y hx hy => by
      rw [enclosed, List.cons_append, ← List.cons_append, List.getLast?_concat] at hx
      obtain rfl : quote = x := Option.some.inj hx
      exact (not_pair_quote hquote fun heq => hfirst (heq ▸ hy)).1
  rw [hbefore.cells_append, hcode, hafter.cells_append, hends, cells_enclosed hquote]
  simp

end

/-! ### Keywords and quotes -/

/-- What the matcher takes has no marks in it. -/
def TakesCode (matcher : Matcher) : Prop :=
  ∀ cs after, matcher cs = some after → ∃ taken, cs = taken ++ after ∧ ∀ c ∈ taken, isMark c = false

namespace TakesCode

variable {first second matcher : Matcher}

theorem bind (hfirst : TakesCode first) (hsecond : TakesCode second) :
    TakesCode fun cs => (first cs).bind second := by
  intro cs after h
  obtain ⟨between, hbetween, hafter⟩ := Option.bind_eq_some_iff.1 h
  obtain ⟨taken, rfl, htaken⟩ := hfirst cs between hbetween
  obtain ⟨more, rfl, hmore⟩ := hsecond between after hafter
  exact ⟨taken ++ more, (List.append_assoc ..).symm, List.forall_mem_append.2 ⟨htaken, hmore⟩⟩

theorem orElse (hfirst : TakesCode first) (hsecond : TakesCode second) :
    TakesCode fun cs => first cs <|> second cs := by
  intro cs after h
  cases hmatch : first cs with
  | none => exact hsecond cs after (by simpa [hmatch] using h)
  | some rest => exact hfirst cs after (by simpa [hmatch] using h)

theorem whole (h : TakesCode matcher) : TakesCode (Sql.whole matcher) :=
  fun cs after hmatch => h cs after (whole_eq_some hmatch)

theorem word {letters : List Char}
    (h : (letters.all fun letter => marks.all fun mark => !isLetter letter mark) = true) :
    TakesCode (Sql.word letters) := by
  intro cs after hmatch
  obtain ⟨taken, rfl, htaken⟩ := word_eq_some hmatch
  refine ⟨taken, rfl, fun c hc => ?_⟩
  obtain ⟨letter, hletter, hc⟩ := htaken c hc
  exact isMark_of_property (List.all_eq_true.1 h letter hletter) hc

theorem afterRun {p : Char → Bool} (h : (marks.all fun mark => !p mark) = true) :
    TakesCode (Sql.afterRun p) := by
  intro cs after hmatch
  obtain ⟨run, rfl, hrun, -⟩ := afterRun_eq_some_iff.1 hmatch
  exact ⟨run, rfl, fun c hc => isMark_of_property h (hrun.all c hc)⟩

theorem blanks : TakesCode Sql.blanks := blanks_eq ▸ afterRun (by decide)

theorem digits : TakesCode Sql.digits := digits_eq ▸ afterRun (by decide)

theorem commaCount : TakesCode Sql.commaCount := by
  intro cs after hmatch
  obtain ⟨gap, behind, number, rfl, hgap, hbehind, hnumber, -⟩ := commaCount_eq_some_iff.1 hmatch
  refine ⟨gap ++ ',' :: (behind ++ number), by simp, ?_⟩
  simp only [List.forall_mem_append, List.forall_mem_cons]
  exact ⟨fun c hc => isMark_of_isBlank (hgap c hc), by decide,
    fun c hc => isMark_of_isBlank (hbehind c hc),
    fun c hc => isMark_of_property (by decide) (hnumber.all c hc)⟩

theorem offsetCount : TakesCode Sql.offsetCount :=
  ((blanks.bind (word (by decide))).bind blanks).bind digits

theorem limitCount : TakesCode fun cs =>
    ((Sql.word ['l', 'i', 'm', 'i', 't'] cs).bind Sql.blanks).bind Sql.digits :=
  ((word (by decide)).bind blanks).bind digits

theorem selectKeyword : TakesCode Sql.selectKeyword := (word (by decide)).whole

theorem whereKeyword : TakesCode Sql.whereKeyword := (word (by decide)).whole

theorem wordPair {letters others : List Char}
    (hletters : (letters.all fun letter => marks.all fun mark => !isLetter letter mark) = true)
    (hothers : (others.all fun letter => marks.all fun mark => !isLetter letter mark) = true) :
    TakesCode (Sql.wordPair letters others) := ((word hletters).bind blanks).bind (word hothers)

theorem boundaryKeyword : TakesCode Sql.boundaryKeyword :=
  ((wordPair (by decide) (by decide)).orElse <| (wordPair (by decide) (by decide)).orElse <|
    (word (by decide)).orElse (word (by decide))).whole

theorem findFrom (h : TakesCode matcher) {shown : List Char} {position : Nat} {inWord : Bool}
    {span : Span} (hspan : findFrom matcher position inWord (shown.drop position) = some span) :
    (∃ c, shown[span.start]? = some c ∧ Text.isWordChar c = true) ∧
      ∀ i, span.start ≤ i → i < span.stop → ∃ c, shown[i]? = some c ∧ isMark c = false := by
  obtain ⟨skipped, c, rest, after, hdrop, hword, hmatch, hstart, hstop⟩ := findFrom_eq_some hspan
  obtain ⟨taken, htaken, hmarks⟩ := h _ _ hmatch
  have hat (i : Nat) : shown[span.start + i]? = (c :: rest)[i]? := by
    rw [hstart, Nat.add_assoc, ← List.getElem?_drop, hdrop, List.getElem?_append_right (by omega),
      Nat.add_sub_cancel_left]
  refine ⟨⟨c, hat 0, hword⟩, fun i hle hlt => ?_⟩
  have hlength : rest.length + 1 = taken.length + after.length := by
    rw [← List.length_append, ← htaken, List.length_cons]
  obtain ⟨k, rfl⟩ := Nat.exists_eq_add_of_le hle
  have hk : k < taken.length := by omega
  refine ⟨taken[k], ?_, hmarks _ (List.getElem_mem hk)⟩
  rw [hat, htaken, List.getElem?_append_left hk, List.getElem?_eq_getElem hk]

end TakesCode

theorem takesCode_keyword {matcher : Matcher} (h : matcher = selectKeyword ∨
    matcher = whereKeyword ∨ matcher = boundaryKeyword) : TakesCode matcher := by
  rcases h with rfl | rfl | rfl
  · exact .selectKeyword
  · exact .whereKeyword
  · exact .boundaryKeyword

theorem isMark_of_isTrailingLimit {cs : List Char} (h : isTrailingLimit cs = true) :
    ∀ c ∈ cs, isMark c = false := by
  have hend {rest : List Char} (hrest : isClauseEnd rest = true) : ∀ c ∈ rest, isMark c = false :=
    fun c hc => isMark_of_property (by decide) ((isClauseEnd_iff.1 hrest).1 c hc)
  have hcount {matcher : Matcher} (hcode : TakesCode matcher) {rest : List Char}
      (hrest : (matcher rest).any isClauseEnd = true) : ∀ c ∈ rest, isMark c = false := by
    obtain ⟨after, hafter, hclause⟩ := (Option.any_eq_true ..).1 hrest
    obtain ⟨taken, rfl, htaken⟩ := hcode rest after hafter
    exact List.forall_mem_append.2 ⟨htaken, hend hclause⟩
  rw [isTrailingLimit] at h
  split at h
  · cases h
  · next rest hmatch =>
    obtain ⟨taken, rfl, htaken⟩ := TakesCode.limitCount cs rest hmatch
    refine List.forall_mem_append.2 ⟨htaken, ?_⟩
    rw [Bool.or_eq_true, Bool.or_eq_true] at h
    rcases h with (h | h) | h
    · exact hend h
    · exact hcount TakesCode.commaCount h
    · exact hcount TakesCode.offsetCount h

/-- A text ends with a limit if it does so behind its last mark. -/
theorem endsWithLimit_append_mark {mark : Char} (hmark : isMark mark = true) (inWord : Bool)
    (before after : List Char) :
    endsWithLimit inWord (before ++ mark :: after) = endsWithLimit false after := by
  have hnone {cs : List Char} (hmem : mark ∈ cs) : isTrailingLimit cs = false := by
    by_contra hlimit
    have hfalse := isMark_of_isTrailingLimit (Bool.not_eq_false _ ▸ hlimit) mark hmem
    rw [hmark] at hfalse
    cases hfalse
  have hword : Text.isWordChar mark = false := by
    by_contra hword
    have hfalse := isMark_of_isWordChar (Bool.not_eq_false _ ▸ hword)
    rw [hmark] at hfalse
    cases hfalse
  induction before generalizing inWord with
  | nil =>
    rw [List.nil_append, endsWithLimit, hnone List.mem_cons_self, Bool.and_false, Bool.false_or,
      hword]
  | cons c rest ih =>
    rw [List.cons_append, endsWithLimit, hnone (by simp), Bool.and_false, Bool.false_or, ih]

/-! ### Sealed texts -/

/-- A quoted text can stand between these texts: the scan is in code, and no other quote of its kind
comes next to its quotes. -/
structure Place (quote : Char) (before after : String) : Prop where
  code : scanEnd .code before.toList = .code
  last : before.toList.getLast? ≠ some quote
  first : after.toList.head? ≠ some quote

/-- A text between quotes, of which nothing but its quotes counts for the statement it is in. -/
structure Sealed (quote : Char) (content quoted : String) : Prop where
  /-- Between its quotes stands the content with its quotes doubled. -/
  text : quoted.toList = quote :: (doubled quote content.toList ++ [quote])
  /-- The content can be had back. -/
  undoubled : undoubled quote (doubled quote content.toList) = content.toList
  /-- The text is masked by its quotes and a blank for every byte between them, whatever follows. -/
  mask_append (after : String) (hfirst : after.toList.head? ≠ some quote) :
    (mask (quoted ++ after)).toList =
      quote :: (List.replicate (Text.bytes (doubled quote content.toList)).length ' ' ++
        quote :: (mask after).toList)
  /-- Within a statement a search sees the two quotes, blanks between them and the rest as it is. -/
  faces_append {before after : String} (hplace : Place quote before after) :
    faces (before ++ quoted ++ after).toList =
      faces before.toList ++ quote :: (List.replicate (doubled quote content.toList).length ' ' ++
        quote :: faces after.toList)
  /-- Keywords are found before it or behind it. -/
  keyword_outside {before after : String} (hplace : Place quote before after)
    {matcher : Matcher} (hmatcher : matcher = selectKeyword ∨ matcher = whereKeyword ∨
      matcher = boundaryKeyword) {position : Nat} {inWord : Bool} {span : Span}
    (hspan : findFrom matcher position inWord
      ((faces (before ++ quoted ++ after).toList).drop position) = some span) :
    span.stop ≤ before.length ∨ before.length + quoted.length ≤ span.start
  /-- Only a limit behind it is a limit of the statement. -/
  hasLimit_append {before after : String} (hplace : Place quote before after) :
    hasLimit (before ++ quoted ++ after) = hasLimit after

section

variable {quote : Char}

theorem isMark_quote (hquote : quote = '\'' ∨ quote = '"') : isMark quote = true := by
  rcases hquote with rfl | rfl <;> rfl

/-- What is found among code is found outside of a quoted text. -/
theorem TakesCode.outside {matcher : Matcher} (h : TakesCode matcher) (hmark : isMark quote = true)
    {before after : List Char} {n position : Nat} {inWord : Bool} {span : Span}
    (hspan : Sql.findFrom matcher position inWord
      ((before ++ quote :: (List.replicate n ' ' ++ quote :: after)).drop position) = some span) :
    span.stop ≤ before.length ∨ before.length + (n + 2) ≤ span.start := by
  obtain ⟨⟨c, hc, hword⟩, hcode⟩ := h.findFrom hspan
  by_cases hstart : span.start < before.length
  · -- a match that starts before the text would have to take its first quote
    refine .inl (not_lt.1 fun hlt => ?_)
    obtain ⟨d, hd, hdcode⟩ := hcode before.length hstart.le hlt
    rw [List.getElem?_append_right (Nat.le_refl _), Nat.sub_self] at hd
    obtain rfl : quote = d := Option.some.inj hd
    rw [hmark] at hdcode
    cases hdcode
  · refine .inr (not_lt.1 fun hlt => ?_)
    obtain ⟨k, hk⟩ := Nat.exists_eq_add_of_le (not_lt.1 hstart)
    -- no character between the quotes, and neither of the quotes, starts a word
    have hmem : c ∈ quote :: (List.replicate n ' ' ++ [quote]) := by
      have hsplit : before ++ quote :: (List.replicate n ' ' ++ quote :: after) =
          before ++ ((quote :: (List.replicate n ' ' ++ [quote])) ++ after) := by simp
      rw [hsplit, hk, List.getElem?_append_right (Nat.le_add_right ..), Nat.add_sub_cancel_left,
        List.getElem?_append_left (by simp; omega)] at hc
      exact List.mem_of_getElem? hc
    have hnot : c = quote ∨ c = ' ' := by
      simp only [List.mem_cons, List.mem_append, List.mem_replicate, List.not_mem_nil] at hmem
      tauto
    rcases hnot with rfl | rfl
    · rw [isMark_of_isWordChar hword] at hmark
      cases hmark
    · exact absurd hword (by decide)

/-- A quoted text is masked by its quotes and the blanks between them, and what follows is masked as
it would be alone. -/
theorem mask_enclosed_append (hquote : quote = '\'' ∨ quote = '"') (content : String)
    {after : String} (hfirst : after.toList.head? ≠ some quote) :
    (mask (String.ofList (enclosed quote content.toList) ++ after)).toList =
      quote :: (List.replicate (Text.bytes (doubled quote content.toList)).length ' ' ++
        quote :: (mask after).toList) := by
  have hcells := @cells_append_enclosed quote [] _ hquote rfl (by simp) hfirst content.toList
  rw [List.nil_append, cells, List.nil_append] at hcells
  rw [toList_mask, toList_mask, String.toList_append, String.toList_ofList, hcells,
    maskedText_cons, maskedText_append, maskedText_map_hidden]
  rfl

theorem faces_append_enclosed (hquote : quote = '\'' ∨ quote = '"') (content : String)
    {before after : String} (hplace : Place quote before after) :
    faces (before ++ String.ofList (enclosed quote content.toList) ++ after).toList =
      faces before.toList ++ quote :: (List.replicate (doubled quote content.toList).length ' ' ++
        quote :: faces after.toList) := by
  have hcells := cells_append_enclosed hquote hplace.code hplace.last hplace.first content.toList
  rw [String.toList_append, String.toList_append, String.toList_ofList, List.append_assoc, faces,
    hcells, List.map_append, List.map_cons, List.map_append, map_face_hidden, List.map_cons]
  rfl

/-- **A text between quotes is sealed.** -/
theorem sealed_enclosed (hquote : quote = '\'' ∨ quote = '"') (content : String) :
    Sealed quote content (String.ofList (enclosed quote content.toList)) where
  text := String.toList_ofList
  undoubled := undoubled_doubled ..
  mask_append _ hfirst := mask_enclosed_append hquote content hfirst
  faces_append hplace := faces_append_enclosed hquote content hplace
  keyword_outside {before after} hplace {matcher} hmatcher {position inWord span} hspan := by
    have hlength : (faces before.toList).length = before.length := by
      rw [faces, List.length_map, length_cells, String.length_toList]
    have hquoted : (String.ofList (enclosed quote content.toList)).length =
        (doubled quote content.toList).length + 2 := by
      rw [String.length_ofList, enclosed, List.length_append, List.length_cons]
      rfl
    rw [faces_append_enclosed hquote content hplace] at hspan
    rw [hquoted, ← hlength]
    exact (takesCode_keyword hmatcher).outside (isMark_quote hquote) hspan
  hasLimit_append hplace := by
    rw [hasLimit, faces_append_enclosed hquote content hplace, ← List.cons_append,
      ← List.append_assoc, endsWithLimit_append_mark (isMark_quote hquote), hasLimit]

end

/-- **No content of a quoted text or name ends it or is seen by a search.** -/
theorem quoted_sealed (s : String) :
    Sealed '\'' s (quoteString s) ∧ Sealed '"' s (quoteIdent s) :=
  ⟨sealed_enclosed (.inl rfl) s, sealed_enclosed (.inr rfl) s⟩

theorem quoted_sealed_hostile :
    Place '\'' "SELECT * FROM t WHERE a = " " AND b" ∧
      mask (quoteString "é' LIMIT 5 --" ++ " AND b") = "'               ' AND b" ∧
      hasLimit ("SELECT * FROM t WHERE a = " ++ quoteString "é' LIMIT 5 --" ++ " AND b") =
        false := by
  have hplace : Place '\'' "SELECT * FROM t WHERE a = " " AND b" :=
    ⟨by decide, by decide, by decide⟩
  obtain ⟨hsealed, -⟩ := quoted_sealed "é' LIMIT 5 --"
  refine ⟨hplace, ?_, (hsealed.hasLimit_append hplace).trans (by decide)⟩
  rw [← String.toList_inj, hsealed.mask_append " AND b" hplace.first]
  decide

end Sql

end ViewCompiler
