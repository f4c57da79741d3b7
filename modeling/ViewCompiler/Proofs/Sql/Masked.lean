import ViewCompiler.Proofs.Sql.Scan
import ViewCompiler.Proofs.Text.Bytes

/-!
# Masked texts

The masked form of a statement has a blank for every byte that is hidden.

* `Sql.length_bytes_maskedText`: **a masked text has the bytes of its statement**, cell by cell.
* `Sql.mask_mask`: **masking twice is masking once.**
* `Sql.Pair`: the marks that the scan takes together behind code; `Sql.cut_of_not_pair`: **texts
  compose where no such pair meets.**
-/

namespace ViewCompiler

namespace Sql

/-- The masked text of cells. -/
def maskedText (cs : List Cell) : List Char := cs.flatMap Cell.masked

theorem toList_mask (sql : String) : (mask sql).toList = maskedText (cells .code sql.toList) :=
  String.toList_ofList

@[simp] theorem maskedText_nil : maskedText [] = [] := rfl

@[simp] theorem maskedText_cons (cell : Cell) (cs : List Cell) :
    maskedText (cell :: cs) = cell.masked ++ maskedText cs := rfl

@[simp] theorem maskedText_append (cs ds : List Cell) :
    maskedText (cs ++ ds) = maskedText cs ++ maskedText ds := List.flatMap_append

@[simp] theorem masked_shown (c : Char) : (shown c).masked = [c] := rfl

@[simp] theorem masked_hidden (c : Char) :
    (hidden c).masked = List.replicate c.utf8Size ' ' := rfl

/-! ### Bytes -/

theorem length_bytes_masked (cell : Cell) :
    (Text.bytes cell.masked).length = cell.char.utf8Size := by
  rw [Cell.masked]
  split
  · rw [Text.length_bytes_cons, Text.bytes_nil, List.length_nil, Nat.add_zero]
  · exact Text.length_bytes_replicate_blank _

/-- **A masked text has the bytes of its statement.** -/
theorem length_bytes_maskedText (cs : List Cell) :
    (Text.bytes (maskedText cs)).length = (Text.bytes (chars cs)).length := by
  induction cs with
  | nil => rfl
  | cons cell rest ih =>
    have hchars : chars (cell :: rest) = cell.char :: chars rest := rfl
    rw [maskedText_cons, Text.bytes_append, List.length_append, length_bytes_masked, ih, hchars,
      Text.length_bytes_cons]

theorem head?_maskedText (cs : List Cell) : (maskedText cs).head? = (cs.map Cell.face).head? := by
  rcases cs with - | ⟨⟨c, visible⟩, rest⟩
  · rfl
  · cases visible with
    | true => rfl
    | false =>
      obtain ⟨n, hn⟩ := Nat.exists_eq_succ_of_ne_zero c.utf8Size_pos.ne'
      simp [Cell.masked, Cell.face, hn, List.replicate_succ]

/-! ### Masking twice -/

/-- Where the scan of a masked text stands: a comment is blank, and so it is code. -/
def Scan.masked : Scan → Scan
  | .quoted quote => .quoted quote
  | _ => .code

theorem Scan.Proper.masked {state : Scan} (h : state.Proper) : state.masked.Proper := by
  cases state with
  | quoted => exact h
  | code | lineComment | blockComment => exact proper_code

theorem masked_ne_lineComment (state : Scan) : state.masked ≠ .lineComment := by
  cases state <;> exact nofun

theorem maskedText_cells_blanks (state : Scan) (n : Nat) :
    maskedText (cells state (List.replicate n ' ')) = List.replicate n ' ' := by
  have hblank : ∀ cell ∈ cells state (List.replicate n ' '), cell.masked = [cell.char] := by
    intro cell hcell
    have hchar : cell.char ∈ chars (cells state (List.replicate n ' ')) :=
      List.mem_map_of_mem hcell
    rw [chars_cells] at hchar
    rw [Cell.masked, List.eq_of_mem_replicate hchar]
    split <;> rfl
  calc maskedText (cells state (List.replicate n ' '))
      = (cells state (List.replicate n ' ')).flatMap fun cell => [cell.char] :=
        List.flatMap_congr hblank
    _ = chars (cells state (List.replicate n ' ')) := List.map_eq_flatMap.symm
    _ = List.replicate n ' ' := chars_cells _ _

theorem cells_blanks_append {state : Scan} (hproper : state.Proper) (hline : state ≠ .lineComment)
    (n : Nat) (more : List Char) :
    cells state (List.replicate n ' ' ++ more) =
      cells state (List.replicate n ' ') ++ cells state more := by
  have hmarks : ∀ c ∈ List.replicate n ' ', isMark c = false := fun c hc => by
    rw [List.eq_of_mem_replicate hc]
    rfl
  have hcut : Cut state (List.replicate n ' ') more := cut_of_notMark hproper fun x _ hx _ =>
    .inl (hmarks x (List.mem_of_getLast? hx))
  rw [hcut.cells_append, scanEnd_of_notMark hproper hline hmarks]

/-- A token is masked again as it is masked, whatever of the rest is blanked out. -/
theorem exists_cells_masked {state : Scan} (hproper : state.Proper) (c : Char)
    (rest more : List Char)
    (hmore : ∀ d, more.head? = some d → d ≠ ' ' → (token state c rest).rest.head? = some d) :
    ∃ again, maskedText again = maskedText (token state c rest).cells ∧
      cells state.masked (maskedText (token state c rest).cells ++ more) =
        again ++ cells (token state c rest).state.masked more := by
  have hblanks (n : Nat) : ∃ again, maskedText again = List.replicate n ' ' ∧
      cells state.masked (List.replicate n ' ' ++ more) = again ++ cells state.masked more :=
    ⟨_, maskedText_cells_blanks _ _,
      cells_blanks_append hproper.masked (masked_ne_lineComment state) n more⟩
  cases state with
  | code =>
    rw [token] at hmore ⊢
    split
    · exact hblanks 2
    next hline =>
    rw [if_neg hline] at hmore
    split
    · exact hblanks 2
    next hblock =>
    rw [if_neg hblock] at hmore
    -- a mark of the rest that shows itself was there before
    have hpair : ∀ x y, y ≠ ' ' → ¬(c = x ∧ rest.head? = some y) →
        ¬(c = x ∧ more.head? = some y) := by
      rintro x y hy hnot ⟨hc, hhead⟩
      refine hnot ⟨hc, ?_⟩
      have := hmore y hhead hy
      split at this <;> exact this
    have htoken : token .code c more =
        if c = '\'' ∨ c = '"' then ⟨[shown c], .quoted c, more⟩ else ⟨[shown c], .code, more⟩ := by
      rw [token, if_neg (hpair '-' '-' (by decide) hline),
        if_neg (hpair '/' '*' (by decide) hblock)]
    split
    · next hquote =>
      rw [if_pos hquote] at htoken
      refine ⟨[shown c], rfl, ?_⟩
      rw [maskedText_cons, masked_shown, maskedText_nil, List.append_nil]
      exact (scan_cons .code c more).1.trans (by rw [htoken]; rfl)
    · next hquote =>
      rw [if_neg hquote] at htoken
      refine ⟨[shown c], rfl, ?_⟩
      rw [maskedText_cons, masked_shown, maskedText_nil, List.append_nil]
      exact (scan_cons .code c more).1.trans (by rw [htoken]; rfl)
  | lineComment =>
    rw [token]
    split
    · next hc =>
      subst hc
      exact ⟨[shown '\n'], rfl, rfl⟩
    · simpa using hblanks c.utf8Size
  | blockComment =>
    rw [token]
    split
    · exact hblanks 2
    · simpa using hblanks c.utf8Size
  | quoted quote =>
    rw [token] at hmore ⊢
    split
    · simpa using hblanks c.utf8Size
    next hc =>
    rw [if_neg hc] at hmore
    obtain rfl := not_not.1 hc
    split
    · simpa using hblanks (c.utf8Size + c.utf8Size)
    next hrest =>
    rw [if_neg hrest] at hmore
    -- the quote that closes is not doubled by what is left of the rest
    have hspace : c ≠ ' ' := fun hblank => by
      have hmark := hproper.isMark
      rw [hblank] at hmark
      exact absurd hmark (by decide)
    have hclose : more.head? ≠ some c := fun hhead => hrest (hmore c hhead hspace)
    refine ⟨[shown c], rfl, ?_⟩
    have hstep := (scan_cons (.quoted c) c more).1
    simpa [token, hclose, Scan.masked] using hstep

/-- What shows itself at the start of a masked text stands at the start of the text. -/
theorem head?_of_maskedText {state : Scan} {cs : List Char} {d : Char}
    (h : (maskedText (cells state cs)).head? = some d) (hd : d ≠ ' ') : cs.head? = some d := by
  rw [head?_maskedText, List.head?_map] at h
  obtain ⟨cell, hcell, rfl⟩ := Option.map_eq_some_iff.1 h
  have hshown := shown_of_face_ne hd
  rw [← chars_cells state cs, chars, List.head?_map, hcell, hshown]
  rfl

/-- **What is masked stays masked.** -/
theorem maskedText_cells_masked {state : Scan} (hproper : state.Proper) (cs : List Char) :
    maskedText (cells state.masked (maskedText (cells state cs))) =
      maskedText (cells state cs) := by
  -- the recursion goes token by token, and so takes one or two characters at a step
  match cs with
  | [] => simp [cells]
  | c :: rest =>
    obtain ⟨again, hagain, hcells⟩ := exists_cells_masked hproper c rest
      (maskedText (cells (token state c rest).state (token state c rest).rest))
      fun d h hd => head?_of_maskedText h hd
    rw [(scan_cons state c rest).1, maskedText_append, hcells, maskedText_append, hagain]
    congr 1
    rcases token_cases state c rest with ⟨cell, next, -, hnext, htoken⟩ |
      ⟨d, more, next, rfl, hnext, htoken⟩
    · rw [htoken rest (.inl rfl)]
      exact maskedText_cells_masked (hnext hproper) rest
    · rw [htoken more]
      exact maskedText_cells_masked (hnext hproper).1 more
termination_by cs.length

/-- **Masking twice is masking once.** -/
theorem mask_mask (sql : String) : mask (mask sql) = mask sql := by
  rw [← String.toList_inj, toList_mask, toList_mask]
  exact maskedText_cells_masked proper_code sql.toList

/-! ### Masking parts -/

/-- The scan stands in code, in a comment or between quotes of the two kinds that open a quoted
text. -/
def Scan.Opened (state : Scan) : Prop :=
  ∀ quote, state = .quoted quote → quote = '\'' ∨ quote = '"'

theorem opened_code : Scan.Opened .code := nofun

theorem opened_lineComment : Scan.Opened .lineComment := nofun

theorem opened_blockComment : Scan.Opened .blockComment := nofun

theorem Scan.Opened.token {state : Scan} (h : state.Opened) (c : Char) (rest : List Char) :
    (token state c rest).state.Opened := by
  cases state with
  | code =>
    rw [Sql.token]
    split
    · exact opened_lineComment
    split
    · exact opened_blockComment
    split
    · next hquote =>
      intro quote heq
      obtain rfl := Scan.quoted.inj heq
      exact hquote
    · exact opened_code
  | lineComment =>
    rw [Sql.token]
    split
    · exact opened_code
    · exact opened_lineComment
  | blockComment =>
    rw [Sql.token]
    split
    · exact opened_code
    · exact opened_blockComment
  | quoted quote =>
    rw [Sql.token]
    split
    · exact h
    split
    · exact h
    · exact opened_code

/-- The marks that the scan takes together where a text that ends in code goes on: those that open
a comment, and two equal quotes. -/
def Pair (x y : Char) : Prop :=
  x = '-' ∧ y = '-' ∨ x = '/' ∧ y = '*' ∨ x = y ∧ (x = '\'' ∨ x = '"')

/-- Two marks that are taken together, of which the first alone would leave the scan in code. -/
theorem pair_of_token {state next : Scan} (h : state.Opened) {c d : Char} {more : List Char}
    (hpair : token state c (d :: more) = ⟨[hidden c, hidden d], next, more⟩)
    (hcode : scanEnd state [c] = .code) : Pair c d := by
  have hlength : (token state c (d :: more)).cells.length = 2 := by rw [hpair]; rfl
  cases state with
  | code =>
    rw [token] at hlength
    split at hlength
    · next hline => exact .inl ⟨hline.1, by simpa using hline.2⟩
    split at hlength
    · next hblock => exact .inr (.inl ⟨hblock.1, by simpa using hblock.2⟩)
    split at hlength <;> cases hlength
  | lineComment =>
    rw [token] at hlength
    split at hlength <;> cases hlength
  | blockComment =>
    rw [(scan_cons .blockComment c []).2] at hcode
    simp [token, scanEnd] at hcode
  | quoted quote =>
    rw [token] at hlength
    split at hlength
    · cases hlength
    next hc =>
    obtain rfl := not_not.1 hc
    split at hlength
    · next hd => exact .inr (.inr ⟨(by simpa using hd.symm), h c rfl⟩)
    · cases hlength

/-- **Texts compose behind code** where no pair of marks meets. -/
theorem cut_of_not_pair {state : Scan} (h : state.Opened) {before after : List Char}
    (hcode : scanEnd state before = .code)
    (hmeet : ∀ x y, before.getLast? = some x → after.head? = some y → ¬Pair x y) :
    Cut state before after := by
  -- the induction goes token by token, and so takes one or two characters at a step
  induction hlength : before.length using Nat.strong_induction_on generalizing state before with
  | h length ih =>
    subst hlength
    rcases before with - | ⟨c, rest⟩
    · exact ⟨by simp [cells, scanEnd], by simp [scanEnd]⟩
    have hopened := h.token c (rest ++ after)
    rcases token_cases state c (rest ++ after) with ⟨cell, next, -, -, htoken⟩ |
      ⟨d, more, next, hmore, -, htoken⟩
    · have hscan := scan_single htoken
      have hnext := (hscan [] (.inl rfl)).2
      rw [List.append_nil, List.append_nil] at hnext
      rw [htoken _ (.inl rfl)] at hopened
      have hrest : Cut next rest after := ih rest.length (by simp) hopened (hnext.symm.trans hcode)
        (fun x y hx => hmeet x y (by simp [List.getLast?_cons, hx])) rfl
      exact hrest.append_lead hscan
    · rcases rest with - | ⟨e, rest⟩
      · -- the pair would lie across the cut
        obtain rfl : after = d :: more := hmore
        exact absurd (pair_of_token h (htoken more) hcode) (hmeet c d rfl rfl)
      · obtain ⟨rfl, -⟩ := List.cons_eq_cons.1 hmore
        have hscan := scan_pair htoken rest
        have hnext := (hscan []).2
        rw [List.append_nil, List.append_nil] at hnext
        rw [List.cons_append, htoken] at hopened
        have hlt : rest.length < (c :: e :: rest).length :=
          (Nat.lt_succ_self _).trans (Nat.lt_succ_self _)
        have hrest : Cut next rest after := ih rest.length hlt hopened (hnext.symm.trans hcode)
          (fun x y hx => hmeet x y (by simp [List.getLast?_cons, hx])) rfl
        exact hrest.append_lead fun behind _ => hscan behind

/-- **The masked texts of parts** that meet behind code, one after the other. -/
theorem mask_append {sql other : String} (hcode : scanEnd .code sql.toList = .code)
    (hmeet : ∀ x y, sql.toList.getLast? = some x → other.toList.head? = some y → ¬Pair x y) :
    mask (sql ++ other) = mask sql ++ mask other := by
  have hcut := cut_of_not_pair opened_code hcode hmeet
  rw [← String.toList_inj, String.toList_append, toList_mask, toList_mask, toList_mask,
    String.toList_append, hcut.cells_append, maskedText_append, hcode]

end Sql

end ViewCompiler
