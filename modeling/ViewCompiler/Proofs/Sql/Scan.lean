import ViewCompiler.Sql.Page
import Mathlib.Data.List.DropRight

/-!
# Scans of composed statements

The scan of a statement looks one character ahead, so it does not simply go on from one text to the
next: the first text may end within a token.

* `Sql.token`: the first token of a text, of one character or of two.
* `Sql.Cut`: no token lies across the cut between two texts, so that their scans compose.
* `Sql.cut_or_straddles`: **a cut fails only if a token of two marks lies across it**, and then the
  characters on both sides are hidden.
* `Sql.CodeAt`: the scan of a statement stands in code at a position, as it does before every word
  that shows itself.
* `Sql.scan_body`: the body of a statement ends in code unless the statement ends within quotes.
-/

namespace ViewCompiler

namespace Sql

/-! ### Tokens -/

/-- A token at the start of a text. -/
structure Scan.Token where
  /-- The cells of the token. -/
  cells : List Cell
  /-- Where the scan stands behind it. -/
  state : Scan
  /-- The text behind it. -/
  rest : List Char

/-- The first token of a text. -/
def token (state : Scan) (c : Char) (rest : List Char) : Scan.Token :=
  match state with
  | .code =>
    if c = '-' ∧ rest.head? = some '-' then
      ⟨[hidden '-', hidden '-'], .lineComment, rest.tail⟩
    else if c = '/' ∧ rest.head? = some '*' then
      ⟨[hidden '/', hidden '*'], .blockComment, rest.tail⟩
    else if c = '\'' ∨ c = '"' then ⟨[shown c], .quoted c, rest⟩
    else ⟨[shown c], .code, rest⟩
  | .lineComment =>
    if c = '\n' then ⟨[shown c], .code, rest⟩ else ⟨[hidden c], .lineComment, rest⟩
  | .blockComment =>
    if c = '*' ∧ rest.head? = some '/' then ⟨[hidden '*', hidden '/'], .code, rest.tail⟩
    else ⟨[hidden c], .blockComment, rest⟩
  | .quoted quote =>
    if c ≠ quote then ⟨[hidden c], .quoted quote, rest⟩
    else if rest.head? = some quote then ⟨[hidden c, hidden quote], .quoted quote, rest.tail⟩
    else ⟨[shown c], .code, rest⟩

theorem scan_cons (state : Scan) (c : Char) (rest : List Char) :
    cells state (c :: rest) =
        (token state c rest).cells ++ cells (token state c rest).state (token state c rest).rest ∧
      scanEnd state (c :: rest) =
        scanEnd (token state c rest).state (token state c rest).rest := by
  cases state with
  | code =>
    rw [token]
    split
    · next h =>
      obtain ⟨rfl, hrest⟩ := h
      obtain ⟨more, rfl⟩ := List.head?_eq_some_iff.1 hrest
      exact ⟨rfl, rfl⟩
    next hline =>
    split
    · next h =>
      obtain ⟨rfl, hrest⟩ := h
      obtain ⟨more, rfl⟩ := List.head?_eq_some_iff.1 hrest
      exact ⟨rfl, rfl⟩
    next hblock =>
    -- neither pair is there, which is what the equations of the scan ask for
    have hline : ∀ more, c = '-' → rest = '-' :: more → False := fun more hc hrest =>
      hline ⟨hc, by rw [hrest, List.head?_cons]⟩
    have hblock : ∀ more, c = '/' → rest = '*' :: more → False := fun more hc hrest =>
      hblock ⟨hc, by rw [hrest, List.head?_cons]⟩
    rw [cells, scanEnd]
    · by_cases hquote : c = '\'' ∨ c = '"' <;> simp [hquote]
    all_goals assumption
  | lineComment =>
    rw [cells, scanEnd, token]
    split <;> exact ⟨rfl, rfl⟩
  | blockComment =>
    rw [token]
    split
    · next h =>
      obtain ⟨rfl, hrest⟩ := h
      obtain ⟨more, rfl⟩ := List.head?_eq_some_iff.1 hrest
      exact ⟨rfl, rfl⟩
    next hclose =>
    have hclose : ∀ more, c = '*' → rest = '/' :: more → False := fun more hc hrest =>
      hclose ⟨hc, by rw [hrest, List.head?_cons]⟩
    rw [cells, scanEnd]
    · exact ⟨rfl, rfl⟩
    all_goals assumption
  | quoted quote =>
    rcases rest with - | ⟨d, rest⟩
    · by_cases hc : c = quote <;> simp [cells, scanEnd, token, hc]
    · by_cases hc : c = quote
      · by_cases hd : d = quote <;> simp [cells, scanEnd, token, hc, hd]
      · simp [cells, scanEnd, token, hc]

/-- The characters that the scan looks at in pairs. -/
def marks : List Char := ['-', '/', '*', '\'', '"']

/-- Does the scan look at the character together with its neighbour? -/
def isMark (c : Char) : Bool := marks.contains c

theorem isMark_of_property {p : Char → Bool} (hmarks : (marks.all fun mark => !p mark) = true)
    {c : Char} (h : p c = true) : isMark c = false := by
  have hnot : c ∉ marks := fun hmem => by
    simpa [h] using List.all_eq_true.1 hmarks c hmem
  simpa [isMark] using hnot

theorem isMark_of_isWordChar {c : Char} (h : Text.isWordChar c = true) : isMark c = false :=
  isMark_of_property (by decide) h

theorem isMark_of_isBlank {c : Char} (h : Text.isBlank c = true) : isMark c = false :=
  isMark_of_property (by decide) h

/-- What stands between quotes stands between quotes of a kind that opens them. -/
def Scan.Proper (state : Scan) : Prop :=
  ∀ quote, state = .quoted quote → quote = '\'' ∨ quote = '"'

theorem proper_code : Scan.Proper .code := nofun

theorem Scan.Proper.isMark {quote : Char} (h : Scan.Proper (.quoted quote)) :
    isMark quote = true := by
  rcases h quote rfl with rfl | rfl <;> rfl

theorem head?_of_or {rest other : List Char} (h : other.head? = rest.head? ∨ other = []) {d : Char}
    (hd : other.head? = some d) : rest.head? = some d := by
  rcases h with h | rfl
  · rw [← h, hd]
  · simp at hd

/-- A token is one character, whatever follows, or a pair of marks that is hidden. -/
theorem token_cases (state : Scan) (c : Char) (rest : List Char) :
    (∃ cell next, cell.char = c ∧ (state.Proper → next.Proper) ∧
      ∀ other : List Char, other.head? = rest.head? ∨ other = [] →
        token state c other = ⟨[cell], next, other⟩) ∨
    ∃ d more next, rest = d :: more ∧
      (state.Proper → next.Proper ∧ isMark c = true ∧ isMark d = true) ∧
      ∀ other, token state c (d :: other) = ⟨[hidden c, hidden d], next, other⟩ := by
  cases state with
  | code =>
    by_cases hline : c = '-' ∧ rest.head? = some '-'
    · obtain ⟨rfl, hrest⟩ := hline
      obtain ⟨more, rfl⟩ := List.head?_eq_some_iff.1 hrest
      exact .inr ⟨'-', more, .lineComment, rfl, fun _ => ⟨nofun, rfl, rfl⟩, fun _ => rfl⟩
    by_cases hblock : c = '/' ∧ rest.head? = some '*'
    · obtain ⟨rfl, hrest⟩ := hblock
      obtain ⟨more, rfl⟩ := List.head?_eq_some_iff.1 hrest
      exact .inr ⟨'*', more, .blockComment, rfl, fun _ => ⟨nofun, rfl, rfl⟩, fun _ => rfl⟩
    refine .inl ⟨shown c, if c = '\'' ∨ c = '"' then .quoted c else .code, rfl,
      fun _ quote hq => ?_, fun other hother => ?_⟩
    · split at hq
      · next hquote =>
        obtain rfl := Scan.quoted.inj hq
        exact hquote
      · cases hq
    · rw [token, if_neg fun h => hline ⟨h.1, head?_of_or hother h.2⟩,
        if_neg fun h => hblock ⟨h.1, head?_of_or hother h.2⟩]
      split <;> rfl
  | lineComment =>
    left
    by_cases hc : c = '\n'
    · exact ⟨shown c, .code, rfl, fun _ => nofun, fun other _ => by rw [token, if_pos hc]⟩
    · exact ⟨hidden c, .lineComment, rfl, fun _ => nofun, fun other _ => by rw [token, if_neg hc]⟩
  | blockComment =>
    by_cases hclose : c = '*' ∧ rest.head? = some '/'
    · obtain ⟨rfl, hrest⟩ := hclose
      obtain ⟨more, rfl⟩ := List.head?_eq_some_iff.1 hrest
      exact .inr ⟨'/', more, .code, rfl, fun _ => ⟨nofun, rfl, rfl⟩, fun _ => rfl⟩
    · refine .inl ⟨hidden c, .blockComment, rfl, fun _ => nofun, fun other hother => ?_⟩
      rw [token, if_neg fun h => hclose ⟨h.1, head?_of_or hother h.2⟩]
  | quoted quote =>
    by_cases hc : c = quote
    · subst hc
      by_cases hrest : rest.head? = some c
      · obtain ⟨more, rfl⟩ := List.head?_eq_some_iff.1 hrest
        exact .inr ⟨c, more, .quoted c, rfl, fun h => ⟨h, h.isMark, h.isMark⟩,
          fun other => by simp [token]⟩
      · refine .inl ⟨shown c, .code, rfl, fun _ => nofun, fun other hother => ?_⟩
        rw [token, if_neg (not_not.2 rfl), if_neg fun h => hrest (head?_of_or hother h)]
    · exact .inl ⟨hidden c, .quoted quote, rfl, id, fun other _ => by rw [token, if_pos hc]⟩

theorem chars_cells (state : Scan) (cs : List Char) : chars (cells state cs) = cs := by
  match cs with
  | [] => simp [chars, cells]
  | c :: rest =>
    rw [(scan_cons state c rest).1]
    rcases token_cases state c rest with ⟨cell, next, hcell, -, htoken⟩ |
      ⟨d, more, next, rfl, -, htoken⟩
    · rw [htoken rest (.inl rfl)]
      simpa [chars, hcell] using chars_cells next rest
    · rw [htoken more]
      simpa [chars, hidden] using chars_cells next more
termination_by cs.length

theorem length_cells (state : Scan) (cs : List Char) : (cells state cs).length = cs.length := by
  conv_rhs => rw [← chars_cells state cs, chars, List.length_map]

/-! ### Cuts -/

/-- No token lies across the cut between two texts. -/
structure Cut (state : Scan) (before after : List Char) : Prop where
  cells_append : cells state (before ++ after) =
    cells state before ++ cells (scanEnd state before) after
  scanEnd_append : scanEnd state (before ++ after) = scanEnd (scanEnd state before) after

/-- A pair of marks lies across the cut between two texts: both of them are hidden. -/
def Straddles (state : Scan) (before after : List Char) : Prop :=
  ∃ x y, before.getLast? = some x ∧ after.head? = some y ∧
    (state.Proper → isMark x = true ∧ isMark y = true) ∧
    (cells state (before ++ after))[before.length - 1]? = some (hidden x) ∧
    (cells state (before ++ after))[before.length]? = some (hidden y)

theorem scan_single {state next : Scan} {c : Char} {cell : Cell} {rest after : List Char}
    (htoken : ∀ other : List Char, other.head? = (rest ++ after).head? ∨ other = [] →
      token state c other = ⟨[cell], next, other⟩) (behind : List Char)
    (hbehind : behind = [] ∨ behind = after) :
    cells state ([c] ++ rest ++ behind) = [cell] ++ cells next (rest ++ behind) ∧
      scanEnd state ([c] ++ rest ++ behind) = scanEnd next (rest ++ behind) := by
  have hhead : (rest ++ behind).head? = (rest ++ after).head? ∨ rest ++ behind = [] := by
    rcases hbehind with rfl | rfl
    · cases rest <;> simp
    · exact .inl rfl
  have hstep := scan_cons state c (rest ++ behind)
  rwa [htoken _ hhead] at hstep

theorem scan_pair {state next : Scan} {c d : Char} {both : List Cell}
    (htoken : ∀ other, token state c (d :: other) = ⟨both, next, other⟩) (rest behind : List Char) :
    cells state ([c, d] ++ rest ++ behind) = both ++ cells next (rest ++ behind) ∧
      scanEnd state ([c, d] ++ rest ++ behind) = scanEnd next (rest ++ behind) := by
  have hstep := scan_cons state c (d :: (rest ++ behind))
  rwa [htoken] at hstep

theorem Cut.append_lead {state next : Scan} {before after lead : List Char} {front : List Cell}
    (h : Cut next before after)
    (hscan : ∀ behind, behind = [] ∨ behind = after →
      cells state (lead ++ before ++ behind) = front ++ cells next (before ++ behind) ∧
        scanEnd state (lead ++ before ++ behind) = scanEnd next (before ++ behind)) :
    Cut state (lead ++ before) after := by
  obtain ⟨hcells, hend⟩ := hscan after (.inr rfl)
  obtain ⟨hcells', hend'⟩ := hscan [] (.inl rfl)
  rw [List.append_nil, List.append_nil] at hcells' hend'
  exact ⟨by rw [hcells, hcells', hend', h.cells_append, List.append_assoc],
    by rw [hend, hend', h.scanEnd_append]⟩

/-- What happens at a cut does not depend on tokens that lie wholly before it. -/
theorem cut_or_straddles_append {state next : Scan} {before after : List Char}
    (lead : List Char) (front : List Cell) (hlength : front.length = lead.length)
    (hproper : state.Proper → next.Proper)
    (hscan : ∀ behind, behind = [] ∨ behind = after →
      cells state (lead ++ before ++ behind) = front ++ cells next (before ++ behind) ∧
        scanEnd state (lead ++ before ++ behind) = scanEnd next (before ++ behind))
    (h : Cut next before after ∨ Straddles next before after) :
    Cut state (lead ++ before) after ∨ Straddles state (lead ++ before) after := by
  obtain ⟨hcells, -⟩ := hscan after (.inr rfl)
  rcases h with hcut | ⟨x, y, hx, hy, hmark, hlast, hfirst⟩
  · exact .inl (hcut.append_lead hscan)
  · have hne : before ≠ [] := fun hnil => by simp [hnil] at hx
    have hpos : 0 < before.length := List.length_pos_iff.2 hne
    -- the cells of the lead push those at the cut back by its length
    have hshift (i : Nat) : (cells state (lead ++ before ++ after))[lead.length + i]? =
        (cells next (before ++ after))[i]? := by
      rw [hcells, List.getElem?_append_right (by omega), hlength, Nat.add_sub_cancel_left]
    refine .inr ⟨x, y, ?_, hy, fun h => hmark (hproper h), ?_, ?_⟩
    · rw [List.getLast?_append_of_ne_nil _ hne, hx]
    · rw [List.length_append, Nat.add_sub_assoc hpos, hshift, hlast]
    · rw [List.length_append, hshift, hfirst]

/-- **A cut fails only if a pair lies across it**: marks on both sides, both of them hidden. -/
theorem cut_or_straddles (state : Scan) (before after : List Char) :
    Cut state before after ∨ Straddles state before after := by
  -- the recursion goes token by token, and so takes one or two characters at a step
  match before with
  | [] => exact .inl ⟨by simp [cells, scanEnd], by simp [scanEnd]⟩
  | c :: rest =>
    rcases token_cases state c (rest ++ after) with ⟨cell, next, -, hproper, htoken⟩ |
      ⟨d, more, next, hmore, hproper, htoken⟩
    · exact cut_or_straddles_append [c] [cell] rfl hproper (scan_single htoken)
        (cut_or_straddles next rest after)
    · rcases rest with - | ⟨e, rest⟩
      · -- the pair lies across the cut
        obtain rfl : after = d :: more := hmore
        have hcells := (scan_cons state c (d :: more)).1
        rw [htoken more] at hcells
        refine .inr ⟨c, d, rfl, rfl, fun h => (hproper h).2, ?_, ?_⟩
        · rw [List.cons_append, List.nil_append, hcells]
          rfl
        · rw [List.cons_append, List.nil_append, hcells]
          rfl
      · obtain ⟨rfl, -⟩ := List.cons_eq_cons.1 hmore
        exact cut_or_straddles_append [c, e] [hidden c, hidden e] rfl
          (fun h => (hproper h).1) (fun behind _ => scan_pair htoken rest behind)
          (cut_or_straddles next rest after)
termination_by before.length

theorem proper_scanEnd {state : Scan} (h : state.Proper) (cs : List Char) :
    (scanEnd state cs).Proper := by
  match cs with
  | [] => simpa [scanEnd] using h
  | c :: rest =>
    rw [(scan_cons state c rest).2]
    rcases token_cases state c rest with ⟨cell, next, -, hproper, htoken⟩ |
      ⟨d, more, next, rfl, hproper, htoken⟩
    · rw [htoken rest (.inl rfl)]
      exact proper_scanEnd (hproper h) rest
    · rw [htoken more]
      exact proper_scanEnd (hproper h).1 more
termination_by cs.length

variable {state : Scan} {before after : List Char} {c x y : Char}

/-- Texts compose where one of the characters at the cut is no mark. -/
theorem cut_of_notMark (hproper : state.Proper)
    (h : ∀ x y, before.getLast? = some x → after.head? = some y →
      isMark x = false ∨ isMark y = false) : Cut state before after := by
  rcases cut_or_straddles state before after with hcut | ⟨x, y, hx, hy, hmark, -⟩
  · exact hcut
  · rcases h x y hx hy with hnot | hnot
    · simp [(hmark hproper).1] at hnot
    · simp [(hmark hproper).2] at hnot

theorem cut_of_shown_first (h : (cells state (before ++ after))[before.length]? = some (shown y)) :
    Cut state before after := by
  rcases cut_or_straddles state before after with hcut | ⟨_, _, -, -, -, -, hfirst⟩
  · exact hcut
  · simp [hfirst, shown, hidden] at h

theorem cut_of_shown_last
    (h : (cells state (before ++ after))[before.length - 1]? = some (shown x)) :
    Cut state before after := by
  rcases cut_or_straddles state before after with hcut | ⟨_, _, -, -, -, hlast, -⟩
  · exact hcut
  · simp [hlast, shown, hidden] at h

theorem scanEnd_of_notMark (hproper : state.Proper) (hline : state ≠ .lineComment)
    {cs : List Char} (h : ∀ c ∈ cs, isMark c = false) : scanEnd state cs = state := by
  induction cs with
  | nil => simp [scanEnd]
  | cons c rest ih =>
    rw [List.forall_mem_cons] at h
    have hne : ∀ mark, isMark mark = true → c ≠ mark := fun mark hmark heq => by
      simp [← heq, h.1] at hmark
    have htoken : (token state c rest).state = state ∧ (token state c rest).rest = rest := by
      cases state with
      | code => simp [token, hne '-' rfl, hne '/' rfl, hne '\'' rfl, hne '"' rfl]
      | lineComment => exact absurd rfl hline
      | blockComment => simp [token, hne '*' rfl]
      | quoted quote => simp [token, hne quote hproper.isMark]
    rw [(scan_cons state c rest).2, htoken.1, htoken.2, ih h.2]

theorem scan_code_append (h : ∀ c ∈ before, isMark c = false) (after : List Char) :
    cells .code (before ++ after) = cells .code before ++ cells .code after ∧
      scanEnd .code (before ++ after) = scanEnd .code after := by
  have hcut : Cut .code before after := cut_of_notMark proper_code fun x _ hx _ =>
    .inl (h x (List.mem_of_getLast? hx))
  rw [hcut.cells_append, hcut.scanEnd_append, scanEnd_of_notMark proper_code nofun h]
  exact ⟨rfl, rfl⟩

/-- Apart from marks and line ends only code shows itself. -/
theorem eq_code_of_shown (hproper : state.Proper) {cs : List Char}
    (h : (cells state cs).head? = some (shown c)) (hline : c ≠ '\n') (hmark : isMark c = false) :
    state = .code := by
  rcases cs with - | ⟨d, rest⟩
  · simp [cells] at h
  rw [(scan_cons state d rest).1] at h
  cases state with
  | code => rfl
  | lineComment =>
    rw [token] at h
    split at h
    · next hd => exact absurd (by simpa [shown, hd] using h.symm) hline
    · simp [shown, hidden] at h
  | blockComment =>
    rw [token] at h
    split at h <;> simp [shown, hidden] at h
  | quoted quote =>
    rw [token] at h
    split at h
    · simp [shown, hidden] at h
    · next hd =>
      split at h
      · simp [shown, hidden] at h
      · obtain rfl : d = c := by simpa [shown] using h
        obtain rfl := not_not.1 hd
        simp [hproper.isMark] at hmark

theorem shown_of_face_ne {cell : Cell} (h : cell.face ≠ ' ') : cell = shown cell.face := by
  obtain ⟨c, visible⟩ := cell
  cases visible with
  | true => rfl
  | false => exact absurd rfl h

/-- The scan of a statement stands in code at a position. -/
structure CodeAt (cs : List Char) (position : Nat) : Prop where
  cells_take : cells .code (cs.take position) = (cells .code cs).take position
  scanEnd_take : scanEnd .code (cs.take position) = .code
  cells_drop : cells .code (cs.drop position) = (cells .code cs).drop position
  scanEnd_drop : scanEnd .code (cs.drop position) = scanEnd .code cs

theorem codeAt_of_isWordChar {cs : List Char} {i : Nat}
    (h : ((cells .code cs).map Cell.face)[i]? = some c) (hword : Text.isWordChar c = true) :
    CodeAt cs i := by
  have hline : c ≠ '\n' := fun hc => absurd (hc ▸ hword) (by decide)
  have hspace : c ≠ ' ' := fun hc => absurd (hc ▸ hword) (by decide)
  obtain ⟨cell, hcell, rfl⟩ : ∃ cell, (cells .code cs)[i]? = some cell ∧ cell.face = c := by
    simpa using h
  rw [shown_of_face_ne hspace] at hcell
  have hi : i < cs.length := by
    rw [← length_cells .code cs]
    exact (List.getElem?_eq_some_iff.1 hcell).1
  have hlength : (cells .code (cs.take i)).length = i := by
    rw [length_cells, List.length_take_of_le hi.le]
  have hcut : Cut .code (cs.take i) (cs.drop i) := by
    refine cut_of_shown_first (y := cell.face) ?_
    rw [List.take_append_drop, List.length_take_of_le hi.le, hcell]
  have happend := hcut.cells_append
  have hend := hcut.scanEnd_append
  rw [List.take_append_drop] at happend hend
  have hhead : (cells (scanEnd .code (cs.take i)) (cs.drop i)).head? = some (shown cell.face) := by
    rw [happend, List.getElem?_append_right hlength.le, hlength, Nat.sub_self] at hcell
    rw [List.head?_eq_getElem?, hcell]
  have hcode : scanEnd .code (cs.take i) = .code :=
    eq_code_of_shown (proper_scanEnd proper_code _) hhead hline (isMark_of_isWordChar hword)
  rw [hcode] at happend hend
  exact ⟨by rw [happend, List.take_left' hlength], hcode, by rw [happend, List.drop_left' hlength],
    hend.symm⟩

/-! ### Bodies of statements -/

/-- The scan stands outside of quotes. -/
def Scan.Unquoted (state : Scan) : Prop := ∀ quote, state ≠ .quoted quote

theorem unquoted_code : Scan.Unquoted .code := nofun

theorem unquoted_lineComment : Scan.Unquoted .lineComment := nofun

theorem unquoted_blockComment : Scan.Unquoted .blockComment := nofun

/-- A quote that is closed shows itself where it closes. -/
theorem exists_shown_of_quoted {quote : Char} {cs : List Char}
    (h : (scanEnd (.quoted quote) cs).Unquoted) : shown quote ∈ cells (.quoted quote) cs := by
  match cs with
  | [] => exact absurd rfl (h quote)
  | c :: rest =>
    obtain ⟨hcells, hend⟩ := scan_cons (.quoted quote) c rest
    rw [hcells]
    rw [hend] at h
    rw [token] at h ⊢
    split
    · next hc =>
      rw [if_pos hc] at h
      exact List.mem_append_right _ (exists_shown_of_quoted h)
    · next hc =>
      rw [if_neg hc] at h
      obtain rfl := not_not.1 hc
      split
      · next hrest =>
        rw [if_pos hrest] at h
        exact List.mem_append_right _ (exists_shown_of_quoted h)
      · exact List.mem_append_left _ List.mem_cons_self
termination_by cs.length
decreasing_by all_goals grind

/-- Behind a character that shows itself the scan stands in code, or else the character has opened
a quote. -/
theorem token_of_shown (h : (token state x []).cells.getLast? = some (shown c)) :
    (token state x []).state = .code ∨
      isMark c = true ∧ (token state x []).state = .quoted c := by
  cases state with
  | code =>
    by_cases hquote : x = '\'' ∨ x = '"'
    · obtain rfl : x = c := by simpa [token, hquote, shown] using h
      refine .inr ⟨?_, by simp [token, hquote]⟩
      rcases hquote with rfl | rfl <;> rfl
    · exact .inl (by simp [token, hquote])
  | lineComment =>
    by_cases hline : x = '\n'
    · exact .inl (by simp [token, hline])
    · simp [token, hline, shown, hidden] at h
  | blockComment => simp [token, shown, hidden] at h
  | quoted quote =>
    by_cases hquote : x = quote
    · exact .inl (by simp [token, hquote])
    · simp [token, hquote, shown, hidden] at h

theorem scanEnd_of_shown_last {cs : List Char}
    (h : (cells state cs).getLast? = some (shown c)) :
    scanEnd state cs = .code ∨ isMark c = true ∧ scanEnd state cs = .quoted c := by
  rcases List.eq_nil_or_concat' cs with rfl | ⟨before, x, rfl⟩
  · simp [cells] at h
  have hlast : (cells state (before ++ [x]))[before.length]? = some (shown c) := by
    rw [List.getLast?_eq_getElem?, length_cells] at h
    simpa using h
  have hcut : Cut state before [x] := cut_of_shown_first hlast
  obtain ⟨hcells, hend⟩ := scan_cons (scanEnd state before) x []
  obtain ⟨cell, next, -, -, htoken⟩ | ⟨_, _, _, hnil, -⟩ := token_cases (scanEnd state before) x []
  · have hshown : (token (scanEnd state before) x []).cells.getLast? = some (shown c) := by
      rw [hcut.cells_append, hcells, htoken [] (.inl rfl)] at h
      rw [htoken [] (.inl rfl)]
      simpa [cells] using h
    have hstate := token_of_shown hshown
    rw [htoken [] (.inl rfl)] at hend hstate
    rwa [hcut.scanEnd_append, hend, scanEnd]
  · cases hnil

/-- The body of a statement is a beginning of it that ends with a character that shows itself; only
blanks and semicolons show themselves behind it. -/
theorem body_spec (cs : List Cell) :
    ∃ rest, cs = body cs ++ rest ∧
      (∀ cell, (body cs).getLast? = some cell → Text.isBlank cell.face = false) ∧
      ∀ cell ∈ rest, Text.isBlank cell.face = true ∨ cell.face = ';' := by
  let blank (cell : Cell) : Bool := Text.isBlank cell.face
  let semicolon (cell : Cell) : Bool := cell.face = ';'
  let first := cs.rdropWhile blank
  let second := first.rdropWhile semicolon
  have hbody : body cs = second.rdropWhile blank := rfl
  refine ⟨second.rtakeWhile blank ++ (first.rtakeWhile semicolon ++ cs.rtakeWhile blank),
    ?_, ?_, ?_⟩
  · rw [hbody, ← List.append_assoc, ← List.append_assoc, List.rdropWhile_append_rtakeWhile,
      List.rdropWhile_append_rtakeWhile, List.rdropWhile_append_rtakeWhile]
  · intro cell hcell
    rw [hbody] at hcell
    have hne : second.rdropWhile blank ≠ [] := fun hnil => by simp [hnil] at hcell
    have hnot := List.rdropWhile_last_not blank second hne
    rw [List.getLast?_eq_some_getLast hne] at hcell
    rw [Option.some.inj hcell] at hnot
    exact Bool.not_eq_true _ ▸ hnot
  · intro cell hcell
    simp only [List.mem_append] at hcell
    rcases hcell with hcell | hcell | hcell
    · exact .inl (by simpa [blank] using List.mem_rtakeWhile_imp hcell)
    · exact .inr (by simpa [semicolon] using List.mem_rtakeWhile_imp hcell)
    · exact .inl (by simpa [blank] using List.mem_rtakeWhile_imp hcell)

theorem not_isBlank_last_body {cs : List Cell} {c : Char}
    (h : c ∈ (chars (body cs)).getLast?) : Text.isBlank c = false := by
  obtain ⟨dropped, -, hlast, -⟩ := body_spec cs
  rw [chars, List.getLast?_map] at h
  obtain ⟨cell, hcell, rfl⟩ := Option.map_eq_some_iff.1 h
  have hblank := hlast cell hcell
  rw [Cell.face] at hblank
  split at hblank
  · exact hblank
  · exact absurd hblank (by decide)

/-- **The body of a statement ends in code** if no quote is open at the end of the statement, and
both the body and what is behind it are scanned as they were within the statement. -/
theorem scan_body {cs : List Char} (h : (scanEnd .code cs).Unquoted) :
    ∃ rest, cs = chars (body (cells .code cs)) ++ rest ∧
      cells .code cs = body (cells .code cs) ++ cells .code rest ∧
      cells .code (chars (body (cells .code cs))) = body (cells .code cs) ∧
      scanEnd .code (chars (body (cells .code cs))) = .code ∧
      ∀ cell ∈ cells .code rest, Text.isBlank cell.face = true ∨ cell.face = ';' := by
  obtain ⟨rest, hsplit, hlast, hrest⟩ := body_spec (cells .code cs)
  generalize body (cells .code cs) = kept at hsplit hlast ⊢
  have hcs : cs = chars kept ++ chars rest := by
    rw [← chars_cells .code cs, hsplit, chars, List.map_append]
    rfl
  cases hfind : kept.getLast? with
  | none =>
    obtain rfl : kept = [] := List.getLast?_eq_none_iff.1 hfind
    exact ⟨cs, rfl, rfl, rfl, rfl, fun cell hcell => hrest cell (by rwa [hsplit] at hcell)⟩
  | some cell =>
    -- the last cell shows itself, so that no token lies across the end of the body
    have hblank := hlast cell hfind
    have hshown : cell = shown cell.face := shown_of_face_ne fun hface => by
      rw [hface] at hblank
      exact absurd hblank (by decide)
    have hne : kept ≠ [] := fun hnil => by simp [hnil] at hfind
    have hlength : (chars kept).length = kept.length := List.length_map _
    have hcut : Cut .code (chars kept) (chars rest) := by
      refine cut_of_shown_last (x := cell.face) ?_
      rw [← hcs, hsplit, ← hshown, ← hfind, List.getLast?_eq_getElem?, hlength]
      exact List.getElem?_append_left (by have := List.length_pos_iff.2 hne; omega)
    have hcells := hcut.cells_append
    rw [← hcs, hsplit] at hcells
    obtain ⟨hkept, hbehind⟩ := List.append_inj hcells (by rw [length_cells, hlength])
    have hcode : scanEnd .code (chars kept) = .code := by
      rw [hshown, hkept] at hfind
      rcases scanEnd_of_shown_last hfind with hcode | ⟨hmark, hquoted⟩
      · exact hcode
      · -- the quote would have to be closed behind the body
        rw [hcs, hcut.scanEnd_append, hquoted] at h
        rw [hquoted] at hbehind
        have hmem := exists_shown_of_quoted h
        rw [← hbehind] at hmem
        have hclosed : Text.isBlank cell.face = true ∨ cell.face = ';' :=
          hrest (shown cell.face) hmem
        rcases hclosed with hblank' | hface
        · simp [hblank'] at hblank
        · rw [hface] at hmark
          exact absurd hmark (by decide)
    rw [hcode] at hbehind
    exact ⟨chars rest, hcs, hsplit.trans (by rw [← hbehind]), hkept.symm, hcode, hbehind ▸ hrest⟩

theorem scanEnd_body {cs : List Char} (h : scanEnd .code cs = .code) :
    cells .code (chars (body (cells .code cs))) = body (cells .code cs) ∧
      scanEnd .code (chars (body (cells .code cs))) = .code := by
  obtain ⟨-, -, -, hcells, hend, -⟩ := scan_body (h ▸ unquoted_code)
  exact ⟨hcells, hend⟩

/-! ### Texts without the blanks at their ends -/

theorem scanEnd_trimStart (cs : List Char) :
    scanEnd .code (Text.trimStart cs) = scanEnd .code cs := by
  have hblanks : ∀ c ∈ cs.takeWhile Text.isBlank, isMark c = false := fun c hc =>
    isMark_of_isBlank (List.mem_takeWhile_imp hc)
  have happend := (scan_code_append hblanks (cs.dropWhile Text.isBlank)).2
  rw [List.takeWhile_append_dropWhile] at happend
  exact happend.symm

/-- A text in code without the blanks at its end is in code, unless it ends with a line comment,
whose line end has been taken off. -/
theorem scanEnd_trimEnd {cs : List Char} (h : scanEnd .code cs = .code) :
    scanEnd .code (Text.trimEnd cs) = .code ∨ scanEnd .code (Text.trimEnd cs) = .lineComment := by
  have hblanks : ∀ c ∈ cs.rtakeWhile Text.isBlank, isMark c = false := fun c hc =>
    isMark_of_isBlank (List.mem_rtakeWhile_imp hc)
  have hcut : Cut .code (cs.rdropWhile Text.isBlank) (cs.rtakeWhile Text.isBlank) :=
    cut_of_notMark proper_code fun _ y _ hy => .inr (hblanks y (List.mem_of_head? hy))
  have hend := hcut.scanEnd_append
  rw [List.rdropWhile_append_rtakeWhile, h] at hend
  -- of the states only that of a line comment is left by a blank
  by_cases hline : scanEnd .code (cs.rdropWhile Text.isBlank) = .lineComment
  · exact .inr hline
  · rw [scanEnd_of_notMark (proper_scanEnd proper_code _) hline hblanks] at hend
    exact .inl hend.symm

theorem scanEnd_trim {cs : List Char} (h : scanEnd .code cs = .code) :
    scanEnd .code (Text.trim cs) = .code ∨ scanEnd .code (Text.trim cs) = .lineComment :=
  scanEnd_trimEnd ((scanEnd_trimStart cs).trans h)

theorem trimEnd_eq_self {cs : List Char}
    (h : ∀ c, cs.getLast? = some c → Text.isBlank c = false) : Text.trimEnd cs = cs :=
  List.rdropWhile_eq_self_iff.2 fun hne => by
    simp [h _ (List.getLast?_eq_some_getLast hne)]

theorem trim_eq_trimStart {cs : List Char}
    (h : ∀ c, cs.getLast? = some c → Text.isBlank c = false) :
    Text.trim cs = Text.trimStart cs := by
  refine trimEnd_eq_self fun c hc => h c ?_
  obtain ⟨start, hstart⟩ := cs.dropWhile_suffix Text.isBlank
  rw [Text.trimStart] at hc
  have hne : cs.dropWhile Text.isBlank ≠ [] := fun hnil => by simp [hnil] at hc
  rw [← hstart, List.getLast?_append_of_ne_nil _ hne]
  exact hc

end Sql

end ViewCompiler
