import ViewCompiler.Proofs.Sql.Scan
import ViewCompiler.Sql.Quote

/-!
# Closed texts

A part of a statement is closed if it neither hides nor ends anything that stands around it: its
quotes and parentheses are its own, it opens no comment and it does not end the statement.

* `Sql.Balanced`: the parentheses of a text match.
* `Sql.Quotations`: code with quoted texts in it.
* `Sql.Lexed`: the scan of a text finds code and quoted texts, and ends in code.
* `Sql.Closed`: its code has balanced parentheses and no semicolon besides.
* `Sql.Closed.append`: **closed texts one after the other are closed**, unless marks meet.
* `Sql.closed_enclosed`: a quoted text is closed, whatever stands in it.
* `Sql.OpensComment`: a line comment opens within the text.
-/

namespace ViewCompiler

namespace Sql

/-! ### Parentheses -/

/-- Every parenthesis that opens is closed, and none is closed before it opens. -/
structure Balanced (cs : List Char) : Prop where
  count : cs.count ')' = cs.count '('
  count_le (before after : List Char) (h : cs = before ++ after) :
    before.count ')' ≤ before.count '('

namespace Balanced

variable {cs ds : List Char}

theorem of_notMem (hopening : '(' ∉ cs) (hclosing : ')' ∉ cs) : Balanced cs := by
  refine ⟨by rw [List.count_eq_zero.2 hopening, List.count_eq_zero.2 hclosing], ?_⟩
  rintro before after rfl
  have hnone : ')' ∉ before := fun h => hclosing (List.mem_append_left _ h)
  rw [List.count_eq_zero.2 hnone]
  exact Nat.zero_le _

theorem append (hcs : Balanced cs) (hds : Balanced ds) : Balanced (cs ++ ds) := by
  refine ⟨by rw [List.count_append, List.count_append, hcs.count, hds.count], ?_⟩
  intro before after h
  rcases List.append_eq_append_iff.1 h with ⟨more, rfl, hmore⟩ | ⟨more, hmore, -⟩
  · rw [List.count_append, List.count_append, hcs.count]
    exact Nat.add_le_add_left (hds.count_le _ _ hmore) _
  · exact hcs.count_le _ _ hmore

theorem of_append (h : Balanced (cs ++ ds)) (hopening : '(' ∉ ds) (hclosing : ')' ∉ ds) :
    Balanced cs := by
  have hcount := h.count
  rw [List.count_append, List.count_append, List.count_eq_zero.2 hopening,
    List.count_eq_zero.2 hclosing] at hcount
  refine ⟨hcount, fun before after hcs => ?_⟩
  exact h.count_le before (after ++ ds) (by rw [hcs, List.append_assoc])

theorem group (h : Balanced cs) : Balanced ('(' :: (cs ++ [')'])) := by
  refine ⟨by simp [List.count_append, h.count], ?_⟩
  intro before after hsplit
  rcases before with - | ⟨c, before⟩
  · simp
  · obtain ⟨rfl, hrest⟩ := List.cons.inj hsplit
    have hstart : before <+: cs ++ [')'] := ⟨after, hrest.symm⟩
    rcases List.prefix_concat_iff.1 hstart with rfl | ⟨rest, hrest⟩
    · simp [List.count_append, h.count]
    · have hle := h.count_le before rest hrest.symm
      simpa using Nat.le_succ_of_le hle

end Balanced

/-! ### Quoted texts -/

/-- The cells are code with these quoted texts in it, and nothing else of them is hidden. -/
inductive Quotations : List Cell → List (List Char) → Prop
  | nil : Quotations [] []
  | code {c : Char} {rest : List Cell} {texts : List (List Char)} (hsingle : c ≠ '\'')
    (hdouble : c ≠ '"') (more : Quotations rest texts) : Quotations (shown c :: rest) texts
  | quoted {quote : Char} {inside : List Char} {rest : List Cell} {texts : List (List Char)}
    (hquote : quote = '\'' ∨ quote = '"') (more : Quotations rest texts) :
    Quotations (shown quote :: (inside.map hidden ++ shown quote :: rest))
      ((quote :: (inside ++ [quote])) :: texts)

theorem Quotations.append {first second : List Cell} {texts others : List (List Char)}
    (hfirst : Quotations first texts) (hsecond : Quotations second others) :
    Quotations (first ++ second) (texts ++ others) := by
  induction hfirst with
  | nil => exact hsecond
  | code hsingle hdouble _ ih => exact .code hsingle hdouble ih
  | quoted hquote _ ih => simpa using Quotations.quoted hquote ih

/-! ### Texts that are read in code -/

/-- The scan of the text finds code with these quoted texts in it, and ends in code. -/
structure Lexed (text : List Char) (texts : List (List Char)) : Prop where
  scanEnd_eq : scanEnd .code text = .code
  not_comment (before after : List Char) (h : text = before ++ after) :
    scanEnd .code before ≠ .lineComment ∧ scanEnd .code before ≠ .blockComment
  quotations : Quotations (cells .code text) texts

/-- The text is closed: it ends in code and opens no comment, its parentheses outside of quotes are
balanced, it has no semicolon outside of quotes, and these are the texts between quotes. -/
structure Closed (text : List Char) (texts : List (List Char)) : Prop extends Lexed text texts where
  balanced : Balanced (faces text)
  semicolon : ';' ∉ faces text

/-- No character of the text is a mark. -/
def unmarked (cs : List Char) : Bool := cs.all fun c => !isMark c

theorem isMark_of_unmarked {cs : List Char} (h : unmarked cs = true) :
    ∀ c ∈ cs, isMark c = false := by
  intro c hc
  simpa using List.all_eq_true.1 h c hc

/-- No two marks meet where the second text follows the first. -/
def Apart (before after : List Char) : Prop :=
  ∀ x y, before.getLast? = some x → after.head? = some y → isMark x = false ∨ isMark y = false

section Append

variable {before after : List Char} {texts others : List (List Char)}

theorem apart_of_unmarked (h : unmarked after = true) : Apart before after :=
  fun _ y _ hy => .inr (isMark_of_unmarked h y (List.mem_of_head? hy))

theorem apart_of_unmarked_left (h : unmarked before = true) : Apart before after :=
  fun x _ hx _ => .inl (isMark_of_unmarked h x (List.mem_of_getLast? hx))

theorem Lexed.cut (h : Lexed before texts) (hapart : Apart before after) :
    cells .code (before ++ after) = cells .code before ++ cells .code after ∧
      scanEnd .code (before ++ after) = scanEnd .code after := by
  have hcut : Cut .code before after := cut_of_notMark proper_code hapart
  rw [hcut.cells_append, hcut.scanEnd_append, h.scanEnd_eq]
  exact ⟨rfl, rfl⟩

theorem Lexed.faces_append (h : Lexed before texts) (hapart : Apart before after) :
    faces (before ++ after) = faces before ++ faces after := by
  rw [faces, (h.cut hapart).1, List.map_append]
  rfl

theorem Apart.of_append {more rest : List Char} (h : Apart before (more ++ rest)) :
    Apart before more := by
  intro x y hx hy
  refine h x y hx ?_
  rw [List.head?_append, hy]
  rfl

theorem Lexed.append (hbefore : Lexed before texts) (hafter : Lexed after others)
    (hapart : Apart before after) : Lexed (before ++ after) (texts ++ others) := by
  obtain ⟨hcells, hend⟩ := hbefore.cut hapart
  refine ⟨hend.trans hafter.scanEnd_eq, fun start rest h => ?_, ?_⟩
  · rcases List.append_eq_append_iff.1 h with ⟨more, rfl, rfl⟩ | ⟨more, rfl, -⟩
    · rw [(hbefore.cut hapart.of_append).2]
      exact hafter.not_comment _ _ rfl
    · exact hbefore.not_comment _ _ rfl
  · rw [hcells]
    exact hbefore.quotations.append hafter.quotations

/-- **Closed texts one after the other are closed**, if no marks meet. -/
theorem Closed.append (hbefore : Closed before texts) (hafter : Closed after others)
    (hapart : Apart before after) : Closed (before ++ after) (texts ++ others) := by
  have hfaces := hbefore.toLexed.faces_append hapart
  refine ⟨hbefore.toLexed.append hafter.toLexed hapart, ?_, ?_⟩
  · rw [hfaces]
    exact hbefore.balanced.append hafter.balanced
  · rw [hfaces, List.mem_append]
    exact not_or_intro hbefore.semicolon hafter.semicolon

end Append

/-! ### Texts without marks -/

section Plain

variable {cs : List Char}

theorem ne_of_isMark_eq_false {c mark : Char} (h : isMark c = false) (hmark : isMark mark = true) :
    c ≠ mark := by
  rintro rfl
  simp [h] at hmark

theorem cells_of_unmarked (h : unmarked cs = true) : cells .code cs = cs.map shown := by
  induction cs with
  | nil => simp [cells]
  | cons c rest ih =>
    obtain ⟨hc, hrest⟩ := List.forall_mem_cons.1 (isMark_of_unmarked h)
    have hne (mark : Char) (hmark : isMark mark = true) := ne_of_isMark_eq_false hc hmark
    have htoken : token .code c rest = ⟨[shown c], .code, rest⟩ := by
      simp [token, hne '-' rfl, hne '/' rfl, hne '\'' rfl, hne '"' rfl]
    rw [(scan_cons .code c rest).1, htoken, ih (by simpa [unmarked] using hrest)]
    rfl

theorem quotations_map_shown (h : ∀ c ∈ cs, c ≠ '\'' ∧ c ≠ '"') :
    Quotations (cs.map shown) [] := by
  induction cs with
  | nil => exact .nil
  | cons c rest ih =>
    rw [List.forall_mem_cons] at h
    exact .code h.1.1 h.1.2 (ih h.2)

theorem faces_of_unmarked (h : unmarked cs = true) : faces cs = cs := by
  rw [faces, cells_of_unmarked h, List.map_map]
  exact List.map_id _

theorem lexed_of_unmarked (h : unmarked cs = true) : Lexed cs [] := by
  have hmarks := isMark_of_unmarked h
  have hends : ∀ before after, cs = before ++ after → scanEnd .code before = .code := by
    rintro before after rfl
    exact scanEnd_of_notMark proper_code (by simp) fun c hc => hmarks c (List.mem_append_left _ hc)
  refine ⟨hends cs [] (List.append_nil cs).symm, fun before after hsplit => ?_, ?_⟩
  · rw [hends before after hsplit]
    simp
  · rw [cells_of_unmarked h]
    exact quotations_map_shown fun c hc =>
      ⟨ne_of_isMark_eq_false (hmarks c hc) rfl, ne_of_isMark_eq_false (hmarks c hc) rfl⟩

/-- Neither a mark, nor a parenthesis or the end of a statement. -/
def isPlain (c : Char) : Bool := !isMark c && c ≠ '(' && c ≠ ')' && c ≠ ';'

theorem unmarked_of_isPlain (h : cs.all isPlain = true) : unmarked cs = true := by
  refine List.all_eq_true.2 fun c hc => ?_
  have hplain := List.all_eq_true.1 h c hc
  simp only [isPlain, Bool.and_eq_true] at hplain
  exact hplain.1.1.1

theorem closed_of_isPlain (h : cs.all isPlain = true) : Closed cs [] := by
  have hnotMem : ∀ c, isPlain c = false → c ∉ cs := fun c hc hmem => by
    simpa [hc] using List.all_eq_true.1 h c hmem
  have hmarks := unmarked_of_isPlain h
  refine ⟨lexed_of_unmarked hmarks, ?_, ?_⟩
  · rw [faces_of_unmarked hmarks]
    exact .of_notMem (hnotMem _ rfl) (hnotMem _ rfl)
  · rw [faces_of_unmarked hmarks]
    exact hnotMem _ rfl

theorem closed_sign {c : Char} (h : c = '+' ∨ c = '-') : Closed [c] [] := by
  rcases h with rfl | rfl
  · exact closed_of_isPlain (by decide)
  · have hstart : ∀ before after, ['-'] = before ++ after → scanEnd .code before = .code := by
      intro before after hsplit
      rcases before with - | ⟨d, before⟩
      · rfl
      · obtain ⟨rfl, hrest⟩ := List.cons.inj hsplit
        obtain ⟨rfl, -⟩ := List.nil_eq_append_iff.1 hrest
        rfl
    refine ⟨⟨rfl, fun before after hsplit => ?_, .code (by decide) (by decide) .nil⟩,
      .of_notMem (by decide) (by decide), by decide⟩
    rw [hstart before after hsplit]
    simp

theorem Closed.append_plain {before after : List Char} {texts others : List (List Char)}
    (hbefore : Closed before texts) (word : List Char) (hword : word.all isPlain = true)
    (hne : word ≠ []) (hafter : Closed after others) :
    Closed (before ++ word ++ after) (texts ++ others) := by
  have hmarks := unmarked_of_isPlain hword
  have hfront := hbefore.append (closed_of_isPlain hword) (apart_of_unmarked hmarks)
  rw [List.append_nil] at hfront
  refine hfront.append hafter fun x _ hx _ => .inl (isMark_of_unmarked hmarks x ?_)
  rw [List.getLast?_append_of_ne_nil _ hne] at hx
  exact List.mem_of_getLast? hx

theorem toList_join_cons {separator text : String} {rest : List String} (h : rest ≠ []) :
    (Text.join separator (text :: rest)).toList =
      text.toList ++ separator.toList ++ (Text.join separator rest).toList := by
  cases rest with
  | nil => exact absurd rfl h
  | cons =>
    rw [Text.join, String.toList_append, String.toList_append]
    exact nofun

theorem closed_join {separator : String} (hplain : separator.toList.all isPlain = true)
    (hne : separator.toList ≠ []) {texts : List String} {quoted : List (List (List Char))}
    (h : List.Forall₂ (fun text found => Closed text.toList found) texts quoted) :
    Closed (Text.join separator texts).toList quoted.flatten := by
  induction h with
  | nil => exact closed_of_isPlain rfl
  | @cons text found texts quoted hfirst hrest ih =>
    cases hrest with
    | nil => simpa [Text.join] using hfirst
    | cons hsecond hmore =>
      rw [toList_join_cons (by simp), List.flatten_cons]
      exact hfirst.append_plain _ hplain hne ih

theorem Closed.group {texts : List (List Char)} (h : Closed cs texts) :
    Closed ('(' :: (cs ++ [')'])) texts := by
  have hopening : Lexed ['('] [] := lexed_of_unmarked (by decide)
  have hclosing : Lexed [')'] [] := lexed_of_unmarked (by decide)
  have hend : Apart cs [')'] := apart_of_unmarked (by decide)
  have hstart : Apart ['('] (cs ++ [')']) := apart_of_unmarked_left (by decide)
  have hinside := h.toLexed.append hclosing hend
  have hfaces : faces ('(' :: (cs ++ [')'])) = '(' :: (faces cs ++ [')']) := by
    have hfirst : faces ['('] = ['('] := faces_of_unmarked (by decide)
    have hlast : faces [')'] = [')'] := faces_of_unmarked (by decide)
    have hfront := hopening.faces_append hstart
    rw [h.toLexed.faces_append hend, hfirst, hlast] at hfront
    exact hfront
  refine ⟨by simpa using hopening.append hinside hstart, ?_, ?_⟩
  · rw [hfaces]
    exact h.balanced.group
  · rw [hfaces]
    simpa using h.semicolon

end Plain

/-! ### Quoted texts are closed -/

section Enclosed

variable {quote : Char}

/-- What stands between quotes is hidden up to the quote that closes, and the scan is in code then. -/
theorem scan_doubled (cs : List Char) :
    cells (.quoted quote) (doubled quote cs ++ [quote]) =
        (doubled quote cs).map hidden ++ [shown quote] ∧
      scanEnd (.quoted quote) (doubled quote cs ++ [quote]) = .code := by
  induction cs with
  | nil => simp [doubled, cells, scanEnd]
  | cons c rest ih =>
    rw [doubled]
    split
    · next hc =>
      -- a quote that is doubled closes nothing
      subst hc
      rw [List.cons_append, List.cons_append, (scan_cons ..).1, (scan_cons ..).2]
      simp [token, ih]
    · next hc =>
      rw [List.cons_append, (scan_cons ..).1, (scan_cons ..).2]
      simp [token, hc, ih]

/-- A beginning of what stands between quotes, and of the quote that closes, is never in a
comment. -/
theorem scanEnd_doubled_start {cs before after : List Char}
    (h : doubled quote cs ++ [quote] = before ++ after) :
    scanEnd (.quoted quote) before = .quoted quote ∨ scanEnd (.quoted quote) before = .code := by
  induction cs generalizing before with
  | nil =>
    rcases before with - | ⟨d, before⟩
    · exact .inl (by simp [scanEnd])
    · obtain ⟨rfl, hrest⟩ := List.cons.inj h
      obtain ⟨rfl, -⟩ := List.nil_eq_append_iff.1 hrest
      exact .inr (by simp [scanEnd])
  | cons c rest ih =>
    rcases before with - | ⟨d, before⟩
    · exact .inl (by simp [scanEnd])
    rw [doubled] at h
    split at h
    · next hc =>
      subst hc
      obtain ⟨rfl, hsecond⟩ := List.cons.inj h
      rcases before with - | ⟨e, before⟩
      · exact .inr (by simp [scanEnd])
      · obtain ⟨rfl, hrest⟩ := List.cons.inj hsecond
        rw [(scan_cons ..).2]
        simpa [token] using ih hrest
    · next hc =>
      obtain ⟨rfl, hrest⟩ := List.cons.inj h
      rw [(scan_cons ..).2]
      simpa [token, hc] using ih hrest

theorem token_quote (hquote : quote = '\'' ∨ quote = '"') (rest : List Char) :
    token .code quote rest = ⟨[shown quote], .quoted quote, rest⟩ := by
  rcases hquote with rfl | rfl <;> simp [token]

theorem cells_enclosed (hquote : quote = '\'' ∨ quote = '"') (cs : List Char) :
    cells .code (enclosed quote cs) =
      shown quote :: ((doubled quote cs).map hidden ++ [shown quote]) := by
  rw [enclosed, List.cons_append, (scan_cons ..).1, token_quote hquote, (scan_doubled cs).1]
  rfl

theorem mem_faces_enclosed (hquote : quote = '\'' ∨ quote = '"') {cs : List Char} {c : Char}
    (hc : c ∈ faces (enclosed quote cs)) : c = quote ∨ c = ' ' := by
  rw [faces, cells_enclosed hquote] at hc
  simp only [List.map_cons, List.map_append, List.map_map, List.map_nil, List.mem_cons,
    List.mem_append, List.mem_map, List.not_mem_nil, or_false] at hc
  rcases hc with rfl | ⟨d, -, rfl⟩ | rfl
  · exact .inl rfl
  · exact .inr rfl
  · exact .inl rfl

theorem closed_enclosed (hquote : quote = '\'' ∨ quote = '"') (cs : List Char) :
    Closed (enclosed quote cs) [enclosed quote cs] := by
  have hnotMem : ∀ c, c ≠ '\'' → c ≠ '"' → c ≠ ' ' → c ∉ faces (enclosed quote cs) := by
    intro c hsingle hdouble hblank hmem
    rcases mem_faces_enclosed hquote hmem with rfl | rfl
    · exact hquote.elim hsingle hdouble
    · exact hblank rfl
  refine ⟨⟨?_, fun before after h => ?_, ?_⟩, .of_notMem (hnotMem _ ?_ ?_ ?_) (hnotMem _ ?_ ?_ ?_),
    hnotMem _ ?_ ?_ ?_⟩
  · rw [enclosed, List.cons_append, (scan_cons ..).2, token_quote hquote]
    exact (scan_doubled cs).2
  · rcases before with - | ⟨c, before⟩
    · simp [scanEnd]
    · rw [enclosed, List.cons_append] at h
      obtain ⟨rfl, hrest⟩ := List.cons.inj h
      rw [(scan_cons ..).2, token_quote hquote]
      rcases scanEnd_doubled_start hrest with hend | hend <;> simp [hend]
  · rw [cells_enclosed hquote]
    exact .quoted hquote .nil
  all_goals decide

end Enclosed

/-! ### Comments -/

/-- A line comment opens behind a blank of the code. -/
def OpensComment (text : List Char) : Prop :=
  ∃ before after, text = before ++ ' ' :: '-' :: '-' :: after ∧ scanEnd .code before = .code

namespace OpensComment

variable {before after : List Char}

theorem exists_comment {text : List Char} (h : OpensComment text) :
    ∃ before after, text = before ++ after ∧ scanEnd .code before = .lineComment := by
  obtain ⟨before, after, rfl, hcode⟩ := h
  refine ⟨before ++ [' ', '-', '-'], after, by simp, ?_⟩
  have hcut : Cut .code before [' ', '-', '-'] :=
    cut_of_notMark proper_code fun _ y _ hy => .inr (Option.some.inj hy ▸ rfl)
  rw [hcut.scanEnd_append, hcode]
  rfl

theorem append_left (h : OpensComment before) (after : List Char) :
    OpensComment (before ++ after) := by
  obtain ⟨start, rest, rfl, hcode⟩ := h
  exact ⟨start, rest ++ after, by simp, hcode⟩

theorem append_right {texts : List (List Char)} (hbefore : Lexed before texts)
    (hapart : Apart before after) (h : OpensComment after) : OpensComment (before ++ after) := by
  obtain ⟨start, rest, rfl, hcode⟩ := h
  exact ⟨before ++ start, rest, by simp, (hbefore.cut hapart.of_append).2.trans hcode⟩

/-- A comment that opens in one of the texts opens in the joined ones, if those before it are
closed. -/
theorem join {separator text : String} (hplain : separator.toList.all isPlain = true)
    (hne : separator.toList ≠ []) {front back : List String} {quoted : List (List (List Char))}
    (hfront : List.Forall₂ (fun text found => Closed text.toList found) front quoted)
    (h : OpensComment text.toList) :
    OpensComment (Text.join separator (front ++ text :: back)).toList := by
  have hmarks := unmarked_of_isPlain hplain
  induction hfront with
  | nil =>
    rcases back with - | ⟨next, back⟩
    · exact h
    · rw [List.nil_append, toList_join_cons (by simp), List.append_assoc]
      exact h.append_left _
  | cons hfirst _ ih =>
    rw [List.cons_append, toList_join_cons (by simp), List.append_assoc]
    have hrest := ih.append_right (lexed_of_unmarked hmarks) (apart_of_unmarked_left hmarks)
    refine hrest.append_right hfirst.toLexed fun _ y _ hy =>
      .inr (isMark_of_unmarked hmarks y ?_)
    rw [List.head?_append_of_ne_nil _ hne] at hy
    exact List.mem_of_head? hy

end OpensComment

end Sql

end ViewCompiler
