import ViewCompiler.Proofs.Sql.Limit
import ViewCompiler.Sql.Template

/-!
# Placeholders of templates

* `Template.Placeholder`: the spellings of a placeholder, with the id that it names.
* `Template.readPlaceholder_eq_some_iff`: **the reader of placeholders reads these and no others.**
* `Template.cut?_append`, `Template.exists_of_cut?`: a text is cut behind a gap that holds no two
  opening braces in a row.
* `Template.Stuck`: no placeholder starts at the first two opening braces of a text, nor one
  character further.
* `Template.gap_or_placeholder_or_stuck`: every text is a gap, starts with a gap and a placeholder,
  or is stuck.
-/

namespace ViewCompiler

/-! ### Beginnings of texts -/

namespace Text

variable {cs rest : List Char}

theorem dropPrefix?_eq_some_iff {beginning : List Char} :
    dropPrefix? beginning cs = some rest ↔ cs = beginning ++ rest := by
  induction beginning generalizing cs with
  | nil => simp [dropPrefix?]
  | cons p ps ih =>
    cases cs with
    | nil => simp [dropPrefix?]
    | cons c cs =>
      rw [dropPrefix?]
      split
      · next heq => simp [ih, heq]
      · next hne => simp [Ne.symm hne]

theorem trimStart_eq_iff :
    trimStart cs = rest ↔
      ∃ before, cs = before ++ rest ∧ (∀ c ∈ before, isBlank c = true) ∧
        Sql.Stops isBlank rest := by
  constructor
  · rintro rfl
    exact ⟨cs.takeWhile isBlank, List.takeWhile_append_dropWhile.symm,
      fun _ hc => List.mem_takeWhile_imp hc, Sql.stops_dropWhile _ cs⟩
  · rintro ⟨before, rfl, hbefore, hrest⟩
    exact Sql.dropWhile_append_of_all hbefore hrest

end Text

theorem Sql.takeWhile_eq_iff {p : Char → Bool} {run cs rest : List Char} :
    cs.takeWhile p = run ∧ cs.drop run.length = rest ↔
      cs = run ++ rest ∧ (∀ c ∈ run, p c = true) ∧ Stops p rest := by
  constructor
  · rintro ⟨rfl, rfl⟩
    have hdrop : cs.drop (cs.takeWhile p).length = cs.dropWhile p := by
      conv => lhs; arg 2; rw [← List.takeWhile_append_dropWhile (p := p) (l := cs)]
      rw [List.drop_left]
    rw [hdrop]
    exact ⟨List.takeWhile_append_dropWhile.symm, fun _ hc => List.mem_takeWhile_imp hc,
      Sql.stops_dropWhile p cs⟩
  · rintro ⟨rfl, hrun, hrest⟩
    have hnil : rest.takeWhile p = [] := by
      cases rest with
      | nil => rfl
      | cons c rest => simp [hrest c rfl]
    rw [List.takeWhile_append_of_pos hrun, hnil, List.append_nil]
    exact ⟨rfl, List.drop_left⟩

namespace Template

open Sql (Run Stops)

/-! ### Placeholders -/

/-- Two opening braces. -/
def opening : List Char := ['\x7b', '\x7b']

/-- The way in which a placeholder names an id. -/
inductive Reference : List Char → List Char → Prop
  | point {id : List Char} (hid : Run isIdChar id) : Reference ('.' :: id) id
  | node {gap id : List Char} (hgap : Run Text.isBlank gap) (hid : Run (· ≠ '"') id) :
    Reference ('n' :: 'o' :: 'd' :: 'e' :: (gap ++ '"' :: (id ++ ['"']))) id

/-- A placeholder and the id that it names: between two opening and two closing braces stands a
reference to the id, with blanks around it. -/
inductive Placeholder : List Char → List Char → Prop
  | braces {before reference after id : List Char}
    (hbefore : ∀ c ∈ before, Text.isBlank c = true) (hreference : Reference reference id)
    (hafter : ∀ c ∈ after, Text.isBlank c = true) :
    Placeholder (opening ++ (before ++ (reference ++ (after ++ ['\x7d', '\x7d'])))) id

variable {cs gap id rest placeholder reference : List Char}

theorem isBlank_of_isIdChar {c : Char} (h : isIdChar c = true) : Text.isBlank c = false := by
  have hrange :
      Text.inRanges [(97, 122), (65, 90), (48, 57), (95, 95), (45, 45)] c.toNat = true := by
    simp only [isIdChar, Text.isAsciiLetter, Text.isAsciiDigit, Bool.or_eq_true, Bool.and_eq_true,
      decide_eq_true_eq, Char.le_def, UInt32.le_iff_toNat_le] at h
    rcases h with (((⟨hlow, hhigh⟩ | ⟨hlow, hhigh⟩) | ⟨hlow, hhigh⟩) | rfl) | rfl
    · change 97 ≤ c.toNat at hlow
      change c.toNat ≤ 122 at hhigh
      simp [Text.inRanges, hlow, hhigh]
    · change 65 ≤ c.toNat at hlow
      change c.toNat ≤ 90 at hhigh
      simp [Text.inRanges, hlow, hhigh]
    · change 48 ≤ c.toNat at hlow
      change c.toNat ≤ 57 at hhigh
      simp [Text.inRanges, hlow, hhigh]
    · decide
    · decide
  exact Text.inRanges_eq_false (by decide) hrange

theorem stops_isIdChar_of_close {after : List Char}
    (hafter : ∀ c ∈ after, Text.isBlank c = true) :
    Stops isIdChar (after ++ '\x7d' :: '\x7d' :: rest) := by
  intro c hc
  cases after with
  | nil =>
    obtain rfl : '\x7d' = c := by simpa using hc
    decide
  | cons d after =>
    obtain rfl : d = c := by simpa using hc
    by_contra hid
    have hblank := isBlank_of_isIdChar (by simpa using hid)
    rw [hafter d List.mem_cons_self] at hblank
    cases hblank

theorem readClose_eq_some_iff :
    readClose cs = some rest ↔
      ∃ after, cs = after ++ '\x7d' :: '\x7d' :: rest ∧ ∀ c ∈ after, Text.isBlank c = true := by
  have hstops : Stops Text.isBlank ('\x7d' :: '\x7d' :: rest) := by
    intro c hc
    obtain rfl : '\x7d' = c := by simpa using hc
    decide
  rw [readClose, Text.dropPrefix?_eq_some_iff, Text.trimStart_eq_iff]
  simp only [List.cons_append, List.nil_append, hstops, and_true]

/-- An id is read after a point as far as its characters go, and between quotes after the word. -/
theorem readId_eq_some_iff :
    readId cs = some (id, rest) ↔
      (cs = '.' :: (id ++ rest) ∧ Run isIdChar id ∧ Stops isIdChar rest) ∨
        ∃ gap, cs = 'n' :: 'o' :: 'd' :: 'e' :: (gap ++ '"' :: (id ++ '"' :: rest)) ∧
          Run Text.isBlank gap ∧ Run (· ≠ '"') id := by
  have hquote (rest : List Char) : Stops (· ≠ '"') ('"' :: rest) := by
    intro c hc
    obtain rfl : '"' = c := by simpa using hc
    decide
  have hgapEnd (rest : List Char) : Stops Text.isBlank ('"' :: rest) := by
    intro c hc
    obtain rfl : '"' = c := by simpa using hc
    decide
  constructor
  · intro h
    unfold readId at h
    split at h
    · next more =>
      simp only [List.isEmpty_iff] at h
      split at h
      · cases h
      next hne =>
      obtain ⟨htake, hdrop⟩ := Prod.mk.inj (Option.some.inj h)
      rw [htake] at hdrop
      obtain ⟨rfl, hid, hrest⟩ := Sql.takeWhile_eq_iff.1 ⟨htake, hdrop⟩
      exact .inl ⟨rfl, ⟨fun hnil => hne (htake.trans hnil), hid⟩, hrest⟩
    · next more =>
      split at h
      · next behind hblanks =>
        obtain ⟨gap, rfl, hgap, -⟩ := Sql.blanks_eq_some_iff.1 hblanks
        simp only [List.isEmpty_iff] at h
        split at h
        · next after hafter =>
          split at h
          · cases h
          next hne =>
          obtain ⟨htake, rfl⟩ := Prod.mk.inj (Option.some.inj h)
          rw [htake] at hafter
          obtain ⟨rfl, hid, -⟩ := Sql.takeWhile_eq_iff.1 ⟨htake, hafter⟩
          exact .inr ⟨gap, rfl, hgap, fun hnil => hne (htake.trans hnil), hid⟩
        · cases h
      · cases h
    · cases h
  · rintro (⟨rfl, hid, hrest⟩ | ⟨gap, rfl, hgap, hid⟩)
    · obtain ⟨htake, hdrop⟩ := Sql.takeWhile_eq_iff.2 ⟨rfl, hid.all, hrest⟩
      simp [readId, htake, hid.ne_nil]
    · have hblanks := Sql.blanks_eq_some_iff.2 ⟨gap, rfl, hgap, hgapEnd (id ++ '"' :: rest)⟩
      obtain ⟨htake, hdrop⟩ := Sql.takeWhile_eq_iff.2 ⟨rfl, hid.all, hquote rest⟩
      simp only [readId, hblanks, htake, hdrop]
      simp [hid.ne_nil]

theorem stops_isBlank_reference (h : Reference reference id) (rest : List Char) :
    Stops Text.isBlank (reference ++ rest) := by
  intro c hc
  cases h with
  | point =>
    obtain rfl : '.' = c := by simpa using hc
    decide
  | node =>
    obtain rfl : 'n' = c := by simpa using hc
    decide

/-- **The reader of placeholders reads the spellings of placeholders and nothing else.** -/
theorem readPlaceholder_eq_some_iff :
    readPlaceholder cs = some (id, rest) ↔
      ∃ placeholder, Placeholder placeholder id ∧ cs = placeholder ++ rest := by
  simp only [readPlaceholder, Option.bind_eq_bind, Option.bind_eq_some_iff, Option.pure_def,
    Option.some.injEq, Prod.mk.injEq, Prod.exists, Text.dropPrefix?_eq_some_iff]
  constructor
  · rintro ⟨inner, rfl, found, behind, hid, after, hclose, rfl, rfl⟩
    obtain ⟨trimmed, htrim⟩ : ∃ trimmed, Text.trimStart inner = trimmed := ⟨_, rfl⟩
    rw [htrim] at hid
    obtain ⟨before, rfl, hbefore, -⟩ := Text.trimStart_eq_iff.1 htrim
    obtain ⟨blanks, rfl, hblanks⟩ := readClose_eq_some_iff.1 hclose
    rcases readId_eq_some_iff.1 hid with ⟨rfl, hrun, -⟩ | ⟨gap, rfl, hgap, hrun⟩
    · exact ⟨_, .braces hbefore (.point hrun) hblanks, by simp [opening]⟩
    · exact ⟨_, .braces hbefore (.node hgap hrun) hblanks, by simp [opening]⟩
  · rintro ⟨_, ⟨hbefore, hreference, hafter⟩, rfl⟩
    rename_i before reference after
    have htrim : Text.trimStart
        (before ++ (reference ++ (after ++ '\x7d' :: '\x7d' :: rest))) = _ :=
      Text.trimStart_eq_iff.2 ⟨before, rfl, hbefore, stops_isBlank_reference hreference _⟩
    have hclose : readClose (after ++ '\x7d' :: '\x7d' :: rest) = some rest :=
      readClose_eq_some_iff.2 ⟨after, rfl, hafter⟩
    have hid : readId (reference ++ (after ++ '\x7d' :: '\x7d' :: rest)) =
        some (id, after ++ '\x7d' :: '\x7d' :: rest) := by
      rw [readId_eq_some_iff]
      cases hreference with
      | point hrun => exact .inl ⟨rfl, hrun, stops_isIdChar_of_close hafter⟩
      | node hgap hrun => exact .inr ⟨_, by simp, hgap, hrun⟩
    refine ⟨before ++ (reference ++ (after ++ '\x7d' :: '\x7d' :: rest)), by simp [opening], id, _,
      ?_, rest, hclose, rfl, rfl⟩
    rw [htrim, hid]

/-! ### Gaps -/

/-- Does a placeholder stand at the start of the text? -/
def Starts (cs : List Char) : Prop :=
  ∃ placeholder id rest, Placeholder placeholder id ∧ cs = placeholder ++ rest

theorem readPlaceholder_eq_none_iff : readPlaceholder cs = none ↔ ¬Starts cs := by
  rw [← not_iff_not, not_not, ← ne_eq, Option.ne_none_iff_exists', Prod.exists]
  simp only [readPlaceholder_eq_some_iff, Starts]
  grind

theorem Starts.exists_tail (h : Starts cs) :
    ∃ tail, cs = '\x7b' :: '\x7b' :: tail ∧ tail.head? ≠ some '\x7b' := by
  obtain ⟨_, _, rest, @⟨before, reference, after, id, hbefore, hreference, -⟩, rfl⟩ := h
  refine ⟨_, rfl, fun hhead => ?_⟩
  cases before with
  | nil => cases hreference <;> simp at hhead
  | cons c before =>
    obtain rfl : c = '\x7b' := by simpa using hhead
    exact absurd (hbefore _ List.mem_cons_self) (by decide)

theorem opening_infix_append (before after : List Char) :
    opening <:+: before ++ '\x7b' :: '\x7b' :: after :=
  ⟨before, after, by simp [opening]⟩

/-- No placeholder starts inside a gap in front of a placeholder. -/
theorem not_starts_gap {c : Char} (hgap : ¬opening <:+: c :: gap) (hnext : Starts rest) :
    ¬Starts (c :: (gap ++ rest)) := by
  intro hstarts
  obtain ⟨tail, heq, htail⟩ := hstarts.exists_tail
  obtain ⟨rfl, hbehind⟩ := List.cons.inj heq
  cases gap with
  | nil =>
    -- three braces in a row
    obtain ⟨more, rfl, -⟩ := hnext.exists_tail
    obtain rfl : '\x7b' :: more = tail := by simpa using hbehind
    exact htail rfl
  | cons d gap =>
    obtain ⟨rfl, -⟩ := List.cons.inj hbehind
    exact hgap (opening_infix_append [] gap)

theorem cut?_append (hgap : ¬opening <:+: gap) (hplaceholder : Placeholder placeholder id)
    (rest : List Char) : cut? (gap ++ (placeholder ++ rest)) = some ⟨gap, id, rest⟩ := by
  have hstarts : Starts (placeholder ++ rest) := ⟨placeholder, id, rest, hplaceholder, rfl⟩
  induction gap with
  | nil =>
    obtain ⟨tail, htail, -⟩ := hstarts.exists_tail
    have hread : readPlaceholder (placeholder ++ rest) = some (id, rest) :=
      readPlaceholder_eq_some_iff.2 ⟨placeholder, hplaceholder, rfl⟩
    rw [htail] at hread
    rw [List.nil_append, htail, cut?, hread]
  | cons c gap ih =>
    have hnone := readPlaceholder_eq_none_iff.2 (not_starts_gap hgap hstarts)
    have hcut := ih fun hinfix => hgap (List.infix_cons hinfix)
    rw [List.cons_append, cut?, hnone, hcut]
    rfl

theorem exists_of_cut? {cut : Cut} (h : cut? cs = some cut) :
    ∃ placeholder, Placeholder placeholder cut.id ∧ cs = cut.gap ++ (placeholder ++ cut.rest) := by
  induction cs generalizing cut with
  | nil => cases h
  | cons c cs ih =>
    rw [cut?] at h
    split at h
    · next id rest hread =>
      obtain rfl := Option.some.inj h
      exact readPlaceholder_eq_some_iff.1 hread
    · obtain ⟨found, hfound, rfl⟩ := Option.map_eq_some_iff.1 h
      obtain ⟨placeholder, hplaceholder, rfl⟩ := ih hfound
      exact ⟨placeholder, hplaceholder, rfl⟩

theorem cut?_eq_none (h : ¬opening <:+: cs) : cut? cs = none := by
  refine Option.eq_none_iff_forall_ne_some.2 fun cut hcut => h ?_
  obtain ⟨placeholder, hplaceholder, rfl⟩ := exists_of_cut? hcut
  obtain ⟨tail, htail, -⟩ := Starts.exists_tail ⟨_, _, cut.rest, hplaceholder, rfl⟩
  rw [htail]
  exact opening_infix_append cut.gap tail

theorem exists_first_opening (h : opening <:+: cs) :
    ∃ gap rest, cs = gap ++ '\x7b' :: '\x7b' :: rest ∧ ¬opening <:+: gap ++ ['\x7b'] := by
  induction cs with
  | nil => simp [opening] at h
  | cons c cs ih =>
    by_cases hprefix : opening <+: c :: cs
    · obtain ⟨rest, hrest⟩ := hprefix
      exact ⟨[], rest, hrest.symm, by simp [opening, List.infix_cons_iff]⟩
    · obtain ⟨gap, rest, rfl, hgap⟩ := ih ((List.infix_cons_iff.1 h).resolve_left hprefix)
      refine ⟨c :: gap, rest, rfl, fun hinfix => ?_⟩
      rcases List.infix_cons_iff.1 hinfix with hstart | hlater
      · exact hprefix (hstart.trans ⟨'\x7b' :: rest, by simp⟩)
      · exact hgap hlater

/-- The first two opening braces are reported, if they lie in the part of the text that is looked
at. -/
theorem malformed?_of_opening {length : Nat} (hgap : ¬opening <:+: gap ++ ['\x7b'])
    (hlength : gap.length + 2 ≤ length) (rest : List Char) :
    malformed? length (gap ++ '\x7b' :: '\x7b' :: rest) =
      some (.malformed (String.ofList (('\x7b' :: '\x7b' :: rest).take snippetLength))) := by
  induction gap generalizing length with
  | nil => rw [List.nil_append, malformed?, if_pos (by simpa using hlength)]
  | cons c gap ih =>
    have hlater : ¬opening <:+: gap ++ ['\x7b'] := fun hinfix => hgap (List.infix_cons hinfix)
    have hne : ∀ more, c = '\x7b' → gap ++ '\x7b' :: '\x7b' :: rest ≠ '\x7b' :: more := by
      rintro more rfl heq
      cases gap with
      | nil => exact hgap (opening_infix_append [] [])
      | cons d gap =>
        obtain ⟨rfl, -⟩ := List.cons.inj heq
        exact hgap (opening_infix_append [] (gap ++ ['\x7b']))
    rw [List.length_cons] at hlength
    rw [List.cons_append, malformed?, if_neg (by omega), ih hlater (by omega)]
    exact fun more hc heq => hne more hc heq

theorem malformed?_eq_none {length : Nat} (h : ¬opening <:+: cs.take length) :
    malformed? length cs = none := by
  induction cs generalizing length with
  | nil => rfl
  | cons c cs ih =>
    unfold malformed?
    split
    · next rest heq =>
      rw [if_neg]
      intro hlength
      obtain ⟨more, rfl⟩ := Nat.exists_eq_add_of_le' hlength
      rw [heq] at h
      exact h (opening_infix_append [] (rest.take more))
    · cases ‹_ = []›
    · next c' rest hne heq =>
      obtain ⟨rfl, rfl⟩ := List.cons.inj heq
      cases length with
      | zero => rfl
      | succ length =>
        rw [if_neg (Nat.succ_ne_zero length), Nat.add_sub_cancel]
        exact ih fun hinfix => h (List.infix_cons hinfix)

/-- A text gets stuck: no placeholder starts at its first two opening braces, or one brace
further. -/
def Stuck (cs : List Char) (error : TemplateError) : Prop :=
  ∃ gap rest, cs = gap ++ '\x7b' :: '\x7b' :: rest ∧ ¬opening <:+: gap ++ ['\x7b'] ∧
    ¬Starts ('\x7b' :: '\x7b' :: rest) ∧ ¬Starts ('\x7b' :: rest) ∧
    error = .malformed (String.ofList (('\x7b' :: '\x7b' :: rest).take snippetLength))

/-- A text is a gap, starts with a gap and a placeholder, or gets stuck. -/
theorem gap_or_placeholder_or_stuck (cs : List Char) :
    ¬opening <:+: cs ∨
      (∃ gap placeholder id rest, cs = gap ++ (placeholder ++ rest) ∧ ¬opening <:+: gap ∧
        Placeholder placeholder id) ∨
      ∃ error, Stuck cs error := by
  by_cases hopening : opening <:+: cs
  · obtain ⟨gap, rest, rfl, hgap⟩ := exists_first_opening hopening
    refine .inr ?_
    by_cases hhere : Starts ('\x7b' :: '\x7b' :: rest)
    · obtain ⟨placeholder, id, more, hplaceholder, heq⟩ := hhere
      refine .inl ⟨gap, placeholder, id, more, by rw [heq], fun hinfix => hgap ?_, hplaceholder⟩
      exact hinfix.trans (List.prefix_append ..).isInfix
    by_cases hnext : Starts ('\x7b' :: rest)
    · obtain ⟨placeholder, id, more, hplaceholder, heq⟩ := hnext
      exact .inl ⟨gap ++ ['\x7b'], placeholder, id, more, by simp [heq], hgap, hplaceholder⟩
    · exact .inr ⟨_, gap, rest, rfl, hgap, hhere, hnext, rfl⟩
  · exact .inl hopening

end Template

end ViewCompiler
