import ViewCompiler.Proofs.Relation.Parts
import ViewCompiler.Proofs.Sql.Placeholder
import ViewCompiler.Sql.Projection

/-!
# The layout of templates

A template is read as gaps and placeholders in turn. A gap holds no two opening braces in a row, so
that a template can be read in one way at most.

* `Template.Layout`: the gaps and placeholders of a template; `Template.Layout.eq_of_spells` says
  that a template has one layout at most.
* `Template.FailsAt`: the first place where a template cannot be filled in, with the ids asked for
  up to there.
* `Template.render_eq_ok_iff`, `Template.render_eq_error_iff`: what comes out for every resolver.
* `Template.projection_template_iff`, `Template.exists_ofExpression_iff`: the two readers of
  templates.
* `Template.render_follows_layout`: **a template is filled in by its layout if it has one and all
  its ids are resolved, and otherwise fails at the first place that is wrong.**
-/

namespace ViewCompiler

namespace Template

/-! ### Steps -/

variable {resolve : String → Except TemplateError String} {fuel : Nat}
  {cs gap id rest placeholder : List Char}

theorem fill_gap (h : ¬opening <:+: cs) : fill resolve (fuel + 1) cs = ([], .ok cs) := by
  have hnone : malformed? cs.length cs = none := malformed?_eq_none (by rwa [List.take_length])
  rw [fill, cut?_eq_none h]
  simp only [hnone]

theorem fill_placeholder (resolve : String → Except TemplateError String) (fuel : Nat)
    (hgap : ¬opening <:+: gap) (hplaceholder : Placeholder placeholder id) (rest : List Char) :
    fill resolve (fuel + 1) (gap ++ (placeholder ++ rest)) =
      match resolve (String.ofList id) with
      | .error error => ([String.ofList id], .error error)
      | .ok text =>
        (String.ofList id :: (fill resolve fuel rest).1,
          (fill resolve fuel rest).2.map (gap ++ text.toList ++ ·)) := by
  have hnone : malformed? gap.length (gap ++ (placeholder ++ rest)) = none :=
    malformed?_eq_none (by rwa [List.take_left])
  rw [fill, cut?_append hgap hplaceholder]
  cases hresolve : resolve (String.ofList id) with
  | error error => simp [hnone, hresolve]
  | ok text => simp [hnone, hresolve]

/-- A placeholder behind the first two opening braces leaves both of them in front of it, unless
it starts at one of them. -/
theorem Stuck.length_gap_le {gap : List Char} (hgap : ¬opening <:+: gap ++ ['\x7b'])
    (hhere : ¬Starts ('\x7b' :: '\x7b' :: rest)) (hnext : ¬Starts ('\x7b' :: rest)) {cut : Cut}
    (h : cut? (gap ++ '\x7b' :: '\x7b' :: rest) = some cut) :
    gap.length + 2 ≤ cut.gap.length := by
  obtain ⟨placeholder, hplaceholder, heq⟩ := exists_of_cut? h
  have hstarts : Starts (placeholder ++ cut.rest) := ⟨_, _, _, hplaceholder, rfl⟩
  rcases List.append_eq_append_iff.1 heq with ⟨more, hmore, hrest⟩ | ⟨more, hmore, hrest⟩
  · -- the placeholder starts at the braces or behind them
    rcases more with - | ⟨c, - | ⟨d, more⟩⟩
    · rw [List.nil_append] at hrest
      exact absurd (hrest ▸ hstarts) hhere
    · rw [List.singleton_append] at hrest
      exact absurd ((List.cons.inj hrest).2 ▸ hstarts) hnext
    · simp [hmore]
  · -- or in the gap, which would hold the two braces that it starts with
    obtain ⟨tail, htail, -⟩ := hstarts.exists_tail
    refine absurd ?_ hgap
    rw [hmore]
    rcases more with - | ⟨c, - | ⟨d, more⟩⟩
    · rw [List.nil_append] at hrest
      exact absurd (hrest ▸ hstarts) hhere
    · obtain rfl : c = '\x7b' := by simpa using (congrArg List.head? (hrest.symm.trans htail))
      simpa using opening_infix_append cut.gap []
    · obtain ⟨rfl, rfl, -⟩ : c = '\x7b' ∧ d = '\x7b' ∧ _ = tail := by
        simpa using hrest.symm.trans htail
      simpa using opening_infix_append cut.gap (more ++ ['\x7b'])

theorem fill_stuck {error : TemplateError} (h : Stuck cs error) :
    fill resolve (fuel + 1) cs = ([], .error error) := by
  obtain ⟨gap, rest, rfl, hgap, hhere, hnext, rfl⟩ := h
  rw [fill]
  cases hcut : cut? (gap ++ '\x7b' :: '\x7b' :: rest) with
  | none => simp [malformed?_of_opening hgap]
  | some cut =>
    simp only [malformed?_of_opening hgap (Stuck.length_gap_le hgap hhere hnext hcut)]

/-! ### Layouts -/

/-- A gap and the placeholder behind it. -/
structure Part where
  /-- The text in front of the placeholder. -/
  gap : List Char
  /-- The placeholder as it is spelled. -/
  placeholder : List Char
  /-- The id that the placeholder names. -/
  id : List Char

namespace Part

/-- The text of the part. -/
def text (part : Part) : List Char := part.gap ++ part.placeholder

/-- The id as a resolver is asked for it. -/
def name (part : Part) : String := String.ofList part.id

/-- The text of the part with another text in the place of its placeholder. -/
def filled (texts : String → String) (part : Part) : List Char :=
  part.gap ++ (texts part.name).toList

/-- The gap holds no two opening braces, and the placeholder names the id. -/
structure Proper (part : Part) : Prop where
  gap : ¬opening <:+: part.gap
  placeholder : Placeholder part.placeholder part.id

/-- The id of the part is resolved. -/
structure Resolved (resolve : String → Except TemplateError String) (part : Part) : Prop where
  proper : part.Proper
  resolved : ∃ text, resolve part.name = .ok text

theorem Proper.length_text_pos {part : Part} (h : part.Proper) : 0 < part.text.length := by
  obtain ⟨tail, htail, -⟩ := Starts.exists_tail ⟨_, _, [], h.placeholder, rfl⟩
  rw [List.append_nil] at htail
  simp [text, htail]

end Part

/-- A text as gaps and placeholders in turn. -/
structure Layout where
  /-- The gaps with the placeholders behind them. -/
  parts : List Part
  /-- The gap at the end. -/
  last : List Char

namespace Layout

/-- The ids of the placeholders, in order. -/
def names (layout : Layout) : List String := layout.parts.map Part.name

/-- The text with other texts in the places of the placeholders. -/
def filled (texts : String → String) (layout : Layout) : List Char :=
  layout.parts.flatMap (Part.filled texts) ++ layout.last

/-- The layout is one of the text. -/
structure Spells (layout : Layout) (cs : List Char) : Prop where
  parts : ∀ part ∈ layout.parts, part.Proper
  last : ¬opening <:+: layout.last
  text : cs = layout.parts.flatMap Part.text ++ layout.last

theorem opening_infix_parts {part : Part} (hpart : part.Proper) (parts : List Part)
    (more : List Char) : opening <:+: (part :: parts).flatMap Part.text ++ more := by
  obtain ⟨tail, htail, -⟩ := Starts.exists_tail ⟨_, _, [], hpart.placeholder, rfl⟩
  rw [List.append_nil] at htail
  refine ⟨part.gap, tail ++ parts.flatMap Part.text ++ more, ?_⟩
  simp [Part.text, htail, opening]

theorem cut?_parts {part : Part} (hpart : part.Proper) (parts : List Part) (more : List Char) :
    cut? ((part :: parts).flatMap Part.text ++ more) =
      some ⟨part.gap, part.id, parts.flatMap Part.text ++ more⟩ := by
  have hcut := cut?_append hpart.gap hpart.placeholder (parts.flatMap Part.text ++ more)
  simpa [Part.text] using hcut

/-- **A text has one layout at most.** -/
theorem eq_of_spells {layout other : Layout} (h : layout.Spells cs) (hother : other.Spells cs) :
    layout = other := by
  obtain ⟨parts, last⟩ := layout
  obtain ⟨others, last'⟩ := other
  obtain ⟨hparts, hlast, htext⟩ := h
  obtain ⟨hothers, hlast', htext'⟩ := hother
  have htexts := htext.symm.trans htext'
  clear htext htext'
  dsimp only at hparts hlast hothers hlast' htexts
  induction parts generalizing others with
  | nil =>
    cases others with
    | nil => simpa using htexts
    | cons other others =>
      have hinfix := opening_infix_parts (hothers other List.mem_cons_self) others last'
      rw [← htexts] at hinfix
      exact absurd hinfix hlast
  | cons part parts ih =>
    cases others with
    | nil =>
      have hinfix := opening_infix_parts (hparts part List.mem_cons_self) parts last
      rw [htexts] at hinfix
      exact absurd hinfix hlast'
    | cons other others =>
      rw [List.forall_mem_cons] at hparts hothers
      have hcut := cut?_parts hparts.1 parts last
      rw [htexts, cut?_parts hothers.1 others last'] at hcut
      obtain ⟨hgap, hid, hrest⟩ := Cut.mk.inj (Option.some.inj hcut)
      obtain ⟨rfl, rfl⟩ := Layout.mk.inj (ih others hparts.2 hothers.2 hrest.symm)
      have hplaceholder : part.placeholder = other.placeholder := by
        simpa [Part.text, hgap] using htexts
      have hpart : part = other := by
        cases part
        cases other
        simp_all
      rw [hpart]

theorem Spells.cons {layout : Layout} {part : Part} (h : layout.Spells rest)
    (hpart : part.Proper) :
    Spells ⟨part :: layout.parts, layout.last⟩ (part.text ++ rest) :=
  ⟨List.forall_mem_cons.2 ⟨hpart, h.parts⟩, h.last, by simp [h.text]⟩

end Layout

/-- The first place where a text cannot be filled in, with the ids that are asked for up to there:
behind placeholders that are resolved, the text gets stuck or a placeholder is not resolved. -/
def FailsAt (resolve : String → Except TemplateError String) (cs : List Char) (ids : List String)
    (error : TemplateError) : Prop :=
  ∃ (parts : List Part) (rest : List Char),
    cs = parts.flatMap Part.text ++ rest ∧ (∀ part ∈ parts, part.Resolved resolve) ∧
    ((ids = parts.map Part.name ∧ Stuck rest error) ∨
      ∃ (part : Part) (more : List Char), rest = part.text ++ more ∧ part.Proper ∧
        ids = parts.map Part.name ++ [part.name] ∧ resolve part.name = .error error)

theorem FailsAt.cons {part : Part} {ids : List String} {error : TemplateError}
    (h : FailsAt resolve rest ids error) (hpart : part.Resolved resolve) :
    FailsAt resolve (part.text ++ rest) (part.name :: ids) error := by
  obtain ⟨parts, more, rfl, hparts, hfails⟩ := h
  refine ⟨part :: parts, more, by simp, List.forall_mem_cons.2 ⟨hpart, hparts⟩, ?_⟩
  rcases hfails with ⟨rfl, hstuck⟩ | ⟨other, behind, rfl, hother, rfl, herror⟩
  · exact .inl ⟨rfl, hstuck⟩
  · exact .inr ⟨other, behind, rfl, hother, rfl, herror⟩

/-! ### Runs -/

theorem fill_parts {texts : String → String} {parts : List Part}
    (hparts : ∀ part ∈ parts, part.Proper)
    (hresolve : ∀ part ∈ parts, resolve part.name = .ok (texts part.name)) (fuel : Nat)
    (rest : List Char) :
    fill resolve (parts.length + fuel) (parts.flatMap Part.text ++ rest) =
      (parts.map Part.name ++ (fill resolve fuel rest).1,
        (fill resolve fuel rest).2.map (parts.flatMap (Part.filled texts) ++ ·)) := by
  induction parts with
  | nil =>
    rw [List.length_nil, Nat.zero_add, List.flatMap_nil, List.nil_append, List.map_nil]
    cases hfill : fill resolve fuel rest with
    | mk ids result => cases result <;> rfl
  | cons part parts ih =>
    rw [List.forall_mem_cons] at hparts hresolve
    have hstep := fill_placeholder resolve (parts.length + fuel) hparts.1.gap
      hparts.1.placeholder (parts.flatMap Part.text ++ rest)
    rw [ih hparts.2 hresolve.2, show resolve (String.ofList part.id) = _ from hresolve.1] at hstep
    have hlength : (part :: parts).length + fuel = parts.length + fuel + 1 := by
      rw [List.length_cons]
      omega
    have htext : (part :: parts).flatMap Part.text ++ rest =
        part.gap ++ (part.placeholder ++ (parts.flatMap Part.text ++ rest)) := by
      simp [Part.text]
    rw [hlength, htext, hstep]
    cases (fill resolve fuel rest).2 <;> simp [Except.map, Part.filled, Part.name]

theorem length_parts_le {parts : List Part} (h : ∀ part ∈ parts, part.Proper) :
    parts.length ≤ (parts.flatMap Part.text).length := by
  induction parts with
  | nil => exact Nat.le_refl 0
  | cons part parts ih =>
    rw [List.forall_mem_cons] at h
    have hpart := h.1.length_text_pos
    have hparts := ih h.2
    rw [List.length_cons, List.flatMap_cons, List.length_append]
    omega

variable {template : String} {texts : String → String}

/-- A template is read behind its first parts as a text of its own. -/
theorem fill_template {parts : List Part} (hparts : ∀ part ∈ parts, part.Proper)
    (hresolve : ∀ part ∈ parts, resolve part.name = .ok (texts part.name))
    (htext : template.toList = parts.flatMap Part.text ++ rest) :
    ∃ fuel,
      asked resolve template = parts.map Part.name ++ (fill resolve (fuel + 1) rest).1 ∧
      render resolve template = ((fill resolve (fuel + 1) rest).2.map
        (parts.flatMap (Part.filled texts) ++ ·)).map String.ofList := by
  obtain ⟨spare, hspare⟩ := Nat.exists_eq_add_of_le (length_parts_le hparts)
  have hfuel : template.toList.length + 1 = parts.length + (spare + rest.length + 1) := by
    rw [htext, List.length_append]
    omega
  have hfill := fill_parts hparts hresolve (spare + rest.length + 1) rest
  exact ⟨spare + rest.length, by rw [asked, hfuel, htext, hfill],
    by rw [render, hfuel, htext, hfill]⟩

theorem render_of_spells {layout : Layout} (h : layout.Spells template.toList)
    (hresolve : ∀ part ∈ layout.parts, resolve part.name = .ok (texts part.name)) :
    asked resolve template = layout.names ∧
      render resolve template = .ok (String.ofList (layout.filled texts)) := by
  obtain ⟨fuel, hasked, hrender⟩ := fill_template h.parts hresolve h.text
  rw [fill_gap h.last] at hasked hrender
  exact ⟨by rw [hasked, List.append_nil, Layout.names], hrender⟩

/-- The text that a resolver gives for an id, if it does not fail. -/
def known (resolve : String → Except TemplateError String) (name : String) : String :=
  (resolve name).toOption.getD ""

theorem ok_known {name : String} (h : ∃ text, resolve name = .ok text) :
    resolve name = .ok (known resolve name) := by
  obtain ⟨text, htext⟩ := h
  rw [known, htext]
  rfl

theorem render_of_failsAt {ids : List String} {error : TemplateError}
    (h : FailsAt resolve template.toList ids error) :
    asked resolve template = ids ∧ render resolve template = .error error := by
  obtain ⟨parts, rest, htext, hparts, hfails⟩ := h
  obtain ⟨fuel, hasked, hrender⟩ := fill_template
    (fun part hpart => (hparts part hpart).proper)
    (fun part hpart => ok_known (hparts part hpart).resolved) htext
  rcases hfails with ⟨rfl, hstuck⟩ | ⟨part, more, rfl, hpart, rfl, herror⟩
  · rw [fill_stuck hstuck] at hasked hrender
    exact ⟨by rw [hasked, List.append_nil], hrender⟩
  · have hstep := fill_placeholder resolve fuel hpart.gap hpart.placeholder more
    rw [show resolve (String.ofList part.id) = _ from herror, ← List.append_assoc] at hstep
    rw [Part.text, hstep] at hasked hrender
    exact ⟨hasked, hrender⟩

theorem spells_or_failsAt (resolve : String → Except TemplateError String) (cs : List Char) :
    (∃ layout : Layout, layout.Spells cs ∧ ∀ part ∈ layout.parts, part.Resolved resolve) ∨
      ∃ ids error, FailsAt resolve cs ids error := by
  -- what is left behind a part is shorter, but no part of the text by its constructors
  induction hlength : cs.length using Nat.strongRecOn generalizing cs with
  | ind length ih =>
    rcases gap_or_placeholder_or_stuck cs with
      hgap | ⟨gap, placeholder, id, rest, rfl, hgap, hplaceholder⟩ | ⟨error, hstuck⟩
    · exact .inl ⟨⟨[], cs⟩, ⟨by simp, hgap, rfl⟩, by simp⟩
    · let part : Part := ⟨gap, placeholder, id⟩
      have hpart : part.Proper := ⟨hgap, hplaceholder⟩
      have htext : gap ++ (placeholder ++ rest) = part.text ++ rest :=
        (List.append_assoc ..).symm
      rw [htext] at hlength ⊢
      cases hresolve : resolve part.name with
      | error error =>
        exact .inr ⟨_, error, [], _, rfl, by simp, .inr ⟨part, rest, rfl, hpart, rfl, hresolve⟩⟩
      | ok text =>
        have hresolved : part.Resolved resolve := ⟨hpart, text, hresolve⟩
        have hshort : rest.length < length := by
          have hpos := hpart.length_text_pos
          rw [List.length_append] at hlength
          omega
        rcases ih rest.length hshort rest rfl with ⟨layout, hspells, hall⟩ | ⟨ids, error, hfails⟩
        · exact .inl ⟨_, hspells.cons hpart, List.forall_mem_cons.2 ⟨hresolved, hall⟩⟩
        · exact .inr ⟨_, error, hfails.cons hresolved⟩
    · exact .inr ⟨[], error, [], cs, rfl, by simp, .inl ⟨rfl, hstuck⟩⟩

/-- What comes out: the text of the layout, or the failure at the first place that is wrong. -/
theorem filled_or_failsAt (resolve : String → Except TemplateError String) (template : String) :
    (∃ layout : Layout, layout.Spells template.toList ∧
      (∀ name ∈ layout.names, resolve name = .ok (known resolve name)) ∧
      asked resolve template = layout.names ∧
      render resolve template = .ok (String.ofList (layout.filled (known resolve)))) ∨
    ∃ error, FailsAt resolve template.toList (asked resolve template) error ∧
      render resolve template = .error error := by
  rcases spells_or_failsAt resolve template.toList with
    ⟨layout, hspells, hall⟩ | ⟨ids, error, hfails⟩
  · have hresolve : ∀ part ∈ layout.parts, resolve part.name = .ok (known resolve part.name) :=
      fun part hpart => ok_known (hall part hpart).resolved
    exact .inl ⟨layout, hspells, List.forall_mem_map.2 hresolve,
      render_of_spells hspells hresolve⟩
  · obtain ⟨rfl, hrender⟩ := render_of_failsAt hfails
    exact .inr ⟨error, hfails, hrender⟩

theorem render_eq_ok_iff {ids : List String} {result : String} :
    (asked resolve template = ids ∧ render resolve template = .ok result) ↔
      ∃ (layout : Layout) (texts : String → String), layout.Spells template.toList ∧
        (∀ name ∈ layout.names, resolve name = .ok (texts name)) ∧
        ids = layout.names ∧ result = String.ofList (layout.filled texts) := by
  constructor
  · rintro ⟨rfl, hrender⟩
    rcases filled_or_failsAt resolve template with
      ⟨layout, hspells, hresolve, hasked, hresult⟩ | ⟨error, -, herror⟩
    · exact ⟨layout, _, hspells, hresolve, hasked, Except.ok.inj (hrender.symm.trans hresult)⟩
    · cases hrender.symm.trans herror
  · rintro ⟨layout, texts, hspells, hresolve, rfl, rfl⟩
    exact render_of_spells hspells (List.forall_mem_map.1 hresolve)

theorem render_eq_error_iff {ids : List String} {error : TemplateError} :
    (asked resolve template = ids ∧ render resolve template = .error error) ↔
      FailsAt resolve template.toList ids error := by
  refine ⟨?_, render_of_failsAt⟩
  rintro ⟨rfl, hrender⟩
  rcases filled_or_failsAt resolve template with
    ⟨layout, -, -, -, hresult⟩ | ⟨found, hfails, herror⟩
  · cases hrender.symm.trans hresult
  · obtain rfl := Except.error.inj (hrender.symm.trans herror)
    exact hfails

/-! ### Resolvers that do not fail -/

/-- A resolver that knows every id. -/
def knowing (texts : String → String) (id : String) : Except TemplateError String := .ok (texts id)

theorem render_knowing_of_spells {layout : Layout} (h : layout.Spells template.toList)
    (texts : String → String) :
    asked (knowing texts) template = layout.names ∧
      render (knowing texts) template = .ok (String.ofList (layout.filled texts)) :=
  render_of_spells h fun _ _ => rfl

theorem exists_render_knowing_iff (template : String) (texts : String → String) :
    (∃ result, render (knowing texts) template = .ok result) ↔
      ∃ layout : Layout, layout.Spells template.toList := by
  constructor
  · rintro ⟨result, hrender⟩
    obtain ⟨layout, -, hspells, -⟩ := render_eq_ok_iff.1 ⟨rfl, hrender⟩
    exact ⟨layout, hspells⟩
  · rintro ⟨layout, hspells⟩
    exact ⟨_, (render_knowing_of_spells hspells texts).2⟩

/-- A resolver that knows every id leaves only the stuck places. -/
theorem FailsAt.knowing {ids : List String} {error : TemplateError}
    (h : FailsAt (knowing texts) cs ids error) (others : String → String) :
    FailsAt (knowing others) cs ids error := by
  obtain ⟨parts, rest, rfl, hparts, ⟨rfl, hstuck⟩ | ⟨part, -, -, -, -, herror⟩⟩ := h
  · exact ⟨parts, rest, rfl, fun part hpart => ⟨(hparts part hpart).proper, _, rfl⟩,
      .inl ⟨rfl, hstuck⟩⟩
  · cases herror

theorem asked_knowing (template : String) (texts others : String → String) :
    asked (knowing texts) template = asked (knowing others) template := by
  cases hrender : render (knowing texts) template with
  | ok result =>
    obtain ⟨layout, hspells⟩ := (exists_render_knowing_iff template texts).1 ⟨result, hrender⟩
    rw [(render_knowing_of_spells hspells texts).1, (render_knowing_of_spells hspells others).1]
  | error error =>
    exact (render_eq_error_iff.2 ((render_eq_error_iff.1 ⟨rfl, hrender⟩).knowing others)).1.symm

/-! ### The two readers of templates -/

/-- The projection of a statement fails at its placeholders exactly where there is no layout. -/
theorem projection_template_iff [Readers] :
    (∃ cause, Projection.ofExpression template = .error (.template cause)) ↔
      (Text.trim template.toList).isEmpty = false ∧
        ¬∃ layout : Layout, layout.Spells template.toList := by
  rw [← exists_render_knowing_iff template Sql.quoteIdent, Projection.ofExpression]
  split
  · next hblank => simp [hblank]
  next hblank =>
  rw [show (fun id => Except.ok (Sql.quoteIdent id)) = knowing Sql.quoteIdent from rfl]
  cases render (knowing Sql.quoteIdent) template with
  | error cause => simpa using hblank
  | ok sql =>
    simp only [Except.ok.injEq, exists_eq', not_true_eq_false, and_false, iff_false]
    rintro ⟨cause, hcause⟩
    split at hcause
    · cases hcause
    · split at hcause <;> cases hcause

theorem exists_placeholderSql_iff {relations : List (String × Relation)} {id : String} :
    (∃ text, Relation.placeholderSql relations id = .ok text) ↔ id ∈ relations.map Prod.fst := by
  refine ⟨Relation.mem_of_placeholderSql, fun hid => ?_⟩
  obtain ⟨entry, hentry, rfl⟩ := List.mem_map.1 hid
  rw [Relation.placeholderSql]
  cases hfind : relations.find? fun other => other.1 = entry.1 with
  | none => simpa using List.find?_eq_none.1 hfind entry hentry
  | some found => exact ⟨_, rfl⟩

/-- An expression over relations is compiled exactly if it has a layout and names them only. -/
theorem exists_ofExpression_iff {outputs : FieldSet} {relations : List (String × Relation)} :
    (∃ relation, Relation.ofExpression outputs template relations = .ok relation) ↔
      ∃ layout : Layout, layout.Spells template.toList ∧
        ∀ name ∈ layout.names, name ∈ relations.map Prod.fst := by
  have hrender : (∃ relation, Relation.ofExpression outputs template relations = .ok relation) ↔
      ∃ result, render (Relation.placeholderSql relations) template = .ok result := by
    rw [Relation.ofExpression]
    cases render (Relation.placeholderSql relations) template <;> simp
  rw [hrender]
  constructor
  · rintro ⟨result, hresult⟩
    obtain ⟨layout, texts, hspells, hresolve, -⟩ := render_eq_ok_iff.1 ⟨rfl, hresult⟩
    exact ⟨layout, hspells, fun name hname => exists_placeholderSql_iff.1 ⟨_, hresolve name hname⟩⟩
  · rintro ⟨layout, hspells, hnames⟩
    have hresolve : ∀ name ∈ layout.names, Relation.placeholderSql relations name =
        .ok (known (Relation.placeholderSql relations) name) :=
      fun name hname => ok_known (exists_placeholderSql_iff.2 (hnames name hname))
    exact ⟨_, (render_eq_ok_iff.2 ⟨layout, _, hspells, hresolve, rfl, rfl⟩).2⟩

/-- **A template is filled in by its layout, and fails at the first place that is wrong.** A
template has one layout at most. A resolver that knows every id fills it in exactly if it has one:
what the resolver gives is put in the places of the placeholders and is not read again. The ids
that are asked for do not depend on that resolver, so that the projection of a statement and its
compilation over relations read the same placeholders. -/
theorem render_follows_layout [Readers] (template : String) :
    (∀ layout other : Layout, layout.Spells template.toList → other.Spells template.toList →
      layout = other) ∧
    (∀ texts : String → String,
      ((∃ result, render (fun id => .ok (texts id)) template = .ok result) ↔
        ∃ layout : Layout, layout.Spells template.toList) ∧
      ∀ layout : Layout, layout.Spells template.toList →
        render (fun id => .ok (texts id)) template =
            .ok (String.ofList (layout.filled texts)) ∧
          asked (fun id => .ok (texts id)) template = layout.names) ∧
    (∀ texts others : String → String,
      ((∃ result, render (fun id => .ok (texts id)) template = .ok result) ↔
        ∃ result, render (fun id => .ok (others id)) template = .ok result) ∧
      asked (fun id => .ok (texts id)) template = asked (fun id => .ok (others id)) template) ∧
    (∀ (resolve : String → Except TemplateError String) (ids : List String) (result : String),
      (asked resolve template = ids ∧ render resolve template = .ok result) ↔
        ∃ (layout : Layout) (texts : String → String), layout.Spells template.toList ∧
          (∀ name ∈ layout.names, resolve name = .ok (texts name)) ∧
          ids = layout.names ∧ result = String.ofList (layout.filled texts)) ∧
    (∀ (resolve : String → Except TemplateError String) (ids : List String)
        (error : TemplateError),
      (asked resolve template = ids ∧ render resolve template = .error error) ↔
        FailsAt resolve template.toList ids error) ∧
    ((∃ cause, Projection.ofExpression template = .error (.template cause)) ↔
      (Text.trim template.toList).isEmpty = false ∧
        ¬∃ layout : Layout, layout.Spells template.toList) ∧
    ∀ (outputs : FieldSet) (relations : List (String × Relation)),
      (∃ relation, Relation.ofExpression outputs template relations = .ok relation) ↔
        ∃ layout : Layout, layout.Spells template.toList ∧
          ∀ name ∈ layout.names, name ∈ relations.map Prod.fst := by
  refine ⟨fun _ _ => Layout.eq_of_spells,
    fun texts => ⟨exists_render_knowing_iff template texts, ?_⟩,
    fun texts others => ⟨?_, asked_knowing template texts others⟩,
    fun _ _ _ => render_eq_ok_iff, fun _ _ _ => render_eq_error_iff, projection_template_iff,
    fun _ _ => exists_ofExpression_iff⟩
  · intro layout hspells
    exact (render_knowing_of_spells hspells texts).symm
  · exact (exists_render_knowing_iff template texts).trans
      (exists_render_knowing_iff template others).symm

-- three braces in a row, and an id with braces of its own
example : render (fun id => .ok ("<" ++ id ++ ">"))
    "\x7b\x7b\x7b.a\x7d\x7d\x7b\x7b node \"\x7b\x7b.b\x7d\x7d\" \x7d\x7d" =
      .ok "\x7b<a><\x7b\x7b.b\x7d\x7d>" := by
  rfl

end Template

end ViewCompiler
