import Mathlib.Data.List.Infix
import ViewCompiler.Filter.Condition
import ViewCompiler.Filter.Clause
import ViewCompiler.Proofs.Filter.Addressed

/-!
# What patterns match

A text is looked for by a pattern in SQL and by another one in the search language. Both languages
have a wildcard for every text, one for every character, and a backslash that takes the meaning of
a wildcard from the character behind it.

* `Glob.accepts`: the texts that a sequence of wildcards and characters stands for.
* `Wildcards.read?`: a pattern as such a sequence; `Wildcards.Escapes.read?_escaped` says that an
  escaped text stands for itself.
* `Clause.escapeWildcard_eq_replaced`: a pattern of the search language is escaped by three
  replacements, the backslash first.
* `Comparison.patterns_match`: **both backends look for the texts that contain a text, and for
  those that start with it.**
-/

namespace ViewCompiler

/-! ### Patterns -/

/-- A part of a pattern. -/
inductive Glob where
  /-- Every text. -/
  | many
  /-- Every character. -/
  | one
  /-- The character. -/
  | char (c : Char)
  deriving DecidableEq, Repr

namespace Glob

/-- Does the text as a whole match the pattern? -/
def accepts : List Glob → List Char → Bool
  | [], text => text.isEmpty
  | .many :: rest, text => text.tails.any (accepts rest)
  | .one :: rest, _ :: text => accepts rest text
  | .char c :: rest, d :: text => c = d && accepts rest text
  | .one :: _, [] => false
  | .char _ :: _, [] => false

variable {globs : List Glob} {cs text : List Char}

theorem accepts_many : accepts (.many :: globs) text = true ↔
    ∃ behind, behind <:+ text ∧ accepts globs behind = true := by
  simp only [accepts, List.any_eq_true, List.mem_tails]

theorem accepts_chars :
    accepts (cs.map .char ++ globs) text = true ↔
      ∃ behind, text = cs ++ behind ∧ accepts globs behind = true := by
  induction cs generalizing text with
  | nil => simp
  | cons c cs ih =>
    cases text with
    | nil => simp [accepts]
    | cons d text =>
      rw [List.map_cons, List.cons_append, accepts, Bool.and_eq_true, decide_eq_true_eq, ih]
      constructor
      · rintro ⟨rfl, behind, rfl, hbehind⟩
        exact ⟨behind, rfl, hbehind⟩
      · rintro ⟨behind, heq, hbehind⟩
        obtain ⟨rfl, rfl⟩ := List.cons.inj heq
        exact ⟨rfl, behind, rfl, hbehind⟩

theorem accepts_many_self (text : List Char) : accepts [.many] text = true :=
  accepts_many.2 ⟨[], List.nil_suffix, rfl⟩

theorem accepts_starting : accepts (cs.map .char ++ [.many]) text = true ↔ cs <+: text := by
  rw [accepts_chars]
  constructor
  · rintro ⟨behind, rfl, -⟩
    exact List.prefix_append cs behind
  · rintro ⟨behind, rfl⟩
    exact ⟨behind, rfl, accepts_many_self behind⟩

theorem accepts_containing :
    accepts (.many :: (cs.map .char ++ [.many])) text = true ↔ cs <:+: text := by
  simp only [accepts_many, accepts_starting]
  constructor
  · rintro ⟨behind, ⟨front, rfl⟩, more, rfl⟩
    exact ⟨front, more, by simp⟩
  · rintro ⟨front, more, rfl⟩
    exact ⟨cs ++ more, ⟨front, by simp⟩, List.prefix_append cs more⟩

end Glob

/-- The wildcards of a language of patterns. -/
structure Wildcards where
  /-- The character that stands for every text. -/
  many : Char
  /-- The character that stands for every character. -/
  one : Char

namespace Wildcards

/-- The wildcards of a `LIKE` pattern. -/
def like : Wildcards := ⟨'%', '_'⟩

/-- The wildcards of the search language. -/
def search : Wildcards := ⟨'*', '?'⟩

variable (wildcards : Wildcards)

/-- The part that a character stands for. -/
def glob (c : Char) : Glob :=
  if c = wildcards.many then .many else if c = wildcards.one then .one else .char c

/-- The parts of a pattern. A backslash stands for the character behind it, and there must be
one. -/
def read? : List Char → Option (List Glob)
  | [] => some []
  | ['\\'] => none
  | '\\' :: c :: rest => (read? rest).map (.char c :: ·)
  | c :: rest => (read? rest).map (wildcards.glob c :: ·)

/-- Does the text match the pattern? -/
def accepts (pattern text : String) : Bool :=
  (wildcards.read? pattern.toList).any (Glob.accepts · text.toList)

/-- The characters with a backslash before each of a class. -/
def escaped (special : Char → Bool) (cs : List Char) : List Char :=
  cs.flatMap fun c => if special c then ['\\', c] else [c]

variable {wildcards} {special : Char → Bool} {cs rest : List Char} {globs : List Glob}

theorem read?_cons {c : Char} (h : c ≠ '\\') :
    wildcards.read? (c :: rest) = (wildcards.read? rest).map (wildcards.glob c :: ·) := by
  rw [read?]
  · exact fun hc _ => h hc
  · exact fun _ _ hc _ => h hc

theorem escaped_cons (special : Char → Bool) (c : Char) (cs : List Char) :
    escaped special (c :: cs) =
      if special c then '\\' :: c :: escaped special cs else c :: escaped special cs := by
  rw [escaped, List.flatMap_cons, ← escaped]
  split <;> rfl

/-- A class of characters holds all that have a meaning of their own in the patterns. -/
structure Escapes (wildcards : Wildcards) (special : Char → Bool) : Prop where
  backslash : special '\\' = true
  many : special wildcards.many = true
  one : special wildcards.one = true
  apart : wildcards.many ≠ '\\'

/-- An escaped text stands for its characters. -/
theorem Escapes.read?_escaped (h : wildcards.Escapes special)
    (hrest : wildcards.read? rest = some globs) :
    wildcards.read? (escaped special cs ++ rest) = some (cs.map .char ++ globs) := by
  induction cs with
  | nil => exact hrest
  | cons c cs ih =>
    rw [escaped_cons]
    split
    · rw [List.cons_append, List.cons_append, read?, ih]
      rfl
    · next hplain =>
      -- what is not escaped is no wildcard
      have hglob : wildcards.glob c = .char c := by
        rw [glob, if_neg, if_neg]
        · exact fun hc => hplain (hc ▸ h.one)
        · exact fun hc => hplain (hc ▸ h.many)
      have hne : c ≠ '\\' := fun hc => hplain (hc ▸ h.backslash)
      rw [List.cons_append, read?_cons hne, ih, hglob]
      rfl

theorem Escapes.read?_many (h : wildcards.Escapes special)
    (hrest : wildcards.read? rest = some globs) :
    wildcards.read? (wildcards.many :: rest) = some (.many :: globs) := by
  rw [read?_cons h.apart, hrest, glob, if_pos rfl]
  rfl

theorem Escapes.accepts_starting (h : wildcards.Escapes special) {pattern s : String}
    (hpattern : pattern.toList = escaped special s.toList ++ [wildcards.many]) (t : String) :
    wildcards.accepts pattern t = true ↔ s.toList <+: t.toList := by
  rw [accepts, hpattern, h.read?_escaped (h.read?_many rfl)]
  exact Glob.accepts_starting

theorem Escapes.accepts_containing (h : wildcards.Escapes special) {pattern s : String}
    (hpattern : pattern.toList =
      wildcards.many :: (escaped special s.toList ++ [wildcards.many])) (t : String) :
    wildcards.accepts pattern t = true ↔ s.toList <:+: t.toList := by
  rw [accepts, hpattern, h.read?_many (h.read?_escaped (h.read?_many rfl))]
  exact Glob.accepts_containing

end Wildcards

/-! ### Escaping -/

theorem Sql.escapeLikeChars_eq_escaped (cs : List Char) :
    escapeLikeChars cs = Wildcards.escaped isLikeSpecial cs := by
  induction cs with
  | nil => rfl
  | cons c cs ih =>
    rw [escapeLikeChars, ih, Wildcards.escaped_cons]

namespace Clause

/-- Has the character a meaning of its own in a pattern of the search language? -/
def isWildcardSpecial (c : Char) : Bool := c = '\\' || c = '*' || c = '?'

theorem escapeWildcard_eq_escaped (cs : List Char) :
    escapeWildcard cs = Wildcards.escaped isWildcardSpecial cs := by
  induction cs with
  | nil => rfl
  | cons c cs ih =>
    rw [escapeWildcard, ih, Wildcards.escaped_cons, isWildcardSpecial]

/-- The characters with a backslash before each `c`. -/
def replaced (c : Char) (cs : List Char) : List Char := Wildcards.escaped (· = c) cs

/-- **The wildcards of a text are escaped by replacements in turn.** The backslash comes first, so
that none is escaped that a replacement put in. -/
theorem escapeWildcard_eq_replaced (cs : List Char) :
    escapeWildcard cs = replaced '?' (replaced '*' (replaced '\\' cs)) := by
  rw [escapeWildcard_eq_escaped]
  simp only [replaced, Wildcards.escaped, List.flatMap_assoc]
  congr 1
  funext c
  by_cases hbackslash : c = '\\'
  · subst hbackslash
    rfl
  by_cases hmany : c = '*'
  · subst hmany
    rfl
  by_cases hone : c = '?'
  · subst hone
    rfl
  simp [isWildcardSpecial, hbackslash, hmany, hone]

end Clause

/-! ### Literals -/

/-- The text of a literal. -/
def Sql.textOf? (literal : String) : Option String :=
  match literal.toList with
  | '\'' :: rest =>
    match Token.readQuoted '\'' rest with
    | some (cs, []) => some (String.ofList cs)
    | _ => none
  | _ => none

theorem Sql.textOf?_quoteString (text : String) : textOf? (quoteString text) = some text := by
  have hread : Token.readQuoted '\'' (doubled '\'' text.toList ++ ['\'']) =
      some (text.toList, []) :=
    Token.readQuoted_doubled text.toList (by simp)
  rw [textOf?, quoteString, String.toList_ofList, enclosed]
  simp only [List.cons_append, hread, String.ofList_toList]

/-! ### Patterns of texts -/

namespace Wildcards

theorem escapes_like : like.Escapes Sql.isLikeSpecial := ⟨rfl, rfl, rfl, by decide⟩

theorem escapes_search : search.Escapes Clause.isWildcardSpecial := ⟨rfl, rfl, rfl, by decide⟩

theorem like_containing (s t : String) :
    like.accepts ("%" ++ Sql.escapeLike s ++ "%") t = true ↔ s.toList <:+: t.toList :=
  escapes_like.accepts_containing
    (by simp [like, Sql.escapeLike, Sql.escapeLikeChars_eq_escaped]) t

theorem like_starting (s t : String) :
    like.accepts ("" ++ Sql.escapeLike s ++ "%") t = true ↔ s.toList <+: t.toList :=
  escapes_like.accepts_starting
    (by simp [like, Sql.escapeLike, Sql.escapeLikeChars_eq_escaped]) t

theorem search_containing (s t : String) :
    search.accepts (Clause.containing s) t = true ↔ s.toList <:+: t.toList :=
  escapes_search.accepts_containing
    (by simp [search, Clause.containing, Clause.escapeWildcard_eq_escaped]) t

end Wildcards

/-! ### Comparisons -/

/-- The documents whose value matches a pattern. -/
def Clause.wildcard (path pattern : String) : Json :=
  single "wildcard" (single path (single "value" (.string pattern)))

namespace Comparison

/-- The condition compares the column with a pattern: behind the sign stands a literal, whose text
matches the texts with a property. -/
def ConditionMatches (comparison : Comparison) (sign : String) (property : String → Prop) : Prop :=
  ∃ literal pattern,
    comparison.condition = .ok (Sql.quoteIdent comparison.column.column ++ sign ++ literal) ∧
      Sql.textOf? literal = some pattern ∧
      ∀ t, Wildcards.like.accepts pattern t = true ↔ property t

theorem conditionMatches_of_pattern {comparison : Comparison} {sign pattern : String}
    {property : String → Prop}
    (hcondition : comparison.condition =
      .ok (Sql.quoteIdent comparison.column.column ++ sign ++ Sql.quoteString pattern))
    (hpattern : ∀ t, Wildcards.like.accepts pattern t = true ↔ property t) :
    comparison.ConditionMatches sign property :=
  ⟨_, pattern, hcondition, Sql.textOf?_quoteString pattern, hpattern⟩

/-- **Both backends look for the texts that contain a text, and for those that start with it.** The
literals and the wildcard pattern are built from the text so that none of its characters is a
wildcard. -/
theorem patterns_match {column : Column} (hcolumn : column.column ≠ Filter.allFields)
    (operation s : String) :
    (Comparison.mk column .like operation (.string s)).ConditionMatches " LIKE "
        (fun t => s.toList <:+: t.toList) ∧
      (Comparison.mk column .notLike operation (.string s)).ConditionMatches " NOT LIKE "
        (fun t => s.toList <:+: t.toList) ∧
      (Comparison.mk column .startsWith operation (.string s)).ConditionMatches " LIKE "
        (fun t => s.toList <+: t.toList) ∧
      (Comparison.mk column .notStartsWith operation (.string s)).ConditionMatches " NOT LIKE "
        (fun t => s.toList <+: t.toList) ∧
      ∃ pattern : String,
        pattern.toList = '*' :: Clause.replaced '?' (Clause.replaced '*'
          (Clause.replaced '\\' s.toList)) ++ ['*'] ∧
        Clause.ofComparison ⟨column, .like, operation, .string s⟩ =
          Clause.wildcard column.exactPath pattern ∧
        Clause.ofComparison ⟨column, .notLike, operation, .string s⟩ =
          Clause.mustNot (Clause.wildcard column.exactPath pattern) ∧
        ∀ t : String, Wildcards.search.accepts pattern t = true ↔ s.toList <:+: t.toList := by
  have hcontaining := Wildcards.like_containing s
  have hstarting := Wildcards.like_starting s
  refine ⟨conditionMatches_of_pattern ?_ hcontaining, conditionMatches_of_pattern ?_ hcontaining,
    conditionMatches_of_pattern ?_ hstarting, conditionMatches_of_pattern ?_ hstarting,
    Clause.containing s, ?_, rfl, rfl, Wildcards.search_containing s⟩
  case refine_5 =>
    rw [Clause.containing, String.toList_ofList, Clause.escapeWildcard_eq_replaced]
  all_goals
    rw [condition, if_neg hcolumn]
    rfl

/-- A text of wildcards, backslashes and quotes is found as it stands. -/
theorem patterns_match_wildcards :
    let column : Column := ⟨"note", "note", .text, true⟩
    let comparison (operator : Operator) : Comparison :=
      ⟨column, operator, "like", .string "50%_\\*?'"⟩
    column.column ≠ Filter.allFields ∧
      (comparison .like).condition = .ok "\"note\" LIKE '%50\\%\\_\\\\*?''%'" ∧
      Clause.ofComparison (comparison .like) =
        Clause.wildcard "note.keyword" "*50%_\\\\\\*\\?'*" ∧
      (comparison .like).ConditionMatches " LIKE "
        (fun t => "50%_\\*?'".toList <:+: t.toList) ∧
      (comparison .startsWith).ConditionMatches " LIKE "
        (fun t => "50%_\\*?'".toList <+: t.toList) ∧
      ∀ t : String, Wildcards.search.accepts "*50%_\\\\\\*\\?'*" t = true ↔
        "50%_\\*?'".toList <:+: t.toList := by
  have hcolumn : (⟨"note", "note", .text, true⟩ : Column).column ≠ Filter.allFields := by decide
  obtain ⟨hlike, -, hstarts, -, pattern, hpattern, -, -, hclause⟩ :=
    patterns_match hcolumn "like" "50%_\\*?'"
  obtain rfl : pattern = "*50%_\\\\\\*\\?'*" := String.toList_inj.1 (hpattern.trans (by decide))
  exact ⟨hcolumn, rfl, rfl, hlike, hstarts, hclause⟩

end Comparison

end ViewCompiler
