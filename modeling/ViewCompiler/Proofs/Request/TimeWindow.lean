import ViewCompiler.Proofs.Page.Renaming
import ViewCompiler.Request.Search
import ViewCompiler.Request.Statement

/-!
# The time window in searches and in statements

A search asks for the time window of a query in milliseconds, a statement asks for it in seconds.

* `Clause.KeepsInstant`, `Sql.KeepsInstant`: which instants do a range clause and a condition over
  times keep?
* `Sql.TimeTest`: the conditions over times; different ones have different texts
  (`TimeTest.text_inj`), so that a condition is read in one way only.
* `Query.InSearch`, `Query.InStatement`: the instants that the two windows of a query hold.
* `Query.inStatement_iff`: **of the instants that the search keeps, the statement loses those of the
  second that a bound cuts into, where the bound is rounded into the window.**
-/

namespace ViewCompiler

theorem Text.append_cons_inj_of_notMem {first second rest others : List Char} {c : Char}
    (hfirst : c ∉ first) (hsecond : c ∉ second)
    (h : first ++ c :: rest = second ++ c :: others) : first = second ∧ rest = others := by
  have hreverse : rest.reverse ++ c :: first.reverse = others.reverse ++ c :: second.reverse := by
    simpa using congrArg List.reverse h
  obtain ⟨hrest, heq⟩ := append_cons_inj (mt List.mem_reverse.1 hfirst)
    (mt List.mem_reverse.1 hsecond) hreverse
  exact ⟨List.reverse_injective heq, List.reverse_injective hrest⟩

/-! ### Range clauses -/

namespace Clause

/-- The instant lies as a bound of a range says. -/
def WithinBound (t : Int) (bound : String × Json) : Prop :=
  (∃ n, bound = ("gte", .int n) ∧ n ≤ t) ∨ ∃ n, bound = ("lte", .int n) ∧ t ≤ n

/-- The clause is a range over the times of the documents that keeps the instant; its bounds are in
milliseconds. -/
def KeepsInstant (clause : Json) (t : Int) : Prop :=
  ∃ bounds : List (String × Json),
    clause = single "range" (single "@timestamp" (.object bounds)) ∧
      ∀ bound ∈ bounds, WithinBound t bound

variable {t n : Int} {bounds : List (String × Json)}

theorem keepsInstant_iff :
    KeepsInstant (single "range" (single "@timestamp" (.object bounds))) t ↔
      ∀ bound ∈ bounds, WithinBound t bound := by
  constructor
  · rintro ⟨others, heq, hall⟩
    obtain rfl : bounds = others := by simpa [single] using heq
    exact hall
  · exact fun hall => ⟨bounds, rfl, hall⟩

theorem withinBound_lower : WithinBound t ("gte", .int n) ↔ n ≤ t := by
  simp [WithinBound, Json.int]

theorem withinBound_upper : WithinBound t ("lte", .int n) ↔ t ≤ n := by
  simp [WithinBound, Json.int]

theorem keepsInstant_timeRange (start stop : Int) :
    (∀ clause, timeRange start stop = some clause → KeepsInstant clause t) ↔
      (start ≠ 0 → start ≤ t) ∧ (stop ≠ 0 → t ≤ stop) := by
  have horder : ¬ "lte" < "gte" := by decide
  by_cases hstart : start = 0 <;> by_cases hstop : stop = 0 <;>
    simp [timeRange, hstart, hstop, range, Json.ofMembers, KeyMap.ofList, KeyMap.insert,
      KeyMap.empty, horder, keepsInstant_iff, withinBound_lower, withinBound_upper]

end Clause

/-! ### Conditions over times -/

namespace Sql

/-- A test of a time against instants in seconds. -/
inductive TimeTest where
  | atLeast (lower : Int)
  | atMost (upper : Int)
  | between (lower upper : Int)

namespace TimeTest

/-- The time, in milliseconds, passes the test. -/
def Holds : TimeTest → Int → Prop
  | atLeast lower, t => lower * 1000 ≤ t
  | atMost upper, t => t ≤ upper * 1000
  | between lower upper, t => lower * 1000 ≤ t ∧ t ≤ upper * 1000

/-- The comparison at the start of the test. -/
def sign : TimeTest → String
  | atLeast _ => " >= "
  | atMost _ => " <= "
  | between .. => " BETWEEN "

/-- The first instant of the test. -/
def first : TimeTest → Int
  | atLeast lower => lower
  | atMost upper => upper
  | between lower _ => lower

/-- What comes behind the first instant. -/
def rest : TimeTest → String
  | between _ upper => " AND " ++ ("from_unixtime(" ++ toString upper ++ ")")
  | _ => ""

/-- The test of a column as a condition. -/
def text (column : String) (test : TimeTest) : String :=
  quoteIdent column ++ test.sign ++ ("from_unixtime(" ++ toString test.first ++ ")") ++ test.rest

end TimeTest

/-- The condition is a test of the times in a column that the instant, in milliseconds, passes. -/
def KeepsInstant (column condition : String) (t : Int) : Prop :=
  ∃ test : TimeTest, condition = test.text column ∧ test.Holds t

theorem parenthesis_notMem_toString (n : Int) : ')' ∉ (toString n).toList := by
  rw [Int.toString_eq_repr, Int.repr_eq_if]
  split
  · exact SqlColumn.notMem_toString (by decide) _
  · rw [String.toList_append, List.mem_append, not_or]
    exact ⟨by decide, SqlColumn.notMem_toString (by decide) _⟩

theorem toString_int_inj {n m : Int} (h : (toString n).toList = (toString m).toList) : n = m := by
  have hminus : ∀ k l : Nat, k.repr.toList ≠ ("-" ++ l.repr).toList := by
    intro k l heq
    refine SqlColumn.notMem_toString (by decide : '-'.isDigit = false) k ?_
    simp [heq]
  rw [Int.toString_eq_repr, Int.toString_eq_repr, Int.repr_eq_if, Int.repr_eq_if] at h
  split at h <;> split at h
  · have hnat := SqlColumn.toString_inj h
    omega
  · exact absurd h (hminus _ _)
  · exact absurd h.symm (hminus _ _)
  · rw [String.toList_append, String.toList_append] at h
    have hnat := SqlColumn.toString_inj (List.append_cancel_left h)
    omega

theorem TimeTest.letter_notMem_sign (test : TimeTest) : 'f' ∉ test.sign.toList := by
  cases test <;> simp [sign]

/-- The parts of a condition, up to each character that ends one of them. -/
theorem TimeTest.toList_text (column : String) (test : TimeTest) :
    (test.text column).toList = (quoteIdent column).toList ++ (test.sign.toList ++
      'f' :: ("rom_unixtime(".toList ++ ((toString test.first).toList ++
        ')' :: test.rest.toList))) := by
  have hname : "from_unixtime(" = "f" ++ "rom_unixtime(" := by decide
  have hletter : "f".toList = ['f'] := rfl
  have hclose : ")".toList = [')'] := rfl
  simp only [text, hname, String.toList_append, hletter, hclose, List.append_assoc,
    List.cons_append, List.nil_append]

/-- A condition is the text of one test. -/
theorem TimeTest.text_inj {column : String} {test other : TimeTest}
    (h : test.text column = other.text column) : test = other := by
  have htexts := congrArg String.toList h
  rw [toList_text, toList_text, List.append_cancel_left_eq] at htexts
  obtain ⟨hsign, hinstants⟩ := Text.append_cons_inj_of_notMem test.letter_notMem_sign
    other.letter_notMem_sign htexts
  rw [List.append_cancel_left_eq] at hinstants
  obtain ⟨hfirst, hrest⟩ := Text.append_cons_inj_of_notMem (parenthesis_notMem_toString _)
    (parenthesis_notMem_toString _) hinstants
  have hfirst := toString_int_inj hfirst
  rw [String.toList_inj] at hsign hrest
  cases test <;> cases other
  case atLeast.atLeast => exact congrArg atLeast hfirst
  case atMost.atMost => exact congrArg atMost hfirst
  case between.between =>
    rw [rest, rest, String.append_right_inj, String.append_left_inj,
      String.append_right_inj] at hrest
    exact congr (congrArg between hfirst) (toString_int_inj (congrArg String.toList hrest))
  -- different tests have different signs
  all_goals exact absurd hsign (by rw [sign, sign]; decide)

theorem keepsInstant_text {column : String} {test : TimeTest} {t : Int} :
    KeepsInstant column (test.text column) t ↔ test.Holds t := by
  constructor
  · rintro ⟨other, hother, hholds⟩
    obtain rfl := TimeTest.text_inj hother
    exact hholds
  · exact fun hholds => ⟨test, rfl, hholds⟩

end Sql

/-! ### The windows of a query -/

namespace Query

open SqlRequest (timeWindow timeFilter)

/-- A search for the query keeps the instant, in milliseconds; without a window it keeps all. -/
def InSearch (query : Query) (t : Int) : Prop :=
  ∀ clause, timeRange query.start query.stop = some clause → Clause.KeepsInstant clause t

/-- A statement for the query keeps the instant, in milliseconds; without a window it keeps all. -/
def InStatement (query : Query) (t : Int) : Prop :=
  ∀ condition, timeFilter query = some condition →
    Sql.KeepsInstant (query.dateField.getD "") condition t

variable {query : Query} {t : Int}

theorem inSearch_iff :
    query.InSearch t ↔
      (query.start ≠ 0 → query.start ≤ t) ∧ (query.stop ≠ 0 → t ≤ query.stop) :=
  Clause.keepsInstant_timeRange query.start query.stop

/-- The test of a time window: a bound of zero is none, and the others are cut to seconds. -/
def timeTest? (start stop : Int) : Option Sql.TimeTest :=
  if start = 0 then
    if stop = 0 then none else some (.atMost (stop.tdiv 1000))
  else if stop = 0 then some (.atLeast (start.tdiv 1000))
  else some (.between (start.tdiv 1000) (stop.tdiv 1000))

theorem timeWindow_eq (column : String) (start stop : Int) :
    timeWindow column start stop = (timeTest? start stop).map (Sql.TimeTest.text column) := by
  rw [timeWindow, timeTest?]
  split
  · split
    · rfl
    · exact congrArg some String.append_empty.symm
  · split
    · exact congrArg some String.append_empty.symm
    · exact congrArg some (String.append_assoc ..)

theorem inStatement_iff_bounds {column : String} (hcolumn : query.dateField = some column)
    (hname : column ≠ "") :
    query.InStatement t ↔
      (query.start ≠ 0 → query.start.tdiv 1000 * 1000 ≤ t) ∧
        (query.stop ≠ 0 → t ≤ query.stop.tdiv 1000 * 1000) := by
  have hfilter : timeFilter query = (timeTest? query.start query.stop).map
      (Sql.TimeTest.text column) := by
    have hsome : (some column).filter (· ≠ "") = some column := by simp [hname]
    rw [timeFilter, hcolumn, hsome]
    exact timeWindow_eq column query.start query.stop
  rw [InStatement, hfilter, hcolumn, timeTest?]
  by_cases hstart : query.start = 0 <;> by_cases hstop : query.stop = 0 <;>
    simp [hstart, hstop, Sql.keepsInstant_text, Sql.TimeTest.Holds]

theorem tdiv_mul_of_nonneg {n : Int} (hn : 0 ≤ n) : n.tdiv 1000 * 1000 = n - n % 1000 := by
  rw [Int.tdiv_eq_ediv_of_nonneg hn]
  omega

theorem tdiv_mul_of_nonpos {n : Int} (hn : n ≤ 0) : n.tdiv 1000 * 1000 = n + -n % 1000 := by
  have hcut := tdiv_mul_of_nonneg (n := -n) (by omega)
  rw [Int.neg_tdiv] at hcut
  omega

/-- The instant lies in the part of a second that is lost where a bound is cut into the window. -/
def CutOff (query : Query) (t : Int) : Prop :=
  (query.start < 0 ∧ t < query.start + -query.start % 1000) ∨
    (0 < query.stop ∧ query.stop - query.stop % 1000 < t)

/-- A lower bound that is cut holds for the instants behind the bound, unless it is negative and
loses some. -/
theorem lower_iff {n : Int} (hn : n ≠ 0 → n ≤ t) :
    (n ≠ 0 → n.tdiv 1000 * 1000 ≤ t) ↔ ¬(n < 0 ∧ t < n + -n % 1000) := by
  by_cases hneg : n < 0
  · rw [tdiv_mul_of_nonpos (by omega)]
    omega
  · rw [tdiv_mul_of_nonneg (by omega)]
    omega

/-- An upper bound that is cut holds for the instants before the bound, unless it is positive and
loses some. -/
theorem upper_iff {n : Int} (hn : n ≠ 0 → t ≤ n) :
    (n ≠ 0 → t ≤ n.tdiv 1000 * 1000) ↔ ¬(0 < n ∧ n - n % 1000 < t) := by
  by_cases hneg : n < 0
  · rw [tdiv_mul_of_nonpos (by omega)]
    omega
  · rw [tdiv_mul_of_nonneg (by omega)]
    omega

/-- **Of the instants that a search keeps, a statement loses those that are cut off** with the
milliseconds of a negative lower or a positive upper bound. It keeps all of them exactly if the
window is empty or these bounds are whole seconds. -/
theorem inStatement_iff (query : Query) (column : String) (hcolumn : query.dateField = some column)
    (hname : column ≠ "") :
    (∀ t, query.InSearch t → (query.InStatement t ↔ ¬query.CutOff t)) ∧
      ((∀ t, query.InSearch t → query.InStatement t) ↔
        (query.start ≠ 0 ∧ query.stop ≠ 0 ∧ query.stop < query.start) ∨
          (0 ≤ query.start ∨ 1000 ∣ query.start) ∧ (query.stop ≤ 0 ∨ 1000 ∣ query.stop)) := by
  have hlost : ∀ t, query.InSearch t → (query.InStatement t ↔ ¬query.CutOff t) := by
    intro t hsearch
    obtain ⟨hlower, hupper⟩ := inSearch_iff.1 hsearch
    rw [inStatement_iff_bounds hcolumn hname, lower_iff hlower, upper_iff hupper, CutOff, not_or]
  refine ⟨hlost, fun hall => ?_, fun hwhole t hsearch => (hlost t hsearch).2 ?_⟩
  · have hkept : ∀ t, (query.start ≠ 0 → query.start ≤ t) → (query.stop ≠ 0 → t ≤ query.stop) →
        ¬query.CutOff t := fun t hlower hupper =>
      (hlost t (inSearch_iff.2 ⟨hlower, hupper⟩)).1 (hall t (inSearch_iff.2 ⟨hlower, hupper⟩))
    rw [or_iff_not_imp_left]
    intro hnonempty
    -- the bounds themselves lie in the window, and would be lost
    constructor
    · by_contra hcut
      exact hkept query.start (by omega) (by omega) (.inl (by omega))
    · by_contra hcut
      exact hkept query.stop (by omega) (by omega) (.inr (by omega))
  · obtain ⟨hlower, hupper⟩ := inSearch_iff.1 hsearch
    rw [CutOff]
    omega

/-- A query for the first second and a half. -/
def untilHalf : Query := { dateField := some "created_at", stop := 1500 }

theorem inStatement_iff_untilHalf :
    untilHalf.dateField = some "created_at" ∧ "created_at" ≠ "" ∧ untilHalf.InSearch 1200 ∧
      ¬untilHalf.InStatement 1200 := by
  have hsearch : untilHalf.InSearch 1200 := inSearch_iff.2 ⟨by decide, by decide⟩
  have hlost := (inStatement_iff untilHalf "created_at" rfl (by decide)).1 1200 hsearch
  refine ⟨rfl, by decide, hsearch, fun hkept => hlost.1 hkept (.inr ?_)⟩
  decide

end Query

end ViewCompiler
