import ViewCompiler.Proofs.Sql.Closed

/-!
# Literals are closed

* `Decimal.layout_cases`: the digits of a double with at most one sign, in front of an exponent.
* `Sql.exists_unsigned`: a number is written without sign, or with a minus in front.
* `Sql.closed_literal`: **the literal of a scalar is closed**, and what it quotes is the text of a
  string.
-/

namespace ViewCompiler

namespace Sql

theorem isPlain_of_isDigit {c : Char} (h : c.isDigit = true) : isPlain c = true := by
  have hne : ∀ d, d.isDigit = false → c ≠ d := by
    rintro d hd rfl
    simp [h] at hd
  simp [isPlain, isMark, marks, hne '-' rfl, hne '/' rfl, hne '*' rfl, hne '\'' rfl, hne '"' rfl,
    hne '(' rfl, hne ')' rfl, hne ';' rfl]

end Sql

/-! ### Numbers -/

namespace Decimal

theorem isPlain_of_mem_natDigits {n : Nat} {c : Char} (h : c ∈ natDigits n) :
    Sql.isPlain c = true :=
  Sql.isPlain_of_isDigit (Nat.isDigit_of_mem_toDigits (by decide) (by decide) h)

theorem all_isPlain_natDigits (n : Nat) : (natDigits n).all Sql.isPlain = true :=
  List.all_eq_true.2 fun _ hc => isPlain_of_mem_natDigits hc

theorem layout_cases (x : Scientific) :
    ∃ start, start ≠ [] ∧ start.all Sql.isPlain = true ∧
      (layout x = start ∨ ∃ sign n, (sign = '+' ∨ sign = '-') ∧
        layout x = start ++ sign :: natDigits n) := by
  have hplain : ∀ cs ⊆ natDigits x.digits, cs.all Sql.isPlain = true := fun cs hsub =>
    List.all_eq_true.2 fun c hc => isPlain_of_mem_natDigits (hsub hc)
  have htake (n : Nat) := hplain _ (List.take_subset n (natDigits x.digits))
  have hdrop (n : Nat) := hplain _ (List.drop_subset n (natDigits x.digits))
  have hdigits := all_isPlain_natDigits x.digits
  have hpoint : Sql.isPlain '.' = true := by decide
  have hzero : Sql.isPlain '0' = true := by decide
  have hmark : Sql.isPlain 'e' = true := by decide
  have hsign (leading : Int) : (if 0 ≤ leading then '+' else '-') = '+' ∨
      (if 0 ≤ leading then '+' else '-') = '-' := by
    split <;> simp
  rw [layout]
  dsimp only
  generalize x.exponent + ((natDigits x.digits).length : Int) - 1 = leading
  split
  · -- no sign in a text without exponent
    split
    · exact ⟨_, by simp, by simp [hdigits, hpoint, hzero], .inl rfl⟩
    split
    · exact ⟨_, by simp, by simp [htake, hdrop, hpoint], .inl rfl⟩
    · exact ⟨_, by simp, by simp [hdigits, hpoint, hzero], .inl rfl⟩
  · have htail := hplain _ (List.tail_sublist (natDigits x.digits)).subset
    generalize (natDigits x.digits).tail = tail at htail ⊢
    cases tail with
    | nil =>
      refine ⟨(natDigits x.digits).take 1 ++ ['e'], by simp, ?_,
        .inr ⟨_, leading.natAbs, hsign leading, ?_⟩⟩
      · simp [htake, hmark]
      · simp
    | cons d rest =>
      refine ⟨(natDigits x.digits).take 1 ++ '.' :: d :: rest ++ ['e'], by simp, ?_,
        .inr ⟨_, leading.natAbs, hsign leading, ?_⟩⟩
      · rw [List.all_append, List.all_append, htake, List.all_cons, htail]
        simp [hpoint, hmark]
      · simp

theorem closed_layout (x : Scientific) :
    Sql.Closed (layout x) [] ∧ ∀ c, (layout x).head? = some c → Sql.isMark c = false := by
  obtain ⟨start, hne, hplain, hlayout⟩ := layout_cases x
  have hmarks := Sql.unmarked_of_isPlain hplain
  have hstart : Sql.Closed start [] := Sql.closed_of_isPlain hplain
  have hhead : ∀ rest c, (start ++ rest).head? = some c → Sql.isMark c = false := by
    intro rest c hc
    rw [List.head?_append_of_ne_nil _ hne] at hc
    exact Sql.isMark_of_unmarked hmarks c (List.mem_of_head? hc)
  rcases hlayout with hlayout | ⟨sign, n, hsign, hlayout⟩
  · rw [hlayout]
    exact ⟨hstart, by simpa using hhead []⟩
  · rw [hlayout]
    have hdigits := Sql.closed_of_isPlain (all_isPlain_natDigits n)
    have hexponent := (Sql.closed_sign hsign).append hdigits
      (Sql.apart_of_unmarked (Sql.unmarked_of_isPlain (all_isPlain_natDigits n)))
    exact ⟨hstart.append hexponent (Sql.apart_of_unmarked_left hmarks), hhead _⟩

end Decimal

namespace Json.Number

/-- Is there a minus in front of the number? -/
def isNegative : Number → Bool
  | .int n => n < 0
  | .float x => x.negative

/-- A number is written as a closed text that does not start with a mark, with a minus in front if
it is negative. -/
theorem exists_unsigned (n : Number) :
    ∃ body, Sql.Closed body [] ∧ (∀ c, body.head? = some c → Sql.isMark c = false) ∧
      n.text = if n.isNegative then '-' :: body else body := by
  cases n with
  | int n =>
    have hplain := Decimal.all_isPlain_natDigits n.natAbs
    refine ⟨_, Sql.closed_of_isPlain hplain,
      fun c hc => Sql.isMark_of_unmarked (Sql.unmarked_of_isPlain hplain) c (List.mem_of_head? hc),
      ?_⟩
    simp [text, isNegative]
  | float x =>
    by_cases hzero : x.isZero = true
    · refine ⟨['0', '.', '0'], Sql.closed_of_isPlain (by decide),
        fun c hc => Sql.isMark_of_unmarked rfl c (List.mem_of_head? hc), ?_⟩
      cases hnegative : x.negative <;> simp [text, Decimal.text, isNegative, hzero, hnegative]
    · obtain ⟨hclosed, hhead⟩ := Decimal.closed_layout (Decimal.shortest x.magnitude)
      refine ⟨_, hclosed, hhead, ?_⟩
      cases hnegative : x.negative <;> simp [text, Decimal.text, isNegative, hzero, hnegative]

theorem closed_text (n : Number) : Sql.Closed n.text [] := by
  obtain ⟨body, hbody, hhead, htext⟩ := n.exists_unsigned
  rw [htext]
  split
  · exact (Sql.closed_sign (.inr rfl)).append hbody fun _ y _ hy => .inr (hhead y hy)
  · exact hbody

end Json.Number

/-! ### Scalars -/

namespace Sql

/-- What the literal of a value quotes. -/
def literalTexts : Json → List (List Char)
  | .string s => [enclosed '\'' s.toList]
  | _ => []

/-- The literal of a scalar is closed, and what it quotes is the text of a string. -/
theorem closed_literal {value : Json} {text : String} (h : literal? value = some text) :
    Closed text.toList (literalTexts value) := by
  cases value with
  | null =>
    obtain rfl := Option.some.inj h
    exact closed_of_isPlain (by simp [isPlain, isMark, marks])
  | bool value =>
    cases value <;>
    · obtain rfl := Option.some.inj h
      exact closed_of_isPlain (by simp [isPlain, isMark, marks])
  | number n =>
    obtain rfl := Option.some.inj h
    rw [String.toList_ofList]
    exact n.closed_text
  | string s =>
    obtain rfl := Option.some.inj h
    rw [quoteString, String.toList_ofList]
    exact closed_enclosed (.inl rfl) _
  | array => cases h
  | object => cases h

end Sql

end ViewCompiler
