import ViewCompiler.Filter.Error

/-!
# Results

When a computation that may fail succeeds, part by part.
-/

namespace ViewCompiler

namespace Result

variable {ε ε' α β : Type}

theorem bind_eq_ok {x : Except ε α} {f : α → Except ε β} {b : β} :
    x >>= f = .ok b ↔ ∃ a, x = .ok a ∧ f a = .ok b := by
  cases x with
  | error => simp [bind, Except.bind]
  | ok a => simp [bind, Except.bind]

theorem bind_unit_eq_ok {x : Except ε Unit} {f : Unit → Except ε β} {b : β} :
    (x >>= f) = .ok b ↔ x = .ok () ∧ f () = .ok b := by
  rw [bind_eq_ok]
  exact ⟨fun ⟨_, hx, hf⟩ => ⟨hx, hf⟩, fun ⟨hx, hf⟩ => ⟨(), hx, hf⟩⟩

theorem bind_eq_error {x : Except ε α} {f : α → Except ε β} {error : ε} :
    x >>= f = .error error ↔ x = .error error ∨ ∃ a, x = .ok a ∧ f a = .error error := by
  cases x with
  | error => simp [bind, Except.bind]
  | ok a => simp [bind, Except.bind]

/-- A reading is taken apart with `↓` from the outside: from the inside each rest of it would be
visited many times. -/
theorem bind_eq_some {x : Option α} {f : α → Option β} {b : β} :
    x >>= f = some b ↔ ∃ a, x = some a ∧ f a = some b :=
  Option.bind_eq_some_iff

theorem map_eq_ok {x : Except ε α} {f : α → β} {b : β} :
    x.map f = .ok b ↔ ∃ a, x = .ok a ∧ f a = b := by
  cases x <;> simp [Except.map]

theorem map_eq_error {x : Except ε α} {f : α → β} {error : ε} :
    x.map f = .error error ↔ x = .error error := by
  cases x <;> simp [Except.map]

theorem exists_error_iff {x : Except ε α} : (∃ error, x = .error error) ↔ ¬∃ a, x = .ok a := by
  cases x <;> simp

theorem mapError_eq_ok {x : Except ε α} {f : ε → ε'} {a : α} :
    x.mapError f = .ok a ↔ x = .ok a := by
  cases x with
  | error => exact ⟨nofun, nofun⟩
  | ok => exact ⟨fun h => Except.ok.inj h ▸ rfl, fun h => Except.ok.inj h ▸ rfl⟩

theorem mapError_eq_error {x : Except ε α} {f : ε → ε'} {error : ε'}
    (h : x.mapError f = .error error) : ∃ cause, f cause = error := by
  cases x with
  | error cause => exact ⟨cause, Except.error.inj h⟩
  | ok value => cases h

theorem toOption_eq_some {x : Except ε α} {a : α} : x.toOption = some a ↔ x = .ok a := by
  cases x <;> simp [Except.toOption]

theorem mapM_cons_eq_ok {f : α → Except ε β} {item : α} {items : List α} {results : List β} :
    (item :: items).mapM f = .ok results ↔
      ∃ first others, f item = .ok first ∧ items.mapM f = .ok others ∧
        results = first :: others := by
  simp only [List.mapM_cons, bind_eq_ok]
  constructor
  · rintro ⟨first, hfirst, others, hothers, h⟩
    exact ⟨first, others, hfirst, hothers, (Except.ok.inj h).symm⟩
  · rintro ⟨first, others, hfirst, hothers, rfl⟩
    exact ⟨first, hfirst, others, hothers, rfl⟩

theorem exists_mapM_iff {f : α → Except ε β} {items : List α} :
    (∃ results, items.mapM f = .ok results) ↔ ∀ item ∈ items, ∃ result, f item = .ok result := by
  induction items with
  | nil => simpa using ⟨[], rfl⟩
  | cons item rest ih =>
    rw [List.forall_mem_cons, ← ih]
    simp only [mapM_cons_eq_ok]
    constructor
    · rintro ⟨_, first, others, hfirst, hothers, -⟩
      exact ⟨⟨first, hfirst⟩, ⟨others, hothers⟩⟩
    · rintro ⟨⟨first, hfirst⟩, ⟨others, hothers⟩⟩
      exact ⟨_, first, others, hfirst, hothers, rfl⟩

theorem length_mapM {f : α → Except ε β} {items : List α} {results : List β}
    (h : items.mapM f = .ok results) : results.length = items.length := by
  induction items generalizing results with
  | nil => exact Except.ok.inj h ▸ rfl
  | cons item rest ih =>
    obtain ⟨first, others, -, hothers, rfl⟩ := mapM_cons_eq_ok.1 h
    rw [List.length_cons, List.length_cons, ih hothers]

theorem exists_of_mem_mapM_ok {f : α → Except ε β} {items : List α} {results : List β}
    (h : items.mapM f = .ok results) {result : β} (hresult : result ∈ results) :
    ∃ item ∈ items, f item = .ok result := by
  induction items generalizing results with
  | nil =>
    obtain rfl := Except.ok.inj h
    exact absurd hresult List.not_mem_nil
  | cons item rest ih =>
    obtain ⟨first, others, hfirst, hothers, rfl⟩ := mapM_cons_eq_ok.1 h
    rcases List.mem_cons.1 hresult with rfl | hresult
    · exact ⟨item, List.mem_cons_self, hfirst⟩
    · obtain ⟨other, hother, hf⟩ := ih hothers hresult
      exact ⟨other, List.mem_cons_of_mem _ hother, hf⟩

theorem exists_mem_of_mapM_ok {f : α → Except ε β} {items : List α} {results : List β}
    (h : items.mapM f = .ok results) {item : α} (hitem : item ∈ items) :
    ∃ result ∈ results, f item = .ok result := by
  induction items generalizing results with
  | nil => exact absurd hitem List.not_mem_nil
  | cons other rest ih =>
    obtain ⟨first, others, hfirst, hothers, rfl⟩ := mapM_cons_eq_ok.1 h
    rcases List.mem_cons.1 hitem with rfl | hitem
    · exact ⟨first, List.mem_cons_self, hfirst⟩
    · obtain ⟨result, hresult, hf⟩ := ih hothers hitem
      exact ⟨result, List.mem_cons_of_mem _ hresult, hf⟩

theorem exists_of_mem_mapM {f : α → Option β} {items : List α} {results : List β}
    (h : items.mapM f = some results) {result : β} (hresult : result ∈ results) :
    ∃ item ∈ items, f item = some result := by
  induction items generalizing results with
  | nil =>
    obtain rfl := Option.some.inj h
    exact absurd hresult List.not_mem_nil
  | cons item rest ih =>
    rw [List.mapM_cons] at h
    simp only [↓bind_eq_some] at h
    obtain ⟨first, hfirst, others, hothers, heq⟩ := h
    obtain rfl := Option.some.inj heq
    rcases List.mem_cons.1 hresult with rfl | hresult
    · exact ⟨item, List.mem_cons_self, hfirst⟩
    · obtain ⟨other, hother, hf⟩ := ih hothers hresult
      exact ⟨other, List.mem_cons_of_mem _ hother, hf⟩

/-- A fold that may fail succeeds if each step does, where steps may use what is known of the items
before. -/
theorem exists_foldlM {f : β → α → Except ε β} {init : β}
    (holds : β → List α → Prop) (items : List α) (hinit : holds init [])
    (hstep : ∀ state before item after, items = before ++ item :: after → holds state before →
      ∃ next, f state item = .ok next ∧ holds next (before ++ [item])) :
    ∃ result, items.foldlM f init = .ok result ∧ holds result items := by
  suffices hfold : ∀ after before state, items = before ++ after → holds state before →
      ∃ result, after.foldlM f state = .ok result ∧ holds result items from
    hfold items [] init rfl hinit
  intro after
  induction after with
  | nil =>
    intro before state hitems hstate
    rw [List.append_nil] at hitems
    exact ⟨state, rfl, hitems ▸ hstate⟩
  | cons item after ih =>
    intro before state hitems hstate
    obtain ⟨next, hnext, hholds⟩ := hstep state before item after hitems hstate
    obtain ⟨result, hresult, hend⟩ :=
      ih (before ++ [item]) next (by rw [hitems, List.append_assoc]; rfl) hholds
    exact ⟨result, by rw [List.foldlM_cons, hnext]; exact hresult, hend⟩

theorem exists_of_foldlM_eq_error {f : β → α → Except ε β} {init : β} {items : List α} {error : ε}
    (h : items.foldlM f init = .error error) :
    ∃ state, ∃ item ∈ items, f state item = .error error := by
  induction items generalizing init with
  | nil => cases h
  | cons item rest ih =>
    rw [List.foldlM_cons] at h
    rcases bind_eq_error.1 h with hfirst | ⟨next, -, hrest⟩
    · exact ⟨init, item, List.mem_cons_self, hfirst⟩
    · obtain ⟨state, other, hother, herror⟩ := ih hrest
      exact ⟨state, other, List.mem_cons_of_mem _ hother, herror⟩

end Result

end ViewCompiler
