import Mathlib.Data.List.DropRight
import ViewCompiler.Proofs.Page.Keys
import ViewCompiler.Proofs.Service.Continuation
import ViewCompiler.Proofs.Sql.Limit
import ViewCompiler.Readers.Standard

/-!
# The gateway goes on where a page says

A page of the SQL gateway says by a path where it goes on. The caller gets the last three parts of
the path as a cursor, and the cursor of the next request becomes a path again.

* `SqlAnswer.trimmedPath`, `SqlAnswer.pathParts`: the path without the slashes at its ends, and its
  parts between the slashes.
* `SqlAnswer.cursor_eq`: the cursor of a page, and when it has none.
* `SqlAnswer.exists_trimmedPath`: what is left of a path that ends with a token.
* `SqlAnswer.cursor_round_trip`: **a request with the cursor of a page goes on at the end of the
  page's path, and a path that ends with the token of three parts gives these parts.**
-/

namespace ViewCompiler

/-- The last parts, joined, are an end of all the parts, joined. -/
theorem Text.intercalate_suffix {separator : List Char} {parts rest : List (List Char)}
    (hrest : rest <:+ parts) (hne : rest ≠ []) :
    separator.intercalate rest <:+ separator.intercalate parts := by
  obtain ⟨before, rfl⟩ := hrest
  induction before with
  | nil => exact List.suffix_rfl
  | cons part before ih =>
    rw [List.cons_append,
      List.intercalate_cons_of_ne_nil (List.append_ne_nil_of_right_ne_nil _ hne)]
    exact ih.trans (List.suffix_append _ _)

theorem Query.pagination_sql_of_cursor {query : Query} {pagination : Pagination} {cursor : Cursor}
    (h : query.pagination .sql = .ok pagination) (hcursor : query.cursor = some cursor) :
    pagination.cursor = cursor.values := by
  have hwants : query.wantsCursor = true := by simp [Query.wantsCursor, hcursor]
  rw [Query.pagination, hwants, hcursor] at h
  cases hscroll : query.wantsScroll with
  | true => simp [hscroll] at h
  | false =>
    simp only [hscroll, Bool.and_false, Bool.false_eq_true, ↓reduceIte, Bool.or_false,
      Bool.true_and, Option.getD_some] at h
    split at h
    · cases h
    split at h
    · cases h
    obtain rfl := Except.ok.inj h
    rfl

namespace SqlAnswer

variable {answer : SqlAnswer} {uri : String}

/-! ### Paths and their parts -/

/-- The path without the slashes at its ends. -/
def trimmedPath (uri : String) : List Char :=
  (uri.toList.dropWhile (· = '/')).rdropWhile (· = '/')

/-- The parts of the path between its slashes. -/
def pathParts (uri : String) : List (List Char) := (trimmedPath uri).splitOn '/'

theorem segments_eq (uri : String) : segments uri = (pathParts uri).map String.ofList := by
  rw [segments, Text.splitOn_eq]
  rfl

/-- **The cursor of a page** holds the last three parts of its path, if there are as many. -/
theorem cursor_eq (hnext : answer.nextUri = some uri) :
    answer.cursor =
      if 3 ≤ (pathParts uri).length then
        ((pathParts uri).rtake 3).map fun part => .string (String.ofList part)
      else [] := by
  rw [cursor, hnext]
  by_cases huri : uri = ""
  · subst huri
    rfl
  have hsome : (some uri).filter (· ≠ "") = some uri := by simp [huri]
  rw [hsome]
  simp only [segments_eq, List.length_map]
  by_cases hthree : 3 ≤ (pathParts uri).length
  · rw [if_neg (by omega), if_pos hthree, ← List.map_drop, List.map_map]
    rfl
  · rw [if_pos (by omega), if_neg hthree]

theorem exists_cursorPath {parts : List (List Char)} (hne : parts ≠ []) :
    ∃ token, SqlRequest.cursorPath (parts.map fun part => .string (String.ofList part)) =
        some token ∧ token.toList = ['/'].intercalate parts := by
  rw [SqlRequest.cursorPath, if_neg (by simpa using hne), List.map_map]
  refine ⟨_, rfl, ?_⟩
  rw [Text.join_eq_intercalate, String.toList_intercalate, List.map_map]
  refine congrArg _ ((List.map_congr_left fun part _ => ?_).trans (List.map_id parts))
  exact String.toList_ofList

/-! ### Paths that end with a token -/

/-- Slashes behind a token are taken off, and so are those in front of the path; what stands before
the token still ends with a slash. -/
theorem exists_trimmedPath {before token slashes : List Char} {first last : Char}
    (hbefore : before = [] ∨ before.getLast? = some '/') (hfirst : token.head? = some first)
    (hlast : token.getLast? = some last) (hplain : first ≠ '/' ∧ last ≠ '/')
    (hslashes : ∀ c ∈ slashes, c = '/') (huri : uri.toList = before ++ (token ++ slashes)) :
    ∃ start, (start = [] ∨ ∃ rest, start = rest ++ ['/']) ∧ trimmedPath uri = start ++ token := by
  obtain ⟨tail, rfl⟩ := List.head?_eq_some_iff.1 hfirst
  have hfront : (before ++ (first :: tail ++ slashes)).dropWhile (· = '/') =
      before.dropWhile (· = '/') ++ (first :: tail ++ slashes) := by
    rw [List.dropWhile_append]
    split
    · next hnone =>
      rw [List.isEmpty_iff.1 hnone, List.nil_append, List.cons_append,
        List.dropWhile_cons_of_neg (by simpa using hplain.1)]
    · rfl
  refine ⟨before.dropWhile (· = '/'), ?_, ?_⟩
  · rcases hbefore with rfl | hend
    · exact .inl rfl
    obtain ⟨taken, hsuffix⟩ := List.dropWhile_suffix (l := before) (· = '/')
    rcases List.eq_nil_or_concat (before.dropWhile (· = '/')) with hnil | ⟨rest, c, hrest⟩
    · exact .inl hnil
    · rw [hrest, List.concat_eq_append] at hsuffix
      obtain rfl : c = '/' := by simpa [← hsuffix] using hend
      exact .inr ⟨rest, hrest.trans List.concat_eq_append⟩
  · have hkept : (before.dropWhile (· = '/') ++ first :: tail).getLast? = some last := by
      rw [List.getLast?_append, hlast, Option.some_or]
    rw [trimmedPath, huri, hfront, ← List.append_assoc,
      Sql.rdropWhile_append_of_getLast? hkept (by simpa using hplain.2),
      List.rdropWhile_eq_nil_iff.2 fun c hc => by simpa using hslashes c hc, List.append_nil]

theorem rtake_splitOn {start : List Char} {parts : List (List Char)} (hne : parts ≠ [])
    (hparts : ∀ part ∈ parts, '/' ∉ part) (hstart : start = [] ∨ ∃ rest, start = rest ++ ['/']) :
    parts.length ≤ ((start ++ ['/'].intercalate parts).splitOn '/').length ∧
      ((start ++ ['/'].intercalate parts).splitOn '/').rtake parts.length = parts := by
  have hsplit : ∃ before, (start ++ ['/'].intercalate parts).splitOn '/' = before ++ parts := by
    rcases hstart with rfl | ⟨rest, rfl⟩
    · exact ⟨[], List.splitOn_intercalate '/' hparts hne⟩
    · refine ⟨rest.splitOn '/', ?_⟩
      rw [List.append_assoc, List.singleton_append, List.splitOn_append_cons_self,
        List.splitOn_intercalate '/' hparts hne]
  obtain ⟨before, hsplit⟩ := hsplit
  rw [hsplit, List.rtake, List.length_append, Nat.add_sub_cancel]
  exact ⟨Nat.le_add_left _ _, List.drop_left⟩

/-- Slashes do not matter around a path whose last three parts are the values of a cursor. -/
theorem cursor_of_token {before a b c token slashes : String} (hnext : answer.nextUri = some uri)
    (hbefore : before = "" ∨ before.toList.getLast? = some '/')
    (hparts : ∀ part ∈ [a, b, c], part ≠ "" ∧ '/' ∉ part.toList)
    (htoken : SqlRequest.cursorPath [.string a, .string b, .string c] = some token)
    (hslashes : ∀ d ∈ slashes.toList, d = '/') (huri : uri = before ++ token ++ slashes) :
    answer.cursor = [.string a, .string b, .string c] := by
  have hchars : ∀ part ∈ [a.toList, b.toList, c.toList], part ≠ [] ∧ '/' ∉ part := by
    simpa using hparts
  obtain ⟨⟨ha, hfirst⟩, -, hc, hlast⟩ :
      (a.toList ≠ [] ∧ '/' ∉ a.toList) ∧ (b.toList ≠ [] ∧ '/' ∉ b.toList) ∧
        c.toList ≠ [] ∧ '/' ∉ c.toList := by simpa using hchars
  obtain ⟨other, hother, htext⟩ :=
    exists_cursorPath (List.cons_ne_nil a.toList [b.toList, c.toList])
  simp only [List.map_cons, List.map_nil, String.ofList_toList] at hother
  obtain rfl : token = other := Option.some.inj (htoken.symm.trans hother)
  -- the token begins and ends as the first and the last part do
  obtain ⟨first, tail, hhead⟩ := List.exists_cons_of_ne_nil ha
  obtain ⟨body, last, htail⟩ := (List.eq_nil_or_concat c.toList).resolve_left hc
  have hbegins : token.toList.head? = some first := by simp [htext, hhead]
  have hends : token.toList.getLast? = some last := by
    rw [htext, List.intercalate_cons_cons, List.intercalate_cons_cons, List.intercalate_singleton,
      htail, List.concat_eq_append]
    simp only [← List.append_assoc, List.getLast?_concat]
  have hplain : first ≠ '/' ∧ last ≠ '/' :=
    ⟨fun heq => hfirst (by simp [hhead, heq]), fun heq => hlast (by simp [htail, heq])⟩
  have hwhole : uri.toList = before.toList ++ (token.toList ++ slashes.toList) := by
    rw [huri, String.toList_append, String.toList_append, List.append_assoc]
  obtain ⟨start, hstart, htrimmed⟩ := exists_trimmedPath
    (hbefore.imp_left String.toList_eq_nil_iff.2) hbegins hends hplain hslashes hwhole
  rw [htext] at htrimmed
  obtain ⟨hlength, hrtake⟩ := rtake_splitOn (List.cons_ne_nil a.toList [b.toList, c.toList])
    (fun part hpart => (hchars part hpart).2) hstart
  rw [cursor_eq hnext, pathParts, htrimmed, if_pos (show 3 ≤ _ from hlength)]
  exact (congrArg _ hrtake).trans (by simp)

/-- **A request with the cursor of a page goes on where the page says**: if the path has three parts
between its slashes, not counting those at its ends, the cursor becomes the last three of them, an
end of the path, and a path with fewer parts gives no cursor. A path that ends with the token of
three parts, behind nothing or a slash, gives these parts. -/
theorem cursor_round_trip [Readers] (answer : SqlAnswer) (uri : String)
    (hnext : answer.nextUri = some uri) :
    (3 ≤ (pathParts uri).length → ∃ token, SqlRequest.cursorPath answer.cursor = some token ∧
        token.toList = ['/'].intercalate ((pathParts uri).rtake 3) ∧
        token.toList <:+ trimmedPath uri ∧
        ∀ (view : View) (settings : QuerySettings) (query : Query) (pagination : Pagination)
          (request : SqlRequest) (compiled : View),
          query.cursor.map Cursor.values = some answer.cursor →
          query.pagination .sql = .ok pagination →
          view.sqlRequest settings query pagination = .ok (request, compiled) →
          request.nextUri = some token) ∧
      ((pathParts uri).length < 3 → answer.cursor = []) ∧
      ∀ before a b c token slashes : String,
        (before = "" ∨ before.toList.getLast? = some '/') →
        (∀ part ∈ [a, b, c], part ≠ "" ∧ '/' ∉ part.toList) →
        SqlRequest.cursorPath [.string a, .string b, .string c] = some token →
        (∀ d ∈ slashes.toList, d = '/') → uri = before ++ token ++ slashes →
        answer.cursor = [.string a, .string b, .string c] := by
  refine ⟨fun hthree => ?_, fun hfew => ?_, fun before a b c token slashes => ?_⟩
  · have hlength : ((pathParts uri).rtake 3).length = 3 := by
      rw [List.rtake, List.length_drop]
      omega
    have hne : (pathParts uri).rtake 3 ≠ [] := by
      intro hnil
      simp [hnil] at hlength
    obtain ⟨token, htoken, htext⟩ := exists_cursorPath hne
    have hcursor := cursor_eq hnext
    rw [if_pos hthree] at hcursor
    rw [← hcursor] at htoken
    refine ⟨token, htoken, htext, ?_, ?_⟩
    · have hend : ['/'].intercalate ((pathParts uri).rtake 3) <:+
          ['/'].intercalate (pathParts uri) :=
        Text.intercalate_suffix (List.drop_suffix _ _) hne
      rwa [← htext, pathParts, List.intercalate_splitOn] at hend
    · intro view settings query pagination request compiled hquery hpagination hrequest
      obtain ⟨cursor, hsome, hvalues⟩ := Option.map_eq_some_iff.1 hquery
      rw [(View.sqlRequest_page hrequest).1, Query.pagination_sql_of_cursor hpagination hsome,
        hvalues, htoken]
  · rw [cursor_eq hnext, if_neg (by omega)]
  · exact cursor_of_token hnext

/-- A page that goes on at a path with a slash at both ends. -/
def paused : SqlAnswer :=
  { columns := [], rows := [], nextUri := some "/v1/statement/20240101_0001/tok/3/" }

theorem cursor_round_trip_paused :
    paused.cursor = [.string "20240101_0001", .string "tok", .string "3"] ∧
      ∃ token, SqlRequest.cursorPath paused.cursor = some token ∧
        token.toList <:+ trimmedPath "/v1/statement/20240101_0001/tok/3/" := by
  obtain ⟨hgoesOn, -, hgives⟩ :=
    cursor_round_trip paused "/v1/statement/20240101_0001/tok/3/" rfl
  obtain ⟨token, htoken, -, hend, -⟩ := hgoesOn (by decide +kernel)
  refine ⟨?_, token, htoken, hend⟩
  exact hgives "/v1/statement/" "20240101_0001" "tok" "3" "20240101_0001/tok/3" "/"
    (.inr (by decide +kernel)) (by decide +kernel) (by decide +kernel) (by simp)
    (by decide +kernel)

end SqlAnswer

end ViewCompiler
