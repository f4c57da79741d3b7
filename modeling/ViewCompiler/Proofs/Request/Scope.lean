import ViewCompiler.Proofs.Relation.Agreement
import ViewCompiler.Proofs.Request.Search
import ViewCompiler.Readers.Standard

/-!
# Which documents of a scope a search finds

A scope gives documents from its view nodes through its unions to its output. A scope query asks
for the documents of every view node, whether or not the output reads it.

* `Document`: a document of a search engine, as far as queries can tell.
* `Node.Accepts`: does a node of a scope give a document?
* `View.scopeQuery_finds`: **a scope query finds what the output node gives**, nothing that no view
  node gives, and apart from the filters of unions nothing but the documents of the output and of
  view nodes that do not feed it.
-/

namespace ViewCompiler

/-- A document of a search engine: its index, and which clauses it matches. -/
structure Document where
  index : String
  /-- Does it match a clause? -/
  leaf : Json → Bool
  /-- Whether it matches a clause on indices is decided by its own. -/
  leaf_inIndices (indices : List String) : leaf (Node.inIndices indices) = true ↔ index ∈ indices

/-- A document of an index that matches all other clauses or none. -/
def Document.ofIndex (index : String) (others : Bool) : Document where
  index
  leaf
    | .object [("terms", .object [("_index", .array indices)])] =>
      indices.any fun item => item.string? = some index
    | _ => others
  leaf_inIndices indices := by
    simp [Node.inIndices, Clause.single, Json.strings, Json.string?]

namespace Node

/-- Does a node of a scope give a document? -/
inductive Accepts (scope : List Node) (routes : NodeRoutes) (document : Document) : Node → Prop
  /-- A view node gives the documents of its indices that satisfy its filter. -/
  | view {node : Node} {viewId : String} {filter : Option Filter} {distinct : Distinct}
      {source : View} (hconfig : node.config = .view viewId filter distinct (some source))
      (hindex : document.index ∈ (routes.get? node.id).getD [])
      (hfilter : Filter.admits document.leaf .byName source.fields filter = true) :
      Accepts scope routes document node
  /-- A union gives the documents of its inputs that satisfy its filter. -/
  | union {node input : Node} {kind : UnionKind} {columns : List (List UnionColumn)}
      {filter : Option Filter} (hconfig : node.config = .union kind columns filter)
      (hinput : input ∈ scope) (hreads : input.id ∈ node.inputs)
      (haccepts : Accepts scope routes document input)
      (hfilter : Filter.admits document.leaf .byName node.outputFields filter = true) :
      Accepts scope routes document node
  /-- The output gives what its input gives. -/
  | output {node input : Node} (hconfig : node.config = .output) (hinput : input ∈ scope)
      (hreads : input.id ∈ node.inputs) (haccepts : Accepts scope routes document input) :
      Accepts scope routes document node

variable {scope nodes : List Node} {routes : NodeRoutes} {document : Document} {node : Node}

theorem Admits.kind_eq (h : node.Admits document.leaf routes) : node.kind = .view := by
  obtain ⟨viewId, filter, distinct, source, hconfig, -⟩ := h
  rw [kind, hconfig]
  rfl

theorem Admits.accepts (h : node.Admits document.leaf routes) :
    node.Accepts scope routes document := by
  obtain ⟨viewId, filter, distinct, source, hconfig, hindex, hfilter⟩ := h
  exact .view hconfig ((document.leaf_inIndices _).1 hindex) hfilter

theorem Accepts.exists_admits (h : node.Accepts scope routes document) (hnode : node ∈ scope) :
    ∃ found ∈ scope, found.Admits document.leaf routes := by
  induction h with
  | @view node viewId filter distinct source hconfig hindex hfilter =>
    exact ⟨node, hnode, viewId, filter, distinct, source, hconfig,
      (document.leaf_inIndices _).2 hindex, hfilter⟩
  | union _ hinput _ _ _ ih => exact ih hinput
  | output _ hinput _ _ ih => exact ih hinput

theorem kind_of_allBranches {branches : List (Json × Bool)}
    (h : allBranches routes nodes = .ok branches) :
    ∀ node ∈ nodes, node.kind = .view ∨ node.kind = .union ∨ node.kind = .output := by
  induction nodes generalizing branches with
  | nil => simp
  | cons node rest ih =>
    obtain ⟨branch, hbranch, h⟩ := Result.bind_eq_ok.1 h
    obtain ⟨others, hothers, -⟩ := Result.bind_eq_ok.1 h
    refine List.forall_mem_cons.2 ⟨?_, ih hothers⟩
    have hbranch := Result.mapError_eq_ok.1 hbranch
    rw [branch?] at hbranch
    rw [kind]
    split at hbranch <;> simp_all [NodeConfig.kind]

end Node

namespace View

variable {view valid : View} {settings : QuerySettings} {routes : NodeRoutes}

theorem kind_of_scopeQuery {result : BoolQuery × Bool} (h : view.scopeQuery routes = .ok result)
    (hcustom : view.isAtomic = false) :
    ∀ node ∈ view.scope, node.kind = .view ∨ node.kind = .union ∨ node.kind = .output := by
  rw [scopeQuery, hcustom] at h
  obtain ⟨branches, hbranches, -⟩ := Result.bind_eq_ok.1 h
  exact Node.kind_of_allBranches hbranches

/-- A node that the output uses gives the documents of a view node behind it, if the unions between
them have no filters. -/
theorem accepts_of_reads {document : Document} {output found : Node} {id : String}
    (hwell : Scope.WellFormed view.scope) (houtput : view.outputNode? = some output)
    (hkinds : ∀ node ∈ view.scope,
      node.kind = .view ∨ node.kind = .union ∨ node.kind = .output)
    (hunions : ∀ node ∈ view.scope, view.Uses node → ∀ kind columns filter,
      node.config = .union kind columns filter → Filter.nonEmpty? filter = none)
    (hfound : found ∈ view.scope) (hadmits : found.Admits document.leaf routes)
    (hpath : Relation.ReflTransGen view.Reads id found.id)
    (huses : Relation.ReflTransGen view.Reads output.id id) :
    ∃ node ∈ view.scope, node.id = id ∧ node.Accepts view.scope routes document := by
  -- along the path back from the view node
  induction hpath using Relation.ReflTransGen.head_induction_on with
  | refl => exact ⟨found, hfound, rfl, hadmits.accepts⟩
  | head hreads hrest ih =>
    obtain ⟨input, hinput, rfl, haccepts⟩ := ih (huses.tail hreads)
    obtain ⟨node, hnode, rfl, hmem⟩ := hreads
    refine ⟨node, hnode, rfl, ?_⟩
    have hcount := hwell.counts node hnode
    rcases hkinds node hnode with hkind | hkind | hkind <;>
      cases hconfig : node.config <;> rw [Node.kind, hconfig] at hkind <;> cases hkind
    · -- a view node reads nothing
      rw [Node.kind, hconfig] at hcount
      simp only [NodeConfig.kind, Scope.takesInputs, decide_eq_true_eq,
        List.length_eq_zero_iff] at hcount
      simp [hcount] at hmem
    · next kind columns filter =>
      have hfilter := hunions node hnode ⟨output, houtput, huses⟩ kind columns filter hconfig
      exact .union hconfig hinput hmem haccepts (by simp [Filter.admits, hfilter])
    · exact .output hconfig hinput hmem haccepts

/-- **A scope query finds what the output node of the scope gives**, and only documents that some
view node gives.  If the unions before the output have no filters, it finds nothing else but the
documents of view nodes that the output does not read. -/
theorem scopeQuery_finds [Readers] {query : BoolQuery} {scoring : Bool} (document : Document)
    (hchecked : view.checked settings = .ok valid) (hcustom : view.isAtomic = false)
    (hquery : valid.scopeQuery routes = .ok (query, scoring)) :
    ∃ output, valid.outputNode? = some output ∧
      (output.Accepts valid.scope routes document →
        Clause.holds document.leaf query.clause = true) ∧
      (Clause.holds document.leaf query.clause = true →
        ∃ node ∈ valid.scope, node.kind = .view ∧ node.Accepts valid.scope routes document) ∧
      ((∀ node ∈ valid.scope, valid.Uses node → ∀ kind columns filter,
          node.config = .union kind columns filter → Filter.nonEmpty? filter = none) →
        (Clause.holds document.leaf query.clause = true ↔
          output.Accepts valid.scope routes document ∨
            ∃ node ∈ valid.scope, ¬valid.Uses node ∧ node.kind = .view ∧
              node.Accepts valid.scope routes document)) := by
  obtain ⟨hvalid, hwell⟩ := wellFormed_of_checked hchecked hcustom
  obtain ⟨output, houtput⟩ := hwell.exists_output
  have hmem : output ∈ valid.scope := List.mem_of_find?_eq_some houtput
  obtain ⟨-, hfinds, -⟩ := scopeQuery_spec document.leaf hquery
  rw [← BoolQuery.holds_clause] at hfinds
  have hholds : Clause.holds document.leaf query.clause = true ↔
      ∃ node ∈ valid.scope, node.Admits document.leaf routes := by
    simpa only [hvalid, forall_const] using hfinds
  have hsound (haccepts : output.Accepts valid.scope routes document) :
      Clause.holds document.leaf query.clause = true :=
    hholds.2 (haccepts.exists_admits hmem)
  refine ⟨output, houtput, hsound, fun hmatches => ?_, fun hunions => ⟨fun hmatches => ?_, ?_⟩⟩
  · obtain ⟨node, hnode, hadmits⟩ := hholds.1 hmatches
    exact ⟨node, hnode, hadmits.kind_eq, hadmits.accepts⟩
  · obtain ⟨node, hnode, hadmits⟩ := hholds.1 hmatches
    by_cases huses : valid.Uses node
    · obtain ⟨other, hother, hpath⟩ := huses
      obtain rfl : output = other := Option.some.inj (houtput.symm.trans hother)
      obtain ⟨found, hfound, hid, haccepts⟩ := accepts_of_reads hwell houtput
        (kind_of_scopeQuery hquery hvalid) hunions hnode hadmits hpath .refl
      obtain rfl := hwell.eq_of_id_eq hfound hmem hid
      exact .inl haccepts
    · exact .inr ⟨node, hnode, huses, hadmits.kind_eq, hadmits.accepts⟩
  · rintro (haccepts | ⟨node, hnode, -, hkind, haccepts⟩)
    · exact hsound haccepts
    · exact hholds.2 (haccepts.exists_admits hnode)

/-- A union of two sources, beside a third one that nothing reads. -/
def besideVisits : View where
  id := "sessions"
  kind := .custom
  scope :=
    [{ id := "logins", config := .view "l" none {} (some (.atomic "l" "logins" .indexBase)) },
      { id := "logouts", config := .view "o" none {} (some (.atomic "o" "logouts" .indexBase)) },
      { id := "both", inputs := ["logins", "logouts"], config := .union .all [] none },
      { id := "out", inputs := ["both"], config := .output },
      { id := "visits", config := .view "v" none {} (some (.atomic "v" "visits" .indexBase)) }]

/-- An index for two of the sources. -/
def loginsAndVisits : NodeRoutes := [("logins", ["x-logins-1"]), ("visits", ["x-visits-1"])]

theorem scopeQuery_finds_besideVisits :
    ∃ valid query scoring output, besideVisits.checked {} = .ok valid ∧
      valid.scopeQuery loginsAndVisits = .ok (query, scoring) ∧
      valid.outputNode? = some output ∧
      (Clause.holds (Document.ofIndex "x-logins-1" true).leaf query.clause = true ↔
        output.Accepts valid.scope loginsAndVisits (.ofIndex "x-logins-1" true) ∨
          ∃ node ∈ valid.scope, ¬valid.Uses node ∧ node.kind = .view ∧
            node.Accepts valid.scope loginsAndVisits (.ofIndex "x-logins-1" true)) := by
  have hchecked : besideVisits.checked {} =
      .ok { besideVisits with isSingleSource := true, fieldScope := .all } := rfl
  obtain ⟨output, houtput, -, -, hfinds⟩ :=
    scopeQuery_finds (.ofIndex "x-logins-1" true) hchecked rfl rfl
  refine ⟨_, _, _, output, hchecked, rfl, houtput, hfinds fun node hnode _ => ?_⟩
  simp only [besideVisits, List.mem_cons, List.not_mem_nil, or_false] at hnode
  rcases hnode with rfl | rfl | rfl | rfl | rfl <;> intro kind columns filter hconfig <;>
    cases hconfig
  rfl

/-- Two sources, of which a union passes on only what one user did. -/
def ofAda : View where
  id := "ada"
  kind := .custom
  scope :=
    [{ id := "logins", config := .view "l" none {} (some (.atomic "l" "logins" .indexBase)) },
      { id := "logouts", config := .view "o" none {} (some (.atomic "o" "logouts" .indexBase)) },
      { id := "both", inputs := ["logins", "logouts"],
        config := .union .all [] (some (.leaf "user" "==" (.string "ada"))),
        outputFields := .ofList [.ofName "user" .keyword] },
      { id := "out", inputs := ["both"], config := .output }]

/-- Does the scope query of a checked view find a document that its output does not give? -/
def FindsMore [Readers] (view : View) (routes : NodeRoutes) (document : Document) : Prop :=
  ∃ valid query scoring output, view.checked {} = .ok valid ∧
    valid.scopeQuery routes = .ok (query, scoring) ∧ valid.outputNode? = some output ∧
    Clause.holds document.leaf query.clause = true ∧ ¬output.Accepts valid.scope routes document

/-- A view node that nothing reads is searched, and the filter of a union is not. -/
theorem findsMore_besideVisits_ofAda :
    besideVisits.FindsMore loginsAndVisits (.ofIndex "x-visits-1" true) ∧
      ofAda.FindsMore loginsAndVisits (.ofIndex "x-logins-1" false) := by
  have hchecked : besideVisits.checked {} =
      .ok { besideVisits with isSingleSource := true, fieldScope := .all } := rfl
  have hfiltered : ofAda.checked {} =
      .ok { ofAda with fields := .ofList [.ofName "user" .keyword], isSingleSource := true } := rfl
  refine ⟨⟨_, _, _, _, hchecked, rfl, rfl, rfl, fun haccepts => ?_⟩,
    ⟨_, _, _, _, hfiltered, rfl, rfl, rfl, fun haccepts => ?_⟩⟩
  all_goals
    -- the document would come through the union
    obtain ⟨⟨⟩⟩ | ⟨⟨⟩⟩ | ⟨-, hinput, hreads, haccepts⟩ := haccepts
    simp only [besideVisits, ofAda, List.mem_cons, List.not_mem_nil, or_false] at hinput
  · rcases hinput with rfl | rfl | rfl | rfl | rfl <;> simp at hreads
    obtain ⟨⟨⟩⟩ | ⟨-, hinput, hreads, haccepts, -⟩ | ⟨⟨⟩⟩ := haccepts
    simp only [besideVisits, List.mem_cons, List.not_mem_nil, or_false] at hinput
    rcases hinput with rfl | rfl | rfl | rfl | rfl <;> simp at hreads <;>
      obtain ⟨-, hindex, -⟩ | ⟨⟨⟩⟩ | ⟨⟨⟩⟩ := haccepts <;>
      simp [loginsAndVisits, KeyMap.get?, Document.ofIndex] at hindex
  · rcases hinput with rfl | rfl | rfl | rfl <;> simp at hreads
    obtain ⟨⟨⟩⟩ | ⟨⟨⟩, -, -, -, hfilter⟩ | ⟨⟨⟩⟩ := haccepts
    cases hfilter

end View

end ViewCompiler
