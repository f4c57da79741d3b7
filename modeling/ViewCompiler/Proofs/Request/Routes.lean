import Mathlib.Data.List.Nodup
import ViewCompiler.Proofs.KeyMap
import ViewCompiler.Proofs.Page.Keys
import ViewCompiler.Proofs.Result
import ViewCompiler.Request.Routes

/-!
# Routing as a partition

Every index goes to the owners of its base type, and to no other owner.

* `View.owners`: the atomic view or the view nodes, with the base types that they read.
* `Owner.share`: the indices whose names hold the base type of an owner.
* `BaseTypes.Collects`: the base types are those of a list of owners; `BaseTypes.Collects.add` keeps
  it, and `BaseTypes.collects_ofView` says it of a view.
* `BaseTypes.get?_of_route`: the indices that a run over the indices adds under a key.
* `BaseTypes.route_partitions`: **every owner gets its share of the indices, and an index that no
  owner reads is an error.**
-/

namespace ViewCompiler

/-! ### Owners -/

/-- The part of a name between its first two hyphens, or behind the only one. -/
def secondToken? (index : String) : Option String :=
  (index.toList.splitOn '-')[1]?.map String.ofList

/-- What reads a base type. -/
structure Owner where
  /-- The id of the atomic view or of the view node. -/
  id : String
  /-- The base type that it reads. -/
  technicalName : String

/-- The indices of the owner's base type, in order. -/
def Owner.share (owner : Owner) (indices : List String) : List String :=
  indices.filter fun index => secondToken? index = some owner.technicalName

/-- A view node with the base type of its source. -/
def Node.owner? (node : Node) : Option Owner :=
  node.source?.map fun source => ⟨node.id, source.technicalName⟩

/-- The owners of the base types of a view. -/
def View.owners (view : View) : List Owner :=
  if view.isAtomic then [⟨view.id, view.technicalName⟩] else view.viewNodes.filterMap Node.owner?

namespace BaseTypes

variable {types : BaseTypes} {owners : List Owner} {owner : Owner} {baseType index key : String}
  {routes next result : NodeRoutes} {indices : List String}

theorem ofIndex?_eq (index : String) :
    ofIndex? index = (secondToken? index).filter (· ≠ "") := by
  rw [ofIndex?, secondToken?, ← Text.splitOn_eq]
  match Text.splitOn '-' index.toList with
  | [] => rfl
  | [_] => rfl
  | _ :: [] :: _ => rfl
  | _ :: (c :: part) :: _ => simp [Option.filter, String.ofList_eq_empty_iff]

theorem ofIndex?_eq_some :
    ofIndex? index = some baseType ↔ secondToken? index = some baseType ∧ baseType ≠ "" := by
  rw [ofIndex?_eq, Option.filter_eq_some_iff, decide_eq_true_eq]

/-! ### Collecting the base types -/

/-- The ids of the owners of a base type. -/
def idsOf (owners : List Owner) (baseType : String) : List String :=
  (owners.filter (·.technicalName = baseType)).map Owner.id

/-- The base types are those of the owners: each once, in the order in which they come first, with
the owners of each. -/
structure Collects (owners : List Owner) (types : BaseTypes) : Prop where
  names : types.names = ((owners.map Owner.technicalName).filter (· ≠ "")).eraseDups
  owners : ∀ baseType, types.owners.get? baseType =
    if baseType = "" ∨ idsOf owners baseType = [] then none else some (idsOf owners baseType)

theorem collects_nil : Collects [] {} := ⟨rfl, fun _ => by simp [idsOf]⟩

theorem idsOf_append (owners : List Owner) (owner : Owner) (baseType : String) :
    idsOf (owners ++ [owner]) baseType =
      if owner.technicalName = baseType then idsOf owners baseType ++ [owner.id]
      else idsOf owners baseType := by
  by_cases h : owner.technicalName = baseType <;> simp [idsOf, h]

theorem mem_idsOf : key ∈ idsOf owners baseType ↔
    ∃ owner ∈ owners, owner.technicalName = baseType ∧ owner.id = key := by
  simp [idsOf, and_assoc]

theorem eraseDups_concat (texts : List String) (text : String) :
    (texts ++ [text]).eraseDups =
      if text ∈ texts then texts.eraseDups else texts.eraseDups ++ [text] := by
  have hone : [text].eraseDups = [text] := rfl
  rw [List.eraseDups_append]
  by_cases h : text ∈ texts <;> simp [List.removeAll, h, hone]

theorem Collects.add (h : Collects owners types) (owner : Owner)
    (hnew : owner.id ∉ owners.map Owner.id) :
    Collects (owners ++ [owner]) (types.add owner.technicalName owner.id) := by
  rw [BaseTypes.add]
  split
  · next hempty =>
    refine ⟨by simp [h.names, hempty], fun baseType => ?_⟩
    rw [h.owners, idsOf_append, hempty]
    rcases eq_or_ne baseType "" with rfl | hbase
    · simp
    · simp [hbase, hbase.symm]
  · next hne =>
    have hfound : (types.owners.get? owner.technicalName).getD [] =
        idsOf owners owner.technicalName := by
      rw [h.owners]
      by_cases hnil : idsOf owners owner.technicalName = [] <;> simp [hne, hnil]
    have hfresh : owner.id ∉ idsOf owners owner.technicalName := by
      intro hid
      obtain ⟨other, hother, -, heq⟩ := mem_idsOf.1 hid
      exact hnew (List.mem_map.2 ⟨other, hother, heq⟩)
    have hknown : (idsOf owners owner.technicalName).isEmpty = true ↔
        owner.technicalName ∉ (owners.map Owner.technicalName).filter (· ≠ "") := by
      simp [idsOf, hne, List.isEmpty_iff]
    simp only [hfound]
    refine ⟨?_, fun baseType => ?_⟩
    · rw [List.map_append, List.filter_append, List.map_singleton,
        List.filter_cons_of_pos (by simpa using hne), List.filter_nil, eraseDups_concat, ← h.names]
      by_cases hmem : owner.technicalName ∈ (owners.map Owner.technicalName).filter (· ≠ "")
      · rw [if_pos hmem, if_neg (mt hknown.1 (not_not.2 hmem))]
      · rw [if_neg hmem, if_pos (hknown.2 hmem)]
    · rw [KeyMap.get?_insert, idsOf_append, h.owners]
      by_cases hbase : owner.technicalName = baseType
      · subst hbase
        simp [hne, hfresh]
      · simp [hbase]

theorem Collects.foldl_addNode {nodes : List Node} (h : Collects owners types)
    (hnodup : (owners.map Owner.id ++ nodes.map Node.id).Nodup) :
    Collects (owners ++ nodes.filterMap Node.owner?) (nodes.foldl addNode types) := by
  induction nodes generalizing owners types with
  | nil => simpa using h
  | cons node nodes ih =>
    rw [List.foldl_cons, addNode]
    cases hsource : node.source? with
    | none =>
      have howner : node.owner? = none := by rw [Node.owner?, hsource, Option.map_none]
      rw [List.filterMap_cons_none howner]
      refine ih h (hnodup.sublist ?_)
      exact (List.Sublist.refl _).append (List.sublist_cons_self ..)
    | some source =>
      have howner : node.owner? = some ⟨node.id, source.technicalName⟩ := by
        rw [Node.owner?, hsource, Option.map_some]
      -- the id is new, so that it is not passed over as an owner that is there already
      have hnew : node.id ∉ owners.map Owner.id := fun hmem =>
        List.disjoint_of_nodup_append hnodup hmem List.mem_cons_self
      rw [List.filterMap_cons_some howner, List.append_cons]
      refine ih (h.add ⟨node.id, source.technicalName⟩ hnew) ?_
      simpa using hnodup

theorem collects_ofView {view : View} (hids : (view.viewNodes.map Node.id).Nodup) :
    Collects view.owners (ofView view) := by
  rw [View.owners, ofView]
  split
  · exact collects_nil.add ⟨view.id, view.technicalName⟩ List.not_mem_nil
  · exact collects_nil.foldl_addNode (by simpa using hids)

theorem nodup_owners {view : View} (hids : (view.viewNodes.map Node.id).Nodup) :
    (view.owners.map Owner.id).Nodup := by
  rw [View.owners]
  split
  · exact List.nodup_singleton _
  · refine hids.sublist ?_
    induction view.viewNodes with
    | nil => exact List.Sublist.refl _
    | cons node nodes ih =>
      cases hsource : node.source? with
      | none => simpa [Node.owner?, hsource] using ih.cons node.id
      | some source => simpa [Node.owner?, hsource] using ih

/-! ### Routing -/

/-- Does an owner with the id read the index? -/
def reads (types : BaseTypes) (key index : String) : Bool :=
  (ofIndex? index).any fun baseType => ((types.owners.get? baseType).getD []).contains key

/-- The indices under a key after more have been added. -/
def extended (found : Option (List String)) (more : List String) : Option (List String) :=
  if more = [] then found else some (found.getD [] ++ more)

theorem extended_append (found : Option (List String)) (more rest : List String) :
    extended (extended found more) rest = extended found (more ++ rest) := by
  cases more with
  | nil => rfl
  | cons first more => cases rest <;> simp [extended]

/-- An index is added once under the id of every owner. -/
theorem get?_foldl_addIndex {ids : List String} (hids : ids.Nodup) (routes : NodeRoutes)
    (key : String) :
    (ids.foldl (addIndex index) routes).get? key =
      extended (routes.get? key) (if ids.contains key then [index] else []) := by
  induction ids generalizing routes with
  | nil => simp [extended]
  | cons id ids ih =>
    obtain ⟨hnew, hids⟩ := List.nodup_cons.1 hids
    rw [List.foldl_cons, ih hids, addIndex, KeyMap.update, KeyMap.get?_insert]
    by_cases hkey : id = key
    · subst hkey
      simp [extended, hnew]
    · simp [hkey, Ne.symm hkey]

theorem ordered_foldl_addIndex (ids : List String) (h : routes.Ordered) :
    (ids.foldl (addIndex index) routes).Ordered := by
  induction ids generalizing routes with
  | nil => exact h
  | cons id ids ih => exact ih (h.insert ..)

theorem routeIndex_spec (hids : ∀ baseType ids, types.owners.get? baseType = some ids → ids.Nodup)
    (h : types.routeIndex routes index = .ok next) :
    (∀ key, next.get? key =
        extended (routes.get? key) (if types.reads key index then [index] else [])) ∧
      (routes.Ordered → next.Ordered) := by
  rw [routeIndex] at h
  cases hbase : ofIndex? index with
  | none =>
    rw [hbase] at h
    obtain rfl := Except.ok.inj h
    have hreads (key : String) : types.reads key index = false := by
      rw [reads, hbase, Option.any_none]
    simp only [hreads]
    exact ⟨fun _ => rfl, id⟩
  | some baseType =>
    simp only [hbase] at h
    cases howners : types.owners.get? baseType with
    | none => simp [howners] at h
    | some ids =>
      simp only [howners] at h
      obtain rfl := Except.ok.inj h
      have hreads (key : String) : types.reads key index = ids.contains key := by
        rw [reads, hbase, Option.any_some, howners, Option.getD_some]
      simp only [hreads]
      exact ⟨get?_foldl_addIndex (hids baseType ids howners) routes, ordered_foldl_addIndex ids⟩

theorem foldlM_routeIndex_spec
    (hids : ∀ baseType ids, types.owners.get? baseType = some ids → ids.Nodup)
    (h : indices.foldlM types.routeIndex routes = .ok result) :
    (∀ key, result.get? key = extended (routes.get? key) (indices.filter (types.reads key))) ∧
      (routes.Ordered → result.Ordered) := by
  induction indices generalizing routes with
  | nil =>
    obtain rfl := Except.ok.inj h
    exact ⟨fun _ => rfl, id⟩
  | cons index indices ih =>
    rw [List.foldlM_cons] at h
    obtain ⟨next, hnext, hrest⟩ := Result.bind_eq_ok.1 h
    obtain ⟨hget, hordered⟩ := routeIndex_spec hids hnext
    obtain ⟨hgetRest, horderedRest⟩ := ih hrest
    refine ⟨fun key => ?_, fun h => horderedRest (hordered h)⟩
    rw [hgetRest, hget, extended_append, List.filter_cons]
    split <;> rfl

theorem exists_routeIndex (routes : NodeRoutes) :
    (∃ next, types.routeIndex routes index = .ok next) ↔
      ∀ baseType, ofIndex? index = some baseType → types.owners.get? baseType ≠ none := by
  rw [routeIndex]
  cases ofIndex? index with
  | none => simp
  | some baseType =>
    simp only [Option.some.injEq, forall_eq']
    cases types.owners.get? baseType <;> simp

theorem exists_foldlM_routeIndex :
    (∃ result, indices.foldlM types.routeIndex routes = .ok result) ↔
      ∀ index ∈ indices, ∀ baseType, ofIndex? index = some baseType →
        types.owners.get? baseType ≠ none := by
  induction indices generalizing routes with
  | nil => simp [pure, Except.pure]
  | cons index indices ih =>
    rw [List.forall_mem_cons, List.foldlM_cons, ← exists_routeIndex routes]
    simp only [Result.bind_eq_ok]
    constructor
    · rintro ⟨result, next, hnext, hrest⟩
      exact ⟨⟨next, hnext⟩, ih.1 ⟨result, hrest⟩⟩
    · rintro ⟨⟨next, hnext⟩, hrest⟩
      obtain ⟨result, hresult⟩ := ih.2 hrest
      exact ⟨result, next, hnext, hresult⟩

/-! ### Views -/

theorem Collects.getD_owners (h : Collects owners types) (hne : baseType ≠ "") :
    (types.owners.get? baseType).getD [] = idsOf owners baseType := by
  rw [h.owners]
  by_cases hnil : idsOf owners baseType = [] <;> simp [hne, hnil]

/-- An id reads the indices with the base type of one of its owners. -/
theorem Collects.reads_iff (h : Collects owners types) :
    types.reads key index = true ↔
      ∃ owner ∈ owners, owner.id = key ∧ owner.technicalName ≠ "" ∧
        secondToken? index = some owner.technicalName := by
  rw [reads, Option.any_eq_true]
  constructor
  · rintro ⟨baseType, hbase, hcontains⟩
    obtain ⟨htoken, hne⟩ := ofIndex?_eq_some.1 hbase
    rw [h.getD_owners hne, List.contains_iff_mem, mem_idsOf] at hcontains
    obtain ⟨owner, howner, rfl, rfl⟩ := hcontains
    exact ⟨owner, howner, rfl, hne, htoken⟩
  · rintro ⟨owner, howner, rfl, hne, htoken⟩
    refine ⟨owner.technicalName, ofIndex?_eq_some.2 ⟨htoken, hne⟩, ?_⟩
    rw [h.getD_owners hne, List.contains_iff_mem, mem_idsOf]
    exact ⟨owner, howner, rfl, rfl⟩

/-- An owner reads its share, if it has a base type. -/
theorem Collects.filter_reads (h : Collects owners types) (hids : (owners.map Owner.id).Nodup)
    (hmem : owner ∈ owners) (indices : List String) :
    indices.filter (types.reads owner.id) =
      if owner.technicalName = "" then [] else owner.share indices := by
  have hreads (index : String) : types.reads owner.id index = true ↔
      owner.technicalName ≠ "" ∧ secondToken? index = some owner.technicalName := by
    rw [h.reads_iff]
    constructor
    · rintro ⟨other, hother, hid, hreads⟩
      obtain rfl := List.inj_on_of_nodup_map hids hother hmem hid
      exact hreads
    · exact fun hreads => ⟨owner, hmem, rfl, hreads⟩
  split
  · next hempty =>
    refine List.filter_eq_nil_iff.2 fun index _ => ?_
    rw [hreads]
    exact fun h => h.1 hempty
  · next hne =>
    refine List.filter_congr fun index _ => ?_
    rw [Bool.eq_iff_iff, hreads, decide_eq_true_eq]
    exact and_iff_right hne

theorem Collects.nodup_ids (h : Collects owners types) (hids : (owners.map Owner.id).Nodup)
    {ids : List String} (hget : types.owners.get? baseType = some ids) : ids.Nodup := by
  rw [h.owners] at hget
  split at hget
  · cases hget
  · obtain rfl := Option.some.inj hget
    exact hids.sublist (List.filter_sublist.map Owner.id)

theorem Collects.get?_eq_none (h : Collects owners types) :
    types.owners.get? baseType = none ↔
      baseType = "" ∨ ∀ owner ∈ owners, owner.technicalName ≠ baseType := by
  have hnone : idsOf owners baseType = [] ↔ ∀ owner ∈ owners, owner.technicalName ≠ baseType := by
    simp [idsOf]
  rw [h.owners, ← hnone]
  split <;> simp_all

variable {view : View}

/-- The routing of a view fails at an index that no owner reads. -/
theorem route_fails (hids : (view.viewNodes.map Node.id).Nodup) :
    (∃ error, (ofView view).route indices = .error error) ↔
      ∃ index ∈ indices, ∃ token, secondToken? index = some token ∧ token ≠ "" ∧
        ∀ owner ∈ view.owners, owner.technicalName ≠ token := by
  rw [Result.exists_error_iff, route, exists_foldlM_routeIndex]
  simp only [ofIndex?_eq_some, Ne, (collects_ofView hids).get?_eq_none]
  push Not
  constructor
  · rintro ⟨index, hindex, token, ⟨htoken, hne⟩, hunread⟩
    exact ⟨index, hindex, token, htoken, hne, hunread.resolve_left hne⟩
  · rintro ⟨index, hindex, token, htoken, hne, hunread⟩
    exact ⟨index, hindex, token, ⟨htoken, hne⟩, .inr hunread⟩

theorem get?_of_route (hids : (view.viewNodes.map Node.id).Nodup)
    (h : (ofView view).route indices = .ok routes) :
    (∀ key, routes.get? key = extended none (indices.filter ((ofView view).reads key))) ∧
      routes.Ordered := by
  have hcollects := collects_ofView hids
  obtain ⟨hget, hordered⟩ := foldlM_routeIndex_spec
    (fun _ _ => hcollects.nodup_ids (nodup_owners hids)) h
  exact ⟨fun key => hget key, hordered KeyMap.ordered_nil⟩

/-- **Every owner gets its share of the indices.** Routing fails at an index with a base type that
no owner reads; otherwise an owner with a base type gets the indices of it, in order and as often as
they are given, and nothing else stands in the routes. An owner without a base type gets nothing,
not even the indices without one. -/
theorem route_partitions {view : View} (hids : (view.viewNodes.map Node.id).Nodup)
    (indices : List String) :
    ((∃ error, (ofView view).route indices = .error error) ↔
      ∃ index ∈ indices, ∃ token, secondToken? index = some token ∧ token ≠ "" ∧
        ∀ owner ∈ view.owners, owner.technicalName ≠ token) ∧
    (∀ routes, (ofView view).route indices = .ok routes →
      routes.Ordered ∧
        (∀ owner ∈ view.owners, routes.get? owner.id =
          if owner.technicalName = "" ∨ owner.share indices = [] then none
          else some (owner.share indices)) ∧
        ∀ key ∈ routes.keys, ∃ owner ∈ view.owners, owner.id = key) ∧
    (ofView view).names = ((view.owners.map Owner.technicalName).filter (· ≠ "")).eraseDups := by
  have hcollects := collects_ofView hids
  refine ⟨route_fails hids, fun routes hroutes => ?_, hcollects.names⟩
  obtain ⟨hget, hordered⟩ := get?_of_route hids hroutes
  refine ⟨hordered, fun owner howner => ?_, fun key hkey => ?_⟩
  · rw [hget, hcollects.filter_reads (nodup_owners hids) howner]
    by_cases hempty : owner.technicalName = "" <;> simp [extended, hempty]
  · obtain ⟨⟨_, found⟩, hfound, rfl⟩ := List.mem_map.1 hkey
    have hsome := hordered.get?_of_mem hfound
    rw [hget, extended] at hsome
    split at hsome
    · cases hsome
    · next hne =>
      obtain ⟨index, hindex⟩ := List.exists_mem_of_ne_nil _ hne
      obtain ⟨owner, howner, hid, -⟩ := hcollects.reads_iff.1 (List.mem_filter.1 hindex).2
      exact ⟨owner, howner, hid⟩

/-- Two view nodes over one base type, and a third one over another. -/
def sharedLogs : View where
  id := "events"
  kind := .custom
  scope :=
    [{ id := "errors", config := .view "e" none {} (some (.atomic "e" "logs" .indexBase)) },
      { id := "users", config := .view "u" none {} (some (.atomic "u" "users" .indexBase)) },
      { id := "warnings", config := .view "w" none {} (some (.atomic "w" "logs" .indexBase)) }]

/-- An index is given to both its owners, as often as it is there. -/
theorem route_partitions_sharedLogs :
    (sharedLogs.viewNodes.map Node.id).Nodup ∧
      (ofView sharedLogs).names = ["logs", "users"] ∧
      ∃ routes, (ofView sharedLogs).route ["x-logs-1", "plain", "x-logs-1"] = .ok routes ∧
        routes.get? "errors" = some ["x-logs-1", "x-logs-1"] ∧
        routes.get? "warnings" = some ["x-logs-1", "x-logs-1"] ∧
        routes.get? "users" = none := by
  have hids : (sharedLogs.viewNodes.map Node.id).Nodup := by decide
  obtain ⟨-, hroutes, hnames⟩ := route_partitions hids ["x-logs-1", "plain", "x-logs-1"]
  have hroute : (ofView sharedLogs).route ["x-logs-1", "plain", "x-logs-1"] = .ok _ := rfl
  obtain ⟨-, hget, -⟩ := hroutes _ hroute
  have howners : sharedLogs.owners =
      [⟨"errors", "logs"⟩, ⟨"users", "users"⟩, ⟨"warnings", "logs"⟩] := rfl
  simp only [howners, List.forall_mem_cons] at hget
  obtain ⟨herrors, husers, hwarnings, -⟩ := hget
  exact ⟨hids, hnames.trans (by decide), _, hroute, herrors.trans (by decide),
    hwarnings.trans (by decide), husers.trans (by decide)⟩

/-- An owner without a base type does not get the indices without one. -/
theorem unnamed_owner_gets_nothing :
    ¬∀ (view : View), (view.viewNodes.map Node.id).Nodup → ∀ indices routes,
      (ofView view).route indices = .ok routes → ∀ owner ∈ view.owners,
        routes.get? owner.id =
          if owner.share indices = [] then none else some (owner.share indices) := by
  intro h
  have hroute : (ofView (.atomic "logs" "" .indexBase)).route ["logs--1"] = .ok [] := rfl
  have hshare := h (.atomic "logs" "" .indexBase) (by decide) _ _ hroute ⟨"logs", ""⟩
    List.mem_cons_self
  revert hshare
  decide

end BaseTypes

end ViewCompiler
