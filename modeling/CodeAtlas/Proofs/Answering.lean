/-
# Answering questions

A question becomes a query by parameters. What it looks for is written into them and read back by the
search, so that a search goes by the question (`Store.search_nodes`, `Store.search_edges`,
`Store.search_path`): its shape, its filter and its limit, and for a path the first two things it names,
which are there whenever a path is looked for.

Whatever calls a graph in memory was given, it answers every question (`Project.answers_ask`). An answer can
be looked at without the graph and keeps to the limit.

Key definitions: `Question.target`, `Question.filter`, `Store.Serves`.
Key theorems: `Question.terms_of_path`, `GraphQuery.ofParams_params`, `Store.search_params`,
`Store.Integral.serves_search`, `Project.answers_ask`.
-/
import CodeAtlas.Operation
import CodeAtlas.Proofs.Collecting

namespace CodeAtlas

/-- Where the keys of a list are different, every entry of it is found. -/
theorem SortedMap.get?_ofList_of_mem {κ α : Type} [Ord κ] [Std.TransOrd κ] [Std.LawfulEqOrd κ]
    [DecidableEq κ] {l : List (κ × α)} {k : κ} {v : α} (hl : (l.map Prod.fst).Nodup) (h : (k, v) ∈ l) :
    (ofList l).get? k = some v := by
  refine get?_writes_of_mem h rfl fun c hc hk => ?_
  exact congrArg Prod.snd (List.inj_on_of_nodup_map hl hc h hk)

/-! ### What the parameters say -/

namespace Question

/-- What the question looks for. -/
def target (q : Question) : GraphQuery.Target := GraphQuery.target q.terms q.intent

/-- Which nodes the question looks for. -/
def filter (q : Question) : NodeFilter where
  kinds := q.target.nodeKinds.map NodeKind.name
  terms := q.terms
  fields := q.target.fields

/-- Which kinds of relationships the question looks for, all of them where none is given. -/
def relationKinds (q : Question) : List String := q.target.relationKinds.map RelationKind.name

theorem fields_target_ne_nil (q : Question) : q.target.fields ≠ [] := by
  unfold target
  cases q.intent <;> exact List.cons_ne_nil _ _

/-- A path is looked for only between two things that were named. -/
theorem terms_of_path {q : Question} (h : q.target.shape = .path) :
    ∃ start goal rest, q.terms = start :: goal :: rest := by
  unfold target at h
  cases hi : q.intent with
  | analyzePath =>
    match hterms : q.terms with
    | start :: goal :: rest => exact ⟨start, goal, rest, rfl⟩
    | [] | [_] => simp [hi, hterms, GraphQuery.target] at h
  | _ => simp [hi, GraphQuery.target] at h

end Question

namespace Shape

/-- The shapes of relationships with their ends. -/
def edges : List Shape := [.outgoing, .incoming, .neighbors]

theorem ofName?_name (shape : Shape) : ofName? shape.name = some shape := by
  cases shape <;> decide

end Shape

theorem NodeFilter.texts_of_get? {params : Properties} {key : String} {items : List String}
    (h : params.get? key = some (.strings items)) : texts params key = items := by
  simp [texts, h, Json.strings, Json.items?, List.filterMap_map, Function.comp_def, Json.string?]

/-- A limit is read back as it was written, or as the largest one there is. -/
theorem Json.getD_nat? (limit : Nat) :
    (nat? (.nat limit)).getD (twoTo 64 - 1) = min limit (twoTo 64 - 1) := by
  have hpos : 0 < twoTo 64 := by decide
  by_cases h : limit < twoTo 64
  · have hword : Word.isUnsigned 64 (limit : Int) = true := by simp [Word.isUnsigned, h]
    simp only [nat, nat?, hword, if_true, Option.getD_some, Int.toNat_natCast]
    omega
  · have hword : Word.isUnsigned 64 (limit : Int) = false := by simp [Word.isUnsigned, h]
    simp only [nat, nat?, hword, Bool.false_eq_true, if_false, Option.getD_none]
    omega

namespace GraphQuery

variable {q : Question}

/-- The parameters of a question have different names, whatever its shape is. -/
theorem nodup_keys_params (terms : List String) (t : Target) (mode limit : Json) :
    ((("mode", mode) :: ("limit", limit) :: shapeParams terms t).map Prod.fst).Nodup := by
  unfold shapeParams
  split
  · simp
  · simp
  · split <;> simp

theorem get?_params {key : String} {v : Json}
    (h : (key, v) ∈ ("mode", .string q.target.shape.name) :: ("limit", .nat q.limit) ::
      shapeParams q.terms q.target) : (of q).params.get? key = some v :=
  SortedMap.get?_ofList_of_mem (nodup_keys_params ..) h

theorem mode_params : (((of q).params.get? "mode").bind Json.string?).bind Shape.ofName? =
    some q.target.shape := by
  rw [get?_params List.mem_cons_self]
  exact Shape.ofName?_name _

theorem limit_params : (((of q).params.get? "limit").bind Json.nat?).getD (twoTo 64 - 1) =
    min q.limit (twoTo 64 - 1) := by
  rw [get?_params (List.mem_cons_of_mem _ List.mem_cons_self), Option.bind_some]
  exact Json.getD_nat? q.limit

theorem get?_params_of_mem {key : String} {v : Json} (h : (key, v) ∈ shapeParams q.terms q.target) :
    (of q).params.get? key = some v :=
  get?_params (List.mem_cons_of_mem _ (List.mem_cons_of_mem _ h))

/-- The filter of a question is read back from its parameters. -/
theorem ofParams_params (h : q.target.shape ≠ .path) : NodeFilter.ofParams (of q).params = q.filter := by
  have hread {key : String} {items : List String}
      (hmem : (key, Json.strings items) ∈ [("node_types", Json.strings q.filter.kinds),
        ("terms", .strings q.terms), ("search_fields", .strings q.target.fields)]) :
      NodeFilter.texts (of q).params key = items := by
    refine NodeFilter.texts_of_get? (get?_params_of_mem ?_)
    cases hshape : q.target.shape with
    | path => exact absurd hshape h
    | _ =>
      simp only [shapeParams, hshape]
      exact List.mem_append_left _ hmem
  have hkinds : NodeFilter.texts (of q).params "node_types" = q.filter.kinds := hread (by simp)
  have hterms : NodeFilter.texts (of q).params "terms" = q.terms := hread (by simp)
  have hfields : NodeFilter.texts (of q).params "search_fields" = q.target.fields := hread (by simp)
  simp [NodeFilter.ofParams, hkinds, hterms, hfields, Question.filter, q.fields_target_ne_nil]

end GraphQuery

namespace Store

variable {s : Store} {q : Question}

/-- The shape and the limit of a query are read back from its parameters. -/
theorem search_params (s : Store) (q : Question) : s.search (GraphQuery.of q).params =
    match q.target.shape with
    | .nodes => s.searchNodes (.ofParams (GraphQuery.of q).params) (min q.limit (twoTo 64 - 1))
    | .path => s.searchPath ((((GraphQuery.of q).params.get? "from").bind Json.string?).getD "")
        ((((GraphQuery.of q).params.get? "to").bind Json.string?).getD "")
    | shape => s.searchEdges (.ofParams (GraphQuery.of q).params)
        (NodeFilter.texts (GraphQuery.of q).params "rel_types") shape (min q.limit (twoTo 64 - 1)) := by
  have hmode := GraphQuery.mode_params (q := q)
  have hlimit := GraphQuery.limit_params (q := q)
  -- the limit is left open, since the largest one is not to be computed
  revert hmode hlimit
  generalize (GraphQuery.of q).params = params
  generalize min q.limit (twoTo 64 - 1) = limit
  intro hmode hlimit
  rw [search, hmode, hlimit]
  cases q.target.shape <;> rfl

theorem search_nodes (h : q.target.shape = .nodes) : s.search (GraphQuery.of q).params =
    s.searchNodes q.filter (min q.limit (twoTo 64 - 1)) := by
  have hne : q.target.shape ≠ .path := by simp [h]
  rw [search_params, GraphQuery.ofParams_params hne, h]

theorem search_edges (h : q.target.shape ∈ Shape.edges) : s.search (GraphQuery.of q).params =
    s.searchEdges q.filter q.relationKinds q.target.shape (min q.limit (twoTo 64 - 1)) := by
  have hne : q.target.shape ≠ .path := by
    intro hpath
    simp [hpath, Shape.edges] at h
  have hkinds : NodeFilter.texts (GraphQuery.of q).params "rel_types" = q.relationKinds := by
    refine NodeFilter.texts_of_get? (GraphQuery.get?_params_of_mem ?_)
    cases hshape : q.target.shape with
    | path => exact absurd hshape hne
    | nodes => simp [hshape, Shape.edges] at h
    | _ => simp [GraphQuery.shapeParams, hshape, Question.relationKinds]
  rw [search_params, GraphQuery.ofParams_params hne, hkinds]
  cases hshape : q.target.shape with
  | path => exact absurd hshape hne
  | nodes => simp [hshape, Shape.edges] at h
  | _ => rfl

theorem search_path (h : q.target.shape = .path) {start goal : String} {rest : List String}
    (hterms : q.terms = start :: goal :: rest) :
    s.search (GraphQuery.of q).params = s.searchPath start goal := by
  have hparams : GraphQuery.shapeParams q.terms q.target =
      [("from", .string start), ("to", .string goal)] := by
    simp [GraphQuery.shapeParams, h, hterms]
  have hstart : (GraphQuery.of q).params.get? "from" = some (.string start) :=
    GraphQuery.get?_params_of_mem (by simp [hparams])
  have hgoal : (GraphQuery.of q).params.get? "to" = some (.string goal) :=
    GraphQuery.get?_params_of_mem (by simp [hparams])
  rw [search_params, h, hstart, hgoal]
  rfl

/-! ### What an answer holds -/

/-- What nodes and relationships serve a question. Where it looks for nodes or for relationships, these are
such ones, and as many as there are or as the limit allows. Where it looks for a path, they are one, of at
most six relationships, and are missing only where there is none. -/
structure Serves (s : Store) (q : Question) (ns : List Node) (rs : List Relationship) : Prop where
  nodes : q.target.shape = .nodes →
    Fills (min q.limit (twoTo 64 - 1)) (fun n => s.HasNode n ∧ q.filter.accepts n = true) ns
  edges : q.target.shape ∈ Shape.edges →
    Fills (min q.limit (twoTo 64 - 1))
      (fun r => s.HasRelationship r ∧ s.fits q.filter q.relationKinds q.target.shape r = true) rs
  path : q.target.shape = .path → rs.length ≤ 6 ∧
    ∃ start goal rest, q.terms = start :: goal :: rest ∧
      ((rs = [] ∧ ∀ path a b, ¬ s.Connects start goal path a b) ∨
        ∃ path a b, s.Connects start goal path a b ∧ ∀ r, r ∈ rs ↔ r ∈ path)

namespace Integral

variable (h : s.Integral)
include h

theorem selfContained_search (q : Question) :
    s.SelfContained (s.search (GraphQuery.of q).params).nodes
      (s.search (GraphQuery.of q).params).relationships := by
  cases hshape : q.target.shape with
  | nodes =>
    rw [search_nodes hshape]
    exact selfContained_of_collects (h.collects_searchNodes _ _) (by simp)
  | path =>
    obtain ⟨start, goal, rest, hterms⟩ := Question.terms_of_path hshape
    rw [search_path hshape hterms]
    obtain ⟨hnothing, _⟩ | ⟨path, a, b, _, hfound⟩ := h.collects_searchPath start goal
    · rw [hnothing]
      exact selfContained_of_collects .nothing (by simp)
    · exact h.selfContained_edges hfound
  | _ =>
    rw [search_edges (by simp [hshape, Shape.edges])]
    exact h.selfContained_edges (h.collects_searchEdges _ _ _ _)

theorem serves_search (q : Question) : s.Serves q (s.search (GraphQuery.of q).params).nodes
    (s.search (GraphQuery.of q).params).relationships where
  nodes hshape := by
    rw [search_nodes hshape]
    exact h.fills_searchNodes _ _
  edges hshape := by
    rw [search_edges hshape]
    exact h.fills_searchEdges _ _ _ _
  path hshape := by
    obtain ⟨start, goal, rest, hterms⟩ := Question.terms_of_path hshape
    rw [search_path hshape hterms]
    obtain ⟨hnothing, hnone⟩ | ⟨path, a, b, hconnects, hfound⟩ := h.collects_searchPath start goal
    · rw [hnothing]
      exact ⟨Nat.zero_le _, start, goal, rest, hterms, .inl ⟨rfl, hnone⟩⟩
    · have hlength := Nat.le_trans hfound.relationships.length_le hconnects.length_le
      refine ⟨hlength, start, goal, rest, hterms, ?_⟩
      exact .inr ⟨path, a, b, hconnects, hfound.relationships.mem⟩

end Integral

end Store

theorem Question.limit_of (config : QueryConfig) (text : String) (limit : Option Nat) :
    1 ≤ (of config text limit).limit ∧ (of config text limit).limit ≤ max config.maxLimit 1 := by
  simp only [of, limitOf]
  omega

/-- Whatever calls a graph in memory was given, it answers every question and stays as it is, but for
remembering the query. The answer holds each id once, is stored, holds the ends of its relationships and
serves the question, whose limit is within what is allowed; a path is looked for only if two things are
named. -/
theorem Project.answers_ask (p : Project) (files : FileSystem) (calls : List GraphCall)
    (asked : List (String × Properties)) (text : String) (limit : Option Nat) :
    let q := Question.of p.query text limit
    let g := GraphQuery.of q
    let m : Memory := ⟨(Memory.after calls).store, asked, false⟩
    ∃ a : Answer, p.ask Memory.backend text limit ⟨files, m⟩ =
        (.ok a, ⟨files, { m with queries := asked ++ [(g.text, g.params)] }⟩) ∧
      m.store.SelfContained a.nodes a.relationships ∧ m.store.Serves q a.nodes a.relationships ∧
      (1 ≤ q.limit ∧ q.limit ≤ max p.query.maxLimit 1) ∧
      (g.shape = .path → 2 ≤ a.entities.length) := by
  intro q g m
  have hs := Memory.integral calls
  refine ⟨.of q g (m.store.search g.params), rfl, hs.selfContained_search q, hs.serves_search q,
    Question.limit_of p.query text limit, fun hpath => ?_⟩
  obtain ⟨start, goal, rest, hterms⟩ := Question.terms_of_path (q := q) hpath
  have hlength : q.entities.length = rest.length + 2 := by
    rw [← List.length_map (f := Text.lower), ← Question.terms, hterms, List.length_cons, List.length_cons]
  exact hlength ▸ Nat.le_add_left 2 _

end CodeAtlas
