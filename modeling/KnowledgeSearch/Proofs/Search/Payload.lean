/-
  KnowledgeSearch/Proofs/Search/Payload.lean
  ==========================================
  **What a payload tells.**

  The cache knows a request by its payload only.  So a payload has to tell everything
  that the result depends on: the table, the query, the embedding, the fields, the filter
  as it was given, the resolved weights and the limit.  It does, with two provisos.  A
  filter that is null reads like a missing one, and numbers that are not finite all read
  as null; the weights of a search are finite, as they come from `HybridWeights.normalized`
  (`normalized_finite`).

  `Service.Asks` pairs a payload with the search that answers it, and `Service.Asks.unique`
  is the result: one payload, one search.
-/
import KnowledgeSearch.Proofs.Search.Prepared
import KnowledgeSearch.Proofs.Search.Weights

namespace KnowledgeSearch

/-! ### Weights -/

/-- Weights that are numbers. -/
structure HybridWeights.Finite (weights : HybridWeights) : Prop where
  text : weights.text.isFinite = true
  vector : weights.vector.isFinite = true

/-- Rescaled weights are numbers, also where their sum overflows. -/
theorem HybridWeights.normalized_finite {text vector : Single} {weights : HybridWeights}
    (h : normalized text vector = .ok weights) : weights.Finite :=
  ⟨Service.isFinite_of_isUnit (isUnit_of_normalized h).1,
    Service.isFinite_of_isUnit (isUnit_of_normalized h).2⟩

/-! ### Values -/

theorem Json.ofSingle_inj {x y : Single} (hx : x.isFinite = true) (hy : y.isFinite = true)
    (h : ofSingle x = ofSingle y) : x = y := by
  simp only [ofSingle, ofDouble, dif_pos (Binary.isFinite_toDouble hx),
    dif_pos (Binary.isFinite_toDouble hy)] at h
  injection h with h
  injection h with h
  exact Binary.toDouble_inj hx hy h

theorem Json.ofNat_inj {m n : UInt32} (h : ofNat m.toNat = ofNat n.toNat) : m = n := by
  have fits (n : UInt32) : -0x8000000000000000 ≤ (n.toNat : Int) ∧
      (n.toNat : Int) < 0x10000000000000000 := by
    have := n.toNat_lt
    omega
  simp only [ofNat, ofInt, dif_pos (fits _)] at h
  injection h with h
  injection h with h
  exact UInt32.toNat_inj.mp (Int.ofNat.inj h)

theorem Embedding.toJson_inj {e e' : Embedding} (h : e.toJson = e'.toJson) : e = e' := by
  have go {xs ys : List Single} (hxs : ∀ x ∈ xs, x.isFinite = true)
      (hys : ∀ y ∈ ys, y.isFinite = true) (h : xs.map Json.ofSingle = ys.map Json.ofSingle) :
      xs = ys := by
    induction xs generalizing ys with
    | nil =>
      cases ys with
      | nil => rfl
      | cons y ys => cases h
    | cons x xs ih =>
      cases ys with
      | nil => cases h
      | cons y ys =>
        simp only [List.map_cons, List.cons.injEq] at h
        simp only [List.forall_mem_cons] at hxs hys
        rw [Json.ofSingle_inj hxs.1 hys.1 h.1, ih hxs.2 hys.2 h.2]
  cases e with
  | mk components nonempty finite =>
    cases e' with
    | mk components' nonempty' finite' =>
      injection h with h
      cases go finite finite' h
      rfl

/-- A missing value and a null are told apart from all others, not from each other. -/
theorem getD_null_inj {x y : Option Json} (hx : x ≠ some .null) (hy : y ≠ some .null)
    (h : x.getD .null = y.getD .null) : x = y := by
  cases x with
  | none =>
    cases y with
    | none => rfl
    | some y =>
      cases h
      exact absurd rfl hy
  | some x =>
    cases y with
    | none =>
      cases h
      exact absurd rfl hx
    | some y => exact congrArg some h

theorem embedding_inj {e e' : Option Embedding}
    (h : (e.map Embedding.toJson).getD .null = (e'.map Embedding.toJson).getD .null) : e = e' := by
  have notNull (e : Option Embedding) : e.map Embedding.toJson ≠ some .null := by
    cases e <;> simp [Embedding.toJson]
  exact Option.map_injective (fun _ _ => Embedding.toJson_inj)
    (getD_null_inj (notNull e) (notNull e') h)

theorem string_inj {a b : List String} (h : a.map Json.string = b.map Json.string) : a = b :=
  (List.map_inj_right fun _ _ => Json.string.inj).mp h

/-! ### Payloads -/

namespace Service

variable {s : Service} {filter filter' : Option Json}

theorem PreparedVector.payload_eq (p : PreparedVector) (filter : Option Json) :
    p.payload filter = .object
      [("embedding", p.embedding.toJson), ("filter", filter.getD .null),
        ("kind", .string "vector"), ("limit", .ofNat p.limit.toNat),
        ("table", .string p.table.name)] := by
  simp only [payload, Json.ofMembers, Keyed.ofList, List.foldl_cons, List.foldl_nil,
    Keyed.insert, String.reduceLT, String.reduceEq, if_true, if_false]

theorem PreparedHybrid.payload_eq (p : PreparedHybrid) (filter : Option Json)
    (weights : HybridWeights) (limit : UInt32) :
    p.payload filter weights limit = .object
      [("embedding", (p.embedding.map Embedding.toJson).getD .null),
        ("fields", .array (p.textFields.map Json.string)), ("filter", filter.getD .null),
        ("kind", .string "hybrid"), ("limit", .ofNat limit.toNat), ("query", .string p.query),
        ("table", .string p.table.name),
        ("weights", .array [.ofSingle weights.text, .ofSingle weights.vector])] := by
  simp only [payload, Json.ofMembers, Keyed.ofList, List.foldl_cons, List.foldl_nil,
    Keyed.insert, String.reduceLT, String.reduceEq, if_true, if_false]

/-- A vector search that is in order, as the database answers it. -/
def readNearest (s : Service) (p : PreparedVector) (filter : Option Json) :
    Search (List SearchResult) := do
  let statement ← Search.ofExcept (s.nearest p filter)
  let rows ← Search.rows statement .rows
  pure (rows.map (PreparedVector.result p.table))

/-- A hybrid search that is in order, as the database answers it. -/
def readRanked (s : Service) (p : PreparedHybrid) (weights : HybridWeights) (limit : UInt32) :
    Search (List SearchResult) := do
  let candidates ← s.fetchCandidates p
  pure (Candidate.rank p.table.name weights limit.toNat candidates)

/-- The payload, the table and the search that belong together, of searches for which the
    cache is asked. -/
inductive Asks (s : Service) : Json → String → Search (List SearchResult) → Prop where
  | vector {p : PreparedVector} {filter : Option Json}
      (table : s.catalog.table p.table.name = .ok p.table) (given : filter ≠ some .null) :
      s.Asks (p.payload filter) p.table.name (s.readNearest p filter)
  | hybrid {p : PreparedHybrid} {filter : Option Json} {weights : HybridWeights} {limit : UInt32}
      (table : s.catalog.table p.table.name = .ok p.table) (given : filter ≠ some .null)
      (read : readFilter p.table filter = .ok p.filter) (finite : weights.Finite) :
      s.Asks (p.payload filter weights limit) p.table.name (s.readRanked p weights limit)

/-- **A payload tells the table and the search.** -/
theorem Asks.unique {payload : Json} {table table' : String}
    {search search' : Search (List SearchResult)} (h : s.Asks payload table search)
    (h' : s.Asks payload table' search') : table = table' ∧ search = search' := by
  generalize hpayload : payload = payload' at h'
  cases h with
  | @vector p filter htable hgiven =>
    cases h' with
    | @vector q filter' htable' hgiven' =>
      simp only [PreparedVector.payload_eq, Json.object.injEq, List.cons.injEq, Prod.mk.injEq,
        Json.string.injEq, true_and, and_true] at hpayload
      obtain ⟨hembedding, hfilter, hlimit, hname⟩ := hpayload
      rw [hname, htable'] at htable
      cases p
      cases q
      cases htable
      cases Embedding.toJson_inj hembedding
      cases getD_null_inj hgiven hgiven' hfilter
      cases Json.ofNat_inj hlimit
      exact ⟨rfl, rfl⟩
    | hybrid =>
      simp [PreparedVector.payload_eq, PreparedHybrid.payload_eq] at hpayload
  | @hybrid p filter weights limit htable hgiven hread hfinite =>
    cases h' with
    | vector => simp [PreparedVector.payload_eq, PreparedHybrid.payload_eq] at hpayload
    | @hybrid q filter' weights' limit' htable' hgiven' hread' hfinite' =>
      simp only [PreparedHybrid.payload_eq, Json.object.injEq, List.cons.injEq, Prod.mk.injEq,
        Json.string.injEq, Json.array.injEq, true_and, and_true] at hpayload
      obtain ⟨hembedding, hfields, hfilter, hlimit, hquery, hname, htext, hvector⟩ := hpayload
      rw [hname, htable'] at htable
      cases p
      cases q
      cases htable
      cases embedding_inj hembedding
      cases string_inj hfields
      cases getD_null_inj hgiven hgiven' hfilter
      cases Json.ofNat_inj hlimit
      cases hquery
      cases Except.ok.inj (hread.symm.trans hread')
      cases weights
      cases weights'
      cases Json.ofSingle_inj hfinite.text hfinite'.text htext
      cases Json.ofSingle_inj hfinite.vector hfinite'.vector hvector
      exact ⟨rfl, rfl⟩

end Service

end KnowledgeSearch
