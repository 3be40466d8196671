/-
  KnowledgeSearch/Proofs/Embedding/Json.lean
  ==========================================
  **Embeddings as JSON arrays.**

  An array is read as an embedding item by item: each must be a number, an integer or a
  double, and is narrowed to single precision (`Embedding.readItems_eq_ok_iff`).  The array
  that an embedding is reported as holds its components in double precision, which has all of
  them exactly, subnormal numbers and both zeros included, so narrowing gives each of them
  back (`Embedding.ofJson_toJson`).
-/
import KnowledgeSearch.Embedding
import KnowledgeSearch.Proofs.Numeric.Order

namespace KnowledgeSearch

/-- The component that an item of an array stands for. -/
def Json.toComponent? (item : Json) : Option Single :=
  item.toNumber?.map fun n => n.toDouble.toSingle

namespace Embedding

variable {items : List Json} {components : List Single} {x : Single}

/-- An array is read exactly if all its items are numbers, each of them as its component. -/
theorem readItems_eq_ok_iff (position : Nat) :
    readItems position items = .ok components ↔
      items.map Json.toComponent? = components.map some := by
  induction items generalizing position components with
  | nil =>
    rw [readItems, Except.ok.injEq, List.map_nil]
    cases components <;> simp
  | cons item items ih =>
    rw [readItems, List.map_cons, Json.toComponent?]
    cases item.toNumber? with
    | none => cases components <;> simp
    | some n =>
      cases hread : readItems (position + 1) items with
      | error fault =>
        cases components with
        | nil => simp
        | cons x components =>
          have hrest : items.map Json.toComponent? ≠ components.map some :=
            fun h => by simp [(ih (position + 1)).mpr h] at hread
          simp [bind, Except.bind, hrest]
      | ok rest =>
        rw [ih] at hread
        rw [Option.map_some, hread]
        cases components with
        | nil => simp [bind, Except.bind, pure, Except.pure]
        | cons x components =>
          have hsome : rest.map some = components.map some ↔ rest = components :=
            List.map_inj_right fun _ _ => Option.some.inj
          simp [bind, Except.bind, pure, Except.pure, hsome]

theorem ofComponents_components (e : Embedding) : ofComponents e.components = .ok e := by
  rw [ofComponents, dif_pos e.nonempty, dif_pos e.finite]

/-- An array is read as the embedding whose components its items stand for. -/
theorem ofItems_eq_ok {e : Embedding} (h : items.map Json.toComponent? = e.components.map some) :
    ofItems items = .ok e := by
  rw [ofItems, (readItems_eq_ok_iff 0).mpr h]
  exact e.ofComponents_components

/-- A component that is widened is narrowed to itself. -/
theorem toComponent?_ofSingle (hx : x.isFinite = true) :
    (Json.ofSingle x).toComponent? = some x := by
  have hnumber : Json.ofSingle x = .number (.float x.toDouble (Binary.isFinite_toDouble hx)) :=
    dif_pos _
  rw [hnumber]
  exact congrArg some (Binary.toSingle_toDouble hx)

/-- **An embedding is read from its JSON array as it was.**  Every component is the same number
    again, the sign of a zero included.  So reading twice gives what reading once gave,
    whatever form of an embedding was read first, and what was read has components, all of them
    finite. -/
theorem ofJson_toJson :
    (∀ e : Embedding, ofJson e.toJson = .ok e) ∧
      ∀ raw e, ofJson raw = .ok e →
        ofJson e.toJson = ofJson raw ∧ e.components ≠ [] ∧
          ∀ x ∈ e.components, x.isFinite = true := by
  have hread (e : Embedding) : ofJson e.toJson = .ok e := by
    apply ofItems_eq_ok
    rw [List.map_map]
    exact List.map_congr_left fun x hx => toComponent?_ofSingle (e.finite x hx)
  refine ⟨hread, fun raw e hraw => ⟨?_, e.nonempty, e.finite⟩⟩
  rw [hread, hraw]

/-- A text without brackets is read, and read again from its report. -/
theorem ofJson_toJson_tokens :
    ∃ e, ofJson (.string "1,-0") = .ok e ∧ e.components = [.one, -.zero] ∧
      ofJson e.toJson = ofJson (.string "1,-0") := by
  have hread : (ofJson (.string "1,-0")).toOption.map components = some [.one, -.zero] := by
    decide
  cases h : ofJson (.string "1,-0") with
  | error fault => simp [h, Except.toOption] at hread
  | ok e =>
    rw [h] at hread
    exact ⟨e, rfl, Option.some.inj hread, (ofJson_toJson.2 _ e h).1.trans h⟩

end Embedding

end KnowledgeSearch
