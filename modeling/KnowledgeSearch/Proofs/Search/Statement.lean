/-
  KnowledgeSearch/Proofs/Search/Statement.lean
  ============================================
  **The statements of searches are well formed.**

  A search for the nearest rows and a search for candidates are put together from the
  names of a table, the filter's condition and bound values.  The names are plain
  identifiers if the configuration is accepted, so the statements are clean, and their
  placeholders stand for their parameters one after another, in whatever order the parts
  of a statement were thought of.

  That a search for candidates looks for rows at all rests on a check that is made before:
  without an embedding there are a text to search for and fields to search in.
-/
import KnowledgeSearch.Proofs.Search.Prepared
import KnowledgeSearch.Proofs.Search.Program
import KnowledgeSearch.Proofs.Sql.Condition

namespace KnowledgeSearch

open Text (isIdentifier)

/-! ### Texts between quotes -/

/-- A text without marks of placeholders that leaves quotes open, or closes them. -/
def Unclosed (d : Dialect) (text : List Char) : Prop :=
  d.mark ∉ text ∧ text.count '\'' % 2 = 1

instance (d : Dialect) (text : List Char) : Decidable (Unclosed d text) := by
  unfold Unclosed; infer_instance

section Quotes

variable {d : Dialect} {a b : String}

theorem not_mem_append {c : Char} (ha : c ∉ a.toList) (hb : c ∉ b.toList) :
    c ∉ (a ++ b).toList := by
  rw [String.toList_append]
  intro h
  rcases List.mem_append.mp h with h | h
  · exact ha h
  · exact hb h

/-- Whether quotes are left open is added up over texts in a row. -/
theorem quotes_append {p q : Nat} (ha : a.toList.count '\'' % 2 = p)
    (hb : b.toList.count '\'' % 2 = q) : (a ++ b).toList.count '\'' % 2 = (p + q) % 2 := by
  rw [String.toList_append, List.count_append]
  omega

theorem Plain.append_unclosed (ha : Plain d a.toList) (hb : Unclosed d b.toList) :
    Unclosed d (a ++ b).toList :=
  ⟨not_mem_append ha.1 hb.1, quotes_append ha.2 hb.2⟩

theorem Unclosed.append_plain (ha : Unclosed d a.toList) (hb : Plain d b.toList) :
    Unclosed d (a ++ b).toList :=
  ⟨not_mem_append ha.1 hb.1, quotes_append ha.2 hb.2⟩

theorem Unclosed.append (ha : Unclosed d a.toList) (hb : Unclosed d b.toList) :
    Plain d (a ++ b).toList :=
  ⟨not_mem_append ha.1 hb.1, quotes_append ha.2 hb.2⟩

end Quotes

/-! ### Expressions -/

section Expressions

variable {d : Dialect}

theorem Plain.intercalate {separator : String} (hs : Plain d separator.toList)
    {parts : List String} (h : ∀ part ∈ parts, Plain d part.toList) :
    Plain d (String.intercalate separator parts).toList := by
  induction parts with
  | nil =>
    have hempty : Plain d "".toList := by cases d <;> decide
    simpa using hempty
  | cons first rest ih =>
    have hfirst := h first List.mem_cons_self
    have hrest := ih fun part hpart => h part (List.mem_cons_of_mem _ hpart)
    cases rest with
    | nil =>
      rw [String.intercalate_singleton]
      exact hfirst
    | cons second rest =>
      rw [String.intercalate_cons_cons]
      exact (hfirst.append_text hs).append_text hrest

namespace Fragment

variable {fragment : Fragment} {a b : String}

theorem Clean.text (h : Plain d a.toList) : Fragment.Clean d [.text a] := ⟨h, True.intro⟩

theorem Clean.between (ha : Plain d a.toList) (h : fragment.Clean d) (hb : Plain d b.toList)
    (hafter : AfterValue b.toList) : Fragment.Clean d (.text a :: (fragment ++ [.text b])) :=
  ⟨ha, h.append (Clean.text hb) hafter⟩

end Fragment

open Fragment (Clean)

theorem Dialect.clean_distance? {metric : Metric} {column : String} {value : Parameter}
    {distance : Fragment} (hcolumn : isIdentifier column = true)
    (h : d.distance? metric column (Fragment.bind value) = some distance) :
    distance.Clean d := by
  have hname : Plain d column.toList := Plain.name hcolumn
  have hclose : Plain d ")".toList := by cases d <;> decide
  have hafter : AfterValue ")".toList := AfterValue.of_head (c := ')') rfl rfl (by decide)
  have operator {sign : String} (hsign : Plain d sign.toList) :
      Fragment.Clean d
        (.text ("(" ++ column ++ " " ++ sign ++ " ") :: (Fragment.bind value ++ [.text ")"])) := by
    have hopen : Plain d "(".toList := by cases d <;> decide
    have hblank : Plain d " ".toList := by cases d <;> decide
    exact Clean.between ((((hopen.append_text hname).append_text hblank).append_text
      hsign).append_text hblank) (Clean.bind value) hclose hafter
  have call {function : String} (hfunction : Plain d function.toList) :
      Fragment.Clean d
        (.text (function ++ "(" ++ column ++ ", ") :: (Fragment.bind value ++ [.text ")"])) := by
    have hopen : Plain d "(".toList := by cases d <;> decide
    have hcomma : Plain d ", ".toList := by cases d <;> decide
    exact Clean.between (((hfunction.append_text hopen).append_text hname).append_text hcomma)
      (Clean.bind value) hclose hafter
  cases d with
  | lite =>
    cases metric with
    | innerProduct => cases h
    | _ =>
      injection h with h
      subst h
      exact call (by decide)
  | postgres =>
    cases metric with
    | _ =>
      injection h with h
      subst h
      exact operator (by decide)

variable {field config : String}

theorem Dialect.clean_textMatch (hfield : isIdentifier field = true)
    (hconfig : isIdentifier config = true) (value : Parameter) :
    (d.textMatch field (Fragment.bind value) config).Clean d := by
  have hname : Plain d field.toList := Plain.name hfield
  have hkind : Plain d config.toList := Plain.name hconfig
  cases d with
  | lite =>
    have hopen : Plain .lite "LOWER(COALESCE(".toList := by decide
    have hmiddle : Plain .lite ", '')) LIKE ".toList := by decide
    have hclose : Plain .lite " ESCAPE '\\'".toList := by decide
    exact Clean.between ((hopen.append_text hname).append_text hmiddle) (Clean.bind value) hclose
      (AfterValue.of_head (c := ' ') rfl rfl (by decide))
  | postgres =>
    have hopen : Unclosed .postgres "to_tsvector('".toList := by decide
    have hmiddle : Unclosed .postgres "', COALESCE(".toList := by decide
    have hquery : Unclosed .postgres "::text, '')) @@ plainto_tsquery('".toList := by decide
    have hcomma : Unclosed .postgres "', ".toList := by decide
    have hclose : Plain .postgres ")".toList := by decide
    have hvector := ((hopen.append_plain hkind).append hmiddle).append_text hname
    exact Clean.between (((hvector.append_unclosed hquery).append_plain hkind).append hcomma)
      (Clean.bind value) hclose (AfterValue.of_head (c := ')') rfl rfl (by decide))

theorem Dialect.clean_textRank (hfield : isIdentifier field = true)
    (hconfig : isIdentifier config = true) (value : Parameter) :
    (d.textRank field (Fragment.bind value) config).Clean d := by
  have hname : Plain d field.toList := Plain.name hfield
  have hkind : Plain d config.toList := Plain.name hconfig
  cases d with
  | lite =>
    have hopen : Plain .lite "CASE WHEN ".toList := by decide
    have hclose : Plain .lite " THEN 1.0 ELSE 0.0 END".toList := by decide
    exact Clean.between hopen (Dialect.clean_textMatch hfield hconfig value) hclose
      (AfterValue.of_head (c := ' ') rfl rfl (by decide))
  | postgres =>
    have hopen : Unclosed .postgres "ts_rank(to_tsvector('".toList := by decide
    have hmiddle : Unclosed .postgres "', COALESCE(".toList := by decide
    have hquery : Unclosed .postgres "::text, '')), plainto_tsquery('".toList := by decide
    have hcomma : Unclosed .postgres "', ".toList := by decide
    have hclose : Plain .postgres "))".toList := by decide
    have hvector := ((hopen.append_plain hkind).append hmiddle).append_text hname
    exact Clean.between (((hvector.append_unclosed hquery).append_plain hkind).append hcomma)
      (Clean.bind value) hclose (AfterValue.of_head (c := ')') rfl rfl (by decide))

theorem Dialect.clean_greatest {several : List Fragment} (h : ∀ part ∈ several, part.Clean d) :
    (d.greatest several).Clean d := by
  have hcomma : Plain d ", ".toList := by cases d <;> decide
  have hclose : Plain d ")".toList := by cases d <;> decide
  have hjoined : (Fragment.join ", " several).Clean d :=
    Clean.join hcomma (AfterValue.of_head (c := ',') rfl rfl (by decide)) h
  rcases several with _ | ⟨first, _ | ⟨second, rest⟩⟩
  · have hzero : Plain d "0.0".toList := by cases d <;> decide
    exact Clean.text hzero
  · exact h first List.mem_cons_self
  · have hafter : AfterValue ")".toList := AfterValue.of_head (c := ')') rfl rfl (by decide)
    cases d with
    | lite =>
      have hopen : Plain .lite "MAX(".toList := by decide
      exact Clean.between hopen hjoined hclose hafter
    | postgres =>
      have hopen : Plain .postgres "GREATEST(".toList := by decide
      exact Clean.between hopen hjoined hclose hafter

end Expressions

/-! ### Searches -/

open Fragment (Clean Follows)

section Searches

variable {d : Dialect}

theorem Table.Named.plain_columnList {table : Table} (h : table.Named) :
    Plain d table.columnList.toList := by
  have hcomma : Plain d ", ".toList := by cases d <;> decide
  refine Plain.intercalate hcomma ?_
  intro column hcolumn
  refine Plain.name (h.names column ?_)
  simp [Table.names, hcolumn]

theorem Table.Named.primaryKey {table : Table} (h : table.Named) :
    isIdentifier table.primaryKey = true :=
  h.names _ (by simp [Table.names])

theorem Table.Named.embeddingColumn {table : Table} (h : table.Named) :
    isIdentifier table.embeddingColumn = true :=
  h.names _ (by simp [Table.names])

theorem Table.Named.textField {table : Table} (h : table.Named) {field : String}
    (hfield : field ∈ table.textFields) : isIdentifier field = true :=
  h.names _ (by simp [Table.names, hfield])

theorem head?_append {a b : String} {c : Char} (h : a.toList.head? = some c) :
    (a ++ b).toList.head? = some c := by
  rw [String.toList_append]
  cases hl : a.toList with
  | nil =>
    rw [hl] at h
    cases h
  | cons first rest =>
    rw [hl] at h
    exact h

theorem clean_filter {filter : Option Predicate} {word : String} (hword : Plain d word.toList) :
    (match Predicate.condition? d filter with
      | some condition => .text word :: condition.parens
      | none => [] : Fragment).Clean d := by
  split
  · rename_i condition hcondition
    exact ⟨hword, (Predicate.clean_condition? hcondition).parens⟩
  · exact True.intro

theorem follows_filter {filter : Option Predicate} {word : String}
    (hword : AfterValue word.toList) :
    (match Predicate.condition? d filter with
      | some condition => .text word :: condition.parens
      | none => [] : Fragment).Follows := by
  split
  · exact hword
  · exact True.intro

theorem NearestRows.clean {rows : NearestRows} (htable : rows.table.Named)
    (hdistance : rows.distance.Clean d) : (rows.toFragment d).Clean d := by
  have hselect : Plain d "SELECT ".toList := by cases d <;> decide
  have hcomma : Plain d ", ".toList := by cases d <;> decide
  have hfrom : Plain d " AS distance FROM ".toList := by cases d <;> decide
  have hwhere : Plain d " WHERE ".toList := by cases d <;> decide
  have hnotNull : Plain d " IS NOT NULL".toList := by cases d <;> decide
  have hand : Plain d " AND ".toList := by cases d <;> decide
  have horder : Plain d " ORDER BY distance ASC, ".toList := by cases d <;> decide
  have hlimit : Plain d " ASC LIMIT ".toList := by cases d <;> decide
  have hfirst : Clean d (.text ("SELECT " ++ rows.table.columnList ++ ", ") :: rows.distance) :=
    ⟨(hselect.append_text htable.plain_columnList).append_text hcomma, hdistance⟩
  have hsource : Clean d [.text (" AS distance FROM " ++ rows.table.name ++ " WHERE " ++
      rows.table.embeddingColumn ++ " IS NOT NULL")] :=
    Clean.text ((((hfrom.append_text (Plain.name htable.name)).append_text hwhere).append_text
      (Plain.name htable.embeddingColumn)).append_text hnotNull)
  have hlast : Clean d [.text (" ORDER BY distance ASC, " ++ rows.table.primaryKey ++
      " ASC LIMIT "), .bind (.int (Int64.ofNat rows.limit.toNat))] :=
    ⟨(horder.append_text (Plain.name htable.primaryKey)).append_text hlimit, Clean.bind _⟩
  have hfilter : (rows.furtherCondition d).Clean d := clean_filter hand
  have hafterSource : Follows [.text (" AS distance FROM " ++ rows.table.name ++ " WHERE " ++
      rows.table.embeddingColumn ++ " IS NOT NULL")] :=
    AfterValue.of_head (c := ' ') (head?_append (head?_append (head?_append (head?_append rfl))))
      rfl (by decide)
  have hafterFilter : (rows.furtherCondition d).Follows :=
    follows_filter (AfterValue.of_head (c := ' ') rfl rfl (by decide))
  have hafterLast : Follows [.text (" ORDER BY distance ASC, " ++ rows.table.primaryKey ++
      " ASC LIMIT "), .bind (.int (Int64.ofNat rows.limit.toNat))] :=
    AfterValue.of_head (c := ' ') (head?_append (head?_append rfl)) rfl (by decide)
  exact ((hfirst.append hsource hafterSource).append hfilter hafterFilter).append hlast hafterLast

namespace CandidateRows

variable {rows : CandidateRows}

/-- What a search for candidates is made of: names of its table, and a clean distance. -/
structure Named (d : Dialect) (rows : CandidateRows) : Prop where
  table : rows.table.Named
  textFields : ∀ field ∈ rows.textFields, isIdentifier field = true
  textSearchConfig : isIdentifier rows.textSearchConfig = true
  distance : ∀ distance, rows.distance = some distance → distance.Clean d

theorem Named.clean_rank (h : rows.Named d) : ((rows.rank? d).getD [.text "0.0"]).Clean d := by
  unfold rank?
  split
  · have hzero : Plain d "0.0".toList := by cases d <;> decide
    exact Clean.text hzero
  · refine Dialect.clean_greatest ?_
    intro part hpart
    obtain ⟨field, hfield, rfl⟩ := List.mem_map.mp hpart
    exact Dialect.clean_textRank (h.textFields field hfield) h.textSearchConfig _

theorem Named.clean_distance (h : rows.Named d) :
    ((rows.guardedDistance? d).getD [.text "NULL"]).Clean d := by
  unfold guardedDistance?
  cases hdistance : rows.distance with
  | none =>
    have hnull : Plain d "NULL".toList := by cases d <;> decide
    exact Clean.text hnull
  | some distance =>
    have hclean := h.distance distance hdistance
    cases d with
    | postgres => exact hclean
    | lite =>
      have hcase : Plain .lite "CASE WHEN ".toList := by decide
      have hthen : Plain .lite " IS NULL THEN NULL ELSE ".toList := by decide
      have hend : Plain .lite " END".toList := by decide
      exact Clean.between ((hcase.append_text (Plain.name h.table.embeddingColumn)).append_text
        hthen) hclean hend (AfterValue.of_head (c := ' ') rfl rfl (by decide))

theorem clean_side (htable : rows.table.Named) {condition order part : String}
    (hcondition : Plain d condition.toList) (horder : Plain d order.toList)
    (hpart : Plain d part.toList) : (rows.side condition order part).Clean d := by
  have hkey : Plain d rows.table.primaryKey.toList := Plain.name htable.primaryKey
  have hselect : Plain d "SELECT ".toList := by cases d <;> decide
  have hfrom : Plain d " FROM (SELECT ".toList := by cases d <;> decide
  have hwhere : Plain d " FROM scored WHERE ".toList := by cases d <;> decide
  have hby : Plain d " ORDER BY ".toList := by cases d <;> decide
  have hcomma : Plain d ", ".toList := by cases d <;> decide
  have hlimit : Plain d " ASC LIMIT ".toList := by cases d <;> decide
  have hclose : Plain d ") AS ".toList := by cases d <;> decide
  have hrows := (((hselect.append_text hkey).append_text hfrom).append_text hkey).append_text hwhere
  have hordered := ((hrows.append_text hcondition).append_text hby).append_text horder
  have hafter : Follows [.text (") AS " ++ part)] :=
    AfterValue.of_head (c := ')') (head?_append rfl) rfl (by decide)
  exact ⟨((hordered.append_text hcomma).append_text hkey).append_text hlimit, hafter,
    Clean.text (hclose.append_text hpart)⟩

theorem clean_sides (htable : rows.table.Named) : ∀ side ∈ rows.sides d, side.Clean d := by
  intro side hside
  unfold sides at hside
  rcases List.mem_append.mp hside with hside | hside
  · split at hside
    · rw [List.mem_singleton.mp hside]
      exact clean_side htable (by cases d <;> decide) (by cases d <;> decide)
        (by cases d <;> decide)
    · cases hside
  · split at hside
    · rw [List.mem_singleton.mp hside]
      exact clean_side htable (by cases d <;> decide) (by cases d <;> decide)
        (by cases d <;> decide)
    · cases hside

theorem Named.clean (h : rows.Named d) : (rows.toFragment d).Clean d := by
  have hkey : Plain d rows.table.primaryKey.toList := Plain.name h.table.primaryKey
  have hscored : Plain d "WITH scored AS (SELECT ".toList := by cases d <;> decide
  have hcomma : Plain d ", ".toList := by cases d <;> decide
  have hrank : Plain d " AS text_rank, ".toList := by cases d <;> decide
  have hfrom : Plain d " AS distance FROM ".toList := by cases d <;> decide
  have hwhere : Plain d " WHERE ".toList := by cases d <;> decide
  have hselect : Plain d ") SELECT * FROM scored WHERE ".toList := by cases d <;> decide
  have hin : Plain d " IN (".toList := by cases d <;> decide
  have hunion : Plain d " UNION ".toList := by cases d <;> decide
  have horder : Plain d ") ORDER BY ".toList := by cases d <;> decide
  have hasc : Plain d " ASC".toList := by cases d <;> decide
  have hranked : Clean d (.text ("WITH scored AS (SELECT " ++ rows.table.columnList ++ ", ") ::
      (rows.rank? d).getD [.text "0.0"]) :=
    ⟨(hscored.append_text h.table.plain_columnList).append_text hcomma, h.clean_rank⟩
  have hdistance : Clean d (.text " AS text_rank, " ::
      (rows.guardedDistance? d).getD [.text "NULL"]) := ⟨hrank, h.clean_distance⟩
  have hsource : Clean d (.text (" AS distance FROM " ++ rows.table.name) ::
      rows.whereClause d) :=
    ⟨hfrom.append_text (Plain.name h.table.name), clean_filter hwhere⟩
  have hsides : Clean d (.text (") SELECT * FROM scored WHERE " ++ rows.table.primaryKey ++
      " IN (") :: Fragment.join " UNION " (rows.sides d)) :=
    ⟨(hselect.append_text hkey).append_text hin,
      Clean.join hunion (AfterValue.of_head (c := ' ') rfl rfl (by decide)) (clean_sides h.table)⟩
  have hlast : Clean d [.text (") ORDER BY " ++ rows.table.primaryKey ++ " ASC")] :=
    Clean.text ((horder.append_text hkey).append_text hasc)
  have hscored' := hranked.append hdistance
    (AfterValue.of_head (c := ' ') rfl rfl (by decide))
  have hfrom' := hscored'.append hsource
    (AfterValue.of_head (c := ' ') (head?_append rfl) rfl (by decide))
  have hsides' := hfrom'.append hsides
    (AfterValue.of_head (c := ')') (head?_append (head?_append rfl)) rfl (by decide))
  exact hsides'.append hlast
    (AfterValue.of_head (c := ')') (head?_append (head?_append rfl)) rfl (by decide))

end CandidateRows

end Searches

/-! ### Placeholders of statements -/

/-- A query whose placeholders are numbered in the order of its text, or are positions, and
    stand for its parameters one after another. -/
structure Query.WellFormed (d : Dialect) (query : Query) : Prop where
  ordinals : places (lex d query.sql.toList) =
    match d with
    | .lite => List.replicate query.params.length none
    | .postgres => (List.range' 1 query.params.length).map some
  standFor : standFor query.params 0 (places (lex d query.sql.toList)) = query.params.map some

theorem Fragment.Clean.wellFormed {d : Dialect} {fragment : Fragment} (h : fragment.Clean d) :
    (fragment.toQuery d).WellFormed d := by
  have hplaces : places (lex d (fragment.toQuery d).sql.toList) =
      d.ordinals 0 (fragment.toQuery d).params.length := (h.spells 0).2
  constructor
  · rw [hplaces]
    cases d with
    | lite => exact Dialect.ordinals_lite _ _
    | postgres => exact Dialect.ordinals_postgres _ _
  · have hstand := standFor_ordinals d [] fragment.params []
    rw [List.nil_append, List.append_nil] at hstand
    rw [hplaces]
    exact hstand

/-! ### Sides of candidates -/

/-- The texts of fragments that are written one after another. -/
theorem Fragment.render_join (d : Dialect) (separator : String) (parts : List Fragment) (n : Nat) :
    ∃ texts, (Fragment.join separator parts).render d n = String.intercalate separator texts ∧
      texts.length = parts.length ∧
      ∀ text ∈ texts, ∃ part ∈ parts, ∃ k, text = part.render d k := by
  induction parts generalizing n with
  | nil => exact ⟨[], by simp [join, render], rfl, by simp⟩
  | cons first rest ih =>
    cases rest with
    | nil =>
      refine ⟨[first.render d n], by rw [String.intercalate_singleton]; rfl, rfl, ?_⟩
      intro text htext
      exact ⟨first, List.mem_cons_self, n, List.mem_singleton.mp htext⟩
    | cons second rest =>
      obtain ⟨texts, htexts, hlength, hall⟩ := ih (n + first.params.length)
      refine ⟨first.render d n :: texts, ?_, by simp [hlength], ?_⟩
      · have hrender : (Fragment.join separator (first :: second :: rest)).render d n =
            first.render d n ++ (separator ++
              (Fragment.join separator (second :: rest)).render d (n + first.params.length)) := by
          rw [Fragment.join, render_append, render]
          exact List.cons_ne_nil _ _
        rw [hrender, htexts]
        rcases texts with _ | ⟨text, texts⟩
        · cases hlength
        · rw [String.intercalate_cons_cons, String.append_assoc]
      · intro text htext
        rcases List.mem_cons.mp htext with rfl | htext
        · exact ⟨first, List.mem_cons_self, n, rfl⟩
        · obtain ⟨part, hpart, hrender⟩ := hall text htext
          exact ⟨part, List.mem_cons_of_mem _ hpart, hrender⟩

/-- Whether the rows of a search for candidates come from some sub-select: what stands in
    the list that keys are looked up in. -/
def TableStatement.HasSides (d : Dialect) : TableStatement → Prop
  | .candidates rows =>
    ∃ (before : String) (sides : List String), sides ≠ [] ∧
      (∀ side ∈ sides, ∃ rest, side = "SELECT " ++ rows.table.primaryKey ++ " FROM (SELECT " ++
        rows.table.primaryKey ++ " FROM scored WHERE " ++ rest) ∧
      (rows.toFragment d).render d 1 =
        before ++ ") SELECT * FROM scored WHERE " ++ rows.table.primaryKey ++ " IN (" ++
          String.intercalate " UNION " sides ++ ") ORDER BY " ++ rows.table.primaryKey ++ " ASC"
  | _ => True

theorem CandidateRows.side_text (d : Dialect) (rows : CandidateRows) {side : Fragment}
    (h : side ∈ rows.sides d) (k : Nat) :
    ∃ rest, side.render d k = "SELECT " ++ rows.table.primaryKey ++ " FROM (SELECT " ++
      rows.table.primaryKey ++ " FROM scored WHERE " ++ rest := by
  have hside (condition order part : String) : ∃ rest,
      (rows.side condition order part).render d k = "SELECT " ++ rows.table.primaryKey ++
        " FROM (SELECT " ++ rows.table.primaryKey ++ " FROM scored WHERE " ++ rest := by
    simp only [CandidateRows.side, Fragment.render, String.append_assoc]
    exact ⟨_, rfl⟩
  unfold CandidateRows.sides at h
  rcases List.mem_append.mp h with h | h
  · split at h
    · rw [List.mem_singleton.mp h]
      exact hside _ _ _
    · cases h
  · split at h
    · rw [List.mem_singleton.mp h]
      exact hside _ _ _
    · cases h

theorem CandidateRows.hasSides {d : Dialect} {rows : CandidateRows} (h : rows.sides d ≠ []) :
    (TableStatement.candidates rows).HasSides d := by
  let key := rows.table.primaryKey
  let source : Fragment := .text ("WITH scored AS (SELECT " ++ rows.table.columnList ++ ", ") ::
    (rows.rank? d).getD [.text "0.0"] ++ .text " AS text_rank, " ::
    (rows.guardedDistance? d).getD [.text "NULL"] ++
    .text (" AS distance FROM " ++ rows.table.name) :: rows.whereClause d
  have hsplit : rows.toFragment d = source ++
      (.text (") SELECT * FROM scored WHERE " ++ key ++ " IN (") ::
        Fragment.join " UNION " (rows.sides d)) ++ [.text (") ORDER BY " ++ key ++ " ASC")] := rfl
  obtain ⟨texts, htexts, hlength, hall⟩ :=
    Fragment.render_join d " UNION " (rows.sides d) (1 + source.params.length)
  refine ⟨source.render d 1, texts, ?_, ?_, ?_⟩
  · rintro rfl
    exact h (List.length_eq_zero_iff.mp hlength.symm)
  · intro text htext
    obtain ⟨side, hside, k, rfl⟩ := hall text htext
    exact rows.side_text d hside k
  · simp only [hsplit, Fragment.render_append, Fragment.render, htexts, String.append_assoc,
      String.append_empty]
    rfl

/-! ### Statements of an accepted configuration -/

/-- What is promised of every statement. -/
def TableStatement.Sound (d : Dialect) (statement : TableStatement) : Prop :=
  (statement.toQuery d).WellFormed d ∧ statement.HasSides d

namespace Service

variable {s : Service}

theorem named_of_table (h : s.config.Named) {name : String} {table : Table}
    (htable : s.catalog.table name = .ok table) : table.Named :=
  h.tables table (Catalog.table_eq_ok htable).1

theorem clean_distance {table : Table} (h : table.Named) {embedding : Embedding}
    {distance : Fragment} (hdistance : s.distance table embedding = .ok distance) :
    distance.Clean s.dialect := by
  unfold Service.distance at hdistance
  dsimp only at hdistance
  split at hdistance
  · rename_i found hfound
    injection hdistance with hdistance
    subst hdistance
    exact Dialect.clean_distance? h.embeddingColumn hfound
  · cases hdistance

theorem nearest_sound (h : s.config.Named) {r : VectorSearchRequest} {p : PreparedVector}
    (hp : s.prepareVector r = .ok p) {statement : TableStatement}
    (hstatement : s.nearest p r.filter = .ok statement) : statement.Sound s.dialect := by
  have htable := named_of_table h (prepareVector_table hp)
  obtain ⟨filter, distance, -, hdistance, rfl⟩ := nearest_eq_ok hstatement
  exact ⟨(NearestRows.clean htable (clean_distance htable hdistance)).wellFormed, True.intro⟩

theorem mapM_distance {table : Table} {embedding : Option Embedding}
    {distance : Option Fragment} (h : embedding.mapM (s.distance table) = .ok distance) :
    distance.isSome = embedding.isSome ∧
      ∀ found, distance = some found → ∃ e, s.distance table e = .ok found := by
  cases embedding with
  | none =>
    cases h
    exact ⟨rfl, fun _ h => nomatch h⟩
  | some e =>
    change s.distance table e >>= (fun found => .ok (some found)) = .ok distance at h
    obtain ⟨found, hfound, h⟩ := bind_eq_ok h
    injection h with h
    subst h
    refine ⟨rfl, ?_⟩
    intro found' heq
    injection heq with heq
    subst heq
    exact ⟨e, hfound⟩

theorem candidates_sound (h : s.config.Named) {tableName query : String}
    {embedding : Option Json} {textFields : Option (List String)} {filter : Option Json}
    {p : PreparedHybrid}
    (hp : s.prepareHybrid tableName query embedding textFields filter = .ok p)
    {statement : TableStatement} (hstatement : s.candidates p = .ok statement) :
    statement.Sound s.dialect := by
  have hmade := prepareHybrid_eq_ok hp
  have htable := named_of_table h hmade.table
  have hfields : ∀ field ∈ p.textFields, isIdentifier field = true := fun field hfield =>
    htable.textField (chooseTextFields_subset hmade.textFields field hfield)
  obtain ⟨distance, hdistance, rfl⟩ := candidates_eq_ok hstatement
  obtain ⟨hsome, hclean⟩ := mapM_distance hdistance
  constructor
  · refine (CandidateRows.Named.clean ⟨htable, hfields, h.textSearchConfig, ?_⟩).wellFormed
    intro found hfound
    obtain ⟨e, he⟩ := hclean found hfound
    exact clean_distance htable he
  · refine CandidateRows.hasSides ?_
    rcases hmade.searches with hembedding | htext
    · have hguarded : distance.isSome = true := hsome.trans hembedding
      simp [CandidateRows.sides, CandidateRows.guardedDistance?, hguarded]
    · simp [CandidateRows.sides, CandidateRows.rank?, htext]

end Service

/-- **Every statement of a search is well formed.**  Take a configuration that is accepted,
    and a database of either dialect.  Whatever is asked of a vector search, a hybrid search
    or a calibration, and whatever the database and the cache answer, the placeholders of
    every statement that is sent stand for its parameters one after another, and a search
    for candidates has at least one sub-select to take them from. -/
theorem Service.statements_wellFormed {text : String} {config : Config}
    (h : Config.ofString text = .ok config) (d : Dialect) :
    (∀ r, (Service.vectorSearch ⟨config, d⟩ r).Ensures (TableStatement.Sound d) fun _ => True) ∧
    (∀ r, (Service.hybridSearch ⟨config, d⟩ r).Ensures (TableStatement.Sound d) fun _ => True) ∧
    ∀ table samples grid k, (Service.calibrate ⟨config, d⟩ table samples grid k).Ensures
      (TableStatement.Sound d) fun _ => True := by
  have hnamed := Config.named_of_ofString h
  refine ⟨?_, ?_, ?_⟩
  · intro r
    apply vectorSearch_ensures
    intro p hp statement hstatement
    exact nearest_sound (s := ⟨config, d⟩) hnamed hp hstatement
  · intro r
    apply hybridSearch_ensures
    intro p hp statement hstatement
    exact candidates_sound (s := ⟨config, d⟩) hnamed hp hstatement
  · intro table samples grid k
    apply calibrate_ensures
    intro sample _ p hp statement hstatement
    exact candidates_sound (s := ⟨config, d⟩) hnamed hp hstatement

/-- A table of notes with one text field. -/
theorem Service.statements_wellFormed_notes :
    ∃ config, Config.ofString
        ("service = ['info']\nstorage = ['lite', 'kb.db', 1]\n" ++
          "tables = [['notes', 'id', ['id', 'title'], 'vec', 2, ['title']]]\n" ++
          "[search]\nmax_limit = 10\nhybrid = [0, 1]\n") = .ok config ∧
      ∀ r, (Service.hybridSearch ⟨config, .lite⟩ r).Ensures (TableStatement.Sound .lite)
        fun _ => True := by
  have accepted {text : String} (h : (Config.ofString text).toBool = true) :
      ∃ config, Config.ofString text = .ok config ∧
        ∀ r, (Service.hybridSearch ⟨config, .lite⟩ r).Ensures (TableStatement.Sound .lite)
          fun _ => True := by
    cases hread : Config.ofString text with
    | error e =>
      rw [hread] at h
      cases h
    | ok config => exact ⟨config, rfl, (statements_wellFormed hread .lite).2.1⟩
  exact accepted (by decide +kernel)

end KnowledgeSearch
