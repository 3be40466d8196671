/-
  KnowledgeSearch/Proofs/Sql/Spelling.lean
  ========================================
  **Fragments and their tokens.**

  The tokens of a query are those of its text, each placeholder with the value that it
  stands for.  A fragment spells tokens if its text is read as them, wherever its
  placeholders begin to be numbered, and its values are theirs in order; then they are
  its tokens as a query (`Spelled.tokens_eq`).  What a fragment spells follows from what
  its parts spell, if they meet apart.
-/
import KnowledgeSearch.Proofs.Sql.Placeholder
import KnowledgeSearch.Proofs.Sql.Reading

namespace KnowledgeSearch

open Text (isIdentifierPart)

/-! ### The tokens of a query -/

/-- A token with the value that a placeholder stands for, if it stands for one. -/
abbrev BoundToken := Token (Option Parameter)

/-- Tokens with the values of their placeholders, the first of which comes after `k`
    others. -/
def resolve (params : List Parameter) : Nat → List WrittenToken → List BoundToken
  | _, [] => []
  | k, .place ordinal :: tokens =>
    .place (parameter? params k ordinal) :: resolve params (k + 1) tokens
  | k, .word letters :: tokens => .word letters :: resolve params k tokens
  | k, .quoted text :: tokens => .quoted text :: resolve params k tokens
  | k, .sign c :: tokens => .sign c :: resolve params k tokens

namespace Query

def tokens (d : Dialect) (query : Query) : List BoundToken :=
  resolve query.params 0 (lex d query.sql.toList)

/-- The condition that a query is, read back from its text. -/
def condition? (d : Dialect) (query : Query) : Option (Condition (Option Parameter)) :=
  Condition.ofTokens? (query.tokens d)

end Query

/-- Tokens as they are written, the first placeholder coming after `k` others. -/
def number (d : Dialect) : Nat → List BoundToken → List WrittenToken
  | _, [] => []
  | k, .place _ :: tokens => .place (d.ordinal k) :: number d (k + 1) tokens
  | k, .word letters :: tokens => .word letters :: number d k tokens
  | k, .quoted text :: tokens => .quoted text :: number d k tokens
  | k, .sign c :: tokens => .sign c :: number d k tokens

theorem number_append (d : Dialect) (k : Nat) (a b : List BoundToken) :
    number d k (a ++ b) = number d k a ++ number d (k + (places a).length) b := by
  induction a generalizing k with
  | nil => rfl
  | cons token a ih =>
    cases token with
    | place value => simp [number, places, ih, Nat.add_assoc, Nat.add_comm 1]
    | _ => simp [number, places, ih]

/-- Numbering placeholders loses nothing: each stands for the value that it did. -/
theorem resolve_number (d : Dialect) (before values : List Parameter) (tokens : List BoundToken)
    (h : places tokens = values.map some) :
    resolve (before ++ values) before.length (number d before.length tokens) = tokens := by
  induction tokens generalizing before values with
  | nil => rfl
  | cons token tokens ih =>
    cases token with
    | place value =>
      cases values with
      | nil => cases h
      | cons first values =>
        injection h with hfirst hrest
        subst hfirst
        have hhead : (before ++ first :: values)[before.length]? = some first := by simp
        have htail := ih (before ++ [first]) values hrest
        simp only [List.append_assoc, List.cons_append, List.nil_append, List.length_append,
          List.length_singleton] at htail
        simp only [number, resolve, parameter?_ordinal, hhead, htail]
    | word letters => simp only [number, resolve, ih before values h]
    | quoted text => simp only [number, resolve, ih before values h]
    | sign c => simp only [number, resolve, ih before values h]

/-- What is left of tokens that begin with some others, none of which is a placeholder. -/
def dropTokens? : List BoundToken → List BoundToken → Option (List BoundToken)
  | [], tokens => some tokens
  | .word letters :: more, .word found :: tokens =>
    if letters = found then dropTokens? more tokens else none
  | .quoted text :: more, .quoted found :: tokens =>
    if text = found then dropTokens? more tokens else none
  | .sign c :: more, .sign found :: tokens => if c = found then dropTokens? more tokens else none
  | _, _ => none

theorem dropTokens?_append {front : List BoundToken} (hplaces : places front = [])
    (rest : List BoundToken) : dropTokens? front (front ++ rest) = some rest := by
  induction front with
  | nil => rfl
  | cons token front ih =>
    cases token with
    | place value => cases hplaces
    | word letters => exact (if_pos rfl).trans (ih hplaces)
    | quoted text => exact (if_pos rfl).trans (ih hplaces)
    | sign c => exact (if_pos rfl).trans (ih hplaces)

/-! ### Fragments and their tokens -/

namespace Fragment

/-- A fragment whose text is read as some tokens, from any ordinal on. -/
structure Spelled (d : Dialect) (fragment : Fragment) (tokens : List BoundToken) : Prop where
  places : places tokens = fragment.params.map some
  reads : ∀ k, Spells d (fragment.render d (k + 1)).toList (number d k tokens)

/-- A fragment whose text is read as some tokens that are over at its end. -/
structure Completed (d : Dialect) (fragment : Fragment) (tokens : List BoundToken) : Prop where
  places : places tokens = fragment.params.map some
  reads : ∀ k, Completes d (fragment.render d (k + 1)).toList (number d k tokens)

/-- The tokens of a fragment as a statement of its own. -/
def tokens (d : Dialect) (fragment : Fragment) : List BoundToken :=
  (fragment.toQuery d).tokens d

section Spelled

variable {d : Dialect} {a b : Fragment} {s t : List BoundToken}

theorem Spelled.tokens_eq (h : Spelled d a s) : a.tokens d = s := by
  have hlex : lex d (a.render d (0 + 1)).toList = number d 0 s := (h.reads 0).2
  have hresolve := resolve_number d [] a.params s h.places
  simp only [List.nil_append, List.length_nil] at hresolve
  rw [← hresolve, ← hlex]
  rfl

theorem length_places (h : KnowledgeSearch.places s = a.params.map some) :
    (KnowledgeSearch.places s).length = a.params.length := by
  rw [h, List.length_map]

theorem places_both (ha : KnowledgeSearch.places s = a.params.map some)
    (hb : KnowledgeSearch.places t = b.params.map some) :
    KnowledgeSearch.places (s ++ t) = (a ++ b).params.map some := by
  rw [places_append, ha, hb, params_append, List.map_append]

/-- The second of two fragments is numbered on from the first, and so are its tokens. -/
theorem reads_both (b : Fragment) (t : List BoundToken)
    (ha : KnowledgeSearch.places s = a.params.map some) (k : Nat) :
    (render d (k + 1) (a ++ b)).toList =
        (render d (k + 1) a).toList ++ (render d (k + a.params.length + 1) b).toList ∧
      number d k (s ++ t) = number d k s ++ number d (k + a.params.length) t := by
  constructor
  · rw [render_append, String.toList_append, Nat.add_right_comm]
  · rw [number_append, length_places ha]

theorem Completed.spelled (h : Completed d a s) : Spelled d a s :=
  ⟨h.places, fun k => (h.reads k).spells⟩

/-- A fragment that goes on with no word and no number before it. -/
def Separate (d : Dialect) (fragment : Fragment) : Prop :=
  ∀ k, Apart (fragment.render d k).toList ∧ (fragment.render d k).toList ≠ []

/-- Where a fragment ends apart from the next, one is read after the other. -/
theorem Spelled.append (ha : Spelled d a s) (hb : Spelled d b t) (hab : Separate d b) :
    Spelled d (a ++ b) (s ++ t) := by
  refine ⟨places_both ha.places hb.places, ?_⟩
  intro k
  obtain ⟨htext, htokens⟩ := reads_both b t ha.places k
  rw [htext, htokens]
  exact (ha.reads k).append (hb.reads _) (hab _).1

theorem Completed.append_spelled (ha : Completed d a s) (hb : Spelled d b t) :
    Spelled d (a ++ b) (s ++ t) := by
  refine ⟨places_both ha.places hb.places, ?_⟩
  intro k
  obtain ⟨htext, htokens⟩ := reads_both b t ha.places k
  rw [htext, htokens]
  exact (ha.reads k).append_spells (hb.reads _)

theorem Spelled.append_completed (ha : Spelled d a s) (hb : Completed d b t)
    (hab : Separate d b) : Completed d (a ++ b) (s ++ t) := by
  refine ⟨places_both ha.places hb.places, ?_⟩
  intro k
  obtain ⟨htext, htokens⟩ := reads_both b t ha.places k
  rw [htext, htokens]
  exact (ha.reads k).append_completes (hb.reads _) (hab _).1 (hab _).2

theorem Completed.append (ha : Completed d a s) (hb : Completed d b t) :
    Completed d (a ++ b) (s ++ t) := by
  refine ⟨places_both ha.places hb.places, ?_⟩
  intro k
  obtain ⟨htext, htokens⟩ := reads_both b t ha.places k
  rw [htext, htokens]
  exact Completes.append (ha.reads k) (hb.reads _)

/-- Two texts in a row are as good as one. -/
theorem render_merge (n : Nat) (a b : String) (rest : Fragment) :
    render d n (.text (a ++ b) :: rest) = render d n (.text a :: .text b :: rest) := by
  simp only [render, String.append_assoc]

theorem Spelled.merge {a b : String} {rest : Fragment}
    (h : Spelled d (.text a :: .text b :: rest) s) : Spelled d (.text (a ++ b) :: rest) s := by
  refine ⟨h.places, ?_⟩
  intro k
  rw [render_merge]
  exact h.reads k

theorem Completed.merge {a b : String} {rest : Fragment}
    (h : Completed d (.text a :: .text b :: rest) s) :
    Completed d (.text (a ++ b) :: rest) s := by
  refine ⟨h.places, ?_⟩
  intro k
  rw [render_merge]
  exact h.reads k

theorem Separate.of_head {text : String} {rest : Fragment} {c : Char}
    (h : text.toList.head? = some c) (hc : isIdentifierPart c = false) :
    Separate d (.text text :: rest) := by
  intro k
  rw [render, String.toList_append]
  rcases hl : text.toList with _ | ⟨first, more⟩
  · rw [hl] at h
    cases h
  · rw [hl] at h
    injection h with h
    subst h
    exact ⟨hc, List.cons_ne_nil _ _⟩

end Spelled

end Fragment

theorem number_of_places {d : Dialect} {tokens : List BoundToken} (h : places tokens = [])
    (k : Nat) : number d k tokens = number d 0 tokens := by
  induction tokens with
  | nil => rfl
  | cons token tokens ih =>
    cases token with
    | place value => cases h
    | _ => simp only [number, ih h]

namespace Fragment

variable {d : Dialect} {t : String} {s : List BoundToken}

theorem Spelled.text (hplaces : KnowledgeSearch.places s = [])
    (h : Spells d t.toList (number d 0 s)) : Spelled d [.text t] s := by
  refine ⟨hplaces, ?_⟩
  intro k
  simpa [render, number_of_places hplaces] using h

theorem Completed.text (hplaces : KnowledgeSearch.places s = [])
    (h : Completes d t.toList (number d 0 s)) : Completed d [.text t] s := by
  refine ⟨hplaces, ?_⟩
  intro k
  simpa [render, number_of_places hplaces] using h

def valueTokens (d : Dialect) (value : Parameter) : List BoundToken :=
  .place (some value) :: value.castTokens d

theorem Spelled.bind (value : Parameter) :
    Spelled d (Fragment.bind value) (valueTokens d value) := by
  have hcast : ∀ k, number d k (value.castTokens d) = value.castTokens d := by
    intro k
    cases d <;> cases value <;> rfl
  constructor
  · simp [valueTokens, KnowledgeSearch.places, Parameter.places_castTokens, Fragment.bind, params]
  · intro k
    simpa [Fragment.bind, render, valueTokens, number, hcast] using Spells.placeholder d k value

theorem goesOn_valueTokens (d : Dialect) (value : Parameter) :
    ∀ token ∈ valueTokens d value, token.goesOn = true := by
  have h : (valueTokens d value).all Token.goesOn = true := by cases d <;> cases value <;> rfl
  exact List.all_eq_true.mp h

/-- A fragment in brackets behind what the text `name` spells. -/
theorem Spelled.inBrackets {name : String} {fragment : Fragment} {before tokens : List BoundToken}
    (hname : Completed d [.text name] (before ++ [.sign '('])) (h : Spelled d fragment tokens) :
    Completed d (.text name :: (fragment ++ [.text ")"])) (before ++ bracket tokens) := by
  have hclose : Completed d [.text ")"] [.sign ')'] := by
    cases d <;> exact Completed.text rfl rfl
  have hread := hname.append (h.append_completed hclose (Separate.of_head (c := ')') rfl rfl))
  have htokens : before ++ [.sign '('] ++ (tokens ++ [.sign ')']) = before ++ bracket tokens := by
    simp [bracket]
  rw [htokens] at hread
  exact hread

end Fragment

end KnowledgeSearch
