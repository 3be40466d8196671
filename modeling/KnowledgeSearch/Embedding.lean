/-
  KnowledgeSearch/Embedding.lean
  ==============================
  **Embedding vectors.**

  An embedding is a non-empty list of finite single precision numbers.  It may be
  given as a JSON array of numbers, as a text that is such an array, or as numbers
  separated by commas with optional brackets around them; `Embedding.ofJson` reads
  all three.  `Embedding.toText` is the text in which an embedding is bound to a
  statement and `Embedding.toJson` the array in which it is reported; both read back
  as the same embedding.
-/
import KnowledgeSearch.Json.Parser
import KnowledgeSearch.Json.Printer
import KnowledgeSearch.Text.Blank
import KnowledgeSearch.Text.Identifier

namespace KnowledgeSearch

/-- A non-empty list of finite components. -/
structure Embedding where
  components : List Single
  nonempty : components ≠ []
  finite : ∀ x ∈ components, x.isFinite = true
deriving DecidableEq

/-- Why a value is not an embedding. -/
inductive EmbeddingError where
  | missing
  | boolean
  | scalarNumber
  | object
  | noComponents
  | blankText
  | notANumber (position : Nat) (item : Json)
  | notANumberText (token : String) (input : String)
  | notFinite (position : Nat)
  | wrongDimension (expected : Nat) (actual : Nat)

namespace EmbeddingError

/-- The wording of the cause. -/
def message : EmbeddingError → String
  | .missing => "embedding is missing."
  | .boolean => "boolean is not an embedding."
  | .scalarNumber => "scalar number is not an embedding."
  | .object => "object is not an embedding."
  | .noComponents => "embedding has no components."
  | .blankText => "embedding text has no components."
  | .notANumber position item =>
    let text := item.compact
    s!"component {position} is not a number: {text}."
  | .notANumberText token input => s!"component '{token}' is not a number (input: '{input}')."
  | .notFinite position => s!"component {position} is not finite."
  | .wrongDimension expected actual => s!"expected {expected} dimensions, got {actual}."

def report (error : EmbeddingError) : String := "Invalid embedding format: " ++ error.message

end EmbeddingError

namespace Embedding

def dim (e : Embedding) : Nat := e.components.length

/-! ### Construction -/

/-- Accepts components that form an embedding, or names the first that does not. -/
def ofComponents (components : List Single) : Except EmbeddingError Embedding :=
  if nonempty : components ≠ [] then
    if finite : ∀ x ∈ components, x.isFinite = true then .ok ⟨components, nonempty, finite⟩
    else .error (.notFinite (components.findIdx fun x => !x.isFinite))
  else .error .noComponents

def readItems : Nat → List Json → Except EmbeddingError (List Single)
  | _, [] => .ok []
  | position, item :: items =>
    match item.toNumber? with
    | none => .error (.notANumber position item)
    | some n => do
      let rest ← readItems (position + 1) items
      pure (n.toDouble.toSingle :: rest)

/-- Reads an array of numbers. -/
def ofItems (items : List Json) : Except EmbeddingError Embedding := do
  ofComponents (← readItems 0 items)

/-- Reads numbers between commas. -/
def readTokens (input : String) : List (List Char) → Except EmbeddingError (List Single)
  | [] => .ok []
  | token :: tokens =>
    let token := Text.trimChars token
    match Binary.ofChars? .binary32 token with
    | none => .error (.notANumberText (String.ofList token) input)
    | some x => do
      let rest ← readTokens input tokens
      pure (x :: rest)

/-- Removes one opening bracket at the front and one closing bracket at the end. -/
def dropBrackets (text : List Char) : List Char :=
  let opened := match text with
    | '[' :: rest => rest
    | rest => rest
  if opened.getLast? == some ']' then opened.dropLast else opened

/-- Reads a text that is not a JSON array: numbers between commas, with optional
    brackets around them. -/
def ofTokens (text : String) : Except EmbeddingError Embedding := do
  let inner := dropBrackets (Text.trimChars text.toList)
  if inner.all Text.isBlank then throw .blankText
  else ofComponents (← readTokens text (Text.splitAt ',' inner))

/-- Reads a text: a JSON array first, numbers between commas otherwise. -/
def ofText (text : String) : Except EmbeddingError Embedding :=
  match Json.ofString? text with
  | some (.array items) => ofItems items
  | _ => ofTokens text

/-- Reads an embedding in any of its forms. -/
def ofJson : Json → Except EmbeddingError Embedding
  | .null => .error .missing
  | .bool _ => .error .boolean
  | .number _ => .error .scalarNumber
  | .object _ => .error .object
  | .array items => ofItems items
  | .string text => ofText text

/-- Accepts an embedding of the wanted dimension only. -/
def ensureDim (e : Embedding) (expected : Nat) : Except EmbeddingError Embedding :=
  if e.dim = expected then .ok e else .error (.wrongDimension expected e.dim)

/-! ### Output -/

/-- The text that is bound to a statement. -/
def toText (e : Embedding) : String :=
  "[" ++ String.intercalate "," (e.components.map plainStyle.format) ++ "]"

def toJson (e : Embedding) : Json := .array (e.components.map Json.ofSingle)

end Embedding

end KnowledgeSearch
