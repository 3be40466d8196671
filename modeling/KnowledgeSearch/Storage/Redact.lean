/-
  KnowledgeSearch/Storage/Redact.lean
  ===================================
  **Masking secrets in messages.**

  Two kinds of secrets are masked.  In a connection text `scheme://user:password@`
  the password is replaced, and after a keyword such as `password` or `token`, at a
  word boundary and followed by a colon or an equals sign, the value up to the next
  white space is replaced.  Texts are scanned from left to right, the first kind
  before the second, and what has been replaced is not looked at again by the same
  scan.  Letters are compared without case.
-/
import KnowledgeSearch.Sql.Fragment
import KnowledgeSearch.Text.Word

namespace KnowledgeSearch.Redact

/-! ### Scanning -/

/-- A place where something is masked: the text that takes its place and the number
    of characters that it replaces. -/
structure Masked where
  replacement : List Char
  length : Nat

/-- Replaces what a recogniser finds.  The recogniser is told the character before
    the place that it looks at; `skip` characters are passed over first. -/
def replaceFrom (recognise : Option Char → List Char → Option Masked) :
    Option Char → Nat → List Char → List Char
  | _, _, [] => []
  | _, skip + 1, c :: rest => replaceFrom recognise (some c) skip rest
  | before, 0, c :: rest =>
    match recognise before (c :: rest) with
    | some masked =>
      masked.replacement ++ replaceFrom recognise (some c) (masked.length - 1) rest
    | none => c :: replaceFrom recognise (some c) 0 rest

/-- What stands for a secret. -/
def mask : List Char := ['*', '*', '*']

/-! ### Connection texts -/

/-- Whether a character may begin the scheme of a connection text. -/
def isSchemeStart (c : Char) : Bool := 'a' ≤ Text.foldChar c && Text.foldChar c ≤ 'z'

/-- Whether a character may stand in the scheme of a connection text. -/
def isSchemePart (c : Char) : Bool :=
  isSchemeStart c || c.isDigit || c = '+' || c = '.' || c = '-'

/-- Whether a character may stand in the user of a connection text. -/
def isUserPart (c : Char) : Bool := c != ':' && c != '/' && c != '@' && !Text.isBlank c

/-- Whether a character may stand in the password of a connection text. -/
def isPasswordPart (c : Char) : Bool := c != '@' && !Text.isBlank c

def findPassword? (_ : Option Char) (text : List Char) : Option Masked :=
  match text with
  | [] => none
  | c :: _ =>
    if !isSchemeStart c then none
    else
      let scheme := text.takeWhile isSchemePart
      match text.dropWhile isSchemePart with
      | ':' :: '/' :: '/' :: rest =>
        let user := rest.takeWhile isUserPart
        match rest.dropWhile isUserPart with
        | ':' :: rest =>
          let password := rest.takeWhile isPasswordPart
          match rest.dropWhile isPasswordPart with
          | '@' :: _ =>
            if user.isEmpty || password.isEmpty then none
            else
              let kept := scheme ++ [':', '/', '/'] ++ user ++ [':']
              some ⟨kept ++ mask ++ ['@'], kept.length + password.length + 1⟩
          | _ => none
        | _ => none
      | _ => none

/-! ### Secrets by keyword -/

def keywords : List (List Char) :=
  ["password", "passwd", "pwd", "secret", "token", "api_key", "api-key", "apikey"].map
    String.toList

/-- The length of the keyword that a text begins with. -/
def keywordLength? (text : List Char) : Option Nat :=
  (keywords.find? fun word => (text.take word.length).map Text.foldChar == word).map List.length

/-- Recognises a keyword with its sign and a value. -/
def findSecret? (before : Option Char) (text : List Char) : Option Masked :=
  if (before.map Text.isWord).getD false then none
  else
    match keywordLength? text with
    | none => none
    | some length =>
      let afterWord := text.drop length
      let blanks := afterWord.takeWhile Text.isBlank
      match afterWord.dropWhile Text.isBlank with
      | [] => none
      | sign :: rest =>
        if sign ≠ ':' ∧ sign ≠ '=' then none
        else
          let more := rest.takeWhile Text.isBlank
          let value := (rest.dropWhile Text.isBlank).takeWhile fun c => !Text.isBlank c
          if value.isEmpty then none
          else
            let kept := text.take length ++ blanks ++ sign :: more
            some ⟨kept ++ mask, kept.length + value.length⟩

/-! ### Messages and parameters -/

def scrubChars (text : List Char) : List Char :=
  replaceFrom findSecret? none 0 (replaceFrom findPassword? none 0 text)

def scrub (text : String) : String := String.ofList (scrubChars text.toList)

def maxRenderedChars : Nat := 128

/-- Cuts a long text and tells how much is missing. -/
def truncate (text : String) : String :=
  let chars := text.toList
  if chars.length ≤ maxRenderedChars then text
  else
    let missing := chars.length - maxRenderedChars
    String.ofList (chars.take maxRenderedChars) ++ s!"...(+{missing} chars)"

/-- A parameter as it is shown in reports. -/
def renderParameter : Parameter → String
  | .null => "NULL"
  | .bool true => "true"
  | .bool false => "false"
  | .int n => toString n.toInt
  | .float x => plainStyle.format x
  | .text s => truncate (scrub s)
  | .json v => truncate (scrub v.compact)
  | .vector e =>
    let dim := e.dim
    s!"<vector dim={dim}>"

end KnowledgeSearch.Redact
