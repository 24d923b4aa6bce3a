import VhdlFrontEnd.Text.Charset

/-!
# Basic identifiers

A basic identifier starts with a letter, goes on with letters, digits and underscores, and has
its underscores single and not at the end. Main statement: a word that is not empty has no
problem exactly if it is a valid identifier.
-/

namespace VhdlFrontEnd.Text

/-- Why a word is no basic identifier. -/
inductive IdentifierProblem
  | leadingUnderscore
  | noLetterInFront
  | doubledUnderscore
  | trailingUnderscore
  | foreignCharacter
deriving DecidableEq, Repr, Inhabited

/-- The rule that the word breaks. -/
def IdentifierProblem.message : IdentifierProblem → String
  | leadingUnderscore => "identifiers cannot start with an underscore"
  | noLetterInFront => "identifiers must start with a letter"
  | doubledUnderscore => "identifiers cannot contain consecutive underscores"
  | trailingUnderscore => "identifiers cannot end with an underscore"
  | foreignCharacter => "identifiers may only contain letters, digits and underscores"

/-- The number of word characters at the front of a text. -/
def nameLength (cs : List Char) : Nat := (cs.takeWhile isWordChar).length

/-- Two underscores stand side by side. -/
def hasDoubledUnderscore (cs : List Char) : Bool := (cs.zip cs.tail).any (· == ('_', '_'))

/-- The word is a basic identifier. -/
def isIdentifier (word : List Char) : Bool :=
  word.head?.any Char.isAlpha && word.all isWordChar && !hasDoubledUnderscore word &&
    word.getLast? != some '_'

/-- The first rule for identifiers that the word breaks. The empty word has no problem of its
own. -/
def identifierProblem? (word : List Char) : Option IdentifierProblem :=
  match word with
  | [] => none
  | first :: _ =>
    if first = '_' then some .leadingUnderscore
    else if !first.isAlpha then some .noLetterInFront
    else if hasDoubledUnderscore word then some .doubledUnderscore
    else if word.getLast? = some '_' then some .trailingUnderscore
    else if !word.all isWordChar then some .foreignCharacter
    else none

theorem identifierProblem?_eq_none {word : List Char} (h : word ≠ []) :
    identifierProblem? word = none ↔ isIdentifier word := by
  cases word with
  | nil => exact absurd rfl h
  | cons first rest =>
    unfold identifierProblem? isIdentifier
    by_cases h1 : first = '_'
    · subst h1
      simp [show Char.isAlpha '_' = false by decide]
    · by_cases h2 : first.isAlpha = true <;>
        by_cases h3 : hasDoubledUnderscore (first :: rest) = true <;>
        by_cases h4 : (first :: rest).getLast? = some '_' <;>
        by_cases h5 : (first :: rest).all isWordChar = true <;>
        simp_all

end VhdlFrontEnd.Text
