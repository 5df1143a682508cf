import DocQuery.AttributeValue.Document
import DocQuery.Path

/-!
# DocQuery.Placeholder

The placeholders of a request.

Expressions refer to attribute names and to values only through tokens, `#k_age` or `:v_age`.
What each token stands for is collected in `Placeholders` while the expressions of one request
are compiled. A token is never bound anew: asking again for what it stands for gives the same
token, and asking for anything else gives another one.
-/

namespace DocQuery

/-- A name token or a value token. -/
abbrev Token := String

/-- What the tokens of a request stand for. -/
structure Placeholders where
  names : KeyMap String := ∅
  values : Item := ∅
deriving DecidableEq, Repr

namespace Placeholders

def isEmpty (p : Placeholders) : Bool :=
  p.names.isEmpty && p.values.isEmpty

end Placeholders

/-! ### Tokens -/

/-- Characters that a token may not hold become underscores. -/
def sanitize (text : String) : String :=
  text.map fun c => if c.isAlphanum then c else '_'

/-- The token asked for first when `name` is named. -/
def nameToken (name : String) : Token :=
  "#k_" ++ sanitize name

/-- The token asked for first when a value is bound for `key`. -/
def valueToken (key : String) : Token :=
  ":v_" ++ sanitize key

/-- The token of the empty list that an append starts from when the attribute is missing. -/
def emptyListToken : Token := ":_v_empty_list"

/-- The tokens tried for `base`, in order: the base itself, then the base numbered from one. -/
def candidate (base : Token) : Nat → Token
  | 0 => base
  | n + 1 => base ++ "_" ++ String.ofList (digitsOf (n + 1))

section Choice

variable {α : Type} [DecidableEq α]

/-- Whether a token is free or already bound to `value`. -/
def suits (m : KeyMap α) (value : α) (token : Token) : Bool :=
  match m.get? token with
  | none => true
  | some bound => bound = value

/-- The first suitable candidate from `index` on. `clashes` bounds how many candidates can be
bound to something else, so after that many the next one is suitable without a look. -/
def firstSuitable (m : KeyMap α) (value : α) (base : Token) : (clashes index : Nat) → Token
  | 0, index => candidate base index
  | clashes + 1, index =>
    if suits m value (candidate base index) then candidate base index
    else firstSuitable m value base clashes (index + 1)

/-- The token for `value`: the first candidate that is free or bound to `value` already. -/
def tokenFor (m : KeyMap α) (base : Token) (value : α) : Token :=
  firstSuitable m value base m.size 0

end Choice

/-! ### Naming and binding -/

/-- A computation that may register placeholders. -/
abbrev Naming := StateM Placeholders

namespace Naming

/-- Name an attribute as a whole, whatever characters its name has. -/
def nameAttribute (name : String) : Naming Token := fun p =>
  let token := tokenFor p.names (nameToken name) name
  (token, { p with names := p.names.insert token name })

/-- The path with every name replaced by its token. -/
def namePath : Path → Naming Path
  | [] => pure []
  | step :: rest => do
    let token ← nameAttribute step.name
    let steps ← namePath rest
    return { step with name := token } :: steps

/-- Name every attribute on a path given as text. -/
def nameText (path : String) : Naming Path :=
  namePath (Path.ofText path)

/-- Bind a value; `key` only suggests the token. -/
def bindValue (key : String) (value : AttributeValue) : Naming Token := fun p =>
  let token := tokenFor p.values (valueToken key) value
  (token, { p with values := p.values.insert token value })

/-- Bind the value of a document. -/
def bindDocument (key : String) (document : Document) : Naming Token :=
  bindValue key (.ofDocument document)

/-- Bind each document by itself, under the key numbered from `index` on. -/
def bindEachFrom (key : String) (index : Nat) : List Document → Naming (List Token)
  | [] => pure []
  | document :: rest => do
    let token ← bindDocument (key ++ "_" ++ String.ofList (digitsOf index)) document
    let tokens ← bindEachFrom key (index + 1) rest
    return token :: tokens

/-- Bind each document by itself, under the key numbered from zero on. -/
def bindEach (key : String) (documents : List Document) : Naming (List Token) :=
  bindEachFrom key 0 documents

/-- The token of the empty list; a binding it already has is left alone. -/
def bindEmptyList : Naming Token := fun p =>
  -- Values bound before the request was begun may hold this token.
  let values :=
    match p.values.get? emptyListToken with
    | none => p.values.insert emptyListToken .emptyList
    | some _ => p.values
  (emptyListToken, { p with values })

end Naming

end DocQuery
