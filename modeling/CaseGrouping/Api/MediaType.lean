import CaseGrouping.Text.Numeral

/-! Media types as a request names them, and whether one is a form of the data format.
-/

namespace CaseGrouping.Api

namespace MediaType

/-- A character of a type, a subtype or a parameter. -/
def isToken (c : Char) : Bool :=
  c.isAlphanum || "!#$%&'*+-.^_\x60|~".toList.contains c

/-- A character of a quoted value: an ASCII character that is no control character. -/
def isQuotable (c : Char) : Bool :=
  0x20 ≤ c.toNat && c.toNat < 0x7F

/-- Where the reading of parameters stands. -/
inductive Place where
  | start
  | name
  | valueStart
  | value
  | quoteStart
  | quote
  | afterQuote
  deriving DecidableEq, Repr

/-- Reads one character of the parameters. A quoted value has a character at least, which may be
a quote.
-/
def step (place : Place) (c : Char) : Option Place :=
  match place with
  | .start => if c = ' ' then some .start else if isToken c then some .name else none
  | .name => if c = '=' then some .valueStart else if isToken c then some .name else none
  | .valueStart => if c = '"' then some .quoteStart else if isToken c then some .value else none
  | .value => if c = ';' then some .start else if isToken c then some .value else none
  | .quoteStart => if isQuotable c then some .quote else none
  | .quote => if c = '"' then some .afterQuote else if isQuotable c then some .quote else none
  | .afterQuote => if c = ';' then some .start else if c = ' ' then some .afterQuote else none

/-- Parameters may end here. -/
def isEnd : Place → Bool
  | .start | .valueStart | .value | .afterQuote => true
  | .name | .quoteStart | .quote => false

/-- The text after a semicolon is a list of parameters. -/
def areParameters (cs : List Char) : Bool :=
  (cs.foldlM step .start).any isEnd

/-- Splits a subtype at its last plus sign, unless that comes first. -/
def splitSuffix (subtype : List Char) : List Char × Option (List Char) :=
  let suffix := (subtype.reverse.takeWhile (· ≠ '+')).reverse
  let stem := subtype.take (subtype.length - suffix.length - 1)
  if '+' ∈ subtype ∧ stem ≠ [] then (stem, some suffix) else (subtype, none)

/-- The text without regard to the case of its letters. -/
def folded (cs : List Char) : String :=
  String.ofList (cs.map Char.toLower)

/-- The media type is `application/json`, or has that form by its suffix. -/
def isJson (s : String) : Bool :=
  let cs := s.toList
  let type := cs.takeWhile isToken
  match cs.drop type.length with
  | '/' :: rest =>
      let subtype := rest.takeWhile (· ≠ ';')
      let (stem, suffix) := splitSuffix subtype
      folded type = "application" && subtype.all isToken
        && (folded stem = "json" || suffix.map folded = some "json")
        && match rest.drop subtype.length with
          | [] => true
          | _ :: parameters => areParameters parameters
  | _ => false

end MediaType

end CaseGrouping.Api
