import CaseGrouping.Remote.Exchange

/-! The target that is sent for an address: its path in normal form and its query.
Characters that may not stand in an address are written as the percent-encoded bytes of their
UTF-8 form.
-/

namespace CaseGrouping.Remote

/-- Splits a list before the first character with a property. -/
def splitBefore (p : Char → Bool) (cs : List Char) : List Char × List Char :=
  (cs.takeWhile fun c => !p c, cs.dropWhile fun c => !p c)

/-- An upper-case hexadecimal digit. -/
def upperHex (n : Nat) : Char :=
  (Nat.digitChar n).toUpper

/-- The bytes of a character, each as a percent sign and two hexadecimal digits. -/
def percentEncode (c : Char) : List Char :=
  (String.utf8EncodeChar c).flatMap fun b =>
    ['%', upperHex (b.toNat / 16), upperHex (b.toNat % 16)]

/-- A control character or one beyond ASCII. -/
def isOutsideText (c : Char) : Bool :=
  c.toNat < 0x20 || 0x7F ≤ c.toNat

/-- The character is encoded in a query. -/
def isEncodedInQuery (c : Char) : Bool :=
  isOutsideText c || c = ' ' || c = '"' || c = '#' || c = '<' || c = '>' || c = '\x27'

/-- The character is encoded in a path. -/
def isEncodedInPath (c : Char) : Bool :=
  isOutsideText c || c = ' ' || c = '"' || c = '#' || c = '<' || c = '>' || c = '?' || c = '\x60'
    || c = '\x7b' || c = '\x7d'

/-- A text with some of its characters encoded. -/
def encodeWhere (p : Char → Bool) (cs : List Char) : List Char :=
  cs.flatMap fun c => if p c then percentEncode c else [c]

/-- The segments of a path, between its slashes; a backslash counts as one. -/
def segments : List Char → List (List Char)
  | [] => [[]]
  | c :: rest =>
      if c = '/' || c = '\\' then [] :: segments rest
      else
        match segments rest with
        | [] => [[c]]
        | s :: more => (c :: s) :: more

/-- A segment with its encoded dots written out. -/
def plainDots : List Char → List Char
  | '%' :: '2' :: e :: rest =>
      if e = 'e' ∨ e = 'E' then '.' :: plainDots rest else '%' :: plainDots ('2' :: e :: rest)
  | c :: rest => c :: plainDots rest
  | [] => []

/-- Adds a segment to those before it, kept in reverse: one dot adds nothing, and two dots take
the last one away. Either leaves an open end if it comes last.
-/
def addSegment (done : List (List Char)) (segment : List Char) (isLast : Bool) : List (List Char) :=
  let withEnd (done : List (List Char)) := if isLast then [] :: done else done
  match plainDots segment with
  | ['.'] => withEnd done
  | ['.', '.'] => withEnd done.tail
  | _ => segment :: done

/-- Resolves the dots among segments. -/
def resolveDots : List (List Char) → List (List Char) → List (List Char)
  | done, [] => done.reverse
  | done, s :: rest => resolveDots (addSegment done s rest.isEmpty) rest

/-- The normal form of a path that starts with a slash. -/
def normalPath (path : List Char) : List Char :=
  (resolveDots [] (segments (path.drop 1))).flatMap fun s => '/' :: encodeWhere isEncodedInPath s

/-- Drops what an address never holds: control characters and spaces at its ends, and tabs and
line breaks anywhere.
-/
def cleaned (url : String) : List Char :=
  let atEnd (c : Char) : Bool := c.toNat ≤ 0x20
  let inner := ((url.toList.dropWhile atEnd).reverse.dropWhile atEnd).reverse
  inner.filter fun c => c ≠ '\t' && c ≠ '\n' && c ≠ '\r'

/-- The address after its scheme and authority. -/
def afterAuthority (cs : List Char) : List Char :=
  let (_, rest) := splitBefore (· = ':') cs
  (splitBefore (fun c => c = '/' || c = '\\' || c = '?' || c = '#') (rest.drop 3)).2

/-- The target that a request is sent with. -/
def Request.target (r : Request) : String :=
  let (whole, _) := splitBefore (· = '#') (afterAuthority (cleaned r.url))
  let (path, query) := splitBefore (· = '?') whole
  String.ofList <|
    normalPath path ++
      match query with
      | [] => []
      | _ :: query => '?' :: encodeWhere isEncodedInQuery query

end CaseGrouping.Remote
