import CaseGrouping.Change
import CaseGrouping.Duration
import CaseGrouping.Multiple
import CaseGrouping.Remote.Exchange
import CaseGrouping.SearchCriteria
import CaseGrouping.Store.Error

/-! The stores of cases and multiples behind a web service: which request stands for each call,
and how the answer to it is read. The version of a multiple travels as an entity tag.
-/

namespace CaseGrouping.Remote

/-- A web service at an address without a slash at its end, and how long it may take to answer. -/
structure RemoteStore where
  baseUrl : String
  timeout : Duration

namespace RemoteStore

/-- The service at an address. -/
def make (url : String) (timeout : Duration) : RemoteStore where
  baseUrl := String.ofList (url.toList.reverse.dropWhile (· = '/')).reverse
  timeout := timeout

/-- The address of a case. -/
def caseUrl (s : RemoteStore) (caseType : String) (case : CaseReference) : String :=
  s.baseUrl ++ "/cases/" ++ caseType ++ "/" ++ case.text

/-- The address of a multiple. -/
def multipleUrl (s : RemoteStore) (caseType : String) (multiple : MultipleReference) : String :=
  s.baseUrl ++ "/multiples/" ++ caseType ++ "/" ++ multiple.text

/-- The header field of a body in the data format. -/
def jsonHeader : String × String :=
  ("content-type", "application/json")

/-- A body that does not decode, in general words. -/
def undecodable : String :=
  "error decoding response body"

-----------------------------------------------------------------------------------------
-- Cases
-----------------------------------------------------------------------------------------

/-- The error for an answer to a call about cases that is no success. -/
def caseStatusError (a : Answer) : CaseStoreError :=
  match a.status with
  | 404 => .notFound a.detail
  | 409 | 422 | 400 => .conflict a.detail
  | _ => .transport a.detail

/-- Reads the answer to a call about cases. -/
def readCases (s : RemoteStore) (decoder : Json.Decoder α) (e : Exchange)
    : Except CaseStoreError α :=
  match e with
  | .timedOut => .error (.timeout s.timeout.millis)
  | .failed detail => .error (.transport detail)
  | .answered a =>
      if isSuccess a.status then
        match Json.decodeText decoder a.body with
        | .ok found => .ok found
        | .error _ => .error (.serialization undecodable)
      else .error (caseStatusError a)

/-- Reads the answer to a call about one case, which may not be there. -/
def readCase (s : RemoteStore) (case : CaseReference) (e : Exchange)
    : Except CaseStoreError SingleCase :=
  match e with
  | .answered ⟨404, _, _⟩ => .error (.notFound case.text)
  | e => s.readCases Json.Form.decoder e

/-- Retrieves one case. -/
def retrieve (s : RemoteStore) (caseType jurisdiction : String) (case : CaseReference)
    : RemoteCall CaseStoreError SingleCase where
  request :=
    { method := "GET", url := s.caseUrl caseType case ++ "?jurisdiction=" ++ jurisdiction }
  read := s.readCase case

/-- Searches for cases. -/
def search (s : RemoteStore) (caseType : String) (criteria : SearchCriteria)
    : RemoteCall CaseStoreError (List SingleCase) where
  request :=
    { method := "POST"
      url := s.baseUrl ++ "/cases/" ++ caseType ++ "/search"
      headers := [jsonHeader]
      body := some (Json.text criteria) }
  read := s.readCases (Json.Decode.list Json.Form.decoder)

/-- Sends a write to its case. -/
def submit (s : RemoteStore) (caseType : String) (w : CaseWrite)
    : RemoteCall CaseStoreError SingleCase where
  request :=
    { method := "PATCH"
      url := s.caseUrl caseType w.case
      headers := [jsonHeader]
      body := some (Json.text w.change) }
  read := s.readCase w.case

-----------------------------------------------------------------------------------------
-- Multiples
-----------------------------------------------------------------------------------------

/-- The version in an entity tag, which may be marked as weak. -/
def tagVersion? (tag : String) : Option UInt64 :=
  let rec unmarked : List Char → List Char
    | 'W' :: '/' :: rest => unmarked rest
    | cs => cs
  let bare := ((unmarked tag.toList).dropWhile (· = '"')).reverse.dropWhile (· = '"')
  match Text.readNatural (Text.wordLimit 64) (String.ofList bare.reverse) with
  | .ok n => some (UInt64.ofNat n)
  | .error _ => none

/-- The version that an answer names. -/
def answeredVersion? (a : Answer) : Option UInt64 :=
  (a.header? "etag").bind tagVersion?

/-- Reads the answer to a call about multiples, unless no answer came. -/
def readMultiples (e : Exchange) (read : Answer → Except MultipleStoreError α)
    : Except MultipleStoreError α :=
  match e with
  | .timedOut => .error (.transport "operation timed out")
  | .failed detail => .error (.transport detail)
  | .answered a => read a

/-- Reads the body of a successful answer. -/
def readSuccess (decoder : Json.Decoder α) (a : Answer) : Except MultipleStoreError α :=
  if isSuccess a.status then
    match Json.decodeText decoder a.body with
    | .ok found => .ok found
    | .error _ => .error (.serialization undecodable)
  else .error (.transport (statusText a.status))

/-- Loads a multiple; its version is the one that the answer names, if it names one. -/
def load (s : RemoteStore) (caseType : String) (multiple : MultipleReference)
    : RemoteCall MultipleStoreError (Option Multiple) where
  request := { method := "GET", url := s.multipleUrl caseType multiple }
  read e := readMultiples e fun a =>
    if a.status = 404 then .ok none
    else do
      let m : Multiple ← readSuccess Json.Form.decoder a
      match answeredVersion? a with
      | some v => return some (m.withVersion v)
      | none => return some m

/-- The body of the answer to an allocation. -/
def allocated : Json.Record MultipleReference :=
  .required "reference" Json.Form.decoder

/-- Asks for a fresh reference. -/
def allocate (s : RemoteStore) (caseType : String)
    : RemoteCall MultipleStoreError MultipleReference where
  request := { method := "POST", url := s.baseUrl ++ "/multiples/" ++ caseType ++ "/references" }
  read e := readMultiples e (readSuccess allocated.decoder)

/-- The header field that makes a commit conditional on the stored version. -/
def conditionHeader (expected : Option UInt64) : String × String :=
  match expected with
  | some v => ("if-match", s!"\"{v.toNat}\"")
  | none => ("if-none-match", "*")

/-- The record of a commit as answered: its version is the one that the answer names, or else
the one after the expected version.
-/
def readCommit (m : Multiple) (multiple : MultipleReference) (expected : Option UInt64)
    (a : Answer) : Except MultipleStoreError Multiple :=
  if a.status = 412 ∨ a.status = 409 then
    .error (.concurrentModification multiple.text expected (answeredVersion? a))
  else if isSuccess a.status then
    .ok (m.withVersion ((answeredVersion? a).getD ((expected.map (· + 1)).getD 1)))
  else .error (.transport (statusText a.status))

/-- Commits a multiple at an expected version; without a reference there is no request. -/
def commit (s : RemoteStore) (caseType : String) (m : Multiple) (expected : Option UInt64)
    : Except MultipleStoreError (RemoteCall MultipleStoreError Multiple) :=
  match m.reference with
  | none => .error .missingReference
  | some multiple => .ok {
      request :=
        { method := "PUT"
          url := s.multipleUrl caseType multiple
          headers := [jsonHeader, conditionHeader expected]
          body := some (Json.text m) }
      read := fun e => readMultiples e (readCommit m multiple expected) }

end RemoteStore

end CaseGrouping.Remote
