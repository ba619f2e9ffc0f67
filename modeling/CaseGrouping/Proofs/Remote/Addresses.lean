import CaseGrouping.Proofs.Remote.Targets
import CaseGrouping.Remote.Store

/-! Which record a request is about. The address of a record is the folder of its kind followed by
its reference as it is, so the request is about the record just when the reference can stand in an
address as it is.
-/

namespace CaseGrouping.Remote

-----------------------------------------------------------------------------------------
-- Addresses
-----------------------------------------------------------------------------------------

/-- What an address has after a folder, up to its query or fragment. -/
def resource (folder url : String) : List Char :=
  (url.toList.drop folder.toList.length).takeWhile fun c => c ≠ '?' && c ≠ '#'

/-- (Names folder url text) says that an address names a text in a folder: it goes on with one
segment, and that stands for the text.
-/
structure Names (folder url text : String) : Prop where
  within : folder.toList <+: url.toList
  single : '/' ∉ resource folder url
  stands : percentDecode (resource folder url) = utf8 text.toList

section Naming

variable {folder url text : String} {query : List Char}

theorem resource_eq (parts : url.toList = folder.toList ++ (text.toList ++ query))
    (ends : IsEnd query)
    : resource folder url = text.toList.takeWhile fun c => c ≠ '?' && c ≠ '#' := by
  have nothing : (query.takeWhile fun c => c ≠ '?' && c ≠ '#') = [] := by
    rcases ends with rfl | begins
    · rfl
    · obtain ⟨_, rfl⟩ := List.head?_eq_some_iff.mp begins
      rfl
  rw [resource, parts, List.drop_left, List.takeWhile_append, nothing, List.append_nil]
  split
  next whole => exact ((List.takeWhile_prefix _).eq_of_length whole).symm
  next => rfl

theorem takeWhile_whole_iff {cs : List Char}
    : (cs.takeWhile fun c => c ≠ '?' && c ≠ '#') = cs ↔ '?' ∉ cs ∧ '#' ∉ cs := by
  rw [List.takeWhile_eq_self_iff]
  constructor
  · intro all
    exact ⟨fun member => absurd (all _ member) (by decide),
      fun member => absurd (all _ member) (by decide)⟩
  · rintro ⟨query, fragment⟩ c member
    have first : c ≠ '?' := fun same => query (same ▸ member)
    have second : c ≠ '#' := fun same => fragment (same ▸ member)
    simp [first, second]

/-- An address that is a folder and a text names the text just when it stands for itself. -/
theorem names_iff (parts : url.toList = folder.toList ++ (text.toList ++ query))
    (ends : IsEnd query)
    : Names folder url text ↔ IsSegment text := by
  have decoded := percentDecode_eq_utf8_iff
    (List.takeWhile_prefix (l := text.toList) fun c => c ≠ '?' && c ≠ '#')
  constructor
  · rintro ⟨_, single, stands⟩
    rw [resource_eq parts ends] at single stands
    obtain ⟨whole, escapes⟩ := decoded.mp stands
    obtain ⟨query, fragment⟩ := takeWhile_whole_iff.mp whole
    rw [whole] at single
    exact ⟨single, query, fragment, escapes⟩
  · rintro ⟨slash, query, fragment, escapes⟩
    have whole := takeWhile_whole_iff.mpr ⟨query, fragment⟩
    refine ⟨parts ▸ List.prefix_append _ _, ?_, ?_⟩
    · rw [resource_eq parts ends, whole]
      exact slash
    · rw [resource_eq parts ends]
      exact decoded.mpr ⟨whole, escapes⟩

end Naming

namespace RemoteStore

/-- Where the records of a kind are. -/
def folder (s : RemoteStore) (caseType : String) (kind : ReferenceKind) : String :=
  let collection :=
    match kind with
    | .case => "/cases/"
    | .multiple => "/multiples/"
  s.baseUrl ++ collection ++ caseType ++ "/"

/-- The requests that are meant for one record. -/
inductive Asks (s : RemoteStore) (caseType : String)
    : {kind : ReferenceKind} → Request → Reference kind → Prop
  | retrieve (jurisdiction : String) (r : CaseReference)
      : s.Asks caseType (s.retrieve caseType jurisdiction r).request r
  | submit (w : CaseWrite) : s.Asks caseType (s.submit caseType w).request w.case
  | load (r : MultipleReference) : s.Asks caseType (s.load caseType r).request r
  | commit {m : Multiple} {expected : Option UInt64} {r : MultipleReference}
      {call : RemoteCall MultipleStoreError Multiple} (own : m.reference = some r)
      (commits : s.commit caseType m expected = .ok call)
      : s.Asks caseType call.request r

variable {s : RemoteStore} {caseType : String} {kind : ReferenceKind} {request : Request}
  {r : Reference kind}

/-- Their addresses are the folder, the reference and at most a query. -/
theorem Asks.url (asks : s.Asks caseType request r)
    : ∃ query,
        IsEnd query
        ∧ request.url.toList = (s.folder caseType kind).toList ++ (r.text.toList ++ query) := by
  cases asks with
  | retrieve jurisdiction r =>
      refine ⟨'?' :: "jurisdiction=".toList ++ jurisdiction.toList, .inr rfl, ?_⟩
      simp [RemoteStore.retrieve, caseUrl, folder]
  | submit w => exact ⟨[], .inl rfl, by simp [RemoteStore.submit, caseUrl, folder]⟩
  | load r => exact ⟨[], .inl rfl, by simp [RemoteStore.load, multipleUrl, folder]⟩
  | commit own commits =>
      refine ⟨[], .inl rfl, ?_⟩
      rw [RemoteStore.commit, own] at commits
      cases commits
      simp [multipleUrl, folder]

end RemoteStore

-----------------------------------------------------------------------------------------
-- Targets
-----------------------------------------------------------------------------------------

/-- An address of a scheme and an authority, with directories after them at most. -/
structure IsBase (address : String) : Prop where
  bare : IsBare address.toList
  parts
    : ∃ scheme authority path,
        address.toList = scheme ++ ':' :: '/' :: '/' :: (authority ++ path)
        ∧ ':' ∉ scheme
        ∧ '/' ∉ authority
        ∧ '\\' ∉ authority
        ∧ (path = [] ∨ path.head? = some '/')

/-- (Reaches root target text) says that a target goes on after a root with one segment, which
stands for a text, and with a query at most.
-/
def Reaches (root : List Char) (target text : String) : Prop :=
  ∃ segment query,
    target.toList = root ++ '/' :: (segment ++ query)
    ∧ '/' ∉ segment
    ∧ '?' ∉ segment
    ∧ IsEnd query
    ∧ percentDecode segment = utf8 text.toList

section Reaching

variable {root : List Char} {target text text' : String}

/-- One target reaches one text. -/
theorem Reaches.unique (first : Reaches root target text) (second : Reaches root target text')
    : text = text' := by
  obtain ⟨segment, query, parts, _, single, ends, stands⟩ := first
  obtain ⟨segment', query', parts', _, single', ends', stands'⟩ := second
  -- The segment is told from the query by the sign that begins the query.
  have cut : ∀ {segment query : List Char}, '?' ∉ segment → IsEnd query
      → (segment ++ query).takeWhile (· ≠ '?') = segment := by
    intro segment query single ends
    have other : ∀ c ∈ segment, decide (c ≠ '?') = true :=
      fun c member => decide_eq_true fun same => single (same ▸ member)
    rw [List.takeWhile_append_of_pos other]
    rcases ends with rfl | begins
    · simp
    · obtain ⟨rest, rfl⟩ := List.head?_eq_some_iff.mp begins
      simp
  have same : segment ++ query = segment' ++ query' :=
    (List.cons.inj (List.append_cancel_left (parts.symm.trans parts'))).2
  have segments : segment = segment' := by
    rw [← cut single ends, same, cut single' ends']
  rw [segments] at stands
  exact String.toList_inj.mp (utf8_injective (stands.symm.trans stands'))

end Reaching

/-- A reference ends with a visible character, unless it has control characters. -/
theorem visible_last {kind : ReferenceKind} (r : Reference kind)
    (controls : r.text.toList.all (0x20 ≤ ·.toNat))
    : ∃ c, r.text.toList.getLast? = some c ∧ 0x20 < c.toNat := by
  have trimmed : Text.trimChars r.text.toList = r.text.toList :=
    (String.toList_ofList).symm.trans (congrArg String.toList r.trim_text)
  have last : ∀ c, r.text.toList.getLast? = some c → Text.isBlank c = false := by
    intro c found
    rw [← trimmed, Text.trimChars, List.getLast?_reverse] at found
    have stops := List.head?_dropWhile_not Text.isBlank
      (r.text.toList.dropWhile Text.isBlank).reverse
    rw [found] at stops
    exact stops
  cases found : r.text.toList.getLast? with
  | none =>
      have nothing := List.getLast?_eq_none_iff.mp found
      exact absurd (String.toList_inj.mp (nothing.trans String.toList_empty.symm)) r.text_ne_empty
  | some c =>
      have bound : 0x20 ≤ c.toNat :=
        of_decide_eq_true (List.all_eq_true.mp controls c (List.mem_of_getLast? found))
      have visible := last c found
      refine ⟨c, rfl, Nat.lt_of_le_of_ne bound fun space => ?_⟩
      simp [Text.isBlank, ← space] at visible

namespace RemoteStore

variable {s : RemoteStore} {caseType : String} {kind : ReferenceKind} {request : Request}
  {r : Reference kind}

/-- The folders of a service are directories below its address. -/
theorem isFolder_folder (base : IsBase s.baseUrl) (bare : IsBare caseType.toList)
    (kind : ReferenceKind)
    : ∃ directories, IsFolder (s.folder caseType kind).toList directories := by
  obtain ⟨scheme, authority, path, parts, named, slash, backslash, directories⟩ := base.parts
  obtain ⟨collection, bare', shape⟩ : ∃ collection,
      IsBare ('/' :: collection)
      ∧ (s.folder caseType kind).toList
        = s.baseUrl.toList ++ ('/' :: collection ++ caseType.toList ++ ['/']) := by
    cases kind with
    | case => exact ⟨"cases/".toList, by decide, by simp [folder]⟩
    | multiple => exact ⟨"multiples/".toList, by decide, by simp [folder]⟩
  have last : IsBare ['/'] := by decide
  have bare := base.bare.append ((bare'.append bare).append last)
  rw [← shape] at bare
  rcases directories with rfl | begins
  · refine ⟨collection ++ caseType.toList, bare, scheme, authority, ?_, named, slash, backslash⟩
    rw [shape, parts]
    simp
  · obtain ⟨rest, rfl⟩ := List.head?_eq_some_iff.mp begins
    refine ⟨rest ++ '/' :: (collection ++ caseType.toList), bare, scheme, authority, ?_, named,
      slash, backslash⟩
    rw [shape, parts]
    simp

/-- A request for a record with a plain reference reaches it. -/
theorem Asks.reaches (asks : s.Asks caseType request r) (plain : IsPlain r.text)
    {directories : List Char} (isFolder : IsFolder (s.folder caseType kind).toList directories)
    : Reaches (normalDirectories directories) request.target r.text := by
  obtain ⟨query, ends, parts⟩ := asks.url
  obtain ⟨query', ends', sent⟩ :=
    target_eq isFolder plain (visible_last r plain.controls) parts ends
  have digits : ∀ n < 16, upperHex n ≠ '/' ∧ upperHex n ≠ '?' := by decide
  have written : ∀ c ∈ encodeWhere isEncodedInPath r.text.toList, c ≠ '/' ∧ c ≠ '?' := by
    intro c member
    rcases mem_encodeWhere member with ⟨listed, _⟩ | rfl | ⟨n, bound, rfl⟩
    · exact ⟨fun same => plain.slash (same ▸ listed), fun same => plain.query (same ▸ listed)⟩
    · decide
    · exact digits n bound
  exact ⟨_, query', sent, fun member => (written _ member).1 rfl,
    fun member => (written _ member).2 rfl, ends', percentDecode_encodeWhere plain.escapes⟩

/-- The requests for one record name it just when its reference can stand in an address as it is. If
the reference is plain, they are sent to where the reference leads, so no other record with a plain
reference is reached by them.
-/
theorem requests_name_records (s : RemoteStore) (caseType : String)
    : (∀ (kind : ReferenceKind) (request : Request) (r : Reference kind),
          s.Asks caseType request r
          → (Names (s.folder caseType kind) request.url r.text ↔ IsSegment r.text))
      ∧ (∀ (m : Multiple) (r : MultipleReference) (expected : Option UInt64),
          m.reference = some r
          → ∃ call, s.commit caseType m expected = .ok call ∧ s.Asks caseType call.request r)
      ∧ (IsBase s.baseUrl
        → IsBare caseType.toList
        → ∀ kind : ReferenceKind,
            ∃ root,
              ∀ (request : Request) (r : Reference kind),
                s.Asks caseType request r
                → IsPlain r.text
                → Reaches root request.target r.text
                  ∧ ∀ (request' : Request) (r' : Reference kind),
                      s.Asks caseType request' r'
                      → IsPlain r'.text
                      → request'.target = request.target
                      → r' = r) := by
  refine ⟨fun kind request r asks => ?_, fun m r expected own => ?_, fun base bare kind => ?_⟩
  · obtain ⟨query, ends, parts⟩ := asks.url
    exact names_iff parts ends
  · obtain ⟨call, commits⟩ : ∃ call, s.commit caseType m expected = .ok call := by
      rw [RemoteStore.commit, own]
      exact ⟨_, rfl⟩
    exact ⟨call, commits, .commit own commits⟩
  · obtain ⟨directories, isFolder⟩ := isFolder_folder base bare kind
    refine ⟨_, fun request r asks plain => ⟨asks.reaches plain isFolder, ?_⟩⟩
    intro request' r' asks' plain' same
    have reaches := asks'.reaches plain' isFolder
    rw [same] at reaches
    exact Reference.ext_text (reaches.unique (asks.reaches plain isFolder))

end RemoteStore

end CaseGrouping.Remote

namespace CaseGrouping.Sample

open CaseGrouping.Remote

def service : RemoteStore :=
  .make "http://cases.local/" (.ofMillis 5000)

/-- A reference with characters that are encoded. -/
def accented : CaseReference :=
  ⟨"Zoë 100%", by decide, by decide⟩

/-- A reference with a number sign, by which a fragment begins. -/
def marked : CaseReference :=
  ⟨"A#B", by decide, by decide⟩

/-- The part of it before the sign. -/
def unmarked : CaseReference :=
  ⟨"A", by decide, by decide⟩

/-- A reference of a number and a year. -/
def numbered : CaseReference :=
  ⟨"2500123/2024", by decide, by decide⟩

/-- The request for the accented reference names it, and the one for another is sent elsewhere. -/
theorem accented_named
    : (IsBase service.baseUrl ∧ IsBare "ET".toList ∧ IsPlain accented.text ∧ IsPlain unmarked.text)
      ∧ (service.submit "ET" ⟨accented, .setLead true⟩).request.target = "/cases/ET/Zo%C3%AB%20100%"
      ∧ Names (service.folder "ET" .case)
          (service.submit "ET" ⟨accented, .setLead true⟩).request.url accented.text
      ∧ (service.submit "ET" ⟨unmarked, .setLead true⟩).request.target
        ≠ (service.submit "ET" ⟨accented, .setLead true⟩).request.target := by
  have base : IsBase service.baseUrl :=
    ⟨by decide, "http".toList, "cases.local".toList, [], by decide⟩
  have bare : IsBare "ET".toList := by decide
  have plain : IsPlain accented.text := by decide
  have plain' : IsPlain unmarked.text := by decide
  obtain ⟨names, _, reaches⟩ := service.requests_name_records "ET"
  have named := (names _ _ _ (.submit ⟨accented, .setLead true⟩)).mpr plain.toIsSegment
  refine ⟨⟨base, bare, plain, plain'⟩, by decide +kernel, named, ?_⟩
  intro same
  obtain ⟨_, reaches⟩ := reaches base bare .case
  have alike := (reaches _ _ (.submit ⟨accented, .setLead true⟩) plain).2 _ _
    (.submit ⟨unmarked, .setLead true⟩) plain' same
  exact absurd alike (by decide)

/-- Not every request for one case names it: a number sign begins a fragment, which is not sent, so
that a write goes to another case.
-/
theorem marked_reaches_another
    : (¬ ∀ (s : RemoteStore) (caseType : String) (w : CaseWrite),
          Names (s.folder caseType .case) (s.submit caseType w).request.url w.case.text)
      ∧ ¬ Names (service.folder "ET" .case)
          (service.submit "ET" ⟨numbered, .setLead true⟩).request.url numbered.text
      ∧ (service.submit "ET" ⟨marked, .setLead true⟩).request.target
        = (service.submit "ET" ⟨unmarked, .setLead true⟩).request.target
      ∧ marked ≠ unmarked := by
  have names : ∀ r : CaseReference, Names (service.folder "ET" .case)
      (service.submit "ET" ⟨r, .setLead true⟩).request.url r.text → IsSegment r.text := by
    intro r named
    have asks : service.Asks "ET" (service.submit "ET" ⟨r, .setLead true⟩).request r := .submit _
    obtain ⟨query, ends, parts⟩ := asks.url
    exact (names_iff parts ends).mp named
  refine ⟨fun claim => ?_, fun named => ?_, by decide +kernel, by decide⟩
  · exact absurd (names marked (claim service "ET" ⟨marked, .setLead true⟩)).fragment (by decide)
  · exact absurd (names numbered named).slash (by decide)

end CaseGrouping.Sample
