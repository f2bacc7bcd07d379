import Lifecycle.BlobSizes
import Lifecycle.ObjectClosures

/-!
# Listings of stored trees

What a Git repository holds: blobs, and trees of entries that name other
objects, each under the mode, the type and the name it has there. Git lists a
tree with one line for each entry, and the parser reads every line back into
the entry it was written from (`parseDirectTree_listing`); names that are no
UTF-8, or that no repository path may have, it refuses.
-/

open Fallible Json ControlModel Knowledge SortedBy Carrier Segments

namespace ObjectClosure

/-! ## Stores -/

/-- **An entry of a stored tree.** Git writes a mode in six digits, and no name
has a NUL in it. -/
structure StoredEntry where
  mode : List Char
  objectType : ObjectType
  objectId : String
  name : List UInt8
  modeDigits : mode.length = 6 ∧ ∀ c ∈ mode, StrictJson.isDigit c = true
  objectDigits : objectId.toList ≠ [] ∧ ∀ c ∈ objectId.toList, Sha256.isHexDigit c = true
  nulFree : 0 ∉ name

/-- What an object is, with the length of its payload. -/
inductive StoredObject
  | blob (byteLength : Nat)
  | tree (byteLength : Nat) (entries : List StoredEntry)
  | commit (byteLength : Nat)
  | tag (byteLength : Nat)

/-- The name of the type of an object. -/
def StoredObject.typeText : StoredObject → String
  | .blob _ => "blob"
  | .tree _ _ => "tree"
  | .commit _ => "commit"
  | .tag _ => "tag"

def StoredObject.byteLength : StoredObject → Nat
  | .blob n | .tree n _ | .commit n | .tag n => n

/-- **An object store**: the objects under their identities. -/
abbrev ObjectStore : Type := String → Option StoredObject

/-- The line of an entry in front of its name. -/
def StoredEntry.header (e : StoredEntry) : List Char := e.mode ++ (spaced e.objectType ++ e.objectId.toList)

/-- Characters of one byte each. -/
def asciiBytes (cs : List Char) : List UInt8 := cs.map fun c => UInt8.ofNat c.toNat

/-- **The line Git lists an entry by.** -/
def StoredEntry.line (e : StoredEntry) : List UInt8 := asciiBytes e.header ++ 0x09 :: e.name

/-- **The listing of a tree**, `ls-tree -z`. -/
def listing (entries : List StoredEntry) : List UInt8 := terminated 0 (entries.map StoredEntry.line)

/-! ## Lines -/

/-- A character of a header. -/
def HeaderChar (c : Char) : Prop := c.toNat < 128 ∧ c ≠ '\t' ∧ c ≠ '\x00'

theorem headerChar_of_isHexDigit {c : Char} (h : Sha256.isHexDigit c = true) : HeaderChar c := by
  refine ⟨lt_of_isHexDigit h, ?_, ?_⟩
  · rintro rfl
    exact absurd h (by decide)
  · rintro rfl
    exact absurd h (by decide)

theorem headerChar_of_isDigit {c : Char} (h : StrictJson.isDigit c = true) : HeaderChar c := by
  refine ⟨?_, ?_, ?_⟩
  · simp only [StrictJson.isDigit, Bool.and_eq_true, decide_eq_true_eq] at h
    omega
  · rintro rfl
    exact absurd h (by decide)
  · rintro rfl
    exact absurd h (by decide)

theorem headerChar_spaced (type : ObjectType) : ∀ c ∈ spaced type, HeaderChar c := by
  have hall : (spaced type).all (fun c => decide (c.toNat < 128 ∧ c ≠ '\t' ∧ c ≠ '\x00')) = true := by
    cases type <;> decide +kernel
  intro c hc
  have hchar := of_decide_eq_true (List.all_eq_true.mp hall c hc)
  exact hchar

theorem headerChar_header (e : StoredEntry) : ∀ c ∈ e.header, HeaderChar c := by
  intro c hc
  rw [StoredEntry.header, List.mem_append, List.mem_append] at hc
  rcases hc with hc | hc | hc
  · exact headerChar_of_isDigit (e.modeDigits.2 c hc)
  · exact headerChar_spaced e.objectType c hc
  · exact headerChar_of_isHexDigit (e.objectDigits.2 c hc)

theorem toNat_ofNat_of_lt {c : Char} (h : c.toNat < 128) : (UInt8.ofNat c.toNat).toNat = c.toNat := by
  rw [UInt8.toNat_ofNat']
  omega

/-- The characters of a header come back from its bytes. -/
theorem map_asciiBytes {cs : List Char} (h : ∀ c ∈ cs, HeaderChar c) :
    (asciiBytes cs).map (fun b => Char.ofNat b.toNat) = cs := by
  rw [asciiBytes, List.map_map]
  refine (List.map_congr_left fun c hc => ?_).trans (List.map_id' cs)
  show Char.ofNat (UInt8.ofNat c.toNat).toNat = c
  rw [toNat_ofNat_of_lt (h c hc).1, Char.ofNat_toNat]

theorem mem_asciiBytes {cs : List Char} (h : ∀ c ∈ cs, HeaderChar c) {b : UInt8}
    (hb : b ∈ asciiBytes cs) : b ≤ 0x7f ∧ b ≠ 0x09 ∧ b ≠ 0 := by
  obtain ⟨c, hc, rfl⟩ := List.mem_map.mp hb
  obtain ⟨hlt, htab, hnul⟩ := h c hc
  have hvalue := toNat_ofNat_of_lt hlt
  refine ⟨?_, fun heq => htab ?_, fun heq => hnul ?_⟩
  · rw [UInt8.le_iff_toNat_le, hvalue]
    exact Nat.le_of_lt_succ hlt
  · rw [heq] at hvalue
    exact Char.toNat_inj.mp hvalue.symm
  · rw [heq] at hvalue
    exact Char.toNat_inj.mp hvalue.symm

/-- Only one type stands in front of a text. -/
theorem find?_spaced (type : ObjectType) (rest : List Char) :
    [ObjectType.blob, .tree, .commit].find? (fun t => (spaced t).isPrefixOf (spaced type ++ rest))
      = some type := by
  cases type <;> rfl

/-- **A header is read into what it was written from.** -/
theorem treeHeader_header (e : StoredEntry) :
    treeHeader e.header = some (e.mode, e.objectType, e.objectId.toList) := by
  have htake : e.header.take 6 = e.mode := by
    rw [StoredEntry.header, ← e.modeDigits.1, List.take_left]
  have hdrop : e.header.drop 6 = spaced e.objectType ++ e.objectId.toList := by
    rw [StoredEntry.header, ← e.modeDigits.1, List.drop_left]
  have hall : e.mode.all StrictJson.isDigit = true := List.all_eq_true.mpr e.modeDigits.2
  have hhex : e.objectId.toList.all Sha256.isHexDigit = true :=
    List.all_eq_true.mpr e.objectDigits.2
  unfold treeHeader
  simp only [htake, hdrop, find?_spaced, Option.bind_eq_bind, Option.bind_some, List.drop_left]
  exact if_pos ⟨e.modeDigits.1, hall, e.objectDigits.1, hhex⟩

/-- **What an entry is read as.** -/
structure StoredEntry.ReadAs (e : StoredEntry) (d : DirectTreeEntry) : Prop where
  mode : d.mode = String.ofList e.mode
  objectType : d.objectType = e.objectType
  objectId : d.objectId = e.objectId
  name : utf8Bytes d.name = e.name

/-- A name that a path may have. -/
structure PathName (name : String) : Prop where
  ne : name ≠ ""
  separator : '/' ∉ name.toList

theorem decodeTreeName_eq_ok {bytes : List UInt8} {label name : String}
    (h : decodeTreeName bytes label = .ok name) : utf8Bytes name = bytes ∧ PathName name := by
  simp only [decodeTreeName, bind_eq_ok, orFail_eq_ok, failIf_eq_ok, exists_unit, pure_eq_ok,
    not_or] at h
  obtain ⟨value, hvalue, ⟨hlength, -, -, hseparator, -⟩, rfl⟩ := h
  have hbytes := utf8Bytes_of_decodeUtf8 hvalue
  refine ⟨hbytes, ?_, hseparator⟩
  rintro rfl
  rw [← hbytes] at hlength
  exact hlength rfl

theorem exactObjectId_eq_ok {value label id : String} {objectFormat : GitObjectFormat}
    (h : exactObjectId value objectFormat label = .ok id) :
    id = value ∧ objectIdPattern objectFormat value = true := by
  simp only [exactObjectId, bind_eq_ok, failIf_eq_ok, exists_unit, pure_eq_ok,
    Bool.not_eq_false] at h
  exact ⟨h.2.symm, h.1⟩

/-- What an entry that was read has to be. -/
structure ValidEntry (objectFormat : GitObjectFormat) (d : DirectTreeEntry) : Prop where
  name : PathName d.name
  objectId : objectIdPattern objectFormat d.objectId = true

theorem parseTreeEntry_valid {objectFormat : GitObjectFormat} {names : List String}
    {line : List UInt8} {d : DirectTreeEntry} (h : parseTreeEntry objectFormat names line = .ok d) :
    ValidEntry objectFormat d := by
  simp only [parseTreeEntry, bind_eq_ok, orFail_eq_ok, failIf_eq_ok, exists_unit, pure_eq_ok] at h
  obtain ⟨-, -, -, groups, -, name, hname, -, id, hid, rfl⟩ := h
  obtain ⟨rfl, hpattern⟩ := exactObjectId_eq_ok hid
  exact ⟨(decodeTreeName_eq_ok hname).2, hpattern⟩

theorem parseTreeEntries_valid {objectFormat : GitObjectFormat} {lines : List (List UInt8)}
    {names : List String} {ds : List DirectTreeEntry}
    (h : parseTreeEntries objectFormat lines names = .ok ds) :
    ∀ d ∈ ds, ValidEntry objectFormat d := by
  induction lines generalizing names ds with
  | nil =>
    rw [parseTreeEntries, pure_eq_ok] at h
    exact h ▸ List.forall_mem_nil _
  | cons line lines ih =>
    simp only [parseTreeEntries, bind_eq_ok, pure_eq_ok] at h
    obtain ⟨d, hd, rest, hrest, rfl⟩ := h
    exact List.forall_mem_cons.mpr ⟨parseTreeEntry_valid hd, ih hrest⟩

/-- **What is read of a listing is valid**, whatever the listing. -/
theorem parseDirectTree_valid {objectFormat : GitObjectFormat} {bytes : List UInt8}
    {ds : List DirectTreeEntry} (h : parseDirectTree bytes objectFormat = .ok ds) :
    ∀ d ∈ ds, ValidEntry objectFormat d := by
  rw [parseDirectTree, bind_eq_ok] at h
  obtain ⟨-, -, h⟩ := h
  split at h
  · rw [pure_eq_ok] at h
    exact h ▸ List.forall_mem_nil _
  · simp only [bind_eq_ok, exists_unit, pure_eq_ok] at h
    obtain ⟨-, entries, hentries, rfl⟩ := h
    intro d hd
    rw [mem_sortOn] at hd
    exact parseTreeEntries_valid hentries d hd

/-- **A line is read into the entry it was written from.** -/
theorem parseTreeEntry_line {objectFormat : GitObjectFormat} {names : List String} {e : StoredEntry}
    {d : DirectTreeEntry} (h : parseTreeEntry objectFormat names e.line = .ok d) : e.ReadAs d := by
  have hheader := headerChar_header e
  have htab : e.line.idxOf 0x09 = (asciiBytes e.header).length := by
    rw [StoredEntry.line, List.idxOf_append_of_notMem fun hmem => (mem_asciiBytes hheader hmem).2.1 rfl,
      List.idxOf_cons_self, Nat.add_zero]
  have htake : e.line.take (asciiBytes e.header).length = asciiBytes e.header := List.take_left
  have hdrop : e.line.drop ((asciiBytes e.header).length + 1) = e.name := by
    rw [StoredEntry.line, ← List.drop_drop, List.drop_left]
    rfl
  simp only [parseTreeEntry, htab, htake, hdrop, map_asciiBytes hheader, treeHeader_header,
    bind_eq_ok, orFail_eq_ok, failIf_eq_ok, exists_unit, pure_eq_ok, Option.some.injEq] at h
  obtain ⟨-, -, -, groups, rfl, name, hname, -, id, hid, rfl⟩ := h
  refine ⟨rfl, rfl, ?_, (decodeTreeName_eq_ok hname).1⟩
  rw [← String.ofList_toList (s := e.objectId)]
  exact (exactObjectId_eq_ok hid).1

/-! ## Listings -/

theorem parseTreeEntries_lines {objectFormat : GitObjectFormat} {es : List StoredEntry}
    {names : List String} {ds : List DirectTreeEntry}
    (h : parseTreeEntries objectFormat (es.map StoredEntry.line) names = .ok ds) :
    List.Forall₂ StoredEntry.ReadAs es ds := by
  induction es generalizing names ds with
  | nil =>
    rw [List.map_nil, parseTreeEntries, pure_eq_ok] at h
    exact h ▸ .nil
  | cons e es ih =>
    simp only [List.map_cons, parseTreeEntries, bind_eq_ok, pure_eq_ok] at h
    obtain ⟨d, hd, rest, hrest, rfl⟩ := h
    exact .cons (parseTreeEntry_line hd) (ih hrest)

theorem free_lines (es : List StoredEntry) : Free 0 (es.map StoredEntry.line) := by
  intro line hline hnul
  obtain ⟨e, -, rfl⟩ := List.mem_map.mp hline
  rw [StoredEntry.line, List.mem_append, List.mem_cons] at hnul
  rcases hnul with hnul | hnul | hnul
  · exact (mem_asciiBytes (headerChar_header e) hnul).2.2 rfl
  · exact absurd hnul (by decide)
  · exact e.nulFree hnul

/-- **The entries of a tree**, in some order. -/
def EntriesOf (es : List StoredEntry) (ds : List DirectTreeEntry) : Prop :=
  ∃ ds', List.Forall₂ StoredEntry.ReadAs es ds' ∧ ds'.Perm ds

/-- **A listing is read into the entries it was written from.** -/
theorem parseDirectTree_listing {objectFormat : GitObjectFormat} {es : List StoredEntry}
    {ds : List DirectTreeEntry} (h : parseDirectTree (listing es) objectFormat = .ok ds) :
    EntriesOf es ds := by
  rw [parseDirectTree, bind_eq_ok] at h
  obtain ⟨-, -, h⟩ := h
  cases es with
  | nil =>
    rw [if_pos (show listing [] = [] from rfl), pure_eq_ok] at h
    exact h ▸ ⟨[], .nil, .nil⟩
  | cons e es =>
    have hne : listing (e :: es) ≠ [] := by
      simp [listing, terminated_cons]
    rw [if_neg hne, bind_eq_ok] at h
    obtain ⟨-, -, h⟩ := h
    rw [listing, splitOn_terminated (free_lines _), List.dropLast_concat, bind_eq_ok] at h
    obtain ⟨entries, hentries, h⟩ := h
    rw [pure_eq_ok] at h
    exact h ▸ ⟨entries, parseTreeEntries_lines hentries, (perm_sortOn _ entries).symm⟩

/-- An entry that was read stands in the tree. -/
theorem EntriesOf.exists_stored {es : List StoredEntry} {ds : List DirectTreeEntry}
    (h : EntriesOf es ds) {d : DirectTreeEntry} (hd : d ∈ ds) : ∃ e ∈ es, e.ReadAs d := by
  obtain ⟨ds', hreads, hperm⟩ := h
  exact exists_of_forall₂ hreads (hperm.mem_iff.mpr hd)

/-- Every entry of the tree was read. -/
theorem EntriesOf.exists_read {es : List StoredEntry} {ds : List DirectTreeEntry}
    (h : EntriesOf es ds) {e : StoredEntry} (he : e ∈ es) : ∃ d ∈ ds, e.ReadAs d := by
  obtain ⟨ds', hreads, hperm⟩ := h
  obtain ⟨d, hd, hread⟩ := exists_of_forall₂ hreads.flip he
  exact ⟨d, hperm.mem_iff.mp hd, hread⟩

end ObjectClosure
