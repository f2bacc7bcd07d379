import Lifecycle.EventDrafts
import Lifecycle.KeyOrder
import Lifecycle.KnowledgeModel
import Mathlib.Data.List.DropRight

/-!
# Compiling a record revision again

What `compileControlRecordRevision` makes of an input depends on less than
the input: on its Markdown up to the spelling of line ends and the newlines
at its end (`markdownBody`), on its payload up to the order of keys
(`canonicalOrder`), and on its relationships up to their order. Each part of
a compiled revision stands for itself, so a revision compiles to itself, and
inputs that differ in none of this compile to the same revision, digest
included.
-/

open Fallible Json ControlModel Comparison SortedBy

/-! ## Bounds -/

namespace ControlModel

mutual
/-- **A value within bounds**, found at a depth. -/
def Bounded (maximumBytes : Nat) : Nat → Json → Prop
  | depth, .string s => depth ≤ maximumJsonDepth ∧ byteLength s ≤ maximumBytes
  | depth, .array items => depth ≤ maximumJsonDepth ∧ items.length ≤ maximumJsonMembers
      ∧ BoundedItems maximumBytes (depth + 1) items
  | depth, .object members => depth ≤ maximumJsonDepth ∧ members.length ≤ maximumJsonMembers
      ∧ BoundedMembers maximumBytes (depth + 1) members
  | depth, .null => depth ≤ maximumJsonDepth
  | depth, .bool _ => depth ≤ maximumJsonDepth
  | depth, .number _ => depth ≤ maximumJsonDepth

def BoundedItems (maximumBytes : Nat) : Nat → List Json → Prop
  | _, [] => True
  | depth, item :: items => Bounded maximumBytes depth item ∧ BoundedItems maximumBytes depth items

def BoundedMembers (maximumBytes : Nat) : Nat → List (String × Json) → Prop
  | _, [] => True
  | depth, (_, value) :: members =>
    Bounded maximumBytes depth value ∧ BoundedMembers maximumBytes depth members
end

theorem boundedItems_iff {maximumBytes depth : Nat} {items : List Json} :
    BoundedItems maximumBytes depth items ↔ ∀ item ∈ items, Bounded maximumBytes depth item := by
  induction items with
  | nil => simp [BoundedItems]
  | cons item items ih => rw [BoundedItems, ih, List.forall_mem_cons]

theorem boundedMembers_iff {maximumBytes depth : Nat} {members : List (String × Json)} :
    BoundedMembers maximumBytes depth members
      ↔ ∀ value ∈ members.map Prod.snd, Bounded maximumBytes depth value := by
  induction members with
  | nil => simp [BoundedMembers]
  | cons m members ih => rw [BoundedMembers, ih, List.map_cons, List.forall_mem_cons]

/-- The values a stack still holds. -/
def stacked (pending : List (Json × Nat)) : Nat := (pending.map fun p => nodeCount p.1).sum

theorem stacked_pushMembers (members : List Json) (depth : Nat) (pending : List (Json × Nat)) :
    stacked (pushMembers members depth pending)
      = (members.map nodeCount).sum + stacked pending := by
  rw [stacked, pushMembers, List.map_append, List.sum_append, List.map_reverse, List.sum_reverse,
    List.map_map]
  rfl

theorem forall_pushMembers {maximumBytes depth : Nat} {members : List Json}
    {pending : List (Json × Nat)} :
    (∀ p ∈ pushMembers members depth pending, Bounded maximumBytes p.2 p.1)
      ↔ (∀ member ∈ members, Bounded maximumBytes (depth + 1) member)
        ∧ ∀ p ∈ pending, Bounded maximumBytes p.2 p.1 := by
  simp only [pushMembers, List.mem_append, List.mem_reverse, or_imp, forall_and,
    List.forall_mem_map]

/-- **The walk goes through exactly on values within bounds**, no more of them
than may be visited. -/
theorem boundsWalk_eq_ok {label : String} {maximumBytes remaining : Nat}
    {pending : List (Json × Nat)} :
    boundsWalk label maximumBytes remaining pending = .ok ()
      ↔ stacked pending ≤ remaining ∧ ∀ p ∈ pending, Bounded maximumBytes p.2 p.1 := by
  induction remaining generalizing pending with
  | zero =>
    cases pending with
    | nil => exact ⟨fun _ => ⟨Nat.le_refl 0, fun _ hp => absurd hp List.not_mem_nil⟩, fun _ => rfl⟩
    | cons p pending =>
      refine ⟨fun h => (by cases h), fun h => ?_⟩
      have hpos := nodeCount_pos p.1
      have hcount := h.1
      rw [stacked, List.map_cons, List.sum_cons] at hcount
      omega
  | succ remaining ih =>
    cases pending with
    | nil => exact ⟨fun _ => ⟨Nat.zero_le _, fun _ hp => absurd hp List.not_mem_nil⟩, fun _ => rfl⟩
    | cons p pending =>
      obtain ⟨value, depth⟩ := p
      rw [List.forall_mem_cons]
      have hstacked : stacked ((value, depth) :: pending) = nodeCount value + stacked pending := by
        rw [stacked, List.map_cons, List.sum_cons]
        rfl
      rw [hstacked]
      cases value with
      | array items =>
        simp only [boundsWalk, bind_eq_ok, failIf_eq_ok, exists_unit, ih, stacked_pushMembers,
          forall_pushMembers, nodeCount, nodeCountItems_eq, Bounded, boundedItems_iff,
          Nat.not_lt]
        constructor
        · rintro ⟨hdepth, hmembers, hcount, hitems, hpending⟩
          exact ⟨by omega, ⟨hdepth, hmembers, hitems⟩, hpending⟩
        · rintro ⟨hcount, ⟨hdepth, hmembers, hitems⟩, hpending⟩
          exact ⟨hdepth, hmembers, by omega, hitems, hpending⟩
      | object members =>
        simp only [boundsWalk, bind_eq_ok, failIf_eq_ok, exists_unit, ih, stacked_pushMembers,
          forall_pushMembers, nodeCount, nodeCountMembers_eq, Bounded, boundedMembers_iff,
          Nat.not_lt]
        constructor
        · rintro ⟨hdepth, hmembers, hcount, hvalues, hpending⟩
          exact ⟨by omega, ⟨hdepth, hmembers, hvalues⟩, hpending⟩
        · rintro ⟨hcount, ⟨hdepth, hmembers, hvalues⟩, hpending⟩
          exact ⟨hdepth, hmembers, by omega, hvalues, hpending⟩
      | string s =>
        simp only [boundsWalk, bind_eq_ok, failIf_eq_ok, exists_unit, ih, nodeCount, Bounded,
          Nat.not_lt]
        constructor
        · rintro ⟨hdepth, hbytes, hcount, hpending⟩
          exact ⟨by omega, ⟨hdepth, hbytes⟩, hpending⟩
        · rintro ⟨hcount, ⟨hdepth, hbytes⟩, hpending⟩
          exact ⟨hdepth, hbytes, by omega, hpending⟩
      | null | bool b | number n =>
        simp only [boundsWalk, bind_eq_ok, failIf_eq_ok, exists_unit, ih, nodeCount, Bounded,
          Nat.not_lt]
        constructor
        · rintro ⟨hdepth, hcount, hpending⟩
          exact ⟨by omega, hdepth, hpending⟩
        · rintro ⟨hcount, hdepth, hpending⟩
          exact ⟨hdepth, by omega, hpending⟩

mutual
theorem nodeCount_canonicalOrder : ∀ v : Json, nodeCount (canonicalOrder v) = nodeCount v
  | .null | .bool _ | .number _ | .string _ => rfl
  | .array items => by
    rw [canonicalOrder, nodeCount, nodeCount, nodeCountItems_canonicalOrder items]
  | .object members => by
    rw [canonicalOrder_object, nodeCount, nodeCount, ← nodeCountMembers_canonicalOrder members,
      nodeCountMembers_eq, nodeCountMembers_eq]
    have hperm := ((perm_sortWith byName (canonicalOrderMembers members)).map Prod.snd).map
      nodeCount
    rw [hperm.sum_nat]

theorem nodeCountItems_canonicalOrder : ∀ items : List Json,
    nodeCountItems (canonicalOrderItems items) = nodeCountItems items
  | [] => rfl
  | item :: items => by
    rw [canonicalOrderItems, nodeCountItems, nodeCountItems, nodeCount_canonicalOrder item,
      nodeCountItems_canonicalOrder items]

theorem nodeCountMembers_canonicalOrder : ∀ members : List (String × Json),
    nodeCountMembers (canonicalOrderMembers members) = nodeCountMembers members
  | [] => rfl
  | (_, value) :: members => by
    rw [canonicalOrderMembers, nodeCountMembers, nodeCountMembers, nodeCount_canonicalOrder value,
      nodeCountMembers_canonicalOrder members]
end

mutual
theorem bounded_canonicalOrder {maximumBytes : Nat} : ∀ {depth : Nat} (v : Json),
    Bounded maximumBytes depth (canonicalOrder v) ↔ Bounded maximumBytes depth v
  | _, .null | _, .bool _ | _, .number _ | _, .string _ => Iff.rfl
  | depth, .array items => by
    rw [canonicalOrder, Bounded, Bounded, boundedItems_canonicalOrder items,
      canonicalOrderItems_eq, List.length_map]
  | depth, .object members => by
    have hperm := perm_sortWith byName (canonicalOrderMembers members)
    have hlength : (sortWith byName (canonicalOrderMembers members)).length = members.length := by
      rw [hperm.length_eq, canonicalOrderMembers_eq, List.length_map]
    rw [canonicalOrder_object, Bounded, Bounded, hlength,
      ← boundedMembers_canonicalOrder members, boundedMembers_iff, boundedMembers_iff]
    simp only [(hperm.map Prod.snd).mem_iff]

theorem boundedItems_canonicalOrder {maximumBytes : Nat} : ∀ {depth : Nat} (items : List Json),
    BoundedItems maximumBytes depth (canonicalOrderItems items)
      ↔ BoundedItems maximumBytes depth items
  | _, [] => Iff.rfl
  | _, item :: items => by
    rw [canonicalOrderItems, BoundedItems, BoundedItems, bounded_canonicalOrder item,
      boundedItems_canonicalOrder items]

theorem boundedMembers_canonicalOrder {maximumBytes : Nat} :
    ∀ {depth : Nat} (members : List (String × Json)),
    BoundedMembers maximumBytes depth (canonicalOrderMembers members)
      ↔ BoundedMembers maximumBytes depth members
  | _, [] => Iff.rfl
  | _, (_, value) :: members => by
    rw [canonicalOrderMembers, BoundedMembers, BoundedMembers, bounded_canonicalOrder value,
      boundedMembers_canonicalOrder members]
end

/-! ## Payloads -/

/-- **The text of a payload**, when it is within its bounds. -/
theorem boundedControlJson_eq_ok {value : JsonObject} {label : String} {maximumBytes : Nat}
    {text : List UInt8} :
    boundedControlJson value label maximumBytes = .ok text
      ↔ (nodeCount (.object value) ≤ maximumJsonValues ∧ Bounded maximumBytes 1 (.object value))
        ∧ canonicalJson (.object value) = .ok text ∧ text.length ≤ maximumBytes := by
  simp only [boundedControlJson, bind_eq_ok, exists_unit, boundsWalk_eq_ok, List.forall_mem_singleton,
    stacked, List.map_cons, List.map_nil, List.sum_cons, List.sum_nil, Nat.add_zero]
  refine and_congr_right fun _ => ?_
  cases canonicalJson (.object value) with
  | error e =>
    constructor
    · intro h
      cases h
    · rintro ⟨h, -⟩
      cases h
  | ok canonical =>
    simp only [bind_eq_ok, failIf_eq_ok, exists_unit, pure_eq_ok, Nat.not_lt, Except.ok.injEq]
    constructor
    · rintro ⟨hlength, rfl⟩
      exact ⟨rfl, hlength⟩
    · rintro ⟨rfl, hlength⟩
      exact ⟨hlength, rfl⟩

/-- Payloads that are the same in canonical order have the same text. -/
theorem boundedControlJson_congr {value value' : JsonObject} {label label' : String}
    {maximumBytes : Nat} {text : List UInt8}
    (hsame : canonicalOrder (.object value) = canonicalOrder (.object value'))
    (h : boundedControlJson value label maximumBytes = .ok text) :
    boundedControlJson value' label' maximumBytes = .ok text := by
  rw [boundedControlJson_eq_ok, canonicalJson, ← canonicalize_canonicalOrder,
    ← nodeCount_canonicalOrder, ← bounded_canonicalOrder] at h ⊢
  rwa [← hsame]

/-- **A payload is normalized by its canonical order alone.** -/
theorem normalizedControlJsonObject_congr {value value' payload : JsonObject}
    {label label' : String} {maximumBytes : Nat}
    (hsame : canonicalOrder (.object value) = canonicalOrder (.object value'))
    (h : normalizedControlJsonObject value label maximumBytes = .ok payload) :
    normalizedControlJsonObject value' label' maximumBytes = .ok payload := by
  simp only [normalizedControlJsonObject, bind_eq_ok, pure_eq_ok] at h ⊢
  obtain ⟨text, htext, rfl⟩ := h
  exact ⟨text, boundedControlJson_congr hsame htext, (parsedCanonical_congr hsame).symm⟩

theorem normalizedControlJsonObject_eq {value payload : JsonObject} {label : String}
    {maximumBytes : Nat} (h : normalizedControlJsonObject value label maximumBytes = .ok payload) :
    payload = parsedCanonical value := by
  simp only [normalizedControlJsonObject, bind_eq_ok, pure_eq_ok] at h
  obtain ⟨_, -, rfl⟩ := h
  rfl

/-! ## Semantic Markdown -/

/-- **What normalization keeps of a Markdown text**: its lines end with LF,
and no newline is at its end. -/
def markdownBody (value : String) : List Char :=
  ((unixLineEndings value.toList).reverse.dropWhile (· == '\n')).reverse

theorem mem_unixLineEndings {c : Char} (hc : c ≠ '\r') : ∀ {cs : List Char},
    c ∈ unixLineEndings cs ↔ c ∈ cs := by
  intro cs
  induction cs using unixLineEndings.induct with
  | case1 cs ih => simp [unixLineEndings, ih, hc]
  | case2 d cs hne ih => rw [unixLineEndings.eq_2 d cs hne, List.mem_cons, List.mem_cons, ih]
  | case3 => rfl

theorem head_unixLineEndings {c : Char} (hr : c ≠ '\r') (hn : c ≠ '\n') {cs : List Char} :
    (unixLineEndings cs).head? = some c ↔ cs.head? = some c := by
  induction cs using unixLineEndings.induct with
  | case1 cs ih =>
    rw [unixLineEndings, List.head?_cons, List.head?_cons]
    exact ⟨fun h => absurd (Option.some.inj h).symm hn, fun h => absurd (Option.some.inj h).symm hr⟩
  | case2 d cs hne ih => rw [unixLineEndings.eq_2 d cs hne, List.head?_cons, List.head?_cons]
  | case3 => rfl

theorem unixLineEndings_of_not_mem {cs : List Char} (h : '\r' ∉ cs) : unixLineEndings cs = cs := by
  induction cs using unixLineEndings.induct with
  | case1 cs ih => exact absurd List.mem_cons_self h
  | case2 d cs hne ih =>
    rw [unixLineEndings.eq_2 d cs hne, ih fun hmem => h (List.mem_cons_of_mem _ hmem)]
  | case3 => rfl

/-- A text with LF line ends is its body and newlines. -/
theorem exists_newlines (value : String) : ∃ newlines, (∀ c ∈ newlines, c = '\n')
    ∧ unixLineEndings value.toList = markdownBody value ++ newlines := by
  refine ⟨((unixLineEndings value.toList).reverse.takeWhile (· == '\n')).reverse, fun c hc => ?_,
    ?_⟩
  · have hnewline := List.mem_takeWhile_imp (List.mem_reverse.mp hc)
    exact eq_of_beq hnewline
  · rw [markdownBody, ← List.reverse_append, List.takeWhile_append_dropWhile, List.reverse_reverse]

theorem mem_markdownBody {c : Char} (hn : c ≠ '\n') {value : String} :
    c ∈ unixLineEndings value.toList ↔ c ∈ markdownBody value := by
  obtain ⟨newlines, hnewlines, heq⟩ := exists_newlines value
  rw [heq, List.mem_append, or_iff_left fun hmem => hn (hnewlines c hmem)]

theorem head_markdownBody {c : Char} (hn : c ≠ '\n') {value : String} :
    (unixLineEndings value.toList).head? = some c ↔ (markdownBody value).head? = some c := by
  obtain ⟨newlines, hnewlines, heq⟩ := exists_newlines value
  rw [heq, List.head?_append]
  cases hbody : markdownBody value with
  | nil =>
    simp only [List.head?_nil, Option.none_or]
    refine ⟨fun h => ?_, fun h => by cases h⟩
    exact absurd (hnewlines c (List.mem_of_mem_head? h)) hn
  | cons d body => simp only [List.head?_cons, Option.some_or]

/-- **A Markdown body that normalization admits.** -/
structure AdmittedBody (body : List Char) : Prop where
  nul : '\x00' ∉ body
  mark : body.head? ≠ some '\ufeff'
  carriage : '\r' ∉ body
  content : ¬ (body ++ ['\n']).all isTrimmed = true
  length : byteLength (String.ofList (body ++ ['\n'])) ≤ maximumSemanticMarkdownBytes

end ControlModel

/-- **Markdown is normalized by its body alone.** -/
theorem normalizeSemanticMarkdown_eq_ok {value out : String} :
    normalizeSemanticMarkdown value = .ok out
      ↔ AdmittedBody (markdownBody value) ∧ out = String.ofList (markdownBody value ++ ['\n']) := by
  have hnul : '\x00' ∈ value.toList ↔ '\x00' ∈ markdownBody value :=
    (mem_unixLineEndings (by decide)).symm.trans (mem_markdownBody (by decide))
  have hmark : value.toList.head? = some '\ufeff' ↔ (markdownBody value).head? = some '\ufeff' :=
    (head_unixLineEndings (by decide) (by decide)).symm.trans (head_markdownBody (by decide))
  have hcarriage : '\r' ∈ unixLineEndings value.toList ↔ '\r' ∈ markdownBody value :=
    mem_markdownBody (by decide)
  simp only [normalizeSemanticMarkdown, bind_eq_ok, failIf_eq_ok, exists_unit, pure_eq_ok, hnul,
    hmark, hcarriage, not_or, Nat.not_lt]
  constructor
  · rintro ⟨⟨hn, hm⟩, hc, hcontent, hlength, rfl⟩
    exact ⟨⟨hn, hm, hc, hcontent, hlength⟩, rfl⟩
  · rintro ⟨⟨hn, hm, hc, hcontent, hlength⟩, rfl⟩
    exact ⟨⟨hn, hm⟩, hc, hcontent, hlength, rfl⟩

/-- The body of a normalized text is the body it was made from. -/
theorem ControlModel.markdownBody_normalized {value out : String}
    (h : normalizeSemanticMarkdown value = .ok out) : markdownBody out = markdownBody value := by
  obtain ⟨hadmitted, rfl⟩ := normalizeSemanticMarkdown_eq_ok.mp h
  have hcarriage : '\r' ∉ markdownBody value ++ ['\n'] := by
    simpa using hadmitted.carriage
  rw [markdownBody, String.toList_ofList, unixLineEndings_of_not_mem hcarriage,
    List.reverse_append, List.reverse_singleton, List.singleton_append,
    List.dropWhile_cons_of_pos (p := (· == '\n')) (beq_self_eq_true '\n'), markdownBody,
    List.reverse_reverse, List.dropWhile_idempotent]

/-- **Markdown normalization is idempotent.** -/
theorem normalizeSemanticMarkdown_normalized {value out : String}
    (h : normalizeSemanticMarkdown value = .ok out) : normalizeSemanticMarkdown out = .ok out := by
  obtain ⟨hadmitted, hout⟩ := normalizeSemanticMarkdown_eq_ok.mp h
  have hbody := markdownBody_normalized h
  exact normalizeSemanticMarkdown_eq_ok.mpr ⟨hbody ▸ hadmitted, hbody ▸ hout⟩

/-! ## Relationships -/

namespace ControlModel

/-- **A relationship that normalization admits.** -/
structure LinkAdmitted (link : ControlRecordRelationship) : Prop where
  relation : ¬ (matchesRelationPattern link.relation = false ∨ 160 < byteLength link.relation)
  revision : ¬ (link.target.revision < 1 ∨ maxSafeInteger < link.target.revision)
  digest : ¬ isSha256 link.target.digest = false
  kind : ¬ (matchesRelationPattern link.target.kind = false
    ∨ 160 < byteLength link.target.kind)
  id : ¬ isIdentifier link.target.id = false

theorem normalizedRelationship_eq_ok {index : Nat} {link out : ControlRecordRelationship} :
    normalizedRelationship index link = .ok out ↔ LinkAdmitted link ∧ out = link := by
  simp only [normalizedRelationship, controlRecordKind, controlIdentifier, bind_eq_ok,
    failIf_eq_ok, exists_unit, pure_eq_ok]
  constructor
  · rintro ⟨_, ⟨hrelation, rfl⟩, hrevision, hdigest, _, ⟨hkind, rfl⟩, _, ⟨hid, rfl⟩, rfl⟩
    exact ⟨⟨hrelation, hrevision, hdigest, hkind, hid⟩, rfl⟩
  · rintro ⟨⟨hrelation, hrevision, hdigest, hkind, hid⟩, rfl⟩
    exact ⟨_, ⟨hrelation, rfl⟩, hrevision, hdigest, _, ⟨hkind, rfl⟩, _, ⟨hid, rfl⟩, rfl⟩

/-- Relationships are checked one by one, and stay as they are. -/
theorem mapM_normalizedRelationship {links out : List ControlRecordRelationship} (n : Nat) :
    ((links.zipIdx n).mapM fun v => normalizedRelationship (v.2 + 1) v.1) = .ok out
      ↔ (∀ link ∈ links, LinkAdmitted link) ∧ out = links := by
  induction links generalizing n out with
  | nil =>
    rw [List.zipIdx_nil, List.mapM_nil, pure_eq_ok]
    exact ⟨fun h => ⟨fun _ hl => absurd hl List.not_mem_nil, h.symm⟩, fun h => h.2.symm⟩
  | cons link links ih =>
    simp only [List.zipIdx_cons, List.mapM_cons, bind_eq_ok, pure_eq_ok, ih,
      normalizedRelationship_eq_ok, List.forall_mem_cons]
    constructor
    · rintro ⟨_, ⟨hlink, rfl⟩, _, ⟨hlinks, rfl⟩, rfl⟩
      exact ⟨⟨hlink, hlinks⟩, rfl⟩
    · rintro ⟨⟨hlink, hlinks⟩, rfl⟩
      exact ⟨_, ⟨hlink, rfl⟩, _, ⟨hlinks, rfl⟩, rfl⟩

/-- **Relationships are normalized by sorting them**, when each is admitted
and none is there twice. -/
theorem normalizedRelationships_eq_ok {links out : List ControlRecordRelationship} :
    normalizedRelationships links = .ok out
      ↔ links.length ≤ maximumRelationships ∧ (∀ link ∈ links, LinkAdmitted link)
        ∧ (links.map relationshipKey).Nodup ∧ out = sortOn relationshipKey links := by
  simp only [normalizedRelationships, bind_eq_ok, failIf_eq_ok, exists_unit, pure_eq_ok,
    mapM_normalizedRelationship, Nat.not_lt, not_not]
  have hnodup : ((sortOn relationshipKey links).map relationshipKey).Nodup
      ↔ (links.map relationshipKey).Nodup :=
    ((perm_sortOn relationshipKey links).map _).nodup_iff
  constructor
  · rintro ⟨hlength, _, ⟨hadmitted, rfl⟩, hunique, rfl⟩
    exact ⟨hlength, hadmitted, hnodup.mp hunique, rfl⟩
  · rintro ⟨hlength, hadmitted, hunique, rfl⟩
    exact ⟨hlength, _, ⟨hadmitted, rfl⟩, hnodup.mpr hunique, rfl⟩

/-- **The order relationships come in does not matter.** -/
theorem normalizedRelationships_perm {links links' out : List ControlRecordRelationship}
    (hperm : links'.Perm links) (h : normalizedRelationships links = .ok out) :
    normalizedRelationships links' = .ok out := by
  obtain ⟨hlength, hadmitted, hunique, rfl⟩ := normalizedRelationships_eq_ok.mp h
  refine normalizedRelationships_eq_ok.mpr ⟨hperm.length_eq ▸ hlength,
    fun link hlink => hadmitted link (hperm.mem_iff.mp hlink),
    (hperm.map _).nodup_iff.mpr hunique, sortOn_eq_of_perm hperm.symm fun a ha b hb hab => ?_⟩
  exact List.inj_on_of_nodup_map hunique ha hb hab

theorem normalizedRelationships_isPerm {links out : List ControlRecordRelationship}
    (h : normalizedRelationships links = .ok out) : out.Perm links := by
  obtain ⟨-, -, -, rfl⟩ := normalizedRelationships_eq_ok.mp h
  exact perm_sortOn _ _

end ControlModel

/-! ## Compilation -/

namespace ControlModel

/-- The fields of a revision, as an input. -/
def inputOf (r : ControlRecordRevision) : ControlRecordRevisionInput where
  recordId := r.recordId
  recordKind := r.recordKind
  revision := r.revision
  producer := r.producer
  semanticAuthor := r.semanticAuthor
  semanticAuthority := r.semanticAuthority
  createdAt := r.createdAt
  semanticMarkdown := r.semanticMarkdown
  payload := r.payload
  relationships := r.relationships

/-- **Two inputs with the same normal form**: the same but for line ends and
final newlines, the order of keys and the order of relationships. -/
structure SameContent (a b : ControlRecordRevisionInput) : Prop where
  fields : b = { a with
    semanticMarkdown := b.semanticMarkdown
    payload := b.payload
    relationships := b.relationships }
  semanticMarkdown : markdownBody a.semanticMarkdown = markdownBody b.semanticMarkdown
  payload : canonicalOrder (.object a.payload) = canonicalOrder (.object b.payload)
  relationships : b.relationships.Perm a.relationships

end ControlModel

/-- **A revision is compiled from the normal form of its input.** -/
theorem compileControlRecordRevision_congr {processId : String}
    {a b : ControlRecordRevisionInput} {r : ControlRecordRevision} (hsame : SameContent a b)
    (h : compileControlRecordRevision processId a = .ok r) :
    compileControlRecordRevision processId b = .ok r := by
  obtain ⟨hfields, hmarkdown, hpayload, hlinks⟩ := hsame
  generalize b.semanticMarkdown = markdown at hfields hmarkdown
  generalize b.payload = payload at hfields hpayload
  generalize b.relationships = links at hfields hlinks
  subst hfields
  simp only [compileControlRecordRevision, bind_eq_ok, failIf_eq_ok, exists_unit, pure_eq_ok] at h ⊢
  obtain ⟨recordId, hrecordId, recordKind, hrecordKind, hrevision, producer, hproducer, author,
    hauthor, normalized, hnormalized, relationships, hrelationships, object, hobject, process,
    hprocess, createdAt, hcreatedAt, digest, hdigest, rfl⟩ := h
  refine ⟨recordId, hrecordId, recordKind, hrecordKind, hrevision, producer, hproducer, author,
    hauthor, normalized, ?_, relationships, normalizedRelationships_perm hlinks hrelationships,
    object, normalizedControlJsonObject_congr hpayload hobject, process, hprocess, createdAt,
    hcreatedAt, digest, hdigest, rfl⟩
  rw [normalizeSemanticMarkdown_eq_ok] at hnormalized ⊢
  rwa [← hmarkdown]

/-- The fields of a compiled revision have the normal form of its input. -/
theorem ControlModel.sameContent_inputOf {processId : String} {input : ControlRecordRevisionInput}
    {r : ControlRecordRevision} (h : compileControlRecordRevision processId input = .ok r) :
    r.processId = processId ∧ SameContent input (inputOf r) := by
  simp only [compileControlRecordRevision, normalizedActor, controlIdentifier, controlRecordKind,
    bind_eq_ok, failIf_eq_ok, exists_unit, pure_eq_ok] at h
  obtain ⟨_, ⟨-, rfl⟩, _, ⟨-, rfl⟩, -, _, ⟨_, ⟨-, rfl⟩, rfl⟩, _, ⟨_, ⟨-, rfl⟩, rfl⟩, markdown,
    hmarkdown, links, hlinks, payload, hpayload, _, ⟨-, rfl⟩, _, hcreatedAt, _, -, rfl⟩ := h
  obtain ⟨rfl, -⟩ := controlTimestamp_eq_ok_iff.mp hcreatedAt
  refine ⟨rfl, rfl, (markdownBody_normalized hmarkdown).symm, ?_,
    normalizedRelationships_isPerm hlinks⟩
  rw [normalizedControlJsonObject_eq hpayload]
  exact (canonicalOrder_parsedCanonical _).symm

/-- **A revision compiles to itself.** -/
theorem compileControlRecordRevision_inputOf {processId : String}
    {input : ControlRecordRevisionInput} {r : ControlRecordRevision}
    (h : compileControlRecordRevision processId input = .ok r) :
    compileControlRecordRevision r.processId (inputOf r) = .ok r := by
  obtain ⟨hprocess, hsame⟩ := sameContent_inputOf h
  rw [hprocess]
  exact compileControlRecordRevision_congr hsame h
