import Lifecycle.Comparators
import Lifecycle.TextOrder
import Lifecycle.OrderedMap
import Mathlib.Data.List.Dedup

/-!
# Knowledge records

The records a Knowledge Set is made of, as `parseKnowledgeRecord` returns
them, with the fields the processors of a Knowledge Set read. What parsing
establishes about the texts of a record stays with it: its identity names its
kind, no text has a NUL, and no list of facts repeats one. The processors join
texts with NULs to order and to compare what they find, so this is what makes
their keys say what they are made of.
-/

open Json ControlModel Comparison

/-! ## Sorting by a key -/

namespace SortedBy

variable {α : Type}

/-- `compareCodePoints` is a comparison. -/
theorem codePoint : Comparison codePointLe :=
  ⟨fun _ _ => lexLe_total _ _, fun hab hbc => lexLe_trans hab hbc⟩

/-- `compareCodePoints` is 0 on equal texts only. -/
theorem codePointLe_antisymm {a b : String} (hab : codePointLe a b = true)
    (hba : codePointLe b a = true) : a = b := by
  have hmap := lexLe_antisymm hab hba
  exact String.toList_inj.mp (List.map_injective_iff.mpr (fun _ _ => Char.toNat_inj.mp) hmap)

theorem tied_codePoint {a b : String} : Tied codePointLe a b ↔ a = b := by
  refine ⟨fun h => codePointLe_antisymm h.1 h.2, ?_⟩
  rintro rfl
  exact ⟨codePoint.refl a, codePoint.refl a⟩

/-- `sort((left, right) => compareCodePoints(key(left), key(right)))`. -/
def sortOn (key : α → String) (l : List α) : List α :=
  sortWith (fun a b => codePointLe (key a) (key b)) l

theorem perm_sortOn (key : α → String) (l : List α) : (sortOn key l).Perm l :=
  perm_sortWith _ l

@[simp] theorem mem_sortOn {key : α → String} {l : List α} {a : α} : a ∈ sortOn key l ↔ a ∈ l :=
  mem_sortWith

/-- **What is sorted by a key that tells the entries apart does not depend on
the order they came in.** -/
theorem sortOn_eq_of_perm {key : α → String} {l l' : List α} (h : l.Perm l')
    (hkey : ∀ a ∈ l, ∀ b ∈ l, key a = key b → a = b) : sortOn key l = sortOn key l' :=
  sortWith_eq_of_perm (codePoint.comap key) h fun a ha b hb hab =>
    hkey a ha b hb (tied_codePoint.mp hab)

/-- `sortUniqueCodePoints`. -/
def sortUniqueCodePoints (values : List String) : List String := sortOn id values.dedup

theorem mem_sortUniqueCodePoints {values : List String} {v : String} :
    v ∈ sortUniqueCodePoints values ↔ v ∈ values := by
  rw [sortUniqueCodePoints, mem_sortOn, List.mem_dedup]

theorem sortUniqueCodePoints_eq_of_mem_iff {values values' : List String}
    (h : ∀ v, v ∈ values ↔ v ∈ values') :
    sortUniqueCodePoints values = sortUniqueCodePoints values' := by
  refine sortOn_eq_of_perm ?_ fun a _ b _ hab => hab
  refine (List.perm_ext_iff_of_nodup (List.nodup_dedup _) (List.nodup_dedup _)).mpr fun v => ?_
  rw [List.mem_dedup, List.mem_dedup, h]

/-! ## Keys joined with NULs -/

/-- A text without a NUL. -/
def NulFreeText (s : String) : Prop := '\x00' ∉ s.toList

instance (s : String) : Decidable (NulFreeText s) := inferInstanceAs (Decidable (_ ∉ _))

/-- The parts of a key, joined with NULs. -/
def nulJoin (parts : List String) : String :=
  String.ofList (['\x00'].intercalate (parts.map String.toList))

/-- **A joined key determines its parts.** -/
theorem nulJoin_inj {parts parts' : List String} (hne : parts ≠ []) (hne' : parts' ≠ [])
    (h : ∀ s ∈ parts, NulFreeText s) (h' : ∀ s ∈ parts', NulFreeText s)
    (heq : nulJoin parts = nulJoin parts') : parts = parts' := by
  have hsplit : ∀ ps : List String, ps ≠ [] → (∀ s ∈ ps, NulFreeText s) →
      (['\x00'].intercalate (ps.map String.toList)).splitOn '\x00' = ps.map String.toList := by
    intro ps hps hfree
    refine List.splitOn_intercalate '\x00' (fun l hl => ?_) (fun hnil => hps ?_)
    · obtain ⟨s, hs, rfl⟩ := List.mem_map.mp hl
      exact hfree s hs
    · exact List.map_eq_nil_iff.mp hnil
  have hlist := String.ofList_injective heq
  have hmap : parts.map String.toList = parts'.map String.toList := by
    rw [← hsplit parts hne h, ← hsplit parts' hne' h', hlist]
  exact List.map_injective_iff.mpr (fun _ _ => String.toList_inj.mp) hmap

end SortedBy

open SortedBy

/-! ## Records -/

namespace Knowledge

/-- `FoundationKnowledgeKind`. -/
inductive KnowledgeKind
  | behavior | assurance | blueprint | description | check | discipline
deriving DecidableEq

/-- The name of a kind. -/
def KnowledgeKind.text : KnowledgeKind → String
  | .behavior => "behavior"
  | .assurance => "assurance"
  | .blueprint => "blueprint"
  | .description => "description"
  | .check => "check"
  | .discipline => "discipline"

/-- `KIND_ORDER`. -/
def KnowledgeKind.order : KnowledgeKind → Nat
  | .behavior => 0
  | .assurance => 1
  | .blueprint => 2
  | .description => 3
  | .check => 4
  | .discipline => 5

/-- `FoundationKnowledgeStatus`. -/
inductive KnowledgeStatus
  | draft | current | superseded | retired
deriving DecidableEq

/-- The name of a status. -/
def KnowledgeStatus.text : KnowledgeStatus → String
  | .draft => "draft"
  | .current => "current"
  | .superseded => "superseded"
  | .retired => "retired"

/-- `FoundationKnowledgeRevisionIdentity`. -/
structure RevisionIdentity where
  id : String
  revision : Nat
  sourceDigest : Sha256Digest
  semanticDigest : Sha256Digest
deriving DecidableEq

/-- The types of a declared conflict. -/
inductive DeclaredType
  | assuranceLimit | blueprintConstraint
deriving DecidableEq

/-- `FoundationDeclaredConflict`. -/
structure DeclaredConflict where
  type : DeclaredType
  target : String
  localFact : String
  targetFact : String
deriving DecidableEq

/-- The modes of a coverage selector. -/
inductive SelectorMode
  | file | tree
deriving DecidableEq

/-- The name of a mode. -/
def SelectorMode.text : SelectorMode → String
  | .file => "file"
  | .tree => "tree"

/-- `FoundationCoverageSelector`; its role is always `primary`. -/
structure CoverageSelector where
  path : String
  mode : SelectorMode
  exclude : List String
deriving DecidableEq

/-- `FoundationKnowledgeSpec`, with the lists the processors read. -/
inductive KnowledgeSpec
  | behavior (included excluded : List String)
  | assurance (limits : List String)
  | blueprint (constraints : List String)
  | description (coverage : List CoverageSelector)
  | check
  | discipline
deriving DecidableEq

/-- The kind a spec is of. -/
def KnowledgeSpec.kind : KnowledgeSpec → KnowledgeKind
  | .behavior _ _ => .behavior
  | .assurance _ => .assurance
  | .blueprint _ => .blueprint
  | .description _ => .description
  | .check => .check
  | .discipline => .discipline

/-- The lists of facts of a spec. -/
def KnowledgeSpec.factLists : KnowledgeSpec → List (List String)
  | .behavior included excluded => [included, excluded]
  | .assurance limits => [limits]
  | .blueprint constraints => [constraints]
  | _ => []

/-- **`FoundationKnowledgeFrontMatter`**, with what parsing establishes: the
identity starts with the kind, the revision is in its range, texts have no NUL,
and `uniqueStrings` let no fact through twice. -/
structure FrontMatter where
  id : String
  status : KnowledgeStatus
  revision : Nat
  supersedes : Option RevisionIdentity
  conflicts : List DeclaredConflict
  spec : KnowledgeSpec
  idKind : (spec.kind.text ++ ".").toList <+: id.toList
  revisionRange : 1 ≤ revision ∧ revision ≤ 2147483647
  idText : NulFreeText id
  factTexts : ∀ facts ∈ spec.factLists, ∀ f ∈ facts, NulFreeText f
  uniqueFacts : ∀ facts ∈ spec.factLists, facts.Nodup
deriving DecidableEq

/-- The first revision of a record is in its range. -/
theorem firstRevision_inRange : 1 ≤ 1 ∧ 1 ≤ 2147483647 := by decide

/-- The kind of a record. -/
def FrontMatter.kind (f : FrontMatter) : KnowledgeKind := f.spec.kind

/-- **`FoundationKnowledgeRecord`.** -/
structure KnowledgeRecord where
  path : String
  frontMatter : FrontMatter
  sourceDigest : Sha256Digest
  semanticDigest : Sha256Digest
deriving DecidableEq

/-- Two kinds' names with a dot never begin one text. -/
theorem kind_eq_of_isPrefix {k k' : KnowledgeKind} {id : List Char}
    (h : (k.text ++ ".").toList <+: id) (h' : (k'.text ++ ".").toList <+: id) : k = k' := by
  have hkinds : ∀ a b : KnowledgeKind, a ≠ b →
      ¬ (a.text ++ ".").toList <+: (b.text ++ ".").toList := by
    intro a b hab
    cases a <;> cases b <;> first | exact absurd rfl hab | decide
  by_contra hne
  obtain hle | hle := Nat.le_total (k.text ++ ".").toList.length (k'.text ++ ".").toList.length
  · exact hkinds k k' hne (List.prefix_of_prefix_length_le h h' hle)
  · exact hkinds k' k (Ne.symm hne) (List.prefix_of_prefix_length_le h' h hle)

/-- **The records of one identity are of one kind.** -/
theorem kind_eq_of_id_eq {f f' : FrontMatter} (h : f.id = f'.id) : f.kind = f'.kind := by
  have hkind := f'.idKind
  rw [← h] at hkind
  exact kind_eq_of_isPrefix f.idKind hkind

/-! ## Diagnostics -/

/-- `DiagnosticSeverity`. -/
inductive Severity
  | error | warning | information
deriving DecidableEq

/-- **What a processor hands to `DiagnosticCollector.add`.** -/
structure Diagnostic where
  stage : String
  code : String
  severity : Severity := .error
  message : String
  path : Option String := none
  related : List String := []
  facts : JsonObject := []

end Knowledge
