import Lifecycle.Json

/-!
# JSON Schema

The assertions of a JSON Schema the record families use, and what a value
violates of them. `Schema.violations` counts the failed assertions, as a
validator that reports every error does; a value is accepted when there is
none. References are resolved by sharing the Lean term, and a pattern or a
format is the predicate it denotes.
-/

open Json

/-- **A schema**: one assertion, or several of one value. -/
inductive Schema
  /-- The keywords of one schema object. -/
  | all (schemas : List Schema)
  /-- `type`, as the predicate of the type. -/
  | type (holds : Json → Bool)
  /-- `const`, of a string. -/
  | constString (value : String)
  /-- `const`, of a boolean. -/
  | constBool (value : Bool)
  /-- `enum`, of strings. -/
  | enum (values : List String)
  /-- `required`. -/
  | required (names : List String)
  /-- One entry of `properties`. -/
  | property (name : String) (schema : Schema)
  /-- `additionalProperties: false`, with the names of `properties`. -/
  | closed (names : List String)
  /-- `items`. -/
  | items (schema : Schema)
  | minItems (n : Nat)
  | maxItems (n : Nat)
  | uniqueItems
  | minLength (n : Nat)
  | maxLength (n : Nat)
  /-- `pattern` or `format`, as the predicate of the texts that match. -/
  | pattern (matching : String → Bool)
  | minimum (n : Int)
  | maximum (n : Int)
  | oneOf (schemas : List Schema)
  /-- `if`, `then` and `else`. -/
  | cond (test consequent alternative : Schema)

namespace Schema

/-! ## Types -/

def isObject : Json → Bool
  | .object _ => true
  | _ => false

def isArray : Json → Bool
  | .array _ => true
  | _ => false

def isString : Json → Bool
  | .string _ => true
  | _ => false

def isBoolean : Json → Bool
  | .bool _ => true
  | _ => false

def isNull : Json → Bool
  | .null => true
  | _ => false

def isInteger : Json → Bool
  | .number (.integer _) => true
  | _ => false

/-- The number of characters of a text: its bytes that do not continue a
character. -/
def characterCount (s : String) : Nat :=
  (utf8Bytes s).countP fun b => b.toNat / 64 ≠ 2

/-- Deep equality of values in the canonical domain. -/
def deepEqual (a b : Json) : Bool :=
  match canonicalJson a, canonicalJson b with
  | .ok x, .ok y => decide (x = y)
  | _, _ => false

/-- Whether some item equals an earlier one. -/
def hasDuplicate : List Json → Bool
  | [] => false
  | v :: vs => vs.any (deepEqual v) || hasDuplicate vs

/-- One violation when the test fails. -/
def failsUnless (test : Bool) : Nat := if test then 0 else 1

theorem failsUnless_eq_zero {test : Bool} : failsUnless test = 0 ↔ test = true := by
  cases test <;> simp [failsUnless]

/-! ## Validation -/

mutual
/-- **The number of assertions a value violates.** -/
def violations : Schema → Json → Nat
  | .all schemas, v => violationsOf schemas v
  | .type holds, v => failsUnless (holds v)
  | .constString s, .string t => failsUnless (decide (t = s))
  | .constString _, _ => 1
  | .constBool b, .bool c => failsUnless (b == c)
  | .constBool _, _ => 1
  | .enum values, .string s => failsUnless (decide (s ∈ values))
  | .enum _, _ => 1
  | .required names, .object o => (names.filter fun name => !hasOwn o name).length
  | .property name schema, .object o =>
    match member name o with
    | some v => violations schema v
    | none => 0
  | .closed names, .object o => ((keys o).filter fun name => decide (name ∉ names)).length
  | .items schema, .array vs => (vs.map fun v => violations schema v).sum
  | .minItems n, .array vs => failsUnless (decide (n ≤ vs.length))
  | .maxItems n, .array vs => failsUnless (decide (vs.length ≤ n))
  | .uniqueItems, .array vs => failsUnless (!hasDuplicate vs)
  | .minLength n, .string s => failsUnless (decide (n ≤ characterCount s))
  | .maxLength n, .string s => failsUnless (decide (characterCount s ≤ n))
  | .pattern matching, .string s => failsUnless (matching s)
  | .minimum n, .number (.integer k) => failsUnless (decide (n ≤ k))
  | .maximum n, .number (.integer k) => failsUnless (decide (k ≤ n))
  | .oneOf schemas, v =>
    -- Exactly one branch holds, or the branches' own errors and one more are reported.
    let counts := violationsEach schemas v
    if counts.count 0 = 1 then 0 else counts.sum + 1
  | .cond test consequent alternative, v =>
    let inner := if violations test v = 0 then violations consequent v
      else violations alternative v
    if inner = 0 then 0 else inner + 1
  | _, _ => 0

/-- The violations of every schema of a list. -/
def violationsOf : List Schema → Json → Nat
  | [], _ => 0
  | schema :: schemas, v => violations schema v + violationsOf schemas v

/-- The violations of each schema of a list. -/
def violationsEach : List Schema → Json → List Nat
  | [], _ => []
  | schema :: schemas, v => violations schema v :: violationsEach schemas v
end

/-- Whether a schema accepts a value. -/
def accepts (schema : Schema) (v : Json) : Bool := decide (violations schema v = 0)

theorem accepts_iff {schema : Schema} {v : Json} :
    accepts schema v = true ↔ violations schema v = 0 := decide_eq_true_iff

theorem violationsOf_eq_zero {schemas : List Schema} {v : Json} :
    violationsOf schemas v = 0 ↔ ∀ s ∈ schemas, violations s v = 0 := by
  induction schemas with
  | nil => simp [violationsOf]
  | cons s ss ih => simp [violationsOf, ih]

theorem accepts_all {schemas : List Schema} {v : Json} :
    accepts (.all schemas) v = true ↔ ∀ s ∈ schemas, accepts s v = true := by
  simp only [accepts_iff, violations, violationsOf_eq_zero]

/-! ## Schema objects -/

/-- A closed object: the listed properties, all of them required. -/
def record (properties : List (String × Schema)) : Schema :=
  .all ([.type isObject, .required (properties.map Prod.fst),
    .closed (properties.map Prod.fst)]
    ++ properties.map fun p => .property p.1 p.2)

/-- **What a closed object with required properties says of a value**: it
is an object with exactly those members, each accepted by its schema. -/
theorem accepts_record {properties : List (String × Schema)} {v : Json}
    (h : accepts (record properties) v = true) :
    ∃ o, v = .object o ∧ ∀ p ∈ properties, ∃ w, member p.1 o = some w
      ∧ accepts p.2 w = true := by
  rw [record, accepts_all] at h
  have htype := h (.type isObject) (by simp)
  obtain ⟨o, rfl⟩ : ∃ o, v = .object o := by
    cases v with
    | object o => exact ⟨o, rfl⟩
    | _ => simp [accepts, violations, isObject, failsUnless] at htype
  refine ⟨o, rfl, fun p hp => ?_⟩
  have hreq := h (.required (properties.map Prod.fst)) (by simp)
  have hprop := h (.property p.1 p.2) (by simp [hp])
  rw [accepts_iff] at hreq hprop
  simp only [violations, List.length_eq_zero_iff, List.filter_eq_nil_iff] at hreq hprop
  have hown := hreq p.1 (List.mem_map_of_mem hp)
  simp only [Bool.not_eq_true', Bool.not_eq_false, hasOwn] at hown
  obtain ⟨w, hw⟩ := Option.isSome_iff_exists.mp hown
  rw [hw] at hprop
  exact ⟨w, hw, accepts_iff.mpr hprop⟩

/-- A closed object has no member that is not listed. -/
theorem mem_of_accepts_record {properties : List (String × Schema)} {o : JsonObject}
    (h : accepts (record properties) (.object o) = true) :
    ∀ name ∈ keys o, name ∈ properties.map Prod.fst := by
  rw [record, accepts_all] at h
  have hclosed := h (.closed (properties.map Prod.fst)) (by simp)
  rw [accepts_iff, violations, List.length_eq_zero_iff, List.filter_eq_nil_iff] at hclosed
  intro name hname
  have hlisted := hclosed name hname
  rwa [decide_eq_true_eq, not_not] at hlisted

theorem accepts_constString {s : String} {v : Json} :
    accepts (.constString s) v = true ↔ v = .string s := by
  rw [accepts_iff]
  cases v <;> simp [violations, failsUnless]

/-- `items` holds where every item is accepted. -/
theorem accepts_items {schema : Schema} {vs : List Json} :
    accepts (.items schema) (.array vs) = true ↔ ∀ v ∈ vs, accepts schema v = true := by
  simp only [accepts_iff, violations, List.sum_eq_zero_iff_forall_eq_nat, List.forall_mem_map]

end Schema
