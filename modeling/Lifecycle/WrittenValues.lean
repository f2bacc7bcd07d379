import Lifecycle.JsonWriters
import Lifecycle.KeyOrder

/-!
# What a canonical text determines

A canonical text lists the members of an object by their names, so it can
determine a value up to their order only. It does so for a value of safe
integers in which no object has a name twice (`Written.eq_of_text`), and then
member by member (`members_eq_of_ordered`).
-/

open Json ControlModel Comparison

namespace Json

/-- **A value its canonical text determines**, up to the order of members. -/
def Written (v : Json) : Prop := (canonicalOrder v).Plain ∧ (canonicalOrder v).DistinctNames

theorem written_string (s : String) : (Json.string s).Written := ⟨trivial, trivial⟩

theorem written_null : Json.null.Written := ⟨trivial, trivial⟩

theorem written_nat {n : Nat} (h : n ≤ maxSafeInteger) : (nat n).Written := ⟨h, trivial⟩

theorem written_textOrNull (s : Option String) : (textOrNull s).Written := by
  cases s with
  | none => exact written_null
  | some s => exact written_string s

theorem plainMembers_iff {members : List (String × Json)} :
    PlainMembers members ↔ ∀ m ∈ members, m.2.Plain := by
  induction members with
  | nil => exact iff_of_true trivial (by simp)
  | cons m members ih =>
    rw [List.forall_mem_cons, ← ih]
    rfl

theorem distinctNamesMembers_iff {members : List (String × Json)} :
    DistinctNamesMembers members ↔ ∀ m ∈ members, m.2.DistinctNames := by
  induction members with
  | nil => exact iff_of_true trivial (by simp)
  | cons m members ih =>
    rw [List.forall_mem_cons, ← ih]
    rfl

/-- **An object of written members is written.** -/
theorem written_object {members : JsonObject} (hnodup : (keys members).Nodup)
    (h : ∀ m ∈ members, m.2.Written) : (Json.object members).Written := by
  have hmember : ∀ m ∈ parsedCanonical members, m.2.Plain ∧ m.2.DistinctNames := by
    intro m hm
    rw [(perm_parsedCanonical members).mem_iff, canonicalOrderMembers_eq] at hm
    obtain ⟨n, hn, rfl⟩ := List.mem_map.mp hm
    exact h n hn
  have hsorted : (keys (parsedCanonical members)).Pairwise fun a b => codeUnitLe a b = true :=
    List.pairwise_map.mpr (pairwise_sortWith comparison_byName _)
  rw [Written, canonicalOrder_payload]
  exact ⟨⟨plainMembers_iff.mpr fun m hm => (hmember m hm).1, hsorted⟩,
    (perm_keys_parsedCanonical members).nodup_iff.mpr hnodup,
    distinctNamesMembers_iff.mpr fun m hm => (hmember m hm).2⟩

/-- **Written values of one text** are the same up to the order of members. -/
theorem Written.eq_of_text {v w : Json} {bytes : List UInt8} (hv : v.Written) (hw : w.Written)
    (h : canonicalJson v = .ok bytes) (h' : canonicalJson w = .ok bytes) :
    canonicalOrder v = canonicalOrder w := by
  rw [canonicalJson, ← canonicalize_canonicalOrder] at h h'
  exact canonicalJson_injective hv.1 hv.2 hw.1 hw.2 h h'

/-- **Objects of the same names** that are the same up to the order of members
have the same members, each up to the order of its own. -/
theorem members_eq_of_ordered {ms ns : JsonObject}
    (h : canonicalOrder (.object ms) = canonicalOrder (.object ns)) (hkeys : keys ms = keys ns)
    (hnodup : (keys ns).Nodup) :
    ms.map (fun m => canonicalOrder m.2) = ns.map fun m => canonicalOrder m.2 := by
  have hsame : parsedCanonical ms = parsedCanonical ns := Json.object.inj h
  have hperm : (canonicalOrderMembers ms).Perm (canonicalOrderMembers ns) :=
    (perm_parsedCanonical ms).symm.trans (hsame ▸ perm_parsedCanonical ns)
  have hnames : ∀ o, (canonicalOrderMembers o).map Prod.fst = keys o := keys_canonicalOrderMembers
  have hordered : canonicalOrderMembers ms = canonicalOrderMembers ns := by
    refine List.ext_getElem hperm.length_eq fun i hi hi' => ?_
    have hkey := congrArg (fun names => names[i]?) ((hnames ms).trans (hkeys.trans (hnames ns).symm))
    simp only [List.getElem?_map, List.getElem?_eq_getElem hi, List.getElem?_eq_getElem hi',
      Option.map_some, Option.some.injEq] at hkey
    exact List.inj_on_of_nodup_map (hnames ns ▸ hnodup) (hperm.mem_iff.mp (List.getElem_mem hi))
      (List.getElem_mem hi') hkey
  have hvalues := congrArg (List.map Prod.snd) hordered
  rwa [canonicalOrderMembers_eq, canonicalOrderMembers_eq, List.map_map, List.map_map] at hvalues

end Json
