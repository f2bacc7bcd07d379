import Lifecycle.CarrierManifests
import Mathlib.Algebra.Order.BigOperators.Group.List

/-!
# Carrier manifests are read back

What the compiler writes the parser accepts, under the limits of the first
version: a descriptor is at most 132 bytes and four JSON values, so a million
of them stay below the bounds of the parser. And whatever the parser accepts
compiles to the very bytes it was read from.
-/

open Fallible Json StrictJson ControlModel

namespace Carrier

/-! ## Inventories -/

/-- **A descriptor `exactInventory` lets through.** -/
structure AdmittedObject (objectFormat : GitObjectFormat) (limits : CarrierLimits)
    (d : CarrierObject) : Prop where
  id : objectIdPattern objectFormat d.objectId = true
  type : d.objectType = "blob" ∨ d.objectType = "tree"
  nonnegative : 0 ≤ d.byteLength
  bytes : d.byteLength ≤ limits.maximumAggregateObjectBytes
  safe : d.byteLength.natAbs ≤ maxSafeInteger
  nonempty : d.objectType = "tree" → d.byteLength ≠ 0

/-- The bytes of all objects. -/
def totalBytes (inventory : List CarrierObject) : Int := (inventory.map (·.byteLength)).sum

/-- **An inventory `exactInventory` lets through.** -/
structure AdmittedInventory (objectFormat : GitObjectFormat) (limits : CarrierLimits)
    (inventory : List CarrierObject) : Prop where
  count : 1 ≤ inventory.length ∧ inventory.length ≤ limits.maximumObjects
  objects : ∀ d ∈ inventory, AdmittedObject objectFormat limits d
  ordered : inventory.Pairwise fun a b => codeUnitLe b.objectId a.objectId = false
  total : (totalBytes inventory).natAbs ≤ maxSafeInteger
  bytes : totalBytes inventory ≤ limits.maximumAggregateObjectBytes

variable {objectFormat : GitObjectFormat} {limits : CarrierLimits} {inventory : List CarrierObject}

theorem isSafeInteger_eq_false {n : Int} :
    isSafeInteger n = false ↔ ¬ n.natAbs ≤ maxSafeInteger := decide_eq_false_iff_not

theorem assertSafeBoundedInteger_eq_ok {value : Int} {maximum : Nat} {label : String} :
    assertSafeBoundedInteger value maximum label = .ok ()
      ↔ value.natAbs ≤ maxSafeInteger ∧ 0 ≤ value ∧ value ≤ maximum := by
  rw [assertSafeBoundedInteger, failIf_eq_ok, isSafeInteger_eq_false, not_or, not_or, not_not,
    Int.not_lt, Int.not_lt]

theorem exactDescriptor_eq_ok {prior : Option String} {before : Int} {d : CarrierObject}
    {scanned : Option String × Int}
    (h : exactDescriptor objectFormat limits (prior, before) d = .ok scanned) :
    AdmittedObject objectFormat limits d ∧ (∀ p, prior = some p → codeUnitLe d.objectId p = false)
      ∧ scanned = (some d.objectId, before + d.byteLength)
      ∧ (before + d.byteLength).natAbs ≤ maxSafeInteger
      ∧ before + d.byteLength ≤ limits.maximumAggregateObjectBytes := by
  simp only [exactDescriptor, bind_eq_ok, failIf_eq_ok, exists_unit, pure_eq_ok,
    assertSafeBoundedInteger_eq_ok, isSafeInteger_eq_false, not_or, not_and, not_not,
    Bool.not_eq_false, Int.not_lt] at h
  obtain ⟨hid, htype, ⟨hsafe, hnonnegative, hbytes⟩, hnonempty, hprior, ⟨htotal, hbound⟩, rfl⟩ := h
  refine ⟨⟨hid, ?_, hnonnegative, hbytes, hsafe, hnonempty⟩, ?_, rfl, htotal, hbound⟩
  · by_cases hblob : d.objectType = "blob"
    · exact .inl hblob
    · exact .inr (htype hblob)
  · rintro p rfl
    simpa using hprior

/-- **What a scan of descriptors says of them.** -/
theorem exactDescriptors_eq_ok {prior : Option String} {before : Int}
    {scanned : Option String × Int} (hsafe : before.natAbs ≤ maxSafeInteger)
    (hbound : before ≤ limits.maximumAggregateObjectBytes)
    (h : replay (exactDescriptor objectFormat limits) (prior, before) inventory = .ok scanned) :
    (∀ d ∈ inventory, AdmittedObject objectFormat limits d)
      ∧ (∀ p, prior = some p → ∀ d ∈ inventory, codeUnitLe d.objectId p = false)
      ∧ (inventory.Pairwise fun a b => codeUnitLe b.objectId a.objectId = false)
      ∧ (before + totalBytes inventory).natAbs ≤ maxSafeInteger
      ∧ before + totalBytes inventory ≤ limits.maximumAggregateObjectBytes := by
  induction inventory generalizing prior before with
  | nil => simpa [totalBytes] using ⟨hsafe, hbound⟩
  | cons d inventory ih =>
    rw [replay_cons, bind_eq_ok] at h
    obtain ⟨next, hstep, hrest⟩ := h
    obtain ⟨hadmitted, hprior, rfl, hsafe', hbound'⟩ := exactDescriptor_eq_ok hstep
    obtain ⟨hobjects, hbehind, hordered, htotal, hbytes⟩ := ih hsafe' hbound' hrest
    have hlater := hbehind _ rfl
    have hsum : before + totalBytes (d :: inventory)
        = before + d.byteLength + totalBytes inventory := by
      rw [totalBytes, List.map_cons, List.sum_cons, ← totalBytes, Int.add_assoc]
    rw [hsum]
    refine ⟨List.forall_mem_cons.mpr ⟨hadmitted, hobjects⟩, fun p hp => ?_,
      List.pairwise_cons.mpr ⟨hlater, hordered⟩, htotal, hbytes⟩
    have hfirst := hprior p hp
    refine List.forall_mem_cons.mpr ⟨hfirst, fun e he => ?_⟩
    by_contra hle
    have hep : codeUnitLe e.objectId p = true := by simpa using hle
    have hpd : codeUnitLe p d.objectId = true :=
      (lexLe_total _ _).resolve_right (by rw [codeUnitLe] at hfirst; simp [hfirst])
    have hed : codeUnitLe e.objectId d.objectId = true := lexLe_trans hep hpd
    rw [hlater e he] at hed
    cases hed

/-- **What `exactInventory` returns is what it was given**, and admitted. -/
theorem exactInventory_eq_ok {input : List CarrierObject}
    (h : exactInventory objectFormat input limits = .ok inventory) :
    inventory = input ∧ AdmittedInventory objectFormat limits inventory := by
  simp only [exactInventory, bind_eq_ok, failIf_eq_ok, exists_unit, pure_eq_ok, not_or,
    Nat.not_lt] at h
  obtain ⟨hcount, scanned, hscan, rfl⟩ := h
  obtain ⟨hobjects, -, hordered, htotal, hbytes⟩ := exactDescriptors_eq_ok (by decide)
    (Int.natCast_nonneg _) hscan
  rw [Int.zero_add] at htotal hbytes
  exact ⟨rfl, hcount, hobjects, hordered, htotal, hbytes⟩

theorem aggregateOf_eq_ok {total : Int} (h : aggregateOf inventory = .ok total) :
    total = totalBytes inventory := by
  have hscan : ∀ {before : Int}, replay (fun sum (descriptor : CarrierObject) => do
      let next := sum + descriptor.byteLength
      failIf (isSafeInteger next = false)
        (invalid "Candidate Revision Carrier aggregate object bytes are unsafe")
      return next) before inventory = .ok total → total = before + totalBytes inventory := by
    clear h
    induction inventory with
    | nil =>
      intro before h
      obtain rfl := Except.ok.inj h
      simp [totalBytes]
    | cons d inventory ih =>
      intro before h
      simp only [replay_cons, bind_eq_ok, failIf_eq_ok, exists_unit, pure_eq_ok] at h
      obtain ⟨_, ⟨-, rfl⟩, hrest⟩ := h
      rw [ih hrest, totalBytes, totalBytes, List.map_cons, List.sum_cons, Int.add_assoc]
  rw [hscan h, Int.zero_add]

/-! ## Manifests -/

/-- **A manifest `semanticManifest` lets through.** -/
structure SoundManifest (limits : CarrierLimits) (m : CarrierManifest) : Prop where
  inventory : exactInventory m.objectFormat m.objectInventory limits = .ok m.objectInventory
  admitted : AdmittedInventory m.objectFormat limits m.objectInventory
  rootTree : objectIdPattern m.objectFormat m.rootTree = true
  count : m.objectCount = m.objectInventory.length
  aggregate : m.aggregateObjectBytes = totalBytes m.objectInventory
  inventoryDigest : digestCanonical (inventoryJson m.objectInventory) = .ok m.objectInventoryDigest
  artifactBytes : 1 ≤ m.carrierArtifact.byteLength
    ∧ m.carrierArtifact.byteLength.natAbs ≤ maxSafeInteger
  artifactDigest : isSha256 m.carrierArtifact.digest = true
  digest : selfDigest m.record = .ok m.digest

/-- **What `semanticManifest` returns is what it was given**, and sound. -/
theorem semanticManifest_eq_ok {m out : CarrierManifest} (h : semanticManifest m limits = .ok out) :
    out = m ∧ SoundManifest limits m := by
  simp only [semanticManifest, bind_eq_ok, failIf_eq_ok, exists_unit, pure_eq_ok,
    assertSafeBoundedInteger_eq_ok, not_not, Bool.not_eq_false, Int.not_lt] at h
  obtain ⟨hroot, inventory, hinventory, hcount, total, htotal, haggregate, inventoryDigest,
    hinventoryDigest, hsame, -, ⟨hsafe, -, -⟩, hbytes, hdigest, digest, hself, hequal, rfl⟩ := h
  obtain ⟨rfl, hadmitted⟩ := exactInventory_eq_ok hinventory
  obtain rfl := aggregateOf_eq_ok htotal
  refine ⟨?_, hinventory, hadmitted, hroot, hcount, haggregate, hsame ▸ hinventoryDigest,
    ⟨hbytes, hsafe⟩, hdigest, hequal ▸ hself⟩
  rw [← hcount, ← haggregate]

/-- The digest of a manifest is not a part of what it is taken of. -/
theorem selfDigest_digest (m : CarrierManifest) (digest : String) :
    selfDigest { m with digest }.record = selfDigest m.record := rfl

/-! ## What a manifest is read as -/

theorem integerOf_eq_some {v : Option Json} {n : Int} :
    integerOf v = some n ↔ v = some (.number (.integer n)) := by
  unfold integerOf
  split
  · rw [Option.some.injEq, Option.some.injEq, Json.number.injEq, JsNumber.integer.injEq]
  · next hother =>
    constructor
    · intro h
      cases h
    · rintro rfl
      exact absurd rfl (hother n)

theorem gitObjectFormatOf_eq_some {s : String} {f : GitObjectFormat} :
    gitObjectFormatOf s = some f ↔ s = f.text := by
  constructor
  · intro h
    unfold gitObjectFormatOf at h
    split at h <;> cases h <;> rfl
  · rintro rfl
    cases f <;> rfl

end Carrier

/-- The texts a `const` array lists. -/
theorem Schema.accepts_constTexts {values : List String} {v : Json} :
    Schema.accepts (.constTexts values) v = true ↔ v = .array (values.map .string) := by
  have htexts : ∀ {items : List Json} {values : List String},
      items.map (fun item => asString (some item)) = values.map some
        ↔ items = values.map .string := by
    intro items
    induction items with
    | nil => intro values; cases values <;> simp
    | cons item items ih =>
      intro values
      cases values with
      | nil => simp
      | cons value values =>
        rw [List.map_cons, List.map_cons, List.map_cons, List.cons.injEq, List.cons.injEq, ih,
          asString_eq_some, Option.some.injEq]
  rw [Schema.accepts_iff, Schema.constTexts, Schema.violations, Schema.failsUnless_eq_zero,
    decide_eq_true_eq]
  cases v with
  | array items =>
    rw [asArray, Option.map_some, Option.some.injEq, htexts, Json.array.injEq]
  | _ => simp [asArray]

namespace Carrier

/-- **A member an accepted record requires**, as the record has it. -/
theorem exists_member_of_accepts {properties : List (String × Schema)} {o : JsonObject}
    (hnames : (keys o).Nodup)
    (h : Schema.accepts (Schema.record properties) (.object (parsedCanonical o)) = true)
    {p : String × Schema} (hp : p ∈ properties) :
    ∃ v, member p.1 o = some v ∧ Schema.accepts p.2 (canonicalOrder v) = true := by
  obtain ⟨_, heq, hmembers⟩ := Schema.accepts_record h
  obtain rfl := Json.object.inj heq
  obtain ⟨w, hw, haccepted⟩ := hmembers p hp
  obtain ⟨v, hv, rfl⟩ := (member_parsedCanonical hnames).mp hw
  exact ⟨v, hv, haccepted⟩

/-- An accepted record has the keys of its schema only. -/
theorem mem_keys_of_accepts {properties : List (String × Schema)} {o : JsonObject}
    (h : Schema.accepts (Schema.record properties) (.object (parsedCanonical o)) = true) :
    ∀ name ∈ keys o, name ∈ properties.map Prod.fst := fun name hname =>
  Schema.mem_of_accepts_record h name ((perm_keys_parsedCanonical o).mem_iff.mpr hname)

/-- The schemas list the keys of the records. -/
theorem carrierKeys_listed :
    ["objectId", "objectType", "byteLength"] ⊆ carrierObjectKeys
      ∧ ["format", "byteLength", "digest"] ⊆ carrierArtifactKeys
      ∧ ["schema", "objectFormat", "rootTree", "allowedTreeModes", "objectInventory",
        "objectCount", "aggregateObjectBytes", "objectInventoryDigest", "carrierArtifact",
        "digest"] ⊆ carrierManifestKeys := by
  simp [carrierObjectKeys, carrierArtifactKeys, carrierManifestKeys]

/-- **An accepted descriptor is the record of what it is read as.** -/
theorem canonicalOrder_of_carrierObjectOf {v : Json} {d : CarrierObject} (hnames : v.DistinctNames)
    (hschema : Schema.accepts Schema.carrierObjectDescriptor (canonicalOrder v) = true)
    (h : carrierObjectOf v = some d) : canonicalOrder v = .object d.record := by
  simp only [carrierObjectOf, Option.bind_eq_bind, Option.bind_eq_some_iff, asObject_eq_some,
    asString_eq_some, integerOf_eq_some, Option.some.injEq, Option.pure_def] at h
  obtain ⟨o, rfl, objectId, hid, objectType, htype, byteLength, hbytes, rfl⟩ := h
  obtain ⟨hnodup, hsorted⟩ := carrierKeys_inOrder carrierObjectKeys (.head _)
  refine canonicalOrder_of_members hnames.1 hnodup hsorted (fun name hname => ?_) ?_
  · exact carrierKeys_listed.1 (mem_keys_of_accepts hschema name hname)
  · simp only [CarrierObject.record, List.forall_mem_cons]
    exact ⟨⟨_, hbytes, rfl⟩, ⟨_, hid, rfl⟩, ⟨_, htype, rfl⟩, fun _ hm => absurd hm List.not_mem_nil⟩

theorem distinctNames_of_member {o : JsonObject} (h : DistinctNamesMembers o)
    {name : String} {v : Json} (hv : member name o = some v) : v.DistinctNames := by
  induction o with
  | nil => cases hv
  | cons m o ih =>
    rw [member] at hv
    split at hv
    · obtain rfl := Option.some.inj hv
      exact h.1
    · exact ih h.2 hv

theorem inventory_of_items {items : List Json} {inventory : List CarrierObject}
    (hnames : DistinctNamesItems items)
    (hschema : ∀ v ∈ canonicalOrderItems items,
      Schema.accepts Schema.carrierObjectDescriptor v = true)
    (h : items.mapM carrierObjectOf = some inventory) :
    canonicalOrder (.array items) = inventoryJson inventory := by
  rw [canonicalOrder, inventoryJson, Json.array.injEq]
  induction items generalizing inventory with
  | nil =>
    obtain rfl : [] = inventory := Option.some.inj h
    rfl
  | cons v items ih =>
    simp only [List.mapM_cons, Option.bind_eq_bind, Option.bind_eq_some_iff, Option.pure_def,
      Option.some.injEq] at h
    obtain ⟨d, hd, ds, hds, rfl⟩ := h
    rw [canonicalOrderItems, List.forall_mem_cons] at hschema
    rw [canonicalOrderItems, canonicalOrder_of_carrierObjectOf hnames.1 hschema.1 hd,
      ih hnames.2 hschema.2 hds, List.map_cons]

/-- **An accepted value is, its keys in order, the record of the manifest it is
read as.** -/
theorem canonicalOrder_of_carrierManifestOf {o : JsonObject} {m : CarrierManifest}
    (hnames : (Json.object o).DistinctNames)
    (hschema : Schema.accepts Schema.candidateRevisionCarrierManifest
      (.object (parsedCanonical o)) = true)
    (h : carrierManifestOf o = some m) : canonicalOrder (.object o) = .object m.record := by
  obtain ⟨hkeys, hmembers⟩ := hnames
  simp only [carrierManifestOf, Option.bind_eq_bind, Option.bind_eq_some_iff, asObject_eq_some,
    asArray_eq_some, asString_eq_some, integerOf_eq_some, gitObjectFormatOf_eq_some,
    Option.some.injEq, Option.pure_def] at h
  obtain ⟨objectFormat, ⟨_, hformat, rfl⟩, rootTree, hroot, items, hitems, inventory, hinventory,
    objectCount, hcount, aggregate, haggregate, inventoryDigest, hinventoryDigest, artifact,
    hartifact, byteLength, hbytes, artifactDigest, hartifactDigest, digest, hdigest, rfl⟩ := h
  have hrequired := fun p hp => exists_member_of_accepts (p := p) hkeys hschema hp
  have hconstant : ∃ v, member "schema" o = some v
      ∧ canonicalOrder v = .string carrierManifestSchema := by
    obtain ⟨v, hv, haccepted⟩ := hrequired ("schema", _) (.head _)
    exact ⟨v, hv, Schema.accepts_constString.mp haccepted⟩
  have hmodes : ∃ v, member "allowedTreeModes" o = some v
      ∧ canonicalOrder v = .array (carrierTreeModes.map .string) := by
    obtain ⟨v, hv, haccepted⟩ := hrequired ("allowedTreeModes", _)
      (.tail _ (.tail _ (.tail _ (.head _))))
    exact ⟨v, hv, Schema.accepts_constTexts.mp haccepted⟩
  have hobjects : canonicalOrder (.array items) = inventoryJson inventory := by
    obtain ⟨v, hv, haccepted⟩ := hrequired ("objectInventory", _)
      (.tail _ (.tail _ (.tail _ (.tail _ (.head _)))))
    obtain rfl := Option.some.inj (hitems.symm.trans hv)
    have hdescriptors := Schema.accepts_all.mp haccepted _
      (.tail _ (.tail _ (.tail _ (.tail _ (.head _)))))
    rw [canonicalOrder] at hdescriptors
    exact inventory_of_items (distinctNames_of_member hmembers hitems) (Schema.accepts_items.mp hdescriptors)
      hinventory
  have hbox : canonicalOrder (.object artifact)
      = .object (CarrierArtifact.record ⟨byteLength, artifactDigest⟩) := by
    obtain ⟨v, hv, haccepted⟩ := hrequired ("carrierArtifact", _)
      (.tail _ (.tail _ (.tail _ (.tail _ (.tail _ (.tail _ (.tail _ (.tail _ (.head _)))))))))
    obtain rfl := Option.some.inj (hartifact.symm.trans hv)
    have hnames := distinctNames_of_member hmembers hartifact
    obtain ⟨w, hw, hformat⟩ := exists_member_of_accepts hnames.1 haccepted (p := ("format", _))
      (.head _)
    obtain ⟨hnodup, hsorted⟩ := carrierKeys_inOrder carrierArtifactKeys (.tail _ (.head _))
    refine canonicalOrder_of_members hnames.1 hnodup hsorted (fun name hname => ?_) ?_
    · exact carrierKeys_listed.2.1 (mem_keys_of_accepts haccepted name hname)
    · simp only [CarrierArtifact.record, List.forall_mem_cons]
      exact ⟨⟨_, hbytes, rfl⟩, ⟨_, hartifactDigest, rfl⟩,
        ⟨w, hw, Schema.accepts_constString.mp hformat⟩, fun _ hm => absurd hm List.not_mem_nil⟩
  obtain ⟨hnodup, hsorted⟩ :=
    carrierKeys_inOrder carrierManifestKeys (.tail _ (.tail _ (.head _)))
  refine canonicalOrder_of_members hkeys hnodup hsorted (fun name hname => ?_) ?_
  · exact carrierKeys_listed.2.2 (mem_keys_of_accepts hschema name hname)
  · simp only [CarrierManifest.record, List.forall_mem_cons]
    exact ⟨⟨_, haggregate, rfl⟩, hmodes, ⟨_, hartifact, hbox⟩, ⟨_, hdigest, rfl⟩,
      ⟨_, hcount, rfl⟩, ⟨_, hformat, rfl⟩, ⟨_, hitems, hobjects⟩, ⟨_, hinventoryDigest, rfl⟩,
      ⟨_, hroot, rfl⟩, hconstant, fun _ hm => absurd hm List.not_mem_nil⟩

/-! ## The record of a manifest -/

theorem AdmittedObject.plain {d : CarrierObject} (h : AdmittedObject objectFormat limits d) :
    (Json.object d.record).Plain :=
  ⟨⟨h.safe, trivial, trivial, trivial⟩, (carrierKeys_inOrder carrierObjectKeys (.head _)).2⟩

theorem AdmittedInventory.plain (h : AdmittedInventory objectFormat limits inventory) :
    (inventoryJson inventory).Plain := by
  refine plainItems_of_forall fun v hv => ?_
  obtain ⟨d, hd, rfl⟩ := List.mem_map.mp hv
  exact (h.objects d hd).plain

/-- **The record of a sound manifest is plain.** -/
theorem SoundManifest.plain {m : CarrierManifest} (h : SoundManifest limits m)
    (hcount : m.objectInventory.length ≤ maxSafeInteger) : (Json.object m.record).Plain := by
  have hinOrder := carrierKeys_inOrder
  have hlength : m.objectCount.natAbs ≤ maxSafeInteger := by
    rw [h.count]
    exact hcount
  have htotal : m.aggregateObjectBytes.natAbs ≤ maxSafeInteger := by
    rw [h.aggregate]
    exact h.admitted.total
  refine ⟨⟨htotal, ⟨trivial, trivial, trivial, trivial⟩, ⟨⟨h.artifactBytes.2, trivial, trivial,
    trivial⟩, (hinOrder carrierArtifactKeys (.tail _ (.head _))).2⟩, trivial, hlength, trivial,
    h.admitted.plain, trivial, trivial, trivial, trivial⟩, ?_⟩
  exact (hinOrder carrierManifestKeys (.tail _ (.tail _ (.head _)))).2

theorem distinctNames_record (m : CarrierManifest) : (Json.object m.record).DistinctNames := by
  have hinOrder := carrierKeys_inOrder
  have hinventory : (inventoryJson m.objectInventory).DistinctNames := by
    refine distinctNamesItems_of_forall fun v hv => ?_
    obtain ⟨d, -, rfl⟩ := List.mem_map.mp hv
    exact ⟨(hinOrder carrierObjectKeys (.head _)).1, trivial, trivial, trivial, trivial⟩
  exact ⟨(hinOrder carrierManifestKeys (.tail _ (.tail _ (.head _)))).1, trivial,
    ⟨trivial, trivial, trivial, trivial⟩,
    ⟨(hinOrder carrierArtifactKeys (.tail _ (.head _))).1, trivial, trivial, trivial, trivial⟩,
    trivial, trivial, trivial, hinventory, trivial, trivial, trivial, trivial⟩

/-- **A manifest is read back from its record.** -/
theorem carrierManifestOf_record (m : CarrierManifest) : carrierManifestOf m.record = some m := by
  have hobjects : (m.objectInventory.map fun d => Json.object d.record).mapM carrierObjectOf
      = some m.objectInventory := by
    induction m.objectInventory with
    | nil => rfl
    | cons d inventory ih =>
      rw [List.map_cons, List.mapM_cons, ih]
      rfl
  have hformat : gitObjectFormatOf m.objectFormat.text = some m.objectFormat :=
    gitObjectFormatOf_eq_some.mpr rfl
  simp only [carrierManifestOf, Option.bind_eq_bind, Option.bind_eq_some_iff, asObject_eq_some,
    asArray_eq_some, asString_eq_some, integerOf_eq_some, Option.pure_def, Option.some.injEq]
  exact ⟨_, ⟨_, rfl, hformat⟩, _, rfl, _, rfl, _, hobjects, _, rfl, _, rfl, _, rfl, _, rfl, _, rfl,
    _, rfl, _, rfl, rfl⟩

/-! ## How much a manifest takes -/

/-- A manifest has four values for each object, and seventeen more. -/
theorem nodeCount_record (m : CarrierManifest) :
    nodeCount (.object m.record) = 4 * m.objectInventory.length + 17 := by
  have hinventory : nodeCountItems (m.objectInventory.map fun d => Json.object d.record)
      = 4 * m.objectInventory.length := by
    induction m.objectInventory with
    | nil => rfl
    | cons d inventory ih =>
      rw [List.map_cons, nodeCountItems, ih, List.length_cons, Nat.mul_succ, Nat.add_comm]
      rfl
  have hrest : nodeCount (.object m.record)
      = nodeCountItems (m.objectInventory.map fun d => Json.object d.record) + 17 := by
    simp only [CarrierManifest.record, CarrierArtifact.record, inventoryJson, carrierTreeModes,
      List.map_cons, List.map_nil, nodeCount, nodeCountMembers, nodeCountItems]
    omega
  rw [hrest, hinventory]

theorem height_record (m : CarrierManifest) : height (.object m.record) ≤ 3 := by
  have hinventory : heightItems (m.objectInventory.map fun d => Json.object d.record) ≤ 1 := by
    refine heightItems_le_of_forall fun v hv => ?_
    obtain ⟨d, -, rfl⟩ := List.mem_map.mp hv
    exact Nat.le_refl 1
  simp only [CarrierManifest.record, CarrierArtifact.record, inventoryJson, carrierTreeModes,
    List.map_cons, List.map_nil, height, heightMembers, heightItems]
  omega

/-- **A manifest fits the limits of its parser.** -/
theorem fitsLimits_record {m : CarrierManifest} (hmodes : 3 ≤ limits.maximumObjects)
    (hcount : m.objectInventory.length ≤ limits.maximumObjects) :
    FitsLimits (manifestOptions limits) (.object m.record) := by
  have hheight := height_record m
  have hnodes := nodeCount_record m
  refine ⟨?_, ?_, ?_⟩
  · show _ ≤ 16
    omega
  · show _ ≤ limits.maximumObjects * 4 + 64
    omega
  · have hinventory : (inventoryJson m.objectInventory).Narrow limits.maximumObjects 32 := by
      refine ⟨(List.length_map _).trans_le hcount, narrowItems_of_forall fun v hv => ?_⟩
      obtain ⟨d, -, rfl⟩ := List.mem_map.mp hv
      exact ⟨Nat.le_of_ble_eq_true rfl, trivial, trivial, trivial, trivial⟩
    exact ⟨Nat.le_of_ble_eq_true rfl, trivial, ⟨hmodes, trivial, trivial, trivial, trivial⟩,
      ⟨Nat.le_of_ble_eq_true rfl, trivial, trivial, trivial, trivial⟩, trivial, trivial, trivial,
      hinventory, trivial, trivial, trivial, trivial⟩

theorem textLength_string (s : String) : textLength (.string s) = (quoted s).length := rfl

/-- A safe number that is not negative has sixteen digits at most. -/
theorem textLength_integer {n : Int} (hn : 0 ≤ n) (hsafe : n.natAbs ≤ maxSafeInteger) :
    textLength (.number (.integer n)) ≤ 16 := by
  have htext : canonicalJson (.number (.integer n)) = .ok (utf8Bytes (toString n)) := by
    simp only [canonicalJson, canonicalize, canonicalNumber, bind_eq_ok, failIf_eq_ok,
      exists_unit, pure_eq_ok]
    exact ⟨by omega, trivial⟩
  have hdigits : (toString n).toList = Nat.toDigits 10 n.natAbs := by
    rw [toList_toString_int, if_pos hn]
    rfl
  have hlength : (Nat.toDigits 10 n.natAbs).length ≤ 16 := by
    rw [Nat.length_toDigits_le_iff (by decide) (by decide)]
    have hmaximum : maxSafeInteger < 10 ^ 16 := by decide
    omega
  have hbytes : (utf8Bytes (toString n)).length = (Nat.toDigits 10 n.natAbs).length := by
    rw [← String.ofList_toList (s := toString n), utf8Bytes_ofList, hdigits]
    refine (flatMap_utf8EncodeChar_of_isHexDigit fun c hc => ?_).1
    have hdigit := Nat.isDigit_of_mem_toDigits (by decide) (by decide) hc
    simp only [Char.isDigit, Bool.and_eq_true, decide_eq_true_eq] at hdigit
    simp only [Sha256.isHexDigit, Bool.or_eq_true, Bool.and_eq_true, Nat.ble_eq]
    exact .inl ⟨hdigit.1, hdigit.2⟩
  rw [textLength_eq htext, hbytes]
  exact hlength

/-- A hexadecimal digit is written as it is. -/
theorem escapeByte_of_hexClass {b : UInt8} (h : hexClass b = true) : escapeByte b = [b] := by
  have hall : ∀ n < 256, hexClass (UInt8.ofNat n) = true →
      escapeByte (UInt8.ofNat n) = [UInt8.ofNat n] := by
    decide +kernel
  have hb := hall b.toNat b.toNat_lt
  rw [UInt8.ofNat_toNat] at hb
  exact hb h

/-- An object identity takes two bytes more than it has. -/
theorem length_quoted_objectId {id : String} (h : objectIdPattern objectFormat id = true) :
    (quoted id).length ≤ 66 := by
  simp only [objectIdPattern, Bool.and_eq_true, decide_eq_true_eq, List.all_eq_true] at h
  rw [length_quoted_of_unescaped fun b hb => escapeByte_of_hexClass (h.2 b hb), byteLength, h.1]
  cases objectFormat <;> decide

/-- **A descriptor takes 130 bytes at most.** -/
theorem textLength_object {d : CarrierObject} (h : AdmittedObject objectFormat limits d) :
    textLength (.object d.record) ≤ 130 := by
  have hmembers : ∀ m ∈ d.record, Canonicalizable m.2 := fun m hm =>
    (exists_text_of_plainMembers h.plain.1 m hm).1
  obtain ⟨text, htext, hlength⟩ := exists_text_object hmembers
  have hbytes := textLength_integer h.nonnegative h.safe
  have hid := length_quoted_objectId h.id
  have htype : (quoted d.objectType).length ≤ 6 := by
    obtain hblob | htree := h.type
    · rw [hblob]
      decide +kernel
    · rw [htree]
      decide +kernel
  have hnames : ∀ name ∈ carrierObjectKeys, (quoted name).length ≤ 12 := by decide +kernel
  simp only [carrierObjectKeys, List.forall_mem_cons] at hnames
  simp only [CarrierObject.record, List.map_cons, List.map_nil, List.sum_cons, List.sum_nil,
    textLength_string] at hlength
  rw [textLength_eq htext]
  have hfirst : (quoted "objectId").length ≤ 10 := by decide +kernel
  omega

theorem textLength_inventory (h : AdmittedInventory objectFormat limits inventory) :
    textLength (inventoryJson inventory) ≤ 2 + 131 * inventory.length := by
  have hplain : ∀ v ∈ inventory.map (fun d => Json.object d.record), Canonicalizable v := by
    intro v hv
    obtain ⟨d, hd, rfl⟩ := List.mem_map.mp hv
    obtain ⟨t, ht, -⟩ := exists_text_of_plain (h.objects d hd).plain
    exact ⟨t, ht⟩
  obtain ⟨text, htext, hlength⟩ := exists_text_array hplain
  have hsum : ((inventory.map fun d => Json.object d.record).map fun v => textLength v + 1).sum
      ≤ 131 * inventory.length := by
    rw [List.map_map]
    have hobjects := h.objects
    clear h hplain htext hlength
    induction inventory with
    | nil => exact Nat.le_refl 0
    | cons d inventory ih =>
      have hone := textLength_object (hobjects d List.mem_cons_self)
      have hmore := ih fun e he => hobjects e (List.mem_cons_of_mem d he)
      rw [List.map_cons, List.sum_cons, List.length_cons]
      simp only [Function.comp_apply]
      omega
  rw [inventoryJson, textLength_eq htext]
  omega

theorem totalBytes_nonneg (h : AdmittedInventory objectFormat limits inventory) :
    0 ≤ totalBytes inventory := by
  refine List.sum_nonneg fun n hn => ?_
  obtain ⟨d, hd, rfl⟩ := List.mem_map.mp hn
  exact (h.objects d hd).nonnegative

theorem byteLength_of_isSha256 {s : String} (h : isSha256 s = true) : byteLength s = 71 := by
  simp only [isSha256, Bool.and_eq_true, decide_eq_true_eq] at h
  exact h.1.1

theorem digestCanonical_isSha256 {v : Json} {d : Sha256Digest} (h : digestCanonical v = .ok d) :
    isSha256 d = true := by
  simp only [digestCanonical, bind_eq_ok, pure_eq_ok] at h
  obtain ⟨_, -, rfl⟩ := h
  exact isSha256_sha256Bytes _

theorem length_quoted_of_isSha256 {s : String} (h : isSha256 s = true) :
    (quoted s).length ≤ 428 := by
  have hbytes := byteLength_of_isSha256 h
  have hlength := length_quoted s
  omega

theorem textLength_artifact {m : CarrierManifest} (h : SoundManifest limits m) :
    textLength (.object m.carrierArtifact.record) ≤ 510 := by
  have hplain : (Json.object m.carrierArtifact.record).Plain :=
    ⟨⟨h.artifactBytes.2, trivial, trivial, trivial⟩,
      (carrierKeys_inOrder carrierArtifactKeys (.tail _ (.head _))).2⟩
  obtain ⟨text, htext, hlength⟩ := exists_text_object fun x hx =>
    (exists_text_of_plainMembers hplain.1 x hx).1
  have hbytes := textLength_integer (Int.zero_le_ofNat 1 |>.trans h.artifactBytes.1)
    h.artifactBytes.2
  have hdigest := length_quoted_of_isSha256 h.artifactDigest
  have hconstants : (quoted carrierFormat).length ≤ 13
      ∧ ∀ name ∈ carrierArtifactKeys, (quoted name).length ≤ 12 := by
    decide +kernel
  simp only [carrierArtifactKeys, List.forall_mem_cons] at hconstants
  simp only [CarrierArtifact.record, List.map_cons, List.map_nil, List.sum_cons, List.sum_nil,
    textLength_string] at hlength
  rw [textLength_eq htext]
  omega

/-- **A manifest takes 131 bytes for each object, and not much more.** -/
theorem length_record_le {m : CarrierManifest} {text : List UInt8} (h : SoundManifest limits m)
    (hcount : m.objectInventory.length ≤ maxSafeInteger)
    (htext : canonicalJson (.object m.record) = .ok text) :
    text.length ≤ 131 * m.objectInventory.length + 3000 := by
  have hplain := h.plain hcount
  have hwritten : ∀ x ∈ m.record, Canonicalizable x.2 := fun x hx =>
    (exists_text_of_plainMembers hplain.1 x hx).1
  obtain ⟨text', htext', hlength⟩ := exists_text_object hwritten
  obtain rfl := Except.ok.inj (htext.symm.trans htext')
  have hartifact := textLength_artifact h
  have hinventory := textLength_inventory h.admitted
  have htotal := textLength_integer (n := m.aggregateObjectBytes)
    (h.aggregate ▸ totalBytes_nonneg h.admitted) (h.aggregate ▸ h.admitted.total)
  have hobjects : textLength (.number (.integer m.objectCount)) ≤ 16 := by
    rw [h.count]
    exact textLength_integer (Int.natCast_nonneg _) hcount
  have hdigest := length_quoted_of_isSha256 (digestCanonical_isSha256 h.digest)
  have hinventoryDigest :=
    length_quoted_of_isSha256 (digestCanonical_isSha256 h.inventoryDigest)
  have hroot := length_quoted_objectId h.rootTree
  have hformat : (quoted m.objectFormat.text).length ≤ 8 := by
    cases m.objectFormat <;> decide +kernel
  have hconstants : textLength (.array (carrierTreeModes.map .string)) ≤ 40
      ∧ (quoted carrierManifestSchema).length ≤ 60
      ∧ ∀ name ∈ carrierManifestKeys, (quoted name).length ≤ 24 := by
    decide +kernel
  simp only [carrierManifestKeys, List.forall_mem_cons] at hconstants
  simp only [CarrierManifest.record, List.map_cons, List.map_nil, List.sum_cons, List.sum_nil,
    textLength_string] at hlength
  omega

/-! ## There and back -/

theorem rethrown_eq_ok {α : Type} {r : Except FoundationError α} {v : α} :
    rethrown r = .ok v ↔ r = .ok v := by
  cases r <;> simp [rethrown, Except.mapError]

theorem assertFoundationSchema_eq_ok {schemaId path : String} {schema : Schema}
    {o : JsonObject} : assertFoundationSchema schemaId schema o path = .ok ()
      ↔ Canonicalizable (.object o) ∧ schema.accepts (.object (parsedCanonical o)) = true := by
  simp only [assertFoundationSchema, bind_eq_ok, failIf_eq_ok, not_not, Schema.accepts_iff,
    exists_and_right]
  rfl

/-- **What the compiler returns** is sound, accepted by the schema, and written
as its canonical text. -/
theorem compile_eq_ok {input : ManifestInput} {m : CarrierManifest} {bytes : List UInt8}
    (h : compileCandidateRevisionCarrierManifest input = .ok (m, bytes)) :
    semanticManifest m input.limits = .ok m
      ∧ assertFoundationSchema carrierManifestSchemaId Schema.candidateRevisionCarrierManifest
        m.record "Candidate Revision Carrier manifest" = .ok ()
      ∧ canonicalJson (.object m.record) = .ok bytes := by
  simp only [compileCandidateRevisionCarrierManifest, bind_eq_ok, pure_eq_ok, exists_unit] at h
  obtain ⟨inventory, -, inventoryDigest, -, digest, -, manifest, hmanifest, hschema, text, htext,
    hout⟩ := h
  obtain ⟨rfl, rfl⟩ := Prod.mk.inj hout
  obtain ⟨rfl, -⟩ := semanticManifest_eq_ok hmanifest
  exact ⟨hmanifest, hschema, htext⟩

/-- What the parser read a manifest from. -/
theorem parse_eq_ok {number : String → JsNumber} {bytes : List UInt8} {m : CarrierManifest} :
    parseCandidateRevisionCarrierManifest number bytes limits = .ok m
      ↔ ¬ (bytes.length < 1 ∨ limits.maximumManifestBytes < bytes.length)
        ∧ ∃ text, decodeUtf8 bytes = some text
          ∧ ∃ parsed, parseStrictJson number text (manifestOptions limits) = .ok (.object parsed)
            ∧ assertFoundationSchema carrierManifestSchemaId
              Schema.candidateRevisionCarrierManifest parsed
              "Candidate Revision Carrier manifest" = .ok ()
            ∧ canonicalJson (.object parsed) = .ok (utf8Bytes text)
            ∧ ∃ read, carrierManifestOf parsed = some read
              ∧ semanticManifest read limits = .ok m := by
  simp only [parseCandidateRevisionCarrierManifest, bind_eq_ok, failIf_eq_ok, orFail_eq_ok,
    exists_unit, rethrown_eq_ok, asObject_eq_some, Option.some.injEq, not_not]
  refine and_congr_right fun _ => exists_congr fun text => and_congr_right fun _ => ?_
  constructor
  · rintro ⟨_, hvalue, parsed, rfl, hschema, _, hcanonical, rfl, read, hread, hsemantic⟩
    exact ⟨parsed, hvalue, hschema, hcanonical, read, hread, hsemantic⟩
  · rintro ⟨parsed, hvalue, hschema, hcanonical, read, hread, hsemantic⟩
    exact ⟨_, hvalue, parsed, rfl, hschema, _, hcanonical, rfl, read, hread, hsemantic⟩

/-- The input a manifest is compiled from. -/
def CarrierManifest.input (m : CarrierManifest) (limits : CarrierLimits) : ManifestInput where
  objectFormat := m.objectFormat
  rootTree := m.rootTree
  objectInventory := m.objectInventory
  carrierArtifact := m.carrierArtifact
  limits := limits

/-- **A sound manifest compiles to itself**, where the schema accepts it. -/
theorem compile_input {m : CarrierManifest} {bytes : List UInt8}
    (hsemantic : semanticManifest m limits = .ok m)
    (hschema : assertFoundationSchema carrierManifestSchemaId
      Schema.candidateRevisionCarrierManifest m.record "Candidate Revision Carrier manifest"
        = .ok ())
    (htext : canonicalJson (.object m.record) = .ok bytes) :
    compileCandidateRevisionCarrierManifest (m.input limits) = .ok (m, bytes) := by
  obtain ⟨-, hsound⟩ := semanticManifest_eq_ok hsemantic
  have hsubject : ∀ digest, ({
      objectFormat := m.objectFormat
      rootTree := m.rootTree
      objectInventory := m.objectInventory
      objectCount := m.objectInventory.length
      aggregateObjectBytes := (m.objectInventory.map (·.byteLength)).sum
      objectInventoryDigest := m.objectInventoryDigest
      carrierArtifact := m.carrierArtifact
      digest } : CarrierManifest) = { m with digest } := fun digest => by
    rw [← hsound.count, ← totalBytes, ← hsound.aggregate]
  refine bind_eq_ok.mpr ⟨_, hsound.inventory, bind_eq_ok.mpr ⟨_, hsound.inventoryDigest, ?_⟩⟩
  simp only [CarrierManifest.input, hsubject, selfDigest_digest]
  refine bind_eq_ok.mpr ⟨_, hsound.digest, bind_eq_ok.mpr ⟨m, hsemantic, ?_⟩⟩
  exact bind_eq_ok.mpr ⟨(), hschema, bind_eq_ok.mpr ⟨bytes, htext, rfl⟩⟩

end Carrier

open Carrier

/-- **Carrier manifests are read back.** Under the limits of the first version,
the bytes the compiler writes are within the bounds of the parser, which reads
the same manifest from them. Under any limits, what the parser accepts compiles
to the manifest it returns and to the bytes it was given. -/
theorem carrierManifest_roundTrip (number : String → JsNumber) :
    (∀ input m bytes, input.limits = carrierLimitsV1 →
      compileCandidateRevisionCarrierManifest input = .ok (m, bytes) →
      parseCandidateRevisionCarrierManifest number bytes carrierLimitsV1 = .ok m
        ∧ bytes.length ≤ carrierLimitsV1.maximumManifestBytes
        ∧ nodeCount (.object m.record) ≤ (manifestOptions carrierLimitsV1).maximumNodes)
    ∧ ∀ limits bytes m, parseCandidateRevisionCarrierManifest number bytes limits = .ok m →
      compileCandidateRevisionCarrierManifest (m.input limits) = .ok (m, bytes) := by
  constructor
  · intro input m bytes hlimits h
    obtain ⟨hsemantic, hschema, htext⟩ := compile_eq_ok h
    rw [hlimits] at hsemantic
    obtain ⟨-, hsound⟩ := semanticManifest_eq_ok hsemantic
    have hcount : m.objectInventory.length ≤ 1000000 := hsound.admitted.count.2
    have hsafe : m.objectInventory.length ≤ maxSafeInteger := hcount.trans (by decide)
    have hfits : FitsLimits (manifestOptions carrierLimitsV1) (.object m.record) :=
      fitsLimits_record (by decide) hcount
    have hmaximum : carrierLimitsV1.maximumManifestBytes = 268435456 := rfl
    have hbytes : bytes.length ≤ carrierLimitsV1.maximumManifestBytes := by
      have hlength := length_record_le hsound hsafe htext
      omega
    have hread : Limits (manifestOptions carrierLimitsV1) := by
      constructor <;> decide
    obtain ⟨text, hdecode, hparse⟩ : ∃ text, decodeUtf8 bytes = some text
        ∧ parseStrictJson number text (manifestOptions carrierLimitsV1)
          = .ok (.object m.record) :=
      parseStrictJson_canonicalJson hread hfits (hsound.plain hsafe) (distinctNames_record m) htext
        hbytes
    refine ⟨parse_eq_ok.mpr ⟨?_, text, hdecode, m.record, hparse, hschema, ?_, m,
      carrierManifestOf_record m, hsemantic⟩, hbytes, hfits.nodes⟩
    · have hnonempty : 1 ≤ bytes.length := by
        obtain ⟨parts, -, hout⟩ := bind_eq_ok.mp htext
        obtain rfl := Except.ok.inj hout
        exact Nat.succ_pos _
      omega
    · rw [utf8Bytes_of_decodeUtf8 hdecode]
      exact htext
  · intro limits bytes m h
    obtain ⟨-, text, hdecode, parsed, hparse, hschema, htext, read, hread, hsemantic⟩ :=
      parse_eq_ok.mp h
    obtain ⟨rfl, -⟩ := semanticManifest_eq_ok hsemantic
    rw [utf8Bytes_of_decodeUtf8 hdecode] at htext
    obtain ⟨hcanonicalizable, haccepted⟩ := assertFoundationSchema_eq_ok.mp hschema
    have hrecord := canonicalOrder_of_carrierManifestOf (distinctNames_of_parseStrictJson hparse)
      haccepted hread
    have hsame : canonicalJson (.object m.record) = canonicalJson (.object parsed) := by
      rw [← hrecord]
      exact canonicalize_canonicalOrder _ _
    have hordered : parsedCanonical m.record = parsedCanonical parsed := by
      refine parsedCanonical_congr ?_
      rw [← hrecord, canonicalOrder_canonicalOrder]
    refine compile_input hsemantic (assertFoundationSchema_eq_ok.mpr ⟨?_, ?_⟩)
      (hsame.trans htext)
    · exact ⟨bytes, hsame.trans htext⟩
    · rw [hordered]
      exact haccepted

namespace Carrier

namespace Sample

/-- A closure of one tree. -/
def input : ManifestInput where
  objectFormat := .sha1
  rootTree := "00000000000000000000000000000000000000aa"
  objectInventory := [⟨"00000000000000000000000000000000000000aa", "tree", 33⟩]
  carrierArtifact :=
    ⟨100, "sha256:0000000000000000000000000000000000000000000000000000000000000000"⟩
  limits := carrierLimitsV1

/-- No numeral of a manifest is anything but an integer. -/
def number (_ : String) : JsNumber := .nonFinite "NaN"

theorem isOk_compile : (compileCandidateRevisionCarrierManifest input).isOk = true := by
  decide +kernel

end Sample

/-- The manifest of one tree is compiled, read back and compiled again. -/
theorem oneTree_roundTrip : ∃ m bytes,
    compileCandidateRevisionCarrierManifest Sample.input = .ok (m, bytes)
      ∧ parseCandidateRevisionCarrierManifest Sample.number bytes carrierLimitsV1 = .ok m
      ∧ compileCandidateRevisionCarrierManifest (m.input carrierLimitsV1) = .ok (m, bytes) := by
  have hok := Sample.isOk_compile
  cases h : compileCandidateRevisionCarrierManifest Sample.input with
  | error e =>
    rw [h] at hok
    cases hok
  | ok out =>
    obtain ⟨hread, -⟩ := (carrierManifest_roundTrip Sample.number).1 _ out.1 out.2 rfl h
    exact ⟨out.1, out.2, rfl, hread, (carrierManifest_roundTrip Sample.number).2 _ _ _ hread⟩

end Carrier
