import Lifecycle.CodeInspection
import Lifecycle.JsonWriters
import Lifecycle.KeyOrder
import Lifecycle.Segments

/-!
# Blob sizes

What `cat-file --batch-check` answers for some blobs, one line for each with its
identity and its size, and that `exactBlobSizes` reads every size back from it
(`exactBlobSizes_eq_ok`). The answer always fits into the output the command is
allowed.
-/

open Fallible Json ControlModel Knowledge Carrier Segments

variable {objectFormat : GitObjectFormat}

/-! ## Identities -/

/-- The characters of a text whose bytes are hexadecimal digits. -/
theorem isHexDigit_of_hexClass {cs : List Char} (h : ∀ b ∈ utf8 cs, hexClass b = true) {c : Char}
    (hc : c ∈ cs) : Sha256.isHexDigit c = true := by
  have hbytes : ∀ b ∈ String.utf8EncodeChar c, hexClass b = true := by
    intro b hb
    exact h b (List.mem_flatMap.mpr ⟨c, hc, hb⟩)
  have hlt : c.toNat < 128 := by
    by_contra hge
    cases hencoded : String.utf8EncodeChar c with
    | nil => exact String.utf8EncodeChar_ne_nil hencoded
    | cons b rest =>
      have hb : b ∈ String.utf8EncodeChar c := hencoded ▸ List.mem_cons_self
      have hclass := hbytes b hb
      have hlarge := le_of_mem_utf8EncodeChar (Nat.le_of_not_lt hge) hb
      simp only [hexClass, Bool.or_eq_true, Bool.and_eq_true, Nat.ble_eq] at hclass
      omega
  obtain ⟨b, hb, hbc⟩ := utf8EncodeChar_of_lt hlt
  have hclass := hbytes b (hb ▸ List.mem_singleton_self b)
  rw [hexClass, hbc] at hclass
  exact hclass

theorem lt_of_isHexDigit {c : Char} (h : Sha256.isHexDigit c = true) : c.toNat < 128 := by
  simp only [Sha256.isHexDigit, Bool.or_eq_true, Bool.and_eq_true, Nat.ble_eq] at h
  omega

/-- The digits of an identity. -/
def idLength : GitObjectFormat → Nat
  | .sha1 => 40
  | .sha256 => 64

/-- **An object identity is so many hexadecimal digits.** -/
theorem chars_of_objectIdPattern {id : String} (h : objectIdPattern objectFormat id = true) :
    id.toList.length = idLength objectFormat ∧ ∀ c ∈ id.toList, Sha256.isHexDigit c = true := by
  simp only [objectIdPattern, Bool.and_eq_true, decide_eq_true_eq, List.all_eq_true,
    utf8Bytes_eq] at h
  have hdigits : ∀ c ∈ id.toList, Sha256.isHexDigit c = true := fun c => isHexDigit_of_hexClass h.2
  rw [length_utf8_of_lt fun c hc => lt_of_isHexDigit (hdigits c hc)] at h
  exact ⟨h.1, hdigits⟩

theorem textLength16_objectId {id : String} (h : objectIdPattern objectFormat id = true) :
    textLength16 id = id.toList.length := by
  have hunits : ∀ c ∈ id.toList, (utf16Units c).length = 1 := by
    intro c hc
    have hlt := lt_of_isHexDigit ((chars_of_objectIdPattern h).2 c hc)
    rw [utf16Units, if_pos (by omega)]
    rfl
  rw [textLength16, List.length_flatMap, List.map_congr_left hunits, List.map_const',
    List.sum_replicate, smul_eq_mul, Nat.mul_one]

/-- **The identities of a repository pass**: their length says their format. -/
theorem parseObjectId_eq_ok {id : String} (h : objectIdPattern objectFormat id = true)
    (label : String) :
    parseObjectId id (if textLength16 id = 40 then GitObjectFormat.sha1 else .sha256) label
      = .ok id := by
  have hlength := (chars_of_objectIdPattern h).1
  have hformat : (if textLength16 id = 40 then GitObjectFormat.sha1 else .sha256) = objectFormat := by
    rw [textLength16_objectId h, hlength]
    cases objectFormat <;> rfl
  rw [hformat, parseObjectId, failIf_neg (by simp [h])]
  rfl

/-! ## The answer -/

/-- The line that answers for a blob. -/
def answerLine (size : String → Nat) (id : String) : List Char :=
  id.toList ++ (" blob ".toList ++ Nat.toDigits 10 (size id))

/-- **What Git answers** for some blobs. -/
def sizeAnswer (size : String → Nat) (ids : List String) : String :=
  String.ofList (terminated '\n' (ids.map (answerLine size)))

/-- What Git is asked about some objects. -/
def sizeRequest (ids : List String) : String :=
  String.ofList (ids.flatMap fun id => id.toList ++ ['\n'])

/-- **Git gives the sizes of some blobs**: it answers every question about them
whose answer fits into the output allowed, and the sizes are safe integers. -/
structure AnswersSizes (git : Git) (blobs : String → Prop) (size : String → Nat) : Prop where
  safe : ∀ id, blobs id → size id ≤ maxSafeInteger
  answers : ∀ ids maximum, ids ≠ [] → (∀ id ∈ ids, blobs id) →
    (utf8Bytes (sizeAnswer size ids)).length ≤ maximum →
    git.batchCheck (sizeRequest ids) maximum = .ok ⟨0, none, false, false, false, sizeAnswer size ids⟩

/-- A line is read as the identity and the digits it is written from. -/
theorem sizeLine_answerLine {id : String} (h : objectIdPattern objectFormat id = true)
    (size : String → Nat) :
    sizeLine (answerLine size id) = some (id.toList, Nat.toDigits 10 (size id)) := by
  obtain ⟨hlength, hdigits⟩ := chars_of_objectIdPattern h
  have hspace : ∀ c ∈ (" blob ".toList ++ Nat.toDigits 10 (size id)).head?,
      Sha256.isHexDigit c = false := by
    intro c hc
    obtain rfl := Option.some.inj hc
    decide
  have htake : (answerLine size id).takeWhile Sha256.isHexDigit = id.toList :=
    StrictJson.takeWhile_of_all hdigits hspace
  have hdrop : (answerLine size id).dropWhile Sha256.isHexDigit
      = " blob ".toList ++ Nat.toDigits 10 (size id) :=
    StrictJson.dropWhile_of_all hdigits hspace
  have hid : id.toList.length = 40 ∨ id.toList.length = 64 := by
    rw [hlength]
    cases objectFormat
    · exact .inl rfl
    · exact .inr rfl
  have hzero : Nat.toDigits 10 (size id) = ['0'] ∨ (Nat.toDigits 10 (size id)).head? ≠ some '0' := by
    rcases Nat.eq_zero_or_pos (size id) with hsize | hsize
    · exact .inl (by rw [hsize]; rfl)
    · exact .inr (StrictJson.head_toDigits hsize)
  have hall : (Nat.toDigits 10 (size id)).all StrictJson.isDigit = true := by
    rw [List.all_eq_true]
    exact fun c => StrictJson.isDigit_of_mem_toDigits
  have hrest : (" blob ".toList ++ Nat.toDigits 10 (size id)).drop 6 = Nat.toDigits 10 (size id) := rfl
  unfold sizeLine
  simp only [htake, hdrop, hrest]
  rw [if_pos ⟨hid, rfl, Nat.toDigits_ne_nil, hall, hzero⟩]

theorem blobSize_eq_ok {id : String} (h : objectIdPattern objectFormat id = true)
    {size : String → Nat} (hsafe : size id ≤ maxSafeInteger) :
    blobSize id (answerLine size id) = .ok (id, size id) := by
  rw [blobSize, sizeLine_answerLine h size]
  simp only [orFail, ok_bind, String.ofList_toList, Nat.ofDigitChars_ten_toDigits]
  rw [failIf_neg (by simp), ok_bind, failIf_neg (Nat.not_lt.mpr hsafe), ok_bind]
  rfl

/-- A line takes 87 bytes at most. -/
theorem length_answerLine {id : String} (h : objectIdPattern objectFormat id = true)
    {size : String → Nat} (hsafe : size id ≤ maxSafeInteger) :
    (answerLine size id).length ≤ 86 ∧ ∀ c ∈ answerLine size id, c.toNat < 128 := by
  obtain ⟨hlength, hdigits⟩ := chars_of_objectIdPattern h
  have hcount : (Nat.toDigits 10 (size id)).length ≤ 16 := by
    rw [Nat.length_toDigits_le_iff (by decide) (by decide)]
    exact Nat.lt_of_le_of_lt hsafe (by decide)
  have hid : id.toList.length ≤ 64 := by
    rw [hlength]
    cases objectFormat <;> decide
  constructor
  · have hword : " blob ".toList.length = 6 := rfl
    rw [answerLine, List.length_append, List.length_append, hword]
    omega
  · have hword : " blob ".toList.all (fun c => decide (c.toNat < 128)) = true := by decide +kernel
    intro c hc
    rw [answerLine, List.mem_append, List.mem_append] at hc
    rcases hc with hc | hc | hc
    · exact lt_of_isHexDigit (hdigits c hc)
    · exact of_decide_eq_true (List.all_eq_true.mp hword c hc)
    · have hdigit := StrictJson.isDigit_of_mem_toDigits hc
      simp only [StrictJson.isDigit, Bool.and_eq_true, decide_eq_true_eq] at hdigit
      omega

/-- **The answer fits into the output allowed.** -/
theorem length_sizeAnswer {ids : List String} {size : String → Nat}
    (h : ∀ id ∈ ids, objectIdPattern objectFormat id = true ∧ size id ≤ maxSafeInteger) :
    (utf8Bytes (sizeAnswer size ids)).length ≤ ids.length * 160 := by
  have hlt : ∀ c ∈ terminated '\n' (ids.map (answerLine size)), c.toNat < 128 := by
    intro c hc
    obtain ⟨line, hline, hc⟩ := List.mem_flatMap.mp hc
    obtain ⟨id, hid, rfl⟩ := List.mem_map.mp hline
    rcases List.mem_append.mp hc with hc | hc
    · exact (length_answerLine (h id hid).1 (h id hid).2).2 c hc
    · rw [List.mem_singleton.mp hc]
      decide
  rw [sizeAnswer, utf8Bytes_eq, String.toList_ofList, length_utf8_of_lt hlt]
  clear hlt
  induction ids with
  | nil => exact Nat.le_refl 0
  | cons id ids ih =>
    have hline := (length_answerLine (h id List.mem_cons_self).1 (h id List.mem_cons_self).2).1
    have hrest := ih fun id' hid' => h id' (List.mem_cons_of_mem id hid')
    rw [List.map_cons, terminated_cons, List.length_append, List.length_cons, List.length_cons]
    omega

/-- The lines of an answer have no line break of their own. -/
theorem free_answerLines {ids : List String} {size : String → Nat}
    (h : ∀ id ∈ ids, objectIdPattern objectFormat id = true) :
    Free '\n' (ids.map (answerLine size)) := by
  have hword : '\n' ∉ " blob ".toList := by decide +kernel
  intro line hline hbreak
  obtain ⟨id, hid, rfl⟩ := List.mem_map.mp hline
  rw [answerLine, List.mem_append, List.mem_append] at hbreak
  rcases hbreak with hc | hc | hc
  · exact absurd ((chars_of_objectIdPattern (h id hid)).2 _ hc) (by decide)
  · exact hword hc
  · exact absurd (StrictJson.isDigit_of_mem_toDigits hc) (by decide)

/-- The sizes of some blobs. -/
def sizesOf (size : String → Nat) (ids : List String) : OrderedMap String Nat :=
  (ids.map fun id => (id, size id)).foldl (fun m value => m.set value.1 value.2) ∅

/-- **An answer is read as the sizes it gives.** -/
theorem parseGitBlobSizeResult_eq_ok {ids : List String} {size : String → Nat} (hne : ids ≠ [])
    (h : ∀ id ∈ ids, objectIdPattern objectFormat id = true ∧ size id ≤ maxSafeInteger) :
    parseGitBlobSizeResult ⟨0, none, false, false, false, sizeAnswer size ids⟩ ids
      = .ok (sizesOf size ids) := by
  have hlines : ids.map (answerLine size) ≠ [] := fun hnil => hne (List.map_eq_nil_iff.mp hnil)
  have hfree : Free '\n' (ids.map (answerLine size)) := free_answerLines fun id hid => (h id hid).1
  have hlast : (sizeAnswer size ids).toList.getLast? = some '\n' := by
    rw [sizeAnswer, String.toList_ofList, getLast?_terminated hlines]
  have hsplit : (sizeAnswer size ids).toList.dropLast.splitOn '\n' = ids.map (answerLine size) := by
    rw [sizeAnswer, String.toList_ofList, dropLast_terminated hlines]
    exact List.splitOn_intercalate '\n' hfree hlines
  have hsizes : (ids.zip (ids.map (answerLine size))).mapM (fun entry => blobSize entry.1 entry.2)
      = .ok (ids.map fun id => (id, size id)) := by
    rw [mapM_eq_ok_iff]
    clear hlines hfree hlast hsplit hne
    induction ids with
    | nil => exact .nil
    | cons id ids ih =>
      have hid := h id List.mem_cons_self
      exact .cons (blobSize_eq_ok hid.1 hid.2) (ih fun id' hid' => h id' (List.mem_cons_of_mem id hid'))
  have hcount : ¬ (ids.map (answerLine size)).length ≠ ids.length := by simp
  unfold parseGitBlobSizeResult
  simp only [hlast, hsplit, hsizes, failIf_neg hcount]
  rfl

/-- **Every size asked for is read.** -/
theorem exactBlobSizes_eq_ok {git : Git} {blobs : String → Prop} {size : String → Nat}
    {ids : List String} (hgit : AnswersSizes git blobs size)
    (hids : ∀ id ∈ ids, blobs id ∧ objectIdPattern objectFormat id = true)
    (hcount : ids.length ≤ maximumTreeEntries) :
    ∃ sizes, exactBlobSizes git ids = .ok sizes ∧ ∀ id ∈ ids, sizes.get id = some (size id) := by
  have hmem : ∀ id, id ∈ sortKeys ids.dedup ↔ id ∈ ids := by
    intro id
    rw [sortKeys, List.mem_insertionSort, List.mem_dedup]
  have hnodup : (sortKeys ids.dedup).Nodup :=
    (List.perm_insertionSort _ ids.dedup).nodup_iff.mpr (List.nodup_dedup ids)
  by_cases hempty : (sortKeys ids.dedup).length = 0
  · refine ⟨∅, ?_, fun id hid => ?_⟩
    · rw [exactBlobSizes, if_pos hempty]
      rfl
    · rw [← hmem, List.length_eq_zero_iff.mp hempty] at hid
      exact absurd hid List.not_mem_nil
  · have hne : sortKeys ids.dedup ≠ [] := fun hnil => hempty (List.length_eq_zero_iff.mpr hnil)
    have hvalid : ∀ id ∈ sortKeys ids.dedup, objectIdPattern objectFormat id = true
        ∧ size id ≤ maxSafeInteger := by
      intro id hid
      obtain ⟨hblob, hpattern⟩ := hids id ((hmem id).mp hid)
      exact ⟨hpattern, hgit.safe id hblob⟩
    have hbound : (sortKeys ids.dedup).length ≤ maximumTreeEntries := by
      rw [sortKeys, List.length_insertionSort]
      exact (List.dedup_sublist ids).length_le.trans hcount
    have hanswer := hgit.answers (sortKeys ids.dedup) (max 1024 ((sortKeys ids.dedup).length * 160)) hne
      (fun id hid => (hids id ((hmem id).mp hid)).1)
      ((length_sizeAnswer hvalid).trans (le_max_right _ _))
    have hchecked : ((sortKeys ids.dedup).forM fun objectId => do
        let format := if textLength16 objectId = 40 then GitObjectFormat.sha1 else .sha256
        let _ ← parseObjectId objectId format "Inventoried blob"
        pure ()) = (.ok () : Except FoundationError Unit) := by
      rw [forM_eq_ok]
      intro id hid
      exact bind_eq_ok.mpr ⟨id, parseObjectId_eq_ok (hvalid id hid).1 _, rfl⟩
    refine ⟨sizesOf size (sortKeys ids.dedup), ?_, fun id hid => ?_⟩
    · rw [exactBlobSizes, if_neg hempty, failIf_neg (Nat.not_lt.mpr hbound), ok_bind, hchecked,
        ok_bind, show String.ofList _ = sizeRequest (sortKeys ids.dedup) from rfl, hanswer, ok_bind,
        parseGitBlobSizeResult_eq_ok hne hvalid]
    · have hkeys : ((sortKeys ids.dedup).map fun id => (id, size id)).map Prod.fst
          = sortKeys ids.dedup := by
        rw [List.map_map]
        exact List.map_id' _
      rw [OrderedMap.get_eq_some_iff, sizesOf,
        OrderedMap.entries_foldl_set_empty (hkeys.symm ▸ hnodup), List.map_map]
      exact List.mem_map.mpr ⟨id, (hmem id).mpr hid, rfl⟩
