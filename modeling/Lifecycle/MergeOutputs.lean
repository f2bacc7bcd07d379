import Lifecycle.KnowledgeModel
import Lifecycle.MergeSections
import Lifecycle.Segments

/-!
# What an integration merge output says

A merge output is the rendering of a report – a result tree, staged paths and
messages – and parsing accepts exactly the renderings of reports within their
bounds whose conflicts agree with the exit status. The counts in the output
make its framing its own: two reports never share a rendering, and a rendering
that starts another one is that of the same report with the last messages left
out (`mergeOutput_parsed`).
-/

open Fallible Json ControlModel Carrier Segments Comparison

namespace Integration

/-! ## Reports -/

/-- The fields of a merge output. -/
def reportFields (rootTree : String) (staged : List String) (messages : List MergeMessage) :
    List String :=
  rootTree :: (staged ++ "" :: messages.flatMap MergeMessage.fields)

/-- **What a merge reports**: a tree, the staged paths and the messages. No
field has a NUL, and a staged path has a name. -/
structure MergeReport where
  rootTree : String
  staged : List String
  messages : List MergeMessage
  nulFree : ∀ f ∈ reportFields rootTree staged messages, '\x00' ∉ f.toList
  named : ∀ p ∈ staged, p ≠ ""

namespace MergeReport

/-- The fields of the output. -/
def fields (r : MergeReport) : List String := reportFields r.rootTree r.staged r.messages

/-- **The NUL-framed rendering.** -/
def render (r : MergeReport) : List UInt8 :=
  utf8 (terminated '\x00' (r.fields.map String.toList))

/-- The conflicts of the messages. -/
def explained (r : MergeReport) : List IntegrationConflict :=
  r.messages.flatMap MergeMessage.conflicts

/-- **The conflicts reported**: those of the messages and the staged paths no
message explains. -/
def conflicts (r : MergeReport) : List IntegrationConflict :=
  r.explained ++ unexplained r.explained r.staged

/-- **The reports that are read**: those within the bounds. -/
structure Admitted (objectFormat : GitObjectFormat) (r : MergeReport) : Prop where
  rootTree : objectIdPattern objectFormat r.rootTree = true
  size : r.render.length ≤ maximumMergeOutputBytes
  stagedPaths : ∀ p ∈ r.staged, isConflictPath p = true
  stagedCount : r.staged.dedup.length ≤ maximumConflictPaths
  messages : ∀ m ∈ r.messages, m.Admitted
  conflictCount : r.conflicts.dedup.length ≤ maximumConflictPaths

/-- **What a report with an exit status comes to.** -/
def Reports (r : MergeReport) (exitCode : Int) : MergeOutput → Prop
  | .constructed rootTree => exitCode = 0 ∧ r.conflicts = [] ∧ rootTree = r.rootTree
  | .conflicted conflicts => exitCode = 1 ∧ r.explained ≠ []
      ∧ conflicts.Pairwise (fun a b => conflictLe a b = true ∧ a ≠ b)
      ∧ ∀ c, c ∈ conflicts ↔ c ∈ r.conflicts

end MergeReport

theorem mem_unexplained {explained : List IntegrationConflict} {staged : List String}
    {c : IntegrationConflict} :
    c ∈ unexplained explained staged
      ↔ c.kind = .unsupported ∧ c.path ∈ staged ∧ ∀ e ∈ explained, e.path ≠ c.path := by
  simp only [unexplained, List.mem_map, List.mem_filter, decide_eq_true_eq]
  constructor
  · rintro ⟨p, ⟨hp, hexplained⟩, rfl⟩
    exact ⟨rfl, hp, hexplained⟩
  · rintro ⟨hkind, hp, hexplained⟩
    refine ⟨c.path, ⟨hp, hexplained⟩, ?_⟩
    rw [← hkind]

theorem conflictLe_comparison : Comparison conflictLe :=
  (SortedBy.codePoint.comap _).then_by (SortedBy.codePoint.comap _)

theorem eq_of_tied {a b : IntegrationConflict} (h : Tied conflictLe a b) : a = b := by
  obtain ⟨hpath, hkind⟩ := tied_thenBy.mp h
  obtain ⟨path, kind⟩ := a
  obtain ⟨path', kind'⟩ := b
  obtain rfl : path = path' := SortedBy.tied_codePoint.mp hpath
  obtain rfl : kind = kind' := kind_text_inj _ _ (SortedBy.tied_codePoint.mp hkind)
  rfl

/-- **A strictly sorted list of conflicts is determined by what is in it.** -/
theorem eq_sortWith_iff {values conflicts : List IntegrationConflict} (hvalues : values.Nodup) :
    conflicts = sortWith conflictLe values
      ↔ conflicts.Pairwise (fun a b => conflictLe a b = true ∧ a ≠ b)
        ∧ ∀ c, c ∈ conflicts ↔ c ∈ values := by
  constructor
  · rintro rfl
    refine ⟨?_, fun c => mem_sortWith⟩
    have hnodup : (sortWith conflictLe values).Nodup := (perm_sortWith _ _).nodup_iff.mpr hvalues
    exact (pairwise_sortWith conflictLe_comparison values).and hnodup
  · rintro ⟨hsorted, hmem⟩
    have hnodup : conflicts.Nodup := hsorted.imp And.right
    have hperm := (List.perm_ext_iff_of_nodup hnodup hvalues).mpr hmem
    rw [← sortWith_eq_of_perm conflictLe_comparison hperm fun a _ b _ => eq_of_tied]
    have : Std.Total fun a b => conflictLe a b = true := ⟨conflictLe_comparison.total⟩
    have : IsTrans _ fun a b => conflictLe a b = true := ⟨fun _ _ _ => conflictLe_comparison.trans⟩
    exact (List.Pairwise.insertionSort_eq (hsorted.imp And.left)).symm

/-! ## The bytes -/

/-- Bytes end in 0 exactly when the text they encode ends in a NUL. -/
theorem getLast?_utf8 {cs : List Char} :
    (utf8 cs).getLast? = some 0 ↔ cs.getLast? = some '\x00' := by
  cases cs using List.reverseRecOn with
  | nil => exact ⟨nofun, nofun⟩
  | append_singleton front c =>
    have hne : utf8 [c] ≠ [] := by simp [utf8, String.utf8EncodeChar_ne_nil]
    rw [utf8_append, List.getLast?_append_of_ne_nil _ hne, List.getLast?_concat]
    constructor
    · intro h
      have hmem : '\x00' ∈ [c] := zero_mem_utf8.mp (List.mem_of_mem_getLast? h)
      rw [List.mem_singleton.mp hmem]
    · intro h
      rw [Option.some.inj h]
      rfl

/-- The bytes of fields with a NUL after each are their bytes with a 0 after
each. -/
theorem utf8_terminated (xs : List (List Char)) :
    utf8 (terminated '\x00' xs) = terminated 0 (xs.map utf8) := by
  induction xs with
  | nil => rfl
  | cons x xs ih =>
    rw [terminated_cons, List.map_cons, terminated_cons, utf8_append, utf8_cons, ih]
    rfl

theorem free_fields (r : MergeReport) : Free '\x00' (r.fields.map String.toList) := by
  intro x hx
  obtain ⟨f, hf, rfl⟩ := List.mem_map.mp hx
  exact r.nulFree f hf

theorem splitNul_terminated (fields : List String)
    (h : Free '\x00' (fields.map String.toList)) :
    (splitNul (String.ofList (terminated '\x00' (fields.map String.toList)))).dropLast = fields := by
  rw [splitNul, String.toList_ofList, splitOn_terminated h, List.map_append, List.map_singleton,
    List.dropLast_concat, List.map_map]
  exact List.map_id'' (fun f => String.ofList_toList) fields

/-- **Bytes that end in 0 and decode are fields with a NUL after each.** -/
theorem exists_fields {bytes : List UInt8} {text : String} (hlast : bytes.getLast? = some 0)
    (htext : decodeUtf8 bytes = some text) :
    ∃ fields : List String, fields ≠ [] ∧ Free '\x00' (fields.map String.toList)
      ∧ bytes = utf8 (terminated '\x00' (fields.map String.toList))
      ∧ (splitNul text).dropLast = fields := by
  have hbytes : utf8 text.toList = bytes := by rw [← utf8Bytes_eq, utf8Bytes_of_decodeUtf8 htext]
  rw [← hbytes, getLast?_utf8] at hlast
  obtain ⟨xs, hne, hfree, hxs, -⟩ := exists_terminated hlast
  have hmap : (xs.map String.ofList).map String.toList = xs := by
    rw [List.map_map]
    exact List.map_id'' (fun x => String.toList_ofList) xs
  refine ⟨xs.map String.ofList, by simpa using hne, by rwa [hmap], by rw [hmap, ← hxs, hbytes], ?_⟩
  have hsplit := splitNul_terminated (xs.map String.ofList) (by rwa [hmap])
  rwa [hmap, ← hxs, String.ofList_toList] at hsplit

/-! ## Parsing -/

/-- The facts of a report decide what it comes to. -/
theorem conclude_eq_ok {exitCode : Int} {rootTree : String} {facts : MergeFacts}
    {cs : List IntegrationConflict} {out : MergeOutput} (h : facts.Holds cs)
    (hexit : ¬(exitCode ≠ 0 ∧ exitCode ≠ 1)) :
    ((if exitCode = 0 then do
        failIf (facts.conflicts.entries.length ≠ 0)
          (fail "Clean integration status contradicts conflict facts")
        pure (.constructed rootTree)
      else do
        failIf (facts.conflicts.entries.length = 0)
          (fail "Conflicted integration has no complete conflict facts")
        pure (.conflicted (sortWith conflictLe facts.conflicts.values)) :
      Except FoundationError MergeOutput)) = .ok out
      ↔ match out with
        | .constructed rootTree' => exitCode = 0 ∧ cs = [] ∧ rootTree' = rootTree
        | .conflicted conflicts => exitCode = 1 ∧ cs ≠ []
            ∧ conflicts.Pairwise (fun a b => conflictLe a b = true ∧ a ≠ b)
            ∧ ∀ c, c ∈ conflicts ↔ c ∈ cs := by
  have hlength : facts.conflicts.entries.length = 0 ↔ cs = [] := by
    rw [h.length_entries, List.length_eq_zero_iff, List.dedup_eq_nil]
  have hsorted : ∀ conflicts, conflicts = sortWith conflictLe facts.conflicts.values
      ↔ conflicts.Pairwise (fun a b => conflictLe a b = true ∧ a ≠ b)
        ∧ ∀ c, c ∈ conflicts ↔ c ∈ cs := by
    intro conflicts
    rw [eq_sortWith_iff h.nodup_values]
    simp only [h.conflicts]
  by_cases hzero : exitCode = 0
  · rw [if_pos hzero]
    simp only [bind_eq_ok, failIf_eq_ok, exists_unit, pure_eq_ok, not_not, hlength]
    cases out with
    | constructed rootTree' =>
      rw [MergeOutput.constructed.injEq]
      simp only [hzero, true_and]
      exact and_congr_right fun _ => eq_comm
    | conflicted conflicts => simp [hzero]
  · have hone : exitCode = 1 := by
      by_contra hone
      exact hexit ⟨hzero, hone⟩
    rw [if_neg hzero]
    simp only [bind_eq_ok, failIf_eq_ok, exists_unit, pure_eq_ok, hlength]
    cases out with
    | constructed rootTree' => simp [hzero]
    | conflicted conflicts =>
      simp only [MergeOutput.conflicted.injEq, hone, true_and, ← hsorted]
      exact and_congr_right fun _ => eq_comm

theorem mem_conflicts_congr (explained : List IntegrationConflict) {staged staged' : List String}
    (h : ∀ p, p ∈ staged ↔ p ∈ staged') (c : IntegrationConflict) :
    c ∈ explained ++ unexplained explained staged ↔ c ∈ explained ++ unexplained explained staged' := by
  rw [List.mem_append, List.mem_append, mem_unexplained, mem_unexplained, h]

theorem MergeFacts.Holds.congr {facts : MergeFacts} {cs cs' : List IntegrationConflict}
    (h : facts.Holds cs) (hmem : ∀ c, c ∈ cs ↔ c ∈ cs') : facts.Holds cs' := by
  refine ⟨h.keyed, fun c => (h.conflicts c).trans (hmem c), fun p => (h.explained p).trans ?_⟩
  exact exists_congr fun c => and_congr_left fun _ => hmem c

/-- **What the facts of the two sections come to.** -/
theorem facts_eq_ok {r : MergeReport} {exitCode : Int} {staged : List String} {out : MergeOutput}
    (hexit : ¬(exitCode ≠ 0 ∧ exitCode ≠ 1)) (hnodup : staged.Nodup)
    (hstaged : ∀ p, p ∈ staged ↔ p ∈ r.staged) :
    (∃ facts, replay insertConflict {} r.explained = .ok facts
        ∧ ¬(exitCode = 1 ∧ facts.conflicts.entries.length = 0)
        ∧ ∃ facts', replay insertUnexplained facts staged = .ok facts'
          ∧ ((if exitCode = 0 then do
              failIf (facts'.conflicts.entries.length ≠ 0)
                (fail "Clean integration status contradicts conflict facts")
              pure (.constructed r.rootTree)
            else do
              failIf (facts'.conflicts.entries.length = 0)
                (fail "Conflicted integration has no complete conflict facts")
              pure (.conflicted (sortWith conflictLe facts'.conflicts.values)) :
            Except FoundationError MergeOutput)) = .ok out)
      ↔ r.conflicts.dedup.length ≤ maximumConflictPaths ∧ r.Reports exitCode out := by
  have hmem := mem_conflicts_congr r.explained hstaged
  have hlength : (r.explained ++ unexplained r.explained staged).dedup.length
      = r.conflicts.dedup.length :=
    length_eq_of_mem_iff (List.nodup_dedup _) fun c => by rw [List.mem_dedup, hmem, MergeReport.conflicts]
  obtain ⟨hfirst, hfirst'⟩ := holds_replay holds_nil (Nat.zero_le _) r.explained
  rw [List.nil_append] at hfirst hfirst'
  constructor
  · rintro ⟨facts, hfacts, hmessages, facts', hfacts', hout⟩
    obtain ⟨hholds, hbound⟩ := hfirst facts hfacts
    rw [replay_insertUnexplained hholds hnodup] at hfacts'
    obtain ⟨hholds', hbound'⟩ := (holds_replay hholds hbound _).1 facts' hfacts'
    refine ⟨hlength ▸ hbound', ?_⟩
    have hreports := (conclude_eq_ok (hholds'.congr hmem) hexit).mp hout
    cases out with
    | constructed rootTree => exact hreports
    | conflicted conflicts =>
      obtain ⟨hone, -, hsorted, hconflicts⟩ := hreports
      refine ⟨hone, fun hnil => hmessages ⟨hone, ?_⟩, hsorted, hconflicts⟩
      rw [hholds.length_entries, hnil]
      rfl
  · rintro ⟨hbound, hreports⟩
    obtain ⟨facts, hfacts⟩ := hfirst' ((length_dedup_le_append _ _).trans hbound)
    obtain ⟨hholds, hbound'⟩ := hfirst facts hfacts
    obtain ⟨facts', hfacts'⟩ := (holds_replay hholds hbound' _).2 (hlength.trans_le hbound)
    obtain ⟨hholds', -⟩ := (holds_replay hholds hbound' _).1 facts' hfacts'
    have hempty : facts.conflicts.entries.length = 0 ↔ r.explained = [] := by
      rw [hholds.length_entries, List.length_eq_zero_iff, List.dedup_eq_nil]
    rw [← replay_insertUnexplained hholds hnodup] at hfacts'
    refine ⟨facts, hfacts, ?_, facts', hfacts', (conclude_eq_ok (hholds'.congr hmem) hexit).mpr ?_⟩
    · rintro ⟨hone, hnone⟩
      rw [hempty] at hnone
      cases out with
      | constructed rootTree => exact absurd (hone.symm.trans hreports.1) (by decide)
      | conflicted conflicts => exact hreports.2.1 hnone
    · cases out with
      | constructed rootTree => exact hreports
      | conflicted conflicts =>
        obtain ⟨hone, hsome, hsorted, hconflicts⟩ := hreports
        refine ⟨hone, fun hnil => hsome ?_, hsorted, hconflicts⟩
        exact (List.append_eq_nil_iff.mp hnil).1

/-- **Parsing accepts the renderings of the reports within the bounds**, and
returns what they come to with the exit status. -/
theorem parseMergeOutput_eq_ok {objectFormat : GitObjectFormat} {exitCode : Int}
    {bytes : List UInt8} {out : MergeOutput} :
    parseMergeOutput objectFormat exitCode bytes = .ok out
      ↔ ∃ r : MergeReport, bytes = r.render ∧ r.Admitted objectFormat ∧ r.Reports exitCode out := by
  simp only [parseMergeOutput, bind_eq_ok, failIf_eq_ok, exists_unit, orFail_eq_ok,
    Bool.not_eq_false, not_or, not_not, Nat.not_lt, Prod.exists]
  constructor
  · rintro ⟨hexit, ⟨-, hsize, hlast⟩, text, htext, htree, staged, rest, hstaged, hboundary, facts,
      hfacts, hresult⟩
    obtain ⟨fields, hne, hfree, hbytes, hfields⟩ := exists_fields hlast htext
    rw [hfields] at htree hstaged hresult
    cases fields with
    | nil => exact absurd rfl hne
    | cons rootTree fields =>
      rw [List.headD_cons] at htree hresult
      rw [List.tail_cons, readStaged_eq_ok (Nat.zero_le _)] at hstaged
      obtain ⟨paths, rfl, -, hpaths, rfl, hcount⟩ := hstaged
      cases rest with
      | nil => exact absurd hboundary (by simp)
      | cons boundary rest =>
        obtain rfl := Option.some.inj hboundary
        rw [List.tail_cons, readMessages_eq_ok (Nat.le_refl _)] at hfacts
        obtain ⟨messages, rfl, hmessages, hreplay⟩ := hfacts
        let r : MergeReport := ⟨rootTree, paths, messages,
          fun f hf => hfree _ (List.mem_map_of_mem hf),
          fun p hp => isConflictPath_ne_empty (hpaths p hp)⟩
        have hnodup : (paths.foldl add []).Nodup := nodup_foldl_add List.nodup_nil paths
        have hmem : ∀ p, p ∈ paths.foldl add [] ↔ p ∈ paths := by
          intro p
          rw [mem_foldl_add]
          exact or_iff_right List.not_mem_nil
        obtain ⟨hbound, hreports⟩ := (facts_eq_ok (r := r) hexit hnodup hmem).mp
          ⟨facts, hreplay, hresult⟩
        have hrender : bytes = r.render := hbytes
        refine ⟨r, hrender, ⟨htree, hrender ▸ hsize, hpaths, ?_, hmessages, hbound⟩, hreports⟩
        exact (length_eq_of_mem_iff hnodup hmem).symm.trans_le hcount
  · rintro ⟨r, rfl, hr, hreports⟩
    have hexit : ¬(exitCode ≠ 0 ∧ exitCode ≠ 1) := by
      cases out with
      | constructed rootTree => exact fun h => h.1 hreports.1
      | conflicted conflicts => exact fun h => h.2 hreports.1
    have hnodup : (r.staged.foldl add []).Nodup := nodup_foldl_add List.nodup_nil r.staged
    have hmem : ∀ p, p ∈ r.staged.foldl add [] ↔ p ∈ r.staged := by
      intro p
      rw [mem_foldl_add]
      exact or_iff_right List.not_mem_nil
    have hfields := splitNul_terminated _ (free_fields r)
    obtain ⟨facts, hfacts, hresult⟩ := (facts_eq_ok hexit hnodup hmem).mpr ⟨hr.conflictCount, hreports⟩
    have hlast : r.render.getLast? = some 0 :=
      getLast?_utf8.mpr (getLast?_terminated (by simp [MergeReport.fields, reportFields]))
    refine ⟨hexit, ⟨?_, hr.size, hlast⟩, _, decodeUtf8_utf8 _, ?_⟩
    · intro hzero
      rw [List.length_eq_zero_iff.mp hzero] at hlast
      cases hlast
    · rw [hfields]
      refine ⟨hr.rootTree, r.staged.foldl add [], "" :: r.messages.flatMap MergeMessage.fields, ?_, rfl,
        facts, ?_, hresult⟩
      · refine (readStaged_eq_ok (Nat.zero_le _)).mpr ⟨r.staged, rfl, ?_, hr.stagedPaths, rfl, ?_⟩
        · intro b hb
          exact (Option.some.inj hb).symm
        · exact (length_eq_of_mem_iff hnodup hmem).trans_le hr.stagedCount
      · exact (readMessages_eq_ok (Nat.le_refl _)).mpr ⟨r.messages, rfl, hr.messages, hfacts⟩

/-! ## Framing -/

/-- **Messages that start others are the first of them.** -/
theorem messages_prefix {ms ms' : List MergeMessage}
    (h : ms'.flatMap MergeMessage.fields <+: ms.flatMap MergeMessage.fields) : ms' <+: ms := by
  induction ms' generalizing ms with
  | nil => exact List.nil_prefix
  | cons m' ms' ih =>
    cases ms with
    | nil =>
      rw [List.flatMap_nil, List.prefix_nil] at h
      exact absurd (fields_ne_nil h) (List.cons_ne_nil m' ms')
    | cons m ms =>
      rw [List.flatMap_cons, List.flatMap_cons, MergeMessage.fields, MergeMessage.fields,
        List.cons_append, List.cons_append, List.cons_prefix_cons] at h
      obtain ⟨hcount, rest, hrest⟩ := h
      have hlength : m'.paths.length = m.paths.length := by
        rw [← number_toString m'.paths.length, hcount, number_toString]
      -- Equal counts put the type and the text of both messages in the same places.
      simp only [List.append_assoc] at hrest
      obtain ⟨hpaths, hrest⟩ := List.append_inj hrest hlength
      simp only [List.cons_append, List.nil_append, List.cons.injEq] at hrest
      obtain ⟨htype, htext, hrest⟩ := hrest
      have hm : m' = m := by
        cases m
        cases m'
        exact MergeMessage.mk.injEq .. ▸ ⟨hpaths, htype, htext⟩
      exact List.cons_prefix_cons.mpr ⟨hm, ih ⟨rest, hrest⟩⟩

/-- Staged paths are told from the rest by the boundary. -/
theorem staged_prefix {staged staged' rest rest' : List String} (h : ∀ p ∈ staged, p ≠ "")
    (h' : ∀ p ∈ staged', p ≠ "") (hstarts : staged' ++ "" :: rest' <+: staged ++ "" :: rest) :
    staged' = staged ∧ rest' <+: rest := by
  induction staged' generalizing staged with
  | nil =>
    cases staged with
    | nil => exact ⟨rfl, (List.cons_prefix_cons.mp hstarts).2⟩
    | cons p staged =>
      have hp := (List.cons_prefix_cons.mp hstarts).1
      exact absurd hp.symm (h p List.mem_cons_self)
  | cons p' staged' ih =>
    cases staged with
    | nil =>
      have hp := (List.cons_prefix_cons.mp hstarts).1
      exact absurd hp (h' p' List.mem_cons_self)
    | cons p staged =>
      rw [List.cons_append, List.cons_append, List.cons_prefix_cons] at hstarts
      obtain ⟨rfl, hstarts⟩ := hstarts
      obtain ⟨rfl, hrest⟩ := ih (fun q hq => h q (List.mem_cons_of_mem _ hq))
        (fun q hq => h' q (List.mem_cons_of_mem _ hq)) hstarts
      exact ⟨rfl, hrest⟩

/-- **A rendering that starts another one leaves out the last messages only.** -/
theorem render_prefix (r r' : MergeReport) (h : r'.render <+: r.render) :
    r'.rootTree = r.rootTree ∧ r'.staged = r.staged ∧ r'.messages <+: r.messages := by
  have hfree : ∀ r : MergeReport, Free 0 ((r.fields.map String.toList).map utf8) := by
    intro r x hx
    obtain ⟨cs, hcs, rfl⟩ := List.mem_map.mp hx
    exact fun hmem => free_fields r cs hcs (zero_mem_utf8.mp hmem)
  have hinjective : Function.Injective fun s : String => utf8 s.toList := by
    intro s t hst
    have hdecode := congrArg decodeUtf8 hst
    rw [decodeUtf8_utf8, decodeUtf8_utf8, Option.some.injEq, String.ofList_toList,
      String.ofList_toList] at hdecode
    exact hdecode
  rw [MergeReport.render, MergeReport.render, utf8_terminated, utf8_terminated,
    terminated_prefix_iff (hfree r') (hfree r), List.map_map, List.map_map] at h
  have hfields : r'.fields <+: r.fields := (List.prefix_map_iff_of_injective hinjective).mp h
  obtain ⟨htree, hrest⟩ := List.cons_prefix_cons.mp hfields
  obtain ⟨hstaged, hmessages⟩ := staged_prefix r.named r'.named hrest
  exact ⟨htree, hstaged, messages_prefix hmessages⟩

/-- **Two reports never share a rendering.** -/
theorem render_injective : Function.Injective MergeReport.render := by
  intro r r' h
  obtain ⟨htree, hstaged, hmessages⟩ := render_prefix r r' (h ▸ List.prefix_refl _)
  obtain ⟨-, -, hmessages'⟩ := render_prefix r' r (h ▸ List.prefix_refl _)
  have heq := hmessages.eq_of_length_le hmessages'.length_le
  obtain ⟨rootTree, staged, messages, nulFree, named⟩ := r
  obtain ⟨rootTree', staged', messages', nulFree', named'⟩ := r'
  obtain rfl : rootTree' = rootTree := htree
  obtain rfl : staged' = staged := hstaged
  obtain rfl : messages' = messages := heq
  rfl

/-- **Merge outputs are parsed as they are written.** The rendering of a report
is accepted exactly when the report is within the bounds and what it reports
agrees with the exit status, and it comes to the tree or to the sorted
conflicts; nothing but renderings is accepted; and a rendering that is cut is
accepted only where it is cut between two messages. -/
theorem mergeOutput_parsed (objectFormat : GitObjectFormat) (exitCode : Int) :
    (∀ (r : MergeReport) (out : MergeOutput),
      parseMergeOutput objectFormat exitCode r.render = .ok out
        ↔ r.Admitted objectFormat ∧ r.Reports exitCode out)
      ∧ (∀ (bytes : List UInt8) (out : MergeOutput),
        parseMergeOutput objectFormat exitCode bytes = .ok out → ∃ r : MergeReport, r.render = bytes)
      ∧ ∀ (r : MergeReport) (bytes : List UInt8) (out : MergeOutput), bytes <+: r.render →
        parseMergeOutput objectFormat exitCode bytes = .ok out →
        ∃ r' : MergeReport, r'.render = bytes ∧ r'.rootTree = r.rootTree ∧ r'.staged = r.staged
          ∧ r'.messages <+: r.messages := by
  refine ⟨fun r out => ?_, fun bytes out h => ?_, fun r bytes out hstarts h => ?_⟩
  · rw [parseMergeOutput_eq_ok]
    constructor
    · rintro ⟨r', hrender, hr⟩
      exact render_injective hrender ▸ hr
    · intro hr
      exact ⟨r, rfl, hr⟩
  · obtain ⟨r, hrender, -⟩ := parseMergeOutput_eq_ok.mp h
    exact ⟨r, hrender.symm⟩
  · obtain ⟨r', rfl, -⟩ := parseMergeOutput_eq_ok.mp h
    exact ⟨r', rfl, render_prefix _ _ hstarts⟩

/-! ## Outputs that say less than they were to say -/

/-- A tree identity. -/
def someTree : String := String.ofList (List.replicate 40 'a')

/-- The contents of one path conflict. -/
def contentConflict (path : String) : MergeMessage :=
  ⟨[path], "CONFLICT (contents)", "Merge conflict"⟩

theorem twoConflicts_nulFree : ∀ f ∈ reportFields someTree ["a", "b"]
    [contentConflict "a", contentConflict "b"], '\x00' ∉ f.toList := by
  decide +kernel

/-- Two paths in conflict, with a message for each. -/
def twoConflicts : MergeReport where
  rootTree := someTree
  staged := ["a", "b"]
  messages := [contentConflict "a", contentConflict "b"]
  nulFree := twoConflicts_nulFree
  named := by simp

theorem stagedOnly_nulFree : ∀ f ∈ reportFields someTree ["a"] [], '\x00' ∉ f.toList := by
  decide +kernel

/-- A path in conflict that no message is about. -/
def stagedOnly : MergeReport where
  rootTree := someTree
  staged := ["a"]
  messages := []
  nulFree := stagedOnly_nulFree
  named := by simp

/-- The rendering of two conflicts without the last message. -/
def cutOutput : List UInt8 := twoConflicts.render.take 85

/-- Two messages, the first with a text that looks like a type. -/
def framedMessages : List MergeMessage :=
  [⟨["a"], "CONFLICT (contents)", "CONFLICT (x)"⟩,
    ⟨["1", "b"], "CONFLICT (contents)", "Merge conflict"⟩]

theorem framedReport_nulFree : ∀ f ∈ reportFields someTree [] framedMessages, '\x00' ∉ f.toList := by
  decide +kernel

def framedReport : MergeReport where
  rootTree := someTree
  staged := []
  messages := framedMessages
  nulFree := framedReport_nulFree
  named := by simp

/-- Its rendering with 2 as the number of paths of the first message. -/
def miscountedOutput : List UInt8 :=
  utf8 (terminated '\x00' ((framedReport.fields.set 2 "2").map String.toList))

/-- **What the format cannot tell.** An output cut between its messages is taken
for a whole one, with a conflict that no message explains any more; a count that
is too large is taken where the fields behind it happen to fit; and a conflicted
merge whose paths no message explains at all is refused. -/
theorem cutOutput_parsed :
    (cutOutput <+: twoConflicts.render ∧ cutOutput ≠ twoConflicts.render
        ∧ parseMergeOutput .sha1 1 cutOutput
          = .ok (.conflicted [⟨"a", .content⟩, ⟨"b", .unsupported⟩]))
      ∧ (framedReport.fields[2]? = some (toString 1)
        ∧ parseMergeOutput .sha1 1 miscountedOutput = .ok (.conflicted
          [⟨"CONFLICT (contents)", .unsupported⟩, ⟨"a", .unsupported⟩, ⟨"b", .content⟩]))
      ∧ stagedOnly.Admitted .sha1 ∧ stagedOnly.conflicts = [⟨"a", .unsupported⟩]
        ∧ ∀ out, parseMergeOutput .sha1 1 stagedOnly.render ≠ .ok out := by
  have hcut : cutOutput ≠ twoConflicts.render := by decide +kernel
  have hparsed : parseMergeOutput .sha1 1 cutOutput
      = .ok (.conflicted [⟨"a", .content⟩, ⟨"b", .unsupported⟩]) := by decide +kernel
  have hmiscounted : parseMergeOutput .sha1 1 miscountedOutput = .ok (.conflicted
      [⟨"CONFLICT (contents)", .unsupported⟩, ⟨"a", .unsupported⟩, ⟨"b", .content⟩]) := by
    decide +kernel
  have hstaged : stagedOnly.conflicts = [⟨"a", .unsupported⟩] := by decide +kernel
  refine ⟨⟨List.take_prefix _ _, hcut, hparsed⟩, ⟨rfl, hmiscounted⟩, ?_, hstaged, ?_⟩
  · have hpath : ∀ p ∈ stagedOnly.staged, isConflictPath p = true := by decide +kernel
    refine ⟨by decide +kernel, by decide +kernel, hpath, by decide +kernel, ?_, ?_⟩
    · intro m hm
      exact absurd hm List.not_mem_nil
    · rw [hstaged]
      decide
  · intro out h
    have hrefused : (parseMergeOutput .sha1 1 stagedOnly.render).isOk = false := by decide +kernel
    rw [h] at hrefused
    cases hrefused

end Integration
