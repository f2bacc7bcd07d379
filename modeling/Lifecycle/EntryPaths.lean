import Lifecycle.CanonicalTexts
import Lifecycle.LastSeen
import Lifecycle.Segments

/-!
# The paths of an Input Set

An Input Set is laid out as a tree of files on a host that may tell neither
case nor normalization apart. `assertEntryPaths` goes over the sorted paths
once: it compares each path with the one before it, each of its prefixes with
the last prefix of the same folded text, and each of its directories with the
files already seen. Nothing is compared with what comes later, and nothing
needs to be: a path sorts behind all of its directories, and a prefix that
replaced another of one folded text is that other one (`assertEntryPaths_iff`).
-/

open Fallible Json LastSeen CodeUnits

namespace CodeUnits

/-- The first text comes strictly before the second one in the order of
`compareCodePoints`. -/
def PointsLt (s t : CodeUnits) : Prop := pointsLe t s = false

theorem PointsLt.trans {r s t : CodeUnits} (hrs : PointsLt r s) (hst : PointsLt s t) :
    PointsLt r t := by
  by_contra h
  have htr : pointsLe t r = true := by simpa [PointsLt] using h
  have hle : pointsLe r s = true := by
    obtain h | h := comparison_pointsLe.total r s
    · exact h
    · exact absurd h (by rw [hrs]; exact Bool.false_ne_true)
  have hts : pointsLe t s = true := comparison_pointsLe.trans htr hle
  rw [hst] at hts
  exact Bool.false_ne_true hts

theorem PointsLt.asymm {s t : CodeUnits} (hst : PointsLt s t) : ¬ PointsLt t s := by
  intro hts
  obtain h | h := comparison_pointsLe.total s t
  · exact absurd h (by rw [hts]; exact Bool.false_ne_true)
  · exact absurd h (by rw [hst]; exact Bool.false_ne_true)

instance : IsTrans CodeUnits PointsLt := ⟨fun _ _ _ => PointsLt.trans⟩

/-- A unit that is no low surrogate starts a new code point. -/
theorem codePoints_append {s t : CodeUnits} {u : UInt16} (hu : isLow u = false) :
    codePoints (s ++ u :: t) = codePoints s ++ codePoints (u :: t) := by
  induction s using codePoints.induct with
  | case1 => rfl
  | case2 x =>
    have hpair : ¬ (isHigh x && isLow u) = true := by simp [hu]
    rw [List.singleton_append, codePoints.eq_3, if_neg hpair]
    rfl
  | case3 x y s hpair ih =>
    rw [List.cons_append, List.cons_append, codePoints, if_pos hpair, codePoints, if_pos hpair, ih]
    rfl
  | case4 x y s hpair ih =>
    rw [List.cons_append, List.cons_append, codePoints, if_neg hpair, codePoints, if_neg hpair,
      ← List.cons_append, ih]
    rfl

theorem lexLe_append_cons (as bs : List Nat) (b : Nat) : lexLe (as ++ b :: bs) as = false := by
  induction as with
  | nil => rfl
  | cons a as ih =>
    have hirrefl : a.blt a = false := by
      rw [Bool.eq_false_iff, Ne, Nat.blt_eq]
      exact Nat.lt_irrefl a
    rw [List.cons_append, lexLe, ih, hirrefl, Bool.and_false, Bool.or_false]

end CodeUnits

namespace InputSet

/-! ## Paths and their prefixes -/

/-- The foldings of the host's strings: `normalize("NFC")` and `toLowerCase`. -/
structure UnitFoldings where
  normalizeNFC : CodeUnits → CodeUnits
  toLowerCase : CodeUnits → CodeUnits

/-- `start.normalize("NFC").toLowerCase()`. -/
def UnitFoldings.alias (F : UnitFoldings) (start : CodeUnits) : CodeUnits :=
  F.toLowerCase (F.normalizeNFC start)

/-- `path.split("/")`. -/
def pathSegments (path : CodeUnits) : List CodeUnits := path.splitOn 47

/-- `segments.slice(0, stop).join("/")`. -/
def joinedTo (segments : List CodeUnits) (stop : Nat) : CodeUnits :=
  [47].intercalate (segments.take stop)

/-- **A directory of a path**: the path goes on behind it with a separator. -/
def DirectoryOf (start path : CodeUnits) : Prop := start ++ [47] <+: path

/-- A path or one of its directories. -/
def PrefixOf (start path : CodeUnits) : Prop := path = start ∨ DirectoryOf start path

theorem exists_joinedTo_iff {start path : CodeUnits} :
    PrefixOf start path
      ↔ ∃ stop, 1 ≤ stop ∧ stop ≤ (pathSegments path).length
        ∧ joinedTo (pathSegments path) stop = start := by
  have hfree : Segments.Free 47 (pathSegments path) := Segments.free_splitOn path
  have hne : pathSegments path ≠ [] := List.splitOn_ne_nil 47 path
  constructor
  · intro h
    have hwithin : start.splitOn 47 <+: pathSegments path := by
      refine (Segments.within_iff (List.splitOn_ne_nil 47 start) hne
        (Segments.free_splitOn start) hfree).mp ?_
      rwa [pathSegments, List.intercalate_splitOn, List.intercalate_splitOn]
    refine ⟨(start.splitOn 47).length, ?_, hwithin.length_le, ?_⟩
    · exact List.length_pos_iff.mpr (List.splitOn_ne_nil 47 start)
    · rw [joinedTo, ← List.prefix_iff_eq_take.mp hwithin, List.intercalate_splitOn]
  · rintro ⟨stop, hpos, hstop, rfl⟩
    have htake : (pathSegments path).take stop ≠ [] := by
      rw [Ne, List.take_eq_nil_iff]
      rintro (h | h)
      · omega
      · exact hne h
    have hwithin := (Segments.within_iff htake hne
      (fun x hx => hfree x (List.mem_of_mem_take hx)) hfree).mpr (List.take_prefix stop _)
    rwa [pathSegments, List.intercalate_splitOn] at hwithin

/-- **The shorter prefixes of the segments are the directories.** -/
theorem directoryOf_joinedTo_iff {path : CodeUnits} {stop : Nat} (hpos : 1 ≤ stop)
    (hstop : stop ≤ (pathSegments path).length) :
    DirectoryOf (joinedTo (pathSegments path) stop) path
      ↔ stop < (pathSegments path).length := by
  have hfree : Segments.Free 47 (pathSegments path) := Segments.free_splitOn path
  have hne : pathSegments path ≠ [] := List.splitOn_ne_nil 47 path
  have htake : (pathSegments path).take stop ≠ [] := by
    rw [Ne, List.take_eq_nil_iff]
    rintro (h | h)
    · omega
    · exact hne h
  have hprefix := Segments.intercalate_prefix_iff htake hne
    (fun x hx => hfree x (List.mem_of_mem_take hx)) hfree
  rw [show [47].intercalate (pathSegments path) = path from List.intercalate_splitOn 47] at hprefix
  rw [DirectoryOf, joinedTo, hprefix]
  constructor
  · rintro ⟨rest, hrest, hsplit⟩
    have hlength := congrArg List.length hsplit
    rw [List.length_append, List.length_take, Nat.min_eq_left hstop] at hlength
    have := List.length_pos_iff.mpr hrest
    omega
  · intro hlt
    refine ⟨(pathSegments path).drop stop, ?_, (List.take_append_drop stop _).symm⟩
    rw [Ne, List.drop_eq_nil_iff]
    omega

/-- **A path sorts behind its directories.** -/
theorem DirectoryOf.pointsLt {start path : CodeUnits} (h : DirectoryOf start path) :
    PointsLt start path := by
  obtain ⟨rest, rfl⟩ := h
  rw [PointsLt, pointsLe, List.append_assoc, List.singleton_append,
    codePoints_append (by decide)]
  cases rest with
  | nil => exact lexLe_append_cons _ _ _
  | cons u rest =>
    rw [codePoints, if_neg (by simp [show isHigh 47 = false by decide])]
    exact lexLe_append_cons _ _ _

/-! ## The pass over the entries -/

def inputSetError (code message : String) : FoundationError :=
  lifecycleError ("lifecycle.execution.input-set." ++ code) message

/-- What the pass remembers: the path before, `paths` and `aliases`. -/
structure SeenPaths where
  previous : Option CodeUnits
  paths : List CodeUnits
  aliases : OrderedMap CodeUnits CodeUnits

/-- Nothing seen. -/
def SeenPaths.empty : SeenPaths := ⟨none, [], OrderedMap.empty⟩

/-- One prefix of a path. -/
def seePathPrefix (F : UnitFoldings) (paths segments : List CodeUnits)
    (aliases : OrderedMap CodeUnits CodeUnits) (stop : Nat) :
    Except FoundationError (OrderedMap CodeUnits CodeUnits) := do
  let start := joinedTo segments stop
  let prior := aliases.get (F.alias start)
  failIf (prior ≠ none ∧ prior ≠ some start)
    (inputSetError "path-alias"
      "Execution Input Set paths contain a case or Unicode-normalization alias")
  failIf (stop < segments.length ∧ start ∈ paths)
    (inputSetError "path-prefix"
      "Execution Input Set inventories a file as another file's directory")
  pure (aliases.set (F.alias start) start)

/-- One entry. -/
def seeEntryPath (F : UnitFoldings) (seen : SeenPaths) (path : CodeUnits) :
    Except FoundationError SeenPaths := do
  failIf (seen.previous.any (pointsLe path) = true)
    (inputSetError "entry-order" "Execution Input Set entries are not in strict path order")
  let segments := pathSegments path
  let aliases ← replay (seePathPrefix F seen.paths segments) seen.aliases
    (List.range' 1 segments.length)
  pure { previous := some path, paths := seen.paths ++ [path], aliases := aliases }

/-- **`assertEntryPaths`**, over the paths of the entries. -/
def assertEntryPaths (F : UnitFoldings) (paths : List CodeUnits) : Except FoundationError Unit := do
  let _ ← replay (seeEntryPath F) SeenPaths.empty paths
  pure ()

/-! ## The law of a tree of files -/

/-- **Two spellings of one folded text**: no two prefixes of the paths fold to
the same text. -/
def SpelledOnce (F : UnitFoldings) (paths : List CodeUnits) : Prop :=
  ∀ p ∈ paths, ∀ q ∈ paths, ∀ u v, PrefixOf u p → PrefixOf v q → F.alias u = F.alias v → u = v

/-- No file is a directory of another. -/
def FilesOnly (paths : List CodeUnits) : Prop :=
  ∀ p ∈ paths, ∀ q ∈ paths, ¬ DirectoryOf p q

/-- **The pairwise law of the paths of an Input Set.** -/
structure EntryPathLaw (F : UnitFoldings) (paths : List CodeUnits) : Prop where
  ordered : paths.Pairwise PointsLt
  files : FilesOnly paths
  spelled : SpelledOnce F paths

/-- The prefixes of a path, in the order of the pass. -/
def pathPrefixes (path : CodeUnits) : List CodeUnits :=
  (List.range' 1 (pathSegments path).length).map (joinedTo (pathSegments path))

theorem mem_pathPrefixes {start path : CodeUnits} :
    start ∈ pathPrefixes path ↔ PrefixOf start path := by
  rw [pathPrefixes, List.mem_map, exists_joinedTo_iff]
  refine exists_congr fun stop => ?_
  rw [List.mem_range'_1, and_assoc]
  refine and_congr_right fun _ => and_congr_left fun _ => ?_
  omega

theorem spelledOnce_iff {F : UnitFoldings} {paths : List CodeUnits} :
    SpelledOnce F paths ↔ Apart F.alias (fun _ => True) (paths.flatMap pathPrefixes) := by
  constructor
  · intro h u hu v hv hne hfold _
    obtain ⟨p, hp, hu⟩ := List.mem_flatMap.mp hu
    obtain ⟨q, hq, hv⟩ := List.mem_flatMap.mp hv
    exact hne (h p hp q hq u v (mem_pathPrefixes.mp hu) (mem_pathPrefixes.mp hv) hfold)
  · intro h p hp q hq u v hu hv hfold
    by_contra hne
    refine h u (List.mem_flatMap.mpr ⟨p, hp, mem_pathPrefixes.mpr hu⟩) v
      (List.mem_flatMap.mpr ⟨q, hq, mem_pathPrefixes.mpr hv⟩) hne hfold (.inl trivial)

/-! ## One pass decides the law -/

/-- The comparison with the last spelling of a folded text. -/
theorem prior_iff {o : Option CodeUnits} {start : CodeUnits} :
    ¬ (o ≠ none ∧ o ≠ some start)
      ↔ ∀ prior, o = some prior → prior ≠ start → ¬ (True ∨ True) := by
  cases o with
  | none => simp
  | some prior => simp

/-- **The prefixes of one path.** The state is the last spelling of each folded
text among `starts` and the prefixes seen since. -/
theorem replay_seePathPrefix_iff {F : UnitFoldings} {paths segments starts : List CodeUnits}
    {stops : List Nat} {aliases : OrderedMap CodeUnits CodeUnits}
    (hstarts : Apart F.alias (fun _ => True) starts) :
    replay (seePathPrefix F paths segments) (lastBy F.alias starts) stops = .ok aliases
      ↔ Apart F.alias (fun _ => True) (starts ++ stops.map (joinedTo segments))
        ∧ (∀ stop ∈ stops, stop < segments.length → joinedTo segments stop ∉ paths)
        ∧ lastBy F.alias (starts ++ stops.map (joinedTo segments)) = aliases := by
  induction stops using List.reverseRecOn generalizing aliases with
  | nil =>
    rw [replay_nil, Except.ok.injEq, List.map_nil, List.append_nil]
    exact ⟨fun h => ⟨hstarts, fun stop hstop => absurd hstop List.not_mem_nil, h⟩, fun h => h.2.2⟩
  | append_singleton stops stop ih =>
    rw [replay_snoc_eq_ok, List.map_append, List.map_singleton, ← List.append_assoc,
      apart_snoc_iff, lastBy_snoc]
    simp only [ih, seePathPrefix, bind_eq_ok, failIf_eq_ok, exists_unit, pure_eq_ok, prior_iff]
    constructor
    · rintro ⟨_, ⟨happart, hfiles, rfl⟩, hprior, hfile, rfl⟩
      refine ⟨⟨happart, hprior⟩, fun other hother hlt => ?_, rfl⟩
      obtain hother | hother := List.mem_append.mp hother
      · exact hfiles other hother hlt
      · obtain rfl := List.mem_singleton.mp hother
        exact fun hmem => hfile ⟨hlt, hmem⟩
    · rintro ⟨⟨happart, hprior⟩, hfiles, rfl⟩
      refine ⟨_, ⟨happart, fun other hother => hfiles other (List.mem_append_left _ hother), rfl⟩,
        hprior, fun h => ?_, rfl⟩
      exact hfiles stop (List.mem_append_right _ (List.mem_singleton_self stop)) h.1 h.2

/-- No file seen before is a directory of the path. -/
theorem directories_free_iff {paths : List CodeUnits} {path : CodeUnits} :
    (∀ stop ∈ List.range' 1 (pathSegments path).length, stop < (pathSegments path).length →
        joinedTo (pathSegments path) stop ∉ paths)
      ↔ ∀ p ∈ paths, ¬ DirectoryOf p path := by
  constructor
  · intro h p hp hdir
    obtain ⟨stop, hpos, hstop, rfl⟩ := exists_joinedTo_iff.mp (.inr hdir)
    refine h stop ?_ ((directoryOf_joinedTo_iff hpos hstop).mp hdir) hp
    rw [List.mem_range'_1]
    omega
  · intro h stop hmem hlt hp
    rw [List.mem_range'_1] at hmem
    exact h _ hp ((directoryOf_joinedTo_iff hmem.1 hlt.le).mpr hlt)

/-- **One more path**: it is compared with what came before it only. -/
theorem entryPathLaw_snoc {F : UnitFoldings} {paths : List CodeUnits} {path : CodeUnits} :
    EntryPathLaw F (paths ++ [path]) ↔ EntryPathLaw F paths
      ∧ (∀ previous ∈ paths.getLast?, PointsLt previous path)
      ∧ (∀ p ∈ paths, ¬ DirectoryOf p path)
      ∧ Apart F.alias (fun _ => True) (paths.flatMap pathPrefixes ++ pathPrefixes path) := by
  have horder : (paths ++ [path]).Pairwise PointsLt ↔ paths.Pairwise PointsLt
      ∧ ∀ previous ∈ paths.getLast?, PointsLt previous path := by
    rw [← List.isChain_iff_pairwise, ← List.isChain_iff_pairwise, List.isChain_append]
    simp
  have hflat : (paths ++ [path]).flatMap pathPrefixes
      = paths.flatMap pathPrefixes ++ pathPrefixes path := by
    rw [List.flatMap_append, List.flatMap_singleton]
  constructor
  · intro h
    refine ⟨⟨(horder.mp h.ordered).1, ?_, ?_⟩, (horder.mp h.ordered).2, ?_, ?_⟩
    · exact fun p hp q hq => h.files p (List.mem_append_left _ hp) q (List.mem_append_left _ hq)
    · exact fun p hp q hq => h.spelled p (List.mem_append_left _ hp) q (List.mem_append_left _ hq)
    · exact fun p hp => h.files p (List.mem_append_left _ hp) path
        (List.mem_append_right _ (List.mem_singleton_self path))
    · rw [← hflat]
      exact spelledOnce_iff.mp h.spelled
  · rintro ⟨h, hlast, hfiles, happart⟩
    have hordered := horder.mpr ⟨h.ordered, hlast⟩
    refine ⟨hordered, ?_, spelledOnce_iff.mpr (by rwa [hflat])⟩
    intro p hp q hq hdir
    rcases List.mem_append.mp hp with hold | hnew
    · rcases List.mem_append.mp hq with hq | hq
      · exact h.files p hold q hq hdir
      · exact hfiles p hold (List.mem_singleton.mp hq ▸ hdir)
    · rcases List.mem_append.mp hq with hq | hq
      · -- the new path sorts behind the old ones, and behind its own directories
        have hbefore := (List.pairwise_append.mp hordered).2.2 q hq p hnew
        exact hbefore.asymm hdir.pointsLt
      · rw [List.mem_singleton.mp hq, ← List.mem_singleton.mp hnew] at hdir
        exact hdir.pointsLt.asymm hdir.pointsLt

theorem previous_free_iff {previous : Option CodeUnits} {path : CodeUnits} :
    ¬ previous.any (pointsLe path) = true ↔ ∀ p ∈ previous, PointsLt p path := by
  cases previous with
  | none => simp
  | some p => simp [PointsLt]

/-- **What the pass remembers.** -/
theorem replay_seeEntryPath_iff {F : UnitFoldings} {paths : List CodeUnits} {seen : SeenPaths} :
    replay (seeEntryPath F) SeenPaths.empty paths = .ok seen
      ↔ EntryPathLaw F paths
        ∧ { previous := paths.getLast?, paths := paths
            aliases := lastBy F.alias (paths.flatMap pathPrefixes) } = seen := by
  induction paths using List.reverseRecOn generalizing seen with
  | nil =>
    rw [replay_nil, Except.ok.injEq]
    refine (and_iff_right ⟨.nil, ?_, ?_⟩).symm
    all_goals exact fun p hp => absurd hp List.not_mem_nil
  | append_singleton paths path ih =>
    rw [replay_snoc_eq_ok, entryPathLaw_snoc, List.getLast?_concat, List.flatMap_append,
      List.flatMap_singleton]
    simp only [ih, seeEntryPath, bind_eq_ok, failIf_eq_ok, exists_unit, pure_eq_ok,
      previous_free_iff]
    constructor
    · rintro ⟨_, ⟨hlaw, rfl⟩, hlast, aliases, hprefixes, rfl⟩
      obtain ⟨happart, hfiles, rfl⟩ :=
        (replay_seePathPrefix_iff (spelledOnce_iff.mp hlaw.spelled)).mp hprefixes
      exact ⟨⟨hlaw, hlast, directories_free_iff.mp hfiles, happart⟩, rfl⟩
    · rintro ⟨⟨hlaw, hlast, hfiles, happart⟩, rfl⟩
      refine ⟨_, ⟨hlaw, rfl⟩, hlast, _, ?_, rfl⟩
      exact (replay_seePathPrefix_iff (spelledOnce_iff.mp hlaw.spelled)).mpr
        ⟨happart, directories_free_iff.mpr hfiles, rfl⟩

/-- **The single pass decides the pairwise law.** -/
theorem assertEntryPaths_iff (F : UnitFoldings) (paths : List CodeUnits) :
    assertEntryPaths F paths = .ok () ↔ EntryPathLaw F paths := by
  simp only [assertEntryPaths, bind_eq_ok, replay_seeEntryPath_iff, pure_eq_ok]
  constructor
  · rintro ⟨_, ⟨hlaw, _⟩, _⟩
    exact hlaw
  · intro hlaw
    exact ⟨_, ⟨hlaw, rfl⟩, trivial⟩

end InputSet
