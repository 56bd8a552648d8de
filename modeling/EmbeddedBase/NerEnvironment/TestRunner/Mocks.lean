import EmbeddedBase.NerEnvironment.TestRunner.Parents

/-!
# Mocks of the selected packages

Over every run of `create_mocks` a package gets the files that are wanted for it, whatever was
selected before.  But a list that is changed holds some of them twice, or more than was loaded,
and a package that is selected twice is mocked twice.
-/

namespace EmbeddedBase.NerEnvironment.TestRunner

open EmbeddedBase.Data
open EmbeddedBase.Transition

/-! ## The files of a package -/

/-- What is appended to `files`: the mocks that are not there yet, each once. -/
def missing {α : Type} [DecidableEq α] (files : List α) : List α → List α
  | [] => []
  | mock :: mocks =>
      if mock ∈ files then missing files mocks else mock :: missing (files ++ [mock]) mocks

theorem mem_append_missing {α : Type} [DecidableEq α] {files mocks : List α} {file : α} :
    file ∈ files ++ missing files mocks ↔ file ∈ files ∨ file ∈ mocks := by
  induction mocks generalizing files with
  | nil => simp [missing]
  | cons mock mocks ih =>
      rw [missing]
      by_cases member : mock ∈ files
      · rw [if_pos member, ih, List.mem_cons]
        constructor
        · exact Or.imp_right .inr
        · rintro (held | rfl | later)
          · exact .inl held
          · exact .inl member
          · exact .inr later
      · rw [if_neg member, List.append_cons, ih, List.mem_append, List.mem_singleton,
          List.mem_cons, or_assoc]

theorem nodup_append_missing {α : Type} [DecidableEq α] {files : List α}
    (nodup : files.Nodup) (mocks : List α) : (files ++ missing files mocks).Nodup := by
  induction mocks generalizing files with
  | nil => simpa [missing] using nodup
  | cons mock mocks ih =>
      rw [missing]
      by_cases member : mock ∈ files
      · rw [if_pos member]
        exact ih nodup
      · rw [if_neg member, List.append_cons]
        apply ih
        rw [← List.concat_eq_append]
        exact List.Nodup.concat member nodup

theorem missing_eq_nil_iff {α : Type} [DecidableEq α] {files mocks : List α} :
    missing files mocks = [] ↔ mocks ⊆ files := by
  induction mocks with
  | nil => simp [missing]
  | cons mock mocks ih =>
      rw [missing, List.cons_subset]
      by_cases member : mock ∈ files
      · rw [if_pos member, ih, and_iff_right member]
      · rw [if_neg member]
        constructor
        · intro empty
          cases empty
        · exact fun subset => absurd subset.1 member

theorem extend_extend (lists : Lists) (files : Ref) (first second : List Text) :
    extend (extend lists files first).1 (extend lists files first).2 second =
      extend lists files (first ++ second) := by
  cases files with
  | loaded name => simp [extend]
  | fresh files => simp [extend]

theorem appendMissing_eq (lists : Lists) (files : Ref) (mocks : List Text) :
    appendMissing lists files mocks = extend lists files (missing (content lists files) mocks) := by
  induction mocks generalizing lists files with
  | nil => cases files <;> simp [appendMissing, missing, extend]
  | cons mock mocks ih =>
      rw [appendMissing, missing]
      by_cases member : mock ∈ content lists files
      · rw [if_pos member, if_pos member, ih]
      · have held : content (extend lists files [mock]).1 (extend lists files [mock]).2 =
            content lists files ++ [mock] := by
          cases files with
          | loaded name => exact Function.update_self _ _ _
          | fresh files => rfl
        have onward := extend_extend lists files [mock]
          (missing (content lists files ++ [mock]) mocks)
        rw [List.singleton_append, ← held] at onward
        rw [if_neg member, if_neg member, ← held]
        exact (ih _ _).trans onward

/-- The package and all its ancestors exist. -/
def Known (conf : Conf) (name : Text) : Prop :=
  ∀ other, Leads conf.parent name other → other ∈ conf.testPackages.keys

/-- What becomes of the lists for one selected package, and its list of files. -/
structure PackageFiles (conf : Conf) (lists : Lists) (name : Text) (result : Lists × Ref) :
    Prop where
  known : Known conf name
  files : ∀ file, file ∈ content result.1 result.2 ↔
    file ∈ conf.mockedFiles ∨ ∃ origin, Leads conf.parent name origin ∧ file ∈ lists origin
  grows : Grows lists result.1
  loaded : Loaded conf result.1
  origin : ∀ other, ∀ file ∈ result.1 other,
    file ∈ conf.mockedFiles ∨ ∃ origin, Leads conf.parent other origin ∧ file ∈ lists origin
  nodup : result.1 = lists → (lists name).Nodup → (content result.1 result.2).Nodup
  unchanged : result.1 = lists ↔
    ((chain conf [] name).Pairwise fun other later => conf.Holds other → lists later = []) ∧
      (conf.Holds name → conf.mockedFiles ⊆ lists name)

theorem ParentMocks.known {conf : Conf} {lists : Lists} {name : Text} {mocks : Lists × Ref}
    (before : ParentMocks conf lists name [] mocks) : Known conf name :=
  fun _ leads => (of_mem_path (mem_path_of_leads before.start before.stays leads)).1

/-- The mocks of a package and its ancestors. -/
theorem ParentMocks.mem_content_iff {conf : Conf} {lists : Lists} {name : Text}
    {mocks : Lists × Ref} (before : ParentMocks conf lists name [] mocks) {file : Text} :
    file ∈ content mocks.1 mocks.2 ↔
      ∃ origin, Leads conf.parent name origin ∧ file ∈ lists origin := by
  rw [before.files, List.mem_flatMap]
  apply exists_congr
  intro origin
  rw [chain, mem_path_iff before.known]

/-- The global files and those of the ancestors are added to those of the package. -/
theorem ParentMocks.packageFiles {conf : Conf} {lists : Lists} {name : Text}
    {mocks result : Lists × Ref} (before : ParentMocks conf lists name [] mocks)
    (after : Extended conf mocks.1 name
      (missing (mocks.1 name) (conf.mockedFiles ++ content mocks.1 mocks.2)) result) :
    PackageFiles conf lists name result := by
  have held (file : Text) (member : file ∈ mocks.1 name ++
      missing (mocks.1 name) (conf.mockedFiles ++ content mocks.1 mocks.2)) :
      file ∈ conf.mockedFiles ∨ ∃ origin, Leads conf.parent name origin ∧ file ∈ lists origin := by
    rw [mem_append_missing, List.mem_append, before.mem_content_iff] at member
    rcases member with own | global | above
    · exact .inr (before.origin name file own)
    · exact .inl global
    · exact .inr above
  refine ⟨before.known, ?_, before.grows.trans after.grows, after.loaded, ?_, ?_, ?_⟩
  · intro file
    rw [after.files]
    refine ⟨held file, fun wanted => ?_⟩
    rw [mem_append_missing, List.mem_append, before.mem_content_iff]
    exact .inr wanted
  · intro other file member
    rcases after.origin other file member with old | ⟨same, added⟩
    · exact .inr (before.origin other file old)
    · rw [same]
      exact held file (List.mem_append_right _ added)
  · intro unchanged nodup
    by_cases holds : conf.Holds name
    · rw [after.own holds, unchanged]
      exact nodup
    · rw [after.files, before.loaded name holds]
      exact nodup_append_missing List.nodup_nil _
  · constructor
    · intro unchanged
      have back : mocks.1 = lists := Grows.antisymm (unchanged ▸ after.grows) before.grows
      refine ⟨before.unchanged.mp back, fun holds file global => ?_⟩
      have nothing := after.unchanged.mp (unchanged.trans back.symm) holds
      rw [← back]
      exact missing_eq_nil_iff.mp nothing (List.mem_append_left _ global)
    · rintro ⟨empty, subset⟩
      have back := before.unchanged.mpr empty
      refine (after.unchanged.mpr fun holds => ?_).trans back
      rw [missing_eq_nil_iff, List.append_subset, before.own List.not_mem_nil holds, back]
      exact ⟨subset holds, List.Subset.refl _⟩

theorem packageFiles_of_ok {conf : Conf} {lists : Lists} (loaded : Loaded conf lists)
    {name : Text} {result : Lists × Ref} (ok : packageFiles conf lists name = .ok result) :
    PackageFiles conf lists name result := by
  rw [TestRunner.packageFiles] at ok
  cases found : conf.testPackages.lookup name with
  | none =>
      rw [found] at ok
      cases ok
  | some package =>
      rw [found] at ok
      rcases map_eq_ok_iff.mp ok with ⟨mocks, above, rfl⟩
      have before := parentMocks_of_ok loaded above
      dsimp only
      rw [appendMissing_eq, content_files before.loaded found]
      exact before.packageFiles (extended before.loaded found _)

theorem packageFiles_isOk {conf : Conf} (lists : Lists) {name : Text} (known : Known conf name) :
    ∃ result, packageFiles conf lists name = .ok result := by
  rcases @getParentMocks_isOk conf lists name [] known with ⟨mocks, above⟩
  cases found : conf.testPackages.lookup name with
  | none => exact absurd (known name .refl) (AList.lookup_eq_none.mp found)
  | some package =>
      rw [packageFiles, found, above]
      exact ⟨_, rfl⟩

/-! ## Selected packages -/

/-- The files that a package is to have mocked: its own, the global ones and those of its
ancestors. -/
def Wanted (conf : Conf) (name file : Text) : Prop :=
  file ∈ conf.load name ∨ file ∈ conf.mockedFiles ∨
    ∃ ancestor, LeadsOn conf.parent name ancestor ∧ file ∈ conf.load ancestor

theorem wanted_iff {conf : Conf} {name file : Text} :
    Wanted conf name file ↔ file ∈ conf.mockedFiles ∨
      ∃ origin, Leads conf.parent name origin ∧ file ∈ conf.load origin := by
  constructor
  · rintro (own | global | ⟨ancestor, leads, held⟩)
    · exact .inr ⟨name, .refl, own⟩
    · exact .inl global
    · exact .inr ⟨ancestor, leads.to_reflTransGen, held⟩
  · rintro (global | ⟨origin, leads, held⟩)
    · exact .inr (.inl global)
    · rcases Relation.reflTransGen_iff_eq_or_transGen.mp leads with rfl | onward
      · exact .inl held
      · exact .inr (.inr ⟨origin, onward, held⟩)

theorem Wanted.of_leads {conf : Conf} {name other file : Text}
    (leads : Leads conf.parent name other) (wanted : Wanted conf other file) :
    Wanted conf name file := by
  rw [wanted_iff] at wanted ⊢
  rcases wanted with global | ⟨origin, onward, held⟩
  · exact .inl global
  · exact .inr ⟨origin, leads.trans onward, held⟩

/-- Whatever was selected before, the lists hold what was loaded and nothing that is not wanted. -/
structure Within (conf : Conf) (lists : Lists) : Prop where
  loaded : Loaded conf lists
  grows : Grows conf.load lists
  wanted : ∀ name, ∀ file ∈ lists name, Wanted conf name file

theorem within_load (conf : Conf) : Within conf conf.load where
  loaded := loaded_load conf
  grows := .refl _
  wanted _ _ own := .inl own

theorem PackageFiles.within {conf : Conf} {lists : Lists} {name : Text} {result : Lists × Ref}
    (package : PackageFiles conf lists name result) (within : Within conf lists) :
    Within conf result.1 := by
  refine ⟨package.loaded, within.grows.trans package.grows, ?_⟩
  intro other file member
  rcases package.origin other file member with global | ⟨origin, leads, held⟩
  · exact .inr (.inl global)
  · exact (within.wanted origin file held).of_leads leads

/-- The files of a package are those that are wanted. -/
theorem PackageFiles.mem_iff {conf : Conf} {lists : Lists} {name : Text} {result : Lists × Ref}
    (package : PackageFiles conf lists name result) (within : Within conf lists) (file : Text) :
    file ∈ content result.1 result.2 ↔ Wanted conf name file := by
  rw [package.files]
  constructor
  · rintro (global | ⟨origin, leads, held⟩)
    · exact .inr (.inl global)
    · exact (within.wanted origin file held).of_leads leads
  · rw [wanted_iff]
    rintro (global | ⟨origin, leads, held⟩)
    · exact .inl global
    · exact .inr ⟨origin, leads, (within.grows origin).subset held⟩

/-! ## Packages, one after the other -/

/-- The files of the selected packages, each from the lists that the one before left. -/
inductive Processed (conf : Conf) : Lists → List Text → List (List Text) → Lists → Prop
  | nil (lists : Lists) : Processed conf lists [] [] lists
  | cons {lists lists' : Lists} {name : Text} {selected : List Text} {result : Lists × Ref}
      {groups : List (List Text)} (first : packageFiles conf lists name = .ok result)
      (rest : Processed conf result.1 selected groups lists') :
      Processed conf lists (name :: selected) (content result.1 result.2 :: groups) lists'

/-- The packages get the wanted files, whatever was selected before them. -/
theorem Processed.wanted {conf : Conf} {lists lists' : Lists} {selected : List Text}
    {groups : List (List Text)} (processed : Processed conf lists selected groups lists')
    (within : Within conf lists) :
    List.Forall₂ (fun name files => ∀ file, file ∈ files ↔ Wanted conf name file)
      selected groups := by
  induction processed with
  | nil => exact .nil
  | cons first rest ih =>
      have package := packageFiles_of_ok within.loaded first
      exact .cons (package.mem_iff within) (ih (package.within within))

theorem Processed.grows {conf : Conf} {lists lists' : Lists} {selected : List Text}
    {groups : List (List Text)} (processed : Processed conf lists selected groups lists')
    (loaded : Loaded conf lists) : Grows lists lists' := by
  induction processed with
  | nil => exact .refl _
  | cons first rest ih =>
      have package := packageFiles_of_ok loaded first
      exact package.grows.trans (ih package.loaded)

/-- Nothing is changed for the package: all its ancestors exist, no list on the path of its
parents has mocked files behind it, and its own list has the global files. -/
structure Undisturbed (conf : Conf) (lists : Lists) (name : Text) : Prop where
  known : Known conf name
  parents : (chain conf [] name).Pairwise fun other later => conf.Holds other → lists later = []
  global : conf.Holds name → conf.mockedFiles ⊆ lists name

/-- Lists that stay as they are were changed for none of the packages. -/
theorem Processed.undisturbed {conf : Conf} {lists lists' : Lists} {selected : List Text}
    {groups : List (List Text)} (processed : Processed conf lists selected groups lists')
    (loaded : Loaded conf lists) (same : lists' = lists) :
    ∀ name ∈ selected, Undisturbed conf lists name := by
  induction processed with
  | nil => exact fun name member => absurd member List.not_mem_nil
  | cons first rest ih =>
      have package := packageFiles_of_ok loaded first
      have back := Grows.antisymm (same ▸ rest.grows package.loaded) package.grows
      have unchanged := package.unchanged.mp back
      intro other member
      rcases List.mem_cons.mp member with rfl | later
      · exact ⟨package.known, unchanged.1, unchanged.2⟩
      · rw [← back]
        exact ih package.loaded (same.trans back.symm) other later

/-- Where no list is changed, every file of a package is there once. -/
theorem exists_processed {conf : Conf} {lists : Lists} (loaded : Loaded conf lists)
    (nodup : ∀ name, (lists name).Nodup) {selected : List Text}
    (undisturbed : ∀ name ∈ selected, Undisturbed conf lists name) :
    ∃ groups, Processed conf lists selected groups lists ∧ ∀ files ∈ groups, files.Nodup := by
  induction selected with
  | nil => exact ⟨[], .nil lists, fun files member => absurd member List.not_mem_nil⟩
  | cons name selected ih =>
      have here := undisturbed name List.mem_cons_self
      rcases ih fun other member => undisturbed other (List.mem_cons_of_mem _ member) with
        ⟨groups, rest, each⟩
      rcases packageFiles_isOk lists here.known with ⟨result, first⟩
      have package := packageFiles_of_ok loaded first
      have same := package.unchanged.mpr ⟨here.parents, here.global⟩
      have onward : Processed conf result.1 selected groups lists := by
        rw [same]
        exact rest
      refine ⟨_, .cons first onward, ?_⟩
      intro files member
      rcases List.mem_cons.mp member with rfl | later
      · exact package.nodup same (nodup name)
      · exact each files later

/-! ## Runs -/

/-- The calls for packages with these files. -/
def runsOf : List Text → List (List Text) → List Run
  | name :: selected, files :: groups => files.map (Prod.mk name) ++ runsOf selected groups
  | _, _ => []

/-- The calls, behind those before, return zero. -/
def Succeed (cmock : Run → Nat → ℤ) : List Run → List Run → Prop
  | _, [] => True
  | runs, run :: more => cmock run (runs.count run) = 0 ∧ Succeed cmock (runs ++ [run]) more

theorem succeed_append_iff {cmock : Run → Nat → ℤ} {runs first second : List Run} :
    Succeed cmock runs (first ++ second) ↔
      Succeed cmock runs first ∧ Succeed cmock (runs ++ first) second := by
  induction first generalizing runs with
  | nil => simp [Succeed]
  | cons run first ih =>
      rw [List.cons_append, Succeed, Succeed, ih, List.append_assoc, List.singleton_append,
        and_assoc]

/-- Of calls that are all different, each is the first of its kind. -/
theorem succeed_iff_of_nodup {cmock : Run → Nat → ℤ} {runs more : List Run}
    (nodup : (runs ++ more).Nodup) :
    Succeed cmock runs more ↔ ∀ run ∈ more, cmock run 0 = 0 := by
  induction more generalizing runs with
  | nil => simp [Succeed]
  | cons run more ih =>
      have fresh : run ∉ runs := by
        intro member
        exact (List.nodup_append.mp nodup).2.2 run member run List.mem_cons_self rfl
      rw [List.append_cons] at nodup
      rw [Succeed, ih nodup, List.count_eq_zero_of_not_mem fresh, List.forall_mem_cons]

theorem runCmock_of_succeed {cmock : Run → Nat → ℤ} {name : Text} {runs : List Run}
    {files : List Text} (succeed : Succeed cmock runs (files.map (Prod.mk name))) :
    runCmock cmock name runs files = (0, runs ++ files.map (Prod.mk name)) := by
  induction files generalizing runs with
  | nil => simp [runCmock]
  | cons file files ih =>
      rw [List.map_cons, Succeed] at succeed
      rw [runCmock, if_neg (not_not_intro succeed.1), ih succeed.2, List.map_cons,
        List.append_assoc, List.singleton_append]

theorem runCmock_ne_zero {cmock : Run → Nat → ℤ} {name : Text} {runs : List Run}
    {files : List Text} (fail : ¬Succeed cmock runs (files.map (Prod.mk name))) :
    (runCmock cmock name runs files).1 ≠ 0 := by
  induction files generalizing runs with
  | nil => exact absurd trivial fail
  | cons file files ih =>
      rw [List.map_cons, Succeed, not_and_or] at fail
      rw [runCmock]
      by_cases failed : cmock (name, file) (runs.count (name, file)) ≠ 0
      · rw [if_pos failed]
        exact failed
      · rw [if_neg failed]
        exact ih (fail.resolve_left failed)

theorem createMocks_cons_eq_zero_iff {conf : Conf} {cmock : Run → Nat → ℤ} {lists : Lists}
    {runs : List Run} {name : Text} {selected : List Text} {final : Lists × List Run} :
    createMocks conf cmock lists runs (name :: selected) = .ok (0, final) ↔
      ∃ result, packageFiles conf lists name = .ok result ∧
        Succeed cmock runs ((content result.1 result.2).map (Prod.mk name)) ∧
        createMocks conf cmock result.1
          (runs ++ (content result.1 result.2).map (Prod.mk name)) selected = .ok (0, final) := by
  rw [createMocks]
  cases packageFiles conf lists name with
  | error key => simp
  | ok result =>
      by_cases succeed : Succeed cmock runs ((content result.1 result.2).map (Prod.mk name))
      · simp [runCmock_of_succeed succeed, succeed]
      · have failed := runCmock_ne_zero succeed
        simp [failed, succeed]

/-- A run that goes through has all packages processed, and no call fails. -/
theorem createMocks_eq_zero_iff {conf : Conf} {cmock : Run → Nat → ℤ} {lists lists' : Lists}
    {runs after : List Run} {selected : List Text} :
    createMocks conf cmock lists runs selected = .ok (0, lists', after) ↔
      ∃ groups, Processed conf lists selected groups lists' ∧
        after = runs ++ runsOf selected groups ∧ Succeed cmock runs (runsOf selected groups) := by
  induction selected generalizing lists runs with
  | nil =>
      constructor
      · intro done
        cases done
        exact ⟨[], .nil lists', by simp [runsOf], trivial⟩
      · rintro ⟨groups, processed, rfl, _⟩
        cases processed
        simp [createMocks, runsOf]
  | cons name selected ih =>
      rw [createMocks_cons_eq_zero_iff]
      constructor
      · rintro ⟨result, first, succeed, later⟩
        rcases ih.mp later with ⟨groups, rest, shape, onward⟩
        refine ⟨_, .cons first rest, ?_, ?_⟩
        · rw [runsOf, shape, List.append_assoc]
        · rw [runsOf, succeed_append_iff]
          exact ⟨succeed, onward⟩
      · rintro ⟨groups, processed, shape, all⟩
        cases processed with
        | cons first rest =>
            rw [runsOf, succeed_append_iff] at all
            rw [runsOf, ← List.append_assoc] at shape
            exact ⟨_, first, all.1, ih.mpr ⟨_, rest, shape, all.2⟩⟩

/-! ## How often -/

section Groups

variable {conf : Conf} {selected : List Text} {groups : List (List Text)}

/-- The calls are for the wanted files of the selected packages. -/
theorem mem_runsOf_iff
    (wanted : List.Forall₂ (fun name files => ∀ file, file ∈ files ↔ Wanted conf name file)
      selected groups) {name file : Text} :
    (name, file) ∈ runsOf selected groups ↔ name ∈ selected ∧ Wanted conf name file := by
  induction wanted with
  | nil => simp [runsOf]
  | cons first rest ih =>
      rw [runsOf, List.mem_append, ih, List.mem_cons, List.mem_map]
      constructor
      · rintro (⟨own, member, same⟩ | ⟨later, wanted⟩)
        · cases same
          exact ⟨.inl rfl, (first _).mp member⟩
        · exact ⟨.inr later, wanted⟩
      · rintro ⟨rfl | later, wanted⟩
        · exact .inl ⟨file, (first file).mpr wanted, rfl⟩
        · exact .inr ⟨later, wanted⟩

/-- A file that is wanted for a package is mocked each time the package is selected. -/
theorem count_le_count_runsOf
    (wanted : List.Forall₂ (fun name files => ∀ file, file ∈ files ↔ Wanted conf name file)
      selected groups) {name file : Text} (want : Wanted conf name file) :
    selected.count name ≤ (runsOf selected groups).count (name, file) := by
  induction wanted with
  | nil => exact Nat.zero_le _
  | @cons other files selected groups first rest ih =>
      rw [runsOf, List.count_append]
      by_cases same : other = name
      · subst same
        have mapped : (other, file) ∈ files.map (Prod.mk other) :=
          List.mem_map_of_mem ((first file).mpr want)
        have once := List.one_le_count_iff.mpr mapped
        rw [List.count_cons_self]
        omega
      · rw [List.count_cons_of_ne same]
        omega

/-- It is mocked no more often where the files of a package are all different. -/
theorem count_runsOf_le_count (each : ∀ files ∈ groups, files.Nodup) (name file : Text) :
    (runsOf selected groups).count (name, file) ≤ selected.count name := by
  induction selected generalizing groups with
  | nil => simp [runsOf]
  | cons other selected ih =>
      cases groups with
      | nil => simp [runsOf]
      | cons files groups =>
          have later := ih fun more member => each more (List.mem_cons_of_mem _ member)
          have nodup : (files.map (Prod.mk other)).Nodup :=
            (each files List.mem_cons_self).map fun _ _ equal => congrArg Prod.snd equal
          rw [runsOf, List.count_append]
          by_cases same : other = name
          · subst same
            have once := List.nodup_iff_count_le_one.mp nodup (other, file)
            rw [List.count_cons_self]
            omega
          · have none : (name, file) ∉ files.map (Prod.mk other) := by
              intro member
              rcases List.mem_map.mp member with ⟨own, _, equal⟩
              exact same (congrArg Prod.fst equal)
            rw [List.count_cons_of_ne same, List.count_eq_zero_of_not_mem none, Nat.zero_add]
            exact later

end Groups

/-! ## The mocks -/

/-- What `create_mocks` is for: it goes through, cmock runs once on each wanted file of each
selected package, and the lists stay as they were loaded. -/
def MocksCreated (conf : Conf) (cmock : Run → Nat → ℤ) (selected : List Text) : Prop :=
  ∃ runs, createMocks conf cmock conf.load [] selected = .ok (0, conf.load, runs) ∧
    runs.Nodup ∧
    ∀ name file, (name, file) ∈ runs ↔ name ∈ selected ∧ Wanted conf name file

/-- When the mocks are created: the lists are changed for no selected package, a package for
which files are wanted is selected once, and cmock does not fail on them. -/
theorem mocks_created_iff (conf : Conf) (cmock : Run → Nat → ℤ)
    (nodup : ∀ name, (conf.load name).Nodup) (selected : List Text) :
    MocksCreated conf cmock selected ↔
      (∀ name ∈ selected, Undisturbed conf conf.load name) ∧
      (∀ name file, Wanted conf name file → selected.count name ≤ 1) ∧
      ∀ name ∈ selected, ∀ file, Wanted conf name file → cmock (name, file) 0 = 0 := by
  constructor
  · rintro ⟨runs, done, once, covers⟩
    rcases createMocks_eq_zero_iff.mp done with ⟨groups, processed, rfl, succeed⟩
    have wanted := processed.wanted (within_load conf)
    rw [List.nil_append] at once covers
    rw [succeed_iff_of_nodup once] at succeed
    refine ⟨processed.undisturbed (loaded_load conf) rfl, ?_, ?_⟩
    · intro name file want
      exact (count_le_count_runsOf wanted want).trans (List.nodup_iff_count_le_one.mp once _)
    · intro name member file want
      exact succeed _ ((covers name file).mpr ⟨member, want⟩)
  · rintro ⟨undisturbed, selectedOnce, success⟩
    rcases exists_processed (loaded_load conf) nodup undisturbed with ⟨groups, processed, each⟩
    have wanted := processed.wanted (within_load conf)
    have once : (runsOf selected groups).Nodup := by
      rw [List.nodup_iff_count_le_one]
      rintro ⟨name, file⟩
      by_cases want : Wanted conf name file
      · exact (count_runsOf_le_count each name file).trans (selectedOnce name file want)
      · have none : (name, file) ∉ runsOf selected groups :=
          fun member => want ((mem_runsOf_iff wanted).mp member).2
        rw [List.count_eq_zero_of_not_mem none]
        exact Nat.zero_le 1
    refine ⟨runsOf selected groups, ?_, once, fun name file => mem_runsOf_iff wanted⟩
    rw [createMocks_eq_zero_iff]
    refine ⟨groups, processed, rfl, (succeed_iff_of_nodup once).mpr ?_⟩
    rintro ⟨name, file⟩ member
    rcases (mem_runsOf_iff wanted).mp member with ⟨inSelected, want⟩
    exact success name inSelected file want

/-- One package without a parent, with the global header in its own list. -/
def alone : Conf where
  tests := none
  testPackages := AList.singleton ['t'] ⟨some [['h']], none⟩
  mockedFiles := [['h']]

theorem undisturbed_alone : Undisturbed alone alone.load ['t'] := by
  have last : alone.parent ['t'] = none := rfl
  have single : chain alone [] ['t'] = [['t']] := path_of_none (by decide) (by decide) last
  refine ⟨?_, ?_, fun _ => by decide⟩
  · intro other leads
    rcases Relation.ReflTransGen.cases_head leads with rfl | ⟨parent, step, _⟩
    · decide
    · rw [last] at step
      cases step
  · rw [single]
    exact List.pairwise_singleton _ _

/-- Its mocks are created. -/
theorem mocks_created_alone : MocksCreated alone (fun _ _ => 0) [['t']] := by
  apply (mocks_created_iff alone (fun _ _ => 0) _ _).mpr
  · refine ⟨?_, ?_, fun _ _ _ _ => rfl⟩
    · intro name member
      rw [List.mem_singleton.mp member]
      exact undisturbed_alone
    · intro name file _
      exact List.nodup_iff_count_le_one.mp (List.nodup_singleton _) name
  · intro name
    by_cases same : name = ['t']
    · subst same
      decide
    · have notThere : alone.testPackages.lookup name = none :=
        AList.lookup_eq_none.mpr fun member => same (List.mem_singleton.mp member)
      rw [Conf.load, notThere]
      exact List.nodup_nil

/-- A test of the sensor package, whose parent, the board package, mocks the same header. -/
def shared : Conf where
  tests := some (AList.singleton ['x'] (some ['s']))
  testPackages :=
    (AList.singleton ['b'] ⟨some [['h']], none⟩).insert ['s'] ⟨some [['h']], some ['b']⟩
  mockedFiles := []

/-- cmock runs twice on a header that the package of a test shares with its parent. -/
theorem shared_header_mocked_twice :
    getSelectedTestPackages shared [['x']] = .ok [['s']] ∧
      (∃ lists, createMocks shared (fun _ _ => 0) shared.load [] [['s']] =
        .ok (0, lists, [(['s'], ['h']), (['s'], ['h'])])) ∧
      ¬MocksCreated shared (fun _ _ => 0) [['s']] := by
  have sensor : chain shared [] ['s'] = ['s'] :: chain shared [['s']] ['b'] :=
    path_of_some (by decide) (by decide) (by decide)
  have board : chain shared [['s']] ['b'] = [['b']] :=
    path_of_none (by decide) (by decide) (by decide)
  refine ⟨rfl, ?_, ?_⟩
  · -- The path has two packages.
    unfold createMocks packageFiles getParentMocks getParentMocks
    exact ⟨_, rfl⟩
  · rintro ⟨runs, done, _⟩
    rcases createMocks_eq_zero_iff.mp done with ⟨groups, processed, _⟩
    have undisturbed := processed.undisturbed (loaded_load shared) rfl
    have parents := (undisturbed ['s'] List.mem_cons_self).parents
    rw [sensor, board, List.pairwise_pair] at parents
    have empty := parents (by decide)
    exact absurd empty (by decide)

end EmbeddedBase.NerEnvironment.TestRunner
