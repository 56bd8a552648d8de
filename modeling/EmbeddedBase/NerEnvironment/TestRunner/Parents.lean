import EmbeddedBase.NerEnvironment.TestRunner.Core

/-!
# Mocks of the parents

`get_parent_mocks` follows the parents of a package until one was visited, and adds to the list of
each package on that path the lists of the packages behind it.
-/

namespace EmbeddedBase.NerEnvironment.TestRunner

open EmbeddedBase.Data
open EmbeddedBase.Transition

/-! ## Lists in place -/

/-- Packages without a list of their own have none loaded. -/
def Loaded (conf : Conf) (lists : Lists) : Prop :=
  ∀ name, ¬conf.Holds name → lists name = []

theorem loaded_load (conf : Conf) : Loaded conf conf.load := by
  intro name none
  rw [Conf.Holds, not_not] at none
  rw [Conf.load, none]
  rfl

/-- `files += more` changes the list of a package that holds one, and nothing else. -/
theorem extend_cases {conf : Conf} {lists : Lists} {name : Text} {package : TestPackage}
    (found : conf.testPackages.lookup name = some package) (more : List Text) :
    conf.Holds name ∧ package.files name = .loaded name ∧
        extend lists (package.files name) more =
          (Function.update lists name (lists name ++ more), .loaded name) ∨
      ¬conf.Holds name ∧ package.files name = .fresh [] ∧
        extend lists (package.files name) more = (lists, .fresh more) := by
  cases own : package.mockedFiles with
  | none =>
      have files : package.files name = .fresh [] := by rw [TestPackage.files, own]
      refine .inr ⟨?_, files, ?_⟩
      · rw [Conf.Holds, found, not_not]
        exact own
      · rw [files]
        rfl
  | some list =>
      have files : package.files name = .loaded name := by rw [TestPackage.files, own]
      refine .inl ⟨?_, files, ?_⟩
      · rw [Conf.Holds, found, Option.bind_some, own]
        exact Option.some_ne_none list
      · rw [files]
        rfl

/-- What `lists` holds is at the front of what `lists'` holds. -/
def Grows (lists lists' : Lists) : Prop :=
  ∀ name, lists name <+: lists' name

theorem Grows.refl (lists : Lists) : Grows lists lists :=
  fun _ => List.prefix_rfl

theorem Grows.trans {first second third : Lists} (before : Grows first second)
    (after : Grows second third) : Grows first third :=
  fun name => (before name).trans (after name)

theorem Grows.antisymm {first second : Lists} (there : Grows first second)
    (back : Grows second first) : first = second :=
  funext fun name => (there name).eq_of_length_le (back name).length_le

theorem grows_update (lists : Lists) (name : Text) (more : List Text) :
    Grows lists (Function.update lists name (lists name ++ more)) := by
  intro other
  by_cases same : other = name
  · rw [same, Function.update_self]
    exact List.prefix_append _ _
  · have kept := Function.update_of_ne same (lists name ++ more) lists
    exact kept.symm ▸ List.prefix_rfl

theorem content_files {conf : Conf} {lists : Lists} (loaded : Loaded conf lists) {name : Text}
    {package : TestPackage} (found : conf.testPackages.lookup name = some package) :
    content lists (package.files name) = lists name := by
  rcases @extend_cases conf lists name package found [] with ⟨_, files, _⟩ | ⟨none, files, _⟩
  · rw [files]
    rfl
  · rw [files, loaded name none]
    rfl

/-- What `files += more` does to the lists and to `files`. -/
structure Extended (conf : Conf) (lists : Lists) (name : Text) (more : List Text)
    (result : Lists × Ref) : Prop where
  files : content result.1 result.2 = lists name ++ more
  grows : Grows lists result.1
  others : ∀ other, other ≠ name → result.1 other = lists other
  loaded : Loaded conf result.1
  origin : ∀ other, ∀ file ∈ result.1 other, file ∈ lists other ∨ other = name ∧ file ∈ more
  own : conf.Holds name → content result.1 result.2 = result.1 name
  unchanged : result.1 = lists ↔ (conf.Holds name → more = [])

theorem extended {conf : Conf} {lists : Lists} (loaded : Loaded conf lists) {name : Text}
    {package : TestPackage} (found : conf.testPackages.lookup name = some package)
    (more : List Text) :
    Extended conf lists name more (extend lists (package.files name) more) := by
  rcases @extend_cases conf lists name package found more with
    ⟨holds, _, result⟩ | ⟨none, _, result⟩
  · rw [result]
    refine ⟨?_, grows_update lists name more, ?_, ?_, ?_, fun _ => rfl, ?_⟩
    · exact Function.update_self _ _ _
    · exact fun other different => Function.update_of_ne different _ _
    · intro other otherNone
      have different : other ≠ name := fun same => otherNone (same ▸ holds)
      dsimp only
      rw [Function.update_of_ne different]
      exact loaded other otherNone
    · intro other file member
      dsimp only at member
      by_cases same : other = name
      · rw [same, Function.update_self] at member
        rcases List.mem_append.mp member with before | appended
        · exact .inl (same ▸ before)
        · exact .inr ⟨same, appended⟩
      · rw [Function.update_of_ne same] at member
        exact .inl member
    · rw [Function.update_eq_self_iff, List.append_right_eq_self]
      exact ⟨fun empty _ => empty, fun empty => empty holds⟩
  · rw [result]
    refine ⟨?_, .refl lists, fun _ _ => rfl, loaded, fun _ _ member => .inl member, ?_, ?_⟩
    · rw [loaded name none]
      rfl
    · exact fun holds => absurd holds none
    · exact ⟨fun _ holds => absurd holds none, fun _ => rfl⟩

/-! ## Parents -/

/-- The packages that `get_parent_mocks` visits. -/
def chain (conf : Conf) (visited : List Text) (name : Text) : List Text :=
  path conf.testPackages.keys conf.parent visited name

/-- What `get_parent_mocks` does to the lists, and what it returns. -/
structure ParentMocks (conf : Conf) (lists : Lists) (name : Text) (visited : List Text)
    (result : Lists × Ref) : Prop where
  start : name ∈ conf.testPackages.keys
  stays : ∀ other ∈ chain conf visited name, ∀ parent, conf.parent other = some parent →
    parent ∈ conf.testPackages.keys
  files : content result.1 result.2 = (chain conf visited name).flatMap lists
  grows : Grows lists result.1
  others : ∀ other, other ∉ chain conf visited name → result.1 other = lists other
  loaded : Loaded conf result.1
  origin : ∀ other, ∀ file ∈ result.1 other,
    ∃ origin, Leads conf.parent other origin ∧ file ∈ lists origin
  own : name ∉ visited → conf.Holds name → content result.1 result.2 = result.1 name
  unchanged : result.1 = lists ↔
    (chain conf visited name).Pairwise fun other later => conf.Holds other → lists later = []

theorem parent_of_lookup {conf : Conf} {name : Text} {package : TestPackage}
    (found : conf.testPackages.lookup name = some package) :
    conf.parent name = package.parentPackage := by
  rw [Conf.parent, found]
  rfl

theorem parentMocks_of_visited {conf : Conf} {lists : Lists} (loaded : Loaded conf lists)
    {name : Text} {visited : List Text} (inKeys : name ∈ conf.testPackages.keys)
    (seen : name ∈ visited) : ParentMocks conf lists name visited (lists, .fresh []) := by
  have noChain : chain conf visited name = [] := path_of_visited seen
  refine ⟨inKeys, ?_, ?_, .refl lists, fun _ _ => rfl, loaded, ?_, ?_, ?_⟩
  · rw [noChain]
    exact fun other member => absurd member List.not_mem_nil
  · rw [noChain]
    rfl
  · exact fun other file member => ⟨other, .refl, member⟩
  · exact fun fresh => absurd seen fresh
  · rw [noChain]
    exact ⟨fun _ => .nil, fun _ => rfl⟩

theorem parentMocks_of_none {conf : Conf} {lists : Lists} (loaded : Loaded conf lists)
    {name : Text} {package : TestPackage} {visited : List Text}
    (found : conf.testPackages.lookup name = some package) (fresh : name ∉ visited)
    (last : conf.parent name = none) :
    ParentMocks conf lists name visited (lists, package.files name) := by
  have inKeys := mem_keys_of_lookup found
  have single : chain conf visited name = [name] := path_of_none inKeys fresh last
  refine ⟨inKeys, ?_, ?_, .refl lists, fun _ _ => rfl, loaded, ?_, ?_, ?_⟩
  · intro other member parent step
    rw [single] at member
    rw [List.mem_singleton.mp member, last] at step
    cases step
  · rw [single, content_files loaded found, List.flatMap_singleton]
  · exact fun other file member => ⟨other, .refl, member⟩
  · exact fun _ _ => content_files loaded found
  · rw [single]
    exact ⟨fun _ => List.pairwise_singleton _ _, fun _ => rfl⟩

/-- The mocks of the parent are added to those of the package. -/
theorem ParentMocks.extend {conf : Conf} {lists : Lists} {name parent : Text}
    {package : TestPackage} {visited : List Text} {mocks : Lists × Ref}
    (before : ParentMocks conf lists parent (visited ++ [name]) mocks)
    (found : conf.testPackages.lookup name = some package) (fresh : name ∉ visited)
    (step : conf.parent name = some parent) :
    ParentMocks conf lists name visited
      (extend mocks.1 (package.files name) (content mocks.1 mocks.2)) := by
  have inKeys := mem_keys_of_lookup found
  have after := extended before.loaded found (content mocks.1 mocks.2)
  have onward : chain conf visited name = name :: chain conf (visited ++ [name]) parent :=
    path_of_some inKeys fresh step
  have apart : name ∉ chain conf (visited ++ [name]) parent := by
    intro onPath
    exact (of_mem_path onPath).2.1 (List.mem_append_right _ (List.mem_singleton_self name))
  refine ⟨inKeys, ?_, ?_, before.grows.trans after.grows, ?_, after.loaded, ?_, ?_, ?_⟩
  · intro other member above toAbove
    rw [onward] at member
    rcases List.mem_cons.mp member with rfl | later
    · rw [step] at toAbove
      cases toAbove
      exact before.start
    · exact before.stays other later above toAbove
  · rw [after.files, before.others name apart, before.files, onward, List.flatMap_cons]
  · intro other notOn
    rw [onward, List.mem_cons, not_or] at notOn
    rw [after.others other notOn.1, before.others other notOn.2]
  · intro other file member
    rcases after.origin other file member with held | ⟨same, added⟩
    · exact before.origin other file held
    · rw [before.files] at added
      rcases List.mem_flatMap.mp added with ⟨origin, onPath, held⟩
      rw [same]
      exact ⟨origin, .head step (of_mem_path onPath).2.2, held⟩
  · exact fun _ => after.own
  · rw [onward, List.pairwise_cons]
    constructor
    · intro unchanged
      have back : mocks.1 = lists :=
        Grows.antisymm (unchanged ▸ after.grows) before.grows
      have nothing := after.unchanged.mp (unchanged.trans back.symm)
      refine ⟨?_, before.unchanged.mp back⟩
      intro later onPath holds
      rw [before.files] at nothing
      exact List.flatMap_eq_nil_iff.mp (nothing holds) later onPath
    · rintro ⟨empty, rest⟩
      have back := before.unchanged.mpr rest
      refine (after.unchanged.mpr fun holds => ?_).trans back
      rw [before.files]
      exact List.flatMap_eq_nil_iff.mpr fun later onPath => empty later onPath holds

/-- `get_parent_mocks` adds the lists along the path of the parents. -/
theorem parentMocks_of_ok {conf : Conf} {lists : Lists} (loaded : Loaded conf lists)
    {name : Text} {visited : List Text} {result : Lists × Ref}
    (ok : getParentMocks conf lists name visited = .ok result) :
    ParentMocks conf lists name visited result := by
  fun_induction getParentMocks conf lists name visited generalizing result with
  | case1 => cases ok
  | case2 name visited package found seen =>
      cases ok
      exact parentMocks_of_visited loaded (mem_keys_of_lookup found) seen
  | case3 name visited package found fresh last =>
      cases ok
      rw [← parent_of_lookup found] at last
      exact parentMocks_of_none loaded found fresh last
  | case4 name visited package found fresh parent step ih =>
      rw [← parent_of_lookup found] at step
      rcases map_eq_ok_iff.mp ok with ⟨mocks, above, rfl⟩
      exact (ih above).extend found fresh step

/-- It fails only where a package is missing. -/
theorem getParentMocks_isOk {conf : Conf} (lists : Lists) {name : Text} {visited : List Text}
    (all : ∀ other, Leads conf.parent name other → other ∈ conf.testPackages.keys) :
    ∃ result, getParentMocks conf lists name visited = .ok result := by
  fun_induction getParentMocks conf lists name visited with
  | case1 name visited missing =>
      rw [AList.lookup_eq_none] at missing
      exact absurd (all name .refl) missing
  | case2 => exact ⟨_, rfl⟩
  | case3 => exact ⟨_, rfl⟩
  | case4 name visited package found fresh parent step ih =>
      rw [← parent_of_lookup found] at step
      rcases ih fun other leads => all other (.head step leads) with ⟨mocks, above⟩
      rw [above]
      exact ⟨_, rfl⟩

end EmbeddedBase.NerEnvironment.TestRunner
