import EmbeddedBase.Data.Text
import EmbeddedBase.Transition.Path
import Mathlib.Data.List.AList
import Mathlib.Logic.Function.Basic

/-!
# Mock selection of the test runner

The model of `get_parent_mocks`, `create_mocks` and `get_selected_test_packages` in
`test_runner.py`.  A list of mocked files is read through a reference, since `+=` and `append`
change the very list that the configuration holds.
-/

namespace EmbeddedBase.NerEnvironment.TestRunner

open EmbeddedBase.Data
open EmbeddedBase.Transition

/-! ## The configuration -/

/-- A test package; a key that is not there is `none`. -/
structure TestPackage where
  mockedFiles : Option (List Text)
  parentPackage : Option Text

/-- The data of `ner_test.conf`: the tests, each with its test package, the test packages, and
the global mocked files. -/
structure Conf where
  tests : Option (AList fun _ : Text => Option Text)
  testPackages : AList fun _ : Text => TestPackage
  mockedFiles : List Text

/-- The contents of the lists of mocked files, by the package that holds them. -/
abbrev Lists :=
  Text → List Text

/-- A list object: the one that a package holds, or one of nobody else. -/
inductive Ref where
  | loaded (name : Text)
  | fresh (files : List Text)

namespace TestPackage

/-- `get("mocked-files", [])`. -/
def files (package : TestPackage) (name : Text) : Ref :=
  match package.mockedFiles with
  | none => .fresh []
  | some _ => .loaded name

end TestPackage

/-- What a list object holds. -/
def content (lists : Lists) : Ref → List Text
  | .loaded name => lists name
  | .fresh files => files

/-- `files += more`, in place. -/
def extend (lists : Lists) (files : Ref) (more : List Text) : Lists × Ref :=
  match files with
  | .loaded name => (Function.update lists name (lists name ++ more), .loaded name)
  | .fresh files => (lists, .fresh (files ++ more))

namespace Conf

/-- The parent of a package. -/
def parent (conf : Conf) (name : Text) : Option Text :=
  (conf.testPackages.lookup name).bind TestPackage.parentPackage

/-- The lists as they are loaded. -/
def load (conf : Conf) : Lists :=
  fun name => ((conf.testPackages.lookup name).bind TestPackage.mockedFiles).getD []

/-- The package has a list of its own. -/
def Holds (conf : Conf) (name : Text) : Prop :=
  (conf.testPackages.lookup name).bind TestPackage.mockedFiles ≠ none

instance (conf : Conf) (name : Text) : Decidable (conf.Holds name) :=
  inferInstanceAs (Decidable (_ ≠ none))

end Conf

/-! ## The functions -/

theorem map_eq_ok_iff {α β : Type} {x : Except Text α} {f : α → β} {b : β} :
    x.map f = .ok b ↔ ∃ a, x = .ok a ∧ f a = b := by
  cases x with
  | error => simp [Except.map]
  | ok a => simp [Except.map]

theorem mem_keys_of_lookup {conf : Conf} {name : Text} {package : TestPackage}
    (found : conf.testPackages.lookup name = some package) : name ∈ conf.testPackages.keys := by
  rw [← AList.mem_keys, ← AList.lookup_isSome, found]
  rfl

/-- `get_parent_mocks`; an error is the text of the `KeyError`. -/
def getParentMocks (conf : Conf) (lists : Lists) (name : Text) (visited : List Text) :
    Except Text (Lists × Ref) :=
  match _ : conf.testPackages.lookup name with
  | none => .error ("test-package ".toList ++ name ++ " does not exist".toList)
  | some package =>
      if _ : name ∈ visited then .ok (lists, .fresh [])
      else
        match package.parentPackage with
        | none => .ok (lists, package.files name)
        | some parent =>
            (getParentMocks conf lists parent (visited ++ [name])).map fun (lists, mocks) =>
              extend lists (package.files name) (content lists mocks)
termination_by left conf.testPackages.keys visited
decreasing_by exact left_lt_left (mem_keys_of_lookup ‹_›) ‹_›

/-- Each mock that is not in the list yet is appended to it. -/
def appendMissing (lists : Lists) (files : Ref) : List Text → Lists × Ref
  | [] => (lists, files)
  | mock :: mocks =>
      if mock ∈ content lists files then appendMissing lists files mocks
      else
        let (lists, files) := extend lists files [mock]
        appendMissing lists files mocks

/-- The list of files of a package in `create_mocks`. -/
def packageFiles (conf : Conf) (lists : Lists) (name : Text) : Except Text (Lists × Ref) :=
  match conf.testPackages.lookup name with
  | none => .error name
  | some package =>
      (getParentMocks conf lists name []).map fun (lists, mocks) =>
        appendMissing lists (package.files name) (conf.mockedFiles ++ content lists mocks)

/-- A call of cmock: the package and the file. -/
abbrev Run :=
  Text × Text

/-- cmock on the files of a package, up to the first that fails; `cmock` gives the return codes of
the first, second and further calls for a package and a file. -/
def runCmock (cmock : Run → Nat → ℤ) (name : Text) : List Run → List Text → ℤ × List Run
  | runs, [] => (0, runs)
  | runs, file :: files =>
      let retcode := cmock (name, file) (runs.count (name, file))
      if retcode ≠ 0 then (retcode, runs ++ [(name, file)])
      else runCmock cmock name (runs ++ [(name, file)]) files

/-- `create_mocks`, from the lists and the runs before. -/
def createMocks (conf : Conf) (cmock : Run → Nat → ℤ) :
    Lists → List Run → List Text → Except Text (ℤ × Lists × List Run)
  | lists, runs, [] => .ok (0, lists, runs)
  | lists, runs, name :: selected =>
      match packageFiles conf lists name with
      | .error key => .error key
      | .ok (lists, files) =>
          let (retcode, runs) := runCmock cmock name runs (content lists files)
          if retcode ≠ 0 then .ok (retcode, lists, runs)
          else createMocks conf cmock lists runs selected

/-- `get_selected_test_packages`. -/
def getSelectedTestPackages (conf : Conf) : List Text → Except Text (List Text)
  | [] => .ok []
  | test :: selected =>
      match conf.tests with
      | none => .error "tests".toList
      | some tests =>
          match tests.lookup test with
          | none => .error ("Test '".toList ++ test ++
              "' not found in [tests] section of ner_test.conf".toList)
          | some none => .error ("Test '".toList ++ test ++
              "' missing required field 'test-package' in ner_test.conf".toList)
          | some (some package) =>
              if package ∈ conf.testPackages then
                (getSelectedTestPackages conf selected).map (package :: ·)
              else .error ("Test package '".toList ++ package ++
                "' not found in [test-packages]".toList)

end EmbeddedBase.NerEnvironment.TestRunner
