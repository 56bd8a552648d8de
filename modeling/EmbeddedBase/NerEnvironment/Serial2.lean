import EmbeddedBase.Data.Number
import EmbeddedBase.Data.Utf8
import Mathlib.Data.List.Infix
import Mathlib.Logic.Function.Basic

/-!
# The serial monitor of the host

The model of `update_monitor`, `update_graph` and the loop of `main` in `serial2.py`, over the
stream of bytes that the device sends.  A window stays open once it is there, and what
matplotlib draws is left out.
-/

namespace EmbeddedBase.NerEnvironment

open EmbeddedBase.Data

/-! ## The monitor -/

/-- The options `--monitor`, `--graph` and `--filter`. -/
structure Args where
  monitor : Option Text
  graph : Option Text
  filter : Option Text

/-- What the script shows: the title of the monitor window and its labels, the title of the
graph and its series, and the lines printed. -/
structure Ui where
  uiMonitor : Option Text
  uiMonitorLabels : Text → Option Text
  uiGraph : Option Text
  uiGraphSeries : Text → List (Double × Double)
  printed : List Text

namespace Ui

/-- Nothing is shown yet. -/
def initial : Ui where
  uiMonitor := none
  uiMonitorLabels _ := none
  uiGraph := none
  uiGraphSeries _ := []
  printed := []

end Ui

/-- The tag of monitor lines. -/
def mtr : Text :=
  ['m', 't', 'r']

/-- The tag of graph lines. -/
def gph : Text :=
  ['g', 'p', 'h']

/-- The text of a label: `f"{data_label}: {value}"`. -/
def labelText (dataLabel value : Text) : Text :=
  dataLabel ++ [':', ' '] ++ value

/-- `update_monitor`. -/
def updateMonitor (line : Text) (ui : Ui) : Ui :=
  match (strip line).splitOn '/' with
  | [_, title, dataLabel, value] =>
      { ui with
        uiMonitor := ui.uiMonitor.or (some title)
        uiMonitorLabels :=
          Function.update ui.uiMonitorLabels dataLabel (some (labelText dataLabel value)) }
  | _ => ui

/-- A point is appended, and the oldest of more than 1000 removed. -/
def appendPoint (points : List (Double × Double)) (point : Double × Double) :
    List (Double × Double) :=
  let points := points ++ [point]
  if 1000 < points.length then points.tail else points

section Host

-- The decimal digits of Unicode, which `float` takes for numbers.
variable (toDecimal : Char → Option (Fin 10))

/-- `update_graph`. -/
def updateGraph (line : Text) (ui : Ui) : Ui :=
  match (strip line).splitOn '/' with
  | [_, title, dataLabel, tickText, valueText] =>
      match float toDecimal tickText, float toDecimal valueText with
      | some tick, some value =>
          { ui with
            uiGraph := ui.uiGraph.or (some title)
            uiGraphSeries := Function.update ui.uiGraphSeries dataLabel
              (appendPoint (ui.uiGraphSeries dataLabel) (tick, value)) }
      | _, _ => ui
  | _ => ui

/-- An option that Python takes for true: it is given, and not empty. -/
def Given (option : Option Text) : Prop :=
  option ≠ none ∧ option ≠ some []

instance (option : Option Text) : Decidable (Given option) :=
  inferInstanceAs (Decidable (_ ∧ _))

/-- `option and line.startswith(f"{tag}/{option}/")`. -/
def Selects (tag : Text) (option : Option Text) (line : Text) : Prop :=
  Given option ∧ ∀ title ∈ option, tag ++ '/' :: (title ++ ['/']) <+: line

instance (tag : Text) (option : Option Text) (line : Text) :
    Decidable (Selects tag option line) :=
  inferInstanceAs (Decidable (_ ∧ _))

/-- The body of the loop of `main`, on a line that was read. -/
def mainLine (args : Args) (ui : Ui) (read : List UInt8) : Ui :=
  let line := strip (decode read)
  if line = [] then ui
  else if mtr ++ ['/'] <+: line ∨ gph ++ ['/'] <+: line then
    if Selects mtr args.monitor line then updateMonitor line ui
    else if Selects gph args.graph line then updateGraph toDecimal line ui
    else ui
  else if ¬Given args.filter ∨ ∃ filter ∈ args.filter, filter <:+: line then
    { ui with printed := ui.printed ++ [line] }
  else ui

/-- A line leaves labels and series alone, or it is selected and updates them. -/
theorem mainLine_cases (args : Args) (ui : Ui) (read : List UInt8) :
    (∃ printed, mainLine toDecimal args ui read = { ui with printed := printed }) ∨
      (Selects mtr args.monitor (strip (decode read)) ∧
        mainLine toDecimal args ui read = updateMonitor (strip (decode read)) ui) ∨
      (Selects gph args.graph (strip (decode read)) ∧
        mainLine toDecimal args ui read = updateGraph toDecimal (strip (decode read)) ui) := by
  rw [mainLine]
  generalize decode read = read
  by_cases empty : strip read = []
  · rw [if_pos empty]
    exact .inl ⟨ui.printed, rfl⟩
  · rw [if_neg empty]
    by_cases tagged : mtr ++ ['/'] <+: strip read ∨ gph ++ ['/'] <+: strip read
    · rw [if_pos tagged]
      by_cases monitored : Selects mtr args.monitor (strip read)
      · rw [if_pos monitored]
        exact .inr (.inl ⟨monitored, rfl⟩)
      · rw [if_neg monitored]
        by_cases graphed : Selects gph args.graph (strip read)
        · rw [if_pos graphed]
          exact .inr (.inr ⟨graphed, rfl⟩)
        · rw [if_neg graphed]
          exact .inl ⟨ui.printed, rfl⟩
    · rw [if_neg tagged]
      split
      · exact .inl ⟨_, rfl⟩
      · exact .inl ⟨ui.printed, rfl⟩

/-- A monitor line with four parts sets a label; others are dropped. -/
theorem updateMonitor_cases (line : Text) (ui : Ui) :
    (∃ tag title dataLabel value, (strip line).splitOn '/' = [tag, title, dataLabel, value] ∧
        updateMonitor line ui =
          { ui with
            uiMonitor := ui.uiMonitor.or (some title)
            uiMonitorLabels :=
              Function.update ui.uiMonitorLabels dataLabel (some (labelText dataLabel value)) }) ∨
      updateMonitor line ui = ui := by
  rw [updateMonitor]
  split
  · rename_i tag title dataLabel value parts
    exact .inl ⟨tag, title, dataLabel, value, parts, rfl⟩
  · exact .inr rfl

/-- A graph line appends one point to one series, or is dropped. -/
theorem updateGraph_cases (line : Text) (ui : Ui) :
    (∃ title dataLabel point, updateGraph toDecimal line ui =
      { ui with
        uiGraph := ui.uiGraph.or (some title)
        uiGraphSeries := Function.update ui.uiGraphSeries dataLabel
          (appendPoint (ui.uiGraphSeries dataLabel) point) }) ∨
      updateGraph toDecimal line ui = ui := by
  rw [updateGraph]
  split
  · split
    · exact .inl ⟨_, _, _, rfl⟩
    · exact .inr rfl
  · exact .inr rfl

/-! ## Whole streams -/

/-- What holds however many lines were read: without an option its window shows nothing, the
window has the title that was asked for, and no label shows a slash behind its name. -/
structure Shows (args : Args) (ui : Ui) : Prop where
  labels_of_not_given : ¬Given args.monitor → ∀ label, ui.uiMonitorLabels label = none
  series_of_not_given : ¬Given args.graph → ∀ label, ui.uiGraphSeries label = []
  title : ∀ title, args.monitor = some title → '/' ∉ title →
    ui.uiMonitor = none ∨ ui.uiMonitor = some title
  text : ∀ label shown, ui.uiMonitorLabels label = some shown →
    ∃ value, '/' ∉ value ∧ shown = labelText label value

/-- A selected line has the title in its second part. -/
theorem splitOn_of_selects {tag title line : Text} (tagged : '/' ∉ tag) (whole : '/' ∉ title)
    (selects : Selects tag (some title) line) :
    ∃ rest, line.splitOn '/' = tag :: title :: rest := by
  rcases selects.2 title rfl with ⟨rest, shape⟩
  refine ⟨rest.splitOn '/', ?_⟩
  rw [← shape, List.append_assoc, List.cons_append, List.append_assoc, List.singleton_append,
    List.splitOn_append_cons_self_of_not_mem tagged,
    List.splitOn_append_cons_self_of_not_mem whole]

theorem slash_not_mem_of_mem_splitOn {line part : Text} (inParts : part ∈ line.splitOn '/') :
    '/' ∉ part := by
  intro member
  rw [List.splitOn_eq_splitOnP] at inParts
  have separator := not_separator_of_mem_splitOnP inParts member
  exact absurd separator (by decide)

theorem Shows.updateMonitor {args : Args} {ui : Ui} (shows : Shows args ui) {read : Text}
    (selected : Selects mtr args.monitor (strip read)) :
    Shows args (updateMonitor (strip read) ui) := by
  rcases updateMonitor_cases (strip read) ui with
    ⟨tag, title, dataLabel, value, parts, updated⟩ | dropped
  · rw [updated]
    rw [strip_strip] at parts
    refine ⟨fun not => absurd selected.1 not, shows.series_of_not_given, ?_, ?_⟩
    · intro asked given whole
      rw [given] at selected
      rcases splitOn_of_selects (by decide) whole selected with ⟨rest, split⟩
      rw [parts] at split
      have same : title = asked := by cases split; rfl
      rcases shows.title asked given whole with none | some
      · exact .inr (by rw [none, same]; rfl)
      · exact .inr (by rw [some]; rfl)
    · intro label shown showing
      dsimp only at showing
      by_cases same : label = dataLabel
      · subst same
        rw [Function.update_self] at showing
        refine ⟨value, ?_, (Option.some.inj showing).symm⟩
        exact slash_not_mem_of_mem_splitOn (by rw [parts]; simp)
      · rw [Function.update_of_ne same] at showing
        exact shows.text label shown showing
  · rw [dropped]
    exact shows

theorem Shows.updateGraph {args : Args} {ui : Ui} (shows : Shows args ui) {read : Text}
    (selected : Selects gph args.graph (strip read)) :
    Shows args (updateGraph toDecimal (strip read) ui) := by
  rcases updateGraph_cases toDecimal (strip read) ui with
    ⟨title, dataLabel, point, updated⟩ | dropped
  · rw [updated]
    exact ⟨shows.labels_of_not_given, fun not => absurd selected.1 not, shows.title, shows.text⟩
  · rw [dropped]
    exact shows

/-- A line keeps what holds of the windows. -/
theorem Shows.mainLine {args : Args} {ui : Ui} (shows : Shows args ui) (read : List UInt8) :
    Shows args (mainLine toDecimal args ui read) := by
  rcases mainLine_cases toDecimal args ui read with ⟨printed, left⟩ | ⟨selected, updated⟩ |
    ⟨selected, updated⟩
  · rw [left]
    exact ⟨shows.labels_of_not_given, shows.series_of_not_given, shows.title, shows.text⟩
  · rw [updated]
    exact shows.updateMonitor selected
  · rw [updated]
    exact shows.updateGraph toDecimal selected

end Host

end EmbeddedBase.NerEnvironment
