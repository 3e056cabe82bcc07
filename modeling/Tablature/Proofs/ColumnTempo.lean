import Tablature.Document.Column

namespace Tablature

/-- The last measure line of a tab at column `c` or before it. -/
def lastMeasureLine (columns : List Column) (c : Nat) : Option Column :=
  ((columns.take (c + 1)).filter Column.isMeasureLine).getLast?

/-- The tempo at column `c` of a tab that declares the tempo `declared`. -/
def columnTempo (declared : Float) (columns : List Column) (c : Nat) : Float :=
  resolveTempo ((lastMeasureLine columns c).bind Column.measureTempo) declared

theorem lastMeasureLine_zero (column : Column) (columns : List Column) :
    lastMeasureLine (column :: columns) 0 = if column.isMeasureLine then some column else none := by
  by_cases line : column.isMeasureLine = true
  · simp only [lastMeasureLine, Nat.zero_add, List.take_succ_cons, List.take_zero, List.filter_cons_of_pos line,
      List.filter_nil, List.getLast?_singleton, if_pos line]
  · simp only [lastMeasureLine, Nat.zero_add, List.take_succ_cons, List.take_zero, List.filter_cons_of_neg line,
      List.filter_nil, List.getLast?_nil, if_neg line]

theorem lastMeasureLine_succ (column : Column) (columns : List Column) (c : Nat) :
    lastMeasureLine (column :: columns) (c + 1) =
      (lastMeasureLine columns c).or (if column.isMeasureLine then some column else none) := by
  by_cases line : column.isMeasureLine = true
  · simp only [lastMeasureLine, List.take_succ_cons, List.filter_cons_of_pos line, if_pos line]
    rw [List.getLast?_cons]
    cases ((columns.take (c + 1)).filter Column.isMeasureLine).getLast? <;> rfl
  · simp only [lastMeasureLine, List.take_succ_cons, List.filter_cons_of_neg line, if_neg line, Option.or_none]

namespace Column

/-- The running tempo at a column: that of the last measure line, which falls back on the declared tempo,
and the tempo at the start while there was none. -/
theorem tempos_getElem? (tempo : RunningTempo) (columns : List Column) (c : Nat) :
    (tempos tempo columns)[c]? = (columns[c]?).map fun _ =>
      match lastMeasureLine columns c with
      | some line => resolveTempo line.measureTempo tempo.declared
      | none => tempo.current := by
  induction columns generalizing tempo c with
  | nil => rfl
  | cons column columns ih =>
    cases c with
    | zero =>
      rw [lastMeasureLine_zero]
      by_cases line : column.isMeasureLine = true
      · simp only [tempos, if_pos line, List.getElem?_cons_zero, Option.map_some]
        rfl
      · simp only [tempos, if_neg line, List.getElem?_cons_zero, Option.map_some]
    | succ c =>
      rw [lastMeasureLine_succ]
      simp only [tempos, List.getElem?_cons_succ, ih]
      by_cases line : column.isMeasureLine = true
      · simp only [if_pos line]
        cases lastMeasureLine columns c <;> rfl
      · simp only [if_neg line, Option.or_none]

/-- Looking back for the last measure line gives the tempo that playing carries along. -/
theorem timed_eq {β : Type} (bpm : Float) (columns : List Column) (play : Nat → Column → Float → β) :
    ((columns.zip (tempos (.start bpm) columns)).mapIdx fun i (c, tempo) => play i c tempo) =
      columns.mapIdx fun i c => play i c (columnTempo bpm columns i) := by
  apply List.ext_getElem?
  intro i
  have carried : (match lastMeasureLine columns i with
      | some line => resolveTempo line.measureTempo bpm
      | none => bpm) = columnTempo bpm columns i := by
    unfold columnTempo
    cases lastMeasureLine columns i <;> rfl
  rw [List.getElem?_mapIdx, List.getElem?_mapIdx, List.zip, List.getElem?_zipWith, tempos_getElem?]
  cases columns[i]? with
  | none => rfl
  | some c => exact congrArg (fun tempo => some (play i c tempo)) carried

end Column

end Tablature
