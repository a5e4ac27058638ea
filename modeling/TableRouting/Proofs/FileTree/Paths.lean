import TableRouting.JsonLines.Source
import TableRouting.Proofs.Text.Cutting

/-!
# The steps of paths

Joining a relative path to another one puts its steps behind those of the other.
The steps of the path of a table file are those of the root, the schema if there is
one, and the name of the file.
-/

namespace TableRouting

namespace Path

variable {base path name : String}

theorem steps_slash (first second : List Char) :
    steps (String.ofList (first ++ '/' :: second)) =
      steps (String.ofList first) ++ steps (String.ofList second) := by
  simp only [steps, String.toList_ofList, Text.cut_append, List.filter_append, List.map_append]

theorem isAbsolute_append (hbase : base ≠ "") : isAbsolute (base ++ path) = isAbsolute base := by
  have hlist : base.toList ≠ [] := by
    simpa using hbase
  obtain ⟨first, rest, hcons⟩ := List.exists_cons_of_ne_nil hlist
  rw [isAbsolute, isAbsolute, String.toList_append, hcons]
  rfl

/-- A relative path goes on below the other one. -/
theorem isAbsolute_join (hbase : base ≠ "") (hpath : isAbsolute path = false) :
    isAbsolute (join base path) = isAbsolute base := by
  rw [join, hpath]
  have hempty : base.isEmpty = false := by
    simpa using hbase
  rw [hempty]
  simp only [Bool.false_or, Bool.false_eq_true, if_false]
  split
  · exact isAbsolute_append hbase
  · rw [String.append_assoc]
    exact isAbsolute_append hbase

theorem steps_join (hbase : base ≠ "") (hpath : isAbsolute path = false) :
    steps (join base path) = steps base ++ steps path := by
  have hempty : base.isEmpty = false := by
    simpa using hbase
  rw [join, hpath, hempty]
  simp only [Bool.false_or, Bool.false_eq_true, if_false]
  split
  · rename_i hslash
    -- The slash at the end of the base is the one between the two.
    obtain ⟨first, hfirst⟩ := List.getLast?_eq_some_iff.mp hslash
    have hboth : base ++ path = String.ofList (first ++ '/' :: path.toList) := by
      apply String.toList_injective
      simp [hfirst]
    have halone : base = String.ofList (first ++ '/' :: []) := by
      apply String.toList_injective
      simp [hfirst]
    have hnothing : steps (String.ofList []) = [] := by
      simp [steps]
    calc
      steps (base ++ path)
        = steps (String.ofList first) ++ steps (String.ofList path.toList) := by
          rw [hboth, steps_slash]
      _ = steps base ++ steps path := by
          rw [halone, steps_slash, hnothing, List.append_nil, String.ofList_toList]
  · have hboth : base ++ "/" ++ path = String.ofList (base.toList ++ '/' :: path.toList) := by
      apply String.toList_injective
      simp
    rw [hboth, steps_slash, String.ofList_toList, String.ofList_toList]

theorem getLast?_join (hpath : isAbsolute path = false) (hne : path ≠ "") :
    (join base path).toList.getLast? = path.toList.getLast? := by
  have hlist : path.toList ≠ [] := by
    simpa using hne
  rw [join, hpath]
  split
  · rfl
  · obtain ⟨first, rest, hcons⟩ := List.exists_cons_of_ne_nil hlist
    split <;> simp [hcons, List.getLast?_cons]

theorem fileSteps_join (hbase : base ≠ "") (hpath : isAbsolute path = false) (hne : path ≠ "") :
    fileSteps (join base path) = steps base ++ fileSteps path := by
  rw [fileSteps, fileSteps, getLast?_join hpath hne, steps_join hbase hpath]
  split
  · rw [List.append_assoc]
  · rfl

/-- A name is a single step. -/
theorem steps_of_name (hne : name ≠ "") (hname : '/' ∉ name.toList) : steps name = [name] := by
  have hlist : name.toList ≠ [] := by
    simpa using hne
  simp [steps, Text.cut_of_not_mem hname, hlist]

theorem fileSteps_of_name (hne : name ≠ "") (hname : '/' ∉ name.toList) :
    fileSteps name = [name] := by
  rw [fileSteps, if_neg, steps_of_name hne hname]
  intro hlast
  exact hname (List.mem_of_getLast? hlast)

theorem isAbsolute_of_name (hname : '/' ∉ name.toList) : isAbsolute name = false := by
  rw [isAbsolute, beq_eq_false_iff_ne]
  intro hhead
  exact hname (List.mem_of_head? hhead)

end Path

namespace JsonLines

/-- A name that is fit for a file holds no slash. -/
theorem name_of_nameFault? {name : String} (hfit : nameFault? name = none) :
    name ≠ "" ∧ '/' ∉ name.toList := by
  rw [nameFault?] at hfit
  split at hfit
  · simp at hfit
  · rename_i hempty
    split at hfit
    · simp at hfit
    · split at hfit
      · simp at hfit
      · rename_i hseparator
        constructor
        · simpa using hempty
        · intro hslash
          exact hseparator (List.any_eq_true.mpr ⟨'/', hslash, rfl⟩)

/-- A name that is fit for a file leads nowhere else. -/
theorem ne_dots_of_nameFault? {name : String} (hfit : nameFault? name = none) :
    name ≠ "." ∧ name ≠ ".." := by
  constructor
  · rintro rfl
    exact absurd hfit (by decide)
  · rintro rfl
    exact absurd hfit (by decide)

namespace TableFile

/-- A file whose names are fit for one. -/
structure Fit (file : TableFile) : Prop where
  table : nameFault? file.table = none
  schema : file.schema = "" ∨ nameFault? file.schema = none

theorem fit_of_create {table : String} {spec : WriterSpec} {writer : TableWriter}
    (hcreate : TableWriter.create table spec = .ok writer) : Fit ⟨spec.schema, table⟩ := by
  rw [TableWriter.create] at hcreate
  cases htable : nameFault? table with
  | some fault => simp [htable] at hcreate
  | none =>
      refine ⟨htable, ?_⟩
      by_cases hempty : spec.schema.isEmpty = true
      · exact Or.inl (by simpa using hempty)
      · right
        cases hschema : nameFault? spec.schema with
        | some fault => simp [htable, hempty, hschema] at hcreate
        | none => rfl

theorem toList_fileName (table : String) :
    (fileName table).toList = table.toList ++ ".jsonl".toList :=
  String.toList_append

theorem fileName_injective : Function.Injective fileName := by
  intro first second hsame
  have hlists := congrArg String.toList hsame
  rw [toList_fileName, toList_fileName] at hlists
  exact String.toList_injective (List.append_cancel_right hlists)

/-- The name of a file is none that leads elsewhere. -/
theorem fileName_ne {table step : String} (hstep : step.toList.length < 6) :
    fileName table ≠ step := by
  rintro rfl
  rw [toList_fileName, List.length_append] at hstep
  have hsuffix : ".jsonl".toList.length = 6 := rfl
  omega

theorem slash_not_mem_fileName {table : String} (htable : '/' ∉ table.toList) :
    '/' ∉ (fileName table).toList := by
  rw [toList_fileName, List.mem_append]
  rintro (hleft | hright)
  · exact htable hleft
  · revert hright
    decide

def folders (file : TableFile) : List String :=
  if file.schema.isEmpty then [] else [file.schema]

variable {file : TableFile}

theorem Fit.fileSteps_path (hfit : file.Fit) :
    Path.isAbsolute file.path = false ∧ file.path ≠ "" ∧
      Path.fileSteps file.path = file.folders ++ [fileName file.table] := by
  have hname := slash_not_mem_fileName (name_of_nameFault? hfit.table).2
  have hne : fileName file.table ≠ "" := fileName_ne (by decide)
  rw [path, folders]
  by_cases hempty : file.schema.isEmpty = true
  · rw [if_pos hempty, if_pos hempty]
    exact ⟨Path.isAbsolute_of_name hname, hne, Path.fileSteps_of_name hne hname⟩
  · rw [if_neg hempty, if_neg hempty]
    have hschema : file.schema ≠ "" ∧ '/' ∉ file.schema.toList := by
      rcases hfit.schema with hnone | hfault
      · exact absurd (by simp [hnone]) hempty
      · exact name_of_nameFault? hfault
    have hrelative := Path.isAbsolute_of_name hname
    have hsteps := Path.fileSteps_join hschema.1 hrelative hne
    rw [Path.steps_of_name hschema.1 hschema.2, Path.fileSteps_of_name hne hname] at hsteps
    refine ⟨?_, ?_, hsteps⟩
    · rw [Path.isAbsolute_join hschema.1 hrelative]
      exact Path.isAbsolute_of_name hschema.2
    · intro hnothing
      rw [hnothing] at hsteps
      simp [Path.fileSteps, Path.steps] at hsteps

theorem Fit.fileSteps_join (hfit : file.Fit) {root : String} (hroot : root ≠ "") :
    Path.fileSteps (Path.join root file.path) =
      Path.steps root ++ file.folders ++ [fileName file.table] := by
  obtain ⟨hrelative, hne, hsteps⟩ := hfit.fileSteps_path
  rw [Path.fileSteps_join hroot hrelative hne, hsteps, List.append_assoc]

end TableFile

end JsonLines

end TableRouting
