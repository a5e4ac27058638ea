import TableRouting.Proofs.Config.Mappings
import TableRouting.Sink.Basic

/-!
# Faults of a configuration

A configuration with which a sink can be opened meets a list of conditions.  What is
reported of any other one are its faults: every issue tells of a condition that is
violated, and every violated condition has an issue under its group and setting.  One
condition is waived: where no connections are allowed, nothing is said of the idle ones.
-/

namespace TableRouting

def unsetIssue : ConfigIssue :=
  ⟨"sink", "field_mappings", "Field and column must both be set"⟩

def unboundIssue (column : String) : ConfigIssue :=
  ⟨"sink", "field_mappings", s!"Parameter expression for column '{column}' must contain '?'"⟩

def repeatedIssue (column : String) : ConfigIssue :=
  ⟨"sink", "field_mappings", s!"Column '{column}' is mapped more than once"⟩

namespace SinkConfig

/-- What is violated by field mappings, given the columns mapped so far. -/
inductive MappingFault (caseSensitive : Bool) (seen : List String) (mappings : List FieldMapping) :
    ConfigIssue → Prop
  | unset {mapping : FieldMapping} (hmapping : mapping ∈ mappings)
      (hunset : mapping.field.isEmpty ∨ mapping.column.isEmpty) :
      MappingFault caseSensitive seen mappings unsetIssue
  | unbound {mapping : FieldMapping} (hmapping : mapping ∈ mappings)
      (hunbound : '?' ∉ mapping.paramValue.toList) :
      MappingFault caseSensitive seen mappings (unboundIssue mapping.column)
  | repeated {before after : List FieldMapping} {mapping : FieldMapping}
      (hmappings : mappings = before ++ mapping :: after)
      (hcolumn : columnName caseSensitive mapping.column ∈
        seen ++ before.map fun earlier => columnName caseSensitive earlier.column) :
      MappingFault caseSensitive seen mappings (repeatedIssue mapping.column)

section

variable {caseSensitive : Bool} {seen : List String} {mapping : FieldMapping}
  {mappings rest : List FieldMapping} {issue : ConfigIssue}

theorem MappingFault.key (hfault : MappingFault caseSensitive seen mappings issue) :
    issue.group = "sink" ∧ issue.setting = "field_mappings" := by
  cases hfault <;> exact ⟨rfl, rfl⟩

/-- A fault behind a mapping, whose column may have been seen. -/
theorem MappingFault.cons {more : List String}
    (hmore : ∀ column ∈ more, column ∈ columnName caseSensitive mapping.column :: seen)
    (hfault : MappingFault caseSensitive more rest issue) :
    MappingFault caseSensitive seen (mapping :: rest) issue := by
  cases hfault with
  | unset hmapping hunset => exact .unset (List.mem_cons_of_mem _ hmapping) hunset
  | unbound hmapping hunbound => exact .unbound (List.mem_cons_of_mem _ hmapping) hunbound
  | repeated hmappings hcolumn =>
      rename_i before after later
      have hfirst : mapping :: rest = (mapping :: before) ++ later :: after :=
        congrArg (mapping :: ·) hmappings
      refine .repeated hfirst ?_
      rcases List.mem_append.mp hcolumn with hseen | hbefore
      · rcases List.mem_cons.mp (hmore _ hseen) with hfirst | hseen
        · exact List.mem_append_right _ (hfirst ▸ List.mem_cons_self)
        · exact List.mem_append_left _ hseen
      · exact List.mem_append_right _ (List.mem_cons_of_mem _ hbefore)

/-- Every issue of mappings tells of a fault. -/
theorem MappingFault.of_mem (hissue : issue ∈ mappingIssues caseSensitive seen mappings) :
    MappingFault caseSensitive seen mappings issue := by
  induction mappings generalizing seen with
  | nil => exact absurd hissue List.not_mem_nil
  | cons mapping rest ih =>
      rw [mappingIssues] at hissue
      split at hissue
      · rename_i hunset
        rcases List.mem_cons.mp hissue with rfl | hrest
        · exact .unset List.mem_cons_self hunset
        · exact (ih hrest).cons fun column hseen => List.mem_cons_of_mem _ hseen
      · rcases List.mem_append.mp hissue with hfirst | hrest
        · rcases List.mem_append.mp hfirst with hunbound | hrepeated
          · rw [List.mem_ite_nil_left, List.mem_singleton] at hunbound
            obtain ⟨hplace, rfl⟩ := hunbound
            rw [List.contains_iff_mem] at hplace
            exact .unbound List.mem_cons_self hplace
          · rw [List.mem_ite_nil_right, List.mem_singleton] at hrepeated
            obtain ⟨hseen, rfl⟩ := hrepeated
            rw [List.contains_iff_mem] at hseen
            have hfirst : mapping :: rest = [] ++ mapping :: rest := rfl
            exact .repeated hfirst (List.mem_append_left _ hseen)
        · exact (ih hrest).cons fun column hseen => hseen

/-- Mappings with a fault have an issue. -/
theorem MappingFault.exists_mem (hfault : MappingFault caseSensitive [] mappings issue) :
    ∃ listed, listed ∈ mappingIssues caseSensitive [] mappings := by
  apply List.exists_mem_of_ne_nil
  intro hnil
  obtain ⟨husable, hnodup, -⟩ := mappingIssues_eq_nil_iff.mp hnil
  cases hfault with
  | unset hmapping hunset =>
      rcases hunset with hempty | hempty
      · exact absurd hempty (Bool.eq_false_iff.mp (husable _ hmapping).field)
      · exact absurd hempty (Bool.eq_false_iff.mp (husable _ hmapping).column)
  | unbound hmapping hunbound => exact hunbound (husable _ hmapping).param
  | repeated hmappings hcolumn =>
      rw [hmappings, List.map_append, List.map_cons, List.nodup_append] at hnodup
      exact hnodup.2.2 _ hcolumn _ List.mem_cons_self rfl

end

end SinkConfig

namespace Config

def template? (config : Config) : Except EvaluationError Template :=
  Template.compile config.sink.tableNameTemplate config.sink.caseSensitive

/-- What a sink needs of its configuration. -/
structure Faultless (config : Config) : Prop where
  template : Text.isBlankText config.sink.tableNameTemplate = false
  compiles : ∃ template, config.template? = .ok template
  parameters : config.sink.maxStatementParameters ≠ some 0
  statements : config.sink.maxStatementCache ≠ some 0
  mappings : ∀ mapping ∈ config.sink.fieldMappings, mapping.Usable
  /-- The columns are distinct, as the store knows them. -/
  columns : (config.sink.fieldMappings.map fun mapping =>
    columnName config.sink.caseSensitive mapping.column).Nodup
  connectionString : Text.isBlankText config.connection.connectionString = false
  maxConnections : 1 ≤ config.connection.maxConnections
  minIdle : config.connection.minIdle ≤ config.connection.maxConnections

/-- An issue tells of a condition that is violated. -/
inductive Fault (config : Config) : ConfigIssue → Prop
  | blankTemplate (hblank : Text.isBlankText config.sink.tableNameTemplate = true) :
      config.Fault ⟨"sink", "table_name_template", "Table name template is required"⟩
  | malformedTemplate {e : EvaluationError} (hcompile : config.template? = .error e) :
      config.Fault ⟨"sink", "table_name_template", e.message⟩
  | noParameters (hzero : config.sink.maxStatementParameters = some 0) :
      config.Fault ⟨"sink", "max_prepared_statement_parameters",
        "Must be greater than zero when set"⟩
  | noStatements (hzero : config.sink.maxStatementCache = some 0) :
      config.Fault ⟨"sink", "max_prepared_statement_cache", "Must be greater than zero when set"⟩
  | mappings {issue : ConfigIssue} (hmappings : SinkConfig.MappingFault config.sink.caseSensitive []
      config.sink.fieldMappings issue) : config.Fault issue
  | blankConnection (hblank : Text.isBlankText config.connection.connectionString = true) :
      config.Fault ⟨"connection", "connection_string", "Connection string is required"⟩
  | noConnections (hzero : config.connection.maxConnections = 0) :
      config.Fault ⟨"connection", "max_connections", "At least one connection required"⟩
  | idleConnections (hidle : config.connection.maxConnections < config.connection.minIdle) :
      config.Fault ⟨"connection", "min_idle", "Must not exceed max_connections"⟩

/-- What is reported when a sink cannot be opened with a configuration: its issues, and the
template, if it does not compile and no issue is about it. -/
def reported (config : Config) : List ConfigIssue :=
  config.issues ++
    match config.template? with
    | .ok _ => []
    | .error e =>
      if ∃ issue ∈ config.issues, issue.setting = "table_name_template" then []
      else [⟨"sink", "table_name_template", e.message⟩]

variable {config : Config} {issue : ConfigIssue}

theorem mem_issues : issue ∈ config.issues ↔
    (Text.isBlankText config.sink.tableNameTemplate = true ∧
      issue = ⟨"sink", "table_name_template", "Table name template is required"⟩) ∨
    (config.sink.maxStatementParameters = some 0 ∧
      issue = ⟨"sink", "max_prepared_statement_parameters", "Must be greater than zero when set"⟩) ∨
    (config.sink.maxStatementCache = some 0 ∧
      issue = ⟨"sink", "max_prepared_statement_cache", "Must be greater than zero when set"⟩) ∨
    issue ∈ SinkConfig.mappingIssues config.sink.caseSensitive [] config.sink.fieldMappings ∨
    (Text.isBlankText config.connection.connectionString = true ∧
      issue = ⟨"connection", "connection_string", "Connection string is required"⟩) ∨
    (config.connection.maxConnections = 0 ∧
      issue = ⟨"connection", "max_connections", "At least one connection required"⟩) ∨
    ((0 < config.connection.maxConnections ∧
        config.connection.maxConnections < config.connection.minIdle) ∧
      issue = ⟨"connection", "min_idle", "Must not exceed max_connections"⟩) := by
  simp only [issues, SinkConfig.issues, ConnectionConfig.issues, List.mem_append,
    List.mem_ite_nil_right, List.mem_singleton, or_assoc]

/-- Every issue that is listed tells of a fault. -/
theorem Fault.of_mem_issues (hissue : issue ∈ config.issues) : config.Fault issue := by
  rcases mem_issues.mp hissue with
    ⟨h, rfl⟩ | ⟨h, rfl⟩ | ⟨h, rfl⟩ | h | ⟨h, rfl⟩ | ⟨h, rfl⟩ | ⟨h, rfl⟩
  · exact .blankTemplate h
  · exact .noParameters h
  · exact .noStatements h
  · exact .mappings (.of_mem h)
  · exact .blankConnection h
  · exact .noConnections h
  · exact .idleConnections h.2

theorem Fault.of_mem_reported (hissue : issue ∈ config.reported) : config.Fault issue := by
  rw [reported] at hissue
  rcases List.mem_append.mp hissue with hlisted | htemplate
  · exact .of_mem_issues hlisted
  · split at htemplate
    · exact absurd htemplate List.not_mem_nil
    · rename_i e hcompile
      rw [List.mem_ite_nil_left, List.mem_singleton] at htemplate
      obtain ⟨-, rfl⟩ := htemplate
      exact .malformedTemplate hcompile

theorem group_of_setting (hissue : issue ∈ config.issues)
    (hsetting : issue.setting = "table_name_template") : issue.group = "sink" := by
  rcases mem_issues.mp hissue with
    ⟨-, rfl⟩ | ⟨-, rfl⟩ | ⟨-, rfl⟩ | h | ⟨-, rfl⟩ | ⟨-, rfl⟩ | ⟨-, rfl⟩
  · rfl
  · rfl
  · rfl
  · exact (SinkConfig.MappingFault.of_mem h).key.1
  · exact absurd hsetting (by decide)
  · exact absurd hsetting (by decide)
  · exact absurd hsetting (by decide)

theorem mem_reported (hissue : issue ∈ config.issues) : issue ∈ config.reported :=
  List.mem_append_left _ hissue

/-- A template that does not compile is reported, under its own issue or another one. -/
theorem exists_reported_template {e : EvaluationError} (hcompile : config.template? = .error e) :
    ∃ listed ∈ config.reported, listed.group = "sink" ∧ listed.setting = "table_name_template" := by
  by_cases hlisted : ∃ issue ∈ config.issues, issue.setting = "table_name_template"
  · obtain ⟨issue, hissue, hsetting⟩ := hlisted
    exact ⟨issue, mem_reported hissue, group_of_setting hissue hsetting, hsetting⟩
  · refine ⟨⟨"sink", "table_name_template", e.message⟩, ?_, rfl, rfl⟩
    rw [reported, hcompile]
    apply List.mem_append_right
    dsimp only
    rw [if_neg hlisted]
    exact List.mem_cons_self

/-- Every fault has an issue under its group and setting, save that where no connections are
allowed nothing is said of the idle ones. -/
theorem Fault.exists_reported (hfault : config.Fault issue)
    (hallowed : issue.setting = "min_idle" → config.connection.maxConnections ≠ 0) :
    ∃ listed ∈ config.reported, listed.group = issue.group ∧ listed.setting = issue.setting := by
  have hlisted (hissue : issue ∈ config.issues) :
      ∃ listed ∈ config.reported, listed.group = issue.group ∧ listed.setting = issue.setting :=
    ⟨issue, mem_reported hissue, rfl, rfl⟩
  cases hfault with
  | blankTemplate h => exact hlisted (mem_issues.mpr (by simp [h]))
  | malformedTemplate h => exact exists_reported_template h
  | noParameters h => exact hlisted (mem_issues.mpr (by simp [h]))
  | noStatements h => exact hlisted (mem_issues.mpr (by simp [h]))
  | mappings h =>
      obtain ⟨listed, hmem⟩ := h.exists_mem
      obtain ⟨hgroup, hsetting⟩ := (SinkConfig.MappingFault.of_mem hmem).key
      refine ⟨listed, mem_reported (mem_issues.mpr ?_), ?_, ?_⟩
      · exact .inr (.inr (.inr (.inl hmem)))
      · rw [hgroup, h.key.1]
      · rw [hsetting, h.key.2]
  | blankConnection h => exact hlisted (mem_issues.mpr (by simp [h]))
  | noConnections h => exact hlisted (mem_issues.mpr (by simp [h]))
  | idleConnections h =>
      have hsome : 0 < config.connection.maxConnections :=
        UInt64.pos_iff_ne_zero.mpr (hallowed rfl)
      exact hlisted (mem_issues.mpr (by simp [h, hsome]))

/-- Nothing is wrong with a faultless configuration. -/
theorem Faultless.not_fault (hfaultless : config.Faultless) : ¬ config.Fault issue := by
  intro hfault
  cases hfault with
  | blankTemplate h => exact absurd hfaultless.template (by simp [h])
  | malformedTemplate h =>
      obtain ⟨template, hok⟩ := hfaultless.compiles
      exact nomatch hok.symm.trans h
  | noParameters h => exact hfaultless.parameters h
  | noStatements h => exact hfaultless.statements h
  | mappings h =>
      obtain ⟨listed, hmem⟩ := h.exists_mem
      rw [SinkConfig.mappingIssues_eq_nil_iff.mpr
        ⟨hfaultless.mappings, hfaultless.columns, by simp⟩] at hmem
      exact absurd hmem List.not_mem_nil
  | blankConnection h => exact absurd hfaultless.connectionString (by simp [h])
  | noConnections h => exact absurd hfaultless.maxConnections (by simp [h])
  | idleConnections h => exact absurd hfaultless.minIdle (UInt64.not_le.mpr h)

/-- A configuration of which nothing is reported is faultless. -/
theorem faultless_of_reported (hnone : config.reported = []) : config.Faultless := by
  have hwaived {issue : ConfigIssue} (hfault : config.Fault issue) :
      issue.setting = "min_idle" ∧ config.connection.maxConnections = 0 := by
    by_contra hallowed
    obtain ⟨listed, hlisted, -⟩ := hfault.exists_reported (not_and.mp hallowed)
    rw [hnone] at hlisted
    exact absurd hlisted List.not_mem_nil
  have hmappings : SinkConfig.mappingIssues config.sink.caseSensitive []
      config.sink.fieldMappings = [] := by
    by_contra hsome
    obtain ⟨issue, hissue⟩ := List.exists_mem_of_ne_nil _ hsome
    have hfault := SinkConfig.MappingFault.of_mem hissue
    have hsetting := hfault.key.2.symm.trans (hwaived (.mappings hfault)).1
    exact absurd hsetting (by decide)
  obtain ⟨husable, hcolumns, -⟩ := SinkConfig.mappingIssues_eq_nil_iff.mp hmappings
  have hconnections : config.connection.maxConnections ≠ 0 :=
    fun h => absurd (hwaived (.noConnections h)).1 (by decide)
  exact {
    template := Bool.eq_false_iff.mpr fun h => absurd (hwaived (.blankTemplate h)).1 (by decide)
    compiles := by
      cases hcompile : config.template? with
      | ok template => exact ⟨template, rfl⟩
      | error e =>
          have hsetting := (hwaived (.malformedTemplate hcompile)).1
          exact absurd hsetting (of_decide_eq_true rfl : "table_name_template" ≠ "min_idle")
    parameters := fun h => absurd (hwaived (.noParameters h)).1 (by decide)
    statements := fun h => absurd (hwaived (.noStatements h)).1 (by decide)
    mappings := husable
    columns := hcolumns
    connectionString :=
      Bool.eq_false_iff.mpr fun h => absurd (hwaived (.blankConnection h)).1 (by decide)
    maxConnections := UInt64.le_iff_toNat_le.mpr
      (Nat.one_le_iff_ne_zero.mpr fun h => hconnections (UInt64.toNat_inj.mp h))
    minIdle := UInt64.not_lt.mp fun h => hconnections (hwaived (.idleConnections h)).2 }

/-- A configuration is faultless or has a fault. -/
theorem not_faultless_iff : ¬ config.Faultless ↔ ∃ issue, config.Fault issue := by
  constructor
  · intro hfaulty
    obtain ⟨issue, hissue⟩ := List.exists_mem_of_ne_nil _ (mt faultless_of_reported hfaulty)
    exact ⟨issue, .of_mem_reported hissue⟩
  · rintro ⟨issue, hfault⟩ hfaultless
    exact hfaultless.not_fault hfault

end Config

namespace Sink

open Config

variable {config : Config}

/-- A configuration is checked by its faults. -/
theorem checkConfig_of_faultless (hfaultless : config.Faultless) :
    ∃ template, checkConfig config = .ok template := by
  obtain ⟨template, hcompile⟩ := hfaultless.compiles
  have hissues : config.issues = [] := by
    rw [List.eq_nil_iff_forall_not_mem]
    exact fun issue hissue => hfaultless.not_fault (.of_mem_issues hissue)
  refine ⟨template, ?_⟩
  rw [template?] at hcompile
  rw [checkConfig, hcompile, hissues]
  rfl

theorem checkConfig_of_faulty (hfaulty : ¬ config.Faultless) :
    checkConfig config = .error config.reported := by
  have hreported : config.reported ≠ [] := mt faultless_of_reported hfaulty
  rw [reported, template?] at hreported ⊢
  rw [checkConfig]
  cases hcompile : Template.compile config.sink.tableNameTemplate config.sink.caseSensitive with
  | ok template =>
      rw [hcompile, List.append_nil] at hreported
      dsimp only
      rw [if_neg (by rwa [List.isEmpty_iff]), List.append_nil]
  | error e =>
      simp only [List.any_eq_true, beq_iff_eq]
      split
      · rw [List.append_nil]
      · rfl

end Sink

end TableRouting
