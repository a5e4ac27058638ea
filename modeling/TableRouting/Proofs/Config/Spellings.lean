import TableRouting.Proofs.Config.Fields

/-!
# Spellings of a configuration

A configuration can be spelled in many ways.  Each structure in it is an object or an array,
an object may have other keys besides, and what has its default may be left out.  All of
these are read as the same configuration, and the encoding is one of them.  What has no
default cannot be left out.
-/

namespace TableRouting

open Config

/-! ## What may be given -/

def FieldMapping.forms (mapping : FieldMapping) : List FieldForm :=
  let plain : FieldMapping := { field := mapping.field, column := mapping.column }
  [.exactly "field" (.str mapping.field) False,
    .exactly "column" (.str mapping.column) False,
    .exactly "param_value" (.str mapping.paramValue) (mapping.paramValue = plain.paramValue)]

def FieldMapping.Spelled (mapping : FieldMapping) (value : Json) : Prop :=
  SpellsFields mapping.forms value

def SinkConfig.forms (config : SinkConfig) : List FieldForm :=
  let plain : SinkConfig := { tableNameTemplate := config.tableNameTemplate }
  [.exactly "schema" (.str config.schema) (config.schema = plain.schema),
    .exactly "table_name_template" (.str config.tableNameTemplate) False,
    { name := "field_mappings"
      spells := fun value => ∃ items, value = .arr items ∧
        List.Forall₂ FieldMapping.Spelled config.fieldMappings items
      omissible := config.fieldMappings = plain.fieldMappings },
    .exactly "case_sensitive" (.bool config.caseSensitive)
      (config.caseSensitive = plain.caseSensitive),
    .exactly "rollback_on_error" (.bool config.rollbackOnError)
      (config.rollbackOnError = plain.rollbackOnError),
    .exactly "use_multi_row_op" (.bool config.useMultiRowOp)
      (config.useMultiRowOp = plain.useMultiRowOp),
    .exactly "max_prepared_statement_parameters"
      (optionJson wordJson config.maxStatementParameters)
      (config.maxStatementParameters = plain.maxStatementParameters),
    .exactly "max_prepared_statement_cache" (optionJson wordJson config.maxStatementCache)
      (config.maxStatementCache = plain.maxStatementCache),
    .exactly "change_log_format" (.str config.changeLogFormat.label)
      (config.changeLogFormat = plain.changeLogFormat),
    .exactly "default_operation" (.str config.defaultOperation.label)
      (config.defaultOperation = plain.defaultOperation),
    .exactly "unsupported_action" (.str config.unsupportedAction.label)
      (config.unsupportedAction = plain.unsupportedAction),
    .exactly "on_record_error" (.str config.onRecordError.label)
      (config.onRecordError = plain.onRecordError)]

def SinkConfig.Spelled (config : SinkConfig) (value : Json) : Prop :=
  SpellsFields config.forms value

def ConnectionConfig.forms (config : ConnectionConfig) : List FieldForm :=
  let plain : ConnectionConfig := { connectionString := config.connectionString }
  [.exactly "connection_string" (.str config.connectionString) False,
    .exactly "username" (optionJson .str config.username) (config.username = plain.username),
    .exactly "password" (optionJson .str config.password) (config.password = plain.password),
    .exactly "max_connections" (wordJson config.maxConnections)
      (config.maxConnections = plain.maxConnections),
    .exactly "min_idle" (wordJson config.minIdle) (config.minIdle = plain.minIdle),
    .exactly "connection_timeout_ms" (wordJson config.connectionTimeoutMs)
      (config.connectionTimeoutMs = plain.connectionTimeoutMs),
    .exactly "idle_timeout_ms" (wordJson config.idleTimeoutMs)
      (config.idleTimeoutMs = plain.idleTimeoutMs),
    .exactly "max_lifetime_ms" (wordJson config.maxLifetimeMs)
      (config.maxLifetimeMs = plain.maxLifetimeMs)]

def ConnectionConfig.Spelled (config : ConnectionConfig) (value : Json) : Prop :=
  SpellsFields config.forms value

def MonitoringConfig.forms (config : MonitoringConfig) : List FieldForm :=
  let plain : MonitoringConfig := {}
  [.exactly "log_level" (.str config.logLevel.filter) (config.logLevel = plain.logLevel),
    .exactly "log_format" (.str config.logFormat.label) (config.logFormat = plain.logFormat)]

def MonitoringConfig.Spelled (config : MonitoringConfig) (value : Json) : Prop :=
  SpellsFields config.forms value

namespace Config

def forms (config : Config) : List FieldForm :=
  [⟨"sink", config.sink.Spelled, False⟩, ⟨"connection", config.connection.Spelled, False⟩,
    ⟨"monitoring", config.monitoring.Spelled, config.monitoring = {}⟩]

def Spelled (config : Config) (value : Json) : Prop := SpellsFields config.forms value

end Config

/-! ## Reading -/

variable {reading : Reading} {value : Json}

theorem spells_exactly {α : Type} {decode : Json → Option α} {content : α} {name : String}
    {omissible : Prop} (hdecode : decode value = some content) :
    ∀ given, (FieldForm.exactly name value omissible).spells given →
      decode given = some content := by
  rintro _ rfl
  exact hdecode

/-- A member of an enumeration is told by its name. -/
theorem variant?_label {α : Type} {label : α → String} {members : List α} {member : α}
    (hlabels : (members.map label).Nodup) (hmember : member ∈ members) :
    variant? reading (byLabel label members) (.str (label member)) = some member := by
  rw [variant?, byLabel]
  induction members with
  | nil => exact nomatch hmember
  | cons first rest ih =>
      obtain ⟨hfresh, hrest⟩ := List.nodup_cons.mp hlabels
      rcases List.mem_cons.mp hmember with rfl | hlater
      · exact List.find?_cons_of_pos (by simp)
      · have hne : label first ≠ label member := fun hsame =>
          hfresh (hsame ▸ List.mem_map_of_mem hlater)
        rw [List.find?_cons_of_neg (by simpa using hne)]
        exact ih hrest hlater

theorem word?_wordJson (n : UInt64) : word? (wordJson n) = some n :=
  Json.Number.toUInt64?_ofUInt64 n

theorem nullable_optionJson_word (n : Option UInt64) :
    nullable word? (optionJson wordJson n) = some n := by
  cases n with
  | none => rfl
  | some n => exact congrArg (Option.map some) (word?_wordJson n)

theorem nullable_optionJson_str (s : Option String) :
    nullable Json.string? (optionJson .str s) = some s := by
  cases s <;> rfl

/-- However a mapping is spelled, it is read. -/
theorem FieldMapping.fieldMapping?_eq {mapping : FieldMapping} (hspelled : mapping.Spelled value) :
    fieldMapping? reading value = some mapping := by
  obtain ⟨given, hgiven, hfits⟩ := hspelled.exists_given reading
  have hfield : given.required 0 "field" Json.string? = some mapping.field :=
    (hfits 0 _ rfl).required id (spells_exactly rfl)
  have hcolumn : given.required 1 "column" Json.string? = some mapping.column :=
    (hfits 1 _ rfl).required id (spells_exactly rfl)
  have hparam : given.optional 2 "param_value" Json.string? "?" = some mapping.paramValue :=
    (hfits 2 _ rfl).optional (spells_exactly rfl) id
  change given? reading 3 value = some given at hgiven
  simp only [fieldMapping?, hgiven, hfield, hcolumn, hparam, Option.bind_eq_bind, Option.bind_some]
  rfl

theorem fieldMappings?_eq {mappings : List FieldMapping}
    (hspelled : ∃ items, value = .arr items ∧ List.Forall₂ FieldMapping.Spelled mappings items) :
    fieldMappings? reading value = some mappings := by
  obtain ⟨items, rfl, hitems⟩ := hspelled
  exact mapM_eq_some (fun _ _ hitem => FieldMapping.fieldMapping?_eq hitem) hitems

/-- However a sink configuration is spelled, it is read. -/
theorem SinkConfig.sink?_eq {config : SinkConfig} (hspelled : config.Spelled value) :
    sink? reading value = some config := by
  obtain ⟨given, hgiven, hfits⟩ := hspelled.exists_given reading
  -- One fact for each field, in the order of the declaration.
  have hschema : given.optional 0 "schema" Json.string? "" = some config.schema :=
    (hfits 0 _ rfl).optional (spells_exactly rfl) id
  have htemplate : given.required 1 "table_name_template" Json.string? =
      some config.tableNameTemplate :=
    (hfits 1 _ rfl).required id (spells_exactly rfl)
  have hmappings : given.optional 2 "field_mappings" (fieldMappings? reading) [] =
      some config.fieldMappings :=
    (hfits 2 _ rfl).optional (fun _ hvalue => fieldMappings?_eq hvalue) id
  have hcase : given.optional 3 "case_sensitive" Json.bool? false = some config.caseSensitive :=
    (hfits 3 _ rfl).optional (spells_exactly rfl) id
  have hrollback : given.optional 4 "rollback_on_error" Json.bool? true =
      some config.rollbackOnError :=
    (hfits 4 _ rfl).optional (spells_exactly rfl) id
  have hmultiRow : given.optional 5 "use_multi_row_op" Json.bool? false =
      some config.useMultiRowOp :=
    (hfits 5 _ rfl).optional (spells_exactly rfl) id
  have hparameters : given.optional 6 "max_prepared_statement_parameters" (nullable word?) none =
      some config.maxStatementParameters :=
    (hfits 6 _ rfl).optional (spells_exactly (nullable_optionJson_word _)) id
  have hcache : given.optional 7 "max_prepared_statement_cache" (nullable word?) none =
      some config.maxStatementCache :=
    (hfits 7 _ rfl).optional (spells_exactly (nullable_optionJson_word _)) id
  have hformat : given.optional 8 "change_log_format" (changeLogFormat? reading) .none =
      some config.changeLogFormat :=
    (hfits 8 _ rfl).optional
      (spells_exactly (variant?_label (by decide) (by cases config.changeLogFormat <;> decide))) id
  have hoperation : given.optional 9 "default_operation" (operation? reading) .insert =
      some config.defaultOperation :=
    (hfits 9 _ rfl).optional
      (spells_exactly (variant?_label (by decide) (by cases config.defaultOperation <;> decide))) id
  have hunsupported : given.optional 10 "unsupported_action" (unsupportedAction? reading)
      .sendToError = some config.unsupportedAction :=
    (hfits 10 _ rfl).optional
      (spells_exactly (variant?_label (by decide) (by cases config.unsupportedAction <;> decide)))
      id
  have hpolicy : given.optional 11 "on_record_error" (onRecordError? reading) .toError =
      some config.onRecordError :=
    (hfits 11 _ rfl).optional
      (spells_exactly (variant?_label (by decide) (by cases config.onRecordError <;> decide))) id
  change given? reading 12 value = some given at hgiven
  simp only [sink?, hgiven, hschema, htemplate, hmappings, hcase, hrollback, hmultiRow,
    hparameters, hcache, hformat, hoperation, hunsupported, hpolicy, Option.bind_eq_bind,
    Option.bind_some]
  rfl

/-- However a connection configuration is spelled, it is read. -/
theorem ConnectionConfig.connection?_eq {config : ConnectionConfig}
    (hspelled : config.Spelled value) : connection? reading value = some config := by
  obtain ⟨given, hgiven, hfits⟩ := hspelled.exists_given reading
  have hstring : given.required 0 "connection_string" Json.string? =
      some config.connectionString :=
    (hfits 0 _ rfl).required id (spells_exactly rfl)
  have husername : given.optional 1 "username" (nullable Json.string?) none =
      some config.username :=
    (hfits 1 _ rfl).optional (spells_exactly (nullable_optionJson_str _)) id
  have hpassword : given.optional 2 "password" (nullable Json.string?) none =
      some config.password :=
    (hfits 2 _ rfl).optional (spells_exactly (nullable_optionJson_str _)) id
  have hmaximum : given.optional 3 "max_connections" word? 10 = some config.maxConnections :=
    (hfits 3 _ rfl).optional (spells_exactly (word?_wordJson _)) id
  have hidle : given.optional 4 "min_idle" word? 1 = some config.minIdle :=
    (hfits 4 _ rfl).optional (spells_exactly (word?_wordJson _)) id
  have hconnectionTimeout : given.optional 5 "connection_timeout_ms" word? 30000 =
      some config.connectionTimeoutMs :=
    (hfits 5 _ rfl).optional (spells_exactly (word?_wordJson _)) id
  have hidleTimeout : given.optional 6 "idle_timeout_ms" word? 600000 =
      some config.idleTimeoutMs :=
    (hfits 6 _ rfl).optional (spells_exactly (word?_wordJson _)) id
  have hlifetime : given.optional 7 "max_lifetime_ms" word? 1800000 =
      some config.maxLifetimeMs :=
    (hfits 7 _ rfl).optional (spells_exactly (word?_wordJson _)) id
  change given? reading 8 value = some given at hgiven
  simp only [connection?, hgiven, hstring, husername, hpassword, hmaximum, hidle,
    hconnectionTimeout, hidleTimeout, hlifetime, Option.bind_eq_bind, Option.bind_some]
  rfl

/-- However a monitoring configuration is spelled, it is read. -/
theorem MonitoringConfig.monitoring?_eq {config : MonitoringConfig}
    (hspelled : config.Spelled value) : monitoring? reading value = some config := by
  obtain ⟨given, hgiven, hfits⟩ := hspelled.exists_given reading
  have hlevel : given.optional 0 "log_level" (logLevel? reading) .info = some config.logLevel :=
    (hfits 0 _ rfl).optional
      (spells_exactly (variant?_label (by decide) (by cases config.logLevel <;> decide))) id
  have hformat : given.optional 1 "log_format" (logFormat? reading) .json =
      some config.logFormat :=
    (hfits 1 _ rfl).optional
      (spells_exactly (variant?_label (by decide) (by cases config.logFormat <;> decide))) id
  change given? reading 2 value = some given at hgiven
  simp only [monitoring?, hgiven, hlevel, hformat, Option.bind_eq_bind, Option.bind_some]
  rfl

/-- However a configuration is spelled, it is read. -/
theorem Config.ofValue?_eq {config : Config} (hspelled : config.Spelled value) :
    ofValue? reading value = some config := by
  obtain ⟨given, hgiven, hfits⟩ := hspelled.exists_given reading
  have hsink : given.required 0 "sink" (sink? reading) = some config.sink :=
    (hfits 0 _ rfl).required id fun _ hvalue => SinkConfig.sink?_eq hvalue
  have hconnection : given.required 1 "connection" (connection? reading) =
      some config.connection :=
    (hfits 1 _ rfl).required id fun _ hvalue => ConnectionConfig.connection?_eq hvalue
  have hmonitoring : given.optional 2 "monitoring" (monitoring? reading) {} =
      some config.monitoring :=
    (hfits 2 _ rfl).optional (fun _ hvalue => MonitoringConfig.monitoring?_eq hvalue) id
  change given? reading 3 value = some given at hgiven
  simp only [ofValue?, hgiven, hsink, hconnection, hmonitoring, Option.bind_eq_bind,
    Option.bind_some]
  rfl

/-! ## Writing -/

variable {depth : Nat}

theorem encodes_exactly {name : String} {omissible : Prop} (hreadable : Json.Readable depth value) :
    Encodes depth (FieldForm.exactly name value omissible).spells value :=
  encodes_readable hreadable

theorem readable_wordJson (depth : Nat) (n : UInt64) : Json.Readable depth (wordJson n) := by
  refine .integer depth ⟨by omega, ?_⟩
  have hbound := n.toNat_lt
  omega

theorem readable_optionJson {α : Type} {encode : α → Json}
    (hreadable : ∀ content, Json.Readable depth (encode content)) (content : Option α) :
    Json.Readable depth (optionJson encode content) := by
  cases content with
  | none => exact .null depth
  | some content => exact hreadable content

theorem FieldMapping.encodes (mapping : FieldMapping) :
    Encodes 1 mapping.Spelled mapping.toJson := by
  apply Encodes.obj
  · exact .cons ⟨rfl, encodes_exactly (.str 0 _)⟩ <|
      .cons ⟨rfl, encodes_exactly (.str 0 _)⟩ <|
      .cons ⟨rfl, encodes_exactly (.str 0 _)⟩ .nil
  · simp [forms, FieldForm.exactly]

theorem SinkConfig.encodes (config : SinkConfig) : Encodes 3 config.Spelled config.toJson := by
  apply Encodes.obj
  · exact .cons ⟨rfl, encodes_exactly (.str 2 _)⟩ <|
      .cons ⟨rfl, encodes_exactly (.str 2 _)⟩ <|
      .cons ⟨rfl, .arr fun mapping _ => mapping.encodes⟩ <|
      .cons ⟨rfl, encodes_exactly (.bool 2 _)⟩ <|
      .cons ⟨rfl, encodes_exactly (.bool 2 _)⟩ <|
      .cons ⟨rfl, encodes_exactly (.bool 2 _)⟩ <|
      .cons ⟨rfl, encodes_exactly (readable_optionJson (readable_wordJson 2) _)⟩ <|
      .cons ⟨rfl, encodes_exactly (readable_optionJson (readable_wordJson 2) _)⟩ <|
      .cons ⟨rfl, encodes_exactly (.str 2 _)⟩ <|
      .cons ⟨rfl, encodes_exactly (.str 2 _)⟩ <|
      .cons ⟨rfl, encodes_exactly (.str 2 _)⟩ <|
      .cons ⟨rfl, encodes_exactly (.str 2 _)⟩ .nil
  · simp [forms, FieldForm.exactly]

theorem ConnectionConfig.encodes (config : ConnectionConfig) :
    Encodes 3 config.Spelled config.toJson := by
  apply Encodes.obj
  · exact .cons ⟨rfl, encodes_exactly (.str 2 _)⟩ <|
      .cons ⟨rfl, encodes_exactly (readable_optionJson (.str 2) _)⟩ <|
      .cons ⟨rfl, encodes_exactly (readable_optionJson (.str 2) _)⟩ <|
      .cons ⟨rfl, encodes_exactly (readable_wordJson 2 _)⟩ <|
      .cons ⟨rfl, encodes_exactly (readable_wordJson 2 _)⟩ <|
      .cons ⟨rfl, encodes_exactly (readable_wordJson 2 _)⟩ <|
      .cons ⟨rfl, encodes_exactly (readable_wordJson 2 _)⟩ <|
      .cons ⟨rfl, encodes_exactly (readable_wordJson 2 _)⟩ .nil
  · simp [forms, FieldForm.exactly]

theorem MonitoringConfig.encodes (config : MonitoringConfig) :
    Encodes 3 config.Spelled config.toJson := by
  apply Encodes.obj
  · exact .cons ⟨rfl, encodes_exactly (.str 2 _)⟩ <|
      .cons ⟨rfl, encodes_exactly (.str 2 _)⟩ .nil
  · simp [forms, FieldForm.exactly]

namespace Config

/-- A configuration is spelled by its encoding, and by what the text of this is read as. -/
theorem encodes (config : Config) : Encodes 4 config.Spelled config.toJson := by
  apply Encodes.obj
  · exact .cons ⟨rfl, config.sink.encodes⟩ <|
      .cons ⟨rfl, config.connection.encodes⟩ <|
      .cons ⟨rfl, config.monitoring.encodes⟩ .nil
  · simp [forms]

/-! ## What cannot be left out -/

/-- A value lacks a field that has no default: one of a configuration or of a structure in
it. -/
inductive Incomplete : Json → Prop
  | sink {value : Json} (hmissing : fieldOf? 0 "sink" value = none) : Incomplete value
  | connection {value : Json} (hmissing : fieldOf? 1 "connection" value = none) :
      Incomplete value
  | tableNameTemplate {value sink : Json} (hsink : fieldOf? 0 "sink" value = some sink)
      (hmissing : fieldOf? 1 "table_name_template" sink = none) : Incomplete value
  | connectionString {value connection : Json}
      (hconnection : fieldOf? 1 "connection" value = some connection)
      (hmissing : fieldOf? 0 "connection_string" connection = none) : Incomplete value
  | field {value sink mapping : Json} {mappings : List Json}
      (hsink : fieldOf? 0 "sink" value = some sink)
      (hmappings : fieldOf? 2 "field_mappings" sink = some (.arr mappings))
      (hmapping : mapping ∈ mappings) (hmissing : fieldOf? 0 "field" mapping = none) :
      Incomplete value
  | column {value sink mapping : Json} {mappings : List Json}
      (hsink : fieldOf? 0 "sink" value = some sink)
      (hmappings : fieldOf? 2 "field_mappings" sink = some (.arr mappings))
      (hmapping : mapping ∈ mappings) (hmissing : fieldOf? 1 "column" mapping = none) :
      Incomplete value

theorem fieldMapping?_eq_none
    (hmissing : fieldOf? 0 "field" value = none ∨ fieldOf? 1 "column" value = none) :
    fieldMapping? reading value = none := by
  apply given?_bind_eq_none
  intro given hgiven
  rcases hmissing with hfield | hcolumn
  · rw [required_of_fieldOf? hgiven hfield]
    rfl
  · simp only [Option.bind_eq_bind, required_of_fieldOf? hgiven hcolumn, Option.bind_none,
      Option.bind_fun_none]

theorem sink?_eq_none (hmissing : fieldOf? 1 "table_name_template" value = none) :
    sink? reading value = none := by
  apply given?_bind_eq_none
  intro given hgiven
  simp only [Option.bind_eq_bind, required_of_fieldOf? hgiven hmissing, Option.bind_none,
    Option.bind_fun_none]

/-- A mapping that is not read is enough for a sink not to be read. -/
theorem sink?_eq_none_of_mapping {mappings : List Json} {mapping : Json}
    (hmappings : fieldOf? 2 "field_mappings" value = some (.arr mappings))
    (hmapping : mapping ∈ mappings) (hnone : fieldMapping? reading mapping = none) :
    sink? reading value = none := by
  apply given?_bind_eq_none
  intro given hgiven
  have hread : given.optional 2 "field_mappings" (fieldMappings? reading) [] = none := by
    rw [Given.optional, field?_of_given? hgiven, hmappings]
    exact mapM_eq_none hmapping hnone
  simp only [Option.bind_eq_bind, hread, Option.bind_none, Option.bind_fun_none]

theorem connection?_eq_none (hmissing : fieldOf? 0 "connection_string" value = none) :
    connection? reading value = none := by
  apply given?_bind_eq_none
  intro given hgiven
  rw [required_of_fieldOf? hgiven hmissing]
  rfl

theorem ofValue?_eq_none_of_sink
    (hnone : ∀ sink, fieldOf? 0 "sink" value = some sink → sink? reading sink = none) :
    ofValue? reading value = none := by
  apply given?_bind_eq_none
  intro given hgiven
  have hread : given.required 0 "sink" (sink? reading) = none := by
    rw [Given.required, field?_of_given? hgiven]
    exact Option.bind_eq_none_iff.mpr hnone
  rw [hread]
  rfl

theorem ofValue?_eq_none_of_connection
    (hnone : ∀ connection, fieldOf? 1 "connection" value = some connection →
      connection? reading connection = none) : ofValue? reading value = none := by
  apply given?_bind_eq_none
  intro given hgiven
  have hread : given.required 1 "connection" (connection? reading) = none := by
    rw [Given.required, field?_of_given? hgiven]
    exact Option.bind_eq_none_iff.mpr hnone
  simp only [Option.bind_eq_bind, hread, Option.bind_none, Option.bind_fun_none]

/-- A value that lacks a field without a default is no configuration. -/
theorem Incomplete.ofValue?_eq_none (hincomplete : Incomplete value) :
    ofValue? reading value = none := by
  have hsame {found given : Json} {field : Option Json} (hfound : field = some found)
      (hgiven : field = some given) : given = found :=
    Option.some.inj (hgiven.symm.trans hfound)
  cases hincomplete with
  | sink hmissing =>
      exact ofValue?_eq_none_of_sink fun _ hgiven => nomatch hmissing.symm.trans hgiven
  | connection hmissing =>
      exact ofValue?_eq_none_of_connection fun _ hgiven => nomatch hmissing.symm.trans hgiven
  | tableNameTemplate hsink hmissing =>
      apply ofValue?_eq_none_of_sink
      intro given hgiven
      exact hsame hsink hgiven ▸ sink?_eq_none hmissing
  | connectionString hconnection hmissing =>
      apply ofValue?_eq_none_of_connection
      intro given hgiven
      exact hsame hconnection hgiven ▸ connection?_eq_none hmissing
  | field hsink hmappings hmapping hmissing =>
      apply ofValue?_eq_none_of_sink
      intro given hgiven
      exact hsame hsink hgiven ▸
        sink?_eq_none_of_mapping hmappings hmapping (fieldMapping?_eq_none (.inl hmissing))
  | column hsink hmappings hmapping hmissing =>
      apply ofValue?_eq_none_of_sink
      intro given hgiven
      exact hsame hsink hgiven ▸
        sink?_eq_none_of_mapping hmappings hmapping (fieldMapping?_eq_none (.inr hmissing))

/-! ## Both ways -/

/-- A configuration is got back from every spelling of it, from its encoding as a value and
from its encoding as a text. -/
structure Survives (config : Config) : Prop where
  decodes : ∀ value, config.Spelled value → ofJson? value = some config
  spelled : config.Spelled config.toJson
  text : (Json.parse? config.toJson.render).bind ofJson? = some config

/-- Configurations survive being encoded, and nothing without a default may be left out. -/
theorem survives_encoding (config : Config) :
    config.Survives ∧ ∀ value, Incomplete value → ofJson? value = none := by
  refine ⟨⟨fun value => ofValue?_eq, config.encodes.spelled, ?_⟩,
    fun value hincomplete => hincomplete.ofValue?_eq_none⟩
  obtain ⟨value, hreads, hspelled⟩ := config.encodes.read
  rw [Json.render, hreads.parse? (by decide), Option.bind_some]
  exact ofValue?_eq hspelled

/-- A mapping and a connection are given by position, the sink by name and beside a key that
means nothing. -/
example : ofJson? (.obj [
    ("connection", .arr [.str "out"]),
    ("note", .null),
    ("sink", .obj [("field_mappings", .arr [.arr [.str "id", .str "ID"]]),
      ("table_name_template", .str "t")])]) =
    some {
      sink := { tableNameTemplate := "t", fieldMappings := [{ field := "id", column := "ID" }] }
      connection := { connectionString := "out" } } := by
  decide

end Config

end TableRouting
