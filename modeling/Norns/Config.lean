import Norns.Lib.Table
import Norns.Types

/-! # The configuration of the daemon

`settings::load_from_file` (`config/settings.cpp`) with the visitors of `yaml-parser.hpp`, the
schema of `config-schema.hpp` and the converters of `parsers.cpp`.  A document is the tree of nodes
that the YAML library makes of it.

The document is checked while it is read: a group of options against its mandatory options, a list
of groups only against the names of the options.  Then the fields of the settings are assigned one
after the other, and each assignment looks its option up and may throw.

* `loadFromFile_eq`: what a call leaves in the settings, for every document.
* `load_atomic_iff`: when it does all or nothing.

What the library and the file system supply is in `ConfigEnv`. -/

namespace Norns

open Lib

/-! ### Documents -/

/-- The nodes of a YAML document. -/
inductive YamlNode where
  | null
  | scalar (text : String)
  | sequence (items : List YamlNode)
  | map (pairs : List (YamlNode × YamlNode))

/-- The exceptions that leave `load_from_file`: `std::invalid_argument`, those of the YAML library,
`boost::bad_any_cast` and `bfs::filesystem_error`. -/
inductive ConfigException where
  | invalidArgument (what : String)
  | invalidNode
  | badConversion
  | badSubscript
  | badAnyCast
  | filesystemError (ec : ErrorCode)
deriving DecidableEq, Repr

/-- What is outside of the configuration code. -/
structure ConfigEnv where
  /-- `bfs::exists`. -/
  pathExists : String → Except ErrorCode Bool
  /-- `utils::parse_size`, which computes with doubles. -/
  parseSize : String → Option UInt64
  /-- the text of a node without a value, for which older versions of the library throw. -/
  nullText : Option String

/-- `node.as<std::string>()`. -/
def YamlNode.asString (env : ConfigEnv) : YamlNode → Except ConfigException String
  | scalar text => .ok text
  | null =>
      match env.nullText with
      | some text => .ok text
      | none => .error .badConversion
  | _ => .error .badConversion

/-- `config[name]` of a constant node. -/
def YamlNode.get (name : String) : YamlNode → Except ConfigException (Option YamlNode)
  | null => .ok none
  | scalar _ => .error .badSubscript
  | sequence _ => .ok none
  | map pairs => .ok <| pairs.findSome? fun
      | (scalar key, value) => if key = name then some value else none
      | _ => none

/-- `for(const auto& entry : node)`, with the entries as nodes: the entries of a map are pairs, and
as nodes they are invalid. -/
def YamlNode.entries : YamlNode → List (Option YamlNode)
  | sequence items => items.map some
  | map pairs => pairs.map fun _ => none
  | _ => []

/-- `for(const auto& kv : node)`, with the entries as pairs. -/
def YamlNode.pairs : YamlNode → List (Option (YamlNode × YamlNode))
  | sequence items => items.map fun _ => none
  | map pairs => pairs.map some
  | _ => []

/-- The pairs in the entries of a node. -/
def YamlNode.entryPairs (node : YamlNode) : List (Option (YamlNode × YamlNode)) :=
  node.entries.flatMap fun
    | some entry => entry.pairs
    | none => []

/-- The pairs in the entries of an entry of a list. -/
def listEntryPairs : Option YamlNode → List (Option (YamlNode × YamlNode))
  | some entry => entry.entryPairs
  | none => []

/-! ### Converters -/

namespace ConfigDefaults

/-! The values of `config/defaults.cpp`, which the build writes, as far as `load_from_file` uses
them. -/

def progname : String := "urd"
def useConsole : Bool := false
def dryRun : Bool := false
def dryRunDuration : UInt32 := 100
def backlogSize : UInt32 := 128

end ConfigDefaults

/-- `boost::any`, with the types that the schema declares. -/
inductive OptionValue where
  | bool (b : Bool)
  | path (p : String)
  | string (s : String)
  | uint32 (n : UInt32)
  | uint64 (n : UInt64)
deriving DecidableEq, Repr

/-- `boost::algorithm::to_lower_copy`. -/
def toLowerCopy (s : String) : String := String.ofList (s.toList.map Char.toLower)

/-- `parsers::parse_bool`. -/
def parseBool (name value : String) : Except ConfigException Bool :=
  if value = "1" ∨ toLowerCopy value = "true" then .ok true
  else if value = "0" ∨ toLowerCopy value = "false" then .ok false
  else .error (.invalidArgument ("Value provided for option '" ++ name ++ "' is not boolean"))

/-- `isspace`. -/
def isSpace (c : Char) : Bool := c = ' ' || ('\t' ≤ c && c ≤ '\r')

/-- `std::stoi`: leading blanks and a sign, then digits up to the first other character. -/
def stoi (value : String) : Option ℤ :=
  let text := value.toList.dropWhile isSpace
  let (negative, text) :=
    match text with
    | '-' :: text => (true, text)
    | '+' :: text => (false, text)
    | text => (false, text)
  let digits := text.takeWhile Char.isDigit
  if digits = [] then none
  else
    let n : ℤ := digits.foldl (fun n c => 10 * n + (c.toNat - '0'.toNat : ℕ)) 0
    let n := if negative then -n else n
    if -2 ^ 31 ≤ n ∧ n < 2 ^ 31 then some n else none

/-- `parsers::parse_number`. -/
def parseNumber (name value : String) : Except ConfigException UInt32 :=
  match stoi value with
  | none => .error (.invalidArgument ("Value provided for option '" ++ name ++ "' is not a number"))
  | some n =>
      if n ≤ 0 then
        .error (.invalidArgument
          ("Value provided for option '" ++ name ++ "' must be greater than zero"))
      else .ok (UInt32.ofNat n.toNat)

/-- `parsers::parse_path`. -/
def parsePath (_name value : String) : Except ConfigException String := .ok value

section Environment

variable (env : ConfigEnv)

/-- `parsers::parse_existing_path`. -/
def parseExistingPath (name value : String) : Except ConfigException String :=
  match env.pathExists value with
  | .error ec => .error (.filesystemError ec)
  | .ok true => .ok value
  | .ok false =>
      .error (.invalidArgument ("Path '" ++ value ++ "' in option '" ++ name ++ "' does not exist"))

/-- `parsers::parse_capacity`. -/
def parseCapacity (name value : String) : Except ConfigException UInt64 :=
  match env.parseSize value with
  | some n => .ok n
  | none => .error (.invalidArgument ("Value provided in option '" ++ name ++ "' is invalid"))

/-- `converter<uint32_t>(parsers::parse_capacity)`. -/
def parseCapacity32 (name value : String) : Except ConfigException UInt32 :=
  (parseCapacity env name value).map UInt64.toUInt32

/-! ### The schema -/

/-- `option_schema`. -/
structure OptionSchema where
  mandatory : Bool
  defaultValue : Option OptionValue
  converter : Option (String → String → Except ConfigException OptionValue)

/-- `declare_option` with a converter. -/
def declareOption {α : Type} (mandatory : Bool) (value : α → OptionValue)
    (converter : String → String → Except ConfigException α) : OptionSchema :=
  ⟨mandatory, none, some fun name text => (converter name text).map value⟩

/-- `declare_option<std::string>`. -/
def declareString : OptionSchema := ⟨true, none, none⟩

/-- The value of an option: the text, if there is no converter. -/
def OptionSchema.valueOf (opt : OptionSchema) (name text : String) :
    Except ConfigException OptionValue :=
  match opt.converter with
  | some converter => converter name text
  | none => .ok (.string text)

/-- `group_schema` and `list_schema`, in the order of the map. -/
abbrev GroupSchema := List (String × OptionSchema)

/-- `find` of the schema. -/
def GroupSchema.find (schema : GroupSchema) (name : String) : Option OptionSchema :=
  List.lookup name schema

/-- The options of `global_settings`. -/
def globalSettingsSchema : GroupSchema :=
  [("bind_address", declareString),
    ("control_socket", declareOption true .path parsePath),
    ("dry_run", { declareOption false .bool parseBool with
      defaultValue := some (.bool ConfigDefaults.dryRun) }),
    ("global_socket", declareOption true .path parsePath),
    ("log_file", declareOption false .path parsePath),
    ("log_file_max_size", declareOption false .uint32 (parseCapacity32 env)),
    ("pidfile", declareOption true .path parsePath),
    ("remote_port", declareOption true .uint32 parseNumber),
    ("staging_directory", declareOption true .path parsePath),
    ("use_syslog", declareOption true .bool parseBool),
    ("workers", declareOption true .uint32 parseNumber)]

/-- The options of an entry of `namespaces`. -/
def namespacesSchema : GroupSchema :=
  [("capacity", declareOption true .uint64 (parseCapacity env)),
    ("mountpoint", declareOption true .path (parseExistingPath env)),
    ("nsid", declareString),
    ("track_contents", declareOption true .bool parseBool),
    ("type", declareString),
    ("visibility", declareString)]

/-! ### Reading a document -/

/-- `options_group`. -/
abbrev OptionsGroup := Table String OptionValue

/-- The body of the innermost loop of both visitors; `find` is the lookup in the schema. -/
def readOption (name : String) (find : String → Option OptionSchema) (parsed : OptionsGroup)
    (kv : Option (YamlNode × YamlNode)) : Except ConfigException OptionsGroup := do
  let some (keyNode, valueNode) := kv | throw .invalidNode
  let key ← keyNode.asString env
  let textValue ← valueNode.asString env
  let some opt := find key
    | throw (.invalidArgument ("Invalid argument '" ++ key ++ "' in '" ++ name ++ "'"))
  let value ← opt.valueOf key textValue
  return parsed.emplace key value

/-- `yaml_visitor::operator()(group_schema&)`. -/
def visitGroup (name : String) (schema : GroupSchema) (config : YamlNode) :
    Except ConfigException OptionsGroup := do
  let parsed ← config.entryPairs.foldlM (readOption env name schema.find) ∅
  match schema.find? fun opt => opt.2.mandatory && !decide (opt.1 ∈ parsed) with
  | some opt => throw (.invalidArgument ("Missing mandatory option '" ++ opt.1 ++ "'"))
  | none => return schema.foldl (fun parsed opt =>
      match opt.2.defaultValue with
      | some value => parsed.emplace opt.1 value
      | none => parsed) parsed

/-- `match_any`. -/
def matchAny : String := ".*"

/-- `yaml_visitor::operator()(list_schema&)`. -/
def visitList (name : String) (schema : GroupSchema) (config : YamlNode) :
    Except ConfigException (List OptionsGroup) :=
  config.entries.mapM fun entry =>
    (listEntryPairs entry).foldlM (readOption env name fun key =>
      (schema.find key).or (schema.find matchAny)) ∅

/-- `section_schema`. -/
structure SectionSchema where
  mandatory : Bool
  isList : Bool
  schema : GroupSchema

/-- The values of an `options_map`. -/
inductive SectionValue where
  | group (options : OptionsGroup)
  | list (groups : List OptionsGroup)

/-- `valid_options`, in the order of the map. -/
def validOptions : List (String × SectionSchema) :=
  [("global_settings", ⟨true, false, globalSettingsSchema env⟩),
    ("namespaces", ⟨false, true, namespacesSchema env⟩)]

/-- The visitor for a section. -/
def visitSection (name : String) (schema : SectionSchema) (node : YamlNode) :
    Except ConfigException SectionValue :=
  if schema.isList then (visitList env name schema.schema node).map .list
  else (visitGroup env name schema.schema node).map .group

/-- The body of the loop of `parse_yaml_file`. -/
def parseSection (config : YamlNode) (optMap : Table String SectionValue)
    (opt : String × SectionSchema) : Except ConfigException (Table String SectionValue) :=
  match config.get opt.1 with
  | .error e => .error e
  | .ok none =>
      if opt.2.mandatory then
        .error (.invalidArgument ("Mandatory section '" ++ opt.1 ++ "' is missing"))
      else .ok optMap
  | .ok (some node) => (visitSection env opt.1 opt.2 node).map (optMap.emplace opt.1)

/-- `parse_yaml_file`, after `YAML::LoadFile`. -/
def parseYamlFile (schema : List (String × SectionSchema)) (config : YamlNode) :
    Except ConfigException (Table String SectionValue) :=
  schema.foldlM (parseSection env config) ∅

end Environment

/-! ### Settings -/

/-- `namespace_def`. -/
structure NamespaceDef where
  nsid : String
  track : Bool
  mountpoint : String
  aliasName : String
  capacity : UInt64
  visibility : String
deriving DecidableEq, Repr

/-- `config::settings`. -/
structure Settings where
  progname : String
  daemonize : Bool
  useSyslog : Bool
  useConsole : Bool
  logFile : String
  logFileMaxSize : UInt32
  dryRun : Bool
  dryRunDuration : UInt32
  globalSocket : String
  controlSocket : String
  bindAddress : String
  remotePort : UInt16
  daemonPidfile : String
  workersInPool : UInt32
  stagingDirectory : String
  backlogSize : UInt32
  configFile : String
  defaultNamespaces : List NamespaceDef
deriving DecidableEq, Repr

/-- Methods of `settings`: what has been assigned before an exception stays. -/
abbrev SettingsM := ExceptT ConfigException (StateM Settings)

/-- `any_cast` for the types of the schema. -/
def OptionValue.asBool : OptionValue → Except ConfigException Bool
  | bool b => .ok b
  | _ => .error .badAnyCast

@[inherit_doc OptionValue.asBool]
def OptionValue.asPath : OptionValue → Except ConfigException String
  | path p => .ok p
  | _ => .error .badAnyCast

@[inherit_doc OptionValue.asBool]
def OptionValue.asString : OptionValue → Except ConfigException String
  | string s => .ok s
  | _ => .error .badAnyCast

@[inherit_doc OptionValue.asBool]
def OptionValue.asUInt32 : OptionValue → Except ConfigException UInt32
  | uint32 n => .ok n
  | _ => .error .badAnyCast

@[inherit_doc OptionValue.asBool]
def OptionValue.asUInt64 : OptionValue → Except ConfigException UInt64
  | uint64 n => .ok n
  | _ => .error .badAnyCast

/-- `options_group::get_as`. -/
def getAs {α : Type} (cast : OptionValue → Except ConfigException α) (group : OptionsGroup)
    (name : String) : Except ConfigException α :=
  match group.lookup name with
  | none => .error (.invalidArgument ("option '" ++ name ++ "' missing"))
  | some value => cast value

/-- `options_map::get_as`. -/
def getGroup (optMap : Table String SectionValue) (name : String) :
    Except ConfigException OptionsGroup :=
  match optMap.lookup name with
  | none => .error (.invalidArgument ("option '" ++ name ++ "' missing"))
  | some (.group options) => .ok options
  | some (.list _) => .error .badAnyCast

@[inherit_doc getGroup]
def getList (optMap : Table String SectionValue) (name : String) :
    Except ConfigException (List OptionsGroup) :=
  match optMap.lookup name with
  | none => .error (.invalidArgument ("option '" ++ name ++ "' missing"))
  | some (.list groups) => .ok groups
  | some (.group _) => .error .badAnyCast

/-- The arguments of the constructor of `namespace_def`. -/
def newNamespaceDef (nsdef : OptionsGroup) : Except ConfigException NamespaceDef := do
  return {
    nsid := ← getAs OptionValue.asString nsdef "nsid"
    track := ← getAs OptionValue.asBool nsdef "track_contents"
    mountpoint := ← getAs OptionValue.asPath nsdef "mountpoint"
    aliasName := ← getAs OptionValue.asString nsdef "type"
    capacity := ← getAs OptionValue.asUInt64 nsdef "capacity"
    visibility := ← getAs OptionValue.asString nsdef "visibility" }

/-- The assignment of a value that is computed first. -/
def assign {α : Type} (value : Except ConfigException α) (set : Settings → α → Settings) :
    SettingsM Unit := do
  let a ← liftExcept value
  modify fun s => set s a
where
  liftExcept (value : Except ConfigException α) : SettingsM α := ExceptT.mk (pure value)

/-- The assignment of an option under `if(gsettings.has(name))`. -/
def assignIfHas {α : Type} (group : OptionsGroup) (name : String)
    (cast : OptionValue → Except ConfigException α) (set : Settings → α → Settings) :
    SettingsM Unit :=
  if name ∈ group then assign (getAs cast group name) set else pure ()

/-- The assignments of the global settings. -/
def assignGlobals (gsettings : OptionsGroup) : SettingsM Unit := do
  modify fun s => { s with progname := ConfigDefaults.progname }
  assign (getAs OptionValue.asBool gsettings "use_syslog") fun s b => { s with useSyslog := b }
  modify fun s => { s with useConsole := ConfigDefaults.useConsole }
  assignIfHas gsettings "log_file" OptionValue.asPath fun s p => { s with logFile := p }
  assignIfHas gsettings "log_file_max_size" OptionValue.asUInt32 fun s n =>
    { s with logFileMaxSize := n }
  assign (getAs OptionValue.asBool gsettings "dry_run") fun s b => { s with dryRun := b }
  modify fun s => { s with dryRunDuration := ConfigDefaults.dryRunDuration }
  assign (getAs OptionValue.asPath gsettings "global_socket") fun s p =>
    { s with globalSocket := p }
  assign (getAs OptionValue.asPath gsettings "control_socket") fun s p =>
    { s with controlSocket := p }
  assign (getAs OptionValue.asString gsettings "bind_address") fun s a =>
    { s with bindAddress := a }
  -- `m_remote_port` is an `in_port_t`
  assign (getAs OptionValue.asUInt32 gsettings "remote_port") fun s n =>
    { s with remotePort := n.toUInt16 }
  assign (getAs OptionValue.asPath gsettings "pidfile") fun s p => { s with daemonPidfile := p }
  assign (getAs OptionValue.asUInt32 gsettings "workers") fun s n => { s with workersInPool := n }
  assign (getAs OptionValue.asPath gsettings "staging_directory") fun s p =>
    { s with stagingDirectory := p }
  modify fun s => { s with backlogSize := ConfigDefaults.backlogSize }

/-- The settings with more namespaces. -/
def Settings.addNamespaces (s : Settings) (nss : List NamespaceDef) : Settings :=
  { s with defaultNamespaces := s.defaultNamespaces ++ nss }

/-- The loop over the namespaces. -/
def addNamespaces : List OptionsGroup → SettingsM Unit
  | [] => pure ()
  | nsdef :: namespaces => do
      assign (newNamespaceDef nsdef) fun s ns => s.addNamespaces [ns]
      addNamespaces namespaces

/-- `settings::load_from_file`. -/
def loadFromFile (env : ConfigEnv) (doc : YamlNode) : SettingsM Unit := do
  let optMap ← ExceptT.mk (pure (parseYamlFile env (validOptions env) doc))
  let gsettings ← ExceptT.mk (pure (getGroup optMap "global_settings"))
  assignGlobals gsettings
  let namespaces ← ExceptT.mk (pure (getList optMap "namespaces"))
  addNamespaces namespaces

/-- A call: what it returns or throws, and the settings after it. -/
def Settings.loadFromFile (s : Settings) (env : ConfigEnv) (doc : YamlNode) :
    Except ConfigException Unit × Settings := (Norns.loadFromFile env doc).run.run s

/-! ### What a document says -/

/-- The options of a section as text. -/
abbrev Texts := List (String × String)

section Documents

variable (env : ConfigEnv)

/-- An option as text; there is none if the key or the value has no text. -/
def readText : Option (YamlNode × YamlNode) → Option (String × String)
  | none => none
  | some (keyNode, valueNode) =>
      match keyNode.asString env, valueNode.asString env with
      | .ok key, .ok text => some (key, text)
      | _, _ => none

/-- The options of a section as text. -/
def readTexts (kvs : List (Option (YamlNode × YamlNode))) : Option Texts := kvs.mapM (readText env)

/-- The options of the entries of a list. -/
def readList (config : YamlNode) : Option (List Texts) :=
  config.entries.mapM fun entry => readTexts env (listEntryPairs entry)

/-- The value of an option, if it is one of the schema and can be converted. -/
def convertText (schema : GroupSchema) (kv : String × String) : Option OptionValue :=
  (schema.find kv.1).bind fun opt => (opt.valueOf kv.1 kv.2).toOption

/-- All options can be converted. -/
def Converts (schema : GroupSchema) (texts : Texts) : Prop :=
  ∀ kv ∈ texts, (convertText schema kv).isSome

instance (schema : GroupSchema) (texts : Texts) : Decidable (Converts schema texts) :=
  inferInstanceAs (Decidable (∀ kv ∈ texts, (convertText schema kv).isSome))

/-- No mandatory option is missing. -/
def Complete (schema : GroupSchema) (texts : Texts) : Prop :=
  ∀ opt ∈ schema, opt.2.mandatory → opt.1 ∈ texts.map Prod.fst

instance (schema : GroupSchema) (texts : Texts) : Decidable (Complete schema texts) :=
  inferInstanceAs (Decidable (∀ opt ∈ schema, opt.2.mandatory → opt.1 ∈ texts.map Prod.fst))

/-- The schema accepts the document; `nss` is what the section `namespaces` lists, if there is
one.  The entries of that section may be incomplete. -/
structure Reads (doc : YamlNode) (global : Texts) (nss : Option (List Texts)) : Prop where
  globalSettings : ∃ node, doc.get "global_settings" = .ok (some node) ∧
    readTexts env node.entryPairs = some global
  converts : Converts (globalSettingsSchema env) global
  complete : Complete (globalSettingsSchema env) global
  namespaces : match nss with
    | none => doc.get "namespaces" = .ok none
    | some tss => (∃ node, doc.get "namespaces" = .ok (some node) ∧
        readList env node = some tss) ∧ ∀ ts ∈ tss, Converts (namespacesSchema env) ts

/-- The document is a configuration: every section that is there has its mandatory options, and all
values can be converted. -/
def Holds (doc : YamlNode) (global : Texts) (nss : Option (List Texts)) : Prop :=
  Reads env doc global nss ∧ ∀ ts ∈ nss.getD [], Complete (namespacesSchema env) ts

end Documents

/-- The converted value of an option, or `old` if the option is not there. -/
def valueOr {α : Type} (convert : String → String → Except ConfigException α) (old : α)
    (texts : Texts) (name : String) : α :=
  match texts.lookup name with
  | none => old
  | some text => ((convert name text).toOption).getD old

/-- An option without a converter. -/
def textOr (old : String) (texts : Texts) (name : String) : String := (texts.lookup name).getD old

/-- The settings with the values of the section `global_settings`. -/
def Settings.withGlobals (env : ConfigEnv) (s : Settings) (global : Texts) : Settings where
  progname := ConfigDefaults.progname
  daemonize := s.daemonize
  useSyslog := valueOr parseBool s.useSyslog global "use_syslog"
  useConsole := ConfigDefaults.useConsole
  logFile := valueOr parsePath s.logFile global "log_file"
  logFileMaxSize := valueOr (parseCapacity32 env) s.logFileMaxSize global "log_file_max_size"
  dryRun := valueOr parseBool ConfigDefaults.dryRun global "dry_run"
  dryRunDuration := ConfigDefaults.dryRunDuration
  globalSocket := valueOr parsePath s.globalSocket global "global_socket"
  controlSocket := valueOr parsePath s.controlSocket global "control_socket"
  bindAddress := textOr s.bindAddress global "bind_address"
  remotePort := (valueOr parseNumber s.remotePort.toUInt32 global "remote_port").toUInt16
  daemonPidfile := valueOr parsePath s.daemonPidfile global "pidfile"
  workersInPool := valueOr parseNumber s.workersInPool global "workers"
  stagingDirectory := valueOr parsePath s.stagingDirectory global "staging_directory"
  backlogSize := ConfigDefaults.backlogSize
  configFile := s.configFile
  defaultNamespaces := s.defaultNamespaces

/-- The namespace that an entry of `namespaces` defines. -/
def namespaceDef (env : ConfigEnv) (texts : Texts) : NamespaceDef where
  nsid := textOr "" texts "nsid"
  track := valueOr parseBool false texts "track_contents"
  mountpoint := valueOr (parseExistingPath env) "" texts "mountpoint"
  aliasName := textOr "" texts "type"
  capacity := valueOr (parseCapacity env) 0 texts "capacity"
  visibility := textOr "" texts "visibility"

/-- The settings that a document describes. -/
def Settings.loaded (env : ConfigEnv) (s : Settings) (global : Texts) (nss : Option (List Texts)) :
    Settings :=
  { s.withGlobals env global with defaultNamespaces := (nss.getD []).map (namespaceDef env) }

/-- All or nothing. -/
def Settings.LoadsAtomically (env : ConfigEnv) (s : Settings) (doc : YamlNode) : Prop :=
  (∀ global nss, Holds env doc global nss →
    s.loadFromFile env doc = (.ok (), s.loaded env global nss)) ∧
  ((¬ ∃ global nss, Holds env doc global nss) → ∃ e, s.loadFromFile env doc = (.error e, s))

/-! ### Reading -/

section Reading

variable {env : ConfigEnv}

/-- An option that can be converted is stored, and anything else ends the reading. -/
theorem readOption_eq (name : String) {find : String → Option OptionSchema} {schema : GroupSchema}
    (hfind : ∀ key, find key = schema.find key) (parsed : OptionsGroup)
    (kv : Option (YamlNode × YamlNode)) :
    (∃ text value, readText env kv = some text ∧ convertText schema text = some value ∧
      readOption env name find parsed kv = .ok (parsed.emplace text.1 value)) ∨
    ((∀ text, readText env kv = some text → convertText schema text = none) ∧
      ∃ e, readOption env name find parsed kv = .error e) := by
  cases kv with
  | none => exact .inr ⟨fun text h => absurd h (by simp [readText]), .invalidNode, rfl⟩
  | some kv =>
      obtain ⟨keyNode, valueNode⟩ := kv
      simp only [readText, readOption]
      cases hkey : keyNode.asString env with
      | error e => exact .inr ⟨fun text h => absurd h (by simp), e, rfl⟩
      | ok key =>
          cases hvalue : valueNode.asString env with
          | error e => exact .inr ⟨fun text h => absurd h (by simp), e, rfl⟩
          | ok text =>
              simp only [bind, Except.bind, pure, Except.pure, hfind, Option.some.injEq]
              cases hopt : schema.find key with
              | none =>
                  refine .inr ⟨?_, _, rfl⟩
                  rintro _ rfl
                  simp [convertText, hopt]
              | some opt =>
                  cases hval : opt.valueOf key text with
                  | error e =>
                      refine .inr ⟨?_, e, ?_⟩
                      · rintro _ rfl
                        simp [convertText, hopt, hval, Except.toOption]
                      · simp only [hval]
                  | ok value =>
                      refine .inl ⟨(key, text), value, rfl, ?_, ?_⟩
                      · simp [convertText, hopt, hval, Except.toOption]
                      · simp only [hval]

/-- The options of a section, each with the value of its first occurrence. -/
def storeTexts (schema : GroupSchema) (parsed : OptionsGroup) (texts : Texts) : OptionsGroup :=
  texts.foldl (fun parsed kv =>
    match convertText schema kv with
    | some value => parsed.emplace kv.1 value
    | none => parsed) parsed

theorem readOptions_eq (name : String) {find : String → Option OptionSchema} {schema : GroupSchema}
    (hfind : ∀ key, find key = schema.find key) (kvs : List (Option (YamlNode × YamlNode)))
    (parsed : OptionsGroup) :
    (∃ texts, readTexts env kvs = some texts ∧ Converts schema texts ∧
      kvs.foldlM (readOption env name find) parsed = .ok (storeTexts schema parsed texts)) ∨
    ((∀ texts, readTexts env kvs = some texts → ¬ Converts schema texts) ∧
      ∃ e, kvs.foldlM (readOption env name find) parsed = .error e) := by
  induction kvs generalizing parsed with
  | nil => exact .inl ⟨[], rfl, fun kv h => absurd h List.not_mem_nil, rfl⟩
  | cons kv kvs ih =>
      rw [readTexts, List.mapM_cons, List.foldlM_cons]
      obtain ⟨text, value, htext, hvalue, hread⟩ | ⟨hnone, e, hread⟩ :=
        readOption_eq name hfind parsed kv
      · rw [htext, hread]
        obtain ⟨texts, htexts, hconv, hfold⟩ | ⟨hnot, e, hfold⟩ := ih (parsed.emplace text.1 value)
        · rw [readTexts] at htexts
          refine .inl ⟨text :: texts, by rw [htexts]; rfl, ?_, ?_⟩
          · intro kv' hmem
            rcases List.mem_cons.mp hmem with rfl | hmem
            · rw [hvalue]
              rfl
            · exact hconv kv' hmem
          · rw [storeTexts, List.foldl_cons, hvalue]
            exact hfold
        · refine .inr ⟨?_, e, hfold⟩
          intro texts htexts hconv
          obtain ⟨_, ⟨⟩, htexts⟩ := Option.bind_eq_some_iff.mp htexts
          obtain ⟨rest, hrest, htexts⟩ := Option.bind_eq_some_iff.mp htexts
          cases htexts
          exact hnot rest hrest fun kv' hmem => hconv kv' (List.mem_cons_of_mem _ hmem)
      · rw [hread]
        refine .inr ⟨?_, e, rfl⟩
        intro texts htexts hconv
        obtain ⟨text, htext, htexts⟩ := Option.bind_eq_some_iff.mp htexts
        obtain ⟨rest, -, htexts⟩ := Option.bind_eq_some_iff.mp htexts
        cases htexts
        have hsome := hconv text List.mem_cons_self
        rw [hnone text htext] at hsome
        cases hsome

/-- The first occurrence of an option counts. -/
theorem lookup_storeTexts {schema : GroupSchema} (parsed : OptionsGroup) {texts : Texts}
    (h : Converts schema texts) (key : String) :
    (storeTexts schema parsed texts).lookup key =
      (parsed.lookup key).or
        ((texts.lookup key).bind fun text => convertText schema (key, text)) := by
  induction texts generalizing parsed with
  | nil => simp [storeTexts]
  | cons kv texts ih =>
      obtain ⟨value, hvalue⟩ := Option.isSome_iff_exists.mp (h kv List.mem_cons_self)
      have hrest : Converts schema texts := fun kv' hmem => h kv' (List.mem_cons_of_mem _ hmem)
      rw [storeTexts, List.foldl_cons, hvalue, ← storeTexts, ih _ hrest, Table.lookup_emplace,
        Option.or_assoc]
      congr 1
      by_cases hkey : key = kv.1
      · subst hkey
        rw [if_pos rfl, List.lookup_cons_self, Option.some_or, Option.bind_some]
        exact hvalue.symm
      · rw [if_neg hkey, Option.none_or, List.lookup_cons, beq_false_of_ne hkey]

theorem mem_of_lookup {texts : Texts} {key text : String} (h : texts.lookup key = some text) :
    (key, text) ∈ texts := by
  obtain ⟨before, after, rfl, -⟩ := List.lookup_eq_some_iff.mp h
  simp

theorem isSome_lookup_iff {texts : Texts} {key : String} :
    (texts.lookup key).isSome ↔ key ∈ texts.map Prod.fst := by
  rw [List.lookup_isSome_iff]
  simp only [beq_iff_eq, List.mem_map]
  exact ⟨fun ⟨kv, hmem, h⟩ => ⟨kv, hmem, h.symm⟩, fun ⟨kv, hmem, h⟩ => ⟨kv, hmem, h.symm⟩⟩

/-- An option is stored exactly if it occurs. -/
theorem mem_storeTexts {schema : GroupSchema} {texts : Texts} (h : Converts schema texts)
    (key : String) : key ∈ storeTexts schema ∅ texts ↔ key ∈ texts.map Prod.fst := by
  rw [← AList.lookup_isSome, lookup_storeTexts ∅ h, AList.lookup_empty, Option.none_or,
    ← isSome_lookup_iff]
  cases hlookup : texts.lookup key with
  | none => rfl
  | some text =>
      have hvalue := h (key, text) (mem_of_lookup hlookup)
      simpa using hvalue

/-- The values of a group with those that the schema supplies. -/
def withDefaults (schema : GroupSchema) (parsed : OptionsGroup) : OptionsGroup :=
  schema.foldl (fun parsed opt =>
    match opt.2.defaultValue with
    | some value => parsed.emplace opt.1 value
    | none => parsed) parsed

variable (env) in
theorem visitGroup_eq (name : String) (schema : GroupSchema) (node : YamlNode) :
    (∃ texts, readTexts env node.entryPairs = some texts ∧ Converts schema texts ∧
      Complete schema texts ∧
      visitGroup env name schema node = .ok (withDefaults schema (storeTexts schema ∅ texts))) ∨
    ((∀ texts, readTexts env node.entryPairs = some texts → Converts schema texts →
      ¬ Complete schema texts) ∧ ∃ e, visitGroup env name schema node = .error e) := by
  unfold visitGroup
  obtain ⟨texts, htexts, hconv, hfold⟩ | ⟨hnot, e, hfold⟩ :=
    readOptions_eq name (fun key => rfl) node.entryPairs ∅
  · rw [hfold]
    cases hfind : schema.find? fun opt =>
        opt.2.mandatory && !decide (opt.1 ∈ storeTexts schema ∅ texts) with
    | none =>
        refine .inl ⟨texts, htexts, hconv, ?_, ?_⟩
        · intro opt hmem hmand
          have hopt := List.find?_eq_none.mp hfind opt hmem
          rw [← mem_storeTexts hconv]
          simpa [hmand] using hopt
        · simp only [bind, Except.bind, hfind]
          rfl
    | some opt =>
        refine .inr ⟨?_, _, by simp only [bind, Except.bind, hfind]; rfl⟩
        intro texts' htexts' _ hcomplete
        obtain rfl := Option.some.inj (htexts.symm.trans htexts')
        have hopt := List.find?_some hfind
        simp only [Bool.and_eq_true, Bool.not_eq_true', decide_eq_false_iff_not] at hopt
        rw [mem_storeTexts hconv] at hopt
        exact hopt.2 (hcomplete opt (List.mem_of_find?_eq_some hfind) hopt.1)
  · rw [hfold]
    exact .inr ⟨fun texts htexts hconv => absurd hconv (hnot texts htexts), e, rfl⟩

variable (env) in
theorem visitList_eq (name : String) {schema : GroupSchema} (hany : schema.find matchAny = none)
    (node : YamlNode) :
    (∃ tss, readList env node = some tss ∧ (∀ ts ∈ tss, Converts schema ts) ∧
      visitList env name schema node = .ok (tss.map (storeTexts schema ∅))) ∨
    ((∀ tss, readList env node = some tss → ¬ ∀ ts ∈ tss, Converts schema ts) ∧
      ∃ e, visitList env name schema node = .error e) := by
  have hfind (key : String) : (schema.find key).or (schema.find matchAny) = schema.find key := by
    rw [hany, Option.or_none]
  unfold readList visitList
  induction node.entries with
  | nil => exact .inl ⟨[], rfl, fun ts h => absurd h List.not_mem_nil, rfl⟩
  | cons entry entries ih =>
      rw [List.mapM_cons, List.mapM_cons]
      obtain ⟨ts, hts, hconv, hfold⟩ | ⟨hnot, e, hfold⟩ :=
        readOptions_eq name hfind (listEntryPairs entry) ∅
      · rw [hfold, hts]
        obtain ⟨tss, htss, hconvs, hmap⟩ | ⟨hnots, e, hmap⟩ := ih
        · refine .inl ⟨ts :: tss, by rw [htss]; rfl, ?_, by rw [hmap]; rfl⟩
          intro ts' hmem
          rcases List.mem_cons.mp hmem with rfl | hmem
          · exact hconv
          · exact hconvs ts' hmem
        · refine .inr ⟨?_, e, by rw [hmap]; rfl⟩
          intro tss htss hall
          obtain ⟨_, ⟨⟩, htss⟩ := Option.bind_eq_some_iff.mp htss
          obtain ⟨rest, hrest, htss⟩ := Option.bind_eq_some_iff.mp htss
          cases htss
          exact hnots rest hrest fun ts' hmem => hall ts' (List.mem_cons_of_mem _ hmem)
      · rw [hfold]
        refine .inr ⟨?_, e, rfl⟩
        intro tss htss hall
        obtain ⟨ts, hts, htss⟩ := Option.bind_eq_some_iff.mp htss
        obtain ⟨rest, hrest, htss⟩ := Option.bind_eq_some_iff.mp htss
        cases htss
        exact hnot ts hts (hall ts List.mem_cons_self)

/-- What is in the section `global_settings`. -/
def globalGroup (env : ConfigEnv) (global : Texts) : OptionsGroup :=
  withDefaults (globalSettingsSchema env) (storeTexts (globalSettingsSchema env) ∅ global)

/-- What is in an entry of the section `namespaces`. -/
def namespaceGroup (env : ConfigEnv) (texts : Texts) : OptionsGroup :=
  storeTexts (namespacesSchema env) ∅ texts

/-- The map after the section `global_settings`. -/
def globalMap (env : ConfigEnv) (global : Texts) : Table String SectionValue :=
  Table.emplace "global_settings" (.group (globalGroup env global)) ∅

/-- The sections of a document that the schema accepts. -/
structure Parsed (env : ConfigEnv) (optMap : Table String SectionValue) (global : Texts)
    (nss : Option (List Texts)) : Prop where
  globalSettings : optMap.lookup "global_settings" = some (.group (globalGroup env global))
  namespaces : optMap.lookup "namespaces" =
    nss.map fun tss => .list (tss.map (namespaceGroup env))

theorem parseGlobals_eq (env : ConfigEnv) (doc : YamlNode) :
    (∃ node global, doc.get "global_settings" = .ok (some node) ∧
      readTexts env node.entryPairs = some global ∧ Converts (globalSettingsSchema env) global ∧
      Complete (globalSettingsSchema env) global ∧
      parseSection env doc ∅ ("global_settings", ⟨true, false, globalSettingsSchema env⟩) =
        .ok (globalMap env global)) ∨
    ((¬ ∃ global nss, Reads env doc global nss) ∧ ∃ e, parseSection env doc ∅
      ("global_settings", ⟨true, false, globalSettingsSchema env⟩) = .error e) := by
  unfold parseSection
  cases hget : doc.get "global_settings" with
  | error e =>
      refine .inr ⟨?_, e, rfl⟩
      rintro ⟨global, nss, hreads⟩
      obtain ⟨node, hnode, -⟩ := hreads.globalSettings
      cases hget.symm.trans hnode
  | ok node =>
      cases node with
      | none =>
          refine .inr ⟨?_, _, rfl⟩
          rintro ⟨global, nss, hreads⟩
          obtain ⟨node, hnode, -⟩ := hreads.globalSettings
          cases hget.symm.trans hnode
      | some node =>
          simp only [visitSection]
          obtain ⟨global, htexts, hconv, hcomplete, hvisit⟩ | ⟨hnot, e, hvisit⟩ :=
            visitGroup_eq env "global_settings" (globalSettingsSchema env) node
          · rw [hvisit]
            exact .inl ⟨node, global, rfl, htexts, hconv, hcomplete, rfl⟩
          · rw [hvisit]
            refine .inr ⟨?_, e, rfl⟩
            rintro ⟨global, nss, hreads⟩
            obtain ⟨node', hnode, htexts⟩ := hreads.globalSettings
            cases hget.symm.trans hnode
            exact hnot global htexts hreads.converts hreads.complete

theorem parseNamespaces_eq (env : ConfigEnv) (doc : YamlNode) (optMap : Table String SectionValue) :
    (doc.get "namespaces" = .ok none ∧
      parseSection env doc optMap ("namespaces", ⟨false, true, namespacesSchema env⟩) =
        .ok optMap) ∨
    (∃ node tss, doc.get "namespaces" = .ok (some node) ∧ readList env node = some tss ∧
      (∀ ts ∈ tss, Converts (namespacesSchema env) ts) ∧
      parseSection env doc optMap ("namespaces", ⟨false, true, namespacesSchema env⟩) =
        .ok (optMap.emplace "namespaces" (.list (tss.map (namespaceGroup env))))) ∨
    ((¬ ∃ global nss, Reads env doc global nss) ∧ ∃ e, parseSection env doc optMap
      ("namespaces", ⟨false, true, namespacesSchema env⟩) = .error e) := by
  have hany : (namespacesSchema env).find matchAny = none := rfl
  unfold parseSection
  cases hget : doc.get "namespaces" with
  | error e =>
      refine .inr (.inr ⟨?_, e, rfl⟩)
      rintro ⟨global, nss, hreads⟩
      have hnss := hreads.namespaces
      cases nss with
      | none => cases hget.symm.trans hnss
      | some tss =>
          obtain ⟨⟨node, hnode, -⟩, -⟩ := hnss
          cases hget.symm.trans hnode
  | ok node =>
      cases node with
      | none => exact .inl ⟨rfl, rfl⟩
      | some node =>
          simp only [visitSection, if_true]
          obtain ⟨tss, htss, hconv, hvisit⟩ | ⟨hnot, e, hvisit⟩ :=
            visitList_eq env "namespaces" hany node
          · rw [hvisit]
            exact .inr (.inl ⟨node, tss, rfl, htss, hconv, rfl⟩)
          · rw [hvisit]
            refine .inr (.inr ⟨?_, e, rfl⟩)
            rintro ⟨global, nss, hreads⟩
            have hnss := hreads.namespaces
            cases nss with
            | none => cases hget.symm.trans hnss
            | some tss =>
                obtain ⟨⟨node', hnode, htss⟩, hconv⟩ := hnss
                cases hget.symm.trans hnode
                exact hnot tss htss hconv

/-- A document is read if the schema accepts it, and refused otherwise. -/
theorem parse_eq (env : ConfigEnv) (doc : YamlNode) :
    (∃ global nss optMap, Reads env doc global nss ∧ Parsed env optMap global nss ∧
      parseYamlFile env (validOptions env) doc = .ok optMap) ∨
    ((¬ ∃ global nss, Reads env doc global nss) ∧
      ∃ e, parseYamlFile env (validOptions env) doc = .error e) := by
  have hglobal := parseGlobals_eq env doc
  have hlist := parseNamespaces_eq env doc
  have hparse : parseYamlFile env (validOptions env) doc =
      parseSection env doc ∅ ("global_settings", ⟨true, false, globalSettingsSchema env⟩) >>=
        fun optMap => parseSection env doc optMap
          ("namespaces", ⟨false, true, namespacesSchema env⟩) >>= pure := rfl
  rw [hparse]
  obtain ⟨node, global, hget, htexts, hconv, hcomplete, hsection⟩ | ⟨hnot, e, hsection⟩ := hglobal
  · rw [hsection]
    obtain ⟨hnone, hns⟩ | ⟨nsNode, tss, hnsNode, hlist, hconvs, hns⟩ | ⟨hnot, e, hns⟩ :=
      hlist (globalMap env global)
    · refine .inl ⟨global, none, globalMap env global,
        ⟨⟨node, hget, htexts⟩, hconv, hcomplete, hnone⟩, ⟨rfl, rfl⟩, ?_⟩
      show parseSection env doc _ _ >>= pure = _
      rw [hns]
      rfl
    · refine .inl ⟨global, some tss,
        (globalMap env global).emplace "namespaces" (.list (tss.map (namespaceGroup env))),
        ⟨⟨node, hget, htexts⟩, hconv, hcomplete, ⟨nsNode, hnsNode, hlist⟩, hconvs⟩, ⟨?_, ?_⟩, ?_⟩
      · rw [Table.lookup_emplace]
        rfl
      · rw [Table.lookup_emplace]
        rfl
      · show parseSection env doc _ _ >>= pure = _
        rw [hns]
        rfl
    · refine .inr ⟨hnot, e, ?_⟩
      show parseSection env doc _ _ >>= pure = _
      rw [hns]
      rfl
  · rw [hsection]
    exact .inr ⟨hnot, e, rfl⟩

end Reading

/-! ### Assigning -/

section Assigning

theorem bind_eq_ok {α β : Type} {x : Except ConfigException α}
    {f : α → Except ConfigException β} {b : β} (h : x >>= f = .ok b) :
    ∃ a, x = .ok a ∧ f a = .ok b := by
  cases x with
  | error e => cases h
  | ok a => exact ⟨a, rfl, h⟩

theorem run_bind_ok {α β : Type} {p : SettingsM α} {f : α → SettingsM β} {s s' : Settings} {a : α}
    (h : p.run.run s = (.ok a, s')) : (p >>= f).run.run s = (f a).run.run s' := by
  simp only [ExceptT.run_bind, StateT.run_bind, h]
  rfl

theorem run_bind_error {α β : Type} {p : SettingsM α} {f : α → SettingsM β} {s s' : Settings}
    {e : ConfigException} (h : p.run.run s = (.error e, s')) :
    (p >>= f).run.run s = (.error e, s') := by
  simp only [ExceptT.run_bind, StateT.run_bind, h]
  rfl

theorem assign_ok {α : Type} {value : Except ConfigException α} {a : α} (h : value = .ok a)
    (set : Settings → α → Settings) (s : Settings) :
    (assign value set).run.run s = (.ok (), set s a) := by
  rw [h]
  rfl

theorem assign_error {α : Type} {value : Except ConfigException α} {e : ConfigException}
    (h : value = .error e) (set : Settings → α → Settings) (s : Settings) :
    (assign value set).run.run s = (.error e, s) := by
  rw [h]
  rfl

/-- The group has the converted values of the options that occur. -/
def Stores (schema : GroupSchema) (texts : Texts) (group : OptionsGroup) : Prop :=
  ∀ key text, texts.lookup key = some text →
    ∃ value, convertText schema (key, text) = some value ∧ group.lookup key = some value

variable {schema : GroupSchema} {texts : Texts} {group : OptionsGroup}

theorem stores_storeTexts (h : Converts schema texts) :
    Stores schema texts (storeTexts schema ∅ texts) := by
  intro key text hlookup
  obtain ⟨value, hvalue⟩ := Option.isSome_iff_exists.mp (h _ (mem_of_lookup hlookup))
  refine ⟨value, hvalue, ?_⟩
  rw [lookup_storeTexts ∅ h, AList.lookup_empty, Option.none_or, hlookup, Option.bind_some, hvalue]

/-- A typed lookup finds the converted value. -/
theorem Stores.getAs_converted (h : Stores schema texts group) {name : String} {opt : OptionSchema}
    (hopt : schema.find name = some opt) {α : Type}
    (convert : String → String → Except ConfigException α) (value : α → OptionValue)
    (hconverter : opt.converter = some fun name text => (convert name text).map value)
    {cast : OptionValue → Except ConfigException α} (hcast : ∀ a, cast (value a) = .ok a)
    (hmem : name ∈ texts.map Prod.fst) (old : α) :
    getAs cast group name = .ok (valueOr convert old texts name) := by
  obtain ⟨text, htext⟩ := Option.isSome_iff_exists.mp (isSome_lookup_iff.mpr hmem)
  obtain ⟨v, hv, hgroup⟩ := h name text htext
  have hvalue : ((convert name text).map value).toOption = some v := by
    simpa [convertText, hopt, OptionSchema.valueOf, hconverter] using hv
  cases hconv : convert name text with
  | error e =>
      rw [hconv] at hvalue
      cases hvalue
  | ok a =>
      rw [hconv] at hvalue
      cases hvalue
      simp only [getAs, hgroup, hcast, valueOr, htext, hconv, Except.toOption, Option.getD_some]

theorem Stores.getAs_text (h : Stores schema texts group) {name : String} {opt : OptionSchema}
    (hopt : schema.find name = some opt) (hconverter : opt.converter = none)
    (hmem : name ∈ texts.map Prod.fst) (old : String) :
    getAs OptionValue.asString group name = .ok (textOr old texts name) := by
  obtain ⟨text, htext⟩ := Option.isSome_iff_exists.mp (isSome_lookup_iff.mpr hmem)
  obtain ⟨v, hv, hgroup⟩ := h name text htext
  have hvalue : v = .string text := by
    have : some (OptionValue.string text) = some v := by
      simpa [convertText, hopt, OptionSchema.valueOf, hconverter, Except.toOption] using hv
    exact (Option.some.inj this).symm
  simp only [getAs, hgroup, hvalue, OptionValue.asString, textOr, htext, Option.getD_some]

theorem lookup_globalGroup (env : ConfigEnv) {global : Texts}
    (h : Converts (globalSettingsSchema env) global) (key : String) :
    (globalGroup env global).lookup key =
      ((global.lookup key).bind fun text => convertText (globalSettingsSchema env) (key, text)).or
        (if key = "dry_run" then some (.bool ConfigDefaults.dryRun) else none) := by
  have hdefaults : globalGroup env global = Table.emplace "dry_run" (.bool ConfigDefaults.dryRun)
      (storeTexts (globalSettingsSchema env) ∅ global) := rfl
  rw [hdefaults, Table.lookup_emplace, lookup_storeTexts ∅ h, AList.lookup_empty, Option.none_or]

theorem stores_globalGroup (env : ConfigEnv) {global : Texts}
    (h : Converts (globalSettingsSchema env) global) :
    Stores (globalSettingsSchema env) global (globalGroup env global) := by
  intro key text hlookup
  obtain ⟨value, hvalue⟩ := Option.isSome_iff_exists.mp (h _ (mem_of_lookup hlookup))
  refine ⟨value, hvalue, ?_⟩
  rw [lookup_globalGroup env h, hlookup, Option.bind_some, hvalue, Option.some_or]

/-- The option `log_file` and its like are in the group exactly if the document has them. -/
theorem mem_globalGroup (env : ConfigEnv) {global : Texts}
    (h : Converts (globalSettingsSchema env) global) {key : String} (hkey : key ≠ "dry_run") :
    key ∈ globalGroup env global ↔ key ∈ global.map Prod.fst := by
  rw [← mem_storeTexts h, ← AList.lookup_isSome, ← AList.lookup_isSome, lookup_globalGroup env h,
    if_neg hkey, Option.or_none, lookup_storeTexts ∅ h, AList.lookup_empty, Option.none_or]

theorem lookup_of_notMem {name : String} (h : name ∉ texts.map Prod.fst) :
    texts.lookup name = none := by
  rw [← isSome_lookup_iff] at h
  exact Option.not_isSome_iff_eq_none.mp h

theorem valueOr_of_notMem {α : Type} {name : String} (h : name ∉ texts.map Prod.fst)
    (convert : String → String → Except ConfigException α) (old : α) :
    valueOr convert old texts name = old := by
  simp only [valueOr, lookup_of_notMem h]

theorem getAs_dryRun (env : ConfigEnv) {global : Texts}
    (h : Converts (globalSettingsSchema env) global) :
    getAs OptionValue.asBool (globalGroup env global) "dry_run" =
      .ok (valueOr parseBool ConfigDefaults.dryRun global "dry_run") := by
  by_cases hmem : "dry_run" ∈ global.map Prod.fst
  · exact (stores_globalGroup env h).getAs_converted rfl parseBool .bool rfl (fun _ => rfl) hmem _
  · rw [valueOr_of_notMem hmem, getAs, lookup_globalGroup env h, lookup_of_notMem hmem]
    rfl

theorem Complete.mem (h : Complete schema texts) {name : String} {opt : OptionSchema}
    (hopt : schema.find name = some opt) (hmand : opt.mandatory) : name ∈ texts.map Prod.fst := by
  obtain ⟨before, after, hschema, -⟩ := List.lookup_eq_some_iff.mp hopt
  refine h (name, opt) ?_ hmand
  rw [hschema]
  simp

/-- An option that need not be there keeps its old value if it is not. -/
theorem assignIfHas_eq (env : ConfigEnv) {global : Texts}
    (h : Converts (globalSettingsSchema env) global) {name : String} (hname : name ≠ "dry_run")
    {opt : OptionSchema} (hopt : (globalSettingsSchema env).find name = some opt) {α : Type}
    (convert : String → String → Except ConfigException α) (value : α → OptionValue)
    (hconverter : opt.converter = some fun name text => (convert name text).map value)
    {cast : OptionValue → Except ConfigException α} (hcast : ∀ a, cast (value a) = .ok a)
    (get : Settings → α) (set : Settings → α → Settings) (hset : ∀ s, set s (get s) = s)
    (s : Settings) :
    (assignIfHas (globalGroup env global) name cast set).run.run s =
      (.ok (), set s (valueOr convert (get s) global name)) := by
  unfold assignIfHas
  by_cases hmem : name ∈ global.map Prod.fst
  · rw [if_pos ((mem_globalGroup env h hname).mpr hmem)]
    exact assign_ok ((stores_globalGroup env h).getAs_converted hopt convert value hconverter hcast
      hmem _) set s
  · rw [if_neg fun h' => hmem ((mem_globalGroup env h hname).mp h'), valueOr_of_notMem hmem, hset]
    rfl

/-- The values of the mandatory options are assigned, those of the others if they are there. -/
theorem assignGlobals_run (env : ConfigEnv) {global : Texts}
    (h : Converts (globalSettingsSchema env) global)
    (hcomplete : Complete (globalSettingsSchema env) global) (s : Settings) :
    (assignGlobals (globalGroup env global)).run.run s = (.ok (), s.withGlobals env global) := by
  have hstores := stores_globalGroup env h
  have hpath (name : String) (old : String) (hopt : (globalSettingsSchema env).find name =
      some (declareOption true .path parsePath)) :
      getAs OptionValue.asPath (globalGroup env global) name =
        .ok (valueOr parsePath old global name) :=
    hstores.getAs_converted hopt parsePath .path rfl (fun _ => rfl) (hcomplete.mem hopt rfl) old
  have hnumber (name : String) (old : UInt32) (hopt : (globalSettingsSchema env).find name =
      some (declareOption true .uint32 parseNumber)) :
      getAs OptionValue.asUInt32 (globalGroup env global) name =
        .ok (valueOr parseNumber old global name) :=
    hstores.getAs_converted hopt parseNumber .uint32 rfl (fun _ => rfl) (hcomplete.mem hopt rfl) old
  have hsyslog : getAs OptionValue.asBool (globalGroup env global) "use_syslog" =
      .ok (valueOr parseBool s.useSyslog global "use_syslog") :=
    hstores.getAs_converted rfl parseBool .bool rfl (fun _ => rfl) (hcomplete.mem rfl rfl) _
  have haddress : getAs OptionValue.asString (globalGroup env global) "bind_address" =
      .ok (textOr s.bindAddress global "bind_address") :=
    hstores.getAs_text rfl rfl (hcomplete.mem rfl rfl) _
  have hlog (s : Settings) : (assignIfHas (globalGroup env global) "log_file" OptionValue.asPath
        fun s p => { s with logFile := p }).run.run s =
      (.ok (), { s with logFile := valueOr parsePath s.logFile global "log_file" }) :=
    assignIfHas_eq env h (by decide) rfl parsePath .path rfl (fun _ => rfl) Settings.logFile _
      (fun _ => rfl) s
  have hsize (s : Settings) : (assignIfHas (globalGroup env global) "log_file_max_size"
        OptionValue.asUInt32 fun s n => { s with logFileMaxSize := n }).run.run s =
      (.ok (), { s with
        logFileMaxSize := valueOr (parseCapacity32 env) s.logFileMaxSize global
          "log_file_max_size" }) :=
    assignIfHas_eq env h (by decide) rfl (parseCapacity32 env) .uint32 rfl (fun _ => rfl)
      Settings.logFileMaxSize _ (fun _ => rfl) s
  unfold assignGlobals
  refine (run_bind_ok rfl).trans ((run_bind_ok (assign_ok hsyslog _ _)).trans ?_)
  refine (run_bind_ok rfl).trans ((run_bind_ok (hlog _)).trans ((run_bind_ok (hsize _)).trans ?_))
  refine (run_bind_ok (assign_ok (getAs_dryRun env h) _ _)).trans ((run_bind_ok rfl).trans ?_)
  refine (run_bind_ok (assign_ok (hpath "global_socket" s.globalSocket rfl) _ _)).trans ?_
  refine (run_bind_ok (assign_ok (hpath "control_socket" s.controlSocket rfl) _ _)).trans ?_
  refine (run_bind_ok (assign_ok haddress _ _)).trans ?_
  refine (run_bind_ok (assign_ok (hnumber "remote_port" s.remotePort.toUInt32 rfl) _ _)).trans ?_
  refine (run_bind_ok (assign_ok (hpath "pidfile" s.daemonPidfile rfl) _ _)).trans ?_
  refine (run_bind_ok (assign_ok (hnumber "workers" s.workersInPool rfl) _ _)).trans ?_
  refine (run_bind_ok (assign_ok (hpath "staging_directory" s.stagingDirectory rfl) _ _)).trans ?_
  rfl

theorem newNamespaceDef_complete (env : ConfigEnv) (h : Converts (namespacesSchema env) texts)
    (hcomplete : Complete (namespacesSchema env) texts) :
    newNamespaceDef (namespaceGroup env texts) = .ok (namespaceDef env texts) := by
  have hstores := stores_storeTexts h
  have htext (name : String) (hopt : (namespacesSchema env).find name = some declareString) :
      getAs OptionValue.asString (namespaceGroup env texts) name = .ok (textOr "" texts name) :=
    hstores.getAs_text hopt rfl (hcomplete.mem hopt rfl) ""
  have htrack : getAs OptionValue.asBool (namespaceGroup env texts) "track_contents" =
      .ok (valueOr parseBool false texts "track_contents") :=
    hstores.getAs_converted rfl parseBool .bool rfl (fun _ => rfl) (hcomplete.mem rfl rfl) _
  have hmount : getAs OptionValue.asPath (namespaceGroup env texts) "mountpoint" =
      .ok (valueOr (parseExistingPath env) "" texts "mountpoint") :=
    hstores.getAs_converted rfl (parseExistingPath env) .path rfl (fun _ => rfl)
      (hcomplete.mem rfl rfl) _
  have hcapacity : getAs OptionValue.asUInt64 (namespaceGroup env texts) "capacity" =
      .ok (valueOr (parseCapacity env) 0 texts "capacity") :=
    hstores.getAs_converted rfl (parseCapacity env) .uint64 rfl (fun _ => rfl)
      (hcomplete.mem rfl rfl) _
  unfold newNamespaceDef
  rw [htext "nsid" rfl, htrack, hmount, htext "type" rfl, hcapacity, htext "visibility" rfl]
  rfl

theorem mem_of_getAs {α : Type} {cast : OptionValue → Except ConfigException α} {name : String}
    {a : α} (h : getAs cast group name = .ok a) : name ∈ group := by
  rw [← AList.lookup_isSome]
  unfold getAs at h
  cases hlookup : group.lookup name with
  | none =>
      rw [hlookup] at h
      cases h
  | some value => rfl

/-- An option that is missing is noticed when the namespace is defined. -/
theorem newNamespaceDef_incomplete (env : ConfigEnv) (h : Converts (namespacesSchema env) texts)
    (hnot : ¬ Complete (namespacesSchema env) texts) :
    ∃ e, newNamespaceDef (namespaceGroup env texts) = .error e := by
  cases hdef : newNamespaceDef (namespaceGroup env texts) with
  | error e => exact ⟨e, rfl⟩
  | ok ns =>
      refine absurd ?_ hnot
      unfold newNamespaceDef at hdef
      obtain ⟨nsid, hnsid, hdef⟩ := bind_eq_ok hdef
      obtain ⟨track, htrack, hdef⟩ := bind_eq_ok hdef
      obtain ⟨mountpoint, hmount, hdef⟩ := bind_eq_ok hdef
      obtain ⟨aliasName, halias, hdef⟩ := bind_eq_ok hdef
      obtain ⟨capacity, hcapacity, hdef⟩ := bind_eq_ok hdef
      obtain ⟨visibility, hvisibility, -⟩ := bind_eq_ok hdef
      intro opt hopt _
      rw [← mem_storeTexts h]
      simp only [namespacesSchema, List.mem_cons, List.not_mem_nil, or_false] at hopt
      rcases hopt with rfl | rfl | rfl | rfl | rfl | rfl
      · exact mem_of_getAs hcapacity
      · exact mem_of_getAs hmount
      · exact mem_of_getAs hnsid
      · exact mem_of_getAs htrack
      · exact mem_of_getAs halias
      · exact mem_of_getAs hvisibility

theorem Settings.addNamespaces_nil (s : Settings) : s.addNamespaces [] = s := by
  rw [Settings.addNamespaces, List.append_nil]

theorem Settings.addNamespaces_cons (s : Settings) (ns : NamespaceDef) (nss : List NamespaceDef) :
    (s.addNamespaces [ns]).addNamespaces nss = s.addNamespaces (ns :: nss) := by
  simp only [Settings.addNamespaces, List.append_assoc, List.singleton_append]

/-- The loop adds the namespaces of the entries before the first incomplete one. -/
theorem addNamespaces_run (env : ConfigEnv) {tss : List Texts}
    (h : ∀ ts ∈ tss, Converts (namespacesSchema env) ts) (s : Settings) :
    ((∀ ts ∈ tss, Complete (namespacesSchema env) ts) ∧
      (addNamespaces (tss.map (namespaceGroup env))).run.run s =
        (.ok (), s.addNamespaces (tss.map (namespaceDef env)))) ∨
    ∃ before ts after e, tss = before ++ ts :: after ∧
      (∀ ts ∈ before, Complete (namespacesSchema env) ts) ∧ ¬ Complete (namespacesSchema env) ts ∧
      (addNamespaces (tss.map (namespaceGroup env))).run.run s =
        (.error e, s.addNamespaces (before.map (namespaceDef env))) := by
  induction tss generalizing s with
  | nil =>
      refine .inl ⟨fun ts h => absurd h List.not_mem_nil, ?_⟩
      rw [List.map_nil, List.map_nil, s.addNamespaces_nil]
      rfl
  | cons ts tss ih =>
      have hts := h ts List.mem_cons_self
      rw [List.map_cons, addNamespaces]
      by_cases hcomplete : Complete (namespacesSchema env) ts
      · rw [run_bind_ok (assign_ok (newNamespaceDef_complete env hts hcomplete) _ s)]
        obtain ⟨hall, hrun⟩ | ⟨before, ts', after, e, rfl, hbefore, hnot, hrun⟩ :=
          ih (fun ts' hmem => h ts' (List.mem_cons_of_mem _ hmem))
            (s.addNamespaces [namespaceDef env ts])
        · refine .inl ⟨?_, ?_⟩
          · intro ts' hmem
            rcases List.mem_cons.mp hmem with rfl | hmem
            · exact hcomplete
            · exact hall ts' hmem
          · rw [hrun, s.addNamespaces_cons, List.map_cons]
        · refine .inr ⟨ts :: before, ts', after, e, rfl, ?_, hnot, ?_⟩
          · intro ts' hmem
            rcases List.mem_cons.mp hmem with rfl | hmem
            · exact hcomplete
            · exact hbefore ts' hmem
          · rw [hrun, s.addNamespaces_cons, List.map_cons]
      · obtain ⟨e, he⟩ := newNamespaceDef_incomplete env hts hcomplete
        refine .inr ⟨[], ts, tss, e, rfl, fun ts h => absurd h List.not_mem_nil, hcomplete, ?_⟩
        rw [run_bind_error (assign_error he _ s), List.map_nil, s.addNamespaces_nil]

end Assigning

/-! ### All or nothing -/

theorem Reads.unique {env : ConfigEnv} {doc : YamlNode} {global global' : Texts}
    {nss nss' : Option (List Texts)} (h : Reads env doc global nss)
    (h' : Reads env doc global' nss') : global = global' ∧ nss = nss' := by
  obtain ⟨node, hnode, htexts⟩ := h.globalSettings
  obtain ⟨node', hnode', htexts'⟩ := h'.globalSettings
  cases hnode.symm.trans hnode'
  refine ⟨Option.some.inj (htexts.symm.trans htexts'), ?_⟩
  have hnss := h.namespaces
  have hnss' := h'.namespaces
  cases nss with
  | none =>
      cases nss' with
      | none => rfl
      | some tss' =>
          obtain ⟨⟨nsNode, hget, -⟩, -⟩ := hnss'
          cases hnss.symm.trans hget
  | some tss =>
      obtain ⟨⟨nsNode, hget, hlist⟩, -⟩ := hnss
      cases nss' with
      | none => cases hget.symm.trans hnss'
      | some tss' =>
          obtain ⟨⟨nsNode', hget', hlist'⟩, -⟩ := hnss'
          cases hget.symm.trans hget'
          rw [hlist.symm.trans hlist']

/-- What a call leaves in the settings.  Nothing changes if the schema refuses the document.  If it
accepts it, the global settings are assigned, and the call fails afterwards for want of the section
`namespaces` or of an option in one of its entries. -/
theorem loadFromFile_eq (env : ConfigEnv) (doc : YamlNode) (s : Settings) :
    ((¬ ∃ global nss, Reads env doc global nss) ∧ ∃ e, s.loadFromFile env doc = (.error e, s)) ∨
    (∃ global e, Reads env doc global none ∧
      s.loadFromFile env doc = (.error e, s.withGlobals env global)) ∨
    (∃ global tss, Reads env doc global (some tss) ∧
      (∀ ts ∈ tss, Complete (namespacesSchema env) ts) ∧ s.loadFromFile env doc =
        (.ok (), (s.withGlobals env global).addNamespaces (tss.map (namespaceDef env)))) ∨
    ∃ global before ts after e, Reads env doc global (some (before ++ ts :: after)) ∧
      (∀ ts ∈ before, Complete (namespacesSchema env) ts) ∧ ¬ Complete (namespacesSchema env) ts ∧
      s.loadFromFile env doc =
        (.error e, (s.withGlobals env global).addNamespaces (before.map (namespaceDef env))) := by
  unfold Settings.loadFromFile loadFromFile
  obtain ⟨global, nss, optMap, hreads, hparsed, hparse⟩ | ⟨hnot, e, hparse⟩ := parse_eq env doc
  swap
  · refine .inl ⟨hnot, e, run_bind_error ?_⟩
    rw [hparse]
    rfl
  have hgroup : getGroup optMap "global_settings" = .ok (globalGroup env global) := by
    rw [getGroup, hparsed.globalSettings]
  have hglobals := assignGlobals_run env hreads.converts hreads.complete s
  have hrun : s.loadFromFile env doc =
      (do
        let namespaces ← ExceptT.mk (pure (getList optMap "namespaces"))
        addNamespaces namespaces : SettingsM Unit).run.run (s.withGlobals env global) := by
    unfold Settings.loadFromFile loadFromFile
    rw [hparse]
    refine (run_bind_ok rfl).trans ?_
    rw [hgroup]
    exact (run_bind_ok rfl).trans (run_bind_ok hglobals)
  unfold Settings.loadFromFile loadFromFile at hrun
  rw [hrun, getList, hparsed.namespaces]
  cases nss with
  | none => exact .inr (.inl ⟨global, _, hreads, run_bind_error rfl⟩)
  | some tss =>
      have hconv := hreads.namespaces.2
      obtain ⟨hall, hadd⟩ | ⟨before, ts, after, e, rfl, hbefore, hts, hadd⟩ :=
        addNamespaces_run env hconv (s.withGlobals env global)
      · exact .inr (.inr (.inl ⟨global, tss, hreads, hall, (run_bind_ok rfl).trans hadd⟩))
      · exact .inr (.inr (.inr ⟨global, before, ts, after, e, hreads, hbefore, hts,
          (run_bind_ok rfl).trans hadd⟩))

theorem accepted_of_ok {r : Except ConfigException Unit × Settings} (h : r.1 = .ok ()) :
    r = (.ok (), r.2) := by
  rw [← h]

/-- What a call that succeeds leaves in the settings. -/
theorem loadFromFile_ok {env : ConfigEnv} {doc : YamlNode} {s s' : Settings}
    (h : s.loadFromFile env doc = (.ok (), s')) :
    ∃ global tss, Reads env doc global (some tss) ∧
      (∀ ts ∈ tss, Complete (namespacesSchema env) ts) ∧
      s' = (s.withGlobals env global).addNamespaces (tss.map (namespaceDef env)) := by
  obtain ⟨-, e, hload⟩ | ⟨global, e, hreads, hload⟩ | ⟨global, tss, hreads, hall, hload⟩ |
    ⟨global, before, ts, after, e, hreads, hbefore, hts, hload⟩ := loadFromFile_eq env doc s
  · cases h.symm.trans hload
  · cases h.symm.trans hload
  · cases h.symm.trans hload
    exact ⟨global, tss, hreads, hall, rfl⟩
  · cases h.symm.trans hload

/-- The condition for all or nothing: a configuration lists its namespaces, and there are none in
the settings before; and if the schema accepts a list with an incomplete entry, then this is the
first, and the global settings have their values already. -/
structure Settings.Loadable (env : ConfigEnv) (s : Settings) (doc : YamlNode) : Prop where
  complete : ∀ global nss, Holds env doc global nss → nss.isSome ∧ s.defaultNamespaces = []
  incomplete : ∀ global tss, Reads env doc global (some tss) →
    (¬ ∀ ts ∈ tss, Complete (namespacesSchema env) ts) →
    s.withGlobals env global = s ∧
      ∃ ts after, tss = ts :: after ∧ ¬ Complete (namespacesSchema env) ts

/-- Nothing is added only if there is nothing to add. -/
theorem Settings.addNamespaces_eq_self {s t : Settings} {nss : List NamespaceDef}
    (hns : t.defaultNamespaces = s.defaultNamespaces) (h : t.addNamespaces nss = s) : nss = [] := by
  have hfield := congrArg Settings.defaultNamespaces h
  rw [Settings.addNamespaces, hns] at hfield
  exact List.append_right_eq_self.mp hfield

/-- A call does all or nothing exactly under this condition. -/
theorem load_atomic_iff (env : ConfigEnv) (s : Settings) (doc : YamlNode) :
    s.LoadsAtomically env doc ↔ s.Loadable env doc := by
  obtain ⟨hnot, e, hload⟩ | ⟨global, e, hreads, hload⟩ | ⟨global, tss, hreads, hall, hload⟩ |
    ⟨global, before, ts, after, e, hreads, hbefore, hts, hload⟩ := loadFromFile_eq env doc s
  · -- the schema refuses the document
    refine iff_of_true ⟨?_, fun _ => ⟨e, hload⟩⟩ ⟨?_, ?_⟩
    · exact fun global nss h => absurd ⟨global, nss, h.1⟩ hnot
    · exact fun global nss h => absurd ⟨global, nss, h.1⟩ hnot
    · exact fun global tss h => absurd ⟨global, some tss, h⟩ hnot
  · -- the section is missing
    have hholds : Holds env doc global none := ⟨hreads, fun ts h => absurd h List.not_mem_nil⟩
    refine iff_of_false ?_ ?_
    · intro h
      cases hload.symm.trans (h.1 global none hholds)
    · intro h
      cases (h.complete global none hholds).1
  · -- the document is a configuration
    have hholds : Holds env doc global (some tss) := ⟨hreads, hall⟩
    constructor
    · intro h
      have hloaded := hload.symm.trans (h.1 global (some tss) hholds)
      have hfield := congrArg Settings.defaultNamespaces (congrArg Prod.snd hloaded)
      refine ⟨?_, ?_⟩
      · intro global' nss' h'
        obtain ⟨rfl, rfl⟩ := hreads.unique h'.1
        exact ⟨rfl, List.append_left_eq_self.mp hfield⟩
      · intro global' tss' h' hincomplete
        obtain ⟨-, htss⟩ := hreads.unique h'
        cases htss
        exact absurd hall hincomplete
    · intro h
      refine ⟨?_, fun hnot => absurd ⟨global, some tss, hholds⟩ hnot⟩
      intro global' nss' h'
      obtain ⟨rfl, rfl⟩ := hreads.unique h'.1
      have hempty := (h.complete _ _ h').2
      rw [hload, Settings.addNamespaces, Settings.loaded]
      simp only [Settings.withGlobals, hempty, List.nil_append, Option.getD_some]
  · -- an entry is incomplete
    have hincomplete : ¬ ∀ ts' ∈ before ++ ts :: after, Complete (namespacesSchema env) ts' :=
      fun h => hts (h ts (by simp))
    have hnot : ¬ ∃ global nss, Holds env doc global nss := by
      rintro ⟨global', nss', h'⟩
      obtain ⟨-, rfl⟩ := hreads.unique h'.1
      exact hincomplete h'.2
    constructor
    · intro h
      obtain ⟨e', he'⟩ := h.2 hnot
      have hsame : (s.withGlobals env global).addNamespaces (before.map (namespaceDef env)) = s :=
        congrArg Prod.snd (hload.symm.trans he')
      have hkept : (s.withGlobals env global).defaultNamespaces = s.defaultNamespaces := rfl
      have hnil := Settings.addNamespaces_eq_self hkept hsame
      refine ⟨fun global' nss' h' => absurd ⟨global', nss', h'⟩ hnot, ?_⟩
      intro global' tss' h' _
      obtain ⟨rfl, htss⟩ := hreads.unique h'
      cases htss
      rw [hnil, Settings.addNamespaces_nil] at hsame
      obtain rfl := List.map_eq_nil_iff.mp hnil
      exact ⟨hsame, ts, after, rfl, hts⟩
    · intro h
      refine ⟨fun global' nss' h' => absurd ⟨global', nss', h'⟩ hnot, fun _ => ⟨e, ?_⟩⟩
      obtain ⟨hsame, ts', after', htss, hts'⟩ := h.incomplete global _ hreads hincomplete
      cases before with
      | nil => rw [hload, hsame, List.map_nil, Settings.addNamespaces_nil]
      | cons ts'' before =>
          cases htss
          exact absurd (hbefore ts' List.mem_cons_self) hts'

/-- The mandatory options of `global_settings`. -/
def minimalGlobals : Texts :=
  [("use_syslog", "0"), ("global_socket", "/g"), ("control_socket", "/c"), ("bind_address", "::1"),
    ("remote_port", "42000"), ("pidfile", "/p"), ("workers", "4"), ("staging_directory", "/tmp")]

/-- A map from texts to texts. -/
def textsNode (texts : Texts) : YamlNode :=
  .map (texts.map fun kv => (.scalar kv.1, .scalar kv.2))

/-- A document without namespaces. -/
def globalsOnly : YamlNode :=
  .map [(.scalar "global_settings", .sequence [textsNode minimalGlobals])]

/-- A file system in which every path exists. -/
def allPathsExist : ConfigEnv := ⟨fun _ => .ok true, fun _ => some 0, none⟩

/-- The settings that `load_defaults` makes. -/
def defaultSettings : Settings where
  progname := "urd"
  daemonize := true
  useSyslog := false
  useConsole := false
  logFile := ""
  logFileMaxSize := 16777216
  dryRun := false
  dryRunDuration := 100
  globalSocket := "/var/global.socket.2"
  controlSocket := "/var/control.socket.2"
  bindAddress := "127.0.0.1"
  remotePort := 42000
  daemonPidfile := "/var/urd.pid"
  workersInPool := 4
  stagingDirectory := "/tmp/urd/"
  backlogSize := 128
  configFile := "/etc/norns.conf"
  defaultNamespaces := []

/-- The optional section is not optional: without it the call fails after the assignments. -/
theorem missing_namespaces_not_atomic :
    ¬ defaultSettings.LoadsAtomically allPathsExist globalsOnly := by
  intro h
  have hholds : Holds allPathsExist globalsOnly minimalGlobals none :=
    ⟨⟨⟨.sequence [textsNode minimalGlobals], rfl, rfl⟩, by decide, by decide, rfl⟩,
      fun ts h => absurd h List.not_mem_nil⟩
  have hload := congrArg (fun r => (r.1, r.2.globalSocket)) (h.1 minimalGlobals none hholds)
  have hfails : ((defaultSettings.loadFromFile allPathsExist globalsOnly).1,
      (defaultSettings.loadFromFile allPathsExist globalsOnly).2.globalSocket) =
      (.error (.invalidArgument "option 'namespaces' missing"), "/g") := by
    decide
  cases hfails.symm.trans hload

end Norns
