import Mathlib.Data.List.TakeWhile
import Norns.Config
import Norns.Lib.Loop
import Norns.Submission

/-! # The configuration as the client libraries read it

`parse_config_file` (`lib/config-parser.c`) goes over the tokens of the whole file with two states:
after a key token the next scalar is compared with the options that the library asks for, after a
value token every scalar is stored for the option that was found last.  What is stored is a copy by
`xstrdup`, of at most `XMAX_STRING_LENGTH - 1` characters.

The daemon keeps the first occurrence of an option in one section, and the client the last one in
the file, cut off: `client_agrees_iff`.

The loop over the tokens leaves when it has seen the end of the stream.  A scan that fails brings no
token, and the loop scans once more: `parse_config_file_ends_iff`.

A `Char` stands for a `char` of the C and C++ strings. -/

namespace Norns

open Lib

/-! ### C strings -/

/-- What a `const char*` points to. -/
structure CString where
  val : String
  noNull : '\x00' ∉ val.toList
deriving DecidableEq, Repr

/-- A text of the YAML library read as a C string: it ends at the first null character. -/
def cString (s : String) : CString :=
  ⟨String.ofList (s.toList.takeWhile (· ≠ '\x00')), by
    rw [String.toList_ofList]
    intro hmem
    have hne := List.mem_takeWhile_imp hmem
    simp at hne⟩

/-- `xstrdup`, if there is memory for the copy. -/
def CString.dup (s : CString) : CString :=
  ⟨xstrcut s.val, by
    rw [xstrcut, String.toList_ofList]
    exact fun hmem => s.noNull (List.mem_of_mem_take hmem)⟩

/-! ### The scanner -/

/-- The tokens of the YAML library, as far as the scanner tells them apart. -/
inductive YamlToken where
  | key
  | value
  | scalar (text : String)
  | other
deriving DecidableEq, Repr

/-- `struct kvpair`. -/
structure KvPair where
  key : CString
  val : Option CString
deriving DecidableEq, Repr

/-- `scan_state`. -/
inductive ScanState where
  | expectKey
  | expectValue
deriving DecidableEq, Repr

/-- The local variables of `parse_config_file`; `datap` points into the array. -/
structure Scanner where
  scanState : ScanState
  datap : Option ℕ
  opts : List KvPair

/-- The body of the loop of `parse_config_file`. -/
def Scanner.scan (s : Scanner) (token : YamlToken) : Scanner :=
  match token with
  | .key => { s with scanState := .expectKey }
  | .value => { s with scanState := .expectValue }
  | .scalar text =>
      match s.scanState with
      | .expectKey => { s with datap := s.opts.findIdx? fun opt => cString text = opt.key }
      | .expectValue =>
          match s.datap with
          | none => s
          | some i => { s with opts := s.opts.modify i fun opt =>
              { opt with val := some (cString text).dup } }
  | .other => s

/-- `parse_config_file`, for a file with these tokens. -/
def parseConfigFile (tokens : List YamlToken) (opts : List KvPair) : List KvPair :=
  (tokens.foldl Scanner.scan ⟨.expectKey, none, opts⟩).opts

/-- What is stored for a key. -/
def valueFor (opts : List KvPair) (key : CString) : Option CString :=
  (opts.find? fun opt => key = opt.key).bind KvPair.val

/-! ### The documents -/

/-- A configuration file: the maps of the section `global_settings`, and for every namespace the
maps of its definition. -/
structure ConfigFile where
  globalSettings : List Texts
  namespaces : List (List Texts)

namespace ConfigFile

/-- The tree that the daemon reads. -/
def node (file : ConfigFile) : YamlNode :=
  .map [(.scalar "global_settings", .sequence (file.globalSettings.map textsNode)),
    (.scalar "namespaces",
      .sequence (file.namespaces.map fun entry => .sequence (entry.map textsNode)))]

/-- The tokens of a key and its value. -/
def pairTokens (kv : String × String) : List YamlToken :=
  [.key, .scalar kv.1, .value, .scalar kv.2]

/-- The tokens of a map. -/
def mapTokens (texts : Texts) : List YamlToken := .other :: (texts.flatMap pairTokens ++ [.other])

/-- The tokens of a sequence of maps. -/
def mapsTokens (maps : List Texts) : List YamlToken :=
  .other :: (maps.flatMap mapTokens ++ [.other])

/-- The tokens of the name of a section. -/
def sectionTokens (name : String) : List YamlToken := [.key, .scalar name, .value]

/-- The tokens of the section `namespaces`. -/
def namespacesTokens (entries : List (List Texts)) : List YamlToken :=
  .other :: (entries.flatMap mapsTokens ++ [.other])

/-- The tokens that the client reads: the starts and the ends of the stream, of maps and of
sequences are all of the same kind here. -/
def tokens (file : ConfigFile) : List YamlToken :=
  .other :: .other :: (sectionTokens "global_settings" ++ (mapsTokens file.globalSettings ++
    (sectionTokens "namespaces" ++ (namespacesTokens file.namespaces ++ [.other, .other]))))

/-- The options of `global_settings` in their order. -/
def globalTexts (file : ConfigFile) : Texts := file.globalSettings.flatten

end ConfigFile

/-- The mandatory options of `global_settings` whose values are texts. -/
inductive TextOption where
  | bindAddress
  | controlSocket
  | globalSocket
  | pidfile
  | stagingDirectory
deriving DecidableEq, Repr

/-- The name of an option. -/
def TextOption.name : TextOption → String
  | bindAddress => "bind_address"
  | controlSocket => "control_socket"
  | globalSocket => "global_socket"
  | pidfile => "pidfile"
  | stagingDirectory => "staging_directory"

/-- The value that the daemon uses. -/
def TextOption.get (option : TextOption) (s : Settings) : String :=
  match option with
  | bindAddress => s.bindAddress
  | controlSocket => s.controlSocket
  | globalSocket => s.globalSocket
  | pidfile => s.daemonPidfile
  | stagingDirectory => s.stagingDirectory

/-- The client and the daemon have the same value for the option. -/
def Agrees (file : ConfigFile) (opts : List KvPair) (option : TextOption) (s : Settings) : Prop :=
  (valueFor (parseConfigFile file.tokens opts) (cString option.name)).map CString.val =
    some (option.get s)

instance (file : ConfigFile) (opts : List KvPair) (option : TextOption) (s : Settings) :
    Decidable (Agrees file opts option s) := inferInstanceAs (Decidable (_ = _))

/-! ### What the scanner stores -/

/-- The array after a key and its value. -/
def storePair (opts : List KvPair) (kv : String × String) : List KvPair :=
  match opts.findIdx? fun opt => cString kv.1 = opt.key with
  | none => opts
  | some i => opts.modify i fun opt => { opt with val := some (cString kv.2).dup }

/-- Tokens whose pairs are stored one after the other, whatever stands before them. -/
def Scans (tokens : List YamlToken) (texts : Texts) : Prop :=
  ∀ s : Scanner, (tokens.foldl Scanner.scan s).opts = texts.foldl storePair s.opts

namespace Scans

theorem nil : Scans [] [] := fun _ => rfl

theorem append {tokens tokens' : List YamlToken} {texts texts' : Texts} (h : Scans tokens texts)
    (h' : Scans tokens' texts') : Scans (tokens ++ tokens') (texts ++ texts') := by
  intro s
  rw [List.foldl_append, h', h, List.foldl_append]

theorem other : Scans [.other] [] := fun _ => rfl

theorem flatMap {α : Type} {tokens : α → List YamlToken} {texts : α → Texts}
    (h : ∀ a, Scans (tokens a) (texts a)) (as : List α) :
    Scans (as.flatMap tokens) (as.flatMap texts) := by
  induction as with
  | nil => exact nil
  | cons a as ih => exact (h a).append ih

theorem pair (kv : String × String) : Scans (ConfigFile.pairTokens kv) [kv] := by
  intro s
  simp only [ConfigFile.pairTokens, List.foldl_cons, List.foldl_nil, Scanner.scan, storePair]
  split <;> simp_all

/-- A key without a scalar after it only moves `datap`. -/
theorem key (name : String) : Scans (ConfigFile.sectionTokens name) [] := fun _ => rfl

theorem map (texts : Texts) : Scans (ConfigFile.mapTokens texts) texts := by
  have h := (other.append (flatMap pair texts)).append other
  simpa [ConfigFile.mapTokens] using h

theorem maps (maps : List Texts) : Scans (ConfigFile.mapsTokens maps) maps.flatten := by
  have h := (other.append (flatMap map maps)).append other
  simpa [ConfigFile.mapsTokens, List.flatMap_id'] using h

theorem namespaces (entries : List (List Texts)) :
    Scans (ConfigFile.namespacesTokens entries) (entries.flatMap List.flatten) := by
  have h := (other.append (flatMap maps entries)).append other
  simpa [ConfigFile.namespacesTokens] using h

/-- The scanner sees the options of all sections. -/
theorem file (f : ConfigFile) :
    Scans f.tokens (f.globalTexts ++ f.namespaces.flatMap List.flatten) := by
  have hns := (key "namespaces").append ((namespaces f.namespaces).append (other.append other))
  have hglobal := (key "global_settings").append ((maps f.globalSettings).append hns)
  have h := other.append (other.append hglobal)
  simp only [List.append_nil, List.nil_append] at h
  exact h

end Scans

section Storing

theorem storePair_cons (opt : KvPair) (opts : List KvPair) (kv : String × String) :
    storePair (opt :: opts) kv =
      if cString kv.1 = opt.key then { opt with val := some (cString kv.2).dup } :: opts
      else opt :: storePair opts kv := by
  unfold storePair
  rw [List.findIdx?_cons]
  by_cases h : cString kv.1 = opt.key
  · simp [h]
  · simp only [h, decide_false, Bool.false_eq_true, if_false]
    cases opts.findIdx? (fun opt => decide (cString kv.1 = opt.key)) with
    | none => rfl
    | some i => rfl

theorem valueFor_cons (opt : KvPair) (opts : List KvPair) (key : CString) :
    valueFor (opt :: opts) key = if key = opt.key then opt.val else valueFor opts key := by
  unfold valueFor
  rw [List.find?_cons]
  by_cases h : key = opt.key
  · simp [h]
  · simp [h]

theorem map_key_storePair (opts : List KvPair) (kv : String × String) :
    (storePair opts kv).map KvPair.key = opts.map KvPair.key := by
  induction opts with
  | nil => rfl
  | cons opt opts ih =>
      rw [storePair_cons]
      split_ifs
      · rfl
      · rw [List.map_cons, List.map_cons, ih]

theorem valueFor_storePair {opts : List KvPair} {key : CString}
    (hmem : key ∈ opts.map KvPair.key) (kv : String × String) :
    valueFor (storePair opts kv) key =
      if cString kv.1 = key then some (cString kv.2).dup else valueFor opts key := by
  induction opts with
  | nil => cases hmem
  | cons opt opts ih =>
      rw [storePair_cons, valueFor_cons]
      by_cases hopt : cString kv.1 = opt.key
      · rw [if_pos hopt, valueFor_cons, hopt]
        by_cases hkey : key = opt.key
        · rw [if_pos hkey, if_pos hkey.symm]
        · rw [if_neg hkey, if_neg (Ne.symm hkey), if_neg hkey]
      · rw [if_neg hopt, valueFor_cons]
        by_cases hkey : key = opt.key
        · rw [if_pos hkey, if_pos hkey, if_neg (hkey ▸ hopt)]
        · rw [if_neg hkey, if_neg hkey]
          rw [List.map_cons, List.mem_cons] at hmem
          exact ih (hmem.resolve_left hkey)

/-- The last occurrence of a key counts. -/
theorem valueFor_storePairs {opts : List KvPair} {name : String}
    (hmem : cString name ∈ opts.map KvPair.key) {texts : Texts}
    (hnames : ∀ kv ∈ texts, cString kv.1 = cString name → kv.1 = name) :
    valueFor (texts.foldl storePair opts) (cString name) =
      ((texts.reverse.lookup name).map fun text => (cString text).dup).or
        (valueFor opts (cString name)) := by
  induction texts generalizing opts with
  | nil => simp
  | cons kv texts ih =>
      have hrest : ∀ kv ∈ texts, cString kv.1 = cString name → kv.1 = name :=
        fun kv' h => hnames kv' (List.mem_cons_of_mem _ h)
      have hmem' : cString name ∈ (storePair opts kv).map KvPair.key := by
        rw [map_key_storePair]
        exact hmem
      rw [List.foldl_cons, ih hmem' hrest, valueFor_storePair hmem, List.reverse_cons,
        List.lookup_append]
      cases texts.reverse.lookup name with
      | some text => simp
      | none =>
          obtain ⟨key, text⟩ := kv
          by_cases hname : key = name
          · simp [hname]
          · have hne : cString key ≠ cString name :=
              fun h => hname (hnames (key, text) List.mem_cons_self h)
            have hbeq : (name == key) = false := beq_false_of_ne (Ne.symm hname)
            simp [List.lookup_cons, hne, hbeq]

end Storing

/-! ### What the daemon reads -/

theorem readTexts_append (env : ConfigEnv) {kvs kvs' : List (Option (YamlNode × YamlNode))}
    {texts texts' : Texts} (h : readTexts env kvs = some texts)
    (h' : readTexts env kvs' = some texts') :
    readTexts env (kvs ++ kvs') = some (texts ++ texts') := by
  rw [readTexts] at h h' ⊢
  rw [List.mapM_append, h, h']
  rfl

theorem readTexts_map (env : ConfigEnv) (texts : Texts) :
    readTexts env (textsNode texts).pairs = some texts := by
  induction texts with
  | nil => rfl
  | cons kv texts ih =>
      have hkv : readTexts env [some (.scalar kv.1, .scalar kv.2)] = some [kv] := rfl
      exact readTexts_append env hkv ih

theorem readTexts_maps (env : ConfigEnv) (maps : List Texts) :
    readTexts env (YamlNode.sequence (maps.map textsNode)).entryPairs = some maps.flatten := by
  induction maps with
  | nil => rfl
  | cons texts maps ih => exact readTexts_append env (readTexts_map env texts) ih

theorem readList_namespaces (env : ConfigEnv) (entries : List (List Texts)) :
    readList env (.sequence (entries.map fun entry => .sequence (entry.map textsNode))) =
      some (entries.map List.flatten) := by
  simp only [readList, YamlNode.entries]
  induction entries with
  | nil => rfl
  | cons entry entries ih =>
      have hentry : readTexts env (listEntryPairs (some (.sequence (entry.map textsNode)))) =
          some entry.flatten := readTexts_maps env entry
      rw [List.map_cons, List.map_cons, List.map_cons, List.mapM_cons, ih, hentry]
      rfl

/-- The sections of a file are what the daemon reads. -/
theorem ConfigFile.reads {env : ConfigEnv} {file : ConfigFile} {global : Texts}
    {nss : Option (List Texts)} (h : Reads env file.node global nss) :
    global = file.globalTexts ∧ nss = some (file.namespaces.map List.flatten) := by
  obtain ⟨node, hnode, htexts⟩ := h.globalSettings
  cases hnode
  rw [readTexts_maps] at htexts
  refine ⟨(Option.some.inj htexts).symm, ?_⟩
  have hnss := h.namespaces
  cases nss with
  | none => cases hnss
  | some tss =>
      obtain ⟨⟨node, hnode, hlist⟩, -⟩ := hnss
      cases hnode
      rw [readList_namespaces] at hlist
      rw [hlist]

/-- The options of the schemas are C strings. -/
theorem cString_val {s : String} (h : '\x00' ∉ s.toList) : (cString s).val = s := by
  have htake : s.toList.takeWhile (· ≠ '\x00') = s.toList := by
    rw [List.takeWhile_eq_self_iff]
    intro c hc
    have hne : c ≠ '\x00' := fun hnul => h (hnul ▸ hc)
    simpa using hne
  show String.ofList (s.toList.takeWhile (· ≠ '\x00')) = s
  rw [htake, String.ofList_toList]

theorem mem_names_of_converts {schema : GroupSchema} {texts : Texts} (h : Converts schema texts)
    {kv : String × String} (hmem : kv ∈ texts) : kv.1 ∈ schema.map Prod.fst := by
  obtain ⟨value, hvalue⟩ := Option.isSome_iff_exists.mp (h kv hmem)
  obtain ⟨opt, hopt, -⟩ := Option.bind_eq_some_iff.mp hvalue
  obtain ⟨before, after, hschema, -⟩ := List.lookup_eq_some_iff.mp hopt
  rw [hschema]
  simp

/-- The names of the options of `global_settings`. -/
def globalNames : List String :=
  ["bind_address", "control_socket", "dry_run", "global_socket", "log_file", "log_file_max_size",
    "pidfile", "remote_port", "staging_directory", "use_syslog", "workers"]

/-- The names of the options of a namespace. -/
def namespaceNames : List String :=
  ["capacity", "mountpoint", "nsid", "track_contents", "type", "visibility"]

theorem mem_globalNames {env : ConfigEnv} {texts : Texts}
    (h : Converts (globalSettingsSchema env) texts) {kv : String × String} (hmem : kv ∈ texts) :
    kv.1 ∈ globalNames := mem_names_of_converts h hmem

theorem mem_namespaceNames {env : ConfigEnv} {texts : Texts}
    (h : Converts (namespacesSchema env) texts) {kv : String × String} (hmem : kv ∈ texts) :
    kv.1 ∈ namespaceNames := mem_names_of_converts h hmem

/-- Names of options are equal if they are equal as C strings. -/
theorem name_inj {name name' : String} (h : name ∈ globalNames ++ namespaceNames)
    (h' : name' ∈ globalNames ++ namespaceNames) (heq : cString name = cString name') :
    name = name' := by
  have hall : ∀ name ∈ globalNames ++ namespaceNames, '\x00' ∉ name.toList := by decide
  rw [← cString_val (hall name h), ← cString_val (hall name' h'), heq]

theorem TextOption.name_mem (option : TextOption) : option.name ∈ globalNames := by
  cases option <;> decide

theorem TextOption.name_notMem (option : TextOption) : option.name ∉ namespaceNames := by
  cases option <;> decide

/-- The daemon uses the first occurrence of an option. -/
theorem TextOption.get_loaded (env : ConfigEnv) (option : TextOption) (s : Settings)
    {global : Texts} {text : String} (h : global.lookup option.name = some text)
    (nss : List NamespaceDef) :
    option.get ((s.withGlobals env global).addNamespaces nss) = text := by
  cases option <;>
    simp_all [TextOption.name, TextOption.get, Settings.addNamespaces, Settings.withGlobals,
      valueOr, textOr, parsePath, Except.toOption]

/-! ### Client and daemon -/

/-- The last occurrence of the option in `global_settings`, as the client copies it, is the first
one. -/
def ConfigFile.LastIsFirst (file : ConfigFile) (option : TextOption) : Prop :=
  (file.globalTexts.reverse.lookup option.name).map (fun text => (cString text).dup.val) =
    file.globalTexts.lookup option.name

instance (file : ConfigFile) (option : TextOption) : Decidable (file.LastIsFirst option) :=
  inferInstanceAs (Decidable (_ = _))

/-- For a file that the daemon accepts, the client has the value of the daemon exactly if the first
and the last occurrence of the option are the same, and the text is not cut. -/
theorem client_agrees_iff (env : ConfigEnv) (file : ConfigFile) (opts : List KvPair)
    (option : TextOption) (hopts : cString option.name ∈ opts.map KvPair.key) {s s' : Settings}
    (haccepts : s.loadFromFile env file.node = (.ok (), s')) :
    Agrees file opts option s' ↔ file.LastIsFirst option := by
  obtain ⟨global, tss, hreads, -, rfl⟩ := loadFromFile_ok haccepts
  obtain ⟨rfl, htss⟩ := ConfigFile.reads hreads
  obtain rfl := Option.some.inj htss
  -- what the daemon uses
  have hmem : option.name ∈ file.globalTexts.map Prod.fst := by
    cases option <;> exact hreads.complete.mem rfl rfl
  obtain ⟨text, htext⟩ := Option.isSome_iff_exists.mp (isSome_lookup_iff.mpr hmem)
  -- what the client stores
  have hconvs := hreads.namespaces.2
  have hns : ∀ kv ∈ file.namespaces.flatMap List.flatten, kv.1 ∈ namespaceNames := by
    intro kv hkv
    obtain ⟨entry, hentry, hkv⟩ := List.mem_flatMap.mp hkv
    exact mem_namespaceNames (hconvs _ (List.mem_map_of_mem hentry)) hkv
  have hnames : ∀ kv ∈ file.globalTexts ++ file.namespaces.flatMap List.flatten,
      cString kv.1 = cString option.name → kv.1 = option.name := by
    intro kv hkv
    refine name_inj ?_ (List.mem_append_left _ option.name_mem)
    rcases List.mem_append.mp hkv with hkv | hkv
    · exact List.mem_append_left _ (mem_globalNames hreads.converts hkv)
    · exact List.mem_append_right _ (hns kv hkv)
  have hlast : (file.namespaces.flatMap List.flatten).reverse.lookup option.name = none := by
    refine lookup_of_notMem ?_
    rw [List.map_reverse, List.mem_reverse]
    intro hmem
    obtain ⟨kv, hkv, hname⟩ := List.mem_map.mp hmem
    exact option.name_notMem (hname ▸ hns kv hkv)
  have hmemLast : option.name ∈ file.globalTexts.reverse.map Prod.fst := by
    rw [List.map_reverse, List.mem_reverse]
    exact hmem
  obtain ⟨lastText, hlastText⟩ := Option.isSome_iff_exists.mp (isSome_lookup_iff.mpr hmemLast)
  have hstored : valueFor (parseConfigFile file.tokens opts) (cString option.name) =
      some (cString lastText).dup := by
    rw [parseConfigFile, Scans.file file, valueFor_storePairs hopts hnames, List.reverse_append,
      List.lookup_append, hlast, Option.none_or, hlastText]
    rfl
  rw [Agrees, hstored, option.get_loaded env s htext, ConfigFile.LastIsFirst, hlastText, htext]
  rfl

/-- A file in which the global socket, `/g`, is given once more. -/
def socketAgain (socket : String) : ConfigFile where
  globalSettings := [minimalGlobals, [("global_socket", socket)]]
  namespaces := []

/-- The options of `libnorns`. -/
def libnornsOpts : List KvPair := [⟨cString "global_socket", none⟩]

/-- Client and daemon agree on a socket that is given twice with the same text. -/
theorem same_socket_agrees :
    Agrees (socketAgain "/g") libnornsOpts .globalSocket
      (defaultSettings.loadFromFile allPathsExist (socketAgain "/g").node).2 :=
  (client_agrees_iff allPathsExist (socketAgain "/g") libnornsOpts .globalSocket List.mem_cons_self
    (accepted_of_ok (by decide +kernel))).mpr (by decide +kernel)

/-- The daemon takes the first socket, and the client the second. -/
theorem other_socket_differs :
    (defaultSettings.loadFromFile allPathsExist (socketAgain "/h").node).1 = .ok () ∧
      ¬ Agrees (socketAgain "/h") libnornsOpts .globalSocket
        (defaultSettings.loadFromFile allPathsExist (socketAgain "/h").node).2 := by
  decide +kernel

/-! ### The loop over the tokens -/

/-- The token that `yaml_parser_scan` writes to its argument. -/
inductive Scanned where
  | noToken
  | streamEnd
  | token (t : YamlToken)
deriving DecidableEq, Repr

/-- What a call of `yaml_parser_scan` comes back with. -/
inductive ParserScan where
  | failed
  | ok (token : Scanned)
deriving DecidableEq, Repr

/-- The argument after the call.  The library erases it before it scans. -/
def ParserScan.written : ParserScan → Scanned
  | .failed => .noToken
  | .ok token => token

/-- The `switch` over the type of the token. -/
def Scanner.switch (s : Scanner) : Scanned → Scanner
  | .token t => s.scan t
  | .noToken | .streamEnd => s

/-- One pass of the loop: `scans` are the results of the calls of `yaml_parser_scan`. -/
def parsePass (scans : ℕ → ParserScan) (i : ℕ) (s : Scanner) : Pass Scanner Scanner :=
  let s' := match scans i with
    | .failed => s
    | .ok token => s.switch token
  -- a failed scan gets here by `continue`
  if (scans i).written = .streamEnd then .leave s' else .next s'

/-- What `parse_config_file` finds: whether the parser can be initialized, whether the file can be
opened, and what the scans of its content return. -/
structure ParserInput where
  initialized : Bool
  opened : Bool
  scans : ℕ → ParserScan

namespace ParserInput

/-- `parse_config_file` returns `rv` and leaves `opts'` in the array. -/
def Parses (input : ParserInput) (opts : List KvPair) (rv : Int32) (opts' : List KvPair) : Prop :=
  if input.initialized && input.opened then
    ∃ s, LoopEnds (parsePass input.scans) 0 ⟨.expectKey, none, opts⟩ s ∧ rv = 0 ∧ opts' = s.opts
  else rv = -1 ∧ opts' = opts

/-- The content of a file: a number of tokens, and then the end of the stream or an error after
which there are no more tokens. -/
def Content (input : ParserInput) : Prop :=
  ∃ n, (∀ i < n, ∃ t, input.scans i = .ok (.token t)) ∧
    (input.scans n = .ok .streamEnd ∨
      (input.scans n = .failed ∧ ∀ i > n, input.scans i = .failed ∨ input.scans i = .ok .noToken))

/-- A scan fails before the end of the stream. -/
def Malformed (input : ParserInput) : Prop :=
  ∃ n, input.scans n = .failed ∧ ∀ i < n, input.scans i ≠ .ok .streamEnd

end ParserInput

section Passes

variable {scans : ℕ → ParserScan}

theorem parsePass_token {i : ℕ} {t : YamlToken} (h : scans i = .ok (.token t)) (s : Scanner) :
    parsePass scans i s = .next (s.scan t) := by
  simp [parsePass, h, ParserScan.written, Scanner.switch]

theorem parsePass_streamEnd {i : ℕ} (h : scans i = .ok .streamEnd) (s : Scanner) :
    parsePass scans i s = .leave s := by
  simp [parsePass, h, ParserScan.written, Scanner.switch]

theorem parsePass_noToken {i : ℕ} (h : scans i = .failed ∨ scans i = .ok .noToken)
    (s : Scanner) : parsePass scans i s = .next s := by
  rcases h with h | h <;> simp [parsePass, h, ParserScan.written, Scanner.switch]

/-- The tokens before a scan, as a list. -/
theorem exists_tokens {n : ℕ} (h : ∀ i < n, ∃ t, scans i = .ok (.token t)) :
    ∃ tokens : List YamlToken, tokens.length = n ∧
      ∀ k (hk : k < tokens.length), scans k = .ok (.token tokens[k]) := by
  choose t ht using h
  refine ⟨List.ofFn fun i : Fin n => t i i.2, List.length_ofFn, fun k hk => ?_⟩
  rw [List.getElem_ofFn]
  rw [List.length_ofFn] at hk
  exact ht k hk

/-- The loop reads the tokens of a well-formed file, in their order. -/
theorem loopEnds_tokens {tokens : List YamlToken} {i : ℕ} (s : Scanner)
    (htokens : ∀ k (hk : k < tokens.length), scans (i + k) = .ok (.token tokens[k]))
    (hend : scans (i + tokens.length) = .ok .streamEnd) :
    LoopEnds (parsePass scans) i s (tokens.foldl Scanner.scan s) := by
  induction tokens generalizing i s with
  | nil => exact (loopEnds_leave (parsePass_streamEnd hend s)).mpr rfl
  | cons t tokens ih =>
      have hfirst : scans i = .ok (.token t) := htokens 0 (Nat.succ_pos _)
      rw [loopEnds_next (parsePass_token hfirst s), List.foldl_cons]
      refine ih (s.scan t) (fun k hk => ?_) ?_
      · rw [Nat.add_assoc, Nat.add_comm 1 k]
        exact htokens (k + 1) (Nat.succ_lt_succ hk)
      · rw [Nat.add_assoc, Nat.add_comm 1]
        exact hend

/-- The loop does not end if a scan fails: from then on no scan brings a token. -/
theorem not_loopEnds_of_failed {n : ℕ} (htokens : ∀ i < n, ∃ t, scans i = .ok (.token t))
    (hafter : ∀ i ≥ n, scans i = .failed ∨ scans i = .ok .noToken) (s r : Scanner) :
    ¬ LoopEnds (parsePass scans) 0 s r := by
  refine not_loopEnds (P := fun _ _ => True) trivial (fun i s _ => ?_) r
  rcases Nat.lt_or_ge i n with hi | hi
  · obtain ⟨t, ht⟩ := htokens i hi
    exact ⟨_, parsePass_token ht s, trivial⟩
  · exact ⟨_, parsePass_noToken (hafter i hi) s, trivial⟩

end Passes

namespace ParserInput

variable {input : ParserInput}

/-- On the tokens of a well-formed file the function is `parseConfigFile`. -/
theorem parses_tokens (opts : List KvPair) (hread : input.initialized ∧ input.opened)
    {tokens : List YamlToken}
    (htokens : ∀ k (hk : k < tokens.length), input.scans k = .ok (.token tokens[k]))
    (hend : input.scans tokens.length = .ok .streamEnd) :
    input.Parses opts 0 (parseConfigFile tokens opts) := by
  rw [Parses, hread.1, hread.2]
  refine ⟨_, loopEnds_tokens _ (fun k hk => ?_) ?_, rfl, rfl⟩
  · rw [Nat.zero_add]
    exact htokens k hk
  · rw [Nat.zero_add]
    exact hend

theorem parses_unread (opts : List KvPair) (hread : ¬ (input.initialized ∧ input.opened)) :
    input.Parses opts (-1) opts := by
  rw [Parses, if_neg (by rwa [Bool.and_eq_true])]
  exact ⟨rfl, rfl⟩

theorem not_malformed_of_streamEnd {n : ℕ} (htokens : ∀ i < n, ∃ t, input.scans i = .ok (.token t))
    (hend : input.scans n = .ok .streamEnd) : ¬ input.Malformed := by
  rintro ⟨m, hfailed, hbefore⟩
  rcases Nat.lt_trichotomy m n with hm | rfl | hm
  · obtain ⟨t, ht⟩ := htokens m hm
    cases hfailed.symm.trans ht
  · cases hfailed.symm.trans hend
  · exact hbefore n hm hend

theorem malformed_of_failed {n : ℕ} (htokens : ∀ i < n, ∃ t, input.scans i = .ok (.token t))
    (hfailed : input.scans n = .failed) : input.Malformed := by
  refine ⟨n, hfailed, fun i hi hend => ?_⟩
  obtain ⟨t, ht⟩ := htokens i hi
  cases ht.symm.trans hend

end ParserInput

/-- `parse_config_file` returns, with an error for a malformed file, exactly if the file is not
malformed or is not read at all. -/
theorem parse_config_file_ends_iff (input : ParserInput) (opts : List KvPair)
    (hcontent : input.Content) :
    (∃ rv opts', input.Parses opts rv opts' ∧ (input.Malformed → rv ≠ 0)) ↔
      ¬ (input.initialized ∧ input.opened ∧ input.Malformed) := by
  by_cases hread : input.initialized ∧ input.opened
  · obtain ⟨n, htokens, hend | ⟨hfailed, hafter⟩⟩ := hcontent
    · have hformed := ParserInput.not_malformed_of_streamEnd htokens hend
      refine iff_of_true ?_ fun h => hformed h.2.2
      obtain ⟨tokens, rfl, hscans⟩ := exists_tokens htokens
      have hparses := ParserInput.parses_tokens opts hread hscans hend
      exact ⟨0, _, hparses, fun h => absurd h hformed⟩
    · have hmalformed := ParserInput.malformed_of_failed htokens hfailed
      refine iff_of_false ?_ (not_not.mpr ⟨hread.1, hread.2, hmalformed⟩)
      rintro ⟨rv, opts', hparses, -⟩
      rw [ParserInput.Parses, hread.1, hread.2] at hparses
      obtain ⟨r, hends, -⟩ := hparses
      have hlast : ∀ i ≥ n, input.scans i = .failed ∨ input.scans i = .ok .noToken := by
        intro i hi
        rcases Nat.eq_or_lt_of_le hi with rfl | hi
        · exact .inl hfailed
        · exact hafter i hi
      exact not_loopEnds_of_failed htokens hlast _ r hends
  · refine iff_of_true ⟨-1, opts, ParserInput.parses_unread opts hread, fun _ => by decide⟩ ?_
    exact fun h => hread ⟨h.1, h.2.1⟩

/-- The tokens of `global_socket: /g`. -/
def socketTokens : List YamlToken :=
  [.other, .other, .key, .scalar "global_socket", .value, .scalar "/g", .other]

/-- The file with these tokens. -/
def socketFile : ParserInput where
  initialized := true
  opened := true
  scans i := (socketTokens[i]?).elim (.ok .streamEnd) fun t => .ok (.token t)

/-- The parser returns on the file, with the socket in the array. -/
theorem socket_file_parses :
    (∃ rv opts', socketFile.Parses libnornsOpts rv opts' ∧ (socketFile.Malformed → rv ≠ 0)) ∧
    socketFile.Parses libnornsOpts 0 [⟨cString "global_socket", some (cString "/g")⟩] := by
  have htokens : ∀ k (hk : k < socketTokens.length),
      socketFile.scans k = .ok (.token socketTokens[k]) := by
    intro k hk
    simp only [socketFile, List.getElem?_eq_getElem hk, Option.elim_some]
  have hend : socketFile.scans socketTokens.length = .ok .streamEnd := rfl
  have hscans : ∀ i < socketTokens.length, ∃ t, socketFile.scans i = .ok (.token t) :=
    fun i hi => ⟨_, htokens i hi⟩
  have hparses := ParserInput.parses_tokens libnornsOpts ⟨rfl, rfl⟩ htokens hend
  have hstored : parseConfigFile socketTokens libnornsOpts =
      [⟨cString "global_socket", some (cString "/g")⟩] := by decide +kernel
  refine ⟨?_, hstored ▸ hparses⟩
  refine (parse_config_file_ends_iff socketFile libnornsOpts ⟨_, hscans, .inl hend⟩).mpr ?_
  exact fun h => ParserInput.not_malformed_of_streamEnd hscans hend h.2.2

/-- A file with a single quotation mark: the scan after the start of the stream fails. -/
def openQuote : ParserInput where
  initialized := true
  opened := true
  scans i := if i = 0 then .ok (.token .other) else if i = 1 then .failed else .ok .noToken

/-- The parser does not return on an open quotation mark. -/
theorem open_quote_never_parses :
    openQuote.Content ∧ openQuote.Malformed ∧
      ∀ rv opts', ¬ openQuote.Parses libnornsOpts rv opts' := by
  have htokens : ∀ i < 1, ∃ t, openQuote.scans i = .ok (.token t) := by
    intro i hi
    obtain rfl := Nat.lt_one_iff.mp hi
    exact ⟨.other, rfl⟩
  have hafter : ∀ i > 1, openQuote.scans i = .ok .noToken := by
    intro i hi
    simp [openQuote, show i ≠ 0 by omega, show i ≠ 1 by omega]
  refine ⟨⟨1, htokens, .inr ⟨rfl, fun i hi => .inr (hafter i hi)⟩⟩,
    ParserInput.malformed_of_failed htokens rfl, ?_⟩
  rintro rv opts' ⟨r, hends, -⟩
  refine not_loopEnds_of_failed htokens (fun i hi => ?_) _ r hends
  rcases Nat.eq_or_lt_of_le hi with rfl | hi
  · exact .inl rfl
  · exact .inr (hafter i hi)

end Norns
