import HealthConsensus.Proofs.Settings.Fields
import HealthConsensus.Proofs.Settings.Readings
import HealthConsensus.Proofs.Toml.Quoted

/-!
Settings from the environment. A variable stands for a value at the path of its setting, behind what
the file gives there; a text that reads as a truth value or a number is taken for one, and the
setting gets the text of that.
-/

namespace HealthConsensus

open SettingValue Settings

inductive TextSetting where
  | listenAddress
  | nodeId
  | scheme
  | path
  | bindAddress
  | encryptionKey
  | regionStart
  | redisUrl
deriving DecidableEq, Repr

namespace TextSetting

def steps : TextSetting → List String
  | listenAddress => ["listen_addr"]
  | nodeId => ["node_id"]
  | scheme => ["validator", "scheme"]
  | path => ["validator", "path"]
  | bindAddress => ["gossip", "bind_addr"]
  | encryptionKey => ["gossip", "encryption_key"]
  | regionStart => ["auth", "region_prefix"]
  | redisUrl => ["store", "redis_url"]

def name (x : TextSetting) : String := ".".intercalate x.steps

def varName : TextSetting → String
  | listenAddress => "GSLB__LISTEN_ADDR"
  | nodeId => "GSLB__NODE_ID"
  | scheme => "GSLB__VALIDATOR__SCHEME"
  | path => "GSLB__VALIDATOR__PATH"
  | bindAddress => "GSLB__GOSSIP__BIND_ADDR"
  | encryptionKey => "GSLB__GOSSIP__ENCRYPTION_KEY"
  | regionStart => "GSLB__AUTH__REGION_PREFIX"
  | redisUrl => "GSLB__STORE__REDIS_URL"

def get (s : Settings) : TextSetting → Option String
  | listenAddress => some s.listenAddress
  | nodeId => s.nodeId
  | scheme => some s.validator.scheme
  | path => some s.validator.path
  | bindAddress => some s.gossip.bindAddress
  | encryptionKey => some s.gossip.encryptionKey
  | regionStart => some s.auth.regionStart
  | redisUrl => some s.store.redisUrl

def override? (o : SettingsOverrides) : TextSetting → Option String
  | listenAddress => o.listen
  | bindAddress => o.gossipBind
  | redisUrl => o.redisUrl
  | _ => none

def file (x : TextSetting) (ws : List Char) : String :=
  String.ofList (Toml.line (x.steps.map String.toList) ws)

theorem settingName?_varName (x : TextSetting) :
    Environment.settingName? x.varName = some x.name := by
  cases x <;> decide +kernel

theorem name_ne_listName (x : TextSetting) : x.name ≠ Environment.listName := by
  cases x <;> decide +kernel

theorem pathOf_name (x : TextSetting) : pathOf x.name = x.steps := by
  cases x <;> decide +kernel

theorem isTextPath_steps (x : TextSetting) : IsTextPath x.steps := by
  cases x with
  | listenAddress => exact .listen
  | nodeId => exact .node
  | scheme => exact .validator (.inl rfl)
  | path => exact .validator (.inr rfl)
  | bindAddress => exact .gossip (.inl rfl)
  | encryptionKey => exact .gossip (.inr rfl)
  | regionStart => exact .auth (.inr rfl)
  | redisUrl => exact .store

theorem get_withOverrides {s : Settings} {t : String} (x : TextSetting) (o : SettingsOverrides)
    (h : x.get s = some t) : x.get (s.withOverrides o) = some ((x.override? o).getD t) := by
  cases x with
  | nodeId => exact h
  | listenAddress | bindAddress | redisUrl =>
    cases Option.some.inj h
    rfl
  | _ => exact h

theorem get_eq_toText? {root w : SettingValue} {s : Settings} (x : TextSetting)
    (h : ofValue? root = some s) (found : root.at? x.steps = some w) : x.get s = w.toText? := by
  have single {name : String} (found : root.at? [name] = some w) : root.child? name = some w := by
    obtain ⟨inner, own, same⟩ := Option.bind_eq_some_iff.1 found
    rwa [← Option.some.inj same]
  cases x with
  | listenAddress =>
    exact (convert_of_fieldOr (reads_of_ofValue? h found).listen (single found)).symm
  | nodeId =>
    have read := convert_of_fieldOr (reads_of_ofValue? h found).node (single found)
    obtain ⟨t, text, same⟩ := Option.map_eq_some_iff.1 read
    exact same.symm.trans text.symm
  | scheme =>
    obtain ⟨es, read, own⟩ := section_of_at? (reads_of_ofValue? h found).validator found
    exact (convert_of_fieldOr (validatorOf?_fields read).1 own).symm
  | path =>
    obtain ⟨es, read, own⟩ := section_of_at? (reads_of_ofValue? h found).validator found
    exact (convert_of_fieldOr (validatorOf?_fields read).2 own).symm
  | bindAddress =>
    obtain ⟨es, read, own⟩ := section_of_at? (reads_of_ofValue? h found).gossip found
    exact (convert_of_fieldOr (gossipOf?_fields read).1 own).symm
  | encryptionKey =>
    obtain ⟨es, read, own⟩ := section_of_at? (reads_of_ofValue? h found).gossip found
    exact (convert_of_fieldOr (gossipOf?_fields read).2 own).symm
  | regionStart =>
    obtain ⟨es, read, own⟩ := section_of_at? (reads_of_ofValue? h found).auth found
    exact (convert_of_fieldOr (authOf?_fields read).2 own).symm
  | redisUrl =>
    obtain ⟨es, read, own⟩ := section_of_at? (reads_of_ofValue? h found).store found
    exact (convert_of_fieldOr (storeOf?_fields read) own).symm

end TextSetting

namespace Settings

open Environment

variable {a root w : SettingValue} {name varName v : String} {path : List String}
  {file file' : Option String} {before rest : List (String × String)} {o : SettingsOverrides}

def fileTree? : Option String → Option SettingValue
  | none => some (table [])
  | some source => (Toml.parse? source).map (table []).setAll

def ofTree (o : SettingsOverrides) (root : SettingValue) : Except LoadError Settings :=
  match ofValue? root with
  | none => .error .unfit
  | some settings =>
    match (settings.withOverrides o).validate with
    | .error e => .error (.refused e)
    | .ok () => .ok (settings.withOverrides o)

theorem load_of_fileTree? (h : fileTree? file = some root) (env : List (String × String))
    (o : SettingsOverrides) :
    load file env o = ofTree o (root.setAll (environmentEntries env)) := by
  cases file with
  | none =>
    cases h
    rfl
  | some source =>
    obtain ⟨entries, read, rfl⟩ := Option.map_eq_some_iff.1 h
    simp only [load, read]
    rfl

theorem isLeaf_environmentEntries (env : List (String × String)) :
    ∀ e ∈ environmentEntries env, e.2.IsLeaf := by
  intro e he
  obtain ⟨⟨varName, text⟩, -, h⟩ := List.mem_filterMap.1 he
  obtain ⟨name, -, rfl⟩ := Option.map_eq_some_iff.1 h
  exact isLeaf_valueOf name text

theorem setAll_append (root : SettingValue) (es fs : List (String × SettingValue)) :
    root.setAll (es ++ fs) = (root.setAll es).setAll fs := List.foldl_append

theorem load_variable (h : fileTree? file = some root) (named : settingName? varName = some name)
    (before rest : List (String × String)) (v : String) (o : SettingsOverrides) :
    load file (before ++ (varName, v) :: rest) o =
      ofTree o
        ((set (pathOf name) (valueOf name v) (root.setAll (environmentEntries before))).setAll
          (environmentEntries rest)) := by
  have entries : environmentEntries (before ++ (varName, v) :: rest) =
      environmentEntries before ++ (name, valueOf name v) :: environmentEntries rest := by
    simp only [environmentEntries, List.filterMap_append, List.filterMap_cons, named,
      Option.map_some]
  rw [load_of_fileTree? h, entries, setAll_append]
  rfl

def Clear (path : List String) (env : List (String × String)) : Prop :=
  ∀ e ∈ environmentEntries env, Apart (pathOf e.1) path

def FileSets (path : List String) (u : SettingValue) (file file' : Option String) : Prop :=
  ∃ root root', fileTree? file = some root ∧ fileTree? file' = some root' ∧ Given path u root root'

theorem ofValue?_alike {u b : SettingValue} {es : List (String × SettingValue)}
    (known : IsTextPath path) (alike : ReadsAlike w u) (given : Given path u a b)
    (leaves : ∀ e ∈ es, e.2.IsLeaf) :
    ofValue? ((set path w a).setAll es) = ofValue? (b.setAll es) :=
  ofValue?_congr known ((sameBut_of_given given alike.leaf alike).setAll leaves)

theorem at?_of_clear (clear : Clear path rest) (leaf : w.IsLeaf) (a : SettingValue) :
    ((set path w a).setAll (environmentEntries rest)).at? path = some w :=
  at?_setAll_apart (isLeaf_environmentEntries rest) clear (at?_set leaf path a)

theorem ofValue?_of_load {s : Settings} (h : ofTree o root = .ok s) :
    ∃ t, ofValue? root = some t ∧ s = t.withOverrides o := by
  unfold ofTree at h
  split at h
  · cases h
  · next t read =>
    split at h
    · cases h
    · cases h
      exact ⟨t, read, rfl⟩

theorem fileTree?_of_load {env : List (String × String)} {s : Settings}
    (h : load file env o = .ok s) : ∃ root, fileTree? file = some root := by
  cases file with
  | none => exact ⟨_, rfl⟩
  | some source =>
    cases read : Toml.parse? source with
    | none => simp [load, read] at h
    | some entries => exact ⟨_, by rw [fileTree?, read]; rfl⟩

theorem setAll_addValue (x : TextSetting) (v : String) : ∃ es,
    Toml.addValue x.steps (.text v) [] = some es ∧
      (table []).setAll (Toml.entriesToValues es) = set x.steps (.text v) (table []) := by
  have single {name : String} (word : pathOf name = [name]) : ∃ es,
      Toml.addValue [name] (.text v) [] = some es ∧
        (table []).setAll (Toml.entriesToValues es) = set [name] (.text v) (table []) :=
    ⟨[(name, .value (.text v))], rfl,
      congrArg (fun path => set path (.text v) (table [])) word⟩
  have double {outer name : String} (word : pathOf outer = [outer]) : ∃ es,
      Toml.addValue [outer, name] (.text v) [] = some es ∧
        (table []).setAll (Toml.entriesToValues es) = set [outer, name] (.text v) (table []) :=
    ⟨[(outer, .table .dotted [(name, .value (.text v))])], rfl,
      congrArg (fun path => set path (table [(name, .text v)]) (table [])) word⟩
  cases x with
  | listenAddress | nodeId => exact single (by decide +kernel)
  | _ => exact double (by decide +kernel)

theorem fileTree?_file {ws : List Char} (x : TextSetting) (spelled : Toml.Spells v.toList ws) :
    fileTree? (some (x.file ws)) = some (set x.steps (.text v) (table [])) := by
  obtain ⟨es, added, same⟩ := setAll_addValue x v
  have words : ∀ p ∈ x.steps.map String.toList, Toml.IsWord p := by cases x <;> decide
  have names : (x.steps.map String.toList).map String.ofList = x.steps := by cases x <;> rfl
  obtain ⟨part, parts, steps⟩ : ∃ part parts, x.steps.map String.toList = part :: parts := by
    cases x <;> exact ⟨_, _, rfl⟩
  rw [steps] at words names
  rw [← names, ← String.ofList_toList (s := v)] at added
  rw [fileTree?, TextSetting.file, steps, Toml.parse?_line words spelled added, Option.map_some,
    same]

def tokensPath : List String := ["auth", "service_tokens"]

def tokensVar : String := "GSLB__AUTH__SERVICE_TOKENS"

theorem settingName?_tokensVar : settingName? tokensVar = some listName := by decide +kernel

theorem pathOf_listName : pathOf listName = tokensPath := by decide +kernel

theorem toTexts?_tokens {s : Settings} (h : ofValue? root = some s)
    (found : root.at? tokensPath = some w) : w.toTexts? = some s.auth.serviceTokens := by
  obtain ⟨es, read, own⟩ := section_of_at? (reads_of_ofValue? h found).auth found
  exact convert_of_fieldOr (authOf?_fields read).1 own

theorem validate_usual {s : Settings} (registry : s.registry = {})
    (interval : s.validator.intervalSeconds = 30) (timeout : s.validator.timeoutSeconds = 5)
    (workers : s.validator.maxConcurrent = 10) (queue : s.gossip.queueCapacity = 1000) :
    s.validate = s.gossip.key.map fun _ => () := by
  rw [validate, registry, interval, timeout, workers, queue, if_neg (by decide),
    if_neg (by decide), if_neg (by decide +kernel), if_neg (by decide), if_neg (by decide),
    if_neg (by decide)]

def Fits (path : List String) (u : SettingValue) : Prop :=
  ∀ t, ∃ s : Settings,
    ofValue? (set TextSetting.encryptionKey.steps (.text t) (set path u (table []))) = some s ∧
      s.validate = (GossipSettings.key { encryptionKey := t }).map fun _ => ()

theorem fits_text {x : TextSetting} (other : x.steps ≠ TextSetting.encryptionKey.steps)
    (v : String) : Fits x.steps (.text v) := by
  intro t
  cases x with
  | encryptionKey => exact absurd rfl other
  | _ => exact ⟨_, rfl, validate_usual rfl rfl rfl rfl rfl⟩

theorem fits_tokens (ts : List String) : Fits tokensPath (.list (ts.map .text)) := by
  intro t
  refine ⟨{ auth := { serviceTokens := ts }, gossip := { encryptionKey := t } }, ?_,
    validate_usual rfl rfl rfl rfl rfl⟩
  change ((toTexts? (.list (ts.map .text))).bind _).bind _ = _
  rw [toTexts?_list]
  rfl

theorem load_scalar_token (h : scalar? v = some w) (before : List (String × String))
    (clear : Clear tokensPath rest) (read : fileTree? file = some root) (o : SettingsOverrides) :
    load file (before ++ (tokensVar, v) :: rest) o = .error .unfit := by
  rw [load_variable read settingName?_tokensVar, pathOf_listName, ofTree]
  cases fits : ofValue? _ with
  | none => rfl
  | some t =>
    have texts := toTexts?_tokens fits (at?_of_clear clear (isLeaf_valueOf listName v) _)
    rw [valueOf_of_scalar? h, (scalar?_reads h).2.1] at texts
    cases texts

/-- The text of a variable does what a file does that holds a value at a path: with any file, and
any environment that leaves the path alone, the settings are the same; where there are settings,
they show it; and there are some if the variable stands alone with a key. -/
structure Carries (varName text : String) (path : List String) (u : SettingValue)
    (shown : SettingsOverrides → Settings → Prop) : Prop where
  asFile (before rest : List (String × String)) (o : SettingsOverrides)
    (file file' : Option String) : Clear path before → FileSets path u file file' →
      load file (before ++ (varName, text) :: rest) o = load file' (before ++ rest) o
  shows (before rest : List (String × String)) (o : SettingsOverrides) (file : Option String)
    (s : Settings) : Clear path rest →
      load file (before ++ (varName, text) :: rest) o = .ok s → shown o s
  loads (t : String) (k : Bytes) : path ≠ TextSetting.encryptionKey.steps →
    GossipSettings.key { encryptionKey := t } = .ok k →
      ∃ s, load none [(varName, text), (TextSetting.encryptionKey.varName, t)] {} = .ok s ∧
        shown {} s

def Shows (path : List String) (w : SettingValue) (shown : SettingsOverrides → Settings → Prop) :
    Prop :=
  ∀ (o : SettingsOverrides) (root : SettingValue) (s : Settings),
    ofValue? root = some s → root.at? path = some w → shown o (s.withOverrides o)

theorem shown_of_load {shown : SettingsOverrides → Settings → Prop} {s : Settings}
    (named : settingName? varName = some name) (shows : Shows (pathOf name) (valueOf name v) shown)
    (clear : Clear (pathOf name) rest) (h : load file (before ++ (varName, v) :: rest) o = .ok s) :
    shown o s := by
  obtain ⟨root, read⟩ := fileTree?_of_load h
  rw [load_variable read named] at h
  obtain ⟨t, fit, rfl⟩ := ofValue?_of_load h
  exact shows o _ t fit (at?_of_clear clear (isLeaf_valueOf name v) _)

theorem apart_key (known : IsTextPath path) (other : path ≠ TextSetting.encryptionKey.steps) :
    Apart TextSetting.encryptionKey.steps path := by
  cases known with
  | listen | node | store => exact ⟨by decide, by decide⟩
  | validator own | auth own => rcases own with rfl | rfl <;> exact ⟨by decide, by decide⟩
  | gossip own =>
    rcases own with rfl | rfl
    · exact ⟨by decide, by decide⟩
    · exact absurd rfl other

theorem environmentEntries_key {t : String} {k : Bytes}
    (h : GossipSettings.key { encryptionKey := t } = .ok k) :
    environmentEntries [(TextSetting.encryptionKey.varName, t)] =
      [(TextSetting.encryptionKey.name, .text t)] := by
  have plain := valueOf_of_none (scalar?_of_key h) TextSetting.encryptionKey.name
  rw [if_neg TextSetting.encryptionKey.name_ne_listName] at plain
  simp only [environmentEntries, List.filterMap_cons, List.filterMap_nil,
    TextSetting.settingName?_varName, Option.map_some, plain]

theorem load_beside_key {u : SettingValue} {t : String} {k : Bytes}
    (named : settingName? varName = some name) (known : IsTextPath (pathOf name))
    (alike : ReadsAlike (valueOf name v) u) (fits : Fits (pathOf name) u)
    (key : GossipSettings.key { encryptionKey := t } = .ok k) :
    ∃ s, load none [(varName, v), (TextSetting.encryptionKey.varName, t)] {} = .ok s := by
  obtain ⟨s, fit, valid⟩ := fits t
  have entries := environmentEntries_key key
  have leaves := isLeaf_environmentEntries [(TextSetting.encryptionKey.varName, t)]
  have same := ofValue?_alike known alike (given_set alike.leaf' (pathOf name) (table [])) leaves
  have last : (set (pathOf name) u (table [])).setAll [(TextSetting.encryptionKey.name, .text t)] =
      set TextSetting.encryptionKey.steps (.text t) (set (pathOf name) u (table [])) := by
    rw [← TextSetting.pathOf_name, setAll, List.foldl_cons, List.foldl_nil]
  have whole : ofTree {} ((set (pathOf name) (valueOf name v) (table [])).setAll
      (environmentEntries [(TextSetting.encryptionKey.varName, t)])) = .ok s := by
    have valid : (s.withOverrides {}).validate = .ok () := by
      change s.validate = _
      rw [valid, key]
      rfl
    rw [ofTree, same, entries, last, fit]
    dsimp only
    rw [valid]
    rfl
  refine ⟨s, ?_⟩
  rw [← whole]
  exact load_variable rfl named [] _ v {}

theorem carries {u : SettingValue} {shown : SettingsOverrides → Settings → Prop}
    (named : settingName? varName = some name) (known : IsTextPath (pathOf name))
    (alike : ReadsAlike (valueOf name v) u) (shows : Shows (pathOf name) (valueOf name v) shown)
    (fits : pathOf name ≠ TextSetting.encryptionKey.steps → Fits (pathOf name) u) :
    Carries varName v (pathOf name) u shown where
  asFile before rest o file file' clear sets := by
    obtain ⟨root, root', read, read', given⟩ := sets
    have behind := given.setAll_apart (isLeaf_environmentEntries before) clear
    have entries : environmentEntries (before ++ rest) =
        environmentEntries before ++ environmentEntries rest := List.filterMap_append
    rw [load_variable read named, load_of_fileTree? read', entries, setAll_append, ofTree, ofTree,
      ofValue?_alike known alike behind (isLeaf_environmentEntries rest)]
  shows before rest o file s clear h := shown_of_load named shows clear h
  loads t k other key := by
    obtain ⟨s, h⟩ := load_beside_key named known alike (fits other) key
    have clear : Clear (pathOf name) [(TextSetting.encryptionKey.varName, t)] := by
      rw [Clear, environmentEntries_key key]
      rintro e he
      rw [List.mem_singleton.1 he, TextSetting.pathOf_name]
      exact apart_key known other
    rw [← List.nil_append ((varName, v) :: _)] at h
    exact ⟨s, h, shown_of_load named shows clear h⟩

theorem carries_text (x : TextSetting) (v : String) :
    Carries x.varName v x.steps (.text (reading v)) fun o s =>
      x.get s = some ((x.override? o).getD (reading v)) := by
  have alike := valueOf_readsAlike x.name_ne_listName v
  have shows : Shows (pathOf x.name) (valueOf x.name v) fun o s =>
      x.get s = some ((x.override? o).getD (reading v)) := by
    intro o root s fit found
    rw [x.pathOf_name] at found
    exact x.get_withOverrides o ((x.get_eq_toText? fit found).trans alike.text)
  have known : IsTextPath (pathOf x.name) := x.pathOf_name ▸ x.isTextPath_steps
  have carried := carries x.settingName?_varName known alike shows fun other => by
    rw [x.pathOf_name] at other ⊢
    exact fits_text other (reading v)
  rwa [x.pathOf_name] at carried

theorem carries_tokens {ts : List String} (some_token : ts ≠ []) (apart : ∀ t ∈ ts, ',' ∉ t.toList)
    (single : ∀ t, ts = [t] → scalar? t = none) :
    Carries tokensVar (",".intercalate ts) tokensPath (.list (ts.map .text)) fun _ s =>
      s.auth.serviceTokens = ts := by
  have value := valueOf_tokens some_token apart (scalar?_tokens some_token single)
  have leaf := isLeaf_valueOf listName (",".intercalate ts)
  have alike : ReadsAlike (valueOf listName (",".intercalate ts)) (.list (ts.map .text)) := by
    rw [value] at leaf ⊢
    exact ⟨leaf, leaf, rfl, rfl⟩
  have shows : Shows (pathOf listName) (valueOf listName (",".intercalate ts)) fun _ s =>
      s.auth.serviceTokens = ts := by
    intro o root s fit found
    rw [pathOf_listName, value] at found
    have texts := toTexts?_tokens fit found
    rw [toTexts?_list] at texts
    exact (Option.some.inj texts).symm
  have known : IsTextPath (pathOf listName) := pathOf_listName ▸ .auth (.inl rfl)
  have carried := carries settingName?_tokensVar known alike shows fun _ => by
    rw [pathOf_listName]
    exact fits_tokens ts
  rwa [pathOf_listName] at carried

/-- A variable does for a text what a file does, in any spelling of the text, and for tokens what a
file does that lists them; but what reads as a truth value or a number becomes the text of that, and
is refused as a single token. No text with another character than those of numbers, and so no key
that is accepted, reads so. -/
theorem texts_from_environment (x : TextSetting) (v : String) :
    (Carries x.varName v x.steps (.text (reading v)) fun o s =>
      x.get s = some ((x.override? o).getD (reading v))) ∧
    (∃ ws, Toml.Spells v.toList ws) ∧
    (∀ ws, Toml.Spells v.toList ws → FileSets x.steps (.text v) none (some (x.file ws))) ∧
    (reading v = v ↔ ∀ w, scalar? v = some w → w.toText? = some v) ∧
    (∀ c ∈ v.toList, ¬ Literal.isNumeral c → reading v = v) ∧
    (∀ k, GossipSettings.key { encryptionKey := v } = .ok k → reading v = v) ∧
    (∀ ts : List String, ts ≠ [] → (∀ t ∈ ts, ',' ∉ t.toList) →
      (∀ t, ts = [t] → scalar? t = none) →
        Carries tokensVar (",".intercalate ts) tokensPath (.list (ts.map .text)) fun _ s =>
          s.auth.serviceTokens = ts) ∧
    ∀ (w root : SettingValue) (file : Option String) (before rest : List (String × String))
      (o : SettingsOverrides), scalar? v = some w → Clear tokensPath rest →
        fileTree? file = some root →
          load file (before ++ (tokensVar, v) :: rest) o = .error .unfit := by
  refine ⟨carries_text x v, Toml.exists_spells v.toList, fun ws spelled => ?_, reading_eq_self_iff,
    fun c hc other => reading_of_none (scalar?_of_other_char hc other),
    fun k key => reading_of_none (scalar?_of_key key),
    fun ts some_token apart single => carries_tokens some_token apart single,
    fun w root file before rest o h clear read => load_scalar_token h before clear read o⟩
  exact ⟨table [], _, rfl, fileTree?_file x spelled, given_set (isLeaf_text v) x.steps _⟩

def keyVariable : String × String := (TextSetting.encryptionKey.varName, countingText)

theorem texts_from_environment_of_node :
    load none [("GSLB__NODE_ID", "007"), keyVariable] {} =
        load (some "node_id = \"7\"") [keyVariable] {} ∧
      (∃ s, load none [("GSLB__NODE_ID", "007"), keyVariable] {} = .ok s ∧ s.nodeId = some "7") ∧
      (∀ s, load none [("GSLB__NODE_ID", "007"), keyVariable] {} = .ok s → s.nodeId = some "7") ∧
      reading "http://10.0.0.1" = "http://10.0.0.1" ∧ reading countingText = countingText ∧
      (∃ s, load none [(tokensVar, "12,34"), keyVariable] {} = .ok s ∧
        s.auth.serviceTokens = ["12", "34"]) ∧
      load none [(tokensVar, "12345678"), keyVariable] {} = .error .unfit := by
  have accepted : GossipSettings.key { encryptionKey := countingText } = .ok countingKey := by
    decide +kernel
  have read : reading "007" = "7" := by decide +kernel
  obtain ⟨node, -⟩ := texts_from_environment .nodeId "007"
  obtain ⟨-, -, written, -⟩ := texts_from_environment .nodeId "7"
  obtain ⟨-, -, -, -, other, -⟩ := texts_from_environment .redisUrl "http://10.0.0.1"
  obtain ⟨-, -, -, -, -, key, tokens, -⟩ := texts_from_environment .encryptionKey countingText
  obtain ⟨-, -, -, -, -, -, -, refused⟩ := texts_from_environment .nodeId "12345678"
  rw [read] at node
  refine ⟨?_, ?_, ?_, ?_, ?_, ?_, ?_⟩
  · have seven : Toml.Spells "7".toList "7".toList :=
      .cons (.plain (by decide) (by decide) (by decide)) .nil
    have source : TextSetting.nodeId.file "7".toList = "node_id = \"7\"" := by decide +kernel
    have sets := written "7".toList seven
    rw [source] at sets
    exact node.asFile [] [keyVariable] {} none _ (fun _ h => (nomatch h)) sets
  · exact node.loads countingText countingKey (by decide) accepted
  · exact fun s => node.shows [] [keyVariable] {} none s (by unfold Clear Apart; decide +kernel)
  · exact other ':' (by decide) (by decide)
  · exact key countingKey accepted
  · have parts := tokens ["12", "34"] (by decide) (by decide) fun t h => by cases h
    exact parts.loads countingText countingKey (by decide) accepted
  · obtain ⟨w, whole⟩ := Option.isSome_iff_exists.1
      (show (scalar? "12345678").isSome = true by decide +kernel)
    exact refused w (table []) none [] [keyVariable] {} whole
      (by unfold Clear Apart; decide +kernel) rfl

theorem variable_changes_text :
    (load none [("GSLB__NODE_ID", "007"), keyVariable] {}).toOption.map (·.nodeId) =
        some (some "7") ∧
      (load (some "node_id = \"007\"") [keyVariable] {}).toOption.map (·.nodeId) =
        some (some "007") ∧
      (load none [(tokensVar, "12345678"), keyVariable] {}).isOk = false ∧
      (load (some "auth.service_tokens = [\"12345678\"]") [keyVariable] {}).toOption.map
        (·.auth.serviceTokens) = some ["12345678"] := by
  decide +kernel

end Settings

end HealthConsensus
