import HealthConsensus.Proofs.Settings.Trees

namespace HealthConsensus

open SettingValue

inductive IsTextPath : List String → Prop
  | listen : IsTextPath ["listen_addr"]
  | node : IsTextPath ["node_id"]
  | validator {name : String} : name = "scheme" ∨ name = "path" → IsTextPath ["validator", name]
  | gossip {name : String} : name = "bind_addr" ∨ name = "encryption_key" →
      IsTextPath ["gossip", name]
  | auth {name : String} : name = "service_tokens" ∨ name = "region_prefix" →
      IsTextPath ["auth", name]
  | store : IsTextPath ["store", "redis_url"]

namespace Settings

inductive IsTextField : {β : Type} → (SettingValue → Option β) → String → Prop
  | validator {name : String} : name = "scheme" ∨ name = "path" → IsTextField validatorOf? name
  | gossip {name : String} : name = "bind_addr" ∨ name = "encryption_key" →
      IsTextField gossipOf? name
  | auth {name : String} : name = "service_tokens" ∨ name = "region_prefix" →
      IsTextField authOf? name
  | store : IsTextField storeOf? "redis_url"

variable {α : Type} {a b v : SettingValue} {path : List String} {name : String}

theorem fieldOr_congr {f : SettingValue → Option α} {o o' : Option SettingValue} (d : α)
    (hf : ∀ u v, SameBut path u v → f u = f v) (same : Option.Rel (SameBut path) o o') :
    fieldOr d f o = fieldOr d f o' := by
  cases same with
  | none => rfl
  | some inner => exact hf _ _ inner

theorem toText?_congr (u v : SettingValue) (same : SameBut [] u v) : u.toText? = v.toText? := by
  rcases same with rfl | alike
  · rfl
  · exact alike.text

theorem toTexts?_congr (u v : SettingValue) (same : SameBut [] u v) : u.toTexts? = v.toTexts? := by
  rcases same with rfl | alike
  · rfl
  · exact alike.texts

theorem fields?_table (names : List String) (es : List (String × SettingValue)) :
    (table es).fields? names = some (names.map fun name => (table es).child? name) := rfl

theorem IsTextField.congr {f : SettingValue → Option α} (own : IsTextField f name)
    (a b : SettingValue) (same : SameBut [name] a b) : f a = f b := by
  rcases same with rfl | ⟨es, fs, rfl, rfl, others, here⟩
  · rfl
  · have text (d : String) := fieldOr_congr d toText?_congr here
    have texts (d : List String) := fieldOr_congr d toTexts?_congr here
    cases own with
    | validator own =>
      rcases own with rfl | rfl <;>
        simp (disch := decide) only [validatorOf?, fields?_table, List.map_cons, List.map_nil,
          Option.bind_eq_bind, Option.bind_some, others, text]
    | gossip own =>
      rcases own with rfl | rfl <;>
        simp (disch := decide) only [gossipOf?, fields?_table, List.map_cons, List.map_nil,
          Option.bind_eq_bind, Option.bind_some, others, text]
    | auth own =>
      rcases own with rfl | rfl <;>
        simp (disch := decide) only [authOf?, fields?_table, List.map_cons, List.map_nil,
          Option.bind_eq_bind, Option.bind_some, others, text, texts]
    | store =>
      simp (disch := decide) only [storeOf?, fields?_table, List.map_cons, List.map_nil,
        Option.bind_eq_bind, Option.bind_some, others, text]

theorem toNodeId_congr (u v : SettingValue) (same : SameBut [] u v) :
    u.toText?.map some = v.toText?.map some := congrArg _ (toText?_congr u v same)

theorem ofValue?_congr (known : IsTextPath path) (same : SameBut path a b) :
    ofValue? a = ofValue? b := by
  cases path with
  | nil => cases known
  | cons name path =>
    rcases same with rfl | ⟨es, fs, rfl, rfl, others, here⟩
    · rfl
    · simp only [ofValue?, fields?_table, List.map_cons, List.map_nil, Option.bind_eq_bind,
        Option.bind_some]
      cases known with
      | listen =>
        simp (disch := decide) only [others, fieldOr_congr "127.0.0.1:8080" toText?_congr here]
      | node => simp (disch := decide) only [others, fieldOr_congr none toNodeId_congr here]
      | validator own =>
        simp (disch := decide) only [others, fieldOr_congr {} (IsTextField.validator own).congr here]
      | gossip own =>
        simp (disch := decide) only [others, fieldOr_congr {} (IsTextField.gossip own).congr here]
      | auth own => simp (disch := decide) only [others, fieldOr_congr {} (IsTextField.auth own).congr here]
      | store => simp (disch := decide) only [others, fieldOr_congr {} IsTextField.store.congr here]

section Fields

variable {es : List (String × SettingValue)}

theorem validatorOf?_fields {t : ValidatorSettings} (h : validatorOf? (table es) = some t) :
    fieldOr "http" toText? ((table es).child? "scheme") = some t.scheme ∧
      fieldOr "/health" toText? ((table es).child? "path") = some t.path := by
  simp only [validatorOf?, fields?_table, List.map_cons, List.map_nil, Option.bind_eq_bind,
    Option.bind_some, Option.bind_eq_some_iff] at h
  obtain ⟨_, -, _, -, _, -, _, -, _, -, scheme, hs, path, hp, h⟩ := h
  cases h
  exact ⟨hs, hp⟩

theorem gossipOf?_fields {t : GossipSettings} (h : gossipOf? (table es) = some t) :
    fieldOr "0.0.0.0:7946" toText? ((table es).child? "bind_addr") = some t.bindAddress ∧
      fieldOr "" toText? ((table es).child? "encryption_key") = some t.encryptionKey := by
  simp only [gossipOf?, fields?_table, List.map_cons, List.map_nil, Option.bind_eq_bind,
    Option.bind_some, Option.bind_eq_some_iff] at h
  obtain ⟨bind, hb, key, hk, _, -, _, -, h⟩ := h
  cases h
  exact ⟨hb, hk⟩

theorem authOf?_fields {t : AuthSettings} (h : authOf? (table es) = some t) :
    fieldOr [] toTexts? ((table es).child? "service_tokens") = some t.serviceTokens ∧
      fieldOr "gslb-agent" toText? ((table es).child? "region_prefix") = some t.regionStart := by
  simp only [authOf?, fields?_table, List.map_cons, List.map_nil, Option.bind_eq_bind,
    Option.bind_some, Option.bind_eq_some_iff] at h
  obtain ⟨tokens, ht, start, hs, h⟩ := h
  cases h
  exact ⟨ht, hs⟩

theorem storeOf?_fields {t : StoreSettings} (h : storeOf? (table es) = some t) :
    fieldOr "redis://127.0.0.1:6379" toText? ((table es).child? "redis_url") = some t.redisUrl := by
  simp only [storeOf?, fields?_table, List.map_cons, List.map_nil, Option.bind_eq_bind,
    Option.bind_some, Option.bind_eq_some_iff] at h
  obtain ⟨_, -, url, hu, h⟩ := h
  cases h
  exact hu

structure Reads (v : SettingValue) (s : Settings) : Prop where
  listen : fieldOr "127.0.0.1:8080" toText? (v.child? "listen_addr") = some s.listenAddress
  node : fieldOr none (fun w => w.toText?.map some) (v.child? "node_id") = some s.nodeId
  validator : fieldOr {} validatorOf? (v.child? "validator") = some s.validator
  gossip : fieldOr {} gossipOf? (v.child? "gossip") = some s.gossip
  auth : fieldOr {} authOf? (v.child? "auth") = some s.auth
  store : fieldOr {} storeOf? (v.child? "store") = some s.store

theorem reads_of_table {s : Settings} (h : ofValue? (table es) = some s) :
    Reads (table es) s := by
  simp only [ofValue?, fields?_table, List.map_cons, List.map_nil, Option.bind_eq_bind,
    Option.bind_some, Option.bind_eq_some_iff] at h
  obtain ⟨listen, hl, node, hn, _, -, validator, hv, gossip, hg, auth, ha, store, hs, h⟩ := h
  cases h
  exact ⟨hl, hn, hv, hg, ha, hs⟩

theorem reads_of_ofValue? {s : Settings} (h : ofValue? a = some s)
    (found : a.at? (name :: path) = some v) : Reads a s := by
  obtain ⟨inner, own, -⟩ := Option.bind_eq_some_iff.1 found
  obtain ⟨es, rfl⟩ := exists_table_of_child? own
  exact reads_of_table h

theorem section_of_at? {f : SettingValue → Option α} {d t : α} {outer : String}
    (h : fieldOr d f (a.child? outer) = some t) (found : a.at? [outer, name] = some v) :
    ∃ es, f (table es) = some t ∧ (table es).child? name = some v := by
  obtain ⟨inner, own, found⟩ := Option.bind_eq_some_iff.1 found
  obtain ⟨w, here, same⟩ := Option.bind_eq_some_iff.1 found
  cases same
  obtain ⟨es, rfl⟩ := exists_table_of_child? here
  rw [own] at h
  exact ⟨es, h, here⟩

theorem convert_of_fieldOr {f : SettingValue → Option α} {d t : α} {o : Option SettingValue}
    (h : fieldOr d f o = some t) (found : o = some v) : f v = some t := by
  subst found
  exact h

end Fields

end Settings

end HealthConsensus
