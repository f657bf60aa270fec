import HealthConsensus.Node.Basic
import HealthConsensus.Proofs.Loading
import HealthConsensus.Proofs.Store.Contents

namespace HealthConsensus

abbrev Found := String → Option Bytes

def Contents.found (c : Contents) : Found := fun k => c.get? k

namespace StoreWrite

def overlay (f : Found) : StoreWrite → Found
  | put k v => Function.update f k (some v)
  | delete k => Function.update f k none

theorem overlay_of_ne {f : Found} {w : StoreWrite} {s : String} (h : s ≠ w.key) :
    w.overlay f s = f s := by
  cases w <;> exact Function.update_of_ne h _ _

theorem overlay_congr {f g : Found} {s : String} (h : f s = g s) (w : StoreWrite) :
    w.overlay f s = w.overlay g s := by
  cases w with
  | put k v =>
    simp only [overlay, Function.update_apply, h]
  | delete k =>
    simp only [overlay, Function.update_apply, h]

def replay (ws : List StoreWrite) (f : Found) : Found := ws.foldl overlay f

theorem replay_append (ws ws' : List StoreWrite) (f : Found) :
    replay (ws ++ ws') f = replay ws' (replay ws f) := List.foldl_append

theorem replay_of_ne {ws : List StoreWrite} {f : Found} {s : String} (h : ∀ w ∈ ws, s ≠ w.key) :
    replay ws f s = f s := by
  induction ws generalizing f with
  | nil => rfl
  | cons w ws ih =>
    exact (ih fun w' hw => h w' (List.mem_cons_of_mem w hw)).trans
      (overlay_of_ne (h w List.mem_cons_self))

theorem replay_congr {f g : Found} {s : String} (h : f s = g s) (ws : List StoreWrite) :
    replay ws f s = replay ws g s := by
  induction ws generalizing f g with
  | nil => exact h
  | cons w ws ih => exact ih (overlay_congr h w)

end StoreWrite

variable {κ ν : Type}

structure Filing (K : RecordKind κ ν) where
  folder : String
  storeKey : κ → String
  text : ν → Bytes
  put : ∀ b, (K.put b).storeWrite = .put (storeKey (K.key b)) (text b)
  drop : ∀ k, (K.drop k).storeWrite = .delete (storeKey k)
  inFolder : ∀ k, startsWith folder (storeKey k) = true

structure Mirrors {K : RecordKind κ ν} (F : Filing K) (v : κ → Option ν) (f : Found) : Prop where
  kept : ∀ k b, v k = some b → f (F.storeKey k) = some (F.text b)
  only : ∀ s x, startsWith F.folder s = true → f s = some x →
    ∃ k b, v k = some b ∧ F.storeKey k = s

section Moves

variable {K : RecordKind κ ν} {F : Filing K} {v v' : κ → Option ν} {m : Move ν}
  {ms : List (Move ν)} {f g : Found}

theorem Mirrors.congr (h : Mirrors F v f) (same : ∀ s, startsWith F.folder s = true → g s = f s) :
    Mirrors F v g where
  kept k b hk := (same _ (F.inFolder k)).trans (h.kept k b hk)
  only s x hs hx := h.only s x hs ((same s hs).symm.trans hx)

theorem Filing.writes_inFolder {w : RecordWrite} (h : w ∈ m.writes K) :
    startsWith F.folder w.storeWrite.key = true := by
  cases m with
  | create b =>
    rw [List.mem_singleton.1 h, F.put]
    exact F.inFolder _
  | renew b next =>
    rw [List.mem_singleton.1 h, F.put]
    exact F.inFolder _
  | remove b =>
    rw [List.mem_singleton.1 h, F.drop]
    exact F.inFolder _

theorem Filing.overlay_writes (F : Filing K) (h : m.Fits K v) (f : Found) :
    StoreWrite.replay ((m.writes K).map RecordWrite.storeWrite) f =
      Function.update f (F.storeKey (m.key K)) (m.after.map F.text) := by
  cases m with
  | create b =>
    change (K.put b).storeWrite.overlay f = _
    rw [F.put]
    rfl
  | renew b next =>
    have key : K.key next = K.key b := h.keeps next rfl
    change (K.put next).storeWrite.overlay f = _
    rw [F.put, key]
    rfl
  | remove b =>
    change (K.drop (K.key b)).storeWrite.overlay f = _
    rw [F.drop]
    rfl

structure CatchesUp {K : RecordKind κ ν} (F : Filing K) (v : κ → Option ν) (ws : List StoreWrite)
    (f : Found) : Prop where
  mirrors : Mirrors F v (StoreWrite.replay ws f)
  inFolder : ∀ w ∈ ws, startsWith F.folder w.key = true

theorem CatchesUp.advance {first later : List StoreWrite} (h : CatchesUp F v (first ++ later) f) :
    CatchesUp F v later (StoreWrite.replay first f) where
  mirrors := StoreWrite.replay_append first later f ▸ h.mirrors
  inFolder w hw := h.inFolder w (List.mem_append_right first hw)

theorem CatchesUp.done {ws : List StoreWrite} (h : CatchesUp F v ws f) :
    CatchesUp F v [] (StoreWrite.replay ws f) := ⟨h.mirrors, fun _ hw => nomatch hw⟩

theorem CatchesUp.elsewhere {ws others : List StoreWrite} (h : CatchesUp F v ws f)
    (outside : ∀ w ∈ others, startsWith F.folder w.key = false) :
    CatchesUp F v ws (StoreWrite.replay others f) where
  mirrors := h.mirrors.congr fun s hs => by
    refine StoreWrite.replay_congr (StoreWrite.replay_of_ne fun w hw same => ?_) ws
    rw [same, outside w hw] at hs
    cases hs
  inFolder := h.inFolder

variable [DecidableEq κ]

theorem Mirrors.move (h : Mirrors F v f) (fits : m.Fits K v)
    (apart : ∀ k b, v k = some b → F.storeKey k = F.storeKey (m.key K) → k = m.key K) :
    Mirrors F (m.apply K v)
      (StoreWrite.replay ((m.writes K).map RecordWrite.storeWrite) f) := by
  rw [F.overlay_writes fits]
  refine ⟨fun k b hk => ?_, fun s x hs hx => ?_⟩
  · rw [Move.apply, Function.update_apply] at hk
    split at hk
    · next same =>
      subst same
      rw [Function.update_self, hk]
      rfl
    · next other =>
      have elsewhere : F.storeKey k ≠ F.storeKey (m.key K) := fun same => other (apart k b hk same)
      rw [Function.update_of_ne elsewhere]
      exact h.kept k b hk
  · rw [Function.update_apply] at hx
    split at hx
    · next same =>
      obtain ⟨b, after, -⟩ := Option.map_eq_some_iff.1 hx
      exact ⟨m.key K, b, (Function.update_self _ _ _).trans after, same.symm⟩
    · next other =>
      obtain ⟨k, b, hk, rfl⟩ := h.only s x hs hx
      have elsewhere : k ≠ m.key K := fun same => other (same ▸ rfl)
      exact ⟨k, b, (Function.update_of_ne elsewhere _ _).trans hk, rfl⟩

def Appears (K : RecordKind κ ν) (v : κ → Option ν) (ms : List (Move ν)) (k : κ) : Prop :=
  (v k).isSome ∨ ∃ m ∈ ms, m.key K = k

theorem Appears.of_apply {k : κ} (h : Appears K (m.apply K v) ms k) :
    Appears K v (m :: ms) k := by
  by_cases same : m.key K = k
  · exact .inr ⟨m, List.mem_cons_self, same⟩
  · rcases h with there | ⟨m', hm, key⟩
    · rw [Move.apply, Function.update_of_ne (Ne.symm same)] at there
      exact .inl there
    · exact .inr ⟨m', List.mem_cons_of_mem m hm, key⟩

theorem Mirrors.path (path : Path K v ms v') (h : Mirrors F v f)
    (apart : ∀ k k', Appears K v ms k → Appears K v ms k' → F.storeKey k = F.storeKey k' → k = k') :
    Mirrors F v' (StoreWrite.replay ((ms.flatMap (Move.writes K)).map RecordWrite.storeWrite) f) := by
  induction path generalizing f with
  | nil v => exact h
  | @cons v v' m ms fits _ ih =>
    have here : Appears K v (m :: ms) (m.key K) := .inr ⟨m, List.mem_cons_self, rfl⟩
    have moved := h.move fits fun k b hk same => apart k _ (.inl (hk ▸ rfl)) here same
    rw [List.flatMap_cons, List.map_append, StoreWrite.replay_append]
    exact ih moved fun k k' hk hk' => apart k k' hk.of_apply hk'.of_apply

theorem Path.isSome_of_growing (path : Path K v ms v') (grows : ∀ m ∈ ms, m.after.isSome = true)
    {k : κ} (h : Appears K v ms k) : (v' k).isSome = true := by
  induction path with
  | nil v =>
    rcases h with there | ⟨_, hm, _⟩
    · exact there
    · cases hm
  | @cons v v' m ms fits _ ih =>
    refine ih (fun m' hm => grows m' (List.mem_cons_of_mem m hm)) ?_
    have after := grows m List.mem_cons_self
    rcases h with there | ⟨m', hm, key⟩
    · by_cases same : k = m.key K
      · exact .inl (by rw [Move.apply, same, Function.update_self, after])
      · exact .inl (by rw [Move.apply, Function.update_of_ne same, there])
    · rcases List.mem_cons.1 hm with rfl | hm
      · exact .inl (by rw [Move.apply, ← key, Function.update_self, after])
      · exact .inr ⟨m', hm, key⟩

theorem Path.isSome_of_shrinking (path : Path K v ms v')
    (shrinks : ∀ m ∈ ms, m.before.isSome = true) {k : κ} (h : Appears K v ms k) :
    (v k).isSome = true := by
  induction path with
  | nil v =>
    rcases h with there | ⟨_, hm, _⟩
    · exact there
    · cases hm
  | @cons v v' m ms fits _ ih =>
    have found : (v (m.key K)).isSome = true := by
      rw [fits.found]
      exact shrinks m List.mem_cons_self
    rcases h with there | ⟨m', hm, key⟩
    · exact there
    · rcases List.mem_cons.1 hm with rfl | hm
      · exact key ▸ found
      · have later := ih (fun m' hm => shrinks m' (List.mem_cons_of_mem m hm)) (.inr ⟨m', hm, key⟩)
        by_cases same : k = m.key K
        · exact same ▸ found
        · rwa [Move.apply, Function.update_of_ne same] at later

theorem CatchesUp.extend {ws : List StoreWrite} (h : CatchesUp F v ws f) (path : Path K v ms v')
    (apart : ∀ k k', Appears K v ms k → Appears K v ms k' → F.storeKey k = F.storeKey k' → k = k') :
    CatchesUp F v' (ws ++ (ms.flatMap (Move.writes K)).map RecordWrite.storeWrite) f where
  mirrors := by
    rw [StoreWrite.replay_append]
    exact h.mirrors.path path apart
  inFolder w hw := by
    rcases List.mem_append.1 hw with hw | hw
    · exact h.inFolder w hw
    · obtain ⟨record, there, rfl⟩ := List.mem_map.1 hw
      obtain ⟨m, -, hm⟩ := List.mem_flatMap.1 there
      exact F.writes_inFolder hm

end Moves

section Loading

variable {K : RecordKind κ ν} {F : Filing K} {v : κ → Option ν} {c : Contents}
  {read : Bytes → Option ν} {g : ν → ν}

def Filing.listed (F : Filing K) (read : Bytes → Option ν) (c : Contents) : List ν :=
  (c.under F.folder).filterMap fun e => read e.2

theorem Mirrors.entry (h : Mirrors F v c.found)
    (reads : ∀ k b, v k = some b → read (F.text b) = some (g b)) {e : String × Bytes} {b' : ν}
    (he : e ∈ c.under F.folder) (hb : read e.2 = some b') :
    ∃ k b, v k = some b ∧ F.storeKey k = e.1 ∧ b' = g b := by
  obtain ⟨found, inside⟩ := Contents.mem_under_iff.1 he
  obtain ⟨k, b, there, own⟩ := h.only e.1 e.2 inside found
  have text : some e.2 = some (F.text b) := found.symm.trans (own ▸ h.kept k b there)
  rw [Option.some.inj text, reads k b there] at hb
  exact ⟨k, b, there, own, (Option.some.inj hb).symm⟩

theorem Mirrors.mem_listed_iff (h : Mirrors F v c.found)
    (reads : ∀ k b, v k = some b → read (F.text b) = some (g b)) {b' : ν} :
    b' ∈ F.listed read c ↔ ∃ k b, v k = some b ∧ b' = g b := by
  rw [Filing.listed, List.mem_filterMap]
  constructor
  · rintro ⟨e, he, hb⟩
    obtain ⟨k, b, there, -, rfl⟩ := h.entry reads he hb
    exact ⟨k, b, there, rfl⟩
  · rintro ⟨k, b, there, rfl⟩
    exact ⟨(F.storeKey k, F.text b), Contents.mem_under_iff.2 ⟨h.kept k b there, F.inFolder k⟩,
      reads k b there⟩

theorem Mirrors.listed_distinct (h : Mirrors F v c.found) (keyed : K.Keyed v)
    (reads : ∀ k b, v k = some b → read (F.text b) = some (g b))
    (keeps : ∀ b, K.key (g b) = K.key b) : ((F.listed read c).map K.key).Nodup := by
  have apart : (c.under F.folder).Pairwise fun a b => a.1 ≠ b.1 := by
    rw [Contents.under_eq_filter]
    exact (c.sorted.imp String.ne_of_lt).filter _
  refine List.pairwise_map.2 (List.pairwise_filterMap.2 (apart.imp_of_mem ?_))
  intro e e' he he' other b hb b' hb' same
  obtain ⟨k, x, there, own, rfl⟩ := h.entry reads he hb
  obtain ⟨k', x', there', own', rfl⟩ := h.entry reads he' hb'
  rw [keeps, keeps, keyed k x there, keyed k' x' there'] at same
  exact other (own ▸ own' ▸ same ▸ rfl)

variable [DecidableEq κ]

theorem Mirrors.restored (h : Mirrors F v c.found) (keyed : K.Keyed v)
    (reads : ∀ k b, v k = some b → read (F.text b) = some (g b))
    (keeps : ∀ b, K.key (g b) = K.key b) (k : κ) :
    (Table.empty.setAll K.key (F.listed read c)).view k = (v k).map g := by
  have distinct := h.listed_distinct keyed reads keeps
  apply Option.ext
  intro b'
  rw [Table.view_setAll_eq_some_iff K.key distinct, h.mem_listed_iff reads, Option.map_eq_some_iff]
  constructor
  · rintro ⟨⟨k', b, there, rfl⟩, key⟩
    have same : k' = k := by rw [← keyed k' b there, ← keeps, key]
    exact ⟨b, same ▸ there, rfl⟩
  · rintro ⟨b, there, rfl⟩
    exact ⟨⟨k, b, there, rfl⟩, (keeps b).trans (keyed k b there)⟩

end Loading

end HealthConsensus
