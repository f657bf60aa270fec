import HealthConsensus.Settings.Basic
import HealthConsensus.Proofs.Text.Base64
import Mathlib.Logic.ExistsUnique

namespace HealthConsensus

open Base64

theorem dropBlanks_eq_self {cs : List Char} (h : ∀ c ∈ cs, isBlank c = false) :
    dropBlanks cs = cs := by
  cases cs with
  | nil => rfl
  | cons c cs => simp [dropBlanks, h c List.mem_cons_self]

theorem trimBlanks_eq_self {s : String} (h : ∀ c ∈ s.toList, isBlank c = false) :
    trimBlanks s = s := by
  have backwards : ∀ c ∈ s.toList.reverse, isBlank c = false := fun c hc =>
    h c (List.mem_reverse.1 hc)
  rw [trimBlanks, dropBlanks_eq_self h, dropBlanks_eq_self backwards, List.reverse_reverse,
    String.ofList_toList]

namespace GossipSettings

variable {s : GossipSettings} {k : Bytes}

theorem trimBlanks_empty : trimBlanks "" = "" := by decide

theorem key_eq_ok_iff :
    s.key = .ok k ↔ k.length = 32 ∧ trimBlanks s.encryptionKey = Base64.text k := by
  unfold key
  split
  · next empty =>
    -- no key of 32 bytes has an empty text
    have missing : s.encryptionKey = "" := by simpa using empty
    refine ⟨fun h => (nomatch h), fun ⟨length, same⟩ => ?_⟩
    rw [missing, trimBlanks_empty, ← Bytes.ofString_inj, ← encode_eq, ← decode?_eq_some_iff] at same
    cases same
    cases length
  · rw [← Bytes.ofString_inj, ← encode_eq, ← decode?_eq_some_iff]
    split
    · next failed => simp [failed]
    · next bs read =>
      rw [read, Option.some.injEq]
      split
      · next length =>
        rw [Except.ok.injEq]
        exact ⟨fun same => ⟨same ▸ length, same⟩, And.right⟩
      · next length =>
        refine ⟨fun h => (nomatch h), fun ⟨length', same⟩ => ?_⟩
        exact absurd (same ▸ length') length

theorem key_error (h : ∀ k, s.key ≠ .ok k) : ∃ reason, s.key = .error (.config reason) := by
  cases result : s.key with
  | ok k => exact absurd result (h k)
  | error e =>
    unfold key at result
    split at result
    · cases result
      exact ⟨_, rfl⟩
    · split at result
      · cases result
        exact ⟨_, rfl⟩
      · split at result
        · cases result
        · cases result
          exact ⟨_, rfl⟩

end GossipSettings

namespace Settings

variable {s : Settings}

theorem validate_error_of_key {reason : String} (h : s.gossip.key = .error (.config reason)) :
    ∃ reason, s.validate = .error (.config reason) := by
  unfold validate
  repeat' split
  · exact ⟨_, rfl⟩
  · exact ⟨_, rfl⟩
  · exact ⟨_, rfl⟩
  · exact ⟨_, rfl⟩
  · exact ⟨_, rfl⟩
  · exact ⟨_, rfl⟩
  · rw [h]
    exact ⟨reason, rfl⟩

/-- A key is read from its Base64 text with any blanks around it, so that each key has one text
without blanks; where the text is that of no key, both the key and the settings are refused. -/
theorem key_text_canonical :
    (∀ (g : GossipSettings) (k : Bytes),
      g.key = .ok k ↔ k.length = 32 ∧ trimBlanks g.encryptionKey = Base64.text k) ∧
    (∀ k : Bytes, k.length = 32 → ∃! t : String,
      trimBlanks t = t ∧ GossipSettings.key { encryptionKey := t } = .ok k) ∧
    ∀ s : Settings,
      (∀ k : Bytes, k.length = 32 → trimBlanks s.gossip.encryptionKey ≠ Base64.text k) →
        (∃ reason, s.gossip.key = .error (.config reason)) ∧
          ∃ reason, s.validate = .error (.config reason) := by
  refine ⟨fun g k => GossipSettings.key_eq_ok_iff, fun k length => ?_, fun s none => ?_⟩
  · have bare : trimBlanks (Base64.text k) = Base64.text k :=
      trimBlanks_eq_self fun c hc => (plain_of_mem_text hc).2
    refine ⟨Base64.text k, ⟨bare, GossipSettings.key_eq_ok_iff.2 ⟨length, bare⟩⟩, ?_⟩
    rintro t ⟨trimmed, read⟩
    exact trimmed.symm.trans (GossipSettings.key_eq_ok_iff.1 read).2
  · obtain ⟨reason, failed⟩ := GossipSettings.key_error fun k read =>
      have ⟨length, same⟩ := GossipSettings.key_eq_ok_iff.1 read
      none k length same
    exact ⟨⟨reason, failed⟩, validate_error_of_key failed⟩

def countingKey : Bytes := (List.range 32).map UInt8.ofNat

def countingText : String := "AAECAwQFBgcICQoLDA0ODxAREhMUFRYXGBkaGxwdHh8="

def unusedBitsText : String := "AAECAwQFBgcICQoLDA0ODxAREhMUFRYXGBkaGxwdHh9="

theorem key_text_of_counting_key :
    GossipSettings.key { encryptionKey := "\u2003" ++ countingText ++ "\n" } = .ok countingKey ∧
      (∃! t : String, trimBlanks t = t ∧
        GossipSettings.key { encryptionKey := t } = .ok countingKey) ∧
      ∃ reason, Settings.validate { gossip := { encryptionKey := unusedBitsText } } =
        .error (.config reason) := by
  obtain ⟨keys, texts, refused⟩ := key_text_canonical
  refine ⟨(keys _ _).2 ⟨by decide, by decide +kernel⟩, texts countingKey (by decide), ?_⟩
  refine (refused { gossip := { encryptionKey := unusedBitsText } } fun k length same => ?_).2
  -- a key of that text would be read from it
  have unread : (GossipSettings.key { encryptionKey := unusedBitsText }).isOk = false := by
    decide +kernel
  rw [(keys { encryptionKey := unusedBitsText } k).2 ⟨length, same⟩] at unread
  cases unread

end Settings

end HealthConsensus
