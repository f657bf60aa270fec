import HealthConsensus.Cipher.Frame
import Mathlib.Data.List.Basic

namespace HealthConsensus

namespace ChaCha20

@[simp] theorem length_littleEndianBytes (width n : Nat) :
    (littleEndianBytes width n).length = width := by
  induction width generalizing n with
  | zero => rfl
  | succ width ih => rw [littleEndianBytes, List.length_cons, ih]

variable {key nonce bs : Bytes}

theorem length_flatMap_range {f : Nat → Bytes} {size : Nat} (h : ∀ i, (f i).length = size)
    (n : Nat) : ((List.range n).flatMap f).length = n * size := by
  simp [List.length_flatMap, h]

theorem length_block (key nonce : Bytes) (counter : Nat) : (block key nonce counter).length = 64 :=
  length_flatMap_range (fun _ => length_littleEndianBytes 4 _) 16

theorem le_length_stream (key nonce : Bytes) (length : Nat) :
    length ≤ (stream key nonce length).length := by
  rw [stream, length_flatMap_range fun i => length_block key nonce (i + 1)]
  omega

@[simp] theorem length_apply (key nonce bs : Bytes) : (apply key nonce bs).length = bs.length := by
  rw [apply, List.length_zipWith]
  exact Nat.min_eq_left (le_length_stream key nonce bs.length)

theorem zipWith_xor_xor {ks : Bytes} (h : bs.length ≤ ks.length) :
    List.zipWith (· ^^^ ·) (List.zipWith (· ^^^ ·) bs ks) ks = bs := by
  induction bs generalizing ks with
  | nil => rfl
  | cons b bs ih =>
    cases ks with
    | nil => simp at h
    | cons k ks =>
      have rest : bs.length ≤ ks.length := by simpa using h
      rw [List.zipWith_cons_cons, List.zipWith_cons_cons, ih rest, UInt8.xor_assoc, UInt8.xor_self,
        UInt8.xor_zero]

theorem apply_apply (key nonce bs : Bytes) : apply key nonce (apply key nonce bs) = bs := by
  have same : stream key nonce (apply key nonce bs).length = stream key nonce bs.length := by
    rw [length_apply]
  rw [apply, same]
  exact zipWith_xor_xor (le_length_stream key nonce bs.length)

end ChaCha20

namespace Frame

variable {key nonce frame body : Bytes}

@[simp] theorem length_tag (key nonce cipher : Bytes) : (tag key nonce cipher).length = tagLength :=
  ChaCha20.length_littleEndianBytes 16 _

theorem length_encrypt (key nonce body : Bytes) :
    (encrypt key nonce body).length = body.length + tagLength := by
  simp [encrypt]

theorem take_encrypt (key nonce body : Bytes) :
    (encrypt key nonce body).take body.length = ChaCha20.apply key nonce body :=
  List.take_left' (ChaCha20.length_apply key nonce body)

theorem drop_encrypt (key nonce body : Bytes) :
    (encrypt key nonce body).drop body.length = tag key nonce (ChaCha20.apply key nonce body) :=
  List.drop_left' (ChaCha20.length_apply key nonce body)

theorem decrypt?_encrypt (key nonce body : Bytes) :
    decrypt? key nonce (encrypt key nonce body) = some body := by
  have split : (encrypt key nonce body).length - tagLength = body.length := by
    rw [length_encrypt, Nat.add_sub_cancel]
  rw [decrypt?, split, take_encrypt, drop_encrypt, if_pos rfl, ChaCha20.apply_apply]

theorem decrypt?_eq_some_iff {sealed : Bytes} :
    decrypt? key nonce sealed = some body ↔ sealed = encrypt key nonce body := by
  constructor
  · intro h
    obtain ⟨fits, opened⟩ := Option.ite_none_right_eq_some.1 h
    rw [encrypt, ← Option.some.inj opened, ChaCha20.apply_apply, fits, List.take_append_drop]
  · rintro rfl
    exact decrypt?_encrypt key nonce body

theorem decode_short (key : Bytes) (h : frame.length < overhead) : decode key frame =
    .error (.gossip ("frame too short: " ++ toString frame.length ++ " bytes")) := if_pos h

theorem eq_encode_iff : frame = encode key (frame.take nonceLength) body ↔
    frame.drop nonceLength = encrypt key (frame.take nonceLength) body := by
  rw [encode]
  nth_rewrite 1 [← List.take_append_drop nonceLength frame]
  exact List.append_right_inj _

theorem decode_eq_ok_iff : decode key frame = .ok body ↔
    overhead ≤ frame.length ∧ frame = encode key (frame.take nonceLength) body := by
  by_cases short : frame.length < overhead
  · rw [decode_short key short]
    exact iff_of_false nofun fun h => absurd h.1 (Nat.not_le_of_lt short)
  · rw [eq_encode_iff, ← decrypt?_eq_some_iff, decode, if_neg short,
      and_iff_right (Nat.le_of_not_lt short)]
    cases decrypt? key (frame.take nonceLength) (frame.drop nonceLength) <;> simp

theorem decode_failed (long : overhead ≤ frame.length) (h : ∀ body, decode key frame ≠ .ok body) :
    decode key frame = .error (.gossip "frame authentication failed") := by
  rw [decode, if_neg (Nat.not_lt_of_le long)] at h ⊢
  cases opened : decrypt? key (frame.take nonceLength) (frame.drop nonceLength) with
  | none => rfl
  | some body =>
    rw [opened] at h
    exact absurd rfl (h body)

section Lengths

variable (hn : nonce.length = nonceLength)
include hn

theorem length_encode (key body : Bytes) :
    (encode key nonce body).length = overhead + body.length := by
  rw [encode, List.length_append, hn, length_encrypt, overhead]
  omega

theorem take_encode (key body : Bytes) : (encode key nonce body).take nonceLength = nonce :=
  List.take_left' hn

theorem decode_encode_eq_ok (key body : Bytes) : decode key (encode key nonce body) = .ok body := by
  rw [decode_eq_ok_iff, length_encode hn, take_encode hn]
  exact ⟨Nat.le_add_right _ _, rfl⟩

theorem take_encode_untagged (key body : Bytes) :
    (encode key nonce body).take ((encode key nonce body).length - tagLength) =
      nonce ++ ChaCha20.apply key nonce body := by
  have split : (encode key nonce body).length - tagLength =
      (nonce ++ ChaCha20.apply key nonce body).length := by
    rw [length_encode hn, List.length_append, hn, ChaCha20.length_apply, overhead]
    omega
  rw [split, encode, encrypt, ← List.append_assoc]
  exact List.take_left

end Lengths

theorem decode_tag_unique {frame' body' : Bytes} (h : decode key frame = .ok body)
    (h' : decode key frame' = .ok body')
    (same : frame'.take (frame'.length - tagLength) = frame.take (frame.length - tagLength)) :
    frame' = frame := by
  obtain ⟨long, sealed⟩ := decode_eq_ok_iff.1 h
  obtain ⟨long', sealed'⟩ := decode_eq_ok_iff.1 h'
  have hn : (frame.take nonceLength).length = nonceLength := by
    rw [List.length_take, Nat.min_eq_left]
    exact Nat.le_trans (by decide) long
  have hn' : (frame'.take nonceLength).length = nonceLength := by
    rw [List.length_take, Nat.min_eq_left]
    exact Nat.le_trans (by decide) long'
  -- the rest of a frame is its nonce and its cipher, and the tag is made of these
  rw [sealed, sealed', take_encode_untagged hn, take_encode_untagged hn'] at same
  obtain ⟨nonces, ciphers⟩ := List.append_inj same (hn'.trans hn.symm)
  have bodies : body' = body := by
    rw [← ChaCha20.apply_apply key (frame.take nonceLength) body, ← ciphers, nonces,
      ChaCha20.apply_apply]
  rw [sealed, sealed', nonces, bodies]

/-- Sealed bodies of any length come back, a frame that opens is what sealing its body under its
nonce gives, and nothing opens that is too short or has another tag in place of its own. -/
theorem opens_what_was_sealed (key : Bytes) :
    (∀ nonce body, nonce.length = 12 →
      encode key nonce body = nonce ++ encrypt key nonce body ∧
        (encode key nonce body).length = 28 + body.length ∧
        decode key (encode key nonce body) = .ok body) ∧
    (∀ frame body, decode key frame = .ok body →
      28 ≤ frame.length ∧ frame = encode key (frame.take 12) body) ∧
    (∀ frame, frame.length < 28 → decode key frame =
      .error (.gossip ("frame too short: " ++ toString frame.length ++ " bytes"))) ∧
    ∀ frame body, decode key frame = .ok body → ∀ frame', frame'.length = frame.length →
      frame'.take (frame.length - 16) = frame.take (frame.length - 16) → frame' ≠ frame →
        decode key frame' = .error (.gossip "frame authentication failed") := by
  refine ⟨fun nonce body hn => ?_, fun frame body h => decode_eq_ok_iff.1 h,
    fun frame short => decode_short key short, fun frame body h frame' length same other => ?_⟩
  · exact ⟨rfl, length_encode hn key body, decode_encode_eq_ok hn key body⟩
  · have long : overhead ≤ frame'.length := length ▸ (decode_eq_ok_iff.1 h).1
    refine decode_failed long fun body' h' => other (decode_tag_unique h h' ?_)
    rw [length]
    exact same

def sampleKey : Bytes := List.replicate 32 42

def sampleBody : Bytes := List.replicate 70 97

def sampleFrame : Bytes := encode sampleKey (List.replicate 12 7) sampleBody

theorem opens_sample :
    sampleFrame.length = 98 ∧ decode sampleKey sampleFrame = .ok sampleBody ∧
      sampleFrame = encode sampleKey (sampleFrame.take 12) sampleBody ∧
      decode sampleKey (sampleFrame.take 27) = .error (.gossip "frame too short: 27 bytes") ∧
      decode sampleKey (sampleFrame.modify 97 (· ^^^ 1)) =
        .error (.gossip "frame authentication failed") := by
  obtain ⟨opens, only, short, tagged⟩ := opens_what_was_sealed sampleKey
  obtain ⟨-, length, opened⟩ := opens (List.replicate 12 7) sampleBody rfl
  refine ⟨length, opened, (only sampleFrame sampleBody opened).2, ?_, ?_⟩
  · exact short (sampleFrame.take 27) (by decide +kernel)
  · exact tagged sampleFrame sampleBody opened _ (by decide +kernel) (by decide +kernel)
      (by decide +kernel)

end Frame

end HealthConsensus
