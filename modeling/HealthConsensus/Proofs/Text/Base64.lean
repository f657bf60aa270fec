import HealthConsensus.Text.Base64
import HealthConsensus.Text.Basic
import HealthConsensus.Proofs.Text.Bytes

namespace HealthConsensus

theorem Bytes.ofString_ascii {s : String} (h : ∀ c ∈ s.toList, c.toNat < 128) :
    ofString s = s.toList.map Ascii.ofChar := by
  rw [ofString_eq]
  generalize s.toList = cs at *
  induction cs with
  | nil => rfl
  | cons c cs ih =>
    have plain : c.val.toNat ≤ 127 := Nat.le_of_lt_succ (h c List.mem_cons_self)
    have one : String.utf8EncodeChar c = [Ascii.ofChar c] := by
      rw [String.utf8EncodeChar, if_pos plain]
      rfl
    rw [List.flatMap_cons, List.map_cons, one, ih fun d hd => h d (List.mem_cons_of_mem c hd)]
    rfl

namespace Base64

def alphabet : List Char :=
  "ABCDEFGHIJKLMNOPQRSTUVWXYZabcdefghijklmnopqrstuvwxyz0123456789+/".toList

def bits (b : UInt8) : List Bool := (List.range 8).map fun i => b.toNat.testBit (7 - i)

def character (n : Nat) : Char := alphabet.getD n '='

def number (bits : List Bool) : Nat := bits.foldl (fun n b => 2 * n + b.toNat) 0

def sixes : List Bool → List (List Bool)
  | a :: b :: c :: d :: e :: f :: rest => [a, b, c, d, e, f] :: sixes rest
  | [] => []
  | last => [last ++ List.replicate (6 - last.length) false]

def characters (bs : Bytes) : List Char :=
  ((sixes (bs.flatMap bits)).map number).map character

def padding (length : Nat) : Nat := (4 - length % 4) % 4

def text (bs : Bytes) : String :=
  let cs := characters bs
  String.ofList (cs ++ List.replicate (padding cs.length) '=')

section Digits

theorem value?_digit_range : ∀ n ∈ List.range 64, value? (digit n) = some n := by decide

theorem value?_digit {n : Nat} (h : n < 64) : value? (digit n) = some n :=
  value?_digit_range n (List.mem_range.2 h)

theorem digit_ne_pad_range : ∀ n ∈ List.range 64, digit n ≠ pad := by decide

theorem digit_ne_pad {n : Nat} (h : n < 64) : digit n ≠ pad :=
  digit_ne_pad_range n (List.mem_range.2 h)

theorem ofChar_character_range :
    ∀ n ∈ List.range 64, Ascii.ofChar (character n) = digit n := by decide

theorem ofChar_character {n : Nat} (h : n < 64) : Ascii.ofChar (character n) = digit n :=
  ofChar_character_range n (List.mem_range.2 h)

theorem digit_of_value? {b : UInt8} {n : Nat} (h : value? b = some n) : n < 64 ∧ b = digit n := by
  have hb := b.toNat_lt
  rw [← UInt8.toNat_inj]
  unfold value? Ascii.isUpper Ascii.isLower Ascii.isDigit at h
  simp only [Bool.and_eq_true, decide_eq_true_eq, UInt8.le_iff_toNat_le, beq_iff_eq,
    ← UInt8.toNat_inj] at h
  simp only [UInt8.reduceToNat] at h
  unfold digit
  rw [UInt8.toNat_ofNat']
  split_ifs at h <;> cases h <;> split_ifs <;> omega

end Digits

section Reading

theorem lastByte?_encode (a : UInt8) :
    lastByte? true (digit (a.toNat / 4)) (digit (a.toNat % 4 * 16)) = some [a] := by
  have ha := a.toNat_lt
  have byte : a.toNat / 4 * 4 + a.toNat % 4 * 16 / 16 = a.toNat := by omega
  have unused : a.toNat % 4 * 16 % 16 = 0 := by omega
  simp only [lastByte?, value?_digit (show a.toNat / 4 < 64 by omega),
    value?_digit (show a.toNat % 4 * 16 < 64 by omega), Option.bind_eq_bind, Option.bind_some, byte,
    unused, UInt8.ofNat_toNat]
  rfl

theorem lastTwo?_encode (a b : UInt8) :
    lastTwo? true (digit (a.toNat / 4)) (digit (a.toNat % 4 * 16 + b.toNat / 16))
      (digit (b.toNat % 16 * 4)) = some [a, b] := by
  have ha := a.toNat_lt
  have hb := b.toNat_lt
  have first : a.toNat / 4 * 4 + (a.toNat % 4 * 16 + b.toNat / 16) / 16 = a.toNat := by omega
  have second : (a.toNat % 4 * 16 + b.toNat / 16) % 16 * 16 + b.toNat % 16 * 4 / 4 = b.toNat := by
    omega
  have unused : b.toNat % 16 * 4 % 4 = 0 := by omega
  simp only [lastTwo?, value?_digit (show a.toNat / 4 < 64 by omega),
    value?_digit (show a.toNat % 4 * 16 + b.toNat / 16 < 64 by omega),
    value?_digit (show b.toNat % 16 * 4 < 64 by omega), Option.bind_eq_bind, Option.bind_some, first,
    second, unused, UInt8.ofNat_toNat]
  rfl

theorem threeBytes?_encode (a b c : UInt8) :
    threeBytes? (digit (a.toNat / 4)) (digit (a.toNat % 4 * 16 + b.toNat / 16))
      (digit (b.toNat % 16 * 4 + c.toNat / 64)) (digit (c.toNat % 64)) = some [a, b, c] := by
  have ha := a.toNat_lt
  have hb := b.toNat_lt
  have hc := c.toNat_lt
  have first : a.toNat / 4 * 4 + (a.toNat % 4 * 16 + b.toNat / 16) / 16 = a.toNat := by omega
  have second : (a.toNat % 4 * 16 + b.toNat / 16) % 16 * 16 + (b.toNat % 16 * 4 + c.toNat / 64) / 4 =
      b.toNat := by omega
  have third : (b.toNat % 16 * 4 + c.toNat / 64) % 4 * 64 + c.toNat % 64 = c.toNat := by omega
  simp only [threeBytes?, value?_digit (show a.toNat / 4 < 64 by omega),
    value?_digit (show a.toNat % 4 * 16 + b.toNat / 16 < 64 by omega),
    value?_digit (show b.toNat % 16 * 4 + c.toNat / 64 < 64 by omega),
    value?_digit (show c.toNat % 64 < 64 by omega), Option.bind_eq_bind, Option.bind_some, first,
    second, third, UInt8.ofNat_toNat]
  rfl

theorem decode?_encode (bs : Bytes) : decode? true (encode bs) = some bs := by
  fun_induction encode bs with
  | case1 => rfl
  | case2 a => simp [decode?, lastByte?_encode]
  | case3 a b =>
    have hb := b.toNat_lt
    have digits := digit_ne_pad (show b.toNat % 16 * 4 < 64 by omega)
    simp [decode?, digits, lastTwo?_encode]
  | case4 a b c rest ih =>
    have digits := digit_ne_pad (show c.toNat % 64 < 64 by omega)
    simp [decode?, digits, threeBytes?_encode, ih]

theorem eq_encode_of_lastByte? {a b : UInt8} {bs : Bytes} (h : lastByte? true a b = some bs) :
    [a, b, pad, pad] = encode bs := by
  simp only [lastByte?, Option.bind_eq_bind, Option.bind_eq_some_iff] at h
  obtain ⟨m, hm, n, hn, h⟩ := h
  obtain ⟨lm, rfl⟩ := digit_of_value? hm
  obtain ⟨ln, rfl⟩ := digit_of_value? hn
  split at h
  · cases h
  · next unused =>
    cases h
    have zero : n % 16 = 0 := by simpa using unused
    have byte : (m * 4 + n / 16) % 256 = m * 4 + n / 16 := by omega
    simp only [encode, UInt8.toNat_ofNat', Nat.reducePow, byte]
    rw [show (m * 4 + n / 16) / 4 = m by omega, show (m * 4 + n / 16) % 4 * 16 = n by omega]

theorem eq_encode_of_lastTwo? {a b c : UInt8} {bs : Bytes} (h : lastTwo? true a b c = some bs) :
    [a, b, c, pad] = encode bs := by
  simp only [lastTwo?, Option.bind_eq_bind, Option.bind_eq_some_iff] at h
  obtain ⟨l, hl, m, hm, n, hn, h⟩ := h
  obtain ⟨ll, rfl⟩ := digit_of_value? hl
  obtain ⟨lm, rfl⟩ := digit_of_value? hm
  obtain ⟨ln, rfl⟩ := digit_of_value? hn
  split at h
  · cases h
  · next unused =>
    cases h
    have zero : n % 4 = 0 := by simpa using unused
    have first : (l * 4 + m / 16) % 256 = l * 4 + m / 16 := by omega
    have second : (m % 16 * 16 + n / 4) % 256 = m % 16 * 16 + n / 4 := by omega
    simp only [encode, UInt8.toNat_ofNat', Nat.reducePow, first, second]
    rw [show (l * 4 + m / 16) / 4 = l by omega,
      show (l * 4 + m / 16) % 4 * 16 + (m % 16 * 16 + n / 4) / 16 = m by omega,
      show (m % 16 * 16 + n / 4) % 16 * 4 = n by omega]

theorem eq_encode_of_threeBytes? {a b c d : UInt8} {bs : Bytes} (h : threeBytes? a b c d = some bs)
    (rest : Bytes) : a :: b :: c :: d :: encode rest = encode (bs ++ rest) := by
  simp only [threeBytes?, Option.bind_eq_bind, Option.bind_eq_some_iff] at h
  obtain ⟨k, hk, l, hl, m, hm, n, hn, h⟩ := h
  obtain ⟨lk, rfl⟩ := digit_of_value? hk
  obtain ⟨ll, rfl⟩ := digit_of_value? hl
  obtain ⟨lm, rfl⟩ := digit_of_value? hm
  obtain ⟨ln, rfl⟩ := digit_of_value? hn
  cases h
  have first : (k * 4 + l / 16) % 256 = k * 4 + l / 16 := by omega
  have second : (l % 16 * 16 + m / 4) % 256 = l % 16 * 16 + m / 4 := by omega
  have third : (m % 4 * 64 + n) % 256 = m % 4 * 64 + n := by omega
  simp only [List.cons_append, List.nil_append, encode, UInt8.toNat_ofNat', Nat.reducePow, first,
    second, third]
  rw [show (k * 4 + l / 16) / 4 = k by omega,
    show (k * 4 + l / 16) % 4 * 16 + (l % 16 * 16 + m / 4) / 16 = l by omega,
    show (l % 16 * 16 + m / 4) % 16 * 4 + (m % 4 * 64 + n) / 64 = m by omega,
    show (m % 4 * 64 + n) % 64 = n by omega]

theorem eq_encode_of_decode? {t bs : Bytes} (h : decode? true t = some bs) : t = encode bs := by
  fun_induction decode? true t generalizing bs with
  | case1 =>
    cases h
    rfl
  | case2 a b c d rest last padded =>
    obtain ⟨ends, rfl⟩ : rest = [] ∧ d = pad := by simpa using last
    cases ends
    cases beq_iff_eq.1 padded
    exact eq_encode_of_lastByte? h
  | case3 a b c d rest last padded =>
    obtain ⟨ends, rfl⟩ : rest = [] ∧ d = pad := by simpa using last
    cases ends
    exact eq_encode_of_lastTwo? h
  | case4 a b c d rest more ih =>
    simp only [Option.bind_eq_bind, Option.bind_eq_some_iff] at h
    obtain ⟨first, hf, others, ho, h⟩ := h
    cases h
    rw [ih ho]
    exact eq_encode_of_threeBytes? hf others
  | case5 t _ _ => cases h

theorem decode?_eq_some_iff {t bs : Bytes} : decode? true t = some bs ↔ t = encode bs :=
  ⟨eq_encode_of_decode?, fun h => h ▸ decode?_encode bs⟩

end Reading

section Bits

theorem number_six (a b c d e f : Bool) : number [a, b, c, d, e, f] =
    32 * a.toNat + 16 * b.toNat + 8 * c.toNat + 4 * d.toNat + 2 * e.toNat + f.toNat := by
  simp only [number, List.foldl_cons, List.foldl_nil]
  omega

theorem bits_eq (b : UInt8) : bits b =
    [b.toNat.testBit 7, b.toNat.testBit 6, b.toNat.testBit 5, b.toNat.testBit 4,
      b.toNat.testBit 3, b.toNat.testBit 2, b.toNat.testBit 1, b.toNat.testBit 0] := rfl

theorem sixes_one (a : UInt8) :
    (sixes (bits a)).map number = [a.toNat / 4, a.toNat % 4 * 16] := by
  have ha := a.toNat_lt
  rw [bits_eq]
  simp only [sixes, List.map_cons, List.map_nil, List.length_cons, List.length_nil,
    List.replicate, List.cons_append, List.nil_append, number_six, Nat.toNat_testBit,
    Bool.toNat_false, List.cons.injEq, and_true]
  omega

theorem sixes_two (a b : UInt8) : (sixes (bits a ++ bits b)).map number =
    [a.toNat / 4, a.toNat % 4 * 16 + b.toNat / 16, b.toNat % 16 * 4] := by
  have ha := a.toNat_lt
  have hb := b.toNat_lt
  rw [bits_eq, bits_eq]
  simp only [sixes, List.map_cons, List.map_nil, List.length_cons, List.length_nil,
    List.replicate, List.cons_append, List.nil_append, number_six, Nat.toNat_testBit,
    Bool.toNat_false, List.cons.injEq, and_true]
  omega

theorem sixes_three (a b c : UInt8) (rest : List Bool) :
    (sixes (bits a ++ (bits b ++ (bits c ++ rest)))).map number =
      [a.toNat / 4, a.toNat % 4 * 16 + b.toNat / 16, b.toNat % 16 * 4 + c.toNat / 64,
        c.toNat % 64] ++ (sixes rest).map number := by
  have ha := a.toNat_lt
  have hb := b.toNat_lt
  have hc := c.toNat_lt
  rw [bits_eq, bits_eq, bits_eq]
  simp only [sixes, List.map_cons, List.cons_append, List.nil_append, number_six,
    Nat.toNat_testBit, List.cons.injEq, and_true]
  omega

theorem characters_cons (a b c : UInt8) (rest : Bytes) : characters (a :: b :: c :: rest) =
    [character (a.toNat / 4), character (a.toNat % 4 * 16 + b.toNat / 16),
      character (b.toNat % 16 * 4 + c.toNat / 64), character (c.toNat % 64)] ++ characters rest := by
  have numbers := sixes_three a b c (rest.flatMap bits)
  rw [characters, List.flatMap_cons, List.flatMap_cons, List.flatMap_cons, numbers, List.map_append]
  rfl

theorem padding_add_four (n : Nat) : padding (n + 4) = padding n := by
  unfold padding
  omega

theorem encode_eq_map (bs : Bytes) : encode bs = (text bs).toList.map Ascii.ofChar := by
  fun_induction encode bs with
  | case1 => rfl
  | case2 a =>
    have ha := a.toNat_lt
    have chars : characters [a] = [character (a.toNat / 4), character (a.toNat % 4 * 16)] :=
      congrArg (List.map character) (sixes_one a)
    simp only [text, chars, String.toList_ofList, List.length_cons, List.length_nil,
      List.cons_append, List.nil_append, List.map_cons,
      ofChar_character (show a.toNat / 4 < 64 by omega),
      ofChar_character (show a.toNat % 4 * 16 < 64 by omega)]
    rfl
  | case3 a b =>
    have ha := a.toNat_lt
    have hb := b.toNat_lt
    have chars : characters [a, b] = [character (a.toNat / 4),
        character (a.toNat % 4 * 16 + b.toNat / 16), character (b.toNat % 16 * 4)] :=
      congrArg (List.map character) (sixes_two a b)
    simp only [text, chars, String.toList_ofList, List.length_cons, List.length_nil,
      List.cons_append, List.nil_append, List.map_cons,
      ofChar_character (show a.toNat / 4 < 64 by omega),
      ofChar_character (show a.toNat % 4 * 16 + b.toNat / 16 < 64 by omega),
      ofChar_character (show b.toNat % 16 * 4 < 64 by omega)]
    rfl
  | case4 a b c rest ih =>
    have ha := a.toNat_lt
    have hb := b.toNat_lt
    have hc := c.toNat_lt
    rw [ih]
    simp only [text, characters_cons, String.toList_ofList, List.cons_append, List.nil_append,
      List.length_cons, Nat.add_assoc, Nat.reduceAdd, padding_add_four, List.map_cons,
      ofChar_character (show a.toNat / 4 < 64 by omega),
      ofChar_character (show a.toNat % 4 * 16 + b.toNat / 16 < 64 by omega),
      ofChar_character (show b.toNat % 16 * 4 + c.toNat / 64 < 64 by omega),
      ofChar_character (show c.toNat % 64 < 64 by omega)]

theorem character_plain_range : ∀ c ∈ '=' :: alphabet, c.toNat < 128 ∧ isBlank c = false := by
  have range : ('=' :: alphabet).all (fun c => decide (c.toNat < 128) && !isBlank c) = true := by
    decide +kernel
  intro c hc
  simpa using List.all_eq_true.1 range c hc

theorem character_mem (n : Nat) : character n ∈ '=' :: alphabet := by
  unfold character
  rw [List.getD_eq_getElem?_getD]
  cases found : alphabet[n]? with
  | none => exact List.mem_cons_self
  | some c => exact List.mem_cons_of_mem _ (List.mem_of_getElem? found)

theorem plain_of_mem_text {bs : Bytes} {c : Char} (h : c ∈ (text bs).toList) :
    c.toNat < 128 ∧ isBlank c = false := by
  apply character_plain_range
  rw [text, String.toList_ofList, List.mem_append] at h
  rcases h with char | pad
  · obtain ⟨six, -, rfl⟩ := List.mem_map.1 char
    exact character_mem _
  · rw [List.eq_of_mem_replicate pad]
    exact List.mem_cons_self

theorem encode_eq (bs : Bytes) : encode bs = Bytes.ofString (text bs) := by
  rw [encode_eq_map, Bytes.ofString_ascii fun c hc => (plain_of_mem_text hc).1]

theorem pad_mem_encode {bs : Bytes} (h : bs.length % 3 ≠ 0) : pad ∈ encode bs := by
  fun_induction encode bs with
  | case1 => exact absurd rfl h
  | case2 a => simp
  | case3 a b => simp
  | case4 a b c rest ih =>
    have more : rest.length % 3 ≠ 0 := by
      simp only [List.length_cons] at h
      omega
    simp [ih more]

theorem equals_mem_text {bs : Bytes} (h : bs.length % 3 ≠ 0) : '=' ∈ (text bs).toList := by
  have padded := pad_mem_encode h
  rw [encode_eq_map] at padded
  obtain ⟨c, hc, same⟩ := List.mem_map.1 padded
  have plain := (plain_of_mem_text hc).1
  have value : c.toNat % 256 = 61 := congrArg UInt8.toNat same
  have equals : c = '=' := by
    rw [← Char.ofNat_toNat c, show c.toNat = 61 by omega]
  rwa [← equals]

end Bits

end Base64

end HealthConsensus
