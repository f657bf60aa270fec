import HealthConsensus.Json.Parser
import HealthConsensus.Proofs.Json.Lexing

/-!
The grammar of JSON: a text holds a value if its tokens, with blanks around them, are those of the
value. A text is parsed exactly if it holds a value, and then that value is the one.
-/

namespace HealthConsensus.Json

open Ascii

mutual

def tokens : Json → List Token
  | .null => [.null]
  | .bool b => [.bool b]
  | .number x => [.number x]
  | .string raw => [.string raw]
  | .array items => .beginArray :: (itemTokens items ++ [.endArray])
  | .object fields => .beginObject :: (fieldTokens fields ++ [.endObject])

def itemTokens : List Json → List Token
  | [] => []
  | [j] => tokens j
  | j :: items => tokens j ++ .comma :: itemTokens items

def fieldTokens : List (Bytes × Json) → List Token
  | [] => []
  | [(k, j)] => .string k :: .colon :: tokens j
  | (k, j) :: fields => .string k :: .colon :: (tokens j ++ .comma :: fieldTokens fields)

end

inductive Lexed : List Token → Bytes → Prop
  | nil {blanks : Bytes} : (∀ b ∈ blanks, Ascii.isBlank b = true) → Lexed [] blanks
  | cons {blanks sp rest : Bytes} {token : Token} {ts : List Token} :
      (∀ b ∈ blanks, Ascii.isBlank b = true) → token.Spells sp → Lexed ts rest →
        Lexed (token :: ts) (blanks ++ (sp ++ rest))

def Spells (j : Json) (bs : Bytes) : Prop := Lexed j.tokens bs

namespace Reading

def steps : List Token → Reading → Option Reading
  | [], r => some r
  | t :: ts, r => (step t r).bind (steps ts)

theorem dropBlanks {blanks rest : Bytes} (all : ∀ b ∈ blanks, Ascii.isBlank b = true)
    (next : ∀ b ∈ rest.head?, Ascii.isBlank b = false) :
    (blanks ++ rest).dropWhile Ascii.isBlank = rest := by
  rw [List.dropWhile_append_of_pos all]
  cases rest with
  | nil => rfl
  | cons b rest => simp [next b rfl]

theorem lexed_of_run {fuel : Nat} {r r' : Reading} {bs : Bytes} (h : run fuel r bs = some r') :
    ∃ ts, Lexed ts bs ∧ steps ts r = some r' := by
  induction fuel generalizing r bs with
  | zero => cases h
  | succ fuel ih =>
    rw [run] at h
    have blanks := List.all_eq_true.1 (List.all_takeWhile (p := Ascii.isBlank) (l := bs))
    have whole : bs = bs.takeWhile Ascii.isBlank ++ bs.dropWhile Ascii.isBlank :=
      List.takeWhile_append_dropWhile.symm
    split at h
    · next none =>
      cases h
      rw [none, List.append_nil] at whole
      exact ⟨[], .nil (whole ▸ blanks), rfl⟩
    · split at h
      · cases h
      · next token rest scanned =>
        split at h
        · cases h
        · next r'' stepped =>
          obtain ⟨ts, lexed, read⟩ := ih h
          obtain ⟨sp, spells, split⟩ := Token.scan?_sound scanned
          rw [whole, split]
          exact ⟨token :: ts, .cons blanks spells lexed, by rw [steps, stepped]; exact read⟩

theorem place_cases {j : Json} {cs : List Container} {r : Reading} (h : place j cs = some r) :
    r = finished j ∨ ∃ cs', r = within .commaOrEnd cs' := by
  unfold place at h
  split at h <;> cases h
  · exact .inl rfl
  · exact .inr ⟨_, rfl⟩
  · exact .inr ⟨_, rfl⟩

theorem place_of_number {x : Numeral} {r r' : Reading} (h : step (.number x) r = some r') :
    ∃ cs, place (.number x) cs = some r' := by
  unfold step at h
  split at h
  case h_1 => cases h
  case h_2 cs => exact ⟨cs, h⟩
  case h_3 cs => exact ⟨cs, h⟩
  all_goals cases h

theorem next_of_number {x : Numeral} {token : Token} {r r' r'' : Reading}
    (h : step (.number x) r = some r') (h' : step token r' = some r'') :
    token = .comma ∨ token = .endArray ∨ token = .endObject := by
  obtain ⟨cs, placed⟩ := place_of_number h
  rcases place_cases placed with rfl | ⟨cs', rfl⟩
  · cases h'
  · rw [step] at h'
    split at h'
    · exact .inl ‹_›
    · unfold close at h'
      split at h'
      · exact .inr (.inl rfl)
      · exact .inr (.inr rfl)
      · cases h'

theorem endsNumber_blank {b : UInt8} (blank : Ascii.isBlank b = true) (rest : Bytes) :
    Token.EndsNumber (b :: rest) := by
  intro c hc
  cases hc
  simp only [Ascii.isBlank, Bool.or_eq_true, beq_iff_eq] at blank
  rcases blank with ((rfl | rfl) | rfl) | rfl <;> exact ⟨rfl, by decide, by decide, by decide⟩

theorem endsNumber_of_lexed {ts : List Token} {bs : Bytes} (lexed : Lexed ts bs)
    (next : ∀ t ∈ ts.head?, t = .comma ∨ t = .endArray ∨ t = .endObject) :
    Token.EndsNumber bs := by
  cases lexed with
  | nil blanks =>
    cases bs with
    | nil => exact Token.endsNumber_nil
    | cons b bs => exact endsNumber_blank (blanks b List.mem_cons_self) bs
  | @cons blanks sp rest token ts all spells later =>
    cases blanks with
    | cons b blanks => exact endsNumber_blank (all b List.mem_cons_self) _
    | nil =>
      rcases next token rfl with rfl | rfl | rfl
      · cases spells
        exact Token.endsNumber_cons (.inl rfl) rest
      · cases spells
        exact Token.endsNumber_cons (.inr (.inl rfl)) rest
      · cases spells
        exact Token.endsNumber_cons (.inr (.inr rfl)) rest

theorem run_of_lexed {ts : List Token} {r r' : Reading} {bs : Bytes} (lexed : Lexed ts bs)
    (h : steps ts r = some r') {fuel : Nat} (enough : bs.length < fuel) :
    run fuel r bs = some r' := by
  induction lexed generalizing r fuel with
  | @nil blanks all =>
    obtain ⟨fuel, rfl⟩ := Nat.exists_eq_add_one_of_ne_zero (Nat.ne_of_gt (Nat.zero_lt_of_lt enough))
    have none : (blanks ++ []).dropWhile Ascii.isBlank = [] := dropBlanks all nofun
    rw [List.append_nil] at none
    rw [run, none]
    exact h
  | @cons blanks sp rest token ts all spells later ih =>
    obtain ⟨fuel, rfl⟩ := Nat.exists_eq_add_one_of_ne_zero (Nat.ne_of_gt (Nat.zero_lt_of_lt enough))
    obtain ⟨r'', stepped, onwards⟩ := Option.bind_eq_some_iff.1 h
    have ends : token.isNumber = true → Token.EndsNumber rest := by
      intro number
      refine endsNumber_of_lexed later fun t head => ?_
      cases token with
      | number x =>
        cases ts with
        | nil => cases head
        | cons t' ts =>
          cases head
          obtain ⟨r₃, stepped', -⟩ := Option.bind_eq_some_iff.1 onwards
          exact next_of_number stepped stepped'
      | _ => cases number
    have scanned := Token.scan?_spells spells ends
    obtain ⟨b, tail, rfl, first⟩ := spells.head
    have dropped : (blanks ++ (b :: tail ++ rest)).dropWhile Ascii.isBlank = b :: (tail ++ rest) :=
      dropBlanks all fun c hc => by
        cases hc
        exact first
    have shorter : rest.length < fuel := by
      simp only [List.length_append, List.length_cons] at enough
      omega
    rw [List.cons_append] at scanned
    rw [run, dropped]
    simp only [scanned, stepped]
    exact ih onwards shorter

def AwaitsValue (r : Reading) (cs : List Container) : Prop :=
  ∀ token, token ≠ .endArray → step token r = beginValue token cs

def AwaitsMember (r : Reading) (cs : List Container) : Prop :=
  ∀ raw, step (.string raw) r = beginMember (.string raw) cs

theorem awaitsValue_value (cs : List Container) : AwaitsValue (within .value cs) cs :=
  fun _ _ => rfl

theorem awaitsValue_itemOrEnd (cs : List Container) : AwaitsValue (within .itemOrEnd cs) cs :=
  fun _ h => if_neg h

theorem awaitsMember_key (cs : List Container) : AwaitsMember (within .key cs) cs := fun _ => rfl

theorem awaitsMember_memberOrEnd (cs : List Container) :
    AwaitsMember (within .memberOrEnd cs) cs := by
  intro raw
  rw [step, if_neg]
  exact fun h => nomatch h

theorem AwaitsValue.steps_cons {r r' : Reading} {cs : List Container}
    (awaits : AwaitsValue r cs) (token : Token) (other : token ≠ .endArray)
    (h : beginValue token cs = some r') (ts : List Token) :
    steps (token :: ts) r = steps ts r' := by
  rw [steps, awaits token other, h]
  rfl

theorem AwaitsMember.steps_cons {r r' : Reading} {cs : List Container}
    (awaits : AwaitsMember r cs) {key : Bytes} (h : beginMember (.string key) cs = some r')
    (ts : List Token) : steps (.string key :: ts) r = steps ts r' := by
  rw [steps, awaits key, h]
  rfl

theorem steps_endArray {done : List Json} {outer : List Container} {r : Reading}
    (placed : place (.array done.reverse) outer = some r) (ts : List Token) :
    steps (.endArray :: ts) (within .commaOrEnd (.array done :: outer)) = steps ts r :=
  congrArg (Option.bind · (steps ts)) placed

theorem steps_endObject {done : List (Bytes × Json)} {outer : List Container} {r : Reading}
    (placed : place (.object done.reverse) outer = some r) (ts : List Token) :
    steps (.endObject :: ts) (within .commaOrEnd (.object done :: outer)) = steps ts r :=
  congrArg (Option.bind · (steps ts)) placed

mutual

theorem steps_tokens : ∀ (j : Json) {r r' : Reading} {cs : List Container} (ts : List Token),
    AwaitsValue r cs → place j cs = some r' → steps (tokens j ++ ts) r = steps ts r'
  | .null, _, _, _, ts, awaits, placed => awaits.steps_cons .null nofun placed ts
  | .bool b, _, _, _, ts, awaits, placed => awaits.steps_cons (.bool b) nofun placed ts
  | .number x, _, _, _, ts, awaits, placed => awaits.steps_cons (.number x) nofun placed ts
  | .string raw, _, _, _, ts, awaits, placed => awaits.steps_cons (.string raw) nofun placed ts
  | .array [], _, _, _, ts, awaits, placed => by
    refine (awaits.steps_cons .beginArray nofun rfl (.endArray :: ts)).trans ?_
    exact congrArg (Option.bind · (steps ts)) placed
  | .array (j :: items), _, _, cs, ts, awaits, placed => by
    rw [tokens, List.cons_append, List.append_assoc]
    refine (awaits.steps_cons .beginArray nofun rfl _).trans ?_
    exact steps_items (j :: items) ts nofun (awaitsValue_itemOrEnd (.array [] :: cs)) placed
  | .object [], _, _, _, ts, awaits, placed => by
    refine (awaits.steps_cons .beginObject nofun rfl (.endObject :: ts)).trans ?_
    exact congrArg (Option.bind · (steps ts)) placed
  | .object (f :: fields), _, _, cs, ts, awaits, placed => by
    rw [tokens, List.cons_append, List.append_assoc]
    refine (awaits.steps_cons .beginObject nofun rfl _).trans ?_
    exact steps_fields (f :: fields) ts nofun (awaitsMember_memberOrEnd (.object [] :: cs)) placed

theorem steps_items : ∀ (items : List Json) {r r' : Reading} {done : List Json}
    {outer : List Container} (ts : List Token), items ≠ [] → AwaitsValue r (.array done :: outer) →
    place (.array (done.reverse ++ items)) outer = some r' →
    steps (itemTokens items ++ .endArray :: ts) r = steps ts r'
  | [], _, _, _, _, _, nonempty, _, _ => absurd rfl nonempty
  | [j], _, _, done, outer, ts, _, awaits, placed => by
    refine (steps_tokens j (.endArray :: ts) awaits rfl).trans ?_
    exact steps_endArray (by simpa using placed) ts
  | j :: k :: items, _, _, done, outer, ts, _, awaits, placed => by
    rw [itemTokens, List.append_assoc]
    · refine (steps_tokens j _ awaits rfl).trans ?_
      exact steps_items (k :: items) ts nofun (awaitsValue_value (.array (j :: done) :: outer))
        (by simpa using placed)
    · exact nofun

theorem steps_fields : ∀ (fields : List (Bytes × Json)) {r r' : Reading}
    {done : List (Bytes × Json)} {outer : List Container} (ts : List Token), fields ≠ [] →
    AwaitsMember r (.object done :: outer) →
    place (.object (done.reverse ++ fields)) outer = some r' →
    steps (fieldTokens fields ++ .endObject :: ts) r = steps ts r'
  | [], _, _, _, _, _, nonempty, _, _ => absurd rfl nonempty
  | [(key, j)], _, _, done, outer, ts, _, awaits, placed => by
    refine (awaits.steps_cons rfl _).trans ?_
    refine (steps_tokens j (.endObject :: ts) (awaitsValue_value (.member done key :: outer))
      rfl).trans ?_
    exact steps_endObject (by simpa using placed) ts
  | (key, j) :: f :: fields, _, _, done, outer, ts, _, awaits, placed => by
    rw [fieldTokens, List.cons_append, List.cons_append, List.append_assoc]
    · refine (awaits.steps_cons rfl _).trans ?_
      refine (steps_tokens j _ (awaitsValue_value (.member done key :: outer)) rfl).trans ?_
      exact steps_fields (f :: fields) ts nofun
        (awaitsMember_key (.object ((key, j) :: done) :: outer)) (by simpa using placed)
    · exact nofun

end

theorem flatMap_itemTokens {items : List Json} (nonempty : items ≠ []) :
    (items.flatMap fun j => tokens j ++ [.comma]) = itemTokens items ++ [.comma] := by
  induction items with
  | nil => exact absurd rfl nonempty
  | cons j items ih =>
    cases items with
    | nil => simp [itemTokens]
    | cons k items => simp [itemTokens, ih nofun]

theorem flatMap_fieldTokens {fields : List (Bytes × Json)} (nonempty : fields ≠ []) :
    (fields.flatMap fun f => .string f.1 :: .colon :: (tokens f.2 ++ [.comma])) =
      fieldTokens fields ++ [.comma] := by
  induction fields with
  | nil => exact absurd rfl nonempty
  | cons f fields ih =>
    cases fields with
    | nil => simp [fieldTokens]
    | cons g fields => simp [fieldTokens, ih nofun]

def openTokens : Container → List Token
  | .array items => .beginArray :: items.reverse.flatMap fun j => tokens j ++ [.comma]
  | .object fields => .beginObject ::
      fields.reverse.flatMap fun f => .string f.1 :: .colon :: (tokens f.2 ++ [.comma])
  | .member fields key => .beginObject ::
      (fields.reverse.flatMap fun f => .string f.1 :: .colon :: (tokens f.2 ++ [.comma])) ++
        [.string key, .colon]

def stackTokens : List Container → List Token
  | [] => []
  | c :: outer => stackTokens outer ++ openTokens c

def Consumed (ts : List Token) : Reading → Prop
  | within .value cs => ts = stackTokens cs
  | within .itemOrEnd cs => ts = stackTokens cs ∧ ∃ outer, cs = .array [] :: outer
  | within .memberOrEnd cs => ts = stackTokens cs ∧ ∃ outer, cs = .object [] :: outer
  | within .key cs => ts = stackTokens cs
  | within .colon cs => ts ++ [.colon] = stackTokens cs
  | within .commaOrEnd cs => ts ++ [.comma] = stackTokens cs
  | finished j => ts = tokens j

theorem consumed_place {j : Json} {cs : List Container} {r : Reading} (h : place j cs = some r) :
    Consumed (stackTokens cs ++ tokens j) r := by
  unfold place at h
  split at h <;> cases h
  · rfl
  · simp [Consumed, stackTokens, openTokens]
  · simp [Consumed, stackTokens, openTokens]

theorem consumed_beginValue {token : Token} {cs : List Container} {r : Reading}
    (h : beginValue token cs = some r) : Consumed (stackTokens cs ++ [token]) r := by
  unfold beginValue at h
  split at h
  case h_1 =>
    cases h
    exact ⟨rfl, cs, rfl⟩
  case h_2 =>
    cases h
    exact ⟨rfl, cs, rfl⟩
  case h_7 => cases h
  all_goals exact consumed_place h

theorem consumed_beginMember {token : Token} {cs : List Container} {r : Reading}
    (h : beginMember token cs = some r) : Consumed (stackTokens cs ++ [token]) r := by
  unfold beginMember at h
  split at h
  · cases h
    simp [Consumed, stackTokens, openTokens]
  · cases h

theorem consumed_separate {cs : List Container} {r : Reading} {ts : List Token}
    (consumed : ts ++ [.comma] = stackTokens cs) (h : separate cs = some r) :
    Consumed (ts ++ [.comma]) r := by
  unfold separate at h
  split at h <;> cases h
  · exact consumed
  · exact consumed

theorem consumed_close {token : Token} {cs : List Container} {r : Reading} {ts : List Token}
    (consumed : ts ++ [.comma] = stackTokens cs) (h : close token cs = some r) :
    Consumed (ts ++ [token]) r := by
  unfold close at h
  split at h
  · next items outer =>
    rw [stackTokens, openTokens] at consumed
    have nonempty : items.reverse ≠ [] := by
      intro empty
      rw [empty] at consumed
      have last := congrArg List.getLast? consumed
      simp at last
    rw [flatMap_itemTokens nonempty, ← List.cons_append, ← List.append_assoc] at consumed
    have placed := consumed_place h
    rw [List.append_cancel_right consumed]
    simpa [tokens] using placed
  · next fields outer =>
    rw [stackTokens, openTokens] at consumed
    have nonempty : fields.reverse ≠ [] := by
      intro empty
      rw [empty] at consumed
      have last := congrArg List.getLast? consumed
      simp at last
    rw [flatMap_fieldTokens nonempty, ← List.cons_append, ← List.append_assoc] at consumed
    have placed := consumed_place h
    rw [List.append_cancel_right consumed]
    simpa [tokens] using placed
  · cases h

theorem consumed_step {token : Token} {r r' : Reading} {ts : List Token} (consumed : Consumed ts r)
    (h : step token r = some r') : Consumed (ts ++ [token]) r' := by
  unfold step at h
  split at h
  case h_1 => cases h
  case h_2 cs =>
    obtain rfl : ts = stackTokens cs := consumed
    exact consumed_beginValue h
  case h_3 cs =>
    obtain ⟨rfl, outer, rfl⟩ := consumed
    split at h
    · next ends =>
      subst ends
      have placed : Consumed (stackTokens outer ++ tokens (.array [])) r' := consumed_place h
      rwa [stackTokens, List.append_assoc]
    · exact consumed_beginValue h
  case h_4 cs =>
    obtain ⟨rfl, outer, rfl⟩ := consumed
    split at h
    · next ends =>
      subst ends
      have placed : Consumed (stackTokens outer ++ tokens (.object [])) r' := consumed_place h
      rwa [stackTokens, List.append_assoc]
    · exact consumed_beginMember h
  case h_5 cs =>
    obtain rfl : ts = stackTokens cs := consumed
    exact consumed_beginMember h
  case h_6 cs =>
    split at h
    · next colon =>
      subst colon
      cases h
      exact consumed
    · cases h
  case h_7 cs =>
    split at h
    · next comma =>
      subst comma
      exact consumed_separate consumed h
    · exact consumed_close consumed h

theorem consumed_steps {ts done : List Token} {r r' : Reading} (consumed : Consumed done r)
    (h : steps ts r = some r') : Consumed (done ++ ts) r' := by
  induction ts generalizing done r with
  | nil =>
    cases h
    rwa [List.append_nil]
  | cons t ts ih =>
    obtain ⟨r'', stepped, later⟩ := Option.bind_eq_some_iff.1 h
    have whole := ih (consumed_step consumed stepped) later
    rwa [List.append_assoc] at whole

end Reading

/-- The parser accepts exactly the texts of the grammar, each for the one value that it holds. -/
theorem parse?_eq_some_iff {bs : Bytes} {j : Json} : parse? bs = some j ↔ j.Spells bs := by
  constructor
  · intro h
    obtain ⟨r, run, done⟩ := Option.bind_eq_some_iff.1 h
    obtain ⟨ts, lexed, read⟩ := Reading.lexed_of_run run
    have start : Reading.Consumed [] (.within .value []) := rfl
    have consumed : Reading.Consumed ([] ++ ts) r := Reading.consumed_steps start read
    cases r with
    | within expected cs => cases done
    | finished j' =>
      cases done
      obtain rfl : ts = tokens j := consumed
      exact lexed
  · intro spells
    have read : Reading.steps (tokens j ++ []) (.within .value []) = some (.finished j) :=
      Reading.steps_tokens j [] (Reading.awaitsValue_value []) rfl
    rw [List.append_nil] at read
    rw [parse?, Reading.run_of_lexed spells read (Nat.lt_succ_self _)]
    rfl

end HealthConsensus.Json
