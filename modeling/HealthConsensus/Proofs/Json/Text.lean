import HealthConsensus.Proofs.Json.Grammar

namespace HealthConsensus.Json

mutual

def IsWritten : Json → Prop
  | .null => True
  | .bool _ => True
  | .number x => x.Proper
  | .string raw => ∃ bs, raw = Quoted.escape bs
  | .array items => ItemsWritten items
  | .object fields => FieldsWritten fields

def ItemsWritten : List Json → Prop
  | [] => True
  | j :: items => IsWritten j ∧ ItemsWritten items

def FieldsWritten : List (Bytes × Json) → Prop
  | [] => True
  | (k, j) :: fields => (∃ bs, k = Quoted.escape bs) ∧ IsWritten j ∧ FieldsWritten fields

end

theorem Lexed.token {sp rest : Bytes} {token : Token} {ts : List Token} (spells : token.Spells sp)
    (later : Lexed ts rest) : Lexed (token :: ts) (sp ++ rest) := by
  have none : ∀ b ∈ ([] : Bytes), Ascii.isBlank b = true := fun _ h => nomatch h
  exact .cons none spells later

theorem Lexed.byte {b : UInt8} {rest : Bytes} {token : Token} {ts : List Token}
    (spells : token.Spells [b]) (later : Lexed ts rest) : Lexed (token :: ts) (b :: rest) :=
  .token spells later

theorem Lexed.quoted {ts : List Token} {rest : Bytes} (bs : Bytes) (later : Lexed ts rest) :
    Lexed (.string (Quoted.escape bs) :: ts) (Json.quoted (Quoted.escape bs) ++ rest) :=
  .token ⟨Quoted.body_escape bs, rfl⟩ later

mutual

theorem lexed_text : ∀ (j : Json), j.IsWritten → ∀ {ts : List Token} {rest : Bytes},
    Lexed ts rest → Lexed (tokens j ++ ts) (text j ++ rest)
  | .null, _, _, _, later => .token rfl later
  | .bool true, _, _, _, later => .token rfl later
  | .bool false, _, _, _, later => .token rfl later
  | .number x, written, _, _, later => .token ⟨written, 101, .inl rfl, x.text_eq⟩ later
  | .string raw, written, _, _, later => by
    obtain ⟨bs, rfl⟩ := written
    exact .quoted bs later
  | .array items, written, ts, rest, later => by
    have ends : Lexed (.endArray :: ts) (93 :: rest) := .byte rfl later
    have whole : Lexed (.beginArray :: _) (91 :: _) := .byte rfl (lexed_items items written ends)
    simpa [tokens, text] using whole
  | .object fields, written, ts, rest, later => by
    have ends : Lexed (.endObject :: ts) (125 :: rest) := .byte rfl later
    have whole : Lexed (.beginObject :: _) (123 :: _) := .byte rfl (lexed_fields fields written ends)
    simpa [tokens, text] using whole

theorem lexed_items : ∀ (items : List Json), ItemsWritten items →
    ∀ {ts : List Token} {rest : Bytes}, Lexed ts rest →
      Lexed (itemTokens items ++ ts) (itemsText items ++ rest)
  | [], _, _, _, later => later
  | [j], written, _, _, later => lexed_text j written.1 later
  | j :: k :: items, written, ts, rest, later => by
    have others : Lexed (.comma :: _) (44 :: _) := .byte rfl (lexed_items (k :: items) written.2 later)
    simpa [itemTokens, itemsText] using lexed_text j written.1 others

theorem lexed_fields : ∀ (fields : List (Bytes × Json)), FieldsWritten fields →
    ∀ {ts : List Token} {rest : Bytes}, Lexed ts rest →
      Lexed (fieldTokens fields ++ ts) (fieldsText fields ++ rest)
  | [], _, _, _, later => later
  | [(k, j)], written, ts, rest, later => by
    obtain ⟨⟨bs, rfl⟩, written, -⟩ := written
    have value : Lexed (.colon :: _) (58 :: _) := .byte rfl (lexed_text j written later)
    simpa [fieldTokens, fieldsText] using value.quoted bs
  | (k, j) :: f :: fields, written, ts, rest, later => by
    obtain ⟨⟨bs, rfl⟩, written, others⟩ := written
    have others : Lexed (.comma :: _) (44 :: _) := .byte rfl (lexed_fields (f :: fields) others later)
    have value : Lexed (.colon :: _) (58 :: _) := .byte rfl (lexed_text j written others)
    simpa [fieldTokens, fieldsText] using value.quoted bs

end

theorem parse?_text {j : Json} (h : j.IsWritten) : parse? j.text = some j := by
  have lexed : Lexed (tokens j ++ []) (text j ++ []) :=
    lexed_text j h (.nil fun _ h => nomatch h)
  rw [List.append_nil, List.append_nil] at lexed
  exact parse?_eq_some_iff.2 lexed

end HealthConsensus.Json
