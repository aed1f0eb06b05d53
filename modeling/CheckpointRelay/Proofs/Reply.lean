/-
  CheckpointRelay.Proofs.Reply — replies by their bytes.

  A reply is recognised by its text, and the text is made of its bytes with a U+FFFD for what is
  no UTF-8. That character is no padding and stands in no message, so a text that is recognised
  was decoded without loss: the bytes are those of the message and of padding around it (`Says`).
  Padding in front of a reply and behind it is decoded to itself, wherever the reply breaks off.
  - `kindOf_eq_iff`: the text of a kind.
  - `trim_decode_eq_iff`: the bytes of a text.
  - `kinds_are_padded_messages`: which bytes are which kind of reply.
  - `padding_does_not_count`: replies with padding, and the text of a reply once more.
-/

import CheckpointRelay.Proofs.Text.Parts
import CheckpointRelay.Proofs.Text.Replacement
import CheckpointRelay.Reply

namespace CheckpointRelay

namespace Text.Utf8

theorem encode_append (s t : String) : encode (s ++ t) = encode s ++ encode t := by
  rw [encode, String.toList_append, List.flatMap_append]
  rfl

/-- Well-formed bytes are the encoding of some text. -/
theorem isValidUTF8_iff {bs : Bytes} : bs.toByteArray.IsValidUTF8 ↔ ∃ s, bs = encode s := by
  constructor
  · rintro ⟨cs, hcs⟩
    refine ⟨String.ofList cs, ?_⟩
    rw [encode, String.toList_ofList]
    exact List.toByteArray_inj.mp hcs
  · rintro ⟨s, rfl⟩
    exact ⟨s.toList, rfl⟩

end Text.Utf8

open Text (allBlank)
open Text.Utf8 (Bytes encode decode replacement)

namespace Reply

/-! ## (1) Kinds and texts -/

theorem lookup_messages {text : String} {kind : Kind} :
    messages.lookup text = some kind ↔ (text, kind) ∈ messages := by
  rw [List.lookup_eq_some_iff]
  constructor
  · rintro ⟨before, behind, hmessages, -⟩
    rw [hmessages]
    exact List.mem_append_right before List.mem_cons_self
  · intro hmem
    have hnames : (messages.map (·.1)).Nodup := by decide
    obtain ⟨before, behind, hmessages⟩ := List.append_of_mem hmem
    refine ⟨before, behind, hmessages, fun p hp => bne_iff_ne.mpr ?_⟩
    rw [hmessages, List.map_append, List.nodup_append] at hnames
    exact (hnames.2.2 p.1 (List.mem_map_of_mem hp) text List.mem_cons_self).symm

/-- The text of a kind; only what is unknown may have any other one. -/
theorem kindOf_eq_iff {text : String} {kind : Kind} (h : kind ≠ .unknown) :
    kindOf text = kind ↔ (text = "" ∧ kind = .empty) ∨ (text, kind) ∈ messages := by
  have hempty : ("", kind) ∉ messages := by simp [messages]
  unfold kindOf
  split
  · rename_i htext
    subst htext
    simp [hempty, eq_comm]
  · rename_i htext
    simp only [htext, false_and, false_or, ← lookup_messages]
    cases messages.lookup text with
    | none => simp [Ne.symm h]
    | some found => simp

/-! ## (2) Texts and bytes -/

/-- The bytes of a message, with padding before and behind it. -/
def Says (raw : Bytes) (message : String) : Prop :=
  ∃ before behind, allBlank before = true ∧ allBlank behind = true ∧
    raw = encode before ++ encode message ++ encode behind

variable {raw : Bytes} {message : String}

theorem replacement_not_blank {s : String} (h : allBlank s = true) : replacement ∉ s.toList := by
  intro hmem
  have hblank : Text.isBlank replacement = true := List.all_eq_true.mp h replacement hmem
  revert hblank
  decide

theorem says_of_decode (h : Text.trim (decode raw) = message) (hmessage : replacement ∉ message.toList) :
    Says raw message := by
  obtain ⟨before, behind, hbefore, hbehind, htext⟩ := Text.exists_padding (decode raw)
  rw [h] at htext
  have hkept : replacement ∉ (decode raw).toList := by
    rw [htext, String.toList_append, String.toList_append, List.mem_append, List.mem_append, not_or, not_or]
    exact ⟨⟨replacement_not_blank hbefore, hmessage⟩, replacement_not_blank hbehind⟩
  refine ⟨before, behind, hbefore, hbehind, ?_⟩
  rw [← Text.Utf8.encode_append, ← Text.Utf8.encode_append, ← htext, Text.Utf8.encode_decode hkept]

theorem trim_decode_said (h : Says raw message) : Text.trim (decode raw) = Text.trim message := by
  obtain ⟨before, behind, hbefore, hbehind, rfl⟩ := h
  rw [Text.Utf8.decode_between, Text.Utf8.decode_encode, Text.trim_padded hbefore hbehind]

/-- The bytes of a text that has no padding of its own. -/
theorem trim_decode_eq_iff (hmessage : replacement ∉ message.toList) (htrim : Text.trim message = message) :
    Text.trim (decode raw) = message ↔ Says raw message :=
  ⟨fun h => says_of_decode h hmessage, fun h => (trim_decode_said h).trans htrim⟩

theorem says_empty_iff : Says raw "" ↔ ∃ padding, allBlank padding = true ∧ raw = encode padding := by
  constructor
  · rintro ⟨before, behind, hbefore, hbehind, rfl⟩
    refine ⟨before ++ behind, ?_, by rw [Text.Utf8.encode_append]; simp [encode]⟩
    rw [allBlank, String.toList_append, List.all_append, Bool.and_eq_true]
    exact ⟨hbefore, hbehind⟩
  · rintro ⟨padding, hpadding, rfl⟩
    exact ⟨padding, "", hpadding, rfl, by simp [encode]⟩

theorem says_wellFormed (h : Says raw message) : raw.toByteArray.IsValidUTF8 := by
  obtain ⟨before, behind, -, -, rfl⟩ := h
  refine Text.Utf8.isValidUTF8_iff.mpr ⟨before ++ message ++ behind, ?_⟩
  rw [Text.Utf8.encode_append, Text.Utf8.encode_append]

/-! ## (3) Replies -/

theorem kindOf_text (raw : Bytes) : kindOf (classify raw).text = (classify raw).kind := by
  rw [classify]

/-- The kind of a message by its bytes. -/
theorem classify_kind_iff {kind : Kind} (h : (message, kind) ∈ messages) :
    (classify raw).kind = kind ↔ Says raw message := by
  have hknown : ∀ p ∈ messages, p.2 ≠ .unknown ∧ p.2 ≠ .empty ∧ replacement ∉ p.1.toList ∧ Text.trim p.1 = p.1 := by
    decide
  obtain ⟨hunknown, hempty, hkept, htrim⟩ := hknown _ h
  have hone : ∀ p ∈ messages, ∀ q ∈ messages, p.2 = q.2 → p.1 = q.1 := by decide
  rw [classify, kindOf_eq_iff hunknown, ← trim_decode_eq_iff hkept htrim]
  constructor
  · rintro (⟨-, rfl⟩ | hmem)
    · exact absurd rfl hempty
    · exact hone _ hmem _ h rfl
  · rintro rfl
    exact Or.inr h

theorem classify_empty_iff : (classify raw).kind = .empty ↔ (classify raw).text = "" := by
  have hnone : ∀ p ∈ messages, p.2 ≠ .empty := by decide
  rw [classify, kindOf_eq_iff (by decide)]
  simp only [and_true]
  exact ⟨fun h => h.resolve_right fun hmem => hnone _ hmem rfl, Or.inl⟩

theorem text_ne_empty (h : (classify raw).kind = .unknown) : (classify raw).text ≠ "" := by
  intro htext
  rw [classify_empty_iff.mpr htext] at h
  cases h

/-- A reply that says none of the texts is unknown. -/
theorem classify_unknown
    (h : ∀ message ∈ ["ACK", "timeout", "not connected", "checkpoint is already created", "client already connected", ""],
      ¬Says raw message) : (classify raw).kind = .unknown ∧ (classify raw).text ≠ "" := by
  have hunknown : (classify raw).kind = .unknown := by
    by_contra hknown
    rcases (kindOf_eq_iff hknown).mp (kindOf_text raw) with ⟨htext, -⟩ | hmem
    · exact h "" (by decide) ((trim_decode_eq_iff (by decide) rfl).mp htext)
    · have hlisted : ∀ p ∈ messages, p.1 ∈ ["ACK", "timeout", "not connected", "checkpoint is already created",
          "client already connected", ""] := by decide
      exact h _ (hlisted _ hmem) ((classify_kind_iff hmem).mp rfl)
  exact ⟨hunknown, text_ne_empty hunknown⟩

/-- A message is recognised in its bytes with padding before and behind them, and in no others;
    padding alone is the empty reply. Everything else is unknown and has a text, and so has
    whatever is no UTF-8. -/
theorem kinds_are_padded_messages (raw : Bytes) :
    let reply := classify raw
    (reply.kind = .ack ↔ Says raw "ACK") ∧
    (reply.kind = .timeout ↔ Says raw "timeout") ∧
    (reply.kind = .notConnected ↔ Says raw "not connected") ∧
    (reply.kind = .checkpointExists ↔ Says raw "checkpoint is already created") ∧
    (reply.kind = .alreadyConnected ↔ Says raw "client already connected") ∧
    (reply.kind = .empty ↔ ∃ padding, allBlank padding = true ∧ raw = encode padding) ∧
    ((∀ message ∈ ["ACK", "timeout", "not connected", "checkpoint is already created", "client already connected", ""],
      ¬Says raw message) → reply.kind = .unknown ∧ reply.text ≠ "") ∧
    (¬raw.toByteArray.IsValidUTF8 → reply.kind = .unknown ∧ reply.text ≠ "") := by
  intro reply
  have hempty : reply.kind = .empty ↔ ∃ padding, allBlank padding = true ∧ raw = encode padding := by
    rw [classify_empty_iff, ← says_empty_iff, ← trim_decode_eq_iff (by decide) rfl]
    rfl
  exact ⟨classify_kind_iff (by decide), classify_kind_iff (by decide), classify_kind_iff (by decide),
    classify_kind_iff (by decide), classify_kind_iff (by decide), hempty, classify_unknown,
    fun hbytes => classify_unknown fun message _ hsays => hbytes (says_wellFormed hsays)⟩

/-- A message behind a byte order mark, and one behind a blank in two bytes, where one is its
    encoding. -/
theorem an_ack_and_an_overlong_blank :
    (classify (encode "\uFEFFACK\u2028\n")).kind = .ack ∧
    ¬(List.toByteArray [0xC0, 0xA0, 0x41, 0x43, 0x4B]).IsValidUTF8 ∧
    (classify [0xC0, 0xA0, 0x41, 0x43, 0x4B]).kind = .unknown := by
  have hbytes : ¬(List.toByteArray [0xC0, 0xA0, 0x41, 0x43, 0x4B]).IsValidUTF8 := by decide
  obtain ⟨hack, -⟩ := kinds_are_padded_messages (encode "\uFEFFACK\u2028\n")
  obtain ⟨-, -, -, -, -, -, -, hunknown⟩ := kinds_are_padded_messages [0xC0, 0xA0, 0x41, 0x43, 0x4B]
  refine ⟨hack.mpr ⟨"\uFEFF", "\u2028\n", by decide, by decide, ?_⟩, hbytes, (hunknown hbytes).1⟩
  rw [← Text.Utf8.encode_append, ← Text.Utf8.encode_append]
  rfl

/-- Padding in front of a reply and behind it makes no difference, whatever bytes the reply has.
    The text of a reply is itself a reply of that kind and that text. -/
theorem padding_does_not_count :
    (∀ (raw : Bytes) (before behind : String), allBlank before = true → allBlank behind = true →
      classify (encode before ++ raw ++ encode behind) = classify raw) ∧
    (∀ raw : Bytes, classify (encode (classify raw).text) = classify raw) := by
  refine ⟨fun raw before behind hbefore hbehind => ?_, fun raw => ?_⟩
  · have htext : Text.trim (decode (encode before ++ raw ++ encode behind)) = Text.trim (decode raw) := by
      rw [Text.Utf8.decode_between, Text.trim_padded hbefore hbehind]
    rw [classify, htext]
    rfl
  · have htext : Text.trim (decode (encode (Text.trim (decode raw)))) = Text.trim (decode raw) := by
      rw [Text.Utf8.decode_encode, Text.trim_trim]
    rw [classify, classify, htext]

/-- A reply that breaks off inside a blank, in front of another blank that begins like it. -/
theorem a_blank_cut_before_padding :
    classify (encode "\uFEFF" ++ [0x41, 0x43, 0x4B, 0xE2, 0x80] ++ encode "\u2029 ")
      = classify [0x41, 0x43, 0x4B, 0xE2, 0x80] ∧
    (classify [0x41, 0x43, 0x4B, 0xE2, 0x80]).text = "ACK\uFFFD" := by
  obtain ⟨hpadding, -⟩ := padding_does_not_count
  exact ⟨hpadding [0x41, 0x43, 0x4B, 0xE2, 0x80] "\uFEFF" "\u2029 " (by decide) (by decide), by decide⟩

end Reply

end CheckpointRelay
