/-
  CheckpointRelay.Proofs.Envelope.Framing — where a message ends.

  A message has no length in front and no mark behind, so the one who reads it has to find its end
  in the message itself. It is the text of an object, and such a text is not over before its last
  brace. Bytes that are cut off before that are decoded to a beginning of the text, or, inside of a
  character, to something that ends with a U+FFFD; neither is a text that can be read.
  - `bytes_printable`: the bytes of an envelope.
  - `read?_arrived`: what can be read while an envelope arrives.
  - `messages_end_where_they_can_be_read`: all of it, and why no envelope begins another.
-/

import CheckpointRelay.Proofs.Envelope.Language
import CheckpointRelay.Proofs.Json.Beginnings
import CheckpointRelay.Proofs.Text.Replacement

namespace CheckpointRelay.Envelope

open Text.Utf8 (Bytes decode encode decodeChars)

/-! ## (1) Bytes -/

/-- Printable characters have printable bytes. -/
theorem bytes_printable {cs : List Char} (h : Json.Printable cs) :
    ∀ b ∈ encode (String.ofList cs), 0x20 ≤ b.toNat := by
  intro b hb
  rw [encode, String.toList_ofList] at hb
  obtain ⟨c, hc, hb⟩ := List.mem_flatMap.mp hb
  have hprintable : 0x20 ≤ c.toNat := h c hc
  rcases Text.Utf8.encode_ascii hb with hself | hhigh <;> omega

/-- What is cut off from the text of an object ends with its brace. -/
theorem missing_brace {members : Keyed Json} {front behind : List Char}
    (h : front ++ behind = Json.render (.obj members)) (hne : behind ≠ []) :
    ∃ inner, Json.render (.obj members) = front ++ inner ++ ['}'] := by
  obtain ⟨body, hbody⟩ := Json.render_closed members
  have hlast : front ++ behind.dropLast ++ [behind.getLast hne] = body ++ ['}'] := by
    rw [List.append_assoc, List.dropLast_concat_getLast, h, hbody]
  obtain ⟨hinner, -⟩ := List.append_inj' hlast rfl
  exact ⟨behind.dropLast, by rw [hbody, hinner]⟩

/-- What has arrived of an object before its end cannot be read. -/
theorem read?_cut {members : Keyed Json} {arrived rest : Bytes}
    (h : arrived ++ rest = encode (Json.text (.obj members))) (hne : rest ≠ []) :
    Json.read? (decode arrived) = none := by
  rw [decode]
  rcases Text.Utf8.decodeChars_cut arrived rest with hcut | ⟨cs, hreplaced⟩
  · -- cut between two characters: a beginning of the text, and not all of it
    have hwhole : decodeChars arrived ++ decodeChars rest = Json.render (.obj members) := by
      rw [← hcut, h, encode, Json.text, String.toList_ofList, Text.Utf8.decodeChars_encode]
    have hbehind : decodeChars rest ≠ [] := Text.Utf8.decodeFrom_ne_nil .idle hne
    obtain ⟨inner, hrender⟩ := missing_brace hwhole hbehind
    refine Json.read?_beginning _ inner ?_
    rw [← hrender, ← Json.text, Json.read?_text]
    rfl
  · -- cut inside of a character
    rw [hreplaced]
    exact Json.read?_replaced cs

variable {v : Json} {payload arrived : Bytes}

theorem read?_arrived (h : serialize v = .ok payload) (harrived : arrived <+: payload) :
    (∃ w, Json.read? (decode arrived) = some w) ↔ arrived = payload := by
  obtain ⟨henvelope, rfl⟩ := serialize_ok_iff.mp h
  obtain ⟨members, rfl⟩ := henvelope.object
  constructor
  · rintro ⟨w, hread⟩
    obtain ⟨rest, hrest⟩ := harrived
    by_contra hne
    have hcut := read?_cut hrest fun hnil => hne (by rw [← hrest, hnil, List.append_nil])
    rw [hcut] at hread
    cases hread
  · rintro rfl
    exact ⟨_, by rw [Text.Utf8.decode_encode, Json.read?_text]⟩

/-- No byte of an envelope is a control character, and while it arrives it can be read when it is
    whole and not before. So no envelope is the beginning of a longer one. -/
theorem messages_end_where_they_can_be_read :
    (∀ v payload, serialize v = .ok payload → (∀ b ∈ payload, 0x20 ≤ b.toNat) ∧
      ∀ arrived, arrived <+: payload → ((∃ w, Json.read? (decode arrived) = some w) ↔ arrived = payload)) ∧
    ∀ v w payload other, serialize v = .ok payload → serialize w = .ok other → payload <+: other → payload = other := by
  refine ⟨fun v payload h => ⟨?_, fun arrived => read?_arrived h⟩, fun v w payload other h hother hbegins => ?_⟩
  · obtain ⟨-, rfl⟩ := serialize_ok_iff.mp h
    exact bytes_printable (Json.render_printable v)
  · have hread : ∃ w, Json.read? (decode payload) = some w := (read?_arrived h (List.prefix_refl payload)).mpr rfl
    exact (read?_arrived hother hbegins).mp hread

/-- Cuts behind a brace in a string, inside a character and inside a number. -/
theorem an_envelope_that_is_cut :
    let v : Json := .obj [("id", .str "\x7d\"😀"), ("n", .num (.finite false 3 (-1))), ("action", .str "network-lock"),
      ("dependencies", .obj [])]
    let inString := encode "\x7b\"id\":\"\x7d"
    let inCharacter := encode "\x7b\"id\":\"\x7d\\\"" ++ [0xF0, 0x9F]
    let inNumber := encode "\x7b\"id\":\"\x7d\\\"😀\",\"n\":1"
    ∃ payload, serialize v = .ok payload ∧ (∃ w, Json.read? (decode payload) = some w) ∧
      ∀ arrived ∈ [inString, inCharacter, inNumber],
        arrived <+: payload ∧ ¬∃ w, Json.read? (decode arrived) = some w := by
  intro v inString inCharacter inNumber
  have henvelope : IsEnvelope v :=
    ⟨⟨_, rfl⟩, ⟨_, rfl, by decide⟩, ⟨"network-lock", rfl, by decide⟩, ⟨_, rfl, .map _ nofun⟩⟩
  have hpayload : serialize v = .ok (encode v.text) := serialize_ok_iff.mpr ⟨henvelope, rfl⟩
  obtain ⟨hends, -⟩ := messages_end_where_they_can_be_read
  have harrives := (hends v _ hpayload).2
  have hbeginnings : ∀ arrived ∈ [inString, inCharacter, inNumber], arrived <+: encode v.text ∧ arrived ≠ encode v.text := by
    decide
  refine ⟨_, hpayload, (harrives _ (List.prefix_refl _)).mpr rfl, fun arrived h => ?_⟩
  obtain ⟨hbegins, hne⟩ := hbeginnings arrived h
  exact ⟨hbegins, mt (harrives arrived hbegins).mp hne⟩

end CheckpointRelay.Envelope
