/-
  CheckpointRelay.Proofs.Envelope.ColonLists — the list of a hook call and the names in it.

  A hook call carries its names in one text, joined by colons. The names are trimmed and blank
  ones are left out before they are joined, so no part of the text is empty and none has a colon
  in it: what is cut at the colons is what was joined. Only the text of no names is cut into one
  empty part, which is left out when the parts are joined again.
  - `listedNames_eq`: the names that are joined.
  - `encodes_listedNames`: the text stands for the names.
  - `ofHook_again`: the parts of the text make the same call.
  - `colon_lists_decode`: all of it, and texts that are cut and joined again.
-/

import CheckpointRelay.Proofs.Envelope.Requests

namespace CheckpointRelay.Envelope.Request

variable {id action : String} {names : List String}

/-! ## (1) Names -/

/-- The names that are joined are those that are not blank, trimmed. -/
theorem listedNames_eq (names : List String) :
    listedNames names = (names.filter fun name => !Text.allBlank name).map Text.trim := by
  have hkept : (fun part => decide (part ≠ "")) ∘ Text.trim = fun name => !Text.allBlank name := by
    funext name
    rw [Function.comp_apply, Bool.eq_iff_iff, decide_eq_true_eq, Bool.not_eq_true', ← Bool.not_eq_true,
      ← Text.trim_eq_empty_iff]
  rw [listedNames, List.filter_map, hkept]

theorem listedNames_eq_nil_iff : listedNames names = [] ↔ ∀ name ∈ names, Text.allBlank name = true := by
  rw [listedNames_eq, List.map_eq_nil_iff, List.filter_eq_nil_iff]
  simp only [Bool.not_eq_true', Bool.not_eq_false]

/-- Names that were joined are joined as they are. -/
theorem listedNames_listedNames (names : List String) : listedNames (listedNames names) = listedNames names := by
  have htrim : (listedNames names).map Text.trim = listedNames names :=
    (List.map_congr_left fun name hname => (listedNames_trimmed names name hname).2).trans (List.map_id _)
  calc listedNames (listedNames names) = ((listedNames names).map Text.trim).filter (· ≠ "") := rfl
    _ = (listedNames names).filter (· ≠ "") := by rw [htrim]
    _ = listedNames names := List.filter_eq_self.mpr fun name hname =>
      decide_eq_true (listedNames_trimmed names name hname).1

/-! ## (2) Lists -/

/-- The text stands for the names: it is empty if all of them are blank, and otherwise its parts
    are those that are not, without their padding. -/
structure Encodes (names : List String) (list : String) : Prop where
  empty : list = "" ↔ ∀ name ∈ names, Text.allBlank name = true
  parts : list ≠ "" → Text.splitOn ':' list = (names.filter fun name => !Text.allBlank name).map Text.trim

theorem encodes_listedNames (h : ∀ name ∈ names, ':' ∉ name.toList) :
    Encodes names (Text.join ":" (listedNames names)) := by
  have hsplit (hne : listedNames names ≠ []) :
      Text.splitOn ':' (Text.join ":" (listedNames names)) = listedNames names :=
    Text.splitOn_join (not_mem_listedNames h) hne
  have hempty : Text.join ":" (listedNames names) = "" ↔ listedNames names = [] := by
    constructor
    · intro hjoin
      by_contra hne
      -- the empty text is cut into an empty part, and no name that is joined is empty
      have hparts : [""] = listedNames names := by
        rw [← hsplit hne, hjoin]
        rfl
      exact (listedNames_trimmed names "" (hparts ▸ List.mem_singleton_self "")).1 rfl
    · intro hnil
      rw [hnil]
      rfl
  refine ⟨hempty.trans listedNames_eq_nil_iff, fun hne => ?_⟩
  rw [hsplit (mt hempty.mpr hne), listedNames_eq]

/-- The parts of a text that stands for some names are joined to the same text. -/
theorem Encodes.listedNames_splitOn {list : String} (h : Encodes names list) :
    listedNames (Text.splitOn ':' list) = listedNames names := by
  by_cases hlist : list = ""
  · subst hlist
    have hnil : listedNames names = [] := listedNames_eq_nil_iff.mpr (h.empty.mp rfl)
    rw [hnil]
    rfl
  · rw [h.parts hlist, ← listedNames_eq, listedNames_listedNames]

/-- What is made of a list is made of its parts again. -/
theorem ofHook_again {r : Request} {list : String} (h : ofHook id action names = .ok r)
    (hlist : r.dependencies = .list list) : ofHook id action (Text.splitOn ':' list) = .ok r := by
  obtain ⟨hid, hcolon, rfl⟩ := ofHook_ok_iff.mp h
  cases hlist
  have hagain := (encodes_listedNames hcolon).listedNames_splitOn
  exact ofHook_ok_iff.mpr ⟨hid, Text.not_mem_splitOn, by rw [hagain]⟩

/-- A hook call is made if its id is not blank and no name has a colon; a refusal tells of the id
    first. The id and the action are sent as they are given, with a text that stands for the
    names: it is empty if all of them are blank, and cut at the colons it gives the others, trimmed,
    in their order and as often as they are listed. So a list that comes as one text never stands in
    the way of a call, and the parts of the text that is sent are joined to the same text. -/
theorem colon_lists_decode (id action : String) (names : List String) :
    ((∃ r, ofHook id action names = .ok r) ↔ Text.allBlank id = false ∧ ∀ name ∈ names, ':' ∉ name.toList) ∧
      (∀ e, ofHook id action names = .error e ↔
        Text.allBlank id = true ∧ e = .blankId ∨
        Text.allBlank id = false ∧ (∃ name ∈ names, ':' ∈ name.toList) ∧ e = .colonInName) ∧
      (∀ r, ofHook id action names = .ok r →
        r.id = id ∧ r.action = action ∧ ∃ list, r.dependencies = .list list ∧ Encodes names list) ∧
      ∀ text, (∀ e, ofHook id action (Text.splitOn ':' text) = .error e → Text.allBlank id = true ∧ e = .blankId) ∧
        (Text.allBlank id = false → ∃ list, ofHook id action (Text.splitOn ':' text) = .ok ⟨id, action, .list list⟩ ∧
          ofHook id action (Text.splitOn ':' list) = .ok ⟨id, action, .list list⟩) := by
  refine ⟨?_, fun e => ofHook_error_iff, fun r h => ?_, fun text => ⟨fun e h => ?_, fun hid => ?_⟩⟩
  · constructor
    · rintro ⟨r, h⟩
      obtain ⟨hid, hcolon, -⟩ := ofHook_ok_iff.mp h
      exact ⟨hid, hcolon⟩
    · rintro ⟨hid, hcolon⟩
      exact ⟨_, ofHook_ok_iff.mpr ⟨hid, hcolon, rfl⟩⟩
  · obtain ⟨-, hcolon, rfl⟩ := ofHook_ok_iff.mp h
    exact ⟨rfl, rfl, _, rfl, encodes_listedNames hcolon⟩
  · rcases ofHook_error_iff.mp h with hblank | ⟨-, ⟨part, hpart, hmem⟩, -⟩
    · exact hblank
    · exact absurd hmem (Text.not_mem_splitOn part hpart)
  · have hcall : ofHook id action (Text.splitOn ':' text) = .ok _ :=
      ofHook_ok_iff.mpr ⟨hid, Text.not_mem_splitOn, rfl⟩
    exact ⟨_, hcall, ofHook_again hcall rfl⟩

/-- Padding, blank parts and a name twice: what is sent is the text of the names alone. -/
theorem a_list_with_blank_parts :
    let names := ["c1", " ", "", "c2\u00A0", "c1"]
    Text.splitOn ':' "c1: ::c2\u00A0:c1" = names ∧ ∃ list, Encodes names list ∧ list ≠ "" ∧
      Text.splitOn ':' list = ["c1", "c2", "c1"] ∧
      ofHook "restore" "pre-dump" (Text.splitOn ':' list) = .ok ⟨"restore", "pre-dump", .list list⟩ := by
  intro names
  have hnames : Text.splitOn ':' "c1: ::c2\u00A0:c1" = names := by decide
  obtain ⟨-, -, hsent, hjoined⟩ := colon_lists_decode "restore" "pre-dump" names
  obtain ⟨list, hcall, hagain⟩ := (hjoined "c1: ::c2\u00A0:c1").2 (by decide)
  rw [hnames] at hcall
  obtain ⟨-, -, _, hlist, hencodes⟩ := hsent _ hcall
  cases hlist
  have hne : list ≠ "" := mt hencodes.empty.mp (by decide)
  have hparts : Text.splitOn ':' list = ["c1", "c2", "c1"] := (hencodes.parts hne).trans (by decide)
  exact ⟨hnames, list, hencodes, hne, hparts, hagain⟩

end CheckpointRelay.Envelope.Request
