/-
  CheckpointRelay.Proofs.Text.Parts — texts made of parts, and parts without padding.

  - `trim_trim`: a text without padding stays as it is.
  - `mem_trim_iff`: only padding is taken away.
  - `trim_eq_empty_iff`: nothing is left of a blank text, and of no other one.
  - `trim_padded` / `exists_padding`: padding makes no difference, and a text is its trimmed text
    with padding around it.
  - `not_mem_splitOn`: no part has the separator in it.
  - `splitOn_join`: cutting a joined text gives the parts back, when no part has the separator
    in it and there is at least one.
-/

import CheckpointRelay.Text.Blank
import CheckpointRelay.Text.Split
import Mathlib.Data.List.DropRight

namespace CheckpointRelay.Text

/-! ## (1) Padding -/

/-- What begins without a blank still does after its end is trimmed. -/
theorem trimStart_trimEnd {cs : List Char} (h : trimStartChars cs = cs) :
    trimStartChars (trimEndChars cs) = trimEndChars cs := by
  obtain ⟨rest, hrest⟩ : trimEndChars cs <+: cs := List.rdropWhile_prefix isBlank cs
  cases hcs : trimEndChars cs with
  | nil => rfl
  | cons d ds =>
    rw [hcs] at hrest
    have hd : isBlank d = false := by
      rw [← hrest] at h
      simp only [trimStartChars, List.cons_append, List.dropWhile_cons] at h
      split at h
      · exact absurd (List.Sublist.length_le (List.dropWhile_sublist isBlank)) (by rw [h]; simp)
      · simp_all
    simp [trimStartChars, hd]

theorem trimChars_trimChars (cs : List Char) : trimChars (trimChars cs) = trimChars cs := by
  have hstart : trimStartChars (trimStartChars cs) = trimStartChars cs := List.dropWhile_idempotent isBlank cs
  have hend : trimEndChars (trimChars cs) = trimChars cs := List.rdropWhile_idempotent isBlank (trimStartChars cs)
  calc trimChars (trimChars cs) = trimEndChars (trimStartChars (trimChars cs)) := rfl
    _ = trimEndChars (trimChars cs) := by rw [trimChars, trimStart_trimEnd hstart]
    _ = trimChars cs := hend

theorem trim_trim (s : String) : trim (trim s) = trim s := by
  rw [trim, trim, String.toList_ofList, trimChars_trimChars]

/-- Trimming adds no character. -/
theorem not_mem_trim {c : Char} {s : String} (h : c ∉ s.toList) : c ∉ (trim s).toList := by
  intro hc
  rw [trim, String.toList_ofList] at hc
  have hend : trimChars s.toList <+: trimStartChars s.toList := List.rdropWhile_prefix isBlank _
  exact h ((List.dropWhile_sublist isBlank).subset (hend.subset hc))

theorem mem_dropWhile {c : Char} {cs : List Char} (hc : isBlank c = false) (h : c ∈ cs) :
    c ∈ cs.dropWhile isBlank := by
  have hsplit : cs.takeWhile isBlank ++ cs.dropWhile isBlank = cs := List.takeWhile_append_dropWhile
  rw [← hsplit, List.mem_append] at h
  rcases h with h | h
  · rw [List.mem_takeWhile_imp h] at hc
    cases hc
  · exact h

/-- Trimming takes nothing away but padding. -/
theorem mem_trim_iff {c : Char} {s : String} (hc : isBlank c = false) : c ∈ (trim s).toList ↔ c ∈ s.toList := by
  constructor
  · intro h
    by_contra hs
    exact not_mem_trim hs h
  · intro h
    have hstart : c ∈ trimStartChars s.toList := mem_dropWhile hc h
    rw [trim, String.toList_ofList]
    exact List.mem_reverse.mpr (mem_dropWhile hc (List.mem_reverse.mpr hstart))

theorem trimChars_eq_nil_iff {cs : List Char} : trimChars cs = [] ↔ cs.all isBlank = true := by
  have hend : trimChars cs = [] ↔ ∀ c ∈ trimStartChars cs, isBlank c = true := List.rdropWhile_eq_nil_iff
  rw [hend, List.all_eq_true]
  constructor
  · intro h
    -- what stands in front of the trimmed text is blank as well
    have hsplit : cs.takeWhile isBlank ++ trimStartChars cs = cs := List.takeWhile_append_dropWhile
    intro c hc
    rw [← hsplit, List.mem_append] at hc
    rcases hc with hc | hc
    · exact List.mem_takeWhile_imp hc
    · exact h c hc
  · intro h c hc
    exact h c ((List.dropWhile_sublist isBlank).subset hc)

theorem trim_eq_empty_iff {s : String} : trim s = "" ↔ allBlank s = true := by
  rw [trim, allBlank, ← trimChars_eq_nil_iff, ← String.toList_inj, String.toList_ofList]
  rfl

theorem allBlank_eq_false_iff {s : String} : allBlank s = false ↔ ∃ c ∈ s.toList, isBlank c = false := by
  simp [allBlank]

theorem allBlank_trim (s : String) : allBlank (trim s) = allBlank s := by
  rw [Bool.eq_iff_iff, ← trim_eq_empty_iff, ← trim_eq_empty_iff, trim_trim]

theorem trimEnd_append_blank {blank : List Char} (h : ∀ c ∈ blank, isBlank c = true) (cs : List Char) :
    trimEndChars (cs ++ blank) = trimEndChars cs := by
  have hreverse : ∀ c ∈ blank.reverse, isBlank c = true := fun c hc => h c (List.mem_reverse.mp hc)
  rw [trimEndChars, trimEndChars, List.reverse_append, List.dropWhile_append_of_pos hreverse]

theorem trimChars_padded {before after : List Char} (hbefore : ∀ c ∈ before, isBlank c = true)
    (hafter : ∀ c ∈ after, isBlank c = true) (cs : List Char) : trimChars (before ++ (cs ++ after)) = trimChars cs := by
  rw [trimChars, trimStartChars, List.dropWhile_append_of_pos hbefore, List.dropWhile_append]
  split
  · -- nothing but padding, so the end is taken from both sides
    rename_i hnil
    have hcs : trimChars cs = [] := by
      rw [trimChars, trimStartChars, List.isEmpty_iff.mp hnil]
      rfl
    rw [hcs, List.dropWhile_eq_nil_iff.mpr hafter]
    rfl
  · exact trimEnd_append_blank hafter _

/-- Padding makes no difference to the trimmed text. -/
theorem trim_padded {before after : String} (hbefore : allBlank before = true) (hafter : allBlank after = true)
    (s : String) : trim (before ++ s ++ after) = trim s := by
  rw [trim, String.toList_append, String.toList_append, List.append_assoc,
    trimChars_padded (List.all_eq_true.mp hbefore) (List.all_eq_true.mp hafter)]
  rfl

/-- A text is its trimmed text with padding around it. -/
theorem exists_padding (s : String) :
    ∃ before after, allBlank before = true ∧ allBlank after = true ∧ s = before ++ trim s ++ after := by
  refine ⟨String.ofList (s.toList.takeWhile isBlank), String.ofList ((trimStartChars s.toList).rtakeWhile isBlank),
    ?_, ?_, ?_⟩
  · rw [allBlank, String.toList_ofList, List.all_eq_true]
    exact fun c hc => List.mem_takeWhile_imp hc
  · rw [allBlank, String.toList_ofList, List.all_eq_true]
    exact fun c hc => List.mem_rtakeWhile_imp hc
  · have hend : trimChars s.toList ++ (trimStartChars s.toList).rtakeWhile isBlank = trimStartChars s.toList :=
      List.rdropWhile_append_rtakeWhile
    have hstart : s.toList.takeWhile isBlank ++ trimStartChars s.toList = s.toList := List.takeWhile_append_dropWhile
    rw [trim, ← String.ofList_append, ← String.ofList_append, List.append_assoc, hend, hstart, String.ofList_toList]

/-! ## (2) Parts -/

variable {sep : Char}

theorem not_mem_splitChars {cs : List Char} : ∀ part ∈ splitChars sep cs, sep ∉ part := by
  induction cs with
  | nil => simp [splitChars]
  | cons c cs ih =>
    intro part hpart
    rw [splitChars] at hpart
    split at hpart
    · rcases List.mem_cons.mp hpart with rfl | hpart
      · exact List.not_mem_nil
      · exact ih part hpart
    · rename_i hc
      split at hpart
      · rw [List.mem_singleton.mp hpart, List.mem_singleton]
        exact Ne.symm hc
      · rename_i first rest hparts
        rw [hparts] at ih
        rcases List.mem_cons.mp hpart with rfl | hpart
        · exact List.not_mem_cons_of_ne_of_not_mem (Ne.symm hc) (ih first List.mem_cons_self)
        · exact ih part (List.mem_cons_of_mem first hpart)

/-- No part has the separator in it. -/
theorem not_mem_splitOn {s : String} : ∀ part ∈ splitOn sep s, sep ∉ part.toList := by
  intro part hpart
  obtain ⟨cs, hcs, rfl⟩ := List.mem_map.mp hpart
  rw [String.toList_ofList]
  exact not_mem_splitChars cs hcs

theorem splitChars_of_not_mem {cs : List Char} (h : sep ∉ cs) : splitChars sep cs = [cs] := by
  induction cs with
  | nil => rfl
  | cons c cs ih =>
    rw [List.mem_cons, not_or] at h
    rw [splitChars, if_neg (Ne.symm h.1), ih h.2]

theorem splitChars_append {cs : List Char} (h : sep ∉ cs) (rest : List Char) :
    splitChars sep (cs ++ sep :: rest) = cs :: splitChars sep rest := by
  induction cs with
  | nil => rw [List.nil_append, splitChars, if_pos rfl]
  | cons c cs ih =>
    rw [List.mem_cons, not_or] at h
    rw [List.cons_append, splitChars, if_neg (Ne.symm h.1), ih h.2]

theorem splitOn_append {part : String} (h : sep ∉ part.toList) (rest : String) :
    splitOn sep (part ++ String.singleton sep ++ rest) = part :: splitOn sep rest := by
  have hchars : (part ++ String.singleton sep ++ rest).toList = part.toList ++ sep :: rest.toList := by simp
  rw [splitOn, hchars, splitChars_append h, List.map_cons, String.ofList_toList]
  rfl

/-- Cutting is the inverse of joining. -/
theorem splitOn_join {parts : List String} (h : ∀ part ∈ parts, sep ∉ part.toList) (hne : parts ≠ []) :
    splitOn sep (join (String.singleton sep) parts) = parts := by
  match parts with
  | [] => exact absurd rfl hne
  | [part] =>
    rw [join, splitOn, splitChars_of_not_mem (h part List.mem_cons_self), List.map_cons, List.map_nil,
      String.ofList_toList]
  | part :: next :: parts =>
    have hrest : ∀ p ∈ next :: parts, sep ∉ p.toList := fun p hp => h p (List.mem_cons_of_mem part hp)
    rw [join, splitOn_append (h part List.mem_cons_self), splitOn_join hrest (List.cons_ne_nil next parts)]

end CheckpointRelay.Text
