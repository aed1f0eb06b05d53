/-
  CheckpointRelay.Proofs.Files.Paths — paths that are joined, and what a path leads to.

  A path is normalised by leaving parts of it away, so a joined path has no character more often
  than its directory and its name together, slashes and dots aside. What a path leads to is the
  same for every operation: it can be read if `stat` finds a file there, and it has the content
  that `stat` finds.
  - `occurrences_join_le`: the characters of a joined path.
  - `Tree.stat_of_read` / `Tree.read_of_stat`: reading and looking.
  - `Tree.stat_error`: how looking fails.
-/

import CheckpointRelay.Files.Tree

namespace CheckpointRelay

/-! ## (1) Characters -/

namespace Text

/-- How often a character stands in a text. -/
def occurrences (c : Char) (s : String) : Nat := s.toList.count c

/-- How often it stands in some parts. -/
def occurrencesIn (c : Char) (parts : List String) : Nat := (parts.flatMap String.toList).count c

variable {c sep : Char}

@[simp] theorem occurrences_append (s t : String) : occurrences c (s ++ t) = occurrences c s + occurrences c t := by
  rw [occurrences, String.toList_append, List.count_append]
  rfl

@[simp] theorem occurrencesIn_nil : occurrencesIn c [] = 0 := rfl

@[simp] theorem occurrencesIn_cons (part : String) (parts : List String) :
    occurrencesIn c (part :: parts) = occurrences c part + occurrencesIn c parts := by
  rw [occurrencesIn, List.flatMap_cons, List.count_append]
  rfl

theorem occurrencesIn_reverse (parts : List String) : occurrencesIn c parts.reverse = occurrencesIn c parts :=
  ((List.reverse_perm parts).flatMap_right String.toList).count_eq c

theorem occurrences_joined {between : String} (h : occurrences c between = 0) (parts : List String) :
    occurrences c (join between parts) = occurrencesIn c parts := by
  match parts with
  | [] => rfl
  | [part] =>
    rw [occurrencesIn_cons]
    rfl
  | part :: next :: parts =>
    rw [join, occurrences_append, occurrences_append, occurrences_joined h (next :: parts), h, Nat.add_zero,
      ← occurrencesIn_cons]

theorem count_splitChars (h : c ≠ sep) (cs : List Char) : (splitChars sep cs).flatten.count c = cs.count c := by
  induction cs with
  | nil => rfl
  | cons x cs ih =>
    rw [splitChars]
    split
    · rename_i hx
      rw [List.flatten_cons, List.nil_append, ih, List.count_cons_of_ne (hx ▸ Ne.symm h)]
    · cases hparts : splitChars sep cs with
      | nil =>
        rw [hparts] at ih
        rw [List.count_cons, ← ih]
        simp [List.count_cons]
      | cons part parts =>
        rw [hparts] at ih
        rw [List.flatten_cons, List.cons_append, List.count_cons, List.count_cons, ← List.flatten_cons, ih]

/-- A text that is cut loses separators only. -/
theorem occurrences_splitOn (h : c ≠ sep) (s : String) : occurrencesIn c (splitOn sep s) = occurrences c s := by
  have hchars : (splitOn sep s).flatMap String.toList = (splitChars sep s.toList).flatten := by
    have hparts : (splitChars sep s.toList).map (String.toList ∘ String.ofList) = splitChars sep s.toList :=
      (List.map_congr_left fun cs _ => String.toList_ofList).trans (List.map_id _)
    rw [splitOn, List.flatMap_def, List.map_map, hparts]
  rw [occurrencesIn, hchars, count_splitChars h]
  rfl

end Text

namespace Files

namespace Path

open Text (occurrences occurrencesIn occurrencesIn_cons)

variable {c : Char}

theorem occurrences_slash (h : c ≠ '/') : occurrences c "/" = 0 :=
  List.count_eq_zero_of_not_mem (show c ∉ ['/'] by simp [h])

theorem occurrences_dot (h : c ≠ '.') : occurrences c "." = 0 :=
  List.count_eq_zero_of_not_mem (show c ∉ ['.'] by simp [h])

theorem occurrences_dots (h : c ≠ '.') : occurrences c ".." = 0 :=
  List.count_eq_zero_of_not_mem (show c ∉ ['.', '.'] by simp [h])

theorem normalStep_le (h : c ≠ '.') (absolute : Bool) (soFar : List String) (part : String) :
    occurrencesIn c (normalStep absolute soFar part) ≤ occurrencesIn c soFar + occurrences c part := by
  have hdots := occurrences_dots h
  unfold normalStep
  split
  · exact Nat.le_add_right _ _
  split
  · match soFar with
    | [] => cases absolute <;> simp [hdots]
    | last :: before =>
      simp only
      split <;> simp only [occurrencesIn_cons, hdots] <;> omega
  · rw [occurrencesIn_cons]
    omega

theorem normalParts_le (h : c ≠ '.') (absolute : Bool) (parts : List String) :
    occurrencesIn c (normalParts absolute parts) ≤ occurrencesIn c parts := by
  have hfold (soFar : List String) : occurrencesIn c (parts.foldl (normalStep absolute) soFar)
      ≤ occurrencesIn c soFar + occurrencesIn c parts := by
    induction parts generalizing soFar with
    | nil => exact Nat.le_refl _
    | cons part parts ih =>
      have hstep := normalStep_le h absolute soFar part
      have hrest := ih (normalStep absolute soFar part)
      rw [List.foldl_cons, occurrencesIn_cons]
      omega
  calc occurrencesIn c (normalParts absolute parts)
      = occurrencesIn c (parts.foldl (normalStep absolute) []) := Text.occurrencesIn_reverse _
    _ ≤ occurrencesIn c [] + occurrencesIn c parts := hfold []
    _ = occurrencesIn c parts := Nat.zero_add _

theorem occurrences_normalise_le (hdot : c ≠ '.') (hslash : c ≠ '/') (path : String) :
    occurrences c (normalise path) ≤ occurrences c path := by
  have hmark (b : Bool) : occurrences c (if b then "/" else "") = 0 := by
    cases b with
    | false => rfl
    | true => exact occurrences_slash hslash
  have hbody : occurrences c (Text.join "/" (normalParts (isAbsolute path) (Text.splitOn '/' path)))
      ≤ occurrences c path := by
    calc _ = occurrencesIn c (normalParts (isAbsolute path) (Text.splitOn '/' path)) :=
          Text.occurrences_joined (occurrences_slash hslash) _
      _ ≤ occurrencesIn c (Text.splitOn '/' path) := normalParts_le hdot _ _
      _ = occurrences c path := Text.occurrences_splitOn hslash path
  simp only [normalise]
  split
  · split
    · rw [occurrences_slash hslash]
      exact Nat.zero_le _
    · rw [Text.occurrences_append, occurrences_dot hdot, hmark]
      exact Nat.zero_le _
  · rw [Text.occurrences_append, Text.occurrences_append, hmark, hmark, Nat.zero_add, Nat.add_zero]
    exact hbody

/-- A joined path has no character more often than the directory and the name. -/
theorem occurrences_join_le (hdot : c ≠ '.') (hslash : c ≠ '/') (directory name : String) :
    occurrences c (join directory name) ≤ occurrences c directory + occurrences c name := by
  have hkept : occurrencesIn c ([directory, name].filter (· ≠ "")) ≤ occurrences c directory + occurrences c name := by
    by_cases hdirectory : directory = "" <;> by_cases hname : name = "" <;> simp [hdirectory, hname]
  unfold join
  split
  · rw [occurrences_dot hdot]
    exact Nat.zero_le _
  · calc _ ≤ _ := occurrences_normalise_le hdot hslash _
      _ = occurrencesIn c ([directory, name].filter (· ≠ "")) := Text.occurrences_joined (occurrences_slash hslash) _
      _ ≤ occurrences c directory + occurrences c name := hkept

end Path

/-! ## (2) What a path leads to -/

namespace Tree

deriving instance DecidableEq for Found

variable {t : Tree} {path : String}

/-- What a path leads to is the same for every operation. -/
theorem reach_congr {follow : Bool} {operation operation' : Operation} {e : Entry}
    (h : t.reach follow operation path = .ok e) : t.reach follow operation' path = .ok e := by
  unfold reach at h ⊢
  split at h
  · cases h
  · rename_i hnul
    rw [if_neg hnul]
    cases hfound : t.find follow path with
    | ok found =>
      rw [hfound] at h
      exact h
    | error errno =>
      rw [hfound] at h
      cases h

/-- What can be read is a file. -/
theorem stat_of_read {content : Text.Utf8.Bytes} (h : t.read path = .ok content) : t.stat path = .ok (.file content) := by
  unfold read at h
  cases hreach : t.reach true .openFile path with
  | error f =>
    rw [hreach] at h
    cases h
  | ok e =>
    rw [hreach] at h
    cases e <;> cases h
    exact reach_congr hreach

/-- And a file can be read. -/
theorem read_of_stat {content : Text.Utf8.Bytes} (h : t.stat path = .ok (.file content)) : t.read path = .ok content := by
  have hreach : t.reach true .openFile path = .ok (.file content) := reach_congr h
  rw [read, hreach]

theorem stat_of_find {errno : Errno} (hnul : (path.toList.any fun c => c.toNat = 0) = false)
    (h : t.find true path = .error errno) : t.stat path = .error (.file errno .stat path) := by
  simp only [stat, reach, hnul, h]
  rfl

theorem stat_error {f : Fault} (h : t.stat path = .error f) :
    f = .nulInPath path ∨ ∃ errno, f = .file errno .stat path := by
  unfold stat reach at h
  split at h
  · cases h
    exact Or.inl rfl
  · split at h
    · cases h
    · rename_i errno _
      cases h
      exact Or.inr ⟨errno, rfl⟩

end Tree

end Files

end CheckpointRelay
