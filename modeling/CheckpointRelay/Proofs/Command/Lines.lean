/-
  CheckpointRelay.Proofs.Command.Lines — the numbers on a command line.

  A line is scanned word by word, and what is given so far is kept in a `Scan`. A flag that wants
  a number is taken with an integer or not at all, so a line that is read has integers under those
  flags (`Scan.Whole`), wherever they stand on it and however flag and value are joined.
  - `take_whole` / `keep_whole` / `finish_whole`: one step of the scan.
  - `scan_whole`: a scan.
  - `parse_whole`: the line.
-/

import CheckpointRelay.Proofs.Command.Writes

namespace CheckpointRelay.Command

/-! ## (1) Scanning -/

/-- The flags whose values are numbers are given integers. -/
def Scan.Whole (s : Scan) : Prop :=
  ∀ p ∈ s.given, p.1 ∈ ["--port", "--timeout", "--max-bytes"] → (Number.Numeral.read p.2).isInteger = true

variable {flags : List Flag} {s s' : Scan} {f : Flag} {word value : String}

/-- A flag that is kept with its value is given an integer if it takes one. -/
theorem take_given (h : s.take f value = .ok s') : s'.given = (f.long, value) :: s.given ∧
    ((∃ placeholder, f.kind = .integer placeholder) → (Number.Numeral.read value).isInteger = true) := by
  unfold Scan.take at h
  split at h
  · cases h
  · rename_i placeholder hkind
    cases h
    exact ⟨rfl, fun ⟨_, hinteger⟩ => by rw [hkind] at hinteger; cases hinteger⟩
  · split at h
    · rename_i hinteger
      cases h
      exact ⟨rfl, fun _ => hinteger⟩
    · cases h

/-- One flag more leaves the numbers integers. -/
theorem take_whole (hf : f ∈ programFlags) (hs : s.Whole) (h : s.take f value = .ok s') : s'.Whole := by
  obtain ⟨hgiven, hinteger⟩ := take_given h
  intro p hp hnumber
  rw [hgiven, List.mem_cons] at hp
  rcases hp with rfl | hp
  · refine hinteger ?_
    have hkinds : ∀ f ∈ programFlags, f.long ∈ ["--port", "--timeout", "--max-bytes"] →
        ∃ placeholder, f.kind = .integer placeholder := by
      simp [programFlags]
    exact hkinds f hf hnumber
  · exact hs p hp hnumber

/-- A flag and its value in one word is one of ours. -/
theorem joined_mem (h : joined? flags word = some (f, value)) : f ∈ flags := by
  have hfind {p : String × String} {r : Flag × String}
      (hr : ((flags.find? (·.answersTo p.1)).map fun f => (f, p.2)) = some r) : r.1 ∈ flags := by
    obtain ⟨g, hg, rfl⟩ := Option.map_eq_some_iff.mp hr
    exact List.mem_of_find?_eq_some hg
  unfold joined? at h
  simp only at h
  split at h
  · rename_i r hgroup
    obtain ⟨p, -, hp⟩ := Option.bind_eq_some_iff.mp hgroup
    cases h
    exact hfind hp
  · rw [Option.filter_eq_some_iff] at h
    obtain ⟨p, -, hp⟩ := Option.bind_eq_some_iff.mp h.1
    exact hfind hp

theorem keep_whole (hs : s.Whole) (word : String) : (s.keep word).Whole := by
  unfold Scan.keep
  split <;> exact hs

theorem finish_whole (hs : s.Whole) (words : List String) : (s.finish words).Whole := by
  unfold Scan.finish
  split <;> exact hs

/-- Whatever is scanned, every number that was given is an integer. -/
theorem scan_whole {words : List String} (hs : s.Whole) (h : scan programFlags s words = .ok s') : s'.Whole := by
  -- a flag is taken with its value, any other word is kept, and the rest is scanned behind it
  fun_induction scan programFlags s words with
  | case1 s =>
    cases h
    exact hs
  | case2 s rest =>
    cases h
    exact finish_whole hs rest
  | case3 s word rest hne f hfind hplain => exact take_whole (List.mem_of_find?_eq_some hfind) hs h
  | case4 => cases h
  | case5 => cases h
  | case6 s word hne f hfind hplain value rest s₁ htake ih =>
    exact ih (take_whole (List.mem_of_find?_eq_some hfind) hs htake) h
  | case7 => cases h
  | case8 s word rest hne hfind f value hjoined s₁ htake ih =>
    exact ih (take_whole (joined_mem hjoined) hs htake) h
  | case9 s word rest hne hfind hjoined ih => exact ih (keep_whole hs word) h

/-! ## (2) The whole line -/

/-- The flags of the program are handed on to the command as they were given. -/
theorem dispatch_program {command : Subcommand} {program : Given} {unknown : List String} {i : Invocation}
    (h : dispatch command program unknown = .ok i) : i.program = program := by
  unfold dispatch at h
  obtain ⟨s, -, h⟩ := bind_ok h
  cases hhelp : asksForHelp s.unknown with
  | true =>
    simp only [hhelp, if_true] at h
    split at h <;> cases h
  | false =>
    simp only [hhelp, Bool.false_eq_true, if_false] at h
    split at h
    · cases h
    · split at h
      · cases h
      · cases h
        rfl

/-- A command line that is read has integers for its numbers. -/
theorem parse_whole {words : List String} {i : Invocation} (h : parse words = .ok i) {flag value : String}
    (hflag : flag ∈ ["--port", "--timeout", "--max-bytes"]) (hvalue : value? i.program flag = some value) :
    (Number.Numeral.read value).isInteger = true := by
  unfold parse at h
  obtain ⟨s, hscan, h⟩ := bind_ok h
  have hempty : Scan.empty.Whole := fun p hp => by cases hp
  have hwhole : s.Whole := scan_whole hempty hscan
  have hprogram : i.program = s.given := by
    split at h
    · split at h
      · exact dispatch_program h
      · split at h
        · cases h
        · split at h
          · cases h
          · exact dispatch_program h
    · split at h
      · cases h
      · exact dispatch_program h
  rw [hprogram] at hvalue
  obtain ⟨_, _, hgiven, -⟩ := List.lookup_eq_some_iff.mp hvalue
  exact hwhole (flag, value) (by rw [hgiven]; simp) hflag

end CheckpointRelay.Command
