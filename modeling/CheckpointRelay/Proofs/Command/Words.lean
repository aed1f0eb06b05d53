/-
  CheckpointRelay.Proofs.Command.Words — words that a command does not get.

  The program looks for its own flags all over the line, also where the flag of a command waits
  for its value. A word that it takes there is `Claimed`, and the command never sees it.
  - `scan_unclaimed` / `scan_claimed`: the scan of one word of either kind.
  - `parse_hook`: a line of the hook command is read as it is meant where no value is claimed;
    behind `--` none is.
  - `parse_hook_claimed`: otherwise the line is not read at all.
-/

import CheckpointRelay.Command.Line

namespace CheckpointRelay.Command

open Envelope (HookAction)

/-! ## (1) Claimed words -/

/-- The flags of the program that take a value. -/
def valueFlags : List String := ["--host", "--port", "--timeout", "--max-bytes"]

/-- A word that the program takes for one of its own flags, wherever it stands. -/
inductive Claimed : String → Prop
  | version : Claimed "--version"
  | short (rest : String) : Claimed ("-V" ++ rest)
  | flag (flag : String) : flag ∈ valueFlags → Claimed flag
  | joined (flag value : String) : flag ∈ valueFlags → Claimed (flag ++ "=" ++ value)

section

variable {f : Flag} {word name rest value : String}

/-- The names that the flags of the program answer to. -/
theorem answers (hf : f ∈ programFlags) (h : f.answersTo name = true) :
    (f.kind = .version ∧ name ∈ ["-V", "--version"]) ∨ (f.placeholder?.isSome = true ∧ name ∈ valueFlags) := by
  simp only [Flag.answersTo, Bool.or_eq_true, beq_iff_eq] at h
  simp only [programFlags, List.mem_cons, List.not_mem_nil, or_false] at hf
  rcases hf with rfl | rfl | rfl | rfl | rfl <;> rcases h with h | h <;> cases h <;>
    simp [Flag.placeholder?, valueFlags]

theorem answers_mem (hf : f ∈ programFlags) (h : f.answersTo name = true) :
    name ∈ ["-V", "--version"] ++ valueFlags := by
  rw [List.mem_append]
  rcases answers hf h with ⟨-, hname⟩ | ⟨-, hname⟩
  · exact Or.inl hname
  · exact Or.inr hname

theorem group_parts (h : group? word = some (name, rest)) : word = name ++ rest ∧ name.toList.length = 2 := by
  unfold group? at h
  split at h
  · rename_i c d tail hword
    split at h
    · cases h
    · cases h
      refine ⟨?_, by simp⟩
      rw [← String.toList_inj, hword, String.toList_append]
      simp
  · cases h

theorem assignment_parts (h : assignment? word = some (name, value)) : word = name ++ "=" ++ value := by
  unfold assignment? at h
  simp only at h
  split at h
  · rename_i hlong
    split at h
    · rename_i rest hrest
      split at h
      · cases h
      · cases h
        simp only [isLong, beq_iff_eq] at hlong
        rw [← String.toList_inj]
        calc word.toList = word.toList.take 2 ++ word.toList.drop 2 := (List.take_append_drop 2 _).symm
          _ = ['-', '-'] ++ ((word.toList.drop 2).takeWhile (· ≠ '=') ++ '=' :: rest) := by
            rw [hlong, ← hrest, List.takeWhile_append_dropWhile]
          _ = _ := by simp
    · cases h
  · cases h

theorem claimed_of_find (h : (programFlags.find? fun f => looksLikeFlag word && f.answersTo word) = some f) :
    Claimed word := by
  have hf := List.mem_of_find?_eq_some h
  have hword := List.find?_some h
  rw [Bool.and_eq_true] at hword
  rcases answers hf hword.2 with ⟨-, hversion⟩ | ⟨-, hflag⟩
  · simp only [List.mem_cons, List.not_mem_nil, or_false] at hversion
    rcases hversion with rfl | rfl
    · exact .short ""
    · exact .version
  · exact .flag word hflag

theorem claimed_of_joined (h : joined? programFlags word = some (f, value)) : Claimed word := by
  have hfind {p : String × String}
      (hp : ((programFlags.find? (·.answersTo p.1)).map fun f => (f, p.2)) = some (f, value)) :
      f ∈ programFlags ∧ f.answersTo p.1 = true := by
    obtain ⟨g, hg, heq⟩ := Option.map_eq_some_iff.mp hp
    obtain ⟨rfl, -⟩ := Prod.mk.inj heq
    have hanswers := List.find?_some hg
    exact ⟨List.mem_of_find?_eq_some hg, hanswers⟩
  unfold joined? at h
  simp only at h
  split at h
  · rename_i r hgroup
    cases h
    obtain ⟨⟨name, rest⟩, hparts, hp⟩ := Option.bind_eq_some_iff.mp hgroup
    obtain ⟨rfl, hlength⟩ := group_parts hparts
    obtain ⟨hf, hname⟩ := hfind hp
    -- of one letter there is the version only
    have hshort : ∀ name ∈ ["-V", "--version"] ++ valueFlags, name.toList.length = 2 → name = "-V" := by decide
    rw [hshort name (answers_mem hf hname) hlength]
    exact .short rest
  · obtain ⟨hsome, hplaceholder⟩ := Option.filter_eq_some_iff.mp h
    obtain ⟨⟨name, rest⟩, hparts, hp⟩ := Option.bind_eq_some_iff.mp hsome
    obtain ⟨hf, hname⟩ := hfind hp
    rw [assignment_parts hparts]
    -- the version takes no value
    rcases answers hf hname with ⟨hkind, -⟩ | ⟨-, hflag⟩
    · simp [Flag.placeholder?, hkind] at hplaceholder
    · exact .joined name rest hflag

theorem find_assigned (h : '=' ∈ word.toList) :
    (programFlags.find? fun f => looksLikeFlag word && f.answersTo word) = none := by
  have hnames : ∀ name ∈ ["-V", "--version"] ++ valueFlags, '=' ∉ name.toList := by decide
  rw [List.find?_eq_none]
  intro f hf hword
  rw [Bool.and_eq_true] at hword
  exact hnames word (answers_mem hf hword.2) h

theorem joined_assigned (hname : name ∈ valueFlags) (value : String) :
    ∃ f : Flag, f.kind ≠ .version ∧ joined? programFlags (name ++ "=" ++ value) = some (f, value) := by
  simp only [valueFlags, List.mem_cons, List.not_mem_nil, or_false] at hname
  have hgroup : group? (name ++ "=" ++ value) = none := by
    rcases hname with rfl | rfl | rfl | rfl <;> simp [group?, String.toList_append]
  have hparts : assignment? (name ++ "=" ++ value) = some (name, value) := by
    rcases hname with rfl | rfl | rfl | rfl <;> simp [assignment?, isLong, String.toList_append]
  unfold joined?
  simp only [hgroup, hparts]
  rcases hname with rfl | rfl | rfl | rfl <;> exact ⟨_, by decide, rfl⟩

theorem find_short (h : rest ≠ "") :
    (programFlags.find? fun f => looksLikeFlag ("-V" ++ rest) && f.answersTo ("-V" ++ rest)) = none := by
  have hnames : ∀ name ∈ ["-V", "--version"] ++ valueFlags, name = "-V" ∨ name.toList.take 2 = ['-', '-'] := by decide
  rw [List.find?_eq_none]
  intro f hf hword
  rw [Bool.and_eq_true] at hword
  rcases hnames _ (answers_mem hf hword.2) with hname | hname
  · rw [← String.toList_inj, String.toList_append] at hname
    exact h (by simpa using hname)
  · simp at hname

theorem joined_short (h : rest ≠ "") :
    ∃ f : Flag, f.kind = .version ∧ joined? programFlags ("-V" ++ rest) = some (f, rest) := by
  have hgroup : group? ("-V" ++ rest) = some ("-V", rest) := by
    cases hlist : rest.toList with
    | nil => exact absurd (String.toList_eq_nil_iff.mp hlist) h
    | cons d tail =>
      have hword : ("-V" ++ rest).toList = '-' :: 'V' :: d :: tail := by
        simp [hlist]
      simp only [group?, hword]
      rw [← hlist, String.ofList_toList]
      rfl
  unfold joined?
  simp only [hgroup]
  exact ⟨_, rfl, rfl⟩

/-- The claimed words are those that are a flag of the program, or a flag with its value. -/
theorem claimed_iff : Claimed word ↔
    ((programFlags.find? fun f => looksLikeFlag word && f.answersTo word).isSome || (joined? programFlags word).isSome)
      = true := by
  rw [Bool.or_eq_true, Option.isSome_iff_exists, Option.isSome_iff_exists]
  constructor
  · intro h
    cases h with
    | version => exact Or.inl ⟨_, rfl⟩
    | short rest =>
      by_cases hrest : rest = ""
      · subst hrest
        exact Or.inl ⟨_, rfl⟩
      · obtain ⟨f, -, hjoined⟩ := joined_short hrest
        exact Or.inr ⟨_, hjoined⟩
    | flag _ hflag =>
      simp only [valueFlags, List.mem_cons, List.not_mem_nil, or_false] at hflag
      rcases hflag with rfl | rfl | rfl | rfl <;> exact Or.inl ⟨_, rfl⟩
    | joined flag value hflag =>
      obtain ⟨f, -, hjoined⟩ := joined_assigned hflag value
      exact Or.inr ⟨_, hjoined⟩
  · rintro (⟨f, hf⟩ | ⟨r, hr⟩)
    · exact claimed_of_find hf
    · exact claimed_of_joined hr

instance : Decidable (Claimed word) := decidable_of_iff _ claimed_iff.symm

/-! ## (2) The scan of one word -/

/-- A word that is not claimed is kept for the command, but for the one that ends the flags. -/
theorem scan_unclaimed (h : ¬Claimed word) (s : Scan) (words : List String) :
    scan programFlags s (word :: words)
      = if word = "--" then .ok (s.finish words) else scan programFlags (s.keep word) words := by
  simp only [claimed_iff, Bool.or_eq_true, not_or, Option.not_isSome_iff_eq_none] at h
  rw [scan.eq_def]
  simp only [h.1, h.2]

/-- A flag and its value in one word are taken together. -/
theorem scan_joined (hend : word ≠ "--")
    (hfind : (programFlags.find? fun f => looksLikeFlag word && f.answersTo word) = none)
    (hjoined : joined? programFlags word = some (f, value)) (s : Scan) (words : List String) :
    scan programFlags s (word :: words) = match s.take f value with
      | .error stop => .error stop
      | .ok s => scan programFlags s words := by
  rw [scan.eq_def]
  cases htake : s.take f value <;> simp only [if_neg hend, hfind, hjoined, htake]

theorem take_valued (hf : f.kind ≠ .version) (s : Scan) (value : String) :
    (∃ stop, s.take f value = .error stop) ∨ s.take f value = .ok { s with given := (f.long, value) :: s.given } := by
  unfold Scan.take
  split
  · rename_i hkind
    exact absurd hkind hf
  · exact Or.inr rfl
  · split
    · exact Or.inr rfl
    · exact Or.inl ⟨_, rfl⟩

/-- A word that is claimed stops the reading, or it is gone, perhaps with the word behind it. -/
theorem scan_claimed (h : Claimed word) (s : Scan) (words : List String) :
    (∃ stop, scan programFlags s (word :: words) = .error stop) ∨
    ∃ given left, (left = words ∨ ∃ value, words = value :: left) ∧
      scan programFlags s (word :: words) = scan programFlags { s with given } left := by
  cases h with
  | version =>
    rw [scan.eq_def]
    exact Or.inl ⟨.version, rfl⟩
  | short rest =>
    by_cases hrest : rest = ""
    · subst hrest
      rw [scan.eq_def]
      exact Or.inl ⟨.version, rfl⟩
    · obtain ⟨f, hkind, hjoined⟩ := joined_short hrest
      have hend : "-V" ++ rest ≠ "--" := by
        intro heq
        have hlist := congrArg String.toList heq
        simp at hlist
      rw [scan_joined hend (find_short hrest) hjoined, Scan.take, hkind]
      exact Or.inl ⟨_, rfl⟩
  | flag _ hflag =>
    obtain ⟨f, hf, hlast, hscan⟩ : ∃ f : Flag, f.kind ≠ .version ∧
        scan programFlags s [word] = .error (.usage (.missingValue f)) ∧
        ∀ value words, scan programFlags s (word :: value :: words) = match s.take f value with
          | .error stop => .error stop
          | .ok s => scan programFlags s words := by
      simp only [valueFlags, List.mem_cons, List.not_mem_nil, or_false] at hflag
      rcases hflag with rfl | rfl | rfl | rfl <;>
        refine ⟨_, ?_, by rw [scan.eq_def]; rfl, fun value words => by rw [scan.eq_def]; rfl⟩ <;> decide
    cases words with
    | nil => exact Or.inl ⟨_, hlast⟩
    | cons value words =>
      rw [hscan]
      rcases take_valued hf s value with ⟨stop, htake⟩ | htake
      · exact Or.inl ⟨stop, by simp only [htake]⟩
      · exact Or.inr ⟨(f.long, value) :: s.given, words, Or.inr ⟨value, rfl⟩, by simp only [htake]⟩
  | joined flag value hflag =>
    obtain ⟨f, hf, hjoined⟩ := joined_assigned hflag value
    have hassigned : '=' ∈ (flag ++ "=" ++ value).toList := by simp
    have hend : flag ++ "=" ++ value ≠ "--" := by
      intro heq
      rw [heq] at hassigned
      exact absurd hassigned (by decide)
    rw [scan_joined hend (find_assigned hassigned) hjoined]
    rcases take_valued hf s value with ⟨stop, htake⟩ | htake
    · exact Or.inl ⟨stop, by rw [htake]⟩
    · exact Or.inr ⟨_, words, Or.inl rfl, by rw [htake]⟩

end

/-! ## (3) Words behind a flag of the command -/

section

variable {word : String} (given : Given) (operands : List String) (first : String) (unknown : List String)

theorem scan_behind (h : ¬Claimed word) (hend : word ≠ "--") (words : List String) :
    scan programFlags ⟨given, operands, first :: unknown⟩ (word :: words)
      = scan programFlags ⟨given, operands, first :: unknown ++ [word]⟩ words := by
  rw [scan_unclaimed h, if_neg hend, Scan.keep, if_pos (Or.inr (List.cons_ne_nil _ _))]

/-- The last word of a line is kept, also where it would end the flags. -/
theorem scan_last (h : ¬Claimed word) :
    scan programFlags ⟨given, operands, first :: unknown⟩ [word]
      = .ok ⟨given, operands, first :: unknown ++ [word]⟩ := by
  by_cases hend : word = "--"
  · subst hend
    rfl
  · rw [scan_behind given operands first unknown h hend]
    rfl

/-- Or it is claimed, and gone if it does not stop the reading. -/
theorem scan_last_claimed (h : Claimed word) :
    (∃ stop, scan programFlags ⟨given, operands, first :: unknown⟩ [word] = .error stop) ∨
    ∃ given', scan programFlags ⟨given, operands, first :: unknown⟩ [word]
      = .ok ⟨given', operands, first :: unknown⟩ := by
  rcases scan_claimed h ⟨given, operands, first :: unknown⟩ [] with hstop | ⟨given', left, hleft, hscan⟩
  · exact Or.inl hstop
  · rcases hleft with rfl | ⟨value, hvalue⟩
    · exact Or.inr ⟨given', hscan⟩
    · cases hvalue

end

/-! ## (4) The line of the hook command -/

/-- The hook command, called with an id, an action and dependencies. -/
def hookLine (id : String) (action : HookAction) (deps : String) : List String :=
  ["hook", "--id", id, "--action", action.name, "--deps", deps]

variable {id deps : String} {action : HookAction}

variable (deps action) in
theorem scan_hook_id (hid : ¬Claimed id) (hend : id ≠ "--") :
    scan programFlags .empty (hookLine id action deps)
      = scan programFlags ⟨[], ["hook"], ["--id", id, "--action", action.name, "--deps"]⟩ [deps] := by
  have hnext : scan programFlags ⟨[], ["hook"], ["--id", id]⟩ ["--action", action.name, "--deps", deps]
      = scan programFlags ⟨[], ["hook"], ["--id", id, "--action", action.name, "--deps"]⟩ [deps] := by
    cases action <;> rfl
  refine Eq.trans ?_ hnext
  exact scan_behind [] ["hook"] "--id" [] hid hend _

/-- A line without claimed values is read as it is meant. -/
theorem parse_hook (hid : ¬Claimed id) (hdeps : id = "--" ∨ ¬Claimed deps) :
    parse (hookLine id action deps)
      = .ok ⟨.hook, [], [("--deps", deps), ("--action", action.name), ("--id", id)]⟩ := by
  have hscan : scan programFlags .empty (hookLine id action deps)
      = .ok ⟨[], ["hook"], ["--id", id, "--action", action.name, "--deps", deps]⟩ := by
    by_cases hend : id = "--"
    · subst hend
      rfl
    · rw [scan_hook_id deps action hid hend]
      exact scan_last _ _ _ _ (hdeps.resolve_left hend)
  rw [parse, hscan]
  rfl

/-- Words that the hook command does not read. -/
def Lost (unknown : List String) : Prop := ∀ program, ∃ stop, dispatch .hook program unknown = .error stop

section

variable {words unknown : List String} {given : Given} {stop : Stop}

theorem parse_stopped (h : scan programFlags .empty words = .error stop) : parse words = .error stop := by
  rw [parse, h]
  rfl

theorem parse_lost (h : scan programFlags .empty words = .ok ⟨given, ["hook"], unknown⟩) (hlost : Lost unknown) :
    ∃ stop, parse words = .error stop := by
  obtain ⟨stop, hstop⟩ := hlost given
  refine ⟨stop, ?_⟩
  rw [parse, h]
  exact hstop

/-- A line is lost before its last word, if it is lost with it and without it. -/
theorem parse_lost_last {last : String}
    (h : scan programFlags .empty words = scan programFlags ⟨given, ["hook"], "--id" :: unknown⟩ [last])
    (hwithout : Lost ("--id" :: unknown)) (hwith : Lost ("--id" :: unknown ++ [last])) :
    ∃ stop, parse words = .error stop := by
  by_cases hlast : Claimed last
  · rcases scan_last_claimed given ["hook"] "--id" unknown hlast with ⟨stop, hstop⟩ | ⟨given', hok⟩
    · exact ⟨stop, parse_stopped (h.trans hstop)⟩
    · exact parse_lost (h.trans hok) hwithout
  · exact parse_lost (h.trans (scan_last given ["hook"] "--id" unknown hlast)) hwith

end

theorem parse_hook_claimed_id (hid : Claimed id) : ∃ stop, parse (hookLine id action deps) = .error stop := by
  rcases scan_claimed hid ⟨[], ["hook"], ["--id"]⟩ ["--action", action.name, "--deps", deps] with
    ⟨stop, hstop⟩ | ⟨given, left, rfl | ⟨value, hvalue⟩, hscan⟩
  · exact ⟨stop, parse_stopped hstop⟩
  · -- the next flag is taken for the id
    have hnext : scan programFlags ⟨given, ["hook"], ["--id"]⟩ ["--action", action.name, "--deps", deps]
        = scan programFlags ⟨given, ["hook"], ["--id", "--action", action.name, "--deps"]⟩ [deps] := by
      cases action <;> rfl
    refine parse_lost_last (hscan.trans hnext) ?_ ?_
    · intro program
      cases action <;> exact ⟨_, rfl⟩
    · intro program
      cases action <;> exact ⟨_, rfl⟩
  · -- the flag of the action is gone, and the action is taken for the id
    cases hvalue
    have hnext : scan programFlags ⟨given, ["hook"], ["--id"]⟩ [action.name, "--deps", deps]
        = scan programFlags ⟨given, ["hook"], ["--id", action.name, "--deps"]⟩ [deps] := by
      cases action <;> rfl
    refine parse_lost_last (hscan.trans hnext) ?_ ?_
    · intro program
      exact ⟨_, rfl⟩
    · intro program
      exact ⟨_, rfl⟩

variable (action) in
/-- A line with a claimed value is not read. -/
theorem parse_hook_claimed (h : Claimed id ∨ id ≠ "--" ∧ Claimed deps) :
    ∃ stop, parse (hookLine id action deps) = .error stop := by
  by_cases hid : Claimed id
  · exact parse_hook_claimed_id hid
  · obtain ⟨hend, hdeps⟩ := h.resolve_left hid
    have hscan := scan_hook_id deps action hid hend
    rcases scan_last_claimed [] ["hook"] "--id" [id, "--action", action.name, "--deps"] hdeps with
      ⟨stop, hstop⟩ | ⟨given, hok⟩
    · exact ⟨stop, parse_stopped (hscan.trans hstop)⟩
    · -- the flag of the dependencies is left without a value
      refine parse_lost (hscan.trans hok) ?_
      intro program
      exact ⟨_, rfl⟩

end CheckpointRelay.Command
