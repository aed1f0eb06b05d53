/-
  CheckpointRelay.Proofs.Hook.Lookup — which file configures a hook.

  The candidates are looked at in their order. One of them is passed over (`PassedOver`), is
  taken, or cannot be looked at, and the last two end the search whatever stands behind it. So
  the file in the image directory is taken if there is one, and if there is something wrong with
  it the shared file is not asked. The content of the file that is taken gives the configuration
  or a configuration error (`Gives`), and no other error says that there is no file.
  - `firstFile_none_iff` / `firstFile_some`: the outcome of a search, for any candidates.
  - `load_taken` / `load_cases`: the file that is taken, and what a load can come to.
  - `not_found_iff`: when there is none.
  - `image_config_is_never_masked`: all of it.
-/

import CheckpointRelay.Hook.Config
import CheckpointRelay.Proofs.Files.Paths
import Mathlib.Tactic.Common

namespace CheckpointRelay.Hook.Config

open Files (Tree)
open Text.Utf8 (Bytes decode encode)

/-! ## (1) Candidates -/

/-- There is nothing at the end of the path, or something that is no regular file. -/
inductive PassedOver (t : Tree) (path : String) : Prop
  | absent : t.stat path = .error (.file .noEntry .stat path) → PassedOver t path
  | other (e : Files.Entry) : t.stat path = .ok e → (∀ content, e ≠ .file content) → PassedOver t path

variable {t : Tree} {path : String} {rest paths : List String} {content : Bytes} {f : Fault}

theorem PassedOver.not_file (h : PassedOver t path) : t.stat path ≠ .ok (.file content) := by
  intro hfile
  cases h with
  | absent h =>
    rw [hfile] at h
    cases h
  | other e h he =>
    rw [hfile] at h
    cases h
    exact he content rfl

theorem PassedOver.not_trouble (h : PassedOver t path) (hf : f ≠ .file .noEntry .stat path) : t.stat path ≠ .error f := by
  intro htrouble
  cases h with
  | absent h =>
    rw [htrouble] at h
    cases h
    exact hf rfl
  | other e h _ =>
    rw [htrouble] at h
    cases h

/-- A candidate is passed over, is a file, or is trouble. -/
theorem looked_at (t : Tree) (path : String) :
    PassedOver t path ∨ (∃ content, t.stat path = .ok (.file content)) ∨
      ∃ f, t.stat path = .error f ∧ f ≠ .file .noEntry .stat path := by
  cases h : t.stat path with
  | ok e =>
    cases e with
    | file content => exact Or.inr (Or.inl ⟨content, rfl⟩)
    | _ => exact Or.inl (.other _ h nofun)
  | error f =>
    by_cases hf : f = .file .noEntry .stat path
    · exact Or.inl (.absent (hf ▸ h))
    · exact Or.inr (Or.inr ⟨f, rfl, hf⟩)

theorem firstFile_passed (h : PassedOver t path) : firstFile t (path :: rest) = firstFile t rest := by
  have hisFile : isFile t path = .ok false := by
    unfold isFile
    cases h with
    | absent h => rw [h]
    | other e h he =>
      rw [h]
      cases e with
      | file content => exact absurd rfl (he content)
      | _ => rfl
  rw [firstFile, hisFile]

theorem firstFile_file (h : t.stat path = .ok (.file content)) : firstFile t (path :: rest) = .ok (some path) := by
  have hisFile : isFile t path = .ok true := by
    rw [isFile, h]
    rfl
  rw [firstFile, hisFile]

theorem firstFile_trouble (h : t.stat path = .error f) (hf : f ≠ .file .noEntry .stat path) :
    firstFile t (path :: rest) = .error f := by
  have hisFile : isFile t path = .error f := by
    rcases Tree.stat_error h with rfl | ⟨errno, rfl⟩
    · rw [isFile, h]
    · cases errno with
      | noEntry => exact absurd rfl hf
      | _ => rw [isFile, h]
  rw [firstFile, hisFile]

/-- Nothing is found if every candidate is passed over. -/
theorem firstFile_none_iff : firstFile t paths = .ok none ↔ ∀ path ∈ paths, PassedOver t path := by
  induction paths with
  | nil => simp [firstFile]
  | cons path rest ih =>
    -- the first candidate ends the search unless it is passed over
    rw [List.forall_mem_cons]
    rcases looked_at t path with hpassed | ⟨content, hfile⟩ | ⟨f, htrouble, hf⟩
    · rw [firstFile_passed hpassed, ih]
      exact ⟨fun h => ⟨hpassed, h⟩, fun h => h.2⟩
    · rw [firstFile_file hfile]
      exact ⟨nofun, fun h => absurd hfile h.1.not_file⟩
    · rw [firstFile_trouble htrouble hf]
      exact ⟨nofun, fun h => absurd htrouble (h.1.not_trouble hf)⟩

/-- What is found is a file among the candidates. -/
theorem firstFile_some (h : firstFile t paths = .ok (some path)) :
    path ∈ paths ∧ ∃ content, t.stat path = .ok (.file content) := by
  induction paths with
  | nil => cases h
  | cons first rest ih =>
    rcases looked_at t first with hpassed | ⟨content, hfile⟩ | ⟨f, htrouble, hf⟩
    · rw [firstFile_passed hpassed] at h
      exact ⟨List.mem_cons_of_mem first (ih h).1, (ih h).2⟩
    · rw [firstFile_file hfile] at h
      cases h
      exact ⟨List.mem_cons_self, content, hfile⟩
    · rw [firstFile_trouble htrouble hf] at h
      cases h

/-- Trouble comes from a candidate that cannot be looked at. -/
theorem firstFile_error (h : firstFile t paths = .error f) :
    ∃ path ∈ paths, t.stat path = .error f := by
  induction paths with
  | nil => cases h
  | cons first rest ih =>
    rcases looked_at t first with hpassed | ⟨content, hfile⟩ | ⟨f', htrouble, hf⟩
    · rw [firstFile_passed hpassed] at h
      obtain ⟨path, hpath, hstat⟩ := ih h
      exact ⟨path, List.mem_cons_of_mem first hpath, hstat⟩
    · rw [firstFile_file hfile] at h
      cases h
    · rw [firstFile_trouble htrouble hf] at h
      cases h
      exact ⟨first, List.mem_cons_self, htrouble⟩

/-! ## (2) The file that is taken -/

/-- What the content of a file makes of a load. -/
inductive Gives (path : String) (content : Bytes) : Except Fault Config → Prop
  | notJson : Json.read? (decode content) = none →
      Gives path content (.error (.config [path ++ " is not valid JSON: " ++ Json.readError]))
  | invalid (v : Json) (found : List Issue) : Json.read? (decode content) = some v → validate v = .error found →
      Gives path content (.error (.config (found.map Issue.text)))
  | valid (v : Json) (config : Config) : Json.read? (decode content) = some v → validate v = .ok config →
      Gives path content (.ok config)

/-- Of a file that is taken only the content matters. -/
def ofContent (path : String) (content : Bytes) : Except Fault Config :=
  match Json.read? (decode content) with
  | some v => (validate v).mapError .ofIssues
  | none => .error (.config [notJson path Json.readError])

theorem gives_ofContent (path : String) (content : Bytes) : Gives path content (ofContent path content) := by
  unfold ofContent
  split
  · rename_i v hread
    cases hvalidate : validate v with
    | ok config => exact .valid v config hread hvalidate
    | error found => exact .invalid v found hread hvalidate
  · rename_i hread
    exact .notJson hread

variable {imageDir sharedDir : String}

theorem load_taken (h : firstFile t (candidates imageDir sharedDir) = .ok (some path))
    (hfile : t.stat path = .ok (.file content)) : load t imageDir sharedDir = ofContent path content := by
  have hread : t.read path = .ok content := Tree.read_of_stat hfile
  rw [load, h]
  simp only [readJson, hread]
  rw [ofContent]
  cases Json.read? (decode content) <;> rfl

/-- The error of a search that finds nothing. -/
def notFound (imageDir sharedDir : String) : String :=
  "Could not find " ++ configFile ++ " in " ++ imageDir ++ " or " ++ sharedDir

theorem load_not_found (h : firstFile t (candidates imageDir sharedDir) = .ok none) :
    load t imageDir sharedDir = .error (.config [notFound imageDir sharedDir]) := by
  rw [load, h]
  rfl

theorem load_trouble (h : firstFile t (candidates imageDir sharedDir) = .error f) : load t imageDir sharedDir = .error f := by
  rw [load, h]

/-- A load ends with trouble, finds nothing, or has the content of a candidate. -/
theorem load_cases (t : Tree) (imageDir sharedDir : String) :
    (∃ path f, t.stat path = .error f ∧ load t imageDir sharedDir = .error f) ∨
    ((∀ path ∈ candidates imageDir sharedDir, PassedOver t path) ∧
      load t imageDir sharedDir = .error (.config [notFound imageDir sharedDir])) ∨
    ∃ path ∈ candidates imageDir sharedDir, ∃ content, load t imageDir sharedDir = ofContent path content := by
  cases hfirst : firstFile t (candidates imageDir sharedDir) with
  | error f =>
    obtain ⟨path, -, hstat⟩ := firstFile_error hfirst
    exact Or.inl ⟨path, f, hstat, load_trouble hfirst⟩
  | ok found =>
    cases found with
    | none => exact Or.inr (Or.inl ⟨firstFile_none_iff.mp hfirst, load_not_found hfirst⟩)
    | some path =>
      obtain ⟨hpath, content, hfile⟩ := firstFile_some hfirst
      exact Or.inr (Or.inr ⟨path, hpath, content, load_taken hfirst hfile⟩)

/-- What is loaded is what some value says. -/
theorem validate_of_load {config : Config} (h : load t imageDir sharedDir = .ok config) : ∃ v, validate v = .ok config := by
  rcases load_cases t imageDir sharedDir with ⟨path, f, -, hload⟩ | ⟨-, hload⟩ | ⟨path, -, content, hload⟩
  · rw [hload] at h
    cases h
  · rw [hload] at h
    cases h
  · have hgives := gives_ofContent path content
    rw [← hload, h] at hgives
    cases hgives with
    | valid v _ _ hvalidate => exact ⟨v, hvalidate⟩

/-- A candidate that is not passed over decides, whatever else there is. -/
theorem load_same {t' : Tree} {sharedDir' : String} (h : ¬PassedOver t (Files.Path.join imageDir configFile))
    (hsame : t'.stat (Files.Path.join imageDir configFile) = t.stat (Files.Path.join imageDir configFile)) :
    load t' imageDir sharedDir' = load t imageDir sharedDir := by
  rcases looked_at t (Files.Path.join imageDir configFile) with hpassed | ⟨content, hfile⟩ | ⟨f, htrouble, hf⟩
  · exact absurd hpassed h
  · have hfile' := hsame.trans hfile
    rw [load_taken (firstFile_file hfile) hfile, load_taken (firstFile_file hfile') hfile']
  · have htrouble' := hsame.trans htrouble
    rw [load_trouble (firstFile_trouble htrouble hf), load_trouble (firstFile_trouble htrouble' hf)]

/-! ## (3) No file -/

theorem notFound_head (imageDir sharedDir : String) : (notFound imageDir sharedDir).toList.head? = some 'C' := by
  have hcould : "Could not find ".toList.head? = some 'C' := by decide
  unfold notFound
  -- the words are names here: a text that is spelled out is unfolded at every rewriting
  generalize "Could not find " = could at hcould ⊢
  generalize configFile = name
  generalize " in " = within
  generalize " or " = between
  simp only [String.toList_append, List.head?_append, hcould, Option.some_or]

theorem capitals_notFound (imageDir sharedDir : String) : Text.occurrences 'C' (notFound imageDir sharedDir)
    = Text.occurrences 'C' imageDir + Text.occurrences 'C' sharedDir + 1 := by
  have hcould : Text.occurrences 'C' "Could not find " = 1 := by decide
  have hname : Text.occurrences 'C' configFile = 0 := by decide
  have hin : Text.occurrences 'C' " in " = 0 := by decide
  have hor : Text.occurrences 'C' " or " = 0 := by decide
  unfold notFound
  generalize "Could not find " = could at hcould ⊢
  generalize configFile = name at hname ⊢
  generalize " in " = within at hin ⊢
  generalize " or " = between at hor ⊢
  simp only [Text.occurrences_append, hcould, hname, hin, hor]
  omega

theorem capitals_notJson (path : String) :
    Text.occurrences 'C' (notJson path Json.readError) = Text.occurrences 'C' path := by
  have hvalid : Text.occurrences 'C' " is not valid JSON: " = 0 := by decide
  have hreason : Text.occurrences 'C' Json.readError = 0 := by decide
  unfold notJson
  generalize " is not valid JSON: " = valid at hvalid ⊢
  generalize Json.readError = reason at hreason ⊢
  simp only [Text.occurrences_append, hvalid, hreason, Nat.add_zero]

/-- A joined path has not as many capital letters as that error, which names the directory. -/
theorem notJson_ne_notFound {dir : String} (h : dir = imageDir ∨ dir = sharedDir) :
    notJson (Files.Path.join dir configFile) Json.readError ≠ notFound imageDir sharedDir := by
  intro heq
  have hcount := congrArg (Text.occurrences 'C') heq
  rw [capitals_notJson, capitals_notFound] at hcount
  have hname : Text.occurrences 'C' configFile = 0 := by decide
  have hjoin := Files.Path.occurrences_join_le (c := 'C') (by decide) (by decide) dir configFile
  rw [hcount, hname] at hjoin
  rcases h with rfl | rfl <;> omega

theorem issues_path {α : Type} {name : String} {checked : Checked α} {i : Issue} (hi : i ∈ checked.issues name) :
    i.path = [name] := by
  cases checked with
  | ok => cases hi
  | error complaints =>
    obtain ⟨complaint, -, rfl⟩ := List.mem_map.mp hi
    rfl

/-- An issue names the field that it is about, unless there are no fields. -/
theorem validate_issue {v : Json} {found : List Issue} (h : validate v = .error found) {i : Issue} (hi : i ∈ found) :
    (∃ name ∈ ["id", "dependencies", "address", "port"], i.path = [name]) ∨ i = Issue.notObject v := by
  cases v with
  | obj ms =>
    left
    simp only [validate, ofMembers] at h
    split at h
    · cases h
    · cases h
      simp only [List.mem_append] at hi
      rcases hi with ((hi | hi) | hi) | hi
      · exact ⟨"id", by simp, issues_path hi⟩
      · exact ⟨"dependencies", by simp, issues_path hi⟩
      · exact ⟨"address", by simp, issues_path hi⟩
      · exact ⟨"port", by simp, issues_path hi⟩
  | _ =>
    cases h
    exact Or.inr (List.mem_singleton.mp hi)

theorem issue_ne_notFound {v : Json} {found : List Issue} (h : validate v = .error found) {i : Issue} (hi : i ∈ found) :
    i.text ≠ notFound imageDir sharedDir := by
  intro heq
  have hhead : i.text.toList.head? = some 'C' := by rw [heq, notFound_head]
  rcases validate_issue h hi with ⟨name, hname, hpath⟩ | rfl
  · have htext : i.text = name ++ (": " ++ i.complaint.text) := by
      rw [Issue.text, hpath, ← String.append_assoc]
      rfl
    rw [htext, String.toList_append] at hhead
    simp only [List.mem_cons, List.not_mem_nil, or_false] at hname
    rcases hname with rfl | rfl | rfl | rfl <;> cases hhead
  · have htext : (Issue.notObject v).text = "Expected " ++ ("object, received " ++ v.shape.name) := by
      rw [← String.append_assoc]
      rfl
    rw [htext, String.toList_append] at hhead
    cases hhead

theorem ofContent_ne_notFound {dir : String} (h : dir = imageDir ∨ dir = sharedDir) (content : Bytes) :
    ofContent (Files.Path.join dir configFile) content ≠ .error (.config [notFound imageDir sharedDir]) := by
  intro heq
  have hgives := gives_ofContent (Files.Path.join dir configFile) content
  generalize ofContent (Files.Path.join dir configFile) content = result at heq hgives
  cases hgives with
  | notJson _ =>
    have htext := List.cons.inj (Fault.config.inj (Except.error.inj heq))
    exact notJson_ne_notFound h htext.1
  | invalid v found _ hvalidate =>
    have htexts : found.map Issue.text = [notFound imageDir sharedDir] := Fault.config.inj (Except.error.inj heq)
    obtain ⟨i, hi, htext⟩ := List.mem_map.mp (htexts ▸ List.mem_singleton_self (notFound imageDir sharedDir))
    exact issue_ne_notFound hvalidate hi htext
  | valid => cases heq

/-- There is no file if the candidates are passed over, and no other trouble is reported so. -/
theorem not_found_iff : load t imageDir sharedDir = .error (.config [notFound imageDir sharedDir]) ↔
    PassedOver t (Files.Path.join imageDir configFile) ∧ PassedOver t (Files.Path.join sharedDir configFile) := by
  have hboth : (∀ path ∈ candidates imageDir sharedDir, PassedOver t path) ↔
      PassedOver t (Files.Path.join imageDir configFile) ∧ PassedOver t (Files.Path.join sharedDir configFile) := by
    rw [candidates, List.forall_mem_cons, List.forall_mem_singleton]
  rw [← hboth]
  refine ⟨fun h => ?_, fun h => load_not_found (firstFile_none_iff.mpr h)⟩
  rcases load_cases t imageDir sharedDir with ⟨path, f, hstat, hload⟩ | ⟨hpassed, -⟩ | ⟨path, hpath, content, hload⟩
  · -- what `stat` fails with is no configuration error
    rw [hload] at h
    cases h
    rcases Tree.stat_error hstat with hf | ⟨errno, hf⟩ <;> cases hf
  · exact hpassed
  · rw [hload] at h
    rw [candidates, List.mem_cons, List.mem_singleton] at hpath
    rcases hpath with rfl | rfl
    · exact absurd h (ofContent_ne_notFound (Or.inl rfl) content)
    · exact absurd h (ofContent_ne_notFound (Or.inr rfl) content)

/-! ## (4) The image directory first -/

/-- The file in the image directory is taken if there is one. If it cannot be looked at, and not
    because nothing is there, the load fails with that, and only if it is passed over the shared
    file is asked, in the same way. The content of the file that is taken gives the outcome, and
    that there is no file is said if both candidates are passed over. So unless the file in the
    image directory is passed over, it alone decides, whatever else there is. -/
theorem image_config_is_never_masked (t : Tree) (imageDir sharedDir : String) :
    let image := Files.Path.join imageDir "criu-coordinator.json"
    let shared := Files.Path.join sharedDir "criu-coordinator.json"
    let taken := firstFile t (candidates imageDir sharedDir)
    let loaded := load t imageDir sharedDir
    (taken = .ok (some image) ↔ ∃ content, t.stat image = .ok (.file content)) ∧
    (∀ f, t.stat image = .error f → f ≠ .file .noEntry .stat image → loaded = .error f) ∧
    (PassedOver t image → (taken = .ok (some shared) ↔ ∃ content, t.stat shared = .ok (.file content)) ∧
      ∀ f, t.stat shared = .error f → f ≠ .file .noEntry .stat shared → loaded = .error f) ∧
    (∀ path, taken = .ok (some path) → ∃ content, t.stat path = .ok (.file content) ∧ Gives path content loaded) ∧
    (loaded = .error (.config ["Could not find criu-coordinator.json in " ++ imageDir ++ " or " ++ sharedDir]) ↔
      PassedOver t image ∧ PassedOver t shared) ∧
    (¬PassedOver t image → ∀ t' sharedDir', t'.stat image = t.stat image → load t' imageDir sharedDir' = loaded) := by
  intro image shared taken loaded
  refine ⟨⟨fun h => (firstFile_some h).2, fun ⟨content, h⟩ => firstFile_file h⟩,
    fun f h hf => load_trouble (firstFile_trouble h hf), fun hpassed => ?_, fun path h => ?_, not_found_iff,
    fun hpassed t' sharedDir' hsame => load_same hpassed hsame⟩
  · have htaken : taken = firstFile t [shared] := firstFile_passed hpassed
    refine ⟨⟨fun h => (firstFile_some h).2, fun ⟨content, h⟩ => htaken.trans (firstFile_file h)⟩, fun f h hf => ?_⟩
    exact load_trouble (htaken.trans (firstFile_trouble h hf))
  · obtain ⟨-, content, hfile⟩ := firstFile_some h
    have hloaded : loaded = ofContent path content := load_taken h hfile
    exact ⟨content, hfile, hloaded ▸ gives_ofContent path content⟩

/-- A link to itself and a file that is no JSON stand before a shared file that is in order. -/
theorem a_looping_link_before_a_shared_file :
    let shared := encode "\x7b\"id\":\"db\"\x7d"
    let t : Tree := ⟨[], [(["etc"], .directory), (["etc", "criu-coordinator.json"], .file shared),
      (["loop"], .directory), (["loop", "criu-coordinator.json"], .link "../loop/criu-coordinator.json"),
      (["broken"], .directory), (["broken", "criu-coordinator.json"], .file (encode "id")), (["none"], .directory)]⟩
    load t "loop" "etc" = .error (.file .tooManyLinks .stat "loop/criu-coordinator.json") ∧
    (∀ t' sharedDir', t'.stat "loop/criu-coordinator.json" = t.stat "loop/criu-coordinator.json" →
      load t' "loop" sharedDir' = load t "loop" "etc") ∧
    Gives "broken/criu-coordinator.json" (encode "id") (load t "broken" "etc") ∧
    Gives "etc/criu-coordinator.json" shared (load t "none" "etc") ∧
    load t "none" "loop/.." = .error (.config ["Could not find criu-coordinator.json in none or loop/.."]) := by
  intro shared t
  have hshared : t.stat "etc/criu-coordinator.json" = .ok (.file shared) := by rfl
  have hbroken : t.stat "broken/criu-coordinator.json" = .ok (.file (encode "id")) := by rfl
  have hloop : t.stat "loop/criu-coordinator.json" = .error (.file .tooManyLinks .stat "loop/criu-coordinator.json") :=
    Tree.stat_of_find (by decide) (by decide +kernel)
  have hnone : PassedOver t "none/criu-coordinator.json" := .absent (Tree.stat_of_find (by decide) (by decide +kernel))
  have hhere : PassedOver t "criu-coordinator.json" := .absent (Tree.stat_of_find (by decide) (by decide +kernel))
  have hpassed : ¬PassedOver t "loop/criu-coordinator.json" := fun h => absurd hloop (h.not_trouble nofun)
  have hjoinLoop : Files.Path.join "loop" "criu-coordinator.json" = "loop/criu-coordinator.json" := by decide
  have hjoinBroken : Files.Path.join "broken" "criu-coordinator.json" = "broken/criu-coordinator.json" := by decide
  have hjoinNone : Files.Path.join "none" "criu-coordinator.json" = "none/criu-coordinator.json" := by decide
  have hjoinEtc : Files.Path.join "etc" "criu-coordinator.json" = "etc/criu-coordinator.json" := by decide
  have hjoinHere : Files.Path.join "loop/.." "criu-coordinator.json" = "criu-coordinator.json" := by decide
  obtain ⟨-, hfails, -, -, -, halone⟩ := image_config_is_never_masked t "loop" "etc"
  obtain ⟨htaken, -, -, hgives, -⟩ := image_config_is_never_masked t "broken" "etc"
  obtain ⟨-, -, hfallsBack, hgives', -⟩ := image_config_is_never_masked t "none" "etc"
  obtain ⟨-, -, -, -, hnotFound, -⟩ := image_config_is_never_masked t "none" "loop/.."
  rw [hjoinLoop] at hfails halone
  rw [hjoinBroken] at htaken
  rw [hjoinNone, hjoinEtc] at hfallsBack
  rw [hjoinNone, hjoinHere] at hnotFound
  refine ⟨hfails _ hloop nofun, halone hpassed, ?_, ?_, hnotFound.mpr ⟨hnone, hhere⟩⟩
  · obtain ⟨content, hfile, h⟩ := hgives _ (htaken.mpr ⟨_, hbroken⟩)
    cases hbroken.symm.trans hfile
    exact h
  · obtain ⟨content, hfile, h⟩ := hgives' _ ((hfallsBack hnone).1.mpr ⟨_, hshared⟩)
    cases hshared.symm.trans hfile
    exact h

end CheckpointRelay.Hook.Config
