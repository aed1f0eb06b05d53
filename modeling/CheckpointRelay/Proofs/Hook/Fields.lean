/-
  CheckpointRelay.Proofs.Hook.Fields — what may stand in a configuration file.

  Of an object four members are read, each for itself: a field takes what stands there or has one
  complaint about it (`Field.takes`, `Field.complaint`). A file gives a configuration if all four
  take what they find, and otherwise the complaints in the order of the fields; its other members
  have no say. The port may be a number or a text of digits, however many, and what it names
  (`PortNames`) is told only when the client is made. No text is rounded into the range of ports,
  so the hook connects to the very port that the file names or, if that is none, not at all.
  - `issues_eq`: the check of each field.
  - `ofMembers_ok_iff` / `ofMembers_error`: the check of an object.
  - `denotes_iff_names`: what the port denotes.
  - `Ready.cleared_iff` / `Ready.stopped`: a call that only the port may stop.
  - `files_are_read_exactly`: all of it.
-/

import CheckpointRelay.Proofs.Client.Bounds
import CheckpointRelay.Proofs.Hook.Preflight
import CheckpointRelay.Proofs.Json.Reading
import CheckpointRelay.Proofs.Json.Rereading
import CheckpointRelay.Proofs.Text.Decoding

namespace CheckpointRelay.Hook

open Number (Binary64)
open Files (Tree)
open Text.Utf8 (Bytes decode encode)
open Envelope (HookAction)

namespace Config

/-! ## (1) Fields -/

inductive Field where
  | id
  | dependencies
  | address
  | port
  deriving DecidableEq

namespace Field

/-- In the order of their issues. -/
def all : List Field := [.id, .dependencies, .address, .port]

def name : Field → String
  | .id => "id"
  | .dependencies => "dependencies"
  | .address => "address"
  | .port => "port"

/-- What may stand in a field; `none` is a field that is absent, which a `null` is not. -/
def takes : Field → Option Json → Bool
  | .id, some (.str s) => s ≠ ""
  | .dependencies, none => true
  | .dependencies, some (.str _) => true
  | .address, none => true
  | .address, some (.str s) => s.toList.any fun c => !Text.isBlank c
  | .port, none => true
  | .port, some (.num _) => true
  | .port, some (.str s) => Text.trim s != "" && (Text.trim s).toList.all fun c => '0' ≤ c && c ≤ '9'
  | _, _ => false

/-- What is wrong where a field does not take what stands there. -/
def complaint : Field → Option Json → Complaint
  | .port, _ => .noAlternative
  | .id, none => .missingId
  | .id, some (.str _) => .missingId
  | .address, some (.str _) => .emptyText
  | _, some v => .expected .string v.shape
  | _, none => .required

/-- The check of a field gives a value. -/
def Passes : Field → Option Json → Prop
  | .id, v => ∃ id, checkId v = .ok id
  | .dependencies, v => ∃ dependencies, checkDependencies v = .ok dependencies
  | .address, v => ∃ address, checkAddress v = .ok address
  | .port, v => ∃ port, checkPort v = .ok port

/-- The issues of the check of a field. -/
def issues : Field → Option Json → List Issue
  | .id, v => (checkId v).issues "id"
  | .dependencies, v => (checkDependencies v).issues "dependencies"
  | .address, v => (checkAddress v).issues "address"
  | .port, v => (checkPort v).issues "port"

end Field

variable {v : Option Json}

theorem checkId_ok_iff {id : String} : checkId v = .ok id ↔ v = some (.str id) ∧ id ≠ "" := by
  match v with
  | some (.str s) =>
    simp only [checkId]
    by_cases hempty : s = ""
    · subst hempty
      simp only [if_true, Option.some.injEq, Json.str.injEq]
      exact ⟨nofun, fun ⟨h, hne⟩ => absurd h.symm hne⟩
    · simp only [hempty, if_false, Option.some.injEq, Json.str.injEq, Except.ok.injEq]
      refine ⟨fun h => ⟨h, ?_⟩, fun h => h.1⟩
      rw [← h]
      exact hempty
  | none | some .null | some (.bool _) | some (.num _) | some (.arr _) | some (.obj _) => simp [checkId]

theorem checkDependencies_ok_iff {dependencies : String} : checkDependencies v = .ok dependencies ↔
    v = some (.str dependencies) ∨ v = none ∧ dependencies = "" := by
  match v with
  | none =>
    simp only [checkDependencies, Except.ok.injEq, reduceCtorEq, false_or, true_and]
    exact eq_comm
  | some (.str s) => simp [checkDependencies]
  | some .null | some (.bool _) | some (.num _) | some (.arr _) | some (.obj _) => simp [checkDependencies]

theorem checkAddress_ok_iff {address : String} : checkAddress v = .ok address ↔
    (∃ s, v = some (.str s) ∧ (∃ c ∈ s.toList, Text.isBlank c = false) ∧ address = Text.trim s) ∨
      v = none ∧ address = "127.0.0.1" := by
  match v with
  | none =>
    simp only [checkAddress, Client.defaultHost, Except.ok.injEq, reduceCtorEq, false_and, exists_false, false_or,
      true_and]
    exact eq_comm
  | some (.str s) =>
    simp only [checkAddress, ← Text.allBlank_eq_false_iff, Option.some.injEq, Json.str.injEq, reduceCtorEq, false_and,
      or_false, exists_eq_left']
    cases Text.allBlank s with
    | true => simp
    | false =>
      simp only [Bool.false_eq_true, if_false, Except.ok.injEq, true_and]
      exact eq_comm
  | some .null | some (.bool _) | some (.num _) | some (.arr _) | some (.obj _) => simp [checkAddress]

/-- A text of digits, however many and whatever they begin with, stands for the natural that is
    written so. -/
theorem portOfText?_eq_some_iff {s : String} {x : Binary64} : portOfText? s = some x ↔
    (Text.trim s ≠ "" ∧ ∀ c ∈ (Text.trim s).toList, '0' ≤ c ∧ c ≤ '9') ∧
      x = .ofDecimal false (Nat.ofDigitChars 10 (Text.trim s).toList 0) 0 := by
  have hchars : (Text.trim s).toList = Text.trimChars s.toList := by rw [Text.trim, String.toList_ofList]
  have hempty : Text.trim s = "" ↔ Text.trimChars s.toList = [] := by
    rw [← hchars, ← String.toList_inj]
    rfl
  have hvalue (cs : List Char) (n : Nat) :
      cs.foldl (fun n c => n * 10 + Number.Numeral.digitValue c) n = Nat.ofDigitChars 10 cs n := by
    simp only [Nat.ofDigitChars, Nat.mul_comm _ 10]
    rfl
  have hdigits : (Text.trimChars s.toList).all Number.Numeral.isDigit = true
      ↔ ∀ c ∈ Text.trimChars s.toList, '0' ≤ c ∧ c ≤ '9' := by
    simp [Number.Numeral.isDigit]
  simp only [portOfText?, Number.Numeral.natOfDigits, hvalue, hdigits, hchars, hempty, ne_eq,
    Option.ite_none_right_eq_some, Option.some.injEq]
  exact and_congr_right fun _ => eq_comm

theorem checkPort_ok_iff {port : Binary64} : checkPort v = .ok port ↔
    v = none ∧ port = .ofNat 8080 ∨ v = some (.num port) ∧ port ≠ .nan ∨
      ∃ s, v = some (.str s) ∧ portOfText? s = some port := by
  match v with
  | none =>
    simp only [checkPort, Client.defaultPort, Except.ok.injEq, reduceCtorEq, false_and, exists_false, or_false,
      true_and]
    exact eq_comm
  | some (.num .nan) =>
    simp only [checkPort, reduceCtorEq, false_and, exists_false, or_false, false_or, Option.some.injEq, Json.num.injEq,
      false_iff, not_and, not_not]
    exact fun h => h.symm
  | some (.num (.infinite negative)) =>
    simp only [checkPort, reduceCtorEq, false_and, exists_false, or_false, false_or, Option.some.injEq, Json.num.injEq,
      Except.ok.injEq]
    refine ⟨fun h => ⟨h, ?_⟩, fun h => h.1⟩
    rw [← h]
    nofun
  | some (.num (.finite negative significand exponent)) =>
    simp only [checkPort, reduceCtorEq, false_and, exists_false, or_false, false_or, Option.some.injEq, Json.num.injEq,
      Except.ok.injEq]
    refine ⟨fun h => ⟨h, ?_⟩, fun h => h.1⟩
    rw [← h]
    nofun
  | some (.str s) =>
    simp only [checkPort, reduceCtorEq, false_and, false_or, Option.some.injEq, Json.str.injEq, exists_eq_left']
    cases portOfText? s <;> simp
  | some .null | some (.bool _) | some (.arr _) | some (.obj _) => simp [checkPort]

theorem takes_printed (s : String) : Field.address.takes (some (.str s)) = !Text.allBlank s :=
  List.not_all_eq_any_not.symm

theorem takes_digits_iff {s : String} : Field.port.takes (some (.str s)) = true
    ↔ Text.trim s ≠ "" ∧ ∀ c ∈ (Text.trim s).toList, '0' ≤ c ∧ c ≤ '9' := by
  simp [Field.takes]

/-- A field passes what it takes; no text of a file is read as what is not a number. -/
theorem passes_of_takes {f : Field} (hnan : v ≠ some (.num .nan)) (h : f.takes v = true) : f.Passes v := by
  cases f with
  | id =>
    match v with
    | some (.str s) => exact ⟨s, checkId_ok_iff.mpr ⟨rfl, of_decide_eq_true h⟩⟩
    | none | some .null | some (.bool _) | some (.num _) | some (.arr _) | some (.obj _) => cases h
  | dependencies =>
    match v with
    | none => exact ⟨"", rfl⟩
    | some (.str s) => exact ⟨s, rfl⟩
    | some .null | some (.bool _) | some (.num _) | some (.arr _) | some (.obj _) => cases h
  | address =>
    match v with
    | none => exact ⟨"127.0.0.1", rfl⟩
    | some (.str s) =>
      have hprinted : Text.allBlank s = false := by rwa [takes_printed, Bool.not_eq_true'] at h
      exact ⟨Text.trim s, checkAddress_ok_iff.mpr (Or.inl ⟨s, rfl, Text.allBlank_eq_false_iff.mp hprinted, rfl⟩)⟩
    | some .null | some (.bool _) | some (.num _) | some (.arr _) | some (.obj _) => cases h
  | port =>
    match v with
    | none => exact ⟨.ofNat 8080, rfl⟩
    | some (.num x) => exact ⟨x, checkPort_ok_iff.mpr (Or.inr (Or.inl ⟨rfl, fun hx => hnan (hx ▸ rfl)⟩))⟩
    | some (.str s) =>
      have hport := portOfText?_eq_some_iff.mpr ⟨takes_digits_iff.mp h, rfl⟩
      exact ⟨_, checkPort_ok_iff.mpr (Or.inr (Or.inr ⟨s, rfl, hport⟩))⟩
    | some .null | some (.bool _) | some (.arr _) | some (.obj _) => cases h

theorem issues_of_passes {f : Field} (h : f.Passes v) : f.issues v = [] := by
  cases f <;> · obtain ⟨a, ha⟩ := h
                rw [Field.issues, ha]
                rfl

theorem issues_of_not_takes {f : Field} (h : f.takes v = false) : f.issues v = [⟨[f.name], f.complaint v⟩] := by
  cases f with
  | id =>
    match v with
    | some (.str s) =>
      have hempty : s = "" := by simpa [Field.takes] using h
      subst hempty
      rfl
    | none | some .null | some (.bool _) | some (.num _) | some (.arr _) | some (.obj _) => rfl
  | dependencies =>
    match v with
    | none | some (.str s) => cases h
    | some .null | some (.bool _) | some (.num _) | some (.arr _) | some (.obj _) => rfl
  | address =>
    match v with
    | none => cases h
    | some (.str s) =>
      have hblank : Text.allBlank s = true := by rwa [takes_printed, Bool.not_eq_false'] at h
      simp only [Field.issues, checkAddress, hblank, if_true]
      rfl
    | some .null | some (.bool _) | some (.num _) | some (.arr _) | some (.obj _) => rfl
  | port =>
    match v with
    | none | some (.num x) => cases h
    | some (.str s) =>
      have hnone : portOfText? s = none := by
        rw [Option.eq_none_iff_forall_ne_some]
        intro x hx
        exact Bool.eq_false_iff.mp h (takes_digits_iff.mpr (portOfText?_eq_some_iff.mp hx).1)
      simp only [Field.issues, checkPort, hnone]
      rfl
    | some .null | some (.bool _) | some (.arr _) | some (.obj _) => rfl

/-- A field that does not take what stands there has one issue. -/
theorem issues_eq {f : Field} (hnan : v ≠ some (.num .nan)) :
    f.issues v = if f.takes v then [] else [⟨[f.name], f.complaint v⟩] := by
  cases h : f.takes v with
  | true => exact issues_of_passes (passes_of_takes hnan h)
  | false => exact issues_of_not_takes h

theorem passes_iff_takes {f : Field} (hnan : v ≠ some (.num .nan)) : f.Passes v ↔ f.takes v = true := by
  refine ⟨fun h => ?_, passes_of_takes hnan⟩
  by_contra hnot
  have hissues := issues_of_not_takes (Bool.eq_false_iff.mpr hnot)
  rw [issues_of_passes h] at hissues
  cases hissues

/-! ## (2) Objects -/

variable {members : Keyed Json} {config : Config}

/-- What stands in a field. -/
def Field.of (members : Keyed Json) (f : Field) : Option Json := Keyed.get? members f.name

/-- What the members of an object make of a configuration. -/
structure Describes (members : Keyed Json) (config : Config) : Prop where
  id : Field.id.of members = some (.str config.id) ∧ config.id ≠ ""
  dependencies : Field.dependencies.of members = some (.str config.dependencies) ∨
    Field.dependencies.of members = none ∧ config.dependencies = ""
  address : (∃ s, Field.address.of members = some (.str s) ∧ (∃ c ∈ s.toList, Text.isBlank c = false) ∧
      config.address = Text.trim s) ∨
    Field.address.of members = none ∧ config.address = "127.0.0.1"
  port : Field.port.of members = none ∧ config.port = .ofNat 8080 ∨
    Field.port.of members = some (.num config.port) ∧ config.port ≠ .nan ∨
    ∃ s, Field.port.of members = some (.str s) ∧
      (Text.trim s ≠ "" ∧ ∀ c ∈ (Text.trim s).toList, '0' ≤ c ∧ c ≤ '9') ∧
      config.port = .ofDecimal false (Nat.ofDigitChars 10 (Text.trim s).toList 0) 0

/-- Each field is checked for itself. -/
theorem ofMembers_ok_iff_checks : ofMembers members = .ok config ↔
    checkId (Field.id.of members) = .ok config.id ∧
    checkDependencies (Field.dependencies.of members) = .ok config.dependencies ∧
    checkAddress (Field.address.of members) = .ok config.address ∧
    checkPort (Field.port.of members) = .ok config.port := by
  simp only [Field.of, Field.name]
  constructor
  · intro h
    simp only [ofMembers] at h
    split at h
    · rename_i hid hdependencies haddress hport
      cases h
      exact ⟨hid, hdependencies, haddress, hport⟩
    · cases h
  · rintro ⟨hid, hdependencies, haddress, hport⟩
    simp only [ofMembers, hid, hdependencies, haddress, hport]

theorem ofMembers_ok_iff : ofMembers members = .ok config ↔ Describes members config := by
  rw [ofMembers_ok_iff_checks, checkId_ok_iff, checkDependencies_ok_iff, checkAddress_ok_iff, checkPort_ok_iff]
  simp only [portOfText?_eq_some_iff]
  exact ⟨fun ⟨hid, hdependencies, haddress, hport⟩ => ⟨hid, hdependencies, haddress, hport⟩,
    fun h => ⟨h.id, h.dependencies, h.address, h.port⟩⟩

theorem ofMembers_ok_exists_iff :
    (∃ config, ofMembers members = .ok config) ↔ ∀ f : Field, f.Passes (f.of members) := by
  simp only [ofMembers_ok_iff_checks]
  constructor
  · rintro ⟨config, hid, hdependencies, haddress, hport⟩ f
    cases f with
    | id => exact ⟨_, hid⟩
    | dependencies => exact ⟨_, hdependencies⟩
    | address => exact ⟨_, haddress⟩
    | port => exact ⟨_, hport⟩
  · intro h
    obtain ⟨id, hid⟩ := h .id
    obtain ⟨dependencies, hdependencies⟩ := h .dependencies
    obtain ⟨address, haddress⟩ := h .address
    obtain ⟨port, hport⟩ := h .port
    exact ⟨⟨id, dependencies, address, port⟩, hid, hdependencies, haddress, hport⟩

theorem ofMembers_error (h : ¬∃ config, ofMembers members = .ok config) :
    ofMembers members = .error (Field.all.flatMap fun f => f.issues (f.of members)) := by
  simp only [ofMembers] at h ⊢
  split at h
  · exact absurd ⟨_, rfl⟩ h
  · simp [Field.all, Field.issues, Field.of, Field.name]

/-- Only the four fields are looked at. -/
theorem ofMembers_congr {members' : Keyed Json} (h : ∀ f : Field, f.of members' = f.of members) :
    ofMembers members' = ofMembers members := by
  by_cases hok : ∃ config, ofMembers members = .ok config
  · obtain ⟨config, hconfig⟩ := hok
    rw [hconfig]
    rw [ofMembers_ok_iff_checks] at hconfig ⊢
    simpa only [h] using hconfig
  · have hok' : ¬∃ config, ofMembers members' = .ok config := by
      rw [ofMembers_ok_exists_iff] at hok ⊢
      simpa only [h] using hok
    rw [ofMembers_error hok, ofMembers_error hok']
    simp only [h]

/-- Each bad field has one issue, and the others have none. -/
theorem issues_of_fields (hnan : ∀ f : Field, f.of members ≠ some (.num .nan)) (fields : List Field) :
    (fields.flatMap fun f => f.issues (f.of members))
      = (fields.filter fun f => !f.takes (f.of members)).map fun f => ⟨[f.name], f.complaint (f.of members)⟩ := by
  induction fields with
  | nil => rfl
  | cons f fields ih =>
    rw [List.flatMap_cons, List.filter_cons, ih, issues_eq (hnan f)]
    cases f.takes (f.of members) <;> rfl

theorem text_issue (f : Field) (c : Complaint) : Issue.text ⟨[f.name], c⟩ = f.name ++ ": " ++ c.text := by
  cases f <;> rfl

/-! ## (3) The file -/

variable {t : Tree} {imageDir sharedDir path : String} {content : Bytes} {v : Json}

/-- The value in the file that is taken decides. -/
theorem load_of_value (hfirst : firstFile t (candidates imageDir sharedDir) = .ok (some path))
    (hfile : t.stat path = .ok (.file content)) (hread : Json.read? (decode content) = some v) :
    load t imageDir sharedDir = (validate v).mapError .ofIssues := by
  rw [load_taken hfirst hfile, ofContent, hread]

theorem mapError_ok_iff {α ε ε' : Type} {x : Except ε α} {f : ε → ε'} {a : α} : x.mapError f = .ok a ↔ x = .ok a := by
  refine ⟨mapError_ok, fun h => ?_⟩
  rw [h]
  rfl

/-- No field of a text holds what is not a number. -/
theorem of_ne_nan {s : String} (h : Json.read? s = some (.obj members)) (f : Field) :
    f.of members ≠ some (.num .nan) := by
  intro hnan
  exact ((Json.read?_doubles h).get? hnan).2 rfl

/-- The values of a text that make a configuration. -/
theorem validate_ok_exists_iff {s : String} (h : Json.read? s = some v) : (∃ config, validate v = .ok config) ↔
    ∃ members, v = .obj members ∧ ∀ f : Field, f.takes (f.of members) = true := by
  constructor
  · rintro ⟨config, hconfig⟩
    cases v with
    | obj members =>
      have hpasses := ofMembers_ok_exists_iff.mp ⟨config, hconfig⟩
      exact ⟨members, rfl, fun f => (passes_iff_takes (of_ne_nan h f)).mp (hpasses f)⟩
    | _ => cases hconfig
  · rintro ⟨members, rfl, htakes⟩
    exact ofMembers_ok_exists_iff.mpr fun f => passes_of_takes (of_ne_nan h f) (htakes f)

/-- What is wrong with the fields of an object. -/
theorem validate_error (hnan : ∀ f : Field, f.of members ≠ some (.num .nan))
    (h : ¬∃ config, ofMembers members = .ok config) : (validate (.obj members)).mapError Fault.ofIssues
      = .error (.config ((Field.all.filter fun f => !f.takes (f.of members)).map fun f =>
        f.name ++ ": " ++ (f.complaint (f.of members)).text)) := by
  rw [validate, ofMembers_error h, issues_of_fields hnan]
  simp only [Except.mapError, Fault.ofIssues, List.map_map, Function.comp_def, text_issue]

/-! ## (4) The port -/

/-- What the port names: a number what it denotes, a text of digits the natural that is written so. -/
inductive PortNames : Option Json → Nat → Prop
  | default : PortNames none 8080
  | number (x : Binary64) (n : Nat) : x.Denotes n → PortNames (some (.num x)) n
  | digits (s : String) : PortNames (some (.str s)) (Nat.ofDigitChars 10 (Text.trim s).toList 0)

/-- A double cannot hold every natural that a text may name, but below `2 ^ 53` it tells them all
    apart, from each other and from those that it cannot hold. -/
theorem denotes_iff_names (h : Describes members config) {n : Nat} (hn : n < 2 ^ 53) :
    config.port.Denotes n ↔ PortNames (Field.port.of members) n := by
  rcases h.port with ⟨hnone, hport⟩ | ⟨hnumber, -⟩ | ⟨s, hs, -, hport⟩
  · rw [hnone, hport, Binary64.denotes_ofNat_iff hn]
    constructor
    · rintro rfl
      exact .default
    · intro h
      cases h
      rfl
  · rw [hnumber]
    constructor
    · exact .number config.port n
    · intro h
      cases h with
      | number _ _ hdenotes => exact hdenotes
  · rw [hs, hport, Binary64.denotes_ofDecimal_iff hn]
    constructor
    · rintro rfl
      exact .digits s
    · intro h
      cases h
      rfl

theorem describes_of_load (h : load t imageDir sharedDir = .ok config) : ∃ members, Describes members config := by
  obtain ⟨v, hvalid⟩ := validate_of_load h
  cases v with
  | obj members => exact ⟨members, ofMembers_ok_iff.mp hvalid⟩
  | _ => cases hvalid

theorem Describes.address_printed (h : Describes members config) :
    ∃ c ∈ config.address.toList, Text.isBlank c = false := by
  rcases h.address with ⟨s, -, hs, haddress⟩ | ⟨-, haddress⟩
  · rw [haddress, ← Text.allBlank_eq_false_iff, Text.allBlank_trim, Text.allBlank_eq_false_iff]
    exact hs
  · rw [haddress]
    exact ⟨'1', by decide, by decide⟩

end Config

/-- A call that only the port may stop: the action is forwarded, the id is not blank, and the
    environment is in order for the fields that the file does not set. -/
structure Ready (call : Call) (dir : String) (config : Config) (action : HookAction) : Prop
    extends Forwardable call dir config action where
  identified : Text.allBlank config.id = false
  ambient : ∀ f : Client.Field, f ∈ [.timeoutMs, .maxResponseBytes, .logLevel] → ∃ w, f.Takes (f.ambient call.ambient) w

namespace Ready

variable {call : Call} {dir : String} {config : Config} {action : HookAction}

/-- Every field of the client but the port is in order. -/
theorem takes (h : Ready call dir config action) {f : Client.Field} (hf : f ≠ .port) :
    ∃ w, f.Takes (f.effective ((overrides config).field? f) call.ambient) w := by
  cases f with
  | host =>
    obtain ⟨members, hmembers⟩ := Config.describes_of_load h.loaded
    exact ⟨_, .host config.address hmembers.address_printed⟩
  | port => exact absurd rfl hf
  | timeoutMs => exact h.ambient .timeoutMs (by decide)
  | maxResponseBytes => exact h.ambient .maxResponseBytes (by decide)
  | logLevel => exact h.ambient .logLevel (by decide)

/-- So the port decides whether there is a client. -/
theorem cleared_iff (h : Ready call dir config action) : (∃ client, Cleared call dir config action client) ↔
    ∃ n, config.port.Denotes n ∧ 1 ≤ n ∧ n ≤ 65535 := by
  have hload : (∃ client, Cleared call dir config action client)
      ↔ ∃ client, Client.Config.load (overrides config) call.ambient = .ok client :=
    ⟨fun ⟨client, hclient⟩ => ⟨client, hclient.reachable⟩,
      fun ⟨client, hclient⟩ => ⟨client, h.toForwardable, h.identified, hclient⟩⟩
  rw [hload, Client.load_ok_exists_iff]
  constructor
  · intro hall
    have hport : ∃ w, Client.Field.port.Takes (.num config.port) w := hall .port
    obtain ⟨w, hw⟩ := hport
    cases hw with
    | port _ n hdenotes hlow hhigh => exact ⟨n, hdenotes, hlow, hhigh⟩
  · rintro ⟨n, hdenotes, hlow, hhigh⟩ f
    by_cases hf : f = .port
    · subst hf
      exact ⟨_, .port config.port n hdenotes hlow hhigh⟩
    · exact h.takes hf

/-- A call without a client is stopped by the complaints about the port, and does nothing. -/
theorem stopped (h : Ready call dir config action) (hport : ¬∃ n, config.port.Denotes n ∧ 1 ≤ n ∧ n ≤ 65535)
    (script : Client.Script) :
    run call script
      = ⟨some (.error (.config (Client.Field.port.texts (.num config.port)))), [], [], call.now, none⟩ := by
  have hnone : ¬∃ client, Client.Config.load (overrides config) call.ambient = .ok client := by
    rintro ⟨client, hclient⟩
    exact hport (h.cleared_iff.mp ⟨client, h.toForwardable, h.identified, hclient⟩)
  have htexts {f : Client.Field} (hf : f ≠ .port) :
      f.texts (f.effective ((overrides config).field? f) call.ambient) = [] := by
    rw [Client.Field.texts, Client.complaints_eq_nil_iff.mpr (h.takes hf)]
    rfl
  have herror : Client.Config.load (overrides config) call.ambient
      = .error (.config (Client.Field.port.texts (.num config.port))) := by
    rw [Client.load_error hnone]
    have hhost := htexts (f := .host) (by decide)
    have htimeout := htexts (f := .timeoutMs) (by decide)
    have hlimit := htexts (f := .maxResponseBytes) (by decide)
    have hlevel := htexts (f := .logLevel) (by decide)
    simp only [Client.Field.all, List.flatMap_cons, List.flatMap_nil, hhost, htimeout, hlimit, hlevel, List.nil_append,
      List.append_nil]
    rfl
  exact run_of_stopped (.unreachable dir config action _ h.toForwardable h.identified herror) script

/-- It connects to the address of the file, at the port that the port denotes. -/
theorem connects_iff (h : Ready call dir config action) (dated : Clock.HasDate call.now) (script : Client.Script)
    {host : String} {port : Nat} : .connect host port ∈ (run call script).trace ↔
      host = config.address ∧ config.port.Denotes port ∧ 1 ≤ port ∧ port ≤ 65535 := by
  by_cases hclient : ∃ client, Cleared call dir config action client
  · obtain ⟨client, hcleared⟩ := hclient
    obtain ⟨rest, htrace, hrest⟩ := Client.Session.sendRaw_connects client (Client.Session.start call.now)
      (Text.Utf8.encode (hookRequest config action).toJson.text) (some config.id)
      (script.reached call.loggerInUse client call.now)
    have hhost : client.host = config.address := (load_host hcleared.reachable).trans (load_trimmed hcleared.loaded)
    have hdenotes : config.port.Denotes client.port := load_port hcleared.reachable
    have hbounds : 1 ≤ client.port ∧ client.port ≤ 65535 := (Client.load_inBounds hcleared.reachable).port
    rw [trace_of_cleared hcleared dated script, htrace, List.mem_cons]
    simp only [hrest, or_false, Client.Action.connect.injEq, hhost]
    refine and_congr_right fun _ => ⟨?_, fun hport => Binary64.denotes_unique hport.1 hdenotes⟩
    rintro rfl
    exact ⟨hdenotes, hbounds⟩
  · have hport := h.cleared_iff.not.mp hclient
    rw [h.stopped hport]
    refine ⟨nofun, fun hconnect => absurd ⟨port, hconnect.2⟩ hport⟩

end Ready

/-! ## (5) From the file to the port -/

/-- The file that is taken gives a configuration if it holds an object each of whose four fields
    takes what stands there, and then what they describe. Otherwise the error lists the fields that
    do not, in their order, or that it is no object; two files that agree on the four fields come
    to the same, whatever else they hold. A call that only the port may stop connects to the port
    that the field names if it is in the range of ports, a text of digits the natural that it is
    written as, and to no other; and if it is not, the call fails with that and does nothing. -/
theorem files_are_read_exactly (call : Call) {dir path : String} {content : Bytes} {v : Json}
    (hfirst : Config.firstFile call.files (Config.candidates dir call.sharedDir) = .ok (some path))
    (hfile : call.files.stat path = .ok (.file content)) (hread : Json.read? (decode content) = some v) :
    let loaded := Config.load call.files dir call.sharedDir
    ((∃ config, loaded = .ok config) ↔
      ∃ members, v = .obj members ∧ ∀ f : Config.Field, f.takes (f.of members) = true) ∧
    (∀ members config, v = .obj members → (loaded = .ok config ↔ Config.Describes members config)) ∧
    (∀ members, v = .obj members → (¬∃ config, loaded = .ok config) → loaded = .error (.config
      ((Config.Field.all.filter fun f => !f.takes (f.of members)).map fun f =>
        f.name ++ ": " ++ (f.complaint (f.of members)).text))) ∧
    ((∀ members, v ≠ .obj members) → loaded = .error (.config ["Expected object, received " ++ v.shape.name])) ∧
    (∀ (call' : Call) dir' path' content' members members', v = .obj members →
      Config.firstFile call'.files (Config.candidates dir' call'.sharedDir) = .ok (some path') →
      call'.files.stat path' = .ok (.file content') → Json.read? (decode content') = some (.obj members') →
      (∀ f : Config.Field, f.of members' = f.of members) → Config.load call'.files dir' call'.sharedDir = loaded) ∧
    (∀ members config action script, v = .obj members → Ready call dir config action → Clock.HasDate call.now →
      let named (port : Nat) := Config.PortNames (Config.Field.port.of members) port ∧ 1 ≤ port ∧ port ≤ 65535
      let done := run call script
      (∀ host port, .connect host port ∈ done.trace ↔ host = config.address ∧ named port) ∧
      ((¬∃ port, named port) → done.trace = [] ∧ done.result = some (.error (.config
        ((Client.Field.port.complaints (.num config.port)).map fun c => "port: " ++ c.text))))) := by
  intro loaded
  have hloaded : loaded = (Config.validate v).mapError .ofIssues := Config.load_of_value hfirst hfile hread
  have hdescribes (members : Keyed Json) (config : Config) (hv : v = .obj members) :
      loaded = .ok config ↔ Config.Describes members config := by
    rw [hloaded, hv, Config.mapError_ok_iff, ← Config.ofMembers_ok_iff]
    rfl
  refine ⟨?_, hdescribes, ?_, ?_, ?_, ?_⟩
  · simp only [hloaded, Config.mapError_ok_iff]
    exact Config.validate_ok_exists_iff hread
  · rintro members rfl hnone
    rw [hloaded]
    refine Config.validate_error (Config.of_ne_nan hread) ?_
    rintro ⟨config, hconfig⟩
    exact hnone ⟨config, hloaded.trans (Config.mapError_ok_iff.mpr hconfig)⟩
  · intro hnot
    rw [hloaded]
    cases v with
    | obj members => exact absurd rfl (hnot members)
    | _ => rfl
  · rintro call' dir' path' content' members members' rfl hfirst' hfile' hread' hsame
    rw [hloaded, Config.load_of_value hfirst' hfile' hread']
    simp only [Config.validate, Config.ofMembers_congr hsame]
  · rintro members config action script rfl hready dated named done
    have hmembers : Config.Describes members config := (hdescribes members config rfl).mp hready.loaded
    have hnamed (port : Nat) : config.port.Denotes port ∧ 1 ≤ port ∧ port ≤ 65535 ↔ named port := by
      refine and_congr_left fun hbounds => Config.denotes_iff_names hmembers ?_
      omega
    constructor
    · intro host port
      rw [← hnamed]
      exact hready.connects_iff dated script
    · intro hnone
      simp only [← hnamed] at hnone
      have hdone := hready.stopped hnone script
      exact ⟨congrArg Run.trace hdone, congrArg Run.result hdone⟩

/-- A port that is written with more zeros than a double has digits, and a member that is no field. -/
theorem a_padded_port_is_reached :
    let value : Json := .obj [("id", .str "web"), ("color", .null), ("address", .str " relay "),
      ("port", .str " 00000000000000000000000000000000009000 ")]
    let content := encode value.text
    let files : Tree := ⟨[], [(["img"], .directory), (["img", "criu-coordinator.json"], .file content)]⟩
    let call : Call := ⟨0, "post-dump", { imageDir := some "img" }, {}, "/etc/criu", none, files⟩
    Config.firstFile call.files (Config.candidates "img" call.sharedDir) = .ok (some "img/criu-coordinator.json") ∧
    call.files.stat "img/criu-coordinator.json" = .ok (.file content) ∧ Json.read? (decode content) = some value ∧
    ∀ script host port, .connect host port ∈ (run call script).trace ↔ host = "relay" ∧ port = 9000 := by
  intro value content files call
  have hfile : call.files.stat "img/criu-coordinator.json" = .ok (.file content) := by rfl
  have hpath : Files.Path.join "img" configFile = "img/criu-coordinator.json" := by decide
  have hfirst : Config.firstFile call.files (Config.candidates "img" call.sharedDir)
      = .ok (some "img/criu-coordinator.json") := by
    rw [Config.candidates, hpath]
    exact Config.firstFile_file hfile
  have hread : Json.read? (decode content) = some value := by
    rw [Text.Utf8.decode_encode]
    exact Json.read_text value (by decide)
  obtain ⟨-, hdescribes, -, -, -, hconnects⟩ := files_are_read_exactly call hfirst hfile hread
  have hdigits : Nat.ofDigitChars 10 (Text.trim " 00000000000000000000000000000000009000 ").toList 0 = 9000 := by decide
  let config : Config := ⟨"web", "", "relay", .ofDecimal false (Nat.ofDigitChars 10
    (Text.trim " 00000000000000000000000000000000009000 ").toList 0) 0⟩
  have hloaded : Config.load call.files "img" call.sharedDir = .ok config := by
    have hprinted : ∃ c ∈ " relay ".toList, Text.isBlank c = false := ⟨'r', by decide, by decide⟩
    refine (hdescribes _ _ rfl).mpr ⟨⟨rfl, by decide⟩, Or.inr ⟨rfl, rfl⟩, Or.inl ⟨_, rfl, hprinted, by decide⟩, ?_⟩
    exact Or.inr (Or.inr ⟨_, rfl, Config.takes_digits_iff.mp (by decide), rfl⟩)
  have hready : Ready call "img" config .postDump := by
    have hcapture : HookAction.postDump = .preDump → CaptureInOrder call.files "img" := fun h => absurd h (by decide)
    refine ⟨⟨⟨rfl, by decide, hloaded⟩, rfl, by decide, hcapture⟩, by decide, fun f hf => ?_⟩
    simp only [List.mem_cons, List.not_mem_nil, or_false] at hf
    rcases hf with rfl | rfl | rfl
    · exact ⟨_, .timeoutMs _ 0 (Binary64.denotes_ofNat_small (by decide)) (by decide)⟩
    · exact ⟨_, .maxResponseBytes _ 1024 (Binary64.denotes_ofNat_small (by decide)) (by decide)⟩
    · exact ⟨_, .logLevel _ .info (by decide)⟩
  refine ⟨hfirst, hfile, hread, fun script host port => ?_⟩
  obtain ⟨hport, -⟩ := hconnects _ _ _ script rfl hready (by decide)
  rw [hport]
  refine and_congr_right fun _ => ⟨?_, ?_⟩
  · rintro ⟨hnames, -⟩
    cases hnames
    exact hdigits
  · rintro rfl
    exact ⟨hdigits ▸ .digits _, by decide, by decide⟩

end CheckpointRelay.Hook
