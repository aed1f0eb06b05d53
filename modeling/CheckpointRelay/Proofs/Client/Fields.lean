/-
  CheckpointRelay.Proofs.Client.Fields — the fields of a configuration, each for itself.

  A field has one raw value: its override, else its environment variable if that is not blank,
  else its default (`Field.effective`). The raw value alone decides whether the field is valid,
  what it becomes (`Field.Takes`) and what is wrong with it (`Field.complaints`); the other fields
  and the sources that are passed over have no say.
  - `check_ok_iff`: the check of a field accepts what the field takes, and gives what it becomes.
  - `check_overlay`: what is checked of a field is its raw value.
  - `load_ok_iff` / `load_error`: a whole configuration, from its fields.
  - `each_field_for_itself`: all of it, over the sources of a configuration.
-/

import CheckpointRelay.Client.Config
import CheckpointRelay.Proofs.Json.Order
import CheckpointRelay.Proofs.Number.Whole
import CheckpointRelay.Proofs.Text.Parts

namespace CheckpointRelay

open Number (Binary64)

/-! ## (1) Fields -/

namespace Client

inductive Field where
  | host
  | port
  | timeoutMs
  | maxResponseBytes
  | logLevel
  deriving DecidableEq

/-- What a field becomes. -/
inductive Value where
  | text (s : String)
  | number (n : Nat)
  | level (l : Log.Level)
  deriving DecidableEq

def Config.value (c : Config) : Field → Value
  | .host => .text c.host
  | .port => .number c.port
  | .timeoutMs => .number c.timeoutMs
  | .maxResponseBytes => .number c.maxResponseBytes
  | .logLevel => .level c.logLevel

def Settings.value (s : Settings) : Field → Json
  | .host => .str s.host
  | .port => .num s.port
  | .timeoutMs => .num s.timeoutMs
  | .maxResponseBytes => .num s.maxResponseBytes
  | .logLevel => .str s.logLevel

def Raw.field? (r : Raw) : Field → Option Json
  | .host => r.host
  | .port => r.port
  | .timeoutMs => r.timeoutMs
  | .maxResponseBytes => r.maxResponseBytes
  | .logLevel => r.logLevel

namespace Field

/-- In the order of their issues. -/
def all : List Field := [.host, .port, .timeoutMs, .maxResponseBytes, .logLevel]

def name : Field → String
  | .host => "host"
  | .port => "port"
  | .timeoutMs => "timeoutMs"
  | .maxResponseBytes => "maxResponseBytes"
  | .logLevel => "logLevel"

def default : Field → Json
  | .host => .str "127.0.0.1"
  | .port => .ofNat 8080
  | .timeoutMs => .ofNat 0
  | .maxResponseBytes => .ofNat 1024
  | .logLevel => .str "info"

/-- The environment variable of a field. -/
def setting? (e : Environment) : Field → Option String
  | .host => e.host
  | .port => e.port
  | .timeoutMs => e.timeoutMs
  | .maxResponseBytes => e.maxResponseBytes
  | .logLevel => e.logLevel

/-- A text of the environment as a raw value: a number is read of it where one is wanted. -/
def ofText (s : String) : Field → Json
  | .host | .logLevel => .str s
  | .port | .timeoutMs | .maxResponseBytes => .num (Number.Numeral.read s)

/-- The raw value of a field that has no override: the variable if it is not blank, else the
    default. -/
def ambient (f : Field) (e : Environment) : Json :=
  match f.setting? e with
  | some s => if Text.allBlank s then f.default else f.ofText s
  | none => f.default

/-- The raw value of a field; `null` is an override like any other value. -/
def effective (f : Field) (override? : Option Json) (e : Environment) : Json := override?.getD (f.ambient e)

/-- The raw values that are valid for a field, and what it becomes with them. -/
inductive Takes : Field → Json → Value → Prop
  | host (s : String) : (∃ c ∈ s.toList, Text.isBlank c = false) → Takes .host (.str s) (.text (Text.trim s))
  | port (x : Binary64) (n : Nat) : x.Denotes n → 1 ≤ n → n ≤ 65535 → Takes .port (.num x) (.number n)
  | timeoutMs (x : Binary64) (n : Nat) : x.Denotes n → n ≤ 2147483647 → Takes .timeoutMs (.num x) (.number n)
  | maxResponseBytes (x : Binary64) (n : Nat) : x.Denotes n → 1 ≤ n → Takes .maxResponseBytes (.num x) (.number n)
  | logLevel (s : String) (l : Log.Level) : Text.toLower (Text.trim s) = l.name →
      Takes .logLevel (.str s) (.level l)

/-- The check of one field. -/
def check : Field → Option Json → Checked Value
  | .host, v => (checkHost v).map .text
  | .port, v => (checkNumber portRange v).map .number
  | .timeoutMs, v => (checkNumber timeoutRange v).map .number
  | .maxResponseBytes, v => (checkNumber maxBytesRange v).map .number
  | .logLevel, v => (Log.Level.check v).map .level

/-- What is wrong with a raw value. -/
def complaints (f : Field) (v : Json) : List Complaint :=
  match f.check (some v) with
  | .ok _ => []
  | .error found => found

end Field

/-! ## (2) The checks -/

theorem checkHost_ok_iff {v : Json} {host : String} :
    checkHost (some v) = .ok host
      ↔ ∃ s, v = .str s ∧ (∃ c ∈ s.toList, Text.isBlank c = false) ∧ Text.trim s = host := by
  cases v with
  | str s =>
    have hblank : Text.allBlank s = false ↔ ∃ c ∈ s.toList, Text.isBlank c = false := Text.allBlank_eq_false_iff
    cases h : Text.allBlank s with
    | true =>
      rw [h] at hblank
      have hno : ¬∃ c ∈ s.toList, Text.isBlank c = false := fun hc => Bool.noConfusion (hblank.mpr hc)
      simp [checkHost, h, hno]
    | false => simp [checkHost, h, hblank.mp h]
  | _ => simp [checkHost]

theorem checkNumber_ok_iff {range : Binary64 → List Complaint} {v : Json} {n : Nat} :
    checkNumber range (some v) = .ok n ↔ ∃ x, v = .num x ∧ x.isInteger = true ∧ range x = [] ∧ x.toNat = n := by
  have hfound (x : Binary64) (hnan : x ≠ .nan) : checkNumber range (some (.num x)) = .ok n
      ↔ (if x.isInteger then [] else [Complaint.notInteger]) ++ range x = [] ∧ x.toNat = n := by
    cases x with
    | nan => exact absurd rfl hnan
    | _ =>
      simp only [checkNumber]
      split
      · rename_i hnone
        simp [hnone]
      · rename_i hsome
        constructor
        · intro h
          cases h
        · rintro ⟨hnone, -⟩
          exact absurd hnone hsome
  cases v with
  | num x =>
    by_cases hnan : x = .nan
    · subst hnan
      simp [checkNumber, Binary64.isInteger]
    · rw [hfound x hnan]
      cases hinteger : x.isInteger <;> simp [hinteger]
  | _ => simp [checkNumber]

/-- A range that is checked at its ends takes the naturals between them. -/
theorem checkNumber_between_iff {range : Binary64 → List Complaint} {low : Nat} {high? : Option Nat}
    (hrange : ∀ x, range x = [] ↔ x.below low = false ∧ ∀ high ∈ high?, x.above high = false) {v : Json} {n : Nat} :
    checkNumber range (some v) = .ok n ↔ ∃ x, v = .num x ∧ x.Denotes n ∧ low ≤ n ∧ ∀ high ∈ high?, n ≤ high := by
  have hnumber (x : Binary64) : (x.isInteger = true ∧ range x = [] ∧ x.toNat = n)
      ↔ x.Denotes n ∧ low ≤ n ∧ ∀ high ∈ high?, n ≤ high := by
    constructor
    · rintro ⟨hinteger, hends, hn⟩
      obtain ⟨hbelow, habove⟩ := (hrange x).mp hends
      obtain ⟨hdenotes, hlow⟩ := Binary64.whole_from_iff.mp ⟨hinteger, hbelow, hn⟩
      refine ⟨hdenotes, hlow, fun high hhigh => ?_⟩
      have hends := habove high hhigh
      rw [Binary64.above_of_denotes hdenotes, decide_eq_false_iff_not] at hends
      omega
    · rintro ⟨hdenotes, hlow, hhigh⟩
      obtain ⟨hinteger, hbelow, hn⟩ := Binary64.whole_from_iff.mpr ⟨hdenotes, hlow⟩
      refine ⟨hinteger, (hrange x).mpr ⟨hbelow, fun high hmem => ?_⟩, hn⟩
      have hle := hhigh high hmem
      rw [Binary64.above_of_denotes hdenotes, decide_eq_false_iff_not]
      omega
  rw [checkNumber_ok_iff]
  simp only [hnumber]

theorem checkPort_ok_iff {v : Json} {n : Nat} :
    checkNumber portRange (some v) = .ok n ↔ ∃ x, v = .num x ∧ x.Denotes n ∧ 1 ≤ n ∧ n ≤ 65535 := by
  have hrange (x : Binary64) : portRange x = [] ↔ x.below 1 = false ∧ ∀ high ∈ some 65535, x.above high = false := by
    simp [portRange]
  rw [checkNumber_between_iff hrange]
  simp

theorem checkTimeout_ok_iff {v : Json} {n : Nat} :
    checkNumber timeoutRange (some v) = .ok n ↔ ∃ x, v = .num x ∧ x.Denotes n ∧ n ≤ 2147483647 := by
  have hrange (x : Binary64) :
      timeoutRange x = [] ↔ x.below 0 = false ∧ ∀ high ∈ some 2147483647, x.above high = false := by
    cases hbelow : x.below 0 <;> cases habove : x.above 2147483647 <;> simp [timeoutRange, maxTimeoutMs, hbelow, habove]
  rw [checkNumber_between_iff hrange]
  simp

theorem checkMaxBytes_ok_iff {v : Json} {n : Nat} :
    checkNumber maxBytesRange (some v) = .ok n ↔ ∃ x, v = .num x ∧ x.Denotes n ∧ 1 ≤ n := by
  have hrange (x : Binary64) : maxBytesRange x = [] ↔ x.below 1 = false ∧ ∀ high ∈ none, x.above high = false := by
    simp [maxBytesRange]
  rw [checkNumber_between_iff hrange]
  simp

theorem ofName?_eq_some_iff {s : String} {l : Log.Level} : Log.Level.ofName? s = some l ↔ s = l.name := by
  rw [Log.Level.ofName?]
  constructor
  · intro h
    have hname := List.find?_some h
    simp only [beq_iff_eq] at hname
    exact hname.symm
  · rintro rfl
    cases l <;> rfl

theorem checkLevel_ok_iff {v : Json} {l : Log.Level} :
    Log.Level.check (some v) = .ok l ↔ ∃ s, v = .str s ∧ Text.toLower (Text.trim s) = l.name := by
  cases v with
  | str s =>
    simp only [← ofName?_eq_some_iff, Log.Level.check, Log.Level.ofText?, Json.str.injEq, exists_eq_left']
    cases Log.Level.ofName? (Text.toLower (Text.trim s)) <;> simp
  | _ => simp [Log.Level.check]

theorem map_ok_iff {ε α β : Type} {f : α → β} {x : Except ε α} {b : β} :
    x.map f = .ok b ↔ ∃ a, x = .ok a ∧ f a = b := by
  cases x <;> simp [Except.map]

theorem map_error_iff {ε α β : Type} {f : α → β} {x : Except ε α} {e : ε} : x.map f = .error e ↔ x = .error e := by
  cases x <;> simp [Except.map]

/-- The check of a field accepts what the field takes, and gives what it becomes. -/
theorem check_ok_iff {f : Field} {v : Json} {w : Value} : f.check (some v) = .ok w ↔ f.Takes v w := by
  cases f with
  | host =>
    simp only [Field.check, map_ok_iff, checkHost_ok_iff]
    constructor
    · rintro ⟨host, ⟨s, rfl, hs, rfl⟩, rfl⟩
      exact .host s hs
    · rintro ⟨s, hs⟩
      exact ⟨_, ⟨s, rfl, hs, rfl⟩, rfl⟩
  | port =>
    simp only [Field.check, map_ok_iff, checkPort_ok_iff]
    constructor
    · rintro ⟨n, ⟨x, rfl, hx, hlow, hhigh⟩, rfl⟩
      exact .port x n hx hlow hhigh
    · rintro (_ | ⟨x, n, hx, hlow, hhigh⟩)
      exact ⟨n, ⟨x, rfl, hx, hlow, hhigh⟩, rfl⟩
  | timeoutMs =>
    simp only [Field.check, map_ok_iff, checkTimeout_ok_iff]
    constructor
    · rintro ⟨n, ⟨x, rfl, hx, hhigh⟩, rfl⟩
      exact .timeoutMs x n hx hhigh
    · rintro (_ | _ | ⟨x, n, hx, hhigh⟩)
      exact ⟨n, ⟨x, rfl, hx, hhigh⟩, rfl⟩
  | maxResponseBytes =>
    simp only [Field.check, map_ok_iff, checkMaxBytes_ok_iff]
    constructor
    · rintro ⟨n, ⟨x, rfl, hx, hlow⟩, rfl⟩
      exact .maxResponseBytes x n hx hlow
    · rintro (_ | _ | _ | ⟨x, n, hx, hlow⟩)
      exact ⟨n, ⟨x, rfl, hx, hlow⟩, rfl⟩
  | logLevel =>
    simp only [Field.check, map_ok_iff, checkLevel_ok_iff]
    constructor
    · rintro ⟨l, ⟨s, rfl, hl⟩, rfl⟩
      exact .logLevel s l hl
    · rintro (_ | _ | _ | _ | ⟨s, l, hl⟩)
      exact ⟨l, ⟨s, rfl, hl⟩, rfl⟩

/-- A check that fails says why. -/
theorem check_ne_error_nil (f : Field) (v? : Option Json) : f.check v? ≠ .error [] := by
  have hnumber (range : Binary64 → List Complaint) : checkNumber range v? ≠ .error [] := by
    unfold checkNumber
    repeat' split
    all_goals simp_all
  have hhost : checkHost v? ≠ .error [] := by
    unfold checkHost
    repeat' split
    all_goals simp
  have hlevel : Log.Level.check v? ≠ .error [] := by
    unfold Log.Level.check
    repeat' split
    all_goals simp
  cases f with
  | host => exact fun h => hhost (map_error_iff.mp h)
  | port => exact fun h => hnumber _ (map_error_iff.mp h)
  | timeoutMs => exact fun h => hnumber _ (map_error_iff.mp h)
  | maxResponseBytes => exact fun h => hnumber _ (map_error_iff.mp h)
  | logLevel => exact fun h => hlevel (map_error_iff.mp h)

theorem takes_unique {f : Field} {v : Json} {w w' : Value} (h : f.Takes v w) (h' : f.Takes v w') : w = w' := by
  rw [← check_ok_iff] at h h'
  exact Except.ok.inj (h.symm.trans h')

section

variable {v : Json} {n : Nat}

theorem takes_host {host : String} (h : Field.Takes .host v (.text host)) :
    ∃ s, v = .str s ∧ (∃ c ∈ s.toList, Text.isBlank c = false) ∧ Text.trim s = host := by
  cases h with
  | host s hs => exact ⟨s, rfl, hs, rfl⟩

theorem takes_port (h : Field.Takes .port v (.number n)) : ∃ x, v = .num x ∧ x.Denotes n ∧ 1 ≤ n ∧ n ≤ 65535 := by
  cases h with
  | port x n hx hlow hhigh => exact ⟨x, rfl, hx, hlow, hhigh⟩

theorem takes_timeoutMs (h : Field.Takes .timeoutMs v (.number n)) :
    ∃ x, v = .num x ∧ x.Denotes n ∧ n ≤ 2147483647 := by
  cases h with
  | timeoutMs x n hx hhigh => exact ⟨x, rfl, hx, hhigh⟩

theorem takes_maxResponseBytes (h : Field.Takes .maxResponseBytes v (.number n)) :
    ∃ x, v = .num x ∧ x.Denotes n ∧ 1 ≤ n := by
  cases h with
  | maxResponseBytes x n hx hlow => exact ⟨x, rfl, hx, hlow⟩

end

theorem complaints_eq_nil_iff {f : Field} {v : Json} : f.complaints v = [] ↔ ∃ w, f.Takes v w := by
  simp only [← check_ok_iff, Field.complaints]
  cases h : f.check (some v) with
  | ok w => simp
  | error found =>
    have hfound : found ≠ [] := by
      rintro rfl
      exact check_ne_error_nil f (some v) h
    simp [hfound]

/-! ## (3) The environment -/

theorem meant?_some (s : String) : meant? (some s) = if Text.allBlank s then none else some (Text.trim s) := by
  cases h : Text.allBlank s with
  | true => simp [meant?, Text.trim_eq_empty_iff.mpr h]
  | false =>
    have hne : Text.trim s ≠ "" := by
      intro htrim
      rw [Text.trim_eq_empty_iff, h] at htrim
      cases htrim
    simp [meant?, hne]

theorem read_trim (s : String) : Number.Numeral.read (Text.trim s) = Number.Numeral.read s := by
  rw [Number.Numeral.read, Text.trim, String.toList_ofList, Text.trimChars_trimChars]
  rfl

theorem checkHost_trim (s : String) : checkHost (some (.str (Text.trim s))) = checkHost (some (.str s)) := by
  rw [checkHost, checkHost, Text.allBlank_trim, Text.trim_trim]

theorem checkLevel_trim (s : String) :
    Log.Level.check (some (.str (Text.trim s))) = Log.Level.check (some (.str s)) := by
  rw [Log.Level.check, Log.Level.check, Log.Level.ofText?, Log.Level.ofText?, Text.trim_trim]

/-- A setting that is read as a number. -/
theorem num_numberOr (fallback : Nat) (raw : Option String) :
    Json.num (numberOr fallback raw) = match raw with
      | some s => if Text.allBlank s then .ofNat fallback else .num (Number.Numeral.read s)
      | none => .ofNat fallback := by
  cases raw with
  | none => rfl
  | some s =>
    simp only [numberOr, meant?_some]
    by_cases h : Text.allBlank s = true
    · rw [if_pos h, if_pos h]
      rfl
    · rw [if_neg h, if_neg h]
      exact congrArg Json.num (read_trim s)

/-- A setting that stays a text, under a check that does not mind padding. -/
theorem check_getD_meant? {α : Type} {check : Option Json → Checked α}
    (htrim : ∀ s, check (some (.str (Text.trim s))) = check (some (.str s))) (fallback : String) (raw : Option String) :
    check (some (.str ((meant? raw).getD fallback))) = check (some (match raw with
      | some s => if Text.allBlank s then .str fallback else .str s
      | none => .str fallback)) := by
  cases raw with
  | none => rfl
  | some s =>
    simp only [meant?_some]
    by_cases h : Text.allBlank s = true
    · rw [if_pos h, if_pos h]
      rfl
    · rw [if_neg h, if_neg h]
      exact htrim s

theorem check_ambient (f : Field) (e : Environment) :
    f.check (some ((Settings.ofEnvironment e).value f)) = f.check (some (f.ambient e)) := by
  cases f with
  | host => exact congrArg (Except.map Value.text) (check_getD_meant? checkHost_trim _ e.host)
  | port => exact congrArg (fun v => Field.check .port (some v)) (num_numberOr _ e.port)
  | timeoutMs => exact congrArg (fun v => Field.check .timeoutMs (some v)) (num_numberOr _ e.timeoutMs)
  | maxResponseBytes =>
    exact congrArg (fun v => Field.check .maxResponseBytes (some v)) (num_numberOr _ e.maxResponseBytes)
  | logLevel =>
    have hlevel := check_getD_meant? checkLevel_trim Log.Level.info.name e.logLevel
    simp only [Field.check, Settings.value, Settings.ofEnvironment, hlevel]
    rfl

theorem field?_overlay (settings : Settings) (overrides : Raw) (f : Field) :
    (settings.overlay overrides).field? f = some ((overrides.field? f).getD (settings.value f)) := by
  have horElse (override? : Option Json) (v : Json) : (override? <|> some v) = some (override?.getD v) := by
    cases override? <;> rfl
  cases f <;> exact horElse _ _

/-- What is checked of a field is its raw value. -/
theorem check_overlay (f : Field) (overrides : Raw) (e : Environment) :
    f.check (((Settings.ofEnvironment e).overlay overrides).field? f)
      = f.check (some (f.effective (overrides.field? f) e)) := by
  rw [field?_overlay, Field.effective]
  cases overrides.field? f with
  | some v => rfl
  | none => exact check_ambient f e

/-! ## (4) The configuration -/

theorem ofRaw_ok_iff {r : Raw} {c : Config} :
    Config.ofRaw r = .ok c ↔ ∀ f : Field, f.check (r.field? f) = .ok (c.value f) := by
  constructor
  · intro h f
    simp only [Config.ofRaw] at h
    split at h
    · rename_i host port timeoutMs maxResponseBytes logLevel hhost hport htimeout hbytes hlevel
      cases h
      cases f with
      | host => exact map_ok_iff.mpr ⟨host, hhost, rfl⟩
      | port => exact map_ok_iff.mpr ⟨port, hport, rfl⟩
      | timeoutMs => exact map_ok_iff.mpr ⟨timeoutMs, htimeout, rfl⟩
      | maxResponseBytes => exact map_ok_iff.mpr ⟨maxResponseBytes, hbytes, rfl⟩
      | logLevel => exact map_ok_iff.mpr ⟨logLevel, hlevel, rfl⟩
    · cases h
  · intro h
    obtain ⟨_, hhost, ⟨⟩⟩ := map_ok_iff.mp (h .host)
    obtain ⟨_, hport, ⟨⟩⟩ := map_ok_iff.mp (h .port)
    obtain ⟨_, htimeout, ⟨⟩⟩ := map_ok_iff.mp (h .timeoutMs)
    obtain ⟨_, hbytes, ⟨⟩⟩ := map_ok_iff.mp (h .maxResponseBytes)
    obtain ⟨_, hlevel, ⟨⟩⟩ := map_ok_iff.mp (h .logLevel)
    simp only [Raw.field?] at hhost hport htimeout hbytes hlevel
    simp only [Config.ofRaw, hhost, hport, htimeout, hbytes, hlevel]

theorem issues_map {α β : Type} (name : String) (g : α → β) (x : Checked α) :
    Checked.issues name (x.map g) = x.issues name := by
  cases x <;> rfl

/-- The issues of all fields together, in their order. -/
theorem ofRaw_error {r : Raw} (h : ¬∃ c, Config.ofRaw r = .ok c) :
    Config.ofRaw r = .error (Field.all.flatMap fun f => (f.check (r.field? f)).issues f.name) := by
  simp only [Config.ofRaw] at h ⊢
  split at h
  · exact absurd ⟨_, rfl⟩ h
  · simp [Field.all, Field.check, Field.name, Raw.field?, issues_map]

theorem load_ok_iff {overrides : Raw} {e : Environment} {c : Config} :
    Config.load overrides e = .ok c ↔ ∀ f : Field, f.Takes (f.effective (overrides.field? f) e) (c.value f) := by
  have hload : Config.load overrides e = .ok c
      ↔ Config.ofRaw ((Settings.ofEnvironment e).overlay overrides) = .ok c := by
    rw [Config.load]
    cases Config.ofRaw ((Settings.ofEnvironment e).overlay overrides) <;> simp [Except.mapError]
  rw [hload, ofRaw_ok_iff]
  simp only [check_overlay, check_ok_iff]

/-- What a field is told of its complaints. -/
def Field.texts (f : Field) (v : Json) : List String := (f.complaints v).map fun c => f.name ++ ": " ++ c.text

theorem load_error {overrides : Raw} {e : Environment} (h : ¬∃ c, Config.load overrides e = .ok c) :
    Config.load overrides e
      = .error (.config (Field.all.flatMap fun f => f.texts (f.effective (overrides.field? f) e))) := by
  have hraw : ¬∃ c, Config.ofRaw ((Settings.ofEnvironment e).overlay overrides) = .ok c := by
    rintro ⟨c, hc⟩
    exact h ⟨c, by rw [Config.load, hc]; rfl⟩
  have htexts (f : Field) : (((f.check (some (f.effective (overrides.field? f) e))).issues f.name).map Issue.text)
      = f.texts (f.effective (overrides.field? f) e) := by
    rw [Field.texts, Field.complaints]
    cases f.check (some (f.effective (overrides.field? f) e)) with
    | ok w => rfl
    | error found => simp [Checked.issues, Issue.text, Text.join]
  calc Config.load overrides e
      = .error (.ofIssues (Field.all.flatMap fun f =>
          (f.check (some (f.effective (overrides.field? f) e))).issues f.name)) := by
        rw [Config.load, ofRaw_error hraw]
        simp only [check_overlay]
        rfl
    _ = .error (.config (Field.all.flatMap fun f => f.texts (f.effective (overrides.field? f) e))) := by
        simp only [Fault.ofIssues, List.map_flatMap, htexts]

/-- Values that the fields take are those of a configuration. -/
theorem exists_config {w : Field → Value} (h : ∀ f : Field, ∃ v, f.Takes v (w f)) :
    ∃ c : Config, ∀ f, c.value f = w f := by
  have htext {f : Field} (hf : f = .host) : ∃ s, w f = .text s := by
    obtain ⟨v, hv⟩ := h f
    subst hf
    generalize w .host = x at hv
    cases hv
    exact ⟨_, rfl⟩
  have hnumber {f : Field} (hf : f ∈ [.port, .timeoutMs, .maxResponseBytes]) : ∃ n, w f = .number n := by
    obtain ⟨v, hv⟩ := h f
    simp only [List.mem_cons, List.not_mem_nil, or_false] at hf
    generalize w f = x at hv
    cases hv <;> simp at hf ⊢
  have hlevel : ∃ l, w .logLevel = .level l := by
    obtain ⟨v, hv⟩ := h .logLevel
    generalize w .logLevel = x at hv
    cases hv
    exact ⟨_, rfl⟩
  obtain ⟨host, hhost⟩ := htext rfl
  obtain ⟨port, hport⟩ := hnumber (f := .port) (by decide)
  obtain ⟨timeoutMs, htimeout⟩ := hnumber (f := .timeoutMs) (by decide)
  obtain ⟨maxResponseBytes, hbytes⟩ := hnumber (f := .maxResponseBytes) (by decide)
  obtain ⟨logLevel, hl⟩ := hlevel
  refine ⟨⟨host, port, timeoutMs, maxResponseBytes, logLevel⟩, fun f => ?_⟩
  cases f with
  | host => exact hhost.symm
  | port => exact hport.symm
  | timeoutMs => exact htimeout.symm
  | maxResponseBytes => exact hbytes.symm
  | logLevel => exact hl.symm

theorem load_ok_exists_iff {overrides : Raw} {e : Environment} :
    (∃ c, Config.load overrides e = .ok c) ↔ ∀ f : Field, ∃ w, f.Takes (f.effective (overrides.field? f) e) w := by
  constructor
  · rintro ⟨c, hc⟩ f
    exact ⟨c.value f, load_ok_iff.mp hc f⟩
  · intro h
    choose w hw using h
    obtain ⟨c, hc⟩ := exists_config fun f => ⟨_, hw f⟩
    refine ⟨c, load_ok_iff.mpr fun f => ?_⟩
    rw [hc f]
    exact hw f

/-- The raw values of the fields decide what is loaded, and what is wrong with it. -/
theorem load_congr {overrides overrides' : Raw} {e e' : Environment}
    (h : ∀ f : Field, f.effective (overrides.field? f) e = f.effective (overrides'.field? f) e') :
    Config.load overrides e = Config.load overrides' e' := by
  by_cases hok : ∃ c, Config.load overrides e = .ok c
  · obtain ⟨c, hc⟩ := hok
    have hc' : Config.load overrides' e' = .ok c := by
      rw [load_ok_iff] at hc ⊢
      intro f
      rw [← h f]
      exact hc f
    rw [hc, hc']
  · have hok' : ¬∃ c, Config.load overrides' e' = .ok c := by
      rw [load_ok_exists_iff] at hok ⊢
      simpa only [h] using hok
    rw [load_error hok, load_error hok']
    simp only [h]

/-! ## (5) The sources -/

/-- Where a configuration comes from: the members of the overrides, the names among them that
    are unset again, and the environment. -/
structure Sources where
  members : Keyed Json
  unset : List String
  environment : Environment

namespace Sources

def load (s : Sources) : Except Fault Config := Config.load (.ofMembers (Keyed.without s.members s.unset)) s.environment

/-- The override of a field: a member that is not unset. -/
def override? (s : Sources) (f : Field) : Option Json :=
  if f.name ∈ s.unset then none else Keyed.get? s.members f.name

def effective (s : Sources) (f : Field) : Json := f.effective (s.override? f) s.environment

end Sources

theorem field?_without (s : Sources) (f : Field) :
    (Raw.ofMembers (Keyed.without s.members s.unset)).field? f = s.override? f := by
  cases f <;> exact Keyed.get?_without _ _ _

/-- A configuration is resolved and checked field by field. It loads exactly when every field has
    a raw value that it takes, and then each field is what its own raw value becomes; so it is the
    same for all sources that agree on that value. Otherwise the error lists the complaints of the
    fields in their order, each of its own raw value; a field without a complaint is a field that
    takes its value. -/
theorem each_field_for_itself (s : Sources) :
    (∀ c, s.load = .ok c ↔ ∀ f : Field, f.Takes (s.effective f) (c.value f)) ∧
    ((∃ c, s.load = .ok c) ↔ ∀ f : Field, ∃ w, f.Takes (s.effective f) w) ∧
    (∀ (s' : Sources) (c c' : Config), s.load = .ok c → s'.load = .ok c' →
      ∀ f : Field, s.effective f = s'.effective f → c.value f = c'.value f) ∧
    ((¬∃ c, s.load = .ok c) → s.load = .error (.config
      ([.host, .port, .timeoutMs, .maxResponseBytes, .logLevel].flatMap fun f : Field =>
        (f.complaints (s.effective f)).map fun c => f.name ++ ": " ++ c.text))) ∧
    (∀ (f : Field) v, f.complaints v = [] ↔ ∃ w, f.Takes v w) := by
  have hok (s : Sources) (c : Config) : s.load = .ok c ↔ ∀ f : Field, f.Takes (s.effective f) (c.value f) := by
    rw [Sources.load, load_ok_iff]
    simp only [field?_without]
    rfl
  refine ⟨hok s, ?_, ?_, ?_, fun f v => complaints_eq_nil_iff⟩
  · rw [Sources.load, load_ok_exists_iff]
    simp only [field?_without]
    rfl
  · intro s' c c' hc hc' f hsame
    have htakes : f.Takes (s.effective f) (c.value f) := (hok s c).mp hc f
    have htakes' : f.Takes (s'.effective f) (c'.value f) := (hok s' c').mp hc' f
    rw [hsame] at htakes
    exact takes_unique htakes htakes'
  · intro h
    rw [Sources.load, load_error h]
    simp only [field?_without]
    rfl

/-- Three fields with something wrong: a `null` override, an override out of range, and a text of
    the environment behind an override that is unset. The blank variable and the extra member
    have no say. -/
theorem three_fields_complain :
    let s : Sources := ⟨[("host", .null), ("port", .ofNat 70000), ("timeoutMs", .ofNat 5), ("color", .str "red")],
      ["timeoutMs"], { timeoutMs := some "soon", maxResponseBytes := some " 0x10 ", logLevel := some " " }⟩
    (¬∃ c, s.load = .ok c) ∧ s.load = .error (.config ["host: Expected string, received null",
      "port: Port must be between 1 and 65535", "timeoutMs: Expected number, received nan"]) := by
  intro s
  obtain ⟨-, hsome, -, herror, -⟩ := each_field_for_itself s
  have hnone : ¬∃ c, s.load = .ok c := by
    intro h
    obtain ⟨w, hw⟩ := hsome.mp h .host
    cases hw
  refine ⟨hnone, (herror hnone).trans (congrArg (fun texts => Except.error (Fault.config texts)) ?_)⟩
  decide +kernel

end Client

end CheckpointRelay
