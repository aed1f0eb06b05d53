/-
  CheckpointRelay.Proofs.Client.FixedPoint — a configuration that is loaded again.

  What a field becomes is a raw value itself (`Value.raw`), and all five of them are there, so a
  configuration that is given as overrides leaves nothing to the environment. It comes back as it
  was if each field takes what it has become (`takes_again`): there is no padding left to trim, a
  level is named as it is spelled, and a natural that some number denoted is rounded to nothing
  else when it is written as a number again.
  - `takes_again`: one field.
  - `DoubleSources`: sources that carry that their numbers are doubles.
  - `load_again`: all of them, under any environment.
  - `loaded_config_loads_again`: a configuration from any sources, checked, loaded and used.
-/

import CheckpointRelay.Proofs.Client.Fields
import CheckpointRelay.Proofs.Json.Reading
import CheckpointRelay.Proofs.Number.Rounding

namespace CheckpointRelay.Client

open Number (Binary64)

/-! ## (1) Fields -/

/-- What a field has become, as a raw value. -/
def Value.raw : Value → Json
  | .text s => .str s
  | .number n => .ofNat n
  | .level l => .str l.name

/-- A configuration as the members of an object. -/
def Config.members (c : Config) : Keyed Json := Field.all.map fun f => (f.name, (c.value f).raw)

/-- What a field has become is taken as it is. -/
theorem takes_again {f : Field} {v : Json} {w : Value} (h : f.Takes v w) (hdoubles : v.NumbersAre Binary64.IsDouble) :
    f.Takes w.raw w := by
  cases h with
  | host s hs =>
    rw [← Text.allBlank_eq_false_iff, ← Text.allBlank_trim, Text.allBlank_eq_false_iff] at hs
    have hagain := Field.Takes.host (Text.trim s) hs
    rwa [Text.trim_trim] at hagain
  | port x n hx hlow hhigh => exact .port _ n (Binary64.denotes_ofNat_small (by omega)) hlow hhigh
  | timeoutMs x n hx hhigh => exact .timeoutMs _ n (Binary64.denotes_ofNat_small (by omega)) hhigh
  | maxResponseBytes x n hx hlow => exact .maxResponseBytes _ n (Binary64.denotes_again hdoubles hx) hlow
  | logLevel s l hl =>
    refine .logLevel l.name l ?_
    cases l <;> decide

/-! ## (2) The environment -/

theorem field?_members (c : Config) (f : Field) : (Raw.ofMembers c.members).field? f = some (c.value f).raw := by
  cases f <;> rfl

/-- With every field overridden the environment has no say. -/
theorem load_members_iff {c c' : Config} {e : Environment} :
    Config.load (.ofMembers c.members) e = .ok c' ↔ ∀ f : Field, f.Takes (c.value f).raw (c'.value f) := by
  rw [load_ok_iff]
  simp only [field?_members]
  rfl

/-- Sources whose numbers are doubles, as those of every text are. -/
structure DoubleSources extends Sources where
  doubles : (Json.obj members).NumbersAre Binary64.IsDouble

variable {s : DoubleSources} {c : Config}

/-- What the environment and the defaults hold are doubles. -/
theorem ambient_doubles (f : Field) (e : Environment) : (f.ambient e).NumbersAre Binary64.IsDouble := by
  have hdefault : f.default.NumbersAre Binary64.IsDouble := by
    cases f with
    | host | logLevel => trivial
    | port => exact Binary64.isDouble_ofNat 8080
    | timeoutMs => exact Binary64.isDouble_ofNat 0
    | maxResponseBytes => exact Binary64.isDouble_ofNat 1024
  have htext (text : String) : (f.ofText text).NumbersAre Binary64.IsDouble := by
    cases f with
    | host | logLevel => trivial
    | port | timeoutMs | maxResponseBytes => exact Number.Numeral.isDouble_read text
  unfold Field.ambient
  split
  · split
    · exact hdefault
    · exact htext _
  · exact hdefault

theorem effective_doubles (s : DoubleSources) (f : Field) : (s.effective f).NumbersAre Binary64.IsDouble := by
  unfold Sources.effective Sources.override?
  split
  · exact ambient_doubles f s.environment
  · cases hfound : Keyed.get? s.members f.name with
    | none => exact ambient_doubles f s.environment
    | some v => exact Json.memberNumbersAre_iff.mp s.doubles _ (Json.mem_of_get? hfound)

theorem takes_of_load (h : s.load = .ok c) (f : Field) : f.Takes (s.effective f) (c.value f) := by
  have htakes := load_ok_iff.mp h f
  rw [field?_without] at htakes
  exact htakes

/-- A configuration that was loaded is loaded again as it is, under any environment. -/
theorem load_again (h : s.load = .ok c) (e : Environment) : Config.load (.ofMembers c.members) e = .ok c :=
  load_members_iff.mpr fun f => takes_again (takes_of_load h f) (effective_doubles s f)

/-! ## (3) The whole configuration -/

/-- A configuration that was loaded from any environment and any overrides: given as overrides it
    loads under every environment and is what it was, its check finds nothing wrong with it, and a
    client that is made of it has its address and its configuration. -/
theorem loaded_config_loads_again {s : DoubleSources} {c : Config} (h : s.load = .ok c) :
    (∀ e, Config.load (.ofMembers c.members) e = .ok c) ∧
    Config.validate (.obj c.members) = .ok c ∧
    (∀ e, ((Raw.ofJson (.obj c.members)).bind fun overrides => Config.load overrides e).map
      (fun client => (client.address, client)) = .ok (c.address, c)) := by
  have hload (e : Environment) : Config.load (.ofMembers c.members) e = .ok c := load_again h e
  refine ⟨hload, ?_, fun e => ?_⟩
  · refine ofRaw_ok_iff.mpr fun f => ?_
    rw [field?_members, check_ok_iff]
    exact takes_again (takes_of_load h f) (effective_doubles s f)
  · show (Config.load (.ofMembers c.members) e).map _ = _
    rw [hload]
    rfl

/-- Every field was padded, spelled or rounded, and comes back as what was made of it. -/
theorem a_rounded_config_loads_again :
    let s : DoubleSources :=
      { members := [("host", .str " relay\n"), ("timeoutMs", .num (.zero true)), ("color", .null)]
        unset := []
        environment :=
          { port := some "\t0x1F90 ", maxResponseBytes := some "9007199254740993", logLevel := some " Warn" }
        doubles := ⟨trivial, Binary64.isDouble_zero true, trivial, trivial⟩ }
    let c : Config := ⟨"relay", 8080, 0, 9007199254740992, .warn⟩
    s.load = .ok c ∧ ∀ e, Config.load (.ofMembers c.members) e = .ok c := by
  intro s c
  have hload : s.load = .ok c := by
    refine load_ok_iff.mpr fun f => check_ok_iff.mp ?_
    cases f <;> decide +kernel
  exact ⟨hload, (loaded_config_loads_again hload).1⟩

end CheckpointRelay.Client
