/-
  CheckpointRelay.Proofs.Log.Tails — the tail of a line decodes to what was logged.

  A line ends in a tail if there is an error or metadata that are no context. It is the text of an
  object: the error, with its name and message and, if it has them, its stack and its code, and the
  metadata as they were given. The lead is free text, so a reader has to find where the tail
  begins: unless the lead has a blank before a brace of its own, that is the first one.
  - `tail_eq`: the tail as the text of an object.
  - `fromBrace?_append`: where the tail begins.
  - `read?_tailMembers`: reading it.
  - `tails_decode_to_what_was_logged`: all of it.
-/

import CheckpointRelay.Proofs.Json.Order
import CheckpointRelay.Proofs.Json.PlainText
import CheckpointRelay.Proofs.Json.Rereading
import CheckpointRelay.Proofs.Log.Lines

namespace CheckpointRelay

/-! ## (1) Objects as texts -/

namespace Json

theorem intercalate_comma (part : List Char) (parts : List (List Char)) :
    [','].intercalate (part :: parts) = part ++ parts.flatMap (',' :: ·) := by
  induction parts generalizing part with
  | nil => simp
  | cons next parts ih => rw [List.intercalate_cons_cons, ih]; simp

theorem renderMembers_eq (members : List (String × Json)) :
    renderMembers members = (members.map fun m => quote m.1 ++ ':' :: m.2.render).flatMap (',' :: ·) ++ ['}'] := by
  induction members with
  | nil => rfl
  | cons m ms ih =>
    rw [renderMembers, ih]
    simp

/-- The text of an object are its members with commas between them. -/
theorem render_obj (members : List (String × Json)) : (Json.obj members).render
    = '{' :: ([','].intercalate (members.map fun m => quote m.1 ++ ':' :: m.2.render) ++ ['}']) := by
  cases members with
  | nil => rfl
  | cons m ms =>
    rw [render, renderMembers_eq, List.map_cons, intercalate_comma]
    simp

end Json

namespace Log

/-! ## (2) Lead and tail -/

theorem get?_ofMembers (ms : Keyed Json) (key : String) :
    Keyed.get? (Metadata.ofMembers ms) key = (Keyed.get? ms key).map .json := by
  induction ms with
  | nil => rfl
  | cons m ms ih =>
    obtain ⟨name, v⟩ := m
    simp only [Keyed.get?, Metadata.ofMembers, List.map_cons, List.lookup_cons] at ih ⊢
    cases key == name with
    | true => rfl
    | false => exact ih

/-- The parts of the context: the client and the correlation if they are texts that are not empty,
    and the duration if it is a number. -/
def contextOf (ms : Keyed Json) : List String :=
  (match Keyed.get? ms "clientId" with
    | some (.str s) => if s = "" then [] else ["client=" ++ s]
    | _ => []) ++
  (match Keyed.get? ms "correlationId" with
    | some (.str s) => if s = "" then [] else ["corr=" ++ s]
    | _ => []) ++
  match Keyed.get? ms "duration" with
    | some (.num x) => ["duration=" ++ x.text ++ "ms"]
    | _ => []

theorem context_eq {r : Record} {ms : Keyed Json} (h : r.metadata = .ofMembers ms) : r.context = contextOf ms := by
  have htext (key label : String) : ((textEntry (Metadata.ofMembers ms) key).map (label ++ ·)).toList
      = match Keyed.get? ms key with
        | some (.str s) => if s = "" then [] else [label ++ s]
        | _ => [] := by
    rw [textEntry, get?_ofMembers]
    cases Keyed.get? ms key with
    | none => rfl
    | some v =>
      cases v with
      | str s =>
        simp only [Option.map_some, Option.bind_some, Datum.text?, nonEmpty]
        split <;> rfl
      | _ => rfl
  have hduration : (((Keyed.get? (Metadata.ofMembers ms) "duration").bind Datum.numberText?).map
      fun d => "duration=" ++ d ++ "ms").toList = match Keyed.get? ms "duration" with
        | some (.num x) => ["duration=" ++ x.text ++ "ms"]
        | _ => [] := by
    rw [get?_ofMembers]
    cases Keyed.get? ms "duration" with
    | none => rfl
    | some v => cases v <;> rfl
  simp only [Record.context, h, htext, hduration, contextOf]

/-- The members of a tail. -/
def tailMembers (error : Option Json) (rest : Keyed Json) : Keyed Json :=
  (error.map fun v => ("error", v)).toList ++ if rest = [] then [] else [("meta", .obj rest)]

theorem without_ofMembers (ms : Keyed Json) (keys : List String) :
    Keyed.without (Metadata.ofMembers ms) keys = Metadata.ofMembers (Keyed.without ms keys) := List.filter_map

theorem render_ofMembers (ms : Keyed Json) : (Metadata.ofMembers ms).render = (Json.obj ms).render := by
  rw [Json.render_obj, Metadata.render, Metadata.ofMembers, List.map_map]
  rfl

/-- The tail of a record with the metadata of an object. -/
theorem tail_eq {r : Record} {ms : Keyed Json} (h : r.metadata = .ofMembers ms) :
    let members := tailMembers r.error (Keyed.without ms ["duration", "correlationId", "clientId"])
    r.tail = if members = [] then "" else " " ++ (Json.obj members).text := by
  intro members
  have hparts : r.tailParts = members.map fun m => Json.quote m.1 ++ ':' :: m.2.render := by
    have hrest : r.rest = Metadata.ofMembers (Keyed.without ms ["duration", "correlationId", "clientId"]) := by
      rw [Record.rest, h, without_ofMembers]
    simp only [Record.tailParts, hrest, render_ofMembers, members, tailMembers]
    cases r.error <;> cases Keyed.without ms ["duration", "correlationId", "clientId"] <;> rfl
  rw [Record.tail, hparts, Json.text, Json.render_obj]
  cases members <;> rfl

/-! ## (3) Where it begins -/

/-- What stands behind the first blank that a brace follows. -/
def fromBrace? : List Char → Option (List Char)
  | [] => none
  | [_] => none
  | c :: d :: cs => if c = ' ' ∧ d = '{' then some (d :: cs) else fromBrace? (d :: cs)

/-- If there is none in the lead, it is the one between lead and tail. -/
theorem fromBrace?_append {lead : List Char} (h : ¬[' ', '{'] <:+: lead) (cs : List Char) :
    fromBrace? (lead ++ ' ' :: '{' :: cs) = some ('{' :: cs) := by
  induction lead with
  | nil => rfl
  | cons c lead ih =>
    have hrest : ¬[' ', '{'] <:+: lead := fun hfound => h (List.infix_cons_iff.mpr (Or.inr hfound))
    cases lead with
    | nil =>
      rw [List.singleton_append, fromBrace?, if_neg (by simp)]
      rfl
    | cons d lead =>
      have hfirst : ¬(c = ' ' ∧ d = '{') := by
        rintro ⟨rfl, rfl⟩
        exact h (List.prefix_append [' ', '{'] lead).isInfix
      rw [List.cons_append, List.cons_append, fromBrace?, if_neg hfirst]
      exact ih hrest

/-! ## (4) What it holds -/

/-- The code of an error as a text, if it is a text or a number. -/
def codeText : Option Json → Option String
  | some (.str s) => some s
  | some (.num x) => some x.text
  | _ => none

/-- What is logged of what was thrown, if anything was: of an error its name and message and, if it
    has them, its stack and its code; of any other value the text of it. -/
inductive Logged : Option Thrown → Option Json → Prop
  | nothing : Logged none none
  | error (e : Raised) : Logged (some (.error e)) (some (.obj ([("name", .str e.name), ("message", .str e.message)]
      ++ (e.stack.map fun s => ("stack", .str s)).toList ++ ((codeText e.code).map fun s => ("code", .str s)).toList)))
  | value (v : Json) (s : String) : Json.HasText v s →
      Logged (some (.value v)) (some (.obj [("name", .str "Error"), ("message", .str s)]))

theorem thrownInfo?_error (e : Raised) : thrownInfo? (.error e)
    = some (.obj ([("name", .str e.name), ("message", .str e.message)]
      ++ (e.stack.map fun s => ("stack", .str s)).toList
      ++ ((codeText e.code).map fun s => ("code", .str s)).toList)) := by
  have hcode : ((e.code.bind Fault.codeOf?).bind Json.plain?) = codeText e.code := by
    cases e.code with
    | none => rfl
    | some v => cases v <;> rfl
  simp only [thrownInfo?, errorInfo, hcode]
  cases codeText e.code <;> rfl

theorem thrownInfo?_value {v : Json} {s : String} (h : Json.HasText v s) :
    thrownInfo? (.value v) = some (.obj [("name", .str "Error"), ("message", .str s)]) := by
  rw [thrownInfo?, Json.plain?_of_hasText h]
  rfl

variable {thrown : Option Thrown} {info : Option Json} {rest : Keyed Json}

theorem Logged.isSome (h : Logged thrown info) : info ≠ none ↔ thrown ≠ none := by
  cases h <;> simp

/-- Members that are all texts, of names in order. -/
theorem texts_plain (names : List String) {members : Keyed Json} (hnames : (members.map (·.1)).Sublist names)
    (horder : names.Pairwise Keyed.Before) (htexts : ∀ m ∈ members, ∃ s, m.2 = .str s) :
    (Json.obj members).numberFree = true ∧ (Json.obj members).InOrder := by
  refine ⟨Json.numberFreeMembers_iff.mpr fun m hm => ?_, horder.sublist hnames,
    Json.membersInOrder_iff.mpr fun m hm => ?_⟩
  · obtain ⟨s, hs⟩ := htexts m hm
    rw [hs]
    rfl
  · obtain ⟨s, hs⟩ := htexts m hm
    rw [hs]
    trivial

/-- What is logged of an error holds no numbers, and its members are in order. -/
theorem Logged.plain (h : Logged thrown info) : ∀ v ∈ info, v.numberFree = true ∧ v.InOrder := by
  cases h with
  | nothing => nofun
  | error e =>
    intro v hv
    cases hv
    refine texts_plain ["name", "message", "stack", "code"] ?_ (by decide) ?_
    · cases e.stack <;> cases codeText e.code <;> simp
    · cases e.stack <;> cases codeText e.code <;> simp
  | value v s hs =>
    intro v hv
    cases hv
    exact texts_plain ["name", "message"] (List.Sublist.refl _) (by decide) (by simp)

theorem tailMembers_ne_nil : tailMembers info rest ≠ [] ↔ info ≠ none ∨ rest ≠ [] := by
  cases info <;> cases rest <;> simp [tailMembers]

/-- The tail is read as the object that it is the text of. -/
theorem read?_tailMembers (hinfo : ∀ v ∈ info, v.numberFree = true ∧ v.InOrder) (rest : Json.Members)
    (hnumbers : rest.object.value.numberFree = true) :
    Json.read? (Json.obj (tailMembers info rest.list)).text = some (.obj (tailMembers info rest.list)) := by
  have hmember (m : String × Json) (hm : m ∈ tailMembers info rest.list) : m.2.numberFree = true ∧ m.2.InOrder := by
    rcases List.mem_append.mp hm with hm | hm
    · obtain ⟨v, hv, rfl⟩ := Option.map_eq_some_iff.mp (Option.mem_toList.mp hm)
      exact hinfo v hv
    · split at hm
      · cases hm
      · rw [List.mem_singleton.mp hm]
        exact ⟨hnumbers, rest.inOrder⟩
  have hnames : Keyed.InOrder (tailMembers info rest.list) := by
    have hboth : ["error", "meta"].Pairwise Keyed.Before := by decide
    refine hboth.sublist ?_
    cases info <;> cases rest.list <;> simp [tailMembers]
  let members : Json.Members :=
    ⟨tailMembers info rest.list, hnames, Json.membersInOrder_iff.mpr fun m hm => (hmember m hm).2⟩
  have hfree : members.object.value.numberFree = true :=
    Json.numberFreeMembers_iff.mpr fun m hm => (hmember m hm).1
  exact members.object.read_text hfree

/-- Behind the first blank before a brace stands the object of the tail. -/
theorem read_line {lead : String} (hlead : ¬[' ', '{'] <:+: lead.toList) {members : Keyed Json}
    (hread : Json.read? (Json.obj members).text = some (.obj members)) :
    ∃ cs, fromBrace? (lead ++ (" " ++ (Json.obj members).text)).toList = some cs ∧
      Json.read? (String.ofList cs) = some (.obj members) := by
  obtain ⟨cs, hcs⟩ : ∃ cs, (Json.obj members).text.toList = '{' :: cs := by
    rw [Json.text, String.toList_ofList, Json.render_obj]
    exact ⟨_, rfl⟩
  refine ⟨(Json.obj members).text.toList, ?_, ?_⟩
  · rw [String.toList_append, String.toList_append, hcs]
    exact fromBrace?_append hlead cs
  · rw [String.ofList_toList]
    exact hread

/-! ## (5) The calls -/

/-- The calls that log a message with the members of an object, and perhaps what was thrown. -/
inductive Step.Logs : Step → Level → String → Option Thrown → Keyed Json → Prop
  | say (level : Level) (message : String) (ms : Keyed Json) :
      Logs (.say level message (.ofMembers ms)) level message none ms
  | fail (message : String) (thrown : Option Thrown) (ms : Keyed Json) :
      Logs (.fail message thrown (.ofMembers ms)) .error message thrown ms

theorem step_logs {s : Session} {e : Step} {level : Level} {message : String} {ms : Keyed Json}
    (hlogs : e.Logs level message thrown ms) (h : Logged thrown info) :
    s.step e = .ok (s, [⟨s.now, level, message, .ofMembers ms, info⟩]) := by
  cases hlogs with
  | say level message ms =>
    cases h
    rfl
  | fail message thrown ms =>
    cases h with
    | nothing => rfl
    | error e => rw [Session.step, thrownInfo?_error]
    | value v s hs => rw [Session.step, thrownInfo?_value hs]

/-- Something is logged of whatever was thrown, unless no text can be made of it. -/
theorem logged_or_textless (thrown : Option Thrown) :
    (∃ info, Logged thrown info) ∨ ∃ v, thrown = some (.value v) ∧ v.Textless := by
  match thrown with
  | none => exact Or.inl ⟨none, .nothing⟩
  | some (.error e) => exact Or.inl ⟨_, .error e⟩
  | some (.value v) =>
    cases htext : v.plain? with
    | none => exact Or.inr ⟨v, rfl, Json.plain?_eq_none_iff.mp htext⟩
    | some s => exact Or.inl ⟨_, .value v s (Json.plain?_eq_some_iff.mp htext)⟩

theorem call_textless {l : Logger} {s : Session} {e : Step} {level : Level} {message : String} {ms : Keyed Json}
    (hlogs : e.Logs level message thrown ms) {v : Json} (hthrown : thrown = some (.value v)) (h : v.Textless) :
    (s.call l e).2 = .error .noPlainText := by
  subst hthrown
  cases hlogs with
  | fail message _ ms =>
    have hinfo : thrownInfo? (.value v) = none := by
      rw [thrownInfo?, Json.plain?_of_textless h]
      rfl
    rw [Session.call, Session.step, hinfo]

/-- A call of a level that the logger shows, with any message, what was thrown, and the members of
    an object of which those that are no context hold no numbers. If there is no text of what was
    thrown, or the instant has no date, it fails and writes nothing. Otherwise it writes one line,
    a lead and behind it, if there is an error or a member that is no context, a tail. Unless the
    lead has a blank before a brace, what stands behind the first such blank is read as the object
    of the error and of those members, just as they were given. -/
theorem tails_decode_to_what_was_logged {l : Logger} {s : Session} {e : Step} {level : Level} {message : String}
    {thrown : Option Thrown} {ms : Json.Members} (hlogs : e.Logs level message thrown ms.list)
    (henabled : l.enables level = true)
    (hnumbers : (ms.without ["duration", "correlationId", "clientId"]).object.value.numberFree = true) :
    ((∃ v, thrown = some (.value v) ∧ v.Textless) → (s.call l e).2 = .error .noPlainText) ∧
    ((¬∃ v, thrown = some (.value v) ∧ v.Textless) → ∃ info, Logged thrown info ∧
      let lead := "[" ++ l.head level s.now ++ "] " ++ message ++ bracketed (contextOf ms.list)
      let rest := Keyed.without ms.list ["duration", "correlationId", "clientId"]
      let members : Keyed Json :=
        (info.map fun v => ("error", v)).toList ++ if rest = [] then [] else [("meta", .obj rest)]
      let tail := if members = [] then "" else " " ++ (Json.obj members).text
      (s.call l e).2 = (if Clock.HasDate s.now then .ok [⟨level.channel, lead ++ tail⟩] else .error .timeOutOfRange) ∧
      (members ≠ [] ↔ thrown ≠ none ∨ ∃ m ∈ ms.list, m.1 ∉ ["duration", "correlationId", "clientId"]) ∧
      (members ≠ [] → ¬[' ', '{'] <:+: lead.toList → ∃ cs, fromBrace? (lead ++ tail).toList = some cs ∧
        Json.read? (String.ofList cs) = some (.obj members))) := by
  refine ⟨fun ⟨v, hthrown, htextless⟩ => call_textless hlogs hthrown htextless, fun hnot => ?_⟩
  obtain ⟨info, hinfo⟩ : ∃ info, Logged thrown info := (logged_or_textless thrown).resolve_right hnot
  refine ⟨info, hinfo, ?_⟩
  intro lead rest members tail
  have hline : Record.line l ⟨s.now, level, message, .ofMembers ms.list, info⟩ = lead ++ tail := by
    rw [Record.line, tail_eq rfl, Record.lead, context_eq rfl]
    rfl
  refine ⟨?_, ?_, fun hmembers hlead => ?_⟩
  · rw [Session.call_single (step_logs hlogs hinfo) henabled, hline]
    exact apply_ite Prod.snd _ _ _
  · have hrest : rest ≠ [] ↔ ∃ m ∈ ms.list, m.1 ∉ ["duration", "correlationId", "clientId"] := by
      simp [rest, Keyed.without, List.filter_eq_nil_iff]
    rw [← hinfo.isSome, ← hrest]
    exact tailMembers_ne_nil
  · have htail : tail = " " ++ (Json.obj members).text := if_neg hmembers
    rw [htail]
    exact read_line hlead (read?_tailMembers hinfo.plain (ms.without _) hnumbers)

/-- An error without a code, and metadata whose keys and texts have quotes, braces and line ends. -/
theorem an_error_with_metadata :
    let l : Logger := ⟨some .info, "probe", none⟩
    let s : Session := .start 0
    let ms : Json.Members :=
      ⟨[("7", .arr [.null]), ("clientId", .str "web"), ("__proto__", .obj [("a \x7b", .str "\n\"\x7d")])],
        by decide, ⟨trivial, trivial⟩, trivial, ⟨by decide, trivial, trivial⟩, trivial⟩
    let e : Step := .fail "lost" (some (.error ⟨"Error", "no \x7breply\x7d", none, none⟩)) (.ofMembers ms.list)
    l.enables .error = true ∧ (ms.without ["duration", "correlationId", "clientId"]).object.value.numberFree = true ∧
    ∃ line cs, (s.call l e).2 = .ok [⟨.error, line⟩] ∧ fromBrace? line.toList = some cs ∧
      Json.read? (String.ofList cs) = some (.obj [
        ("error", .obj [("name", .str "Error"), ("message", .str "no \x7breply\x7d")]),
        ("meta", .obj [("7", .arr [.null]), ("__proto__", .obj [("a \x7b", .str "\n\"\x7d")])])]) := by
  intro l s ms e
  have henabled : l.enables .error = true := by decide
  have hlogs : e.Logs .error "lost" (some (.error ⟨"Error", "no \x7breply\x7d", none, none⟩)) ms.list := .fail ..
  have hnumbers : (ms.without ["duration", "correlationId", "clientId"]).object.value.numberFree = true := by decide
  obtain ⟨-, hwritten⟩ := tails_decode_to_what_was_logged (s := s) hlogs henabled hnumbers
  obtain ⟨info, hinfo, houtcome, -, hread⟩ := hwritten (by simp)
  cases hinfo
  have hlead : ¬[' ', '{'] <:+: ("[" ++ l.head .error s.now ++ "] " ++ "lost" ++ bracketed (contextOf ms.list)).toList := by
    decide +kernel
  obtain ⟨cs, hcs, hvalue⟩ := hread (by simp) hlead
  rw [if_pos (by decide)] at houtcome
  exact ⟨henabled, hnumbers, _, cs, houtcome, hcs, hvalue⟩

end Log

end CheckpointRelay
