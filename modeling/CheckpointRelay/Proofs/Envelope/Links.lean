/-
  CheckpointRelay.Proofs.Envelope.Links — a mesh from its names to the wire.

  The names of a mesh are those that are listed, trimmed, each at the place of its first
  occurrence (`FirstOccurrences`). A map links its keys with all other names (`Links`). Building
  the map, putting it in order, checking it, writing and reading it keep the links of every name
  but one: the normal form of maps drops the reserved key, so that component reaches the other
  side in the lists of the others only.
  - `distinct_firstOccurrences`: the names of a mesh.
  - `links_ofPairs` / `mesh_links`: the map of a mesh.
  - `ofMap_of_sound`: what a registration keeps of a map.
  - `decode_registration`: a map in order is read as it was registered.
  - `mesh_on_the_wire`: all of it.
-/

import CheckpointRelay.Proofs.Envelope.Requests

namespace CheckpointRelay.Envelope

/-! ## (1) Names -/

/-- The listed names, each once, in the order of their first occurrence. -/
structure FirstOccurrences (listed names : List String) : Prop where
  mem : ∀ name, name ∈ names ↔ name ∈ listed
  order : names.Pairwise fun a b => listed.idxOf a < listed.idxOf b

theorem FirstOccurrences.nodup {listed names : List String} (h : FirstOccurrences listed names) : names.Nodup := by
  refine h.order.imp fun {a b} hab heq => ?_
  rw [heq] at hab
  exact Nat.lt_irrefl _ hab

theorem mem_distinct {name : String} {listed : List String} : name ∈ distinct listed ↔ name ∈ listed := by
  induction listed with
  | nil => rfl
  | cons a listed ih =>
    rw [distinct, List.mem_cons, List.mem_cons, List.mem_filter, ih, decide_eq_true_eq]
    by_cases h : name = a <;> simp [h]

theorem distinct_order (listed : List String) :
    (distinct listed).Pairwise fun a b => listed.idxOf a < listed.idxOf b := by
  induction listed with
  | nil => exact .nil
  | cons a listed ih =>
    have hbehind {b : String} (hb : b ∈ (distinct listed).filter (· ≠ a)) :
        (a :: listed).idxOf b = listed.idxOf b + 1 := by
      have hne : b ≠ a := decide_eq_true_eq.mp (List.mem_filter.mp hb).2
      exact List.idxOf_cons_ne listed hne.symm
    rw [distinct, List.pairwise_cons]
    constructor
    · intro b hb
      rw [List.idxOf_cons_self, hbehind hb]
      omega
    · refine (ih.filter _).imp_of_mem fun {b c} hb hc hbc => ?_
      rw [hbehind hb, hbehind hc]
      omega

theorem distinct_firstOccurrences (listed : List String) : FirstOccurrences listed (distinct listed) :=
  ⟨fun _ => mem_distinct, distinct_order listed⟩

/-! ## (2) Maps -/

/-- A map of `kept` that links each of them with all other `names`. -/
structure Links (names kept : List String) (m : DependencyMap) : Prop where
  once : (m.map (·.1)).Nodup
  keys : ∀ name, name ∈ m.map (·.1) ↔ name ∈ kept
  others : ∀ p ∈ m, p.2 = names.filter (· ≠ p.1)

variable {names kept : List String} {m : DependencyMap}

/-- Two names are linked by the map of one of them. -/
theorem Links.mem (h : Links names kept m) {a b : String} (ha : a ∈ kept) (hb : b ∈ names) (hne : a ≠ b) :
    ∃ others, (a, others) ∈ m ∧ b ∈ others := by
  obtain ⟨p, hp, rfl⟩ := List.mem_map.mp ((h.keys a).mpr ha)
  refine ⟨p.2, hp, ?_⟩
  rw [h.others p hp, List.mem_filter, decide_eq_true_eq]
  exact ⟨hb, hne.symm⟩

/-- Without one of its keys a map links the others as before. -/
theorem Links.without (h : Links names kept m) (key : String) :
    Links names (kept.filter (· ≠ key)) (m.filter fun p => p.1 ≠ key) := by
  refine ⟨h.once.sublist (List.filter_sublist.map _), fun name => ?_, fun p hp => h.others p (List.mem_filter.mp hp).1⟩
  rw [List.mem_filter, ← h.keys name, List.mem_map, List.mem_map]
  constructor
  · rintro ⟨p, hp, rfl⟩
    obtain ⟨hp, hkey⟩ := List.mem_filter.mp hp
    exact ⟨⟨p, hp, rfl⟩, hkey⟩
  · rintro ⟨⟨p, hp, rfl⟩, hkey⟩
    exact ⟨p, List.mem_filter.mpr ⟨hp, hkey⟩, rfl⟩

theorem keys_pairs (names : List String) :
    (names.map fun name => (name, names.filter (· ≠ name))).map (·.1) = names := by
  rw [List.map_map]
  exact List.map_id' names

theorem links_ofPairs (h : names.Nodup) :
    Links names names (Keyed.ofPairs (names.map fun name => (name, names.filter (· ≠ name)))) := by
  have hkeys : (names.map fun name => (name, names.filter (· ≠ name))).map (·.1) = names := keys_pairs names
  have hmem (p : String × List String) : p ∈ Keyed.ofPairs (names.map fun name => (name, names.filter (· ≠ name)))
      ↔ p ∈ names.map fun name => (name, names.filter (· ≠ name)) := Keyed.mem_ofPairs_iff (by rw [hkeys]; exact h)
  refine ⟨(Keyed.ofPairs_inOrder _).imp And.left, fun name => ?_, fun p hp => ?_⟩
  · conv_rhs => rw [← hkeys]
    simp only [List.mem_map (f := Prod.fst), hmem]
  · obtain ⟨name, -, rfl⟩ := List.mem_map.mp ((hmem p).mp hp)
    rfl

/-- The map of a mesh is built from its names, and none of them is empty. -/
theorem mesh_ofPairs {components : List String} (h : mesh components = .ok m) :
    let names := distinct (components.map Text.trim)
    "" ∉ names ∧ m = Keyed.ofPairs (names.map fun name => (name, names.filter (· ≠ name))) := by
  intro names
  simp only [mesh] at h
  split at h
  · cases h
  rename_i hblank
  split at h
  · cases h
  cases h
  exact ⟨fun hmem => hblank (List.contains_iff_mem.mpr hmem), rfl⟩

/-- The map of a mesh: in order, every name linked with all others, and none of them blank. -/
theorem mesh_links {components : List String} (h : mesh components = .ok m) :
    let names := distinct (components.map Text.trim)
    Links names names m ∧ Keyed.InOrder m ∧ ∀ name ∈ names, Text.allBlank name = false := by
  intro names
  obtain ⟨hempty, rfl⟩ := mesh_ofPairs h
  refine ⟨links_ofPairs (distinct_firstOccurrences _).nodup, Keyed.ofPairs_inOrder _, fun name hname => ?_⟩
  rw [Bool.eq_false_iff]
  intro hall
  -- a name is trimmed: if it is blank there is nothing of it
  obtain ⟨component, -, rfl⟩ := List.mem_map.mp (mem_distinct.mp hname)
  rw [Text.allBlank_trim, ← Text.trim_eq_empty_iff] at hall
  rw [hall] at hname
  exact hempty hname

theorem Links.sound (h : Links names names m) (hblank : ∀ name ∈ names, Text.allBlank name = false) : m.Sound := by
  intro p hp
  have hkey : p.1 ∈ names := (h.keys p.1).mp (List.mem_map_of_mem hp)
  refine ⟨hblank p.1 hkey, fun name hname => ?_⟩
  rw [h.others p hp, List.mem_filter, decide_eq_true_eq] at hname
  exact ⟨hblank name hname.1, hname.2⟩

/-! ## (3) On the wire -/

theorem DependencyMap.parse_of_sound (h : m.Sound) :
    DependencyMap.parse m.toJson = .ok (m.filter fun p => p.1 ≠ "__proto__") := by
  have hissues : DependencyMap.issues m.toJson = [] := by
    refine DependencyMap.issues_eq_nil_iff.mpr ⟨_, rfl, fun p hp => ?_⟩
    obtain ⟨q, hq, rfl⟩ := List.mem_map.mp hp
    exact ⟨(h q hq).1, q.2, rfl, fun name hname => ((h q hq).2 name hname).1⟩
  have hmembers : DependencyMap.ofMembers (m.map fun p => (p.1, Json.ofStrings p.2))
      = m.filter fun p => p.1 ≠ "__proto__" := by
    rw [DependencyMap.ofMembers, List.filter_map, List.map_map]
    refine (List.map_congr_left fun p hp => ?_).trans (List.map_id _)
    -- nobody stands under itself, so nothing is taken from a list
    have hothers : p.2.filter (· ≠ p.1) = p.2 :=
      List.filter_eq_self.mpr fun name hname => decide_eq_true ((h p (List.mem_filter.mp hp).1).2 name hname).2
    simp only [Function.comp, DependencyMap.names_ofStrings, hothers]
    rfl
  simp only [DependencyMap.toJson] at hissues ⊢
  simp only [DependencyMap.parse, hissues, hmembers]

/-- A registration keeps of a map all but the reserved key. -/
theorem Request.ofMap_of_sound (h : m.Sound) :
    Request.ofMap m.toJson = .ok ⟨"kubescr", "add_dependencies", .map (m.filter fun p => p.1 ≠ "__proto__")⟩ := by
  rw [Request.ofMap, DependencyMap.load, DependencyMap.parse_of_sound h]
  rfl

theorem map_inOrder (h : Keyed.InOrder m) : m.toJson.InOrder := by
  refine ⟨?_, Json.membersInOrder_iff.mpr fun p hp => ?_⟩
  · rw [Keyed.InOrder, List.map_map]
    exact h
  · obtain ⟨q, -, rfl⟩ := List.mem_map.mp hp
    refine Json.itemsInOrder_iff.mpr fun v hv => ?_
    obtain ⟨name, -, rfl⟩ := List.mem_map.mp hv
    trivial

/-- A registered map that is in order is read as it is. -/
theorem decode_registration (hsound : m.Sound) (horder : Keyed.InOrder m) :
    let r : Request := ⟨"kubescr", "add_dependencies", .map m⟩
    ∃ payload, serialize r.toJson = .ok payload ∧ Json.read? (Text.Utf8.decode payload) = some r.toJson := by
  intro r
  have hregisters : r.Registers := ⟨m, hsound, rfl⟩
  have hsent : serialize r.toJson = .ok (Text.Utf8.encode r.toJson.text) :=
    serialize_ok_iff.mpr ⟨Request.isEnvelope_of_registers hregisters, rfl⟩
  have hkeys : Keyed.InOrder [("id", Json.str r.id), ("action", .str r.action), ("dependencies", m.toJson)] := by
    have hnames : ["id", "action", "dependencies"].Pairwise Keyed.Before := by decide
    exact hnames
  let v : Json.Ordered := ⟨r.toJson, hkeys, trivial, trivial, map_inOrder horder, trivial⟩
  have hread : Json.read? (Text.Utf8.decode (Text.Utf8.encode v.value.text)) = some v.value :=
    decode_serialize hsent (Request.toJson_numberFree r)
  exact ⟨_, hsent, hread⟩

/-- A mesh is sent whole, but for the map of one component. Every list that makes a mesh is
    registered, written and read: the map that is read has each of the names once as a key, with
    all other names in the order of their first occurrence, and any two names are linked both
    ways. Only the reserved name is no key of it, so it is the mesh exactly when that name is not
    listed. -/
theorem mesh_on_the_wire (components : List String) (m : DependencyMap) (h : mesh components = .ok m) :
    ∃ names request payload sent, FirstOccurrences (components.map Text.trim) names ∧ Links names names m ∧
      Request.ofMap m.toJson = .ok request ∧ serialize request.toJson = .ok payload ∧
      Json.read? (Text.Utf8.decode payload) = some (.obj
        [("id", .str "kubescr"), ("action", .str "add_dependencies"), ("dependencies", DependencyMap.toJson sent)]) ∧
      Links names (names.filter (· ≠ "__proto__")) sent ∧
      (∀ a ∈ names, ∀ b ∈ names, a ≠ b → a ≠ "__proto__" → ∃ others, (a, others) ∈ sent ∧ b ∈ others) ∧
      (Links names names sent ↔ "__proto__" ∉ components.map Text.trim) ∧
      ("__proto__" ∉ components.map Text.trim → sent = m) := by
  obtain ⟨hlinks, horder, hblank⟩ := mesh_links h
  have hnames : FirstOccurrences (components.map Text.trim) (distinct (components.map Text.trim)) :=
    distinct_firstOccurrences _
  generalize distinct (components.map Text.trim) = names at hlinks hblank hnames
  have hsound : m.Sound := hlinks.sound hblank
  let sent : DependencyMap := m.filter fun p => p.1 ≠ "__proto__"
  have hkept : Links names (names.filter (· ≠ "__proto__")) sent := hlinks.without "__proto__"
  have hsent : DependencyMap.Sound sent := fun p hp => hsound p (List.mem_filter.mp hp).1
  have hsorted : Keyed.InOrder sent := List.Pairwise.sublist (List.filter_sublist.map _) horder
  obtain ⟨payload, hpayload, hread⟩ := decode_registration hsent hsorted
  have hwhole (hreserved : "__proto__" ∉ components.map Text.trim) : sent = m := by
    refine List.filter_eq_self.mpr fun p hp => decide_eq_true ?_
    rintro heq
    exact hreserved ((hnames.mem _).mp (heq ▸ (hlinks.keys p.1).mp (List.mem_map_of_mem hp)))
  refine ⟨names, _, payload, sent, hnames, hlinks, Request.ofMap_of_sound hsound, hpayload, hread, hkept, ?_, ?_,
    hwhole⟩
  · intro a ha b hb hne hreserved
    exact hkept.mem (List.mem_filter.mpr ⟨ha, decide_eq_true hreserved⟩) hb hne
  · constructor
    · intro hall hreserved
      have hkey : "__proto__" ∈ sent.map (·.1) := (hall.keys _).mpr ((hnames.mem _).mpr hreserved)
      have hdropped : "__proto__" ∈ names.filter (· ≠ "__proto__") := (hkept.keys _).mp hkey
      exact absurd rfl (decide_eq_true_eq.mp (List.mem_filter.mp hdropped).2)
    · intro hreserved
      rw [hwhole hreserved]
      exact hlinks

/-- Names with padding, a name twice, and names that spell an index. -/
theorem a_mesh_of_four :
    let components := [" b ", "10", "9", "b", "constructor"]
    let m : DependencyMap := [("9", ["b", "10", "constructor"]), ("10", ["b", "9", "constructor"]),
      ("b", ["10", "9", "constructor"]), ("constructor", ["b", "10", "9"])]
    mesh components = .ok m ∧ ∃ request payload, Request.ofMap m.toJson = .ok request ∧
      serialize request.toJson = .ok payload ∧ Json.read? (Text.Utf8.decode payload) = some (.obj
        [("id", .str "kubescr"), ("action", .str "add_dependencies"), ("dependencies", m.toJson)]) := by
  intro components m
  have hmesh : mesh components = .ok m := by decide +kernel
  have hreserved : "__proto__" ∉ components.map Text.trim := by decide
  obtain ⟨_, request, payload, sent, -, -, hrequest, hpayload, hread, -, -, -, hwhole⟩ :=
    mesh_on_the_wire components m hmesh
  rw [hwhole hreserved] at hread
  exact ⟨hmesh, request, payload, hrequest, hpayload, hread⟩

/-- The reserved name makes a mesh with another one, but it is no key of what is sent. -/
theorem a_component_that_is_not_sent :
    let components := ["a", "__proto__"]
    let m : DependencyMap := [("a", ["__proto__"]), ("__proto__", ["a"])]
    mesh components = .ok m ∧ ¬∃ names request payload sent, FirstOccurrences (components.map Text.trim) names ∧
      Request.ofMap m.toJson = .ok request ∧ serialize request.toJson = .ok payload ∧
      Json.read? (Text.Utf8.decode payload) = some (.obj
        [("id", .str "kubescr"), ("action", .str "add_dependencies"), ("dependencies", DependencyMap.toJson sent)]) ∧
      Links names names sent := by
  intro components m
  refine ⟨by decide +kernel, ?_⟩
  rintro ⟨names, request, payload, sent, hnames, hrequest, hpayload, hread, hlinks⟩
  have hkept : Request.ofMap m.toJson = .ok ⟨"kubescr", "add_dependencies", .map [("a", ["__proto__"])]⟩ := rfl
  have hsound : DependencyMap.Sound [("a", ["__proto__"])] := by
    unfold DependencyMap.Sound
    decide
  obtain ⟨payload', hpayload', hread'⟩ := decode_registration hsound (by decide)
  cases Except.ok.inj (hrequest.symm.trans hkept)
  cases Except.ok.inj (hpayload.symm.trans hpayload')
  have hsent : (DependencyMap.toJson sent) = DependencyMap.toJson [("a", ["__proto__"])] := by
    have hall := Option.some.inj (hread.symm.trans hread')
    simp only [Request.toJson, Dependencies.toJson, Json.obj.injEq, List.cons.injEq, Prod.mk.injEq, and_true] at hall
    exact hall.2.2.2
  have hkeys : sent.map (·.1) = ["a"] := by
    have hmembers := congrArg (List.map (·.1)) (Json.obj.inj hsent)
    rw [List.map_map] at hmembers
    exact hmembers
  have hreserved : "__proto__" ∈ sent.map (·.1) := (hlinks.keys _).mpr ((hnames.mem _).mpr (by decide))
  rw [hkeys] at hreserved
  exact absurd hreserved (by decide)

end CheckpointRelay.Envelope
