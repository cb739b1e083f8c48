import CrmAutomation.Proofs.Graph.Shape
import CrmAutomation.Proofs.Number.IntegerText
import CrmAutomation.Proofs.Store.Publishing
import Mathlib.Tactic.MkIffOfInductiveProp

/-!
# Documents that are graphs

`Graph.IsDocument` says which JSON values describe a graph, with no mention of how they are read: an
object with lists of entries, where each node entry has an id of its own, a known type and settings of
the right kinds (`Graph.IsNodeEntry`), and each edge entry leads from one of these ids to another on
a known handle (`Graph.IsEdgeEntry`). A value that is falsy stands for one that is not there.

Node entries are read without a problem if they are such (`problems_scanNodes_eq_nil_iff`), and edge
entries as well (`problems_scanEdges_eq_nil_iff`); then there is a node or an edge for each of them, in
order. An edge entry may be passed over without a problem of its own, but only where an end is the id
of a node entry that has one (`exists_edge_of_seen`).
-/

namespace CrmAutomation

/-! ## Values that may be missing -/

namespace Value

/-- An object, or a value that stands for none. -/
def IsObjectOrFalsy (v : Value) : Prop := v.isTruthy = false ∨ ∃ ms, v = .obj ms

/-- A list, or a value that stands for none. -/
def IsListOrFalsy (v : Value) : Prop := v.isTruthy = false ∨ ∃ xs, v = .list xs

/-- The members of an object; other values have none. -/
def members (v : Value) : Members := v.obj?.getD []

/-- The items of a list; other values have none. -/
def entries (v : Value) : List Value := v.list?.getD []

theorem getD_members (key : String) (v : Value) : Members.getD key v.members = v.field key := by
  cases v <;> rfl

theorem orElse_obj_eq_iff {v : Value} {ms : Members} :
    v.orElse (.obj []) = .obj ms ↔ v.IsObjectOrFalsy ∧ v.members = ms := by
  cases v with
  | obj ns =>
    cases ns <;> simp [orElse, isTruthy, IsObjectOrFalsy, members, obj?]
  | null | bool | int | float | str | list =>
    simp only [orElse, IsObjectOrFalsy, members, obj?]
    split <;> simp_all

theorem orElse_list_eq_iff {v : Value} {xs : List Value} :
    v.orElse (.list []) = .list xs ↔ v.IsListOrFalsy ∧ v.entries = xs := by
  cases v with
  | list ys =>
    cases ys <;> simp [orElse, isTruthy, IsListOrFalsy, entries, list?]
  | null | bool | int | float | str | obj =>
    simp only [orElse, IsListOrFalsy, entries, list?]
    split <;> simp_all

end Value

/-! ## Texts of ids -/

theorem Double.layout_ne_empty (style : NumberStyle) (digits : List Char) (point : Int) :
    layout style digits point ≠ "" := by
  unfold layout
  dsimp only
  split_ifs <;> simp

theorem Double.text_ne_empty (d : Double) : d.text ≠ "" := by
  unfold text
  split
  · decide
  · split <;> decide
  · split <;> decide
  · dsimp only
    split
    · simp
    · split
      · exact layout_ne_empty _ _ _
      · decide

/-- A value that is not falsy has a text. -/
theorem Value.display_ne_empty {v : Value} (h : v.isTruthy = true) : v.display ≠ "" := by
  cases v with
  | null => cases h
  | bool b => cases b <;> simp [display, inner]
  | int i =>
    intro hempty
    have htext := Number.toList_toString i
    rw [show toString i = "" from hempty] at htext
    simp [Nat.toDigits_ne_nil] at htext
  | float d => exact Double.text_ne_empty d
  | str s => simpa [isTruthy, display] using h
  | list xs => simp [display, inner]
  | obj ms => simp [display, inner]

/-! ## Settings -/

/-- A setting that can be taken for a text: it is not there or null, a text or an integer. -/
def IsTextual (setting : Option Value) : Prop :=
  setting = none ∨ setting = some .null ∨ (∃ s, setting = some (.str s)) ∨
    ∃ i, setting = some (.int i)

/-- A setting that can be taken for a number of minutes: it is not there, null or empty, an integer,
a double that is a whole number, or a text that writes an integer with few enough digits. -/
def IsMinutes (setting : Option Value) : Prop :=
  setting = none ∨ setting = some .null ∨ setting = some (.str "") ∨
    (∃ i, setting = some (.int i)) ∨
    (∃ negative n, setting = some (.float (.finite negative (n * Double.one)))) ∨
    ∃ s negative digits, setting = some (.str s) ∧ Number.Spells s negative digits ∧
      digits.length ≤ Number.maxDigits

/-- The settings that nodes of a type take for texts. -/
def NodeType.textKeys : NodeType → List String
  | .trigger => ["to_stage_id", "tag_id"]
  | .sendEmail => ["template_id", "from_name"]
  | .moveStage => ["stage_id"]
  | .addTag => ["tag_id"]
  | .removeTag => ["tag_id"]
  | .webhook => ["endpoint_id"]
  | .delay => []
  | .condition => ["field", "operator"]

/-- The settings that nodes of a type take for numbers of minutes. -/
def NodeType.minuteKeys : NodeType → List String
  | .delay => ["duration_minutes"]
  | _ => []

/-- The settings that a node of a type reads are of the right kinds. -/
@[mk_iff]
structure NodeType.Fits (type : NodeType) (settings : Members) : Prop where
  texts : ∀ key ∈ type.textKeys, IsTextual (Text.configValue? settings key)
  minutes : ∀ key ∈ type.minuteKeys, IsMinutes (Text.configValue? settings key)

namespace Graph

namespace Reader

variable {id key : String} {settings : Members} {type : NodeType}

theorem exists_map_ok_iff {ε α β : Type} {x : Except ε α} {f : α → β} :
    (∃ b, x.map f = .ok b) ↔ ∃ a, x = .ok a := by
  cases x <;> simp [Except.map]

theorem bind_eq_ok_iff {ε α β : Type} {x : Except ε α} {f : α → β} {b : β} :
    (do return f (← x)) = Except.ok b ↔ ∃ a, x = .ok a ∧ f a = b := by
  cases x <;> simp [bind, Except.bind, pure, Except.pure]

theorem bind₂_eq_ok_iff {ε α β γ : Type} {x : Except ε α} {y : Except ε β} {f : α → β → γ} {c : γ} :
    (do let a ← x; let b ← y; return f a b) = Except.ok c ↔
      ∃ a, x = .ok a ∧ ∃ b, y = .ok b ∧ f a b = c := by
  cases x <;> cases y <;> simp [bind, Except.bind, pure, Except.pure]

theorem exists_eq_of_ok_iff {ε α β : Type} {x : Except ε α} {f : α → β} :
    (∃ b a, x = .ok a ∧ f a = b) ↔ ∃ a, x = .ok a :=
  ⟨fun ⟨_, a, h, _⟩ => ⟨a, h⟩, fun ⟨a, h⟩ => ⟨f a, a, h, rfl⟩⟩

theorem exists_eq_of_ok₂_iff {ε α β γ : Type} {x : Except ε α} {y : Except ε β} {f : α → β → γ} :
    (∃ c a, x = .ok a ∧ ∃ b, y = .ok b ∧ f a b = c) ↔ (∃ a, x = .ok a) ∧ ∃ b, y = .ok b :=
  ⟨fun ⟨_, a, h, b, h', _⟩ => ⟨⟨a, h⟩, b, h'⟩, fun ⟨⟨a, h⟩, b, h'⟩ => ⟨f a b, a, h, b, h', rfl⟩⟩

theorem exists_optionalText_iff :
    (∃ text, optionalText id settings key = .ok text) ↔
      IsTextual (Text.configValue? settings key) := by
  unfold optionalText IsTextual
  cases Text.configValue? settings key with
  | none => simp
  | some v => cases v <;> simp

theorem exists_requiredText_iff :
    (∃ text, requiredText id settings key = .ok text) ↔
      IsTextual (Text.configValue? settings key) :=
  exists_map_ok_iff.trans exists_optionalText_iff

theorem isWhole_iff {d : Double} :
    (d.isWhole = true ∧ ∃ i, d.truncate? = some i) ↔
      ∃ negative n, d = .finite negative (n * Double.one) := by
  cases d with
  | nan | infinite => simp [Double.isWhole]
  | finite negative units =>
    constructor
    · rintro ⟨hwhole, -⟩
      refine ⟨negative, units / Double.one, ?_⟩
      rw [Nat.div_mul_cancel (Nat.dvd_of_mod_eq_zero (beq_iff_eq.1 hwhole))]
    · rintro ⟨_, n, h⟩
      cases h
      exact ⟨beq_iff_eq.2 (Nat.mul_mod_left n Double.one), _, rfl⟩

theorem exists_duration_iff :
    (∃ minutes, duration id settings = .ok minutes) ↔
      IsMinutes (Text.configValue? settings "duration_minutes") := by
  unfold duration IsMinutes
  cases Text.configValue? settings "duration_minutes" with
  | none => simp
  | some v =>
    cases v with
    | null | bool | int | list | obj => simp
    | float d =>
      have hwhole := isWhole_iff (d := d)
      cases hd : d.isWhole <;> cases ht : d.truncate? <;> simp_all
    | str s =>
      by_cases hs : s = ""
      · simp [hs]
      · have hread : (∃ i, Number.readInteger? s = some i) ↔
            ∃ negative digits, Number.Spells s negative digits ∧
              digits.length ≤ Number.maxDigits := by
          simp only [Number.readInteger?_eq_some_iff]
          exact ⟨fun ⟨_, negative, digits, hspells, hshort, _⟩ => ⟨negative, digits, hspells, hshort⟩,
            fun ⟨negative, digits, hspells, hshort⟩ => ⟨_, negative, digits, hspells, hshort, rfl⟩⟩
        cases hi : Number.readInteger? s <;> simp_all

/-- Settings are read if they stand in an object and are of the right kinds. -/
theorem exists_config_iff {data : Members} :
    (∃ settings, config type id data = .ok settings) ↔
      (Members.getD "config" data).IsObjectOrFalsy ∧
        type.Fits (Members.getD "config" data).members := by
  unfold config
  dsimp only
  split
  · rename_i settings hsettings
    obtain ⟨hobject, rfl⟩ := Value.orElse_obj_eq_iff.1 hsettings
    refine Iff.trans ?_ (and_iff_right hobject).symm
    rw [NodeType.fits_iff]
    cases type with
    | trigger | sendEmail | condition =>
      simp only [bind₂_eq_ok_iff, exists_eq_of_ok₂_iff, exists_requiredText_iff,
        exists_optionalText_iff]
      simp [NodeType.textKeys, NodeType.minuteKeys]
    | moveStage | addTag | removeTag | webhook =>
      simp only [bind_eq_ok_iff, exists_eq_of_ok_iff, exists_requiredText_iff]
      simp [NodeType.textKeys, NodeType.minuteKeys]
    | delay =>
      simp only [bind_eq_ok_iff, exists_eq_of_ok_iff, exists_duration_iff]
      simp [NodeType.textKeys, NodeType.minuteKeys]
  · rename_i hother
    refine iff_of_false (by simp) fun h => ?_
    exact hother _ (Value.orElse_obj_eq_iff.2 ⟨h.1, rfl⟩)

end Reader

/-! ## Node entries -/

/-- The text of the id of a node entry. -/
def idText (entry : Value) : String := (entry.field "id").display

/-- An entry that describes a node: an object with an id, a known type and settings that fit it. -/
structure IsNodeEntry (entry : Value) : Prop where
  object : ∃ ms, entry = .obj ms
  id : (entry.field "id").isTruthy = true
  data : (entry.field "data").IsObjectOrFalsy
  config : ((entry.field "data").field "config").IsObjectOrFalsy
  type : ∃ type : NodeType, entry.field "type" = .str type.text ∧
    type.Fits ((entry.field "data").field "config").members

/-- A node is the one that an entry describes. -/
structure IsNodeOf (entry : Value) (n : Node) : Prop where
  id : n.id = idText entry
  type : entry.field "type" = .str n.type.text
  config : Reader.config n.type n.id (entry.field "data").members = .ok n.config
  label : n.label = (((entry.field "data").field "label").orElse (.str "")).display

namespace Reader

variable {id : String} {entry : Value} {type : NodeType} {n : Node}

theorem nodeId?_eq_some_iff :
    nodeId? entry = some id ↔
      (∃ ms, entry = .obj ms) ∧ (entry.field "id").isTruthy = true ∧ id = idText entry := by
  cases entry with
  | obj ms =>
    simp only [nodeId?, Value.field, idText]
    split
    · rename_i hid
      simp [hid, eq_comm]
    · rename_i hid
      simp [hid]
  | null | bool | int | float | str | list => simp [nodeId?]

theorem nodeType?_eq_some_iff {v : Value} : nodeType? v = some type ↔ v = .str type.text := by
  cases v with
  | str s =>
    refine ⟨fun h => ?_, fun h => ?_⟩
    · have htext : type.text = s := by simpa using List.find?_some h
      rw [htext]
    · cases h
      exact NodeType.ofText?_text type
  | null | bool | int | float | list | obj => simp [nodeType?]

theorem type_of_config {data : Members} {settings : NodeConfig}
    (h : config type id data = .ok settings) : settings.type = type := by
  unfold config at h
  dsimp only at h
  split at h
  · cases type with
    | trigger | sendEmail | condition =>
      obtain ⟨_, -, _, -, rfl⟩ := bind₂_eq_ok_iff.1 h
      rfl
    | moveStage | addTag | removeTag | webhook | delay =>
      obtain ⟨_, -, rfl⟩ := bind_eq_ok_iff.1 h
      rfl
  · cases h

theorem node_eq_ok_iff :
    node (idText entry) entry = .ok n ↔
      IsNodeOf entry n ∧ (entry.field "data").IsObjectOrFalsy := by
  unfold node
  constructor
  · intro h
    split at h
    · cases h
    · rename_i type htype
      split at h
      · rename_i data hdata
        obtain ⟨hobject, rfl⟩ := Value.orElse_obj_eq_iff.1 hdata
        obtain ⟨settings, hsettings, rfl⟩ := bind_eq_ok_iff.1 h
        have hsame := type_of_config hsettings
        refine ⟨⟨rfl, ?_, ?_, ?_⟩, hobject⟩
        · rw [Node.type, hsame, nodeType?_eq_some_iff.1 htype]
        · rw [Node.type, hsame, hsettings]
        · rw [Value.getD_members]
      · cases h
  · rintro ⟨⟨hid, htype, hconfig, hlabel⟩, hobject⟩
    rw [nodeType?_eq_some_iff.2 htype, Value.orElse_obj_eq_iff.2 ⟨hobject, rfl⟩]
    refine bind_eq_ok_iff.2 ⟨n.config, hid ▸ hconfig, ?_⟩
    rw [Value.getD_members, ← hlabel, ← hid]

/-- The node of an entry with an id is read if the entry describes a node. -/
theorem exists_node_iff (hobject : ∃ ms, entry = .obj ms)
    (hid : (entry.field "id").isTruthy = true) :
    (∃ n, node (idText entry) entry = .ok n) ↔ IsNodeEntry entry := by
  constructor
  · rintro ⟨n, hn⟩
    obtain ⟨⟨-, htype, hconfig, -⟩, hdata⟩ := node_eq_ok_iff.1 hn
    obtain ⟨hsettings, hfits⟩ := exists_config_iff.1 ⟨_, hconfig⟩
    rw [Value.getD_members] at hsettings hfits
    exact ⟨hobject, hid, hdata, hsettings, _, htype, hfits⟩
  · rintro ⟨-, -, hdata, hsettings, type, htype, hfits⟩
    rw [← Value.getD_members] at hsettings hfits
    obtain ⟨settings, hconfig⟩ : ∃ settings, config type (idText entry) _ = .ok settings :=
      exists_config_iff.2 ⟨hsettings, hfits⟩
    have hsame := type_of_config hconfig
    refine ⟨⟨idText entry, settings, _⟩, node_eq_ok_iff.2 ⟨⟨rfl, ?_, ?_, rfl⟩, hdata⟩⟩
    · rw [Node.type, hsame, htype]
    · rw [Node.type, hsame, hconfig]

/-! ## Reading the node entries -/

/-- Nothing is wrong with a list of entries if each describes a node, with an id of its own. -/
theorem problems_scanNodes_eq_nil_iff (position : Nat) (seen : List String) (entries : List Value) :
    (scanNodes position seen entries).problems = [] ↔
      (∀ entry ∈ entries, IsNodeEntry entry) ∧ (entries.map idText).Nodup ∧
        ∀ entry ∈ entries, idText entry ∉ seen := by
  fun_induction scanNodes position seen entries with
  | case1 => simp
  | case2 _ _ entry _ hnone _ _ =>
    refine iff_of_false (by simp) fun h => ?_
    have hentry := h.1 entry List.mem_cons_self
    simp [nodeId?_eq_some_iff.2 ⟨hentry.object, hentry.id, rfl⟩] at hnone
  | case3 _ _ entry _ id hid hmet _ _ =>
    obtain ⟨-, -, rfl⟩ := nodeId?_eq_some_iff.1 hid
    exact iff_of_false (by simp) fun h => h.2.2 entry List.mem_cons_self hmet
  | case4 _ _ entry _ id hid _ _ _ hproblem _ =>
    obtain ⟨hobject, htruthy, rfl⟩ := nodeId?_eq_some_iff.1 hid
    refine iff_of_false (by simp) fun h => ?_
    obtain ⟨n, hn⟩ := (exists_node_iff hobject htruthy).2 (h.1 entry List.mem_cons_self)
    rw [hn] at hproblem
    cases hproblem
  | case5 _ _ entry _ id hid hfresh _ n hn ih =>
    obtain ⟨hobject, htruthy, rfl⟩ := nodeId?_eq_some_iff.1 hid
    have hentry := (exists_node_iff hobject htruthy).1 ⟨n, hn⟩
    refine ih.trans ⟨?_, ?_⟩
    · rintro ⟨hentries, hdistinct, hothers⟩
      refine ⟨List.forall_mem_cons.2 ⟨hentry, hentries⟩,
        List.nodup_cons.2 ⟨fun hmem => ?_, hdistinct⟩, List.forall_mem_cons.2 ⟨hfresh,
          fun other hother hmet => hothers other hother (List.mem_cons_of_mem _ hmet)⟩⟩
      obtain ⟨other, hother, hsame⟩ := List.mem_map.1 hmem
      exact hothers other hother (hsame ▸ List.mem_cons_self)
    · rintro ⟨hentries, hdistinct, hseen⟩
      obtain ⟨hapart, hdistinct⟩ := List.nodup_cons.1 hdistinct
      refine ⟨(List.forall_mem_cons.1 hentries).2, hdistinct, fun other hother hmem => ?_⟩
      rcases List.mem_cons.1 hmem with hsame | hmet
      · exact hapart (List.mem_map.2 ⟨other, hother, hsame⟩)
      · exact hseen other (List.mem_cons_of_mem _ hother) hmet

/-- Where nothing is wrong with the entries there is a node for each of them, in order, and the ids
met are those of the nodes. -/
theorem nodes_scanNodes (position : Nat) (seen : List String) (entries : List Value)
    (h : (scanNodes position seen entries).problems = []) :
    List.Forall₂ IsNodeOf entries (scanNodes position seen entries).nodes ∧
      ∀ id ∈ (scanNodes position seen entries).seen,
        id ∈ seen ∨ id ∈ (scanNodes position seen entries).nodes.map (·.id) := by
  fun_induction scanNodes position seen entries with
  | case1 => exact ⟨.nil, fun id hid => .inl hid⟩
  | case2 | case3 | case4 => exact absurd h (by simp)
  | case5 _ _ entry _ id hid _ _ n hn ih =>
    obtain ⟨hobject, htruthy, rfl⟩ := nodeId?_eq_some_iff.1 hid
    obtain ⟨hnode, -⟩ := node_eq_ok_iff.1 hn
    obtain ⟨hnodes, hseen⟩ := ih h
    refine ⟨.cons hnode hnodes, fun id hid => ?_⟩
    rcases hseen id hid with hmet | hlater
    · rcases List.mem_cons.1 hmet with rfl | hmet
      · exact .inr (hnode.id ▸ List.mem_cons_self)
      · exact .inl hmet
    · exact .inr (List.mem_cons_of_mem _ hlater)

end Reader

/-! ## Edge entries -/

/-- An entry that describes an edge between nodes with some ids: an object with the ids of two of
them, and with a handle unless it leaves on the default one. -/
structure IsEdgeEntry (ids : List String) (entry : Value) : Prop where
  object : ∃ ms, entry = .obj ms
  source_truthy : (entry.field "source").isTruthy = true
  source : (entry.field "source").display ∈ ids
  target_truthy : (entry.field "target").isTruthy = true
  target : (entry.field "target").display ∈ ids
  handle : (entry.field "sourceHandle").isTruthy = false ∨
    ∃ handle : Handle, entry.field "sourceHandle" = .str handle.text

/-- An edge is the one that an entry describes. -/
structure IsEdgeOf (nodes : List Node) (entry : Value) (e : Edge) : Prop where
  source : ∃ n, nodes[e.source]? = some n ∧ n.id = (entry.field "source").display
  target : ∃ n, nodes[e.target]? = some n ∧ n.id = (entry.field "target").display
  handle : (entry.field "sourceHandle").isTruthy = false ∧ e.handle = .default ∨
    entry.field "sourceHandle" = .str e.handle.text

namespace Reader

theorem handle?_eq_some_iff {v : Value} {handle : Handle} :
    handle? v = some handle ↔
      v.isTruthy = false ∧ handle = .default ∨ v = .str handle.text := by
  have htruthy : (Value.str handle.text).isTruthy = true := by cases handle <;> rfl
  cases hv : v.isTruthy with
  | false =>
    have hne : v ≠ .str handle.text := by
      rintro rfl
      rw [htruthy] at hv
      cases hv
    have hdefault : handle? v = some .default := by
      rw [handle?, Value.orElse, hv]
      rfl
    simp [hdefault, hne, eq_comm]
  | true =>
    rw [handle?, Value.orElse, hv, if_pos rfl]
    cases v with
    | str s =>
      simp only [reduceCtorEq, false_and, false_or, Value.str.injEq]
      refine ⟨fun h => ?_, fun h => ?_⟩
      · exact (by simpa using List.find?_some h : handle.text = s).symm
      · rw [h]
        exact Handle.ofText?_text handle
    | null | bool | int | float | list | obj => simp

variable {nodes : List Node} {seen : List String} {entry : Value} {e : Edge}

theorem exists_of_idxOf? {id : String} {i : Nat} (h : (nodes.map (·.id)).idxOf? id = some i) :
    ∃ n, nodes[i]? = some n ∧ n.id = id := by
  obtain ⟨hi, hid, -⟩ := List.findIdx?_eq_some_iff_getElem.1 h
  rw [List.length_map] at hi
  exact ⟨nodes[i], List.getElem?_eq_getElem hi, by simpa using hid⟩

theorem exists_idxOf?_of_mem {ids : List String} {id : String} (h : id ∈ ids) :
    ∃ i, ids.idxOf? id = some i := by
  cases hi : ids.idxOf? id with
  | none => exact absurd h (by simpa using hi)
  | some i => exact ⟨i, rfl⟩

theorem mem_of_idxOf? {ids : List String} {id : String} {i : Nat} (h : ids.idxOf? id = some i) :
    id ∈ ids := by
  by_contra hfree
  rw [List.idxOf?_eq_none_iff.2 hfree] at h
  cases h

theorem display_orElse_of_truthy {v : Value} (h : v.isTruthy = true) :
    (v.orElse (.str "")).display = v.display := by
  rw [Value.orElse, if_pos h]

/-- Where no id is empty, an end with the text of an id is truthy. -/
theorem truthy_of_display_orElse_mem {ids : List String} (hempty : "" ∉ ids) {v : Value}
    (h : (v.orElse (.str "")).display ∈ ids) : v.isTruthy = true := by
  by_contra hfalsy
  rw [Value.orElse, if_neg hfalsy] at h
  exact hempty h

/-- Where the ids met are those of the nodes, an entry is read as an edge, or has a problem. -/
theorem exists_edge_of_seen {ids : List String} (position : Nat) (entry : Value)
    (hseen : ∀ id ∈ seen, id ∈ ids) :
    (∃ e, edge ids seen position entry = .ok (some e)) ∨
      ∃ problem, edge ids seen position entry = .error problem := by
  unfold edge
  split
  · dsimp only
    split
    · rename_i hnone
      split
      · rename_i hmet
        exact absurd (hseen _ hmet) (List.idxOf?_eq_none_iff.1 hnone)
      · exact .inr ⟨_, rfl⟩
    · split
      · rename_i hnone
        split
        · rename_i hmet
          exact absurd (hseen _ hmet) (List.idxOf?_eq_none_iff.1 hnone)
        · exact .inr ⟨_, rfl⟩
      · split
        · exact .inl ⟨_, rfl⟩
        · exact .inr ⟨_, rfl⟩
  · exact .inr ⟨_, rfl⟩

/-- An entry that is read as an edge describes it. -/
theorem edge_spec {position : Nat} (hempty : "" ∉ nodes.map (·.id))
    (h : edge (nodes.map (·.id)) seen position entry = .ok (some e)) :
    IsEdgeEntry (nodes.map (·.id)) entry ∧ IsEdgeOf nodes entry e := by
  unfold edge at h
  split at h
  · rename_i ms
    dsimp only at h
    split at h
    · split at h <;> cases h
    · rename_i source hsource
      split at h
      · split at h <;> cases h
      · rename_i target htarget
        split at h
        · rename_i handle hhandle
          cases h
          have hleaves := truthy_of_display_orElse_mem hempty (mem_of_idxOf? hsource)
          have henters := truthy_of_display_orElse_mem hempty (mem_of_idxOf? htarget)
          rw [display_orElse_of_truthy hleaves] at hsource
          rw [display_orElse_of_truthy henters] at htarget
          have handles := handle?_eq_some_iff.1 hhandle
          exact ⟨⟨⟨ms, rfl⟩, hleaves, mem_of_idxOf? hsource, henters, mem_of_idxOf? htarget,
              handles.imp And.left fun htext => ⟨handle, htext⟩⟩,
            exists_of_idxOf? hsource, exists_of_idxOf? htarget, handles⟩
        · cases h
  · cases h

/-- An entry that describes an edge is read as one. -/
theorem exists_edge_of_isEdgeEntry {ids : List String} (seen : List String) (position : Nat)
    (h : IsEdgeEntry ids entry) :
    ∃ e, edge ids seen position entry = .ok (some e) := by
  obtain ⟨⟨ms, rfl⟩, hleaves, hsource, henters, htarget, hhandle⟩ := h
  rw [← display_orElse_of_truthy hleaves] at hsource
  rw [← display_orElse_of_truthy henters] at htarget
  obtain ⟨source, hsource⟩ := exists_idxOf?_of_mem hsource
  obtain ⟨target, htarget⟩ := exists_idxOf?_of_mem htarget
  obtain ⟨handle, hhandle⟩ : ∃ handle, handle? (Members.getD "sourceHandle" ms) = some handle := by
    rcases hhandle with hfalsy | ⟨handle, htext⟩
    · exact ⟨.default, handle?_eq_some_iff.2 (.inl ⟨hfalsy, rfl⟩)⟩
    · exact ⟨handle, handle?_eq_some_iff.2 (.inr htext)⟩
  simp only [Value.field] at hsource htarget
  exact ⟨⟨source, target, handle⟩, by simp only [edge, hsource, htarget, hhandle]⟩

/-! ## Reading the edge entries -/

/-- Where the ids met are those of the nodes, nothing is wrong with a list of entries if each
describes an edge. -/
theorem problems_scanEdges_eq_nil_iff (hempty : "" ∉ nodes.map (·.id))
    (hseen : ∀ id ∈ seen, id ∈ nodes.map (·.id)) (position : Nat) (entries : List Value) :
    (scanEdges (nodes.map (·.id)) seen position entries).1 = [] ↔
      ∀ entry ∈ entries, IsEdgeEntry (nodes.map (·.id)) entry := by
  induction entries generalizing position with
  | nil => simp [scanEdges]
  | cons entry rest ih =>
    rw [List.forall_mem_cons, ← ih (position + 1)]
    rcases exists_edge_of_seen position entry hseen with ⟨e, he⟩ | ⟨problem, hproblem⟩
    · have hentry := (edge_spec hempty he).1
      simp [scanEdges, he, hentry]
    · have hentry : ¬IsEdgeEntry (nodes.map (·.id)) entry := fun hentry => by
        obtain ⟨e, he⟩ := exists_edge_of_isEdgeEntry seen position hentry
        rw [he] at hproblem
        cases hproblem
      simp [scanEdges, hproblem, hentry]

/-- Where nothing is wrong with the entries there is an edge for each of them, in order. -/
theorem edges_scanEdges (hempty : "" ∉ nodes.map (·.id))
    (hseen : ∀ id ∈ seen, id ∈ nodes.map (·.id)) (position : Nat) (entries : List Value)
    (h : (scanEdges (nodes.map (·.id)) seen position entries).1 = []) :
    List.Forall₂ (IsEdgeOf nodes) entries
      (scanEdges (nodes.map (·.id)) seen position entries).2 := by
  induction entries generalizing position with
  | nil => exact .nil
  | cons entry rest ih =>
    rcases exists_edge_of_seen position entry hseen with ⟨e, he⟩ | ⟨problem, hproblem⟩
    · simp only [scanEdges, he] at h ⊢
      exact .cons (edge_spec hempty he).2 (ih _ h)
    · simp [scanEdges, hproblem] at h

end Reader

end Graph

end CrmAutomation
