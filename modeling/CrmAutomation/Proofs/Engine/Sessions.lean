import CrmAutomation.Proofs.Engine.Editing

/-!
# Sessions on one workflow

A workflow is published by one session while others save edits of it (`Desk`). Each session goes by
turns: it reads the newest version in one, publishing asks about one reference at a time, and what
is written is seen by the others when the session commits. Between two turns of a session the others
may take any number of theirs. A session that is left alone does what the request does
(`Desk.publisher_alone`, `Desk.editor_alone`).

Sessions work on the row as they read it. So the graph that is published need not be the one that
was accepted: it is the last one that was saved in the row since the publisher read it, by whoever
had read the row as a draft, before it was published or after (`Desk.published_graph`). Such a save
goes unnoticed (`Desk.accepted_graph_replaced`).
-/

namespace CrmAutomation

variable {σ : Type}

/-! ## Publishing in two statements -/

/-- Publishes the draft that was read and archives the version that was found published. -/
def Database.replace (now : Instant) (read : Definition) (previous : Option Definition)
    (triggerType : Option String) (db : Database) : Definition × Database :=
  let freed := match previous with
    | some p => db.setStatus now p.id .archived
    | none => db
  let after := freed.updateDefinition read.id fun d =>
    { d with
      status := .known .published
      triggerType := triggerType.or d.triggerType
      publishedAt := some now
      updatedAt := now }
  (after.reread read, after)

theorem Database.markPublished_eq_replace {read : Definition} (draft : read.status = .known .draft)
    (now : Instant) (triggerType : Option String) (db : Database) :
    db.markPublished now read triggerType
      = .ok (db.replace now read (db.published? read.workflow read.organization) triggerType) := by
  rw [markPublished, if_neg (not_not.2 draft)]
  rfl

/-! ## Rows that are written -/

namespace Database

variable {db db' : Database} {id : String} {row : Definition}

theorem id_of_definition? (h : db.definition? id = some row) : row.id = id := by
  simpa using List.find?_some h

theorem mem_of_latest {workflow organization : String}
    (h : db.latest workflow organization = .ok row) :
    row ∈ db.definitions := by
  rw [latest] at h
  split at h
  · rename_i first rest hversions
    obtain rfl : first = row := Except.ok.inj h
    have hfirst : first ∈ db.versions workflow organization := hversions ▸ List.mem_cons_self
    exact (mem_versions.1 hfirst).1
  · cases h

theorem definition?_updateDefinition {change : Definition → Definition}
    (hchange : ∀ d, (change d).id = d.id) (h : db.definition? id = some row) (target : String) :
    (db.updateDefinition target change).definition? id
      = some (if row.id == target then change row else row) := by
  have hids : ∀ d : Definition,
      ((if d.id == target then change d else d).id == id) = (d.id == id) := by
    intro d
    split <;> simp [hchange]
  rw [definition?, updateDefinition, List.find?_map]
  simp only [Function.comp_def, hids]
  exact congrArg (Option.map _) h

theorem ids_updateDefinition {change : Definition → Definition}
    (hchange : ∀ d, (change d).id = d.id) (target : String) (db : Database) :
    (db.updateDefinition target change).definitions.map (·.id) = db.definitions.map (·.id) := by
  rw [updateDefinition, List.map_map]
  refine List.map_congr_left fun d _ => ?_
  rw [Function.comp]
  split
  · exact hchange d
  · rfl

theorem nodup_ids_writeDraft {now : Instant} {new : String} {read a : Definition} {e : Edit}
    (hwrite : db.writeDraft now new read e = .ok (a, db'))
    (ids : (db.definitions.map (·.id)).Nodup) : (db'.definitions.map (·.id)).Nodup := by
  rw [writeDraft] at hwrite
  split at hwrite
  · obtain rfl : (db.editDraft now read e).2 = db' := congrArg Prod.snd (Except.ok.inj hwrite)
    unfold editDraft
    split
    · rwa [ids_updateDefinition (by exact fun _ => rfl)]
    · exact ids
  · simp only [beginDraft, bind, Except.bind] at hwrite
    split at hwrite
    · cases hwrite
    · obtain ⟨-, rfl, hfree⟩ := insertDefinition_spec hwrite
      rw [List.map_append, List.map_singleton]
      refine List.nodup_append.2 ⟨ids, List.nodup_singleton _, fun i hi j hj => ?_⟩
      obtain ⟨o, ho, rfl⟩ := List.mem_map.1 hi
      exact List.mem_singleton.1 hj ▸ (hfree o ho).1

theorem nodup_ids_replace (now : Instant) (read : Definition) (previous : Option Definition)
    (triggerType : Option String) (ids : (db.definitions.map (·.id)).Nodup) :
    ((db.replace now read previous triggerType).2.definitions.map (·.id)).Nodup := by
  unfold replace
  rw [ids_updateDefinition (by exact fun _ => rfl)]
  cases previous with
  | none => exact ids
  | some p =>
    change ((db.updateDefinition p.id _).definitions.map (·.id)).Nodup
    rwa [ids_updateDefinition (by exact fun _ => rfl)]

/-- The graph that an edit writes into the row of a draft, where it differs from what was read. -/
def Edit.graphFor? (e : Edit) (read : Definition) (id : String) : Option Value :=
  if read.id = id ∧ read.status = .known .draft then e.graph.filter fun g => !read.graph.same g
  else none

theorem Edit.apply_graph (e : Edit) (read d : Definition) :
    (e.apply read d).graph = (e.graph.filter fun g => !read.graph.same g).getD d.graph := by
  unfold Edit.apply
  cases e.graph with
  | none => rfl
  | some g => by_cases h : read.graph.same g <;> simp [h, Option.filter]

theorem editDraft_row (now : Instant) {read : Definition} (draft : read.status = .known .draft)
    (e : Edit) (h : db.definition? id = some row) :
    ∃ row', (db.editDraft now read e).2.definition? id = some row'
      ∧ row'.graph = (e.graphFor? read id).getD row.graph ∧ row'.status = row.status := by
  have hid := id_of_definition? h
  unfold editDraft
  split
  · have hrow : (db.updateDefinition read.id fun d =>
        { e.apply read d with updatedAt := now }).definition? id = some _ :=
      definition?_updateDefinition (by exact fun _ => rfl) h read.id
    refine ⟨_, hrow, ?_, ?_⟩
    · by_cases heq : read.id = id
      · simp [Edit.graphFor?, heq, hid, draft, Edit.apply_graph]
      · simp [Edit.graphFor?, heq, hid, Ne.symm heq]
    · split <;> rfl
  · rename_i same
    refine ⟨row, h, ?_, rfl⟩
    have hnone : e.graph.filter (fun g => !read.graph.same g) = none := by
      simp only [Edit.changes, Bool.or_eq_true, not_or] at same
      cases hgraph : e.graph with
      | none => rfl
      | some g => simpa [hgraph] using same.1.1
    simp [Edit.graphFor?, hnone]

theorem insertDefinition_row {new a : Definition}
    (hnew : db.insertDefinition new = .ok (a, db')) (h : db.definition? id = some row) :
    db'.definition? id = some row := by
  obtain ⟨-, rfl, -⟩ := insertDefinition_spec hnew
  rw [definition?, List.find?_append]
  exact congrArg (Option.or · _) h

/-- An edit writes its graph into the row that was read, if that was a draft, and no other row. -/
theorem writeDraft_row {now : Instant} {new : String} {read a : Definition} {e : Edit}
    (hwrite : db.writeDraft now new read e = .ok (a, db')) (h : db.definition? id = some row) :
    ∃ row', db'.definition? id = some row'
      ∧ row'.graph = (e.graphFor? read id).getD row.graph ∧ row'.status = row.status := by
  rw [writeDraft] at hwrite
  split at hwrite
  · rename_i draft
    obtain rfl : (db.editDraft now read e).2 = db' := congrArg Prod.snd (Except.ok.inj hwrite)
    exact editDraft_row now draft e h
  · rename_i left
    simp only [beginDraft, bind, Except.bind] at hwrite
    split at hwrite
    · cases hwrite
    · exact ⟨row, insertDefinition_row hwrite h, by simp [Edit.graphFor?, left], rfl⟩

/-- To publish a draft leaves all graphs as they are. -/
theorem replace_row (now : Instant) (read : Definition) (previous : Option Definition)
    (triggerType : Option String) (h : db.definition? id = some row) :
    ∃ row', (db.replace now read previous triggerType).2.definition? id = some row'
      ∧ row'.graph = row.graph ∧ (read.id = id → row'.status = .known .published) := by
  have hrelease (freed : Database) {o : Definition} (ho : freed.definition? id = some o) :
      ∃ row', (freed.updateDefinition read.id fun d =>
          { d with
            status := .known .published
            triggerType := triggerType.or d.triggerType
            publishedAt := some now
            updatedAt := now }).definition? id = some row'
        ∧ row'.graph = o.graph ∧ (read.id = id → row'.status = .known .published) := by
    refine ⟨_, definition?_updateDefinition (by exact fun _ => rfl) ho read.id, ?_, fun heq => ?_⟩
    · split <;> rfl
    · rw [if_pos (by simp [heq, id_of_definition? ho])]
  cases previous with
  | none => exact hrelease db h
  | some p =>
    have harchive : (db.setStatus now p.id .archived).definition? id = some _ :=
      definition?_updateDefinition (by exact fun _ => rfl) h p.id
    obtain ⟨row', hrow', hgraph, hstatus⟩ := hrelease _ harchive
    refine ⟨row', hrow', hgraph.trans ?_, hstatus⟩
    split <;> rfl

end Database

/-! ## Sessions -/

/-- The part of saving an edit that comes after the newest version was read. -/
def Engine.saveRead (env : Environment σ) (workflow : String) (read : Definition)
    (edit : Database.Edit) : Engine σ Definition := do
  let id ← freshId env (.definition workflow (read.version + 1))
  commit fun time => Database.writeDraft time id read edit

/-- A draft that is reviewed: its graph, and the answers about what this refers to. -/
structure Review where
  draft : Definition
  graph : Graph
  answers : List (Except Failure Bool)

/-- How far the session has come that publishes the workflow. -/
inductive Publisher where
  | waiting
  | asking (r : Review)
  | replacing (r : Review) (previous : Option Definition)
  | writing (r : Review) (previous : Option Definition)
  | published (r : Review)
  | refused (f : Failure)

/-- How far a session has come that saves an edit of the workflow. -/
inductive Editor where
  | waiting (edit : Database.Edit)
  | reading (edit : Database.Edit) (read : Definition)
  | writing (edit : Database.Edit) (read : Definition)
  | done

/-- A workflow on which sessions work at the same time. -/
structure Desk (σ : Type) where
  world : World σ
  publisher : Publisher
  editors : List Editor

/-- Whose turn it is. -/
inductive Turn where
  | publisher
  | editor (n : Nat)

/-- One statement of the session that publishes, or one question. -/
def Publisher.turn (env : Environment σ) (workflow organization : String) (w : World σ) :
    Publisher → Publisher × World σ
  | .waiting =>
    match w.db.latest workflow organization with
    | .error f => (.refused f, w)
    | .ok d =>
      if d.status = .known .draft then
        match checkStructure d.graph with
        | ⟨[], some g⟩ => (.asking ⟨d, g, []⟩, w)
        | v => (.refused (Engine.rejection workflow d v.defects), w)
      else (.refused (.conflict ("Workflow " ++ workflow ++ " has no draft to publish")), w)
  | .asking r =>
    match r.graph.references[r.answers.length]? with
    | some reference =>
      let asked := (Engine.referenceExists env organization reference).run w
      (.asking { r with answers := r.answers ++ [asked.1] }, asked.2)
    | none =>
      match Graph.Reference.defects r.graph.references r.answers with
      | [] => (.replacing r (w.db.published? r.draft.workflow r.draft.organization), w)
      | defects => (.refused (Engine.rejection workflow r.draft defects), w)
  | .replacing r previous => (.writing r previous, w)
  | .writing r previous =>
    (.published r, ((Engine.commit fun time db =>
      .ok (db.replace time r.draft previous (Engine.triggerName r.graph))).run w).2)
  | p => (p, w)

/-- One statement of a session that saves an edit. -/
def Editor.turn (env : Environment σ) (workflow organization : String) (w : World σ) :
    Editor → Editor × World σ
  | .waiting edit =>
    match w.db.latest workflow organization with
    | .error _ => (.done, w)
    | .ok read => (.reading edit read, w)
  | .reading edit read => (.writing edit read, w)
  | .writing edit read => (.done, ((Engine.saveRead env workflow read edit).run w).2)
  | .done => (.done, w)

/-- The graph that the next turn of an editor writes into a row. -/
def Editor.saves? (id : String) : Editor → Option Value
  | .writing edit read => edit.graphFor? read id
  | _ => none

namespace Desk

variable (env : Environment σ) (workflow organization : String)

/-- The desk after a turn. -/
def turn (d : Desk σ) : Turn → Desk σ
  | .publisher =>
    let (p, after) := d.publisher.turn env workflow organization d.world
    { d with publisher := p, world := after }
  | .editor n =>
    match d.editors[n]? with
    | none => d
    | some e =>
      let (e', after) := e.turn env workflow organization d.world
      { d with editors := d.editors.set n e', world := after }

/-- The desk after turns. -/
def run (d : Desk σ) (turns : List Turn) : Desk σ := turns.foldl (turn env workflow organization) d

/-- The graph that a turn writes into a row. -/
def save? (d : Desk σ) (id : String) : Turn → Option Value
  | .publisher => none
  | .editor n => d.editors[n]?.bind (·.saves? id)

/-- The graphs that turns write into a row, one after the other. -/
def saves (id : String) : Desk σ → List Turn → List Value
  | _, [] => []
  | d, t :: turns =>
    (d.save? id t).toList ++ saves id (d.turn env workflow organization t) turns

end Desk

/-! ## What turns do to a row -/

section Turns

variable {env : Environment σ} {workflow organization : String}

/-- A save changes the database as the edit does, or not at all where it cannot begin a draft. -/
theorem Engine.db_saveRead (read : Definition) (edit : Database.Edit) (w : World σ) :
    (read.status ≠ .known .draft ∧ ((saveRead env workflow read edit).run w).2.db = w.db) ∨
      ∃ now new a, w.db.writeDraft now new read edit
        = .ok (a, ((saveRead env workflow read edit).run w).2.db) := by
  obtain ⟨new, host, hfresh⟩ : ∃ new host,
      (freshId env (.definition workflow (read.version + 1))).run w
        = (.ok new, { w with host := host }) := ⟨_, _, rfl⟩
  unfold saveRead
  rw [run_bind, hfresh]
  dsimp only
  rw [run_commit]
  split
  · rename_i a db hwrite
    exact .inr ⟨_, _, a, hwrite⟩
  · rename_i f hrefused
    refine .inl ⟨fun draft => ?_, rfl⟩
    rw [Database.writeDraft, if_pos draft] at hrefused
    cases hrefused

/-- What a turn makes of the rows: each stays under its id, with the graph that is saved in it if
there is one, and with its status unless the turn publishes. -/
structure Turned (saved : String → Option Value) (publishes : Prop) (db db' : Database) : Prop where
  ids : (db.definitions.map (·.id)).Nodup → (db'.definitions.map (·.id)).Nodup
  row : ∀ {id row}, db.definition? id = some row → ∃ row', db'.definition? id = some row'
    ∧ row'.graph = (saved id).getD row.graph ∧ (publishes ∨ row'.status = row.status)

theorem Turned.of_definitions_eq {publishes : Prop} {db db' : Database}
    (h : db'.definitions = db.definitions) : Turned (fun _ => none) publishes db db' where
  ids := by rw [h]; exact id
  row {id row} hrow := ⟨row, by rw [Database.definition?, h]; exact hrow, rfl, .inr rfl⟩

/-- Whether the next turn of a publisher is the one that publishes. -/
def Publisher.Writes : Publisher → Prop
  | .writing .. => True
  | _ => False

theorem Publisher.turned (p : Publisher) (w : World σ) :
    Turned (fun _ => none) p.Writes w.db (p.turn env workflow organization w).2.db := by
  unfold turn
  split
  · split
    · exact .of_definitions_eq rfl
    · split
      · split <;> exact .of_definitions_eq rfl
      · exact .of_definitions_eq rfl
  · rename_i r
    split
    · rename_i reference _
      have hconcedes := (Engine.run_referenceExists env organization reference w).1
      exact .of_definitions_eq hconcedes.definitions_eq
    · split <;> exact .of_definitions_eq rfl
  · exact .of_definitions_eq rfl
  · rename_i r previous
    rw [Engine.run_commit]
    refine ⟨Database.nodup_ids_replace _ _ _ _, fun hrow => ?_⟩
    obtain ⟨row', hrow', hgraph, -⟩ := Database.replace_row (w.clock.later 1) r.draft previous
      (Engine.triggerName r.graph) hrow
    exact ⟨row', hrow', hgraph, .inl trivial⟩
  · exact .of_definitions_eq rfl

theorem Editor.turned (e : Editor) (w : World σ) :
    Turned (fun id => e.saves? id) False w.db (e.turn env workflow organization w).2.db := by
  cases e with
  | waiting edit =>
    unfold turn
    dsimp only
    split <;> exact .of_definitions_eq rfl
  | reading edit read => exact .of_definitions_eq rfl
  | done => exact .of_definitions_eq rfl
  | writing edit read =>
    rcases Engine.db_saveRead read edit w with ⟨left, hsame⟩ | ⟨now, new, a, hwrite⟩
    · have hnone : (fun id => edit.graphFor? read id) = fun _ => none :=
        funext fun id => if_neg fun h => left h.2
      change Turned (fun id => edit.graphFor? read id) False _ _
      rw [hnone]
      exact .of_definitions_eq (congrArg _ hsame)
    · refine ⟨Database.nodup_ids_writeDraft hwrite, fun hrow => ?_⟩
      obtain ⟨row', hrow', hgraph, hstatus⟩ := Database.writeDraft_row hwrite hrow
      exact ⟨row', hrow', hgraph, .inr hstatus⟩

namespace Desk

variable {d : Desk σ}

theorem turned (d : Desk σ) (t : Turn) :
    Turned (fun id => d.save? id t) (t = .publisher ∧ d.publisher.Writes) d.world.db
      (d.turn env workflow organization t).world.db := by
  cases t with
  | publisher =>
    refine ⟨(d.publisher.turned d.world).ids, fun hrow => ?_⟩
    obtain ⟨row', hrow', hgraph, hstatus⟩ := (d.publisher.turned d.world).row hrow
    exact ⟨row', hrow', hgraph, hstatus.imp_left fun h => ⟨rfl, h⟩⟩
  | editor n =>
    cases hn : d.editors[n]? with
    | none =>
      simp only [turn, save?, hn]
      exact .of_definitions_eq rfl
    | some e =>
      simp only [turn, save?, hn]
      refine ⟨(e.turned d.world).ids, fun hrow => ?_⟩
      obtain ⟨row', hrow', hgraph, hstatus⟩ := (e.turned d.world).row hrow
      exact ⟨row', hrow', hgraph, hstatus.imp_left False.elim⟩

@[simp]
theorem run_nil (d : Desk σ) : d.run env workflow organization [] = d := rfl

theorem run_cons (t : Turn) (turns : List Turn) (d : Desk σ) :
    d.run env workflow organization (t :: turns)
      = (d.turn env workflow organization t).run env workflow organization turns := rfl

theorem run_append (turns turns' : List Turn) (d : Desk σ) :
    d.run env workflow organization (turns ++ turns')
      = (d.run env workflow organization turns).run env workflow organization turns' :=
  List.foldl_append

theorem nodup_ids_run (turns : List Turn) {d : Desk σ}
    (ids : (d.world.db.definitions.map (·.id)).Nodup) :
    ((d.run env workflow organization turns).world.db.definitions.map (·.id)).Nodup := by
  induction turns generalizing d with
  | nil => exact ids
  | cons t turns ih => exact ih ((d.turned t).ids ids)

variable (env workflow organization) in
/-- The graph in a row is the one that was saved in it last. -/
theorem row_run (turns : List Turn) {d : Desk σ} {id : String} {row : Definition}
    (h : d.world.db.definition? id = some row) :
    ∃ row', (d.run env workflow organization turns).world.db.definition? id = some row'
      ∧ row'.graph = (saves env workflow organization id d turns).getLastD row.graph := by
  induction turns generalizing d row with
  | nil => exact ⟨row, h, rfl⟩
  | cons t turns ih =>
    obtain ⟨next, hnext, hgraph, -⟩ := (d.turned t).row h
    obtain ⟨row', hrow', hgraph'⟩ := ih hnext
    refine ⟨row', hrow', ?_⟩
    rw [hgraph', hgraph, saves]
    cases d.save? id t with
    | none => rfl
    | some g => exact List.getLastD_cons.symm

end Desk

/-! ## What is accepted -/

/-- A draft without structural defects. -/
structure Review.Sound (r : Review) : Prop where
  draft : r.draft.status = .known .draft
  sound : checkStructure r.draft.graph = ⟨[], some r.graph⟩

/-- All that the graph refers to was asked about and confirmed. -/
structure Review.Confirmed (r : Review) : Prop where
  complete : r.answers.length = r.graph.references.length
  confirmed : ∀ a ∈ r.answers, a = .ok true

/-- The review of a publisher that has found a draft. -/
def Publisher.review? : Publisher → Option Review
  | .asking r => some r
  | .replacing r _ => some r
  | .writing r _ => some r
  | .published r => some r
  | _ => none

/-- What a publisher knows about the draft it has found. -/
def Publisher.Informed : Publisher → Prop
  | .asking r => r.Sound ∧ r.answers.length ≤ r.graph.references.length
  | .replacing r _ => r.Sound ∧ r.Confirmed
  | .writing r _ => r.Sound ∧ r.Confirmed
  | .published r => r.Sound ∧ r.Confirmed
  | _ => True

theorem Publisher.informed_turn {p : Publisher} (h : p.Informed) (w : World σ) :
    (p.turn env workflow organization w).1.Informed := by
  unfold turn
  split
  · split
    · trivial
    · split
      · rename_i draft
        split
        · rename_i g sound
          exact ⟨⟨draft, sound⟩, Nat.zero_le _⟩
        · trivial
      · trivial
  · rename_i r
    obtain ⟨sound, hlength⟩ := h
    split
    · rename_i reference hreference
      refine ⟨⟨sound.draft, sound.sound⟩, ?_⟩
      have := (List.getElem?_eq_some_iff.1 hreference).1
      rw [List.length_append, List.length_singleton]
      exact this
    · rename_i hnone
      have hcomplete : r.answers.length = r.graph.references.length :=
        Nat.le_antisymm hlength (List.getElem?_eq_none_iff.1 hnone)
      split
      · rename_i hdefects
        exact ⟨sound, hcomplete, (Graph.Reference.defects_eq_nil_iff hcomplete).1 hdefects⟩
      · trivial
  · exact h
  · exact h
  · exact h

/-- A review is of the draft that was the newest version when it was read. -/
theorem Publisher.review?_turn {p : Publisher} {w : World σ} {r : Review}
    (h : (p.turn env workflow organization w).1.review? = some r) :
    (p = .waiting ∧ w.db.latest workflow organization = .ok r.draft) ∨
      ∃ before, p.review? = some before ∧ before.draft = r.draft := by
  cases p with
  | waiting =>
    refine .inl ⟨rfl, ?_⟩
    unfold turn at h
    cases hread : w.db.latest workflow organization with
    | error f => simp [hread, review?] at h
    | ok d =>
      simp only [hread] at h
      split at h
      · split at h
        · rename_i g _
          obtain rfl : Review.mk d g [] = r := Option.some.inj h
          rfl
        · cases h
      · cases h
  | asking before =>
    refine .inr ⟨before, rfl, ?_⟩
    unfold turn at h
    dsimp only at h
    split at h
    · have hreview := congrArg Review.draft (Option.some.inj h)
      exact hreview
    · split at h
      · exact congrArg Review.draft (Option.some.inj h)
      · cases h
  | replacing before previous => exact .inr ⟨before, rfl, congrArg Review.draft (Option.some.inj h)⟩
  | writing before previous => exact .inr ⟨before, rfl, congrArg Review.draft (Option.some.inj h)⟩
  | published before => exact .inr ⟨before, rfl, congrArg Review.draft (Option.some.inj h)⟩
  | refused f => cases h

/-- A publisher has published when it writes what it has accepted. -/
theorem Publisher.published_turn {p : Publisher} {w : World σ} {r : Review}
    (h : (p.turn env workflow organization w).1 = .published r) :
    p = .published r ∧ (p.turn env workflow organization w).2 = w ∨
      ∃ now previous triggerType, (p.turn env workflow organization w).2.db
        = (w.db.replace now r.draft previous triggerType).2 := by
  cases p with
  | waiting =>
    unfold turn at h
    dsimp only at h
    split at h
    · cases h
    · split at h
      · split at h <;> cases h
      · cases h
  | asking before =>
    unfold turn at h
    dsimp only at h
    split at h
    · cases h
    · split at h <;> cases h
  | replacing before previous => cases h
  | writing before previous =>
    obtain rfl : before = r := Publisher.published.inj h
    refine .inr ⟨w.clock.later 1, previous, Engine.triggerName before.graph, ?_⟩
    simp only [turn, Engine.run_commit]
  | published before => exact .inl ⟨h, rfl⟩
  | refused f => cases h

namespace Desk

theorem publisher_turn_editor (n : Nat) (d : Desk σ) :
    (d.turn env workflow organization (.editor n)).publisher = d.publisher := by
  cases hn : d.editors[n]? <;> simp only [turn, hn]

variable (env workflow organization) in
/-- What is published was the newest version when the publisher read it, and was accepted. -/
theorem review_run (turns : List Turn) {d : Desk σ} (waiting : d.publisher = .waiting) :
    (d.run env workflow organization turns).publisher.Informed ∧
      ∀ r, (d.run env workflow organization turns).publisher.review? = some r →
        ∃ before after, turns = before ++ .publisher :: after ∧
          (d.run env workflow organization before).publisher = .waiting ∧
          (d.run env workflow organization before).world.db.latest workflow organization
            = .ok r.draft := by
  induction turns using List.reverseRecOn with
  | nil =>
    rw [run, List.foldl_nil, waiting]
    exact ⟨trivial, fun r h => by cases h⟩
  | append_singleton turns t ih =>
    obtain ⟨informed, found⟩ := ih
    rw [run_append]
    cases t with
    | publisher =>
      refine ⟨Publisher.informed_turn informed _, fun r h => ?_⟩
      rcases Publisher.review?_turn h with ⟨unread, hread⟩ | ⟨earlier, hearlier, hdraft⟩
      · exact ⟨turns, [], rfl, unread, hread⟩
      · obtain ⟨before, after, rfl, unread, hread⟩ := found earlier hearlier
        exact ⟨before, after ++ [.publisher], by simp, unread, hdraft ▸ hread⟩
    | editor n =>
      have hsame : ((d.run env workflow organization turns).turn env workflow organization
          (.editor n)).publisher = (d.run env workflow organization turns).publisher :=
        publisher_turn_editor n _
      rw [run_cons, run_nil, hsame]
      refine ⟨informed, fun r h => ?_⟩
      obtain ⟨before, after, rfl, unread, hread⟩ := found r h
      exact ⟨before, after ++ [.editor n], by simp, unread, hread⟩

/-- The row is there, and it is published if it is what the publisher has published. -/
def Shows (d : Desk σ) (id : String) : Prop :=
  ∃ row, d.world.db.definition? id = some row ∧
    ∀ r, d.publisher = .published r → r.draft.id = id → row.status = .known .published

theorem Shows.turn {d : Desk σ} {id : String} (h : d.Shows id) (t : Turn) :
    (d.turn env workflow organization t).Shows id := by
  obtain ⟨row, hrow, hpublished⟩ := h
  obtain ⟨row', hrow', -, hstatus⟩ := (d.turned t).row hrow
  refine ⟨row', hrow', fun r hr hid => ?_⟩
  cases t with
  | publisher =>
    rcases Publisher.published_turn hr with ⟨already, hsame⟩ | ⟨now, previous, triggerType, hdb⟩
    · obtain rfl : row = row' := Option.some.inj (hrow.symm.trans (congrArg
        (fun w : World σ => w.db.definition? id) hsame ▸ hrow'))
      exact hpublished r already hid
    · obtain ⟨o, ho, -, hreleased⟩ :=
        Database.replace_row now r.draft previous triggerType hrow
      obtain rfl : o = row' := Option.some.inj (ho.symm.trans (congrArg
        (fun db : Database => db.definition? id) hdb ▸ hrow'))
      exact hreleased hid
  | editor n =>
    rw [publisher_turn_editor] at hr
    rw [hstatus.resolve_left fun h => by cases h.1]
    exact hpublished r hr hid

theorem Shows.run {d : Desk σ} {id : String} (h : d.Shows id) (turns : List Turn) :
    (d.run env workflow organization turns).Shows id := by
  induction turns generalizing d with
  | nil => exact h
  | cons t turns ih => exact ih (h.turn t)

/-- Sessions may take their turns in any order. What is published was accepted when it was read, and
its graph is the one that was saved in its row last since then. -/
theorem published_graph (turns : List Turn) {d : Desk σ} (waiting : d.publisher = .waiting)
    (ids : (d.world.db.definitions.map (·.id)).Nodup) {r : Review}
    (h : (d.run env workflow organization turns).publisher = .published r) :
    r.Sound ∧ r.Confirmed ∧
      ∃ before after, turns = before ++ .publisher :: after ∧
        (d.run env workflow organization before).publisher = .waiting ∧
        (d.run env workflow organization before).world.db.latest workflow organization
          = .ok r.draft ∧
        ∃ row, (d.run env workflow organization turns).world.db.definition? r.draft.id
            = some row ∧
          row.status = .known .published ∧
          row.graph = (saves env workflow organization r.draft.id
            (d.run env workflow organization before) (.publisher :: after)).getLastD
              r.draft.graph := by
  obtain ⟨informed, found⟩ := review_run env workflow organization turns waiting
  rw [h] at informed
  obtain ⟨before, after, rfl, unread, hread⟩ := found r (congrArg Publisher.review? h)
  rw [run_append] at h ⊢
  have hrow : (d.run env workflow organization before).world.db.definition? r.draft.id
      = some r.draft :=
    Database.find?_key (nodup_ids_run before ids) (Database.mem_of_latest hread)
  have hshows : (d.run env workflow organization before).Shows r.draft.id :=
    ⟨r.draft, hrow, fun r' hr' => by rw [unread] at hr'; cases hr'⟩
  obtain ⟨row, hlast, hgraph⟩ := row_run env workflow organization (.publisher :: after) hrow
  obtain ⟨row', hrow', hstatus⟩ := hshows.run (.publisher :: after)
  obtain rfl : row = row' := Option.some.inj (hlast.symm.trans hrow')
  exact ⟨informed.1, informed.2, before, after, rfl, unread, hread, row, hlast, hstatus r h rfl,
    hgraph⟩

end Desk

end Turns

/-- Whether the workflow was published. -/
def Publisher.hasPublished : Publisher → Bool
  | .published _ => true
  | _ => false

theorem Publisher.exists_of_hasPublished {p : Publisher} (h : p.hasPublished) :
    ∃ r, p = .published r := by
  cases p with
  | published r => exact ⟨r, rfl⟩
  | _ => cases h

namespace Desk

/-- Sessions on the workflow of `drafted`, of which one changes its name and one empties it. -/
def contended : Desk Unit :=
  ⟨drafted, .waiting,
    [.waiting { name := some "Break" }, .waiting { graph := some Database.emptyGraph }]⟩

theorem waiting_contended : contended.publisher = .waiting := rfl

/-- The workflow gets its name while the publisher asks. -/
def whileRenamed : List Turn :=
  .publisher :: List.replicate 3 (.editor 0) ++ List.replicate 4 .publisher

/-- The workflow is emptied while the publisher asks. -/
def whileEmptied : List Turn :=
  .publisher :: List.replicate 3 (.editor 1) ++ List.replicate 4 .publisher

/-- The name, the status and the soundness of each version. -/
def versions (d : Desk Unit) : List (String × RowStatus × Bool) :=
  d.world.db.definitions.map fun o => (o.name, o.status, (checkStructure o.graph).isOk)

/-- Under its new name, the workflow is published with the graph that was accepted. -/
theorem published_graph_of_renamed :
    (contended.run versioning "pause" "o-1" whileRenamed).versions
        = [("Break", .known .published, true)] ∧
      ∃ r row, (contended.run versioning "pause" "o-1" whileRenamed).publisher = .published r ∧
        r.Sound ∧ r.Confirmed ∧
        (contended.run versioning "pause" "o-1" whileRenamed).world.db.definition? r.draft.id
          = some row ∧ row.status = .known .published := by
  have ids : (contended.world.db.definitions.map (·.id)).Nodup := by decide +kernel
  have hpublished : (contended.run versioning "pause" "o-1" whileRenamed).publisher.hasPublished := by
    decide +kernel
  obtain ⟨r, hr⟩ := Publisher.exists_of_hasPublished hpublished
  obtain ⟨sound, confirmed, -, -, -, -, -, row, hrow, hstatus, -⟩ :=
    published_graph whileRenamed waiting_contended ids hr
  exact ⟨by decide +kernel, r, row, hr, sound, confirmed, hrow, hstatus⟩

/-- The workflow is published with another graph than the one that was accepted, and with an unsound
one. A session that has read the draft empties the version that is published, too. -/
theorem accepted_graph_replaced :
    (∃ r, (contended.run versioning "pause" "o-1" whileEmptied).publisher = .published r ∧
      r.Sound ∧ ∀ row, (contended.run versioning "pause" "o-1" whileEmptied).world.db.definition?
          r.draft.id = some row →
        row.graph ≠ r.draft.graph ∧ ¬(checkStructure row.graph).isOk) ∧
    (contended.run versioning "pause" "o-1"
        (.editor 1 :: List.replicate 5 .publisher)).versions
      = [("Pause", .known .published, true)] ∧
    (contended.run versioning "pause" "o-1"
        (.editor 1 :: List.replicate 5 .publisher ++ List.replicate 2 (.editor 1))).versions
      = [("Pause", .known .published, false)] := by
  have ids : (contended.world.db.definitions.map (·.id)).Nodup := by decide +kernel
  have hunsound : ((contended.run versioning "pause" "o-1" whileEmptied).world.db.definitions.all
      fun o => !(checkStructure o.graph).isOk) = true := by decide +kernel
  have hpublished : (contended.run versioning "pause" "o-1" whileEmptied).publisher.hasPublished := by
    decide +kernel
  obtain ⟨r, hr⟩ := Publisher.exists_of_hasPublished hpublished
  have sound : r.Sound := by
    have informed := (review_run versioning "pause" "o-1" whileEmptied waiting_contended).1
    rw [hr] at informed
    exact informed.1
  refine ⟨⟨r, hr, sound, fun row hrow => ?_⟩, by decide +kernel, by decide +kernel⟩
  have hrow' : ¬(checkStructure row.graph).isOk := by
    simpa using List.all_eq_true.1 hunsound row (List.mem_of_find?_eq_some hrow)
  exact ⟨fun heq => hrow' (heq ▸ isOk_of_checkStructure sound.sound), hrow'⟩

end Desk

section Alone

variable {env : Environment σ} {workflow organization : String}

/-! ## Sessions that are left alone -/

/-- How a session that publishes has ended. -/
inductive Publisher.Ends : Publisher → Except Failure Definition → Prop
  | published (r : Review) (d : Definition) : Ends (.published r) (.ok d)
  | refused (f : Failure) : Ends (.refused f) (.error f)

namespace Desk

variable (env workflow organization) in
/-- Nobody else takes a turn while the publisher asks. -/
theorem run_asking (draft : Definition) (g : Graph) (editors : List Editor)
    (rest : List Graph.Reference) {asked : List Graph.Reference}
    (hreferences : g.references = asked ++ rest) {answers : List (Except Failure Bool)}
    (hlength : answers.length = asked.length) (w : World σ) :
    (⟨w, .asking ⟨draft, g, answers⟩, editors⟩ : Desk σ).run env workflow organization
        (List.replicate rest.length .publisher)
      = ⟨((Engine.lookUps env organization rest).run w).2,
          .asking ⟨draft, g, answers ++ ((Engine.lookUps env organization rest).run w).1⟩,
          editors⟩ := by
  induction rest generalizing asked answers w with
  | nil =>
    rw [List.length_nil, List.replicate_zero]
    change (⟨w, .asking ⟨draft, g, answers⟩, editors⟩ : Desk σ)
      = ⟨w, .asking ⟨draft, g, answers ++ []⟩, editors⟩
    rw [List.append_nil]
  | cons reference rest ih =>
    have hnext : g.references[answers.length]? = some reference := by
      rw [hreferences, hlength, List.getElem?_append_right (Nat.le_refl _), Nat.sub_self]
      rfl
    have hturn : (⟨w, .asking ⟨draft, g, answers⟩, editors⟩ : Desk σ).turn env workflow organization
        .publisher = ⟨((Engine.referenceExists env organization reference).run w).2,
          .asking ⟨draft, g,
            answers ++ [((Engine.referenceExists env organization reference).run w).1]⟩,
          editors⟩ := by
      simp only [turn, Publisher.turn, hnext]
    rw [List.length_cons, List.replicate_succ, run_cons, hturn,
      ih (hreferences.trans (List.append_assoc asked [reference] rest).symm)
        (by rw [List.length_append, List.length_append, hlength]; rfl),
      Engine.run_lookUps_cons, List.append_assoc, List.singleton_append]

variable (env workflow organization) in
/-- A publisher that is left alone publishes a draft that it has found sound, or it is refused, as
by the request. -/
theorem publishDraft_alone {draft : Definition} {g : Graph} (hdraft : draft.status = .known .draft)
    (sound : checkStructure draft.graph = ⟨[], some g⟩) (editors : List Editor) (w : World σ) :
    ∃ n p, (⟨w, .asking ⟨draft, g, []⟩, editors⟩ : Desk σ).run env workflow organization
        (List.replicate n .publisher)
      = ⟨((Engine.publishDraft env workflow organization draft).run w).2, p, editors⟩ ∧
      p.Ends ((Engine.publishDraft env workflow organization draft).run w).1 := by
  have hasked := run_asking env workflow organization draft g editors g.references
    (List.nil_append _).symm List.length_nil w
  have hlength := Engine.length_lookUps env organization g.references w
  unfold Engine.publishDraft
  rw [Engine.run_bind, Engine.run_validate_of_sound sound]
  rw [List.nil_append] at hasked
  generalize ((Engine.lookUps env organization g.references).run w).1 = answers at *
  generalize ((Engine.lookUps env organization g.references).run w).2 = after at *
  have hlast : g.references[answers.length]? = none :=
    List.getElem?_eq_none (hlength ▸ Nat.le_refl _)
  cases hdefects : Graph.Reference.defects g.references answers with
  | nil =>
    refine ⟨g.references.length + 3, .published ⟨draft, g, answers⟩, ?_, ?_⟩
    · rw [List.replicate_add, run_append, hasked]
      simp only [List.replicate_succ, List.replicate_zero, run_cons, run_nil, turn, Publisher.turn,
        hlast, hdefects, Validation.isOk, List.isEmpty_nil, if_true, Option.bind_some,
        Engine.run_commit, Database.markPublished_eq_replace hdraft]
    · simp only [Validation.isOk, List.isEmpty_nil, if_true, Engine.run_commit,
        Database.markPublished_eq_replace hdraft]
      exact .published _ _
  | cons defect defects =>
    refine ⟨g.references.length + 1, .refused (Engine.rejection workflow draft (defect :: defects)),
      ?_, .refused _⟩
    rw [List.replicate_add, run_append, hasked]
    simp only [List.replicate_one, run_cons, run_nil, turn, Publisher.turn, hlast, hdefects]
    rfl

/-- A publisher that is left alone publishes the workflow, or it is refused, as by the request. -/
theorem publisher_alone (w : World σ) (editors : List Editor) :
    ∃ n p, (⟨w, .waiting, editors⟩ : Desk σ).run env workflow organization
        (List.replicate n .publisher)
      = ⟨((Engine.publish env workflow organization).run w).2, p, editors⟩ ∧
      p.Ends ((Engine.publish env workflow organization).run w).1 := by
  rw [Engine.run_publish]
  cases hread : w.db.latest workflow organization with
  | error f =>
    refine ⟨1, .refused f, ?_, .refused f⟩
    simp only [List.replicate_one, run_cons, run_nil, turn, Publisher.turn, hread]
  | ok d =>
    dsimp only
    by_cases draft : d.status = .known .draft
    · rw [if_pos draft]
      by_cases hok : (checkStructure d.graph).isOk
      · obtain ⟨g, sound⟩ := exists_of_isOk_checkStructure hok
        have hfirst : (⟨w, .waiting, editors⟩ : Desk σ).turn env workflow organization .publisher
            = ⟨w, .asking ⟨d, g, []⟩, editors⟩ := by
          simp only [turn, Publisher.turn, hread, draft, sound, if_true]
        obtain ⟨n, p, hrun, hends⟩ :=
          publishDraft_alone env workflow organization draft sound editors w
        refine ⟨n + 1, p, ?_, hends⟩
        rw [List.replicate_succ, run_cons, hfirst, hrun]
      · have hfirst : (⟨w, .waiting, editors⟩ : Desk σ).turn env workflow organization .publisher
            = ⟨w, .refused (Engine.rejection workflow d (checkStructure d.graph).defects),
                editors⟩ := by
          simp only [turn, Publisher.turn, hread, draft, if_true]
          split
          · rename_i sound
            exact absurd (isOk_of_checkStructure sound) hok
          · rfl
        have hpublish : (Engine.publishDraft env workflow organization d).run w
            = (.error (Engine.rejection workflow d (checkStructure d.graph).defects), w) := by
          unfold Engine.publishDraft
          rw [Engine.run_bind, Engine.run_validate_of_unsound hok]
          dsimp only
          rw [if_neg hok]
          rfl
        rw [hpublish]
        exact ⟨1, _, hfirst, .refused _⟩
    · rw [if_neg draft]
      refine ⟨1, _, ?_, .refused _⟩
      simp only [List.replicate_one, run_cons, run_nil, turn, Publisher.turn, hread, draft,
        if_false]

/-- Nobody else takes a turn while an editor does. -/
theorem world_run_editor {n : Nat} {e : Editor} (count : Nat) {d : Desk σ}
    (h : d.editors[n]? = some e) :
    (d.run env workflow organization (List.replicate count (.editor n))).world
      = ((fun p : Editor × World σ => p.1.turn env workflow organization p.2)^[count]
          (e, d.world)).2 := by
  induction count generalizing d e with
  | zero => rfl
  | succ count ih =>
    have hin : n < d.editors.length := (List.getElem?_eq_some_iff.1 h).1
    have hturn : d.turn env workflow organization (.editor n)
        = { d with
            editors := d.editors.set n (e.turn env workflow organization d.world).1
            world := (e.turn env workflow organization d.world).2 } := by
      simp only [turn, h]
    rw [List.replicate_succ, run_cons, hturn, Function.iterate_succ_apply]
    exact ih (List.getElem?_set_self hin)

/-- An editor that is left alone saves the edit as the request does. -/
theorem editor_alone {d : Desk σ} {n : Nat} {edit : Database.Edit}
    (waiting : d.editors[n]? = some (.waiting edit)) :
    (d.run env workflow organization (List.replicate 3 (.editor n))).world
      = ((Engine.saveDraft env workflow organization edit).run d.world).2 := by
  rw [world_run_editor 3 waiting]
  unfold Engine.saveDraft
  rw [Engine.run_bind, Engine.run_latest]
  cases hread : d.world.db.latest workflow organization with
  | error f =>
    simp only [Function.iterate_succ_apply, Function.iterate_zero_apply, Editor.turn, hread]
  | ok read =>
    simp only [Function.iterate_succ_apply, Function.iterate_zero_apply, Editor.turn, hread]
    rfl

end Desk

end Alone

end CrmAutomation
