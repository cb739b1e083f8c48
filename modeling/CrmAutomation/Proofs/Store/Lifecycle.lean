import CrmAutomation.Store.Runs
import Mathlib.Data.List.Nodup
import Mathlib.Logic.Relation

/-!
# The life of a run in the database

Nine commands write the table of runs (`RunCommand`), each in one guarded write. `Run.Write` says
once what such a write may do to a row, and `RunCommand.runs_perform` that every command does
this to the rows that are there and adds at most one.

From it follows what every history of commands keeps, whoever gives them and in whatever order
(`Evolves`): the columns of a row agree with its state (`Run.Coherent`), a row that has ended is
never written again, locks do not fall, and a definition and contact have at most one active run.
-/

namespace CrmAutomation

/-! ## Slots -/

/-- A text is determined by its parts before and after the first separator. -/
theorem split_at_separator {α : Type} {s : α} :
    ∀ {a b x y : List α}, s ∉ a → s ∉ b → a ++ s :: x = b ++ s :: y → a = b ∧ x = y
  | [], [], _, _, _, _, h => ⟨rfl, (List.cons.inj h).2⟩
  | [], c :: b, _, _, _, hb, h => by
    simp only [List.nil_append, List.cons_append, List.cons.injEq] at h
    exact absurd (h.1 ▸ List.mem_cons_self) hb
  | c :: a, [], _, _, ha, _, h => by
    simp only [List.nil_append, List.cons_append, List.cons.injEq] at h
    exact absurd (h.1 ▸ List.mem_cons_self) ha
  | c :: a, d :: b, x, y, ha, hb, h => by
    simp only [List.cons_append, List.cons.injEq] at h
    obtain ⟨rfl, h⟩ := h
    simp only [List.mem_cons, not_or] at ha hb
    obtain ⟨rfl, rfl⟩ := split_at_separator ha.2 hb.2 h
    exact ⟨rfl, rfl⟩

/-- Two texts joined by a colon are known from the whole when there is none in the first. -/
theorem colon_join_inj {a b x y : String} (ha : ':' ∉ a.toList) (hb : ':' ∉ b.toList)
    (h : a ++ ":" ++ x = b ++ ":" ++ y) : a = b ∧ x = y := by
  have hl : a.toList ++ ':' :: x.toList = b.toList ++ ':' :: y.toList := by
    simpa using congrArg String.toList h
  obtain ⟨h1, h2⟩ := split_at_separator ha hb hl
  exact ⟨String.toList_injective h1, String.toList_injective h2⟩

theorem activeKeyOf_inj {a b x y : String} (ha : ':' ∉ a.toList) (hb : ':' ∉ b.toList)
    (h : activeKeyOf a x = activeKeyOf b y) : a = b ∧ x = y :=
  colon_join_inj ha hb h

/-! ## Writes to a row -/

namespace Run

/-- The columns of a run agree with its state: it holds its slot while it is active, has a time to
resume while it is suspended, a time of its end once it has ended, and an error once it has
failed. -/
structure Coherent (r : Run) : Prop where
  slot : r.activeKey = if r.state.isActive then some (activeKeyOf r.definition r.contact) else none
  due : r.resumeAt.isSome ↔ r.state = .suspended
  finish : r.completedAt.isSome ↔ r.state.isTerminal
  blame : r.error.isSome ↔ r.state = .failed

/-- What one command may make of a row at the time `now`. -/
inductive Write (now : Instant) (r : Run) : Run → Prop where
  | move (running : r.state = .running) (node : String) :
    Write now r { r with node := node, updatedAt := now }
  | suspend (running : r.state = .running) (node : String) (resumeAt : Instant) :
    Write now r
      { r with node := node, state := .suspended, resumeAt := some resumeAt, updatedAt := now }
  | complete (running : r.state = .running) : Write now r (Database.ended now .completed r.error r)
  | fail (running : r.state = .running) (error : String) :
    Write now r (Database.ended now .failed (some error) r)
  | cancel (active : r.state.isActive) : Write now r (Database.ended now .cancelled r.error r)
  | claim (suspended : r.state = .suspended) :
    Write now r { r with state := .running, resumeAt := none, lock := r.lock + 1, updatedAt := now }
  | release (running : r.state = .running) (resumeAt : Instant) :
    Write now r
      { r with
        state := .suspended
        resumeAt := some resumeAt
        lock := r.lock + 1
        updatedAt := now }
  | takeOver (running : r.state = .running) :
    Write now r { r with lock := r.lock + 1, updatedAt := now }

namespace Write

variable {now : Instant} {r r' : Run}

theorem isActive (h : Write now r r') : r.state.isActive := by
  cases h with
  | cancel active => exact active
  | claim suspended => simp [suspended, RunState.isActive]
  | move running | suspend running | complete running | fail running | release running
  | takeOver running => simp [running, RunState.isActive]

theorem id_eq (h : Write now r r') : r'.id = r.id := by
  cases h <;> rfl

theorem definition_eq (h : Write now r r') : r'.definition = r.definition := by
  cases h <;> rfl

theorem organization_eq (h : Write now r r') : r'.organization = r.organization := by
  cases h <;> rfl

theorem lock_le (h : Write now r r') : r.lock ≤ r'.lock := by
  cases h <;> simp only [Database.ended] <;> omega

/-- A write keeps the slot of a run or frees it. -/
theorem activeKey_eq (h : Write now r r') : r'.activeKey = r.activeKey ∨ r'.activeKey = none := by
  cases h <;> simp [Database.ended]

theorem coherent (h : Write now r r') (hr : r.Coherent) : r'.Coherent := by
  obtain ⟨slot, due, finish, blame⟩ := hr
  cases h with
  | cancel active =>
    refine ⟨by simp [Database.ended, RunState.isActive], by simp [Database.ended],
      by simp [Database.ended, RunState.isTerminal, RunState.isActive], ?_⟩
    have hne : r.state ≠ .failed := by rintro hf; simp [hf, RunState.isActive] at active
    simpa [Database.ended, hne] using blame
  | claim suspended =>
    constructor <;> simp_all [RunState.isTerminal, RunState.isActive]
  | move running | suspend running | complete running | fail running | release running
  | takeOver running =>
    constructor <;> simp_all [Database.ended, RunState.isTerminal, RunState.isActive]

end Write

end Run

/-! ## Rows of a table -/

/-- Where nothing that passes comes after another, at most one passes. -/
theorem length_filter_le_one {α : Type} {p : α → Bool} {l : List α}
    (h : l.Pairwise fun a b => p a → ¬p b) : (l.filter p).length ≤ 1 := by
  have hp := h.filter p
  rcases hl : l.filter p with _ | ⟨a, _ | ⟨b, rest⟩⟩
  · simp
  · simp
  · have hmem : ∀ o ∈ a :: b :: rest, p o := fun o ho => (List.mem_filter.1 (hl ▸ ho)).2
    rw [hl, List.pairwise_cons] at hp
    exact absurd (hmem b (by simp)) (hp.1 b (by simp) (hmem a (by simp)))

namespace Database

/-- A row is found by its key if no two rows share one. -/
theorem find?_key {α : Type} {key : α → String} {l : List α} (h : (l.map key).Nodup) {a : α}
    (ha : a ∈ l) : l.find? (fun o => key o == key a) = some a := by
  have hfound : (l.find? fun o => key o == key a).isSome := List.find?_isSome.2 ⟨a, ha, by simp⟩
  obtain ⟨o, ho⟩ := Option.isSome_iff_exists.1 hfound
  have hkey : key o = key a := by simpa using List.find?_some ho
  rw [ho, List.inj_on_of_nodup_map h (List.mem_of_find?_eq_some ho) ha hkey]

variable {id : String} {guard : Run → Bool} {change : Run → Run} {db : Database} {r : Run}

theorem mem_updateRun (hr : r ∈ db.runs) (h : guard r = false) :
    r ∈ (db.updateRun id guard change).2.runs :=
  List.mem_map.2 ⟨r, hr, by simp [h]⟩

theorem ids_updateRun (hchange : ∀ r, (change r).id = r.id) :
    (db.updateRun id guard change).2.runs.map (·.id) = db.runs.map (·.id) := by
  simp only [updateRun, List.map_map]
  refine List.map_congr_left fun r _ => ?_
  simp only [Function.comp]
  split
  · exact hchange r
  · rfl

/-- A row after a write is a row from before, or the one that was written. -/
theorem exists_of_mem_updateRun (hr : r ∈ (db.updateRun id guard change).2.runs) :
    ∃ o ∈ db.runs, r = o ∨ o.id = id ∧ guard o ∧ r = change o := by
  obtain ⟨o, ho, rfl⟩ := List.mem_map.1 hr
  refine ⟨o, ho, ?_⟩
  split
  · rename_i h
    rw [Bool.and_eq_true, beq_iff_eq] at h
    exact Or.inr ⟨h.1, h.2, rfl⟩
  · exact Or.inl rfl

end Database

/-- A run as it is when it begins. -/
def Run.created (now : Instant) (id : String) (d : Definition) (contact node : String)
    (event : Value) (chainDepth : Int) : Run where
  id := id
  organization := d.organization
  workflow := d.workflow
  definition := d.id
  version := d.version
  contact := contact
  node := node
  state := .running
  resumeAt := none
  startedAt := now
  completedAt := none
  error := none
  event := event
  chainDepth := chainDepth
  lock := 0
  activeKey := some (activeKeyOf d.id contact)
  updatedAt := now

/-- A run is refused if its id or its slot is taken, and else added. -/
theorem Database.createRun_cases (now : Instant) (id : String) (d : Definition)
    (contact node : String) (event : Value) (chainDepth : Int) (db : Database) :
    ((∃ r ∈ db.runs, r.id = id ∨ r.activeKey = some (activeKeyOf d.id contact)) ∧
      db.createRun now id d contact node event chainDepth = (none, db)) ∨
    ((∀ r ∈ db.runs, r.id ≠ id ∧ r.activeKey ≠ some (activeKeyOf d.id contact)) ∧
      db.createRun now id d contact node event chainDepth =
        (some (.created now id d contact node event chainDepth),
          { db with runs := db.runs ++ [.created now id d contact node event chainDepth] })) := by
  simp only [createRun]
  split
  · rename_i taken
    exact Or.inl ⟨by simpa using taken, rfl⟩
  · rename_i free
    exact Or.inr ⟨by simpa using free, rfl⟩

/-! ## Commands -/

/-- A command to the table of runs. -/
inductive RunCommand where
  | create (id : String) (d : Definition) (contact node : String) (event : Value)
      (chainDepth : Int)
  | moveTo (run node : String)
  | suspend (run node : String) (resumeAt : Instant)
  | complete (run : String)
  | fail (run error : String)
  | cancel (run : String)
  | claimSuspended (c : Claim)
  | release (c : Claim) (resumeAt : Instant)
  | claimStale (c : Claim)

namespace RunCommand

/-- The database after a command at the time `now`. -/
def perform (now : Instant) (db : Database) : RunCommand → Database
  | create id d contact node event chainDepth =>
    (db.createRun now id d contact node event chainDepth).2
  | moveTo run node => (db.moveTo now run node).2
  | suspend run node resumeAt => (db.suspend now run node resumeAt).2
  | complete run => (db.complete now run).2
  | fail run error => (db.fail now run error).2
  | cancel run => (db.cancel now run).2
  | claimSuspended c => (db.claimSuspended now c).2
  | release c resumeAt => (db.release now c resumeAt).2
  | claimStale c => (db.claimStale now c).2

/-- The definition of a run to be created is named without a colon. -/
def Named : RunCommand → Prop
  | create _ d _ _ _ _ => ':' ∉ d.id.toList
  | _ => True

/-- A row that a command may add: a running run whose id and slot are free. -/
structure Adds (c : RunCommand) (db : Database) (r : Run) : Prop where
  id_free : r.id ∉ db.runs.map (·.id)
  slot_free : ∀ o ∈ db.runs, o.activeKey ≠ r.activeKey
  coherent : r.Coherent
  named : c.Named → ':' ∉ r.definition.toList

/-- The rows of a guarded write: each stays as it is or is written, and none is added. -/
theorem runs_update {now : Instant} {id : String} {guard : Run → Bool} {change : Run → Run}
    (c : RunCommand) (db : Database) (h : ∀ r, guard r → r.Write now (change r)) :
    ∃ (f : Run → Run) (new : List Run),
      (db.updateRun id guard change).2.runs = db.runs.map f ++ new ∧
      (∀ r, f r = r ∨ r.Write now (f r)) ∧ (new = [] ∨ ∃ r, new = [r] ∧ c.Adds db r) := by
  refine ⟨fun r => if r.id == id && guard r then change r else r, [], ?_, fun r => ?_, Or.inl rfl⟩
  · rw [List.append_nil]
    rfl
  · by_cases hr : (r.id == id && guard r) = true
    · simp only [if_pos hr]
      exact Or.inr (h r (Bool.and_eq_true _ _ ▸ hr).2)
    · simp only [if_neg hr]
      exact Or.inl trivial

theorem running_of_isRunning {r : Run} (h : Database.isRunning r = true) : r.state = .running := by
  simpa [Database.isRunning] using h

/-- The rows after a command: each that was there stays as it is or is written, and at most one is
added. -/
theorem runs_perform (now : Instant) (db : Database) (c : RunCommand) :
    ∃ (f : Run → Run) (new : List Run), (c.perform now db).runs = db.runs.map f ++ new ∧
      (∀ r, f r = r ∨ r.Write now (f r)) ∧ (new = [] ∨ ∃ r, new = [r] ∧ c.Adds db r) := by
  cases c with
  | create id d contact node event chainDepth =>
    simp only [perform, Database.createRun]
    split
    · exact ⟨fun r => r, [], by simp, fun r => Or.inl rfl, Or.inl rfl⟩
    · rename_i taken
      simp only [List.any_eq_true, Bool.or_eq_true, beq_iff_eq, not_exists, not_and, not_or]
        at taken
      refine ⟨fun r => r, [_], by rw [List.map_id'], fun r => Or.inl rfl, Or.inr ⟨_, rfl, ?_⟩⟩
      refine ⟨?_, fun o ho => (taken o ho).2, ?_, fun named => named⟩
      · simpa using fun o ho => (taken o ho).1
      · constructor <;> simp [RunState.isActive, RunState.isTerminal]
  | moveTo run node =>
    exact runs_update _ db fun r h => .move (running_of_isRunning h) node
  | suspend run node resumeAt =>
    exact runs_update _ db fun r h => .suspend (running_of_isRunning h) node resumeAt
  | complete run => exact runs_update _ db fun r h => .complete (running_of_isRunning h)
  | fail run error => exact runs_update _ db fun r h => .fail (running_of_isRunning h) _
  | cancel run => exact runs_update _ db fun r h => .cancel h
  | claimSuspended c =>
    refine runs_update _ db fun r h => ?_
    simp only [Bool.and_eq_true, beq_iff_eq] at h
    exact h.2 ▸ .claim h.1
  | release c resumeAt =>
    refine runs_update _ db fun r h => ?_
    simp only [Bool.and_eq_true, beq_iff_eq] at h
    have hlock : c.lock + 2 = r.lock + 1 := by omega
    exact hlock ▸ .release (running_of_isRunning h.1) resumeAt
  | claimStale c =>
    refine runs_update _ db fun r h => ?_
    simp only [Bool.and_eq_true, beq_iff_eq] at h
    exact h.2 ▸ .takeOver (running_of_isRunning h.1)

/-- A row after a command was there before, as it was or before it was written, or is that of a run
that the command begins. -/
theorem exists_of_mem_perform {now : Instant} {db : Database} {c : RunCommand} {r' : Run}
    (hr' : r' ∈ (c.perform now db).runs) : (∃ r ∈ db.runs, r' = r ∨ r.Write now r') ∨
    ∃ id d contact node event chainDepth, c = .create id d contact node event chainDepth ∧
      (∀ r ∈ db.runs, r.id ≠ id) ∧ r' = .created now id d contact node event chainDepth := by
  obtain ⟨f, new, hruns, hf, -⟩ := c.runs_perform now db
  cases c with
  | create id d contact node event chainDepth =>
    rw [perform] at hr'
    rcases db.createRun_cases now id d contact node event chainDepth with
      ⟨-, heq⟩ | ⟨hfree, heq⟩ <;> rw [heq] at hr'
    · exact Or.inl ⟨r', hr', Or.inl rfl⟩
    · rcases List.mem_append.1 hr' with hr' | hr'
      · exact Or.inl ⟨r', hr', Or.inl rfl⟩
      · exact Or.inr ⟨id, d, contact, node, event, chainDepth, rfl, fun r hr => (hfree r hr).1,
          List.mem_singleton.1 hr'⟩
  | moveTo | suspend | complete | fail | cancel | claimSuspended | release | claimStale =>
    -- A guarded write adds no row.
    have hlength : (db.runs.map f ++ new).length = db.runs.length := hruns ▸ List.length_map _
    obtain rfl : new = [] := by simpa using hlength
    rw [hruns, List.append_nil, List.mem_map] at hr'
    obtain ⟨r, hr, rfl⟩ := hr'
    exact Or.inl ⟨r, hr, hf r⟩

/-- A row is still there after a command, as it was or written. -/
theorem exists_perform (now : Instant) {db : Database} (c : RunCommand) {r : Run}
    (hr : r ∈ db.runs) : ∃ r' ∈ (c.perform now db).runs, r' = r ∨ r.Write now r' := by
  obtain ⟨f, new, hruns, hf, -⟩ := c.runs_perform now db
  exact ⟨f r, hruns ▸ List.mem_append_left _ (List.mem_map_of_mem hr), hf r⟩

/-- No command makes two rows share an id. -/
theorem nodup_ids_perform (now : Instant) {db : Database} (c : RunCommand)
    (h : (db.runs.map (·.id)).Nodup) : ((c.perform now db).runs.map (·.id)).Nodup := by
  obtain ⟨f, new, hruns, hf, hnew⟩ := c.runs_perform now db
  have hid : ∀ r, (f r).id = r.id := fun r => (hf r).elim (congrArg Run.id) Run.Write.id_eq
  have hids : (db.runs.map f).map (·.id) = db.runs.map (·.id) := by simp [hid]
  rw [hruns, List.map_append, hids]
  rcases hnew with rfl | ⟨n, rfl, hadds⟩
  · simpa using h
  · exact List.nodup_append.2 ⟨h, by simp, fun a ha b hb heq =>
      hadds.id_free (by simp at hb; exact hb ▸ heq ▸ ha)⟩

theorem definitions_perform (now : Instant) (db : Database) (c : RunCommand) :
    (c.perform now db).definitions = db.definitions := by
  cases c with
  | create => simp only [perform, Database.createRun]; split <;> rfl
  | moveTo | suspend | complete | fail | cancel | claimSuspended | release | claimStale => rfl

theorem records_perform (now : Instant) (db : Database) (c : RunCommand) :
    (c.perform now db).records = db.records := by
  cases c with
  | create => simp only [perform, Database.createRun]; split <;> rfl
  | moveTo | suspend | complete | fail | cancel | claimSuspended | release | claimStale => rfl

end RunCommand

/-! ## Histories -/

namespace Database

/-- The rows of runs fit together: each agrees with its state, and ids and slots are not shared. -/
structure RunsCoherent (db : Database) : Prop where
  coherent : ∀ r ∈ db.runs, r.Coherent
  ids : (db.runs.map (·.id)).Nodup
  slots : db.runs.Pairwise fun a b => a.activeKey = b.activeKey → a.activeKey = none
  named : ∀ r ∈ db.runs, ':' ∉ r.definition.toList

theorem runsCoherent_of_runs_eq_nil {db : Database} (h : db.runs = []) : db.RunsCoherent := by
  constructor <;> simp [h]

/-- What may happen to a database: a command to the table of runs, or a write to another table. -/
inductive Change (db : Database) : Database → Prop where
  | command (now : Instant) (c : RunCommand) (named : c.Named) : Change db (c.perform now db)
  | elsewhere (db' : Database) (runs_eq : db'.runs = db.runs) : Change db db'

/-- What may become of a database by any number of changes in any order. -/
abbrev Evolves : Database → Database → Prop := Relation.ReflTransGen Change

theorem RunsCoherent.perform {db : Database} (h : db.RunsCoherent) (now : Instant)
    {c : RunCommand} (named : c.Named) : (c.perform now db).RunsCoherent := by
  obtain ⟨f, new, hruns, hf, hnew⟩ := c.runs_perform now db
  have hkey : ∀ r, (f r).activeKey = r.activeKey ∨ (f r).activeKey = none := fun r =>
    (hf r).elim (fun h => Or.inl (congrArg Run.activeKey h)) Run.Write.activeKey_eq
  have hslots : (db.runs.map f).Pairwise fun a b =>
      a.activeKey = b.activeKey → a.activeKey = none := by
    refine List.pairwise_map.2 (h.slots.imp fun {a b} hab heq => ?_)
    rcases hkey a with ha | ha
    · rcases hkey b with hb | hb
      · rw [ha, hb] at heq
        exact ha.trans (hab heq)
      · exact heq.trans hb
    · exact ha
  constructor
  · intro r hr
    rw [hruns, List.mem_append, List.mem_map] at hr
    rcases hr with ⟨o, ho, rfl⟩ | hr
    · rcases hf o with heq | hw
      · exact heq.symm ▸ h.coherent o ho
      · exact hw.coherent (h.coherent o ho)
    · rcases hnew with rfl | ⟨n, rfl, hadds⟩
      · simp at hr
      · exact (List.mem_singleton.1 hr).symm ▸ hadds.coherent
  · exact c.nodup_ids_perform now h.ids
  · rw [hruns]
    rcases hnew with rfl | ⟨n, rfl, hadds⟩
    · simpa using hslots
    · refine List.pairwise_append.2 ⟨hslots, by simp, fun a ha b hb heq => ?_⟩
      obtain ⟨o, ho, rfl⟩ := List.mem_map.1 ha
      rw [List.mem_singleton.1 hb] at heq
      rcases hkey o with hk | hk
      · exact absurd (hk.symm.trans heq) (hadds.slot_free o ho)
      · exact hk
  · intro r hr
    rw [hruns, List.mem_append, List.mem_map] at hr
    rcases hr with ⟨o, ho, rfl⟩ | hr
    · rcases hf o with heq | hw
      · exact heq.symm ▸ h.named o ho
      · exact hw.definition_eq.symm ▸ h.named o ho
    · rcases hnew with rfl | ⟨n, rfl, hadds⟩
      · simp at hr
      · exact (List.mem_singleton.1 hr).symm ▸ hadds.named named

theorem Change.runsCoherent {db db' : Database} (h : Change db db') (hdb : db.RunsCoherent) :
    db'.RunsCoherent := by
  cases h with
  | command now c named => exact hdb.perform now named
  | elsewhere _ runs_eq =>
    obtain ⟨coherent, ids, slots, named⟩ := hdb
    constructor <;> rwa [runs_eq]

theorem Evolves.runsCoherent {db db' : Database} (h : Evolves db db') (hdb : db.RunsCoherent) :
    db'.RunsCoherent := by
  induction h with
  | refl => exact hdb
  | tail _ hstep ih => exact hstep.runsCoherent ih

/-- The row of a run later on: the same run, with no lower lock, and the same row if it has
ended. -/
structure Succeeds (r r' : Run) : Prop where
  id_eq : r'.id = r.id
  lock_le : r.lock ≤ r'.lock
  eq_of_ended : r.state.isTerminal → r' = r

theorem Succeeds.refl (r : Run) : Succeeds r r :=
  ⟨rfl, Int.le_refl _, fun _ => rfl⟩

theorem Succeeds.trans {a b c : Run} (h : Succeeds a b) (h' : Succeeds b c) : Succeeds a c := by
  refine ⟨h'.id_eq.trans h.id_eq, Int.le_trans h.lock_le h'.lock_le, fun hend => ?_⟩
  have hb := h.eq_of_ended hend
  exact (h'.eq_of_ended (hb.symm ▸ hend)).trans hb

theorem Change.succeeds {db db' : Database} (h : Change db db') {r : Run} (hr : r ∈ db.runs) :
    ∃ r' ∈ db'.runs, Succeeds r r' := by
  cases h with
  | elsewhere _ runs_eq => exact ⟨r, runs_eq ▸ hr, .refl r⟩
  | command now c _ =>
    obtain ⟨r', hr', rfl | hw⟩ := c.exists_perform now hr
    · exact ⟨r', hr', .refl r'⟩
    · refine ⟨r', hr', hw.id_eq, hw.lock_le, fun hend => ?_⟩
      simp [RunState.isTerminal, hw.isActive] at hend

theorem Evolves.succeeds {db db' : Database} (h : Evolves db db') {r : Run} (hr : r ∈ db.runs) :
    ∃ r' ∈ db'.runs, Succeeds r r' := by
  induction h with
  | refl => exact ⟨r, hr, .refl r⟩
  | tail _ hstep ih =>
    obtain ⟨o, ho, hs⟩ := ih
    obtain ⟨r', hr', hs'⟩ := hstep.succeeds ho
    exact ⟨r', hr', hs.trans hs'⟩

/-- Whether a run is active for a definition and contact. -/
def isActiveFor (definition contact : String) (r : Run) : Bool :=
  r.state.isActive && r.definition == definition && r.contact == contact

theorem isActiveFor_iff {definition contact : String} {r : Run} :
    isActiveFor definition contact r ↔
      r.state.isActive ∧ r.definition = definition ∧ r.contact = contact := by
  simp [isActiveFor, and_assoc]

namespace RunsCoherent

variable {db : Database} (h : db.RunsCoherent)

include h

theorem activeKey_of_isActiveFor {definition contact : String} {r : Run} (hr : r ∈ db.runs)
    (ha : isActiveFor definition contact r) :
    r.activeKey = some (activeKeyOf definition contact) := by
  obtain ⟨hact, rfl, rfl⟩ := isActiveFor_iff.1 ha
  rw [(h.coherent r hr).slot, if_pos hact]

/-- Of the runs of a definition and contact at most one is active. -/
theorem length_active_le (definition contact : String) :
    (db.runs.filter (isActiveFor definition contact)).length ≤ 1 := by
  refine length_filter_le_one (h.slots.imp_of_mem fun {a b} ha hb hab hactive hactive' => ?_)
  have hkey := h.activeKey_of_isActiveFor ha hactive
  have hkey' := h.activeKey_of_isActiveFor hb hactive'
  simpa [hkey] using hab (hkey.trans hkey'.symm)

/-- The slot of a definition and contact is taken exactly while they have an active run. -/
theorem slot_taken_iff {definition : String} (named : ':' ∉ definition.toList) (contact : String) :
    (∃ r ∈ db.runs, r.activeKey = some (activeKeyOf definition contact)) ↔
      ∃ r ∈ db.runs, isActiveFor definition contact r := by
  constructor
  · rintro ⟨r, hr, hk⟩
    refine ⟨r, hr, isActiveFor_iff.2 ?_⟩
    rw [(h.coherent r hr).slot] at hk
    split at hk
    · rename_i hact
      exact ⟨hact, activeKeyOf_inj (h.named r hr) named (Option.some.inj hk)⟩
    · simp at hk
  · rintro ⟨r, hr, ha⟩
    exact ⟨r, hr, h.activeKey_of_isActiveFor hr ha⟩

/-- A run of which the id is new is refused exactly when its definition and contact have an active
run. -/
theorem createRun_eq_none_iff {now : Instant} {id : String} {d : Definition}
    {contact node : String} {event : Value} {chainDepth : Int} (named : ':' ∉ d.id.toList)
    (fresh : id ∉ db.runs.map (·.id)) :
    (db.createRun now id d contact node event chainDepth).1 = none ↔
      ∃ r ∈ db.runs, isActiveFor d.id contact r := by
  rw [← h.slot_taken_iff named]
  have hfresh : ∀ r ∈ db.runs, r.id ≠ id := by simpa using fresh
  simp only [createRun]
  split
  · rename_i taken
    simp only [List.any_eq_true, Bool.or_eq_true, beq_iff_eq] at taken
    obtain ⟨r, hr, hid | hk⟩ := taken
    · exact absurd hid (hfresh r hr)
    · exact iff_of_true rfl ⟨r, hr, hk⟩
  · rename_i free
    simp only [List.any_eq_true, Bool.or_eq_true, beq_iff_eq, not_exists, not_and, not_or] at free
    refine iff_of_false (by simp) ?_
    rintro ⟨r, hr, hk⟩
    exact (free r hr).2 hk

end RunsCoherent

/-- A refused run changes nothing. -/
theorem createRun_of_eq_none {now : Instant} {id : String} {d : Definition}
    {contact node : String} {event : Value} {chainDepth : Int} {db : Database}
    (h : (db.createRun now id d contact node event chainDepth).1 = none) :
    (db.createRun now id d contact node event chainDepth).2 = db := by
  simp only [createRun] at h ⊢
  split <;> simp_all

/-- Every history of commands keeps the table of runs in order. From a database without runs, and
between any two states of its history: the columns of every row agree with its state, no lock
falls and no row that has ended changes, a definition and contact have at most one active run, and
a run is refused, with nothing changed, exactly when they have one. -/
theorem runs_in_order {start db after : Database} (empty : start.runs = [])
    (before : Evolves start db) (later : Evolves db after) :
    (∀ r ∈ after.runs, r.Coherent) ∧ (after.runs.map (·.id)).Nodup ∧
    (∀ r ∈ db.runs, ∃ r' ∈ after.runs, Succeeds r r') ∧
    (∀ definition contact,
      (after.runs.filter (isActiveFor definition contact)).length ≤ 1) ∧
    ∀ now id (d : Definition) contact node event chainDepth, ':' ∉ d.id.toList →
      id ∉ after.runs.map (·.id) →
      ((after.createRun now id d contact node event chainDepth).1 = none ↔
        ∃ r ∈ after.runs, isActiveFor d.id contact r) ∧
      ((after.createRun now id d contact node event chainDepth).1 = none →
        (after.createRun now id d contact node event chainDepth).2 = after) := by
  have h := later.runsCoherent (before.runsCoherent (runsCoherent_of_runs_eq_nil empty))
  exact ⟨h.coherent, h.ids, fun r hr => later.succeeds hr, h.length_active_le,
    fun _ _ _ _ _ _ _ named fresh =>
      ⟨h.createRun_eq_none_iff named fresh, createRun_of_eq_none⟩⟩

/-- The first version of a workflow. -/
def welcome : Definition :=
  { (default : Definition) with id := "welcome-1", workflow := "welcome", version := 1 }

/-- A database with a run of `welcome`. -/
def begun : Database :=
  (RunCommand.create "run-1" welcome "c-1" "start" .null 0).perform ⟨5⟩ .empty

/-- The same database when the run is suspended. -/
def resting : Database := (RunCommand.suspend "run-1" "wait" ⟨90⟩).perform ⟨7⟩ begun

/-- A suspended run keeps its slot, so a second run of the contact is refused. -/
theorem runs_in_order_of_resting :
    empty.runs = [] ∧ Evolves empty begun ∧ Evolves begun resting ∧
    (∀ r ∈ resting.runs, r.Coherent) ∧
    (resting.runs.filter (isActiveFor "welcome-1" "c-1")).length = 1 ∧
    (resting.createRun ⟨8⟩ "run-2" welcome "c-1" "start" .null 0).1 = none ∧
    (resting.createRun ⟨8⟩ "run-2" welcome "c-1" "start" .null 0).2 = resting := by
  have named : ':' ∉ welcome.id.toList := by decide
  have before : Evolves empty begun := .single (.command _ _ named)
  have later : Evolves begun resting := .single (.command _ _ trivial)
  obtain ⟨coherent, -, -, -, creation⟩ := runs_in_order rfl before later
  obtain ⟨refused, unchanged⟩ :=
    creation ⟨8⟩ "run-2" welcome "c-1" "start" .null 0 named (by decide)
  have taken : ∃ r ∈ resting.runs, isActiveFor "welcome-1" "c-1" r := by
    simpa using (by decide : resting.runs.any (isActiveFor "welcome-1" "c-1") = true)
  exact ⟨rfl, before, later, coherent, by decide, refused.2 taken, unchanged (refused.2 taken)⟩

end Database

end CrmAutomation
