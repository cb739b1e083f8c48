import CrmAutomation.Proofs.Engine.History

/-!
# Where runs stand

The table of runs says where each run stands, and whatever happens to a worker, what is written
there is a walk on the graph of the definition. `Run.Course` says what may become of a row: it is
moved along an edge that leaves its node on the handle of that node, and completed where there is no
such edge. The handle of a condition is the branch of its latest success record at that moment
(`Graph.handle?`). Every effect of a step keeps to it (`Database.Effect.course`), so the whole
history does (`trace_proceeds`).
-/

namespace CrmAutomation

variable {σ : Type} {G : String → Graph → Prop} {scope : Scope} {d d₁ d' : Database}

/-! ## The course of a row -/

/-- What may become of a row `r` of `db`: it is moved only where the graph leads, and completed only
where the graph leads nowhere. -/
structure Run.Course (G : String → Graph → Prop) (db : Database) (r r' : Run) : Prop where
  id_eq : r'.id = r.id
  moved : r'.node ≠ r.node → ∃ g, G r.definition g ∧ g.Follows db r (some r'.node)
  completed : r'.state = .completed → r.state ≠ .completed →
    r'.node = r.node ∧ ∃ g, G r.definition g ∧ g.Follows db r none

/-- A row that stands on the trigger of its graph. -/
def Run.AtTrigger (G : String → Graph → Prop) (r : Run) : Prop :=
  ∃ g trigger, G r.definition g ∧ g.trigger? = some trigger ∧ r.node = trigger.id

namespace Run.Course

variable {r r₁ r' : Run}

theorem stay (hid : r'.id = r.id) (hnode : r'.node = r.node)
    (hstate : r'.state = .completed → r.state = .completed) : r.Course G d r' :=
  ⟨hid, fun h => absurd hnode h, fun h h' => absurd (hstate h) h'⟩

/-- The course of a row is the same whether or not runs were cancelled before. -/
theorem of_conceded (hd : d.Concedes d₁) (hr : r.Conceded r₁) (h : r₁.Course G d₁ r') :
    r.Course G d r' := by
  have hfollows : ∀ (g : Graph) next, g.Follows d₁ r₁ next ↔ g.Follows d r next :=
    fun g next => Graph.Follows.of_concedes hd hr
  obtain ⟨hid, hmoved, hcompleted⟩ := h
  simp only [hfollows, hr.definition_eq, hr.node_eq] at hmoved hcompleted
  refine ⟨hid.trans hr.id_eq, hmoved, fun hstate hopen => hcompleted hstate ?_⟩
  rcases hr.state_eq with heq | heq
  · rwa [heq]
  · simp [heq]

end Run.Course

/-! ## The course of a table -/

/-- A row after a command is a row from before on its course, or a new one on its trigger. -/
theorem RunCommand.course {c : RunCommand} {now : Instant} {r' : Run}
    (allowed : c.Allowed G scope d) (hr' : r' ∈ (c.perform now d).runs) :
    (∃ r ∈ d.runs, r.Course G d r') ∨ r'.id ∉ d.runs.map (·.id) ∧ r'.AtTrigger G := by
  have hstays : r' ∈ d.runs → ∃ r ∈ d.runs, r.Course G d r' :=
    fun h => ⟨r', h, .stay rfl rfl id⟩
  have hwritten : ∀ {id : String} {guard : Run → Bool} {change : Run → Run},
      r' ∈ (d.updateRun id guard change).2.runs →
      (∀ r ∈ d.runs, r.id = id → r.Course G d (change r)) → ∃ r ∈ d.runs, r.Course G d r' := by
    intro id guard change hmem hcourse
    obtain ⟨r, hr, rfl | ⟨hid, -, rfl⟩⟩ := Database.exists_of_mem_updateRun hmem
    · exact hstays hr
    · exact ⟨r, hr, hcourse r hr hid⟩
  cases c with
  | create id definition contact node event chainDepth =>
    obtain ⟨-, g, trigger, hg, htrigger, rfl⟩ := allowed
    simp only [perform, Database.createRun] at hr'
    split at hr'
    · exact Or.inl (hstays hr')
    · rename_i free
      rcases List.mem_append.1 hr' with hr' | hr'
      · exact Or.inl (hstays hr')
      · obtain rfl := List.mem_singleton.1 hr'
        refine Or.inr ⟨?_, g, trigger, hg, htrigger, rfl⟩
        simp only [List.any_eq_true, Bool.or_eq_true, beq_iff_eq, not_exists, not_and, not_or]
          at free
        simpa using fun r hr => (free r hr).1
  | moveTo run node =>
    refine Or.inl (hwritten hr' fun r hr hid => ?_)
    obtain ⟨g, hg, hfollows, -⟩ := allowed r hr hid
    exact ⟨rfl, fun _ => ⟨g, hg, hfollows⟩, fun h h' => absurd h h'⟩
  | complete run =>
    refine Or.inl (hwritten hr' fun r hr hid => ?_)
    obtain ⟨g, hg, hfollows, -⟩ := allowed r hr hid
    exact ⟨rfl, fun h => absurd rfl h, fun _ _ => ⟨rfl, g, hg, hfollows⟩⟩
  | suspend run node =>
    exact Or.inl (hwritten hr' fun r hr hid => .stay rfl (allowed r hr hid).symm (by simp))
  | claimStale => exact Or.inl (hwritten hr' fun r _ _ => .stay rfl rfl id)
  | fail | cancel | claimSuspended | release =>
    exact Or.inl (hwritten hr' fun r _ _ => .stay rfl rfl (by simp [Database.ended]))

/-- What a step does to a row of the table of runs. -/
theorem Database.Effect.course {r' : Run} (h : d.Effect G scope d') (hr' : r' ∈ d'.runs) :
    (∃ r ∈ d.runs, r.Course G d r') ∨ r'.id ∉ d.runs.map (·.id) ∧ r'.AtTrigger G := by
  have hconceded : ∀ {d₁ : Database}, d.Concedes d₁ → (∃ r₁ ∈ d₁.runs, r₁.Course G d₁ r') →
      ∃ r ∈ d.runs, r.Course G d r' := by
    rintro d₁ hd ⟨r₁, hr₁, hcourse⟩
    obtain ⟨r, hr, hc⟩ := hd.exists_before hr₁
    exact ⟨r, hr, hcourse.of_conceded hd hc⟩
  cases h with
  | concede conceded => exact Or.inl (hconceded conceded ⟨r', hr', .stay rfl rfl id⟩)
  | record conceded => exact Or.inl (hconceded conceded ⟨r', hr', .stay rfl rfl id⟩)
  | command conceded now c allowed =>
    exact (c.course allowed hr').imp (hconceded conceded)
      fun hnew => by rwa [conceded.ids_eq] at hnew

/-! ## Histories -/

/-- One database of a history and the next: the rows that are in both keep to their course on the
graphs of their definitions, and the rows that are new stand on triggers. -/
structure Database.Proceeds (d d' : Database) : Prop where
  course : ∀ r ∈ d.runs, ∀ r' ∈ d'.runs, r'.id = r.id → r.Course d.HasGraph d r'
  begun : ∀ r' ∈ d'.runs, r'.id ∉ d.runs.map (·.id) → r'.AtTrigger d.HasGraph

theorem Database.Effect.proceeds (h : d.Effect d.HasGraph scope d')
    (distinct : (d.runs.map (·.id)).Nodup) : d.Proceeds d' := by
  constructor
  · intro r hr r' hr' hid
    rcases h.course hr' with ⟨o, ho, hcourse⟩ | ⟨hnew, -⟩
    · obtain rfl := List.inj_on_of_nodup_map distinct ho hr (hcourse.id_eq.symm.trans hid)
      exact hcourse
    · exact absurd (hid ▸ List.mem_map_of_mem hr) hnew
  · intro r' hr' hnew
    rcases h.course hr' with ⟨o, ho, hcourse⟩ | ⟨-, hbegun⟩
    · exact absurd (hcourse.id_eq ▸ List.mem_map_of_mem ho) hnew
    · exact hbegun

/-- Whatever a worker does and whatever fails, and when, the table of runs tells a walk on the
graphs: a run begins on the trigger, goes from a node only where its graph leads on the handle of
that node, which for a condition is the branch of its latest success record, and is completed only
where the graph leads nowhere on that handle. -/
theorem trace_proceeds (env : Environment σ) (w : World (σ × List Sighting)) (pristine : w.Pristine)
    (ops : List Operation) :
    (performAll env.observed w ops).trace.IsChain Database.Proceeds := by
  have hhistory : Chronicle w.db.HasGraph (performAll env.observed w ops) := pristine.chronicle ops
  refine hhistory.chain.imp_of_mem_imp fun d d' hd _ heffect => ?_
  exact ((hhistory.graphs d hd).symm ▸ heffect).proceeds (hhistory.distinct d hd)

/-- A run that got stuck goes on from where it stands. -/
theorem trace_proceeds_of_opening :
    opening.Pristine ∧
    (performAll troubled.observed opening recovery).trace.IsChain Database.Proceeds ∧
    ((performAll troubled.observed opening recovery).trace.map fun d =>
      d.runs.map fun r => (r.node, r.state)).destutter (· ≠ ·) =
      [[], [("start", .running)], [("mail", .running)], [("mail", .completed)]] :=
  ⟨pristine_opening, trace_proceeds troubled opening pristine_opening recovery, by decide +kernel⟩

end CrmAutomation
