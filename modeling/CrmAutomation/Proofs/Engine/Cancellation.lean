import CrmAutomation.Proofs.Engine.Logs

/-!
# Cancelled runs

A run may be cancelled at any moment of an advance. The advance notices it when it reads the state
of the run again, which it does before every node and every further attempt, or when a guarded write
is refused. Until then it goes on with what it has begun: one attempt at an action, which is
recorded, or the decision of a condition. Afterwards it only tries to fail the run and reads its
state (`WindsUp`).

The proof follows the log of an advance (`Attends`). When the run is found running, nothing that was
seen so far was seen of a cancelled run, so only what comes later has to be accounted for; and what
comes between two such moments is the work at one node.
-/

namespace CrmAutomation

variable {σ α β : Type}

/-! ## What is seen after a cancel -/

/-- Reads of contacts. -/
def AreReads (calls : List ServiceCall) : Prop :=
  ∀ call ∈ calls, ∃ organization contact, call = .getContact organization contact

/-- The calls of one attempt at an action, or the reads that decide a condition. -/
def IsWork (id node : String) (calls : List ServiceCall) : Prop :=
  IsAttempt id node calls ∨ AreReads calls

/-- An advance comes to its end: it finishes its work at the node, without another look at the state
of the run, and then only fails the run and reads its state. -/
def WindsUp (id node : String) (seen : List Sighting) : Prop :=
  ∃ work rest, seen = work ++ rest ∧
    (∀ s ∈ work, s.occasion ≠ .storage .getState) ∧
    (∀ s ∈ rest, s.occasion = .storage .fail ∨ s.occasion = .storage .getState) ∧
    (work.filter (·.isStorage .record)).length ≤ 1 ∧
    ∃ earlier, IsWork id node (earlier ++ work.filterMap Sighting.call?)

/-- What was asked for the run at its node has a record with the number that was the next one. -/
def Noted (id : String) (records : List NodeRecord) (s : Sighting) : Prop :=
  ∀ call, s.occasion = .service call → ∀ r ∈ s.db.runs, r.id = id →
    Database.fitsColumn (s.db.nextAttempt id r.node) →
    ∃ o ∈ records, o.run = id ∧ o.node = r.node ∧ o.attempt = s.db.nextAttempt id r.node

/-- The work at a node so far: what it has asked of the services, and how many records it has made
at most. -/
structure Underway (L : List ServiceCall → Prop) (records : Nat) (work : List Sighting) : Prop where
  unread : ∀ s ∈ work, s.occasion ≠ .storage .getState
  asked : L (work.filterMap Sighting.call?)
  records_le : (work.filter (·.isStorage .record)).length ≤ records

namespace Underway

variable {L M : List ServiceCall → Prop} {n : Nat} {work : List Sighting} {id node : String}

theorem nil (h : L []) : Underway L 0 [] := ⟨by simp, h, by simp⟩

theorem windsUp (h : Underway L n work) (hn : n ≤ 1) (hL : ∀ l, L l → IsWork id node l) :
    WindsUp id node work :=
  ⟨work, [], (List.append_nil _).symm, h.unread, by simp, Nat.le_trans h.records_le hn, [],
    hL _ h.asked⟩

theorem append (made : List Sighting) {m : Nat} (h : Underway L n work)
    (unread : ∀ s ∈ made, s.occasion ≠ .storage .getState)
    (hM : ∀ l, L l → M (l ++ made.filterMap Sighting.call?))
    (records_le : (made.filter (·.isStorage .record)).length ≤ m) :
    Underway M (n + m) (work ++ made) := by
  refine ⟨fun s hs => (List.mem_append.1 hs).elim (h.unread s) (unread s), ?_, ?_⟩
  · rw [List.filterMap_append]
    exact hM _ h.asked
  · rw [List.filter_append, List.length_append]
    exact Nat.add_le_add h.records_le records_le

/-- A call to the database that neither reads the state nor records. -/
theorem append_storage {call : StorageCall} {s : Sighting} (hread : call ≠ .getState)
    (hrecord : call ≠ .record) (hs : s.occasion = .storage call) (h : Underway L n work) :
    Underway L n (work ++ [s]) := by
  have hcall : s.call? = none := by simp [Sighting.call?, hs]
  have hnone : s.isStorage .record = false := by simpa [Sighting.isStorage, hs] using hrecord
  exact h.append [s] (m := 0) (by simp [hs, hread]) (by simp [hcall]) (by simp [hnone])

theorem append_record {s : Sighting} (hs : s.occasion = .storage .record)
    (h : Underway L n work) : Underway L (n + 1) (work ++ [s]) := by
  have hcall : s.call? = none := by simp [Sighting.call?, hs]
  exact h.append [s] (m := 1) (by simp [hs]) (by simp [hcall])
    (List.length_filter_le _ _)

end Underway

theorem areReads_nil : AreReads [] := fun _ h => absurd h List.not_mem_nil

theorem isWork_nil (id node : String) : IsWork id node [] := Or.inr areReads_nil

theorem WindsUp.append {id node : String} {seen : List Sighting} {s : Sighting}
    (h : WindsUp id node seen)
    (hs : s.occasion = .storage .fail ∨ s.occasion = .storage .getState) :
    WindsUp id node (seen ++ [s]) := by
  obtain ⟨work, rest, rfl, unread, hrest, records, calls⟩ := h
  refine ⟨work, rest ++ [s], by simp, unread, fun o ho => ?_, records, calls⟩
  rcases List.mem_append.1 ho with ho | ho
  · exact hrest o ho
  · exact List.mem_singleton.1 ho ▸ hs

/-- What is left at a later moment. -/
theorem WindsUp.of_suffix {id node : String} {seen late : List Sighting}
    (h : WindsUp id node seen) (hlate : late <:+ seen) : WindsUp id node late := by
  obtain ⟨work, rest, rfl, unread, hrest, records, earlier, hcalls⟩ := h
  obtain ⟨gone, hgone⟩ := hlate
  rcases List.append_eq_append_iff.1 hgone with ⟨more, rfl, rfl⟩ | ⟨more, rfl, rfl⟩
  · refine ⟨more, rest, rfl, fun s hs => unread s (List.mem_append_right _ hs), hrest, ?_, ?_⟩
    · rw [List.filter_append, List.length_append] at records
      omega
    · rw [List.filterMap_append, ← List.append_assoc] at hcalls
      exact ⟨_, hcalls⟩
  · exact ⟨[], late, rfl, by simp, fun s hs => hrest s (List.mem_append_right _ hs), by simp,
      earlier ++ work.filterMap Sighting.call?, by simpa using hcalls⟩

namespace Database

theorem le_foldl_max_of_mem {a b : Int} {l : List Int} (h : b ∈ l) : b ≤ l.foldl max a := by
  induction l generalizing a with
  | nil => cases h
  | cons c l ih =>
    rcases List.mem_cons.1 h with rfl | h
    · exact Int.le_trans (Int.le_max_right a b) (le_foldl_max _ l)
    · exact ih h

/-- The next attempt comes after all that are recorded. -/
theorem attempt_lt_nextAttempt {db : Database} {o : NodeRecord} (h : o ∈ db.records) :
    o.attempt < db.nextAttempt o.run o.node := by
  have hmem : o.attempt ∈ (db.recordsOf o.run o.node).map (·.attempt) :=
    List.mem_map_of_mem (List.mem_filter.2 ⟨h, by simp⟩)
  unfold nextAttempt
  split
  · rename_i heq
    simp [heq] at hmem
  · rename_i a rest heq
    rw [heq] at hmem
    rcases List.mem_cons.1 hmem with heq | hmem
    · have := le_foldl_max a rest
      omega
    · have := le_foldl_max_of_mem (a := a) hmem
      omega

/-- The record of a next attempt is refused only if no column can hold its number. -/
theorem fitsColumn_eq_false_of_record {db : Database} {r : NodeRecord} {f : Failure}
    (hnext : r.attempt = db.nextAttempt r.run r.node) (h : db.record r = .error f) :
    fitsColumn r.attempt = false := by
  simp only [record] at h
  split at h
  · rename_i hfits
    simpa using hfits
  · split at h
    · rename_i taken
      obtain ⟨o, ho, hkey⟩ := List.any_eq_true.1 taken
      simp only [Bool.and_eq_true, beq_iff_eq] at hkey
      obtain ⟨⟨hrun, hnode⟩, hattempt⟩ := hkey
      have := attempt_lt_nextAttempt ho
      rw [hrun, hnode, ← hnext] at this
      omega
    · cases h

end Database

/-! ## Following the log -/

/-- The call was made for the run at the node when the attempt was the next one. -/
def Pending (run : Run) (node : String) (number : Int) (s : Sighting) : Prop :=
  ∀ r ∈ s.db.runs, r.id = run.id → r.node = node ∧ s.db.nextAttempt run.id node = number

/-- An advance has its run on the node. What it has seen since the run was last known not to be
cancelled is as `P` says, and all that it has asked before is recorded, or will be as the attempt
that is due. -/
structure Attends (env : Environment σ) (run : Run) (node : String) (P : List Sighting → Prop)
    (due : Option Int) (w : World (σ × List Sighting)) : Prop where
  distinct : Distinct w
  stands : Stands run node w
  orderly : Enduring w
  parted : ∃ before work, w.sightings = before ++ work ∧
    (∀ s ∈ before, Uncancelled run.id s.db) ∧ P work
  noted : env.host.Reliable → ∀ s ∈ w.sightings, Noted run.id w.db.records s ∨
    ∃ number ∈ due, Pending run node number s

namespace Attends

variable {env : Environment σ} {run : Run} {node : String} {P Q : List Sighting → Prop}
  {due : Option Int} {w w' : World (σ × List Sighting)}

theorem mono (h : Attends env run node P due w) (hPQ : ∀ l, P l → Q l) :
    Attends env run node Q due w := by
  obtain ⟨before, work, hsightings, hbefore, hwork⟩ := h.parted
  exact ⟨h.distinct, h.stands, h.orderly, ⟨before, work, hsightings, hbefore, hPQ _ hwork⟩, h.noted⟩

theorem congr (h : Attends env run node P due w) (hdb : w'.db = w.db) (hhost : w'.host = w.host) :
    Attends env run node P due w' := by
  have hsightings : w'.sightings = w.sightings := congrArg Prod.snd hhost
  obtain ⟨distinct, ⟨r, hr, hrow⟩, orderly, parted, noted⟩ := h
  refine ⟨?_, ⟨r, hdb ▸ hr, hrow⟩, ?_, hsightings ▸ parted, ?_⟩
  · rwa [Distinct, hdb]
  · rwa [Enduring, World.trace_congr hdb hhost]
  · rw [hdb, hsightings]
    exact noted

theorem node_eq (h : Attends env run node P due w) {r : Run} (hr : r ∈ w.db.runs)
    (hid : r.id = run.id) : r.node = node := by
  obtain ⟨o, ho, hoid, -, hnode⟩ := h.stands
  rwa [h.distinct.eq_of_id_eq hr ho (hid.trans hoid.symm)]

/-- Once the run is known not to be cancelled, a new part of the log begins. -/
theorem anew (h : Attends env run node P due w) {r : Run} (hr : r ∈ w.db.runs)
    (hid : r.id = run.id) (hstate : r.state ≠ .cancelled) :
    Attends env run node (Underway (· = []) 0) due w :=
  ⟨h.distinct, h.stands, h.orderly, ⟨w.sightings, [], (List.append_nil _).symm,
    h.orderly.uncancelled h.distinct hr hid hstate, .nil rfl⟩, h.noted⟩

/-- What the host does before a call to the database. -/
theorem interrupted (h : Attends env run node P due w) (call : StorageCall)
    (hPQ : ∀ l s, s.occasion = .storage call → P l → Q (l ++ [s])) :
    Attends env run node Q due (w.interrupted env.observed call) := by
  have hdeed : Deed env.observed .anything w
      (w.interrupted env.observed call) := .interrupt call trivial
  have hconcedes := w.concedes_interrupted env.observed call
  have hsightings : (w.interrupted env.observed call).sightings =
      w.sightings ++ [⟨.storage call, w.db⟩] := rfl
  obtain ⟨before, work, hsplit, hbefore, hwork⟩ := h.parted
  refine ⟨hdeed.distinct h.distinct, calm_stands run node _ _ hconcedes h.stands,
    h.orderly.of_deed hdeed, ⟨before, work ++ [⟨.storage call, w.db⟩], ?_, hbefore,
      hPQ _ _ rfl hwork⟩, fun reliable s hs => ?_⟩
  · rw [hsightings, hsplit, List.append_assoc]
  · rw [hconcedes.records_eq]
    rw [hsightings] at hs
    rcases List.mem_append.1 hs with hs | hs
    · exact h.noted reliable s hs
    · refine Or.inl fun service hservice => ?_
      rw [List.mem_singleton.1 hs] at hservice
      cases hservice

/-- A computation that writes nothing and does not read the state of the run. What it asks, if it
asks something, will be recorded as the next attempt. -/
theorem of_path {remit : Remit} {L M : List ServiceCall → Prop} {n : Nat} {due' : Option Int}
    (h : Attends env run node (Underway L n) due w) (hpath : Path (Deed env.observed remit) w w')
    (silent : ∀ c, ¬remit.orders c) (unrecorded : ¬remit.calls .record)
    (unread : ¬remit.calls .getState) {asked : List ServiceCall}
    (hcalls : w'.calls = w.calls ++ asked) (hM : ∀ l, L l → M (l ++ asked))
    (hdue : ∀ number ∈ due, number ∈ due')
    (hasked : asked = [] ∨ w.db.nextAttempt run.id node ∈ due') :
    Attends env run node (Underway M n) due' w' := by
  obtain ⟨made, hmade⟩ := hpath.logs
  obtain ⟨hconcedes, hsteps⟩ := hmade.concedes silent unrecorded
  obtain rfl : made.filterMap Sighting.call? = asked :=
    List.append_cancel_left (hmade.calls_eq.symm.trans hcalls)
  obtain ⟨before, work, hsplit, hbefore, hwork⟩ := h.parted
  refine ⟨hpath.keep (fun _ _ => Deed.distinct) h.distinct,
    calm_stands run node _ _ hconcedes h.stands, .of_path hpath h.orderly,
    ⟨before, work ++ made, ?_, hbefore, ?_⟩, fun reliable s hs => ?_⟩
  · rw [hmade.sightings_eq, hsplit, List.append_assoc]
  · refine hwork.append made (m := 0) (fun s hs heq => unread (hmade.permitted s hs _ heq)) hM ?_
    rw [Nat.le_zero, List.length_eq_zero_iff, List.filter_eq_nil_iff]
    exact fun s hs heq =>
      unrecorded (hmade.permitted s hs _ (Sighting.isStorage_iff.1 heq))
  · rw [hconcedes.records_eq]
    rw [hmade.sightings_eq] at hs
    rcases List.mem_append.1 hs with hs | hs
    · refine (h.noted reliable s hs).imp_right ?_
      rintro ⟨number, hnumber, hpending⟩
      exact ⟨number, hdue number hnumber, hpending⟩
    · rcases hasked with hnothing | hnumber
      · -- Nothing was asked, so this was no call to a service.
        refine Or.inl fun service hservice => ?_
        have hmem : service ∈ made.filterMap Sighting.call? :=
          List.mem_filterMap.2 ⟨s, hs, by simp [Sighting.call?, hservice]⟩
        simp [hnothing] at hmem
      · have hs' := hsteps s hs
        refine Or.inr ⟨_, hnumber, fun r' hr' hid => ?_⟩
        obtain ⟨r, hr, hc⟩ := hs'.exists_before hr'
        exact ⟨hc.node_eq.trans (h.node_eq hr (hc.id_eq.symm.trans hid)),
          by rw [hs'.nextAttempt_eq]⟩

/-- Nothing is due any more. -/
theorem settled (h : Attends env run node P due w)
    (hnoted : env.host.Reliable → ∀ number ∈ due, ∀ s, Pending run node number s →
      Noted run.id w.db.records s) : Attends env run node P none w := by
  refine ⟨h.distinct, h.stands, h.orderly, h.parted, fun reliable s hs => ?_⟩
  rcases h.noted reliable s hs with hs | ⟨number, hnumber, hpending⟩
  · exact Or.inl hs
  · exact Or.inl (hnoted reliable number hnumber s hpending)

/-- One more record. -/
theorem recorded (h : Attends env run node P due w) (r : NodeRecord)
    (hPQ : ∀ l s, s.occasion = .storage .record → P l → Q (l ++ [s])) :
    Attends env run node Q due ((w.interrupted env.observed .record).recorded r) := by
  have hdeed : Deed env.observed .anything w
      ((w.interrupted env.observed .record).recorded r) := .record r trivial
  obtain ⟨distinct, stands, -, parted, noted⟩ := h.interrupted .record hPQ
  refine ⟨distinct, stands, h.orderly.of_deed hdeed, parted, fun reliable s hs => ?_⟩
  refine (noted reliable s hs).imp_left fun hs call hcall o ho hid hfits => ?_
  obtain ⟨entry, hentry, hkey⟩ := hs call hcall o ho hid hfits
  exact ⟨entry, List.mem_append_left _ hentry, hkey⟩

end Attends

namespace Engine

variable {env : Environment σ} {run : Run} {node : String} {P Q : List Sighting → Prop}
  {due : Option Int} {L : List ServiceCall → Prop} {n : Nat} {number : Int}

/-! ## Calls of an advance -/

/-- Neither commands nor records, and the state of the run is not read. -/
structure Quiet (remit : Remit) : Prop where
  silent : ∀ c, ¬remit.orders c
  unrecorded : ¬remit.calls .record
  unread : ¬remit.calls .getState

theorem quiet_none : Quiet (.reading fun _ => False) := ⟨fun _ h => h, fun h => h, fun h => h⟩

theorem quiet_call (call : StorageCall) (hread : call ≠ .getState) (hrecord : call ≠ .record) :
    Quiet (.reading (· = call)) :=
  ⟨fun _ h => h, fun h => hrecord h.symm, fun h => hread h.symm⟩

theorem attends_silent {remit : Remit} {F : Prop} {x : Engine (σ × List Sighting) α}
    (quiet : Quiet remit) (hx : DoesUnless env.observed remit F x) (silent : Silent x) :
    Leads Any (Attends env run node (Underway L n) due) x
      (fun _ => Attends env run node (Underway L n) due)
      (Attends env run node (Underway L n) due) := by
  intro w hw
  refine ⟨.single trivial, ?_⟩
  obtain ⟨made, hcalls, rfl⟩ := silent w
  have hafter := hw.of_path (M := L) (hx.does.path w) quiet.silent quiet.unrecorded quiet.unread
    hcalls (by simp) (fun _ h => h) (Or.inl rfl)
  split <;> exact hafter

/-- The number of the next attempt is the same until something is recorded. -/
theorem leads_number {remit : Remit} {F : Prop} {x : Engine (σ × List Sighting) α}
    (silent : ∀ c, ¬remit.orders c) (unrecorded : ¬remit.calls .record)
    (hx : DoesUnless env.observed remit F x) :
    Leads Any (fun w => w.db.nextAttempt run.id node = number) x
      (fun _ w => w.db.nextAttempt run.id node = number)
      fun w => w.db.nextAttempt run.id node = number := by
  intro w hnumber
  obtain ⟨_, hlogs⟩ := (hx.does.path w).logs
  have hnext : (x.run w).2.db.nextAttempt run.id node = number := by
    rw [(hlogs.concedes silent unrecorded).1.nextAttempt_eq, hnumber]
  refine ⟨.single trivial, ?_⟩
  split <;> exact hnext

/-- What is asked will be recorded as the next attempt. -/
theorem attends_asking {remit : Remit} {F : Prop} {x : Engine (σ × List Sighting) α}
    (quiet : Quiet remit) (hx : DoesUnless env.observed remit F x) (asks : Asks L x) :
    Leads Any
      (fun w => Attends env run node (Underway (· = []) n) none w ∧
        w.db.nextAttempt run.id node = number) x
      (fun _ w => Attends env run node (Underway L n) (some number) w ∧
        w.db.nextAttempt run.id node = number)
      fun w => (Attends env run node (Underway L n) (some number) w ∧
        w.db.nextAttempt run.id node = number) ∧ F := by
  have hasked : Leads Any (fun w => Attends env run node (Underway (· = []) n) none w ∧
      w.db.nextAttempt run.id node = number) x
      (fun _ => Attends env run node (Underway L n) (some number))
      fun w => Attends env run node (Underway L n) (some number) w ∧ F := by
    rintro w ⟨hattends, hnumber⟩
    refine ⟨.single trivial, ?_⟩
    obtain ⟨made, hcalls, hmade⟩ := asks w
    obtain ⟨hpath, hend⟩ := hx w trivial
    have hafter : Attends env run node (Underway L n) (some number) (x.run w).2 :=
      hattends.of_path hpath quiet.silent quiet.unrecorded quiet.unread hcalls
        (by rintro _ rfl; exact hmade) (by simp) (Or.inr (by simp [hnumber]))
    rcases hrun : (x.run w).1 with e | a <;> rw [hrun] at hend
    · exact ⟨hafter, hend⟩
    · exact hafter
  exact (hasked.and (leads_number quiet.silent quiet.unrecorded hx)).conseq
    (fun _ hw => ⟨hw, hw.2⟩) (fun _ _ hw => hw) fun _ hw => ⟨⟨hw.1.1, hw.2⟩, hw.1.2⟩

theorem attends_look {call : StorageCall} (hread : call ≠ .getState) (hrecord : call ≠ .record)
    (query : Database → α) :
    Leads Any (Attends env run node (Underway L n) due) (look env.observed call query)
      (fun a w => Attends env run node (Underway L n) due w ∧ a = query w.db)
      (Attends env run node (Underway L n) due) := by
  have hlook : Leads (Step env.observed (fun _ _ => True) .free) (fun _ => True)
      (look env.observed call query) (fun a w => True ∧ a = query w.db)
      fun _ => True ∧ ¬env.observed.host.Sure call := leads_look call query (.const True)
  exact ((attends_silent (quiet_call call hread hrecord) (does_look call query rfl)
    (silent_look call query)).and hlook).conseq (fun _ hw => ⟨hw, trivial⟩)
    (fun _ _ hw => ⟨hw.1, hw.2.2⟩) fun _ hw => hw.1

/-- What was due is recorded. -/
theorem attends_record (nodeType : String) (outcome : NodeOutcome) (error : Option String)
    (output : Option Value) (hdue : ∀ m ∈ due, m = number) :
    Leads Any
      (fun w => Attends env run node (Underway L n) due w ∧
        w.db.nextAttempt run.id node = number)
      (record env.observed run.id node nodeType number outcome error output)
      (fun _ w => Attends env run node (Underway L (n + 1)) none w ∧
        w.db.nextAttempt run.id node = number + 1)
      (Attends env run node (Underway L (n + 1)) none) := by
  rintro w ⟨hattends, hnumber⟩
  have hinterrupted := hattends.interrupted .record (Q := Underway L (n + 1))
    fun _ _ => Underway.append_record
  have hnext : (w.interrupted env.observed .record).db.nextAttempt run.id node = number := by
    rw [(w.concedes_interrupted env.observed .record).nextAttempt_eq, hnumber]
  rw [record, run_interrupt_bind]
  split
  · rename_i f hf
    refine ⟨.single trivial, hinterrupted.settled fun reliable => ?_⟩
    have hnone := reliable .record w.db w.host.1
    change (env.host.storage .record w.db w.host.1).1.failure = some f at hf
    rw [hnone] at hf
    cases hf
  · rw [run_commit]
    split
    · rename_i hrecord
      obtain ⟨rfl, rfl⟩ := eq_of_record_eq_ok hrecord
      refine ⟨.single trivial, (hattends.recorded _ fun _ _ => Underway.append_record).settled ?_,
        ?_⟩
      · intro _ m hm s hpending call _ r hr hid _
        obtain ⟨hnode, hattempt⟩ := hpending r hr hid
        refine ⟨_, List.mem_append_right _ List.mem_cons_self, rfl, hnode.symm, ?_⟩
        rw [hnode, hattempt, hdue m hm]
      · exact Database.nextAttempt_append (r := ⟨run.id, node, nodeType, number, outcome, error,
          output, _⟩) hnext.symm
    · rename_i f hrecord
      have hfits := Database.fitsColumn_eq_false_of_record hnext.symm hrecord
      refine ⟨.single trivial, Attends.congr (w := w.interrupted env.observed .record)
        (hinterrupted.settled fun _ m hm s hpending call _ r hr hid hfits' => ?_) rfl rfl⟩
      obtain ⟨hnode, hattempt⟩ := hpending r hr hid
      rw [hnode, hattempt, hdue m hm, hfits] at hfits'
      cases hfits'

/-- When the run is found running, a new part of the log begins. -/
theorem attends_stateOf :
    Leads Any (Attends env run node (WindsUp run.id node) due) (stateOf env.observed run.id)
      (fun state w => Attends env run node (WindsUp run.id node) due w ∧
        (state = some .running → Attends env run node (Underway (· = []) 0) due w))
      (Attends env run node (WindsUp run.id node) due) := by
  intro w hw
  have hinterrupted := hw.interrupted .getState (Q := WindsUp run.id node)
    fun _ _ hs h => h.append (Or.inr hs)
  rw [stateOf, look, run_interrupt_bind]
  split
  · exact ⟨.single trivial, hinterrupted⟩
  · refine ⟨.single trivial, hinterrupted, fun hrunning => ?_⟩
    obtain ⟨r, hr, hstate⟩ := Option.map_eq_some_iff.1 hrunning
    exact hinterrupted.anew (List.mem_of_find?_eq_some hr) (by simpa using List.find?_some hr)
      (by simp [hstate])

/-- A guarded write of an advance finds the run running, and a new part of the log begins, or it
changes nothing. -/
theorem attends_write {change : Instant → Run → Run} (next : String) (call : StorageCall)
    (c : RunCommand) (old : c.isCreate = false)
    (hc : ∀ time db, (Database.updateRun run.id Database.isRunning (change time) db).2
      = c.perform time db)
    (hid : ∀ time r, (change time r).id = r.id)
    (hdefinition : ∀ time r, (change time r).definition = r.definition)
    (hnode : ∀ time r, r.node = node → (change time r).node = next)
    (hstate : ∀ time r, r.state = .running → (change time r).state ≠ .cancelled)
    (hPQ : ∀ l s, s.occasion = .storage call → P l → Q (l ++ [s])) :
    Leads Any (Attends env run node P none)
      (stored env.observed call fun time =>
        Database.updateRun run.id Database.isRunning (change time))
      (fun done w => if done then Attends env run next (Underway (· = []) 0) none w
        else Attends env run node Q none w)
      (Attends env run node Q none) := by
  intro w hw
  have hinterrupted := hw.interrupted call hPQ
  rw [run_stored]
  split
  · exact ⟨.single trivial, hinterrupted⟩
  · refine ⟨.single trivial, ?_⟩
    dsimp only
    split
    · rename_i hdone
      obtain ⟨r, hr, hrid, hrunning, hmem⟩ := Database.updateRun_eq_true hdone
      have hdeed : Deed env.observed .anything w
          ((w.interrupted env.observed call).commanded c) := .command call c old trivial trivial
      rw [World.commanded, ← hc] at hdeed
      obtain ⟨o, ho, hoid, hodefinition, honode⟩ := hinterrupted.stands
      obtain rfl := hinterrupted.distinct.eq_of_id_eq hr ho (hrid.trans hoid.symm)
      have orderly := hw.orderly.of_deed hdeed
      have distinct := hdeed.distinct hw.distinct
      refine ⟨distinct, ⟨_, hmem, (hid _ r).trans hrid, (hdefinition _ r).trans hodefinition,
        hnode _ r honode⟩, orderly, ⟨_, [], (List.append_nil _).symm, ?_, .nil rfl⟩, ?_⟩
      · exact orderly.uncancelled distinct hmem ((hid _ r).trans hrid) (hstate _ r hrunning)
      · intro reliable s hs
        refine (hinterrupted.noted reliable s hs).imp_right ?_
        rintro ⟨number, hnone, -⟩
        cases hnone
    · rename_i hdone
      exact hinterrupted.congr (Database.updateRun_eq_false (Bool.eq_false_iff.2 hdone)).1 rfl

/-! ## Nodes -/

/-- The advance has its run where the walk is, and may come to its end there. -/
def Parting (env : Environment σ) (run : Run) (p : Progress) (w : World (σ × List Sighting)) :
    Prop :=
  Attends env run p.node (WindsUp run.id p.node) none w

/-- The walk is on the node, and its work there has come to where `A` holds. -/
def AtNode (v : Node) (A : World σ → Prop) (p : Progress) (w : World σ) : Prop :=
  p.node = v.id ∧ A w

/-- The run was found running, and nothing has happened since. -/
abbrev Begins (env : Environment σ) (run : Run) (node : String) (w : World (σ × List Sighting)) :
    Prop :=
  Attends env run node (Underway (· = []) 0) none w

/-- A walk whose parts all end where the advance may come to its end. -/
abbrev Parts (env : Environment σ) (run : Run) (A : Progress → World (σ × List Sighting) → Prop)
    (x : Walk (σ × List Sighting) Unit) : Prop :=
  Walk.Leads Any A x (fun _ => Parting env run) fun _ => Parting env run

variable {p : Progress} {w : World (σ × List Sighting)} {g : Graph} {v : Node}
  {A X : World (σ × List Sighting) → Prop}

theorem isWork_of_eq_nil {id node : String} :
    ∀ l : List ServiceCall, l = [] → IsWork id node l := by
  rintro _ rfl
  exact isWork_nil id node

/-- Work at a node may come to its end. -/
theorem AtNode.parting (h : AtNode v (Attends env run v.id (Underway L n) none) p w) (hn : n ≤ 1)
    (hL : ∀ l, L l → IsWork run.id v.id l) : Parting env run p w := by
  obtain ⟨hnode, h⟩ := h
  rw [Parting, hnode]
  exact h.mono fun _ hl => hl.windsUp hn hL

theorem parting_of_begins (h : Begins env run p.node w) : Parting env run p w :=
  h.mono fun _ hl => hl.windsUp (Nat.zero_le 1) isWork_of_eq_nil

/-- A part of the work at a node. -/
theorem atNode {B : α → World (σ × List Sighting) → Prop} {x : Engine (σ × List Sighting) α}
    (hx : Leads Any A x B X) (hX : ∀ p w, AtNode v X p w → Parting env run p w) :
    Walk.Leads Any (AtNode v A) (Walk.engine x) (fun a => AtNode v (B a))
      fun _ => Parting env run :=
  .engine (E := AtNode v X) (fun _ => .assume (fun _ hw => hw.1) fun hnode =>
    hx.conseq (fun _ hw => hw.2) (fun _ _ hw => ⟨hnode, hw⟩) fun _ hw => ⟨hnode, hw⟩)
    fun _ => hX

theorem attends_failRun (error : String) (o : Outcome) :
    Leads Any (Attends env run node (WindsUp run.id node) none)
      (failRun env.observed run.id error o)
      (fun _ => Attends env run node (WindsUp run.id node) none)
      (Attends env run node (WindsUp run.id node) none) := by
  refine .bind (attends_write node .fail (.fail run.id error) rfl (fun _ _ => rfl)
    (fun _ _ => rfl) (fun _ _ => rfl) (fun _ _ h => h) (fun _ _ _ => by simp [Database.ended])
    fun _ _ hs h => h.append (Or.inl hs)) fun done => ?_
  cases done with
  | true => exact .pure _ fun w hw => hw.mono fun _ h => h.windsUp (Nat.zero_le 1) isWork_of_eq_nil
  | false =>
    exact .bind (attends_stateOf.pre fun _ hw => hw) fun _ => .pure _ fun _ hw => hw.1

theorem parts_failWalk (error : String) :
    Parts env run (Parting env run) (failWalk env.observed run.id error) :=
  .bind (B := fun _ => Parting env run) (.progress fun _ _ hw => hw) fun q =>
    .bind (.engine (fun _ => attends_failRun error q.outcome) fun _ _ _ hw => hw) fun _ =>
      .update fun _ _ hw => hw

/-- A run goes on only while it is running, and its next node is new work. -/
theorem parts_goOn (next : Option String) (hn : n ≤ 1) (hL : ∀ l, L l → IsWork run.id v.id l) :
    Parts env run (AtNode v (Attends env run v.id (Underway L n) none))
      (goOn env.observed run.id next) := by
  unfold goOn
  cases next with
  | none =>
    refine .bind (atNode (attends_write v.id .complete (.complete run.id) rfl
      (fun _ _ => rfl) (fun _ _ => rfl) (fun _ _ => rfl) (fun _ _ h => h)
      (fun _ _ _ => by simp [Database.ended])
      fun _ _ hs h => h.append_storage (by decide) (by decide) hs)
      fun _ _ hw => hw.parting hn hL) fun done => ?_
    cases done with
    | true => exact .settle fun _ _ hw => AtNode.parting hw (Nat.zero_le 1) isWork_of_eq_nil
    | false => exact .halt fun _ _ hw => AtNode.parting hw hn hL
  | some next =>
    refine .bind (atNode (attends_write next .moveTo (.moveTo run.id next) rfl
      (fun _ _ => rfl) (fun _ _ => rfl) (fun _ _ => rfl) (fun _ _ _ => rfl)
      (fun _ _ hrunning => by simp [hrunning])
      fun _ _ hs h => h.append_storage (by decide) (by decide) hs)
      fun _ _ hw => hw.parting hn hL) fun done => ?_
    cases done with
    | true =>
      rw [if_pos rfl]
      exact .update fun _ _ hw => parting_of_begins hw.2
    | false => exact .halt fun _ _ hw => AtNode.parting hw hn hL

/-! ## Conditions -/

theorem asks_executeFrom {x : Engine σ α} {env : Environment σ} (s : RetryStrategy)
    (hx : Asks AreReads x) (left : Nat) (number : Int) :
    Asks AreReads
      (ExceptT.mk (s.executeFrom (draw env) (fun _ _ _ => pure ()) x.run left number)) := by
  induction left generalizing number with
  | zero => exact hx
  | succ left ih =>
    intro w
    obtain ⟨made, hcalls, hmade⟩ := hx w
    change ∃ made, (s.executeFrom _ _ x.run (left + 1) number w).2.calls = _ ∧ _
    rw [run_executeFrom_succ]
    rcases hrun : x.run w with ⟨f | a, w'⟩ <;> rw [hrun] at hcalls
    · dsimp only
      split
      · split
        · exact ⟨made, hcalls, hmade⟩
        · obtain ⟨made', hcalls', hmade'⟩ :=
            ih (number + 1) { w' with host := (env.host.draw w'.host).2 }
          refine ⟨made ++ made', ?_, fun call hcall => ?_⟩
          · exact hcalls'.trans (by rw [hcalls, List.append_assoc])
          · exact (List.mem_append.1 hcall).elim (hmade call) (hmade' call)
      · exact ⟨made, hcalls, hmade⟩
    · exact ⟨made, hcalls, hmade⟩

/-- A condition is decided by reads of the contact. -/
theorem asks_decideCondition {env : Environment σ} (run : Run) (c : Comparison) :
    Asks AreReads (decideCondition env run c) := by
  have hread : Asks AreReads (readContact env run) :=
    asks_executeFrom _ ((asks_demand _).mono (by
      rintro _ rfl call hcall
      exact ⟨_, _, List.mem_singleton.1 hcall⟩)) _ _
  refine hread.bind (M := (· = [])) (fun contact => ?_) (fun _ hl => hl)
    fun _ _ hl hm => by rwa [hm, List.append_nil]
  split
  · exact silent_of_calls_eq fun _ => rfl
  · split
    · exact asks_pure _ rfl
    · exact silent_of_calls_eq fun _ => rfl

/-- At a node that is new work, the number of the next attempt is looked up. -/
theorem atNode_nextAttempt :
    Walk.Leads Any (AtNode v (Begins env run v.id))
      (Walk.engine (nextAttempt env.observed run.id v.id))
      (fun number => AtNode v fun w => Begins env run v.id w ∧
        w.db.nextAttempt run.id v.id = number)
      fun _ => Parting env run :=
  atNode ((attends_look (by decide) (by decide) _).post fun _ _ hw => ⟨hw.1, hw.2.symm⟩)
    fun _ _ hw => hw.parting (Nat.zero_le 1) isWork_of_eq_nil

/-- Whatever the condition is found to be, it is recorded before the run goes on. -/
theorem parts_executeCondition (c : Comparison) :
    Parts env run (AtNode v (Begins env run v.id)) (executeCondition env.observed g run v c) := by
  have hL : ∀ l, AreReads l → IsWork run.id v.id l := fun _ => Or.inr
  refine .bind atNode_nextAttempt fun number => ?_
  refine .bind (atNode (X := fun _ => False) ((attends_asking quiet_none
    (does_decideCondition run c) (asks_decideCondition run c)).attempt
      (C := fun _ w => Attends env run v.id (Underway AreReads 0) (some number) w ∧
        w.db.nextAttempt run.id v.id = number)
      (fun _ _ hw => hw) fun _ _ hw => hw.1) fun _ _ hw => hw.2.elim) fun decided => ?_
  cases decided with
  | error f =>
    refine .bind (atNode (attends_record _ _ _ _ (by simp)) fun _ _ hw => hw.parting le_rfl hL)
      fun _ => ?_
    exact (parts_failWalk _).pre fun _ _ hw => AtNode.parting ⟨hw.1, hw.2.1⟩ le_rfl hL
  | ok result =>
    refine .bind (atNode (attends_record _ _ _ _ (by simp)) fun _ _ hw => hw.parting le_rfl hL)
      fun _ => ?_
    exact (parts_goOn _ le_rfl hL).pre fun _ _ hw => ⟨hw.1, hw.2.1⟩

/-! ## Delays -/

theorem parts_executeDelay (minutes : Int) :
    Parts env run (AtNode v (Begins env run v.id)) (executeDelay env.observed run v minutes) := by
  have parting : ∀ p w, AtNode v (Begins env run v.id) p w → Parting env run p w :=
    fun _ _ hw => hw.parting (Nat.zero_le 1) isWork_of_eq_nil
  refine .bind (atNode (attends_silent (F := True) quiet_none does_now silent_now) parting)
    fun time => ?_
  refine .bind (atNode (attends_silent quiet_none (.ofExcept _) (silent_ofExcept _)) parting)
    fun resumeAt => ?_
  refine .bind (atNode (attends_write v.id .suspend (.suspend run.id v.id resumeAt) rfl
    (fun _ _ => rfl) (fun _ _ => rfl) (fun _ _ => rfl) (fun _ _ _ => rfl)
    (fun _ _ _ => by simp) fun _ _ hs h => h.append_storage (by decide) (by decide) hs) parting)
    fun done => ?_
  cases done with
  | false => exact .halt fun _ _ hw => parting _ _ hw
  | true =>
    rw [if_pos rfl]
    refine .bind atNode_nextAttempt fun number => ?_
    refine .bind (atNode (attends_record _ _ _ _ (by simp))
      fun _ _ hw => hw.parting le_rfl isWork_of_eq_nil) fun _ => ?_
    exact .settle fun _ _ hw => AtNode.parting ⟨hw.1, hw.2.1⟩ le_rfl isWork_of_eq_nil

/-! ## Actions -/

/-- The work at the node goes on, and the next attempt there has the number. -/
abbrev Numbered (env : Environment σ) (run : Run) (node : String) (L : List ServiceCall → Prop)
    (n : Nat) (number : Int) (w : World (σ × List Sighting)) : Prop :=
  Attends env run node (Underway L n) none w ∧ w.db.nextAttempt run.id node = number

theorem attends_numbered {remit : Remit} {x : Engine (σ × List Sighting) α} (quiet : Quiet remit)
    (hx : Does env.observed remit x) (silent : Silent x) :
    Leads Any (Numbered env run node L n number) x (fun _ => Numbered env run node L n number)
      (Numbered env run node L n number) :=
  (attends_silent quiet hx silent).and (leads_number quiet.silent quiet.unrecorded hx)

/-- Another attempt is made only at a run that is running still. -/
theorem parts_tryOnce {number : Int} {again : Walk (σ × List Sighting) Unit}
    (hagain : Parts env run (AtNode v (Numbered env run v.id (· = []) 0 (number + 1))) again) :
    Parts env run (AtNode v (Numbered env run v.id (· = []) 0 number))
      (tryOnce env.observed g run v number again) := by
  have hL : ∀ l, IsAttempt run.id v.id l → IsWork run.id v.id l := fun _ => Or.inl
  have parting : ∀ {number : Int} (p : Progress) (w : World (σ × List Sighting)),
      AtNode v (Numbered env run v.id (IsAttempt run.id v.id) 1 number) p w →
      Parting env run p w :=
    fun _ _ hw => AtNode.parting ⟨hw.1, hw.2.1⟩ le_rfl hL
  unfold tryOnce
  refine .bind (atNode (attends_asking (quiet_call .hasSuccess (by decide) (by decide))
    (doesUnless_attemptAction run v number rfl) (asks_attemptAction run v number))
    fun p w hw => ?_) fun r => ?_
  · -- Only a database that fails keeps an attempt from being recorded.
    obtain ⟨hnode, ⟨hw, -⟩, hsure⟩ := hw
    exact AtNode.parting
      ⟨hnode, hw.settled fun reliable => absurd (fun _ _ => reliable _ _ _) hsure⟩
      (Nat.zero_le 1) hL
  refine .bind (atNode (attends_record _ _ _ _ (by simp)) fun _ _ hw => hw.parting le_rfl hL)
    fun _ => ?_
  split
  · refine .bind (B := fun _ => AtNode v (Attends env run v.id
      (Underway (IsAttempt run.id v.id) 1) none)) (.update fun _ _ hw => ⟨hw.1, hw.2.1⟩)
      fun _ => parts_goOn _ le_rfl hL
  · split
    · exact (parts_failWalk _).pre parting
    · refine .bind (atNode (attends_numbered quiet_none does_draw silent_draw) parting) fun u => ?_
      refine .bind (atNode (attends_numbered quiet_none (.ofExcept _) (silent_ofExcept _))
        parting) fun delay => ?_
      refine .bind (atNode (attends_numbered quiet_none (does_wait delay) (silent_wait delay))
        parting) fun _ => ?_
      have hdoes : Does env.observed (.reading (· = .getState)) (stateOf env.observed run.id) :=
        does_stateOf _ rfl
      have hstate : Leads Any (Numbered env run v.id (IsAttempt run.id v.id) 1 (number + 1))
          (stateOf env.observed run.id)
          (fun state w => (Attends env run v.id (WindsUp run.id v.id) none w ∧
            (state = some .running → Begins env run v.id w)) ∧
            w.db.nextAttempt run.id v.id = number + 1)
          fun w => Attends env run v.id (WindsUp run.id v.id) none w ∧
            w.db.nextAttempt run.id v.id = number + 1 :=
        (attends_stateOf.and (leads_number (fun _ h => h) (fun h => by cases h) hdoes)).pre
          fun _ hw => ⟨hw.1.mono fun _ hl => hl.windsUp le_rfl hL, hw.2⟩
      refine .bind (atNode hstate fun p w hw => ?_) fun state => ?_
      · rw [Parting, hw.1]
        exact hw.2.1
      · split
        · rename_i hrunning
          exact hagain.pre fun _ _ hw => ⟨hw.1, hw.2.1.2 hrunning, hw.2.2⟩
        · refine .bind (B := fun _ => Parting env run) (.settle fun p w hw => ?_) fun _ =>
            .halt fun _ _ hw => hw
          rw [Parting, hw.1]
          exact hw.2.1.1

theorem parts_tryAction (left : Nat) (number : Int) :
    Parts env run (AtNode v (Numbered env run v.id (· = []) 0 number))
      (tryAction env.observed g run v left number) := by
  induction left generalizing number with
  | zero =>
    exact parts_tryOnce (.halt fun _ _ hw =>
      AtNode.parting ⟨hw.1, hw.2.1⟩ (Nat.zero_le 1) isWork_of_eq_nil)
  | succ left ih => exact parts_tryOnce (ih (number + 1))

theorem parts_executeAction :
    Parts env run (AtNode v (Begins env run v.id)) (executeAction env.observed g run v) := by
  have parting : ∀ {number : Int} (p : Progress) (w : World (σ × List Sighting)),
      AtNode v (Numbered env run v.id (· = []) 0 number) p w → Parting env run p w :=
    fun _ _ hw => AtNode.parting ⟨hw.1, hw.2.1⟩ (Nat.zero_le 1) isWork_of_eq_nil
  have used : ∀ (isUsedUp : Bool) (number : Int) (error : String), Parts env run
      (AtNode v (Numbered env run v.id (· = []) 0 number))
      (if isUsedUp then failWalk env.observed run.id error
        else tryAction env.observed g run v (env.rules.strategy.maxAttempts - number).toNat
          number) := by
    intro isUsedUp number error
    split
    · exact (parts_failWalk _).pre parting
    · exact parts_tryAction _ number
  unfold executeAction
  refine .bind atNode_nextAttempt fun number => ?_
  dsimp only
  split
  · refine .bind (atNode (attends_numbered (quiet_call .hasSuccess (by decide)
      (by decide)) (does_look _ _ rfl) (silent_look _ _)) parting) fun succeeded => ?_
    exact .bind (.pure _ fun _ _ hw => hw) fun _ => used _ number _
  · exact .bind (.pure _ fun _ _ hw => hw) fun _ => used _ number _

/-! ## The walk -/

theorem parts_executeNode (resuming : Bool) :
    Parts env run (AtNode v (Begins env run v.id)) (executeNode env.observed g run v resuming) := by
  have onward : ∀ next, Parts env run (AtNode v (Begins env run v.id))
      (goOn env.observed run.id next) :=
    fun next => parts_goOn next (Nat.zero_le 1) isWork_of_eq_nil
  have delayed : ∀ (isOver : Bool) (minutes : Int), Parts env run (AtNode v (Begins env run v.id))
      (if isOver then goOn env.observed run.id (g.nextNodeId? v.id .default)
        else executeDelay env.observed run v minutes) := by
    intro isOver minutes
    split
    · exact onward _
    · exact parts_executeDelay minutes
  unfold executeNode
  split
  · exact onward _
  · exact parts_executeCondition _
  · dsimp only
    split
    · exact .bind (.pure _ fun _ _ hw => hw) fun _ => delayed _ _
    · refine .bind (atNode (attends_silent (quiet_call .hasSuccess (by decide)
        (by decide)) (does_look _ _ rfl) (silent_look _ _))
        fun _ _ hw => hw.parting (Nat.zero_le 1) isWork_of_eq_nil) fun _ => delayed _ _
  · exact parts_executeAction

/-- Nothing is done to a run that is not found running. -/
theorem parts_whileRunning {x : Walk (σ × List Sighting) Unit}
    (hx : Parts env run (fun p => Begins env run p.node) x) :
    Parts env run (Parting env run) (whileRunning env.observed run.id x) := by
  refine .bind (.engine (fun p => attends_stateOf) fun _ _ _ hw => hw) fun state => ?_
  split
  · rename_i hrunning
    exact hx.pre fun _ _ hw => hw.2 hrunning
  · exact .settle fun _ _ hw => hw.1

theorem parts_takeStep {further : Walk (σ × List Sighting) Unit}
    (hfurther : Parts env run (Parting env run) further) :
    Parts env run (fun p => Begins env run p.node) (takeStep env.observed g run further) := by
  unfold takeStep
  refine .bind (B := fun _ p => Begins env run p.node) (.update fun _ _ hw => hw) fun _ => ?_
  refine .bind (B := fun q p w => Begins env run p.node w ∧ q = p)
    (.progress fun _ _ hw => ⟨hw, rfl⟩)
    fun q => ?_
  split
  · exact (parts_failWalk _).pre fun _ _ hw => parting_of_begins hw.1
  · rename_i v hv
    have hid : v.id = q.node := by simpa using List.find?_some hv
    refine .bind ((parts_executeNode q.resuming).pre fun p w hw => ?_) fun _ => ?_
    · obtain ⟨hw, rfl⟩ := hw
      exact ⟨hid.symm, hid ▸ hw⟩
    refine .bind (B := fun _ => Parting env run) (.update fun _ _ hw => hw) fun _ => ?_
    refine .bind (B := fun _ => Parting env run) (.progress fun _ _ hw => hw) fun q => ?_
    split
    · exact hfurther
    · exact .pure _ fun _ _ hw => hw

theorem parts_walk (n : Nat) :
    Parts env run (Parting env run) (walk env.observed g run n) := by
  induction n with
  | zero => exact parts_whileRunning ((parts_failWalk _).pre fun _ _ hw => parting_of_begins hw)
  | succ n ih => exact parts_whileRunning (parts_takeStep ih)

/-! ## Advances -/

theorem parts_walking :
    Parts env run (fun p => Begins env run p.node) (walking env.observed run) :=
  .bind (B := fun _ => Parting env run) (.engine (fun _ => (attends_silent
    (quiet_call .getDefinition (by decide) (by decide)) (does_graphOf _ rfl trivial)
    (silent_graphOf _)).conseq (fun _ hw => hw) (fun _ _ hw => parting_of_begins hw)
      fun _ hw => parting_of_begins hw) fun _ _ _ hw => hw) fun _ => parts_walk _

theorem attends_conclude (env : Environment σ) (run : Run) (node : String)
    (result : Except Halt Unit) (p : Progress) :
    Leads Any (Attends env run node (WindsUp run.id node) none)
      (conclude env.observed run result p)
      (fun _ => Attends env run node (WindsUp run.id node) none)
      (Attends env run node (WindsUp run.id node) none) :=
  leads_conclude_of result p (fun _ => attends_failRun _ _) (fun _ hw => hw)
    fun _ => attends_stateOf.post fun _ _ hw => hw.1

/-- The run of an advance is somewhere, and the advance may come to its end there. -/
def Parted (env : Environment σ) (run : Run) (w : World (σ × List Sighting)) : Prop :=
  ∃ node, Attends env run node (WindsUp run.id node) none w

theorem parted_walkRun (resuming : Bool) {w : World (σ × List Sighting)}
    (h : Begins env run run.node w) :
    Parted env run ((walkRun env.observed resuming run).run w).2 := by
  have hwalking : Parts env run _ (walking env.observed run) := parts_walking
  obtain ⟨-, hend⟩ := hwalking ⟨run.node, resuming, { run := run.id }⟩ w h
  rw [run_walkRun]
  rcases hrun : (walking env.observed run).run
    (⟨run.node, resuming, { run := run.id }⟩, w) with ⟨result, p, after⟩
  rw [hrun] at hend
  have hparting : Parting env run p after := by cases result <;> exact hend
  have hconclude := attends_conclude env run p.node result p
  obtain ⟨-, hend'⟩ := hconclude after hparting
  refine ⟨p.node, ?_⟩
  split at hend' <;> exact hend'

/-- The execution of a run itself, without the events that it causes. -/
def runAlone (env : Environment σ) (resuming : Bool) (id : String) : Engine σ Outcome :=
  runFrom env (fun _ => pure ()) resuming id

/-- The events that a run causes are handled after its own execution. -/
theorem runFrom_alone (env : Environment σ) (route : List Event → Engine σ Unit)
    (resuming : Bool) (id : String) (w : World σ) :
    ((runFrom env route resuming id).run w).2 = ((runAlone env resuming id).run w).2 ∨
    ∃ events, ((runFrom env route resuming id).run w).2 =
      ((route events).run ((runAlone env resuming id).run w).2).2 := by
  rcases runFrom_routes env route (fun _ => pure ()) resuming id w with
    heq | ⟨run, o, w', -, -, -, hroute, halone⟩
  · exact Or.inl (congrArg Prod.snd heq)
  · rw [runAlone, hroute, halone]
    exact Or.inr ⟨o.emitted, rfl⟩

/-- Before its run is read an execution has done nothing. -/
def Unbegun (w : World (σ × List Sighting)) : Prop :=
  ∀ s ∈ w.sightings, ∃ call, s.occasion = .storage call ∧ call ≠ .getState ∧ call ≠ .record

theorem unbegun_read (env : Environment σ) (resuming : Bool) (w : World σ) :
    Unbegun (w.observed.interrupted env.observed (if resuming then .resume else .advance)) ∧
    Unbegun (w.observed.read env.observed resuming) := by
  have first : ∀ s : Sighting,
      s.occasion = .storage (if resuming then StorageCall.resume else .advance) →
      ∃ call, s.occasion = .storage call ∧ call ≠ .getState ∧ call ≠ .record := by
    intro s hs
    cases resuming
    · exact ⟨.advance, hs, by decide, by decide⟩
    · exact ⟨.resume, hs, by decide, by decide⟩
  refine ⟨fun s hs => ?_, fun s hs => ?_⟩
  · obtain rfl := List.mem_singleton.1 hs
    exact first _ rfl
  · rcases List.mem_cons.1 hs with rfl | hs
    · exact first _ rfl
    · obtain rfl := List.mem_singleton.1 hs
      exact ⟨.getRun, rfl, by decide, by decide⟩

theorem Unbegun.windsUp {w : World (σ × List Sighting)} (h : Unbegun w) {late : List Sighting}
    (hlate : late <:+ w.sightings) (id node : String) : WindsUp id node late := by
  have hstorage : ∀ s ∈ late, ∃ call, s.occasion = .storage call ∧ call ≠ .getState ∧
      call ≠ .record := fun s hs => h s (hlate.subset hs)
  refine ⟨late, [], (List.append_nil _).symm, fun s hs heq => ?_, by simp, ?_, [], ?_⟩
  · obtain ⟨call, hcall, hread, -⟩ := hstorage s hs
    rw [hcall] at heq
    exact hread (Occasion.storage.inj heq)
  · rw [List.filter_eq_nil_iff.2]
    · exact Nat.zero_le 1
    · intro s hs heq
      obtain ⟨call, hcall, -, hrecord⟩ := hstorage s hs
      rw [Sighting.isStorage_iff, hcall] at heq
      exact hrecord (Occasion.storage.inj heq)
  · rw [List.filterMap_eq_nil_iff.2]
    · exact isWork_nil id node
    · intro s hs
      obtain ⟨call, hcall, -⟩ := hstorage s hs
      simp [Sighting.call?, hcall]

theorem Unbegun.noted {w : World (σ × List Sighting)} (h : Unbegun w) {s : Sighting}
    (hs : s ∈ w.sightings) (id : String) (records : List NodeRecord) : Noted id records s := by
  intro call hcall
  obtain ⟨_, hstorage, -⟩ := h s hs
  rw [hcall] at hstorage
  cases hstorage

/-- When a run is read and found running, its execution begins. -/
theorem begins_read {w : World σ} (distinct : Distinct w) (resuming : Bool)
    (hrun : run ∈ (w.observed.read env.observed resuming).db.runs) (hstate : run.state = .running) :
    Begins env run run.node (w.observed.read env.observed resuming) := by
  have hpath : Path (Deed env.observed (.reading fun _ => True)) w.observed
      (w.observed.read env.observed resuming) :=
    .tail (.single (.interrupt _ trivial)) (.interrupt _ trivial)
  have distinct' := hpath.keep (fun _ _ => Deed.distinct) (show Distinct w.observed from distinct)
  have orderly := Enduring.of_path hpath w.enduring_observed
  have uncancelled := orderly.uncancelled distinct' hrun rfl (by simp [hstate])
  exact ⟨distinct', ⟨run, hrun, rfl, rfl, rfl⟩, orderly,
    ⟨_, [], (List.append_nil _).symm, uncancelled, .nil rfl⟩,
    fun _ s hs => Or.inl ((unbegun_read env resuming w).2.noted hs _ _)⟩

/-- An execution does nothing at all, or leaves the log of an advance. -/
theorem parted_runAlone (env : Environment σ) {w : World σ} (distinct : Distinct w)
    (resuming : Bool) (id : String) :
    Unbegun ((runAlone env.observed resuming id).run w.observed).2 ∨
    ∃ run, run.id = id ∧
      Parted env run ((runAlone env.observed resuming id).run w.observed).2 := by
  obtain ⟨unread, hread⟩ := unbegun_read env resuming w
  unfold runAlone
  rcases runFrom_cases env.observed (fun _ => pure ()) resuming id w.observed with
    ⟨result, w', hrun, hw', -⟩ | ⟨run, hfound, hstate, hrun⟩
  · rw [hrun]
    rcases hw' with rfl | rfl
    · exact Or.inl unread
    · exact Or.inl hread
  · have hid : run.id = id := by simpa using List.find?_some hfound
    have hparted := parted_walkRun resuming
      (begins_read distinct resuming (List.mem_of_find?_eq_some hfound) hstate)
    refine Or.inr ⟨run, hid, ?_⟩
    rw [hrun, run_bind]
    rcases hwalk : (walkRun env.observed resuming run).run (w.observed.read env.observed resuming)
      with ⟨e | o, w'⟩ <;> rw [hwalk] at hparted
    · exact hparted
    · dsimp only
      split <;> exact hparted

/-- A run that has ended is not executed any more. -/
theorem runFrom_of_isTerminal (env : Environment σ) {w : World σ} (distinct : Distinct w) {r : Run}
    (hr : r ∈ w.db.runs) (ended : r.state.isTerminal) (route : List Event → Engine σ Unit)
    (resuming : Bool) :
    ∃ result w', (runFrom env route resuming r.id).run w = (result, w') ∧
      w'.calls = w.calls ∧ w'.db.records = w.db.records ∧ r ∈ w'.db.runs ∧
      ∀ o, result = .ok o → o.steps = 0 ∧ o.emitted = [] := by
  have hconcedes := w.concedes_read env resuming
  rcases runFrom_cases env route resuming r.id w with
    ⟨result, w', hrun, hw', ho⟩ | ⟨run, hfound, hstate, -⟩
  · rcases hw' with rfl | rfl
    · have hfirst := w.concedes_interrupted env (if resuming then .resume else .advance)
      exact ⟨_, _, hrun, rfl, hfirst.records_eq, hfirst.endsStay r hr ended, ho⟩
    · exact ⟨_, _, hrun, rfl, hconcedes.records_eq, hconcedes.endsStay r hr ended, ho⟩
  · have distinct' : Distinct (w.read env resuming) := calm_distinct w _ hconcedes distinct
    have hid : run.id = r.id := by simpa using List.find?_some hfound
    obtain rfl := distinct'.eq_of_id_eq (hconcedes.endsStay r hr ended)
      (List.mem_of_find?_eq_some hfound) hid.symm
    rw [hstate] at ended
    cases ended

/-! ## Cancels -/

/-- The run was cancelled, and this is its row. -/
def IsCancelled (id : String) (db : Database) (r : Run) : Prop :=
  r ∈ db.runs ∧ r.id = id ∧ r.state = .cancelled

/-- A cancel that takes effect leaves the run on its node. -/
theorem isCancelled_cancel {time : Instant} {id : String} {db : Database}
    (h : (db.cancel time id).1 = true) :
    ∃ o ∈ db.runs, ∃ r, IsCancelled id (db.cancel time id).2 r ∧ o.id = id ∧ r.node = o.node := by
  simp only [Database.cancel, Database.updateRun, List.any_eq_true] at h
  obtain ⟨o, ho, htarget⟩ := h
  have hmem := List.mem_map_of_mem (f := fun r => if r.id == id && r.state.isActive then
    Database.ended time .cancelled r.error r else r) ho
  simp only [htarget, if_true] at hmem
  have hid : o.id = id := by
    simp only [Bool.and_eq_true, beq_iff_eq] at htarget
    exact htarget.1
  exact ⟨o, ho, _, ⟨hmem, hid, rfl⟩, hid, rfl⟩

/-- Where the advance of a run that is cancelled has come to, and what is left of it. -/
theorem windsUp_of_isCancelled {w : World (σ × List Sighting)}
    (h : Attends env run node (WindsUp run.id node) none w) {before rest : List Sighting}
    {s : Sighting} (hsplit : w.sightings = before ++ s :: rest) {r : Run}
    (hr : IsCancelled run.id s.db r) : WindsUp run.id r.node (s :: rest) := by
  obtain ⟨hmem, hid, hstate⟩ := hr
  have hs : s ∈ w.sightings := by simp [hsplit]
  rw [h.node_eq (h.orderly.endsStay hs r hmem (by rw [hstate]; rfl)) hid]
  obtain ⟨running, work, hparted, uncancelled, hwork⟩ := h.parted
  refine hwork.of_suffix ?_
  rw [hparted] at hsplit
  rcases List.append_eq_append_iff.1 hsplit with ⟨more, -, rfl⟩ | ⟨more, rfl, hmore⟩
  · exact ⟨more, rfl⟩
  · cases more with
    | nil => exact hmore ▸ List.suffix_rfl
    | cons first more =>
      obtain ⟨rfl, -⟩ := List.cons.inj hmore
      exact absurd hstate (uncancelled s (by simp) r hmem hid)

/-- A cancel that takes effect leaves the run on its node, and from then on its row stays as it is,
whatever is done afterwards. If it is cancelled in an advance, then all that is left of the advance
is the end of its work at that node: it does not look at the state of the run again, asks the rest
of what one attempt at an action asks, or reads contacts for a condition, and makes one record at
most; then it only fails the run and reads its state. What was asked has been recorded in the end,
unless the database fails or no column can hold its number. The events that the run caused are
handled afterwards, and a run that was cancelled before is not executed at all. -/
theorem cancelled_run_winds_up (env : Environment σ) (w : World σ)
    (distinct : (w.db.runs.map (·.id)).Nodup) (id : String) (resuming : Bool)
    (ops : List Operation) :
    let own := ((runAlone env.observed resuming id).run w.observed).2
    let after := ((if resuming then resume env.observed id
      else advance env.observed id).run w.observed).2
    let later := performAll env.observed after ops
    (∀ time db, (Database.cancel time id db).1 = true → ∃ o ∈ db.runs, ∃ r,
      IsCancelled id (Database.cancel time id db).2 r ∧ o.id = id ∧ r.node = o.node) ∧
    (∀ before s rest, later.sightings = before ++ s :: rest → ∀ r, IsCancelled id s.db r →
      (∀ x ∈ rest, r ∈ x.db.runs) ∧ r ∈ later.db.runs) ∧
    (∀ before s rest, own.sightings = before ++ s :: rest → ∀ r, IsCancelled id s.db r →
      WindsUp id r.node (s :: rest)) ∧
    (env.host.Reliable → ∀ s ∈ own.sightings, Noted id own.db.records s) ∧
    (after = own ∨ ∃ events, after = ((routeFollowUps env.observed events).run own).2) ∧
    ∀ (w : World σ) (r : Run), (w.db.runs.map (·.id)).Nodup → IsCancelled id w.db r →
      ∀ route resuming, ∃ result w', (runFrom env route resuming id).run w = (result, w') ∧
        w'.calls = w.calls ∧ w'.db.records = w.db.records ∧ r ∈ w'.db.runs ∧
        ∀ o, result = .ok o → o.steps = 0 ∧ o.emitted = [] := by
  intro own after later
  have hexecute : (if resuming then resume env.observed id else advance env.observed id)
      = runFrom env.observed (routeFollowUps env.observed) resuming id := by
    cases resuming <;> rfl
  have orderly : Enduring later := by
    refine Enduring.performAll ?_ ops
    have hdoes : Does env.observed (.handling fun _ => True)
        (runFrom env.observed (routeFollowUps env.observed) resuming id) :=
      does_runFrom (fun _ _ => trivial) (does_routeFollowUps fun _ _ => trivial) resuming id
    rw [show after = _ from congrArg (fun x => (ExceptT.run x w.observed).2) hexecute]
    exact .of_path (hdoes.path _) w.enduring_observed
  have hparted := parted_runAlone env distinct resuming id
  refine ⟨fun _ _ => isCancelled_cancel, fun before s rest hsplit r hr => ?_,
    fun before s rest hsplit r hr => ?_, fun reliable s hs => ?_, ?_,
    fun w r distinct hr route resuming => ?_⟩
  · have ended : r.state.isTerminal := by rw [hr.2.2]; rfl
    exact ⟨fun x hx => orderly.endsStay_of_split hsplit x hx r hr.1 ended,
      orderly.endsStay (by simp [hsplit]) r hr.1 ended⟩
  · rcases hparted with unbegun | ⟨run, rfl, node, hattends⟩
    · exact unbegun.windsUp ⟨before, hsplit.symm⟩ _ _
    · exact windsUp_of_isCancelled hattends hsplit hr
  · rcases hparted with unbegun | ⟨run, rfl, node, hattends⟩
    · exact unbegun.noted hs _ _
    · rcases hattends.noted reliable s hs with hnoted | ⟨_, hnone, -⟩
      · exact hnoted
      · cases hnone
  · have halone := runFrom_alone env.observed (routeFollowUps env.observed) resuming id
      w.observed
    rwa [← hexecute] at halone
  · obtain ⟨hmem, rfl, hstate⟩ := hr
    exact runFrom_of_isTerminal env distinct hmem (by rw [hstate]; rfl) route resuming

/-- The run of the contact is cancelled while a mail to the contact is on its way. -/
def interfering : Environment Unit where
  host := {
    freshId := fun _ _ s => ("id", s)
    draw := fun s => (.zero, s)
    storage := fun _ _ s => (⟨[], none⟩, s)
    service := fun call _ s => match call with
      | .getContact .. => (⟨[], .value (some greeted)⟩, s)
      | .sendTemplate .. => (⟨["run-1"], .silence⟩, s)
      | _ => (⟨[], .silence⟩, s)
    wait := fun _ _ s => ([], s) }
  rules := undisturbed.rules

/-- A world with a run that is to send a mail. -/
def mailing : World Unit :=
  { circling with graphs := [("welcome-1",
    ⟨[⟨"start", .trigger "contact_created" none none, ""⟩,
      ⟨"mail", .sendEmail "t-1" none, ""⟩], [⟨0, 1, .default⟩]⟩)] }

/-- What is seen when the run is executed. -/
def interfered : World (Unit × List Sighting) :=
  ((runAlone interfering.observed false "run-1").run mailing.observed).2

/-- The run is cancelled during its attempt. The attempt is recorded, and after the wait that follows
the advance ends without another one. -/
theorem cancelled_run_winds_up_of_interfering :
    (mailing.db.runs.map (·.id)).Nodup ∧ interfering.host.Reliable ∧
    interfered.calls.length = 2 ∧
    interfered.db.records.map (fun o => (o.node, o.attempt)) = [("mail", 1)] ∧
    ∃ before s rest r, interfered.sightings = before ++ s :: rest ∧ before.length = 9 ∧
      rest.length = 2 ∧ IsCancelled "run-1" s.db r ∧ r.node = "mail" ∧
      WindsUp "run-1" r.node (s :: rest) ∧
      ∀ s ∈ interfered.sightings, Noted "run-1" interfered.db.records s := by
  have distinct : (mailing.db.runs.map (·.id)).Nodup := by decide
  have reliable : interfering.host.Reliable := fun _ _ _ => rfl
  have hlength : interfered.sightings.length = 12 := by decide +kernel
  have cancelled : (interfered.sightings[9]?.map fun s => s.db.runs.map fun r =>
      (r.id, r.node, r.state)) = some [("run-1", "mail", .cancelled)] := by decide +kernel
  obtain ⟨-, -, windsUp, noted, -⟩ :=
    cancelled_run_winds_up interfering mailing distinct "run-1" false []
  rw [← interfered] at windsUp noted
  obtain ⟨s, hs, hruns⟩ := Option.map_eq_some_iff.1 cancelled
  obtain ⟨r, hr, heq⟩ := List.map_eq_singleton_iff.1 hruns
  simp only [Prod.mk.injEq] at heq
  obtain ⟨hid, hnode, hstate⟩ := heq
  have hsplit : interfered.sightings
      = interfered.sightings.take 9 ++ s :: interfered.sightings.drop 10 := by
    obtain ⟨hlt, rfl⟩ := List.getElem?_eq_some_iff.1 hs
    rw [← List.drop_eq_getElem_cons, List.take_append_drop]
  have hcancelled : IsCancelled "run-1" s.db r := ⟨by simp [hr], hid, hstate⟩
  exact ⟨distinct, reliable, by decide +kernel, by decide +kernel, _, s, _, r, hsplit,
    by simp [hlength], by simp [hlength], hcancelled, hnode, windsUp _ _ _ hsplit r hcancelled,
    noted reliable⟩

end Engine

end CrmAutomation
