import CrmAutomation.Proofs.Engine.Labours

/-!
# What the services answered

A world keeps the calls that were made to the services, but not what came of them. `Host.answered`
is a host that does everything as another one does, and keeps every call with its answer
(`ServiceReply`). Whatever is done, the replies are added in the order of the calls
(`Engine.Does.exists_replies`); so what makes no calls and records nothing leaves the replies and
the trail as they are, which together are the account of a world (`Engine.Does.keeps_account`).
-/

namespace CrmAutomation

variable {σ α : Type}

/-- A call to a service, and what came of it. -/
structure ServiceReply where
  call : ServiceCall
  answer : Answer call.Result

/-- The host with the replies of the services. -/
def Host.answered (host : Host σ) : Host (σ × List ServiceReply) where
  freshId kind db s := ((host.freshId kind db s.1).1, (host.freshId kind db s.1).2, s.2)
  draw s := ((host.draw s.1).1, (host.draw s.1).2, s.2)
  storage call db s := ((host.storage call db s.1).1, (host.storage call db s.1).2, s.2)
  service call db s := ((host.service call db s.1).1, (host.service call db s.1).2,
    s.2 ++ [⟨call, (host.service call db s.1).1.answer⟩])
  wait delay db s := ((host.wait delay db s.1).1, (host.wait delay db s.1).2, s.2)

/-- The same surroundings, with the replies of the services. -/
def Environment.answered (env : Environment σ) : Environment (σ × List ServiceReply) where
  host := env.host.answered
  rules := env.rules

namespace Host

variable {env : Environment σ} {id : String}

theorem Reliable.answered (h : env.host.Reliable) : env.answered.host.Reliable :=
  fun call db s => h call db s.1

theorem Spares.answered (h : env.host.Spares id) : env.answered.host.Spares id :=
  ⟨fun call db s => h.storage call db s.1, fun call db s => h.service call db s.1,
    fun delay db s => h.wait delay db s.1⟩

end Host

/-- What was answered so far. -/
def World.replies (w : World (σ × List ServiceReply)) : List ServiceReply := w.host.2

/-- The replies of the services, and the trail. -/
structure Account where
  replies : List ServiceReply
  records : List NodeRecord

def World.account (w : World (σ × List ServiceReply)) : Account := ⟨w.replies, w.db.records⟩

/-- A column that holds a number holds the ones below it that are not negative. -/
theorem Database.fitsColumn_of_le {m n : Int} (nonneg : 0 ≤ m) (le : m ≤ n)
    (fits : Database.fitsColumn n = true) : Database.fitsColumn m = true := by
  simp only [Database.fitsColumn, Bool.and_eq_true, decide_eq_true_eq] at *
  have : (0 : Int) ≤ Int.pow 2 63 := by decide
  omega

variable {env : Environment σ} {remit : Remit} {w w' : World (σ × List ServiceReply)}

/-- Every call that a deed makes is answered. -/
theorem Deed.exists_replies (h : Deed env.answered remit w w') : ∃ made,
    w'.replies = w.replies ++ made ∧ w'.calls = w.calls ++ made.map (·.call) := by
  cases h with
  | serve call => exact ⟨[⟨call, _⟩], rfl, rfl⟩
  | tick | name | draw | wait | interrupt | remember | turn | command | create | record =>
    exact ⟨[], (List.append_nil _).symm, (List.append_nil _).symm⟩

namespace Engine

variable {x : Engine (σ × List ServiceReply) α} {L : List ServiceCall → Prop} {b : Account}

/-- Every call that a computation makes is answered. -/
theorem Does.exists_replies (hx : Does env.answered remit x) (asks : Asks L x)
    (w : World (σ × List ServiceReply)) :
    ∃ made, (x.run w).2.replies = w.replies ++ made ∧ L (made.map (·.call)) := by
  obtain ⟨calls, hcalls, hL⟩ := asks w
  obtain ⟨made, hreplies, hmade⟩ := (hx.path w).keep
    (I := fun v => ∃ made, v.replies = w.replies ++ made ∧ v.calls = w.calls ++ made.map (·.call))
    (fun v v' hdeed hv => by
      obtain ⟨made, hreplies, hcalls⟩ := hv
      obtain ⟨more, hreplies', hcalls'⟩ := hdeed.exists_replies
      exact ⟨made ++ more, by rw [hreplies', hreplies, List.append_assoc],
        by rw [hcalls', hcalls, List.append_assoc, List.map_append]⟩)
    ⟨[], (List.append_nil _).symm, (List.append_nil _).symm⟩
  refine ⟨made, hreplies, ?_⟩
  rwa [List.append_cancel_left (hmade.symm.trans hcalls)]

/-- What writes no record leaves the trail as it is. -/
theorem Does.records_eq {x : Engine σ α} (hx : Does env remit x) (unrecorded : ¬remit.calls .record)
    (w : World σ) : (x.run w).2.db.records = w.db.records :=
  (hx.path w).keep (I := fun v => v.db.records = w.db.records)
    (fun _ _ hdeed hv => (hdeed.records_eq unrecorded).trans hv) rfl

/-- What writes no record adds the replies to its calls to the account. -/
theorem Does.exists_account (hx : Does env.answered .unrecording x) (asks : Asks L x)
    (w : World (σ × List ServiceReply)) :
    ∃ made, (x.run w).2.account = { w.account with replies := w.account.replies ++ made } ∧
      L (made.map (·.call)) := by
  obtain ⟨made, hreplies, hmade⟩ := hx.exists_replies asks w
  exact ⟨made, by rw [World.account, hreplies, hx.records_eq Remit.not_unrecording]; rfl, hmade⟩

/-- What asks nothing and writes no record leaves the account as it is. -/
theorem Does.keeps_account (hx : Does env.answered .unrecording x) (silent : Silent x) :
    Stays Any (fun w => w.account = b) x := by
  refine stays_iff.2 fun w hw => ⟨.single trivial, ?_⟩
  obtain ⟨made, haccount, hmade⟩ := hx.exists_account silent w
  rw [haccount, List.map_eq_nil_iff.1 hmade, List.append_nil]
  exact hw

/-- A call to a service is added to the replies. -/
theorem leads_ask_account (call : ServiceCall) :
    Leads Any (fun w => w.account = b) (ask env.answered call)
      (fun answer w => w.account = { b with replies := b.replies ++ [⟨call, answer⟩] })
      fun _ => False := by
  rintro w rfl
  refine ⟨.single trivial, ?_⟩
  exact congrArg (Account.mk _) (w.concedes_served env.answered call).records_eq

/-- A record of the next attempt is taken, if a column holds its number. -/
theorem leads_record_account (reliable : env.host.Reliable) {r : NodeRecord}
    (fits : Database.fitsColumn r.attempt = true)
    (fresh : ∀ o ∈ b.records, o.run = r.run → o.node = r.node → o.attempt ≠ r.attempt) :
    Leads Any (fun w => w.account = b)
      (record env.answered r.run r.node r.nodeType r.attempt r.outcome r.error r.output)
      (fun _ w => ∃ time,
        w.account = { b with records := b.records ++ [{ r with executedAt := time }] })
      fun _ => False := by
  rintro w rfl
  have conceded := w.concedes_interrupted env.answered .record
  rw [record, run_interrupt_bind, reliable.answered]
  dsimp only
  rw [run_commit]
  have first : ((w.interrupted env.answered .record).db.records.any fun o => o.run == r.run &&
      o.node == r.node && o.attempt == r.attempt) = false := by
    rw [conceded.records_eq]
    simp only [List.any_eq_false, Bool.and_eq_true, beq_iff_eq, not_and]
    exact fun o ho same => fresh o ho same.1 same.2
  split
  · rename_i hrecord
    obtain ⟨-, rfl⟩ := eq_of_record_eq_ok hrecord
    exact ⟨.single trivial, _, congrArg (fun l => Account.mk _ (l ++ _)) conceded.records_eq⟩
  · rename_i hrecord
    simp [Database.record, fits, first] at hrecord

end Engine

end CrmAutomation
