import CrmAutomation.Http.Dialogue
import Mathlib.Data.List.Basic

/-!
# Requests on their way

What is added to a request when it is sent leaves its method, its URL, its body and the headers
that it has, but for the authorization (`Request.keeps_complete`). The requests of two dialogues
one after the other are those of the first and then those of the second
(`Dialogue.answer_andThen`).
-/

namespace CrmAutomation

namespace Http

/-! ## Requests as they are sent -/

namespace Request

/-- A request keeps what another one has: the method, the URL, the body and every header but the
authorization. -/
structure Keeps (r' r : Request) : Prop where
  method : r'.method = r.method
  url : r'.url = r.url
  body : r'.body = r.body
  header : ∀ {name value : String}, name ≠ "authorization" → r.header? name = some value →
    r'.header? name = some value

variable {r r' r'' : Request}

theorem Keeps.refl (r : Request) : r.Keeps r := ⟨rfl, rfl, rfl, fun _ h => h⟩

theorem Keeps.trans (h : r''.Keeps r') (h' : r'.Keeps r) : r''.Keeps r :=
  ⟨h.method.trans h'.method, h.url.trans h'.url, h.body.trans h'.body,
    fun hname hvalue => h.header hname (h'.header hname hvalue)⟩

theorem keeps_append (r : Request) (hs : List (String × String)) :
    Keeps { r with headers := r.headers ++ hs } r := by
  refine ⟨rfl, rfl, rfl, fun {name value} _ h => ?_⟩
  obtain ⟨found, hfound, rfl⟩ := Option.map_eq_some_iff.mp h
  simp only [header?, List.find?_append, hfound]
  rfl

theorem keeps_withDefault (r : Request) (h : String × String) : (r.withDefault h).Keeps r := by
  unfold withDefault
  split
  · exact .refl r
  · exact keeps_append r [h]

theorem keeps_foldl_withDefault (hs : List (String × String)) :
    ∀ r : Request, (hs.foldl withDefault r).Keeps r := by
  induction hs with
  | nil => exact Keeps.refl
  | cons h hs ih => exact fun r => (ih (r.withDefault h)).trans (keeps_withDefault r h)

theorem keeps_withoutAuthorization (r : Request) :
    Keeps { r with headers := r.headers.filter fun h => h.1 != "authorization" } r := by
  refine ⟨rfl, rfl, rfl, fun {name value} hname h => ?_⟩
  have same : (fun h : String × String => h.1 != "authorization" && h.1 == name)
      = fun h => h.1 == name := by
    funext h
    by_cases hn : h.1 = name
    · simp [hn, hname]
    · simp [hn]
  simpa only [header?, List.find?_filter, Bool.decide_and, Bool.decide_eq_true, same] using h

theorem keeps_withCredentials (r : Request) : r.withCredentials.Keeps r := by
  unfold withCredentials
  split
  · exact .refl r
  · exact (keeps_append _ _).trans (keeps_withoutAuthorization r)

theorem keeps_withHost (r : Request) : r.withHost.Keeps r := by
  unfold withHost
  split
  · exact .refl r
  · exact keeps_withDefault r _

theorem keeps_withLength (r : Request) : r.withLength.Keeps r := by
  unfold withLength
  split
  · split
    · exact keeps_withDefault r _
    · exact .refl r
  · exact keeps_withDefault r _

/-- A request that is sent keeps what it was made with. -/
theorem keeps_complete (r : Request) : r.complete.Keeps r :=
  (keeps_withLength _).trans ((keeps_withHost _).trans
    ((keeps_foldl_withDefault _ _).trans (keeps_withCredentials r)))

end Request

/-! ## Dialogues one after the other -/

namespace Dialogue

variable {α β : Type}

theorem answer_andThen (d : Dialogue α) (f : Except Failure α → Dialogue β)
    (replies : List (Except Failure Reply)) :
    ((d.andThen f).answer replies).1
      = (d.answer replies).1
        ++ ((f (d.answer replies).2.2).answer (d.answer replies).2.1).1 := by
  induction d generalizing replies with
  | done result => rfl
  | ask request next ih =>
    change request :: (((next (replies.headD defaultReply)).andThen f).answer replies.tail).1 = _
    rw [ih]
    rfl

end Dialogue

end Http

end CrmAutomation
