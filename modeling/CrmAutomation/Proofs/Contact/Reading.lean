import CrmAutomation.Contact

/-!
# Objects that describe contacts

A computation hinges on a condition if it succeeds exactly when that holds, and fails with a fault
of the system else (`HingesOn`). Reading a table hinges on the value being an object or a list of
pairs (`Table.hingesOn_ofValue`), and reading a contact hinges on the object describing one:
its attributes and custom fields are tables, and its tags can be gone through
(`Contact.hingesOn_ofMembers`).
-/

namespace CrmAutomation

/-! ## Computations that hinge on a condition -/

/-- A computation that succeeds if `p` holds, and fails with a fault of the system else. -/
inductive HingesOn (p : Prop) {α : Type} : Except Failure α → Prop
  | ok (holds : p) (a : α) : HingesOn p (.ok a)
  | error (fails : ¬ p) (kind : SystemFault) (m : String) : HingesOn p (.error (.system kind m))

namespace HingesOn

variable {α β : Type} {p q : Prop} {x : Except Failure α}

theorem congr (h : HingesOn p x) (hpq : p ↔ q) : HingesOn q x := propext hpq ▸ h

/-- Two computations one after the other hinge on both conditions. -/
theorem bind {f : α → Except Failure β} (h : HingesOn p x)
    (h' : ∀ a, x = .ok a → HingesOn q (f a)) : HingesOn (p ∧ q) (x >>= f) := by
  cases h with
  | ok holds a =>
    exact (h' a rfl).congr ⟨fun hq => ⟨holds, hq⟩, fun hpq => hpq.2⟩
  | error fails kind m => exact .error (fun hpq => fails hpq.1) kind m

theorem exists_system (h : HingesOn p x) {f : Failure} (hx : x = .error f) :
    ∃ kind m, f = .system kind m := by
  cases h with
  | ok holds a => cases hx
  | error fails kind m => exact ⟨kind, m, (Except.error.inj hx).symm⟩

theorem exists_ok_iff (h : HingesOn p x) : (∃ a, x = .ok a) ↔ p := by
  cases h with
  | ok holds a => exact iff_of_true ⟨a, rfl⟩ holds
  | error fails kind m => exact iff_of_false (by simp) fails

end HingesOn

/-! ## Tables -/

namespace Value

/-- A value that can be gone through. -/
def IsIterable (v : Value) : Prop := ∃ xs, v.items? = some xs

/-- A name and a value; lists and objects are no names. -/
def IsPair (v : Value) : Prop :=
  ∃ k x, v.items? = some [k, x] ∧ (∀ xs, k ≠ .list xs) ∧ ∀ ms, k ≠ .obj ms

/-- An object, or a list of pairs. -/
def IsTabular (v : Value) : Prop :=
  (∃ ms, v = .obj ms) ∨ ∃ xs, v.items? = some xs ∧ ∀ x ∈ xs, x.IsPair

end Value

namespace Table

theorem hingesOn_pair (position : Nat) (v : Value) : HingesOn v.IsPair (pair position v) := by
  unfold pair
  cases hitems : v.items? with
  | none => exact .error (by simp [Value.IsPair, hitems]) _ _
  | some xs =>
    match xs with
    | [k, x] =>
      cases k with
      | list xs => exact .error (by simp [Value.IsPair, hitems]) _ _
      | obj ms => exact .error (by simp [Value.IsPair, hitems]) _ _
      | _ => exact .ok (by simp [Value.IsPair, hitems]) _
    | [] | [_] | _ :: _ :: _ :: _ => exact .error (by simp [Value.IsPair, hitems]) _ _

theorem hingesOn_pairs : ∀ (xs : List Value) (position : Nat) (acc : Table),
    HingesOn (∀ x ∈ xs, x.IsPair) (pairs position acc xs)
  | [], position, acc => .ok (by simp) acc
  | v :: rest, position, acc =>
    ((hingesOn_pair position v).bind fun kx _ => hingesOn_pairs rest (position + 1) _).congr
      List.forall_mem_cons.symm

/-- A table can be read from an object and from a list of pairs. -/
theorem hingesOn_ofValue (v : Value) : HingesOn v.IsTabular (ofValue v) := by
  have other (hobj : ∀ ms, v ≠ .obj ms) : v.IsTabular ↔
      ∃ xs, v.items? = some xs ∧ ∀ x ∈ xs, x.IsPair := by
    simp [Value.IsTabular, hobj]
  cases v with
  | obj ms => exact .ok (.inl ⟨ms, rfl⟩) _
  | list xs =>
    exact (hingesOn_pairs xs 0 []).congr ((other (by simp)).trans (by simp [Value.items?])).symm
  | str s =>
    exact (hingesOn_pairs _ 0 []).congr ((other (by simp)).trans (by simp [Value.items?])).symm
  | _ => exact .error (by simp [Value.IsTabular, Value.items?]) _ _

end Table

/-! ## Contacts -/

namespace Members

variable {key other : String}

theorem getD_setDefault_of_ne (h : other ≠ key) (v : Value) (ms : Members) :
    getD other (setDefault key v ms) = getD other ms := by
  unfold setDefault
  split
  · rfl
  · rw [getD, get?_set_of_ne h, getD]

theorem get?_setDefault_self (key : String) (v : Value) (ms : Members) :
    ∃ w, get? key (setDefault key v ms) = some w := by
  unfold setDefault
  split
  · rename_i h
    exact Option.isSome_iff_exists.mp h
  · exact ⟨v, get?_set_self key v ms⟩

theorem exists_get?_setDefault {w : Value} {ms : Members} (h : get? other ms = some w)
    (key : String) (v : Value) : ∃ w, get? other (setDefault key v ms) = some w := by
  unfold setDefault
  split
  · exact ⟨w, h⟩
  · by_cases hk : other = key
    · exact ⟨v, hk ▸ get?_set_self key v ms⟩
    · exact ⟨w, (get?_set_of_ne hk v ms).trans h⟩

end Members

namespace Contact

/-- An object that describes a contact, whose id is known. -/
structure Describes (ms : Members) : Prop where
  fields : ((Members.getD "fields" ms).orElse (.obj [])).IsTabular
  tags : ((either ms "tags" "tag_ids").orElse (.list [])).IsIterable
  customFields : ((either ms "custom_fields" "customFields").orElse (.obj [])).IsTabular

theorem describes_iff (ms : Members) : Describes ms ↔
    ((Members.getD "fields" ms).orElse (.obj [])).IsTabular
      ∧ ((either ms "tags" "tag_ids").orElse (.list [])).IsIterable
      ∧ ((either ms "custom_fields" "customFields").orElse (.obj [])).IsTabular :=
  ⟨fun h => ⟨h.fields, h.tags, h.customFields⟩, fun h => ⟨h.1, h.2.1, h.2.2⟩⟩

/-- A contact with an id can be read from the objects that describe one. -/
theorem hingesOn_ofMembers {ms : Members} {id : Value} (hid : Members.get? "id" ms = some id) :
    HingesOn (Describes ms) (ofMembers ms) := by
  refine HingesOn.congr ?_ (describes_iff ms).symm
  unfold ofMembers
  rw [hid]
  refine (Table.hingesOn_ofValue _).bind fun given _ => ?_
  dsimp only
  split
  · rename_i htags
    exact .error (by simp [Value.IsIterable, htags]) _ _
  · rename_i ts htags
    have iterable : ((either ms "tags" "tag_ids").orElse (.list [])).IsIterable := ⟨ts, htags⟩
    refine ((Table.hingesOn_ofValue _).bind fun customFields _ => .ok trivial _).congr ?_
    simp only [iterable, and_true, true_and]

/-- The names that a contact is given when it has none do not matter to the rest. -/
theorem describes_setDefault_iff {key : String} (h : key = "id" ∨ key = "organization_id")
    (v : Value) (ms : Members) : Describes (Members.setDefault key v ms) ↔ Describes ms := by
  have same (other : String) (hother : other ∉ ["id", "organization_id"]) :
      Members.getD other (Members.setDefault key v ms) = Members.getD other ms :=
    Members.getD_setDefault_of_ne
      (fun heq => hother (by rcases h with rfl | rfl <;> simp [heq])) v ms
  simp only [describes_iff, either, same "fields" (by decide), same "tags" (by decide),
    same "tag_ids" (by decide), same "custom_fields" (by decide), same "customFields" (by decide)]

end Contact

end CrmAutomation
