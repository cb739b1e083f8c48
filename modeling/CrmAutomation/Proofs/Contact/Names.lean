import CrmAutomation.Condition
import CrmAutomation.Proofs.Http.Segments

/-!
# Names of fields

A condition looks a name up in a contact (`Contact.lookup?`), and a template is rendered with the
flat view of it (`Contact.mergeFields`). In both an attribute comes before a custom field of its
name. But the flat view has the id and the stage of the contact before an attribute of that name and
knows neither its tags nor the custom fields as a whole, which a condition finds before a custom
field of that name. Apart from these names (`Contact.ReadsApart`) a condition tests what a template
renders (`Contact.tests_what_is_rendered`), and no name is apart but `tags` and `custom_fields` if
the attributes stand beside the id (`Contact.attribute?_eq_none`).
-/

namespace CrmAutomation

/-! ## Names in a table -/

namespace Table

variable {key : String} {name value v : Value}

/-- A text is the same name as itself only. -/
theorem sameName_str_iff : sameName name (.str key) ↔ name = .str key := by
  cases name <;> simp [sameName, Value.same, Value.whole?]

theorem str_sameName_iff : sameName (.str key) name ↔ name = .str key := by
  cases name with
  | str s => simpa [sameName, Value.same] using eq_comm
  | _ => simp [sameName, Value.same]

theorem get?_set_self (key : String) (value : Value) (t : Table) :
    get? key (set (.str key) value t) = some value := by
  induction t with
  | nil => simp [set, get?]
  | cons p rest ih =>
    obtain ⟨k, x⟩ := p
    by_cases same : sameName k (.str key)
    · obtain rfl := sameName_str_iff.1 same
      simp [set, same, get?]
    · have other : k ≠ .str key := fun heq => same (sameName_str_iff.2 heq)
      rw [set, if_neg same]
      cases k <;> simp_all [get?]

theorem get?_set_of_ne (h : name ≠ .str key) (value : Value) (t : Table) :
    get? key (set name value t) = get? key t := by
  induction t with
  | nil => cases name <;> simp_all [set, get?]
  | cons p rest ih =>
    obtain ⟨k, x⟩ := p
    by_cases same : sameName k name
    · have other : k ≠ .str key := by
        rintro rfl
        exact h (str_sameName_iff.1 same)
      rw [set, if_pos same]
      cases k <;> simp_all [get?]
    · rw [set, if_neg same]
      cases k <;> simp_all [get?]

theorem get?_append (key : String) (t t' : Table) :
    get? key (t ++ t') = (get? key t).or (get? key t') := by
  induction t with
  | nil => rfl
  | cons p rest ih =>
    obtain ⟨name, value⟩ := p
    cases name with
    | str s =>
      by_cases same : s = key
      · simp [get?, same]
      · simpa [get?, same] using ih
    | _ => exact ih

/-- Of the entries that are set onto a table the last one of a name is found. -/
theorem get?_merge (key : String) (base added : Table) :
    get? key (merge base added) = (get? key added.reverse).or (get? key base) := by
  induction added generalizing base with
  | nil => rfl
  | cons p rest ih =>
    obtain ⟨name, value⟩ := p
    rw [merge, List.foldl_cons, ← merge, ih, List.reverse_cons, get?_append, Option.or_assoc]
    by_cases same : name = .str key
    · rw [same, get?_set_self, get?, if_pos rfl, Option.some_or]
    · rw [get?_set_of_ne same]
      cases name <;> simp_all [get?]

end Table

/-- A text without a separator is one part. -/
theorem Text.splitOn_of_notMem {separator : Char} {s : String} (h : separator ∉ s.toList) :
    Text.splitOn separator s = [s] := by
  have parts := splitOn_append_of_notMem h []
  rw [List.append_nil, List.splitOn_nil] at parts
  rw [Text.splitOn_eq, parts]
  simp

namespace Contact

variable {c : Contact} {key : String} {v : Value} {ms : Members}

/-! ## What a name stands for -/

/-- The value that a condition takes for one that is there. -/
def given? : Option Value → Option Value := Option.filter fun v => !v.isNull

@[simp] theorem given?_none : given? none = none := rfl

theorem given?_some (given : v ≠ .null) : given? (some v) = some v := by
  cases v <;> simp_all [given?, Option.filter, Value.isNull]

/-- The attribute of a name. -/
def attribute? (c : Contact) (key : String) : Option Value := Table.get? key c.fields.reverse

/-- What the contact itself has under a name. -/
def own? (c : Contact) (key : String) : Option Value :=
  if key = "id" then some (.str c.id)
  else if key = "stage_id" then some c.stage
  else if key = "tags" then some (.list (c.tags.map .str))
  else none

/-- A template has the id and the stage, then attributes, then custom fields. -/
theorem get?_mergeFields (c : Contact) (key : String) :
    c.mergeFields.get? key =
      if key = "stage_id" then some c.stage
      else if key = "id" then some (.str c.id)
      else (c.attribute? key).or (c.customFields.get? key) := by
  rw [mergeFields]
  split
  · rename_i h
    rw [h, Table.get?_set_self]
  · rename_i stage
    rw [Table.get?_set_of_ne (by simpa using Ne.symm stage)]
    split
    · rename_i h
      rw [h, Table.get?_set_self]
    · rename_i id
      rw [Table.get?_set_of_ne (by simpa using Ne.symm id), Table.get?_merge]
      rfl

/-- A condition has the custom fields as a whole, then attributes, then what is the contact's. -/
theorem get?_ownAttributes (c : Contact) (key : String) :
    c.ownAttributes.get? key =
      if key = "custom_fields" then some (.obj c.customFields.toMembers)
      else (c.attribute? key).or (c.own? key) := by
  rw [ownAttributes]
  split
  · rename_i h
    rw [h, Table.get?_set_self]
  · rename_i h
    rw [Table.get?_set_of_ne (by simpa using Ne.symm h), Table.get?_merge]
    simp only [Table.ofMembers, List.map_cons, List.map_nil, Table.get?, own?, attribute?,
      eq_comm (a := key)]

/-- A condition takes a name without a point for what the contact has under it, or else for a custom
field, unless that is null. -/
theorem lookup?_eq (plain : '.' ∉ key.toList) :
    c.lookup? key = (given? (c.ownAttributes.get? key)).or (given? (c.customFields.get? key)) := by
  have present (source : Table) : present? source [key] = given? (source.get? key) := by
    rw [present?]
    cases source.get? key with
    | none => rfl
    | some v => cases v <;> rfl
  rw [lookup?, Text.splitOn_of_notMem plain, present, present]
  cases given? (c.ownAttributes.get? key) <;> rfl

/-! ## Names that are read apart -/

/-- A name by which a condition may read something else than the value that a template has: that of
the custom fields as a whole, that of the tags if there is no such attribute, and that of the id or
the stage if there is such an attribute with another value. -/
inductive ReadsApart (c : Contact) (key : String) (v : Value) : Prop where
  | whole (name : key = "custom_fields")
  | tags (name : key = "tags") (free : c.attribute? key = none)
  | homonym (name : key = "id" ∨ key = "stage_id") {w : Value}
    (held : c.attribute? key = some w) (other : w ≠ v)

/-- A name that is not read apart stands for the same in a condition as in a template. -/
theorem lookup?_eq_some (plain : '.' ∉ key.toList) (merged : c.mergeFields.get? key = some v)
    (given : v ≠ .null) (together : ¬c.ReadsApart key v) : c.lookup? key = some v := by
  have whole : key ≠ "custom_fields" := fun name => together (.whole name)
  have found : (c.attribute? key).or (c.own? key) = some v ∨
      (c.attribute? key).or (c.own? key) = none ∧ c.customFields.get? key = some v := by
    rw [get?_mergeFields] at merged
    cases held : c.attribute? key with
    | some w =>
      left
      rw [Option.some_or]
      by_cases name : key = "id" ∨ key = "stage_id"
      · exact congrArg some (by_contra fun other => together (.homonym name held other))
      · rw [not_or] at name
        rwa [if_neg name.2, if_neg name.1, held, Option.some_or] at merged
    | none =>
      rw [Option.none_or, own?]
      have tags : key ≠ "tags" := fun name => together (.tags name held)
      by_cases id : key = "id"
      · left
        simpa [id] using merged
      · by_cases stage : key = "stage_id"
        · left
          simpa [stage] using merged
        · right
          simpa [id, stage, tags, held] using merged
  rw [lookup?_eq plain, get?_ownAttributes, if_neg whole]
  rcases found with found | ⟨missing, found⟩
  · rw [found, given?_some given, Option.some_or]
  · rw [missing, found, given?_some given]
    rfl

/-! ## Attributes of a description -/

/-- The attributes of a contact are those given apart, and the members that have no meaning of their
own. -/
theorem fields_of_ofMembers (described : ofMembers ms = .ok c) :
    ∃ apart, Table.ofValue ((Members.getD "fields" ms).orElse (.obj [])) = .ok apart ∧
      c.fields = ms.foldl (fun acc p =>
        if p.1 ∈ reservedKeys then acc else Table.setDefault (.str p.1) p.2 acc) apart := by
  unfold ofMembers at described
  cases hgiven : Table.ofValue ((Members.getD "fields" ms).orElse (.obj [])) with
  | error e =>
    rw [hgiven] at described
    cases described
  | ok apart =>
    rw [hgiven] at described
    refine ⟨apart, rfl, ?_⟩
    simp only [bind, Except.bind] at described
    split at described
    · cases described
    · split at described
      · cases described
      · split at described
        · cases described
        · cases described
          rfl

/-- An attribute by a name that has a meaning of its own is one that was given apart. -/
theorem get?_foldl_setDefault (reserved : key ∈ reservedKeys) (ms : Members) (t : Table) :
    Table.get? key (ms.foldl (fun acc p =>
      if p.1 ∈ reservedKeys then acc else Table.setDefault (.str p.1) p.2 acc) t).reverse =
    Table.get? key t.reverse := by
  induction ms generalizing t with
  | nil => rfl
  | cons p rest ih =>
    rw [List.foldl_cons, ih]
    split
    · rfl
    · rename_i free
      have other : p.1 ≠ key := fun heq => free (heq ▸ reserved)
      rw [Table.setDefault]
      split
      · rfl
      · rw [List.reverse_append, List.reverse_singleton, List.singleton_append, Table.get?,
          if_neg other]

/-- A contact whose attributes stand beside its id has none by a name with a meaning of its own. -/
theorem attribute?_eq_none (described : ofMembers ms = .ok c)
    (beside : (Members.getD "fields" ms).isTruthy = false) (reserved : key ∈ reservedKeys) :
    c.attribute? key = none := by
  obtain ⟨apart, hapart, fields⟩ := fields_of_ofMembers described
  rw [Value.orElse, if_neg (by simp [beside])] at hapart
  obtain rfl : [] = apart := Except.ok.inj hapart
  rw [attribute?, fields, get?_foldl_setDefault reserved]
  rfl

/-- Whatever object describes a contact, a condition on a name without a point tests the value that
a template has for it, if that is there and the name is not read apart; what a condition tests by
the name of the custom fields or the tags are these. -/
theorem tests_what_is_rendered (described : ofMembers ms = .ok c) (plain : '.' ∉ key.toList)
    (merged : c.mergeFields.get? key = some v) (given : v ≠ .null) :
    (¬c.ReadsApart key v → c.lookup? key = some v ∧
      ∀ (x : Comparison) (operator : Operator), x.field = key →
        Operator.ofText? x.operator = some operator → x.holds c = x.compareValue operator v) ∧
    (key = "custom_fields" → c.lookup? key = some (.obj c.customFields.toMembers)) ∧
    (key = "tags" → c.attribute? key = none → c.lookup? key = some (.list (c.tags.map .str))) ∧
    ((Members.getD "fields" ms).isTruthy = false → key ≠ "tags" → key ≠ "custom_fields" →
      ¬c.ReadsApart key v) := by
  refine ⟨fun together => ?_, fun name => ?_, fun name free => ?_, fun beside tags whole => ?_⟩
  · have found := lookup?_eq_some plain merged given together
    refine ⟨found, fun x operator field known => ?_⟩
    rw [Comparison.holds, known, field, found]
  · rw [lookup?_eq plain, get?_ownAttributes, if_pos name]
    rfl
  · subst name
    rw [lookup?_eq plain, get?_ownAttributes, free]
    rfl
  · rintro (name | ⟨name, -⟩ | ⟨name, held, -⟩)
    · exact whole name
    · exact tags name
    · rw [attribute?_eq_none described beside (by rcases name with rfl | rfl <;> decide)] at held
      cases held

/-- What describes a contact with attributes beside its id, and a custom field by the name of one. -/
def employed : Members :=
  [("id", .str "c-1"), ("stage_id", .str "s-new"), ("company", .str "Acme"),
    ("custom_fields", .obj [("company", .str "Other"), ("size", .int 5)])]

/-- A condition tests the attribute, the custom field that no attribute has the name of, and the
stage, as a template has them. -/
theorem tests_what_is_rendered_of_employed : ∃ c, ofMembers employed = .ok c ∧
    c.mergeFields.get? "company" = some (.str "Acme") ∧ c.lookup? "company" = some (.str "Acme") ∧
    c.mergeFields.get? "size" = some (.int 5) ∧ c.lookup? "size" = some (.int 5) ∧
    c.mergeFields.get? "stage_id" = some (.str "s-new") ∧
    c.lookup? "stage_id" = some (.str "s-new") := by
  obtain ⟨c, described, company, size, stage⟩ : ∃ c, ofMembers employed = .ok c ∧
      c.mergeFields.get? "company" = some (.str "Acme") ∧
      c.mergeFields.get? "size" = some (.int 5) ∧
      c.mergeFields.get? "stage_id" = some (.str "s-new") := ⟨_, rfl, rfl, rfl, rfl⟩
  have found {key : String} {v : Value} (merged : c.mergeFields.get? key = some v)
      (plain : '.' ∉ key.toList ∧ key ≠ "tags" ∧ key ≠ "custom_fields") (given : v ≠ .null) :
      c.lookup? key = some v :=
    have ⟨agrees, _, _, together⟩ := tests_what_is_rendered described plain.1 merged given
    (agrees (together rfl plain.2.1 plain.2.2)).1
  exact ⟨c, described, company, found company (by decide) (by simp), size,
    found size (by decide) (by simp), stage, found stage (by decide) (by simp)⟩

/-- What describes a contact with custom fields and attributes by the names of other parts. -/
def homonymous : Members :=
  [("id", .str "c-1"), ("stage_id", .str "s-new"), ("tags", .list [.str "vip"]),
    ("fields", .obj [("id", .str "crm-7"), ("stage_id", .null)]),
    ("custom_fields", .obj [("tags", .str "gold"), ("custom_fields", .str "x")])]

/-- Of each of these names a template has another value than a condition. -/
theorem homonyms_read_apart : ∃ c, ofMembers homonymous = .ok c ∧
    c.mergeFields.get? "tags" = some (.str "gold") ∧
    c.lookup? "tags" = some (.list [.str "vip"]) ∧
    c.mergeFields.get? "custom_fields" = some (.str "x") ∧
    c.lookup? "custom_fields" = some (.obj [("tags", .str "gold"), ("custom_fields", .str "x")]) ∧
    c.mergeFields.get? "id" = some (.str "c-1") ∧ c.lookup? "id" = some (.str "crm-7") ∧
    c.mergeFields.get? "stage_id" = some (.str "s-new") ∧ c.lookup? "stage_id" = none :=
  ⟨_, rfl, rfl, rfl, rfl, rfl, rfl, rfl, rfl, rfl⟩

end Contact

end CrmAutomation
