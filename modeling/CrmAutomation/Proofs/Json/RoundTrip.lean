import CrmAutomation.Json.Sendable
import CrmAutomation.Proofs.Json.Scalars

/-!
# Values read back

A value is read back from its document (`read_write`), in every style whose separators are a comma
and a colon, if it holds no double and its document tells all of it (`Value.IsExact`): integers that
are too long are refused, and of two members with one name only one is kept.
-/

namespace CrmAutomation

namespace Value

mutual

/-- Whether a value is the one that its document stands for: it holds no double, no integer that is
too long to be read, and no object that names a member twice. -/
def IsExact : Value → Prop
  | .int i => i.natAbs < 10 ^ Json.maxIntegerDigits
  | .float _ => False
  | .list xs => ItemsExact xs
  | .obj ms => MembersExact ms ∧ (ms.map Prod.fst).Nodup
  | _ => True

/-- Whether the items of a list are the ones that their documents stand for. -/
def ItemsExact : List Value → Prop
  | [] => True
  | v :: rest => IsExact v ∧ ItemsExact rest

/-- Whether the members of an object are the ones that their documents stand for. -/
def MembersExact : List (String × Value) → Prop
  | [] => True
  | (_, v) :: rest => IsExact v ∧ MembersExact rest

end

theorem isExact_int {i : Int} (h : i.natAbs < 10 ^ 12) : (Value.int i).IsExact :=
  Nat.lt_of_lt_of_le h (Nat.pow_le_pow_right (by decide) (by decide))

theorem isExact_of_mem {v : Value} : ∀ {vs : List Value}, ItemsExact vs → v ∈ vs → v.IsExact
  | _ :: _, h, hv => by
    rcases List.mem_cons.mp hv with rfl | hv
    · exact h.1
    · exact isExact_of_mem h.2 hv

theorem isExact_of_mem_members {p : String × Value} :
    ∀ {ms : Members}, MembersExact ms → p ∈ ms → p.2.IsExact
  | _ :: _, h, hp => by
    rcases List.mem_cons.mp hp with rfl | hp
    · exact h.1
    · exact isExact_of_mem_members h.2 hp

theorem depth_le_itemsDepth {v : Value} : ∀ {vs : List Value}, v ∈ vs → v.depth ≤ itemsDepth vs
  | _ :: _, hv => by
    rcases List.mem_cons.mp hv with rfl | hv
    · exact Nat.le_max_left _ _
    · exact Nat.le_trans (depth_le_itemsDepth hv) (Nat.le_max_right _ _)

theorem depth_le_membersDepth {p : String × Value} :
    ∀ {ms : Members}, p ∈ ms → p.2.depth ≤ membersDepth ms
  | _ :: _, hp => by
    rcases List.mem_cons.mp hp with rfl | hp
    · exact Nat.le_max_left _ _
    · exact Nat.le_trans (depth_le_membersDepth hp) (Nat.le_max_right _ _)

/-- A property of all values: of those that hold no others, and of lists and objects if all that
they hold have it. -/
@[elab_as_elim]
theorem induction_on_parts {P : Value → Prop} (scalar : ∀ v : Value, v.depth = 0 → P v)
    (list : ∀ vs, (∀ v ∈ vs, P v) → P (.list vs)) (obj : ∀ ms, (∀ p ∈ ms, P p.2) → P (.obj ms))
    (v : Value) : P v := by
  -- Values are held in lists, so the induction is on a bound of the depth.
  have bounded (n : Nat) : ∀ v : Value, v.depth ≤ n → P v := by
    induction n with
    | zero => exact fun v h => scalar v (Nat.le_zero.mp h)
    | succ n ih =>
      intro v h
      cases v with
      | list vs =>
        exact list vs fun v hv =>
          ih v (Nat.le_trans (depth_le_itemsDepth hv) (Nat.le_of_succ_le_succ h))
      | obj ms =>
        exact obj ms fun p hp =>
          ih p.2 (Nat.le_trans (depth_le_membersDepth hp) (Nat.le_of_succ_le_succ h))
      | _ => exact scalar _ rfl
  exact bounded _ v (Nat.le_refl _)

end Value

theorem Members.set_of_notMem {key : String} {v : Value} {ms : Members}
    (h : key ∉ ms.map Prod.fst) : Members.set key v ms = ms ++ [(key, v)] := by
  induction ms with
  | nil => rfl
  | cons p rest ih =>
    obtain ⟨hne, hrest⟩ := not_or.mp (List.mem_cons.not.mp h)
    rw [Members.set, if_neg (Ne.symm hne), ih hrest, List.cons_append]

namespace Json

open Value

/-! ## Separators -/

/-- A style whose separators are a comma and a colon, maybe followed by blanks. -/
structure Style.IsSeparating (style : Style) : Prop where
  item : ∃ blanks, style.itemSeparator.toList = ',' :: blanks ∧ ∀ c ∈ blanks, isSpace c = true
  key : ∃ blanks, style.keySeparator.toList = ':' :: blanks ∧ ∀ c ∈ blanks, isSpace c = true

theorem isSeparating_spaced : Style.spaced.IsSeparating :=
  have blank : ∀ c ∈ [' '], isSpace c = true := fun c hc => by rw [List.mem_singleton.mp hc]; rfl
  ⟨⟨_, rfl, blank⟩, ⟨_, rfl, blank⟩⟩

theorem isSeparating_compact : Style.compact.IsSeparating :=
  ⟨⟨[], rfl, List.forall_mem_nil _⟩, ⟨[], rfl, List.forall_mem_nil _⟩⟩

theorem skipSpace_append {blanks : List Char} (h : ∀ c ∈ blanks, isSpace c = true)
    (cs : List Char) : skipSpace (blanks ++ cs) = skipSpace cs :=
  List.dropWhile_append_of_pos h

theorem skipSpace_of_not_isSpace {c : Char} (h : isSpace c = false) (cs : List Char) :
    skipSpace (c :: cs) = c :: cs :=
  List.dropWhile_cons_of_neg (by simp [h])

theorem toList_writeText (style : Style) (s : String) :
    (writeText style s).toList
      = Text.doubleQuote :: (s.toList.flatMap (writeChar style) ++ [Text.doubleQuote]) := by
  rw [writeText, String.toList_ofList, List.cons_append]

theorem toList_write_list (style : Style) (vs : List Value) :
    (write style (.list vs)).toList = '[' :: ((writeItems style vs).toList ++ [']']) := by
  rw [write, String.toList_append, String.toList_append]
  rfl

theorem toList_write_obj (style : Style) (ms : Members) :
    (write style (.obj ms)).toList = '\x7b' :: ((writeMembers style ms).toList ++ ['\x7d']) := by
  rw [write, String.toList_append, String.toList_append]
  rfl

theorem endsNumber_cons {c : Char} (h : c ∈ [',', ']', '\x7d']) (rest : List Char) :
    EndsNumber (c :: rest) := by
  intro _ hc
  obtain rfl := Option.some.inj hc
  simp only [List.mem_cons, List.not_mem_nil, or_false] at h
  rcases h with rfl | rfl | rfl <;> decide

theorem notMem_of_nodup {p : String × Value} {acc ms : Members}
    (h : ((acc ++ p :: ms).map Prod.fst).Nodup) : p.1 ∉ acc.map Prod.fst := by
  rw [List.map_append, List.map_cons, List.nodup_append] at h
  exact fun hmem => h.2.2 _ hmem _ List.mem_cons_self rfl

/-! ## The beginning of a document -/

theorem not_isSpace_of_isWritten {c : Char} (h : Number.IsWritten c) : isSpace c = false := by
  rcases h with h | rfl
  · simp only [Char.isDigit, Bool.and_eq_true, decide_eq_true_eq] at h
    have low : 48 ≤ c.toNat := h.1
    simp only [isSpace, Bool.or_eq_false_iff, beq_eq_false_iff_ne]
    omega
  · decide

theorem exists_toString_eq (i : Int) :
    ∃ c cs, (toString i).toList = c :: cs ∧ Number.IsWritten c := by
  have written : (toString i).toList ≠ [] := by
    rw [Number.toList_toString]
    exact List.append_ne_nil_of_right_ne_nil _ Nat.toDigits_ne_nil
  obtain ⟨c, cs, hcs⟩ := List.exists_cons_of_ne_nil written
  exact ⟨c, cs, hcs, Number.isWritten_of_mem (hcs ▸ List.mem_cons_self)⟩

/-- What a value is written with begins with no blank, and with no bracket that closes a list. -/
theorem exists_write_eq (style : Style) {v : Value} (h : v.IsExact) :
    ∃ c cs, (write style v).toList = c :: cs ∧ isSpace c = false ∧ c ≠ ']' := by
  cases v with
  | null => exact ⟨'n', _, by rw [write]; rfl, by decide, by decide⟩
  | bool b => cases b with
    | true => exact ⟨'t', _, by rw [write]; rfl, by decide, by decide⟩
    | false => exact ⟨'f', _, by rw [write]; rfl, by decide, by decide⟩
  | int i =>
    obtain ⟨c, cs, hcs, written⟩ := exists_toString_eq i
    refine ⟨c, cs, by rw [write, hcs], not_isSpace_of_isWritten written, ?_⟩
    rintro rfl
    rcases written with h | h <;> exact absurd h (by decide)
  | float d => exact h.elim
  | str s => exact ⟨_, _, toList_writeText style s, by decide, by decide⟩
  | list xs => exact ⟨_, _, toList_write_list style xs, by decide, by decide⟩
  | obj ms => exact ⟨_, _, toList_write_obj style ms, by decide, by decide⟩

theorem exists_writeMembers_eq (style : Style) (p : String × Value) (ms : Members) :
    ∃ cs, (writeMembers style (p :: ms)).toList = Text.doubleQuote :: cs := by
  cases ms <;>
    simp only [writeMembers, String.toList_append, toList_writeText, List.cons_append] <;>
    exact ⟨_, rfl⟩

section Values

variable {style : Style} {fuel depth : Nat}

/-- A value is read back where it may stand `depth` deep, whatever follows it that ends a number. -/
def Reads (style : Style) (depth : Nat) (v : Value) : Prop :=
  ∀ {fuel : Nat} {rest : List Char}, (write style v).toList.length < fuel → EndsNumber rest →
    readValue fuel depth ((write style v).toList ++ rest) = .ok (v, rest)

/-! ## Items and members -/

theorem readItems_last {v : Value} {acc : List Value} {cs rest : List Char}
    (h : readValue fuel depth cs = .ok (v, ']' :: rest)) :
    readItems (fuel + 1) depth acc cs = .ok (.list (acc.reverse ++ [v]), rest) := by
  rw [readItems, h]
  simp [skipSpace_of_not_isSpace (show isSpace ']' = false by decide)]

theorem readItems_next {v : Value} {acc : List Value} {cs rest : List Char}
    (h : readValue fuel depth cs = .ok (v, ',' :: rest)) :
    readItems (fuel + 1) depth acc cs = readItems fuel depth (v :: acc) (skipSpace rest) := by
  rw [readItems, h]
  simp [skipSpace_of_not_isSpace (show isSpace ',' = false by decide)]

theorem exists_writeItems_eq (style : Style) {v : Value} (h : v.IsExact) (vs : List Value) :
    ∃ c cs, (writeItems style (v :: vs)).toList = c :: cs ∧ isSpace c = false ∧ c ≠ ']' := by
  obtain ⟨c, cs, hcs, hc⟩ := exists_write_eq style h
  cases vs with
  | nil => exact ⟨c, cs, hcs, hc⟩
  | cons w vs =>
    simp only [writeItems, String.toList_append, hcs, List.cons_append]
    exact ⟨c, _, rfl, hc⟩

theorem skipSpace_writeItems {v : Value} (h : v.IsExact) (vs : List Value) (rest : List Char) :
    skipSpace ((writeItems style (v :: vs)).toList ++ rest)
      = (writeItems style (v :: vs)).toList ++ rest := by
  obtain ⟨c, cs, hcs, hspace, -⟩ := exists_writeItems_eq style h vs
  rw [hcs]
  exact skipSpace_of_not_isSpace hspace _

/-- Items are read back up to the end of their list. -/
theorem readItems_writeItems (hs : style.IsSeparating) {v : Value} {vs acc : List Value}
    {rest : List Char} (exact : ItemsExact (v :: vs)) (reads : ∀ w ∈ v :: vs, Reads style depth w)
    (hfuel : (writeItems style (v :: vs)).toList.length + 1 < fuel) :
    readItems fuel depth acc ((writeItems style (v :: vs)).toList ++ ']' :: rest)
      = .ok (.list (acc.reverse ++ v :: vs), rest) := by
  obtain ⟨fuel, rfl⟩ := Nat.exists_eq_succ_of_ne_zero (Nat.ne_zero_of_lt hfuel)
  induction vs generalizing v acc fuel with
  | nil =>
    rw [writeItems] at hfuel ⊢
    exact readItems_last (reads v List.mem_cons_self (by omega) (endsNumber_cons (by simp) _))
  | cons w vs ih =>
    obtain ⟨blanks, hitem, hblanks⟩ := hs.item
    simp only [writeItems, String.toList_append, hitem, List.append_assoc, List.cons_append,
      List.length_append, List.length_cons] at hfuel ⊢
    obtain ⟨fuel, rfl⟩ := Nat.exists_eq_succ_of_ne_zero (n := fuel) (by omega)
    rw [readItems_next (reads v List.mem_cons_self (by omega) (endsNumber_cons (by simp) _)),
      skipSpace_append hblanks, skipSpace_writeItems exact.2.1,
      ih exact.2 (fun x hx => reads x (List.mem_cons_of_mem v hx)) fuel (by omega)]
    simp

/-- A member is read up to its comma or the end of its object. -/
theorem readMembers_member (hs : style.IsSeparating) {p : String × Value} {acc : Members} {c : Char}
    {rest : List Char} (exact : p.2.IsExact) (reads : Reads style depth p.2)
    (hfuel : (write style p.2).toList.length < fuel) (new : p.1 ∉ acc.map Prod.fst)
    (hc : c ∈ [',', '\x7d']) :
    readMembers (fuel + 1) depth acc ((writeText style p.1).toList ++ (style.keySeparator.toList
        ++ ((write style p.2).toList ++ c :: rest)))
      = if c = ',' then readMembers fuel depth (acc ++ [p]) (skipSpace rest)
        else .ok (.obj (acc ++ [p]), rest) := by
  obtain ⟨blanks, hkey, hblanks⟩ := hs.key
  obtain ⟨d, ds, hds, hspace, -⟩ := exists_write_eq style exact
  have value : readValue fuel depth (skipSpace (blanks ++ ((write style p.2).toList ++ c :: rest)))
      = .ok (p.2, c :: rest) := by
    rw [skipSpace_append hblanks, hds, List.cons_append, skipSpace_of_not_isSpace hspace,
      ← List.cons_append, ← hds]
    exact reads hfuel (endsNumber_cons (by simp at hc ⊢; tauto) _)
  rw [toList_writeText, hkey]
  simp only [List.cons_append, List.append_assoc, List.nil_append]
  rw [readMembers.eq_def]
  simp only [if_true, readText_toList,
    skipSpace_of_not_isSpace (show isSpace ':' = false by decide), value, Members.set_of_notMem new]
  simp only [List.mem_cons, List.not_mem_nil, or_false] at hc
  rcases hc with rfl | rfl
  · rw [if_pos rfl]
    rfl
  · rw [if_neg (by decide)]
    rfl

theorem skipSpace_writeMembers (p : String × Value) (ms : Members) (rest : List Char) :
    skipSpace ((writeMembers style (p :: ms)).toList ++ rest)
      = (writeMembers style (p :: ms)).toList ++ rest := by
  obtain ⟨cs, hcs⟩ := exists_writeMembers_eq style p ms
  rw [hcs]
  exact skipSpace_of_not_isSpace (by decide) _

/-- Members are read back up to the end of their object. -/
theorem readMembers_writeMembers (hs : style.IsSeparating) {p : String × Value} {ms acc : Members}
    {rest : List Char} (exact : MembersExact (p :: ms))
    (distinct : ((acc ++ p :: ms).map Prod.fst).Nodup)
    (reads : ∀ q ∈ p :: ms, Reads style depth q.2)
    (hfuel : (writeMembers style (p :: ms)).toList.length + 1 < fuel) :
    readMembers fuel depth acc ((writeMembers style (p :: ms)).toList ++ '\x7d' :: rest)
      = .ok (.obj (acc ++ p :: ms), rest) := by
  obtain ⟨fuel, rfl⟩ := Nat.exists_eq_succ_of_ne_zero (Nat.ne_zero_of_lt hfuel)
  -- The members read so far grow; that no name repeats one of them is carried along.
  induction ms generalizing p acc fuel with
  | nil =>
    simp only [writeMembers, String.toList_append, List.append_assoc, List.length_append] at hfuel ⊢
    rw [readMembers_member hs exact.1 (reads p List.mem_cons_self) (by omega)
      (notMem_of_nodup distinct) (by simp), if_neg (by decide)]
  | cons q ms ih =>
    obtain ⟨blanks, hitem, hblanks⟩ := hs.item
    simp only [writeMembers, String.toList_append, hitem, List.append_assoc, List.cons_append,
      List.length_append, List.length_cons] at hfuel ⊢
    obtain ⟨fuel, rfl⟩ := Nat.exists_eq_succ_of_ne_zero (n := fuel) (by omega)
    have shifted : acc ++ p :: q :: ms = acc ++ [p] ++ q :: ms := List.append_cons _ _ _
    rw [readMembers_member hs exact.1 (reads p List.mem_cons_self) (by omega)
      (notMem_of_nodup distinct) (by simp), if_pos rfl, skipSpace_append hblanks,
      skipSpace_writeMembers, shifted]
    exact ih exact.2 (shifted ▸ distinct) (fun x hx => reads x (List.mem_cons_of_mem p hx)) fuel
      (by omega)

/-! ## Values -/

/-- What begins with no bracket is a text, a word or a number. -/
theorem readValue_of_ne {c : Char} (hlist : c ≠ '[') (hobj : c ≠ '\x7b') (cs : List Char) :
    readValue (fuel + 1) depth (c :: cs) =
      if c = Text.doubleQuote then
        (readText (c :: cs).length [] cs).map fun p => (.str p.1, p.2)
      else readScalar (c :: cs) := by
  rw [readValue.eq_def]
  dsimp only
  split
  · rename_i heq
    cases heq
  · rename_i heq
    exact absurd (List.cons.inj heq).1 hlist
  · rename_i heq
    exact absurd (List.cons.inj heq).1 hobj
  · rename_i heq
    obtain ⟨rfl, rfl⟩ := List.cons.inj heq
    cases readText (_ :: _).length [] _ <;> rfl

theorem readValue_text (s : String) (rest : List Char) :
    readValue (fuel + 1) depth
        (Text.doubleQuote :: (s.toList.flatMap (writeChar style) ++ Text.doubleQuote :: rest))
      = .ok (.str s, rest) := by
  rw [readValue_of_ne (by decide) (by decide), if_pos rfl, readText_toList]
  rfl

/-- What is written for an integer begins with no bracket and no quote. -/
theorem readValue_of_isWritten {c : Char} (h : Number.IsWritten c) (cs : List Char) :
    readValue (fuel + 1) depth (c :: cs) = readScalar (c :: cs) := by
  have differs (d : Char) (hd : d.isDigit = false) (hd' : d ≠ '-') : c ≠ d := by
    rintro rfl
    rcases h with h | h
    · simp [hd] at h
    · exact hd' h
  rw [readValue_of_ne (differs _ (by decide) (by decide)) (differs _ (by decide) (by decide)),
    if_neg (differs _ (by decide) (by decide))]

theorem readValue_nil_list (rest : List Char) :
    readValue (fuel + 1) (depth + 1) ('[' :: ']' :: rest) = .ok (.list [], rest) := by
  rw [readValue.eq_def]
  simp [skipSpace_of_not_isSpace (show isSpace ']' = false by decide)]

theorem readValue_list {c : Char} {cs : List Char} (hspace : isSpace c = false) (hc : c ≠ ']') :
    readValue (fuel + 1) (depth + 1) ('[' :: c :: cs) = readItems fuel depth [] (c :: cs) := by
  rw [readValue.eq_def]
  simp [skipSpace_of_not_isSpace hspace, hc]

theorem readValue_nil_obj (rest : List Char) :
    readValue (fuel + 1) (depth + 1) ('\x7b' :: '\x7d' :: rest) = .ok (.obj [], rest) := by
  rw [readValue.eq_def]
  simp [skipSpace_of_not_isSpace (show isSpace '\x7d' = false by decide)]

theorem readValue_obj {c : Char} {cs : List Char} (hspace : isSpace c = false) (hc : c ≠ '\x7d') :
    readValue (fuel + 1) (depth + 1) ('\x7b' :: c :: cs) = readMembers fuel depth [] (c :: cs) := by
  rw [readValue.eq_def]
  simp [skipSpace_of_not_isSpace hspace, hc]

theorem reads_scalar {v : Value} (exact : v.IsExact) (hdepth : v.depth = 0) :
    Reads style depth v := by
  intro fuel rest hfuel ends
  obtain ⟨fuel, rfl⟩ := Nat.exists_eq_succ_of_ne_zero (Nat.ne_zero_of_lt hfuel)
  cases v with
  | null => rw [write]; rfl
  | bool b => cases b <;> (rw [write]; rfl)
  | int i =>
    obtain ⟨c, cs, hcs, written⟩ := exists_toString_eq i
    have scalar := readScalar_toString exact ends
    rw [write]
    rw [hcs, List.cons_append] at scalar ⊢
    rw [readValue_of_isWritten written, scalar]
  | float d => exact exact.elim
  | str s =>
    rw [write, toList_writeText, List.cons_append, List.append_assoc]
    exact readValue_text s rest
  | list vs => cases hdepth
  | obj ms => cases hdepth

theorem reads_list (hs : style.IsSeparating) {vs : List Value} (exact : ItemsExact vs)
    (reads : ∀ v ∈ vs, Reads style depth v) : Reads style (depth + 1) (.list vs) := by
  intro fuel rest hfuel _
  obtain ⟨fuel, rfl⟩ := Nat.exists_eq_succ_of_ne_zero (Nat.ne_zero_of_lt hfuel)
  rw [toList_write_list] at hfuel ⊢
  simp only [List.length_cons, List.length_append, List.length_nil, List.cons_append,
    List.append_assoc, List.nil_append] at hfuel ⊢
  cases vs with
  | nil => exact readValue_nil_list rest
  | cons v vs =>
    obtain ⟨c, cs, hcs, hspace, hc⟩ := exists_writeItems_eq style exact.1 vs
    have items : readItems fuel depth [] ((writeItems style (v :: vs)).toList ++ ']' :: rest)
        = .ok (.list (v :: vs), rest) := readItems_writeItems hs exact reads (by omega)
    rw [hcs, List.cons_append] at items ⊢
    rw [readValue_list hspace hc, items]

theorem reads_obj (hs : style.IsSeparating) {ms : Members} (exact : MembersExact ms)
    (distinct : (ms.map Prod.fst).Nodup) (reads : ∀ p ∈ ms, Reads style depth p.2) :
    Reads style (depth + 1) (.obj ms) := by
  intro fuel rest hfuel _
  obtain ⟨fuel, rfl⟩ := Nat.exists_eq_succ_of_ne_zero (Nat.ne_zero_of_lt hfuel)
  rw [toList_write_obj] at hfuel ⊢
  simp only [List.length_cons, List.length_append, List.length_nil, List.cons_append,
    List.append_assoc, List.nil_append] at hfuel ⊢
  cases ms with
  | nil => exact readValue_nil_obj rest
  | cons p ms =>
    obtain ⟨cs, hcs⟩ := exists_writeMembers_eq style p ms
    have members : readMembers fuel depth []
          ((writeMembers style (p :: ms)).toList ++ '\x7d' :: rest)
        = .ok (.obj (p :: ms), rest) := readMembers_writeMembers hs exact distinct reads (by omega)
    rw [hcs, List.cons_append] at members ⊢
    rw [readValue_obj (by decide) (by decide), members]

theorem reads_of_isExact (hs : style.IsSeparating) {v : Value} (exact : v.IsExact)
    (hdepth : v.depth ≤ depth) : Reads style depth v := by
  induction v using induction_on_parts generalizing depth with
  | scalar v h => exact reads_scalar exact h
  | list vs ih =>
    obtain ⟨depth, rfl⟩ := Nat.exists_eq_succ_of_ne_zero (Nat.ne_zero_of_lt hdepth)
    exact reads_list hs exact fun v hv => ih v hv (isExact_of_mem exact hv)
      (Nat.le_trans (depth_le_itemsDepth hv) (Nat.le_of_succ_le_succ hdepth))
  | obj ms ih =>
    obtain ⟨depth, rfl⟩ := Nat.exists_eq_succ_of_ne_zero (Nat.ne_zero_of_lt hdepth)
    exact reads_obj hs exact.1 exact.2 fun p hp => ih p hp (isExact_of_mem_members exact.1 hp)
      (Nat.le_trans (depth_le_membersDepth hp) (Nat.le_of_succ_le_succ hdepth))

end Values

/-- An exact value that is not nested too deep is read back from its document. -/
theorem read_write {style : Style} (hs : style.IsSeparating) {v : Value} (exact : v.IsExact)
    (hdepth : v.depth ≤ maxDepth) : read (write style v) = .ok v := by
  obtain ⟨c, cs, hcs, hspace, -⟩ := exists_write_eq style exact
  have start : skipSpace (write style v).toList = (write style v).toList := by
    rw [hcs, skipSpace_of_not_isSpace hspace]
  have reads : readValue ((write style v).toList.length + 1) maxDepth
      ((write style v).toList ++ []) = .ok (v, []) :=
    reads_of_isExact hs exact hdepth (Nat.lt_succ_self _) (by simp [EndsNumber])
  rw [List.append_nil] at reads
  simp only [read, start, reads]
  rfl

end Json

end CrmAutomation
