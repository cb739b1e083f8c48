import CrmAutomation.Proofs.Http.Segments
import Mathlib.Data.List.TakeWhile

/-!
# Paths seen from the URL of a service

A path that begins with a slash is read up to its first question mark or number sign
(`read_rooted_iff`). Seen from a base, it is written after the path of the base, and dot segments
are removed from the whole (`IsBase.join_alone`): what follows a question mark becomes the query,
and what follows a number sign is lost.

`IsBase` is what the URL of a service is like, if it has a host and neither a query nor a fragment
(`isBase_of_asBase`).
-/

namespace CrmAutomation

namespace Url

/-! ## Characters that stand for themselves -/

theorem keepsEscapes_pathSafe : KeepsEscapes pathSafe where
  percent := by decide
  digit c h := by
    unfold pathSafe printableExcept
    simp only [hexValue?] at h
    simp only [List.contains_cons, List.contains_nil, Bool.or_false, Bool.and_eq_true,
      decide_eq_true_eq, Bool.not_eq_true', Bool.or_eq_false_iff, beq_eq_false_iff_ne]
    split at h
    · omega
    · split at h
      · omega
      · split at h
        · omega
        · simp at h

/-- A character that does not end a path. -/
theorem not_mark_of_pathSafe {c : Char} (h : pathSafe c = true) : c ≠ '?' ∧ c ≠ '#' := by
  constructor <;> rintro rfl <;> revert h <;> decide

theorem pathSafe_of_mem_escapeByte {b : UInt8} {c : Char} (h : c ∈ escapeByte b) :
    pathSafe c = true := by
  have hb : b.toNat < 256 := b.toNat_lt
  rcases List.mem_cons.1 h with rfl | h
  · decide
  rcases List.mem_pair.1 h with rfl | rfl
  · exact keepsEscapes_pathSafe.digit _
      (Option.isSome_iff_exists.2 ⟨_, hexValue?_digit ⟨b.toNat / 16, by omega⟩⟩)
  · exact keepsEscapes_pathSafe.digit _
      (Option.isSome_iff_exists.2 ⟨_, hexValue?_digit ⟨b.toNat % 16, by omega⟩⟩)

theorem pathSafe_of_mem_escape {path : String} {c : Char}
    (h : c ∈ (escape pathSafe path).toList) : pathSafe c = true := by
  rw [escape, String.toList_ofList] at h
  obtain ⟨d, -, hd⟩ := List.mem_flatMap.1 h
  rw [escapeChar] at hd
  split at hd
  · rwa [List.mem_singleton.1 hd]
  · obtain ⟨b, -, hb⟩ := List.mem_flatMap.1 hd
    exact pathSafe_of_mem_escapeByte hb

theorem escapeChars_of_safe {safe : Char → Bool} {cs : List Char} (h : ∀ c ∈ cs, safe c = true) :
    escapeChars safe cs = cs := by
  induction cs with
  | nil => rfl
  | cons c rest ih =>
    have hrest := ih fun d hd => h d (List.mem_cons_of_mem _ hd)
    rw [escapeChars, List.flatMap_cons, escapeChar_of_safe (h c List.mem_cons_self)]
    exact congrArg (c :: ·) hrest

theorem escape_of_safe {safe : Char → Bool} {s : String} (h : ∀ c ∈ s.toList, safe c = true) :
    escape safe s = s := by
  have := escapeChars_of_safe h
  rw [escape]
  change String.ofList (escapeChars safe s.toList) = s
  rw [this, String.ofList_toList]

/-- What is escaped is no dot segment, and a dot segment stays one. -/
theorem isDots_escape_iff (segment : String) :
    IsDots (escape pathSafe segment) ↔ IsDots segment := by
  constructor
  · intro h
    have hsafe : ∀ c ∈ segment.toList, pathSafe c = true := by
      intro c hc
      by_contra hunsafe
      obtain ⟨rest, hrest⟩ := exists_escapeChar_eq (Bool.eq_false_iff.2 hunsafe)
      have hpercent : '%' ∈ (escape pathSafe segment).toList := by
        rw [escape, String.toList_ofList]
        exact List.mem_flatMap.2 ⟨c, hc, by simp [hrest]⟩
      rcases h with h | h <;> rw [h] at hpercent <;> revert hpercent <;> decide
    rwa [escape_of_safe hsafe] at h
  · rintro (rfl | rfl)
    · exact .inl (by decide)
    · exact .inr (by decide)

/-! ## Paths without dot segments -/

theorem not_isDots_pushSegment {output : List String} (h : ∀ s ∈ output, ¬ IsDots s)
    (segment : String) : ∀ s ∈ pushSegment output segment, ¬ IsDots s := by
  intro s hs
  by_cases hd : IsDots segment
  · rcases mem_of_mem_pushSegment hs with hs | rfl
    · exact h s hs
    · unfold pushSegment at hs
      split at hs
      · exact h _ hs
      · rw [if_pos (hd.resolve_left ‹_›)] at hs
        split at hs
        · exact h _ hs
        · exact h _ hs
        · exact h _ (List.mem_cons_of_mem _ hs)
  · rcases mem_of_mem_pushSegment hs with hs | rfl
    · exact h s hs
    · exact hd

theorem not_isDots_foldl_pushSegment (segments : List String) :
    ∀ {output : List String}, (∀ s ∈ output, ¬ IsDots s) →
      ∀ s ∈ segments.foldl pushSegment output, ¬ IsDots s := by
  induction segments with
  | nil => exact fun h => h
  | cons segment rest ih => exact fun h => ih (not_isDots_pushSegment h segment)

/-- A path in which no dot segment is left. -/
def Settled (path : String) : Prop := ∀ segment ∈ Text.splitOn '/' path, ¬ IsDots segment

theorem settled_slash : Settled "/" := by
  intro segment h
  have : segment ∈ ["", ""] := h
  have : segment = "" := by simpa using this
  rw [this]
  decide

theorem settled_removeDots (path : String) : Settled (removeDots path) := by
  by_cases h : (Text.splitOn '/' path).any (fun s => s = "." || s = "..") = true
  · intro segment hmem
    have hout : ∀ s ∈ (Text.splitOn '/' path).foldl pushSegment [], ¬ IsDots s :=
      not_isDots_foldl_pushSegment _ (by simp)
    rw [removeDots, if_pos h, splitOn_foldl_pushSegment] at hmem
    split at hmem
    · rw [List.mem_singleton.1 hmem]
      decide
    · exact hout segment (List.mem_reverse.1 hmem)
  · rw [removeDots, if_neg h]
    simpa [Settled, IsDots] using h

theorem settled_escape_iff (path : String) : Settled (escape pathSafe path) ↔ Settled path := by
  have hsplit : Text.splitOn '/' (escape pathSafe path)
      = (Text.splitOn '/' path).map (escape pathSafe) := by
    rw [Text.splitOn_eq, escape, String.toList_ofList]
    change List.map _ ((escapeChars pathSafe path.toList).splitOn '/') = _
    rw [splitOn_escapeChars (by decide), Text.splitOn_eq, List.map_map, List.map_map]
    exact List.map_congr_left fun part _ => by simp [escape, escapeChars]
  rw [Settled, hsplit]
  simp only [List.mem_map, forall_exists_index, and_imp, forall_apply_eq_imp_iff₂,
    isDots_escape_iff, Settled]

/-- A path as it stands in a URL with a host: it is escaped and no dot segment is left. -/
structure Canonical (path : String) : Prop where
  safe : ∀ c ∈ path.toList, pathSafe c = true
  settled : Settled path

theorem Canonical.resolved {path : String} (h : Canonical path) :
    escape pathSafe (removeDots path) = path := by
  rw [removeDots_of_forall h.settled, escape_of_safe h.safe]

theorem canonical_slash : Canonical "/" where
  safe c hc := by
    have : c = '/' := by simpa using hc
    rw [this]
    decide
  settled := settled_slash

theorem canonical_escape_removeDots (path : String) :
    Canonical (escape pathSafe (removeDots path)) :=
  ⟨fun _ => pathSafe_of_mem_escape, (settled_escape_iff _).2 (settled_removeDots path)⟩

theorem Canonical.mark_notMem {path : String} (h : Canonical path) : '?' ∉ path.toList :=
  fun hmem => (not_mark_of_pathSafe (h.safe _ hmem)).1 rfl

theorem Canonical.append_slash {path : String} (h : Canonical path) : Canonical (path ++ "/") where
  safe c hc := by
    rw [String.toList_append] at hc
    exact (List.mem_append.1 hc).elim (h.safe c) (canonical_slash.safe c)
  settled segment hmem := by
    rw [← String.append_empty (s := path ++ "/"), Text.splitOn_append_slash] at hmem
    rcases List.mem_append.1 hmem with hmem | hmem
    · exact h.settled segment hmem
    · have : segment ∈ [""] := hmem
      rw [List.mem_singleton.1 this]
      decide

/-! ## Targets -/

theorem withPath_path {u : Url} (h : u.host ≠ "") (path : String) (query fragment : Option String) :
    (u.withPath path query fragment).path = escape pathSafe (removeDots path) := by
  simp [withPath, h]

@[simp] theorem withPath_host (u : Url) (path : String) (query fragment : Option String) :
    (u.withPath path query fragment).host = u.host := rfl

@[simp] theorem withPath_query (u : Url) (path : String) (query fragment : Option String) :
    (u.withPath path query fragment).query = query.map (escape querySafe) := rfl

@[simp] theorem withPath_fragment (u : Url) (path : String) (query fragment : Option String) :
    (u.withPath path query fragment).fragment = fragment.map (escape fragmentSafe) := rfl

theorem target_of_query_none {u : Url} (h : u.query = none) : u.target = u.requestPath := by
  rw [target, h]
  simp

theorem withTarget_eq (u : Url) (target : String) :
    u.withTarget target = withPath { u with port := furtherPort u.scheme u.port }
      (String.ofList (target.toList.takeWhile (· != '?')))
      (if target.toList.dropWhile (· != '?') = [] then none
        else some (String.ofList ((target.toList.dropWhile (· != '?')).drop 1))) u.fragment := by
  have hdrop : target.toList.drop (target.toList.takeWhile (· != '?')).length
      = target.toList.dropWhile (· != '?') := by
    generalize target.toList = cs
    induction cs with
    | nil => rfl
    | cons c rest ih => by_cases hc : c = '?' <;> simp [hc, ih]
  rw [withTarget, hdrop]
  simp only [List.isEmpty_iff]

/-- What stands before the first question mark of a target becomes the path. -/
structure Retargeted (u : Url) (before after : String) (v : Url) : Prop where
  path_eq : v.path = escape pathSafe (removeDots before)
  query_eq_none_iff : v.query = none ↔ after = ""
  fragment_eq : v.fragment = u.fragment.map (escape fragmentSafe)
  host_eq : v.host = u.host

theorem withTarget_retargeted {u : Url} (hplaced : u.host ≠ "") {before after : String}
    (hbefore : '?' ∉ before.toList) (hafter : after = "" ∨ ∃ rest, after = "?" ++ rest) :
    Retargeted u before after (u.withTarget (before ++ after)) := by
  have hmark : ∀ c ∈ before.toList, (c != '?') = true := by
    intro c hc
    simpa using fun he : c = '?' => hbefore (he ▸ hc)
  have htake : (before ++ after).toList.takeWhile (· != '?') = before.toList := by
    rw [String.toList_append, List.takeWhile_append_of_pos hmark]
    rcases hafter with rfl | ⟨rest, rfl⟩ <;> simp
  have hdrop : (before ++ after).toList.dropWhile (· != '?') = after.toList := by
    rw [String.toList_append, List.dropWhile_append_of_pos hmark]
    rcases hafter with rfl | ⟨rest, rfl⟩ <;> simp
  rw [withTarget_eq, htake, hdrop, String.ofList_toList]
  refine ⟨withPath_path (by exact hplaced) _ _ _, ?_, withPath_fragment _ _ _ _,
    withPath_host _ _ _ _⟩
  rw [withPath_query]
  split <;> simp_all

/-! ## The URL of a service -/

/-- The URL of a service: it has a host, neither a query nor a fragment, and its path ends with a
slash. -/
structure IsBase (u : Url) : Prop where
  placed : u.host ≠ ""
  query_eq : u.query = none
  fragment_eq : u.fragment = none
  canonical : Canonical u.requestPath
  ended : ∃ before, u.requestPath = before ++ "/"

theorem exists_withPath_of_read {s : String} {u : Url} (h : read s = .ok u) :
    ∃ (place : Url) (path : String) (query fragment : Option String),
      u = place.withPath path query fragment := by
  unfold read at h
  simp only [bind, Except.bind, pure, Except.pure, throw, throwThe, MonadExceptOf.throw] at h
  repeat' split at h
  all_goals first
    | exact ⟨_, _, _, _, (Except.ok.inj h).symm⟩
    | cases h

theorem canonical_of_read {s : String} {u : Url} (h : read s = .ok u) (hplaced : u.host ≠ "") :
    Canonical u.requestPath := by
  obtain ⟨place, path, query, fragment, rfl⟩ := exists_withPath_of_read h
  rw [requestPath]
  split
  · exact canonical_slash
  · rw [withPath_path (u := place) (by exact hplaced)]
    exact canonical_escape_removeDots path

/-- A slash that is appended to a query leaves a query. -/
theorem query_ne_none_of_withTarget {u : Url} (hplaced : u.host ≠ "")
    (hcanonical : Canonical u.requestPath) {q : String} (h : u.query = some q) :
    (u.withTarget (u.target ++ "/")).query ≠ none := by
  have htarget : u.target ++ "/" = u.requestPath ++ ("?" ++ (q ++ "/")) := by
    rw [target, h]
    simp [String.append_assoc]
  have hre := withTarget_retargeted hplaced hcanonical.mark_notMem
    (.inr ⟨q ++ "/", rfl⟩ : "?" ++ (q ++ "/") = "" ∨ _)
  rw [htarget]
  exact fun hnone => by simpa using hre.query_eq_none_iff.1 hnone

theorem isBase_of_asBase {s : String} {u : Url} (h : read s = .ok u) (hplaced : u.host ≠ "")
    (hquery : u.asBase.query = none) (hfragment : u.asBase.fragment = none) : u.asBase.IsBase := by
  have hcanonical := canonical_of_read h hplaced
  by_cases hends : u.target.endsWith "/" = true
  · rw [asBase, if_pos hends] at hquery hfragment ⊢
    refine ⟨hplaced, hquery, hfragment, hcanonical, ?_⟩
    rw [target_of_query_none hquery] at hends
    obtain ⟨before, hbefore⟩ :=
      (String.Slice.endsWith_string_iff (s := u.requestPath.toSlice)).1 hends
    refine ⟨String.ofList before, String.toList_inj.1 ?_⟩
    simpa using hbefore.symm
  · rw [asBase, if_neg hends] at hquery hfragment ⊢
    have hnone : u.query = none := by
      by_contra hsome
      obtain ⟨q, hq⟩ := Option.ne_none_iff_exists'.1 hsome
      exact query_ne_none_of_withTarget hplaced hcanonical hq hquery
    have hslash := hcanonical.append_slash
    have hre : Retargeted u (u.requestPath ++ "/") "" _ :=
      withTarget_retargeted hplaced hslash.mark_notMem (.inl rfl)
    rw [String.append_empty, ← target_of_query_none hnone] at hre
    have hpath := hre.path_eq
    rw [target_of_query_none hnone, hslash.resolved] at hpath
    have hrequest : (u.withTarget (u.target ++ "/")).requestPath = u.requestPath ++ "/" := by
      rw [requestPath, target_of_query_none hnone, hpath]
      exact if_neg (by simp)
    exact ⟨hre.host_eq ▸ hplaced, hquery, hfragment, hrequest ▸ hslash, _, hrequest⟩

theorem asBase_host (u : Url) : u.asBase.host = u.host := by
  rw [asBase]
  split
  · rfl
  · rw [withTarget_eq, withPath_host]

/-! ## Rooted paths -/

/-- A character that stands before the end of a path. -/
def unmarked (c : Char) : Bool := !(c == '?' || c == '#')

theorem splitPath_fst (cs : List Char) : (splitPath cs).1 = cs.takeWhile unmarked := by
  simp only [splitPath, cut]
  split <;> rfl

theorem splitPath_query_eq_none {cs : List Char} (h : ∀ c ∈ cs, unmarked c = true) :
    (splitPath cs).2.1 = none := by
  have hdrop : cs.dropWhile (fun c => !(c == '?' || c == '#')) = [] :=
    List.dropWhile_eq_nil_iff.2 h
  simp only [splitPath, cut, hdrop]

/-- The URL that a path writes by itself. -/
def alone (cs : List Char) : Url where
  scheme := ""
  userinfo := ""
  host := ""
  port := none
  path := escape pathSafe (String.ofList (splitPath cs).1)
  query := ((splitPath cs).2.1.map String.ofList).map (escape querySafe)
  fragment := ((splitPath cs).2.2.map String.ofList).map (escape fragmentSafe)

theorem splitScheme_slash (rest : List Char) : splitScheme ('/' :: rest) = ([], '/' :: rest) := by
  have : isSchemeChar '/' = false := by decide
  simp [splitScheme, cut, this]

theorem splitAuthority_slash {c : Char} (hc : c ≠ '/') (rest : List Char) :
    splitAuthority ('/' :: c :: rest) = ([], '/' :: c :: rest) := by
  unfold splitAuthority
  split
  · simp_all
  · rfl

/-- A path is read unless it is too long or has a control character. -/
theorem read_rooted_iff {c : Char} (hc : c ≠ '/') {rest : List Char} {u : Url} :
    read (String.ofList ('/' :: c :: rest)) = .ok u ↔
      (('/' :: c :: rest).length ≤ maxLength ∧ ('/' :: c :: rest).any isControl = false)
        ∧ u = alone ('/' :: c :: rest) := by
  have hlast : splitLast '@' [] = ([], []) := rfl
  have hhost : splitHost [] = ([], []) := rfl
  have htext : hostText [] = .ok "" := rfl
  have hport : portOf [] = .ok none := rfl
  have hplace : (⟨String.ofList (List.map Char.toLower []), escape userinfoSafe (String.ofList []),
      "", furtherPort (String.ofList []) none, "", none, none⟩ : Url) = default := by decide
  have hslash : ['/', '/'].isPrefixOf (splitPath ('/' :: c :: rest)).1 = false := by
    rw [splitPath_fst, List.takeWhile_cons_of_pos (by decide), List.takeWhile_cons]
    split <;> simp [List.isPrefixOf, hc.symm]
  have hcolon : [':'].isPrefixOf (splitPath ('/' :: c :: rest)).1 = false := by
    rw [splitPath_fst, List.takeWhile_cons_of_pos (by decide)]
    rfl
  rw [read]
  simp only [String.toList_ofList, splitScheme_slash, splitAuthority_slash hc, hlast, hhost, htext,
    hport, hplace, hslash, hcolon, bind, Except.bind, pure, Except.pure, throw, throwThe,
    MonadExceptOf.throw]
  by_cases hlen : maxLength < ('/' :: c :: rest).length
  · simp only [if_pos hlen, reduceCtorEq, false_iff]
    exact fun h => absurd h.1.1 (Nat.not_le.2 hlen)
  · by_cases hcontrol : ('/' :: c :: rest).any isControl = true
    · simp only [if_neg hlen, if_pos hcontrol, reduceCtorEq, false_iff]
      exact fun h => by simp [hcontrol] at h
    · simp only [if_neg hlen, if_neg hcontrol, if_true, Bool.false_eq_true, if_false,
        Except.ok.injEq]
      have hok : ('/' :: c :: rest).length ≤ maxLength ∧ ('/' :: c :: rest).any isControl = false :=
        ⟨Nat.not_lt.1 hlen, Bool.eq_false_iff.2 hcontrol⟩
      rw [and_iff_right hok]
      exact eq_comm

/-- A path that is seen from a base: it goes up to its first mark and is written after the path of
the base. -/
theorem IsBase.join_alone {base : Url} (hb : base.IsBase) {c : Char} (hsafe : pathSafe c = true)
    (hc : c ≠ '/') (rest : List Char) :
    (base.join (alone ('/' :: c :: rest))).path
        = escape pathSafe (removeDots (base.requestPath
            ++ escape pathSafe (String.ofList ((c :: rest).takeWhile unmarked))))
      ∧ ((base.join (alone ('/' :: c :: rest))).query = none
          ↔ (splitPath ('/' :: c :: rest)).2.1 = none)
      ∧ (base.join (alone ('/' :: c :: rest))).fragment = none := by
  have hmark : unmarked c = true := by
    obtain ⟨hq, hn⟩ := not_mark_of_pathSafe hsafe
    simp [unmarked, hq, hn]
  have hpath : (alone ('/' :: c :: rest)).path
      = String.ofList ('/' :: c :: escapeChars pathSafe (rest.takeWhile unmarked)) := by
    rw [alone, splitPath_fst, List.takeWhile_cons_of_pos (by decide),
      List.takeWhile_cons_of_pos hmark, escape, String.toList_ofList, List.flatMap_cons, escapeChar_of_safe (by decide),
      List.flatMap_cons, escapeChar_of_safe hsafe]
    rfl
  have hrequest : (alone ('/' :: c :: rest)).requestPath = (alone ('/' :: c :: rest)).path := by
    rw [requestPath, hpath]
    exact if_neg fun h => by simpa using congrArg String.toList h
  obtain ⟨after, htarget, hafter, hnone⟩ : ∃ after : String,
      (alone ('/' :: c :: rest)).target = (alone ('/' :: c :: rest)).path ++ after
        ∧ (after = "" ∨ ∃ more, after = "?" ++ more)
        ∧ (after = "" ↔ (splitPath ('/' :: c :: rest)).2.1 = none) := by
    rw [target, hrequest]
    refine ⟨_, rfl, ?_⟩
    cases hq : (splitPath ('/' :: c :: rest)).2.1 with
    | none => simp [alone, hq]
    | some q => simp [alone, hq]
  have hdrop : String.ofList ((alone ('/' :: c :: rest)).target.toList.dropWhile (· == '/'))
      = escape pathSafe (String.ofList ((c :: rest).takeWhile unmarked)) ++ after := by
    rw [htarget, hpath, List.takeWhile_cons_of_pos hmark, escape, String.toList_ofList,
      List.flatMap_cons, escapeChar_of_safe hsafe]
    apply String.toList_inj.1
    simp [hc, escapeChars]
  have hbefore : '?' ∉ (base.requestPath
      ++ escape pathSafe (String.ofList ((c :: rest).takeWhile unmarked))).toList := by
    rw [String.toList_append]
    intro h
    rcases List.mem_append.1 h with h | h
    · exact hb.canonical.mark_notMem h
    · exact (not_mark_of_pathSafe (pathSafe_of_mem_escape h)).1 rfl
  have hre := withTarget_retargeted hb.placed hbefore hafter
  have hjoin : base.join (alone ('/' :: c :: rest)) = base.withTarget (base.requestPath
      ++ escape pathSafe (String.ofList ((c :: rest).takeWhile unmarked)) ++ after) := by
    rw [join, if_neg (by simp [isAbsolute, alone]), hdrop, target_of_query_none hb.query_eq,
      String.append_assoc]
  rw [hjoin]
  refine ⟨hre.path_eq, hre.query_eq_none_iff.trans hnone, ?_⟩
  rw [hre.fragment_eq, hb.fragment_eq]
  rfl

end Url

end CrmAutomation
