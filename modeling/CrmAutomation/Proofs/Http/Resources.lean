import CrmAutomation.Proofs.Http.Resolving

/-!
# Paths that are made of ids

A path is made of words and ids by writing each after a slash (`pathOf`). An id is plain if it has
no mark that divides a URL, writes no escape and is no dot segment (`IsPlain`). Seen from a base, a
path addresses the resource it was made for, segment by segment, exactly if all it was made of is
plain (`IsBase.addresses_iff`).

That plain ids suffice is read off the segments. That they are needed is seen from lengths: marks
cut a path short, dot segments and escapes make it shorter, and a slash within an id is left over.
-/

namespace CrmAutomation

namespace Url

/-- An id that is one segment of a path and stands for itself. -/
structure IsPlain (id : String) : Prop where
  undivided : ∀ c ∈ id.toList, c ≠ '/' ∧ unmarked c = true
  literal : writesEscape id.toList = false
  named : ¬ IsDots id

instance (id : String) : Decidable (IsPlain id) :=
  decidable_of_iff
    (id.toList.all (fun c => c != '/' && unmarked c) ∧ writesEscape id.toList = false ∧ ¬ IsDots id)
    ⟨fun ⟨h, h', h''⟩ => ⟨by simpa using h, h', h''⟩,
      fun h => ⟨by simpa using h.undivided, h.literal, h.named⟩⟩

/-- The characters of a path, each part after a slash. -/
def pathOf (parts : List String) : List Char := parts.flatMap fun part => '/' :: part.toList

theorem pathOf_eq (part : String) (parts : List String) :
    pathOf (part :: parts) = '/' :: ['/'].intercalate ((part :: parts).map String.toList) := by
  induction parts generalizing part with
  | nil => simp [pathOf, List.intercalate]
  | cons next parts ih =>
    have := ih next
    rw [pathOf, List.flatMap_cons]
    change '/' :: part.toList ++ pathOf (next :: parts) = _
    rw [this]
    simp [List.intercalate]

theorem length_utf8EncodeChar_slash : (String.utf8EncodeChar '/').length = 1 := by decide

theorem spread_map_ofText (parts : List String) :
    spread (parts.map Bytes.ofText) = ((pathOf parts).flatMap String.utf8EncodeChar).length := by
  induction parts with
  | nil => rfl
  | cons part parts ih =>
    rw [List.map_cons, spread_cons, ih, Bytes.ofText_eq]
    simp only [pathOf, List.flatMap_cons, List.cons_append, List.flatMap_append, List.length_append,
      length_utf8EncodeChar_slash]
    omega

/-- The segments of the path of a base, without the empty one at its end. -/
def stem (u : Url) : List Bytes := (segments u.requestPath).dropLast

namespace IsBase

variable {u : Url}

/-- What is written after the path of a base is split on its own. -/
theorem exists_splitOn_append (hu : u.IsBase) : ∃ front : List String,
    (∀ path, Text.splitOn '/' (u.requestPath ++ path) = front ++ Text.splitOn '/' path)
      ∧ (∀ segment ∈ front, ¬ IsDots segment) ∧ u.stem = front.map octets := by
  obtain ⟨before, hbefore⟩ := hu.ended
  have hwhole : Text.splitOn '/' u.requestPath = Text.splitOn '/' before ++ [""] := by
    rw [hbefore, ← String.append_empty (s := before ++ "/"), Text.splitOn_append_slash]
    rfl
  refine ⟨Text.splitOn '/' before, fun path => ?_, fun segment hmem => ?_, ?_⟩
  · rw [hbefore, Text.splitOn_append_slash]
  · exact hu.canonical.settled segment (hwhole ▸ List.mem_append_left _ hmem)
  · rw [stem, segments, hwhole, List.map_append, List.map_cons, List.map_nil, List.dropLast_concat]

theorem segments_append (hu : u.IsBase) (path : String) :
    segments (u.requestPath ++ path) = u.stem ++ segments path := by
  obtain ⟨front, hsplit, -, hbase⟩ := hu.exists_splitOn_append
  rw [segments, hsplit, List.map_append, hbase, segments]

theorem settled_append_iff (hu : u.IsBase) (path : String) :
    Settled (u.requestPath ++ escape pathSafe path) ↔ Settled path := by
  obtain ⟨front, hsplit, hfront, -⟩ := hu.exists_splitOn_append
  have hescape : Settled (escape pathSafe path) ↔ Settled path := settled_escape_iff path
  rw [← hescape]
  constructor
  · intro h segment hmem
    exact h segment (hsplit _ ▸ List.mem_append_right _ hmem)
  · intro h segment hmem
    rw [hsplit] at hmem
    exact (List.mem_append.1 hmem).elim (hfront segment) (h segment)

end IsBase

/-! ## The resource of a path -/

/-- A path is as long as what stands before its first mark and what stands after it. -/
theorem length_takeWhile_add (cs : List Char) :
    ((cs.takeWhile unmarked).flatMap String.utf8EncodeChar).length
        + ((cs.dropWhile unmarked).flatMap String.utf8EncodeChar).length
      = (cs.flatMap String.utf8EncodeChar).length := by
  rw [← List.length_append, ← List.flatMap_append, List.takeWhile_append_dropWhile]

theorem length_dropWhile_pos {cs : List Char} {c : Char} (hmem : c ∈ cs) (hc : unmarked c = false) :
    0 < ((cs.dropWhile unmarked).flatMap String.utf8EncodeChar).length := by
  have hrest : cs.dropWhile unmarked ≠ [] := fun h => by
    simp [List.dropWhile_eq_nil_iff.1 h c hmem] at hc
  obtain ⟨d, more, hcons⟩ := List.exists_cons_of_ne_nil hrest
  rw [hcons, List.flatMap_cons, List.length_append]
  exact Nat.add_pos_left (length_utf8EncodeChar_pos d) _

/-- A path that is as long as it was written was written without marks, dot segments and escapes. -/
theorem IsBase.of_spread_le {u : Url} (hu : u.IsBase) {cs : List Char}
    (h : spread u.stem + (cs.flatMap String.utf8EncodeChar).length + 1
      ≤ spread (segments (removeDots (u.requestPath
          ++ escape pathSafe (String.ofList (cs.takeWhile unmarked)))))) :
    (∀ c ∈ cs, unmarked c = true) ∧ Settled (String.ofList cs)
      ∧ ∀ part ∈ cs.splitOn '/', writesEscape part = false := by
  have hspread (path : String) : spread (segments (u.requestPath ++ escape pathSafe path))
      = spread u.stem + spread (segments path) := by
    rw [hu.segments_append, spread_append, segments_escape keepsEscapes_pathSafe (by decide)]
  have hlength (cs : List Char) : spread (segments (String.ofList cs))
      ≤ (cs.flatMap String.utf8EncodeChar).length + 1 := by
    have := spread_segments_le (String.ofList cs)
    rwa [Bytes.ofText_ofList] at this
  have htake := length_takeWhile_add cs
  have hprefix := hlength (cs.takeWhile unmarked)
  have hsettled : Settled (u.requestPath
      ++ escape pathSafe (String.ofList (cs.takeWhile unmarked))) := by
    intro segment hmem hdots
    have := spread_removeDots_lt hmem hdots
    rw [hspread] at this
    omega
  rw [removeDots_of_forall hsettled, hspread] at h
  have hunmarked : ∀ c ∈ cs, unmarked c = true := by
    intro c hmem
    by_contra hc
    have := length_dropWhile_pos hmem (Bool.eq_false_iff.2 hc)
    omega
  rw [List.takeWhile_eq_self_iff.2 hunmarked] at h hsettled
  refine ⟨hunmarked, (hu.settled_append_iff _).1 hsettled, fun part hpart => ?_⟩
  by_contra hescape
  have hlt : spread (segments (String.ofList cs)) < (Bytes.ofText (String.ofList cs)).length + 1 :=
    spread_segments_lt (by rwa [String.toList_ofList]) (by simpa using hescape)
  rw [Bytes.ofText_ofList] at hlt
  omega

theorem map_ofText_injective : Function.Injective (List.map Bytes.ofText) :=
  List.map_injective_iff.2 fun _ _ => Bytes.ofText_injective

/-- A path from the root addresses, seen from a base, the segments that it was made of exactly if
all of them are plain. -/
theorem IsBase.addresses_iff {u : Url} (hu : u.IsBase) {parts : List String} {c : Char}
    {rest : List Char} (hparts : pathOf parts = '/' :: c :: rest) (hsafe : pathSafe c = true)
    (hc : c ≠ '/') :
    (segments (u.join (alone (pathOf parts))).path = u.stem ++ parts.map Bytes.ofText
        ∧ (u.join (alone (pathOf parts))).query = none
        ∧ (u.join (alone (pathOf parts))).fragment = none)
      ↔ ∀ part ∈ parts, IsPlain part := by
  obtain ⟨hpath, hquery, hfragment⟩ := hu.join_alone hsafe hc rest
  have hresolved : segments (u.join (alone (pathOf parts))).path
      = segments (removeDots (u.requestPath
          ++ escape pathSafe (String.ofList ((c :: rest).takeWhile unmarked)))) := by
    rw [hparts, hpath, segments_escape keepsEscapes_pathSafe (by decide)]
  have hne : parts ≠ [] := fun h => by simp [h, pathOf] at hparts
  have hjoined : c :: rest = ['/'].intercalate (parts.map String.toList) := by
    obtain ⟨part, more, rfl⟩ := List.exists_cons_of_ne_nil hne
    rw [pathOf_eq] at hparts
    exact (List.cons.inj hparts).2.symm
  have hchars : ∀ part ∈ parts, ∀ d ∈ part.toList, d = '/' ∨ d ∈ c :: rest := by
    intro part hpart d hd
    have : d ∈ pathOf parts :=
      List.mem_flatMap.2 ⟨part, hpart, List.mem_cons_of_mem _ hd⟩
    rw [hparts] at this
    exact List.mem_cons.1 this
  constructor
  · rintro ⟨hsegments, -, -⟩
    have hlength : spread (segments (u.join (alone (pathOf parts))).path)
        = spread u.stem + ((c :: rest).flatMap String.utf8EncodeChar).length + 1 := by
      rw [hsegments, spread_append, spread_map_ofText, hparts, List.flatMap_cons,
        List.length_append, length_utf8EncodeChar_slash]
      omega
    rw [hresolved] at hlength
    obtain ⟨hunmarked, hsettled, hliteral⟩ := hu.of_spread_le hlength.ge
    rw [List.takeWhile_eq_self_iff.2 hunmarked] at hresolved
    rw [hresolved, removeDots_of_forall ((hu.settled_append_iff _).2 hsettled), hu.segments_append,
      segments_escape keepsEscapes_pathSafe (by decide), List.append_cancel_left_eq, segments_eq,
      String.toList_ofList] at hsegments
    have hsplit : (c :: rest).splitOn '/' = parts.map String.toList := by
      have hoctets : ((c :: rest).splitOn '/').map (unescapeFrom 0)
          = (((c :: rest).splitOn '/').map String.ofList).map Bytes.ofText := by
        rw [List.map_map]
        exact List.map_congr_left fun part hpart => by
          rw [unescapeFrom_of_writesEscape (hliteral part hpart), Function.comp,
            Bytes.ofText_ofList]
      rw [← map_ofText_injective (hoctets.symm.trans hsegments), List.map_map]
      simp [Function.comp_def]
    intro part hpart
    have hmem : part.toList ∈ (c :: rest).splitOn '/' := hsplit ▸ List.mem_map_of_mem hpart
    refine ⟨fun d hd => ⟨fun he => notMem_of_mem_splitOn hmem (he ▸ hd), ?_⟩, hliteral _ hmem, ?_⟩
    · rcases hchars part hpart d hd with rfl | hd
      · rfl
      · exact hunmarked d hd
    · refine hsettled part ?_
      rw [Text.splitOn_eq, String.toList_ofList, hsplit]
      simpa using hpart
  · intro hplain
    have hsplit : (c :: rest).splitOn '/' = parts.map String.toList := by
      rw [hjoined]
      refine List.splitOn_intercalate '/' ?_ (by simpa using hne)
      intro part hpart
      obtain ⟨id, hid, rfl⟩ := List.mem_map.1 hpart
      exact fun hslash => ((hplain id hid).undivided _ hslash).1 rfl
    have hunmarked : ∀ d ∈ '/' :: c :: rest, unmarked d = true := by
      intro d hd
      rw [← hparts] at hd
      obtain ⟨part, hpart, hd⟩ := List.mem_flatMap.1 hd
      rcases List.mem_cons.1 hd with rfl | hd
      · rfl
      · exact ((hplain part hpart).undivided d hd).2
    have htake : (c :: rest).takeWhile unmarked = c :: rest :=
      List.takeWhile_eq_self_iff.2 fun d hd => hunmarked d (List.mem_cons_of_mem _ hd)
    have hsettled : Settled (String.ofList (c :: rest)) := by
      intro segment hmem
      rw [Text.splitOn_eq, String.toList_ofList, hsplit, List.map_map] at hmem
      obtain ⟨part, hpart, rfl⟩ := List.mem_map.1 hmem
      simpa using (hplain part hpart).named
    refine ⟨?_, ?_, hparts ▸ hfragment⟩
    · rw [hresolved, htake, removeDots_of_forall ((hu.settled_append_iff _).2 hsettled),
        hu.segments_append, segments_escape keepsEscapes_pathSafe (by decide), segments_eq,
        String.toList_ofList, hsplit, List.map_map]
      refine congrArg (u.stem ++ ·) (List.map_congr_left fun part hpart => ?_)
      rw [Function.comp, unescapeFrom_of_writesEscape (hplain part hpart).literal, Bytes.ofText_eq]
    · rw [hparts]
      exact hquery.2 (splitPath_query_eq_none hunmarked)

end Url

end CrmAutomation
