import Scaffold.Naming

/-!
# Segments of names

A name is either a single segment, without an underscore, or two and more
segments joined by underscores (`exists_segments`).  Cutting it gives the segments
back (`splitOn_joinSegments`), also where they are empty, so the guess is read off
the segments themselves: the first is the name, and the type is decided by the
three after it.

* `infer_reads_segments`: the guess for joined segments and for a single one, and
  what follows for every name.
-/

namespace Scaffold

/-- A beginning of a list that lacks an element ends before its first occurrence. -/
theorem prefix_of_not_mem {p xs ys : List Char} {c : Char} (h : p <+: xs ++ c :: ys)
    (hc : c ∉ p) : p <+: xs := by
  have hfront : xs ++ [c] <+: xs ++ c :: ys := by simp
  rcases List.prefix_or_prefix_of_prefix h hfront with hp | hxs
  · rcases List.prefix_concat_iff.1 hp with rfl | hp
    · simp at hc
    · exact hp
  · exact absurd (hxs.subset (by simp)) hc

/-! ## Names and segments -/

/-- A text that can be a segment of a name. -/
abbrev IsSegment (s : String) : Prop := '_' ∉ s.toList

/-- The name with the given segments. -/
def joinSegments (segments : List String) : String := "_".intercalate segments

theorem toList_joinSegments (segments : List String) :
    (joinSegments segments).toList = ['_'].intercalate (segments.map String.toList) :=
  String.toList_intercalate

/-- A name of two and more segments begins with the first one and an underscore. -/
theorem toList_joinSegments_cons (first second : String) (rest : List String) :
    (joinSegments (first :: second :: rest)).toList
      = first.toList ++ '_' :: (joinSegments (second :: rest)).toList := by
  simp [toList_joinSegments, List.intercalate_cons_cons]

theorem mem_joinSegments (first second : String) (rest : List String) :
    '_' ∈ (joinSegments (first :: second :: rest)).toList := by
  simp [toList_joinSegments_cons]

theorem splitOn_joinSegments {segments : List String} (hne : segments ≠ [])
    (h : ∀ s ∈ segments, IsSegment s) :
    Text.splitOn '_' (joinSegments segments).toList = segments.map String.toList := by
  have hlack : ∀ part ∈ segments.map String.toList, '_' ∉ part := List.forall_mem_map.2 h
  rw [toList_joinSegments, Text.splitOn_eq, List.splitOn_intercalate '_' hlack (by simpa using hne)]

theorem segment_joinSegments {segments : List String} (hne : segments ≠ [])
    (h : ∀ s ∈ segments, IsSegment s) (i : Nat) :
    segment (Text.splitOn '_' (joinSegments segments).toList) i = segments.getD i "" := by
  rw [splitOn_joinSegments hne h, segment, List.getD_eq_getElem?_getD, List.getD_eq_getElem?_getD,
    List.getElem?_map]
  cases segments[i]? <;> simp

/-- A name with an underscore is made of two and more segments. -/
theorem exists_segments {name : String} (h : '_' ∈ name.toList) :
    ∃ first second rest, (∀ s ∈ first :: second :: rest, IsSegment s) ∧
      name = joinSegments (first :: second :: rest) := by
  have hsegments : ∀ s ∈ (Text.splitOn '_' name.toList).map String.ofList, IsSegment s := by
    rw [List.forall_mem_map]
    intro part hpart
    rw [IsSegment, String.toList_ofList]
    exact (Text.of_mem_splitOn hpart).1
  have hjoin : name = joinSegments ((Text.splitOn '_' name.toList).map String.ofList) := by
    rw [← String.toList_inj, toList_joinSegments, List.map_map]
    simp [Function.comp_def, Text.splitOn_eq, List.intercalate_splitOn]
  generalize (Text.splitOn '_' name.toList).map String.ofList = segments at hsegments hjoin
  rcases segments with _ | ⟨first, _ | ⟨second, rest⟩⟩
  · simp [hjoin, joinSegments] at h
  · -- a single segment would leave the name without an underscore
    rw [hjoin] at h
    exact absurd (by simpa [joinSegments] using h) (hsegments first List.mem_cons_self)
  · exact ⟨first, second, rest, hsegments, hjoin⟩

/-! ## Guesses -/

/-- The type that the segments after the name give. -/
def segmentsType (second : String) (rest : List String) : String :=
  if second = "arr" ∨ second = "array" then "[" ++ rest.getD 0 "" ++ "]" ++ rest.getD 1 ""
  else second

theorem infer_joinSegments {first second : String} {rest : List String}
    (h : ∀ s ∈ first :: second :: rest, IsSegment s) :
    infer (joinSegments (first :: second :: rest)) = ⟨first, segmentsType second rest⟩ := by
  have hsegment := segment_joinSegments (List.cons_ne_nil _ _) h
  rw [infer, if_pos (mem_joinSegments first second rest)]
  simp only [hsegment, segmentsType, List.getD_cons_zero, List.getD_cons_succ]
  split <;> rfl

/-- A name without an underscore is kept, and its type is no array. -/
theorem infer_segment {name : String} (h : IsSegment name) :
    (infer name).name = name ∧ isArrayType (infer name).type = false := by
  rw [infer, if_neg h]
  split
  · exact ⟨rfl, by simp [isArrayType]⟩
  · split <;> exact ⟨rfl, by simp [isArrayType]⟩

theorem isArrayType_eq_true {type : String} : isArrayType type = true ↔ ['['] <+: type.toList := by
  rw [isArrayType, beq_iff_eq, List.head?_eq_some_iff]
  exact exists_congr fun _ => eq_comm

theorem isArrayType_segmentsType (second : String) (rest : List String) :
    isArrayType (segmentsType second rest) = true ↔
      second = "arr" ∨ second = "array" ∨ ['['] <+: second.toList := by
  rw [isArrayType_eq_true, segmentsType, ← or_assoc]
  by_cases h : second = "arr" ∨ second = "array"
  · simp [h]
  · rw [if_neg h, or_iff_right h]

/-- The guess is read off the first four segments of a name.
* Of two and more segments the first is the name, and the type is given by the second, or by the
  third and fourth when the second says that it is an array.  The segments after them are not read.
* A name of a single segment is kept.
* So for every name the guessed name is its longest beginning without an underscore, it is its own
  guess, and the type is an array type exactly when there is a second segment that says so. -/
theorem infer_reads_segments :
    (∀ (first second : String) (rest : List String),
      (∀ s ∈ first :: second :: rest, '_' ∉ s.toList) →
      infer ("_".intercalate (first :: second :: rest)) =
        ⟨first, if second = "arr" ∨ second = "array" then
            "[" ++ rest.getD 0 "" ++ "]" ++ rest.getD 1 ""
          else second⟩) ∧
    (∀ name : String, '_' ∉ name.toList → (infer name).name = name) ∧
    ∀ name : String,
      ((infer name).name.toList <+: name.toList ∧ '_' ∉ (infer name).name.toList ∧
        ∀ p, p <+: name.toList → '_' ∉ p → p <+: (infer name).name.toList) ∧
      (infer (infer name).name).name = (infer name).name ∧
      (isArrayType (infer name).type = true ↔ ∃ first second rest,
        (∀ s ∈ first :: second :: rest, '_' ∉ s.toList) ∧
        name = "_".intercalate (first :: second :: rest) ∧
        (second = "arr" ∨ second = "array" ∨ ['['] <+: second.toList)) := by
  refine ⟨fun first second rest => infer_joinSegments, fun name h => (infer_segment h).1,
    fun name => ?_⟩
  by_cases h : '_' ∈ name.toList
  · obtain ⟨first, second, rest, hsegments, rfl⟩ := exists_segments h
    have hfirst : IsSegment first := hsegments first List.mem_cons_self
    rw [infer_joinSegments hsegments, toList_joinSegments_cons]
    refine ⟨⟨List.prefix_append _ _, hfirst, fun p => prefix_of_not_mem⟩, (infer_segment hfirst).1,
      ?_⟩
    rw [isArrayType_segmentsType]
    constructor
    · intro hsecond
      exact ⟨first, second, rest, hsegments, rfl, hsecond⟩
    · rintro ⟨first', second', rest', hsegments', hjoin, hsecond⟩
      -- the segments of a name are what cutting it gives
      have hcut := splitOn_joinSegments (List.cons_ne_nil _ _) hsegments
      rw [hjoin, ← joinSegments, splitOn_joinSegments (List.cons_ne_nil _ _) hsegments'] at hcut
      simp only [List.map_cons, List.cons.injEq, String.toList_inj] at hcut
      rwa [← hcut.2.1]
  · obtain ⟨hname, htype⟩ := infer_segment h
    rw [hname, htype]
    refine ⟨⟨List.prefix_rfl, h, fun p hp _ => hp⟩, hname, ?_⟩
    constructor
    · intro hfalse
      cases hfalse
    · rintro ⟨first, second, rest, -, rfl, -⟩
      exact absurd (mem_joinSegments first second rest) h

/-- An array of a name with an empty first segment and more segments than are read, and a slice. -/
theorem infer_reads_segments_array :
    infer "_arr__int_x_" = ⟨"", "[]int"⟩ ∧ infer "n_[]int_y" = ⟨"n", "[]int"⟩ ∧
    isArrayType (infer "n_[]int_y").type = true ∧ (infer "total").name = "total" := by
  obtain ⟨hjoined, hsingle, hevery⟩ := infer_reads_segments
  exact ⟨hjoined "" "arr" ["", "int", "x", ""] (by decide), hjoined "n" "[]int" ["y"] (by decide),
    (hevery "n_[]int_y").2.2.2 ⟨"n", "[]int", ["y"], by decide, rfl, by decide⟩,
    hsingle "total" (by decide)⟩

end Scaffold
