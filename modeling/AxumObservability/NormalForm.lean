import Mathlib.Logic.Relation
import AxumObservability.TraceState

/-!
# The normal form of a tracestate

What the list parser returns depends on its lines only through their trimmed
members in wire order.

* `parseTracestateWithLevel_congr`: lines with the same members parse alike;
* `BlanksInserted.wireMembers_eq`: blanks around a member do not show;
* `parseTracestateWithLevel_normalForm`: the laws of the normal form.
-/

namespace AxumObservability

open Library.Text

/-! ## Members decide -/

theorem wireMembers_append (lines lines' : List Bytes) :
    wireMembers (lines ++ lines') = wireMembers lines ++ wireMembers lines' := by
  rw [wireMembers, List.flatMap_append, List.map_append, wireMembers, wireMembers]

theorem wireMembers_ne_nil {lines : List Bytes} (h : lines ≠ []) : wireMembers lines ≠ [] := by
  cases lines with
  | nil => exact absurd rfl h
  | cons line lines => simp [wireMembers, List.splitOn_ne_nil]

theorem not_comma_of_mem_wireMembers {lines : List Bytes} {member : Bytes}
    (h : member ∈ wireMembers lines) : comma ∉ member := by
  obtain ⟨field, hfield, rfl⟩ := List.mem_map.mp h
  obtain ⟨line, -, hfield⟩ := List.mem_flatMap.mp hfield
  exact fun hc => not_mem_of_mem_splitOn hfield (mem_of_mem_trim hc)

/-- Lines with the same members, at least one each, are parsed alike. -/
theorem parseTracestateWithLevel_congr {values values' : List String} (level : TraceContextLevel)
    (hne : values ≠ []) (hne' : values' ≠ [])
    (h : wireMembers (values.map asBytes) = wireMembers (values'.map asBytes)) :
    parseTracestateWithLevel values level = parseTracestateWithLevel values' level := by
  apply Option.ext
  intro text
  rw [parseTracestateWithLevel_iff, parseTracestateWithLevel_iff, h]
  exact and_congr_left fun _ => iff_of_true hne hne'

/-- The members of a text that joins members are these. -/
theorem wireMembers_of_joined {lines : List Bytes} (hne : lines ≠ []) {text : String}
    (h : asBytes text = joinWith comma (wireMembers lines)) :
    (asBytes text).splitOn comma = wireMembers lines ∧
      wireMembers [asBytes text] = wireMembers lines := by
  have hsplit : (asBytes text).splitOn comma = wireMembers lines := by
    rw [h, joinWith]
    exact List.splitOn_intercalate comma (fun _ => not_comma_of_mem_wireMembers)
      (wireMembers_ne_nil hne)
  refine ⟨hsplit, ?_⟩
  rw [wireMembers, List.flatMap_singleton, hsplit]
  have htrimmed : ∀ member ∈ wireMembers lines, trim isEdgeBlank member = member := by
    intro member hmember
    obtain ⟨field, -, rfl⟩ := List.mem_map.mp hmember
    exact trim_trim isEdgeBlank field
  exact (List.map_congr_left htrimmed).trans (List.map_id _)

/-! ## Blanks around members -/

/-- The second list of lines has a run of spaces and tabs more than the first, next
to a comma or at an end of a line. -/
inductive BlanksInserted : List String → List String → Prop where
  | afterStart (before after : List String) (blanks rest : String)
      (blank : ∀ b ∈ asBytes blanks, isEdgeBlank b = true) :
      BlanksInserted (before ++ rest :: after) (before ++ (blanks ++ rest) :: after)
  | beforeEnd (before after : List String) (rest blanks : String)
      (blank : ∀ b ∈ asBytes blanks, isEdgeBlank b = true) :
      BlanksInserted (before ++ rest :: after) (before ++ (rest ++ blanks) :: after)
  | afterComma (before after : List String) (left blanks right : String)
      (blank : ∀ b ∈ asBytes blanks, isEdgeBlank b = true) :
      BlanksInserted (before ++ (left ++ "," ++ right) :: after)
        (before ++ (left ++ "," ++ blanks ++ right) :: after)
  | beforeComma (before after : List String) (left blanks right : String)
      (blank : ∀ b ∈ asBytes blanks, isEdgeBlank b = true) :
      BlanksInserted (before ++ (left ++ "," ++ right) :: after)
        (before ++ (left ++ blanks ++ "," ++ right) :: after)

/-- A line's members, with blanks before the first one or after the last one. -/
theorem wireMembers_blanks {blanks : Bytes} (line : Bytes)
    (h : ∀ b ∈ blanks, isEdgeBlank b = true) :
    wireMembers [blanks ++ line] = wireMembers [line] ∧
      wireMembers [line ++ blanks] = wireMembers [line] := by
  have hcomma : comma ∉ blanks := fun hc => absurd (h comma hc) (by decide)
  have hblanks : blanks.splitOn comma = [blanks] := List.splitOn_eq_singleton hcomma
  constructor
  · obtain ⟨before, last, first, after, hleft, hright, happend⟩ := splitOn_append comma blanks line
    obtain ⟨rfl, rfl⟩ : before = [] ∧ last = blanks := by
      rw [hblanks] at hleft
      cases before with
      | nil => exact ⟨rfl, (List.cons.inj hleft).1.symm⟩
      | cons b bs => cases bs <;> cases hleft
    simp only [wireMembers, List.flatMap_singleton, happend, hright, List.nil_append, List.map_cons,
      trim_append_left h]
  · obtain ⟨before, last, first, after, hleft, hright, happend⟩ := splitOn_append comma line blanks
    obtain ⟨rfl, rfl⟩ := List.cons.inj (hright.symm.trans hblanks)
    simp only [wireMembers, List.flatMap_singleton, happend, hleft, List.map_append, List.map_cons,
      List.map_nil, trim_append_right h]

/-- A comma inside a line separates it like a line end. -/
theorem wireMembers_comma (left right : Bytes) :
    wireMembers [left ++ comma :: right] = wireMembers [left] ++ wireMembers [right] := by
  simp only [wireMembers, List.flatMap_singleton, List.splitOn_append_cons_self, List.map_append]

theorem BlanksInserted.wireMembers_eq {values values' : List String}
    (h : BlanksInserted values values') :
    wireMembers (values'.map asBytes) = wireMembers (values.map asBytes) ∧
      (values ≠ [] ∧ values' ≠ []) := by
  have hline : ∀ (before after : List String) (line line' : String),
      wireMembers [asBytes line'] = wireMembers [asBytes line] →
      wireMembers ((before ++ line' :: after).map asBytes) =
        wireMembers ((before ++ line :: after).map asBytes) := by
    intro before after line line' heq
    have hcut : ∀ l : String, (before ++ l :: after).map asBytes =
        before.map asBytes ++ ([asBytes l] ++ after.map asBytes) := fun l => by simp
    rw [hcut, hcut, wireMembers_append, wireMembers_append, wireMembers_append, wireMembers_append,
      heq]
  have hcomma : asBytes "," = [comma] := rfl
  refine ⟨?_, by cases h <;> simp, by cases h <;> simp⟩
  cases h with
  | afterStart before after blanks rest blank =>
    apply hline
    rw [asBytes_append]
    exact (wireMembers_blanks _ blank).1
  | beforeEnd before after rest blanks blank =>
    apply hline
    rw [asBytes_append]
    exact (wireMembers_blanks _ blank).2
  | afterComma before after left blanks right blank =>
    apply hline
    simp only [asBytes_append, hcomma, List.append_assoc, List.cons_append, List.nil_append]
    rw [wireMembers_comma, wireMembers_comma, (wireMembers_blanks _ blank).1]
  | beforeComma before after left blanks right blank =>
    apply hline
    simp only [asBytes_append, hcomma, List.append_assoc, List.cons_append, List.nil_append]
    rw [← List.append_assoc, wireMembers_comma, wireMembers_comma, (wireMembers_blanks _ blank).2]

/-- Any number of insertions and deletions of blanks leaves the result alone. -/
theorem parseTracestateWithLevel_blanks {values values' : List String} (level : TraceContextLevel)
    (h : Relation.EqvGen BlanksInserted values values') :
    parseTracestateWithLevel values' level = parseTracestateWithLevel values level := by
  induction h with
  | rel values values' step =>
    obtain ⟨hmembers, hne, hne'⟩ := step.wireMembers_eq
    exact parseTracestateWithLevel_congr level hne' hne hmembers
  | refl values => rfl
  | symm values values' _ ih => exact ih.symm
  | trans first second third _ _ ih ih' => exact ih'.trans ih

/-! ## Lines cut at members -/

theorem wireMembers_intercalate {group : List String} (h : group ≠ []) :
    wireMembers [asBytes (String.intercalate "," group)] = wireMembers (group.map asBytes) := by
  rw [asBytes_intercalate comma rfl, wireMembers, List.flatMap_singleton,
    splitOn_joinWith comma _ (by simpa using h), wireMembers]

theorem wireMembers_groups {groups : List (List String)} (h : ∀ group ∈ groups, group ≠ []) :
    wireMembers ((groups.map (String.intercalate ",")).map asBytes) =
      wireMembers (groups.flatten.map asBytes) := by
  induction groups with
  | nil => rfl
  | cons group groups ih =>
    obtain ⟨hgroup, hgroups⟩ := List.forall_mem_cons.mp h
    have hcons : ∀ l : Bytes, ∀ ls, l :: ls = [l] ++ ls := fun _ _ => rfl
    rw [List.map_cons, List.map_cons, hcons, wireMembers_append, wireMembers_intercalate hgroup,
      ih hgroups, List.flatten_cons, List.map_append, wireMembers_append]

/-- **The normal form.**  What the parser returns parses as a single line to itself
and has the members of the lines, trimmed, in wire order. Blanks around members
and the way members are spread over lines do not show in the result. -/
theorem parseTracestateWithLevel_normalForm (level : TraceContextLevel) (values : List String)
    (hne : values ≠ []) :
    (∀ text, parseTracestateWithLevel values level = some text →
      parseTracestateWithLevel [text] level = some text) ∧
    (∀ values', Relation.EqvGen BlanksInserted values values' →
      parseTracestateWithLevel values' level = parseTracestateWithLevel values level) ∧
    (∀ groups : List (List String), groups ≠ [] → (∀ group ∈ groups, group ≠ []) →
      parseTracestateWithLevel (groups.map (String.intercalate ",")) level =
        parseTracestateWithLevel [String.intercalate "," groups.flatten] level) ∧
    ∀ text, parseTracestateWithLevel values level = some text →
      (asBytes text).splitOn comma =
        ((values.map asBytes).flatMap (List.splitOn comma)).map (trim isEdgeBlank) := by
  have hlines : values.map asBytes ≠ [] := by simpa using hne
  refine ⟨fun text htext => ?_, fun values' h => parseTracestateWithLevel_blanks level h,
    fun groups hgroups hgroup => ?_, fun text htext => ?_⟩
  · have hjoined := ((parseTracestateWithLevel_iff _ _ _).mp htext).2.2
    rw [← htext]
    exact parseTracestateWithLevel_congr level (by simp) hne
      (wireMembers_of_joined hlines hjoined).2
  · have hflatten : groups.flatten ≠ [] := by
      obtain ⟨group, rest, rfl⟩ := List.exists_cons_of_ne_nil hgroups
      have hfirst := hgroup group List.mem_cons_self
      simp [hfirst]
    refine parseTracestateWithLevel_congr level (by simpa using hgroups) (by simp) ?_
    rw [wireMembers_groups hgroup]
    exact (wireMembers_intercalate hflatten).symm
  · exact (wireMembers_of_joined hlines ((parseTracestateWithLevel_iff _ _ _).mp htext).2.2).1

/-! ### Two lines with blanks and an empty member -/

theorem parseTracestateWithLevel_normalForm_lines :
    parseTracestateWithLevel ["a=1 ,", "b=2"] .level1 = some "a=1,,b=2" ∧
      parseTracestateWithLevel ["a=1,,b=2"] .level1 = some "a=1,,b=2" ∧
      parseTracestateWithLevel ["a=1 ,", "\tb=2"] .level1 = some "a=1,,b=2" ∧
      parseTracestateWithLevel ["a=1,b=2", "c=3"] .level1 =
        parseTracestateWithLevel ["a=1,b=2,c=3"] .level1 ∧
      (asBytes "a=1,,b=2").splitOn comma = [asBytes "a=1", [], asBytes "b=2"] := by
  obtain ⟨hself, hblanks, hgroups, hmembers⟩ :=
    parseTracestateWithLevel_normalForm .level1 ["a=1 ,", "b=2"] (by simp)
  have hparse : parseTracestateWithLevel ["a=1 ,", "b=2"] .level1 = some "a=1,,b=2" := by
    decide +kernel
  refine ⟨hparse, hself _ hparse, ?_, ?_, (hmembers _ hparse).trans (by decide +kernel)⟩
  · rw [← hparse]
    exact hblanks _ (.rel _ _ (.afterStart ["a=1 ,"] [] "\t" "b=2" (by decide +kernel)))
  · exact hgroups [["a=1", "b=2"], ["c=3"]] (by simp) (by simp)

end AxumObservability
