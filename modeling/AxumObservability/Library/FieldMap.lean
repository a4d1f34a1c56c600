import Mathlib

/-!
# Ordered maps built in stages

A map that is filled by several loops, one after another, each inserting the
entries of a source that pass a test. What the finished map holds at a key is
read off stage by stage.

* `getElem?_insertWhere`: after a filtered insertion loop a key holds the
  source's value if that passes the test, and the old value otherwise;
* `ofList_toList`: a map is rebuilt from its own entries;
* `getElem?_ofOptions`: a record whose absent fields are skipped, read as a map;
* `getElem?_ofList`, `lookup_toList`: maps and their lists of entries, key by
  key.
-/

namespace Library.FieldMap

open Std

variable {α β γ : Type} {cmp : α → α → Ordering} [TransCmp cmp] [LawfulEqCmp cmp]

theorem getElem?_insert_eq [DecidableEq α] (m : ExtTreeMap α β cmp) (k a : α) (v : β) :
    (m.insert k v)[a]? = if k = a then some v else m[a]? := by
  rw [ExtTreeMap.getElem?_insert]
  by_cases h : k = a
  · subst h
    simp
  · simp [h]

theorem getElem?_erase_eq [DecidableEq α] (m : ExtTreeMap α β cmp) (k a : α) :
    (m.erase k)[a]? = if k = a then none else m[a]? := by
  rw [ExtTreeMap.getElem?_erase]
  by_cases h : k = a
  · subst h
    simp
  · simp [h]

/-- Insert every entry of `source` that passes `keep`, in key order. -/
def insertWhere (keep : α → β → Bool) (output source : ExtTreeMap α β cmp) :
    ExtTreeMap α β cmp :=
  source.foldl (fun out k v => if keep k v then out.insert k v else out) output

/-- The same loop over a list of entries. -/
private def insertList (keep : α → β → Bool) (l : List (α × β)) (output : ExtTreeMap α β cmp) :
    ExtTreeMap α β cmp :=
  l.foldl (fun out e => if keep e.1 e.2 then out.insert e.1 e.2 else out) output

omit [LawfulEqCmp cmp] in
private theorem insertList_cons (keep : α → β → Bool) (e : α × β) (l : List (α × β))
    (output : ExtTreeMap α β cmp) :
    insertList keep (e :: l) output =
      insertList keep l (if keep e.1 e.2 then output.insert e.1 e.2 else output) := rfl

private theorem insertList_skip (keep : α → β → Bool) (l : List (α × β))
    (output : ExtTreeMap α β cmp) (k : α) (h : ∀ v, (k, v) ∈ l → keep k v = false) :
    (insertList keep l output)[k]? = output[k]? := by
  induction l generalizing output with
  | nil => rfl
  | cons e l ih =>
    rw [insertList_cons, ih _ fun v hv => h v (List.mem_cons_of_mem _ hv)]
    by_cases hke : keep e.1 e.2 = true
    · have hne : e.1 ≠ k := by
        rintro rfl
        rw [h e.2 (by simp)] at hke
        cases hke
      simp [hke, ExtTreeMap.getElem?_insert, hne]
    · simp [hke]

private theorem insertList_keep (keep : α → β → Bool) (l : List (α × β))
    (hl : l.Pairwise fun a b => a.1 ≠ b.1) (output : ExtTreeMap α β cmp) (k : α) (v : β)
    (hv : (k, v) ∈ l) (hk : keep k v = true) : (insertList keep l output)[k]? = some v := by
  induction l generalizing output with
  | nil => cases hv
  | cons e l ih =>
    obtain ⟨hhead, htail⟩ := List.pairwise_cons.mp hl
    rw [insertList_cons]
    rcases List.mem_cons.mp hv with rfl | hv
    · have hnone : ∀ v', (k, v') ∈ l → keep k v' = false :=
        fun v' hv' => absurd rfl (hhead (k, v') hv')
      rw [insertList_skip keep l _ k hnone, if_pos hk, ExtTreeMap.getElem?_insert_self]
    · exact ih htail _ hv

omit [LawfulEqCmp cmp] in
private theorem insertWhere_eq (keep : α → β → Bool) (output source : ExtTreeMap α β cmp) :
    insertWhere keep output source = insertList keep source.toList output :=
  ExtTreeMap.foldl_eq_foldl_toList

private theorem toList_keys (m : ExtTreeMap α β cmp) :
    m.toList.Pairwise fun a b => a.1 ≠ b.1 := by
  refine m.distinct_keys_toList.imp fun {a b} h e => h ?_
  rw [e]
  exact ReflCmp.compare_self

/-- **One stage.**  A key holds the source's value if it passes the test, and
what it held before otherwise. -/
theorem getElem?_insertWhere (keep : α → β → Bool) (output source : ExtTreeMap α β cmp) (k : α) :
    (insertWhere keep output source)[k]? = ((source[k]?).filter (keep k)).or output[k]? := by
  rw [insertWhere_eq]
  cases hk : source[k]? with
  | none =>
    rw [insertList_skip]
    · rfl
    · intro v hv
      rw [ExtTreeMap.mem_toList_iff_getElem?_eq_some, hk] at hv
      cases hv
  | some v =>
    by_cases hkv : keep k v = true
    · rw [insertList_keep keep _ (toList_keys source) output k v
        (ExtTreeMap.mem_toList_iff_getElem?_eq_some.mpr hk) hkv]
      simp [Option.filter, hkv]
    · rw [insertList_skip]
      · simp [Option.filter, hkv]
      · intro v' hv'
        rw [ExtTreeMap.mem_toList_iff_getElem?_eq_some, hk] at hv'
        cases hv'
        simpa using hkv

omit [TransCmp cmp] [LawfulEqCmp cmp] in
/-- A test that looks at the key alone. -/
theorem filter_const (o : Option β) (b : Bool) :
    o.filter (fun _ => b) = if b then o else none := by
  cases o <;> cases b <;> rfl

theorem ofList_toList (m : ExtTreeMap α β cmp) : ExtTreeMap.ofList m.toList cmp = m := by
  have h : ExtTreeMap.ofList m.toList cmp = insertWhere (fun _ _ => true) ∅ m := by
    rw [ExtTreeMap.ofList_eq_foldl, insertWhere_eq]
    rfl
  refine ExtTreeMap.ext_getElem? fun k => ?_
  rw [h, getElem?_insertWhere]
  cases m[k]? <;> simp

/-! ## Records with optional fields -/

/-- The entries of a record: its present fields. -/
def ofOptions (fields : List (α × Option β)) : List (α × β) :=
  fields.filterMap fun f => f.2.map (f.1, ·)

omit [TransCmp cmp] [LawfulEqCmp cmp] in
theorem lookup_map [DecidableEq α] (f : β → γ) (l : List (α × β)) (k : α) :
    (l.map fun e => (e.1, f e.2)).lookup k = (l.lookup k).map f := by
  induction l with
  | nil => rfl
  | cons e l ih =>
    obtain ⟨a, b⟩ := e
    rw [List.map_cons, List.lookup_cons, List.lookup_cons, ih]
    cases k == a <;> rfl

omit [TransCmp cmp] [LawfulEqCmp cmp] in
theorem lookup_of_mem [DecidableEq α] {l : List (α × β)} (hn : (l.map Prod.fst).Nodup) {k : α}
    {b : β} (h : (k, b) ∈ l) : l.lookup k = some b := by
  cases hk : l.lookup k with
  | none =>
    rw [List.lookup_eq_none_iff] at hk
    exact absurd (hk _ h) (by simp)
  | some b' =>
    obtain ⟨before, after, rfl, -⟩ := List.lookup_eq_some_iff.mp hk
    have heq := List.inj_on_of_nodup_map hn h (List.mem_append_right _ List.mem_cons_self) rfl
    cases heq
    rfl

omit [TransCmp cmp] [LawfulEqCmp cmp] in
theorem mem_ofOptions {fields : List (α × Option β)} {k : α} {v : β} :
    (k, v) ∈ ofOptions fields ↔ (k, some v) ∈ fields := by
  simp only [ofOptions, List.mem_filterMap, Option.map_eq_some_iff, Prod.mk.injEq]
  constructor
  · rintro ⟨⟨k', o⟩, h, v', rfl, rfl, rfl⟩
    exact h
  · exact fun h => ⟨(k, some v), h, v, rfl, rfl, rfl⟩

omit [TransCmp cmp] [LawfulEqCmp cmp] in
private theorem ofOptions_keys {fields : List (α × Option β)}
    (h : (fields.map Prod.fst).Nodup) :
    (ofOptions fields).Pairwise fun a b => a.1 ≠ b.1 := by
  have hp : fields.Pairwise fun a b => a.1 ≠ b.1 := List.pairwise_map.mp h
  refine hp.filterMap _ fun a b hab e he e' he' => ?_
  simp only [Option.map_eq_some_iff] at he he'
  obtain ⟨_, -, rfl⟩ := he
  obtain ⟨_, -, rfl⟩ := he'
  exact hab

omit [LawfulEqCmp cmp] in
private theorem ofList_eq_insertList (l : List (α × β)) :
    ExtTreeMap.ofList l cmp = insertList (fun _ _ => true) l ∅ := by
  rw [ExtTreeMap.ofList_eq_foldl]
  rfl

/-- The map of a record, by its list of fields. -/
theorem getElem?_ofOptions [DecidableEq α] {fields : List (α × Option β)}
    (hn : (fields.map Prod.fst).Nodup) (k : α) :
    (ExtTreeMap.ofList (ofOptions fields) cmp)[k]? = (fields.lookup k).join := by
  rw [ofList_eq_insertList]
  cases hk : fields.lookup k with
  | none =>
    rw [List.lookup_eq_none_iff] at hk
    rw [insertList_skip]
    · simp
    · intro v hv
      exact absurd (hk _ (mem_ofOptions.mp hv)) (by simp)
  | some o =>
    obtain ⟨before, after, rfl, -⟩ := List.lookup_eq_some_iff.mp hk
    have hmem : (k, o) ∈ before ++ (k, o) :: after := by simp
    cases o with
    | some v => exact insertList_keep _ _ (ofOptions_keys hn) _ k v (mem_ofOptions.mpr hmem) rfl
    | none =>
      rw [insertList_skip]
      · simp
      · intro v hv
        have heq := List.inj_on_of_nodup_map hn hmem (mem_ofOptions.mp hv) rfl
        cases heq

/-- The map of a list of entries with distinct keys. -/
theorem getElem?_ofList [DecidableEq α] {l : List (α × β)} (hn : (l.map Prod.fst).Nodup) (k : α) :
    (ExtTreeMap.ofList l cmp)[k]? = l.lookup k := by
  have hsome : ofOptions (l.map fun e => (e.1, some e.2)) = l := by
    simp [ofOptions, List.filterMap_map]
  have hn' : ((l.map fun e => (e.1, some e.2)).map Prod.fst).Nodup := by rwa [List.map_map]
  conv_lhs => rw [← hsome]
  rw [getElem?_ofOptions hn', lookup_map]
  cases l.lookup k <;> rfl

theorem toList_nodup (m : ExtTreeMap α β cmp) : (m.toList.map Prod.fst).Nodup :=
  List.pairwise_map.mpr (toList_keys m)

theorem lookup_toList [DecidableEq α] (m : ExtTreeMap α β cmp) (k : α) :
    m.toList.lookup k = m[k]? := by
  have h : (ExtTreeMap.ofList m.toList cmp)[k]? = m.toList.lookup k :=
    getElem?_ofList (toList_nodup m) k
  rw [← h, ofList_toList]

end Library.FieldMap
