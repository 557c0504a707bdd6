import Mathlib.Data.List.Basic
import Mathlib.Data.List.Nodup
import Mathlib.Data.List.Perm.Basic
import Mathlib.Data.List.Lattice

/-!
# Association lists read at the first match

A list of key-value pairs read by `List.lookup` answers with the **first** entry of a key, so
later entries of the same key are shadowed, not absent: they still count in the length and
are still traversed. The operations here are the ones a container over such a list needs:

* `insertNew` appends an entry unless its key is present (the insertion of a unique-key map);
* `replaceFirst` overwrites the value of the first entry of a key, in place;
* `firsts` drops every shadowed entry, keeping the order of first occurrences.

`lookup` does not see the difference between a list and its `firsts`, and on lists without
repeated keys it does not see the order either (`lookup_eq_of_perm`).
-/

namespace AssocList

variable {α β : Type*} [DecidableEq α]

/-- The keys of an association list, in order and with repetitions. -/
def keys (l : List (α × β)) : List α := l.map Prod.fst

omit [DecidableEq α] in
@[simp] theorem keys_nil : keys ([] : List (α × β)) = [] := rfl

omit [DecidableEq α] in
@[simp] theorem keys_cons (e : α × β) (l : List (α × β)) : keys (e :: l) = e.1 :: keys l := rfl

omit [DecidableEq α] in
@[simp] theorem keys_append (l l' : List (α × β)) : keys (l ++ l') = keys l ++ keys l' :=
  List.map_append

omit [DecidableEq α] in
@[simp] theorem length_keys (l : List (α × β)) : (keys l).length = l.length := List.length_map _

omit [DecidableEq α] in
theorem keys_perm {l l' : List (α × β)} (h : l.Perm l') : (keys l).Perm (keys l') := h.map _

theorem lookup_cons (k : α) (e : α × β) (l : List (α × β)) :
    (e :: l).lookup k = if k = e.1 then some e.2 else l.lookup k := by
  rw [List.lookup_cons]
  by_cases h : k = e.1
  · simp [h]
  · rw [if_neg h, show (k == e.1) = false by simpa using h]

theorem lookup_eq_none {k : α} {l : List (α × β)} : l.lookup k = none ↔ k ∉ keys l := by
  simp only [List.lookup_eq_none_iff, keys, List.mem_map, not_exists, not_and, bne_iff_ne, ne_eq]
  exact ⟨fun h e he hk => h e he hk.symm, fun h e he hk => h e he hk.symm⟩

theorem isSome_lookup {k : α} {l : List (α × β)} : (l.lookup k).isSome ↔ k ∈ keys l := by
  rw [Option.isSome_iff_ne_none, ne_eq, lookup_eq_none, not_not]

/-- On a list without repeated keys every entry is the one `lookup` finds. -/
theorem lookup_eq_some {k : α} {v : β} {l : List (α × β)} (hnd : (keys l).Nodup) :
    l.lookup k = some v ↔ (k, v) ∈ l := by
  induction l with
  | nil => simp
  | cons e l ih =>
    obtain ⟨hnot, hnd'⟩ := List.nodup_cons.mp hnd
    rw [lookup_cons, List.mem_cons]
    by_cases hk : k = e.1
    · have hfresh : (k, v) ∉ l := fun hmem => hnot (hk ▸ List.mem_map_of_mem hmem)
      subst hk
      simp only [if_true, Option.some.injEq, hfresh, or_false]
      exact ⟨fun h => by rw [← h], fun h => (congrArg Prod.snd h).symm⟩
    · have hne : (k, v) ≠ e := fun h => hk (congrArg Prod.fst h)
      rw [if_neg hk, ih hnd']
      simp [hne]

/-- **Order is invisible to `lookup`** once the keys are distinct. -/
theorem lookup_eq_of_perm {l l' : List (α × β)} (h : l.Perm l') (hnd : (keys l).Nodup) (k : α) :
    l.lookup k = l'.lookup k := by
  refine Option.ext fun v => ?_
  rw [lookup_eq_some hnd, lookup_eq_some ((keys_perm h).nodup_iff.mp hnd)]
  exact h.mem_iff

/-- The lookup of an appended entry: the old answer, else the new entry. -/
theorem lookup_append_singleton (l : List (α × β)) (k k' : α) (v : β) :
    (l ++ [(k, v)]).lookup k' = (l.lookup k').or (if k' = k then some v else none) := by
  rw [List.lookup_append, lookup_cons, List.lookup_nil]

omit [DecidableEq α] in
theorem nodup_keys_append_singleton {l : List (α × β)} (hnd : (keys l).Nodup) {k : α}
    (hk : k ∉ keys l) (v : β) : (keys (l ++ [(k, v)])).Nodup := by
  rw [keys_append]
  exact hnd.append (List.nodup_singleton _) (by simpa using hk)

/-! ### Insertion without overwriting -/

/-- Append an entry unless its key is present. -/
def insertNew (l : List (α × β)) (e : α × β) : List (α × β) :=
  if e.1 ∈ keys l then l else l ++ [e]

theorem insertNew_of_mem {l : List (α × β)} {e : α × β} (h : e.1 ∈ keys l) :
    insertNew l e = l := if_pos h

theorem insertNew_of_notMem {l : List (α × β)} {e : α × β} (h : e.1 ∉ keys l) :
    insertNew l e = l ++ [e] := if_neg h

theorem lookup_insertNew (l : List (α × β)) (e : α × β) (k : α) :
    (insertNew l e).lookup k = (l ++ [e]).lookup k := by
  by_cases h : e.1 ∈ keys l
  · rw [insertNew_of_mem h, lookup_append_singleton]
    split_ifs with hk
    · obtain ⟨v, hv⟩ := Option.isSome_iff_exists.mp (isSome_lookup.mpr (hk ▸ h))
      rw [hv, Option.some_or]
    · rw [Option.or_none]
  · rw [insertNew_of_notMem h]

theorem nodup_keys_insertNew {l : List (α × β)} (hnd : (keys l).Nodup) (e : α × β) :
    (keys (insertNew l e)).Nodup := by
  by_cases h : e.1 ∈ keys l
  · rwa [insertNew_of_mem h]
  · rw [insertNew_of_notMem h]
    exact nodup_keys_append_singleton hnd h e.2

theorem insertNew_perm {l l' : List (α × β)} (h : l.Perm l') (e : α × β) :
    (insertNew l e).Perm (insertNew l' e) := by
  -- both lists take the same branch
  have hmem : e.1 ∈ keys l ↔ e.1 ∈ keys l' := (keys_perm h).mem_iff
  by_cases hk : e.1 ∈ keys l
  · rwa [insertNew_of_mem hk, insertNew_of_mem (hmem.mp hk)]
  · rw [insertNew_of_notMem hk, insertNew_of_notMem fun hk' => hk (hmem.mpr hk')]
    exact h.append_right _

/-- Insert a list of entries one after another. -/
def insertAll (l es : List (α × β)) : List (α × β) := es.foldl insertNew l

@[simp] theorem insertAll_nil (l : List (α × β)) : insertAll l [] = l := rfl

@[simp] theorem insertAll_cons (l : List (α × β)) (e : α × β) (es : List (α × β)) :
    insertAll l (e :: es) = insertAll (insertNew l e) es := rfl

theorem insertAll_append (l es es' : List (α × β)) :
    insertAll l (es ++ es') = insertAll (insertAll l es) es' := List.foldl_append

theorem length_insertAll_le (l es : List (α × β)) :
    (insertAll l es).length ≤ l.length + es.length := by
  induction es generalizing l with
  | nil => exact Nat.le_refl _
  | cons e es ih =>
    have hone : (insertNew l e).length ≤ l.length + 1 := by
      unfold insertNew
      split_ifs
      · exact Nat.le_succ _
      · exact Nat.le_of_eq List.length_append
    have hrest := ih (insertNew l e)
    rw [insertAll_cons, List.length_cons]
    omega

theorem lookup_insertAll (l es : List (α × β)) (k : α) :
    (insertAll l es).lookup k = (l ++ es).lookup k := by
  induction es generalizing l with
  | nil => simp
  | cons e es ih =>
    rw [insertAll_cons, ih, List.lookup_append, lookup_insertNew, ← List.lookup_append,
      List.append_assoc, List.singleton_append]

/-- Entries with pairwise distinct, absent keys are appended as they stand. -/
theorem insertAll_eq_append {l es : List (α × β)} (hnd : (keys (l ++ es)).Nodup) :
    insertAll l es = l ++ es := by
  induction es generalizing l with
  | nil => simp
  | cons e es ih =>
    have hnot : e.1 ∉ keys l := fun hmem => by
      rw [keys_append, keys_cons] at hnd
      exact (List.nodup_append.mp hnd).2.2 _ hmem _ List.mem_cons_self rfl
    rw [insertAll_cons, insertNew_of_notMem hnot, ih (by simpa using hnd), List.append_assoc,
      List.singleton_append]

/-- The entries that `lookup` can reach, in the order of first occurrence. -/
def firsts (l : List (α × β)) : List (α × β) := insertAll [] l

theorem lookup_firsts (l : List (α × β)) (k : α) : (firsts l).lookup k = l.lookup k := by
  rw [firsts, lookup_insertAll, List.nil_append]

theorem firsts_eq_self {l : List (α × β)} (hnd : (keys l).Nodup) : firsts l = l :=
  insertAll_eq_append (l := []) hnd

theorem firsts_append_singleton (l : List (α × β)) (e : α × β) :
    firsts (l ++ [e]) = insertNew (firsts l) e := by
  rw [firsts, insertAll_append]
  rfl

/-! ### Overwriting in place -/

/-- Overwrite the value of the first entry of a key; nothing changes when there is none. -/
def replaceFirst (k : α) (v : β) : List (α × β) → List (α × β)
  | [] => []
  | e :: l => if e.1 = k then (e.1, v) :: l else e :: replaceFirst k v l

@[simp] theorem keys_replaceFirst (k : α) (v : β) (l : List (α × β)) :
    keys (replaceFirst k v l) = keys l := by
  induction l with
  | nil => rfl
  | cons e l ih =>
    rw [replaceFirst]
    split_ifs with h
    · rfl
    · rw [keys_cons, keys_cons, ih]

@[simp] theorem length_replaceFirst (k : α) (v : β) (l : List (α × β)) :
    (replaceFirst k v l).length = l.length := by
  rw [← length_keys, keys_replaceFirst, length_keys]

theorem replaceFirst_of_notMem {k : α} {l : List (α × β)} (h : k ∉ keys l) (v : β) :
    replaceFirst k v l = l := by
  induction l with
  | nil => rfl
  | cons e l ih =>
    simp only [keys_cons, List.mem_cons, not_or] at h
    rw [replaceFirst, if_neg fun hk => h.1 hk.symm, ih h.2]

theorem lookup_replaceFirst {k : α} {l : List (α × β)} (h : k ∈ keys l) (v : β) (k' : α) :
    (replaceFirst k v l).lookup k' = if k' = k then some v else l.lookup k' := by
  induction l with
  | nil => simp at h
  | cons e l ih =>
    rw [replaceFirst]
    by_cases he : e.1 = k
    · rw [if_pos he, lookup_cons, lookup_cons, he]
      split_ifs <;> rfl
    · -- the entry overwritten is further back
      have hmem : k ∈ keys l := (List.mem_cons.mp h).resolve_left fun hk => he hk.symm
      rw [if_neg he, lookup_cons, lookup_cons, ih hmem]
      split_ifs with h₁ h₂
      · exact absurd (h₁.symm.trans h₂) he
      · rfl
      · rfl
      · rfl

/-- On distinct keys, overwriting is a map over the entries. -/
theorem replaceFirst_eq_map {l : List (α × β)} (hnd : (keys l).Nodup) (k : α) (v : β) :
    replaceFirst k v l = l.map fun e => if e.1 = k then (e.1, v) else e := by
  induction l with
  | nil => rfl
  | cons e l ih =>
    obtain ⟨hnot, hnd'⟩ := List.nodup_cons.mp hnd
    rw [replaceFirst, List.map_cons, ← ih hnd']
    split_ifs with he
    · rw [replaceFirst_of_notMem (he ▸ hnot)]
    · rfl

theorem replaceFirst_perm {l l' : List (α × β)} (h : l.Perm l') (hnd : (keys l).Nodup) (k : α)
    (v : β) : (replaceFirst k v l).Perm (replaceFirst k v l') := by
  rw [replaceFirst_eq_map hnd, replaceFirst_eq_map ((keys_perm h).nodup_iff.mp hnd)]
  exact h.map _

/-- Overwrite the value of a key, or append an entry for it. -/
def upsert (l : List (α × β)) (k : α) (v : β) : List (α × β) :=
  if k ∈ keys l then replaceFirst k v l else l ++ [(k, v)]

theorem upsert_of_mem {l : List (α × β)} {k : α} (h : k ∈ keys l) (v : β) :
    upsert l k v = replaceFirst k v l := if_pos h

theorem upsert_of_notMem {l : List (α × β)} {k : α} (h : k ∉ keys l) (v : β) :
    upsert l k v = l ++ [(k, v)] := if_neg h

/-! ### Addressing the first match by its index -/

/-- The index of the first entry of a key, as a linear search returns it. -/
def indexOf? (k : α) (l : List (α × β)) : Option ℕ := l.findIdx? fun e => decide (e.1 = k)

theorem indexOf?_cons (k : α) (e : α × β) (l : List (α × β)) :
    indexOf? k (e :: l) = if e.1 = k then some 0 else (indexOf? k l).map (· + 1) := by
  rw [indexOf?, List.findIdx?_cons]
  by_cases h : e.1 = k <;> simp [h, indexOf?]

/-- A search that fails finds no key. -/
theorem indexOf?_eq_none {k : α} {l : List (α × β)} : indexOf? k l = none ↔ k ∉ keys l := by
  simp only [indexOf?, List.findIdx?_eq_none_iff, decide_eq_false_iff_not, keys, List.mem_map,
    not_exists, not_and]

/-- Reading the entry at the index found is `lookup`. -/
theorem getElem?_indexOf? (k : α) (l : List (α × β)) :
    ((indexOf? k l).bind fun i => l[i]?.map Prod.snd) = l.lookup k := by
  induction l with
  | nil => rfl
  | cons e l ih =>
    rw [indexOf?_cons, lookup_cons]
    by_cases h : e.1 = k
    · simp [h]
    · rw [if_neg h, if_neg fun hk => h hk.symm, ← ih]
      cases indexOf? k l <;> rfl

/-- Overwriting the entry at the index found is `replaceFirst`. -/
theorem modify_indexOf? {k : α} {l : List (α × β)} {i : ℕ} (h : indexOf? k l = some i) (v : β) :
    l.modify i (fun e => (e.1, v)) = replaceFirst k v l := by
  induction l generalizing i with
  | nil => simp [indexOf?] at h
  | cons e l ih =>
    rw [indexOf?_cons] at h
    rw [replaceFirst]
    split_ifs at h ⊢ with he
    · obtain rfl : i = 0 := by simpa using h.symm
      rfl
    · obtain ⟨j, hj, rfl⟩ := Option.map_eq_some_iff.mp h
      rw [← ih hj]
      rfl

/-- The index of a key depends on the keys only. -/
theorem indexOf?_eq_of_keys {l l' : List (α × β)} (h : keys l' = keys l) (k : α) :
    indexOf? k l' = indexOf? k l := by
  have hkeys : ∀ l : List (α × β), indexOf? k l = (keys l).findIdx? fun a => decide (a = k) := by
    intro l
    rw [keys, List.findIdx?_map]
    rfl
  rw [hkeys, hkeys, h]

/-- An entry that is found stays where it is when others are appended. -/
theorem indexOf?_append {k : α} {l : List (α × β)} {i : ℕ} (h : indexOf? k l = some i)
    (l' : List (α × β)) : indexOf? k (l ++ l') = some i := by
  rw [indexOf?] at h
  rw [indexOf?, List.findIdx?_append, h, Option.some_or]

end AssocList
