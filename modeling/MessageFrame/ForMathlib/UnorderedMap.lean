import MessageFrame.ForMathlib.AssocList

/-!
# Unordered maps with unique keys

`UnorderedMap μ κ ν` is the interface of a hash map as a client sees it: emplacement that
never overwrites, lookup, writing through the reference that a lookup returned, and a
traversal in an order the client knows nothing about. `LawfulUnorderedMap` states what the
documentation of such a container promises: keys are unique, a traversal visits every entry
once, and only the *multiset* of entries is determined — `reserve` and `emplace` may rehash
and reorder.

`ListMap` is a model of the laws that keeps its entries in insertion order.
-/

open AssocList

/-- The operations of a hash map from `κ` to `ν`. -/
class UnorderedMap (μ : Type) (κ ν : outParam Type) where
  /-- The default constructor. -/
  empty : μ
  /-- Make room for `n` entries. -/
  reserve : μ → ℕ → μ
  /-- Insert an entry, unless its key is present. -/
  emplace : μ → κ → ν → μ
  /-- The value a lookup refers to. -/
  find : μ → κ → Option ν
  /-- Write a value through the reference that the lookup of a key returned. -/
  assign : μ → κ → ν → μ
  /-- The number of entries. -/
  size : μ → ℕ
  /-- The entries in the order of traversal. -/
  toList : μ → List (κ × ν)

/-- The documented behaviour of a hash map. -/
class LawfulUnorderedMap (μ : Type) {κ ν : Type} [DecidableEq κ] [UnorderedMap μ κ ν] :
    Prop where
  toList_empty : UnorderedMap.toList (UnorderedMap.empty : μ) = []
  toList_reserve (m : μ) (n : ℕ) :
    (UnorderedMap.toList (UnorderedMap.reserve m n)).Perm (UnorderedMap.toList m)
  nodup_keys (m : μ) : (keys (UnorderedMap.toList m)).Nodup
  toList_emplace (m : μ) (k : κ) (v : ν) :
    (UnorderedMap.toList (UnorderedMap.emplace m k v)).Perm
      (insertNew (UnorderedMap.toList m) (k, v))
  find_eq (m : μ) (k : κ) : UnorderedMap.find m k = (UnorderedMap.toList m).lookup k
  toList_assign (m : μ) (k : κ) (v : ν) : k ∈ keys (UnorderedMap.toList m) →
    UnorderedMap.toList (UnorderedMap.assign m k v) = replaceFirst k v (UnorderedMap.toList m)
  size_eq (m : μ) : UnorderedMap.size m = (UnorderedMap.toList m).length

namespace UnorderedMap

variable {μ κ ν : Type} [DecidableEq κ] [UnorderedMap μ κ ν]

/-- Emplace a list of entries one after another. -/
def emplaceAll (m : μ) (es : List (κ × ν)) : μ := es.foldl (fun m e => emplace m e.1 e.2) m

omit [DecidableEq κ] in
@[simp] theorem emplaceAll_nil (m : μ) : emplaceAll m ([] : List (κ × ν)) = m := rfl

omit [DecidableEq κ] in
@[simp] theorem emplaceAll_cons (m : μ) (e : κ × ν) (es : List (κ × ν)) :
    emplaceAll m (e :: es) = emplaceAll (emplace m e.1 e.2) es := rfl

variable [LawfulUnorderedMap μ]

theorem toList_emplaceAll (m : μ) {l : List (κ × ν)} (h : (toList m).Perm l)
    (es : List (κ × ν)) : (toList (emplaceAll m es)).Perm (insertAll l es) := by
  induction es generalizing m l with
  | nil => exact h
  | cons e es ih =>
    exact ih _ ((LawfulUnorderedMap.toList_emplace m e.1 e.2).trans (insertNew_perm h e))

theorem toList_reserve_eq_nil {m : μ} (h : toList m = []) (n : ℕ) :
    toList (reserve m n) = [] := by
  have hperm : (toList (reserve m n)).Perm (toList m) := LawfulUnorderedMap.toList_reserve m n
  rw [h] at hperm
  exact hperm.eq_nil

end UnorderedMap

/-! ### A model of the laws -/

/-- A map kept as the list of its entries, without repeated keys. -/
structure ListMap (κ ν : Type) where
  entries : List (κ × ν)
  nodup : (keys entries).Nodup

namespace ListMap

variable {κ ν : Type} [DecidableEq κ]

instance : UnorderedMap (ListMap κ ν) κ ν where
  empty := ⟨[], List.nodup_nil⟩
  reserve m _ := m
  emplace m k v := ⟨insertNew m.entries (k, v), nodup_keys_insertNew m.nodup (k, v)⟩
  find m k := m.entries.lookup k
  assign m k v := ⟨replaceFirst k v m.entries, by rw [keys_replaceFirst]; exact m.nodup⟩
  size m := m.entries.length
  toList m := m.entries

instance : LawfulUnorderedMap (ListMap κ ν) where
  toList_empty := rfl
  toList_reserve _ _ := List.Perm.refl _
  nodup_keys m := m.nodup
  toList_emplace _ _ _ := List.Perm.refl _
  find_eq _ _ := rfl
  toList_assign _ _ _ _ := rfl
  size_eq _ := rfl

end ListMap
