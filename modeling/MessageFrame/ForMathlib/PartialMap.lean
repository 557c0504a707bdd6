import Mathlib.Data.List.Basic
import Mathlib.Logic.Function.Basic

/-!
# Finite maps as partial functions

`PartialMap κ ν` is a map from keys to values seen from the outside: for every key, the value
stored for it, if any. The updates are `insertNew` (the first value wins), `upsert` (the last
value wins) and `replace` (only what is present is overwritten); each changes the map at its
own key only.

`Rel r f g` compares two maps up to a relation on their values; the updates respect it.

`AgreeOn S f g` compares two maps on a set of keys. An update at a key of `S` performed on
both sides keeps the agreement, and so does one at a key outside `S` performed on one side:
these are the two facts an interleaving argument needs.
-/

/-- A map from `κ` to `ν`, by its lookups. -/
abbrev PartialMap (κ ν : Type*) := κ → Option ν

namespace PartialMap

variable {κ ν : Type*} [DecidableEq κ]

/-- The map without entries. -/
def empty : PartialMap κ ν := fun _ => none

/-- Store a value unless the key is present. -/
def insertNew (f : PartialMap κ ν) (k : κ) (v : ν) : PartialMap κ ν :=
  if (f k).isSome then f else Function.update f k (some v)

/-- Store a value, present key or not. -/
def upsert (f : PartialMap κ ν) (k : κ) (v : ν) : PartialMap κ ν := Function.update f k (some v)

/-- Store a value if the key is present. -/
def replace (f : PartialMap κ ν) (k : κ) (v : ν) : PartialMap κ ν :=
  if (f k).isSome then Function.update f k (some v) else f

theorem insertNew_apply (f : PartialMap κ ν) (k k' : κ) (v : ν) :
    insertNew f k v k' = (f k').or (if k' = k then some v else none) := by
  rw [insertNew]
  by_cases h : (f k).isSome
  · rw [if_pos h]
    split_ifs with hk
    · rw [hk, Option.or_of_isSome h]
    · rw [Option.or_none]
  · rw [if_neg h, Function.update_apply]
    split_ifs with hk
    · rw [hk, Option.not_isSome_iff_eq_none.mp h, Option.none_or]
    · rw [Option.or_none]

theorem upsert_apply (f : PartialMap κ ν) (k k' : κ) (v : ν) :
    upsert f k v k' = if k' = k then some v else f k' := Function.update_apply f k (some v) k'

theorem replace_apply (f : PartialMap κ ν) (k k' : κ) (v : ν) :
    replace f k v k' = if k' = k then (f k).map fun _ => v else f k' := by
  rw [replace]
  by_cases h : (f k).isSome
  · obtain ⟨w, hw⟩ := Option.isSome_iff_exists.mp h
    rw [if_pos h, Function.update_apply, hw]
    rfl
  · rw [if_neg h, Option.not_isSome_iff_eq_none.mp h]
    split_ifs with hk
    · rw [hk, Option.not_isSome_iff_eq_none.mp h, Option.map_none]
    · rfl

omit [DecidableEq κ] in
/-- Two maps have the same values on a set of keys. -/
def AgreeOn (S : κ → Prop) (f g : PartialMap κ ν) : Prop := ∀ k, S k → f k = g k

variable {S : κ → Prop} {f g : PartialMap κ ν}

theorem AgreeOn.upsert (h : AgreeOn S f g) (k : κ) (v : ν) :
    AgreeOn S (f.upsert k v) (g.upsert k v) := by
  intro k' hk'
  rw [upsert_apply, upsert_apply, h k' hk']

theorem AgreeOn.upsert_left (h : AgreeOn S f g) {k : κ} (hk : ¬S k) (v : ν) :
    AgreeOn S (f.upsert k v) g := by
  intro k' hk'
  rw [upsert_apply, if_neg fun he : k' = k => hk (he ▸ hk'), h k' hk']

theorem AgreeOn.replace (h : AgreeOn S f g) {k : κ} (hk : S k) (v : ν) :
    AgreeOn S (f.replace k v) (g.replace k v) := by
  intro k' hk'
  rw [replace_apply, replace_apply, h k' hk', h k hk]

theorem AgreeOn.replace_left (h : AgreeOn S f g) {k : κ} (hk : ¬S k) (v : ν) :
    AgreeOn S (f.replace k v) g := by
  intro k' hk'
  rw [replace_apply, if_neg fun he : k' = k => hk (he ▸ hk'), h k' hk']

/-! ### Related values -/

omit [DecidableEq κ] in
/-- Two maps have the same keys, with related values. -/
def Rel (r : ν → ν → Prop) (f g : PartialMap κ ν) : Prop := ∀ k, Option.Rel r (f k) (g k)

variable {r : ν → ν → Prop}

omit [DecidableEq κ] in
theorem Rel.isSome_eq (h : Rel r f g) (k : κ) : (f k).isSome = (g k).isSome := by
  have hk := h k
  generalize f k = v, g k = w at hk
  cases hk <;> rfl

omit [DecidableEq κ] in
theorem Rel.refl (hr : ∀ v, r v v) (f : PartialMap κ ν) : Rel r f f := by
  intro k
  cases f k with
  | none => exact .none
  | some v => exact .some (hr v)

theorem Rel.upsert (h : Rel r f g) (k : κ) {v w : ν} (hvw : r v w) :
    Rel r (f.upsert k v) (g.upsert k w) := by
  intro k'
  rw [upsert_apply, upsert_apply]
  split_ifs
  · exact .some hvw
  · exact h k'

theorem Rel.insertNew (h : Rel r f g) (k : κ) {v w : ν} (hvw : r v w) :
    Rel r (f.insertNew k v) (g.insertNew k w) := by
  unfold PartialMap.insertNew
  rw [h.isSome_eq k]
  split_ifs
  · exact h
  · exact h.upsert k hvw

theorem Rel.replace (h : Rel r f g) (k : κ) {v w : ν} (hvw : r v w) :
    Rel r (f.replace k v) (g.replace k w) := by
  unfold PartialMap.replace
  rw [h.isSome_eq k]
  split_ifs
  · exact h.upsert k hvw
  · exact h

end PartialMap
