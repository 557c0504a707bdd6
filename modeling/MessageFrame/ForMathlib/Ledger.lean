import Mathlib.Data.List.Range
import Mathlib.Data.List.Perm.Basic

/-!
# A ledger of resources

Resources are numbered in the order in which they are acquired. A resource is *held* in some
slot of a table until it is released, and `Balanced` says that every resource acquired so far is
accounted for exactly once: held in one slot, or released once. Acquiring and releasing keep
the balance (`Balanced.acquire`, `Balanced.release`), whatever else the slots contain.
-/

open scoped List

namespace Ledger

variable {α : Type}

/-- The resources held in the slots of a table, where `owns` says what one slot holds. -/
def held (owns : α → List ℕ) (slots : List α) : List ℕ := slots.flatMap owns

/-- Every resource acquired is held once or has been released once. -/
def Balanced (held released : List ℕ) (acquired : ℕ) : Prop :=
  (held ++ released).Perm (List.range acquired)

/-- Replacing a slot exchanges what it holds. -/
theorem held_set_perm (owns : α → List ℕ) {slots : List α} {i : ℕ} {a : α}
    (h : slots[i]? = some a) (b : α) :
    (owns a ++ held owns (slots.set i b)).Perm (owns b ++ held owns slots) := by
  induction slots generalizing i with
  | nil => cases h
  | cons c slots ih =>
    cases i with
    | zero =>
      obtain rfl : c = a := by simpa using h
      simp only [held, List.set_cons_zero, List.flatMap_cons]
      exact List.perm_append_comm_assoc _ _ _
    | succ i =>
      have hrest := ih (i := i) (by simpa using h)
      simp only [held, List.set_cons_succ, List.flatMap_cons] at hrest ⊢
      calc owns a ++ (owns c ++ (slots.set i b).flatMap owns)
          ~ owns c ++ (owns a ++ (slots.set i b).flatMap owns) :=
            List.perm_append_comm_assoc _ _ _
        _ ~ owns c ++ (owns b ++ slots.flatMap owns) := hrest.append_left _
        _ ~ owns b ++ (owns c ++ slots.flatMap owns) := List.perm_append_comm_assoc _ _ _

/-- A slot that holds the same as before changes nothing. -/
theorem held_set_perm_of_eq (owns : α → List ℕ) {slots : List α} {i : ℕ} {a b : α}
    (h : slots[i]? = some a) (hab : owns b = owns a) :
    (held owns (slots.set i b)).Perm (held owns slots) := by
  have hswap := held_set_perm owns h b
  rwa [hab, List.perm_append_left_iff] at hswap

theorem held_append_of_eq_nil (owns : α → List ℕ) (slots : List α) {b : α} (hb : owns b = []) :
    held owns (slots ++ [b]) = held owns slots := by
  simp [held, hb]

theorem mem_held (owns : α → List ℕ) {slots : List α} {i : ℕ} {a : α} (h : slots[i]? = some a)
    {id : ℕ} (hid : id ∈ owns a) : id ∈ held owns slots :=
  List.mem_flatMap.mpr ⟨a, List.mem_of_getElem? h, hid⟩

variable {slots released : List ℕ} {acquired : ℕ}

theorem Balanced.congr {slots' : List ℕ} (h : Balanced slots released acquired)
    (hperm : slots'.Perm slots) : Balanced slots' released acquired :=
  (hperm.append_right _).trans h

/-- **Acquiring** the next resource and holding it. -/
theorem Balanced.acquire (h : Balanced slots released acquired) :
    Balanced (acquired :: slots) released (acquired + 1) := by
  unfold Balanced
  rw [List.range_succ, List.cons_append]
  exact (h.cons _).trans (List.perm_append_singleton _ _).symm

/-- **Releasing** a resource that is held. -/
theorem Balanced.release {id : ℕ} (h : Balanced (id :: slots) released acquired) :
    Balanced slots (id :: released) acquired :=
  List.perm_middle.trans h

/-- A resource that is held has been acquired and has not been released. -/
theorem Balanced.of_mem (h : Balanced slots released acquired) {id : ℕ} (hid : id ∈ slots) :
    id < acquired ∧ id ∉ released := by
  have hnd : (slots ++ released).Nodup := h.nodup_iff.mpr List.nodup_range
  refine ⟨List.mem_range.mp (h.subset (List.mem_append_left _ hid)), fun hrel => ?_⟩
  exact (List.nodup_append.mp hnd).2.2 id hid id hrel rfl

/-- **Conservation.** A resource is held once, or it has been released once. -/
theorem Balanced.count_eq_one (h : Balanced slots released acquired) {id : ℕ}
    (hid : id < acquired) : slots.count id + released.count id = 1 := by
  rw [← List.count_append, h.count_eq id, List.count_range, if_pos hid]

end Ledger
