import Mathlib.Data.List.Infix
import MessageFrame.ForMathlib.Proc

/-!
# Vectors that grow at their end

A vector owns memory for more elements than it holds. As long as there is room at its end, elements
are appended without an allocation; otherwise new memory is allocated first, which can throw. An
oracle `fails` says which of the attempted allocations do.

`Appended` tells how a procedure ends that appends a list, in one piece or in several. It needs no
allocation exactly if the list fits, and if it throws it has appended a proper beginning of the
list. The rules follow the shape of the code: `insertEnd_appended`, `Appended.bind` and
`Appended.forEach`.
-/

/-- A vector: its elements, the room at its end, and the number of allocations attempted. -/
structure GrowingVector (α : Type) where
  elems : List α := []
  room : ℕ := 0
  attempts : ℕ := 0
  deriving DecidableEq, Repr

namespace GrowingVector

variable {α β : Type}

/-- `capacity`. -/
def capacity (v : GrowingVector α) : ℕ := v.elems.length + v.room

/-- `clear`: the memory is kept. -/
def clear : Proc (GrowingVector α) Unit :=
  Proc.modify fun v => { v with elems := [], room := v.capacity }

variable (fails : ℕ → Bool)

/-- An allocation. -/
def allocate : Proc (GrowingVector α) Unit := do
  let v ← Proc.get
  Proc.modify fun v => { v with attempts := v.attempts + 1 }
  if fails v.attempts then Proc.throw

/-- `reserve(n)`. -/
def reserve (n : ℕ) : Proc (GrowingVector α) Unit := do
  let v ← Proc.get
  if v.capacity < n then
    allocate fails
    Proc.modify fun v => { v with room := n - v.elems.length }

/-- `insert(end(), …)`: the memory at least doubles when there is no room. -/
def insertEnd (l : List α) : Proc (GrowingVector α) Unit := do
  let v ← Proc.get
  if v.room < l.length then
    reserve fails (max (v.elems.length + l.length) (2 * v.elems.length))
  Proc.modify fun v => { v with elems := v.elems ++ l, room := v.room - l.length }

/-! ### Single steps -/

variable {fails}

theorem allocate_of_fails {v : GrowingVector α} (h : fails v.attempts = true) :
    allocate fails v = .threw { v with attempts := v.attempts + 1 } := by
  unfold allocate
  rw [Proc.get_bind, Proc.modify_bind, if_pos h]
  rfl

theorem allocate_of_not_fails {v : GrowingVector α} (h : fails v.attempts = false) :
    allocate fails v = .returned () { v with attempts := v.attempts + 1 } := by
  unfold allocate
  rw [Proc.get_bind, Proc.modify_bind, if_neg (by rw [h]; exact Bool.false_ne_true)]
  rfl

variable (fails)

/-- **One reservation** allocates only if there is no room. -/
theorem reserve_eq (n : ℕ) (v : GrowingVector α) : reserve fails n v =
    if n ≤ v.capacity then .returned () v
    else if fails v.attempts then .threw { v with attempts := v.attempts + 1 }
    else .returned () { v with room := n - v.elems.length, attempts := v.attempts + 1 } := by
  unfold reserve
  rw [Proc.get_bind]
  by_cases hroom : n ≤ v.capacity
  · rw [if_neg (Nat.not_lt.mpr hroom), if_pos hroom]
    rfl
  · rw [if_pos (Nat.lt_of_not_le hroom), if_neg hroom]
    cases hf : fails v.attempts with
    | true => rw [if_pos rfl, Proc.bind_of_threw (allocate_of_fails hf)]
    | false =>
      rw [if_neg Bool.false_ne_true, Proc.bind_of_returned (allocate_of_not_fails hf)]
      rfl

/-! ### Appending -/

/-- How a procedure ends that appends a list. -/
inductive Appended (l : List α) (v : GrowingVector α) : Outcome (GrowingVector α) Unit → Prop
  /-- There was room. -/
  | fitted (hroom : l.length ≤ v.room) :
    Appended l v (.returned () { v with elems := v.elems ++ l, room := v.room - l.length })
  /-- The vector has grown. -/
  | grown {v' : GrowingVector α} (hfull : v.room < l.length) (hcount : v.attempts < v'.attempts)
      (helems : v'.elems = v.elems ++ l) : Appended l v (.returned () v')
  /-- The vector could not grow, and the rest is missing. -/
  | cut {v' : GrowingVector α} (front rest : List α) (hfull : v.room < l.length)
      (hcount : v.attempts < v'.attempts) (hlist : front ++ rest = l) (hrest : rest ≠ [])
      (helems : v'.elems = v.elems ++ front) : Appended l v (.threw v')

/-- **One insertion.** -/
theorem insertEnd_appended (l : List α) (v : GrowingVector α) :
    Appended l v (insertEnd fails l v) := by
  unfold insertEnd
  rw [Proc.get_bind]
  by_cases hroom : l.length ≤ v.room
  · rw [if_neg (Nat.not_lt.mpr hroom)]
    exact .fitted hroom
  · have hfull : v.room < l.length := Nat.lt_of_not_le hroom
    have hmore : ¬max (v.elems.length + l.length) (2 * v.elems.length) ≤ v.capacity := by
      unfold capacity
      omega
    rw [if_pos hfull, Proc.bind_apply, reserve_eq, if_neg hmore]
    cases fails v.attempts with
    | true =>
      have hne : l ≠ [] := by
        rintro rfl
        exact absurd hfull (Nat.not_lt_zero _)
      exact .cut [] l hfull (Nat.lt_succ_self _) rfl hne (List.append_nil _).symm
    | false => exact .grown hfull (Nat.lt_succ_self _) rfl

variable {fails} {l l' : List α} {v : GrowingVector α} {x y : Proc (GrowingVector α) Unit}

theorem Appended.nil (v : GrowingVector α) : Appended [] v (.returned () v) := by
  have h := Appended.fitted (l := []) (v := v) (Nat.zero_le _)
  rwa [List.append_nil, List.length_nil, Nat.sub_zero] at h

/-- What follows an append that has returned. -/
theorem Appended.trans {v₁ : GrowingVector α} {out : Outcome (GrowingVector α) Unit}
    (h : Appended l v (.returned () v₁)) (h' : Appended l' v₁ out) : Appended (l ++ l') v out := by
  have hlen : (l ++ l').length = l.length + l'.length := List.length_append
  cases h with
  | fitted hroom =>
    have hfull : v.room - l.length < l'.length → v.room < (l ++ l').length := by omega
    cases h' with
    | fitted hroom' =>
      have hboth : (l ++ l').length ≤ v.room := by
        rw [hlen]
        exact Nat.add_le_of_le_sub' hroom hroom'
      have h := Appended.fitted hboth
      rwa [← List.append_assoc, hlen, ← Nat.sub_sub] at h
    | grown hfull' hcount helems =>
      exact .grown (hfull hfull') hcount (by rw [helems, List.append_assoc])
    | cut front rest hfull' hcount hlist hrest helems =>
      refine .cut (l ++ front) rest (hfull hfull') hcount ?_ hrest ?_
      · rw [List.append_assoc, hlist]
      · rw [helems, List.append_assoc]
  | grown hfull hcount helems =>
    have hfull' : v.room < (l ++ l').length := by omega
    cases h' with
    | fitted _ => exact .grown hfull' hcount (by rw [helems, List.append_assoc])
    | grown _ hcount' helems' =>
      exact .grown hfull' (hcount.trans hcount') (by rw [helems', helems, List.append_assoc])
    | cut front rest _ hcount' hlist hrest helems' =>
      refine .cut (l ++ front) rest hfull' (hcount.trans hcount') ?_ hrest ?_
      · rw [List.append_assoc, hlist]
      · rw [helems', helems, List.append_assoc]

/-- What would have followed an append that has thrown is missing too. -/
theorem Appended.more {v₁ : GrowingVector α} (h : Appended l v (.threw v₁)) (l' : List α) :
    Appended (l ++ l') v (.threw v₁) := by
  cases h with
  | cut front rest hfull hcount hlist hrest helems =>
    refine .cut front (rest ++ l') ?_ hcount ?_ ?_ helems
    · rw [List.length_append]
      exact Nat.lt_add_right _ hfull
    · rw [← List.append_assoc, hlist]
    · exact fun hnil => hrest (List.append_eq_nil_iff.mp hnil).1

/-- **One list after another.** -/
theorem Appended.bind (hx : Appended l v (x v)) (hy : ∀ v', Appended l' v' (y v')) :
    Appended (l ++ l') v ((x >>= fun _ => y) v) := by
  rw [Proc.bind_apply]
  cases hxv : x v with
  | returned a v₁ =>
    rw [hxv] at hx
    exact hx.trans (hy v₁)
  | threw v₁ =>
    rw [hxv] at hx
    exact hx.more l'
  | undefined e =>
    rw [hxv] at hx
    cases hx

/-- **A loop** appends the lists of its rounds. -/
theorem Appended.forEach {body : β → Proc (GrowingVector α) Unit} {g : β → List α} (bs : List β)
    (h : ∀ b ∈ bs, ∀ v, Appended (g b) v (body b v)) (v : GrowingVector α) :
    Appended (bs.map g).flatten v (Proc.forEach body bs v) := by
  induction bs generalizing v with
  | nil => exact .nil v
  | cons b bs ih =>
    rw [Proc.forEach_cons, List.map_cons, List.flatten_cons]
    exact (h b List.mem_cons_self v).bind fun v' =>
      ih (fun c hc => h c (List.mem_cons_of_mem b hc)) v'

/-! ### Pieces -/

/-- A way to hand over a list in pieces. -/
structure Pieces (α : Type) where
  split : List α → List (List α)
  flatten_split (l : List α) : (split l).flatten = l

/-- A list that is handed over in pieces. -/
def insertPieces (fails : ℕ → Bool) (pieces : Pieces α) (l : List α) :
    Proc (GrowingVector α) Unit := Proc.forEach (insertEnd fails) (pieces.split l)

/-- It makes no difference in how many pieces the list comes. -/
theorem insertPieces_appended (pieces : Pieces α) (l : List α) (v : GrowingVector α) :
    Appended l v (insertPieces fails pieces l v) := by
  have h := Appended.forEach (g := id) (pieces.split l)
    (fun piece _ => insertEnd_appended fails piece) v
  rwa [List.map_id, pieces.flatten_split] at h

end GrowingVector
