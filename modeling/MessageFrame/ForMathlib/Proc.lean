import Mathlib.Data.List.Basic

/-!
# Procedures that return, throw or run into undefined behaviour

A member function of a C++ class is read as a `Proc σ α`: started on an object state of type
`σ` it **returns** a value together with the state it leaves, or **throws** — and then the
state reached so far is kept, nothing is rolled back — or runs into **undefined behaviour**,
after which there is no state to speak of. `Proc` is a monad, so a body is written statement
by statement.

Two ways of reasoning are provided: equations (`bind_of_returned` and its companions), for a
body that is executed symbolically, and triples `Proc.Spec` with an exceptional postcondition,
for a loop whose every exit must keep an invariant (`Spec.forEach`).

A loop that converts its elements and stores what they convert to stops at the first element
that has no conversion, with the ones before it stored: `forEach_converts` gives its outcome in
terms of the elements alone (`converted`, `converts`).

An invariant that holds as long as there is no undefined behaviour is `Proc.Keeps`; it composes
without any knowledge of the states in between.

Sequences of calls are `Proc.execAll`. A call that throws does not end the sequence — the
caller catches and goes on — but undefined behaviour does. `execAll_simulates` transfers a
one-call simulation by a deterministic abstract machine to whole sequences,
`execAll_invariant` does the same for an invariant, and `execAll_of_along` for an invariant
that needs a condition on every call (`Proc.Along`).
-/

/-- The undefined behaviours that are told apart. -/
inductive Fault where
  /-- A null pointer is dereferenced. -/
  | nullDereference
  /-- An element outside an array is accessed. -/
  | outOfBounds
  /-- An object is used before its lifetime has begun or after it has ended. -/
  | notAlive
  /-- The storage of a live object is reused without destroying it. -/
  | overwritten
  deriving DecidableEq, Repr

/-- The value of an expression without side effects, unless evaluating it is undefined. -/
abbrev Checked (α : Type) := Except Fault α

/-- An array access `l[i]`. -/
def Checked.at {α : Type} (l : List α) (i : ℕ) : Checked α :=
  match l[i]? with
  | some a => .ok a
  | none => .error .outOfBounds

@[simp] theorem Checked.at_zero {α : Type} (a : α) (l : List α) :
    Checked.at (a :: l) 0 = .ok a := rfl

@[simp] theorem Checked.at_succ {α : Type} (a : α) (l : List α) (i : ℕ) :
    Checked.at (a :: l) (i + 1) = Checked.at l i := rfl

/-- `std::find_if`: the position of the first element that satisfies the predicate. -/
def Checked.findIf {α : Type} (p : α → Checked Bool) : List α → Checked (Option ℕ)
  | [] => .ok none
  | a :: as => do
    if ← p a then pure (some 0)
    else
      let i ← Checked.findIf p as
      pure (i.map (· + 1))

/-- A search with a predicate that is always defined is `List.findIdx?`. -/
theorem Checked.findIf_eq {α : Type} {p : α → Checked Bool} {q : α → Bool}
    (h : ∀ a, p a = .ok (q a)) (l : List α) : Checked.findIf p l = .ok (l.findIdx? q) := by
  induction l with
  | nil => rfl
  | cons a l ih =>
    rw [Checked.findIf, h a, ih, List.findIdx?_cons]
    cases q a <;> rfl

/-- How control leaves a call. -/
inductive Outcome (σ α : Type) where
  | returned (value : α) (state : σ)
  | threw (state : σ)
  | undefined (fault : Fault)
  deriving DecidableEq, Repr

/-- A procedure on an object of type `σ` with result type `α`. -/
def Proc (σ α : Type) : Type := σ → Outcome σ α

namespace Proc

variable {σ τ α β κ ρ : Type}

protected def pure (a : α) : Proc σ α := fun s => .returned a s

protected def bind (x : Proc σ α) (f : α → Proc σ β) : Proc σ β := fun s =>
  match x s with
  | .returned a s' => f a s'
  | .threw s' => .threw s'
  | .undefined e => .undefined e

instance : Monad (Proc σ) where
  pure := Proc.pure
  bind := Proc.bind

/-- Read the object. -/
def get : Proc σ σ := fun s => .returned s s

/-- Assign to members of the object. -/
def modify (f : σ → σ) : Proc σ Unit := fun s => .returned () (f s)

/-- Throw an exception; the object keeps the state reached so far. -/
def throw : Proc σ α := fun s => .threw s

/-- Evaluate an expression that may be undefined. -/
def eval (x : Checked α) : Proc σ α := fun s =>
  match x with
  | .ok a => .returned a s
  | .error e => .undefined e

/-- The value of a call that throws when it has none. -/
def orThrow : Option α → Proc σ α
  | some a => Proc.pure a
  | none => throw

/-- Run a procedure on a member of the object. -/
def onField (read : σ → τ) (write : σ → τ → σ) (x : Proc τ α) : Proc σ α := fun s =>
  match x (read s) with
  | .returned a t => .returned a (write s t)
  | .threw t => .threw (write s t)
  | .undefined e => .undefined e

/-- `try { body } catch (const std::exception&) { handler }`. -/
def tryCatch (body handler : Proc σ α) : Proc σ α := fun s =>
  match body s with
  | .threw s' => handler s'
  | out => out

/-- A range-based `for` loop. -/
def forEach (body : α → Proc σ Unit) : List α → Proc σ Unit
  | [] => Proc.pure ()
  | a :: as => body a >>= fun _ => forEach body as

/-! ### Symbolic execution -/

@[simp] theorem pure_apply (a : α) (s : σ) : (pure a : Proc σ α) s = .returned a s := rfl

@[simp] theorem get_apply (s : σ) : get s = .returned s s := rfl

@[simp] theorem modify_apply (f : σ → σ) (s : σ) : modify f s = .returned () (f s) := rfl

@[simp] theorem throw_apply (s : σ) : (throw : Proc σ α) s = .threw s := rfl

@[simp] theorem eval_ok (a : α) (s : σ) : eval (.ok a) s = .returned a s := rfl

@[simp] theorem eval_error (e : Fault) (s : σ) :
    (eval (.error e) : Proc σ α) s = .undefined e := rfl

@[simp] theorem orThrow_some (a : α) (s : σ) : orThrow (some a) s = .returned a s := rfl

@[simp] theorem orThrow_none (s : σ) : (orThrow none : Proc σ α) s = .threw s := rfl

theorem bind_apply (x : Proc σ α) (f : α → Proc σ β) (s : σ) :
    (x >>= f) s = match x s with
      | .returned a s' => f a s'
      | .threw s' => .threw s'
      | .undefined e => .undefined e := rfl

/-- Execute the first statement of a block. -/
theorem bind_of_returned {x : Proc σ α} {s s' : σ} {a : α} (h : x s = .returned a s')
    (f : α → Proc σ β) : (x >>= f) s = f a s' := by
  rw [bind_apply, h]

theorem bind_of_threw {x : Proc σ α} {s s' : σ} (h : x s = .threw s') (f : α → Proc σ β) :
    (x >>= f) s = .threw s' := by
  rw [bind_apply, h]

@[simp] theorem get_bind (f : σ → Proc σ β) (s : σ) : (get >>= f) s = f s s := rfl

@[simp] theorem modify_bind (g : σ → σ) (f : Unit → Proc σ β) (s : σ) :
    (modify g >>= f) s = f () (g s) := rfl

@[simp] theorem pure_bind_apply (a : α) (f : α → Proc σ β) (s : σ) :
    ((pure a : Proc σ α) >>= f) s = f a s := rfl

@[simp] theorem throw_bind (f : α → Proc σ β) (s : σ) :
    ((throw : Proc σ α) >>= f) s = .threw s := rfl

@[simp] theorem eval_ok_bind (a : α) (f : α → Proc σ β) (s : σ) :
    (eval (.ok a) >>= f) s = f a s := rfl

@[simp] theorem eval_error_bind (e : Fault) (f : α → Proc σ β) (s : σ) :
    ((eval (.error e) : Proc σ α) >>= f) s = .undefined e := rfl

@[simp] theorem orThrow_some_bind (a : α) (f : α → Proc σ β) (s : σ) :
    (orThrow (some a) >>= f) s = f a s := rfl

@[simp] theorem orThrow_none_bind (f : α → Proc σ β) (s : σ) :
    ((orThrow none : Proc σ α) >>= f) s = .threw s := rfl

/-- A block inside a block. -/
theorem bind_block {γ : Type} (x : Proc σ α) (f : α → Proc σ β) (g : β → Proc σ γ) :
    ((x >>= f) >>= g) = x >>= fun a => f a >>= g := by
  funext s
  simp only [bind_apply]
  cases x s <;> rfl

theorem onField_of_returned {read : σ → τ} {write : σ → τ → σ} {x : Proc τ α} {s : σ} {t : τ}
    {a : α} (h : x (read s) = .returned a t) :
    onField read write x s = .returned a (write s t) := by
  rw [onField, h]

theorem onField_of_threw {read : σ → τ} {write : σ → τ → σ} {x : Proc τ α} {s : σ} {t : τ}
    (h : x (read s) = .threw t) : onField read write x s = .threw (write s t) := by
  rw [onField, h]

theorem tryCatch_of_returned {body : Proc σ α} {s s' : σ} {a : α} (h : body s = .returned a s')
    (handler : Proc σ α) : tryCatch body handler s = .returned a s' := by
  rw [tryCatch, h]

theorem tryCatch_of_threw {body : Proc σ α} {s s' : σ} (h : body s = .threw s')
    (handler : Proc σ α) : tryCatch body handler s = handler s' := by
  rw [tryCatch, h]

@[simp] theorem forEach_nil (body : α → Proc σ Unit) (s : σ) :
    forEach body [] s = .returned () s := rfl

theorem forEach_cons (body : α → Proc σ Unit) (a : α) (as : List α) :
    forEach body (a :: as) = body a >>= fun _ => forEach body as := rfl

/-- A loop over the images of a list. -/
theorem forEach_map (body : β → Proc σ Unit) (g : α → β) (as : List α) :
    forEach body (as.map g) = forEach (fun a => body (g a)) as := by
  induction as with
  | nil => rfl
  | cons a as ih => rw [List.map_cons, forEach_cons, forEach_cons, ih]

/-- A loop over two lists, one after the other. -/
theorem forEach_append (body : α → Proc σ Unit) (as bs : List α) :
    forEach body (as ++ bs) = forEach body as >>= fun _ => forEach body bs := by
  induction as with
  | nil => rfl
  | cons a as ih => rw [List.cons_append, forEach_cons, forEach_cons, ih, bind_block]

/-- The end of a loop adds nothing to its last round. -/
theorem bind_forEach_nil (x : Proc σ Unit) (body : α → Proc σ Unit) :
    (x >>= fun _ => forEach body []) = x := by
  funext s
  rw [bind_apply]
  cases x s <;> rfl

/-! ### Loops that convert their elements -/

/-- What the elements of a list convert to, up to the first that has no conversion. -/
def converted (f : α → Option β) : List α → List β
  | [] => []
  | a :: as =>
    match f a with
    | some b => b :: converted f as
    | none => []

/-- All elements of the list have a conversion. -/
def converts (f : α → Option β) (as : List α) : Bool := as.all fun a => (f a).isSome

/-- **Conversion loop.** A body that throws when its element has no conversion and otherwise
does `step` with it: the loop does `step` with what converts, and throws unless all does. -/
theorem forEach_converts {f : α → Option β} {x : α → Proc σ Unit} (st : τ → σ)
    (step : τ → β → τ)
    (hsome : ∀ a b t, f a = some b → x a (st t) = .returned () (st (step t b)))
    (hnone : ∀ a t, f a = none → x a (st t) = .threw (st t)) (as : List α) (t : τ) :
    forEach x as (st t) =
      if converts f as then .returned () (st ((converted f as).foldl step t))
      else .threw (st ((converted f as).foldl step t)) := by
  induction as generalizing t with
  | nil => rfl
  | cons a as ih =>
    rw [forEach_cons]
    cases hfa : f a with
    | none =>
      -- the loop ends here, with the elements before this one stored
      rw [bind_of_threw (hnone a t hfa)]
      simp [converts, converted, hfa]
    | some b =>
      rw [bind_of_returned (hsome a b t hfa), ih]
      simp [converts, converted, hfa]

/-- A list all of whose elements convert. -/
theorem converted_of_forall₂ {f : α → Option β} {as : List α} {bs : List β}
    (h : List.Forall₂ (fun a b => f a = some b) as bs) :
    converts f as = true ∧ converted f as = bs := by
  induction h with
  | nil => exact ⟨rfl, rfl⟩
  | cons hab _ ih => simpa [converts, converted, hab] using ih

theorem length_converted_le (f : α → Option β) (as : List α) :
    (converted f as).length ≤ as.length := by
  induction as with
  | nil => exact Nat.le_refl _
  | cons a as ih =>
    rw [converted]
    cases f a with
    | none => exact Nat.zero_le _
    | some b => exact Nat.succ_le_succ ih

/-! ### Procedures that never return -/

/-- From no state does the procedure return. -/
def NeverReturns (x : Proc σ α) : Prop := ∀ s a s', x s ≠ .returned a s'

theorem NeverReturns.throw : NeverReturns (Proc.throw : Proc σ α) := by
  intro s a s' h
  cases h

/-- A block whose first statement never returns. -/
theorem NeverReturns.bind {x : Proc σ α} (hx : NeverReturns x) (f : α → Proc σ β) :
    NeverReturns (x >>= f) := by
  intro s b s' h
  rw [bind_apply] at h
  cases hxs : x s with
  | returned a t => exact hx s a t hxs
  | threw t =>
    rw [hxs] at h
    cases h
  | undefined e =>
    rw [hxs] at h
    cases h

/-- A block whose rest never returns. -/
theorem NeverReturns.of_rest (x : Proc σ α) {f : α → Proc σ β} (hf : ∀ a, NeverReturns (f a)) :
    NeverReturns (x >>= f) := by
  intro s b s' h
  rw [bind_apply] at h
  cases hxs : x s with
  | returned a t =>
    rw [hxs] at h
    exact hf a t b s' h
  | threw t =>
    rw [hxs] at h
    cases h
  | undefined e =>
    rw [hxs] at h
    cases h

/-- A loop with a round that never returns. -/
theorem NeverReturns.forEach {body : α → Proc σ Unit} {as : List α} {a : α} (ha : a ∈ as)
    (hbody : NeverReturns (body a)) : NeverReturns (Proc.forEach body as) := by
  induction as with
  | nil => exact absurd ha List.not_mem_nil
  | cons b as ih =>
    rw [forEach_cons]
    rcases List.mem_cons.mp ha with rfl | ha
    · exact hbody.bind _
    · exact .of_rest _ fun _ => ih ha

/-! ### Triples with an exceptional postcondition -/

/-- From a state in `P`, the procedure has no undefined behaviour, returns in `Q` and throws
only in `E`. -/
def Spec (P : σ → Prop) (x : Proc σ α) (Q : α → σ → Prop) (E : σ → Prop) : Prop :=
  ∀ s, P s → match x s with
    | .returned a s' => Q a s'
    | .threw s' => E s'
    | .undefined _ => False

theorem Spec.returned {P : σ → Prop} {x : Proc σ α} {Q : α → σ → Prop} {E : σ → Prop}
    (h : Spec P x Q E) {s s' : σ} {a : α} (hs : P s) (hx : x s = .returned a s') : Q a s' := by
  simpa only [hx] using h s hs

theorem Spec.threw {P : σ → Prop} {x : Proc σ α} {Q : α → σ → Prop} {E : σ → Prop}
    (h : Spec P x Q E) {s s' : σ} (hs : P s) (hx : x s = .threw s') : E s' := by
  simpa only [hx] using h s hs

theorem Spec.ne_undefined {P : σ → Prop} {x : Proc σ α} {Q : α → σ → Prop} {E : σ → Prop}
    (h : Spec P x Q E) {s : σ} (hs : P s) (e : Fault) : x s ≠ .undefined e := by
  intro hx
  simpa only [hx] using h s hs

theorem Spec.of_returned {P : σ → Prop} {x : Proc σ α} {Q : α → σ → Prop} {E : σ → Prop}
    (h : ∀ s, P s → ∃ a s', x s = .returned a s' ∧ Q a s') : Spec P x Q E := by
  intro s hs
  obtain ⟨a, s', hx, hQ⟩ := h s hs
  simpa only [hx] using hQ

theorem Spec.bind {P : σ → Prop} {x : Proc σ α} {R : α → σ → Prop} {f : α → Proc σ β}
    {Q : β → σ → Prop} {E : σ → Prop} (hx : Spec P x R E) (hf : ∀ a, Spec (R a) (f a) Q E) :
    Spec P (x >>= f) Q E := by
  intro s hs
  have h := hx s hs
  rw [bind_apply]
  cases hxs : x s with
  | returned a s' =>
    rw [hxs] at h
    exact hf a s' h
  | threw s' => simpa only [hxs] using h
  | undefined e => simp only [hxs] at h

theorem Spec.orThrow {P : σ → Prop} {Q : α → σ → Prop} {E : σ → Prop} (x : Option α)
    (hsome : ∀ a, x = some a → ∀ s, P s → Q a s) (hnone : ∀ s, P s → E s) :
    Spec P (Proc.orThrow x) Q E := by
  intro s hs
  cases x with
  | none => exact hnone s hs
  | some a => exact hsome a rfl s hs

theorem Spec.mono {P : σ → Prop} {x : Proc σ α} {Q Q' : α → σ → Prop} {E E' : σ → Prop}
    (h : Spec P x Q E) (hQ : ∀ a s, Q a s → Q' a s) (hE : ∀ s, E s → E' s) :
    Spec P x Q' E' := by
  intro s hs
  have hx := h s hs
  cases hxs : x s with
  | returned a s' =>
    rw [hxs] at hx
    exact hQ a s' hx
  | threw s' =>
    rw [hxs] at hx
    exact hE s' hx
  | undefined e => simp only [hxs] at hx

/-- A precondition that does not depend on the state. -/
theorem Spec.of_and {p : Prop} {P : σ → Prop} {x : Proc σ α} {Q : α → σ → Prop} {E : σ → Prop}
    (h : p → Spec P x Q E) : Spec (fun s => p ∧ P s) x Q E :=
  fun s hs => h hs.1 s hs.2

theorem Spec.of_exists {γ : Type} {P : γ → σ → Prop} {x : Proc σ α} {Q : α → σ → Prop}
    {E : σ → Prop} (h : ∀ c, Spec (P c) x Q E) : Spec (fun s => ∃ c, P c s) x Q E :=
  fun s ⟨c, hs⟩ => h c s hs

theorem Spec.tryCatch {P : σ → Prop} {body handler : Proc σ α} {Q : α → σ → Prop}
    {E E' : σ → Prop} (hbody : Spec P body Q E) (hhandler : Spec E handler Q E') :
    Spec P (Proc.tryCatch body handler) Q E' := by
  intro s hs
  have h := hbody s hs
  unfold Proc.tryCatch
  cases hxs : body s with
  | returned a s' => simpa only [hxs] using h
  | threw s' =>
    rw [hxs] at h
    exact hhandler s' h
  | undefined e => simp only [hxs] at h

/-- **Loop rule**: an invariant kept by every pass, whether it returns or throws, is kept by
the loop. -/
theorem Spec.forEach {I : σ → Prop} {body : α → Proc σ Unit} (as : List α)
    (h : ∀ a ∈ as, Spec I (body a) (fun _ => I) I) :
    Spec I (Proc.forEach body as) (fun _ => I) I := by
  induction as with
  | nil => exact fun s hs => hs
  | cons a as ih =>
    exact (h a List.mem_cons_self).bind fun _ => ih fun b hb => h b (List.mem_cons_of_mem a hb)

/-- From every state the procedure returns or throws. -/
def Defined (x : Proc σ α) : Prop := Spec (fun _ => True) x (fun _ _ => True) fun _ => True

theorem Defined.ne_undefined {x : Proc σ α} (h : Defined x) (s : σ) (e : Fault) :
    x s ≠ .undefined e := Spec.ne_undefined h trivial e

theorem Defined.modify (f : σ → σ) : Defined (Proc.modify f) := fun _ _ => trivial

theorem Defined.orThrow (x : Option α) : Defined (Proc.orThrow x : Proc σ α) :=
  Spec.orThrow x (fun _ _ _ _ => trivial) fun _ _ => trivial

theorem Defined.bind {x : Proc σ α} {f : α → Proc σ β} (hx : Defined x)
    (hf : ∀ a, Defined (f a)) : Defined (x >>= f) := Spec.bind hx hf

theorem Defined.forEach {body : α → Proc σ Unit} (as : List α) (h : ∀ a, Defined (body a)) :
    Defined (Proc.forEach body as) := Spec.forEach as fun a _ => h a

/-! ### Invariants up to undefined behaviour -/

/-- The state after the call, if there is one, satisfies `I`. -/
def Leaves (I : σ → Prop) : Outcome σ α → Prop
  | .returned _ s => I s
  | .threw s => I s
  | .undefined _ => True

/-- Unless the procedure runs into undefined behaviour, it keeps `I`, whether it returns or
throws. -/
def Keeps (I : σ → Prop) (x : Proc σ α) : Prop := ∀ s, I s → Leaves I (x s)

variable {I : σ → Prop}

theorem Keeps.pure (a : α) : Keeps I (Pure.pure a : Proc σ α) := fun _ hs => hs

theorem Keeps.throw : Keeps I (Proc.throw : Proc σ α) := fun _ hs => hs

theorem Keeps.orThrow (x : Option α) : Keeps I (Proc.orThrow x) := by
  cases x with
  | none => exact Keeps.throw
  | some a => exact Keeps.pure a

theorem Keeps.bind {x : Proc σ α} {f : α → Proc σ β} (hx : Keeps I x) (hf : ∀ a, Keeps I (f a)) :
    Keeps I (x >>= f) := by
  intro s hs
  have h := hx s hs
  rw [bind_apply]
  cases hxs : x s with
  | returned a s' =>
    rw [hxs] at h
    exact hf a s' h
  | threw s' =>
    rw [hxs] at h
    exact h
  | undefined e => trivial

theorem Keeps.tryCatch {body handler : Proc σ α} (hbody : Keeps I body)
    (hhandler : Keeps I handler) : Keeps I (Proc.tryCatch body handler) := by
  intro s hs
  have h := hbody s hs
  unfold Proc.tryCatch
  cases hxs : body s with
  | returned a s' => simpa only [hxs] using h
  | threw s' =>
    rw [hxs] at h
    exact hhandler s' h
  | undefined e => trivial

/-- What is kept up to undefined behaviour may be added to a triple. -/
theorem Spec.and_keeps {P : σ → Prop} {x : Proc σ α} {Q : α → σ → Prop} {E : σ → Prop}
    (h : Spec P x Q E) (hk : Keeps I x) :
    Spec (fun s => P s ∧ I s) x (fun a s => Q a s ∧ I s) (fun s => E s ∧ I s) := by
  intro s ⟨hP, hI⟩
  have hx := h s hP
  have hk := hk s hI
  cases hxs : x s with
  | returned a s' =>
    rw [hxs] at hx hk
    exact ⟨hx, hk⟩
  | threw s' =>
    rw [hxs] at hx hk
    exact ⟨hx, hk⟩
  | undefined e => simp only [hxs] at hx

/-! ### Sequences of calls -/

/-- Execute calls one after another, collecting the replies; the reply of a call that throws
is `none`. -/
def execAll (exec : κ → Proc σ ρ) : List κ → σ → Checked (List (Option ρ) × σ)
  | [], s => .ok ([], s)
  | c :: cs, s =>
    match exec c s with
    | .returned r s' => (execAll exec cs s').map fun p => (some r :: p.1, p.2)
    | .threw s' => (execAll exec cs s').map fun p => (none :: p.1, p.2)
    | .undefined e => .error e

/-- Run a deterministic abstract machine, collecting its replies. -/
def runMachine (step : κ → τ → ρ × τ) : List κ → τ → List ρ × τ
  | [], t => ([], t)
  | c :: cs, t =>
    let p := runMachine step cs (step c t).2
    ((step c t).1 :: p.1, p.2)

/-- **Simulation of a sequence of calls.** If every call, from related states, returns what
the abstract machine replies and leaves related states, the same holds of whole sequences.
The guard `G` is what is known of the calls that are left. -/
theorem execAll_simulates {exec : κ → Proc σ ρ} {step : κ → τ → ρ × τ} {R : σ → τ → Prop}
    {G : τ → List κ → Prop} (hG : ∀ c cs t, G t (c :: cs) → G (step c t).2 cs)
    (hstep : ∀ c cs s t, G t (c :: cs) → R s t →
      ∃ s', exec c s = .returned (step c t).1 s' ∧ R s' (step c t).2) :
    ∀ (cs : List κ) (s : σ) (t : τ), G t cs → R s t →
      ∃ s', execAll exec cs s = .ok ((runMachine step cs t).1.map some, s') ∧
        R s' (runMachine step cs t).2 := by
  intro cs
  induction cs with
  | nil => exact fun s t _ hR => ⟨s, rfl, hR⟩
  | cons c cs ih =>
    intro s t hg hR
    obtain ⟨s₁, hexec, hR₁⟩ := hstep c cs s t hg hR
    obtain ⟨s₂, hall, hR₂⟩ := ih s₁ (step c t).2 (hG c cs t hg) hR₁
    refine ⟨s₂, ?_, hR₂⟩
    simp only [execAll, hexec, hall, runMachine, List.map_cons]
    rfl

/-- One more call that returns. -/
theorem execAll_append_singleton {exec : κ → Proc σ ρ} {cs : List κ} {c : κ}
    {rs : List (Option ρ)} {r : ρ} {s s₁ s' : σ} (hall : execAll exec cs s = .ok (rs, s₁))
    (hc : exec c s₁ = .returned r s') :
    execAll exec (cs ++ [c]) s = .ok (rs ++ [some r], s') := by
  induction cs generalizing s rs with
  | nil =>
    cases hall
    simp only [List.nil_append, execAll, hc]
    rfl
  | cons d ds ih =>
    rw [List.cons_append, execAll]
    rw [execAll] at hall
    cases hd : exec d s with
    | returned q t =>
      simp only [hd] at hall ⊢
      cases hrest : execAll exec ds t with
      | error e =>
        rw [hrest] at hall
        cases hall
      | ok p =>
        rw [hrest] at hall
        cases hall
        rw [ih hrest]
        rfl
    | threw t =>
      simp only [hd] at hall ⊢
      cases hrest : execAll exec ds t with
      | error e =>
        rw [hrest] at hall
        cases hall
      | ok p =>
        rw [hrest] at hall
        cases hall
        rw [ih hrest]
        rfl
    | undefined e =>
      simp only [hd] at hall
      cases hall

/-- **Invariants that follow the calls.** The invariant speaks of a value that every call
changes in a known way. -/
theorem execAll_follows {exec : κ → Proc σ ρ} {J : τ → σ → Prop} {f : τ → κ → τ}
    (h : ∀ c t, Spec (J t) (exec c) (fun _ => J (f t c)) (J (f t c))) (cs : List κ) {s : σ}
    {t : τ} (hs : J t s) : ∃ rs s', execAll exec cs s = .ok (rs, s') ∧ J (cs.foldl f t) s' := by
  induction cs generalizing s t with
  | nil => exact ⟨[], s, rfl, hs⟩
  | cons c cs ih =>
    have hc := h c t s hs
    cases hx : exec c s with
    | returned r s' =>
      rw [hx] at hc
      obtain ⟨rs, s'', hall, hs''⟩ := ih hc
      exact ⟨some r :: rs, s'', by simp only [execAll, hx, hall]; rfl, hs''⟩
    | threw s' =>
      rw [hx] at hc
      obtain ⟨rs, s'', hall, hs''⟩ := ih hc
      exact ⟨none :: rs, s'', by simp only [execAll, hx, hall]; rfl, hs''⟩
    | undefined e => simp only [hx] at hc

/-- **Invariants of a sequence of calls.** -/
theorem execAll_invariant {exec : κ → Proc σ ρ} {I : σ → Prop}
    (h : ∀ c, Spec I (exec c) (fun _ => I) I) (cs : List κ) {s : σ} (hs : I s) :
    ∃ rs s', execAll exec cs s = .ok (rs, s') ∧ I s' :=
  execAll_follows (J := fun (_ : Unit) s => I s) (f := fun t _ => t) (fun c _ => h c) cs
    (t := ()) hs

/-- The call ends, by return or by exception, in the state `s'`. -/
def Leads (x : Proc σ α) (s s' : σ) : Prop := (∃ a, x s = .returned a s') ∨ x s = .threw s'

/-- A triple of one call, read forwards. -/
theorem Spec.exists_leads {P : σ → Prop} {x : Proc σ α} (h : Spec P x (fun _ => I) I) {s : σ}
    (hs : P s) : ∃ s', Leads x s s' ∧ I s' := by
  have hx := h s hs
  cases hxs : x s with
  | returned a s' =>
    rw [hxs] at hx
    exact ⟨s', .inl ⟨a, hxs⟩, hx⟩
  | threw s' =>
    rw [hxs] at hx
    exact ⟨s', .inr hxs, hx⟩
  | undefined e => simp only [hxs] at hx

theorem Spec.of_leads {P : σ → Prop} {x : Proc σ α} (h : Spec P x (fun _ => I) I) {s s' : σ}
    (hs : P s) (hx : Leads x s s') : I s' := by
  rcases hx with ⟨a, hx⟩ | hx
  · exact h.returned hs hx
  · exact h.threw hs hx

theorem Leads.unique {x : Proc σ α} {s s₁ s₂ : σ} (h₁ : Leads x s s₁) (h₂ : Leads x s s₂) :
    s₁ = s₂ := by
  rcases h₁ with ⟨a, h₁⟩ | h₁ <;> rcases h₂ with ⟨b, h₂⟩ | h₂ <;> rw [h₁] at h₂ <;> cases h₂ <;> rfl

private theorem map_reply_eq_ok {x : Checked (List (Option ρ) × σ)} {r : Option ρ} {s' : σ} :
    (∃ rs, (x.map fun p => (r :: p.1, p.2)) = .ok (rs, s')) ↔ ∃ rs, x = .ok (rs, s') := by
  rcases x with e | ⟨rs, t⟩
  · simp [Except.map]
  · simp [Except.map]

/-- One call, and then the rest of the sequence. -/
theorem execAll_cons_iff {exec : κ → Proc σ ρ} {c : κ} {cs : List κ} {s s' : σ} :
    (∃ rs, execAll exec (c :: cs) s = .ok (rs, s')) ↔
      ∃ s₁, Leads (exec c) s s₁ ∧ ∃ rs, execAll exec cs s₁ = .ok (rs, s') := by
  rw [execAll]
  unfold Leads
  cases hexec : exec c s with
  | returned r s₁ => simp [map_reply_eq_ok]
  | threw s₁ => simp [map_reply_eq_ok]
  | undefined e => simp

/-- Every call of the sequence satisfies `P` in the state in which it is executed. -/
def Along (exec : κ → Proc σ ρ) (P : κ → σ → Prop) : List κ → σ → Prop
  | [], _ => True
  | c :: cs, s => P c s ∧ ∀ s', Leads (exec c) s s' → Along exec P cs s'

variable {exec : κ → Proc σ ρ} {P A : κ → σ → Prop}

/-- The beginnings of a sequence inherit the condition. -/
theorem Along.of_isPrefix {calls done : List κ} (hpre : done <+: calls) {s : σ}
    (h : Along exec P calls s) : Along exec P done s := by
  induction calls generalizing done s with
  | nil => rw [List.prefix_nil.mp hpre]; trivial
  | cons c cs ih =>
    cases done with
    | nil => trivial
    | cons d ds =>
      obtain ⟨rfl, hpre'⟩ := List.cons_prefix_cons.mp hpre
      exact ⟨h.1, fun s' hexec => ih hpre' (h.2 s' hexec)⟩

theorem Along.and {cs : List κ} {s : σ} (hA : Along exec A cs s) (hP : Along exec P cs s) :
    Along exec (fun c s => A c s ∧ P c s) cs s := by
  induction cs generalizing s with
  | nil => trivial
  | cons c cs ih => exact ⟨⟨hA.1, hP.1⟩, fun s' hlead => ih (hA.2 s' hlead) (hP.2 s' hlead)⟩

/-- **Conditional invariants of a sequence of calls.** -/
theorem execAll_of_along (h : ∀ c, Spec (fun s => I s ∧ P c s) (exec c) (fun _ => I) I)
    {cs : List κ} {s : σ} (hs : I s) (hrun : Along exec P cs s) :
    ∃ rs s', execAll exec cs s = .ok (rs, s') ∧ I s' := by
  induction cs generalizing s with
  | nil => exact ⟨[], s, rfl, hs⟩
  | cons c cs ih =>
    obtain ⟨s₁, hexec, hs₁⟩ := (h c).exists_leads (s := s) ⟨hs, hrun.1⟩
    obtain ⟨rs, s', hall, hs'⟩ := ih hs₁ (hrun.2 s₁ hexec)
    obtain ⟨rs', hall'⟩ := execAll_cons_iff.mpr ⟨s₁, hexec, rs, hall⟩
    exact ⟨rs', s', hall', hs'⟩

/-- Conditions that agree on every call agree along a run. -/
theorem Along.congr {Q : κ → σ → Prop} (h : ∀ c s, P c s ↔ Q c s) (cs : List κ) (s : σ) :
    Along exec P cs s ↔ Along exec Q cs s := by
  induction cs generalizing s with
  | nil => exact Iff.rfl
  | cons c cs ih => exact and_congr (h c s) (forall_congr' fun s' => imp_congr_right fun _ => ih s')

/-- A run whose first call is known. -/
theorem Along.cons {c : κ} {cs : List κ} {s t : σ} (hc : P c s) (hlead : Leads (exec c) s t)
    (hrest : Along exec P cs t) : Along exec P (c :: cs) s := by
  refine ⟨hc, fun s' hlead' => ?_⟩
  obtain rfl := hlead.unique hlead'
  exact hrest

/-- **Exact conditions.** Suppose that, among the calls that satisfy `A`, those that satisfy `P`
keep the invariant `I`, and that any other leads out of `J`, which follows from `I`. Then a
sequence of such calls stays in `J` all the way exactly if `P` holds along it. -/
theorem along_iff {J : σ → Prop} (hIJ : ∀ s, I s → J s)
    (hA : ∀ c, Spec (fun s => I s ∧ A c s ∧ P c s) (exec c) (fun _ => I) I)
    (hP : ∀ c s s', I s → A c s → Leads (exec c) s s' → J s' → P c s) {cs : List κ} {s : σ}
    (hs : I s) (hrun : Along exec A cs s) :
    (∀ done, done <+: cs → ∃ rs s', execAll exec done s = .ok (rs, s') ∧ J s') ↔
      Along exec P cs s := by
  constructor
  · intro hall
    induction cs generalizing s with
    | nil => trivial
    | cons c cs ih =>
      -- the first call is a run of its own
      obtain ⟨rs, s₁, hone, hs₁⟩ := hall [c] (by simp)
      obtain ⟨s₂, hlead, rs', hnil⟩ := execAll_cons_iff.mp ⟨rs, hone⟩
      obtain rfl : s₂ = s₁ := by cases hnil; rfl
      have hPc := hP c s s₂ hs hrun.1 hlead hs₁
      refine ⟨hPc, fun s' hlead' => ?_⟩
      obtain rfl := hlead.unique hlead'
      refine ih ((hA c).of_leads ⟨hs, hrun.1, hPc⟩ hlead) (hrun.2 s₂ hlead) fun done hdone => ?_
      obtain ⟨rs, t, hdone', ht⟩ := hall (c :: done) (List.cons_prefix_cons.mpr ⟨rfl, hdone⟩)
      obtain ⟨s₃, hlead₃, rs', hrest⟩ := execAll_cons_iff.mp ⟨rs, hdone'⟩
      obtain rfl := hlead.unique hlead₃
      exact ⟨rs', t, hrest, ht⟩
  · intro halong done hdone
    obtain ⟨rs, s', hexec, hs'⟩ := execAll_of_along hA hs ((hrun.and halong).of_isPrefix hdone)
    exact ⟨rs, s', hexec, hIJ s' hs'⟩

end Proc
