import MessageFrame.ForMathlib.Proc

/-!
# Procedures with assertions

A program with assertions is built in two ways. In the one build a failed assertion aborts the
program, and there is nothing left to speak of (`Asserting`); in the other the assertions are not
there, and what is left is a `Proc`.

`runAll_eq_some_iff` compares the two on a sequence of calls: if the assertions of a call amount to
a condition `P` on the call, then the build with assertions does what the other one does exactly as
long as `P` holds along the run of *that one*.
-/

/-- A procedure that may be aborted; `none` is the abort. -/
def Asserting (σ α : Type) : Type := σ → Option (Outcome σ α)

namespace Asserting

variable {σ α β κ ρ : Type}

protected def pure (a : α) : Asserting σ α := fun s => some (.returned a s)

protected def bind (x : Asserting σ α) (f : α → Asserting σ β) : Asserting σ β := fun s =>
  match x s with
  | none => none
  | some (.returned a s') => f a s'
  | some (.threw s') => some (.threw s')
  | some (.undefined e) => some (.undefined e)

instance : Monad (Asserting σ) where
  pure := Asserting.pure
  bind := Asserting.bind

/-- A procedure without assertions. -/
instance : MonadLift (Proc σ) (Asserting σ) where
  monadLift x := fun s => some (x s)

/-- `assert(p)`. -/
def assert (p : Bool) : Asserting σ Unit := fun s => if p then some (.returned () s) else none

/-! ### Symbolic execution -/

@[simp] theorem pure_apply (a : α) (s : σ) : (pure a : Asserting σ α) s = some (.returned a s) :=
  rfl

@[simp] theorem lift_apply (x : Proc σ α) (s : σ) :
    (liftM x : Asserting σ α) s = some (x s) := rfl

theorem bind_apply (x : Asserting σ α) (f : α → Asserting σ β) (s : σ) :
    (x >>= f) s = match x s with
      | none => none
      | some (.returned a s') => f a s'
      | some (.threw s') => some (.threw s')
      | some (.undefined e) => some (.undefined e) := rfl

/-- A first statement without assertions. -/
theorem lift_bind_of_returned {x : Proc σ α} {s s' : σ} {a : α} (h : x s = .returned a s')
    (f : α → Asserting σ β) : ((liftM x : Asserting σ α) >>= f) s = f a s' := by
  rw [bind_apply, lift_apply, h]

@[simp] theorem assert_true_bind (f : Unit → Asserting σ β) (s : σ) :
    ((assert true : Asserting σ Unit) >>= f) s = f () s := rfl

@[simp] theorem assert_false_bind (f : Unit → Asserting σ β) (s : σ) :
    ((assert false : Asserting σ Unit) >>= f) s = none := rfl

/-- The result of a procedure that does not abort is passed on. -/
theorem bind_pure_of_eq_some {x : Asserting σ α} {y : Proc σ α} {s : σ} (h : x s = some (y s))
    (f : α → β) :
    (x >>= fun a => pure (f a)) s = some ((y >>= fun a => (pure (f a) : Proc σ β)) s) := by
  rw [bind_apply, h, Proc.bind_apply]
  cases y s <;> rfl

theorem bind_of_eq_none {x : Asserting σ α} {s : σ} (h : x s = none) (f : α → Asserting σ β) :
    (x >>= f) s = none := by
  rw [bind_apply, h]

/-! ### Sequences of calls -/

/-- Execute calls one after another, until one aborts. -/
def runAll (exec : κ → Asserting σ ρ) : List κ → σ → Option (Checked (List (Option ρ) × σ))
  | [], s => some (.ok ([], s))
  | c :: cs, s =>
    match exec c s with
    | none => none
    | some (.returned r s') => (runAll exec cs s').map fun x => x.map fun p => (some r :: p.1, p.2)
    | some (.threw s') => (runAll exec cs s').map fun x => x.map fun p => (none :: p.1, p.2)
    | some (.undefined e) => some (.error e)

/-- **Two builds of one program.** Suppose that the states satisfy an invariant under which a call
aborts unless `P` holds of it, and otherwise does what the call without assertions does. Then the
run with assertions ends exactly if `P` holds along the run without, and it ends like that one. -/
theorem runAll_eq_some_iff {exec : κ → Asserting σ ρ} {exec' : κ → Proc σ ρ} {I : σ → Prop}
    {P : κ → σ → Prop} (hI : ∀ c s s', I s → Proc.Leads (exec' c) s s' → I s')
    (hsome : ∀ c s, I s → P c s → exec c s = some (exec' c s))
    (hnone : ∀ c s, I s → ¬P c s → exec c s = none) (cs : List κ) {s : σ} (hs : I s)
    (x : Checked (List (Option ρ) × σ)) :
    runAll exec cs s = some x ↔ Proc.Along exec' P cs s ∧ x = Proc.execAll exec' cs s := by
  induction cs generalizing s x with
  | nil => simp [runAll, Proc.execAll, Proc.Along, eq_comm]
  | cons c cs ih =>
    by_cases hP : P c s
    · rw [runAll, Proc.execAll, hsome c s hs hP]
      cases hexec : exec' c s with
      | returned r s' =>
        have hlead : Proc.Leads (exec' c) s s' := .inl ⟨r, hexec⟩
        have halong : Proc.Along exec' P (c :: cs) s ↔ Proc.Along exec' P cs s' :=
          ⟨fun h => h.2 s' hlead, fun h => .cons hP hlead h⟩
        simp only [Option.map_eq_some_iff, ih (hI c s s' hs hlead), halong]
        constructor
        · rintro ⟨y, ⟨h, hy⟩, hx⟩
          exact ⟨h, by rw [← hx, hy]⟩
        · rintro ⟨h, hx⟩
          exact ⟨_, ⟨h, rfl⟩, hx.symm⟩
      | threw s' =>
        have hlead : Proc.Leads (exec' c) s s' := .inr hexec
        have halong : Proc.Along exec' P (c :: cs) s ↔ Proc.Along exec' P cs s' :=
          ⟨fun h => h.2 s' hlead, fun h => .cons hP hlead h⟩
        simp only [Option.map_eq_some_iff, ih (hI c s s' hs hlead), halong]
        constructor
        · rintro ⟨y, ⟨h, hy⟩, hx⟩
          exact ⟨h, by rw [← hx, hy]⟩
        · rintro ⟨h, hx⟩
          exact ⟨_, ⟨h, rfl⟩, hx.symm⟩
      | undefined e =>
        have halong : Proc.Along exec' P (c :: cs) s := by
          refine ⟨hP, fun s' hlead => ?_⟩
          rcases hlead with ⟨r, hr⟩ | hr
          · rw [hexec] at hr
            cases hr
          · rw [hexec] at hr
            cases hr
        simp [halong, eq_comm]
    · rw [runAll, hnone c s hs hP]
      refine iff_of_false (fun h => ?_) fun h => hP h.1.1
      cases h

end Asserting
