import Mathlib.Data.List.Basic
import MessageFrame.ForMathlib.Proc

/-!
# Objects with move semantics

A program that owns several objects of one class, constructs them, calls their members and
moves them into one another, is a run over a *store*: the list of the objects that are alive.
Each cell carries a ghost flag that says whether the object has been moved from and not been
assigned to since. A run ends where an action has undefined behaviour; a call that throws
leaves the object in the state it had reached, and the run goes on.

`run_forall` is the rule for invariants of all cells. What the flag promises may differ from
cell to cell, so the invariant speaks of cells, not of objects; and since a move may be sound
from some sources only, it comes with a condition on the sources of moves (`Sources`).
-/

/-- A class: construction from `γ`, member functions `κ` with results in `ρ`, and the two move
operations, which give the target and the source afterwards. The first argument of
`moveAssign` is the result of the self-assignment test. -/
structure ObjectType (γ σ κ ρ : Type) where
  construct : γ → σ
  exec : κ → Proc σ ρ
  moveConstruct : σ → σ × σ
  moveAssign : Bool → σ → σ → σ × σ

namespace ObjectType

variable {γ σ κ ρ : Type}

/-- An object that is alive. -/
structure Cell (σ : Type) where
  value : σ
  movedFrom : Bool

/-- The actions of the program; objects are addressed by their position in the store. -/
inductive Action (γ κ : Type) where
  | construct (arg : γ)
  | call (i : ℕ) (c : κ)
  | moveConstruct (source : ℕ)
  | moveAssign (target source : ℕ)

variable (T : ObjectType γ σ κ ρ)

/-- One action. -/
def step : Action γ κ → List (Cell σ) → Checked (List (Cell σ))
  | .construct arg, s => .ok (s ++ [⟨T.construct arg, false⟩])
  | .call i c, s => do
    let cell ← Checked.at s i
    match T.exec c cell.value with
    | .returned _ v => .ok (s.set i { cell with value := v })
    | .threw v => .ok (s.set i { cell with value := v })
    | .undefined e => .error e
  | .moveConstruct source, s => do
    let cell ← Checked.at s source
    let p := T.moveConstruct cell.value
    .ok (s.set source ⟨p.2, true⟩ ++ [⟨p.1, false⟩])
  | .moveAssign target source, s => do
    let this ← Checked.at s target
    let other ← Checked.at s source
    let p := T.moveAssign (decide (target = source)) this.value other.value
    if target = source then .ok (s.set target { this with value := p.1 })
    else .ok ((s.set source ⟨p.2, true⟩).set target ⟨p.1, false⟩)

/-- A sequence of actions. -/
def run : List (Action γ κ) → List (Cell σ) → Checked (List (Cell σ))
  | [], s => .ok s
  | a :: as, s => T.step a s >>= run as

/-- The object that an action moves from, if it moves between two objects, satisfies `A`. -/
def SourceIs (A : σ → Prop) (a : Action γ κ) (s : List (Cell σ)) : Prop :=
  match a with
  | .moveConstruct source => ∀ cell, s[source]? = some cell → A cell.value
  | .moveAssign target source =>
    target ≠ source → ∀ cell, s[source]? = some cell → A cell.value
  | _ => True

/-- Every move of the run is from an object that satisfies `A`. -/
def Sources (A : σ → Prop) : List (Action γ κ) → List (Cell σ) → Prop
  | [], _ => True
  | a :: as, s => SourceIs A a s ∧ ∀ s', T.step a s = .ok s' → Sources A as s'

theorem checkedAt_eq_ok {α : Type} {l : List α} {i : ℕ} {a : α} :
    Checked.at l i = .ok a ↔ l[i]? = some a := by
  unfold Checked.at
  cases l[i]? <;> simp

variable {T}

section Invariant

variable {I : Cell σ → Prop} {A : σ → Prop}

private theorem forall_mem_set {s : List (Cell σ)} (hs : ∀ cell ∈ s, I cell) (i : ℕ)
    {cell : Cell σ} (hcell : I cell) : ∀ c ∈ s.set i cell, I c := by
  intro c hc
  rcases List.mem_or_eq_of_mem_set hc with hmem | rfl
  · exact hs c hmem
  · exact hcell

/-- What one action preserves. -/
theorem step_forall (hconstruct : ∀ arg, I ⟨T.construct arg, false⟩)
    (hcall : ∀ c cell v, I cell →
      ((∃ r, T.exec c cell.value = .returned r v) ∨ T.exec c cell.value = .threw v) →
      I { cell with value := v })
    (hmove : ∀ cell, I cell → A cell.value →
      I ⟨(T.moveConstruct cell.value).1, false⟩ ∧ I ⟨(T.moveConstruct cell.value).2, true⟩)
    (hassign : ∀ this other, I this → I other → A other.value →
      I ⟨(T.moveAssign false this.value other.value).1, false⟩ ∧
        I ⟨(T.moveAssign false this.value other.value).2, true⟩)
    (hself : ∀ cell, I cell → I { cell with value := (T.moveAssign true cell.value cell.value).1 })
    {a : Action γ κ} {s s' : List (Cell σ)} (hsource : SourceIs A a s)
    (hstep : T.step a s = .ok s') (hs : ∀ cell ∈ s, I cell) : ∀ cell ∈ s', I cell := by
  cases a with
  | construct arg =>
    cases hstep
    intro cell hcell
    rcases List.mem_append.mp hcell with hmem | hnew
    · exact hs cell hmem
    · rw [List.mem_singleton.mp hnew]
      exact hconstruct arg
  | call i c =>
    cases hat : Checked.at s i with
    | error e => simp [step, hat, bind, Except.bind] at hstep
    | ok cell =>
      have hcell : I cell := hs cell (List.mem_of_getElem? (checkedAt_eq_ok.mp hat))
      simp only [step, hat, bind, Except.bind] at hstep
      cases hexec : T.exec c cell.value with
      | returned r v =>
        rw [hexec] at hstep
        cases hstep
        exact forall_mem_set hs i (hcall c cell v hcell (.inl ⟨r, hexec⟩))
      | threw v =>
        rw [hexec] at hstep
        cases hstep
        exact forall_mem_set hs i (hcall c cell v hcell (.inr hexec))
      | undefined e => simp [hexec] at hstep
  | moveConstruct source =>
    cases hat : Checked.at s source with
    | error e => simp [step, hat, bind, Except.bind] at hstep
    | ok cell =>
      have hget := checkedAt_eq_ok.mp hat
      have hcell : I cell := hs cell (List.mem_of_getElem? hget)
      obtain ⟨hnew, hold⟩ := hmove cell hcell (hsource cell hget)
      simp only [step, hat, bind, Except.bind] at hstep
      cases hstep
      intro c hc
      rcases List.mem_append.mp hc with hmem | hlast
      · exact forall_mem_set hs source hold c hmem
      · rw [List.mem_singleton.mp hlast]
        exact hnew
  | moveAssign target source =>
    cases hthis : Checked.at s target with
    | error e => simp [step, hthis, bind, Except.bind] at hstep
    | ok this =>
      cases hother : Checked.at s source with
      | error e => simp [step, hthis, hother, bind, Except.bind] at hstep
      | ok other =>
        have hgetThis := checkedAt_eq_ok.mp hthis
        have hgetOther := checkedAt_eq_ok.mp hother
        have hIthis : I this := hs this (List.mem_of_getElem? hgetThis)
        have hIother : I other := hs other (List.mem_of_getElem? hgetOther)
        simp only [step, hthis, hother, bind, Except.bind] at hstep
        by_cases hsame : target = source
        · subst hsame
          obtain rfl : this = other := Option.some.inj (hgetThis.symm.trans hgetOther)
          rw [if_pos rfl, decide_eq_true rfl] at hstep
          cases hstep
          exact forall_mem_set hs target (hself this hIthis)
        · obtain ⟨hnew, hold⟩ := hassign this other hIthis hIother (hsource hsame other hgetOther)
          rw [if_neg hsame, decide_eq_false hsame] at hstep
          cases hstep
          exact forall_mem_set (forall_mem_set hs source hold) target hnew

/-- **Invariants of all objects.** What construction establishes, member functions keep, and
moves from allowed sources keep on both sides, holds of every object in every reached store. -/
theorem run_forall (hconstruct : ∀ arg, I ⟨T.construct arg, false⟩)
    (hcall : ∀ c cell v, I cell →
      ((∃ r, T.exec c cell.value = .returned r v) ∨ T.exec c cell.value = .threw v) →
      I { cell with value := v })
    (hmove : ∀ cell, I cell → A cell.value →
      I ⟨(T.moveConstruct cell.value).1, false⟩ ∧ I ⟨(T.moveConstruct cell.value).2, true⟩)
    (hassign : ∀ this other, I this → I other → A other.value →
      I ⟨(T.moveAssign false this.value other.value).1, false⟩ ∧
        I ⟨(T.moveAssign false this.value other.value).2, true⟩)
    (hself : ∀ cell, I cell → I { cell with value := (T.moveAssign true cell.value cell.value).1 })
    {as : List (Action γ κ)} {s s' : List (Cell σ)} (hsources : T.Sources A as s)
    (hrun : T.run as s = .ok s') (hs : ∀ cell ∈ s, I cell) : ∀ cell ∈ s', I cell := by
  induction as generalizing s with
  | nil =>
    cases hrun
    exact hs
  | cons a as ih =>
    cases hstep : T.step a s with
    | error e => simp [run, hstep, bind, Except.bind] at hrun
    | ok s₁ =>
      rw [run, hstep] at hrun
      exact ih (hsources.2 s₁ hstep) hrun
        (step_forall hconstruct hcall hmove hassign hself hsources.1 hstep hs)

end Invariant

end ObjectType
