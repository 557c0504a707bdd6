import Mathlib.Data.List.ReduceOption
import MessageFrame.ForMathlib.Proc

/-!
# Runs whose calls may fail

More rules for sequences of calls (`Proc.execAll`).

* `execAll_map` renames the calls of a sequence.
* `execAll_completes` is simulation by an abstract machine when calls may throw: a call that throws
  leaves the abstract state alone, so that the machine goes through the calls that returned
  (`completed`) and no others.
* `execAll_simulates_along` is simulation of calls that return under a condition, when the replies
  are not those of the abstract machine but related to them.
* `execAll_replies` follows an invariant and tells how each call may end.
* `execAll_traces` is simulation by an abstract machine that may do one thing or another (`Trace`).
* `execAll_ends` is simulation by an abstract machine that says itself which calls throw, in the
  runs of the machine that it admits (`Admits`).
* `execAll_agrees_iff` and `execAll_defined_iff` give the exact condition under which a run has no
  undefined behaviour.
-/

namespace Proc

variable {σ τ κ κ' ρ : Type}

/-- A sequence of renamed calls. -/
theorem execAll_map {exec : κ' → Proc σ ρ} (f : κ → κ') (cs : List κ) (s : σ) :
    execAll exec (cs.map f) s = execAll (fun c => exec (f c)) cs s := by
  induction cs generalizing s with
  | nil => rfl
  | cons c cs ih => simp only [List.map_cons, execAll, ih]

/-- A condition that always holds. -/
theorem along_of_forall {exec : κ → Proc σ ρ} {A : κ → σ → Prop} (h : ∀ c s, A c s) (cs : List κ)
    (s : σ) : Along exec A cs s := by
  induction cs generalizing s with
  | nil => trivial
  | cons c cs ih => exact ⟨h c s, fun s' _ => ih s'⟩

/-- A run whose first call returns. -/
theorem execAll_cons_returned_iff {exec : κ → Proc σ ρ} {c : κ} {cs : List κ} {s s' : σ} {r : ρ}
    {rs : List (Option ρ)} : execAll exec (c :: cs) s = .ok (some r :: rs, s') ↔
      ∃ s₁, exec c s = .returned r s₁ ∧ execAll exec cs s₁ = .ok (rs, s') := by
  rw [execAll]
  cases exec c s with
  | returned a s₁ =>
    rcases hall : execAll exec cs s₁ with e | ⟨rs', t⟩ <;> simp [hall, Except.map, and_assoc]
  | threw s₁ => rcases hall : execAll exec cs s₁ with e | ⟨rs', t⟩ <;> simp [hall, Except.map]
  | undefined e => simp

/-! ### Invariants up to undefined behaviour -/

theorem Keeps.eval {α : Type} {I : σ → Prop} (x : Checked α) : Keeps I (Proc.eval x) := by
  intro s hs
  cases x with
  | ok a => exact hs
  | error e => trivial

/-- What the first statement establishes and the rest keeps. -/
theorem Leaves.bind {α β : Type} {I : σ → Prop} {x : Proc σ α} {f : α → Proc σ β} {s : σ}
    (hx : Leaves I (x s)) (hf : ∀ a, Keeps I (f a)) : Leaves I ((x >>= f) s) := by
  rw [bind_apply]
  cases hxs : x s with
  | returned a s' =>
    rw [hxs] at hx
    exact hf a s' hx
  | threw s' =>
    rw [hxs] at hx
    exact hx
  | undefined e => trivial

theorem Keeps.forEach {α : Type} {I : σ → Prop} {body : α → Proc σ Unit} (as : List α)
    (h : ∀ a, Keeps I (body a)) : Keeps I (Proc.forEach body as) := by
  induction as with
  | nil => exact Keeps.pure ()
  | cons a as ih => exact (h a).bind fun _ => ih

/-! ### Calls that returned -/

/-- The calls that returned, told by the replies. -/
def completed : List κ → List (Option ρ) → List κ
  | c :: cs, some _ :: rs => c :: completed cs rs
  | _ :: cs, none :: rs => completed cs rs
  | _, _ => []

@[simp] theorem completed_nil (rs : List (Option ρ)) : completed ([] : List κ) rs = [] := rfl

@[simp] theorem completed_some (c : κ) (cs : List κ) (r : ρ) (rs : List (Option ρ)) :
    completed (c :: cs) (some r :: rs) = c :: completed cs rs := rfl

@[simp] theorem completed_none (c : κ) (cs : List κ) (rs : List (Option ρ)) :
    completed (c :: cs) (none :: rs) = completed cs rs := rfl

/-- **Simulation with exceptions.** Suppose that every call that satisfies `A` either does what the
abstract machine does, or throws and still stands for the same abstract state. Then so does a
sequence of such calls: its replies are those of the machine on the calls that returned. -/
theorem execAll_completes {exec : κ → Proc σ ρ} {step : κ → τ → ρ × τ} {R : σ → τ → Prop}
    {A : κ → σ → Prop} (h : ∀ c s t, R s t → A c s →
      (∃ s', exec c s = .returned (step c t).1 s' ∧ R s' (step c t).2) ∨
        ∃ s', exec c s = .threw s' ∧ R s' t)
    {cs : List κ} {s : σ} {t : τ} (hR : R s t) (hrun : Along exec A cs s) :
    ∃ rs s', execAll exec cs s = .ok (rs, s') ∧
      rs.reduceOption = (runMachine step (completed cs rs) t).1 ∧
      R s' (runMachine step (completed cs rs) t).2 := by
  induction cs generalizing s t with
  | nil => exact ⟨[], s, rfl, rfl, hR⟩
  | cons c cs ih =>
    rcases h c s t hR hrun.1 with ⟨s₁, hexec, hR₁⟩ | ⟨s₁, hexec, hR₁⟩
    · obtain ⟨rs, s', hall, hrs, hR'⟩ := ih hR₁ (hrun.2 s₁ (.inl ⟨_, hexec⟩))
      refine ⟨some (step c t).1 :: rs, s', by simp only [execAll, hexec, hall]; rfl, ?_, hR'⟩
      rw [List.reduceOption_cons_of_some, completed_some, runMachine, hrs]
    · obtain ⟨rs, s', hall, hrs, hR'⟩ := ih hR₁ (hrun.2 s₁ (.inr hexec))
      refine ⟨none :: rs, s', by simp only [execAll, hexec, hall]; rfl, ?_, hR'⟩
      rw [List.reduceOption_cons_of_none, completed_none, hrs]

/-- **Simulation up to a relation on the replies.** Suppose that every call that satisfies `A`
returns, that its reply is related by `Q` to that of the abstract machine, and that the states stay
related by `R`. Then so it is with a sequence of such calls. -/
theorem execAll_simulates_along {ρ' : Type} {exec : κ → Proc σ ρ} {step : κ → τ → ρ' × τ}
    {R : σ → τ → Prop} {Q : ρ' → ρ → Prop} {A : κ → σ → Prop} (h : ∀ c s t, R s t → A c s →
      ∃ r s', exec c s = .returned r s' ∧ Q (step c t).1 r ∧ R s' (step c t).2)
    {cs : List κ} {s : σ} {t : τ} (hR : R s t) (hrun : Along exec A cs s) :
    ∃ rs s', execAll exec cs s = .ok (rs.map some, s') ∧
      List.Forall₂ Q (runMachine step cs t).1 rs ∧ R s' (runMachine step cs t).2 := by
  induction cs generalizing s t with
  | nil => exact ⟨[], s, rfl, .nil, hR⟩
  | cons c cs ih =>
    obtain ⟨r, s₁, hexec, hQ, hR₁⟩ := h c s t hR hrun.1
    obtain ⟨rs, s', hall, hQs, hR'⟩ := ih hR₁ (hrun.2 s₁ (.inl ⟨r, hexec⟩))
    exact ⟨r :: rs, s', by simp only [execAll, hexec, hall, List.map_cons]; rfl, .cons hQ hQs, hR'⟩

/-- The call ends with the reply, `none` if it throws, in the state `s'`. -/
def Ends (x : Proc σ ρ) (s : σ) (r : Option ρ) (s' : σ) : Prop :=
  match r with
  | some r => x s = .returned r s'
  | none => x s = .threw s'

theorem Ends.leads {x : Proc σ ρ} {s s' : σ} {r : Option ρ} (h : Ends x s r s') :
    Leads x s s' := by
  cases r with
  | some a => exact .inl ⟨a, h⟩
  | none => exact .inr h

/-- What is returned is passed on. -/
theorem Ends.map {α β : Type} {x : Proc σ α} {s s' : σ} {r : Option α} (h : Ends x s r s')
    (f : α → β) : Ends (x >>= fun a => pure (f a)) s (r.map f) s' := by
  cases r with
  | some a =>
    have hx : x s = .returned a s' := h
    exact bind_of_returned hx _
  | none =>
    have hx : x s = .threw s' := h
    exact bind_of_threw hx _

/-- A triple that tells how the call ends. -/
theorem Spec.ends {α : Type} {P : σ → Prop} {x : Proc σ α} {Q : Option α → σ → Prop}
    (h : Spec P x (fun a => Q (some a)) (Q none)) {s : σ} (hs : P s) :
    ∃ r s', Ends x s r s' ∧ Q r s' := by
  have hx := h s hs
  cases hxs : x s with
  | returned a s' =>
    rw [hxs] at hx
    exact ⟨some a, s', hxs, hx⟩
  | threw s' =>
    rw [hxs] at hx
    exact ⟨none, s', hxs, hx⟩
  | undefined e => simp only [hxs] at hx

/-- A call that cannot throw. -/
theorem Spec.exists_returned {α : Type} {P : σ → Prop} {x : Proc σ α} {Q : α → σ → Prop}
    (h : Spec P x Q fun _ => False) {s : σ} (hs : P s) : ∃ a s', x s = .returned a s' ∧ Q a s' := by
  have hx := h s hs
  cases hxs : x s with
  | returned a s' =>
    rw [hxs] at hx
    exact ⟨a, s', rfl, hx⟩
  | threw s' =>
    rw [hxs] at hx
    exact hx.elim
  | undefined e => simp only [hxs] at hx

/-- A run of a machine whose steps are a relation, with its replies. -/
inductive Trace (Step : κ → τ → Option ρ → τ → Prop) : List κ → τ → List (Option ρ) → τ → Prop
  | nil (t : τ) : Trace Step [] t [] t
  | cons {c : κ} {cs : List κ} {t t₁ t₂ : τ} {r : Option ρ} {rs : List (Option ρ)}
      (hstep : Step c t r t₁) (hrest : Trace Step cs t₁ rs t₂) : Trace Step (c :: cs) t (r :: rs) t₂

/-- **Simulation by a relation.** Suppose that every call that satisfies `A` ends, by return or by
exception, as the machine may step. Then a sequence of such calls goes as the machine may run. -/
theorem execAll_traces {exec : κ → Proc σ ρ} {Step : κ → τ → Option ρ → τ → Prop}
    {R : σ → τ → Prop} {A : κ → σ → Prop} (h : ∀ c s t, R s t → A c s →
      ∃ r s' t', Ends (exec c) s r s' ∧ Step c t r t' ∧ R s' t')
    {cs : List κ} {s : σ} {t : τ} (hR : R s t) (hrun : Along exec A cs s) :
    ∃ rs s' t', execAll exec cs s = .ok (rs, s') ∧ Trace Step cs t rs t' ∧ R s' t' := by
  induction cs generalizing s t with
  | nil => exact ⟨[], s, t, rfl, .nil t, hR⟩
  | cons c cs ih =>
    obtain ⟨r, s₁, t₁, hends, hstep, hR₁⟩ := h c s t hR hrun.1
    cases r with
    | some r =>
      have hexec : exec c s = .returned r s₁ := hends
      obtain ⟨rs, s', t', hall, htrace, hR'⟩ := ih hR₁ (hrun.2 s₁ (.inl ⟨r, hexec⟩))
      refine ⟨some r :: rs, s', t', ?_, .cons hstep htrace, hR'⟩
      simp only [execAll, hexec, hall]
      rfl
    | none =>
      have hexec : exec c s = .threw s₁ := hends
      obtain ⟨rs, s', t', hall, htrace, hR'⟩ := ih hR₁ (hrun.2 s₁ (.inr hexec))
      refine ⟨none :: rs, s', t', ?_, .cons hstep htrace, hR'⟩
      simp only [execAll, hexec, hall]
      rfl

/-! ### Machines that say which calls throw -/

/-- Every call of the run of the machine satisfies `A` in the state in which it is executed. -/
def Admits {ρ' : Type} (step : κ → τ → ρ' × τ) (A : κ → τ → Prop) : List κ → τ → Prop
  | [], _ => True
  | c :: cs, t => A c t ∧ Admits step A cs (step c t).2

/-- **Simulation with exceptions that are foreseen.** Suppose that every call that the machine
admits ends with the reply of the machine, `none` if it throws, and that the states stay related.
Then so it is with every sequence of calls that the machine admits. -/
theorem execAll_ends {exec : κ → Proc σ ρ} {step : κ → τ → Option ρ × τ} {R : σ → τ → Prop}
    {A : κ → τ → Prop} (h : ∀ c s t, R s t → A c t →
      ∃ s', Ends (exec c) s (step c t).1 s' ∧ R s' (step c t).2)
    {cs : List κ} {s : σ} {t : τ} (hR : R s t) (hcs : Admits step A cs t) :
    ∃ s', execAll exec cs s = .ok ((runMachine step cs t).1, s') ∧
      R s' (runMachine step cs t).2 := by
  induction cs generalizing s t with
  | nil => exact ⟨s, rfl, hR⟩
  | cons c cs ih =>
    obtain ⟨s₁, hends, hR₁⟩ := h c s t hR hcs.1
    obtain ⟨s', hall, hR'⟩ := ih hR₁ hcs.2
    refine ⟨s', ?_, hR'⟩
    rw [runMachine]
    cases hreply : (step c t).1 with
    | some r =>
      have hexec : exec c s = .returned r s₁ := by rwa [hreply] at hends
      simp only [execAll, hexec, hall]
      rfl
    | none =>
      have hexec : exec c s = .threw s₁ := by rwa [hreply] at hends
      simp only [execAll, hexec, hall]
      rfl

/-! ### Undefined behaviour -/

/-- The first call of a run has ended. -/
theorem execAll_cons_of_ends {exec : κ → Proc σ ρ} {c : κ} {s s' : σ} {r : Option ρ}
    (h : Ends (exec c) s r s') (cs : List κ) :
    execAll exec (c :: cs) s = (execAll exec cs s').map fun p => (r :: p.1, p.2) := by
  cases r with
  | some a =>
    have hexec : exec c s = .returned a s' := h
    rw [execAll, hexec]
  | none =>
    have hexec : exec c s = .threw s' := h
    rw [execAll, hexec]

/-- **Exact conditions for defined behaviour.** Suppose that the calls that satisfy `P` end as the
calls of another program do, and that all others have undefined behaviour. Then a sequence of calls
has none exactly if `P` holds along it, and then it does what the other program does. -/
theorem execAll_agrees_iff {exec : κ → Proc σ ρ} {exec' : κ → Proc τ ρ} {R : σ → τ → Prop}
    {P : κ → σ → Prop}
    (hdefined : ∀ c s t, R s t → P c s →
      ∃ r s' t', Ends (exec c) s r s' ∧ Ends (exec' c) t r t' ∧ R s' t')
    (hundefined : ∀ c s t, R s t → ¬P c s → ∃ e, exec c s = .undefined e)
    (cs : List κ) {s : σ} {t : τ} (hR : R s t) :
    ((∃ p, execAll exec cs s = .ok p) ↔ Along exec P cs s) ∧
      ∀ rs s', execAll exec cs s = .ok (rs, s') →
        ∃ t', execAll exec' cs t = .ok (rs, t') ∧ R s' t' := by
  induction cs generalizing s t with
  | nil =>
    refine ⟨iff_of_true ⟨_, rfl⟩ trivial, fun rs s' h => ?_⟩
    cases h
    exact ⟨t, rfl, hR⟩
  | cons c cs ih =>
    by_cases hP : P c s
    · obtain ⟨r, s₁, t₁, hends, hends', hR₁⟩ := hdefined c s t hR hP
      obtain ⟨hiff, hdo⟩ := ih hR₁
      rw [execAll_cons_of_ends hends, execAll_cons_of_ends hends']
      constructor
      · constructor
        · rintro ⟨p, hp⟩
          cases hall : execAll exec cs s₁ with
          | error e =>
            rw [hall] at hp
            cases hp
          | ok q => exact .cons hP hends.leads (hiff.mp ⟨q, hall⟩)
        · intro halong
          obtain ⟨q, hq⟩ := hiff.mpr (halong.2 s₁ hends.leads)
          exact ⟨_, by rw [hq]; rfl⟩
      · intro rs s' h
        cases hall : execAll exec cs s₁ with
        | error e =>
          rw [hall] at h
          cases h
        | ok q =>
          rw [hall] at h
          cases h
          obtain ⟨t', ht', hR'⟩ := hdo q.1 q.2 hall
          exact ⟨t', by rw [ht']; rfl, hR'⟩
    · obtain ⟨e, hexec⟩ := hundefined c s t hR hP
      have hcons : execAll exec (c :: cs) s = .error e := by rw [execAll, hexec]
      rw [hcons]
      refine ⟨iff_of_false ?_ fun halong => hP halong.1, fun rs s' h => ?_⟩
      · rintro ⟨p, hp⟩
        cases hp
      · cases h

/-- A machine is a program whose calls return. -/
private theorem execAll_machine {exec : κ → Proc τ ρ} {step : κ → τ → ρ × τ}
    (h : ∀ c t, exec c t = .returned (step c t).1 (step c t).2) (cs : List κ) (t : τ) :
    execAll exec cs t = .ok ((runMachine step cs t).1.map some, (runMachine step cs t).2) := by
  induction cs generalizing t with
  | nil => rfl
  | cons c cs ih =>
    have hends : Ends (exec c) t (some (step c t).1) (step c t).2 := h c t
    rw [execAll_cons_of_ends hends, ih]
    rfl

/-- The same for calls that do what an abstract machine does. -/
theorem execAll_defined_iff {exec : κ → Proc σ ρ} {step : κ → τ → ρ × τ} {R : σ → τ → Prop}
    {P : κ → σ → Prop}
    (hdefined : ∀ c s t, R s t → P c s →
      ∃ s', exec c s = .returned (step c t).1 s' ∧ R s' (step c t).2)
    (hundefined : ∀ c s t, R s t → ¬P c s → ∃ e, exec c s = .undefined e)
    (cs : List κ) {s : σ} {t : τ} (hR : R s t) :
    ((∃ p, execAll exec cs s = .ok p) ↔ Along exec P cs s) ∧
      ∀ rs s', execAll exec cs s = .ok (rs, s') →
        rs = (runMachine step cs t).1.map some ∧ R s' (runMachine step cs t).2 := by
  obtain ⟨machine, hmachine⟩ : ∃ machine : κ → Proc τ ρ,
      ∀ c t, machine c t = .returned (step c t).1 (step c t).2 := ⟨_, fun _ _ => rfl⟩
  have hagrees : ∀ c s t, R s t → P c s →
      ∃ r s' t', Ends (exec c) s r s' ∧ Ends (machine c) t r t' ∧ R s' t' := by
    intro c s t hR hP
    obtain ⟨s', hexec, hR'⟩ := hdefined c s t hR hP
    exact ⟨some (step c t).1, s', (step c t).2, hexec, hmachine c t, hR'⟩
  obtain ⟨hiff, hdo⟩ := execAll_agrees_iff hagrees hundefined cs hR
  refine ⟨hiff, fun rs s' h => ?_⟩
  obtain ⟨t', ht', hR'⟩ := hdo rs s' h
  rw [execAll_machine hmachine] at ht'
  cases ht'
  exact ⟨rfl, hR'⟩

end Proc
