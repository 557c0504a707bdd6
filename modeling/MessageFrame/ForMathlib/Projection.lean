import Mathlib.Data.Nat.Find
import MessageFrame.ForMathlib.Proc

/-!
# Procedures that project to a part of the state

A state may carry more than a program shows: counters, capacities, whatever a finer account of
the same program keeps track of. `Proc.Projects read x y` says that `x`, which runs on the finer
state, does on the part that `read` selects exactly what `y` does there: the same value, the same
exception, the same fault. It is a congruence for the statements of a body (`Projects.bind`,
`Projects.ite`, `Projects.tryCatch`), a statement that leaves the part alone may be added on either
side of another (`Projects.before`, `Projects.after`), and whole sequences of calls project with
the calls (`execAll_projects`).

`Proc.Accompanies` is the same for one state, next to which something else is kept: it says in
addition how that changes.

The last part is about loops over indices whose rounds can fail: such a loop returns if every
round does, and otherwise stops at the first index whose round throws (`forEach_range_of_exists`).
-/

variable {σ τ ω α β κ ρ : Type}

/-- The outcome, seen on a part of the state. -/
def Outcome.mapState (read : σ → τ) : Outcome σ α → Outcome τ α
  | .returned a s => .returned a (read s)
  | .threw s => .threw (read s)
  | .undefined e => .undefined e

namespace Proc

/-! ### Projections -/

/-- On a part of the state, `x` does what `y` does. -/
def Projects (read : σ → τ) (x : Proc σ α) (y : Proc τ α) : Prop :=
  ∀ s, (x s).mapState read = y (read s)

variable {read : σ → τ}

theorem Projects.pure (a : α) : Projects read (Pure.pure a) (Pure.pure a : Proc τ α) :=
  fun _ => rfl

theorem Projects.eval (x : Checked α) : Projects read (Proc.eval x) (Proc.eval x) := by
  intro s
  cases x <;> rfl

theorem Projects.orThrow (x : Option α) : Projects read (Proc.orThrow x) (Proc.orThrow x) := by
  intro s
  cases x <;> rfl

theorem Projects.bind {x : Proc σ α} {y : Proc τ α} {f : α → Proc σ β} {g : α → Proc τ β}
    (hx : Projects read x y) (hf : ∀ a, Projects read (f a) (g a)) :
    Projects read (x >>= f) (y >>= g) := by
  intro s
  have h := hx s
  rw [bind_apply, bind_apply, ← h]
  cases x s with
  | returned a s' => exact hf a s'
  | threw s' => rfl
  | undefined e => rfl

/-- The two bodies read their states and go on with what they have read. -/
theorem Projects.get_bind {f : σ → Proc σ α} {g : τ → Proc τ α}
    (h : ∀ s, Projects read (f s) (g (read s))) :
    Projects read (Proc.get >>= f) (Proc.get >>= g) :=
  fun s => h s s

/-- Only the finer body reads its state. -/
theorem Projects.get_bind_left {f : σ → Proc σ α} {y : Proc τ α}
    (h : ∀ s, Projects read (f s) y) : Projects read (Proc.get >>= f) y :=
  fun s => h s s

theorem Projects.ite {c : Prop} [Decidable c] {x x' : Proc σ α} {y y' : Proc τ α}
    (hx : Projects read x y) (hx' : Projects read x' y') :
    Projects read (if c then x else x') (if c then y else y') := by
  split_ifs
  · exact hx
  · exact hx'

theorem Projects.forEach {body : β → Proc σ Unit} {body' : β → Proc τ Unit}
    (h : ∀ b, Projects read (body b) (body' b)) (bs : List β) :
    Projects read (Proc.forEach body bs) (Proc.forEach body' bs) := by
  induction bs with
  | nil => exact .pure ()
  | cons b bs ih => exact (h b).bind fun _ => ih

/-- A procedure on a member projects to itself there. -/
theorem Projects.onField {write : σ → τ → σ} (h : ∀ s t, read (write s t) = t)
    (x : Proc τ α) : Projects read (Proc.onField read write x) x := by
  intro s
  unfold Proc.onField
  cases x (read s) with
  | returned a t => exact congrArg (Outcome.returned a) (h s t)
  | threw t => exact congrArg Outcome.threw (h s t)
  | undefined e => rfl

/-- An assignment to the other members. -/
theorem Projects.modify {f : σ → σ} (h : ∀ s, read (f s) = read s) :
    Projects read (Proc.modify f) (Pure.pure ()) :=
  fun s => congrArg (Outcome.returned ()) (h s)

/-- A statement that leaves the part alone, before another one. -/
theorem Projects.before {x : Proc σ α} {a : α} {f : α → Proc σ β} {y : Proc τ β}
    (hx : Projects read x (Pure.pure a)) (hf : Projects read (f a) y) :
    Projects read (x >>= f) y := by
  intro s
  have h := hx s
  rw [bind_apply]
  cases hxs : x s with
  | returned b s' =>
    rw [hxs] at h
    obtain ⟨hval, hread⟩ := Outcome.returned.inj h
    rw [hval, ← hread]
    exact hf s'
  | threw s' =>
    rw [hxs] at h
    cases h
  | undefined e =>
    rw [hxs] at h
    cases h

/-- A statement that leaves the part alone, after another one. -/
theorem Projects.after {x : Proc σ α} {y : Proc τ α} {f : α → Proc σ α} (hx : Projects read x y)
    (hf : ∀ a, Projects read (f a) (Pure.pure a)) : Projects read (x >>= f) y := by
  intro s
  have h := hx s
  rw [bind_apply]
  cases hxs : x s with
  | returned a s' =>
    rw [hxs] at h
    rw [← h]
    exact hf a s'
  | threw s' => rw [← h, hxs]
  | undefined e => rw [← h, hxs]

/-- A handler that is never entered. -/
theorem Projects.tryCatch {body handler : Proc σ α} {y : Proc τ α} (hbody : Projects read body y)
    (hy : ∀ t t', y t ≠ .threw t') : Projects read (Proc.tryCatch body handler) y := by
  intro s
  have h := hbody s
  unfold Proc.tryCatch
  cases hxs : body s with
  | returned a s' => rw [← h, hxs]
  | threw s' =>
    rw [hxs] at h
    exact absurd h.symm (hy _ _)
  | undefined e => rw [← h, hxs]

/-- What the projection of a returning call returns. -/
theorem Projects.returned {x : Proc σ α} {y : Proc τ α} (h : Projects read x y) {s : σ} {a : α}
    {t : τ} (hy : y (read s) = .returned a t) : ∃ s', x s = .returned a s' ∧ read s' = t := by
  have hs := h s
  rw [hy] at hs
  cases hxs : x s with
  | returned b s' =>
    rw [hxs] at hs
    cases hs
    exact ⟨s', rfl, rfl⟩
  | threw s' =>
    rw [hxs] at hs
    cases hs
  | undefined e =>
    rw [hxs] at hs
    cases hs

/-- **Sequences of calls project with the calls.** -/
theorem execAll_projects {exec : κ → Proc σ ρ} {exec' : κ → Proc τ ρ}
    (h : ∀ c, Projects read (exec c) (exec' c)) (cs : List κ) (s : σ) :
    (execAll exec cs s).map (fun p => (p.1, read p.2)) = execAll exec' cs (read s) := by
  induction cs generalizing s with
  | nil => rfl
  | cons c cs ih =>
    have hc := h c s
    rw [execAll, execAll, ← hc]
    cases exec c s with
    | returned r s' =>
      simp only [Outcome.mapState, ← ih s']
      cases execAll exec cs s' <;> rfl
    | threw s' =>
      simp only [Outcome.mapState, ← ih s']
      cases execAll exec cs s' <;> rfl
    | undefined e => rfl

/-- What a sequence of calls returns on the part, it returns. -/
theorem execAll_of_projects {exec : κ → Proc σ ρ} {exec' : κ → Proc τ ρ}
    (h : ∀ c, Projects read (exec c) (exec' c)) {cs : List κ} {s : σ} {rs : List (Option ρ)}
    {t : τ} (ht : execAll exec' cs (read s) = .ok (rs, t)) :
    ∃ s', execAll exec cs s = .ok (rs, s') ∧ read s' = t := by
  have hproj := execAll_projects h cs s
  rw [ht] at hproj
  cases hall : execAll exec cs s with
  | error e =>
    rw [hall] at hproj
    cases hproj
  | ok p =>
    rw [hall] at hproj
    obtain ⟨hrs, hread⟩ := Prod.ext_iff.mp (Except.ok.inj hproj)
    exact ⟨p.2, congrArg Except.ok (Prod.ext hrs rfl), hread⟩

/-! ### A state next to another one -/

/-- With `w` next to the state, `x` does what `y` does alone, and `w` changes as `G` allows. -/
def Accompanies (G : ω → ω → Prop) (x : Proc (ω × σ) α) (y : Proc σ α) (w : ω) (s : σ) : Prop :=
  ∃ w', G w w' ∧ x (w, s) = (y s).mapState fun t => (w', t)

/-- A statement about the state alone. -/
theorem onField_snd_apply (x : Proc σ α) (w : ω) (s : σ) :
    Proc.onField Prod.snd (fun p t => (p.1, t)) x (w, s) = (x s).mapState fun t => (w, t) := by
  unfold Proc.onField
  cases x s <;> rfl

variable {G : ω → ω → Prop} {w : ω}

theorem Accompanies.pure (hG : ∀ w, G w w) (a : α) (s : σ) :
    Accompanies G (Pure.pure a) (Pure.pure a) w s := ⟨w, hG w, rfl⟩

theorem Accompanies.onField_snd (hG : ∀ w, G w w) (x : Proc σ α) (s : σ) :
    Accompanies G (Proc.onField Prod.snd (fun p t => (p.1, t)) x) x w s :=
  ⟨w, hG w, onField_snd_apply x w s⟩

theorem Accompanies.bind (hG : ∀ a b c, G a b → G b c → G a c) {x : Proc (ω × σ) α}
    {y : Proc σ α} {f : α → Proc (ω × σ) β} {g : α → Proc σ β} {s : σ}
    (hx : Accompanies G x y w s)
    (hf : ∀ a w' s', G w w' → y s = .returned a s' → Accompanies G (f a) (g a) w' s') :
    Accompanies G (x >>= f) (y >>= g) w s := by
  obtain ⟨w', hw', hx⟩ := hx
  unfold Accompanies
  rw [bind_apply, bind_apply, hx]
  cases hy : y s with
  | returned a s' =>
    obtain ⟨w'', hw'', hf⟩ := hf a w' s' hw' hy
    exact ⟨w'', hG _ _ _ hw' hw'', hf⟩
  | threw s' => exact ⟨w', hw', rfl⟩
  | undefined e => exact ⟨w', hw', rfl⟩

/-- A statement about the state alone, before other statements. -/
theorem Accompanies.bind_onField_snd {y : Proc σ α} {f : α → Proc (ω × σ) β} {g : α → Proc σ β}
    {s : σ} (hG : ∀ w, G w w)
    (hf : ∀ a s', y s = .returned a s' → Accompanies G (f a) (g a) w s') :
    Accompanies G (Proc.onField Prod.snd (fun p t => (p.1, t)) y >>= f) (y >>= g) w s := by
  unfold Accompanies
  rw [bind_apply, bind_apply, onField_snd_apply]
  cases hy : y s with
  | returned a s' => exact hf a s' hy
  | threw s' => exact ⟨w, hG w, rfl⟩
  | undefined e => exact ⟨w, hG w, rfl⟩

/-- A handler that touches nothing. -/
theorem Accompanies.tryCatch_pure {x : Proc (ω × σ) α} {y : Proc σ α} {s : σ}
    (hx : Accompanies G x y w s) (a : α) :
    Accompanies G (Proc.tryCatch x (Pure.pure a)) (Proc.tryCatch y (Pure.pure a)) w s := by
  obtain ⟨w', hw', hx⟩ := hx
  refine ⟨w', hw', ?_⟩
  unfold Proc.tryCatch
  rw [hx]
  cases y s <;> rfl

/-- A fault behind a statement that does not throw. -/
theorem bind_undefined_of_mapState {x : Proc (ω × σ) α} {y : Proc σ α} {w' : ω}
    {f : α → Proc (ω × σ) β} {s : σ} (hx : x (w, s) = (y s).mapState fun t => (w', t))
    (hy : ∀ s', y s ≠ .threw s')
    (hf : ∀ a s', y s = .returned a s' → ∃ e, f a (w', s') = .undefined e) :
    ∃ e, (x >>= f) (w, s) = .undefined e := by
  rw [bind_apply, hx]
  cases hys : y s with
  | returned a s' => exact hf a s' hys
  | threw s' => exact absurd hys (hy s')
  | undefined e => exact ⟨e, rfl⟩

/-! ### Loops over indices -/

variable {body : ℕ → Proc σ Unit} {st : ℕ → σ}

/-- A loop all of whose rounds return. -/
theorem forEach_range_of_returned {n : ℕ}
    (h : ∀ i < n, body i (st i) = .returned () (st (i + 1))) :
    forEach body (List.range n) (st 0) = .returned () (st n) := by
  induction n with
  | zero => rfl
  | succ n ih =>
    have hrest := ih fun i hi => h i (Nat.lt_succ_of_lt hi)
    rw [List.range_succ, forEach_append, bind_of_returned hrest, forEach_cons, bind_forEach_nil]
    exact h n (Nat.lt_succ_self n)

/-- A loop that is left in round `k`. -/
theorem forEach_range_of_threw {k n : ℕ} (hk : k < n)
    (h : ∀ i < k, body i (st i) = .returned () (st (i + 1))) {s : σ}
    (hthrow : body k (st k) = .threw s) : forEach body (List.range n) (st 0) = .threw s := by
  obtain ⟨m, rfl⟩ : ∃ m, n = k + (m + 1) := ⟨n - k - 1, by omega⟩
  rw [List.range_add, forEach_append, bind_of_returned (forEach_range_of_returned h), forEach_map,
    List.range_succ_eq_map, forEach_cons]
  exact bind_of_threw hthrow _

/-- **The first failure ends the loop.** The rounds throw where `p` holds and return elsewhere. -/
theorem forEach_range_of_exists {p : ℕ → Prop} [DecidablePred p] {n : ℕ} {err : ℕ → σ}
    (hreturn : ∀ i < n, ¬p i → body i (st i) = .returned () (st (i + 1)))
    (hthrow : ∀ i < n, p i → body i (st i) = .threw (err i)) (hex : ∃ i < n, p i) :
    ∃ k < n, forEach body (List.range n) (st 0) = .threw (err k) := by
  have hmin := Nat.find_spec hex
  refine ⟨Nat.find hex, hmin.1, forEach_range_of_threw hmin.1 (fun i hi => ?_)
    (hthrow _ hmin.1 hmin.2)⟩
  have hlt : i < n := Nat.lt_trans hi hmin.1
  exact hreturn i hlt fun hp => Nat.find_min hex hi ⟨hlt, hp⟩

end Proc
