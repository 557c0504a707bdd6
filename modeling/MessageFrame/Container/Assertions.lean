import MessageFrame.Container.Transparency
import MessageFrame.Model.Assertions

/-!
# Debug and Release builds

The assertions of a Debug build say that a key that is added is absent. `assertions_exact` compares
the two builds on any sequence of calls: the Debug build aborts at the first `add` or `add_flat` of
a present key, which the Release build would have turned into a duplicate, and nowhere else; up to
there it does what the Release build does. The assertion inside `set` and `set_flat` never fails.
-/

namespace MsgFrame

open Msgpack AssocList

namespace HybridMessageMap

variable {μ : Type} [UnorderedMap μ ParameterKey ParameterValue] {m : HybridMessageMap μ}

/-- `add` with its assertion. -/
private theorem debug_add (h : m.Inv) (device param : ByteString) (val : Arg) :
    Debug.add device param val m =
      if m.locate ⟨composeKey device param⟩ = none then some (add device param val m)
      else none := by
  unfold Debug.add
  rw [Asserting.lift_bind_of_returned (Proc.get_apply m), findRef_eq h,
    Asserting.lift_bind_of_returned (Proc.eval_ok _ m)]
  cases m.locate ⟨composeKey device param⟩ with
  | none => rfl
  | some ref => rfl

/-- `add_flat` with its assertion. -/
private theorem debug_addFlat (h : m.Inv) (flatKey : FlatKey) (val : Arg) :
    Debug.addFlat flatKey val m =
      if m.locate ⟨flatKey.view⟩ = none then some (addFlat flatKey val m) else none := by
  unfold Debug.addFlat findFlatRef
  rw [Asserting.lift_bind_of_returned (Proc.get_apply m), findViewRef_eq h,
    Asserting.lift_bind_of_returned (Proc.eval_ok _ m)]
  cases m.locate ⟨flatKey.view⟩ with
  | none => rfl
  | some ref => rfl

/-- `set` inserts what its own search has not found, so its assertion holds. -/
private theorem debug_set (h : m.Inv) (device param : ByteString) (val : Arg) :
    Debug.set device param val m = some (set device param val m) := by
  unfold Debug.set set
  rw [Asserting.lift_bind_of_returned (Proc.get_apply m), Proc.get_bind, findForWrite_eq h,
    Asserting.lift_bind_of_returned (Proc.eval_ok _ m), Proc.eval_ok_bind]
  cases hlocate : m.locate ⟨composeKey device param⟩ with
  | none => exact (debug_add h device param val).trans (if_pos hlocate)
  | some ref => rfl

private theorem debug_setFlat (h : m.Inv) (flatKey : FlatKey) (val : Arg) :
    Debug.setFlat flatKey val m = some (setFlat flatKey val m) := by
  unfold Debug.setFlat setFlat findFlatRef
  rw [Asserting.lift_bind_of_returned (Proc.get_apply m), Proc.get_bind, findViewRef_eq h,
    Asserting.lift_bind_of_returned (Proc.eval_ok _ m), Proc.eval_ok_bind]
  cases hlocate : m.locate ⟨flatKey.view⟩ with
  | none => exact (debug_addFlat h flatKey val).trans (if_pos hlocate)
  | some ref => rfl

variable [LawfulUnorderedMap μ]

/-- The key of an assertion is absent exactly if the search that the assertion makes fails. -/
private theorem findView_eq_none (h : m.Inv) {key : ByteString} :
    m.findView key = .ok none ↔ m.locate ⟨key⟩ = none := by
  rw [findView_eq h, Except.ok.injEq, lookup_eq_none, locate_eq_none h]

/-- A call aborts unless it adds absent keys only, and otherwise does what it does without
assertions. -/
private theorem debugExec_cases (h : m.Inv) (c : MapCall) :
    (AddsAbsent c m → c.debugExec m = some (c.exec m)) ∧
      (¬AddsAbsent c m → c.debugExec m = none) := by
  have hnotInsert : (∀ key val, c.op ≠ .insert key val) → AddsAbsent c m :=
    fun hop key val h => absurd h (hop key val)
  have hinsert : ∀ {key : ByteString} {val : ParameterValue}
      {x : Asserting (HybridMessageMap μ) Unit} {y : Proc (HybridMessageMap μ) Unit},
      c.op = .insert key val →
      x m = (if m.locate ⟨key⟩ = none then some (y m) else none) →
      (AddsAbsent c m → (x >>= fun _ => (pure .void : Asserting _ Reply)) m =
        some ((y >>= fun _ => pure .void) m)) ∧
      (¬AddsAbsent c m → (x >>= fun _ => (pure .void : Asserting _ Reply)) m = none) := by
    intro key val x y hop hx
    have hiff : AddsAbsent c m ↔ m.locate ⟨key⟩ = none := by
      rw [← findView_eq_none h]
      refine ⟨fun habs => habs key val hop, fun hfind key' val' hop' => ?_⟩
      rw [hop] at hop'
      cases hop'
      exact hfind
    rw [hiff]
    refine ⟨fun hnone => ?_, fun hsome => ?_⟩
    · rw [if_pos hnone] at hx
      exact Asserting.bind_pure_of_eq_some hx fun _ => Reply.void
    · rw [if_neg hsome] at hx
      exact Asserting.bind_of_eq_none hx _
  cases c with
  | add device param val => exact hinsert rfl (debug_add h device param val)
  | addFlat flatKey val => exact hinsert rfl (debug_addFlat h flatKey val)
  | set device param val =>
    refine ⟨fun _ => ?_, fun hnot => absurd (hnotInsert nofun) hnot⟩
    exact Asserting.bind_pure_of_eq_some (debug_set h device param val) fun _ => Reply.void
  | setFlat flatKey val =>
    refine ⟨fun _ => ?_, fun hnot => absurd (hnotInsert nofun) hnot⟩
    exact Asserting.bind_pure_of_eq_some (debug_setFlat h flatKey val) fun _ => Reply.void
  | update _ _ _ | updateFlat _ _ | find _ _ | findFlat _ | clear =>
    exact ⟨fun _ => rfl, fun hnot => absurd (hnotInsert nofun) hnot⟩

/-- **The assertions are exact.** On a container constructed with any sizing hint, a sequence of
calls runs to its end in a Debug build exactly if, in the Release build, every key that it adds is
absent at that moment; and then the two builds give the same replies and leave the same
container. -/
theorem assertions_exact (config : FrameConfig) (calls : List MapCall)
    (x : Checked (List (Option Reply) × HybridMessageMap μ)) :
    Asserting.runAll MapCall.debugExec calls (ofConfig config) = some x ↔
      Proc.Along MapCall.exec AddsAbsent calls (ofConfig config : HybridMessageMap μ) ∧
        x = Proc.execAll MapCall.exec calls (ofConfig config) := by
  refine Asserting.runAll_eq_some_iff (I := fun m => m.Inv) (fun c m m' h hlead => ?_)
    (fun c m h => (debugExec_cases h c).1) (fun c m h => (debugExec_cases h c).2) calls
    (ofConfig_inv config) x
  obtain ⟨r, m₁, hexec, heff⟩ := c.exec_spec h
  obtain rfl := hlead.unique (.inl ⟨r, hexec⟩)
  exact heff.inv h

/-- A key is set twice and then added: there the Debug build stops. -/
theorem assertions_exact_duplicate :
    (∃ x, Asserting.runAll MapCall.debugExec [.set [97] [98] (.lvalue .unknown),
        .set [97] [98] (.rvalue (.int64 1))]
      (ofConfig {} : HybridMessageMap (ListMap ParameterKey ParameterValue)) = some x) ∧
    Asserting.runAll MapCall.debugExec [.set [97] [98] (.lvalue .unknown),
        .set [97] [98] (.rvalue (.int64 1)), .addFlat (.compose [97] [98]) (.rvalue .unknown)]
      (ofConfig {} : HybridMessageMap (ListMap ParameterKey ParameterValue)) = none := by
  refine ⟨⟨_, (assertions_exact {} _ _).mpr ⟨?_, rfl⟩⟩, rfl⟩
  exact .cons (fun key val hop => by cases hop) (.inl ⟨_, rfl⟩)
    (.cons (fun key val hop => by cases hop) (.inl ⟨_, rfl⟩) trivial)

end HybridMessageMap

end MsgFrame
